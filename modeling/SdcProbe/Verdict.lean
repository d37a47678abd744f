import SdcProbe.SweepInvariant
import SdcProbe.SweepTotals

/-!
# Summary, verdict and exit code

The rest of `main` after the core loop, and what a whole run comes to. A run has
detected something when one of its rounds has two different hashes or one of its
passes failed; whether the totals, the result lines and the exit code say so is
the subject of this file.
-/

namespace SdcProbe.Verdict

open Report Environment CoreSweep SweepAccounts SweepInvariant SweepTotals

set_option autoImplicit false

def kExitClean : Nat := 0
def kExitDetected : Nat := 1
def kExitUsage : Nat := 2
def kExitInterrupted : Nat := 4

variable {count : Nat}

/-- The summary blocks of the selected probes. -/
def summary (config : Config) (sweep : Sweep count) : List Line :=
  (if config.probes.ch then
    [.chSummary sweep.results config.selected.length sweep.skipped (chTotals sweep.results), .blank]
    else []) ++
  (if config.probes.rbx then
    [.rbxSummary sweep.rbxResults config.selected.length sweep.skipped
      (rbxTotals sweep.rbxResults), .blank]
    else [])

/-- Which of its three `RESULT:` lines a probe prints. -/
def verdictOf (detections : Nat) (interrupted : Bool) : Verdict :=
  if detections ≠ 0 then .detected else if interrupted then .interrupted else .clean

def chVerdict (results : List RunResult) (interrupted : Bool) : List Line :=
  let totals := chTotals results
  .result .ch (verdictOf totals.detections interrupted) totals.detections totals.checks
      results.length ::
    if totals.detections ≠ 0 then
      (results.filter fun r => r.detections ≠ 0).map fun r =>
        .affected .ch r.cpuIndex r.detections r.checks
    else []

def rbxVerdict (results : List RbxRunResult) (interrupted : Bool) : List Line :=
  let totals := rbxTotals results
  .result .rbx (verdictOf totals.detections interrupted) totals.detections totals.calls
      results.length ::
    if totals.detections ≠ 0 then
      (results.filter fun r => r.detections ≠ 0).map fun r =>
        .affected .rbx r.cpuIndex r.detections r.calls
    else []

def verdict (config : Config) (sweep : Sweep count) : List Line × Nat :=
  if sweep.measuredCores = 0 then ([.nothingTested], kExitUsage)
  else
    ((if config.probes.ch then chVerdict sweep.results sweep.interrupted else []) ++
      (if config.probes.rbx then
        (if config.probes.ch then [.blank] else []) ++
          rbxVerdict sweep.rbxResults sweep.interrupted
        else []),
      if (chTotals sweep.results).detections ≠ 0 ∨ (rbxTotals sweep.rbxResults).detections ≠ 0 then
        kExitDetected
      else if sweep.interrupted then kExitInterrupted
      else kExitClean)

/-- What `main` leaves behind: the state after the core loop, the whole history
and report, and the exit code. -/
structure Outcome (count : Nat) where
  sweep : Sweep count
  world : World count
  exitCode : Nat

def main (env : Env count) (config : Config) (fuel : Nat) : Option (Outcome count) :=
  (sweepCores env config fuel 0 config.selected (prelude env config)).map fun sweep =>
    let world := sweep.world.print (summary config sweep)
    let (lines, exitCode) := verdict config sweep
    ⟨sweep, world.print lines, exitCode⟩

/-- An action that may stand before the core loop. -/
def isPrelude : Action count → Bool
  | .clock .calibration _ | .pinFirst .. | .calibrationRows => true
  | _ => false

theorem calibrate_layers_prelude (env : Env count) (sweep : Sweep count)
    (start : ∀ action ∈ sweep.world.history, isPrelude action = true) :
    ∀ action ∈ (calibrateLayers env sweep).world.history, isPrelude action = true := by
  have probe : ∀ sweep : Sweep count,
      (∀ action ∈ sweep.world.history, isPrelude action = true) →
      ∀ action ∈ (probeNsPerSample env sweep).world.history, isPrelude action = true := by
    intro sweep start action member
    simp only [probeNsPerSample, calibrationReading, calibrationRows, World.now,
      World.record_history, List.mem_append, List.mem_singleton] at member
    rcases member with (((old | rfl) | rfl) | rfl) | rfl
    · exact start action old
    · rfl
    · rfl
    · rfl
    · rfl
  exact probe _ (probe _ (probe _ start))

theorem prelude_history (env : Env count) (config : Config) :
    ∀ action ∈ (prelude env config).world.history, isPrelude action = true := by
  rw [prelude]
  split_ifs
  · intro action member
    rw [List.mem_singleton.mp member]
    rfl
  · apply calibrate_layers_prelude
    intro action member
    rw [List.mem_singleton.mp member]
    rfl
  · simp

section Prelude

variable {history : List (Action count)}

theorem prelude_leaves_no_trace (before : ∀ action ∈ history, isPrelude action = true) :
    roundsOf history = [] ∧ passesOf history = [] ∧ pinsOf history = [] := by
  induction history with
  | nil => exact ⟨rfl, rfl, rfl⟩
  | cons action rest ih =>
      obtain ⟨rounds, passes, pins⟩ :=
        ih (fun other member => before other (List.mem_cons_of_mem _ member))
      have early := before action List.mem_cons_self
      cases action <;> first | exact ⟨rounds, passes, pins⟩ | exact Bool.noConfusion early

/-- Before the core loop nothing has been polled, pinned or measured. -/
theorem progress_of_prelude (env : Env count) (minutes : Nat)
    (before : ∀ action ∈ history, isPrelude action = true) :
    Progress env minutes history [] [] false where
  polled := by
    constructor
    · intro i action found measures
      have early := before action (List.mem_of_getElem? found)
      cases action <;> first | exact Bool.noConfusion early | exact Bool.noConfusion measures
    · intro i cpu pinned found
      exact Bool.noConfusion (before _ (List.mem_of_getElem? found))
  rounds := ⟨[], (prelude_leaves_no_trace before).1.symm, .nil⟩
  passes := ⟨[], (prelude_leaves_no_trace before).2.1.symm, .nil⟩
  flag := by
    constructor
    · intro flagged
      cases flagged
    · intro saw
      obtain ⟨site, member⟩ := saw
      exact Bool.noConfusion (before _ member)
  whole _ := ⟨by simp, by simp⟩
  inTime _ := by
    simp only [List.not_mem_nil, false_imp_iff, implies_true, and_self, iff_true]
    intro i value found
    exact Bool.noConfusion (before _ (List.mem_of_getElem? found))

end Prelude

theorem prelude_fields (env : Env count) (config : Config) :
    (prelude env config).results = [] ∧ (prelude env config).rbxResults = [] ∧
      (prelude env config).skipped = 0 ∧ (prelude env config).measuredCores = 0 ∧
      (prelude env config).interrupted = false ∧ (prelude env config).world.log = [] := by
  rw [prelude]
  split_ifs <;> exact ⟨rfl, rfl, rfl, rfl, rfl, rfl⟩

theorem prelude_visiting (env : Env count) (config : Config) :
    Visiting env config [] (prelude env config) := by
  obtain ⟨results, rbxResults, skipped, measuredCores, interrupted, log⟩ :=
    prelude_fields env config
  have before := prelude_history env config
  obtain ⟨_, _, pins⟩ := prelude_leaves_no_trace before
  have noCores : measuredOf (prelude env config).world.history = [] := by
    rw [measuredOf, pins]
    rfl
  have cores : ∀ selected, coresOf selected (prelude env config).world.history = [] := by
    intro selected
    rw [coresOf, noCores, List.map_nil, ite_self]
  constructor
  · rw [results, rbxResults]
    exact progress_of_prelude env config.minutes before
  · rw [log]
    simp
  · exact interrupted
  · rw [pins]
    rfl
  · rw [noCores, measuredCores]
    rfl
  · rw [measuredCores, skipped]
    rfl
  · rw [results, cores]
    rfl
  · rw [rbxResults, cores]
    rfl

/-- A whole run in terms of the sweep it is made of. -/
theorem main_spec {env : Env count} {config : Config} {fuel : Nat} {out : Outcome count}
    (ran : main env config fuel = some out) :
    Finished env config out.sweep ∧ out.world.history = out.sweep.world.history ∧
      out.world.log =
        out.sweep.world.log ++ summary config out.sweep ++ (verdict config out.sweep).1 ∧
      out.exitCode = (verdict config out.sweep).2 := by
  obtain ⟨sweep, swept, rfl⟩ := Option.map_eq_some_iff.mp ran
  exact ⟨sweep_cores_finished (prelude_visiting env config) rfl swept, rfl, rfl, rfl⟩

/-- Some round or some pass shows the fault. -/
def Detects (history : List (Action count)) : Prop :=
  (∃ round ∈ roundsOf history, ChRun.differs round = true) ∨
    ∃ pass ∈ passesOf history, RbxRun.failed pass = true

/-- A probe prints this `RESULT:` line. -/
def Prints (out : Outcome count) (probe : Probe) (verdict : Verdict) : Prop :=
  ∃ detections checks cores, .result probe verdict detections checks cores ∈ out.world.log

section Finish

variable {env : Env count} {config : Config} {sweep : Sweep count}

/-- The printed totals account for every round and every pass of the run. -/
theorem totals_add_up (finished : Finished env config sweep) :
    (∃ parts, parts.flatten = roundsOf sweep.world.history ∧
      ChAddsUp parts (chTotals sweep.results)) ∧
    ∃ parts, parts.flatten = passesOf sweep.world.history ∧
      RbxAddsUp parts (rbxTotals sweep.rbxResults) := by
  obtain ⟨chParts, chPartition, chEach⟩ := finished.progress.rounds
  obtain ⟨rbxParts, rbxPartition, rbxEach⟩ := finished.progress.passes
  exact ⟨⟨chParts, chPartition, ch_totals_add_up chEach⟩,
    ⟨rbxParts, rbxPartition, rbx_totals_add_up rbxEach⟩⟩

theorem ch_detections (finished : Finished env config sweep) :
    (chTotals sweep.results).detections = (roundsOf sweep.world.history).countP ChRun.differs := by
  obtain ⟨⟨parts, partition, sums⟩, _⟩ := totals_add_up finished
  rw [sums.detections, partition]

theorem rbx_detections (finished : Finished env config sweep) :
    (rbxTotals sweep.rbxResults).detections =
      (passesOf sweep.world.history).countP RbxRun.failed := by
  obtain ⟨_, parts, partition, sums⟩ := totals_add_up finished
  rw [sums.detections, partition]

theorem detects_iff (finished : Finished env config sweep) :
    Detects sweep.world.history ↔ (chTotals sweep.results).detections ≠ 0 ∨
      (rbxTotals sweep.rbxResults).detections ≠ 0 := by
  rw [ch_detections finished, rbx_detections finished, ← Nat.pos_iff_ne_zero,
    ← Nat.pos_iff_ne_zero, List.countP_pos_iff, List.countP_pos_iff, Detects]

theorem unselected_ch (finished : Finished env config sweep) (off : config.probes.ch = false) :
    sweep.results = [] := by
  have cores := finished.chCores
  rw [off] at cores
  exact List.map_eq_nil_iff.mp cores

theorem unselected_rbx (finished : Finished env config sweep) (off : config.probes.rbx = false) :
    sweep.rbxResults = [] := by
  rcases finished.rbxCores with cores | ⟨_, selected, _⟩
  · rw [off] at cores
    exact List.map_eq_nil_iff.mp cores
  · rw [off] at selected
    cases selected

/-- The detections a probe's result line is about. -/
def detectionsOf (sweep : Sweep count) : Probe → Nat
  | .ch => (chTotals sweep.results).detections
  | .rbx => (rbxTotals sweep.rbxResults).detections

theorem detects_iff_selected (finished : Finished env config sweep) :
    Detects sweep.world.history ↔
      ∃ probe, config.probes.selects probe = true ∧ detectionsOf sweep probe ≠ 0 := by
  rw [detects_iff finished]
  constructor
  · intro either
    rcases either with ch | rbx
    · refine ⟨.ch, ?_, ch⟩
      by_contra off
      rw [unselected_ch finished (Bool.eq_false_of_not_eq_true off)] at ch
      exact ch rfl
    · refine ⟨.rbx, ?_, rbx⟩
      by_contra off
      rw [unselected_rbx finished (Bool.eq_false_of_not_eq_true off)] at rbx
      exact rbx rfl
  · intro selectedDetects
    obtain ⟨probe, _, detected⟩ := selectedDetects
    cases probe with
    | ch => exact .inl detected
    | rbx => exact .inr detected

end Finish

/-- A probe's `RESULT:` line, and the affected cores under it. -/
theorem verdict_block_cases {Result : Type*} {head line : Line} {any : Prop} [Decidable any]
    {results : List Result} {affected : Result → Line}
    (member : line ∈ head :: if any then results.map affected else []) :
    line = head ∨ ∃ r, line = affected r := by
  rcases List.mem_cons.mp member with same | rest
  · exact .inl same
  · split_ifs at rest
    · obtain ⟨r, _, same⟩ := List.mem_map.mp rest
      exact .inr ⟨r, same.symm⟩
    · cases rest

theorem ch_verdict_result {results : List RunResult} {interrupted : Bool} {line : Line}
    (member : line ∈ chVerdict results interrupted) (isResult : line.isResult = true) :
    line = .result .ch (verdictOf (chTotals results).detections interrupted)
      (chTotals results).detections (chTotals results).checks results.length := by
  rcases verdict_block_cases member with same | ⟨r, rfl⟩
  · exact same
  · cases isResult

theorem rbx_verdict_result {results : List RbxRunResult} {interrupted : Bool} {line : Line}
    (member : line ∈ rbxVerdict results interrupted) (isResult : line.isResult = true) :
    line = .result .rbx (verdictOf (rbxTotals results).detections interrupted)
      (rbxTotals results).detections (rbxTotals results).calls results.length := by
  rcases verdict_block_cases member with same | ⟨r, rfl⟩
  · exact same
  · cases isResult

theorem ch_verdict_not_tested {results : List RunResult} {interrupted : Bool} {line : Line}
    (member : line ∈ chVerdict results interrupted) : line.notTested = 0 := by
  rcases verdict_block_cases member with rfl | ⟨r, rfl⟩
  · rfl
  · rfl

theorem rbx_verdict_not_tested {results : List RbxRunResult} {interrupted : Bool} {line : Line}
    (member : line ∈ rbxVerdict results interrupted) : line.notTested = 0 := by
  rcases verdict_block_cases member with rfl | ⟨r, rfl⟩
  · rfl
  · rfl

section Lines

variable {config : Config} {sweep : Sweep count} {line : Line}

theorem summary_plain (member : line ∈ summary config sweep) : line.Plain := by
  rcases List.mem_append.mp member with ch | rbx
  · split_ifs at ch
    · rcases List.mem_pair.mp ch with rfl | rfl <;> exact ⟨rfl, rfl⟩
    · cases ch
  · split_ifs at rbx
    · rcases List.mem_pair.mp rbx with rfl | rfl <;> exact ⟨rfl, rfl⟩
    · cases rbx

/-- The lines of the verdict when a core was measured. -/
theorem mem_verdict_iff (measured : sweep.measuredCores ≠ 0) :
    line ∈ (verdict config sweep).1 ↔
      (config.probes.ch = true ∧ line ∈ chVerdict sweep.results sweep.interrupted) ∨
      (config.probes.ch = true ∧ config.probes.rbx = true ∧ line = .blank) ∨
      (config.probes.rbx = true ∧ line ∈ rbxVerdict sweep.rbxResults sweep.interrupted) := by
  rw [verdict, if_neg measured]
  cases config.probes.ch <;> cases config.probes.rbx <;> simp

theorem verdict_not_tested (member : line ∈ (verdict config sweep).1) : line.notTested = 0 := by
  by_cases measured : sweep.measuredCores = 0
  · rw [verdict, if_pos measured] at member
    rw [List.mem_singleton.mp member]
    rfl
  · rcases (mem_verdict_iff measured).mp member with ⟨_, ch⟩ | ⟨_, _, rfl⟩ | ⟨_, rbx⟩
    · exact ch_verdict_not_tested ch
    · rfl
    · exact rbx_verdict_not_tested rbx

end Lines

section Run

variable {env : Env count} {config : Config} {fuel : Nat} {out : Outcome count}

theorem announced_after_verdict (ran : main env config fuel = some out) :
    announced out.world.log = announced out.sweep.world.log := by
  obtain ⟨_, _, log, _⟩ := main_spec ran
  have summaryNone : announced (summary config out.sweep) = 0 :=
    announced_of_plain (fun line member => summary_plain member)
  have verdictNone : announced (verdict config out.sweep).1 = 0 :=
    announced_eq_zero (fun line member => verdict_not_tested member)
  rw [log, announced_append, announced_append, summaryNone, verdictNone, Nat.add_zero]

/-- Result lines come from the verdict only. -/
theorem result_line_in_verdict (ran : main env config fuel = some out) {line : Line}
    (isResult : line.isResult = true) :
    line ∈ out.world.log ↔ line ∈ (verdict config out.sweep).1 := by
  obtain ⟨finished, _, log, _⟩ := main_spec ran
  rw [log, List.mem_append, List.mem_append]
  constructor
  · intro member
    rcases member with (early | summarised) | inVerdict
    · exact absurd isResult (by rw [finished.noResult line early]; simp)
    · exact absurd isResult (by rw [(summary_plain summarised).1]; simp)
    · exact inVerdict
  · exact fun inVerdict => .inr inVerdict

/-- The summary blocks of the selected probes stand in the report. -/
theorem summaries_printed (ran : main env config fuel = some out) :
    (config.probes.ch = true → .chSummary out.sweep.results config.selected.length
      out.sweep.skipped (chTotals out.sweep.results) ∈ out.world.log) ∧
    (config.probes.rbx = true → .rbxSummary out.sweep.rbxResults config.selected.length
      out.sweep.skipped (rbxTotals out.sweep.rbxResults) ∈ out.world.log) := by
  obtain ⟨_, _, log, _⟩ := main_spec ran
  constructor
  · intro selected
    rw [log, summary, if_pos selected]
    simp
  · intro selected
    rw [log, summary, if_pos selected]
    simp

/-- Every selected probe prints one of its three results, and no other probe does. -/
theorem prints_iff (ran : main env config fuel = some out) (measured : out.sweep.measuredCores ≠ 0)
    (probe : Probe) (result : Verdict) :
    Prints out probe result ↔ config.probes.selects probe = true ∧
      result = verdictOf (detectionsOf out.sweep probe) out.sweep.interrupted := by
  constructor
  · intro prints
    obtain ⟨detections, checks, cores, member⟩ := prints
    rw [result_line_in_verdict ran rfl, mem_verdict_iff measured] at member
    rcases member with ⟨ch, line⟩ | ⟨_, _, blank⟩ | ⟨rbx, line⟩
    · cases ch_verdict_result line rfl
      exact ⟨ch, rfl⟩
    · cases blank
    · cases rbx_verdict_result line rfl
      exact ⟨rbx, rfl⟩
  · intro selectedResult
    obtain ⟨selected, rfl⟩ := selectedResult
    cases probe with
    | ch =>
        have line : .result .ch (verdictOf (detectionsOf out.sweep .ch) out.sweep.interrupted)
            (chTotals out.sweep.results).detections (chTotals out.sweep.results).checks
            out.sweep.results.length ∈ chVerdict out.sweep.results out.sweep.interrupted :=
          List.mem_cons_self
        exact ⟨_, _, _, (result_line_in_verdict ran rfl).mpr
          ((mem_verdict_iff measured).mpr (.inl ⟨selected, line⟩))⟩
    | rbx =>
        have line : .result .rbx (verdictOf (detectionsOf out.sweep .rbx) out.sweep.interrupted)
            (rbxTotals out.sweep.rbxResults).detections (rbxTotals out.sweep.rbxResults).calls
            out.sweep.rbxResults.length ∈ rbxVerdict out.sweep.rbxResults out.sweep.interrupted :=
          List.mem_cons_self
        exact ⟨_, _, _, (result_line_in_verdict ran rfl).mpr
          ((mem_verdict_iff measured).mpr (.inr (.inr ⟨selected, line⟩)))⟩

/-- The exit code when a core was measured. -/
theorem exit_code_measured (ran : main env config fuel = some out)
    (measured : out.sweep.measuredCores ≠ 0) :
    out.exitCode = if (chTotals out.sweep.results).detections ≠ 0 ∨
        (rbxTotals out.sweep.rbxResults).detections ≠ 0 then kExitDetected
      else if out.sweep.interrupted then kExitInterrupted
      else kExitClean := by
  obtain ⟨_, _, _, exitCode⟩ := main_spec ran
  rw [exitCode, verdict, if_neg measured]

theorem exit_code_unmeasured (ran : main env config fuel = some out)
    (unmeasured : out.sweep.measuredCores = 0) : out.exitCode = kExitUsage := by
  obtain ⟨_, _, _, exitCode⟩ := main_spec ran
  rw [exitCode, verdict, if_pos unmeasured]

/-- The exit code in terms of what happened in the run. -/
theorem exit_code_iff (ran : main env config fuel = some out)
    (measured : out.sweep.measuredCores ≠ 0) :
    (out.exitCode = kExitDetected ↔ Detects out.world.history) ∧
      (out.exitCode = kExitInterrupted ↔
        ¬Detects out.world.history ∧ SawInterrupt out.world.history) ∧
      (out.exitCode = kExitClean ↔
        ¬Detects out.world.history ∧ ¬SawInterrupt out.world.history) := by
  obtain ⟨finished, history, _, _⟩ := main_spec ran
  rw [exit_code_measured ran measured, history, detects_iff finished, ← finished.progress.flag]
  by_cases detected : (chTotals out.sweep.results).detections ≠ 0 ∨
      (rbxTotals out.sweep.rbxResults).detections ≠ 0
  · rw [if_pos detected]
    cases out.sweep.interrupted <;> simp [detected, kExitDetected, kExitInterrupted, kExitClean]
  · rw [if_neg detected]
    simp only [detected, kExitDetected, kExitInterrupted, kExitClean]
    cases out.sweep.interrupted <;> decide

end Run

end SdcProbe.Verdict
