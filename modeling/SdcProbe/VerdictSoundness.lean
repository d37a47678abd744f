import SdcProbe.ComputeRows
import SdcProbe.Verdict

/-!
# What the report can be trusted for

The exit code and the result lines say what happened on the measured cores, a
clean exit means that no selected core was left out, and every counter in the
report is the number of things it claims to count.
-/

namespace SdcProbe.VerdictSoundness

open SampleStream ComputeRows Report Environment CoreSweep SweepAccounts SweepInvariant SweepTotals
  Verdict

set_option autoImplicit false

section Run

variable {count : Nat} {env : Env count} {config : Config} {fuel : Nat} {out : Outcome count}

theorem result_lines_agree (ran : main env config fuel = some out)
    (measured : out.sweep.measuredCores ≠ 0) :
    (out.exitCode = kExitClean ↔
      ∀ probe, config.probes.selects probe = true → Prints out probe .clean) ∧
    (out.exitCode = kExitDetected ↔
      ∃ probe, config.probes.selects probe = true ∧ Prints out probe .detected) := by
  obtain ⟨finished, history, _, _⟩ := main_spec ran
  obtain ⟨detected, _, clean⟩ := exit_code_iff ran measured
  rw [detected, clean, history, detects_iff_selected finished, ← finished.progress.flag]
  have detectedLine : ∀ detections interrupted,
      Report.Verdict.detected = verdictOf detections interrupted ↔ detections ≠ 0 := by
    intro detections interrupted
    rw [verdictOf]
    cases interrupted <;> split_ifs with any <;> simp [any]
  have cleanLine : ∀ detections interrupted,
      Report.Verdict.clean = verdictOf detections interrupted ↔
        detections = 0 ∧ ¬interrupted = true := by
    intro detections interrupted
    rw [verdictOf]
    cases interrupted <;> split_ifs with any <;> simp_all
  constructor
  · constructor
    · intro noneWhole probe selected
      obtain ⟨none, whole⟩ := noneWhole
      refine (prints_iff ran measured probe _).mpr ⟨selected, (cleanLine _ _).mpr ⟨?_, whole⟩⟩
      by_contra some
      exact none ⟨probe, selected, some⟩
    · intro prints
      constructor
      · intro detects
        obtain ⟨probe, selected, some⟩ := detects
        have line := ((prints_iff ran measured probe _).mp (prints probe selected)).2
        exact some ((cleanLine _ _).mp line).1
      · obtain ⟨probe, selected⟩ : ∃ probe, config.probes.selects probe = true := by
          rcases config.some_probe with ch | rbx
          · exact ⟨.ch, ch⟩
          · exact ⟨.rbx, rbx⟩
        have line := ((prints_iff ran measured probe _).mp (prints probe selected)).2
        exact ((cleanLine _ _).mp line).2
  · constructor
    · intro detects
      obtain ⟨probe, selected, some⟩ := detects
      exact ⟨probe, selected, (prints_iff ran measured probe _).mpr
        ⟨selected, (detectedLine _ _).mpr some⟩⟩
    · intro printed
      obtain ⟨probe, selected, prints⟩ := printed
      have line := ((prints_iff ran measured probe _).mp prints).2
      exact ⟨probe, selected, (detectedLine _ _).mp line⟩

/-- An exit code other than the one for usage errors means that a core was measured. -/
theorem measured_of_exit_code (ran : main env config fuel = some out)
    (notUsage : out.exitCode ≠ kExitUsage) : out.sweep.measuredCores ≠ 0 :=
  fun unmeasured => notUsage (exit_code_unmeasured ran unmeasured)

/-- A clean exit: the core loop reached the end of the list, with whole results
that count nothing. -/
theorem clean_exit (ran : main env config fuel = some out) (clean : out.exitCode = kExitClean) :
    Visiting env config config.selected out.sweep ∧
      (∀ r ∈ out.sweep.results, r.detections = 0) ∧
      ∀ r ∈ out.sweep.rbxResults, r.detections = 0 := by
  have measured := measured_of_exit_code ran (by rw [clean]; decide)
  obtain ⟨finished, history, _, _⟩ := main_spec ran
  obtain ⟨none, whole⟩ := (exit_code_iff ran measured).2.2.mp clean
  rw [history] at none whole
  rw [detects_iff finished, not_or, not_not, not_not] at none
  rw [← finished.progress.flag, Bool.not_eq_true] at whole
  have chSum := (fold_runs {} out.sweep.results).2.2.1
  have rbxSum := (fold_rbx_runs {} out.sweep.rbxResults).2.2.1
  have chNone : (out.sweep.results.map RunResult.detections).sum = 0 := by
    rw [← none.1, chTotals, chSum]
    exact (Nat.zero_add _).symm
  have rbxNone : (out.sweep.rbxResults.map RbxRunResult.detections).sum = 0 := by
    rw [← none.2, rbxTotals, rbxSum]
    exact (Nat.zero_add _).symm
  refine ⟨finished.complete whole, ?_, ?_⟩
  · intro r member
    exact List.sum_eq_zero_iff_forall_eq_nat.mp chNone _ (List.mem_map_of_mem member)
  · intro r member
    exact List.sum_eq_zero_iff_forall_eq_nat.mp rbxNone _ (List.mem_map_of_mem member)

theorem ch_results_in_order (ran : main env config fuel = some out)
    (selected : config.probes.ch = true) :
    out.sweep.results.map RunResult.cpuIndex =
      (measuredOf out.world.history).map CpuInfo.index := by
  obtain ⟨finished, history, _, _⟩ := main_spec ran
  rw [history, finished.chCores, coresOf, if_pos selected]

theorem rbx_results_in_order (ran : main env config fuel = some out)
    (selected : config.probes.rbx = true) :
    out.sweep.rbxResults.map RbxRunResult.cpuIndex =
        (measuredOf out.world.history).map CpuInfo.index ∨
      (out.sweep.rbxResults.map RbxRunResult.cpuIndex =
          ((measuredOf out.world.history).map CpuInfo.index).dropLast ∧
        out.sweep.rbxResults.length + 1 = out.sweep.measuredCores ∧
        ∃ last, out.sweep.results.getLast? = some last ∧ last.interrupted = true) := by
  obtain ⟨finished, history, _, _⟩ := main_spec ran
  rw [history]
  rcases finished.rbxCores with cores | ⟨_, _, cores, shorter, last⟩
  · left
    rw [cores, coresOf, if_pos selected]
  · right
    rw [coresOf, if_pos selected] at cores
    exact ⟨cores, shorter, last⟩

theorem verdict_is_sound (ran : main env config fuel = some out) :
    (out.sweep.measuredCores ≠ 0 →
      (out.exitCode = kExitDetected ↔ Detects out.world.history) ∧
      (out.exitCode = kExitInterrupted ↔
        ¬Detects out.world.history ∧ SawInterrupt out.world.history) ∧
      (out.exitCode = kExitClean ↔
        ¬Detects out.world.history ∧ ¬SawInterrupt out.world.history) ∧
      (out.exitCode = kExitClean ↔
        ∀ probe, config.probes.selects probe = true → Prints out probe .clean) ∧
      (out.exitCode = kExitDetected ↔
        ∃ probe, config.probes.selects probe = true ∧ Prints out probe .detected)) ∧
    (out.exitCode = kExitClean →
      (pinsOf out.world.history).map Prod.fst = config.selected ∧
      (config.probes.ch = true → out.sweep.results.map RunResult.cpuIndex =
        (measuredOf out.world.history).map CpuInfo.index) ∧
      (∀ r ∈ out.sweep.results, r.interrupted = false ∧ r.detections = 0) ∧
      (config.probes.rbx = true → out.sweep.rbxResults.map RbxRunResult.cpuIndex =
        (measuredOf out.world.history).map CpuInfo.index) ∧
      ∀ r ∈ out.sweep.rbxResults, r.interrupted = false ∧ r.detections = 0) ∧
    (out.sweep.measuredCores = (measuredOf out.world.history).length ∧
      out.sweep.measuredCores + out.sweep.skipped = (pinsOf out.world.history).length ∧
      out.sweep.measuredCores + out.sweep.skipped + announced out.world.log =
        config.selected.length) ∧
    (config.probes.ch = true → out.sweep.results.length = out.sweep.measuredCores) ∧
    (config.probes.rbx = true → out.sweep.rbxResults.length = out.sweep.measuredCores ∨
      (out.sweep.rbxResults.length + 1 = out.sweep.measuredCores ∧
        ∃ last, out.sweep.results.getLast? = some last ∧ last.interrupted = true)) ∧
    (pinsOf out.world.history).map Prod.fst <+: config.selected ∧
    (config.probes.ch = true → out.sweep.results.map RunResult.cpuIndex =
      (measuredOf out.world.history).map CpuInfo.index) ∧
    (config.probes.rbx = true → out.sweep.rbxResults.map RbxRunResult.cpuIndex <+:
      (measuredOf out.world.history).map CpuInfo.index) := by
  obtain ⟨finished, history, _, _⟩ := main_spec ran
  have measuredCores : out.sweep.measuredCores = (measuredOf out.world.history).length := by
    rw [history, finished.measured]
  refine ⟨?_, ?_, ⟨measuredCores, ?_, ?_⟩, ?_, ?_, ?_, ?_, ?_⟩
  · intro measured
    obtain ⟨detected, interrupted, clean⟩ := exit_code_iff ran measured
    obtain ⟨cleanLines, detectedLines⟩ := result_lines_agree ran measured
    exact ⟨detected, interrupted, clean, cleanLines, detectedLines⟩
  · intro clean
    obtain ⟨visiting, chNone, rbxNone⟩ := clean_exit ran clean
    obtain ⟨chWhole, rbxWhole⟩ := visiting.progress.whole rfl
    refine ⟨by rw [history, visiting.visits], ch_results_in_order ran,
      fun r member => ⟨chWhole r member, chNone r member⟩, ?_,
      fun r member => ⟨rbxWhole r member, rbxNone r member⟩⟩
    intro selected
    rw [history, visiting.rbxCores, coresOf, if_pos selected]
  · rw [history, finished.counted]
  · rw [announced_after_verdict ran, finished.announced]
  · intro selected
    rw [measuredCores, ← List.length_map (f := RunResult.cpuIndex),
      ch_results_in_order ran selected, List.length_map]
  · intro selected
    rcases rbx_results_in_order ran selected with cores | ⟨_, shorter, last⟩
    · left
      rw [measuredCores, ← List.length_map (f := RbxRunResult.cpuIndex), cores, List.length_map]
    · exact .inr ⟨shorter, last⟩
  · rw [history]
    exact finished.visits
  · exact ch_results_in_order ran
  · intro selected
    rcases rbx_results_in_order ran selected with cores | ⟨cores, _⟩
    · rw [cores]
    · rw [cores]
      exact List.dropLast_prefix _

end Run

/-- A machine without the fault, on which every action takes the same time. -/
def steadyMachine (nanosPerAction : Nat) (arrival : Option Nat) : Env sampleCount where
  clock i := i * nanosPerAction
  steady _ _ le := Nat.mul_le_mul_right _ le
  arrival := arrival
  pin _ _ := true
  verifyPin _ _ := ""
  computeRows _ samples := (replayHash samples sampleCount, samples)
  runPass _ := {}
  past _ := 0
  emitI16 := 0
  emitI16End := 0

/-- The rbx probe on one core for a minute. -/
def rbxOnOneCore : Config where
  minutes := 1
  probes := { ch := false, rbx := true }
  selected := [{ index := 0, inGroup := 0 }]
  layersGiven := false
  minutes_in_range := by decide
  some_probe := .inr rfl
  some_core := by simp

/-- Two passes fit into the minute, and neither fails. -/
theorem verdict_is_sound_on_a_clean_minute :
    ∃ out, main (steadyMachine 10000000000 none) rbxOnOneCore 3 = some out ∧
      out.exitCode = kExitClean ∧ (passesOf out.world.history).length = 2 ∧
      (out.exitCode = kExitClean ↔
        ¬Detects out.world.history ∧ ¬SawInterrupt out.world.history) := by
  have returned : (main (steadyMachine 10000000000 none) rbxOnOneCore 3).map (fun out =>
      (out.exitCode, (passesOf out.world.history).length, out.sweep.measuredCores)) =
      some (kExitClean, 2, 1) := by decide +kernel
  obtain ⟨out, ran, same⟩ := Option.map_eq_some_iff.mp returned
  obtain ⟨clean, passes, measured⟩ := Prod.mk.inj same |>.imp id Prod.mk.inj
  exact ⟨out, ran, clean, passes, ((verdict_is_sound ran).1 (by rw [measured]; decide)).2.2.1⟩

theorem detection_accounting (count : Nat) (env : Env count) :
    (∀ cpuIndex minutes fuel world work after work' result,
      ChRun.runOnCurrentCpu env cpuIndex minutes fuel world work =
        some (after, work', result) →
      ∃ events lines, after.history = world.history ++ events ∧ after.log = world.log ++ lines ∧
        result.rounds = (roundsOf events).length ∧
        result.detections = laneSum result.laneCounts + result.unexplained ∧
        result.detections = (roundsOf events).countP ChRun.differs ∧
        result.detections ≤ result.rounds ∧ result.checks = result.rounds * count ∧
        lines.countP Line.isDetect = min result.detections 20 ∧
        result.valueDrift = ChRun.driftFromFirst (roundsOf events)) ∧
    (∀ cpuIndex minutes fuel world after result,
      RbxRun.runRbxOnCurrentCpu env cpuIndex minutes fuel world = some (after, result) →
      ∃ events lines, after.history = world.history ++ events ∧ after.log = world.log ++ lines ∧
        result.passes = (passesOf events).length ∧
        result.detections = result.signature + result.otherFault + result.mismatch ∧
        result.detections = (passesOf events).countP (fun pass => pass.faulted || pass.mismatch) ∧
        result.calls = result.passes * RbxRun.kRbxCallsPerPass ∧
        lines.countP Line.isDetect = min result.detections 20) ∧
    (∀ config fuel out, main env config fuel = some out →
      (∃ perCore, perCore.length = out.sweep.results.length ∧
        perCore.flatten = roundsOf out.world.history ∧
        ChAddsUp perCore (chTotals out.sweep.results)) ∧
      (∃ perCore, perCore.length = out.sweep.rbxResults.length ∧
        perCore.flatten = passesOf out.world.history ∧
        RbxAddsUp perCore (rbxTotals out.sweep.rbxResults)) ∧
      (config.probes.ch = true → .chSummary out.sweep.results config.selected.length
        out.sweep.skipped (chTotals out.sweep.results) ∈ out.world.log) ∧
      (config.probes.rbx = true → .rbxSummary out.sweep.rbxResults config.selected.length
        out.sweep.skipped (rbxTotals out.sweep.rbxResults) ∈ out.world.log)) := by
  refine ⟨?_, ?_, ?_⟩
  · intro cpuIndex minutes fuel world work after work' result ran
    obtain ⟨events, lines, framed, _, _, _, accounted, listed⟩ := ChRun.run_on_current_cpu_spec ran
    have rounds : roundsOf (.clock .start (env.clock world.time) :: events) = roundsOf events := rfl
    refine ⟨_, lines, framed.history, framed.log, ?_, accounted.kinds, ?_, ?_, accounted.checks,
      listed, ?_⟩
    · rw [rounds, accounted.rounds]
    · rw [rounds, accounted.detections]
    · rw [accounted.rounds, accounted.detections]
      exact List.countP_le_length
    · rw [rounds, accounted.drift]
  · intro cpuIndex minutes fuel world after result ran
    obtain ⟨events, lines, framed, _, _, accounted, listed⟩ :=
      RbxRun.run_rbx_on_current_cpu_spec ran
    have passes : passesOf (.clock .start (env.clock world.time) :: events) = passesOf events := rfl
    refine ⟨_, lines, framed.history, framed.log, ?_, accounted.kinds, ?_, accounted.calls, listed⟩
    · rw [passes, accounted.passes]
    · rw [passes]
      exact accounted.detections
  · intro config fuel out ran
    obtain ⟨finished, history, _, _⟩ := main_spec ran
    obtain ⟨perCore, partition, each⟩ := finished.progress.rounds
    obtain ⟨rbxPerCore, rbxPartition, rbxEach⟩ := finished.progress.passes
    rw [history]
    exact ⟨⟨perCore, each.length_eq, partition, ch_totals_add_up each⟩,
      ⟨rbxPerCore, rbxEach.length_eq, rbxPartition, rbx_totals_add_up rbxEach⟩,
      summaries_printed ran⟩

end SdcProbe.VerdictSoundness
