import SdcProbe.ReverseFnv
import SdcProbe.TimedRun

/-!
# The CH probe on one core

`run_on_current_cpu`: one round computes the samples, replays the hash over
memory, compares the samples with the baseline of this core and diagnoses a
mismatch. The counters of the result are tied to the list of rounds performed,
given by the register hash and the samples of each.
-/

namespace SdcProbe.ChRun

open Fnv1a SampleStream ReverseFnv Report Environment TimedRun

set_option autoImplicit false

structure Workspace (count : Nat) where
  samples : Vector Sample count := Vector.replicate count 0
  baseline : Vector Sample count := Vector.replicate count 0
  forward : Vector Word (count * 4 + 1) := Vector.replicate (count * 4 + 1) 0
  backward : Vector Word (count * 4 + 1) := Vector.replicate (count * 4 + 1) 0

/-- The local state of the loop; the workspace is shared by all cores. -/
structure RunState (count : Nat) where
  result : RunResult
  reported : Nat
  work : Workspace count

variable {count : Nat}

theorem reverse_fnv_is_some (past : Nat → Byte) (samples : Vector Sample count) (wrongHash : Word)
    (forward backward : Vector Word (count * 4 + 1)) :
    (reverseFnv (fun k => some (past k)) samples wrongHash forward backward).isSome = true := by
  rcases reverse_fnv_spec (fun k => some (past k)) samples wrongHash forward backward with
    ⟨_, _, _, ran, _⟩ | ⟨_, _, missing⟩
  · rw [ran]
    rfl
  · cases missing

/-- `reverse_fnv` inside the running process, where some byte lies after the
samples and every read returns. -/
def analyse (past : Nat → Byte) (samples : Vector Sample count) (wrongHash : Word)
    (forward backward : Vector Word (count * 4 + 1)) :
    ReverseResult × Vector Word (count * 4 + 1) × Vector Word (count * 4 + 1) :=
  (reverseFnv (fun k => some (past k)) samples wrongHash forward backward).get
    (reverse_fnv_is_some past samples wrongHash forward backward)

/-- The bit patterns of sample `k` differ, as the two `memcpy`s see them. -/
def drifted (baseline samples : Vector Sample count) (k : Nat) : Bool :=
  decide (baseline[k]? ≠ samples[k]?)

def driftLoop (baseline samples : Vector Sample count) (valueDrift : Nat) : Nat :=
  (List.range count).foldl
    (fun valueDrift k => if drifted baseline samples k then valueDrift + 1 else valueDrift)
    valueDrift

/-- The baseline is taken in the first round of a core and compared with in every
later one. -/
def compareBaseline (state : RunState count) : RunState count :=
  if state.result.rounds = 0 then
    { state with work := { state.work with baseline := state.work.samples } }
  else
    { state with result := { state.result with
        valueDrift := driftLoop state.work.baseline state.work.samples state.result.valueDrift } }

/-- `++result.lane_counts[r.lane]`, or `++result.unexplained`. -/
def countKind (result : RunResult) (r : ReverseResult) : RunResult :=
  if r.singleByte then
    { result with laneCounts := result.laneCounts.set r.lane (result.laneCounts[r.lane] + 1) }
  else { result with unexplained := result.unexplained + 1 }

/-- The branch `register_hash != memory_hash`. -/
def diagnose (past : Nat → Byte) (registerHash : Word) (state : RunState count) :
    RunState count × List Line :=
  let result := { state.result with detections := state.result.detections + 1 }
  let (r, forward, backward) :=
    analyse past state.work.samples registerHash state.work.forward state.work.backward
  let work := { state.work with forward := forward, backward := backward }
  let result := countKind result r
  let line :=
    if r.singleByte then
      Line.detectByte result.cpuIndex result.rounds r.lane r.sampleIndex r.stored r.observed
    else Line.detectUnexplained result.cpuIndex result.rounds r.minPopcount
  let (reported, lines) := report state.reported line
  (⟨result, reported, work⟩, lines)

/-- What the loop body does with the hash `compute_rows` returned and the samples
it left. -/
def judgeRound (past : Nat → Byte) (registerHash : Word) (samples : Vector Sample count)
    (state : RunState count) : RunState count × List Line :=
  let memoryHash := replayHash samples count
  let state := compareBaseline { state with work := { state.work with samples := samples } }
  let (state, lines) :=
    if registerHash ≠ memoryHash then diagnose past registerHash state else (state, [])
  ({ state with result := { state.result with rounds := state.result.rounds + 1 } }, lines)

def measureRound (env : Env count) (world : World count) (state : RunState count) :
    World count × RunState count :=
  let (registerHash, samples) := env.computeRows world.time state.work.samples
  let (state, lines) := judgeRound env.past registerHash samples state
  ((world.record (.round registerHash samples)).print lines, state)

def chProgress (minutes elapsed : Nat) (state : RunState count) : Line :=
  .progress .ch state.result.cpuIndex elapsed (minutes * 60) state.result.rounds
    state.result.detections

theorem diagnose_plain (past : Nat → Byte) (registerHash : Word) (state : RunState count) :
    ∀ line ∈ (diagnose past registerHash state).2, line.Plain := by
  apply report_plain
  split_ifs <;> exact ⟨rfl, rfl⟩

theorem judge_round_plain (past : Nat → Byte) (registerHash : Word)
    (samples : Vector Sample count) (state : RunState count) :
    ∀ line ∈ (judgeRound past registerHash samples state).2, line.Plain := by
  simp only [judgeRound]
  split_ifs with differs
  · exact diagnose_plain past registerHash _
  · simp

def chProbe (count minutes : Nat) : TimedProbe count (RunState count) where
  probe := .ch
  measure := measureRound
  progress := chProgress minutes
  measures _ _ _ := ⟨_, _, rfl, judge_round_plain _ _ _ _, rfl⟩
  progress_plain _ _ := ⟨rfl, rfl⟩

def runOnCurrentCpu (env : Env count) (cpuIndex minutes fuel : Nat) (world : World count)
    (work : Workspace count) : Option (World count × Workspace count × RunResult) :=
  (timedRun env (chProbe count minutes) minutes fuel world ⟨{ cpuIndex := cpuIndex }, 0, work⟩).map
    fun out =>
      (out.world, out.body.work, { out.body.result with
        interrupted := out.interrupted
        elapsedMs := out.elapsedMs
        checks := out.body.result.rounds * count })

/-- The two paths of a round disagree. -/
def differs (round : Word × Vector Sample count) : Bool :=
  decide (round.1 ≠ replayHash round.2 count)

/-- How many samples of the second array differ from the first. -/
def driftCount (baseline samples : Vector Sample count) : Nat :=
  (List.range count).countP (drifted baseline samples)

/-- The samples of all later rounds that differ from round 0. -/
def driftFromFirst : List (Word × Vector Sample count) → Nat
  | [] => 0
  | first :: later => (later.map fun round => driftCount first.2 round.2).sum

theorem drift_loop_eq (baseline samples : Vector Sample count) (valueDrift : Nat) :
    driftLoop baseline samples valueDrift = valueDrift + driftCount baseline samples := by
  rw [driftLoop, driftCount]
  induction List.range count generalizing valueDrift with
  | nil => rfl
  | cons k rest ih =>
      rw [List.foldl_cons, ih, List.countP_cons]
      split_ifs <;> omega

theorem drift_from_first_append (first last : Word × Vector Sample count)
    (later : List (Word × Vector Sample count)) :
    driftFromFirst (first :: later ++ [last]) =
      driftFromFirst (first :: later) + driftCount first.2 last.2 := by
  simp [driftFromFirst]

/-- The counters of the loop after these rounds. -/
structure Accounts (cpuIndex : Nat) (performed : List (Word × Vector Sample count))
    (lines : List Line) (state : RunState count) : Prop where
  core : state.result.cpuIndex = cpuIndex
  rounds : state.result.rounds = performed.length
  detections : state.result.detections = performed.countP differs
  kinds : state.result.detections = laneSum state.result.laneCounts + state.result.unexplained
  listed : Listed state.result.detections state.reported lines
  baseline : ∀ first later, performed = first :: later → state.work.baseline = first.2
  drift : state.result.valueDrift = driftFromFirst performed

theorem count_kind_spec (result : RunResult) (r : ReverseResult) :
    (countKind result r).cpuIndex = result.cpuIndex ∧
      (countKind result r).rounds = result.rounds ∧
      (countKind result r).detections = result.detections ∧
      (countKind result r).valueDrift = result.valueDrift ∧
      laneSum (countKind result r).laneCounts + (countKind result r).unexplained =
        laneSum result.laneCounts + result.unexplained + 1 := by
  rw [countKind]
  split_ifs
  · refine ⟨rfl, rfl, rfl, rfl, ?_⟩
    rw [lane_sum_bumped, Nat.add_right_comm]
  · exact ⟨rfl, rfl, rfl, rfl, rfl⟩

/-- Everything a diagnosis leaves alone, and the report it makes. -/
theorem diagnose_spec (past : Nat → Byte) (registerHash : Word) (state : RunState count) :
    let next := (diagnose past registerHash state).1
    next.result.cpuIndex = state.result.cpuIndex ∧ next.result.rounds = state.result.rounds ∧
      next.result.detections = state.result.detections + 1 ∧
      next.result.valueDrift = state.result.valueDrift ∧
      laneSum next.result.laneCounts + next.result.unexplained =
        laneSum state.result.laneCounts + state.result.unexplained + 1 ∧
      next.work.baseline = state.work.baseline ∧
      ∃ line, line.isDetect = true ∧ next.reported = (report state.reported line).1 ∧
        (diagnose past registerHash state).2 = (report state.reported line).2 := by
  obtain ⟨core, rounds, detections, drift, kinds⟩ :=
    count_kind_spec { state.result with detections := state.result.detections + 1 }
      (analyse past state.work.samples registerHash state.work.forward state.work.backward).1
  refine ⟨core, rounds, detections, drift, kinds, rfl, _, ?_, rfl, rfl⟩
  split_ifs <;> rfl

/-- The comparison with the baseline, given the rounds before it: it never looks
at a baseline another core has left. -/
theorem compare_baseline_spec {cpuIndex : Nat} {performed : List (Word × Vector Sample count)}
    {lines : List Line} {state : RunState count}
    (accounts : Accounts cpuIndex performed lines state) (round : Word × Vector Sample count) :
    let next := compareBaseline { state with work := { state.work with samples := round.2 } }
    next.reported = state.reported ∧
      next.result = { state.result with valueDrift := driftFromFirst (performed ++ [round]) } ∧
      ∀ first later, performed ++ [round] = first :: later → next.work.baseline = first.2 := by
  cases performed with
  | nil =>
      have start : state.result.rounds = 0 := accounts.rounds
      have noDrift : state.result.valueDrift = 0 := accounts.drift
      rw [compareBaseline, if_pos start]
      refine ⟨rfl, ?_, ?_⟩
      · simp only [List.nil_append, driftFromFirst, List.map_nil, List.sum_nil, ← noDrift]
      · intro first later split
        cases split
        rfl
  | cons first later =>
      have started : state.result.rounds ≠ 0 := by
        rw [accounts.rounds]
        simp
      rw [compareBaseline, if_neg started]
      refine ⟨rfl, ?_, ?_⟩
      · rw [drift_loop_eq, accounts.drift, accounts.baseline first later rfl,
          drift_from_first_append]
      · intro first' later' split
        cases split
        exact accounts.baseline first later rfl

/-- One more round. -/
theorem judge_round_accounts (past : Nat → Byte) {cpuIndex : Nat}
    {performed : List (Word × Vector Sample count)} {lines : List Line} {state : RunState count}
    (registerHash : Word) (samples : Vector Sample count)
    (accounts : Accounts cpuIndex performed lines state) :
    Accounts cpuIndex (performed ++ [(registerHash, samples)])
      (lines ++ (judgeRound past registerHash samples state).2)
      (judgeRound past registerHash samples state).1 := by
  obtain ⟨reported, result, baseline⟩ :=
    compare_baseline_spec accounts (registerHash, samples)
  simp only [judgeRound]
  generalize compareBaseline { state with work := { state.work with samples := samples } } =
    compared at reported result baseline ⊢
  have counted : (performed ++ [(registerHash, samples)]).countP differs =
      state.result.detections + if registerHash ≠ replayHash samples count then 1 else 0 := by
    rw [List.countP_append, List.countP_singleton, accounts.detections]
    simp only [differs, decide_eq_true_eq]
  have length : (performed ++ [(registerHash, samples)]).length = state.result.rounds + 1 := by
    rw [List.length_append, accounts.rounds]
    rfl
  split_ifs with mismatch
  · obtain ⟨core, rounds, detections, drift, kinds, sameBaseline, line, isDetect, listedLines,
      lines'⟩ := diagnose_spec past registerHash compared
    simp only [result] at core rounds detections drift
    constructor
    · exact core.trans accounts.core
    · simp only [rounds, length]
    · simp only [detections, counted, if_pos mismatch]
    · refine Eq.trans ?_ kinds.symm
      rw [detections, accounts.kinds, result]
    · simp only [detections, listedLines, lines', reported]
      exact report_listed accounts.listed isDetect
    · rw [sameBaseline]
      exact baseline
    · exact drift
  · constructor
    · simp only [result, accounts.core]
    · simp only [result, length]
    · simp only [result, counted, if_neg mismatch, Nat.add_zero]
    · simp only [result]
      exact accounts.kinds
    · simp only [result, reported, List.append_nil]
      exact accounts.listed
    · exact baseline
    · simp only [result]

/-- Whatever the state, a round counts one detection exactly when its two hashes
disagree. -/
theorem judge_round_detections (past : Nat → Byte) (registerHash : Word)
    (samples : Vector Sample count) (state : RunState count) :
    (judgeRound past registerHash samples state).1.result.detections =
      state.result.detections + if registerHash ≠ replayHash samples count then 1 else 0 := by
  have untouched : ∀ state : RunState count,
      (compareBaseline state).result.detections = state.result.detections := by
    intro state
    rw [compareBaseline]
    split_ifs <;> rfl
  simp only [judgeRound]
  split_ifs with mismatch
  · obtain ⟨_, _, detections, _⟩ := diagnose_spec past registerHash
      (compareBaseline { state with work := { state.work with samples := samples } })
    exact detections.trans (congrArg (· + 1) (untouched _))
  · exact untouched _

theorem measure_round_detections (env : Env count) (world : World count) (state : RunState count) :
    (measureRound env world state).2.result.detections = state.result.detections +
      if (env.computeRows world.time state.work.samples).1 ≠
        replayHash (env.computeRows world.time state.work.samples).2 count then 1 else 0 :=
  judge_round_detections env.past _ _ state

/-- What the counters of a result say about the rounds it stands for. -/
structure Accounted (performed : List (Word × Vector Sample count)) (result : RunResult) :
    Prop where
  rounds : result.rounds = performed.length
  checks : result.checks = result.rounds * count
  detections : result.detections = performed.countP differs
  kinds : result.detections = laneSum result.laneCounts + result.unexplained
  drift : result.valueDrift = driftFromFirst performed

/-- Every round is one call of `compute_rows` in these surroundings. -/
def FromComputeRows (env : Env count) (performed : List (Word × Vector Sample count)) : Prop :=
  ∀ round ∈ performed, ∃ instant samples, env.computeRows instant samples = round

theorem accounts_loop_invariant (env : Env count) (minutes cpuIndex : Nat) (before : World count) :
    LoopInvariant env (chProbe count minutes) before
      (fun events lines state => Accounts cpuIndex (roundsOf events) lines state ∧
        FromComputeRows env (roundsOf events) ∧ passesOf events = []) where
  quiet events lines state action _ still holds := by
    rw [rounds_of_append, passes_of_append, quiet_rounds_of still, quiet_passes_of still,
      List.append_nil, List.append_nil]
    exact holds
  progress events lines state seconds holds :=
    ⟨{ holds.1 with listed := listed_other holds.1.listed rfl }, holds.2⟩
  measured here events lines state action added _ _ _ _ _ ran holds := by
    obtain ⟨accounts, calls, noPass⟩ := holds
    obtain ⟨rfl, rfl⟩ := World.record_print_injective ran
    rw [rounds_of_append, passes_of_append, noPass]
    refine ⟨judge_round_accounts env.past _ _ accounts, ?_, rfl⟩
    intro round member
    rcases List.mem_append.mp member with old | new
    · exact calls round old
    · exact ⟨here.time, state.work.samples, (List.mem_singleton.mp new).symm⟩

/-- A whole run on one core. -/
theorem run_on_current_cpu_spec {env : Env count} {cpuIndex minutes fuel : Nat}
    {world after : World count} {work work' : Workspace count} {result : RunResult}
    (ran : runOnCurrentCpu env cpuIndex minutes fuel world work = some (after, work', result)) :
    ∃ events lines, Ran env minutes world after result.interrupted events lines ∧
      result.cpuIndex = cpuIndex ∧ passesOf events = [] ∧
      FromComputeRows env (roundsOf events) ∧ Accounted (roundsOf events) result ∧
      lines.countP Line.isDetect = min result.detections kMaxReportedPerCpu := by
  obtain ⟨out, timed, same⟩ := Option.map_eq_some_iff.mp ran
  cases same
  have start : Accounts cpuIndex (roundsOf ([] : List (Action count))) []
      ⟨{ cpuIndex := cpuIndex }, 0, work⟩ :=
    ⟨rfl, rfl, rfl, rfl, ⟨rfl, rfl⟩, by simp [roundsOf], rfl⟩
  obtain ⟨events, lines, framed, accounts, calls, noPass⟩ :=
    timed_run_rule (accounts_loop_invariant env minutes cpuIndex _)
      ⟨start, by simp [FromComputeRows, roundsOf], rfl⟩ timed
  refine ⟨events, lines, framed, accounts.core, noPass, calls, ?_, ?_⟩
  · exact ⟨accounts.rounds, rfl, accounts.detections, accounts.kinds, accounts.drift⟩
  · exact accounts.listed.written.trans accounts.listed.capped

end SdcProbe.ChRun
