import SdcProbe.TimedRun

/-!
# The rbx probe on one core

`run_rbx_on_current_cpu`: one payload pass per trip through the loop, classified
by whether it faulted with the signature, faulted otherwise, or completed with
the wrong hash. The counters are tied to the list of passes performed.
-/

namespace SdcProbe.RbxRun

open Fnv1a Report Environment TimedRun

set_option autoImplicit false

def kRbxCallsPerPass : Nat := 64 * 4096
def kRbxSignatureDelta : Word := 0xa0

/-- `sdc_rbx_is_signature`, for `emit_i16` at the given addresses. -/
def isSignature (emitI16 emitI16End : Word) (fault : FaultRecord) : Bool :=
  decide (emitI16 ≤ fault.rip ∧ fault.rip < emitI16End ∧
    fault.rbx - fault.rsp = kRbxSignatureDelta)

/-- The local state of the loop. -/
structure RbxState where
  result : RbxRunResult
  reported : Nat

/-- `pass.faulted || pass.mismatch` -/
def failed (pass : RbxPass) : Bool := pass.faulted || pass.mismatch

def countPass (result : RbxRunResult) (pass : RbxPass) (signature : Bool) : RbxRunResult :=
  if signature then { result with signature := result.signature + 1 }
  else if pass.faulted then { result with otherFault := result.otherFault + 1 }
  else { result with mismatch := result.mismatch + 1 }

/-- The branch `pass.faulted || pass.mismatch`. -/
def diagnosePass (emitI16 emitI16End : Word) (pass : RbxPass) (state : RbxState) :
    RbxState × List Line :=
  let result := { state.result with detections := state.result.detections + 1 }
  let signature := pass.faulted && isSignature emitI16 emitI16End pass.fault
  let result := countPass result pass signature
  let line :=
    if pass.faulted then Line.detectFault result.cpuIndex result.passes pass.fault signature
    else Line.detectHash result.cpuIndex result.passes pass.hash pass.expected
  let (reported, lines) := report state.reported line
  (⟨result, reported⟩, lines)

/-- What the loop body does with the outcome of a pass. -/
def judgePass (emitI16 emitI16End : Word) (pass : RbxPass) (state : RbxState) :
    RbxState × List Line :=
  let (state, lines) :=
    if failed pass then diagnosePass emitI16 emitI16End pass state else (state, [])
  ({ state with result := { state.result with passes := state.result.passes + 1 } }, lines)

variable {count : Nat}

def measurePass (env : Env count) (world : World count) (state : RbxState) :
    World count × RbxState :=
  let pass := env.runPass world.time
  let (state, lines) := judgePass env.emitI16 env.emitI16End pass state
  ((world.record (.pass pass)).print lines, state)

def rbxProgress (minutes elapsed : Nat) (state : RbxState) : Line :=
  .progress .rbx state.result.cpuIndex elapsed (minutes * 60) state.result.passes
    state.result.detections

theorem judge_pass_plain (emitI16 emitI16End : Word) (pass : RbxPass) (state : RbxState) :
    ∀ line ∈ (judgePass emitI16 emitI16End pass state).2, line.Plain := by
  simp only [judgePass]
  split_ifs with failing
  · apply report_plain
    split_ifs <;> exact ⟨rfl, rfl⟩
  · simp

def rbxProbe (count minutes : Nat) : TimedProbe count RbxState where
  probe := .rbx
  measure := measurePass
  progress := rbxProgress minutes
  measures _ _ _ := ⟨_, _, rfl, judge_pass_plain _ _ _ _, rfl⟩
  progress_plain _ _ := ⟨rfl, rfl⟩

def runRbxOnCurrentCpu (env : Env count) (cpuIndex minutes fuel : Nat) (world : World count) :
    Option (World count × RbxRunResult) :=
  (timedRun env (rbxProbe count minutes) minutes fuel world ⟨{ cpuIndex := cpuIndex }, 0⟩).map
    fun out =>
      (out.world, { out.body.result with
        interrupted := out.interrupted
        elapsedMs := out.elapsedMs
        calls := out.body.result.passes * kRbxCallsPerPass })

/-- The counters of the loop after these passes. -/
structure Accounts (cpuIndex : Nat) (performed : List RbxPass) (lines : List Line)
    (state : RbxState) : Prop where
  core : state.result.cpuIndex = cpuIndex
  passes : state.result.passes = performed.length
  detections : state.result.detections = performed.countP failed
  kinds : state.result.detections =
    state.result.signature + state.result.otherFault + state.result.mismatch
  listed : Listed state.result.detections state.reported lines

theorem count_pass_spec (result : RbxRunResult) (pass : RbxPass) (signature : Bool) :
    (countPass result pass signature).cpuIndex = result.cpuIndex ∧
      (countPass result pass signature).passes = result.passes ∧
      (countPass result pass signature).detections = result.detections ∧
      (countPass result pass signature).signature + (countPass result pass signature).otherFault +
          (countPass result pass signature).mismatch =
        result.signature + result.otherFault + result.mismatch + 1 := by
  rw [countPass]
  split_ifs
  · exact ⟨rfl, rfl, rfl, by simp only; omega⟩
  · exact ⟨rfl, rfl, rfl, by simp only; omega⟩
  · exact ⟨rfl, rfl, rfl, by simp only; omega⟩

theorem diagnose_pass_spec (emitI16 emitI16End : Word) (pass : RbxPass) (state : RbxState) :
    let next := (diagnosePass emitI16 emitI16End pass state).1
    next.result.cpuIndex = state.result.cpuIndex ∧ next.result.passes = state.result.passes ∧
      next.result.detections = state.result.detections + 1 ∧
      next.result.signature + next.result.otherFault + next.result.mismatch =
        state.result.signature + state.result.otherFault + state.result.mismatch + 1 ∧
      ∃ line, line.isDetect = true ∧ next.reported = (report state.reported line).1 ∧
        (diagnosePass emitI16 emitI16End pass state).2 = (report state.reported line).2 := by
  obtain ⟨core, passes, detections, kinds⟩ :=
    count_pass_spec { state.result with detections := state.result.detections + 1 } pass
      (pass.faulted && isSignature emitI16 emitI16End pass.fault)
  refine ⟨core, passes, detections, kinds, _, ?_, rfl, rfl⟩
  split_ifs <;> rfl

/-- One more pass. -/
theorem judge_pass_accounts (emitI16 emitI16End : Word) (pass : RbxPass) {cpuIndex : Nat}
    {performed : List RbxPass} {lines : List Line} {state : RbxState}
    (accounts : Accounts cpuIndex performed lines state) :
    Accounts cpuIndex (performed ++ [pass])
      (lines ++ (judgePass emitI16 emitI16End pass state).2)
      (judgePass emitI16 emitI16End pass state).1 := by
  have counted : (performed ++ [pass]).countP failed =
      state.result.detections + if failed pass = true then 1 else 0 := by
    rw [List.countP_append, List.countP_singleton, accounts.detections]
  have length : (performed ++ [pass]).length = state.result.passes + 1 := by
    rw [List.length_append, accounts.passes]
    rfl
  simp only [judgePass]
  split_ifs with failing
  · obtain ⟨core, passes, detections, kinds, line, isDetect, reported, added⟩ :=
      diagnose_pass_spec emitI16 emitI16End pass state
    constructor
    · exact core.trans accounts.core
    · simp only [passes, length]
    · simp only [detections, counted, if_pos failing]
    · simp only [detections, kinds, ← accounts.kinds]
    · simp only [detections, reported, added]
      exact report_listed accounts.listed isDetect
  · constructor
    · exact accounts.core
    · simp only [length]
    · simp only [counted, if_neg failing, Nat.add_zero]
    · exact accounts.kinds
    · simp only [List.append_nil]
      exact accounts.listed

/-- What the counters of a result say about the passes it stands for. -/
structure Accounted (performed : List RbxPass) (result : RbxRunResult) : Prop where
  passes : result.passes = performed.length
  calls : result.calls = result.passes * kRbxCallsPerPass
  detections : result.detections = performed.countP failed
  kinds : result.detections = result.signature + result.otherFault + result.mismatch

theorem accounts_loop_invariant (env : Env count) (minutes cpuIndex : Nat) (before : World count) :
    LoopInvariant env (rbxProbe count minutes) before
      (fun events lines state =>
        Accounts cpuIndex (passesOf events) lines state ∧ roundsOf events = []) where
  quiet events lines state action _ still holds := by
    rw [rounds_of_append, passes_of_append, quiet_rounds_of still, quiet_passes_of still,
      List.append_nil, List.append_nil]
    exact holds
  progress events lines state seconds holds :=
    ⟨{ holds.1 with listed := listed_other holds.1.listed rfl }, holds.2⟩
  measured here events lines state action added _ _ _ _ _ ran holds := by
    obtain ⟨rfl, rfl⟩ := World.record_print_injective ran
    rw [rounds_of_append, passes_of_append, holds.2]
    exact ⟨judge_pass_accounts env.emitI16 env.emitI16End _ holds.1, rfl⟩

/-- A whole run on one core. -/
theorem run_rbx_on_current_cpu_spec {env : Env count} {cpuIndex minutes fuel : Nat}
    {world after : World count} {result : RbxRunResult}
    (ran : runRbxOnCurrentCpu env cpuIndex minutes fuel world = some (after, result)) :
    ∃ events lines, Ran env minutes world after result.interrupted events lines ∧
      result.cpuIndex = cpuIndex ∧ roundsOf events = [] ∧
      Accounted (passesOf events) result ∧
      lines.countP Line.isDetect = min result.detections kMaxReportedPerCpu := by
  obtain ⟨out, timed, same⟩ := Option.map_eq_some_iff.mp ran
  cases same
  have start : Accounts cpuIndex (passesOf ([] : List (Action count))) []
      ⟨{ cpuIndex := cpuIndex }, 0⟩ := ⟨rfl, rfl, rfl, rfl, ⟨rfl, rfl⟩⟩
  obtain ⟨events, lines, framed, accounts, noRound⟩ :=
    timed_run_rule (accounts_loop_invariant env minutes cpuIndex _) ⟨start, rfl⟩ timed
  refine ⟨events, lines, framed, accounts.core, noRound, ?_, ?_⟩
  · exact ⟨accounts.passes, rfl, accounts.detections, accounts.kinds⟩
  · exact accounts.listed.written.trans accounts.listed.capped

end SdcProbe.RbxRun
