import SdcProbe.Detection
import SdcProbe.Program

/-!
# What a detection stands for

The exit code of a sweep against what happened in the machine: which reads of a round were
wrong, and how the payload ended in a pass. Nothing else leads to a detection, and most
of what can go wrong does.
-/

namespace SdcProbe.Evidence

open Fnv1a SampleStream LaneSequence ComputeRows Report Environment TimedRun CoreSweep Verdict
open FaultCapture CaptureProtocol Detection RbxSelfTest Durations Program

set_option autoImplicit false

variable {count : Nat}

/-- Each measurement is an answer of the surroundings at its instant. -/
structure Answered (env : Env count) (history : List (Action count)) : Prop where
  round : ∀ (i : Nat) registerHash samples, history[i]? = some (.round registerHash samples) →
    ∃ before, env.computeRows i before = (registerHash, samples)
  pass : ∀ (i : Nat) outcome, history[i]? = some (.pass outcome) → env.runPass i = outcome

section History

variable {env : Env count} {history : List (Action count)}

theorem answered_record (answered : Answered env history) {action : Action count}
    (round : ∀ registerHash samples, action = .round registerHash samples →
      ∃ before, env.computeRows history.length before = (registerHash, samples))
    (pass : ∀ outcome, action = .pass outcome → env.runPass history.length = outcome) :
    Answered env (history ++ [action]) := by
  have lookup : ∀ {i other}, (history ++ [action])[i]? = some other →
      history[i]? = some other ∨ (i = history.length ∧ action = other) := by
    intro i other found
    rcases Nat.lt_trichotomy i history.length with before | rfl | after
    · rw [List.getElem?_append_left before] at found
      exact .inl found
    · rw [List.getElem?_concat_length, Option.some.injEq] at found
      exact .inr ⟨rfl, found⟩
    · have bound := (List.getElem?_eq_some_iff.mp found).1
      rw [List.length_append, List.length_singleton] at bound
      omega
  constructor
  · intro i registerHash samples found
    rcases lookup found with old | ⟨rfl, same⟩
    · exact answered.round i registerHash samples old
    · exact round registerHash samples same
  · intro i outcome found
    rcases lookup found with old | ⟨rfl, same⟩
    · exact answered.pass i outcome old
    · exact pass outcome same

theorem answered_quiet (answered : Answered env history) {action : Action count}
    (quiet : action.isMeasurement = false) : Answered env (history ++ [action]) := by
  apply answered_record answered
  · rintro registerHash samples rfl
    cases quiet
  · rintro outcome rfl
    cases quiet

/-- The loop of either probe only records what it is answered. -/
theorem answered_loop {Body : Type} {probe : TimedProbe count Body} {before : World count}
    (measured : ∀ (world : World count) body action lines,
      (probe.measure env world body).1 = (world.record action).print lines →
      (∀ registerHash samples, action = .round registerHash samples →
        ∃ before, env.computeRows world.time before = (registerHash, samples)) ∧
      ∀ outcome, action = .pass outcome → env.runPass world.time = outcome) :
    LoopInvariant env probe before
      (fun events _ _ => Answered env (before.history ++ events)) where
  quiet events lines body action _ still answered := by
    rw [← List.append_assoc]
    exact answered_quiet answered still
  progress events lines body seconds answered := answered
  measured here events lines body action added grown _ _ _ _ ran answered := by
    obtain ⟨round, pass⟩ := measured here body action added ran
    rw [← List.append_assoc]
    rw [World.time, grown.history] at round pass
    exact answered_record answered round pass

theorem timed_run_answered {Body : Type} {probe : TimedProbe count Body} {minutes fuel : Nat}
    {world : World count} {body : Body} {out : TimedOutcome count Body}
    (loop : LoopInvariant env probe (TimedRun.started env world)
      (fun events _ _ => Answered env ((TimedRun.started env world).history ++ events)))
    (answered : Answered env world.history)
    (ran : timedRun env probe minutes fuel world body = some out) :
    Answered env out.world.history := by
  have opening : Answered env ((TimedRun.started env world).history ++ []) := by
    rw [List.append_nil]
    exact answered_quiet answered rfl
  obtain ⟨events, lines, framed, ended⟩ := timed_run_rule loop opening ran
  rw [framed.history, List.append_cons]
  exact ended

theorem answered_survives (env : Env count) (config : Config) :
    Survives env config (fun history _ _ => Answered env history) where
  first _ answered := answered_quiet answered rfl
  other action other answered := by
    apply answered_quiet answered
    cases action <;> first | rfl | cases other
  ch answered ran := by
    obtain ⟨out, timed, same⟩ := Option.map_eq_some_iff.mp ran
    cases same
    apply timed_run_answered _ answered timed
    apply answered_loop
    intro world state action lines measured
    obtain ⟨rfl, _⟩ := World.record_print_injective measured
    constructor
    · intro registerHash samples same
      cases same
      exact ⟨state.work.samples, rfl⟩
    · intro outcome same
      cases same
  rbx answered ran := by
    obtain ⟨out, timed, same⟩ := Option.map_eq_some_iff.mp ran
    cases same
    apply timed_run_answered _ answered timed
    apply answered_loop
    intro world state action lines measured
    obtain ⟨rfl, _⟩ := World.record_print_injective measured
    constructor
    · intro registerHash samples same
      cases same
    · intro outcome same
      cases same
      rfl

theorem mem_rounds_iff (round : Word × Vector Sample count) :
    round ∈ roundsOf history ↔ ∃ i : Nat, history[i]? = some (.round round.1 round.2) := by
  rw [roundsOf, List.mem_filterMap]
  constructor
  · intro member
    obtain ⟨action, listed, same⟩ := member
    cases action with
    | round registerHash samples =>
        cases same
        exact List.mem_iff_getElem?.mp listed
    | _ => cases same
  · intro found
    obtain ⟨i, there⟩ := found
    exact ⟨_, List.mem_of_getElem? there, rfl⟩

theorem mem_passes_iff (outcome : RbxPass) :
    outcome ∈ passesOf history ↔ ∃ i : Nat, history[i]? = some (.pass outcome) := by
  rw [passesOf, List.mem_filterMap]
  constructor
  · intro member
    obtain ⟨action, listed, same⟩ := member
    cases action with
    | pass other =>
        cases same
        exact List.mem_iff_getElem?.mp listed
    | _ => cases same
  · intro found
    obtain ⟨i, there⟩ := found
    exact ⟨_, List.mem_of_getElem? there, rfl⟩

end History

/-- A round was measured at an instant. -/
def RoundAt (history : List (Action count)) (i : Nat) : Prop :=
  ∃ registerHash samples, history[i]? = some (.round registerHash samples)

/-- A pass was made at an instant. -/
def PassAt (history : List (Action count)) (i : Nat) : Prop :=
  ∃ outcome, history[i]? = some (.pass outcome)

/-- The surroundings of a sweep are one machine: its rounds are calls of `compute_rows` with
the reads of their instants, and its passes are calls of `sdc_rbx_run_pass` in one process,
one after the other. -/
structure OnMachine (platform : Platform) (image : Image) (compiled : Compiled)
    (load : Nat → Nat → Sample) (misread : Nat → Nat → Misread)
    (inputs : Nat → WellBehaved platform image) (processes : Nat → Process)
    (env : Env sampleCount) (history : List (Action sampleCount)) : Prop where
  rounds : ∀ i, RoundAt history i →
    ∀ before, computeRows compiled load (misread i) before kRows =
      some (env.computeRows i before)
  prepared : ∀ i, PassAt history i → Ready platform (processes 0)
  passes : ∀ i, PassAt history i →
    sdcRbxRunPass platform image (inputs i).toPassInput (processes i) =
      some (env.runPass i, processes (i + 1))
  others : ∀ i, i < history.length → ¬ PassAt history i → processes (i + 1) = processes i

/-- Some read of the round delivers another byte than the stored one. -/
def WrongRead (load : Nat → Nat → Sample) (misread : Nat → Misread) : Prop :=
  ∃ s lane, s < sampleCount ∧ ReadDiffers load misread s lane

/-- Only the reads of one sample do. -/
def OneWrongSample (load : Nat → Nat → Sample) (misread : Nat → Misread) : Prop :=
  ∃ s, s < sampleCount ∧ MisreadsOnly load misread s

section Machine

variable {platform : Platform} {image : Image} {compiled : Compiled}
  {load : Nat → Nat → Sample} {misread : Nat → Nat → Misread}
  {inputs : Nat → WellBehaved platform image} {processes : Nat → Process}
  {env : Env sampleCount} {history : List (Action sampleCount)}

/-- The process is ready at every instant. -/
theorem ready_at
    (machine : OnMachine platform image compiled load misread inputs processes env history)
    (prepared : Ready platform (processes 0)) (i : Nat) (inside : i ≤ history.length) :
    Ready platform (processes i) := by
  induction i with
  | zero => exact prepared
  | succ i ih =>
      have ready := ih (Nat.le_of_succ_le inside)
      by_cases pass : PassAt history i
      · obtain ⟨other, after, ran, _, readyAfter⟩ := run_pass_spec (inputs i) ready
        rw [machine.passes i pass, Option.some.injEq, Prod.mk.injEq] at ran
        rw [ran.2]
        exact readyAfter
      · rw [machine.others i inside pass]
        exact ready

theorem round_evidence (kept : KeepsInputs compiled)
    (machine : OnMachine platform image compiled load misread inputs processes env history)
    (answered : Answered env history) {i : Nat} {registerHash : Word}
    {samples : Vector Sample sampleCount}
    (found : history[i]? = some (.round registerHash samples)) :
    (ChRun.differs (registerHash, samples) = true → WrongRead load (misread i)) ∧
      (OneWrongSample load (misread i) → ChRun.differs (registerHash, samples) = true) := by
  obtain ⟨before, answer⟩ := answered.round i registerHash samples found
  have ran := machine.rounds i ⟨registerHash, samples, found⟩ before
  rw [answer] at ran
  constructor
  · intro differs
    by_contra right
    have computed := round_computed (keeps_address kept) ran
    have agree := hash_of_right_reads kept computed fun s lane inside wrong =>
      right ⟨s, lane, inside, wrong⟩
    exact of_decide_eq_true differs agree
  · intro misreads
    obtain ⟨s, inside, only⟩ := misreads
    exact decide_eq_true (misread_round_differs kept inside only ran)

theorem pass_evidence
    (machine : OnMachine platform image compiled load misread inputs processes env history)
    (answered : Answered env history) {i : Nat} {outcome : RbxPass}
    (found : history[i]? = some (.pass outcome)) :
    RbxRun.failed outcome = true ↔ ¬ EndsRight image (inputs i).toPassInput (processes i) := by
  have pass : PassAt history i := ⟨outcome, found⟩
  have inside := (List.getElem?_eq_some_iff.mp found).1
  have ready := ready_at machine (machine.prepared i pass) i (Nat.le_of_lt inside)
  obtain ⟨other, after, ran, spec, _⟩ := run_pass_spec (inputs i) ready
  rw [machine.passes i pass, answered.pass i outcome found, Option.some.injEq,
    Prod.mk.injEq] at ran
  rw [← ran.1] at spec
  rw [← not_failed_iff ready spec, Bool.not_eq_false]

end Machine

/-- Exit code 1 stands for something that has happened: a read of some round that delivered
another byte than the stored one, or a pass in which the payload did not return the hash of
the generated data. And one round with wrong reads in a single sample, or one such pass, is
enough for it, whatever else there was and whether the sweep was interrupted or not. -/
theorem exit_code_follows_the_faults {platform : Platform} {image : Image}
    {compiled : Compiled} (kept : KeepsInputs compiled) {load : Nat → Nat → Sample}
    {misread : Nat → Nat → Misread}
    {inputs : Nat → WellBehaved platform image} {processes : Nat → Process}
    {env : Env sampleCount} {config : Config} {fuel : Nat} {out : Outcome sampleCount}
    (ran : main env config fuel = some out)
    (machine : OnMachine platform image compiled load misread inputs processes env
      out.world.history) :
    (out.exitCode = kExitDetected →
      (∃ i, RoundAt out.world.history i ∧ WrongRead load (misread i)) ∨
      ∃ i, PassAt out.world.history i ∧
        ¬ EndsRight image (inputs i).toPassInput (processes i)) ∧
    ((∃ i, RoundAt out.world.history i ∧ OneWrongSample load (misread i)) ∨
      (∃ i, PassAt out.world.history i ∧
        ¬ EndsRight image (inputs i).toPassInput (processes i)) →
      out.exitCode = kExitDetected) := by
  have start : Answered env [] := by
    constructor
    · intro i registerHash samples found
      cases found
    · intro i outcome found
      cases found
  have answered : Answered env out.world.history :=
    main_survives (answered_survives env config) start ran
  rw [(sweep_codes ran).detected, Detects]
  constructor
  · intro detects
    rcases detects with ⟨round, member, differs⟩ | ⟨outcome, member, failed⟩
    · obtain ⟨i, found⟩ := (mem_rounds_iff round).mp member
      have wrong := (round_evidence kept machine answered found).1 differs
      exact .inl ⟨i, ⟨_, _, found⟩, wrong⟩
    · obtain ⟨i, found⟩ := (mem_passes_iff outcome).mp member
      have wrong := (pass_evidence machine answered found).mp failed
      exact .inr ⟨i, ⟨outcome, found⟩, wrong⟩
  · intro faults
    rcases faults with ⟨i, ⟨registerHash, samples, found⟩, misreads⟩ | ⟨i, ⟨outcome, found⟩, wrong⟩
    · have differs := (round_evidence kept machine answered found).2 misreads
      exact .inl ⟨(registerHash, samples), (mem_rounds_iff _).mpr ⟨i, found⟩, differs⟩
    · have failed := (pass_evidence machine answered found).mpr wrong
      exact .inr ⟨outcome, (mem_passes_iff _).mpr ⟨i, found⟩, failed⟩

section Sample

open VerdictSoundness

/-- A nanosecond an action, and an interrupt behind the first pass. -/
def oneFaultEnv (pass : RbxPass) : Env sampleCount :=
  { steadyMachine 1 (some 8) with runPass := fun _ => pass }

def oneFaultHistory (pass : RbxPass) : List (Action sampleCount) :=
  [.poll (.core ⟨0, 0, 0⟩) false, .pin ⟨0, 0, 0⟩ true, .verifyPin ⟨0, 0, 0⟩ "", .clock .start 3,
    .clock .test 4, .poll (.timed .rbx) false, .pass pass, .clock .after 7, .clock .test 8,
    .poll (.timed .rbx) true, .clock .finish 10]

theorem one_fault_runs (pass : RbxPass) : ∃ out, main (oneFaultEnv pass) rbxOnOneCore 2 = some out ∧
    out.world.history = oneFaultHistory pass :=
  ⟨_, rfl, rfl⟩

theorem one_fault_pass (pass : RbxPass) {i : Nat} (there : PassAt (oneFaultHistory pass) i) :
    i = 6 := by
  obtain ⟨outcome, found⟩ := there
  have inside := (List.getElem?_eq_some_iff.mp found).1
  have length : (oneFaultHistory pass).length = 11 := rfl
  rw [length] at inside
  match i with
  | 6 => rfl
  | 0 | 1 | 2 | 3 | 4 | 5 | 7 | 8 | 9 | 10 => cases found

/-- A process in which preparing has succeeded. -/
def preparedProcess : Process :=
  (sdcRbxPrepare .linux sampleImage allAnswers (fresh fun _ => 0)).2

theorem prepared_ready : Ready .linux preparedProcess := by
  obtain ⟨prepared, success⟩ :=
    prepare_spec .linux sampleImage allAnswers (fresh_preparing .linux fun _ => 0)
  exact prepared.ready (success (by simp [sdcRbxPrepare, sdcPayloadTpEnter, fresh, allAnswers]))

def wildPass : WellBehaved .linux sampleImage := ⟨wildInput, wild_behaves⟩

/-- A nanosecond an action, and an interrupt behind the first round. -/
def oneRoundEnv (rows : Vector Sample count → Word × Vector Sample count) : Env count where
  clock i := i
  steady _ _ le := le
  arrival := some 8
  pin _ _ := true
  verifyPin _ _ := ""
  computeRows _ samples := rows samples
  runPass _ := {}
  past _ := 0
  emitI16 := 0
  emitI16End := 0

def chOnOneCore : Config where
  minutes := 1
  probes := { ch := true, rbx := false }
  selected := [{ index := 0, inGroup := 0 }]
  layersGiven := true
  minutes_in_range := rbxOnOneCore.minutes_in_range
  some_probe := .inl rfl
  some_core := List.cons_ne_nil _ _

def oneRoundHistory (round : Word × Vector Sample count) : List (Action count) :=
  [.pinFirst ⟨0, 0, 0⟩ true, .poll (.core ⟨0, 0, 0⟩) false, .pin ⟨0, 0, 0⟩ true,
    .verifyPin ⟨0, 0, 0⟩ "", .clock .start 4, .clock .test 5, .poll (.timed .ch) false,
    .round round.1 round.2, .clock .after 8, .clock .test 9, .poll (.timed .ch) true,
    .clock .finish 11]

theorem one_round_runs (rows : Vector Sample count → Word × Vector Sample count) :
    ∃ out, main (oneRoundEnv rows) chOnOneCore 2 = some out ∧
      out.world.history = oneRoundHistory (rows (Vector.replicate count 0)) :=
  ⟨_, rfl, rfl⟩

theorem one_round_rows (rows : Vector Sample count → Word × Vector Sample count) (i : Nat)
    (before : Vector Sample count) : (oneRoundEnv rows).computeRows i before = rows before := rfl

theorem one_round_there (round : Word × Vector Sample count) :
    RoundAt (oneRoundHistory round) 7 :=
  ⟨round.1, round.2, rfl⟩

/-- The first read of the round delivers `1`. -/
def firstReadWrong : Nat → Misread
  | 0, 0 => some 1
  | _, _ => none

/-- The round of such reads, over samples of zeroes. -/
def wrongRound (before : Vector Sample sampleCount) : Word × Vector Sample sampleCount :=
  (computeRows accInRsi (fun _ _ => 0) firstReadWrong before kRows).getD (0, before)

theorem wrong_round_ran (before : Vector Sample sampleCount) :
    computeRows accInRsi (fun _ _ => 0) firstReadWrong before kRows = some (wrongRound before) := by
  obtain ⟨round, ran, _⟩ := compute_rows_computed (keeps_address acc_in_rsi_keeps)
    (fun _ _ => 0) firstReadWrong before kRows (Nat.le_of_eq samples_per_round)
  rw [wrongRound, ran]
  rfl

theorem first_read_wrong_only : OneWrongSample (fun _ _ => 0) firstReadWrong := by
  refine ⟨0, by decide, ⟨0, by unfold ReadDiffers; decide⟩, ?_⟩
  intro s lane _ other differs
  have right : firstReadWrong s lane = none := by
    cases s with
    | zero => exact absurd rfl other
    | succ s => rfl
  rw [ReadDiffers, observedByte, right] at differs
  exact differs rfl

theorem wrong_round_on_machine {env : Env sampleCount} {history : List (Action sampleCount)}
    {round : Word × Vector Sample sampleCount}
    (rows : ∀ i before, env.computeRows i before = wrongRound before)
    (measured : history = oneRoundHistory round) :
    OnMachine .linux sampleImage accInRsi (fun _ _ => 0) (fun _ => firstReadWrong)
      (fun _ => wildPass) (fun _ => preparedProcess) env history := by
  have noPass : ∀ i, ¬ PassAt history i := by
    intro i pass
    obtain ⟨outcome, found⟩ := pass
    have member := List.mem_of_getElem? found
    simp [measured, oneRoundHistory] at member
  constructor
  · intro i _ before
    rw [rows]
    exact wrong_round_ran before
  · intro _ _
    exact prepared_ready
  · intro i pass
    exact absurd pass (noPass i)
  · intro _ _ _
    rfl

/-- The payload follows a wild pointer, and the sweep is interrupted right behind that: the
exit code is 1 and not 4. So it is when the first read of the only round is wrong. -/
theorem exit_code_follows_the_faults_sample :
    (∃ pass out, main (oneFaultEnv pass) rbxOnOneCore 2 = some out ∧
      out.exitCode = kExitDetected) ∧
    ∃ out, main (oneRoundEnv wrongRound) chOnOneCore 2 = some out ∧
      out.exitCode = kExitDetected := by
  constructor
  · obtain ⟨pass, after, ran, _, _⟩ := run_pass_spec wildPass prepared_ready
    obtain ⟨out, swept, history⟩ := one_fault_runs pass
    have machine : OnMachine .linux sampleImage accInRsi (fun _ _ => 0)
        (fun _ _ => correctReads) (fun _ => wildPass)
        (fun i => if i ≤ 6 then preparedProcess else after)
        (oneFaultEnv pass) out.world.history := by
      rw [history]
      constructor
      · intro i round
        obtain ⟨registerHash, samples, found⟩ := round
        have member := List.mem_of_getElem? found
        simp [oneFaultHistory] at member
      · intro _ _
        exact prepared_ready
      · intro i there
        rw [one_fault_pass pass there]
        exact ran
      · intro i _ quiet
        have other : i ≠ 6 := by
          rintro rfl
          exact quiet ⟨pass, rfl⟩
        split_ifs <;> first | rfl | omega
    have wrong : ¬ EndsRight sampleImage wildInput preparedProcess := by
      intro right
      obtain ⟨raised, area, ended⟩ := wild_raises preparedProcess
      obtain ⟨machine, place, returned, _⟩ := right
      rw [ended] at returned
      cases returned
    have faults := (exit_code_follows_the_faults acc_in_rsi_keeps swept machine).2
    refine ⟨pass, out, swept, faults (.inr ⟨6, ?_, wrong⟩)⟩
    rw [history]
    exact ⟨pass, rfl⟩
  · obtain ⟨out, swept, history⟩ := one_round_runs wrongRound
    have machine := wrong_round_on_machine (one_round_rows wrongRound) history
    have faults := (exit_code_follows_the_faults acc_in_rsi_keeps swept machine).2
    refine ⟨out, swept, faults (.inl ⟨7, ?_, first_read_wrong_only⟩)⟩
    rw [history]
    exact one_round_there _

end Sample

end SdcProbe.Evidence
