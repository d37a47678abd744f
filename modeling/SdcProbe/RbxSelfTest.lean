import SdcProbe.CaptureProtocol
import SdcProbe.FaultNames

/-!
# The self-test of the rbx probe

`sdc_rbx_self_test`, three passes of which the second calls the substitute memset
through the pointer the payload reads, and `rbx_self_test`, which prints the outcome.
-/

namespace SdcProbe.RbxSelfTest

open CNumeral Fnv1a ByteMemory Arena ArenaContents PayloadCall Report FaultCapture RbxRun
open CaptureProtocol FaultNames

set_option autoImplicit false

/-- A byte of the eight at an address. -/
def InCell (cell address : Nat) : Prop := cell ≤ address ∧ address < cell + 8

/-- Two variables behind the payload, and the two functions. -/
structure Cells where
  /-- `&sdc_rbx_inject_countdown` -/
  countdown : Nat
  /-- `&sdc_rbx_d_real_memset` -/
  realMemset : Nat
  /-- `sdc_rbx_memset` -/
  memset : Word
  /-- `sdc_rbx_memset_inject` -/
  memsetInject : Word
  fits : countdown + 8 ≤ 2 ^ 64 ∧ realMemset + 8 ≤ 2 ^ 64
  apart : countdown + 8 ≤ realMemset ∨ realMemset + 8 ≤ countdown
  outside : ∀ address, InCell countdown address ∨ InCell realMemset address → ¬ Owned address

/-- `RbxSelfTest` -/
structure Outcome where
  cleanPassOk : Bool := false
  injectedCaught : Bool := false
  recovered : Bool := false
  detail : Text := []

def setCell (process : Process) (cell : Nat) (value : Word) : Process :=
  { process with memory := store64 process.memory cell value }

section Test

variable (platform : Platform) (image : Image) (cells : Cells) (rows : List NamedRow)

/-- The countdown and the pointer, before the second pass. -/
def installInject (process : Process) : Process :=
  setCell (setCell process cells.countdown 1000) cells.realMemset cells.memsetInject

def restoreMemset (process : Process) : Process := setCell process cells.realMemset cells.memset

/-- `std::string(fault.what) + " at " + sdc_rbx_describe_address(fault.rip)` -/
def detailOf (fault : FaultRecord) : Text :=
  fault.what.toList ++ " at ".toList ++ describeAddress rows fault.rip

/-- `none` where the process dies in a pass. -/
def sdcRbxSelfTest (first second third : PassInput) (process : Process) :
    Option (Outcome × Process) := do
  let (clean, process) ← sdcRbxRunPass platform image first process
  let result : Outcome := { cleanPassOk := !failed clean }
  if result.cleanPassOk = false then some (result, process)
  else
    let (injected, process) ←
      sdcRbxRunPass platform image second (installInject cells process)
    let process := restoreMemset cells process
    let result := { result with injectedCaught := injected.faulted }
    let result :=
      if injected.faulted then { result with detail := detailOf rows injected.fault } else result
    let (later, process) ← sdcRbxRunPass platform image third process
    some ({ result with recovered := !failed later }, process)

end Test

section Passes

variable {platform : Platform} {image : Image}

/-- The payload returns with the hash of the generated data. -/
def EndsRight (image : Image) (input : PassInput) (process : Process) : Prop :=
  ∃ machine area, payloadEnd image input process = .returned machine area ∧
    machine.register .rax = hash generated

theorem not_failed_iff {input : PassInput} {before after : Process} {pass : RbxPass}
    (ready : Ready platform before) (spec : PassSpec image input before pass after) :
    failed pass = false ↔ EndsRight image input before := by
  rw [failed, Bool.or_eq_false_iff, EndsRight]
  constructor
  · rintro ⟨quiet, right⟩
    cases ended : payloadEnd image input before with
    | raised raised area =>
        rw [spec.faulted.mpr ⟨raised, area, ended⟩] at quiet
        cases quiet
    | returned machine area =>
        apply Exists.intro machine
        apply Exists.intro area
        constructor
        · rfl
        · by_contra wrong
          rw [← ready.expected] at wrong
          rw [spec.mismatch.mpr ⟨machine, area, ended, wrong⟩] at right
          cases right
  · rintro ⟨machine, area, ended, right⟩
    constructor
    · rw [Bool.eq_false_iff]
      intro faulted
      obtain ⟨raised, other, ends⟩ := spec.faulted.mp faulted
      rw [ended] at ends
      cases ends
    · rw [Bool.eq_false_iff]
      intro mismatch
      obtain ⟨other, place, ends, wrong⟩ := spec.mismatch.mp mismatch
      rw [ended] at ends
      cases ends
      exact wrong (right.trans ready.expected.symm)

/-- Whether a process is ready says nothing about its memory. -/
theorem ready_set_cell {process : Process} (ready : Ready platform process) (cell : Nat)
    (value : Word) : Ready platform (setCell process cell value) :=
  ⟨ready.prepared, ready.disarmed, ready.installed, ready.handled, ready.gsBase, ready.expected,
    ready.once, ready.upcoming⟩

end Passes

section Cells

variable (cells : Cells) (process : Process)

theorem set_cell_changes {cell : Nat} (fits : cell + 8 ≤ 2 ^ 64) (value : Word) :
    ChangesOnly (InCell cell) process.memory (setCell process cell value).memory :=
  store64_changes_only process.memory cell value fits

theorem installed_cells :
    load64 (installInject cells process).memory cells.countdown = 1000 ∧
      load64 (installInject cells process).memory cells.realMemset = cells.memsetInject := by
  have apart := cells.apart
  constructor
  · rw [installInject, (set_cell_changes _ cells.fits.2 _).load64 _ cells.fits.1, setCell,
      load64_store64]
    intro address lower upper inside
    unfold InCell at inside
    omega
  · rw [installInject, setCell, load64_store64]

/-- The arena as `build_arena` leaves it, in whatever memory it is part of. -/
structure Rebuilt (process : Process) : Prop where
  chunks : readChunks process.memory (pointer kVectorAddress) = generated
  shadow : ∀ address, kArenaBase ≤ address → address < kArenaBase + kArenaBytes →
    process.memory (pointer ((address >>> 3) + kShadowOffset)) = 0
  sizeField : load64 process.memory (kArenaBase + kFakeStackSizeLogOffset) = kStackSizeLog
  slot : process.threadArea[0]? = some (pointer kArenaBase)

/-- Stores outside the arena leave it built. -/
theorem rebuilt_of_changes {touched : Nat → Prop} {before built : ArenaState} {value : Word}
    {process : Process} (arena : ArenaBuilt before built value)
    (changes : ChangesOnly touched built.memory process.memory)
    (outside : ∀ address, touched address → ¬ Owned address)
    (area : process.threadArea = built.threadArea) : Rebuilt process := by
  have kept : ∀ address, (∀ byte, address ≤ byte → byte < address + 8 → InHeaders byte) →
      address + 8 ≤ 2 ^ 64 → load64 process.memory address = load64 built.memory address := by
    intro address header fits
    apply changes.load64 address fits
    intro byte lower upper inside
    exact outside byte inside (in_headers_owned byte (header byte lower upper)).1
  have again : ArenaBuilt ⟨process.memory, before.threadArea⟩
      ⟨process.memory, process.threadArea⟩ value := by
    constructor
    · rw [kept _ (by unfold InHeaders; rw [size_field_eq]; omega) (by decide), arena.sizeField]
    · rw [kept _ (by unfold InHeaders; rw [vector_address_eq]; omega) (by decide), arena.first]
    · rw [kept _ (by unfold InHeaders; rw [vector_address_eq]; omega) (by decide), arena.last]
    · intro c inside
      apply chunk_holds_congr inside _ (arena.chunks c inside)
      intro address bound within
      apply changes address bound
      intro touched
      exact outside address touched
        (in_chunks_owned address (in_chunk_in_chunks c address inside within)).1
    · intro address lower upper
      rw [← arena.shadow address lower upper]
      apply changes address
      · obtain ⟨shadowBase, shadowBytes⟩ := shadow_map_eq
        omega
      · exact fun touched => outside address touched (Or.inr ⟨lower, upper⟩)
    · exact arena.hash
    · exact changes_only_refl Owned process.memory
    · rw [area]
      exact arena.slot
  constructor
  · exact read_chunks_eq again
  · intro address lower upper
    obtain ⟨above, below⟩ := shadow_inside address lower upper
    exact again.shadow _ above below
  · exact again.sizeField
  · have slot : process.threadArea = before.threadArea.set 0 (pointer kArenaBase) := again.slot
    rw [slot]
    exact Vector.getElem?_set_self ..

end Cells

section Runs

variable {platform : Platform} {image : Image}

/-- Behind a failed pass the arena is built, and the pointer store is outside. -/
theorem rebuilt_after_failure (cells : Cells) {input : PassInput} {before after : Process}
    {pass : RbxPass} (spec : PassSpec image input before pass after)
    (fails : failed pass = true) : Rebuilt (restoreMemset cells after) := by
  have arena := spec.arena
  rw [if_pos fails] at arena
  have built := arena_built (leftBehind input (payloadEnd image input before))
  rw [← arena] at built
  apply rebuilt_of_changes built (set_cell_changes after cells.fits.2 cells.memset)
  · exact fun address inside => cells.outside address (Or.inr inside)
  · rfl

section Outcomes

variable (platform : Platform) (image : Image) (cells : Cells) (rows : List NamedRow)
  (first second third : PassInput) (process : Process)

/-- The second and the third pass: `clean` is the process behind the first one and
`injected` the process behind the second. -/
structure Injected (result : Outcome) (final clean injected : Process) : Prop where
  memory : clean.memory = (leftBehind first (payloadEnd image first process)).memory
  countdown : load64 (installInject cells clean).memory cells.countdown = 1000
  pointer : load64 (installInject cells clean).memory cells.realMemset = cells.memsetInject
  caught : result.injectedCaught = true ↔
    ∃ raised area, payloadEnd image second (installInject cells clean) = .raised raised area
  detail : ∀ raised area,
    payloadEnd image second (installInject cells clean) = .raised raised area →
      result.detail = detailOf rows (recordOf raised)
  restored : load64 (restoreMemset cells injected).memory cells.realMemset = cells.memset
  rebuilt : ¬ EndsRight image second (installInject cells clean) →
    Rebuilt (restoreMemset cells injected)
  recovered : result.recovered = true ↔ EndsRight image third (restoreMemset cells injected)
  passes : final.passes = process.passes + 3

/-- What the self-test of a prepared probe has done when it returns. -/
structure Tested (result : Outcome) (final : Process) : Prop where
  ready : Ready platform final
  clean : result.cleanPassOk = true ↔ EndsRight image first process
  stops : result.cleanPassOk = false → result = {} ∧ final.passes = process.passes + 1
  goesOn : result.cleanPassOk = true → ∃ clean injected,
    Injected image cells rows first second third process result final clean injected

end Outcomes

end Runs

/-- In a prepared process the three passes come to an end. -/
theorem sdc_rbx_self_test_spec {platform : Platform} {image : Image} (cells : Cells)
    (rows : List NamedRow) (first second third : WellBehaved platform image) (process : Process)
    (ready : Ready platform process) :
    ∃ result final, sdcRbxSelfTest platform image cells rows first.toPassInput second.toPassInput
        third.toPassInput process = some (result, final) ∧
      Tested platform image cells rows first.toPassInput second.toPassInput third.toPassInput
        process result final := by
  obtain ⟨cleanPass, clean, ranClean, cleanSpec, cleanReady⟩ := run_pass_spec first ready
  have right := not_failed_iff ready cleanSpec
  cases failure : failed cleanPass with
  | true =>
      rw [failure] at right
      refine ⟨{}, clean, ?_, ?_⟩
      · rw [sdcRbxSelfTest, ranClean]
        simp only [Option.bind_eq_bind, Option.bind_some, failure, Bool.not_true, if_true]
      · constructor
        · exact cleanReady
        · constructor
          · intro ok
            cases ok
          · intro ends
            cases right.mpr ends
        · exact fun _ => ⟨rfl, cleanSpec.passes⟩
        · intro ok
          cases ok
  | false =>
      have installed := ready_set_cell (ready_set_cell cleanReady cells.countdown 1000)
        cells.realMemset cells.memsetInject
      obtain ⟨injectedPass, injected, ranInjected, injectedSpec, injectedReady⟩ :=
        run_pass_spec second installed
      have restored := ready_set_cell injectedReady cells.realMemset cells.memset
      obtain ⟨laterPass, final, ranLater, laterSpec, finalReady⟩ := run_pass_spec third restored
      have injectedRight := not_failed_iff installed injectedSpec
      have laterRight := not_failed_iff restored laterSpec
      refine ⟨{ cleanPassOk := true
                injectedCaught := injectedPass.faulted
                recovered := !failed laterPass
                detail := if injectedPass.faulted then detailOf rows injectedPass.fault else [] },
        final, ?_, ?_⟩
      · rw [sdcRbxSelfTest, ranClean]
        simp only [Option.bind_eq_bind, Option.bind_some, failure, Bool.not_false,
          Bool.true_eq_false, if_false]
        rw [installInject, ranInjected]
        simp only [Option.bind_some]
        rw [restoreMemset, ranLater]
        simp only [Option.bind_some]
        split_ifs <;> rfl
      · constructor
        · exact finalReady
        · exact iff_of_true rfl (right.mp failure)
        · intro failed
          cases failed
        · intro _
          refine ⟨clean, injected, ?_⟩
          constructor
          · have arena := cleanSpec.arena
            rw [failure, if_neg Bool.false_ne_true] at arena
            exact congrArg ArenaState.memory arena
          · exact (installed_cells cells clean).1
          · exact (installed_cells cells clean).2
          · exact injectedSpec.faulted
          · intro raised area ends
            have faulted := injectedSpec.faulted.mpr ⟨raised, area, ends⟩
            dsimp only
            rw [if_pos faulted, injectedSpec.fault raised area ends]
          · rw [restoreMemset, setCell, load64_store64]
          · intro wrong
            apply rebuilt_after_failure cells injectedSpec
            by_contra quiet
            exact wrong (injectedRight.mp (Bool.eq_false_iff.mpr quiet))
          · dsimp only
            rw [Bool.not_eq_true']
            exact laterRight
          · have first := cleanSpec.passes
            have second : injected.passes = clean.passes + 1 := injectedSpec.passes
            have third : final.passes = injected.passes + 1 := laterSpec.passes
            omega

section Report

inductive TestLine where
  /-- `self-test: verifying the rbx probe against an injected frame-base change` -/
  | begins
  | skip (problem : PrepareError)
  | blank
  /-- `self-test: rbx probe not available on this machine` -/
  | notAvailable
  | cannotSetUp (problem : PrepareError)
  | cleanPass
  | cleanFail
  | caught (detail : Text)
  | nothingCaught
  | recoveredPass
  | recoveredFail
  /-- `self-test: %u passed, %u failed` -/
  | total (passed failed : Nat)
  deriving DecidableEq

/-- The three tests of the outcome, each with its line. -/
def judgeTests (r : Outcome) : List (Bool × TestLine) :=
  [(r.cleanPassOk, if r.cleanPassOk then .cleanPass else .cleanFail),
    (r.injectedCaught, if r.injectedCaught then .caught r.detail else .nothingCaught),
    (r.recovered, if r.recovered then .recoveredPass else .recoveredFail)]

def passedTests (r : Outcome) : Nat := (judgeTests r).countP (fun test => test.1)

def failedTests (r : Outcome) : Nat := (judgeTests r).countP (fun test => !test.1)

/-- All three tests pass. -/
def Outcome.Good (r : Outcome) : Prop :=
  r.cleanPassOk = true ∧ r.injectedCaught = true ∧ r.recovered = true

theorem failed_tests_eq_zero (r : Outcome) : failedTests r = 0 ↔ r.Good := by
  rw [failedTests, List.countP_eq_zero, judgeTests, Outcome.Good]
  simp only [List.mem_cons, List.not_mem_nil, or_false, forall_eq_or_imp, forall_eq,
    Bool.not_eq_true', Bool.not_eq_false]

theorem passed_and_failed (r : Outcome) : passedTests r + failedTests r = 3 := by
  rw [passedTests, failedTests]
  cases r with
  | mk clean caught recovered detail =>
      cases clean <;> cases caught <;> cases recovered <;> rfl

variable (platform : Platform) (image : Image) (cells : Cells) (rows : List NamedRow)

/-- `rbx_self_test`: what it returns and prints. -/
def rbxSelfTest (answers : Answers) (first second third : PassInput) (process : Process) :
    Option (Bool × List TestLine × Process) :=
  if answers.supported = false then
    some (true, [.begins, .skip .notSupported, .blank, .notAvailable], process)
  else
    match sdcRbxPrepare platform image answers process with
    | (.error problem, process) => some (false, [.begins, .cannotSetUp problem], process)
    | (.ok (), process) => do
        let (r, process) ← sdcRbxSelfTest platform image cells rows first second third process
        some (failedTests r == 0, .begins :: (judgeTests r).map Prod.snd ++
          [.blank, .total (passedTests r) (failedTests r)], process)

/-- How `rbx_self_test` ends: with nothing to test, before the first pass, or behind the
last one. -/
inductive Ended (answers : Answers) (first second third : PassInput) (process : Process)
    (verdict : Bool) (lines : List TestLine) (final : Process) : Prop where
  | skipped : answers.supported = false → verdict = true →
      lines = [.begins, .skip .notSupported, .blank, .notAvailable] → final = process →
      Ended answers first second third process verdict lines final
  | unprepared (problem : PrepareError) : answers.supported = true →
      (sdcRbxPrepare platform image answers process).1 = .error problem → verdict = false →
      lines = [.begins, .cannotSetUp problem] → Preparing platform final →
      Ended answers first second third process verdict lines final
  | tested (result : Outcome) : answers.supported = true →
      (sdcRbxPrepare platform image answers process).1 = .ok () →
      Tested platform image cells rows first second third
        (sdcRbxPrepare platform image answers process).2 result final →
      (verdict = true ↔ result.Good) →
      lines = .begins :: (judgeTests result).map Prod.snd ++
        [.blank, .total (passedTests result) (failedTests result)] →
      passedTests result + failedTests result = 3 →
      Ended answers first second third process verdict lines final

theorem rbx_self_test_returns {platform : Platform} {image : Image} (cells : Cells)
    (rows : List NamedRow) (answers : Answers) (first second third : WellBehaved platform image)
    (process : Process) (preparing : Preparing platform process) :
    ∃ verdict lines final, rbxSelfTest platform image cells rows answers first.toPassInput
      second.toPassInput third.toPassInput process = some (verdict, lines, final) := by
  obtain ⟨prepared, success⟩ := prepare_spec platform image answers preparing
  unfold rbxSelfTest
  split_ifs
  · exact ⟨_, _, _, rfl⟩
  · cases attempted : sdcRbxPrepare platform image answers process with
    | mk attempt after =>
        rw [attempted] at prepared success
        cases attempt with
        | error problem => exact ⟨_, _, _, rfl⟩
        | ok done =>
            obtain ⟨result, final, ran, _⟩ := sdc_rbx_self_test_spec cells rows first second third
              after (prepared.ready (success rfl))
            dsimp only
            rw [ran]
            exact ⟨_, _, _, rfl⟩

end Report

section Sample

def sampleSite : CallSite := ⟨fun _ => 0x7010, 0x4000, 0x9000, by decide⟩

def sampleImage : Image := ⟨⟨0x8000, 0x4000⟩, 0xa048⟩

def sampleCells : Cells where
  countdown := 0xb000
  realMemset := 0xb008
  memset := 0x401400
  memsetInject := 0x401540
  fits := by decide
  apart := by decide
  outside := by
    intro address inside
    obtain ⟨shadowBase, shadowBytes⟩ := shadow_map_eq
    have arenaEnd := arena_end_eq
    have base : kArenaBase = 0x600000000000 := rfl
    unfold InCell at inside
    unfold Owned
    omega

/-- The machine behind a return with a value. -/
def afterReturn (entered : Machine) (value : Word) : Machine where
  register name :=
    if name = .rsp then entered.register .rsp + 8
    else if name = .rax then value else entered.register name
  directionFlag := false
  memory := entered.memory

/-- A payload that returns a value. -/
def returning (value : Word) : PassInput :=
  ⟨sampleSite, true, fun entered =>
    .returned (afterReturn entered value) (Vector.replicate 16 0)⟩

/-- One that follows a wild pointer. -/
def wildInput : PassInput :=
  ⟨sampleSite, true, fun entered =>
    .raised ⟨.signal .segv 0, 0x401000, { entered with register := fun _ => 0x5a }⟩
      (Vector.replicate 16 0)⟩

theorem sample_frame (memory : Memory 64) :
    FrameIntact (enterCall sampleSite memory)
        (handedOver sampleImage.toLayout (enterCall sampleSite memory)).memory ∧
      loadWord 64 8 (handedOver sampleImage.toLayout (enterCall sampleSite memory)).memory
        sampleImage.savedRsp = frameBase (enterCall sampleSite memory) := by
  have base : frameBase (enterCall sampleSite memory) = 0x6fd0 := by
    change (0x7010 : Word) - 8 - 56 = 0x6fd0
    decide
  apply handed_over_frame
  · rw [base]
    decide
  · rw [base]
    decide

theorem after_return_conforms (entered : Machine) (value : Word) :
    ReturnsInSysV entered (afterReturn entered value) := by
  constructor
  · rfl
  · intro name saved
    simp only [calleeSaved, List.mem_cons, List.not_mem_nil, or_false] at saved
    rcases saved with rfl | rfl | rfl | rfl | rfl | rfl <;> rfl
  · rfl

theorem returning_behaves (value : Word) : Behaves .linux sampleImage (returning value) :=
  fun memory => ⟨after_return_conforms _ value, (sample_frame memory).1⟩

theorem returning_ends (process : Process) :
    EndsRight sampleImage (returning (hash generated)) process := by
  generalize same : hash generated = value
  refine ⟨_, _, rfl, ?_⟩
  exact same.symm

theorem wild_behaves : Behaves .linux sampleImage wildInput :=
  fun memory => ⟨rfl, sample_frame memory⟩

theorem wild_raises (process : Process) :
    ∃ raised area, payloadEnd sampleImage wildInput process = .raised raised area :=
  ⟨_, _, rfl⟩

def allAnswers : Answers := ⟨true, true, true, true, true⟩

end Sample

/-- From any state before or after an attempt to prepare, the self-test returns. It passes
where the probe is not supported. Otherwise it prepares, and passes exactly when its three
tests do; the second pass runs with the injecting memset behind the pointer and the
countdown at 1000, the third one with the pointer put back and, where the second has
failed, the arena built again. -/
theorem rbx_self_test_outcome {platform : Platform} {image : Image} (cells : Cells)
    (rows : List NamedRow) (answers : Answers) (first second third : WellBehaved platform image)
    (process : Process) (preparing : Preparing platform process) :
    ∃ verdict lines final, rbxSelfTest platform image cells rows answers first.toPassInput
        second.toPassInput third.toPassInput process = some (verdict, lines, final) ∧
      Ended platform image cells rows answers first.toPassInput second.toPassInput
        third.toPassInput process verdict lines final := by
  obtain ⟨prepared, success⟩ := prepare_spec platform image answers preparing
  unfold rbxSelfTest
  split_ifs with supported
  · exact ⟨_, _, _, rfl, .skipped supported rfl rfl rfl⟩
  · rw [Bool.not_eq_false] at supported
    cases attempted : sdcRbxPrepare platform image answers process with
    | mk attempt after =>
        rw [attempted] at prepared success
        cases attempt with
        | error problem =>
            refine ⟨_, _, _, rfl, .unprepared problem supported ?_ rfl rfl prepared⟩
            rw [attempted]
        | ok done =>
            obtain ⟨result, final, ran, tested⟩ := sdc_rbx_self_test_spec cells rows first second
              third after (prepared.ready (success rfl))
            refine ⟨failedTests result == 0, _, final, ?_, .tested result supported ?_ ?_ ?_ rfl ?_⟩
            · dsimp only
              rw [ran]
              rfl
            · rw [attempted]
            · rw [attempted]
              exact tested
            · rw [beq_iff_eq]
              exact failed_tests_eq_zero result
            · exact passed_and_failed result

/-- The second payload raises, the other two return: all three tests pass. -/
theorem rbx_self_test_outcome_sample : ∃ lines final,
    rbxSelfTest .linux sampleImage sampleCells [] allAnswers (returning (hash generated))
      wildInput (returning (hash generated)) (fresh fun _ => 0) = some (true, lines, final) := by
  obtain ⟨verdict, lines, final, ran, ended⟩ := rbx_self_test_outcome sampleCells [] allAnswers
    ⟨returning (hash generated), returning_behaves _⟩ ⟨wildInput, wild_behaves⟩
    ⟨returning (hash generated), returning_behaves _⟩ (fresh fun _ => 0)
    (fresh_preparing .linux fun _ => 0)
  cases ended with
  | skipped unsupported => cases unsupported
  | unprepared problem _ failed =>
      simp [sdcRbxPrepare, sdcPayloadTpEnter, fresh, allAnswers] at failed
  | tested result _ _ tested verdictIff =>
      have clean := tested.clean.mpr (returning_ends _)
      obtain ⟨_, _, injected⟩ := tested.goesOn clean
      have good : result.Good := ⟨clean, injected.caught.mpr (wild_raises _),
        injected.recovered.mpr (returning_ends _)⟩
      rw [verdictIff.mpr good] at ran
      exact ⟨lines, final, ran⟩

end SdcProbe.RbxSelfTest
