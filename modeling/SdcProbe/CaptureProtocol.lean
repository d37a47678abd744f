import SdcProbe.ArenaContents
import SdcProbe.FaultCapture
import SdcProbe.RbxRun

/-!
# The fault-capture protocol over whole runs

Once the probe is prepared, every pass enters the thread pointer, arms the
capture, runs the payload, disarms, and rebuilds the arena after a failure. One
lemma says what a pass does from any ready state, and that it leaves a ready
state again; a run of passes is an induction over it.
-/

namespace SdcProbe.CaptureProtocol

open Fnv1a ByteMemory Arena ArenaContents PayloadCall Report FaultCapture RbxRun

set_option autoImplicit false

/-- An exception the installed handlers take. -/
def catchable (platform : Platform) (exception : Exception) : Bool :=
  reachesHandler platform { handlersInstalled := true } exception && isError exception

/-- The payload of a pass returns by the calling convention or raises an
exception the handlers take, and leaves the frame of `sdc_rbx_call` intact. -/
def Behaves (platform : Platform) (image : Image) (input : PassInput) : Prop :=
  ∀ memory, match input.payload (handedOver image.toLayout (enterCall input.site memory)) with
    | .returned machine _ =>
        ReturnsInSysV (handedOver image.toLayout (enterCall input.site memory)) machine ∧
          FrameIntact (enterCall input.site memory) machine.memory
    | .raised raised _ => catchable platform raised.exception = true ∧
        FrameIntact (enterCall input.site memory) raised.machine.memory ∧
        loadWord 64 8 raised.machine.memory image.savedRsp =
          frameBase (enterCall input.site memory)

structure WellBehaved (platform : Platform) (image : Image) extends PassInput where
  behaves : Behaves platform image toPassInput

/-- How the payload ends in a pass that starts in this process. -/
def payloadEnd (image : Image) (input : PassInput) (process : Process) : PayloadEnd :=
  input.payload (handedOver image.toLayout (enterCall input.site process.memory))

def capturesPass (pass : Nat) : Event → Bool
  | .capture other _ => decide (other = pass)
  | _ => false

/-- The events of one pass, in order. -/
def passEvents (number : Nat) (outcome : PayloadEnd) (failing : Bool) : List Event :=
  [.tpEnter true, .arm number, .payload number] ++
    (match outcome with
      | .returned _ _ => []
      | .raised raised _ => [.capture number (recordOf raised)]) ++
    [.disarm, .tpLeave] ++ if failing then [.rebuild] else []

/-- The memory and the thread area as `sdc_rbx_call` leaves them. -/
def leftBehind (input : PassInput) : PayloadEnd → ArenaState
  | .returned machine area => ⟨storeWord 8 machine.memory input.site.faultedAt (0 : Word), area⟩
  | .raised raised area =>
      ⟨storeWord 8 raised.machine.memory input.site.faultedAt (1 : Word), area⟩

/-- A state between passes, after a successful `sdc_rbx_prepare`. -/
structure Ready (platform : Platform) (process : Process) : Prop where
  prepared : process.prepared = true
  disarmed : process.globals.faultRecord = none
  installed : process.globals.handlersInstalled = true
  handled : process.globals.defaultAction = []
  gsBase : platform = .linux → process.globals.gsInstalled = true
  expected : process.expectedHash = hash generated
  once : ∀ pass, process.trace.countP (capturesPass pass) ≤ 1
  upcoming : ∀ pass, process.passes ≤ pass → process.trace.countP (capturesPass pass) = 0

/-- What one pass does. -/
structure PassSpec (image : Image) (input : PassInput) (before : Process) (pass : RbxPass)
    (after : Process) : Prop where
  faulted : pass.faulted = true ↔
    ∃ raised area, payloadEnd image input before = .raised raised area
  fault : ∀ raised area, payloadEnd image input before = .raised raised area →
    pass.fault = recordOf raised
  noFault : pass.faulted = false → pass.fault = {}
  mismatch : pass.mismatch = true ↔ ∃ machine area,
    payloadEnd image input before = .returned machine area ∧
      machine.register .rax ≠ before.expectedHash
  exclusive : ¬(pass.faulted = true ∧ pass.mismatch = true)
  disarmed : after.globals.faultRecord = none
  events : after.trace = before.trace ++
    passEvents before.passes (payloadEnd image input before) (failed pass)
  arena : (⟨after.memory, after.threadArea⟩ : ArenaState) =
    if failed pass = true then (buildArena (leftBehind input (payloadEnd image input before))).1
    else leftBehind input (payloadEnd image input before)
  others : ∀ other, other ≠ before.passes → after.faults other = before.faults other
  passes : after.passes = before.passes + 1
  expected : pass.expected = before.expectedHash ∧ after.expectedHash = before.expectedHash

section Steps

variable {platform : Platform} {image : Image}

theorem enter_call_outside (site : CallSite) (memory : Memory 64) :
    PointsOutside (enterCall site memory) := by
  have base : frameBase (enterCall site memory) = site.register .rsp - 64 := by
    rw [frameBase]
    change site.register .rsp - 8 - 56 = site.register .rsp - 64
    bv_omega
  unfold PointsOutside
  rw [base]
  exact site.outside

/-- Everything but the thread pointer is carried over. -/
structure Carried (before after : Process) (events : List Event) : Prop where
  memory : after.memory = before.memory
  threadArea : after.threadArea = before.threadArea
  prepared : after.prepared = before.prepared
  expectedHash : after.expectedHash = before.expectedHash
  passes : after.passes = before.passes
  faults : after.faults = before.faults
  trace : after.trace = before.trace ++ events
  faultRecord : after.globals.faultRecord = before.globals.faultRecord
  installed : after.globals.handlersInstalled = before.globals.handlersInstalled
  handled : after.globals.defaultAction = before.globals.defaultAction

theorem tp_enter_carried (platform : Platform) (archPrctl : Bool) (value : Word)
    (process : Process) :
    Carried process (sdcPayloadTpEnter platform archPrctl value process).2
      [.tpEnter (sdcPayloadTpEnter platform archPrctl value process).1] := by
  cases platform with
  | linux =>
      rw [sdcPayloadTpEnter]
      split_ifs <;> constructor <;> rfl
  | windows => constructor <;> rfl

/-- The flag is sticky: whoever entered has the gs base set from then on. -/
theorem tp_enter_gs (platform : Platform) (archPrctl : Bool) (value : Word) (process : Process)
    (entered : (sdcPayloadTpEnter platform archPrctl value process).1 = true)
    (linux : platform = .linux) :
    (sdcPayloadTpEnter platform archPrctl value process).2.globals.gsInstalled = true := by
  subst linux
  rw [sdcPayloadTpEnter] at entered ⊢
  split_ifs with unset refused
  · rw [if_pos unset, if_pos refused] at entered
    cases entered
  · rfl
  · exact (Bool.not_eq_false _).mp unset

/-- Once the gs base is set, the thread pointer is entered without a system call
and cannot be refused. -/
theorem tp_enter_accepted (platform : Platform) (archPrctl : Bool) (value : Word)
    (process : Process) (gsBase : platform = .linux → process.globals.gsInstalled = true) :
    (sdcPayloadTpEnter platform archPrctl value process).1 = true := by
  cases platform with
  | linux =>
      have set : process.globals.gsInstalled = true := gsBase rfl
      simp only [sdcPayloadTpEnter, set, Bool.true_eq_false, if_false]
  | windows => rfl

theorem tp_leave_carried (platform : Platform) (process : Process) :
    Carried process (sdcPayloadTpLeave platform process) [.tpLeave] ∧
      (sdcPayloadTpLeave platform process).globals.gsInstalled = process.globals.gsInstalled := by
  cases platform <;> exact ⟨by constructor <;> rfl, rfl⟩

/-- An exception the handlers take, while armed. -/
theorem deliver_armed (process : Process) {raised : Raised} {number : Nat}
    (catches : catchable platform raised.exception = true)
    (installed : process.globals.handlersInstalled = true)
    (handled : process.globals.defaultAction = [])
    (armed : process.globals.faultRecord = some number)
    (resume : process.globals.faultResume = some .faultLanding) :
    deliver platform process raised = some
      ({ process with
        globals := { process.globals with faultRecord := none }
        faults := fun other => if other = number then recordOf raised else process.faults other
        }.log (.capture number (recordOf raised)), .faultLanding) := by
  rw [catchable, Bool.and_eq_true] at catches
  have reaches : reachesHandler platform process.globals raised.exception = true := by
    rw [← catches.1]
    cases raised.exception <;> simp [reachesHandler, installed, handled]
  rw [deliver, if_pos reaches, onFault, armed]
  simp only [catches.2, if_true, resume, Option.map_some]

/-- While disarmed the handlers write to no record and take nothing over. -/
theorem stray_exception (process : Process) (raised : Raised)
    (disarmed : process.globals.faultRecord = none) :
    deliver platform process raised = none ∧ (onFault process raised).2 = none ∧
      (onFault process raised).1.faults = process.faults ∧
      (onFault process raised).1.trace = process.trace := by
  have stands : (onFault process raised).2 = none ∧
      (onFault process raised).1.faults = process.faults ∧
      (onFault process raised).1.trace = process.trace := by
    rw [onFault, disarmed]
    cases raised.exception <;> exact ⟨rfl, rfl, rfl⟩
  refine ⟨?_, stands⟩
  rw [deliver]
  split_ifs
  · simp only [stands.1, Option.map_none]
  · rfl

section Call

variable {input : PassInput} {process : Process} {number : Nat}

theorem call_payload_returned (number : Nat) {machine : Machine} {area : Vector Word 16}
    (behaves : Behaves platform image input)
    (outcome : payloadEnd image input process = .returned machine area) :
    ∃ returned, callPayload platform image input number process =
        some ({ (process.log (.payload number)) with
          threadArea := area
          memory := returned.machine.memory }, returned) ∧
      returned.machine.register .rax = machine.register .rax ∧
      returned.machine.memory = storeWord 8 machine.memory input.site.faultedAt (0 : Word) := by
  have here := behaves process.memory
  rw [payloadEnd] at outcome
  rw [outcome] at here
  obtain ⟨returned, ran, _, rax, memory⟩ := call_after_return image.toLayout
    (fun _ => .returned machine) rfl here.1 here.2 (enter_call_outside input.site process.memory)
  refine ⟨returned, ?_, rax, memory⟩
  rw [callPayload]
  simp only [outcome, leavePayload, Option.bind_eq_bind, Option.bind_some]
  rw [ran callFuel (by decide)]
  rfl

theorem call_payload_raised (number : Nat) {raised : Raised} {area : Vector Word 16}
    (behaves : Behaves platform image input)
    (outcome : payloadEnd image input process = .raised raised area)
    (installed : process.globals.handlersInstalled = true)
    (handled : process.globals.defaultAction = [])
    (armed : process.globals.faultRecord = some number)
    (resume : process.globals.faultResume = some .faultLanding) :
    ∃ returned, callPayload platform image input number process =
        some ({ (process.log (.payload number)).log (.capture number (recordOf raised)) with
          globals := { process.globals with faultRecord := none }
          faults := fun other =>
            if other = number then recordOf raised else process.faults other
          threadArea := area
          memory := returned.machine.memory }, returned) ∧
      returned.machine.register .rax = 0 ∧
      returned.machine.memory =
        storeWord 8 raised.machine.memory input.site.faultedAt (1 : Word) := by
  have here := behaves process.memory
  rw [payloadEnd] at outcome
  rw [outcome] at here
  obtain ⟨catches, frame, saved⟩ := here
  obtain ⟨returned, resumed, _, rax, memory⟩ := landing image.toLayout
    (fun _ => .landed raised.machine) frame saved (enter_call_outside input.site process.memory)
  have ran : execute image.toLayout (fun _ => .landed raised.machine) callFuel sdcRbxCall
      (enterCall input.site process.memory) = some returned :=
    call_after_exception image.toLayout (fun _ => .landed raised.machine) rfl resumed callFuel
      (by decide)
  have delivered := deliver_armed { (process.log (.payload number)) with threadArea := area }
    catches installed handled armed resume
  refine ⟨returned, ?_, rax, memory⟩
  rw [callPayload]
  simp only [outcome, leavePayload, delivered, Option.bind_eq_bind, Option.bind_some]
  rw [ran]
  rfl

end Call

/-- A pass begins: its record is empty. -/
def started (process : Process) : Process :=
  { process with
    passes := process.passes + 1
    faults := fun other => if other = process.passes then {} else process.faults other }

/-- The process at the call of `sdc_rbx_call`. -/
def armed (platform : Platform) (image : Image) (input : PassInput) (process : Process) : Process :=
  sdcFaultCaptureArm (sdcPayloadTpEnter platform input.archPrctl image.threadAreaSlot9
    (started process)).2 process.passes .faultLanding

/-- What `sdc_rbx_run_pass` makes of the return of the call. -/
def judged (input : PassInput) (number : Nat) (expected : Word) (left : Process)
    (returned : Return) : RbxPass × Process :=
  let pass : RbxPass :=
    { expected := expected
      hash := returned.machine.register .rax
      fault := left.faults number }
  if loadWord 64 8 left.memory input.site.faultedAt ≠ 0 then
    ({ pass with faulted := true }, (rebuildArena left).1)
  else if returned.machine.register .rax ≠ expected then
    ({ pass with mismatch := true }, (rebuildArena left).1)
  else (pass, left)

/-- A pass from a ready state always reaches its payload. -/
theorem run_pass_eq (input : PassInput) {process : Process} (ready : Ready platform process)
    {left : Process} {returned : Return}
    (called : callPayload platform image input process.passes
      (armed platform image input process) = some (left, returned)) :
    sdcRbxRunPass platform image input process = some (judged input process.passes
      process.expectedHash (sdcPayloadTpLeave platform (sdcFaultCaptureDisarm left))
      returned) := by
  have entered := tp_enter_accepted platform input.archPrctl image.threadAreaSlot9
    (started process) ready.gsBase
  rw [armed] at called
  rw [sdcRbxRunPass]
  simp only [← started.eq_1 process]
  generalize sdcPayloadTpEnter platform input.archPrctl image.threadAreaSlot9 (started process) =
    enter at *
  obtain ⟨flag, next⟩ := enter
  simp only at entered called
  subst entered
  simp only [Bool.true_eq_false, if_false, called, Option.bind_eq_bind, Option.bind_some, judged]
  split_ifs <;> rfl

/-- The process when control is back in `sdc_rbx_run_pass` and the capture is
disarmed: what has happened since the pass began. -/
structure CalledBack (platform : Platform) (image : Image) (input : PassInput)
    (before left : Process) (returned : Return) : Prop where
  arena : (⟨left.memory, left.threadArea⟩ : ArenaState) =
    leftBehind input (payloadEnd image input before)
  faults : ∀ other, left.faults other =
    if other = before.passes then
      match payloadEnd image input before with
      | .returned _ _ => {}
      | .raised raised _ => recordOf raised
    else before.faults other
  rax : returned.machine.register .rax =
    match payloadEnd image input before with
    | .returned machine _ => machine.register .rax
    | .raised _ _ => 0
  passes : left.passes = before.passes + 1
  expectedHash : left.expectedHash = before.expectedHash
  prepared : left.prepared = before.prepared
  trace : left.trace =
    before.trace ++ passEvents before.passes (payloadEnd image input before) false
  disarmed : left.globals.faultRecord = none
  installed : left.globals.handlersInstalled = before.globals.handlersInstalled
  handled : left.globals.defaultAction = before.globals.defaultAction
  gsBase : platform = .linux → left.globals.gsInstalled = true

/-- What no payload reaches. -/
structure Kept (before after : Process) : Prop where
  passes : after.passes = before.passes
  expectedHash : after.expectedHash = before.expectedHash
  prepared : after.prepared = before.prepared
  installed : after.globals.handlersInstalled = before.globals.handlersInstalled
  handled : after.globals.defaultAction = before.globals.defaultAction
  gsInstalled : after.globals.gsInstalled = before.globals.gsInstalled

/-- A ready process at the call has entered the thread pointer and armed. -/
theorem armed_carried (input : PassInput) {process : Process} (ready : Ready platform process) :
    Carried (started process) (sdcPayloadTpEnter platform input.archPrctl image.threadAreaSlot9
        (started process)).2 [.tpEnter true] ∧
      (platform = .linux → (armed platform image input process).globals.gsInstalled = true) := by
  have accepted := tp_enter_accepted platform input.archPrctl image.threadAreaSlot9
    (started process) ready.gsBase
  have carried := tp_enter_carried platform input.archPrctl image.threadAreaSlot9
    (started process)
  rw [accepted] at carried
  exact ⟨carried, tp_enter_gs platform input.archPrctl image.threadAreaSlot9 (started process)
    accepted⟩

/-- The steps around the call, however the payload ended. -/
theorem called_back_of (input : PassInput) {process left : Process} {returned : Return}
    (ready : Ready platform process) (kept : Kept (armed platform image input process) left)
    (arena : (⟨left.memory, left.threadArea⟩ : ArenaState) =
      leftBehind input (payloadEnd image input process))
    (faults : ∀ other, left.faults other =
      if other = process.passes then
        match payloadEnd image input process with
        | .returned _ _ => {}
        | .raised raised _ => recordOf raised
      else process.faults other)
    (rax : returned.machine.register .rax =
      match payloadEnd image input process with
      | .returned machine _ => machine.register .rax
      | .raised _ _ => 0)
    (trace : left.trace ++ [.disarm, .tpLeave] =
      process.trace ++ passEvents process.passes (payloadEnd image input process) false) :
    CalledBack platform image input process
      (sdcPayloadTpLeave platform (sdcFaultCaptureDisarm left)) returned := by
  obtain ⟨carried, gsBase⟩ := @armed_carried platform image input process ready
  obtain ⟨leaving, leavingGs⟩ := tp_leave_carried platform (sdcFaultCaptureDisarm left)
  constructor
  · rw [leaving.memory, leaving.threadArea]
    exact arena
  · intro other
    rw [leaving.faults]
    exact faults other
  · exact rax
  · exact leaving.passes.trans (kept.passes.trans carried.passes)
  · exact leaving.expectedHash.trans (kept.expectedHash.trans carried.expectedHash)
  · exact leaving.prepared.trans (kept.prepared.trans carried.prepared)
  · rw [leaving.trace, ← trace, sdcFaultCaptureDisarm, Process.log, List.append_assoc]
    rfl
  · exact leaving.faultRecord
  · exact leaving.installed.trans (kept.installed.trans carried.installed)
  · exact leaving.handled.trans (kept.handled.trans carried.handled)
  · exact fun linux => leavingGs.trans (kept.gsInstalled.trans (gsBase linux))

/-- The call, for either end of the payload. -/
theorem call_back (input : WellBehaved platform image) {process : Process}
    (ready : Ready platform process) :
    ∃ left returned, callPayload platform image input.toPassInput process.passes
        (armed platform image input.toPassInput process) = some (left, returned) ∧
      CalledBack platform image input.toPassInput process
        (sdcPayloadTpLeave platform (sdcFaultCaptureDisarm left)) returned := by
  have carried := (@armed_carried platform image input.toPassInput process ready).1
  have same : payloadEnd image input.toPassInput
      (armed platform image input.toPassInput process) =
        payloadEnd image input.toPassInput process := by
    rw [payloadEnd, payloadEnd]
    exact congrArg _ (congrArg _ (congrArg _ carried.memory))
  have entered : (sdcPayloadTpEnter platform input.archPrctl image.threadAreaSlot9
      (started process)).2.trace = process.trace ++ [.tpEnter true] := carried.trace
  cases outcome : payloadEnd image input.toPassInput process with
  | returned machine area =>
      obtain ⟨returned, called, rax, memory⟩ := call_payload_returned process.passes
        input.behaves (same.trans outcome)
      refine ⟨_, returned, called, ?_⟩
      apply called_back_of input.toPassInput ready
      · constructor <;> rfl
      · rw [outcome]
        exact congrArg (fun memory => (⟨memory, area⟩ : ArenaState)) memory
      · intro other
        rw [outcome]
        exact congrFun carried.faults other
      · rw [outcome]
        exact rax
      · simp [outcome, armed, sdcFaultCaptureArm, Process.log, entered, passEvents]
  | raised raised area =>
      obtain ⟨returned, called, rax, memory⟩ := call_payload_raised process.passes
        input.behaves (same.trans outcome)
        (carried.installed.trans ready.installed) (carried.handled.trans ready.handled) rfl rfl
      refine ⟨_, returned, called, ?_⟩
      apply called_back_of input.toPassInput ready
      · constructor <;> rfl
      · rw [outcome]
        exact congrArg (fun memory => (⟨memory, area⟩ : ArenaState)) memory
      · intro other
        rw [outcome]
        change (if other = process.passes then recordOf raised else _) = _
        split_ifs with own
        · rfl
        · exact (congrFun carried.faults other).trans (if_neg own)
      · rw [outcome]
        exact rax
      · simp [outcome, armed, sdcFaultCaptureArm, Process.log, entered, passEvents]

/-- What a rebuild does to the process, and what it leaves alone. -/
structure Rebuilt (before after : Process) : Prop where
  arena : (⟨after.memory, after.threadArea⟩ : ArenaState) =
    (buildArena ⟨before.memory, before.threadArea⟩).1
  trace : after.trace = before.trace ++ [.rebuild]
  globals : after.globals = before.globals
  prepared : after.prepared = before.prepared
  expectedHash : after.expectedHash = before.expectedHash
  passes : after.passes = before.passes
  faults : after.faults = before.faults

theorem rebuild_spec (process : Process) : Rebuilt process (rebuildArena process).1 := by
  constructor <;> simp only [rebuildArena, Process.log]

section Judged

variable {input : PassInput} {before left : Process} {returned : Return}

/-- The word the caller looks at afterwards. -/
theorem faulted_word (back : CalledBack platform image input before left returned) :
    loadWord 64 8 left.memory input.site.faultedAt =
      match payloadEnd image input before with
      | .returned _ _ => (0 : Word)
      | .raised _ _ => 1 := by
  have memory : left.memory = (leftBehind input (payloadEnd image input before)).memory :=
    congrArg ArenaState.memory back.arena
  rw [memory]
  cases payloadEnd image input before with
  | returned machine area => exact load_word_store_same _ _ _ _ (by decide) (by decide)
  | raised raised area => exact load_word_store_same _ _ _ _ (by decide) (by decide)

theorem own_fault (back : CalledBack platform image input before left returned) :
    left.faults before.passes =
      match payloadEnd image input before with
      | .returned _ _ => {}
      | .raised raised _ => recordOf raised :=
  (back.faults before.passes).trans (if_pos rfl)

theorem pass_events_rebuild (number : Nat) (outcome : PayloadEnd) :
    passEvents number outcome true = passEvents number outcome false ++ [.rebuild] := by
  simp [passEvents]

/-- The end of a failing pass. -/
theorem failing_spec (back : CalledBack platform image input before left returned)
    {after : Process} (rebuilt : Rebuilt left after) {pass : RbxPass}
    (failing : failed pass = true) (expected : pass.expected = before.expectedHash)
    (faulted : pass.faulted = true ↔
      ∃ raised area, payloadEnd image input before = .raised raised area)
    (mismatch : pass.mismatch = true ↔ ∃ machine area,
      payloadEnd image input before = .returned machine area ∧
        machine.register .rax ≠ before.expectedHash)
    (fault : pass.fault = left.faults before.passes) :
    PassSpec image input before pass after := by
  have own := fault.trans (own_fault back)
  constructor
  · exact faulted
  · intro raised area outcome
    rw [own, outcome]
  · intro clean
    rw [own]
    cases outcome : payloadEnd image input before with
    | returned machine area => rfl
    | raised raised area =>
        rw [faulted.mpr ⟨raised, area, outcome⟩] at clean
        cases clean
  · exact mismatch
  · intro both
    obtain ⟨raised, area, outcome⟩ := faulted.mp both.1
    obtain ⟨machine, area', outcome', _⟩ := mismatch.mp both.2
    rw [outcome] at outcome'
    cases outcome'
  · rw [rebuilt.globals, back.disarmed]
  · rw [rebuilt.trace, back.trace, List.append_assoc, failing, pass_events_rebuild]
  · rw [if_pos failing, rebuilt.arena, back.arena]
  · intro other different
    rw [rebuilt.faults, back.faults, if_neg different]
  · rw [rebuilt.passes, back.passes]
  · rw [rebuilt.expectedHash]
    exact ⟨expected, back.expectedHash⟩

theorem judged_spec (back : CalledBack platform image input before left returned) :
    PassSpec image input before (judged input before.passes before.expectedHash left returned).1
      (judged input before.passes before.expectedHash left returned).2 := by
  have word := faulted_word back
  have rax := back.rax
  have rebuilt := rebuild_spec left
  rw [judged]
  generalize (rebuildArena left).1 = after at rebuilt ⊢
  cases outcome : payloadEnd image input before with
  | returned machine area =>
      rw [outcome] at word rax
      rw [if_neg (not_not.mpr word), rax]
      split_ifs with mismatch
      · apply failing_spec back rebuilt
        · rfl
        · rfl
        · simp [outcome]
        · simp [outcome, mismatch]
        · rfl
      · constructor
        · simp [outcome]
        · simp [outcome]
        · intro _
          rw [own_fault back, outcome]
        · simp [outcome, mismatch]
        · simp
        · exact back.disarmed
        · exact back.trace
        · exact back.arena
        · intro other different
          rw [back.faults, if_neg different]
        · exact back.passes
        · exact ⟨rfl, back.expectedHash⟩
  | raised raised area =>
      rw [outcome] at word
      have faulted : loadWord 64 8 left.memory input.site.faultedAt ≠ 0 := by
        rw [word]
        exact (by decide : (1 : Word) ≠ 0)
      rw [if_pos faulted]
      apply failing_spec back rebuilt
      · rfl
      · rfl
      · simp [outcome]
      · simp [outcome]
      · rfl

end Judged

theorem judged_globals (input : PassInput) (number : Nat) (expected : Word) (left : Process)
    (returned : Return) :
    (judged input number expected left returned).2.globals = left.globals ∧
      (judged input number expected left returned).2.prepared = left.prepared := by
  have rebuilt := rebuild_spec left
  rw [judged]
  split_ifs
  · exact ⟨rebuilt.globals, rebuilt.prepared⟩
  · exact ⟨rebuilt.globals, rebuilt.prepared⟩
  · exact ⟨rfl, rfl⟩

/-- A pass fills its own record at most once, and no other. -/
theorem pass_events_once (number : Nat) (outcome : PayloadEnd) (failing : Bool) (pass : Nat) :
    (passEvents number outcome failing).countP (capturesPass pass) ≤ 1 := by
  cases outcome <;> cases failing <;> simp [passEvents, capturesPass, List.countP_cons] <;>
    split_ifs <;> omega

theorem pass_events_other (number : Nat) (outcome : PayloadEnd) (failing : Bool) (pass : Nat)
    (other : pass ≠ number) :
    (passEvents number outcome failing).countP (capturesPass pass) = 0 := by
  cases outcome <;> cases failing <;> simp [passEvents, capturesPass, Ne.symm other]

/-- A pass from a ready state. -/
theorem run_pass_spec (input : WellBehaved platform image) {process : Process}
    (ready : Ready platform process) :
    ∃ pass after, sdcRbxRunPass platform image input.toPassInput process = some (pass, after) ∧
      PassSpec image input.toPassInput process pass after ∧ Ready platform after := by
  obtain ⟨left, returned, called, back⟩ := call_back input ready
  have ran := run_pass_eq input.toPassInput ready called
  generalize sdcPayloadTpLeave platform (sdcFaultCaptureDisarm left) = left at ran back
  have spec := judged_spec back
  have kept := judged_globals input.toPassInput process.passes process.expectedHash left returned
  generalize judged input.toPassInput process.passes process.expectedHash left returned = result
    at ran spec kept
  refine ⟨result.1, result.2, ran, spec, ?_⟩
  constructor
  · rw [kept.2, back.prepared, ready.prepared]
  · exact spec.disarmed
  · rw [kept.1, back.installed, ready.installed]
  · rw [kept.1, back.handled, ready.handled]
  · intro linux
    rw [kept.1, back.gsBase linux]
  · rw [spec.expected.2, ready.expected]
  · intro other
    rw [spec.events, List.countP_append]
    by_cases own : other = process.passes
    · rw [ready.upcoming other (Nat.le_of_eq own.symm), Nat.zero_add]
      exact pass_events_once _ _ _ _
    · rw [pass_events_other _ _ _ _ own, Nat.add_zero]
      exact ready.once other
  · intro other later
    rw [spec.passes] at later
    rw [spec.events, List.countP_append, ready.upcoming other (by omega),
      pass_events_other _ _ _ _ (by omega)]

end Steps

/-! ### Preparing -/

/-- Before the first pass: nothing is armed, nothing was captured, and a process
that counts as prepared is ready. -/
structure Preparing (platform : Platform) (process : Process) : Prop where
  disarmed : process.globals.faultRecord = none
  handled : process.globals.defaultAction = []
  uncaptured : ∀ pass, process.trace.countP (capturesPass pass) = 0
  ready : process.prepared = true → Ready platform process

theorem uncaptured_append {trace : List Event} {event : Event}
    (uncaptured : ∀ pass, trace.countP (capturesPass pass) = 0)
    (other : ∀ pass, capturesPass pass event = false) (pass : Nat) :
    (trace ++ [event]).countP (capturesPass pass) = 0 := by
  rw [List.countP_append, uncaptured pass, List.countP_singleton, other pass]
  rfl

/-- Every attempt to prepare, successful or not. It reports success exactly when
the process is prepared afterwards. -/
theorem prepare_spec (platform : Platform) (image : Image) (answers : Answers) {process : Process}
    (preparing : Preparing platform process) :
    Preparing platform (sdcRbxPrepare platform image answers process).2 ∧
      ((sdcRbxPrepare platform image answers process).1 = .ok () →
        (sdcRbxPrepare platform image answers process).2.prepared = true) := by
  let installed : Process :=
    { process with globals := { process.globals with handlersInstalled := true } }
  have entering := tp_enter_carried platform answers.archPrctl image.threadAreaSlot9 installed
  have gsBase := tp_enter_gs platform answers.archPrctl image.threadAreaSlot9 installed
  rw [sdcRbxPrepare]
  split_ifs with prepared supported mapArena mapShadow install
  · exact ⟨preparing, fun _ => prepared⟩
  · exact ⟨preparing, fun impossible => by cases impossible⟩
  · exact ⟨preparing, fun impossible => by cases impossible⟩
  · exact ⟨preparing, fun impossible => by cases impossible⟩
  · exact ⟨preparing, fun impossible => by cases impossible⟩
  · simp only
    generalize sdcPayloadTpEnter platform answers.archPrctl image.threadAreaSlot9 installed =
      enter at *
    obtain ⟨flag, entered⟩ := enter
    simp only at entering gsBase ⊢
    have uncaptured : ∀ pass, entered.trace.countP (capturesPass pass) = 0 := by
      rw [entering.trace]
      exact uncaptured_append preparing.uncaptured (fun _ => rfl)
    split_ifs with refused
    · refine ⟨⟨?_, ?_, uncaptured, ?_⟩, fun impossible => by cases impossible⟩
      · rw [entering.faultRecord]
        exact preparing.disarmed
      · rw [entering.handled]
        exact preparing.handled
      · intro nowPrepared
        rw [entering.prepared] at nowPrepared
        exact absurd nowPrepared prepared
    · obtain ⟨leaving, leavingGs⟩ := tp_leave_carried platform entered
      generalize sdcPayloadTpLeave platform entered = left at leaving leavingGs ⊢
      have rebuilt := rebuild_spec left
      have expected : (rebuildArena left).2 = hash generated := by
        rw [hash_generated]
        exact (arena_built ⟨left.memory, left.threadArea⟩).hash
      generalize rebuildArena left = rebuild at rebuilt expected ⊢
      obtain ⟨final, value⟩ := rebuild
      simp only at rebuilt expected ⊢
      have finalUncaptured : ∀ pass, final.trace.countP (capturesPass pass) = 0 := by
        rw [rebuilt.trace, leaving.trace]
        exact uncaptured_append (uncaptured_append uncaptured fun _ => rfl) fun _ => rfl
      have disarmed : final.globals.faultRecord = none := by
        rw [rebuilt.globals, leaving.faultRecord, entering.faultRecord]
        exact preparing.disarmed
      have handled : final.globals.defaultAction = [] := by
        rw [rebuilt.globals, leaving.handled, entering.handled]
        exact preparing.handled
      refine ⟨⟨disarmed, handled, finalUncaptured, fun _ => ?_⟩, fun _ => trivial⟩
      constructor
      · rfl
      · exact disarmed
      · rw [rebuilt.globals, leaving.installed, entering.installed]
      · exact handled
      · intro linux
        rw [rebuilt.globals, leavingGs]
        exact gsBase ((Bool.not_eq_false _).mp refused) linux
      · exact expected
      · intro pass
        rw [finalUncaptured pass]
        exact Nat.zero_le 1
      · intro pass _
        exact finalUncaptured pass

/-- Any number of attempts, one after the other. -/
def prepareAttempts (platform : Platform) (image : Image) (attempts : List Answers)
    (process : Process) : Process :=
  attempts.foldl (fun process answers => (sdcRbxPrepare platform image answers process).2) process

theorem attempts_spec (platform : Platform) (image : Image) (attempts : List Answers)
    {process : Process} (preparing : Preparing platform process) :
    Preparing platform (prepareAttempts platform image attempts process) := by
  induction attempts generalizing process with
  | nil => exact preparing
  | cons answers rest ih => exact ih (prepare_spec platform image answers preparing).1

/-- The process as it is loaded, over any memory. -/
def fresh (memory : Memory 64) : Process := { memory := memory }

theorem fresh_preparing (platform : Platform) (memory : Memory 64) :
    Preparing platform (fresh memory) where
  disarmed := rfl
  handled := rfl
  uncaptured _ := rfl
  ready impossible := by cases impossible

/-! ### Runs of passes -/

structure Performed where
  before : Process
  input : PassInput
  pass : RbxPass
  after : Process

/-- Calls of `sdc_rbx_run_pass`, one after the other; `none` if the process dies
in one of them. -/
def runPasses (platform : Platform) (image : Image) :
    List PassInput → Process → Option (List Performed × Process)
  | [], process => some ([], process)
  | input :: rest, process => do
      let (pass, after) ← sdcRbxRunPass platform image input process
      let (performed, final) ← runPasses platform image rest after
      some (⟨process, input, pass, after⟩ :: performed, final)

theorem run_passes_spec {platform : Platform} {image : Image}
    (inputs : List (WellBehaved platform image)) {process : Process}
    (ready : Ready platform process) :
    ∃ performed final,
      runPasses platform image (inputs.map WellBehaved.toPassInput) process =
          some (performed, final) ∧
        performed.map Performed.input = inputs.map WellBehaved.toPassInput ∧
        (∀ p ∈ performed, Ready platform p.before ∧ PassSpec image p.input p.before p.pass p.after ∧
          Ready platform p.after) ∧
        Ready platform final := by
  induction inputs generalizing process with
  | nil => exact ⟨[], process, rfl, rfl, by simp, ready⟩
  | cons input rest ih =>
      obtain ⟨pass, after, ran, spec, readyAfter⟩ := run_pass_spec input ready
      obtain ⟨performed, final, ranRest, same, specs, readyFinal⟩ := ih readyAfter
      refine ⟨⟨process, input.toPassInput, pass, after⟩ :: performed, final, ?_, ?_, ?_, readyFinal⟩
      · rw [List.map_cons, runPasses, ran]
        simp only [Option.bind_eq_bind, Option.bind_some, ranRest]
      · rw [List.map_cons, List.map_cons, same]
      · intro p member
        rcases List.mem_cons.mp member with here | later
        · subst here
          exact ⟨ready, spec, readyAfter⟩
        · exact specs p later

theorem fault_capture_protocol (platform : Platform) (image : Image) (memory : Memory 64)
    (attempts : List Answers) (answers : Answers)
    (succeeded : (sdcRbxPrepare platform image answers
      (prepareAttempts platform image attempts (fresh memory))).1 = .ok ())
    (inputs : List (WellBehaved platform image)) :
    ∃ performed final,
      runPasses platform image (inputs.map WellBehaved.toPassInput)
          (sdcRbxPrepare platform image answers
            (prepareAttempts platform image attempts (fresh memory))).2 =
        some (performed, final) ∧
      performed.map Performed.input = inputs.map WellBehaved.toPassInput ∧
      (∀ p ∈ performed, PassSpec image p.input p.before p.pass p.after ∧
        p.before.expectedHash = hash generated ∧
        (failed p.pass = true → .payload p.before.passes ∈ p.after.trace)) ∧
      (∀ pass, final.trace.countP (capturesPass pass) ≤ 1) ∧
      ∀ (process : Process) raised, process.globals.faultRecord = none →
        deliver platform process raised = none ∧
          (onFault process raised).1.faults = process.faults ∧
          (onFault process raised).1.trace = process.trace := by
  have preparing := attempts_spec platform image attempts (fresh_preparing platform memory)
  obtain ⟨prepared, success⟩ := prepare_spec platform image answers preparing
  obtain ⟨performed, final, ran, same, specs, ready⟩ :=
    run_passes_spec inputs (prepared.ready (success succeeded))
  refine ⟨performed, final, ran, same, ?_, ready.once, ?_⟩
  · intro p member
    obtain ⟨readyBefore, spec, _⟩ := specs p member
    refine ⟨spec, readyBefore.expected, fun _ => ?_⟩
    rw [spec.events]
    simp [passEvents]
  · intro process raised disarmed
    obtain ⟨died, _, faults, trace⟩ := stray_exception process raised disarmed
    exact ⟨died, faults, trace⟩

/-- One pass whose payload follows a wild pointer, right after the first attempt
to prepare. -/
theorem fault_capture_protocol_wild_pointer :
    ∃ performed final, (∃ p ∈ performed, p.pass.faulted = true ∧
        p.pass.fault.what = "access violation" ∧ p.pass.fault.rbx = 0x5a) ∧
      ∃ inputs process, runPasses .linux ⟨⟨0x8000, 0x4000⟩, 0xa048⟩ inputs process =
        some (performed, final) := by
  let site : CallSite := ⟨fun _ => 0x7010, 0x4000, 0x9000, by decide⟩
  let image : Image := ⟨⟨0x8000, 0x4000⟩, 0xa048⟩
  let input : PassInput := ⟨site, true, fun entered =>
    .raised ⟨.signal .segv 0, 0x401000, { entered with register := fun _ => 0x5a }⟩
      (Vector.replicate 16 0)⟩
  have behaves : Behaves .linux image input := by
    intro memory
    have base : frameBase (enterCall site memory) = 0x6fd0 := by
      change (0x7010 : Word) - 8 - 56 = 0x6fd0
      decide
    obtain ⟨frame, saved⟩ := handed_over_frame image.toLayout (enterCall site memory)
      (by rw [base]; decide) (by rw [base]; decide)
    exact ⟨rfl, frame, saved⟩
  obtain ⟨performed, final, ran, same, specs, _⟩ := fault_capture_protocol .linux image
    (fun _ => 0) [] ⟨true, true, true, true, true⟩ (by simp [sdcRbxPrepare, sdcPayloadTpEnter,
      prepareAttempts, fresh]) [⟨input, behaves⟩]
  obtain ⟨p, only⟩ : ∃ p, performed = [p] := List.length_eq_one_iff.mp (by
    simpa using congrArg List.length same)
  subst only
  obtain ⟨spec, _⟩ := specs p (List.mem_singleton_self p)
  have own : p.input = input := by simpa using same
  have outcome : ∃ raised area, payloadEnd image p.input p.before = .raised raised area ∧
      (recordOf raised).what = "access violation" ∧ (recordOf raised).rbx = 0x5a := by
    rw [own]
    exact ⟨_, _, rfl, rfl, rfl⟩
  obtain ⟨raised, area, ended, what, rbx⟩ := outcome
  refine ⟨[p], final, ⟨p, List.mem_singleton_self p, ?_, ?_, ?_⟩, _, _, ran⟩
  · exact spec.faulted.mpr ⟨raised, area, ended⟩
  · rw [spec.fault raised area ended, what]
  · rw [spec.fault raised area ended, rbx]

end SdcProbe.CaptureProtocol
