import SdcProbe.Arena
import SdcProbe.PayloadCall
import SdcProbe.Report

/-!
# Passes of the rbx probe and the capture of their exceptions

The services `platform.cpp` offers the probe (fault capture, the thread pointer)
on both operating systems, and `sdc_rbx_prepare` and `sdc_rbx_run_pass` over them.
A fault record belongs to the pass it is a local of, so a pointer to one is the
number of that pass. The payload is arbitrary; what it can reach is the machine
and the thread area, not the variables of the tool. A process that dies of an
exception has no next state.
-/

namespace SdcProbe.FaultCapture

open Fnv1a ByteMemory Arena PayloadCall Report

set_option autoImplicit false

inductive Platform where
  | linux | windows
  deriving DecidableEq

inductive Signal where
  | segv | bus | ill | fpe | trap
  | other (number : Nat)
  deriving DecidableEq

/-- A hardware exception as the operating system describes it: a signal with
`si_addr`, or an exception code with its parameters. -/
inductive Exception where
  | signal (number : Signal) (address : Word)
  | code (status : BitVec 32) (information : List Word)
  deriving DecidableEq

def exceptionAccessViolation : BitVec 32 := 0xC0000005
def exceptionIllegalInstruction : BitVec 32 := 0xC000001D
def exceptionPrivInstruction : BitVec 32 := 0xC0000096
def exceptionStackOverflow : BitVec 32 := 0xC00000FD
def exceptionIntDivideByZero : BitVec 32 := 0xC0000094
def exceptionDatatypeMisalignment : BitVec 32 := 0x80000002
def exceptionInPageError : BitVec 32 := 0xC0000006
def exceptionBreakpoint : BitVec 32 := 0x80000003

def signalName : Signal → String
  | .segv => "access violation"
  | .bus => "bus error"
  | .ill => "illegal instruction"
  | .fpe => "arithmetic exception"
  | .trap => "breakpoint"
  | .other _ => "hardware exception"

def exceptionName (status : BitVec 32) : String :=
  if status = exceptionAccessViolation then "access violation"
  else if status = exceptionIllegalInstruction then "illegal instruction"
  else if status = exceptionPrivInstruction then "privileged instruction"
  else if status = exceptionStackOverflow then "stack overflow"
  else if status = exceptionIntDivideByZero then "integer divide by zero"
  else if status = exceptionDatatypeMisalignment then "misaligned access"
  else if status = exceptionInPageError then "in-page error"
  else if status = exceptionBreakpoint then "breakpoint"
  else "hardware exception"

/-- The thread at the moment of an exception. -/
structure Raised where
  exception : Exception
  rip : Word
  machine : Machine

def Exception.what : Exception → String
  | .signal number _ => signalName number
  | .code status _ => exceptionName status

/-- The faulting data address, where the system reports one. -/
def Exception.dataAddress : Exception → Word
  | .signal number address => if number = .segv ∨ number = .bus then address else 0
  | .code status information =>
      if status = exceptionAccessViolation ∨ status = exceptionInPageError then
        if 2 ≤ information.length then information[1]?.getD 0 else 0
      else 0

/-- What the handlers store through `record`. -/
def recordOf (raised : Raised) : FaultRecord where
  what := raised.exception.what
  address := raised.exception.dataAddress
  rip := raised.rip
  rsp := raised.machine.register .rsp
  rbp := raised.machine.register .rbp
  rbx := raised.machine.register .rbx
  rax := raised.machine.register .rax
  rcx := raised.machine.register .rcx
  rdx := raised.machine.register .rdx
  rsi := raised.machine.register .rsi
  rdi := raised.machine.register .rdi

inductive Event where
  | tpEnter (entered : Bool)
  | arm (pass : Nat)
  /-- The payload was entered, in this pass. -/
  | payload (pass : Nat)
  /-- A handler filled the record of this pass and redirected the thread. -/
  | capture (pass : Nat) (record : FaultRecord)
  | disarm
  | tpLeave
  | rebuild
  deriving DecidableEq

/-- The variables of `platform.cpp`, and what the system keeps for them. -/
structure Globals where
  /-- `g_fault_record` -/
  faultRecord : Option Nat := none
  /-- `g_fault_resume` -/
  faultResume : Option Label := none
  handlersInstalled : Bool := false
  /-- The signals a handler has put back to `SIG_DFL`. -/
  defaultAction : List Signal := []
  /-- `g_gs_block[5]`, or the slot of the TEB at the same offset. -/
  threadPointer : Word := 0
  gsInstalled : Bool := false
  savedUserPointer : Word := 0

structure Process where
  globals : Globals := {}
  memory : Memory 64
  threadArea : Vector Word 16 := Vector.replicate 16 0
  /-- `g_prepared` -/
  prepared : Bool := false
  /-- `g_expected_hash` -/
  expectedHash : Word := 0
  /-- How many times `sdc_rbx_run_pass` was called. -/
  passes : Nat := 0
  /-- The member `fault` of each pass. -/
  faults : Nat → FaultRecord := fun _ => {}
  trace : List Event := []

def Process.log (process : Process) (event : Event) : Process :=
  { process with trace := process.trace ++ [event] }

def sdcFaultCaptureArm (process : Process) (pass : Nat) (resumeAt : Label) : Process :=
  { process with globals := { process.globals with
      faultResume := some resumeAt
      faultRecord := some pass } }.log (.arm pass)

def sdcFaultCaptureDisarm (process : Process) : Process :=
  { process with globals := { process.globals with faultRecord := none } }.log .disarm

/-- Whether the system hands an exception to the installed handler. -/
def reachesHandler (platform : Platform) (globals : Globals) : Exception → Bool
  | .signal number _ => platform = .linux && globals.handlersInstalled &&
      decide (number ∈ [.segv, .bus, .ill, .fpe, .trap]) &&
      !decide (number ∈ globals.defaultAction)
  | .code _ _ => platform = .windows && globals.handlersInstalled

/-- Only error codes, and breakpoints. -/
def isError : Exception → Bool
  | .signal _ _ => true
  | .code status _ =>
      decide (status &&& 0xC0000000 = 0xC0000000 ∨ status = exceptionBreakpoint)

/-- `on_fault` and `on_exception`. The second component is where the thread goes
on, `none` when the handler stands aside. -/
def onFault (process : Process) (raised : Raised) : Process × Option Label :=
  match process.globals.faultRecord with
  | none =>
      match raised.exception with
      | .signal number _ => ({ process with globals := { process.globals with
          defaultAction := number :: process.globals.defaultAction } }, none)
      | .code _ _ => (process, none)
  | some pass =>
      if isError raised.exception then
        ({ process with
          globals := { process.globals with faultRecord := none }
          faults := fun other => if other = pass then recordOf raised else process.faults other
          }.log (.capture pass (recordOf raised)), process.globals.faultResume)
      else (process, none)

/-- An exception on this thread. Without a handler that takes it the process
dies. -/
def deliver (platform : Platform) (process : Process) (raised : Raised) :
    Option (Process × Label) :=
  if reachesHandler platform process.globals raised.exception then
    let (process, resume) := onFault process raised
    resume.map fun label => (process, label)
  else none

/-- The system call that sets the gs base, where it is made, ends with
`archPrctl`. -/
def sdcPayloadTpEnter (platform : Platform) (archPrctl : Bool) (value : Word)
    (process : Process) : Bool × Process :=
  match platform with
  | .linux =>
      let globals := { process.globals with threadPointer := value }
      if globals.gsInstalled = false then
        if archPrctl = false then
          (false, { process with globals := globals }.log (.tpEnter false))
        else (true,
          { process with globals := { globals with gsInstalled := true } }.log (.tpEnter true))
      else (true, { process with globals := globals }.log (.tpEnter true))
  | .windows => (true, { process with globals := { process.globals with
      savedUserPointer := process.globals.threadPointer
      threadPointer := value } }.log (.tpEnter true))

def sdcPayloadTpLeave (platform : Platform) (process : Process) : Process :=
  match platform with
  | .linux => process.log .tpLeave
  | .windows => { process with globals := { process.globals with
      threadPointer := process.globals.savedUserPointer } }.log .tpLeave

/-- `build_arena`, and the hash it returns. -/
def rebuildArena (process : Process) : Process × Word :=
  let (arena, hash) := buildArena ⟨process.memory, process.threadArea⟩
  ({ process with memory := arena.memory, threadArea := arena.threadArea }.log .rebuild, hash)

/-- What the system answers during one attempt to prepare. -/
structure Answers where
  supported : Bool
  mapArena : Bool
  mapShadow : Bool
  install : Bool
  archPrctl : Bool

inductive PrepareError where
  /-- `this CPU or operating system does not provide AVX2, which the probe's code
  uses` -/
  | notSupported
  /-- `cannot map %llu MiB at address 0x%llx` -/
  | cannotMapArena (mebibytes address : Nat)
  /-- `cannot map %llu KiB at address 0x%llx` -/
  | cannotMapShadow (kibibytes address : Nat)
  /-- `cannot install the hardware exception handler` -/
  | cannotInstallHandler
  /-- `cannot set the thread pointer the probe's code reads` -/
  | cannotSetThreadPointer
  deriving DecidableEq

/-- The parts of the program's own image the passes refer to. -/
structure Image extends Layout where
  /-- `&g_thread_area[9]` -/
  threadAreaSlot9 : Word

def sdcRbxPrepare (platform : Platform) (image : Image) (answers : Answers)
    (process : Process) : Except PrepareError Unit × Process :=
  if process.prepared then (.ok (), process)
  else if answers.supported = false then (.error .notSupported, process)
  else if answers.mapArena = false then
    (.error (.cannotMapArena (kArenaBytes >>> 20) kArenaBase), process)
  else if answers.mapShadow = false then
    (.error (.cannotMapShadow (kShadowMapBytes >>> 10) kShadowMapBase), process)
  else if answers.install = false then (.error .cannotInstallHandler, process)
  else
    let process := { process with globals := { process.globals with handlersInstalled := true } }
    let (entered, process) :=
      sdcPayloadTpEnter platform answers.archPrctl image.threadAreaSlot9 process
    if entered = false then (.error .cannotSetThreadPointer, process)
    else
      let (process, hash) := rebuildArena (sdcPayloadTpLeave platform process)
      (.ok (), { process with expectedHash := hash, prepared := true })

/-- The caller's side of one call of `sdc_rbx_call`. The local `faulted` lies
outside the stack below the caller's frame. -/
structure CallSite where
  register : Register → Word
  returnAddress : Word
  /-- `&faulted` -/
  faultedAt : Word
  outside : 64 ≤ offset (register .rsp - 64) faultedAt

/-- The machine at the first instruction of `sdc_rbx_call(k_vector_address,
&faulted)`, with `faulted` zero. -/
def enterCall (site : CallSite) (memory : Memory 64) : Machine :=
  Machine.push
    { register := fun name =>
        if name = .rdi then pointer kVectorAddress
        else if name = .rsi then site.faultedAt else site.register name
      directionFlag := false
      memory := storeWord 8 memory site.faultedAt (0 : Word) }
    site.returnAddress

/-- How the payload itself ends. -/
inductive PayloadEnd where
  | returned (machine : Machine) (threadArea : Vector Word 16)
  | raised (raised : Raised) (threadArea : Vector Word 16)

/-- The payload's end as `sdc_rbx_call` sees it. -/
def leavePayload (platform : Platform) (process : Process) :
    PayloadEnd → Option (Process × PayloadExit)
  | .returned machine threadArea =>
      some ({ process with threadArea := threadArea }, .returned machine)
  | .raised raised threadArea => do
      let (process, label) ← deliver platform { process with threadArea := threadArea } raised
      match label with
      | .faultLanding => some (process, .landed raised.machine)
      | .callReturn => none

/-- What the surroundings contribute to one pass. -/
structure PassInput where
  site : CallSite
  archPrctl : Bool
  payload : Machine → PayloadEnd

/-- No way through `sdc_rbx_call` is longer than this. -/
def callFuel : Nat := 22

/-- `sdc_rbx_call(...)`: its return, and the process as the payload has left it. -/
def callPayload (platform : Platform) (image : Image) (input : PassInput) (number : Nat)
    (process : Process) : Option (Process × Return) := do
  let entry := enterCall input.site process.memory
  let (process, exit) ← leavePayload platform (process.log (.payload number))
    (input.payload (handedOver image.toLayout entry))
  let returned ← execute image.toLayout (fun _ => exit) callFuel sdcRbxCall entry
  some ({ process with memory := returned.machine.memory }, returned)

def sdcRbxRunPass (platform : Platform) (image : Image) (input : PassInput) (process : Process) :
    Option (RbxPass × Process) := do
  let number := process.passes
  let process := { process with
    passes := number + 1
    faults := fun other => if other = number then {} else process.faults other }
  let pass : RbxPass := { expected := process.expectedHash }
  let (entered, process) :=
    sdcPayloadTpEnter platform input.archPrctl image.threadAreaSlot9 process
  if entered = false then some ({ pass with mismatch := true }, process)
  else
    let (process, returned) ←
      callPayload platform image input number
        (sdcFaultCaptureArm process number .faultLanding)
    let process := sdcPayloadTpLeave platform (sdcFaultCaptureDisarm process)
    let faulted := loadWord 64 8 process.memory input.site.faultedAt
    let pass := { pass with
      hash := returned.machine.register .rax
      fault := process.faults number }
    if faulted ≠ 0 then some ({ pass with faulted := true }, (rebuildArena process).1)
    else if pass.hash ≠ pass.expected then
      some ({ pass with mismatch := true }, (rebuildArena process).1)
    else some (pass, process)

end SdcProbe.FaultCapture
