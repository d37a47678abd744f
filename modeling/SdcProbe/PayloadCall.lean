import SdcProbe.ByteMemory
import SdcProbe.FuelLoop
import SdcProbe.Fnv1a

/-!
# The call into the payload

`sdc_rbx_call` and `sdc_rbx_fault_landing` as instruction sequences on a machine
with sixteen registers, the direction flag and byte-addressed memory. A label is
the code from there on. The payload behind the inner call is arbitrary: it comes
back through a `ret`, or it raises an exception and control resumes at the
landing with whatever the registers and the memory hold by then.
-/

namespace SdcProbe.PayloadCall

open Fnv1a ByteMemory

set_option autoImplicit false

inductive Register where
  | rax | rbx | rcx | rdx | rsi | rdi | rbp | rsp
  | r8 | r9 | r10 | r11 | r12 | r13 | r14 | r15
  deriving DecidableEq

structure Machine where
  register : Register → Word
  directionFlag : Bool
  memory : Memory 64

/-- Where the linker put things. -/
structure Layout where
  /-- `sdc_rbx_saved_rsp` -/
  savedRsp : Word
  /-- The instruction after `call sdc_rbx_fn_4`. -/
  afterCall : Word

inductive Label where
  | callReturn | faultLanding
  deriving DecidableEq

inductive Instruction where
  | push (source : Register)
  | pop (target : Register)
  /-- `mov %reg,sdc_rbx_saved_rsp(%rip)` -/
  | save (source : Register)
  /-- `mov sdc_rbx_saved_rsp(%rip),%reg` -/
  | restore (target : Register)
  /-- `call sdc_rbx_fn_4` -/
  | callPayload
  /-- `movq $value,(%reg)` -/
  | storeImmediate (value : Word) (pointer : Register)
  | cld
  /-- `xor` of the low half of a register with itself. -/
  | clear (target : Register)
  | jmp (target : Label)
  | ret
  deriving DecidableEq

/-- `.Lcall_return`, and `sdc_rbx_fault_landing` behind it. -/
def code : Label → List Instruction
  | .callReturn => [.pop .r15, .pop .r14, .pop .r13, .pop .r12, .pop .rbx, .pop .rbp, .ret]
  | .faultLanding => [.restore .rsp, .cld, .pop .rsi, .storeImmediate 1 .rsi, .clear .rax,
      .jmp .callReturn]

def sdcRbxCall : List Instruction :=
  [.push .rbp, .push .rbx, .push .r12, .push .r13, .push .r14, .push .r15, .push .rsi,
    .save .rsp, .callPayload, .pop .rsi, .storeImmediate 0 .rsi] ++ code .callReturn

namespace Machine

def set (machine : Machine) (target : Register) (value : Word) : Machine :=
  { machine with
    register := fun name => if name = target then value else machine.register name }

def top (machine : Machine) : Word := loadWord 64 8 machine.memory (machine.register .rsp)

def push (machine : Machine) (value : Word) : Machine :=
  { machine.set .rsp (machine.register .rsp - 8) with
    memory := storeWord 8 machine.memory (machine.register .rsp - 8) value }

def pop (machine : Machine) (target : Register) : Machine :=
  (machine.set .rsp (machine.register .rsp + 8)).set target machine.top

def store (machine : Machine) (address value : Word) : Machine :=
  { machine with memory := storeWord 8 machine.memory address value }

end Machine

/-- How the payload leaves: with a `ret`, or with an exception after which the
handler has resumed the machine at the landing. -/
inductive PayloadExit where
  | returned (machine : Machine)
  | landed (machine : Machine)

/-- What the payload makes of the machine it is entered with. -/
abbrev Payload := Machine → PayloadExit

structure Control where
  rest : List Instruction
  machine : Machine

/-- The caller of `sdc_rbx_call` is resumed at `address`. -/
structure Return where
  machine : Machine
  address : Word

/-- One instruction. Running off the end of the code is the result `none`. -/
def step (layout : Layout) (payload : Payload) :
    Control → FuelLoop.Trip Control (Option Return)
  | ⟨[], _⟩ => .leave none
  | ⟨.push source :: rest, machine⟩ => .again ⟨rest, machine.push (machine.register source)⟩
  | ⟨.pop target :: rest, machine⟩ => .again ⟨rest, machine.pop target⟩
  | ⟨.save source :: rest, machine⟩ =>
      .again ⟨rest, machine.store layout.savedRsp (machine.register source)⟩
  | ⟨.restore target :: rest, machine⟩ =>
      .again ⟨rest, machine.set target (loadWord 64 8 machine.memory layout.savedRsp)⟩
  | ⟨.callPayload :: rest, machine⟩ =>
      match payload (machine.push layout.afterCall) with
      | .returned after => .again ⟨rest, after⟩
      | .landed after => .again ⟨code .faultLanding, after⟩
  | ⟨.storeImmediate value pointer :: rest, machine⟩ =>
      .again ⟨rest, machine.store (machine.register pointer) value⟩
  | ⟨.cld :: rest, machine⟩ => .again ⟨rest, { machine with directionFlag := false }⟩
  | ⟨.clear target :: rest, machine⟩ => .again ⟨rest, machine.set target 0⟩
  | ⟨.jmp target :: _, machine⟩ => .again ⟨code target, machine⟩
  | ⟨.ret :: _, machine⟩ =>
      .leave (some ⟨machine.set .rsp (machine.register .rsp + 8), machine.top⟩)

/-- Execution from some point on. -/
def execute (layout : Layout) (payload : Payload) (fuel : Nat) (rest : List Instruction)
    (machine : Machine) : Option Return :=
  (FuelLoop.run (step layout payload) fuel ⟨rest, machine⟩).join

/-! ### Pushes and pops -/

namespace Machine

section Updates

variable (machine : Machine) (target name : Register) (address value : Word)

@[simp] theorem set_register : (machine.set target value).register name =
    if name = target then value else machine.register name := rfl

@[simp] theorem set_memory : (machine.set target value).memory = machine.memory := rfl

@[simp] theorem set_direction_flag :
    (machine.set target value).directionFlag = machine.directionFlag := rfl

@[simp] theorem store_register :
    (machine.store address value).register = machine.register := rfl

@[simp] theorem store_memory :
    (machine.store address value).memory = storeWord 8 machine.memory address value := rfl

@[simp] theorem store_direction_flag :
    (machine.store address value).directionFlag = machine.directionFlag := rfl

@[simp] theorem push_register : (machine.push value).register name =
    if name = .rsp then machine.register .rsp - 8 else machine.register name := rfl

@[simp] theorem push_memory : (machine.push value).memory =
    storeWord 8 machine.memory (machine.register .rsp - 8) value := rfl

@[simp] theorem pop_register : (machine.pop target).register name =
    if name = target then machine.top
    else if name = .rsp then machine.register .rsp + 8 else machine.register name := rfl

@[simp] theorem pop_memory : (machine.pop target).memory = machine.memory := rfl

@[simp] theorem pop_direction_flag :
    (machine.pop target).directionFlag = machine.directionFlag := rfl

end Updates

def pushAll (machine : Machine) (sources : List Register) : Machine :=
  sources.foldl (fun machine source => machine.push (machine.register source)) machine

def popAll (machine : Machine) (targets : List Register) : Machine :=
  targets.foldl pop machine

/-- The word `k` slots above the stack pointer. -/
def slot (machine : Machine) (k : Nat) : Word :=
  loadWord 64 8 machine.memory (machine.register .rsp + BitVec.ofNat 64 (8 * k))

theorem slot_zero (machine : Machine) : machine.slot 0 = machine.top := by
  rw [slot, Nat.mul_zero, BitVec.add_zero, top]

theorem slot_pop (machine : Machine) (target : Register) (notRsp : .rsp ≠ target) (k : Nat) :
    (machine.pop target).slot k = machine.slot (k + 1) := by
  rw [slot, slot, pop_memory, pop_register, if_neg notRsp, if_pos rfl, Nat.mul_add, Nat.add_comm,
    BitVec.ofNat_add, BitVec.add_assoc]
  rfl

theorem pop_all_memory (machine : Machine) (targets : List Register) :
    (machine.popAll targets).memory = machine.memory := by
  induction targets generalizing machine with
  | nil => rfl
  | cons target rest ih => exact ih (machine.pop target)

theorem pop_all_direction_flag (machine : Machine) (targets : List Register) :
    (machine.popAll targets).directionFlag = machine.directionFlag := by
  induction targets generalizing machine with
  | nil => rfl
  | cons target rest ih => exact ih (machine.pop target)

theorem pop_all_other (machine : Machine) (targets : List Register) (name : Register)
    (notRsp : name ≠ .rsp) (other : name ∉ targets) :
    (machine.popAll targets).register name = machine.register name := by
  induction targets generalizing machine with
  | nil => rfl
  | cons target rest ih =>
      rw [List.mem_cons, not_or] at other
      rw [popAll, List.foldl_cons, ← popAll, ih (machine.pop target) other.2, pop_register,
        if_neg other.1, if_neg notRsp]

theorem pop_all_rsp (machine : Machine) (targets : List Register) (noRsp : .rsp ∉ targets) :
    (machine.popAll targets).register .rsp =
      machine.register .rsp + BitVec.ofNat 64 (8 * targets.length) := by
  induction targets generalizing machine with
  | nil => rw [List.length_nil, Nat.mul_zero, BitVec.add_zero, popAll, List.foldl_nil]
  | cons target rest ih =>
      rw [List.mem_cons, not_or] at noRsp
      rw [popAll, List.foldl_cons, ← popAll, ih (machine.pop target) noRsp.2, pop_register,
        if_neg noRsp.1, if_pos rfl, List.length_cons, Nat.mul_add, Nat.add_comm (8 * _),
        BitVec.ofNat_add, BitVec.add_assoc]
      rfl

/-- Different registers popped one after the other take the slots in order. -/
theorem pop_all_target (machine : Machine) (targets : List Register) (noRsp : .rsp ∉ targets)
    (distinct : targets.Nodup) (k : Nat) (inside : k < targets.length) :
    (machine.popAll targets).register targets[k] = machine.slot k := by
  induction targets generalizing machine k with
  | nil => cases inside
  | cons target rest ih =>
      rw [List.mem_cons, not_or] at noRsp
      rw [List.nodup_cons] at distinct
      rw [popAll, List.foldl_cons, ← popAll]
      cases k with
      | zero =>
          have notRsp : target ≠ .rsp := fun same => noRsp.1 same.symm
          rw [List.getElem_cons_zero, pop_all_other _ _ _ notRsp distinct.1, pop_register,
            if_pos rfl, slot_zero]
      | succ k =>
          rw [List.getElem_cons_succ, ih _ noRsp.2 distinct.2 k, slot_pop _ _ noRsp.1]

/-- Pushes leave the words at and above the stack pointer alone. -/
theorem push_all_above (machine : Machine) (sources : List Register) (distance : Nat)
    (room : distance + 8 * sources.length + 8 ≤ 2 ^ 64) :
    loadWord 64 8 (machine.pushAll sources).memory
        (machine.register .rsp + BitVec.ofNat 64 distance) =
      loadWord 64 8 machine.memory (machine.register .rsp + BitVec.ofNat 64 distance) := by
  induction sources generalizing machine distance with
  | nil => rfl
  | cons source rest ih =>
      rw [List.length_cons] at room
      have above : machine.register .rsp + BitVec.ofNat 64 distance =
          machine.register .rsp - 8 + BitVec.ofNat 64 (distance + 8) := by
        rw [BitVec.ofNat_add]
        bv_omega
      have later := ih (machine.push (machine.register source)) (distance + 8) (by omega)
      rw [push_register, if_pos rfl, push_memory] at later
      rw [pushAll, List.foldl_cons, ← pushAll, above, later]
      apply load_word_store_apart
      · rw [offset_base_add _ _ (by omega)]
        omega
      · rw [offset_base_add _ _ (by omega)]
        omega

theorem push_all_rsp (machine : Machine) (sources : List Register) :
    (machine.pushAll sources).register .rsp =
      machine.register .rsp - BitVec.ofNat 64 (8 * sources.length) := by
  induction sources generalizing machine with
  | nil => rw [List.length_nil, Nat.mul_zero, BitVec.sub_zero, pushAll, List.foldl_nil]
  | cons source rest ih =>
      rw [pushAll, List.foldl_cons, ← pushAll, ih, push_register, if_pos rfl, List.length_cons,
        Nat.mul_add, BitVec.ofNat_add]
      bv_omega

theorem push_all_slot (machine : Machine) (sources : List Register) (noRsp : .rsp ∉ sources)
    (room : 8 * sources.length + 8 ≤ 2 ^ 64) (k : Nat) (inside : k < sources.length) :
    loadWord 64 8 (machine.pushAll sources).memory
        (machine.register .rsp - BitVec.ofNat 64 (8 * (k + 1))) =
      machine.register sources[k] := by
  induction sources generalizing machine k with
  | nil => cases inside
  | cons source rest ih =>
      rw [List.mem_cons, not_or] at noRsp
      rw [List.length_cons] at room inside
      rw [pushAll, List.foldl_cons, ← pushAll]
      cases k with
      | zero =>
          have here := push_all_above (machine.push (machine.register source)) rest 0 (by omega)
          rw [push_register, if_pos rfl, BitVec.add_zero, push_memory,
            load_word_store_same _ _ _ _ (by decide) (by decide)] at here
          exact here
      | succ k =>
          have later := ih (machine.push (machine.register source)) noRsp.2 (by omega) k (by omega)
          have kept : rest[k] ≠ .rsp := fun same => noRsp.2 (same ▸ List.getElem_mem _)
          rw [push_register, if_pos rfl, push_register, if_neg kept] at later
          rw [List.getElem_cons_succ, ← later, Nat.mul_add 8 (k + 1), BitVec.ofNat_add]
          congr 1
          bv_omega

end Machine

/-! ### The frame of `sdc_rbx_call` -/

/-- In the order of the pops behind `.Lcall_return`. -/
def calleeSaved : List Register := [.r15, .r14, .r13, .r12, .rbx, .rbp]

/-- In the order of the slots above the saved stack pointer. -/
def frameRegisters : List Register := .rsi :: calleeSaved

/-- The stack pointer `sdc_rbx_call` saves. -/
def frameBase (entry : Machine) : Word := entry.register .rsp - 56

/-- `uint64_t* faulted` -/
def faultedPointer (entry : Machine) : Word := entry.register .rsi

/-- The 64 bytes above the saved stack pointer: the seven pushed words and the
return address of `sdc_rbx_call`. -/
structure FrameIntact (entry : Machine) (memory : Memory 64) : Prop where
  saved : ∀ k (inside : k < frameRegisters.length),
    loadWord 64 8 memory (frameBase entry + BitVec.ofNat 64 (8 * k)) =
      entry.register frameRegisters[k]
  returnAddress : loadWord 64 8 memory (entry.register .rsp) = entry.top

/-- `faulted` does not point into the frame. -/
def PointsOutside (entry : Machine) : Prop := 64 ≤ offset (frameBase entry) (faultedPointer entry)

/-- The caller has control again: everything the convention preserves has its
value at the call, and the return address is gone from the stack. -/
structure BackInCaller (entry : Machine) (returned : Return) : Prop where
  address : returned.address = entry.top
  stack : returned.machine.register .rsp = entry.register .rsp + 8
  preserved : ∀ name ∈ calleeSaved, returned.machine.register name = entry.register name
  direction : returned.machine.directionFlag = false

theorem execute_after {layout : Layout} {payload : Payload} {rest rest' : List Instruction}
    {machine machine' : Machine} (trips fuel : Nat)
    (went : FuelLoop.after (step layout payload) trips ⟨rest, machine⟩ = some ⟨rest', machine'⟩) :
    execute layout payload (trips + fuel) rest machine =
      execute layout payload fuel rest' machine' := by
  rw [execute, execute, FuelLoop.run_after _ _ _ _ _ went]

/-- What holds at `.Lcall_return`. -/
structure AtReturn (entry machine : Machine) : Prop where
  stack : machine.register .rsp = frameBase entry + 8
  saved : ∀ k (inside : k < calleeSaved.length), machine.slot k = entry.register calleeSaved[k]
  returnAddress : machine.slot calleeSaved.length = entry.top
  direction : machine.directionFlag = false

section Exits

variable (layout : Layout) (payload : Payload) {entry machine : Machine}

/-- Both ways out end in these seven instructions. -/
theorem epilogue (atReturn : AtReturn entry machine) :
    ∃ returned, (∀ fuel, 7 ≤ fuel →
        execute layout payload fuel (code .callReturn) machine = some returned) ∧
      BackInCaller entry returned ∧
      returned.machine.register .rax = machine.register .rax ∧
      returned.machine.memory = machine.memory := by
  have stack := Machine.pop_all_rsp machine calleeSaved (by decide)
  have memory := Machine.pop_all_memory machine calleeSaved
  refine ⟨⟨(machine.popAll calleeSaved).set .rsp
      ((machine.popAll calleeSaved).register .rsp + 8), (machine.popAll calleeSaved).top⟩,
    ?_, ⟨?_, ?_, ?_, ?_⟩, ?_, ?_⟩
  · intro fuel enough
    obtain ⟨extra, rfl⟩ : ∃ extra, fuel = 6 + (extra + 1) := ⟨fuel - 7, by omega⟩
    have popped : FuelLoop.after (step layout payload) 6 ⟨code .callReturn, machine⟩ =
        some ⟨[.ret], machine.popAll calleeSaved⟩ := rfl
    rw [execute_after 6 (extra + 1) popped]
    rfl
  · rw [Machine.top, memory, stack]
    exact atReturn.returnAddress
  · rw [Machine.set_register, if_pos rfl, stack, atReturn.stack, frameBase]
    simp only [calleeSaved, List.length_cons, List.length_nil]
    bv_omega
  · intro name member
    obtain ⟨k, inside, rfl⟩ := List.mem_iff_getElem.mp member
    have notRsp : calleeSaved[k] ≠ .rsp := fun same =>
      absurd (same ▸ List.getElem_mem inside) (by decide)
    rw [Machine.set_register, if_neg notRsp,
      Machine.pop_all_target machine calleeSaved (by decide) (by decide) k inside]
    exact atReturn.saved k inside
  · rw [Machine.set_direction_flag, Machine.pop_all_direction_flag]
    exact atReturn.direction
  · rw [Machine.set_register, if_neg (by decide),
      Machine.pop_all_other machine calleeSaved .rax (by decide) (by decide)]
  · rw [Machine.set_memory, memory]

/-- A store through `faulted` changes none of the slots that are still to be
popped. -/
theorem faulted_slot_apart (outside : PointsOutside entry) (memory : Memory 64) (value : Word)
    (k : Nat) (first : 1 ≤ k) (last : k ≤ 7) :
    loadWord 64 8 (storeWord 8 memory (faultedPointer entry) value)
        (frameBase entry + BitVec.ofNat 64 (8 * k)) =
      loadWord 64 8 memory (frameBase entry + BitVec.ofNat 64 (8 * k)) := by
  have around := offset_flip (frameBase entry) (faultedPointer entry)
    (by have := outside; unfold PointsOutside at this; omega)
  have bound := offset_lt (frameBase entry) (faultedPointer entry)
  unfold PointsOutside at outside
  have slot : offset (faultedPointer entry) (frameBase entry + BitVec.ofNat 64 (8 * k)) =
      2 ^ 64 - offset (frameBase entry) (faultedPointer entry) + 8 * k := by
    rw [offset_add _ _ _ (by omega), around]
  apply load_word_store_apart
  · omega
  · omega

/-- From the saved stack pointer on: pop `faulted`, write through it, and arrive
at the epilogue with the frame as it was. -/
theorem frame_reaches_return (frame : FrameIntact entry machine.memory)
    (stack : machine.register .rsp = frameBase entry) (direction : machine.directionFlag = false)
    (outside : PointsOutside entry) (value : Word) :
    (machine.pop .rsi).register .rsi = faultedPointer entry ∧
      AtReturn entry ((machine.pop .rsi).store (faultedPointer entry) value) := by
  have first := frame.saved 0 (by decide)
  rw [Nat.mul_zero, BitVec.add_zero, ← stack] at first
  have slots : ∀ k, k < 7 →
      ((machine.pop .rsi).store (faultedPointer entry) value).slot k =
        loadWord 64 8 machine.memory (frameBase entry + BitVec.ofNat 64 (8 * (k + 1))) := by
    intro k inside
    have above : frameBase entry + 8 + BitVec.ofNat 64 (8 * k) =
        frameBase entry + BitVec.ofNat 64 (8 * (k + 1)) := by
      rw [Nat.mul_add, BitVec.ofNat_add]
      bv_omega
    rw [Machine.slot, Machine.store_register, Machine.store_memory, Machine.pop_memory,
      Machine.pop_register, if_neg (by decide), if_pos rfl, stack, above]
    exact faulted_slot_apart outside machine.memory value (k + 1) (by omega) (by omega)
  refine ⟨first, ?_, ?_, ?_, direction⟩
  · rw [Machine.store_register, Machine.pop_register, if_neg (by decide), if_pos rfl, stack]
  · intro k inside
    have seven : calleeSaved.length = 6 := rfl
    rw [slots k (by omega)]
    exact frame.saved (k + 1) (Nat.succ_lt_succ inside)
  · have top : frameBase entry + BitVec.ofNat 64 (8 * (calleeSaved.length + 1)) =
        entry.register .rsp := by
      rw [frameBase]
      simp only [calleeSaved, List.length_cons, List.length_nil]
      bv_omega
    rw [slots calleeSaved.length (by decide), top]
    exact frame.returnAddress

/-- Resuming at `sdc_rbx_fault_landing`, whatever the machine looks like. -/
theorem landing (frame : FrameIntact entry machine.memory)
    (saved : loadWord 64 8 machine.memory layout.savedRsp = frameBase entry)
    (outside : PointsOutside entry) :
    ∃ returned, (∀ fuel, 13 ≤ fuel →
        execute layout payload fuel (code .faultLanding) machine = some returned) ∧
      BackInCaller entry returned ∧ returned.machine.register .rax = 0 ∧
      returned.machine.memory = storeWord 8 machine.memory (faultedPointer entry) (1 : Word) := by
  let rewound : Machine := { machine.set .rsp (frameBase entry) with directionFlag := false }
  have stack : rewound.register .rsp = frameBase entry := rfl
  have frameHere : FrameIntact entry rewound.memory := frame
  obtain ⟨pointer, atReturn⟩ := frame_reaches_return frameHere stack rfl outside 1
  have cleared : AtReturn entry
      (((rewound.pop .rsi).store (faultedPointer entry) 1).set .rax 0) :=
    ⟨atReturn.stack, atReturn.saved, atReturn.returnAddress, atReturn.direction⟩
  obtain ⟨returned, ran, back, rax, memory⟩ := epilogue layout payload cleared
  refine ⟨returned, ?_, back, rax, memory⟩
  intro fuel enough
  obtain ⟨extra, rfl⟩ : ∃ extra, fuel = 6 + (extra + 7) := ⟨fuel - 13, by omega⟩
  have went : FuelLoop.after (step layout payload) 6 ⟨code .faultLanding, machine⟩ =
      some ⟨code .callReturn, ((rewound.pop .rsi).store (faultedPointer entry) 1).set .rax 0⟩ := by
    have restored : rewound = { machine.set .rsp
        (loadWord 64 8 machine.memory layout.savedRsp) with directionFlag := false } := by
      rw [saved]
    rw [← pointer, restored]
    rfl
  rw [execute_after 6 (extra + 7) went]
  exact ran (extra + 7) (by omega)

end Exits

/-! ### The whole call -/

/-- The machine when control reaches the inner call. -/
def atInnerCall (layout : Layout) (entry : Machine) : Machine :=
  (entry.pushAll frameRegisters.reverse).store layout.savedRsp (frameBase entry)

/-- The machine the payload is entered with. -/
def handedOver (layout : Layout) (entry : Machine) : Machine :=
  (atInnerCall layout entry).push layout.afterCall

/-- What the calling convention promises of a function that returns. -/
structure ReturnsInSysV (before after : Machine) : Prop where
  stack : after.register .rsp = before.register .rsp + 8
  preserved : ∀ name ∈ calleeSaved, after.register name = before.register name
  direction : after.directionFlag = false

theorem at_inner_call_rsp (layout : Layout) (entry : Machine) :
    (atInnerCall layout entry).register .rsp = frameBase entry := by
  rw [atInnerCall, Machine.store_register, Machine.push_all_rsp, frameBase]
  rfl

theorem reaches_inner_call (layout : Layout) (payload : Payload) (entry : Machine) :
    FuelLoop.after (step layout payload) 8 ⟨sdcRbxCall, entry⟩ =
      some ⟨.callPayload :: .pop .rsi :: .storeImmediate 0 .rsi :: code .callReturn,
        atInnerCall layout entry⟩ := by
  have stack := Machine.push_all_rsp entry frameRegisters.reverse
  have saved : (entry.pushAll frameRegisters.reverse).register .rsp = frameBase entry := stack
  rw [atInnerCall, ← saved]
  rfl

theorem inner_call_aligned (layout : Layout) (entry : Machine)
    (aligned : (entry.register .rsp).toNat % 16 = 8) :
    ((atInnerCall layout entry).register .rsp).toNat % 16 = 0 := by
  rw [at_inner_call_rsp, frameBase]
  bv_omega

/-- When the payload starts, the frame holds what it is expected to hold later,
provided the variable with the saved stack pointer lies elsewhere. -/
theorem handed_over_frame (layout : Layout) (entry : Machine)
    (above : 64 ≤ offset (frameBase entry) layout.savedRsp)
    (below : offset (frameBase entry) layout.savedRsp + 16 ≤ 2 ^ 64) :
    FrameIntact entry (handedOver layout entry).memory ∧
      loadWord 64 8 (handedOver layout entry).memory layout.savedRsp = frameBase entry := by
  have around := offset_flip (frameBase entry) layout.savedRsp (by omega)
  -- A word of the frame, or anything above it, is not touched by the last two stores.
  have kept : ∀ distance, distance ≤ 56 →
      loadWord 64 8 (handedOver layout entry).memory
          (frameBase entry + BitVec.ofNat 64 distance) =
        loadWord 64 8 (entry.pushAll frameRegisters.reverse).memory
          (frameBase entry + BitVec.ofNat 64 distance) := by
    intro distance inside
    have lower : frameBase entry + BitVec.ofNat 64 distance =
        frameBase entry - 8 + BitVec.ofNat 64 (distance + 8) := by
      rw [BitVec.ofNat_add]
      bv_omega
    have fromCell : offset layout.savedRsp (frameBase entry + BitVec.ofNat 64 distance) =
        2 ^ 64 - offset (frameBase entry) layout.savedRsp + distance := by
      rw [offset_add _ _ _ (by omega), around]
    rw [handedOver, Machine.push_memory, at_inner_call_rsp, load_word_store_apart, atInnerCall,
      Machine.store_memory, load_word_store_apart]
    · omega
    · omega
    · rw [lower, offset_base_add _ _ (by omega)]
      omega
    · rw [lower, offset_base_add _ _ (by omega)]
      omega
  refine ⟨⟨?_, ?_⟩, ?_⟩
  · intro k inside
    have seven : frameRegisters.length = 7 := rfl
    have place : frameBase entry + BitVec.ofNat 64 (8 * k) =
        entry.register .rsp - BitVec.ofNat 64 (8 * (6 - k + 1)) := by
      rw [frameBase, show 8 * (6 - k + 1) = 56 - 8 * k by omega]
      bv_omega
    have pushed := Machine.push_all_slot entry frameRegisters.reverse (by decide) (by decide)
      (6 - k) (by rw [List.length_reverse]; omega)
    rw [kept (8 * k) (by omega), place, pushed, List.getElem_reverse]
    congr 1
    simp only [seven, show 7 - 1 - (6 - k) = k by omega]
  · have above := Machine.push_all_above entry frameRegisters.reverse 0 (by decide)
    have top : frameBase entry + BitVec.ofNat 64 56 = entry.register .rsp := by
      rw [frameBase]
      bv_omega
    rw [BitVec.add_zero] at above
    rw [← top, kept 56 (by decide), top, above]
    rfl
  · have cell : layout.savedRsp = frameBase entry - 8 +
        BitVec.ofNat 64 (offset (frameBase entry) layout.savedRsp + 8) := by
      rw [BitVec.ofNat_add]
      nth_rewrite 1 [← base_add_offset (frameBase entry) layout.savedRsp]
      bv_omega
    rw [handedOver, Machine.push_memory, at_inner_call_rsp, load_word_store_apart, atInnerCall,
      Machine.store_memory, load_word_store_same _ _ _ _ (by decide) (by decide)]
    · rw [cell, offset_base_add _ _ (by omega)]
      omega
    · rw [cell, offset_base_add _ _ (by omega)]
      omega

section Call

variable (layout : Layout) (payload : Payload) {entry machine : Machine}

theorem call_after_exception (raised : payload (handedOver layout entry) = .landed machine)
    {returned : Return}
    (resumed : ∀ fuel, 13 ≤ fuel →
      execute layout payload fuel (code .faultLanding) machine = some returned)
    (fuel : Nat) (enough : 22 ≤ fuel) :
    execute layout payload fuel sdcRbxCall entry = some returned := by
  obtain ⟨extra, rfl⟩ : ∃ extra, fuel = 8 + (1 + (extra + 13)) := ⟨fuel - 22, by omega⟩
  have entered : FuelLoop.after (step layout payload) 1
      ⟨.callPayload :: .pop .rsi :: .storeImmediate 0 .rsi :: code .callReturn,
        atInnerCall layout entry⟩ = some ⟨code .faultLanding, machine⟩ := by
    rw [FuelLoop.after, step, ← handedOver, raised]
    rfl
  rw [execute_after 8 _ (reaches_inner_call layout payload entry), execute_after 1 _ entered]
  exact resumed (extra + 13) (by omega)

theorem call_after_return (came : payload (handedOver layout entry) = .returned machine)
    (convention : ReturnsInSysV (handedOver layout entry) machine)
    (frame : FrameIntact entry machine.memory) (outside : PointsOutside entry) :
    ∃ returned, (∀ fuel, 18 ≤ fuel →
        execute layout payload fuel sdcRbxCall entry = some returned) ∧
      BackInCaller entry returned ∧
      returned.machine.register .rax = machine.register .rax ∧
      returned.machine.memory = storeWord 8 machine.memory (faultedPointer entry) (0 : Word) := by
  have stack : machine.register .rsp = frameBase entry := by
    rw [convention.stack, handedOver, Machine.push_register, if_pos rfl, at_inner_call_rsp,
      BitVec.sub_add_cancel]
  obtain ⟨pointer, atReturn⟩ := frame_reaches_return frame stack convention.direction outside 0
  obtain ⟨returned, ran, back, rax, memory⟩ := epilogue layout payload atReturn
  refine ⟨returned, ?_, back, rax, memory⟩
  intro fuel enough
  obtain ⟨extra, rfl⟩ : ∃ extra, fuel = 8 + (1 + (2 + (extra + 7))) := ⟨fuel - 18, by omega⟩
  have entered : FuelLoop.after (step layout payload) 1
      ⟨.callPayload :: .pop .rsi :: .storeImmediate 0 .rsi :: code .callReturn,
        atInnerCall layout entry⟩ =
      some ⟨.pop .rsi :: .storeImmediate 0 .rsi :: code .callReturn, machine⟩ := by
    rw [FuelLoop.after, step, ← handedOver, came]
    rfl
  have stored : FuelLoop.after (step layout payload) 2
      ⟨.pop .rsi :: .storeImmediate 0 .rsi :: code .callReturn, machine⟩ =
      some ⟨code .callReturn, (machine.pop .rsi).store (faultedPointer entry) 0⟩ := by
    rw [← pointer]
    rfl
  rw [execute_after 8 _ (reaches_inner_call layout payload entry), execute_after 1 _ entered,
    execute_after 2 _ stored]
  exact ran (extra + 7) (by omega)

end Call

theorem fault_landing_is_a_return (layout : Layout) (payload : Payload) (entry : Machine)
    (outside : PointsOutside entry) :
    (∀ machine, FrameIntact entry machine.memory →
      loadWord 64 8 machine.memory layout.savedRsp = frameBase entry →
      ∃ returned, (∀ fuel, 13 ≤ fuel →
          execute layout payload fuel (code .faultLanding) machine = some returned) ∧
        BackInCaller entry returned ∧ returned.machine.register .rax = 0 ∧
        loadWord 64 8 returned.machine.memory (faultedPointer entry) = 1 ∧
        (payload (handedOver layout entry) = .landed machine → ∀ fuel, 22 ≤ fuel →
          execute layout payload fuel sdcRbxCall entry = some returned)) ∧
    (∀ machine, payload (handedOver layout entry) = .returned machine →
      ReturnsInSysV (handedOver layout entry) machine → FrameIntact entry machine.memory →
      ∃ returned, (∀ fuel, 18 ≤ fuel →
          execute layout payload fuel sdcRbxCall entry = some returned) ∧
        BackInCaller entry returned ∧
        returned.machine.register .rax = machine.register .rax ∧
        loadWord 64 8 returned.machine.memory (faultedPointer entry) = 0) ∧
    ∃ rest, FuelLoop.after (step layout payload) 8 ⟨sdcRbxCall, entry⟩ =
        some ⟨.callPayload :: rest, atInnerCall layout entry⟩ ∧
      ((entry.register .rsp).toNat % 16 = 8 →
        ((atInnerCall layout entry).register .rsp).toNat % 16 = 0) := by
  refine ⟨?_, ?_, ?_⟩
  · intro machine frame saved
    obtain ⟨returned, resumed, back, rax, memory⟩ := landing layout payload frame saved outside
    refine ⟨returned, resumed, back, rax, ?_, ?_⟩
    · rw [memory, load_word_store_same _ _ _ _ (by decide) (by decide)]
    · intro raised
      exact call_after_exception layout payload raised resumed
  · intro machine came convention frame
    obtain ⟨returned, ran, back, rax, memory⟩ :=
      call_after_return layout payload came convention frame outside
    refine ⟨returned, ran, back, rax, ?_⟩
    rw [memory, load_word_store_same _ _ _ _ (by decide) (by decide)]
  · exact ⟨_, reaches_inner_call layout payload entry, inner_call_aligned layout entry⟩

/-- A payload that leaves every register at `0x5a` and raises an exception. -/
theorem fault_landing_is_a_return_from_garbage :
    let layout : Layout := ⟨0x8000, 0x4000⟩
    let entry : Machine := ⟨fun name => if name = .rsp then 0x7008 else 0x9000, true, fun _ => 0⟩
    ∃ returned, execute layout (fun entered => .landed { entered with register := fun _ => 0x5a })
        22 sdcRbxCall entry = some returned ∧
      BackInCaller entry returned ∧ returned.machine.register .rax = 0 ∧
      loadWord 64 8 returned.machine.memory 0x9000 = 1 := by
  intro layout entry
  have outside : PointsOutside entry := by unfold PointsOutside; decide
  obtain ⟨frame, saved⟩ := handed_over_frame layout entry (by decide) (by decide)
  obtain ⟨returned, _, back, rax, faulted, ran⟩ := (fault_landing_is_a_return layout
    (fun entered => .landed { entered with register := fun _ => 0x5a }) entry outside).1
    { handedOver layout entry with register := fun _ => 0x5a } frame saved
  exact ⟨returned, ran rfl 22 (by decide), back, rax, faulted⟩

end SdcProbe.PayloadCall
