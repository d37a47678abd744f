import SdcProbe.MemsetRun

/-!
# The injecting memset of the self-test

`sdc_rbx_memset_inject` as an instruction sequence up to its jump to
`sdc_rbx_memset`. Between two calls anything may happen to the registers and the
memory except to `sdc_rbx_inject_countdown`, which nothing else writes during a
pass.
-/

namespace SdcProbe.MemsetInject

open Fnv1a ByteMemory
open PayloadCall hiding step execute Instruction Layout
open InstructionBytes hiding step execute Instruction

set_option autoImplicit false

/-- Where the linker put things. -/
structure Layout where
  /-- `sdc_rbx_emit_i16` -/
  emitI16 : Word
  /-- `sdc_rbx_emit_i16_end` -/
  emitI16End : Word
  /-- `sdc_rbx_inject_countdown` -/
  countdown : Word

inductive Symbol where
  | emitI16 | emitI16End
  deriving DecidableEq

def Layout.address (layout : Layout) : Symbol → Word
  | .emitI16 => layout.emitI16
  | .emitI16End => layout.emitI16End

/-- The jumps go to the label `1`. -/
inductive Instruction where
  /-- `mov displacement(%rsp),%reg` -/
  | load (displacement : Word) (target : Register)
  /-- `lea symbol(%rip),%reg` -/
  | lea (symbol : Symbol) (target : Register)
  /-- `cmp %right,%left` -/
  | cmp (right left : Register)
  | jb
  | jae
  | jne
  /-- `subq $constant,sdc_rbx_inject_countdown(%rip)` -/
  | subq (constant : Word)
  /-- `addq $constant,displacement(%rsp)` -/
  | addq (constant displacement : Word)
  | jmpMemset
  deriving DecidableEq

/-- The code from the label on. -/
def codeAtOne : List Instruction := [.jmpMemset]

/-- Behind the second test. -/
def codeInRange : List Instruction := [.subq 1, .jne, .addq 0xa0 0x10] ++ codeAtOne

/-- Behind the first test. -/
def codeAboveStart : List Instruction :=
  [.lea .emitI16End .r10, .cmp .r10 .r11, .jae] ++ codeInRange

def sdcRbxMemsetInject : List Instruction :=
  [.load 0x30 .r11, .lea .emitI16 .r10, .cmp .r10 .r11, .jb] ++ codeAboveStart

/-- The word so far above the stack pointer. -/
def stackWord (machine : Machine) (displacement : Word) : Word :=
  loadWord 64 8 machine.memory (machine.register .rsp + displacement)

def countdownOf (layout : Layout) (machine : Machine) : Word :=
  loadWord 64 8 machine.memory layout.countdown

structure Control where
  rest : List Instruction
  machine : Machine
  flags : Flags

/-- One instruction. The result is what `sdc_rbx_memset` is entered with. An
addition changes flags that are not read any more. -/
def step (layout : Layout) : Control → FuelLoop.Trip Control (Option Machine)
  | ⟨[], _, _⟩ => .leave none
  | ⟨.load displacement target :: rest, machine, flags⟩ =>
      .again ⟨rest, machine.set target (stackWord machine displacement), flags⟩
  | ⟨.lea symbol target :: rest, machine, flags⟩ =>
      .again ⟨rest, machine.set target (layout.address symbol), flags⟩
  | ⟨.cmp right left :: rest, machine, _⟩ =>
      .again ⟨rest, machine, flagsOf (machine.register left) (machine.register right)⟩
  | ⟨.jb :: rest, machine, flags⟩ =>
      .again ⟨if flags.carry then codeAtOne else rest, machine, flags⟩
  | ⟨.jae :: rest, machine, flags⟩ =>
      .again ⟨if flags.carry then rest else codeAtOne, machine, flags⟩
  | ⟨.jne :: rest, machine, flags⟩ =>
      .again ⟨if flags.zero then rest else codeAtOne, machine, flags⟩
  | ⟨.subq constant :: rest, machine, _⟩ =>
      let value := countdownOf layout machine
      .again ⟨rest, machine.store layout.countdown (value - constant), flagsOf value constant⟩
  | ⟨.addq constant displacement :: rest, machine, flags⟩ =>
      .again ⟨rest, machine.store (machine.register .rsp + displacement)
        (stackWord machine displacement + constant), flags⟩
  | ⟨.jmpMemset :: _, machine, _⟩ => .leave (some machine)

def execute (layout : Layout) (fuel : Nat) (machine : Machine) (flags : Flags) : Option Machine :=
  (FuelLoop.run (step layout) fuel ⟨sdcRbxMemsetInject, machine, flags⟩).join

/-- The call is made on behalf of `emit_i16`: the return address of
`__asan_stack_malloc_0` lies in it. -/
def onBehalf (layout : Layout) (machine : Machine) : Bool :=
  decide (layout.emitI16 ≤ stackWord machine 0x30) &&
    decide (stackWord machine 0x30 < layout.emitI16End)

/-- The address of the saved `rbx` that is changed. -/
def savedRbx (machine : Machine) : Word := machine.register .rsp + 0x10

/-- A call, as far as the calls before it leave open. Its stack is not where the
countdown is. -/
structure Call (layout : Layout) where
  machine : Machine
  flags : Flags
  above : 8 ≤ offset (savedRbx machine) layout.countdown
  below : offset (savedRbx machine) layout.countdown + 8 ≤ 2 ^ 64

/-- The machine a call is entered with when the countdown has this value. -/
def entered {layout : Layout} (countdown : Word) (call : Call layout) : Machine :=
  call.machine.store layout.countdown countdown

/-- What a call was entered with, and what it entered `sdc_rbx_memset` with. -/
structure Transit where
  entry : Machine
  reached : Machine

/-- The calls one after the other. Only the countdown goes from one to the next. -/
def executeAll {layout : Layout} (fuel : Nat) : Word → List (Call layout) → Option (List Transit)
  | _, [] => some []
  | countdown, call :: rest => do
      let reached ← execute layout fuel (entered countdown call) call.flags
      let others ← executeAll fuel (countdownOf layout reached) rest
      some (⟨entered countdown call, reached⟩ :: others)

/-- What one call does. -/
structure Effect (layout : Layout) (injects : Bool) (transit : Transit) : Prop where
  saved : stackWord transit.reached 0x10 =
    stackWord transit.entry 0x10 + if injects then 0xa0 else 0
  countdown : countdownOf layout transit.reached =
    countdownOf layout transit.entry - if onBehalf layout transit.entry then 1 else 0
  elsewhere : ∀ address, 8 ≤ offset layout.countdown address →
    8 ≤ offset (savedRbx transit.entry) address →
    transit.reached.memory address = transit.entry.memory address
  registers : ∀ name, name ≠ .r10 → name ≠ .r11 →
    transit.reached.register name = transit.entry.register name
  direction : transit.reached.directionFlag = transit.entry.directionFlag

section OneCall

variable (layout : Layout) (machine : Machine) (flags : Flags)

/-- The word in `%r11`, and the bound it was last compared with in `%r10`. -/
def looked (symbol : Symbol) : Machine :=
  (machine.set .r11 (stackWord machine 0x30)).set .r10 (layout.address symbol)

/-- The countdown is one lower. -/
def counted : Machine :=
  (looked layout machine .emitI16End).store layout.countdown (countdownOf layout machine - 1)

/-- The saved `rbx` is changed. -/
def injected : Machine :=
  (counted layout machine).store (savedRbx machine) (stackWord (counted layout machine) 0x10 + 0xa0)

theorem looked_register (symbol : Symbol) (name : Register) (notR10 : name ≠ .r10)
    (notR11 : name ≠ .r11) :
    (looked layout machine symbol).register name = machine.register name := by
  rw [looked, Machine.set_register, if_neg notR10, Machine.set_register, if_neg notR11]

theorem looked_again :
    (looked layout machine .emitI16).set .r10 (layout.address .emitI16End) =
      looked layout machine .emitI16End := by
  unfold looked Machine.set
  congr 1
  funext name
  by_cases same : name = .r10
  · simp only [same, if_true]
  · simp only [same, if_false]

/-- From here on the call reaches `sdc_rbx_memset`, within so many instructions. -/
def Reaches (limit : Nat) (control : Control) (reached : Machine) : Prop :=
  ∀ fuel, limit ≤ fuel → FuelLoop.run (step layout) fuel control = some (some reached)

theorem reaches_after {layout : Layout} (trips limit : Nat) {control next : Control}
    {reached : Machine} (went : FuelLoop.after (step layout) trips control = some next)
    (reaches : Reaches layout limit next reached) :
    Reaches layout (limit + trips) control reached := by
  intro fuel enough
  rw [Nat.add_comm] at enough
  exact FuelLoop.run_after_le _ _ _ _ _ _ _ went reaches enough

theorem reaches_at_one (limit : Nat) :
    Reaches layout (limit + 1) ⟨codeAtOne, machine, flags⟩ machine := by
  intro fuel enough
  obtain ⟨rest, rfl⟩ := Nat.exists_eq_add_of_le' enough
  rfl

theorem reaches_in_range :
    Reaches layout 4 ⟨codeInRange, looked layout machine .emitI16End, flags⟩
      (if countdownOf layout machine = 1 then injected layout machine
        else counted layout machine) := by
  have went : FuelLoop.after (step layout) 2
      ⟨codeInRange, looked layout machine .emitI16End, flags⟩ =
      some ⟨if countdownOf layout machine == 1 then .addq 0xa0 0x10 :: codeAtOne else codeAtOne,
        counted layout machine, flagsOf (countdownOf layout machine) 1⟩ := rfl
  apply reaches_after 2 2 went
  by_cases last : countdownOf layout machine = 1
  · rw [if_pos last, if_pos (beq_iff_eq.mpr last)]
    have added : FuelLoop.after (step layout) 1 ⟨.addq 0xa0 0x10 :: codeAtOne,
        counted layout machine, flagsOf (countdownOf layout machine) 1⟩ =
        some ⟨codeAtOne, injected layout machine, flagsOf (countdownOf layout machine) 1⟩ := rfl
    exact reaches_after 1 1 added (reaches_at_one layout _ _ 0)
  · rw [if_neg last, if_neg (fun same => last (beq_iff_eq.mp same))]
    exact reaches_at_one layout _ _ 1

theorem reaches_above_start :
    Reaches layout 7 ⟨codeAboveStart, looked layout machine .emitI16, flags⟩
      (if stackWord machine 0x30 < layout.emitI16End then
        if countdownOf layout machine = 1 then injected layout machine else counted layout machine
      else looked layout machine .emitI16End) := by
  have went : FuelLoop.after (step layout) 3
      ⟨codeAboveStart, looked layout machine .emitI16, flags⟩ =
      some ⟨if (stackWord machine 0x30).ult layout.emitI16End then codeInRange else codeAtOne,
        looked layout machine .emitI16End,
        flagsOf (stackWord machine 0x30) layout.emitI16End⟩ := by
    rw [← looked_again]
    rfl
  apply reaches_after 3 4 went
  by_cases inside : stackWord machine 0x30 < layout.emitI16End
  · rw [if_pos inside, if_pos (BitVec.ult_iff_lt.mpr inside)]
    exact reaches_in_range layout machine _
  · rw [if_neg inside, if_neg (fun less => inside (BitVec.ult_iff_lt.mp less))]
    exact reaches_at_one layout _ _ 3

/-- What `sdc_rbx_memset` is entered with. -/
def reachedBy : Machine :=
  if stackWord machine 0x30 < layout.emitI16 then looked layout machine .emitI16
  else if stackWord machine 0x30 < layout.emitI16End then
    if countdownOf layout machine = 1 then injected layout machine else counted layout machine
  else looked layout machine .emitI16End

theorem execute_reaches (fuel : Nat) (enough : 11 ≤ fuel) :
    execute layout fuel machine flags = some (reachedBy layout machine) := by
  have went : FuelLoop.after (step layout) 4 ⟨sdcRbxMemsetInject, machine, flags⟩ =
      some ⟨if (stackWord machine 0x30).ult layout.emitI16 then codeAtOne else codeAboveStart,
        looked layout machine .emitI16, flagsOf (stackWord machine 0x30) layout.emitI16⟩ := rfl
  have reaches : Reaches layout 11 ⟨sdcRbxMemsetInject, machine, flags⟩
      (reachedBy layout machine) := by
    apply reaches_after 4 7 went
    unfold reachedBy
    by_cases below : stackWord machine 0x30 < layout.emitI16
    · rw [if_pos below, if_pos (BitVec.ult_iff_lt.mpr below)]
      exact reaches_at_one layout _ _ 6
    · rw [if_neg below, if_neg (fun less => below (BitVec.ult_iff_lt.mp less))]
      exact reaches_above_start layout machine _
  rw [execute, reaches fuel enough]
  rfl

theorem looked_effect (symbol : Symbol) (other : onBehalf layout machine = false) :
    Effect layout false ⟨machine, looked layout machine symbol⟩ := by
  constructor
  · exact (BitVec.add_zero _).symm
  · rw [other]
    exact (BitVec.sub_zero _).symm
  · intro address _ _
    rfl
  · exact looked_register layout machine symbol
  · rfl

section Apart

variable (above : 8 ≤ offset (savedRbx machine) layout.countdown)
  (below : offset (savedRbx machine) layout.countdown + 8 ≤ 2 ^ 64)
include above below

theorem counted_effect (matching : onBehalf layout machine = true) :
    Effect layout false ⟨machine, counted layout machine⟩ := by
  have flipped := offset_flip (savedRbx machine) layout.countdown (by omega)
  constructor
  · have kept : stackWord (counted layout machine) 0x10 = stackWord machine 0x10 :=
      load_word_store_apart machine.memory layout.countdown (savedRbx machine) _ 8 64 8
        (by omega) (by omega)
    rw [kept]
    exact (BitVec.add_zero _).symm
  · rw [matching]
    exact load_word_store_same _ _ _ _ (by decide) (by decide)
  · intro address outside _
    exact store_word_outside _ _ _ _ _ outside
  · exact looked_register layout machine .emitI16End
  · rfl

theorem injected_effect (matching : onBehalf layout machine = true) :
    Effect layout true ⟨machine, injected layout machine⟩ := by
  have before := counted_effect layout machine above below matching
  constructor
  · have changed : stackWord (injected layout machine) 0x10 =
        stackWord (counted layout machine) 0x10 + 0xa0 :=
      load_word_store_same _ _ _ _ (by decide) (by decide)
    have kept : stackWord (counted layout machine) 0x10 = stackWord machine 0x10 :=
      before.saved.trans (BitVec.add_zero _)
    rw [changed, kept]
    rfl
  · have kept : countdownOf layout (injected layout machine) =
        countdownOf layout (counted layout machine) :=
      load_word_store_apart _ (savedRbx machine) layout.countdown _ 8 64 8 above below
    rw [kept]
    exact before.countdown
  · intro address outside apart
    have kept : (injected layout machine).memory address =
        (counted layout machine).memory address := store_word_outside _ _ _ _ _ apart
    rw [kept]
    exact before.elsewhere address outside apart
  · exact before.registers
  · exact before.direction

/-- The countdown is at one when the saved `rbx` is changed. -/
theorem reached_effect :
    Effect layout (onBehalf layout machine && countdownOf layout machine == 1)
      ⟨machine, reachedBy layout machine⟩ := by
  unfold reachedBy
  by_cases start : stackWord machine 0x30 < layout.emitI16
  · have other : onBehalf layout machine = false := by
      rw [onBehalf, decide_eq_false (BitVec.not_le.mpr start), Bool.false_and]
    rw [if_pos start, other, Bool.false_and]
    exact looked_effect layout machine .emitI16 other
  · rw [if_neg start]
    by_cases inside : stackWord machine 0x30 < layout.emitI16End
    · have matching : onBehalf layout machine = true := by
        rw [onBehalf, decide_eq_true (BitVec.not_lt.mp start), decide_eq_true inside, Bool.and_self]
      rw [if_pos inside, matching, Bool.true_and]
      by_cases last : countdownOf layout machine = 1
      · rw [if_pos last, beq_iff_eq.mpr last]
        exact injected_effect layout machine above below matching
      · rw [if_neg last, beq_eq_false_iff_ne.mpr last]
        exact counted_effect layout machine above below matching
    · have other : onBehalf layout machine = false := by
        rw [onBehalf, decide_eq_false inside, Bool.and_false]
      rw [if_neg inside, other, Bool.false_and]
      exact looked_effect layout machine .emitI16End other

end Apart

end OneCall

/-- The substitute memset that follows gets the arguments of the call and comes
back as if it had been called itself. -/
theorem call_is_a_memset {layout : Layout} {injects : Bool} {transit : Transit}
    (effect : Effect layout injects transit) (clear : transit.entry.directionFlag = false)
    (flags : Flags) (xmm0 : BitVec 128) :
    ∃ returned, (∀ fuel, (transit.entry.register .rdx).toNat + 21 ≤ fuel →
        InstructionBytes.execute MemsetCode.memsetCode fuel transit.reached flags xmm0 =
          some returned) ∧
      returned.machine.memory = fill transit.reached.memory (transit.entry.register .rdi)
        (transit.entry.register .rdx).toNat (lowByte transit.entry .rsi) ∧
      returned.machine.register .rax = transit.entry.register .rdi ∧
      returned.machine.register .rsp = transit.entry.register .rsp + 8 ∧
      ∀ name ∈ calleeSaved, returned.machine.register name = transit.entry.register name := by
  have kept : ∀ name, name ≠ .r10 ∧ name ≠ .r11 →
      transit.reached.register name = transit.entry.register name := fun name other =>
    effect.registers name other.1 other.2
  obtain ⟨returned, memset, ends⟩ :=
    MemsetRun.entry_sets (effect.direction.trans clear) flags xmm0
  rw [kept .rdx (by decide)] at ends
  have memory := memset.memory
  rw [lowByte, kept .rdi (by decide), kept .rsi (by decide), kept .rdx (by decide)] at memory
  refine ⟨returned, ?_, memory, ?_, ?_, ?_⟩
  · intro fuel enough
    rw [InstructionBytes.execute, ends fuel enough]
    rfl
  · rw [memset.result, kept .rdi (by decide)]
  · rw [memset.stack, kept .rsp (by decide)]
  · intro name member
    have notR10 : name ≠ .r10 := ne_of_mem_of_not_mem member (by decide)
    have notR11 : name ≠ .r11 := ne_of_mem_of_not_mem member (by decide)
    rw [memset.preserved name member, kept name ⟨notR10, notR11⟩]

section Calls

variable {layout : Layout}

/-- How many of the calls were made on behalf of `emit_i16`. -/
def matchingIn (layout : Layout) (transits : List Transit) : Nat :=
  transits.countP fun transit => onBehalf layout transit.entry

theorem entered_countdown (countdown : Word) (call : Call layout) :
    countdownOf layout (entered countdown call) = countdown :=
  load_word_store_same _ _ _ _ (by decide) (by decide)

theorem entered_effect (countdown : Word) (call : Call layout) :
    Effect layout (onBehalf layout (entered countdown call) && countdown == 1)
      ⟨entered countdown call, reachedBy layout (entered countdown call)⟩ := by
  have effect := reached_effect layout (entered countdown call) call.above call.below
  rwa [entered_countdown] at effect

/-- One matching call more is one step of the countdown more. -/
theorem countdown_after (countdown : Word) (first : Transit) (earlier : List Transit) :
    countdown - BitVec.ofNat 64 (matchingIn layout (first :: earlier)) =
      countdown - (if onBehalf layout first.entry then 1 else 0) -
        BitVec.ofNat 64 (matchingIn layout earlier) := by
  rw [matchingIn, List.countP_cons, ← matchingIn, BitVec.ofNat_add, sub_sub, add_comm]
  cases onBehalf layout first.entry with
  | false => rfl
  | true => rfl

/-- Every call finds the countdown lower by the number of matching calls before
it, whatever lies between them. -/
theorem execute_all_counts (fuel : Nat) (enough : 11 ≤ fuel) (countdown : Word)
    (calls : List (Call layout)) :
    ∃ transits, executeAll fuel countdown calls = some transits ∧
      transits.length = calls.length ∧
      ∀ earlier transit later, transits = earlier ++ transit :: later →
        ∃ call, calls[earlier.length]? = some call ∧
          transit.entry = entered (countdown - BitVec.ofNat 64 (matchingIn layout earlier)) call ∧
          transit.reached = reachedBy layout transit.entry := by
  induction calls generalizing countdown with
  | nil =>
      refine ⟨[], rfl, rfl, ?_⟩
      intro earlier transit later split
      cases earlier <;> cases split
  | cons call rest ih =>
      have steps := (entered_effect countdown call).countdown
      rw [entered_countdown] at steps
      obtain ⟨others, ran, length, counts⟩ :=
        ih (countdownOf layout (reachedBy layout (entered countdown call)))
      refine ⟨⟨entered countdown call, reachedBy layout (entered countdown call)⟩ :: others,
        ?_, ?_, ?_⟩
      · rw [executeAll, execute_reaches layout _ _ fuel enough, Option.bind_eq_bind,
          Option.bind_some, ran]
        rfl
      · rw [List.length_cons, List.length_cons, length]
      · intro earlier transit later split
        cases earlier with
        | nil =>
            rw [List.nil_append, List.cons.injEq] at split
            rw [← split.1]
            exact ⟨call, rfl, congrArg (entered · call) (sub_zero countdown).symm, rfl⟩
        | cons first earlier =>
            rw [List.cons_append, List.cons.injEq] at split
            obtain ⟨next, found, entry, reached⟩ := counts earlier transit later split.2
            rw [steps] at entry
            refine ⟨next, found, ?_, reached⟩
            rw [countdown_after, ← split.1]
            exact entry

theorem injects_in_one_call (fuel : Nat) (enough : 11 ≤ fuel) (countdown : Word)
    (calls : List (Call layout)) (fewer : calls.length < 2 ^ 64) :
    ∃ transits, executeAll fuel countdown calls = some transits ∧
      transits.length = calls.length ∧
      ∀ earlier transit later, transits = earlier ++ transit :: later →
        (∃ call, calls[earlier.length]? = some call ∧
          transit.entry =
            entered (countdown - BitVec.ofNat 64 (matchingIn layout earlier)) call) ∧
        Effect layout (onBehalf layout transit.entry &&
          decide (matchingIn layout earlier + 1 = countdown.toNat)) transit := by
  obtain ⟨transits, ran, length, counts⟩ := execute_all_counts fuel enough countdown calls
  refine ⟨transits, ran, length, ?_⟩
  intro earlier transit later split
  obtain ⟨call, found, entry, reached⟩ := counts earlier transit later split
  refine ⟨⟨call, found, entry⟩, ?_⟩
  have among : matchingIn layout earlier ≤ earlier.length := List.countP_le_length
  rw [split, List.length_append, List.length_cons] at length
  have number : (countdown - BitVec.ofNat 64 (matchingIn layout earlier) == 1) =
      decide (matchingIn layout earlier + 1 = countdown.toNat) := by
    rw [Bool.eq_iff_iff, beq_iff_eq, decide_eq_true_eq]
    bv_omega
  have effect := entered_effect (countdown - BitVec.ofNat 64 (matchingIn layout earlier)) call
  rw [number, ← entry, ← reached] at effect
  exact effect

/-- Two calls on behalf of `emit_i16`, with the countdown at two. -/
theorem injects_in_one_call_of_two :
    let layout : Layout := ⟨0x1000, 0x2000, 0x8000⟩
    let machine : Machine :=
      ⟨fun _ => 0x7000, false, fun address => if address = 0x7031 then 0x18 else 0⟩
    ∃ call : Call layout, call.machine = machine ∧
      ∃ first second, executeAll 11 2 [call, call] = some [first, second] ∧
        stackWord first.reached 0x10 = stackWord first.entry 0x10 ∧
        stackWord second.reached 0x10 = stackWord second.entry 0x10 + 0xa0 := by
  intro layout machine
  let call : Call layout := ⟨machine, ⟨false, false, false, false⟩, by decide, by decide⟩
  obtain ⟨transits, ran, length, effects⟩ :=
    injects_in_one_call 11 (by decide) 2 [call, call] (by decide)
  obtain ⟨first, second, rfl⟩ := List.length_eq_two.mp length
  obtain ⟨⟨_, found, entry⟩, effect⟩ := effects [] first [second] rfl
  obtain ⟨⟨_, found', entry'⟩, effect'⟩ := effects [first] second [] rfl
  cases found
  cases found'
  have matching : onBehalf layout first.entry = true := by
    rw [entry]
    decide
  have one : matchingIn layout [first] = 1 := by
    rw [matchingIn, List.countP_cons, List.countP_nil, matching]
    rfl
  have matching' : onBehalf layout second.entry = true := by
    rw [entry', one]
    decide
  refine ⟨call, rfl, first, second, ran, ?_, ?_⟩
  · rw [effect.saved, matching]
    exact BitVec.add_zero _
  · rw [effect'.saved, matching', one]
    rfl

end Calls

end SdcProbe.MemsetInject
