import SdcProbe.InstructionBytes
import SdcProbe.MemsetCode

/-!
# What the substitute memset does

A run of `sdc_rbx_memset` from its bytes. Every length but zero and one ends in
the loop of `rep stosb`, which `.Lmemset_stos` enters.
-/

namespace SdcProbe.MemsetRun

open Fnv1a ByteMemory InstructionBytes MemsetCode
open PayloadCall hiding step execute

set_option autoImplicit false

/-! ### The code as it is decoded -/

theorem entry_listing :
    fetch memsetCode 0x00 = some (.endbr64, 0x04) ∧
    fetch memsetCode 0x04 = some (.vmovd .rsi, 0x08) ∧
    fetch memsetCode 0x08 = some (.mov .rdi .rax, 0x0b) ∧
    fetch memsetCode 0x0b = some (.cmpq 0x20 .rdx, 0x0f) ∧
    fetch memsetCode 0x0f = some (.jcc .below 0xcb, 0x15) := by decide

theorem stos_listing :
    fetch memsetCode 0x15 = some (.mov .rdi .r8, 0x18) ∧
    fetch memsetCode 0x18 = some (.movzbl .rsi .rax, 0x1c) ∧
    fetch memsetCode 0x1c = some (.mov .rdx .rcx, 0x1f) ∧
    fetch memsetCode 0x1f = some (.repStosb, 0x21) ∧
    fetch memsetCode 0x21 = some (.mov .r8 .rax, 0x24) ∧
    fetch memsetCode 0x24 = some (.ret, 0x25) := by decide

theorem small_listing :
    fetch memsetCode 0xe0 = some (.vpbroadcastb, 0xe5) ∧
    fetch memsetCode 0xe5 = some (.cmpl 0x10 .rdx, 0xe8) ∧
    fetch memsetCode 0xe8 = some (.jcc .greaterEqual 0x16, 0xea) ∧
    fetch memsetCode 0xea = some (.cmpl 0x8 .rdx, 0xed) ∧
    fetch memsetCode 0xed = some (.jcc .greaterEqual 0x21, 0xef) ∧
    fetch memsetCode 0xef = some (.cmpl 0x4 .rdx, 0xf2) ∧
    fetch memsetCode 0xf2 = some (.jcc .greaterEqual 0x2c, 0xf4) ∧
    fetch memsetCode 0xf4 = some (.cmpl 0x1 .rdx, 0xf7) ∧
    fetch memsetCode 0xf7 = some (.jcc .greater 0x37, 0xf9) ∧
    fetch memsetCode 0xf9 = some (.jcc .less 0x3, 0xfb) ∧
    fetch memsetCode 0xfb = some (.movb .rsi .rdi, 0xfe) ∧
    fetch memsetCode 0xfe = some (.ret, 0xff) := by decide

/-- The four jumps back. -/
theorem jump_listing :
    fetch memsetCode 0x100 = some (.jmp (-0xf0), 0x105) ∧
    fetch memsetCode 0x110 = some (.jmp (-0x100), 0x115) ∧
    fetch memsetCode 0x120 = some (.jmp (-0x110), 0x125) ∧
    fetch memsetCode 0x130 = some (.jmp (-0x120), 0x135) := by decide

/-! ### The loop -/

/-- The registers and the memory after some bytes were stored by `rep stosb`. -/
structure Stored (before after : Machine) (length : Nat) : Prop where
  memory : after.memory =
    fill before.memory (before.register .rdi) length (lowByte before .rax)
  registers : ∀ name, name ≠ .rdi → name ≠ .rcx → after.register name = before.register name
  direction : after.directionFlag = false

theorem stosb_register (machine : Machine) (name : Register) (notRdi : name ≠ .rdi)
    (notRcx : name ≠ .rcx) : (stosb machine).register name = machine.register name := by
  rw [stosb, Machine.set_register, if_neg notRcx, Machine.set_register, if_neg notRdi]
  rfl

theorem stosb_rdi (machine : Machine) (clear : machine.directionFlag = false) :
    (stosb machine).register .rdi = machine.register .rdi + 1 := by
  rw [stosb, Machine.set_register, if_neg (by decide), Machine.set_register, if_pos rfl, clear]
  rfl

theorem stosb_rcx (machine : Machine) :
    (stosb machine).register .rcx = machine.register .rcx - 1 := by
  rw [stosb, Machine.set_register, if_pos rfl]

theorem stosb_memory (machine : Machine) :
    (stosb machine).memory =
      storeBytes machine.memory (machine.register .rdi) [lowByte machine .rax] := rfl

theorem rep_stosb_fills (length : Nat) (machine : Machine)
    (count : (machine.register .rcx).toNat = length) (clear : machine.directionFlag = false) :
    ∃ after, Stored machine after length ∧ ∀ flags xmm0,
      FuelLoop.after (step memsetCode) (length + 1) ⟨machine, flags, xmm0, 0x1f⟩ =
        some ⟨after, flags, xmm0, 0x21⟩ := by
  induction length generalizing machine with
  | zero =>
      have done : machine.register .rcx = 0 := BitVec.eq_of_toNat_eq count
      apply Exists.intro machine
      constructor
      · constructor
        · rw [fill_zero]
        · intro name _ _
          rfl
        · exact clear
      · intro flags xmm0
        simp only [FuelLoop.after, step, stos_listing, perform, if_pos done]
  | succ length ih =>
      have left : ((stosb machine).register .rcx).toNat = length := by
        rw [stosb_rcx]
        bv_omega
      have more : machine.register .rcx ≠ 0 := by
        intro done
        rw [done] at count
        cases count
      obtain ⟨after, stored, went⟩ := ih (stosb machine) left clear
      apply Exists.intro after
      constructor
      · constructor
        · have byte : lowByte (stosb machine) .rax = lowByte machine .rax := by
            rw [lowByte, stosb_register machine .rax (by decide) (by decide), lowByte]
          have bound := (machine.register .rcx).isLt
          rw [stored.memory, stosb_memory, stosb_rdi machine clear, byte,
            fill_succ _ _ _ _ (by omega)]
        · intro name notRdi notRcx
          rw [stored.registers name notRdi notRcx, stosb_register machine name notRdi notRcx]
        · exact stored.direction
      · intro flags xmm0
        rw [FuelLoop.after]
        simp only [step, stos_listing, perform, if_neg more]
        exact went flags xmm0

/-! ### The paths -/

/-- What a caller sees of a memset. -/
structure IsMemset (entry : Machine) (returned : Return) : Prop where
  memory : returned.machine.memory = fill entry.memory (entry.register .rdi)
    (entry.register .rdx).toNat (lowByte entry .rsi)
  result : returned.machine.register .rax = entry.register .rdi
  stack : returned.machine.register .rsp = entry.register .rsp + 8
  preserved : ∀ name ∈ calleeSaved, returned.machine.register name = entry.register name
  direction : returned.machine.directionFlag = false
  address : returned.address =
    loadWord 64 8 returned.machine.memory (entry.register .rsp)

/-- From here on the code does the rest of a memset, within so many instructions. -/
def Sets (entry : Machine) (limit : Nat) (machine : Machine) (rip : Word) : Prop :=
  ∀ flags xmm0, ∃ returned, IsMemset entry returned ∧ ∀ fuel, limit ≤ fuel →
    FuelLoop.run (step memsetCode) fuel ⟨machine, flags, xmm0, rip⟩ = some (some returned)

section Rules

variable {entry machine machine' : Machine} {limit : Nat} {rip rip' next : Word}

theorem sets_mono {larger : Nat} (enough : limit ≤ larger) (sets : Sets entry limit machine rip) :
    Sets entry larger machine rip := by
  intro flags xmm0
  obtain ⟨returned, memset, ends⟩ := sets flags xmm0
  exact ⟨returned, memset, fun fuel covered => ends fuel (Nat.le_trans enough covered)⟩

theorem sets_before (trips : Nat)
    (went : ∀ flags xmm0, ∃ flags' xmm0',
      FuelLoop.after (step memsetCode) trips ⟨machine, flags, xmm0, rip⟩ =
        some ⟨machine', flags', xmm0', rip'⟩)
    (sets : Sets entry limit machine' rip') : Sets entry (trips + limit) machine rip := by
  intro flags xmm0
  obtain ⟨flags', xmm0', reached⟩ := went flags xmm0
  obtain ⟨returned, memset, ends⟩ := sets flags' xmm0'
  refine ⟨returned, memset, ?_⟩
  intro fuel enough
  exact FuelLoop.run_after_le _ _ _ _ _ _ _ reached ends enough

theorem sets_jmp {displacement : Word}
    (jumps : fetch memsetCode rip = some (.jmp displacement, next))
    (sets : Sets entry limit machine (next + displacement)) :
    Sets entry (1 + limit) machine rip := by
  apply sets_before 1 _ sets
  intro flags xmm0
  refine ⟨flags, xmm0, ?_⟩
  simp only [FuelLoop.after, step, jumps, perform]

/-- A comparison of the length and a jump on its result. -/
theorem sets_branch {constant : Byte} {condition : Condition} {middle displacement : Word}
    (compares : fetch memsetCode rip = some (.cmpl constant .rdx, middle))
    (jumps : fetch memsetCode middle = some (.jcc condition displacement, next))
    (taken : Bool)
    (sets : Sets entry limit machine (if taken then next + displacement else next))
    (holds : condition.holds
      (flagsOf ((machine.register .rdx).setWidth 32) (constant.signExtend 32)) = taken) :
    Sets entry (2 + limit) machine rip := by
  apply sets_before 2 _ sets
  intro flags xmm0
  refine ⟨flagsOf ((machine.register .rdx).setWidth 32) (constant.signExtend 32), xmm0, ?_⟩
  simp only [FuelLoop.after, step, compares, jumps, perform, holds]

/-- What must hold before the `ret`. -/
structure Finished (entry machine : Machine) : Prop where
  memory : machine.memory = fill entry.memory (entry.register .rdi)
    (entry.register .rdx).toNat (lowByte entry .rsi)
  result : machine.register .rax = entry.register .rdi
  kept : ∀ name ∈ .rsp :: calleeSaved, machine.register name = entry.register name
  direction : machine.directionFlag = false

theorem sets_ret (returns : fetch memsetCode rip = some (.ret, next))
    (finished : Finished entry machine) : Sets entry 1 machine rip := by
  intro flags xmm0
  have stack : machine.register .rsp = entry.register .rsp :=
    finished.kept .rsp (List.mem_cons_self ..)
  refine ⟨⟨machine.set .rsp (machine.register .rsp + 8), machine.top⟩, ?_, ?_⟩
  · constructor
    · exact finished.memory
    · rw [Machine.set_register, if_neg (by decide), finished.result]
    · rw [Machine.set_register, if_pos rfl, stack]
    · intro name member
      have notRsp : name ≠ .rsp := ne_of_mem_of_not_mem member (by decide)
      rw [Machine.set_register, if_neg notRsp, finished.kept name (List.mem_cons_of_mem _ member)]
    · exact finished.direction
    · rw [Machine.top, stack]
      rfl
  · intro fuel enough
    obtain ⟨rest, rfl⟩ := Nat.exists_eq_add_of_le' enough
    simp only [FuelLoop.run, step, returns, perform]

end Rules

section Call

variable {entry : Machine} (clear : entry.directionFlag = false)

/-- The result is in place before the length is looked at. -/
def begun (entry : Machine) : Machine := entry.set .rax (entry.register .rdi)

/-- In front of `rep stosb`. -/
def loaded (entry : Machine) : Machine :=
  (((begun entry).set .r8 (entry.register .rdi)).set .rax
    ((lowByte entry .rsi).setWidth 64)).set .rcx (entry.register .rdx)

theorem loaded_low_byte (entry : Machine) : lowByte (loaded entry) .rax = lowByte entry .rsi := by
  rw [lowByte, loaded, Machine.set_register, if_neg (by decide), Machine.set_register, if_pos rfl]
  exact BitVec.setWidth_setWidth_of_le _ (by decide)

theorem stos_finishes {after : Machine}
    (stored : Stored (loaded entry) after (entry.register .rdx).toNat) :
    Finished entry (after.set .rax (after.register .r8)) := by
  have registers : ∀ name, name ≠ .rax → name ≠ .rcx → name ≠ .r8 → name ≠ .rdi →
      after.register name = entry.register name := by
    intro name notRax notRcx notR8 notRdi
    rw [stored.registers name notRdi notRcx, loaded, Machine.set_register, if_neg notRcx,
      Machine.set_register, if_neg notRax, Machine.set_register, if_neg notR8, begun,
      Machine.set_register, if_neg notRax]
  constructor
  · rw [Machine.set_memory, stored.memory, loaded_low_byte]
    rfl
  · rw [Machine.set_register, if_pos rfl, stored.registers .r8 (by decide) (by decide)]
    rfl
  · intro name member
    have notRax : name ≠ .rax := ne_of_mem_of_not_mem member (by decide)
    have notRcx : name ≠ .rcx := ne_of_mem_of_not_mem member (by decide)
    have notR8 : name ≠ .r8 := ne_of_mem_of_not_mem member (by decide)
    have notRdi : name ≠ .rdi := ne_of_mem_of_not_mem member (by decide)
    rw [Machine.set_register, if_neg notRax]
    exact registers name notRax notRcx notR8 notRdi
  · exact stored.direction

include clear

theorem stos_sets : Sets entry ((entry.register .rdx).toNat + 6) (begun entry) 0x15 := by
  have start : (loaded entry).directionFlag = false := clear
  have count : ((loaded entry).register .rcx).toNat = (entry.register .rdx).toNat := by
    rw [loaded, Machine.set_register, if_pos rfl]
  obtain ⟨after, stored, rounds⟩ := rep_stosb_fills _ (loaded entry) count start
  have total : (entry.register .rdx).toNat + 6 =
      3 + (((entry.register .rdx).toNat + 1) + (1 + 1)) := by omega
  have at24 : fetch memsetCode 0x24 = some (.ret, 0x25) := by simp only [stos_listing]
  have returns := sets_ret at24 (stos_finishes stored)
  have moves : Sets entry (1 + 1) after 0x21 := by
    apply sets_before 1 _ returns
    intro flags xmm0
    refine ⟨flags, xmm0, ?_⟩
    simp only [FuelLoop.after, step, stos_listing, perform]
  have stores : Sets entry ((entry.register .rdx).toNat + 1 + (1 + 1)) (loaded entry) 0x1f := by
    apply sets_before _ _ moves
    intro flags xmm0
    exact ⟨flags, xmm0, rounds flags xmm0⟩
  rw [total]
  apply sets_before 3 _ stores
  intro flags xmm0
  refine ⟨flags, xmm0, ?_⟩
  simp only [FuelLoop.after, step, stos_listing, perform]
  rfl

/-- The jumps at the four aligned entry points. -/
theorem jump_back_sets :
    Sets entry ((entry.register .rdx).toNat + 7) (begun entry) 0x100 ∧
    Sets entry ((entry.register .rdx).toNat + 7) (begun entry) 0x110 ∧
    Sets entry ((entry.register .rdx).toNat + 7) (begun entry) 0x120 ∧
    Sets entry ((entry.register .rdx).toNat + 7) (begun entry) 0x130 := by
  have back : ∀ rip next displacement, fetch memsetCode rip = some (.jmp displacement, next) →
      next + displacement = 0x15 →
      Sets entry ((entry.register .rdx).toNat + 7) (begun entry) rip := by
    intro rip next displacement jumps target
    apply sets_mono _ (sets_jmp jumps (target ▸ stos_sets clear))
    omega
  obtain ⟨at100, at110, at120, at130⟩ := jump_listing
  exact ⟨back _ _ _ at100 (by decide), back _ _ _ at110 (by decide), back _ _ _ at120 (by decide),
    back _ _ _ at130 (by decide)⟩

theorem empty_sets (empty : (entry.register .rdx).toNat = 0) :
    Sets entry 1 (begun entry) 0xfe := by
  have atfe : fetch memsetCode 0xfe = some (.ret, 0xff) := by simp only [small_listing]
  apply sets_ret atfe
  constructor
  · rw [empty, fill_zero]
    rfl
  · rfl
  · intro name member
    have notRax : name ≠ .rax := ne_of_mem_of_not_mem member (by decide)
    rw [begun, Machine.set_register, if_neg notRax]
  · exact clear

theorem single_sets (single : (entry.register .rdx).toNat = 1) :
    Sets entry 2 (begun entry) 0xfb := by
  have stored : Finished entry
      (storeByte (begun entry) (entry.register .rdi) (lowByte entry .rsi)) := by
    constructor
    · have one := fill_succ entry.memory (entry.register .rdi) 0 (lowByte entry .rsi) (by decide)
      rw [fill_zero] at one
      rw [single, ← one]
      rfl
    · rfl
    · intro name member
      have notRax : name ≠ .rax := ne_of_mem_of_not_mem member (by decide)
      rw [storeByte, begun, Machine.set_register, if_neg notRax]
    · exact clear
  have atfe : fetch memsetCode 0xfe = some (.ret, 0xff) := by simp only [small_listing]
  apply sets_before 1 _ (sets_ret atfe stored)
  intro flags xmm0
  refine ⟨flags, xmm0, ?_⟩
  simp only [FuelLoop.after, step, small_listing, perform]
  rfl

section Ladder

variable (small : (entry.register .rdx).toNat < 32)
include small

omit clear in
theorem rung_holds (constant : Byte) (positive : constant.toNat < 128) :
    Condition.greaterEqual.holds
        (flagsOf (((begun entry).register .rdx).setWidth 32) (constant.signExtend 32)) =
      decide (constant.toNat ≤ (entry.register .rdx).toNat) := by
  have kept : (begun entry).register .rdx = entry.register .rdx := rfl
  rw [compare_greater_equal, kept, small_slt small constant positive, ← decide_not]
  simp only [Nat.not_lt]

omit clear in
/-- The last comparison serves two jumps. -/
theorem least_holds :
    Condition.greater.holds
        (flagsOf (((begun entry).register .rdx).setWidth 32) ((0x1 : Byte).signExtend 32)) =
      decide (1 < (entry.register .rdx).toNat) ∧
    Condition.less.holds
        (flagsOf (((begun entry).register .rdx).setWidth 32) ((0x1 : Byte).signExtend 32)) =
      decide ((entry.register .rdx).toNat = 0) := by
  have kept : (begun entry).register .rdx = entry.register .rdx := rfl
  have less : ((entry.register .rdx).setWidth 32).slt ((0x1 : Byte).signExtend 32) =
      decide ((entry.register .rdx).toNat < 1) := small_slt small 0x1 (by decide)
  have one : ((0x1 : Byte).signExtend 32).toNat = 1 := rfl
  have equal : ((entry.register .rdx).setWidth 32 == (0x1 : Byte).signExtend 32) =
      decide ((entry.register .rdx).toNat = 1) := by
    rw [Bool.eq_iff_iff, beq_iff_eq, decide_eq_true_eq, ← BitVec.toNat_inj, one,
      BitVec.toNat_setWidth, Nat.mod_eq_of_lt (by omega)]
  constructor
  · rw [compare_greater, kept, less, equal, Bool.eq_iff_iff]
    simp only [Bool.and_eq_true, Bool.not_eq_true', decide_eq_false_iff_not, decide_eq_true_eq]
    omega
  · rw [compare_less, kept, less, decide_eq_decide]
    omega

theorem least_sets (least : (entry.register .rdx).toNat ≤ 1) :
    Sets entry 5 (begun entry) 0xf4 := by
  obtain ⟨greater, less⟩ := least_holds small
  have rest : Sets entry 2 (begun entry)
      (if (entry.register .rdx).toNat = 0 then 0xfe else 0xfb) := by
    split
    · next empty => exact sets_mono (by decide) (empty_sets clear empty)
    · next filled => exact single_sets clear (by omega)
  apply sets_before 3 _ rest
  intro flags xmm0
  refine ⟨flagsOf (((begun entry).register .rdx).setWidth 32) ((0x1 : Byte).signExtend 32),
    xmm0, ?_⟩
  simp only [FuelLoop.after, step, small_listing, perform, greater, less,
    decide_eq_true_eq, Nat.not_lt.mpr least, if_false]
  rfl

omit clear in
/-- `cmp`, and `jge` to an entry point that leads to the loop. -/
theorem sets_rung {limit : Nat} {rip middle next target displacement : Word} {constant : Byte}
    (compares : fetch memsetCode rip = some (.cmpl constant .rdx, middle))
    (jumps : fetch memsetCode middle = some (.jcc .greaterEqual displacement, next))
    (positive : constant.toNat < 128) (leads : next + displacement = target)
    (far : Sets entry limit (begun entry) target) (near : Sets entry limit (begun entry) next) :
    Sets entry (2 + limit) (begun entry) rip := by
  apply sets_branch compares jumps _ _ (rung_holds small constant positive)
  rw [leads]
  split
  · exact far
  · exact near

/-- The ladder from its lowest rung up. -/
theorem small_sets : Sets entry ((entry.register .rdx).toNat + 16) (begun entry) 0xe0 := by
  obtain ⟨ate0, ate5, ate8, atea, ated, atef, atf2, atf4, atf7, _, _, _⟩ := small_listing
  obtain ⟨from100, from110, from120, from130⟩ := jump_back_sets clear
  have least : Sets entry ((entry.register .rdx).toNat + 9) (begun entry) 0xf4 := by
    by_cases atMostOne : (entry.register .rdx).toNat ≤ 1
    · exact sets_mono (by omega) (least_sets clear small atMostOne)
    · have greater := (least_holds small).1
      rw [decide_eq_true (by omega)] at greater
      exact sets_mono (by omega) (sets_branch atf4 atf7 true from130 greater)
  have four := sets_rung small atef atf2 (by decide) (by decide)
    (sets_mono (by omega) from120) least
  have eight := sets_rung small atea ated (by decide) (by decide)
    (sets_mono (by omega) from110) four
  have sixteen := sets_rung small ate5 ate8 (by decide) (by decide)
    (sets_mono (by omega) from100) eight
  apply sets_mono _ (sets_before 1 _ sixteen)
  · omega
  · intro flags xmm0
    refine ⟨flags, (xmm0.setWidth 8).replicate 16, ?_⟩
    simp only [FuelLoop.after, step, ate0, perform]

end Ladder

theorem entry_sets : Sets entry ((entry.register .rdx).toNat + 21) entry 0x00 := by
  have rest : Sets entry ((entry.register .rdx).toNat + 16) (begun entry)
      (if (entry.register .rdx).toNat < 32 then 0xe0 else 0x15) := by
    split
    · next small => exact small_sets clear small
    · exact sets_mono (by omega) (stos_sets clear)
  have below : Condition.below.holds
      (flagsOf (entry.register .rdx) ((0x20 : Byte).signExtend 64)) =
        decide ((entry.register .rdx).toNat < 32) := rfl
  apply sets_mono _ (sets_before 5 _ rest)
  · omega
  · intro flags xmm0
    refine ⟨flagsOf (entry.register .rdx) ((0x20 : Byte).signExtend 64),
      (((entry.register .rsi).setWidth 32).setWidth 128), ?_⟩
    have kept : (entry.set .rax (entry.register .rdi)).register .rdx = entry.register .rdx := rfl
    simp only [FuelLoop.after, step, entry_listing, perform, kept, below, decide_eq_true_eq]
    rfl

end Call

/-- The return address lies outside the region. -/
theorem returns_to_caller {entry : Machine} {returned : Return} (memset : IsMemset entry returned)
    (apart : ∀ i, i < 8 → (entry.register .rdx).toNat ≤
      offset (entry.register .rdi) (entry.register .rsp + BitVec.ofNat 64 i)) :
    returned.address = entry.top := by
  rw [memset.address, memset.memory, Machine.top, loadWord, loadWord]
  congr 1
  apply load_bytes_congr
  intro i inside
  exact fill_outside _ _ _ _ _ (apart i inside)

theorem memset_sets_every_length (entry : Machine) (flags : Flags) (xmm0 : BitVec 128)
    (clear : entry.directionFlag = false)
    (noWrap : (entry.register .rdi).toNat + (entry.register .rdx).toNat ≤ 2 ^ 64) :
    ∃ returned, (∀ fuel, (entry.register .rdx).toNat + 21 ≤ fuel →
        execute memsetCode fuel entry flags xmm0 = some returned) ∧
      (∀ address, returned.machine.memory address =
        if (entry.register .rdi).toNat ≤ address.toNat ∧
            address.toNat < (entry.register .rdi).toNat + (entry.register .rdx).toNat
        then (entry.register .rsi).setWidth 8 else entry.memory address) ∧
      returned.machine.register .rax = entry.register .rdi ∧
      returned.machine.register .rsp = entry.register .rsp + 8 ∧
      (∀ name ∈ calleeSaved, returned.machine.register name = entry.register name) ∧
      ((∀ i, i < 8 → (entry.register .rdx).toNat ≤
          offset (entry.register .rdi) (entry.register .rsp + BitVec.ofNat 64 i)) →
        returned.address = entry.top) := by
  obtain ⟨returned, memset, ends⟩ := entry_sets clear flags xmm0
  refine ⟨returned, ?_, ?_, memset.result, memset.stack, memset.preserved,
    returns_to_caller memset⟩
  · intro fuel enough
    rw [execute, ends fuel enough]
    rfl
  · intro address
    rw [memset.memory, fill]
    simp only [offset_lt_iff _ _ _ noWrap]
    rfl

/-- Forty bytes, with a value of which only the low byte counts. -/
theorem memset_sets_every_length_of_forty :
    let entry : Machine :=
      ⟨fun name => if name = .rdi then 0x1000 else if name = .rsi then 0x1ff
        else if name = .rdx then 40 else 0x7000, false, fun _ => 0⟩
    ∃ returned, execute memsetCode 61 entry ⟨false, false, false, false⟩ 0 = some returned ∧
      returned.machine.memory 0x0fff = 0 ∧ returned.machine.memory 0x1027 = 0xff ∧
      returned.machine.memory 0x1028 = 0 ∧ returned.machine.register .rax = 0x1000 ∧
      returned.address = 0 := by
  intro entry
  obtain ⟨returned, ran, memory, result, _, _, back⟩ := memset_sets_every_length entry
    ⟨false, false, false, false⟩ 0 rfl (by decide)
  refine ⟨returned, ran 61 (by decide), ?_, ?_, ?_, result, ?_⟩
  · rw [memory]
    decide
  · rw [memory]
    decide
  · rw [memory]
    decide
  · rw [back (by decide)]
    decide

end SdcProbe.MemsetRun
