import SdcProbe.PayloadCall
import SdcProbe.SampleStream

/-!
# The measured instruction sequence

The inline assembly of `compute_rows`, instruction by instruction, with the
x86-64 meaning of each: a 32-bit write clears the upper half of its register,
xor and imul work modulo `2^64`, `%ch` is bits 8 to 15. The operands are in the
registers the compiler has given them, within what the constraints admit: these
keep `rcx` free of the two other results, and not of what the sequence reads.
Four of the sixteen instructions are the lane reads; a misread replaces the byte
such a read delivers and nothing else.
-/

namespace SdcProbe.LaneSequence

open XorMultiplyHash Fnv1a SampleStream
open PayloadCall (Register)

set_option autoImplicit false

/-- `%[t0]`, `%[t1]`, `%rcx`, `%[acc]` and `%[prime]`. -/
inductive Operand where
  | t0 | t1 | rcx | acc | prime

/-- `displacement(base,index,2^shift)`, with the base as the register that is not
shifted. -/
structure Address where
  terms : List (Register × Fin 4)
  displacement : Word

namespace Address

def Reads (address : Address) (name : Register) : Prop := ∃ shift, (name, shift) ∈ address.terms

def value (register : Register → Word) (term : Register × Fin 4) : Word :=
  register term.1 * BitVec.ofNat 64 (2 ^ term.2.val)

def effective (address : Address) (register : Register → Word) : Word :=
  (address.terms.map (value register)).sum + address.displacement

/-- How often the address has a register in it. -/
def factor (address : Address) (name : Register) : Nat :=
  (address.terms.map fun term => if term.1 = name then 2 ^ term.2.val else 0).sum

end Address

/-- Where the compiler has put the operands. -/
structure Allocation where
  t0 : Register
  t1 : Register
  acc : Register
  prime : Register
  dst : Address

namespace Allocation

def place (allocation : Allocation) : Operand → Register
  | .t0 => allocation.t0
  | .t1 => allocation.t1
  | .rcx => .rcx
  | .acc => allocation.acc
  | .prime => allocation.prime

/-- The sequence reads the register and has not set it: it is `acc` or `prime`, or the
address of `dst` has it. -/
def Input (allocation : Allocation) (name : Register) : Prop :=
  name = allocation.acc ∨ name = allocation.prime ∨ allocation.dst.Reads name

/-- What the constraints ask for: `"=&r"(t0)`, `"=&Q"(t1)`, `"=c"(rcx_out)`, `"=m"(dst)`,
`"r"(acc)` and `"r"(prime)`. Two results are in two registers, and so are two inputs, which
have different values. The results marked with `&` share none with an input; `rcx_out` has
no such mark. -/
structure Admitted (allocation : Allocation) : Prop where
  general : ∀ name ∈ [allocation.t0, allocation.acc, allocation.prime], name ≠ .rsp
  legacy : allocation.t1 ∈ [.rax, .rbx, .rcx, .rdx]
  addressing : allocation.dst.terms.length ≤ 2
  results : [allocation.t0, allocation.t1, .rcx].Nodup
  earlyT0 : ¬ allocation.Input allocation.t0
  earlyT1 : ¬ allocation.Input allocation.t1
  inputs : allocation.acc ≠ allocation.prime ∧ ¬ allocation.dst.Reads allocation.acc ∧
    ¬ allocation.dst.Reads allocation.prime

end Allocation

/-- `L0(cl)`, `L1(ch)`, `L2(shr16)`, `L3(shr24)`. -/
abbrev Lane := Fin 4

/-- The lane of byte `k`, `k % sizeof(float)`. -/
def laneOf (k : Nat) : Lane := ⟨k % 4, Nat.mod_lt k (Nat.succ_pos 3)⟩

/-- The wrong byte each lane read delivers; `none` is a correct read. -/
abbrev Misread := Lane → Option Byte

def correctReads : Misread := fun _ => none

structure Machine where
  register : Register → Word
  xmm : BitVec 32
  /-- Where and what has been stored. -/
  stored : Option (Word × BitVec 32) := none

inductive Instruction where
  | movdEcx
  | movssDst
  | movzblLow (source dest : Operand) (lane : Lane)
  | movzblHigh (source dest : Operand) (lane : Lane)
  | xorq (source dest : Operand)
  | imulq (source dest : Operand)
  | movl (source dest : Operand)
  | shrl (count : Nat) (dest : Operand)
  | shrlRead (count : Nat) (dest : Operand) (lane : Lane)

/-- What a lane read puts into its 32-bit destination. -/
def deliver (misread : Misread) (lane : Lane) (value : BitVec 32) : BitVec 32 :=
  match misread lane with
  | none => value
  | some byte => byte.setWidth 32

def write64 (machine : Machine) (dest : Register) (value : Word) : Machine :=
  { machine with register := fun name => if name = dest then value else machine.register name }

def write32 (machine : Machine) (dest : Register) (value : BitVec 32) : Machine :=
  write64 machine dest (value.setWidth 64)

section Execution

variable (allocation : Allocation) (misread : Misread)

def step (machine : Machine) : Instruction → Machine
  | .movdEcx => write32 machine .rcx machine.xmm
  | .movssDst =>
      { machine with
        stored := some (allocation.dst.effective machine.register, machine.xmm) }
  | .movzblLow source dest lane =>
      write32 machine (allocation.place dest)
        (deliver misread lane
          (((machine.register (allocation.place source)).setWidth 8).setWidth 32))
  | .movzblHigh source dest lane =>
      write32 machine (allocation.place dest)
        (deliver misread lane
          (((machine.register (allocation.place source) >>> 8).setWidth 8).setWidth 32))
  | .xorq source dest =>
      write64 machine (allocation.place dest)
        (machine.register (allocation.place dest) ^^^ machine.register (allocation.place source))
  | .imulq source dest =>
      write64 machine (allocation.place dest)
        (machine.register (allocation.place dest) * machine.register (allocation.place source))
  | .movl source dest =>
      write32 machine (allocation.place dest)
        ((machine.register (allocation.place source)).setWidth 32)
  | .shrl count dest =>
      write32 machine (allocation.place dest)
        ((machine.register (allocation.place dest)).setWidth 32 >>> count)
  | .shrlRead count dest lane =>
      write32 machine (allocation.place dest)
        (deliver misread lane
          ((machine.register (allocation.place dest)).setWidth 32 >>> count))

def laneSequence : List Instruction :=
  [ .movdEcx,
    .movssDst,
    .movzblLow .rcx .t0 0,
    .movzblHigh .rcx .t1 1,
    .xorq .acc .t0,
    .imulq .prime .t0,
    .xorq .t1 .t0,
    .movl .rcx .t1,
    .shrlRead 0x18 .rcx 3,
    .imulq .prime .t0,
    .shrl 0x10 .t1,
    .movzblLow .t1 .t1 2,
    .xorq .t1 .t0,
    .imulq .prime .t0,
    .xorq .rcx .t0,
    .imulq .prime .t0 ]

def execute (machine : Machine) : Machine :=
  laneSequence.foldl (step allocation misread) machine

end Execution

/-- The byte lane `lane` of `sample` contributes to the register hash. -/
def observedByte (misread : Misread) (sample : Sample) (lane : Lane) : Byte :=
  (misread lane).getD (laneByte sample lane)

@[simp] theorem write64_register (machine : Machine) (dest name : Register) (value : Word) :
    (write64 machine dest value).register name =
      if name = dest then value else machine.register name := rfl

@[simp] theorem write64_xmm (machine : Machine) (dest : Register) (value : Word) :
    (write64 machine dest value).xmm = machine.xmm := rfl

theorem widen_byte (byte : Byte) : (byte.setWidth 32).setWidth 64 = byte.setWidth 64 := by
  apply BitVec.eq_of_toNat_eq
  have bound := byte.isLt
  simp only [BitVec.toNat_setWidth]
  omega

/-- Whenever the architectural value of a read is its byte, what is delivered is
the observed byte. -/
theorem deliver_observed (misread : Misread) (lane : Lane) (sample : Sample)
    (value : BitVec 32) (architectural : value = (laneByte sample lane).setWidth 32) :
    (deliver misread lane value).setWidth 64 = (observedByte misread sample lane).setWidth 64 := by
  unfold deliver observedByte
  cases misread lane with
  | none => rw [architectural, Option.getD_none, widen_byte]
  | some byte => rw [Option.getD_some, widen_byte]

theorem read_cl (sample : Sample) :
    ((sample.setWidth 64).setWidth 8).setWidth 32 = (laneByte sample 0).setWidth 32 := by
  apply BitVec.eq_of_getLsbD_eq
  intro i bound
  simp [laneByte]

theorem read_ch (sample : Sample) :
    ((sample.setWidth 64 >>> 8).setWidth 8).setWidth 32 = (laneByte sample 1).setWidth 32 := by
  apply BitVec.eq_of_getLsbD_eq
  intro i bound
  simp [laneByte, show 8 + i < 64 by omega]

theorem read_shr16 (sample : Sample) :
    (((sample >>> 16).setWidth 64).setWidth 8).setWidth 32 = (laneByte sample 2).setWidth 32 := by
  apply BitVec.eq_of_getLsbD_eq
  intro i bound
  simp [laneByte, show 16 + i < 64 by omega]

theorem read_shr24 (sample : Sample) : sample >>> 24 = (laneByte sample 3).setWidth 32 := by
  apply BitVec.eq_of_toNat_eq
  have bound := sample.isLt
  simp only [laneByte, BitVec.toNat_ushiftRight, BitVec.toNat_setWidth, Nat.shiftRight_eq_div_pow]
  omega

theorem narrow_widened (value : BitVec 32) : (value.setWidth 64).setWidth 32 = value := by
  simp

section Addresses

variable {address : Address} {name : Register} {before after : Register → Word}

theorem factor_pos_iff : 0 < address.factor name ↔ address.Reads name := by
  rw [Address.factor, List.sum_pos_iff_exists_pos_nat]
  constructor
  · intro some
    obtain ⟨amount, member, positive⟩ := some
    obtain ⟨term, listed, rfl⟩ := List.mem_map.mp member
    split_ifs at positive with same
    · exact ⟨term.2, by rwa [← same]⟩
    · cases positive
  · intro reads
    obtain ⟨shift, listed⟩ := reads
    refine ⟨_, List.mem_map_of_mem listed, ?_⟩
    rw [if_pos rfl]
    exact Nat.two_pow_pos _

theorem factor_le : address.factor name ≤ address.terms.length * 8 := by
  obtain ⟨terms, _⟩ := address
  rw [Address.factor]
  dsimp only
  induction terms with
  | nil => exact Nat.le_refl 0
  | cons term rest ih =>
      have one : (if term.1 = name then 2 ^ term.2.val else 0) ≤ 2 ^ 3 := by
        split_ifs
        · exact Nat.pow_le_pow_right Nat.two_pos (Nat.le_of_lt_succ term.2.isLt)
        · exact Nat.zero_le _
      rw [List.map_cons, List.sum_cons, List.length_cons]
      omega

theorem effective_congr (agree : ∀ other, address.Reads other → after other = before other) :
    address.effective after = address.effective before := by
  have terms : address.terms.map (Address.value after) =
      address.terms.map (Address.value before) := by
    apply List.map_congr_left
    intro term member
    rw [Address.value, Address.value, agree term.1 ⟨term.2, member⟩]
  rw [Address.effective, terms, Address.effective]

/-- Where one register changes, an address moves by as many times its change as it has
the register in it. -/
theorem effective_moved (others : ∀ other, other ≠ name → after other = before other) :
    address.effective after = address.effective before +
      BitVec.ofNat 64 (address.factor name) * (after name - before name) := by
  obtain ⟨terms, displacement⟩ := address
  rw [Address.effective, Address.effective, Address.factor]
  dsimp only
  induction terms with
  | nil => simp
  | cons term rest ih =>
      simp only [List.map_cons, List.sum_cons, BitVec.ofNat_add]
      have own : Address.value after term = Address.value before term +
          BitVec.ofNat 64 (if term.1 = name then 2 ^ term.2.val else 0) *
            (after name - before name) := by
        unfold Address.value
        split_ifs with same
        · rw [same]
          ring
        · rw [others term.1 same]
          exact (add_zero _).symm.trans (congrArg _ (zero_mul _).symm)
      rw [own]
      linear_combination ih

end Addresses

section Allocated

variable {allocation : Allocation}

/-- Every register the sequence writes before it reads `name` for the last time is
another one. -/
theorem admitted_apart (admitted : allocation.Admitted) :
    allocation.t0 ≠ .rcx ∧ allocation.t1 ≠ .rcx ∧ allocation.t0 ≠ allocation.t1 ∧
      allocation.t0 ≠ allocation.acc ∧ allocation.t1 ≠ allocation.acc ∧
      allocation.t0 ≠ allocation.prime ∧ allocation.t1 ≠ allocation.prime := by
  have results := admitted.results
  have early0 := admitted.earlyT0
  have early1 := admitted.earlyT1
  simp only [List.nodup_cons, List.mem_cons, List.not_mem_nil, or_false, not_or] at results
  simp only [Allocation.Input, not_or] at early0 early1
  exact ⟨results.1.2, results.2.1, results.1.1, early0.1, early1.1, early0.2.1, early1.2.1⟩

/-- The store is the second instruction, right behind the one that sets `rcx`. -/
theorem execute_stored (misread : Misread) (machine : Machine) :
    (execute allocation misread machine).stored =
      some (allocation.dst.effective (write32 machine .rcx machine.xmm).register, machine.xmm) :=
  rfl

/-- What the first multiplication and the others find, in terms of the registers before the
sequence: `rcx` has the sample until its top byte is read there. -/
theorem execute_final (admitted : allocation.Admitted) (misread : Misread) (machine : Machine) :
    let byte := fun lane => (observedByte misread machine.xmm lane).setWidth 64
    let acc := if allocation.acc = .rcx then machine.xmm.setWidth 64
      else machine.register allocation.acc
    let first := if allocation.prime = .rcx then machine.xmm.setWidth 64
      else machine.register allocation.prime
    let later := if allocation.prime = .rcx then byte 3 else machine.register allocation.prime
    (execute allocation misread machine).register allocation.t0 =
      ((((byte 0 ^^^ acc) * first ^^^ byte 1) * later ^^^ byte 2) * later ^^^ byte 3) * later := by
  obtain ⟨t0, t1, results, t0Acc, t1Acc, t0Prime, t1Prime⟩ := admitted_apart admitted
  simp only [execute, laneSequence, List.foldl_cons, List.foldl_nil, step, write32,
    write64_register, write64_xmm, Allocation.place, if_true, narrow_widened, if_neg t0,
    if_neg t1, if_neg results, if_neg results.symm, if_neg t0.symm, if_neg t1.symm,
    if_neg t0Acc.symm, if_neg t1Acc.symm, if_neg t0Prime.symm, if_neg t1Prime.symm]
  rw [deliver_observed misread 0 machine.xmm _ (read_cl machine.xmm),
    deliver_observed misread 1 machine.xmm _ (read_ch machine.xmm),
    deliver_observed misread 2 machine.xmm _ (read_shr16 machine.xmm),
    deliver_observed misread 3 machine.xmm _ (read_shr24 machine.xmm)]
  split_ifs <;> rfl

/-- Where nothing that is read is in `rcx`, the sequence leaves in `t0` the accumulator
after the four observed bytes, lane 0 first. -/
theorem execute_spec (admitted : allocation.Admitted) (kept : ¬ allocation.Input .rcx)
    (misread : Misread) (machine : Machine) :
    (execute allocation misread machine).register allocation.t0 =
      digest (machine.register allocation.prime) (machine.register allocation.acc)
        [observedByte misread machine.xmm 0, observedByte misread machine.xmm 1,
          observedByte misread machine.xmm 2, observedByte misread machine.xmm 3] := by
  have acc : allocation.acc ≠ .rcx := fun same => kept (.inl same.symm)
  have prime : allocation.prime ≠ .rcx := fun same => kept (.inr (.inl same.symm))
  have final := execute_final admitted misread machine
  simp only [if_neg acc, if_neg prime] at final
  rw [final]
  simp only [digest_cons, digest_nil, absorb]
  rw [BitVec.xor_comm (machine.register allocation.acc)]

/-- With `acc` or `prime` in `rcx` a sample of zeroes leaves zero, whatever the accumulator
was. -/
theorem execute_lost (admitted : allocation.Admitted)
    (overwritten : allocation.acc = .rcx ∨ allocation.prime = .rcx) (machine : Machine)
    (zero : machine.xmm = 0) :
    (execute allocation correctReads machine).register allocation.t0 = 0 := by
  have final := execute_final admitted correctReads machine
  have bytes : ∀ lane, (observedByte correctReads machine.xmm lane).setWidth 64 = (0 : Word) := by
    intro lane
    rw [zero, observedByte, correctReads, Option.getD_none, laneByte]
    simp
  have sample : machine.xmm.setWidth 64 = (0 : Word) := by rw [zero]; rfl
  simp only [bytes, sample] at final
  rw [final]
  cases overwritten with
  | inl acc => simp [if_pos acc]
  | inr prime => simp [if_pos prime]

end Allocated

end SdcProbe.LaneSequence
