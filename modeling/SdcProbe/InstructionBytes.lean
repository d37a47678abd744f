import SdcProbe.PayloadCall

/-!
# Instructions from their bytes

The instructions of the substitute memset as the processor decodes and performs
them. An address inside the code counts from its beginning, and the code is not
part of the memory that the instructions read and write. Code that is not
decoded ends the run without a result.
-/

namespace SdcProbe.InstructionBytes

open Fnv1a PayloadCall ByteMemory

set_option autoImplicit false

/-- The conditions of the jumps, as `jb`, `jl`, `jge` and `jg` test them. -/
inductive Condition where
  | below | less | greaterEqual | greater
  deriving DecidableEq

inductive Instruction where
  | endbr64
  | nop
  /-- `vmovd %reg,%xmm0` with the low half of the register -/
  | vmovd (source : Register)
  /-- `vpbroadcastb %xmm0,%xmm0` -/
  | vpbroadcastb
  | mov (source target : Register)
  /-- `movzbl` from the low byte of a register -/
  | movzbl (source target : Register)
  /-- `mov` of the low byte of a register to where another one points -/
  | movb (source pointer : Register)
  | cmpq (constant : Byte) (name : Register)
  /-- `cmp` with the low half of a register -/
  | cmpl (constant : Byte) (name : Register)
  | jcc (condition : Condition) (displacement : Word)
  | jmp (displacement : Word)
  | repStosb
  | ret
  deriving DecidableEq

section Decoding

/-- By their numbers. -/
def registers : List Register :=
  [.rax, .rcx, .rdx, .rbx, .rsp, .rbp, .rsi, .rdi, .r8, .r9, .r10, .r11, .r12, .r13, .r14, .r15]

def numbered (extension : Bool) (number : BitVec 3) : Register :=
  registers.getD (number.toNat + if extension then 8 else 0) .rax

/-- The byte behind an opcode: two bits for the addressing mode, then two
register numbers. Mode 3 is a register, mode 0 what it points to. -/
def mode (operands : Byte) : BitVec 2 := operands.extractLsb' 6 2

def reg (operands : Byte) : BitVec 3 := operands.extractLsb' 3 3

def rm (operands : Byte) : BitVec 3 := operands.extractLsb' 0 3

/-- Mode 0 has other meanings for the numbers 4 and 5. -/
def pointed (operands : Byte) : Bool :=
  mode operands = 0 && rm operands ≠ 4 && rm operands ≠ 5

def condition : BitVec 4 → Option Condition
  | 0x2 => some .below
  | 0xc => some .less
  | 0xd => some .greaterEqual
  | 0xf => some .greater
  | _ => none

/-- Behind a prefix `0100wrxb`, with the length of the rest of the instruction. -/
def decodeRex (w r b : Bool) : List Byte → Option (Instruction × Nat)
  | 0x88 :: operands :: _ =>
      if pointed operands then
        some (.movb (numbered r (reg operands)) (numbered b (rm operands)), 2)
      else none
  | 0x89 :: operands :: _ =>
      if w ∧ mode operands = 3 then
        some (.mov (numbered r (reg operands)) (numbered b (rm operands)), 2)
      else none
  | 0x83 :: operands :: constant :: _ =>
      if w ∧ mode operands = 3 ∧ reg operands = 7 then
        some (.cmpq constant (numbered b (rm operands)), 3)
      else none
  | 0x0f :: 0xb6 :: operands :: _ =>
      if w = false ∧ mode operands = 3 then
        some (.movzbl (numbered b (rm operands)) (numbered r (reg operands)), 3)
      else none
  | _ => none

/-- A displacement of four bytes. -/
def longDisplacement (bytes : List Byte) : Word := (ofBytes 32 (bytes.take 4)).signExtend 64

/-- The instruction at the front of the bytes, and its length. -/
def decode : List Byte → Option (Instruction × Nat)
  | 0x90 :: _ => some (.nop, 1)
  | 0xc3 :: _ => some (.ret, 1)
  | 0xf3 :: 0xaa :: _ => some (.repStosb, 2)
  | 0xf3 :: 0x0f :: 0x1e :: 0xfa :: _ => some (.endbr64, 4)
  | 0xc5 :: 0xf9 :: 0x6e :: operands :: _ =>
      if mode operands = 3 ∧ reg operands = 0 then
        some (.vmovd (numbered false (rm operands)), 4)
      else none
  | 0xc4 :: 0xe2 :: 0x79 :: 0x78 :: 0xc0 :: _ => some (.vpbroadcastb, 5)
  | 0x83 :: operands :: constant :: _ =>
      if mode operands = 3 ∧ reg operands = 7 then
        some (.cmpl constant (numbered false (rm operands)), 3)
      else none
  | 0xe9 :: rest => some (.jmp (longDisplacement rest), 5)
  | 0x0f :: opcode :: rest =>
      if opcode.extractLsb' 4 4 = 0x8 then
        (condition (opcode.extractLsb' 0 4)).map fun holds =>
          (.jcc holds (longDisplacement rest), 6)
      else none
  | opcode :: rest =>
      if opcode.extractLsb' 4 4 = 0x4 then
        (decodeRex (opcode.getLsbD 3) (opcode.getLsbD 2) (opcode.getLsbD 0) rest).map
          fun decoded => (decoded.1, decoded.2 + 1)
      else if opcode.extractLsb' 4 4 = 0x7 then
        match rest with
        | displacement :: _ =>
            (condition (opcode.extractLsb' 0 4)).map fun holds =>
              (.jcc holds (displacement.signExtend 64), 2)
        | [] => none
      else none
  | [] => none

end Decoding

/-- The flags the conditions read. -/
structure Flags where
  carry : Bool
  zero : Bool
  sign : Bool
  overflow : Bool

/-- The flags after a `cmp` of these values. -/
def flagsOf {width : Nat} (left right : BitVec width) : Flags :=
  { carry := left.ult right
    zero := left == right
    sign := (left - right).msb
    overflow := left.ssubOverflow right }

def Condition.holds (flags : Flags) : Condition → Bool
  | .below => flags.carry
  | .less => flags.sign != flags.overflow
  | .greaterEqual => flags.sign == flags.overflow
  | .greater => !flags.zero && flags.sign == flags.overflow

/-- The two flags together tell the order of the signed values. -/
theorem compare_less (left right : BitVec 32) :
    Condition.less.holds (flagsOf left right) = left.slt right := by
  have leftAbove := left.toInt_lt
  have leftBelow := BitVec.le_toInt left
  have rightAbove := right.toInt_lt
  have rightBelow := BitVec.le_toInt right
  rw [Bool.eq_iff_iff]
  simp only [Condition.holds, flagsOf, BitVec.msb_eq_toInt, BitVec.ssubOverflow,
    BitVec.slt_eq_decide, BitVec.toInt_sub, Int.bmod, bne_iff_ne, ne_eq, ← Bool.decide_or,
    decide_eq_decide, decide_eq_true_eq]
  omega

theorem compare_greater_equal (left right : BitVec 32) :
    Condition.greaterEqual.holds (flagsOf left right) = !left.slt right := by
  rw [← compare_less]
  simp only [Condition.holds, bne, Bool.not_not]

theorem compare_greater (left right : BitVec 32) :
    Condition.greater.holds (flagsOf left right) = (!left == right && !left.slt right) := by
  rw [← compare_greater_equal]
  rfl

/-- A small register, as a signed comparison with a constant sees it. -/
theorem small_slt {value : Word} (small : value.toNat < 32) (constant : Byte)
    (positive : constant.toNat < 128) :
    (value.setWidth 32).slt (constant.signExtend 32) = decide (value.toNat < constant.toNat) := by
  have width : (value.setWidth 32).toNat = value.toNat := by
    rw [BitVec.toNat_setWidth]
    omega
  have sign : constant.msb = false := by
    rw [BitVec.msb_eq_false_iff_two_mul_lt]
    omega
  have extended : (constant.signExtend 32).toNat = constant.toNat := by
    rw [BitVec.signExtend_eq_setWidth_of_msb_false sign, BitVec.toNat_setWidth]
    omega
  rw [BitVec.slt_eq_decide, BitVec.toInt_eq_toNat_of_lt (by omega),
    BitVec.toInt_eq_toNat_of_lt (by omega), width, extended]
  simp only [Nat.cast_lt]

structure Processor where
  machine : Machine
  flags : Flags
  xmm0 : BitVec 128
  rip : Word

/-- The low byte of a register. -/
def lowByte (machine : Machine) (name : Register) : Byte := (machine.register name).setWidth 8

def storeByte (machine : Machine) (address : Word) (byte : Byte) : Machine :=
  { machine with memory := storeBytes machine.memory address [byte] }

/-- One round of `stosb`. -/
def stosb (machine : Machine) : Machine :=
  let rdi := machine.register .rdi
  let stored := storeByte machine rdi (lowByte machine .rax)
  (stored.set .rdi (if machine.directionFlag then rdi - 1 else rdi + 1)).set .rcx
    (machine.register .rcx - 1)

/-- One instruction, with the address behind it. A repeated one does one round. -/
def perform (instruction : Instruction) (next : Word) (processor : Processor) :
    FuelLoop.Trip Processor (Option Return) :=
  let machine := processor.machine
  match instruction with
  | .endbr64 => .again { processor with rip := next }
  | .nop => .again { processor with rip := next }
  | .vmovd source =>
      let low : BitVec 32 := (machine.register source).setWidth 32
      .again { processor with xmm0 := low.setWidth 128, rip := next }
  | .vpbroadcastb =>
      .again { processor with xmm0 := (processor.xmm0.setWidth 8).replicate 16, rip := next }
  | .mov source target =>
      .again { processor with machine := machine.set target (machine.register source), rip := next }
  | .movzbl source target =>
      .again { processor with
        machine := machine.set target ((lowByte machine source).setWidth 64), rip := next }
  | .movb source pointer =>
      .again { processor with
        machine := storeByte machine (machine.register pointer) (lowByte machine source)
        rip := next }
  | .cmpq constant name =>
      .again { processor with
        flags := flagsOf (machine.register name) (constant.signExtend 64), rip := next }
  | .cmpl constant name =>
      .again { processor with
        flags := flagsOf ((machine.register name).setWidth 32) (constant.signExtend 32)
        rip := next }
  | .jcc condition displacement =>
      .again { processor with
        rip := if condition.holds processor.flags then next + displacement else next }
  | .jmp displacement => .again { processor with rip := next + displacement }
  | .repStosb =>
      if machine.register .rcx = 0 then .again { processor with rip := next }
      else .again { processor with machine := stosb machine }
  | .ret =>
      .leave (some ⟨machine.set .rsp (machine.register .rsp + 8), machine.top⟩)

/-- The instruction at an address, and the address behind it. -/
def fetch (code : List Byte) (rip : Word) : Option (Instruction × Word) :=
  (decode (code.drop rip.toNat)).map fun decoded =>
    (decoded.1, rip + BitVec.ofNat 64 decoded.2)

def step (code : List Byte) (processor : Processor) : FuelLoop.Trip Processor (Option Return) :=
  match fetch code processor.rip with
  | some fetched => perform fetched.1 fetched.2 processor
  | none => .leave none

/-- A call of the code, with whatever the flags and the vector register hold. -/
def execute (code : List Byte) (fuel : Nat) (machine : Machine) (flags : Flags)
    (xmm0 : BitVec 128) : Option Return :=
  (FuelLoop.run (step code) fuel ⟨machine, flags, xmm0, 0⟩).join

end SdcProbe.InstructionBytes
