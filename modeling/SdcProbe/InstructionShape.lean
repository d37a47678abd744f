import SdcProbe.InstructionBytes

/-!
# What an instruction is made of

The bytes in front of an opcode, the opcode with the table it is looked up in, and
what stands behind it: a displacement of a branch, or a byte that tells the
operands. From these follows where an instruction has a field of four bytes that
counts from its end. The tables are those of the processor in 64-bit mode.
-/

namespace SdcProbe.InstructionShape

open Fnv1a InstructionBytes

set_option autoImplicit false

inductive Transfer where
  | jump | jumpIf | call
  deriving DecidableEq

inductive Shape where
  /-- a displacement of four bytes -/
  | near (kind : Transfer)
  /-- a displacement of one -/
  | short (kind : Transfer)
  | ret
  /-- a far return, an end or no instruction -/
  | lost
  /-- operands -/
  | operands
  /-- operands, with a jump in some of the places for them -/
  | group
  /-- operands, or the beginning of a transaction -/
  | begins
  /-- nothing that would tell operands -/
  | bare
  deriving DecidableEq

section Tables

/-- The high four bits. -/
def row (opcode : Byte) : BitVec 4 := opcode.extractLsb' 4 4

/-- A segment, a size, a lock, a repetition, and `0100wrxb`. -/
def isPrior (byte : Byte) : Bool :=
  byte ∈ [0x26, 0x2e, 0x36, 0x3e, 0x64, 0x65, 0x66, 0x67, 0xf0, 0xf2, 0xf3] || row byte = 0x4

/-- The arithmetic in the first quarter of the table, and what is in pairs and rows. -/
def plainOperands (opcode : Byte) : Bool :=
  (opcode < 0x40 && opcode.extractLsb' 0 3 < 4) || row opcode = 0x8 ||
    opcode ∈ [0x63, 0x69, 0x6b, 0xc0, 0xc1, 0xc6, 0xd0, 0xd1, 0xd2, 0xd3, 0xf6, 0xf7, 0xfe] ||
    (0xd8 ≤ opcode && opcode ≤ 0xdf)

/-- What other modes have there, `retf`, `int3`, `iret`, `int1` and `hlt`. -/
def plainLost : List Byte :=
  [0x06, 0x07, 0x0e, 0x16, 0x17, 0x1e, 0x1f, 0x27, 0x2f, 0x37, 0x3f, 0x60, 0x61, 0x82, 0x9a, 0xca,
    0xcb, 0xcc, 0xce, 0xcf, 0xd4, 0xd5, 0xd6, 0xea, 0xf1, 0xf4]

def plainShape (opcode : Byte) : Shape :=
  if opcode = 0xe8 then .near .call
  else if opcode = 0xe9 then .near .jump
  else if opcode = 0xeb then .short .jump
  else if row opcode = 0x7 ∨ (0xe0 ≤ opcode ∧ opcode ≤ 0xe3) then .short .jumpIf
  else if opcode = 0xc2 ∨ opcode = 0xc3 then .ret
  else if opcode ∈ plainLost then .lost
  else if opcode = 0xff then .group
  else if opcode = 0xc7 then .begins
  else if plainOperands opcode then .operands
  else .bare

/-- `sysret`, `ud2`, `sysenter`, `sysexit`, `rsm`, `ud1`, `ud0`, and what is free. -/
def wideLost : List Byte :=
  [0x04, 0x07, 0x0a, 0x0b, 0x0c, 0x24, 0x25, 0x26, 0x27, 0x34, 0x35, 0x36, 0x39, 0x3b, 0x3c, 0x3d,
    0x3e, 0x3f, 0x7a, 0x7b, 0xaa, 0xb9, 0xff]

/-- `syscall` and its neighbours, control registers, counters, `emms`, a segment or
`cpuid`, and `bswap`. -/
def wideBare (opcode : Byte) : Bool :=
  opcode ∈ [0x05, 0x06, 0x08, 0x09, 0x0e, 0x20, 0x21, 0x22, 0x23, 0x30, 0x31, 0x32, 0x33, 0x37,
    0x77, 0xa0, 0xa1, 0xa2, 0xa8, 0xa9] || (0xc8 ≤ opcode && opcode ≤ 0xcf)

/-- Behind `0f`. -/
def wideShape (opcode : Byte) : Shape :=
  if row opcode = 0x8 then .near .jumpIf
  else if opcode ∈ wideLost then .lost
  else if wideBare opcode then .bare
  else .operands

/-- With the number of bytes that tell it, `0f` and an opcode, or one behind `0f 38` or
`0f 3a`. -/
def behindWide : List Byte → Shape × Nat
  | [] => (.lost, 1)
  | opcode :: _ =>
      if opcode = 0x38 ∨ opcode = 0x3a then (.operands, 3) else (wideShape opcode, 2)

/-- Behind the two, three and four bytes of a vector prefix every opcode has operands. -/
def shapeOf (first : Byte) (rest : List Byte) : Shape × Nat :=
  if first = 0x0f then behindWide rest
  else if first = 0xc5 then (.operands, 3)
  else if first = 0xc4 then (.operands, 4)
  else if first = 0x62 then (.operands, 5)
  else (plainShape first, 1)

end Tables

/-- Mode 0 has `rip` for the number 5. -/
def relative (operands : Byte) : Bool := mode operands = 0 && rm operands = 5

/-- How far behind the opcode the field is. -/
def Shape.field : Shape → List Byte → Option Nat
  | .near _, _ => some 0
  | .operands, told :: _ | .group, told :: _ | .begins, told :: _ =>
      if relative told then some 1 else none
  | _, _ => none

def prior (raw : List Byte) : List Byte := raw.takeWhile isPrior

/-- With the number of bytes in front of its operands or its displacement. -/
def decodeShape (raw : List Byte) : Option (Shape × Nat) :=
  match raw.dropWhile isPrior with
  | [] => none
  | first :: rest =>
      let (shape, told) := shapeOf first rest
      some (shape, (prior raw).length + told)

/-- Where an instruction has a field of four bytes that counts from its end: the
displacement of a near branch, or the one to `rip`. -/
def operandField (raw : List Byte) : Option Nat :=
  (decodeShape raw).bind fun (shape, told) =>
    ((shape.field (raw.drop told)).map (told + ·)).filter (· + 4 ≤ raw.length)

example : operandField [0xe8, 0xfb, 0xff, 0xff, 0xff] = some 1 := by decide
example : operandField [0x48, 0x8d, 0x05, 0x10, 0x00, 0x00, 0x00] = some 3 := by decide
example : operandField [0x48, 0x89, 0xe5] = none := by decide

/-! What stands in front of the field tells all there is to tell about the instruction. -/

section Told

variable {raw : List Byte} {shape : Shape} {told place : Nat}

theorem operand_field_cases (field : operandField raw = some place) :
    place + 4 ≤ raw.length ∧ ∃ shape told offset, decodeShape raw = some (shape, told) ∧
      shape.field (raw.drop told) = some offset ∧ place = told + offset := by
  obtain ⟨⟨shape, told⟩, decoded, found⟩ := Option.bind_eq_some_iff.mp field
  obtain ⟨moved, fits⟩ := Option.filter_eq_some_iff.mp found
  obtain ⟨offset, there, same⟩ := Option.map_eq_some_iff.mp moved
  exact ⟨of_decide_eq_true fits, shape, told, offset, decoded, there, same.symm⟩

theorem operand_field_fits (field : operandField raw = some place) : place + 4 ≤ raw.length :=
  (operand_field_cases field).1

end Told

end SdcProbe.InstructionShape
