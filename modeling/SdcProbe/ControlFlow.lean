import SdcProbe.AssemblerText
import SdcProbe.InstructionShape

/-!
# Where control goes

The instructions that send control somewhere, told by their bytes, and a machine
that follows control alone: a decision for each conditional jump, and the addresses
behind the calls that have not returned. A call through a pointer, an interrupt and
a system call are taken to come back behind it, and a transaction to abort at its
beginning or not at all. A size in front of a near branch has no meaning.
-/

namespace SdcProbe.ControlFlow

open ByteMemory Disassembly InstructionBytes InstructionShape

set_option autoImplicit false

inductive Flow where
  | next
  /-- to a place so far from the end of the instruction -/
  | transfer (kind : Transfer) (displacement : Int)
  | ret
  /-- an end, or a jump to a place that is not in the code -/
  | lost
  deriving DecidableEq

section Decoding

def near (kind : Transfer) (field : List Byte) : Flow :=
  if field.length = 4 then .transfer kind (ofBytes 32 field).toInt else .lost

def short (kind : Transfer) (field : List Byte) : Flow :=
  if field.length = 1 then .transfer kind (ofBytes 8 field).toInt else .lost

/-- For the bytes behind the opcode. The numbers 4 and 5 of the group are jumps through a
pointer and 7 is none, and `f8` is the beginning of a transaction. -/
def flowOf : Shape → List Byte → Flow
  | .near kind, field => near kind field
  | .short kind, field => short kind field
  | .ret, _ => .ret
  | .lost, _ => .lost
  | .operands, _ => .next
  | .group, [] => .lost
  | .group, operands :: _ =>
      if reg operands = 4 ∨ reg operands = 5 ∨ reg operands = 7 then .lost else .next
  | .begins, [] => .lost
  | .begins, operands :: field => if operands = 0xf8 then near .jumpIf field else .next
  | .bare, _ => .next

/-- A branch with a lock is no instruction. -/
def unlocked (priors : List Byte) (flow : Flow) : Flow :=
  if 0xf0 ∈ priors ∧ flow ≠ .next then .lost else flow

def decodeFlow (raw : List Byte) : Flow :=
  match decodeShape raw with
  | none => .lost
  | some (shape, told) => unlocked (prior raw) (flowOf shape (raw.drop told))

example : decodeFlow [0xe8, 0xfb, 0xff, 0xff, 0xff] = .transfer .call (-5) := by decide
example : decodeFlow [0x66, 0x48, 0xe8, 0xfb, 0xff, 0xff, 0xff] = .transfer .call (-5) := by decide
example : decodeFlow [0x48, 0xcb] = .lost := by decide

end Decoding

section Machine

structure Control where
  rip : Nat
  returns : List Nat
  deriving DecidableEq

/-- Behind a transfer, with a decision for a conditional one. -/
def transferred (kind : Transfer) (taken : Bool) (behind target : Nat) (control : Control) :
    Control :=
  match kind with
  | .jump => { control with rip := target }
  | .jumpIf => { control with rip := if taken then target else behind }
  | .call => { rip := target, returns := behind :: control.returns }

/-- Behind an instruction of this length. -/
def proceed (taken : Bool) (flow : Flow) (length : Nat) (control : Control) : Option Control :=
  let behind := control.rip + length
  match flow with
  | .next => some { control with rip := behind }
  | .transfer kind displacement =>
      some (transferred kind taken behind ((behind : Int) + displacement).toNat control)
  | .ret =>
      match control.returns with
      | [] => none
      | caller :: returns => some { rip := caller, returns := returns }
  | .lost => none

/-- One instruction of a program, given as its instructions at their addresses. -/
def step (code : Nat → Option (List Byte)) (taken : Bool) (control : Control) : Option Control :=
  (code control.rip).bind fun raw => proceed taken (decodeFlow raw) raw.length control

end Machine

/-! With another displacement an instruction does the same, and goes to another place
where it went to one. -/

section Replacing

variable {raw others : List Byte} {kind : Transfer} {moved : Int} {place : Nat}

end Replacing

end SdcProbe.ControlFlow
