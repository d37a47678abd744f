import SdcProbe.Emission
import SdcProbe.MemsetCode

/-!
# The payload text and the table of its functions

The text section the generator writes, hand-written code first, and the rows of
`sdc_rbx_functions`, which `find_function` of `rbx.cpp` goes through. The names in
the rows are left out: only reports read them.
-/

namespace SdcProbe.FunctionTable

open Disassembly SymbolTable CallGraph AssemblerText References Layout MemsetCode

set_option autoImplicit false

/-- What the assembler makes of the rest of the hand-written code: the memset of
the self-test and `sdc_rbx_call` before and behind the call of the payload. -/
structure HandWritten where
  inject : List Byte
  call : List Byte
  landing : List Byte

section Text

variable (hand : HandWritten) (closure : Closure) (entry : Symbol)

def headerItems : List Item :=
  [.align page, .skip 0x400] ++ memsetItems ++
    [.align 64, .bytes hand.inject, .align 64, .bytes hand.call, .bytes [0xe8],
      .long { label := fnLabel closure entry.addr } 4, .bytes hand.landing]

/-- `ud2` under a label for every trap. -/
def trapItems : List Item :=
  (List.range (trapAddrs closure).length).flatMap fun index =>
    [.align 8, .label (.trap index), .bytes [0x0f, 0x0b]]

/-- Everything before the transplanted functions. -/
def frontItems : List Item := headerItems hand closure entry ++ trapItems closure ++ [.align page]

/-- Where the transplanted functions begin in the section. -/
def functionsStart : Nat := behind 0 (frontItems hand closure entry)

end Text

/-- Where each function begins when the first one is laid out from `cursor`. -/
def starts (cursor : Nat) : List Placed → List (Placed × Nat)
  | [] => []
  | placed :: rest =>
      (placed, cursor + placed.pad) ::
        starts (cursor + (placed.pad + placed.body.function.size)) rest

abbrev Word := BitVec 64

structure Row where
  start : Word
  size : Word
  original : Word
  deriving DecidableEq

/-- `.quad symbol, size, original` -/
def tableEntry (places : Label → Nat) (symbol : Label) (size original : Nat) : Row where
  start := BitVec.ofNat 64 (places symbol)
  size := BitVec.ofNat 64 size
  original := BitVec.ofNat 64 original

section Table

variable (places : Label → Nat) (closure : Closure)

def memsetRow : Row := tableEntry places .memset 0x140 0

def fnRow (placed : Placed) : Row :=
  tableEntry places (fnLabel closure placed.body.function.addr) placed.body.function.size
    placed.body.function.addr

def trapRows : List Row :=
  (trapAddrs closure).mapIdx fun index addr => tableEntry places (.trap index) 2 addr

/-- `sdc_rbx_functions` -/
def functionTable (order : List Placed) : List Row :=
  memsetRow places :: order.map (fnRow places closure) ++ trapRows places closure ++ [⟨0, 0, 0⟩]

end Table

/-- `address >= start && address < start + f->size` -/
def Row.Covers (row : Row) (address : Word) : Prop :=
  row.start ≤ address ∧ address < row.start + row.size

instance (row : Row) (address : Word) : Decidable (row.Covers address) :=
  inferInstanceAs (Decidable (_ ∧ _))

/-- The row found, from a pointer into the table on. -/
def findFunction (address : Word) : List Row → Option Row
  | [] => none
  | f :: rest =>
      if f.start = 0 then none
      else if f.Covers address then some f
      else findFunction address rest

/-- The addresses of the labels when the section is loaded at `base`. -/
def loadedAt (base : Nat) (text : List Item) (label : Label) : Nat :=
  base + (definedAt label 0 text).getD 0

end SdcProbe.FunctionTable
