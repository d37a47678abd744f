import SdcProbe.ByteMemory
import SdcProbe.SymbolTable

/-!
# The assembler file

The directives the generator writes, comments left out, and the bytes an
assembler makes of them. A place is the address of the next byte. The assembler
chooses the addresses of the labels, so they are a parameter.
-/

namespace SdcProbe.AssemblerText

open ByteMemory Disassembly SymbolTable

set_option autoImplicit false

/-- `sdc_rbx_fn_%d`, `sdc_rbx_trap_%d`, `sdc_rbx_d_...` and the named labels. -/
inductive Label where
  | memset
  | memsetStos
  | memsetSmall
  | fn (index : Nat)
  | trap (index : Nat)
  | data (label : DataLabel)
  | dummy
  | emitI16
  | emitI16End
  deriving DecidableEq

/-- `label` or `label+offset`. -/
structure Ref where
  label : Label
  offset : Nat := 0
  deriving DecidableEq

def Ref.address (places : Label → Nat) (symbol : Ref) : Nat := places symbol.label + symbol.offset

inductive Item where
  /-- `.byte` -/
  | bytes (raw : List Byte)
  /-- `.long symbol - . - tail` -/
  | long (symbol : Ref) (tail : Nat)
  /-- `.skip count, 0xcc` -/
  | skip (count : Nat)
  /-- `.p2align` to this boundary, filled with `0xcc` -/
  | align (boundary : Nat)
  | label (label : Label)
  deriving DecidableEq

/-- The four bytes of a displacement, low byte first. -/
def displacement (target next : Int) : List Byte := toBytes 4 (BitVec.ofInt 32 (target - next))

def padding (boundary here : Nat) : Nat := (boundary - here % boundary) % boundary

def Item.size (here : Nat) : Item → Nat
  | .bytes raw => raw.length
  | .long _ _ => 4
  | .skip count => count
  | .align boundary => padding boundary here
  | .label _ => 0

def Item.assemble (places : Label → Nat) (here : Nat) : Item → List Byte
  | .bytes raw => raw
  | .long symbol tail => displacement (symbol.address places - here) tail
  | .skip count => List.replicate count 0xcc
  | .align boundary => List.replicate (padding boundary here) 0xcc
  | .label _ => []

/-- The place behind a text. -/
def behind (here : Nat) (items : List Item) : Nat :=
  items.foldl (fun here item => here + item.size here) here

def assemble (places : Label → Nat) : Nat → List Item → List Byte
  | _, [] => []
  | here, item :: rest => item.assemble places here ++ assemble places (here + item.size here) rest

/-- The place where a text defines a label. -/
def definedAt (label : Label) : Nat → List Item → Option Nat
  | _, [] => none
  | here, item :: rest =>
      if item = .label label then some here
      else definedAt label (here + item.size here) rest

@[simp] theorem displacement_length (target next : Int) : (displacement target next).length = 4 :=
  to_bytes_length 4 _

theorem behind_cons (here : Nat) (item : Item) (rest : List Item) :
    behind here (item :: rest) = behind (here + item.size here) rest := rfl

theorem behind_append (here : Nat) (front rear : List Item) :
    behind here (front ++ rear) = behind (behind here front) rear := by
  rw [behind, List.foldl_append]
  rfl

theorem le_behind (here : Nat) (items : List Item) : here ≤ behind here items := by
  induction items generalizing here with
  | nil => exact Nat.le_refl here
  | cons item rest ih =>
      rw [behind_cons]
      exact Nat.le_trans (Nat.le_add_right here _) (ih _)

theorem item_assemble_length (places : Label → Nat) (here : Nat) (item : Item) :
    (item.assemble places here).length = item.size here := by
  cases item with
  | bytes raw => rfl
  | long symbol tail => exact displacement_length _ _
  | skip count => exact List.length_replicate
  | align boundary => exact List.length_replicate
  | label label => rfl

theorem assemble_length (places : Label → Nat) (here : Nat) (items : List Item) :
    here + (assemble places here items).length = behind here items := by
  induction items generalizing here with
  | nil => rfl
  | cons item rest ih =>
      rw [assemble, List.length_append, item_assemble_length, behind_cons, ← ih, Nat.add_assoc]

theorem assemble_append (places : Label → Nat) (here : Nat) (front rear : List Item) :
    assemble places here (front ++ rear) =
      assemble places here front ++ assemble places (behind here front) rear := by
  induction front generalizing here with
  | nil => rfl
  | cons item front ih =>
      rw [List.cons_append, assemble, assemble, ih, behind_cons, List.append_assoc]

theorem defined_at_append (label : Label) (here : Nat) (front rear : List Item)
    (elsewhere : .label label ∉ front) :
    definedAt label here (front ++ rear) = definedAt label (behind here front) rear := by
  induction front generalizing here with
  | nil => rfl
  | cons item front ih =>
      rw [List.mem_cons, not_or] at elsewhere
      rw [List.cons_append, definedAt, if_neg (Ne.symm elsewhere.1), ih _ elsewhere.2, behind_cons]

/-- As many bytes as this from anywhere, and no label among them. -/
structure Spans (items : List Item) (length : Nat) : Prop where
  behind : ∀ here, behind here items = here + length
  unlabelled : ∀ label, .label label ∉ items

theorem spans_nil : Spans [] 0 where
  behind := fun _ => rfl
  unlabelled := fun _ member => nomatch member

theorem spans_bytes (raw : List Byte) : Spans [.bytes raw] raw.length where
  behind := fun _ => rfl
  unlabelled := fun _ member => nomatch List.mem_singleton.mp member

theorem spans_long (symbol : Ref) (tail : Nat) : Spans [.long symbol tail] 4 where
  behind := fun _ => rfl
  unlabelled := fun _ member => nomatch List.mem_singleton.mp member

theorem spans_append {front rear : List Item} {length more : Nat} (first : Spans front length)
    (second : Spans rear more) : Spans (front ++ rear) (length + more) where
  behind := fun here => by rw [behind_append, first.behind, second.behind, Nat.add_assoc]
  unlabelled := fun label member => by
    cases List.mem_append.mp member with
    | inl early => exact first.unlabelled label early
    | inr late => exact second.unlabelled label late

theorem padding_reaches (boundary here : Nat) (some : 0 < boundary) :
    (here + padding boundary here) % boundary = 0 := by
  have rest := Nat.mod_lt here some
  have split := Nat.div_add_mod here boundary
  rw [padding]
  by_cases even : here % boundary = 0
  · rw [even, Nat.sub_zero, Nat.mod_self, Nat.add_zero, even]
  · have less : boundary - here % boundary < boundary := by omega
    have next : here + (boundary - here % boundary) = boundary * (here / boundary + 1) := by
      rw [Nat.mul_add, Nat.mul_one]
      omega
    rw [Nat.mod_eq_of_lt less, next, Nat.mul_mod_right]

end SdcProbe.AssemblerText
