import SdcProbe.AssemblerText
import SdcProbe.CallGraph

/-!
# What a reference is resolved to

`code_ref` and `data_ref`: the label of a chosen function, of a trap stub or of
carried data, the block of zeroes, or the end of the generator.
-/

namespace SdcProbe.References

open CNumeral SymbolTable CallGraph AssemblerText

set_option autoImplicit false

/-- `sorted(chosen)`; the place in it is the number of the label. -/
def chosenAddrs (closure : Closure) : List Nat :=
  (closure.chosen.map (·.function.addr)).insertionSort (· ≤ ·)

/-- `sorted(traps)` -/
def trapAddrs (closure : Closure) : List Nat :=
  (closure.traps.map Prod.fst).insertionSort (· ≤ ·)

/-- `label[addr]` -/
def fnLabel (closure : Closure) (addr : Nat) : Label := .fn ((chosenAddrs closure).idxOf addr)

/-- `trap_label[addr]` -/
def trapLabel (closure : Closure) (addr : Nat) : Label := .trap ((trapAddrs closure).idxOf addr)

/-- The label of a code address outside the current function. -/
def codeRef (binary : Binary) (closure : Closure) (target : Nat) : Option Ref :=
  if target ∈ chosenAddrs closure then some { label := fnLabel closure target }
  else if target ∈ trapAddrs closure then some { label := trapLabel closure target }
  else
    match functionAt binary target with
    | none => none
    | some inside =>
        if inside.addr ∈ chosenAddrs closure then
          some { label := fnLabel closure inside.addr, offset := target - inside.addr }
        else none

def unknownData (shown : Text) : Text :=
  "reference to runtime data with no known value: ".toList ++ shown

/-- What is shown is the name of an object that is never read, or any name with
an offset behind it. -/
def ShownCold (shown : Text) : Prop := shown ∈ dataCold ∨ "+0x".toList <:+: shown

instance (shown : Text) : Decidable (ShownCold shown) := inferInstanceAs (Decidable (_ ∨ _))

def coldRef (shown : Text) : Except Text Ref :=
  if ShownCold shown then .ok { label := .dummy } else .error (unknownData shown)

def dataRef (binary : Binary) (target : Nat) (shown : Text) : Except Text Ref :=
  match objectAt binary target with
  | none => coldRef shown
  | some obj =>
      match specialLabel obj.name with
      | some label => .ok { label := .data label, offset := target - obj.addr }
      | none => coldRef shown

section Code

variable (binary : Binary) (closure : Closure)

theorem mem_chosen_addrs (target : Nat) :
    target ∈ chosenAddrs closure ↔ target ∈ closure.chosen.map (·.function.addr) :=
  List.mem_insertionSort _

theorem mem_trap_addrs (target : Nat) :
    target ∈ trapAddrs closure ↔ target ∈ closure.traps.map Prod.fst :=
  List.mem_insertionSort _

theorem code_ref_chosen {target : Nat} (chosen : target ∈ chosenAddrs closure) :
    codeRef binary closure target = some { label := fnLabel closure target } := if_pos chosen

theorem code_ref_trapped {target : Nat} (fresh : target ∉ chosenAddrs closure)
    (trap : target ∈ trapAddrs closure) :
    codeRef binary closure target = some { label := trapLabel closure target } := by
  rw [codeRef, if_neg fresh, if_pos trap]

theorem code_ref_resolved {target : Nat}
    (labelled : target ∈ chosenAddrs closure ∨ target ∈ trapAddrs closure) :
    codeRef binary closure target ≠ none := by
  by_cases chosen : target ∈ chosenAddrs closure
  · rw [code_ref_chosen binary closure chosen]
    exact Option.some_ne_none _
  · rw [code_ref_trapped binary closure chosen (labelled.resolve_left chosen)]
    exact Option.some_ne_none _

end Code

section Data

variable (binary : Binary) (target : Nat) (shown : Text)

/-- A reference to named data: where an object is neither special nor cold the
generator stops, and a special one is met with its label and the same offset. -/
def Guarded : Prop :=
  ∀ obj ∈ objects binary, obj.Covers target →
    (specialLabel obj.name = none → obj.name ∉ dataCold →
      ∃ message, dataRef binary target shown = .error message) ∧
    ∀ label, specialLabel obj.name = some label →
      dataRef binary target shown = .ok { label := .data label, offset := target - obj.addr }

/-- The object the table has first there is not special. -/
def FirstPlain : Prop :=
  ∀ first, objectAt binary target = some first → specialLabel first.name = none

theorem data_ref_plain (plain : FirstPlain binary target) :
    dataRef binary target shown = coldRef shown := by
  unfold dataRef
  cases found : objectAt binary target with
  | none => rfl
  | some first =>
      dsimp only
      rw [plain first found]

theorem data_ref_special {first : Symbol} {label : DataLabel}
    (found : objectAt binary target = some first) (special : specialLabel first.name = some label) :
    dataRef binary target shown = .ok { label := .data label, offset := target - first.addr } := by
  rw [dataRef, found]
  dsimp only
  rw [special]

theorem cold_ref_error_iff :
    (∃ message, coldRef shown = .error message) ↔ ¬ ShownCold shown := by
  unfold coldRef
  split_ifs with cold
  · simp [cold]
  · exact iff_of_true ⟨_, rfl⟩ cold

theorem object_at_covers {first : Symbol} (found : objectAt binary target = some first) :
    first.Covers target := by
  have covers := List.find?_some found
  rwa [decide_eq_true_eq] at covers

theorem object_at_some {obj : Symbol} (listed : obj ∈ objects binary) (covers : obj.Covers target) :
    ∃ first, objectAt binary target = some first := by
  cases found : objectAt binary target with
  | none =>
      have missing := List.find?_eq_none.mp found obj listed
      rw [decide_eq_true_eq] at missing
      exact absurd covers missing
  | some first => exact ⟨first, rfl⟩

theorem first_plain_of_found {first : Symbol} (found : objectAt binary target = some first)
    (plain : specialLabel first.name = none) : FirstPlain binary target := by
  intro other same
  rw [found, Option.some.injEq] at same
  rwa [← same]

/-- Only the object the table has first there is met with a label of its own. -/
theorem data_ref_labelled_iff {obj : Symbol} (listed : obj ∈ objects binary)
    (covers : obj.Covers target) (label : DataLabel) :
    dataRef binary target shown = .ok { label := .data label, offset := target - obj.addr } ↔
      ∃ first, objectAt binary target = some first ∧ specialLabel first.name = some label ∧
        first.addr = obj.addr := by
  constructor
  · intro resolved
    obtain ⟨first, found⟩ := object_at_some binary target listed covers
    apply Exists.intro first
    cases known : specialLabel first.name with
    | none =>
        have plain := first_plain_of_found binary target found known
        rw [data_ref_plain binary target shown plain, coldRef] at resolved
        split_ifs at resolved
        cases resolved
    | some other =>
        rw [data_ref_special binary target shown found known, Except.ok.injEq,
          Ref.mk.injEq, Label.data.injEq] at resolved
        have below := (object_at_covers binary target found).1
        have objBelow := covers.1
        constructor
        · exact found
        · constructor
          · rw [resolved.1]
          · omega
  · rintro ⟨first, found, known, start⟩
    rw [data_ref_special binary target shown found known, start]

/-- The generator stops at a text that lets nothing pass, unless a special object
comes first. -/
theorem data_ref_error_iff :
    (∃ message, dataRef binary target shown = .error message) ↔
      FirstPlain binary target ∧ ¬ ShownCold shown := by
  rw [← cold_ref_error_iff]
  constructor
  · rintro ⟨message, stops⟩
    have plain : FirstPlain binary target := by
      intro first found
      cases known : specialLabel first.name with
      | none => rfl
      | some label =>
          rw [data_ref_special binary target shown found known] at stops
          cases stops
    rw [data_ref_plain binary target shown plain] at stops
    exact ⟨plain, message, stops⟩
  · rintro ⟨plain, stops⟩
    rwa [data_ref_plain binary target shown plain]

/-- A reference is guarded exactly when the special objects there are, label and
start, the one the table has first, and nothing that is shown lets an object pass
that is neither special nor cold. -/
theorem data_ref_guards_iff :
    Guarded binary target shown ↔ ∀ obj ∈ objects binary, obj.Covers target →
      (∀ label, specialLabel obj.name = some label → ∃ first, objectAt binary target = some first ∧
        specialLabel first.name = some label ∧ first.addr = obj.addr) ∧
      (specialLabel obj.name = none → obj.name ∉ dataCold →
        FirstPlain binary target ∧ ¬ ShownCold shown) := by
  apply forall₂_congr
  intro obj listed
  apply forall_congr'
  intro covers
  rw [and_comm]
  apply and_congr
  · apply forall₂_congr
    intro label _
    exact data_ref_labelled_iff binary target shown listed covers label
  · apply forall₂_congr
    intro _ _
    exact data_ref_error_iff binary target shown

end Data

end SdcProbe.References
