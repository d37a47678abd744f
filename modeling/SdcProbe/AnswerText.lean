import Mathlib.Data.List.DropRight
import SdcProbe.CNumeral

/-!
# Trimming and comparing answers

`trim` and `equals_ignore_case` of `sdcprobe.cpp`.
-/

namespace SdcProbe.AnswerText

open CNumeral

set_option autoImplicit false

def isBlank (c : Char) : Bool := c == ' ' || c == '\t' || c == '\r' || c == '\n'

def trim (text : Text) : Text := (text.dropWhile isBlank).rdropWhile isBlank

def equalsIgnoreCase : Text → Text → Bool
  | a :: text, b :: literal =>
      if a.toLower ≠ b.toLower then false else equalsIgnoreCase text literal
  | [], [] => true
  | _, _ => false

theorem equals_ignore_case_iff (text literal : Text) :
    equalsIgnoreCase text literal = true ↔
      text.map Char.toLower = literal.map Char.toLower := by
  induction text generalizing literal with
  | nil => cases literal <;> simp [equalsIgnoreCase]
  | cons a text ih =>
      cases literal with
      | nil => simp [equalsIgnoreCase]
      | cons b literal =>
          rw [equalsIgnoreCase, List.map_cons, List.map_cons, List.cons.injEq]
          split_ifs with differ
          · simp [differ]
          · rw [ih, not_not.mp differ]
            simp

theorem trim_sublist (text : Text) : (trim text).Sublist text :=
  (List.rdropWhile_prefix isBlank _).sublist.trans (List.dropWhile_suffix isBlank).sublist

theorem not_mem_trim {text : Text} {c : Char} (absent : c ∉ text) : c ∉ trim text :=
  fun found => absent ((trim_sublist text).subset found)

theorem trim_of_no_blank {text : Text} (plain : ∀ c ∈ text, isBlank c = false) :
    trim text = text := by
  have kept : text.dropWhile isBlank = text := by
    apply List.dropWhile_eq_self_iff.mpr
    intro given
    simp [plain _ (List.getElem_mem given)]
  rw [trim, kept]
  apply List.rdropWhile_eq_self_iff.mpr
  intro given
  simp [plain _ (List.getLast_mem given)]

theorem trim_append_blank (text : Text) {c : Char} (blank : isBlank c = true) :
    trim (text ++ [c]) = trim text := by
  rw [trim, trim, List.dropWhile_append]
  split_ifs with empty
  · rw [List.isEmpty_iff.mp empty, List.dropWhile_cons_of_pos blank, List.dropWhile_nil]
  · rw [List.rdropWhile_concat_pos isBlank _ c blank]

/-- What trimming takes away is blank. -/
theorem trim_spec (text : Text) :
    ∃ before behind, text = before ++ trim text ++ behind ∧
      (∀ c ∈ before, isBlank c = true) ∧ (∀ c ∈ behind, isBlank c = true) := by
  apply Exists.intro (text.takeWhile isBlank)
  apply Exists.intro ((text.dropWhile isBlank).rtakeWhile isBlank)
  constructor
  · rw [trim, List.append_assoc, List.rdropWhile_append_rtakeWhile, List.takeWhile_append_dropWhile]
  · exact ⟨fun c => List.mem_takeWhile_imp, fun c => List.mem_rtakeWhile_imp⟩

/-- A text without blanks at its ends. -/
structure Bare (text : Text) : Prop where
  given : text ≠ []
  first : ∀ c ∈ text.head?, isBlank c = false
  last : ∀ c ∈ text.getLast?, isBlank c = false

theorem trim_bare {text : Text} (given : trim text ≠ []) : Bare (trim text) := by
  constructor
  · exact given
  · intro c starts
    obtain ⟨behind, joined⟩ := List.rdropWhile_prefix isBlank (text.dropWhile isBlank)
    have whole : (text.dropWhile isBlank).head? = some c := by
      rw [← joined, List.head?_append]
      exact Option.or_eq_some_iff.mpr (.inl starts)
    have kept := List.head?_dropWhile_not isBlank text
    rw [whole] at kept
    simpa using kept
  · intro c ends
    rw [List.getLast?_eq_some_getLast given, Option.mem_some] at ends
    have stops := List.rdropWhile_last_not isBlank (text.dropWhile isBlank) given
    rw [← ends]
    exact Bool.eq_false_iff.mpr stops

theorem drop_blank_first {before text : Text} (first : ∀ c ∈ text.head?, isBlank c = false) :
    (before ++ text).dropWhile isBlank = before.dropWhile isBlank ++ text := by
  have kept : text.dropWhile isBlank = text := by
    cases text with
    | nil => rfl
    | cons c text => exact List.dropWhile_cons_of_neg (by simp [first c rfl])
  rw [List.dropWhile_append, kept]
  split_ifs with none
  · rw [List.isEmpty_iff.mp none, List.nil_append]
  · rfl

theorem drop_blank_last {text behind : Text} (last : ∀ c ∈ text.getLast?, isBlank c = false) :
    (text ++ behind).rdropWhile isBlank = text ++ behind.rdropWhile isBlank := by
  rw [← List.head?_reverse] at last
  rw [List.rdropWhile, List.rdropWhile, List.reverse_append, drop_blank_first last,
    List.reverse_append, List.reverse_reverse]

/-- Around a bare text only blanks are taken away. -/
theorem trim_around {before text behind : Text} (bare : Bare text) :
    trim (before ++ text ++ behind) =
      before.dropWhile isBlank ++ text ++ behind.rdropWhile isBlank := by
  have first : ∀ c ∈ (text ++ behind).head?, isBlank c = false := by
    rw [List.head?_append_of_ne_nil text bare.given]
    exact bare.first
  have last : ∀ c ∈ (before.dropWhile isBlank ++ text).getLast?, isBlank c = false := by
    rw [List.getLast?_append_of_ne_nil _ bare.given]
    exact bare.last
  rw [trim, List.append_assoc, drop_blank_first first, ← List.append_assoc, drop_blank_last last]

end SdcProbe.AnswerText
