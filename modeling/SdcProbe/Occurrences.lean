import Mathlib.Data.List.Basic

/-!
# Occurrences of a pattern

Where a pattern stands in a text, the last such place, and how many occurrences
a scan from the left counts when it goes on behind each one it finds. Such a
count sees a second occurrence exactly when two of them do not overlap.
-/

namespace Occurrences

set_option autoImplicit false

variable {Symbol : Type*}

def OccursAt (pattern text : List Symbol) (place : Nat) : Prop := pattern <+: text.drop place

section Scans

variable [DecidableEq Symbol]

def lastOccurrence (pattern : List Symbol) : List Symbol → Option Nat
  | [] => none
  | c :: text =>
      match lastOccurrence pattern text with
      | some place => some (place + 1)
      | none => if pattern <+: c :: text then some 0 else none

/-- The count behind `skip` more symbols. -/
def countFrom (pattern : List Symbol) : Nat → List Symbol → Nat
  | _, [] => 0
  | skip + 1, _ :: text => countFrom pattern skip text
  | 0, c :: text =>
      if pattern <+: c :: text then countFrom pattern (pattern.length - 1) text + 1
      else countFrom pattern 0 text

/-- Occurrences that do not overlap, found from the left. -/
def count (pattern text : List Symbol) : Nat := countFrom pattern 0 text

end Scans

section Places

variable {pattern : List Symbol}

theorem occurs_at_drop (text : List Symbol) (skip place : Nat) :
    OccursAt pattern (text.drop skip) place ↔ OccursAt pattern text (skip + place) := by
  rw [OccursAt, OccursAt, List.drop_drop]

theorem not_occurs_in_nil (given : pattern ≠ []) (place : Nat) : ¬ OccursAt pattern [] place := by
  rw [OccursAt, List.drop_nil, List.prefix_nil]
  exact given

theorem occurs_at_fits {text : List Symbol} {place : Nat} (given : pattern ≠ [])
    (occurs : OccursAt pattern text place) : place + pattern.length ≤ text.length := by
  have short := occurs.length_le
  have some := List.length_pos_iff.mpr given
  rw [List.length_drop] at short
  omega

theorem occurs_at_symbol {text : List Symbol} {place i : Nat} (occurs : OccursAt pattern text place)
    (inside : i < pattern.length) : text[place + i]? = pattern[i]? := by
  have there := List.prefix_iff_getElem?.mp occurs i inside
  rw [List.getElem?_drop] at there
  rw [there, List.getElem?_eq_getElem inside]

end Places

section Last

variable [DecidableEq Symbol] {pattern : List Symbol}

theorem last_occurrence_none_iff (given : pattern ≠ []) (text : List Symbol) :
    lastOccurrence pattern text = none ↔ ∀ place, ¬ OccursAt pattern text place := by
  induction text with
  | nil => exact iff_of_true rfl (not_occurs_in_nil given)
  | cons c text ih =>
      rw [lastOccurrence]
      cases found : lastOccurrence pattern text with
      | some place =>
          rw [found] at ih
          simp only [reduceCtorEq, false_iff]
          intro absent
          have none := ih.mpr fun later => absent (later + 1)
          cases none
      | none =>
          have later := ih.mp found
          simp only [ite_eq_right_iff, reduceCtorEq, imp_false]
          constructor
          · intro notHere place
            cases place with
            | zero => exact notHere
            | succ place => exact later place
          · exact fun absent => absent 0

theorem last_occurrence_iff (given : pattern ≠ []) (text : List Symbol) (place : Nat) :
    lastOccurrence pattern text = some place ↔
      OccursAt pattern text place ∧ ∀ later, place < later → ¬ OccursAt pattern text later := by
  induction text generalizing place with
  | nil =>
      simp only [lastOccurrence, reduceCtorEq, false_iff]
      exact fun occurs => not_occurs_in_nil given place occurs.1
  | cons c text ih =>
      rw [lastOccurrence]
      cases found : lastOccurrence pattern text with
      | some behind =>
          have there := (ih behind).mp found
          rw [Option.some.injEq]
          constructor
          · rintro rfl
            constructor
            · exact there.1
            · intro later above
              cases later with
              | zero => cases above
              | succ later => exact there.2 later (Nat.lt_of_succ_lt_succ above)
          · rintro ⟨occurs, last⟩
            cases place with
            | zero => exact absurd there.1 (last (behind + 1) (Nat.succ_pos behind))
            | succ place =>
                have same := (ih place).mpr
                  ⟨occurs, fun later above => last (later + 1) (Nat.succ_lt_succ above)⟩
                rw [found] at same
                exact congrArg (· + 1) (Option.some.inj same)
      | none =>
          have absent := (last_occurrence_none_iff given text).mp found
          simp only [Option.ite_none_right_eq_some, Option.some.injEq]
          constructor
          · rintro ⟨here, rfl⟩
            constructor
            · exact here
            · intro later above
              cases later with
              | zero => cases above
              | succ later => exact absent later
          · rintro ⟨occurs, _⟩
            cases place with
            | zero => exact ⟨occurs, rfl⟩
            | succ place => exact absurd occurs (absent place)

end Last

section Count

variable [DecidableEq Symbol] {pattern : List Symbol}

theorem count_from_drop (skip : Nat) (text : List Symbol) :
    countFrom pattern skip text = count pattern (text.drop skip) := by
  induction text generalizing skip with
  | nil =>
      rw [List.drop_nil, count]
      cases skip <;> rfl
  | cons c text ih =>
      cases skip with
      | zero => rfl
      | succ skip => exact ih skip

theorem count_here (given : pattern ≠ []) {text : List Symbol} (here : pattern <+: text) :
    count pattern text = count pattern (text.drop pattern.length) + 1 := by
  cases text with
  | nil => exact absurd (List.prefix_nil.mp here) given
  | cons c text =>
      cases pattern with
      | nil => exact absurd rfl given
      | cons first pattern =>
          rw [count, countFrom, if_pos here, count_from_drop, List.length_cons,
            Nat.add_sub_cancel, List.drop_succ_cons]

theorem count_later {c : Symbol} {text : List Symbol} (absent : ¬ pattern <+: c :: text) :
    count pattern (c :: text) = count pattern text := by
  rw [count, countFrom, if_neg absent, count]

theorem count_pos_iff (given : pattern ≠ []) (text : List Symbol) :
    1 ≤ count pattern text ↔ ∃ place, OccursAt pattern text place := by
  induction text with
  | nil =>
      constructor
      · intro some
        cases some
      · rintro ⟨place, occurs⟩
        exact absurd occurs (not_occurs_in_nil given place)
  | cons c text ih =>
      by_cases here : pattern <+: c :: text
      · rw [count_here given here]
        exact iff_of_true (Nat.succ_pos _) ⟨0, here⟩
      · rw [count_later here, ih]
        constructor
        · rintro ⟨place, occurs⟩
          exact ⟨place + 1, occurs⟩
        · rintro ⟨place, occurs⟩
          cases place with
          | zero => exact absurd occurs here
          | succ place => exact ⟨place, occurs⟩

/-- Two are counted exactly when two do not overlap. -/
theorem two_counted_iff (given : pattern ≠ []) (text : List Symbol) :
    2 ≤ count pattern text ↔ ∃ first second, first + pattern.length ≤ second ∧
      OccursAt pattern text first ∧ OccursAt pattern text second := by
  induction text with
  | nil =>
      constructor
      · intro some
        cases some
      · rintro ⟨first, _, _, occurs, _⟩
        exact absurd occurs (not_occurs_in_nil given first)
  | cons c text ih =>
      by_cases here : pattern <+: c :: text
      · rw [count_here given here, Nat.succ_le_succ_iff, count_pos_iff given]
        constructor
        · rintro ⟨place, occurs⟩
          rw [occurs_at_drop] at occurs
          exact ⟨0, _, by omega, here, occurs⟩
        · rintro ⟨first, second, apart, _, occurs⟩
          apply Exists.intro (second - pattern.length)
          rw [occurs_at_drop]
          have whole : pattern.length + (second - pattern.length) = second := by omega
          rwa [whole]
      · rw [count_later here, ih]
        constructor
        · rintro ⟨first, second, apart, occurs, again⟩
          exact ⟨first + 1, second + 1, by omega, occurs, again⟩
        · rintro ⟨first, second, apart, occurs, again⟩
          cases first with
          | zero => exact absurd occurs here
          | succ first =>
              cases second with
              | zero => omega
              | succ second => exact ⟨first, second, by omega, occurs, again⟩

end Count

end Occurrences
