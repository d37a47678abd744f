import Mathlib.Data.List.Forall2
import Mathlib.Data.List.TakeWhile

/-!
# The fields of a text

What stands between the separators of a text, empty places left out. A scanner
that skips separators and then takes everything up to the next one reads the
fields one after the other.
-/

namespace TextFields

set_option autoImplicit false

variable {Symbol : Type*}

def fields (separator : Symbol → Bool) (text : List Symbol) : List (List Symbol) :=
  (text.splitOnP separator).filter fun field => !field.isEmpty

variable {separator : Symbol → Bool}

theorem fields_nil : fields separator [] = [] := rfl

theorem fields_of_no_separator {text : List Symbol} (given : text ≠ [])
    (plain : ∀ c ∈ text, separator c = false) : fields separator text = [text] := by
  rw [fields, List.splitOnP_eq_singleton plain]
  simp [given]

theorem fields_append_separator {c : Symbol} (front behind : List Symbol)
    (separates : separator c = true) :
    fields separator (front ++ c :: behind) =
      fields separator front ++ fields separator behind := by
  rw [fields, List.splitOnP_append_cons front behind separates, List.filter_append]
  rfl

theorem fields_cons_separator {c : Symbol} (text : List Symbol)
    (separates : separator c = true) : fields separator (c :: text) = fields separator text :=
  fields_append_separator [] text separates

theorem fields_skip (text : List Symbol) :
    fields separator (text.dropWhile separator) = fields separator text := by
  induction text with
  | nil => rfl
  | cons c text ih =>
      cases separates : separator c with
      | true => rw [List.dropWhile_cons_of_pos separates, ih, fields_cons_separator _ separates]
      | false => rw [List.dropWhile_cons_of_neg (by simp [separates])]

/-- The first field ends at the next separator. -/
theorem fields_first {text : List Symbol} (given : text ≠ [])
    (starts : ∀ c ∈ text.head?, separator c = false) :
    fields separator text =
      text.takeWhile (fun c => !separator c) ::
        fields separator (text.dropWhile fun c => !separator c) := by
  have plain : ∀ c ∈ text.takeWhile (fun c => !separator c), separator c = false := by
    intro c found
    simpa using List.mem_takeWhile_imp found
  have taken : text.takeWhile (fun c => !separator c) ≠ [] := by
    cases text with
    | nil => exact absurd rfl given
    | cons c tail => simp [starts c rfl]
  have whole := (List.takeWhile_append_dropWhile (p := fun c => !separator c) (l := text)).symm
  cases behind : text.dropWhile fun c => !separator c with
  | nil =>
      rw [behind, List.append_nil] at whole
      rw [← whole, fields_of_no_separator given (whole ▸ plain), fields_nil]
  | cons c rest =>
      have stops := List.head?_dropWhile_not (fun c => !separator c) text
      rw [behind] at stops whole
      have separates : separator c = true := by simpa using stops
      calc fields separator text
          = fields separator (text.takeWhile (fun c => !separator c) ++ c :: rest) :=
            congrArg _ whole
        _ = fields separator (text.takeWhile fun c => !separator c) ++ fields separator rest :=
            fields_append_separator _ _ separates
        _ = _ := by
            rw [fields_of_no_separator taken plain, fields_cons_separator rest separates]
            rfl

/-- Fields do not depend on which separator stands where. -/
theorem fields_map {other : Symbol → Bool} {f : Symbol → Symbol}
    (separates : ∀ c, separator (f c) = other c) (keeps : ∀ c, other c = false → f c = c)
    (text : List Symbol) : fields separator (text.map f) = fields other text := by
  have split : (text.map f).splitOnP separator = text.splitOnP other := by
    induction text with
    | nil => rfl
    | cons c text ih =>
        rw [List.map_cons, List.splitOnP_cons_eq_if_modifyHead,
          List.splitOnP_cons_eq_if_modifyHead, ih, separates]
        cases separator_c : other c with
        | true => rfl
        | false => rw [keeps c separator_c]
  rw [fields, split, fields]

theorem mem_split {text field : List Symbol} (found : field ∈ text.splitOnP separator) :
    ∀ c ∈ field, c ∈ text ∧ separator c = false := by
  induction text generalizing field with
  | nil =>
      rw [List.splitOnP_nil, List.mem_singleton] at found
      subst found
      simp
  | cons c text ih =>
      have later : ∀ other ∈ text.splitOnP separator,
          ∀ d ∈ other, d ∈ c :: text ∧ separator d = false := by
        intro other within d inside
        have reached := ih within d inside
        exact ⟨List.mem_cons_of_mem c reached.1, reached.2⟩
      rw [List.splitOnP_cons_eq_if_modifyHead] at found
      split_ifs at found with separates
      · rcases List.mem_cons.mp found with rfl | tail
        · simp
        · exact later field tail
      · obtain ⟨first, rest, split⟩ :=
          List.exists_cons_of_ne_nil (List.splitOnP_ne_nil separator text)
        rw [split] at found later
        rcases List.mem_cons.mp found with rfl | tail
        · intro d inside
          rcases List.mem_cons.mp inside with rfl | inside
          · exact ⟨List.mem_cons_self, Bool.eq_false_iff.mpr separates⟩
          · exact later first List.mem_cons_self d inside
        · exact later field (List.mem_cons_of_mem first tail)

theorem mem_fields {text field : List Symbol} (found : field ∈ fields separator text) :
    field ≠ [] ∧ ∀ c ∈ field, c ∈ text ∧ separator c = false := by
  have given := List.mem_filter.mp found
  constructor
  · simpa using given.2
  · exact mem_split given.1

section Edges

variable {Value : Type*} {Reads : List Symbol → Value → Prop} {c : Symbol}

/-- Readings of the fields carry over when the text loses its first character,
as they do for a single field. -/
theorem forall₂_fields_drop_first {text : List Symbol} {values : List Value}
    (shorter : ∀ field value, Reads (c :: field) value → field ≠ [] ∧ Reads field value)
    (reads : List.Forall₂ Reads (fields separator (c :: text)) values) :
    List.Forall₂ Reads (fields separator text) values := by
  cases separates : separator c with
  | true => rwa [fields_cons_separator text separates] at reads
  | false =>
      rw [fields_first (List.cons_ne_nil c text) (by simpa using separates),
        List.takeWhile_cons_of_pos (by simp [separates]),
        List.dropWhile_cons_of_pos (by simp [separates])] at reads
      cases reads with
      | @cons _ value _ values first rest =>
          obtain ⟨given, read⟩ := shorter _ _ first
          have starts : ∀ d ∈ text.head?, separator d = false := by
            cases text with
            | nil => simp
            | cons d text =>
                cases stops : separator d with
                | false => simpa using stops
                | true => exact absurd (List.takeWhile_cons_of_neg (by simp [stops])) given
          have some : text ≠ [] := by
            rintro rfl
            exact given rfl
          rw [fields_first some starts]
          exact .cons read rest

theorem split_append_plain (text : List Symbol) (plain : separator c = false) :
    ∃ front last, text.splitOnP separator = front ++ [last] ∧
      (text ++ [c]).splitOnP separator = front ++ [last ++ [c]] := by
  induction text with
  | nil => exact ⟨[], [], by simp [List.splitOnP_cons_eq_if_modifyHead, plain]⟩
  | cons d text ih =>
      obtain ⟨front, last, split, longer⟩ := ih
      rw [List.cons_append, List.splitOnP_cons_eq_if_modifyHead,
        List.splitOnP_cons_eq_if_modifyHead, split, longer]
      split_ifs
      · exact ⟨[] :: front, last, rfl, rfl⟩
      · cases front with
        | nil => exact ⟨[], d :: last, rfl, rfl⟩
        | cons first front => exact ⟨(d :: first) :: front, last, rfl, rfl⟩

theorem forall₂_last {front : List (List Symbol)} {last : List Symbol} {values : List Value}
    (reads : List.Forall₂ Reads (front ++ [last]) values) :
    ∃ others value, values = others ++ [value] ∧ List.Forall₂ Reads front others ∧
      Reads last value := by
  induction front generalizing values with
  | nil =>
      cases reads with
      | @cons _ value _ _ read rest =>
          cases rest
          exact ⟨[], value, rfl, .nil, read⟩
  | cons first front ih =>
      cases reads with
      | @cons _ value _ _ read rest =>
          obtain ⟨others, final, split, before, readLast⟩ := ih rest
          exact ⟨value :: others, final, congrArg _ split, .cons read before, readLast⟩

/-- The same at the other end. -/
theorem forall₂_fields_drop_last {text : List Symbol} {values : List Value}
    (shorter : ∀ field value, Reads (field ++ [c]) value → field ≠ [] ∧ Reads field value)
    (reads : List.Forall₂ Reads (fields separator (text ++ [c])) values) :
    List.Forall₂ Reads (fields separator text) values := by
  cases separates : separator c with
  | true => rwa [fields_append_separator text [] separates, fields_nil, List.append_nil] at reads
  | false =>
      obtain ⟨front, last, split, longer⟩ := split_append_plain text separates
      unfold fields at reads ⊢
      rw [longer, List.filter_append] at reads
      rw [split, List.filter_append]
      have kept : [last ++ [c]].filter (fun field => !field.isEmpty) = [last ++ [c]] := by simp
      rw [kept] at reads
      obtain ⟨others, value, rfl, before, read⟩ := forall₂_last reads
      obtain ⟨given, readShorter⟩ := shorter last value read
      have stays : [last].filter (fun field => !field.isEmpty) = [last] := by simp [given]
      rw [stays]
      exact List.rel_append before (.cons readShorter .nil)

end Edges

end TextFields
