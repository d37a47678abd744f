import SdcProbe.SelectionGrammar

/-!
# Exchanging the separators of a core selection

Commas, semicolons and spaces separate alike only behind `trim`, and tabs and
line breaks never do. How far one separator may stand for another is settled by
two readings of a selection: with spaces throughout, where `trim` takes away the
most, and with no space left, where it takes away the least.
-/

namespace SdcProbe.Separators

open CNumeral TextFields AnswerText Report CpuSelection SelectionGrammar

set_option autoImplicit false

def isMark (c : Char) : Bool := c == ',' || c == ';'

/-- A comma or semicolon replaced by a space, or the reverse. -/
inductive Exchange : Char → Char → Prop where
  | kept {c : Char} : Exchange c c
  | toSpace {c : Char} : isMark c = true → Exchange c ' '
  | fromSpace {c : Char} : isMark c = true → Exchange ' ' c

/-- Any of the separators exchanged. -/
def Exchanged : Text → Text → Prop := List.Forall₂ Exchange

/-- The selected list, where the selection succeeds. -/
def outcome (width : LongWidth) (available : List CpuInfo) (before : Selection) (input : Text) :
    Option (List CpuInfo) :=
  if (parseCpuSelection width input available before).accepted then
    some (parseCpuSelection width input available before).out
  else none

def Interchangeable (width : LongWidth) (available : List CpuInfo) (before : Selection)
    (input : Text) : Prop :=
  ∀ other, Exchanged input other →
    outcome width available before other = outcome width available before input

def spaced (input : Text) : Text := input.map normalizeChar

def markSpace (c : Char) : Char := if c = ' ' then ',' else c

def marked (input : Text) : Text := input.map markSpace

def Readable (width : LongWidth) (token : Text) : Prop :=
  ∃ ends, readToken width token = .ok ends

/-- A token that names available cores only. -/
def Selectable (width : LongWidth) (available : List CpuInfo) (token : Text) : Prop :=
  ∃ ends : Int × Int, readToken width token = .ok ends ∧
    ∀ index : Nat, ends.1 ≤ index → index ≤ ends.2 → ∃ cpu ∈ available, cpu.index = index

section Characters

variable {c d : Char}

theorem mark_cases (mark : isMark c = true) : c = ',' ∨ c = ';' := by
  simpa [isMark] using mark

theorem separator_cases (separates : isSeparator c = true) : c = ' ' ∨ isMark c = true := by
  simpa [isSeparator, isMark, or_assoc] using separates

theorem blank_cases (blank : isBlank c = true) : c = ' ' ∨ c = '\t' ∨ c = '\r' ∨ c = '\n' := by
  simpa [isBlank, or_assoc] using blank

theorem blank_space (blank : isBlank c = true) : isSpace c = true := by
  rcases blank_cases blank with rfl | rfl | rfl | rfl <;> rfl

theorem blank_ne_dash (blank : isBlank c = true) : c ≠ '-' := by
  rintro rfl
  cases blank

theorem blank_not_mark (blank : isBlank c = true) : isMark c = false := by
  rcases blank_cases blank with rfl | rfl | rfl | rfl <;> rfl

theorem normalize_unmarked (plain : isMark c = false) : normalizeChar c = c := by
  unfold normalizeChar
  rw [if_neg]
  rintro (rfl | rfl) <;> cases plain

theorem normalize_mark (mark : isMark c = true) : normalizeChar c = ' ' := by
  rcases mark_cases mark with rfl | rfl <;> rfl

theorem digit_lower (digit : c.isDigit = true) : c.toLower = c := by
  unfold Char.toLower
  rw [dif_neg]
  rintro ⟨upper, _⟩
  simp only [Char.isDigit, Bool.and_eq_true, decide_eq_true_eq] at digit
  exact absurd (UInt32.le_trans upper digit.2) (by decide)

theorem exchange_normalized (exchange : Exchange c d) : normalizeChar c = normalizeChar d := by
  cases exchange with
  | kept => rfl
  | toSpace mark => rw [normalize_mark mark, normalize_unmarked rfl]
  | fromSpace mark => rw [normalize_mark mark, normalize_unmarked rfl]

theorem exchange_spaced (c : Char) : Exchange c (normalizeChar c) := by
  cases mark : isMark c with
  | true =>
      rw [normalize_mark mark]
      exact .toSpace mark
  | false =>
      rw [normalize_unmarked mark]
      exact .kept

theorem exchange_marked (c : Char) : Exchange c (markSpace c) := by
  unfold markSpace
  split_ifs with space
  · subst space
    exact .fromSpace rfl
  · exact .kept

/-- The same to the scan, and a blank wherever the other one is. -/
structure Blanker (c d : Char) : Prop where
  same : normalizeChar c = normalizeChar d
  blank : isBlank c = true → isBlank d = true

theorem marked_blanker (exchange : Exchange c d) : Blanker (markSpace c) d := by
  constructor
  · rw [← exchange_normalized (exchange_marked c), exchange_normalized exchange]
  · intro blank
    cases exchange with
    | kept =>
        unfold markSpace at blank
        split_ifs at blank with space
        · cases blank
        · exact blank
    | toSpace => rfl
    | fromSpace => cases blank

theorem spaced_blanker (c : Char) : Blanker c (normalizeChar c) := by
  constructor
  · exact exchange_normalized (exchange_spaced c)
  · intro blank
    rwa [normalize_unmarked (blank_not_mark blank)]

theorem exchange_plain (plain : isSeparator c = false) (exchange : Exchange c d) : d = c := by
  cases exchange with
  | kept => rfl
  | toSpace mark => rcases mark_cases mark with rfl | rfl <;> cases plain
  | fromSpace => cases plain

end Characters

section Texts

variable {input other : Text}

theorem exchanged_spaced (input : Text) : Exchanged input (spaced input) :=
  List.forall₂_map_right_iff.mpr (List.forall₂_same.mpr fun c _ => exchange_spaced c)

theorem exchanged_marked (input : Text) : Exchanged input (marked input) :=
  List.forall₂_map_right_iff.mpr (List.forall₂_same.mpr fun c _ => exchange_marked c)

theorem spaced_exchanged (exchanged : Exchanged input other) : spaced other = spaced input := by
  induction exchanged with
  | nil => rfl
  | cons exchange _ ih => exact congrArg₂ List.cons (exchange_normalized exchange).symm ih

theorem exchanged_plain (plain : ∀ c ∈ input, isSeparator c = false)
    (exchanged : Exchanged input other) : other = input := by
  induction exchanged with
  | nil => rfl
  | cons exchange _ ih =>
      rw [List.forall_mem_cons] at plain
      rw [exchange_plain plain.1 exchange, ih plain.2]

theorem all_marked_blanker (exchanged : Exchanged input other) :
    List.Forall₂ Blanker (marked input) other :=
  List.forall₂_map_left_iff.mpr (exchanged.imp fun _ _ => marked_blanker)

theorem all_spaced_blanker (text : Text) : List.Forall₂ Blanker text (spaced text) :=
  List.forall₂_map_right_iff.mpr (List.forall₂_same.mpr fun c _ => spaced_blanker c)

end Texts

section Tokens

variable {width : LongWidth} {c : Char}

theorem read_token_drop_first (blank : isBlank c = true) (token : Text) (ends : Int × Int)
    (accepted : readToken width (c :: token) = .ok ends) :
    token ≠ [] ∧ readToken width token = .ok ends := by
  have space := blank_space blank
  obtain ⟨read, span⟩ := (read_token_converts (List.cons_ne_nil c token) ends).mp accepted
  rcases read with ⟨low, high, cut, lowRead, highRead⟩ | ⟨uncut, whole, single⟩
  · cases low with
    | nil => exact absurd rfl cut.inside
    | cons d low =>
        have joined := cut.joined
        rw [List.cons_append, List.cons.injEq] at joined
        obtain ⟨rfl, joined⟩ := joined
        have shorterRead := converts_drop_first space lowRead
        have shorter : IsCut token low high := by
          constructor
          · exact joined
          · exact fun found => cut.first (List.mem_cons_of_mem c found)
          · exact shorterRead.given
        have given : token ≠ [] := by
          rw [joined]
          exact List.append_ne_nil_of_left_ne_nil shorterRead.given _
        constructor
        · exact given
        · apply (read_token_converts given ends).mpr
          exact ⟨.inl ⟨low, high, shorter, shorterRead, highRead⟩, span⟩
  · have shorterRead := converts_drop_first space whole
    have stays : ∀ low high, ¬ IsCut token low high := by
      intro low high cut
      apply uncut (c :: low) high
      constructor
      · rw [cut.joined, List.cons_append]
      · rw [List.mem_cons, not_or]
        exact ⟨(blank_ne_dash blank).symm, cut.first⟩
      · exact List.cons_ne_nil c low
    constructor
    · exact shorterRead.given
    · apply (read_token_converts shorterRead.given ends).mpr
      exact ⟨.inr ⟨stays, shorterRead, single⟩, span⟩

theorem read_token_drop_last (blank : isBlank c = true) (token : Text) (ends : Int × Int)
    (accepted : readToken width (token ++ [c]) = .ok ends) :
    token ≠ [] ∧ readToken width token = .ok ends := by
  have space := blank_space blank
  obtain ⟨read, span⟩ := (read_token_converts (by simp) ends).mp accepted
  rcases read with ⟨low, high, cut, lowRead, highRead⟩ | ⟨uncut, whole, single⟩
  · rcases List.eq_nil_or_concat' high with rfl | ⟨init, d, rfl⟩
    · exact absurd rfl highRead.given
    · have whole := cut.joined
      rw [← List.cons_append, ← List.append_assoc] at whole
      obtain ⟨joined, last⟩ := List.append_inj' whole rfl
      cases last
      have shorterRead := converts_drop_last space highRead
      have shorter : IsCut token low init := ⟨joined, cut.first, cut.inside⟩
      have given : token ≠ [] := by
        rw [joined]
        exact List.append_ne_nil_of_left_ne_nil cut.inside _
      constructor
      · exact given
      · apply (read_token_converts given ends).mpr
        exact ⟨.inl ⟨low, init, shorter, lowRead, shorterRead⟩, span⟩
  · have shorterRead := converts_drop_last space whole
    have stays : ∀ low high, ¬ IsCut token low high := by
      intro low high cut
      apply uncut low (high ++ [c])
      constructor
      · rw [cut.joined, List.append_assoc, List.cons_append]
      · exact cut.first
      · exact cut.inside
    constructor
    · exact shorterRead.given
    · apply (read_token_converts shorterRead.given ends).mpr
      exact ⟨.inr ⟨stays, shorterRead, single⟩, span⟩

theorem reads_drop_front {front text : Text} {spans : List (Int × Int)}
    (blank : ∀ c ∈ front, isBlank c = true)
    (reads : ReadsTo width (fields (· == ' ') (front ++ text)) spans) :
    ReadsTo width (fields (· == ' ') text) spans := by
  induction front with
  | nil => exact reads
  | cons c front ih =>
      rw [List.forall_mem_cons] at blank
      exact ih blank.2 (forall₂_fields_drop_first (read_token_drop_first blank.1) reads)

theorem reads_drop_behind {text behind : Text} {spans : List (Int × Int)}
    (blank : ∀ c ∈ behind, isBlank c = true)
    (reads : ReadsTo width (fields (· == ' ') (text ++ behind)) spans) :
    ReadsTo width (fields (· == ' ') text) spans := by
  induction behind generalizing text with
  | nil => rwa [List.append_nil] at reads
  | cons c behind ih =>
      rw [List.forall_mem_cons] at blank
      rw [List.append_cons] at reads
      exact forall₂_fields_drop_last (read_token_drop_last blank.1) (ih blank.2 reads)

end Tokens

section Trimmed

variable {text other : Text}

theorem normalized_blanker (blanker : List.Forall₂ Blanker text other) :
    text.map normalizeChar = other.map normalizeChar := by
  induction blanker with
  | nil => rfl
  | cons first _ ih => exact congrArg₂ List.cons first.same ih

theorem blank_normalized (blanker : List.Forall₂ Blanker text other)
    (blank : ∀ c ∈ other, isBlank c = true) : ∀ c ∈ text.map normalizeChar, isBlank c = true := by
  rw [normalized_blanker blanker]
  intro c found
  obtain ⟨d, inside, same⟩ := List.mem_map.mp found
  rw [← same, normalize_unmarked (blank_not_mark (blank d inside))]
  exact blank d inside

theorem first_blanker (blanker : List.Forall₂ Blanker text other)
    (first : ∀ c ∈ other.head?, isBlank c = false) : ∀ c ∈ text.head?, isBlank c = false := by
  cases blanker with
  | nil => simp
  | @cons c d _ _ here _ =>
      have plain := first d rfl
      intro e starts
      rw [List.head?_cons, Option.mem_some] at starts
      subst starts
      cases blank : isBlank c with
      | false => rfl
      | true => rw [here.blank blank] at plain; cases plain

theorem bare_blanker (blanker : List.Forall₂ Blanker text other) (bare : Bare other) :
    Bare text := by
  constructor
  · rintro rfl
    cases blanker
    exact bare.given rfl
  · exact first_blanker blanker bare.first
  · rw [← List.head?_reverse]
    apply first_blanker (List.forall₂_reverse_iff.mpr blanker)
    rw [List.head?_reverse]
    exact bare.last

theorem forall₂_append_right {R : Char → Char → Prop} {front behind : Text}
    (all : List.Forall₂ R text (front ++ behind)) :
    ∃ first last, text = first ++ last ∧ List.Forall₂ R first front ∧
      List.Forall₂ R last behind := by
  apply Exists.intro (text.take front.length)
  apply Exists.intro (text.drop front.length)
  constructor
  · exact (List.take_append_drop _ _).symm
  · exact ⟨List.forall₂_take_append text front behind all,
      List.forall₂_drop_append text front behind all⟩

/-- `trim` leaves blanks around what it leaves of a blanker text. -/
theorem trim_blanker (blanker : List.Forall₂ Blanker text other) (given : trim other ≠ []) :
    ∃ front behind, (∀ c ∈ front, isBlank c = true) ∧ (∀ c ∈ behind, isBlank c = true) ∧
      (trim text).map normalizeChar = front ++ (trim other).map normalizeChar ++ behind := by
  -- what `trim` leaves of `other` stays within what it leaves of `text`
  obtain ⟨before, after, joined, blankBefore, blankAfter⟩ := trim_spec other
  have bare := trim_bare given
  generalize trim other = middle at joined bare ⊢
  subst joined
  obtain ⟨outer, last, rfl, outerBlanker, lastBlanker⟩ := forall₂_append_right blanker
  obtain ⟨first, inner, rfl, firstBlanker, innerBlanker⟩ := forall₂_append_right outerBlanker
  apply Exists.intro ((first.dropWhile isBlank).map normalizeChar)
  apply Exists.intro ((last.rdropWhile isBlank).map normalizeChar)
  constructor
  · intro c found
    apply blank_normalized firstBlanker blankBefore
    exact List.map_subset _ (List.dropWhile_suffix isBlank).subset found
  · constructor
    · intro c found
      apply blank_normalized lastBlanker blankAfter
      exact List.map_subset _ (List.rdropWhile_prefix isBlank last).subset found
    · rw [trim_around (bare_blanker innerBlanker bare), List.map_append, List.map_append,
        normalized_blanker innerBlanker]

theorem reads_blanker {width : LongWidth} {spans : List (Int × Int)}
    (blanker : List.Forall₂ Blanker text other) (given : trim other ≠ [])
    (reads : ReadsTo width (entries text) spans) : ReadsTo width (entries other) spans := by
  obtain ⟨front, behind, blankFront, blankBehind, trimmed⟩ := trim_blanker blanker given
  unfold entries at reads ⊢
  rw [← entries_normalized, trimmed] at reads
  rw [← entries_normalized]
  rw [List.append_assoc] at reads
  exact reads_drop_behind blankBehind (reads_drop_front blankFront reads)

end Trimmed

section Outcomes

variable {width : LongWidth} {available : List CpuInfo} {before : Selection} {text other : Text}

/-- The characters of a text that asks for all cores. -/
theorem asks_characters (asks : AsksForAll text) :
    ∀ c ∈ text, isBlank c = true ∨ c.toLower ∈ "all".toList := by
  obtain ⟨front, behind, joined, blankFront, blankBehind⟩ := trim_spec text
  intro c found
  rw [joined, List.mem_append, List.mem_append] at found
  rcases found with (inFront | inside) | inBehind
  · exact .inl (blankFront c inFront)
  · rcases asks with none | all
    · rw [none] at inside
      cases inside
    · exact .inr (all ▸ List.mem_map_of_mem inside)
  · exact .inl (blankBehind c inBehind)

theorem asks_unmarked (asks : AsksForAll text) : ∀ c ∈ text, isMark c = false := by
  intro c found
  rcases asks_characters asks c found with blank | letter
  · exact blank_not_mark blank
  · cases mark : isMark c with
    | false => rfl
    | true => rcases mark_cases mark with rfl | rfl <;> revert letter <;> decide

theorem asks_no_digit (asks : AsksForAll text) : ∀ c ∈ text, c.isDigit = false := by
  intro c found
  rcases asks_characters asks c found with blank | letter
  · exact space_not_digit (blank_space blank)
  · cases digit : c.isDigit with
    | false => rfl
    | true =>
        have spelled : "all".toList = ['a', 'l', 'l'] := rfl
        rw [digit_lower digit, spelled] at letter
        simp only [List.mem_cons, List.not_mem_nil, or_false] at letter
        rcases letter with rfl | rfl | rfl <;> cases digit

theorem asks_clean (asks : AsksForAll text) : nul ∉ text := by
  intro found
  rcases asks_characters asks nul found with blank | letter
  · cases blank
  · revert letter
    decide

theorem asks_spaced (asks : AsksForAll text) : AsksForAll (spaced text) := by
  have same : text.map normalizeChar = text.map id :=
    List.map_congr_left fun c found => normalize_unmarked (asks_unmarked asks c found)
  rwa [spaced, same, List.map_id]

/-- The list that the numbers collected by the scan select. -/
def lookUp (available : List CpuInfo) (before : Selection) (wanted : List Nat) :
    Option (List CpuInfo) :=
  if wanted = [] then none
  else if (selectWanted available wanted { before with out := [] }).accepted then
    some (selectWanted available wanted { before with out := [] }).out
  else none

theorem outcome_all (asks : AsksForAll text) :
    outcome width available before text = some available := by
  rw [outcome, parse_all width available before asks, if_pos rfl]

theorem outcome_of_reads {spans : List (Int × Int)} (asks : ¬ AsksForAll text)
    (reads : ReadsTo width (entries text) spans) :
    outcome width available before text = lookUp available before (asked spans) := by
  have scanned : collectWanted width ((trim text).map normalizeChar) [] = .ok (asked spans) := by
    apply (collect_wanted_reads [] _).mpr
    rw [entries_normalized]
    exact ⟨spans, reads, rfl⟩
  by_cases none : asked spans = []
  · have refused := parse_refused width available before asks fun wanted again =>
      (Except.ok.inj (scanned.symm.trans again)) ▸ none
    rw [outcome, refused.1, lookUp, if_pos none]
    rfl
  · rw [outcome, parse_of_scan width available before asks none scanned, lookUp, if_neg none]

theorem reads_of_outcome {out : List CpuInfo} (asks : ¬ AsksForAll text)
    (selects : outcome width available before text = some out) :
    ∃ spans, ReadsTo width (entries text) spans := by
  by_contra unread
  have refused := parse_refused width available before asks fun wanted scanned => by
    obtain ⟨spans, reads, _⟩ := (collect_wanted_reads [] wanted).mp scanned
    rw [entries_normalized] at reads
    exact absurd ⟨spans, reads⟩ unread
  rw [outcome, refused.1] at selects
  cases selects

/-- A selection stays as it is when blanks come in its separators' places. -/
theorem outcome_blanker {out : List CpuInfo} (blanker : List.Forall₂ Blanker text other)
    (asks : ¬ AsksForAll text) (asksOther : ¬ AsksForAll other)
    (selects : outcome width available before text = some out) :
    outcome width available before other = some out := by
  obtain ⟨spans, reads⟩ := reads_of_outcome asks selects
  have readsOther := reads_blanker blanker (fun none => asksOther (.inl none)) reads
  rw [outcome_of_reads asksOther readsOther, ← outcome_of_reads asks reads, selects]

theorem reads_of_readable {tokens : List Text} (readable : ∀ token ∈ tokens, Readable width token) :
    ∃ spans, ReadsTo width tokens spans := by
  induction tokens with
  | nil => exact ⟨[], .nil⟩
  | cons token tokens ih =>
      rw [List.forall_mem_cons] at readable
      obtain ⟨ends, accepted⟩ := readable.1
      obtain ⟨spans, reads⟩ := ih readable.2
      exact ⟨ends :: spans, .cons accepted reads⟩

theorem readable_of_reads {tokens : List Text} {spans : List (Int × Int)}
    (reads : ReadsTo width tokens spans) : ∀ token ∈ tokens, Readable width token := by
  induction reads with
  | nil => simp
  | cons accepted _ ih => exact List.forall_mem_cons.mpr ⟨⟨_, accepted⟩, ih⟩

theorem mem_push_range {low high : Int} (index : Nat) (first : 0 ≤ low) (last : high ≤ 4095) :
    index ∈ pushRange low high [] ↔ low ≤ index ∧ index ≤ high := by
  rw [pushRange, List.nil_append, List.mem_map]
  constructor
  · rintro ⟨step, inside, rfl⟩
    rw [List.mem_range] at inside
    omega
  · rintro ⟨above, below⟩
    apply Exists.intro (index - low).toNat
    rw [List.mem_range]
    omega

theorem read_token_span {token : Text} {ends : Int × Int} (given : token ≠ [])
    (accepted : readToken width token = .ok ends) :
    0 ≤ ends.1 ∧ ends.1 ≤ ends.2 ∧ ends.2 ≤ 4095 :=
  ((read_token_converts given ends).mp accepted).2

theorem selectable_iff {tokens : List Text} {spans : List (Int × Int)}
    (given : ∀ token ∈ tokens, token ≠ []) (reads : ReadsTo width tokens spans) :
    (∀ token ∈ tokens, Selectable width available token) ↔
      ∀ index ∈ asked spans, ∃ cpu ∈ available, cpu.index = index := by
  induction reads with
  | nil => simp [asked]
  | @cons token ends tokens spans accepted _ ih =>
      rw [List.forall_mem_cons] at given
      have span := read_token_span given.1 accepted
      have sum : asked (ends :: spans) = pushRange ends.1 ends.2 [] ++ asked spans := by
        rw [asked, List.flatMap_cons, asked]
      have here : Selectable width available token ↔
          ∀ index ∈ pushRange ends.1 ends.2 [], ∃ cpu ∈ available, cpu.index = index := by
        simp only [mem_push_range _ span.1 span.2.2]
        constructor
        · rintro ⟨others, again, all⟩ index ⟨above, below⟩
          cases accepted.symm.trans again
          exact all index above below
        · intro all
          exact ⟨ends, accepted, fun index above below => all index ⟨above, below⟩⟩
      rw [List.forall_mem_cons, here, ih given.2, sum, List.forall_mem_append]

theorem asked_ne_nil {tokens : List Text} {spans : List (Int × Int)}
    (given : ∀ token ∈ tokens, token ≠ []) (reads : ReadsTo width tokens spans)
    (some : tokens ≠ []) : asked spans ≠ [] := by
  cases reads with
  | nil => exact absurd rfl some
  | @cons token ends _ spans accepted _ =>
      have span := read_token_span (given token List.mem_cons_self) accepted
      have first : ends.1.toNat ∈ pushRange ends.1 ends.2 [] :=
        (mem_push_range _ span.1 span.2.2).mpr (by omega)
      rw [asked, List.flatMap_cons]
      exact List.append_ne_nil_of_left_ne_nil (List.ne_nil_of_mem first) _

theorem selects_iff (asks : ¬ AsksForAll text) :
    (∃ out, outcome width available before text = some out) ↔
      entries text ≠ [] ∧ ∀ entry ∈ entries text, Selectable width available entry := by
  have given : ∀ entry ∈ entries text, entry ≠ [] := fun entry found => (mem_fields found).1
  constructor
  · rintro ⟨out, selects⟩
    obtain ⟨spans, reads⟩ := reads_of_outcome asks selects
    rw [outcome_of_reads asks reads, lookUp] at selects
    split_ifs at selects with none accepted
    constructor
    · intro empty
      rw [empty] at reads
      cases reads
      exact none rfl
    · exact (selectable_iff given reads).mpr ((select_wanted_accepted_iff _ _).mp accepted)
  · rintro ⟨some, selectable⟩
    obtain ⟨spans, reads⟩ := reads_of_readable fun entry found =>
      (selectable entry found).imp fun _ named => named.1
    have there := (selectable_iff given reads).mp selectable
    rw [outcome_of_reads asks reads, lookUp, if_neg (asked_ne_nil given reads some),
      if_pos ((select_wanted_accepted_iff _ _).mpr there)]
    exact ⟨_, rfl⟩

end Outcomes

section Exchanges

variable {width : LongWidth} {available : List CpuInfo} {before : Selection} {input other : Text}

theorem spaced_unmarked (input : Text) : ∀ c ∈ spaced input, isMark c = false := by
  intro c found
  obtain ⟨d, _, rfl⟩ := List.mem_map.mp found
  cases mark : isMark d with
  | true => rw [normalize_mark mark]; rfl
  | false => rwa [normalize_unmarked mark]

theorem entries_spaced (asks : ¬ AsksForAll (spaced input)) : entries (spaced input) ≠ [] := by
  have given : trim (spaced input) ≠ [] := fun none => asks (.inl none)
  have plain : ∀ c ∈ (trim (spaced input)).head?, isSeparator c = false := by
    intro c starts
    have inside := (trim_sublist _).subset (List.mem_of_mem_head? starts)
    have notBlank := (trim_bare given).first c starts
    cases separates : isSeparator c with
    | false => rfl
    | true =>
        rcases separator_cases separates with rfl | mark
        · cases notBlank
        · rw [spaced_unmarked input c inside] at mark
          cases mark
  rw [entries, fields_first given plain]
  exact List.cons_ne_nil _ _

theorem asks_exchanged (exchanged : Exchanged input other) (asks : ¬ AsksForAll (spaced input)) :
    ¬ AsksForAll other :=
  fun all => asks (spaced_exchanged exchanged ▸ asks_spaced all)

theorem marked_asks {c : Char} (found : c ∈ input) (separates : isSeparator c = true) :
    ¬ AsksForAll (marked input) := by
  intro asks
  have plain := asks_unmarked asks (markSpace c) (List.mem_map_of_mem found)
  rcases separator_cases separates with rfl | mark
  · cases plain
  · rcases mark_cases mark with rfl | rfl <;> cases plain

theorem readable_digit {token : Text} (given : token ≠ []) (clean : nul ∉ token)
    (readable : Readable width token) : ∃ c ∈ token, c.isDigit = true := by
  obtain ⟨ends, accepted⟩ := readable
  obtain ⟨first, last, _, named⟩ := (read_token_ok_iff width given clean ends).mp accepted
  rcases named.read with ⟨low, high, cut, numeral, _⟩ | ⟨_, numeral, _⟩
  · obtain ⟨c, inside, digit⟩ := numeral_digit numeral
    exact ⟨c, cut.joined ▸ List.mem_append_left _ inside, digit⟩
  · exact numeral_digit numeral

/-- A piece has its characters from the selection with spaces throughout. -/
theorem mem_spaced_of_piece {piece : Text} (found : piece ∈ entries (marked input)) :
    ∀ c ∈ piece, c ∈ spaced input := by
  intro c inside
  obtain ⟨within, plain⟩ := (mem_fields found).2 c inside
  obtain ⟨d, original, same⟩ := List.mem_map.mp ((trim_sublist _).subset within)
  unfold markSpace at same
  split_ifs at same with space
  · rw [← same] at plain
    cases plain
  · subst same
    have unmarked : isMark d = false := by
      cases mark : isMark d with
      | false => rfl
      | true => rcases mark_cases mark with rfl | rfl <;> cases plain
    rw [← normalize_unmarked unmarked]
    exact List.mem_map_of_mem original

/-- With spaces it asks for all cores, with marks it is not understood. -/
theorem marked_refused {c : Char} (found : c ∈ input) (separates : isSeparator c = true)
    (asks : AsksForAll (spaced input)) :
    outcome width available before (marked input) = none := by
  apply Option.eq_none_iff_forall_ne_some.mpr
  intro out selects
  obtain ⟨some, selectable⟩ := (selects_iff (marked_asks found separates)).mp ⟨out, selects⟩
  obtain ⟨piece, inside⟩ := List.exists_mem_of_ne_nil _ some
  have within := mem_spaced_of_piece inside
  have readable : Readable width piece := (selectable piece inside).imp fun _ named => named.1
  obtain ⟨d, inPiece, digit⟩ := readable_digit (mem_fields inside).1
    (fun zero => asks_clean asks (within _ zero)) readable
  rw [asks_no_digit asks d (within d inPiece)] at digit
  cases digit

theorem interchangeable_refused (asks : ¬ AsksForAll (spaced input))
    (refused : ∃ entry ∈ entries (spaced input), ¬ Selectable width available entry) :
    Interchangeable width available before input := by
  have none : ∀ text, Exchanged input text → outcome width available before text = none := by
    intro text exchanged
    have blanker := spaced_exchanged exchanged ▸ all_spaced_blanker text
    apply Option.eq_none_iff_forall_ne_some.mpr
    intro out selects
    have spacedSelects := outcome_blanker blanker (asks_exchanged exchanged asks) asks selects
    have all := ((selects_iff asks).mp ⟨out, spacedSelects⟩).2
    obtain ⟨entry, found, unselectable⟩ := refused
    exact unselectable (all entry found)
  intro other exchanged
  rw [none other exchanged, none input (List.forall₂_same.mpr fun _ _ => .kept)]

theorem interchangeable_readable (asks : ¬ AsksForAll (spaced input))
    (readable : ∀ piece ∈ entries (marked input), Readable width piece) :
    Interchangeable width available before input := by
  obtain ⟨spans, reads⟩ := reads_of_readable readable
  have same : ∀ text, Exchanged input text →
      outcome width available before text = lookUp available before (asked spans) := by
    intro text exchanged
    have asksText := asks_exchanged exchanged asks
    apply outcome_of_reads asksText
    exact reads_blanker (all_marked_blanker exchanged) (fun none => asksText (.inl none)) reads
  intro other exchanged
  rw [same other exchanged, same input (List.forall₂_same.mpr fun _ _ => .kept)]

end Exchanges

/-- Exactly when one separator is as good as another. -/
theorem separators_interchangeable_iff (width : LongWidth) (available : List CpuInfo)
    (before : Selection) (input : Text) :
    Interchangeable width available before input ↔
      (∀ c ∈ input, isSeparator c = false) ∨
        ¬ AsksForAll (spaced input) ∧
          ((∃ entry ∈ entries (spaced input), ¬ Selectable width available entry) ∨
            ∀ piece ∈ entries (marked input), Readable width piece) := by
  constructor
  · intro interchangeable
    -- the reading with the fewest blanks against the one with the most
    have same := (interchangeable _ (exchanged_marked input)).trans
      (interchangeable _ (exchanged_spaced input)).symm
    by_cases plain : ∀ c ∈ input, isSeparator c = false
    · exact .inl plain
    · simp only [not_forall, Bool.not_eq_false] at plain
      obtain ⟨c, found, separates⟩ := plain
      have asks : ¬ AsksForAll (spaced input) := by
        intro asks
        rw [marked_refused found separates asks, outcome_all asks] at same
        cases same
      apply Or.inr
      constructor
      · exact asks
      · by_cases selectable : ∀ entry ∈ entries (spaced input), Selectable width available entry
        · obtain ⟨out, selects⟩ := (selects_iff asks).mpr ⟨entries_spaced asks, selectable⟩
          obtain ⟨spans, reads⟩ := reads_of_outcome (marked_asks found separates)
            (same.trans selects)
          exact .inr (readable_of_reads reads)
        · simp only [not_forall] at selectable
          obtain ⟨entry, found, unselectable⟩ := selectable
          exact .inl ⟨entry, found, unselectable⟩
  · rintro (plain | ⟨asks, refused | readable⟩)
    · intro other exchanged
      rw [exchanged_plain plain exchanged]
    · exact interchangeable_refused asks refused
    · exact interchangeable_readable asks readable

/-- A comma behind `all` hides it, a space does not. -/
theorem all_comma_is_refused :
    Exchanged "all,".toList "all ".toList ∧
      outcome .bits64 [⟨0, 0, 0⟩] ⟨false, [], []⟩ "all ".toList = some [⟨0, 0, 0⟩] ∧
      outcome .bits64 [⟨0, 0, 0⟩] ⟨false, [], []⟩ "all,".toList = none := by
  constructor
  · exact .cons .kept (.cons .kept (.cons .kept (.cons (.toSpace rfl) .nil)))
  · constructor
    · exact outcome_all (.inr (by decide))
    · exact @marked_refused _ _ _ "all,".toList ',' (by decide) rfl (.inr (by decide))

end SdcProbe.Separators
