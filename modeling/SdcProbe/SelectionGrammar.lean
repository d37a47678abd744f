import SdcProbe.CpuSelection
import SdcProbe.TextFields

/-!
# What a core selection means

The selections a person may type, apart from how they are read: entries between
separators, each a core number or a range, all of them numbers of available
cores. `parse_cpu_selection` accepts exactly these and selects the cores in the
order in which they are first mentioned.
-/

namespace SdcProbe.SelectionGrammar

open CNumeral TextFields AnswerText Report CpuSelection

set_option autoImplicit false

def isSeparator (c : Char) : Bool := c == ' ' || c == ',' || c == ';'

def entries (input : Text) : List Text := fields isSeparator (trim input)

/-- Nothing but blanks, or any casing of `all`. -/
def AsksForAll (input : Text) : Prop :=
  trim input = [] ∨ (trim input).map Char.toLower = "all".toList

/-- An entry cut at its first dash, which is not its first character. -/
structure IsCut (entry low high : Text) : Prop where
  joined : entry = low ++ '-' :: high
  first : '-' ∉ low
  inside : low ≠ []

/-- The cores `first` to `last` that an entry asks for. -/
structure Names (entry : Text) (first last : Nat) : Prop where
  read : (∃ low high, IsCut entry low high ∧ IsNumeral low first ∧ IsNumeral high last) ∨
    (∀ low high, ¬ IsCut entry low high) ∧ IsNumeral entry first ∧ last = first
  ordered : first ≤ last
  bounded : last ≤ 4095

def spanNumbers (span : Nat × Nat) : List Nat := List.range' span.1 (span.2 + 1 - span.1)

/-- The entries of a selection with the span each one names. -/
def Denotes (input : Text) (spans : List (Nat × Nat)) : Prop :=
  List.Forall₂ (fun entry span => Names entry span.1 span.2) (entries input) spans

def numbers (spans : List (Nat × Nat)) : List Nat := spans.flatMap spanNumbers

/-- A selection of available cores, at least one. -/
def Acceptable (input : Text) (available : List CpuInfo) : Prop :=
  entries input ≠ [] ∧ ∃ spans, Denotes input spans ∧
    ∀ index ∈ numbers spans, ∃ cpu ∈ available, cpu.index = index

/-- The cores a selection names, each once, in the order of first mention. -/
def IsSelection (input : Text) (available selected : List CpuInfo) : Prop :=
  (∀ cpu ∈ selected, cpu ∈ available) ∧
    ∃ spans, Denotes input spans ∧ selected.map CpuInfo.index = (numbers spans).eraseDups

section Tokens

variable {width : LongWidth} {token : Text}

theorem cut_at_dash {low high : Text} (cut : IsCut token low high) :
    token.idxOf '-' = low.length ∧ token.take (token.idxOf '-') = low ∧
      token.drop (token.idxOf '-' + 1) = high := by
  have place : token.idxOf '-' = low.length := by
    rw [cut.joined, List.idxOf_append_of_notMem cut.first, List.idxOf_cons_self, Nat.add_zero]
  rw [place]
  rw [cut.joined]
  refine ⟨rfl, List.take_left, ?_⟩
  rw [← List.drop_drop, List.drop_left, List.drop_one, List.tail_cons]

theorem cut_iff_dash :
    (∃ low high, IsCut token low high) ↔
      token.idxOf '-' ≠ token.length ∧ token.idxOf '-' ≠ 0 := by
  constructor
  · rintro ⟨low, high, cut⟩
    rw [(cut_at_dash cut).1]
    have given := List.length_pos_iff.mpr cut.inside
    rw [cut.joined, List.length_append, List.length_cons]
    omega
  · rintro ⟨there, later⟩
    have found : '-' ∈ token := by
      by_contra absent
      exact there (List.idxOf_eq_length absent)
    obtain ⟨low, high, joined, first⟩ := List.eq_append_cons_of_mem found
    apply Exists.intro low
    apply Exists.intro high
    apply IsCut.mk joined first
    rintro rfl
    rw [joined] at later
    exact later List.idxOf_cons_self

theorem check_bounds_ok_iff (low high : Int) (ends : Int × Int) :
    checkBounds token low high = .ok ends ↔ 0 ≤ low ∧ high ≤ 4095 ∧ ends = (low, high) := by
  unfold checkBounds kMaxCoreIndex
  split_ifs with negative large
  · simp only [false_iff]
    omega
  · simp only [false_iff]
    omega
  · rw [Except.ok.injEq, eq_comm]
    constructor
    · intro same
      exact ⟨by omega, by omega, same⟩
    · exact fun checked => checked.2.2

/-- What `readToken` accepts, whatever the characters. -/
theorem read_token_converts (given : token ≠ []) (ends : Int × Int) :
    readToken width token = .ok ends ↔
      ((∃ low high, IsCut token low high ∧
          Converts width low ends.1 ∧ Converts width high ends.2) ∨
        (∀ low high, ¬ IsCut token low high) ∧
          Converts width token ends.1 ∧ ends.2 = ends.1) ∧
      0 ≤ ends.1 ∧ ends.1 ≤ ends.2 ∧ ends.2 ≤ 4095 := by
  unfold readToken
  by_cases cuts : ∃ low high, IsCut token low high
  · simp only [if_pos (cut_iff_dash.mp cuts)]
    obtain ⟨low, high, cut⟩ := cuts
    simp only [(cut_at_dash cut).2.1, (cut_at_dash cut).2.2]
    constructor
    · intro accepted
      split_ifs at accepted with lowBad highBad backwards
      rw [not_or, not_not] at lowBad highBad
      have checked := (check_bounds_ok_iff _ _ _).mp accepted
      rw [checked.2.2]
      constructor
      · exact .inl ⟨low, high, cut, ⟨lowBad.2, rfl, lowBad.1⟩, ⟨highBad.2, rfl, highBad.1⟩⟩
      · exact ⟨checked.1, not_lt.mp backwards, checked.2.1⟩
    · rintro ⟨⟨first, last, other, lowRead, highRead⟩ | ⟨uncut, _⟩, span⟩
      · have sameLow := (cut_at_dash other).2.1.symm.trans (cut_at_dash cut).2.1
        have sameHigh := (cut_at_dash other).2.2.symm.trans (cut_at_dash cut).2.2
        subst sameLow sameHigh
        rw [if_neg (by simp [lowRead.given, lowRead.ended]),
          if_neg (by simp [highRead.given, highRead.ended]), lowRead.read, highRead.read,
          if_neg (not_lt.mpr span.2.1)]
        exact (check_bounds_ok_iff _ _ _).mpr ⟨span.1, span.2.2, rfl⟩
      · exact absurd cut (uncut low high)
  · simp only [if_neg (mt cut_iff_dash.mpr cuts)]
    have uncut : ∀ low high, ¬ IsCut token low high := fun low high cut => cuts ⟨low, high, cut⟩
    constructor
    · intro accepted
      split_ifs at accepted with bad
      have checked := (check_bounds_ok_iff _ _ _).mp accepted
      rw [checked.2.2]
      constructor
      · exact .inr ⟨uncut, ⟨given, rfl, not_not.mp bad⟩, rfl⟩
      · exact ⟨checked.1, le_refl _, checked.2.1⟩
    · rintro ⟨⟨low, high, cut, _⟩ | ⟨_, read, single⟩, span⟩
      · exact absurd cut (uncut low high)
      · rw [if_neg (by simp [read.ended]), read.read]
        exact (check_bounds_ok_iff _ _ _).mpr ⟨span.1, single ▸ span.2.2, Prod.ext rfl single⟩

theorem read_token_ok_iff (width : LongWidth) (given : token ≠ []) (clean : nul ∉ token)
    (ends : Int × Int) :
    readToken width token = .ok ends ↔
      ∃ first last : Nat, ends = ((first : Int), (last : Int)) ∧ Names token first last := by
  have cutClean : ∀ {low high}, IsCut token low high → nul ∉ low ∧ nul ∉ high := by
    intro low high cut
    constructor
    · exact fun found => clean (cut.joined ▸ List.mem_append_left _ found)
    · exact fun found => clean (cut.joined ▸ List.mem_append_right _ (List.mem_cons_of_mem _ found))
  rw [read_token_converts given]
  obtain ⟨start, stop⟩ := ends
  constructor
  · rintro ⟨read, low, ordered, high⟩
    dsimp only at read low ordered high
    lift start to Nat using low
    lift stop to Nat using (Int.natCast_nonneg start).trans ordered
    apply Exists.intro start
    apply Exists.intro stop
    refine ⟨rfl, ?_, Int.ofNat_le.mp ordered, Int.ofNat_le.mp high⟩
    rcases read with ⟨first, last, cut, lowRead, highRead⟩ | ⟨uncut, whole, single⟩
    · have lowNumeral := (converts_iff_numeral (cutClean cut).1 (by omega) (by omega)).mp lowRead
      have highNumeral := (converts_iff_numeral (cutClean cut).2 (by omega) (by omega)).mp highRead
      exact .inl ⟨first, last, cut, lowNumeral, highNumeral⟩
    · have numeral := (converts_iff_numeral clean (by omega) (by omega)).mp whole
      exact .inr ⟨uncut, numeral, Int.ofNat.inj single⟩
  · rintro ⟨first, last, same, named⟩
    cases same
    have ordered := Int.ofNat_le.mpr named.ordered
    have bounded := Int.ofNat_le.mpr named.bounded
    refine ⟨?_, Int.natCast_nonneg first, ordered, bounded⟩
    rcases named.read with ⟨low, high, cut, lowNumeral, highNumeral⟩ | ⟨uncut, numeral, single⟩
    · have lowRead := (@converts_iff_numeral width _ _ (cutClean cut).1 (by omega) (by omega)).mpr
        lowNumeral
      have highRead := (@converts_iff_numeral width _ _ (cutClean cut).2 (by omega)
        (by omega)).mpr highNumeral
      exact .inl ⟨low, high, cut, lowRead, highRead⟩
    · have whole := (@converts_iff_numeral width _ _ clean (by omega) (by omega)).mpr numeral
      exact .inr ⟨uncut, whole, congrArg _ single⟩

theorem names_iff_read (width : LongWidth) (given : token ≠ []) (clean : nul ∉ token)
    (first last : Nat) :
    Names token first last ↔ readToken width token = .ok ((first : Int), (last : Int)) := by
  rw [read_token_ok_iff width given clean]
  constructor
  · intro named
    exact ⟨first, last, rfl, named⟩
  · rintro ⟨other, others, same, named⟩
    rw [Prod.mk.injEq, Int.natCast_inj, Int.natCast_inj] at same
    rwa [same.1, same.2]

theorem names_unique (given : token ≠ []) (clean : nul ∉ token) {span other : Nat × Nat}
    (named : Names token span.1 span.2) (again : Names token other.1 other.2) : span = other := by
  have first := (names_iff_read .bits32 given clean _ _).mp named
  have second := (names_iff_read .bits32 given clean _ _).mp again
  have same := Except.ok.inj (first.symm.trans second)
  rw [Prod.mk.injEq, Int.natCast_inj, Int.natCast_inj] at same
  exact Prod.ext same.1 same.2

theorem push_range_span (first last : Nat) (bounded : last ≤ 4095) (wanted : List Nat) :
    pushRange first last wanted = wanted ++ spanNumbers (first, last) := by
  rw [pushRange, spanNumbers, List.range'_eq_map_range]
  have length : ((last : Int) - first + 1).toNat = last + 1 - first := by omega
  rw [length]
  apply congrArg
  apply List.map_congr_left
  intro step inside
  rw [List.mem_range] at inside
  omega

end Tokens

section Scan

variable {width : LongWidth}

theorem numbers_cons (span : Nat × Nat) (spans : List (Nat × Nat)) :
    numbers (span :: spans) = spanNumbers span ++ numbers spans := by
  rw [numbers, List.flatMap_cons, numbers]

theorem next_field {text : Text} {c : Char} {tail : Text}
    (skipped : text.dropWhile (· == ' ') = c :: tail) :
    fields (· == ' ') text = (c :: tail).takeWhile (· != ' ') ::
      fields (· == ' ') ((c :: tail).dropWhile (· != ' ')) := by
  rw [← fields_skip text, skipped]
  apply fields_first (List.cons_ne_nil c tail)
  have starts := List.head?_dropWhile_not (· == ' ') text
  rw [skipped] at starts
  simpa using starts

/-- The ends each token of a list is read as. -/
def ReadsTo (width : LongWidth) : List Text → List (Int × Int) → Prop :=
  List.Forall₂ fun token ends => readToken width token = .ok ends

/-- What the scan collects from them. -/
def asked (spans : List (Int × Int)) : List Nat :=
  spans.flatMap fun ends => pushRange ends.1 ends.2 []

theorem push_range_asked (low high : Int) (wanted : List Nat) (spans : List (Int × Int)) :
    pushRange low high wanted ++ asked spans = wanted ++ asked ((low, high) :: spans) := by
  simp [asked, pushRange]

/-- The scan reads every field, whatever it had collected before. -/
theorem collect_wanted_reads {text : Text} (wanted total : List Nat) :
    collectWanted width text wanted = .ok total ↔
      ∃ spans, ReadsTo width (fields (· == ' ') text) spans ∧ total = wanted ++ asked spans := by
  fun_induction collectWanted width text wanted with
  | case1 text wanted skipped =>
      have none : fields (· == ' ') text = [] := by
        rw [← fields_skip text, skipped, fields_nil]
      rw [none, Except.ok.injEq]
      constructor
      · rintro rfl
        exact ⟨[], .nil, (List.append_nil _).symm⟩
      · rintro ⟨spans, reads, sum⟩
        cases reads
        rw [sum, asked, List.flatMap_nil, List.append_nil]
  | case2 text wanted c tail skipped message refused =>
      simp only [reduceCtorEq, false_iff]
      rintro ⟨spans, reads, _⟩
      rw [next_field skipped] at reads
      cases reads with
      | cons here _ =>
          rw [refused] at here
          cases here
  | case3 text wanted c tail skipped low high accepted ih =>
      rw [next_field skipped, ih]
      constructor
      · rintro ⟨spans, reads, sum⟩
        refine ⟨(low, high) :: spans, .cons accepted reads, ?_⟩
        rw [sum, push_range_asked]
      · rintro ⟨spans, reads, sum⟩
        cases reads with
        | @cons _ ends _ later here reads =>
            have same := Except.ok.inj (accepted.symm.trans here)
            subst same
            refine ⟨later, reads, ?_⟩
            rw [sum, push_range_asked]

theorem asked_cons (first last : Nat) (bounded : last ≤ 4095) (spans : List (Int × Int)) :
    asked (((first : Int), (last : Int)) :: spans) = spanNumbers (first, last) ++ asked spans := by
  rw [asked, List.flatMap_cons, push_range_span first last bounded, List.nil_append, asked]

theorem names_of_reads {tokens : List Text} {spans : List (Int × Int)}
    (plain : ∀ token ∈ tokens, token ≠ [] ∧ nul ∉ token) (reads : ReadsTo width tokens spans) :
    ∃ named : List (Nat × Nat),
      List.Forall₂ (fun entry span => Names entry span.1 span.2) tokens named ∧
        asked spans = numbers named := by
  induction reads with
  | nil => exact ⟨[], .nil, rfl⟩
  | @cons token ends tokens spans accepted _ ih =>
      rw [List.forall_mem_cons] at plain
      obtain ⟨named, names, sum⟩ := ih plain.2
      obtain ⟨first, last, same, name⟩ :=
        (read_token_ok_iff width plain.1.1 plain.1.2 ends).mp accepted
      refine ⟨(first, last) :: named, .cons name names, ?_⟩
      rw [same, asked_cons first last name.bounded, sum, numbers_cons]

theorem reads_of_names {tokens : List Text} {named : List (Nat × Nat)}
    (plain : ∀ token ∈ tokens, token ≠ [] ∧ nul ∉ token)
    (names : List.Forall₂ (fun entry span => Names entry span.1 span.2) tokens named) :
    ∃ spans, ReadsTo width tokens spans ∧ asked spans = numbers named := by
  induction names with
  | nil => exact ⟨[], .nil, rfl⟩
  | @cons token span tokens named name _ ih =>
      rw [List.forall_mem_cons] at plain
      obtain ⟨spans, reads, sum⟩ := ih plain.2
      have accepted := (names_iff_read width plain.1.1 plain.1.2 span.1 span.2).mp name
      refine ⟨((span.1 : Int), (span.2 : Int)) :: spans, .cons accepted reads, ?_⟩
      rw [asked_cons span.1 span.2 name.bounded, sum, numbers_cons]

theorem plain_fields {text : Text} (clean : nul ∉ text) :
    ∀ entry ∈ fields (· == ' ') text, entry ≠ [] ∧ nul ∉ entry := by
  intro entry found
  have shape := mem_fields found
  exact ⟨shape.1, fun inside => clean (shape.2 nul inside).1⟩

theorem collect_wanted_ok_iff {text : Text} (wanted total : List Nat) (clean : nul ∉ text) :
    collectWanted width text wanted = .ok total ↔
      ∃ spans : List (Nat × Nat),
        List.Forall₂ (fun entry span => Names entry span.1 span.2) (fields (· == ' ') text) spans ∧
          total = wanted ++ numbers spans := by
  rw [collect_wanted_reads]
  constructor
  · rintro ⟨spans, reads, sum⟩
    obtain ⟨named, names, same⟩ := names_of_reads (plain_fields clean) reads
    exact ⟨named, names, same ▸ sum⟩
  · rintro ⟨named, names, sum⟩
    obtain ⟨spans, reads, same⟩ := reads_of_names (plain_fields clean) names
    exact ⟨spans, reads, same ▸ sum⟩

end Scan

section Lookup

variable {available : List CpuInfo}

theorem erase_dups_nodup {values : List Nat} (distinct : values.Nodup) :
    values.eraseDups = values := by
  induction values with
  | nil => rfl
  | cons value values ih =>
      rw [List.nodup_cons] at distinct
      have others : values.filter (fun other => !other == value) = values := by
        apply List.filter_eq_self.mpr
        intro other found
        have differs : other ≠ value := fun same => distinct.1 (same ▸ found)
        simpa using differs
      rw [List.eraseDups_cons, others, ih distinct.2]

theorem erase_dups_repeat {values : List Nat} {value : Nat} (later : List Nat)
    (repeated : value ∈ values) :
    (values ++ value :: later).eraseDups = (values ++ later).eraseDups := by
  rw [List.eraseDups_append, List.eraseDups_append, List.cons_removeAll]
  simp [repeated]

theorem any_index_iff (cpus : List CpuInfo) (index : Nat) :
    cpus.any (·.index == index) = true ↔ index ∈ cpus.map CpuInfo.index := by
  simp [List.any_eq_true]

theorem select_wanted_accepted_iff (wanted : List Nat) (selection : Selection) :
    (selectWanted available wanted selection).accepted = true ↔
      ∀ index ∈ wanted, ∃ cpu ∈ available, cpu.index = index := by
  induction wanted generalizing selection with
  | nil => simp [selectWanted]
  | cons index wanted ih =>
      rw [selectWanted]
      cases looked : available.find? (·.index == index) with
      | none =>
          simp only [Bool.false_eq_true, false_iff]
          intro all
          obtain ⟨cpu, inside, same⟩ := all index List.mem_cons_self
          have differs := List.find?_eq_none.mp looked cpu inside
          exact differs (beq_iff_eq.mpr same)
      | some found =>
          have here : ∃ cpu ∈ available, cpu.index = index :=
            ⟨found, List.mem_of_find?_eq_some looked, by simpa using List.find?_some looked⟩
          rw [List.forall_mem_cons]
          simp only [here, true_and]
          split_ifs
          · exact ih _
          · exact ih _

theorem select_wanted_out {wanted : List Nat} {selection : Selection}
    (there : ∀ index ∈ wanted, ∃ cpu ∈ available, cpu.index = index)
    (distinct : (selection.out.map CpuInfo.index).Nodup)
    (known : ∀ cpu ∈ selection.out, cpu ∈ available) :
    (selectWanted available wanted selection).out.map CpuInfo.index =
        (selection.out.map CpuInfo.index ++ wanted).eraseDups ∧
      ∀ cpu ∈ (selectWanted available wanted selection).out, cpu ∈ available := by
  induction wanted generalizing selection with
  | nil =>
      rw [selectWanted, List.append_nil, erase_dups_nodup distinct]
      exact ⟨rfl, known⟩
  | cons index wanted ih =>
      have later := fun other inside => there other (List.mem_cons_of_mem index inside)
      rw [selectWanted]
      cases looked : available.find? (·.index == index) with
      | none =>
          obtain ⟨cpu, inside, same⟩ := there index List.mem_cons_self
          have differs := List.find?_eq_none.mp looked cpu inside
          exact absurd (beq_iff_eq.mpr same) differs
      | some found =>
          have here : found.index = index := by simpa using List.find?_some looked
          dsimp only
          split_ifs with already
          · have repeated := (any_index_iff _ _).mp already
            rw [erase_dups_repeat wanted repeated]
            exact ih later distinct known
          · have fresh : index ∉ selection.out.map CpuInfo.index :=
              fun inside => already ((any_index_iff _ _).mpr inside)
            have extended : (selection.out ++ [found]).map CpuInfo.index =
                selection.out.map CpuInfo.index ++ [index] := by
              rw [List.map_append, List.map_singleton, here]
            have still : (selection.out.map CpuInfo.index ++ [index]).Nodup :=
              List.nodup_append_comm.mp (List.nodup_cons.mpr ⟨fresh, distinct⟩)
            have listed : ∀ cpu ∈ selection.out ++ [found], cpu ∈ available := by
              intro cpu inside
              rcases List.mem_append.mp inside with old | new
              · exact known cpu old
              · rw [List.mem_singleton.mp new]
                exact List.mem_of_find?_eq_some looked
            have next := @ih { selection with out := selection.out ++ [found] } later
              (extended ▸ still) listed
            rw [extended, List.append_assoc, List.singleton_append] at next
            exact next

end Lookup

section Whole

variable (width : LongWidth) {input : Text} (available : List CpuInfo) (before : Selection)

theorem entries_normalized (text : Text) :
    fields (· == ' ') (text.map normalizeChar) = fields isSeparator text := by
  apply fields_map
  · intro c
    unfold normalizeChar isSeparator
    split_ifs with separates
    · rcases separates with rfl | rfl <;> rfl
    · simp only [not_or] at separates
      rw [beq_false_of_ne separates.1, beq_false_of_ne separates.2, Bool.or_false, Bool.or_false]
  · intro c other
    unfold normalizeChar
    rw [if_neg]
    rintro (rfl | rfl) <;> cases other

theorem nul_not_normalized {text : Text} (clean : nul ∉ text) : nul ∉ text.map normalizeChar := by
  intro found
  obtain ⟨c, inside, same⟩ := List.mem_map.mp found
  unfold normalizeChar at same
  split_ifs at same
  · cases same
  · exact clean (same ▸ inside)

theorem scan_iff_denotes (wanted : List Nat) (clean : nul ∉ input) :
    collectWanted width ((trim input).map normalizeChar) [] = .ok wanted ↔
      ∃ spans, Denotes input spans ∧ wanted = numbers spans := by
  rw [collect_wanted_ok_iff [] wanted (nul_not_normalized (not_mem_trim clean)),
    entries_normalized]
  rfl

theorem asks_for_all_iff :
    AsksForAll input ↔ trim input = [] ∨ equalsIgnoreCase (trim input) "all".toList = true := by
  rw [AsksForAll, equals_ignore_case_iff]
  rfl

theorem parse_all (asks : AsksForAll input) :
    parseCpuSelection width input available before =
      { before with accepted := true, out := available } := by
  unfold parseCpuSelection
  simp only [if_pos (asks_for_all_iff.mp asks)]

theorem numbers_of_denotes {spans : List (Nat × Nat)} (denotes : Denotes input spans) :
    numbers spans = [] ↔ entries input = [] := by
  unfold Denotes at denotes
  generalize entries input = given at denotes ⊢
  cases denotes with
  | nil => simp [numbers]
  | @cons entry span _ _ named _ =>
      have ordered := named.ordered
      rw [numbers_cons, spanNumbers]
      simp
      omega

/-- After a successful scan the lookup decides. -/
theorem parse_of_scan {wanted : List Nat} (asks : ¬ AsksForAll input) (given : wanted ≠ [])
    (scanned : collectWanted width ((trim input).map normalizeChar) [] = .ok wanted) :
    parseCpuSelection width input available before =
      selectWanted available wanted { before with out := [] } := by
  unfold parseCpuSelection
  simp only [if_neg (fun all => asks (asks_for_all_iff.mpr all)), scanned]

/-- No other selection gets past the scan. -/
theorem parse_refused (asks : ¬ AsksForAll input)
    (refused : ∀ wanted, collectWanted width ((trim input).map normalizeChar) [] = .ok wanted →
      wanted = []) :
    (parseCpuSelection width input available before).accepted = false ∧
      (parseCpuSelection width input available before).out = [] := by
  unfold parseCpuSelection
  simp only [if_neg (fun all => asks (asks_for_all_iff.mpr all))]
  cases scanned : collectWanted width ((trim input).map normalizeChar) [] with
  | error message => exact ⟨rfl, rfl⟩
  | ok wanted =>
      rw [refused wanted scanned]
      exact ⟨rfl, rfl⟩

theorem denotes_unique {spans others : List (Nat × Nat)} (clean : nul ∉ input)
    (denotes : Denotes input spans) (again : Denotes input others) : spans = others := by
  unfold Denotes at denotes again
  have plain : ∀ entry ∈ entries input, entry ≠ [] ∧ nul ∉ entry := by
    intro entry found
    have shape := mem_fields found
    exact ⟨shape.1, fun inside => not_mem_trim clean (shape.2 nul inside).1⟩
  generalize entries input = given at denotes again plain
  induction denotes generalizing others with
  | nil =>
      cases again
      rfl
  | @cons entry span rest spans named _ ih =>
      cases again with
      | @cons _ other _ others same read =>
          have here := plain entry List.mem_cons_self
          rw [names_unique here.1 here.2 named same]
          exact congrArg _ (ih read fun later inside => plain later (List.mem_cons_of_mem _ inside))

theorem parse_accepted_iff (clean : nul ∉ input) (asks : ¬ AsksForAll input) :
    (parseCpuSelection width input available before).accepted = true ↔
      Acceptable input available := by
  unfold Acceptable
  constructor
  · intro accepted
    by_cases scans : ∃ wanted, wanted ≠ [] ∧
        collectWanted width ((trim input).map normalizeChar) [] = .ok wanted
    · obtain ⟨wanted, given, scanned⟩ := scans
      rw [parse_of_scan width available before asks given scanned,
        select_wanted_accepted_iff] at accepted
      obtain ⟨spans, denotes, sum⟩ := (scan_iff_denotes width wanted clean).mp scanned
      rw [sum] at given accepted
      exact ⟨fun none => given ((numbers_of_denotes denotes).mpr none), spans, denotes, accepted⟩
    · have refused := parse_refused width available before asks fun wanted scanned =>
        by_contra fun given => scans ⟨wanted, given, scanned⟩
      rw [refused.1] at accepted
      cases accepted
  · rintro ⟨given, spans, denotes, there⟩
    have scanned := (scan_iff_denotes width _ clean).mpr ⟨spans, denotes, rfl⟩
    have some := mt (numbers_of_denotes denotes).mp given
    rw [parse_of_scan width available before asks some scanned, select_wanted_accepted_iff]
    exact there

theorem parse_selects (clean : nul ∉ input) (asks : ¬ AsksForAll input)
    (acceptable : Acceptable input available) :
    IsSelection input available (parseCpuSelection width input available before).out := by
  obtain ⟨given, spans, denotes, there⟩ := acceptable
  have scanned := (scan_iff_denotes width _ clean).mpr ⟨spans, denotes, rfl⟩
  have some := mt (numbers_of_denotes denotes).mp given
  rw [parse_of_scan width available before asks some scanned]
  have selected := @select_wanted_out available (numbers spans) { before with out := [] } there
    List.nodup_nil fun _ found => absurd found List.not_mem_nil
  exact ⟨selected.2, spans, denotes, selected.1⟩

/-- Cores with distinct indices are told apart by them. -/
theorem eq_of_indices {left right : List CpuInfo}
    (distinct : (available.map CpuInfo.index).Nodup) (leftKnown : ∀ cpu ∈ left, cpu ∈ available)
    (rightKnown : ∀ cpu ∈ right, cpu ∈ available)
    (same : left.map CpuInfo.index = right.map CpuInfo.index) : left = right := by
  induction left generalizing right with
  | nil => exact (List.map_eq_nil_iff.mp same.symm).symm
  | cons cpu left ih =>
      cases right with
      | nil => cases same
      | cons other right =>
          rw [List.map_cons, List.map_cons, List.cons.injEq] at same
          rw [List.forall_mem_cons] at leftKnown rightKnown
          rw [List.inj_on_of_nodup_map distinct leftKnown.1 rightKnown.1 same.1,
            ih leftKnown.2 rightKnown.2 same.2]

theorem selection_unique {selected other : List CpuInfo} (clean : nul ∉ input)
    (distinct : (available.map CpuInfo.index).Nodup)
    (selects : IsSelection input available selected)
    (again : IsSelection input available other) : selected = other := by
  obtain ⟨spans, denotes, order⟩ := selects.2
  obtain ⟨others, denotesToo, orderToo⟩ := again.2
  rw [← denotes_unique clean denotes denotesToo, ← order] at orderToo
  exact eq_of_indices available distinct selects.1 again.1 orderToo.symm

theorem parse_same_width (other : LongWidth) (clean : nul ∉ input) :
    (parseCpuSelection other input available before).accepted =
        (parseCpuSelection width input available before).accepted ∧
      (parseCpuSelection other input available before).out =
        (parseCpuSelection width input available before).out := by
  by_cases asks : AsksForAll input
  · rw [parse_all other available before asks, parse_all width available before asks]
    exact ⟨rfl, rfl⟩
  · by_cases scans : ∃ wanted, wanted ≠ [] ∧
        collectWanted width ((trim input).map normalizeChar) [] = .ok wanted
    · obtain ⟨wanted, given, scanned⟩ := scans
      have again := (scan_iff_denotes other wanted clean).mpr
        ((scan_iff_denotes width wanted clean).mp scanned)
      rw [parse_of_scan width available before asks given scanned,
        parse_of_scan other available before asks given again]
      exact ⟨rfl, rfl⟩
    · have none : ∀ wanted, collectWanted width ((trim input).map normalizeChar) [] = .ok wanted →
          wanted = [] :=
        fun wanted scanned => by_contra fun given => scans ⟨wanted, given, scanned⟩
      have here := parse_refused width available before asks none
      have there := parse_refused other available before asks fun wanted scanned =>
        none wanted ((scan_iff_denotes width wanted clean).mpr
          ((scan_iff_denotes other wanted clean).mp scanned))
      rw [here.1, here.2, there.1, there.2]
      exact ⟨rfl, rfl⟩

end Whole

/-- A selection is read as what it means, on either width of `long` and whatever
`out` held. -/
theorem parse_cpu_selection_meets_specification (width : LongWidth) (input : Text)
    (available : List CpuInfo) (before : Selection) (clean : nul ∉ input)
    (distinct : (available.map CpuInfo.index).Nodup) :
    (AsksForAll input →
      (parseCpuSelection width input available before).accepted = true ∧
        (parseCpuSelection width input available before).out = available) ∧
    (¬ AsksForAll input →
      ((parseCpuSelection width input available before).accepted = true ↔
        Acceptable input available) ∧
      ((parseCpuSelection width input available before).accepted = true →
        ∀ selected, IsSelection input available selected ↔
          selected = (parseCpuSelection width input available before).out)) ∧
    ∀ other : LongWidth,
      (parseCpuSelection other input available before).accepted =
          (parseCpuSelection width input available before).accepted ∧
        (parseCpuSelection other input available before).out =
          (parseCpuSelection width input available before).out := by
  constructor
  · intro asks
    rw [parse_all width available before asks]
    exact ⟨rfl, rfl⟩
  · constructor
    · intro asks
      have accepted := parse_accepted_iff width available before clean asks
      constructor
      · exact accepted
      · intro read selected
        have selects := parse_selects width available before clean asks (accepted.mp read)
        constructor
        · intro other
          exact selection_unique available clean distinct other selects
        · rintro rfl
          exact selects
    · exact fun other => parse_same_width width available before other clean

/-- `2 0-1,0` on three cores. -/
theorem parse_cpu_selection_meets_specification_reordered :
    (parseCpuSelection .bits64 "2 0-1,0".toList [⟨0, 0, 0⟩, ⟨1, 0, 1⟩, ⟨2, 0, 2⟩]
        ⟨false, [], []⟩).accepted = true ∧
      [⟨2, 0, 2⟩, ⟨0, 0, 0⟩, ⟨1, 0, 1⟩] = (parseCpuSelection .bits64 "2 0-1,0".toList
        [⟨0, 0, 0⟩, ⟨1, 0, 1⟩, ⟨2, 0, 2⟩] ⟨false, [], []⟩).out := by
  have spec := (parse_cpu_selection_meets_specification .bits64 "2 0-1,0".toList
    [⟨0, 0, 0⟩, ⟨1, 0, 1⟩, ⟨2, 0, 2⟩] ⟨false, [], []⟩ (by decide) (by decide)).2.1
    (by unfold AsksForAll; decide)
  have split : entries "2 0-1,0".toList = ["2".toList, "0-1".toList, "0".toList] := by decide
  have denotes : Denotes "2 0-1,0".toList [(2, 2), (0, 1), (0, 0)] := by
    rw [Denotes, split, List.forall₂_cons, List.forall₂_cons, List.forall₂_cons]
    exact ⟨(names_iff_read .bits32 (by decide) (by decide) 2 2).mpr rfl,
      (names_iff_read .bits32 (by decide) (by decide) 0 1).mpr rfl,
      (names_iff_read .bits32 (by decide) (by decide) 0 0).mpr rfl, .nil⟩
  have accepted := spec.1.mpr ⟨by rw [split]; decide, _, denotes, by decide⟩
  exact ⟨accepted, (spec.2 accepted _).mp ⟨by decide, _, denotes, by decide⟩⟩

end SdcProbe.SelectionGrammar
