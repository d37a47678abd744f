import SdcProbe.SelectionGrammar

/-!
# The printed core list

`format_cpu_list` of `sdcprobe.cpp` writes runs of consecutive indices as
ranges, in whatever order the cores come. What it prints reads back as a
selection of the same cores in the same order.
-/

namespace SdcProbe.CpuList

open CNumeral TextFields AnswerText Report CpuSelection SelectionGrammar

set_option autoImplicit false

/-- How many cores follow the first one in its run: `j - i` of the source. -/
def runLength : CpuInfo → List CpuInfo → Nat
  | _, [] => 0
  | cpu, next :: rest =>
      if next.index = (cpu.index + 1) % 2 ^ 32 then runLength next rest + 1 else 0

theorem run_length_lt (first : CpuInfo) (rest : List CpuInfo) :
    runLength first rest < (first :: rest).length := by
  induction rest generalizing first with
  | nil => exact Nat.zero_lt_one
  | cons next rest ih =>
      rw [runLength, List.length_cons]
      split_ifs
      · exact Nat.succ_lt_succ (ih next)
      · exact Nat.succ_pos _

/-- The run from `first` to `last` as text. -/
def formatRun (first last : CpuInfo) (longer : Bool) : Text :=
  if longer then stdToString first.index ++ "-".toList ++ stdToString last.index
  else stdToString first.index

def separated (text : Text) : Text := if text = [] then text else text ++ ",".toList

def formatRuns (text : Text) : List CpuInfo → Text
  | [] => text
  | first :: rest =>
      let run := runLength first rest
      let last := (first :: rest).get ⟨run, run_length_lt first rest⟩
      formatRuns (separated text ++ formatRun first last (run > 0)) (rest.drop run)
termination_by cpus => cpus.length
decreasing_by
  rw [List.length_cons, List.length_drop]
  omega

def formatCpuList (cpus : List CpuInfo) : Text :=
  if cpus = [] then "(none)".toList else formatRuns [] cpus

/-- The spans of the runs. -/
def runSpans : List CpuInfo → List (Nat × Nat)
  | [] => []
  | first :: rest =>
      (first.index, first.index + runLength first rest) ::
        runSpans (rest.drop (runLength first rest))
termination_by cpus => cpus.length
decreasing_by
  rw [List.length_cons, List.length_drop]
  omega

section Runs

/-- The indices of a run count up from the first one. -/
theorem run_indices (first : CpuInfo) (rest : List CpuInfo)
    (small : ∀ cpu ∈ first :: rest, cpu.index ≤ 4095) :
    (first :: rest.take (runLength first rest)).map CpuInfo.index =
      List.range' first.index (runLength first rest + 1) := by
  induction rest generalizing first with
  | nil => rfl
  | cons next rest ih =>
      rw [List.forall_mem_cons] at small
      rw [runLength]
      split_ifs with follows
      · have step : next.index = first.index + 1 := by
          have bounded := small.1
          omega
        have later := ih next small.2
        rw [List.take_succ_cons, List.map_cons, later, step]
        rfl
      · rfl

theorem run_last (first : CpuInfo) (rest : List CpuInfo)
    (small : ∀ cpu ∈ first :: rest, cpu.index ≤ 4095) :
    ((first :: rest).get ⟨runLength first rest, run_length_lt first rest⟩).index =
      first.index + runLength first rest := by
  induction rest generalizing first with
  | nil => rfl
  | cons next rest ih =>
      rw [List.forall_mem_cons] at small
      by_cases follows : next.index = (first.index + 1) % 2 ^ 32
      · have bounded := small.1
        have later := ih next small.2
        simp only [List.get_eq_getElem, runLength, if_pos follows, List.getElem_cons_succ] at later ⊢
        omega
      · simp only [List.get_eq_getElem, runLength, if_neg follows, List.getElem_cons_zero,
          Nat.add_zero]

theorem run_span_numbers (cpus : List CpuInfo) (small : ∀ cpu ∈ cpus, cpu.index ≤ 4095) :
    numbers (runSpans cpus) = cpus.map CpuInfo.index := by
  fun_induction runSpans cpus with
  | case1 => rfl
  | case2 first rest ih =>
      have later := ih fun cpu inside =>
        small cpu (List.mem_cons_of_mem _ (List.mem_of_mem_drop inside))
      have length : first.index + runLength first rest + 1 - first.index =
          runLength first rest + 1 := by omega
      rw [numbers_cons, later, spanNumbers, length, ← run_indices first rest small,
        ← List.map_append, List.cons_append, List.take_append_drop]

end Runs

section Printed

def isListChar (c : Char) : Bool := c.isDigit || c == ',' || c == '-'

theorem list_char_plain {c : Char} (printed : isListChar c = true) :
    isBlank c = false ∧ c ≠ nul ∧ c.toLower = c := by
  simp only [isListChar, Bool.or_eq_true, beq_iff_eq] at printed
  rcases printed with (digit | rfl) | rfl
  · have low : 48 ≤ c.val.toNat ∧ c.val.toNat ≤ 57 := by
      simpa [Char.isDigit, UInt32.le_iff_toNat_le] using digit
    refine ⟨?_, ?_, ?_⟩
    · cases blank : isBlank c with
      | false => rfl
      | true =>
          simp only [isBlank, Bool.or_eq_true, beq_iff_eq] at blank
          rcases blank with ((rfl | rfl) | rfl) | rfl <;> cases digit
    · rintro rfl
      cases digit
    · unfold Char.toLower
      rw [dif_neg]
      simp only [UInt32.le_iff_toNat_le, ge_iff_le, not_and]
      intro upper
      have letter : 65 ≤ c.val.toNat := upper
      omega
  · exact ⟨rfl, by decide, rfl⟩
  · exact ⟨rfl, by decide, rfl⟩

theorem digit_not_separator {c : Char} (digit : c.isDigit = true) :
    isSeparator c = false ∧ c ≠ '-' := by
  constructor
  · cases separates : isSeparator c with
    | false => rfl
    | true =>
        simp only [isSeparator, Bool.or_eq_true, beq_iff_eq] at separates
        rcases separates with (rfl | rfl) | rfl <;> cases digit
  · rintro rfl
    cases digit

theorem number_plain (number : Nat) :
    ∀ c ∈ stdToString number, isSeparator c = false ∧ c ≠ '-' :=
  fun c inside => digit_not_separator ((std_to_string_digits number).2 c inside)

theorem format_run_plain (first last : CpuInfo) (longer : Bool) :
    formatRun first last longer ≠ [] ∧
      ∀ c ∈ formatRun first last longer, isSeparator c = false := by
  have given := (std_to_string_digits first.index).1
  cases longer with
  | false => exact ⟨given, fun c inside => (number_plain _ c inside).1⟩
  | true =>
      constructor
      · simp [formatRun, given]
      · intro c inside
        simp only [formatRun, if_true, List.mem_append] at inside
        rcases inside with (inside | inside) | inside
        · exact (number_plain _ c inside).1
        · rw [List.mem_singleton.mp inside]
          rfl
        · exact (number_plain _ c inside).1

theorem run_names {first last : CpuInfo} {steps : Nat} (ends : last.index = first.index + steps)
    (small : last.index ≤ 4095) :
    Names (formatRun first last (steps > 0)) first.index (first.index + steps) := by
  have numeral := std_to_string_numeral first.index
  constructor
  · cases steps with
    | zero =>
        right
        constructor
        · intro low high cut
          have joined : stdToString first.index = low ++ '-' :: high := cut.joined
          have dash : '-' ∈ low ++ '-' :: high := List.mem_append_right _ List.mem_cons_self
          exact (number_plain first.index '-' (joined ▸ dash)).2 rfl
        · exact ⟨numeral, rfl⟩
    | succ steps =>
        left
        apply Exists.intro (stdToString first.index)
        apply Exists.intro (stdToString last.index)
        constructor
        · apply IsCut.mk
          · simp [formatRun]
          · exact fun dash => (number_plain _ _ dash).2 rfl
          · exact (std_to_string_digits first.index).1
        · rw [← ends]
          exact ⟨numeral, std_to_string_numeral last.index⟩
  · exact Nat.le_add_right _ _
  · exact ends ▸ small

theorem fields_with_run (text run : Text) (given : run ≠ [])
    (plain : ∀ c ∈ run, isSeparator c = false) :
    fields isSeparator (separated text ++ run) = fields isSeparator text ++ [run] := by
  have single := fields_of_no_separator given plain
  unfold separated
  split_ifs with empty
  · rw [empty, List.nil_append, single, fields_nil, List.nil_append]
  · have joined : fields isSeparator (text ++ ',' :: run) =
        fields isSeparator text ++ fields isSeparator run :=
      fields_append_separator text run rfl
    rw [List.append_assoc]
    exact joined.trans (congrArg _ single)

/-- The runs come out as entries, one after the other. -/
theorem format_runs_fields (text : Text) (cpus : List CpuInfo)
    (small : ∀ cpu ∈ cpus, cpu.index ≤ 4095) :
    ∃ printed, fields isSeparator (formatRuns text cpus) = fields isSeparator text ++ printed ∧
      List.Forall₂ (fun entry span => Names entry span.1 span.2) printed (runSpans cpus) := by
  fun_induction formatRuns text cpus with
  | case1 text =>
      rw [runSpans]
      exact ⟨[], (List.append_nil _).symm, .nil⟩
  | case2 text first rest run last ih =>
      obtain ⟨printed, split, named⟩ := ih fun cpu inside =>
        small cpu (List.mem_cons_of_mem _ (List.mem_of_mem_drop inside))
      have ends : last.index = first.index + run := run_last first rest small
      have shape := format_run_plain first last (run > 0)
      apply Exists.intro (formatRun first last (run > 0) :: printed)
      constructor
      · rw [split, fields_with_run text _ shape.1 shape.2, List.append_assoc,
          List.singleton_append]
      · rw [runSpans]
        exact .cons (run_names ends (small last (List.get_mem _ _))) named

theorem number_list_chars (number : Nat) : ∀ c ∈ stdToString number, isListChar c = true := by
  intro c inside
  rw [isListChar, (std_to_string_digits number).2 c inside]
  rfl

theorem format_runs_chars (text : Text) (cpus : List CpuInfo)
    (before : ∀ c ∈ text, isListChar c = true) :
    ∀ c ∈ formatRuns text cpus, isListChar c = true := by
  fun_induction formatRuns text cpus with
  | case1 text => exact before
  | case2 text first rest run last ih =>
      apply ih
      intro c inside
      rcases List.mem_append.mp inside with inside | inside
      · unfold separated at inside
        split_ifs at inside
        · exact before c inside
        · rcases List.mem_append.mp inside with inside | inside
          · exact before c inside
          · rw [List.mem_singleton.mp inside]
            rfl
      · unfold formatRun at inside
        split_ifs at inside
        · simp only [List.mem_append] at inside
          rcases inside with (inside | inside) | inside
          · exact number_list_chars _ c inside
          · rw [List.mem_singleton.mp inside]
            rfl
          · exact number_list_chars _ c inside
        · exact number_list_chars _ c inside

end Printed

theorem format_cpu_list_round_trip (width : LongWidth) (available cpus : List CpuInfo)
    (before : Selection) (distinct : (available.map CpuInfo.index).Nodup) (given : cpus ≠ [])
    (once : cpus.Nodup) (known : ∀ cpu ∈ cpus, cpu ∈ available)
    (small : ∀ cpu ∈ cpus, cpu.index ≤ 4095) :
    (parseCpuSelection width (formatCpuList cpus) available before).accepted = true ∧
      (parseCpuSelection width (formatCpuList cpus) available before).out = cpus := by
  rw [formatCpuList, if_neg given]
  have chars := format_runs_chars [] cpus fun _ inside => absurd inside List.not_mem_nil
  have clean : nul ∉ formatRuns [] cpus := fun inside => (list_char_plain (chars _ inside)).2.1 rfl
  have trimmed : trim (formatRuns [] cpus) = formatRuns [] cpus :=
    trim_of_no_blank fun c inside => (list_char_plain (chars c inside)).1
  obtain ⟨printed, split, spans⟩ := format_runs_fields [] cpus small
  rw [fields_nil, List.nil_append] at split
  have denotes : Denotes (formatRuns [] cpus) (runSpans cpus) := by
    rw [Denotes, entries, trimmed, split]
    exact spans
  have order := run_span_numbers cpus small
  have named : entries (formatRuns [] cpus) ≠ [] := by
    rw [ne_eq, ← numbers_of_denotes denotes, order, List.map_eq_nil_iff]
    exact given
  have specific : ¬ AsksForAll (formatRuns [] cpus) := by
    rintro (empty | casing)
    · rw [entries, empty, fields_nil] at named
      exact named rfl
    · rw [trimmed] at casing
      have letter : 'l' ∈ (formatRuns [] cpus).map Char.toLower := casing ▸ by decide
      obtain ⟨c, inside, lower⟩ := List.mem_map.mp letter
      have printed := chars c inside
      rw [(list_char_plain printed).2.2] at lower
      rw [lower] at printed
      cases printed
  have acceptable : Acceptable (formatRuns [] cpus) available := by
    constructor
    · exact named
    · apply Exists.intro (runSpans cpus)
      constructor
      · exact denotes
      · rw [order]
        intro index inside
        obtain ⟨cpu, found, same⟩ := List.mem_map.mp inside
        exact ⟨cpu, known cpu found, same⟩
  constructor
  · exact (parse_accepted_iff width available before clean specific).mpr acceptable
  · apply selection_unique available clean distinct
    · exact parse_selects width available before clean specific acceptable
    · constructor
      · exact known
      · apply Exists.intro (runSpans cpus)
        constructor
        · exact denotes
        · rw [order, erase_dups_nodup]
          exact once.map_on fun cpu inside other found same =>
            List.inj_on_of_nodup_map distinct (known cpu inside) (known other found) same

/-- Core 3 before the range `0-1`. -/
theorem format_cpu_list_round_trip_mixed :
    (parseCpuSelection .bits32 (formatCpuList [⟨3, 0, 3⟩, ⟨0, 0, 0⟩, ⟨1, 0, 1⟩])
        [⟨0, 0, 0⟩, ⟨1, 0, 1⟩, ⟨3, 0, 3⟩] ⟨false, [], []⟩).accepted = true ∧
      (parseCpuSelection .bits32 (formatCpuList [⟨3, 0, 3⟩, ⟨0, 0, 0⟩, ⟨1, 0, 1⟩])
        [⟨0, 0, 0⟩, ⟨1, 0, 1⟩, ⟨3, 0, 3⟩] ⟨false, [], []⟩).out =
          [⟨3, 0, 3⟩, ⟨0, 0, 0⟩, ⟨1, 0, 1⟩] :=
  format_cpu_list_round_trip .bits32 [⟨0, 0, 0⟩, ⟨1, 0, 1⟩, ⟨3, 0, 3⟩]
    [⟨3, 0, 3⟩, ⟨0, 0, 0⟩, ⟨1, 0, 1⟩] ⟨false, [], []⟩ (by decide) (by decide) (by decide)
    (by decide) (by decide)

end SdcProbe.CpuList
