import SdcProbe.Prompts

/-!
# One answer per line

What a person types comes in lines. As long as each of them fits the buffer of
`read_line` the questions are answered line by line; a longer one is cut, and
its rest is taken for the next answer.
-/

namespace SdcProbe.PromptLines

open CNumeral AnswerText CommandLine Prompts

set_option autoImplicit false

/-- The lines of a text; behind the last newline there is none. -/
def lines (stdin : Text) : List Text :=
  if (stdin.splitOn '\n').getLast? = some [] then (stdin.splitOn '\n').dropLast
  else stdin.splitOn '\n'

/-- Room for the newline is needed, too, where there is one. -/
def Fits (stdin : Text) : Prop :=
  (∀ line ∈ (stdin.splitOn '\n').dropLast, line.length ≤ 254) ∧
    ∀ line ∈ (stdin.splitOn '\n').getLast?, line.length ≤ 255

/-- Answers that are whole lines. -/
def nextLine : List Text → Option (Text × List Text)
  | [] => none
  | line :: rest => some (trim line, rest)

section Lines

variable {line rest : Text}

theorem line_cases (stdin : Text) :
    '\n' ∉ stdin ∨ ∃ line rest, stdin = line ++ '\n' :: rest ∧ '\n' ∉ line := by
  by_cases found : '\n' ∈ stdin
  · exact .inr (List.eq_append_cons_of_mem found)
  · exact .inl found

theorem split_line (plain : '\n' ∉ line) :
    (line ++ '\n' :: rest).splitOn '\n' = line :: rest.splitOn '\n' :=
  List.splitOn_append_cons_self_of_not_mem plain rest

theorem last_split (line rest : Text) :
    (line :: rest.splitOn '\n').getLast? = (rest.splitOn '\n').getLast? ∧
      (line :: rest.splitOn '\n').dropLast = line :: (rest.splitOn '\n').dropLast := by
  have given := List.splitOn_ne_nil '\n' rest
  exact ⟨List.getLast?_cons_of_ne_nil given, List.dropLast_cons_of_ne_nil given⟩

theorem lines_cons (plain : '\n' ∉ line) : lines (line ++ '\n' :: rest) = line :: lines rest := by
  rw [lines, lines, split_line plain, (last_split line rest).1, (last_split line rest).2]
  split_ifs <;> rfl

theorem fits_cons (plain : '\n' ∉ line) :
    Fits (line ++ '\n' :: rest) ↔ line.length ≤ 254 ∧ Fits rest := by
  rw [Fits, Fits, split_line plain, (last_split line rest).1, (last_split line rest).2,
    List.forall_mem_cons, and_assoc]

theorem lines_last (plain : '\n' ∉ line) : lines line = if line = [] then [] else [line] := by
  rw [lines, List.splitOn_eq_singleton plain]
  split_ifs with empty <;> simp_all

theorem fits_last (plain : '\n' ∉ line) : Fits line ↔ line.length ≤ 255 := by
  rw [Fits, List.splitOn_eq_singleton plain]
  simp

end Lines

section Buffer

variable {line rest : Text}

theorem fgets_line (room : Nat) (plain : '\n' ∉ line) (fits : line.length < room) :
    fgets room (line ++ '\n' :: rest) = (line ++ ['\n'], rest) := by
  induction line generalizing room with
  | nil =>
      cases room with
      | zero => cases fits
      | succ room => rfl
  | cons c line ih =>
      rw [List.mem_cons, not_or] at plain
      cases room with
      | zero => cases fits
      | succ room =>
          rw [List.cons_append, fgets, if_neg (Ne.symm plain.1),
            ih room plain.2 (Nat.lt_of_succ_lt_succ fits)]
          rfl

/-- A line that does not fit is cut. -/
theorem fgets_cut (rest : Text) (plain : '\n' ∉ line) :
    fgets line.length (line ++ rest) = (line, rest) := by
  induction line with
  | nil => rfl
  | cons c line ih =>
      rw [List.mem_cons, not_or] at plain
      rw [List.length_cons, List.cons_append, fgets, if_neg (Ne.symm plain.1), ih plain.2]

theorem fgets_last (room : Nat) (plain : '\n' ∉ line) (fits : line.length ≤ room) :
    fgets room line = (line, []) := by
  induction line generalizing room with
  | nil => cases room <;> rfl
  | cons c line ih =>
      rw [List.mem_cons, not_or] at plain
      cases room with
      | zero => cases fits
      | succ room =>
          rw [fgets, if_neg (Ne.symm plain.1), ih room plain.2 (Nat.le_of_succ_le_succ fits)]

theorem from_array_clean {text : Text} (clean : nul ∉ text) : fromArray text = text := by
  apply List.takeWhile_eq_self_iff.mpr
  intro c inside
  have differs : c ≠ nul := fun same => clean (same ▸ inside)
  simpa using differs

theorem read_line_line (clean : nul ∉ line) (plain : '\n' ∉ line) (fits : line.length ≤ 254) :
    readLine (line ++ '\n' :: rest) = some (trim line, rest) := by
  have whole : nul ∉ line ++ ['\n'] := by
    intro found
    rcases List.mem_append.mp found with inside | inside
    · exact clean inside
    · exact absurd (List.mem_singleton.mp inside) (by decide)
  rw [readLine, if_neg (by simp)]
  dsimp only [kBufferSize]
  rw [fgets_line _ plain (by omega), from_array_clean whole, trim_append_blank line rfl]

theorem read_line_last (clean : nul ∉ line) (plain : '\n' ∉ line) (given : line ≠ [])
    (fits : line.length ≤ 255) : readLine line = some (trim line, []) := by
  rw [readLine, if_neg given]
  dsimp only [kBufferSize]
  rw [fgets_last _ plain fits, from_array_clean clean]

theorem read_line_left {stdin : Text} {read : Text × Text} (found : readLine stdin = some read) :
    stdin ≠ [] ∧ read.2 = (fgets 255 stdin).2 := by
  unfold readLine at found
  split_ifs at found with empty
  cases found
  exact ⟨empty, rfl⟩

theorem read_line_none_iff (stdin : Text) : readLine stdin = none ↔ stdin = [] := by
  unfold readLine
  split_ifs with empty
  · exact ⟨fun _ => empty, fun _ => rfl⟩
  · simp [empty]

end Buffer

section Answers

/-- The source of whole lines beside the buffer, as long as the lines fit. -/
theorem next_line_of_fits {stdin : Text} (clean : nul ∉ stdin) (fits : Fits stdin) :
    nextLine (lines stdin) = (readLine stdin).map (fun read => (read.1, lines read.2)) ∧
      ∀ read, readLine stdin = some read → nul ∉ read.2 ∧ Fits read.2 := by
  rcases line_cases stdin with plain | ⟨line, rest, rfl, plain⟩
  · by_cases empty : stdin = []
    · subst empty
      constructor
      · rfl
      · intro read found
        cases found
    · have read := read_line_last clean plain empty ((fits_last plain).mp fits)
      rw [lines_last plain, if_neg empty, read]
      constructor
      · rfl
      · rintro _ ⟨⟩
        exact ⟨List.not_mem_nil, (fits_last List.not_mem_nil).mpr (Nat.zero_le _)⟩
  · have short := (fits_cons plain).mp fits
    rw [List.mem_append, List.mem_cons, not_or, not_or] at clean
    rw [lines_cons plain, read_line_line clean.1 plain short.1]
    constructor
    · rfl
    · rintro _ ⟨⟩
      exact ⟨clean.2.2, short.2⟩

/-- The answer of a call, when calls are made one after the other. A source
that has come to its end stays there. -/
def answerOf {Source : Type} (next : Source → Option (Text × Source)) : Nat → Source → Option Text
  | 0, source => (next source).map Prod.fst
  | call + 1, source =>
      match next source with
      | none => answerOf next call source
      | some (_, rest) => answerOf next call rest

theorem answer_of_line (typed : List Text) (call : Nat) :
    answerOf nextLine call typed = typed[call]?.map trim := by
  induction call generalizing typed with
  | zero => cases typed <;> rfl
  | succ call ih =>
      cases typed with
      | nil => rw [answerOf, nextLine, ih]; rfl
      | cons line rest =>
          rw [answerOf, nextLine]
          exact ih rest

theorem answer_of_fits {stdin : Text} (call : Nat) (clean : nul ∉ stdin) (fits : Fits stdin) :
    answerOf readLine call stdin = answerOf nextLine call (lines stdin) := by
  induction call generalizing stdin with
  | zero =>
      rw [answerOf, answerOf, (next_line_of_fits clean fits).1, Option.map_map]
      rfl
  | succ call ih =>
      have steps := next_line_of_fits clean fits
      rw [answerOf, answerOf, steps.1]
      cases found : readLine stdin with
      | none => exact ih clean fits
      | some read => exact ih (steps.2 read found).1 (steps.2 read found).2

end Answers

section Correspondence

variable {Source Other : Type}

def withSource (f : Source → Other) (dialog : Dialog Source) : Dialog Other :=
  { dialog with source := f dialog.source }

def endWithSource (f : Source → Other) : DialogEnd Source → DialogEnd Other
  | .exits code dialog => .exits code (withSource f dialog)
  | .goesOn dialog => .goesOn (withSource f dialog)

/-- Two sources that give the same answers, on the texts where they do. -/
structure SameAnswers (next : Source → Option (Text × Source))
    (other : Other → Option (Text × Other)) (f : Source → Other) (inv : Source → Prop) : Prop where
  same : ∀ source, inv source →
    other (f source) = (next source).map fun read => (read.1, f read.2)
  kept : ∀ source read, inv source → next source = some read → inv read.2

variable {next : Source → Option (Text × Source)} {other : Other → Option (Text × Other)}
  {f : Source → Other} {inv : Source → Prop} (width : LongWidth) (setup : Setup)
  (options : Options)

theorem ask_probe_map (answers : SameAnswers next other f inv) (dialog : Dialog Source)
    (start : inv dialog.source) :
    askProbe other setup options (withSource f dialog) =
      (askProbe next setup options dialog).map (withSource f) (withSource f) := by
  have here := answers.same dialog.source start
  unfold askProbe
  split_ifs
  · rfl
  · dsimp only [withSource, Dialog.say]
    rw [here]
    cases next dialog.source with
    | none => rfl
    | some read =>
        dsimp only [Option.map_some]
        cases parseProbeSelection read.1 dialog.probes <;> rfl
  · rfl

theorem ask_probe_kept (answers : SameAnswers next other f inv) (dialog : Dialog Source)
    (start : inv dialog.source) :
    (askProbe next setup options dialog).All (fun later => inv later.source)
      fun later => inv later.source := by
  unfold askProbe
  split_ifs
  · exact start
  · dsimp only [Dialog.say]
    cases found : next dialog.source with
    | none => exact start
    | some read =>
        have later := answers.kept _ _ start found
        dsimp only
        cases parseProbeSelection read.1 dialog.probes <;> exact later
  · exact start

theorem cores_answer_map (answers : SameAnswers next other f inv) (dialog : Dialog Source)
    (start : inv dialog.source) :
    coresAnswer other setup options (withSource f dialog) =
        ((coresAnswer next setup options dialog).1,
          withSource f (coresAnswer next setup options dialog).2) ∧
      inv (coresAnswer next setup options dialog).2.source := by
  have here := answers.same dialog.source start
  unfold coresAnswer
  split_ifs
  · exact ⟨rfl, start⟩
  · dsimp only [withSource, Dialog.say]
    rw [here]
    cases found : next dialog.source with
    | none => exact ⟨rfl, start⟩
    | some read => exact ⟨rfl, answers.kept _ _ start found⟩
  · exact ⟨rfl, start⟩

theorem ask_cores_map (answers : SameAnswers next other f inv) (dialog : Dialog Source)
    (start : inv dialog.source) :
    askCores other width setup options (withSource f dialog) =
      (askCores next width setup options dialog).map (withSource f) (endWithSource f) := by
  have answered := (cores_answer_map setup options answers dialog start).1
  unfold askCores
  rw [answered]
  dsimp only
  have selected : (withSource f dialog).selected = dialog.selected := rfl
  rw [selected]
  split_ifs <;> rfl

theorem ask_cores_kept (answers : SameAnswers next other f inv) (dialog : Dialog Source)
    (start : inv dialog.source) :
    (askCores next width setup options dialog).All (fun later => inv later.source) fun
      | .exits _ later => inv later.source
      | .goesOn later => inv later.source := by
  have answered := (cores_answer_map setup options answers dialog start).2
  unfold askCores
  dsimp only
  split_ifs <;> exact answered

theorem ask_minutes_kept (answers : SameAnswers next other f inv) (dialog : Dialog Source)
    (start : inv dialog.source) :
    (askMinutes next width setup options dialog).All (fun later => inv later.source)
      fun later => inv later.source := by
  unfold askMinutes
  dsimp only
  split_ifs
  · exact start
  · dsimp only [Dialog.say]
    cases found : next dialog.source with
    | none => exact start
    | some read =>
        have later := answers.kept _ _ start found
        dsimp only
        split_ifs
        · exact later
        · cases parseMinutes width read.1 <;> exact later
  · exact start

theorem ask_minutes_map (answers : SameAnswers next other f inv) (dialog : Dialog Source)
    (start : inv dialog.source) :
    askMinutes other width setup options (withSource f dialog) =
      (askMinutes next width setup options dialog).map (withSource f) (withSource f) := by
  have here := answers.same dialog.source start
  unfold askMinutes
  dsimp only
  split_ifs
  · rfl
  · dsimp only [withSource, Dialog.say]
    rw [here]
    cases next dialog.source with
    | none => rfl
    | some read =>
        dsimp only [Option.map_some]
        split_ifs
        · rfl
        · cases parseMinutes width read.1 <;> rfl
  · rfl

/-- The questions are answered alike from sources that give the same answers. -/
theorem ask_map (answers : SameAnswers next other f inv) (fuel : Nat) {source : Source}
    (start : inv source) :
    ask other width setup options fuel (f source) =
      (ask next width setup options fuel source).map (endWithSource f) := by
  let first : Dialog Source :=
    { source := source, probes := options.probes, minutes := options.minutes }
  have probes := FuelLoop.run_map _ _ _ _ _ _ (ask_probe_map setup options answers)
    (ask_probe_kept setup options answers) fuel first start
  unfold ask
  change (FuelLoop.run (askProbe other setup options) fuel (withSource f first)).bind _ = _
  rw [probes]
  cases asked : FuelLoop.run (askProbe next setup options) fuel first with
  | none => rfl
  | some dialog =>
      have here := FuelLoop.run_all _ _ _ (ask_probe_kept setup options answers) fuel first
        dialog start asked
      have cores := FuelLoop.run_map _ _ _ _ _ _ (ask_cores_map width setup options answers)
        (ask_cores_kept width setup options answers) fuel dialog here
      simp only [Option.map_some, Option.bind_some]
      have sameProbes : (withSource f dialog).probes = dialog.probes := rfl
      rw [sameProbes]
      split_ifs
      · rfl
      · rw [cores]
        cases chosen : FuelLoop.run (askCores next width setup options) fuel dialog with
        | none => rfl
        | some ended =>
            have there := FuelLoop.run_all _ _ _ (ask_cores_kept width setup options answers) fuel
              dialog ended here chosen
            cases ended with
            | exits code dialog => rfl
            | goesOn dialog =>
                have minutes := FuelLoop.run_map _ _ _ _ _ _
                  (ask_minutes_map width setup options answers)
                  (ask_minutes_kept width setup options answers) fuel dialog there
                simp only [Option.map_some, Option.bind_some, endWithSource]
                rw [minutes, Option.map_map, Option.map_map]
                rfl

end Correspondence

/-- Every question comes to an end: each time it is asked again, less is left of the
input. -/
theorem ask_ends (width : LongWidth) (setup : Setup) (options : Options) (stdin : Text) :
    ∃ ended, ask readLine width setup options (stdin.length + 1) stdin = some ended := by
  have answers : SameAnswers readLine readLine id fun left => left.length ≤ stdin.length := by
    constructor
    · intro left _
      exact (congrFun Option.map_id _).symm
    · exact fun left read here found => (read_line_shortens found).le.trans here
  let first : Dialog Text :=
    { source := stdin, probes := options.probes, minutes := options.minutes }
  obtain ⟨dialog, asked, here⟩ := FuelLoop.run_all_ends _ _ _
    (fun dialog : Dialog Text => dialog.source.length) (ask_probe_kept setup options answers)
    (fun _ _ => ask_probe_again setup options) (stdin.length + 1) first (le_refl _)
    (Nat.lt_succ_self _)
  obtain ⟨chosen, selected, there⟩ := FuelLoop.run_all_ends _ _ _
    (fun dialog : Dialog Text => dialog.source.length)
    (ask_cores_kept width setup options answers)
    (fun _ _ => ask_cores_again width setup options) (stdin.length + 1) dialog here
    (Nat.lt_succ_of_le here)
  have begins : ask readLine width setup options (stdin.length + 1) stdin = _ :=
    congrArg (fun run => Option.bind run _) asked
  rw [begins, Option.bind_some]
  split_ifs
  · exact ⟨_, rfl⟩
  · rw [selected, Option.bind_some]
    cases chosen with
    | exits code dialog => exact ⟨_, rfl⟩
    | goesOn dialog =>
        obtain ⟨last, given, _⟩ := FuelLoop.run_all_ends _ _ _
          (fun dialog : Dialog Text => dialog.source.length)
          (ask_minutes_kept width setup options answers)
          (fun _ _ => ask_minutes_again width setup options) (stdin.length + 1) dialog there
          (Nat.lt_succ_of_le there)
        dsimp only
        rw [given]
        exact ⟨_, rfl⟩

section Count

/-- What is left of a line that does not fit. -/
theorem fgets_long {line : Text} (rest : Text) (plain : '\n' ∉ line) (long : 255 ≤ line.length) :
    (fgets 255 (line ++ rest)).2 = line.drop 255 ++ rest := by
  have front : '\n' ∉ line.take 255 := fun inside => plain (List.mem_of_mem_take inside)
  have stored := fgets_cut (line.drop 255 ++ rest) front
  rw [List.length_take, Nat.min_eq_left long, ← List.append_assoc, List.take_append_drop] at stored
  rw [stored]

theorem lines_nil_iff (stdin : Text) : lines stdin = [] ↔ stdin = [] := by
  rcases line_cases stdin with plain | ⟨line, rest, rfl, plain⟩
  · rw [lines_last plain]
    split_ifs with empty <;> simp [empty]
  · rw [lines_cons plain]
    simp

/-- One call takes no more than one line. -/
theorem lines_le_left {stdin : Text} {read : Text × Text} (found : readLine stdin = some read) :
    (lines stdin).length ≤ (lines read.2).length + 1 := by
  rw [(read_line_left found).2]
  rcases line_cases stdin with plain | ⟨line, rest, rfl, plain⟩
  · rw [lines_last plain]
    split_ifs <;> simp
  · rw [lines_cons plain, List.length_cons]
    by_cases fits : line.length < 255
    · rw [fgets_line 255 plain fits]
    · rw [fgets_long _ plain (Nat.le_of_not_lt fits),
        lines_cons fun inside => plain (List.mem_of_mem_drop inside), List.length_cons]
      omega

theorem lines_le_calls {call : Nat} {stdin : Text} (ended : answerOf readLine call stdin = none) :
    (lines stdin).length ≤ call := by
  induction call generalizing stdin with
  | zero =>
      have empty := (read_line_none_iff stdin).mp (Option.map_eq_none_iff.mp ended)
      rw [empty]
      rfl
  | succ call ih =>
      rw [answerOf] at ended
      cases found : readLine stdin with
      | none =>
          rw [(read_line_none_iff stdin).mp found]
          exact Nat.zero_le _
      | some read =>
          rw [found] at ended
          exact (lines_le_left found).trans (Nat.succ_le_succ (ih ended))

/-- A line that is cut leaves more answers than there are lines. -/
theorem fits_of_answers {count : Nat} {stdin : Text} (typed : (lines stdin).length = count)
    (ended : answerOf readLine count stdin = none) : Fits stdin := by
  induction count generalizing stdin with
  | zero =>
      rw [(lines_nil_iff stdin).mp (List.length_eq_zero_iff.mp typed)]
      exact (fits_last List.not_mem_nil).mpr (Nat.zero_le _)
  | succ count ih =>
      rw [answerOf] at ended
      cases found : readLine stdin with
      | none =>
          rw [(read_line_none_iff stdin).mp found] at typed
          cases typed
      | some read =>
          rw [found] at ended
          dsimp only at ended
          have left := (read_line_left found).2
          rcases line_cases stdin with plain | ⟨line, rest, rfl, plain⟩
          · rw [fits_last plain]
            by_contra long
            have stored := fgets_long [] plain (by omega)
            rw [List.append_nil, List.append_nil, ← left] at stored
            have single : (lines stdin).length ≤ 1 := by
              rw [lines_last plain]
              split_ifs <;> simp
            have none := List.length_eq_zero_iff.mp
              (Nat.le_zero.mp ((lines_le_calls ended).trans (by omega)))
            have short := congrArg List.length ((lines_nil_iff _).mp none)
            rw [stored, List.length_drop, List.length_nil] at short
            omega
          · rw [lines_cons plain, List.length_cons, Nat.add_right_cancel_iff] at typed
            rw [fits_cons plain]
            by_cases fits : line.length < 255
            · rw [fgets_line 255 plain fits] at left
              rw [left] at ended
              exact ⟨Nat.le_of_lt_succ fits, ih typed ended⟩
            · rw [fgets_long _ plain (Nat.le_of_not_lt fits)] at left
              have shorter := lines_le_calls ended
              rw [left, lines_cons fun inside => plain (List.mem_of_mem_drop inside),
                List.length_cons] at shorter
              omega

end Count

/-- Every call returns its line, and the questions are answered as from a source
of whole lines. -/
def OneAnswerPerLine (stdin : Text) : Prop :=
  (∀ call, answerOf readLine call stdin = (lines stdin)[call]?.map trim) ∧
  ∀ width setup options fuel,
    ask nextLine width setup options fuel (lines stdin) =
      (ask readLine width setup options fuel stdin).map (endWithSource lines)

theorem one_answer_per_line_iff (stdin : Text) (clean : nul ∉ stdin) :
    OneAnswerPerLine stdin ↔ Fits stdin := by
  constructor
  · intro answers
    apply fits_of_answers rfl
    rw [answers.1, List.getElem?_eq_none (le_refl _)]
    rfl
  · intro fits
    constructor
    · intro call
      rw [answer_of_fits call clean fits, answer_of_line]
    · intro width setup options fuel
      have answers : SameAnswers readLine nextLine lines fun left => nul ∉ left ∧ Fits left := by
        constructor
        · exact fun left here => (next_line_of_fits here.1 here.2).1
        · exact fun left read here found => (next_line_of_fits here.1 here.2).2 read found
      exact ask_map width setup options answers fuel ⟨clean, fits⟩

/-- `0-7` behind 251 blanks. -/
theorem one_answer_per_line_iff_padded :
    OneAnswerPerLine (List.replicate 251 ' ' ++ "0-7\n".toList) :=
  (one_answer_per_line_iff _ (by decide)).mpr (by unfold Fits; decide +kernel)

/-- `12` behind 254 blanks selects core 1, and the `2` answers the next question. -/
theorem long_line_is_cut :
    ¬ OneAnswerPerLine (List.replicate 254 ' ' ++ "12\n".toList) := by
  intro answers
  have first := answers.1 0
  have cut : answerOf readLine 0 (List.replicate 254 ' ' ++ "12\n".toList) =
      some "1".toList := by
    decide +kernel
  rw [cut] at first
  revert first
  decide +kernel

end SdcProbe.PromptLines
