import SdcProbe.CNumeral

/-!
# The screen and the report file

The class `Logger`. The texts are what the format strings expand to. Writing to
either sink succeeds here, and what the file holds stays when it is closed.
-/

namespace SdcProbe.LogOutput

open CNumeral

set_option autoImplicit false

/-- The members of `std::tm` that `%H:%M:%S` reads. -/
structure Time where
  hour : Fin 24
  minute : Fin 60
  second : Fin 61

def twoDigits (number : Nat) : Text := [Nat.digitChar (number / 10), Nat.digitChar (number % 10)]

def unknownTime : Text := "unknown-time".toList

/-- `timestamp("%H:%M:%S")`, where `std::localtime` gives this. -/
def timestamp : Option Time → Text
  | none => unknownTime
  | some time =>
      twoDigits time.hour ++ ':' :: twoDigits time.minute ++ ':' :: twoDigits time.second

structure Logger where
  path : Text := []
  /-- `file_ != nullptr` -/
  hasFile : Bool := false
  /-- What the file holds. -/
  contents : Text := []
  stdout : Text := []
  progressOpen : Bool := false

def closeProgressLine (logger : Logger) : Logger :=
  if logger.progressOpen then
    { logger with stdout := logger.stdout ++ ['\n'], progressOpen := false }
  else logger

def fileLine (text : Text) (logger : Logger) : Logger :=
  if logger.hasFile then { logger with contents := logger.contents ++ (text ++ ['\n']) }
  else logger

def line (text : Text) (logger : Logger) : Logger :=
  let logger := closeProgressLine logger
  fileLine text { logger with stdout := logger.stdout ++ (text ++ ['\n']) }

/-- The same writes as of a line without text. -/
def blank (logger : Logger) : Logger := line [] logger

/-- `\r%s    ` -/
def progressRow (text : Text) : Text := '\r' :: (text ++ "    ".toList)

/-- `[%s] ` and the text. -/
def progressLine (time : Option Time) (text : Text) : Text :=
  '[' :: (timestamp time ++ "] ".toList ++ text)

def progress (time : Option Time) (text : Text) (logger : Logger) : Logger :=
  fileLine (progressLine time text)
    { logger with stdout := logger.stdout ++ progressRow text, progressOpen := true }

def close (logger : Logger) : Logger := { closeProgressLine logger with hasFile := false }

/-- `open`, where `fopen` ends like this; the file is emptied. -/
def openFile (opened : Bool) (path : Text) (logger : Logger) : Logger :=
  let logger := close logger
  if opened then { logger with path := path, hasFile := true, contents := [] } else logger

inductive Operation where
  | line (text : Text)
  | fileLine (text : Text)
  | blank
  | progress (time : Option Time) (text : Text)
  | close

def perform (logger : Logger) : Operation → Logger
  | .line text => line text logger
  | .fileLine text => fileLine text logger
  | .blank => blank logger
  | .progress time text => progress time text logger
  | .close => close logger

def performAll (operations : List Operation) (logger : Logger) : Logger :=
  operations.foldl perform logger

/-- A logger without a file, or with one that was opened under this path. -/
def start : Option Text → Logger
  | none => {}
  | some path => openFile true path {}

/-- The rows of a text. The last one is not completed. -/
def rows (text : Text) : List Text := text.splitOnP fun c => c = '\n'

/-- The texts have no newline. -/
def Operation.Plain : Operation → Prop
  | .line text => '\n' ∉ text
  | .fileLine text => '\n' ∉ text
  | .progress _ text => '\n' ∉ text
  | .blank => True
  | .close => True

/-- The line a call leaves in an open file. -/
def Operation.fileEntry : Operation → Option Text
  | .line text => some text
  | .fileLine text => some text
  | .blank => some []
  | .progress time text => some (progressLine time text)
  | .close => none

/-- The lines of the calls up to the first `close`. -/
def fileEntries : List Operation → List Text
  | [] => []
  | operation :: rest =>
      match operation.fileEntry with
      | none => []
      | some entry => entry :: fileEntries rest

section Rows

theorem rows_newline (front behind : Text) :
    rows (front ++ '\n' :: behind) = rows front ++ rows behind :=
  List.splitOnP_append_cons front behind rfl

theorem rows_plain {text : Text} (plain : '\n' ∉ text) : rows text = [text] := by
  apply List.splitOnP_eq_singleton
  intro c found
  rw [decide_eq_false_iff_not]
  exact ne_of_mem_of_not_mem found plain

/-- Nothing is left over behind the last newline. -/
def Completed (text : Text) : Prop := text = [] ∨ ∃ front, text = front ++ ['\n']

theorem completed_newline (text : Text) : Completed (text ++ ['\n']) := Or.inr ⟨text, rfl⟩

/-- Completed rows stay as they are, whatever is written behind them. -/
theorem completed_rows {text : Text} (completed : Completed text) :
    ∃ above, rows text = above ++ [[]] ∧
      ∀ behind, rows (text ++ behind) = above ++ rows behind := by
  rcases completed with rfl | ⟨front, rfl⟩
  · exact ⟨[], rfl, fun _ => rfl⟩
  · apply Exists.intro (rows front)
    constructor
    · exact rows_newline front []
    · intro behind
      rw [List.append_assoc]
      exact rows_newline front behind

end Rows

section Screen

/-- The flag tells whether the last row is that of a progress call. -/
structure Consistent (logger : Logger) : Prop where
  unfinished : logger.progressOpen = true →
    ∃ before text, '\n' ∉ text ∧ logger.stdout = before ++ progressRow text
  finished : logger.progressOpen = false → Completed logger.stdout

variable {logger : Logger}

theorem close_progress_line_completed (consistent : Consistent logger) :
    Completed (closeProgressLine logger).stdout ∧
      (closeProgressLine logger).progressOpen = false := by
  unfold closeProgressLine
  split_ifs with unfinished
  · exact ⟨completed_newline logger.stdout, rfl⟩
  · rw [Bool.not_eq_true] at unfinished
    exact ⟨consistent.finished unfinished, unfinished⟩

theorem file_line_screen (logger : Logger) (text : Text) :
    (fileLine text logger).stdout = logger.stdout ∧
      (fileLine text logger).progressOpen = logger.progressOpen := by
  unfold fileLine
  split_ifs
  · exact ⟨rfl, rfl⟩
  · exact ⟨rfl, rfl⟩

/-- What a line is printed behind, and that it is the last on the screen. -/
theorem line_screen (logger : Logger) (text : Text) :
    (line text logger).stdout = (closeProgressLine logger).stdout ++ (text ++ ['\n']) ∧
      (line text logger).progressOpen = (closeProgressLine logger).progressOpen :=
  file_line_screen _ text

theorem line_consistent (text : Text) (consistent : Consistent logger) :
    Consistent (line text logger) := by
  have screen := line_screen logger text
  constructor
  · intro unfinished
    rw [screen.2, (close_progress_line_completed consistent).2] at unfinished
    cases unfinished
  · intro _
    rw [screen.1, ← List.append_assoc]
    exact completed_newline _

theorem perform_consistent {operation : Operation} (plain : operation.Plain)
    (consistent : Consistent logger) : Consistent (perform logger operation) := by
  cases operation with
  | line text => exact line_consistent text consistent
  | fileLine text =>
      have screen := file_line_screen logger text
      rw [perform]
      constructor
      · rw [screen.1, screen.2]
        exact consistent.unfinished
      · rw [screen.1, screen.2]
        exact consistent.finished
  | blank => exact line_consistent [] consistent
  | progress time text =>
      have screen := file_line_screen
        { logger with stdout := logger.stdout ++ progressRow text, progressOpen := true }
        (progressLine time text)
      constructor
      · intro _
        exact ⟨logger.stdout, text, plain, screen.1⟩
      · intro finished
        have unfinished := screen.2.symm.trans finished
        cases unfinished
  | close =>
      have closed := close_progress_line_completed consistent
      constructor
      · intro unfinished
        exact absurd unfinished (by rw [perform, close, closed.2]; exact Bool.false_ne_true)
      · exact fun _ => closed.1

theorem close_progress_line_grows (logger : Logger) :
    ∃ more, (closeProgressLine logger).stdout = logger.stdout ++ more := by
  unfold closeProgressLine
  split_ifs
  · exact ⟨_, rfl⟩
  · exact ⟨[], (List.append_nil _).symm⟩

theorem line_grows (logger : Logger) (text : Text) :
    ∃ more, (line text logger).stdout = logger.stdout ++ more := by
  obtain ⟨more, closing⟩ := close_progress_line_grows logger
  rw [(line_screen logger text).1, closing, List.append_assoc]
  exact ⟨_, rfl⟩

theorem perform_grows (logger : Logger) (operation : Operation) :
    ∃ more, (perform logger operation).stdout = logger.stdout ++ more := by
  cases operation with
  | line text => exact line_grows logger text
  | fileLine text => exact ⟨[], (file_line_screen logger text).1.trans (List.append_nil _).symm⟩
  | blank => exact line_grows logger []
  | progress time text => exact ⟨progressRow text, (file_line_screen _ _).1⟩
  | close => exact close_progress_line_grows logger

theorem perform_all_grows (operations : List Operation) (logger : Logger) :
    ∃ more, (performAll operations logger).stdout = logger.stdout ++ more := by
  induction operations generalizing logger with
  | nil => exact ⟨[], (List.append_nil _).symm⟩
  | cons operation rest ih =>
      obtain ⟨first, printed⟩ := perform_grows logger operation
      obtain ⟨more, others⟩ := ih (perform logger operation)
      apply Exists.intro (first ++ more)
      rw [← List.append_assoc, ← printed]
      exact others

theorem perform_all_consistent {operations : List Operation} {logger : Logger}
    (plain : ∀ operation ∈ operations, operation.Plain) (consistent : Consistent logger) :
    Consistent (performAll operations logger) := by
  induction operations generalizing logger with
  | nil => exact consistent
  | cons operation rest ih =>
      apply ih fun other member => plain other (List.mem_cons_of_mem _ member)
      exact perform_consistent (plain operation List.mem_cons_self) consistent

theorem start_consistent (path : Option Text) : Consistent (start path) := by
  cases path with
  | none => exact { unfinished := nofun, finished := fun _ => Or.inl rfl }
  | some path => exact { unfinished := nofun, finished := fun _ => Or.inl rfl }

/-- A progress row ends in a blank, a completed row in a newline. -/
theorem progress_row_not_completed {before text : Text} :
    ¬ Completed (before ++ progressRow text) := by
  have last : before ++ progressRow text = before ++ '\r' :: (text ++ "   ".toList) ++ [' '] := by
    simp [progressRow]
  rw [last]
  rintro (none | ⟨front, same⟩)
  · simp at none
  · have ends := (List.append_inj' same rfl).2
    cases ends

theorem progress_open_iff (consistent : Consistent logger) :
    logger.progressOpen = true ↔
      ∃ before text, '\n' ∉ text ∧ logger.stdout = before ++ progressRow text := by
  constructor
  · exact consistent.unfinished
  · rintro ⟨before, text, _, shown⟩
    by_contra closed
    have completed := consistent.finished ((Bool.not_eq_true _).mp closed)
    rw [shown] at completed
    exact progress_row_not_completed completed

end Screen

section File

theorem digit_char_ne_newline (digit : Fin 10) : '\n' ≠ Nat.digitChar digit := by
  revert digit
  decide

theorem two_digits_plain (number : Nat) (small : number < 100) : '\n' ∉ twoDigits number := by
  have high := digit_char_ne_newline ⟨number / 10, by omega⟩
  have low := digit_char_ne_newline ⟨number % 10, by omega⟩
  rw [twoDigits, List.mem_cons, List.mem_singleton, not_or]
  exact ⟨high, low⟩

theorem timestamp_plain (time : Option Time) : '\n' ∉ timestamp time := by
  cases time with
  | none => exact (by decide : '\n' ∉ unknownTime)
  | some time =>
      have hour := two_digits_plain time.hour (by omega)
      have minute := two_digits_plain time.minute (by omega)
      have second := two_digits_plain time.second (by omega)
      simp only [timestamp, List.mem_append, List.mem_cons, not_or]
      exact ⟨⟨hour, by decide, minute⟩, by decide, second⟩

theorem file_entry_plain {operation : Operation} (plain : operation.Plain) {entry : Text}
    (leaves : operation.fileEntry = some entry) : '\n' ∉ entry := by
  cases operation with
  | line text =>
      cases leaves
      exact plain
  | fileLine text =>
      cases leaves
      exact plain
  | blank =>
      cases leaves
      exact List.not_mem_nil
  | progress time text =>
      cases leaves
      have stamp := timestamp_plain time
      have rest : '\n' ∉ text := plain
      simp [progressLine, stamp, rest]
  | close => cases leaves

theorem file_line_file (logger : Logger) (text : Text) :
    (fileLine text logger).hasFile = logger.hasFile ∧
      (fileLine text logger).contents =
        logger.contents ++ if logger.hasFile then text ++ ['\n'] else [] := by
  unfold fileLine
  split_ifs
  · exact ⟨rfl, rfl⟩
  · exact ⟨rfl, (List.append_nil _).symm⟩

theorem close_progress_line_file (logger : Logger) :
    (closeProgressLine logger).hasFile = logger.hasFile ∧
      (closeProgressLine logger).contents = logger.contents := by
  unfold closeProgressLine
  split_ifs
  · exact ⟨rfl, rfl⟩
  · exact ⟨rfl, rfl⟩

theorem line_file (logger : Logger) (text : Text) :
    (line text logger).hasFile = logger.hasFile ∧
      (line text logger).contents =
        logger.contents ++ if logger.hasFile then text ++ ['\n'] else [] := by
  have closing := close_progress_line_file logger
  have written := file_line_file { closeProgressLine logger with
    stdout := (closeProgressLine logger).stdout ++ (text ++ ['\n']) } text
  rw [closing.1, closing.2] at written
  exact written

/-- Every call but `close` writes its line to an open file. -/
theorem perform_entry (logger : Logger) {operation : Operation} {entry : Text}
    (leaves : operation.fileEntry = some entry) :
    (perform logger operation).hasFile = logger.hasFile ∧
      (perform logger operation).contents =
        logger.contents ++ if logger.hasFile then entry ++ ['\n'] else [] := by
  cases operation with
  | line _ =>
      cases leaves
      exact line_file logger entry
  | fileLine _ =>
      cases leaves
      exact file_line_file logger entry
  | blank =>
      cases leaves
      exact line_file logger []
  | progress time text =>
      cases leaves
      exact file_line_file _ _
  | close => cases leaves

theorem close_of_no_entry {operation : Operation} (leaves : operation.fileEntry = none) :
    operation = .close := by
  cases operation with
  | close => rfl
  | line _ => cases leaves
  | fileLine _ => cases leaves
  | blank => cases leaves
  | progress _ _ => cases leaves

theorem closed_has_no_file (logger : Logger) : (close logger).hasFile = false := rfl

theorem close_keeps_contents (logger : Logger) : (close logger).contents = logger.contents :=
  (close_progress_line_file logger).2

theorem perform_all_without_file (operations : List Operation) {logger : Logger}
    (closed : logger.hasFile = false) :
    (performAll operations logger).contents = logger.contents := by
  induction operations generalizing logger with
  | nil => rfl
  | cons operation rest ih =>
      cases leaves : operation.fileEntry with
      | none =>
          rw [close_of_no_entry leaves]
          exact (ih (closed_has_no_file logger)).trans (close_keeps_contents logger)
      | some entry =>
          have written := perform_entry logger leaves
          rw [closed] at written
          exact (ih written.1).trans (written.2.trans (List.append_nil _))

theorem perform_all_file {operations : List Operation} {logger : Logger} {above : List Text}
    (plain : ∀ operation ∈ operations, operation.Plain) (opened : logger.hasFile = true)
    (held : ∀ behind, rows (logger.contents ++ behind) = above ++ rows behind) :
    rows (performAll operations logger).contents = above ++ fileEntries operations ++ [[]] := by
  induction operations generalizing logger above with
  | nil =>
      have whole := held []
      rw [List.append_nil] at whole
      rw [fileEntries, List.append_nil]
      exact whole
  | cons operation rest ih =>
      cases leaves : operation.fileEntry with
      | none =>
          have kept := perform_all_without_file rest (closed_has_no_file logger)
          have whole := held []
          rw [List.append_nil] at whole
          rw [fileEntries, leaves, List.append_nil, close_of_no_entry leaves]
          change rows (performAll rest (close logger)).contents = _
          rw [kept, close_keeps_contents]
          exact whole
      | some entry =>
          have written := perform_entry logger leaves
          have bare := file_entry_plain (plain operation List.mem_cons_self) leaves
          rw [opened, if_pos rfl] at written
          have held : ∀ behind, rows ((perform logger operation).contents ++ behind) =
              (above ++ [entry]) ++ rows behind := by
            intro behind
            rw [written.2, List.append_assoc, List.append_assoc, held, List.singleton_append,
              rows_newline, rows_plain bare, List.append_assoc]
          have further := ih (fun other member => plain other (List.mem_cons_of_mem _ member))
            written.1 held
          rw [fileEntries, leaves]
          change rows (performAll rest (perform logger operation)).contents = _
          rw [further]
          simp

end File

theorem perform_all_append (front behind : List Operation) (logger : Logger) :
    performAll (front ++ behind) logger = performAll behind (performAll front logger) :=
  List.foldl_append

/-- A printed line is a row of its own: the rows above it are those there were
before, with a progress row completed, and it is completed itself. -/
structure OwnRow (before final : Logger) (text : Text) : Prop where
  row : ∃ above below, rows (closeProgressLine before).stdout = above ++ [[]] ∧
    rows final.stdout = above ++ text :: below ∧ below ≠ []

theorem line_own_row {logger : Logger} (consistent : Consistent logger) {text : Text}
    (plain : '\n' ∉ text) (after : List Operation) :
    OwnRow logger (performAll after (line text logger)) text := by
  obtain ⟨above, ended, behind⟩ :=
    completed_rows (close_progress_line_completed consistent).1
  obtain ⟨more, printed⟩ := perform_all_grows after (line text logger)
  constructor
  refine ⟨above, rows more, ended, ?_, List.splitOnP_ne_nil _ more⟩
  rw [printed, (line_screen logger text).1, List.append_assoc, behind, List.append_assoc,
    List.singleton_append, rows_newline, rows_plain plain, List.singleton_append]

/-- The file holds one line for each call while it was open; every printed line is
a row of its own; the flag tells whether the last thing printed is a progress row;
`close` completes the last row, and nothing is written to the file after it. -/
theorem screen_and_file_stay_consistent (path : Option Text) (operations : List Operation)
    (plain : ∀ operation ∈ operations, operation.Plain) :
    rows (performAll operations (start path)).contents =
      (if path.isSome then fileEntries operations else []) ++ [[]] ∧
    ((performAll operations (start path)).progressOpen = true ↔ ∃ before text, '\n' ∉ text ∧
      (performAll operations (start path)).stdout = before ++ progressRow text) ∧
    (∀ before text after, operations = before ++ .line text :: after →
      OwnRow (performAll before (start path)) (performAll operations (start path)) text) ∧
    ∀ before after, operations = before ++ .close :: after →
      (∃ above, rows (performAll (before ++ [.close]) (start path)).stdout = above ++ [[]]) ∧
      (performAll operations (start path)).contents =
        (performAll before (start path)).contents := by
  have consistent := perform_all_consistent plain (start_consistent path)
  have earlier : ∀ before operation after, operations = before ++ operation :: after →
      Consistent (performAll before (start path)) := by
    intro before operation after split
    apply perform_all_consistent _ (start_consistent path)
    intro other member
    apply plain
    rw [split]
    exact List.mem_append_left _ member
  have file : rows (performAll operations (start path)).contents =
      (if path.isSome then fileEntries operations else []) ++ [[]] := by
    cases path with
    | none => rw [perform_all_without_file operations rfl]; rfl
    | some path =>
        have empty : ∀ behind, rows ((start (some path)).contents ++ behind) = [] ++ rows behind :=
          fun _ => rfl
        exact perform_all_file plain rfl empty
  have ownRow : ∀ before text after, operations = before ++ .line text :: after →
      OwnRow (performAll before (start path)) (performAll operations (start path)) text := by
    intro before text after split
    have bare : (Operation.line text).Plain := by
      apply plain
      rw [split]
      exact List.mem_append_right _ List.mem_cons_self
    rw [split, perform_all_append]
    exact line_own_row (earlier before _ after split) bare after
  have closed : ∀ before after, operations = before ++ .close :: after →
      (∃ above, rows (performAll (before ++ [.close]) (start path)).stdout = above ++ [[]]) ∧
      (performAll operations (start path)).contents =
        (performAll before (start path)).contents := by
    intro before after split
    have completed := (close_progress_line_completed (earlier before _ after split)).1
    obtain ⟨above, ended, _⟩ := completed_rows completed
    constructor
    · rw [perform_all_append]
      exact ⟨above, ended⟩
    · rw [split, perform_all_append]
      exact (perform_all_without_file after (closed_has_no_file _)).trans (close_keeps_contents _)
  exact ⟨file, progress_open_iff consistent, ownRow, closed⟩

/-- A line printed while a progress row is open. -/
theorem screen_and_file_stay_consistent_over_progress :
    rows (performAll [.progress none "cpu 0".toList, .line "done".toList, .close]
        (start (some "a.log".toList))).contents =
      ["[unknown-time] cpu 0".toList, "done".toList, []] := by
  have plain : ∀ operation ∈ [Operation.progress none "cpu 0".toList, .line "done".toList, .close],
      operation.Plain := by
    intro operation member
    simp only [List.mem_cons, List.not_mem_nil, or_false] at member
    rcases member with rfl | rfl | rfl
    · exact (by decide : '\n' ∉ "cpu 0".toList)
    · exact (by decide : '\n' ∉ "done".toList)
    · trivial
  exact (screen_and_file_stay_consistent (some "a.log".toList) _ plain).1

end SdcProbe.LogOutput
