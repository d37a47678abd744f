import SdcProbe.CommandLine
import SdcProbe.CpuSelection
import SdcProbe.FuelLoop

/-!
# The questions of `main`

`read_line` and the three prompts: probe, cores, minutes per core. The prompts
are written over any source of answers, so that they can also be run on answers
that were never cut. A source gives the next answer and what is left of it, and
nothing at the end of the input.
-/

namespace SdcProbe.Prompts

open CNumeral AnswerText Report CoreSweep CpuSelection CommandLine Verdict

set_option autoImplicit false

/-- The characters `fgets` stores when there is room for so many: it stops
behind a newline. -/
def fgets : Nat → Text → Text × Text
  | 0, stdin => ([], stdin)
  | _ + 1, [] => ([], [])
  | room + 1, c :: stdin =>
      if c = '\n' then ([c], stdin)
      else ((c :: (fgets room stdin).1), (fgets room stdin).2)

/-- The text of a character array: it ends at the first NUL. -/
def fromArray (stored : Text) : Text := stored.takeWhile (· ≠ nul)

/-- `char buffer[256]` holds 255 characters and the NUL behind them. -/
def kBufferSize : Nat := 256

def readLine (stdin : Text) : Option (Text × Text) :=
  if stdin = [] then none
  else
    let stored := fgets (kBufferSize - 1) stdin
    some (trim (fromArray stored.1), stored.2)

/-- The machine and the terminal `main` finds. -/
structure Setup where
  interactive : Bool
  available : List CpuInfo
  rbxProblem : Option Text := none

structure Dialog (Source : Type) where
  source : Source
  probes : ProbeSelection
  selected : List CpuInfo := []
  minutes : Nat
  said : List Text := []

inductive DialogEnd (Source : Type) where
  | exits (code : Nat) (dialog : Dialog Source)
  | goesOn (dialog : Dialog Source)

variable {Source : Type}

def Dialog.say (dialog : Dialog Source) (text : Text) : Dialog Source :=
  { dialog with said := dialog.said ++ [text] }

section Loops

variable (next : Source → Option (Text × Source)) (width : LongWidth) (setup : Setup)
  (options : Options)

def askProbe (dialog : Dialog Source) : FuelLoop.Trip (Dialog Source) (Dialog Source) :=
  if options.haveProbe then .leave dialog
  else if ¬ setup.interactive then
    .leave (dialog.say "Probe [ch]: ch   (stdin is not a terminal)\n".toList)
  else
    let dialog := dialog.say
      "Probe - 'ch' (CH misread), 'rbx' (frame base) or 'all' [ch]: ".toList
    match next dialog.source with
    | none => .leave (dialog.say "ch   (end of input)\n".toList)
    | some (answer, source) =>
        match parseProbeSelection answer dialog.probes with
        | some probes => .leave { dialog with source := source, probes := probes }
        | none =>
            .again ({ dialog with source := source }.say "  expected ch, rbx or all\n".toList)

/-- The answer to the second question, which is not asked when `--cores` gave it. -/
def coresAnswer (dialog : Dialog Source) : Text × Dialog Source :=
  if options.haveCores then (options.coresSpec, dialog)
  else if ¬ setup.interactive then
    ("all".toList, dialog.say "Cores to test [all]: all   (stdin is not a terminal)\n".toList)
  else
    let dialog := dialog.say
      "Cores to test - 'all', or a list like '0,1,2' or '0-7,16' [all]: ".toList
    match next dialog.source with
    | none => ("all".toList, dialog.say "all   (end of input)\n".toList)
    | some (answer, source) => (answer, { dialog with source := source })

def askCores (dialog : Dialog Source) : FuelLoop.Trip (Dialog Source) (DialogEnd Source) :=
  let answered := coresAnswer next setup options dialog
  let read := parseCpuSelection width answered.1 setup.available ⟨false, dialog.selected, []⟩
  let dialog := { answered.2 with selected := read.out }
  if read.accepted then .leave (.goesOn dialog)
  else
    let dialog := dialog.say ("  ".toList ++ read.error ++ "\n".toList)
    if options.haveCores ∨ ¬ setup.interactive then .leave (.exits kExitUsage dialog)
    else .again dialog

def minutesPrompt (probes : ProbeSelection) : Text :=
  if probes.ch ∧ probes.rbx then "Minutes per core and probe".toList
  else "Minutes per core".toList

def askMinutes (dialog : Dialog Source) : FuelLoop.Trip (Dialog Source) (Dialog Source) :=
  let default := stdToString kDefaultMinutes
  let prompt := minutesPrompt dialog.probes ++ " [".toList ++ default ++ "]: ".toList
  if options.haveMinutes then .leave dialog
  else if ¬ setup.interactive then
    .leave (dialog.say (prompt ++ default ++ "   (stdin is not a terminal)\n".toList))
  else
    let dialog := dialog.say prompt
    match next dialog.source with
    | none => .leave (dialog.say (default ++ "   (end of input)\n".toList))
    | some (answer, source) =>
        let dialog := { dialog with source := source }
        if answer = [] then .leave dialog
        else
          match parseMinutes width answer with
          | none => .again (dialog.say ("  expected an integer 1..".toList ++
              stdToString kMaxMinutes ++ "\n".toList))
          | some parsed => .leave { dialog with minutes := parsed.toNat }

/-- The three loops one after the other; the rbx probe is set up between the
first two. -/
def ask (fuel : Nat) (source : Source) : Option (DialogEnd Source) :=
  (FuelLoop.run (askProbe next setup options) fuel
    { source := source, probes := options.probes, minutes := options.minutes }).bind fun dialog =>
  if dialog.probes.rbx ∧ setup.rbxProblem ≠ none then
    some (.exits kExitUsage (dialog.say ("sdcprobe: the rbx probe cannot run here: ".toList ++
      setup.rbxProblem.getD [] ++ "\n".toList)))
  else
    (FuelLoop.run (askCores next width setup options) fuel dialog).bind fun
      | .exits code dialog => some (.exits code dialog)
      | .goesOn dialog => (FuelLoop.run (askMinutes next width setup options) fuel dialog).map
          .goesOn

end Loops

section Ends

variable (width : LongWidth) (setup : Setup) (options : Options)

theorem fgets_left_le (room : Nat) (stdin : Text) :
    (fgets room stdin).2.length ≤ stdin.length := by
  induction room generalizing stdin with
  | zero => exact le_refl _
  | succ room ih =>
      cases stdin with
      | nil => exact le_refl _
      | cons c stdin =>
          rw [fgets]
          split_ifs
          · exact Nat.le_succ _
          · exact (ih stdin).trans (Nat.le_succ _)

theorem read_line_shortens {stdin : Text} {read : Text × Text}
    (found : readLine stdin = some read) : read.2.length < stdin.length := by
  unfold readLine at found
  split_ifs at found with empty
  cases found
  cases stdin with
  | nil => exact absurd rfl empty
  | cons c stdin =>
      dsimp only [kBufferSize]
      rw [fgets]
      split_ifs
      · exact Nat.lt_succ_self _
      · exact Nat.lt_succ_of_le (fgets_left_le _ stdin)

theorem all_is_accepted (available : List CpuInfo) (before : Selection) :
    (parseCpuSelection width "all".toList available before).accepted = true := rfl

/-- A question is asked again only after an answer has been read. -/
theorem ask_probe_again {dialog later : Dialog Text}
    (again : askProbe readLine setup options dialog = .again later) :
    later.source.length < dialog.source.length := by
  unfold askProbe at again
  split_ifs at again
  dsimp only [Dialog.say] at again
  cases found : readLine dialog.source with
  | none =>
      rw [found] at again
      cases again
  | some read =>
      rw [found] at again
      dsimp only at again
      cases parsed : parseProbeSelection read.1 dialog.probes with
      | none =>
          rw [parsed] at again
          cases again
          exact read_line_shortens found
      | some probes =>
          rw [parsed] at again
          cases again

theorem ask_cores_again {dialog later : Dialog Text}
    (again : askCores readLine width setup options dialog = .again later) :
    later.source.length < dialog.source.length := by
  unfold askCores at again
  dsimp only at again
  split_ifs at again with accepted given
  cases again
  rw [not_or, not_not] at given
  unfold coresAnswer at accepted ⊢
  rw [if_neg given.1, if_neg (not_not.mpr given.2)] at accepted ⊢
  dsimp only [Dialog.say] at accepted ⊢
  cases found : readLine dialog.source with
  | none =>
      rw [found] at accepted
      exact absurd (all_is_accepted width _ _) accepted
  | some read => exact read_line_shortens found

theorem ask_minutes_again {dialog later : Dialog Text}
    (again : askMinutes readLine width setup options dialog = .again later) :
    later.source.length < dialog.source.length := by
  unfold askMinutes at again
  dsimp only at again
  split_ifs at again
  dsimp only [Dialog.say] at again
  cases found : readLine dialog.source with
  | none =>
      rw [found] at again
      cases again
  | some read =>
      rw [found] at again
      dsimp only at again
      split_ifs at again
      cases parsed : parseMinutes width read.1 with
      | none =>
          rw [parsed] at again
          cases again
          exact read_line_shortens found
      | some minutes =>
          rw [parsed] at again
          cases again

end Ends

end SdcProbe.Prompts
