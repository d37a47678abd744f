import SdcProbe.AnswerText
import SdcProbe.Report

/-!
# Reading a core selection

`parse_cpu_selection` of `sdcprobe.cpp`. The scan position is the rest of the
normalized text. An error leaves in `out` what was selected before it.
-/

namespace SdcProbe.CpuSelection

open CNumeral AnswerText Report

set_option autoImplicit false

/-- `k_max_core_index`. -/
def kMaxCoreIndex : Int := 4095

def normalizeChar (c : Char) : Char := if c = ',' ∨ c = ';' then ' ' else c

def cannotParse (token : Text) : Text := "cannot parse '".toList ++ token ++ "'".toList

def runsBackwards (token : Text) : Text :=
  "range '".toList ++ token ++ "' runs backwards".toList

def negativeNumber (token : Text) : Text :=
  "negative core number in '".toList ++ token ++ "'".toList

def numberTooLarge (token : Text) : Text :=
  "core number in '".toList ++ token ++ "' exceeds ".toList ++ stdToString kMaxCoreIndex.toNat

def notAvailable (index : Nat) : Text :=
  "core ".toList ++ stdToString index ++ " is not available to this process".toList

/-- The checks on both ends that follow the conversions. -/
def checkBounds (token : Text) (low high : Int) : Except Text (Int × Int) :=
  if low < 0 then .error (negativeNumber token)
  else if high > kMaxCoreIndex then .error (numberTooLarge token)
  else .ok (low, high)

/-- One token: a number, or a range cut at its first dash unless it starts
with it. -/
def readToken (width : LongWidth) (token : Text) : Except Text (Int × Int) :=
  let dash := token.idxOf '-'
  if dash ≠ token.length ∧ dash ≠ 0 then
    let lowText := token.take dash
    let highText := token.drop (dash + 1)
    let low := strtol width lowText
    if deref low.2 ≠ nul ∨ lowText = [] then .error (cannotParse token)
    else
      let high := strtol width highText
      if deref high.2 ≠ nul ∨ highText = [] then .error (cannotParse token)
      else if high.1 < low.1 then .error (runsBackwards token)
      else checkBounds token low.1 high.1
  else
    let low := strtol width token
    if deref low.2 ≠ nul then .error (cannotParse token)
    else checkBounds token low.1 low.1

/-- The values `low`, `low + 1`, … up to `high`, narrowed to 32 bits. -/
def pushRange (low high : Int) (wanted : List Nat) : List Nat :=
  wanted ++ (List.range (high - low + 1).toNat).map fun step => ((low + step) % 2 ^ 32).toNat

theorem token_shortens {normalized : Text} {c : Char} {tail : Text}
    (skipped : normalized.dropWhile (· == ' ') = c :: tail) :
    ((c :: tail).dropWhile (· != ' ')).length < normalized.length := by
  have within : (normalized.dropWhile (· == ' ')).length ≤ normalized.length :=
    (List.dropWhile_suffix _).length_le
  have first := List.head?_dropWhile_not (· == ' ') normalized
  rw [skipped] at first
  rw [List.dropWhile_cons_of_pos (by simpa using first)]
  rw [skipped, List.length_cons] at within
  have shorter : (tail.dropWhile (· != ' ')).length ≤ tail.length :=
    (List.dropWhile_suffix _).length_le
  omega

/-- The numbers the tokens ask for, in the order of the text. -/
def collectWanted (width : LongWidth) (normalized : Text) (wanted : List Nat) :
    Except Text (List Nat) :=
  match _skipped : normalized.dropWhile (· == ' ') with
  | [] => .ok wanted
  | c :: tail =>
      match readToken width ((c :: tail).takeWhile (· != ' ')) with
      | .error message => .error message
      | .ok (low, high) =>
          collectWanted width ((c :: tail).dropWhile (· != ' ')) (pushRange low high wanted)
termination_by normalized.length
decreasing_by exact token_shortens _skipped

structure Selection where
  accepted : Bool
  out : List CpuInfo
  error : Text
  deriving DecidableEq

/-- The lookup of each number, a repeat selecting nothing more. -/
def selectWanted (available : List CpuInfo) : List Nat → Selection → Selection
  | [], selection => { selection with accepted := true }
  | index :: wanted, selection =>
      match available.find? (·.index == index) with
      | none => { selection with accepted := false, error := notAvailable index }
      | some found =>
          if selection.out.any (·.index == index) then selectWanted available wanted selection
          else selectWanted available wanted { selection with out := selection.out ++ [found] }

def parseCpuSelection (width : LongWidth) (input : Text) (available : List CpuInfo)
    (before : Selection) : Selection :=
  let cleared := { before with out := [] }
  let text := trim input
  if text = [] ∨ equalsIgnoreCase text "all".toList then
    { cleared with accepted := true, out := available }
  else
    match collectWanted width (text.map normalizeChar) [] with
    | .error message => { cleared with accepted := false, error := message }
    | .ok [] => { cleared with accepted := false, error := "no cores given".toList }
    | .ok wanted => selectWanted available wanted cleared

end SdcProbe.CpuSelection
