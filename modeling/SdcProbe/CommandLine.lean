import Mathlib.Data.List.Basic
import SdcProbe.AnswerText
import SdcProbe.Calibration
import SdcProbe.Verdict

/-!
# The command line

The argument loop of `main` and `parse_probe_selection`. A word of `argv` is a C
string, so it has no NUL in it. Parsing returns before `main` looks for cores;
what `main` does with the options afterwards is a parameter here.
-/

namespace SdcProbe.CommandLine

open CNumeral AnswerText CoreSweep Calibration Verdict

set_option autoImplicit false

abbrev CString := { text : Text // nul ∉ text }

def kDefaultSeed : Nat := 42
def kDefaultMinutes : Nat := 10

/-- What the answer makes of the selection, nothing where it is refused. An
empty answer keeps the selection. -/
def parseProbeSelection (input : Text) (probes : ProbeSelection) : Option ProbeSelection :=
  let text := trim input
  if text = [] then some probes
  else if equalsIgnoreCase text "ch".toList then some { ch := true, rbx := false }
  else if equalsIgnoreCase text "rbx".toList then some { ch := false, rbx := true }
  else if equalsIgnoreCase text "all".toList ∨ equalsIgnoreCase text "both".toList then
    some { ch := true, rbx := true }
  else none

/-- The locals of `main` the loop sets; `layers` is 0 until it is given. -/
structure Options where
  seed : Nat := kDefaultSeed
  minutes : Nat := kDefaultMinutes
  layers : Nat := 0
  probes : ProbeSelection := {}
  coresSpec : Text := []
  logPath : Text := []
  haveMinutes : Bool := false
  haveCores : Bool := false
  haveProbe : Bool := false
  wantSelfTest : Bool := false
  deriving DecidableEq

/-- The flags that take a value. -/
inductive Flag where
  | minutes | layers | seed | cores | probe | log
  deriving DecidableEq

def Flag.text : Flag → Text
  | .minutes => "--minutes".toList
  | .layers => "--layers".toList
  | .seed => "--seed".toList
  | .cores => "--cores".toList
  | .probe => "--probe".toList
  | .log => "--log".toList

def knownFlag (word : Text) : Option Flag :=
  [Flag.minutes, .layers, .seed, .cores, .probe, .log].find? fun flag => flag.text = word

def unexpectedArgument (word : Text) : Text :=
  "sdcprobe: unexpected argument '".toList ++ word ++ "'\n".toList

def expectsValue (flag : Flag) : Text :=
  "sdcprobe: ".toList ++ flag.text ++ " expects a value\n".toList

def expectsRange (flag : Flag) (low high : Nat) : Text :=
  "sdcprobe: ".toList ++ flag.text ++ " expects ".toList ++ stdToString low ++ "..".toList ++
    stdToString high ++ "\n".toList

def expectsProbe : Text := "sdcprobe: --probe expects ch, rbx or all\n".toList

/-- `strtol`, nothing left over, and both bounds. -/
def parseBounded (width : LongWidth) (low high : Int) (value : Text) : Option Int :=
  let parsed := strtol width value
  if deref parsed.2 ≠ nul ∨ parsed.1 < low ∨ parsed.1 > high then none else some parsed.1

def parseMinutes (width : LongWidth) (value : Text) : Option Int :=
  parseBounded width 1 kMaxMinutes value

def parseLayers (width : LongWidth) (value : Text) : Option Int :=
  parseBounded width kLoadLayersMin kLoadLayersMax value

/-- No check on what `strtoul` left over, then the narrowing to 32 bits. -/
def parseSeed (width : LongWidth) (value : Text) : Nat := (strtoul width value).1 % 2 ^ 32

/-- What the loop does with the value of a flag. -/
def takeValue (width : LongWidth) (flag : Flag) (value : Text) (options : Options) :
    Except Text Options :=
  match flag with
  | .minutes =>
      match parseMinutes width value with
      | none => .error (expectsRange .minutes 1 kMaxMinutes)
      | some parsed => .ok { options with minutes := parsed.toNat, haveMinutes := true }
  | .layers =>
      match parseLayers width value with
      | none => .error (expectsRange .layers kLoadLayersMin.toNat kLoadLayersMax.toNat)
      | some parsed => .ok { options with layers := parsed.toNat }
  | .seed => .ok { options with seed := parseSeed width value }
  | .cores => .ok { options with coresSpec := value, haveCores := true }
  | .probe =>
      if deref value = nul then .error expectsProbe
      else
        match parseProbeSelection value options.probes with
        | none => .error expectsProbe
        | some probes => .ok { options with probes := probes, haveProbe := true }
  | .log => .ok { options with logPath := value }

/-- How the loop ends: with the usage or the version text, with a complaint on
stderr, or by running out of words. -/
inductive Parsed where
  | usage
  | version
  | refused (message : Text)
  | proceeds (options : Options)
  deriving DecidableEq

def isHelp (word : CString) : Bool := word.1 = "--help".toList || word.1 = "-h".toList

def isVersion (word : CString) : Bool := word.1 = "--version".toList || word.1 = "-V".toList

def isSelfTest (word : CString) : Bool := word.1 = "--self-test".toList

/-- The loop over the words behind `argv[0]`. -/
def parseWords (width : LongWidth) : List CString → Options → Parsed
  | [], options => .proceeds options
  | flag :: rest, options =>
      if isHelp flag then .usage
      else if isVersion flag then .version
      else if isSelfTest flag then parseWords width rest { options with wantSelfTest := true }
      else
        match knownFlag flag.1 with
        | none => .refused (unexpectedArgument flag.1)
        | some known =>
            match rest with
            | [] => .refused (expectsValue known)
            | value :: rest =>
                match takeValue width known value.1 options with
                | .error message => .refused message
                | .ok options => parseWords width rest options

def parseArguments (width : LongWidth) (argv : List CString) : Parsed :=
  parseWords width argv.tail {}

/-- What `main` returns, and the cores it ran on until then. -/
structure MainEnd where
  exitCode : Nat
  touched : List Nat
  deriving DecidableEq

/-- `main`, with what follows the argument loop as `onward`. -/
def mainProgram (width : LongWidth) (onward : Options → MainEnd) (argv : List CString) :
    MainEnd :=
  match parseArguments width argv with
  | .usage => ⟨kExitClean, []⟩
  | .version => ⟨kExitClean, []⟩
  | .refused _ => ⟨kExitUsage, []⟩
  | .proceeds options => onward options

end SdcProbe.CommandLine
