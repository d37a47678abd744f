import SdcProbe.Durations
import SdcProbe.Processors
import SdcProbe.Questions
import SdcProbe.RbxSelfTest
import SdcProbe.SelfTest

/-!
# The program

`main` from the words of the command line to the exit code: the options, the list of
processors, then the two self-tests, or the questions and the sweep. Every run comes to an
end, and its exit code tells which.
-/

namespace SdcProbe.Program

open CNumeral Fnv1a SampleStream Report Environment LaneSequence ComputeRows Calibration
open CoreSweep SweepAccounts SweepInvariant SweepTotals Verdict CommandLine Prompts
open PromptLines FaultCapture CaptureProtocol FaultNames Processors Questions Durations

set_option autoImplicit false

def kExitSelfTestFailed : Nat := 3

/-- `sdc_set_load_layers` -/
def sdcSetLoadLayers (layers : Int) : Int :=
  let layers := if layers < kLoadLayersMin then kLoadLayersMin else layers
  if layers > kLoadLayersMax then kLoadLayersMax else layers

def notSupportedText : Text :=
  "this CPU or operating system does not provide AVX2, which the probe's code uses".toList

def cannotInstallText : Text := "cannot install the hardware exception handler".toList

def cannotSetText : Text := "cannot set the thread pointer the probe's code reads".toList

/-- What `sdc_rbx_prepare` says in `error`. -/
def problemText : PrepareError → Text
  | .notSupported => notSupportedText
  | .cannotMapArena mebibytes address =>
      "cannot map ".toList ++ stdToString mebibytes ++ " MiB at address 0x".toList ++
        Disassembly.hexText address
  | .cannotMapShadow kibibytes address =>
      "cannot map ".toList ++ stdToString kibibytes ++ " KiB at address 0x".toList ++
        Disassembly.hexText address
  | .cannotInstallHandler => cannotInstallText
  | .cannotSetThreadPointer => cannotSetText

/-- What one run of the program finds: the machine, its system, the terminal, and the
program's own image in memory. -/
structure Host where
  width : LongWidth
  system : SystemAnswers
  interactive : Bool
  stdin : Text
  /-- What the compiler has made of `compute_rows`. -/
  compiled : Compiled
  keepsAddress : KeepsAddress compiled
  /-- The samples of a seed and a number of layers. -/
  load : Nat → Int → Nat → Nat → Sample
  /-- What the reads of the clean round in the self-test deliver. -/
  misread : Nat → Misread
  /-- The bytes behind the sample array. -/
  past : Nat → Byte
  platform : Platform
  image : Image
  cells : RbxSelfTest.Cells
  rows : List NamedRow
  answers : Answers
  /-- The passes of the self-test. -/
  first : WellBehaved platform image
  second : WellBehaved platform image
  third : WellBehaved platform image
  process : Process
  preparing : Preparing platform process
  /-- How the surroundings answer a sweep with these options. -/
  env : Options → Env sampleCount

def Host.rbxProblem (host : Host) : Option Text :=
  match (sdcRbxPrepare host.platform host.image host.answers host.process).1 with
  | .ok () => none
  | .error problem => some (problemText problem)

def Host.setup (host : Host) : Setup where
  interactive := host.interactive
  available := sdcEnumerateCpus host.system
  rbxProblem := host.rbxProblem

/-- How the program ends. -/
inductive Ended where
  | usage
  | version
  /-- Wrong arguments, with a message on stderr. -/
  | refused (message : Text)
  /-- `sdcprobe: could not determine any available core` -/
  | noCores
  | selfTested (chOk rbxOk : Bool)
  /-- Out of the questions. -/
  | turnedAway (code : Nat) (dialog : Dialog Text)
  | swept (config : Config) (out : Outcome sampleCount)

def Ended.exitCode : Ended → Nat
  | .usage => kExitClean
  | .version => kExitClean
  | .refused _ => kExitUsage
  | .noCores => kExitUsage
  | .selfTested chOk rbxOk => if chOk && rbxOk then kExitClean else kExitSelfTestFailed
  | .turnedAway code _ => code
  | .swept _ out => out.exitCode

/-- What was done to the processors and on them. -/
def Ended.history : Ended → List (Action sampleCount)
  | .swept _ out => out.world.history
  | _ => []

/-- The exit code, and the cores it ran on. -/
def Ended.mainEnd (ended : Ended) : MainEnd :=
  ⟨ended.exitCode, (measuredOf ended.history).map CpuInfo.index⟩

section Stages

variable (host : Host) (options : Options)

/-- The number of layers the self-test runs with. -/
def selfTestLayers : Int :=
  sdcSetLoadLayers (if options.layers ≠ 0 then options.layers else kLoadLayersDefault)

/-- `--self-test` -/
def selfTests : Option Ended := do
  let layers := selfTestLayers options
  let work : ChRun.Workspace sampleCount := {}
  let (chOk, _) ← SelfTest.selfTest host.past host.compiled (host.load options.seed layers)
    host.misread work
  let (rbxOk, _) ← RbxSelfTest.rbxSelfTest host.platform host.image host.cells host.rows
    host.answers host.first.toPassInput host.second.toPassInput host.third.toPassInput host.process
  some (.selfTested chOk rbxOk)

theorem asked_is_some : (ask readLine host.width host.setup options (host.stdin.length + 1)
    host.stdin).isSome = true := by
  obtain ⟨ended, asked⟩ := ask_ends host.width host.setup options host.stdin
  rw [asked]
  rfl

/-- The end of the questions. -/
def Host.asked : DialogEnd Text :=
  (ask readLine host.width host.setup options (host.stdin.length + 1) host.stdin).get
    (asked_is_some host options)

variable {host options}

theorem asked_settled (valid : ValidOptions options) (someCore : host.setup.available ≠ []) :
    Settled host.width host.setup options (host.asked options) := by
  have numbered : (host.setup.available.map CpuInfo.index).Nodup :=
    (enumerated_numbered host.system).increasing.imp Nat.ne_of_lt
  exact ask_settled valid someCore numbered (Option.some_get _).symm

theorem settled_chosen {dialog : Dialog Text}
    (settled : Settled host.width host.setup options (.goesOn dialog)) :
    Chosen host.width host.setup options dialog := by
  cases settled with
  | configured chosen => exact chosen

/-- What the sweep is given. -/
def configOf (dialog : Dialog Text) (chosen : Chosen host.width host.setup options dialog) :
    Config where
  minutes := dialog.minutes
  probes := dialog.probes
  selected := dialog.selected
  layersGiven := options.layers != 0
  minutes_in_range := chosen.answered.minutes
  some_probe := chosen.answered.probes
  some_core := chosen.cores.given

variable (host options)

/-- Behind the questions. -/
def conclude (fuel : Nat) : (ended : DialogEnd Text) →
    Settled host.width host.setup options ended → Option Ended
  | .exits code dialog, _ => some (.turnedAway code dialog)
  | .goesOn dialog, settled =>
      let config := configOf dialog (settled_chosen settled)
      (main (host.env options) config fuel).map (.swept config)

/-- Behind the argument loop. -/
def afterArguments (fuel : Nat) (valid : ValidOptions options) : Option Ended :=
  if someCore : host.setup.available ≠ [] then
    if options.wantSelfTest then selfTests host options
    else conclude host options fuel (host.asked options) (asked_settled valid someCore)
  else some .noCores

/-- What the argument loop leads to. -/
def proceed (fuel : Nat) : (parsed : Parsed) →
    (∀ options, parsed = .proceeds options → ValidOptions options) → Option Ended
  | .usage, _ => some .usage
  | .version, _ => some .version
  | .refused message, _ => some (.refused message)
  | .proceeds options, valid => afterArguments host options fuel (valid options rfl)

/-- The whole of `main`; `none` where the budget of a timed run is too small. -/
def program (fuel : Nat) (argv : List CString) : Option Ended :=
  proceed host fuel (parseArguments host.width argv) fun _ parsed => parse_arguments_valid parsed

end Stages

/-! ### The course of a run -/

/-- Some processor can be used. -/
def SomeUsable (host : Host) : Prop := ∃ group inGroup, Usable host.system group inGroup

theorem some_usable_iff (host : Host) : SomeUsable host ↔ host.setup.available ≠ [] := by
  constructor
  · intro someUsable none
    obtain ⟨group, inGroup, usable⟩ := someUsable
    obtain ⟨cpu, listed, _⟩ := (usable_iff host.system group inGroup).mp usable
    have empty : sdcEnumerateCpus host.system = [] := none
    rw [empty] at listed
    cases listed
  · intro some
    obtain ⟨cpu, listed⟩ := List.exists_mem_of_ne_nil _ some
    exact ⟨cpu.group, cpu.inGroup, (usable_iff host.system _ _).mpr ⟨cpu, listed, rfl, rfl⟩⟩

/-- The CH self-test names every byte it injects, and does not take two for one. -/
def NamesInjections (host : Host) (options : Options) : Prop :=
  let samples := SelfTest.loadedSamples (host.load options.seed (selfTestLayers options))
  (∀ injection ∈ SelfTest.injections sampleCount, ¬ SelfTest.Missed samples injection) ∧
    ¬ SelfTest.TakenForOne samples

/-- What the rbx self-test returns. -/
def RbxTestSays (host : Host) (rbxOk : Bool) : Prop :=
  ∃ lines final, RbxSelfTest.rbxSelfTest host.platform host.image host.cells host.rows
    host.answers host.first.toPassInput host.second.toPassInput host.third.toPassInput
    host.process = some (rbxOk, lines, final)

/-- Which way the program takes, and why. -/
inductive Course (host : Host) (argv : List CString) : Ended → Prop where
  | usage : parseArguments host.width argv = .usage → Course host argv .usage
  | version : parseArguments host.width argv = .version → Course host argv .version
  | refused {message : Text} : parseArguments host.width argv = .refused message →
      Course host argv (.refused message)
  | noCores {options : Options} : parseArguments host.width argv = .proceeds options →
      ¬ SomeUsable host → Course host argv .noCores
  | selfTested {options : Options} {chOk rbxOk : Bool} :
      parseArguments host.width argv = .proceeds options → options.wantSelfTest = true →
      SomeUsable host → (chOk = true ↔ NamesInjections host options) → RbxTestSays host rbxOk →
      Course host argv (.selfTested chOk rbxOk)
  | turnedAway {options : Options} {dialog : Dialog Text} :
      parseArguments host.width argv = .proceeds options → options.wantSelfTest = false →
      SomeUsable host → host.asked options = .exits kExitUsage dialog →
      Settled host.width host.setup options (.exits kExitUsage dialog) →
      Course host argv (.turnedAway kExitUsage dialog)
  | swept {options : Options} {dialog : Dialog Text} {fuel : Nat} {out : Outcome sampleCount}
      (chosen : Chosen host.width host.setup options dialog) :
      parseArguments host.width argv = .proceeds options → options.wantSelfTest = false →
      SomeUsable host → host.asked options = .goesOn dialog →
      main (host.env options) (configOf dialog chosen) fuel = some out →
      Course host argv (.swept (configOf dialog chosen) out)

section Courses

variable {host : Host} {argv : List CString} {options : Options} {fuel : Nat} {ended : Ended}

theorem self_tests_end (host : Host) (options : Options) :
    ∃ chOk rbxOk, selfTests host options = some (.selfTested chOk rbxOk) ∧
      (chOk = true ↔ NamesInjections host options) ∧ RbxTestSays host rbxOk := by
  let work : ChRun.Workspace sampleCount := {}
  obtain ⟨round, ran, _⟩ := compute_rows_computed host.keepsAddress
    (host.load options.seed (selfTestLayers options)) host.misread work.samples kRows
    (Nat.le_of_eq samples_per_round)
  obtain ⟨chOk, after, chLines, _, _, tested, outcome⟩ :=
    SelfTest.outcome_of_round host.past ran SelfTest.injections_inside
  obtain ⟨rbxOk, lines, final, rbxTested⟩ := RbxSelfTest.rbx_self_test_returns host.cells host.rows
    host.answers host.first host.second host.third host.process host.preparing
  have verdict := outcome.verdict_iff
  rw [SelfTest.round_samples host.keepsAddress ran] at verdict
  refine ⟨chOk, rbxOk, ?_, verdict, lines, final, rbxTested⟩
  unfold selfTests
  dsimp only
  rw [tested, rbxTested]
  rfl

theorem conclude_course (parsed : parseArguments host.width argv = .proceeds options)
    (sweeps : options.wantSelfTest = false) (someUsable : SomeUsable host)
    {asked : DialogEnd Text} (answers : host.asked options = asked)
    (settled : Settled host.width host.setup options asked)
    (ran : conclude host options fuel asked settled = some ended) : Course host argv ended := by
  cases asked with
  | exits code dialog =>
      cases ran
      have code : code = kExitUsage := by cases settled <;> rfl
      subst code
      exact .turnedAway parsed sweeps someUsable answers settled
  | goesOn dialog =>
      obtain ⟨out, swept, same⟩ := Option.map_eq_some_iff.mp ran
      cases same
      exact .swept (settled_chosen settled) parsed sweeps someUsable answers swept

theorem after_arguments_course (parsed : parseArguments host.width argv = .proceeds options)
    (valid : ValidOptions options)
    (ran : afterArguments host options fuel valid = some ended) : Course host argv ended := by
  unfold afterArguments at ran
  split_ifs at ran with someCore selfTest
  · obtain ⟨chOk, rbxOk, tested, ch, rbx⟩ := self_tests_end host options
    rw [tested] at ran
    cases ran
    exact .selfTested parsed selfTest ((some_usable_iff host).mpr someCore) ch rbx
  · rw [Bool.not_eq_true] at selfTest
    exact conclude_course parsed selfTest ((some_usable_iff host).mpr someCore) rfl _ ran
  · cases ran
    refine .noCores parsed fun usable => ?_
    exact someCore ((some_usable_iff host).mp usable)

theorem proceed_course {parsed : Parsed} (same : parseArguments host.width argv = parsed)
    (valid : ∀ options, parsed = .proceeds options → ValidOptions options)
    (ran : proceed host fuel parsed valid = some ended) : Course host argv ended := by
  cases parsed with
  | usage =>
      cases ran
      exact .usage same
  | version =>
      cases ran
      exact .version same
  | refused message =>
      cases ran
      exact .refused same
  | proceeds options => exact after_arguments_course same (valid options rfl) ran

theorem program_course (ran : program host fuel argv = some ended) : Course host argv ended :=
  proceed_course rfl _ ran

/-- The program is the argument loop with what lies behind it. -/
theorem program_main (ran : program host fuel argv = some ended) {onward : Options → MainEnd}
    (behind : ∀ options valid later,
      afterArguments host options fuel valid = some later → onward options = later.mainEnd) :
    mainProgram host.width onward argv = ended.mainEnd := by
  have stages : ∀ parsed valid, proceed host fuel parsed valid = some ended →
      parseArguments host.width argv = parsed →
      mainProgram host.width onward argv = ended.mainEnd := by
    intro parsed valid ran same
    unfold mainProgram
    rw [same]
    cases parsed with
    | usage =>
        cases ran
        rfl
    | version =>
        cases ran
        rfl
    | refused message =>
        cases ran
        rfl
    | proceeds options => exact behind options (valid options rfl) ended ran
  exact stages _ _ ran rfl

/-- Where every sweep ends, so does the program. -/
theorem program_settles (goesOn : ∀ options, GoesOn (host.env options)) (argv : List CString) :
    FuelLoop.Settles fun fuel => program host fuel argv := by
  have concluding : ∀ options asked
      (settled : Settled host.width host.setup options asked),
      FuelLoop.Settles fun fuel => conclude host options fuel asked settled := by
    intro options asked settled
    cases asked with
    | exits code dialog => exact FuelLoop.settles_some _
    | goesOn dialog => exact FuelLoop.settles_map (sweep_settles _ (goesOn options) _) _
  have proceeding : ∀ parsed valid,
      FuelLoop.Settles fun fuel => proceed host fuel parsed valid := by
    intro parsed valid
    cases parsed with
    | usage => exact FuelLoop.settles_some _
    | version => exact FuelLoop.settles_some _
    | refused message => exact FuelLoop.settles_some _
    | proceeds options =>
        simp only [proceed, afterArguments]
        split_ifs
        · obtain ⟨_, _, tested, _⟩ := self_tests_end host options
          rw [tested]
          exact FuelLoop.settles_some _
        · exact concluding options _ _
        · exact FuelLoop.settles_some _
  exact proceeding _ _

/-- A sweep that has measured no core has nothing to show. -/
theorem unmeasured_quiet {env : Env sampleCount} {config : Config} {sweep : Sweep sampleCount}
    (finished : Finished env config sweep) (unmeasured : sweep.measuredCores = 0) :
    ¬ Detects sweep.world.history := by
  have none : ∀ selected, coresOf selected sweep.world.history = [] := by
    intro selected
    have empty : measuredOf sweep.world.history = [] :=
      List.eq_nil_of_length_eq_zero (finished.measured.trans unmeasured)
    rw [coresOf, empty, List.map_nil, ite_self]
  have ch : sweep.results = [] := by
    have cores := finished.chCores
    rw [none] at cores
    exact List.map_eq_nil_iff.mp cores
  have rbx : sweep.rbxResults = [] := by
    rcases finished.rbxCores with cores | ⟨_, _, _, counted, _⟩
    · rw [none] at cores
      exact List.map_eq_nil_iff.mp cores
    · omega
  rw [detects_iff finished, ch, rbx]
  simp [chTotals, rbxTotals]

end Courses

/-! ### Exit codes -/

/-- The exit codes of a sweep. -/
structure SweepCodes (out : Outcome sampleCount) : Prop where
  detected : out.exitCode = kExitDetected ↔ Detects out.world.history
  interrupted : out.exitCode = kExitInterrupted ↔ measuredOf out.world.history ≠ [] ∧
    ¬ Detects out.world.history ∧ SawInterrupt out.world.history
  selfTestFailed : out.exitCode ≠ kExitSelfTestFailed
  usage : out.exitCode = kExitUsage ↔ measuredOf out.world.history = []
  clean : out.exitCode = kExitClean ↔ measuredOf out.world.history ≠ [] ∧
    ¬ Detects out.world.history ∧ ¬ SawInterrupt out.world.history

theorem sweep_codes {env : Env sampleCount} {config : Config} {fuel : Nat}
    {out : Outcome sampleCount} (ran : main env config fuel = some out) : SweepCodes out := by
  obtain ⟨finished, history, _, _⟩ := main_spec ran
  have measuredIff : measuredOf out.world.history = [] ↔ out.sweep.measuredCores = 0 := by
    rw [history, ← finished.measured, List.length_eq_zero_iff]
  by_cases unmeasured : out.sweep.measuredCores = 0
  · have code := exit_code_unmeasured ran unmeasured
    have quiet := unmeasured_quiet finished unmeasured
    rw [← history] at quiet
    have none := measuredIff.mpr unmeasured
    constructor
    · simp [code, quiet, kExitUsage, kExitDetected]
    · simp [code, none, kExitUsage, kExitInterrupted]
    · simp [code, kExitUsage, kExitSelfTestFailed]
    · simp [code, none]
    · simp [code, none, kExitUsage, kExitClean]
  · have some := fun none => unmeasured (measuredIff.mp none)
    have code := exit_code_measured ran unmeasured
    obtain ⟨detected, interrupted, clean⟩ := exit_code_iff ran unmeasured
    have other : out.exitCode ≠ kExitSelfTestFailed ∧ out.exitCode ≠ kExitUsage := by
      rw [code]
      split_ifs <;> decide
    constructor
    · exact detected
    · rw [interrupted]
      exact ⟨fun shown => ⟨some, shown⟩, fun shown => shown.2⟩
    · exact other.1
    · exact ⟨fun usage => absurd usage other.2, fun none => absurd none some⟩
    · rw [clean]
      exact ⟨fun shown => ⟨some, shown⟩, fun shown => shown.2⟩

/-- What each exit code of the program says. -/
structure ExitCodes (ended : Ended) : Prop where
  detected : ended.exitCode = kExitDetected ↔ ∃ config out, ended = .swept config out ∧
    Detects out.world.history
  interrupted : ended.exitCode = kExitInterrupted ↔ ∃ config out, ended = .swept config out ∧
    measuredOf out.world.history ≠ [] ∧ ¬ Detects out.world.history ∧
    SawInterrupt out.world.history
  selfTestFailed : ended.exitCode = kExitSelfTestFailed ↔ ∃ chOk rbxOk,
    ended = .selfTested chOk rbxOk ∧ ¬ (chOk = true ∧ rbxOk = true)
  usage : ended.exitCode = kExitUsage ↔ (∃ message, ended = .refused message) ∨
    ended = .noCores ∨ (∃ code dialog, ended = .turnedAway code dialog) ∨
    ∃ config out, ended = .swept config out ∧ measuredOf out.world.history = []
  clean : ended.exitCode = kExitClean ↔ ended = .usage ∨ ended = .version ∨
    ended = .selfTested true true ∨ ∃ config out, ended = .swept config out ∧
      measuredOf out.world.history ≠ [] ∧ ¬ Detects out.world.history ∧
      ¬ SawInterrupt out.world.history

section Codes

variable {ended : Ended}

theorem text_codes (shown : ended = .usage ∨ ended = .version) : ExitCodes ended := by
  rcases shown with rfl | rfl <;> constructor <;>
    simp [Ended.exitCode, kExitClean, kExitDetected, kExitInterrupted, kExitSelfTestFailed,
      kExitUsage]

theorem usage_codes (code : ended.exitCode = kExitUsage)
    (usage : (∃ message, ended = .refused message) ∨ ended = .noCores ∨
      ∃ code dialog, ended = .turnedAway code dialog) : ExitCodes ended := by
  rcases usage with ⟨message, rfl⟩ | rfl | ⟨other, dialog, rfl⟩ <;> constructor <;>
    simp [code, kExitClean, kExitDetected, kExitInterrupted, kExitSelfTestFailed, kExitUsage]

theorem self_tested_codes (chOk rbxOk : Bool) : ExitCodes (.selfTested chOk rbxOk) := by
  cases chOk <;> cases rbxOk <;> constructor <;>
    simp [Ended.exitCode, kExitClean, kExitDetected, kExitInterrupted, kExitSelfTestFailed,
      kExitUsage]

theorem swept_codes {config : Config} {out : Outcome sampleCount} (codes : SweepCodes out) :
    ExitCodes (.swept config out) := by
  constructor
  · simp [Ended.exitCode, codes.detected]
  · simp [Ended.exitCode, codes.interrupted]
  · simp [Ended.exitCode, codes.selfTestFailed]
  · simp [Ended.exitCode, codes.usage]
  · simp [Ended.exitCode, codes.clean]

theorem course_codes {host : Host} {argv : List CString} (course : Course host argv ended) :
    ExitCodes ended := by
  cases course with
  | usage => exact text_codes (.inl rfl)
  | version => exact text_codes (.inr rfl)
  | refused => exact usage_codes rfl (.inl ⟨_, rfl⟩)
  | noCores => exact usage_codes rfl (.inr (.inl rfl))
  | selfTested => exact self_tested_codes _ _
  | turnedAway => exact usage_codes rfl (.inr (.inr ⟨_, _, rfl⟩))
  | swept chosen _ _ _ _ ran => exact swept_codes (sweep_codes ran)

end Codes

/-- Every run of the program comes to an end, on a machine whose clock goes on or where the
interrupt arrives. Which way it takes depends on the words, the processors, the answers and
the two self-tests only, and the exit code says which it was: 1 for a sweep that has seen
the fault and nothing else, 3 for a failed self-test, 2 for one of the complaints or a
sweep that has measured no core, 4 for one that has measured some, saw nothing and was
interrupted, 0 for the rest. -/
theorem every_run_ends (host : Host) (goesOn : ∀ options, GoesOn (host.env options))
    (argv : List CString) :
    ∃ ended, (∃ fuel, ∀ more, fuel ≤ more → program host more argv = some ended) ∧
      Course host argv ended ∧ ExitCodes ended := by
  obtain ⟨fuel, ended, same⟩ := program_settles goesOn argv
  have course := program_course (same fuel (Nat.le_refl fuel))
  exact ⟨ended, ⟨fuel, same⟩, course, course_codes course⟩

/-! ### Processors -/

/-- The pin before calibration comes first, and is for the first of the selected cores. -/
def PinsFirst (config : Config) (history : List (Action sampleCount)) (_ : List RunResult)
    (_ : List RbxRunResult) : Prop :=
  ∀ (i : Nat) cpu pinned, history[i]? = some (.pinFirst cpu pinned) →
    i = 0 ∧ config.selected.head? = some cpu

theorem lookup_append {history added : List (Action sampleCount)} {i : Nat}
    {action : Action sampleCount} (found : (history ++ added)[i]? = some action) :
    history[i]? = some action ∨ action ∈ added := by
  rw [List.getElem?_append] at found
  split_ifs at found
  · exact .inl found
  · exact .inr (List.mem_of_getElem? found)

theorem timed_no_first_pin {env : Env sampleCount} {minutes : Nat}
    {before after : World sampleCount} {interrupted : Bool} {events : List (Action sampleCount)}
    {lines : List Line} (ran : TimedRun.Ran env minutes before after interrupted events lines)
    {i : Nat} {cpu : CpuInfo} {pinned : Bool}
    (found : after.history[i]? = some (.pinFirst cpu pinned)) :
    before.history[i]? = some (.pinFirst cpu pinned) := by
  rw [ran.history] at found
  rcases lookup_append found with old | new
  · exact old
  · rcases List.mem_cons.mp new with start | timed
    · cases start
    · cases ran.timed _ timed

theorem pins_first_survives (env : Env sampleCount) (config : Config) :
    Survives env config (PinsFirst config) where
  first pinned _ := by
    intro i cpu outcome found
    have inside := (List.getElem?_eq_some_iff.mp found).1
    cases List.mem_singleton.mp (List.mem_of_getElem? found)
    exact ⟨Nat.lt_one_iff.mp inside, List.head?_eq_some_head config.some_core⟩
  other action other holds := by
    intro i cpu outcome found
    rcases lookup_append found with old | new
    · exact holds i cpu outcome old
    · rw [← List.mem_singleton.mp new] at other
      cases other
  ch holds ran := by
    obtain ⟨events, lines, framed, _⟩ := ChRun.run_on_current_cpu_spec ran
    exact fun i cpu pinned found => holds i cpu pinned (timed_no_first_pin framed found)
  rbx holds ran := by
    obtain ⟨events, lines, framed, _⟩ := RbxRun.run_rbx_on_current_cpu_spec ran
    exact fun i cpu pinned found => holds i cpu pinned (timed_no_first_pin framed found)

/-- What has been done stays done. -/
theorem prelude_survives_sweep (env : Env sampleCount) (config : Config) :
    Survives env config
      (fun history _ _ => (prelude env config).world.history <+: history) where
  first pinned start := by
    rw [List.prefix_nil.mp start]
    exact List.nil_prefix
  other action _ before := before.trans (List.prefix_append _ _)
  ch before ran := by
    obtain ⟨events, lines, framed, _⟩ := ChRun.run_on_current_cpu_spec ran
    rw [framed.history]
    exact before.trans (List.prefix_append _ _)
  rbx before ran := by
    obtain ⟨events, lines, framed, _⟩ := RbxRun.run_rbx_on_current_cpu_spec ran
    rw [framed.history]
    exact before.trans (List.prefix_append _ _)

theorem prelude_opens (env : Env sampleCount) {config : Config}
    (calibrates : config.probes.ch = true) : ∃ pinned rest,
      (prelude env config).world.history =
        .pinFirst (config.selected.head config.some_core) pinned :: rest := by
  rw [prelude, if_pos calibrates]
  dsimp only
  split_ifs
  · exact ⟨_, _, rfl⟩
  · exact ⟨_, _, rfl⟩

/-- What a sweep does to the processors. -/
structure Pinned (config : Config) (out : Outcome sampleCount) : Prop where
  inOrder : (pinsOf out.world.history).map Prod.fst <+: config.selected
  once : ((pinsOf out.world.history).map fun pin => pin.1.index).Nodup
  every : out.sweep.interrupted = false → (pinsOf out.world.history).map Prod.fst = config.selected
  /-- The pin before calibration is the first action of all. -/
  opens : config.probes.ch = true → ∃ pinned,
    out.world.history[0]? = some (.pinFirst (config.selected.head config.some_core) pinned)
  first : PinsFirst config out.world.history out.sweep.results out.sweep.rbxResults

theorem sweep_pinned {env : Env sampleCount} {config : Config} {fuel : Nat}
    {out : Outcome sampleCount} (ran : main env config fuel = some out)
    (distinct : (config.selected.map CpuInfo.index).Nodup) : Pinned config out := by
  obtain ⟨finished, history, _, _⟩ := main_spec ran
  have inOrder := finished.visits
  rw [← history] at inOrder
  constructor
  · exact inOrder
  · have indices : (pinsOf out.world.history).map (fun pin => pin.1.index) =
        ((pinsOf out.world.history).map Prod.fst).map CpuInfo.index := by
      rw [List.map_map]
      rfl
    rw [indices]
    exact distinct.sublist (inOrder.sublist.map CpuInfo.index)
  · intro whole
    rw [history]
    exact (finished.complete whole).visits
  · intro calibrates
    obtain ⟨sweep, swept, same⟩ := Option.map_eq_some_iff.mp ran
    obtain ⟨pinned, rest, opens⟩ := prelude_opens env calibrates
    have kept : (prelude env config).world.history <+: sweep.world.history :=
      sweep_cores_survives (prelude_survives_sweep env config) List.prefix_rfl swept
    rw [opens] at kept
    obtain ⟨later, whole⟩ := kept
    refine ⟨pinned, ?_⟩
    rw [← same]
    change sweep.world.history[0]? = _
    rw [← whole]
    rfl
  · have start : PinsFirst config [] [] [] := fun i cpu pinned found => by cases found
    exact main_survives (pins_first_survives env config) start ran

/-- The program goes to no processor but those it may use and was told to. They are what the
questions end with, part of the list, and chosen by `--cores` where it is given. Each is
pinned once and in their order, and all of them unless the sweep is interrupted. Calibration
stands on the first of them, before all else. -/
theorem only_chosen_processors {host : Host} {fuel : Nat} {argv : List CString} {config : Config}
    {out : Outcome sampleCount} (ran : program host fuel argv = some (.swept config out)) :
    Selected (sdcEnumerateCpus host.system) config.selected ∧
      (∀ cpu ∈ config.selected, Usable host.system cpu.group cpu.inGroup) ∧
      Pinned config out ∧
      ∃ options dialog, ∃ chosen : Chosen host.width host.setup options dialog,
        parseArguments host.width argv = .proceeds options ∧
        host.asked options = .goesOn dialog ∧ config = configOf dialog chosen ∧
        (options.haveCores = true →
          config.selected = (coresGiven host.width host.setup options).out) := by
  cases program_course ran with
  | @swept options dialog fuel out chosen parsed sweeps someUsable asked swept =>
      refine ⟨chosen.cores, ?_, sweep_pinned swept chosen.cores.once, options, dialog, chosen,
        parsed, asked, rfl, chosen.givenCores⟩
      intro cpu member
      exact (usable_iff host.system _ _).mpr ⟨cpu, chosen.cores.known cpu member, rfl, rfl⟩

section Sample

open VerdictSoundness RbxSelfTest

theorem steady_goes_on (nanosPerAction : Nat) (positive : 0 < nanosPerAction) :
    GoesOn (steadyMachine nanosPerAction none) := by
  right
  intro value
  exact ⟨value, Nat.le_mul_of_pos_right value positive⟩

theorem one_online : (1 : Int) ≤ 2 ^ 32 := by decide

/-- One processor, nobody at the terminal, and ten seconds an action. -/
def sampleHost : Host where
  width := .bits64
  system := .linux ⟨none, 1, one_online⟩
  interactive := false
  stdin := []
  compiled := accInRsi
  keepsAddress := keeps_address acc_in_rsi_keeps
  load _ _ _ _ := 0
  misread _ := correctReads
  past _ := 0
  platform := .linux
  image := sampleImage
  cells := sampleCells
  rows := []
  answers := allAnswers
  first := ⟨returning 0, returning_behaves 0⟩
  second := ⟨wildInput, wild_behaves⟩
  third := ⟨returning 0, returning_behaves 0⟩
  process := fresh fun _ => 0
  preparing := fresh_preparing .linux fun _ => 0
  env _ := steadyMachine 10000000000 none

theorem sample_words_clean :
    nul ∉ "rbx".toList ∧ nul ∉ "all".toList ∧ nul ∉ "1".toList := by decide

def sampleWords : List CString :=
  flagged programOnly ⟨_, sample_words_clean.1⟩ ⟨_, sample_words_clean.2.1⟩
    ⟨_, sample_words_clean.2.2⟩

theorem every_run_ends_sample :
    ∃ ended, (∃ fuel, ∀ more, fuel ≤ more → program sampleHost more sampleWords = some ended) ∧
      Course sampleHost sampleWords ended ∧ ExitCodes ended :=
  every_run_ends sampleHost (fun _ => steady_goes_on _ (by decide)) sampleWords

def sweepCode : Ended → Option Nat
  | .swept _ out => some out.exitCode
  | _ => none

/-- The one processor is pinned, and nothing is found on it in its minute. -/
theorem only_chosen_processors_sample :
    ∃ config out, program sampleHost 3 sampleWords = some (.swept config out) ∧
      out.exitCode = kExitClean ∧ Pinned config out := by
  have returned : (program sampleHost 3 sampleWords).bind sweepCode = some kExitClean := by
    decide +kernel
  obtain ⟨ended, ran, code⟩ := Option.bind_eq_some_iff.mp returned
  cases ended with
  | swept config out => exact ⟨config, out, ran, Option.some.inj code,
      (only_chosen_processors ran).2.2.1⟩
  | _ => cases code

end Sample

end SdcProbe.Program
