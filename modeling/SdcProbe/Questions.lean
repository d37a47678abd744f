import SdcProbe.CpuList
import SdcProbe.OptionValues
import SdcProbe.PromptLines
import SdcProbe.Separators

/-!
# What the questions come to

The command line and the three questions behind it, together. However they are answered,
they end with the exit code for wrong usage or with everything the sweep needs.
-/

namespace SdcProbe.Questions

open CNumeral AnswerText Report CoreSweep CpuSelection SelectionGrammar CommandLine Prompts
open PromptLines Verdict Calibration

set_option autoImplicit false

def SomeProbe (probes : ProbeSelection) : Prop := probes.ch = true ∨ probes.rbx = true

def MinutesInRange (minutes : Nat) : Prop := 1 ≤ minutes ∧ minutes ≤ kMaxMinutes

/-- What the loop over the words keeps. -/
structure ValidOptions (options : Options) : Prop where
  minutes : MinutesInRange options.minutes
  layers : options.layers ≤ kLoadLayersMax.toNat
  probes : SomeProbe options.probes
  defaultMinutes : options.haveMinutes = false → options.minutes = kDefaultMinutes
  defaultProbes : options.haveProbe = false → options.probes = {}

section Values

variable {width : LongWidth}

theorem parse_bounded_inside {low high parsed : Int} {value : Text}
    (taken : parseBounded width low high value = some parsed) : low ≤ parsed ∧ parsed ≤ high := by
  unfold parseBounded at taken
  dsimp only at taken
  split_ifs at taken with outside
  cases taken
  rw [not_or, not_or] at outside
  exact ⟨Int.not_lt.mp outside.2.1, Int.not_lt.mp outside.2.2⟩

theorem parse_minutes_inside {value : Text} {parsed : Int}
    (taken : parseMinutes width value = some parsed) : MinutesInRange parsed.toNat := by
  have inside := parse_bounded_inside taken
  unfold MinutesInRange
  omega

theorem parse_probe_some {value : Text} {before probes : ProbeSelection} (some : SomeProbe before)
    (taken : parseProbeSelection value before = Option.some probes) : SomeProbe probes := by
  unfold parseProbeSelection at taken
  dsimp only at taken
  split_ifs at taken
  · cases taken
    exact some
  · cases taken
    exact .inl rfl
  · cases taken
    exact .inr rfl
  · cases taken
    exact .inl rfl

theorem take_value_valid {flag : Flag} {value : Text} {options taken : Options}
    (valid : ValidOptions options) (accepted : takeValue width flag value options = .ok taken) :
    ValidOptions taken := by
  obtain ⟨minutes, layers, probes, defaultMinutes, defaultProbes⟩ := valid
  unfold takeValue at accepted
  cases flag with
  | minutes =>
      dsimp only at accepted
      split at accepted
      · cases accepted
      · next parsed found =>
          cases accepted
          exact ⟨parse_minutes_inside found, layers, probes, Bool.noConfusion, defaultProbes⟩
  | layers =>
      dsimp only at accepted
      split at accepted
      · cases accepted
      · next parsed found =>
          cases accepted
          have inside := parse_bounded_inside found
          exact ⟨minutes, Int.toNat_le_toNat inside.2, probes, defaultMinutes, defaultProbes⟩
  | seed =>
      cases accepted
      exact ⟨minutes, layers, probes, defaultMinutes, defaultProbes⟩
  | cores =>
      cases accepted
      exact ⟨minutes, layers, probes, defaultMinutes, defaultProbes⟩
  | probe =>
      dsimp only at accepted
      split_ifs at accepted
      split at accepted
      · cases accepted
      · next chosen found =>
          cases accepted
          exact ⟨minutes, layers, parse_probe_some probes found, defaultMinutes, Bool.noConfusion⟩
  | log =>
      cases accepted
      exact ⟨minutes, layers, probes, defaultMinutes, defaultProbes⟩

theorem parse_words_valid {words : List CString} {options final : Options}
    (valid : ValidOptions options) (proceeded : parseWords width words options = .proceeds final) :
    ValidOptions final := by
  fun_induction parseWords width words options with
  | case1 options =>
      cases proceeded
      exact valid
  | case2 => cases proceeded
  | case3 => cases proceeded
  | case4 flag rest options _ _ _ ih =>
      exact ih ⟨valid.minutes, valid.layers, valid.probes, valid.defaultMinutes,
        valid.defaultProbes⟩ proceeded
  | case5 => cases proceeded
  | case6 => cases proceeded
  | case7 => cases proceeded
  | case8 flag options _ _ _ known found value rest taken accepted ih =>
      exact ih (take_value_valid valid accepted) proceeded

theorem default_valid : ValidOptions {} := by
  constructor
  · exact ⟨by decide, by decide⟩
  · exact Nat.zero_le _
  · exact .inl rfl
  · exact fun _ => rfl
  · exact fun _ => rfl

theorem parse_arguments_valid {argv : List CString} {options : Options}
    (parsed : parseArguments width argv = .proceeds options) : ValidOptions options :=
  parse_words_valid default_valid parsed

end Values

section Selection

variable {width : LongWidth} {available : List CpuInfo} {input : Text} {before : Selection}

theorem erase_dups_once (values : List Nat) : values.eraseDups.Nodup := by
  match values with
  | [] => exact List.nodup_nil
  | value :: rest =>
      rw [List.eraseDups_cons, List.nodup_cons]
      constructor
      · rw [List.mem_eraseDups, List.mem_filter]
        simp
      · exact erase_dups_once (rest.filter fun other => !other == value)
termination_by values.length
decreasing_by exact Nat.lt_succ_of_le (List.length_filter_le _ _)

/-- An accepted selection is a part of the available cores, each of them once. -/
structure Selected (available cpus : List CpuInfo) : Prop where
  given : cpus ≠ []
  known : ∀ cpu ∈ cpus, cpu ∈ available
  once : (cpus.map CpuInfo.index).Nodup

theorem accepted_selected (someCore : available ≠ [])
    (distinct : (available.map CpuInfo.index).Nodup)
    (accepted : (parseCpuSelection width input available before).accepted = true) :
    Selected available (parseCpuSelection width input available before).out := by
  by_cases all : AsksForAll input
  · rw [parse_all width available before all]
    exact ⟨someCore, fun _ inside => inside, distinct⟩
  · cases scanned : collectWanted width ((trim input).map normalizeChar) [] with
    | error message =>
        have refused := (parse_refused width available before all fun wanted scan => by
          rw [scanned] at scan
          cases scan).1
        rw [refused] at accepted
        cases accepted
    | ok wanted =>
        by_cases given : wanted = []
        · have refused := (parse_refused width available before all fun other scan => by
            rw [scanned, Except.ok.injEq] at scan
            exact scan.symm.trans given).1
          rw [refused] at accepted
          cases accepted
        · have parsed := parse_of_scan width available before all given scanned
          rw [parsed] at accepted ⊢
          have there := (select_wanted_accepted_iff wanted _).mp accepted
          have chosen := @select_wanted_out available wanted { before with out := [] } there
            List.nodup_nil (List.forall_mem_nil _)
          rw [List.map_nil, List.nil_append] at chosen
          constructor
          · intro none
            obtain ⟨index, inside⟩ := List.exists_mem_of_ne_nil _ given
            have listed := List.mem_eraseDups.mpr inside
            rw [← chosen.1, none] at listed
            cases listed
          · exact chosen.2
          · rw [chosen.1]
            exact erase_dups_once wanted

end Selection

/-! ### The answers -/

/-- Both the probes and the minutes are usable, and those that were given are kept. -/
structure Answered {Source : Type} (options : Options) (dialog : Dialog Source) : Prop where
  probes : SomeProbe dialog.probes
  minutes : MinutesInRange dialog.minutes
  givenProbes : options.haveProbe = true → dialog.probes = options.probes
  givenMinutes : options.haveMinutes = true → dialog.minutes = options.minutes

/-- The selection `--cores` asks for. -/
def coresGiven (width : LongWidth) (setup : Setup) (options : Options) : Selection :=
  parseCpuSelection width options.coresSpec setup.available ⟨false, [], []⟩

/-- What the sweep needs. -/
structure Chosen {Source : Type} (width : LongWidth) (setup : Setup) (options : Options)
    (dialog : Dialog Source) : Prop where
  answered : Answered options dialog
  able : dialog.probes.rbx = true → setup.rbxProblem = none
  cores : Selected setup.available dialog.selected
  givenCores : options.haveCores = true → dialog.selected = (coresGiven width setup options).out

/-- How the questions end: the rbx probe cannot run, `--cores` cannot be used, or all is
chosen. -/
inductive Settled {Source : Type} (width : LongWidth) (setup : Setup) (options : Options) :
    DialogEnd Source → Prop where
  | rbxRefused {dialog : Dialog Source} : dialog.probes.rbx = true → setup.rbxProblem ≠ none →
      Settled width setup options (.exits kExitUsage dialog)
  | coresRefused {dialog : Dialog Source} : options.haveCores = true →
      (coresGiven width setup options).accepted = false →
      Settled width setup options (.exits kExitUsage dialog)
  | configured {dialog : Dialog Source} : Chosen width setup options dialog →
      Settled width setup options (.goesOn dialog)

section Dialogs

variable {Source : Type} {next : Source → Option (Text × Source)} {width : LongWidth}
  {setup : Setup} {options : Options} {dialog : Dialog Source}

theorem ask_probe_answered (answered : Answered options dialog) :
    (askProbe next setup options dialog).All (Answered options) (Answered options) := by
  unfold askProbe
  split_ifs with given
  · exact answered
  · dsimp only [Dialog.say]
    cases next dialog.source with
    | none => exact ⟨answered.probes, answered.minutes, answered.givenProbes,
        answered.givenMinutes⟩
    | some read =>
        dsimp only
        cases parsed : parseProbeSelection read.1 dialog.probes with
        | none => exact ⟨answered.probes, answered.minutes, answered.givenProbes,
            answered.givenMinutes⟩
        | some probes =>
            constructor
            · exact parse_probe_some answered.probes parsed
            · exact answered.minutes
            · exact fun given' => absurd given' given
            · exact answered.givenMinutes
  · exact ⟨answered.probes, answered.minutes, answered.givenProbes, answered.givenMinutes⟩

/-- The second question leaves the other answers alone. -/
theorem cores_answer_keeps (next : Source → Option (Text × Source)) (setup : Setup)
    (options : Options) (dialog : Dialog Source) :
    (coresAnswer next setup options dialog).2.probes = dialog.probes ∧
      (coresAnswer next setup options dialog).2.minutes = dialog.minutes := by
  unfold coresAnswer
  split_ifs
  · exact ⟨rfl, rfl⟩
  · dsimp only [Dialog.say]
    cases next dialog.source <;> exact ⟨rfl, rfl⟩
  · exact ⟨rfl, rfl⟩

theorem cores_answer_given (given : options.haveCores = true) :
    coresAnswer next setup options dialog = (options.coresSpec, dialog) := by
  rw [coresAnswer, if_pos given]

theorem cores_answer_quiet (asked : options.haveCores = false)
    (quiet : setup.interactive = false) :
    (coresAnswer next setup options dialog).1 = "all".toList := by
  rw [coresAnswer, asked, quiet]
  rfl

theorem ask_cores_settled (someCore : setup.available ≠ [])
    (distinct : (setup.available.map CpuInfo.index).Nodup) (answered : Answered options dialog)
    (able : dialog.probes.rbx = true → setup.rbxProblem = none) :
    (askCores next width setup options dialog).All
      (fun later => Answered options later ∧
        (later.probes.rbx = true → setup.rbxProblem = none))
      (Settled width setup options) := by
  obtain ⟨probes, minutes⟩ := cores_answer_keeps next setup options dialog
  have kept : ∀ {later : Dialog Source}, later.probes = dialog.probes →
      later.minutes = dialog.minutes → Answered options later ∧
        (later.probes.rbx = true → setup.rbxProblem = none) := by
    intro later sameProbes sameMinutes
    obtain ⟨someProbe, inRange, givenProbes, givenMinutes⟩ := answered
    rw [← sameProbes] at someProbe givenProbes able
    rw [← sameMinutes] at inRange givenMinutes
    exact ⟨⟨someProbe, inRange, givenProbes, givenMinutes⟩, able⟩
  unfold askCores
  dsimp only
  split_ifs with accepted stops
  · apply Settled.configured
    obtain ⟨keptAnswers, keptAble⟩ := @kept
      { (coresAnswer next setup options dialog).2 with
        selected := (parseCpuSelection width (coresAnswer next setup options dialog).1
          setup.available ⟨false, dialog.selected, []⟩).out } probes minutes
    constructor
    · exact keptAnswers
    · exact keptAble
    · exact accepted_selected someCore distinct accepted
    · intro given
      rw [cores_answer_given given]
      rfl
  · by_cases given : options.haveCores = true
    · rw [cores_answer_given given, Bool.not_eq_true] at accepted
      exact Settled.coresRefused given accepted
    · rw [Bool.not_eq_true] at given
      have quiet : setup.interactive = false := by
        rcases stops with given' | quiet
        · rw [given] at given'
          cases given'
        · exact Bool.eq_false_of_not_eq_true quiet
      rw [cores_answer_quiet given quiet] at accepted
      exact absurd (all_is_accepted width _ _) accepted
  · exact kept probes minutes

theorem ask_minutes_chosen (chosen : Chosen width setup options dialog) :
    (askMinutes next width setup options dialog).All (Chosen width setup options)
      (Chosen width setup options) := by
  have kept : ∀ {later : Dialog Source}, later.probes = dialog.probes →
      later.selected = dialog.selected → MinutesInRange later.minutes →
      (options.haveMinutes = true → later.minutes = options.minutes) →
      Chosen width setup options later := by
    intro later sameProbes sameCores inRange givenMinutes
    obtain ⟨⟨someProbe, _, givenProbes, _⟩, able, cores, givenCores⟩ := chosen
    rw [← sameProbes] at someProbe givenProbes able
    rw [← sameCores] at cores givenCores
    exact ⟨⟨someProbe, inRange, givenProbes, givenMinutes⟩, able, cores, givenCores⟩
  have inRange := chosen.answered.minutes
  have given := chosen.answered.givenMinutes
  unfold askMinutes
  dsimp only
  split_ifs with have_
  · exact chosen
  · dsimp only [Dialog.say]
    cases next dialog.source with
    | none => exact kept rfl rfl inRange given
    | some read =>
        dsimp only
        split_ifs
        · exact kept rfl rfl inRange given
        · cases parsed : parseMinutes width read.1 with
          | none => exact kept rfl rfl inRange given
          | some number =>
              exact kept rfl rfl (parse_minutes_inside parsed) fun given' => absurd given' have_
  · exact kept rfl rfl inRange given

theorem ask_settled (valid : ValidOptions options) (someCore : setup.available ≠ [])
    (distinct : (setup.available.map CpuInfo.index).Nodup) {fuel : Nat} {source : Source}
    {ended : DialogEnd Source}
    (asked : ask next width setup options fuel source = some ended) :
    Settled width setup options ended := by
  let first : Dialog Source :=
    { source := source, probes := options.probes, minutes := options.minutes }
  have start : Answered options first :=
    ⟨valid.probes, valid.minutes, fun _ => rfl, fun _ => rfl⟩
  unfold ask at asked
  obtain ⟨dialog, probed, rest⟩ := Option.bind_eq_some_iff.mp asked
  have answered := FuelLoop.run_all _ _ _ (fun _ => ask_probe_answered) fuel _ _ start probed
  split_ifs at rest with refused
  · cases rest
    exact Settled.rbxRefused refused.1 refused.2
  · have able : dialog.probes.rbx = true → setup.rbxProblem = none := by
      intro selected
      by_contra problem
      exact refused ⟨selected, problem⟩
    obtain ⟨chosen, selected, last⟩ := Option.bind_eq_some_iff.mp rest
    have settled := FuelLoop.run_all _ _ _
      (fun dialog here => ask_cores_settled someCore distinct here.1 here.2) fuel _ _
      ⟨answered, able⟩ selected
    cases chosen with
    | exits code dialog =>
        cases last
        exact settled
    | goesOn dialog =>
        obtain ⟨final, timed, rfl⟩ := Option.map_eq_some_iff.mp last
        cases settled with
        | configured chosen =>
            exact Settled.configured
              (FuelLoop.run_all _ _ _ (fun _ => ask_minutes_chosen) fuel _ _ chosen timed)

end Dialogs

/-- Whatever is typed, the questions come to an end, and it is one of three: the rbx probe
was chosen and cannot run here, `--cores` asks for something else than available cores, or
everything the sweep needs is chosen. -/
theorem questions_configure (width : LongWidth) {argv : List CString} {options : Options}
    (parsed : parseArguments width argv = .proceeds options) (setup : Setup)
    (someCore : setup.available ≠ []) (distinct : (setup.available.map CpuInfo.index).Nodup)
    (stdin : Text) :
    ∃ ended, ask readLine width setup options (stdin.length + 1) stdin = some ended ∧
      Settled width setup options ended := by
  obtain ⟨ended, asked⟩ := ask_ends width setup options stdin
  exact ⟨ended, asked, ask_settled (parse_arguments_valid parsed) someCore distinct asked⟩

def programText : Text := "sdcprobe".toList

theorem program_clean : nul ∉ programText := by decide

/-- `argv[0]` -/
def programOnly : CString := ⟨programText, program_clean⟩

/-- One core, and somebody at the terminal or nobody. -/
def oneCoreSetup (interactive : Bool) : Setup := { interactive, available := [⟨0, 0, 0⟩] }

theorem questions_configure_sample :
    ∃ ended, ask readLine .bits64 (oneCoreSetup true) {} ("rbx\n0\n5\n".toList.length + 1)
        "rbx\n0\n5\n".toList = some ended ∧
      Settled .bits64 (oneCoreSetup true) {} ended :=
  @questions_configure .bits64 [programOnly] {} rfl (oneCoreSetup true) (by decide) (by decide)
    "rbx\n0\n5\n".toList

/-! ### Without a terminal -/

/-- The selection when nobody is asked. -/
def coresUnasked (width : LongWidth) (setup : Setup) (options : Options) : Selection :=
  parseCpuSelection width (if options.haveCores then options.coresSpec else "all".toList)
    setup.available ⟨false, [], []⟩

def probeDefault : Text := "Probe [ch]: ch   (stdin is not a terminal)\n".toList

def coresDefault : Text := "Cores to test [all]: all   (stdin is not a terminal)\n".toList

def minutesDefault (probes : ProbeSelection) : Text :=
  minutesPrompt probes ++ " [".toList ++ stdToString kDefaultMinutes ++ "]: ".toList ++
    stdToString kDefaultMinutes ++ "   (stdin is not a terminal)\n".toList

/-- One line for each value that was not given. -/
def defaultsSaid (options : Options) : List Text :=
  (if options.haveProbe then [] else [probeDefault]) ++
    (if options.haveCores then [] else [coresDefault]) ++
    if options.haveMinutes then [] else [minutesDefault options.probes]

/-- Nothing was read: the given values and the defaults are taken, and where a default is
taken it is said. -/
def Unasked {Source : Type} (width : LongWidth) (setup : Setup) (options : Options)
    (source : Source) : DialogEnd Source → Prop
  | .exits code dialog => code = kExitUsage ∧ dialog.source = source ∧
      (options.probes.rbx = true ∧ setup.rbxProblem ≠ none ∨
        (coresUnasked width setup options).accepted = false)
  | .goesOn dialog => dialog = ⟨source, options.probes, (coresUnasked width setup options).out,
      options.minutes, defaultsSaid options⟩ ∧
      (options.probes.rbx = true → setup.rbxProblem = none) ∧
      (coresUnasked width setup options).accepted = true

section Unasked

variable {Source : Type} {next : Source → Option (Text × Source)} {width : LongWidth}
  {setup : Setup} {options : Options}

theorem run_leaves {State Result : Type*} {trip : State → FuelLoop.Trip State Result}
    {state : State} {result : Result} (fuel : Nat) (leaves : trip state = .leave result) :
    FuelLoop.run trip (fuel + 1) state = some result := by
  rw [FuelLoop.run, leaves]

theorem ask_probe_unasked (quiet : options.haveProbe = true ∨ setup.interactive = false)
    (dialog : Dialog Source) :
    askProbe next setup options dialog = .leave { dialog with
      said := dialog.said ++ if options.haveProbe then [] else [probeDefault] } := by
  unfold askProbe
  cases given : options.haveProbe with
  | true => simp
  | false =>
      rw [given] at quiet
      rw [quiet.resolve_left Bool.false_ne_true]
      rfl

theorem cores_answer_unasked (quiet : options.haveCores = true ∨ setup.interactive = false)
    (dialog : Dialog Source) :
    coresAnswer next setup options dialog =
      (if options.haveCores then options.coresSpec else "all".toList, { dialog with
        said := dialog.said ++ if options.haveCores then [] else [coresDefault] }) := by
  unfold coresAnswer
  cases given : options.haveCores with
  | true => simp
  | false =>
      rw [given] at quiet
      rw [quiet.resolve_left Bool.false_ne_true]
      rfl

/-- The selection is made or the run is over. -/
theorem ask_cores_unasked (next : Source → Option (Text × Source)) (width : LongWidth)
    (quiet : options.haveCores = true ∨ setup.interactive = false)
    (dialog : Dialog Source) :
    ∃ later : Dialog Source, later.source = dialog.source ∧
      askCores next width setup options dialog =
        .leave (if (coresUnasked width setup options).accepted then
          .goesOn { dialog with
            selected := (coresUnasked width setup options).out
            said := dialog.said ++ if options.haveCores then [] else [coresDefault] }
          else .exits kExitUsage later) := by
  have stops : options.haveCores = true ∨ ¬ setup.interactive = true := by
    rcases quiet with given | none
    · exact .inl given
    · exact .inr (by rw [none]; exact Bool.false_ne_true)
  have read : parseCpuSelection width
      (if options.haveCores then options.coresSpec else "all".toList) setup.available
        ⟨false, dialog.selected, []⟩ = coresUnasked width setup options := rfl
  unfold askCores
  rw [cores_answer_unasked quiet]
  dsimp only
  rw [read]
  by_cases accepted : (coresUnasked width setup options).accepted = true
  · rw [if_pos accepted]
    exact ⟨dialog, rfl, congrArg _ (if_pos accepted).symm⟩
  · rw [if_neg accepted, if_pos stops]
    refine ⟨_, ?_, congrArg _ (if_neg accepted).symm⟩
    rfl

theorem ask_minutes_unasked (quiet : options.haveMinutes = true ∨ setup.interactive = false)
    (dialog : Dialog Source) :
    askMinutes next width setup options dialog = .leave { dialog with
      said := dialog.said ++
        if options.haveMinutes then [] else [minutesDefault dialog.probes] } := by
  unfold askMinutes
  cases given : options.haveMinutes with
  | true => simp
  | false =>
      rw [given] at quiet
      rw [quiet.resolve_left Bool.false_ne_true]
      rfl

/-- Either there is no terminal to ask at, or there is nothing to ask. -/
def NobodyAsked (setup : Setup) (options : Options) : Prop :=
  setup.interactive = false ∨
    options.haveProbe = true ∧ options.haveCores = true ∧ options.haveMinutes = true

theorem ask_unasked (quiet : NobodyAsked setup options) (fuel : Nat) (source : Source) :
    ∃ ended, ask next width setup options (fuel + 1) source = some ended ∧
      Unasked width setup options source ended := by
  have probe : options.haveProbe = true ∨ setup.interactive = false := by
    rcases quiet with none | given
    · exact .inr none
    · exact .inl given.1
  have cores : options.haveCores = true ∨ setup.interactive = false := by
    rcases quiet with none | given
    · exact .inr none
    · exact .inl given.2.1
  have minutes : options.haveMinutes = true ∨ setup.interactive = false := by
    rcases quiet with none | given
    · exact .inr none
    · exact .inl given.2.2
  unfold ask
  rw [run_leaves fuel (ask_probe_unasked probe _), Option.bind_some]
  dsimp only
  by_cases refused : options.probes.rbx = true ∧ setup.rbxProblem ≠ none
  · rw [if_pos refused]
    exact ⟨_, rfl, rfl, rfl, .inl refused⟩
  · rw [if_neg refused]
    obtain ⟨later, unread, selected⟩ := ask_cores_unasked next width cores
      ({ source := source
         probes := options.probes
         minutes := options.minutes
         said := [] ++ if options.haveProbe then [] else [probeDefault] } : Dialog Source)
    rw [run_leaves fuel selected, Option.bind_some]
    by_cases accepted : (coresUnasked width setup options).accepted = true
    · rw [if_pos accepted]
      dsimp only
      rw [run_leaves fuel (ask_minutes_unasked minutes _)]
      refine ⟨_, rfl, ?_, ?_, accepted⟩
      · rw [List.nil_append, defaultsSaid]
      · intro chosen
        by_contra problem
        exact refused ⟨chosen, problem⟩
    · rw [if_neg accepted]
      exact ⟨_, rfl, rfl, unread, .inr (Bool.eq_false_of_not_eq_true accepted)⟩

/-- With nobody to ask, or nothing to ask for, nothing is read: the values that were given
and the defaults of the others are taken, each default is announced and it is the one the
announcement names. Only the rbx probe or `--cores` can end the run here. -/
theorem nothing_is_read (width : LongWidth) {argv : List CString} {options : Options}
    (parsed : parseArguments width argv = .proceeds options) (setup : Setup)
    (quiet : NobodyAsked setup options) (stdin : Text) :
    (∃ ended, ask readLine width setup options (stdin.length + 1) stdin = some ended ∧
      Unasked width setup options stdin ended) ∧
      (options.haveProbe = false → options.probes = { ch := true, rbx := false }) ∧
      (options.haveMinutes = false → options.minutes = kDefaultMinutes) := by
  have valid := parse_arguments_valid parsed
  exact ⟨ask_unasked quiet stdin.length stdin, valid.defaultProbes, valid.defaultMinutes⟩

end Unasked

theorem nothing_is_read_sample :
    ∃ ended, ask readLine .bits64 (oneCoreSetup false) {} ("rbx\n".toList.length + 1)
        "rbx\n".toList = some ended ∧
      Unasked .bits64 (oneCoreSetup false) {} "rbx\n".toList ended :=
  (@nothing_is_read .bits64 [programOnly] {} rfl (oneCoreSetup false) (.inl rfl)
    "rbx\n".toList).1

/-! ### Typed or given -/

section Trimmed

theorem trim_trim (text : Text) : trim (trim text) = trim text := by
  by_cases empty : trim text = []
  · rw [empty]
    rfl
  · have around := @trim_around [] (trim text) [] (trim_bare empty)
    rw [List.nil_append, List.append_nil] at around
    rw [around]
    exact List.append_nil _

theorem digits_no_blank {digits : Text} (shape : IsDigits digits) :
    ∀ c ∈ digits, isBlank c = false := by
  intro c inside
  cases blank : isBlank c with
  | false => rfl
  | true =>
      have digit := shape.2 c inside
      rw [space_not_digit (Separators.blank_space blank)] at digit
      cases digit

theorem signed_no_blank {sign : Char} {digits : Text} (plain : isBlank sign = false)
    (shape : IsDigits digits) : ∀ c ∈ sign :: digits, isBlank c = false :=
  List.forall_mem_cons.mpr ⟨plain, digits_no_blank shape⟩

/-- A numeral ends in a digit. -/
theorem numeral_last {text : Text} {value : Int} (numeral : IsNumeral text value) :
    ∀ c ∈ text.getLast?, isBlank c = false := by
  induction numeral with
  | plain shape =>
      exact fun c ends => digits_no_blank shape c (List.mem_of_mem_getLast? ends)
  | plus shape =>
      exact fun c ends => signed_no_blank rfl shape c (List.mem_of_mem_getLast? ends)
  | minus shape =>
      exact fun c ends => signed_no_blank rfl shape c (List.mem_of_mem_getLast? ends)
  | blank _ rest ih =>
      rw [List.getLast?_cons_of_ne_nil (numeral_ne_nil rest)]
      exact ih

theorem numeral_drop_blank {text : Text} {value : Int} (numeral : IsNumeral text value) :
    IsNumeral (text.dropWhile isBlank) value := by
  have kept : ∀ {plain : Text}, (∀ c ∈ plain, isBlank c = false) →
      plain.dropWhile isBlank = plain := by
    intro plain none
    apply List.dropWhile_eq_self_iff.mpr
    intro given
    simp [none _ (List.getElem_mem given)]
  induction numeral with
  | plain shape =>
      rw [kept (digits_no_blank shape)]
      exact .plain shape
  | plus shape =>
      rw [kept (signed_no_blank rfl shape)]
      exact .plus shape
  | minus shape =>
      rw [kept (signed_no_blank rfl shape)]
      exact .minus shape
  | @blank c text value space rest ih =>
      rw [List.dropWhile_cons]
      split_ifs
      · exact ih
      · exact .blank space rest

theorem numeral_trim {text : Text} {value : Int} (numeral : IsNumeral text value) :
    IsNumeral (trim text) value := by
  have front := numeral_drop_blank numeral
  have same : (text.dropWhile isBlank).rdropWhile isBlank = text.dropWhile isBlank := by
    have ends := @drop_blank_last _ [] (numeral_last front)
    rw [List.append_nil] at ends
    rw [ends]
    exact List.append_nil _
  rw [trim, same]
  exact front

theorem parse_minutes_trim (width : LongWidth) {value : CString} {parsed : Int}
    (taken : parseMinutes width value.1 = some parsed) :
    parseMinutes width (trim value.1) = some parsed ∧ trim value.1 ≠ [] := by
  have read := (OptionValues.parse_bounded_iff width value parsed (by decide) (by decide)).mp taken
  have numeral := numeral_trim read.1
  constructor
  · exact (OptionValues.parse_bounded_iff width ⟨trim value.1, not_mem_trim value.2⟩ parsed
      (by decide) (by decide)).mpr ⟨numeral, read.2⟩
  · exact numeral_ne_nil numeral

theorem parse_probe_trim (value : Text) (probes : ProbeSelection) :
    parseProbeSelection (trim value) probes = parseProbeSelection value probes := by
  unfold parseProbeSelection
  rw [trim_trim]

theorem parse_cores_trim (width : LongWidth) (value : Text) (available : List CpuInfo)
    (before : Selection) :
    parseCpuSelection width (trim value) available before =
      parseCpuSelection width value available before := by
  unfold parseCpuSelection
  rw [trim_trim]

end Trimmed

section Typed

variable {width : LongWidth} {setup : Setup} {options : Options}

theorem flag_clean (flag : Flag) : nul ∉ flag.text := by cases flag <;> decide

def flagWord (flag : Flag) : CString := ⟨flag.text, flag_clean flag⟩

/-- `sdcprobe --probe p --cores c --minutes m` -/
def flagged (program p c m : CString) : List CString :=
  [program, flagWord .probe, p, flagWord .cores, c, flagWord .minutes, m]

/-- The same three values on lines of their own. -/
def typed (p c m rest : Text) : Text := p ++ '\n' :: (c ++ '\n' :: (m ++ '\n' :: rest))

/-- What fits on a line of an answer. -/
def OneLine (value : CString) : Prop := '\n' ∉ value.1 ∧ value.1.length ≤ 254

/-- One flag that takes a value. -/
theorem parse_words_flag {flag : Flag} {word value : CString} {rest : List CString}
    {final : Options} (help : isHelp word = false) (version : isVersion word = false)
    (selfTest : isSelfTest word = false) (known : knownFlag word.1 = some flag)
    (proceeded : parseWords width (word :: value :: rest) options = .proceeds final) :
    ∃ taken, takeValue width flag value.1 options = .ok taken ∧
      parseWords width rest taken = .proceeds final := by
  rw [parseWords, help, version, selfTest, known] at proceeded
  simp only [Bool.false_eq_true, if_false] at proceeded
  cases accepted : takeValue width flag value.1 options with
  | error message =>
      rw [accepted] at proceeded
      cases proceeded
  | ok taken =>
      rw [accepted] at proceeded
      exact ⟨taken, rfl, proceeded⟩

theorem flagged_options {program p c m : CString}
    (taken : parseArguments width (flagged program p c m) = .proceeds options) :
    ∃ probes minutes, parseProbeSelection p.1 {} = some probes ∧
      parseMinutes width m.1 = some minutes ∧
      options = { minutes := minutes.toNat, probes := probes, coresSpec := c.1,
                  haveMinutes := true, haveCores := true, haveProbe := true } := by
  unfold parseArguments flagged at taken
  rw [List.tail_cons] at taken
  obtain ⟨first, probed, afterProbe⟩ := parse_words_flag rfl rfl rfl rfl taken
  obtain ⟨second, cored, afterCores⟩ := parse_words_flag rfl rfl rfl rfl afterProbe
  obtain ⟨third, timed, afterMinutes⟩ := parse_words_flag rfl rfl rfl rfl afterCores
  rw [parseWords, Parsed.proceeds.injEq] at afterMinutes
  unfold takeValue at probed timed
  dsimp only at probed timed
  split_ifs at probed
  split at probed
  · cases probed
  · next probes named =>
      split at timed
      · cases timed
      · next minutes numbered =>
          cases probed
          cases cored
          cases timed
          exact ⟨probes, minutes, named, numbered, afterMinutes.symm⟩

theorem ask_probe_typed (terminal : setup.interactive = true)
    (asked : options.haveProbe = false) {answer : CString} (line : OneLine answer) {rest : Text}
    {dialog : Dialog Text} (source : dialog.source = answer.1 ++ '\n' :: rest)
    {probes : ProbeSelection}
    (named : parseProbeSelection answer.1 dialog.probes = some probes) :
    ∃ said, askProbe readLine setup options dialog =
      .leave { dialog with source := rest, probes := probes, said := said } := by
  have read : readLine dialog.source = some (trim answer.1, rest) := by
    rw [source]
    exact read_line_line answer.2 line.1 line.2
  rw [← parse_probe_trim] at named
  unfold askProbe
  rw [asked, terminal, if_neg Bool.false_ne_true, if_neg (not_not.mpr rfl)]
  dsimp only [Dialog.say]
  rw [read]
  dsimp only
  rw [named]
  exact ⟨_, rfl⟩

theorem ask_cores_typed (terminal : setup.interactive = true)
    (asked : options.haveCores = false) {answer : CString} (line : OneLine answer) {rest : Text}
    {dialog : Dialog Text} (source : dialog.source = answer.1 ++ '\n' :: rest)
    (accepted : (parseCpuSelection width answer.1 setup.available
      ⟨false, [], []⟩).accepted = true) :
    ∃ said, askCores readLine width setup options dialog =
      .leave (.goesOn { dialog with
        source := rest
        selected := (parseCpuSelection width answer.1 setup.available ⟨false, [], []⟩).out
        said := said }) := by
  have read : readLine dialog.source = some (trim answer.1, rest) := by
    rw [source]
    exact read_line_line answer.2 line.1 line.2
  have answered : coresAnswer readLine setup options dialog = (trim answer.1, { dialog with
      source := rest
      said := dialog.said ++
        ["Cores to test - 'all', or a list like '0,1,2' or '0-7,16' [all]: ".toList] }) := by
    unfold coresAnswer
    rw [asked, terminal, if_neg Bool.false_ne_true, if_neg (not_not.mpr rfl)]
    dsimp only [Dialog.say]
    rw [read]
  have same : parseCpuSelection width (trim answer.1) setup.available
      ⟨false, dialog.selected, []⟩ =
        parseCpuSelection width answer.1 setup.available ⟨false, [], []⟩ :=
    parse_cores_trim width answer.1 setup.available ⟨false, [], []⟩
  unfold askCores
  rw [answered]
  dsimp only
  rw [same, if_pos accepted]
  exact ⟨_, rfl⟩

theorem ask_minutes_typed (terminal : setup.interactive = true)
    (asked : options.haveMinutes = false) {answer : CString} (line : OneLine answer) {rest : Text}
    {dialog : Dialog Text} (source : dialog.source = answer.1 ++ '\n' :: rest) {minutes : Int}
    (numbered : parseMinutes width answer.1 = some minutes) :
    ∃ said, askMinutes readLine width setup options dialog =
      .leave { dialog with source := rest, minutes := minutes.toNat, said := said } := by
  have read : readLine dialog.source = some (trim answer.1, rest) := by
    rw [source]
    exact read_line_line answer.2 line.1 line.2
  obtain ⟨trimmed, given⟩ := parse_minutes_trim width numbered
  unfold askMinutes
  dsimp only
  rw [asked, terminal, if_neg Bool.false_ne_true, if_neg (not_not.mpr rfl)]
  dsimp only [Dialog.say]
  rw [read]
  dsimp only
  rw [if_neg given, trimmed]
  exact ⟨_, rfl⟩

end Typed

/-- Values that are taken from the command line are taken as well when they are typed:
`sdcprobe` and three lines of input choose the same probes, cores and minutes, and what
follows the three lines is not touched. -/
theorem typed_answers_stand_for_options (width : LongWidth) (setup : Setup)
    (terminal : setup.interactive = true) {program p c m : CString} (probeLine : OneLine p)
    (coresLine : OneLine c) (minutesLine : OneLine m) {options : Options}
    (taken : parseArguments width (flagged program p c m) = .proceeds options) {stdin : Text}
    {dialog : Dialog Text} (fuel : Nat)
    (configured : ask readLine width setup options (fuel + 1) stdin = some (.goesOn dialog))
    (rest : Text) :
    ∃ other, ask readLine width setup {} (fuel + 1) (typed p.1 c.1 m.1 rest) =
        some (.goesOn other) ∧
      other.source = rest ∧ other.probes = dialog.probes ∧ other.selected = dialog.selected ∧
      other.minutes = dialog.minutes := by
  obtain ⟨probes, minutes, named, numbered, set⟩ := flagged_options taken
  have given : NobodyAsked setup options := by
    rw [set]
    exact .inr ⟨rfl, rfl, rfl⟩
  obtain ⟨ended, again, unasked⟩ := @ask_unasked _ readLine width setup _ given fuel stdin
  rw [configured, Option.some.injEq] at again
  rw [← again] at unasked
  obtain ⟨same, able, accepted⟩ := unasked
  have cores : coresUnasked width setup options =
      parseCpuSelection width c.1 setup.available ⟨false, [], []⟩ := by
    rw [set]
    rfl
  rw [cores] at same accepted
  rw [set] at same able
  let first : Dialog Text :=
    { source := typed p.1 c.1 m.1 rest, probes := {}, minutes := kDefaultMinutes }
  obtain ⟨probeSaid, probed⟩ := @ask_probe_typed setup {} terminal rfl p probeLine _ first rfl
    probes named
  obtain ⟨coresSaid, cored⟩ := @ask_cores_typed width setup {} terminal rfl c coresLine _
    { first with source := _, probes := probes, said := probeSaid } rfl accepted
  obtain ⟨minutesSaid, timed⟩ := @ask_minutes_typed width setup {} terminal rfl m minutesLine _
    { first with
      source := _
      probes := probes
      selected := (parseCpuSelection width c.1 setup.available ⟨false, [], []⟩).out
      said := coresSaid } rfl minutes numbered
  have refused : ¬ (probes.rbx = true ∧ setup.rbxProblem ≠ none) := fun both =>
    both.2 (able both.1)
  have asked : ask readLine width setup {} (fuel + 1) (typed p.1 c.1 m.1 rest) =
      some (.goesOn ⟨rest, probes,
        (parseCpuSelection width c.1 setup.available ⟨false, [], []⟩).out, minutes.toNat,
        minutesSaid⟩) := by
    unfold ask
    rw [run_leaves fuel probed, Option.bind_some]
    dsimp only
    rw [if_neg refused, run_leaves fuel cored, Option.bind_some]
    dsimp only
    rw [run_leaves fuel timed]
    rfl
  rw [same]
  exact ⟨_, asked, rfl, rfl, rfl, rfl⟩

/-- The values `rbx`, `all` and `5`. -/
def sampleTexts : List Text := ["rbx".toList, "all".toList, "5".toList]

theorem sample_texts_clean : ∀ text ∈ sampleTexts, nul ∉ text := by decide

theorem sample_texts_plain : ∀ text ∈ sampleTexts, '\n' ∉ text ∧ text.length ≤ 254 := by decide

theorem typed_answers_stand_for_options_sample :
    ∃ other, ask readLine .bits64 (oneCoreSetup true) {} 1
        (typed "rbx".toList "all".toList "5".toList []) = some (.goesOn other) ∧
      other.probes = { ch := false, rbx := true } ∧ other.selected = [⟨0, 0, 0⟩] ∧
      other.minutes = 5 := by
  have member : "rbx".toList ∈ sampleTexts ∧ "all".toList ∈ sampleTexts ∧
      "5".toList ∈ sampleTexts := by decide
  obtain ⟨rbx, all, five⟩ := member
  obtain ⟨other, asked, _, probes, selected, minutes⟩ :=
    @typed_answers_stand_for_options .bits64 (oneCoreSetup true) rfl programOnly
      ⟨_, sample_texts_clean _ rbx⟩ ⟨_, sample_texts_clean _ all⟩ ⟨_, sample_texts_clean _ five⟩
      (sample_texts_plain _ rbx) (sample_texts_plain _ all) (sample_texts_plain _ five)
      { minutes := 5, probes := { ch := false, rbx := true }, coresSpec := "all".toList,
        haveMinutes := true, haveCores := true, haveProbe := true }
      rfl [] ⟨[], { ch := false, rbx := true }, [⟨0, 0, 0⟩], 5, []⟩ 0 rfl []
  exact ⟨other, asked, probes, selected, minutes⟩

end SdcProbe.Questions
