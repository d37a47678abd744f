import SdcProbe.CommandLine

/-!
# The values of the options

What a command line gives, word by word, apart from what the loop does with it:
the values of the flags as far as the words can be read, and what stops the
reading. The options `main` goes on with hold the last value given for each
flag, and every number is one that was written out, except after `--seed`.
-/

namespace SdcProbe.OptionValues

open CNumeral AnswerText CoreSweep Verdict CommandLine

set_option autoImplicit false

/-- The values before the words run out or something stops them. -/
def given : List CString → List (Flag × CString)
  | [] => []
  | word :: rest =>
      if isHelp word || isVersion word then []
      else if isSelfTest word then given rest
      else
        match knownFlag word.1, rest with
        | some flag, value :: rest => (flag, value) :: given rest
        | _, _ => []

inductive Stop where
  | complete | help | version | unexpected | missing
  deriving DecidableEq

def stop : List CString → Stop
  | [] => .complete
  | word :: rest =>
      if isHelp word then .help
      else if isVersion word then .version
      else if isSelfTest word then stop rest
      else
        match knownFlag word.1, rest with
        | none, _ => .unexpected
        | some _, [] => .missing
        | some _, _ :: rest => stop rest

section Reading

variable {word : CString} (rest : List CString)

theorem read_stopped (stops : (isHelp word || isVersion word) = true) :
    given (word :: rest) = [] ∧
      stop (word :: rest) = if isHelp word then .help else .version := by
  rw [given.eq_def, stop.eq_def]
  simp only [stops, if_true]
  cases help : isHelp word with
  | true => simp
  | false =>
      rw [help, Bool.false_or] at stops
      simp [stops]

theorem read_self_test (onward : (isHelp word || isVersion word) = false)
    (selfTest : isSelfTest word = true) :
    given (word :: rest) = given rest ∧ stop (word :: rest) = stop rest := by
  rw [Bool.or_eq_false_iff] at onward
  rw [given.eq_def, stop.eq_def]
  simp [onward, selfTest]

theorem read_flag (onward : (isHelp word || isVersion word) = false)
    (noSelfTest : isSelfTest word = false) :
    (knownFlag word.1 = none → given (word :: rest) = [] ∧ stop (word :: rest) = .unexpected) ∧
    ∀ flag, knownFlag word.1 = some flag →
      (given [word] = [] ∧ stop [word] = .missing) ∧
      ∀ value, given (word :: value :: rest) = (flag, value) :: given rest ∧
        stop (word :: value :: rest) = stop rest := by
  rw [Bool.or_eq_false_iff] at onward
  constructor
  · intro unknown
    rw [given.eq_def, stop.eq_def]
    simp [onward, noSelfTest, unknown]
  · intro flag found
    constructor
    · simp [given, stop, onward, noSelfTest, found]
    · intro value
      simp [given, stop, onward, noSelfTest, found]

end Reading

def settings (argv : List CString) : List (Flag × CString) := given argv.tail

/-- The range of the options that take a number. -/
def range : Flag → Option (Int × Int)
  | .minutes => some (1, 1440)
  | .layers => some (1, 64)
  | .seed => some (0, 2 ^ 32 - 1)
  | _ => none

/-- A number in its range, if the flag takes one. -/
def IsExact (flag : Flag) (value : CString) : Prop :=
  ∀ low high, range flag = some (low, high) →
    ∃ number, IsNumeral value.1 number ∧ low ≤ number ∧ number ≤ high

def lastGiven (flag : Flag) (settings : List (Flag × CString)) : Option CString :=
  ((settings.filter fun setting => setting.1 = flag).getLast?).map Prod.snd

/-- The number written out, or the default. -/
def HoldsNumber (default : Nat) (value : Option CString) (actual : Nat) : Prop :=
  match value with
  | none => actual = default
  | some value => IsNumeral value.1 actual

/-- The probes a value names; a blank one names none. -/
def probesNamed (setting : Flag × CString) : Option ProbeSelection :=
  if setting.1 = .probe ∧ trim setting.2.1 ≠ [] then parseProbeSelection setting.2.1 {} else none

structure HoldsLast (settings : List (Flag × CString)) (options : Options) : Prop where
  minutes : HoldsNumber 10 (lastGiven .minutes settings) options.minutes
  layers : HoldsNumber 0 (lastGiven .layers settings) options.layers
  seed : HoldsNumber 42 (lastGiven .seed settings) options.seed
  coresSpec : options.coresSpec = (lastGiven .cores settings).elim [] Subtype.val
  logPath : options.logPath = (lastGiven .log settings).elim [] Subtype.val
  probes : options.probes = (settings.filterMap probesNamed).getLast?.getD {}
  haveMinutes : options.haveMinutes = (lastGiven .minutes settings).isSome
  haveCores : options.haveCores = (lastGiven .cores settings).isSome
  haveProbe : options.haveProbe = (lastGiven .probe settings).isSome

/-- Numbers are taken as they are written, or the run ends before any core is
touched. -/
def TakenExactly (width : LongWidth) (argv : List CString) : Prop :=
  (∀ options, parseArguments width argv = .proceeds options →
    (∀ setting ∈ settings argv, IsExact setting.1 setting.2) ∧
      HoldsLast (settings argv) options) ∧
  ((∃ setting ∈ settings argv, ¬ IsExact setting.1 setting.2) →
    ∀ onward, mainProgram width onward argv = ⟨kExitUsage, []⟩)

/-- The values the loop turns away: of `--minutes` and `--layers` what is no
number in the range, of `--probe` what names no probe. -/
def IsRefused (setting : Flag × CString) : Prop :=
  match setting.1 with
  | .minutes | .layers => ¬ IsExact setting.1 setting.2
  | .probe => setting.2.1 = [] ∨ parseProbeSelection setting.2.1 {} = none
  | _ => False

section Values

variable {width : LongWidth}

theorem parse_bounded_iff (width : LongWidth) {low high : Int} (value : CString) (parsed : Int)
    (positive : 0 < low) (small : high < 2 ^ 31 - 1) :
    parseBounded width low high value.1 = some parsed ↔
      IsNumeral value.1 parsed ∧ low ≤ parsed ∧ parsed ≤ high := by
  unfold parseBounded
  constructor
  · intro accepted
    dsimp only at accepted
    split_ifs at accepted with bad
    simp only [not_or, not_not, not_lt] at bad
    cases accepted
    have converts : Converts width value.1 (strtol width value.1).1 := by
      constructor
      · intro empty
        rw [empty] at bad
        exact absurd (bad.2.1.trans_lt' positive) (lt_irrefl 0)
      · rfl
      · exact bad.1
    constructor
    · exact (converts_iff_numeral value.2 (by omega) (by omega)).mp converts
    · exact bad.2
  · rintro ⟨numeral, above, below⟩
    have converts : Converts width value.1 parsed :=
      (converts_iff_numeral value.2 (by omega) (by omega)).mpr numeral
    dsimp only
    rw [converts.read, if_neg]
    simp only [not_or, not_not, not_lt]
    exact ⟨converts.ended, above, below⟩

theorem strtoul_numeral (width : LongWidth) {value : Text} {number : Int}
    (numeral : IsNumeral value number) (low : 0 ≤ number) (high : number ≤ 2 ^ 32 - 1) :
    ((strtoul width value).1 : Int) = number := by
  obtain ⟨scan, scanned, _, read⟩ := whole_numeral_scan (whole_numeral_of numeral)
  rw [strtoul, scanned]
  unfold Scan.value valueOf at read
  have fits : ¬ 2 ^ width.bits ≤ scan.magnitude := by
    cases width <;> simp only [LongWidth.bits] <;> split_ifs at read <;> omega
  dsimp only
  rw [if_neg fits]
  split_ifs at read ⊢
  · have zero : scan.magnitude = 0 := by omega
    rw [← read, zero, Nat.sub_zero, Nat.mod_self]
    rfl
  · exact read

theorem is_exact_iff {flag : Flag} {low high : Int} (value : CString)
    (ranged : range flag = some (low, high)) :
    IsExact flag value ↔ ∃ number, IsNumeral value.1 number ∧ low ≤ number ∧ number ≤ high := by
  constructor
  · exact fun exact => exact low high ranged
  · intro inside other others same
    rw [ranged] at same
    cases same
    exact inside

theorem exact_unranged {flag : Flag} (value : CString) (unranged : range flag = none) :
    IsExact flag value := by
  intro low high ranged
  rw [unranged] at ranged
  cases ranged

theorem parse_bounded_none_iff (width : LongWidth) {flag : Flag} {low high : Int}
    (value : CString) (ranged : range flag = some (low, high)) (positive : 0 < low)
    (small : high < 2 ^ 31 - 1) :
    parseBounded width low high value.1 = none ↔ ¬ IsExact flag value := by
  rw [Option.eq_none_iff_forall_ne_some, is_exact_iff value ranged, not_exists]
  apply forall_congr'
  intro parsed
  rw [ne_eq, parse_bounded_iff width value parsed positive small]

/-- A value the loop turns away does not depend on the options so far. -/
theorem parse_probe_refused_iff (value : Text) (probes : ProbeSelection) :
    parseProbeSelection value probes = none ↔ parseProbeSelection value {} = none := by
  unfold parseProbeSelection
  dsimp only
  split_ifs <;> simp

theorem take_value_refused_iff (width : LongWidth) (flag : Flag) (value : CString)
    (options : Options) :
    (∃ message, takeValue width flag value.1 options = .error message) ↔
      IsRefused (flag, value) := by
  cases flag with
  | minutes =>
      have bounded : parseMinutes width value.1 = none ↔ ¬ IsExact .minutes value :=
        parse_bounded_none_iff width value rfl (by decide) (by decide)
      rw [IsRefused, ← bounded]
      unfold takeValue
      cases parseMinutes width value.1 <;> simp
  | layers =>
      have bounded : parseLayers width value.1 = none ↔ ¬ IsExact .layers value :=
        parse_bounded_none_iff width value rfl (by decide) (by decide)
      rw [IsRefused, ← bounded]
      unfold takeValue
      cases parseLayers width value.1 <;> simp
  | seed =>
      unfold takeValue IsRefused
      simp
  | cores =>
      unfold takeValue IsRefused
      simp
  | probe =>
      rw [IsRefused, ← parse_probe_refused_iff value.1 options.probes,
        ← deref_eq_nul_iff value.2]
      unfold takeValue
      dsimp only
      split_ifs with empty
      · simp [empty]
      · cases parseProbeSelection value.1 options.probes <;> simp [empty]
  | log =>
      unfold takeValue IsRefused
      simp

theorem last_given_append (flag : Flag) (before : List (Flag × CString))
    (setting : Flag × CString) :
    lastGiven flag (before ++ [setting]) =
      if setting.1 = flag then some setting.2 else lastGiven flag before := by
  unfold lastGiven
  rw [List.filter_append, List.filter_singleton]
  split_ifs with same
  · simp [same]
  · simp [same]

theorem probes_append (before : List (Flag × CString)) (setting : Flag × CString) :
    ((before ++ [setting]).filterMap probesNamed).getLast? =
      (probesNamed setting).or (before.filterMap probesNamed).getLast? := by
  rw [List.filterMap_append]
  cases named : probesNamed setting with
  | none => simp [named]
  | some probes => simp [named]

theorem holds_bounded (default : Nat) {low high : Int} {value : CString} {parsed : Int}
    (positive : 0 < low) (small : high < 2 ^ 31 - 1)
    (found : parseBounded width low high value.1 = some parsed) :
    HoldsNumber default (some value) parsed.toNat := by
  have read := (parse_bounded_iff width value parsed positive small).mp found
  rw [HoldsNumber, Int.toNat_of_nonneg (by omega)]
  exact read.1

theorem holds_seed (width : LongWidth) {value : CString} (exact : IsExact .seed value) :
    HoldsNumber 42 (some value) (parseSeed width value.1) := by
  obtain ⟨number, numeral, low, high⟩ := exact 0 (2 ^ 32 - 1) rfl
  have converted := strtoul_numeral width numeral low high
  have narrowed : ((parseSeed width value.1 : Nat) : Int) = number := by
    rw [parseSeed]
    omega
  rw [HoldsNumber, narrowed]
  exact numeral

theorem parse_probe_blank {value : Text} (probes : ProbeSelection) (blank : trim value = []) :
    parseProbeSelection value probes = some probes := by
  unfold parseProbeSelection
  exact if_pos blank

theorem parse_probe_named {value : Text} (probes : ProbeSelection) (named : trim value ≠ []) :
    parseProbeSelection value probes = parseProbeSelection value {} := by
  unfold parseProbeSelection
  simp only [if_neg named]

theorem probes_taken {value : CString} {probes chosen : ProbeSelection}
    {before : List (Flag × CString)}
    (holds : probes = (before.filterMap probesNamed).getLast?.getD {})
    (found : parseProbeSelection value.1 probes = some chosen) :
    chosen = ((before ++ [(Flag.probe, value)]).filterMap probesNamed).getLast?.getD {} := by
  rw [probes_append]
  by_cases blank : trim value.1 = []
  · have none : probesNamed (.probe, value) = none := if_neg fun named => named.2 blank
    rw [parse_probe_blank probes blank] at found
    cases found
    rw [none, Option.none_or, ← holds]
  · have some : probesNamed (.probe, value) = some chosen := by
      rw [← found, parse_probe_named probes blank]
      exact if_pos ⟨rfl, blank⟩
    rw [some]
    rfl

/-- One value more, taken: a number is the one written out, the rest stays. -/
theorem take_value_holds {flag : Flag} {value : CString} {before : List (Flag × CString)}
    {options taken : Options} (holds : HoldsLast before options)
    (accepted : takeValue width flag value.1 options = .ok taken)
    (seeded : flag = .seed → IsExact flag value) :
    HoldsLast (before ++ [(flag, value)]) taken := by
  obtain ⟨minutes, layers, seed, cores, log, probes, someMinutes, someCores, someProbe⟩ := holds
  cases flag with
  | minutes =>
      unfold takeValue at accepted
      dsimp only at accepted
      split at accepted
      · cases accepted
      · next parsed found =>
          cases accepted
          have written := holds_bounded 10 (by decide) (by decide) found
          constructor <;> simp [last_given_append, probesNamed, written, layers, seed, cores, log,
            probes, someCores, someProbe]
  | layers =>
      unfold takeValue at accepted
      dsimp only at accepted
      split at accepted
      · cases accepted
      · next parsed found =>
          cases accepted
          have written := holds_bounded 0 (by decide) (by decide) found
          constructor <;> simp [last_given_append, probesNamed, written, minutes, seed, cores, log,
            probes, someMinutes, someCores, someProbe]
  | seed =>
      cases accepted
      have written := holds_seed width (seeded rfl)
      constructor <;> simp [last_given_append, probesNamed, written, minutes, layers, cores, log,
        probes, someMinutes, someCores, someProbe]
  | cores =>
      cases accepted
      constructor <;> simp [last_given_append, probesNamed, minutes, layers, seed, log, probes,
        someMinutes, someProbe]
  | probe =>
      unfold takeValue at accepted
      dsimp only at accepted
      split_ifs at accepted
      split at accepted
      · cases accepted
      · next chosen found =>
          cases accepted
          have last := probes_taken probes found
          constructor <;> first
            | exact last
            | simp [last_given_append, minutes, layers, seed, cores, log, someMinutes, someCores]
  | log =>
      cases accepted
      constructor <;> simp [last_given_append, probesNamed, minutes, layers, seed, cores, probes,
        someMinutes, someCores, someProbe]

end Values

section Loop

variable {width : LongWidth}

theorem self_test_holds {before : List (Flag × CString)} {options : Options}
    (holds : HoldsLast before options) :
    HoldsLast before { options with wantSelfTest := true } := by
  constructor
  · exact holds.minutes
  · exact holds.layers
  · exact holds.seed
  · exact holds.coresSpec
  · exact holds.logPath
  · exact holds.probes
  · exact holds.haveMinutes
  · exact holds.haveCores
  · exact holds.haveProbe

theorem exact_of_taken {flag : Flag} {value : CString} {options taken : Options}
    (accepted : takeValue width flag value.1 options = .ok taken)
    (seeded : flag = .seed → IsExact flag value) : IsExact flag value := by
  have kept : ¬ IsRefused (flag, value) := by
    rw [← take_value_refused_iff width flag value options, accepted]
    simp
  cases flag with
  | minutes => exact not_not.mp kept
  | layers => exact not_not.mp kept
  | seed => exact seeded rfl
  | cores => exact exact_unranged value rfl
  | probe => exact exact_unranged value rfl
  | log => exact exact_unranged value rfl

/-- The whole loop, when it runs out of words. -/
theorem parse_words_holds {words : List CString} {options final : Options}
    {before : List (Flag × CString)} (holds : HoldsLast before options)
    (seeded : ∀ value, (.seed, value) ∈ given words → IsExact .seed value)
    (proceeded : parseWords width words options = .proceeds final) :
    (∀ setting ∈ given words, IsExact setting.1 setting.2) ∧
      HoldsLast (before ++ given words) final := by
  fun_induction parseWords width words options generalizing before with
  | case1 options =>
      cases proceeded
      rw [given, List.append_nil]
      exact ⟨List.forall_mem_nil _, holds⟩
  | case2 => cases proceeded
  | case3 => cases proceeded
  | case4 flag rest options noHelp noVersion selfTest ih =>
      have step := read_self_test rest (by simp [noHelp, noVersion]) selfTest
      rw [step.1] at seeded ⊢
      exact ih (self_test_holds holds) seeded proceeded
  | case5 => cases proceeded
  | case6 => cases proceeded
  | case7 => cases proceeded
  | case8 flag options noHelp noVersion noSelfTest known found value rest taken accepted ih =>
      have step := ((read_flag rest (by simp [noHelp, noVersion]) (by simpa using noSelfTest)).2
        known found).2 value
      rw [step.1] at seeded ⊢
      have here : known = .seed → IsExact known value := by
        rintro rfl
        exact seeded value List.mem_cons_self
      have later := ih (take_value_holds holds accepted here)
        (fun other inside => seeded other (List.mem_cons_of_mem _ inside)) proceeded
      rw [List.append_assoc, List.singleton_append] at later
      exact ⟨List.forall_mem_cons.mpr ⟨exact_of_taken accepted here, later.1⟩, later.2⟩

/-- How the loop ends when it turns no value away. -/
def EndsAs (stopped : Stop) (parsed : Parsed) : Prop :=
  match stopped with
  | .complete => ∃ final, parsed = .proceeds final
  | .help => parsed = .usage
  | .version => parsed = .version
  | .unexpected | .missing => ∃ message, parsed = .refused message

theorem parse_words_ends (width : LongWidth) (words : List CString) (options : Options) :
    ((∃ setting ∈ given words, IsRefused setting) ∧
        ∃ message, parseWords width words options = .refused message) ∨
      (∀ setting ∈ given words, ¬ IsRefused setting) ∧
        EndsAs (stop words) (parseWords width words options) := by
  fun_induction parseWords width words options with
  | case1 options => exact .inr ⟨List.forall_mem_nil _, options, rfl⟩
  | case2 flag rest options help =>
      have read := @read_stopped flag rest (by simp [help])
      rw [read.1, read.2, if_pos help]
      exact .inr ⟨List.forall_mem_nil _, rfl⟩
  | case3 flag rest options noHelp version =>
      have read := @read_stopped flag rest (by simp [version])
      rw [read.1, read.2, if_neg noHelp]
      exact .inr ⟨List.forall_mem_nil _, rfl⟩
  | case4 flag rest options noHelp noVersion selfTest ih =>
      have read := read_self_test rest (by simp [noHelp, noVersion]) selfTest
      rw [read.1, read.2]
      exact ih
  | case5 flag rest options noHelp noVersion noSelfTest unknown =>
      have read := (read_flag rest (by simp [noHelp, noVersion]) (by simpa using noSelfTest)).1
        unknown
      rw [read.1, read.2]
      exact .inr ⟨List.forall_mem_nil _, _, rfl⟩
  | case6 flag options noHelp noVersion noSelfTest known found =>
      have read := ((read_flag [] (by simp [noHelp, noVersion]) (by simpa using noSelfTest)).2
        known found).1
      rw [read.1, read.2]
      exact .inr ⟨List.forall_mem_nil _, _, rfl⟩
  | case7 flag options noHelp noVersion noSelfTest known found value rest message refused =>
      have read := ((read_flag rest (by simp [noHelp, noVersion]) (by simpa using noSelfTest)).2
        known found).2 value
      rw [read.1]
      have turnedAway := (take_value_refused_iff width known value options).mp ⟨message, refused⟩
      exact .inl ⟨⟨_, List.mem_cons_self, turnedAway⟩, message, rfl⟩
  | case8 flag options noHelp noVersion noSelfTest known found value rest taken accepted ih =>
      have read := ((read_flag rest (by simp [noHelp, noVersion]) (by simpa using noSelfTest)).2
        known found).2 value
      rw [read.1, read.2]
      have kept : ¬ IsRefused (known, value) := by
        rw [← take_value_refused_iff width known value options, accepted]
        simp
      rcases ih with ⟨⟨setting, inside, refused⟩, ended⟩ | ⟨none, ended⟩
      · exact .inl ⟨⟨setting, List.mem_cons_of_mem _ inside, refused⟩, ended⟩
      · exact .inr ⟨List.forall_mem_cons.mpr ⟨kept, none⟩, ended⟩

end Loop

theorem default_holds : HoldsLast [] {} := by
  constructor <;> rfl

/-- A value that is no number in its range is turned away, or follows `--seed`. -/
theorem inexact_value {setting : Flag × CString} (wrong : ¬ IsExact setting.1 setting.2) :
    IsRefused setting ∨ setting.1 = .seed := by
  obtain ⟨flag, value⟩ := setting
  cases flag with
  | minutes => exact .inl wrong
  | layers => exact .inl wrong
  | seed => exact .inr rfl
  | cores => exact absurd (exact_unranged value rfl) wrong
  | probe => exact absurd (exact_unranged value rfl) wrong
  | log => exact absurd (exact_unranged value rfl) wrong

theorem refused_taken {width : LongWidth} {argv : List CString}
    (refused : ∃ message, parseWords width argv.tail {} = .refused message) :
    TakenExactly width argv := by
  obtain ⟨message, ended⟩ := refused
  unfold TakenExactly mainProgram parseArguments
  rw [ended]
  constructor
  · intro options proceeded
    cases proceeded
  · intro _ _
    rfl

/-- Every number is taken as it is written or turned away, unless a value of
`--seed` is no number in its range and nothing else stops the run with an error. -/
theorem taken_exactly_iff (width : LongWidth) (argv : List CString) :
    TakenExactly width argv ↔
      (∀ value, (.seed, value) ∈ settings argv → IsExact .seed value) ∨
        (∃ setting ∈ settings argv, IsRefused setting) ∨
        stop argv.tail = .unexpected ∨ stop argv.tail = .missing := by
  have ends := parse_words_ends width argv.tail {}
  constructor
  · unfold TakenExactly settings mainProgram parseArguments
    rintro ⟨proceeded, exited⟩
    rcases ends with ⟨refused, _⟩ | ⟨none, ended⟩
    · exact .inr (.inl refused)
    · cases stopped : stop argv.tail with
      | complete =>
          rw [stopped] at ended
          obtain ⟨final, same⟩ := ended
          exact .inl fun value inside => (proceeded final same).1 _ inside
      | help =>
          rw [stopped] at ended
          left
          intro value inside
          by_contra wrong
          have code := exited ⟨_, inside, wrong⟩ fun _ => ⟨0, []⟩
          rw [ended] at code
          cases code
      | version =>
          rw [stopped] at ended
          left
          intro value inside
          by_contra wrong
          have code := exited ⟨_, inside, wrong⟩ fun _ => ⟨0, []⟩
          rw [ended] at code
          cases code
      | unexpected => exact .inr (.inr (.inl rfl))
      | missing => exact .inr (.inr (.inr rfl))
  · rcases ends with ⟨_, ended⟩ | ⟨none, ended⟩
    · exact fun _ => refused_taken ended
    · rintro (seeded | ⟨setting, inside, refused⟩ | unexpected | missing)
      · constructor
        · intro options proceeded
          exact parse_words_holds default_holds seeded proceeded
        · rintro ⟨⟨flag, value⟩, inside, wrong⟩
          rcases inexact_value wrong with refused | same
          · exact absurd refused (none _ inside)
          · have follows : flag = .seed := same
            subst follows
            exact absurd (seeded value inside) wrong
      · exact absurd refused (none setting inside)
      · rw [unexpected] at ended
        exact refused_taken ended
      · rw [missing] at ended
        exact refused_taken ended

/-- `--seed forty` goes on with seed 0. -/
theorem unreadable_seed_is_taken :
    ¬ TakenExactly .bits64
      [⟨"sdcprobe".toList, by decide⟩, ⟨"--seed".toList, by decide⟩,
        ⟨"forty".toList, by decide⟩] := by
  rintro ⟨proceeded, _⟩
  have exact := (proceeded { seed := 0 } rfl).1 (.seed, ⟨"forty".toList, by decide⟩)
    (List.mem_singleton_self _)
  obtain ⟨number, numeral, _⟩ := exact 0 (2 ^ 32 - 1) rfl
  cases whole_numeral_of numeral

end SdcProbe.OptionValues
