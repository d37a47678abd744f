import SdcProbe.Processors
import SdcProbe.VerdictSoundness

/-!
# The stays of a sweep

A run in terms of the processors it was pinned to: its history is a row of stays, one
behind each pin that succeeded, and each line of the summary is about the measurements of
one stay.
-/

namespace SdcProbe.CoreStays

open ComputeRows Report Environment TimedRun CoreSweep SweepInvariant Verdict
open VerdictSoundness Processors

set_option autoImplicit false

variable {count : Nat}

/-- From the end of the stay before to the end of this one. -/
structure Stay (count : Nat) where
  /-- What led up to the pin. -/
  before : List (Action count)
  /-- The instant of the pin. -/
  start : Nat
  cpu : CpuInfo
  /-- What `sdc_verify_pin` said. -/
  problem : String
  actions : List (Action count)
  ch : Option RunResult
  rbx : Option RbxRunResult

def Stay.history (stay : Stay count) : List (Action count) :=
  stay.before ++ .pin stay.cpu true :: .verifyPin stay.cpu stay.problem :: stay.actions

/-- Nothing is measured and no pin succeeds. -/
def Idle (actions : List (Action count)) : Prop :=
  ∀ action ∈ actions, action.isMeasurement = false ∧ ∀ cpu, action ≠ .pin cpu true

/-- The ch result of a stay accounts for its rounds. -/
def ChPart (probes : ProbeSelection) (cpu : CpuInfo) (actions : List (Action count)) :
    Option RunResult → Prop
  | none => probes.ch = false ∧ roundsOf actions = []
  | some r =>
      probes.ch = true ∧ r.cpuIndex = cpu.index ∧ ChRun.Accounted (roundsOf actions) r

/-- The rbx result accounts for the passes; there is none where the ch run was
interrupted. -/
def RbxPart (probes : ProbeSelection) (cpu : CpuInfo) (actions : List (Action count))
    (ch : Option RunResult) : Option RbxRunResult → Prop
  | none => passesOf actions = [] ∧
      (probes.rbx = true → ∃ r, ch = some r ∧ r.interrupted = true)
  | some r =>
      probes.rbx = true ∧ r.cpuIndex = cpu.index ∧ RbxRun.Accounted (passesOf actions) r

def Unpinned (actions : List (Action count)) : Prop := pinsOf actions = []

structure Stay.Holds (env : Env count) (probes : ProbeSelection) (stay : Stay count) : Prop where
  idle : Idle stay.before
  verified : stay.problem = env.verifyPin (stay.start + 1) stay.cpu
  unpinned : Unpinned stay.actions
  ch : ChPart probes stay.cpu stay.actions stay.ch
  rbx : RbxPart probes stay.cpu stay.actions stay.ch stay.rbx

/-- A run as a row of stays, with what follows the last one. -/
structure Split (env : Env count) (probes : ProbeSelection) (world : World count)
    (results : List RunResult) (rbxResults : List RbxRunResult) (stays : List (Stay count))
    (tail : List (Action count)) : Prop where
  history : world.history = stays.flatMap Stay.history ++ tail
  idle : Idle tail
  pinned : ∀ stay ∈ stays, world.history[stay.start]? = some (.pin stay.cpu true)
  results : results = stays.filterMap Stay.ch
  rbxResults : rbxResults = stays.filterMap Stay.rbx
  each : ∀ stay ∈ stays, stay.Holds env probes
  warned : ∀ stay ∈ stays, stay.problem ≠ "" → .pinNotConfirmed stay.problem ∈ world.log

section Visit

variable {env : Env count} {config : Config} {fuel : Nat} {cpu : CpuInfo}
  {sweep next : Sweep count}

theorem timed_unpinned {events : List (Action count)}
    (timed : ∀ action ∈ events, action.isTimed = true) : Unpinned events := by
  rw [Unpinned, pinsOf, List.filterMap_eq_nil_iff]
  intro action member
  have early := timed action member
  cases action <;> first | rfl | cases early

theorem unpinned_append {left right : List (Action count)} (first : Unpinned left)
    (second : Unpinned right) : Unpinned (left ++ right) := by
  rw [Unpinned, pins_of_append, first, second, List.append_nil]

/-- A timed run, with the reading that sets its deadline. -/
theorem ran_grown {minutes : Nat} {before after : World count} {interrupted : Bool}
    {events : List (Action count)} {lines : List Line}
    (ran : Ran env minutes before after interrupted events lines) :
    Grown before after (.clock .start (env.clock before.time) :: events) lines ∧
      Unpinned (.clock .start (env.clock before.time) :: events) :=
  have unpinned : Unpinned events := timed_unpinned ran.timed
  ⟨⟨ran.history, ran.log⟩, unpinned⟩

theorem visit_ch_part {interrupted : Bool}
    (ran : visitCh env config fuel cpu sweep = some (next, interrupted)) :
    ∃ actions lines ch, Grown sweep.world next.world actions lines ∧ Unpinned actions ∧
      passesOf actions = [] ∧ next.results = sweep.results ++ ch.toList ∧
      next.rbxResults = sweep.rbxResults ∧ ChPart config.probes cpu actions ch ∧
      (interrupted = true → ∃ r, ch = some r ∧ r.interrupted = true) := by
  rw [visitCh] at ran
  split_ifs at ran with selected
  · obtain ⟨⟨after, work, result⟩, measured, same⟩ := Option.bind_eq_some_iff.mp ran
    cases same
    obtain ⟨events, lines, framed, core, noPass, _, accounted, _⟩ :=
      ChRun.run_on_current_cpu_spec measured
    have grown := ran_grown framed
    refine ⟨_, _, some result, grown.1.print [.chDone result], grown.2, noPass, rfl, rfl, ?_, ?_⟩
    · exact ⟨selected, core, accounted⟩
    · exact fun stopped => ⟨result, rfl, stopped⟩
  · cases ran
    refine ⟨[], [], none, grown_refl _, rfl, rfl, (List.append_nil _).symm, rfl, ?_, ?_⟩
    · exact ⟨Bool.eq_false_of_not_eq_true selected, rfl⟩
    · intro stopped
      cases stopped

theorem visit_rbx_part {stopped interrupted : Bool} {ch : Option RunResult}
    (cause : stopped = true → ∃ r, ch = some r ∧ r.interrupted = true)
    (ran : visitRbx env config fuel cpu sweep stopped = some (next, interrupted)) :
    ∃ actions lines rbx, Grown sweep.world next.world actions lines ∧ Unpinned actions ∧
      roundsOf actions = [] ∧ next.results = sweep.results ∧
      next.rbxResults = sweep.rbxResults ++ rbx.toList ∧
      RbxPart config.probes cpu actions ch rbx := by
  rw [visitRbx] at ran
  split_ifs at ran with selected
  · obtain ⟨⟨after, result⟩, measured, same⟩ := Option.bind_eq_some_iff.mp ran
    cases same
    obtain ⟨events, lines, framed, core, noRound, accounted, _⟩ :=
      RbxRun.run_rbx_on_current_cpu_spec measured
    have grown := ran_grown framed
    refine ⟨_, _, some result, grown.1.print [.rbxDone result], grown.2, noRound, rfl, rfl, ?_⟩
    exact ⟨(Bool.and_eq_true_iff.mp selected).1, core, accounted⟩
  · cases ran
    refine ⟨[], [], none, grown_refl _, rfl, rfl, rfl, (List.append_nil _).symm, rfl, ?_⟩
    intro rbx
    apply cause
    rw [rbx, Bool.true_and, Bool.not_eq_true', Bool.not_eq_false] at selected
    exact selected

theorem grown_trans {before middle after : World count} {events more : List (Action count)}
    {lines added : List Line} (first : Grown before middle events lines)
    (second : Grown middle after more added) :
    Grown before after (events ++ more) (lines ++ added) := by
  constructor
  · rw [second.history, first.history, List.append_assoc]
  · rw [second.log, first.log, List.append_assoc]

/-- A visit to a pinned core from behind its pin on. -/
theorem measure_core_parts {interrupted : Bool}
    (ran : measureCore env config fuel cpu sweep = some (next, interrupted)) :
    ∃ actions lines ch rbx,
      Grown sweep.world next.world
        (.verifyPin cpu (env.verifyPin sweep.world.time cpu) :: actions) lines ∧
      Unpinned actions ∧ next.results = sweep.results ++ ch.toList ∧
      next.rbxResults = sweep.rbxResults ++ rbx.toList ∧
      ChPart config.probes cpu actions ch ∧ RbxPart config.probes cpu actions ch rbx ∧
      (env.verifyPin sweep.world.time cpu ≠ "" →
        .pinNotConfirmed (env.verifyPin sweep.world.time cpu) ∈ lines) := by
  obtain ⟨⟨middle, stopped⟩, chRan, rest⟩ := Option.bind_eq_some_iff.mp ran
  obtain ⟨⟨last, ended⟩, rbxRan, same⟩ := Option.bind_eq_some_iff.mp rest
  cases same
  obtain ⟨chActions, chLines, ch, chGrown, chUnpinned, noPass, results, kept, chPart, cause⟩ :=
    visit_ch_part chRan
  obtain ⟨rbxActions, rbxLines, rbx, rbxGrown, rbxUnpinned, noRound, unchanged, rbxResults,
    rbxPart⟩ := visit_rbx_part cause rbxRan
  have verified : ∃ lines, Grown sweep.world (verifyPin env sweep.world cpu)
        [.verifyPin cpu (env.verifyPin sweep.world.time cpu)] lines ∧
      (env.verifyPin sweep.world.time cpu ≠ "" →
        .pinNotConfirmed (env.verifyPin sweep.world.time cpu) ∈ lines) := by
    have recorded := (grown_refl sweep.world).record
      (.verifyPin cpu (env.verifyPin sweep.world.time cpu))
    simp only [verifyPin]
    split_ifs with problem
    · exact ⟨_, recorded.print _, fun _ => List.mem_singleton_self _⟩
    · exact ⟨_, recorded, fun warned => absurd warned problem⟩
  obtain ⟨warnings, verifyGrown, warned⟩ := verified
  refine ⟨chActions ++ rbxActions, _, ch, rbx,
    (grown_trans verifyGrown (grown_trans chGrown rbxGrown)).print [.blank], ?_⟩
  refine ⟨unpinned_append chUnpinned rbxUnpinned, unchanged.trans results, ?_, ?_, ?_, ?_⟩
  · rw [← kept]
    exact rbxResults
  · have rounds : roundsOf (chActions ++ rbxActions) = roundsOf chActions := by
      rw [rounds_of_append, noRound, List.append_nil]
    cases ch with
    | none => exact ⟨chPart.1, rounds.trans chPart.2⟩
    | some r => exact ⟨chPart.1, chPart.2.1, by rw [rounds]; exact chPart.2.2⟩
  · have passes : passesOf (chActions ++ rbxActions) = passesOf rbxActions := by
      rw [passes_of_append, noPass, List.nil_append]
    cases rbx with
    | none => exact ⟨passes.trans rbxPart.1, rbxPart.2⟩
    | some r => exact ⟨rbxPart.1, rbxPart.2.1, by rw [passes]; exact rbxPart.2.2⟩
  · intro problem
    exact List.mem_append_left _ (List.mem_append_left _ (warned problem))

end Visit

section Sweeps

variable {env : Env count} {config : Config} {fuel : Nat} {cpu : CpuInfo}
  {stays : List (Stay count)} {tail : List (Action count)}

theorem idle_append {left right : List (Action count)} (first : Idle left) (second : Idle right) :
    Idle (left ++ right) :=
  List.forall_mem_append.mpr ⟨first, second⟩

/-- What is idle is added behind the last stay. -/
theorem split_idle {probes : ProbeSelection} {before after : World count}
    {results : List RunResult} {rbxResults : List RbxRunResult} {events : List (Action count)}
    {lines : List Line} (split : Split env probes before results rbxResults stays tail)
    (grown : Grown before after events lines) (idle : Idle events) :
    Split env probes after results rbxResults stays (tail ++ events) := by
  constructor
  · rw [grown.history, split.history, List.append_assoc]
  · exact idle_append split.idle idle
  · intro stay member
    have found := split.pinned stay member
    rw [grown.history, List.getElem?_append_left (List.getElem?_eq_some_iff.mp found).1, found]
  · exact split.results
  · exact split.rbxResults
  · exact split.each
  · intro stay member problem
    rw [grown.log]
    exact List.mem_append_left _ (split.warned stay member problem)

theorem filter_map_last {α β : Type*} (f : α → Option β) (list : List α) (last : α) :
    (list ++ [last]).filterMap f = list.filterMap f ++ (f last).toList := by
  rw [List.filterMap_append]
  cases found : f last <;> simp [found]

/-- One more stay. -/
theorem split_stay {probes : ProbeSelection} {before after : World count}
    {results : List RunResult} {rbxResults : List RbxRunResult} {stay : Stay count}
    {lines : List Line} (split : Split env probes before results rbxResults stays stay.before)
    (start : stay.start = before.time) (holds : stay.Holds env probes)
    (grown : Grown before after
      (.pin stay.cpu true :: .verifyPin stay.cpu stay.problem :: stay.actions) lines)
    (warned : stay.problem ≠ "" → .pinNotConfirmed stay.problem ∈ lines) :
    Split env probes after (results ++ stay.ch.toList) (rbxResults ++ stay.rbx.toList)
      (stays ++ [stay]) [] := by
  constructor
  · rw [grown.history, split.history, List.flatMap_append, List.flatMap_singleton, Stay.history,
      List.append_nil, List.append_assoc]
  · exact List.forall_mem_nil _
  · rw [forall_mem_append_singleton]
    constructor
    · intro other member
      have found := split.pinned other member
      rw [grown.history, List.getElem?_append_left (List.getElem?_eq_some_iff.mp found).1, found]
    · rw [grown.history, start, World.time, List.getElem?_append_right (Nat.le_refl _),
        Nat.sub_self]
      rfl
  · rw [filter_map_last, ← split.results]
  · rw [filter_map_last, ← split.rbxResults]
  · exact forall_mem_append_singleton.mpr ⟨split.each, holds⟩
  · rw [forall_mem_append_singleton, grown.log]
    constructor
    · intro other member problem
      exact List.mem_append_left _ (split.warned other member problem)
    · intro problem
      exact List.mem_append_right _ (warned problem)

/-- The row of stays a sweep has come to. -/
def Sofar (env : Env count) (config : Config) (sweep : Sweep count) : Prop :=
  ∃ stays tail, Split env config.probes sweep.world sweep.results sweep.rbxResults stays tail

theorem idle_poll (site : PollSite) (requested : Bool) :
    Idle [(.poll site requested : Action count)] := by
  intro action member
  rw [List.mem_singleton.mp member]
  exact ⟨rfl, by simp⟩

theorem idle_failed_pin (cpu : CpuInfo) : Idle [(.pin cpu false : Action count)] := by
  intro action member
  rw [List.mem_singleton.mp member]
  exact ⟨rfl, by simp⟩

/-- Where a visit makes its pin. -/
def polled (config : Config) (n : Nat) (cpu : CpuInfo) (world : World count) : World count :=
  (world.record (.poll (.core cpu) false)).print [.core cpu.index (n + 1) config.selected.length]

theorem polled_grown (config : Config) (n : Nat) (cpu : CpuInfo) (world : World count) :
    Grown world (polled config n cpu world) [.poll (.core cpu) false]
      [.core cpu.index (n + 1) config.selected.length] :=
  ((grown_refl world).record _).print _

theorem opened_grown (env : Env count) (config : Config) (n : Nat) (cpu : CpuInfo)
    (world : World count) :
    Grown (polled config n cpu world) (opened env config n cpu world)
      [.pin cpu (env.pin (world.time + 1) cpu)] [] :=
  (grown_refl (polled config n cpu world)).record _

/-- The stay of a visit whose pin succeeded. -/
theorem measured_visit_sofar {n : Nat} {sweep next : Sweep count} {interrupted : Bool}
    (sofar : Sofar env config sweep) (pinned : env.pin (sweep.world.time + 1) cpu = true)
    (ran : measureCore env config fuel cpu
      { sweep with world := opened env config n cpu sweep.world } = some (next, interrupted)) :
    Sofar env config next := by
  obtain ⟨stays, tail, split⟩ := sofar
  obtain ⟨actions, lines, ch, rbx, grown, unpinned, results, rbxResults, chPart, rbxPart,
    warned⟩ := measure_core_parts ran
  have waiting := split_idle split (polled_grown config n cpu sweep.world) (idle_poll _ _)
  have opening := opened_grown env config n cpu sweep.world
  rw [pinned] at opening
  let stay : Stay count :=
    { before := tail ++ [.poll (.core cpu) false]
      start := (polled config n cpu sweep.world).time
      cpu := cpu
      problem := env.verifyPin (opened env config n cpu sweep.world).time cpu
      actions := actions
      ch := ch
      rbx := rbx }
  have holds : stay.Holds env config.probes := by
    constructor
    · exact waiting.idle
    · have later : (opened env config n cpu sweep.world).time =
          (polled config n cpu sweep.world).time + 1 := World.record_time _ _
      exact congrArg (fun instant => env.verifyPin instant cpu) later
    · exact unpinned
    · exact chPart
    · exact rbxPart
  refine ⟨stays ++ [stay], [], ?_⟩
  rw [results, rbxResults]
  exact split_stay waiting rfl holds (grown_trans opening grown) warned

theorem visit_core_sofar {n : Nat} {sweep : Sweep count}
    {trip : FuelLoop.Trip (Sweep count) (Sweep count)} (sofar : Sofar env config sweep)
    (ran : visitCore env config fuel n cpu sweep = some trip) :
    trip.All (Sofar env config) (Sofar env config) := by
  rcases visit_core_cases env config fuel n cpu sweep with
    ⟨_, stops⟩ | ⟨_, refused, skips⟩ | ⟨_, pinned, measures⟩
  · rw [stops] at ran
    cases ran
    obtain ⟨stays, tail, split⟩ := sofar
    have grown := ((grown_refl sweep.world).record (.poll (.core cpu) true)).print
      [.interruptedBefore cpu.index (config.selected.length - n)]
    exact ⟨stays, _, split_idle split grown (idle_poll _ _)⟩
  · rw [skips] at ran
    cases ran
    obtain ⟨stays, tail, split⟩ := sofar
    have opening := opened_grown env config n cpu sweep.world
    rw [refused] at opening
    have grown := grown_trans (polled_grown config n cpu sweep.world)
      (opening.print [.skipped cpu.index])
    have failed : Idle [(.pin cpu false : Action count)] := idle_failed_pin cpu
    exact ⟨stays, _, split_idle split grown (idle_append (idle_poll (.core cpu) false) failed)⟩
  · rw [measures] at ran
    obtain ⟨⟨next, interrupted⟩, measured, rfl⟩ := Option.map_eq_some_iff.mp ran
    have stayed := measured_visit_sofar sofar pinned measured
    unfold endVisit
    dsimp only
    split_ifs with stops more
    · obtain ⟨stays, tail, split⟩ := stayed
      have grown := (grown_refl next.world).print
        [.interruptedAfter (config.selected.length - (n + 1))]
      exact ⟨stays, _, split_idle split grown (List.forall_mem_nil _)⟩
    · exact stayed
    · exact stayed

theorem sweep_cores_sofar {n : Nat} {rest : List CpuInfo} {sweep final : Sweep count}
    (sofar : Sofar env config sweep)
    (ran : sweepCores env config fuel n rest sweep = some final) : Sofar env config final := by
  induction rest generalizing n sweep with
  | nil =>
      cases ran
      exact sofar
  | cons cpu rest ih =>
      obtain ⟨trip, visit, more⟩ := Option.bind_eq_some_iff.mp ran
      have kept := visit_core_sofar sofar visit
      cases trip with
      | again next => exact ih kept more
      | leave last =>
          cases more
          exact kept

theorem prelude_sofar (env : Env count) (config : Config) :
    Sofar env config (prelude env config) := by
  obtain ⟨results, rbxResults, _⟩ := prelude_fields env config
  refine ⟨[], (prelude env config).world.history, ?_⟩
  constructor
  · rfl
  · intro action member
    have early := prelude_history env config action member
    cases action <;> first | exact Bool.noConfusion early | exact ⟨rfl, by simp⟩
  · exact List.forall_mem_nil _
  · exact results
  · exact rbxResults
  · exact List.forall_mem_nil _
  · exact List.forall_mem_nil _

end Sweeps

/-- `sdc_verify_pin` tells where the thread is at each instant. -/
def Tells (env : Env count) (whereabouts : Nat → Whereabouts) : Prop :=
  ∀ instant cpu,
    env.verifyPin instant cpu = String.ofList (sdcVerifyPin (whereabouts instant) cpu)

theorem unwarned_confirmed {env : Env count} {whereabouts : Nat → Whereabouts}
    (tells : Tells env whereabouts) {instant : Nat} {cpu : CpuInfo}
    (quiet : env.verifyPin instant cpu = "") : OnlyOn (whereabouts instant) cpu := by
  rw [tells instant cpu, String.ofList_eq_empty_iff] at quiet
  exact (verify_pin_iff _ cpu).mp quiet

/-- Each result of a run stands for one stay and counts what was measured behind the pin
of the core it names. Where the report warns of no pin, the thread was on each of these
cores and no other once it was pinned. -/
theorem results_are_about_their_cores {env : Env sampleCount} {config : Config} {fuel : Nat}
    {out : Outcome sampleCount} (ran : main env config fuel = some out) :
    ∃ stays tail,
      Split env config.probes out.world out.sweep.results out.sweep.rbxResults stays tail ∧
        ∀ whereabouts, Tells env whereabouts →
          (∀ problem, .pinNotConfirmed problem ∉ out.world.log) →
            ∀ stay ∈ stays, OnlyOn (whereabouts (stay.start + 1)) stay.cpu := by
  obtain ⟨_, history, log, _⟩ := main_spec ran
  obtain ⟨sweep, swept, same⟩ := Option.map_eq_some_iff.mp ran
  have sofar := sweep_cores_sofar (prelude_sofar env config) swept
  have final : sweep = out.sweep := congrArg Outcome.sweep same
  rw [final] at sofar
  obtain ⟨stays, tail, split⟩ := sofar
  have grown : Grown out.sweep.world out.world [] (summary config out.sweep ++
      (verdict config out.sweep).1) := by
    constructor
    · rw [history, List.append_nil]
    · rw [log, List.append_assoc]
  have whole := split_idle split grown (List.forall_mem_nil _)
  refine ⟨stays, _, whole, ?_⟩
  intro whereabouts tells unwarned stay member
  have verified := (whole.each stay member).verified
  apply unwarned_confirmed tells
  rw [← verified]
  by_contra problem
  exact unwarned _ (whole.warned stay member problem)

section Sample

/-- The steady machine, with the thread on the first processor of Windows. -/
def onFirstCore : Env sampleCount :=
  { steadyMachine 10000000000 none with
    verifyPin := fun _ cpu => String.ofList (sdcVerifyPin (.windows 0 0) cpu) }

def isWarning : Line → Bool
  | .pinNotConfirmed _ => true
  | _ => false

/-- A minute on that core, with two passes. -/
theorem results_are_about_their_cores_sample :
    ∃ out, main onFirstCore rbxOnOneCore 3 = some out ∧
      (passesOf out.world.history).length = 2 ∧ ∃ stays tail,
        Split onFirstCore rbxOnOneCore.probes out.world out.sweep.results out.sweep.rbxResults
          stays tail ∧
        ∃ stay ∈ stays, OnlyOn (.windows 0 0) stay.cpu := by
  have returned : (main onFirstCore rbxOnOneCore 3).map (fun out =>
      ((passesOf out.world.history).length, out.world.log.any isWarning,
        out.sweep.rbxResults.length)) = some (2, false, 1) := by decide +kernel
  obtain ⟨out, ran, same⟩ := Option.map_eq_some_iff.mp returned
  obtain ⟨passes, quiet, results⟩ := Prod.mk.inj same |>.imp id Prod.mk.inj
  obtain ⟨stays, tail, split, confirmed⟩ := results_are_about_their_cores ran
  have unwarned : ∀ problem, .pinNotConfirmed problem ∉ out.world.log := by
    intro problem member
    have warns : isWarning (.pinNotConfirmed problem) = true := rfl
    have warned := List.any_eq_true.mpr ⟨_, member, warns⟩
    rw [quiet] at warned
    cases warned
  refine ⟨out, ran, passes, stays, tail, split, ?_⟩
  cases stays with
  | nil =>
      rw [split.rbxResults] at results
      cases results
  | cons stay rest =>
      have tells : Tells onFirstCore fun _ => .windows 0 0 := fun _ _ => rfl
      exact ⟨stay, List.mem_cons_self, confirmed _ tells unwarned stay List.mem_cons_self⟩

end Sample

end SdcProbe.CoreStays
