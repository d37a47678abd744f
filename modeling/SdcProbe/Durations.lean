import SdcProbe.VerdictSoundness

/-!
# How long a sweep takes

A timed run measures for the minutes it is given and then stops: each measurement comes
behind a test of the loop that has read a time before the deadline, and what is counted as
elapsed is the minutes asked for and the rest of one trip. A sweep ends when the clock goes
on, whether anybody interrupts it or not.
-/

namespace SdcProbe.Durations

open Report Environment TimedRun CoreSweep SweepInvariant SweepTotals Verdict
open VerdictSoundness

set_option autoImplicit false

variable {count : Nat}

section Rule

/-- What a sweep does outside the timed runs, but for the pin before calibration. -/
def isOther : Action count → Bool
  | .clock .calibration _ | .poll (.core _) _ | .pin .. | .verifyPin .. | .calibrationRows => true
  | _ => false

/-- What a property of the history and the results has to survive to hold of a whole
sweep: the pin before calibration, which comes before all else, an action outside the timed
runs, and a timed run of either probe. -/
structure Survives (env : Env count) (config : Config)
    (inv : List (Action count) → List RunResult → List RbxRunResult → Prop) : Prop where
  first : ∀ pinned : Bool, inv [] [] [] →
    inv [.pinFirst (config.selected.head config.some_core) pinned] [] []
  other : ∀ {history results rbxResults} (action : Action count), isOther action = true →
    inv history results rbxResults → inv (history ++ [action]) results rbxResults
  ch : ∀ {cpuIndex fuel before work after work' results rbxResults result},
    inv before.history results rbxResults →
    ChRun.runOnCurrentCpu env cpuIndex config.minutes fuel before work =
      some (after, work', result) →
    inv after.history (results ++ [result]) rbxResults
  rbx : ∀ {cpuIndex fuel before after results rbxResults result},
    inv before.history results rbxResults →
    RbxRun.runRbxOnCurrentCpu env cpuIndex config.minutes fuel before = some (after, result) →
    inv after.history results (rbxResults ++ [result])

/-- The property of a sweep. -/
def HoldsOf (inv : List (Action count) → List RunResult → List RbxRunResult → Prop)
    (sweep : Sweep count) : Prop :=
  inv sweep.world.history sweep.results sweep.rbxResults

variable {env : Env count} {config : Config}
  {inv : List (Action count) → List RunResult → List RbxRunResult → Prop}

theorem calibrate_layers_survives (survives : Survives env config inv) {sweep : Sweep count}
    (holds : HoldsOf inv sweep) : HoldsOf inv (calibrateLayers env sweep) := by
  have rows : ∀ {sweep : Sweep count}, HoldsOf inv sweep →
      HoldsOf inv (calibrationRows env sweep) :=
    fun holds => survives.other .calibrationRows rfl holds
  have reading : ∀ {sweep : Sweep count}, HoldsOf inv sweep →
      HoldsOf inv (calibrationReading env sweep) :=
    fun holds => survives.other (.clock .calibration _) rfl holds
  have probe : ∀ {sweep : Sweep count}, HoldsOf inv sweep →
      HoldsOf inv (probeNsPerSample env sweep) :=
    fun holds => reading (rows (reading (rows holds)))
  exact probe (probe (probe holds))

theorem prelude_survives (survives : Survives env config inv) (start : inv [] [] []) :
    HoldsOf inv (prelude env config) := by
  have pinned : ∀ pinned, inv [.pinFirst (config.selected.head config.some_core) pinned] [] [] :=
    fun pinned => survives.first pinned start
  rw [prelude]
  split_ifs
  · exact pinned _
  · exact calibrate_layers_survives survives (pinned _)
  · exact start

variable {fuel n : Nat} {cpu : CpuInfo} {rest : List CpuInfo} {sweep next final : Sweep count}

theorem visit_ch_survives (survives : Survives env config inv) {interrupted : Bool}
    (holds : HoldsOf inv sweep)
    (ran : visitCh env config fuel cpu sweep = some (next, interrupted)) : HoldsOf inv next := by
  rw [visitCh] at ran
  split_ifs at ran
  · obtain ⟨⟨after, work, result⟩, timed, same⟩ := Option.bind_eq_some_iff.mp ran
    cases same
    have kept := survives.ch holds timed
    exact kept
  · cases ran
    exact holds

theorem visit_rbx_survives (survives : Survives env config inv)
    {chInterrupted interrupted : Bool} (holds : HoldsOf inv sweep)
    (ran : visitRbx env config fuel cpu sweep chInterrupted = some (next, interrupted)) :
    HoldsOf inv next := by
  rw [visitRbx] at ran
  split_ifs at ran
  · obtain ⟨⟨after, result⟩, timed, same⟩ := Option.bind_eq_some_iff.mp ran
    cases same
    have kept := survives.rbx holds timed
    exact kept
  · cases ran
    exact holds

theorem measure_core_survives (survives : Survives env config inv) {interrupted : Bool}
    (holds : HoldsOf inv sweep)
    (ran : measureCore env config fuel cpu sweep = some (next, interrupted)) :
    HoldsOf inv next := by
  have verified : HoldsOf inv { sweep with
      world := verifyPin env sweep.world cpu
      measuredCores := sweep.measuredCores + 1 } := by
    have recorded := survives.other (.verifyPin cpu (env.verifyPin sweep.world.time cpu)) rfl holds
    have history : (verifyPin env sweep.world cpu).history =
        sweep.world.history ++ [.verifyPin cpu (env.verifyPin sweep.world.time cpu)] := by
      simp only [verifyPin]
      split_ifs <;> rfl
    rw [HoldsOf, history]
    exact recorded
  obtain ⟨middle, chRan, more⟩ := Option.bind_eq_some_iff.mp ran
  obtain ⟨last, rbxRan, same⟩ := Option.bind_eq_some_iff.mp more
  cases same
  have kept := visit_rbx_survives survives (visit_ch_survives survives verified chRan) rbxRan
  exact kept

theorem visit_core_survives (survives : Survives env config inv)
    (holds : HoldsOf inv sweep) {trip : FuelLoop.Trip (Sweep count) (Sweep count)}
    (ran : visitCore env config fuel n cpu sweep = some trip) :
    trip.All (HoldsOf inv) (HoldsOf inv) := by
  have polled : ∀ requested, inv (sweep.world.history ++ [.poll (.core cpu) requested])
      sweep.results sweep.rbxResults := fun requested =>
    survives.other (.poll (.core cpu) requested) rfl holds
  have opening : HoldsOf inv { sweep with world := opened env config n cpu sweep.world } :=
    survives.other (.pin cpu (env.pin (sweep.world.time + 1) cpu)) rfl (polled false)
  rcases visit_core_cases env config fuel n cpu sweep with
    ⟨_, stops⟩ | ⟨_, _, skips⟩ | ⟨_, _, measures⟩
  · rw [stops] at ran
    cases ran
    exact polled true
  · rw [skips] at ran
    cases ran
    exact opening
  · rw [measures] at ran
    obtain ⟨⟨measured, interrupted⟩, visited, rfl⟩ := Option.map_eq_some_iff.mp ran
    have kept := measure_core_survives survives opening visited
    simp only [endVisit]
    split_ifs <;> exact kept

theorem sweep_cores_survives (survives : Survives env config inv)
    (holds : HoldsOf inv sweep)
    (ran : sweepCores env config fuel n rest sweep = some final) : HoldsOf inv final := by
  induction rest generalizing n sweep with
  | nil =>
      cases ran
      exact holds
  | cons cpu rest ih =>
      obtain ⟨trip, visit, more⟩ := Option.bind_eq_some_iff.mp ran
      have kept := visit_core_survives survives holds visit
      cases trip with
      | again next => exact ih kept more
      | leave last =>
          cases more
          exact kept

/-- The rule for a whole run of `main`. -/
theorem main_survives (survives : Survives env config inv) (start : inv [] [] [])
    {out : Outcome count} (ran : main env config fuel = some out) :
    inv out.world.history out.sweep.results out.sweep.rbxResults := by
  obtain ⟨sweep, swept, rfl⟩ := Option.map_eq_some_iff.mp ran
  exact sweep_cores_survives survives (prelude_survives survives start) swept

end Rule

/-! ### Deadlines -/

/-- The action at an instant comes behind the reading that has set a deadline, within one
timed run, and two actions behind a test that still found the clock before the deadline. -/
def Begun (env : Env count) (minutes : Nat) (history : List (Action count)) (i : Nat) : Prop :=
  ∃ j value, history[j]? = some (.clock .start value) ∧ j + 2 < i ∧
    (∀ k action, j < k → k < i → history[k]? = some action → action.isTimed = true) ∧
    history[i - 2]? = some (.clock .test (env.clock (i - 2))) ∧
    env.clock (i - 2) < value + minutesToNanos minutes

def BegunInTime (env : Env count) (minutes : Nat) (history : List (Action count)) : Prop :=
  ∀ i action, history[i]? = some action → action.isMeasurement = true →
    Begun env minutes history i

section Appending

variable {env : Env count} {minutes : Nat} {history events : List (Action count)}

theorem begun_append {i : Nat} (inside : i < history.length)
    (begun : Begun env minutes history i) : Begun env minutes (history ++ events) i := by
  obtain ⟨j, value, started, before, timed, test, inTime⟩ := begun
  refine ⟨j, value, ?_, before, ?_, ?_, inTime⟩
  · rw [List.getElem?_append_left (by omega)]
    exact started
  · intro k action behind ahead found
    rw [List.getElem?_append_left (by omega)] at found
    exact timed k action behind ahead found
  · rw [List.getElem?_append_left (by omega)]
    exact test

theorem begun_in_time_append (begun : BegunInTime env minutes history)
    (later : ∀ i action, history.length ≤ i → (history ++ events)[i]? = some action →
      action.isMeasurement = true → Begun env minutes (history ++ events) i) :
    BegunInTime env minutes (history ++ events) := by
  intro i action found measures
  by_cases inside : i < history.length
  · have there := found
    rw [List.getElem?_append_left inside] at there
    exact begun_append inside (begun i action there measures)
  · exact later i action (Nat.le_of_not_lt inside) found measures

theorem begun_in_time_record {action : Action count} (begun : BegunInTime env minutes history)
    (quiet : action.isMeasurement = false) : BegunInTime env minutes (history ++ [action]) := by
  apply begun_in_time_append begun
  intro i other behind found measures
  rw [List.getElem?_append_right behind] at found
  rw [List.mem_singleton.mp (List.mem_of_getElem? found), quiet] at measures
  cases measures

end Appending

section Loop

variable {Body : Type} {env : Env count} {probe : TimedProbe count Body} {start deadline : Nat}

/-- The history of a timed loop from its first instant on. -/
structure Looping (env : Env count) (deadline first : Nat) (history : List (Action count)) :
    Prop where
  begins : first ≤ history.length
  timed : ∀ i action, first ≤ i → history[i]? = some action → action.isTimed = true
  tested : ∀ i action, first ≤ i → history[i]? = some action → action.isMeasurement = true →
    first + 2 ≤ i ∧ history[i - 2]? = some (.clock .test (env.clock (i - 2))) ∧
      env.clock (i - 2) < deadline

variable {first : Nat} {history : List (Action count)}

theorem looping_record (looping : Looping env deadline first history) {action : Action count}
    (timed : action.isTimed = true)
    (tested : action.isMeasurement = true → first + 2 ≤ history.length ∧
      history[history.length - 2]? = some (.clock .test (env.clock (history.length - 2))) ∧
      env.clock (history.length - 2) < deadline) :
    Looping env deadline first (history ++ [action]) := by
  have last : ∀ {i other}, (history ++ [action])[i]? = some other →
      (i < history.length ∧ history[i]? = some other) ∨ (i = history.length ∧ other = action) := by
    intro i other found
    rcases List.getElem?_eq_some_iff.mp found with ⟨bound, _⟩
    rw [List.length_append, List.length_singleton] at bound
    by_cases inside : i < history.length
    · rw [List.getElem?_append_left inside] at found
      exact .inl ⟨inside, found⟩
    · obtain rfl : i = history.length := by omega
      rw [List.getElem?_concat_length, Option.some.injEq] at found
      exact .inr ⟨rfl, found.symm⟩
  have kept : ∀ {i}, first + 2 ≤ i ∧ history[i - 2]? = some (.clock .test (env.clock (i - 2))) ∧
      env.clock (i - 2) < deadline → i ≤ history.length → first + 2 ≤ i ∧
      (history ++ [action])[i - 2]? = some (.clock .test (env.clock (i - 2))) ∧
      env.clock (i - 2) < deadline := by
    intro i holds inside
    obtain ⟨room, test, inTime⟩ := holds
    refine ⟨room, ?_, inTime⟩
    rw [List.getElem?_append_left (by omega)]
    exact test
  constructor
  · rw [List.length_append]
    exact Nat.le_add_right_of_le looping.begins
  · intro i other behind found
    rcases last found with ⟨_, there⟩ | ⟨_, rfl⟩
    · exact looping.timed i other behind there
    · exact timed
  · intro i other behind found measures
    rcases last found with ⟨inside, there⟩ | ⟨rfl, rfl⟩
    · exact kept (looping.tested i other behind there measures) (Nat.le_of_lt inside)
    · exact kept (tested measures) (Nat.le_refl _)

theorem looping_quiet (looping : Looping env deadline first history) {action : Action count}
    (timed : action.isTimed = true) (quiet : action.isMeasurement = false) :
    Looping env deadline first (history ++ [action]) := by
  apply looping_record looping timed
  intro measures
  rw [quiet] at measures
  cases measures

/-- The four actions of a trip. -/
theorem looping_trip (looping : Looping env deadline first history)
    (inTime : env.clock history.length < deadline) (site : Probe) {action : Action count}
    (measures : action.isMeasurement = true) (reading : Nat) :
    Looping env deadline first (history ++ [.clock .test (env.clock history.length),
      .poll (.timed site) false, action, .clock .after reading]) := by
  have tested := @looping_quiet _ _ _ _ _ looping (.clock .test (env.clock history.length)) rfl rfl
  have polled := @looping_quiet _ _ _ _ _ tested (.poll (.timed site) false) rfl rfl
  have measured := @looping_record _ _ _ _ _ polled action (Action.measurement_is_timed measures)
    (by
      intro _
      have begins := looping.begins
      rw [List.append_assoc, List.length_append, List.cons_append, List.length_cons,
        List.nil_append, List.length_singleton, Nat.add_sub_cancel]
      refine ⟨by omega, ?_, inTime⟩
      rw [List.getElem?_append_right (Nat.le_refl _), Nat.sub_self]
      rfl)
  have read := @looping_quiet _ _ _ _ _ measured (.clock .after reading) rfl rfl
  simpa using read

theorem loop_looping {fuel : Nat} {state : TimedState count Body} {exit : TimedExit count Body}
    (looping : Looping env deadline first state.world.history)
    (ran : FuelLoop.run (timedTrip env probe start deadline) fuel state = some exit) :
    Looping env deadline first exit.world.history := by
  apply FuelLoop.run_invariant (timedTrip env probe start deadline)
    (fun state => Looping env deadline first state.world.history)
    (fun exit => Looping env deadline first exit.world.history) _ _ fuel state exit looping ran
  · intro state next here taken
    obtain ⟨inTime, _, action, reading, measures, history⟩ := trip_again_history taken
    rw [history]
    exact looping_trip here inTime probe.probe measures reading
  · intro state exit here taken
    have tested := @looping_quiet _ _ _ _ _ here (.clock .test (env.clock state.world.time))
      rfl rfl
    rcases leave_cases taken with ⟨_, rfl⟩ | rfl
    · exact tested
    · exact looping_quiet tested rfl rfl

end Loop

section Run

variable {Body : Type} {env : Env count} {probe : TimedProbe count Body} {minutes fuel : Nat}
  {world : World count} {body : Body} {out : TimedOutcome count Body}

theorem timed_run_begun (begun : BegunInTime env minutes world.history)
    (ran : timedRun env probe minutes fuel world body = some out) :
    BegunInTime env minutes out.world.history := by
  obtain ⟨exit, looped, rfl⟩ := Option.map_eq_some_iff.mp ran
  let deadline := env.clock world.time + minutesToNanos minutes
  have opening : Looping env deadline (world.time + 1) (started env world).history := by
    have length : (started env world).history.length = world.time + 1 := World.record_time _ _
    constructor
    · exact Nat.le_of_eq length.symm
    · intro i action behind found
      have inside := (List.getElem?_eq_some_iff.mp found).1
      omega
    · intro i action behind found
      have inside := (List.getElem?_eq_some_iff.mp found).1
      omega
  have looping := loop_looping opening looped
  obtain ⟨events, lines, grown⟩ := loop_grows looped
  have history : exit.world.history =
      world.history ++ .clock .start (env.clock world.time) :: events := by
    rw [grown.history, World.record_history, List.append_assoc, List.singleton_append]
  have loop : BegunInTime env minutes exit.world.history := by
    rw [history]
    apply begun_in_time_append begun
    intro i action behind found measures
    rw [← history] at found ⊢
    have opened : exit.world.history[world.time]? =
        some (.clock .start (env.clock world.time)) := by
      rw [history, World.time, List.getElem?_append_right (Nat.le_refl _), Nat.sub_self]
      rfl
    have later : world.time + 1 ≤ i := by
      rcases Nat.eq_or_lt_of_le behind with rfl | after
      · have same := opened.symm.trans found
        cases same
        cases measures
      · exact after
    obtain ⟨room, test, inTime⟩ := looping.tested i action later found measures
    refine ⟨world.time, env.clock world.time, opened, by omega, ?_, test, inTime⟩
    intro k other above _ there
    exact looping.timed k other above there
  exact begun_in_time_record loop rfl

/-- What is counted as elapsed: at least the minutes asked for, unless the run was
interrupted, and at most five actions more. -/
structure Lasts (env : Env count) (minutes : Nat) (interrupted : Bool) (elapsedMs : Nat) :
    Prop where
  whole : interrupted = false → minutes * 60000 ≤ elapsedMs
  little : ∀ longest, (∀ i, env.clock (i + 1) ≤ env.clock i + longest) →
    elapsedMs * 1000000 ≤ minutesToNanos minutes + 5 * longest

theorem clock_little {longest : Nat} (little : ∀ i, env.clock (i + 1) ≤ env.clock i + longest)
    (i steps : Nat) : env.clock (i + steps) ≤ env.clock i + steps * longest := by
  induction steps with
  | zero => exact Nat.le_add_right _ _
  | succ steps ih =>
      have step := little (i + steps)
      rw [Nat.succ_mul, ← Nat.add_assoc]
      exact step.trans (by omega)

/-- The instants at which the loop is left. -/
theorem loop_finish {start deadline : Nat} {state : TimedState count Body}
    {exit : TimedExit count Body}
    (ran : FuelLoop.run (timedTrip env probe start deadline) fuel state = some exit) :
    (exit.interrupted = false → deadline ≤ env.clock exit.world.time) ∧
      ∀ longest, (∀ i, env.clock (i + 1) ≤ env.clock i + longest) →
        env.clock state.world.time ≤ deadline + 4 * longest →
        env.clock exit.world.time ≤ deadline + 5 * longest := by
  constructor
  · apply FuelLoop.run_invariant (timedTrip env probe start deadline) (fun _ => True)
      (fun exit => exit.interrupted = false → deadline ≤ env.clock exit.world.time)
      (fun _ _ _ _ => trivial) _ fuel state exit trivial ran
    intro state exit _ taken whole
    rcases leave_cases taken with ⟨past, rfl⟩ | rfl
    · rw [World.record_time]
      exact past.trans (env.steady _ _ (Nat.le_succ _))
    · cases whole
  · intro longest little early
    apply FuelLoop.run_invariant (timedTrip env probe start deadline)
      (fun state => env.clock state.world.time ≤ deadline + 4 * longest)
      (fun exit => env.clock exit.world.time ≤ deadline + 5 * longest) _ _ fuel state exit early ran
    · intro state next _ taken
      obtain ⟨inTime, _, action, reading, _, history⟩ := trip_again_history taken
      have later : next.world.time = state.world.time + 4 := by
        simp [World.time, history]
      have step := clock_little little state.world.time 4
      rw [later]
      omega
    · intro state exit near taken
      have step := clock_little little state.world.time 1
      have twice := clock_little little state.world.time 2
      rcases timed_trip_cases env probe start deadline state with
        ⟨_, left⟩ | ⟨inTime, _, left⟩ | ⟨_, _, _, _, again, _⟩
      · rw [left] at taken
        cases taken
        rw [World.record_time]
        omega
      · rw [left] at taken
        cases taken
        rw [World.record_time, World.record_time]
        change env.clock (state.world.time + 2) ≤ _
        omega
      · rw [again] at taken
        cases taken

theorem timed_run_lasts (ran : timedRun env probe minutes fuel world body = some out) :
    Lasts env minutes out.interrupted out.elapsedMs := by
  obtain ⟨exit, looped, rfl⟩ := Option.map_eq_some_iff.mp ran
  obtain ⟨whole, near⟩ := loop_finish looped
  have nanos : minutesToNanos minutes = minutes * 60000 * 1000000 := by
    unfold minutesToNanos nanosPerSecond
    omega
  constructor
  · intro uninterrupted
    have past := whole uninterrupted
    dsimp only [World.now]
    rw [Nat.le_div_iff_mul_le (by decide), ← nanos]
    omega
  · intro longest little
    have first := clock_little little world.time 1
    have ended := near longest little (by
      rw [World.record_time]
      omega)
    dsimp only [World.now]
    have floor := Nat.div_mul_le_self (env.clock exit.world.time - env.clock world.time) 1000000
    omega

end Run

/-- What holds of the history and the results of a sweep. -/
structure KeepsTime (env : Env count) (minutes : Nat) (history : List (Action count))
    (results : List RunResult) (rbxResults : List RbxRunResult) : Prop where
  begun : BegunInTime env minutes history
  ch : ∀ r ∈ results, Lasts env minutes r.interrupted r.elapsedMs
  rbx : ∀ r ∈ rbxResults, Lasts env minutes r.interrupted r.elapsedMs

theorem keeps_time_survives (env : Env count) (config : Config) :
    Survives env config (KeepsTime env config.minutes) where
  first _ keeps := ⟨begun_in_time_record keeps.begun rfl, keeps.ch, keeps.rbx⟩
  other action other keeps := by
    have quiet : action.isMeasurement = false := by
      cases action <;> first | rfl | cases other
    exact ⟨begun_in_time_record keeps.begun quiet, keeps.ch, keeps.rbx⟩
  ch keeps ran := by
    obtain ⟨out, timed, same⟩ := Option.map_eq_some_iff.mp ran
    cases same
    constructor
    · exact timed_run_begun keeps.begun timed
    · exact forall_mem_append_singleton.mpr ⟨keeps.ch, timed_run_lasts timed⟩
    · exact keeps.rbx
  rbx keeps ran := by
    obtain ⟨out, timed, same⟩ := Option.map_eq_some_iff.mp ran
    cases same
    constructor
    · exact timed_run_begun keeps.begun timed
    · exact keeps.ch
    · exact forall_mem_append_singleton.mpr ⟨keeps.rbx, timed_run_lasts timed⟩

/-- A sweep that was not interrupted has spent the minutes on every core and probe. -/
theorem total_elapsed {Result : Type*} {results : List Result} {elapsed : Result → Nat}
    {least : Nat} (each : ∀ r ∈ results, least ≤ elapsed r) :
    results.length * least ≤ (results.map elapsed).sum := by
  induction results with
  | nil => simp
  | cons r rest ih =>
      have here := each r List.mem_cons_self
      have more := ih fun other member => each other (List.mem_cons_of_mem _ member)
      rw [List.length_cons, Nat.succ_mul, List.map_cons, List.sum_cons]
      omega

theorem ch_totals_elapsed (start : ChTotals) (results : List RunResult) :
    (results.foldl addRun start).elapsedMs =
      start.elapsedMs + (results.map RunResult.elapsedMs).sum := by
  induction results generalizing start with
  | nil => rfl
  | cons r rest ih =>
      rw [List.foldl_cons, ih, List.map_cons, List.sum_cons, ← Nat.add_assoc]
      rfl

theorem rbx_totals_elapsed (start : RbxTotals) (results : List RbxRunResult) :
    (results.foldl addRbxRun start).elapsedMs =
      start.elapsedMs + (results.map RbxRunResult.elapsedMs).sum := by
  induction results generalizing start with
  | nil => rfl
  | cons r rest ih =>
      rw [List.foldl_cons, ih, List.map_cons, List.sum_cons, ← Nat.add_assoc]
      rfl

section Totals

variable {env : Env count} {config : Config} {sweep : Sweep count}

/-- One result for each measured core. -/
theorem whole_cores (finished : Finished env config sweep) (whole : sweep.interrupted = false) :
    (config.probes.ch = true → sweep.results.length = sweep.measuredCores) ∧
      (config.probes.rbx = true → sweep.rbxResults.length = sweep.measuredCores) := by
  have visiting := finished.complete whole
  have cores : ∀ selected, selected = true →
      (coresOf selected sweep.world.history).length = sweep.measuredCores := by
    intro selected given
    rw [coresOf, if_pos given, List.length_map, finished.measured]
  constructor
  · intro selected
    rw [← cores _ selected, ← visiting.chCores, List.length_map]
  · intro selected
    rw [← cores _ selected, ← visiting.rbxCores, List.length_map]

end Totals

/-- Each measurement comes behind a test of the loop that has read a time before the deadline
of its run. A run that was not interrupted has lasted the minutes asked for, and no run lasts
five actions more than that. What the summary calls elapsed comes to the minutes of all
measured cores, unless the sweep was interrupted. -/
theorem sweep_keeps_its_minutes {env : Env count} {config : Config} {fuel : Nat}
    {out : Outcome count} (ran : main env config fuel = some out) :
    KeepsTime env config.minutes out.world.history out.sweep.results out.sweep.rbxResults ∧
      (out.sweep.interrupted = false →
        (config.probes.ch = true → out.sweep.measuredCores * (config.minutes * 60000) ≤
          (chTotals out.sweep.results).elapsedMs) ∧
        (config.probes.rbx = true → out.sweep.measuredCores * (config.minutes * 60000) ≤
          (rbxTotals out.sweep.rbxResults).elapsedMs)) := by
  have start : KeepsTime env config.minutes [] [] [] := by
    constructor
    · intro i action found
      cases found
    · exact List.forall_mem_nil _
    · exact List.forall_mem_nil _
  have keeps := main_survives (keeps_time_survives env config) start ran
  obtain ⟨finished, _, _, _⟩ := main_spec ran
  refine ⟨keeps, ?_⟩
  intro whole
  obtain ⟨chWhole, rbxWhole⟩ := finished.progress.whole whole
  obtain ⟨chCores, rbxCores⟩ := whole_cores finished whole
  constructor
  · intro selected
    rw [chTotals, ch_totals_elapsed, Nat.zero_add, ← chCores selected]
    exact total_elapsed fun r member => (keeps.ch r member).whole (chWhole r member)
  · intro selected
    rw [rbxTotals, rbx_totals_elapsed, Nat.zero_add, ← rbxCores selected]
    exact total_elapsed fun r member => (keeps.rbx r member).whole (rbxWhole r member)

theorem sweep_keeps_its_minutes_sample :
    ∃ out, main (steadyMachine 10000000000 none) rbxOnOneCore 3 = some out ∧
      out.sweep.measuredCores * (rbxOnOneCore.minutes * 60000) ≤
        (rbxTotals out.sweep.rbxResults).elapsedMs := by
  have returned : (main (steadyMachine 10000000000 none) rbxOnOneCore 3).map (fun out =>
      out.sweep.interrupted) = some false := by decide +kernel
  obtain ⟨out, ran, whole⟩ := Option.map_eq_some_iff.mp returned
  exact ⟨out, ran, ((sweep_keeps_its_minutes ran).2 whole).2 rfl⟩

/-! ### Endings -/

/-- The interrupt arrives at some time, or the clock goes on and on. -/
def GoesOn (env : Env count) : Prop :=
  (∃ arrival, env.arrival = some arrival) ∨ ∀ value, ∃ instant, value ≤ env.clock instant

section Endings

variable {env : Env count}

theorem timed_run_settles {Body : Type} (goesOn : GoesOn env) (probe : TimedProbe count Body)
    (minutes : Nat) (world : World count) (body : Body) :
    FuelLoop.Settles fun fuel => timedRun env probe minutes fuel world body := by
  have loop : ∀ start deadline (state : TimedState count Body),
      FuelLoop.Settles fun fuel =>
        FuelLoop.run (timedTrip env probe start deadline) fuel state := by
    intro start deadline state
    -- a trip moves four instants on, towards the arrival or the deadline
    obtain ⟨last, before⟩ : ∃ last, ∀ instant, env.clock instant < deadline →
        env.signalled (instant + 1) = false → instant < last := by
      rcases goesOn with ⟨arrival, arrives⟩ | advances
      · refine ⟨arrival, ?_⟩
        intro instant _ clear
        rw [Env.signalled, arrives, decide_eq_false_iff_not] at clear
        omega
      · obtain ⟨last, reached⟩ := advances deadline
        refine ⟨last, ?_⟩
        intro instant early _
        by_contra late
        have order := env.steady last instant (Nat.le_of_not_lt late)
        omega
    apply FuelLoop.settles_run _ (fun _ => True) (fun state => last - state.world.time) _ state
      trivial
    intro state next _ taken
    obtain ⟨inTime, clear, action, reading, _, history⟩ := trip_again_history taken
    have later : next.world.time = state.world.time + 4 := by
      simp [World.time, history]
    have room := before state.world.time inTime clear
    exact ⟨trivial, by omega⟩
  exact FuelLoop.settles_map (loop _ _ _) _

theorem visit_core_settles (goesOn : GoesOn env) (config : Config) (n : Nat) (cpu : CpuInfo)
    (sweep : Sweep count) : FuelLoop.Settles fun fuel => visitCore env config fuel n cpu sweep := by
  have ch : ∀ sweep : Sweep count,
      FuelLoop.Settles fun fuel => visitCh env config fuel cpu sweep := by
    intro sweep
    simp only [visitCh]
    split_ifs
    · exact FuelLoop.settles_bind
        (FuelLoop.settles_map (timed_run_settles goesOn _ _ _ _) _)
        (fun _ => FuelLoop.settles_some _)
    · exact FuelLoop.settles_some _
  have rbx : ∀ (sweep : Sweep count) (stopped : Bool),
      FuelLoop.Settles fun fuel => visitRbx env config fuel cpu sweep stopped := by
    intro sweep stopped
    simp only [visitRbx]
    split_ifs
    · exact FuelLoop.settles_bind
        (FuelLoop.settles_map (timed_run_settles goesOn _ _ _ _) _)
        (fun _ => FuelLoop.settles_some _)
    · exact FuelLoop.settles_some _
  have core : ∀ sweep : Sweep count,
      FuelLoop.Settles fun fuel => measureCore env config fuel cpu sweep := by
    intro sweep
    apply FuelLoop.settles_bind (ch _)
    intro middle
    exact FuelLoop.settles_bind (rbx middle.1 middle.2) (fun _ => FuelLoop.settles_some _)
  cases requested : env.signalled sweep.world.time with
  | true =>
      simp only [visitCore, World.interruptRequested, requested, if_true]
      exact FuelLoop.settles_some _
  | false =>
      simp only [visitCore, World.interruptRequested, requested, Bool.false_eq_true, if_false]
      split_ifs
      · exact FuelLoop.settles_some _
      · exact FuelLoop.settles_map (core _) _

theorem sweep_cores_settles (goesOn : GoesOn env) (config : Config) (n : Nat)
    (rest : List CpuInfo) (sweep : Sweep count) :
    FuelLoop.Settles fun fuel => sweepCores env config fuel n rest sweep := by
  induction rest generalizing n sweep with
  | nil => exact FuelLoop.settles_some _
  | cons cpu rest ih =>
      apply FuelLoop.settles_bind (visit_core_settles goesOn config n cpu sweep)
      intro trip
      cases trip with
      | again next => exact ih (n + 1) next
      | leave final => exact FuelLoop.settles_some _

end Endings

/-- Where the interrupt arrives or the clock goes on, every sweep ends, with an outcome
that no budget changes. -/
theorem sweep_settles (env : Env count) (goesOn : GoesOn env) (config : Config) :
    FuelLoop.Settles fun fuel => main env config fuel :=
  FuelLoop.settles_map (sweep_cores_settles goesOn config 0 config.selected (prelude env config)) _

end SdcProbe.Durations
