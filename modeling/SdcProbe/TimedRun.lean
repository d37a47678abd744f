import SdcProbe.Environment
import SdcProbe.FuelLoop

/-!
# Measuring until a deadline

`run_on_current_cpu` and `run_rbx_on_current_cpu` are one loop around two
measurements. The loop reads the clock, polls the interrupt flag, measures once,
reads the clock again and prints a progress line when one is due. A probe brings
the measurement and its progress line, together with the fact that one trip
measures exactly once and prints nothing but ordinary lines.
-/

namespace SdcProbe.TimedRun

open Report Environment

set_option autoImplicit false

def nanosPerSecond : Nat := 1000000000
def kProgressIntervalS : Nat := 30

structure TimedProbe (count : Nat) (Body : Type) where
  probe : Probe
  measure : Env count → World count → Body → World count × Body
  progress : Nat → Body → Line
  measures : ∀ env world body, ∃ action lines, action.isMeasurement = true ∧
    (∀ line ∈ lines, line.Plain) ∧
    (measure env world body).1 = (world.record action).print lines
  progress_plain : ∀ elapsed body, (progress elapsed body).Plain

structure TimedState (count : Nat) (Body : Type) where
  world : World count
  body : Body
  nextProgress : Nat

structure TimedExit (count : Nat) (Body : Type) where
  world : World count
  body : Body
  interrupted : Bool

structure TimedOutcome (count : Nat) (Body : Type) extends TimedExit count Body where
  elapsedMs : Nat

/-- `while (next_progress <= now) { next_progress += 30 s; }` -/
def advanceProgress (now nextProgress : Nat) : Nat :=
  if nextProgress ≤ now then
    advanceProgress now (nextProgress + kProgressIntervalS * nanosPerSecond)
  else nextProgress
termination_by now + 1 - nextProgress
decreasing_by
  unfold kProgressIntervalS nanosPerSecond
  omega

variable {count : Nat} {Body : Type}

/-- One evaluation of the loop condition and, if it holds, one trip through the
loop body. -/
def timedTrip (env : Env count) (probe : TimedProbe count Body) (start deadline : Nat)
    (state : TimedState count Body) :
    FuelLoop.Trip (TimedState count Body) (TimedExit count Body) :=
  let (now, world) := state.world.now env .test
  if now < deadline then
    let (requested, world) := world.interruptRequested env (.timed probe.probe)
    if requested then .leave ⟨world, state.body, true⟩
    else
      let (world, body) := probe.measure env world state.body
      let (now, world) := world.now env .after
      if state.nextProgress ≤ now then
        .again ⟨world.print [probe.progress ((now - start) / nanosPerSecond) body], body,
          advanceProgress now state.nextProgress⟩
      else .again ⟨world, body, state.nextProgress⟩
  else .leave ⟨world, state.body, false⟩

/-- `std::chrono::minutes(minutes)` in nanoseconds. -/
def minutesToNanos (minutes : Nat) : Nat := minutes * 60 * nanosPerSecond

def timedRun (env : Env count) (probe : TimedProbe count Body) (minutes fuel : Nat)
    (world : World count) (body : Body) : Option (TimedOutcome count Body) :=
  let (start, world) := world.now env .start
  let deadline := start + minutesToNanos minutes
  let nextProgress := start + kProgressIntervalS * nanosPerSecond
  (FuelLoop.run (timedTrip env probe start deadline) fuel ⟨world, body, nextProgress⟩).map
    fun exit =>
      let (finish, world) := exit.world.now env .finish
      ⟨⟨world, exit.body, exit.interrupted⟩, (finish - start) / 1000000⟩

/-- The world in which a trip measures: after the reading of the loop condition
and a poll that found the flag clear. -/
def cleared (env : Env count) (probe : TimedProbe count Body) (world : World count) :
    World count :=
  (world.record (.clock .test (env.clock world.time))).record (.poll (.timed probe.probe) false)

theorem cleared_time (env : Env count) (probe : TimedProbe count Body) (world : World count) :
    (cleared env probe world).time = world.time + 2 := by
  simp [cleared]

/-- Everything one trip can do. -/
theorem timed_trip_cases (env : Env count) (probe : TimedProbe count Body) (start deadline : Nat)
    (state : TimedState count Body) :
    (deadline ≤ env.clock state.world.time ∧
      timedTrip env probe start deadline state =
        .leave
          ⟨state.world.record (.clock .test (env.clock state.world.time)), state.body, false⟩) ∨
    (env.clock state.world.time < deadline ∧ env.signalled (state.world.time + 1) = true ∧
      timedTrip env probe start deadline state =
        .leave ⟨(state.world.record (.clock .test (env.clock state.world.time))).record
          (.poll (.timed probe.probe) true), state.body, true⟩) ∨
    (env.clock state.world.time < deadline ∧ env.signalled (state.world.time + 1) = false ∧
      ∃ next reading, timedTrip env probe start deadline state = .again next ∧
        next.body = (probe.measure env (cleared env probe state.world) state.body).2 ∧
        (next.world = (probe.measure env (cleared env probe state.world) state.body).1.record
            (.clock .after reading) ∨
          ∃ seconds, next.world =
            ((probe.measure env (cleared env probe state.world) state.body).1.record
              (.clock .after reading)).print [probe.progress seconds next.body])) := by
  by_cases open_ : env.clock state.world.time < deadline
  · right
    cases requested : env.signalled (state.world.time + 1) with
    | true =>
        left
        refine ⟨open_, rfl, ?_⟩
        simp [timedTrip, World.now, World.interruptRequested, open_, requested]
    | false =>
        right
        refine ⟨open_, rfl, ?_⟩
        simp only [timedTrip, World.now, World.interruptRequested, if_pos open_,
          World.record_time, requested, Bool.false_eq_true, if_false]
        split_ifs with due
        · exact ⟨_, _, rfl, rfl, .inr ⟨_, rfl⟩⟩
        · exact ⟨_, _, rfl, rfl, .inl rfl⟩
  · left
    refine ⟨Nat.le_of_not_lt open_, ?_⟩
    simp [timedTrip, World.now, open_]

theorem again_cases {env : Env count} {probe : TimedProbe count Body} {start deadline : Nat}
    {state next : TimedState count Body}
    (taken : timedTrip env probe start deadline state = .again next) :
    env.clock state.world.time < deadline ∧ env.signalled (state.world.time + 1) = false ∧
      ∃ reading, next.body = (probe.measure env (cleared env probe state.world) state.body).2 ∧
        (next.world = (probe.measure env (cleared env probe state.world) state.body).1.record
            (.clock .after reading) ∨
          ∃ seconds, next.world =
            ((probe.measure env (cleared env probe state.world) state.body).1.record
              (.clock .after reading)).print [probe.progress seconds next.body]) := by
  rcases timed_trip_cases env probe start deadline state with
    ⟨_, left⟩ | ⟨_, _, left⟩ | ⟨inTime, clear, next', reading, again, body, world⟩
  · rw [left] at taken
    cases taken
  · rw [left] at taken
    cases taken
  · rw [again] at taken
    cases taken
    exact ⟨inTime, clear, reading, body, world⟩

theorem leave_cases {env : Env count} {probe : TimedProbe count Body} {start deadline : Nat}
    {state : TimedState count Body} {exit : TimedExit count Body}
    (taken : timedTrip env probe start deadline state = .leave exit) :
    (deadline ≤ env.clock state.world.time ∧
      exit = ⟨state.world.record (.clock .test (env.clock state.world.time)), state.body, false⟩) ∨
    (exit = ⟨(state.world.record (.clock .test (env.clock state.world.time))).record
      (.poll (.timed probe.probe) true), state.body, true⟩) := by
  rcases timed_trip_cases env probe start deadline state with
    ⟨past, left⟩ | ⟨_, _, left⟩ | ⟨_, _, _, _, again, _⟩
  · rw [left] at taken
    exact .inl ⟨past, (FuelLoop.Trip.leave.inj taken).symm⟩
  · rw [left] at taken
    exact .inr (FuelLoop.Trip.leave.inj taken).symm
  · rw [again] at taken
    cases taken

/-- `after` is `before` with these actions and lines added. -/
structure Grown (before after : World count) (events : List (Action count))
    (lines : List Line) : Prop where
  history : after.history = before.history ++ events
  log : after.log = before.log ++ lines

theorem grown_refl (world : World count) : Grown world world [] [] :=
  ⟨(List.append_nil _).symm, (List.append_nil _).symm⟩

theorem Grown.record {before after : World count} {events : List (Action count)}
    {lines : List Line} (grown : Grown before after events lines) (action : Action count) :
    Grown before (after.record action) (events ++ [action]) lines :=
  ⟨by rw [World.record_history, grown.history, List.append_assoc], grown.log⟩

theorem Grown.print {before after : World count} {events : List (Action count)}
    {lines : List Line} (grown : Grown before after events lines) (added : List Line) :
    Grown before (after.print added) events (lines ++ added) :=
  ⟨grown.history, by rw [World.print_log, grown.log, List.append_assoc]⟩

/-- What a property of the actions, the lines and the body so far has to survive
to hold of a whole run: actions of the loop that measure nothing, a progress
line, and a measurement made right after a poll that found the flag clear. -/
structure LoopInvariant (env : Env count) (probe : TimedProbe count Body) (before : World count)
    (inv : List (Action count) → List Line → Body → Prop) : Prop where
  quiet : ∀ events lines body action, action.isTimed = true → action.isMeasurement = false →
    inv events lines body → inv (events ++ [action]) lines body
  progress : ∀ events lines body seconds, inv events lines body →
    inv events (lines ++ [probe.progress seconds body]) body
  measured : ∀ here events lines body action added, Grown before here events lines →
    0 < here.time → env.signalled (here.time - 1) = false → action.isMeasurement = true →
    (∀ line ∈ added, line.Plain) →
    (probe.measure env here body).1 = (here.record action).print added →
    inv events lines body →
    inv (events ++ [action]) (lines ++ added) (probe.measure env here body).2

section Rules

variable {env : Env count} {probe : TimedProbe count Body} {before : World count}
  {inv : List (Action count) → List Line → Body → Prop}

/-- One trip that asks for another keeps the invariant and sees no interrupt. -/
theorem trip_again (loop : LoopInvariant env probe before inv) {start deadline : Nat}
    {state next : TimedState count Body} {events : List (Action count)} {lines : List Line}
    (grown : Grown before state.world events lines) (holds : inv events lines state.body)
    (unseen : ¬SawInterrupt events)
    (taken : timedTrip env probe start deadline state = .again next) :
    ∃ events' lines', Grown before next.world events' lines' ∧ inv events' lines' next.body ∧
      ¬SawInterrupt events' := by
  obtain ⟨_, clear, reading, body, world⟩ := again_cases taken
  obtain ⟨action, added, measures, plain, measuredWorld⟩ :=
    probe.measures env (cleared env probe state.world) state.body
  have grownHere : Grown before (cleared env probe state.world)
      (events ++ [.clock .test (env.clock state.world.time)] ++
        [.poll (.timed probe.probe) false]) lines := (grown.record _).record _
  have holdsHere := loop.quiet _ _ _ (.poll (.timed probe.probe) false) rfl rfl
    (loop.quiet _ _ _ (.clock .test (env.clock state.world.time)) rfl rfl holds)
  have holdsMeasured := loop.measured _ _ _ _ action added grownHere
    (by rw [cleared_time]; omega) (by rw [cleared_time]; exact clear) measures plain
    measuredWorld holdsHere
  have holdsAfter := loop.quiet _ _ _ (.clock .after reading) rfl rfl holdsMeasured
  have grownAfter := ((grownHere.record action).print added).record (.clock .after reading)
  rw [← measuredWorld] at grownAfter
  rw [← body] at holdsAfter
  have unseenAfter : ¬SawInterrupt (events ++ [.clock .test (env.clock state.world.time)] ++
      [.poll (.timed probe.probe) false] ++ [action] ++ [.clock .after reading]) := by
    simp only [SawInterrupt, List.mem_append, List.mem_singleton, not_exists] at unseen ⊢
    intro site member
    rcases member with (((old | eq) | eq) | rfl) | eq
    · exact unseen site old
    · cases eq
    · cases eq
    · cases measures
    · cases eq
  rcases world with world | ⟨seconds, world⟩
  · exact ⟨_, _, by rw [world]; exact grownAfter, holdsAfter, unseenAfter⟩
  · exact ⟨_, _, by rw [world]; exact grownAfter.print _,
      loop.progress _ _ _ seconds holdsAfter, unseenAfter⟩

/-- The trip that leaves the loop keeps the invariant as well, and its flag says
whether the run saw the interrupt. -/
theorem trip_leave (loop : LoopInvariant env probe before inv) {start deadline : Nat}
    {state : TimedState count Body} {exit : TimedExit count Body} {events : List (Action count)}
    {lines : List Line} (grown : Grown before state.world events lines)
    (holds : inv events lines state.body) (unseen : ¬SawInterrupt events)
    (taken : timedTrip env probe start deadline state = .leave exit) :
    ∃ events' lines', Grown before exit.world events' lines' ∧ inv events' lines' exit.body ∧
      (exit.interrupted = true ↔ SawInterrupt events') := by
  have holdsTest := loop.quiet _ _ _ (.clock .test (env.clock state.world.time)) rfl rfl holds
  rcases leave_cases taken with ⟨_, rfl⟩ | rfl
  · refine ⟨_, _, grown.record _, holdsTest, ?_⟩
    rw [saw_interrupt_append]
    simpa [SawInterrupt] using unseen
  · refine ⟨_, _, (grown.record _).record _,
      loop.quiet _ _ _ (.poll (.timed probe.probe) true) rfl rfl holdsTest, ?_⟩
    simp [SawInterrupt]

theorem loop_rule (loop : LoopInvariant env probe before inv) {start deadline fuel : Nat}
    {state : TimedState count Body} {exit : TimedExit count Body} {events : List (Action count)}
    {lines : List Line} (grown : Grown before state.world events lines)
    (holds : inv events lines state.body) (unseen : ¬SawInterrupt events)
    (ran : FuelLoop.run (timedTrip env probe start deadline) fuel state = some exit) :
    ∃ events' lines', Grown before exit.world events' lines' ∧ inv events' lines' exit.body ∧
      (exit.interrupted = true ↔ SawInterrupt events') := by
  refine FuelLoop.run_invariant (timedTrip env probe start deadline)
    (fun state => ∃ events lines, Grown before state.world events lines ∧
      inv events lines state.body ∧ ¬SawInterrupt events)
    (fun exit => ∃ events lines, Grown before exit.world events lines ∧
      inv events lines exit.body ∧ (exit.interrupted = true ↔ SawInterrupt events))
    ?_ ?_ fuel state exit ⟨events, lines, grown, holds, unseen⟩ ran
  · intro state next reached taken
    obtain ⟨events, lines, grown, holds, unseen⟩ := reached
    exact trip_again loop grown holds unseen taken
  · intro state exit reached taken
    obtain ⟨events, lines, grown, holds, unseen⟩ := reached
    exact trip_leave loop grown holds unseen taken

theorem loop_invariant_and {other : List (Action count) → List Line → Body → Prop}
    (left : LoopInvariant env probe before inv) (right : LoopInvariant env probe before other) :
    LoopInvariant env probe before
      (fun events lines body => inv events lines body ∧ other events lines body) where
  quiet events lines body action timed still holds :=
    ⟨left.quiet events lines body action timed still holds.1,
      right.quiet events lines body action timed still holds.2⟩
  progress events lines body seconds holds :=
    ⟨left.progress events lines body seconds holds.1,
      right.progress events lines body seconds holds.2⟩
  measured here events lines body action added grown positive clear measures plain ran holds :=
    ⟨left.measured here events lines body action added grown positive clear measures plain ran
        holds.1,
      right.measured here events lines body action added grown positive clear measures plain ran
        holds.2⟩

end Rules

/-- The world after the reading that sets the deadline. -/
def started (env : Env count) (world : World count) : World count :=
  world.record (.clock .start (env.clock world.time))

/-- What every timed run leaves in the trace and in the report. -/
structure Framed (env : Env count) (before : World count) (events : List (Action count))
    (lines : List Line) : Prop where
  timed : ∀ action ∈ events, action.isTimed = true
  plain : ∀ line ∈ lines, line.Plain
  polled : WellPolled env before.history → WellPolled env (before.history ++ events)

theorem framed_loop_invariant (env : Env count) (probe : TimedProbe count Body)
    (before : World count) :
    LoopInvariant env probe before (fun events lines _ => Framed env before events lines) where
  quiet events lines body action timed still framed := by
    refine ⟨forall_mem_append_singleton.mpr ⟨framed.timed, timed⟩, framed.plain, ?_⟩
    intro polled
    rw [← List.append_assoc]
    apply well_polled_quiet (framed.polled polled) still
    intro cpu pinned same
    subst same
    cases timed
  progress events lines body seconds framed :=
    ⟨framed.timed,
      forall_mem_append_singleton.mpr ⟨framed.plain, probe.progress_plain seconds body⟩,
      framed.polled⟩
  measured here events lines body action added grown positive clear measures plain ran framed := by
    have timed : action.isTimed = true := Action.measurement_is_timed measures
    refine ⟨forall_mem_append_singleton.mpr ⟨framed.timed, timed⟩,
      List.forall_mem_append.mpr ⟨framed.plain, plain⟩, ?_⟩
    intro polled
    rw [← List.append_assoc]
    rw [World.time, grown.history] at positive clear
    apply well_polled_record (framed.polled polled) (fun _ => ⟨positive, clear⟩)
    intro cpu pinned same
    subst same
    cases measures

/-- The actions of one trip that asks for another: the test, the poll, one
measurement, the reading after it. -/
theorem trip_again_history {env : Env count} {probe : TimedProbe count Body} {start deadline : Nat}
    {state next : TimedState count Body}
    (taken : timedTrip env probe start deadline state = .again next) :
    env.clock state.world.time < deadline ∧ env.signalled (state.world.time + 1) = false ∧
      ∃ action reading, action.isMeasurement = true ∧
        next.world.history = state.world.history ++
          [.clock .test (env.clock state.world.time), .poll (.timed probe.probe) false, action,
            .clock .after reading] := by
  obtain ⟨inTime, clear, reading, _, world⟩ := again_cases taken
  obtain ⟨action, added, measures, _, measuredWorld⟩ :=
    probe.measures env (cleared env probe state.world) state.body
  refine ⟨inTime, clear, action, reading, measures, ?_⟩
  rw [measuredWorld] at world
  rcases world with same | ⟨_, same⟩ <;>
    simp only [same, cleared, World.record_history, World.print_history, List.append_assoc,
      List.cons_append, List.nil_append]

/-- The rest of a loop only adds to what it starts from. -/
theorem loop_grows {env : Env count} {probe : TimedProbe count Body} {start deadline fuel : Nat}
    {state : TimedState count Body} {exit : TimedExit count Body}
    (ran : FuelLoop.run (timedTrip env probe start deadline) fuel state = some exit) :
    ∃ events lines, Grown state.world exit.world events lines := by
  have trivialInvariant : LoopInvariant env probe state.world (fun _ _ _ => True) :=
    ⟨fun _ _ _ _ _ _ _ => trivial, fun _ _ _ _ _ => trivial,
      fun _ _ _ _ _ _ _ _ _ _ _ _ _ => trivial⟩
  obtain ⟨events, lines, grown, _⟩ :=
    loop_rule trivialInvariant (grown_refl _) trivial (by simp [SawInterrupt]) ran
  exact ⟨events, lines, grown⟩

/-- An uninterrupted loop measures at all exactly when its first test still finds
the clock before the deadline. -/
theorem loop_first_test {env : Env count} {probe : TimedProbe count Body}
    {start deadline fuel : Nat} {state : TimedState count Body} {exit : TimedExit count Body}
    (ran : FuelLoop.run (timedTrip env probe start deadline) fuel state = some exit)
    (whole : exit.interrupted = false) :
    ∃ events, exit.world.history = state.world.history ++ events ∧
      ((∃ action ∈ events, action.isMeasurement = true) ↔
        env.clock state.world.time < deadline) := by
  cases fuel with
  | zero => cases ran
  | succ fuel =>
      rw [FuelLoop.run] at ran
      split at ran
      · next next taken =>
          obtain ⟨inTime, _, action, reading, measures, history⟩ := trip_again_history taken
          obtain ⟨more, _, rest⟩ := loop_grows ran
          refine ⟨_, by rw [rest.history, history, List.append_assoc], ?_⟩
          exact ⟨fun _ => inTime, fun _ => ⟨action, by simp, measures⟩⟩
      · next exit' taken =>
          cases ran
          rcases leave_cases taken with ⟨past, rfl⟩ | rfl
          · refine ⟨[.clock .test (env.clock state.world.time)], rfl, ?_⟩
            simp [Action.isMeasurement, past]
          · cases whole

theorem timed_run_first_test {env : Env count} {probe : TimedProbe count Body} {minutes fuel : Nat}
    {world : World count} {body : Body} {out : TimedOutcome count Body}
    {events : List (Action count)} {lines : List Line}
    (ran : timedRun env probe minutes fuel world body = some out)
    (grown : Grown (started env world) out.world events lines) (whole : out.interrupted = false) :
    (∃ action ∈ events, action.isMeasurement = true) ↔
      env.clock (world.time + 1) < env.clock world.time + minutesToNanos minutes := by
  obtain ⟨exit, looped, rfl⟩ := Option.map_eq_some_iff.mp ran
  obtain ⟨looping, history, tested⟩ := loop_first_test looped whole
  have all : events = looping ++ [.clock .finish (env.clock exit.world.time)] := by
    have final : exit.world.history ++ [.clock .finish (env.clock exit.world.time)] =
        (started env world).history ++ events := grown.history
    rw [history, List.append_assoc] at final
    exact (List.append_cancel_left final).symm
  have startTime : (world.record (.clock .start (env.clock world.time))).time = world.time + 1 :=
    World.record_time _ _
  simp only [startTime] at tested
  rw [← tested, all]
  simp [Action.isMeasurement]

/-- A timed run of either probe, seen from outside: what it adds to the history
after the reading that sets its deadline, and to the report. It is flagged
interrupted exactly when one of its polls found the flag set. Otherwise it has
measured at all exactly when the clock was still before the deadline at the first
test. -/
structure Ran (env : Env count) (minutes : Nat) (before after : World count) (interrupted : Bool)
    (events : List (Action count)) (lines : List Line) : Prop where
  history : after.history = before.history ++ .clock .start (env.clock before.time) :: events
  log : after.log = before.log ++ lines
  timed : ∀ action ∈ events, action.isTimed = true
  plain : ∀ line ∈ lines, line.Plain
  polled : WellPolled env before.history → WellPolled env after.history
  flag : interrupted = true ↔ SawInterrupt events
  firstTest : interrupted = false → ((∃ action ∈ events, action.isMeasurement = true) ↔
    env.clock (before.time + 1) < env.clock before.time + minutesToNanos minutes)

/-- The rule for a whole run: an invariant of the loop holds of all it added. -/
theorem timed_run_rule {env : Env count} {probe : TimedProbe count Body} {minutes fuel : Nat}
    {world : World count} {body : Body} {out : TimedOutcome count Body}
    {inv : List (Action count) → List Line → Body → Prop}
    (loop : LoopInvariant env probe (started env world) inv) (holds : inv [] [] body)
    (ran : timedRun env probe minutes fuel world body = some out) :
    ∃ events lines, Ran env minutes world out.world out.interrupted events lines ∧
      inv events lines out.body := by
  have whole := ran
  obtain ⟨exit, looped, rfl⟩ := Option.map_eq_some_iff.mp ran
  have both := loop_invariant_and (framed_loop_invariant env probe (started env world)) loop
  have framedStart : Framed env (started env world) [] [] :=
    ⟨by simp, by simp, fun polled => by rwa [List.append_nil]⟩
  obtain ⟨events, lines, grown, ⟨framed, kept⟩, flag⟩ := loop_rule both (grown_refl _)
    ⟨framedStart, holds⟩ (by simp [SawInterrupt]) looped
  obtain ⟨framed', kept'⟩ := both.quiet _ _ _
    (.clock .finish (env.clock exit.world.time)) rfl rfl ⟨framed, kept⟩
  have grown' := grown.record (.clock .finish (env.clock exit.world.time))
  refine ⟨_, _, ⟨?_, grown'.log, framed'.timed, framed'.plain, ?_, ?_, ?_⟩, kept'⟩
  · rw [List.append_cons]
    exact grown'.history
  · intro polled
    have opened := framed'.polled (well_polled_quiet polled rfl (by simp))
    rwa [← grown'.history] at opened
  · rw [saw_interrupt_append, flag]
    simp [SawInterrupt]
  · exact timed_run_first_test whole grown'

/-- Once the flag will be set, a budget beyond that instant is enough. -/
theorem timed_run_returns (env : Env count) (probe : TimedProbe count Body) (minutes fuel : Nat)
    (world : World count) (body : Body) (arrival : Nat) (arrives : env.arrival = some arrival)
    (enough : arrival < fuel) :
    ∃ out, timedRun env probe minutes fuel world body = some out := by
  obtain ⟨exit, ran⟩ := FuelLoop.run_terminates
    (timedTrip env probe (env.clock world.time) (env.clock world.time + minutesToNanos minutes))
    (fun _ => True) (fun state => arrival - state.world.time)
    (by
      intro state next _ taken
      refine ⟨trivial, ?_⟩
      obtain ⟨_, clear, action, reading, _, history⟩ := trip_again_history taken
      have later : next.world.time = state.world.time + 4 := by
        simp [World.time, history]
      have notYet : state.world.time + 1 < arrival := by
        simpa [Env.signalled, arrives] using clear
      omega)
    fuel ⟨started env world, body, env.clock world.time + kProgressIntervalS * nanosPerSecond⟩
    trivial (by simp only; omega)
  exact ⟨_, Option.map_eq_some_iff.mpr ⟨exit, ran, rfl⟩⟩

end SdcProbe.TimedRun
