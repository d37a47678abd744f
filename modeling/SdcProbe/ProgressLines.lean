import SdcProbe.Throttle
import SdcProbe.VerdictSoundness

/-!
# The progress lines of a timed run

While it measures, a run prints a line every thirty seconds. Which lines these are, and
what they say, is determined by its readings of the clock.
-/

namespace SdcProbe.ProgressLines

open Report Environment TimedRun Throttle

set_option autoImplicit false

variable {count : Nat}

def isProgress : Line → Bool
  | .progress .. => true
  | _ => false

/-- Thirty seconds. -/
def progressNanos : Nat := kProgressIntervalS * nanosPerSecond

theorem progress_nanos_pos : 0 < progressNanos := by decide

/-- The readings of the clock behind the measurements of a run: how long after its start,
and what had been done until then. -/
def readings (start : Nat) :
    List (Action count) → List (Action count) → List (Nat × List (Action count))
  | _, [] => []
  | before, .clock .after value :: rest =>
      (value - start, before) :: readings start (before ++ [.clock .after value]) rest
  | before, action :: rest => readings start (before ++ [action]) rest

theorem readings_append (start : Nat) (before left right : List (Action count)) :
    readings start before (left ++ right) =
      readings start before left ++ readings start (before ++ left) right := by
  fun_induction readings start before left with
  | case1 before => rw [List.nil_append, List.nil_append, List.append_nil]
  | case2 before value rest ih =>
      rw [List.cons_append, readings, ih, List.append_assoc]
      rfl
  | case3 before action rest other ih =>
      rw [List.cons_append, readings, ih, List.append_assoc]
      · rfl
      · exact other

/-- The loop that moves the next line on ends in the first multiple of the interval that
the clock has not reached. -/
theorem advance_progress_eq (start now due : Nat)
    (early : due ≤ (now - start) / progressNanos + 1) (positive : 0 < due) :
    advanceProgress now (start + due * progressNanos) =
      start + ((now - start) / progressNanos + 1) * progressNanos := by
  by_cases here : due = (now - start) / progressNanos + 1
  · have behind : now - start < (now - start) / progressNanos * progressNanos + progressNanos :=
      Nat.lt_div_mul_add progress_nanos_pos
    rw [advanceProgress, here, Nat.succ_mul, if_neg]
    omega
  · have more : due ≤ (now - start) / progressNanos := by omega
    have reached := (Nat.le_div_iff_mul_le progress_nanos_pos).mp more
    have some := Nat.mul_pos positive progress_nanos_pos
    have next := advance_progress_eq start now (due + 1) (by omega) (Nat.succ_pos due)
    rw [advanceProgress, if_pos (by omega), Nat.add_assoc]
    rw [Nat.succ_mul due] at next
    exact next
termination_by (now - start) / progressNanos + 1 - due

section Loop

variable {Body : Type} {env : Env count} {probe : TimedProbe count Body} {start deadline : Nat}
  {before : World count} {inv : List (Action count) → List Line → Body → Prop}
  {render : Nat → List (Action count) → Line}

/-- What is read behind the measurement of a trip, and what becomes of it. -/
theorem again_progress {state next : TimedState count Body}
    (taken : timedTrip env probe start deadline state = .again next) :
    ∃ measured now, measured = (probe.measure env (cleared env probe state.world) state.body).1 ∧
      now = env.clock measured.time ∧
      next.body = (probe.measure env (cleared env probe state.world) state.body).2 ∧
      ((state.nextProgress ≤ now ∧
          next.world = (measured.record (.clock .after now)).print
            [probe.progress ((now - start) / nanosPerSecond) next.body] ∧
          next.nextProgress = advanceProgress now state.nextProgress) ∨
        (now < state.nextProgress ∧ next.world = measured.record (.clock .after now) ∧
          next.nextProgress = state.nextProgress)) := by
  obtain ⟨inTime, clear, _⟩ := again_cases taken
  simp only [timedTrip, World.now, World.interruptRequested, if_pos inTime, World.record_time,
    clear, Bool.false_eq_true, if_false] at taken
  refine ⟨_, _, rfl, rfl, ?_⟩
  split_ifs at taken with due
  · cases taken
    exact ⟨rfl, .inl ⟨due, rfl, rfl⟩⟩
  · cases taken
    exact ⟨rfl, .inr ⟨Nat.lt_of_not_le due, rfl, rfl⟩⟩

/-- The lines of a run so far are those of a throttle over its readings. -/
structure Showing (render : Nat → List (Action count) → Line) (start time : Nat)
    (env : Env count) (events : List (Action count)) (lines : List Line)
    (shown : List (Nat × List (Action count))) : Prop where
  throttled : Throttled progressNanos Prod.fst (readings start [] events) shown
  printed : lines.filter isProgress =
    shown.map fun reading => render (reading.1 / nanosPerSecond) reading.2
  ordered : ∀ reading ∈ readings start [] events, reading.1 ≤ env.clock time - start

/-- When the next line is due. -/
def DueAt (start : Nat) (shown : List (Nat × List (Action count))) : Nat :=
  start + (reached progressNanos Prod.fst shown + 1) * progressNanos

variable {time : Nat} {events : List (Action count)} {lines : List Line}
  {shown : List (Nat × List (Action count))}

/-- Actions that are no such readings, and lines that are no such lines. -/
theorem showing_other (showing : Showing render start time env events lines shown)
    {added : List (Action count)} (silent : readings start events added = [])
    {more : List Line} (plain : ∀ line ∈ more, isProgress line = false) :
    Showing render start time env (events ++ added) (lines ++ more) shown := by
  have same : readings start [] (events ++ added) = readings start [] events := by
    rw [readings_append, List.nil_append, silent, List.append_nil]
  have none : more.filter isProgress = [] := by
    rw [List.filter_eq_nil_iff]
    intro line member
    rw [plain line member]
    exact Bool.false_ne_true
  constructor
  · rw [same]
    exact showing.throttled
  · rw [List.filter_append, none, List.append_nil]
    exact showing.printed
  · rw [same]
    exact showing.ordered

theorem showing_quiet (showing : Showing render start time env events lines shown)
    {added : List (Action count)} (silent : readings start events added = []) :
    Showing render start time env (events ++ added) lines shown := by
  have kept := showing_other showing silent (List.forall_mem_nil _)
  rwa [List.append_nil] at kept

theorem showing_later (showing : Showing render start time env events lines shown) {later : Nat}
    (onward : time ≤ later) : Showing render start later env events lines shown := by
  constructor
  · exact showing.throttled
  · exact showing.printed
  · intro reading member
    exact (showing.ordered reading member).trans
      (Nat.sub_le_sub_right (env.steady _ _ onward) start)

theorem due_iff (now : Nat) :
    DueAt start shown ≤ now ↔
      reached progressNanos Prod.fst shown < (now - start) / progressNanos := by
  have some : 0 < (reached progressNanos Prod.fst shown + 1) * progressNanos :=
    Nat.mul_pos (Nat.succ_pos _) progress_nanos_pos
  rw [DueAt, Nat.lt_iff_add_one_le, Nat.le_div_iff_mul_le progress_nanos_pos]
  omega

/-- A reading at which a line is due. -/
theorem showing_due (showing : Showing render start time env events lines shown)
    (due : DueAt start shown ≤ env.clock time) {line : Line}
    (rendered : line = render ((env.clock time - start) / nanosPerSecond) events)
    (progress : isProgress line = true) :
    Showing render start time env (events ++ [.clock .after (env.clock time)]) (lines ++ [line])
        (shown ++ [(env.clock time - start, events)]) ∧
      advanceProgress (env.clock time) (DueAt start shown) =
        DueAt start (shown ++ [(env.clock time - start, events)]) := by
  have same : readings start [] (events ++ [.clock .after (env.clock time)]) =
      readings start [] events ++ [(env.clock time - start, events)] := readings_append _ _ _ _
  have fresh := (due_iff (env.clock time)).mp due
  constructor
  · constructor
    · rw [same]
      exact throttled_show progress_nanos_pos showing.throttled fresh
    · have one : [line].filter isProgress = [line] := by
        rw [List.filter_cons_of_pos progress, List.filter_nil]
      rw [List.filter_append, one, List.map_append, showing.printed, rendered]
      rfl
    · rw [same]
      intro reading member
      rcases List.mem_append.mp member with old | new
      · exact showing.ordered reading old
      · rw [List.mem_singleton.mp new]
  · rw [DueAt, DueAt, reached_last]
    exact advance_progress_eq start _ _ (by omega) (Nat.succ_pos _)

/-- A reading at which none is. -/
theorem showing_not_due (showing : Showing render start time env events lines shown)
    (early : env.clock time < DueAt start shown) :
    Showing render start time env (events ++ [.clock .after (env.clock time)]) lines shown := by
  have same : readings start [] (events ++ [.clock .after (env.clock time)]) =
      readings start [] events ++ [(env.clock time - start, events)] := readings_append _ _ _ _
  have stale : (env.clock time - start) / progressNanos ≤
      reached progressNanos Prod.fst shown := by
    by_contra fresh
    have due := (due_iff (env.clock time)).mpr (Nat.lt_of_not_le fresh)
    omega
  constructor
  · rw [same]
    exact throttled_hide progress_nanos_pos showing.throttled stale showing.ordered
  · exact showing.printed
  · rw [same]
    intro reading member
    rcases List.mem_append.mp member with old | new
    · exact showing.ordered reading old
    · rw [List.mem_singleton.mp new]

/-- What a state of the loop has shown so far. -/
def ShownSofar (env : Env count) (start : Nat) (before : World count)
    (inv : List (Action count) → List Line → Body → Prop)
    (render : Nat → List (Action count) → Line) (state : TimedState count Body) : Prop :=
  ∃ events lines shown, Grown before state.world events lines ∧ inv events lines state.body ∧
    Showing render start state.world.time env events lines shown ∧
    state.nextProgress = DueAt start shown

/-- The measurements of a probe print no such line, and its own line is such a line and
says what the history says. -/
structure Renders (probe : TimedProbe count Body)
    (inv : List (Action count) → List Line → Body → Prop)
    (render : Nat → List (Action count) → Line) : Prop where
  silent : ∀ env world body, ∃ action lines, action.isMeasurement = true ∧
    (∀ line ∈ lines, line.Plain) ∧ (∀ line ∈ lines, isProgress line = false) ∧
    (probe.measure env world body).1 = (world.record action).print lines
  rendered : ∀ {events lines body} (seconds : Nat), inv events lines body →
    probe.progress seconds body = render seconds events
  progress : ∀ seconds events, isProgress (render seconds events) = true

theorem trip_shown (loop : LoopInvariant env probe before inv) (renders : Renders probe inv render)
    {state next : TimedState count Body} (sofar : ShownSofar env start before inv render state)
    (taken : timedTrip env probe start deadline state = .again next) :
    ShownSofar env start before inv render next := by
  obtain ⟨events, lines, shown, grown, holds, showing, due⟩ := sofar
  obtain ⟨_, clear, _⟩ := again_cases taken
  obtain ⟨measured, _, measuredEq, rfl, body, printed⟩ := again_progress taken
  obtain ⟨action, added, measures, plain, silent, measuredWorld⟩ :=
    renders.silent env (cleared env probe state.world) state.body
  have grownHere : Grown before (cleared env probe state.world)
      (events ++ [.clock .test (env.clock state.world.time)] ++
        [.poll (.timed probe.probe) false]) lines := (grown.record _).record _
  have holdsHere := loop.quiet _ _ _ (.poll (.timed probe.probe) false) rfl rfl
    (loop.quiet _ _ _ (.clock .test (env.clock state.world.time)) rfl rfl holds)
  have holdsMeasured := loop.measured _ _ _ _ action added grownHere
    (by rw [cleared_time]; omega) (by rw [cleared_time]; exact clear) measures plain
    measuredWorld holdsHere
  rw [← body] at holdsMeasured
  rw [List.append_assoc, List.append_assoc] at holdsMeasured
  have grownMeasured := (grownHere.record action).print added
  rw [← measuredWorld, ← measuredEq, List.append_assoc, List.append_assoc] at grownMeasured
  have noReading : readings start events ([.clock .test (env.clock state.world.time)] ++
      ([.poll (.timed probe.probe) false] ++ [action])) = [] := by
    cases action <;> first | rfl | cases measures
  have time : measured.time = state.world.time + 3 := by
    rw [measuredEq, measuredWorld, World.print_time, World.record_time, cleared_time]
  have showingMeasured := showing_later (showing_other showing noReading silent)
    (Nat.le_add_right state.world.time 3)
  rw [← time] at showingMeasured
  have holdsAfter := loop.quiet _ _ _ (.clock .after (env.clock measured.time)) rfl rfl
    holdsMeasured
  have later : measured.time ≤ next.world.time := by
    rcases printed with ⟨_, world, _⟩ | ⟨_, world, _⟩
    · rw [world, World.print_time, World.record_time]
      exact Nat.le_succ _
    · rw [world, World.record_time]
      exact Nat.le_succ _
  rcases printed with ⟨reachedIt, world, progress⟩ | ⟨early, world, progress⟩
  · rw [due] at reachedIt progress
    let seconds := (env.clock measured.time - start) / nanosPerSecond
    have line := renders.rendered seconds holdsMeasured
    obtain ⟨showingAfter, advanced⟩ := showing_due showingMeasured reachedIt line
      (by rw [line]; exact renders.progress _ _)
    refine ⟨_, _, _, ?_, loop.progress _ _ _ seconds holdsAfter,
      showing_later showingAfter later, progress.trans advanced⟩
    rw [world]
    exact (grownMeasured.record _).print _
  · rw [due] at early progress
    have showingAfter := showing_not_due showingMeasured early
    refine ⟨_, _, _, ?_, holdsAfter, showing_later showingAfter later, progress⟩
    rw [world]
    exact grownMeasured.record _

/-- A whole timed run: its lines are those of a throttle over its readings, and there are
not more of them than intervals in the time that is counted as elapsed. -/
theorem timed_run_shown {minutes fuel : Nat} {world : World count} {body : Body}
    {out : TimedOutcome count Body}
    (loop : LoopInvariant env probe (TimedRun.started env world) inv)
    (renders : Renders probe inv render) (holds : inv [] [] body)
    (ran : timedRun env probe minutes fuel world body = some out) :
    ∃ events lines shown, Grown (TimedRun.started env world) out.world events lines ∧
      Throttled progressNanos Prod.fst (readings (env.clock world.time) [] events) shown ∧
      (lines.filter isProgress =
        shown.map fun reading => render (reading.1 / nanosPerSecond) reading.2) ∧
      shown.length ≤ out.elapsedMs / (kProgressIntervalS * 1000) := by
  obtain ⟨exit, looped, rfl⟩ := Option.map_eq_some_iff.mp ran
  let start := env.clock world.time
  have opening : ShownSofar env start (TimedRun.started env world) inv render
      ⟨TimedRun.started env world, body, start + kProgressIntervalS * nanosPerSecond⟩ := by
    refine ⟨[], [], [], grown_refl _, holds, ?_, ?_⟩
    · exact ⟨throttled_nil _ _, rfl, List.forall_mem_nil _⟩
    · rw [DueAt, reached, List.getLast?_nil, Nat.zero_add, Nat.one_mul]
      rfl
  have ended : ∃ events lines shown, Grown (TimedRun.started env world) exit.world events lines ∧
      Showing render start exit.world.time env events lines shown := by
    apply FuelLoop.run_invariant _ (ShownSofar env start (TimedRun.started env world) inv render)
      (fun exit => ∃ events lines shown,
        Grown (TimedRun.started env world) exit.world events lines ∧
        Showing render start exit.world.time env events lines shown) _ _ fuel _ exit opening looped
    · intro state next sofar taken
      exact trip_shown loop renders sofar taken
    · intro state exit sofar taken
      obtain ⟨events, lines, shown, grown, _, showing, _⟩ := sofar
      have tested : readings start events [.clock .test (env.clock state.world.time)] = [] := rfl
      have later : ∀ steps,
          Showing render start (state.world.time + steps) env events lines shown :=
        fun steps => showing_later showing (Nat.le_add_right _ steps)
      rcases leave_cases taken with ⟨_, rfl⟩ | rfl
      · exact ⟨_, _, _, grown.record _, by
          rw [World.record_time]
          exact showing_quiet (later 1) tested⟩
      · exact ⟨_, _, _, (grown.record _).record _, by
          rw [World.record_time, World.record_time]
          exact showing_quiet (showing_quiet (later 2) tested) rfl⟩
  obtain ⟨events, lines, shown, grown, showing⟩ := ended
  have finished := @showing_quiet _ _ _ _ _ _ _ _ showing
    [.clock .finish (env.clock exit.world.time)] rfl
  refine ⟨_, _, shown, grown.record _, finished.throttled, finished.printed, ?_⟩
  have unit : progressNanos = 1000000 * (kProgressIntervalS * 1000) := by decide
  dsimp only [World.now]
  rw [Nat.div_div_eq_div_mul, ← unit]
  apply throttled_length progress_nanos_pos finished.throttled
  intro reading member
  exact Nat.div_le_div_right (finished.ordered reading member)

end Loop

/-- The progress lines of a run from one world to another. -/
def Progresses (env : Env count) (render : Nat → List (Action count) → Line)
    (before after : World count) (elapsedMs : Nat) : Prop :=
  ∃ events lines shown, Grown (TimedRun.started env before) after events lines ∧
    Throttled progressNanos Prod.fst (readings (env.clock before.time) [] events) shown ∧
    (lines.filter isProgress =
      shown.map fun reading => render (reading.1 / nanosPerSecond) reading.2) ∧
    shown.length ≤ elapsedMs / (kProgressIntervalS * 1000)

section Probes

theorem report_silent {reported : Nat} {line : Line} (silent : isProgress line = false) :
    ∀ other ∈ (report reported line).2, isProgress other = false := by
  intro other member
  rw [report] at member
  split_ifs at member
  · rcases List.mem_pair.mp member with rfl | rfl
    · exact silent
    · rfl
  · rw [List.mem_singleton.mp member]
    exact silent
  · cases member

/-- What the ch run of a core says after so many seconds. -/
def chLine (count cpuIndex minutes seconds : Nat) (events : List (Action count)) : Line :=
  .progress .ch cpuIndex seconds (minutes * 60) (roundsOf events).length
    ((roundsOf events).countP ChRun.differs)

def rbxLine (count cpuIndex minutes seconds : Nat) (events : List (Action count)) : Line :=
  .progress .rbx cpuIndex seconds (minutes * 60) (passesOf events).length
    ((passesOf events).countP RbxRun.failed)

theorem ch_renders (env : Env count) (cpuIndex minutes : Nat) :
    Renders (ChRun.chProbe count minutes)
      (fun events lines state => ChRun.Accounts cpuIndex (roundsOf events) lines state ∧
        ChRun.FromComputeRows env (roundsOf events) ∧ passesOf events = [])
      (chLine count cpuIndex minutes) where
  silent env world state := by
    refine ⟨_, _, rfl, ChRun.judge_round_plain _ _ _ _, ?_, rfl⟩
    intro line member
    simp only [ChRun.judgeRound] at member
    split_ifs at member
    · apply report_silent _ line member
      split_ifs <;> rfl
    · cases member
  rendered seconds holds := by
    change ChRun.chProgress minutes seconds _ = _
    rw [ChRun.chProgress, chLine, holds.1.core, holds.1.rounds, holds.1.detections]
  progress _ _ := rfl

theorem rbx_renders (count cpuIndex minutes : Nat) :
    Renders (RbxRun.rbxProbe count minutes)
      (fun events lines state =>
        RbxRun.Accounts cpuIndex (passesOf events) lines state ∧ roundsOf events = [])
      (rbxLine count cpuIndex minutes) where
  silent env world state := by
    refine ⟨_, _, rfl, RbxRun.judge_pass_plain _ _ _ _, ?_, rfl⟩
    intro line member
    simp only [RbxRun.judgePass] at member
    split_ifs at member
    · apply report_silent _ line member
      split_ifs <;> rfl
    · cases member
  rendered seconds holds := by
    change RbxRun.rbxProgress minutes seconds _ = _
    rw [RbxRun.rbxProgress, rbxLine, holds.1.core, holds.1.passes, holds.1.detections]
  progress _ _ := rfl

end Probes

/-- The progress lines of a run on one core: in each thirty seconds after the first thirty
with a reading behind a measurement, the first such reading has its line and no other has
one. The line says how many measurements were made and how many of them showed the fault
until then. -/
theorem progress_lines_exact (env : Env count) (cpuIndex minutes fuel : Nat)
    (before : World count) :
    (∀ work after work' result, ChRun.runOnCurrentCpu env cpuIndex minutes fuel before work =
        some (after, work', result) →
      Progresses env (chLine count cpuIndex minutes) before after result.elapsedMs) ∧
    (∀ after result, RbxRun.runRbxOnCurrentCpu env cpuIndex minutes fuel before =
        some (after, result) →
      Progresses env (rbxLine count cpuIndex minutes) before after result.elapsedMs) := by
  constructor
  · intro work after work' result ran
    obtain ⟨out, timed, same⟩ := Option.map_eq_some_iff.mp ran
    cases same
    have start : ChRun.Accounts cpuIndex (roundsOf ([] : List (Action count))) []
        ⟨{ cpuIndex := cpuIndex }, 0, work⟩ := by
      constructor
      · rfl
      · rfl
      · rfl
      · rfl
      · exact ⟨rfl, rfl⟩
      · intro first later impossible
        cases impossible
      · rfl
    exact timed_run_shown (ChRun.accounts_loop_invariant env minutes cpuIndex _)
      (ch_renders env cpuIndex minutes)
      ⟨start, by simp [ChRun.FromComputeRows, roundsOf], rfl⟩ timed
  · intro after result ran
    obtain ⟨out, timed, same⟩ := Option.map_eq_some_iff.mp ran
    cases same
    have start : RbxRun.Accounts cpuIndex (passesOf ([] : List (Action count))) []
        ⟨{ cpuIndex := cpuIndex }, 0⟩ := ⟨rfl, rfl, rfl, rfl, ⟨rfl, rfl⟩⟩
    exact timed_run_shown (RbxRun.accounts_loop_invariant env minutes cpuIndex _)
      (rbx_renders count cpuIndex minutes) ⟨start, rfl⟩ timed

open VerdictSoundness in
/-- Ten seconds an action: a line at 40 and one at 80 seconds. -/
theorem progress_lines_exact_sample :
    ∃ after result, RbxRun.runRbxOnCurrentCpu (steadyMachine 10000000000 none) 0 1 3 {} =
        some (after, result) ∧
      Progresses (steadyMachine 10000000000 none) (rbxLine _ 0 1) {} after result.elapsedMs ∧
      after.log = [.progress .rbx 0 40 60 1 0, .progress .rbx 0 80 60 2 0] := by
  have returned : (RbxRun.runRbxOnCurrentCpu (steadyMachine 10000000000 none) 0 1 3 {}).map
      (fun out => out.1.log) = some [.progress .rbx 0 40 60 1 0, .progress .rbx 0 80 60 2 0] := by
    decide +kernel
  obtain ⟨⟨after, result⟩, ran, log⟩ := Option.map_eq_some_iff.mp returned
  exact ⟨after, result, ran, (progress_lines_exact _ 0 1 3 {}).2 after result ran, log⟩

end SdcProbe.ProgressLines
