import SdcProbe.VerdictSoundness

/-!
# Interrupted sweeps

From the instant the flag is set at most one more measurement starts, and only
on the core whose visit had already begun. The run then reaches its summary with
all it has measured. When the flag is found before any core was measured, the
report names a cause that did not occur.
-/

namespace SdcProbe.InterruptedSweep

open Report Environment TimedRun CoreSweep SweepAccounts SweepInvariant SweepTotals Verdict
  VerdictSoundness

set_option autoImplicit false

variable {count : Nat}

section Returning

variable {env : Env count} {fuel arrival : Nat}

theorem visit_core_returns (config : Config) (arrives : env.arrival = some arrival)
    (enough : arrival < fuel) (n : Nat) (cpu : CpuInfo) (sweep : Sweep count) :
    ∃ trip, visitCore env config fuel n cpu sweep = some trip := by
  have ch : ∀ sweep : Sweep count, ∃ next, visitCh env config fuel cpu sweep = some next := by
    intro sweep
    rw [visitCh]
    split_ifs
    · obtain ⟨out, ran⟩ := timed_run_returns env (ChRun.chProbe count config.minutes)
        config.minutes fuel sweep.world ⟨{ cpuIndex := cpu.index }, 0, sweep.work⟩ arrival arrives
        enough
      rw [ChRun.runOnCurrentCpu, ran]
      exact ⟨_, rfl⟩
    · exact ⟨_, rfl⟩
  have rbx : ∀ (sweep : Sweep count) chInterrupted,
      ∃ next, visitRbx env config fuel cpu sweep chInterrupted = some next := by
    intro sweep chInterrupted
    rw [visitRbx]
    split_ifs
    · obtain ⟨out, ran⟩ := timed_run_returns env (RbxRun.rbxProbe count config.minutes)
        config.minutes fuel sweep.world ⟨{ cpuIndex := cpu.index }, 0⟩ arrival arrives enough
      rw [RbxRun.runRbxOnCurrentCpu, ran]
      exact ⟨_, rfl⟩
    · exact ⟨_, rfl⟩
  have core : ∀ sweep : Sweep count, ∃ next, measureCore env config fuel cpu sweep = some next := by
    intro sweep
    obtain ⟨middle, chRan⟩ := ch { sweep with
      world := verifyPin env sweep.world cpu
      measuredCores := sweep.measuredCores + 1 }
    obtain ⟨next, rbxRan⟩ := rbx middle.1 middle.2
    exact ⟨_, Option.bind_eq_some_iff.mpr
      ⟨middle, chRan, Option.bind_eq_some_iff.mpr ⟨next, rbxRan, rfl⟩⟩⟩
  rcases visit_core_cases env config fuel n cpu sweep with ⟨_, stops⟩ | ⟨_, _, skips⟩ | ⟨_, _, runs⟩
  · exact ⟨_, stops⟩
  · exact ⟨_, skips⟩
  · obtain ⟨next, ran⟩ := core { sweep with world := opened env config n cpu sweep.world }
    exact ⟨_, by rw [runs, ran]; rfl⟩

theorem sweep_cores_returns (config : Config) (arrives : env.arrival = some arrival)
    (enough : arrival < fuel) (n : Nat) (rest : List CpuInfo) (sweep : Sweep count) :
    ∃ final, sweepCores env config fuel n rest sweep = some final := by
  induction rest generalizing n sweep with
  | nil => exact ⟨sweep, rfl⟩
  | cons cpu rest ih =>
      obtain ⟨trip, visit⟩ := visit_core_returns config arrives enough n cpu sweep
      cases trip with
      | again next =>
          obtain ⟨final, more⟩ := ih (n + 1) next
          exact ⟨final, by rw [sweepCores, visit]; exact more⟩
      | leave final => exact ⟨final, by rw [sweepCores, visit]; rfl⟩

theorem main_returns (config : Config) (arrives : env.arrival = some arrival)
    (enough : arrival < fuel) : ∃ out, main env config fuel = some out := by
  obtain ⟨final, swept⟩ := sweep_cores_returns config arrives enough 0 config.selected
    (prelude env config)
  exact ⟨_, Option.map_eq_some_iff.mpr ⟨final, swept, rfl⟩⟩

end Returning

section AfterArrival

variable {env : Env count} {history : List (Action count)} {arrival : Nat}

theorem not_signalled_iff (arrives : env.arrival = some arrival) (instant : Nat) :
    env.signalled instant = false ↔ instant < arrival := by
  rw [Env.signalled, arrives]
  simp

/-- A measurement that starts after the flag is set starts at that very instant. -/
theorem late_measurement_at_arrival (polled : WellPolled env history)
    (arrives : env.arrival = some arrival) {i : Nat} {action : Action count} (late : arrival ≤ i)
    (found : history[i]? = some action) (measures : action.isMeasurement = true) :
    i = arrival := by
  obtain ⟨positive, clear⟩ := polled.measurement i action found measures
  have before := (not_signalled_iff arrives (i - 1)).mp clear
  omega

theorem at_most_one_late_measurement (polled : WellPolled env history)
    (arrives : env.arrival = some arrival) :
    (history.drop arrival).countP Action.isMeasurement ≤ 1 := by
  have later : (history.drop (arrival + 1)).countP Action.isMeasurement = 0 := by
    rw [List.countP_eq_zero]
    intro action member measures
    obtain ⟨k, found⟩ := List.mem_iff_getElem?.mp member
    rw [List.getElem?_drop] at found
    have here := late_measurement_at_arrival polled arrives (by omega) found measures
    omega
  by_cases inside : arrival < history.length
  · rw [List.drop_eq_getElem_cons inside, List.countP_cons, later]
    split_ifs <;> omega
  · rw [List.drop_eq_nil_of_le (by omega)]
    simp

theorem late_pin_at_arrival (polled : WellPolled env history)
    (arrives : env.arrival = some arrival) {i : Nat} {cpu : CpuInfo} {pinned : Bool}
    (late : arrival ≤ i) (found : history[i]? = some (.pin cpu pinned)) :
    0 < i ∧ i = arrival ∧ history[i - 1]? = some (.poll (.core cpu) false) := by
  obtain ⟨positive, clear, poll⟩ := polled.pin i cpu pinned found
  have before := (not_signalled_iff arrives (i - 1)).mp clear
  exact ⟨positive, by omega, poll⟩

end AfterArrival

theorem interrupt_stops_the_sweep (env : Env count) (config : Config) (fuel arrival : Nat)
    (arrives : env.arrival = some arrival) (enough : arrival < fuel) :
    ∃ out, main env config fuel = some out ∧
      (out.world.history.drop arrival).countP Action.isMeasurement ≤ 1 ∧
      (∀ i cpu pinned, arrival ≤ i → out.world.history[i]? = some (.pin cpu pinned) →
        0 < i ∧ i = arrival ∧ out.world.history[i - 1]? = some (.poll (.core cpu) false)) ∧
      (config.probes.ch = true → .chSummary out.sweep.results config.selected.length
        out.sweep.skipped (chTotals out.sweep.results) ∈ out.world.log) ∧
      (config.probes.rbx = true → .rbxSummary out.sweep.rbxResults config.selected.length
        out.sweep.skipped (rbxTotals out.sweep.rbxResults) ∈ out.world.log) ∧
      (chTotals out.sweep.results).rounds = (roundsOf out.world.history).length ∧
      (chTotals out.sweep.results).detections =
        (roundsOf out.world.history).countP ChRun.differs ∧
      (rbxTotals out.sweep.rbxResults).passes = (passesOf out.world.history).length ∧
      (rbxTotals out.sweep.rbxResults).detections =
        (passesOf out.world.history).countP RbxRun.failed := by
  obtain ⟨out, ran⟩ := main_returns config arrives enough
  refine ⟨out, ran, ?_⟩
  obtain ⟨finished, history, _, _⟩ := main_spec ran
  obtain ⟨chPrinted, rbxPrinted⟩ := summaries_printed ran
  obtain ⟨⟨parts, partition, sums⟩, rbxParts, rbxPartition, rbxSums⟩ := totals_add_up finished
  have polled := finished.progress.polled
  rw [history]
  refine ⟨at_most_one_late_measurement polled arrives, ?_, chPrinted, rbxPrinted, ?_,
    ch_detections finished, ?_, rbx_detections finished⟩
  · intro i cpu pinned late found
    exact late_pin_at_arrival polled arrives late found
  · rw [sums.rounds, partition]
  · rw [rbxSums.passes, rbxPartition]

/-- The flag is set between the poll of the rbx loop and its first pass. -/
theorem interrupt_stops_the_sweep_before_a_pass :
    ∃ out, main (steadyMachine 1 (some 6)) rbxOnOneCore 7 = some out ∧
      (out.world.history.drop 6).countP Action.isMeasurement ≤ 1 ∧
      (rbxTotals out.sweep.rbxResults).passes = (passesOf out.world.history).length :=
  match interrupt_stops_the_sweep (steadyMachine 1 (some 6)) rbxOnOneCore 7 6 rfl (by decide) with
  | ⟨out, ran, atMostOne, _, _, _, _, _, passes, _⟩ => ⟨out, ran, atMostOne, passes⟩

section NothingTested

/-- The flag is found set at the poll before a core, and every pin before that
has failed. -/
def interruptedUnmeasured (env : Env count) : Nat → List CpuInfo → Bool
  | _, [] => false
  | instant, cpu :: rest =>
      env.signalled instant ||
        (!env.pin (instant + 1) cpu && interruptedUnmeasured env (instant + 2) rest)

/-- The number of actions before the core loop: the pin for calibration, and two
calls and two readings in each of the three probes of `calibrate_layers`. -/
def loopStart (config : Config) : Nat :=
  if config.probes.ch then (if config.layersGiven then 1 else 13) else 0

theorem prelude_time (env : Env count) (config : Config) :
    (prelude env config).world.time = loopStart config := by
  rw [prelude, loopStart]
  split_ifs
  · rfl
  · simp [calibrateLayers, probeNsPerSample, calibrationReading, calibrationRows, World.now,
      World.time]
  · rfl

variable {env : Env count} {config : Config} {fuel n : Nat} {cpu : CpuInfo} {rest : List CpuInfo}
  {sweep final : Sweep count}

theorem end_visit_counts {next : Sweep count} {coreInterrupted : Bool}
    (ended : endVisit config n next coreInterrupted = .again final ∨
      endVisit config n next coreInterrupted = .leave final) :
    final.measuredCores = next.measuredCores := by
  cases coreInterrupted with
  | true =>
      rw [endVisit, if_pos rfl] at ended
      rcases ended with again | left
      · cases again
      · rw [← FuelLoop.Trip.leave.inj left]
  | false =>
      rw [endVisit, if_neg Bool.false_ne_true] at ended
      rcases ended with again | left
      · rw [← FuelLoop.Trip.again.inj again]
      · cases left

/-- No visit takes back a measured core. -/
theorem visit_core_counts {trip : FuelLoop.Trip (Sweep count) (Sweep count)}
    (ran : visitCore env config fuel n cpu sweep = some trip)
    (result : trip = .again final ∨ trip = .leave final) :
    sweep.measuredCores ≤ final.measuredCores := by
  rcases visit_core_cases env config fuel n cpu sweep with
    ⟨_, stops⟩ | ⟨_, _, skips⟩ | ⟨_, _, measures⟩
  · rw [stops] at ran
    cases ran
    rcases result with again | left
    · cases again
    · cases left
      exact Nat.le_refl _
  · rw [skips] at ran
    cases ran
    rcases result with again | left
    · cases again
      exact Nat.le_refl _
    · cases left
  · rw [measures] at ran
    obtain ⟨⟨next, coreInterrupted⟩, measured, rfl⟩ := Option.map_eq_some_iff.mp ran
    have more := measure_core_counts measured
    rw [end_visit_counts result, more]
    exact Nat.le_succ _

theorem sweep_cores_counts (ran : sweepCores env config fuel n rest sweep = some final) :
    sweep.measuredCores ≤ final.measuredCores := by
  induction rest generalizing n sweep with
  | nil =>
      cases ran
      exact Nat.le_refl _
  | cons cpu rest ih =>
      obtain ⟨trip, visit, more⟩ := Option.bind_eq_some_iff.mp ran
      cases trip with
      | again next => exact Nat.le_trans (visit_core_counts visit (.inl rfl)) (ih more)
      | leave last =>
          cases more
          exact visit_core_counts visit (.inr rfl)

/-- Which sweeps end interrupted without a measured core. -/
theorem sweep_interrupted_unmeasured_iff
    (ran : sweepCores env config fuel n rest sweep = some final)
    (unmeasured : sweep.measuredCores = 0) (uninterrupted : sweep.interrupted = false) :
    (final.measuredCores = 0 ∧ final.interrupted = true) ↔
      interruptedUnmeasured env sweep.world.time rest = true := by
  induction rest generalizing n sweep with
  | nil =>
      cases ran
      simp [interruptedUnmeasured, uninterrupted]
  | cons cpu rest ih =>
      obtain ⟨trip, visit, more⟩ := Option.bind_eq_some_iff.mp ran
      rw [interruptedUnmeasured]
      rcases visit_core_cases env config fuel n cpu sweep with
        ⟨set, stops⟩ | ⟨clear, refused, skips⟩ | ⟨clear, pinned, measures⟩
      · rw [stops] at visit
        cases visit
        cases more
        simp [unmeasured, set]
      · rw [skips] at visit
        cases visit
        have later : ((opened env config n cpu sweep.world).print [.skipped cpu.index]).time =
            sweep.world.time + 2 := by
          simp [opened]
        rw [ih more unmeasured uninterrupted, later, clear, refused]
        simp
      · rw [measures] at visit
        obtain ⟨⟨next, coreInterrupted⟩, measured, rfl⟩ := Option.map_eq_some_iff.mp visit
        have counted := measure_core_counts measured
        have positive : next.measuredCores ≤ final.measuredCores := by
          cases coreInterrupted with
          | true =>
              cases more
              exact Nat.le_refl _
          | false => exact sweep_cores_counts more
        rw [clear, pinned]
        simp only [Bool.not_true, Bool.false_and, Bool.or_false, Bool.false_eq_true, iff_false,
          not_and]
        intro none
        omega

end NothingTested

section Outcomes

variable {env : Env count} {config : Config} {fuel : Nat} {out : Outcome count}

theorem out_interrupted_unmeasured_iff (ran : main env config fuel = some out) :
    (out.sweep.measuredCores = 0 ∧ out.sweep.interrupted = true) ↔
      interruptedUnmeasured env (loopStart config) config.selected = true := by
  obtain ⟨sweep, swept, rfl⟩ := Option.map_eq_some_iff.mp ran
  obtain ⟨_, _, _, measuredCores, interrupted, _⟩ := prelude_fields env config
  rw [sweep_interrupted_unmeasured_iff swept measuredCores interrupted, prelude_time]

/-- Exit code 2 and its result line come together, when no core was measured. -/
theorem nothing_tested_printed_iff (ran : main env config fuel = some out) :
    (out.exitCode = kExitUsage ∧ .nothingTested ∈ out.world.log) ↔
      out.sweep.measuredCores = 0 := by
  constructor
  · intro printed
    obtain ⟨_, member⟩ := printed
    by_contra measured
    rw [result_line_in_verdict ran rfl, mem_verdict_iff measured] at member
    rcases member with ⟨_, line⟩ | ⟨_, _, line⟩ | ⟨_, line⟩
    · cases ch_verdict_result line rfl
    · cases line
    · cases rbx_verdict_result line rfl
  · intro unmeasured
    refine ⟨exit_code_unmeasured ran unmeasured, ?_⟩
    rw [result_line_in_verdict ran rfl, verdict, if_pos unmeasured]
    exact List.mem_singleton_self _

/-- Without an interrupt, no measured core means that every pin failed. -/
theorem all_pins_failed_iff (ran : main env config fuel = some out) :
    pinsOf out.world.history = config.selected.map (fun cpu => (cpu, false)) ↔
      out.sweep.measuredCores = 0 ∧ ¬out.sweep.interrupted = true := by
  obtain ⟨finished, history, _, _⟩ := main_spec ran
  rw [history]
  constructor
  · intro failed
    have unmeasured : out.sweep.measuredCores = 0 := by
      rw [← finished.measured, measuredOf, failed, List.filter_map]
      simp
    refine ⟨unmeasured, fun interrupted => ?_⟩
    have cut := finished.cut interrupted unmeasured
    rw [failed, List.length_map] at cut
    exact absurd cut (Nat.lt_irrefl _)
  · intro unmeasuredWhole
    obtain ⟨unmeasured, whole⟩ := unmeasuredWhole
    have visiting := finished.complete (Bool.eq_false_of_not_eq_true whole)
    have noCore := finished.measured.trans unmeasured
    rw [measuredOf, List.length_map, List.length_eq_zero_iff, List.filter_eq_nil_iff] at noCore
    rw [← visiting.visits, List.map_map]
    refine (List.map_id _).symm.trans (List.map_congr_left ?_)
    rintro ⟨cpu, pinned⟩ member
    have refused := noCore _ member
    cases pinned with
    | false => rfl
    | true => exact absurd rfl refused

theorem nothing_tested_iff (ran : main env config fuel = some out) :
    (((out.exitCode = kExitUsage ∧ .nothingTested ∈ out.world.log) ↔
        pinsOf out.world.history = config.selected.map (fun cpu => (cpu, false))) ∧
      (SawInterrupt out.world.history → ¬Detects out.world.history →
        out.exitCode = kExitInterrupted)) ↔
    interruptedUnmeasured env (loopStart config) config.selected = false := by
  obtain ⟨finished, history, _, _⟩ := main_spec ran
  rw [nothing_tested_printed_iff ran, all_pins_failed_iff ran, history, ← finished.progress.flag,
    ← Bool.not_eq_true, ← out_interrupted_unmeasured_iff ran, ← history]
  constructor
  · intro claimed stopped
    obtain ⟨onlyPins, _⟩ := claimed
    obtain ⟨unmeasured, interrupted⟩ := stopped
    exact (onlyPins.mp unmeasured).2 interrupted
  · intro measuredOrWhole
    refine ⟨⟨fun unmeasured => ⟨unmeasured, fun interrupted =>
      measuredOrWhole ⟨unmeasured, interrupted⟩⟩, And.left⟩, ?_⟩
    intro interrupted none
    have measured : out.sweep.measuredCores ≠ 0 :=
      fun unmeasured => measuredOrWhole ⟨unmeasured, interrupted⟩
    refine (exit_code_iff ran measured).2.1.mpr ⟨none, ?_⟩
    rw [history]
    exact finished.progress.flag.mp interrupted

end Outcomes

/-- The flag is set while the first visit waits for its pin: the core is measured
and the exit code is 4. -/
theorem nothing_tested_iff_during_the_pin :
    ∃ out, main (steadyMachine 1 (some 1)) rbxOnOneCore 2 = some out ∧
      (SawInterrupt out.world.history → ¬Detects out.world.history →
        out.exitCode = kExitInterrupted) := by
  have arrives : (steadyMachine 1 (some 1)).arrival = some 1 := rfl
  obtain ⟨out, ran⟩ := main_returns rbxOnOneCore arrives (Nat.lt_succ_self 1)
  exact ⟨out, ran, ((nothing_tested_iff ran).mpr (by decide)).2⟩

/-- The flag is set before the first core: no pin was tried, and the report says
that pinning failed on every selected core. -/
theorem interrupted_before_the_first_core :
    ∃ out, main (steadyMachine 1 (some 0)) rbxOnOneCore 1 = some out ∧
      out.exitCode = kExitUsage ∧ .nothingTested ∈ out.world.log ∧
      pinsOf out.world.history = [] ∧ SawInterrupt out.world.history ∧
      ¬(((out.exitCode = kExitUsage ∧ .nothingTested ∈ out.world.log) ↔
          pinsOf out.world.history = rbxOnOneCore.selected.map (fun cpu => (cpu, false))) ∧
        (SawInterrupt out.world.history → ¬Detects out.world.history →
          out.exitCode = kExitInterrupted)) := by
  refine ⟨_, rfl, rfl, by decide, rfl, ⟨_, List.mem_singleton_self _⟩, ?_⟩
  intro claimed
  obtain ⟨onlyPins, _⟩ := claimed
  exact absurd (onlyPins.mp (by decide)) (by decide)

end SdcProbe.InterruptedSweep
