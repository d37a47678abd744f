import SdcProbe.SweepAccounts

/-!
# One visit, and all of them

The four ways a visit can end: the flag was already set, the pin failed, both
probes ran to their deadline, or one of them was interrupted. Each of them keeps
the invariant of the core loop or closes the books.
-/

namespace SdcProbe.SweepInvariant

open Report Environment TimedRun CoreSweep SweepAccounts

set_option autoImplicit false

variable {count : Nat}

/-- The indices of the measured cores, for a probe that runs on them. -/
def coresOf (selected : Bool) (history : List (Action count)) : List Nat :=
  if selected then (measuredOf history).map CpuInfo.index else []

/-- The invariant of the core loop after visits to these cores. -/
structure Visiting (env : Env count) (config : Config) (visited : List CpuInfo)
    (sweep : Sweep count) : Prop where
  progress : Progress env config.minutes sweep.world.history sweep.results sweep.rbxResults false
  plain : ∀ line ∈ sweep.world.log, line.Plain
  uninterrupted : sweep.interrupted = false
  visits : (pinsOf sweep.world.history).map Prod.fst = visited
  measured : (measuredOf sweep.world.history).length = sweep.measuredCores
  counted : sweep.measuredCores + sweep.skipped = visited.length
  chCores : sweep.results.map RunResult.cpuIndex = coresOf config.probes.ch sweep.world.history
  rbxCores : sweep.rbxResults.map RbxRunResult.cpuIndex =
    coresOf config.probes.rbx sweep.world.history

/-- The rbx results cover the measured cores, but for the last one when its ch
run was interrupted. -/
def RbxCovers (config : Config) (sweep : Sweep count) : Prop :=
  sweep.rbxResults.map RbxRunResult.cpuIndex =
      coresOf config.probes.rbx sweep.world.history ∨
    (config.probes.ch = true ∧ config.probes.rbx = true ∧
      sweep.rbxResults.map RbxRunResult.cpuIndex =
        (coresOf config.probes.rbx sweep.world.history).dropLast ∧
      sweep.rbxResults.length + 1 = sweep.measuredCores ∧
      ∃ last, sweep.results.getLast? = some last ∧ last.interrupted = true)

/-- What holds when the core loop is left, by a break or at the end. -/
structure Finished (env : Env count) (config : Config) (sweep : Sweep count) : Prop where
  progress : Progress env config.minutes sweep.world.history sweep.results sweep.rbxResults
    sweep.interrupted
  noResult : ∀ line ∈ sweep.world.log, line.isResult = false
  visits : (pinsOf sweep.world.history).map Prod.fst <+: config.selected
  measured : (measuredOf sweep.world.history).length = sweep.measuredCores
  counted : sweep.measuredCores + sweep.skipped = (pinsOf sweep.world.history).length
  announced : sweep.measuredCores + sweep.skipped + announced sweep.world.log =
    config.selected.length
  chCores : sweep.results.map RunResult.cpuIndex = coresOf config.probes.ch sweep.world.history
  rbxCores : RbxCovers config sweep
  cut : sweep.interrupted = true → sweep.measuredCores = 0 →
    (pinsOf sweep.world.history).length < config.selected.length
  complete : sweep.interrupted = false → Visiting env config config.selected sweep

/-- What the parts of a visit after the pin leave alone. -/
structure Within (before after : Sweep count) : Prop where
  pins : pinsOf after.world.history = pinsOf before.world.history
  skipped : after.skipped = before.skipped
  measuredCores : after.measuredCores = before.measuredCores
  interrupted : after.interrupted = before.interrupted

section OneVisit

variable {env : Env count} {config : Config} {fuel n : Nat} {cpu : CpuInfo}
  {sweep next : Sweep count}

/-- The books after one part of a visit. -/
structure Booked (env : Env count) (config : Config) (sweep : Sweep count) (interrupted : Bool) :
    Prop where
  progress : Progress env config.minutes sweep.world.history sweep.results sweep.rbxResults
    interrupted
  plain : ∀ line ∈ sweep.world.log, line.Plain

theorem plain_print {world : World count} {line : Line} (plain : ∀ old ∈ world.log, old.Plain)
    (added : line.Plain) : ∀ other ∈ (world.print [line]).log, other.Plain :=
  forall_mem_append_singleton.mpr ⟨plain, added⟩

theorem visit_ch_within {coreInterrupted : Bool}
    (ran : visitCh env config fuel cpu sweep = some (next, coreInterrupted)) :
    Within sweep next := by
  rw [visitCh] at ran
  split_ifs at ran
  · obtain ⟨⟨after, work, result⟩, measured, same⟩ := Option.bind_eq_some_iff.mp ran
    cases same
    obtain ⟨events, lines, framed, _⟩ := ChRun.run_on_current_cpu_spec measured
    have pins := ran_pins framed
    exact ⟨pins, rfl, rfl, rfl⟩
  · cases ran
    exact ⟨rfl, rfl, rfl, rfl⟩

theorem visit_rbx_within {chInterrupted coreInterrupted : Bool}
    (ran : visitRbx env config fuel cpu sweep chInterrupted = some (next, coreInterrupted)) :
    Within sweep next := by
  rw [visitRbx] at ran
  split_ifs at ran
  · obtain ⟨⟨after, result⟩, measured, same⟩ := Option.bind_eq_some_iff.mp ran
    cases same
    obtain ⟨events, lines, framed, _⟩ := RbxRun.run_rbx_on_current_cpu_spec measured
    have pins := ran_pins framed
    exact ⟨pins, rfl, rfl, rfl⟩
  · cases ran
    exact ⟨rfl, rfl, rfl, rfl⟩

theorem visit_ch_spec {coreInterrupted : Bool} (booked : Booked env config sweep false)
    (ran : visitCh env config fuel cpu sweep = some (next, coreInterrupted)) :
    Booked env config next coreInterrupted ∧ next.rbxResults = sweep.rbxResults ∧
      next.results.map RunResult.cpuIndex =
        sweep.results.map RunResult.cpuIndex ++ (if config.probes.ch then [cpu.index] else []) ∧
      (coreInterrupted = true → config.probes.ch = true ∧
        ∃ last, next.results.getLast? = some last ∧ last.interrupted = true) := by
  rw [visitCh] at ran
  split_ifs at ran with ch
  · obtain ⟨⟨after, work, result⟩, measured, same⟩ := Option.bind_eq_some_iff.mp ran
    cases same
    obtain ⟨events, lines, framed, core, _⟩ := ChRun.run_on_current_cpu_spec measured
    have progress := progress_ch_run booked.progress measured
    refine ⟨⟨progress, plain_print (ran_plain framed booked.plain) ⟨rfl, rfl⟩⟩, rfl, ?_, ?_⟩
    · rw [if_pos ch, List.map_append, List.map_singleton, core]
    · intro interrupted
      exact ⟨ch, result, by simp, interrupted⟩
  · cases ran
    refine ⟨booked, rfl, ?_, ?_⟩
    · rw [if_neg ch, List.append_nil]
    · intro interrupted
      cases interrupted

theorem visit_rbx_spec {chInterrupted coreInterrupted : Bool}
    (booked : Booked env config sweep chInterrupted)
    (ran : visitRbx env config fuel cpu sweep chInterrupted = some (next, coreInterrupted)) :
    Booked env config next coreInterrupted ∧ next.results = sweep.results ∧
      ((chInterrupted = true ∧ coreInterrupted = true ∧ next.rbxResults = sweep.rbxResults) ∨
        next.rbxResults.map RbxRunResult.cpuIndex = sweep.rbxResults.map RbxRunResult.cpuIndex ++
          (if config.probes.rbx then [cpu.index] else [])) := by
  rw [visitRbx] at ran
  split_ifs at ran with rbx
  · obtain ⟨rbxSelected, whole⟩ := Bool.and_eq_true_iff.mp rbx
    rw [Bool.not_eq_true'] at whole
    subst whole
    obtain ⟨⟨after, result⟩, measured, same⟩ := Option.bind_eq_some_iff.mp ran
    cases same
    obtain ⟨events, lines, framed, core, _⟩ := RbxRun.run_rbx_on_current_cpu_spec measured
    have progress := progress_rbx_run booked.progress measured
    refine ⟨⟨progress, plain_print (ran_plain framed booked.plain) ⟨rfl, rfl⟩⟩, rfl, .inr ?_⟩
    rw [if_pos rbxSelected, List.map_append, List.map_singleton, core]
  · cases ran
    refine ⟨booked, rfl, ?_⟩
    cases chInterrupted with
    | true => exact .inl ⟨rfl, rfl, rfl⟩
    | false =>
        right
        rw [if_neg (fun selected => rbx (by rw [selected]; rfl)), List.append_nil]

/-- Verifying the pin leaves one action, and a warning perhaps. -/
theorem verify_pin_spec (env : Env count) (cpu : CpuInfo) (world : World count)
    (plain : ∀ line ∈ world.log, line.Plain) :
    (verifyPin env world cpu).history =
        world.history ++ [.verifyPin cpu (env.verifyPin world.time cpu)] ∧
      ∀ line ∈ (verifyPin env world cpu).log, line.Plain := by
  simp only [verifyPin]
  split_ifs with problem
  · exact ⟨rfl, plain_print plain ⟨rfl, rfl⟩⟩
  · exact ⟨rfl, plain⟩

theorem measure_core_counts {coreInterrupted : Bool}
    (ran : measureCore env config fuel cpu sweep = some (next, coreInterrupted)) :
    next.measuredCores = sweep.measuredCores + 1 := by
  obtain ⟨⟨middle, chInterrupted⟩, chRan, rest⟩ := Option.bind_eq_some_iff.mp ran
  obtain ⟨⟨last, rbxInterrupted⟩, rbxRan, same⟩ := Option.bind_eq_some_iff.mp rest
  cases same
  exact (visit_rbx_within rbxRan).measuredCores.trans (visit_ch_within chRan).measuredCores

/-- A visit to a pinned core: a ch result for it, and an rbx result unless the ch
run was interrupted. -/
theorem measure_core_spec {coreInterrupted : Bool} (booked : Booked env config sweep false)
    (ran : measureCore env config fuel cpu sweep = some (next, coreInterrupted)) :
    Booked env config next coreInterrupted ∧
      pinsOf next.world.history = pinsOf sweep.world.history ∧
      next.skipped = sweep.skipped ∧ next.measuredCores = sweep.measuredCores + 1 ∧
      next.interrupted = sweep.interrupted ∧
      next.results.map RunResult.cpuIndex =
        sweep.results.map RunResult.cpuIndex ++ (if config.probes.ch then [cpu.index] else []) ∧
      ((config.probes.ch = true ∧ coreInterrupted = true ∧
          next.rbxResults = sweep.rbxResults ∧
          ∃ last, next.results.getLast? = some last ∧ last.interrupted = true) ∨
        next.rbxResults.map RbxRunResult.cpuIndex = sweep.rbxResults.map RbxRunResult.cpuIndex ++
          (if config.probes.rbx then [cpu.index] else [])) := by
  obtain ⟨verified, plain⟩ := verify_pin_spec env cpu sweep.world booked.plain
  have progress := progress_record (.verifyPin cpu (env.verifyPin sweep.world.time cpu)) false
    booked.progress rfl (by simp)
    (well_polled_quiet booked.progress.polled rfl (by simp)) (by simp)
  rw [← verified] at progress
  have pins : pinsOf (verifyPin env sweep.world cpu).history = pinsOf sweep.world.history := by
    rw [verified, pins_of_append]
    exact List.append_nil _
  have counted := measure_core_counts ran
  obtain ⟨⟨middle, chInterrupted⟩, chRan, rest⟩ := Option.bind_eq_some_iff.mp ran
  obtain ⟨⟨last, rbxInterrupted⟩, rbxRan, same⟩ := Option.bind_eq_some_iff.mp rest
  cases same
  have chWithin := visit_ch_within chRan
  have rbxWithin := visit_rbx_within rbxRan
  obtain ⟨chBooked, rbxResults, chCores, chStopped⟩ := visit_ch_spec ⟨progress, plain⟩ chRan
  obtain ⟨rbxBooked, results, rbxCores⟩ := visit_rbx_spec chBooked rbxRan
  refine ⟨⟨rbxBooked.progress, plain_print rbxBooked.plain ⟨rfl, rfl⟩⟩,
    rbxWithin.pins.trans (chWithin.pins.trans pins), rbxWithin.skipped.trans chWithin.skipped,
    counted, rbxWithin.interrupted.trans chWithin.interrupted, ?_, ?_⟩
  · rw [← chCores]
    exact congrArg _ results
  · rcases rbxCores with ⟨stopped, interrupted, unchanged⟩ | covered
    · obtain ⟨ch, result, isLast, flagged⟩ := chStopped stopped
      exact .inl ⟨ch, interrupted, unchanged.trans rbxResults, result, by rw [← isLast, ← results],
        flagged⟩
    · refine .inr (covered.trans ?_)
      rw [rbxResults]

/-- The world in which a visit learns whether the pin succeeded. -/
def opened (env : Env count) (config : Config) (n : Nat) (cpu : CpuInfo) (world : World count) :
    World count :=
  ((world.record (.poll (.core cpu) false)).print
      [.core cpu.index (n + 1) config.selected.length]).record
    (.pin cpu (env.pin (world.time + 1) cpu))

/-- Everything one visit can do. -/
theorem visit_core_cases (env : Env count) (config : Config) (fuel n : Nat) (cpu : CpuInfo)
    (sweep : Sweep count) :
    (env.signalled sweep.world.time = true ∧
      visitCore env config fuel n cpu sweep = some (.leave { sweep with
        interrupted := true
        world := (sweep.world.record (.poll (.core cpu) true)).print
          [.interruptedBefore cpu.index (config.selected.length - n)] })) ∨
    (env.signalled sweep.world.time = false ∧ env.pin (sweep.world.time + 1) cpu = false ∧
      visitCore env config fuel n cpu sweep = some (.again { sweep with
        world := (opened env config n cpu sweep.world).print [.skipped cpu.index]
        skipped := sweep.skipped + 1 })) ∨
    (env.signalled sweep.world.time = false ∧ env.pin (sweep.world.time + 1) cpu = true ∧
      visitCore env config fuel n cpu sweep =
        (measureCore env config fuel cpu
          { sweep with world := opened env config n cpu sweep.world }).map
            fun measured => endVisit config n measured.1 measured.2) := by
  cases requested : env.signalled sweep.world.time with
  | true =>
      left
      refine ⟨rfl, ?_⟩
      simp [visitCore, World.interruptRequested, requested]
  | false =>
      right
      cases pinned : env.pin (sweep.world.time + 1) cpu with
      | false =>
          left
          refine ⟨rfl, rfl, ?_⟩
          simp [visitCore, World.interruptRequested, requested, pinToCpu, pinned, opened]
      | true =>
          right
          refine ⟨rfl, rfl, ?_⟩
          simp [visitCore, World.interruptRequested, requested, pinToCpu, pinned, opened]

end OneVisit

theorem measured_of_same_pins {left right : List (Action count)}
    (same : pinsOf left = pinsOf right) : measuredOf left = measuredOf right := by
  rw [measuredOf, measuredOf, same]

theorem measured_of_one_more_pin {left right : List (Action count)} {cpu : CpuInfo} {pinned : Bool}
    (more : pinsOf right = pinsOf left ++ [(cpu, pinned)]) :
    measuredOf right = measuredOf left ++ (if pinned then [cpu] else []) := by
  rw [measuredOf, measuredOf, more]
  cases pinned <;> simp

theorem cores_of_same_pins {selected : Bool} {left right : List (Action count)}
    (same : pinsOf left = pinsOf right) : coresOf selected left = coresOf selected right := by
  rw [coresOf, coresOf, measured_of_same_pins same]

theorem cores_of_one_more_pin {selected : Bool} {left right : List (Action count)} {cpu : CpuInfo}
    {pinned : Bool} (more : pinsOf right = pinsOf left ++ [(cpu, pinned)]) :
    coresOf selected right =
      coresOf selected left ++ (if pinned && selected then [cpu.index] else []) := by
  rw [coresOf, coresOf, measured_of_one_more_pin more]
  cases pinned <;> cases selected <;> simp

section Visits

variable {env : Env count} {config : Config} {visited rest : List CpuInfo} {cpu : CpuInfo}
  {sweep : Sweep count}

theorem opened_pins (env : Env count) (config : Config) (n : Nat) (cpu : CpuInfo)
    (world : World count) :
    pinsOf (opened env config n cpu world).history =
      pinsOf world.history ++ [(cpu, env.pin (world.time + 1) cpu)] := by
  simp [opened, pinsOf]

theorem opened_booked (visiting : Visiting env config visited sweep)
    (clear : env.signalled sweep.world.time = false) (n : Nat) (cpu : CpuInfo) :
    Booked env config { sweep with world := opened env config n cpu sweep.world } false := by
  have polled : WellPolled env (sweep.world.history ++ [.poll (.core cpu) false]) :=
    well_polled_quiet visiting.progress.polled rfl (by simp)
  have afterPoll := progress_record _ false visiting.progress rfl (by simp) polled (by simp)
  have pinPolled : WellPolled env (sweep.world.history ++ [.poll (.core cpu) false] ++
      [.pin cpu (env.pin (sweep.world.time + 1) cpu)]) := by
    apply well_polled_record polled
    · intro measures
      cases measures
    · intro other pinned same
      cases same
      refine ⟨by simp, ?_, by simp⟩
      rw [List.length_append, List.length_singleton, Nat.add_sub_cancel]
      exact clear
  have afterPin := progress_record _ false afterPoll rfl (by simp) pinPolled (by simp)
  have header : (Line.core cpu.index (n + 1) config.selected.length).Plain := ⟨rfl, rfl⟩
  exact ⟨afterPin, plain_print visiting.plain header⟩

/-- A break closes the books when the cores it announces are the ones left. -/
theorem break_finished (next : Sweep count) (world : World count) (added : List Line)
    (booked : Booked env config next true)
    (visits : (pinsOf next.world.history).map Prod.fst <+: config.selected)
    (measured : (measuredOf next.world.history).length = next.measuredCores)
    (counted : next.measuredCores + next.skipped = (pinsOf next.world.history).length)
    (chCores : next.results.map RunResult.cpuIndex = coresOf config.probes.ch next.world.history)
    (rbxCores : RbxCovers config next)
    (cut : next.measuredCores = 0 →
      (pinsOf next.world.history).length < config.selected.length)
    (grown : Grown next.world world [] added) (noResult : ∀ line ∈ added, line.isResult = false)
    (total : next.measuredCores + next.skipped + announced added = config.selected.length) :
    Finished env config { next with interrupted := true, world := world } := by
  obtain ⟨history, log⟩ := world
  obtain ⟨sameHistory, grownLog⟩ := grown
  rw [List.append_nil] at sameHistory
  simp only at sameHistory grownLog
  subst sameHistory grownLog
  have before := announced_of_plain booked.plain
  constructor
  · exact booked.progress
  · exact List.forall_mem_append.mpr ⟨fun line member => (booked.plain line member).1, noResult⟩
  · exact visits
  · exact measured
  · exact counted
  · rw [announced_append, before, Nat.zero_add]
    exact total
  · exact chCores
  · exact rbxCores
  · intro _
    exact cut
  · intro whole
    cases whole

/-- The flag was already set when the core was reached. -/
theorem interrupted_before_finished (visiting : Visiting env config visited sweep)
    (split : config.selected = visited ++ cpu :: rest) :
    Finished env config { sweep with
      interrupted := true
      world := (sweep.world.record (.poll (.core cpu) true)).print
        [.interruptedBefore cpu.index (config.selected.length - visited.length)] } := by
  have progress := progress_record (.poll (.core cpu) true) true visiting.progress rfl (by simp)
    (well_polled_quiet visiting.progress.polled rfl (by simp)) (by simp)
  have pins : pinsOf (sweep.world.record (.poll (.core cpu) true)).history =
      pinsOf sweep.world.history := by
    rw [World.record_history, pins_of_append]
    exact List.append_nil _
  have attempts : (pinsOf sweep.world.history).length = visited.length := by
    rw [← visiting.visits, List.length_map]
  have inside : visited.length < config.selected.length := by
    rw [split, List.length_append, List.length_cons]
    omega
  apply break_finished { sweep with world := sweep.world.record (.poll (.core cpu) true) } _ _
    ⟨progress, visiting.plain⟩
  · rw [pins, visiting.visits, split]
    exact List.prefix_append _ _
  · rw [measured_of_same_pins pins]
    exact visiting.measured
  · rw [pins, visiting.counted, attempts]
  · rw [cores_of_same_pins pins]
    exact visiting.chCores
  · left
    rw [cores_of_same_pins pins]
    exact visiting.rbxCores
  · intro _
    rw [pins, attempts]
    exact inside
  · exact (grown_refl _).print _
  · simp [Line.isResult]
  · have counted := visiting.counted
    simp only [announced, List.nil_append, List.map_singleton, List.sum_singleton, Line.notTested]
    omega

theorem skipped_visiting (visiting : Visiting env config visited sweep)
    (clear : env.signalled sweep.world.time = false)
    (refused : env.pin (sweep.world.time + 1) cpu = false) (n : Nat) :
    Visiting env config (visited ++ [cpu]) { sweep with
      world := (opened env config n cpu sweep.world).print [.skipped cpu.index]
      skipped := sweep.skipped + 1 } := by
  obtain ⟨progress, plain⟩ := opened_booked visiting clear n cpu
  have pins := opened_pins env config n cpu sweep.world
  rw [refused] at pins
  constructor
  · exact progress
  · exact plain_print plain ⟨rfl, rfl⟩
  · exact visiting.uninterrupted
  · rw [World.print_history, pins, List.map_append, visiting.visits]
    rfl
  · rw [World.print_history, measured_of_one_more_pin pins]
    simpa using visiting.measured
  · have counted := visiting.counted
    simp only [List.length_append, List.length_singleton]
    omega
  · rw [World.print_history, cores_of_one_more_pin pins]
    simpa using visiting.chCores
  · rw [World.print_history, cores_of_one_more_pin pins]
    simpa using visiting.rbxCores

/-- Both probes ran to their deadline, or one was stopped by the interrupt. -/
theorem measured_visit_spec {fuel n : Nat} {next : Sweep count} {coreInterrupted : Bool}
    (visiting : Visiting env config visited sweep)
    (clear : env.signalled sweep.world.time = false)
    (pinned : env.pin (sweep.world.time + 1) cpu = true)
    (ran : measureCore env config fuel cpu
      { sweep with world := opened env config n cpu sweep.world } = some (next, coreInterrupted)) :
    Booked env config next coreInterrupted ∧
      (pinsOf next.world.history).map Prod.fst = visited ++ [cpu] ∧
      (measuredOf next.world.history).length = next.measuredCores ∧
      next.measuredCores + next.skipped = visited.length + 1 ∧ next.interrupted = false ∧
      next.results.map RunResult.cpuIndex = coresOf config.probes.ch next.world.history ∧
      ((coreInterrupted = true ∧ RbxCovers config next) ∨
        next.rbxResults.map RbxRunResult.cpuIndex =
          coresOf config.probes.rbx next.world.history) := by
  obtain ⟨booked, within, skipped, measuredCores, interrupted, chCores, rbxCores⟩ :=
    measure_core_spec (opened_booked visiting clear n cpu) ran
  have pins := within.trans (opened_pins env config n cpu sweep.world)
  rw [pinned] at pins
  have length : (measuredOf next.world.history).length = next.measuredCores := by
    rw [measured_of_one_more_pin pins, measuredCores, ← visiting.measured]
    simp
  refine ⟨booked, ?_, length, ?_, interrupted.trans visiting.uninterrupted, ?_, ?_⟩
  · rw [pins, List.map_append, visiting.visits]
    rfl
  · have counted := visiting.counted
    simp only at skipped measuredCores
    omega
  · rw [chCores, cores_of_one_more_pin pins, ← visiting.chCores, Bool.true_and]
  · rcases rbxCores with ⟨ch, stopped, unchanged, last⟩ | covered
    · left
      refine ⟨stopped, ?_⟩
      cases rbx : config.probes.rbx with
      | false =>
          left
          rw [unchanged, visiting.rbxCores, rbx]
          rfl
      | true =>
          right
          have before := visiting.rbxCores
          refine ⟨ch, rbx, ?_, ?_, last⟩
          · rw [unchanged, visiting.rbxCores, cores_of_one_more_pin pins, rbx]
            exact List.dropLast_concat.symm
          · have lengths := congrArg List.length before
            rw [rbx, coresOf, if_pos rfl, List.length_map, List.length_map,
              visiting.measured] at lengths
            rw [unchanged, measuredCores]
            exact congrArg (· + 1) lengths
    · right
      rw [covered, cores_of_one_more_pin pins, ← visiting.rbxCores, Bool.true_and]

/-- The announcement after an interrupted core closes the count of the cores. -/
theorem stopped_visit_finished {fuel : Nat} {next : Sweep count}
    (visiting : Visiting env config visited sweep)
    (split : config.selected = visited ++ cpu :: rest)
    (clear : env.signalled sweep.world.time = false)
    (pinned : env.pin (sweep.world.time + 1) cpu = true)
    (ran : measureCore env config fuel cpu
      { sweep with world := opened env config visited.length cpu sweep.world } =
        some (next, true)) :
    ∃ final, endVisit config visited.length next true = .leave final ∧
      Finished env config final := by
  obtain ⟨booked, visits, measured, counted, _, chCores, rbxCores⟩ :=
    measured_visit_spec visiting clear pinned ran
  have remaining : config.selected.length - (visited.length + 1) = rest.length := by
    rw [split, List.length_append, List.length_cons]
    omega
  have total : next.measuredCores + next.skipped + rest.length = config.selected.length := by
    rw [counted, split, List.length_append, List.length_cons]
    omega
  have order : (pinsOf next.world.history).map Prod.fst <+: config.selected := by
    rw [visits, split]
    exact ⟨rest, (List.append_cons visited cpu rest).symm⟩
  have attempts : next.measuredCores + next.skipped = (pinsOf next.world.history).length := by
    rw [counted, ← List.length_map (f := Prod.fst), visits, List.length_append]
    rfl
  have covers : RbxCovers config next := by
    rcases rbxCores with ⟨_, covers⟩ | covers
    · exact covers
    · exact .inl covers
  have cut : next.measuredCores = 0 →
      (pinsOf next.world.history).length < config.selected.length := by
    intro unmeasured
    rw [measure_core_counts ran] at unmeasured
    cases unmeasured
  have close := fun world added => break_finished next world added booked order measured attempts
    chCores covers cut
  simp only [endVisit, if_true, remaining]
  refine ⟨_, rfl, ?_⟩
  split_ifs with more
  · apply close _ _ ((grown_refl _).print _)
    · simp [Line.isResult]
    · simpa [announced, Line.notTested] using total
  · apply close _ _ (grown_refl _)
    · simp
    · have last : rest.length = 0 := not_not.mp more
      rw [last] at total
      exact total

/-- One iteration of the core loop. -/
theorem visit_core_spec {fuel : Nat} {trip : FuelLoop.Trip (Sweep count) (Sweep count)}
    (visiting : Visiting env config visited sweep)
    (split : config.selected = visited ++ cpu :: rest)
    (ran : visitCore env config fuel visited.length cpu sweep = some trip) :
    (∃ next, trip = .again next ∧ Visiting env config (visited ++ [cpu]) next) ∨
      ∃ final, trip = .leave final ∧ Finished env config final := by
  rcases visit_core_cases env config fuel visited.length cpu sweep with
    ⟨_, stops⟩ | ⟨clear, refused, skips⟩ | ⟨clear, pinned, measures⟩
  · rw [stops] at ran
    cases ran
    exact .inr ⟨_, rfl, interrupted_before_finished visiting split⟩
  · rw [skips] at ran
    cases ran
    exact .inl ⟨_, rfl, skipped_visiting visiting clear refused _⟩
  · rw [measures] at ran
    obtain ⟨⟨next, coreInterrupted⟩, measured, rfl⟩ := Option.map_eq_some_iff.mp ran
    cases coreInterrupted with
    | true =>
        obtain ⟨final, left, finished⟩ :=
          stopped_visit_finished visiting split clear pinned measured
        exact .inr ⟨final, left, finished⟩
    | false =>
        left
        obtain ⟨booked, visits, length, counted, uninterrupted, chCores, rbxCores⟩ :=
          measured_visit_spec visiting clear pinned measured
        refine ⟨next, rfl, booked.progress, booked.plain, uninterrupted, visits, length, ?_,
          chCores, ?_⟩
        · rw [counted, List.length_append]
          rfl
        · rcases rbxCores with ⟨stopped, _⟩ | covers
          · cases stopped
          · exact covers

/-- At the end of the list the books close without an interrupt. -/
theorem visiting_finished (visiting : Visiting env config config.selected sweep) :
    Finished env config sweep where
  progress := by
    rw [visiting.uninterrupted]
    exact visiting.progress
  noResult line member := (visiting.plain line member).1
  visits := by rw [visiting.visits]
  measured := visiting.measured
  counted := by rw [visiting.counted, ← List.length_map (f := Prod.fst), visiting.visits]
  announced := by rw [announced_of_plain visiting.plain, visiting.counted, Nat.add_zero]
  chCores := visiting.chCores
  rbxCores := .inl visiting.rbxCores
  cut interrupted := by
    rw [visiting.uninterrupted] at interrupted
    cases interrupted
  complete _ := visiting

theorem sweep_cores_finished {fuel : Nat} {final : Sweep count}
    (visiting : Visiting env config visited sweep) (split : config.selected = visited ++ rest)
    (ran : sweepCores env config fuel visited.length rest sweep = some final) :
    Finished env config final := by
  induction rest generalizing visited sweep with
  | nil =>
      cases ran
      rw [List.append_nil] at split
      rw [← split] at visiting
      exact visiting_finished visiting
  | cons cpu rest ih =>
      obtain ⟨trip, visit, more⟩ := Option.bind_eq_some_iff.mp ran
      rcases visit_core_spec visiting split visit with
        ⟨next, rfl, kept⟩ | ⟨last, rfl, finished⟩
      · have longer : visited.length + 1 = (visited ++ [cpu]).length := by simp
        simp only [longer] at more
        exact ih kept (by rw [split, List.append_cons]) more
      · cases more
        exact finished

end Visits

end SdcProbe.SweepInvariant
