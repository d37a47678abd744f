import SdcProbe.CoreSweep
import Mathlib.Algebra.BigOperators.Group.List.Basic
import Mathlib.Data.List.Forall2

/-!
# What a sweep knows

The invariant of the core loop. The results stand for consecutive stretches of
the rounds and passes in the history, in order. While the sweep is under way no
poll has found the flag set and every result is a whole one, so that each has
measured something exactly when every timed run found its first test in time.
-/

namespace SdcProbe.SweepAccounts

open Report Environment TimedRun

set_option autoImplicit false

variable {count : Nat}

/-- The cores `sdc_pin_to_cpu` succeeded on, in the order of the visits. -/
def measuredOf (history : List (Action count)) : List CpuInfo :=
  ((pinsOf history).filter Prod.snd).map Prod.fst

/-- How many cores the report announces as not tested. -/
def announced (log : List Line) : Nat := (log.map Line.notTested).sum

/-- Every reading that sets a deadline is followed by one before that deadline. -/
def StartsInTime (env : Env count) (minutes : Nat) (history : List (Action count)) : Prop :=
  ∀ i value, history[i]? = some (.clock .start value) →
    env.clock (i + 1) < value + minutesToNanos minutes

theorem announced_append (left right : List Line) :
    announced (left ++ right) = announced left + announced right := by
  rw [announced, List.map_append, List.sum_append]
  rfl

theorem announced_eq_zero {log : List Line} (none : ∀ line ∈ log, line.notTested = 0) :
    announced log = 0 := by
  apply List.sum_eq_zero
  intro value member
  obtain ⟨line, inLog, rfl⟩ := List.mem_map.mp member
  exact none line inLog

theorem announced_of_plain {log : List Line} (plain : ∀ line ∈ log, line.Plain) :
    announced log = 0 :=
  announced_eq_zero fun line member => (plain line member).2

theorem starts_in_time_append_other {env : Env count} {minutes : Nat}
    {history events : List (Action count)} (noStart : ∀ value, .clock .start value ∉ events) :
    StartsInTime env minutes (history ++ events) ↔ StartsInTime env minutes history := by
  constructor
  · intro inTime i value found
    exact inTime i value (by
      rw [List.getElem?_append_left (List.getElem?_eq_some_iff.mp found).1, found])
  · intro inTime i value found
    by_cases before : i < history.length
    · rw [List.getElem?_append_left before] at found
      exact inTime i value found
    · rw [List.getElem?_append_right (by omega)] at found
      exact absurd (List.mem_of_getElem? found) (noStart value)

theorem starts_in_time_append_start {env : Env count} {minutes value : Nat}
    {history : List (Action count)} :
    StartsInTime env minutes (history ++ [.clock .start value]) ↔
      StartsInTime env minutes history ∧
        env.clock (history.length + 1) < value + minutesToNanos minutes := by
  constructor
  · intro inTime
    refine ⟨?_, inTime history.length value (by simp)⟩
    intro i value' found
    exact inTime i value' (by
      rw [List.getElem?_append_left (List.getElem?_eq_some_iff.mp found).1, found])
  · intro both i value' found
    obtain ⟨inTime, last⟩ := both
    by_cases before : i < history.length
    · rw [List.getElem?_append_left before] at found
      exact inTime i value' found
    · obtain rfl : i = history.length := by
        have bound := (List.getElem?_eq_some_iff.mp found).1
        rw [List.length_append, List.length_singleton] at bound
        omega
      simp only [List.getElem?_concat_length, Option.some.injEq, Action.clock.injEq,
        true_and] at found
      rwa [← found]

theorem measured_anything_iff (events : List (Action count)) :
    (∃ action ∈ events, action.isMeasurement = true) ↔
      0 < (roundsOf events).length ∨ 0 < (passesOf events).length := by
  induction events with
  | nil => simp [roundsOf, passesOf]
  | cons action rest ih =>
      rw [List.exists_mem_cons_iff, ih, ← List.singleton_append, rounds_of_append, passes_of_append,
        List.length_append, List.length_append]
      cases action <;> simp [Action.isMeasurement, roundsOf, passesOf]

section OneRun

variable {env : Env count} {minutes : Nat} {before after : World count} {interrupted : Bool}
  {events : List (Action count)} {lines : List Line}

theorem ran_pins (ran : Ran env minutes before after interrupted events lines) :
    pinsOf after.history = pinsOf before.history := by
  have none : pinsOf events = [] := by
    rw [pinsOf, List.filterMap_eq_nil_iff]
    intro action member
    have timed := ran.timed action member
    cases action <;> first | rfl | cases timed
  rw [ran.history, ← List.singleton_append, pins_of_append, pins_of_append, none]
  simp [pinsOf]

theorem ran_rounds (ran : Ran env minutes before after interrupted events lines) :
    roundsOf after.history = roundsOf before.history ++ roundsOf events := by
  rw [ran.history, rounds_of_append]
  rfl

theorem ran_passes (ran : Ran env minutes before after interrupted events lines) :
    passesOf after.history = passesOf before.history ++ passesOf events := by
  rw [ran.history, passes_of_append]
  rfl

theorem ran_saw_interrupt (ran : Ran env minutes before after interrupted events lines) :
    SawInterrupt after.history ↔ SawInterrupt before.history ∨ interrupted = true := by
  rw [ran.history, saw_interrupt_append, ran.flag]
  simp [SawInterrupt]

theorem ran_plain (ran : Ran env minutes before after interrupted events lines)
    (plain : ∀ line ∈ before.log, line.Plain) : ∀ line ∈ after.log, line.Plain := by
  rw [ran.log, List.forall_mem_append]
  exact ⟨plain, ran.plain⟩

theorem ran_starts_in_time (ran : Ran env minutes before after interrupted events lines)
    (whole : interrupted = false) :
    StartsInTime env minutes after.history ↔ StartsInTime env minutes before.history ∧
      (0 < (roundsOf events).length ∨ 0 < (passesOf events).length) := by
  have noStart : ∀ value, (.clock .start value : Action count) ∉ events :=
    fun value member => Bool.noConfusion (ran.timed _ member)
  rw [ran.history, List.append_cons, starts_in_time_append_other noStart,
    starts_in_time_append_start, ← measured_anything_iff, ran.firstTest whole, World.time]

end OneRun

/-- The state of the sweep, as far as the history and the results tell it. -/
structure Progress (env : Env count) (minutes : Nat) (history : List (Action count))
    (results : List RunResult) (rbxResults : List RbxRunResult) (interrupted : Bool) : Prop where
  polled : WellPolled env history
  rounds : ∃ parts, parts.flatten = roundsOf history ∧
    List.Forall₂ ChRun.Accounted parts results
  passes : ∃ parts, parts.flatten = passesOf history ∧
    List.Forall₂ RbxRun.Accounted parts rbxResults
  flag : interrupted = true ↔ SawInterrupt history
  whole : interrupted = false →
    (∀ r ∈ results, r.interrupted = false) ∧ ∀ r ∈ rbxResults, r.interrupted = false
  inTime : interrupted = false → (StartsInTime env minutes history ↔
    (∀ r ∈ results, 0 < r.rounds) ∧ ∀ r ∈ rbxResults, 0 < r.passes)

section Growing

variable {env : Env count} {minutes : Nat} {results : List RunResult}
  {rbxResults : List RbxRunResult}

theorem progress_ch_run {cpuIndex fuel : Nat} {before after : World count}
    {work work' : ChRun.Workspace count} {result : RunResult}
    (progress : Progress env minutes before.history results rbxResults false)
    (ran : ChRun.runOnCurrentCpu env cpuIndex minutes fuel before work =
      some (after, work', result)) :
    Progress env minutes after.history (results ++ [result]) rbxResults result.interrupted := by
  obtain ⟨events, lines, framed, _, noPass, _, accounted, _⟩ := ChRun.run_on_current_cpu_spec ran
  obtain ⟨parts, partition, each⟩ := progress.rounds
  constructor
  · exact framed.polled progress.polled
  · refine ⟨parts ++ [roundsOf events], ?_, List.rel_append each (.cons accounted .nil)⟩
    rw [List.flatten_append, partition, ran_rounds framed]
    simp
  · rw [ran_passes framed, noPass, List.append_nil]
    exact progress.passes
  · rw [ran_saw_interrupt framed, ← progress.flag]
    simp
  · intro whole
    obtain ⟨chWhole, rbxWhole⟩ := progress.whole rfl
    exact ⟨forall_mem_append_singleton.mpr ⟨chWhole, whole⟩, rbxWhole⟩
  · intro whole
    rw [ran_starts_in_time framed whole, progress.inTime rfl, noPass, ← accounted.rounds,
      forall_mem_append_singleton]
    simp only [List.length_nil, Nat.lt_irrefl, or_false]
    tauto

theorem progress_rbx_run {cpuIndex fuel : Nat} {before after : World count} {result : RbxRunResult}
    (progress : Progress env minutes before.history results rbxResults false)
    (ran : RbxRun.runRbxOnCurrentCpu env cpuIndex minutes fuel before = some (after, result)) :
    Progress env minutes after.history results (rbxResults ++ [result]) result.interrupted := by
  obtain ⟨events, lines, framed, _, noRound, accounted, _⟩ := RbxRun.run_rbx_on_current_cpu_spec ran
  obtain ⟨parts, partition, each⟩ := progress.passes
  constructor
  · exact framed.polled progress.polled
  · rw [ran_rounds framed, noRound, List.append_nil]
    exact progress.rounds
  · refine ⟨parts ++ [passesOf events], ?_, List.rel_append each (.cons accounted .nil)⟩
    rw [List.flatten_append, partition, ran_passes framed]
    simp
  · rw [ran_saw_interrupt framed, ← progress.flag]
    simp
  · intro whole
    obtain ⟨chWhole, rbxWhole⟩ := progress.whole rfl
    exact ⟨chWhole, forall_mem_append_singleton.mpr ⟨rbxWhole, whole⟩⟩
  · intro whole
    rw [ran_starts_in_time framed whole, progress.inTime rfl, noRound, ← accounted.passes,
      forall_mem_append_singleton]
    simp only [List.length_nil, Nat.lt_irrefl, false_or]
    tauto

/-- An action that neither measures nor sets a deadline changes nothing but,
when it is a poll that found the flag set, the flag. -/
theorem progress_record {history : List (Action count)} (action : Action count)
    (interrupted : Bool) (progress : Progress env minutes history results rbxResults false)
    (quiet : action.isMeasurement = false) (noStart : ∀ value, action ≠ .clock .start value)
    (polled : WellPolled env (history ++ [action]))
    (flag : interrupted = true ↔ ∃ site, action = .poll site true) :
    Progress env minutes (history ++ [action]) results rbxResults interrupted := by
  constructor
  · exact polled
  · rw [rounds_of_append, quiet_rounds_of quiet, List.append_nil]
    exact progress.rounds
  · rw [passes_of_append, quiet_passes_of quiet, List.append_nil]
    exact progress.passes
  · rw [flag, saw_interrupt_append, ← progress.flag]
    simp [SawInterrupt, eq_comm]
  · exact fun _ => progress.whole rfl
  · intro _
    rw [starts_in_time_append_other
      (fun value member => noStart value (List.mem_singleton.mp member).symm)]
    exact progress.inTime rfl

end Growing

end SdcProbe.SweepAccounts
