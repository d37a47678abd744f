import SdcProbe.VerdictSoundness

/-!
# What a clean exit rests on

The guard before the verdict counts cores, not rounds. A run that exits with 0
has measured every pinned core with every selected probe exactly when no timed
run found its deadline already past at the first test of its loop.
-/

namespace SdcProbe.CleanSweep

open ComputeRows Report Environment TimedRun CoreSweep SweepAccounts SweepInvariant SweepTotals
  Verdict VerdictSoundness

set_option autoImplicit false

/-- Every core whose pin succeeded has a result of at least one round, or one
pass, for each selected probe, and no `CLEAN` line is printed on zero checks. -/
structure RestsOnMeasurements (config : Config) (out : Outcome sampleCount) : Prop where
  ch : config.probes.ch = true →
    out.sweep.results.map RunResult.cpuIndex =
      (measuredOf out.world.history).map CpuInfo.index ∧
    ∀ r ∈ out.sweep.results, 0 < r.rounds
  rbx : config.probes.rbx = true →
    out.sweep.rbxResults.map RbxRunResult.cpuIndex =
      (measuredOf out.world.history).map CpuInfo.index ∧
    ∀ r ∈ out.sweep.rbxResults, 0 < r.passes
  checks : ∀ probe detections checks cores,
    .result probe .clean detections checks cores ∈ out.world.log → 0 < checks

section Run

variable {env : Env sampleCount} {config : Config} {fuel : Nat} {out : Outcome sampleCount}

theorem ch_checks_positive (finished : Finished env config out.sweep)
    (some : out.sweep.results ≠ []) (rounds : ∀ r ∈ out.sweep.results, 0 < r.rounds) :
    0 < (chTotals out.sweep.results).checks := by
  obtain ⟨⟨parts, _, sums⟩, _⟩ := totals_add_up finished
  obtain ⟨r, member⟩ := List.exists_mem_of_ne_nil _ some
  have folded := (fold_runs {} out.sweep.results).1
  have positive : 0 < (out.sweep.results.map RunResult.rounds).sum :=
    List.sum_pos_iff_exists_pos_nat.mpr ⟨_, List.mem_map_of_mem member, rounds r member⟩
  rw [sums.checks]
  apply Nat.mul_pos _ (by decide)
  rw [chTotals, folded]
  exact Nat.lt_of_lt_of_le positive (Nat.le_add_left _ _)

theorem rbx_calls_positive (finished : Finished env config out.sweep)
    (some : out.sweep.rbxResults ≠ []) (passes : ∀ r ∈ out.sweep.rbxResults, 0 < r.passes) :
    0 < (rbxTotals out.sweep.rbxResults).calls := by
  obtain ⟨_, parts, _, sums⟩ := totals_add_up finished
  obtain ⟨r, member⟩ := List.exists_mem_of_ne_nil _ some
  have folded := (fold_rbx_runs {} out.sweep.rbxResults).1
  have positive : 0 < (out.sweep.rbxResults.map RbxRunResult.passes).sum :=
    List.sum_pos_iff_exists_pos_nat.mpr ⟨_, List.mem_map_of_mem member, passes r member⟩
  rw [sums.calls]
  apply Nat.mul_pos _ (by decide)
  rw [rbxTotals, folded]
  exact Nat.lt_of_lt_of_le positive (Nat.le_add_left _ _)

theorem rests_on_measurements_iff (ran : main env config fuel = some out)
    (clean : out.exitCode = kExitClean) :
    RestsOnMeasurements config out ↔
      ∀ i value, out.world.history[i]? = some (.clock .start value) →
        env.clock (i + 1) < value + minutesToNanos config.minutes := by
  have measured := measured_of_exit_code ran (by rw [clean]; decide)
  obtain ⟨visiting, _, _⟩ := clean_exit ran clean
  obtain ⟨finished, history, _, _⟩ := main_spec ran
  have inTime := visiting.progress.inTime rfl
  rw [StartsInTime, ← history] at inTime
  rw [inTime]
  have cores : (measuredOf out.world.history).map CpuInfo.index ≠ [] := by
    intro none
    apply measured
    rw [← finished.measured, ← history, ← List.length_map (f := CpuInfo.index), none]
    rfl
  have chCores : config.probes.ch = true → out.sweep.results.map RunResult.cpuIndex =
      (measuredOf out.world.history).map CpuInfo.index := ch_results_in_order ran
  have rbxCores : config.probes.rbx = true → out.sweep.rbxResults.map RbxRunResult.cpuIndex =
      (measuredOf out.world.history).map CpuInfo.index := by
    intro selected
    rw [history, visiting.rbxCores, coresOf, if_pos selected]
  constructor
  · intro rests
    constructor
    · intro r member
      by_cases selected : config.probes.ch = true
      · exact (rests.ch selected).2 r member
      · rw [unselected_ch finished (Bool.eq_false_of_not_eq_true selected)] at member
        cases member
    · intro r member
      by_cases selected : config.probes.rbx = true
      · exact (rests.rbx selected).2 r member
      · rw [unselected_rbx finished (Bool.eq_false_of_not_eq_true selected)] at member
        cases member
  · intro positive
    obtain ⟨rounds, passes⟩ := positive
    refine ⟨fun selected => ⟨chCores selected, rounds⟩,
      fun selected => ⟨rbxCores selected, passes⟩, ?_⟩
    intro probe detections checks lines member
    rw [result_line_in_verdict ran rfl, mem_verdict_iff measured] at member
    rcases member with ⟨selected, line⟩ | ⟨_, _, line⟩ | ⟨selected, line⟩
    · obtain ⟨_, _, _, same, _⟩ := Line.result.inj (ch_verdict_result line rfl)
      rw [same]
      refine ch_checks_positive finished (fun none => ?_) rounds
      exact cores (by rw [← chCores selected, none]; rfl)
    · cases line
    · obtain ⟨_, _, _, same, _⟩ := Line.result.inj (rbx_verdict_result line rfl)
      rw [same]
      refine rbx_calls_positive finished (fun none => ?_) passes
      exact cores (by rw [← rbxCores selected, none]; rfl)

end Run

/-- With ten seconds an action, the first test comes in time. -/
theorem rests_on_measurements_iff_on_a_clean_minute :
    ∃ out, main (steadyMachine 10000000000 none) rbxOnOneCore 3 = some out ∧
      out.exitCode = kExitClean ∧
      (RestsOnMeasurements rbxOnOneCore out ↔
        ∀ i value, out.world.history[i]? = some (.clock .start value) →
          (steadyMachine 10000000000 none).clock (i + 1) <
            value + minutesToNanos rbxOnOneCore.minutes) := by
  have returned : (main (steadyMachine 10000000000 none) rbxOnOneCore 3).map Outcome.exitCode =
      some kExitClean := by decide +kernel
  obtain ⟨out, ran, clean⟩ := Option.map_eq_some_iff.mp returned
  exact ⟨out, ran, clean, rests_on_measurements_iff ran clean⟩

/-- The process is stopped for more than a minute between the reading that sets
the deadline and the first test: no pass is made, and the exit code is 0. -/
theorem clean_without_a_pass :
    ∃ out, main (steadyMachine 61000000000 none) rbxOnOneCore 1 = some out ∧
      out.exitCode = kExitClean ∧ passesOf out.world.history = [] ∧
      .result .rbx .clean 0 0 1 ∈ out.world.log ∧
      ¬RestsOnMeasurements rbxOnOneCore out := by
  refine ⟨_, rfl, rfl, rfl, by decide, ?_⟩
  intro rests
  exact absurd ((rests.rbx rfl).2 _ (List.mem_singleton_self _)) (by decide)

end SdcProbe.CleanSweep
