import SdcProbe.ChRun
import SdcProbe.RbxRun
import Mathlib.Algebra.BigOperators.Group.List.Basic
import Mathlib.Data.List.Forall2

/-!
# The totals of the summary

The two folds over the results of a sweep, and what they add up to. Any list of
results that account for stretches of rounds or passes has totals that account
for all of them together.
-/

namespace SdcProbe.SweepTotals

open Fnv1a SampleStream Report

set_option autoImplicit false

/-- The loop body of the summary fold over `results`. -/
def addRun (totals : ChTotals) (r : RunResult) : ChTotals where
  rounds := totals.rounds + r.rounds
  checks := totals.checks + r.checks
  detections := totals.detections + r.detections
  lanes := Vector.zipWith (· + ·) totals.lanes r.laneCounts
  unexplained := totals.unexplained + r.unexplained
  drift := totals.drift + r.valueDrift
  elapsedMs := totals.elapsedMs + r.elapsedMs

def chTotals (results : List RunResult) : ChTotals := results.foldl addRun {}

/-- The loop body of the summary fold over `rbx_results`. -/
def addRbxRun (totals : RbxTotals) (r : RbxRunResult) : RbxTotals where
  passes := totals.passes + r.passes
  calls := totals.calls + r.calls
  detections := totals.detections + r.detections
  signature := totals.signature + r.signature
  other := totals.other + r.otherFault
  mismatch := totals.mismatch + r.mismatch
  elapsedMs := totals.elapsedMs + r.elapsedMs

def rbxTotals (results : List RbxRunResult) : RbxTotals := results.foldl addRbxRun {}

theorem fold_runs (start : ChTotals) (results : List RunResult) :
    let totals := results.foldl addRun start
    totals.rounds = start.rounds + (results.map RunResult.rounds).sum ∧
      totals.checks = start.checks + (results.map RunResult.checks).sum ∧
      totals.detections = start.detections + (results.map RunResult.detections).sum ∧
      laneSum totals.lanes + totals.unexplained = laneSum start.lanes + start.unexplained +
        (results.map fun r => laneSum r.laneCounts + r.unexplained).sum ∧
      totals.drift = start.drift + (results.map RunResult.valueDrift).sum := by
  induction results generalizing start with
  | nil => exact ⟨rfl, rfl, rfl, rfl, rfl⟩
  | cons r rest ih =>
      obtain ⟨rounds, checks, detections, kinds, drift⟩ := ih (addRun start r)
      have lanes : laneSum (addRun start r).lanes = laneSum start.lanes + laneSum r.laneCounts :=
        lane_sum_add start.lanes r.laneCounts
      have unexplained : (addRun start r).unexplained = start.unexplained + r.unexplained := rfl
      simp only [List.foldl_cons, List.map_cons, List.sum_cons]
      refine ⟨rounds.trans ?_, checks.trans ?_, detections.trans ?_, kinds.trans ?_,
        drift.trans ?_⟩
      · exact Nat.add_assoc _ _ _
      · exact Nat.add_assoc _ _ _
      · exact Nat.add_assoc _ _ _
      · rw [lanes, unexplained]
        omega
      · exact Nat.add_assoc _ _ _

theorem fold_rbx_runs (start : RbxTotals) (results : List RbxRunResult) :
    let totals := results.foldl addRbxRun start
    totals.passes = start.passes + (results.map RbxRunResult.passes).sum ∧
      totals.calls = start.calls + (results.map RbxRunResult.calls).sum ∧
      totals.detections = start.detections + (results.map RbxRunResult.detections).sum ∧
      totals.signature + totals.other + totals.mismatch =
        start.signature + start.other + start.mismatch +
          (results.map fun r => r.signature + r.otherFault + r.mismatch).sum := by
  induction results generalizing start with
  | nil => exact ⟨rfl, rfl, rfl, rfl⟩
  | cons r rest ih =>
      obtain ⟨passes, calls, detections, kinds⟩ := ih (addRbxRun start r)
      simp only [List.foldl_cons, List.map_cons, List.sum_cons]
      refine ⟨passes.trans ?_, calls.trans ?_, detections.trans ?_, kinds.trans ?_⟩
      · exact Nat.add_assoc _ _ _
      · exact Nat.add_assoc _ _ _
      · exact Nat.add_assoc _ _ _
      · simp only [addRbxRun]
        omega

/-- What the totals of the ch probe say about the rounds behind them. -/
structure ChAddsUp {count : Nat} (parts : List (List (Word × Vector Sample count)))
    (totals : ChTotals) : Prop where
  rounds : totals.rounds = parts.flatten.length
  checks : totals.checks = totals.rounds * count
  detections : totals.detections = parts.flatten.countP ChRun.differs
  bounded : totals.detections ≤ totals.rounds
  kinds : totals.detections = laneSum totals.lanes + totals.unexplained
  drift : totals.drift = (parts.map ChRun.driftFromFirst).sum

structure RbxAddsUp (parts : List (List RbxPass)) (totals : RbxTotals) : Prop where
  passes : totals.passes = parts.flatten.length
  calls : totals.calls = totals.passes * RbxRun.kRbxCallsPerPass
  detections : totals.detections = parts.flatten.countP RbxRun.failed
  kinds : totals.detections = totals.signature + totals.other + totals.mismatch

theorem ch_sums {count : Nat} {parts : List (List (Word × Vector Sample count))}
    {results : List RunResult} (each : List.Forall₂ ChRun.Accounted parts results) :
    (results.map RunResult.rounds).sum = parts.flatten.length ∧
      (results.map RunResult.checks).sum = (results.map RunResult.rounds).sum * count ∧
      (results.map RunResult.detections).sum = parts.flatten.countP ChRun.differs ∧
      (results.map RunResult.detections).sum =
        (results.map fun r => laneSum r.laneCounts + r.unexplained).sum ∧
      (results.map RunResult.valueDrift).sum = (parts.map ChRun.driftFromFirst).sum := by
  induction each with
  | nil => exact ⟨rfl, (Nat.zero_mul _).symm, rfl, rfl, rfl⟩
  | cons first _ ih =>
      obtain ⟨rounds, checks, detections, kinds, drift⟩ := ih
      simp only [List.map_cons, List.sum_cons, List.flatten_cons, List.length_append,
        List.countP_append, Nat.add_mul]
      exact ⟨congrArg₂ _ first.rounds rounds, congrArg₂ _ first.checks checks,
        congrArg₂ _ first.detections detections, congrArg₂ _ first.kinds kinds,
        congrArg₂ _ first.drift drift⟩

theorem rbx_sums {parts : List (List RbxPass)} {results : List RbxRunResult}
    (each : List.Forall₂ RbxRun.Accounted parts results) :
    (results.map RbxRunResult.passes).sum = parts.flatten.length ∧
      (results.map RbxRunResult.calls).sum =
        (results.map RbxRunResult.passes).sum * RbxRun.kRbxCallsPerPass ∧
      (results.map RbxRunResult.detections).sum = parts.flatten.countP RbxRun.failed ∧
      (results.map RbxRunResult.detections).sum =
        (results.map fun r => r.signature + r.otherFault + r.mismatch).sum := by
  induction each with
  | nil => exact ⟨rfl, rfl, rfl, rfl⟩
  | cons first _ ih =>
      obtain ⟨passes, calls, detections, kinds⟩ := ih
      simp only [List.map_cons, List.sum_cons, List.flatten_cons, List.length_append,
        List.countP_append, Nat.add_mul]
      exact ⟨congrArg₂ _ first.passes passes, congrArg₂ _ first.calls calls,
        congrArg₂ _ first.detections detections, congrArg₂ _ first.kinds kinds⟩

theorem ch_totals_add_up {count : Nat} {parts : List (List (Word × Vector Sample count))}
    {results : List RunResult} (each : List.Forall₂ ChRun.Accounted parts results) :
    ChAddsUp parts (chTotals results) := by
  obtain ⟨rounds, checks, detections, kinds, drift⟩ := fold_runs {} results
  obtain ⟨roundsSum, checksSum, detectionsSum, kindsSum, driftSum⟩ := ch_sums each
  simp only [Nat.zero_add] at rounds checks detections drift
  constructor
  · exact rounds.trans roundsSum
  · exact checks.trans (checksSum.trans (by rw [chTotals, rounds]))
  · exact detections.trans detectionsSum
  · rw [chTotals, detections, rounds, detectionsSum, roundsSum]
    exact List.countP_le_length
  · refine detections.trans (kindsSum.trans (kinds.trans ?_).symm)
    exact Nat.zero_add _
  · exact drift.trans driftSum

theorem rbx_totals_add_up {parts : List (List RbxPass)} {results : List RbxRunResult}
    (each : List.Forall₂ RbxRun.Accounted parts results) :
    RbxAddsUp parts (rbxTotals results) := by
  obtain ⟨passes, calls, detections, kinds⟩ := fold_rbx_runs {} results
  obtain ⟨passesSum, callsSum, detectionsSum, kindsSum⟩ := rbx_sums each
  simp only [Nat.zero_add] at passes calls detections kinds
  constructor
  · exact passes.trans passesSum
  · exact calls.trans (callsSum.trans (by rw [rbxTotals, passes]))
  · exact detections.trans detectionsSum
  · exact detections.trans (kindsSum.trans kinds.symm)

end SdcProbe.SweepTotals
