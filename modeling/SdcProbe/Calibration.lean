import SdcProbe.CoreSweep
import SdcProbe.ComputeRows
import Mathlib.Algebra.Order.Round
import Mathlib.Data.Rat.Floor
import Mathlib.Tactic.FieldSimp
import Mathlib.Tactic.Linarith

/-!
# Calibration

`calibrate_layers` fits a line through two timings and solves it for the target
time. The arithmetic is exact, on rational numbers; the conversion to `int` is
the one step that may have no defined value. The timings are those of the
readings the sweep makes, so the sweep's own calibration is this one with the
chosen number of layers left out.
-/

namespace SdcProbe.Calibration

open Environment CoreSweep ComputeRows

set_option autoImplicit false

def kTargetNsPerSample : ℚ := 250
def kCalibrationRows : Nat := 125
def kLoadLayersMin : Int := 1
def kLoadLayersMax : Int := 64
def kLoadLayersDefault : Int := 5

def lowLayers : Nat := 4
def highLayers : Nat := 12

/-- `elapsed_ns / samples` -/
def nsPerSample (elapsedNs : Nat) : ℚ := elapsedNs / (kCalibrationRows * kCols : Nat)

/-- The integer next to `value` on the side of zero. -/
def truncate (value : ℚ) : Int := if 0 ≤ value then ⌊value⌋ else ⌈value⌉

/-- `static_cast<int>`, undefined when the truncated value is not an `int`. -/
def toInt (value : ℚ) : Option Int :=
  if -2147483648 ≤ truncate value ∧ truncate value ≤ 2147483647 then some (truncate value)
  else none

def slope (lowNs highNs : ℚ) : ℚ := (highNs - lowNs) / (highLayers - lowLayers : Nat)

def intercept (lowNs highNs : ℚ) : ℚ := lowNs - slope lowNs highNs * lowLayers

/-- The number of layers at which the line reaches the target. -/
def ideal (lowNs highNs : ℚ) : ℚ :=
  (kTargetNsPerSample - intercept lowNs highNs) / slope lowNs highNs

/-- What becomes of `chosen`, when the conversion has a value. -/
def chooseLayers (lowNs highNs : ℚ) : Option Int :=
  if 0 < slope lowNs highNs then do
    let chosen ← toInt (ideal lowNs highNs + 1 / 2)
    let chosen := if chosen < kLoadLayersMin then kLoadLayersMin else chosen
    let chosen := if kLoadLayersMax < chosen then kLoadLayersMax else chosen
    some chosen
  else some kLoadLayersDefault

section Sweep

variable {count : Nat}

/-- The time per sample of one probe, and the sweep after it. -/
def timeProbe (env : Env count) (sweep : Sweep count) : ℚ × Sweep count :=
  let sweep := calibrationRows env sweep
  let start := env.clock sweep.world.time
  let sweep := calibrationRows env (calibrationReading env sweep)
  let finish := env.clock sweep.world.time
  (nsPerSample (finish - start), calibrationReading env sweep)

/-- `calibrate_layers` with the number of layers it settles on. -/
def layersOf (env : Env count) (sweep : Sweep count) : Option Int × Sweep count :=
  let (lowNs, sweep) := timeProbe env sweep
  let (highNs, sweep) := timeProbe env sweep
  (chooseLayers lowNs highNs, (timeProbe env sweep).2)

theorem layers_of_sweep (env : Env count) (sweep : Sweep count) :
    (layersOf env sweep).2 = calibrateLayers env sweep := rfl

theorem time_probe_eq (env : Env count) (sweep : Sweep count) :
    (timeProbe env sweep).1 =
        nsPerSample (env.clock (sweep.world.time + 3) - env.clock (sweep.world.time + 1)) ∧
      (timeProbe env sweep).2.world.time = sweep.world.time + 4 := by
  simp [timeProbe, calibrationRows, calibrationReading, World.now]

/-- Both timings are differences of readings of the clock. -/
theorem layers_of_readings (env : Env count) (sweep : Sweep count) :
    (layersOf env sweep).1 = chooseLayers
      (nsPerSample (env.clock (sweep.world.time + 3) - env.clock (sweep.world.time + 1)))
      (nsPerSample (env.clock (sweep.world.time + 7) - env.clock (sweep.world.time + 5))) := by
  obtain ⟨low, later⟩ := time_probe_eq env sweep
  obtain ⟨high, _⟩ := time_probe_eq env (timeProbe env sweep).2
  rw [later] at high
  rw [← low, ← high]
  rfl

end Sweep

/-- The specification: the solution of the fit, rounded to the nearest integer
and clamped; the default when more layers did not take longer. -/
def nearestLayers (lowNs highNs : ℚ) : Int :=
  if 0 < slope lowNs highNs then
    max kLoadLayersMin (min kLoadLayersMax (round (ideal lowNs highNs)))
  else kLoadLayersDefault

/-- The conversion is defined when it is made, and the result is the right one. -/
def Survives (lowNs highNs : ℚ) : Prop :=
  (0 < slope lowNs highNs → ∃ converted, toInt (ideal lowNs highNs + 1 / 2) = some converted) ∧
    chooseLayers lowNs highNs = some (nearestLayers lowNs highNs)

theorem truncate_le_iff (value : ℚ) : truncate value ≤ 2147483647 ↔ value < 2147483648 := by
  rw [truncate]
  split_ifs with positive
  · rw [← Int.lt_add_one_iff, Int.floor_lt]
    norm_num
  · have negative := not_le.mp positive
    constructor
    · intro _
      linarith
    · intro _
      have bound : ⌈value⌉ ≤ 0 := Int.ceil_le.mpr (by exact_mod_cast negative.le)
      omega

theorem le_truncate_iff (value : ℚ) : -2147483648 ≤ truncate value ↔ -2147483649 < value := by
  rw [truncate]
  split_ifs with positive
  · constructor
    · intro _
      linarith
    · intro _
      have bound : 0 ≤ ⌊value⌋ := Int.floor_nonneg.mpr positive
      omega
  · rw [← Int.sub_one_lt_iff, Int.lt_ceil]
    norm_num

theorem to_int_eq_some_iff (value : ℚ) (converted : Int) :
    toInt value = some converted ↔
      (-2147483649 < value ∧ value < 2147483648) ∧ truncate value = converted := by
  rw [← le_truncate_iff, ← truncate_le_iff, toInt, Option.ite_none_right_eq_some, Option.some_inj]

/-- The clamp absorbs the difference between truncating and rounding down. -/
theorem clamp_truncate (value : ℚ) :
    max kLoadLayersMin (min kLoadLayersMax (truncate value)) =
      max kLoadLayersMin (min kLoadLayersMax ⌊value⌋) := by
  rw [truncate]
  split_ifs with positive
  · rfl
  · have ceiling : ⌈value⌉ ≤ 0 := Int.ceil_le.mpr (by exact_mod_cast (not_le.mp positive).le)
    have floor : ⌊value⌋ ≤ ⌈value⌉ := Int.floor_le_ceil value
    rw [kLoadLayersMin, kLoadLayersMax]
    omega

/-- The two comparisons of the source are a clamp. -/
theorem choose_layers_rising (lowNs highNs : ℚ) (rising : 0 < slope lowNs highNs) :
    chooseLayers lowNs highNs = (toInt (ideal lowNs highNs + 1 / 2)).map
      fun chosen => max kLoadLayersMin (min kLoadLayersMax chosen) := by
  rw [chooseLayers, if_pos rising, Option.map_eq_bind]
  congr 1
  funext chosen
  simp only [kLoadLayersMin, kLoadLayersMax, Function.comp_apply, Option.some_inj]
  split_ifs <;> omega

theorem slope_pos_iff (lowNs highNs : ℚ) : 0 < slope lowNs highNs ↔ lowNs < highNs := by
  rw [slope, lowLayers, highLayers]
  constructor
  · intro positive
    have scaled : 0 < highNs - lowNs := by
      by_contra flat
      have nonpositive := div_nonpos_of_nonpos_of_nonneg (not_lt.mp flat)
        (Nat.cast_nonneg (12 - 4) : (0 : ℚ) ≤ _)
      linarith
    linarith
  · intro rising
    exact div_pos (by linarith) (by norm_num)

/-- In terms of the two times alone. -/
theorem ideal_eq (lowNs highNs : ℚ) (rising : lowNs < highNs) :
    ideal lowNs highNs = 4 + 8 * (250 - lowNs) / (highNs - lowNs) := by
  have nonzero : highNs - lowNs ≠ 0 := by linarith
  rw [ideal, intercept, slope, lowLayers, highLayers, kTargetNsPerSample]
  norm_num
  field_simp
  ring

theorem ns_per_sample_lt_iff (lowElapsed highElapsed : Nat) :
    nsPerSample lowElapsed < nsPerSample highElapsed ↔ lowElapsed < highElapsed := by
  rw [nsPerSample, nsPerSample, div_lt_div_iff_of_pos_right (by norm_num [kCalibrationRows, kCols]),
    Nat.cast_lt]

/-- Two different whole numbers of nanoseconds are far enough apart to keep the
quotient below `2^31`. -/
theorem ideal_below_int_max (lowElapsed highElapsed : Nat) (rising : lowElapsed < highElapsed) :
    ideal (nsPerSample lowElapsed) (nsPerSample highElapsed) + 1 / 2 < 2147483648 := by
  have rate : nsPerSample lowElapsed < nsPerSample highElapsed :=
    (ns_per_sample_lt_iff _ _).mpr rising
  have apart : (lowElapsed : ℚ) + 1 ≤ highElapsed := by exact_mod_cast rising
  have nonnegative : (0 : ℚ) ≤ lowElapsed := Nat.cast_nonneg _
  have gap : 0 < nsPerSample highElapsed - nsPerSample lowElapsed := by linarith
  have quotient : 8 * (250 - nsPerSample lowElapsed) /
      (nsPerSample highElapsed - nsPerSample lowElapsed) ≤ 100000000 := by
    rw [div_le_iff₀ gap]
    simp only [nsPerSample, kCalibrationRows, kCols]
    push_cast
    linarith
  rw [ideal_eq _ _ rate]
  linarith

theorem ideal_above_int_min_iff (lowNs highNs : ℚ) (rising : lowNs < highNs) :
    -2147483649 < ideal lowNs highNs + 1 / 2 ↔
      16 * (lowNs - 250) < 4294967307 * (highNs - lowNs) := by
  have gap : 0 < highNs - lowNs := by linarith
  have moved : -2147483649 < ideal lowNs highNs + 1 / 2 ↔
      -4294967307 / 2 < 8 * (250 - lowNs) / (highNs - lowNs) := by
    rw [ideal_eq lowNs highNs rising]
    constructor <;> intro bound <;> linarith
  rw [moved, lt_div_iff₀ gap]
  constructor <;> intro bound <;> linarith

theorem calibration_survives_iff (lowElapsed highElapsed : Nat) :
    Survives (nsPerSample lowElapsed) (nsPerSample highElapsed) ↔
      nsPerSample highElapsed ≤ nsPerSample lowElapsed ∨
        16 * (nsPerSample lowElapsed - 250) <
          4294967307 * (nsPerSample highElapsed - nsPerSample lowElapsed) := by
  by_cases rising : nsPerSample lowElapsed < nsPerSample highElapsed
  · have positive := (slope_pos_iff _ _).mpr rising
    have below := ideal_below_int_max _ _ ((ns_per_sample_lt_iff _ _).mp rising)
    rw [← ideal_above_int_min_iff _ _ rising]
    constructor
    · intro survives
      obtain ⟨converted, defined⟩ := survives.1 positive
      exact .inr ((to_int_eq_some_iff _ _).mp defined).1.1
    · intro condition
      have above := condition.resolve_left (not_le.mpr rising)
      have defined := (to_int_eq_some_iff _ _).mpr ⟨⟨above, below⟩, rfl⟩
      refine ⟨fun _ => ⟨_, defined⟩, ?_⟩
      rw [choose_layers_rising _ _ positive, defined, Option.map_some, clamp_truncate,
        nearestLayers, if_pos positive, round_eq]
  · have flat := mt (slope_pos_iff (nsPerSample lowElapsed) (nsPerSample highElapsed)).mp rising
    refine ⟨fun _ => .inl (not_lt.mp rising), fun _ => ⟨fun positive => absurd positive flat, ?_⟩⟩
    rw [chooseLayers, if_neg flat, nearestLayers, if_neg flat]

/-- Two probes of a second each, the second one nanosecond longer than the
first. -/
theorem nearly_flat_fit_leaves_int :
    0 < slope (nsPerSample 1000000000) (nsPerSample 1000000001) ∧
      toInt (ideal (nsPerSample 1000000000) (nsPerSample 1000000001) + 1 / 2) = none ∧
      ¬Survives (nsPerSample 1000000000) (nsPerSample 1000000001) := by
  have rising : 0 < slope (nsPerSample 1000000000) (nsPerSample 1000000001) := by decide +kernel
  have undefined :
      toInt (ideal (nsPerSample 1000000000) (nsPerSample 1000000001) + 1 / 2) = none := by
    decide +kernel
  refine ⟨rising, undefined, ?_⟩
  intro survives
  obtain ⟨converted, defined⟩ := survives.1 rising
  rw [undefined] at defined
  cases defined

end SdcProbe.Calibration
