import SdcProbe.Fnv1a
import SdcProbe.WordMixing
import Mathlib.Tactic.IntervalCases

/-!
# The lattice hash of the synthetic load

`splitmix64`, `lattice_hash`, and the salts under which `sdc_load_sample` asks
for the nodes of its layers and octaves.
-/

namespace SdcProbe.LatticeHash

open Fnv1a WordMixing XorMultiplyHash

set_option autoImplicit false

/-- `uint32_t` -/
abbrev HalfWord := BitVec 32

def splitmix64 (x : Word) : Word :=
  let x := x + 0x9E3779B97F4A7C15
  let x := (x ^^^ (x >>> 30)) * 0xBF58476D1CE4E5B9
  let x := (x ^^^ (x >>> 27)) * 0x94D049BB133111EB
  x ^^^ (x >>> 31)

def latticeHash (seed salt : HalfWord) (ix iy : Int32) : Word :=
  let packed : Word := ix.toBitVec.setWidth 64 ||| (iy.toBitVec.setWidth 64 <<< 32)
  splitmix64 (packed ^^^ splitmix64 (seed.setWidth 64 ^^^ (salt.setWidth 64 <<< 32)))

/-- `salt + static_cast<uint32_t>(octave)` in `sdc_load_sample` -/
def octaveSalt (layer octave : Nat) : HalfWord :=
  0x9E3779B9 + BitVec.ofNat 32 layer * 0x85EBCA6B + BitVec.ofNat 32 octave

/-- `k_load_layers_max` -/
def loadLayersMax : Nat := 64

/-- `k_load_octaves_per_layer` -/
def loadOctavesPerLayer : Nat := 4

/-- The two multipliers have inverses modulo `2 ^ 64`. -/
theorem first_multiplier_injective :
    Function.Injective fun word : Word => word * 0xBF58476D1CE4E5B9 := by
  have unit : (0xBF58476D1CE4E5B9 : Word) * 0x96DE1B173F119089 = 1 := by decide
  exact mul_right_cancels unit

theorem second_multiplier_injective :
    Function.Injective fun word : Word => word * 0x94D049BB133111EB := by
  have unit : (0x94D049BB133111EB : Word) * 0x319642B2D24D8EC3 = 1 := by decide
  exact mul_right_cancels unit

theorem splitmix64_injective : Function.Injective splitmix64 := by
  intro left right same
  have first := second_multiplier_injective (xor_shift_injective (by decide) same)
  have second := first_multiplier_injective (xor_shift_injective (by decide) first)
  exact add_injective _ (xor_shift_injective (by decide) second)

theorem layer_factor_inverse (layer : Nat) :
    BitVec.ofNat 32 layer * 0x85EBCA6B * 0xA5CB9243 = BitVec.ofNat 32 layer := by
  have unit : (0x85EBCA6B : HalfWord) * 0xA5CB9243 = 1 := by decide
  rw [mul_assoc, unit, mul_one]

/-- Scaled by the inverse of the layer factor, salts are layers that lie a few
large steps apart, one for each octave. -/
theorem octave_salts_differ {layer layer' octave octave' : Nat} (inside : layer < loadLayersMax)
    (inside' : layer' < loadLayersMax) (within : octave < loadOctavesPerLayer)
    (within' : octave' < loadOctavesPerLayer)
    (same : octaveSalt layer octave = octaveSalt layer' octave') :
    layer = layer' ∧ octave = octave' := by
  rw [octaveSalt, octaveSalt, BitVec.add_assoc, BitVec.add_assoc, BitVec.add_right_inj] at same
  have scaled := congrArg (· * 0xA5CB9243) same
  simp only [add_mul, layer_factor_inverse] at scaled
  have inverse : (0xA5CB9243 : HalfWord) = BitVec.ofNat 32 0xA5CB9243 := rfl
  rw [inverse, ← BitVec.ofNat_mul, ← BitVec.ofNat_mul, ← BitVec.ofNat_add,
    ← BitVec.ofNat_add] at scaled
  have values := congrArg BitVec.toNat scaled
  rw [BitVec.toNat_ofNat, BitVec.toNat_ofNat] at values
  unfold loadLayersMax at inside inside'
  unfold loadOctavesPerLayer at within within'
  interval_cases octave <;> interval_cases octave' <;> omega

theorem pack_half_words_injective :
    Function.Injective fun halves : HalfWord × HalfWord => pack 64 halves.1 halves.2 :=
  pack_injective (by decide)

/-- The word under which a pair of words is mixed in. -/
theorem lattice_hash_packed (seed salt : HalfWord) (ix iy : Int32) :
    latticeHash seed salt ix iy =
      splitmix64 (pack 64 ix.toBitVec iy.toBitVec ^^^ splitmix64 (pack 64 seed salt)) := by
  rw [← xor_eq_pack seed salt]
  rfl

theorem lattice_hash_node_injective (seed salt : HalfWord) :
    Function.Injective fun node : Int32 × Int32 => latticeHash seed salt node.1 node.2 := by
  intro left right same
  simp only [lattice_hash_packed] at same
  have packed := (BitVec.xor_left_inj _).mp (splitmix64_injective same)
  have coordinates := @pack_half_words_injective (left.1.toBitVec, left.2.toBitVec)
    (right.1.toBitVec, right.2.toBitVec) packed
  rw [Prod.mk.injEq, Int32.toBitVec_inj, Int32.toBitVec_inj] at coordinates
  exact Prod.ext coordinates.1 coordinates.2

theorem lattice_hash_layer_injective (ix iy : Int32) :
    Function.Injective fun layer : HalfWord × HalfWord => latticeHash layer.1 layer.2 ix iy := by
  intro left right same
  simp only [lattice_hash_packed] at same
  have mixed := (BitVec.xor_right_inj _).mp (splitmix64_injective same)
  exact pack_half_words_injective (splitmix64_injective mixed)

/-- The nodes of different layers or octaves of a load have different hashes. -/
theorem octaves_keep_apart (seed : HalfWord) (ix iy : Int32) {layer layer' octave octave' : Nat}
    (inside : layer < loadLayersMax) (inside' : layer' < loadLayersMax)
    (within : octave < loadOctavesPerLayer) (within' : octave' < loadOctavesPerLayer)
    (same : latticeHash seed (octaveSalt layer octave) ix iy =
      latticeHash seed (octaveSalt layer' octave') ix iy) :
    layer = layer' ∧ octave = octave' := by
  have layers := @lattice_hash_layer_injective ix iy (seed, octaveSalt layer octave)
    (seed, octaveSalt layer' octave') same
  rw [Prod.mk.injEq] at layers
  exact octave_salts_differ inside inside' within within' layers.2

theorem lattice_hash_collapses_nothing :
    Function.Bijective splitmix64 ∧
    (∀ seed salt, Function.Injective fun node : Int32 × Int32 =>
      latticeHash seed salt node.1 node.2) ∧
    (∀ ix iy, Function.Injective fun layer : HalfWord × HalfWord =>
      latticeHash layer.1 layer.2 ix iy) ∧
    ∀ seed seed' salt salt' ix iy, salt ≠ salt' →
      latticeHash seed salt ix iy ≠ latticeHash seed' salt' ix iy := by
  constructor
  · exact bijective_of_injective splitmix64_injective
  constructor
  · exact lattice_hash_node_injective
  constructor
  · exact lattice_hash_layer_injective
  · intro seed seed' salt salt' ix iy different same
    have layers := @lattice_hash_layer_injective ix iy (seed, salt) (seed', salt') same
    exact different (congrArg Prod.snd layers)

end SdcProbe.LatticeHash
