import SdcProbe.XorMultiplyHash
import Mathlib.Tactic.LinearCombination
import Mathlib.Tactic.Ring

/-!
# FNV-1a over 64 bits

The constants of `sdcprobe.cpp` and the one arithmetic fact about them the
detector rests on: two different runs of at most four bytes, folded from the
same state, never end in the same state. The prime is `2^40 + 435`, so the low
parts of four byte differences stay far below `2^40` and the high parts below
`2^24` and cannot cancel against each other.
-/

namespace SdcProbe.Fnv1a

open XorMultiplyHash

set_option autoImplicit false

abbrev Word := BitVec 64
abbrev Byte := BitVec 8

def kFnvBasis : Word := 14695981039346656037#64
def kFnvPrime : Word := 1099511628211#64
def kFnvPrimeInverse : Word := 0xce965057aff6957b#64

/-- The `static_assert` next to the constant. -/
theorem prime_times_inverse : kFnvPrime * kFnvPrimeInverse = 1 := by decide

/-- By how much xoring a byte in moves a state, as a signed integer. -/
def nudge (state : Word) (byte : Byte) : Int :=
  ((state ^^^ byte.setWidth 64).toNat : Int) - state.toNat

theorem xor_byte_high_bits (state : Word) (byte : Byte) :
    (state ^^^ byte.setWidth 64).toNat / 256 = state.toNat / 256 := by
  have byteBound := byte.isLt
  rw [BitVec.toNat_xor, BitVec.toNat_setWidth, Nat.mod_eq_of_lt (by omega)]
  rw [show 256 = 2 ^ 8 by decide, Nat.xor_div_two_pow, Nat.div_eq_of_lt byteBound, Nat.xor_zero]

theorem nudge_bounds (state : Word) (byte : Byte) :
    -255 ≤ nudge state byte ∧ nudge state byte ≤ 255 := by
  have high := xor_byte_high_bits state byte
  unfold nudge
  omega

theorem nudge_injective (state : Word) (left right : Byte)
    (same : nudge state left = nudge state right) : left = right := by
  apply extend_injective (by decide : 8 ≤ 64)
  apply (BitVec.xor_right_inj state).mp
  apply BitVec.eq_of_toNat_eq
  unfold nudge at same
  omega

/-- One step on integers: nudge, multiply by the prime, drop multiples of `2^64`. -/
theorem absorb_toNat (state : Word) (byte : Byte) :
    ∃ wraps : Int, ((absorb kFnvPrime state byte).toNat : Int) =
      (state.toNat + nudge state byte) * 1099511628211 - 2 ^ 64 * wraps := by
  refine ⟨((state ^^^ byte.setWidth 64).toNat * 1099511628211 / 2 ^ 64 : Nat), ?_⟩
  have prime : kFnvPrime.toNat = 1099511628211 := by decide
  rw [absorb, BitVec.toNat_mul, prime, nudge]
  have split := Nat.mod_add_div ((state ^^^ byte.setWidth 64).toNat * 1099511628211) (2 ^ 64)
  generalize (state ^^^ byte.setWidth 64).toNat = moved at split ⊢
  push_cast
  omega

/-- The arithmetic heart. Written in base `2^40`, a combination of four small
coefficients has a low digit that must vanish on its own; that forces the
leading coefficient down to at most one in size, and then the high digit too is
too small to be a nonzero multiple of `2^24`. -/
theorem small_combination_vanishes (first second third fourth wraps : Int)
    (firstBound : -510 ≤ first ∧ first ≤ 510) (secondBound : -510 ≤ second ∧ second ≤ 510)
    (thirdBound : -510 ≤ third ∧ third ≤ 510) (fourthBound : -510 ≤ fourth ∧ fourth ≤ 510)
    (combination :
      ((first * 1099511628211 + second) * 1099511628211 + third) * 1099511628211 + fourth =
        2 ^ 64 * wraps) :
    first = 0 ∧ second = 0 ∧ third = 0 ∧ fourth = 0 := by
  have low : 82312875 * first + 189225 * second + 435 * third + fourth = 0 := by omega
  have high : ∃ k : Int, 567675 * first + 870 * second + third = 2 ^ 24 * k := by
    refine ⟨wraps - (2 ^ 56 * first + 1305 * 2 ^ 16 * first + 2 ^ 16 * second), ?_⟩
    omega
  obtain ⟨k, high⟩ := high
  have firstSmall : -1 ≤ first ∧ first ≤ 1 := by omega
  have highVanishes : k = 0 := by omega
  subst highVanishes
  have firstZero : first = 0 := by omega
  subst firstZero
  omega

theorem drift_bounds (left right : Word) (leftByte rightByte : Byte) :
    -510 ≤ nudge left leftByte - nudge right rightByte ∧
      nudge left leftByte - nudge right rightByte ≤ 510 := by
  have leftBounds := nudge_bounds left leftByte
  have rightBounds := nudge_bounds right rightByte
  omega

/-- The distance between two runs after one more byte on each side. -/
theorem drift_step (left right left' right' : Word) (leftByte rightByte : Byte)
    (leftStep : left' = absorb kFnvPrime left leftByte)
    (rightStep : right' = absorb kFnvPrime right rightByte) :
    ∃ wraps : Int, (left'.toNat : Int) - right'.toNat =
      ((left.toNat - right.toNat : Int) + (nudge left leftByte - nudge right rightByte)) *
        1099511628211 - 2 ^ 64 * wraps := by
  obtain ⟨leftWraps, leftValue⟩ := absorb_toNat left leftByte
  obtain ⟨rightWraps, rightValue⟩ := absorb_toNat right rightByte
  refine ⟨leftWraps - rightWraps, ?_⟩
  rw [leftStep, rightStep, leftValue, rightValue]
  ring

/-- Two runs of four bytes that start and end in the same state keep no drift at
any step. The last multiplication is undone on words, the three before it are
followed on integers. -/
theorem equal_runs_do_not_drift (s s1 s2 s3 t1 t2 t3 : Word) (l0 l1 l2 l3 r0 r1 r2 r3 : Byte)
    (left1 : s1 = absorb kFnvPrime s l0) (right1 : t1 = absorb kFnvPrime s r0)
    (left2 : s2 = absorb kFnvPrime s1 l1) (right2 : t2 = absorb kFnvPrime t1 r1)
    (left3 : s3 = absorb kFnvPrime s2 l2) (right3 : t3 = absorb kFnvPrime t2 r2)
    (same : absorb kFnvPrime s3 l3 = absorb kFnvPrime t3 r3) :
    nudge s l0 - nudge s r0 = 0 ∧ nudge s1 l1 - nudge t1 r1 = 0 ∧
      nudge s2 l2 - nudge t2 r2 = 0 ∧ nudge s3 l3 - nudge t3 r3 = 0 := by
  obtain ⟨wraps1, drift1⟩ := drift_step s s s1 t1 l0 r0 left1 right1
  obtain ⟨wraps2, drift2⟩ := drift_step s1 t1 s2 t2 l1 r1 left2 right2
  obtain ⟨wraps3, drift3⟩ := drift_step s2 t2 s3 t3 l2 r2 left3 right3
  have words := congrArg BitVec.toNat (mul_right_cancels prime_times_inverse _ _ same)
  have meet : (s3.toNat : Int) - t3.toNat + (nudge s3 l3 - nudge t3 r3) = 0 := by
    unfold nudge
    rw [words]
    ring
  apply small_combination_vanishes _ _ _ _
    ((wraps1 * 1099511628211 + wraps2) * 1099511628211 + wraps3)
    (drift_bounds s s l0 r0) (drift_bounds s1 t1 l1 r1) (drift_bounds s2 t2 l2 r2)
    (drift_bounds s3 t3 l3 r3)
  rw [drift3, drift2, drift1] at meet
  linear_combination meet

theorem four_bytes_injective (state : Word) (l0 l1 l2 l3 r0 r1 r2 r3 : Byte)
    (same : digest kFnvPrime state [l0, l1, l2, l3] = digest kFnvPrime state [r0, r1, r2, r3]) :
    [l0, l1, l2, l3] = [r0, r1, r2, r3] := by
  obtain ⟨first, second, third, fourth⟩ :=
    equal_runs_do_not_drift state _ _ _ _ _ _ l0 l1 l2 l3 r0 r1 r2 r3 rfl rfl rfl rfl rfl rfl same
  obtain rfl := nudge_injective state l0 r0 (Int.sub_eq_zero.mp first)
  obtain rfl := nudge_injective _ l1 r1 (Int.sub_eq_zero.mp second)
  obtain rfl := nudge_injective _ l2 r2 (Int.sub_eq_zero.mp third)
  obtain rfl := nudge_injective _ l3 r3 (Int.sub_eq_zero.mp fourth)
  rfl

theorem four_byte_lists_injective (state : Word) (left right : List Byte)
    (leftLength : left.length = 4) (rightLength : right.length = 4)
    (same : digest kFnvPrime state left = digest kFnvPrime state right) : left = right := by
  match left, right, leftLength, rightLength with
  | [l0, l1, l2, l3], [r0, r1, r2, r3], _, _ =>
      exact four_bytes_injective state l0 l1 l2 l3 r0 r1 r2 r3 same

/-- Shorter runs are padded on the right with the same bytes on both sides. -/
theorem window_injective (state : Word) (left right : List Byte)
    (lengths : left.length = right.length) (short : left.length ≤ 4)
    (same : digest kFnvPrime state left = digest kFnvPrime state right) : left = right := by
  have padded := four_byte_lists_injective state
    (left ++ List.replicate (4 - left.length) 0) (right ++ List.replicate (4 - left.length) 0)
    (by simp; omega) (by simp; omega) (by rw [digest_append, digest_append, same])
  exact List.append_cancel_right padded

end SdcProbe.Fnv1a
