import Mathlib.Data.BitVec

/-!
# Hashes that xor a letter in and multiply by an invertible constant

The state is a word of `width` bits and a letter a word of at most as many bits.
One step xors the letter into the low end of the state and multiplies. When the
multiplier has an inverse modulo `2 ^ width`, every step can be undone, so a
stream can be folded forward from its start and backward from a final value.
The two folds meet exactly where a single disturbance explains the final value.
-/

namespace XorMultiplyHash

set_option autoImplicit false

variable {width letterWidth : Nat}

/-- One forward step: the letter is zero-extended and xored in, and the result
is multiplied. -/
def absorb (multiplier state : BitVec width) (letter : BitVec letterWidth) : BitVec width :=
  (state ^^^ letter.setWidth width) * multiplier

/-- One backward step, with the inverse of the multiplier. -/
def expel (inverse state : BitVec width) (letter : BitVec letterWidth) : BitVec width :=
  (state * inverse) ^^^ letter.setWidth width

/-- The forward fold over a stream. -/
def digest (multiplier state : BitVec width) (letters : List (BitVec letterWidth)) :
    BitVec width :=
  letters.foldl (absorb multiplier) state

/-- The state that must have held before `letters` for `final` to come out. -/
def undigest (inverse final : BitVec width) (letters : List (BitVec letterWidth)) :
    BitVec width :=
  letters.foldr (fun letter state => expel inverse state letter) final

@[simp] theorem digest_nil (multiplier state : BitVec width) :
    digest multiplier state ([] : List (BitVec letterWidth)) = state := rfl

@[simp] theorem digest_cons (multiplier state : BitVec width) (letter : BitVec letterWidth)
    (rest : List (BitVec letterWidth)) :
    digest multiplier state (letter :: rest) =
      digest multiplier (absorb multiplier state letter) rest := rfl

@[simp] theorem digest_append (multiplier state : BitVec width)
    (left right : List (BitVec letterWidth)) :
    digest multiplier state (left ++ right) =
      digest multiplier (digest multiplier state left) right := by
  simp only [digest, List.foldl_append]

@[simp] theorem undigest_nil (inverse final : BitVec width) :
    undigest inverse final ([] : List (BitVec letterWidth)) = final := rfl

@[simp] theorem undigest_cons (inverse final : BitVec width) (letter : BitVec letterWidth)
    (rest : List (BitVec letterWidth)) :
    undigest inverse final (letter :: rest) =
      expel inverse (undigest inverse final rest) letter := rfl

theorem xor_xor_cancel_right (left right : BitVec width) : left ^^^ right ^^^ right = left := by
  rw [BitVec.xor_assoc, BitVec.xor_self, BitVec.xor_zero]

theorem xor_eq_iff_eq_xor (left middle right : BitVec width) :
    left ^^^ middle = right ↔ left = right ^^^ middle := by
  constructor
  · intro same
    rw [← same, xor_xor_cancel_right]
  · intro same
    rw [same, xor_xor_cancel_right]

/-- Zero extension of a letter that fits loses nothing. -/
theorem extend_injective (fits : letterWidth ≤ width) (left right : BitVec letterWidth)
    (same : left.setWidth width = right.setWidth width) : left = right := by
  apply BitVec.eq_of_toNat_eq
  have values := congrArg BitVec.toNat same
  have power : 2 ^ letterWidth ≤ 2 ^ width := Nat.pow_le_pow_right (by decide) fits
  have leftBound := left.isLt
  have rightBound := right.isLt
  rwa [BitVec.toNat_setWidth, BitVec.toNat_setWidth, Nat.mod_eq_of_lt (by omega),
    Nat.mod_eq_of_lt (by omega)] at values

section Invertible

variable {multiplier inverse : BitVec width} (unit : multiplier * inverse = 1)
include unit

theorem mul_right_cancels (left right : BitVec width)
    (same : left * multiplier = right * multiplier) : left = right := by
  have scaled := congrArg (· * inverse) same
  simpa only [mul_assoc, unit, mul_one] using scaled

theorem expel_absorb (state : BitVec width) (letter : BitVec letterWidth) :
    expel inverse (absorb multiplier state letter) letter = state := by
  rw [expel, absorb, mul_assoc, unit, mul_one, xor_xor_cancel_right]

theorem absorb_expel (state : BitVec width) (letter : BitVec letterWidth) :
    absorb multiplier (expel inverse state letter) letter = state := by
  rw [absorb, expel, xor_xor_cancel_right, mul_assoc, mul_comm inverse, unit, mul_one]

theorem undigest_digest (state : BitVec width) (letters : List (BitVec letterWidth)) :
    undigest inverse (digest multiplier state letters) letters = state := by
  induction letters generalizing state with
  | nil => rfl
  | cons letter rest ih => rw [digest_cons, undigest_cons, ih, expel_absorb unit]

theorem digest_undigest (final : BitVec width) (letters : List (BitVec letterWidth)) :
    digest multiplier (undigest inverse final letters) letters = final := by
  induction letters with
  | nil => rfl
  | cons letter rest ih => rw [undigest_cons, digest_cons, absorb_expel unit, ih]

theorem digest_eq_iff (state final : BitVec width) (letters : List (BitVec letterWidth)) :
    digest multiplier state letters = final ↔ state = undigest inverse final letters := by
  constructor
  · intro same
    rw [← same, undigest_digest unit]
  · intro same
    rw [same, digest_undigest unit]

theorem digest_state_injective (left right : BitVec width) (letters : List (BitVec letterWidth))
    (same : digest multiplier left letters = digest multiplier right letters) : left = right := by
  rw [digest_eq_iff unit, undigest_digest unit] at same
  exact same

/-- A disturbance of the state before `letters` explains `final` exactly when it
is the difference between the forward and the backward state there. -/
theorem disturbance_explains_iff (state final disturbance : BitVec width)
    (letters : List (BitVec letterWidth)) :
    digest multiplier (state ^^^ disturbance) letters = final ↔
      state ^^^ undigest inverse final letters = disturbance := by
  rw [digest_eq_iff unit, xor_eq_iff_eq_xor, xor_eq_iff_eq_xor, BitVec.xor_comm disturbance]

/-- Replacing one letter disturbs the state before it by the xor of the two
letters, so the replacement can be read off the same difference. -/
theorem replacement_explains_iff (state final : BitVec width)
    (stored replacement : BitVec letterWidth) (rest : List (BitVec letterWidth)) :
    digest multiplier state (replacement :: rest) = final ↔
      state ^^^ undigest inverse final (stored :: rest) =
        (stored ^^^ replacement).setWidth width := by
  have disturbed : digest multiplier state (replacement :: rest) =
      digest multiplier (state ^^^ (stored ^^^ replacement).setWidth width) (stored :: rest) := by
    simp only [digest_cons, absorb, BitVec.setWidth_xor]
    congr 2
    rw [BitVec.xor_assoc, BitVec.xor_comm (stored.setWidth width), xor_xor_cancel_right]
  rw [disturbed, disturbance_explains_iff unit]

end Invertible

end XorMultiplyHash
