import Mathlib.Data.BitVec

/-!
# Mixing steps on words

The steps from which integer hashes are composed: an xor with the word's own
upper bits, an addition and a multiplication. Each maps the words of a width one
to one, so any composition of them does. Two words of half the width fill the
halves of a word without disturbing each other.
-/

namespace WordMixing

set_option autoImplicit false

variable {width half : Nat}

def xorShift (shift : Nat) (word : BitVec width) : BitVec width := word ^^^ (word >>> shift)

/-- Two words in the halves of a wider one. -/
def pack (width : Nat) (low high : BitVec half) : BitVec width :=
  low.setWidth width ||| (high.setWidth width <<< half)

section Steps

theorem xor_shift_xor (shift : Nat) (left right : BitVec width) :
    xorShift shift (left ^^^ right) = xorShift shift left ^^^ xorShift shift right := by
  rw [xorShift, xorShift, xorShift, BitVec.ushiftRight_xor_distrib]
  ac_rfl

/-- A word that is its own upper part has no highest bit, and so no bit at all. -/
theorem eq_zero_of_xor_shift {shift : Nat} (positive : 0 < shift) (word : BitVec width)
    (vanishes : xorShift shift word = 0) : word = 0 := by
  have own : word = word >>> shift := BitVec.xor_eq_zero_iff.mp vanishes
  have values := congrArg BitVec.toNat own
  rw [BitVec.toNat_ushiftRight, Nat.shiftRight_eq_div_pow] at values
  apply BitVec.eq_of_toNat_eq
  by_contra nonzero
  have smaller : word.toNat / 2 ^ shift < word.toNat :=
    Nat.div_lt_self (Nat.pos_of_ne_zero nonzero) (Nat.one_lt_two_pow positive.ne')
  omega

theorem xor_shift_injective {shift : Nat} (positive : 0 < shift) :
    Function.Injective (xorShift shift : BitVec width → BitVec width) := by
  intro left right same
  apply BitVec.xor_eq_zero_iff.mp
  apply eq_zero_of_xor_shift positive
  rw [xor_shift_xor, same, BitVec.xor_self]
  rfl

theorem add_injective (constant : BitVec width) : Function.Injective (· + constant) := by
  intro left right same
  exact (BitVec.add_left_inj constant).mp same

/-- The words of one width are finitely many. -/
theorem bijective_of_injective {mix : BitVec width → BitVec width}
    (injective : Function.Injective mix) : Function.Bijective mix := by
  have finite : Finite (BitVec width) := by
    apply Finite.of_injective BitVec.toFin
    intro left right same
    exact BitVec.eq_of_toFin_eq same
  exact Finite.injective_iff_bijective.mp injective

end Steps

section Halves

variable (low high : BitVec half)

theorem pack_low (fits : half ≤ width) : (pack width low high).setWidth half = low := by
  apply BitVec.eq_of_getLsbD_eq
  intro i inside
  have within : i < width := by omega
  simp [pack, inside, within]

theorem pack_high (fits : half + half ≤ width) :
    (pack width low high >>> half).setWidth half = high := by
  apply BitVec.eq_of_getLsbD_eq
  intro i inside
  have within : half + i < width := by omega
  simp [pack, inside, within]

/-- The halves have no bit in common, so an xor packs them as well. -/
theorem xor_eq_pack :
    low.setWidth width ^^^ (high.setWidth width <<< half) = pack width low high := by
  apply BitVec.eq_of_getLsbD_eq
  intro i within
  by_cases inside : i < half
  · simp [pack, inside]
  · have above : low.getLsbD i = false := BitVec.getLsbD_of_ge _ _ (by omega)
    simp [pack, above]

theorem pack_injective (fits : half + half ≤ width) :
    Function.Injective fun halves : BitVec half × BitVec half =>
      pack width halves.1 halves.2 := by
  intro left right same
  apply Prod.ext
  · rw [← pack_low left.1 left.2 (by omega : half ≤ width), ← pack_low right.1 right.2]
    · exact congrArg (BitVec.setWidth half) same
    · omega
  · rw [← pack_high left.1 left.2 fits, ← pack_high right.1 right.2 fits]
    exact congrArg (fun word : BitVec width => (word >>> half).setWidth half) same

end Halves

end WordMixing
