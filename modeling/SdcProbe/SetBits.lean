import Mathlib.Data.Finset.Card
import Mathlib.Data.Finset.Range
import Mathlib.Data.Nat.Factorization.Basic

/-!
# The set bits of a word

The positions of the ones of a bit vector as a finite set. Subtracting one and
masking takes exactly the least position away, the empty set belongs to zero and
the one-element sets to the powers of two.
-/

namespace SetBits

set_option autoImplicit false

variable {width : Nat}

def setBits (value : BitVec width) : Finset Nat :=
  (Finset.range width).filter fun i => value.getLsbD i = true

theorem mem_set_bits (value : BitVec width) (i : Nat) :
    i ∈ setBits value ↔ value.getLsbD i = true := by
  rw [setBits, Finset.mem_filter, Finset.mem_range]
  constructor
  · exact And.right
  · intro bit
    exact ⟨BitVec.lt_of_getLsbD bit, bit⟩

theorem set_bits_eq_iff (left right : BitVec width) :
    setBits left = setBits right ↔ left = right := by
  constructor
  · intro same
    apply BitVec.eq_of_getLsbD_eq
    intro i _
    rw [Bool.eq_iff_iff, ← mem_set_bits, ← mem_set_bits, same]
  · exact congrArg setBits

theorem set_bits_zero : setBits (0 : BitVec width) = ∅ := by
  simp [setBits]

theorem set_bits_eq_empty_iff (value : BitVec width) : setBits value = ∅ ↔ value = 0 := by
  rw [← set_bits_zero, set_bits_eq_iff]

theorem set_bits_two_pow (i : Nat) (inside : i < width) :
    setBits (BitVec.twoPow width i) = {i} := by
  ext j
  rw [mem_set_bits, BitVec.getLsbD_twoPow, Finset.mem_singleton]
  simp [inside, eq_comm]

theorem card_eq_one_iff (value : BitVec width) :
    (setBits value).card = 1 ↔ ∃ i, i < width ∧ value = BitVec.twoPow width i := by
  constructor
  · intro single
    obtain ⟨i, only⟩ := Finset.card_eq_one.mp single
    have bit : value.getLsbD i = true :=
      (mem_set_bits value i).mp (only ▸ Finset.mem_singleton_self i)
    have inside := BitVec.lt_of_getLsbD bit
    exact ⟨i, inside, (set_bits_eq_iff _ _).mp (only.trans (set_bits_two_pow i inside).symm)⟩
  · intro power
    obtain ⟨i, inside, rfl⟩ := power
    rw [set_bits_two_pow i inside, Finset.card_singleton]

/-- Written as an odd number shifted left by the position of its lowest one, a
number loses just that one when it is masked with its predecessor. -/
theorem and_pred_testBit (lowest half i : Nat) :
    (2 ^ lowest * (2 * half + 1) &&& (2 ^ lowest * (2 * half + 1) - 1)).testBit i =
      ((2 ^ lowest * (2 * half + 1)).testBit i && decide (i ≠ lowest)) := by
  have positive : 0 < 2 ^ lowest := Nat.two_pow_pos lowest
  have pred : 2 ^ lowest * (2 * half + 1) - 1 = 2 ^ lowest * (2 * half) + (2 ^ lowest - 1) := by
    rw [Nat.mul_add, Nat.mul_one]
    omega
  have whole : 2 ^ lowest * (2 * half + 1) = 2 ^ lowest * (2 * half + 1) + 0 := rfl
  rw [Nat.testBit_and, pred, Nat.testBit_two_pow_mul_add _ (by omega), whole,
    Nat.testBit_two_pow_mul_add _ positive]
  rcases Nat.lt_trichotomy i lowest with below | same | above
  · simp [below]
  · subst same
    simp
  · obtain ⟨more, rfl⟩ : ∃ more, i = lowest + 1 + more := ⟨i - (lowest + 1), by omega⟩
    rw [if_neg (by omega), if_neg (by omega), show lowest + 1 + more - lowest = more + 1 by omega,
      Nat.testBit_succ, Nat.testBit_succ, show (2 * half + 1) / 2 = half by omega,
      show 2 * half / 2 = half by omega, Bool.and_self, decide_eq_true (by omega), Bool.and_true]

/-- Clearing the lowest one removes one position and no other. -/
theorem set_bits_and_pred (value : BitVec width) (nonzero : value ≠ 0) :
    ∃ lowest ∈ setBits value, setBits (value &&& (value - 1)) = (setBits value).erase lowest := by
  have positive : value.toNat ≠ 0 := fun zero => nonzero (BitVec.eq_of_toNat_eq zero)
  obtain ⟨lowest, odd, isOdd, split⟩ := Nat.exists_eq_two_pow_mul_odd positive
  obtain ⟨half, rfl⟩ := isOdd
  have own : value.toNat.testBit lowest = true := by
    rw [split, show 2 ^ lowest * (2 * half + 1) = 2 ^ lowest * (2 * half + 1) + 0 from rfl,
      Nat.testBit_two_pow_mul_add _ (Nat.two_pow_pos lowest)]
    simp
  have pred : (value - 1).toNat = value.toNat - 1 := by
    have bound := value.isLt
    have wide : 1 < 2 ^ width := by omega
    have one : (1 : BitVec width).toNat = 1 := Nat.mod_eq_of_lt wide
    rw [BitVec.toNat_sub_of_le (by rw [BitVec.le_def, one]; omega), one]
  refine ⟨lowest, (mem_set_bits value lowest).mpr own, ?_⟩
  ext i
  rw [mem_set_bits, Finset.mem_erase, mem_set_bits, BitVec.getLsbD, BitVec.toNat_and, pred,
    BitVec.getLsbD, split, and_pred_testBit, Bool.and_eq_true, decide_eq_true_iff, and_comm]

theorem card_and_pred (value : BitVec width) (nonzero : value ≠ 0) :
    (setBits (value &&& (value - 1))).card + 1 = (setBits value).card := by
  obtain ⟨lowest, member, erased⟩ := set_bits_and_pred value nonzero
  rw [erased, Finset.card_erase_add_one member]

end SetBits
