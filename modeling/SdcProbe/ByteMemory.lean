import Mathlib.Data.List.Basic
import Mathlib.Algebra.Ring.Nat

/-!
# Byte-addressed memory

A memory gives every address a byte. Words are stored low byte first. Addresses
wrap around, so a region is described by how far an address lies above its base,
and a load is untouched by a store exactly when its bytes all lie too far above
the base of the store.
-/

namespace ByteMemory

set_option autoImplicit false

abbrev Memory (width : Nat) := BitVec width → BitVec 8

variable {width : Nat}

/-- How far `address` lies above `base`, around the end of the address space. -/
def offset (base address : BitVec width) : Nat := (address - base).toNat

def storeBytes (memory : Memory width) (base : BitVec width) (bytes : List (BitVec 8)) :
    Memory width :=
  fun address => bytes[offset base address]?.getD (memory address)

def loadBytes (memory : Memory width) (base : BitVec width) (length : Nat) : List (BitVec 8) :=
  (List.range length).map fun i => memory (base + BitVec.ofNat width i)

/-- `memset` -/
def fill (memory : Memory width) (base : BitVec width) (length : Nat) (byte : BitVec 8) :
    Memory width :=
  fun address => if offset base address < length then byte else memory address

def toBytes {bits : Nat} (count : Nat) (value : BitVec bits) : List (BitVec 8) :=
  (List.range count).map fun i => (value >>> (8 * i)).setWidth 8

def ofBytes (bits : Nat) : List (BitVec 8) → BitVec bits
  | [] => 0
  | byte :: rest => byte.setWidth bits ||| (ofBytes bits rest <<< 8)

def storeWord {bits : Nat} (count : Nat) (memory : Memory width) (base : BitVec width)
    (value : BitVec bits) : Memory width :=
  storeBytes memory base (toBytes count value)

def loadWord (bits count : Nat) (memory : Memory width) (base : BitVec width) : BitVec bits :=
  ofBytes bits (loadBytes memory base count)

section Bytes

variable {bits : Nat}

@[simp] theorem to_bytes_length (count : Nat) (value : BitVec bits) :
    (toBytes count value).length = count := by
  simp [toBytes]

theorem of_bytes_bit (bytes : List (BitVec 8)) (i : Nat) :
    (ofBytes bits bytes).getLsbD i =
      (decide (i < bits) && (bytes[i / 8]?.getD 0).getLsbD (i % 8)) := by
  induction bytes generalizing i with
  | nil => simp [ofBytes]
  | cons byte rest ih =>
      rw [ofBytes, BitVec.getLsbD_or, BitVec.getLsbD_setWidth, BitVec.getLsbD_shiftLeft, ih]
      by_cases low : i < 8
      · rw [Nat.div_eq_of_lt low, Nat.mod_eq_of_lt low]
        simp [low]
      · obtain ⟨above, rfl⟩ : ∃ above, i = above + 8 := ⟨i - 8, by omega⟩
        have high : byte.getLsbD (above + 8) = false := BitVec.getLsbD_of_ge _ _ (by omega)
        rw [high, Nat.add_div_right _ (by decide), Nat.add_mod_right, Nat.add_sub_cancel]
        by_cases inside : above + 8 < bits
        · simp [inside, show above < bits by omega]
        · simp [inside]

theorem of_bytes_to_bytes (count : Nat) (value : BitVec bits) (fits : bits ≤ 8 * count) :
    ofBytes bits (toBytes count value) = value := by
  apply BitVec.eq_of_getLsbD_eq
  intro i inside
  have here : i / 8 < count := by omega
  rw [of_bytes_bit, toBytes, List.getElem?_map, List.getElem?_range here]
  simp only [inside, Option.map_some, Option.getD_some, BitVec.getLsbD_setWidth,
    BitVec.getLsbD_ushiftRight]
  rw [show 8 * (i / 8) + i % 8 = i by omega]
  simp [Nat.mod_lt]

end Bytes

section Offsets

theorem offset_lt (base address : BitVec width) : offset base address < 2 ^ width :=
  (address - base).isLt

@[simp] theorem offset_self (base : BitVec width) : offset base base = 0 := by
  rw [offset, BitVec.sub_self]
  rfl

theorem offset_add (base address : BitVec width) (i : Nat)
    (inside : offset base address + i < 2 ^ width) :
    offset base (address + BitVec.ofNat width i) = offset base address + i := by
  have moved : address + BitVec.ofNat width i - base =
      (address - base) + BitVec.ofNat width i := by
    rw [BitVec.sub_eq_add_neg, BitVec.sub_eq_add_neg, BitVec.add_assoc, BitVec.add_assoc,
      BitVec.add_comm (BitVec.ofNat width i)]
  have small : i < 2 ^ width := by omega
  rw [offset, moved, BitVec.toNat_add, BitVec.toNat_ofNat, Nat.mod_eq_of_lt small]
  exact Nat.mod_eq_of_lt inside

theorem offset_base_add (base : BitVec width) (i : Nat) (inside : i < 2 ^ width) :
    offset base (base + BitVec.ofNat width i) = i := by
  rw [offset_add _ _ _ (by rwa [offset_self, Nat.zero_add]), offset_self, Nat.zero_add]

theorem base_add_offset (base address : BitVec width) :
    base + BitVec.ofNat width (offset base address) = address := by
  rw [offset, BitVec.ofNat_toNat, BitVec.setWidth_eq, BitVec.add_comm, BitVec.sub_add_cancel]

/-- One address further up, everything but the base itself is one address nearer. -/
theorem offset_succ (base address : BitVec width) (different : offset base address ≠ 0) :
    offset (base + 1) address + 1 = offset base address := by
  have bound := offset_lt (base + 1) address
  have place : address = base + BitVec.ofNat width (offset (base + 1) address + 1) := by
    rw [Nat.add_comm, BitVec.ofNat_add, ← BitVec.add_assoc]
    exact (base_add_offset (base + 1) address).symm
  by_cases last : offset (base + 1) address + 1 = 2 ^ width
  · have around : BitVec.ofNat width (2 ^ width) = BitVec.ofNat width 0 := by
      apply BitVec.eq_of_toNat_eq
      rw [BitVec.toNat_ofNat, Nat.mod_self]
      rfl
    rw [last, around, BitVec.add_zero] at place
    rw [place, offset_self] at different
    exact absurd rfl different
  · nth_rewrite 2 [place]
    exact (offset_base_add base _ (by omega)).symm

/-- The way up and the way back together go once around. -/
theorem offset_flip (base address : BitVec width) (different : offset base address ≠ 0) :
    offset address base = 2 ^ width - offset base address := by
  have negated : base - address = -(address - base) := by
    rw [BitVec.neg_sub, BitVec.sub_eq_add_neg, BitVec.add_comm]
  have bound := offset_lt base address
  rw [offset, negated, BitVec.toNat_neg, ← offset]
  exact Nat.mod_eq_of_lt (by omega)

theorem offset_of_le (base address : BitVec width) (above : base.toNat ≤ address.toNat) :
    offset base address = address.toNat - base.toNat :=
  BitVec.toNat_sub_of_le above

/-- The addresses of a region that does not wrap around. -/
theorem offset_lt_iff (base address : BitVec width) (length : Nat)
    (fits : base.toNat + length ≤ 2 ^ width) :
    offset base address < length ↔
      base.toNat ≤ address.toNat ∧ address.toNat < base.toNat + length := by
  by_cases above : base.toNat ≤ address.toNat
  · rw [offset_of_le base address above]
    omega
  · have back : offset address base = base.toNat - address.toNat :=
      offset_of_le address base (by omega)
    rw [offset_flip address base (by omega), back]
    omega

end Offsets

section Stores

variable (memory : Memory width) (base address : BitVec width)

theorem store_bytes_outside (bytes : List (BitVec 8))
    (outside : bytes.length ≤ offset base address) :
    storeBytes memory base bytes address = memory address := by
  rw [storeBytes, List.getElem?_eq_none outside, Option.getD_none]

theorem fill_inside (length : Nat) (byte : BitVec 8) (inside : offset base address < length) :
    fill memory base length byte address = byte := if_pos inside

theorem fill_outside (length : Nat) (byte : BitVec 8) (outside : length ≤ offset base address) :
    fill memory base length byte address = memory address := if_neg (Nat.not_lt.mpr outside)

theorem fill_zero (byte : BitVec 8) : fill memory base 0 byte = memory := by
  funext address
  exact fill_outside memory base address 0 byte (Nat.zero_le _)

/-- One byte is stored at the base, and the rest of the region is filled. -/
theorem fill_succ (length : Nat) (byte : BitVec 8) (fits : length < 2 ^ width) :
    fill (storeBytes memory base [byte]) (base + 1) length byte =
      fill memory base (length + 1) byte := by
  funext address
  by_cases here : offset base address = 0
  · have same : address = base := by
      rw [← base_add_offset base address, here]
      exact BitVec.add_zero base
    have behind : length ≤ offset (base + 1) base := by
      by_cases empty : length = 0
      · omega
      · have next : offset base (base + 1) = 1 := offset_base_add base 1 (by omega)
        rw [offset_flip base (base + 1) (by omega), next]
        omega
    rw [same, fill_outside _ _ _ _ _ behind, fill_inside _ _ _ _ _ (by rw [offset_self]; omega)]
    rw [storeBytes, offset_self]
    rfl
  · have moved := offset_succ base address here
    by_cases inside : offset base address < length + 1
    · rw [fill_inside _ _ _ _ _ inside, fill_inside _ _ _ _ _ (by omega)]
    · rw [fill_outside _ _ _ _ _ (by omega), fill_outside _ _ _ _ _ (by omega)]
      apply store_bytes_outside
      exact Nat.pos_of_ne_zero here

@[simp] theorem load_bytes_length (length : Nat) :
    (loadBytes memory base length).length = length := by
  simp [loadBytes]

/-- Loads that see the same bytes agree. -/
theorem load_bytes_congr (left right : Memory width) (length : Nat)
    (agree : ∀ i, i < length →
      left (base + BitVec.ofNat width i) = right (base + BitVec.ofNat width i)) :
    loadBytes left base length = loadBytes right base length := by
  apply List.map_congr_left
  intro i member
  exact agree i (List.mem_range.mp member)

theorem load_store_same (bytes : List (BitVec 8)) (fits : bytes.length ≤ 2 ^ width) :
    loadBytes (storeBytes memory base bytes) base bytes.length = bytes := by
  apply List.ext_getElem
  · rw [load_bytes_length]
  · intro i _ inside
    have near : i < 2 ^ width := Nat.lt_of_lt_of_le inside fits
    simp only [loadBytes, List.getElem_map, List.getElem_range, storeBytes,
      offset_base_add base i near, List.getElem?_eq_getElem inside, Option.getD_some]

/-- The frame rule: a load of bytes that lie above the store, before the way
around reaches it again. -/
theorem load_store_apart (bytes : List (BitVec 8)) (length : Nat)
    (above : bytes.length ≤ offset base address)
    (below : offset base address + length ≤ 2 ^ width) :
    loadBytes (storeBytes memory base bytes) address length = loadBytes memory address length := by
  apply load_bytes_congr
  intro i inside
  apply store_bytes_outside
  rw [offset_add _ _ _ (by omega)]
  omega

variable {bits : Nat} (value : BitVec bits) (count : Nat)

theorem load_word_store_same (fits : bits ≤ 8 * count) (room : count ≤ 2 ^ width) :
    loadWord bits count (storeWord count memory base value) base = value := by
  have back := load_store_same memory base (toBytes count value) (by rwa [to_bytes_length])
  rw [to_bytes_length] at back
  rw [loadWord, storeWord, back, of_bytes_to_bytes count value fits]

theorem load_word_store_apart (bits' count' : Nat) (above : count ≤ offset base address)
    (below : offset base address + count' ≤ 2 ^ width) :
    loadWord bits' count' (storeWord count memory base value) address =
      loadWord bits' count' memory address := by
  rw [loadWord, loadWord, storeWord,
    load_store_apart _ _ _ _ _ (by rwa [to_bytes_length]) below]

theorem store_word_outside (outside : count ≤ offset base address) :
    storeWord count memory base value address = memory address :=
  store_bytes_outside _ _ _ _ (by rwa [to_bytes_length])

end Stores

/-! Regions that do not wrap around, given by the numbers of their addresses. -/

section Numbered

theorem offset_below (base address : Nat) (below : address < base) (bound : base < 2 ^ width) :
    offset (BitVec.ofNat width base) (BitVec.ofNat width address) =
      2 ^ width - base + address := by
  rw [offset, BitVec.toNat_sub, BitVec.toNat_ofNat, BitVec.toNat_ofNat, Nat.mod_eq_of_lt bound,
    Nat.mod_eq_of_lt (Nat.lt_trans below bound)]
  exact Nat.mod_eq_of_lt (by omega)

theorem offset_above (base address : Nat) (above : base ≤ address) (bound : address < 2 ^ width) :
    offset (BitVec.ofNat width base) (BitVec.ofNat width address) = address - base := by
  have baseBound : base < 2 ^ width := Nat.lt_of_le_of_lt above bound
  have values : (BitVec.ofNat width base).toNat ≤ (BitVec.ofNat width address).toNat := by
    rw [BitVec.toNat_ofNat, BitVec.toNat_ofNat, Nat.mod_eq_of_lt bound, Nat.mod_eq_of_lt baseBound]
    exact above
  rw [offset_of_le _ _ values, BitVec.toNat_ofNat, BitVec.toNat_ofNat, Nat.mod_eq_of_lt bound,
    Nat.mod_eq_of_lt baseBound]

/-- An address outside a region lies at least its length above its base. -/
theorem outside_region (base length address : Nat) (fits : base + length ≤ 2 ^ width)
    (bound : address < 2 ^ width) (outside : address < base ∨ base + length ≤ address) :
    length ≤ offset (BitVec.ofNat width base) (BitVec.ofNat width address) := by
  rcases outside with below | above
  · by_cases empty : base < 2 ^ width
    · rw [offset_below base address below empty]
      omega
    · omega
  · rw [offset_above base address (by omega) bound]
    omega

variable (memory : Memory width)

theorem fill_region (base length address : Nat) (byte : BitVec 8)
    (bound : address < 2 ^ width) (lower : base ≤ address) (upper : address < base + length) :
    fill memory (BitVec.ofNat width base) length byte (BitVec.ofNat width address) = byte := by
  apply fill_inside
  rw [offset_above base address lower bound]
  omega

theorem fill_elsewhere (base length address : Nat) (byte : BitVec 8)
    (fits : base + length ≤ 2 ^ width) (bound : address < 2 ^ width)
    (outside : address < base ∨ base + length ≤ address) :
    fill memory (BitVec.ofNat width base) length byte (BitVec.ofNat width address) =
      memory (BitVec.ofNat width address) :=
  fill_outside _ _ _ _ _ (outside_region base length address fits bound outside)

variable {bits : Nat} (value : BitVec bits) (count : Nat)

theorem store_word_elsewhere (base address : Nat) (fits : base + count ≤ 2 ^ width)
    (bound : address < 2 ^ width) (outside : address < base ∨ base + count ≤ address) :
    storeWord count memory (BitVec.ofNat width base) value (BitVec.ofNat width address) =
      memory (BitVec.ofNat width address) :=
  store_word_outside _ _ _ _ _ (outside_region base count address fits bound outside)

theorem load_word_congr (left right : Memory width) (base : Nat)
    (agree : ∀ address, base ≤ address → address < base + count →
      left (BitVec.ofNat width address) = right (BitVec.ofNat width address)) :
    loadWord bits count left (BitVec.ofNat width base) =
      loadWord bits count right (BitVec.ofNat width base) := by
  rw [loadWord, loadWord]
  congr 1
  apply load_bytes_congr
  intro i inside
  rw [← BitVec.ofNat_add]
  exact agree (base + i) (by omega) (by omega)

end Numbered

end ByteMemory
