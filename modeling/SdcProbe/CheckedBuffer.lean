import Mathlib.Data.List.Basic

/-!
# Buffers whose every access is checked

A read or a write outside a buffer of `size` cells has no result, so a
computation that returns a value has stayed inside all the buffers it was given.
Two loops recur in programs over such buffers: filling a table upwards, each
cell from the one before it, and filling it downwards from its last cell.
-/

namespace CheckedBuffer

set_option autoImplicit false

variable {Cell : Type*} {size : Nat}

def readAt (buffer : Vector Cell size) (index : Nat) : Option Cell := buffer[index]?

def writeAt (buffer : Vector Cell size) (index : Nat) (value : Cell) :
    Option (Vector Cell size) :=
  if inside : index < size then some (buffer.set index value inside) else none

/-- The first `count` trips of `for k: buffer[k + 1] = step k buffer[k]`. -/
def fillUp (step : Nat → Cell → Option Cell) :
    Nat → Vector Cell size → Option (Vector Cell size)
  | 0, buffer => some buffer
  | count + 1, buffer => do
      let buffer ← fillUp step count buffer
      let previous ← readAt buffer count
      let value ← step count previous
      writeAt buffer (count + 1) value

/-- `for k = count; k > 0; --k: buffer[k - 1] = step (k - 1) buffer[k]`. -/
def fillDown (step : Nat → Cell → Option Cell) :
    Nat → Vector Cell size → Option (Vector Cell size)
  | 0, buffer => some buffer
  | count + 1, buffer => do
      let next ← readAt buffer (count + 1)
      let value ← step count next
      let buffer ← writeAt buffer count value
      fillDown step count buffer

theorem write_at_inside (buffer : Vector Cell size) (index : Nat) (value : Cell)
    (inside : index < size) :
    writeAt buffer index value = some (buffer.set index value inside) := by
  rw [writeAt, dif_pos inside]

theorem read_after_write (buffer : Vector Cell size) (index other : Nat) (value : Cell)
    (inside : index < size) :
    readAt (buffer.set index value inside) other =
      if index = other then some value else readAt buffer other := by
  simp only [readAt, Vector.getElem?_set]

/-- After `count` trips upwards the cells up to `count` hold the orbit of the
step, whatever they held before. -/
theorem fill_up_orbit (step : Nat → Cell → Option Cell) (orbit : Nat → Cell) (count : Nat)
    (buffer : Vector Cell size) (inside : count < size)
    (first : readAt buffer 0 = some (orbit 0))
    (next : ∀ k, k < count → step k (orbit k) = some (orbit (k + 1))) :
    ∃ filled, fillUp step count buffer = some filled ∧
      ∀ k, k ≤ count → readAt filled k = some (orbit k) := by
  induction count with
  | zero =>
      refine ⟨buffer, rfl, ?_⟩
      intro k bound
      rw [Nat.le_zero.mp bound, first]
  | succ count ih =>
      obtain ⟨filled, ran, holds⟩ := ih (by omega) (fun k bound => next k (by omega))
      refine ⟨filled.set (count + 1) (orbit (count + 1)) inside, ?_, ?_⟩
      · simp only [fillUp, ran, Option.bind_eq_bind, Option.bind_some, holds count (Nat.le_refl _),
          next count (Nat.lt_succ_self _), write_at_inside _ _ _ inside]
      · intro k bound
        rw [read_after_write]
        split_ifs with same
        · rw [same]
        · exact holds k (by omega)

/-- Downwards, the invariant is about the cells at and above the next one to be
written: they already hold the orbit and are not touched again. -/
theorem fill_down_orbit (step : Nat → Cell → Option Cell) (orbit : Nat → Cell)
    (count last : Nat) (buffer : Vector Cell size) (lower : count ≤ last) (inside : last < size)
    (above : ∀ k, count ≤ k → k ≤ last → readAt buffer k = some (orbit k))
    (next : ∀ k, k < count → step k (orbit (k + 1)) = some (orbit k)) :
    ∃ filled, fillDown step count buffer = some filled ∧
      ∀ k, k ≤ last → readAt filled k = some (orbit k) := by
  induction count generalizing buffer with
  | zero => exact ⟨buffer, rfl, fun k bound => above k (Nat.zero_le _) bound⟩
  | succ count ih =>
      have here : count < size := by omega
      have written : ∀ k, count ≤ k → k ≤ last →
          readAt (buffer.set count (orbit count) here) k = some (orbit k) := by
        intro k lowerBound upperBound
        rw [read_after_write]
        split_ifs with same
        · rw [same]
        · exact above k (by omega) upperBound
      obtain ⟨filled, ran, holds⟩ := ih (buffer.set count (orbit count) here) (by omega) written
        (fun k bound => next k (by omega))
      refine ⟨filled, ?_, holds⟩
      simp only [fillDown, above (count + 1) (Nat.le_refl _) lower, Option.bind_eq_bind,
        Option.bind_some, next count (Nat.lt_succ_self _), write_at_inside _ _ _ here, ran]

end CheckedBuffer
