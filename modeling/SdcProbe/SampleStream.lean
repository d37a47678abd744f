import SdcProbe.Fnv1a
import Mathlib.Data.List.Range

/-!
# The memory path

The sample array seen as a byte stream, and the two straight passes over it:
`replay_hash`, and `replay_hash_with_substitution`, which the self-test uses to
build the hash a misread would have produced. A sample is the bit pattern of a
float; its four bytes lie in memory with the low one first.
-/

namespace SdcProbe.SampleStream

open XorMultiplyHash Fnv1a

set_option autoImplicit false

abbrev Sample := BitVec 32

/-- Byte `lane` of a sample: `cl`, `ch`, the byte above them, the top byte. -/
def laneByte (sample : Sample) (lane : Nat) : Byte := (sample >>> (8 * lane)).setWidth 8

/-- `p[k]` with `p = reinterpret_cast<const unsigned char*>(data)`. -/
def byteAt {count : Nat} (data : Vector Sample count) (k : Nat) : Byte :=
  laneByte (data[k / 4]?.getD 0) (k % 4)

/-- The loop both passes share: xor a byte in, multiply by the prime. -/
def hashBytes (byte : Nat → Byte) (totalBytes : Nat) : Word :=
  (List.range totalBytes).foldl
    (fun hash k => (hash ^^^ (byte k).setWidth 64) * kFnvPrime) kFnvBasis

def replayHash {count : Nat} (data : Vector Sample count) (sampleCount : Nat) : Word :=
  hashBytes (byteAt data) (sampleCount * 4)

def replayHashWithSubstitution {count : Nat} (data : Vector Sample count)
    (sampleCount byteIndex : Nat) (replacement : Byte) : Word :=
  hashBytes (fun k => if k = byteIndex then replacement else byteAt data k) (sampleCount * 4)

/-- The bytes at `first`, `first + 1`, ..., as a list. -/
def bytesFrom (byte : Nat → Byte) (first length : Nat) : List Byte :=
  (List.range' first length).map byte

@[simp] theorem bytes_from_length (byte : Nat → Byte) (first length : Nat) :
    (bytesFrom byte first length).length = length := by
  simp [bytesFrom]

@[simp] theorem bytes_from_zero (byte : Nat → Byte) (first : Nat) :
    bytesFrom byte first 0 = [] := rfl

theorem bytes_from_succ (byte : Nat → Byte) (first length : Nat) :
    bytesFrom byte first (length + 1) = byte first :: bytesFrom byte (first + 1) length := rfl

theorem bytes_from_append (byte : Nat → Byte) (first left right : Nat) :
    bytesFrom byte first (left + right) =
      bytesFrom byte first left ++ bytesFrom byte (first + left) right := by
  simp [bytesFrom, ← List.map_append, List.range'_append_1]

theorem bytes_from_congr (left right : Nat → Byte) (first length : Nat)
    (agree : ∀ k, first ≤ k → k < first + length → left k = right k) :
    bytesFrom left first length = bytesFrom right first length := by
  apply List.map_congr_left
  intro k member
  rw [List.mem_range'_1] at member
  exact agree k member.1 member.2

theorem bytes_from_same_bytes (left right : Nat → Byte) (first length : Nat)
    (same : bytesFrom left first length = bytesFrom right first length) (k : Nat)
    (lower : first ≤ k) (upper : k < first + length) : left k = right k :=
  List.map_inj_left.mp same k (List.mem_range'_1.mpr ⟨lower, upper⟩)

/-- The straight pass is the forward fold of the xor-multiply hash. -/
theorem hash_bytes_eq_digest (byte : Nat → Byte) (totalBytes : Nat) :
    hashBytes byte totalBytes = digest kFnvPrime kFnvBasis (bytesFrom byte 0 totalBytes) := by
  rw [hashBytes, bytesFrom, digest, List.foldl_map, List.range_eq_range']
  rfl

theorem hash_bytes_split (byte : Nat → Byte) (before window after : Nat) :
    hashBytes byte (before + window + after) =
      digest kFnvPrime (digest kFnvPrime (hashBytes byte before) (bytesFrom byte before window))
        (bytesFrom byte (before + window) after) := by
  rw [hash_bytes_eq_digest, hash_bytes_eq_digest, bytes_from_append, bytes_from_append,
    digest_append, digest_append, Nat.zero_add, Nat.zero_add]

theorem hash_bytes_congr (left right : Nat → Byte) (totalBytes : Nat)
    (agree : ∀ k, k < totalBytes → left k = right k) :
    hashBytes left totalBytes = hashBytes right totalBytes := by
  rw [hash_bytes_eq_digest, hash_bytes_eq_digest,
    bytes_from_congr left right 0 totalBytes (fun k _ upper => agree k (by omega))]

/-- Two streams that differ only inside four consecutive bytes and hash alike
do not differ at all. -/
theorem hash_bytes_window_injective (left right : Nat → Byte) (first window totalBytes : Nat)
    (short : window ≤ 4) (inside : first + window ≤ totalBytes)
    (agree : ∀ k, k < totalBytes → ¬(first ≤ k ∧ k < first + window) → left k = right k)
    (same : hashBytes left totalBytes = hashBytes right totalBytes) (k : Nat)
    (bound : k < totalBytes) : left k = right k := by
  by_cases within : first ≤ k ∧ k < first + window
  · obtain ⟨after, total⟩ : ∃ after, totalBytes = first + window + after :=
      ⟨totalBytes - (first + window), by omega⟩
    have prefixes : hashBytes left first = hashBytes right first :=
      hash_bytes_congr left right first (fun k bound => agree k (by omega) (by omega))
    have suffixes :
        bytesFrom left (first + window) after = bytesFrom right (first + window) after :=
      bytes_from_congr left right _ _ (fun k lower upper => agree k (by omega) (by omega))
    rw [total, hash_bytes_split, hash_bytes_split, suffixes, prefixes] at same
    have windows := window_injective _ _ _ (by simp) (by simpa using short)
      (digest_state_injective prime_times_inverse _ _ _ same)
    exact bytes_from_same_bytes left right first window windows k within.1 within.2
  · exact agree k bound within

/-- The four bytes of a sample determine it. -/
theorem lane_bytes_injective (left right : Sample)
    (same : ∀ lane, lane < 4 → laneByte left lane = laneByte right lane) : left = right := by
  apply BitVec.eq_of_getElem_eq
  intro i bound
  have lane := congrArg (fun byte : Byte => byte.getLsbD (i % 8)) (same (i / 8) (by omega))
  simp only [laneByte, BitVec.getLsbD_setWidth, BitVec.getLsbD_ushiftRight] at lane
  rw [show 8 * (i / 8) + i % 8 = i by omega] at lane
  simpa [show i % 8 < 8 by omega, BitVec.getLsbD_eq_getElem bound] using lane

end SdcProbe.SampleStream
