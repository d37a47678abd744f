import SdcProbe.CheckedBuffer
import SdcProbe.LaneSequence

/-!
# Reverse FNV analysis

`reverse_fnv` folds the stored samples forward from the basis and backward from
the wrong hash and scans the two tables for the first difference below 256. All
its buffer accesses are checked. What a read past the sample bytes yields is a
parameter: `none` when no such read is allowed, or the byte that lies there.
-/

namespace SdcProbe.ReverseFnv

open CheckedBuffer XorMultiplyHash Fnv1a SampleStream LaneSequence

set_option autoImplicit false

/-- Clearing the lowest set bit lowers the value, so the loop ends. -/
theorem clear_lowest_bit_lt (value : Word) (nonzero : value ≠ 0) :
    (value &&& (value - 1)).toNat < value.toNat := by
  have positive : 0 < value.toNat := by
    rcases Nat.eq_zero_or_pos value.toNat with zero | positive
    · exact absurd (BitVec.eq_of_toNat_eq zero) nonzero
    · exact positive
  have bound : (value &&& (value - 1)).toNat ≤ (value - 1).toNat := by
    rw [BitVec.toNat_and]
    exact Nat.and_le_right
  have below : (value - 1).toNat = value.toNat - 1 := by
    have valueBound := value.isLt
    rw [BitVec.toNat_sub]
    simp only [BitVec.ofNat_eq_ofNat, BitVec.toNat_ofNat]
    omega
  omega

/-- `while (value != 0) { value &= value - 1; ++count; }` -/
def popcountLoop (value : Word) (count : Nat) : Nat :=
  if nonzero : value ≠ 0 then popcountLoop (value &&& (value - 1)) (count + 1) else count
termination_by value.toNat
decreasing_by exact clear_lowest_bit_lt value nonzero

def popcount64 (value : Word) : Nat := popcountLoop value 0

structure ReverseResult where
  singleByte : Bool := false
  lane : Lane := laneOf 0
  sampleIndex : Nat := 0
  stored : Byte := 0
  observed : Byte := 0
  minPopcount : Nat := 65

/-- `bytes[k]`, with `past` for what lies after the last sample. -/
def readByte {count : Nat} (past : Nat → Option Byte) (samples : Vector Sample count) (k : Nat) :
    Option Byte :=
  if k < count * 4 then some (byteAt samples k) else past k

/-- `forward[k + 1]` from `forward[k]`. -/
def forwardStep {count : Nat} (past : Nat → Option Byte) (samples : Vector Sample count) (k : Nat)
    (state : Word) : Option Word := do
  let byte ← readByte past samples k
  some ((state ^^^ byte.setWidth 64) * kFnvPrime)

/-- `backward[k]` from `backward[k + 1]`. -/
def backwardStep {count : Nat} (past : Nat → Option Byte) (samples : Vector Sample count) (k : Nat)
    (state : Word) : Option Word := do
  let byte ← readByte past samples k
  some ((state * kFnvPrimeInverse) ^^^ byte.setWidth 64)

/-- The body of the scan loop. -/
def scanStep {count : Nat} (past : Nat → Option Byte) (samples : Vector Sample count)
    (forward backward : Vector Word (count * 4 + 1)) (result : ReverseResult) (k : Nat) :
    Option ReverseResult := do
  let expected ← readAt forward k
  let actual ← readAt backward k
  let diff := expected ^^^ actual
  let bits := popcount64 diff
  let result := if bits < result.minPopcount then { result with minPopcount := bits } else result
  if diff ≠ 0 ∧ diff < 256 ∧ result.singleByte = false then
    let byte ← readByte past samples k
    some { result with
      singleByte := true
      lane := laneOf k
      sampleIndex := k / 4
      stored := byte
      observed := byte ^^^ diff.setWidth 8 }
  else some result

def reverseFnv {count : Nat} (past : Nat → Option Byte) (correctSamples : Vector Sample count)
    (wrongHash : Word) (forward backward : Vector Word (count * 4 + 1)) :
    Option (ReverseResult × Vector Word (count * 4 + 1) × Vector Word (count * 4 + 1)) := do
  let n := count * 4
  let forward ← writeAt forward 0 kFnvBasis
  let forward ← fillUp (forwardStep past correctSamples) n forward
  let backward ← writeAt backward n wrongHash
  let backward ← fillDown (backwardStep past correctSamples) n backward
  let result ← (List.range (n + 1)).foldlM (scanStep past correctSamples forward backward) {}
  some (result, forward, backward)

/-- What the accumulator must have been before byte `k`. -/
def forwardState {count : Nat} (samples : Vector Sample count) (k : Nat) : Word :=
  hashBytes (byteAt samples) k

/-- What the accumulator actually was, if the rest of the stream was processed
correctly. -/
def backwardState {count : Nat} (samples : Vector Sample count) (wrongHash : Word) (k : Nat) :
    Word :=
  undigest kFnvPrimeInverse wrongHash (bytesFrom (byteAt samples) k (count * 4 - k))

def difference {count : Nat} (samples : Vector Sample count) (wrongHash : Word) (k : Nat) : Word :=
  forwardState samples k ^^^ backwardState samples wrongHash k

/-- The shape of a misread byte. -/
def ByteShaped (diff : Word) : Prop := diff ≠ 0 ∧ diff < 256

instance (diff : Word) : Decidable (ByteShaped diff) :=
  inferInstanceAs (Decidable (_ ∧ _))

/-- The position the scan reports, when it reports one. -/
def FirstMatch {count : Nat} (samples : Vector Sample count) (wrongHash : Word) (p : Nat) : Prop :=
  ByteShaped (difference samples wrongHash p) ∧
    ∀ k, k < p → ¬ByteShaped (difference samples wrongHash k)

section Tables

variable {count : Nat} (past : Nat → Option Byte) (samples : Vector Sample count) (wrongHash : Word)

theorem read_byte_inside (k : Nat) (inside : k < count * 4) :
    readByte past samples k = some (byteAt samples k) := if_pos inside

theorem forward_state_succ (k : Nat) :
    forwardState samples (k + 1) =
      absorb kFnvPrime (forwardState samples k) (byteAt samples k) := by
  rw [forwardState, forwardState, hash_bytes_eq_digest, hash_bytes_eq_digest, bytes_from_append,
    digest_append, Nat.zero_add]
  rfl

theorem backward_state_last : backwardState samples wrongHash (count * 4) = wrongHash := by
  rw [backwardState, Nat.sub_self, bytes_from_zero, undigest_nil]

theorem backward_state_pred (k : Nat) (inside : k < count * 4) :
    backwardState samples wrongHash k =
      expel kFnvPrimeInverse (backwardState samples wrongHash (k + 1)) (byteAt samples k) := by
  rw [backwardState, backwardState,
    show count * 4 - k = count * 4 - (k + 1) + 1 by omega, bytes_from_succ, undigest_cons]

/-- Both tables as the scan finds them, whatever the buffers held on entry. -/
theorem tables_filled (forward backward : Vector Word (count * 4 + 1)) :
    ∃ forward' backward',
      (∀ k, k ≤ count * 4 → readAt forward' k = some (forwardState samples k)) ∧
      (∀ k, k ≤ count * 4 → readAt backward' k = some (backwardState samples wrongHash k)) ∧
      reverseFnv past samples wrongHash forward backward =
        ((List.range (count * 4 + 1)).foldlM
          (scanStep past samples forward' backward') {}).map
            fun result => (result, forward', backward') := by
  obtain ⟨forward', ranUp, holdsUp⟩ := fill_up_orbit (forwardStep past samples)
    (forwardState samples) (count * 4) (forward.set 0 kFnvBasis (by omega)) (by omega)
    (by rw [read_after_write, if_pos rfl]; rfl)
    (by
      intro k bound
      rw [forwardStep, read_byte_inside past samples k bound, forward_state_succ]
      rfl)
  obtain ⟨backward', ranDown, holdsDown⟩ := fill_down_orbit (backwardStep past samples)
    (backwardState samples wrongHash) (count * 4) (count * 4)
    (backward.set (count * 4) wrongHash (by omega)) (Nat.le_refl _) (by omega)
    (by
      intro k lower upper
      obtain rfl : k = count * 4 := by omega
      rw [read_after_write, if_pos rfl, backward_state_last])
    (by
      intro k bound
      rw [backwardStep, read_byte_inside past samples k bound,
        backward_state_pred samples wrongHash k bound]
      rfl)
  refine ⟨forward', backward', holdsUp, holdsDown, ?_⟩
  simp only [reverseFnv, write_at_inside _ 0 _ (Nat.succ_pos _),
    write_at_inside _ (count * 4) _ (Nat.lt_succ_self _), Option.bind_eq_bind, Option.bind_some,
    ranUp, ranDown, Option.map_eq_bind]
  rfl

/-- What the scan knows after the first `done` indices. -/
structure Scanned (done : Nat) (result : ReverseResult) : Prop where
  popcount : result.minPopcount = (List.range done).foldl
    (fun least k => min least (popcount64 (difference samples wrongHash k))) 65
  silent : result.singleByte = false →
    ∀ k, k < done → ¬ByteShaped (difference samples wrongHash k)
  found : result.singleByte = true → ∃ p, p < done ∧ FirstMatch samples wrongHash p ∧
    result.lane = laneOf p ∧ result.sampleIndex = p / 4 ∧
    readByte past samples p = some result.stored ∧
    result.observed = result.stored ^^^ (difference samples wrongHash p).setWidth 8

theorem scanned_start : Scanned past samples wrongHash 0 {} where
  popcount := rfl
  silent _ k bound := absurd bound (Nat.not_lt_zero k)
  found flag := Bool.noConfusion flag

variable {past samples wrongHash}

theorem first_match_unique {p q : Nat} (left : FirstMatch samples wrongHash p)
    (right : FirstMatch samples wrongHash q) : p = q := by
  rcases Nat.lt_trichotomy p q with below | same | above
  · exact absurd left.1 (right.2 p below)
  · exact same
  · exact absurd right.1 (left.2 q above)

/-- Counting the bits of one more difference never touches the report. -/
theorem scanned_counted {done : Nat} {result next : ReverseResult}
    (scanned : Scanned past samples wrongHash done result)
    (counted : next.minPopcount =
      min result.minPopcount (popcount64 (difference samples wrongHash done))) :
    next.minPopcount = (List.range (done + 1)).foldl
      (fun least k => min least (popcount64 (difference samples wrongHash k))) 65 := by
  rw [List.range_succ, List.foldl_append, ← scanned.popcount, counted]
  rfl

theorem scan_step_cases {forward backward : Vector Word (count * 4 + 1)} {done : Nat}
    {result : ReverseResult} (inside : done ≤ count * 4)
    (forwardHolds : readAt forward done = some (forwardState samples done))
    (backwardHolds : readAt backward done = some (backwardState samples wrongHash done))
    (scanned : Scanned past samples wrongHash done result) :
    (∃ next, scanStep past samples forward backward result done = some next ∧
      Scanned past samples wrongHash (done + 1) next) ∨
    (scanStep past samples forward backward result done = none ∧ done = count * 4 ∧
      FirstMatch samples wrongHash done ∧ past done = none) := by
  have minimum : ∀ bits, (if bits < result.minPopcount then { result with minPopcount := bits }
      else result) = { result with minPopcount := min result.minPopcount bits } := by
    intro bits
    split_ifs with less
    · rw [min_eq_right (Nat.le_of_lt less)]
    · rw [min_eq_left (Nat.le_of_not_lt less)]
  simp only [scanStep, forwardHolds, backwardHolds, Option.bind_eq_bind, Option.bind_some, minimum]
  rw [← difference.eq_1 samples wrongHash done]
  by_cases report : ByteShaped (difference samples wrongHash done) ∧ result.singleByte = false
  · obtain ⟨shaped, first⟩ := report
    have isFirst : FirstMatch samples wrongHash done := ⟨shaped, scanned.silent first⟩
    rw [if_pos ⟨shaped.1, shaped.2, first⟩]
    cases read : readByte past samples done with
    | none =>
        right
        rw [readByte] at read
        split_ifs at read with within
        exact ⟨rfl, by omega, isFirst, read⟩
    | some byte =>
        left
        refine ⟨_, rfl, scanned_counted scanned rfl, fun flag => Bool.noConfusion flag, fun _ => ?_⟩
        exact ⟨done, Nat.lt_succ_self _, isFirst, rfl, rfl, read, rfl⟩
  · left
    rw [if_neg (fun all => report ⟨⟨all.1, all.2.1⟩, all.2.2⟩)]
    refine ⟨_, rfl, scanned_counted scanned rfl, ?_, ?_⟩
    · intro flag k bound shaped
      rcases Nat.lt_succ_iff_lt_or_eq.mp bound with before | same
      · exact scanned.silent flag k before shaped
      · subst same
        exact report ⟨shaped, flag⟩
    · intro flag
      obtain ⟨p, bound, rest⟩ := scanned.found flag
      exact ⟨p, Nat.lt_succ_of_lt bound, rest⟩

theorem scan_run (past : Nat → Option Byte) {forward backward : Vector Word (count * 4 + 1)}
    (forwardHolds : ∀ k, k ≤ count * 4 → readAt forward k = some (forwardState samples k))
    (backwardHolds : ∀ k, k ≤ count * 4 →
      readAt backward k = some (backwardState samples wrongHash k))
    (done : Nat) (bound : done ≤ count * 4 + 1) :
    (∃ result, (List.range done).foldlM (scanStep past samples forward backward) {} = some result ∧
      Scanned past samples wrongHash done result) ∨
    ((List.range done).foldlM (scanStep past samples forward backward) {} = none ∧
      done = count * 4 + 1 ∧ FirstMatch samples wrongHash (count * 4) ∧
      past (count * 4) = none) := by
  induction done with
  | zero => exact .inl ⟨{}, rfl, scanned_start past samples wrongHash⟩
  | succ done ih =>
      rcases ih (by omega) with ⟨result, ran, scanned⟩ | ⟨_, last, _⟩
      · rw [List.range_succ, List.foldlM_append, ran]
        rcases scan_step_cases (by omega) (forwardHolds done (by omega))
          (backwardHolds done (by omega)) scanned with ⟨next, taken, kept⟩ | ⟨failed, last, rest⟩
        · exact .inl ⟨next, by simpa using taken, kept⟩
        · subst last
          exact .inr ⟨by simpa using failed, rfl, rest⟩
      · omega

/-- Either the analysis returns and its result is what a scan of all `n + 1`
differences yields, or it reads the byte after the last one and none is there. -/
theorem reverse_fnv_spec (past : Nat → Option Byte) (samples : Vector Sample count)
    (wrongHash : Word) (forward backward : Vector Word (count * 4 + 1)) :
    (∃ result forward' backward',
      reverseFnv past samples wrongHash forward backward = some (result, forward', backward') ∧
      Scanned past samples wrongHash (count * 4 + 1) result) ∨
    (reverseFnv past samples wrongHash forward backward = none ∧
      FirstMatch samples wrongHash (count * 4) ∧ past (count * 4) = none) := by
  obtain ⟨forward', backward', forwardHolds, backwardHolds, ran⟩ :=
    tables_filled past samples wrongHash forward backward
  rcases scan_run past forwardHolds backwardHolds (count * 4 + 1) (Nat.le_refl _) with
    ⟨result, scan, scanned⟩ | ⟨scan, _, rest⟩
  · exact .inl ⟨result, forward', backward', by rw [ran, scan]; rfl, scanned⟩
  · exact .inr ⟨by rw [ran, scan]; rfl, rest⟩

theorem scanned_of_returned {past : Nat → Option Byte}
    {forward backward forward' backward' : Vector Word (count * 4 + 1)} {result : ReverseResult}
    (ran : reverseFnv past samples wrongHash forward backward =
      some (result, forward', backward')) :
    Scanned past samples wrongHash (count * 4 + 1) result := by
  rcases reverse_fnv_spec past samples wrongHash forward backward with
    ⟨_, _, _, ran', scanned⟩ | ⟨failed, _⟩
  · rw [ran] at ran'
    cases ran'
    exact scanned
  · rw [ran] at failed
    cases failed

end Tables

end SdcProbe.ReverseFnv
