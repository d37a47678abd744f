import SdcProbe.ReverseFnv
import Mathlib.Order.Bounds.Basic

/-!
# What the reverse analysis proves about a wrong hash

The abstract question is which positions of the stream admit a single wrong byte
that explains the hash. The scan answers it exactly: a difference below 256 at
`k` is such an explanation, so the report is the least explaining position.
Four consecutive bytes never explain one hash in two ways, which is what keeps
the lanes of one sample apart. The last trip of the scan, at `k = n`, is the one
that has no byte to report.
-/

namespace SdcProbe.ReverseAnalysis

open XorMultiplyHash Fnv1a SampleStream LaneSequence ReverseFnv

set_option autoImplicit false

variable {count : Nat}

/-- Reading `replacement` at position `p`, and everything else correctly, gives
`wrongHash`. -/
def Explains (samples : Vector Sample count) (wrongHash : Word) (p : Nat) (replacement : Byte) :
    Prop :=
  p < count * 4 ∧ replacement ≠ byteAt samples p ∧
    replayHashWithSubstitution samples count p replacement = wrongHash

def ExplainingPositions (samples : Vector Sample count) (wrongHash : Word) : Set Nat :=
  { p | ∃ replacement, Explains samples wrongHash p replacement }

/-- `4 * sample_index + lane`. -/
def position (result : ReverseResult) : Nat := 4 * result.sampleIndex + result.lane

/-- The stream with the four bytes of sample `s` replaced by those of `value`. -/
def corruptedStream (samples : Vector Sample count) (s : Nat) (value : Sample) (k : Nat) : Byte :=
  if k / 4 = s then laneByte value (k % 4) else byteAt samples k

theorem substitution_yields_iff (samples : Vector Sample count) (wrongHash : Word) (p : Nat)
    (replacement : Byte) (inside : p < count * 4) :
    replayHashWithSubstitution samples count p replacement = wrongHash ↔
      difference samples wrongHash p = (byteAt samples p ^^^ replacement).setWidth 64 := by
  obtain ⟨after, total⟩ : ∃ after, count * 4 = p + 1 + after := ⟨count * 4 - (p + 1), by omega⟩
  have prefixes : hashBytes (fun k => if k = p then replacement else byteAt samples k) p =
      forwardState samples p :=
    hash_bytes_congr _ _ p (fun k bound => if_neg (by omega))
  have suffixes :
      bytesFrom (fun k => if k = p then replacement else byteAt samples k) (p + 1) after =
        bytesFrom (byteAt samples) (p + 1) after :=
    bytes_from_congr _ _ _ _ (fun k lower _ => if_neg (by omega))
  have own : bytesFrom (fun k => if k = p then replacement else byteAt samples k) p 1 =
      [replacement] := by simp [bytesFrom]
  rw [replayHashWithSubstitution, total, hash_bytes_split, prefixes, suffixes, own,
    ← digest_append, List.singleton_append,
    replacement_explains_iff prime_times_inverse _ _ (byteAt samples p), difference,
    backwardState, show count * 4 - p = after + 1 by omega, bytes_from_succ]

theorem byte_shaped_extension (byte : Byte) (nonzero : byte ≠ 0) :
    ByteShaped (byte.setWidth 64) := by
  constructor
  · intro zero
    apply nonzero
    exact extend_injective (by decide : 8 ≤ 64) byte 0 (by rw [zero]; rfl)
  · have bound := byte.isLt
    rw [BitVec.lt_def, BitVec.toNat_setWidth]
    simp only [BitVec.ofNat_eq_ofNat, BitVec.toNat_ofNat]
    omega

theorem byte_shaped_restored (diff : Word) (shaped : ByteShaped diff) :
    (diff.setWidth 8).setWidth 64 = diff := by
  have small := shaped.2
  rw [BitVec.lt_def] at small
  apply BitVec.eq_of_toNat_eq
  simp only [BitVec.ofNat_eq_ofNat, BitVec.toNat_ofNat] at small
  simp only [BitVec.toNat_setWidth]
  omega

/-- The observed byte the scan computes is the one replacement that explains the
hash at this position. -/
theorem byte_shaped_explains (samples : Vector Sample count) (wrongHash : Word) (p : Nat)
    (inside : p < count * 4) (shaped : ByteShaped (difference samples wrongHash p)) :
    Explains samples wrongHash p
      (byteAt samples p ^^^ (difference samples wrongHash p).setWidth 8) := by
  refine ⟨inside, ?_, ?_⟩
  · intro same
    have vanished : (difference samples wrongHash p).setWidth 8 = 0#8 :=
      (BitVec.xor_right_inj (byteAt samples p)).mp (same.trans BitVec.xor_zero.symm)
    apply shaped.1
    rw [← byte_shaped_restored _ shaped, vanished]
    rfl
  · rw [substitution_yields_iff samples wrongHash p _ inside, ← BitVec.xor_assoc,
      BitVec.xor_self, BitVec.zero_xor, byte_shaped_restored _ shaped]

theorem byte_shaped_iff (samples : Vector Sample count) (wrongHash : Word) (p : Nat)
    (inside : p < count * 4) :
    ByteShaped (difference samples wrongHash p) ↔ p ∈ ExplainingPositions samples wrongHash := by
  constructor
  · intro shaped
    exact ⟨_, byte_shaped_explains samples wrongHash p inside shaped⟩
  · intro explained
    obtain ⟨replacement, _, different, yields⟩ := explained
    rw [(substitution_yields_iff samples wrongHash p replacement inside).mp yields]
    apply byte_shaped_extension
    intro same
    exact different (BitVec.xor_eq_zero_iff.mp same).symm

theorem explaining_inside (samples : Vector Sample count) (wrongHash : Word) (p : Nat)
    (explained : p ∈ ExplainingPositions samples wrongHash) : p < count * 4 :=
  explained.choose_spec.1

/-- Below `n` the first match is the least explaining position. -/
theorem first_match_iff_least (samples : Vector Sample count) (wrongHash : Word) (p : Nat)
    (inside : p < count * 4) :
    FirstMatch samples wrongHash p ↔ IsLeast (ExplainingPositions samples wrongHash) p := by
  constructor
  · intro firstMatch
    obtain ⟨shaped, first⟩ := firstMatch
    refine ⟨(byte_shaped_iff samples wrongHash p inside).mp shaped, ?_⟩
    intro q explained
    by_contra before
    have below : q < p := by omega
    exact first q below ((byte_shaped_iff samples wrongHash q (by omega)).mpr explained)
  · intro isLeast
    obtain ⟨explained, least⟩ := isLeast
    refine ⟨(byte_shaped_iff samples wrongHash p inside).mpr explained, ?_⟩
    intro q below shaped
    have bound := least ((byte_shaped_iff samples wrongHash q (by omega)).mp shaped)
    omega

theorem position_of_match (result : ReverseResult) (p : Nat) (lane : result.lane = laneOf p)
    (sampleIndex : result.sampleIndex = p / 4) : position result = p := by
  rw [position, lane, sampleIndex]
  simp only [laneOf]
  omega

/-- Everything a report with a position inside the stream says is true. -/
theorem report_explains {past : Nat → Option Byte} {samples : Vector Sample count}
    {wrongHash : Word} {result : ReverseResult}
    (scanned : Scanned past samples wrongHash (count * 4 + 1) result)
    (flag : result.singleByte = true) (inside : position result < count * 4) :
    result.stored = byteAt samples (position result) ∧
      Explains samples wrongHash (position result) result.observed ∧
      IsLeast (ExplainingPositions samples wrongHash) (position result) := by
  obtain ⟨p, _, first, lane, sampleIndex, read, observed⟩ := scanned.found flag
  rw [position_of_match result p lane sampleIndex] at inside ⊢
  rw [read_byte_inside past samples p inside, Option.some.injEq] at read
  refine ⟨read.symm, ?_, (first_match_iff_least samples wrongHash p inside).mp first⟩
  rw [observed, ← read]
  exact byte_shaped_explains samples wrongHash p inside first.1

/-- When some misread byte explains the hash, the scan stops before the end of
the stream, returns, and reports the least such position. -/
theorem explained_is_reported (past : Nat → Option Byte) (samples : Vector Sample count)
    (wrongHash : Word) (forward backward : Vector Word (count * 4 + 1))
    (explained : (ExplainingPositions samples wrongHash).Nonempty) :
    ∃ result forward' backward',
      reverseFnv past samples wrongHash forward backward = some (result, forward', backward') ∧
      Scanned past samples wrongHash (count * 4 + 1) result ∧ result.singleByte = true ∧
      IsLeast (ExplainingPositions samples wrongHash) (position result) := by
  obtain ⟨q, member⟩ := explained
  have inside := explaining_inside samples wrongHash q member
  have shaped := (byte_shaped_iff samples wrongHash q inside).mpr member
  rcases reverse_fnv_spec past samples wrongHash forward backward with
    ⟨result, forward', backward', ran, scanned⟩ | ⟨_, last, _⟩
  · have flag : result.singleByte = true := by
      cases reported : result.singleByte with
      | true => rfl
      | false => exact absurd shaped (scanned.silent reported q (by omega))
    obtain ⟨p, _, first, lane, sampleIndex, _⟩ := scanned.found flag
    have notLater : p ≤ q := by
      by_contra later
      exact first.2 q (by omega) shaped
    refine ⟨result, forward', backward', ran, scanned, flag, ?_⟩
    rw [position_of_match result p lane sampleIndex]
    exact (first_match_iff_least samples wrongHash p (by omega)).mp first
  · exact absurd shaped (last.2 q inside)

theorem reverse_fnv_sound_and_complete (past : Nat → Option Byte) (samples : Vector Sample count)
    (wrongHash : Word) (forward backward : Vector Word (count * 4 + 1)) :
    (∀ result forward' backward',
      reverseFnv past samples wrongHash forward backward = some (result, forward', backward') →
      result.singleByte = true → position result < count * 4 →
      result.stored = byteAt samples (position result) ∧ result.observed ≠ result.stored ∧
        replayHashWithSubstitution samples count (position result) result.observed = wrongHash ∧
        ∀ q replacement, q < position result → replacement ≠ byteAt samples q →
          replayHashWithSubstitution samples count q replacement ≠ wrongHash) ∧
    ((∃ q replacement, q < count * 4 ∧ replacement ≠ byteAt samples q ∧
        replayHashWithSubstitution samples count q replacement = wrongHash) →
      ∃ result forward' backward',
        reverseFnv past samples wrongHash forward backward = some (result, forward', backward') ∧
        result.singleByte = true ∧
        IsLeast { q | ∃ replacement, q < count * 4 ∧ replacement ≠ byteAt samples q ∧
          replayHashWithSubstitution samples count q replacement = wrongHash } (position result)) ∧
    (∀ result forward' backward',
      reverseFnv past samples wrongHash forward backward = some (result, forward', backward') →
      result.singleByte = false → ∀ q replacement, q < count * 4 →
        replacement ≠ byteAt samples q →
        replayHashWithSubstitution samples count q replacement ≠ wrongHash) := by
  refine ⟨?_, ?_, ?_⟩
  · intro result forward' backward' ran flag inside
    obtain ⟨stored, explains, least⟩ :=
      report_explains (scanned_of_returned ran) flag inside
    refine ⟨stored, ?_, explains.2.2, ?_⟩
    · rw [stored]
      exact explains.2.1
    · intro q replacement below different yields
      have bound := least.2 ⟨replacement, by omega, different, yields⟩
      omega
  · intro some
    obtain ⟨q, replacement, explains⟩ := some
    obtain ⟨result, forward', backward', ran, _, flag, least⟩ :=
      explained_is_reported past samples wrongHash forward backward ⟨q, replacement, explains⟩
    exact ⟨result, forward', backward', ran, flag, least⟩
  · intro result forward' backward' ran silent q replacement inside different yields
    exact (scanned_of_returned ran).silent silent q (by omega)
      ((byte_shaped_iff samples wrongHash q inside).mpr ⟨replacement, inside, different, yields⟩)

/-- Two single misreads less than four bytes apart never yield the same hash. -/
theorem explanations_are_far_apart (samples : Vector Sample count) (wrongHash : Word) (p q : Nat)
    (left : p ∈ ExplainingPositions samples wrongHash)
    (right : q ∈ ExplainingPositions samples wrongHash) (below : p < q) : 4 ≤ q - p := by
  by_contra near
  obtain ⟨leftByte, leftInside, leftDifferent, leftYields⟩ := left
  obtain ⟨rightByte, rightInside, _, rightYields⟩ := right
  have same := hash_bytes_window_injective
    (fun k => if k = p then leftByte else byteAt samples k)
    (fun k => if k = q then rightByte else byteAt samples k) p (q + 1 - p) (count * 4)
    (by omega) (by omega)
    (by
      intro k _ outside
      rw [if_neg (by omega), if_neg (by omega)])
    (leftYields.trans rightYields.symm) p leftInside
  simp only [if_true, if_neg (Nat.ne_of_lt below)] at same
  exact leftDifferent same

/-- A corruption of two or more bytes of one sample is not explained by any
single byte of that sample. -/
theorem spread_corruption_not_explained (samples : Vector Sample count) (s : Nat) (value : Sample)
    (leftLane rightLane : Lane) (distinct : leftLane ≠ rightLane)
    (leftWrong : laneByte value leftLane ≠ byteAt samples (4 * s + leftLane))
    (rightWrong : laneByte value rightLane ≠ byteAt samples (4 * s + rightLane)) (p : Nat)
    (within : p / 4 = s)
    (explained : p ∈ ExplainingPositions samples
      (hashBytes (corruptedStream samples s value) (count * 4))) : False := by
  obtain ⟨replacement, inside, _, yields⟩ := explained
  have same := hash_bytes_window_injective
    (fun k => if k = p then replacement else byteAt samples k)
    (corruptedStream samples s value) (4 * s) 4 (count * 4) (Nat.le_refl _) (by omega)
    (by
      intro k _ outside
      rw [corruptedStream, if_neg (by omega), if_neg (by omega)])
    yields
  have lanes : ∀ lane : Lane, laneByte value lane ≠ byteAt samples (4 * s + lane) →
      p = 4 * s + lane := by
    intro lane wrong
    by_contra other
    have here := same (4 * s + lane) (by omega)
    have ofSample : (4 * s + lane.val) / 4 = s := by omega
    simp only [corruptedStream, if_neg (Ne.symm other), if_pos ofSample,
      show (4 * s + lane.val) % 4 = lane.val by omega] at here
    exact wrong here.symm
  have leftIs := lanes leftLane leftWrong
  have rightIs := lanes rightLane rightWrong
  exact distinct (Fin.ext (by omega))

theorem reverse_fnv_locates (past : Nat → Option Byte) (samples : Vector Sample count)
    (forward backward : Vector Word (count * 4 + 1)) :
    (∀ p replacement, p < count * 4 → replacement ≠ byteAt samples p →
      ∃ result forward' backward',
        reverseFnv past samples (replayHashWithSubstitution samples count p replacement)
          forward backward = some (result, forward', backward') ∧
        result.singleByte = true ∧ position result ≤ p ∧
        (position result = p →
          result.stored = byteAt samples p ∧ result.observed = replacement) ∧
        (position result ≠ p → 4 ≤ p - position result)) ∧
    (∀ s value, s < count → ∀ leftLane rightLane : Lane, leftLane ≠ rightLane →
      laneByte value leftLane ≠ byteAt samples (4 * s + leftLane) →
      laneByte value rightLane ≠ byteAt samples (4 * s + rightLane) →
      ∀ result forward' backward',
        reverseFnv past samples (hashBytes (corruptedStream samples s value) (count * 4))
          forward backward = some (result, forward', backward') →
        result.singleByte = true → result.sampleIndex ≠ s) := by
  constructor
  · intro p replacement inside different
    have member : p ∈ ExplainingPositions samples
        (replayHashWithSubstitution samples count p replacement) :=
      ⟨replacement, inside, different, rfl⟩
    obtain ⟨result, forward', backward', ran, scanned, flag, least⟩ :=
      explained_is_reported past samples _ forward backward ⟨p, member⟩
    have notLater := least.2 member
    obtain ⟨stored, explains, _⟩ := report_explains scanned flag (by omega)
    refine ⟨result, forward', backward', ran, flag, notLater, ?_, ?_⟩
    · intro same
      rw [same] at stored explains
      refine ⟨stored, ?_⟩
      have yieldsDiff := fun byte => (substitution_yields_iff samples
        (replayHashWithSubstitution samples count p replacement) p byte inside).mp
      have observedDiff := yieldsDiff result.observed explains.2.2
      have replacedDiff := yieldsDiff replacement rfl
      rw [observedDiff] at replacedDiff
      exact (BitVec.xor_right_inj _).mp (extend_injective (by decide : 8 ≤ 64) _ _ replacedDiff)
    · intro different
      exact explanations_are_far_apart samples _ _ p least.1 member (by omega)
  · intro s value inside leftLane rightLane distinct leftWrong rightWrong result forward' backward'
      ran flag within
    have within' : position result / 4 = s := by
      rw [position]
      omega
    obtain ⟨_, explains, _⟩ := report_explains (scanned_of_returned ran) flag (by omega)
    exact spread_corruption_not_explained samples s value leftLane rightLane distinct leftWrong
      rightWrong _ within' ⟨_, explains⟩

/-- A run of the analysis in which every access hits its buffer and the reported
sample, if any, exists. No byte lies past the samples here. -/
def StaysInRange (samples : Vector Sample count) (wrongHash : Word)
    (forward backward : Vector Word (count * 4 + 1)) : Prop :=
  ∃ result forward' backward',
    reverseFnv (fun _ => none) samples wrongHash forward backward =
      some (result, forward', backward') ∧
    (result.singleByte = true → result.sampleIndex < count)

theorem stays_in_range_iff_not_last (samples : Vector Sample count) (wrongHash : Word)
    (forward backward : Vector Word (count * 4 + 1)) :
    StaysInRange samples wrongHash forward backward ↔
      ¬FirstMatch samples wrongHash (count * 4) := by
  rcases reverse_fnv_spec (fun _ => none) samples wrongHash forward backward with
    ⟨result, forward', backward', ran, scanned⟩ | ⟨failed, last, _⟩
  · constructor
    · intro _ last
      cases flag : result.singleByte with
      | false => exact scanned.silent flag (count * 4) (Nat.lt_succ_self _) last.1
      | true =>
          obtain ⟨p, _, first, _, _, read, _⟩ := scanned.found flag
          obtain rfl := first_match_unique first last
          rw [readByte, if_neg (Nat.lt_irrefl _)] at read
          cases read
    · intro notLast
      refine ⟨result, forward', backward', ran, ?_⟩
      intro flag
      obtain ⟨p, bound, first, _, sampleIndex, _⟩ := scanned.found flag
      have notEnd : p ≠ count * 4 := by
        intro atEnd
        rw [atEnd] at first
        exact notLast first
      rw [sampleIndex]
      omega
  · constructor
    · intro stays
      obtain ⟨_, _, _, ran, _⟩ := stays
      rw [ran] at failed
      cases failed
    · intro notLast
      exact absurd last notLast

theorem difference_at_end (samples : Vector Sample count) (wrongHash : Word) :
    difference samples wrongHash (count * 4) = replayHash samples count ^^^ wrongHash := by
  rw [difference, backward_state_last]
  rfl

theorem reverse_fnv_in_range_iff (samples : Vector Sample count) (wrongHash : Word)
    (forward backward : Vector Word (count * 4 + 1))
    (wrong : wrongHash ≠ replayHash samples count) :
    StaysInRange samples wrongHash forward backward ↔
      256 ≤ replayHash samples count ^^^ wrongHash ∨
        ∃ q replacement, q < count * 4 ∧ replacement ≠ byteAt samples q ∧
          replayHashWithSubstitution samples count q replacement = wrongHash := by
  rw [stays_in_range_iff_not_last, FirstMatch, difference_at_end]
  constructor
  · intro notLast
    by_cases small : replayHash samples count ^^^ wrongHash < 256
    · right
      have nonzero : replayHash samples count ^^^ wrongHash ≠ 0 := fun zero =>
        wrong (BitVec.xor_eq_zero_iff.mp zero).symm
      by_contra unexplained
      apply notLast
      refine ⟨⟨nonzero, small⟩, ?_⟩
      intro k below shaped
      obtain ⟨replacement, explains⟩ := (byte_shaped_iff samples wrongHash k below).mp shaped
      exact unexplained ⟨k, replacement, explains⟩
    · exact .inl (BitVec.not_lt.mp small)
  · intro condition firstMatch
    obtain ⟨shaped, first⟩ := firstMatch
    rcases condition with large | ⟨q, replacement, explains⟩
    · exact absurd shaped.2 (BitVec.not_lt.mpr large)
    · exact first q explains.1
        ((byte_shaped_iff samples wrongHash q explains.1).mpr ⟨replacement, explains⟩)

theorem reverse_fnv_in_range_far_hash :
    StaysInRange (Vector.replicate 1 0) (replayHash (Vector.replicate 1 0) 1 ^^^ 256)
      (Vector.replicate 5 0) (Vector.replicate 5 0) :=
  (reverse_fnv_in_range_iff (Vector.replicate 1 0) (replayHash (Vector.replicate 1 0) 1 ^^^ 256)
    (Vector.replicate 5 0) (Vector.replicate 5 0) (by decide +kernel)).mpr
    (.inl (by decide +kernel))

/-- A final accumulator with only its lowest bit flipped: the scan first sees a
small difference at `k = n` and reads `bytes[n]`. If a zero byte lies there, the
report names sample 1 of a one-sample array. -/
theorem reverse_fnv_leaves_the_samples :
    replayHash (Vector.replicate 1 0) 1 ^^^ 1 ≠ replayHash (Vector.replicate 1 (0 : Sample)) 1 ∧
      ¬StaysInRange (Vector.replicate 1 0) (replayHash (Vector.replicate 1 0) 1 ^^^ 1)
        (Vector.replicate 5 0) (Vector.replicate 5 0) ∧
      (reverseFnv (fun _ => some 0) (Vector.replicate 1 0)
        (replayHash (Vector.replicate 1 0) 1 ^^^ 1)
        (Vector.replicate 5 0) (Vector.replicate 5 0)).map
          (fun returned => (returned.1.singleByte, returned.1.sampleIndex)) = some (true, 1) := by
  refine ⟨by decide +kernel, ?_, by decide +kernel⟩
  intro stays
  obtain ⟨result, forward', backward', ran, _⟩ := stays
  have failed : reverseFnv (fun _ => none) (Vector.replicate 1 0)
      (replayHash (Vector.replicate 1 0) 1 ^^^ 1)
      (Vector.replicate 5 0) (Vector.replicate 5 0) = none := by decide +kernel
  rw [failed] at ran
  cases ran

end SdcProbe.ReverseAnalysis
