import SdcProbe.ChRun
import SdcProbe.ReverseAnalysis
import SdcProbe.SetBits
import Mathlib.Logic.Function.Iterate

/-!
# What the least popcount says

`min_popcount` is the least number of differing bits over all positions of the
accumulator. Every step of the hash is invertible in both directions, so one
vanishing difference means that the two hashes agree, and one difference with a
single bit means that flipping this bit of the accumulator at that position
explains the wrong hash.
-/

namespace SdcProbe.PopcountDiagnosis

open XorMultiplyHash Fnv1a SampleStream LaneSequence ReverseFnv ReverseAnalysis SetBits Report
  Environment TimedRun ChRun

set_option autoImplicit false

variable {count : Nat}

theorem popcount_loop_eq (value : Word) (found : Nat) :
    popcountLoop value found = found + (setBits value).card := by
  induction value, found using popcountLoop.induct with
  | case1 value found nonzero ih =>
      have fewer := card_and_pred value nonzero
      rw [popcountLoop, dif_pos nonzero, ih]
      omega
  | case2 value found zero =>
      have vanished : value = 0 := not_not.mp zero
      rw [popcountLoop, dif_neg zero, vanished, set_bits_zero]
      rfl

theorem popcount64_eq_card (value : Word) : popcount64 value = (setBits value).card := by
  rw [popcount64, popcount_loop_eq, Nat.zero_add]

/-- The loop body applied so many times, and no fewer, leaves zero. -/
theorem popcount_loop_trips (value : Word) (trips : Nat) :
    (fun value : Word => value &&& (value - 1))^[trips] value = 0 ↔
      popcount64 value ≤ trips := by
  rw [popcount64_eq_card]
  induction trips generalizing value with
  | zero =>
      rw [Function.iterate_zero, id_eq, Nat.le_zero, Finset.card_eq_zero, set_bits_eq_empty_iff]
  | succ trips ih =>
      rw [Function.iterate_succ_apply, ih]
      by_cases zero : value = 0
      · have stays : (0 : Word) &&& (0 - 1) = 0 := by decide
        rw [zero, stays, set_bits_zero]
        simp
      · have fewer := card_and_pred value zero
        omega

/-- The hash after one bit of the accumulator was flipped before byte `k`; for
`k = n` the flip comes after the last byte. -/
def replayHashWithFlip (samples : Vector Sample count) (k bit : Nat) : Word :=
  digest kFnvPrime (forwardState samples k ^^^ BitVec.twoPow 64 bit)
    (bytesFrom (byteAt samples) k (count * 4 - k))

theorem forward_state_continues (samples : Vector Sample count) (k : Nat)
    (inside : k ≤ count * 4) :
    digest kFnvPrime (forwardState samples k) (bytesFrom (byteAt samples) k (count * 4 - k)) =
      replayHash samples count := by
  obtain ⟨after, total⟩ : ∃ after, count * 4 = k + after := ⟨count * 4 - k, by omega⟩
  rw [forwardState, replayHash, hash_bytes_eq_digest, hash_bytes_eq_digest, total,
    Nat.add_sub_cancel_left, bytes_from_append, digest_append, Nat.zero_add]

theorem difference_vanishes_iff (samples : Vector Sample count) (wrongHash : Word) (k : Nat)
    (inside : k ≤ count * 4) :
    difference samples wrongHash k = 0 ↔ wrongHash = replayHash samples count := by
  have undisturbed := disturbance_explains_iff prime_times_inverse (forwardState samples k)
    wrongHash 0 (bytesFrom (byteAt samples) k (count * 4 - k))
  rw [BitVec.ofNat_eq_ofNat, BitVec.xor_zero, forward_state_continues samples k inside]
    at undisturbed
  rw [difference, backwardState, BitVec.ofNat_eq_ofNat, ← undisturbed, eq_comm]

theorem difference_is_flip_iff (samples : Vector Sample count) (wrongHash : Word) (k bit : Nat) :
    difference samples wrongHash k = BitVec.twoPow 64 bit ↔
      replayHashWithFlip samples k bit = wrongHash := by
  rw [difference, backwardState, replayHashWithFlip,
    disturbance_explains_iff prime_times_inverse]

/-- A running minimum is at most a bound exactly when the start or one of the
values is. -/
theorem running_min_le_iff (values : Nat → Nat) (start bound done : Nat) :
    (List.range done).foldl (fun least k => min least (values k)) start ≤ bound ↔
      start ≤ bound ∨ ∃ k, k < done ∧ values k ≤ bound := by
  induction done with
  | zero => simp
  | succ done ih =>
      rw [List.range_succ, List.foldl_append, List.foldl_cons, List.foldl_nil, min_le_iff, ih,
        or_assoc]
      apply or_congr_right
      constructor
      · intro cases_
        rcases cases_ with ⟨k, below, small⟩ | small
        · exact ⟨k, Nat.lt_succ_of_lt below, small⟩
        · exact ⟨done, Nat.lt_succ_self done, small⟩
      · intro reached
        obtain ⟨k, below, small⟩ := reached
        rcases Nat.lt_succ_iff_lt_or_eq.mp below with before | same
        · exact .inl ⟨k, before, small⟩
        · exact .inr (same ▸ small)

section Diagnosis

variable (past : Nat → Byte) (samples : Vector Sample count) (wrongHash : Word)
  (forward backward : Vector Word (count * 4 + 1))

theorem analyse_scanned :
    Scanned (fun k => some (past k)) samples wrongHash (count * 4 + 1)
      (analyse past samples wrongHash forward backward).1 := by
  have returned : reverseFnv (fun k => some (past k)) samples wrongHash forward backward =
      some (analyse past samples wrongHash forward backward) := (Option.some_get _).symm
  exact scanned_of_returned returned

theorem min_popcount_le_iff (bound : Nat) (small : bound < 65) :
    (analyse past samples wrongHash forward backward).1.minPopcount ≤ bound ↔
      ∃ k, k ≤ count * 4 ∧ (setBits (difference samples wrongHash k)).card ≤ bound := by
  rw [(analyse_scanned past samples wrongHash forward backward).popcount, running_min_le_iff]
  simp only [popcount64_eq_card, Nat.lt_succ_iff, Nat.not_le_of_lt small, false_or]

theorem min_popcount_zero_iff :
    (analyse past samples wrongHash forward backward).1.minPopcount = 0 ↔
      wrongHash = replayHash samples count := by
  rw [← Nat.le_zero, min_popcount_le_iff past samples wrongHash forward backward 0 (by decide)]
  constructor
  · intro reached
    obtain ⟨k, inside, empty⟩ := reached
    rw [Nat.le_zero, Finset.card_eq_zero, set_bits_eq_empty_iff] at empty
    exact (difference_vanishes_iff samples wrongHash k inside).mp empty
  · intro same
    refine ⟨0, Nat.zero_le _, ?_⟩
    rw [(difference_vanishes_iff samples wrongHash 0 (Nat.zero_le _)).mpr same, set_bits_zero]
    rfl

theorem min_popcount_one_iff (wrong : wrongHash ≠ replayHash samples count) :
    (analyse past samples wrongHash forward backward).1.minPopcount = 1 ↔
      ∃ k bit, k ≤ count * 4 ∧ bit < 64 ∧ replayHashWithFlip samples k bit = wrongHash := by
  have positive := mt (min_popcount_zero_iff past samples wrongHash forward backward).mp wrong
  have atMost := min_popcount_le_iff past samples wrongHash forward backward 1 (by decide)
  have single : ∀ k, k ≤ count * 4 → ((setBits (difference samples wrongHash k)).card ≤ 1 ↔
      ∃ bit, bit < 64 ∧ replayHashWithFlip samples k bit = wrongHash) := by
    intro k inside
    have nonzero : (setBits (difference samples wrongHash k)).card ≠ 0 := by
      rw [Ne, Finset.card_eq_zero, set_bits_eq_empty_iff,
        difference_vanishes_iff samples wrongHash k inside]
      exact wrong
    have one := card_eq_one_iff (difference samples wrongHash k)
    simp only [difference_is_flip_iff] at one
    rw [← one]
    omega
  constructor
  · intro least
    obtain ⟨k, inside, few⟩ := atMost.mp (Nat.le_of_eq least)
    obtain ⟨bit, bound, flipped⟩ := (single k inside).mp few
    exact ⟨k, bit, inside, bound, flipped⟩
  · intro explained
    obtain ⟨k, bit, inside, bound, flipped⟩ := explained
    have few := atMost.mpr ⟨k, inside, (single k inside).mpr ⟨bit, bound, flipped⟩⟩
    omega

end Diagnosis

/-- A line about an unexplained hash names at least one differing bit. -/
def NamesABit (line : Line) : Prop :=
  ∀ cpuIndex round bits, line = .detectUnexplained cpuIndex round bits → 1 ≤ bits

theorem report_names_a_bit (reported : Nat) (line : Line) (names : NamesABit line) :
    ∀ other ∈ (report reported line).2, NamesABit other := by
  intro other member
  rw [report] at member
  split_ifs at member
  · rcases List.mem_pair.mp member with same | same
    · exact same ▸ names
    · intro cpuIndex round bits shape
      rw [same] at shape
      cases shape
  · exact List.mem_singleton.mp member ▸ names
  · cases member

theorem judge_round_names_a_bit (past : Nat → Byte) (registerHash : Word)
    (samples : Vector Sample count) (state : RunState count) :
    ∀ line ∈ (judgeRound past registerHash samples state).2, NamesABit line := by
  have kept : (compareBaseline
      { state with work := { state.work with samples := samples } }).work.samples = samples := by
    rw [compareBaseline]
    split_ifs <;> rfl
  simp only [judgeRound]
  split_ifs with mismatch
  · apply report_names_a_bit
    intro cpuIndex round bits shape
    rw [kept] at shape
    split_ifs at shape
    cases shape
    apply Nat.one_le_iff_ne_zero.mpr
    exact mt (min_popcount_zero_iff past samples registerHash _ _).mp mismatch
  · intro line member
    cases member

theorem names_a_bit_loop_invariant (env : Env count) (minutes : Nat) (before : World count) :
    LoopInvariant env (chProbe count minutes) before
      (fun _ lines _ => ∀ line ∈ lines, NamesABit line) where
  quiet _ _ _ _ _ _ holds := holds
  progress _ _ _ _ holds :=
    forall_mem_append_singleton.mpr ⟨holds, fun _ _ _ shape => by cases shape⟩
  measured here events lines state action added _ _ _ _ _ ran holds := by
    obtain ⟨_, rfl⟩ := World.record_print_injective ran
    intro line member
    rcases List.mem_append.mp member with old | new
    · exact holds line old
    · exact judge_round_names_a_bit env.past _ _ _ line new

theorem run_names_a_bit {env : Env count} {cpuIndex minutes fuel : Nat}
    {world after : World count} {work work' : Workspace count} {result : RunResult}
    (ran : runOnCurrentCpu env cpuIndex minutes fuel world work = some (after, work', result)) :
    ∃ lines, after.log = world.log ++ lines ∧ ∀ line ∈ lines, NamesABit line := by
  obtain ⟨out, timed, same⟩ := Option.map_eq_some_iff.mp ran
  cases same
  obtain ⟨_, lines, framed, names⟩ :=
    timed_run_rule (names_a_bit_loop_invariant env minutes _) (by simp) timed
  exact ⟨lines, framed.log, names⟩

theorem popcount_diagnosis_is_exact :
    (∀ value : Word, popcount64 value = (setBits value).card ∧
      ∀ trips, (fun value : Word => value &&& (value - 1))^[trips] value = 0 ↔
        popcount64 value ≤ trips) ∧
    (∀ count past (samples : Vector Sample count) wrongHash forward backward,
      let result := (analyse past samples wrongHash forward backward).1
      (result.minPopcount = 0 ↔ wrongHash = replayHash samples count) ∧
        (wrongHash ≠ replayHash samples count → (result.minPopcount = 1 ↔
          ∃ k bit, k ≤ count * 4 ∧ bit < 64 ∧ replayHashWithFlip samples k bit = wrongHash))) ∧
    (∀ count (env : Env count) cpuIndex minutes fuel world work after work' result,
      runOnCurrentCpu env cpuIndex minutes fuel world work = some (after, work', result) →
      ∃ events lines, after.history = world.history ++ events ∧ after.log = world.log ++ lines ∧
        result.detections = (roundsOf events).countP differs ∧
        (∀ round ∈ roundsOf events, differs round = true → ∀ forward backward,
          1 ≤ (analyse env.past round.2 round.1 forward backward).1.minPopcount) ∧
        ∀ cpuIndex round bits, .detectUnexplained cpuIndex round bits ∈ lines → 1 ≤ bits) := by
  refine ⟨?_, ?_, ?_⟩
  · intro value
    exact ⟨popcount64_eq_card value, popcount_loop_trips value⟩
  · intro count past samples wrongHash forward backward
    exact ⟨min_popcount_zero_iff past samples wrongHash forward backward,
      min_popcount_one_iff past samples wrongHash forward backward⟩
  · intro count env cpuIndex minutes fuel world work after work' result ran
    obtain ⟨events, _, framed, _, _, _, accounted, _⟩ := run_on_current_cpu_spec ran
    obtain ⟨lines, log, names⟩ := run_names_a_bit ran
    refine ⟨_, lines, framed.history, log, accounted.detections, ?_, ?_⟩
    · intro round _ wrong forward backward
      apply Nat.one_le_iff_ne_zero.mpr
      exact mt (min_popcount_zero_iff env.past round.2 round.1 forward backward).mp
        (of_decide_eq_true wrong)
    · intro cpuIndex round bits member
      exact names _ member cpuIndex round bits rfl

end SdcProbe.PopcountDiagnosis
