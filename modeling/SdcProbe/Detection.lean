import SdcProbe.ChRun
import SdcProbe.ComputeRows
import SdcProbe.ReverseAnalysis

/-!
# What a round detects

The register path and the memory path of one round. With correct reads the two
hashes agree. With wrong reads the register path is the memory path over the
observed bytes, and a corruption that stays inside one sample is never lost.
-/

namespace SdcProbe.Detection

open Fnv1a SampleStream LaneSequence ComputeRows ReverseAnalysis Environment ChRun

set_option autoImplicit false

/-- The read of this lane of sample `s` delivers another byte than the stored one. -/
def ReadDiffers (load : Nat → Nat → Sample) (misread : Nat → Misread) (s : Nat) (lane : Lane) :
    Prop :=
  observedByte (misread s) (load (s % kCols) (s / kCols)) lane ≠
    laneByte (load (s % kCols) (s / kCols)) lane

section Streams

variable {count : Nat} {compiled : Compiled} {load : Nat → Nat → Sample}
  {misread : Nat → Misread} {before : Vector Sample count} {done : Nat}
  {state : Word × Vector Sample count}

theorem stored_byte (computed : Computed compiled load misread before done state) (s : Nat)
    (lane : Lane) (inside : s < done) :
    byteAt state.2 (4 * s + lane) = laneByte (load (s % kCols) (s / kCols)) lane := by
  rw [byteAt, show (4 * s + lane.val) / 4 = s by omega,
    show (4 * s + lane.val) % 4 = lane.val by omega, computed.stored s inside]
  rfl

theorem observed_byte (computed : Computed compiled load misread before done state) (s : Nat)
    (lane : Lane) (inside : s < done) :
    observedStream misread state.2 (4 * s + lane) =
      observedByte (misread s) (load (s % kCols) (s / kCols)) lane := by
  rw [Nat.mul_comm]
  exact observed_stream_byte misread state.2 s _ (computed.stored s inside) lane

/-- A byte of the stream as a lane of a sample. -/
theorem sample_and_lane (k : Nat) : ∃ s, ∃ lane : Lane, k = 4 * s + lane :=
  ⟨k / 4, laneOf k, (Nat.div_add_mod k 4).symm⟩

/-- Where no read differs, the register path sees the stored bytes. -/
theorem observed_is_stored (computed : Computed compiled load misread before done state) (s : Nat)
    (lane : Lane) (inside : s < done) (right : ¬ReadDiffers load misread s lane) :
    observedStream misread state.2 (4 * s + lane) = byteAt state.2 (4 * s + lane) := by
  rw [observed_byte computed s lane inside, stored_byte computed s lane inside]
  exact not_not.mp right

theorem hash_of_right_reads (kept : KeepsInputs compiled)
    (computed : Computed compiled load misread before done state)
    (right : ∀ s lane, s < done → ¬ReadDiffers load misread s lane) :
    state.1 = replayHash state.2 done := by
  rw [computed.folded kept, replayHash]
  apply hash_bytes_congr
  intro k bound
  obtain ⟨s, lane, rfl⟩ := sample_and_lane k
  exact observed_is_stored computed s lane (by omega) (right s lane (by omega))

theorem hash_of_single_misread (kept : KeepsInputs compiled)
    (computed : Computed compiled load misread before done state) (s : Nat)
    (lane : Lane) (byte : Byte) (inside : s < done) (misreads : misread s lane = some byte)
    (right : ∀ s' lane', s' < done → (s', lane') ≠ (s, lane) →
      ¬ReadDiffers load misread s' lane') :
    state.1 = replayHashWithSubstitution state.2 done (4 * s + lane) byte := by
  rw [computed.folded kept, replayHashWithSubstitution]
  apply hash_bytes_congr
  intro k bound
  obtain ⟨s', lane', rfl⟩ := sample_and_lane k
  by_cases same : 4 * s' + lane'.val = 4 * s + lane.val
  · obtain rfl : s' = s := by omega
    obtain rfl : lane' = lane := Fin.ext (by omega)
    rw [if_pos rfl, observed_byte computed s' lane' inside, observedByte, misreads]
    rfl
  · rw [if_neg same]
    apply observed_is_stored computed s' lane' (by omega)
    apply right s' lane' (by omega)
    rintro ⟨⟩
    exact same rfl

/-- Wrong bytes inside one sample change the hash. -/
theorem hash_of_one_wrong_sample (kept : KeepsInputs compiled)
    (computed : Computed compiled load misread before done state) (s : Nat)
    (lane : Lane) (inside : s < done) (wrong : ReadDiffers load misread s lane)
    (right : ∀ s' lane', s' < done → s' ≠ s → ¬ReadDiffers load misread s' lane') :
    state.1 ≠ replayHash state.2 done := by
  rw [computed.folded kept, replayHash]
  intro same
  apply wrong
  rw [← observed_byte computed s lane inside, ← stored_byte computed s lane inside]
  refine hash_bytes_window_injective _ _ (4 * s) 4 (done * 4) (Nat.le_refl _) (by omega) ?_ same
    (4 * s + lane) (by omega)
  intro k bound outside
  obtain ⟨s', lane', rfl⟩ := sample_and_lane k
  exact observed_is_stored computed s' lane' (by omega) (right s' lane' (by omega) (by omega))

end Streams

/-- What the register path is there for. It hashes what it stores; where reads differ it
hashes what they deliver, a single one as a byte replaced; and a round without such a read
counts no detection. -/
structure RegisterPathAgrees (compiled : Compiled) : Prop where
  correct : ∀ load (before : Vector Sample sampleCount) rows, rows ≤ kRows →
    ∃ hash after, computeRows compiled load (fun _ => correctReads) before rows =
        some (hash, after) ∧
      hash = replayHash after (rows * kCols) ∧
      (∀ s, s < rows * kCols → after[s]? = some (load (s % kCols) (s / kCols))) ∧
      ∀ s, rows * kCols ≤ s → after[s]? = before[s]?
  observed : ∀ load (before : Vector Sample sampleCount) rows misread, rows ≤ kRows →
    ∃ hash after, computeRows compiled load misread before rows = some (hash, after) ∧
      hash = hashBytes (observedStream misread after) (rows * kCols * 4) ∧
      (∀ s, s < rows * kCols → after[s]? = some (load (s % kCols) (s / kCols))) ∧
      (∀ s, rows * kCols ≤ s → after[s]? = before[s]?) ∧
      ∀ s lane byte, s < rows * kCols → misread s lane = some byte →
        (∀ s' lane', s' < rows * kCols → (s', lane') ≠ (s, lane) →
          ¬ReadDiffers load misread s' lane') →
        hash = replayHashWithSubstitution after (rows * kCols) (4 * s + lane) byte
  quiet : ∀ load misread (env : Env sampleCount) world (state : RunState sampleCount),
    computeRows compiled load misread state.work.samples kRows =
      some (env.computeRows world.time state.work.samples) →
    (∀ s lane, s < sampleCount → ¬ReadDiffers load misread s lane) →
    (measureRound env world state).2.result.detections = state.result.detections

theorem kept_path_agrees {compiled : Compiled} (kept : KeepsInputs compiled) :
    RegisterPathAgrees compiled := by
  have inside : ∀ {rows}, rows ≤ kRows → rows * kCols ≤ sampleCount :=
    fun bound => samples_per_round ▸ Nat.mul_le_mul_right kCols bound
  constructor
  · intro load before rows bound
    obtain ⟨⟨hash, after⟩, ran, computed⟩ := compute_rows_computed (keeps_address kept) load
      (fun _ => correctReads) before rows (inside bound)
    refine ⟨hash, after, ran, ?_, computed.stored, computed.untouched⟩
    exact hash_of_right_reads kept computed (fun s lane _ differs => differs rfl)
  · intro load before rows misread bound
    obtain ⟨⟨hash, after⟩, ran, computed⟩ := compute_rows_computed (keeps_address kept) load
      misread before rows (inside bound)
    refine ⟨hash, after, ran, computed.folded kept, computed.stored, computed.untouched, ?_⟩
    intro s lane byte within misreads right
    exact hash_of_single_misread kept computed s lane byte within misreads right
  · intro load misread env world state ran right
    have agree := hash_of_right_reads kept (round_computed (keeps_address kept) ran) right
    rw [measure_round_detections, if_neg (not_not.mpr agree), Nat.add_zero]

/-- Rows of zeroes whose hash is lost do not hash to what is in memory. -/
theorem lost_hash_differs {compiled : Compiled}
    (overwritten : compiled.allocation.acc = .rcx ∨ compiled.allocation.prime = .rcx)
    {before : Vector Sample sampleCount} {rows done : Nat}
    {round : Word × Vector Sample sampleCount} (positive : 0 < rows)
    (stored : ∀ s, s < done → round.2[s]? = some 0)
    (ran : computeRows compiled (fun _ _ => 0) (fun _ => correctReads) before rows =
      some round) : round.1 = 0 ∧ round.1 ≠ replayHash round.2 done := by
  obtain ⟨early, rfl⟩ := Nat.exists_eq_succ_of_ne_zero (Nat.ne_of_gt positive)
  have lost := rows_lost overwritten ran
  refine ⟨lost, ?_⟩
  rw [lost]
  apply Ne.symm
  apply zeroes_hash
  intro k bound
  rw [byteAt, stored (k / 4) (by omega), Option.getD_some, laneByte]
  simp

/-- Within the constraints, the register path is right exactly when the compiler has put
nothing the sequence reads into `rcx`. -/
theorem register_path_agrees_iff (compiled : Compiled) :
    RegisterPathAgrees compiled ↔ KeepsInputs compiled := by
  constructor
  · intro agrees overwritten
    have one : 1 ≤ kRows := by decide
    have right := fun load => agrees.correct load (Vector.replicate sampleCount 0) 1 one
    have ofInput : (compiled.allocation.acc = .rcx ∨ compiled.allocation.prime = .rcx) ∨
        compiled.allocation.dst.Reads .rcx := by
      rcases overwritten with acc | prime | address
      · exact .inl (.inl acc.symm)
      · exact .inl (.inr prime.symm)
      · exact .inr address
    rcases ofInput with operand | address
    · obtain ⟨hash, after, ran, same, stored, _⟩ := right fun _ _ => 0
      exact (lost_hash_differs operand Nat.one_pos stored ran).2 same
    · obtain ⟨value, astray⟩ := first_sample_astray address (Vector.replicate sampleCount 0) 0
      obtain ⟨hash, after, ran, _⟩ := right fun _ _ => value
      rw [astray] at ran
      cases ran
  · exact kept_path_agrees

theorem rcx_free : PayloadCall.Register.rcx ∉ [.rax, .rdx, .rsp, .rdi, .r8] := by decide

def accInRcx : Compiled := compiledWith .rcx rcx_free

/-- The accumulator in `rcx`, and every sample `0` and read as it is: the hash is `0` and not
that of the samples, and the round counts a detection. -/
theorem accumulator_overwritten :
    ¬ RegisterPathAgrees accInRcx ∧
      (∃ after, computeRows accInRcx (fun _ _ => 0) (fun _ => correctReads)
          (Vector.replicate sampleCount 0) kRows = some (0, after) ∧
        replayHash after sampleCount ≠ 0) ∧
      ∀ (env : Env sampleCount) world (state : RunState sampleCount),
        computeRows accInRcx (fun _ _ => 0) (fun _ => correctReads) state.work.samples kRows =
          some (env.computeRows world.time state.work.samples) →
        (measureRound env world state).2.result.detections = state.result.detections + 1 := by
  have lost : ∀ {before : Vector Sample sampleCount} {round : Word × Vector Sample sampleCount},
      computeRows accInRcx (fun _ _ => 0) (fun _ => correctReads) before kRows = some round →
        round.1 = 0 ∧ round.1 ≠ replayHash round.2 sampleCount := by
    intro before round ran
    have stored := (round_computed (compiled_with_keeps_address .rcx rcx_free) ran).stored
    exact lost_hash_differs (.inl rfl) (by decide) stored ran
  refine ⟨?_, ?_, ?_⟩
  · intro agrees
    obtain ⟨hash, after, ran, same, _⟩ :=
      agrees.correct (fun _ _ => 0) (Vector.replicate sampleCount 0) kRows (Nat.le_refl _)
    exact (lost ran).2 same
  · obtain ⟨⟨hash, after⟩, ran, _⟩ := compute_rows_computed
      (compiled_with_keeps_address .rcx rcx_free) (fun _ _ => 0) (fun _ => correctReads)
      (Vector.replicate sampleCount 0) kRows (Nat.le_of_eq samples_per_round)
    obtain ⟨rfl, differs⟩ := lost ran
    exact ⟨after, ran, Ne.symm differs⟩
  · intro env world state ran
    rw [measure_round_detections, if_pos (lost ran).2]

/-- Sample `s` is read wrongly in at least one lane, and no other sample is. -/
def MisreadsOnly (load : Nat → Nat → Sample) (misread : Nat → Misread) (s : Nat) : Prop :=
  (∃ lane, ReadDiffers load misread s lane) ∧
    ∀ s' lane', s' < sampleCount → s' ≠ s → ¬ReadDiffers load misread s' lane'

theorem corrupted_stream_differs {count : Nat} (data : Vector Sample count) (s : Nat)
    (value : Sample) (inside : s < count) (different : value ≠ data[s]) :
    hashBytes (corruptedStream data s value) (count * 4) ≠ replayHash data count := by
  intro same
  apply different
  apply lane_bytes_injective
  intro lane bound
  have here := hash_bytes_window_injective (corruptedStream data s value) (byteAt data) (4 * s) 4
    (count * 4) (Nat.le_refl _) (by omega)
    (fun k _ outside => if_neg (by omega)) same (4 * s + lane) (by omega)
  rw [corruptedStream, byteAt, show (4 * s + lane) / 4 = s by omega,
    show (4 * s + lane) % 4 = lane by omega, if_pos rfl,
    Vector.getElem?_eq_getElem inside] at here
  exact here

theorem misread_round_differs {compiled : Compiled} {load : Nat → Nat → Sample}
    {misread : Nat → Misread} {s : Nat} {before : Vector Sample sampleCount}
    {round : Word × Vector Sample sampleCount} (kept : KeepsInputs compiled)
    (inside : s < sampleCount) (only : MisreadsOnly load misread s)
    (ran : computeRows compiled load misread before kRows = some round) :
    round.1 ≠ replayHash round.2 sampleCount := by
  obtain ⟨⟨lane, wrong⟩, right⟩ := only
  have computed := round_computed (keeps_address kept) ran
  exact hash_of_one_wrong_sample kept computed s lane inside wrong right

/-- The second and the third part are for a compiler that has put nothing the sequence reads
into `rcx`. -/
theorem one_sample_corruption_is_detected :
    (∀ (count : Nat) (data : Vector Sample count) s (value : Sample) (inside : s < count),
      value ≠ data[s] →
      hashBytes (corruptedStream data s value) (count * 4) ≠ replayHash data count) ∧
    (∀ compiled load misread s (env : Env sampleCount) world (state : RunState sampleCount),
      KeepsInputs compiled → s < sampleCount → MisreadsOnly load misread s →
      computeRows compiled load misread state.work.samples kRows =
        some (env.computeRows world.time state.work.samples) →
      (env.computeRows world.time state.work.samples).1 ≠
          replayHash (env.computeRows world.time state.work.samples).2 sampleCount ∧
        (measureRound env world state).2.result.detections = state.result.detections + 1) ∧
    (∀ (env : Env sampleCount) cpuIndex minutes fuel world work after work' result,
      runOnCurrentCpu env cpuIndex minutes fuel world work = some (after, work', result) →
      ∃ events, after.history = world.history ++ events ∧
        ∀ compiled load misread s before round, KeepsInputs compiled → s < sampleCount →
          MisreadsOnly load misread s →
          computeRows compiled load misread before kRows = some round →
          round ∈ roundsOf events → 0 < result.detections) := by
  refine ⟨?_, ?_, ?_⟩
  · intro count data s value inside different
    exact corrupted_stream_differs data s value inside different
  · intro compiled load misread s env world state kept inside only ran
    have differ := misread_round_differs kept inside only ran
    refine ⟨differ, ?_⟩
    rw [measure_round_detections, if_pos differ]
  · intro env cpuIndex minutes fuel world work after work' result ran
    obtain ⟨events, lines, framed, _, _, _, accounted, _⟩ := run_on_current_cpu_spec ran
    refine ⟨_, framed.history, ?_⟩
    intro compiled load misread s before round kept inside only computed member
    rw [accounted.detections, List.countP_pos_iff]
    refine ⟨round, ?_, decide_eq_true (misread_round_differs kept inside only computed)⟩
    simpa [roundsOf] using member

end SdcProbe.Detection
