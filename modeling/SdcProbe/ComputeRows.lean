import SdcProbe.CheckedBuffer
import SdcProbe.LaneSequence

/-!
# The measured loop

`compute_rows` fills the sample buffer row by row and accumulates the hash
through the register path. What `sdc_load_sample` returns for column `i` of row
`j` is a parameter, and so are what every lane read delivers and the registers
the compiler has chosen. The store is checked, so a result means that every
sample was stored in its own cell of the buffer.
-/

namespace SdcProbe.ComputeRows

open CheckedBuffer XorMultiplyHash Fnv1a SampleStream LaneSequence
open PayloadCall (Register)

set_option autoImplicit false

def kCols : Nat := 400
def kRows : Nat := 250

/-- The length of the sample arrays `main` allocates. -/
def sampleCount : Nat := kCols * kRows

theorem samples_per_round : kRows * kCols = sampleCount := Nat.mul_comm kRows kCols

/-- What the compiler has made of the assembly statement: the registers of its operands
within the constraints, and what the registers hold in front of each sample, so that the
operand `dst` is the cell of that sample. -/
structure Compiled where
  allocation : Allocation
  admitted : allocation.Admitted
  /-- `samples_data` -/
  samplesData : Word
  registers : Nat → Register → Word
  addressed : ∀ k, allocation.dst.effective (registers k) = samplesData + BitVec.ofNat 64 (4 * k)

namespace Compiled

/-- The address of sample `k`. -/
def cell (compiled : Compiled) (k : Nat) : Word := compiled.samplesData + BitVec.ofNat 64 (4 * k)

/-- The operands in front of sample `k`. -/
def operands (compiled : Compiled) (k : Nat) (acc : Word) (value : Sample) : Machine where
  register name :=
    if name = compiled.allocation.acc then acc
    else if name = compiled.allocation.prime then kFnvPrime
    else compiled.registers k name
  xmm := value

end Compiled

/-- `dst = value` for sample `k`. What a store elsewhere overwrites is not known, so nothing
is said about what follows it. -/
def storeSample {count : Nat} (compiled : Compiled) (samples : Vector Sample count) (k : Nat)
    (stored : Word × Sample) : Option (Vector Sample count) :=
  if stored.1 = compiled.cell k then writeAt samples k stored.2 else none

/-- One pass through the inner loop body, for column `i` of row `j`. -/
def computeSample {count : Nat} (compiled : Compiled) (load : Nat → Nat → Sample)
    (misread : Nat → Misread) (j : Nat) (state : Word × Vector Sample count) (i : Nat) :
    Option (Word × Vector Sample count) := do
  let k := j * kCols + i
  let machine := execute compiled.allocation (misread k) (compiled.operands k state.1 (load i j))
  let stored ← machine.stored
  let samples ← storeSample compiled state.2 k stored
  some (machine.register compiled.allocation.t0, samples)

def computeRows {count : Nat} (compiled : Compiled) (load : Nat → Nat → Sample)
    (misread : Nat → Misread) (samples : Vector Sample count) (rows : Nat) :
    Option (Word × Vector Sample count) :=
  (List.range rows).foldlM
    (fun state j => (List.range kCols).foldlM (computeSample compiled load misread j) state)
    (kFnvBasis, samples)

/-- The byte stream the register path sees, over the stored samples. -/
def observedStream {count : Nat} (misread : Nat → Misread) (samples : Vector Sample count)
    (k : Nat) : Byte :=
  (misread (k / 4) (laneOf k)).getD (byteAt samples k)

/-- Nothing the sequence reads is in `rcx`. -/
def KeepsInputs (compiled : Compiled) : Prop := ¬ compiled.allocation.Input .rcx

/-- The address of `dst` has no `rcx` in it. -/
def KeepsAddress (compiled : Compiled) : Prop := ¬ compiled.allocation.dst.Reads .rcx

theorem keeps_address {compiled : Compiled} (kept : KeepsInputs compiled) :
    KeepsAddress compiled := fun reads => kept (.inr (.inr reads))

/-- What holds after the first `done` samples: only the first `done` cells have been
written, and where the inputs were kept the accumulator is the fold over the observed
bytes so far. -/
structure Computed {count : Nat} (compiled : Compiled) (load : Nat → Nat → Sample)
    (misread : Nat → Misread) (before : Vector Sample count) (done : Nat)
    (state : Word × Vector Sample count) : Prop where
  stored : ∀ s, s < done → state.2[s]? = some (load (s % kCols) (s / kCols))
  untouched : ∀ s, done ≤ s → state.2[s]? = before[s]?
  folded : KeepsInputs compiled →
    state.1 = hashBytes (observedStream misread state.2) (done * 4)

section Operands

variable (compiled : Compiled) (k : Nat) (acc : Word) (value : Sample)

theorem operands_acc : (compiled.operands k acc value).register compiled.allocation.acc = acc :=
  if_pos rfl

theorem operands_prime :
    (compiled.operands k acc value).register compiled.allocation.prime = kFnvPrime := by
  have apart := compiled.admitted.inputs.1.symm
  exact (if_neg apart).trans (if_pos rfl)

/-- In front of the sequence the address of `dst` is the cell. -/
theorem operands_address :
    compiled.allocation.dst.effective (compiled.operands k acc value).register =
      compiled.cell k := by
  obtain ⟨_, acc, prime⟩ := compiled.admitted.inputs
  rw [Compiled.cell, ← compiled.addressed k]
  apply effective_congr
  intro name reads
  have notAcc : name ≠ compiled.allocation.acc := by
    rintro rfl
    exact acc reads
  have notPrime : name ≠ compiled.allocation.prime := by
    rintro rfl
    exact prime reads
  exact (if_neg notAcc).trans (if_neg notPrime)

/-- The sample goes to its cell where the address has no `rcx` in it. -/
theorem execute_stores {compiled : Compiled} (kept : KeepsAddress compiled)
    (misread : Misread) (k : Nat) (acc : Word) (value : Sample) :
    (execute compiled.allocation misread (compiled.operands k acc value)).stored =
      some (compiled.cell k, value) := by
  rw [execute_stored, ← operands_address compiled k acc value]
  congr 2
  apply effective_congr
  intro name reads
  have other : name ≠ .rcx := by
    rintro rfl
    exact kept reads
  rw [write32, write64_register, if_neg other]

/-- The accumulator takes in the four observed bytes where nothing read is in `rcx`. -/
theorem execute_folds {compiled : Compiled} (kept : KeepsInputs compiled) (misread : Misread)
    (k : Nat) (acc : Word) (value : Sample) :
    (execute compiled.allocation misread (compiled.operands k acc value)).register
        compiled.allocation.t0 =
      digest kFnvPrime acc [observedByte misread value 0, observedByte misread value 1,
        observedByte misread value 2, observedByte misread value 3] := by
  rw [execute_spec compiled.admitted kept, operands_acc, operands_prime]
  rfl

end Operands

theorem observed_stream_byte {count : Nat} (misread : Nat → Misread)
    (samples : Vector Sample count) (s : Nat) (value : Sample) (stored : samples[s]? = some value)
    (lane : Lane) :
    observedStream misread samples (s * 4 + lane) = observedByte (misread s) value lane := by
  have quotient : (s * 4 + lane.val) / 4 = s := by omega
  have remainder : (s * 4 + lane.val) % 4 = lane.val := by omega
  have sameLane : laneOf (s * 4 + lane.val) = lane := Fin.ext remainder
  rw [observedStream, observedByte, byteAt, quotient, remainder, sameLane, stored]
  rfl

/-- One more sample: the four new bytes are the last ones of the longer stream. -/
theorem hash_bytes_next_sample (byte : Nat → Byte) (done : Nat) :
    hashBytes byte ((done + 1) * 4) =
      digest kFnvPrime (hashBytes byte (done * 4))
        [byte (done * 4), byte (done * 4 + 1), byte (done * 4 + 2), byte (done * 4 + 3)] := by
  rw [Nat.succ_mul, show done * 4 + 4 = done * 4 + 4 + 0 by omega, hash_bytes_split,
    bytes_from_zero, digest_nil]
  rfl

theorem observed_stream_prefix {count : Nat} (misread : Nat → Misread)
    (left right : Vector Sample count) (done : Nat) (agree : ∀ s, s < done → left[s]? = right[s]?) :
    hashBytes (observedStream misread left) (done * 4) =
      hashBytes (observedStream misread right) (done * 4) := by
  apply hash_bytes_congr
  intro k bound
  rw [observedStream, observedStream, byteAt, byteAt, agree (k / 4) (by omega)]

section Rows

variable {count : Nat} {compiled : Compiled}

theorem compute_sample_computed (kept : KeepsAddress compiled) (load : Nat → Nat → Sample)
    (misread : Nat → Misread) (before : Vector Sample count) (j i : Nat)
    (state : Word × Vector Sample count) (column : i < kCols) (inside : j * kCols + i < count)
    (computed : Computed compiled load misread before (j * kCols + i) state) :
    ∃ next, computeSample compiled load misread j state i = some next ∧
      Computed compiled load misread before (j * kCols + (i + 1)) next := by
  have column' : (j * kCols + i) % kCols = i := by unfold kCols at column ⊢; omega
  have row' : (j * kCols + i) / kCols = j := by unfold kCols at column ⊢; omega
  have other : ∀ s, s ≠ j * kCols + i →
      (state.2.set (j * kCols + i) (load i j) inside)[s]? = state.2[s]? := by
    intro s different
    rw [Vector.getElem?_set, if_neg (Ne.symm different)]
  have own : (state.2.set (j * kCols + i) (load i j) inside)[j * kCols + i]? = some (load i j) := by
    rw [Vector.getElem?_set, if_pos rfl]
  have stored : storeSample compiled state.2 (j * kCols + i)
      (compiled.cell (j * kCols + i), load i j) =
        some (state.2.set (j * kCols + i) (load i j) inside) := by
    rw [storeSample, if_pos rfl, write_at_inside _ _ _ inside]
  refine ⟨((execute compiled.allocation (misread (j * kCols + i))
      (compiled.operands (j * kCols + i) state.1 (load i j))).register compiled.allocation.t0,
    state.2.set (j * kCols + i) (load i j) inside), ?_, ?_⟩
  · simp only [computeSample, execute_stores kept, Option.bind_eq_bind, Option.bind_some, stored]
  · rw [← Nat.add_assoc]
    refine ⟨?_, ?_, ?_⟩
    · intro s bound
      by_cases same : s = j * kCols + i
      · rw [same, own, column', row']
      · rw [other s same]
        exact computed.stored s (by omega)
    · intro s bound
      rw [other s (by omega)]
      exact computed.untouched s (by omega)
    · intro inputs
      have lanes := observed_stream_byte misread _ (j * kCols + i) (load i j) own
      rw [hash_bytes_next_sample, observed_stream_prefix misread _ state.2 _
        (fun s bound => other s (by omega)), ← computed.folded inputs]
      have lane0 := lanes 0
      have lane1 := lanes 1
      have lane2 := lanes 2
      have lane3 := lanes 3
      simp only [Fin.val_zero, Fin.val_one, Fin.val_two, Nat.add_zero] at lane0 lane1 lane2
      rw [show ((3 : Lane) : Nat) = 3 by rfl] at lane3
      rw [lane0, lane1, lane2, lane3]
      exact execute_folds inputs _ _ _ _

/-- The inner loop, from column 0. -/
theorem compute_row_computed (kept : KeepsAddress compiled) (load : Nat → Nat → Sample)
    (misread : Nat → Misread) (before : Vector Sample count) (j : Nat)
    (state : Word × Vector Sample count) (inside : (j + 1) * kCols ≤ count)
    (computed : Computed compiled load misread before (j * kCols) state) (columns : Nat)
    (bound : columns ≤ kCols) :
    ∃ next, (List.range columns).foldlM (computeSample compiled load misread j) state =
        some next ∧
      Computed compiled load misread before (j * kCols + columns) next := by
  induction columns with
  | zero => exact ⟨state, rfl, by rwa [Nat.add_zero]⟩
  | succ columns ih =>
      obtain ⟨middle, ran, computedMiddle⟩ := ih (by omega)
      obtain ⟨next, sample, computedNext⟩ := compute_sample_computed kept load misread before j
        columns middle (by omega) (by rw [Nat.succ_mul] at inside; omega) computedMiddle
      refine ⟨next, ?_, computedNext⟩
      rw [List.range_succ, List.foldlM_append, ran]
      simpa using sample

theorem compute_rows_computed (kept : KeepsAddress compiled) (load : Nat → Nat → Sample)
    (misread : Nat → Misread) (before : Vector Sample count) (rows : Nat)
    (inside : rows * kCols ≤ count) :
    ∃ state, computeRows compiled load misread before rows = some state ∧
      Computed compiled load misread before (rows * kCols) state := by
  induction rows with
  | zero =>
      refine ⟨(kFnvBasis, before), rfl, ?_, fun s _ => rfl, ?_⟩
      · intro s bound
        omega
      · intro _
        rw [Nat.zero_mul]
        rfl
  | succ rows ih =>
      obtain ⟨middle, ran, computedMiddle⟩ := ih (by rw [Nat.succ_mul] at inside; omega)
      obtain ⟨next, row, computedNext⟩ := compute_row_computed kept load misread before rows middle
        inside computedMiddle kCols (Nat.le_refl _)
      refine ⟨next, ?_, by rw [Nat.succ_mul]; exact computedNext⟩
      rw [computeRows, List.range_succ, List.foldlM_append]
      rw [computeRows] at ran
      rw [ran]
      simpa using row

end Rows

/-- A returned round of full length, over arrays of the length `main` allocates. -/
theorem round_computed {compiled : Compiled} {load : Nat → Nat → Sample}
    {misread : Nat → Misread} {before : Vector Sample sampleCount}
    {round : Word × Vector Sample sampleCount} (kept : KeepsAddress compiled)
    (ran : computeRows compiled load misread before kRows = some round) :
    Computed compiled load misread before sampleCount round := by
  obtain ⟨round', ran', computed⟩ :=
    compute_rows_computed kept load misread before kRows (Nat.le_of_eq samples_per_round)
  obtain rfl := Option.some.inj (ran.symm.trans ran')
  rwa [samples_per_round] at computed

/-! The constraints leave it to the compiler whether an input is in `rcx`. -/

section Overwritten

variable {count : Nat} {compiled : Compiled}

theorem digest_zeroes (bytes : List Byte) (zero : ∀ byte ∈ bytes, byte = 0) :
    digest kFnvPrime 0 bytes = 0 := by
  induction bytes with
  | nil => rfl
  | cons byte rest ih =>
      have first : absorb kFnvPrime 0 byte = 0 := by
        rw [zero byte List.mem_cons_self]
        rfl
      rw [digest_cons, first]
      exact ih fun other member => zero other (List.mem_cons_of_mem _ member)

/-- Zeroes do not hash to zero. -/
theorem zeroes_hash (byte : Nat → Byte) (totalBytes : Nat)
    (zero : ∀ k, k < totalBytes → byte k = 0) : hashBytes byte totalBytes ≠ 0 := by
  intro vanished
  have bytes : ∀ b ∈ bytesFrom byte 0 totalBytes, b = 0 := by
    intro b member
    obtain ⟨k, inside, rfl⟩ := List.mem_map.mp member
    exact zero k (by simpa using (List.mem_range'_1.mp inside).2)
  rw [hash_bytes_eq_digest, ← digest_zeroes _ bytes] at vanished
  have basis := digest_state_injective prime_times_inverse _ _ _ vanished
  exact absurd basis (by decide)

theorem fold_last {State : Type} {step : State → Nat → Option State} {start final : State}
    {trips : Nat} (ran : (List.range (trips + 1)).foldlM step start = some final) :
    ∃ state, step state trips = some final := by
  rw [List.range_succ, List.foldlM_append] at ran
  obtain ⟨state, _, last⟩ := Option.bind_eq_some_iff.mp ran
  exact ⟨state, by simpa using last⟩

theorem fold_first {State : Type} {step : State → Nat → Option State} {start : State}
    (trips : Nat) (failed : step start 0 = none) :
    (List.range (trips + 1)).foldlM step start = none := by
  rw [List.range_succ_eq_map, List.foldlM_cons, failed]
  rfl

theorem sample_lost
    (overwritten : compiled.allocation.acc = .rcx ∨ compiled.allocation.prime = .rcx)
    {j i : Nat} {state next : Word × Vector Sample count}
    (ran : computeSample compiled (fun _ _ => 0) (fun _ => correctReads) j state i = some next) :
    next.1 = 0 := by
  simp only [computeSample, execute_stored, Option.bind_eq_bind, Option.bind_some] at ran
  obtain ⟨samples, _, same⟩ := Option.bind_eq_some_iff.mp ran
  cases same
  exact execute_lost compiled.admitted overwritten (compiled.operands _ _ 0) rfl

/-- With the accumulator or the prime in `rcx` every row of zeroes ends in zero. -/
theorem rows_lost (overwritten : compiled.allocation.acc = .rcx ∨ compiled.allocation.prime = .rcx)
    {before : Vector Sample count} {rows : Nat} {round : Word × Vector Sample count}
    (ran : computeRows compiled (fun _ _ => 0) (fun _ => correctReads) before (rows + 1) =
      some round) : round.1 = 0 := by
  obtain ⟨_, row⟩ := fold_last ran
  have columns : kCols = 399 + 1 := rfl
  rw [columns] at row
  obtain ⟨_, sample⟩ := fold_last row
  exact sample_lost overwritten sample

/-- With `rcx` in its address the first sample is stored elsewhere when it is `0`, or when
it is `1`. -/
theorem first_sample_astray (overwritten : compiled.allocation.dst.Reads .rcx)
    (before : Vector Sample count) (rows : Nat) : ∃ value : Sample,
      computeRows compiled (fun _ _ => value) (fun _ => correctReads) before (rows + 1) = none := by
  have moved : ∀ value : Sample, compiled.allocation.dst.effective
      (write32 (compiled.operands 0 kFnvBasis value) .rcx value).register = compiled.cell 0 +
        BitVec.ofNat 64 (compiled.allocation.dst.factor .rcx) *
          (value.setWidth 64 - (compiled.operands 0 kFnvBasis 0).register .rcx) := by
    intro value
    rw [← operands_address compiled 0 kFnvBasis value]
    apply effective_moved
    intro other different
    exact if_neg different
  have some := factor_pos_iff.mpr overwritten
  have small := Nat.le_trans (@factor_le compiled.allocation.dst .rcx)
    (Nat.mul_le_mul_right 8 compiled.admitted.addressing)
  obtain ⟨value, elsewhere⟩ : ∃ value : Sample, compiled.allocation.dst.effective
      (write32 (compiled.operands 0 kFnvBasis value) .rcx value).register ≠ compiled.cell 0 := by
    by_contra nowhere
    have stays : ∀ value : Sample, BitVec.ofNat 64 (compiled.allocation.dst.factor .rcx) *
        (value.setWidth 64 - (compiled.operands 0 kFnvBasis 0).register .rcx) = 0 := by
      intro value
      by_contra moves
      refine nowhere ⟨value, ?_⟩
      rw [moved value]
      exact fun same => moves (left_eq_add.mp same.symm)
    have zero := stays 0
    have one := stays 1
    have widened : (0 : Sample).setWidth 64 = (0 : Word) ∧
        (1 : Sample).setWidth 64 = (1 : Word) := by
      decide
    rw [widened.1] at zero
    rw [widened.2] at one
    have vanished : BitVec.ofNat 64 (compiled.allocation.dst.factor .rcx) = 0 := by
      linear_combination one - zero
    have value := congrArg BitVec.toNat vanished
    rw [BitVec.toNat_ofNat, Nat.mod_eq_of_lt (by omega)] at value
    exact absurd value (Nat.ne_of_gt some)
  refine ⟨value, fold_first rows ?_⟩
  have columns : kCols = 399 + 1 := rfl
  rw [columns]
  apply fold_first
  simp only [computeSample, execute_stored, Option.bind_eq_bind, Option.bind_some, storeSample]
  exact congrArg (Option.bind · _) (if_neg elsewhere)

end Overwritten

section Sample

theorem some_scale : 0 < 4 := by decide

def unscaled : Fin 4 := ⟨0, some_scale⟩

/-- `acc` in a register, and the cell in `rdi`. -/
def placesWith (acc : Register) : Allocation where
  t0 := .rax
  t1 := .rdx
  acc := acc
  prime := .r8
  dst := ⟨[(.rdi, unscaled)], 0⟩

theorem places_with_reads_iff (acc name : Register) :
    (placesWith acc).dst.Reads name ↔ name = .rdi := by
  simp [Address.Reads, placesWith]

theorem places_with_input_iff (acc name : Register) :
    (placesWith acc).Input name ↔ name ∈ [acc, .r8, .rdi] := by
  rw [Allocation.Input, places_with_reads_iff]
  simp [placesWith]

theorem places_with_admitted {acc : Register} (free : acc ∉ [.rax, .rdx, .rsp, .rdi, .r8]) :
    (placesWith acc).Admitted := by
  simp only [List.mem_cons, List.not_mem_nil, or_false, not_or] at free
  obtain ⟨rax, rdx, rsp, rdi, r8⟩ := free
  constructor
  · simp [placesWith, rsp]
  · simp [placesWith]
  · exact Nat.le_succ 1
  · simp [placesWith]
  · rw [places_with_input_iff]
    simp [placesWith, Ne.symm rax]
  · rw [places_with_input_iff]
    simp [placesWith, Ne.symm rdx]
  · rw [places_with_reads_iff, places_with_reads_iff]
    simp [placesWith, rdi, r8]

/-- `0x10000` and four bytes for each sample before. -/
def cellsInRdi (k : Nat) : Register → Word
  | .rdi => 0x10000 + BitVec.ofNat 64 (4 * k)
  | _ => 0

theorem cells_addressed (acc : Register) (k : Nat) :
    (placesWith acc).dst.effective (cellsInRdi k) = 0x10000 + BitVec.ofNat 64 (4 * k) := by
  simp [Address.effective, Address.value, placesWith, cellsInRdi, unscaled]

def compiledWith (acc : Register) (free : acc ∉ [.rax, .rdx, .rsp, .rdi, .r8]) : Compiled where
  allocation := placesWith acc
  admitted := places_with_admitted free
  samplesData := 0x10000
  registers := cellsInRdi
  addressed := cells_addressed acc

theorem compiled_with_keeps_address (acc : Register) (free : acc ∉ [.rax, .rdx, .rsp, .rdi, .r8]) :
    KeepsAddress (compiledWith acc free) := by
  intro reads
  cases (places_with_reads_iff acc .rcx).mp reads

theorem rsi_free : Register.rsi ∉ [Register.rax, .rdx, .rsp, .rdi, .r8] := by decide

def accInRsi : Compiled := compiledWith .rsi rsi_free

theorem acc_in_rsi_keeps : KeepsInputs accInRsi := by
  intro overwritten
  exact absurd ((places_with_input_iff .rsi .rcx).mp overwritten) (by decide)

end Sample

end SdcProbe.ComputeRows
