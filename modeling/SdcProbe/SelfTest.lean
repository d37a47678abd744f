import SdcProbe.ComputeRows
import SdcProbe.PopcountDiagnosis
import SdcProbe.ReverseAnalysis

/-!
# The self-test of the CH probe

`self_test`: a clean round, eight injections of one byte that the analysis has to name,
and two bytes that it must not take for one. What the register path read in the clean
round decides about one line of the report and about nothing else, so the outcome is
one of the samples alone.
-/

namespace SdcProbe.SelfTest

open Fnv1a SampleStream LaneSequence ReverseFnv ReverseAnalysis ComputeRows ChRun PopcountDiagnosis

set_option autoImplicit false

structure Injection where
  sampleIndex : Nat
  lane : Lane
  replacement : Byte
  deriving DecidableEq

def Injection.byteIndex (injection : Injection) : Nat := injection.sampleIndex * 4 + injection.lane

theorem lanes_ne_zero : NeZero 4 := ⟨by decide⟩

attribute [local instance] lanes_ne_zero in
def injections (sampleCount : Nat) : List Injection :=
  [⟨0, 0, 0x00⟩, ⟨0, 1, 0x00⟩, ⟨1, 2, 0x00⟩, ⟨1, 3, 0x00⟩, ⟨16610, 1, 0x00⟩, ⟨16610, 1, 0x5d⟩,
    ⟨sampleCount / 2, 2, 0xff⟩, ⟨sampleCount - 1, 3, 0x00⟩]

inductive TestLine where
  /-- `self-test: verifying the detector against injected misreads` -/
  | begins
  | cleanPass
  /-- `NOTE  clean round: the two paths DISAGREE`, two lines. -/
  | cleanNote
  | skip (injection : Injection)
  | injectionPass (injection : Injection) (original : Byte)
  /-- Two lines, the second with what the analysis said. -/
  | injectionFail (injection : Injection) (original : Byte) (said : ReverseResult)
  | twoPass
  | twoFail (lane : Lane) (sampleIndex : Nat)
  | blank
  /-- `self-test: %u passed, %u failed` -/
  | total (passed failed : Nat)

namespace TestLine

def isPass : TestLine → Bool
  | .cleanPass | .injectionPass .. | .twoPass => true
  | _ => false

def isFail : TestLine → Bool
  | .injectionFail .. | .twoFail .. => true
  | _ => false

/-- A case that neither passes nor fails. -/
def isNote : TestLine → Bool
  | .skip _ | .cleanNote => true
  | _ => false

end TestLine

/-- The buffers of the analysis, the two counters and what is printed. -/
structure TestState (count : Nat) where
  forward : Vector Word (count * 4 + 1)
  backward : Vector Word (count * 4 + 1)
  passed : Nat := 0
  failed : Nat := 0
  lines : List TestLine := []

section Test

variable {count : Nat}

def TestState.note (state : TestState count) (line : TestLine) : TestState count :=
  { state with lines := state.lines ++ [line] }

def TestState.pass (state : TestState count) (line : TestLine) : TestState count :=
  { state with passed := state.passed + 1, lines := state.lines ++ [line] }

def TestState.fail (state : TestState count) (line : TestLine) : TestState count :=
  { state with failed := state.failed + 1, lines := state.lines ++ [line] }

/-- `ok` -/
def agrees (injection : Injection) (original : Byte) (r : ReverseResult) : Prop :=
  r.singleByte = true ∧ r.lane = injection.lane ∧ r.sampleIndex = injection.sampleIndex ∧
    r.stored = original ∧ r.observed = injection.replacement

instance (injection : Injection) (original : Byte) (r : ReverseResult) :
    Decidable (agrees injection original r) := inferInstanceAs (Decidable (_ ∧ _))

def tryInjection (past : Nat → Byte) (samples : Vector Sample count) (state : TestState count)
    (injection : Injection) : TestState count :=
  let original := byteAt samples injection.byteIndex
  if original = injection.replacement then state.note (.skip injection)
  else
    let corrupted :=
      replayHashWithSubstitution samples count injection.byteIndex injection.replacement
    let (r, forward, backward) := analyse past samples corrupted state.forward state.backward
    let state := { state with forward := forward, backward := backward }
    if agrees injection original r then state.pass (.injectionPass injection original)
    else state.fail (.injectionFail injection original r)

def firstByte : Nat := 1000 * 4 + 1
def secondByte : Nat := 50000 * 4 + 2

/-- The loop of the last case. -/
def twoBytesHash (samples : Vector Sample count) : Word :=
  hashBytes (fun k =>
    if k = firstByte ∨ k = secondByte then byteAt samples k ^^^ 0x5a else byteAt samples k)
    (count * 4)

def tryTwoBytes (past : Nat → Byte) (samples : Vector Sample count) (state : TestState count) :
    TestState count :=
  let (r, forward, backward) :=
    analyse past samples (twoBytesHash samples) state.forward state.backward
  let state := { state with forward := forward, backward := backward }
  if r.singleByte = false then state.pass .twoPass
  else state.fail (.twoFail r.lane r.sampleIndex)

/-- Case 0. -/
def cleanRound (registerHash : Word) (samples : Vector Sample count) (state : TestState count) :
    TestState count :=
  if registerHash = replayHash samples count then state.pass .cleanPass
  else state.note .cleanNote

def TestState.start (work : Workspace count) : TestState count :=
  { forward := work.forward, backward := work.backward, lines := [.begins] }

/-- All cases, with the samples of the clean round. -/
def runCases (past : Nat → Byte) (registerHash : Word) (samples : Vector Sample count)
    (work : Workspace count) : TestState count :=
  let state := cleanRound registerHash samples (.start work)
  let state := (injections count).foldl (tryInjection past samples) state
  tryTwoBytes past samples state

/-- What is returned, the workspace and what is printed. -/
def selfTest (past : Nat → Byte) (compiled : Compiled) (load : Nat → Nat → Sample)
    (misread : Nat → Misread) (work : Workspace count) :
    Option (Bool × Workspace count × List TestLine) := do
  let (registerHash, samples) ← computeRows compiled load misread work.samples kRows
  let state := runCases past registerHash samples work
  some (state.failed == 0,
    { work with samples := samples, forward := state.forward, backward := state.backward },
    state.lines ++ [.blank, .total state.passed state.failed])

end Test

section Verdicts

variable {count : Nat}

/-- A byte before the injected one could have been misread instead, with the same
hash. -/
def Missed (samples : Vector Sample count) (injection : Injection) : Prop :=
  byteAt samples injection.byteIndex ≠ injection.replacement ∧
    ∃ q, q < injection.byteIndex ∧ q ∈ ExplainingPositions samples
      (replayHashWithSubstitution samples count injection.byteIndex injection.replacement)

/-- Two injected bytes look like one: one byte would give the same hash, or it is off in
its lowest eight bits only. -/
def TakenForOne (samples : Vector Sample count) : Prop :=
  (ExplainingPositions samples (twoBytesHash samples)).Nonempty ∨
    ByteShaped (replayHash samples count ^^^ twoBytesHash samples)

variable {past : Nat → Byte} {samples : Vector Sample count}

theorem analyse_single_iff (past : Nat → Byte) (samples : Vector Sample count)
    (wrongHash : Word) (forward backward : Vector Word (count * 4 + 1)) :
    (analyse past samples wrongHash forward backward).1.singleByte = true ↔
      (ExplainingPositions samples wrongHash).Nonempty ∨
        ByteShaped (replayHash samples count ^^^ wrongHash) := by
  have scanned := analyse_scanned past samples wrongHash forward backward
  rw [← difference_at_end]
  constructor
  · intro flag
    obtain ⟨p, bound, first, _⟩ := scanned.found flag
    by_cases inside : p < count * 4
    · exact Or.inl ⟨p, (byte_shaped_iff samples wrongHash p inside).mp first.1⟩
    · have last : p = count * 4 := by omega
      rw [last] at first
      exact Or.inr first.1
  · intro shaped
    by_contra silent
    have none := scanned.silent (Bool.eq_false_iff.mpr silent)
    rcases shaped with ⟨p, explained⟩ | last
    · have inside := explaining_inside samples wrongHash p explained
      exact none p (by omega) ((byte_shaped_iff samples wrongHash p inside).mpr explained)
    · exact none (count * 4) (by omega) last

/-- The analysis names an injected byte exactly when no byte before it explains the
hash. -/
theorem analyse_agrees_iff (injection : Injection) (forward backward : Vector Word (count * 4 + 1))
    (inside : injection.byteIndex < count * 4)
    (other : byteAt samples injection.byteIndex ≠ injection.replacement) :
    agrees injection (byteAt samples injection.byteIndex)
        (analyse past samples
          (replayHashWithSubstitution samples count injection.byteIndex injection.replacement)
          forward backward).1 ↔
      ¬ Missed samples injection := by
  generalize same : replayHashWithSubstitution samples count injection.byteIndex
    injection.replacement = wrongHash
  have scanned := analyse_scanned past samples wrongHash forward backward
  generalize (analyse past samples wrongHash forward backward).1 = r at scanned
  have explained : Explains samples wrongHash injection.byteIndex injection.replacement :=
    ⟨inside, other.symm, same⟩
  have flag : r.singleByte = true := by
    by_contra silent
    have shaped := (byte_shaped_iff samples wrongHash injection.byteIndex inside).mpr
      ⟨_, explained⟩
    exact scanned.silent (Bool.eq_false_iff.mpr silent) _ (by omega) shaped
  obtain ⟨p, _, first, lane, sampleIndex, read, observed⟩ := scanned.found flag
  have notLater : p ≤ injection.byteIndex := by
    by_contra later
    exact first.2 _ (by omega) ((byte_shaped_iff samples wrongHash _ inside).mpr ⟨_, explained⟩)
  have placed : p = injection.byteIndex ↔ ¬ Missed samples injection := by
    rw [Missed, same]
    constructor
    · rintro here ⟨_, q, before, explains⟩
      exact first.2 q (by omega) ((byte_shaped_iff samples wrongHash q (by omega)).mpr explains)
    · intro named
      by_contra before
      apply named
      exact ⟨other, p, by omega, (byte_shaped_iff samples wrongHash p (by omega)).mp first.1⟩
  rw [← placed]
  constructor
  · rintro ⟨_, sameLane, sameSample, _⟩
    rw [lane] at sameLane
    rw [sampleIndex] at sameSample
    have value : p % 4 = injection.lane := congrArg Fin.val sameLane
    rw [Injection.byteIndex, ← sameSample, ← value]
    omega
  · intro here
    have laneBound := injection.lane.isLt
    have shift := (substitution_yields_iff samples wrongHash p injection.replacement
      (here ▸ inside)).mp (here ▸ same)
    rw [read_byte_inside _ samples p (here ▸ inside), Option.some.injEq] at read
    have undo : ∀ left right : Byte,
        left ^^^ ((left ^^^ right).setWidth 64).setWidth 8 = right := by
      intro left right
      rw [BitVec.setWidth_setWidth_of_le _ (by decide), BitVec.setWidth_eq, ← BitVec.xor_assoc,
        BitVec.xor_self, BitVec.zero_xor]
    refine ⟨flag, ?_, ?_, ?_, ?_⟩
    · rw [lane, here]
      apply Fin.ext
      rw [laneOf, Injection.byteIndex]
      dsimp only
      omega
    · rw [sampleIndex, here, Injection.byteIndex]
      omega
    · rw [← read, here]
    · rw [observed, shift, ← read, undo]

theorem try_injection_failed (state : TestState count) (injection : Injection)
    (inside : injection.byteIndex < count * 4) :
    (tryInjection past samples state injection).failed = 0 ↔
      state.failed = 0 ∧ ¬ Missed samples injection := by
  unfold tryInjection
  dsimp only
  split_ifs with same named
  · have found : ¬ Missed samples injection := fun missed => missed.1 same
    simp [TestState.note, found]
  · rw [analyse_agrees_iff injection _ _ inside same] at named
    simp [TestState.pass, named]
  · rw [analyse_agrees_iff injection _ _ inside same, not_not] at named
    simp [TestState.fail, named]

theorem try_injections_failed (cases : List Injection) (state : TestState count)
    (inside : ∀ injection ∈ cases, injection.byteIndex < count * 4) :
    (cases.foldl (tryInjection past samples) state).failed = 0 ↔
      state.failed = 0 ∧ ∀ injection ∈ cases, ¬ Missed samples injection := by
  induction cases generalizing state with
  | nil => simp
  | cons injection rest ih =>
      rw [List.foldl_cons, ih _ fun other member => inside other (List.mem_cons_of_mem _ member),
        try_injection_failed state injection (inside injection List.mem_cons_self),
        List.forall_mem_cons, and_assoc]

theorem try_two_bytes_failed (state : TestState count) :
    (tryTwoBytes past samples state).failed = 0 ↔
      state.failed = 0 ∧ ¬ TakenForOne samples := by
  have single := analyse_single_iff past samples (twoBytesHash samples) state.forward state.backward
  unfold tryTwoBytes
  dsimp only
  split_ifs with silent
  · have plain : ¬ TakenForOne samples := fun taken => by
      rw [single.mpr taken] at silent
      cases silent
    simp [TestState.pass, plain]
  · have taken : TakenForOne samples := single.mp (Bool.not_eq_false _ ▸ silent)
    simp [TestState.fail, taken]

theorem run_cases_failed (past : Nat → Byte) (samples : Vector Sample count) (registerHash : Word)
    (work : Workspace count)
    (inside : ∀ injection ∈ injections count, injection.byteIndex < count * 4) :
    (runCases past registerHash samples work).failed = 0 ↔
      (∀ injection ∈ injections count, ¬ Missed samples injection) ∧ ¬ TakenForOne samples := by
  have clean : ∀ state : TestState count,
      (cleanRound registerHash samples state).failed = state.failed := by
    intro state
    unfold cleanRound
    split_ifs <;> rfl
  rw [runCases, try_two_bytes_failed, try_injections_failed _ _ inside, clean]
  simp [TestState.start]

end Verdicts

section Accounts

variable {count : Nat}

/-- The counters are those of the lines, and every case so far has its line. -/
structure Tallied (cases : Nat) (state : TestState count) : Prop where
  passed : state.passed = state.lines.countP TestLine.isPass
  failed : state.failed = state.lines.countP TestLine.isFail
  every : state.passed + state.failed + state.lines.countP TestLine.isNote = cases

variable {cases : Nat} {state : TestState count} {line : TestLine}

theorem tallied_note (tallied : Tallied cases state) (kind : line.isNote = true)
    (neither : line.isPass = false ∧ line.isFail = false) :
    Tallied (cases + 1) (state.note line) := by
  have every := tallied.every
  constructor
  · simp [TestState.note, List.countP_append, neither, tallied.passed]
  · simp [TestState.note, List.countP_append, neither, tallied.failed]
  · simp only [TestState.note, List.countP_append, List.countP_singleton, kind, if_pos]
    omega

theorem tallied_pass (tallied : Tallied cases state) (kind : line.isPass = true)
    (neither : line.isFail = false ∧ line.isNote = false) :
    Tallied (cases + 1) (state.pass line) := by
  have every := tallied.every
  constructor
  · simp [TestState.pass, List.countP_append, kind, tallied.passed]
  · simp [TestState.pass, List.countP_append, neither, tallied.failed]
  · simp only [TestState.pass, List.countP_append, List.countP_singleton, neither, if_neg,
      Bool.false_eq_true, not_false_eq_true]
    omega

theorem tallied_fail (tallied : Tallied cases state) (kind : line.isFail = true)
    (neither : line.isPass = false ∧ line.isNote = false) :
    Tallied (cases + 1) (state.fail line) := by
  have every := tallied.every
  constructor
  · simp [TestState.fail, List.countP_append, neither, tallied.passed]
  · simp [TestState.fail, List.countP_append, kind, tallied.failed]
  · simp only [TestState.fail, List.countP_append, List.countP_singleton, neither, if_neg,
      Bool.false_eq_true, not_false_eq_true]
    omega

/-- The counters and the lines do not depend on the buffers. -/
theorem tallied_buffers (tallied : Tallied cases state)
    (forward backward : Vector Word (count * 4 + 1)) :
    Tallied cases { state with forward := forward, backward := backward } :=
  ⟨tallied.passed, tallied.failed, tallied.every⟩

theorem try_injection_tallied (past : Nat → Byte) (samples : Vector Sample count)
    (injection : Injection) (tallied : Tallied cases state) :
    Tallied (cases + 1) (tryInjection past samples state injection) := by
  unfold tryInjection
  dsimp only
  split_ifs
  · exact tallied_note tallied rfl ⟨rfl, rfl⟩
  · exact tallied_pass (tallied_buffers tallied _ _) rfl ⟨rfl, rfl⟩
  · exact tallied_fail (tallied_buffers tallied _ _) rfl ⟨rfl, rfl⟩

theorem try_injections_tallied (past : Nat → Byte) (samples : Vector Sample count)
    (list : List Injection) (tallied : Tallied cases state) :
    Tallied (cases + list.length) (list.foldl (tryInjection past samples) state) := by
  induction list generalizing cases state with
  | nil => exact tallied
  | cons injection rest ih =>
      have next := ih (try_injection_tallied past samples injection tallied)
      rw [List.length_cons, Nat.add_comm rest.length, ← Nat.add_assoc]
      exact next

theorem run_cases_tallied (past : Nat → Byte) (registerHash : Word) (samples : Vector Sample count)
    (work : Workspace count) : Tallied 10 (runCases past registerHash samples work) := by
  have begins : Tallied 0 (TestState.start work) := ⟨rfl, rfl, rfl⟩
  have clean : Tallied 1 (cleanRound registerHash samples (TestState.start work)) := by
    unfold cleanRound
    split_ifs
    · exact tallied_pass begins rfl ⟨rfl, rfl⟩
    · exact tallied_note begins rfl ⟨rfl, rfl⟩
  have injected : Tallied 9 _ := try_injections_tallied past samples (injections count) clean
  unfold runCases tryTwoBytes
  dsimp only
  split_ifs
  · exact tallied_pass (tallied_buffers injected _ _) rfl ⟨rfl, rfl⟩
  · exact tallied_fail (tallied_buffers injected _ _) rfl ⟨rfl, rfl⟩

end Accounts

/-- The samples of a seed and a number of layers, as memory has them after a round. -/
def loadedSamples (load : Nat → Nat → Sample) : Vector Sample sampleCount :=
  Vector.ofFn fun s => load (s % kCols) (s / kCols)

theorem round_samples {compiled : Compiled} {load : Nat → Nat → Sample}
    {misread : Nat → Misread} {before : Vector Sample sampleCount}
    {round : Word × Vector Sample sampleCount} (kept : KeepsAddress compiled)
    (ran : computeRows compiled load misread before kRows = some round) :
    round.2 = loadedSamples load := by
  have computed := round_computed kept ran
  apply Vector.ext
  intro s inside
  have stored := computed.stored s inside
  rw [Vector.getElem?_eq_getElem inside, Option.some.injEq] at stored
  rw [stored, loadedSamples, Vector.getElem_ofFn]

theorem injections_inside :
    ∀ injection ∈ injections sampleCount, injection.byteIndex < sampleCount * 4 := by
  intro injection member
  simp only [injections, List.mem_cons, List.not_mem_nil, or_false] at member
  rcases member with rfl | rfl | rfl | rfl | rfl | rfl | rfl | rfl <;>
    norm_num [Injection.byteIndex, sampleCount, kCols, kRows]

/-- What is returned and printed, for the samples of the clean round. -/
structure Outcome {count : Nat} (samples : Vector Sample count) (verdict : Bool)
    (lines : List TestLine) (passed failed : Nat) : Prop where
  verdict_iff : verdict = true ↔
    (∀ injection ∈ injections count, ¬ Missed samples injection) ∧ ¬ TakenForOne samples
  last : lines.getLast? = some (.total passed failed)
  passes : passed = lines.countP TestLine.isPass
  fails : failed = lines.countP TestLine.isFail
  every : passed + failed + lines.countP TestLine.isNote = 10
  failed_iff : verdict = true ↔ failed = 0

theorem outcome_of_round {count : Nat} (past : Nat → Byte) {compiled : Compiled}
    {load : Nat → Nat → Sample} {misread : Nat → Misread} {work : Workspace count}
    {round : Word × Vector Sample count}
    (ran : computeRows compiled load misread work.samples kRows = some round)
    (inside : ∀ injection ∈ injections count, injection.byteIndex < count * 4) :
    ∃ verdict after lines passed failed,
      selfTest past compiled load misread work = some (verdict, after, lines) ∧
        Outcome round.2 verdict lines passed failed := by
  have failed := run_cases_failed past round.2 round.1 work inside
  have tallied := run_cases_tallied past round.1 round.2 work
  rw [selfTest, ran]
  refine ⟨_, _, _, (runCases past round.1 round.2 work).passed,
    (runCases past round.1 round.2 work).failed, rfl, ?_⟩
  constructor
  · rw [beq_iff_eq]
    exact failed
  · rw [List.getLast?_append_of_ne_nil _ (List.cons_ne_nil _ _)]
    rfl
  · rw [List.countP_append]
    exact tallied.passed
  · rw [List.countP_append]
    exact tallied.failed
  · rw [List.countP_append]
    exact tallied.every
  · rw [beq_iff_eq]

/-- The self-test returns, and it passes exactly when no byte before an injected one
explains the hash and the two bytes are not taken for one. That is decided by the
samples; no misread changes it, nor a hash that the registers have made wrong, as long as
the samples go to their cells. -/
theorem self_test_verdict (past : Nat → Byte) (compiled : Compiled)
    (kept : KeepsAddress compiled) (load : Nat → Nat → Sample) (misread : Nat → Misread)
    (work : Workspace sampleCount) :
    ∃ verdict after lines passed failed,
      selfTest past compiled load misread work = some (verdict, after, lines) ∧
        Outcome (loadedSamples load) verdict lines passed failed := by
  obtain ⟨round, ran, _⟩ := compute_rows_computed kept load misread work.samples kRows
    (Nat.le_of_eq samples_per_round)
  rw [← round_samples kept ran]
  exact outcome_of_round past ran injections_inside

/-- Samples of zeroes, and a read that has gone wrong. -/
theorem self_test_verdict_sample :
    ∃ (verdict : Bool) (after : Workspace sampleCount) (lines : List TestLine)
      (passed failed : Nat),
      selfTest (fun _ => 0) accInRsi (fun _ _ => 0) (fun _ _ => some 1)
          ({} : Workspace sampleCount) = some (verdict, after, lines) ∧
        Outcome (loadedSamples fun _ _ => 0) verdict lines passed failed :=
  self_test_verdict (fun _ => 0) accInRsi (keeps_address acc_in_rsi_keeps) (fun _ _ => 0)
    (fun _ _ => some 1) {}

end SdcProbe.SelfTest
