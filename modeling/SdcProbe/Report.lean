import SdcProbe.LaneSequence

/-!
# Results and report lines

The records a run over one core returns, and the lines the report is made of.
A line keeps the values that are printed into it. The 64-bit counters are
natural numbers here: a core is measured for at most 1440 minutes, which leaves
no time for `2^64` rounds, passes or differing samples. Times are integer
milliseconds; the two fields computed in floating point, `ns_per_check` and
`ns_per_call`, are only printed and left out.
-/

namespace SdcProbe.Report

open Fnv1a LaneSequence

set_option autoImplicit false

/-- `index` is the number the user types and the report prints. -/
structure CpuInfo where
  index : Nat
  group : Nat := 0
  inGroup : Nat
  deriving DecidableEq

inductive Probe where
  | ch | rbx
  deriving DecidableEq

/-- Registers of the thread at the moment of a hardware exception. -/
structure FaultRecord where
  what : String := ""
  address : Word := 0
  rip : Word := 0
  rsp : Word := 0
  rbp : Word := 0
  rbx : Word := 0
  rax : Word := 0
  rcx : Word := 0
  rdx : Word := 0
  rsi : Word := 0
  rdi : Word := 0
  deriving DecidableEq

structure RbxPass where
  faulted : Bool := false
  mismatch : Bool := false
  hash : Word := 0
  expected : Word := 0
  fault : FaultRecord := {}
  deriving DecidableEq

structure RunResult where
  cpuIndex : Nat := 0
  rounds : Nat := 0
  checks : Nat := 0
  detections : Nat := 0
  laneCounts : Vector Nat 4 := Vector.replicate 4 0
  unexplained : Nat := 0
  valueDrift : Nat := 0
  elapsedMs : Nat := 0
  interrupted : Bool := false
  deriving DecidableEq

structure RbxRunResult where
  cpuIndex : Nat := 0
  passes : Nat := 0
  calls : Nat := 0
  detections : Nat := 0
  signature : Nat := 0
  otherFault : Nat := 0
  mismatch : Nat := 0
  elapsedMs : Nat := 0
  interrupted : Bool := false
  deriving DecidableEq

/-- The sums of the summary block of the CH probe. -/
structure ChTotals where
  rounds : Nat := 0
  checks : Nat := 0
  detections : Nat := 0
  lanes : Vector Nat 4 := Vector.replicate 4 0
  unexplained : Nat := 0
  drift : Nat := 0
  elapsedMs : Nat := 0
  deriving DecidableEq

/-- The sums of the summary block of the rbx probe. -/
structure RbxTotals where
  passes : Nat := 0
  calls : Nat := 0
  detections : Nat := 0
  signature : Nat := 0
  other : Nat := 0
  mismatch : Nat := 0
  elapsedMs : Nat := 0
  deriving DecidableEq

inductive Verdict where
  | detected | interrupted | clean
  deriving DecidableEq

inductive Line where
  /-- `--- cpu %u  (%llu of %llu) ---` -/
  | core (cpuIndex number total : Nat)
  /-- `--- interrupted before cpu %u; %llu core(s) not tested ---` -/
  | interruptedBefore (cpuIndex notTested : Nat)
  /-- `--- interrupted; %llu core(s) not tested ---` -/
  | interruptedAfter (notTested : Nat)
  /-- `SKIPPED: could not pin to core %u` -/
  | skipped (cpuIndex : Nat)
  /-- `WARNING: pinning not confirmed - %s` -/
  | pinNotConfirmed (problem : String)
  | detectByte (cpuIndex round : Nat) (lane : Lane) (sampleIndex : Nat) (stored observed : Byte)
  | detectUnexplained (cpuIndex round minPopcount : Nat)
  | detectFault (cpuIndex pass : Nat) (fault : FaultRecord) (signature : Bool)
  | detectHash (cpuIndex pass : Nat) (hash expected : Word)
  /-- `(further detections on this cpu counted but not listed)` -/
  | detectionsNotListed
  | progress (probe : Probe) (cpuIndex elapsedSeconds seconds done detections : Nat)
  | chDone (result : RunResult)
  | rbxDone (result : RbxRunResult)
  | chSummary (results : List RunResult) (selected skipped : Nat) (totals : ChTotals)
  | rbxSummary (results : List RbxRunResult) (selected skipped : Nat) (totals : RbxTotals)
  /-- `RESULT: NOTHING TESTED - no core was measured`, `Pinning failed on every
  selected core, so no checks were performed.` -/
  | nothingTested
  /-- `RESULT: ...` of one probe. -/
  | result (probe : Probe) (verdict : Verdict) (detections checks cores : Nat)
  /-- One entry under `Affected cores:`. -/
  | affected (probe : Probe) (cpuIndex detections checks : Nat)
  | blank
  deriving DecidableEq

namespace Line

def isDetect : Line → Bool
  | .detectByte .. | .detectUnexplained .. | .detectFault .. | .detectHash .. => true
  | _ => false

/-- How many cores the line announces as not tested. -/
def notTested : Line → Nat
  | .interruptedBefore _ count => count
  | .interruptedAfter count => count
  | _ => 0

def isResult : Line → Bool
  | .result .. | .nothingTested => true
  | _ => false

/-- A line that neither announces untested cores nor states a result. -/
def Plain (line : Line) : Prop := line.isResult = false ∧ line.notTested = 0

end Line

/-- The four lane counters together. -/
def laneSum (counts : Vector Nat 4) : Nat := counts[0] + counts[1] + counts[2] + counts[3]

theorem lane_sum_bumped (counts : Vector Nat 4) (lane : Lane) :
    laneSum (counts.set lane (counts[lane] + 1)) = laneSum counts + 1 := by
  match lane with
  | 0 | 1 | 2 | 3 =>
      simp [laneSum]
      omega

theorem lane_sum_add (left right : Vector Nat 4) :
    laneSum (Vector.zipWith (· + ·) left right) = laneSum left + laneSum right := by
  simp only [laneSum, Vector.getElem_zipWith]
  omega

def kMaxReportedPerCpu : Nat := 20

/-- One detection in the report: its line while fewer than
`k_max_reported_per_cpu` are listed, and a closing remark after the last one. -/
def report (reported : Nat) (line : Line) : Nat × List Line :=
  if reported < kMaxReportedPerCpu then
    (reported + 1, line ::
      if reported + 1 = kMaxReportedPerCpu then [.detectionsNotListed] else [])
  else (reported, [])

/-- The counter of listed detections and the lines written so far agree with the
number of detections. -/
structure Listed (detections reported : Nat) (lines : List Line) : Prop where
  capped : reported = min detections kMaxReportedPerCpu
  written : lines.countP Line.isDetect = reported

theorem report_listed {detections reported : Nat} {lines : List Line} {line : Line}
    (listed : Listed detections reported lines) (isDetect : line.isDetect = true) :
    Listed (detections + 1) (report reported line).1 (lines ++ (report reported line).2) := by
  have capped := listed.capped
  rw [report]
  split_ifs with room full
  · refine ⟨by simp only; omega, ?_⟩
    simp [List.countP_append, listed.written, isDetect,
      show Line.isDetect .detectionsNotListed = false from rfl]
  · refine ⟨by simp only; omega, ?_⟩
    simp [List.countP_append, listed.written, isDetect]
  · refine ⟨by simp only; omega, ?_⟩
    simp [listed.written]

theorem listed_other {detections reported : Nat} {lines : List Line} {line : Line}
    (listed : Listed detections reported lines) (other : line.isDetect = false) :
    Listed detections reported (lines ++ [line]) :=
  ⟨listed.capped, by simp [List.countP_append, listed.written, other]⟩

theorem report_plain {reported : Nat} {line : Line} (plain : line.Plain) :
    ∀ other ∈ (report reported line).2, other.Plain := by
  intro other member
  rw [report] at member
  split_ifs at member with room full
  · rcases List.mem_pair.mp member with rfl | rfl
    · exact plain
    · exact ⟨rfl, rfl⟩
  · rwa [List.mem_singleton.mp member]
  · cases member

end SdcProbe.Report
