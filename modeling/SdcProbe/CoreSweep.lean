import SdcProbe.ChRun
import SdcProbe.RbxRun

/-!
# The core sweep

`main` from the point where its questions are answered: calibration on the first
selected core, and then one visit per selected core. A visit polls the interrupt
flag, pins, and runs the selected probes one after the other. What calibration
computes only sets the number of layers `compute_rows` uses from then on, so its
timings are left out and its calls kept.
-/

namespace SdcProbe.CoreSweep

open Report Environment ChRun RbxRun

set_option autoImplicit false

structure ProbeSelection where
  ch : Bool := true
  rbx : Bool := false
  deriving DecidableEq

def ProbeSelection.selects (probes : ProbeSelection) : Probe → Bool
  | .ch => probes.ch
  | .rbx => probes.rbx

def kMaxMinutes : Nat := 1440

/-- The answers to the questions. `layersGiven` says that `--layers` fixed the
number of layers, so that nothing is calibrated. -/
structure Config where
  minutes : Nat
  probes : ProbeSelection
  selected : List CpuInfo
  layersGiven : Bool
  minutes_in_range : 1 ≤ minutes ∧ minutes ≤ kMaxMinutes
  some_probe : probes.ch = true ∨ probes.rbx = true
  some_core : selected ≠ []

structure Sweep (count : Nat) where
  world : World count
  work : Workspace count
  results : List RunResult := []
  rbxResults : List RbxRunResult := []
  skipped : Nat := 0
  measuredCores : Nat := 0
  interrupted : Bool := false

variable {count : Nat}

/-- `compute_rows` in calibration: the hash goes to a sink, the samples stay. -/
def calibrationRows (env : Env count) (sweep : Sweep count) : Sweep count :=
  let (_, samples) := env.computeRows sweep.world.time sweep.work.samples
  { sweep with
    world := sweep.world.record .calibrationRows
    work := { sweep.work with samples := samples } }

def calibrationReading (env : Env count) (sweep : Sweep count) : Sweep count :=
  { sweep with world := (sweep.world.now env .calibration).2 }

/-- An untimed pass, and a timed one between two readings. -/
def probeNsPerSample (env : Env count) (sweep : Sweep count) : Sweep count :=
  calibrationReading env (calibrationRows env
    (calibrationReading env (calibrationRows env sweep)))

/-- The low probe, the high probe and the probe of the chosen number of layers. -/
def calibrateLayers (env : Env count) (sweep : Sweep count) : Sweep count :=
  probeNsPerSample env (probeNsPerSample env (probeNsPerSample env sweep))

/-- Up to the first iteration of the core loop. -/
def prelude (env : Env count) (config : Config) : Sweep count :=
  let sweep : Sweep count := { world := {}, work := {} }
  if config.probes.ch then
    let front := config.selected.head config.some_core
    let pinned := env.pin sweep.world.time front
    let sweep := { sweep with world := sweep.world.record (.pinFirst front pinned) }
    if config.layersGiven then sweep else calibrateLayers env sweep
  else sweep

def pinToCpu (env : Env count) (world : World count) (cpu : CpuInfo) : Bool × World count :=
  (env.pin world.time cpu, world.record (.pin cpu (env.pin world.time cpu)))

/-- `sdc_verify_pin`, and the warning when it reports a problem. -/
def verifyPin (env : Env count) (world : World count) (cpu : CpuInfo) : World count :=
  let problem := env.verifyPin world.time cpu
  let world := world.record (.verifyPin cpu problem)
  if problem ≠ "" then world.print [.pinNotConfirmed problem] else world

/-- The ch part of a visit. The flag is `core_interrupted`. -/
def visitCh (env : Env count) (config : Config) (fuel : Nat) (cpu : CpuInfo)
    (sweep : Sweep count) : Option (Sweep count × Bool) :=
  if config.probes.ch then do
    let (world, work, result) ←
      runOnCurrentCpu env cpu.index config.minutes fuel sweep.world sweep.work
    some ({ sweep with
      world := world.print [.chDone result]
      work := work
      results := sweep.results ++ [result] }, result.interrupted)
  else some (sweep, false)

def visitRbx (env : Env count) (config : Config) (fuel : Nat) (cpu : CpuInfo)
    (sweep : Sweep count) (coreInterrupted : Bool) : Option (Sweep count × Bool) :=
  if config.probes.rbx && !coreInterrupted then do
    let (world, result) ← runRbxOnCurrentCpu env cpu.index config.minutes fuel sweep.world
    some ({ sweep with
      world := world.print [.rbxDone result]
      rbxResults := sweep.rbxResults ++ [result] }, result.interrupted)
  else some (sweep, coreInterrupted)

/-- A visit to a core that could be pinned, up to the blank line that ends it. -/
def measureCore (env : Env count) (config : Config) (fuel : Nat) (cpu : CpuInfo)
    (sweep : Sweep count) : Option (Sweep count × Bool) := do
  let sweep := { sweep with
    world := verifyPin env sweep.world cpu
    measuredCores := sweep.measuredCores + 1 }
  let (sweep, coreInterrupted) ← visitCh env config fuel cpu sweep
  let (sweep, coreInterrupted) ← visitRbx env config fuel cpu sweep coreInterrupted
  some ({ sweep with world := sweep.world.print [.blank] }, coreInterrupted)

/-- The end of such a visit: an interrupted one breaks the core loop. -/
def endVisit (config : Config) (n : Nat) (sweep : Sweep count) (coreInterrupted : Bool) :
    FuelLoop.Trip (Sweep count) (Sweep count) :=
  if coreInterrupted then
    let remaining := config.selected.length - (n + 1)
    let world :=
      if remaining ≠ 0 then sweep.world.print [.interruptedAfter remaining] else sweep.world
    .leave { sweep with interrupted := true, world := world }
  else .again sweep

/-- One iteration of the core loop, for the core at index `n`. -/
def visitCore (env : Env count) (config : Config) (fuel n : Nat) (cpu : CpuInfo)
    (sweep : Sweep count) : Option (FuelLoop.Trip (Sweep count) (Sweep count)) :=
  let total := config.selected.length
  let (requested, world) := sweep.world.interruptRequested env (.core cpu)
  if requested then
    some (.leave { sweep with
      interrupted := true
      world := world.print [.interruptedBefore cpu.index (total - n)] })
  else
    let world := world.print [.core cpu.index (n + 1) total]
    let (pinned, world) := pinToCpu env world cpu
    if !pinned then
      some (.again { sweep with
        world := world.print [.skipped cpu.index]
        skipped := sweep.skipped + 1 })
    else
      (measureCore env config fuel cpu { sweep with world := world }).map
        fun (sweep, coreInterrupted) => endVisit config n sweep coreInterrupted

/-- The core loop from index `n` on, with the cores that are left. -/
def sweepCores (env : Env count) (config : Config) (fuel : Nat) :
    Nat → List CpuInfo → Sweep count → Option (Sweep count)
  | _, [], sweep => some sweep
  | n, cpu :: rest, sweep => do
      match ← visitCore env config fuel n cpu sweep with
      | .again next => sweepCores env config fuel (n + 1) rest next
      | .leave final => some final

end SdcProbe.CoreSweep
