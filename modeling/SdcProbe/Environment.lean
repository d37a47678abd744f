import SdcProbe.Report
import SdcProbe.SampleStream

/-!
# The surroundings of a run

What the program asks of its surroundings, and what it gets. Every such request
is one action of the history, and the number of actions so far is the instant at
which the next one happens. The interrupt flag is set at one instant and never
cleared, so a poll sees it exactly when the instant has come; everything between
two actions, the prompts included, is one and the same instant. A call of
`compute_rows` in the measured loop is characterised by the hash it returns and
the samples it leaves, a payload pass by what `sdc_rbx_run_pass` returns.
-/

namespace SdcProbe.Environment

open Fnv1a SampleStream Report

set_option autoImplicit false

/-- Which call of `steady_clock::now()`. -/
inductive Reading where
  | start | test | after | finish | calibration
  deriving DecidableEq

/-- Which call of `sdc_interrupt_requested()`. -/
inductive PollSite where
  | core (cpu : CpuInfo)
  | timed (probe : Probe)
  deriving DecidableEq

inductive Action (count : Nat) where
  | clock (reading : Reading) (value : Nat)
  | poll (site : PollSite) (requested : Bool)
  /-- The pin before calibration, whose outcome is ignored. -/
  | pinFirst (cpu : CpuInfo) (pinned : Bool)
  | pin (cpu : CpuInfo) (pinned : Bool)
  | verifyPin (cpu : CpuInfo) (problem : String)
  /-- A call of `compute_rows` for calibration, with `k_calibration_rows`. -/
  | calibrationRows
  /-- A call of `compute_rows` in the measured loop, with `k_rows`. -/
  | round (registerHash : Word) (samples : Vector Sample count)
  | pass (outcome : RbxPass)

namespace Action

variable {count : Nat}

def isMeasurement : Action count → Bool
  | .round .. | .pass .. => true
  | _ => false

/-- The actions of a timed run after the reading that sets its deadline. -/
def isTimed : Action count → Bool
  | .clock .test _ | .clock .after _ | .clock .finish _ => true
  | .poll (.timed _) _ => true
  | .round .. | .pass .. => true
  | _ => false

theorem measurement_is_timed {action : Action count} (measures : action.isMeasurement = true) :
    action.isTimed = true := by
  cases action <;> first | rfl | cases measures

end Action

/-- How the surroundings answer, instant by instant. -/
structure Env (count : Nat) where
  clock : Nat → Nat
  steady : ∀ i j, i ≤ j → clock i ≤ clock j
  /-- The instant at which the interrupt flag becomes set. -/
  arrival : Option Nat
  pin : Nat → CpuInfo → Bool
  /-- The text `sdc_verify_pin` returns; empty means all good. -/
  verifyPin : Nat → CpuInfo → String
  computeRows : Nat → Vector Sample count → Word × Vector Sample count
  runPass : Nat → RbxPass
  /-- The bytes that lie after the sample array. -/
  past : Nat → Byte
  /-- `sdc_rbx_emit_i16` and `sdc_rbx_emit_i16_end`. -/
  emitI16 : Word
  emitI16End : Word

structure World (count : Nat) where
  history : List (Action count) := []
  log : List Line := []

variable {count : Nat}

/-- `g_interrupt != 0` at an instant. -/
def Env.signalled (env : Env count) (instant : Nat) : Bool :=
  match env.arrival with
  | none => false
  | some arrival => decide (arrival ≤ instant)

namespace World

def time (world : World count) : Nat := world.history.length

def record (world : World count) (action : Action count) : World count :=
  { world with history := world.history ++ [action] }

def print (world : World count) (lines : List Line) : World count :=
  { world with log := world.log ++ lines }

def now (world : World count) (env : Env count) (reading : Reading) : Nat × World count :=
  (env.clock world.time, world.record (.clock reading (env.clock world.time)))

def interruptRequested (world : World count) (env : Env count) (site : PollSite) :
    Bool × World count :=
  (env.signalled world.time, world.record (.poll site (env.signalled world.time)))

@[simp] theorem record_history (world : World count) (action : Action count) :
    (world.record action).history = world.history ++ [action] := rfl

@[simp] theorem record_log (world : World count) (action : Action count) :
    (world.record action).log = world.log := rfl

@[simp] theorem print_history (world : World count) (lines : List Line) :
    (world.print lines).history = world.history := rfl

@[simp] theorem print_log (world : World count) (lines : List Line) :
    (world.print lines).log = world.log ++ lines := rfl

@[simp] theorem record_time (world : World count) (action : Action count) :
    (world.record action).time = world.time + 1 := by
  simp [time]

@[simp] theorem print_time (world : World count) (lines : List Line) :
    (world.print lines).time = world.time := rfl

/-- What was done and printed can be read off the world it leads to. -/
theorem record_print_injective {world : World count} {left right : Action count}
    {lines added : List Line}
    (same : (world.record left).print lines = (world.record right).print added) :
    left = right ∧ lines = added := by
  simp only [record, print, World.mk.injEq, List.append_cancel_left_eq, List.cons.injEq,
    and_true] at same
  exact same

end World

/-- The measured rounds of a stretch of history, with what each returned. -/
def roundsOf (history : List (Action count)) : List (Word × Vector Sample count) :=
  history.filterMap fun action => match action with
    | .round registerHash samples => some (registerHash, samples)
    | _ => none

def passesOf (history : List (Action count)) : List RbxPass :=
  history.filterMap fun action => match action with
    | .pass outcome => some outcome
    | _ => none

/-- The calls of `sdc_pin_to_cpu` in the core loop, with their outcomes. -/
def pinsOf (history : List (Action count)) : List (CpuInfo × Bool) :=
  history.filterMap fun action => match action with
    | .pin cpu pinned => some (cpu, pinned)
    | _ => none

/-- The run has seen the interrupt flag set. -/
def SawInterrupt (history : List (Action count)) : Prop := ∃ site, .poll site true ∈ history

/-- Every measured round and every pass comes right after a poll that found the
flag clear, and so does every pin of the core loop, after the poll that opens
the visit of the same core. -/
structure WellPolled (env : Env count) (history : List (Action count)) : Prop where
  measurement : ∀ i action, history[i]? = some action → action.isMeasurement = true →
    0 < i ∧ env.signalled (i - 1) = false
  pin : ∀ i cpu pinned, history[i]? = some (.pin cpu pinned) →
    0 < i ∧ env.signalled (i - 1) = false ∧ history[i - 1]? = some (.poll (.core cpu) false)

@[simp] theorem rounds_of_append (left right : List (Action count)) :
    roundsOf (left ++ right) = roundsOf left ++ roundsOf right := List.filterMap_append

@[simp] theorem passes_of_append (left right : List (Action count)) :
    passesOf (left ++ right) = passesOf left ++ passesOf right := List.filterMap_append

@[simp] theorem pins_of_append (left right : List (Action count)) :
    pinsOf (left ++ right) = pinsOf left ++ pinsOf right := List.filterMap_append

theorem quiet_rounds_of {action : Action count} (quiet : action.isMeasurement = false) :
    roundsOf [action] = [] := by
  cases action <;> first | rfl | cases quiet

theorem quiet_passes_of {action : Action count} (quiet : action.isMeasurement = false) :
    passesOf [action] = [] := by
  cases action <;> first | rfl | cases quiet

theorem forall_mem_append_singleton {α : Type*} {holds : α → Prop} {list : List α} {last : α} :
    (∀ r ∈ list ++ [last], holds r) ↔ (∀ r ∈ list, holds r) ∧ holds last := by
  rw [List.forall_mem_append, List.forall_mem_singleton]

theorem saw_interrupt_append (left right : List (Action count)) :
    SawInterrupt (left ++ right) ↔ SawInterrupt left ∨ SawInterrupt right := by
  simp only [SawInterrupt, List.mem_append, exists_or]

/-- One more action: only that action has to be looked at. -/
theorem well_polled_record {env : Env count} {history : List (Action count)} {action : Action count}
    (polled : WellPolled env history)
    (measurement : action.isMeasurement = true →
      0 < history.length ∧ env.signalled (history.length - 1) = false)
    (pin : ∀ cpu pinned, action = .pin cpu pinned → 0 < history.length ∧
      env.signalled (history.length - 1) = false ∧
      history[history.length - 1]? = some (.poll (.core cpu) false)) :
    WellPolled env (history ++ [action]) := by
  have lookup : ∀ i other, (history ++ [action])[i]? = some other →
      history[i]? = some other ∨ (i = history.length ∧ action = other) := by
    intro i other found
    rcases Nat.lt_trichotomy i history.length with before | here | after
    · exact .inl (by rwa [List.getElem?_append_left before] at found)
    · subst here
      exact .inr ⟨rfl, by simpa using found⟩
    · rw [List.getElem?_eq_none (by simp; omega)] at found
      cases found
  constructor
  · intro i other found measures
    rcases lookup i other found with old | ⟨rfl, rfl⟩
    · exact polled.measurement i other old measures
    · exact measurement measures
  · intro i cpu pinned found
    have previous : ∀ j, j < history.length → (history ++ [action])[j]? = history[j]? :=
      fun j before => List.getElem?_append_left before
    rcases lookup i _ found with old | ⟨rfl, same⟩
    · obtain ⟨positive, clear, poll⟩ := polled.pin i cpu pinned old
      have before : i < history.length := (List.getElem?_eq_some_iff.mp old).1
      exact ⟨positive, clear, by rw [previous (i - 1) (by omega), poll]⟩
    · obtain ⟨positive, clear, poll⟩ := pin cpu pinned same
      exact ⟨positive, clear, by rw [previous _ (by omega), poll]⟩

theorem well_polled_quiet {env : Env count} {history : List (Action count)} {action : Action count}
    (polled : WellPolled env history) (quiet : action.isMeasurement = false)
    (noPin : ∀ cpu pinned, action ≠ .pin cpu pinned) : WellPolled env (history ++ [action]) :=
  well_polled_record polled (fun measures => by rw [quiet] at measures; cases measures)
    (fun cpu pinned same => absurd same (noPin cpu pinned))

end SdcProbe.Environment
