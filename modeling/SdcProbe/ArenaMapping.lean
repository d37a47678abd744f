import SdcProbe.CaptureProtocol

/-!
# Mapping the arena

`sdc_rbx_prepare` once more, with what it maps and unmaps. The system offers a
place for each mapping, or none, and only free places; on both systems a mapping
at another place than the one asked for is undone and counts as a failure.
-/

namespace SdcProbe.ArenaMapping

open Fnv1a ByteMemory Arena FaultCapture CaptureProtocol

set_option autoImplicit false

structure Range where
  base : Nat
  size : Nat
  deriving DecidableEq

def Range.Apart (left right : Range) : Prop :=
  left.base + left.size ≤ right.base ∨ right.base + right.size ≤ left.base

instance (left right : Range) : Decidable (left.Apart right) :=
  inferInstanceAs (Decidable (_ ∨ _))

def arenaRange : Range := { base := kArenaBase, size := kArenaBytes }
def shadowRange : Range := { base := kShadowMapBase, size := kShadowMapBytes }

/-- `mmap` or `VirtualAlloc`, where the system would offer this place. -/
def systemMap (offered : Option Nat) (size : Nat) (mapped : List Range) :
    Option Nat × List Range :=
  match offered with
  | none => (none, mapped)
  | some base =>
      if ∀ range ∈ mapped, range.Apart ⟨base, size⟩ then (some base, ⟨base, size⟩ :: mapped)
      else (none, mapped)

/-- `munmap` or `VirtualFree` of a whole mapping. -/
def sdcUnmap (range : Range) (mapped : List Range) : List Range :=
  mapped.filter fun other => other ≠ range

def sdcMapFixed (offered : Option Nat) (range : Range) (mapped : List Range) :
    Bool × List Range :=
  match systemMap offered range.size mapped with
  | (none, mapped) => (false, mapped)
  | (some base, mapped) =>
      if base ≠ range.base then (false, sdcUnmap ⟨base, range.size⟩ mapped) else (true, mapped)

/-- What the system answers during one attempt. -/
structure Offers where
  supported : Bool
  arena : Option Nat
  shadow : Option Nat
  install : Bool
  archPrctl : Bool

structure Attempted where
  process : Process
  /-- What the process has mapped with `sdc_map_fixed`. -/
  mapped : List Range := []

def prepare (platform : Platform) (image : Image) (offers : Offers) (state : Attempted) :
    Except PrepareError Unit × Attempted :=
  if state.process.prepared then (.ok (), state)
  else if offers.supported = false then (.error .notSupported, state)
  else
    let (arena, mapped) := sdcMapFixed offers.arena arenaRange state.mapped
    if arena = false then
      (.error (.cannotMapArena (kArenaBytes >>> 20) kArenaBase), { state with mapped := mapped })
    else
      let (shadow, mapped) := sdcMapFixed offers.shadow shadowRange mapped
      if shadow = false then
        (.error (.cannotMapShadow (kShadowMapBytes >>> 10) kShadowMapBase),
          { state with mapped := sdcUnmap arenaRange mapped })
      else if offers.install = false then
        (.error .cannotInstallHandler, { state with mapped := mapped })
      else
        let process := { state.process with
          globals := { state.process.globals with handlersInstalled := true } }
        let (entered, process) :=
          sdcPayloadTpEnter platform offers.archPrctl image.threadAreaSlot9 process
        if entered = false then
          (.error .cannotSetThreadPointer, { process := process, mapped := mapped })
        else
          let (process, hash) := rebuildArena (sdcPayloadTpLeave platform process)
          (.ok (),
            { process := { process with expectedHash := hash, prepared := true }
              mapped := mapped })

/-- The answers the attempt without mappings is given. -/
def answersOf (offers : Offers) (mapped : List Range) : Answers :=
  let arena := sdcMapFixed offers.arena arenaRange mapped
  { supported := offers.supported
    mapArena := arena.1
    mapShadow := (sdcMapFixed offers.shadow shadowRange arena.2).1
    install := offers.install
    archPrctl := offers.archPrctl }

/-- Without its mappings an attempt is the one of the pass model. -/
theorem prepare_refines (platform : Platform) (image : Image) (offers : Offers)
    (state : Attempted) :
    ((prepare platform image offers state).1, (prepare platform image offers state).2.process) =
      sdcRbxPrepare platform image (answersOf offers state.mapped) state.process := by
  unfold prepare sdcRbxPrepare answersOf
  dsimp only
  split_ifs
  · rfl
  · rfl
  · rfl
  · rfl
  · rfl
  · rfl
  · rfl

/-- `arch_prctl` is asked on Linux only. -/
def TpAccepted (platform : Platform) (offers : Offers) : Prop :=
  platform = .windows ∨ offers.archPrctl = true

/-- The calls before the handler is installed all succeed from a fresh start. -/
def Maps (offers : Offers) : Prop :=
  offers.supported = true ∧ offers.arena = some kArenaBase ∧ offers.shadow = some kShadowMapBase

/-- All its calls succeed from a fresh start. -/
def Succeeds (platform : Platform) (offers : Offers) : Prop :=
  Maps offers ∧ offers.install = true ∧ TpAccepted platform offers

/-- Both mappings are made, and then a later call fails. -/
def Strands (platform : Platform) (offers : Offers) : Prop :=
  Maps offers ∧ ¬ (offers.install = true ∧ TpAccepted platform offers)

section Mappings

theorem unmap_last {range : Range} {mapped : List Range} (other : range ∉ mapped) :
    sdcUnmap range (range :: mapped) = mapped := by
  rw [sdcUnmap, List.filter_cons_of_neg (by simp), List.filter_eq_self]
  intro kept member
  rw [decide_eq_true_eq]
  exact ne_of_mem_of_not_mem member other

theorem map_fixed_free {offered : Option Nat} {range : Range} {mapped : List Range}
    (free : ∀ other ∈ mapped, other.Apart range)
    (sizes : ∀ other ∈ mapped, other.size ≠ range.size) :
    sdcMapFixed offered range mapped =
      if offered = some range.base then (true, range :: mapped) else (false, mapped) := by
  unfold sdcMapFixed systemMap
  cases offered with
  | none => rfl
  | some base =>
      by_cases asked : base = range.base
      · subst asked
        dsimp only
        rw [if_pos free, if_pos rfl]
        exact if_neg (not_not.mpr rfl)
      · have elsewhere : ¬ (some base = some range.base) := by rwa [Option.some.injEq]
        rw [if_neg elsewhere]
        dsimp only
        split_ifs
        · dsimp only
          rw [if_pos asked, unmap_last]
          intro member
          exact sizes _ member rfl
        · rfl

theorem map_arena (offered : Option Nat) : sdcMapFixed offered arenaRange [] =
    if offered = some kArenaBase then (true, [arenaRange]) else (false, []) :=
  map_fixed_free (fun _ member => nomatch member) fun _ member => nomatch member

theorem map_shadow (offered : Option Nat) : sdcMapFixed offered shadowRange [arenaRange] =
    if offered = some kShadowMapBase then (true, [shadowRange, arenaRange])
    else (false, [arenaRange]) :=
  map_fixed_free (by decide) (by decide)

end Mappings

section Attempts

variable (platform : Platform) (image : Image)

theorem tp_enter_fresh (offers : Offers) (value : Word) (process : Process)
    (unset : process.globals.gsInstalled = false) :
    (sdcPayloadTpEnter platform offers.archPrctl value process).1 = true ↔
      TpAccepted platform offers := by
  unfold TpAccepted
  cases platform with
  | linux =>
      cases asked : offers.archPrctl with
      | true => simp [sdcPayloadTpEnter, unset]
      | false => simp [sdcPayloadTpEnter, unset]
  | windows => simp [sdcPayloadTpEnter]

/-- Nothing is mapped, and no attempt has succeeded. -/
structure Clean (state : Attempted) : Prop where
  unprepared : state.process.prepared = false
  unset : state.process.globals.gsInstalled = false
  unmapped : state.mapped = []

/-- Both mappings are there, and an attempt has succeeded. -/
structure Settled (state : Attempted) : Prop where
  prepared : state.process.prepared = true
  mapped : state.mapped = [shadowRange, arenaRange]

/-- The three ways an attempt ends that finds nothing mapped. -/
inductive Ended (offers : Offers) : Except PrepareError Unit × Attempted → Prop where
  | succeeded {after : Attempted} : Succeeds platform offers → Settled after →
      Ended offers (.ok (), after)
  | stranded {error : PrepareError} {after : Attempted} : Strands platform offers →
      after.mapped = [shadowRange, arenaRange] → Ended offers (.error error, after)
  | undone {error : PrepareError} {after : Attempted} : ¬ Maps offers → Clean after →
      Ended offers (.error error, after)

theorem prepare_from_clean (offers : Offers) {state : Attempted} (clean : Clean state) :
    Ended platform offers (prepare platform image offers state) := by
  obtain ⟨process, mapped⟩ := state
  have kept := clean
  obtain ⟨unprepared, unset, rfl⟩ := clean
  unfold prepare
  dsimp only
  rw [if_neg (by rw [unprepared]; exact Bool.false_ne_true), map_arena]
  by_cases supported : offers.supported = false
  · rw [if_pos supported]
    exact .undone (fun maps => Bool.false_ne_true (supported.symm.trans maps.1)) kept
  · rw [if_neg supported]
    by_cases arena : offers.arena = some kArenaBase
    · rw [if_pos arena]
      dsimp only
      rw [if_neg (by decide), map_shadow]
      by_cases shadow : offers.shadow = some kShadowMapBase
      · have maps : Maps offers := ⟨(Bool.not_eq_false _).mp supported, arena, shadow⟩
        rw [if_pos shadow]
        dsimp only
        rw [if_neg (by decide)]
        by_cases install : offers.install = false
        · rw [if_pos install]
          exact .stranded ⟨maps, fun later => Bool.false_ne_true (install.symm.trans later.1)⟩ rfl
        · rw [if_neg install]
          let installed : Process :=
            { process with globals := { process.globals with handlersInstalled := true } }
          have accepted := tp_enter_fresh platform offers image.threadAreaSlot9 installed unset
          by_cases entered : (sdcPayloadTpEnter platform offers.archPrctl image.threadAreaSlot9
              installed).1 = false
          · rw [if_pos entered]
            apply Ended.stranded
            · constructor
              · exact maps
              · intro later
                rw [accepted.mpr later.2] at entered
                cases entered
            · rfl
          · rw [if_neg entered]
            apply Ended.succeeded
            · exact ⟨maps, (Bool.not_eq_false _).mp install,
                accepted.mp ((Bool.not_eq_false _).mp entered)⟩
            · exact { prepared := rfl, mapped := rfl }
      · rw [if_neg shadow]
        dsimp only
        rw [if_pos rfl]
        have back : sdcUnmap arenaRange [arenaRange] = [] := by decide
        rw [back]
        exact .undone (fun maps => shadow maps.2.2) kept
    · rw [if_neg arena]
      dsimp only
      rw [if_pos rfl]
      exact .undone (fun maps => arena maps.2.1) kept

/-- What an attempt should be, whatever was attempted before: where it fails it
leaves nothing mapped, and it fails only if its own calls would fail from a fresh
start; after one that succeeded it succeeds and changes nothing. -/
structure Right (state : Attempted) (offers : Offers) : Prop where
  undone : ∀ error, (prepare platform image offers state).1 = .error error →
    arenaRange ∉ (prepare platform image offers state).2.mapped ∧
      shadowRange ∉ (prepare platform image offers state).2.mapped
  retried : state.process.prepared = false →
    ((prepare platform image offers state).1 = .ok () ↔ Succeeds platform offers)
  mapped : (prepare platform image offers state).1 = .ok () →
    arenaRange ∈ (prepare platform image offers state).2.mapped ∧
      shadowRange ∈ (prepare platform image offers state).2.mapped
  settled : state.process.prepared = true → prepare platform image offers state = (.ok (), state)

/-- Every attempt of a sequence is, in the state the ones before it have left. -/
def AllRight (state : Attempted) : List Offers → Prop
  | [] => True
  | offers :: rest =>
      Right platform image state offers ∧ AllRight (prepare platform image offers state).2 rest

/-- Up to the first attempt that succeeds from a fresh start, none gets both its
mappings and fails afterwards. -/
def NeverStrands : List Offers → Prop
  | [] => True
  | offers :: rest =>
      ¬ Strands platform offers ∧ (¬ Succeeds platform offers → NeverStrands rest)

theorem right_when_settled (offers : Offers) {state : Attempted} (settled : Settled state) :
    Right platform image state offers ∧
      prepare platform image offers state = (.ok (), state) := by
  have ends : prepare platform image offers state = (.ok (), state) := if_pos settled.prepared
  constructor
  · constructor
    · intro error failed
      rw [ends] at failed
      cases failed
    · intro unprepared
      rw [settled.prepared] at unprepared
      cases unprepared
    · intro _
      rw [ends, settled.mapped]
      decide
    · exact fun _ => ends
  · exact ends

theorem all_right_when_settled (all : List Offers) {state : Attempted} (settled : Settled state) :
    AllRight platform image state all := by
  induction all with
  | nil => trivial
  | cons offers rest ih =>
      have right := right_when_settled platform image offers settled
      constructor
      · exact right.1
      · rwa [right.2]

section Once

variable {platform image} {offers : Offers} {state after : Attempted}

theorem right_of_succeeded (clean : Clean state)
    (ends : prepare platform image offers state = (.ok (), after))
    (succeeds : Succeeds platform offers) (settled : Settled after) :
    Right platform image state offers := by
  constructor
  · intro error failed
    rw [ends] at failed
    cases failed
  · intro _
    rw [ends]
    exact iff_of_true rfl succeeds
  · intro _
    rw [ends, settled.mapped]
    decide
  · intro prepared
    rw [clean.unprepared] at prepared
    cases prepared

theorem right_of_undone {error : PrepareError} (clean : Clean state)
    (ends : prepare platform image offers state = (.error error, after))
    (fails : ¬ Succeeds platform offers) (cleared : Clean after) :
    Right platform image state offers := by
  constructor
  · intro _ _
    rw [ends, cleared.unmapped]
    decide
  · intro _
    rw [ends]
    apply iff_of_false
    · intro succeeded
      cases succeeded
    · exact fails
  · intro succeeded
    rw [ends] at succeeded
    cases succeeded
  · intro prepared
    rw [clean.unprepared] at prepared
    cases prepared

theorem wrong_of_stranded {error : PrepareError}
    (ends : prepare platform image offers state = (.error error, after))
    (mapped : after.mapped = [shadowRange, arenaRange]) :
    ¬ Right platform image state offers := by
  intro right
  have undone := right.undone error
  rw [ends, mapped] at undone
  exact (undone rfl).1 (by decide)

end Once

theorem right_iff_not_strands (offers : Offers) {state : Attempted} (clean : Clean state) :
    Right platform image state offers ↔ ¬ Strands platform offers := by
  have ended := prepare_from_clean platform image offers clean
  cases ends : prepare platform image offers state with
  | mk outcome after =>
      rw [ends] at ended
      cases ended with
      | succeeded succeeds settled =>
          apply iff_of_true
          · exact right_of_succeeded clean ends succeeds settled
          · exact fun strands => strands.2 succeeds.2
      | stranded strands mapped =>
          apply iff_of_false
          · exact wrong_of_stranded ends mapped
          · exact not_not.mpr strands
      | undone unmapped cleared =>
          apply iff_of_true
          · exact right_of_undone clean ends (fun succeeds => unmapped succeeds.1) cleared
          · exact fun strands => unmapped strands.1

theorem all_right_iff_never_strands (all : List Offers) {state : Attempted} (clean : Clean state) :
    AllRight platform image state all ↔ NeverStrands platform all := by
  induction all generalizing state with
  | nil => exact Iff.rfl
  | cons offers rest ih =>
      have ended := prepare_from_clean platform image offers clean
      rw [AllRight, NeverStrands, right_iff_not_strands platform image offers clean]
      apply and_congr_right
      intro kept
      cases ends : prepare platform image offers state with
      | mk outcome after =>
          rw [ends] at ended
          cases ended with
          | succeeded succeeds settled =>
              exact iff_of_true (all_right_when_settled platform image rest settled)
                fun fails => absurd succeeds fails
          | stranded strands _ => exact absurd strands kept
          | undone unmapped cleared =>
              have fails : ¬ Succeeds platform offers := fun succeeds => unmapped succeeds.1
              rw [ih cleared]
              exact ⟨fun never _ => never, fun never => never fails⟩

end Attempts

/-- The process before its first attempt. -/
def start (memory : Memory 64) : Attempted := { process := fresh memory }

/-- Every attempt is right exactly in the sequences in which none strands its mappings. -/
theorem prepare_leaves_nothing_mapped_iff (platform : Platform) (image : Image)
    (memory : Memory 64) (all : List Offers) :
    AllRight platform image (start memory) all ↔ NeverStrands platform all := by
  apply all_right_iff_never_strands
  exact { unprepared := rfl, unset := rfl, unmapped := rfl }

def goodOffers : Offers where
  supported := true
  arena := some kArenaBase
  shadow := some kShadowMapBase
  install := true
  archPrctl := true

def noHandler : Offers := { goodOffers with install := false }

def someImage : Image where
  savedRsp := 0x440000
  afterCall := 0x401020
  threadAreaSlot9 := 0x440048

/-- The handler cannot be installed the first time. The mappings stay, and the
second attempt fails on them. -/
theorem failed_install_strands_the_mappings :
    let first := prepare .linux someImage noHandler (start fun _ => 0)
    let second := prepare .linux someImage goodOffers first.2
    first.1 = .error .cannotInstallHandler ∧ first.2.mapped = [shadowRange, arenaRange] ∧
      Succeeds .linux goodOffers ∧ second.1 = .error (.cannotMapArena 13 kArenaBase) ∧
      ¬ AllRight .linux someImage (start fun _ => 0) [noHandler, goodOffers] := by
  intro first second
  have strands : Strands .linux noHandler :=
    ⟨⟨rfl, rfl, rfl⟩, fun later => Bool.false_ne_true later.1⟩
  have wrong : ¬ AllRight .linux someImage (start fun _ => 0) [noHandler, goodOffers] := by
    intro right
    have clean : Clean (start fun _ => 0) := { unprepared := rfl, unset := rfl, unmapped := rfl }
    exact (right_iff_not_strands .linux someImage noHandler clean).mp right.1 strands
  exact ⟨rfl, rfl, ⟨⟨rfl, rfl, rfl⟩, rfl, Or.inr rfl⟩, rfl, wrong⟩

end SdcProbe.ArenaMapping
