import SdcProbe.BranchTargets
import SdcProbe.PageOffsets

/-!
# The generator

`main` of `gen_rbx_payload.py` from its tables to the text it writes: the entry,
the closure, the layout and the emission, each of which can stop it with a message.
The counts it prints at the end are left out.
-/

namespace SdcProbe.Generator

open CNumeral Disassembly SymbolTable CallGraph ClosureInvariant AssemblerText References Layout
open Emission FunctionTable PageOffsets

set_option autoImplicit false

/-- What the generator has when it writes its output. -/
structure Payload where
  entry : Symbol
  closure : Closure
  order : List Placed
  functions : List Item

def generate (binary : Binary) (fuel : Nat) : Option (Except Text Payload) :=
  match entryOf binary with
  | .error message => some (.error message)
  | .ok entry =>
      (closure binary entry fuel).bind fun
        | .error message => some (.error message)
        | .ok reached =>
            (layout reached.chosen fuel).map fun order =>
              match emission binary reached order with
              | .error message => .error message
              | .ok functions =>
                  .ok { entry := entry, closure := reached, order := order, functions := functions }

section Output

variable (hand : HandWritten) (payload : Payload)

/-- The text section. -/
def Payload.text : List Item :=
  frontItems hand payload.closure payload.entry ++ payload.functions

/-- The functions with their places in the section. -/
def Payload.laid : List (Placed × Nat) :=
  starts (functionsStart hand payload.closure payload.entry) payload.order

/-- `sdc_rbx_functions` -/
def Payload.table (places : Label → Nat) : List Row :=
  functionTable places payload.closure payload.order

end Output

theorem loaded_of_defined {text : List Item} {label : Label} {start : Nat} (base : Nat)
    (defined : definedAt label 0 text = some start) : loadedAt base text label = base + start := by
  rw [loadedAt, defined, Option.getD_some]

/-- What is known of an output. -/
structure Generated (hand : HandWritten) (binary : Binary) (payload : Payload) : Prop where
  listed : payload.entry ∈ functions binary
  closed : Closed binary payload.entry payload.closure
  perm : (payload.order.map Placed.body).Perm payload.closure.chosen
  aligned : Aligned 0 payload.order
  written : ∃ reads, emitFunctions binary payload.closure 0 payload.order =
    .ok (payload.functions, reads)
  tiled : ∀ placed ∈ payload.order, EndsExactly placed.body
  emitted : ∀ placed start, (placed, start) ∈ payload.laid hand →
    EmittedAt binary payload.closure (functionsStart hand payload.closure payload.entry)
      payload.functions placed start

section Steps

variable {binary : Binary} {payload : Payload} {fuel : Nat}

theorem generate_ok (generated : generate binary fuel = some (.ok payload)) :
    entryOf binary = .ok payload.entry ∧
      closure binary payload.entry fuel = some (.ok payload.closure) ∧
      layout payload.closure.chosen fuel = some payload.order ∧
      emission binary payload.closure payload.order = .ok payload.functions := by
  unfold generate at generated
  cases found : entryOf binary with
  | error message =>
      rw [found] at generated
      cases generated
  | ok entry =>
      rw [found] at generated
      obtain ⟨searched, closes, rest⟩ := Option.bind_eq_some_iff.mp generated
      cases searched with
      | error message => cases rest
      | ok result =>
          obtain ⟨order, lays, ended⟩ := Option.map_eq_some_iff.mp rest
          cases emits : emission binary result order with
          | error message =>
              rw [emits] at ended
              cases ended
          | ok functions =>
              rw [emits] at ended
              cases ended
              exact ⟨rfl, closes, lays, emits⟩

theorem layout_ok {chosen : List Body} {order : List Placed}
    (lays : layout chosen fuel = some order) :
    (order.map Placed.body).Perm chosen ∧ Aligned 0 order := by
  have begins : Laid chosen { remaining := chosen.insertionSort Earlier } :=
    { cursor := rfl
      aligned := trivial
      parts := List.perm_insertionSort Earlier chosen }
  exact FuelLoop.run_all layTrip (Laid chosen) _ lay_trip_keeps fuel _ order begins lays

theorem generated_of_ok (hand : HandWritten) (generated : generate binary fuel = some (.ok payload))
    (exact : ∀ body ∈ payload.closure.chosen, EndsExactly body) :
    Generated hand binary payload := by
  obtain ⟨found, closes, lays, emits⟩ := generate_ok generated
  have listed := entry_listed found
  have closed := BranchTargets.closure_closed listed closes
  obtain ⟨perm, aligned⟩ := layout_ok lays
  obtain ⟨reads, written⟩ := emission_ok emits
  have addrs : (payload.order.map (·.body.function.addr)).Perm
      (payload.closure.chosen.map (·.function.addr)) := by
    have mapped := perm.map (·.function.addr)
    rwa [List.map_map] at mapped
  have distinct : (payload.order.map (·.body.function.addr)).Nodup := by
    rw [addrs.nodup_iff, ← addrs_of_functions]
    exact closed.distinct
  have tiled : ∀ placed ∈ payload.order, EndsExactly placed.body :=
    fun placed member => exact _ (perm.mem_iff.mp (List.mem_map_of_mem member))
  have known : ∀ placed ∈ payload.order,
      placed.body.function.addr ∈ chosenAddrs payload.closure := by
    intro placed member
    rw [mem_chosen_addrs]
    exact addrs.mem_iff.mp (List.mem_map_of_mem member)
  constructor
  · exact listed
  · exact closed
  · exact perm
  · exact aligned
  · exact ⟨reads, written⟩
  · exact tiled
  · intro placed start member
    exact emit_functions_at tiled known distinct written member

end Steps

section Places

variable {hand : HandWritten} {binary : Binary} {payload : Payload}

theorem laid_bound (generated : Generated hand binary payload) {placed : Placed} {start : Nat}
    (member : (placed, start) ∈ payload.laid hand) :
    functionsStart hand payload.closure payload.entry ≤ start ∧
      start + placed.body.function.size ≤ behind 0 (payload.text hand) := by
  obtain ⟨reads, written⟩ := generated.written
  have size := emit_functions_size generated.tiled written
    (functionsStart hand payload.closure payload.entry)
  have bounds := le_starts member
  rw [Payload.text, behind_append, ← functionsStart, size]
  exact bounds

theorem fn_defined (generated : Generated hand binary payload) {placed : Placed} {start : Nat}
    (member : (placed, start) ∈ payload.laid hand) :
    definedAt (fnLabel payload.closure placed.body.function.addr) 0 (payload.text hand) =
      some start :=
  (transplanted_of_emitted hand payload.closure payload.entry
    (generated.tiled placed (mem_of_starts member)) (generated.emitted placed start member)).label

end Places

/-! A binary with each kind of instruction: `hash()` reads the thread pointer and
calls `emit_i16`, which calls a report function that is not copied. -/

section Sample

def sampleHash : Symbol :=
  ⟨0x1000, 25, "t".toList, "hash".toList,
    "(anonymous namespace)::hash(std::vector<Chunk> const&)".toList⟩

def sampleEmit : Symbol := ⟨0x2000, 6, "t".toList, "emit".toList, "emit_i16<State>(short)".toList⟩

def sampleReport : Symbol := ⟨0x3000, 1, "T".toList, "report".toList, "report".toList⟩

theorem some_bytes {first : Byte} {rest : List Byte} : first :: rest ≠ [] := List.cons_ne_nil _ _

def sampleRead : Line :=
  { raw := tlsReadFs, text := "mov %fs:0x0,%rax".toList, some_byte := some_bytes, addr := 0x1000 }

def slotBytes : List Byte := [0x48, 0x8b, 0x80, 0xb8, 0xff, 0xff, 0xff]

theorem slot_some_byte : slotBytes ≠ [] := some_bytes

def sampleSlot : Line :=
  { raw := slotBytes
    text := "mov -0x48(%rax),%rax".toList
    some_byte := slot_some_byte
    addr := 0x100c }

def sampleCall : Line :=
  { raw := [0xe8, 0xe8, 0x0f, 0x00, 0x00]
    text := "call 2000 <emit>".toList
    some_byte := some_bytes
    addr := 0x1013 }

def sampleRet : Line :=
  { raw := [0xc3], text := "ret".toList, some_byte := ret_some_byte, addr := 0x1018 }

def sampleReports : Line :=
  { raw := [0xe8, 0xfb, 0x0f, 0x00, 0x00]
    text := "call 3000 <report>".toList
    some_byte := some_bytes
    addr := 0x2000 }

def sampleBack : Line :=
  { raw := [0xc3], text := "ret".toList, some_byte := ret_some_byte, addr := 0x2005 }

def sample : Binary where
  path := "repro".toList
  symbols := [sampleHash, sampleEmit, sampleReport]
  unitNames := ["hash".toList, "emit".toList]
  insns := fun addr =>
    ([sampleRead, sampleSlot, sampleCall, sampleRet, sampleReports, sampleBack].find?
      (·.addr = addr)).map (·.toInsn)

def sampleHashPlaced : Placed :=
  ⟨⟨sampleHash, [sampleRead, sampleSlot, sampleCall, sampleRet]⟩, 0⟩

def sampleEmitPlaced : Placed := ⟨⟨sampleEmit, [sampleReports, sampleBack]⟩, 4071⟩

def samplePayload : Payload where
  entry := sampleHash
  closure :=
    { chosen := [sampleHashPlaced.body, sampleEmitPlaced.body]
      traps := [(0x3000, "report".toList)] }
  order := [sampleHashPlaced, sampleEmitPlaced]
  functions :=
    [.label (.fn 0), .bytes tlsReadGs, .bytes [0x48, 0x8b, 0x80, 0xb8, 0xff, 0xff, 0xff],
      .bytes [0xe8], .long { label := .fn 1 } 4, .bytes [0xc3], .skip 4071, .label .emitI16,
      .label (.fn 1), .bytes [0xe8], .long { label := .trap 0 } 4, .bytes [0xc3],
      .label .emitI16End]

theorem sample_laid :
    samplePayload.laid noCode = [(sampleHashPlaced, 0x1000), (sampleEmitPlaced, 0x2000)] := rfl

theorem sample_generated : generate sample 20 = some (.ok samplePayload) := by
  rfl

theorem sample_exact : ∀ body ∈ samplePayload.closure.chosen, EndsExactly body := by
  intro body member
  rw [samplePayload, List.mem_cons, List.mem_singleton] at member
  cases member with
  | inl first =>
      rw [first]
      exact ⟨rfl, rfl, rfl, rfl, rfl⟩
  | inr second =>
      rw [second]
      exact ⟨rfl, rfl, rfl⟩

end Sample

section Outlined

open ClosureExactness BranchTargets

def outlinedPayload : Payload where
  entry := outlinedHash
  closure := outlinedClosure
  order := [⟨⟨outlinedHash, outlinedLines⟩, 0⟩, ⟨⟨outlinedCold, [outlinedBack]⟩, 4071⟩]
  functions :=
    [.label (.fn 0), .bytes tlsReadGs, .bytes [0x48, 0x8b, 0x80, 0xb8, 0xff, 0xff, 0xff],
      .bytes [0xe9], .long { label := .fn 1 } 4, .bytes [0xc3], .skip 4071, .label (.fn 1),
      .bytes [0xe9], .long { label := .trap 0 } 4]

/-- The jump back from the block that was moved out goes to a trap stub. -/
theorem jump_back_is_trapped :
    generate outlined 20 = some (.ok outlinedPayload) ∧
      outlinedHash.Covers 0x1018 ∧ Leaves outlined outlinedCold 0x1018 ∧
      codeRef outlined outlinedClosure 0x1018 = some { label := .trap 0 } ∧
      ¬ BranchesLand outlined outlinedClosure := by
  have generated : generate outlined 20 = some (.ok outlinedPayload) := rfl
  have covers : outlinedHash.Covers 0x1018 := by decide
  have leaves : Leaves outlined outlinedCold 0x1018 := ⟨_, outlined_cold_lines, outlinedBack,
    List.mem_singleton_self _, ⟨0x1018, "hash+0x18".toList⟩, by decide, rfl⟩
  have trapped : codeRef outlined outlinedClosure 0x1018 = some { label := .trap 0 } := by decide
  have misses : ¬ BranchesLand outlined outlinedClosure := by
    intro landing
    have caller : outlinedCold ∈ functionsOf outlinedClosure.chosen := by decide
    have callee : outlinedHash ∈ functionsOf outlinedClosure.chosen := by decide
    exact landing.trap outlinedCold caller 0x1018 leaves 0 trapped ⟨outlinedHash, callee, covers⟩
  exact ⟨generated, covers, leaves, trapped, misses⟩

end Outlined

section Zeroed

/-- `hash()` reads behind the start of a data object of 16 bytes. -/
def readingHash : Symbol :=
  ⟨0x1000, 27, "t".toList, "hash".toList,
    "(anonymous namespace)::hash(std::vector<Chunk> const&)".toList⟩

def tableObject : Symbol := ⟨0x4000, 16, "D".toList, "table".toList, "table".toList⟩

def loadBytes : List Byte := [0x48, 0x8b, 0x05, 0xee, 0x2f, 0x00, 0x00]

theorem load_some_byte : loadBytes ≠ [] := some_bytes

def tableLoad : Line :=
  { raw := loadBytes
    text := "mov    0x2fee(%rip),%rax        # 4008 <table+0x8>".toList
    some_byte := load_some_byte
    addr := 0x1013 }

def readingRet : Line :=
  { raw := [0xc3], text := "ret".toList, some_byte := ret_some_byte, addr := 0x101a }

def readingLines : List Line := [sampleRead, sampleSlot, tableLoad, readingRet]

def oneObject : Binary where
  path := "repro".toList
  symbols := [readingHash, tableObject]
  unitNames := ["hash".toList]
  insns := fun addr => (readingLines.find? (·.addr = addr)).map (·.toInsn)

def zeroedPayload : Payload where
  entry := readingHash
  closure := { chosen := [⟨readingHash, readingLines⟩], traps := [] }
  order := [⟨⟨readingHash, readingLines⟩, 0⟩]
  functions :=
    [.label (.fn 0), .bytes tlsReadGs, .bytes [0x48, 0x8b, 0x80, 0xb8, 0xff, 0xff, 0xff],
      .bytes [0x48, 0x8b, 0x05], .long { label := .dummy } 4, .bytes [0xc3]]

/-- An offset behind the name is enough to get the block of zeroes. -/
theorem offset_into_object_is_zeroed :
    generate oneObject 20 = some (.ok zeroedPayload) ∧
      riprelOf tableLoad.text = some ⟨0x4008, "table+0x8".toList⟩ ∧
      dataRef oneObject 0x4008 "table+0x8".toList = .ok { label := .dummy } ∧
      ¬ Guarded oneObject 0x4008 "table+0x8".toList := by
  have zeroed : dataRef oneObject 0x4008 "table+0x8".toList = .ok { label := .dummy } := by decide
  refine ⟨rfl, by decide, zeroed, ?_⟩
  intro guarded
  have object := guarded tableObject (by decide) (by decide)
  obtain ⟨message, stops⟩ := object.1 (by decide) (by decide)
  rw [zeroed] at stops
  cases stops

end Zeroed

end SdcProbe.Generator
