import SdcProbe.Generator
import SdcProbe.InstructionShape

/-!
# The bytes of the transplanted functions

What the assembler makes of the functions in the text section: filling, and behind
it a copy of each instruction, which is the same bytes but for the read of the
thread pointer and for one field of an operand outside the function.
-/

namespace SdcProbe.TransplantedBytes

open Disassembly SymbolTable CallGraph AssemblerText Occurrences Relocation
open References Layout Emission FunctionTable PageOffsets Generator
open InstructionShape (operandField operand_field_fits)

set_option autoImplicit false

/-- The operand of a line, of a branch or relative to `rip`, if it is outside the
function. -/
def outward (f : Symbol) (line : Line) : Option Place :=
  ((matchBranch line.text).or (riprelOf line.text)).filter fun place => ¬ f.Covers place.target

/-- The field of an operand outside the function holds its displacement, and the bytes of
that do not stand once more behind it. -/
def Located (f : Symbol) (line : Line) : Prop :=
  ∀ outside, outward f line = some outside → ∃ p, operandField line.raw = some p ∧
    OccursAt (displacement outside.target (line.addr + line.raw.length)) line.raw p ∧
    ∀ later, p < later →
      ¬ OccursAt (displacement outside.target (line.addr + line.raw.length)) line.raw later

section Copies

variable (binary : Binary) (closure : Closure)

/-- What the symbol for an operand is taken from. -/
def Refers (line : Line) (outside : Place) (symbol : Ref) : Prop :=
  codeRef binary closure outside.target = some symbol ∨
    matchBranch line.text = none ∧ codeRef binary closure outside.target = none ∧
      dataRef binary outside.target outside.shown = .ok symbol

variable (places : Label → Nat)

/-- The bytes at a place are a copy of a line of the function. -/
inductive CopyOf (f : Symbol) (line : Line) (place : Nat) : List Byte → Prop where
  | verbatim (plain : line.raw ≠ tlsReadFs) (inside : outward f line = none) :
      CopyOf f line place line.raw
  | threadPointer (reads : line.raw = tlsReadFs) : CopyOf f line place tlsReadGs
  | relocated {outside : Place} {symbol : Ref} {pos : Nat} (plain : line.raw ≠ tlsReadFs)
      (leaves : outward f line = some outside) (refers : Refers binary closure line outside symbol)
      (field : operandField line.raw = some pos) :
      CopyOf f line place (line.raw.take pos ++
        displacement (symbol.address places) (place + line.raw.length) ++ line.raw.drop (pos + 4))

/-- One copy after the other. -/
inductive CopiesOf (f : Symbol) : Nat → List Line → List Byte → Prop where
  | nil {place : Nat} : CopiesOf f place [] []
  | cons {place : Nat} {line : Line} {rest : List Line} {copy more : List Byte} :
      CopyOf binary closure places f line place copy →
      CopiesOf f (place + line.raw.length) rest more →
      CopiesOf f place (line :: rest) (copy ++ more)

/-- Filling and the copy of each function, from a place on. -/
inductive SectionOf : Nat → List Placed → List Byte → Prop where
  | nil {here : Nat} : SectionOf here [] []
  | cons {here : Nat} {placed : Placed} {rest : List Placed} {code more : List Byte} :
      CopiesOf binary closure places placed.body.function (here + placed.pad) placed.body.lines
        code →
      SectionOf (here + (placed.pad + placed.body.function.size)) rest more →
      SectionOf here (placed :: rest) (List.replicate placed.pad 0xcc ++ code ++ more)

end Copies

section Emitted

variable {binary : Binary} {closure : Closure} {f : Symbol} {line : Line} {items : List Item}

theorem outward_some_iff {outside : Place} :
    outward f line = some outside ↔
      (matchBranch line.text = some outside ∨
        matchBranch line.text = none ∧ riprelOf line.text = some outside) ∧
      ¬ f.Covers outside.target := by
  rw [outward, Option.filter_eq_some_iff, decide_eq_true_eq, Option.or_eq_some_iff]

/-- What is emitted for a line. -/
inductive ItemsOf (binary : Binary) (closure : Closure) (f : Symbol) (line : Line) :
    List Item → Prop where
  | verbatim (plain : line.raw ≠ tlsReadFs) (inside : outward f line = none) :
      ItemsOf binary closure f line [.bytes line.raw]
  | threadPointer (reads : line.raw = tlsReadFs) : ItemsOf binary closure f line [.bytes tlsReadGs]
  | relocated {outside : Place} {symbol : Ref} {pos : Nat} (plain : line.raw ≠ tlsReadFs)
      (leaves : outward f line = some outside) (refers : Refers binary closure line outside symbol)
      (field : lastOccurrence (displacement outside.target (line.addr + line.raw.length)) line.raw =
        some pos)
      (once : count (displacement outside.target (line.addr + line.raw.length)) line.raw = 1) :
      ItemsOf binary closure f line (relocated line.raw pos symbol)

theorem rel32_items {outside : Place} {symbol : Ref} (plain : line.raw ≠ tlsReadFs)
    (leaves : outward f line = some outside) (refers : Refers binary closure line outside symbol)
    (emitted : emitRel32 line.raw line.addr outside.target symbol = .ok items) :
    ItemsOf binary closure f line items := by
  obtain ⟨pos, found, once, rfl⟩ := (emit_rel32_ok_iff _ _ _ symbol items).mp emitted
  exact .relocated plain leaves refers found once

theorem branch_items {branch : Place} (plain : line.raw ≠ tlsReadFs)
    (matched : matchBranch line.text = some branch)
    (emitted : emitBranch binary closure f line branch = .ok items) :
    ItemsOf binary closure f line items := by
  unfold emitBranch at emitted
  split_ifs at emitted with stays
  · cases emitted
    apply ItemsOf.verbatim plain
    rw [outward, matched, Option.some_or, Option.filter_some, if_neg (by simpa using stays)]
  · split at emitted
    · cases emitted
    · next symbol resolved =>
        have leaves : outward f line = some branch := outward_some_iff.mpr ⟨Or.inl matched, stays⟩
        exact rel32_items plain leaves (Or.inl resolved) emitted

theorem riprel_items {riprel : Place} (plain : line.raw ≠ tlsReadFs)
    (straight : matchBranch line.text = none) (matched : riprelOf line.text = some riprel)
    (emitted : emitRiprel binary closure f line riprel = .ok items) :
    ItemsOf binary closure f line items := by
  unfold emitRiprel at emitted
  split_ifs at emitted with stays
  · cases emitted
    apply ItemsOf.verbatim plain
    rw [outward, straight, matched, Option.none_or, Option.filter_some,
      if_neg (by simpa using stays)]
  · split at emitted
    · cases emitted
    · next symbol resolved =>
        have leaves : outward f line = some riprel :=
          outward_some_iff.mpr ⟨Or.inr ⟨straight, matched⟩, stays⟩
        have refers : Refers binary closure line riprel symbol := by
          unfold operandRef at resolved
          split at resolved
          · next found =>
              cases resolved
              exact Or.inl found
          · next missing => exact Or.inr ⟨straight, missing, resolved⟩
        exact rel32_items plain leaves refers emitted

theorem line_items {reading next : Reading}
    (emitted : emitLine binary closure f reading line = .ok (items, next)) :
    ItemsOf binary closure f line items := by
  unfold emitLine at emitted
  split_ifs at emitted with reads
  · cases emitted
    exact .threadPointer reads
  · split at emitted
    · cases emitted
    · next operand =>
        cases emitted
        unfold emitOperand at operand
        split at operand
        · next branch matched => exact branch_items reads matched operand
        · next straight =>
            split at operand
            · next riprel matched => exact riprel_items reads straight matched operand
            · next absolute =>
                cases operand
                apply ItemsOf.verbatim reads
                rw [outward, straight, absolute]
                rfl

theorem line_copies (places : Label → Nat) (place : Nat) (located : Located f line)
    (itemsOf : ItemsOf binary closure f line items) :
    CopyOf binary closure places f line place (assemble places place items) := by
  have plainly : ∀ raw : List Byte, assemble places place [.bytes raw] = raw :=
    fun raw => List.append_nil raw
  cases itemsOf with
  | verbatim plain inside =>
      rw [plainly]
      exact .verbatim plain inside
  | threadPointer reads =>
      rw [plainly]
      exact .threadPointer reads
  | @relocated outside symbol pos plain leaves refers last once =>
      obtain ⟨p, field, occurs, nowhere⟩ := located outside leaves
      have given := displacement_ne_nil outside.target (line.addr + line.raw.length)
      have there := (last_occurrence_iff given line.raw p).mpr ⟨occurs, nowhere⟩
      rw [last, Option.some.injEq] at there
      rw [there, relocated_rewrites line.raw p symbol (operand_field_fits field) places place]
      exact .relocated plain leaves refers field

theorem lines_copies {reading last : Reading} {lines : List Line} (places : Label → Nat)
    (place : Nat) (located : ∀ line ∈ lines, Located f line)
    (emitted : emitLines binary closure f reading lines = .ok (items, last)) :
    CopiesOf binary closure places f place lines (assemble places place items) := by
  induction lines generalizing reading place items with
  | nil =>
      cases emitted
      exact .nil
  | cons line rest ih =>
      obtain ⟨first, next, more, one, others, rfl⟩ :=
        (emit_lines_cons_iff reading last line rest items).mp emitted
      rw [assemble_append, (emit_line_spans one).behind]
      have here := located line List.mem_cons_self
      have behind := fun other member => located other (List.mem_cons_of_mem line member)
      exact .cons (line_copies places place here (line_items one)) (ih _ behind others)

/-- The labels of a function have no bytes. -/
theorem function_bytes {placed : Placed} {reads last : Nat} (places : Label → Nat) (here : Nat)
    (emitted : emitFunction binary closure placed reads = .ok (items, last)) :
    ∃ code reading, emitLines binary closure placed.body.function { tlsReads := reads }
        placed.body.lines = .ok (code, reading) ∧
      assemble places here items =
        List.replicate placed.pad 0xcc ++ assemble places (here + placed.pad) code := by
  unfold emitFunction at emitted
  dsimp only at emitted
  split at emitted
  · cases emitted
  · next code reading lines =>
      cases emitted
      refine ⟨code, reading, lines, ?_⟩
      have filling : ∀ here,
          assemble places here (if placed.pad ≠ 0 then [.skip placed.pad] else []) =
            List.replicate placed.pad 0xcc ∧
          behind here (if placed.pad ≠ 0 then [.skip placed.pad] else []) = here + placed.pad := by
        intro here
        split_ifs with some
        · exact ⟨List.append_nil _, rfl⟩
        · rw [not_not.mp some]
          exact ⟨rfl, rfl⟩
      have label : ∀ here label, assemble places here
          (if isEmitI16 placed.body.function then [.label label] else []) = [] ∧
          behind here (if isEmitI16 placed.body.function then [.label label] else []) = here := by
        intro here label
        split_ifs
        · exact ⟨rfl, rfl⟩
        · exact ⟨rfl, rfl⟩
      simp only [assemble_append, behind_append, assemble, Item.assemble, behind_cons, Item.size,
        (filling _).1, (filling _).2, (label _ _).1, (label _ _).2, List.nil_append,
        List.append_nil, Nat.add_zero]

theorem functions_bytes {order : List Placed} {reads last : Nat} (places : Label → Nat) (here : Nat)
    (tiled : ∀ placed ∈ order, EndsExactly placed.body)
    (located : ∀ placed ∈ order, ∀ line ∈ placed.body.lines, Located placed.body.function line)
    (emitted : emitFunctions binary closure reads order = .ok (items, last)) :
    SectionOf binary closure places here order (assemble places here items) := by
  induction order generalizing reads here items with
  | nil =>
      cases emitted
      exact .nil
  | cons placed rest ih =>
      obtain ⟨first, next, more, one, others, rfl⟩ :=
        (emit_functions_cons_iff reads last placed rest items).mp emitted
      obtain ⟨code, reading, lines, bytes⟩ := function_bytes places here one
      rw [assemble_append, emit_function_size (tiled placed List.mem_cons_self) one, bytes]
      exact .cons (lines_copies places _ (located placed List.mem_cons_self) lines)
        (ih _ (fun other member => tiled other (List.mem_cons_of_mem _ member))
          (fun other member => located other (List.mem_cons_of_mem _ member)) others)

end Emitted

section Slices

variable {binary : Binary} {closure : Closure} {places : Label → Nat} {f : Symbol}

theorem slice_of_append {α : Type} (front here rear : List α) :
    ((front ++ here ++ rear).drop front.length).take here.length = here := by
  rw [List.append_assoc, List.drop_left, List.take_left]

theorem copy_length {line : Line} {place : Nat} {copy : List Byte}
    (copied : CopyOf binary closure places f line place copy) : copy.length = line.raw.length := by
  cases copied with
  | verbatim _ _ => rfl
  | threadPointer reads => rw [reads]; rfl
  | relocated _ _ _ field =>
      have fits := operand_field_fits field
      rw [List.length_append, List.length_append, List.length_take, displacement_length,
        List.length_drop]
      omega

theorem copies_length {lines : List Line} {place : Nat} {code : List Byte}
    (copies : CopiesOf binary closure places f place lines code) :
    code.length = codeLength lines := by
  induction copies with
  | nil => rfl
  | cons copied _ ih =>
      rw [List.length_append, copy_length copied, ih, codeLength, codeLength, List.map_cons,
        List.sum_cons]

/-- The copy of one of the lines stands as far into the code as the line did. -/
theorem copies_slice {lines : List Line} {place : Nat} {code : List Byte}
    (copies : CopiesOf binary closure places f place lines code) {before after : List Line}
    {line : Line} (split : lines = before ++ line :: after) :
    ∃ early copy late, code = early ++ copy ++ late ∧ early.length = codeLength before ∧
      CopyOf binary closure places f line (place + codeLength before) copy := by
  induction copies generalizing before with
  | nil => simp at split
  | @cons place first rest copy more copied others ih =>
      cases before with
      | nil =>
          cases split
          exact ⟨[], copy, more, rfl, rfl, copied⟩
      | cons other before =>
          rw [List.cons_append, List.cons.injEq] at split
          obtain ⟨rfl, rfl⟩ := split
          obtain ⟨early, here, late, rfl, length, found⟩ := ih rfl
          rw [Nat.add_assoc] at found
          refine ⟨copy ++ early, here, late, ?_, ?_, ?_⟩
          · simp only [List.append_assoc]
          · rw [List.length_append, copy_length copied, length, codeLength, codeLength,
              List.map_cons, List.sum_cons]
          · rwa [codeLength, List.map_cons, List.sum_cons]

/-- The code of one of the functions stands where the layout has it. -/
theorem section_slice {order : List Placed} {here : Nat} {bytes : List Byte}
    (written : SectionOf binary closure places here order bytes)
    (tiled : ∀ placed ∈ order, EndsExactly placed.body) {placed : Placed} {start : Nat}
    (member : (placed, start) ∈ starts here order) :
    ∃ early code late, bytes = early ++ code ++ late ∧ here + early.length = start ∧
      CopiesOf binary closure places placed.body.function start placed.body.lines code := by
  induction written with
  | nil => cases member
  | @cons here first rest code more copies others ih =>
      cases List.mem_cons.mp member with
      | inl this =>
          cases this
          refine ⟨_, code, more, rfl, ?_, copies⟩
          rw [List.length_replicate]
      | inr later =>
          have whole := code_length_eq (tiled first List.mem_cons_self)
          obtain ⟨early, found, late, rfl, length, copied⟩ :=
            ih (fun other inside => tiled other (List.mem_cons_of_mem _ inside)) later
          refine ⟨List.replicate first.pad 0xcc ++ code ++ early, found, late, ?_, ?_, copied⟩
          · simp only [List.append_assoc]
          · rw [List.length_append, List.length_append, List.length_replicate,
              copies_length copies, whole]
            omega

end Slices

section Payload

variable {hand : HandWritten} {binary : Binary} {payload : Payload}

/-- Every operand outside its function is where the generator finds it. -/
def AllLocated (payload : Payload) : Prop :=
  ∀ body ∈ payload.closure.chosen, ∀ line ∈ body.lines, Located body.function line

theorem front_length (hand : HandWritten) (payload : Payload) (places : Label → Nat) :
    (assemble places 0 (frontItems hand payload.closure payload.entry)).length =
      functionsStart hand payload.closure payload.entry := by
  have whole := assemble_length places 0 (frontItems hand payload.closure payload.entry)
  rwa [Nat.zero_add] at whole

theorem section_written (generated : Generated hand binary payload)
    (located : AllLocated payload) (places : Label → Nat) :
    SectionOf binary payload.closure places (functionsStart hand payload.closure payload.entry)
      payload.order ((assemble places 0 (payload.text hand)).drop
        (functionsStart hand payload.closure payload.entry)) := by
  obtain ⟨reads, written⟩ := generated.written
  rw [Payload.text, assemble_append, ← front_length hand payload places,
    List.drop_left, front_length]
  apply functions_bytes places _ generated.tiled _ written
  intro placed member
  exact located placed.body (generated.perm.mem_iff.mp (List.mem_map_of_mem member))

/-- A line is copied to where it was in its function. -/
theorem line_copied (generated : Generated hand binary payload)
    (located : AllLocated payload) (places : Label → Nat)
    {placed : Placed} {start : Nat} (member : (placed, start) ∈ payload.laid hand) {line : Line}
    (inside : line ∈ placed.body.lines) :
    CopyOf binary payload.closure places placed.body.function line
      (start + (line.addr - placed.body.function.addr))
      (((assemble places 0 (payload.text hand)).drop
        (start + (line.addr - placed.body.function.addr))).take line.raw.length) := by
  have tiled := generated.tiled placed (mem_of_starts member)
  obtain ⟨before, after, split⟩ := List.append_of_mem inside
  obtain ⟨early, code, late, bytes, length, copies⟩ :=
    section_slice (section_written generated located places) generated.tiled member
  obtain ⟨first, copy, last, rfl, far, copied⟩ := copies_slice copies split
  unfold EndsExactly at tiled
  rw [split] at tiled
  have away : line.addr - placed.body.function.addr = codeLength before := by
    rw [tiles_split tiled, Nat.add_sub_cancel_left]
  have place : start + (line.addr - placed.body.function.addr) =
      functionsStart hand payload.closure payload.entry + (early ++ first).length := by
    rw [List.length_append]
    omega
  have whole : early ++ (first ++ copy ++ last) ++ late =
      early ++ first ++ copy ++ (last ++ late) := by
    simp only [List.append_assoc]
  rw [place, ← List.drop_drop, bytes, whole, ← copy_length copied, slice_of_append, ← place, away]
  exact copied

end Payload

/-- Behind the hand-written code the section has every function of the closure once,
filling and then a copy of each of its instructions. The copy stands as far into the
function as the instruction did, and other than in the read of the thread pointer and
in the field of an operand outside the function it is the instruction's bytes. -/
theorem transplanted_bytes (hand : HandWritten) (binary : Binary) (fuel : Nat) (payload : Payload)
    (places : Label → Nat) (generated : generate binary fuel = some (.ok payload))
    (exact : ∀ body ∈ payload.closure.chosen, EndsExactly body) (located : AllLocated payload) :
    let front := functionsStart hand payload.closure payload.entry
    let bytes := assemble places 0 (payload.text hand)
    (payload.order.map Placed.body).Perm payload.closure.chosen ∧
      SectionOf binary payload.closure places front payload.order (bytes.drop front) ∧
      ∀ placed start, (placed, start) ∈ payload.laid hand → ∀ line ∈ placed.body.lines,
        let place := start + (line.addr - placed.body.function.addr)
        CopyOf binary payload.closure places placed.body.function line place
          ((bytes.drop place).take line.raw.length) := by
  have known := generated_of_ok hand generated exact
  intro front bytes
  constructor
  · exact known.perm
  · constructor
    · exact section_written known located places
    · intro placed start member line inside
      exact line_copied known located places member inside

/-- Nothing stands behind a field at the end of its instruction. -/
theorem located_at_end {f : Symbol} {line : Line} {p : Nat}
    (field : operandField line.raw = some p) (ends : p + 4 = line.raw.length)
    (holds : ∀ outside, outward f line = some outside →
      line.raw.drop p = displacement outside.target (line.addr + line.raw.length)) :
    Located f line := by
  intro outside leaves
  have given := displacement_ne_nil outside.target (line.addr + line.raw.length)
  refine ⟨p, field, ?_, ?_⟩
  · rw [OccursAt, holds outside leaves]
  · intro later behind occurs
    have fits := occurs_at_fits given occurs
    rw [displacement_length] at fits
    omega

theorem sample_located : AllLocated samplePayload := by
  intro body chosen line inside outside leaves
  have calls : ∀ body ∈ samplePayload.closure.chosen, ∀ line ∈ body.lines,
      ∀ outside ∈ outward body.function line, operandField line.raw = some 1 ∧
        1 + 4 = line.raw.length ∧
        line.raw.drop 1 = displacement outside.target (line.addr + line.raw.length) := by
    decide
  obtain ⟨field, ends, _⟩ := calls body chosen line inside outside leaves
  apply located_at_end field ends _ outside leaves
  intro other also
  exact (calls body chosen line inside other also).2.2

theorem transplanted_bytes_sample : ∃ copy,
    CopyOf sample samplePayload.closure (fun _ => 0) sampleEmit sampleReports 0x2000 copy := by
  have copies := transplanted_bytes noCode sample 20 samplePayload (fun _ => 0) sample_generated
    sample_exact sample_located
  have member : (sampleEmitPlaced, 0x2000) ∈ samplePayload.laid noCode := by
    rw [sample_laid]
    exact List.mem_cons_of_mem _ (List.mem_singleton_self _)
  exact ⟨_, copies.2.2 sampleEmitPlaced 0x2000 member sampleReports List.mem_cons_self⟩

end SdcProbe.TransplantedBytes
