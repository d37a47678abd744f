import SdcProbe.Layout
import SdcProbe.References
import SdcProbe.Relocation

/-!
# The emission

The emission loop: the lines of a function one by one, each as the bytes it had,
with a displacement written anew or with another read of the thread pointer.
-/

namespace SdcProbe.Emission

open CNumeral Disassembly SymbolTable CallGraph AssemblerText Relocation References Layout

set_option autoImplicit false

def tlsReadFs : List Byte :=
  [0x66, 0x66, 0x66, 0x64, 0x48, 0x8b, 0x04, 0x25, 0x00, 0x00, 0x00, 0x00]
def tlsReadGs : List Byte :=
  [0x66, 0x66, 0x66, 0x65, 0x48, 0x8b, 0x04, 0x25, 0x28, 0x00, 0x00, 0x00]
def tlsSlotDisp : List Byte := [0xb8, 0xff, 0xff, 0xff]

def unresolvedBranch (target addr : Nat) : Text :=
  "unresolved branch target ".toList ++ hexText target ++ " at ".toList ++ hexText addr

def unexpectedInstruction (addr : Nat) : Text :=
  "unexpected instruction after the thread pointer read at ".toList ++ hexText addr

def noThreadPointerRead : Text :=
  "no thread pointer read found: this runtime is laid out differently".toList

section Lines

variable (binary : Binary) (closure : Closure) (f : Symbol)

def emitBranch (line : Line) (branch : Place) : Except Text (List Item) :=
  if f.Covers branch.target then .ok [.bytes line.raw]
  else
    match codeRef binary closure branch.target with
    | none => .error (unresolvedBranch branch.target line.addr)
    | some symbol => emitRel32 line.raw line.addr branch.target symbol

/-- `code_ref(target) or data_ref(target, shown)` -/
def operandRef (riprel : Place) : Except Text Ref :=
  match codeRef binary closure riprel.target with
  | some symbol => .ok symbol
  | none => dataRef binary riprel.target riprel.shown

def emitRiprel (line : Line) (riprel : Place) : Except Text (List Item) :=
  if f.Covers riprel.target then .ok [.bytes line.raw]
  else
    match operandRef binary closure riprel with
    | .error message => .error message
    | .ok symbol => emitRel32 line.raw line.addr riprel.target symbol

def emitOperand (line : Line) : Except Text (List Item) :=
  match matchBranch line.text with
  | some branch => emitBranch binary closure f line branch
  | none =>
      match riprelOf line.text with
      | some riprel => emitRiprel binary closure f line riprel
      | none => .ok [.bytes line.raw]

/-- The locals `expect_tls_slot` and `tls_reads`. -/
structure Reading where
  expectTlsSlot : Bool := false
  tlsReads : Nat

def emitLine (reading : Reading) (line : Line) : Except Text (List Item × Reading) :=
  if line.raw = tlsReadFs then
    .ok ([.bytes tlsReadGs], { expectTlsSlot := true, tlsReads := reading.tlsReads + 1 })
  else if reading.expectTlsSlot ∧ ¬ tlsSlotDisp <:+ line.raw then
    .error (unexpectedInstruction line.addr)
  else
    match emitOperand binary closure f line with
    | .error message => .error message
    | .ok items => .ok (items, { reading with expectTlsSlot := false })

def emitLines (reading : Reading) : List Line → Except Text (List Item × Reading)
  | [] => .ok ([], reading)
  | line :: rest =>
      match emitLine binary closure f reading line with
      | .error message => .error message
      | .ok (items, next) =>
          match emitLines next rest with
          | .error message => .error message
          | .ok (more, last) => .ok (items ++ more, last)

end Lines

section Functions

variable (binary : Binary) (closure : Closure)

def isEmitI16 (f : Symbol) : Prop := "emit_i16<".toList <:+: f.demangled

instance (f : Symbol) : Decidable (isEmitI16 f) := inferInstanceAs (Decidable (_ <:+: _))

def emitFunction (placed : Placed) (tlsReads : Nat) : Except Text (List Item × Nat) :=
  let f := placed.body.function
  match emitLines binary closure f { tlsReads := tlsReads } placed.body.lines with
  | .error message => .error message
  | .ok (items, reading) =>
      .ok
        ((if placed.pad ≠ 0 then [.skip placed.pad] else []) ++
          (if isEmitI16 f then [.label .emitI16] else []) ++ .label (fnLabel closure f.addr) ::
            items ++ if isEmitI16 f then [.label .emitI16End] else [],
          reading.tlsReads)

def emitFunctions (tlsReads : Nat) : List Placed → Except Text (List Item × Nat)
  | [] => .ok ([], tlsReads)
  | placed :: rest =>
      match emitFunction binary closure placed tlsReads with
      | .error message => .error message
      | .ok (items, reads) =>
          match emitFunctions reads rest with
          | .error message => .error message
          | .ok (more, last) => .ok (items ++ more, last)

/-- Without a read of the thread pointer the generator stops. -/
def emission (order : List Placed) : Except Text (List Item) :=
  match emitFunctions binary closure 0 order with
  | .error message => .error message
  | .ok (items, tlsReads) => if tlsReads = 0 then .error noThreadPointerRead else .ok items

end Functions

/-! What is emitted for a line is as long as the line. -/

section Lengths

variable {binary : Binary} {closure : Closure} {f : Symbol}

/-- The bytes of some lines. -/
def codeLength (lines : List Line) : Nat := (lines.map (·.raw.length)).sum

theorem emit_branch_spans {line : Line} {branch : Place} {items : List Item}
    (emitted : emitBranch binary closure f line branch = .ok items) :
    Spans items line.raw.length := by
  unfold emitBranch at emitted
  split_ifs at emitted
  · cases emitted
    exact spans_bytes line.raw
  · split at emitted
    · cases emitted
    · exact emit_rel32_spans emitted

theorem emit_riprel_spans {line : Line} {riprel : Place} {items : List Item}
    (emitted : emitRiprel binary closure f line riprel = .ok items) :
    Spans items line.raw.length := by
  unfold emitRiprel at emitted
  split_ifs at emitted
  · cases emitted
    exact spans_bytes line.raw
  · split at emitted
    · cases emitted
    · exact emit_rel32_spans emitted

theorem emit_operand_spans {line : Line} {items : List Item}
    (emitted : emitOperand binary closure f line = .ok items) : Spans items line.raw.length := by
  unfold emitOperand at emitted
  split at emitted
  · exact emit_branch_spans emitted
  · split at emitted
    · exact emit_riprel_spans emitted
    · cases emitted
      exact spans_bytes line.raw

theorem emit_line_spans {reading next : Reading} {line : Line} {items : List Item}
    (emitted : emitLine binary closure f reading line = .ok (items, next)) :
    Spans items line.raw.length := by
  unfold emitLine at emitted
  split_ifs at emitted with tlsRead
  · cases emitted
    rw [tlsRead]
    exact spans_bytes tlsReadGs
  · split at emitted
    · cases emitted
    · next operand =>
        cases emitted
        exact emit_operand_spans operand

theorem emit_lines_cons_iff (reading last : Reading) (line : Line) (rest : List Line)
    (all : List Item) :
    emitLines binary closure f reading (line :: rest) = .ok (all, last) ↔
      ∃ items next more, emitLine binary closure f reading line = .ok (items, next) ∧
        emitLines binary closure f next rest = .ok (more, last) ∧ all = items ++ more := by
  rw [emitLines]
  constructor
  · intro emitted
    split at emitted
    · cases emitted
    · next items next first =>
        split at emitted
        · cases emitted
        · next more last others =>
            cases emitted
            exact ⟨items, next, more, first, others, rfl⟩
  · rintro ⟨items, next, more, first, others, rfl⟩
    rw [first]
    dsimp only
    rw [others]

theorem emit_lines_spans {reading last : Reading} {lines : List Line} {items : List Item}
    (emitted : emitLines binary closure f reading lines = .ok (items, last)) :
    Spans items (codeLength lines) := by
  induction lines generalizing reading items with
  | nil =>
      cases emitted
      exact spans_nil
  | cons line rest ih =>
      obtain ⟨first, next, more, one, others, rfl⟩ :=
        (emit_lines_cons_iff reading last line rest items).mp emitted
      exact spans_append (emit_line_spans one) (ih others)

/-- A line stands as far into what is emitted as its instruction did into the lines. -/
theorem emit_lines_split {reading last : Reading} {front rear : List Line} {line : Line}
    {items : List Item}
    (emitted : emitLines binary closure f reading (front ++ line :: rear) = .ok (items, last)) :
    ∃ before here after reading next, items = before ++ here ++ after ∧
      Spans before (codeLength front) ∧ Spans here line.raw.length ∧
      emitLine binary closure f reading line = .ok (here, next) := by
  induction front generalizing reading items with
  | nil =>
      obtain ⟨here, next, more, one, _, rfl⟩ :=
        (emit_lines_cons_iff reading last line rear items).mp emitted
      exact ⟨[], here, more, reading, next, rfl, spans_nil, emit_line_spans one, one⟩
  | cons other front ih =>
      obtain ⟨first, next, more, one, others, rfl⟩ :=
        (emit_lines_cons_iff reading last other (front ++ line :: rear) items).mp emitted
      obtain ⟨before, here, after, reading, next, rfl, earlier, whole, emits⟩ := ih others
      refine ⟨first ++ before, here, after, reading, next, ?_, ?_, whole, emits⟩
      · simp only [List.append_assoc]
      · exact spans_append (emit_line_spans one) earlier

end Lengths

end SdcProbe.Emission
