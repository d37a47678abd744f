import SdcProbe.AssemblerText
import SdcProbe.Occurrences

/-!
# Relocation of an instruction

`emit_rel32` finds the displacement of an instruction by its bytes: the last
place where they stand, unless a count from the left sees them more than once.
-/

namespace SdcProbe.Relocation

open CNumeral Disassembly AssemblerText Occurrences

set_option autoImplicit false

/-- `raw.hex()` -/
def rawHex (raw : List Byte) : Text :=
  raw.flatMap fun byte => [Nat.digitChar (byte.toNat / 16), Nat.digitChar (byte.toNat % 16)]

def cannotLocate (raw : List Byte) (addr : Nat) : Text :=
  "cannot locate rel32 in ".toList ++ rawHex raw ++ " at ".toList ++ hexText addr

/-- What is written where the displacement is taken to stand at `pos`. -/
def relocated (raw : List Byte) (pos : Nat) (symbol : Ref) : List Item :=
  let tail := raw.length - pos
  [.bytes (raw.take pos), .long symbol tail] ++
    if tail > 4 then [.bytes (raw.drop (pos + 4))] else []

def emitRel32 (raw : List Byte) (addr target : Nat) (symbol : Ref) : Except Text (List Item) :=
  let pattern := displacement target (addr + raw.length)
  match lastOccurrence pattern raw with
  | none => .error (cannotLocate raw addr)
  | some pos =>
      if count pattern raw ≠ 1 then .error (cannotLocate raw addr)
      else .ok (relocated raw pos symbol)

/-- Assembled anywhere, the same bytes but for the field at `p`, and that refers
to the symbol from there. -/
def Rewritten (raw : List Byte) (p : Nat) (symbol : Ref) (items : List Item) : Prop :=
  ∀ places here, assemble places here items =
    raw.take p ++ displacement (symbol.address places) (here + raw.length) ++ raw.drop (p + 4)

section Spec

theorem displacement_ne_nil (target next : Int) : displacement target next ≠ [] := by
  intro empty
  have four := displacement_length target next
  rw [empty] at four
  cases four

theorem displacement_first (target next : Int) :
    (displacement target next)[0]? = some ((BitVec.ofInt 32 (target - next)).setWidth 8) := rfl

theorem displacement_first_moves (target next : Int) :
    (displacement (target + 1) next)[0]? ≠ (displacement target next)[0]? := by
  have moved : BitVec.ofInt 32 (target + 1 - next) = BitVec.ofInt 32 (target - next) + 1 := by
    rw [show target + 1 - next = target - next + 1 by omega, BitVec.ofInt_add]
    rfl
  rw [displacement_first, displacement_first, moved, Ne, Option.some.injEq,
    BitVec.setWidth_add _ _ (by decide)]
  bv_omega

theorem relocated_rewrites (raw : List Byte) (pos : Nat) (symbol : Ref)
    (fits : pos + 4 ≤ raw.length) : Rewritten raw pos symbol (relocated raw pos symbol) := by
  intro places here
  have front : (raw.take pos).length = pos := by rw [List.length_take]; omega
  have same : ((symbol.address places : Int) - ((here + pos : Nat) : Int)) -
      ((raw.length - pos : Nat) : Int) =
        (symbol.address places : Int) - ((here : Int) + (raw.length : Int)) := by
    omega
  have field : displacement ((symbol.address places : Int) - ((here + pos : Nat) : Int))
      ((raw.length - pos : Nat) : Int) =
        displacement (symbol.address places) (here + raw.length) := by
    rw [displacement, displacement, same]
  have rest : assemble places (here + pos + 4)
      (if raw.length - pos > 4 then [.bytes (raw.drop (pos + 4))] else []) =
        raw.drop (pos + 4) := by
    split_ifs with longer
    · exact List.append_nil _
    · exact (List.drop_eq_nil_of_le (by omega)).symm
  rw [relocated, List.cons_append, List.cons_append, List.nil_append, assemble, assemble]
  simp only [Item.size, Item.assemble, front, field, rest, List.append_assoc]

theorem relocated_spans (raw : List Byte) (pos : Nat) (symbol : Ref) (fits : pos + 4 ≤ raw.length) :
    Spans (relocated raw pos symbol) raw.length := by
  have front := spans_bytes (raw.take pos)
  rw [List.length_take, Nat.min_eq_left (by omega)] at front
  have field := spans_append front (spans_long symbol (raw.length - pos))
  unfold relocated
  dsimp only
  split_ifs with longer
  · have rest := spans_bytes (raw.drop (pos + 4))
    rw [List.length_drop] at rest
    have whole := spans_append field rest
    rwa [show pos + 4 + (raw.length - (pos + 4)) = raw.length by omega] at whole
  · rw [List.append_nil]
    rwa [show pos + 4 = raw.length by omega] at field

theorem emit_rel32_ok_iff (raw : List Byte) (addr target : Nat) (symbol : Ref)
    (items : List Item) :
    emitRel32 raw addr target symbol = .ok items ↔
      ∃ pos, lastOccurrence (displacement target (addr + raw.length)) raw = some pos ∧
        count (displacement target (addr + raw.length)) raw = 1 ∧
        items = relocated raw pos symbol := by
  unfold emitRel32
  dsimp only
  cases found : lastOccurrence (displacement target (addr + raw.length)) raw with
  | none => simp only [reduceCtorEq, false_and, exists_false]
  | some pos =>
      simp only [Option.some.injEq, exists_eq_left']
      split_ifs with counted
      · simp only [false_iff]
        exact fun once => counted once.1
      · rw [Except.ok.injEq, not_not.mp counted]
        exact ⟨fun same => ⟨rfl, same.symm⟩, fun same => same.2.symm⟩

theorem emit_rel32_spans {raw : List Byte} {addr target : Nat} {symbol : Ref} {items : List Item}
    (emitted : emitRel32 raw addr target symbol = .ok items) : Spans items raw.length := by
  obtain ⟨pos, found, _, rfl⟩ := (emit_rel32_ok_iff raw addr target symbol items).mp emitted
  have given := displacement_ne_nil target (addr + raw.length)
  have there := (last_occurrence_iff given raw pos).mp found
  have fits := occurs_at_fits given there.1
  rw [displacement_length] at fits
  exact relocated_spans raw pos symbol fits

/-- The first byte of the field tells two places apart. -/
theorem rewritten_once (raw : List Byte) (symbol : Ref) (items : List Item) {p pos target : Nat}
    {addr : Nat} (before : p < pos) (fits : pos + 4 ≤ raw.length)
    (field : OccursAt (displacement target (addr + raw.length)) raw p)
    (there : Rewritten raw pos symbol items) : ¬ Rewritten raw p symbol items := by
  intro here
  -- Assembled so that the field has to move by one.
  have both := (there (fun _ => target + 1) (addr + symbol.offset)).symm.trans
    (here (fun _ => target + 1) (addr + symbol.offset))
  have front : (raw.take p).length = p := by rw [List.length_take]; omega
  have copied : p < (raw.take pos).length := by rw [List.length_take]; omega
  have moved : displacement (symbol.address fun _ => target + 1)
      ((addr + symbol.offset : Nat) + raw.length) =
        displacement ((target : Int) + 1) (addr + raw.length) := by
    rw [displacement, displacement, Ref.address]
    congr 2
    omega
  have kept := occurs_at_symbol field (i := 0) (by rw [displacement_length]; decide)
  have firsts := congrArg (fun bytes : List Byte => bytes[p]?) both
  rw [Nat.add_zero] at kept
  simp only [List.append_assoc, moved] at firsts
  rw [List.getElem?_append_left copied, List.getElem?_take_of_lt before, kept,
    List.getElem?_append_right (Nat.le_of_eq front), front, Nat.sub_self,
    List.getElem?_append_left (by rw [displacement_length]; decide)] at firsts
  exact displacement_first_moves target (addr + raw.length) firsts.symm

/-- A displacement in the last four bytes is the last there is. -/
theorem emit_rel32_rewrites_last {raw : List Byte} {addr target : Nat} {symbol : Ref}
    {items : List Item}
    (field : OccursAt (displacement target (addr + raw.length)) raw (raw.length - 4))
    (emitted : emitRel32 raw addr target symbol = .ok items) :
    Rewritten raw (raw.length - 4) symbol items := by
  obtain ⟨pos, found, _, rfl⟩ := (emit_rel32_ok_iff raw addr target symbol items).mp emitted
  have given := displacement_ne_nil target (addr + raw.length)
  have there := (last_occurrence_iff given raw pos).mp found
  have fits := occurs_at_fits given there.1
  have whole := occurs_at_fits given field
  rw [displacement_length] at fits whole
  have same : raw.length - 4 = pos := by
    by_contra differ
    exact there.2 (raw.length - 4) (by omega) field
  rw [same]
  exact relocated_rewrites raw pos symbol fits

end Spec

/-- The displacement stands at `p`. Written anew is exactly it when the generator
stops, which it does where the same bytes stand twice without overlapping, or
when they stand nowhere behind `p`. -/
theorem emit_rel32_rewrites_iff (raw : List Byte) (addr target p : Nat) (symbol : Ref)
    (field : OccursAt (displacement target (addr + raw.length)) raw p) :
    (∀ items, emitRel32 raw addr target symbol = .ok items → Rewritten raw p symbol items) ↔
      (∃ first second, first + 4 ≤ second ∧
        OccursAt (displacement target (addr + raw.length)) raw first ∧
        OccursAt (displacement target (addr + raw.length)) raw second) ∨
      ∀ later, p < later → ¬ OccursAt (displacement target (addr + raw.length)) raw later := by
  have given := displacement_ne_nil target (addr + raw.length)
  have twice := two_counted_iff given raw
  have last := last_occurrence_iff given raw
  have counted := (count_pos_iff given raw).mpr ⟨p, field⟩
  have fits := occurs_at_fits given field
  rw [displacement_length] at twice fits
  rw [← twice]
  constructor
  · intro rewrites
    by_cases stops : 2 ≤ count (displacement target (addr + raw.length)) raw
    · exact Or.inl stops
    · have once : count (displacement target (addr + raw.length)) raw = 1 := by omega
      cases found : lastOccurrence (displacement target (addr + raw.length)) raw with
      | none =>
          have absent := (last_occurrence_none_iff given raw).mp found
          exact absurd field (absent p)
      | some pos =>
          have emitted := (emit_rel32_ok_iff raw addr target symbol _).mpr ⟨pos, found, once, rfl⟩
          have there := (last pos).mp found
          have inside := occurs_at_fits given there.1
          have kept := rewrites _ emitted
          have written := relocated_rewrites raw pos symbol inside
          have same : pos = p := by
            by_contra differ
            have behind : p < pos := by
              by_contra before
              exact there.2 p (by omega) field
            exact rewritten_once raw symbol _ behind inside field written kept
          rw [← same]
          exact Or.inr there.2
  · intro condition items emitted
    obtain ⟨pos, found, once, rfl⟩ := (emit_rel32_ok_iff raw addr target symbol items).mp emitted
    cases condition with
    | inl stops => omega
    | inr nowhere =>
        have atField := (last p).mpr ⟨field, nowhere⟩
        rw [atField, Option.some.injEq] at found
        rw [← found]
        exact relocated_rewrites raw p symbol fits

/-- `movl $0x10,0x100010(%rip)`: its displacement stands at 2, and the last two
bytes of it with the immediate are the same bytes once more. -/
def overlapped : List Byte := [0xc7, 0x05, 0x10, 0x00, 0x10, 0x00, 0x10, 0x00, 0x00, 0x00]

/-- The field is looked for at 4, and the immediate is overwritten. -/
theorem overlapped_field_missed :
    OccursAt (displacement (0x1010fa : Nat) ((0x10e0 : Nat) + overlapped.length)) overlapped 2 ∧
      ∃ items, emitRel32 overlapped 0x10e0 0x1010fa ⟨.dummy, 0⟩ = .ok items ∧
        ¬ Rewritten overlapped 2 ⟨.dummy, 0⟩ items := by
  have found : emitRel32 overlapped 0x10e0 0x1010fa ⟨.dummy, 0⟩ =
      .ok (relocated overlapped 4 ⟨.dummy, 0⟩) := by decide
  have field : OccursAt (displacement (0x1010fa : Nat) ((0x10e0 : Nat) + overlapped.length))
      overlapped 2 := by
    unfold OccursAt
    decide
  have there := relocated_rewrites overlapped 4 ⟨.dummy, 0⟩ (by decide)
  exact ⟨field, _, found, rewritten_once _ _ _ (by decide) (by decide) field there⟩

/-- `call` with the displacement `0x0b`. -/
def nearCall : List Byte := [0xe8, 0x0b, 0x00, 0x00, 0x00]

theorem emit_rel32_rewrites_near_call :
    ∃ items, emitRel32 nearCall 0x1000 0x1010 ⟨.fn 3, 0⟩ = .ok items ∧
      Rewritten nearCall 1 ⟨.fn 3, 0⟩ items := by
  have given := displacement_ne_nil (0x1010 : Nat) ((0x1000 : Nat) + nearCall.length)
  have last := (last_occurrence_iff given nearCall 1).mp (by decide)
  have emitted : emitRel32 nearCall 0x1000 0x1010 ⟨.fn 3, 0⟩ =
      .ok (relocated nearCall 1 ⟨.fn 3, 0⟩) := rfl
  exact ⟨_, emitted, (emit_rel32_rewrites_iff _ 0x1000 0x1010 1 ⟨.fn 3, 0⟩ last.1).mpr
    (Or.inr last.2) _ emitted⟩

end SdcProbe.Relocation
