import SdcProbe.FunctionTable

/-!
# The transplanted functions keep their page offsets

What is emitted for a function is as long as the function was, so the places the
layout loop counted on are the places in the section, and the rows of the table
cover the functions and nothing else of each other.
-/

namespace SdcProbe.PageOffsets

open Disassembly SymbolTable CallGraph AssemblerText References Layout Emission
open MemsetCode FunctionTable

set_option autoImplicit false

/-- The lines follow each other and end exactly at the end of the function. -/
def Tiles (stop : Nat) : Nat → List Line → Prop
  | addr, [] => addr = stop
  | addr, line :: rest => line.addr = addr ∧ Tiles stop (addr + line.raw.length) rest

def EndsExactly (body : Body) : Prop :=
  Tiles body.function.stop body.function.addr body.lines

section Lengths

theorem tiles_length {stop addr : Nat} {lines : List Line} (tiles : Tiles stop addr lines) :
    addr + codeLength lines = stop := by
  induction lines generalizing addr with
  | nil => exact tiles
  | cons line rest ih =>
      have further := ih tiles.2
      rw [codeLength, List.map_cons, List.sum_cons]
      rw [codeLength] at further
      omega

theorem tiles_split {stop addr : Nat} {front rear : List Line} {line : Line}
    (tiles : Tiles stop addr (front ++ line :: rear)) : line.addr = addr + codeLength front := by
  induction front generalizing addr with
  | nil => exact tiles.1
  | cons other front ih =>
      rw [ih tiles.2, codeLength, codeLength, List.map_cons, List.sum_cons, Nat.add_assoc]

theorem code_length_eq {body : Body} (exact : EndsExactly body) :
    codeLength body.lines = body.function.size := by
  have whole := tiles_length exact
  rw [Symbol.stop] at whole
  omega

end Lengths

section Functions

variable {binary : Binary} {closure : Closure}

/-- What is emitted for a function: filling, its label, its code. -/
theorem emit_function_ok {placed : Placed} {reads last : Nat} {items : List Item}
    (emitted : emitFunction binary closure placed reads = .ok (items, last)) :
    ∃ front code rear reading,
      items = front ++ .label (fnLabel closure placed.body.function.addr) :: code ++ rear ∧
      emitLines binary closure placed.body.function { tlsReads := reads } placed.body.lines =
        .ok (code, reading) ∧
      (∀ here, behind here front = here + placed.pad) ∧ (∀ here, behind here rear = here) ∧
      ∀ index, .label (.fn index) ∉ front ∧ .label (.fn index) ∉ rear := by
  unfold emitFunction at emitted
  dsimp only at emitted
  split at emitted
  · cases emitted
  · next code reading lines =>
      cases emitted
      refine ⟨_, code, _, reading, rfl, lines, ?_, ?_, ?_⟩
      · intro here
        by_cases filled : placed.pad ≠ 0
        · rw [if_pos filled]
          split_ifs
          · rfl
          · rfl
        · rw [if_neg filled, not_not.mp filled]
          split_ifs
          · rfl
          · rfl
      · intro here
        split_ifs
        · rfl
        · rfl
      · intro index
        constructor
        · split_ifs <;> simp
        · split_ifs <;> simp

theorem emit_functions_cons_iff (reads last : Nat) (placed : Placed) (rest : List Placed)
    (all : List Item) :
    emitFunctions binary closure reads (placed :: rest) = .ok (all, last) ↔
      ∃ items next more, emitFunction binary closure placed reads = .ok (items, next) ∧
        emitFunctions binary closure next rest = .ok (more, last) ∧ all = items ++ more := by
  rw [emitFunctions]
  constructor
  · intro emitted
    split at emitted
    · cases emitted
    · next items next first =>
        split at emitted
        · cases emitted
        · next more last others =>
            cases emitted
            exact ⟨items, next, more, first, others, rfl⟩
  · rintro ⟨items, next, more, first, others, rfl⟩
    rw [first]
    dsimp only
    rw [others]

theorem fn_label_injective {left right : Nat} (known : left ∈ chosenAddrs closure)
    (same : fnLabel closure left = fnLabel closure right) : left = right := by
  rw [fnLabel, fnLabel, Label.fn.injEq] at same
  exact (List.idxOf_inj known).mp same

theorem mem_of_starts {cursor start : Nat} {order : List Placed} {placed : Placed}
    (member : (placed, start) ∈ starts cursor order) : placed ∈ order := by
  induction order generalizing cursor with
  | nil => cases member
  | cons first rest ih =>
      cases List.mem_cons.mp member with
      | inl here =>
          cases here
          exact List.mem_cons_self
      | inr later => exact List.mem_cons_of_mem _ (ih later)

/-- Where a function is emitted: its label stands where the layout has it, nothing
before it has that label, and its code follows. -/
structure EmittedAt (binary : Binary) (closure : Closure) (here : Nat) (items : List Item)
    (placed : Placed) (start : Nat) : Prop where
  split : ∃ front code rear reads reading,
    items = front ++ .label (fnLabel closure placed.body.function.addr) :: code ++ rear ∧
    behind here front = start ∧
    .label (fnLabel closure placed.body.function.addr) ∉ front ∧
    emitLines binary closure placed.body.function { tlsReads := reads } placed.body.lines =
      .ok (code, reading)

theorem emission_ok {order : List Placed} {functions : List Item}
    (emitted : emission binary closure order = .ok functions) :
    ∃ reads, emitFunctions binary closure 0 order = .ok (functions, reads) := by
  unfold emission at emitted
  split at emitted
  · cases emitted
  · next items reads written =>
      split_ifs at emitted
      cases emitted
      exact ⟨reads, written⟩

theorem emit_function_size {placed : Placed} {reads last : Nat} {items : List Item}
    (exact : EndsExactly placed.body)
    (emitted : emitFunction binary closure placed reads = .ok (items, last)) (here : Nat) :
    behind here items = here + (placed.pad + placed.body.function.size) := by
  obtain ⟨front, code, rear, reading, rfl, lines, before, after, _⟩ := emit_function_ok emitted
  have spans := emit_lines_spans lines
  rw [code_length_eq exact] at spans
  rw [behind_append, behind_append, after, before, behind_cons]
  simp only [Item.size, spans.behind]
  omega

theorem emit_functions_size {order : List Placed} {reads last : Nat} {items : List Item}
    (exact : ∀ placed ∈ order, EndsExactly placed.body)
    (emitted : emitFunctions binary closure reads order = .ok (items, last)) (here : Nat) :
    behind here items = layEnd here order := by
  induction order generalizing reads here items with
  | nil =>
      cases emitted
      rfl
  | cons placed rest ih =>
      obtain ⟨first, next, more, one, others, rfl⟩ :=
        (emit_functions_cons_iff reads last placed rest items).mp emitted
      rw [behind_append, emit_function_size (exact placed List.mem_cons_self) one, layEnd]
      exact ih (fun other member => exact other (List.mem_cons_of_mem _ member)) others _

theorem emit_functions_at {order : List Placed} {reads last here : Nat} {items : List Item}
    (exact : ∀ placed ∈ order, EndsExactly placed.body)
    (known : ∀ placed ∈ order, placed.body.function.addr ∈ chosenAddrs closure)
    (distinct : (order.map (·.body.function.addr)).Nodup)
    (emitted : emitFunctions binary closure reads order = .ok (items, last))
    {placed : Placed} {start : Nat} (member : (placed, start) ∈ starts here order) :
    EmittedAt binary closure here items placed start := by
  induction order generalizing reads here items with
  | nil => cases member
  | cons first rest ih =>
      obtain ⟨items, next, more, one, others, rfl⟩ :=
        (emit_functions_cons_iff reads last first rest items).mp emitted
      have whole := emit_function_size (exact first List.mem_cons_self) one here
      obtain ⟨front, code, rear, reading, rfl, lines, before, _, plain⟩ := emit_function_ok one
      rw [List.map_cons, List.nodup_cons] at distinct
      cases List.mem_cons.mp member with
      | inl this =>
          cases this
          constructor
          refine ⟨front, code, rear ++ more, reads, reading, ?_, before _, (plain _).1, lines⟩
          rw [List.append_assoc]
      | inr later =>
          have inside := mem_of_starts later
          have placedAt := ih (fun other found => exact other (List.mem_cons_of_mem _ found))
            (fun other found => known other (List.mem_cons_of_mem _ found)) distinct.2 others later
          obtain ⟨front', code', rear', reads', reading', rfl, ends, absent, lines'⟩ :=
            placedAt.split
          have other : fnLabel closure placed.body.function.addr ≠
              fnLabel closure first.body.function.addr := by
            intro same
            have equal := fn_label_injective (known placed (List.mem_cons_of_mem _ inside)) same
            apply distinct.1
            rw [← equal]
            exact List.mem_map_of_mem inside
          have spans := emit_lines_spans lines
          constructor
          refine ⟨front ++ .label (fnLabel closure first.body.function.addr) :: code ++ rear ++
            front', code', rear', reads', reading', ?_, ?_, ?_, lines'⟩
          · simp only [List.append_assoc]
          · rw [behind_append, whole]
            exact ends
          · simp only [List.mem_append, List.mem_cons, Item.label.injEq, other, false_or, not_or]
            exact ⟨⟨⟨(plain _).1, spans.unlabelled _⟩, (plain _).2⟩, absent⟩

end Functions

section Places

variable {order : List Placed} {cursor : Nat}

theorem le_starts {start : Nat} {placed : Placed} (member : (placed, start) ∈ starts cursor order) :
    cursor ≤ start ∧ start + placed.body.function.size ≤ layEnd cursor order := by
  induction order generalizing cursor with
  | nil => cases member
  | cons first rest ih =>
      rw [layEnd]
      have grows : ∀ (cursor : Nat) (order : List Placed), cursor ≤ layEnd cursor order := by
        intro cursor order
        induction order generalizing cursor with
        | nil => exact Nat.le_refl cursor
        | cons _ _ ih => exact Nat.le_trans (Nat.le_add_right _ _) (ih _)
      cases List.mem_cons.mp member with
      | inl here =>
          cases here
          have further := grows (cursor + (placed.pad + placed.body.function.size)) rest
          omega
      | inr later =>
          have bounds := ih later
          omega

theorem starts_apart : (starts cursor order).Pairwise fun left right =>
    left.2 + left.1.body.function.size ≤ right.2 := by
  induction order generalizing cursor with
  | nil => exact List.Pairwise.nil
  | cons first rest ih =>
      apply List.Pairwise.cons _ ih
      rintro ⟨placed, start⟩ later
      have bounds := le_starts later
      dsimp only
      omega

theorem aligned_shift {base : Nat} (even : base % page = 0) (aligned : Aligned cursor order) :
    Aligned (base + cursor) order := by
  induction order generalizing cursor with
  | nil => trivial
  | cons first rest ih =>
      obtain ⟨small, reaches, further⟩ := aligned
      constructor
      · exact small
      · constructor
        · rw [← reaches]
          unfold page at even ⊢
          omega
        · rw [Nat.add_assoc]
          exact ih further

theorem start_aligned {start : Nat} {placed : Placed} (aligned : Aligned cursor order)
    (member : (placed, start) ∈ starts cursor order) :
    placed.pad < page ∧ start % page = placed.body.function.addr % page := by
  induction order generalizing cursor with
  | nil => cases member
  | cons first rest ih =>
      cases List.mem_cons.mp member with
      | inl here =>
          cases here
          exact ⟨aligned.1, aligned.2.1⟩
      | inr later => exact ih aligned.2.2 later

/-- Where two elements never satisfy a test together, one that does is all that
is left. -/
theorem filter_single {α : Type} {apart : α → α → Prop} {p : α → Bool} {list : List α} {a : α}
    (pairwise : list.Pairwise apart)
    (once : ∀ left ∈ list, ∀ right ∈ list, apart left right → p left = true → p right = false)
    (member : a ∈ list) (wanted : p a = true) : list.filter p = [a] := by
  induction pairwise with
  | nil => cases member
  | @cons first rest apartFirst _ ih =>
      have excludes : ∀ other ∈ rest, p first = true → p other = false := fun other found =>
        once first List.mem_cons_self other (List.mem_cons_of_mem _ found) (apartFirst other found)
      cases List.mem_cons.mp member with
      | inl same =>
          subst same
          rw [List.filter_cons_of_pos wanted, List.filter_eq_nil_iff.mpr]
          intro other found
          rw [excludes other found wanted]
          exact Bool.false_ne_true
      | inr later =>
          have unwanted : ¬ p first = true := by
            intro taken
            rw [excludes a later taken] at wanted
            cases wanted
          rw [List.filter_cons_of_neg unwanted]
          exact ih (fun left found right after => once left (List.mem_cons_of_mem _ found) right
            (List.mem_cons_of_mem _ after)) later

end Places

section Rows

variable (hand : HandWritten) {binary : Binary} (closure : Closure) (entry : Symbol)

theorem functions_start_even : functionsStart hand closure entry % page = 0 := by
  rw [functionsStart, frontItems, behind_append]
  exact padding_reaches page _ (by decide)

theorem functions_start_behind_memset : 0x540 ≤ functionsStart hand closure entry := by
  have memset : behind 0 ([.align page, .skip 0x400] ++ memsetItems ++ [.align 64]) = 0x540 := by
    decide
  have split : frontItems hand closure entry =
      ([.align page, .skip 0x400] ++ memsetItems ++ [.align 64]) ++
        ([.bytes hand.inject, .align 64, .bytes hand.call, .bytes [0xe8],
          .long { label := fnLabel closure entry.addr } 4, .bytes hand.landing] ++
            (trapItems closure ++ [.align page])) := by
    rw [frontItems, headerItems]
    simp only [List.append_assoc, List.cons_append, List.nil_append]
  rw [functionsStart, split, behind_append, memset]
  exact le_behind _ _

theorem fn_not_in_front (index : Nat) : .label (.fn index) ∉ frontItems hand closure entry := by
  simp [frontItems, headerItems, trapItems, memsetItems, jmpStos]

/-- A function in the text section: its label, its code with as many bytes as the
function had, and each of its instructions as far into it as it was. -/
structure Transplanted (text : List Item) (closure : Closure) (placed : Placed) (start : Nat) :
    Prop where
  label : definedAt (fnLabel closure placed.body.function.addr) 0 text = some start
  code : ∃ front code rear, text = front ++ code ++ rear ∧ behind 0 front = start ∧
    Spans code placed.body.function.size ∧
    ∀ before line after, placed.body.lines = before ++ line :: after →
      ∃ early here late, code = early ++ here ++ late ∧
        Spans early (line.addr - placed.body.function.addr) ∧ Spans here line.raw.length

theorem transplanted_of_emitted {functions : List Item} {placed : Placed} {start : Nat}
    (exact : EndsExactly placed.body)
    (emitted : EmittedAt binary closure (functionsStart hand closure entry) functions placed
      start) :
    Transplanted (frontItems hand closure entry ++ functions) closure placed start := by
  obtain ⟨front, code, rear, reads, reading, rfl, ends, absent, lines⟩ := emitted.split
  have spans := emit_lines_spans lines
  rw [code_length_eq exact] at spans
  have fresh : .label (fnLabel closure placed.body.function.addr) ∉
      frontItems hand closure entry ++ front := by
    rw [List.mem_append, not_or]
    exact ⟨fn_not_in_front hand closure entry _, absent⟩
  have before : behind 0 (frontItems hand closure entry ++ front) = start := by
    rw [behind_append]
    exact ends
  constructor
  · rw [List.append_assoc, ← List.append_assoc, defined_at_append _ _ _ _ fresh, before,
      List.cons_append, definedAt, if_pos rfl]
  · refine ⟨frontItems hand closure entry ++ front ++
      [.label (fnLabel closure placed.body.function.addr)], code, rear, ?_, ?_, spans, ?_⟩
    · simp only [List.append_assoc, List.cons_append, List.nil_append]
    · rw [behind_append, before]
      rfl
    · intro front line rear split
      rw [split] at lines
      obtain ⟨early, here, late, _, _, whole, first, second, _⟩ := emit_lines_split lines
      unfold EndsExactly at exact
      rw [split] at exact
      have far : line.addr - placed.body.function.addr = codeLength front := by
        rw [tiles_split exact, Nat.add_sub_cancel_left]
      rw [← far] at first
      exact ⟨early, here, late, whole, first, second⟩

theorem memset_defined (functions : List Item) :
    definedAt .memset 0 (frontItems hand closure entry ++ functions) = some 0x400 := rfl

variable {closure}

theorem row_covers_iff {text : List Item} {base start size original place : Nat} {label : Label}
    (defined : definedAt label 0 text = some start) (fits : base + (start + size) < 2 ^ 64)
    (inside : base + place < 2 ^ 64) :
    (tableEntry (loadedAt base text) label size original).Covers (BitVec.ofNat 64 (base + place)) ↔
      start ≤ place ∧ place < start + size := by
  have first : base + start < 2 ^ 64 := by omega
  have length : size < 2 ^ 64 := by omega
  have last : base + start + size < 2 ^ 64 := by omega
  rw [Row.Covers, tableEntry, loadedAt, defined, Option.getD_some, BitVec.le_def, BitVec.lt_def,
    BitVec.toNat_add, BitVec.toNat_ofNat, BitVec.toNat_ofNat, BitVec.toNat_ofNat,
    Nat.mod_eq_of_lt first, Nat.mod_eq_of_lt inside, Nat.mod_eq_of_lt length, Nat.mod_eq_of_lt last]
  omega

theorem starts_functions (cursor : Nat) (order : List Placed) :
    (starts cursor order).map Prod.fst = order := by
  induction order generalizing cursor with
  | nil => rfl
  | cons placed rest ih => rw [starts, List.map_cons, ih]

/-- The rows of the transplanted functions that cover an address inside one. -/
theorem covering_rows {text : List Item} {order : List Placed} {base cursor start offset : Nat}
    {placed : Placed}
    (defined : ∀ placed start, (placed, start) ∈ starts cursor order →
      definedAt (fnLabel closure placed.body.function.addr) 0 text = some start)
    (fits : base + layEnd cursor order < 2 ^ 64) (member : (placed, start) ∈ starts cursor order)
    (inside : offset < placed.body.function.size) :
    (order.map (fnRow (loadedAt base text) closure)).filter
        (fun row => row.Covers (BitVec.ofNat 64 (base + (start + offset)))) =
      [fnRow (loadedAt base text) closure placed] := by
  have within := le_starts member
  have covers : ∀ entry ∈ starts cursor order,
      (fnRow (loadedAt base text) closure entry.1).Covers
          (BitVec.ofNat 64 (base + (start + offset))) ↔
        entry.2 ≤ start + offset ∧ start + offset < entry.2 + entry.1.body.function.size := by
    rintro ⟨other, place⟩ found
    have bounds := le_starts found
    dsimp only
    exact row_covers_iff (defined other place found) (by omega) (by omega)
  have single : (starts cursor order).filter (fun entry =>
      (fnRow (loadedAt base text) closure entry.1).Covers
        (BitVec.ofNat 64 (base + (start + offset)))) = [(placed, start)] := by
    apply filter_single starts_apart _ member
    · rw [decide_eq_true_eq, covers _ member]
      dsimp only
      omega
    · intro left found right after apart here
      rw [decide_eq_true_eq, covers left found] at here
      rw [decide_eq_false_iff_not, covers right after]
      omega
  have rows : order.map (fnRow (loadedAt base text) closure) =
      (starts cursor order).map fun entry => fnRow (loadedAt base text) closure entry.1 := by
    conv_lhs => rw [← starts_functions cursor order]
    exact List.map_map
  rw [rows, List.filter_map]
  exact congrArg (List.map _) single

theorem find_function_append (address : Word) (rows rest : List Row)
    (some : ∀ row ∈ rows, row.start ≠ 0) :
    findFunction address (rows ++ rest) =
      (rows.find? fun row => row.Covers address).or (findFunction address rest) := by
  induction rows with
  | nil => rfl
  | cons row rows ih =>
      rw [List.cons_append, findFunction, if_neg (some row List.mem_cons_self), List.find?_cons,
        ih fun other member => some other (List.mem_cons_of_mem _ member)]
      by_cases covers : row.Covers address
      · rw [if_pos covers, decide_eq_true covers]
        rfl
      · rw [if_neg covers, decide_eq_false covers]

/-- An address inside a transplanted function: the one row for it, which is also
the row found, and how far into the function it is. -/
structure FoundAs (places : Label → Nat) (closure : Closure) (order : List Placed)
    (placed : Placed) (address : Word) (offset : Nat) : Prop where
  single : (order.map (fnRow places closure)).filter (fun row => row.Covers address) =
    [fnRow places closure placed]
  found : findFunction address (functionTable places closure order) =
    some (fnRow places closure placed)
  offset : (address - (fnRow places closure placed).start).toNat = offset

/-- The search does not take one of these rows for the end of the table. -/
theorem rows_start_somewhere {functions : List Item} {order : List Placed} {base : Nat}
    (defined : ∀ placed start, (placed, start) ∈ starts (functionsStart hand closure entry) order →
      definedAt (fnLabel closure placed.body.function.addr) 0
        (frontItems hand closure entry ++ functions) = some start)
    (fits : base + layEnd (functionsStart hand closure entry) order < 2 ^ 64)
    (room : 0x400 < layEnd (functionsStart hand closure entry) order) :
    ∀ row ∈ memsetRow (loadedAt base (frontItems hand closure entry ++ functions)) ::
      order.map (fnRow (loadedAt base (frontItems hand closure entry ++ functions)) closure),
      row.start ≠ 0 := by
  have memset := memset_defined hand closure entry functions
  have nonzero : ∀ place, 0 < place → base + place < 2 ^ 64 →
      BitVec.ofNat 64 (base + place) ≠ 0 := by
    intro place positive bound zero
    have values := congrArg BitVec.toNat zero
    rw [BitVec.toNat_ofNat, Nat.mod_eq_of_lt bound] at values
    change base + place = 0 at values
    omega
  intro row listed
  cases List.mem_cons.mp listed with
  | inl first =>
      rw [first, memsetRow, tableEntry, loadedAt, memset]
      exact nonzero 0x400 (by decide) (by omega)
  | inr later =>
      obtain ⟨other, found, rfl⟩ := List.mem_map.mp later
      rw [← starts_functions (functionsStart hand closure entry) order] at found
      obtain ⟨⟨other, place⟩, there, rfl⟩ := List.mem_map.mp found
      have bounds := le_starts there
      have behindMemset := functions_start_behind_memset hand closure entry
      rw [fnRow, tableEntry, loadedAt, defined other place there]
      exact nonzero place (by omega) (by omega)

theorem found_in_table {functions : List Item} {order : List Placed} {base start offset : Nat}
    {placed : Placed}
    (defined : ∀ placed start, (placed, start) ∈ starts (functionsStart hand closure entry) order →
      definedAt (fnLabel closure placed.body.function.addr) 0
        (frontItems hand closure entry ++ functions) = some start)
    (fits : base + layEnd (functionsStart hand closure entry) order < 2 ^ 64)
    (member : (placed, start) ∈ starts (functionsStart hand closure entry) order)
    (inside : offset < placed.body.function.size) :
    FoundAs (loadedAt base (frontItems hand closure entry ++ functions)) closure order placed
      (BitVec.ofNat 64 (base + (start + offset))) offset := by
  have single := covering_rows defined fits member inside
  have within := le_starts member
  have behindMemset := functions_start_behind_memset hand closure entry
  have started := rows_start_somewhere hand entry defined fits (by omega)
  have memset := memset_defined hand closure entry functions
  have notMemset : ¬ (memsetRow (loadedAt base
      (frontItems hand closure entry ++ functions))).Covers
        (BitVec.ofNat 64 (base + (start + offset))) := by
    rw [memsetRow, row_covers_iff memset (by omega) (by omega)]
    omega
  constructor
  · exact single
  · rw [functionTable, List.append_assoc, find_function_append _ _ _ started, List.find?_cons,
      decide_eq_false notMemset, ← List.head?_filter, single]
    rfl
  · rw [fnRow, tableEntry, loadedAt, defined placed start member, Option.getD_some,
      BitVec.toNat_sub_of_le]
    · rw [BitVec.toNat_ofNat, BitVec.toNat_ofNat, Nat.mod_eq_of_lt (by omega),
        Nat.mod_eq_of_lt (by omega)]
      omega
    · rw [BitVec.le_def, BitVec.toNat_ofNat, BitVec.toNat_ofNat, Nat.mod_eq_of_lt (by omega),
        Nat.mod_eq_of_lt (by omega)]
      omega

end Rows

/-- The loop ends with every function laid out once. What is emitted then has each
function at its page offset, as long as it was, behind less than a page of filling,
and an address inside one is found in the table with its place in the function. -/
theorem layout_keeps_page_offsets (hand : HandWritten) (binary : Binary) (closure : Closure)
    (entry : Symbol) (fuel : Nat)
    (distinct : (closure.chosen.map (·.function.addr)).Nodup)
    (exact : ∀ body ∈ closure.chosen, EndsExactly body)
    (enough : closure.chosen.length < fuel) :
    ∃ order, layout closure.chosen fuel = some order ∧
      (order.map Placed.body).Perm closure.chosen ∧
      ∀ functions, emission binary closure order = .ok functions →
        let text := frontItems hand closure entry ++ functions
        let laid := starts (functionsStart hand closure entry) order
        (laid.Pairwise fun left right => left.2 + left.1.body.function.size ≤ right.2) ∧
        ∀ placed start, (placed, start) ∈ laid →
          placed.pad < page ∧ start % page = placed.body.function.addr % page ∧
          Transplanted text closure placed start ∧
          ∀ base offset, base + behind 0 text < 2 ^ 64 → offset < placed.body.function.size →
            FoundAs (loadedAt base text) closure order placed
              (BitVec.ofNat 64 (base + (start + offset))) offset := by
  obtain ⟨order, ran, perm, aligned⟩ := layout_ends closure.chosen fuel enough
  have tiled : ∀ placed ∈ order, EndsExactly placed.body :=
    fun placed member => exact _ (perm.mem_iff.mp (List.mem_map_of_mem member))
  have addrs : (order.map (·.body.function.addr)).Perm (closure.chosen.map (·.function.addr)) := by
    have mapped := perm.map (·.function.addr)
    rwa [List.map_map] at mapped
  have known : ∀ placed ∈ order, placed.body.function.addr ∈ chosenAddrs closure := by
    intro placed member
    rw [mem_chosen_addrs]
    exact addrs.mem_iff.mp (List.mem_map_of_mem member)
  have nodup : (order.map (·.body.function.addr)).Nodup := addrs.nodup_iff.mpr distinct
  apply Exists.intro order
  constructor
  · exact ran
  · constructor
    · exact perm
    · intro functions emitted text laid
      obtain ⟨reads, written⟩ := emission_ok emitted
      have shifted := aligned_shift (functions_start_even hand closure entry) aligned
      rw [Nat.add_zero] at shifted
      have transplanted : ∀ placed start, (placed, start) ∈ laid →
          Transplanted text closure placed start := by
        intro placed start member
        exact transplanted_of_emitted hand closure entry (tiled placed (mem_of_starts member))
          (emit_functions_at tiled known nodup written member)
      constructor
      · exact starts_apart
      · intro placed start member
        have inPage := start_aligned shifted member
        have found : ∀ base offset, base + behind 0 text < 2 ^ 64 →
            offset < placed.body.function.size →
            FoundAs (loadedAt base text) closure order placed
              (BitVec.ofNat 64 (base + (start + offset))) offset := by
          intro base offset fits inside
          rw [behind_append] at fits
          have size := emit_functions_size tiled written (functionsStart hand closure entry)
          have bound : base + layEnd (functionsStart hand closure entry) order < 2 ^ 64 := by
            rw [← size]
            exact fits
          have defined := fun other place there => (transplanted other place there).label
          exact found_in_table hand entry defined bound member inside
        exact ⟨inPage.1, inPage.2, transplanted placed start member, found⟩

def twoEntry : Symbol := ⟨0x3805, 1, "t".toList, "end".toList, "end".toList⟩

theorem ret_some_byte : ([0xc3] : List Byte) ≠ [] := List.cons_ne_nil _ _

/-- A function that reads the thread pointer over the end of a page, and one that
starts in the middle of another page. -/
def twoFunctions : Closure where
  chosen :=
    [{ function := ⟨0x1ff8, 19, "t".toList, "emit".toList, "emit_i16<1>".toList⟩
       lines :=
        [{ raw := tlsReadFs, text := [], some_byte := by decide, addr := 0x1ff8 },
          { raw := [0x48, 0x8b, 0x80, 0xb8, 0xff, 0xff, 0xff], text := [], some_byte := by decide,
            addr := 0x2004 }] },
      { function := twoEntry
        lines :=
          [{ raw := [0xc3], text := "ret".toList, some_byte := ret_some_byte, addr := 0x3805 }] }]
  traps := []

def noBinary : Binary := { path := [], symbols := [], unitNames := [], insns := fun _ => none }

def noCode : HandWritten := { inject := [], call := [], landing := [] }

theorem layout_keeps_page_offsets_two_functions : ∃ order functions,
    layout twoFunctions.chosen 3 = some order ∧
      emission noBinary twoFunctions order = .ok functions ∧
      ∀ placed start,
        (placed, start) ∈ starts (functionsStart noCode twoFunctions twoEntry) order →
          start % page = placed.body.function.addr % page := by
  have exact : ∀ body ∈ twoFunctions.chosen, EndsExactly body := by
    intro body member
    rw [twoFunctions, List.mem_cons, List.mem_singleton] at member
    rcases member with rfl | rfl
    · exact ⟨rfl, rfl, rfl⟩
    · exact ⟨rfl, rfl⟩
  obtain ⟨order, ran, _, laid⟩ := layout_keeps_page_offsets noCode noBinary twoFunctions twoEntry
    3 (by decide) exact (by decide)
  have emits : ∃ functions, emission noBinary twoFunctions order = .ok functions := by
    cases ran
    exact ⟨_, rfl⟩
  obtain ⟨functions, emitted⟩ := emits
  exact ⟨order, functions, ran, emitted, fun placed start member =>
    ((laid functions emitted).2 placed start member).2.1⟩

end SdcProbe.PageOffsets
