import SdcProbe.TrapStubs

/-!
# Looking an address up in the table

The rows of `sdc_rbx_functions` cover the substitute memset, the transplanted
functions and the trap stubs, no two of them the same address, so `find_function`
finds for every address the row there is and no other.
-/

namespace SdcProbe.FunctionLookup

open SymbolTable AssemblerText References Layout MemsetCode FunctionTable
open PageOffsets Generator TrapStubs

set_option autoImplicit false

section Search

/-- Where two elements never satisfy a test together, the search finds the one that
does. -/
theorem find_iff_of_once {α : Type} {p : α → Bool} {list : List α}
    (once : list.Pairwise fun left right => p left = true → p right = false) (a : α) :
    list.find? p = some a ↔ a ∈ list ∧ p a = true := by
  induction list with
  | nil => simp
  | cons first rest ih =>
      rw [List.pairwise_cons] at once
      cases wanted : p first with
      | true =>
          rw [List.find?_cons_of_pos wanted, Option.some.injEq, List.mem_cons]
          constructor
          · intro same
            rw [← same]
            exact ⟨Or.inl rfl, wanted⟩
          · rintro ⟨same | later, also⟩
            · exact same.symm
            · rw [once.1 a later wanted] at also
              cases also
      | false =>
          have skip : ¬ p first = true := by rw [wanted]; exact Bool.false_ne_true
          rw [List.find?_cons_of_neg skip, ih once.2, List.mem_cons]
          constructor
          · exact fun found => ⟨Or.inr found.1, found.2⟩
          · rintro ⟨same | later, also⟩
            · rw [same, wanted] at also
              cases also
            · exact ⟨later, also⟩

end Search

/-- A row with the part of the section that it covers. -/
structure Extent where
  row : Row
  start : Nat
  size : Nat

/-- An address inside, with the section at `base`. -/
def Extent.Holds (base : Nat) (extent : Extent) (address : Nat) : Prop :=
  base + extent.start ≤ address ∧ address < base + (extent.start + extent.size)

instance (base : Nat) (extent : Extent) (address : Nat) : Decidable (extent.Holds base address) :=
  inferInstanceAs (Decidable (_ ∧ _))

section Extents

variable (hand : HandWritten) (payload : Payload) (places : Label → Nat)

def memsetExtent : Extent := ⟨memsetRow places, 0x400, 0x140⟩

def fnExtent (laid : Placed × Nat) : Extent :=
  ⟨fnRow places payload.closure laid.1, laid.2, laid.1.body.function.size⟩

/-- For an address and its number. -/
def trapExtent (trap : Nat × Nat) : Extent :=
  ⟨tableEntry places (.trap trap.2) 2 trap.1, stubPlace hand payload trap.2, 2⟩

/-- The rows in front of the one that ends the table. -/
def extents : List Extent :=
  memsetExtent places :: (payload.laid hand).map (fnExtent payload places) ++
    (trapAddrs payload.closure).zipIdx.map (trapExtent hand payload places)

theorem table_rows :
    payload.table places = (extents hand payload places).map Extent.row ++ [⟨0, 0, 0⟩] := by
  have functions : payload.order.map (fnRow places payload.closure) =
      (payload.laid hand).map (Extent.row ∘ fnExtent payload places) := by
    rw [← starts_functions (functionsStart hand payload.closure payload.entry) payload.order,
      List.map_map]
    rfl
  rw [Payload.table, functionTable, trapRows, extents, functions, List.mapIdx_eq_zipIdx_map,
    List.map_append, List.map_cons, List.map_map, List.map_map]
  rfl

end Extents

section Places

variable {hand : HandWritten} {binary : Binary} {payload : Payload} {base : Nat}

theorem entry_covers_iff {places : Label → Nat} {label : Label} {start size : Nat} (original : Nat)
    (place : places label = base + start) (fits : base + (start + size) < 2 ^ 64)
    (address : FunctionTable.Word) :
    (tableEntry places label size original).Covers address ↔
      base + start ≤ address.toNat ∧ address.toNat < base + (start + size) := by
  have first : base + start < 2 ^ 64 := by omega
  have length : size < 2 ^ 64 := by omega
  have last : base + start + size < 2 ^ 64 := by omega
  rw [Row.Covers, tableEntry, place, BitVec.le_def, BitVec.lt_def, BitVec.toNat_add,
    BitVec.toNat_ofNat, BitVec.toNat_ofNat, Nat.mod_eq_of_lt first, Nat.mod_eq_of_lt length,
    Nat.mod_eq_of_lt last, Nat.add_assoc]

/-- The row of an extent starts where the extent does and covers what it holds. -/
structure Fits (base limit : Nat) (extent : Extent) : Prop where
  somewhere : 0 < extent.start
  ends : extent.start + extent.size ≤ limit
  start : extent.row.start = BitVec.ofNat 64 (base + extent.start)
  covers : ∀ address : FunctionTable.Word,
    extent.row.Covers address ↔ extent.Holds base address.toNat

theorem fits_of_defined {text : List Item} {label : Label} {start size limit : Nat} (original : Nat)
    (defined : definedAt label 0 text = some start) (somewhere : 0 < start)
    (ends : start + size ≤ limit) (fits : base + limit < 2 ^ 64) :
    Fits base limit ⟨tableEntry (loadedAt base text) label size original, start, size⟩ := by
  have place := loaded_of_defined base defined
  constructor
  · exact somewhere
  · exact ends
  · rw [tableEntry, place]
  · intro address
    exact entry_covers_iff original place (by omega) address

theorem stubs_behind_memset (hand : HandWritten) (payload : Payload) :
    0x540 ≤ stubsFrom hand payload := by
  have memset : behind 0 ([.align page, .skip 0x400] ++ memsetItems ++ [.align 64]) = 0x540 := by
    decide
  have split : headerItems hand payload.closure payload.entry =
      ([.align page, .skip 0x400] ++ memsetItems ++ [.align 64]) ++
        [.bytes hand.inject, .align 64, .bytes hand.call, .bytes [0xe8],
          .long { label := fnLabel payload.closure payload.entry.addr } 4,
          .bytes hand.landing] := by
    rw [headerItems]
    simp only [List.append_assoc, List.cons_append, List.nil_append]
  rw [stubsFrom, split, behind_append, memset]
  exact le_behind _ _

theorem stub_behind_memset (hand : HandWritten) (payload : Payload) (index : Nat) :
    0x540 ≤ stubPlace hand payload index := by
  have front := stubs_behind_memset hand payload
  rw [stubPlace, firstStub]
  omega

theorem mem_traps {addr index : Nat} (member : (addr, index) ∈ (trapAddrs payload.closure).zipIdx) :
    index < (trapAddrs payload.closure).length :=
  (List.getElem?_eq_some_iff.mp (List.mem_zipIdx_iff_getElem?.mp member)).1

theorem extents_fit (generated : Generated hand binary payload)
    (fits : base + behind 0 (payload.text hand) < 2 ^ 64) :
    ∀ extent ∈ extents hand payload (loadedAt base (payload.text hand)),
      Fits base (behind 0 (payload.text hand)) extent := by
  have whole := le_behind (functionsStart hand payload.closure payload.entry) payload.functions
  rw [functionsStart, ← behind_append] at whole
  intro extent member
  rw [extents, List.mem_append, List.mem_cons, List.mem_map, List.mem_map] at member
  rcases member with (rfl | ⟨⟨placed, start⟩, laid, rfl⟩) | ⟨⟨addr, index⟩, trap, rfl⟩
  · have defined := memset_defined hand payload.closure payload.entry payload.functions
    have ends := functions_start_behind_memset hand payload.closure payload.entry
    exact fits_of_defined 0 defined (by decide) (Nat.le_trans ends whole) fits
  · have bounds := laid_bound generated laid
    have front := functions_start_behind_memset hand payload.closure payload.entry
    have somewhere : 0 < start := by omega
    exact fits_of_defined _ (fn_defined generated laid) somewhere bounds.2 fits
  · have inside := mem_traps trap
    have front := stub_behind_memset hand payload index
    have somewhere : 0 < stubPlace hand payload index := by omega
    have ends := stub_before_functions hand payload inside
    exact fits_of_defined _ (stub_defined hand payload inside) somewhere
      (Nat.le_trans ends whole) fits

/-- No two extents hold one address. -/
theorem extents_apart (base : Nat) (generated : Generated hand binary payload)
    (places : Label → Nat) (address : Nat) :
    (extents hand payload places).Pairwise fun left right =>
      left.Holds base address → ¬ right.Holds base address := by
  have memset := functions_start_behind_memset hand payload.closure payload.entry
  have functions : ((payload.laid hand).map (fnExtent payload places)).Pairwise fun left right =>
      left.Holds base address → ¬ right.Holds base address := by
    apply List.Pairwise.map _ _ starts_apart
    intro left right apart here there
    rw [Extent.Holds, fnExtent] at here there
    dsimp only at here there
    omega
  have stubs : ((trapAddrs payload.closure).zipIdx.map
      (trapExtent hand payload places)).Pairwise fun left right =>
        left.Holds base address → ¬ right.Holds base address := by
    rw [List.pairwise_iff_getElem]
    intro i j first second before here there
    simp only [List.getElem_map, List.getElem_zipIdx, trapExtent, Extent.Holds, stubPlace]
      at here there
    omega
  rw [extents, List.pairwise_append, List.pairwise_cons]
  refine ⟨⟨?_, functions⟩, stubs, ?_⟩
  · intro other member here there
    obtain ⟨⟨placed, start⟩, laid, rfl⟩ := List.mem_map.mp member
    have bounds := laid_bound generated laid
    rw [Extent.Holds, memsetExtent] at here
    rw [Extent.Holds, fnExtent] at there
    dsimp only at here there
    omega
  · intro left first right second here there
    obtain ⟨⟨addr, index⟩, trap, rfl⟩ := List.mem_map.mp second
    have inside := mem_traps trap
    have front := stub_behind_memset hand payload index
    have ends := stub_before_functions hand payload inside
    rw [Extent.Holds, trapExtent] at there
    dsimp only at there
    cases List.mem_cons.mp first with
    | inl same =>
        rw [same, Extent.Holds, memsetExtent] at here
        dsimp only at here
        omega
    | inr later =>
        obtain ⟨⟨placed, start⟩, laid, rfl⟩ := List.mem_map.mp later
        have bounds := laid_bound generated laid
        rw [Extent.Holds, fnExtent] at here
        dsimp only at here
        omega

theorem extents_begin (generated : Generated hand binary payload)
    (fits : base + behind 0 (payload.text hand) < 2 ^ 64) :
    ∀ extent ∈ extents hand payload (loadedAt base (payload.text hand)),
      extent.row.start.toNat = base + extent.start ∧ 0 < extent.start := by
  intro extent member
  have fit := extents_fit generated fits extent member
  have room := fit.ends
  constructor
  · rw [fit.start, BitVec.toNat_ofNat, Nat.mod_eq_of_lt (by omega)]
  · exact fit.somewhere

/-- At most one row covers an address. -/
theorem extents_once (generated : Generated hand binary payload)
    (fits : base + behind 0 (payload.text hand) < 2 ^ 64) (address : FunctionTable.Word) :
    (extents hand payload (loadedAt base (payload.text hand))).Pairwise fun left right =>
      decide (left.row.Covers address) = true → decide (right.row.Covers address) = false := by
  have fit := extents_fit generated fits
  have apart := extents_apart base generated (loadedAt base (payload.text hand)) address.toNat
  apply apart.imp_of_mem
  intro left right first second apart here
  rw [decide_eq_true_eq, (fit left first).covers] at here
  rw [decide_eq_false_iff_not, (fit right second).covers]
  exact apart here

/-- What an address of the process belongs to, as the table has it. The slot of memset is five
lines of 64 bytes: the `0x135` bytes of its code and the filling behind them. -/
inductive Owns (hand : HandWritten) (payload : Payload) (places : Label → Nat)
    (base address : Nat) : Row → Prop where
  | memset : base + 0x400 ≤ address → address < base + 0x540 →
      Owns hand payload places base address (memsetRow places)
  | function {placed : Placed} {start : Nat} : (placed, start) ∈ payload.laid hand →
      base + start ≤ address → address < base + (start + placed.body.function.size) →
      Owns hand payload places base address (fnRow places payload.closure placed)
  | trap {target index : Nat} : (trapAddrs payload.closure)[index]? = some target →
      base + stubPlace hand payload index ≤ address →
      address < base + (stubPlace hand payload index + 2) →
      Owns hand payload places base address (tableEntry places (.trap index) 2 target)

theorem owns_iff (places : Label → Nat) (address : Nat) (row : Row) :
    Owns hand payload places base address row ↔
      ∃ extent ∈ extents hand payload places, extent.Holds base address ∧ extent.row = row := by
  constructor
  · intro owns
    cases owns with
    | memset low high =>
        exact ⟨_, List.mem_append_left _ List.mem_cons_self, ⟨low, high⟩, rfl⟩
    | @function placed start laid low high =>
        have member := List.mem_map_of_mem (f := fnExtent payload places) laid
        exact ⟨_, List.mem_append_left _ (List.mem_cons_of_mem _ member), ⟨low, high⟩, rfl⟩
    | @trap target index found low high =>
        have numbered : (target, index) ∈ (trapAddrs payload.closure).zipIdx :=
          List.mem_zipIdx_iff_getElem?.mpr found
        have member := List.mem_map_of_mem (f := trapExtent hand payload places) numbered
        exact ⟨_, List.mem_append_right _ member, ⟨low, high⟩, rfl⟩
  · rintro ⟨extent, member, ⟨low, high⟩, rfl⟩
    rw [extents, List.mem_append, List.mem_cons, List.mem_map, List.mem_map] at member
    rcases member with (rfl | ⟨⟨placed, start⟩, laid, rfl⟩) | ⟨⟨addr, index⟩, trap, rfl⟩
    · exact .memset low high
    · exact .function laid low high
    · exact .trap (List.mem_zipIdx_iff_getElem?.mp trap) low high

theorem found_covers {address : FunctionTable.Word} {rows : List Row} {row : Row}
    (found : findFunction address rows = some row) : row.Covers address := by
  induction rows with
  | nil => cases found
  | cons first rest ih =>
      rw [findFunction] at found
      split_ifs at found with ends covers
      · cases found
        exact covers
      · exact ih found

theorem found_iff_owns (known : Generated hand binary payload)
    (fits : base + behind 0 (payload.text hand) < 2 ^ 64) (address : FunctionTable.Word)
    (row : Row) :
    findFunction address (payload.table (loadedAt base (payload.text hand))) = some row ↔
      Owns hand payload (loadedAt base (payload.text hand)) base address.toNat row := by
  have fit := extents_fit known fits
  have start := extents_begin known fits
  have once := extents_once known fits address
  generalize loadedAt base (payload.text hand) = places at fit start once ⊢
  have begins : ∀ row ∈ (extents hand payload places).map Extent.row, row.start ≠ 0 := by
    intro row member zero
    obtain ⟨extent, listed, rfl⟩ := List.mem_map.mp member
    obtain ⟨place, somewhere⟩ := start extent listed
    rw [zero] at place
    change 0 = base + extent.start at place
    omega
  have last : findFunction address [⟨0, 0, 0⟩] = none := rfl
  rw [table_rows, PageOffsets.find_function_append address _ _ begins, last, Option.or_none,
    List.find?_map, Option.map_eq_some_iff, owns_iff]
  apply exists_congr
  intro extent
  have search : (extents hand payload places).find?
      ((fun row => decide (row.Covers address)) ∘ Extent.row) = some extent ↔
        extent ∈ extents hand payload places ∧ extent.Holds base address.toNat := by
    rw [← and_congr_right fun member => (fit extent member).covers address,
      ← decide_eq_true_iff (p := extent.row.Covers address)]
    exact find_iff_of_once once extent
  rw [search, and_assoc]

end Places

/-- For every address there is, `find_function` finds the row of what the address
belongs to, and nothing for an address outside. -/
theorem find_function_is_exact (hand : HandWritten) (binary : Binary) (fuel : Nat)
    (payload : Payload) (base : Nat) (generated : generate binary fuel = some (.ok payload))
    (exact : ∀ body ∈ payload.closure.chosen, EndsExactly body)
    (fits : base + behind 0 (payload.text hand) < 2 ^ 64) (address : FunctionTable.Word)
    (row : Row) :
    let places := loadedAt base (payload.text hand)
    findFunction address (payload.table places) = some row ↔
      Owns hand payload places base address.toNat row :=
  found_iff_owns (generated_of_ok hand generated exact) fits address row

theorem find_function_is_exact_sample :
    findFunction (BitVec.ofNat 64 (0x400000 + 0x2005))
      (samplePayload.table (loadedAt 0x400000 (samplePayload.text noCode))) =
        some (fnRow (loadedAt 0x400000 (samplePayload.text noCode)) samplePayload.closure
          sampleEmitPlaced) := by
  have laid : (sampleEmitPlaced, 0x2000) ∈ samplePayload.laid noCode := by
    rw [sample_laid]
    exact List.mem_cons_of_mem _ (List.mem_singleton_self _)
  exact (find_function_is_exact noCode sample 20 samplePayload 0x400000 sample_generated
    sample_exact (by decide) _ _).mpr (.function laid (by decide) (by decide))

end SdcProbe.FunctionLookup
