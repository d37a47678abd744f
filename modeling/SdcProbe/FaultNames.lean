import SdcProbe.FunctionLookup
import SdcProbe.NameText

/-!
# Naming an address

The names in the rows of `sdc_rbx_functions` and `sdc_rbx_describe_address`, which
prints the name of the row an address is in and its offset there. What is printed
tells addresses apart as long as the names do.
-/

namespace SdcProbe.FaultNames

open CNumeral Disassembly SymbolTable CallGraph AssemblerText References Layout
open FunctionTable PageOffsets Generator TrapStubs FunctionLookup NameText

set_option autoImplicit false

/-- The name of a stub: `traps[addr]` where the address has no symbol. -/
def trapName (binary : Binary) (closure : Closure) (addr : Nat) : Text :=
  let nice :=
    match byAddr binary addr with
    | some symbol => shortName symbol.demangled
    | none => (closure.traps.lookup addr).getD []
  "trap:".toList ++ replace "@plt".toList [] nice

structure NamedRow where
  row : Row
  name : Text
  deriving DecidableEq

/-- What a pointer into the strings behind the table points to. -/
def loadedName (name : Text) : Text := ((readString (escape name ++ ['"'])).map Prod.fst).getD []

section Table

variable (hand : HandWritten) (binary : Binary) (payload : Payload) (places : Label → Nat)

def namedExtents : List (Extent × Text) :=
  (memsetExtent places, "memset".toList) ::
    (payload.laid hand).map (fun laid =>
      (fnExtent payload places laid, shortName laid.1.body.function.demangled)) ++
    (trapAddrs payload.closure).zipIdx.map fun trap =>
      (trapExtent hand payload places trap, trapName binary payload.closure trap.1)

def namedRow (named : Extent × Text) : NamedRow := ⟨named.1.row, loadedName named.2⟩

/-- `sdc_rbx_functions` with the names. -/
def namedTable : List NamedRow :=
  (namedExtents hand binary payload places).map namedRow ++ [⟨⟨0, 0, 0⟩, []⟩]

end Table

/-- `find_function`, with the name. -/
def findNamed (address : FunctionTable.Word) : List NamedRow → Option NamedRow
  | [] => none
  | f :: rest =>
      if f.row.start = 0 then none
      else if f.row.Covers address then some f
      else findNamed address rest

def insideText (name : Text) (offset : Nat) : Text := name ++ "+0x".toList ++ hexText offset

def outsideText (address : Nat) : Text :=
  "0x".toList ++ hexText address ++ " (outside the probe's code)".toList

/-- `sdc_rbx_describe_address` -/
def describeAddress (rows : List NamedRow) (address : FunctionTable.Word) : Text :=
  match findNamed address rows with
  | none => snprintf 160 (outsideText address.toNat)
  | some f => snprintf 160 (insideText f.name (address - f.row.start).toNat)

section Lookup

theorem loaded_name (name : Text) : loadedName name = name := by
  rw [loadedName, read_string_escape]
  rfl

theorem named_extents_extents (hand : HandWritten) (binary : Binary) (payload : Payload)
    (places : Label → Nat) :
    (namedExtents hand binary payload places).map Prod.fst = extents hand payload places := by
  rw [namedExtents, extents, List.map_append, List.map_cons, List.map_map, List.map_map]
  rfl

theorem find_named_append (address : FunctionTable.Word) (rows rest : List NamedRow)
    (begins : ∀ named ∈ rows, named.row.start ≠ 0) :
    findNamed address (rows ++ rest) =
      (rows.find? fun named => named.row.Covers address).or (findNamed address rest) := by
  induction rows with
  | nil => rfl
  | cons named rows ih =>
      rw [List.cons_append, findNamed, if_neg (begins named List.mem_cons_self), List.find?_cons]
      by_cases covers : named.row.Covers address
      · rw [if_pos covers, decide_eq_true covers, Option.some_or]
      · rw [if_neg covers, decide_eq_false covers,
          ih fun other member => begins other (List.mem_cons_of_mem _ member)]

variable {hand : HandWritten} {binary : Binary} {payload : Payload} {base : Nat}

theorem find_named_iff (known : Generated hand binary payload)
    (fits : base + behind 0 (payload.text hand) < 2 ^ 64) (address : FunctionTable.Word)
    (found : NamedRow) :
    findNamed address (namedTable hand binary payload (loadedAt base (payload.text hand))) =
        some found ↔
      ∃ named ∈ namedExtents hand binary payload (loadedAt base (payload.text hand)),
        named.1.Holds base address.toNat ∧ namedRow named = found := by
  have fit := extents_fit known fits
  have start := extents_begin known fits
  have once := extents_once known fits address
  generalize loadedAt base (payload.text hand) = places at fit start once ⊢
  rw [← named_extents_extents hand binary] at fit start once
  rw [List.pairwise_map] at once
  have begins : ∀ row ∈ (namedExtents hand binary payload places).map namedRow,
      row.row.start ≠ 0 := by
    intro row member zero
    obtain ⟨named, listed, rfl⟩ := List.mem_map.mp member
    obtain ⟨place, somewhere⟩ := start named.1 (List.mem_map_of_mem listed)
    rw [show named.1.row.start = 0 from zero] at place
    change 0 = base + named.1.start at place
    omega
  have last : findNamed address [⟨⟨0, 0, 0⟩, []⟩] = none := rfl
  rw [namedTable, find_named_append address _ _ begins, last, Option.or_none, List.find?_map,
    Option.map_eq_some_iff]
  apply exists_congr
  intro named
  have search : (namedExtents hand binary payload places).find?
      ((fun row => decide (row.row.Covers address)) ∘ namedRow) = some named ↔
        named ∈ namedExtents hand binary payload places ∧ named.1.Holds base address.toNat := by
    rw [← and_congr_right fun member => (fit named.1 (List.mem_map_of_mem member)).covers address,
      ← decide_eq_true_iff (p := named.1.row.Covers address)]
    exact find_iff_of_once once named
  rw [search, and_assoc]

end Lookup

/-- What is said of an address of the process. -/
inductive Described (hand : HandWritten) (binary : Binary) (payload : Payload) (base : Nat) :
    Nat → Text → Prop where
  | memset {offset : Nat} : offset < 0x140 →
      Described hand binary payload base (base + 0x400 + offset)
        (insideText "memset".toList offset)
  | function {placed : Placed} {start offset : Nat} : (placed, start) ∈ payload.laid hand →
      offset < placed.body.function.size →
      Described hand binary payload base (base + start + offset)
        (insideText (shortName placed.body.function.demangled) offset)
  | trap {target index offset : Nat} : (trapAddrs payload.closure)[index]? = some target →
      offset < 2 →
      Described hand binary payload base (base + stubPlace hand payload index + offset)
        (insideText (trapName binary payload.closure target) offset)
  | outside {address : Nat} :
      (∀ extent ∈ extents hand payload (loadedAt base (payload.text hand)),
        ¬ extent.Holds base address) →
      Described hand binary payload base address (outsideText address)

section Descriptions

variable {hand : HandWritten} {binary : Binary} {payload : Payload} {base : Nat}

theorem described_inside {named : Extent × Text} {places : Label → Nat} {address : Nat}
    (member : named ∈ namedExtents hand binary payload places)
    (holds : named.1.Holds base address) :
    Described hand binary payload base address
      (insideText named.2 (address - (base + named.1.start))) := by
  obtain ⟨low, high⟩ := holds
  have place : address = base + named.1.start + (address - (base + named.1.start)) := by omega
  have room : address - (base + named.1.start) < named.1.size := by omega
  generalize address - (base + named.1.start) = offset at place room ⊢
  subst place
  rw [namedExtents, List.mem_append, List.mem_cons, List.mem_map, List.mem_map] at member
  rcases member with (rfl | ⟨⟨placed, start⟩, laid, rfl⟩) | ⟨⟨target, index⟩, trap, rfl⟩
  · exact .memset room
  · exact .function laid room
  · exact .trap (List.mem_zipIdx_iff_getElem?.mp trap) room

/-- A text is for an address in a row, or for one in none. -/
theorem described_cases {address : Nat} {text : Text}
    (described : Described hand binary payload base address text) :
    (∃ named ∈ namedExtents hand binary payload (loadedAt base (payload.text hand)),
        ∃ offset, offset < named.1.size ∧ address = base + named.1.start + offset ∧
          text = insideText named.2 offset) ∨
      (∀ extent ∈ extents hand payload (loadedAt base (payload.text hand)),
        ¬ extent.Holds base address) ∧ text = outsideText address := by
  cases described with
  | @memset offset room =>
      exact Or.inl ⟨_, List.mem_append_left _ List.mem_cons_self, offset, room, rfl, rfl⟩
  | @function placed start offset laid room =>
      have member := List.mem_map_of_mem (f := fun laid =>
        (fnExtent payload (loadedAt base (payload.text hand)) laid,
          shortName laid.1.body.function.demangled)) laid
      exact Or.inl
        ⟨_, List.mem_append_left _ (List.mem_cons_of_mem _ member), offset, room, rfl, rfl⟩
  | @trap target index offset found room =>
      have numbered : (target, index) ∈ (trapAddrs payload.closure).zipIdx :=
        List.mem_zipIdx_iff_getElem?.mpr found
      have member := List.mem_map_of_mem (f := fun trap =>
        (trapExtent hand payload (loadedAt base (payload.text hand)) trap,
          trapName binary payload.closure trap.1)) numbered
      exact Or.inl ⟨_, List.mem_append_right _ member, offset, room, rfl, rfl⟩
  | outside nowhere => exact Or.inr ⟨nowhere, rfl⟩

theorem described_text (known : Generated hand binary payload)
    (fits : base + behind 0 (payload.text hand) < 2 ^ 64) {address : FunctionTable.Word}
    {text : Text} (described : Described hand binary payload base address.toNat text) :
    describeAddress (namedTable hand binary payload (loadedAt base (payload.text hand))) address =
      text.take 159 := by
  rcases described_cases described with ⟨named, member, offset, room, place, rfl⟩ | ⟨nowhere, rfl⟩
  · have holds : named.1.Holds base address.toNat := by
      rw [Extent.Holds]
      omega
    have found := (find_named_iff known fits address (namedRow named)).mpr
      ⟨named, member, holds, rfl⟩
    have listed : named.1 ∈ extents hand payload (loadedAt base (payload.text hand)) := by
      rw [← named_extents_extents hand binary]
      exact List.mem_map_of_mem member
    have start := (extents_begin known fits named.1 listed).1
    have distance : (address - (namedRow named).row.start).toNat = offset := by
      rw [namedRow, BitVec.toNat_sub_of_le]
      · rw [start]
        omega
      · rw [BitVec.le_def, start]
        omega
    rw [describeAddress, found]
    dsimp only
    rw [distance, namedRow, loaded_name, snprintf]
  · cases found : findNamed address
        (namedTable hand binary payload (loadedAt base (payload.text hand))) with
    | none =>
        rw [describeAddress, found]
        dsimp only
        rw [snprintf]
    | some row =>
        obtain ⟨named, member, holds, _⟩ := (find_named_iff known fits address row).mp found
        have listed : named.1 ∈ extents hand payload (loadedAt base (payload.text hand)) := by
          rw [← named_extents_extents hand binary]
          exact List.mem_map_of_mem member
        exact absurd holds (nowhere named.1 listed)

theorem exists_described (address : Nat) :
    ∃ text, Described hand binary payload base address text := by
  by_cases inside : ∃ extent ∈ extents hand payload (loadedAt base (payload.text hand)),
      extent.Holds base address
  · obtain ⟨extent, member, holds⟩ := inside
    rw [← named_extents_extents hand binary] at member
    obtain ⟨named, listed, rfl⟩ := List.mem_map.mp member
    exact ⟨_, described_inside listed holds⟩
  · exact ⟨_, .outside fun extent member holds => inside ⟨extent, member, holds⟩⟩

end Descriptions

/-- Every address there is has its description, and the first 159 characters of it are
what `sdc_rbx_describe_address` returns. -/
theorem every_address_is_named (hand : HandWritten) (binary : Binary) (fuel : Nat)
    (payload : Payload) (base : Nat) (generated : generate binary fuel = some (.ok payload))
    (exact : ∀ body ∈ payload.closure.chosen, EndsExactly body)
    (fits : base + behind 0 (payload.text hand) < 2 ^ 64) (address : FunctionTable.Word) :
    (∃ text, Described hand binary payload base address.toNat text) ∧
      ∀ text, Described hand binary payload base address.toNat text →
        describeAddress (namedTable hand binary payload (loadedAt base (payload.text hand)))
          address = text.take 159 := by
  constructor
  · exact exists_described address.toNat
  · exact fun text => described_text (generated_of_ok hand generated exact) fits

theorem every_address_is_named_sample :
    describeAddress (namedTable noCode sample samplePayload
        (loadedAt 0x400000 (samplePayload.text noCode))) (BitVec.ofNat 64 0x402005) =
      "emit_i16+0x5".toList := by
  have laid : (sampleEmitPlaced, 0x2000) ∈ samplePayload.laid noCode := by
    rw [sample_laid]
    exact List.mem_cons_of_mem _ (List.mem_singleton_self _)
  have described : Described noCode sample samplePayload 0x400000 (0x400000 + 0x2000 + 5)
      (insideText (shortName sampleEmit.demangled) 5) := .function laid (by decide)
  rw [(every_address_is_named noCode sample 20 samplePayload 0x400000 sample_generated sample_exact
    (by decide) (BitVec.ofNat 64 0x402005)).2 _ described]
  decide

section Reading

theorem hex_text_injective {left right : Nat} (same : hexText left = hexText right) :
    left = right := by
  rw [← hex_value_text left, same, hex_value_text]

theorem inside_text_last (name : Text) (offset : Nat) :
    ∀ c ∈ (insideText name offset).getLast?, isHexDigit c = true := by
  have some : hexText offset ≠ [] := Nat.toDigits_ne_nil
  rw [insideText, List.getLast?_append_of_ne_nil _ some]
  intro c last
  exact hex_text_digits offset c (List.mem_of_getLast? last)

theorem outside_text_last (address : Nat) : (outsideText address).getLast? = some ')' := by
  have some : " (outside the probe's code)".toList ≠ [] := by decide
  rw [outsideText, List.getLast?_append_of_ne_nil _ some]
  rfl

theorem outside_text_injective {left right : Nat} (same : outsideText left = outsideText right) :
    left = right := by
  rw [outsideText, outsideText] at same
  exact hex_text_injective (List.append_cancel_left (List.append_cancel_right same))

theorem inside_ne_outside (name : Text) (offset address : Nat) :
    insideText name offset ≠ outsideText address := by
  intro same
  have last := inside_text_last name offset
  rw [same, outside_text_last] at last
  exact absurd (last ')' rfl) (by decide)

end Reading

/-- The names in the table. -/
def namesOf (binary : Binary) (payload : Payload) : List Text :=
  "memset".toList :: payload.order.map (fun placed => shortName placed.body.function.demangled) ++
    (trapAddrs payload.closure).map (trapName binary payload.closure)

theorem named_extents_names (hand : HandWritten) (binary : Binary) (payload : Payload)
    (places : Label → Nat) :
    (namedExtents hand binary payload places).map Prod.snd = namesOf binary payload := by
  have functions : payload.order.map (fun placed => shortName placed.body.function.demangled) =
      (payload.laid hand).map fun laid => shortName laid.1.body.function.demangled := by
    rw [← starts_functions (functionsStart hand payload.closure payload.entry) payload.order,
      List.map_map]
    rfl
  have traps : (trapAddrs payload.closure).map (trapName binary payload.closure) =
      (trapAddrs payload.closure).zipIdx.map fun trap =>
        trapName binary payload.closure trap.1 := by
    rw [← List.zipIdx_map_fst 0 (trapAddrs payload.closure), List.map_map]
    simp
  rw [namedExtents, namesOf, functions, traps, List.map_append, List.map_cons, List.map_map,
    List.map_map]
  rfl

theorem hex_text_length (word : FunctionTable.Word) : (hexText word.toNat).length ≤ 16 :=
  (Nat.length_toDigits_le_iff (by decide) (by decide)).mpr word.isLt

/-- A description fits where the names in the table do. -/
theorem described_fits {hand : HandWritten} {binary : Binary} {payload : Payload} {base : Nat}
    (short : ∀ name ∈ namesOf binary payload, name.length ≤ 140) {address : FunctionTable.Word}
    {text : Text} (described : Described hand binary payload base address.toNat text) :
    text.length ≤ 159 := by
  rcases described_cases described with ⟨named, member, offset, _, place, rfl⟩ | ⟨_, rfl⟩
  · have name : named.2.length ≤ 140 := by
      apply short
      rw [← named_extents_names hand binary payload (loadedAt base (payload.text hand))]
      exact List.mem_map_of_mem member
    have bound := address.isLt
    have small : offset < 16 ^ 16 := by omega
    have digits : (hexText offset).length ≤ 16 :=
      (Nat.length_toDigits_le_iff (by decide) (by decide)).mpr small
    have sign : "+0x".toList.length = 3 := rfl
    rw [insideText, List.length_append, List.length_append, sign]
    omega
  · have digits := hex_text_length address
    have front : "0x".toList.length = 2 := rfl
    have behind : " (outside the probe's code)".toList.length = 27 := rfl
    rw [outsideText, List.length_append, List.length_append, front, behind]
    omega

/-- Two addresses are described alike exactly when they are one, or at one offset in
two rows of one name. -/
theorem same_description_iff (hand : HandWritten) (binary : Binary) (fuel : Nat)
    (payload : Payload) (base : Nat) (generated : generate binary fuel = some (.ok payload))
    (exact : ∀ body ∈ payload.closure.chosen, EndsExactly body)
    (fits : base + behind 0 (payload.text hand) < 2 ^ 64)
    (short : ∀ name ∈ namesOf binary payload, name.length ≤ 140)
    (left right : FunctionTable.Word) :
    let rows := namedTable hand binary payload (loadedAt base (payload.text hand))
    describeAddress rows left = describeAddress rows right ↔
      left = right ∨ ∃ name offset,
        Described hand binary payload base left.toNat (insideText name offset) ∧
          Described hand binary payload base right.toNat (insideText name offset) := by
  have known := generated_of_ok hand generated exact
  intro rows
  have text : ∀ {address : FunctionTable.Word} {text : Text},
      Described hand binary payload base address.toNat text →
        describeAddress rows address = text := by
    intro address text described
    rw [described_text known fits described,
      List.take_of_length_le (described_fits short described)]
  constructor
  · intro same
    obtain ⟨here, hereText⟩ : ∃ text, Described hand binary payload base left.toNat text :=
      exists_described left.toNat
    obtain ⟨there, thereText⟩ : ∃ text, Described hand binary payload base right.toNat text :=
      exists_described right.toNat
    rw [text hereText, text thereText] at same
    subst same
    rcases described_cases hereText with ⟨named, _, offset, _, _, rfl⟩ | ⟨_, rfl⟩
    · exact Or.inr ⟨named.2, offset, hereText, thereText⟩
    · rcases described_cases thereText with ⟨_, _, _, _, _, alike⟩ | ⟨_, alike⟩
      · exact absurd alike.symm (inside_ne_outside _ _ _)
      · exact Or.inl (BitVec.eq_of_toNat_eq (outside_text_injective alike))
  · rintro (rfl | ⟨name, offset, here, there⟩)
    · rfl
    · rw [text here, text there]

theorem same_description_iff_sample :
    describeAddress (namedTable noCode sample samplePayload
          (loadedAt 0x400000 (samplePayload.text noCode))) (BitVec.ofNat 64 0x402005) =
        describeAddress (namedTable noCode sample samplePayload
          (loadedAt 0x400000 (samplePayload.text noCode))) (BitVec.ofNat 64 0x401005) ↔
      BitVec.ofNat 64 0x402005 = BitVec.ofNat 64 0x401005 ∨ ∃ name offset,
        Described noCode sample samplePayload 0x400000 0x402005 (insideText name offset) ∧
          Described noCode sample samplePayload 0x400000 0x401005 (insideText name offset) := by
  have short : ∀ name ∈ namesOf sample samplePayload, name.length ≤ 140 := by decide
  exact same_description_iff noCode sample 20 samplePayload 0x400000 sample_generated sample_exact
    (by decide) short (BitVec.ofNat 64 0x402005) (BitVec.ofNat 64 0x401005)

end SdcProbe.FaultNames
