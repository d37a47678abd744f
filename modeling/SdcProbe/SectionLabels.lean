import Mathlib.Data.List.Nodup
import SdcProbe.FunctionLookup
import SdcProbe.RbxRun
import SdcProbe.TransplantedBytes

/-!
# The labels of the section

The file can be assembled and linked when no label is defined twice and every label
that is referred to is defined, in the section or in the data behind it. The labels
around `emit_i16` are the ones that `sdc_rbx_is_signature` compares with.
-/

namespace SdcProbe.SectionLabels

open Disassembly SymbolTable CallGraph ClosureInvariant ClosureExactness BranchTargets AssemblerText
open Relocation References Layout Emission MemsetCode FunctionTable PageOffsets Generator
open TransplantedBytes FunctionLookup

set_option autoImplicit false

def labelOf : Item → Option Label
  | .label label => some label
  | _ => none

def referenceOf : Item → Option Label
  | .long symbol _ => some symbol.label
  | _ => none

def labelsOf (items : List Item) : List Label := items.filterMap labelOf

def referencesOf (items : List Item) : List Label := items.filterMap referenceOf

/-- The labels of `FOOTER` that a transplanted function can refer to. -/
def footerLabels : List Label :=
  [.data .realMemset, .data .midBeg, .data .midEnd, .data .highEnd, .data .detectUar,
    .data .canPoison, .dummy]

/-- The labels that `sdc_rbx_memset_inject` and `rbx.cpp` refer to. -/
def handReferences : List Label := [.emitI16, .emitI16End, .memset, .data .realMemset]

/-- The labels in the rows of `sdc_rbx_functions`. -/
def rowReferences (payload : Payload) : List Label :=
  .memset :: payload.order.map (fun placed =>
      fnLabel payload.closure placed.body.function.addr) ++
    (List.range (trapAddrs payload.closure).length).map Label.trap

/-- No label twice, and none missing. -/
structure Assembles (hand : HandWritten) (payload : Payload) : Prop where
  once : (labelsOf (payload.text hand) ++ footerLabels).Nodup
  defined : ∀ label ∈ referencesOf (payload.text hand) ++ handReferences ++ rowReferences payload,
    label ∈ labelsOf (payload.text hand) ++ footerLabels

def AtMostOneEmitI16 (closure : Closure) : Prop :=
  ∀ f ∈ functionsOf closure.chosen, ∀ g ∈ functionsOf closure.chosen,
    isEmitI16 f → isEmitI16 g → f = g

def OneEmitI16 (closure : Closure) : Prop :=
  ∃! f, f ∈ functionsOf closure.chosen ∧ isEmitI16 f

section Parts

theorem labels_append (front rear : List Item) :
    labelsOf (front ++ rear) = labelsOf front ++ labelsOf rear := List.filterMap_append

theorem references_append (front rear : List Item) :
    referencesOf (front ++ rear) = referencesOf front ++ referencesOf rear :=
  List.filterMap_append

theorem labels_of_spans {items : List Item} {length : Nat} (spans : Spans items length) :
    labelsOf items = [] := by
  rw [labelsOf, List.filterMap_eq_nil_iff]
  intro item member
  cases item with
  | label label => exact absurd member (spans.unlabelled label)
  | bytes raw => rfl
  | long symbol tail => rfl
  | skip count => rfl
  | align boundary => rfl

variable {binary : Binary} {closure : Closure} {f : Symbol} {line : Line} {items : List Item}

/-- A line refers to a label for what its operand outside the function is. -/
theorem line_reference (itemsOf : ItemsOf binary closure f line items) {label : Label}
    (member : label ∈ referencesOf items) :
    ∃ outside symbol, outward f line = some outside ∧
      Refers binary closure line outside symbol ∧ symbol.label = label := by
  cases itemsOf with
  | verbatim _ _ => cases member
  | threadPointer _ => cases member
  | @relocated outside symbol pos _ leaves refers _ _ =>
      have only : referencesOf (relocated line.raw pos symbol) = [symbol.label] := by
        unfold relocated
        dsimp only
        split_ifs
        · rfl
        · rfl
      rw [only] at member
      exact ⟨outside, symbol, leaves, refers, (List.mem_singleton.mp member).symm⟩

theorem lines_references {reading last : Reading} {lines : List Line}
    (emitted : emitLines binary closure f reading lines = .ok (items, last)) {label : Label}
    (member : label ∈ referencesOf items) :
    ∃ line ∈ lines, ∃ outside symbol, outward f line = some outside ∧
      Refers binary closure line outside symbol ∧ symbol.label = label := by
  induction lines generalizing reading items with
  | nil =>
      cases emitted
      cases member
  | cons line rest ih =>
      obtain ⟨first, next, more, one, others, rfl⟩ :=
        (emit_lines_cons_iff reading last line rest items).mp emitted
      rw [references_append, List.mem_append] at member
      cases member with
      | inl here =>
          exact ⟨line, List.mem_cons_self, line_reference (line_items one) here⟩
      | inr later =>
          obtain ⟨other, inside, found⟩ := ih others later
          exact ⟨other, List.mem_cons_of_mem _ inside, found⟩

/-- The labels of a function. -/
def functionLabels (closure : Closure) (placed : Placed) : List Label :=
  (if isEmitI16 placed.body.function then [Label.emitI16] else []) ++
    fnLabel closure placed.body.function.addr ::
      if isEmitI16 placed.body.function then [Label.emitI16End] else []

/-- What is emitted for a function. -/
theorem function_items {placed : Placed} {reads last : Nat}
    (emitted : emitFunction binary closure placed reads = .ok (items, last)) :
    ∃ code reading, emitLines binary closure placed.body.function { tlsReads := reads }
        placed.body.lines = .ok (code, reading) ∧
      items = (if placed.pad ≠ 0 then [.skip placed.pad] else []) ++
        (if isEmitI16 placed.body.function then [.label .emitI16] else []) ++
        .label (fnLabel closure placed.body.function.addr) :: code ++
        if isEmitI16 placed.body.function then [.label .emitI16End] else [] := by
  unfold emitFunction at emitted
  dsimp only at emitted
  split at emitted
  · cases emitted
  · next code reading lines =>
      cases emitted
      exact ⟨code, reading, lines, rfl⟩

theorem function_labels {placed : Placed} {reads last : Nat}
    (emitted : emitFunction binary closure placed reads = .ok (items, last)) :
    labelsOf items = functionLabels closure placed := by
  obtain ⟨code, reading, lines, rfl⟩ := function_items emitted
  have plain := labels_of_spans (emit_lines_spans lines)
  have cons : ∀ label rest, labelsOf (.label label :: rest) = label :: labelsOf rest :=
    fun _ _ => rfl
  rw [functionLabels]
  simp only [labels_append, List.cons_append, cons, plain, List.nil_append, List.append_assoc]
  split_ifs <;> rfl

theorem functions_labels {order : List Placed} {reads last : Nat}
    (emitted : emitFunctions binary closure reads order = .ok (items, last)) :
    labelsOf items = order.flatMap (functionLabels closure) := by
  induction order generalizing reads items with
  | nil =>
      cases emitted
      rfl
  | cons placed rest ih =>
      obtain ⟨first, next, more, one, others, rfl⟩ :=
        (emit_functions_cons_iff reads last placed rest items).mp emitted
      rw [labels_append, function_labels one, ih others, List.flatMap_cons]

theorem functions_references {order : List Placed} {reads last : Nat}
    (emitted : emitFunctions binary closure reads order = .ok (items, last)) {label : Label}
    (member : label ∈ referencesOf items) :
    ∃ placed ∈ order, ∃ line ∈ placed.body.lines, ∃ outside symbol,
      outward placed.body.function line = some outside ∧
      Refers binary closure line outside symbol ∧ symbol.label = label := by
  induction order generalizing reads items with
  | nil =>
      cases emitted
      cases member
  | cons placed rest ih =>
      obtain ⟨first, next, more, one, others, rfl⟩ :=
        (emit_functions_cons_iff reads last placed rest items).mp emitted
      rw [references_append, List.mem_append] at member
      cases member with
      | inl here =>
          obtain ⟨code, reading, lines, rfl⟩ := function_items one
          have cons : ∀ label rest, referencesOf (.label label :: rest) = referencesOf rest :=
            fun _ _ => rfl
          have filling : referencesOf (if placed.pad ≠ 0 then [.skip placed.pad] else []) = [] := by
            split_ifs <;> rfl
          have label : ∀ label, referencesOf
              (if isEmitI16 placed.body.function then [.label label] else []) = [] := by
            intro label
            split_ifs <;> rfl
          simp only [references_append, cons, filling, label, List.nil_append, List.append_nil]
            at here
          exact ⟨placed, List.mem_cons_self, lines_references lines here⟩
      | inr later =>
          obtain ⟨other, inside, found⟩ := ih others later
          exact ⟨other, List.mem_cons_of_mem _ inside, found⟩

end Parts

section Front

variable (hand : HandWritten) (payload : Payload)

theorem header_labels : labelsOf (headerItems hand payload.closure payload.entry) =
    [.memset, .memsetStos, .memsetSmall] := rfl

theorem header_references {label : Label}
    (member : label ∈ referencesOf (headerItems hand payload.closure payload.entry)) :
    label = .memsetSmall ∨ label = .memsetStos ∨
      label = fnLabel payload.closure payload.entry.addr := by
  have all : referencesOf (headerItems hand payload.closure payload.entry) =
      [.memsetSmall, .memsetStos, .memsetStos, .memsetStos, .memsetStos,
        fnLabel payload.closure payload.entry.addr] := rfl
  rw [all] at member
  simp only [List.mem_cons, List.not_mem_nil, or_false, or_self_left] at member
  exact member

theorem trap_labels (closure : Closure) :
    labelsOf (trapItems closure) = (List.range (trapAddrs closure).length).map Label.trap := by
  rw [trapItems, labelsOf, List.filterMap_flatMap, List.map_eq_flatMap]
  rfl

theorem trap_references (closure : Closure) : referencesOf (trapItems closure) = [] := by
  rw [trapItems, referencesOf, List.filterMap_flatMap]
  simp [referenceOf]

/-- The labels that every output has: of the hand-written code, the stubs and the data. -/
def fixedLabels : List Label :=
  [.memset, .memsetStos, .memsetSmall] ++
    (List.range (trapAddrs payload.closure).length).map Label.trap ++ footerLabels

theorem fixed_nodup : (fixedLabels payload).Nodup := by
  have traps : ((List.range (trapAddrs payload.closure).length).map Label.trap).Nodup :=
    List.nodup_range.map fun _ _ same => Label.trap.inj same
  rw [fixedLabels, List.nodup_append, List.nodup_append]
  refine ⟨⟨by decide, traps, ?_⟩, by decide, ?_⟩
  · intro left first right second
    obtain ⟨index, _, rfl⟩ := List.mem_map.mp second
    rintro rfl
    simp at first
  · intro left first right second
    rintro rfl
    rw [List.mem_append, List.mem_map] at first
    rcases first with hand | ⟨index, _, rfl⟩
    · simp only [footerLabels, List.mem_cons, List.not_mem_nil, or_false] at hand second
      rcases hand with rfl | rfl | rfl <;> simp at second
    · simp [footerLabels] at second

end Front

section Functions

variable {hand : HandWritten} {binary : Binary} {payload : Payload}

theorem function_label_cases {closure : Closure} {placed : Placed} {label : Label}
    (member : label ∈ functionLabels closure placed) :
    label = fnLabel closure placed.body.function.addr ∨
      isEmitI16 placed.body.function ∧ (label = .emitI16 ∨ label = .emitI16End) := by
  unfold functionLabels at member
  split_ifs at member with emits
  · simp only [List.cons_append, List.nil_append, List.mem_cons, List.not_mem_nil, or_false]
      at member
    rcases member with first | middle | last
    · exact Or.inr ⟨emits, Or.inl first⟩
    · exact Or.inl middle
    · exact Or.inr ⟨emits, Or.inr last⟩
  · exact Or.inl (List.mem_singleton.mp member)

theorem function_labels_nodup (closure : Closure) (placed : Placed) :
    (functionLabels closure placed).Nodup := by
  unfold functionLabels fnLabel
  split_ifs <;> simp

theorem fixed_not_in_function {closure : Closure} {placed : Placed} {label : Label}
    (member : label ∈ functionLabels closure placed) : label ∉ fixedLabels payload := by
  intro fixed
  simp only [fixedLabels, footerLabels, List.mem_append, List.mem_cons, List.mem_map,
    List.not_mem_nil, or_false] at fixed
  rcases function_label_cases member with rfl | ⟨_, rfl | rfl⟩
  · simp [fnLabel] at fixed
  · simp at fixed
  · simp at fixed

theorem order_addrs_nodup {order : List Placed}
    (closed : Closed binary payload.entry payload.closure)
    (perm : (order.map Placed.body).Perm payload.closure.chosen) :
    (order.map (·.body.function.addr)).Nodup := by
  have mapped := perm.map (·.function.addr)
  rw [List.map_map] at mapped
  have distinct := closed.distinct
  rw [addrs_of_functions] at distinct
  exact mapped.nodup_iff.mpr distinct

theorem ordered_of_chosen (perm : (payload.order.map Placed.body).Perm payload.closure.chosen)
    {f : Symbol} (member : f ∈ functionsOf payload.closure.chosen) :
    ∃ placed ∈ payload.order, placed.body.function = f := by
  obtain ⟨body, inside, rfl⟩ := List.mem_map.mp member
  obtain ⟨placed, listed, rfl⟩ := List.mem_map.mp (perm.mem_iff.mpr inside)
  exact ⟨placed, listed, rfl⟩

/-- The labels of the functions differ exactly where there is one `emit_i16` at most. -/
theorem functions_nodup_iff (closed : Closed binary payload.entry payload.closure)
    (perm : (payload.order.map Placed.body).Perm payload.closure.chosen) :
    (payload.order.flatMap (functionLabels payload.closure)).Nodup ↔
      AtMostOneEmitI16 payload.closure := by
  have nodup := order_addrs_nodup closed perm
  have chosen : ∀ placed ∈ payload.order,
      placed.body.function ∈ functionsOf payload.closure.chosen :=
    fun placed member => List.mem_map_of_mem (perm.mem_iff.mp (List.mem_map_of_mem member))
  rw [List.nodup_flatMap]
  constructor
  · rintro ⟨_, apart⟩ f first g second emits also
    obtain ⟨left, leftListed, rfl⟩ := ordered_of_chosen perm first
    obtain ⟨right, rightListed, rfl⟩ := ordered_of_chosen perm second
    by_contra differ
    have other : left ≠ right := fun same => differ (congrArg (·.body.function) same)
    have : Std.Symm (Function.onFun List.Disjoint (functionLabels payload.closure)) :=
      ⟨fun _ _ disjoint => disjoint.symm⟩
    have disjoint := apart.forall leftListed rightListed other
    have inLeft : Label.emitI16 ∈ functionLabels payload.closure left := by
      rw [functionLabels, if_pos emits]
      exact List.mem_cons_self
    have inRight : Label.emitI16 ∈ functionLabels payload.closure right := by
      rw [functionLabels, if_pos also]
      exact List.mem_cons_self
    exact disjoint inLeft inRight
  · intro one
    constructor
    · exact fun placed _ => function_labels_nodup payload.closure placed
    · rw [List.Nodup, List.pairwise_map] at nodup
      apply nodup.imp_of_mem
      intro left right first second differ label inLeft inRight
      have emits : isEmitI16 left.body.function → ¬ isEmitI16 right.body.function := by
        intro here there
        have same := one _ (chosen left first) _ (chosen right second) here there
        exact differ (congrArg Symbol.addr same)
      have known : left.body.function.addr ∈ chosenAddrs payload.closure := by
        rw [mem_chosen_addrs, ← addrs_of_functions]
        exact List.mem_map_of_mem (chosen left first)
      rcases function_label_cases inLeft with rfl | ⟨here, rfl | rfl⟩
      · rcases function_label_cases inRight with same | ⟨_, same | same⟩
        · exact differ (fn_label_injective known same)
        · cases same
        · cases same
      · rcases function_label_cases inRight with same | ⟨there, _⟩
        · cases same
        · exact emits here there
      · rcases function_label_cases inRight with same | ⟨there, _⟩
        · cases same
        · exact emits here there

theorem text_labels (hand : HandWritten) {reads : Nat}
    (written : emitFunctions binary payload.closure 0 payload.order =
      .ok (payload.functions, reads)) :
    (labelsOf (payload.text hand) ++ footerLabels).Perm
      (payload.order.flatMap (functionLabels payload.closure) ++ fixedLabels payload) := by
  rw [Payload.text, frontItems, labels_append, labels_append, labels_append, header_labels,
    trap_labels, functions_labels written, fixedLabels]
  have none : labelsOf [.align page] = [] := rfl
  rw [none, List.append_nil, ← List.append_assoc]
  exact List.perm_append_comm.append_right footerLabels

theorem references_defined (closed : Closed binary payload.entry payload.closure)
    (perm : (payload.order.map Placed.body).Perm payload.closure.chosen) {reads : Nat}
    (written : emitFunctions binary payload.closure 0 payload.order =
      .ok (payload.functions, reads)) {label : Label}
    (member : label ∈ referencesOf (payload.text hand)) :
    label ∈ payload.order.flatMap (functionLabels payload.closure) ++ fixedLabels payload := by
  have function : ∀ addr ∈ chosenAddrs payload.closure,
      fnLabel payload.closure addr ∈ payload.order.flatMap (functionLabels payload.closure) := by
    intro addr known
    rw [mem_chosen_addrs] at known
    obtain ⟨body, chosen, rfl⟩ := List.mem_map.mp known
    obtain ⟨placed, listed, rfl⟩ := List.mem_map.mp (perm.mem_iff.mpr chosen)
    refine List.mem_flatMap.mpr ⟨placed, listed, ?_⟩
    exact List.mem_append_right _ List.mem_cons_self
  have trap : ∀ addr ∈ trapAddrs payload.closure,
      trapLabel payload.closure addr ∈ fixedLabels payload := by
    intro addr known
    have inside := List.idxOf_lt_length_iff.mpr known
    rw [fixedLabels, List.mem_append, List.mem_append]
    exact Or.inl (Or.inr (List.mem_map_of_mem (List.mem_range.mpr inside)))
  rw [Payload.text, frontItems, references_append, references_append, references_append,
    trap_references] at member
  have none : referencesOf [.align page] = [] := rfl
  rw [none, List.append_nil, List.append_nil, List.mem_append] at member
  cases member with
  | inl header =>
      rcases header_references hand payload header with rfl | rfl | rfl
      · exact List.mem_append_right _ (by simp [fixedLabels])
      · exact List.mem_append_right _ (by simp [fixedLabels])
      · apply List.mem_append_left
        apply function
        rw [mem_chosen_addrs, ← addrs_of_functions]
        exact List.mem_map_of_mem ((closed.chosen payload.entry).mpr .refl)
  | inr later =>
      obtain ⟨_, _, line, _, outside, symbol, _, refers, rfl⟩ := functions_references written later
      rcases refers with code | ⟨_, _, data⟩
      · unfold codeRef at code
        split_ifs at code with chosen trapped
        · cases code
          exact List.mem_append_left _ (function _ chosen)
        · cases code
          exact List.mem_append_right _ (trap _ trapped)
        · split at code
          · cases code
          · split_ifs at code with inside
            cases code
            exact List.mem_append_left _ (function _ inside)
      · apply List.mem_append_right
        unfold dataRef at data
        have dummy : ∀ shown symbol, coldRef shown = .ok symbol → symbol.label = .dummy := by
          intro shown symbol cold
          unfold coldRef at cold
          split_ifs at cold
          cases cold
          rfl
        split at data
        · rw [dummy _ _ data]
          simp [fixedLabels, footerLabels]
        · split at data
          · next special _ =>
              cases data
              cases special <;> simp [fixedLabels, footerLabels]
          · rw [dummy _ _ data]
            simp [fixedLabels, footerLabels]

theorem labels_nodup_iff (hand : HandWritten)
    (closed : Closed binary payload.entry payload.closure)
    (perm : (payload.order.map Placed.body).Perm payload.closure.chosen) {reads : Nat}
    (written : emitFunctions binary payload.closure 0 payload.order =
      .ok (payload.functions, reads)) :
    (labelsOf (payload.text hand) ++ footerLabels).Nodup ↔ AtMostOneEmitI16 payload.closure := by
  rw [← functions_nodup_iff closed perm, (text_labels hand written).nodup_iff, List.nodup_append]
  constructor
  · exact And.left
  · intro functions
    refine ⟨functions, fixed_nodup payload, ?_⟩
    intro left first right second
    rintro rfl
    obtain ⟨placed, _, member⟩ := List.mem_flatMap.mp first
    exact fixed_not_in_function member second

theorem hand_references_defined
    (perm : (payload.order.map Placed.body).Perm payload.closure.chosen) {f : Symbol}
    (chosen : f ∈ functionsOf payload.closure.chosen) (emits : isEmitI16 f) {label : Label}
    (member : label ∈ handReferences) :
    label ∈ payload.order.flatMap (functionLabels payload.closure) ++ fixedLabels payload := by
  obtain ⟨placed, listed, rfl⟩ := ordered_of_chosen perm chosen
  have own : ∀ label ∈ functionLabels payload.closure placed,
      label ∈ payload.order.flatMap (functionLabels payload.closure) ++ fixedLabels payload :=
    fun label inside => List.mem_append_left _ (List.mem_flatMap.mpr ⟨placed, listed, inside⟩)
  simp only [handReferences, List.mem_cons, List.not_mem_nil, or_false] at member
  rcases member with rfl | rfl | rfl | rfl
  · apply own
    simp [functionLabels, emits]
  · apply own
    simp [functionLabels, emits]
  · exact List.mem_append_right _ (by simp [fixedLabels])
  · exact List.mem_append_right _ (by simp [fixedLabels, footerLabels])

theorem row_references_defined {label : Label} (member : label ∈ rowReferences payload) :
    label ∈ payload.order.flatMap (functionLabels payload.closure) ++ fixedLabels payload := by
  rw [rowReferences, List.mem_append, List.mem_cons, List.mem_map] at member
  rcases member with (rfl | ⟨placed, listed, rfl⟩) | trap
  · exact List.mem_append_right _ (by simp [fixedLabels])
  · apply List.mem_append_left
    exact List.mem_flatMap.mpr ⟨placed, listed, List.mem_append_right _ List.mem_cons_self⟩
  · apply List.mem_append_right
    exact List.mem_append_left _ (List.mem_append_right _ trap)

end Functions

/-- The file can be assembled and linked exactly when one of the copied functions is
an `emit_i16`, and only one. -/
theorem section_assembles_iff (hand : HandWritten) (binary : Binary) (fuel : Nat)
    (payload : Payload) (generated : generate binary fuel = some (.ok payload)) :
    Assembles hand payload ↔ OneEmitI16 payload.closure := by
  obtain ⟨found, closes, lays, emits⟩ := generate_ok generated
  have closed := closure_closed (entry_listed found) closes
  obtain ⟨perm, _⟩ := layout_ok lays
  obtain ⟨reads, written⟩ := emission_ok emits
  have once := labels_nodup_iff hand closed perm written
  have labels := text_labels hand written
  constructor
  · intro assembles
    have referred : Label.emitI16 ∈
        referencesOf (payload.text hand) ++ handReferences ++ rowReferences payload :=
      List.mem_append_left _ (List.mem_append_right _ List.mem_cons_self)
    have defined := assembles.defined _ referred
    rw [labels.mem_iff, List.mem_append] at defined
    cases defined with
    | inl inside =>
        obtain ⟨placed, listed, member⟩ := List.mem_flatMap.mp inside
        have chosen : placed.body.function ∈ functionsOf payload.closure.chosen :=
          List.mem_map_of_mem (perm.mem_iff.mp (List.mem_map_of_mem listed))
        rcases function_label_cases member with same | ⟨emitting, _⟩
        · cases same
        · apply ExistsUnique.intro placed.body.function ⟨chosen, emitting⟩
          intro other ⟨member, also⟩
          exact once.mp assembles.once other member _ chosen also emitting
    | inr fixed => simp [fixedLabels, footerLabels] at fixed
  · rintro ⟨f, ⟨chosen, emitting⟩, single⟩
    constructor
    · apply once.mpr
      intro g first h second here there
      rw [single g ⟨first, here⟩, single h ⟨second, there⟩]
    · intro label member
      rw [labels.mem_iff]
      rw [List.mem_append, List.mem_append] at member
      rcases member with (text | hand) | row
      · exact references_defined closed perm written text
      · exact hand_references_defined perm chosen emitting hand
      · exact row_references_defined row

theorem section_assembles_iff_sample : Assembles noCode samplePayload := by
  apply (section_assembles_iff noCode sample 20 samplePayload sample_generated).mpr
  have one : ∀ f ∈ functionsOf samplePayload.closure.chosen, isEmitI16 f → f = sampleEmit := by
    decide
  exact ⟨sampleEmit, by decide, fun f known => one f known.1 known.2⟩

section Window

variable {hand : HandWritten} {binary : Binary} {payload : Payload}

/-- What is emitted for one of the functions, with its filling before its place. -/
theorem emitted_part {closure : Closure} {order : List Placed} {reads last here : Nat}
    {items : List Item} (tiled : ∀ placed ∈ order, EndsExactly placed.body)
    (emitted : emitFunctions binary closure reads order = .ok (items, last))
    {placed : Placed} {start : Nat} (member : (placed, start) ∈ starts here order) :
    ∃ front part rear reads last, items = front ++ part ++ rear ∧
      behind here front + placed.pad = start ∧
      emitFunction binary closure placed reads = .ok (part, last) := by
  induction order generalizing reads here items with
  | nil => cases member
  | cons first rest ih =>
      obtain ⟨items, next, more, one, others, rfl⟩ :=
        (emit_functions_cons_iff reads last first rest items).mp emitted
      cases List.mem_cons.mp member with
      | inl this =>
          cases this
          exact ⟨[], items, more, reads, next, rfl, rfl, one⟩
      | inr later =>
          have whole := emit_function_size (tiled first List.mem_cons_self) one here
          obtain ⟨front, part, rear, before, after, rfl, place, emits⟩ :=
            ih (fun other inside => tiled other (List.mem_cons_of_mem _ inside)) others later
          refine ⟨items ++ front, part, rear, before, after, ?_, ?_, emits⟩
          · simp only [List.append_assoc]
          · rw [behind_append, whole, place]

/-- A label that is there once is defined where it stands. -/
theorem defined_of_nodup {front rear : List Item} {label : Label}
    (nodup : (labelsOf (front ++ .label label :: rear)).Nodup) :
    definedAt label 0 (front ++ .label label :: rear) = some (behind 0 front) := by
  have absent : .label label ∉ front := by
    intro member
    have first : label ∈ labelsOf front := List.mem_filterMap.mpr ⟨_, member, rfl⟩
    have second : label ∈ labelsOf (.label label :: rear) := List.mem_cons_self
    rw [labels_append, List.nodup_append] at nodup
    exact nodup.2.2 label first label second rfl
  rw [defined_at_append _ _ _ _ absent, definedAt, if_pos rfl]

/-- The two labels stand at the start and at the end of `emit_i16`. -/
theorem window_defined (known : Generated hand binary payload)
    (one : AtMostOneEmitI16 payload.closure) {placed : Placed} {start : Nat}
    (member : (placed, start) ∈ payload.laid hand)
    (emits : isEmitI16 placed.body.function) :
    definedAt .emitI16 0 (payload.text hand) = some start ∧
      definedAt .emitI16End 0 (payload.text hand) =
        some (start + placed.body.function.size) := by
  obtain ⟨reads, written⟩ := known.written
  have all := (labels_nodup_iff hand known.closed known.perm written).mpr one
  have nodup : (labelsOf (payload.text hand)).Nodup := (List.nodup_append.mp all).1
  obtain ⟨front, part, rear, before, after, split, place, emitted⟩ :=
    emitted_part known.tiled written member
  obtain ⟨code, reading, lines, items⟩ := function_items emitted
  have exact := known.tiled placed (mem_of_starts member)
  have spans := emit_lines_spans lines
  rw [code_length_eq exact] at spans
  rw [if_pos emits, if_pos emits] at items
  have filling : ∀ here, behind here (if placed.pad ≠ 0 then [.skip placed.pad] else []) =
      here + placed.pad := by
    intro here
    split_ifs with pads
    · rfl
    · rw [not_not.mp pads]
      rfl
  have front_place : behind 0 (frontItems hand payload.closure payload.entry ++ front ++
      (if placed.pad ≠ 0 then [.skip placed.pad] else [])) = start := by
    rw [behind_append, filling, behind_append, ← functionsStart, place]
  have whole : payload.text hand =
      (frontItems hand payload.closure payload.entry ++ front ++
        (if placed.pad ≠ 0 then [.skip placed.pad] else [])) ++ .label .emitI16 ::
          (.label (fnLabel payload.closure placed.body.function.addr) :: code ++
            .label .emitI16End :: rear) := by
    rw [Payload.text, split, items]
    simp only [List.append_assoc, List.cons_append, List.nil_append]
  constructor
  · rw [whole] at nodup ⊢
    rw [defined_of_nodup nodup, front_place]
  · have again : payload.text hand =
        (frontItems hand payload.closure payload.entry ++ front ++
          (if placed.pad ≠ 0 then [.skip placed.pad] else []) ++ .label .emitI16 ::
            .label (fnLabel payload.closure placed.body.function.addr) :: code) ++
              .label .emitI16End :: rear := by
      rw [whole]
      simp only [List.append_assoc, List.cons_append]
    rw [again] at nodup ⊢
    rw [defined_of_nodup nodup, behind_append, front_place, behind_cons, behind_cons, spans.behind]
    rfl

end Window

/-- A fault has the signature exactly when the table has its address in the one copied
`emit_i16` and `rbx` is `0xa0` above `rsp`. -/
theorem signature_window (hand : HandWritten) (binary : Binary) (fuel : Nat) (payload : Payload)
    (base : Nat) (generated : generate binary fuel = some (.ok payload))
    (exact : ∀ body ∈ payload.closure.chosen, EndsExactly body)
    (assembles : Assembles hand payload)
    (fits : base + behind 0 (payload.text hand) < 2 ^ 64) (f : Symbol)
    (chosen : f ∈ functionsOf payload.closure.chosen) (emits : isEmitI16 f)
    (fault : Report.FaultRecord) :
    let places := loadedAt base (payload.text hand)
    RbxRun.isSignature (BitVec.ofNat 64 (places .emitI16)) (BitVec.ofNat 64 (places .emitI16End))
        fault = true ↔
      (∃ placed ∈ payload.order, placed.body.function = f ∧
        findFunction fault.rip (payload.table places) =
          some (fnRow places payload.closure placed)) ∧
        fault.rbx - fault.rsp = RbxRun.kRbxSignatureDelta := by
  intro places
  have known := generated_of_ok hand generated exact
  obtain ⟨reads, written⟩ := known.written
  have one := (labels_nodup_iff hand known.closed known.perm written).mp assembles.once
  obtain ⟨_, listed, same⟩ := ordered_of_chosen known.perm chosen
  rw [← starts_functions (functionsStart hand payload.closure payload.entry) payload.order]
    at listed
  obtain ⟨⟨placed, start⟩, laid, rfl⟩ := List.mem_map.mp listed
  rw [← same] at emits
  obtain ⟨first, last⟩ := window_defined known one laid emits
  have bounds := laid_bound known laid
  have begins : places .emitI16 = base + start := loaded_of_defined base first
  have ends : places .emitI16End = base + (start + placed.body.function.size) :=
    loaded_of_defined base last
  have inside : BitVec.ofNat 64 (places .emitI16) ≤ fault.rip ∧
      fault.rip < BitVec.ofNat 64 (places .emitI16End) ↔
        base + start ≤ fault.rip.toNat ∧
          fault.rip.toNat < base + (start + placed.body.function.size) := by
    rw [begins, ends, BitVec.le_def, BitVec.lt_def, BitVec.toNat_ofNat, BitVec.toNat_ofNat,
      Nat.mod_eq_of_lt (by omega), Nat.mod_eq_of_lt (by omega)]
  rw [RbxRun.isSignature, decide_eq_true_iff, ← and_assoc, inside]
  apply and_congr_left
  intro _
  constructor
  · rintro ⟨low, high⟩
    exact ⟨placed, mem_of_starts laid, same,
      (found_iff_owns known fits _ _).mpr (.function laid low high)⟩
  · rintro ⟨other, _, also, found⟩
    have covers := found_covers found
    have place := loaded_of_defined base (fn_defined known laid)
    rw [fnRow, also, ← same] at covers
    exact (entry_covers_iff _ place (by omega) _).mp covers

/-- The fault of the self-test: `ret` of `emit_i16`, with `rbx` off by `0xa0`. -/
def sampleFault : Report.FaultRecord :=
  { rip := 0x402005, rsp := 0x7000, rbp := 0, rbx := 0x70a0, rax := 0, rcx := 0, rdx := 0
    rsi := 0, rdi := 0 }

theorem sample_assembles : Assembles noCode samplePayload := by
  constructor
  · decide
  · decide

theorem signature_window_sample :
    ∃ placed ∈ samplePayload.order, placed.body.function = sampleEmit ∧
      findFunction sampleFault.rip
          (samplePayload.table (loadedAt 0x400000 (samplePayload.text noCode))) =
        some (fnRow (loadedAt 0x400000 (samplePayload.text noCode)) samplePayload.closure placed) :=
  ((signature_window noCode sample 20 samplePayload 0x400000 sample_generated sample_exact
    sample_assembles (by decide) sampleEmit (by decide) (by decide) sampleFault).mp (by decide)).1

end SdcProbe.SectionLabels
