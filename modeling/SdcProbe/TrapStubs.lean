import SdcProbe.Generator

/-!
# The trap stubs

One `ud2` for each address that the copied code could branch to and that was not
copied, eight bytes apart, in front of the transplanted functions.
-/

namespace SdcProbe.TrapStubs

open Disassembly SymbolTable CallGraph AssemblerText References Layout MemsetCode FunctionTable
open PageOffsets Generator

set_option autoImplicit false

def ud2 : List Byte := [0x0f, 0x0b]

section Stubs

def stubItems (index : Nat) : List Item := [.align 8, .label (.trap index), .bytes ud2]

/-- Where the first stub stands when the text before the stubs ends here. -/
def firstStub (here : Nat) : Nat := here + padding 8 here

theorem stub_items_behind (here index : Nat) :
    behind here (stubItems index) = firstStub here + 2 := rfl

theorem first_stub_behind (here : Nat) : firstStub (firstStub here + 2) = firstStub here + 8 := by
  unfold firstStub padding
  omega

theorem stubs_split (first count k here : Nat) (inside : k < count) :
    ∃ front rear, (List.range' first count).flatMap stubItems =
        front ++ .label (.trap (first + k)) :: .bytes ud2 :: rear ∧
      behind here front = firstStub here + 8 * k ∧ .label (.trap (first + k)) ∉ front := by
  induction k generalizing first count here with
  | zero =>
      cases count with
      | zero => cases inside
      | succ count =>
          refine ⟨[.align 8], (List.range' (first + 1) count).flatMap stubItems, rfl, rfl, ?_⟩
          simp
  | succ k ih =>
      cases count with
      | zero => cases inside
      | succ count =>
          obtain ⟨front, rear, split, place, absent⟩ :=
            ih (first + 1) count (firstStub here + 2) (Nat.lt_of_succ_lt_succ inside)
          have index : first + 1 + k = first + (k + 1) := by omega
          rw [index] at split absent
          refine ⟨stubItems first ++ front, rear, ?_, ?_, ?_⟩
          · rw [List.range'_succ, List.flatMap_cons, split, List.append_assoc]
          · rw [behind_append, stub_items_behind, place, first_stub_behind]
            omega
          · rw [List.mem_append, not_or]
            have other : first + (k + 1) ≠ first := by omega
            constructor
            · simp [stubItems]
            · exact absent

theorem stubs_behind (first count here : Nat) (some : 0 < count) :
    behind here ((List.range' first count).flatMap stubItems) =
      firstStub here + 8 * (count - 1) + 2 := by
  induction count generalizing first here with
  | zero => cases some
  | succ count ih =>
      rw [List.range'_succ, List.flatMap_cons, behind_append, stub_items_behind]
      cases count with
      | zero => rfl
      | succ count =>
          rw [ih (first + 1) _ (Nat.succ_pos count), first_stub_behind]
          omega

end Stubs

section Payload

variable (hand : HandWritten) (payload : Payload)

/-- Where the text before the stubs ends. -/
def stubsFrom : Nat := behind 0 (headerItems hand payload.closure payload.entry)

def stubPlace (index : Nat) : Nat := firstStub (stubsFrom hand payload) + 8 * index

theorem trap_items_eq (closure : Closure) :
    trapItems closure = (List.range' 0 (trapAddrs closure).length).flatMap stubItems := by
  rw [trapItems, List.range_eq_range']
  rfl

theorem trap_not_in_header (index : Nat) :
    .label (.trap index) ∉ headerItems hand payload.closure payload.entry := by
  simp [headerItems, memsetItems, jmpStos]

/-- A stub in the section: its label and `ud2`, before the transplanted functions. -/
theorem stub_split {index : Nat} (inside : index < (trapAddrs payload.closure).length) :
    ∃ front rear, payload.text hand =
        front ++ .label (.trap index) :: .bytes ud2 :: rear ∧
      behind 0 front = stubPlace hand payload index ∧ .label (.trap index) ∉ front := by
  obtain ⟨front, rear, split, place, absent⟩ :=
    stubs_split 0 (trapAddrs payload.closure).length index (stubsFrom hand payload) inside
  rw [Nat.zero_add] at split absent
  refine ⟨headerItems hand payload.closure payload.entry ++ front,
    rear ++ ([.align page] ++ payload.functions), ?_, ?_, ?_⟩
  · rw [Payload.text, frontItems, trap_items_eq, split]
    simp only [List.append_assoc, List.cons_append]
  · rw [behind_append]
    exact place
  · rw [List.mem_append, not_or]
    exact ⟨trap_not_in_header hand payload index, absent⟩

theorem stub_defined {index : Nat} (inside : index < (trapAddrs payload.closure).length) :
    definedAt (.trap index) 0 (payload.text hand) = some (stubPlace hand payload index) := by
  obtain ⟨front, rear, split, place, absent⟩ := stub_split hand payload inside
  rw [split, defined_at_append _ _ _ _ absent, definedAt, if_pos rfl, place]

theorem stub_before_functions {index : Nat} (inside : index < (trapAddrs payload.closure).length) :
    stubPlace hand payload index + 2 ≤ functionsStart hand payload.closure payload.entry := by
  have whole := stubs_behind 0 (trapAddrs payload.closure).length (stubsFrom hand payload)
    (Nat.zero_lt_of_lt inside)
  have ends := le_behind (behind 0 (headerItems hand payload.closure payload.entry ++
    trapItems payload.closure)) [.align page]
  rw [← behind_append, behind_append, trap_items_eq] at ends
  rw [functionsStart, frontItems, trap_items_eq, stubPlace]
  rw [stubsFrom] at whole
  rw [whole] at ends
  rw [stubsFrom]
  omega

end Payload

end SdcProbe.TrapStubs
