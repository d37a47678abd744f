import Mathlib.Algebra.Ring.Nat
import Mathlib.Data.List.Nodup
import Mathlib.Logic.Relation

/-!
# Exploring a graph

A search keeps the nodes it has done and a stack of nodes still to look at, and
tells nodes apart by a key. When the reachable nodes have keys of their own, what
it has done when the stack is empty is what can be reached. A bound on how many
nodes one puts on the stack bounds how often the stack is looked at.
-/

namespace Exploration

set_option autoImplicit false

variable {Node Key : Type*} (key : Node → Key)

def Known (done : List Node) (node : Node) : Prop := ∃ other ∈ done, key other = key node

instance [DecidableEq Key] (done : List Node) (node : Node) : Decidable (Known key done node) :=
  inferInstanceAs (Decidable (∃ other ∈ done, _))

theorem known_append (done more : List Node) (node : Node) :
    Known key (done ++ more) node ↔ Known key done node ∨ Known key more node := by
  simp only [Known, List.mem_append, or_and_right, exists_or]

theorem known_of_mem {done : List Node} {node : Node} (member : node ∈ done) :
    Known key done node := ⟨node, member, rfl⟩

section Search

variable (Next : Node → Node → Prop) (start : Node)

abbrev Reached (node : Node) : Prop := Relation.ReflTransGen Next start node

/-- What holds whenever the stack is looked at. -/
structure Exploring (done work : List Node) : Prop where
  sound : ∀ node ∈ done, Reached Next start node
  pending : ∀ node ∈ work, Reached Next start node ∨ Known key done node
  started : start ∈ done ∨ done = [] ∧ work = [start]
  closed : ∀ node ∈ done, ∀ next, Next node next → next ∈ done ∨ next ∈ work
  distinct : (done.map key).Nodup

variable {key Next start} {done rest pushed : List Node} {node : Node}

theorem exploring_start : Exploring key Next start [] [start] where
  sound := fun _ member => nomatch member
  pending := fun node member => by
    rw [List.mem_singleton.mp member]
    exact Or.inl .refl
  started := Or.inr ⟨rfl, rfl⟩
  closed := fun _ member => nomatch member
  distinct := List.nodup_nil

section Steps

variable (apart : ∀ left right, Reached Next start left → Reached Next start right →
  key left = key right → left = right)
include apart

theorem mem_of_known (exploring : Exploring key Next start done rest)
    (known : Known key done node) (reached : Reached Next start node) : node ∈ done := by
  obtain ⟨other, member, same⟩ := known
  rwa [← apart other node (exploring.sound other member) reached same]

/-- A node whose key is known is dropped. -/
theorem exploring_skip (known : Known key done node)
    (exploring : Exploring key Next start done (node :: rest)) :
    Exploring key Next start done rest where
  sound := exploring.sound
  pending := fun other member => exploring.pending other (List.mem_cons_of_mem _ member)
  started := by
    cases exploring.started with
    | inl started => exact Or.inl started
    | inr fresh =>
        obtain ⟨other, member, _⟩ := known
        rw [fresh.1] at member
        cases member
  closed := by
    intro visited member next edge
    cases exploring.closed visited member next edge with
    | inl finished => exact Or.inl finished
    | inr waiting =>
        cases List.mem_cons.mp waiting with
        | inl top =>
            have reached := (exploring.sound visited member).tail edge
            rw [top] at reached ⊢
            exact Or.inl (mem_of_known apart exploring known reached)
        | inr waiting => exact Or.inr waiting
  distinct := exploring.distinct

end Steps

/-- A new node is done, and where it leads goes on the stack. -/
theorem exploring_visit (fresh : ¬ Known key done node)
    (exploring : Exploring key Next start done (node :: rest))
    (leads : ∀ next ∈ pushed, Next node next ∨ key next = key start)
    (all : ∀ next, Next node next → next ∈ pushed) :
    Exploring key Next start (done ++ [node]) (pushed ++ rest) := by
  have reached : Reached Next start node := by
    cases exploring.pending node List.mem_cons_self with
    | inl reached => exact reached
    | inr known => exact absurd known fresh
  have started : start ∈ done ++ [node] := by
    cases exploring.started with
    | inl started => exact List.mem_append_left _ started
    | inr first =>
        rw [List.cons.injEq] at first
        rw [first.2.1]
        exact List.mem_append_right _ (List.mem_singleton_self start)
  constructor
  · intro visited member
    cases List.mem_append.mp member with
    | inl before => exact exploring.sound visited before
    | inr last => rwa [List.mem_singleton.mp last]
  · intro next member
    cases List.mem_append.mp member with
    | inl new =>
        cases leads next new with
        | inl edge => exact Or.inl (reached.tail edge)
        | inr same => exact Or.inr ⟨start, started, same.symm⟩
    | inr old =>
        cases exploring.pending next (List.mem_cons_of_mem _ old) with
        | inl reached => exact Or.inl reached
        | inr known => exact Or.inr ((known_append key done [node] next).mpr (Or.inl known))
  · exact Or.inl started
  · intro visited member next edge
    cases List.mem_append.mp member with
    | inl before =>
        cases exploring.closed visited before next edge with
        | inl finished => exact Or.inl (List.mem_append_left _ finished)
        | inr waiting =>
            cases List.mem_cons.mp waiting with
            | inl top =>
                rw [top]
                exact Or.inl (List.mem_append_right _ (List.mem_singleton_self node))
            | inr waiting => exact Or.inr (List.mem_append_right _ waiting)
    | inr last =>
        rw [List.mem_singleton.mp last] at edge
        exact Or.inr (List.mem_append_left _ (all next edge))
  · rw [List.map_append, List.nodup_append]
    constructor
    · exact exploring.distinct
    · constructor
      · exact List.nodup_singleton (key node)
      · intro left member right last same
        obtain ⟨other, found, rfl⟩ := List.mem_map.mp member
        rw [List.map_cons, List.map_nil, List.mem_singleton] at last
        exact fresh ⟨other, found, same.trans last⟩

/-- An empty stack leaves exactly what can be reached. -/
theorem exploring_end (exploring : Exploring key Next start done []) (node : Node) :
    node ∈ done ↔ Reached Next start node := by
  constructor
  · exact exploring.sound node
  · intro reached
    induction reached with
    | refl =>
        cases exploring.started with
        | inl started => exact started
        | inr first => cases first.2
    | tail _ edge ih =>
        cases exploring.closed _ ih _ edge with
        | inl finished => exact finished
        | inr waiting => cases waiting

end Search

section Measure

variable [DecidableEq Key] (weight : Node → Nat)

/-- The weight of the nodes that are not known. -/
def outstanding (done : List Node) : List Node → Nat
  | [] => 0
  | node :: rest => (if Known key done node then 0 else weight node) + outstanding done rest

theorem remaining_le (done more : List Node) (node : Node) :
    (if Known key (done ++ more) node then 0 else weight node) ≤
      if Known key done node then 0 else weight node := by
  by_cases known : Known key done node
  · rw [if_pos ((known_append key done more node).mpr (Or.inl known))]
    exact Nat.zero_le _
  · rw [if_neg known]
    split_ifs
    · exact Nat.zero_le _
    · exact Nat.le_refl _

theorem outstanding_le (done more all : List Node) :
    outstanding key weight (done ++ more) all ≤ outstanding key weight done all := by
  induction all with
  | nil => exact Nat.le_refl 0
  | cons node rest ih => exact Nat.add_le_add (remaining_le key weight done more node) ih

theorem outstanding_nil (all : List Node) :
    outstanding key weight [] all = (all.map weight).sum := by
  induction all with
  | nil => rfl
  | cons node rest ih =>
      rw [outstanding, ih, List.map_cons, List.sum_cons, if_neg]
      rintro ⟨_, none, _⟩
      cases none

theorem outstanding_visit {done all : List Node} {node : Node} (fresh : ¬ Known key done node)
    (member : node ∈ all) :
    weight node + outstanding key weight (done ++ [node]) all ≤
      outstanding key weight done all := by
  induction all with
  | nil => cases member
  | cons other rest ih =>
      rw [outstanding, outstanding]
      cases List.mem_cons.mp member with
      | inl same =>
          have added := List.mem_append_right done (List.mem_singleton_self other)
          have known := known_of_mem key added
          have less := outstanding_le key weight done [other] rest
          rw [same] at fresh ⊢
          rw [if_pos known, if_neg fresh]
          omega
      | inr later =>
          have less := ih later
          have kept := remaining_le key weight done [node] other
          omega

end Measure

end Exploration
