import Mathlib.Data.List.Induction
import Mathlib.Data.List.Perm.Subperm

/-!
# Throttled lists

Of items in the order of their offsets the first one in each interval is shown, from the
second interval on. A throttle decides so item by item, by the interval of the one it
showed last.
-/

namespace Throttle

set_option autoImplicit false

variable {α : Type*} (interval : Nat) (offset : α → Nat)

structure Throttled (all shown : List α) : Prop where
  sublist : shown.Sublist all
  apart : shown.Pairwise fun earlier later => offset earlier / interval < offset later / interval
  late : ∀ item ∈ shown, interval ≤ offset item
  covered : ∀ item ∈ all, interval ≤ offset item → ∃ first ∈ shown,
    offset first / interval = offset item / interval ∧ offset first ≤ offset item

/-- The interval of the item shown last. -/
def reached (shown : List α) : Nat :=
  match shown.getLast? with
  | none => 0
  | some last => offset last / interval

theorem reached_last (shown : List α) (item : α) :
    reached interval offset (shown ++ [item]) = offset item / interval := by
  rw [reached, List.getLast?_concat]

theorem throttled_nil : Throttled interval offset [] [] := by
  constructor
  · exact List.Sublist.refl _
  · exact List.Pairwise.nil
  · exact List.forall_mem_nil _
  · exact List.forall_mem_nil _

variable {interval : Nat} {offset : α → Nat} {all shown : List α} {item : α}

theorem shown_before_reached
    (apart : shown.Pairwise fun earlier later =>
      offset earlier / interval < offset later / interval)
    (member : item ∈ shown) : offset item / interval ≤ reached interval offset shown := by
  induction shown using List.reverseRecOn with
  | nil => cases member
  | append_singleton before last _ =>
      rw [reached_last]
      rcases List.mem_append.mp member with earlier | here
      · exact Nat.le_of_lt ((List.pairwise_append.mp apart).2.2 item earlier last
          (List.mem_singleton_self last))
      · exact Nat.le_of_eq (by rw [List.mem_singleton.mp here])

/-- An item in a new interval is shown. -/
theorem throttled_show (positive : 0 < interval) (throttled : Throttled interval offset all shown)
    (due : reached interval offset shown < offset item / interval) :
    Throttled interval offset (all ++ [item]) (shown ++ [item]) := by
  have late : interval ≤ offset item :=
    (Nat.one_le_div_iff positive).mp (Nat.succ_le_of_lt (Nat.zero_lt_of_lt due))
  constructor
  · exact throttled.sublist.append (List.Sublist.refl _)
  · rw [List.pairwise_append]
    refine ⟨throttled.apart, List.pairwise_singleton _ _, ?_⟩
    intro earlier member other same
    rw [List.mem_singleton.mp same]
    exact Nat.lt_of_le_of_lt (shown_before_reached throttled.apart member) due
  · intro other member
    rcases List.mem_append.mp member with old | new
    · exact throttled.late other old
    · rw [List.mem_singleton.mp new]
      exact late
  · intro other member there
    rcases List.mem_append.mp member with old | new
    · obtain ⟨first, shows, same, order⟩ := throttled.covered other old there
      exact ⟨first, List.mem_append_left _ shows, same, order⟩
    · rw [List.mem_singleton.mp new]
      exact ⟨item, List.mem_append_right _ (List.mem_singleton_self item), rfl, Nat.le_refl _⟩

/-- An item in the interval of the one shown last, or before the second one, is not. -/
theorem throttled_hide (positive : 0 < interval) (throttled : Throttled interval offset all shown)
    (early : offset item / interval ≤ reached interval offset shown)
    (ordered : ∀ other ∈ all, offset other ≤ offset item) :
    Throttled interval offset (all ++ [item]) shown := by
  constructor
  · exact throttled.sublist.trans (List.sublist_append_left _ _)
  · exact throttled.apart
  · exact throttled.late
  · intro other member there
    rcases List.mem_append.mp member with old | new
    · exact throttled.covered other old there
    · rw [List.mem_singleton.mp new] at there ⊢
      have second : 1 ≤ offset item / interval := (Nat.one_le_div_iff positive).mpr there
      cases last : shown.getLast? with
      | none =>
          rw [reached, last] at early
          exact absurd (Nat.lt_of_lt_of_le second early) (Nat.lt_irrefl 0)
      | some first =>
          rw [reached, last] at early
          have shows := List.mem_of_getLast? last
          have before := ordered first (throttled.sublist.subset shows)
          exact ⟨first, shows, Nat.le_antisymm (Nat.div_le_div_right before) early, before⟩

/-- One item an interval at most. -/
theorem throttled_length {last : Nat} (positive : 0 < interval)
    (throttled : Throttled interval offset all shown)
    (before : ∀ item ∈ all, offset item / interval ≤ last) : shown.length ≤ last := by
  have once : (shown.map fun item => offset item / interval).Nodup := by
    rw [List.Nodup, List.pairwise_map]
    exact throttled.apart.imp Nat.ne_of_lt
  have inside : (shown.map fun item => offset item / interval) ⊆ List.range' 1 last := by
    intro value member
    obtain ⟨item, shows, rfl⟩ := List.mem_map.mp member
    have second : 1 ≤ offset item / interval :=
      (Nat.one_le_div_iff positive).mpr (throttled.late item shows)
    have bound := before item (throttled.sublist.subset shows)
    rw [List.mem_range'_1]
    omega
  have fewer := (once.subperm inside).length_le
  rwa [List.length_map, List.length_range'] at fewer

end Throttle
