import Mathlib.Data.List.Perm.Basic
import SdcProbe.CallGraph

/-!
# The layout

The layout loop: from the functions that are left it takes the first one, by the
place in its page, that starts at or past the cursor, or else the first of all,
and fills up to that place.
-/

namespace SdcProbe.Layout

open FuelLoop CallGraph

set_option autoImplicit false

def page : Nat := 4096

/-- An element of `order`. -/
structure Placed where
  body : Body
  pad : Nat

/-- The order of `(f.addr % PAGE, f.addr)`. -/
def Earlier (left right : Body) : Prop :=
  left.function.addr % page < right.function.addr % page ∨
    left.function.addr % page = right.function.addr % page ∧
      left.function.addr ≤ right.function.addr

instance (left right : Body) : Decidable (Earlier left right) :=
  inferInstanceAs (Decidable (_ ∨ _))

structure Laying where
  remaining : List Body
  order : List Placed := []
  cursor : Nat := 0

/-- `(pick.addr - cursor) % PAGE`, never negative in Python. -/
def padTo (cursor addr : Nat) : Nat := (((addr : Int) - cursor) % page).toNat

/-- The first function at or past the cursor in its page, or else the first. -/
def pickIndex (cursor : Nat) (remaining : List Body) : Nat :=
  (remaining.findIdx? fun f => cursor % page ≤ f.function.addr % page).getD 0

def layTrip (laying : Laying) : Trip Laying (List Placed) :=
  match laying.remaining with
  | [] => .leave laying.order
  | first :: rest =>
      let index := pickIndex laying.cursor (first :: rest)
      let pick := (first :: rest).getD index first
      let pad := padTo laying.cursor pick.function.addr
      .again
        { remaining := (first :: rest).eraseIdx index
          order := laying.order ++ [{ body := pick, pad := pad }]
          cursor := laying.cursor + (pad + pick.function.size) }

def layout (chosen : List Body) (fuel : Nat) : Option (List Placed) :=
  run layTrip fuel { remaining := chosen.insertionSort Earlier }

/-- The cursor behind a layout that begins at `cursor`. -/
def layEnd (cursor : Nat) : List Placed → Nat
  | [] => cursor
  | placed :: rest => layEnd (cursor + (placed.pad + placed.body.function.size)) rest

/-- Every function is at its place in the page, with less than a page of filling
before it. -/
def Aligned (cursor : Nat) : List Placed → Prop
  | [] => True
  | placed :: rest =>
      placed.pad < page ∧
        (cursor + placed.pad) % page = placed.body.function.addr % page ∧
        Aligned (cursor + (placed.pad + placed.body.function.size)) rest

section Loop

theorem pad_to_lt (cursor addr : Nat) : padTo cursor addr < page := by
  unfold padTo page
  omega

theorem pad_to_reaches (cursor addr : Nat) : (cursor + padTo cursor addr) % page = addr % page := by
  unfold padTo page
  omega

theorem lay_end_append (cursor : Nat) (order more : List Placed) :
    layEnd cursor (order ++ more) = layEnd (layEnd cursor order) more := by
  induction order generalizing cursor with
  | nil => rfl
  | cons placed order ih => exact ih _

theorem aligned_append (cursor : Nat) (order more : List Placed) :
    Aligned cursor (order ++ more) ↔ Aligned cursor order ∧ Aligned (layEnd cursor order) more := by
  induction order generalizing cursor with
  | nil => rw [List.nil_append, Aligned, layEnd, true_and]
  | cons placed order ih =>
      rw [List.cons_append, Aligned, Aligned, ih, layEnd, and_assoc, and_assoc]

/-- What holds before each pick: what is placed and what remains are the functions
to lay out. -/
structure Laid (chosen : List Body) (laying : Laying) : Prop where
  cursor : laying.cursor = layEnd 0 laying.order
  aligned : Aligned 0 laying.order
  parts : (laying.order.map Placed.body ++ laying.remaining).Perm chosen

variable {chosen : List Body}

theorem pick_index_inside (cursor : Nat) (first : Body) (rest : List Body) :
    pickIndex cursor (first :: rest) < (first :: rest).length := by
  unfold pickIndex
  cases found : (first :: rest).findIdx? fun f => cursor % page ≤ f.function.addr % page with
  | none => exact Nat.succ_pos _
  | some index =>
      have inside := List.findIdx?_eq_some_iff_getElem.mp found
      exact inside.choose

theorem lay_trip_keeps (laying : Laying) (laid : Laid chosen laying) :
    (layTrip laying).All (Laid chosen) fun order =>
      (order.map Placed.body).Perm chosen ∧ Aligned 0 order := by
  have parts := laid.parts
  unfold layTrip
  cases left : laying.remaining with
  | nil =>
      rw [left, List.append_nil] at parts
      exact ⟨parts, laid.aligned⟩
  | cons first rest =>
      rw [left] at parts
      have inside := pick_index_inside laying.cursor first rest
      have taken := List.getElem_cons_eraseIdx_perm inside
      have pick : (first :: rest).getD (pickIndex laying.cursor (first :: rest)) first =
          (first :: rest)[pickIndex laying.cursor (first :: rest)] := by
        rw [List.getD_eq_getElem?_getD, List.getElem?_eq_getElem inside, Option.getD_some]
      constructor
      · rw [lay_end_append, ← laid.cursor]
        rfl
      · rw [aligned_append, ← laid.cursor]
        exact ⟨laid.aligned, pad_to_lt _ _, pad_to_reaches _ _, trivial⟩
      · rw [List.map_append, List.append_assoc]
        apply List.Perm.trans _ parts
        apply List.Perm.append_left
        rw [← pick] at taken
        exact taken

/-- The loop ends with every function placed once, each at its place in the page. -/
theorem layout_ends (chosen : List Body) (fuel : Nat) (enough : chosen.length < fuel) :
    ∃ order, layout chosen fuel = some order ∧
      (order.map Placed.body).Perm chosen ∧ Aligned 0 order := by
  apply run_all_ends layTrip (Laid chosen) _ (fun laying => laying.remaining.length)
  · exact lay_trip_keeps
  · intro laying next again
    unfold layTrip at again
    cases left : laying.remaining with
    | nil =>
        rw [left] at again
        cases again
    | cons first rest =>
        rw [left] at again
        cases again
        rw [List.length_eraseIdx_of_lt (pick_index_inside _ _ _), List.length_cons]
        exact Nat.lt_succ_self _
  · exact
      { cursor := rfl
        aligned := trivial
        parts := List.perm_insertionSort Earlier chosen }
  · rwa [List.length_insertionSort]

end Loop

end SdcProbe.Layout
