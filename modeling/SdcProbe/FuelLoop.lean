import Mathlib.Data.Nat.Init

/-!
# Loops of unknown length

One trip through a loop body either asks for another trip or leaves the loop
with a result. A loop is run with a budget of trips and returns nothing when the
budget runs out. An invariant carries from the first trip to the result, and a
decreasing measure bounds the budget a run needs.
-/

namespace FuelLoop

set_option autoImplicit false

variable {State Result : Type*}

inductive Trip (State Result : Type*) where
  | again (state : State)
  | leave (result : Result)

def run (trip : State → Trip State Result) : Nat → State → Option Result
  | 0, _ => none
  | fuel + 1, state =>
      match trip state with
      | .again next => run trip fuel next
      | .leave result => some result

/-- The state after so many trips that all asked for another. -/
def after (trip : State → Trip State Result) : Nat → State → Option State
  | 0, state => some state
  | trips + 1, state =>
      match trip state with
      | .again next => after trip trips next
      | .leave _ => none

theorem run_after (trip : State → Trip State Result) (trips fuel : Nat) (state reached : State)
    (went : after trip trips state = some reached) :
    run trip (trips + fuel) state = run trip fuel reached := by
  induction trips generalizing state with
  | zero =>
      cases went
      rw [Nat.zero_add]
  | succ trips ih =>
      rw [after] at went
      rw [Nat.add_right_comm, run]
      split at went
      · next next _ => exact ih next went
      · cases went

/-- The budget covers the trips before a state and what the run needs from there. -/
theorem run_after_le (trip : State → Trip State Result) (trips limit fuel : Nat)
    (state reached : State) (result : Result) (went : after trip trips state = some reached)
    (ends : ∀ fuel, limit ≤ fuel → run trip fuel reached = some result)
    (enough : trips + limit ≤ fuel) : run trip fuel state = some result := by
  obtain ⟨rest, rfl⟩ := Nat.exists_eq_add_of_le (Nat.le_of_add_right_le enough)
  rw [run_after trip trips rest state reached went]
  exact ends rest (Nat.le_of_add_le_add_left enough)

/-- A larger budget changes nothing for a run that has returned. -/
theorem run_mono (trip : State → Trip State Result) {fuel more : Nat} (enough : fuel ≤ more)
    {state : State} {result : Result} (ran : run trip fuel state = some result) :
    run trip more state = some result := by
  induction fuel generalizing more state with
  | zero => cases ran
  | succ fuel ih =>
      obtain ⟨rest, rfl⟩ := Nat.exists_eq_add_of_le enough
      rw [Nat.add_right_comm, run]
      rw [run] at ran
      split at ran
      · next next _ => exact ih (Nat.le_add_right fuel rest) ran
      · exact ran

theorem run_invariant (trip : State → Trip State Result) (inv : State → Prop)
    (post : Result → Prop)
    (again : ∀ state next, inv state → trip state = .again next → inv next)
    (leave : ∀ state result, inv state → trip state = .leave result → post result)
    (fuel : Nat) (state : State) (result : Result) (start : inv state)
    (ran : run trip fuel state = some result) : post result := by
  induction fuel generalizing state with
  | zero => cases ran
  | succ fuel ih =>
      rw [run] at ran
      split at ran
      · next next taken => exact ih next (again state next start taken) ran
      · next final taken =>
          cases ran
          exact leave state result start taken

/-- Where a trip leads, to another trip or out of the loop. -/
def Trip.All (inv : State → Prop) (post : Result → Prop) : Trip State Result → Prop
  | .again state => inv state
  | .leave result => post result

theorem run_all (trip : State → Trip State Result) (inv : State → Prop) (post : Result → Prop)
    (step : ∀ state, inv state → (trip state).All inv post) (fuel : Nat) (state : State)
    (result : Result) (start : inv state) (ran : run trip fuel state = some result) :
    post result := by
  apply run_invariant trip inv post _ _ fuel state result start ran
  · intro state next here taken
    have leads := step state here
    rwa [taken] at leads
  · intro state result here taken
    have leads := step state here
    rwa [taken] at leads

theorem run_terminates (trip : State → Trip State Result) (inv : State → Prop)
    (measure : State → Nat)
    (again : ∀ state next, inv state → trip state = .again next →
      inv next ∧ measure next < measure state)
    (fuel : Nat) (state : State) (start : inv state) (enough : measure state < fuel) :
    ∃ result, run trip fuel state = some result := by
  induction fuel generalizing state with
  | zero => omega
  | succ fuel ih =>
      rw [run]
      split
      · next next taken =>
          obtain ⟨kept, smaller⟩ := again state next start taken
          exact ih next kept (by omega)
      · next result _ => exact ⟨result, rfl⟩

theorem run_all_ends (trip : State → Trip State Result) (inv : State → Prop)
    (post : Result → Prop) (measure : State → Nat)
    (step : ∀ state, inv state → (trip state).All inv post)
    (shorter : ∀ state next, trip state = .again next → measure next < measure state)
    (fuel : Nat) (state : State) (start : inv state) (enough : measure state < fuel) :
    ∃ result, run trip fuel state = some result ∧ post result := by
  have ends : ∃ result, run trip fuel state = some result := by
    apply run_terminates trip inv measure _ fuel state start enough
    intro state next here taken
    have leads := step state here
    rw [taken] at leads
    exact ⟨leads, shorter state next taken⟩
  obtain ⟨result, ran⟩ := ends
  exact ⟨result, ran, run_all trip inv post step fuel state result start ran⟩

section Settles

variable {α β : Type*}

/-- From some budget on, a computation returns, and always the same. -/
def Settles (computation : Nat → Option α) : Prop :=
  ∃ fuel result, ∀ more, fuel ≤ more → computation more = some result

theorem settles_some (result : α) : Settles fun _ => some result :=
  ⟨0, result, fun _ _ => rfl⟩

theorem settles_bind {computation : Nat → Option α} {rest : Nat → α → Option β}
    (settles : Settles computation) (onward : ∀ result, Settles fun fuel => rest fuel result) :
    Settles fun fuel => (computation fuel).bind (rest fuel) := by
  obtain ⟨fuel, middle, same⟩ := settles
  obtain ⟨later, result, sameRest⟩ := onward middle
  refine ⟨max fuel later, result, ?_⟩
  intro more enough
  dsimp only
  rw [same more (Nat.le_trans (Nat.le_max_left fuel later) enough), Option.bind_some]
  exact sameRest more (Nat.le_trans (Nat.le_max_right fuel later) enough)

theorem settles_map {computation : Nat → Option α} (settles : Settles computation) (f : α → β) :
    Settles fun fuel => (computation fuel).map f := by
  obtain ⟨fuel, result, same⟩ := settles
  refine ⟨fuel, f result, ?_⟩
  intro more enough
  dsimp only
  rw [same more enough, Option.map_some]

theorem settles_run (trip : State → Trip State Result) (inv : State → Prop)
    (measure : State → Nat)
    (again : ∀ state next, inv state → trip state = .again next →
      inv next ∧ measure next < measure state)
    (state : State) (start : inv state) : Settles fun fuel => run trip fuel state := by
  obtain ⟨result, ran⟩ := run_terminates trip inv measure again (measure state + 1) state start
    (Nat.lt_succ_self _)
  exact ⟨_, result, fun more enough => run_mono trip enough ran⟩

end Settles

section Map

variable {Other End : Type*}

def Trip.map (f : State → Other) (g : Result → End) : Trip State Result → Trip Other End
  | .again state => .again (f state)
  | .leave result => .leave (g result)

/-- Two loops whose trips correspond leave with corresponding results. -/
theorem run_map (trip : State → Trip State Result) (other : Other → Trip Other End)
    (inv : State → Prop) (post : Result → Prop) (f : State → Other) (g : Result → End)
    (step : ∀ state, inv state → other (f state) = (trip state).map f g)
    (kept : ∀ state, inv state → (trip state).All inv post)
    (fuel : Nat) (state : State) (start : inv state) :
    run other fuel (f state) = (run trip fuel state).map g := by
  induction fuel generalizing state with
  | zero => rfl
  | succ fuel ih =>
      rw [run, run, step state start]
      cases taken : trip state with
      | again next =>
          have leads := kept state start
          rw [taken] at leads
          exact ih next leads
      | leave result => rfl

end Map

end FuelLoop
