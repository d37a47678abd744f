import SdcProbe.ClosureExactness
import SdcProbe.Emission

/-!
# Where emitted branches go

A branch that leaves a function for a place inside a copied one has no symbol of
its own there, so the closure registers a trap stub for it, and `code_ref` looks
at the stubs before it looks into functions.
-/

namespace SdcProbe.BranchTargets

open Disassembly SymbolTable FuelLoop CallGraph ClosureInvariant ClosureExactness
open AssemblerText Occurrences Relocation References Emission

set_option autoImplicit false

/-- The symbol for the byte of a transplanted body that the target is in the function. -/
def IntoBody (closure : Closure) (target : Nat) (symbol : Ref) : Prop :=
  ∃ g ∈ functionsOf closure.chosen, g.Covers target ∧
    symbol = { label := fnLabel closure g.addr, offset := target - g.addr }

/-- Every branch that leaves a copied function for a copied one goes to the same
byte of it, and only what is not copied is met with a trap stub. -/
structure BranchesLand (binary : Binary) (closure : Closure) : Prop where
  land : ∀ f ∈ functionsOf closure.chosen, ∀ target, Leaves binary f target →
    (∃ g ∈ functionsOf closure.chosen, g.Covers target) →
      ∃ symbol, codeRef binary closure target = some symbol ∧ IntoBody closure target symbol
  trap : ∀ f ∈ functionsOf closure.chosen, ∀ target, Leaves binary f target →
    ∀ index, codeRef binary closure target = some { label := .trap index } →
      ¬ ∃ g ∈ functionsOf closure.chosen, g.Covers target

/-- A branch that leaves a function for a place inside one that is copied goes to
the start of one that is copied. -/
def StartsOnly (binary : Binary) (entry : Symbol) : Prop :=
  ∀ f, Reachable binary entry f → ∀ target, Leaves binary f target →
    (∃ g, Reachable binary entry g ∧ g.Covers target) →
      ∃ h, Reachable binary entry h ∧ h.addr = target

section Resolution

variable {binary : Binary} {entry : Symbol} {result : Closure}

theorem closure_closed {fuel : Nat} (listed : entry ∈ functions binary)
    (ran : closure binary entry fuel = some (.ok result)) : Closed binary entry result :=
  run_all (trip binary) (Closing binary entry) (Ends binary entry) (fun _ => trip_keeps) fuel _ _
    (closing_start listed) ran

theorem reachable_listed (listed : entry ∈ functions binary) {f : Symbol}
    (reachable : Reachable binary entry f) : f ∈ functions binary := by
  rcases reachable_cases reachable with rfl | ⟨found, _, _⟩
  · exact listed
  · exact (by_addr_some found).1

theorem start_covered {f : Symbol} (listed : f ∈ functions binary) : f.Covers f.addr := by
  have sized := (mem_functions.mp listed).2.2
  rw [Symbol.Covers, Symbol.stop]
  omega

theorem mem_chosen_iff (closed : Closed binary entry result) (target : Nat) :
    target ∈ chosenAddrs result ↔ ∃ f, Reachable binary entry f ∧ f.addr = target := by
  rw [mem_chosen_addrs, ← addrs_of_functions, List.mem_map]
  simp only [closed.chosen]

/-- A branch that leaves goes to the label of a chosen start, or else to a trap stub. -/
theorem leaving_ref (closed : Closed binary entry result) {f : Symbol} {target : Nat}
    (chosen : f ∈ functionsOf result.chosen) (leaves : Leaves binary f target) :
    (target ∈ chosenAddrs result ∧
      codeRef binary result target = some { label := fnLabel result target }) ∨
    (target ∉ chosenAddrs result ∧
      codeRef binary result target = some { label := trapLabel result target }) := by
  by_cases start : target ∈ chosenAddrs result
  · exact Or.inl ⟨start, code_ref_chosen binary result start⟩
  · have resolved := leaving_resolved closed chosen leaves
    rw [addrs_of_functions, ← mem_chosen_addrs] at resolved
    have trap := (mem_trap_addrs result target).mpr (resolved.resolve_left start)
    exact Or.inr ⟨start, code_ref_trapped binary result start trap⟩

theorem branches_land_iff (listed : entry ∈ functions binary)
    (closed : Closed binary entry result) :
    BranchesLand binary result ↔ StartsOnly binary entry := by
  constructor
  · intro landing f reachable target leaves inside
    obtain ⟨g, reached, covers⟩ := inside
    have member := (closed.chosen f).mpr reachable
    obtain ⟨symbol, resolved, h, _, _, shape⟩ :=
      landing.land f member target leaves ⟨g, (closed.chosen g).mpr reached, covers⟩
    rcases leaving_ref closed member leaves with ⟨start, _⟩ | ⟨_, trapped⟩
    · exact (mem_chosen_iff closed target).mp start
    · rw [trapped, Option.some.injEq, shape] at resolved
      cases resolved
  · intro startsOnly
    have onStart : ∀ f ∈ functionsOf result.chosen, ∀ target, Leaves binary f target →
        (∃ g ∈ functionsOf result.chosen, g.Covers target) →
        ∃ h, Reachable binary entry h ∧ h.addr = target := by
      rintro f member target leaves ⟨g, found, covers⟩
      exact startsOnly f ((closed.chosen f).mp member) target leaves
        ⟨g, (closed.chosen g).mp found, covers⟩
    constructor
    · intro f member target leaves inside
      obtain ⟨h, reached, rfl⟩ := onStart f member target leaves inside
      have start := (mem_chosen_iff closed h.addr).mpr ⟨h, reached, rfl⟩
      have covers := start_covered (reachable_listed listed reached)
      refine ⟨_, code_ref_chosen binary result start, h, (closed.chosen h).mpr reached, covers, ?_⟩
      rw [Nat.sub_self]
    · intro f member target leaves index resolved inside
      obtain ⟨h, reached, rfl⟩ := onStart f member target leaves inside
      have start := (mem_chosen_iff closed h.addr).mpr ⟨h, reached, rfl⟩
      rw [code_ref_chosen binary result start, Option.some.injEq] at resolved
      cases resolved

end Resolution

/-- A branch inside its function is emitted as it was. One that leaves, with its
displacement at its end, is emitted, if at all, so that it goes to what the target
is resolved to, and that is a place in a transplanted body wherever it has to be
exactly when no branch leaves for the middle of a copied function. -/
theorem branches_into_copied_functions_land_iff (binary : Binary) (entry : Symbol) (fuel : Nat)
    (result : Closure) (found : entryOf binary = .ok entry)
    (ran : closure binary entry fuel = some (.ok result)) :
    (∀ body ∈ result.chosen, ∀ line ∈ body.lines, ∀ branch, matchBranch line.text = some branch →
      (body.function.Covers branch.target →
        emitBranch binary result body.function line branch = .ok [.bytes line.raw]) ∧
      (¬ body.function.Covers branch.target →
        OccursAt (displacement branch.target (line.addr + line.raw.length)) line.raw
          (line.raw.length - 4) →
        ∀ items, emitBranch binary result body.function line branch = .ok items →
          ∃ symbol, codeRef binary result branch.target = some symbol ∧
            Rewritten line.raw (line.raw.length - 4) symbol items)) ∧
    (BranchesLand binary result ↔ StartsOnly binary entry) := by
  have listed := entry_listed found
  have closed := closure_closed listed ran
  constructor
  · intro body member line inside branch matched
    constructor
    · intro stays
      exact if_pos stays
    · intro leaves field items emitted
      rw [emitBranch, if_neg leaves] at emitted
      cases resolved : codeRef binary result branch.target with
      | none =>
          rw [resolved] at emitted
          cases emitted
      | some symbol =>
          rw [resolved] at emitted
          exact ⟨symbol, rfl, emit_rel32_rewrites_last field emitted⟩
  · exact branches_land_iff listed closed

def outlinedClosure : Closure where
  chosen := [⟨outlinedHash, outlinedLines⟩, ⟨outlinedCold, [outlinedBack]⟩]
  traps := [(0x1018, "hash+0x18".toList)]

theorem branches_into_copied_functions_land_iff_outlined :
    BranchesLand outlined outlinedClosure ↔ StartsOnly outlined outlinedHash :=
  (branches_into_copied_functions_land_iff outlined outlinedHash 20 outlinedClosure (by decide)
    rfl).2

end SdcProbe.BranchTargets
