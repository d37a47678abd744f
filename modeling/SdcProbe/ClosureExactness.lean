import SdcProbe.ClosureInvariant
import SdcProbe.References

/-!
# The closure is exact

The chosen functions are those reachable from `hash()` over direct branches that
leave a function for the start of a copied one. A branch that stays inside the
function it stands in is not followed, also where another function starts there.
-/

namespace SdcProbe.ClosureExactness

open Relation Disassembly SymbolTable CallGraph ClosureInvariant References

set_option autoImplicit false

/-- No two functions start at one address. -/
def Unaliased (binary : Binary) : Prop := ((functions binary).map Symbol.addr).Nodup

/-- A direct branch that leaves `f` goes to the start of a copied function. -/
def Calls (binary : Binary) (f callee : Symbol) : Prop :=
  callee ∈ functions binary ∧ copied binary callee ∧ Leaves binary f callee.addr

/-- Any direct branch of `f`, also one that stays inside, goes there. -/
def BranchesTo (binary : Binary) (f callee : Symbol) : Prop :=
  callee ∈ functions binary ∧ copied binary callee ∧ ∃ lines, LinesOf binary f lines ∧
    ∃ line ∈ lines, ∃ place, matchBranch line.text = some place ∧ place.target = callee.addr

/-- No function starts behind the start of another one inside it. -/
def Unnested (binary : Binary) : Prop :=
  ∀ f ∈ functions binary, ∀ g ∈ functions binary, f.Covers g.addr → f.addr = g.addr

section Edges

variable {binary : Binary} {entry f g : Symbol}

theorem same_start (unaliased : Unaliased binary) (listed : f ∈ functions binary)
    (also : g ∈ functions binary) (same : f.addr = g.addr) : f = g :=
  List.inj_on_of_nodup_map unaliased listed also same

theorem by_addr_unaliased (unaliased : Unaliased binary) (listed : f ∈ functions binary) :
    byAddr binary f.addr = some f := by
  obtain ⟨callee, found⟩ := by_addr_start listed
  have first := by_addr_some found
  rw [found, same_start unaliased first.1 listed first.2]

/-- Without aliases the search follows every call. -/
theorem reachable_iff_calls (unaliased : Unaliased binary) (listed : entry ∈ functions binary) :
    Reachable binary entry f ↔ ReflTransGen (Calls binary) entry f := by
  constructor
  · intro reachable
    induction reachable with
    | refl => exact .refl
    | tail _ follows ih =>
        obtain ⟨target, leaves, found, known, _⟩ := follows
        have first := by_addr_some found
        rw [← first.2] at leaves
        exact ih.tail ⟨first.1, known, leaves⟩
  · intro reached
    induction reached with
    | refl => exact .refl
    | @tail caller callee _ calls ih =>
        by_cases same : callee.addr = entry.addr
        · rw [same_start unaliased calls.1 listed same]
        · have found := by_addr_unaliased unaliased calls.1
          exact ih.tail ⟨callee.addr, calls.2.2, found, calls.2.1, same⟩

theorem leaving_some_iff {line : Line} {place : Place} :
    leaving f line = some place ↔ matchBranch line.text = some place ∧ ¬ f.Covers place.target := by
  rw [leaving, Option.filter_eq_some_iff, decide_eq_true_eq]

theorem branches_of_calls (calls : Calls binary f g) : BranchesTo binary f g := by
  obtain ⟨listed, known, lines, walks, line, inside, place, leaves, goes⟩ := calls
  exact ⟨listed, known, lines, walks, line, inside, place, (leaving_some_iff.mp leaves).1, goes⟩

/-- A branch that stays inside then goes to the function's own start. -/
theorem calls_of_branches (unaliased : Unaliased binary) (unnested : Unnested binary)
    (listed : f ∈ functions binary) (branches : BranchesTo binary f g) :
    Calls binary f g ∨ g = f := by
  obtain ⟨callee, known, lines, walks, line, inside, place, matched, goes⟩ := branches
  by_cases stays : f.Covers place.target
  · rw [goes] at stays
    exact Or.inr (same_start unaliased callee listed (unnested f listed g callee stays).symm)
  · exact Or.inl ⟨callee, known, lines, walks, line, inside, place,
      leaving_some_iff.mpr ⟨matched, stays⟩, goes⟩

theorem reached_listed (listed : entry ∈ functions binary)
    (reached : ReflTransGen (Calls binary) entry f) : f ∈ functions binary := by
  cases reached with
  | refl => exact listed
  | tail _ calls => exact calls.1

theorem calls_iff_branches (unaliased : Unaliased binary) (unnested : Unnested binary)
    (listed : entry ∈ functions binary) :
    ReflTransGen (Calls binary) entry f ↔ ReflTransGen (BranchesTo binary) entry f := by
  constructor
  · intro reached
    induction reached with
    | refl => exact .refl
    | tail _ calls ih => exact ih.tail (branches_of_calls calls)
  · intro reached
    induction reached with
    | refl => exact .refl
    | tail _ branches ih =>
        cases calls_of_branches unaliased unnested (reached_listed listed ih) branches with
        | inl calls => exact ih.tail calls
        | inr same => rwa [same]

end Edges

/-- The loop ends with the functions reachable from `hash()`. A branch that leaves
one of them has a label to go to, of a chosen function or of a trap stub, and no
address has both. -/
theorem closure_is_exact (binary : Binary) (entry : Symbol) (fuel : Nat)
    (found : entryOf binary = .ok entry) (unit : entry.name ∈ binary.unitNames)
    (unaliased : Unaliased binary) (covering : Covering binary)
    (enough : ((functions binary).map Symbol.size).sum + 1 < fuel) :
    ∃ result, closure binary entry fuel = some (.ok result) ∧
      (∀ f, f ∈ functionsOf result.chosen ↔ ReflTransGen (Calls binary) entry f) ∧
      (Unnested binary → ∀ f, f ∈ functionsOf result.chosen ↔
        ReflTransGen (BranchesTo binary) entry f) ∧
      (∀ f ∈ functionsOf result.chosen, ∀ target, Leaves binary f target →
        (target ∈ (functionsOf result.chosen).map Symbol.addr ∨ target ∈ trapped result.traps) ∧
        codeRef binary result target ≠ none) ∧
      ∀ f ∈ functionsOf result.chosen, f.addr ∉ trapped result.traps := by
  have listed := entry_listed found
  obtain ⟨outcome, ran, ended⟩ := closure_ends fuel listed enough
  cases outcome with
  | error message => exact absurd covering ended
  | ok result =>
      have chosen : ∀ f, f ∈ functionsOf result.chosen ↔ ReflTransGen (Calls binary) entry f :=
        fun f => (ended.chosen f).trans (reachable_iff_calls unaliased listed)
      have resolved : ∀ f ∈ functionsOf result.chosen, ∀ target, Leaves binary f target →
          (target ∈ (functionsOf result.chosen).map Symbol.addr ∨
            target ∈ trapped result.traps) ∧ codeRef binary result target ≠ none := by
        intro f member target leaves
        have labelled := leaving_resolved ended member leaves
        constructor
        · exact labelled
        · apply code_ref_resolved
          rwa [mem_chosen_addrs, mem_trap_addrs, ← addrs_of_functions]
      have untrapped : ∀ f ∈ functionsOf result.chosen, f.addr ∉ trapped result.traps := by
        intro f member trap
        have uncopied := uncopied_of_trapped ended trap
        rcases reachable_cases ((ended.chosen f).mp member) with rfl | ⟨start, known, _⟩
        · exact uncopied f (by_addr_unaliased unaliased listed) (Or.inl unit)
        · exact uncopied f start known
      have branches : Unnested binary → ∀ f, f ∈ functionsOf result.chosen ↔
          ReflTransGen (BranchesTo binary) entry f := by
        intro unnested f
        rw [chosen f, calls_iff_branches unaliased unnested listed]
      exact ⟨result, ran, chosen, branches, resolved, untrapped⟩

/-- `hash()` reads the thread pointer and jumps to a block of its own that was moved out of
it, and that jumps back into the middle of it. -/
def outlinedHash : Symbol :=
  ⟨0x1000, 25, "t".toList, "hash".toList,
    "(anonymous namespace)::hash(std::vector<Chunk> const&)".toList⟩

def outlinedCold : Symbol := ⟨0x2000, 5, "t".toList, "hash.cold".toList, "hash.cold".toList⟩

theorem outlined_read_some_byte :
    ([0x66, 0x66, 0x66, 0x64, 0x48, 0x8b, 0x04, 0x25, 0x00, 0x00, 0x00, 0x00] : List Byte) ≠ [] :=
  List.cons_ne_nil _ _

theorem outlined_slot_some_byte :
    ([0x48, 0x8b, 0x80, 0xb8, 0xff, 0xff, 0xff] : List Byte) ≠ [] :=
  List.cons_ne_nil _ _

def outlinedRead : Line :=
  { raw := [0x66, 0x66, 0x66, 0x64, 0x48, 0x8b, 0x04, 0x25, 0x00, 0x00, 0x00, 0x00]
    text := "mov    %fs:0x0,%rax".toList
    some_byte := outlined_read_some_byte
    addr := 0x1000 }

def outlinedSlot : Line :=
  { raw := [0x48, 0x8b, 0x80, 0xb8, 0xff, 0xff, 0xff]
    text := "mov    -0x48(%rax),%rax".toList
    some_byte := outlined_slot_some_byte
    addr := 0x100c }

def outlinedJump : Line :=
  { raw := [0xe9, 0xe8, 0x0f, 0x00, 0x00]
    text := "jmp    2000 <hash.cold>".toList
    some_byte := by decide
    addr := 0x1013 }

def outlinedRet : Line :=
  { raw := [0xc3], text := "ret".toList, some_byte := by decide, addr := 0x1018 }

def outlinedBack : Line :=
  { raw := [0xe9, 0x13, 0xf0, 0xff, 0xff]
    text := "jmp    1018 <hash+0x18>".toList
    some_byte := by decide
    addr := 0x2000 }

def outlinedLines : List Line := [outlinedRead, outlinedSlot, outlinedJump, outlinedRet]

def outlined : Binary where
  path := "repro".toList
  symbols := [outlinedHash, outlinedCold]
  unitNames := ["hash".toList, "hash.cold".toList]
  insns := fun addr =>
    ((outlinedLines ++ [outlinedBack]).find? (·.addr = addr)).map (·.toInsn)

theorem outlined_functions : functions outlined = [outlinedHash, outlinedCold] := by decide

theorem outlined_hash_lines : LinesOf outlined outlinedHash outlinedLines :=
  (disassemble_ok_iff outlined outlinedHash _).mp rfl

theorem outlined_cold_lines : LinesOf outlined outlinedCold [outlinedBack] :=
  (disassemble_ok_iff outlined outlinedCold _).mp rfl

theorem outlined_covering : Covering outlined := by
  intro f member
  rw [outlined_functions, List.mem_cons, List.mem_singleton] at member
  rcases member with rfl | rfl
  · exact ⟨_, outlined_hash_lines⟩
  · exact ⟨_, outlined_cold_lines⟩

theorem closure_is_exact_outlined : ∃ result,
    closure outlined outlinedHash 40 = some (.ok result) ∧
      ∀ f, f ∈ functionsOf result.chosen ↔ ReflTransGen (Calls outlined) outlinedHash f := by
  have unaliased : Unaliased outlined := by
    rw [Unaliased, outlined_functions]
    decide
  obtain ⟨result, ran, chosen, _⟩ := closure_is_exact outlined outlinedHash 40 (by decide)
    (by decide) unaliased outlined_covering (by decide)
  exact ⟨result, ran, chosen⟩

/-- `hash()` of six bytes calls a function inside it that begins at its last. -/
def nestedHash : Symbol :=
  ⟨0x1000, 6, "t".toList, "hash".toList,
    "(anonymous namespace)::hash(std::vector<Chunk> const&)".toList⟩

def nestedTail : Symbol := ⟨0x1005, 1, "t".toList, "tail".toList, "tail".toList⟩

def nestedCall : Line :=
  { raw := [0xe8, 0x00, 0x00, 0x00, 0x00]
    text := "call   1005 <tail>".toList
    some_byte := by decide
    addr := 0x1000 }

def nestedRet : Line :=
  { raw := [0xc3], text := "ret".toList, some_byte := by decide, addr := 0x1005 }

def nested : Binary where
  path := "repro".toList
  symbols := [nestedHash, nestedTail]
  unitNames := ["hash".toList, "tail".toList]
  insns := fun addr =>
    if addr = 0x1000 then some nestedCall.toInsn
    else if addr = 0x1005 then some nestedRet.toInsn
    else none

theorem nested_functions : functions nested = [nestedHash, nestedTail] := by decide

theorem nested_hash_lines : LinesOf nested nestedHash [nestedCall, nestedRet] :=
  (disassemble_ok_iff nested nestedHash _).mp rfl

theorem nested_covering : Covering nested := by
  intro f member
  rw [nested_functions, List.mem_cons, List.mem_singleton] at member
  rcases member with rfl | rfl
  · exact ⟨_, nested_hash_lines⟩
  · exact ⟨[nestedRet], (disassemble_ok_iff nested nestedTail _).mp rfl⟩

/-- A branch to a function start is not followed where it stays inside. -/
theorem nested_call_not_followed :
    entryOf nested = .ok nestedHash ∧ nestedHash.name ∈ nested.unitNames ∧ Unaliased nested ∧
      Covering nested ∧ ReflTransGen (BranchesTo nested) nestedHash nestedTail ∧
      ∃ result, closure nested nestedHash 20 = some (.ok result) ∧
        nestedTail ∉ functionsOf result.chosen := by
  have branches : BranchesTo nested nestedHash nestedTail := by
    refine ⟨?_, Or.inl (by decide), _, nested_hash_lines, nestedCall, List.mem_cons_self,
      ⟨0x1005, "tail".toList⟩, by decide, rfl⟩
    rw [nested_functions]
    exact List.mem_cons_of_mem _ (List.mem_singleton_self nestedTail)
  have chosen : closure nested nestedHash 20 =
      some (.ok { chosen := [⟨nestedHash, [nestedCall, nestedRet]⟩], traps := [] }) := rfl
  have unaliased : Unaliased nested := by
    rw [Unaliased, nested_functions]
    decide
  exact ⟨by decide, by decide, unaliased, nested_covering, .single branches, _, chosen, by decide⟩

end SdcProbe.ClosureExactness
