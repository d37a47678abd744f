import SdcProbe.CallGraph

/-!
# What the closure chooses

The closure is a search over the functions of the binary, told apart by their
addresses. What holds at every look at the stack says at the end which functions
are chosen and which addresses get a trap stub.
-/

namespace SdcProbe.ClosureInvariant

open CNumeral Disassembly SymbolTable FuelLoop Exploration CallGraph

set_option autoImplicit false

/-- A direct branch of the function leaves it for this address. -/
def Leaves (binary : Binary) (f : Symbol) (target : Nat) : Prop :=
  ∃ lines, LinesOf binary f lines ∧
    ∃ line ∈ lines, ∃ place, leaving f line = some place ∧ place.target = target

/-- Where the search goes on from a function. Whatever else starts at the address
of the entry, the entry is chosen for it. -/
def Follows (binary : Binary) (entry f callee : Symbol) : Prop :=
  ∃ target, Leaves binary f target ∧ byAddr binary target = some callee ∧
    copied binary callee ∧ target ≠ entry.addr

abbrev Reachable (binary : Binary) (entry f : Symbol) : Prop :=
  Reached (Follows binary entry) entry f

/-- No function that is copied starts there as far as `by_addr` goes. -/
def Uncopied (binary : Binary) (target : Nat) : Prop :=
  ∀ callee, byAddr binary target = some callee → ¬ copied binary callee

def functionsOf (chosen : List Body) : List Symbol := chosen.map Body.function

def trapped (traps : List (Nat × Text)) : List Nat := traps.map Prod.fst

section Follow

variable {binary : Binary} {f : Symbol}

theorem mem_setdefault (traps : List (Nat × Text)) (target other : Nat) (name : Text) :
    other ∈ trapped (setdefault traps target name) ↔ other ∈ trapped traps ∨ other = target := by
  rw [setdefault, trapped]
  split_ifs with known
  · constructor
    · exact Or.inl
    · intro found
      cases found with
      | inl found => exact found
      | inr same => rwa [same]
  · rw [List.map_append, List.mem_append, List.map_cons, List.map_nil, List.mem_singleton]
    rfl

/-- The copied function a line of `f` branches to. -/
def called (binary : Binary) (f : Symbol) (line : Line) : Option Symbol :=
  (leaving f line).bind fun place =>
    (byAddr binary place.target).filter fun callee => copied binary callee

/-- A line of `f` branches to an address that gets a trap stub. -/
def Registers (binary : Binary) (f : Symbol) (line : Line) (target : Nat) : Prop :=
  ∃ place, leaving f line = some place ∧ place.target = target ∧ Uncopied binary target

theorem called_iff (line : Line) (callee : Symbol) :
    called binary f line = some callee ↔ ∃ place, leaving f line = some place ∧
      byAddr binary place.target = some callee ∧ copied binary callee := by
  rw [called, Option.bind_eq_some_iff]
  simp only [Option.filter_eq_some_iff, decide_eq_true_eq]

theorem called_none_of_uncopied {line : Line} {place : Place} (leaves : leaving f line = some place)
    (uncopied : Uncopied binary place.target) : called binary f line = none := by
  rw [Option.eq_none_iff_forall_ne_some]
  intro callee found
  obtain ⟨other, same, there, known⟩ := (called_iff line callee).mp found
  rw [leaves, Option.some.injEq] at same
  subst same
  exact uncopied callee there known

/-- What a line does to the search. -/
theorem follow_cases (search : Search) (line : Line) :
    (leaving f line = none ∧ follow binary f search line = search) ∨
    (∃ callee, called binary f line = some callee ∧
      follow binary f search line = { search with work := callee :: search.work }) ∨
    ∃ place name, leaving f line = some place ∧ Uncopied binary place.target ∧
      follow binary f search line =
        { search with traps := setdefault search.traps place.target name } := by
  unfold follow
  cases leaves : leaving f line with
  | none => exact Or.inl ⟨rfl, rfl⟩
  | some place =>
      apply Or.inr
      dsimp only
      cases found : byAddr binary place.target with
      | none =>
          apply Or.inr
          have uncopied : Uncopied binary place.target := by
            intro callee same
            rw [found] at same
            cases same
          exact ⟨place, place.shown, rfl, uncopied, rfl⟩
      | some callee =>
          dsimp only
          by_cases known : copied binary callee
          · rw [if_pos known]
            exact Or.inl ⟨callee, (called_iff line callee).mpr ⟨place, leaves, found, known⟩, rfl⟩
          · rw [if_neg known]
            apply Or.inr
            have uncopied : Uncopied binary place.target := by
              intro other same
              rw [found, Option.some.injEq] at same
              rwa [← same]
            exact ⟨place, callee.name, rfl, uncopied, rfl⟩

theorem follow_chosen (search : Search) (line : Line) :
    (follow binary f search line).chosen = search.chosen := by
  rcases follow_cases search line with ⟨_, same⟩ | ⟨_, _, same⟩ | ⟨_, _, _, _, same⟩
  · rw [same]
  · rw [same]
  · rw [same]

theorem follow_work (search : Search) (line : Line) :
    (follow binary f search line).work = (called binary f line).toList ++ search.work := by
  rcases follow_cases search line with ⟨stays, same⟩ | ⟨callee, calls, same⟩ |
    ⟨place, _, leaves, uncopied, same⟩
  · rw [same, called, stays]
    rfl
  · rw [same, calls]
    rfl
  · rw [same, called_none_of_uncopied leaves uncopied]
    rfl

theorem follow_trapped (search : Search) (line : Line) (target : Nat) :
    target ∈ trapped (follow binary f search line).traps ↔
      target ∈ trapped search.traps ∨ Registers binary f line target := by
  rcases follow_cases search line with ⟨stays, same⟩ | ⟨callee, calls, same⟩ |
    ⟨place, name, leaves, uncopied, same⟩
  · rw [same, iff_self_or]
    rintro ⟨place, leaves, _⟩
    rw [stays] at leaves
    cases leaves
  · rw [same, iff_self_or]
    rintro ⟨place, leaves, rfl, uncopied⟩
    rw [called_none_of_uncopied leaves uncopied] at calls
    cases calls
  · rw [same]
    apply (mem_setdefault search.traps place.target target name).trans
    apply or_congr_right
    constructor
    · rintro rfl
      exact ⟨place, leaves, rfl, uncopied⟩
    · rintro ⟨other, again, rfl, _⟩
      rw [leaves, Option.some.injEq] at again
      rw [again]

theorem follow_lines_chosen (search : Search) (lines : List Line) :
    (lines.foldl (follow binary f) search).chosen = search.chosen := by
  induction lines generalizing search with
  | nil => rfl
  | cons line lines ih => rw [List.foldl_cons, ih, follow_chosen]

theorem follow_lines_work (search : Search) (lines : List Line) :
    (lines.foldl (follow binary f) search).work =
      (lines.filterMap (called binary f)).reverse ++ search.work := by
  induction lines generalizing search with
  | nil => rfl
  | cons line lines ih =>
      rw [List.foldl_cons, ih, follow_work, List.filterMap_cons]
      cases called binary f line with
      | none => rfl
      | some callee => simp

theorem follow_lines_trapped (search : Search) (lines : List Line) (target : Nat) :
    target ∈ trapped (lines.foldl (follow binary f) search).traps ↔
      target ∈ trapped search.traps ∨ ∃ line ∈ lines, Registers binary f line target := by
  induction lines generalizing search with
  | nil => simp
  | cons line lines ih =>
      rw [List.foldl_cons, ih, follow_trapped, or_assoc]
      simp

end Follow

section Apart

variable {binary : Binary} {entry : Symbol}

theorem reachable_cases {f : Symbol} (reachable : Reachable binary entry f) :
    f = entry ∨ byAddr binary f.addr = some f ∧ copied binary f ∧ f.addr ≠ entry.addr := by
  cases reachable with
  | refl => exact Or.inl rfl
  | tail _ follows =>
      obtain ⟨target, _, found, known, other⟩ := follows
      have start := (by_addr_some found).2
      subst start
      exact Or.inr ⟨found, known, other⟩

theorem reachable_apart (left right : Symbol) (reached : Reachable binary entry left)
    (also : Reachable binary entry right) (same : left.addr = right.addr) : left = right := by
  rcases reachable_cases reached with rfl | ⟨found, _, other⟩
  · rcases reachable_cases also with rfl | ⟨_, _, apart⟩
    · rfl
    · exact absurd same.symm apart
  · rcases reachable_cases also with rfl | ⟨again, _, _⟩
    · exact absurd same other
    · rw [same, again, Option.some.injEq] at found
      exact found.symm

end Apart

section Run

variable (binary : Binary) (entry : Symbol)

/-- What holds at every look at the stack. -/
structure Closing (search : Search) : Prop where
  exploring : Exploring Symbol.addr (Follows binary entry) entry (functionsOf search.chosen)
    search.work
  listed : ∀ f ∈ search.work, f ∈ functions binary
  walked : ∀ body ∈ search.chosen, LinesOf binary body.function body.lines
  traps : ∀ target, target ∈ trapped search.traps ↔
    ∃ body ∈ search.chosen, ∃ line ∈ body.lines, Registers binary body.function line target

/-- What the loop leaves behind. -/
structure Closed (closure : Closure) : Prop where
  chosen : ∀ f, f ∈ functionsOf closure.chosen ↔ Reachable binary entry f
  distinct : ((functionsOf closure.chosen).map Symbol.addr).Nodup
  walked : ∀ body ∈ closure.chosen, LinesOf binary body.function body.lines
  traps : ∀ target, target ∈ trapped closure.traps ↔
    ∃ body ∈ closure.chosen, ∃ line ∈ body.lines, Registers binary body.function line target

/-- The loop ends with a closure, or it stops at an instruction the map lacks. -/
def Ends : Except Text Closure → Prop
  | .ok result => Closed binary entry result
  | .error _ => ¬ Covering binary

variable {binary entry} {search : Search} {f : Symbol} {work : List Symbol}

theorem known_iff (chosen : List Body) (f : Symbol) :
    f.addr ∈ chosen.map (·.function.addr) ↔ Known Symbol.addr (functionsOf chosen) f := by
  simp only [Known, functionsOf, List.mem_map, exists_exists_and_eq_and]

theorem addrs_of_functions (chosen : List Body) :
    (functionsOf chosen).map Symbol.addr = chosen.map (·.function.addr) := List.map_map

theorem closing_start (listed : entry ∈ functions binary) :
    Closing binary entry { work := [entry] } where
  exploring := exploring_start
  listed := fun f member => by rwa [List.mem_singleton.mp member]
  walked := fun _ member => nomatch member
  traps := fun target => by simp [trapped]

theorem closing_skip (closing : Closing binary entry search) (pending : search.work = f :: work)
    (known : f.addr ∈ search.chosen.map (·.function.addr)) :
    Closing binary entry { search with work := work } where
  exploring := by
    have exploring := closing.exploring
    rw [pending] at exploring
    exact exploring_skip reachable_apart ((known_iff search.chosen f).mp known) exploring
  listed := fun g member => closing.listed g (pending ▸ List.mem_cons_of_mem f member)
  walked := closing.walked
  traps := closing.traps

theorem closing_visit {lines : List Line} (closing : Closing binary entry search)
    (pending : search.work = f :: work) (fresh : f.addr ∉ search.chosen.map (·.function.addr))
    (read : LinesOf binary f lines) :
    Closing binary entry (lines.foldl (follow binary f)
      { search with chosen := search.chosen ++ [⟨f, lines⟩], work := work }) := by
  have exploring := closing.exploring
  rw [pending] at exploring
  have mem_pushed : ∀ callee, callee ∈ (lines.filterMap (called binary f)).reverse ↔
      ∃ line ∈ lines, ∃ place, leaving f line = some place ∧
        byAddr binary place.target = some callee ∧ copied binary callee := by
    intro callee
    simp only [List.mem_reverse, List.mem_filterMap, called_iff]
  constructor
  · rw [follow_lines_chosen, follow_lines_work, functionsOf, List.map_append]
    apply exploring_visit (mt (known_iff search.chosen f).mpr fresh) exploring
    · intro callee member
      obtain ⟨line, inside, place, leaves, found, known⟩ := (mem_pushed callee).mp member
      by_cases same : callee.addr = entry.addr
      · exact Or.inr same
      · have start := (by_addr_some found).2
        rw [start] at same
        exact Or.inl ⟨place.target, ⟨lines, read, line, inside, place, leaves, rfl⟩, found, known,
          same⟩
    · intro callee follows
      obtain ⟨target, ⟨other, again, line, inside, place, leaves, rfl⟩, found, known, _⟩ := follows
      rw [walks_unique again read] at inside
      exact (mem_pushed callee).mpr ⟨line, inside, place, leaves, found, known⟩
  · rw [follow_lines_work]
    intro callee member
    cases List.mem_append.mp member with
    | inl new =>
        obtain ⟨_, _, _, _, found, _⟩ := (mem_pushed callee).mp new
        exact (by_addr_some found).1
    | inr old => exact closing.listed callee (pending ▸ List.mem_cons_of_mem f old)
  · rw [follow_lines_chosen]
    intro body member
    cases List.mem_append.mp member with
    | inl before => exact closing.walked body before
    | inr last => rwa [List.mem_singleton.mp last]
  · intro target
    rw [follow_lines_trapped, follow_lines_chosen]
    simp only [closing.traps, List.mem_append, List.mem_singleton, or_and_right, exists_or,
      exists_eq_left]

theorem trip_keeps (closing : Closing binary entry search) :
    (trip binary search).All (Closing binary entry) (Ends binary entry) := by
  unfold trip
  cases pending : search.work with
  | nil =>
      have exploring := closing.exploring
      rw [pending] at exploring
      exact
        { chosen := exploring_end exploring
          distinct := exploring.distinct
          walked := closing.walked
          traps := closing.traps }
  | cons f work =>
      dsimp only
      by_cases known : f.addr ∈ search.chosen.map (·.function.addr)
      · rw [if_pos known]
        exact closing_skip closing pending known
      · rw [if_neg known]
        cases read : disassemble binary f with
        | error message =>
            intro covering
            have listed := closing.listed f (pending ▸ List.mem_cons_self)
            obtain ⟨lines, walks⟩ := covering f listed
            rw [(disassemble_ok_iff binary f lines).mpr walks] at read
            cases read
        | ok lines => exact closing_visit closing pending known ((disassemble_ok_iff _ _ _).mp read)

/-- Every trip takes a function off the stack, and puts back at most one for
each byte of a function that was not chosen before. -/
def measure (binary : Binary) (search : Search) : Nat :=
  search.work.length +
    outstanding Symbol.addr Symbol.size (functionsOf search.chosen) (functions binary)

theorem trip_shortens (search next : Search) (closing : Closing binary entry search)
    (again : trip binary search = .again next) : measure binary next < measure binary search := by
  unfold trip at again
  cases pending : search.work with
  | nil =>
      rw [pending] at again
      cases again
  | cons f work =>
      rw [pending] at again
      dsimp only at again
      split_ifs at again with known
      · cases again
        rw [measure, measure, pending, List.length_cons]
        exact Nat.add_lt_add_right (Nat.lt_succ_self _) _
      · cases read : disassemble binary f with
        | error message =>
            rw [read] at again
            cases again
        | ok lines =>
            rw [read] at again
            cases again
            have listed := closing.listed f (pending ▸ List.mem_cons_self)
            have fresh := mt (known_iff search.chosen f).mpr known
            have less := outstanding_visit Symbol.addr Symbol.size fresh listed
            have few := walks_length ((disassemble_ok_iff _ _ _).mp read)
            have pushed := List.length_filterMap_le (called binary f) lines
            rw [measure, measure, pending, follow_lines_chosen, follow_lines_work,
              List.length_append, List.length_reverse, List.length_cons, functionsOf,
              List.map_append]
            rw [Symbol.stop] at few
            change (lines.filterMap (called binary f)).length + work.length +
              outstanding Symbol.addr Symbol.size (functionsOf search.chosen ++ [f])
                (functions binary) < _
            omega

/-- With more looks at the stack than functions have bytes, the loop ends. -/
theorem closure_ends (fuel : Nat) (listed : entry ∈ functions binary)
    (enough : ((functions binary).map Symbol.size).sum + 1 < fuel) :
    ∃ result, closure binary entry fuel = some result ∧ Ends binary entry result := by
  have start := closing_start listed
  have ends : ∃ result, closure binary entry fuel = some result := by
    apply run_terminates (trip binary) (Closing binary entry) (measure binary) _ fuel _ start
    · rw [measure, functionsOf, List.map_nil, outstanding_nil, List.length_singleton]
      omega
    · intro search next closing again
      have kept := trip_keeps closing
      rw [again] at kept
      exact ⟨kept, trip_shortens search next closing again⟩
  obtain ⟨result, ran⟩ := ends
  have post := run_all (trip binary) (Closing binary entry) (Ends binary entry)
    (fun _ closing => trip_keeps closing) fuel _ result start ran
  exact ⟨result, ran, post⟩

/-- A branch that leaves a chosen function goes to the start of a chosen function
or to an address with a trap stub. -/
theorem leaving_resolved {closure : Closure} (closed : Closed binary entry closure) {target : Nat}
    (chosen : f ∈ functionsOf closure.chosen) (leaves : Leaves binary f target) :
    target ∈ (functionsOf closure.chosen).map Symbol.addr ∨ target ∈ trapped closure.traps := by
  have reached := (closed.chosen f).mp chosen
  obtain ⟨body, member, rfl⟩ := List.mem_map.mp chosen
  have edge := leaves
  obtain ⟨lines, walks, line, inside, place, leaving, rfl⟩ := leaves
  rw [walks_unique walks (closed.walked body member)] at inside
  by_cases uncopied : Uncopied binary place.target
  · exact Or.inr ((closed.traps place.target).mpr
      ⟨body, member, line, inside, place, leaving, rfl, uncopied⟩)
  · apply Or.inl
    unfold Uncopied at uncopied
    push Not at uncopied
    obtain ⟨callee, found, known⟩ := uncopied
    by_cases same : place.target = entry.addr
    · exact List.mem_map.mpr ⟨entry, (closed.chosen entry).mpr .refl, same.symm⟩
    · have further := reached.tail ⟨place.target, edge, found, known, same⟩
      exact List.mem_map.mpr
        ⟨callee, (closed.chosen callee).mpr further, (by_addr_some found).2⟩

theorem uncopied_of_trapped {closure : Closure} (closed : Closed binary entry closure)
    {target : Nat} (trap : target ∈ trapped closure.traps) : Uncopied binary target := by
  obtain ⟨_, _, _, _, _, _, _, uncopied⟩ := (closed.traps target).mp trap
  exact uncopied

end Run

end SdcProbe.ClosureInvariant
