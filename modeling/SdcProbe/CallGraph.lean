import SdcProbe.Exploration
import SdcProbe.FuelLoop
import SdcProbe.SymbolTable

/-!
# The call-graph closure

The worklist loop of `main` in `gen_rbx_payload.py`: it starts at `hash()`, takes
a function off the stack, disassembles it and sorts the branches that leave it,
to functions that are copied too and to addresses that get a trap stub.
-/

namespace SdcProbe.CallGraph

open CNumeral Disassembly SymbolTable FuelLoop

set_option autoImplicit false

def noInstruction (addr : Nat) (f : Symbol) : Text :=
  "no instruction at ".toList ++ hexText addr ++ " in ".toList ++ f.demangled

/-- The lines from an address on. Every instruction has a byte, so the loop ends
within the distance to the end of the function. -/
def linesFrom (binary : Binary) (f : Symbol) : Nat → Nat → Except Text (List Line)
  | 0, _ => .ok []
  | left + 1, addr =>
      if addr < f.stop then
        match binary.insns addr with
        | none => .error (noInstruction addr f)
        | some insn =>
            match linesFrom binary f left (addr + insn.raw.length) with
            | .error message => .error message
            | .ok lines => .ok ({ insn with addr := addr } :: lines)
      else .ok []

def disassemble (binary : Binary) (f : Symbol) : Except Text (List Line) :=
  linesFrom binary f f.size f.addr

/-- An entry of `chosen` and the entry of `body` under the same address. -/
structure Body where
  function : Symbol
  lines : List Line

/-- The last element of `work` stands first. -/
structure Search where
  chosen : List Body := []
  traps : List (Nat × Text) := []
  work : List Symbol

structure Closure where
  chosen : List Body
  traps : List (Nat × Text)

def setdefault (traps : List (Nat × Text)) (target : Nat) (name : Text) : List (Nat × Text) :=
  if target ∈ traps.map Prod.fst then traps else traps ++ [(target, name)]

/-- The branch of a line, where it leaves the function. -/
def leaving (f : Symbol) (line : Line) : Option Place :=
  (matchBranch line.text).filter fun place => ¬ f.Covers place.target

def follow (binary : Binary) (f : Symbol) (search : Search) (line : Line) : Search :=
  match leaving f line with
  | none => search
  | some place =>
      match byAddr binary place.target with
      | none => { search with traps := setdefault search.traps place.target place.shown }
      | some callee =>
          if copied binary callee then { search with work := callee :: search.work }
          else { search with traps := setdefault search.traps place.target callee.name }

def trip (binary : Binary) (search : Search) : Trip Search (Except Text Closure) :=
  match search.work with
  | [] => .leave (.ok { chosen := search.chosen, traps := search.traps })
  | f :: work =>
      if f.addr ∈ search.chosen.map (·.function.addr) then .again { search with work := work }
      else
        match disassemble binary f with
        | .error message => .leave (.error message)
        | .ok lines =>
            .again (lines.foldl (follow binary f)
              { search with chosen := search.chosen ++ [⟨f, lines⟩], work := work })

def closure (binary : Binary) (entry : Symbol) (fuel : Nat) : Option (Except Text Closure) :=
  run (trip binary) fuel { work := [entry] }

section Walks

/-- The instructions one after the other up to the end. -/
inductive Walks (insns : Nat → Option Insn) (stop : Nat) : Nat → List Line → Prop where
  | ended {addr : Nat} : stop ≤ addr → Walks insns stop addr []
  | insn {addr : Nat} {insn : Insn} {rest : List Line} :
      addr < stop → insns addr = some insn → Walks insns stop (addr + insn.raw.length) rest →
      Walks insns stop addr ({ insn with addr := addr } :: rest)

/-- The lines of a function of this binary. -/
abbrev LinesOf (binary : Binary) (f : Symbol) (lines : List Line) : Prop :=
  Walks binary.insns f.stop f.addr lines

/-- The instruction map has every instruction of every function. -/
def Covering (binary : Binary) : Prop := ∀ f ∈ functions binary, ∃ lines, LinesOf binary f lines

variable {insns : Nat → Option Insn} {stop addr : Nat} {lines : List Line}

theorem walks_unique {other : List Line} (walks : Walks insns stop addr lines)
    (again : Walks insns stop addr other) : lines = other := by
  induction walks generalizing other with
  | ended past =>
      cases again with
      | ended _ => rfl
      | insn before _ _ => omega
  | insn before found _ ih =>
      cases again with
      | ended past => omega
      | insn _ same rest =>
          rw [found, Option.some.injEq] at same
          subst same
          rw [ih rest]

theorem walks_length (walks : Walks insns stop addr lines) : lines.length ≤ stop - addr := by
  induction walks with
  | ended _ => exact Nat.zero_le _
  | @insn addr insn rest before _ _ ih =>
      have some := List.length_pos_iff.mpr insn.some_byte
      rw [List.length_cons]
      omega

theorem lines_from_ok_iff (binary : Binary) (f : Symbol) (left addr : Nat) (lines : List Line)
    (enough : f.stop ≤ addr + left) :
    linesFrom binary f left addr = .ok lines ↔ Walks binary.insns f.stop addr lines := by
  induction left generalizing addr lines with
  | zero =>
      rw [linesFrom, Except.ok.injEq]
      constructor
      · rintro rfl
        exact .ended enough
      · intro walks
        cases walks with
        | ended _ => rfl
        | insn before _ _ => omega
  | succ left ih =>
      rw [linesFrom]
      constructor
      · intro read
        split_ifs at read with before
        · split at read
          · cases read
          · next insn found =>
              have some := List.length_pos_iff.mpr insn.some_byte
              split at read
              · cases read
              · next rest further =>
                  cases read
                  exact .insn before found ((ih _ rest (by omega)).mp further)
        · cases read
          exact .ended (Nat.not_lt.mp before)
      · intro walks
        cases walks with
        | ended past => rw [if_neg (Nat.not_lt.mpr past)]
        | @insn _ insn rest before found further =>
            have some := List.length_pos_iff.mpr insn.some_byte
            rw [if_pos before, found]
            dsimp only
            rw [(ih _ rest (by omega)).mpr further]

theorem disassemble_ok_iff (binary : Binary) (f : Symbol) (lines : List Line) :
    disassemble binary f = .ok lines ↔ LinesOf binary f lines :=
  lines_from_ok_iff binary f f.size f.addr lines (Nat.le_refl _)

end Walks

end SdcProbe.CallGraph
