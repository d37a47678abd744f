import Mathlib.Data.List.Sort
import SdcProbe.Disassembly

/-!
# The symbol table

The tables at the top of `main` in `gen_rbx_payload.py` and what it looks up in
them. A symbol is a line of `nm`, so its names have no line break in them.
-/

namespace SdcProbe.SymbolTable

open CNumeral Disassembly

set_option autoImplicit false

structure Symbol where
  addr : Nat
  size : Nat
  kind : Text
  name : Text
  demangled : Text
  deriving DecidableEq

def Symbol.stop (symbol : Symbol) : Nat := symbol.addr + symbol.size

/-- `addr <= target < addr + size` -/
def Symbol.Covers (symbol : Symbol) (target : Nat) : Prop :=
  symbol.addr ≤ target ∧ target < symbol.stop

instance (symbol : Symbol) (target : Nat) : Decidable (symbol.Covers target) :=
  inferInstanceAs (Decidable (_ ∧ _))

/-- What is read of the binary and of the object file: `nm` and `objdump`. -/
structure Binary where
  path : Text
  symbols : List Symbol
  unitNames : List Text
  insns : Nat → Option Insn

def runtimeCopied : List Text :=
  ["__asan_stack_malloc_0".toList, "__asan_stack_malloc_1".toList,
    "__asan_stack_malloc_2".toList, "__asan_stack_malloc_3".toList,
    "__asan_set_shadow_f5".toList, "_ZN6__asan12PoisonShadowEmmh".toList]

/-- The labels of the runtime data the payload carries. -/
inductive DataLabel where
  | detectUar | midBeg | midEnd | highEnd | canPoison | realMemset
  deriving DecidableEq

def DataLabel.text : DataLabel → Text
  | .detectUar => "sdc_rbx_d_detect_uar".toList
  | .midBeg => "sdc_rbx_d_mid_beg".toList
  | .midEnd => "sdc_rbx_d_mid_end".toList
  | .highEnd => "sdc_rbx_d_high_end".toList
  | .canPoison => "sdc_rbx_d_can_poison".toList
  | .realMemset => "sdc_rbx_d_real_memset".toList

def dataSpecial : List (Text × DataLabel) :=
  [("__asan_option_detect_stack_use_after_return".toList, .detectUar),
    ("_ZN6__asan10kMidMemBegE".toList, .midBeg),
    ("_ZN6__asan10kMidMemEndE".toList, .midEnd),
    ("_ZN6__asan11kHighMemEndE".toList, .highEnd),
    ("_ZN6__asanL17can_poison_memoryE".toList, .canPoison),
    ("_ZN14__interception11real_memsetE".toList, .realMemset)]

def dataCold : List Text :=
  ["_ZN6__asan28asan_flags_dont_use_directlyE".toList,
    "_ZN11__sanitizer21common_flags_dont_useE".toList,
    "_ZN11__sanitizerL14PageSizeCachedE".toList,
    "_ZN11__sanitizer14PageSizeCachedE".toList]

/-- `s.kind in "tTwW"`, a substring. -/
def isCode (kind : Text) : Prop := kind <:+: "tTwW".toList

def isData (kind : Text) : Prop := kind <:+: "bBdDrRvV".toList

instance (kind : Text) : Decidable (isCode kind) := inferInstanceAs (Decidable (_ <:+: _))

instance (kind : Text) : Decidable (isData kind) := inferInstanceAs (Decidable (_ <:+: _))

section Tables

variable (binary : Binary)

/-- Sorted by address, in the order of the table where addresses agree. -/
def functions : List Symbol :=
  (binary.symbols.filter fun s => isCode s.kind ∧ s.size ≠ 0).insertionSort
    fun a b => a.addr ≤ b.addr

def objects : List Symbol := binary.symbols.filter fun s => isData s.kind ∧ s.size ≠ 0

/-- `by_addr.get`: `setdefault` keeps the first function of an address. -/
def byAddr (addr : Nat) : Option Symbol := (functions binary).find? (·.addr = addr)

def functionAt (addr : Nat) : Option Symbol := (functions binary).find? (·.Covers addr)

def objectAt (addr : Nat) : Option Symbol := (objects binary).find? (·.Covers addr)

/-- `ENTRY_PATTERN.match` -/
def isEntry (f : Symbol) : Prop :=
  let front := "(anonymous namespace)::hash(std::vector<".toList
  front <+: f.demangled ∧ "> const&)".toList <:+ f.demangled.drop front.length

instance (f : Symbol) : Decidable (isEntry f) := inferInstanceAs (Decidable (_ ∧ _))

def entryOf : Except Text Symbol :=
  match (functions binary).filter fun f => isEntry f with
  | [entry] => .ok entry
  | _ => .error ("cannot identify hash() in ".toList ++ binary.path)

def copied (f : Symbol) : Prop := f.name ∈ binary.unitNames ∨ f.name ∈ runtimeCopied

instance (f : Symbol) : Decidable (copied binary f) := inferInstanceAs (Decidable (_ ∨ _))

/-- The label a name has in `DATA_SPECIAL`. -/
def specialLabel (name : Text) : Option DataLabel :=
  (dataSpecial.find? (·.1 = name)).map Prod.snd

end Tables

section Lookups

variable {binary : Binary}

theorem mem_functions {f : Symbol} :
    f ∈ functions binary ↔ f ∈ binary.symbols ∧ isCode f.kind ∧ f.size ≠ 0 := by
  rw [functions, List.mem_insertionSort, List.mem_filter, decide_eq_true_eq]

theorem by_addr_some {target : Nat} {callee : Symbol}
    (found : byAddr binary target = some callee) :
    callee ∈ functions binary ∧ callee.addr = target := by
  constructor
  · exact List.mem_of_find?_eq_some found
  · have same := List.find?_some found
    rwa [decide_eq_true_eq] at same

theorem by_addr_none {target : Nat} (missing : byAddr binary target = none) {f : Symbol}
    (listed : f ∈ functions binary) : f.addr ≠ target := by
  have other := List.find?_eq_none.mp missing f listed
  simpa only [decide_eq_true_eq] using other

theorem by_addr_start {f : Symbol} (listed : f ∈ functions binary) :
    ∃ callee, byAddr binary f.addr = some callee := by
  cases found : byAddr binary f.addr with
  | some callee => exact ⟨callee, rfl⟩
  | none => exact absurd rfl (by_addr_none found listed)

theorem entry_listed {entry : Symbol} (found : entryOf binary = .ok entry) :
    entry ∈ functions binary := by
  unfold entryOf at found
  split at found
  · next _ single =>
      cases found
      have member : entry ∈ (functions binary).filter fun f => isEntry f := by
        rw [single]
        exact List.mem_singleton_self entry
      exact List.mem_of_mem_filter member
  · cases found

end Lookups

end SdcProbe.SymbolTable
