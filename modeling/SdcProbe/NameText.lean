import SdcProbe.SymbolTable
import SdcProbe.TextFields

/-!
# Names for reports

`strip_groups` and `short_name` of `gen_rbx_payload.py`, the string a name becomes in
the output, and how an assembler reads that string. Names are ASCII, a character is a
byte.
-/

namespace SdcProbe.NameText

open CNumeral Disassembly

set_option autoImplicit false

/-- `text.replace(old, new)`, behind `skip` more characters of a match. -/
def replaceFrom (old new : Text) : Nat → Text → Text
  | _, [] => []
  | skip + 1, _ :: text => replaceFrom old new skip text
  | 0, c :: text =>
      if old <+: c :: text then new ++ replaceFrom old new (old.length - 1) text
      else c :: replaceFrom old new 0 text

def replace (old new text : Text) : Text := replaceFrom old new 0 text

/-- `strip_groups`, from a depth on. -/
def stripGroups (openCh closeCh : Char) : Int → Text → Text
  | _, [] => []
  | depth, ch :: text =>
      if ch = openCh then stripGroups openCh closeCh (depth + 1) text
      else if ch = closeCh then stripGroups openCh closeCh (depth - 1) text
      else if depth = 0 then ch :: stripGroups openCh closeCh depth text
      else stripGroups openCh closeCh depth text

def wordsOf (demangled : Text) : List Text :=
  let text := replace "(anonymous namespace)::".toList [] demangled
  let text := stripGroups '<' '>' 0 text
  let text := stripGroups '(' ')' 0 text
  let text := replace "__asan::".toList "asan::".toList text
  (TextFields.fields Disassembly.isSpace text).filter fun w => w ≠ "const".toList

def shortName (demangled : Text) : Text :=
  if "::$_0::operator()".toList <:+: demangled then "hash::lambda".toList
  else (wordsOf demangled).getLast?.getD demangled

/-- Backslashes and quotation marks of the string behind `.asciz`. -/
def escape (name : Text) : Text :=
  replace ['"'] ['\\', '"'] (replace ['\\'] ['\\', '\\'] name)

/-- What an assembler reads up to the closing quotation mark, of the escapes the two
that are written. -/
def readString : Text → Option (Text × Text)
  | [] => none
  | '"' :: rest => some ([], rest)
  | '\\' :: c :: rest =>
      if c = '\\' ∨ c = '"' then (readString rest).map fun (name, behind) => (c :: name, behind)
      else none
  | c :: rest => (readString rest).map fun (name, behind) => (c :: name, behind)

section Escapes

theorem replace_char (c : Char) (new text : Text) :
    replace [c] new text = text.flatMap fun d => if d = c then new else [d] := by
  rw [replace]
  induction text with
  | nil => rfl
  | cons d text ih =>
      rw [replaceFrom, List.flatMap_cons]
      by_cases same : d = c
      · have here : [c] <+: d :: text := by rw [same]; exact ⟨text, rfl⟩
        rw [if_pos here, if_pos same, List.length_singleton, Nat.sub_self, ih]
      · have absent : ¬ [c] <+: d :: text := by
          rw [List.cons_prefix_cons]
          exact fun starts => same starts.1.symm
        rw [if_neg absent, if_neg same, ih]
        rfl

theorem escape_nil : escape [] = [] := rfl

theorem escape_cons (c : Char) (name : Text) :
    escape (c :: name) = (if c = '\\' ∨ c = '"' then ['\\', c] else [c]) ++ escape name := by
  simp only [escape, replace_char, List.flatMap_cons, List.flatMap_append]
  congr 1
  by_cases backslash : c = '\\'
  · subst backslash
    decide
  · by_cases quote : c = '"'
    · subst quote
      decide
    · simp [backslash, quote]

theorem read_string_escaped {c : Char} {text : Text} (special : c = '\\' ∨ c = '"') :
    readString ('\\' :: c :: text) =
      (readString text).map fun (name, behind) => (c :: name, behind) := by
  rw [readString, if_pos special]

theorem read_string_plain {c : Char} {text : Text} (backslash : c ≠ '\\') (quote : c ≠ '"') :
    readString (c :: text) = (readString text).map fun (name, behind) => (c :: name, behind) := by
  rw [readString]
  · exact quote
  · exact fun _ _ same _ => backslash same

/-- An assembler reads back the name that was written. -/
theorem read_string_escape (name rest : Text) :
    readString (escape name ++ '"' :: rest) = some (name, rest) := by
  induction name with
  | nil =>
      rw [escape_nil, List.nil_append, readString]
  | cons c name ih =>
      rw [escape_cons]
      split_ifs with special
      · rw [List.append_assoc, List.cons_append, List.cons_append, List.nil_append,
          read_string_escaped special, ih]
        rfl
      · rw [not_or] at special
        rw [List.append_assoc, List.cons_append, List.nil_append, read_string_plain special.1
          special.2, ih]
        rfl

end Escapes

section Hexadecimal

theorem hex_digit_char {digit : Nat} (small : digit < 16) :
    isHexDigit (Nat.digitChar digit) = true ∧ hexDigitValue (Nat.digitChar digit) = digit := by
  have all : ∀ digit : Fin 16, isHexDigit (Nat.digitChar digit) = true ∧
      hexDigitValue (Nat.digitChar digit) = digit := by decide
  exact all ⟨digit, small⟩

theorem hex_value_append (digits : Text) (c : Char) :
    hexValue (digits ++ [c]) = 16 * hexValue digits + hexDigitValue c := by
  rw [hexValue, List.foldl_append]
  rfl

theorem hex_value_text (number : Nat) : hexValue (hexText number) = number := by
  induction number using Nat.strong_induction_on with
  | _ number ih =>
      rw [hexText, Nat.toDigits_eq_if (by decide)]
      split_ifs with small
      · rw [hexValue, List.foldl_cons, List.foldl_nil, (hex_digit_char small).2]
        omega
      · have rest := ih (number / 16) (by omega)
        rw [hexText] at rest
        rw [hex_value_append, rest, (hex_digit_char (by omega)).2]
        omega

theorem hex_text_digits (number : Nat) : ∀ c ∈ hexText number, isHexDigit c = true := by
  induction number using Nat.strong_induction_on with
  | _ number ih =>
      rw [hexText, Nat.toDigits_eq_if (by decide)]
      intro c member
      split_ifs at member with small
      · rw [List.mem_singleton.mp member]
        exact (hex_digit_char small).1
      · cases List.mem_append.mp member with
        | inl front => exact ih (number / 16) (by omega) c front
        | inr last =>
            rw [List.mem_singleton.mp last]
            exact (hex_digit_char (by omega)).1

end Hexadecimal

end SdcProbe.NameText
