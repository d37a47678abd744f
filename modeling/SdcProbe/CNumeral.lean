import Mathlib.Data.List.TakeWhile
import Mathlib.Algebra.Ring.Int.Defs
import Mathlib.Algebra.Ring.Nat

/-!
# Numerals as C reads them

`strtol` and `strtoul` in base ten: white space, a sign or none, decimal digits.
A text is a list of characters, each of them one byte, a `char` of C. A pointer
into it is the rest of the list from there on, and behind the last character
stands NUL. Against the readers stands
the grammar of the texts that are a numeral throughout, with their values.
-/

namespace CNumeral

set_option autoImplicit false

abbrev Text := List Char

abbrev nul : Char := '\x00'

/-- The character a pointer into a text points to. -/
def deref : Text → Char
  | [] => nul
  | c :: _ => c

/-- `isspace` of the C locale. -/
def isSpace (c : Char) : Bool :=
  c == ' ' || c == '\t' || c == '\n' || c == '\x0b' || c == '\x0c' || c == '\r'

def valueOf (negative : Bool) (magnitude : Nat) : Int :=
  if negative then -(magnitude : Int) else magnitude

structure Scan where
  negative : Bool
  magnitude : Nat
  rest : Text

def Scan.value (scan : Scan) : Int := valueOf scan.negative scan.magnitude

def scanDigits (negative : Bool) (digits : Text) : Option Scan :=
  if (deref digits).isDigit then
    some
      { negative
        magnitude := Nat.ofDigitChars 10 (digits.takeWhile Char.isDigit) 0
        rest := digits.dropWhile Char.isDigit }
  else none

def scanSigned (signed : Text) : Option Scan :=
  if deref signed = '-' then scanDigits true signed.tail
  else if deref signed = '+' then scanDigits false signed.tail
  else scanDigits false signed

/-- What both functions read off the front of a text, nothing where no digit
follows the blanks and the sign. -/
def scanNumeral (text : Text) : Option Scan := scanSigned (text.dropWhile isSpace)

/-- The two widths `long` has among the supported targets. -/
inductive LongWidth where
  | bits32 | bits64
  deriving DecidableEq

def LongWidth.bits : LongWidth → Nat
  | .bits32 => 32
  | .bits64 => 64

/-- The nearest value of the signed type. -/
def saturate (width : LongWidth) (value : Int) : Int :=
  max (-2 ^ (width.bits - 1)) (min value (2 ^ (width.bits - 1) - 1))

/-- The value and the pointer stored in `*end`. -/
def strtol (width : LongWidth) (text : Text) : Int × Text :=
  match scanNumeral text with
  | none => (0, text)
  | some scan => (saturate width scan.value, scan.rest)

/-- A minus sign negates in the unsigned type. -/
def strtoul (width : LongWidth) (text : Text) : Nat × Text :=
  match scanNumeral text with
  | none => (0, text)
  | some scan =>
      if 2 ^ width.bits ≤ scan.magnitude then (2 ^ width.bits - 1, scan.rest)
      else if scan.negative then
        ((2 ^ width.bits - scan.magnitude) % 2 ^ width.bits, scan.rest)
      else (scan.magnitude, scan.rest)

/-- `std::to_string` of a natural number. -/
def stdToString (number : Nat) : Text := Nat.toDigits 10 number

/-- `snprintf` into an array of a size. -/
def snprintf (size : Nat) (text : Text) : Text := text.take (size - 1)

section Grammar

def IsDigits (text : Text) : Prop := text ≠ [] ∧ ∀ c ∈ text, c.isDigit = true

def digitsValue (digits : Text) : Nat := Nat.ofDigitChars 10 digits 0

/-- The texts that are a numeral throughout, and their values. -/
inductive IsNumeral : Text → Int → Prop where
  | plain {digits : Text} : IsDigits digits → IsNumeral digits (digitsValue digits)
  | plus {digits : Text} : IsDigits digits → IsNumeral ('+' :: digits) (digitsValue digits)
  | minus {digits : Text} : IsDigits digits → IsNumeral ('-' :: digits) (-(digitsValue digits : Int))
  | blank {c : Char} {text : Text} {value : Int} :
      isSpace c = true → IsNumeral text value → IsNumeral (c :: text) value

end Grammar

/-- What a numeral that ends at the end of the text is read as. -/
def wholeNumeral (text : Text) : Option Int :=
  match scanNumeral text with
  | some scan => if scan.rest = [] then some scan.value else none
  | none => none

@[simp] theorem deref_cons (c : Char) (text : Text) : deref (c :: text) = c := rfl

theorem deref_eq_nul_iff {text : Text} (clean : nul ∉ text) : deref text = nul ↔ text = [] := by
  cases text with
  | nil => simp [deref]
  | cons c tail =>
      simp only [deref, reduceCtorEq, iff_false]
      rintro rfl
      exact clean List.mem_cons_self

theorem space_not_digit {c : Char} (space : isSpace c = true) : c.isDigit = false := by
  simp only [isSpace, Bool.or_eq_true, beq_iff_eq] at space
  rcases space with ((((rfl | rfl) | rfl) | rfl) | rfl) | rfl <;> rfl

theorem space_ne_nul {c : Char} (space : isSpace c = true) : c ≠ nul := by
  rintro rfl
  cases space

theorem digit_not_space {c : Char} (digit : c.isDigit = true) : isSpace c = false := by
  cases space : isSpace c with
  | false => rfl
  | true => rw [space_not_digit space] at digit; cases digit

theorem head_digit {digits : Text} (shape : IsDigits digits) : (deref digits).isDigit = true := by
  cases digits with
  | nil => exact absurd rfl shape.1
  | cons c tail => exact shape.2 c List.mem_cons_self

theorem scan_digits_of {digits : Text} (negative : Bool) (shape : IsDigits digits) :
    scanDigits negative digits = some ⟨negative, digitsValue digits, []⟩ := by
  rw [scanDigits, if_pos (head_digit shape), List.takeWhile_eq_self_iff.mpr shape.2,
    List.dropWhile_eq_nil_iff.mpr shape.2]
  rfl

theorem digits_of_scan {digits : Text} {negative : Bool} {scan : Scan}
    (scanned : scanDigits negative digits = some scan) (whole : scan.rest = []) :
    IsDigits digits ∧ scan.value = valueOf negative (digitsValue digits) := by
  unfold scanDigits at scanned
  split_ifs at scanned with head
  cases scanned
  have all := List.dropWhile_eq_nil_iff.mp whole
  constructor
  · constructor
    · rintro rfl
      cases head
    · exact all
  · rw [Scan.value, List.takeWhile_eq_self_iff.mpr all]
    rfl

theorem scan_blank {c : Char} (text : Text) (space : isSpace c = true) :
    scanNumeral (c :: text) = scanNumeral text := by
  rw [scanNumeral, List.dropWhile_cons_of_pos space, scanNumeral]

theorem scan_minus (text : Text) : scanNumeral ('-' :: text) = scanDigits true text := rfl

theorem scan_plus (text : Text) : scanNumeral ('+' :: text) = scanDigits false text := rfl

theorem scan_unsigned {c : Char} (text : Text) (space : isSpace c = false) (minus : c ≠ '-')
    (plus : c ≠ '+') : scanNumeral (c :: text) = scanDigits false (c :: text) := by
  rw [scanNumeral, List.dropWhile_cons_of_neg (by simp [space]), scanSigned, deref_cons,
    if_neg minus, if_neg plus]

theorem scan_plain {digits : Text} (shape : IsDigits digits) :
    scanNumeral digits = scanDigits false digits := by
  have head := head_digit shape
  cases digits with
  | nil => exact absurd rfl shape.1
  | cons c tail =>
      apply scan_unsigned tail (digit_not_space head)
      · rintro rfl
        cases head
      · rintro rfl
        cases head

theorem whole_numeral_of {text : Text} {value : Int} (numeral : IsNumeral text value) :
    wholeNumeral text = some value := by
  induction numeral with
  | plain shape =>
      simp [wholeNumeral, scan_plain shape, scan_digits_of _ shape, Scan.value, valueOf]
  | plus shape =>
      simp [wholeNumeral, scan_plus, scan_digits_of _ shape, Scan.value, valueOf]
  | minus shape =>
      simp [wholeNumeral, scan_minus, scan_digits_of _ shape, Scan.value, valueOf]
  | blank space _ ih => rwa [wholeNumeral, scan_blank _ space]

theorem whole_numeral_scan {text : Text} {value : Int} (whole : wholeNumeral text = some value) :
    ∃ scan, scanNumeral text = some scan ∧ scan.rest = [] ∧ scan.value = value := by
  unfold wholeNumeral at whole
  split at whole
  · next scan scanned =>
      split_ifs at whole with stopped
      cases whole
      exact ⟨scan, scanned, stopped, rfl⟩
  · cases whole

theorem numeral_of_whole {text : Text} {value : Int} (whole : wholeNumeral text = some value) :
    IsNumeral text value := by
  induction text with
  | nil => cases whole
  | cons c tail ih =>
      cases space : isSpace c with
      | true =>
          rw [wholeNumeral, scan_blank _ space] at whole
          exact .blank space (ih whole)
      | false =>
          obtain ⟨scan, scanned, stopped, read⟩ := whole_numeral_scan whole
          by_cases minus : c = '-'
          · subst minus
            have shaped := digits_of_scan scanned stopped
            rw [← read, shaped.2]
            exact .minus shaped.1
          · by_cases plus : c = '+'
            · subst plus
              have shaped := digits_of_scan scanned stopped
              rw [← read, shaped.2]
              exact .plus shaped.1
            · rw [scan_unsigned tail space minus plus] at scanned
              have shaped := digits_of_scan scanned stopped
              rw [← read, shaped.2]
              exact .plain shaped.1

theorem numeral_ne_nil {text : Text} {value : Int} (numeral : IsNumeral text value) :
    text ≠ [] := by
  rintro rfl
  cases whole_numeral_of numeral

theorem numeral_digit {text : Text} {value : Int} (numeral : IsNumeral text value) :
    ∃ c ∈ text, c.isDigit = true := by
  have first : ∀ {digits : Text}, IsDigits digits → ∃ c ∈ digits, c.isDigit = true := by
    intro digits shape
    obtain ⟨c, found⟩ := List.exists_mem_of_ne_nil digits shape.1
    exact ⟨c, found, shape.2 c found⟩
  induction numeral with
  | plain shape => exact first shape
  | plus shape => exact (first shape).imp fun _ digit => ⟨List.mem_cons_of_mem _ digit.1, digit.2⟩
  | minus shape => exact (first shape).imp fun _ digit => ⟨List.mem_cons_of_mem _ digit.1, digit.2⟩
  | blank _ _ ih => exact ih.imp fun _ digit => ⟨List.mem_cons_of_mem _ digit.1, digit.2⟩

section Readers

theorem scan_digits_suffix {negative : Bool} {digits : Text} {scan : Scan}
    (scanned : scanDigits negative digits = some scan) : scan.rest <:+ digits := by
  unfold scanDigits at scanned
  split_ifs at scanned
  cases scanned
  exact List.dropWhile_suffix _

theorem scan_suffix {text : Text} {scan : Scan} (scanned : scanNumeral text = some scan) :
    scan.rest <:+ text := by
  unfold scanNumeral scanSigned at scanned
  apply List.IsSuffix.trans _ (List.dropWhile_suffix isSpace)
  split_ifs at scanned
  · exact (scan_digits_suffix scanned).trans (List.tail_suffix _)
  · exact (scan_digits_suffix scanned).trans (List.tail_suffix _)
  · exact scan_digits_suffix scanned

theorem strtol_numeral (width : LongWidth) {text : Text} {value : Int}
    (numeral : IsNumeral text value) : strtol width text = (saturate width value, []) := by
  obtain ⟨scan, scanned, stopped, read⟩ := whole_numeral_scan (whole_numeral_of numeral)
  rw [strtol, scanned]
  exact congrArg₂ Prod.mk (congrArg _ read) stopped

/-- `*end` is NUL exactly behind a numeral that fills the text. -/
theorem strtol_stops_at_end (width : LongWidth) {text : Text} (clean : nul ∉ text)
    (given : text ≠ []) :
    deref (strtol width text).2 = nul ↔ ∃ value, IsNumeral text value := by
  constructor
  · intro stopped
    unfold strtol at stopped
    split at stopped
    · exact absurd ((deref_eq_nul_iff clean).mp stopped) given
    · next scan scanned =>
        have within := (scan_suffix scanned).subset
        have ended := (deref_eq_nul_iff fun found => clean (within found)).mp stopped
        apply Exists.intro scan.value
        apply numeral_of_whole
        simp only [wholeNumeral, scanned, ended, if_true]
  · rintro ⟨value, numeral⟩
    rw [strtol_numeral width numeral]
    rfl

/-- A conversion without an error: `strtol` comes to a NUL, with this value. -/
structure Converts (width : LongWidth) (text : Text) (value : Int) : Prop where
  given : text ≠ []
  read : (strtol width text).1 = value
  ended : deref (strtol width text).2 = nul

/-- White space before a text that converts is not needed. -/
theorem converts_drop_first {width : LongWidth} {c : Char} {text : Text} {value : Int}
    (space : isSpace c = true) (converts : Converts width (c :: text) value) :
    Converts width text value := by
  obtain ⟨_, read, ended⟩ := converts
  unfold strtol at read ended
  rw [scan_blank text space] at read ended
  cases scanned : scanNumeral text with
  | none =>
      rw [scanned] at ended
      exact absurd ended (space_ne_nul space)
  | some scan =>
      rw [scanned] at read ended
      constructor
      · rintro rfl
        cases scanned
      · rw [strtol, scanned]
        exact read
      · rw [strtol, scanned]
        exact ended

theorem deref_drop_last {c : Char} {text : Text} (space : isSpace c = true)
    (ended : deref (text ++ [c]) = nul) : text ≠ [] ∧ deref text = nul := by
  cases text with
  | nil => exact absurd ended (space_ne_nul space)
  | cons d text => exact ⟨List.cons_ne_nil d text, ended⟩

theorem scan_digits_append_space (negative : Bool) {c : Char} (digits : Text)
    (space : isSpace c = true) :
    scanDigits negative (digits ++ [c]) = (scanDigits negative digits).map
      fun scan => { scan with rest := scan.rest ++ [c] } := by
  have noDigit := space_not_digit space
  have notTaken : [c].takeWhile Char.isDigit = [] := by simp [noDigit]
  have kept : [c].dropWhile Char.isDigit = [c] := by simp [noDigit]
  cases digits with
  | nil =>
      simp only [scanDigits, List.nil_append, deref_cons, noDigit]
      rfl
  | cons d digits =>
      have taken : (d :: digits ++ [c]).takeWhile Char.isDigit =
          (d :: digits).takeWhile Char.isDigit := by
        rw [List.takeWhile_append, notTaken, List.append_nil]
        split_ifs with all
        · exact ((List.takeWhile_prefix Char.isDigit).eq_of_length all).symm
        · rfl
      have dropped : (d :: digits ++ [c]).dropWhile Char.isDigit =
          (d :: digits).dropWhile Char.isDigit ++ [c] := by
        rw [List.dropWhile_append, kept]
        split_ifs with none
        · rw [List.isEmpty_iff.mp none, List.nil_append]
        · rfl
      unfold scanDigits
      rw [taken, dropped, List.cons_append, deref_cons, deref_cons]
      split_ifs
      · rfl
      · rfl

theorem scan_signed_append_space {c : Char} (signed : Text) (space : isSpace c = true) :
    scanSigned (signed ++ [c]) = (scanSigned signed).map
      fun scan => { scan with rest := scan.rest ++ [c] } := by
  cases signed with
  | nil =>
      have unsigned : scanSigned [c] = scanDigits false [c] := by
        rw [scanSigned, deref_cons, if_neg, if_neg]
        · rintro rfl
          cases space
        · rintro rfl
          cases space
      exact unsigned.trans (scan_digits_append_space false [] space)
  | cons d signed =>
      unfold scanSigned
      rw [List.cons_append, deref_cons, deref_cons, List.tail_cons, List.tail_cons]
      split_ifs
      · exact scan_digits_append_space true signed space
      · exact scan_digits_append_space false signed space
      · exact scan_digits_append_space false (d :: signed) space

theorem scan_append_space {c : Char} (text : Text) (space : isSpace c = true) :
    scanNumeral (text ++ [c]) = (scanNumeral text).map
      fun scan => { scan with rest := scan.rest ++ [c] } := by
  unfold scanNumeral
  rw [List.dropWhile_append, List.dropWhile_cons_of_pos space, List.dropWhile_nil]
  split_ifs with none
  · rw [List.isEmpty_iff.mp none]
    rfl
  · exact scan_signed_append_space _ space

/-- White space behind it is not needed either. -/
theorem converts_drop_last {width : LongWidth} {c : Char} {text : Text} {value : Int}
    (space : isSpace c = true) (converts : Converts width (text ++ [c]) value) :
    Converts width text value := by
  obtain ⟨_, read, ended⟩ := converts
  unfold strtol at read ended
  rw [scan_append_space text space] at read ended
  cases scanned : scanNumeral text with
  | none =>
      rw [scanned] at read ended
      have before := deref_drop_last space ended
      constructor
      · exact before.1
      · rw [strtol, scanned]
        exact read
      · rw [strtol, scanned]
        exact before.2
  | some scan =>
      rw [scanned] at read ended
      have before := deref_drop_last space ended
      constructor
      · rintro rfl
        cases scanned
      · rw [strtol, scanned]
        exact read
      · rw [strtol, scanned]
        exact before.2

theorem saturate_le_iff (width : LongWidth) (value : Int) {bound : Int}
    (low : -2 ^ 31 ≤ bound) (high : bound < 2 ^ 31 - 1) :
    saturate width value ≤ bound ↔ value ≤ bound := by
  cases width <;> simp only [saturate, LongWidth.bits] <;> omega

theorem le_saturate_iff (width : LongWidth) (value : Int) {bound : Int}
    (low : -2 ^ 31 < bound) (high : bound ≤ 2 ^ 31 - 1) :
    bound ≤ saturate width value ↔ bound ≤ value := by
  cases width <;> simp only [saturate, LongWidth.bits] <;> omega

theorem saturate_small (width : LongWidth) {value : Int} (low : -2 ^ 31 ≤ value)
    (high : value ≤ 2 ^ 31 - 1) : saturate width value = value := by
  cases width <;> simp only [saturate, LongWidth.bits] <;> omega

theorem converts_iff_numeral {width : LongWidth} {text : Text} {value : Int}
    (clean : nul ∉ text) (low : -2 ^ 31 < value) (high : value < 2 ^ 31 - 1) :
    Converts width text value ↔ IsNumeral text value := by
  constructor
  · rintro ⟨given, read, ended⟩
    obtain ⟨number, numeral⟩ := (strtol_stops_at_end width clean given).mp ended
    rw [strtol_numeral width numeral] at read
    have above := (le_saturate_iff width number low (Int.le_of_lt high)).mp
      (Int.le_of_eq read.symm)
    have below := (saturate_le_iff width number (Int.le_of_lt low) high).mp
      (Int.le_of_eq read)
    rwa [Int.le_antisymm above below]
  · intro numeral
    constructor
    · exact numeral_ne_nil numeral
    · rw [strtol_numeral width numeral]
      exact saturate_small width (Int.le_of_lt low) (Int.le_of_lt high)
    · rw [strtol_numeral width numeral]
      rfl

end Readers

section Printing

theorem std_to_string_digits (number : Nat) : IsDigits (stdToString number) := by
  constructor
  · exact Nat.toDigits_ne_nil
  · intro c found
    exact Nat.isDigit_of_mem_toDigits (by decide) (by decide) found

theorem std_to_string_numeral (number : Nat) : IsNumeral (stdToString number) number := by
  have plain := IsNumeral.plain (std_to_string_digits number)
  rwa [digitsValue, stdToString, Nat.ofDigitChars_ten_toDigits] at plain

end Printing

end CNumeral
