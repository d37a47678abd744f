import Mathlib.Data.List.Infix
import SdcProbe.CNumeral

/-!
# The disassembly

What `gen_rbx_payload.py` keeps of objdump's listing, an instruction and its text
for an address, and its two regular expressions for operands. `re.match` is
anchored at the front of the text and `re.search` takes the leftmost match.
-/

namespace SdcProbe.Disassembly

open CNumeral

set_option autoImplicit false

abbrev Byte := BitVec 8

/-- `\s` of a Python pattern. -/
def isSpace (c : Char) : Bool :=
  let n := c.toNat
  (9 ≤ n && n ≤ 13) || (28 ≤ n && n ≤ 32) || n == 133 || n == 160 || n == 5760 ||
    (8192 ≤ n && n ≤ 8202) || n == 8232 || n == 8233 || n == 8239 || n == 8287 || n == 12288

def isLower (c : Char) : Bool := 'a' ≤ c && c ≤ 'z'

/-- `[0-9a-f]` -/
def isHexDigit (c : Char) : Bool := c.isDigit || ('a' ≤ c && c ≤ 'f')

def hexDigitValue (c : Char) : Nat :=
  if c.isDigit then c.toNat - '0'.toNat else c.toNat - 'a'.toNat + 10

/-- `int(digits, 16)` -/
def hexValue (digits : Text) : Nat :=
  digits.foldl (fun value c => 16 * value + hexDigitValue c) 0

/-- `%x` -/
def hexText (number : Nat) : Text := Nat.toDigits 16 number

/-- The two groups of a match. -/
structure Place where
  target : Nat
  shown : Text
  deriving DecidableEq

/-- `([0-9a-f]+) <([^>]*)>` -/
def matchPlace (text : Text) : Option Place :=
  let digits := text.takeWhile isHexDigit
  let behind := text.dropWhile isHexDigit
  if digits ≠ [] ∧ " <".toList <+: behind ∧ '>' ∈ behind.drop 2 then
    some { target := hexValue digits, shown := (behind.drop 2).takeWhile (· ≠ '>') }
  else none

def afterWord (word text : Text) : Option Text :=
  if word <+: text then some (text.drop word.length) else none

/-- `j[a-z]+` -/
def afterJump (text : Text) : Option Text :=
  match text with
  | 'j' :: letters =>
      if isLower (deref letters) then some (letters.dropWhile isLower) else none
  | _ => none

/-- The alternatives of `BRANCH`, in order. -/
def opcodes : List (Text → Option Text) :=
  [afterWord "call".toList, afterWord "jmp".toList, afterJump, afterWord "bnd jmp".toList,
    afterWord "notrack jmp".toList]

/-- `\s+` and the operand. -/
def matchOperand (text : Text) : Option Place :=
  if isSpace (deref text) then matchPlace (text.dropWhile isSpace) else none

/-- `BRANCH.match` -/
def matchBranch (text : Text) : Option Place :=
  opcodes.findSome? fun opcode => (opcode text).bind matchOperand

/-- `RIPREL` at the front of a text. -/
def matchRiprel (text : Text) : Option Place :=
  (afterWord "# ".toList text).bind matchPlace

/-- `RIPREL.search` -/
def searchRiprel : Text → Option Place
  | [] => none
  | c :: text => (matchRiprel (c :: text)).or (searchRiprel text)

/-- The rip-relative operand of a text, looked for where the text has `(%rip)`. -/
def riprelOf (text : Text) : Option Place :=
  if "(%rip)".toList <:+: text then searchRiprel text else none

/-- The pattern for a line of the listing asks for at least one byte. -/
structure Insn where
  raw : List Byte
  text : Text
  some_byte : raw ≠ []

/-- A line of a function's body. -/
structure Line extends Insn where
  addr : Nat

example : matchBranch "call   10f0 <hash+0x10>".toList = some ⟨0x10f0, "hash+0x10".toList⟩ := by
  decide

example : riprelOf "lea    0x2f(%rip),%rax        # 4010 <flag>".toList =
    some ⟨0x4010, "flag".toList⟩ := by
  decide

end SdcProbe.Disassembly
