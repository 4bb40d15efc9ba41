/-
# What Python does with text

The parts of Python's built-in text handling a test wrapper uses: white space
and decimal digits as Unicode has them, `int`, `split`, `readlines`, `%03d`,
`decode("utf-8")`, and the exceptions these raise.
-/
import Longan.Lib.Numeral

namespace Longan
namespace Python

/-- The exceptions. -/
inductive PyError
  | valueError | indexError | attributeError | unicodeDecodeError
  deriving DecidableEq, Repr

/-! ### Characters -/

/-- White space: `str.isspace`, and what `\s` matches. -/
def isSpace (c : Char) : Bool :=
  (9 ≤ c.toNat && c.toNat ≤ 13) || (28 ≤ c.toNat && c.toNat ≤ 32) ||
    (8192 ≤ c.toNat && c.toNat ≤ 8202) ||
    c.toNat ∈ [0x85, 0xa0, 0x1680, 0x2028, 0x2029, 0x202f, 0x205f, 0x3000]

/-- The zeros of the scripts that have decimal digits, each with its nine
digits after it. -/
def zeros : List ℕ := [0x30, 0x660, 0x6f0, 0x7c0, 0x966, 0x9e6, 0xa66, 0xae6, 0xb66, 0xbe6, 0xc66,
  0xce6, 0xd66, 0xde6, 0xe50, 0xed0, 0xf20, 0x1040, 0x1090, 0x17e0, 0x1810, 0x1946, 0x19d0, 0x1a80,
  0x1a90, 0x1b50, 0x1bb0, 0x1c40, 0x1c50, 0xa620, 0xa8d0, 0xa900, 0xa9d0, 0xa9f0, 0xaa50, 0xabf0,
  0xff10, 0x104a0, 0x10d30, 0x11066, 0x110f0, 0x11136, 0x111d0, 0x112f0, 0x11450, 0x114d0, 0x11650,
  0x116c0, 0x11730, 0x118e0, 0x11950, 0x11c50, 0x11d50, 0x11da0, 0x16a60, 0x16ac0, 0x16b50, 0x1d7ce,
  0x1d7d8, 0x1d7e2, 0x1d7ec, 0x1d7f6, 0x1e140, 0x1e2f0, 0x1e950, 0x1fbf0]

/-- The value of a decimal digit: what `\d` matches. -/
def digit (c : Char) : Option ℕ :=
  (zeros.find? fun z => z ≤ c.toNat && c.toNat < z + 10).map fun z => c.toNat - z

def isDigit (c : Char) : Bool := (digit c).isSome

/-! ### Texts -/

/-- `t.split(c)`. -/
def splitOn (c : Char) (t : Text) : List Text := t.splitOnP (· = c)

/-- `t.split()`. -/
def split (t : Text) : List Text := (t.splitOnP isSpace).filter (· ≠ [])

/-- `t.strip()`. -/
def strip (t : Text) : Text := (t.dropWhile isSpace).rdropWhile isSpace

/-- What a file opened in text mode reads as: `\r\n` and `\r` end a line like
`\n`. -/
def universalNewlines : Text → Text
  | [] => []
  | '\r' :: '\n' :: t => '\n' :: universalNewlines t
  | '\r' :: t => '\n' :: universalNewlines t
  | c :: t => c :: universalNewlines t

/-- The lines of a text, each with its newline. -/
def splitLines : Text → List Text
  | [] => []
  | c :: t =>
    if c = '\n' then ['\n'] :: splitLines t
    else match splitLines t with
      | [] => [[c]]
      | l :: ls => (c :: l) :: ls

/-- `readlines()` of a file with this text. -/
def readlines (t : Text) : List Text := splitLines (universalNewlines t)

/-- A lone carriage return ends a line. -/
example : readlines "1 a\r2 b\r\n".toList = ["1 a\n".toList, "2 b\n".toList] := by decide

/-- The number of digits that may stand in groups with `_` between them. -/
def digitGroups (t : Text) : Option ℕ :=
  let groups := splitOn '_' t
  if groups.all (fun g => g ≠ [] && g.all isDigit) then
    some (groups.flatten.foldl (fun n c => 10 * n + (digit c).getD 0) 0)
  else none

/-- `int(t)`. -/
def int (t : Text) : Except PyError ℤ :=
  match strip t with
  | '-' :: r => ((digitGroups r).map fun n : ℕ => -(n : ℤ)).elim (.error .valueError) .ok
  | '+' :: r => ((digitGroups r).map Nat.cast).elim (.error .valueError) .ok
  | r => ((digitGroups r).map Nat.cast).elim (.error .valueError) .ok

/-- `"%03d" % z`. -/
def pad3 (z : ℤ) : Text := if z < 0 then '-' :: Text.pad 2 z.natAbs else Text.pad 3 z.natAbs

/-- `range(a, b)`. -/
def range (a b : ℤ) : List ℤ := (List.range (b - a).toNat).map fun i : ℕ => a + i

/-- `b.decode("utf-8")`. -/
def decode (b : List UInt8) : Except PyError Text :=
  ((String.fromUTF8? ⟨b.toArray⟩).map String.toList).elim (.error .unicodeDecodeError) .ok

end Python
end Longan
