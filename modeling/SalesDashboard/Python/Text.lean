import Mathlib

/-! The text functions of Python that the ETL compares words with. -/

namespace SalesDashboard.Python

/-- `str.isspace`, which is also what `strip` removes and `\s` matches. -/
def isSpace (c : Char) : Bool :=
  let n := c.toNat
  (9 ≤ n && n ≤ 13) || (0x1c ≤ n && n ≤ 0x20) || n = 0x85 || n = 0xa0 || n = 0x1680 ||
    (0x2000 ≤ n && n ≤ 0x200a) || n = 0x2028 || n = 0x2029 || n = 0x202f || n = 0x205f || n = 0x3000

def stripChars (cs : List Char) : List Char := (cs.dropWhile isSpace).rdropWhile isSpace

def strip (s : String) : String := String.ofList (stripChars s.toList)

/-- The letters whose capital is in ASCII. -/
def upperChar (c : Char) : Char :=
  if c.toNat = 0x131 then 'I' else if c.toNat = 0x17f then 'S' else c.toUpper

/-- `str.upper`, as far as comparing with a word of ASCII letters goes. -/
def upper (s : String) : String := s.map upperChar

def lowerChar (c : Char) : Char := if c.toNat = 0x212a then 'k' else c.toLower

/-- `str.lower`, as far as comparing with a word of ASCII letters goes. -/
def lower (s : String) : String := s.map lowerChar

end SalesDashboard.Python
