import SalesDashboard.Marcom.Text
import Mathlib

/-! Exact rational arithmetic on BigInt (`rat.ts`). A BigInt is an integer; an engine refuses
the operations that would make one too long for it, each with an error of its own. Texts are
lists of characters. -/

namespace SalesDashboard.MarcomKpi.Exact
open Marcom

/-! ## BigInt and Number -/

def digitsValue (cs : List Char) : ℕ := Nat.ofDigitChars 10 cs 0

/-- What makes a longer BigInt: `*`, `+`, `-`, `10n ** k`, and `BigInt` of a text of digits. -/
inductive Operation
  | product (x y : ℤ)
  | sum (x y : ℤ)
  | difference (x y : ℤ)
  | power (k : ℕ)
  | digits (cs : List Char)

def Operation.result : Operation → ℤ
  | .product x y => x * y
  | .sum x y => x + y
  | .difference x y => x - y
  | .power k => 10 ^ k
  | .digits cs => digitsValue cs

/-- `fits`: the operation is one the engine carries out. No engine has a BigInt of 2⁵³ digits. -/
structure Engine where
  fits : Operation → Bool
  lt_of_fits_power : ∀ k, fits (.power k) = true → k < 2 ^ 53

inductive Fault
  /-- `RangeError('Rat: zero denominator')`. -/
  | zeroDenominator
  /-- `TypeError`, "not a finite number". -/
  | notFinite (shown : List Char)
  /-- `TypeError`, "not a decimal". -/
  | notDecimal (shown : List Char)
  /-- A method of `null`, or one with the argument `null`. -/
  | nullOperand
  /-- A BigInt that is too long for the engine, or one of an infinite number. -/
  | tooBig
  deriving DecidableEq

def big (E : Engine) (op : Operation) : Except Fault ℤ :=
  if E.fits op then .ok op.result else .error .tooBig

/-- Doubles from here on are infinite. -/
def infinityFrom : ℕ := 2 ^ 1024

/-- A whole number to 53 bits, ties to even. -/
def roundEven (n : ℕ) : ℕ :=
  let e := n.size - 53
  let q := n / 2 ^ e
  let r := n % 2 ^ e
  (if 2 ^ e < 2 * r ∨ (2 * r = 2 ^ e ∧ q % 2 = 1) then q + 1 else q) * 2 ^ e

/-- A whole number as a double; none is infinity. -/
def toDouble (n : ℕ) : Option ℕ := if roundEven n < infinityFrom then some (roundEven n) else none

/-! ## Rationals -/

structure Rat where
  n : ℤ
  d : ℤ
  deriving DecidableEq

/-- The loop of `gcd`: `[x, y] = [y, x % y]` while `y` is not zero. -/
def gcdLoop (x y : ℤ) : ℤ :=
  if _h : y = 0 then x else gcdLoop y (x.tmod y)
termination_by y.natAbs
decreasing_by
  rw [Int.natAbs_tmod]
  exact Nat.mod_lt _ (Int.natAbs_pos.mpr _h)

def gcd (a b : ℤ) : ℤ := gcdLoop (if a < 0 then -a else a) (if b < 0 then -b else b)

namespace Rat

def of (n d : ℤ) : Except Fault Rat :=
  if d = 0 then .error .zeroDenominator
  else
    let n' := if d < 0 then -n else n
    let d' := if d < 0 then -d else d
    let g := if gcd n' d' = 0 then 1 else gcd n' d'
    .ok ⟨n'.tdiv g, d'.tdiv g⟩

def ZERO : Rat := ⟨0, 1⟩

def add (E : Engine) (a b : Rat) : Except Fault Rat := do
  let x ← big E (.product a.n b.d)
  let y ← big E (.product b.n a.d)
  let s ← big E (.sum x y)
  let d ← big E (.product a.d b.d)
  of s d

def sub (E : Engine) (a b : Rat) : Except Fault Rat := do
  let x ← big E (.product a.n b.d)
  let y ← big E (.product b.n a.d)
  let s ← big E (.difference x y)
  let d ← big E (.product a.d b.d)
  of s d

def mul (E : Engine) (a b : Rat) : Except Fault Rat := do
  let n ← big E (.product a.n b.n)
  let d ← big E (.product a.d b.d)
  of n d

/-- `null` when the divisor is zero. -/
def div (E : Engine) (a b : Rat) : Except Fault (Option Rat) :=
  if b.n = 0 then .ok none
  else do
    let n ← big E (.product a.n b.d)
    let d ← big E (.product a.d b.n)
    let r ← of n d
    return some r

def cmp (E : Engine) (a b : Rat) : Except Fault ℤ := do
  let l ← big E (.product a.n b.d)
  let r ← big E (.product b.n a.d)
  return if l < r then -1 else if r < l then 1 else 0

end Rat

/-! ## Parsing -/

def isSign (c : Char) : Bool := c = '+' || c = '-'

/-- A text without the sign in front. -/
def unsigned : List Char → List Char
  | [] => []
  | c :: cs => if isSign c then cs else c :: cs

/-- `[+-]?[\d.]+`. -/
def isMantissa (cs : List Char) : Bool :=
  unsigned cs ≠ [] && (unsigned cs).all fun c => c.isDigit || c = '.'

/-- `[+-]?\d+`. -/
def isExponent (cs : List Char) : Bool := unsigned cs ≠ [] && (unsigned cs).all Char.isDigit

def isE (c : Char) : Bool := c = 'e' || c = 'E'

/-- `/^([+-]?[\d.]+)[eE]([+-]?\d+)$/`; only the first e can be the one of the expression. -/
def expMatch (s : List Char) : Option (List Char × List Char) :=
  match s.dropWhile fun c => ! isE c with
  | [] => none
  | _ :: ex =>
      let base := s.takeWhile fun c => ! isE c
      if isMantissa base && isExponent ex then some (base, ex) else none

/-- `/^(\d*)(?:\.(\d*))?$/`. -/
def decimalMatch (s : List Char) : Option (List Char × Option (List Char)) :=
  match s.dropWhile Char.isDigit with
  | [] => some (s.takeWhile Char.isDigit, none)
  | c :: frac =>
      if c = '.' && frac.all Char.isDigit then some (s.takeWhile Char.isDigit, some frac) else none

/-- `Number` of the text of an exponent; none is an infinity. -/
def exponentNumber (ex : List Char) : Option ℤ :=
  (toDouble (digitsValue (unsigned ex))).map fun k : ℕ => if ex.head? = some '-' then -(k : ℤ) else k

/-- The part after the exponent: an optional sign and a plain decimal. -/
def parseDecimal (E : Engine) (shown s : List Char) : Except Fault Rat :=
  let neg := s.head? = some '-'
  match decimalMatch (unsigned s) with
  | none => .error (.notDecimal shown)
  | some (int, frac?) =>
      let frac := frac?.getD []
      if int = [] ∧ frac = [] then .error (.notDecimal shown)
      else do
        let n ← big E (.digits ((if int = [] then ['0'] else int) ++ frac))
        let d ← big E (.power frac.length)
        Rat.of (if neg then -n else n) d

/-- `base.mul(…)` or `base.div(…)!` with a power of ten, which is not zero. -/
def scale (E : Engine) (base : Rat) (shift : Option ℤ) : Except Fault Rat :=
  match shift with
  | none => .error .tooBig
  | some k => do
      let p ← big E (.power k.natAbs)
      let power ← Rat.of p 1
      if 0 ≤ k then base.mul E power
      else do
        let q ← base.div E power
        return q.getD Rat.ZERO

theorem length_base {s base ex : List Char} (h : expMatch s = some (base, ex)) : base.length < s.length := by
  unfold expMatch at h
  split at h
  · cases h
  · next e ex' hdrop =>
    have hlen := congrArg List.length (List.takeWhile_append_dropWhile (p := fun c => ! isE c) (l := s))
    rw [hdrop, List.length_append, List.length_cons] at hlen
    dsimp only at h
    split at h
    · cases h
      omega
    · cases h

theorem length_trimChars_le (cs : List Char) : (trimChars cs).length ≤ cs.length := by
  unfold trimChars trimEnd
  exact (List.rdropWhile_prefix isSpace (cs.dropWhile isSpace)).length_le.trans
    (List.dropWhile_sublist isSpace).length_le

/-- `Rat.parse` of a text that is not empty: `s` is what is left of it, trimmed. -/
def parseTrimmed (E : Engine) (shown s : List Char) : Except Fault Rat :=
  if s = [] then .error (.notFinite shown)
  else match _h : expMatch s with
    | some (base, ex) => do
        let r ← parseTrimmed E base (trimChars base)
        scale E r (exponentNumber ex)
    | none => parseDecimal E shown s
termination_by s.length
decreasing_by
  have hb := length_base _h
  have ht := length_trimChars_le base
  omega

/-- What `Rat.parse` is given. A number and any other value come with the text that
`String` makes of them. -/
inductive Input
  | nothing
  | bigint (n : ℤ)
  | number (isFinite : Bool) (text : List Char)
  | string (text : List Char)
  | other (text : List Char)

def Rat.parse (E : Engine) : Input → Except Fault Rat
  | .nothing => .ok Rat.ZERO
  | .bigint n => Rat.of n 1
  | .number isFinite text => parseTrimmed E text (if isFinite then text else [])
  | .string [] => .ok Rat.ZERO
  | .string (c :: cs) => parseTrimmed E (c :: cs) (trimChars (c :: cs))
  | .other text => parseTrimmed E text (trimChars text)

end SalesDashboard.MarcomKpi.Exact
