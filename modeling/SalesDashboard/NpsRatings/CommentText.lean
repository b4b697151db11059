import SalesDashboard.Lib.Regex
import SalesDashboard.Python.Text
import Mathlib

/-! The NPS rating rule and the text of a comment (`nps.py`). -/

namespace SalesDashboard.NpsRatings
open Regex Python

/-- What the code uses of Python's character data and of `html`, beyond the blanks. -/
structure Stdlib where
  /-- `\w` -/
  word : Char → Bool
  /-- `\d` -/
  digit : Char → Bool
  isdigit : Char → Bool
  /-- `html.unescape` -/
  unescape : List Char → List Char
  word_ascii : ∀ c : Char, c.toNat < 128 → word c = (c.isAlphanum || c = '_')
  digit_ascii : ∀ c : Char, c.toNat < 128 → digit c = c.isDigit
  isdigit_ascii : ∀ c : Char, c.toNat < 128 → isdigit c = c.isDigit
  isdigit_digit : ∀ c, digit c = true → isdigit c = true
  word_space : ∀ c, isSpace c = true → word c = false
  digit_space : ∀ c, isSpace c = true → digit c = false
  isdigit_space : ∀ c, isSpace c = true → isdigit c = false
  unescape_plain : ∀ cs, '&' ∉ cs → unescape cs = cs

/-! ## Ratings -/

structure NpsLevel where
  level : Nat
  sourceText : String

def LEVELS : List NpsLevel := [⟨3, "فاقت التوقعات"⟩, ⟨2, "في مستوى التوقعات"⟩, ⟨1, "أقل من المتوقع"⟩]

def LOW_RATING_LEVEL : Nat := 1

def BY_TEXT (text : String) : Option Nat := (LEVELS.find? (·.sourceText = text)).map (·.level)

/-- The group of `_OUTER_P`: what is between a leading `<p>` and a trailing `</p>`. -/
def outerP (cs : List Char) : Option (List Char) :=
  let t := stripChars cs
  let inner := (t.take (t.length - 4)).drop 3
  if 7 ≤ t.length ∧ (t.take 3).map lowerChar = ['<', 'p', '>'] ∧
      (t.drop (t.length - 4)).map lowerChar = ['<', '/', 'p', '>'] then some inner else none

/-- `_inner_text`; a body that is missing has no text. -/
def innerText (body : Option String) : List Char :=
  match body with
  | none => []
  | some s => stripChars ((outerP s.toList).getD s.toList)

def classify (body : Option String) : Option Nat := BY_TEXT (String.ofList (innerText body))

/-! ## Comments -/

/-- `<br\s*/?>`, in either case. -/
def BREAK : Re Char :=
  .seq (.one (· = '<')) (.seq (.one (lowerChar · = 'b')) (.seq (.one (lowerChar · = 'r'))
    (.seq (.many 0 isSpace) (.seq (.opt (· = '/')) (.one (· = '>'))))))

/-- `<[^>]+>` -/
def TAG : Re Char := .seq (.one (· = '<')) (.seq (.many 1 (· ≠ '>')) (.one (· = '>')))

def translate (c : Char) : Char :=
  let n := c.toNat
  if 0x660 ≤ n ∧ n ≤ 0x669 then Char.ofNat (n - 0x660 + 48)
  else if 0x6f0 ≤ n ∧ n ≤ 0x6f9 then Char.ofNat (n - 0x6f0 + 48)
  else c

def isLineBreak (c : Char) : Bool :=
  let n := c.toNat
  (10 ≤ n && n ≤ 13) || (0x1c ≤ n && n ≤ 0x1e) || n = 0x85 || n = 0x2028 || n = 0x2029

/-- The lines behind the characters of one that is not complete; `\r\n` is one break. -/
def splitlinesFrom : List Char → List Char → List (List Char)
  | line, [] => if line = [] then [] else [line]
  | line, c :: cs =>
      if c = '\r' ∧ cs.head? = some '\n' then splitlinesFrom line cs
      else if isLineBreak c then line :: splitlinesFrom [] cs
      else splitlinesFrom (line ++ [c]) cs

def splitlines (cs : List Char) : List (List Char) := splitlinesFrom [] cs

/-- `[ \t]+` -/
def BLANKS : Re Char := .many 1 fun c => c = ' ' || c = '\t'

def normalised (cs : List Char) : List Char :=
  ['\n'].intercalate (((splitlines cs).map fun line => stripChars (BLANKS.sub (fun _ => [' ']) line)).filter (· ≠ []))

variable (lib : Stdlib)

/-- `[\w.+-]+@[\w-]+(?:\.[\w-]+)+` -/
def EMAIL : Re Char :=
  .seq (.many 1 fun c => lib.word c || c = '.' || c = '+' || c = '-')
    (.seq (.one (· = '@')) (.seq (.many 1 fun c => lib.word c || c = '-')
      (.plus (.seq (.one (· = '.')) (.many 1 fun c => lib.word c || c = '-')))))

/-- `[\d\s\-]` -/
def inRun (c : Char) : Bool := lib.digit c || isSpace c || c = '-'

/-- `(?<![\d])\+?\d(?:[\d\s\-]{6,})\d(?![\d])` -/
def PHONE : Re Char :=
  .seq (.notAfter lib.digit) (.seq (.opt (· = '+'))
    (.seq (.one lib.digit) (.seq (.many 6 (inRun lib)) (.seq (.one lib.digit) (.notBefore lib.digit)))))

def EMAIL_MASK : List Char := ['[', 'e', 'm', 'a', 'i', 'l', ']']

def PHONE_MASK : List Char := ['[', 'p', 'h', 'o', 'n', 'e', ']']

def maskPhone (w : List Char) : List Char := if 7 ≤ w.countP lib.isdigit then PHONE_MASK else w

def withBreaks (body : Option String) : List Char := BREAK.sub (fun _ => ['\n']) (innerText body)

def withoutTags (body : Option String) : List Char := TAG.sub (fun _ => []) (withBreaks body)

def decoded (body : Option String) : List Char := (lib.unescape (withoutTags body)).map translate

def emailsMasked (body : Option String) : List Char := (EMAIL lib).sub (fun _ => EMAIL_MASK) (decoded lib body)

def phonesMasked (body : Option String) : List Char := (PHONE lib).sub (maskPhone lib) (emailsMasked lib body)

def commentText (body : Option String) : String := String.ofList (normalised (phonesMasked lib body))

inductive Kind
  | rating | comment | blank
  deriving DecidableEq, Repr

def bodyKind (body : Option String) : Kind :=
  if (classify body).isSome then .rating else if commentText lib body ≠ "" then .comment else .blank

end SalesDashboard.NpsRatings
