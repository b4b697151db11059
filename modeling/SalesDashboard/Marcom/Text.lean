import SalesDashboard.Marcom.Tables

/-! The text functions of the MARCOM parser: trimming, the clean-up of a typed
text and its cut at 200 characters (`parser.ts`). -/

namespace SalesDashboard.Marcom

/-! ## White space -/

/-- `\s`, which is also what `trim` removes. -/
def isSpace (c : Char) : Bool :=
  let n := c.toNat
  (9 ≤ n && n ≤ 13) || n = 32 || n = 0xa0 || n = 0x1680 || (0x2000 ≤ n && n ≤ 0x200a) ||
    n = 0x2028 || n = 0x2029 || n = 0x202f || n = 0x205f || n = 0x3000 || n = 0xfeff

def trimEnd (cs : List Char) : List Char := cs.rdropWhile isSpace

def trimChars (cs : List Char) : List Char := trimEnd (cs.dropWhile isSpace)

/-- `s.trim()`. -/
def jsTrim (s : String) : String := String.ofList (trimChars s.toList)

/-- `s.replace(/\s+/g, ' ')`. -/
def collapse : List Char → List Char
  | [] => []
  | c :: cs =>
      if isSpace c then
        match cs with
        | d :: _ => if isSpace d then collapse cs else ' ' :: collapse cs
        | [] => [' ']
      else c :: collapse cs

/-- `String.prototype.toLowerCase` is the platform's; its `trim` is `jsTrim`. -/
def jsText (toLowerCase : String → String) : JsText := ⟨toLowerCase, jsTrim⟩

/-! ## Typed text -/

/-- Control characters and angle brackets, which become blanks. -/
def isStripped (c : Char) : Bool := c.toNat ≤ 0x1f || c.toNat = 0x7f || c = '<' || c = '>'

/-- UTF-16 units of a character. -/
def units (c : Char) : Nat := if c.toNat < 0x10000 then 1 else 2

/-- `s.slice(0, n)`. A pair of units that the cut splits leaves half a character,
written U+FFFD. -/
def slice : Nat → List Char → List Char
  | _, [] => []
  | n, c :: cs =>
      if units c ≤ n then c :: slice (n - units c) cs
      else if n = 0 then [] else [Char.ofNat 0xfffd]

/-- The text of `sanitizeText` before its length is capped. -/
def cleanText (s : String) : List Char :=
  trimChars (collapse (s.toList.map fun c => if isStripped c then ' ' else c))

/-- Strips control characters, angle brackets and surplus white space; caps the
length. -/
def sanitizeText (s : String) : String := String.ofList (slice 200 (cleanText s))

/-- The cap of 200 characters falls right after a blank. -/
def cutAtBlank (s : String) : Bool := (slice 200 (cleanText s)).getLast?.any isSpace

/-! ## Trimming a clean text -/

theorem trimEnd_eq_self_iff {cs : List Char} :
    trimEnd cs = cs ↔ cs.getLast?.any isSpace = false := by
  unfold trimEnd
  rw [List.rdropWhile_eq_self_iff]
  cases cs using List.reverseRecOn with
  | nil => simp
  | append_singleton cs c => simp

theorem dropWhile_eq_self_of_head {cs : List Char} (h : cs.head?.any isSpace = false) :
    cs.dropWhile isSpace = cs := by
  cases cs with
  | nil => rfl
  | cons c cs =>
    rw [List.dropWhile_cons_of_neg]
    simpa using h

theorem head_dropWhile (cs : List Char) : (cs.dropWhile isSpace).head?.any isSpace = false := by
  induction cs with
  | nil => rfl
  | cons c cs ih =>
    rw [List.dropWhile_cons]
    split
    · exact ih
    · next hc => simpa using hc

theorem head_trimEnd {cs : List Char} (h : cs.head?.any isSpace = false) :
    (trimEnd cs).head?.any isSpace = false := by
  have hprefix : trimEnd cs <+: cs := List.rdropWhile_prefix _ _
  cases htrim : trimEnd cs with
  | nil => rfl
  | cons c rest =>
    obtain ⟨more, hmore⟩ := hprefix
    rw [htrim] at hmore
    rw [← hmore] at h
    simpa using h

theorem head_slice {n : Nat} (hn : 1 < n) {cs : List Char} (h : cs.head?.any isSpace = false) :
    (slice n cs).head?.any isSpace = false := by
  cases cs with
  | nil => rfl
  | cons c cs =>
    have hunits : units c ≤ n := by
      unfold units
      split <;> omega
    rw [slice, if_pos hunits]
    simpa using h

theorem head_cleanText (s : String) : (cleanText s).head?.any isSpace = false :=
  head_trimEnd (head_dropWhile _)

/-- A text that is cut after a blank goes on behind it. -/
theorem slice_of_cutAtBlank {s : String} (h : cutAtBlank s = true) :
    slice 200 (cleanText s) ≠ cleanText s := by
  intro hall
  have hend : trimEnd (cleanText s) = cleanText s := List.rdropWhile_idempotent _ _
  rw [trimEnd_eq_self_iff, ← hall] at hend
  unfold cutAtBlank at h
  rw [h] at hend
  cases hend

/-- **A clean text ends in a blank only where the cap cut it after one.** -/
theorem jsTrim_sanitizeText_iff (s : String) :
    jsTrim (sanitizeText s) = sanitizeText s ↔ cutAtBlank s = false := by
  unfold jsTrim sanitizeText cutAtBlank trimChars
  rw [String.toList_ofList,
    dropWhile_eq_self_of_head (head_slice (by omega) (head_cleanText s))]
  rw [← trimEnd_eq_self_iff]
  constructor
  · intro h
    exact String.ofList_injective h
  · intro h
    rw [h]

theorem trimChars_trimChars (cs : List Char) : trimChars (trimChars cs) = trimChars cs := by
  have hhead : (trimChars cs).head?.any isSpace = false := head_trimEnd (head_dropWhile cs)
  change trimEnd ((trimChars cs).dropWhile isSpace) = _
  rw [dropWhile_eq_self_of_head hhead]
  exact List.rdropWhile_idempotent _ _

end SalesDashboard.Marcom
