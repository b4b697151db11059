import Mathlib

/-! The structural checks on an uploaded workbook before it is unzipped (`zipGuard.ts`). A
buffer is the list of its bytes, and a read outside it is an error of its own. -/

namespace SalesDashboard.Marcom.ZipGuard

abbrev Buffer := List UInt8

inductive Fault
  | validation (message : String)
  /-- `ERR_OUT_OF_RANGE` of a read. -/
  | outOfRange
  deriving DecidableEq

def MAX_FILE_BYTES : Nat := 10 * 1024 * 1024
def MAX_ENTRIES : Nat := 300
def MAX_UNCOMPRESSED_TOTAL : Nat := 150 * 1024 * 1024
def MAX_RATIO : Nat := 250

/-! ## Reads -/

def byteAt (buf : Buffer) (i : Nat) : Nat := (buf[i]?.getD 0).toNat

def uint16At (buf : Buffer) (i : Nat) : Nat := byteAt buf i + 256 * byteAt buf (i + 1)

def uint32At (buf : Buffer) (i : Nat) : Nat := uint16At buf i + 65536 * uint16At buf (i + 2)

def readUInt16LE (buf : Buffer) (i : Nat) : Except Fault Nat :=
  if i + 2 ≤ buf.length then .ok (uint16At buf i) else .error .outOfRange

def readUInt32LE (buf : Buffer) (i : Nat) : Except Fault Nat :=
  if i + 4 ≤ buf.length then .ok (uint32At buf i) else .error .outOfRange

/-- `buf.toString('utf8', start, end)`, which stops at the end of the buffer. -/
def toText (decode : Buffer → List Char) (buf : Buffer) (start stop : Nat) : List Char :=
  decode ((buf.take stop).drop start)

/-! ## Texts -/

/-- The text ends in these characters, whatever the case of its letters. -/
def endsWith (word s : List Char) : Bool := (word.map Char.toLower).isSuffixOf (s.map Char.toLower)

def startsWith (word s : List Char) : Bool := (word.map Char.toLower).isPrefixOf (s.map Char.toLower)

/-- `name.includes('..')`. -/
def hasTwoDots : List Char → Bool
  | [] => false
  | c :: cs => (c = '.' && cs.head? = some '.') || hasTwoDots cs

def xlsxSuffix : List Char := ['.', 'x', 'l', 's', 'x']

def vbaProject : List Char := ['v', 'b', 'a', 'P', 'r', 'o', 'j', 'e', 'c', 't', '.', 'b', 'i', 'n']

def externalLinks : List Char :=
  ['x', 'l', '/', 'e', 'x', 't', 'e', 'r', 'n', 'a', 'l', 'L', 'i', 'n', 'k', 's', '/']

/-! ## The directory -/

/-- From `i` down to `stop`: the first place with the signature of the end record. -/
def scanBack (buf : Buffer) (stop : Nat) : Nat → Except Fault (Option Nat)
  | 0 =>
      if stop = 0 then do
        let v ← readUInt32LE buf 0
        return if v = 0x06054b50 then some 0 else none
      else .ok none
  | i + 1 =>
      if i + 1 < stop then .ok none
      else do
        let v ← readUInt32LE buf (i + 1)
        if v = 0x06054b50 then return some (i + 1) else scanBack buf stop i

structure Walk where
  p : Nat
  totalUncompressed : Nat
  totalCompressed : Nat
  names : List (List Char)

/-- One turn of the loop over the entries. -/
def readEntry (decode : Buffer → List Char) (buf : Buffer) (w : Walk) : Except Fault Walk := do
  if w.p + 46 > buf.length then
    .error (.validation "The file is not a valid .xlsx workbook (corrupt ZIP directory).")
  else do
    let signature ← readUInt32LE buf w.p
    if signature ≠ 0x02014b50 then
      .error (.validation "The file is not a valid .xlsx workbook (corrupt ZIP directory).")
    else do
      let compressed ← readUInt32LE buf (w.p + 20)
      let uncompressed ← readUInt32LE buf (w.p + 24)
      let nameLen ← readUInt16LE buf (w.p + 28)
      let extraLen ← readUInt16LE buf (w.p + 30)
      let commentLen ← readUInt16LE buf (w.p + 32)
      if uncompressed = 0xffffffff ∨ w.totalUncompressed + uncompressed > MAX_UNCOMPRESSED_TOTAL then
        .error (.validation "The workbook expands to an unreasonable size and was rejected.")
      else
        .ok
          { p := w.p + (46 + nameLen + extraLen + commentLen)
            totalUncompressed := w.totalUncompressed + uncompressed
            totalCompressed := w.totalCompressed + compressed
            names := w.names ++ [toText decode buf (w.p + 46) (w.p + 46 + nameLen)] }

def readEntries (decode : Buffer → List Char) (buf : Buffer) : Nat → Walk → Except Fault Walk
  | 0, w => .ok w
  | n + 1, w => readEntry decode buf w >>= readEntries decode buf n

def checkName (name : List Char) : Except Fault Unit :=
  if hasTwoDots name then .error (.validation "The workbook contains an unsafe internal path.")
  else if endsWith vbaProject name then
    .error (.validation "Macro-enabled workbooks are not accepted. Save the file as a plain .xlsx.")
  else if startsWith externalLinks name then
    .error (.validation
      "Workbooks with external links are not accepted. Break the links (Data > Edit Links) and re-save.")
  else .ok ()

/-- `totalUncompressed / totalCompressed > MAX_RATIO`: the quotient of numbers this small is
rounded to no other side of 250. -/
def isBomb (w : Walk) : Bool :=
  0 < w.totalCompressed && MAX_RATIO * w.totalCompressed < w.totalUncompressed &&
    5 * 1024 * 1024 < w.totalUncompressed

def assertSafeXlsx (decode : Buffer → List Char) (buf : Buffer) (filename : List Char) : Except Fault Unit := do
  if endsWith xlsxSuffix filename = false then
    .error (.validation "Only .xlsx files are accepted (not .xlsm, .xls or other formats).")
  else if buf.length = 0 then .error (.validation "The uploaded file is empty.")
  else if buf.length > MAX_FILE_BYTES then .error (.validation "The file is larger than the 10 MB limit.")
  else if buf.length < 22 then
    .error (.validation "The file is not a valid .xlsx workbook (bad ZIP signature).")
  else do
    let signature ← readUInt32LE buf 0
    if signature ≠ 0x04034b50 then
      .error (.validation "The file is not a valid .xlsx workbook (bad ZIP signature).")
    else do
      let found ← scanBack buf (buf.length - 22 - 65535) (buf.length - 22)
      match found with
      | none => .error (.validation "The file is not a valid .xlsx workbook (ZIP directory not found).")
      | some eocd => do
          let entryCount ← readUInt16LE buf (eocd + 10)
          let cdOffset ← readUInt32LE buf (eocd + 16)
          if entryCount = 0xffff ∨ cdOffset = 0xffffffff then
            .error (.validation "ZIP64 archives are not accepted.")
          else if entryCount > MAX_ENTRIES then
            .error (.validation "The workbook contains too many internal files.")
          else do
            let w ← readEntries decode buf entryCount ⟨cdOffset, 0, 0, []⟩
            if isBomb w then
              .error (.validation "The workbook has a suspicious compression ratio and was rejected.")
            else w.names.forM checkName

end SalesDashboard.Marcom.ZipGuard
