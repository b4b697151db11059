import SalesDashboard.CriticalNumber.Days
import SalesDashboard.Marcom.Text

/-! The MARCOM template and the reading of its cells: the columns of each table
(`templateConfig.ts`), what a cell holds, and the numbers and dates typed into it
(`parser.ts`). -/

namespace SalesDashboard.Marcom
open Tachometer

/-! ## The template -/

inductive ColKind
  | year | month | text | enum (values : List String) | brand | category | date | int | money
  | decimal | pct
  deriving DecidableEq, Repr

structure ColSpec where
  col : Nat
  field : Field
  kind : ColKind
  required : Bool
  deriving DecidableEq, Repr

structure TableSpec where
  sheet : String
  headerRow : Nat
  lastRow : Nat
  keyFields : List Field
  cols : List ColSpec
  prefillFields : Option (List Field)

def MONTHS : List String :=
  ["January", "February", "March", "April", "May", "June", "July", "August", "September",
    "October", "November", "December"]

def PLATFORMS : List String := ["Facebook", "Google", "LinkedIn", "Instagram", "TikTok"]

def MEDIA_TYPES : List String :=
  ["1-Street Lights", "2-Mega Billboards", "3-Billboards", "4-Bridge Banners", "5-Light Screen"]

def CITIES : List String :=
  ["Tripoli", "Benghazi", "Misrata", "Zawiya", "Zliten", "Khoms", "Sirte", "Bayda", "Tobruk",
    "Derna", "Ajdabiya", "Marj", "Brega", "Sabha", "Gharyan", "Zuwara", "Sabratha", "Surman",
    "Tarhuna", "Bani Walid", "Yafran", "Nalut", "Ghadames", "Jalu", "Waddan", "Hun", "Ubari",
    "Murzuq", "Ghat", "Kufra"]

def DEFAULT_SPEND_CATEGORIES : List String :=
  ["Uniforms", "Printing & Printouts", "Gifts & Giveaways", "Events & Sponsorships",
    "Branding & Signage", "POS / Merchandising Materials", "Photography & Production",
    "Agency / Freelancer Fees", "Other"]

def CAMPAIGN_STATUSES : List String := ["Planned", "Ongoing", "Completed", "On Hold"]

def EVENT_TYPES : List String :=
  ["1-Professionals", "2-Architects/Designers", "3-Corporate", "4-CSR", "5-Entertainment",
    "6-Launch & Opening", "7-Internal/Trainings", "8-Exhibitions"]

def EVENT_STATUSES : List String := ["Planned", "Completed", "Postponed", "Cancelled"]

def YEAR_MIN : ℚ := 2020

def YEAR_MAX : ℚ := 2100

def SHEET_P1 : String := "P1 - MARCOM Spending"

def SHEET_P1B : String := "P1b - Other MARCOM Spending"

def SHEET_P2 : String := "P2 - Media Campaigns"

def SHEET_P3 : String := "P3 - Digital Performance"

def SHEET_P4 : String := "P4 - Trade Marketing"

/-- `TABLES`. -/
def tableSpec : TableId → TableSpec
  | .spend => ⟨SHEET_P1, 13, 114, [.year, .month, .brand],
      [⟨1, .year, .year, true⟩, ⟨2, .month, .month, true⟩, ⟨3, .brand, .brand, true⟩,
        ⟨4, .brandRevenueCurrent, .money, false⟩, ⟨5, .brandRevenueLy, .money, false⟩,
        ⟨6, .revenueAttributed, .money, false⟩, ⟨7, .companyRevenueTotal, .money, false⟩,
        ⟨8, .budget, .money, true⟩, ⟨9, .financeBookedTotal, .money, false⟩,
        ⟨10, .newCustomers, .int, true⟩, ⟨11, .avgInvoice, .money, true⟩,
        ⟨12, .socialPostCost, .money, true⟩, ⟨13, .clicks, .int, true⟩], none⟩
  | .other => ⟨SHEET_P1B, 5, 306, [.year, .month, .brand, .category, .description],
      [⟨1, .year, .year, true⟩, ⟨2, .month, .month, true⟩, ⟨3, .brand, .brand, true⟩,
        ⟨4, .category, .category, true⟩, ⟨5, .description, .text, true⟩,
        ⟨6, .vendor, .text, false⟩, ⟨7, .amount, .money, true⟩, ⟨8, .notes, .text, false⟩], none⟩
  | .campaigns => ⟨SHEET_P2, 5, 25, [.name],
      [⟨1, .name, .text, true⟩, ⟨2, .brand, .brand, true⟩, ⟨3, .startDate, .date, true⟩,
        ⟨4, .endDate, .date, true⟩, ⟨5, .status, .enum CAMPAIGN_STATUSES, true⟩,
        ⟨6, .spend, .money, true⟩, ⟨7, .revenueAttributed, .money, true⟩], none⟩
  | .media => ⟨SHEET_P2, 29, 59, [.campaignName, .mediaType, .city],
      [⟨1, .campaignName, .text, true⟩, ⟨2, .mediaType, .enum MEDIA_TYPES, true⟩,
        ⟨3, .city, .enum CITIES, true⟩, ⟨4, .units, .int, true⟩, ⟨5, .cost, .money, true⟩], none⟩
  | .social => ⟨SHEET_P3, 5, 255, [.year, .month, .brand, .platform, .accountName],
      [⟨1, .year, .year, true⟩, ⟨2, .month, .month, true⟩, ⟨3, .brand, .brand, true⟩,
        ⟨4, .platform, .enum PLATFORMS, true⟩, ⟨5, .accountName, .text, false⟩,
        ⟨6, .followers, .int, true⟩, ⟨7, .impressions, .int, true⟩, ⟨8, .clicks, .int, true⟩,
        ⟨9, .engagementPaid, .int, true⟩, ⟨10, .engagementOrganic, .int, true⟩],
      some [.year, .month, .brand, .platform, .accountName]⟩
  | .web => ⟨SHEET_P3, 259, 320, [.year, .month, .brand],
      [⟨1, .year, .year, true⟩, ⟨2, .month, .month, true⟩, ⟨3, .brand, .brand, true⟩,
        ⟨4, .bounceVisitors, .int, true⟩, ⟨5, .totalVisitors, .int, true⟩,
        ⟨6, .sessions, .int, true⟩, ⟨7, .totalMinutes, .decimal, true⟩],
      some [.year, .month, .brand]⟩
  | .trade => ⟨SHEET_P4, 5, 29, [.year, .month],
      [⟨1, .year, .year, true⟩, ⟨2, .month, .month, true⟩, ⟨3, .compliancePct, .pct, true⟩,
        ⟨5, .giveawaysStockPct, .pct, true⟩, ⟨7, .printedStockPct, .pct, true⟩,
        ⟨9, .attendeesActual, .int, true⟩, ⟨10, .attendeesExpected, .int, true⟩], none⟩
  | .events => ⟨SHEET_P4, 33, 63, [.name, .brand],
      [⟨1, .name, .text, true⟩, ⟨2, .eventType, .enum EVENT_TYPES, true⟩,
        ⟨3, .brand, .brand, true⟩, ⟨4, .plannedDate, .date, true⟩,
        ⟨5, .completionDate, .date, false⟩, ⟨6, .status, .enum EVENT_STATUSES, true⟩], none⟩

def TableSpec.colOf (spec : TableSpec) (f : Field) : Nat :=
  ((spec.cols.find? (·.field = f)).map (·.col)).getD 0

/-! ## Cells -/

/-- A value in a cell. A date that is no date is `date none`. -/
inductive RawValue
  | null
  | num (q : ℚ)
  | text (s : String)
  | bool (b : Bool)
  | date (d : Option Date)
  | object

/-- The platform's Unicode lower-casing, and its `String(v)` of numbers and dates. -/
structure Platform where
  toLowerCase : String → String
  numberText : ℚ → String
  dateText : Option Date → String

/-- `String(v)`. -/
def Platform.string (p : Platform) : RawValue → String
  | .null => "null"
  | .num q => p.numberText q
  | .text s => s
  | .bool b => if b then "true" else "false"
  | .date d => p.dateText d
  | .object => "[object Object]"

/-- What the workbook reader hands over for a cell. A formula has a result, an
error for a result, or none. -/
inductive CellValue
  | plain (v : RawValue)
  | formula (result : Option RawValue)
  | formulaError
  | richText (runs : List String)
  | labelled (text : RawValue)
  | error

structure SheetCell where
  value : CellValue
  exampleFill : Bool

structure RawCell where
  value : RawValue
  isErrorValue : Bool

/-- A blank text is no value. -/
def RawValue.orNull : RawValue → RawValue
  | .text s => if jsTrim s = "" then .null else .text s
  | v => v

def readCell (c : SheetCell) : RawCell :=
  match c.value with
  | .plain v => ⟨v.orNull, false⟩
  | .formula result => ⟨(result.getD .null).orNull, false⟩
  | .formulaError => ⟨.null, true⟩
  | .richText runs => ⟨(RawValue.text (String.join runs)).orNull, false⟩
  | .labelled v => ⟨v.orNull, false⟩
  | .error => ⟨.null, true⟩

/-! ## Numbers -/

def isDigit (c : Char) : Bool := '0' ≤ c && c ≤ '9'

/-- Arabic-Indic digits and separators. -/
def normalizeDigits (cs : List Char) : List Char :=
  cs.filterMap fun c =>
    let n := c.toNat
    if 0x660 ≤ n ∧ n ≤ 0x669 then some (Char.ofNat (n - 0x660 + 48))
    else if 0x6f0 ≤ n ∧ n ≤ 0x6f9 then some (Char.ofNat (n - 0x6f0 + 48))
    else if n = 0x66b then some '.'
    else if n = 0x66c ∨ n = 0xa0 ∨ n = 0x202f then none
    else some c

def digitsValue (cs : List Char) : Nat := cs.foldl (fun n c => n * 10 + (c.toNat - 48)) 0

/-- `Number(s)` of digits with at most one point. -/
def decimalValue (whole fraction : List Char) : ℚ :=
  digitsValue whole + (digitsValue fraction : ℚ) / 10 ^ fraction.length

/-- `\d+\.?\d*|\.\d+`. -/
def unsignedNumber (cs : List Char) : Option ℚ :=
  let whole := cs.takeWhile isDigit
  match cs.dropWhile isDigit with
  | [] => if whole = [] then none else some (decimalValue whole [])
  | c :: fraction =>
      if c = '.' ∧ fraction.all isDigit ∧ (whole ≠ [] ∨ fraction ≠ []) then
        some (decimalValue whole fraction)
      else none

def signedNumber : List Char → Option ℚ
  | '-' :: cs => (unsignedNumber cs).map (- ·)
  | '+' :: cs => unsignedNumber cs
  | cs => unsignedNumber cs

def parseNumber : RawValue → Option ℚ
  | .num q => some q
  | .text s => signedNumber ((normalizeDigits s.toList).filter fun c => !(isSpace c || c = ','))
  | _ => none

/-! ## Dates -/

def pad (n : Nat) : String := if n < 10 then "0" ++ toString n else toString n

/-- A date of the calendar as `YYYY-MM-DD`. The platform's calendar reads a year
below 100 as one of the 1900s. -/
def validYmd (y m d : Nat) : Option String :=
  if 100 ≤ y ∧ 1 ≤ m ∧ m ≤ 12 ∧ 1 ≤ d ∧ d ≤ daysInMonth y m then
    some (toString y ++ "-" ++ pad m ++ "-" ++ pad d)
  else none

/-- The day serial numbers count from. -/
def serialEpoch : Date := dateOnlyUTC 1899 12 30 december_bounds (by decide)

def parseSerial (v : ℚ) : Option String :=
  if v < 1 ∨ 2958465 < v then none
  else
    let d := CriticalNumber.nextDay^[⌊v⌋.toNat] serialEpoch
    validYmd d.year d.month d.day

/-- `(\d{lo,hi})` and the text after it. -/
def takeDigits (lo hi : Nat) (cs : List Char) : Option (Nat × List Char) :=
  let ds := cs.takeWhile isDigit
  if lo ≤ ds.length ∧ ds.length ≤ hi then some (digitsValue ds, cs.dropWhile isDigit) else none

/-- One of the characters, and the text after it. -/
def takeChar (allowed : List Char) : List Char → Option (List Char)
  | [] => none
  | c :: cs => if c ∈ allowed then some cs else none

def isLineEnd (c : Char) : Bool := c = '\n' || c = '\r' || c.toNat = 0x2028 || c.toNat = 0x2029

/-- `YYYY-MM-DD`, alone or before a time. -/
def isoDate (cs : List Char) : Option (Nat × Nat × Nat) := do
  let (y, cs) ← takeDigits 4 4 cs
  let cs ← takeChar ['-'] cs
  let (m, cs) ← takeDigits 1 2 cs
  let cs ← takeChar ['-'] cs
  let (d, cs) ← takeDigits 1 2 cs
  match cs with
  | [] => some (y, m, d)
  | c :: rest => if (c = 'T' ∨ c = ' ') ∧ rest.all (!isLineEnd ·) then some (y, m, d) else none

/-- `DD/MM/YYYY`. -/
def dayFirstDate (cs : List Char) : Option (Nat × Nat × Nat) := do
  let (d, cs) ← takeDigits 1 2 cs
  let cs ← takeChar ['/', '.', '-'] cs
  let (m, cs) ← takeDigits 1 2 cs
  let cs ← takeChar ['/', '.', '-'] cs
  let (y, cs) ← takeDigits 4 4 cs
  if cs = [] then some (y, m, d) else none

/-- `\d+(\.\d+)?`. -/
def serialText (cs : List Char) : Option ℚ :=
  let whole := cs.takeWhile isDigit
  match cs.dropWhile isDigit with
  | [] => if whole = [] then none else some (decimalValue whole [])
  | c :: fraction =>
      if c = '.' ∧ whole ≠ [] ∧ fraction ≠ [] ∧ fraction.all isDigit then
        some (decimalValue whole fraction)
      else none

/-- Real dates, serial numbers, ISO text and day-first text as `YYYY-MM-DD`. -/
def parseDate : RawValue → Option String
  | .date d => d.bind fun d => validYmd d.year d.month d.day
  | .num q => parseSerial q
  | .text s =>
      let cs := normalizeDigits (trimChars s.toList)
      match isoDate cs with
      | some (y, m, d) => validYmd y m d
      | none => match dayFirstDate cs with
        | some (y, m, d) => validYmd y m d
        | none => (serialText cs).bind parseSerial
  | _ => none

end SalesDashboard.Marcom
