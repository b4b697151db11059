import SalesDashboard.Marcom.Keys
import SalesDashboard.Marcom.Template

/-! Reading the rows of a MARCOM workbook (`parser.ts`): how a cell becomes a
value, which rows are kept, and every issue that blocks an import. Warnings block
nothing and are left out. -/

namespace SalesDashboard.Marcom

/-! ## Issues -/

inductive IssueCode
  | excelErrorValue | requiredMissing | invalidYear | yearOutOfRange | invalidMonth
  | invalidCategory | invalidEnum | invalidDate | invalidNumber | negativeNumber | notInteger
  | invalidPercent | percentOutOfRange | attributedGtBrandRevenue | brandRevenueGtCompany
  | endBeforeStart | duplicateKey (prev : Nat) | unknownCampaign
  deriving DecidableEq, Repr

/-- An issue of severity `error`, with the row and the column of its cell. -/
structure Issue where
  table : TableId
  row : Nat
  col : Nat
  code : IssueCode
  deriving DecidableEq, Repr

structure ParseOptions where
  includeExamples : Bool
  knownCampaigns : List String
  groupBrands : List String
  knownCategories : Option (List String)

structure Workbook where
  cell : String → Nat → Nat → SheetCell
  /-- The header row of each table, where `locateHeader` found it. -/
  located : TableId → Nat

/-! ## Coercion -/

/-- `String(v).replace(/\s+/g, ' ').trim().toLowerCase()`. -/
def listText (p : Platform) (raw : RawValue) : String :=
  p.toLowerCase (String.ofList (trimChars (collapse (p.string raw).toList)))

def coerceNumber (raw : RawValue) : Except IssueCode ℚ :=
  match parseNumber raw with
  | none => .error .invalidNumber
  | some n => if n < 0 then .error .negativeNumber else .ok n

/-- A percentage as a fraction. -/
def coercePct (raw : RawValue) : Except IssueCode Cell :=
  let percent : Option RawValue := match raw with
    | .text s =>
        let cs := trimChars s.toList
        if cs.getLast? = some '%' then some (.text (String.ofList cs.dropLast)) else none
    | _ => none
  match parseNumber (percent.getD raw) with
  | none => .error .invalidPercent
  | some n =>
      if n < 0 then .error .negativeNumber
      else if percent.isSome then
        if n ≤ 100 then .ok (.num (n / 100)) else .error .percentOutOfRange
      else if n ≤ 1 then .ok (.num n)
      else if n ≤ 100 then .ok (.num (n / 100))
      else .error .percentOutOfRange

/-- A value chosen from a list, whatever its letter case. -/
def choose (p : Platform) (values : List String) (s : String) (code : IssueCode) :
    Except IssueCode Cell :=
  match values.find? fun v => p.toLowerCase v = s with
  | some hit => .ok (.text hit)
  | none => .error code

def coerceText (p : Platform) (raw : RawValue) : Except IssueCode Cell :=
  let s := sanitizeText (p.string raw)
  if s = "" then .error .requiredMissing else .ok (.text s)

def coerce (p : Platform) (categories : List String) (kind : ColKind) (raw : RawValue) :
    Except IssueCode Cell :=
  match kind with
  | .year => match parseNumber raw with
    | none => .error .invalidYear
    | some n =>
        if n.den ≠ 1 then .error .invalidYear
        else if n < YEAR_MIN ∨ YEAR_MAX < n then .error .yearOutOfRange
        else .ok (.num n)
  | .month =>
      let s := p.toLowerCase (jsTrim (p.string raw))
      match MONTHS.findIdx? fun m => p.toLowerCase m = s with
      | some i => .ok (.num (i + 1 : Nat))
      | none => .error .invalidMonth
  | .text | .brand => coerceText p raw
  | .category => choose p categories (listText p raw) .invalidCategory
  | .enum values => choose p values (listText p raw) .invalidEnum
  | .date => match parseDate raw with
    | some d => .ok (.text d)
    | none => .error .invalidDate
  | .int => match coerceNumber raw with
    | .ok n => if n.den ≠ 1 then .error .notInteger else .ok (.num n)
    | .error code => .error code
  | .money | .decimal => match coerceNumber raw with
    | .ok n => .ok (.num (roundTo 2 n))
    | .error code => .error code
  | .pct => coercePct raw

/-! ## A row -/

section Rows

variable (p : Platform) (opts : ParseOptions) (wb : Workbook) (t : TableId)

/-- The allowed Other-spend categories. -/
def ParseOptions.categories (opts : ParseOptions) : List String :=
  opts.knownCategories.getD DEFAULT_SPEND_CATEGORIES

def rawCell (r : Nat) (c : ColSpec) : RawCell := readCell (wb.cell (tableSpec t).sheet r c.col)

def RawValue.isNull : RawValue → Bool
  | .null => true
  | _ => false

/-- The value of a field, and what is wrong with its cell. -/
def readField (r : Nat) (c : ColSpec) : Except IssueCode Cell :=
  let rc := rawCell wb t r c
  if rc.value.isNull then
    if c.required && !rc.isErrorValue then .error .requiredMissing else .ok .null
  else coerce p opts.categories c.kind rc.value

def readIssues (r : Nat) : List Issue :=
  (tableSpec t).cols.filterMap fun c =>
    match readField p opts wb t r c with
    | .ok _ => none
    | .error code => some ⟨t, r, c.col, code⟩

/-- The row as read; a field in error is null. -/
def readData (r : Nat) : Data := fun f =>
  match (tableSpec t).cols.find? (·.field = f) with
  | none => .null
  | some c => match readField p opts wb t r c with
    | .ok v => v
    | .error _ => .null

/-- Cells that hold an Excel error. -/
def excelErrors (r : Nat) : List Issue :=
  (tableSpec t).cols.filterMap fun c =>
    if (rawCell wb t r c).isErrorValue then some ⟨t, r, c.col, .excelErrorValue⟩ else none

/-- Nothing is typed, apart from what a downloaded template fills in. -/
def isEmptyRow (r : Nat) : Bool :=
  (tableSpec t).cols.all (fun c => (rawCell wb t r c).value.isNull) ||
    match (tableSpec t).prefillFields with
    | none => false
    | some prefill => !(tableSpec t).cols.any fun c =>
        decide (c.field ∉ prefill) && !(rawCell wb t r c).value.isNull

def isGreen (r : Nat) : Bool :=
  (tableSpec t).cols.any fun c => (wb.cell (tableSpec t).sheet r c.col).exampleFill

/-- `EXAMPLES`: the rows the template ships with. -/
def isExample (d : Data) : Bool :=
  match t with
  | .spend => decide (d .year = .num 2026 ∧ d .month = .num 9 ∧ d .brand = .text "Xtreme" ∧
      d .brandRevenueCurrent = .num 3000000 ∧ d .revenueAttributed = .num 450000)
  | .other => decide (d .year = .num 2026 ∧ d .month = .num 9 ∧ d .brand = .text "Xtreme" ∧
      d .description = .text "Staff polo shirts – showroom team" ∧ d .amount = .num 25000)
  | .campaigns => decide (d .name = .text "Ramadan Lighting Campaign" ∧ d .spend = .num 120000 ∧
      d .revenueAttributed = .num 650000)
  | .media => decide (d .campaignName = .text "Ramadan Lighting Campaign" ∧
      d .mediaType = .text "1-Street Lights" ∧ d .city = .text "Tripoli" ∧ d .units = .num 45 ∧
      d .cost = .num 30000)
  | .social => decide (d .year = .num 2026 ∧ d .month = .num 9 ∧ d .brand = .text "Xtreme" ∧
      d .platform = .text "Instagram" ∧ d .followers = .num 52000 ∧ d .impressions = .num 180000)
  | .web => decide (d .year = .num 2026 ∧ d .month = .num 9 ∧ d .brand = .text "Xtreme" ∧
      d .bounceVisitors = .num 3400 ∧ d .totalVisitors = .num 12000)
  | .trade => decide (d .year = .num 2026 ∧ d .month = .num 8 ∧ d .compliancePct = .num (94 / 100))
  | .events => decide (d .name = .text "Product Launch Night - Brand A")

/-- An account without a name has the empty name. -/
def fillAccount (d : Data) : Data := fun f =>
  if t = .social ∧ f = .accountName ∧ d f = .null then .text "" else d f

def Cell.num? : Cell → Option ℚ
  | .num q => some q
  | _ => none

/-- `a > b`, where both are numbers. -/
def exceeds (a b : Cell) : Bool :=
  match a.num?, b.num? with
  | some x, some y => decide (y < x)
  | _, _ => false

/-- Brand rows need the three brand-level revenue inputs; attributed ≤ brand
revenue ≤ company total. -/
def spendRevenueIssues (r : Nat) (d : Data) : List Issue :=
  let col := (tableSpec .spend).colOf
  let isGroup := match d .brand with
    | .text s => decide (p.toLowerCase s ∈ opts.groupBrands.map p.toLowerCase)
    | _ => false
  let missing := if isGroup then [] else
    [Field.brandRevenueCurrent, .brandRevenueLy, .revenueAttributed].filterMap fun f =>
      if d f = .null then some ⟨.spend, r, col f, .requiredMissing⟩ else none
  missing ++
    (if exceeds (d .revenueAttributed) (d .brandRevenueCurrent) then
      [⟨.spend, r, col .revenueAttributed, .attributedGtBrandRevenue⟩] else []) ++
    (if exceeds (d .brandRevenueCurrent) (d .companyRevenueTotal) then
      [⟨.spend, r, col .brandRevenueCurrent, .brandRevenueGtCompany⟩] else [])

def endBeforeStart (d : Data) : Bool :=
  match d .startDate, d .endDate with
  | .text start, .text stop => decide (stop < start)
  | _, _ => false

/-- The issues of a kept row, apart from a repeated key. -/
def rowIssues (r : Nat) (d : Data) : List Issue :=
  readIssues p opts wb t r ++
    (if t = .spend then spendRevenueIssues p opts r d else []) ++
    (if t = .campaigns ∧ endBeforeStart d = true then [⟨.campaigns, r, 4, .endBeforeStart⟩] else [])

/-- The row's data, unless it is empty or a shipped example. -/
def keptRow (r : Nat) : Option Data :=
  let data := readData p opts wb t r
  if isEmptyRow wb t r then none
  else if isGreen wb t r && isExample t data && !opts.includeExamples then none
  else some (fillAccount t data)

/-! ## The rows of a table -/

/-- `String(data[f] ?? '').toLowerCase()` of the key fields. -/
def parserKey (data : Data) : String :=
  "|".intercalate ((tableSpec t).keyFields.map fun f =>
    p.toLowerCase (if data f = .null then "" else (data f).toText))

def hasKey (data : Data) : Bool := (tableSpec t).keyFields.all fun f => decide (data f ≠ .null)

structure TableState where
  issues : List Issue
  rows : List ParsedRow
  emptyRows : Nat
  exampleRowsSkipped : Nat
  seen : List (String × Nat)

def rowTurn (st : TableState) (r : Nat) : TableState :=
  let st := { st with issues := st.issues ++ excelErrors wb t r }
  if isEmptyRow wb t r then { st with emptyRows := st.emptyRows + 1 }
  else match keptRow p opts wb t r with
    | none => { st with exampleRowsSkipped := st.exampleRowsSkipped + 1 }
    | some data =>
        let key := parserKey p t data
        let prev := (st.seen.find? (·.1 = key)).map (·.2)
        let duplicate : List Issue := match prev with
          | some prev => if hasKey t data then [⟨t, r, 1, .duplicateKey prev⟩] else []
          | none => []
        { st with
          issues := st.issues ++ (rowIssues p opts wb t r data ++ duplicate)
          rows := st.rows ++ [⟨r, data⟩]
          seen := if hasKey t data && prev.isNone then st.seen ++ [(key, r)] else st.seen }

/-- The rows read for a table: as many as the template has for it. -/
def scanRows : List Nat :=
  List.range' (wb.located t + 1) ((tableSpec t).lastRow - (tableSpec t).headerRow)

def parseTable : TableState :=
  (scanRows wb t).foldl (rowTurn p opts wb t) ⟨[], [], 0, 0, []⟩

end Rows

/-! ## The workbook -/

structure ParseResult where
  tables : TableId → TableState
  issues : List Issue

/-- A media row names a campaign of this file or of the stored data. -/
def campaignIssues (p : Platform) (opts : ParseOptions) (campaigns media : List ParsedRow) :
    List Issue :=
  let names := campaigns.map (fun r => p.toLowerCase (r.data .name).toText) ++
    opts.knownCampaigns.map p.toLowerCase
  media.filterMap fun row =>
    match row.data .campaignName with
    | .text name =>
        if p.toLowerCase name ∈ names then none else some ⟨.media, row.rowNumber, 1, .unknownCampaign⟩
    | _ => none

def parseMarcomWorkbook (p : Platform) (opts : ParseOptions) (wb : Workbook) : ParseResult :=
  let tables := parseTable p opts wb
  ⟨tables, (tableIds.flatMap fun t => (tables t).issues) ++
    campaignIssues p opts (tables .campaigns).rows (tables .media).rows⟩

end SalesDashboard.Marcom
