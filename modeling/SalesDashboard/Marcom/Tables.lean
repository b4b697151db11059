import Mathlib

/-! The MARCOM upload tables: their fields, how values are normalised for
comparison and storage, the natural key of a row, and the classification of a
parsed table against the current rows (`tables.ts`, `diff.ts`). -/

namespace SalesDashboard.Marcom

/-- The parser's field names. -/
inductive Field
  | year | month | brand | brandRevenueCurrent | brandRevenueLy | revenueAttributed
  | companyRevenueTotal | budget | financeBookedTotal | newCustomers | avgInvoice
  | socialPostCost | clicks | category | description | vendor | amount | notes
  | name | startDate | endDate | status | spend | campaignName | mediaType | city
  | units | cost | platform | accountName | followers | impressions | engagementPaid
  | engagementOrganic | bounceVisitors | totalVisitors | sessions | totalMinutes
  | compliancePct | giveawaysStockPct | printedStockPct | attendeesActual
  | attendeesExpected | eventType | plannedDate | completionDate
  deriving DecidableEq, Repr

inductive FieldType
  | int | money | dec2 | pct | text | date | brand | category
  deriving DecidableEq, Repr

inductive TableId
  | spend | other | campaigns | media | social | web | trade | events
  deriving DecidableEq, Repr

structure FieldDef where
  field : Field
  type : FieldType
  deriving DecidableEq, Repr

structure Adapter where
  id : TableId
  fields : List FieldDef
  keyFields : List Field

/-- `ADAPTERS`: the fields and the natural key of each table. -/
def adapter : TableId → Adapter
  | .spend => ⟨.spend,
      [⟨.year, .int⟩, ⟨.month, .int⟩, ⟨.brand, .brand⟩, ⟨.brandRevenueCurrent, .money⟩,
        ⟨.brandRevenueLy, .money⟩, ⟨.revenueAttributed, .money⟩, ⟨.companyRevenueTotal, .money⟩,
        ⟨.budget, .money⟩, ⟨.financeBookedTotal, .money⟩, ⟨.newCustomers, .int⟩,
        ⟨.avgInvoice, .money⟩, ⟨.socialPostCost, .money⟩, ⟨.clicks, .int⟩],
      [.year, .month, .brand]⟩
  | .other => ⟨.other,
      [⟨.year, .int⟩, ⟨.month, .int⟩, ⟨.brand, .brand⟩, ⟨.category, .category⟩,
        ⟨.description, .text⟩, ⟨.vendor, .text⟩, ⟨.amount, .money⟩, ⟨.notes, .text⟩],
      [.year, .month, .brand, .category, .description]⟩
  | .campaigns => ⟨.campaigns,
      [⟨.name, .text⟩, ⟨.brand, .brand⟩, ⟨.startDate, .date⟩, ⟨.endDate, .date⟩,
        ⟨.status, .text⟩, ⟨.spend, .money⟩, ⟨.revenueAttributed, .money⟩],
      [.name]⟩
  | .media => ⟨.media,
      [⟨.campaignName, .text⟩, ⟨.mediaType, .text⟩, ⟨.city, .text⟩, ⟨.units, .int⟩,
        ⟨.cost, .money⟩],
      [.campaignName, .mediaType, .city]⟩
  | .social => ⟨.social,
      [⟨.year, .int⟩, ⟨.month, .int⟩, ⟨.brand, .brand⟩, ⟨.platform, .text⟩,
        ⟨.accountName, .text⟩, ⟨.followers, .int⟩, ⟨.impressions, .int⟩, ⟨.clicks, .int⟩,
        ⟨.engagementPaid, .int⟩, ⟨.engagementOrganic, .int⟩],
      [.year, .month, .brand, .platform, .accountName]⟩
  | .web => ⟨.web,
      [⟨.year, .int⟩, ⟨.month, .int⟩, ⟨.brand, .brand⟩, ⟨.bounceVisitors, .int⟩,
        ⟨.totalVisitors, .int⟩, ⟨.sessions, .int⟩, ⟨.totalMinutes, .dec2⟩],
      [.year, .month, .brand]⟩
  | .trade => ⟨.trade,
      [⟨.year, .int⟩, ⟨.month, .int⟩, ⟨.compliancePct, .pct⟩, ⟨.giveawaysStockPct, .pct⟩,
        ⟨.printedStockPct, .pct⟩, ⟨.attendeesActual, .int⟩, ⟨.attendeesExpected, .int⟩],
      [.year, .month]⟩
  | .events => ⟨.events,
      [⟨.name, .text⟩, ⟨.eventType, .text⟩, ⟨.brand, .brand⟩, ⟨.plannedDate, .date⟩,
        ⟨.completionDate, .date⟩, ⟨.status, .text⟩],
      [.name, .brand]⟩

def tableIds : List TableId :=
  [.spend, .other, .campaigns, .media, .social, .web, .trade, .events]

theorem mem_tableIds (t : TableId) : t ∈ tableIds := by
  cases t <;> decide

instance (p : TableId → Prop) [DecidablePred p] : Decidable (∀ t, p t) :=
  decidable_of_iff (∀ t ∈ tableIds, p t) ⟨fun h t => h t (mem_tableIds t), fun h t _ => h t⟩

/-! ## Values -/

/-- A cell of a parsed row or of a row read back: `null`, a number or a string.
Amounts are exact. -/
inductive Cell
  | null
  | num (q : ℚ)
  | text (s : String)
  deriving DecidableEq

abbrev Data := Field → Cell

/-- The string functions of the platform, Unicode tables included. -/
structure JsText where
  toLowerCase : String → String
  trim : String → String

/-- `String(v)` of a number. Every number of an `int` column is whole. -/
def numberText (q : ℚ) : String := toString q

def Cell.toText : Cell → String
  | .null => "null"
  | .num q => numberText q
  | .text s => s

/-- `Number(v)`. No string reaches a number column, so a string is not a number
here. -/
def Cell.number : Cell → Option ℚ
  | .null => some 0
  | .num q => some q
  | .text _ => none

/-- `Math.round`. -/
def mathRound (q : ℚ) : ℤ := ⌊q + 1 / 2⌋

/-- `Math.round(v * 10^d) / 10^d`. -/
def roundTo (d : Nat) (q : ℚ) : ℚ := mathRound (q * 10 ^ d) / 10 ^ d

/-- `toFixed(d)` of a value that is a whole number of the last digit. -/
def toFixed (d : Nat) (q : ℚ) : String :=
  let n := mathRound (q * 10 ^ d)
  (if n < 0 then "-" else "") ++ toString (n.natAbs / 10 ^ d) ++ "." ++
    String.ofList (List.leftpad d '0' (toString (n.natAbs % 10 ^ d)).toList)

/-- The digits after the point that a number type keeps. -/
def FieldType.scale : FieldType → Nat
  | .pct => 4
  | _ => 2

/-- Canonical string form of a value for comparison. -/
def normalize (js : JsText) : FieldType → Cell → Option String
  | _, .null => none
  | type, c =>
      if c = .text "" then none
      else match type with
        | .int => some ((c.number.map numberText).getD "NaN")
        | .money | .dec2 | .pct =>
            some ((c.number.map fun q => toFixed type.scale (roundTo type.scale q)).getD "NaN")
        | .text | .date | .brand | .category => some (js.trim c.toText)

def Adapter.typeOf (a : Adapter) (f : Field) : FieldType :=
  ((a.fields.find? (·.field = f)).map (·.type)).getD .text

/-- The natural key of a row: the normalised key fields in lower case. -/
def keyOf (js : JsText) (a : Adapter) (data : Data) : String :=
  "|".intercalate (a.keyFields.map fun k =>
    js.toLowerCase ((normalize js (a.typeOf k) (data k)).getD ""))

/-- The value `insertRow` stores. A number column keeps the digits of its scale. -/
def toDb : FieldType → Cell → Cell
  | _, .null => .null
  | type, .text s =>
      if s = "" then (if type = .text then .text "" else .null)
      else match type with
        | .int | .money | .dec2 | .pct => .text "NaN"
        | _ => .text s
  | type, .num q =>
      match type with
      | .int => .num q
      | .money | .dec2 | .pct => .num (roundTo type.scale q)
      | _ => .text (numberText q)

/-! ## Classification against the current rows -/

structure ParsedRow where
  rowNumber : Nat
  data : Data

/-- A current row read back with the parser's field names. -/
structure CurrentRow where
  id : Nat
  data : Data

structure FieldChange where
  field : Field
  old : Option String
  new : Option String
  deriving DecidableEq, Repr

structure RowUpdate where
  row : ParsedRow
  existingId : Nat
  changes : List FieldChange

structure TableDiff where
  inserts : List ParsedRow
  updates : List RowUpdate
  unchanged : List ParsedRow
  invalid : List ParsedRow

/-- The fields in which a file row differs from the stored one. -/
def fieldChanges (js : JsText) (a : Adapter) (existing new : Data) : List FieldChange :=
  a.fields.filterMap fun fd =>
    let old := normalize js fd.type (existing fd.field)
    let now := normalize js fd.type (new fd.field)
    if old = now then none else some ⟨fd.field, old, now⟩

/-- The current row of a key; a later row replaces an earlier one in the map. -/
def byKey (js : JsText) (a : Adapter) (current : List CurrentRow) (key : String) :
    Option CurrentRow :=
  current.reverse.find? fun c => keyOf js a c.data = key

def diffTable (js : JsText) (a : Adapter) (current : List CurrentRow)
    (invalidRowNumbers : List Nat) : List ParsedRow → TableDiff
  | [] => ⟨[], [], [], []⟩
  | row :: rows =>
      let out := diffTable js a current invalidRowNumbers rows
      if row.rowNumber ∈ invalidRowNumbers then { out with invalid := row :: out.invalid }
      else match byKey js a current (keyOf js a row.data) with
        | none => { out with inserts := row :: out.inserts }
        | some existing =>
            let changes := fieldChanges js a existing.data row.data
            if changes = [] then { out with unchanged := row :: out.unchanged }
            else { out with updates := ⟨row, existing.id, changes⟩ :: out.updates }

/-! ## Lemmas -/

theorem toString_int_ne (n : ℤ) : toString n ≠ "" := by
  cases n with
  | ofNat m => exact Nat.repr_ne_empty
  | negSucc m =>
    intro h
    have hlen : ("-" ++ Nat.repr (m + 1)).length = 0 := congrArg String.length h
    simp at hlen

theorem numberText_ne (q : ℚ) : numberText q ≠ "" := by
  have hq : numberText q = if q.den = 1 then toString q.num else s!"{q.num}/{q.den}" := rfl
  rw [hq]
  split
  · exact toString_int_ne _
  · intro h
    simpa using congrArg String.length h

@[simp] theorem normalize_null (js : JsText) (type : FieldType) :
    normalize js type .null = none := by
  cases type <;> rfl

theorem roundTo_roundTo (d : Nat) (q : ℚ) : roundTo d (roundTo d q) = roundTo d q := by
  have h : (10 : ℚ) ^ d ≠ 0 := by positivity
  have hround : mathRound (roundTo d q * 10 ^ d) = mathRound (q * 10 ^ d) := by
    unfold roundTo mathRound
    rw [div_mul_cancel₀ _ h, Int.floor_intCast_add]
    norm_num
  unfold roundTo at hround ⊢
  rw [hround]

/-- What is stored compares equal to what the file says. -/
theorem normalize_toDb (js : JsText) (type : FieldType) (c : Cell) :
    normalize js type (toDb type c) = normalize js type c := by
  cases c with
  | null => cases type <;> rfl
  | num q =>
    cases type <;>
      simp [toDb, normalize, Cell.number, Cell.toText, roundTo_roundTo, numberText_ne]
  | text s =>
    by_cases hs : s = ""
    · subst hs
      cases type <;> simp [toDb, normalize]
    · cases type <;> simp [toDb, normalize, Cell.number, hs]

theorem fieldChanges_eq_nil {js : JsText} {a : Adapter} {existing new : Data} :
    fieldChanges js a existing new = [] ↔
      ∀ fd ∈ a.fields, normalize js fd.type (existing fd.field) = normalize js fd.type (new fd.field) := by
  unfold fieldChanges
  rw [List.filterMap_eq_nil_iff]
  constructor
  · intro h fd hfd
    by_contra hne
    simpa [hne] using h fd hfd
  · intro h fd hfd
    simp [h fd hfd]

theorem byKey_some {js : JsText} {a : Adapter} {current : List CurrentRow} {key : String}
    {c : CurrentRow} (h : byKey js a current key = some c) :
    c ∈ current ∧ keyOf js a c.data = key := by
  refine ⟨?_, by simpa using List.find?_some h⟩
  exact List.mem_reverse.mp (List.mem_of_find?_eq_some h)

theorem byKey_none {js : JsText} {a : Adapter} {current : List CurrentRow} {key : String}
    (h : byKey js a current key = none) : ∀ c ∈ current, keyOf js a c.data ≠ key := by
  intro c hc
  simpa using List.find?_eq_none.mp h c (List.mem_reverse.mpr hc)

end SalesDashboard.Marcom
