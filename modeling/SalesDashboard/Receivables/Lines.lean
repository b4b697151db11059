import SalesDashboard.DataScope.Filters
import Mathlib

/-! The receivable lines that every figure of the Receivables page reads
(`linesSource` of `debtReport.ts`): the snapshot, the exclusions, the scope toggles, the
caller's filters, and then the filters of the page. Amounts are exact. Texts equal under
the collation have one spelling, and every row of the fact has its row in each dimension. -/

namespace SalesDashboard.Receivables
open DataScope

/-! ## Lines -/

/-- A row of `fact_finance_receivable_snapshot` with the columns of its dimensions. -/
structure ReceivableLine where
  snapshotDateKey : Nat
  lineId : Int
  moveId : Int
  document : Option String
  invoiceDate : Option String
  dueDate : String
  companyKey : Int
  company : String
  customerKey : Int
  customer : String
  customerCategory : Option String
  salespersonKey : Int
  salesperson : String
  channelKey : Option Int
  salesTeamKey : String
  salesTeam : String
  segmentKey : Option Int
  segment : Option String
  paymentTermKey : Int
  agingBucketKey : Int
  daysPastDue : Int
  currency : String
  residualDocCcy : Option ℚ
  residualCompanyCcy : ℚ
  amountTotal : Option ℚ
  amountTotalSigned : Option ℚ
  deliveryStatus : Option String
  isIntercompany : Bool
  receivableScopeIsDefault : Bool
  paymentKey : Int
  paymentType : Option String
  partnerType : Option String
  moveType : Option String
  deriving DecidableEq

inductive DebtLineKind
  | invoice | credit_note | payment | other | intercompany
  deriving DecidableEq, Repr

/-- `LINE_KIND_SQL`. -/
def lineKind (f : ReceivableLine) : DebtLineKind :=
  if f.isIntercompany then .intercompany
  else if f.receivableScopeIsDefault = false then .other
  else if f.paymentKey = -1 ∧ f.moveType = some "out_invoice" then .invoice
  else if f.paymentKey = -1 ∧ f.moveType = some "out_refund" then .credit_note
  else .payment

def documentTypeKey (f : ReceivableLine) : String :=
  if f.paymentKey ≠ -1 then
    "payment:" ++ f.paymentType.getD "?" ++ ":" ++ f.partnerType.getD "?"
  else "move:" ++ f.moveType.getD "?"

/-- Whether the balance of the line is below zero; one without a balance is not. -/
def isCredit (f : ReceivableLine) : Bool := f.residualDocCcy.any (· < 0)

def invoiceTotalSigned (f : ReceivableLine) : Option ℚ :=
  if isCredit f then f.amountTotal.map (- ·) else f.amountTotal

def invoiceTotalCompany (f : ReceivableLine) : Option ℚ :=
  if isCredit f then f.amountTotalSigned.map fun a => - |a| else f.amountTotalSigned.map (|·|)

/-! ## The query -/

inductive OverdueStatus
  | all | overdue | not_due
  deriving DecidableEq, Repr

inductive SizeTier
  | large | medium | small
  deriving DecidableEq, Repr

inductive CustomerCategory
  | A | B | C | D
  deriving DecidableEq, Repr

def CUSTOMER_CATEGORIES : List CustomerCategory := [.A, .B, .C, .D]

def CustomerCategory.text : CustomerCategory → String
  | .A => "A"
  | .B => "B"
  | .C => "C"
  | .D => "D"

/-- `none` is the filter value of the customers without a category. -/
abbrev CustomerCategoryFilterValue := Option CustomerCategory

def customerCategoryLabel (value : Option String) : String :=
  match value with
  | none => "No category"
  | some v => if v ∈ CUSTOMER_CATEGORIES.map (·.text) then "Category " ++ v else "No category"

/-- `none` among the delivery statuses asks for lines without one. -/
structure DebtQuery where
  snapshotDateKey : Option Nat
  includeOther : Bool
  includeIntercompany : Bool
  overdueStatus : OverdueStatus
  agingBucketKeys : List Int
  deliveryStatuses : List (Option String)
  paymentTermKeys : List Int
  invoiceTiers : List SizeTier
  customerCategories : List CustomerCategoryFilterValue

def DEFAULT_DEBT_QUERY : DebtQuery := ⟨none, false, false, .all, [], [], [], [], []⟩

/-- A row of `v_finance_excluded_sales_team`. -/
structure ExcludedTeam where
  salesTeamKey : String
  invoicesOnly : Bool
  deriving DecidableEq

structure BucketRow where
  key : Int
  label : String
  isOverdue : Bool
  deriving DecidableEq

/-- `agingBuckets` has the rows of `dim_finance_aging_bucket` with a positive key, in their
order. `localeLe` is the order of `localeCompare`. -/
structure Database where
  lines : List ReceivableLine
  excludedTeams : List ExcludedTeam
  agingBuckets : List BucketRow
  agingBuckets_nodup : (agingBuckets.map (·.key)).Nodup
  tierLargeMin : ℚ
  tierMediumMin : ℚ
  localeLe : String → String → Bool
  odooWebBaseUrl : String

inductive SnapshotSelector
  | on (key : Nat)
  | since (key : Nat)

def SnapshotSelector.covers (snap : SnapshotSelector) (key : Nat) : Bool :=
  match snap with
  | .on k => key = k
  | .since k => k ≤ key

/-- A column in a list of values; an empty list asks for nothing, and `NULL` is in none. -/
def inList {α : Type} [DecidableEq α] (column : Option α) (values : List α) : Bool :=
  if values = [] then true
  else match column with
    | some value => decide (value ∈ values)
    | none => false

def num (n : Int) : Key := .num n

/-- `NOT EXISTS` of `EXCLUDED_TEAMS_CONDITION`. -/
def notExcluded (db : Database) (f : ReceivableLine) : Bool :=
  ! db.excludedTeams.any fun x =>
    decide (x.salesTeamKey = f.salesTeamKey) &&
      (!x.invoicesOnly || (decide (f.paymentKey = -1) && decide (f.moveType = some "out_invoice")))

def baseConditions (db : Database) (snap : SnapshotSelector) (q : DebtQuery) (filters : Filters)
    (f : ReceivableLine) : Bool :=
  snap.covers f.snapshotDateKey && notExcluded db f &&
  (q.includeOther || f.receivableScopeIsDefault) &&
  (q.includeIntercompany || !f.isIntercompany) &&
  inList (some (num f.companyKey)) (filters (.scope .companyKeys)) &&
  inList (some (num f.salespersonKey)) (filters (.scope .salespersonKeys)) &&
  inList (some (.text f.salesTeamKey)) (filters (.scope .salesTeamKeys)) &&
  inList (f.segmentKey.map num) (filters (.scope .segmentKeys)) &&
  inList (f.channelKey.map num) (filters (.scope .channelKeys)) &&
  inList (some (num f.customerKey)) (filters .customerKeys)

/-- The sum of the open lines of the document among the lines read. -/
def docAmount (read : List ReceivableLine) (f : ReceivableLine) : ℚ :=
  ((read.filter fun g => decide (g.snapshotDateKey = f.snapshotDateKey) &&
    decide (g.moveId = f.moveId)).map (·.residualCompanyCcy)).sum

def docTier (db : Database) (amount : ℚ) : SizeTier :=
  if db.tierLargeMin ≤ amount then .large
  else if db.tierMediumMin ≤ amount then .medium
  else .small

def customerCategoryCondition (values : List CustomerCategoryFilterValue) (category : Option String) :
    Bool :=
  if values = [] then true
  else
    (category.any fun v => values.any fun c => c.any fun c => decide (c.text = v)) ||
    (decide (none ∈ values) && (category.all fun v => !decide (v ∈ CUSTOMER_CATEGORIES.map (·.text))))

/-- The filters of the page, on a line and its document's tier. -/
def pageConditions (q : DebtQuery) (tier : SizeTier) (l : ReceivableLine) : Bool :=
  (match q.overdueStatus with
    | .all => true
    | .overdue => decide (0 < l.daysPastDue)
    | .not_due => decide (l.daysPastDue ≤ 0)) &&
  inList (some l.agingBucketKey) q.agingBucketKeys &&
  inList (some l.paymentTermKey) q.paymentTermKeys &&
  (decide (q.deliveryStatuses = []) || decide (l.deliveryStatus ∈ q.deliveryStatuses)) &&
  inList (some tier) q.invoiceTiers &&
  customerCategoryCondition q.customerCategories l.customerCategory

def linesSource (db : Database) (snap : SnapshotSelector) (q : DebtQuery) (filters : Filters) :
    List ReceivableLine :=
  let read := db.lines.filter (baseConditions db snap q filters)
  read.filter fun l => pageConditions q (docTier db (docAmount read l)) l

/-- **A snapshot read with others** gives the lines that it gives alone. -/
theorem linesSource_on (db : Database) (q : DebtQuery) (filters : Filters) {k from_ : Nat}
    (hk : from_ ≤ k) :
    (linesSource db (.since from_) q filters).filter (fun l => decide (l.snapshotDateKey = k)) =
      linesSource db (.on k) q filters := by
  have hread : (db.lines.filter (baseConditions db (.since from_) q filters)).filter
      (fun l => decide (l.snapshotDateKey = k)) =
      db.lines.filter (baseConditions db (.on k) q filters) := by
    rw [List.filter_filter]
    refine List.filter_congr fun l _ => ?_
    by_cases hl : l.snapshotDateKey = k
    · simp [baseConditions, SnapshotSelector.covers, hl, hk]
    · simp [baseConditions, SnapshotSelector.covers, hl]
  unfold linesSource
  dsimp only
  rw [List.filter_comm, hread, ← hread]
  refine List.filter_congr fun l hl => ?_
  have hkey : l.snapshotDateKey = k := of_decide_eq_true (List.mem_filter.mp hl).2
  have hamount : ∀ read : List ReceivableLine, docAmount read l =
      docAmount (read.filter fun l => decide (l.snapshotDateKey = k)) l := by
    intro read
    unfold docAmount
    rw [List.filter_filter]
    refine congrArg (fun ls : List ReceivableLine => (ls.map (·.residualCompanyCcy)).sum)
      (List.filter_congr fun g _ => ?_)
    by_cases hg : g.snapshotDateKey = k
    · simp [hg, hkey]
    · simp [hg, hkey]
  rw [hamount]

/-! ## Snapshots -/

structure SnapshotInfo where
  date : Nat
  lineCount : Nat
  deriving DecidableEq

def fetchSnapshots (db : Database) : List SnapshotInfo :=
  ((Firsts.firsts (db.lines.map (·.snapshotDateKey))).insertionSort (· ≤ ·)).map fun k =>
    ⟨k, db.lines.countP fun l => decide (l.snapshotDateKey = k)⟩

inductive DebtQueryError
  | noSnapshot (date : Nat)
  deriving DecidableEq

/-- The requested snapshot, or the latest. -/
def resolveSnapshot (db : Database) (q : DebtQuery) : Except DebtQueryError (Option Nat) :=
  match q.snapshotDateKey with
  | some k =>
      if k ∈ db.lines.map (·.snapshotDateKey) then .ok (some k) else .error (.noSnapshot k)
  | none => .ok ((db.lines.map (·.snapshotDateKey)).max?.filter (· ≠ 0))

end SalesDashboard.Receivables
