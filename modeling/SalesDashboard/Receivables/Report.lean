import SalesDashboard.Lib.Grouping
import SalesDashboard.Lib.Keyed
import SalesDashboard.Receivables.Lines
import Mathlib

/-! The endpoints of the Receivables page (`debtReport.ts`): overview, trend, customer
table and drill-down, each with its own sums over the lines. A day stands for its text,
and a key of a chart point for the text of it. -/

namespace SalesDashboard.Receivables
open DataScope Grouping Keyed

def pct (part whole : ℚ) : Option ℚ := if whole = 0 then none else some (part / whole)

/-- Most open lines first, then by code. -/
def orderCurrencies (db : Database) (counts : List (String × Nat)) : List String :=
  (counts.insertionSort fun a b => b.2 < a.2 ∨ b.2 = a.2 ∧ db.localeLe a.1 b.1).map Prod.fst

def residualDoc (l : ReceivableLine) : ℚ := l.residualDocCcy.getD 0

/-! ## Documents -/

structure DocumentAmount where
  lineId : Int
  amount : ℚ
  amountCompany : ℚ
  deriving DecidableEq

/-- The documents by id, each with the amounts on its lowest line. -/
abbrev DocumentAmounts := List (Int × DocumentAmount)

def DocumentAmounts.add (docs : DocumentAmounts) (l : ReceivableLine) : DocumentAmounts :=
  let amounts : DocumentAmount :=
    ⟨l.lineId, (invoiceTotalSigned l).getD 0, (invoiceTotalCompany l).getD 0⟩
  upsert Prod.fst l.moveId (fun cur => if l.lineId < cur.2.lineId then (cur.1, amounts) else cur)
    (l.moveId, amounts) docs

def DocumentAmounts.total (docs : DocumentAmounts) : ℚ := (docs.map (·.2.amount)).sum

def DocumentAmounts.totalCompany (docs : DocumentAmounts) : ℚ :=
  (docs.map (·.2.amountCompany)).sum

/-! ## Overview -/

structure GroupAcc where
  label : String
  details : List String
  overdue : ℚ
  open_ : ℚ
  deriving DecidableEq

def GroupAcc.add (g : GroupAcc) (open_ overdue : ℚ) (detail : Option String) : GroupAcc :=
  { g with
    open_ := g.open_ + open_
    overdue := g.overdue + overdue
    details := match detail with
      | some d => if d = "" then g.details else Firsts.insert g.details d
      | none => g.details }

def addTo {κ : Type} [DecidableEq κ] (m : List (κ × GroupAcc)) (key : κ) (label : String)
    (open_ overdue : ℚ) (detail : Option String) : List (κ × GroupAcc) :=
  upsert Prod.fst key (fun g => (g.1, g.2.add open_ overdue detail))
    (key, (GroupAcc.mk label [] 0 0).add open_ overdue detail) m

structure KindAcc where
  amount : ℚ
  amountCompany : ℚ
  docs : List Int
  deriving DecidableEq

/-- The amount of a line in the view: in the company currency, or in the document's. -/
def amountOf (company : Bool) (l : ReceivableLine) : ℚ :=
  if company then l.residualCompanyCcy else residualDoc l

def KindAcc.add (company : Bool) (l : ReceivableLine) (k : KindAcc) : KindAcc :=
  ⟨k.amount + amountOf company l, k.amountCompany + l.residualCompanyCcy, Firsts.insert k.docs l.moveId⟩

structure BucketAcc where
  amount : ℚ
  n : Nat
  deriving DecidableEq

structure CurrencyAcc where
  company : Bool
  invoices : KindAcc
  overdue : ℚ
  overdueCompany : ℚ
  invoiceCustomers : List Int
  allCustomers : List Int
  creditNote : KindAcc
  payment : KindAcc
  other : KindAcc
  intercompany : KindAcc
  net : ℚ
  n : Nat
  buckets : List (Int × BucketAcc)
  byCustomer : List (Int × GroupAcc)
  bySalesperson : List (Int × GroupAcc)
  byTeam : List (String × GroupAcc)

def newCurrencyAcc (company : Bool) : CurrencyAcc :=
  ⟨company, ⟨0, 0, []⟩, 0, 0, [], [], ⟨0, 0, []⟩, ⟨0, 0, []⟩, ⟨0, 0, []⟩, ⟨0, 0, []⟩, 0, 0, [], [], [],
    []⟩

/-- The overdue part of a line in the view. -/
def overdueAmountOf (company : Bool) (l : ReceivableLine) : ℚ :=
  if 0 < l.daysPastDue then amountOf company l else 0

def addInvoice (c : CurrencyAcc) (l : ReceivableLine) : CurrencyAcc :=
  let amount := amountOf c.company l
  let od := overdueAmountOf c.company l
  { c with
    invoices := c.invoices.add c.company l
    overdue := c.overdue + od
    overdueCompany := c.overdueCompany + (if 0 < l.daysPastDue then l.residualCompanyCcy else 0)
    invoiceCustomers := Firsts.insert c.invoiceCustomers l.customerKey
    buckets := upsert Prod.fst l.agingBucketKey (fun b => (b.1, ⟨b.2.amount + amount, b.2.n + 1⟩))
      (l.agingBucketKey, ⟨0 + amount, 0 + 1⟩) c.buckets
    byCustomer := addTo c.byCustomer l.customerKey l.customer amount od (some l.company)
    bySalesperson := addTo c.bySalesperson l.salespersonKey l.salesperson amount od none
    byTeam := addTo c.byTeam l.salesTeamKey l.salesTeam amount od none }

def addLine (c : CurrencyAcc) (l : ReceivableLine) : CurrencyAcc :=
  let c := { c with
    net := c.net + amountOf c.company l
    n := c.n + 1
    allCustomers := Firsts.insert c.allCustomers l.customerKey }
  match lineKind l with
  | .credit_note => { c with creditNote := c.creditNote.add c.company l }
  | .payment => { c with payment := c.payment.add c.company l }
  | .other => { c with other := c.other.add c.company l }
  | .intercompany => { c with intercompany := c.intercompany.add c.company l }
  | .invoice => addInvoice c l

structure DebtKpis where
  openAmount : ℚ
  openDocuments : Nat
  customers : Nat
  overdueAmount : ℚ
  overduePctOfOpen : Option ℚ
  notDueAmount : ℚ
  notDuePctOfOpen : Option ℚ
  openAmountCompany : ℚ
  overdueAmountCompany : ℚ
  notDueAmountCompany : ℚ
  unappliedCredits : ℚ
  creditNotes : ℚ
  creditNoteDocuments : Nat
  payments : ℚ
  paymentDocuments : Nat
  otherEntries : ℚ
  otherDocuments : Nat
  intercompany : ℚ
  intercompanyDocuments : Nat
  netBalance : ℚ
  creditOnlyCustomers : Nat
  lineCount : Nat
  deriving DecidableEq

structure DebtGroupPoint (κ : Type) where
  key : κ
  label : String
  detail : Option String
  overdue : ℚ
  open_ : ℚ
  pctOfOverdue : Option ℚ
  deriving DecidableEq

structure DebtAgingPoint where
  agingBucketKey : Int
  label : String
  isOverdue : Bool
  amount : ℚ
  lineCount : Nat
  deriving DecidableEq

structure DebtCurrencyOverview where
  currency : String
  kpis : DebtKpis
  aging : List DebtAgingPoint
  topCustomers : List (DebtGroupPoint Int)
  bySalesperson : List (DebtGroupPoint Int)
  byTeam : List (DebtGroupPoint String)
  deriving DecidableEq

def DEBT_TOP_CUSTOMERS : Nat := 15

def detailOf (details : List String) : Option String :=
  let joined := ", ".intercalate (details.insertionSort (· ≤ ·))
  if joined = "" then none else some joined

/-- The chart points of a map: those of at least half a cent, the greatest overdue first. -/
def points {κ : Type} (totalOverdue : ℚ) (m : List (κ × GroupAcc)) (limit : Option Nat)
    (withDetail : Bool) : List (DebtGroupPoint κ) :=
  let kept := (m.filter fun g => decide ((5 : ℚ) / 1000 ≤ |g.2.overdue|)).insertionSort
    fun a b => b.2.overdue ≤ a.2.overdue
  ((limit.map fun n => kept.take n).getD kept).map fun g =>
    ⟨g.1, g.2.label, if withDetail then detailOf g.2.details else none, g.2.overdue, g.2.open_,
      pct g.2.overdue totalOverdue⟩

def bucketOf (c : CurrencyAcc) (key : Int) : BucketAcc :=
  ((c.buckets.find? fun b => decide (b.1 = key)).map Prod.snd).getD ⟨0, 0⟩

def currencyOverview (currency : String) (c : CurrencyAcc) (bucketRows : List BucketRow) :
    DebtCurrencyOverview :=
  let open_ := c.invoices.amount
  let notDue := open_ - c.overdue
  { currency := currency
    kpis :=
      { openAmount := open_
        openDocuments := c.invoices.docs.length
        customers := c.invoiceCustomers.length
        overdueAmount := c.overdue
        overduePctOfOpen := pct c.overdue open_
        notDueAmount := notDue
        notDuePctOfOpen := pct notDue open_
        openAmountCompany := c.invoices.amountCompany
        overdueAmountCompany := c.overdueCompany
        notDueAmountCompany := c.invoices.amountCompany - c.overdueCompany
        unappliedCredits := c.creditNote.amount + c.payment.amount
        creditNotes := c.creditNote.amount
        creditNoteDocuments := c.creditNote.docs.length
        payments := c.payment.amount
        paymentDocuments := c.payment.docs.length
        otherEntries := c.other.amount
        otherDocuments := c.other.docs.length
        intercompany := c.intercompany.amount
        intercompanyDocuments := c.intercompany.docs.length
        netBalance := c.net
        creditOnlyCustomers := (c.allCustomers.filter fun x => !decide (x ∈ c.invoiceCustomers)).length
        lineCount := c.n }
    aging := bucketRows.map fun b =>
      ⟨b.key, b.label, b.isOverdue, (bucketOf c b.key).amount, (bucketOf c b.key).n⟩
    topCustomers := points c.overdue c.byCustomer (some DEBT_TOP_CUSTOMERS) true
    bySalesperson := points c.overdue c.bySalesperson none false
    byTeam := points c.overdue c.byTeam none false }

structure DebtAllCurrencies where
  openAmount : ℚ
  openDocuments : Nat
  customers : Nat
  overdueAmount : ℚ
  overduePctOfOpen : Option ℚ
  notDueAmount : ℚ
  notDuePctOfOpen : Option ℚ
  deriving DecidableEq

structure DebtOverview where
  snapshotDate : Option Nat
  lineCount : Nat
  currencies : List DebtCurrencyOverview
  all : DebtCurrencyOverview
  allCurrencies : DebtAllCurrencies
  deriving DecidableEq

def COMPANY_CURRENCY : String := "LYD"

/-- The lines of the snapshot read, none without one. -/
def snapshotLines (db : Database) (snapshotKey : Option Nat) (q : DebtQuery) (filters : Filters) :
    List ReceivableLine :=
  match snapshotKey with
  | some k => linesSource db (.on k) q filters
  | none => []

/-- The accumulators of the currencies, in the order of their first lines. -/
def accByCurrency (lines : List ReceivableLine) : List (String × CurrencyAcc) :=
  upserts Prod.fst (·.currency) (fun l c => (c.1, addLine c.2 l))
    (fun l => (l.currency, addLine (newCurrencyAcc false) l)) [] lines

def overviewOf (db : Database) (snapshotKey : Option Nat) (lines : List ReceivableLine) :
    DebtOverview :=
  let byCurrency := accByCurrency lines
  let all := lines.foldl addLine (newCurrencyAcc true)
  let order := orderCurrencies db (byCurrency.map fun c => (c.1, c.2.n))
  let total := all.invoices.amountCompany
  { snapshotDate := snapshotKey
    lineCount := lines.length
    currencies := order.map fun currency => currencyOverview currency
      (((byCurrency.find? fun c => decide (c.1 = currency)).map Prod.snd).getD (newCurrencyAcc false))
      db.agingBuckets
    all := currencyOverview COMPANY_CURRENCY all db.agingBuckets
    allCurrencies :=
      { openAmount := total
        openDocuments := all.invoices.docs.length
        customers := all.invoiceCustomers.length
        overdueAmount := all.overdueCompany
        overduePctOfOpen := pct all.overdueCompany total
        notDueAmount := total - all.overdueCompany
        notDuePctOfOpen := pct (total - all.overdueCompany) total } }

def fetchDebtOverview (db : Database) (q : DebtQuery) (filters : Filters) :
    Except DebtQueryError DebtOverview := do
  let snapshotKey ← resolveSnapshot db q
  return overviewOf db snapshotKey (snapshotLines db snapshotKey q filters)

/-! ## Trend -/

structure DebtTrendPoint where
  snapshotDate : Nat
  currency : String
  open_ : Option ℚ
  overdue : Option ℚ
  notDue : Option ℚ
  net : Option ℚ
  deriving DecidableEq

structure DebtTrend where
  points : List DebtTrendPoint
  all : List DebtTrendPoint
  currencies : List String
  snapshotCount : Nat
  deriving DecidableEq

/-- A row of the grouped query. -/
structure TrendGroup where
  k : Nat
  currency : String
  n : Nat
  openAmount : ℚ
  overdue : ℚ
  net : ℚ
  openCompany : ℚ
  overdueCompany : ℚ
  netCompany : ℚ
  deriving DecidableEq

/-- `SUM(CASE WHEN condition THEN column ELSE 0 END)`. -/
def sumCase (condition : ReceivableLine → Bool) (column : ReceivableLine → ℚ)
    (lines : List ReceivableLine) : ℚ :=
  (lines.map fun l => if condition l then column l else 0).sum

def isInvoice (l : ReceivableLine) : Bool := lineKind l = .invoice

def isOverdueInvoice (l : ReceivableLine) : Bool := isInvoice l && decide (0 < l.daysPastDue)

def trendGroups (lines : List ReceivableLine) : List TrendGroup :=
  (groups (fun l => (l.snapshotDateKey, l.currency)) lines).map fun g =>
    ⟨g.1.1, g.1.2, g.2.length, sumCase isInvoice residualDoc g.2, sumCase isOverdueInvoice residualDoc g.2,
      (g.2.map residualDoc).sum, sumCase isInvoice (·.residualCompanyCcy) g.2,
      sumCase isOverdueInvoice (·.residualCompanyCcy) g.2, (g.2.map (·.residualCompanyCcy)).sum⟩

structure AllTotals where
  open_ : ℚ
  overdue : ℚ
  net : ℚ
  deriving DecidableEq

def AllTotals.add (x : TrendGroup) (t : AllTotals) : AllTotals :=
  ⟨t.open_ + x.openCompany, t.overdue + x.overdueCompany, t.net + x.netCompany⟩

def fetchDebtTrend (db : Database) (q : DebtQuery) (filters : Filters) : DebtTrend :=
  let r := trendGroups (linesSource db (.since 0) q filters)
  let counts : List (String × Nat) := upserts Prod.fst (·.currency) (fun x e => (e.1, e.2 + x.n))
    (fun x => (x.currency, 0 + x.n)) [] r
  let currencies := orderCurrencies db counts
  let snaps := fetchSnapshots db
  let allBySnapshot : List (Nat × AllTotals) := upserts Prod.fst (·.k) (fun x t => (t.1, t.2.add x))
    (fun x => (x.k, (AllTotals.mk 0 0 0).add x)) [] r
  { snapshotCount := snaps.length
    currencies := currencies
    all := snaps.map fun sn =>
      match (allBySnapshot.find? fun t => decide (t.1 = sn.date)).map Prod.snd with
      | some t => ⟨sn.date, COMPANY_CURRENCY, some t.open_, some t.overdue, some (t.open_ - t.overdue),
          some t.net⟩
      | none => ⟨sn.date, COMPANY_CURRENCY, none, none, none, none⟩
    points := currencies.flatMap fun currency => snaps.map fun sn =>
      if sn.date ∈ r.map (·.k) then
        let x := r.find? fun x => decide (x.k = sn.date ∧ x.currency = currency)
        let open_ := (x.map (·.openAmount)).getD 0
        let overdue := (x.map (·.overdue)).getD 0
        ⟨sn.date, currency, some open_, some overdue, some (open_ - overdue), some ((x.map (·.net)).getD 0)⟩
      else ⟨sn.date, currency, none, none, none, none⟩ }

/-! ## Customers -/

/-- The amounts of a row, in its currency or in the company's. -/
@[ext]
structure Amounts where
  open_ : ℚ
  overdue : ℚ
  notDue : ℚ
  credits : ℚ
  otherEntries : ℚ
  net : ℚ
  deriving DecidableEq

structure DebtCustomerRow where
  companyKey : Int
  company : String
  customerKey : Int
  customer : String
  customerCategory : String
  currency : String
  openDocuments : Nat
  invoiceAmount : ℚ
  amounts : Amounts
  lydInvoiceAmount : ℚ
  lyd : Amounts
  salespersons : List String
  salesTeams : List String
  segments : List String
  lineCount : Nat
  deriving DecidableEq

structure CustomerAcc where
  companyKey : Int
  company : String
  customerKey : Int
  customer : String
  customerCategory : String
  currency : String
  amounts : Amounts
  lyd : Amounts
  lineCount : Nat
  docs : DocumentAmounts
  sp : List String
  tm : List String
  sg : List String

def CREDIT_KINDS : List DebtLineKind := [.credit_note, .payment]

/-- What a line adds to the amounts of its row. -/
def Amounts.add (company : Bool) (l : ReceivableLine) (a : Amounts) : Amounts :=
  let amount := amountOf company l
  let a := { a with net := a.net + amount }
  if lineKind l = .invoice then
    let od := overdueAmountOf company l
    { a with open_ := a.open_ + amount, overdue := a.overdue + od, notDue := a.notDue + (amount - od) }
  else if lineKind l ∈ CREDIT_KINDS then { a with credits := a.credits + amount }
  else { a with otherEntries := a.otherEntries + amount }

def addText (texts : List String) (text : String) : List String :=
  if text = "" then texts else Firsts.insert texts text

def newCustomerAcc (l : ReceivableLine) : CustomerAcc :=
  ⟨l.companyKey, l.company, l.customerKey, l.customer, customerCategoryLabel l.customerCategory,
    l.currency, ⟨0, 0, 0, 0, 0, 0⟩, ⟨0, 0, 0, 0, 0, 0⟩, 0, [], [], [], []⟩

def CustomerAcc.add (l : ReceivableLine) (g : CustomerAcc) : CustomerAcc :=
  { g with
    amounts := g.amounts.add false l
    lyd := g.lyd.add true l
    lineCount := g.lineCount + 1
    docs := if lineKind l = .invoice then g.docs.add l else g.docs
    sp := addText g.sp l.salesperson
    tm := addText g.tm l.salesTeam
    sg := match l.segment with
      | some s => addText g.sg s
      | none => g.sg }

/-- The rows by company, customer and currency. -/
def customerAccs (lines : List ReceivableLine) : List ((Int × Int × String) × CustomerAcc) :=
  upserts Prod.fst (fun l => (l.companyKey, l.customerKey, l.currency))
    (fun l g => (g.1, g.2.add l))
    (fun l => ((l.companyKey, l.customerKey, l.currency), (newCustomerAcc l).add l)) [] lines

structure DebtCustomers where
  snapshotDate : Option Nat
  currencies : List String
  rows : List DebtCustomerRow
  deriving DecidableEq

def CustomerAcc.row (db : Database) (g : CustomerAcc) : DebtCustomerRow :=
  { companyKey := g.companyKey
    company := g.company
    customerKey := g.customerKey
    customer := g.customer
    customerCategory := g.customerCategory
    currency := g.currency
    openDocuments := g.docs.length
    invoiceAmount := g.docs.total
    amounts := g.amounts
    lydInvoiceAmount := g.docs.totalCompany
    lyd := g.lyd
    salespersons := g.sp.insertionSort fun a b => db.localeLe a b
    salesTeams := g.tm.insertionSort fun a b => db.localeLe a b
    segments := g.sg.insertionSort fun a b => db.localeLe a b
    lineCount := g.lineCount }

/-- By the rank of the currency, then overdue, open and net, the latter upwards. -/
def rowLe (rank : String → Nat) (a b : CustomerAcc) : Prop :=
  rank a.currency < rank b.currency ∨ rank a.currency = rank b.currency ∧
    (b.amounts.overdue < a.amounts.overdue ∨ b.amounts.overdue = a.amounts.overdue ∧
      (b.amounts.open_ < a.amounts.open_ ∨ b.amounts.open_ = a.amounts.open_ ∧
        a.amounts.net ≤ b.amounts.net))

instance (rank : String → Nat) (a b : CustomerAcc) : Decidable (rowLe rank a b) := by
  unfold rowLe
  infer_instance

def customersOf (db : Database) (k : Nat) (lines : List ReceivableLine) : DebtCustomers :=
  let counts : List (String × Nat) := upserts Prod.fst (·.currency) (fun _ e => (e.1, e.2 + 1))
    (fun l => (l.currency, 0 + 1)) [] lines
  let currencies := orderCurrencies db counts
  let rank := fun currency => if currency ∈ currencies then currencies.idxOf currency else 0
  let sorted := ((customerAccs lines).map Prod.snd).insertionSort (rowLe rank)
  ⟨some k, currencies, sorted.map (CustomerAcc.row db)⟩

def fetchDebtCustomers (db : Database) (q : DebtQuery) (filters : Filters) :
    Except DebtQueryError DebtCustomers := do
  match ← resolveSnapshot db q with
  | none => return ⟨none, [], []⟩
  | some k => return customersOf db k (linesSource db (.on k) q filters)

/-! ## Drill-down -/

inductive DrillKey
  | customer (customerKey : Int)
  | customer_open (customerKey : Int)
  | aging (agingBucketKey : Int)
  | salesperson (salespersonKey : Int)
  | team (salesTeamKey : String)
  | account (companyKey customerKey : Int)
  deriving DecidableEq

structure DebtDrill where
  key : DrillKey
  currency : Option String
  deriving DecidableEq

def withoutLineFilters (q : DebtQuery) : DebtQuery :=
  { q with
    overdueStatus := .all
    agingBucketKeys := []
    deliveryStatuses := []
    paymentTermKeys := []
    invoiceTiers := [] }

def drillCondition (key : DrillKey) (d : ReceivableLine) : Bool :=
  match key with
  | .customer k => decide (d.customerKey = k) && decide (0 < d.daysPastDue) && decide (lineKind d = .invoice)
  | .customer_open k => decide (d.customerKey = k) && decide (lineKind d = .invoice)
  | .aging k => decide (d.agingBucketKey = k) && decide (lineKind d = .invoice)
  | .salesperson k =>
      decide (d.salespersonKey = k) && decide (0 < d.daysPastDue) && decide (lineKind d = .invoice)
  | .team k => decide (d.salesTeamKey = k) && decide (0 < d.daysPastDue) && decide (lineKind d = .invoice)
  | .account co cu => decide (d.companyKey = co) && decide (d.customerKey = cu)

structure DebtDrillRow where
  lineId : Int
  moveId : Int
  company : String
  document : Option String
  documentTypeKey : String
  lineKind : DebtLineKind
  invoiceDate : Option String
  dueDate : String
  daysOverdue : Int
  customerKey : Int
  customer : String
  currency : String
  invoiceAmount : ℚ
  openBalance : ℚ
  overdueAmount : ℚ
  invoiceAmountCompany : ℚ
  openBalanceCompany : ℚ
  overdueAmountCompany : ℚ
  salesperson : String
  salesTeamKey : String
  salesTeam : String
  segment : Option String
  odooUrl : String
  deriving DecidableEq

def drillRow (db : Database) (x : ReceivableLine) : DebtDrillRow :=
  { lineId := x.lineId
    moveId := x.moveId
    company := x.company
    document := x.document
    documentTypeKey := documentTypeKey x
    lineKind := Receivables.lineKind x
    invoiceDate := x.invoiceDate
    dueDate := x.dueDate
    daysOverdue := max 0 x.daysPastDue
    customerKey := x.customerKey
    customer := x.customer
    currency := x.currency
    invoiceAmount := (invoiceTotalSigned x).getD 0
    openBalance := residualDoc x
    overdueAmount := overdueAmountOf false x
    invoiceAmountCompany := (invoiceTotalCompany x).getD 0
    openBalanceCompany := x.residualCompanyCcy
    overdueAmountCompany := overdueAmountOf true x
    salesperson := x.salesperson
    salesTeamKey := x.salesTeamKey
    salesTeam := x.salesTeam
    segment := x.segment
    odooUrl := db.odooWebBaseUrl ++ "/web#id=" ++ toString x.moveId ++
      "&model=account.move&view_type=form" }

structure DrillTotals where
  lines : Nat
  openDocuments : Nat
  invoiceAmount : ℚ
  openBalance : ℚ
  overdueAmount : ℚ
  deriving DecidableEq

structure DebtDrilldown where
  snapshotDate : Option Nat
  drill : DebtDrill
  rows : List DebtDrillRow
  totals : DrillTotals
  deriving DecidableEq

/-- `ORDER BY d.days_past_due DESC, d.due_date, d.line_id`. -/
def drillLe (a b : ReceivableLine) : Prop :=
  b.daysPastDue < a.daysPastDue ∨ b.daysPastDue = a.daysPastDue ∧
    (a.dueDate < b.dueDate ∨ a.dueDate = b.dueDate ∧ a.lineId ≤ b.lineId)

instance (a b : ReceivableLine) : Decidable (drillLe a b) := by
  unfold drillLe
  infer_instance

def drilldownOf (db : Database) (k : Nat) (d : DebtDrill) (lines : List ReceivableLine) :
    DebtDrilldown :=
  let r := (lines.filter fun l => (d.currency.all fun c => decide (l.currency = c)) &&
    drillCondition d.key l).insertionSort drillLe
  let docs : DocumentAmounts := r.foldl DocumentAmounts.add []
  let out := r.map (drillRow db)
  let all := d.currency.isNone
  ⟨some k, d, out,
    { lines := out.length
      openDocuments := docs.length
      invoiceAmount := if all then docs.totalCompany else docs.total
      openBalance := (out.map fun x => if all then x.openBalanceCompany else x.openBalance).sum
      overdueAmount := (out.map fun x => if all then x.overdueAmountCompany else x.overdueAmount).sum }⟩

def drillQuery (q : DebtQuery) : DrillKey → DebtQuery
  | .customer_open _ => withoutLineFilters q
  | _ => q

def fetchDebtDrilldown (db : Database) (q : DebtQuery) (filters : Filters) (d : DebtDrill) :
    Except DebtQueryError DebtDrilldown := do
  match ← resolveSnapshot db q with
  | none => return ⟨none, d, [], ⟨0, 0, 0, 0, 0⟩⟩
  | some k => return drilldownOf db k d (linesSource db (.on k) (drillQuery q d.key) filters)

end SalesDashboard.Receivables
