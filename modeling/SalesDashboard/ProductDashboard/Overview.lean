import SalesDashboard.DataScope.Filters
import SalesDashboard.Lib.Tables
import Mathlib

/-! The overview of the product pages (`productDashboard.ts`). Company names are
normalised: one that the database takes for Majaal, Tika or Athena is spelled so, and names
compare by equality. Amounts are exact and a day is its number. The period is what
`resolvePeriod` makes of the request, and the row of the last run, which the page repeats,
is left out. -/

namespace SalesDashboard.ProductDashboard
open DataScope Firsts Grouping Keyed Tables

/-! ## The warehouse -/

/-- A row of `v_sales_product_daily`. -/
structure DailyRow where
  productCompanyKey : String
  company : Option String
  keys : FactRow
  orderDate : Option ℤ
  isIntercompany : Option ℤ
  uom : Option String
  value : Option ℚ
  qty : Option ℚ
  costValue : Option ℚ
  uncostedQty : Option ℚ
  lines : Option ℤ
  deriving DecidableEq

/-- A row of `v_sales_product_dashboard`; the columns that the page only copies or formats
stand by name. -/
structure DashboardRow where
  productCompanyKey : String
  company : Option String
  companyKey : ℚ
  uom : Option String
  columns : List (String × String)
  deriving DecidableEq

inductive View
  | BMH | Majaal | Tika
  deriving DecidableEq, Repr

def View.name : View → String
  | .BMH => "BMH"
  | .Majaal => "Majaal"
  | .Tika => "Tika"

/-- `upper` is `toUpperCase` of what `trim` leaves. -/
def resolveView (upper : String → String) (company : Option String) : View :=
  let c := upper (company.getD "")
  if c = "MAJAAL" then .Majaal else if c = "TIKA" then .Tika else .BMH

/-- `String(r.Company)`. -/
def companyText (company : Option String) : String := company.getD "null"

/-- The names and keys of the companies of a warehouse. -/
def companies (daily : List DailyRow) (dashboard : List DashboardRow) : List (Option String × ℚ) :=
  daily.map (fun d => (d.company, d.keys.companyKey)) ++ dashboard.map fun p => (p.company, p.companyKey)

/-- One row for each product of a company, a product's company the same in both tables, a
company's key the same in all rows, and its name normalised. -/
structure Warehouse (upper : String → String) where
  daily : List DailyRow
  dashboard : List DashboardRow
  key_nodup : (dashboard.map (·.productCompanyKey)).Nodup
  same_company : ∀ d ∈ daily, ∀ p ∈ dashboard, d.productCompanyKey = p.productCompanyKey →
    d.company = p.company
  company_key : ∀ c ∈ companies daily dashboard, ∀ c' ∈ companies daily dashboard,
    c.1 ≠ none → c.1 = c'.1 → c.2 = c'.2
  normalised : ∀ d ∈ daily, resolveView upper (some (companyText d.company)) ≠ .BMH →
    d.company = some (resolveView upper (some (companyText d.company))).name

/-! ## The request -/

/-- The first and the last day; the days of a text that is none are no days. -/
structure Window where
  start : Option ℤ
  stop : Option ℤ
  deriving DecidableEq

structure Period where
  cur : Window
  prior : Window
  ytd : Window
  lytd : Window
  deriving DecidableEq

structure ProductDashboardQuery where
  company : Option String
  filters : Filters
  salespersonTier : Bool

/-- `ProductScopeError`, with the view asked for. -/
structure ProductScopeError where
  view : View
  deriving DecidableEq

def EXCLUDED_COMPANIES : List String := ["Athena"]

def UNIT_LABEL : String := "Unit"

/-- `date BETWEEN start AND stop`. -/
def Window.has (w : Window) (date : Option ℤ) : Bool :=
  date.any fun day => w.start.any (fun start => decide (start ≤ day)) &&
    w.stop.any fun stop => decide (day ≤ stop)

/-- `Company NOT IN (?)`. -/
def notExcluded (company : Option String) : Bool := company.any fun name => decide (name ∉ EXCLUDED_COMPANIES)

def companyKeys (query : ProductDashboardQuery) : List Key := query.filters (.scope .companyKeys)

/-- `companyClause`. -/
def companyClause (view : View) (company : Option String) : Bool :=
  decide (view = .BMH) || decide (company = some view.name)

/-- The companies of the role among the sales rows. -/
def allowed (daily : List DailyRow) (query : ProductDashboardQuery) : List String :=
  (firsts ((daily.filter fun d => decide (.num d.keys.companyKey ∈ companyKeys query)).map
    (·.company))).map companyText

def requestedView (upper : String → String) (daily : List DailyRow) (query : ProductDashboardQuery) :
    Except ProductScopeError View :=
  let view := resolveView upper query.company
  if companyKeys query = [] then .ok view
  else if view ≠ .BMH ∧ view.name ∉ allowed daily query then .error ⟨view⟩
  else if view ≠ .BMH then .ok view
  else match allowed daily query with
    | [only] => .ok (resolveView upper (some only))
    | _ => .ok .BMH

/-! ## The sales rows -/

/-- `scope.clause !== '1=1'`. -/
def isScoped (query : ProductDashboardQuery) : Bool :=
  SCOPE_DIMENSIONS.any fun dimension => decide (query.filters (.scope dimension) ≠ [])

def inScope (sap : Profiles) (query : ProductDashboardQuery) (view : View) (d : DailyRow) : Bool :=
  buildWhereClause query.filters false sap d.keys && companyClause view d.company && notExcluded d.company

def Period.has (period : Period) (date : Option ℤ) : Bool :=
  period.cur.has date || period.prior.has date || period.ytd.has date || period.lytd.has date

/-- `SUM(CASE WHEN d.OrderDate BETWEEN ? AND ? THEN column ELSE 0 END)`. -/
def sumIn {M : Type} [AddCommMonoid M] (w : Window) (column : DailyRow → Option M) (rows : List DailyRow) : M :=
  (rows.map fun d => if w.has d.orderDate then (column d).getD 0 else 0).sum

structure SalesRow where
  k : String
  uom : String
  value : ℚ
  qty : ℚ
  lineCount : ℤ
  costValue : ℚ
  uncostedQty : ℚ
  valuePrior : ℚ
  qtyPrior : ℚ
  icValue : ℚ
  linesPrior : ℤ
  valueYTD : ℚ
  qtyYTD : ℚ
  valueLYTD : ℚ
  qtyLYTD : ℚ
  deriving DecidableEq

/-- `IsIntercompany = 1`. -/
def icColumn (d : DailyRow) : Option ℚ := if d.isIntercompany = some 1 then d.value else some 0

def salesRow (period : Period) (k uom : String) (rows : List DailyRow) : SalesRow where
  k := k
  uom := uom
  value := sumIn period.cur (·.value) rows
  qty := sumIn period.cur (·.qty) rows
  lineCount := sumIn period.cur (·.lines) rows
  costValue := sumIn period.cur (·.costValue) rows
  uncostedQty := sumIn period.cur (·.uncostedQty) rows
  valuePrior := sumIn period.prior (·.value) rows
  qtyPrior := sumIn period.prior (·.qty) rows
  icValue := sumIn period.cur icColumn rows
  linesPrior := sumIn period.prior (·.lines) rows
  valueYTD := sumIn period.ytd (·.value) rows
  qtyYTD := sumIn period.ytd (·.qty) rows
  valueLYTD := sumIn period.lytd (·.value) rows
  qtyLYTD := sumIn period.lytd (·.qty) rows

/-- `GROUP BY d.ProductCompanyKey, COALESCE(d.UoM, '')`. -/
def salesKey (d : DailyRow) : String × String := (d.productCompanyKey, d.uom.getD "")

def salesRows (period : Period) (seen : List DailyRow) : List SalesRow :=
  (groups salesKey (seen.filter fun d => period.has d.orderDate)).map fun g => salesRow period g.1.1 g.1.2 g.2

structure Agg where
  value : ℚ
  lines : ℤ
  linesPrior : ℤ
  cost : ℚ
  uncosted : ℚ
  valuePrior : ℚ
  qty : List (String × ℚ)
  qtyPrior : List (String × ℚ)
  valueYTD : ℚ
  qtyYTD : ℚ
  valueLYTD : ℚ
  qtyLYTD : ℚ
  deriving DecidableEq

def emptyAgg : Agg := ⟨0, 0, 0, 0, 0, 0, [], [], 0, 0, 0, 0⟩

def addSales (a : Agg) (r : SalesRow) : Agg where
  value := a.value + r.value
  lines := a.lines + r.lineCount
  linesPrior := a.linesPrior + r.linesPrior
  cost := a.cost + r.costValue
  uncosted := a.uncosted + r.uncostedQty
  valuePrior := a.valuePrior + r.valuePrior
  qty := if 0 < r.lineCount then addTo a.qty r.uom r.qty else a.qty
  qtyPrior := if r.qtyPrior ≠ 0 then addTo a.qtyPrior r.uom r.qtyPrior else a.qtyPrior
  valueYTD := a.valueYTD + r.valueYTD
  qtyYTD := a.qtyYTD + r.qtyYTD
  valueLYTD := a.valueLYTD + r.valueLYTD
  qtyLYTD := a.qtyLYTD + r.qtyLYTD

def byProduct (rows : List SalesRow) : List (String × Agg) :=
  upserts Prod.fst SalesRow.k (fun r e => (e.1, addSales e.2 r)) (fun r => (r.k, addSales emptyAgg r)) [] rows

/-- `byProduct.get(key)`. -/
def aggOf (products : List (String × Agg)) (key : String) : Option Agg :=
  (products.find? fun e => decide (e.1 = key)).map Prod.snd

/-- `COUNT(DISTINCT d.OrderDate)` of a key. -/
def orderDays (period : Period) (seen : List DailyRow) (key : String) : ℕ :=
  (firsts ((seen.filter fun d => decide (d.productCompanyKey = key) && period.cur.has d.orderDate &&
    d.lines.any fun n => decide (0 < n)).map (·.orderDate))).length

/-- The key is one of `soldSql`. -/
def soldAnywhere (period : Period) (view : View) (daily : List DailyRow) (key : String) : Bool :=
  daily.any fun d => decide (d.productCompanyKey = key) &&
    (period.cur.has d.orderDate || period.prior.has d.orderDate) &&
    (d.lines.any fun n => decide (0 < n)) && companyClause view d.company && notExcluded d.company

/-! ## The page -/

def uomList (amounts : List (String × ℚ)) : List (String × ℚ) :=
  amounts.insertionSort fun a b => b.2 ≤ a.2

def sumQty (amounts : List (String × ℚ)) : ℚ := (amounts.map Prod.snd).sum

/-- The days of the period; a period of no days is not a number of them. -/
def Window.days (w : Window) : Option ℤ :=
  w.start.bind fun start => w.stop.map fun stop => stop - start + 1

structure ProductCompanyPart where
  company : String
  productCompanyKey : String
  value : ℚ
  lines : ℤ
  volumeByUom : List (String × ℚ)
  deriving DecidableEq

structure ProductDashboardRow where
  productCompanyKey : String
  company : String
  companies : List String
  parts : List ProductCompanyPart
  value : ℚ
  volume : ℚ
  volumeByUom : List (String × ℚ)
  uom : Option String
  lines : ℤ
  orderDays : ℕ
  velocity : Option ℚ
  valuePrior : ℚ
  volumePrior : ℚ
  avgUnitPrice : Option ℚ
  grossProfitPct : Option ℚ
  valueYTD : ℚ
  volumeYTD : ℚ
  valueLYTD : ℚ
  volumeLYTD : ℚ
  columns : List (String × String)
  deriving DecidableEq

/-- `str(v)`. -/
def str (v : Option String) : Option String := v.filter fun s => decide (s ≠ "")

def partOf (p : DashboardRow) (a : Option Agg) : ProductCompanyPart where
  company := p.company.getD ""
  productCompanyKey := p.productCompanyKey
  value := a.elim 0 (·.value)
  lines := a.elim 0 (·.lines)
  volumeByUom := a.elim [] fun a => uomList a.qty

def toRow (p : DashboardRow) (found : Option Agg) (days : Option ℤ) (orderDays : ℕ) : ProductDashboardRow :=
  let a := found.getD emptyAgg
  let volumeByUom := uomList a.qty
  let volume := sumQty a.qty
  { productCompanyKey := p.productCompanyKey
    company := p.company.getD ""
    companies := [p.company.getD ""]
    parts := [partOf p found]
    value := a.value
    volume := volume
    volumeByUom := volumeByUom
    uom :=
      if volumeByUom.length ≤ 1 then (str (volumeByUom.head?.map Prod.fst)).or (str p.uom)
      else some UNIT_LABEL
    lines := a.lines
    orderDays := orderDays
    velocity := days.map fun n => volume / n
    valuePrior := a.valuePrior
    volumePrior := sumQty a.qtyPrior
    avgUnitPrice := if volume ≠ 0 then some (a.value / volume) else none
    grossProfitPct :=
      if a.uncosted = 0 ∧ 0 < a.lines ∧ a.value ≠ 0 then some ((a.value - a.cost) / a.value * 100) else none
    valueYTD := a.valueYTD
    volumeYTD := a.qtyYTD
    valueLYTD := a.valueLYTD
    volumeLYTD := a.qtyLYTD
    columns := p.columns }

/-- `soldInScope`. -/
def soldInScope (a : Option Agg) : Bool := a.any fun a => decide (0 < a.lines) || decide (0 < a.linesPrior)

structure Totals where
  value : ℚ
  lines : ℤ
  volumeByUom : List (String × ℚ)
  deriving DecidableEq

structure ProductDashboardOverview where
  view : View
  products : List ProductDashboardRow
  totals : Totals
  intercompanyValue : ℚ
  deriving DecidableEq

/-- The products with lines in the period. -/
def totalsOf (products : List (String × Agg)) : Totals :=
  let sold := (products.map Prod.snd).filter fun a => decide (0 < a.lines)
  { value := (sold.map (·.value)).sum
    lines := (sold.map (·.lines)).sum
    volumeByUom := uomList (sums (sold.flatMap (·.qty))) }

/-- The rows of the table that the page lists. -/
def isListed (period : Period) (query : ProductDashboardQuery) (view : View) (daily : List DailyRow)
    (products : List (String × Agg)) (p : DashboardRow) : Bool :=
  notExcluded p.company && companyClause view p.company &&
    !(isScoped query && !soldInScope (aggOf products p.productCompanyKey) &&
      (query.salespersonTier || soldAnywhere period view daily p.productCompanyKey))

def overview (sap : Profiles) (period : Period) (query : ProductDashboardQuery) (view : View)
    (daily : List DailyRow) (dashboard : List DashboardRow) : ProductDashboardOverview :=
  let seen := daily.filter (inScope sap query view)
  let rows := salesRows period seen
  let products := byProduct rows
  { view := view
    products := (dashboard.filter (isListed period query view daily products)).map fun p =>
      toRow p (aggOf products p.productCompanyKey) period.cur.days (orderDays period seen p.productCompanyKey)
    totals := totalsOf products
    intercompanyValue := (rows.map (·.icValue)).sum }

def computeProductDashboard {upper : String → String} (db : Warehouse upper) (sap : Profiles) (period : Period)
    (query : ProductDashboardQuery) : Except ProductScopeError ProductDashboardOverview :=
  (requestedView upper db.daily query).map fun view =>
    overview sap period query view db.daily db.dashboard

end SalesDashboard.ProductDashboard
