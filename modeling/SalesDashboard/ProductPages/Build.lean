import SalesDashboard.ProductPages.Rules

/-! The tables of the product pages (`ProductDashboardBuilder.build`). The stock bands, the
lifecycle and the BCG classes are columns of the products that nothing here reads. -/

namespace SalesDashboard.ProductPages
open Firsts Grouping

/-! ## Daily sales -/

/-- `DAILY_GRAIN`. -/
structure DailyGrain where
  productCompanyKey : ProductCompanyKey
  companyKey : Option Int
  orderDate : Option Int
  dateKey : Option Int
  salespersonKey : Option Int
  segmentKey : Option Int
  channelKey : Option Int
  salesTeamKey : Option String
  isIntercompany : Bool
  uom : String
  deriving DecidableEq

def SalesLine.grain (l : SalesLine) : DailyGrain :=
  { productCompanyKey := l.productCompanyKey
    companyKey := l.companyKey
    orderDate := l.orderDate
    dateKey := l.dateKey
    salespersonKey := l.salespersonKey
    segmentKey := l.segmentKey
    channelKey := l.channelKey
    salesTeamKey := l.salesTeamKey
    isIntercompany := l.isIntercompany
    uom := l.uom }

structure DailyRow where
  grain : DailyGrain
  value : ℚ
  qty : ℚ
  qtyOrdered : ℚ
  qtyDelivered : ℚ
  costValue : ℚ
  costedQty : ℚ
  uncostedQty : ℚ
  lines : Nat
  deriving DecidableEq

def total (amount : SalesLine → ℚ) (lines : List SalesLine) : ℚ := (lines.map amount).sum

/-- `_daily`. -/
def daily (lines : List SalesLine) : List DailyRow :=
  (groups SalesLine.grain lines).map fun g =>
    { grain := g.1
      value := total (·.value) g.2
      qty := total (·.qty) g.2
      qtyOrdered := total (·.qtyOrdered) g.2
      qtyDelivered := total (·.qtyDelivered) g.2
      costValue := total (·.costValue) g.2
      costedQty := total (·.costedQty) g.2
      uncostedQty := total (·.uncostedQty) g.2
      lines := g.2.length }

/-- A sum that `assert_totals_preserved` accepts. -/
def preserved (before after : ℚ) : Bool := decide (|before - after| ≤ 5 / 1000)

def totalsPreserved (lines : List SalesLine) (rows : List DailyRow) : Bool :=
  preserved (total (·.value) lines) (rows.map (·.value)).sum &&
    preserved (total (·.qty) lines) (rows.map (·.qty)).sum &&
    preserved lines.length ((rows.map (·.lines)).sum : ℕ)

/-! ## Products -/

/-- The as-of date, the first day of its year and the first of the last twelve months. -/
structure AsOf where
  today : Int
  ytdStart : Int
  start12m : Int
  deriving DecidableEq, Repr

def SalesLine.within (start stop : Int) (l : SalesLine) : Bool :=
  l.orderDate.any fun day => decide (start ≤ day) && decide (day ≤ stop)

structure ProductRow where
  productCompanyKey : ProductCompanyKey
  productName : String
  category : String
  brand : String
  family : String
  size : String
  sku : Option String
  isActive : Option Bool
  uomCount : Nat
  qtyYtd : ℚ
  valueYtd : ℚ
  noCostYtd : Bool
  deriving DecidableEq

/-- The keys and names of lines, of stock, and of the active products of the companies
that have lines. -/
def seen (lines : List SalesLine) (catalog : List CatalogRow) (stock : List StockRow) :
    List (ProductCompanyKey × String) :=
  lines.map (fun l => (l.productCompanyKey, l.productName)) ++
    stock.map (fun s => (s.productCompanyKey, s.productName)) ++
    (catalog.filter fun r => r.isActive &&
      r.productCompany.any fun company => decide (company ∈ lines.map (·.company))).filterMap fun r =>
        r.productCompanyKey.map fun key => (key, r.productName)

/-- The catalog's attributes of a product, and of its sales this year. -/
def productRow (asOf : AsOf) (lines : List SalesLine) (catalog : List CatalogRow)
    (key : ProductCompanyKey) (name : String) : ProductRow :=
  let own := rowsOf SalesLine.productCompanyKey lines key
  let ytd := own.filter (·.within asOf.ytdStart asOf.today)
  let found := rowOf catalog key.productKey
  { productCompanyKey := key
    productName := (found.map (·.productName)).getD name
    category := (found.map (·.category)).getD UNASSIGNED
    brand := (found.map (·.brand)).getD UNASSIGNED
    family := (found.map (·.family)).getD UNASSIGNED
    size := (found.map (·.size)).getD UNASSIGNED
    sku := found.bind (·.sku)
    isActive := found.map (·.isActive)
    uomCount := (firsts ((own.filter fun l => decide (l.uom ≠ "")).map (·.uom))).length
    qtyYtd := total (·.qty) ytd
    valueYtd := total (·.value) ytd
    noCostYtd := decide (ytd ≠ []) && decide (0 < total (·.uncostedQty) ytd) }

/-- `_products`. -/
def products (asOf : AsOf) (excluded : List ProductCompanyKey) (lines : List SalesLine)
    (catalog : List CatalogRow) (stock : List StockRow) : List ProductRow :=
  let rows := seen lines catalog stock
  ((firsts (rows.map (·.1))).filter fun key => !decide (key ∈ excluded)).map fun key =>
    productRow asOf lines catalog key (((rows.find? fun r => decide (r.1 = key)).map (·.2)).getD "")

/-! ## What is missing -/

structure GapRow where
  productCompanyKey : ProductCompanyKey
  productName : String
  category : String
  missing : List String
  salesValue : ℚ
  salesValueLast12M : ℚ
  lines : Nat
  deriving DecidableEq

/-- The attributes of `GAP_ATTRIBUTES` that a product lacks. -/
def missingOf (p : ProductRow) : List String :=
  (if p.brand = UNASSIGNED then ["Brand"] else []) ++ (if p.family = UNASSIGNED then ["Family"] else []) ++
    (if p.size = UNASSIGNED then ["Size"] else []) ++ if p.sku.getD UNASSIGNED = UNASSIGNED then ["SKU"] else []

/-- The biggest sales first, then those of the last twelve months, then the lower id. -/
def gapBefore (a b : GapRow) : Prop :=
  b.salesValue < a.salesValue ∨ a.salesValue = b.salesValue ∧
    (b.salesValueLast12M < a.salesValueLast12M ∨ a.salesValueLast12M = b.salesValueLast12M ∧
      a.productCompanyKey.productKey ≤ b.productCompanyKey.productKey)

instance : DecidableRel gapBefore := fun a b => by
  unfold gapBefore
  infer_instance

def odooGaps (asOf : AsOf) (lines : List SalesLine) (rows : List ProductRow) : List GapRow :=
  (rows.filterMap fun p =>
    let sold := rowsOf SalesLine.productCompanyKey lines p.productCompanyKey
    if p.productCompanyKey.productKey = UNKNOWN_PRODUCT_KEY ∨ sold = [] ∨ missingOf p = [] then none
    else some
      { productCompanyKey := p.productCompanyKey
        productName := p.productName
        category := p.category
        missing := missingOf p
        salesValue := total (·.value) sold
        salesValueLast12M := total (·.value) (sold.filter (·.within asOf.start12m asOf.today))
        lines := sold.length }).insertionSort gapBefore

structure QualityRow where
  check : String
  productCompanyKey : ProductCompanyKey
  productName : String
  qty : Option ℚ
  value : Option ℚ
  deriving DecidableEq

/-- `_data_quality`. -/
def dataQuality (rows : List ProductRow) (inventory : List InventoryRow) : List QualityRow :=
  (inventory.filter fun r => decide (r.onHandQty < 0)).map (fun r =>
      ⟨"NegativeStock", r.productCompanyKey, r.productName, some r.onHandQty, some r.inventoryValue⟩) ++
    (rows.filter (·.noCostYtd)).map (fun p =>
      ⟨"NoCost", p.productCompanyKey, p.productName, some p.qtyYtd, some p.valueYtd⟩) ++
    (rows.filter fun p => decide (1 < p.uomCount)).map fun p =>
      ⟨"MixedUoM", p.productCompanyKey, p.productName, none, none⟩

structure Meta where
  asOfDate : Int
  salesLinesValue : ℚ
  salesLinesQty : ℚ
  salesLinesCount : Nat
  dailyValue : ℚ
  products : Nat
  deriving DecidableEq

/-! ## The build -/

structure Tables where
  daily : List DailyRow
  products : List ProductRow
  gaps : List GapRow
  quality : List QualityRow
  summary : Meta
  deriving DecidableEq

/-- The inputs of a build. -/
structure Inputs where
  config : Config
  exclusions : ProductExclusions
  asOf : AsOf
  salesLines : List SalesLine
  dimProduct : List CatalogRow
  factInventory : List InventoryRow

namespace Inputs
variable (i : Inputs)

def rules : ProductExclusions := withFallback i.config i.exclusions

def ofCompanies : List SalesLine :=
  i.salesLines.filter fun l => !decide (l.company ∈ i.config.excludedCompanies)

/-- The real sales, products that are excluded included. -/
def realSales : List SalesLine := dropNonSales i.config i.rules i.ofCompanies

def allStock : List StockRow :=
  (stockOf i.factInventory).filter fun s => !decide (s.productCompanyKey.company ∈ i.config.excludedCompanies)

def excludedProductKeys : List ProductCompanyKey :=
  excludedProducts i.rules i.realSales i.dimProduct i.allStock

/-- `_drop_products`. -/
def lines : List SalesLine :=
  i.realSales.filter fun l => !decide (l.productCompanyKey ∈ i.excludedProductKeys)

def stock : List StockRow :=
  i.allStock.filter fun s => !decide (s.productCompanyKey ∈ i.excludedProductKeys)

def inventory : List InventoryRow :=
  i.factInventory.filter fun r => !decide (r.company ∈ i.config.excludedCompanies)

def productRows : List ProductRow := products i.asOf i.excludedProductKeys i.lines i.dimProduct i.stock

/-- `build`; `none` is the `AssertionError`. -/
def build : Option Tables :=
  if totalsPreserved i.lines (ProductPages.daily i.lines) then
    some
      { daily := ProductPages.daily i.lines
        products := i.productRows
        gaps := odooGaps i.asOf i.lines i.productRows
        quality := dataQuality i.productRows i.inventory
        summary :=
          { asOfDate := i.asOf.today
            salesLinesValue := total (·.value) i.lines
            salesLinesQty := total (·.qty) i.lines
            salesLinesCount := i.lines.length
            dailyValue := ((ProductPages.daily i.lines).map (·.value)).sum
            products := i.productRows.length } }
  else none

end Inputs

end SalesDashboard.ProductPages
