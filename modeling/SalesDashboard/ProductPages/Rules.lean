import SalesDashboard.Lib.Grouping

/-! What the product pages are built from, and the rules that leave customers and products
out of them (`product_dashboard.py`, `product_exclusions.py`). Companies are normalised
names, amounts are exact, and a day is its number. -/

namespace SalesDashboard.ProductPages
open Firsts Grouping

/-! ## Rows -/

/-- One Odoo product in one company; a line without product has the product -1. -/
structure ProductCompanyKey where
  company : String
  productKey : Int
  deriving DecidableEq

def UNKNOWN_PRODUCT_KEY : Int := -1

def UNASSIGNED : String := "Unassigned"

/-- A sales line as `_prepare_lines` leaves it. -/
structure SalesLine where
  company : String
  companyKey : Option Int
  productKey : Int
  productName : String
  orderDate : Option Int
  dateKey : Option Int
  salespersonKey : Option Int
  segmentKey : Option Int
  channelKey : Option Int
  salesTeamKey : Option String
  isIntercompany : Bool
  odooPartnerId : Option Int
  customerKey : Option Int
  uom : String
  value : ℚ
  qty : ℚ
  qtyOrdered : ℚ
  qtyDelivered : ℚ
  costValue : ℚ
  costedQty : ℚ
  uncostedQty : ℚ
  deriving DecidableEq

def SalesLine.productCompanyKey (l : SalesLine) : ProductCompanyKey := ⟨l.company, l.productKey⟩

structure InventoryRow where
  company : String
  productKey : Int
  productName : String
  onHandQty : ℚ
  inventoryValue : ℚ
  stockClass : Option String
  deriving DecidableEq

def InventoryRow.productCompanyKey (r : InventoryRow) : ProductCompanyKey := ⟨r.company, r.productKey⟩

/-- A row of `dim_product`; a product that all companies share has no company. -/
structure CatalogRow where
  productKey : Int
  productName : String
  categoryId : Option Int
  category : String
  brand : String
  family : String
  size : String
  sku : Option String
  isActive : Bool
  productCompany : Option String
  deriving DecidableEq

def CatalogRow.productCompanyKey (r : CatalogRow) : Option ProductCompanyKey :=
  r.productCompany.map fun company => ⟨company, r.productKey⟩

/-! ## Rules -/

inductive Action
  | exclude | keep
  deriving DecidableEq, Repr

structure Rule where
  company : String
  odooId : Int
  action : Action
  deriving DecidableEq, Repr

/-- The active rows of the three sheets; without a file there is no source. -/
structure ProductExclusions where
  customers : List Rule
  categories : List Rule
  products : List Rule
  source : Option String
  deriving DecidableEq, Repr

/-- The ids of the rules of a sheet that apply to a company: its own and those of all. -/
def ids (rules : List Rule) (action : Action) (company : String) : List Int :=
  (rules.filter fun r => decide (r.action = action) && decide (r.company ∈ ["All", company])).map (·.odooId)

structure Config where
  excludedCompanies : List String
  excludedSegmentKeys : List Int
  excludeIntercompany : Bool
  excludedCategoryIds : List Int
  deriving DecidableEq, Repr

/-- Without a file the category ids of the configuration are the category rules. -/
def withFallback (config : Config) (exclusions : ProductExclusions) : ProductExclusions :=
  if exclusions.source = none then
    { exclusions with categories := config.excludedCategoryIds.map fun cid => ⟨"All", cid, .exclude⟩ }
  else exclusions

/-! ## Lines that are not real sales -/

/-- `_customer_rule`: the loop over the companies marks the lines of each by its own ids. -/
def customerRule (exclusions : ProductExclusions) (action : Action) (lines : List SalesLine)
    (l : SalesLine) : Bool :=
  (firsts (lines.map (·.company))).any fun company =>
    let own := ids exclusions.customers action company
    decide (l.company = company) &&
      (l.odooPartnerId.any (fun id => decide (id ∈ own)) || l.customerKey.any fun id => decide (id ∈ own))

def nonSalesMask (config : Config) (exclusions : ProductExclusions) (lines : List SalesLine)
    (l : SalesLine) : Bool :=
  let mask := l.segmentKey.any (fun key => decide (key ∈ config.excludedSegmentKeys)) ||
    (config.excludeIntercompany && l.isIntercompany)
  (mask && !customerRule exclusions .keep lines l) || customerRule exclusions .exclude lines l

def dropNonSales (config : Config) (exclusions : ProductExclusions) (lines : List SalesLine) : List SalesLine :=
  lines.filter fun l => !nonSalesMask config exclusions lines l

/-! ## Excluded products -/

structure StockRow where
  productCompanyKey : ProductCompanyKey
  productName : String
  stockQty : ℚ
  stockValue : ℚ
  inTransitQty : ℚ
  inTransitValue : ℚ
  negativeStockRows : Nat
  negativeStockQty : ℚ
  deriving DecidableEq

def isClass (stockClass : String) (r : InventoryRow) : Bool := decide (r.stockClass = some stockClass)

/-- The positive quantities, or their values, of one class. -/
def onHand (stockClass : String) (amount : InventoryRow → ℚ) (rows : List InventoryRow) : ℚ :=
  ((rows.filter fun r => isClass stockClass r && decide (0 < r.onHandQty)).map amount).sum

def inStock (r : InventoryRow) : Bool := isClass "FinishedGoods" r || isClass "InTransit" r

/-- `_stock`: a row for each product with stock of the two classes. -/
def stockOf (inventory : List InventoryRow) : List StockRow :=
  (groups InventoryRow.productCompanyKey (inventory.filter inStock)).map fun g =>
    { productCompanyKey := g.1
      productName := (g.2.head?.map (·.productName)).getD ""
      stockQty := onHand "FinishedGoods" (·.onHandQty) g.2
      stockValue := onHand "FinishedGoods" (·.inventoryValue) g.2
      inTransitQty := onHand "InTransit" (·.onHandQty) g.2
      inTransitValue := onHand "InTransit" (·.inventoryValue) g.2
      negativeStockRows := g.2.countP fun r => decide (r.onHandQty < 0)
      negativeStockQty := ((g.2.filter fun r => decide (r.onHandQty < 0)).map (·.onHandQty)).sum }

/-- The keys that a rule can exclude: of lines, of stock and of the catalog. -/
def knownKeys (lines : List SalesLine) (stock : List StockRow) (catalog : List CatalogRow) :
    List ProductCompanyKey :=
  firsts (lines.map (·.productCompanyKey) ++ stock.map (·.productCompanyKey) ++
    catalog.filterMap (·.productCompanyKey))

def rowOf (catalog : List CatalogRow) (productKey : Int) : Option CatalogRow :=
  catalog.find? fun r => decide (r.productKey = productKey)

/-- `path_of`: the path of a category, from the first product that is in it. -/
def pathOf (catalog : List CatalogRow) (cid : Int) : Option String :=
  (catalog.find? fun r => decide (r.categoryId = some cid)).map (·.category)

/-- The path of the category or of one below it. -/
def underPath (path category : String) : Bool :=
  decide (category = path) || (path ++ " / ").toList.isPrefixOf category.toList

/-- Whether the rules of a company exclude a product. -/
def hit (exclusions : ProductExclusions) (catalog : List CatalogRow) (company : String) (pid : Int) : Bool :=
  ((ids exclusions.categories .exclude company).any (fun cid =>
      (pathOf catalog cid).any fun path => (rowOf catalog pid).any fun r => underPath path r.category) ||
    decide (pid ∈ ids exclusions.products .exclude company)) &&
  !decide (pid ∈ ids exclusions.products .keep company)

/-- `_excluded_products`: the loop over the companies marks the keys of each by its own
rules. -/
def excludedProducts (exclusions : ProductExclusions) (lines : List SalesLine) (catalog : List CatalogRow)
    (stock : List StockRow) : List ProductCompanyKey :=
  let keys := knownKeys lines stock catalog
  keys.filter fun key => (firsts (keys.map (·.company))).any fun company =>
    decide (key.company = company) && hit exclusions catalog company key.productKey

end SalesDashboard.ProductPages
