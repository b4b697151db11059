import SalesDashboard.MarcomKpi.TotalSpend

/-! The MARCOM Spending page: the merged rows of a year, month and brand
(`totalSpend.ts`, `pages.ts`) and the totals of the page (`spending.ts`). Figures
are exact, before they are rounded for output. ROI, growth, CAC and CPC are left
out, and so is the list of other-spend lines that the page repeats. -/

namespace SalesDashboard.MarcomKpi
open Tachometer CriticalNumber Keyed

/-! ## Rows -/

inductive BrandKind
  | brand | group
  deriving DecidableEq, Repr

structure BrandRef where
  id : Nat
  name : String
  companyKey : Option Nat
  company : Option String
  kind : BrandKind

structure OtherSpendRow where
  year : Nat
  month : Nat
  brandId : Nat
  brand : String
  category : String
  amount : ℚ

/-- One year, month and brand of the page. -/
structure SpendRow where
  year : Nat
  month : Nat
  brandId : Nat
  brand : String
  kind : BrandKind
  spend : ℚ
  campaignSpend : Option ℚ
  otherSpend : Option ℚ
  revenue : Option ℚ
  brandRevenue : Option ℚ
  brandRevenueLy : Option ℚ
  companyTotal : Option ℚ
  budget : Option ℚ
  booked : Option ℚ
  newCustomers : Option ℚ
  avgInvoice : Option ℚ
  socialPostCost : Option ℚ
  clicks : Option ℚ
  needsReview : Bool

def SpendRow.key (r : SpendRow) : String := ymKey r.year r.month r.brandId

def OtherSpendRow.key (l : OtherSpendRow) : String := ymKey l.year l.month l.brandId

/-! ## Merging -/

/-- Other spend per `ymKey`. -/
def otherByKey (rows : List OtherSpendRow) : Amounts :=
  rows.foldl (fun out r => addTo out r.key r.amount) []

/-- `brandById.get(id)`. -/
def brandById (brands : List BrandRef) (id : Nat) : Option BrandRef :=
  brands.reverse.find? (·.id = id)

/-- A row for a key without P1 inputs. -/
def newRow (brands : List BrandRef) (k : String) : SpendRow :=
  let parts := parseKey k
  let brandId := parts.getD 2 0
  { year := parts.getD 0 0, month := parts.getD 1 0, brandId
    brand := ((brandById brands brandId).map (·.name)).getD ("#" ++ toString brandId)
    kind := ((brandById brands brandId).map (·.kind)).getD .brand
    spend := 0, campaignSpend := none, otherSpend := none, revenue := none, brandRevenue := none
    brandRevenueLy := none, companyTotal := none, budget := none, booked := none
    newCustomers := none, avgInvoice := none, socialPostCost := none, clicks := none
    needsReview := false }

/-- A brand passes the filter; `none` is no filter. -/
def passes (allowed : Option (List Nat)) (brandId : Nat) : Bool :=
  match allowed with
  | none => true
  | some ids => decide (brandId ∈ ids)

/-- Rows by `ymKey`. -/
abbrev RowMap := List (String × SpendRow)

/-- `out.set(k, row)`. -/
def setRow (out : RowMap) (k : String) (row : SpendRow) : RowMap :=
  upsert Prod.fst k (fun e => (e.1, row)) (k, row) out

def withSpend (campaignBy otherBy : Amounts) (k : String) (row : SpendRow) : SpendRow :=
  let c := (amountOf campaignBy k).getD 0
  let o := (amountOf otherBy k).getD 0
  { row with campaignSpend := some c, otherSpend := some o, spend := c + o }

def rowOrder (x y : SpendRow) : Bool :=
  x.year < y.year || (x.year = y.year && (x.month < y.month || (x.month = y.month && x.brandId ≤ y.brandId)))

/-- The keys with campaign or other spend that get a row of their own. -/
def addKeys (brands : List BrandRef) (allowed : Option (List Nat)) (out : RowMap) (keys : List String) :
    RowMap :=
  keys.foldl (fun out k =>
    let row := newRow brands k
    if passes allowed row.brandId = false ∨ k ∈ out.map Prod.fst then out else setRow out k row) out

/-- One row per year, month and brand with a P1 row, campaign spend or other spend. -/
def mergeSpendRows (p1 : List SpendRow) (campaigns : List CampaignSpendRow) (other : List OtherSpendRow)
    (cells : List Month) (brands : List BrandRef) (allowed : Option (List Nat)) : List SpendRow :=
  let campaignBy := prorateCampaigns campaigns cells
  let otherBy := otherByKey other
  let inputs := p1.foldl (fun out x => setRow out x.key x) []
  let keys := Firsts.firsts (campaignBy.map Prod.fst ++ otherBy.map Prod.fst)
  let out := addKeys brands allowed inputs keys
  (out.map fun e => withSpend campaignBy otherBy e.1 e.2).mergeSort rowOrder

/-! ## Totals -/

/-- Exact sum of a figure across rows. -/
def total {α : Type} (rows : List α) (pick : α → ℚ) : ℚ := (rows.map pick).sum

structure Agg where
  spend : ℚ
  campaign : ℚ
  other : ℚ
  revenue : ℚ
  budget : ℚ
  brandRevenue : ℚ
  brandRevenueLy : ℚ
  growthRows : Nat
  revenueBase : ℚ
  attributedOnBase : ℚ
  shareBrand : ℚ
  shareCompany : ℚ
  shareRows : Nat
  booked : ℚ
  spendOnBooked : ℚ
  bookedRows : Nat
  customers : ℚ
  invoiceTimesCustomers : ℚ
  post : ℚ
  clicks : ℚ

def isBrand (r : SpendRow) : Bool := r.kind = .brand && !r.needsReview

def aggregate (rows : List SpendRow) : Agg :=
  let growth := rows.filter fun r => isBrand r && r.brandRevenue.isSome && r.brandRevenueLy.isSome
  let base := rows.filter fun r => isBrand r && r.brandRevenue.isSome
  let share := rows.filter fun r => isBrand r && r.brandRevenue.isSome && r.companyTotal.isSome
  let booked := rows.filter fun r => r.booked.isSome
  { spend := total rows (·.spend)
    campaign := total rows fun r => r.campaignSpend.getD 0
    other := total rows fun r => r.otherSpend.getD 0
    revenue := total rows fun r => r.revenue.getD 0
    budget := total rows fun r => r.budget.getD 0
    brandRevenue := total growth fun r => r.brandRevenue.getD 0
    brandRevenueLy := total growth fun r => r.brandRevenueLy.getD 0
    growthRows := growth.length
    revenueBase := total base fun r => r.brandRevenue.getD 0
    attributedOnBase := total base fun r => r.revenue.getD 0
    shareBrand := total share fun r => r.brandRevenue.getD 0
    shareCompany := total share fun r => r.companyTotal.getD 0
    shareRows := share.length
    booked := total booked fun r => r.booked.getD 0
    spendOnBooked := total booked (·.spend)
    bookedRows := booked.length
    customers := total rows fun r => r.newCustomers.getD 0
    invoiceTimesCustomers := total rows fun r => r.avgInvoice.getD 0 * r.newCustomers.getD 0
    post := total rows fun r => r.socialPostCost.getD 0
    clicks := total rows fun r => r.clicks.getD 0 }

/-! ## The page -/

structure SpendingInput where
  year : Nat
  fromMonth : Nat
  toMonth : Nat
  current : List SpendRow
  brands : List BrandRef
  otherLines : List OtherSpendRow
  categories : List String

/-- A total with its months; a month without rows has no value. -/
structure TotalSeries where
  total : ℚ
  series : List (Nat × Option ℚ)

structure CategoryAmount where
  category : String
  isCampaigns : Bool
  amount : ℚ
  lines : Option Nat
  share : Option ℚ

structure ReconBlock where
  campaignSpend : ℚ
  otherSpend : ℚ
  totalSpend : ℚ
  booked : Option ℚ
  unallocated : Option ℚ

structure BudgetBlock where
  spend : ℚ
  campaignSpend : ℚ
  otherSpend : ℚ
  budget : ℚ

structure SpendingPage where
  hasData : Bool
  spend : TotalSeries
  campaignSpend : TotalSeries
  otherSpend : TotalSeries
  revenueAttributed : TotalSeries
  brandRevenue : TotalSeries
  companyRevenue : TotalSeries
  budget : TotalSeries
  categoryTotal : ℚ
  byCategory : List CategoryAmount
  reconOverall : ReconBlock
  reconRows : List (Nat × Nat × String × ReconBlock)
  budgetOverall : BudgetBlock
  budgetBrands : List (Nat × BudgetBlock)

def CAMPAIGNS_CATEGORY : String := "Campaigns"

def unallocated (a : Agg) : Option ℚ :=
  if a.bookedRows ≠ 0 then some (a.booked - a.spendOnBooked) else none

def reconBlock (a : Agg) : ReconBlock :=
  ⟨a.campaign, a.other, a.spend, if a.bookedRows ≠ 0 then some a.booked else none, unallocated a⟩

def budgetBlock (a : Agg) : BudgetBlock := ⟨a.spend, a.campaign, a.other, a.budget⟩

def monthRange (fromMonth toMonth : Nat) : List Nat := List.range' fromMonth (toMonth + 1 - fromMonth)

/-- `groups.get(k)`. -/
def groupOf {κ : Type} [DecidableEq κ] (groups : List (κ × List SpendRow)) (k : κ) :
    Option (List SpendRow) :=
  (groups.find? (·.1 = k)).map Prod.snd

/-- The listed categories in their order, others after them as texts compare. -/
def categoryOrder (collate : String → String → Bool) (order : List String) (x y : String) : Bool :=
  let place (c : String) : Nat := (order.idxOf? c).getD 999
  place x < place y || (place x = place y && collate x y)

/-- `buildSpending`. `collate` is the platform's `localeCompare`. -/
def buildSpending (collate : String → String → Bool) (input : SpendingInput) : SpendingPage :=
  let months := monthRange input.fromMonth input.toMonth
  let cur := aggregate input.current
  let byMonth := Grouping.groups SpendRow.month input.current
  let series (pick : Agg → ℚ) : TotalSeries :=
    ⟨pick cur, months.map fun m => (m, (groupOf byMonth m).map fun rows => pick (aggregate rows))⟩
  let byBrand := Grouping.groups SpendRow.brandId input.current
  let otherByCat := Grouping.groups OtherSpendRow.category input.otherLines
  let catNames := (otherByCat.map Prod.fst).mergeSort (categoryOrder collate input.categories)
  let linesOf (c : String) : List OtherSpendRow :=
    ((otherByCat.find? (·.1 = c)).map Prod.snd).getD []
  -- in percentage points
  let shareOf (amount : ℚ) : Option ℚ := if cur.spend = 0 then none else some (amount / cur.spend * 100)
  { hasData := !input.current.isEmpty
    spend := series (·.spend)
    campaignSpend := series (·.campaign)
    otherSpend := series (·.other)
    revenueAttributed := series (·.revenue)
    brandRevenue := series (·.revenueBase)
    companyRevenue := series (·.shareCompany)
    budget := series (·.budget)
    categoryTotal := cur.spend
    byCategory := ⟨CAMPAIGNS_CATEGORY, true, cur.campaign, none, shareOf cur.campaign⟩ ::
      catNames.map fun c =>
        let amount := total (linesOf c) (·.amount)
        ⟨c, false, amount, some (linesOf c).length, shareOf amount⟩
    reconOverall := reconBlock cur
    reconRows := (input.current.map fun r => (r.month, r.brandId, r.brand, reconBlock (aggregate [r]))).mergeSort
      fun a b => a.1 < b.1 || (a.1 = b.1 && collate a.2.2.1 b.2.2.1)
    budgetOverall := budgetBlock cur
    budgetBrands := input.brands.map fun b =>
      (b.id, budgetBlock (aggregate ((groupOf byBrand b.id).getD []))) }

end SalesDashboard.MarcomKpi
