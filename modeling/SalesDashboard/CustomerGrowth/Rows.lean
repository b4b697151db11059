import SalesDashboard.SalesPipeline.CustomerDimension
import SalesDashboard.Tachometer.Measures
import Mathlib

/-! The customers of the Customer Growth page (`customerGrowth.ts`): the activity of each
over two windows, the status read off it, and the count of new customers. -/

namespace SalesDashboard.CustomerGrowth
open DataScope Firsts Grouping SalesPipeline.Customers Tachometer

/-- The columns of `dim_customer` that the page reads. -/
structure CustomerDimRow where
  customerKey : ℚ
  name : Option String
  firstPurchaseDate : Option Date
  lastPurchaseDate : Option Date
  customerSegment : Option String
  customerClass : Option ValueClass
  isBlocked : Bool

/-- `odooFormUrl` is the address of the form of a partner in a company, if Odoo has one. -/
structure Warehouse where
  salesLines : List SalesLine
  dimDate : Int → Option Date
  dimCustomer : List CustomerDimRow
  profiles : Profiles
  odooFormUrl : ℚ → Option ℚ → Option String
  /-- A `DATE` of the database is of the year 1000 or later. -/
  dimDate_ge : ∀ key d, dimDate key = some d → 1000 ≤ d.year
  customerKey_nodup : (dimCustomer.map (·.customerKey)).Nodup

/-! ## Activity -/

structure CustomerActivity where
  customerKey : ℚ
  ytdValue : ℚ
  lifetimeValue : ℚ
  hasYtd : Bool
  hasLytd : Bool
  hasBeforeLytd : Bool
  companyKey : Option ℚ

/-- A line with the date and the customer it joins. -/
structure JoinedLine where
  line : SalesLine
  date : Date
  customer : CustomerDimRow

/-- `dc.CustomerClass_LY = ?`, when a category is asked for. -/
def buildCategorySqlClause (category : Option ValueClass) (dc : CustomerDimRow) : Bool :=
  match category with
  | none => true
  | some c => decide (dc.customerClass = some c)

def joinLine (db : Warehouse) (line : SalesLine) : Option JoinedLine :=
  (db.dimDate line.dateKey).bind fun d => line.customerKey.bind fun k =>
    (db.dimCustomer.find? fun dc => decide (dc.customerKey = k)).map fun dc => ⟨line, d, dc⟩

/-- `FROM v_sales_lines JOIN dim_date JOIN dim_customer WHERE …`. -/
def joinedLines (db : Warehouse) (filters : Filters) (category : Option ValueClass) : List JoinedLine :=
  (db.salesLines.filterMap (joinLine db)).filter fun j =>
    buildWhereClause filters true db.profiles j.line.toFactRow && buildCategorySqlClause category j.customer

/-- The company of every line, when it is one. -/
def singleCompany (rows : List JoinedLine) : Option ℚ :=
  rows.head?.bind fun j =>
    if rows.all fun j' => decide (j'.line.companyKey = j.line.companyKey) then some j.line.companyKey else none

def activityOf (ytd lytd : DateWindow) (g : ℚ × List JoinedLine) : CustomerActivity where
  customerKey := g.1
  ytdValue := total (·.line.value) (g.2.filter fun j => ytd.has j.date)
  lifetimeValue := total (·.line.value) g.2
  hasYtd := g.2.any fun j => ytd.has j.date
  hasLytd := g.2.any fun j => lytd.has j.date
  hasBeforeLytd := g.2.any fun j => j.date.lt lytd.start
  companyKey := singleCompany g.2

def fetchCustomerActivitySnapshot (db : Warehouse) (anchor : Date) (filters : Filters)
    (category : Option ValueClass) : List CustomerActivity :=
  (groups (·.customer.customerKey) (joinedLines db filters category)).map
    (activityOf (ytdWindow anchor) (lytdWindow anchor))

/-! ## Statuses -/

def classifyCustomerStatus (activity : Option CustomerActivity) (isBlocked : Bool) : CustomerStatus :=
  let hasYtd := (activity.map (·.hasYtd)).getD false
  let hasLytd := (activity.map (·.hasLytd)).getD false
  let hasBeforeLytd := (activity.map (·.hasBeforeLytd)).getD false
  if isBlocked then .blocked
  else if hasYtd && hasLytd then .activeRetained
  else if hasLytd && ! hasYtd then .nonActive
  else if hasYtd && ! hasLytd && hasBeforeLytd then .reactivated
  else if hasYtd && ! hasLytd && ! hasBeforeLytd then .new
  else .other

/-- A row of the customers table; a customer without a name is shown by its key. -/
structure CustomerTableRow where
  customerKey : ℚ
  name : Option String
  ytdValue : ℚ
  lifetimeValue : ℚ
  firstPurchaseDate : Option Date
  lastPurchaseDate : Option Date
  customerSegment : Option String
  customerClass : Option ValueClass
  status : CustomerStatus
  customerOdooUrl : Option String

def customerTableRow (db : Warehouse) (activity : CustomerActivity) : CustomerTableRow :=
  let dim := db.dimCustomer.find? fun dc => decide (dc.customerKey = activity.customerKey)
  { customerKey := activity.customerKey
    name := dim.bind (·.name)
    ytdValue := activity.ytdValue
    lifetimeValue := activity.lifetimeValue
    firstPurchaseDate := dim.bind (·.firstPurchaseDate)
    lastPurchaseDate := dim.bind (·.lastPurchaseDate)
    customerSegment := dim.bind (·.customerSegment)
    customerClass := dim.bind (·.customerClass)
    status := classifyCustomerStatus (some activity) ((dim.map (·.isBlocked)).getD false)
    customerOdooUrl := db.odooFormUrl activity.customerKey activity.companyKey }

def fetchCustomerRows (db : Warehouse) (effectiveAnchor : Date) (filters : Filters)
    (category : Option ValueClass) : List CustomerTableRow :=
  (fetchCustomerActivitySnapshot db effectiveAnchor filters category).map (customerTableRow db)

/-- `COUNT(DISTINCT CustomerKey)` of the lines in the window whose customer first bought in it. -/
def fetchNewCustomerCount (db : Warehouse) (window : DateWindow) (filters : Filters)
    (category : Option ValueClass) : Nat :=
  (firsts (((joinedLines db filters category).filter fun j =>
    window.has j.date && j.customer.firstPurchaseDate.any window.has).map (·.customer.customerKey))).length

def noFilters : Filters := fun _ => []

/-! ## The lines of a customer -/

/-- The dates of the lines of a customer. -/
def lineDates (db : Warehouse) (k : ℚ) : List Date :=
  db.salesLines.filterMap fun line => if line.customerKey = some k then db.dimDate line.dateKey else none

theorem joinedLines_noFilters (db : Warehouse) :
    joinedLines db noFilters none = db.salesLines.filterMap (joinLine db) := by
  refine List.filter_eq_self.mpr fun j _ => ?_
  simp [buildWhereClause, noFilters, buildCategorySqlClause]

theorem find?_customer {db : Warehouse} {dc : CustomerDimRow} (hdc : dc ∈ db.dimCustomer) :
    db.dimCustomer.find? (fun c => decide (c.customerKey = dc.customerKey)) = some dc :=
  (Keyed.find?_eq_some_iff db.customerKey_nodup).mpr ⟨hdc, rfl⟩

theorem joinLine_eq_some {db : Warehouse} {line : SalesLine} {j : JoinedLine} (h : joinLine db line = some j) :
    db.dimDate line.dateKey = some j.date ∧ line.customerKey = some j.customer.customerKey ∧
      j.customer ∈ db.dimCustomer := by
  obtain ⟨d, hd, hrest⟩ := Option.bind_eq_some_iff.mp h
  obtain ⟨k, hk, hmap⟩ := Option.bind_eq_some_iff.mp hrest
  obtain ⟨dc, hfind, rfl⟩ := Option.map_eq_some_iff.mp hmap
  have hkey := List.find?_some hfind
  exact ⟨hd, (of_decide_eq_true hkey : dc.customerKey = k) ▸ hk, List.mem_of_find?_eq_some hfind⟩

/-- The joined lines of a customer carry its dates. -/
theorem dates_of_customer {db : Warehouse} {dc : CustomerDimRow} (hdc : dc ∈ db.dimCustomer) :
    (rowsOf (·.customer.customerKey) (joinedLines db noFilters none) dc.customerKey).map (·.date) =
      lineDates db dc.customerKey := by
  rw [joinedLines_noFilters, lineDates, Grouping.rowsOf]
  induction db.salesLines with
  | nil => rfl
  | cons line lines ih =>
    rw [List.filterMap_cons, List.filterMap_cons]
    by_cases hk : line.customerKey = some dc.customerKey
    · rw [if_pos hk]
      cases hd : db.dimDate line.dateKey with
      | none =>
        have hjoin : joinLine db line = none := by simp [joinLine, hd]
        rw [hjoin]
        exact ih
      | some d =>
        have hjoin : joinLine db line = some ⟨line, d, dc⟩ := by
          simp only [joinLine, hd, hk, Option.bind_some, find?_customer hdc, Option.map_some]
        rw [hjoin]
        simp only [List.filter_cons, decide_true, if_true, List.map_cons]
        rw [ih]
    · rw [if_neg hk]
      cases hj : joinLine db line with
      | none => exact ih
      | some j =>
        have hne : j.customer.customerKey ≠ dc.customerKey := fun he =>
          hk (he ▸ (joinLine_eq_some hj).2.1)
        simp only [List.filter_cons, decide_eq_true_eq, hne, if_false]
        exact ih

end SalesDashboard.CustomerGrowth
