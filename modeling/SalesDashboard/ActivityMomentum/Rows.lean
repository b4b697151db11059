import SalesDashboard.DataScope.Filters
import SalesDashboard.Lib.Tables
import SalesDashboard.Tachometer.Dates
import Mathlib

/-! The Activity Momentum page (`activityMomentum.ts`, `filters.ts`, `pipelineStages.ts`):
the opportunities created in the year of the anchor up to it, the one status of each, and
the figures and lists over them. A condition of a query is whether it is true: there is no
`NOT` in these, so what is null and what is false come to the same. The pool reads a
`DATETIME` as UTC, so its date is the one `DATE()` gives. Dates have four-digit years. -/

namespace SalesDashboard.ActivityMomentum
open DataScope Firsts Grouping Tables Tachometer

/-! ## The warehouse -/

inductive OpportunityStatus
  | pending | won | lost | archived
  deriving DecidableEq, Repr

/-- A row of `v_sales_opportunities`. -/
structure Opportunity where
  opportunityId : ℤ
  opportunityName : Option String
  customer : Option String
  company : Option String
  salesperson : Option String
  expectedRevenue : Option ℚ
  stageId : Option ℤ
  stage : Option String
  opportunityCreatedDate : Option Date
  opportunityStatus : Option OpportunityStatus
  isOpen : Option ℤ
  isWon : Option ℤ
  isLost : Option ℤ
  lostReasonId : Option ℤ
  salesSegment : Option String
  hasQuotation : Option ℤ
  lastQuotationDate : Option Date
  daysSinceLastQuotation : Option ℤ
  opportunityAge : Option ℚ
  companyKey : ℚ
  segmentKey : ℚ
  salesTeamKey : String
  salespersonKey : ℚ
  customerKey : ℚ

/-- `IsOpen`, `IsWon` and `IsLost` are the status as flags. -/
def Opportunity.FlagsOfStatus (fo : Opportunity) : Prop :=
  ∃ status, fo.opportunityStatus = some status ∧
    fo.isOpen = some (if status = .pending then 1 else 0) ∧
    fo.isWon = some (if status = .won then 1 else 0) ∧
    fo.isLost = some (if status = .lost then 1 else 0)

/-- A row of `dim_sales_lost_reason`. -/
structure LostReason where
  lostReasonId : ℤ
  lostReasonEnglish : Option String

/-- A row of `salesperson_admin_profile`. -/
structure SalespersonProfile where
  salespersonKey : ℚ
  adminNameOverride : Option String
  overrides : Overrides

/-- A row of `dim_sales_crm_stage`. -/
structure StageCatalogRow where
  stageId : ℤ
  sequence : Option ℤ

/-- Texts are compared by `collation`. -/
structure Warehouse where
  opportunities : List Opportunity
  lostReasons : List LostReason
  profiles : List SalespersonProfile
  stages : List StageCatalogRow
  collation : String → String
  flags : ∀ fo ∈ opportunities, fo.FlagsOfStatus
  lostReasonId_nodup : (lostReasons.map (·.lostReasonId)).Nodup
  salespersonKey_nodup : (profiles.map (·.salespersonKey)).Nodup

def noOverrides : Overrides := ⟨none, none, none⟩

def Warehouse.overridesOf (db : Warehouse) : Profiles := fun k =>
  ((db.profiles.find? fun sap => decide (sap.salespersonKey = k)).map (·.overrides)).getD noOverrides

/-! ## Clauses -/

/-- The keys of an opportunity; the view has no channel, and no clause reads this one. -/
def Opportunity.factRow (fo : Opportunity) : FactRow where
  companyKey := fo.companyKey
  segmentKey := fo.segmentKey
  channelKey := -1
  salesTeamKey := fo.salesTeamKey
  salespersonKey := fo.salespersonKey
  customerKey := some fo.customerKey

def crmFilters (filters : Filters) : Filters := fun field =>
  if field = .scope .channelKeys then [] else filters field

def buildCrmWhereClause (db : Warehouse) (filters : Filters) (fo : Opportunity) : Bool :=
  buildWhereClause (crmFilters filters) false db.overridesOf fo.factRow

def notArchivedClause (fo : Opportunity) : Bool :=
  fo.opportunityStatus.any fun status => decide (status ∈ [.pending, .won, .lost])

/-- `DATE(fo.OpportunityCreatedDate) BETWEEN ? AND ?`. -/
def createdIn (window : DateWindow) (fo : Opportunity) : Bool :=
  fo.opportunityCreatedDate.any window.has

/-- `parsed` is the day a text of the form of a date stands for; `Date.UTC` rolls over
what is beyond the end of a month or a year. -/
def parsePipelineAnchor (today : Date) (parsed : Option Date) : Date :=
  match parsed with
  | none => today
  | some d => if d.year ≠ today.year ∨ today.lt d = true then today else d

/-! ## Statuses -/

def STALENESS_DAYS : ℕ := 30

/-- `fo.SalesSegment = 'B2B'`. -/
def inB2B (db : Warehouse) (fo : Opportunity) : Bool :=
  fo.salesSegment.any fun s => decide (db.collation s = db.collation "B2B")

def WITHOUT_ACTIVITY_SQL (db : Warehouse) (fo : Opportunity) : Bool :=
  inB2B db fo && decide (fo.hasQuotation = some 0) &&
    fo.opportunityAge.any fun age => decide ((STALENESS_DAYS : ℚ) ≤ age)

def WITHOUT_NEXT_STEP_SQL (db : Warehouse) (fo : Opportunity) : Bool :=
  inB2B db fo && decide (fo.hasQuotation = some 1) && fo.lastQuotationDate.isSome &&
    fo.daysSinceLastQuotation.any fun days => decide ((STALENESS_DAYS : ℤ) ≤ days)

inductive ActivityStatus
  | lost | won | withoutActivity | withoutNextStep | active | unclassified
  deriving DecidableEq, Repr

/-- The first branch that is true; the two of stale opportunities need their columns. -/
def activityStatusCaseSql (db : Warehouse) (activityAvailable : Bool) (fo : Opportunity) :
    ActivityStatus :=
  if fo.isLost.getD 0 = 1 then .lost
  else if fo.isWon = some 1 then .won
  else if activityAvailable = true ∧ fo.isOpen = some 1 ∧ WITHOUT_ACTIVITY_SQL db fo = true then
    .withoutActivity
  else if activityAvailable = true ∧ fo.isOpen = some 1 ∧ WITHOUT_NEXT_STEP_SQL db fo = true then
    .withoutNextStep
  else if fo.isOpen = some 1 then .active
  else .unclassified

/-! ## Tiles -/

structure OpportunityActivityCounts where
  totalYtd : ℕ
  totalYtdAll : ℕ
  won : ℕ
  lost : ℕ
  active : ℕ
  withoutActivity : Option ℕ
  withoutNextStep : Option ℕ
  unclassified : ℕ

/-- The `WHERE` of the tiles, of the rates and of the list. -/
def ytdOpportunities (db : Warehouse) (anchor : Date) (filters : Filters) : List Opportunity :=
  db.opportunities.filter fun fo =>
    createdIn (ytdWindow anchor) fo && buildCrmWhereClause db filters fo && notArchivedClause fo

/-- `SUM(CASE WHEN t.status = … THEN 1 ELSE 0 END)`; nothing sums to 0. -/
def statusCount (db : Warehouse) (activityAvailable : Bool) (rows : List Opportunity)
    (status : ActivityStatus) : ℕ :=
  rows.countP fun fo => decide (activityStatusCaseSql db activityAvailable fo = status)

def computeOpportunityActivityCounts (db : Warehouse) (anchor : Date) (filters : Filters)
    (activityAvailable : Bool) : OpportunityActivityCounts :=
  let rows := ytdOpportunities db anchor filters
  let count := statusCount db activityAvailable rows
  { totalYtd := rows.length
    totalYtdAll := rows.length
    won := count .won
    lost := count .lost
    active := count .active
    withoutActivity := if activityAvailable then some (count .withoutActivity) else none
    withoutNextStep := if activityAvailable then some (count .withoutNextStep) else none
    unclassified := count .unclassified }

/-! ## Rates -/

structure ActivityRates where
  inactiveDealsRatio : Option ℚ
  lostDealsRatio : Option ℚ

def safeDiv (numerator denominator : ℕ) : Option ℚ :=
  if denominator = 0 then none else some (numerator / denominator)

def openCount (db : Warehouse) (anchor : Date) (filters : Filters) : ℕ :=
  (ytdOpportunities db anchor filters).countP fun fo => decide (fo.isOpen = some 1) && inB2B db fo

def atRiskCount (db : Warehouse) (anchor : Date) (filters : Filters) : ℕ :=
  (ytdOpportunities db anchor filters).countP fun fo =>
    decide (fo.isOpen = some 1) && (WITHOUT_ACTIVITY_SQL db fo || WITHOUT_NEXT_STEP_SQL db fo)

def computeActivityRates (db : Warehouse) (filters : Filters) (activityAvailable : Bool)
    (counts : OpportunityActivityCounts) (anchor : Date) : ActivityRates where
  inactiveDealsRatio :=
    if activityAvailable then safeDiv (atRiskCount db anchor filters) (openCount db anchor filters)
    else none
  lostDealsRatio := safeDiv counts.lost counts.totalYtdAll

/-! ## Lost opportunities by reason -/

structure LostReasonSlice where
  reason : String
  count : ℕ

/-- `COALESCE(dlr.LostReasonEnglish, 'Unspecified')`. -/
def reasonOf (row : Opportunity × Option LostReason) : String :=
  (row.2.bind (·.lostReasonEnglish)).getD "Unspecified"

/-- Reasons that compare equal are one group, shown as its first row has it. -/
def fetchLostByReason (db : Warehouse) (anchor : Date) (filters : Filters) : List LostReasonSlice :=
  let lost := db.opportunities.filter fun fo =>
    decide (fo.isLost = some 1) && createdIn (ytdWindow anchor) fo && buildCrmWhereClause db filters fo
  let joined := leftJoin (·.lostReasonId) (·.lostReasonId) db.lostReasons lost
  ((groups (fun row => db.collation (reasonOf row)) joined).map fun g =>
      (⟨(g.2.head?.map reasonOf).getD "", g.2.length⟩ : LostReasonSlice)).insertionSort
    fun a b => b.count ≤ a.count

/-! ## New opportunities by month -/

def MONTH_LABELS : List String :=
  ["Jan", "Feb", "Mar", "Apr", "May", "Jun", "Jul", "Aug", "Sep", "Oct", "Nov", "Dec"]

structure NewOpportunitiesMonthPoint where
  month : ℕ
  label : Option String
  countYtd : ℕ

/-- `YEAR(…)` and `MONTH(…)` of the date. -/
def yearMonth (fo : Opportunity) : Option (ℕ × ℕ) :=
  fo.opportunityCreatedDate.map fun d => (d.year, d.month)

/-- The whole of the year, whatever day of it the anchor is. -/
def createdThisYear (db : Warehouse) (anchor : Date) (filters : Filters) : List Opportunity :=
  db.opportunities.filter fun fo =>
    (fo.opportunityCreatedDate.any fun d => decide (d.year = anchor.year)) &&
      buildCrmWhereClause db filters fo && notArchivedClause fo

def fetchNewOpportunitiesByMonth (db : Warehouse) (anchor : Date) (filters : Filters) :
    List NewOpportunitiesMonthPoint :=
  let byYearMonth := countBy yearMonth (createdThisYear db anchor filters)
  ((List.range anchor.month).map (· + 1)).map fun m =>
    { month := m
      label := MONTH_LABELS[m - 1]?
      countYtd := ((byYearMonth.find? fun c => decide (c.1 = some (anchor.year, m))).map Prod.snd).getD 0 }

/-! ## The list of opportunities -/

def PIPELINE_STAGE_ORDER : List ℤ := [1, 9, 2, 8, 7, 10, 11, 6]

/-- By Odoo's sequence, a stage without one last, then by id. -/
def orderPipelineStages (catalog : List StageCatalogRow) : List ℤ :=
  let others := catalog.filter fun c => decide (c.stageId ∉ PIPELINE_STAGE_ORDER)
  let key := fun c : StageCatalogRow => (c.sequence.getD 9007199254740991, c.stageId)
  PIPELINE_STAGE_ORDER ++ (others.insertionSort fun a b => toLex (key a) ≤ toLex (key b)).map (·.stageId)

/-- An unknown stage, or none, goes last. -/
def stagePosition (catalog : List StageCatalogRow) (stageId : Option ℤ) : ℕ :=
  match stageId with
  | none => (orderPipelineStages catalog).length + 1
  | some k => (orderPipelineStages catalog).idxOf k + 1

structure ActivityOpportunityRow where
  opportunityId : ℤ
  name : String
  customer : Option String
  company : Option String
  expectedRevenue : ℚ
  salesperson : Option String
  stage : Option String
  stagePosition : ℕ
  createdDate : Option Date
  isOpen : Bool
  isWon : Bool
  isLost : Bool
  isActive : Bool
  isInactive : Option Bool
  isWithoutNextStep : Option Bool
  isYtd : Bool

def activityOpportunityRow (db : Warehouse) (anchor : Date) (activityAvailable : Bool)
    (r : Opportunity × Option SalespersonProfile) : ActivityOpportunityRow :=
  let fo := r.1
  let status := activityStatusCaseSql db activityAvailable fo
  { opportunityId := fo.opportunityId
    name := fo.opportunityName.getD ""
    customer := fo.customer
    company := fo.company
    expectedRevenue := fo.expectedRevenue.getD 0
    salesperson := (r.2.bind (·.adminNameOverride)).or fo.salesperson
    stage := fo.stage
    stagePosition := ActivityMomentum.stagePosition db.stages fo.stageId
    createdDate := fo.opportunityCreatedDate
    isOpen := decide (fo.isOpen = some 1)
    isWon := decide (status = .won)
    isLost := decide (status = .lost)
    isActive := decide (status = .active)
    isInactive := if activityAvailable then some (decide (status = .withoutActivity)) else none
    isWithoutNextStep := if activityAvailable then some (decide (status = .withoutNextStep)) else none
    isYtd := fo.opportunityCreatedDate.any fun d =>
      (ytdWindow anchor).start.le d && d.le (ytdWindow anchor).stop }

def fetchActivityOpportunities (db : Warehouse) (anchor : Date) (filters : Filters)
    (activityAvailable : Bool) : List ActivityOpportunityRow :=
  (leftJoin (fun fo : Opportunity => some fo.salespersonKey) (·.salespersonKey) db.profiles
    (ytdOpportunities db anchor filters)).map (activityOpportunityRow db anchor activityAvailable)

/-! ## The page -/

structure ActivityMomentumOverview where
  activityColumnsAvailable : Bool
  counts : OpportunityActivityCounts
  rates : ActivityRates
  lostByReason : List LostReasonSlice
  newOpportunitiesByMonth : List NewOpportunitiesMonthPoint
  opportunities : List ActivityOpportunityRow

def computeActivityMomentumOverview (db : Warehouse) (activityColumnsAvailable : Bool) (anchor : Date)
    (filters : Filters) : ActivityMomentumOverview :=
  let counts := computeOpportunityActivityCounts db anchor filters activityColumnsAvailable
  { activityColumnsAvailable
    counts
    rates := computeActivityRates db filters activityColumnsAvailable counts anchor
    lostByReason := fetchLostByReason db anchor filters
    newOpportunitiesByMonth := fetchNewOpportunitiesByMonth db anchor filters
    opportunities := fetchActivityOpportunities db anchor filters activityColumnsAvailable }

end SalesDashboard.ActivityMomentum
