import SalesDashboard.DataScope.Filters
import SalesDashboard.Lib.Grouping
import SalesDashboard.Lib.Keyed
import SalesDashboard.Tachometer.Dates
import Mathlib

/-! The figures of the Tachometer page (`tachometer.ts`, `classify.ts`): the cards, their
breakdown by salesperson, team or segment, and the monthly series. Amounts are exact.
Team keys that the collation takes for the same have one spelling, and a `Map` keyed by
the text of a key is one keyed by the key: the keys of one breakdown are all numbers or
all texts. -/

namespace SalesDashboard.Tachometer
open DataScope Firsts Grouping Keyed

/-! ## Tables -/

/-- A row of `v_sales_lines`. -/
structure SalesLine extends FactRow where
  dateKey : Int
  value : Option ℚ
  volume : Option ℚ
  deriving DecidableEq

/-- A row of `v_sales_targets`, which has no customer key. -/
structure TargetRow extends FactRow where
  year : Option Int
  month : Option Int
  targetRevenue : Option ℚ
  targetVolume : Option ℚ
  deriving DecidableEq

inductive GroupBy
  | salesperson | salesTeam | segment
  deriving DecidableEq, Repr

/-- `dimDate` has the date of a key, if any. `targetOverrideAmount` is the one of
`salesperson_admin_profile`. A group has its name in an admin table, in a dimension
table, in both or in none. -/
structure Database where
  salesLines : List SalesLine
  salesTargets : List TargetRow
  dimDate : Int → Option Date
  profiles : Profiles
  targetOverrideAmount : ℚ → Option ℚ
  adminName : GroupBy → Key → Option String
  dimensionName : GroupBy → Key → Option String

/-- `COALESCE(SUM(column), 0)`. -/
def total {α : Type} (column : α → Option ℚ) (rows : List α) : ℚ :=
  (rows.map fun row => (column row).getD 0).sum

/-! ## Statuses -/

inductive TargetStatus
  | GREEN | YELLOW | RED | NO_TARGET
  deriving DecidableEq, Repr

def classifyVsTarget (actual target : Option ℚ) : TargetStatus :=
  match target with
  | none => .NO_TARGET
  | some t =>
      if t ≤ 0 then .NO_TARGET
      else match actual with
        | none => .NO_TARGET
        | some a => if t ≤ a then .GREEN else if t * (9 / 10) ≤ a then .YELLOW else .RED

def variancePct (actual target : Option ℚ) : Option ℚ :=
  match target with
  | none => none
  | some t => if t ≤ 0 then none else actual.map fun a => (a - t) / t

/-! ## Actual figures -/

structure ValueVolume where
  value : ℚ
  volume : ℚ
  deriving DecidableEq

def asp (vv : ValueVolume) : Option ℚ := if vv.volume = 0 then none else some (vv.value / vv.volume)

/-- The rows of `FROM v_sales_lines JOIN dim_date` in the window. -/
def linesIn (db : Database) (window : DateWindow) (filters : Filters) : List SalesLine :=
  db.salesLines.filter fun line =>
    (match db.dimDate line.dateKey with
      | some d => window.has d
      | none => false) && buildWhereClause filters true db.profiles line.toFactRow

def valueVolume (rows : List SalesLine) : ValueVolume := ⟨total (·.value) rows, total (·.volume) rows⟩

def fetchValueVolume (db : Database) (window : DateWindow) (filters : Filters) : ValueVolume :=
  valueVolume (linesIn db window filters)

/-! ## Target figures -/

/-- The months a target is asked for: one, or those before one, or all. -/
structure Opts where
  month : Option Int
  monthLt : Option Int

def Opts.all : Opts := ⟨none, none⟩
def Opts.only (month : Nat) : Opts := ⟨some month, none⟩
def Opts.before (month : Nat) : Opts := ⟨none, some month⟩

/-- A row without a month is in none. -/
def Opts.admits (opts : Opts) (month : Option Int) : Bool :=
  match opts.month with
  | some m => decide (month = some m)
  | none => match opts.monthLt with
    | some m => month.any fun x => decide (x < m)
    | none => true

def monthCountForOpts (opts : Opts) : ℚ :=
  match opts.month with
  | some _ => 1
  | none => match opts.monthLt with
    | some m => max 0 (m - 1)
    | none => 12

structure TargetFigures where
  targetRevenue : ℚ
  targetVolume : ℚ
  deriving DecidableEq

/-- The monthly share of the override of each of the salespeople that has one. -/
def fetchMonthlyOverrideAmounts (db : Database) (salespersonKeys : List ℚ) : ℚ → Option ℚ :=
  fun k => if k ∈ firsts salespersonKeys then (db.targetOverrideAmount k).map (· / 12) else none

def targetRows (db : Database) (year : Nat) (filters : Filters) (opts : Opts) : List TargetRow :=
  db.salesTargets.filter fun row =>
    (decide (row.year = some year) && opts.admits row.month) &&
      buildWhereClause filters false db.profiles row.toFactRow

def fetchTargetForMonths (db : Database) (year : Nat) (filters : Filters) (opts : Opts) :
    TargetFigures :=
  let perSalesperson := groups (·.salespersonKey) (targetRows db year filters opts)
  let overrides := fetchMonthlyOverrideAmounts db (perSalesperson.map Prod.fst)
  let monthCount := monthCountForOpts opts
  ⟨(perSalesperson.map fun g => match overrides g.1 with
      | some overrideMonthly => overrideMonthly * monthCount
      | none => total (·.targetRevenue) g.2).sum,
    (perSalesperson.map fun g => total (·.targetVolume) g.2).sum⟩

/-! ## Cards -/

inductive Metric
  | value | volume
  deriving DecidableEq, Repr

inductive Period
  | mtd | ytd
  deriving DecidableEq, Repr

def ValueVolume.of (vv : ValueVolume) : Metric → ℚ
  | .value => vv.value
  | .volume => vv.volume

def TargetFigures.of (t : TargetFigures) : Metric → ℚ
  | .value => t.targetRevenue
  | .volume => t.targetVolume

structure TachometerCard where
  actual : ℚ
  targetToDate : ℚ
  status : TargetStatus
  variancePct : Option ℚ
  lastYearSamePeriod : ℚ
  fullLastPeriodActual : ℚ
  fullPeriodTarget : ℚ
  lastYearRange : DateWindow
  fullLastPeriodRange : DateWindow

def mtdTargetToDate (db : Database) (anchor : Date) (filters : Filters) : TargetFigures :=
  let fm := fetchTargetForMonths db anchor.year filters (.only anchor.month)
  ⟨(prorateMtdTarget (some fm.targetRevenue) anchor).getD 0,
    (prorateMtdTarget (some fm.targetVolume) anchor).getD 0⟩

def ytdTargetToDate (db : Database) (anchor : Date) (filters : Filters) : TargetFigures :=
  let completed := fetchTargetForMonths db anchor.year filters (.before anchor.month)
  let currentMonth := fetchTargetForMonths db anchor.year filters (.only anchor.month)
  ⟨(prorateYtdTarget (some completed.targetRevenue) (some currentMonth.targetRevenue) anchor).getD 0,
    (prorateYtdTarget (some completed.targetVolume) (some currentMonth.targetVolume) anchor).getD 0⟩

def fullPeriodTargetForMtd (db : Database) (anchor : Date) (filters : Filters) : TargetFigures :=
  fetchTargetForMonths db anchor.year filters (.only anchor.month)

def fullPeriodTargetForYtd (db : Database) (anchor : Date) (filters : Filters) : TargetFigures :=
  fetchTargetForMonths db anchor.year filters .all

def computeCard (db : Database) (anchor : Date) (filters : Filters) (metric : Metric)
    (currentWindow lastYearWindow fullLastPeriodWindow : DateWindow)
    (targetToDateFn fullPeriodTargetFn : Database → Date → Filters → TargetFigures) :
    TachometerCard :=
  let actual := (fetchValueVolume db currentWindow filters).of metric
  let targetToDate := (targetToDateFn db anchor filters).of metric
  { actual := actual
    targetToDate := targetToDate
    status := classifyVsTarget (some actual) (some targetToDate)
    variancePct := Tachometer.variancePct (some actual) (some targetToDate)
    lastYearSamePeriod := (fetchValueVolume db lastYearWindow filters).of metric
    fullLastPeriodActual := (fetchValueVolume db fullLastPeriodWindow filters).of metric
    fullPeriodTarget := (fullPeriodTargetFn db anchor filters).of metric
    lastYearRange := lastYearWindow
    fullLastPeriodRange := fullLastPeriodWindow }

def computeMtdCard (db : Database) (anchor : Date) (filters : Filters) (metric : Metric) :
    TachometerCard :=
  computeCard db anchor filters metric (mtdWindow anchor) (lmtdWindow anchor) (flmWindow anchor)
    mtdTargetToDate fullPeriodTargetForMtd

def computeYtdCard (db : Database) (anchor : Date) (filters : Filters) (metric : Metric) :
    TachometerCard :=
  computeCard db anchor filters metric (ytdWindow anchor) (lytdWindow anchor) (flyWindow anchor)
    ytdTargetToDate fullPeriodTargetForYtd

/-! ## Breakdown -/

/-- The key of a row in a breakdown: its own, or the one the profile puts in its place. -/
def keyExpr (db : Database) (row : FactRow) : GroupBy → Key
  | .salesperson => .num row.salespersonKey
  | .salesTeam => .text (effectiveSalesTeam db.profiles row)
  | .segment => .num (effectiveSegment db.profiles row)

def groupLabel (db : Database) (groupBy : GroupBy) (key : Key) : String :=
  ((db.adminName groupBy key).or (db.dimensionName groupBy key)).getD "Unassigned"

structure GroupedValueVolume where
  groupKey : Key
  groupLabel : String
  figures : ValueVolume

structure GroupedTargetFigures where
  groupKey : Key
  groupLabel : String
  figures : TargetFigures

def fetchValueVolumeGrouped (db : Database) (window : DateWindow) (filters : Filters)
    (groupBy : GroupBy) : List GroupedValueVolume :=
  (groups (fun line => keyExpr db line.toFactRow groupBy) (linesIn db window filters)).map fun g =>
    ⟨g.1, groupLabel db groupBy g.1, valueVolume g.2⟩

def TargetFigures.add (t t' : TargetFigures) : TargetFigures :=
  ⟨t.targetRevenue + t'.targetRevenue, t.targetVolume + t'.targetVolume⟩

def TargetFigures.scale (t : TargetFigures) (fraction : ℚ) : TargetFigures :=
  ⟨t.targetRevenue * fraction, t.targetVolume * fraction⟩

/-- Per salesperson and group, and then per group. -/
def fetchTargetForMonthsGrouped (db : Database) (year : Nat) (filters : Filters) (groupBy : GroupBy)
    (opts : Opts) : List GroupedTargetFigures :=
  let perSalespersonGroup := groups
    (fun row => (row.salespersonKey, keyExpr db row.toFactRow groupBy)) (targetRows db year filters opts)
  let overrides := fetchMonthlyOverrideAmounts db (perSalespersonGroup.map (·.1.1))
  let monthCount := monthCountForOpts opts
  let rows := perSalespersonGroup.map fun g => GroupedTargetFigures.mk g.1.2 (groupLabel db groupBy g.1.2)
    ⟨match overrides g.1.1 with
      | some overrideMonthly => overrideMonthly * monthCount
      | none => total (·.targetRevenue) g.2, total (·.targetVolume) g.2⟩
  upserts (·.groupKey) (·.groupKey)
    (fun row existing => { existing with figures := existing.figures.add row.figures }) id [] rows

structure BreakdownRow where
  groupKey : Key
  groupLabel : String
  actual : ℚ
  targetToDate : Option ℚ
  status : TargetStatus
  variancePct : Option ℚ

/-- The prorated target of each group. -/
def targetByGroup (db : Database) (anchor : Date) (filters : Filters) (period : Period)
    (groupBy : GroupBy) : List GroupedTargetFigures :=
  let fraction := monthElapsedFraction anchor
  let current := fetchTargetForMonthsGrouped db anchor.year filters groupBy (.only anchor.month)
  match period with
  | .mtd => upserts (·.groupKey) (·.groupKey)
      (fun r _ => { r with figures := r.figures.scale fraction })
      (fun r => { r with figures := r.figures.scale fraction }) [] current
  | .ytd =>
      let completed := fetchTargetForMonthsGrouped db anchor.year filters groupBy (.before anchor.month)
      upserts (·.groupKey) (·.groupKey)
        (fun r existing => { existing with figures := existing.figures.add (r.figures.scale fraction) })
        (fun r => { r with figures := (TargetFigures.mk 0 0).add (r.figures.scale fraction) })
        (upserts (·.groupKey) (·.groupKey) (fun r _ => r) id [] completed) current

def computeBreakdown (db : Database) (anchor : Date) (filters : Filters) (period : Period)
    (metric : Metric) (groupBy : GroupBy) : List BreakdownRow :=
  let window := match period with
    | .mtd => mtdWindow anchor
    | .ytd => ytdWindow anchor
  let actuals : List BreakdownRow := upserts (·.groupKey) (·.groupKey)
    (fun r _ => ⟨r.groupKey, r.groupLabel, r.figures.of metric, none, .NO_TARGET, none⟩)
    (fun r => ⟨r.groupKey, r.groupLabel, r.figures.of metric, none, .NO_TARGET, none⟩) []
    (fetchValueVolumeGrouped db window filters groupBy)
  let rows := upserts (·.groupKey) (·.groupKey)
    (fun t existing => { existing with targetToDate := some (t.figures.of metric) })
    (fun t => ⟨t.groupKey, t.groupLabel, 0, some (t.figures.of metric), .NO_TARGET, none⟩) actuals
    (targetByGroup db anchor filters period groupBy)
  (rows.map fun r => { r with
    status := classifyVsTarget (some r.actual) r.targetToDate
    variancePct := Tachometer.variancePct (some r.actual) r.targetToDate }).insertionSort
      fun a b => b.actual ≤ a.actual

/-! ## Monthly series -/

def MONTH_LABELS : List String :=
  ["Jan", "Feb", "Mar", "Apr", "May", "Jun", "Jul", "Aug", "Sep", "Oct", "Nov", "Dec"]

structure MonthlyPoint where
  month : Nat
  year : Nat
  label : String
  value : ℚ
  volume : ℚ
  targetValue : ℚ
  targetVolume : ℚ
  valueStatus : TargetStatus
  volumeStatus : TargetStatus
  asp : Option ℚ
  targetAsp : Option ℚ
  aspStatus : TargetStatus

def monthlyPoint (db : Database) (anchor : Date) (filters : Filters) (m : Nat)
    (hm : 1 ≤ m ∧ m ≤ 12) : MonthlyPoint :=
  let vv := fetchValueVolume db (monthWindow anchor.year m hm anchor) filters
  let fm := fetchTargetForMonths db anchor.year filters (.only m)
  let monthFraction := if m = anchor.month then monthElapsedFraction anchor else 1
  let targetValue := fm.targetRevenue * monthFraction
  let targetVolume := fm.targetVolume * monthFraction
  let aspActual := Tachometer.asp vv
  let targetAspValue := if 0 < targetVolume then some (targetValue / targetVolume) else none
  { month := m
    year := anchor.year
    label := MONTH_LABELS.getD (m - 1) ""
    value := vv.value
    volume := vv.volume
    targetValue := targetValue
    targetVolume := targetVolume
    valueStatus := classifyVsTarget (some vv.value) (some targetValue)
    volumeStatus := classifyVsTarget (some vv.volume) (some targetVolume)
    asp := aspActual
    targetAsp := targetAspValue
    aspStatus := classifyVsTarget aspActual targetAspValue }

/-- The months from January through the anchor's. -/
def fetchMonthlySeries (db : Database) (anchor : Date) (filters : Filters) : List MonthlyPoint :=
  (List.range' 1 anchor.month).pmap (monthlyPoint db anchor filters) fun m hm => by
    have := anchor.month_le
    rw [List.mem_range'_1] at hm
    omega

end SalesDashboard.Tachometer
