import SalesDashboard.CriticalNumber.Days
import SalesDashboard.Tachometer.Measures
import Mathlib

/-! The figures of the Critical Number page (`criticalNumber.ts`): the counters, the
working-day card, the missing days and value and their daily, weekly and monthly
periods. Amounts are exact. A `DATE` column reads as the date it holds: the server's
clock is at or east of UTC. -/

namespace SalesDashboard.CriticalNumber
open DataScope Grouping Keyed Tachometer

/-! ## Off days -/

/-- A row of `official_holidays`. -/
structure OfficialHoliday where
  holidayName : String
  holidayDate : Date
  recurring : Bool
  company : Option String
  isActive : Bool
  deriving DecidableEq

structure Database extends Tachometer.Database where
  officialHolidays : List OfficialHoliday

/-- The names of `dim_company` by key, and the lower case of a text. -/
structure CompanyNames where
  get : Key → Option String
  toLowerCase : String → String

structure OffDayRow where
  date : Date
  company : Option String
  branch : Option String
  holidayName : Option String
  reason : Option String
  deriving DecidableEq

theorem firstDay_march (year : Nat) : 1 ≤ 1 ∧ 1 ≤ daysInMonth year 3 := firstDay ..

/-- `Date.UTC(year, month, day)` with the month and the day of a date: 29 February of a
common year is 1 March. -/
def inYear (year : Nat) (d : Date) : Date :=
  if h : d.month = 2 ∧ d.day = 29 ∧ daysInMonth year 2 < 29 then
    dateOnlyUTC year 3 1 march_bounds (firstDay_march year)
  else
    dateOnlyUTC year d.month d.day d.month_bounds ⟨d.day_pos, day_le_other d.day_le h⟩

def toRow (r : OfficialHoliday) (occurrence : Date) : OffDayRow :=
  ⟨occurrence, r.company, none, some r.holidayName, none⟩

/-- The days of the window on which a stored holiday falls. -/
def occurrences (window : DateWindow) (r : OfficialHoliday) : List Date :=
  if r.recurring then
    let years := List.range' window.start.year (window.stop.year + 1 - window.start.year)
    (years.map fun year => inYear year r.holidayDate).filter window.has
  else [r.holidayDate]

def fetchOfficialHolidayRows (db : Database) (window : DateWindow) : List OffDayRow :=
  let rows := db.officialHolidays.filter fun r =>
    r.isActive && (r.recurring || window.has r.holidayDate)
  rows.flatMap fun r => (occurrences window r).map (toRow r)

/-- An empty text is no company and no branch. -/
def truthy (text : Option String) : Option String := text.filter (· ≠ "")

def offDayMatchesScope (row : OffDayRow) (filters : Filters) (companyNamesByKey : CompanyNames) :
    Bool :=
  (match truthy row.company with
    | some company =>
        if filters (.scope .companyKeys) = [] then true
        else
          let allowedNames := (filters (.scope .companyKeys)).map fun k =>
            (companyNamesByKey.get k).map companyNamesByKey.toLowerCase
          decide (some (companyNamesByKey.toLowerCase company) ∈ allowedNames)
    | none => true) &&
  (match truthy row.branch with
    | some branch =>
        if filters (.scope .salesTeamKeys) = [] then true
        else decide (.text branch ∈ filters (.scope .salesTeamKeys))
    | none => true)

/-! ## Working days -/

def countWeeklyRestDays (window : DateWindow) : Int := (eachDay window).countP isFriday

def computeWorkingDays (db : Database) (window : DateWindow) (filters : Filters)
    (companyNamesByKey : CompanyNames) : Int :=
  let totalDays := countCalendarDays window
  let restDays := countWeeklyRestDays window
  let officialRows := fetchOfficialHolidayRows db window
  let officialCount : Int := (officialRows.filter fun r =>
    offDayMatchesScope r filters companyNamesByKey && !isFriday r.date).length
  max 0 (totalDays - restDays - officialCount)

/-- The keys of the days off in scope. -/
def holidayKeys (db : Database) (window : DateWindow) (filters : Filters)
    (companyNamesByKey : CompanyNames) : List Int :=
  ((fetchOfficialHolidayRows db window).filter fun r =>
    offDayMatchesScope r filters companyNamesByKey).map fun r => dateKeyOf r.date

def listWorkingDays (db : Database) (window : DateWindow) (filters : Filters)
    (companyNamesByKey : CompanyNames) : List Date :=
  let keys := holidayKeys db window filters companyNamesByKey
  (eachDay window).filter fun cur => !isFriday cur && !decide (dateKeyOf cur ∈ keys)

/-! ## Targets -/

/-- The count of each distinct value. -/
abbrev TargetSum := List (ℚ × Nat)

def TargetSum.add (sum : TargetSum) (value : ℚ) : TargetSum :=
  upsert Prod.fst value (fun entry => (entry.1, entry.2 + 1)) (value, 1) sum

def TargetSum.total (sum : TargetSum) : ℚ := (sum.map fun entry => (entry.2 : ℚ) * entry.1).sum

inductive DailyTarget
  | number (value : ℚ)
  | schedule (valueOn : Date → ℚ)

def dailyTargetOn (target : DailyTarget) (date : Date) : ℚ :=
  match target with
  | .number value => value
  | .schedule valueOn => valueOn date

def sumTarget (days : List Date) (target : DailyTarget) : ℚ :=
  TargetSum.total (days.foldl (fun sum d => sum.add (dailyTargetOn target d)) [])

/-! ## Counters -/

def yearWindow (year : Nat) : DateWindow :=
  ⟨dateOnlyUTC year 1 1 january_bounds (firstDay ..),
    dateOnlyUTC year 12 31 december_bounds (by simp [daysInMonth])⟩

def monthWindowFull (year month : Nat) (hm : 1 ≤ month ∧ month ≤ 12) : DateWindow :=
  ⟨dateOnlyUTC year month 1 hm (firstDay ..),
    dateOnlyUTC year month (daysInMonth year month) hm (lastDay ..)⟩

structure PeriodCounter where
  workingDaysElapsed : Int
  workingDaysTotal : Int
  achievementPct : Option ℚ
  status : TargetStatus
  actualValue : ℚ
  expectedValue : ℚ
  gapValue : ℚ
  periodTarget : ℚ
  deriving DecidableEq

def computePeriodCounter (db : Database) (elapsedWindow fullWindow : DateWindow)
    (filters : Filters) (companyNamesByKey : CompanyNames) (dailyCriticalNumber : DailyTarget) :
    PeriodCounter :=
  let elapsedDays := listWorkingDays db elapsedWindow filters companyNamesByKey
  let fullDays := listWorkingDays db fullWindow filters companyNamesByKey
  let actualVv := fetchValueVolume db.toDatabase elapsedWindow filters
  let expectedToDate := sumTarget elapsedDays dailyCriticalNumber
  { workingDaysElapsed := computeWorkingDays db elapsedWindow filters companyNamesByKey
    workingDaysTotal := computeWorkingDays db fullWindow filters companyNamesByKey
    achievementPct := if 0 < expectedToDate then some (actualVv.value / expectedToDate) else none
    status := classifyVsTarget (some actualVv.value)
      (if 0 < expectedToDate then some expectedToDate else none)
    actualValue := actualVv.value
    expectedValue := expectedToDate
    gapValue := actualVv.value - expectedToDate
    periodTarget := sumTarget fullDays dailyCriticalNumber }

def computeMonthlyCounter (db : Database) (anchor : Date) (filters : Filters)
    (companyNamesByKey : CompanyNames) (dailyCriticalNumber : DailyTarget) : PeriodCounter :=
  computePeriodCounter db (mtdWindow anchor)
    (monthWindowFull anchor.year anchor.month anchor.month_bounds) filters
    companyNamesByKey dailyCriticalNumber

def computeYearlyCounter (db : Database) (anchor : Date) (filters : Filters)
    (companyNamesByKey : CompanyNames) (dailyCriticalNumber : DailyTarget) : PeriodCounter :=
  computePeriodCounter db (ytdWindow anchor) (yearWindow anchor.year) filters companyNamesByKey
    dailyCriticalNumber

def shiftYearBack (window : DateWindow) : DateWindow :=
  ⟨inYear (window.start.year - 1) window.start, inYear (window.stop.year - 1) window.stop⟩

structure WorkingDaysCard where
  value : Int
  lastYear : Int
  variancePct : Option ℚ
  deriving DecidableEq

def computeWorkingDaysYtd (db : Database) (anchor : Date) (filters : Filters)
    (companyNamesByKey : CompanyNames) : WorkingDaysCard :=
  let ytd := ytdWindow anchor
  let value := computeWorkingDays db ytd filters companyNamesByKey
  let lastYear := computeWorkingDays db (shiftYearBack ytd) filters companyNamesByKey
  ⟨value, lastYear, Tachometer.variancePct (some (value : ℚ)) (some (lastYear : ℚ))⟩

/-! ## The walk over the days -/

/-- The actual value of each day that has a sale. -/
def fetchDailyActuals (db : Database) (window : DateWindow) (filters : Filters) : List (Int × ℚ) :=
  let lines := db.salesLines.filter fun line =>
    (decide (dateKeyOf window.start ≤ line.dateKey) && decide (line.dateKey ≤ dateKeyOf window.stop))
      && buildWhereClause filters true db.profiles line.toFactRow
  (groups (·.dateKey) lines).map fun g => (g.1, total (·.value) g.2)

structure PaceDay where
  date : Date
  isWorkingDay : Bool
  actual : ℚ
  deriving DecidableEq

def fetchYtdPaceDays (db : Database) (anchor : Date) (filters : Filters)
    (companyNamesByKey : CompanyNames) : List PaceDay :=
  let ytd := ytdWindow anchor
  let dailyActuals := fetchDailyActuals db ytd filters
  let keys := holidayKeys db ytd filters companyNamesByKey
  (eachDay ytd).map fun cur =>
    { date := cur
      isWorkingDay := !isFriday cur && !decide (dateKeyOf cur ∈ keys)
      actual := ((dailyActuals.find? fun entry => decide (entry.1 = dateKeyOf cur)).map Prod.snd).getD 0 }

/-! ## Missing days and value -/

def average (series : List ℚ) : ℚ := series.sum / max series.length 1

def trendPctFromHalves (series : List ℚ) : Option ℚ :=
  if series.length < 2 then none
  else
    let mid := series.length / 2
    let firstAvg := average (series.take mid)
    let secondAvg := average (series.drop mid)
    if firstAvg = 0 then none else some ((secondAvg - firstAvg) / firstAvg)

/-- `Math.round`. -/
def mathRound (x : ℚ) : Int := ⌊x + 1 / 2⌋

structure MissingDaysCard where
  value : Int
  trendValues : List ℚ
  trendPct : Option ℚ
  expectedValue : Int
  deriving DecidableEq

structure MissingValueCard where
  value : ℚ
  trendValues : List ℚ
  trendPct : Option ℚ
  expectedValue : ℚ
  deriving DecidableEq

structure MissingSummary where
  missingDays : MissingDaysCard
  missingValue : MissingValueCard
  deriving DecidableEq

/-- The variables of the loop of `computeMissingSummary`. -/
structure Running where
  cumWorkingDays : Int
  cumTarget : TargetSum
  cumActual : ℚ
  dailyRunningMissingDays : List ℚ
  monthlyRunningMissingValue : List ((Nat × Nat) × ℚ)

def Running.walk (target : DailyTarget) (day : PaceDay) (run : Running) : Running :=
  { run with
    cumActual := run.cumActual + day.actual
    cumWorkingDays := if day.isWorkingDay then run.cumWorkingDays + 1 else run.cumWorkingDays
    cumTarget := if day.isWorkingDay then run.cumTarget.add (dailyTargetOn target day.date)
      else run.cumTarget }

/-- The readings of a day that is over. -/
def Running.record (target : DailyTarget) (day : PaceDay) (run : Running) : Running :=
  let dayValue := dailyTargetOn target day.date
  let runningMissingValue := if 0 < dayValue then run.cumTarget.total - run.cumActual else 0
  let runningMissingDays := if 0 < dayValue then runningMissingValue / dayValue else 0
  let monthKey := (day.date.year, day.date.month)
  { run with
    dailyRunningMissingDays := run.dailyRunningMissingDays ++ [runningMissingDays]
    monthlyRunningMissingValue := upsert Prod.fst monthKey
      (fun entry => (entry.1, runningMissingValue)) (monthKey, runningMissingValue)
      run.monthlyRunningMissingValue }

def Running.step (target : DailyTarget) (inProgressDate : Option Date) (run : Running)
    (day : PaceDay) : Running :=
  let walked := run.walk target day
  if inProgressDate.any fun d => d.le day.date then walked else walked.record target day

def runOver (target : DailyTarget) (inProgressDate : Option Date) (days : List PaceDay) : Running :=
  days.foldl (Running.step target inProgressDate) ⟨0, [], 0, [], []⟩

def computeMissingSummary (db : Database) (anchor : Date) (filters : Filters)
    (companyNamesByKey : CompanyNames) (dailyCriticalNumber : DailyTarget)
    (inProgressDate : Option Date) : MissingSummary :=
  let days := fetchYtdPaceDays db anchor filters companyNamesByKey
  let run := runOver dailyCriticalNumber inProgressDate days
  let anchorValue := dailyTargetOn dailyCriticalNumber anchor
  let expectedValueToDate := run.cumTarget.total
  let missingValue := if 0 < anchorValue then expectedValueToDate - run.cumActual else 0
  let missingDays := if 0 < anchorValue then mathRound (missingValue / anchorValue) else 0
  let last30 := run.dailyRunningMissingDays.drop (run.dailyRunningMissingDays.length - 30)
  let monthlySeries := (run.monthlyRunningMissingValue.insertionSort fun a b =>
    a.1.1 < b.1.1 ∨ a.1.1 = b.1.1 ∧ a.1.2 ≤ b.1.2).map Prod.snd
  { missingDays := ⟨missingDays, last30, trendPctFromHalves last30, run.cumWorkingDays⟩
    missingValue := ⟨missingValue, monthlySeries, trendPctFromHalves monthlySeries,
      expectedValueToDate⟩ }

/-! ## Periods -/

inductive MissingTrendGranularity
  | daily | weekly | monthly
  deriving DecidableEq, Repr

/-- The text of a day, by its number, or of a month. -/
inductive PeriodKey
  | date (dayNumber : Int)
  | month (year month : Nat)
  deriving DecidableEq

/-- A week starts on Saturday. -/
def periodKeyOf (date : Date) : MissingTrendGranularity → PeriodKey
  | .daily => .date (dayNumber date)
  | .monthly => .month date.year date.month
  | .weekly =>
      let daysSinceSaturday := (getUTCDay date + 1) % 7
      .date (dayNumber date - daysSinceSaturday)

/-- `key` is the text of the first date, and left to `start`. -/
structure MissingTrendPeriod where
  start : Date
  stop : Date
  workingDays : Int
  target : ℚ
  actual : ℚ
  gapValue : ℚ
  gapDays : ℚ
  cumulativeTarget : ℚ
  cumulativeActual : ℚ
  cumulativeGap : ℚ
  cumulativeGapDays : ℚ
  inProgress : Bool
  deriving DecidableEq

def newPeriod (date : Date) : MissingTrendPeriod :=
  ⟨date, date, 0, 0, 0, 0, 0, 0, 0, 0, 0, false⟩

/-- The periods under their keys, and the running totals. -/
structure Buckets where
  periods : List (PeriodKey × MissingTrendPeriod)
  cumTarget : ℚ
  cumActual : ℚ

def dayTarget (target : DailyTarget) (day : PaceDay) : ℚ :=
  if day.isWorkingDay then dailyTargetOn target day.date else 0

/-- What a day adds to its period; the totals include the day. -/
def MissingTrendPeriod.addDay (target : DailyTarget) (inProgressDate : Option Date)
    (cumTarget cumActual : ℚ) (day : PaceDay) (period : MissingTrendPeriod) : MissingTrendPeriod :=
  { period with
    stop := day.date
    workingDays := if day.isWorkingDay then period.workingDays + 1 else period.workingDays
    target := period.target + dayTarget target day
    actual := period.actual + day.actual
    cumulativeTarget := cumTarget
    cumulativeActual := cumActual
    inProgress := if inProgressDate = some day.date then true else period.inProgress }

def Buckets.step (target : DailyTarget) (granularity : MissingTrendGranularity)
    (inProgressDate : Option Date) (b : Buckets) (day : PaceDay) : Buckets :=
  let key := periodKeyOf day.date granularity
  let cumTarget := b.cumTarget + dayTarget target day
  let cumActual := b.cumActual + day.actual
  let addDay := MissingTrendPeriod.addDay target inProgressDate cumTarget cumActual day
  ⟨upsert Prod.fst key (fun entry => (entry.1, addDay entry.2)) (key, addDay (newPeriod day.date))
    b.periods, cumTarget, cumActual⟩

/-- The gaps, once all days are in. -/
def MissingTrendPeriod.finish (target : DailyTarget) (p : MissingTrendPeriod) : MissingTrendPeriod :=
  let endValue := dailyTargetOn target p.stop
  let gapValue := p.actual - p.target
  let cumulativeGap := p.cumulativeActual - p.cumulativeTarget
  { p with
    gapValue := gapValue
    cumulativeGap := cumulativeGap
    gapDays := if 0 < endValue then gapValue / endValue else 0
    cumulativeGapDays := if 0 < endValue then cumulativeGap / endValue else 0 }

def bucketPaceDays (days : List PaceDay) (dailyCriticalNumber : DailyTarget)
    (granularity : MissingTrendGranularity) (inProgressDate : Option Date) :
    List MissingTrendPeriod :=
  let buckets := days.foldl (Buckets.step dailyCriticalNumber granularity inProgressDate) ⟨[], 0, 0⟩
  buckets.periods.map fun entry => entry.2.finish dailyCriticalNumber

structure MissingTrend where
  daily : List MissingTrendPeriod
  weekly : List MissingTrendPeriod
  monthly : List MissingTrendPeriod
  deriving DecidableEq

def MissingTrend.of (trend : MissingTrend) : MissingTrendGranularity → List MissingTrendPeriod
  | .daily => trend.daily
  | .weekly => trend.weekly
  | .monthly => trend.monthly

def computeMissingTrend (db : Database) (anchor : Date) (filters : Filters)
    (companyNamesByKey : CompanyNames) (dailyCriticalNumber : DailyTarget)
    (inProgressDate : Option Date) : MissingTrend :=
  let days := fetchYtdPaceDays db anchor filters companyNamesByKey
  { daily := bucketPaceDays days dailyCriticalNumber .daily inProgressDate
    weekly := bucketPaceDays days dailyCriticalNumber .weekly inProgressDate
    monthly := bucketPaceDays days dailyCriticalNumber .monthly inProgressDate }

end SalesDashboard.CriticalNumber
