import SalesDashboard.PeriodAxis.Calendar

/-! The periods of the Collections trend (`debtCollections.ts`) and of the NPS trend
(`npsScore.ts`), and the columns both are grouped by. -/

namespace SalesDashboard.PeriodAxis
open Tachometer CriticalNumber MarcomKpi

/-! ## Collections -/

inductive CollectionGrain
  | day | week | month
  deriving DecidableEq, Repr

def MAX_PERIODS : Nat := 400

structure Period where
  start : Date
  stop : Date
  deriving DecidableEq

/-- First day of the period holding a date of four digits. -/
def periodStart (iso : Date) : CollectionGrain → Date
  | .day => iso
  | .month => (monthOf iso).first
  | .week => weekStartIso iso

def periodEnd (start : Date) : CollectionGrain → Date
  | .day => start
  | .week => addDaysIso start 6
  | .month => addDaysIso (addMonths start 1) (-1)

def nextStart (start : Date) : CollectionGrain → Date
  | .month => addMonths start 1
  | .week => addDaysIso start 7
  | .day => addDaysIso start 1

/-- The loop of `periodsBetween`, for so many periods at most. -/
def listPeriods (toDate : Date) (grain : CollectionGrain) : Nat → Date → List Period
  | 0, _ => []
  | fuel + 1, s =>
      if isoLe s toDate then ⟨s, periodEnd s grain⟩ :: listPeriods toDate grain fuel (nextStart s grain) else []

/-- Every period from the one holding `from` to the one holding `to`; more than the limit
are refused. -/
def periodsBetween (fromDate toDate : Date) (grain : CollectionGrain) : Option (List Period) :=
  let out := listPeriods toDate grain (MAX_PERIODS + 1) (periodStart fromDate grain)
  if MAX_PERIODS < out.length then none else some out

/-- `PERIOD_SQL`, of a payment date. -/
def periodSql (d : Date) : CollectionGrain → Date
  | .day => d
  | .week => weekStartSql d
  | .month => (monthOf d).first

/-! ## NPS -/

inductive NpsGrain
  | week | month | year
  deriving DecidableEq, Repr

def MAX_WEEKLY_POINTS : Nat := 400

/-- The loop over the weeks, for so many at most. -/
def listWeeks (toDate : Date) : Nat → Date → List Date
  | 0, _ => []
  | fuel + 1, w => if isoLe w toDate then w :: listWeeks toDate fuel (addDaysIso w 7) else []

/-- The loop over the months; `stop` is the last key. -/
def listMonths (stop : Nat) : Nat → Nat → Nat → List Int
  | 0, _, _ => []
  | fuel + 1, y, m =>
      if y * 100 + m ≤ stop then
        ((y * 100 + m : Nat) : Int) ::
          if 12 < m + 1 then listMonths stop fuel (y + 1) 1 else listMonths stop fuel y (m + 1)
      else []

def listYears (fromYear toYear : Nat) : List Int :=
  (List.range (toYear + 1 - fromYear)).map fun n => ((fromYear + n : Nat) : Int)

/-- The keys of the periods: a year's months are no more than twelve for each year. -/
def npsPeriodsBetween (fromDate toDate : Date) : NpsGrain → List Int
  | .year => listYears fromDate.year toDate.year
  | .month => listMonths (toDate.year * 100 + toDate.month) (12 * (toDate.year + 1 - fromDate.year))
      fromDate.year fromDate.month
  | .week => (listWeeks toDate (MAX_WEEKLY_POINTS + 1) (weekStartIso fromDate)).map dateKeyOf

/-- `GRAIN_EXPR`, of the rating date with the key that `f.RatingDateKey` holds. -/
def grainExpr (d : Date) : NpsGrain → Int
  | .week => dateKeyOf (weekStartSql d)
  | .month => dateKeyOf d / 100
  | .year => dateKeyOf d / 10000

end SalesDashboard.PeriodAxis
