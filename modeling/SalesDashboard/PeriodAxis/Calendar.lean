import SalesDashboard.MarcomKpi.Months

/-! Steps on ISO dates as JavaScript makes them (`businessWeek.ts`, `debtCollections.ts`),
and the week of a date as MySQL reckons it. Years from 10000 on have no four digits: cut
to ten characters, their dates keep the month only, and sort before the others. -/

namespace SalesDashboard.PeriodAxis
open Tachometer CriticalNumber MarcomKpi

/-! ## Dates and their texts -/

theorem january : 1 ≤ 12 ∧ 1 ≤ 1 := by decide

theorem december : 12 ≤ 12 ∧ 1 ≤ 12 := by decide

def firstOf (year month : Nat) (hyear : 100 ≤ year) (hmonth : month ≤ 12 ∧ 1 ≤ month) : Date :=
  ⟨year, month, 1, hyear, hmonth.2, hmonth.1, (firstDay year month).1, (firstDay year month).2⟩

def lastOf (year month : Nat) (hyear : 100 ≤ year) (hmonth : month ≤ 12 ∧ 1 ≤ month) : Date :=
  ⟨year, month, daysInMonth year month, hyear, hmonth.2, hmonth.1, (lastDay year month).1, (lastDay year month).2⟩

/-- The day before; the first day of the calendar here has none. -/
def prevDay (d : Date) : Date :=
  if hd : 1 < d.day then
    ⟨d.year, d.month, d.day - 1, d.year_ge, d.month_pos, d.month_le, by omega, by have := d.day_le; omega⟩
  else if hm : 1 < d.month then lastOf d.year (d.month - 1) d.year_ge (by have := d.month_le; omega)
  else if hy : 100 < d.year then lastOf (d.year - 1) 12 (by omega) december
  else d

/-- `setUTCDate(getUTCDate() + n)`. -/
def stepDays (d : Date) (n : Int) : Date :=
  if 0 ≤ n then nextDay^[n.toNat] d else prevDay^[(-n).toNat] d

/-- `setUTCDate(1)` and `setUTCMonth(getUTCMonth() + n)`. -/
def stepMonths (d : Date) (n : Nat) : Date :=
  firstOf (d.year + (d.month - 1 + n) / 12) ((d.month - 1 + n) % 12 + 1) (by have := d.year_ge; omega) (by omega)

/-- `toISOString().slice(0, 10)`, as the date that the text stands for. -/
def toIso (d : Date) : Date :=
  if d.year ≤ 9999 then d else (monthOf d).first

/-- The order of the texts: a sign sorts before a digit. -/
def isoLe (a b : Date) : Bool :=
  if 9999 < a.year ∧ b.year ≤ 9999 then true
  else if a.year ≤ 9999 ∧ 9999 < b.year then false
  else a.le b

def addDaysIso (d : Date) (n : Int) : Date := toIso (stepDays d n)

def addMonths (d : Date) (n : Nat) : Date := toIso (stepMonths d n)

/-- The Saturday of the week. -/
def weekStartIso (d : Date) : Date := addDaysIso d (-((getUTCDay d + 1) % 7))

/-! ## MySQL -/

/-- 1 = Sunday .. 7 = Saturday. -/
def dayOfWeek (d : Date) : Int := getUTCDay d + 1

/-- `DATE_SUB(d, INTERVAL n DAY)`. -/
def dateSub (d : Date) (n : Int) : Date := stepDays d (-n)

def weekStartSql (d : Date) : Date := dateSub d (dayOfWeek d % 7)

/-! ## Day numbers -/

theorem date_ext {a b : Date} (hyear : a.year = b.year) (hmonth : a.month = b.month) (hday : a.day = b.day) :
    a = b := by
  cases a
  cases b
  simp only [Date.mk.injEq] at *
  exact ⟨hyear, hmonth, hday⟩

theorem nextDay_lastOf {year month : Nat} (hyear : 100 ≤ year) (hmonth : month ≤ 12 ∧ 1 ≤ month)
    (h : month < 12) : nextDay (lastOf year month hyear hmonth) =
      firstOf year (month + 1) hyear ⟨h, Nat.le_add_left 1 month⟩ :=
  (dif_neg (Nat.lt_irrefl (daysInMonth year month))).trans (dif_pos h)

theorem nextDay_lastOf_december {year : Nat} (hyear : 100 ≤ year) :
    nextDay (lastOf year 12 hyear december) =
      firstOf (year + 1) 1 (Nat.le_succ_of_le hyear) january :=
  (dif_neg (Nat.lt_irrefl (daysInMonth year 12))).trans (dif_neg (Nat.lt_irrefl 12))

theorem nextDay_prevDay {d : Date} (h : 100 < d.year) : nextDay (prevDay d) = d := by
  have hday := d.day_pos
  have hle := d.day_le
  have hmonth := d.month_pos
  have hmle := d.month_le
  unfold prevDay
  split
  · unfold nextDay
    rw [dif_pos (by dsimp only; omega)]
    exact date_ext rfl rfl (by dsimp only; omega)
  · split
    · rw [nextDay_lastOf _ _ (by omega)]
      exact date_ext rfl (by dsimp only [firstOf]; omega) (by dsimp only [firstOf]; omega)
    · rw [nextDay_lastOf_december]
      exact date_ext (by dsimp only [firstOf]; omega) (by dsimp only [firstOf]; omega)
        (by dsimp only [firstOf]; omega)

theorem dayNumber_prevDay {d : Date} (h : 100 < d.year) : dayNumber (prevDay d) = dayNumber d - 1 := by
  have hnext := dayNumber_nextDay (prevDay d)
  rw [nextDay_prevDay h] at hnext
  omega

theorem year_prevDay (d : Date) : d.year - 1 ≤ (prevDay d).year := by
  unfold prevDay
  split
  · exact Nat.sub_le _ _
  · split
    · exact Nat.sub_le _ _
    · split
      · exact Nat.le_refl _
      · exact Nat.sub_le _ _

theorem dayNumber_prevDay_iterate (n : Nat) {d : Date} (h : 100 + n < d.year) :
    dayNumber (prevDay^[n] d) = dayNumber d - n := by
  induction n generalizing d with
  | zero => simp
  | succ n ih =>
    have hyear := year_prevDay d
    rw [Function.iterate_succ_apply, ih (by omega), dayNumber_prevDay (by omega)]
    omega

/-- Up to a week back, the day steps count as days do. -/
theorem dayNumber_stepDays {d : Date} {n : Int} (h : 1000 ≤ d.year) (hn : -7 ≤ n) :
    dayNumber (stepDays d n) = dayNumber d + n := by
  unfold stepDays
  split
  · rw [dayNumber_iterate]
    omega
  · rw [dayNumber_prevDay_iterate _ (by omega)]
    omega

theorem toIso_eq {d : Date} (h : d.year ≤ 9999) : toIso d = d := if_pos h

theorem year_toIso (d : Date) : (toIso d).year = d.year := by
  unfold toIso
  split <;> rfl

theorem year_le_of_le {a b : Date} (h : dayNumber a ≤ dayNumber b) : a.year ≤ b.year := by
  have hle := Date.le_iff.mp (dayNumber_le_iff.mp h)
  omega

/-- Both reckon the week alike. -/
theorem weekStartSql_eq {d : Date} (h : 1000 ≤ d.year) (h' : d.year ≤ 9999) :
    weekStartSql d = weekStartIso d := by
  have hday : dayOfWeek d % 7 = (getUTCDay d + 1) % 7 := rfl
  have hnonneg : 0 ≤ (getUTCDay d + 1) % 7 := Int.emod_nonneg _ (by decide)
  have hlt : (getUTCDay d + 1) % 7 < 7 := Int.emod_lt_of_pos _ (by decide)
  unfold weekStartSql dateSub weekStartIso addDaysIso
  rw [hday, toIso_eq]
  refine (year_le_of_le ?_).trans h'
  rw [dayNumber_stepDays h (by omega)]
  omega

theorem dayNumber_weekStartSql {d : Date} (h : 1000 ≤ d.year) :
    dayNumber (weekStartSql d) = dayNumber d - (dayNumber d - 2) % 7 := by
  unfold weekStartSql dateSub dayOfWeek getUTCDay
  rw [dayNumber_stepDays h (by omega)]
  omega

theorem dayNumber_weekStartIso {d : Date} (h : 1000 ≤ d.year) (h' : d.year ≤ 9999) :
    dayNumber (weekStartIso d) = dayNumber d - (dayNumber d - 2) % 7 := by
  rw [← weekStartSql_eq h h', dayNumber_weekStartSql h]

end SalesDashboard.PeriodAxis
