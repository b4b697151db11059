import SalesDashboard.Tachometer.Dates
import Mathlib

/-! The days of a window, one after the other (`criticalNumber.ts`). Dates have four
digits for the year, so their texts sort as the dates do, and stand here as the dates. -/

namespace SalesDashboard.CriticalNumber
open Tachometer

/-! ## Day numbers -/

/-- Days of the calendar before a year. -/
def daysBeforeYear (year : Nat) : Nat :=
  365 * (year - 1) + (year - 1) / 4 - (year - 1) / 100 + (year - 1) / 400

/-- Days of a year before a month. -/
def daysBeforeMonth (year month : Nat) : Nat :=
  ((List.range (month - 1)).map fun m => daysInMonth year (m + 1)).sum

/-- `getTime()` in days; day 0 is 1 January 1970. -/
def dayNumber (d : Date) : Int :=
  daysBeforeYear d.year + daysBeforeMonth d.year d.month + d.day - 1 - 719162

def getUTCDay (d : Date) : Int := (dayNumber d + 4) % 7

def isFriday (d : Date) : Bool := getUTCDay d = 5

theorem daysInMonth_le (year month : Nat) : daysInMonth year month ≤ 31 := by
  unfold daysInMonth
  repeat' split
  all_goals omega

theorem daysBeforeMonth_succ (year : Nat) {month : Nat} (h : 1 ≤ month) :
    daysBeforeMonth year (month + 1) = daysBeforeMonth year month + daysInMonth year month := by
  unfold daysBeforeMonth
  obtain ⟨m, rfl⟩ : ∃ m, month = m + 1 := ⟨month - 1, by omega⟩
  simp [List.range_succ]

theorem daysBeforeMonth_lt (year : Nat) {m m' : Nat} (hm : 1 ≤ m) (h : m < m') :
    daysBeforeMonth year m + daysInMonth year m ≤ daysBeforeMonth year m' := by
  induction m', h using Nat.le_induction with
  | base => exact (daysBeforeMonth_succ year hm).ge
  | succ n hn ih =>
    have hstep := daysBeforeMonth_succ year (by omega : 1 ≤ n)
    omega

theorem daysBeforeMonth_thirteen {year : Nat} (h : 100 ≤ year) :
    daysBeforeMonth year 13 = if isLeapYear year then 366 else 365 := by
  have hfeb : daysInMonth year 2 = if isLeapYear year then 29 else 28 := by
    simp [daysInMonth, utcYear_of_ge h]
  have hmonths : daysBeforeMonth year 13 = 337 + daysInMonth year 2 := by
    simp only [daysBeforeMonth, List.range_succ, List.range_zero, List.map_append, List.map_cons,
      List.map_nil, List.sum_append, List.sum_cons, List.sum_nil, Nat.reduceAdd, Nat.reduceSub,
      List.nil_append, hfeb]
    simp only [daysInMonth, reduceIte, Nat.reduceEqDiff, or_true, or_false]
    omega
  rw [hmonths, hfeb]
  split <;> rfl

theorem daysBeforeYear_succ {year : Nat} (h : 100 ≤ year) :
    daysBeforeYear (year + 1) = daysBeforeYear year + daysBeforeMonth year 13 := by
  rw [daysBeforeMonth_thirteen h]
  obtain ⟨y, rfl⟩ : ∃ y, year = y + 1 := ⟨year - 1, by omega⟩
  unfold daysBeforeYear
  have hleap : isLeapYear (y + 1) = true ↔
      (y + 1) % 4 = 0 ∧ (y + 1) % 100 ≠ 0 ∨ (y + 1) % 400 = 0 := by
    simp [isLeapYear]
  have h4 : (y + 1) / 4 = _ := Nat.succ_div
  have h100 : (y + 1) / 100 = _ := Nat.succ_div
  have h400 : (y + 1) / 400 = _ := Nat.succ_div
  have hle : y / 100 ≤ y / 4 := Nat.div_le_div_left (by omega) (by omega)
  have hle' : (y + 1) / 100 ≤ (y + 1) / 4 := Nat.div_le_div_left (by omega) (by omega)
  simp only [Nat.dvd_iff_mod_eq_zero] at h4 h100 h400
  simp only [Nat.add_sub_cancel, hleap]
  have hmod : (y + 1) % 400 = 0 → (y + 1) % 100 = 0 := fun h => by omega
  have hmod' : (y + 1) % 100 = 0 → (y + 1) % 4 = 0 := fun h => by omega
  generalize (y + 1) / 4 = a at *
  generalize (y + 1) / 100 = b at *
  generalize (y + 1) / 400 = c at *
  split at h4 <;> split at h100 <;> split at h400 <;> simp_all <;> omega

theorem daysBeforeYear_lt {y y' : Nat} (hy : 100 ≤ y) (h : y < y') :
    daysBeforeYear y + daysBeforeMonth y 13 ≤ daysBeforeYear y' := by
  induction y', h using Nat.le_induction with
  | base => exact (daysBeforeYear_succ hy).ge
  | succ n hn ih =>
    have hstep := daysBeforeYear_succ (by omega : 100 ≤ n)
    omega

theorem dayNumber_lt {a b : Date} (h : ¬ b.le a = true) : dayNumber a < dayNumber b := by
  rw [Date.le_iff] at h
  have ha := a.day_le
  have hb := b.day_pos
  unfold dayNumber
  rcases Nat.lt_trichotomy a.year b.year with hyear | hyear | hyear
  · have hmonth := daysBeforeMonth_lt a.year a.month_pos (by have := a.month_le; omega : a.month < 13)
    have := daysBeforeYear_lt a.year_ge hyear
    omega
  · rcases Nat.lt_trichotomy a.month b.month with hmonth | hmonth | hmonth
    · have := daysBeforeMonth_lt a.year a.month_pos hmonth
      rw [← hyear]
      omega
    · rw [← hyear, ← hmonth]
      omega
    · omega
  · omega

theorem Date.le_total (a b : Date) : a.le b = true ∨ b.le a = true := by
  simp only [Date.le_iff]
  omega

theorem Date.le_antisymm {a b : Date} (hab : a.le b = true) (hba : b.le a = true) : a = b := by
  rw [Date.le_iff] at hab hba
  cases a
  cases b
  simp only [Date.mk.injEq] at *
  omega

theorem dayNumber_le_iff {a b : Date} : dayNumber a ≤ dayNumber b ↔ a.le b = true := by
  constructor
  · intro h
    by_contra hle
    have := dayNumber_lt hle
    omega
  · intro h
    by_cases hba : b.le a = true
    · rw [Date.le_antisymm h hba]
    · exact (dayNumber_lt hba).le

theorem dayNumber_injective {a b : Date} (h : dayNumber a = dayNumber b) : a = b :=
  Date.le_antisymm (dayNumber_le_iff.mp h.le) (dayNumber_le_iff.mp h.ge)

/-! ## From day to day -/

/-- `addDaysUTC(d, 1)`. -/
def nextDay (d : Date) : Date :=
  if hd : d.day < daysInMonth d.year d.month then
    ⟨d.year, d.month, d.day + 1, d.year_ge, d.month_pos, d.month_le, by omega, hd⟩
  else if hm : d.month < 12 then
    ⟨d.year, d.month + 1, 1, d.year_ge, by omega, hm, by omega, (firstDay ..).2⟩
  else
    ⟨d.year + 1, 1, 1, by have := d.year_ge; omega, by omega, by omega, by omega, (firstDay ..).2⟩

theorem dayNumber_nextDay (d : Date) : dayNumber (nextDay d) = dayNumber d + 1 := by
  have hday := d.day_le
  have hmonth := daysBeforeMonth_succ d.year d.month_pos
  unfold nextDay
  split
  · simp only [dayNumber]
    omega
  · split
    · simp only [dayNumber]
      omega
    · next hm =>
      have hdec : d.month = 12 := by
        have := d.month_le
        omega
      have hend : daysBeforeMonth d.year 13 = _ := hdec ▸ hmonth
      have hyear := daysBeforeYear_succ d.year_ge
      have hjan : daysBeforeMonth (d.year + 1) 1 = 0 := rfl
      simp only [dayNumber, hdec, hjan] at *
      omega

theorem dayNumber_iterate (d : Date) (n : Nat) : dayNumber (nextDay^[n] d) = dayNumber d + n := by
  induction n with
  | zero => simp
  | succ n ih =>
    rw [Function.iterate_succ_apply', dayNumber_nextDay, ih]
    omega

def countCalendarDays (window : DateWindow) : Int :=
  dayNumber window.stop - dayNumber window.start + 1

/-- The turns of `for (cur = start; cur <= end; cur = addDaysUTC(cur, 1))`. -/
def eachDay (window : DateWindow) : List Date :=
  List.iterate nextDay window.start (countCalendarDays window).toNat

theorem mem_eachDay {window : DateWindow} {d : Date} :
    d ∈ eachDay window ↔ window.has d = true := by
  unfold eachDay countCalendarDays DateWindow.has
  rw [List.mem_iterate, Bool.and_eq_true, ← dayNumber_le_iff, ← dayNumber_le_iff]
  constructor
  · rintro ⟨n, hn, rfl⟩
    rw [dayNumber_iterate]
    omega
  · rintro ⟨hstart, hstop⟩
    refine ⟨(dayNumber d - dayNumber window.start).toNat, by omega, dayNumber_injective ?_⟩
    rw [dayNumber_iterate]
    omega

/-- The days come in order. -/
theorem eachDay_sorted (window : DateWindow) :
    (eachDay window).Pairwise fun a b => dayNumber a < dayNumber b := by
  unfold eachDay
  generalize (countCalendarDays window).toNat = n
  rw [List.pairwise_iff_getElem]
  intro i j hi hj hij
  rw [List.getElem_iterate, List.getElem_iterate, dayNumber_iterate, dayNumber_iterate]
  omega

theorem nodup_eachDay (window : DateWindow) : (eachDay window).Nodup :=
  (eachDay_sorted window).imp fun h heq => by
    rw [heq] at h
    omega

theorem length_eachDay {window : DateWindow} (h : window.start.le window.stop = true) :
    ((eachDay window).length : Int) = countCalendarDays window := by
  have hle := dayNumber_le_iff.mpr h
  unfold eachDay countCalendarDays
  rw [List.length_iterate]
  omega

/-! ## Date keys -/

/-- `YYYYMMDD` as a number. -/
def dateKeyOf (d : Date) : Int := d.year * 10000 + d.month * 100 + d.day

theorem dateKeyOf_le_iff {a b : Date} : dateKeyOf a ≤ dateKeyOf b ↔ a.le b = true := by
  have ha := daysInMonth_le a.year a.month
  have hb := daysInMonth_le b.year b.month
  have ha' := a.day_le
  have hb' := b.day_le
  have ham := a.month_le
  have hbm := b.month_le
  have had := a.day_pos
  have hbd := b.day_pos
  rw [Date.le_iff]
  unfold dateKeyOf
  omega

theorem dateKeyOf_injective {a b : Date} (h : dateKeyOf a = dateKeyOf b) : a = b :=
  Date.le_antisymm (dateKeyOf_le_iff.mp h.le) (dateKeyOf_le_iff.mp h.ge)

end SalesDashboard.CriticalNumber
