import Mathlib

/-! Dates, date windows and proration (`filters.ts`). A date is a day of the calendar,
in UTC; `Date.UTC` takes the years below 100 for those of the last century, so no date
has one. -/

namespace SalesDashboard.Tachometer

/-- The year `Date.UTC` makes of one. -/
def utcYear (year : Nat) : Nat := if year < 100 then 1900 + year else year

def isLeapYear (year : Nat) : Bool := (year % 4 = 0 && year % 100 ≠ 0) || year % 400 = 0

/-- Day 0 of the next month. -/
def daysInMonth (year month : Nat) : Nat :=
  if month = 2 then (if isLeapYear (utcYear year) then 29 else 28)
  else if month = 4 ∨ month = 6 ∨ month = 9 ∨ month = 11 then 30
  else 31

structure Date where
  year : Nat
  month : Nat
  day : Nat
  year_ge : 100 ≤ year
  month_pos : 1 ≤ month
  month_le : month ≤ 12
  day_pos : 1 ≤ day
  day_le : day ≤ daysInMonth year month
  deriving DecidableEq

def Date.le (a b : Date) : Bool :=
  a.year < b.year || (a.year = b.year && (a.month < b.month || (a.month = b.month && a.day ≤ b.day)))

def Date.lt (a b : Date) : Bool := ! b.le a

theorem Date.month_bounds (d : Date) : 1 ≤ d.month ∧ d.month ≤ 12 := ⟨d.month_pos, d.month_le⟩

theorem january_bounds : 1 ≤ 1 ∧ 1 ≤ 12 := by decide

theorem march_bounds : 1 ≤ 3 ∧ 3 ≤ 12 := by decide

theorem december_bounds : 1 ≤ 12 ∧ 12 ≤ 12 := by decide

theorem Date.le_iff {a b : Date} : a.le b = true ↔
    a.year < b.year ∨ a.year = b.year ∧ (a.month < b.month ∨ a.month = b.month ∧ a.day ≤ b.day) := by
  simp [Date.le]

theorem utcYear_ge (year : Nat) : 100 ≤ utcYear year := by
  unfold utcYear
  split <;> omega

theorem utcYear_of_ge {year : Nat} (h : 100 ≤ year) : utcYear year = year := if_neg (by omega)

theorem daysInMonth_utcYear (year month : Nat) :
    daysInMonth (utcYear year) month = daysInMonth year month := by
  unfold daysInMonth
  rw [utcYear_of_ge (utcYear_ge year)]

theorem le_daysInMonth (year month : Nat) : 28 ≤ daysInMonth year month := by
  unfold daysInMonth
  repeat' split
  all_goals omega

def dateOnlyUTC (year month day : Nat) (hm : 1 ≤ month ∧ month ≤ 12)
    (hd : 1 ≤ day ∧ day ≤ daysInMonth year month) : Date :=
  ⟨utcYear year, month, day, utcYear_ge year, hm.1, hm.2, hd.1, by
    rw [daysInMonth_utcYear]
    exact hd.2⟩

/-! ## Windows -/

structure DateWindow where
  start : Date
  stop : Date
  deriving DecidableEq

/-- `BETWEEN start AND end`. -/
def DateWindow.has (window : DateWindow) (d : Date) : Bool := window.start.le d && d.le window.stop

theorem firstDay (year month : Nat) : 1 ≤ 1 ∧ 1 ≤ daysInMonth year month := by
  have := le_daysInMonth year month
  omega

theorem lastDay (year month : Nat) :
    1 ≤ daysInMonth year month ∧ daysInMonth year month ≤ daysInMonth year month := by
  have := le_daysInMonth year month
  omega

def mtdWindow (anchor : Date) : DateWindow :=
  ⟨dateOnlyUTC anchor.year anchor.month 1 anchor.month_bounds (firstDay ..), anchor⟩

def ytdWindow (anchor : Date) : DateWindow :=
  ⟨dateOnlyUTC anchor.year 1 1 (by decide) (firstDay ..), anchor⟩

theorem day_le_other {year year' month day : Nat} (h : day ≤ daysInMonth year month)
    (hleap : ¬ (month = 2 ∧ day = 29 ∧ daysInMonth year' 2 < 29)) : day ≤ daysInMonth year' month := by
  unfold daysInMonth at *
  by_cases hm : month = 2
  · subst hm
    simp only [if_true] at *
    split at h <;> split at hleap <;> split <;> simp_all <;> omega
  · simp only [hm, if_false] at *
    exact h

/-- The same day of the year before; 29 February may become the 28th. -/
def shiftOneYearBack (anchor : Date) : Date :=
  if h : anchor.month = 2 ∧ anchor.day = 29 ∧ daysInMonth (anchor.year - 1) 2 < 29 then
    dateOnlyUTC (anchor.year - 1) 2 28 (by decide) ⟨by decide, le_daysInMonth ..⟩
  else
    dateOnlyUTC (anchor.year - 1) anchor.month anchor.day anchor.month_bounds
      ⟨anchor.day_pos, day_le_other anchor.day_le h⟩

def monthBounds (d : Date) : DateWindow :=
  ⟨dateOnlyUTC d.year d.month 1 d.month_bounds (firstDay ..),
    dateOnlyUTC d.year d.month (daysInMonth d.year d.month) d.month_bounds (lastDay ..)⟩

/-- Both from `lastYearMonthWindows`. -/
def lmtdWindow (anchor : Date) : DateWindow :=
  let sameDay := shiftOneYearBack anchor
  ⟨(monthBounds sameDay).start, sameDay⟩

def flmWindow (anchor : Date) : DateWindow := monthBounds (shiftOneYearBack anchor)

def lytdWindow (anchor : Date) : DateWindow := ytdWindow (shiftOneYearBack anchor)

def flyWindow (anchor : Date) : DateWindow :=
  ⟨dateOnlyUTC (anchor.year - 1) 1 1 (by decide) (firstDay ..),
    dateOnlyUTC (anchor.year - 1) 12 31 (by decide) (by simp [daysInMonth])⟩

/-- One month, up to the anchor. -/
def monthWindow (year month : Nat) (hm : 1 ≤ month ∧ month ≤ 12) (anchor : Date) : DateWindow :=
  let naturalEnd := dateOnlyUTC year month (daysInMonth year month) hm (lastDay ..)
  ⟨dateOnlyUTC year month 1 hm (firstDay ..), if naturalEnd.lt anchor then naturalEnd else anchor⟩

/-! ## Proration -/

def monthElapsedFraction (anchor : Date) : ℚ := anchor.day / daysInMonth anchor.year anchor.month

def prorateMtdTarget (fmTarget : Option ℚ) (anchor : Date) : Option ℚ :=
  fmTarget.map (· * monthElapsedFraction anchor)

def prorateYtdTarget (completedMonthsTargetSum fmTargetCurrentMonth : Option ℚ) (anchor : Date) :
    Option ℚ :=
  if completedMonthsTargetSum = none ∧ fmTargetCurrentMonth = none then none
  else some (completedMonthsTargetSum.getD 0 + (prorateMtdTarget fmTargetCurrentMonth anchor).getD 0)

/-! ## The months of a year to date -/

theorem ytdWindow_has {anchor d : Date} :
    (ytdWindow anchor).has d = true ↔ d.year = anchor.year ∧ d.le anchor = true := by
  have hd := d.day_pos
  have hm := d.month_pos
  simp only [ytdWindow, DateWindow.has, Bool.and_eq_true, Date.le_iff, dateOnlyUTC,
    utcYear_of_ge anchor.year_ge]
  omega

theorem monthWindow_has {anchor d : Date} {m : Nat} (hm : 1 ≤ m ∧ m ≤ 12) (hle : m ≤ anchor.month) :
    (monthWindow anchor.year m hm anchor).has d = true ↔
      (ytdWindow anchor).has d = true ∧ d.month = m := by
  have hd := d.day_pos
  have hdle := d.day_le
  rw [ytdWindow_has]
  unfold monthWindow DateWindow.has
  dsimp only
  rw [Bool.and_eq_true]
  split
  · next h =>
    have h : ¬ anchor.le (dateOnlyUTC anchor.year m (daysInMonth anchor.year m) hm (lastDay ..)) = true := by
      simpa [Date.lt] using h
    rw [Date.le_iff] at h
    simp only [Date.le_iff, dateOnlyUTC, utcYear_of_ge anchor.year_ge, true_and] at *
    constructor
    · intro hin
      omega
    · rintro ⟨⟨hyear, -⟩, rfl⟩
      rw [hyear] at hdle
      omega
  · next h =>
    have h : anchor.le (dateOnlyUTC anchor.year m (daysInMonth anchor.year m) hm (lastDay ..)) = true := by
      simpa [Date.lt] using h
    simp only [Date.le_iff, dateOnlyUTC, utcYear_of_ge anchor.year_ge, true_and] at *
    omega

end SalesDashboard.Tachometer
