import SalesDashboard.CriticalNumber.Days
import SalesDashboard.Lib.Numerals

/-! Wall-clock times as the follow-up cases keep them (`npsFollowupService.ts`): texts
"yyyy-mm-dd hh:mm:ss", compared as texts and made instants by `Date.parse`. -/

namespace SalesDashboard.NpsFollowup.Service
open Tachometer CriticalNumber Numerals

/-! ## The texts -/

/-- A text "yyyy-mm-dd hh:mm:ss", as its numbers. -/
structure Wall where
  year : Fin 10000
  month : Fin 100
  day : Fin 100
  hour : Fin 100
  minute : Fin 100
  second : Fin 100
  deriving DecidableEq

def Wall.numbers (w : Wall) : Nat :=
  ((((w.year * 100 + w.month) * 100 + w.day) * 100 + w.hour) * 100 + w.minute) * 100 + w.second

/-- The order of the texts: their digits stand in the same places. -/
def Wall.le (a b : Wall) : Bool := a.numbers ≤ b.numbers

def Wall.lt (a b : Wall) : Bool := a.numbers < b.numbers

/-- `slice(0, 16)`. -/
def Wall.minutes (w : Wall) : String :=
  String.ofList (padded 4 w.year ++ '-' :: padded 2 w.month ++ '-' :: padded 2 w.day ++
    ' ' :: padded 2 w.hour ++ ':' :: padded 2 w.minute)

def digit (c : Char) : Option (Fin 10) :=
  if h : 48 ≤ c.toNat ∧ c.toNat < 58 then some ⟨c.toNat - 48, by omega⟩ else none

/-- So many digits, and what follows them. -/
def digits : (n : Nat) → List Char → Option (Fin (10 ^ n) × List Char)
  | 0, cs => some (⟨0, by omega⟩, cs)
  | _ + 1, [] => none
  | n + 1, c :: cs => do
      let first ← digit c
      let (rest, left) ← digits n cs
      some (⟨first * 10 ^ n + rest, by
        have hfirst : first.val * 10 ^ n ≤ 9 * 10 ^ n := Nat.mul_le_mul_right _ (by omega)
        have hrest := rest.isLt
        rw [pow_succ]
        omega⟩, left)

/-- One of some characters. -/
def mark (allowed : List Char) : List Char → Option (List Char)
  | [] => none
  | c :: cs => if c ∈ allowed then some cs else none

/-- The texts that `WALL_RE` takes; without seconds these are 00. -/
def wallText (cs : List Char) : Option Wall := do
  let (year, cs) ← digits 4 cs
  let cs ← mark ['-'] cs
  let (month, cs) ← digits 2 cs
  let cs ← mark ['-'] cs
  let (day, cs) ← digits 2 cs
  let cs ← mark [' ', 'T'] cs
  let (hour, cs) ← digits 2 cs
  let cs ← mark [':'] cs
  let (minute, cs) ← digits 2 cs
  let cs ← mark [':'] (if cs = [] then [':', '0', '0'] else cs)
  let (second, cs) ← digits 2 cs
  if cs = [] then some ⟨year, month, day, hour, minute, second⟩ else none

/-! ## The instants -/

/-- What `Date.parse` reads: any day up to 31 of any month, and 24:00:00. -/
def Wall.Readable (w : Wall) : Prop :=
  (1 ≤ w.month.val ∧ w.month.val ≤ 12) ∧ (1 ≤ w.day.val ∧ w.day.val ≤ 31) ∧
    (w.hour.val ≤ 23 ∧ w.minute.val ≤ 59 ∧ w.second.val ≤ 59 ∨
      w.hour.val = 24 ∧ w.minute.val = 0 ∧ w.second.val = 0)

instance (w : Wall) : Decidable w.Readable :=
  inferInstanceAs (Decidable ((1 ≤ w.month.val ∧ w.month.val ≤ 12) ∧ (1 ≤ w.day.val ∧ w.day.val ≤ 31) ∧
    (w.hour.val ≤ 23 ∧ w.minute.val ≤ 59 ∧ w.second.val ≤ 59 ∨
      w.hour.val = 24 ∧ w.minute.val = 0 ∧ w.second.val = 0)))

/-- Days since 1970; the calendar repeats itself after 400 years of 146097 days. A day
that the month lacks is one of the next month. -/
def Wall.days (w : Wall) : Int :=
  daysBeforeYear (w.year + 400) + daysBeforeMonth (w.year + 400) w.month + w.day - 1 - 719162 - 146097

def Wall.seconds (w : Wall) : Int := ((w.days * 24 + w.hour) * 60 + w.minute) * 60 + w.second

/-- `wall`, in seconds. -/
def wall (w : Wall) : Option Int := if w.Readable then some w.seconds else none

/-- `hoursBetween`; not a number where either time cannot be read. -/
def hoursBetween (fromTime toTime : Wall) : Option ℚ := do
  some (((← wall toTime) - (← wall fromTime) : ℤ) / 3600)

/-- A time of the calendar, as the clock and the database give them. -/
def Wall.Calendar (w : Wall) : Prop :=
  (1 ≤ w.month.val ∧ w.month.val ≤ 12) ∧
    (1 ≤ w.day.val ∧ w.day.val ≤ daysInMonth (w.year + 400) w.month) ∧
    w.hour.val ≤ 23 ∧ w.minute.val ≤ 59 ∧ w.second.val ≤ 59

instance (w : Wall) : Decidable w.Calendar :=
  inferInstanceAs (Decidable ((1 ≤ w.month.val ∧ w.month.val ≤ 12) ∧
    (1 ≤ w.day.val ∧ w.day.val ≤ daysInMonth (w.year + 400) w.month) ∧
    w.hour.val ≤ 23 ∧ w.minute.val ≤ 59 ∧ w.second.val ≤ 59))

structure Clock where
  time : Wall
  calendar : time.Calendar
  deriving DecidableEq

theorem Wall.Calendar.readable {w : Wall} (h : w.Calendar) : w.Readable := by
  obtain ⟨hmonth, ⟨hday, hlast⟩, hour, hminute, hsecond⟩ := h
  exact ⟨hmonth, ⟨hday, hlast.trans (daysInMonth_le _ _)⟩, .inl ⟨hour, hminute, hsecond⟩⟩

theorem Wall.not_lt_iff {a b : Wall} : ¬ b.lt a = true ↔ a.le b = true := by
  simp [Wall.lt, Wall.le]

/-- The digits of two texts, from the left. -/
theorem Wall.le_iff {a b : Wall} : a.le b = true ↔
    (a.year.val < b.year.val ∨ a.year = b.year ∧ a.month.val < b.month.val) ∨
    (a.year = b.year ∧ a.month = b.month) ∧
      (a.day.val < b.day.val ∨ a.day = b.day ∧
        (a.hour.val * 100 + a.minute.val) * 100 + a.second.val ≤
          (b.hour.val * 100 + b.minute.val) * 100 + b.second.val) := by
  unfold Wall.le
  rw [decide_eq_true_eq]
  unfold Wall.numbers
  simp only [Fin.ext_iff]
  omega

/-- The days of a month lie before those of any later month. -/
theorem days_before {y y' m m' : Nat} (hy : 100 ≤ y) (hm : 1 ≤ m ∧ m ≤ 12)
    (h : y < y' ∨ y = y' ∧ m < m') :
    daysBeforeYear y + daysBeforeMonth y m + daysInMonth y m ≤ daysBeforeYear y' + daysBeforeMonth y' m' := by
  rcases h with hlt | ⟨rfl, hlt⟩
  · have hyear := daysBeforeYear_lt hy hlt
    have hmonth := daysBeforeMonth_lt y hm.1 (by omega : m < 13)
    omega
  · have hmonth := daysBeforeMonth_lt y hm.1 hlt
    omega

/-- From a time of the calendar on, later texts are later instants. -/
theorem Wall.Calendar.seconds_le {a b : Wall} (ha : a.Calendar) (hb : b.Readable) (h : a.le b = true) :
    a.seconds ≤ b.seconds := by
  obtain ⟨hmonth, hday, hour, hminute, hsecond⟩ := ha
  obtain ⟨-, hbday, hbtime⟩ := hb
  unfold Wall.seconds Wall.days
  rcases Wall.le_iff.mp h with hbefore | ⟨⟨hy, hm⟩, hrest⟩
  · have hdays := @days_before (a.year + 400) (b.year + 400) a.month b.month (by omega) hmonth (by
      rcases hbefore with hlt | ⟨heq, hlt⟩
      · exact .inl (by omega)
      · exact .inr ⟨by rw [heq], hlt⟩)
    omega
  · rw [hy, hm]
    rcases hrest with hlt | ⟨heq, htime⟩
    · omega
    · rw [heq]
      omega

end SalesDashboard.NpsFollowup.Service
