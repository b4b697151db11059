import SalesDashboard.CriticalNumber.Days
import SalesDashboard.Lib.Grouping

/-! Calendar months and the days of a period that fall into each
(`totalSpend.ts`). -/

namespace SalesDashboard.MarcomKpi
open Tachometer CriticalNumber

/-- A year and month cell. -/
structure Month where
  year : Nat
  month : Nat
  year_ge : 100 ≤ year
  month_pos : 1 ≤ month
  month_le : month ≤ 12

theorem Month.eq_iff {a b : Month} : a.year = b.year ∧ a.month = b.month ↔ a = b := by
  cases a
  cases b
  simp

instance : DecidableEq Month := fun a b =>
  decidable_of_iff (a.year = b.year ∧ a.month = b.month) Month.eq_iff

def Month.first (m : Month) : Date :=
  ⟨m.year, m.month, 1, m.year_ge, m.month_pos, m.month_le, (firstDay m.year m.month).1,
    (firstDay m.year m.month).2⟩

def Month.last (m : Month) : Date :=
  ⟨m.year, m.month, daysInMonth m.year m.month, m.year_ge, m.month_pos, m.month_le,
    (lastDay ..).1, by omega⟩

def monthOf (d : Date) : Month := ⟨d.year, d.month, d.year_ge, d.month_pos, d.month_le⟩

/-- A date from its parts, each moved into its range. -/
def dateAt (year month day : Nat) : Date :=
  have hy : 100 ≤ max 100 year := le_max_left ..
  have hm : 1 ≤ max 1 (min 12 month) ∧ max 1 (min 12 month) ≤ 12 := by omega
  have hdays := le_daysInMonth (max 100 year) (max 1 (min 12 month))
  ⟨max 100 year, max 1 (min 12 month),
    max 1 (min (daysInMonth (max 100 year) (max 1 (min 12 month))) day), hy, hm.1, hm.2, by omega, by omega⟩

/-- Active days of a period inside a calendar month, both ends inclusive. -/
def overlapDays (start stop : Date) (cell : Month) : Int :=
  let lo := max (dayNumber start) (dayNumber cell.first)
  let hi := min (dayNumber stop) (dayNumber cell.last)
  if hi < lo then 0 else hi - lo + 1

/-! ## The days of a month -/

theorem monthOf_eq_iff {d : Date} {m : Month} :
    monthOf d = m ↔ dayNumber m.first ≤ dayNumber d ∧ dayNumber d ≤ dayNumber m.last := by
  have hpos := d.day_pos
  have hle := d.day_le
  rw [dayNumber_le_iff, dayNumber_le_iff, Date.le_iff, Date.le_iff]
  cases m with
  | mk year month =>
    simp only [monthOf, Month.mk.injEq, Month.first, Month.last]
    constructor
    · rintro ⟨rfl, rfl⟩
      omega
    · intro h
      omega

theorem daysOfMonth (m : Month) :
    dayNumber m.last - dayNumber m.first + 1 = daysInMonth m.year m.month := by
  simp only [dayNumber, Month.first, Month.last]
  omega

theorem overlapDays_nonneg (start stop : Date) (m : Month) : 0 ≤ overlapDays start stop m := by
  unfold overlapDays
  simp only
  split <;> omega

theorem overlapDays_le (start stop : Date) (m : Month) :
    overlapDays start stop m ≤ daysInMonth m.year m.month := by
  have hdays := daysOfMonth m
  unfold overlapDays
  simp only
  split <;> omega

/-- The days of a period that fall into a month, counted. -/
theorem overlapDays_eq (start stop : Date) (m : Month) :
    overlapDays start stop m =
      (((eachDay ⟨start, stop⟩).filter fun d => decide (monthOf d = m)).length : Int) := by
  have hmem : ∀ d, d ∈ (eachDay ⟨start, stop⟩).filter (fun d => decide (monthOf d = m)) ↔
      max (dayNumber start) (dayNumber m.first) ≤ dayNumber d ∧
        dayNumber d ≤ min (dayNumber stop) (dayNumber m.last) := by
    intro d
    rw [List.mem_filter, mem_eachDay, decide_eq_true_eq, monthOf_eq_iff]
    simp only [DateWindow.has, Bool.and_eq_true, ← dayNumber_le_iff]
    omega
  unfold overlapDays
  simp only
  split
  · next hlt =>
    have hnone : (eachDay ⟨start, stop⟩).filter (fun d => decide (monthOf d = m)) = [] := by
      rw [List.eq_nil_iff_forall_not_mem]
      intro d hd
      rw [hmem] at hd
      omega
    rw [hnone]
    rfl
  · next hle =>
    rw [not_lt] at hle
    obtain ⟨a, ha⟩ : ∃ d, dayNumber d = max (dayNumber start) (dayNumber m.first) := by
      rcases le_total (dayNumber start) (dayNumber m.first) with h | h
      · exact ⟨m.first, (max_eq_right h).symm⟩
      · exact ⟨start, (max_eq_left h).symm⟩
    obtain ⟨b, hb⟩ : ∃ d, dayNumber d = min (dayNumber stop) (dayNumber m.last) := by
      rcases le_total (dayNumber stop) (dayNumber m.last) with h | h
      · exact ⟨stop, (min_eq_left h).symm⟩
      · exact ⟨m.last, (min_eq_right h).symm⟩
    have hperm : ((eachDay ⟨start, stop⟩).filter fun d => decide (monthOf d = m)).Perm
        (eachDay ⟨a, b⟩) := by
      refine (List.perm_ext_iff_of_nodup ((nodup_eachDay _).filter _) (nodup_eachDay _)).mpr fun d => ?_
      rw [hmem, mem_eachDay]
      simp only [DateWindow.has, Bool.and_eq_true, ← dayNumber_le_iff, ha, hb]
    rw [hperm.length_eq, length_eachDay (dayNumber_le_iff.mp (by rw [ha, hb]; exact hle))]
    unfold countCalendarDays
    simp only [ha, hb]

/-- **The days of a period, month by month.** -/
theorem sum_overlapDays {start stop : Date} (hle : start.le stop = true) {cells : List Month}
    (hcells : cells.Nodup)
    (hcover : ∀ d : Date, start.le d = true → d.le stop = true → monthOf d ∈ cells) :
    (cells.map (overlapDays start stop)).sum = dayNumber stop - dayNumber start + 1 := by
  have hall : (eachDay ⟨start, stop⟩).filter (fun d => decide (monthOf d ∈ cells)) =
      eachDay ⟨start, stop⟩ := by
    rw [List.filter_eq_self]
    intro d hd
    rw [mem_eachDay, DateWindow.has, Bool.and_eq_true] at hd
    exact decide_eq_true (hcover d hd.1 hd.2)
  have hdays := Grouping.sum_values monthOf cells hcells (eachDay ⟨start, stop⟩) fun _ => (1 : Int)
  rw [hall] at hdays
  have hcount : ∀ m, overlapDays start stop m =
      ((Grouping.rowsOf monthOf (eachDay ⟨start, stop⟩) m).map fun _ => (1 : Int)).sum := by
    intro m
    rw [overlapDays_eq]
    simp [Grouping.rowsOf]
  rw [List.map_congr_left fun m _ => hcount m, hdays]
  simp only [List.map_const', List.sum_replicate, nsmul_eq_mul, mul_one]
  exact length_eachDay hle

end SalesDashboard.MarcomKpi
