import SalesDashboard.PeriodAxis.Axis

/-! The keys of the NPS periods: in order, one for each week, month or year that a range
touches, and with the key of each of its dates. -/

namespace SalesDashboard.PeriodAxis
open Tachometer CriticalNumber MarcomKpi

/-- Keys in order without a gap, with that of each date of the range. -/
structure NpsAgrees (fromDate toDate : Date) (grain : NpsGrain) (ks : List Int) : Prop where
  increasing : ks.Pairwise (· < ·)
  consecutive : ks.IsChain fun a b => ∃ d : Date, grainExpr d grain = a ∧ grainExpr (nextDay d) grain = b
  holds : ∀ d : Date, fromDate.le d = true → d.le toDate = true → grainExpr d grain ∈ ks

theorem dateKeyOf_lt {a b : Date} (h : dayNumber a < dayNumber b) : dateKeyOf a < dateKeyOf b := by
  by_contra hle
  rw [not_lt, dateKeyOf_le_iff, ← dayNumber_le_iff] at hle
  omega

/-! ## Weeks -/

theorem grainExpr_week {s d : Date} (hs : IsStart s .week) (hd : 1000 ≤ d.year)
    (hplace : placeOf d .week = placeOf s .week) : grainExpr d .week = dateKeyOf s := by
  have hnum := dayNumber_weekStartSql hd
  simp only [placeOf] at hplace
  simp only [IsStart] at hs
  have heq : weekStartSql d = s := dayNumber_injective (by omega)
  simp only [grainExpr, heq]

section
variable {fromDate toDate : Date} (h : Valid fromDate toDate)
include h

theorem Valid.npsAgrees_week {n : Nat} (hn : (n : Int) = periodCount fromDate toDate .week) :
    NpsAgrees fromDate toDate .week ((starts .week (weekStartIso fromDate) n).map dateKeyOf) := by
  obtain ⟨hstart, hplace⟩ := @isStart_periodStart .week _ h.first.1 h.first.2
  have hagrees := h.agrees hn
  constructor
  · exact List.pairwise_map.mpr ((starts_increasing hstart n).imp fun hab => dateKeyOf_lt hab)
  · refine (List.isChain_map _).mpr ((starts_chain _ _).imp_of_mem_imp fun a b ha _ hab => ?_)
    obtain ⟨ha', hlo, -⟩ := hstart.mem_starts.mp ha
    have hsix := dayNumber_stepDays_ahead a 6
    have hnext := dayNumber_nextDay (stepDays a 6)
    have hseven := dayNumber_stepDays_ahead a 7
    push_cast at hsix hseven
    simp only [followingStart] at hab
    -- the last day of the week of the first date is not before that date
    have hfrom : dayNumber fromDate ≤ dayNumber (stepDays a 6) := by
      simp only [placeOf] at hlo hplace
      simp only [IsStart] at ha'
      omega
    have hyear := h.year_ge.trans (year_le_of_le hfrom)
    have hb : nextDay (stepDays a 6) = b := by
      rw [hab]
      exact dayNumber_injective (by omega)
    have hfollow := ha'.following
    refine ⟨stepDays a 6, grainExpr_week ha' hyear ?_, ?_⟩
    · simp only [IsStart] at ha'
      simp only [placeOf]
      omega
    · have hbyear : 1000 ≤ b.year := hyear.trans (year_le_of_le (by rw [← hb]; omega))
      rw [hb]
      refine grainExpr_week ?_ hbyear rfl
      rw [hab]
      exact hfollow.1
  · intro d hfrom hto
    obtain ⟨p, hp, -, hkey, -⟩ := hagrees.holds d hfrom hto
    obtain ⟨s, hs, rfl⟩ := List.mem_map.mp hp
    simp only at hkey
    exact List.mem_map.mpr ⟨s, hs, congrArg dateKeyOf hkey⟩

end

/-! ## Months -/

theorem grainExpr_month (d : Date) : grainExpr d .month = d.year * 100 + d.month := by
  have hday := d.day_pos
  have hle := d.day_le
  have hmonth := daysInMonth_le d.year d.month
  simp only [grainExpr, dateKeyOf]
  omega

theorem grainExpr_year (d : Date) : grainExpr d .year = d.year := by
  have hday := d.day_pos
  have hle := d.day_le
  have hmonth := daysInMonth_le d.year d.month
  have hm := d.month_le
  simp only [grainExpr, dateKeyOf]
  omega

/-- The last day of a month, and that of the next month after it. -/
theorem exists_lastDay {y m : Nat} (hy : 100 ≤ y) (hm : 1 ≤ m ∧ m ≤ 12) :
    ∃ d : Date, grainExpr d .month = (y * 100 + m : Nat) ∧ grainExpr (nextDay d) .month =
      (if 12 < m + 1 then (y + 1) * 100 + 1 else y * 100 + (m + 1) : Nat) := by
  refine ⟨lastOf y m hy ⟨hm.2, hm.1⟩, by rw [grainExpr_month]; push_cast; rfl, ?_⟩
  by_cases h : m < 12
  · rw [if_neg (by omega), nextDay_lastOf hy ⟨hm.2, hm.1⟩ h, grainExpr_month]
    push_cast
    rfl
  · obtain rfl : m = 12 := by omega
    rw [if_pos (by decide), nextDay_lastOf_december hy, grainExpr_month]
    push_cast
    rfl

theorem mem_listMonths {stop fuel y m : Nat} (hm : 1 ≤ m ∧ m ≤ 12) {x : Int} :
    x ∈ listMonths stop fuel y m ↔ ∃ y' m' : Nat, 1 ≤ m' ∧ m' ≤ 12 ∧ x = y' * 100 + m' ∧
      y * 100 + m ≤ y' * 100 + m' ∧ y' * 100 + m' ≤ stop ∧ y' * 12 + m' < y * 12 + m + fuel := by
  induction fuel generalizing y m with
  | zero =>
    simp only [listMonths, List.not_mem_nil, false_iff]
    rintro ⟨y', m', -, -, -, hle, -, hlt⟩
    omega
  | succ fuel ih =>
    unfold listMonths
    by_cases hstop : y * 100 + m ≤ stop
    · rw [if_pos hstop, List.mem_cons]
      constructor
      · rintro (rfl | hx)
        · exact ⟨y, m, hm.1, hm.2, by push_cast; rfl, Nat.le_refl _, hstop, by omega⟩
        · split at hx
          · obtain ⟨y', m', h1, h2, rfl, hle, hs, hlt⟩ := (ih ⟨by omega, by omega⟩).mp hx
            exact ⟨y', m', h1, h2, rfl, by omega, hs, by omega⟩
          · obtain ⟨y', m', h1, h2, rfl, hle, hs, hlt⟩ := (ih ⟨by omega, by omega⟩).mp hx
            exact ⟨y', m', h1, h2, rfl, by omega, hs, by omega⟩
      · rintro ⟨y', m', h1, h2, rfl, hle, hs, hlt⟩
        by_cases hhere : y' * 100 + m' = y * 100 + m
        · exact .inl (by exact_mod_cast hhere)
        · refine .inr ?_
          split
          · exact (ih ⟨by omega, by omega⟩).mpr ⟨y', m', h1, h2, rfl, by omega, hs, by omega⟩
          · exact (ih ⟨by omega, by omega⟩).mpr ⟨y', m', h1, h2, rfl, by omega, hs, by omega⟩
    · rw [if_neg hstop]
      simp only [List.not_mem_nil, false_iff]
      rintro ⟨y', m', -, -, -, hle, hs, -⟩
      omega

theorem listMonths_increasing {stop fuel y m : Nat} (hm : 1 ≤ m ∧ m ≤ 12) :
    (listMonths stop fuel y m).Pairwise (· < ·) := by
  induction fuel generalizing y m with
  | zero => exact .nil
  | succ fuel ih =>
    unfold listMonths
    split
    · split
      · refine .cons (fun x hx => ?_) (ih ⟨by omega, by omega⟩)
        obtain ⟨y', m', -, -, rfl, hle, -⟩ := (mem_listMonths ⟨by omega, by omega⟩).mp hx
        omega
      · refine .cons (fun x hx => ?_) (ih ⟨by omega, by omega⟩)
        obtain ⟨y', m', -, -, rfl, hle, -⟩ := (mem_listMonths ⟨by omega, by omega⟩).mp hx
        omega
    · exact .nil

theorem listMonths_head {stop fuel y m : Nat} {x : Int} (h : (listMonths stop fuel y m).head? = some x) :
    x = (y * 100 + m : Nat) := by
  cases fuel with
  | zero => cases h
  | succ fuel =>
    unfold listMonths at h
    split at h
    · exact (Option.some.inj h).symm
    · cases h

theorem listMonths_consecutive {stop fuel y m : Nat} (hy : 100 ≤ y) (hm : 1 ≤ m ∧ m ≤ 12) :
    (listMonths stop fuel y m).IsChain fun a b =>
      ∃ d : Date, grainExpr d .month = a ∧ grainExpr (nextDay d) .month = b := by
  induction fuel generalizing y m with
  | zero => exact .nil
  | succ fuel ih =>
    obtain ⟨d, hd, hnext⟩ := exists_lastDay hy hm
    unfold listMonths
    split
    · split
      · next h12 =>
        rw [if_pos h12] at hnext
        refine List.isChain_cons.mpr ⟨fun x hx => ⟨d, hd, ?_⟩, ih (by omega) ⟨by omega, by omega⟩⟩
        rw [hnext, listMonths_head hx]
      · next h12 =>
        rw [if_neg h12] at hnext
        refine List.isChain_cons.mpr ⟨fun x hx => ⟨d, hd, ?_⟩, ih hy ⟨by omega, by omega⟩⟩
        rw [hnext, listMonths_head hx]
    · exact .nil

theorem npsAgrees_month (fromDate toDate : Date) : NpsAgrees fromDate toDate .month
    (npsPeriodsBetween fromDate toDate .month) := by
  have hm := fromDate.month_bounds
  refine ⟨listMonths_increasing hm, listMonths_consecutive fromDate.year_ge hm, fun d hfrom hto => ?_⟩
  rw [Date.le_iff] at hfrom hto
  have hd := d.month_le
  have ht := toDate.month_le
  refine (mem_listMonths hm).mpr ⟨d.year, d.month, d.month_pos, d.month_le, grainExpr_month d, ?_, ?_, ?_⟩
  · omega
  · omega
  · omega

/-! ## Years -/

theorem npsAgrees_year (fromDate toDate : Date) : NpsAgrees fromDate toDate .year
    (npsPeriodsBetween fromDate toDate .year) := by
  have hge := fromDate.year_ge
  unfold npsPeriodsBetween listYears
  constructor
  · refine List.pairwise_map.mpr (List.pairwise_lt_range.imp fun hab => ?_)
    omega
  · refine (List.isChain_map _).mpr ((List.isChain_range _ _).mpr fun n _ => ?_)
    obtain ⟨d, hd, hnext⟩ := exists_lastDay (y := fromDate.year + n) (m := 12) (by omega) (by decide)
    rw [if_pos (by decide)] at hnext
    rw [grainExpr_month] at hd hnext
    have hm := d.month_le
    have hm' := d.month_pos
    have hnextLe := (nextDay d).month_le
    have hnextPos := (nextDay d).month_pos
    refine ⟨d, ?_, ?_⟩
    · rw [grainExpr_year]
      omega
    · rw [grainExpr_year]
      omega
  · intro d hfrom hto
    rw [Date.le_iff] at hfrom hto
    rw [grainExpr_year]
    exact List.mem_map.mpr ⟨d.year - fromDate.year, List.mem_range.mpr (by omega), by push_cast; omega⟩

end SalesDashboard.PeriodAxis
