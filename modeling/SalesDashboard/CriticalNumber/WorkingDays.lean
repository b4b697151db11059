import SalesDashboard.CriticalNumber.Measures
import SalesDashboard.Lib.Counts

/-! The working days of a window, as listed and as counted: the list is of the days
that are neither Fridays nor holidays, while the count subtracts a day for each row of a
holiday. -/

namespace SalesDashboard.CriticalNumber
open DataScope Grouping Keyed Tachometer

/-! ## Holidays of a day -/

/-- Whether a stored holiday falls on a day. -/
def OfficialHoliday.fallsOn (r : OfficialHoliday) (d : Date) : Bool :=
  decide ((if r.recurring then inYear d.year r.holidayDate else r.holidayDate) = d)

/-- The active holidays in scope that fall on a day. -/
def holidaysOn (db : Database) (filters : Filters) (companyNamesByKey : CompanyNames) (d : Date) :
    List OfficialHoliday :=
  db.officialHolidays.filter fun r =>
    (r.isActive && r.fallsOn d) && offDayMatchesScope (toRow r d) filters companyNamesByKey

theorem year_inYear {year : Nat} (h : 100 ≤ year) (d : Date) : (inYear year d).year = year := by
  unfold inYear dateOnlyUTC
  split <;> exact utcYear_of_ge h

theorem window_years {window : DateWindow} {d : Date} (h : window.has d = true) :
    window.start.year ≤ d.year ∧ d.year ≤ window.stop.year := by
  rw [DateWindow.has, Bool.and_eq_true, Date.le_iff, Date.le_iff] at h
  omega

/-- A holiday falls on a day of the window at most once. -/
theorem occurrences_on {window : DateWindow} {r : OfficialHoliday} {d : Date}
    (hd : window.has d = true) :
    (occurrences window r).filter (fun x => decide (x = d)) = if r.fallsOn d then [d] else [] := by
  unfold occurrences OfficialHoliday.fallsOn
  by_cases hr : r.recurring = true
  · simp only [hr, if_true]
    have hyears := window_years hd
    have hnodup : ((List.range' window.start.year (window.stop.year + 1 - window.start.year)).map
        fun year => inYear year r.holidayDate).Nodup := by
      refine List.Nodup.map_on (fun y hy y' hy' heq => ?_) List.nodup_range'
      have hge := window.start.year_ge
      rw [List.mem_range'_1] at hy hy'
      rw [← year_inYear (by omega : 100 ≤ y) r.holidayDate, heq, year_inYear (by omega)]
    rw [List.filter_eq, (hnodup.filter _).count]
    have hmem : d ∈ ((List.range' window.start.year
          (window.stop.year + 1 - window.start.year)).map fun year =>
          inYear year r.holidayDate).filter window.has ↔ inYear d.year r.holidayDate = d := by
      rw [List.mem_filter, List.mem_map]
      constructor
      · rintro ⟨⟨y, hy, rfl⟩, -⟩
        have hge := window.start.year_ge
        rw [List.mem_range'_1] at hy
        rw [year_inYear (by omega)]
      · intro h
        exact ⟨⟨d.year, List.mem_range'_1.mpr (by omega), h⟩, hd⟩
    simp only [hmem, decide_eq_true_eq]
    split <;> rfl
  · simp only [hr, Bool.false_eq_true, if_false, decide_eq_true_eq]
    by_cases h : r.holidayDate = d
    · simp [h]
    · simp [h]

theorem fallsOn_of_mem {window : DateWindow} {r : OfficialHoliday} {d : Date}
    (hd : window.has d = true) (hr : (r.recurring || window.has r.holidayDate) = false) :
    r.fallsOn d = false := by
  rw [Bool.or_eq_false_iff] at hr
  unfold OfficialHoliday.fallsOn
  rw [hr.1]
  refine decide_eq_false fun heq => ?_
  have heq : r.holidayDate = d := by simpa using heq
  rw [heq, hd] at hr
  cases hr.2

/-- **The rows of a day** of the window are one for each holiday that falls on it. -/
theorem holidayRows_on (db : Database) {window : DateWindow} {d : Date} (hd : window.has d = true) :
    Grouping.rowsOf (·.date) (fetchOfficialHolidayRows db window) d =
      (db.officialHolidays.filter fun r => r.isActive && r.fallsOn d).map (toRow · d) := by
  unfold fetchOfficialHolidayRows Grouping.rowsOf
  induction db.officialHolidays with
  | nil => rfl
  | cons r rs ih =>
    have hone : ((occurrences window r).map (toRow r)).filter (fun a => decide (a.date = d)) =
        if r.fallsOn d then [toRow r d] else [] := by
      rw [List.filter_map]
      show ((occurrences window r).filter fun x => decide (x = d)).map (toRow r) = _
      rw [occurrences_on hd]
      split <;> rfl
    dsimp only at ih ⊢
    by_cases hfetched : (r.isActive && (r.recurring || window.has r.holidayDate)) = true
    · have hactive : r.isActive = true := (Bool.and_eq_true _ _ ▸ hfetched).1
      rw [List.filter_cons, if_pos hfetched, List.flatMap_cons, List.filter_append, hone, ih]
      by_cases hf : r.fallsOn d = true
      · rw [if_pos hf, List.filter_cons, if_pos (by simp [hactive, hf])]
        rfl
      · rw [if_neg hf, List.filter_cons, if_neg (by simp [hf])]
        rfl
    · have hnot : ¬ (r.isActive && r.fallsOn d) = true := by
        intro hon
        rw [Bool.and_eq_true] at hon hfetched
        have hout : (r.recurring || window.has r.holidayDate) = false :=
          Bool.eq_false_iff.mpr fun h => hfetched ⟨hon.1, h⟩
        rw [fallsOn_of_mem hd hout] at hon
        cases hon.2
      rw [List.filter_cons, if_neg hfetched, List.filter_cons, if_neg hnot, ih]

theorem scopedRows_on (db : Database) (filters : Filters) (companyNamesByKey : CompanyNames)
    {window : DateWindow} {d : Date} (hd : window.has d = true) :
    Grouping.rowsOf (·.date) ((fetchOfficialHolidayRows db window).filter fun r =>
        offDayMatchesScope r filters companyNamesByKey) d =
      (holidaysOn db filters companyNamesByKey d).map (toRow · d) := by
  rw [rowsOf_filter, holidayRows_on db hd, List.filter_map]
  unfold holidaysOn
  rw [List.filter_filter]
  refine congrArg _ (List.filter_congr fun r _ => ?_)
  exact Bool.and_comm ..

/-- A row of the window is on a day of it. -/
theorem has_of_mem_fetch {db : Database} {window : DateWindow} {row : OffDayRow}
    (h : row ∈ fetchOfficialHolidayRows db window) : window.has row.date = true := by
  unfold fetchOfficialHolidayRows at h
  obtain ⟨r, hr, hrow⟩ := List.mem_flatMap.mp h
  obtain ⟨d, hd, rfl⟩ := List.mem_map.mp hrow
  have hkept := (List.mem_filter.mp hr).2
  rw [Bool.and_eq_true] at hkept
  unfold occurrences at hd
  split at hd
  · exact (List.mem_filter.mp hd).2
  · next hrec =>
    rw [List.mem_singleton.mp hd]
    show window.has r.holidayDate = true
    simpa [hrec] using hkept.2

/-! ## Working days -/

/-- A day that is neither a Friday nor a holiday in scope. -/
def isWorkingDate (db : Database) (filters : Filters) (companyNamesByKey : CompanyNames) (d : Date) :
    Bool :=
  !isFriday d && decide (holidaysOn db filters companyNamesByKey d = [])

theorem mem_holidayKeys (db : Database) (filters : Filters) (companyNamesByKey : CompanyNames)
    {window : DateWindow} {d : Date} (hd : window.has d = true) :
    dateKeyOf d ∈ holidayKeys db window filters companyNamesByKey ↔
      holidaysOn db filters companyNamesByKey d ≠ [] := by
  have hrows := scopedRows_on db filters companyNamesByKey hd
  unfold holidayKeys
  rw [ne_eq, ← List.map_eq_nil_iff (f := (toRow · d)), ← hrows, rowsOf_eq_nil, not_not,
    List.mem_map, List.mem_map]
  constructor
  · rintro ⟨row, hrow, heq⟩
    exact ⟨row, hrow, dateKeyOf_injective heq⟩
  · rintro ⟨row, hrow, heq⟩
    exact ⟨row, hrow, congrArg dateKeyOf heq⟩

theorem not_mem_holidayKeys (db : Database) (filters : Filters) (companyNamesByKey : CompanyNames)
    {window : DateWindow} {d : Date} (hd : window.has d = true) :
    (!isFriday d && !decide (dateKeyOf d ∈ holidayKeys db window filters companyNamesByKey)) =
      isWorkingDate db filters companyNamesByKey d := by
  have hkeys := mem_holidayKeys db filters companyNamesByKey hd
  unfold isWorkingDate
  by_cases h : holidaysOn db filters companyNamesByKey d = []
  · simp [hkeys, h]
  · simp [hkeys, h]

/-- **The working days** of a window are those that are neither Fridays nor holidays. -/
theorem listWorkingDays_eq (db : Database) (window : DateWindow) (filters : Filters)
    (companyNamesByKey : CompanyNames) :
    listWorkingDays db window filters companyNamesByKey =
      (eachDay window).filter (isWorkingDate db filters companyNamesByKey) := by
  refine List.filter_congr fun d hd => ?_
  exact not_mem_holidayKeys db filters companyNamesByKey (mem_eachDay.mp hd)

/-- The days that are no Fridays. -/
def weekdays (window : DateWindow) : List Date := (eachDay window).filter fun d => !isFriday d

/-- **Each row of a holiday counts**, on days that are no Fridays. -/
theorem officialCount_eq (db : Database) (window : DateWindow) (filters : Filters)
    (companyNamesByKey : CompanyNames) :
    ((fetchOfficialHolidayRows db window).filter fun r =>
        offDayMatchesScope r filters companyNamesByKey && !isFriday r.date).length =
      ((weekdays window).map fun d => (holidaysOn db filters companyNamesByKey d).length).sum := by
  set rows := (fetchOfficialHolidayRows db window).filter fun r =>
    offDayMatchesScope r filters companyNamesByKey with hrows
  have hsplit : ((fetchOfficialHolidayRows db window).filter fun r =>
      offDayMatchesScope r filters companyNamesByKey && !isFriday r.date) =
      rows.filter fun r => decide (r.date ∈ weekdays window) := by
    rw [hrows, List.filter_filter]
    refine List.filter_congr fun r hr => ?_
    have hmem : r.date ∈ weekdays window ↔ isFriday r.date = false := by
      unfold weekdays
      rw [List.mem_filter, mem_eachDay]
      simp [has_of_mem_fetch hr]
    rw [Bool.and_comm]
    by_cases hf : isFriday r.date = true
    · simp [hmem, hf]
    · simp [hmem, hf]
  have hsum := sum_values (fun r : OffDayRow => r.date) (weekdays window)
    ((nodup_eachDay window).filter _) rows fun _ => 1
  simp only [List.map_const', List.sum_replicate, nsmul_one, Nat.cast_id] at hsum
  rw [hsplit, ← hsum]
  refine congrArg List.sum (List.map_congr_left fun d hd => ?_)
  have hhas : window.has d = true := mem_eachDay.mp (List.mem_filter.mp hd).1
  rw [hrows, scopedRows_on db filters companyNamesByKey hhas, List.length_map]

theorem computeWorkingDays_eq (db : Database) {window : DateWindow} (filters : Filters)
    (companyNamesByKey : CompanyNames) (hw : window.start.le window.stop = true) :
    computeWorkingDays db window filters companyNamesByKey =
      max 0 ((weekdays window).length -
        (((weekdays window).map fun d => (holidaysOn db filters companyNamesByKey d).length).sum : Nat)
          : Int) := by
  have hfridays := List.length_eq_countP_add_countP isFriday (l := eachDay window)
  have hweekdays : (weekdays window).length = (eachDay window).countP fun d => ¬ isFriday d = true := by
    rw [weekdays, ← List.countP_eq_length_filter]
    refine List.countP_congr fun d _ => ?_
    simp
  unfold computeWorkingDays countWeeklyRestDays
  dsimp only
  rw [officialCount_eq, ← length_eachDay hw, hweekdays]
  refine congrArg _ ?_
  omega

/-- **The count is right** when no day has two rows of a holiday, or no working day is left. -/
theorem computeWorkingDays_iff (db : Database) {window : DateWindow} (filters : Filters)
    (companyNamesByKey : CompanyNames) (hw : window.start.le window.stop = true) :
    computeWorkingDays db window filters companyNamesByKey =
        ((eachDay window).countP (isWorkingDate db filters companyNamesByKey) : Nat) ↔
      (∀ d ∈ weekdays window, (holidaysOn db filters companyNamesByKey d).length ≤ 1) ∨
        ∀ d ∈ weekdays window, holidaysOn db filters companyNamesByKey d ≠ [] := by
  set ns := (weekdays window).map fun d => (holidaysOn db filters companyNamesByKey d).length with hns
  have hworking : (eachDay window).countP (isWorkingDate db filters companyNamesByKey) =
      ns.countP fun n => decide (n = 0) := by
    rw [hns, List.countP_map, weekdays, List.countP_filter]
    refine List.countP_congr fun d _ => ?_
    simp [isWorkingDate, and_comm]
  have hle := Counts.length_le_zeros_add_sum ns
  have honce := Counts.length_eq_zeros_add_sum_iff ns
  have hnone : ns.countP (fun n => decide (n = 0)) = 0 ↔
      ∀ d ∈ weekdays window, holidaysOn db filters companyNamesByKey d ≠ [] := by
    simp [hns, List.countP_eq_zero]
  have hone : (∀ n ∈ ns, n ≤ 1) ↔
      ∀ d ∈ weekdays window, (holidaysOn db filters companyNamesByKey d).length ≤ 1 := by
    rw [hns, List.forall_mem_map]
  have hlength : (weekdays window).length = ns.length := (List.length_map _).symm
  rw [computeWorkingDays_eq db filters companyNamesByKey hw, ← hns, hworking, hlength, ← hone, ← hnone,
    ← honce]
  omega

end SalesDashboard.CriticalNumber
