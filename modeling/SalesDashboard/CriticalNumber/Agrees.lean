import SalesDashboard.CriticalNumber.WorkingDays

/-! The figures of the Critical Number page against each other. -/

namespace SalesDashboard.CriticalNumber
open DataScope Grouping Keyed Tachometer

/-! ## Targets and actual values of the days -/

theorem TargetSum.nodup_add {sum : TargetSum} {value : ℚ} (hn : (sum.map Prod.fst).Nodup) :
    ((sum.add value).map Prod.fst).Nodup :=
  nodup_upsert (fun _ => rfl) rfl hn

theorem TargetSum.total_add {sum : TargetSum} {value : ℚ} (hn : (sum.map Prod.fst).Nodup) :
    (sum.add value).total = sum.total + value := by
  refine sum_upsert hn (fun entry _ hvalue => ?_) (by simp)
  push_cast
  rw [hvalue, add_mul, one_mul]

theorem sumTarget_eq (days : List Date) (target : DailyTarget) :
    sumTarget days target = (days.map (dailyTargetOn target)).sum := by
  have hgen : ∀ sum : TargetSum, (sum.map Prod.fst).Nodup →
      TargetSum.total (days.foldl (fun sum d => sum.add (dailyTargetOn target d)) sum) =
        sum.total + (days.map (dailyTargetOn target)).sum := by
    induction days with
    | nil => simp
    | cons d ds ih =>
      intro sum hn
      rw [List.foldl_cons, ih _ (TargetSum.nodup_add hn), TargetSum.total_add hn, List.map_cons,
        List.sum_cons, add_assoc]
  exact (hgen [] List.nodup_nil).trans (zero_add _)

/-- The total of the values that `fetchDailyActuals` has for a key. -/
theorem dailyActual_eq (db : Database) (window : DateWindow) (filters : Filters) (key : Int) :
    (((fetchDailyActuals db window filters).find? fun entry => decide (entry.1 = key)).map
        Prod.snd).getD 0 =
      total (·.value) (Grouping.rowsOf (·.dateKey) (db.salesLines.filter fun line =>
        (decide (dateKeyOf window.start ≤ line.dateKey) &&
          decide (line.dateKey ≤ dateKeyOf window.stop)) &&
          buildWhereClause filters true db.profiles line.toFactRow) key) := by
  unfold fetchDailyActuals
  dsimp only
  generalize db.salesLines.filter _ = lines
  rw [List.find?_map, Option.map_map]
  exact lookup_groups (fun line : SalesLine => line.dateKey) lines key (total fun line => line.value)

/-- Every sale is on a date of `dim_date`. -/
def DatedSales (db : Database) : Prop :=
  ∀ line ∈ db.salesLines, ∃ d, db.dimDate line.dateKey = some d ∧ line.dateKey = dateKeyOf d

/-- **The days' actual values** add up to the value of the window. -/
theorem sum_dailyActuals {db : Database} (hdated : DatedSales db) (window : DateWindow)
    (filters : Filters) :
    ((eachDay window).map fun d => (((fetchDailyActuals db window filters).find? fun entry =>
        decide (entry.1 = dateKeyOf d)).map Prod.snd).getD 0).sum =
      (fetchValueVolume db.toDatabase window filters).value := by
  have hkeys : ((eachDay window).map dateKeyOf).Nodup :=
    (nodup_eachDay window).map fun _ _ => dateKeyOf_injective
  have hsum := fun lines : List SalesLine =>
    sum_values (fun line : SalesLine => line.dateKey) _ hkeys lines fun line => line.value.getD 0
  simp only [List.map_map] at hsum
  simp only [dailyActual_eq]
  refine (hsum _).trans ?_
  show _ = total (·.value) (linesIn db.toDatabase window filters)
  unfold linesIn total
  rw [List.filter_filter]
  refine congrArg (fun lines => (lines.map fun line : SalesLine => line.value.getD 0).sum)
    (List.filter_congr fun line hline => ?_)
  obtain ⟨d, hdim, hkey⟩ := hdated line hline
  have hmem : line.dateKey ∈ (eachDay window).map dateKeyOf ↔ window.has d = true := by
    rw [← mem_eachDay, List.mem_map, hkey]
    constructor
    · rintro ⟨d', hd', heq⟩
      exact dateKeyOf_injective heq ▸ hd'
    · intro hd
      exact ⟨d, hd, rfl⟩
  rw [hdim, hkey] at *
  by_cases hhas : window.has d = true
  · have hbounds : window.start.le d = true ∧ d.le window.stop = true := by
      rw [← Bool.and_eq_true]
      exact hhas
    simp [hmem.mpr hhas, hhas, dateKeyOf_le_iff, hbounds]
  · rw [decide_eq_false fun h => hhas (hmem.mp h)]
    simp [hhas]

/-! ## The walk -/

section
variable (db : Database) (anchor : Date) (filters : Filters) (companyNamesByKey : CompanyNames)
  (target : DailyTarget) (inProgressDate : Option Date)

theorem paceDays_eq : fetchYtdPaceDays db anchor filters companyNamesByKey =
    (eachDay (ytdWindow anchor)).map fun d =>
      ⟨d, isWorkingDate db filters companyNamesByKey d,
        (((fetchDailyActuals db (ytdWindow anchor) filters).find? fun entry =>
          decide (entry.1 = dateKeyOf d)).map Prod.snd).getD 0⟩ := by
  refine List.map_congr_left fun d hd => ?_
  rw [not_mem_holidayKeys db filters companyNamesByKey (mem_eachDay.mp hd)]

/-- The dates of the year to date that are neither Fridays nor holidays in scope. -/
def workingDaysYtd : Nat :=
  (eachDay (ytdWindow anchor)).countP (isWorkingDate db filters companyNamesByKey)

theorem countP_paceDays : (fetchYtdPaceDays db anchor filters companyNamesByKey).countP
    (·.isWorkingDay) = workingDaysYtd db anchor filters companyNamesByKey := by
  rw [paceDays_eq, List.countP_map]
  rfl

theorem sum_dayTarget :
    ((fetchYtdPaceDays db anchor filters companyNamesByKey).map (dayTarget target)).sum =
      (computeYearlyCounter db anchor filters companyNamesByKey target).expectedValue := by
  show _ = sumTarget (listWorkingDays db (ytdWindow anchor) filters companyNamesByKey) target
  rw [sumTarget_eq, listWorkingDays_eq, paceDays_eq, List.map_map]
  induction eachDay (ytdWindow anchor) with
  | nil => rfl
  | cons d ds ih =>
    rw [List.map_cons, List.sum_cons, ih, List.filter_cons]
    simp only [Function.comp_apply, dayTarget]
    split
    · rw [List.map_cons, List.sum_cons]
    · rw [zero_add]

variable {db} in
theorem sum_dayActual (hdated : DatedSales db) :
    ((fetchYtdPaceDays db anchor filters companyNamesByKey).map (·.actual)).sum =
      (computeYearlyCounter db anchor filters companyNamesByKey target).actualValue := by
  rw [paceDays_eq, List.map_map]
  exact sum_dailyActuals hdated (ytdWindow anchor) filters

/-! ## Running totals -/

/-- The totals of the loop after the days that came before. -/
structure Running.Totals (run : Running) (days : List PaceDay) : Prop where
  workingDays : run.cumWorkingDays = days.countP (·.isWorkingDay)
  nodup : (run.cumTarget.map Prod.fst).Nodup
  targets : run.cumTarget.total = (days.map (dayTarget target)).sum
  actuals : run.cumActual = (days.map (·.actual)).sum

variable {target} in
theorem Running.Totals.walk {run : Running} {days : List PaceDay} (h : run.Totals target days)
    (day : PaceDay) : (run.walk target day).Totals target (days ++ [day]) := by
  obtain ⟨hworking, hn, htarget, hactual⟩ := h
  cases hday : day.isWorkingDay with
  | true => exact
    { workingDays := by simp [Running.walk, hday, hworking]
      nodup := by
        simp only [Running.walk, hday, if_true]
        exact TargetSum.nodup_add hn
      targets := by simp [Running.walk, hday, TargetSum.total_add hn, htarget, dayTarget]
      actuals := by simp [Running.walk, hactual] }
  | false => exact
    { workingDays := by simp [Running.walk, hday, hworking]
      nodup := by simpa [Running.walk, hday] using hn
      targets := by simp [Running.walk, hday, htarget, dayTarget]
      actuals := by simp [Running.walk, hactual] }

variable {target} in
theorem Running.Totals.step {run : Running} {days : List PaceDay} (h : run.Totals target days)
    (day : PaceDay) : (run.step target inProgressDate day).Totals target (days ++ [day]) := by
  have hwalk := h.walk day
  unfold Running.step
  dsimp only
  split
  · exact hwalk
  · exact ⟨hwalk.workingDays, hwalk.nodup, hwalk.targets, hwalk.actuals⟩

/-- **The running totals** of the loop. -/
theorem runOver_totals (days : List PaceDay) :
    (runOver target inProgressDate days).Totals target days := by
  have hgen : ∀ (rest before : List PaceDay) (run : Running), run.Totals target before →
      (rest.foldl (Running.step target inProgressDate) run).Totals target (before ++ rest) := by
    intro rest
    induction rest with
    | nil =>
      intro before run h
      rwa [List.append_nil]
    | cons day rest ih =>
      intro before run h
      have hnext := ih (before ++ [day]) _ (h.step inProgressDate day)
      rwa [List.append_assoc] at hnext
  exact hgen days [] _ ⟨rfl, List.nodup_nil, rfl, rfl⟩

/-! ## Periods -/

variable (granularity : MissingTrendGranularity)

/-- The periods after some days have the sums of the days. -/
structure Buckets.Sums (b : Buckets) (days : List PaceDay) : Prop where
  nodup : (b.periods.map Prod.fst).Nodup
  workingDays : (b.periods.map (·.2.workingDays)).sum = days.countP (·.isWorkingDay)
  targets : (b.periods.map (·.2.target)).sum = (days.map (dayTarget target)).sum
  actuals : (b.periods.map (·.2.actual)).sum = (days.map (·.actual)).sum
  cumTarget : b.cumTarget = (days.map (dayTarget target)).sum
  cumActual : b.cumActual = (days.map (·.actual)).sum

variable {target} in
theorem Buckets.Sums.step {b : Buckets} {days : List PaceDay} (h : b.Sums target days)
    (day : PaceDay) :
    (b.step target granularity inProgressDate day).Sums target (days ++ [day]) := by
  obtain ⟨hn, hworking, htarget, hactual, hcumTarget, hcumActual⟩ := h
  exact
    { nodup := nodup_upsert (fun _ => rfl) rfl hn
      workingDays := by
        refine (sum_upsert (d := if day.isWorkingDay then 1 else 0) hn (fun entry _ _ => ?_) ?_).trans ?_
        · cases hday : day.isWorkingDay <;> simp [MissingTrendPeriod.addDay, hday]
        · cases hday : day.isWorkingDay <;> simp [MissingTrendPeriod.addDay, newPeriod, hday]
        · rw [hworking]
          cases hday : day.isWorkingDay <;> simp [hday]
      targets := by
        refine (sum_upsert (d := dayTarget target day) hn (fun _ _ _ => rfl) (zero_add _)).trans ?_
        simp [htarget]
      actuals := by
        refine (sum_upsert (d := day.actual) hn (fun _ _ _ => rfl) (zero_add _)).trans ?_
        simp [hactual]
      cumTarget := by simp [Buckets.step, hcumTarget]
      cumActual := by simp [Buckets.step, hcumActual] }

/-- The dates of one period follow each other. -/
theorem periodKeyOf_between {a b c : Date} (hab : dayNumber a ≤ dayNumber b)
    (hbc : dayNumber b ≤ dayNumber c) (hac : periodKeyOf a granularity = periodKeyOf c granularity) :
    periodKeyOf c granularity = periodKeyOf b granularity := by
  cases granularity with
  | daily =>
    simp only [periodKeyOf, PeriodKey.date.injEq] at *
    omega
  | weekly =>
    simp only [periodKeyOf, PeriodKey.date.injEq, getUTCDay] at *
    omega
  | monthly =>
    rw [dayNumber_le_iff, Date.le_iff] at hab hbc
    simp only [periodKeyOf, PeriodKey.month.injEq] at *
    omega

/-- The last period is that of the last day, and ends with the running totals. -/
structure Buckets.Last (b : Buckets) (last : PaceDay) : Prop where
  period : ∃ p, b.periods.getLast? = some (periodKeyOf last.date granularity, p) ∧
    p.cumulativeTarget = b.cumTarget ∧ p.cumulativeActual = b.cumActual
  keys : ∀ entry ∈ b.periods, ∃ d, entry.1 = periodKeyOf d granularity ∧
    dayNumber d ≤ dayNumber last.date

theorem Buckets.keys_step {b : Buckets} {day : PaceDay}
    (h : ∀ entry ∈ b.periods, ∃ d, entry.1 = periodKeyOf d granularity ∧
      dayNumber d ≤ dayNumber day.date) :
    ∀ entry ∈ (b.step target granularity inProgressDate day).periods,
      ∃ d, entry.1 = periodKeyOf d granularity ∧ dayNumber d ≤ dayNumber day.date := by
  intro entry hentry
  unfold Buckets.step at hentry
  rcases mem_upsert (by exact fun _ => rfl) (by rfl) hentry with hentry | hentry
  · exact h entry hentry
  · exact ⟨day.date, hentry, le_refl _⟩

theorem Buckets.last_step {b : Buckets} {last day : PaceDay} (h : b.Last granularity last)
    (hlater : dayNumber last.date < dayNumber day.date) :
    (b.step target granularity inProgressDate day).Last granularity day := by
  obtain ⟨⟨p, hp, -, -⟩, hkeys⟩ := h
  refine ⟨?_, Buckets.keys_step target inProgressDate granularity fun entry hentry => ?_⟩
  · unfold Buckets.step upsert
    dsimp only
    split
    · next hmem =>
      -- a day of an earlier period of this key would enclose the last day
      obtain ⟨entry, hentry, hkey⟩ := List.mem_map.mp hmem
      obtain ⟨d, hd, hle⟩ := hkeys entry hentry
      have hsame := periodKeyOf_between granularity hle hlater.le (hd.symm.trans hkey)
      rw [List.getLast?_map, hp, hsame]
      exact ⟨p.addDay target inProgressDate (b.cumTarget + dayTarget target day)
        (b.cumActual + day.actual) day, by simp, rfl, rfl⟩
    · rw [List.getLast?_concat]
      exact ⟨_, rfl, rfl, rfl⟩
  · obtain ⟨d, hd, hle⟩ := hkeys entry hentry
    exact ⟨d, hd, hle.trans hlater.le⟩

theorem Buckets.last_first (day : PaceDay) :
    ((⟨[], 0, 0⟩ : Buckets).step target granularity inProgressDate day).Last granularity day :=
  ⟨⟨_, rfl, rfl, rfl⟩,
    Buckets.keys_step target inProgressDate granularity fun _ hentry => by cases hentry⟩

/-- The days of the walk in buckets: their sums, and what the last one ends with. -/
theorem buckets_of_days {days : List PaceDay}
    (hsorted : days.Pairwise fun a b => dayNumber a.date < dayNumber b.date) :
    (days.foldl (Buckets.step target granularity inProgressDate) ⟨[], 0, 0⟩).Sums target days ∧
      ∀ last ∈ days.getLast?,
        (days.foldl (Buckets.step target granularity inProgressDate) ⟨[], 0, 0⟩).Last granularity
          last := by
  induction days using List.reverseRecOn with
  | nil => exact ⟨⟨List.nodup_nil, rfl, rfl, rfl, rfl, rfl⟩, fun _ h => by cases h⟩
  | append_singleton days day ih =>
    rw [List.pairwise_append] at hsorted
    obtain ⟨hsums, hlast⟩ := ih hsorted.1
    rw [List.foldl_append, List.getLast?_concat]
    refine ⟨hsums.step inProgressDate granularity day, fun last hmem => ?_⟩
    obtain rfl : day = last := Option.some.inj hmem
    rcases hbefore : days.getLast? with _ | before
    · rw [List.getLast?_eq_none_iff.mp hbefore]
      exact Buckets.last_first target inProgressDate granularity day
    · exact Buckets.last_step target inProgressDate granularity (hlast before hbefore)
        (hsorted.2.2 before (List.mem_of_getLast? hbefore) day List.mem_cons_self)

end

/-! ## The page -/

section
variable (db : Database) (anchor : Date) (filters : Filters) (companyNamesByKey : CompanyNames)
  (target : DailyTarget) (inProgressDate : Option Date)

theorem ytdWindow_ordered : (ytdWindow anchor).start.le (ytdWindow anchor).stop = true := by
  have hanchor : (ytdWindow anchor).has anchor = true :=
    ytdWindow_has.mpr ⟨rfl, Date.le_iff.mpr (by omega)⟩
  exact (Bool.and_eq_true _ _ ▸ hanchor).1

theorem eachDay_ytd_ne_nil : eachDay (ytdWindow anchor) ≠ [] :=
  List.ne_nil_of_mem (mem_eachDay.mpr (ytdWindow_has.mpr ⟨rfl, Date.le_iff.mpr (by omega)⟩))

theorem sorted_paceDays : (fetchYtdPaceDays db anchor filters companyNamesByKey).Pairwise
    fun a b => dayNumber a.date < dayNumber b.date := by
  rw [paceDays_eq, List.pairwise_map]
  exact eachDay_sorted _

/-- What the claim says of one granularity, for the totals of a counter. -/
structure PeriodsAgree (periods : List MissingTrendPeriod) (days : Int) (counter : PeriodCounter) :
    Prop where
  workingDays : (periods.map (·.workingDays)).sum = days
  targets : (periods.map (·.target)).sum = counter.expectedValue
  actuals : (periods.map (·.actual)).sum = counter.actualValue
  lastGap : ∃ p, periods.getLast? = some p ∧ p.cumulativeGap = counter.gapValue

/-- **The periods of a granularity** come to the counter's figures. -/
theorem periods_agree {db : Database} (hdated : DatedSales db)
    (granularity : MissingTrendGranularity) :
    PeriodsAgree (bucketPaceDays (fetchYtdPaceDays db anchor filters companyNamesByKey) target
        granularity inProgressDate)
      (workingDaysYtd db anchor filters companyNamesByKey)
      (computeYearlyCounter db anchor filters companyNamesByKey target) := by
  set days := fetchYtdPaceDays db anchor filters companyNamesByKey with hdays
  obtain ⟨hsums, hlast⟩ := buckets_of_days target inProgressDate granularity
    (sorted_paceDays db anchor filters companyNamesByKey)
  rw [← hdays] at hsums hlast
  have htargets := sum_dayTarget db anchor filters companyNamesByKey target
  have hactuals := sum_dayActual anchor filters companyNamesByKey target hdated
  rw [← hdays] at htargets hactuals
  unfold bucketPaceDays
  dsimp only
  refine ⟨?_, ?_, ?_, ?_⟩
  · rw [List.map_map]
    exact hsums.workingDays.trans
      (congrArg _ (countP_paceDays db anchor filters companyNamesByKey))
  · rw [List.map_map]
    exact hsums.targets.trans htargets
  · rw [List.map_map]
    exact hsums.actuals.trans hactuals
  · have hne : days ≠ [] := by
      rw [hdays, paceDays_eq]
      exact fun h => eachDay_ytd_ne_nil anchor (List.map_eq_nil_iff.mp h)
    obtain ⟨⟨p, hp, hcumTarget, hcumActual⟩, -⟩ := hlast _ (List.getLast?_eq_some_getLast hne)
    refine ⟨p.finish target, by rw [List.getLast?_map, hp]; rfl, ?_⟩
    show p.cumulativeActual - p.cumulativeTarget = _
    rw [hcumTarget, hcumActual, hsums.cumTarget, hsums.cumActual, htargets, hactuals]
    rfl

/-- **The page agrees with itself**: one count of working days, one target, one actual value
and one gap. -/
structure PageAgrees : Prop where
  elapsed : (computeYearlyCounter db anchor filters companyNamesByKey target).workingDaysElapsed =
    workingDaysYtd db anchor filters companyNamesByKey
  card : (computeWorkingDaysYtd db anchor filters companyNamesByKey).value =
    workingDaysYtd db anchor filters companyNamesByKey
  missingDays : (computeMissingSummary db anchor filters companyNamesByKey target
      inProgressDate).missingDays.expectedValue =
    workingDaysYtd db anchor filters companyNamesByKey
  periods : ∀ granularity, PeriodsAgree
    ((computeMissingTrend db anchor filters companyNamesByKey target inProgressDate).of granularity)
    (workingDaysYtd db anchor filters companyNamesByKey)
    (computeYearlyCounter db anchor filters companyNamesByKey target)
  missingValue : (computeYearlyCounter db anchor filters companyNamesByKey target).gapValue =
    - (computeMissingSummary db anchor filters companyNamesByKey target
      inProgressDate).missingValue.value

/-- No day of the year to date but Fridays has two holidays in scope, or each has one. -/
def HolidaysCountOnce : Prop :=
  (∀ d ∈ weekdays (ytdWindow anchor), (holidaysOn db filters companyNamesByKey d).length ≤ 1) ∨
    ∀ d ∈ weekdays (ytdWindow anchor), holidaysOn db filters companyNamesByKey d ≠ []

theorem missingSummary_agrees {db : Database} (hdated : DatedSales db)
    (hpos : ∀ d, 0 < dailyTargetOn target d) :
    (computeMissingSummary db anchor filters companyNamesByKey target
        inProgressDate).missingDays.expectedValue =
        workingDaysYtd db anchor filters companyNamesByKey ∧
      (computeYearlyCounter db anchor filters companyNamesByKey target).gapValue =
        - (computeMissingSummary db anchor filters companyNamesByKey target
          inProgressDate).missingValue.value := by
  obtain ⟨hworking, -, htargets, hactuals⟩ := runOver_totals target inProgressDate
    (fetchYtdPaceDays db anchor filters companyNamesByKey)
  rw [countP_paceDays] at hworking
  rw [sum_dayTarget] at htargets
  rw [sum_dayActual anchor filters companyNamesByKey target hdated] at hactuals
  refine ⟨hworking, ?_⟩
  unfold computeMissingSummary
  dsimp only
  rw [if_pos (hpos anchor), htargets, hactuals, neg_sub]
  rfl

/-- **The page agrees exactly when** no holiday is counted twice. -/
theorem criticalNumber_agrees (hdated : DatedSales db) (hpos : ∀ d, 0 < dailyTargetOn target d) :
    PageAgrees db anchor filters companyNamesByKey target inProgressDate ↔
      HolidaysCountOnce db anchor filters companyNamesByKey := by
  have hcount := computeWorkingDays_iff db filters companyNamesByKey (ytdWindow_ordered anchor)
  constructor
  · intro h
    exact hcount.mp h.elapsed
  · intro h
    have hdays := hcount.mpr h
    obtain ⟨hmissingDays, hmissingValue⟩ :=
      missingSummary_agrees anchor filters companyNamesByKey target inProgressDate hdated hpos
    exact
      { elapsed := hdays
        card := hdays
        missingDays := hmissingDays
        periods := fun granularity => by
          have hperiods := periods_agree anchor filters companyNamesByKey target inProgressDate
            hdated granularity
          cases granularity <;> exact hperiods
        missingValue := hmissingValue }

end

/-! ### New Year's Day of 2026 -/

def newYear : Date := ⟨2026, 1, 1, by decide, by decide, by decide, by decide, by decide⟩

def fifthOfJanuary : Date := ⟨2026, 1, 5, by decide, by decide, by decide, by decide, by decide⟩

/-- One sale on 5 January, and the given companies' holidays on New Year's Day. -/
def newYearHoliday (companies : List String) : Database where
  salesLines := [⟨⟨1, 1, 1, "T1", 1, none⟩, 20260105, some 500, some 1⟩]
  salesTargets := []
  dimDate := fun key => if key = 20260105 then some fifthOfJanuary else none
  profiles := fun _ => ⟨none, none, none⟩
  targetOverrideAmount := fun _ => none
  adminName := fun _ _ => none
  dimensionName := fun _ _ => none
  officialHolidays := companies.map fun company =>
    ⟨"Public Holiday", newYear, false, some company, true⟩

def noNames : CompanyNames := ⟨fun _ => none, id⟩

theorem newYearHoliday_dated (companies : List String) : DatedSales (newYearHoliday companies) := by
  intro line hline
  rw [List.mem_singleton.mp hline]
  exact ⟨fifthOfJanuary, rfl, rfl⟩

/-- The days from the 1st to the 5th are 5, one a Friday and one a holiday. -/
theorem criticalNumber_agrees_newYear :
    PageAgrees (newYearHoliday ["TIKA"]) fifthOfJanuary (fun _ => []) noNames (.number 560) none ↔
      HolidaysCountOnce (newYearHoliday ["TIKA"]) fifthOfJanuary (fun _ => []) noNames :=
  criticalNumber_agrees _ _ _ _ _ _ (newYearHoliday_dated _) fun _ => show (0 : ℚ) < 560 by decide +kernel

/-- Two companies close on New Year's Day: the counter and the card subtract it twice. -/
theorem criticalNumber_differs :
    let db := newYearHoliday ["Majaal", "TIKA"]
    DatedSales db ∧
      (computeYearlyCounter db fifthOfJanuary (fun _ => []) noNames (.number 560)).workingDaysElapsed
        = 2 ∧
      (computeMissingSummary db fifthOfJanuary (fun _ => []) noNames (.number 560)
        none).missingDays.expectedValue = 3 ∧
      ¬ PageAgrees db fifthOfJanuary (fun _ => []) noNames (.number 560) none := by
  have helapsed : (computeYearlyCounter (newYearHoliday ["Majaal", "TIKA"]) fifthOfJanuary
      (fun _ => []) noNames (.number 560)).workingDaysElapsed = 2 := by decide +kernel
  have hmissing : (computeMissingSummary (newYearHoliday ["Majaal", "TIKA"]) fifthOfJanuary
      (fun _ => []) noNames (.number 560) none).missingDays.expectedValue = 3 := by decide +kernel
  refine ⟨newYearHoliday_dated _, helapsed, hmissing, fun h => ?_⟩
  have hsame := h.elapsed.trans h.missingDays.symm
  rw [helapsed, hmissing] at hsame
  cases hsame

end SalesDashboard.CriticalNumber
