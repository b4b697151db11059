import SalesDashboard.ActivityMomentum.Rows
import SalesDashboard.Lib.Counts
import Mathlib

/-! Whether the Activity Momentum page agrees with itself. The tiles, the rates and the
list select the same opportunities, and the lost ones come out the same without the
archived filter; the monthly chart takes the whole month of the anchor. -/

namespace SalesDashboard.ActivityMomentum
open DataScope Firsts Grouping Tables Tachometer

variable {db : Warehouse} {fo : Opportunity} {anchor : Date} {filters : Filters}
  {activityAvailable : Bool}

/-! ## One status each -/

theorem notArchived_of_lost (hflags : fo.FlagsOfStatus) (hlost : fo.isLost = some 1) :
    notArchivedClause fo = true := by
  obtain ⟨status, hstatus, -, -, hl⟩ := hflags
  have hs : status = .lost := by
    by_contra hne
    rw [hl, if_neg hne] at hlost
    cases hlost
  rw [notArchivedClause, hstatus, hs]
  rfl

/-- Lost by the first branch is lost by the flag. -/
theorem status_lost_iff (hflags : fo.FlagsOfStatus) :
    activityStatusCaseSql db activityAvailable fo = .lost ↔ fo.isLost = some 1 := by
  obtain ⟨status, -, -, -, hl⟩ := hflags
  have hcoalesce : fo.isLost.getD 0 = 1 ↔ fo.isLost = some 1 := by simp [hl]
  rw [← hcoalesce]
  unfold activityStatusCaseSql
  constructor
  · intro h
    by_contra hne
    rw [if_neg hne] at h
    split_ifs at h
  · intro h
    exact if_pos h

theorem status_classified (hflags : fo.FlagsOfStatus) (hkept : notArchivedClause fo = true) :
    activityStatusCaseSql db activityAvailable fo ≠ .unclassified := by
  obtain ⟨status, hstatus, hopen, hwon, hlost⟩ := hflags
  rw [notArchivedClause, hstatus] at hkept
  unfold activityStatusCaseSql
  cases status with
  | pending =>
    have hopen : fo.isOpen = some 1 := by simpa using hopen
    split_ifs <;> simp_all
  | won =>
    have hwon : fo.isWon = some 1 := by simpa using hwon
    split_ifs <;> simp_all
  | lost =>
    have hlost : fo.isLost = some 1 := by simpa using hlost
    split_ifs <;> simp_all
  | archived => simp at hkept

/-- An open opportunity passes the first two branches. -/
theorem atRisk_iff (hflags : fo.FlagsOfStatus) :
    (fo.isOpen = some 1 ∧ (WITHOUT_ACTIVITY_SQL db fo = true ∨ WITHOUT_NEXT_STEP_SQL db fo = true)) ↔
      activityStatusCaseSql db true fo = .withoutActivity ∨
        activityStatusCaseSql db true fo = .withoutNextStep := by
  obtain ⟨status, -, hopen, hwon, hlost⟩ := hflags
  by_cases hs : status = .pending
  · subst hs
    have hlost : ¬ fo.isLost.getD 0 = 1 := by simp [hlost]
    have hwon : ¬ fo.isWon = some 1 := by simp [hwon]
    have hopen : fo.isOpen = some 1 := by simpa using hopen
    unfold activityStatusCaseSql
    rw [if_neg hlost, if_neg hwon]
    by_cases ha : WITHOUT_ACTIVITY_SQL db fo = true
    · simp [hopen, ha]
    · by_cases hb : WITHOUT_NEXT_STEP_SQL db fo = true
      · simp [hopen, ha, hb]
      · simp [hopen, ha, hb]
  · have hclosed : ¬ fo.isOpen = some 1 := by simp [hopen, hs]
    unfold activityStatusCaseSql
    split_ifs <;> simp_all

/-- Without their columns no opportunity is stale. -/
theorem status_unavailable : activityStatusCaseSql db false fo ≠ .withoutActivity ∧
    activityStatusCaseSql db false fo ≠ .withoutNextStep := by
  unfold activityStatusCaseSql
  constructor
  · split_ifs <;> simp_all
  · split_ifs <;> simp_all

/-! ## Tiles -/

theorem ActivityStatus.mem_all (status : ActivityStatus) : status ∈
    [ActivityStatus.active, .won, .lost, .withoutActivity, .withoutNextStep, .unclassified] := by
  cases status <;> simp

/-- Every row is counted under one status. -/
theorem sum_statusCount (db : Warehouse) (activityAvailable : Bool) (rows : List Opportunity) :
    rows.length = statusCount db activityAvailable rows .active +
      statusCount db activityAvailable rows .won + statusCount db activityAvailable rows .lost +
      statusCount db activityAvailable rows .withoutActivity +
      statusCount db activityAvailable rows .withoutNextStep +
      statusCount db activityAvailable rows .unclassified := by
  have hks : [ActivityStatus.active, .won, .lost, .withoutActivity, .withoutNextStep,
      .unclassified].Nodup := by decide
  have hsum := Counts.sum_countP_keys (activityStatusCaseSql db activityAvailable) (fun _ => true)
    hks rows
  have hall : (rows.countP fun fo => true && decide (activityStatusCaseSql db activityAvailable fo ∈
      [ActivityStatus.active, .won, .lost, .withoutActivity, .withoutNextStep, .unclassified])) =
        rows.length := by
    rw [List.countP_eq_length]
    intro fo _
    simpa using ActivityStatus.mem_all _
  rw [hall] at hsum
  simp only [Bool.true_and, List.map_cons, List.map_nil, List.sum_cons, List.sum_nil] at hsum
  unfold statusCount
  omega

theorem mem_ytdOpportunities : fo ∈ ytdOpportunities db anchor filters ↔
    fo ∈ db.opportunities ∧ createdIn (ytdWindow anchor) fo = true ∧
      buildCrmWhereClause db filters fo = true ∧ notArchivedClause fo = true := by
  unfold ytdOpportunities
  rw [List.mem_filter, Bool.and_eq_true, Bool.and_eq_true, and_assoc]

theorem unclassified_eq_zero (db : Warehouse) (anchor : Date) (filters : Filters)
    (activityAvailable : Bool) :
    statusCount db activityAvailable (ytdOpportunities db anchor filters) .unclassified = 0 := by
  unfold statusCount
  rw [List.countP_eq_zero]
  intro fo hfo
  obtain ⟨hmem, -, -, hkept⟩ := mem_ytdOpportunities.mp hfo
  simpa using status_classified (db.flags fo hmem) hkept

/-- A tile that may be missing counts nothing when it is. -/
theorem tile_getD (db : Warehouse) (rows : List Opportunity) (activityAvailable : Bool)
    {status : ActivityStatus} (hstatus : status = .withoutActivity ∨ status = .withoutNextStep) :
    (if activityAvailable then some (statusCount db activityAvailable rows status) else none).getD 0 =
      statusCount db activityAvailable rows status := by
  cases activityAvailable with
  | true => rfl
  | false =>
    have hzero : statusCount db false rows status = 0 := by
      unfold statusCount
      rw [List.countP_eq_zero]
      intro fo _
      have hnone := @status_unavailable db fo
      rcases hstatus with rfl | rfl
      · simpa using hnone.1
      · simpa using hnone.2
    exact hzero.symm

/-! ## Rates -/

theorem atRiskCount_eq (db : Warehouse) (anchor : Date) (filters : Filters) :
    atRiskCount db anchor filters =
      statusCount db true (ytdOpportunities db anchor filters) .withoutActivity +
        statusCount db true (ytdOpportunities db anchor filters) .withoutNextStep := by
  have hks : [ActivityStatus.withoutActivity, .withoutNextStep].Nodup := by decide
  have hsum := Counts.sum_countP_keys (activityStatusCaseSql db true) (fun _ => true) hks
    (ytdOpportunities db anchor filters)
  simp only [Bool.true_and, List.map_cons, List.map_nil, List.sum_cons, List.sum_nil, Nat.add_zero]
    at hsum
  unfold statusCount
  rw [hsum, atRiskCount]
  refine List.countP_congr fun fo hfo => ?_
  have hrisk := @atRisk_iff db fo (db.flags fo (mem_ytdOpportunities.mp hfo).1)
  simpa using hrisk

/-! ## The list -/

theorem listed_map_fst (db : Warehouse) (anchor : Date) (filters : Filters) :
    (leftJoin (fun fo : Opportunity => some fo.salespersonKey) (·.salespersonKey) db.profiles
      (ytdOpportunities db anchor filters)).map Prod.fst = ytdOpportunities db anchor filters :=
  map_fst_leftJoin db.salespersonKey_nodup _

/-- A flag that is the status of the opportunity is set on as many rows as have it. -/
theorem listed_flag (db : Warehouse) (anchor : Date) (filters : Filters) (activityAvailable : Bool)
    (status : ActivityStatus) {flag : ActivityOpportunityRow → Bool}
    (hflag : ∀ r, flag (activityOpportunityRow db anchor activityAvailable r) =
      decide (activityStatusCaseSql db activityAvailable r.1 = status)) :
    (fetchActivityOpportunities db anchor filters activityAvailable).countP flag =
      statusCount db activityAvailable (ytdOpportunities db anchor filters) status := by
  unfold fetchActivityOpportunities statusCount
  rw [List.countP_map]
  conv_rhs => rw [← listed_map_fst, List.countP_map]
  refine List.countP_congr fun r _ => ?_
  simp only [Function.comp_apply, hflag]

theorem length_listed (db : Warehouse) (anchor : Date) (filters : Filters) (activityAvailable : Bool) :
    (fetchActivityOpportunities db anchor filters activityAvailable).length =
      (ytdOpportunities db anchor filters).length := by
  unfold fetchActivityOpportunities
  rw [List.length_map, length_leftJoin db.salespersonKey_nodup]

theorem listed_isYtd {row : ActivityOpportunityRow}
    (hrow : row ∈ fetchActivityOpportunities db anchor filters activityAvailable) : row.isYtd = true := by
  obtain ⟨r, hr, rfl⟩ := List.mem_map.mp hrow
  have hmem := List.mem_map_of_mem (f := Prod.fst) hr
  rw [listed_map_fst] at hmem
  exact (mem_ytdOpportunities.mp hmem).2.1

/-! ## Lost by reason -/

theorem sum_lostByReason (db : Warehouse) (anchor : Date) (filters : Filters)
    (activityAvailable : Bool) :
    ((fetchLostByReason db anchor filters).map (·.count)).sum =
      statusCount db activityAvailable (ytdOpportunities db anchor filters) .lost := by
  unfold fetchLostByReason
  dsimp only
  have hperm := ((List.perm_insertionSort (fun a b : LostReasonSlice => b.count ≤ a.count)
    ((groups (fun row => db.collation (reasonOf row))
      (leftJoin (·.lostReasonId) (·.lostReasonId) db.lostReasons
        (db.opportunities.filter fun fo => decide (fo.isLost = some 1) &&
          createdIn (ytdWindow anchor) fo && buildCrmWhereClause db filters fo))).map fun g =>
            (⟨(g.2.head?.map reasonOf).getD "", g.2.length⟩ : LostReasonSlice))).map (·.count)).sum_eq
  rw [hperm, List.map_map]
  refine (sum_length_groups _ _).trans ?_
  rw [length_leftJoin db.lostReasonId_nodup]
  unfold statusCount ytdOpportunities
  rw [← List.countP_eq_length_filter, List.countP_filter]
  refine List.countP_congr fun fo hfo => ?_
  -- a lost opportunity is never archived
  have hflags := db.flags fo hfo
  have hlost := @status_lost_iff db fo activityAvailable hflags
  have hkept := notArchived_of_lost hflags
  simp only [Bool.and_eq_true, decide_eq_true_eq, hlost]
  tauto

/-! ## New opportunities by month -/

/-- The months show the year of the anchor through the whole of its month. -/
theorem sum_newOpportunitiesByMonth (db : Warehouse) (anchor : Date) (filters : Filters) :
    ((fetchNewOpportunitiesByMonth db anchor filters).map (·.countYtd)).sum =
      db.opportunities.countP fun fo =>
        (fo.opportunityCreatedDate.any fun d => decide (d.year = anchor.year ∧ d.month ≤ anchor.month)) &&
          buildCrmWhereClause db filters fo && notArchivedClause fo := by
  have hnodup : ((List.range anchor.month).map fun i => some (anchor.year, i + 1)).Nodup := by
    refine List.nodup_range.map fun i j hij => ?_
    simpa using hij
  have hsum := Counts.sum_countP_keys yearMonth (fun _ => true) hnodup
    (createdThisYear db anchor filters)
  simp only [Bool.true_and, List.map_map, Function.comp_def] at hsum
  unfold fetchNewOpportunitiesByMonth
  simp only [List.map_map, Function.comp_def, lookup_countBy]
  rw [hsum, createdThisYear, List.countP_filter]
  refine List.countP_congr fun fo _ => ?_
  simp only [yearMonth, List.mem_map, List.mem_range, Bool.and_eq_true, decide_eq_true_eq]
  cases fo.opportunityCreatedDate with
  | none => simp
  | some d =>
    have hpos := d.month_pos
    simp only [Option.map_some, Option.any_some, Option.some.injEq, Prod.mk.injEq, decide_eq_true_eq]
    constructor
    · rintro ⟨⟨i, hi, hyear, hmonth⟩, ⟨-, hclause⟩, hkept⟩
      exact ⟨⟨⟨hyear.symm, by omega⟩, hclause⟩, hkept⟩
    · rintro ⟨⟨⟨hyear, hmonth⟩, hclause⟩, hkept⟩
      exact ⟨⟨d.month - 1, by omega, hyear.symm, by omega⟩, ⟨hyear, hclause⟩, hkept⟩

/-- No opportunity of the filters was created in the month of the anchor after its day. -/
def NoneLaterInMonth (db : Warehouse) (anchor : Date) (filters : Filters) : Prop :=
  ∀ fo ∈ db.opportunities, buildCrmWhereClause db filters fo = true → notArchivedClause fo = true →
    ∀ d, fo.opportunityCreatedDate = some d → d.year = anchor.year → d.month = anchor.month →
      d.day ≤ anchor.day

theorem months_iff (db : Warehouse) (anchor : Date) (filters : Filters) :
    ((fetchNewOpportunitiesByMonth db anchor filters).map (·.countYtd)).sum =
      (ytdOpportunities db anchor filters).length ↔ NoneLaterInMonth db anchor filters := by
  rw [sum_newOpportunitiesByMonth, ytdOpportunities, ← List.countP_eq_length_filter, countP_eq_iff]
  · refine forall₂_congr fun fo _ => ?_
    simp only [createdIn, Bool.and_eq_true]
    cases fo.opportunityCreatedDate with
    | none => simp
    | some d =>
      simp only [Option.any_some, decide_eq_true_eq, ytdWindow_has, Date.le_iff, Option.some.injEq,
        forall_eq']
      constructor
      · intro h hclause hkept hyear hmonth
        have hle := (h ⟨⟨⟨hyear, hmonth.le⟩, hclause⟩, hkept⟩).1.1.2
        omega
      · rintro h ⟨⟨⟨hyear, hmonth⟩, hclause⟩, hkept⟩
        refine ⟨⟨⟨hyear, ?_⟩, hclause⟩, hkept⟩
        have hday := h hclause hkept hyear
        omega
  · intro fo _ hfo
    simp only [createdIn, Bool.and_eq_true] at hfo ⊢
    obtain ⟨⟨hcreated, hclause⟩, hkept⟩ := hfo
    refine ⟨⟨?_, hclause⟩, hkept⟩
    revert hcreated
    cases fo.opportunityCreatedDate with
    | none => simp
    | some d =>
      simp only [Option.any_some, decide_eq_true_eq, ytdWindow_has, Date.le_iff]
      omega

/-! ## The page -/

/-- What the tiles, the list, the charts and the ratio of a page have to agree on. -/
structure Reconciles (db : Warehouse) (anchor : Date) (filters : Filters)
    (page : ActivityMomentumOverview) : Prop where
  tiles : page.counts.totalYtd = page.counts.active + page.counts.won + page.counts.lost +
    page.counts.withoutActivity.getD 0 + page.counts.withoutNextStep.getD 0
  unclassified : page.counts.unclassified = 0
  listed : page.opportunities.length = page.counts.totalYtd
  isYtd : ∀ row ∈ page.opportunities, row.isYtd = true
  isActive : page.opportunities.countP (·.isActive) = page.counts.active
  isWon : page.opportunities.countP (·.isWon) = page.counts.won
  isLost : page.opportunities.countP (·.isLost) = page.counts.lost
  isInactive : page.opportunities.countP (·.isInactive.getD false) =
    page.counts.withoutActivity.getD 0
  isWithoutNextStep : page.opportunities.countP (·.isWithoutNextStep.getD false) =
    page.counts.withoutNextStep.getD 0
  lostByReason : (page.lostByReason.map (·.count)).sum = page.counts.lost
  byMonth : (page.newOpportunitiesByMonth.map (·.countYtd)).sum = page.counts.totalYtd
  inactiveDealsRatio : page.activityColumnsAvailable = true → page.rates.inactiveDealsRatio =
    safeDiv (page.counts.withoutActivity.getD 0 + page.counts.withoutNextStep.getD 0)
      (openCount db anchor filters)

theorem tiles_add_up (db : Warehouse) (anchor : Date) (filters : Filters) (activityAvailable : Bool) :
    let counts := computeOpportunityActivityCounts db anchor filters activityAvailable
    counts.totalYtd = counts.active + counts.won + counts.lost + counts.withoutActivity.getD 0 +
      counts.withoutNextStep.getD 0 := by
  have hsum := sum_statusCount db activityAvailable (ytdOpportunities db anchor filters)
  have hnone := unclassified_eq_zero db anchor filters activityAvailable
  have hactivity := tile_getD db (ytdOpportunities db anchor filters) activityAvailable (Or.inl rfl)
  have hnextStep := tile_getD db (ytdOpportunities db anchor filters) activityAvailable (Or.inr rfl)
  dsimp only [computeOpportunityActivityCounts]
  omega

/-- The page agrees with itself if and only if nothing was created later in the month of
the anchor: the chart has the whole of it. -/
theorem reconciles_iff (db : Warehouse) (activityAvailable : Bool) (today : Date) (raw : Option Date)
    (filters : Filters) :
    Reconciles db (parsePipelineAnchor today raw) filters
        (computeActivityMomentumOverview db activityAvailable (parsePipelineAnchor today raw) filters) ↔
      NoneLaterInMonth db (parsePipelineAnchor today raw) filters := by
  generalize parsePipelineAnchor today raw = anchor
  constructor
  · intro h
    exact (months_iff db anchor filters).mp h.byMonth
  · intro h
    have hactivity := tile_getD db (ytdOpportunities db anchor filters) activityAvailable (Or.inl rfl)
    have hnextStep := tile_getD db (ytdOpportunities db anchor filters) activityAvailable (Or.inr rfl)
    constructor
    · exact tiles_add_up db anchor filters activityAvailable
    · exact unclassified_eq_zero db anchor filters activityAvailable
    · exact length_listed db anchor filters activityAvailable
    · exact fun row hrow => listed_isYtd hrow
    · exact listed_flag db anchor filters activityAvailable .active fun _ => rfl
    · exact listed_flag db anchor filters activityAvailable .won fun _ => rfl
    · exact listed_flag db anchor filters activityAvailable .lost fun _ => rfl
    · refine Eq.trans ?_ hactivity.symm
      cases activityAvailable with
      | true => exact listed_flag db anchor filters true .withoutActivity fun _ => rfl
      | false =>
        rw [← hactivity]
        exact List.countP_eq_zero.mpr fun row hrow => by
          obtain ⟨r, -, rfl⟩ := List.mem_map.mp hrow
          exact Bool.false_ne_true
    · refine Eq.trans ?_ hnextStep.symm
      cases activityAvailable with
      | true => exact listed_flag db anchor filters true .withoutNextStep fun _ => rfl
      | false =>
        rw [← hnextStep]
        exact List.countP_eq_zero.mpr fun row hrow => by
          obtain ⟨r, -, rfl⟩ := List.mem_map.mp hrow
          exact Bool.false_ne_true
    · exact sum_lostByReason db anchor filters activityAvailable
    · exact (months_iff db anchor filters).mpr h
    · intro havailable
      obtain rfl : activityAvailable = true := havailable
      show safeDiv (atRiskCount db anchor filters) (openCount db anchor filters) = _
      rw [atRiskCount_eq]
      rfl

/-! ## An opportunity later in the month -/

theorem tenth_of_march : 1 ≤ 10 ∧ 10 ≤ daysInMonth 2026 3 := by decide

theorem fifteenth_of_march : 1 ≤ 15 ∧ 15 ≤ daysInMonth 2026 3 := by decide

theorem twentieth_of_march : 1 ≤ 20 ∧ 20 ≤ daysInMonth 2026 3 := by decide

def march10 : Date := dateOnlyUTC 2026 3 10 march_bounds tenth_of_march

def march15 : Date := dateOnlyUTC 2026 3 15 march_bounds fifteenth_of_march

def march20 : Date := dateOnlyUTC 2026 3 20 march_bounds twentieth_of_march

def openSince (d : Date) : Opportunity where
  opportunityId := 1
  opportunityName := none
  customer := none
  company := none
  salesperson := none
  expectedRevenue := none
  stageId := some 1
  stage := some "New"
  opportunityCreatedDate := some d
  opportunityStatus := some .pending
  isOpen := some 1
  isWon := some 0
  isLost := some 0
  lostReasonId := none
  salesSegment := some "B2B"
  hasQuotation := some 0
  lastQuotationDate := none
  daysSinceLastQuotation := none
  opportunityAge := some 5
  companyKey := 1
  segmentKey := 1
  salesTeamKey := "1"
  salespersonKey := 1
  customerKey := 1

theorem flags_openSince (d : Date) : (openSince d).FlagsOfStatus :=
  ⟨.pending, rfl, rfl, rfl, rfl⟩

def oneOpportunity (d : Date) : Warehouse where
  opportunities := [openSince d]
  lostReasons := []
  profiles := []
  stages := []
  collation := id
  flags := by
    intro fo hfo
    rw [List.mem_singleton.mp hfo]
    exact flags_openSince d
  lostReasonId_nodup := List.nodup_nil
  salespersonKey_nodup := List.nodup_nil

/-- On the 20th the page of the 10th is asked for, and the 15th is in its chart alone. -/
theorem chart_beyond_anchor :
    (computeActivityMomentumOverview (oneOpportunity march15) true
      (parsePipelineAnchor march20 (some march10)) fun _ => []).counts.totalYtd = 0 ∧
    ((computeActivityMomentumOverview (oneOpportunity march15) true
      (parsePipelineAnchor march20 (some march10)) fun _ => []).newOpportunitiesByMonth.map
        (·.countYtd)) = [0, 0, 1] ∧
    ¬ Reconciles (oneOpportunity march15) (parsePipelineAnchor march20 (some march10)) (fun _ => [])
      (computeActivityMomentumOverview (oneOpportunity march15) true
        (parsePipelineAnchor march20 (some march10)) fun _ => []) := by
  refine ⟨by decide, by decide, ?_⟩
  intro h
  exact absurd h.byMonth (by decide)

end SalesDashboard.ActivityMomentum
