import SalesDashboard.PeriodAxis.NpsAxis
import SalesDashboard.Lib.Counts
import SalesDashboard.Lib.Grouping

/-! The Collections and NPS trends: the rows of a range grouped by period, put on the
listed periods by their keys, and added up again. -/

namespace SalesDashboard.PeriodAxis
open Tachometer CriticalNumber Firsts Grouping

/-! ## Collections -/

/-- A collection with the qualifying amounts of its allocation (`e`) and the payment's
own (`v`). -/
structure Allocation where
  paymentId : Int
  paymentDate : Date
  currency : String
  amountDocCcy : ℚ
  appliedOverdueDocCcy : ℚ
  appliedNotDueDocCcy : ℚ
  paymentDocCcy : ℚ
  paymentCompanyCcy : ℚ
  deriving DecidableEq

/-- `amountSql`. -/
def amountSql (allCurrencies : Bool) (column : Allocation → ℚ) (a : Allocation) : ℚ :=
  if allCurrencies then
    if a.paymentDocCcy = 0 then 0 else column a * a.paymentCompanyCcy / a.paymentDocCcy
  else column a

structure CollectionsQuery where
  currency : Option String
  allCurrencies : Bool
  grain : CollectionGrain
  fromDate : Date
  toDate : Date
  deriving DecidableEq

/-- `payment_date BETWEEN from AND to`, and the currency if there is one. -/
def collectionSource (cq : CollectionsQuery) (currency : Option String) (facts : List Allocation) :
    List Allocation :=
  facts.filter fun a => DateWindow.has ⟨cq.fromDate, cq.toDate⟩ a.paymentDate &&
    currency.all fun c => decide (a.currency = c)

def paymentCount (rows : List Allocation) : Nat := (firsts (rows.map (·.paymentId))).length

/-- The currency with the most payments first, then by name. -/
def currencyBefore (a b : String × Nat) : Prop := b.2 < a.2 ∨ a.2 = b.2 ∧ a.1 ≤ b.1

instance : DecidableRel currencyBefore := fun a b =>
  inferInstanceAs (Decidable (b.2 < a.2 ∨ a.2 = b.2 ∧ a.1 ≤ b.1))

def currenciesOf (rows : List Allocation) : List String :=
  (((groups Allocation.currency rows).map fun g => (g.1, paymentCount g.2)).insertionSort currencyBefore).map (·.1)

def COMPANY_CURRENCY : String := "LYD"

structure CollectionPoint where
  periodStart : Date
  periodEnd : Date
  collected : ℚ
  appliedOverdue : ℚ
  appliedNotDue : ℚ
  payments : Nat
  deriving DecidableEq

structure CollectionsTrend where
  currency : Option String
  currencies : List String
  points : List CollectionPoint
  deriving DecidableEq

def sumOf (allCurrencies : Bool) (column : Allocation → ℚ) (rows : List Allocation) : ℚ :=
  (rows.map (amountSql allCurrencies column)).sum

/-- The rows of a period's group; without one, none. -/
def groupOf (grain : CollectionGrain) (rows : List Allocation) (start : Date) : List Allocation :=
  (((groups (fun a : Allocation => periodSql a.paymentDate grain) rows).find?
    fun g => decide (g.1 = start)).map (·.2)).getD []

/-- The currency of the trend: LYD for all, else the one asked for or the most used. -/
def chosenCurrency (cq : CollectionsQuery) (facts : List Allocation) : Option String :=
  if cq.allCurrencies then some COMPANY_CURRENCY
  else cq.currency.orElse fun _ => (currenciesOf (collectionSource cq none facts)).head?

/-- The rows that the trend adds up. -/
def trendRows (cq : CollectionsQuery) (facts : List Allocation) : List Allocation :=
  if chosenCurrency cq facts = none then []
  else collectionSource cq (if cq.allCurrencies then none else chosenCurrency cq facts) facts

/-- The point of a period. -/
def collectionPoint (cq : CollectionsQuery) (rows : List Allocation) (p : Period) : CollectionPoint :=
  let own := groupOf cq.grain rows p.start
  { periodStart := p.start
    periodEnd := p.stop
    collected := sumOf cq.allCurrencies (·.amountDocCcy) own
    appliedOverdue := sumOf cq.allCurrencies (·.appliedOverdueDocCcy) own
    appliedNotDue := sumOf cq.allCurrencies (·.appliedNotDueDocCcy) own
    payments := paymentCount own }

/-- `fetchCollectionsTrend`; `none` is the refusal of too many periods. The start balances
are read from another table. -/
def fetchCollectionsTrend (cq : CollectionsQuery) (facts : List Allocation) : Option CollectionsTrend :=
  (periodsBetween cq.fromDate cq.toDate cq.grain).map fun periods =>
    { currency := chosenCurrency cq facts
      currencies := currenciesOf (collectionSource cq none facts)
      points := periods.map (collectionPoint cq (trendRows cq facts)) }

/-! ## NPS -/

structure Response where
  ratingDate : Date
  npsLevel : Nat
  deriving DecidableEq

structure NpsCounts where
  responders : Nat
  promoters : Nat
  passives : Nat
  detractors : Nat
  nps : Option ℚ
  csat : Option ℚ
  deriving DecidableEq

def npsScore (promoters passives detractors : Nat) : Option ℚ :=
  let responders := promoters + passives + detractors
  if responders = 0 then none
  else some ((promoters : ℚ) / responders * 100 - (detractors : ℚ) / responders * 100)

def csatScore (promoters passives detractors : Nat) : Option ℚ :=
  let responders := promoters + passives + detractors
  if responders = 0 then none else some (((passives + promoters : Nat) : ℚ) / responders * 100)

def levelCount (level : Nat) (rows : List Response) : Nat := rows.countP fun r => decide (r.npsLevel = level)

/-- `toCounts` of the summed levels. -/
def toCounts (rows : List Response) : NpsCounts :=
  let promoters := levelCount 3 rows
  let passives := levelCount 2 rows
  let detractors := levelCount 1 rows
  { responders := promoters + passives + detractors
    promoters := promoters
    passives := passives
    detractors := detractors
    nps := npsScore promoters passives detractors
    csat := csatScore promoters passives detractors }

structure NpsQuery where
  dateFrom : Date
  dateTo : Date
  grain : NpsGrain
  deriving DecidableEq

/-- `RatingDateKey BETWEEN from AND to`. -/
def npsWhere (q : NpsQuery) (facts : List Response) : List Response :=
  facts.filter fun r => decide (dateKeyOf q.dateFrom ≤ dateKeyOf r.ratingDate) &&
    decide (dateKeyOf r.ratingDate ≤ dateKeyOf q.dateTo)

def fetchNpsOverview (q : NpsQuery) (facts : List Response) : NpsCounts := toCounts (npsWhere q facts)

/-- The groups of the trend's query. -/
def npsGroups (q : NpsQuery) (facts : List Response) : List (Int × List Response) :=
  groups (fun r : Response => grainExpr r.ratingDate q.grain) (npsWhere q facts)

def npsGroupOf (q : NpsQuery) (facts : List Response) (p : Int) : List Response :=
  (((npsGroups q facts).find? fun g => decide (g.1 = p)).map (·.2)).getD []

/-- `byPeriod.has(p)`. -/
def npsHas (q : NpsQuery) (facts : List Response) (p : Int) : Bool :=
  (npsGroups q facts).any fun g => decide (g.1 = p)

/-- `fetchNpsTrend`: the points from the first period with ratings on; `none` is the
refusal of too many weeks. -/
def fetchNpsTrend (q : NpsQuery) (facts : List Response) : Option (List (Int × NpsCounts)) :=
  let periods := npsPeriodsBetween q.dateFrom q.dateTo q.grain
  if q.grain = .week ∧ MAX_WEEKLY_POINTS < periods.length then none
  else some ((periods.dropWhile fun p => !npsHas q facts p).map fun p => (p, toCounts (npsGroupOf q facts p)))

/-! ## The points add up -/

theorem groupOf_eq (grain : CollectionGrain) (rows : List Allocation) (start : Date) :
    groupOf grain rows start = rowsOf (fun a : Allocation => periodSql a.paymentDate grain) rows start :=
  lookup_groups _ rows start id

theorem npsGroupOf_eq (q : NpsQuery) (facts : List Response) (p : Int) :
    npsGroupOf q facts p = rowsOf (fun r : Response => grainExpr r.ratingDate q.grain) (npsWhere q facts) p :=
  lookup_groups _ _ p id

theorem npsHas_eq_false {q : NpsQuery} {facts : List Response} {p : Int} (h : npsHas q facts p = false) :
    npsGroupOf q facts p = [] := by
  have hnone : (npsGroups q facts).find? (fun g => decide (g.1 = p)) = none := by
    rw [List.find?_eq_none]
    intro g hg heq
    unfold npsHas at h
    rw [List.any_eq_false] at h
    exact h g hg heq
  unfold npsGroupOf
  rw [hnone]
  rfl

theorem trendRows_within {cq : CollectionsQuery} {facts : List Allocation} {a : Allocation}
    (h : a ∈ trendRows cq facts) : cq.fromDate.le a.paymentDate = true ∧ a.paymentDate.le cq.toDate = true := by
  unfold trendRows at h
  split at h
  · cases h
  · have hsource := (List.mem_filter.mp h).2
    rw [Bool.and_eq_true, DateWindow.has, Bool.and_eq_true] at hsource
    exact hsource.1

/-- Whatever is added up over the rows of the periods is added up over all rows. -/
theorem Agrees.sum_groups {cq : CollectionsQuery} {ps : List Period}
    (h : Agrees cq.fromDate cq.toDate cq.grain ps) (facts : List Allocation) (column : Allocation → ℚ) :
    (ps.map fun p => sumOf cq.allCurrencies column (groupOf cq.grain (trendRows cq facts) p.start)).sum =
      sumOf cq.allCurrencies column (trendRows cq facts) := by
  have hnodup : (ps.map (·.start)).Nodup :=
    List.pairwise_map.mpr (h.increasing.imp fun hab heq => by rw [heq] at hab; exact hab.false)
  have hvalues := sum_values (fun a : Allocation => periodSql a.paymentDate cq.grain) (ps.map (·.start)) hnodup
    (trendRows cq facts) (amountSql cq.allCurrencies column)
  have hall : (trendRows cq facts).filter
      (fun a => decide (periodSql a.paymentDate cq.grain ∈ ps.map (·.start))) = trendRows cq facts := by
    refine List.filter_eq_self.mpr fun a ha => decide_eq_true ?_
    obtain ⟨hfrom, hto⟩ := trendRows_within ha
    obtain ⟨p, hp, -, hkey, -⟩ := h.holds a.paymentDate hfrom hto
    exact List.mem_map.mpr ⟨p, hp, hkey⟩
  rw [hall, List.map_map] at hvalues
  unfold sumOf
  simp only [groupOf_eq]
  exact hvalues

/-- The responses of all periods, level by level. -/
theorem NpsAgrees.sum_levels {q : NpsQuery} {ks : List Int} (h : NpsAgrees q.dateFrom q.dateTo q.grain ks)
    (facts : List Response) (level : Nat) :
    (ks.map fun p => levelCount level (npsGroupOf q facts p)).sum = levelCount level (npsWhere q facts) := by
  have hnodup : ks.Nodup := h.increasing.imp fun hab => hab.ne
  have hcount := Counts.sum_countP_keys (fun r : Response => grainExpr r.ratingDate q.grain)
    (fun r => decide (r.npsLevel = level)) hnodup (npsWhere q facts)
  have hall : ∀ r ∈ npsWhere q facts, grainExpr r.ratingDate q.grain ∈ ks := by
    intro r hr
    have hsource := (List.mem_filter.mp hr).2
    rw [Bool.and_eq_true, decide_eq_true_eq, decide_eq_true_eq, dateKeyOf_le_iff, dateKeyOf_le_iff] at hsource
    exact h.holds r.ratingDate hsource.1 hsource.2
  have hright : (npsWhere q facts).countP (fun r => decide (r.npsLevel = level) &&
      decide (grainExpr r.ratingDate q.grain ∈ ks)) = levelCount level (npsWhere q facts) := by
    refine List.countP_congr fun r hr => ?_
    simp [hall r hr]
  rw [← hright, ← hcount]
  refine congrArg List.sum (List.map_congr_left fun p _ => ?_)
  rw [npsGroupOf_eq]
  unfold levelCount rowsOf
  rw [List.countP_filter]

/-- What is dropped from the front of a sum is nothing. -/
theorem sum_dropWhile {α : Type} (p : α → Bool) (w : α → Nat) (xs : List α) (h : ∀ x, p x = true → w x = 0) :
    ((xs.dropWhile p).map w).sum = (xs.map w).sum := by
  induction xs with
  | nil => rfl
  | cons x xs ih =>
    rw [List.dropWhile_cons]
    split
    · next hx => rw [ih, List.map_cons, List.sum_cons, h x hx, Nat.zero_add]
    · rfl

/-! ## The axis and the points -/

/-- The Collections periods of a range agree with the grouping, and the points of any
facts add up to the totals of the range. -/
def CollectionsAgree (fromDate toDate : Date) (grain : CollectionGrain) : Prop :=
  ∃ ps, periodsBetween fromDate toDate grain = some ps ∧ Agrees fromDate toDate grain ps ∧
    ∀ currency allCurrencies facts, ∃ trend,
      fetchCollectionsTrend ⟨currency, allCurrencies, grain, fromDate, toDate⟩ facts = some trend ∧
      let total := fun column => sumOf allCurrencies column
        (trendRows ⟨currency, allCurrencies, grain, fromDate, toDate⟩ facts)
      (trend.points.map (·.collected)).sum = total (·.amountDocCcy) ∧
        (trend.points.map (·.appliedOverdue)).sum = total (·.appliedOverdueDocCcy) ∧
        (trend.points.map (·.appliedNotDue)).sum = total (·.appliedNotDueDocCcy)

/-- The same of the NPS periods; the totals are those of the overview. -/
def NpsAgree (fromDate toDate : Date) (grain : NpsGrain) : Prop :=
  NpsAgrees fromDate toDate grain (npsPeriodsBetween fromDate toDate grain) ∧
    ∀ facts, ∃ points, fetchNpsTrend ⟨fromDate, toDate, grain⟩ facts = some points ∧
      let totals := fetchNpsOverview ⟨fromDate, toDate, grain⟩ facts
      (points.map (·.2.responders)).sum = totals.responders ∧
        (points.map (·.2.promoters)).sum = totals.promoters ∧
        (points.map (·.2.passives)).sum = totals.passives ∧
        (points.map (·.2.detractors)).sum = totals.detractors

theorem Agrees.collectionsAgree {fromDate toDate : Date} {grain : CollectionGrain} {ps : List Period}
    (hps : periodsBetween fromDate toDate grain = some ps) (h : Agrees fromDate toDate grain ps) :
    CollectionsAgree fromDate toDate grain := by
  refine ⟨ps, hps, h, fun currency allCurrencies facts => ?_⟩
  have hsum := @Agrees.sum_groups ⟨currency, allCurrencies, grain, fromDate, toDate⟩ ps h facts
  refine ⟨_, by unfold fetchCollectionsTrend; rw [hps]; rfl, ?_, ?_, ?_⟩
  · exact (congrArg List.sum List.map_map).trans (hsum (·.amountDocCcy))
  · exact (congrArg List.sum List.map_map).trans (hsum (·.appliedOverdueDocCcy))
  · exact (congrArg List.sum List.map_map).trans (hsum (·.appliedNotDueDocCcy))

/-- The points leave out only periods without ratings. -/
theorem NpsAgrees.npsAgree {fromDate toDate : Date} {grain : NpsGrain}
    (h : NpsAgrees fromDate toDate grain (npsPeriodsBetween fromDate toDate grain))
    (hlimit : grain = .week → (npsPeriodsBetween fromDate toDate grain).length ≤ MAX_WEEKLY_POINTS) :
    NpsAgree fromDate toDate grain := by
  refine ⟨h, fun facts => ?_⟩
  have hno : ¬ (grain = .week ∧ MAX_WEEKLY_POINTS < (npsPeriodsBetween fromDate toDate grain).length) := by
    rintro ⟨hweek, hlt⟩
    exact absurd (hlimit hweek) (by omega)
  have hlevel : ∀ level, (((npsPeriodsBetween fromDate toDate grain).dropWhile fun p =>
      !npsHas ⟨fromDate, toDate, grain⟩ facts p).map fun p =>
        levelCount level (npsGroupOf ⟨fromDate, toDate, grain⟩ facts p)).sum =
          levelCount level (npsWhere ⟨fromDate, toDate, grain⟩ facts) := by
    intro level
    rw [sum_dropWhile]
    · exact NpsAgrees.sum_levels h facts level
    · intro p hp
      rw [npsHas_eq_false (by simpa using hp)]
      rfl
  refine ⟨_, by unfold fetchNpsTrend; exact if_neg hno, ?_, ?_, ?_, ?_⟩
  · rw [List.map_map]
    refine Eq.trans ?_ (congrArg₂ (· + ·) (congrArg₂ (· + ·) (hlevel 3) (hlevel 2)) (hlevel 1))
    rw [← List.sum_map_add, ← List.sum_map_add]
    rfl
  · exact (congrArg List.sum List.map_map).trans (hlevel 3)
  · exact (congrArg List.sum List.map_map).trans (hlevel 2)
  · exact (congrArg List.sum List.map_map).trans (hlevel 1)

section
variable {fromDate toDate : Date} (h : Valid fromDate toDate)
include h

theorem Valid.collectionsAgree_iff (grain : CollectionGrain)
    (hlimit : periodCount fromDate toDate grain ≤ MAX_PERIODS) :
    CollectionsAgree fromDate toDate grain ↔ LastFits toDate grain := by
  constructor
  · rintro ⟨ps, hps, -⟩
    by_contra hfits
    rw [h.periodsBetween_overflow hfits] at hps
    cases hps
  · intro hfits
    have hpos : 0 ≤ periodCount fromDate toDate grain := by
      have hle := @placeOf_mono grain _ _ h.ordered
      unfold periodCount
      omega
    exact Agrees.collectionsAgree (h.periodsBetween_eq hfits hlimit)
      (h.agrees (Int.toNat_of_nonneg hpos))

theorem Valid.npsAgree_week_iff (hlimit : periodCount fromDate toDate .week ≤ MAX_WEEKLY_POINTS) :
    NpsAgree fromDate toDate .week ↔ LastFits toDate .week := by
  have hpos : 0 ≤ periodCount fromDate toDate .week := by
    have hle := @placeOf_mono .week _ _ h.ordered
    unfold periodCount
    omega
  constructor
  · rintro ⟨-, hpoints⟩
    by_contra hfits
    obtain ⟨points, hsome, -⟩ := hpoints []
    have hlength : MAX_WEEKLY_POINTS < (npsPeriodsBetween fromDate toDate .week).length := by
      have hrun := h.length_overflow hfits (MAX_WEEKLY_POINTS + 1)
      simp only [npsPeriodsBetween, List.length_map, listWeeks_eq]
      exact (Nat.lt_succ_self _).trans_le hrun.ge
    have hnone : fetchNpsTrend ⟨fromDate, toDate, .week⟩ [] = none := if_pos ⟨rfl, hlength⟩
    rw [hnone] at hsome
    cases hsome
  · intro hfits
    have hkeys : npsPeriodsBetween fromDate toDate .week =
        (starts .week (weekStartIso fromDate) (periodCount fromDate toDate .week).toNat).map dateKeyOf := by
      simp only [npsPeriodsBetween, listWeeks_eq]
      exact congrArg _ (h.listStarts_eq hfits (by push_cast; omega))
    refine NpsAgrees.npsAgree ?_ fun _ => ?_
    · rw [hkeys]
      exact h.npsAgrees_week (Int.toNat_of_nonneg hpos)
    · rw [hkeys, List.length_map, starts, List.length_iterate]
      omega

end

/-- A date lies in the period that its start names, and the start is a start. -/
theorem periodStart_holds (grain : CollectionGrain) {d : Date} (hge : 1000 ≤ d.year) (hle : d.year ≤ 9999) :
    periodStart (periodStart d grain) grain = periodStart d grain ∧
      (periodStart d grain).le d = true ∧ d.le (periodEnd (periodStart d grain) grain) = true := by
  obtain ⟨hstart, hplace⟩ := @isStart_periodStart grain _ hge hle
  have hfirst : (periodStart d grain).le d = true := hstart.place_le_iff.mp hplace.le
  have hyear : (periodStart d grain).year ≤ 9999 :=
    (year_le_of_le (dayNumber_le_iff.mpr hfirst)).trans hle
  have hhas := (starts_has hstart (@year_periodStart_ge grain _ hge hle) hyear (d := d)).mpr hplace.symm
  exact ⟨hstart.periodStart_eq hyear, hhas⟩

/-- **The period axis and the grouped query agree** exactly where the period after the
range starts in year 9999 at the latest; the NPS months and years always do. -/
theorem periods_agree_iff {fromDate toDate : Date} (h : Valid fromDate toDate) :
    (∀ grain, periodCount fromDate toDate grain ≤ MAX_PERIODS →
      (CollectionsAgree fromDate toDate grain ↔ LastFits toDate grain)) ∧
    (periodCount fromDate toDate .week ≤ MAX_WEEKLY_POINTS →
      (NpsAgree fromDate toDate .week ↔ LastFits toDate .week)) ∧
    NpsAgree fromDate toDate .month ∧ NpsAgree fromDate toDate .year ∧
    ∀ (grain : CollectionGrain) (d : Date), fromDate.le d = true → d.le toDate = true →
      periodStart (periodStart d grain) grain = periodStart d grain ∧
        (periodStart d grain).le d = true ∧ d.le (periodEnd (periodStart d grain) grain) = true := by
  refine ⟨h.collectionsAgree_iff, h.npsAgree_week_iff, (npsAgrees_month _ _).npsAgree ?_,
    (npsAgrees_year _ _).npsAgree ?_, ?_⟩
  · rintro ⟨⟩
  · rintro ⟨⟩
  · intro grain d hfrom hto
    obtain ⟨hge, hle⟩ := h.year_of_mem hfrom hto
    exact periodStart_holds grain hge hle

def sampleFrom : Date := firstOf 2027 1 (by omega) january

def sampleTo : Date := lastOf 2027 1 (by omega) january

theorem periods_agree_iff_sample : CollectionsAgree sampleFrom sampleTo .week ∧ NpsAgree sampleFrom sampleTo .week :=
  have h : Valid sampleFrom sampleTo := ⟨by decide, by decide, by decide⟩
  ⟨((periods_agree_iff h).1 .week (by decide)).mpr (by decide),
    ((periods_agree_iff h).2.1 (by decide)).mpr (by decide)⟩

/-- One day, one period: but the loop runs on, and the range is refused. -/
theorem last_day_refused : Valid lastDate lastDate ∧ periodCount lastDate lastDate .day = 1 ∧
    periodsBetween lastDate lastDate .day = none ∧ ¬ CollectionsAgree lastDate lastDate .day := by
  have h : Valid lastDate lastDate := ⟨by decide, by decide, by decide⟩
  have hnone : periodsBetween lastDate lastDate .day = none := h.periodsBetween_overflow (by decide)
  refine ⟨h, by decide, hnone, ?_⟩
  rintro ⟨ps, hps, -⟩
  rw [hnone] at hps
  cases hps

end SalesDashboard.PeriodAxis
