import SalesDashboard.Tachometer.Measures
import Mathlib

/-! Whether the Tachometer agrees with itself: the cards against the breakdown and the
monthly series. The override of a salesperson stands in for their rows once in a card,
once in each group of a breakdown, and once in each month of the series that has rows. -/

namespace SalesDashboard.Tachometer
open DataScope Firsts Grouping Keyed

/-! ## Targets of one set of months -/

def monthlyOverride (db : Database) (k : ℚ) : Option ℚ := (db.targetOverrideAmount k).map (· / 12)

/-- What the rows of one salesperson come to as a target revenue. -/
def revenueOf (db : Database) (monthCount k : ℚ) (rows : List TargetRow) : ℚ :=
  match monthlyOverride db k with
  | some overrideMonthly => overrideMonthly * monthCount
  | none => total (·.targetRevenue) rows

theorem overrides_eq {db : Database} {keys : List ℚ} {k : ℚ} (h : k ∈ keys) :
    fetchMonthlyOverrideAmounts db keys k = monthlyOverride db k := if_pos (mem_firsts.mpr h)

theorem fetchTargetForMonths_revenue (db : Database) (year : Nat) (filters : Filters) (opts : Opts) :
    (fetchTargetForMonths db year filters opts).targetRevenue =
      ((groups (·.salespersonKey) (targetRows db year filters opts)).map fun g =>
        revenueOf db (monthCountForOpts opts) g.1 g.2).sum := by
  unfold fetchTargetForMonths
  dsimp only
  refine congrArg List.sum (List.map_congr_left fun g hg => ?_)
  rw [overrides_eq (List.mem_map_of_mem hg)]
  rfl

theorem fetchTargetForMonths_volume (db : Database) (year : Nat) (filters : Filters) (opts : Opts) :
    (fetchTargetForMonths db year filters opts).targetVolume =
      total (·.targetVolume) (targetRows db year filters opts) :=
  sum_groups_rows (fun row : TargetRow => row.salespersonKey) _ _

/-- Whatever is summed, the groups add up per salesperson and key. -/
theorem sum_grouped (db : Database) (year : Nat) (filters : Filters) (groupBy : GroupBy)
    (opts : Opts) :
    ((fetchTargetForMonthsGrouped db year filters groupBy opts).map (·.figures.targetRevenue)).sum =
      ((groups (fun row : TargetRow => (row.salespersonKey, keyExpr db row.toFactRow groupBy))
        (targetRows db year filters opts)).map fun g =>
          revenueOf db (monthCountForOpts opts) g.1.1 g.2).sum ∧
    ((fetchTargetForMonthsGrouped db year filters groupBy opts).map (·.figures.targetVolume)).sum =
      total (·.targetVolume) (targetRows db year filters opts) := by
  unfold fetchTargetForMonthsGrouped
  dsimp only
  constructor
  · rw [sum_upserts_nil (d := fun row : GroupedTargetFigures => row.figures.targetRevenue)
      (by exact fun _ _ => rfl) (by exact fun _ => rfl) (by exact fun _ _ _ => rfl)
      (by exact fun _ => rfl), List.map_map]
    refine congrArg List.sum (List.map_congr_left fun g hg => ?_)
    have hk : g.1.1 ∈ (groups (fun row : TargetRow => (row.salespersonKey,
        keyExpr db row.toFactRow groupBy)) (targetRows db year filters opts)).map (·.1.1) :=
      List.mem_map_of_mem hg
    simp only [Function.comp_apply, overrides_eq hk]
    rfl
  · rw [sum_upserts_nil (d := fun row : GroupedTargetFigures => row.figures.targetVolume)
      (by exact fun _ _ => rfl) (by exact fun _ => rfl) (by exact fun _ _ _ => rfl)
      (by exact fun _ => rfl), List.map_map]
    exact sum_groups_rows (fun row : TargetRow => (row.salespersonKey,
      keyExpr db row.toFactRow groupBy)) _ _

/-- What the overrides come to beyond once each when every group of a salesperson's rows
counts them: monthly amount, months, and groups less one. -/
def groupSurplus (db : Database) (groupBy : GroupBy) (monthCount : ℚ) (rows : List TargetRow) : ℚ :=
  ((groups (·.salespersonKey) rows).map fun g =>
    (monthlyOverride db g.1).getD 0 * monthCount *
      ((firsts (g.2.map fun row => keyExpr db row.toFactRow groupBy)).length - 1)).sum

theorem sum_revenueOf_groups (db : Database) (monthCount k : ℚ) (c : TargetRow → Key)
    (rows : List TargetRow) :
    ((groups c rows).map fun h => revenueOf db monthCount k h.2).sum =
      revenueOf db monthCount k rows +
        (monthlyOverride db k).getD 0 * monthCount * ((firsts (rows.map c)).length - 1) := by
  unfold revenueOf
  cases monthlyOverride db k with
  | none =>
    dsimp only [Option.getD_none]
    rw [zero_mul, zero_mul, add_zero]
    exact sum_groups_rows c rows _
  | some a =>
    dsimp only [Option.getD_some]
    rw [List.map_const', List.sum_replicate, length_groups, nsmul_eq_mul]
    ring

theorem sum_grouped_revenue (db : Database) (year : Nat) (filters : Filters) (groupBy : GroupBy)
    (opts : Opts) :
    ((fetchTargetForMonthsGrouped db year filters groupBy opts).map (·.figures.targetRevenue)).sum =
      (fetchTargetForMonths db year filters opts).targetRevenue +
        groupSurplus db groupBy (monthCountForOpts opts) (targetRows db year filters opts) := by
  rw [(sum_grouped db year filters groupBy opts).1, fetchTargetForMonths_revenue]
  have hpair := sum_groups_pair (·.salespersonKey)
    (fun row : TargetRow => keyExpr db row.toFactRow groupBy) (targetRows db year filters opts)
    (fun k _ rows => revenueOf db (monthCountForOpts opts) k rows)
  rw [hpair]
  unfold groupSurplus
  rw [← List.sum_map_add]
  refine congrArg List.sum (List.map_congr_left fun g _ => ?_)
  exact sum_revenueOf_groups ..

/-! ## The breakdown -/

@[simp]
theorem TargetFigures.of_add (t t' : TargetFigures) (metric : Metric) :
    (t.add t').of metric = t.of metric + t'.of metric := by cases metric <;> rfl

@[simp]
theorem TargetFigures.of_scale (t : TargetFigures) (fraction : ℚ) (metric : Metric) :
    (t.scale fraction).of metric = t.of metric * fraction := by cases metric <;> rfl

/-- A target over a period, from those of its sets of months. -/
def prorated (anchor : Date) (period : Period) (completed current : ℚ) : ℚ :=
  match period with
  | .mtd => current * monthElapsedFraction anchor
  | .ytd => completed + current * monthElapsedFraction anchor

/-- The surplus of a breakdown over the card. -/
def breakdownSurplus (db : Database) (anchor : Date) (filters : Filters) (period : Period)
    (groupBy : GroupBy) : ℚ :=
  let surplus := fun opts => groupSurplus db groupBy (monthCountForOpts opts)
    (targetRows db anchor.year filters opts)
  prorated anchor period (surplus (.before anchor.month)) (surplus (.only anchor.month))

def card (db : Database) (anchor : Date) (filters : Filters) (metric : Metric) : Period → TachometerCard
  | .mtd => computeMtdCard db anchor filters metric
  | .ytd => computeYtdCard db anchor filters metric

section
variable (db : Database) (anchor : Date) (filters : Filters) (period : Period) (metric : Metric)
  (groupBy : GroupBy)

theorem card_targetToDate : (card db anchor filters metric period).targetToDate =
    prorated anchor period
      ((fetchTargetForMonths db anchor.year filters (.before anchor.month)).of metric)
      ((fetchTargetForMonths db anchor.year filters (.only anchor.month)).of metric) := by
  cases period <;> cases metric <;> rfl

theorem sum_grouped_of (opts : Opts) :
    ((fetchTargetForMonthsGrouped db anchor.year filters groupBy opts).map (·.figures.of metric)).sum =
      (fetchTargetForMonths db anchor.year filters opts).of metric +
        if metric = .value then groupSurplus db groupBy (monthCountForOpts opts)
          (targetRows db anchor.year filters opts) else 0 := by
  cases metric with
  | value => exact sum_grouped_revenue db anchor.year filters groupBy opts
  | volume =>
    rw [if_neg (by decide), add_zero]
    exact (sum_grouped db anchor.year filters groupBy opts).2.trans
      (fetchTargetForMonths_volume db anchor.year filters opts).symm

theorem nodup_grouped (opts : Opts) :
    ((fetchTargetForMonthsGrouped db anchor.year filters groupBy opts).map (·.groupKey)).Nodup :=
  nodup_upserts (fun _ _ => rfl) (fun _ => rfl) (by exact List.nodup_nil)

theorem nodup_targetByGroup :
    ((targetByGroup db anchor filters period groupBy).map (·.groupKey)).Nodup := by
  cases period with
  | mtd =>
    unfold targetByGroup
    dsimp only
    rw [upserts_of_nodup (by exact fun _ => rfl) (nodup_grouped ..), List.map_map]
    exact nodup_grouped ..
  | ytd =>
    unfold targetByGroup
    dsimp only
    rw [upserts_of_nodup (by exact fun _ => rfl)
      (nodup_grouped db anchor filters groupBy (.before anchor.month)), List.map_id]
    exact nodup_upserts (fun _ _ => rfl) (fun _ => rfl) (nodup_grouped ..)

theorem sum_targetByGroup :
    ((targetByGroup db anchor filters period groupBy).map (·.figures.of metric)).sum =
      (card db anchor filters metric period).targetToDate +
        if metric = .value then breakdownSurplus db anchor filters period groupBy else 0 := by
  rw [card_targetToDate]
  have hbefore := sum_grouped_of db anchor filters metric groupBy (.before anchor.month)
  have honly := sum_grouped_of db anchor filters metric groupBy (.only anchor.month)
  cases period with
  | mtd =>
    unfold targetByGroup breakdownSurplus
    dsimp only
    rw [upserts_of_nodup (by exact fun _ => rfl) (nodup_grouped ..), List.map_map]
    simp only [Function.comp_def, TargetFigures.of_scale, List.sum_map_mul_right, honly, prorated]
    split <;> ring
  | ytd =>
    unfold targetByGroup breakdownSurplus
    dsimp only
    rw [upserts_of_nodup (by exact fun _ => rfl)
      (nodup_grouped db anchor filters groupBy (.before anchor.month)), List.map_id,
      sum_upserts (d := fun r : GroupedTargetFigures =>
        r.figures.of metric * monthElapsedFraction anchor) (by exact fun _ _ => rfl)
        (by exact fun _ => rfl) (by simp) ?_ (nodup_grouped ..)]
    · simp only [List.sum_map_mul_right, honly, hbefore, prorated]
      split <;> ring
    · intro r
      cases metric <;> simp [TargetFigures.of, TargetFigures.add, TargetFigures.scale]

/-- The actuals before the targets are put in. -/
theorem sum_actuals (window : DateWindow) :
    ((fetchValueVolumeGrouped db window filters groupBy).map (·.figures.of metric)).sum =
      (fetchValueVolume db window filters).of metric := by
  unfold fetchValueVolumeGrouped
  rw [List.map_map]
  cases metric with
  | value => exact sum_groups_rows (fun line : SalesLine => keyExpr db line.toFactRow groupBy) _ _
  | volume => exact sum_groups_rows (fun line : SalesLine => keyExpr db line.toFactRow groupBy) _ _

theorem nodup_actuals (window : DateWindow) :
    ((fetchValueVolumeGrouped db window filters groupBy).map (·.groupKey)).Nodup := by
  unfold fetchValueVolumeGrouped
  rw [List.map_map]
  exact (map_fst_groups (fun line : SalesLine => keyExpr db line.toFactRow groupBy) _).symm ▸
    nodup_firsts _

/-- **The breakdown** has the actual of the card, and its target with the surplus. -/
theorem sum_computeBreakdown :
    ((computeBreakdown db anchor filters period metric groupBy).map (·.actual)).sum =
      (card db anchor filters metric period).actual ∧
    ((computeBreakdown db anchor filters period metric groupBy).map (·.targetToDate.getD 0)).sum =
      (card db anchor filters metric period).targetToDate +
        if metric = .value then breakdownSurplus db anchor filters period groupBy else 0 := by
  have hactual : (card db anchor filters metric period).actual =
      (fetchValueVolume db (match period with
        | .mtd => mtdWindow anchor
        | .ytd => ytdWindow anchor) filters).of metric := by
    cases period <;> rfl
  rw [hactual, ← sum_targetByGroup, ← sum_actuals db filters metric groupBy]
  unfold computeBreakdown
  dsimp only
  rw [((List.perm_insertionSort _ _).map _).sum_eq, ((List.perm_insertionSort _ _).map _).sum_eq,
    List.map_map, List.map_map, upserts_of_nodup (by exact fun _ => rfl) (nodup_actuals ..)]
  set actuals := (fetchValueVolumeGrouped db _ filters groupBy).map _ with hactuals
  have hnodup : (actuals.map (·.groupKey)).Nodup := by
    rw [hactuals, List.map_map]
    exact nodup_actuals ..
  have htargets := nodup_targetByGroup db anchor filters period groupBy
  constructor
  · refine (sum_upserts (w := fun r : BreakdownRow => r.actual) (d := fun _ => 0) ?_ ?_ ?_ ?_ hnodup).trans ?_
    · exact fun _ _ => rfl
    · exact fun _ => rfl
    · exact fun _ x _ => (add_zero x.actual).symm
    · exact fun _ => rfl
    · rw [List.map_const', List.sum_replicate, nsmul_zero, add_zero, hactuals, List.map_map]
      rfl
  · refine (sum_upserts_of_nodup (w := fun r : BreakdownRow => r.targetToDate.getD 0)
      (d := fun t : GroupedTargetFigures => t.figures.of metric) ?_ ?_ ?_ ?_ hnodup htargets).trans ?_
    · exact fun _ _ => rfl
    · exact fun _ => rfl
    · intro t x hx
      obtain ⟨r, -, rfl⟩ := List.mem_map.mp hx
      exact (zero_add _).symm
    · exact fun _ => rfl
    · have hzero : (actuals.map fun r => r.targetToDate.getD 0).sum = 0 := by
        rw [hactuals, List.map_map]
        exact List.sum_eq_zero fun x hx => by
          obtain ⟨r, -, rfl⟩ := List.mem_map.mp hx
          rfl
      rw [hzero, zero_add]

end

/-! ## The monthly series -/

def lineMonth (db : Database) (line : SalesLine) : Nat :=
  match db.dimDate line.dateKey with
  | some d => d.month
  | none => 0

theorem linesIn_monthWindow (db : Database) (anchor : Date) (filters : Filters) {m : Nat}
    (hm : 1 ≤ m ∧ m ≤ 12) (hle : m ≤ anchor.month) :
    linesIn db (monthWindow anchor.year m hm anchor) filters =
      Grouping.rowsOf (lineMonth db) (linesIn db (ytdWindow anchor) filters) m := by
  unfold linesIn Grouping.rowsOf
  rw [List.filter_filter]
  refine List.filter_congr fun line _ => ?_
  unfold lineMonth
  cases hdate : db.dimDate line.dateKey with
  | none => simp
  | some d =>
    have hhas : (monthWindow anchor.year m hm anchor).has d =
        ((ytdWindow anchor).has d && decide (d.month = m)) := by
      rw [Bool.eq_iff_iff, monthWindow_has hm hle, Bool.and_eq_true, decide_eq_true_eq]
    dsimp only
    rw [hhas]
    cases (ytdWindow anchor).has d <;> cases decide (d.month = m) <;> simp

/-- The completed months, and the current one. -/
theorem range'_months (anchor : Date) :
    List.range' 1 anchor.month = List.range' 1 (anchor.month - 1) ++ [anchor.month] := by
  have hpos := anchor.month_pos
  rw [show anchor.month = anchor.month - 1 + 1 by omega, List.range'_1_concat]
  congr 2
  omega

section
variable (db : Database) (anchor : Date) (filters : Filters)

/-- A total over the series, month by month. -/
theorem sum_series (φ : MonthlyPoint → ℚ) (ψ : Nat → ℚ)
    (h : ∀ m (hm : 1 ≤ m ∧ m ≤ 12), m ≤ anchor.month → φ (monthlyPoint db anchor filters m hm) = ψ m) :
    ((fetchMonthlySeries db anchor filters).map φ).sum = ((List.range' 1 anchor.month).map ψ).sum := by
  have hle : ∀ m ∈ List.range' 1 anchor.month, (1 ≤ m ∧ m ≤ 12) ∧ m ≤ anchor.month := by
    intro m hm
    have := anchor.month_le
    rw [List.mem_range'_1] at hm
    omega
  unfold fetchMonthlySeries
  rw [List.map_pmap, ← List.pmap_eq_map (p := fun m => 1 ≤ m ∧ m ≤ 12) fun m hm => (hle m hm).1]
  exact congrArg List.sum (List.pmap_congr_left _ fun m hm h₁ _ => h m h₁ (hle m hm).2)

theorem sum_lines (column : SalesLine → Option ℚ) :
    ((List.range' 1 anchor.month).map fun m =>
      total column (Grouping.rowsOf (lineMonth db) (linesIn db (ytdWindow anchor) filters) m)).sum =
      total column (linesIn db (ytdWindow anchor) filters) := by
  refine (sum_values (lineMonth db) _ List.nodup_range' _ _).trans ?_
  unfold total
  rw [List.filter_eq_self.mpr]
  intro line hline
  unfold linesIn at hline
  have hin := (Bool.and_eq_true _ _ ▸ (List.mem_filter.mp hline).2).1
  unfold lineMonth
  cases hdate : db.dimDate line.dateKey with
  | none =>
    rw [hdate] at hin
    cases hin
  | some d =>
    rw [hdate] at hin
    obtain ⟨hyear, hle⟩ := ytdWindow_has.mp hin
    rw [Date.le_iff] at hle
    have hpos := d.month_pos
    show decide (d.month ∈ List.range' 1 anchor.month) = true
    rw [decide_eq_true_eq, List.mem_range'_1]
    omega

/-- The actuals of the series are those of the card. -/
theorem sum_series_actual :
    ((fetchMonthlySeries db anchor filters).map (·.value)).sum =
      (computeYtdCard db anchor filters .value).actual ∧
    ((fetchMonthlySeries db anchor filters).map (·.volume)).sum =
      (computeYtdCard db anchor filters .volume).actual := by
  constructor
  · refine (sum_series db anchor filters _ _ fun m hm hle => ?_).trans (sum_lines db anchor filters (·.value))
    show total (·.value) (linesIn db _ filters) = _
    rw [linesIn_monthWindow db anchor filters hm hle]
  · refine (sum_series db anchor filters _ _ fun m hm hle => ?_).trans (sum_lines db anchor filters (·.volume))
    show total (·.volume) (linesIn db _ filters) = _
    rw [linesIn_monthWindow db anchor filters hm hle]

/-- The rows of the completed months. -/
def completedRows : List TargetRow := targetRows db anchor.year filters (.before anchor.month)

theorem targetRows_only {m : Nat} (hm : m < anchor.month) :
    targetRows db anchor.year filters (.only m) =
      Grouping.rowsOf (·.month) (completedRows db anchor filters) (some (m : Int)) := by
  unfold completedRows targetRows Grouping.rowsOf
  rw [List.filter_filter]
  refine List.filter_congr fun row _ => ?_
  by_cases hmonth : row.month = some (m : Int)
  · have hlt : (m : Int) < anchor.month := by exact_mod_cast hm
    simp [Opts.admits, Opts.only, Opts.before, hmonth, hlt]
  · simp [Opts.admits, Opts.only, hmonth]

theorem month_of_mem_completed {row : TargetRow} (h : row ∈ completedRows db anchor filters) :
    ∃ x : Int, row.month = some x ∧ x < anchor.month := by
  unfold completedRows targetRows at h
  have hadmits := (Bool.and_eq_true _ _ ▸ (Bool.and_eq_true _ _ ▸ (List.mem_filter.mp h).2).1).2
  cases hmonth : row.month with
  | none =>
    rw [hmonth] at hadmits
    cases hadmits
  | some x =>
    rw [hmonth] at hadmits
    exact ⟨x, rfl, of_decide_eq_true hadmits⟩

def beforeJanuary (row : TargetRow) : Bool := row.month.any fun x => decide (x < 1)

def completedMonths : List Nat := List.range' 1 (anchor.month - 1)

/-- The completed months in which there is no row. -/
def missingMonths (rows : List TargetRow) : Nat :=
  (completedMonths anchor).countP fun m : Nat => decide (Grouping.rowsOf (·.month) rows (some (m : Int)) = [])

/-- A total over the completed months and what comes before January. -/
theorem sum_completed (column : TargetRow → Option ℚ) {rows : List TargetRow}
    (hrows : ∀ row ∈ rows, row ∈ completedRows db anchor filters) :
    ((completedMonths anchor).map fun m : Nat => total column (Grouping.rowsOf (·.month) rows (some (m : Int)))).sum +
      total column (rows.filter beforeJanuary) = total column rows := by
  set ms : List (Option Int) := (completedMonths anchor).map fun m : Nat => some (m : Int) with hms
  have hnodup : ms.Nodup :=
    (List.nodup_range' ..).map fun a b h => Int.ofNat.inj (Option.some.inj h)
  have hvalues : (ms.map fun m => total column (Grouping.rowsOf (·.month) rows m)).sum =
      total column (rows.filter fun row => decide (row.month ∈ ms)) := by
    refine (sum_values (fun row : TargetRow => row.month) ms hnodup rows
      fun row => (column row).getD 0).trans ?_
    exact congrArg (total column) (List.filter_congr fun row _ => by congr)
  have hnot : rows.filter beforeJanuary = rows.filter fun row => !decide (row.month ∈ ms) := by
    refine List.filter_congr fun row hrow => ?_
    obtain ⟨x, hx, hlt⟩ := month_of_mem_completed db anchor filters (hrows row hrow)
    have hmem : row.month ∈ ms ↔ 1 ≤ x := by
      rw [hx, hms, List.mem_map]
      constructor
      · rintro ⟨m, hm, heq⟩
        have heq := Option.some.inj heq
        have hm := (List.mem_range'_1.mp hm).1
        omega
      · intro hpos
        refine ⟨x.toNat, List.mem_range'_1.mpr (by omega), congrArg some (by omega)⟩
    by_cases hpos : 1 ≤ x
    · rw [decide_eq_true (hmem.mpr hpos)]
      simp [beforeJanuary, hx, hpos]
    · rw [decide_eq_false fun hm => hpos (hmem.mp hm)]
      have hneg : x < 1 := by omega
      simp [beforeJanuary, hx, hneg]
  have hsplit : total column (rows.filter fun row => decide (row.month ∈ ms)) +
      total column (rows.filter fun row => !decide (row.month ∈ ms)) = total column rows :=
    sum_filter_add_not _ rows _
  rw [hnot, ← hsplit, ← hvalues, hms, List.map_map]
  rfl

end

/-- What the series leaves out of the card's target: the overrides of the completed months
without a row of a salesperson who has one before the current month, and the targets that
come before January. -/
def seriesShortfall (db : Database) (anchor : Date) (filters : Filters) : ℚ :=
  ((groups (·.salespersonKey) (completedRows db anchor filters)).map fun g =>
    match monthlyOverride db g.1 with
    | some overrideMonthly => overrideMonthly * missingMonths anchor g.2
    | none => total (·.targetRevenue) (g.2.filter beforeJanuary)).sum

theorem sum_ite_const {α : Type} (p : α → Prop) [DecidablePred p] (a : ℚ) (xs : List α) :
    (xs.map fun x => if p x then 0 else a).sum + a * (xs.countP fun x => decide (p x)) =
      a * xs.length := by
  induction xs with
  | nil => simp
  | cons x xs ih =>
    rw [List.map_cons, List.sum_cons, List.countP_cons, List.length_cons]
    by_cases hp : p x
    · rw [if_pos hp, if_pos (decide_eq_true hp)]
      push_cast
      linarith
    · rw [if_neg hp, if_neg (by simpa using hp)]
      push_cast
      linarith

section
variable (db : Database) (anchor : Date) (filters : Filters)

theorem monthCount_before : monthCountForOpts (.before anchor.month) = (completedMonths anchor).length := by
  have hpos := anchor.month_pos
  have hcast : ((anchor.month - 1 : Nat) : ℚ) = ((anchor.month : Int) : ℚ) - 1 := by
    rw [Nat.cast_sub hpos]
    norm_num
  have hge : (0 : ℚ) ≤ ((anchor.month : Int) : ℚ) - 1 := hcast ▸ Nat.cast_nonneg _
  unfold completedMonths
  rw [List.length_range', hcast]
  exact max_eq_right hge

/-- One salesperson over the completed months. -/
theorem sum_revenueOf_months {k : ℚ} {rows : List TargetRow}
    (hrows : ∀ row ∈ rows, row ∈ completedRows db anchor filters) :
    ((completedMonths anchor).map fun m : Nat =>
      if Grouping.rowsOf (·.month) rows (some (m : Int)) = [] then 0
      else revenueOf db 1 k (Grouping.rowsOf (·.month) rows (some (m : Int)))).sum +
      (match monthlyOverride db k with
        | some overrideMonthly => overrideMonthly * missingMonths anchor rows
        | none => total (·.targetRevenue) (rows.filter beforeJanuary)) =
      revenueOf db (completedMonths anchor).length k rows := by
  unfold revenueOf
  cases monthlyOverride db k with
  | some a =>
    dsimp only
    rw [mul_one]
    exact sum_ite_const (fun m : Nat => Grouping.rowsOf (·.month) rows (some (m : Int)) = []) a _
  | none =>
    dsimp only
    rw [← sum_completed db anchor filters (·.targetRevenue) hrows]
    congr 2
    refine List.map_congr_left fun m _ => ?_
    split
    · next h => rw [h]; rfl
    · rfl

theorem sum_completed_revenue :
    ((completedMonths anchor).map fun m =>
      (fetchTargetForMonths db anchor.year filters (.only m)).targetRevenue).sum +
      seriesShortfall db anchor filters =
      (fetchTargetForMonths db anchor.year filters (.before anchor.month)).targetRevenue := by
  rw [fetchTargetForMonths_revenue, monthCount_before]
  have hmonth : ∀ m ∈ completedMonths anchor,
      (fetchTargetForMonths db anchor.year filters (.only m)).targetRevenue =
        ((groups (·.salespersonKey) (completedRows db anchor filters)).map fun g =>
          if Grouping.rowsOf (·.month) g.2 (some (m : Int)) = [] then 0
          else revenueOf db 1 g.1 (Grouping.rowsOf (·.month) g.2 (some (m : Int)))).sum := by
    intro m hm
    have hlt : m < anchor.month := by
      have := List.mem_range'_1.mp hm
      omega
    rw [fetchTargetForMonths_revenue, targetRows_only db anchor filters hlt]
    exact sum_groups_filter (·.salespersonKey) _ _ fun g => revenueOf db 1 g.1 g.2
  rw [List.map_congr_left hmonth, sum_map_sum_comm]
  unfold seriesShortfall
  rw [← List.sum_map_add]
  refine congrArg List.sum (List.map_congr_left fun g hg => ?_)
  refine sum_revenueOf_months db anchor filters fun row hrow => ?_
  obtain ⟨k, -, rfl⟩ := List.mem_map.mp hg
  exact List.mem_of_mem_filter hrow

/-- **The series** has the actuals of the card, and its targets less the shortfall. -/
theorem sum_series_target :
    ((fetchMonthlySeries db anchor filters).map (·.targetValue)).sum + seriesShortfall db anchor filters =
      (computeYtdCard db anchor filters .value).targetToDate ∧
    ((fetchMonthlySeries db anchor filters).map (·.targetVolume)).sum +
      total (·.targetVolume) ((completedRows db anchor filters).filter beforeJanuary) =
      (computeYtdCard db anchor filters .volume).targetToDate := by
  have hsplit : ∀ metric : Metric, ((List.range' 1 anchor.month).map fun m =>
      (fetchTargetForMonths db anchor.year filters (.only m)).of metric *
        if m = anchor.month then monthElapsedFraction anchor else 1).sum =
      ((completedMonths anchor).map fun m =>
        (fetchTargetForMonths db anchor.year filters (.only m)).of metric).sum +
      (fetchTargetForMonths db anchor.year filters (.only anchor.month)).of metric *
        monthElapsedFraction anchor := by
    intro metric
    rw [range'_months, List.map_append, List.sum_append, List.map_singleton, List.sum_singleton,
      if_pos rfl]
    congr 2
    refine List.map_congr_left fun m hm => ?_
    have hne : m ≠ anchor.month := by
      have := List.mem_range'_1.mp hm
      omega
    rw [if_neg hne, mul_one]
  constructor
  · rw [sum_series db anchor filters _ (fun m =>
      (fetchTargetForMonths db anchor.year filters (.only m)).of .value *
        if m = anchor.month then monthElapsedFraction anchor else 1) fun m hm _ => rfl, hsplit]
    refine Eq.trans ?_ (card_targetToDate db anchor filters .ytd .value).symm
    have hcompleted := sum_completed_revenue db anchor filters
    simp only [prorated, TargetFigures.of]
    linarith
  · rw [sum_series db anchor filters _ (fun m =>
      (fetchTargetForMonths db anchor.year filters (.only m)).of .volume *
        if m = anchor.month then monthElapsedFraction anchor else 1) fun m hm _ => rfl, hsplit]
    refine Eq.trans ?_ (card_targetToDate db anchor filters .ytd .volume).symm
    have hcompleted := sum_completed db anchor filters (·.targetVolume) fun _ hrow => hrow
    have hmonths : ((completedMonths anchor).map fun m =>
        (fetchTargetForMonths db anchor.year filters (.only m)).targetVolume) =
        (completedMonths anchor).map fun m : Nat =>
          total (·.targetVolume) (Grouping.rowsOf (·.month) (completedRows db anchor filters) (some (m : Int))) := by
      refine List.map_congr_left fun m hm => ?_
      have hlt : m < anchor.month := by
        have := List.mem_range'_1.mp hm
        omega
      rw [fetchTargetForMonths_volume, targetRows_only db anchor filters hlt]
    simp only [prorated, TargetFigures.of]
    rw [hmonths, fetchTargetForMonths_volume db anchor.year filters (.before anchor.month)]
    unfold completedRows at *
    linarith

end

/-! ## Reconciliation -/

/-- The breakdown adds up to the card, and for a year to date the series does. -/
structure Reconciles (db : Database) (anchor : Date) (filters : Filters) (period : Period)
    (metric : Metric) (groupBy : GroupBy) : Prop where
  actual : ((computeBreakdown db anchor filters period metric groupBy).map (·.actual)).sum =
    (card db anchor filters metric period).actual
  targetToDate :
    ((computeBreakdown db anchor filters period metric groupBy).map (·.targetToDate.getD 0)).sum =
      (card db anchor filters metric period).targetToDate
  series : period = .ytd →
    ((fetchMonthlySeries db anchor filters).map (·.value)).sum =
      (computeYtdCard db anchor filters .value).actual ∧
    ((fetchMonthlySeries db anchor filters).map (·.volume)).sum =
      (computeYtdCard db anchor filters .volume).actual ∧
    ((fetchMonthlySeries db anchor filters).map (·.targetValue)).sum =
      (computeYtdCard db anchor filters .value).targetToDate ∧
    ((fetchMonthlySeries db anchor filters).map (·.targetVolume)).sum =
      (computeYtdCard db anchor filters .volume).targetToDate

/-- **The Tachometer reconciles** exactly when the overrides counted again by groups come to
nothing, and so do those the series leaves out, with the targets before January. -/
theorem tachometer_reconciles (db : Database) (anchor : Date) (filters : Filters) (period : Period)
    (metric : Metric) (groupBy : GroupBy) :
    Reconciles db anchor filters period metric groupBy ↔
      (metric = .value → breakdownSurplus db anchor filters period groupBy = 0) ∧
      (period = .ytd → seriesShortfall db anchor filters = 0 ∧
        total (·.targetVolume) ((completedRows db anchor filters).filter beforeJanuary) = 0) := by
  obtain ⟨hactual, htarget⟩ := sum_computeBreakdown db anchor filters period metric groupBy
  obtain ⟨hvalue, hvolume⟩ := sum_series_actual db anchor filters
  obtain ⟨hrevenue, hunits⟩ := sum_series_target db anchor filters
  constructor
  · rintro ⟨-, htotal, hseries⟩
    refine ⟨fun hmetric => ?_, fun hperiod => ?_⟩
    · rw [if_pos hmetric] at htarget
      linarith
    · obtain ⟨-, -, hvalues, hvolumes⟩ := hseries hperiod
      constructor <;> linarith
  · rintro ⟨hsurplus, hshortfall⟩
    refine ⟨hactual, ?_, fun hperiod => ?_⟩
    · rw [htarget]
      split
      · next hmetric => rw [hsurplus hmetric, add_zero]
      · rw [add_zero]
    · obtain ⟨hzero, hbefore⟩ := hshortfall hperiod
      exact ⟨hvalue, hvolume, by linarith, by linarith⟩

/-! ### Positive amounts -/

theorem sum_eq_zero_iff_of_nonneg {α : Type} {f : α → ℚ} {xs : List α} (h : ∀ x ∈ xs, 0 ≤ f x) :
    (xs.map f).sum = 0 ↔ ∀ x ∈ xs, f x = 0 := by
  induction xs with
  | nil => simp
  | cons x xs ih =>
    have hx := h x List.mem_cons_self
    have htail := fun y hy => h y (List.mem_cons_of_mem _ hy)
    have hsum : 0 ≤ (xs.map f).sum := List.sum_nonneg fun y hy => by
      obtain ⟨z, hz, rfl⟩ := List.mem_map.mp hy
      exact htail z hz
    rw [List.map_cons, List.sum_cons, List.forall_mem_cons, ← ih htail]
    constructor
    · intro hzero
      constructor <;> linarith
    · rintro ⟨hx, hrest⟩
      rw [hx, hrest, add_zero]

theorem monthlyOverride_pos {db : Database} (hpos : ∀ k a, db.targetOverrideAmount k = some a → 0 < a)
    {k a : ℚ} (h : monthlyOverride db k = some a) : 0 < a := by
  obtain ⟨b, hb, rfl⟩ := Option.map_eq_some_iff.mp h
  exact div_pos (hpos k b hb) (by norm_num)

/-- With positive amounts nothing is counted again when the rows of every salesperson with
an override are in one group. -/
theorem groupSurplus_eq_zero_iff {db : Database} {groupBy : GroupBy} {monthCount : ℚ}
    {rows : List TargetRow} (hpos : ∀ k a, db.targetOverrideAmount k = some a → 0 < a)
    (hcount : 0 < monthCount) :
    groupSurplus db groupBy monthCount rows = 0 ↔
      ∀ g ∈ groups (·.salespersonKey) rows, monthlyOverride db g.1 ≠ none →
        (firsts (g.2.map fun row => keyExpr db row.toFactRow groupBy)).length = 1 := by
  have hone : ∀ g ∈ groups (·.salespersonKey) rows,
      1 ≤ (firsts (g.2.map fun row : TargetRow => keyExpr db row.toFactRow groupBy)).length := by
    intro g hg
    obtain ⟨k, hk, rfl⟩ := List.mem_map.mp hg
    refine List.length_pos_iff.mpr fun hnil => ?_
    rw [firsts_eq_nil, List.map_eq_nil_iff, rowsOf_eq_nil] at hnil
    exact hnil (mem_firsts.mp hk)
  unfold groupSurplus
  rw [sum_eq_zero_iff_of_nonneg]
  · refine forall₂_congr fun g hg => ?_
    cases hover : monthlyOverride db g.1 with
    | none => simp
    | some a =>
      have ha : a * monthCount ≠ 0 := (mul_pos (monthlyOverride_pos hpos hover) hcount).ne'
      rw [Option.getD_some, mul_eq_zero, or_iff_right ha, sub_eq_zero, Nat.cast_eq_one]
      exact ⟨fun h _ => h, fun h => h (Option.some_ne_none a)⟩
  · intro g hg
    have hge : (1 : ℚ) ≤ (firsts (g.2.map fun row => keyExpr db row.toFactRow groupBy)).length := by
      exact_mod_cast hone g hg
    refine mul_nonneg (mul_nonneg ?_ hcount.le) (by linarith)
    cases hover : monthlyOverride db g.1 with
    | none => exact le_rfl
    | some a => exact (monthlyOverride_pos hpos hover).le

/-- With positive amounts, and no target before January, the series leaves nothing out when
every salesperson with an override who has a row has one in each completed month. -/
theorem seriesShortfall_eq_zero_iff {db : Database} {anchor : Date} {filters : Filters}
    (hpos : ∀ k a, db.targetOverrideAmount k = some a → 0 < a)
    (hmonths : ∀ row ∈ completedRows db anchor filters, beforeJanuary row = false) :
    seriesShortfall db anchor filters = 0 ↔
      ∀ g ∈ groups (·.salespersonKey) (completedRows db anchor filters),
        monthlyOverride db g.1 ≠ none → missingMonths anchor g.2 = 0 := by
  have hnone : ∀ g ∈ groups (·.salespersonKey) (completedRows db anchor filters),
      total (·.targetRevenue) (g.2.filter beforeJanuary) = 0 := by
    intro g hg
    obtain ⟨k, -, rfl⟩ := List.mem_map.mp hg
    rw [List.filter_eq_nil_iff.mpr fun row hrow => by
      rw [hmonths row (List.mem_of_mem_filter hrow)]
      exact Bool.false_ne_true]
    rfl
  unfold seriesShortfall
  rw [sum_eq_zero_iff_of_nonneg]
  · refine forall₂_congr fun g hg => ?_
    cases hover : monthlyOverride db g.1 with
    | none => simp [hnone g hg]
    | some a =>
      have ha : a ≠ 0 := (monthlyOverride_pos hpos hover).ne'
      simp [ha]
  · intro g hg
    cases hover : monthlyOverride db g.1 with
    | none => exact (hnone g hg).ge
    | some a => exact mul_nonneg (monthlyOverride_pos hpos hover).le (Nat.cast_nonneg _)

/-! ### One salesperson with an override -/

/-- Target rows of salesperson 1, who has an override of 1200 for the year. -/
def overridden (rows : List TargetRow) : Database where
  salesLines := []
  salesTargets := rows
  dimDate := fun _ => none
  profiles := fun _ => ⟨none, none, none⟩
  targetOverrideAmount := fun k => if k = 1 then some 1200 else none
  adminName := fun _ _ => none
  dimensionName := fun _ _ => none

def targetRow (month : Int) (segment : ℚ) (team : String) : TargetRow where
  companyKey := 1
  segmentKey := segment
  channelKey := 1
  salesTeamKey := team
  salespersonKey := 1
  customerKey := none
  year := some 2026
  month := some month
  targetRevenue := some 500
  targetVolume := some 5

/-- In July the rows are of two teams and in two segments, and each of these gets the whole monthly share. A
row in January alone counts for two months in the card of March, and for one in the series. -/
theorem tachometer_differs :
    ¬ Reconciles (overridden [targetRow 7 1 "T1", targetRow 7 2 "T2"])
      ⟨2026, 7, 31, by decide, by decide, by decide, by decide, by decide⟩ (fun _ => [])
      .mtd .value .segment ∧
    ¬ Reconciles (overridden [targetRow 1 1 "T1"])
      ⟨2026, 3, 31, by decide, by decide, by decide, by decide, by decide⟩ (fun _ => [])
      .ytd .value .salesperson := by
  constructor
  · intro h
    exact absurd h.targetToDate (by decide +kernel)
  · intro h
    exact absurd (h.series rfl).2.2.1 (by decide +kernel)

end SalesDashboard.Tachometer
