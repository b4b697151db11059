import SalesDashboard.ProductDashboard.CompanyWall
import Mathlib

/-! The totals of the product pages and the products they list. -/

namespace SalesDashboard.ProductDashboard
open DataScope Firsts Grouping Keyed Tables

variable {upper : String → String} {db : Warehouse upper} {sap : Profiles} {period : Period}
  {query : ProductDashboardQuery} {view : View} {seen : List DailyRow}

/-! ## Rows and lines -/

theorem sum_filter_of_zero {α M : Type} [AddCommMonoid M] {p : α → Bool} {f : α → M} {xs : List α}
    (h : ∀ a ∈ xs, p a = false → f a = 0) : ((xs.filter p).map f).sum = (xs.map f).sum := by
  induction xs with
  | nil => rfl
  | cons a xs ih =>
    obtain ⟨ha, hxs⟩ := List.forall_mem_cons.mp h
    rw [List.filter_cons, List.map_cons, List.sum_cons, ← ih hxs]
    cases hp : p a with
    | true => rfl
    | false => simp [ha hp]

/-- Every product with a sale has its row, and every row has a line. -/
structure Complete (db : Warehouse upper) : Prop where
  known : ∀ d ∈ db.daily, ∃ p ∈ db.dashboard, p.productCompanyKey = d.productCompanyKey
  lines : ∀ d ∈ db.daily, ∃ n, d.lines = some n ∧ 1 ≤ n

theorem sumIn_lines_nonneg {w : Window} {rows : List DailyRow} (h : ∀ d ∈ rows, ∃ n, d.lines = some n ∧ 1 ≤ n) :
    0 ≤ sumIn w (·.lines) rows := by
  refine List.sum_nonneg ?_
  simp only [List.mem_map]
  rintro x ⟨d, hd, rfl⟩
  obtain ⟨n, hn, hpos⟩ := h d hd
  split
  · rw [hn]
    simp
    omega
  · exact le_refl 0

/-- Without lines in a window there is no row in it. -/
theorem no_row_of_lines {w : Window} {rows : List DailyRow} (h : ∀ d ∈ rows, ∃ n, d.lines = some n ∧ 1 ≤ n)
    (hzero : sumIn w (·.lines) rows ≤ 0) : ∀ d ∈ rows, w.has d.orderDate = false := by
  induction rows with
  | nil => simp
  | cons d rows ih =>
    obtain ⟨hd, hrows⟩ := List.forall_mem_cons.mp h
    obtain ⟨n, hn, hpos⟩ := hd
    have hrest := sumIn_lines_nonneg (w := w) hrows
    have hsum : sumIn w (·.lines) (d :: rows) =
        (if w.has d.orderDate then d.lines.getD 0 else 0) + sumIn w (·.lines) rows := rfl
    rw [hsum, hn] at hzero
    have hout : w.has d.orderDate = false := by
      by_contra hin
      rw [Bool.not_eq_false] at hin
      rw [if_pos hin] at hzero
      simp at hzero
      omega
    rw [hout] at hzero
    simp at hzero
    exact List.forall_mem_cons.mpr ⟨hout, ih hrows hzero⟩

theorem sumIn_of_no_row {M : Type} [AddCommMonoid M] {w : Window} {column : DailyRow → Option M}
    {rows : List DailyRow} (h : ∀ d ∈ rows, w.has d.orderDate = false) : sumIn w column rows = 0 := by
  have hnone : rows.filter (fun d => w.has d.orderDate) = [] :=
    List.filter_eq_nil_iff.mpr fun d hd hin => by simp [h d hd] at hin
  rw [← sumIn_filter fun d _ hin => hin, hnone]
  rfl

/-! ## Sums over the products -/

theorem mem_byProduct_figure {M : Type} [AddCommMonoid M] {f : Agg → M} {u : SalesRow → M} {w : Window}
    {column : DailyRow → Option M} (hadd : ∀ a r, f (addSales a r) = f a + u r) (hempty : f emptyAgg = 0)
    (hu : ∀ k uom rows, u (salesRow period k uom rows) = sumIn w column rows)
    (hw : ∀ date, w.has date = true → period.has date = true) {x : String × Agg}
    (hx : x ∈ byProduct (salesRows period seen)) :
    f x.2 = sumIn w column (rowsOf (·.productCompanyKey) seen x.1) := by
  have hfigure := @figure_upserts _ _ _ _ Prod.fst SalesRow.k (fun r e => (e.1, addSales e.2 r))
    (fun r => (r.k, addSales emptyAgg r)) (salesRows period seen) M _ (fun e => f e.2) u
    (fun _ _ => rfl) (fun _ => rfl) (fun r e _ => hadd e.2 r) (fun r => by rw [hadd, hempty, zero_add]) x hx
  rw [hfigure, sum_salesRows_of hu, rowsOf_filter]
  exact sumIn_filter fun d _ => hw d.orderDate

/-- Products without lines in the period have no figure of it. -/
theorem totalsOf_sum {M : Type} [AddCommMonoid M] (period : Period) (f : Agg → M) (u : SalesRow → M)
    (column : DailyRow → Option M) (hadd : ∀ a r, f (addSales a r) = f a + u r) (hempty : f emptyAgg = 0)
    (hu : ∀ k uom rows, u (salesRow period k uom rows) = sumIn period.cur column rows)
    (hlines : ∀ d ∈ seen, ∃ n, d.lines = some n ∧ 1 ≤ n) :
    ((((byProduct (salesRows period seen)).map Prod.snd).filter fun a => decide (0 < a.lines)).map f).sum =
      sumIn period.cur column seen := by
  rw [← sum_byProduct hadd hempty hu Period.has_cur]
  refine sum_filter_of_zero fun a ha hnone => ?_
  obtain ⟨x, hx, rfl⟩ := List.mem_map.mp ha
  have hzero : x.2.lines ≤ 0 := not_lt.mp (of_decide_eq_false hnone)
  rw [@mem_byProduct_figure _ _ _ _ Agg.lines SalesRow.lineCount _ DailyRow.lines (fun _ _ => rfl) rfl
    (fun _ _ _ => rfl) Period.has_cur _ hx] at hzero
  rw [mem_byProduct_figure hadd hempty hu Period.has_cur hx]
  exact sumIn_of_no_row (no_row_of_lines (fun d hd => hlines d (List.mem_of_mem_filter hd)) hzero)

/-- The products listed hold every row of the period in scope. -/
theorem listed_sum {M : Type} [AddCommMonoid M] (period : Period) (f : Agg → M) (u : SalesRow → M)
    (column : DailyRow → Option M) (hadd : ∀ a r, f (addSales a r) = f a + u r) (hempty : f emptyAgg = 0)
    (hu : ∀ k uom rows, u (salesRow period k uom rows) = sumIn period.cur column rows)
    (hcomplete : Complete db) (hseen : seen = db.daily.filter (inScope sap query view)) :
    ((db.dashboard.filter (isListed period query view db.daily (byProduct (salesRows period seen)))).map fun p =>
      f ((aggOf (byProduct (salesRows period seen)) p.productCompanyKey).getD emptyAgg)).sum =
      sumIn period.cur column seen := by
  set listed := db.dashboard.filter (isListed period query view db.daily (byProduct (salesRows period seen)))
    with hlisted
  have hsum := sum_values (·.productCompanyKey) (listed.map (·.productCompanyKey))
    ((List.filter_sublist.map _).nodup db.key_nodup) seen fun d =>
      if period.cur.has d.orderDate then (column d).getD 0 else 0
  rw [List.map_map] at hsum
  have hfigures : (listed.map fun p => f ((aggOf (byProduct (salesRows period seen)) p.productCompanyKey).getD
      emptyAgg)) = listed.map fun p => sumIn period.cur column (rowsOf (·.productCompanyKey) seen p.productCompanyKey) :=
    List.map_congr_left fun p _ => aggOf_figure hadd hempty hu Period.has_cur
  rw [hfigures]
  refine hsum.trans (sum_filter_of_zero fun d hd hout => ?_)
  refine if_neg fun hin => of_decide_eq_false hout ?_
  rw [hseen] at hd
  obtain ⟨hdaily, hscope⟩ := List.mem_filter.mp hd
  obtain ⟨p, hp, hkey⟩ := hcomplete.known d hdaily
  refine List.mem_map.mpr ⟨p, List.mem_filter.mpr ⟨hp, ?_⟩, hkey⟩
  obtain ⟨-, hclause, hexcluded⟩ := inScope_iff.mp hscope
  have hcompany := db.same_company d hdaily p hp hkey.symm
  have hsold : soldInScope (aggOf (byProduct (salesRows period seen)) p.productCompanyKey) = true := by
    rw [soldInScope_eq, aggOf_lines]
    left
    by_contra hnone
    have hlines : ∀ d' ∈ rowsOf (·.productCompanyKey) seen p.productCompanyKey, ∃ n, d'.lines = some n ∧ 1 ≤ n := by
      intro d' hd'
      have hmem := List.mem_of_mem_filter hd'
      rw [hseen] at hmem
      exact hcomplete.lines d' (List.mem_of_mem_filter hmem)
    have hrow := no_row_of_lines hlines (not_lt.mp hnone) d
      (List.mem_filter.mpr ⟨hseen ▸ hd, decide_eq_true hkey.symm⟩)
    rw [hrow] at hin
    cases hin
  simp [isListed, ← hcompany, hclause, hexcluded, hsold]

/-- **The totals are those of the products listed**, when every product sold has its row. -/
theorem totals_reconcile (db : Warehouse upper) (sap : Profiles) (period : Period) (query : ProductDashboardQuery)
    {page : ProductDashboardOverview} (h : computeProductDashboard db sap period query = .ok page)
    (hcomplete : Complete db) :
    page.totals.value = (page.products.map (·.value)).sum ∧
      page.totals.lines = (page.products.map (·.lines)).sum := by
  unfold computeProductDashboard at h
  cases hview : requestedView upper db.daily query with
  | error e =>
    rw [hview] at h
    cases h
  | ok view =>
    rw [hview] at h
    obtain rfl := Except.ok.inj h
    have hlines : ∀ d ∈ db.daily.filter (inScope sap query view), ∃ n, d.lines = some n ∧ 1 ≤ n :=
      fun d hd => hcomplete.lines d (List.mem_of_mem_filter hd)
    have hpage : ∀ {M : Type} [AddCommMonoid M] (f : Agg → M) (u : SalesRow → M) (column : DailyRow → Option M),
        (∀ a r, f (addSales a r) = f a + u r) → f emptyAgg = 0 →
        (∀ k uom rows, u (salesRow period k uom rows) = sumIn period.cur column rows) →
        ((((byProduct (salesRows period (db.daily.filter (inScope sap query view)))).map Prod.snd).filter
          fun a => decide (0 < a.lines)).map f).sum =
        ((db.dashboard.filter (isListed period query view db.daily
          (byProduct (salesRows period (db.daily.filter (inScope sap query view)))))).map fun p =>
            f ((aggOf (byProduct (salesRows period (db.daily.filter (inScope sap query view))))
              p.productCompanyKey).getD emptyAgg)).sum := by
      intro M _ f u column hadd hempty hu
      exact (totalsOf_sum period f u column hadd hempty hu hlines).trans
        (listed_sum period f u column hadd hempty hu hcomplete rfl).symm
    simp only [overview, List.map_map]
    exact ⟨hpage Agg.value SalesRow.value DailyRow.value (fun _ _ => rfl) rfl fun _ _ _ => rfl,
      hpage Agg.lines SalesRow.lineCount DailyRow.lines (fun _ _ => rfl) rfl fun _ _ _ => rfl⟩

theorem shop_complete : Complete shop := by
  constructor
  · decide
  · intro d hd
    rw [List.mem_singleton.mp hd]
    exact ⟨2, rfl, by decide⟩

theorem totals_reconcile_shop : (overview (fun _ => ⟨none, none, none⟩) shopPeriod (roleOf 1) .Majaal shop.daily
      shop.dashboard).totals.value =
    ((overview (fun _ => ⟨none, none, none⟩) shopPeriod (roleOf 1) .Majaal shop.daily
      shop.dashboard).products.map (·.value)).sum ∧
    (overview (fun _ => ⟨none, none, none⟩) shopPeriod (roleOf 1) .Majaal shop.daily
      shop.dashboard).totals.lines =
    ((overview (fun _ => ⟨none, none, none⟩) shopPeriod (roleOf 1) .Majaal shop.daily
      shop.dashboard).products.map (·.lines)).sum :=
  totals_reconcile shop _ shopPeriod (roleOf 1) (compute_eq (by decide +kernel)) shop_complete

/-! ## A salesperson's own products -/

/-- A salesperson's page lists products that the salespeople asked for sold in the period
or the year before. -/
theorem salesperson_own {page : ProductDashboardOverview}
    (h : computeProductDashboard db sap period query = .ok page) (htier : query.salespersonTier = true)
    (hperson : query.filters (.scope .salespersonKeys) ≠ []) :
    ∀ row ∈ page.products, ∃ d ∈ db.daily, d.productCompanyKey = row.productCompanyKey ∧
      .num d.keys.salespersonKey ∈ query.filters (.scope .salespersonKeys) ∧
      (period.cur.has d.orderDate = true ∨ period.prior.has d.orderDate = true) ∧
      ∃ n, d.lines = some n ∧ 0 < n := by
  intro row hrow
  unfold computeProductDashboard at h
  cases hview : requestedView upper db.daily query with
  | error e =>
    rw [hview] at h
    cases h
  | ok view =>
    rw [hview] at h
    obtain rfl := Except.ok.inj h
    obtain ⟨p, hp, rfl⟩ := List.mem_map.mp hrow
    have hlisted := (List.mem_filter.mp hp).2
    have hscoped : isScoped query = true := by
      unfold isScoped
      rw [List.any_eq_true]
      exact ⟨.salespersonKeys, by decide, decide_eq_true hperson⟩
    have hsold : soldInScope (aggOf (byProduct (salesRows period
        (db.daily.filter (inScope sap query view)))) p.productCompanyKey) = true := by
      simp only [isListed, hscoped, htier, Bool.and_eq_true] at hlisted
      simpa using hlisted.2
    obtain ⟨d, hd, hkey, hdate, hline⟩ := line_of_soldInScope hsold
    obtain ⟨hdaily, hscope⟩ := List.mem_filter.mp hd
    exact ⟨d, hdaily, hkey, buildWhereClause_key (inScope_iff.mp hscope).1 hperson, hdate, hline⟩

end SalesDashboard.ProductDashboard
