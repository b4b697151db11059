import SalesDashboard.ProductDashboard.Overview
import Mathlib

/-! The figures of a product on the product pages as sums over its daily rows. -/

namespace SalesDashboard.ProductDashboard
open DataScope Firsts Grouping Keyed Tables

variable {period : Period} {seen : List DailyRow} {key : String}

/-! ## Sums over the sales rows -/

section
variable {M : Type} [AddCommMonoid M] {u : SalesRow → M} {v : DailyRow → M}

theorem sum_salesRows (hu : ∀ k uom rows, u (salesRow period k uom rows) = (rows.map v).sum) :
    ((salesRows period seen).map u).sum = ((seen.filter fun d => period.has d.orderDate).map v).sum := by
  unfold salesRows
  rw [List.map_map, ← sum_groups_rows salesKey _ v]
  simp only [Function.comp_def, hu]

/-- The sales rows of a product hold its daily rows. -/
theorem sum_salesRows_of (hu : ∀ k uom rows, u (salesRow period k uom rows) = (rows.map v).sum) :
    (((salesRows period seen).filter fun r => decide (r.k = key)).map u).sum =
      ((rowsOf (·.productCompanyKey) (seen.filter fun d => period.has d.orderDate) key).map v).sum := by
  rw [← sum_map_ite]
  unfold salesRows
  rw [List.map_map]
  have hgroup : ∀ g ∈ groups salesKey (seen.filter fun d => period.has d.orderDate),
      ((fun r => if decide (r.k = key) = true then u r else 0) ∘ fun g : (String × String) × List DailyRow =>
        salesRow period g.1.1 g.1.2 g.2) g =
        (g.2.map fun d => if decide (d.productCompanyKey = key) = true then v d else 0).sum := by
    intro g hg
    obtain ⟨-, hrows⟩ := mem_groups hg
    have hkey : ∀ d ∈ g.2, d.productCompanyKey = g.1.1 := by
      intro d hd
      rw [hrows] at hd
      exact congrArg Prod.fst (of_decide_eq_true (List.mem_filter.mp hd).2)
    rw [sum_map_ite, Function.comp_apply]
    by_cases hk : g.1.1 = key
    · have hall : g.2.filter (fun d => decide (d.productCompanyKey = key)) = g.2 :=
        List.filter_eq_self.mpr fun d hd => decide_eq_true ((hkey d hd).trans hk)
      rw [hall, hu]
      simp [salesRow, hk]
    · have hnone : g.2.filter (fun d => decide (d.productCompanyKey = key)) = [] :=
        List.filter_eq_nil_iff.mpr fun d hd h => hk ((hkey d hd).symm.trans (of_decide_eq_true h))
      rw [hnone]
      simp [salesRow, hk]
  rw [List.map_congr_left hgroup, sum_groups_rows salesKey, sum_map_ite]
  rfl

theorem sumIn_filter {w : Window} {column : DailyRow → Option M} {p : DailyRow → Bool} {rows : List DailyRow}
    (hp : ∀ d ∈ rows, w.has d.orderDate = true → p d = true) :
    sumIn w column (rows.filter p) = sumIn w column rows := by
  induction rows with
  | nil => rfl
  | cons d rows ih =>
    obtain ⟨hd, hrows⟩ := List.forall_mem_cons.mp hp
    unfold sumIn at *
    rw [List.filter_cons, List.map_cons, List.sum_cons, ← ih hrows]
    by_cases hin : p d = true
    · rw [if_pos hin, List.map_cons, List.sum_cons]
    · have hout : w.has d.orderDate = false := Bool.not_eq_true _ ▸ fun h => hin (hd h)
      rw [if_neg hin, hout]
      simp

end

/-! ## The figures of a product -/

theorem aggOf_getD (rows : List SalesRow) (key : String) : (aggOf (byProduct rows) key).getD emptyAgg =
    (rows.filter fun r => decide (r.k = key)).foldl addSales emptyAgg :=
  find?_upserts rows key

section
variable {M : Type} [AddCommMonoid M] {f : Agg → M} {u : SalesRow → M} {w : Window}
  {column : DailyRow → Option M}

theorem foldl_addSales (hadd : ∀ a r, f (addSales a r) = f a + u r) (rows : List SalesRow) (a : Agg) :
    f (rows.foldl addSales a) = f a + (rows.map u).sum := by
  induction rows generalizing a with
  | nil => simp
  | cons r rows ih => rw [List.foldl_cons, ih, hadd, List.map_cons, List.sum_cons, add_assoc]

/-- **A figure of a product** is the sum of its column over the product's rows. -/
theorem aggOf_figure (hadd : ∀ a r, f (addSales a r) = f a + u r) (hempty : f emptyAgg = 0)
    (hu : ∀ k uom rows, u (salesRow period k uom rows) = sumIn w column rows)
    (hw : ∀ date, w.has date = true → period.has date = true) :
    f ((aggOf (byProduct (salesRows period seen)) key).getD emptyAgg) =
      sumIn w column (rowsOf (·.productCompanyKey) seen key) := by
  rw [aggOf_getD, foldl_addSales hadd, hempty, zero_add, sum_salesRows_of hu, rowsOf_filter]
  exact sumIn_filter fun d _ => hw d.orderDate

theorem sum_byProduct (hadd : ∀ a r, f (addSales a r) = f a + u r) (hempty : f emptyAgg = 0)
    (hu : ∀ k uom rows, u (salesRow period k uom rows) = sumIn w column rows)
    (hw : ∀ date, w.has date = true → period.has date = true) :
    (((byProduct (salesRows period seen)).map Prod.snd).map f).sum = sumIn w column seen := by
  have hsum := @sum_upserts_nil _ _ _ _ Prod.fst SalesRow.k (fun r e => (e.1, addSales e.2 r))
    (fun r => (r.k, addSales emptyAgg r)) (salesRows period seen) M _ (fun e => f e.2) u
    (fun _ _ => rfl) (fun _ => rfl) (fun r e _ => hadd e.2 r) (fun r => by rw [hadd, hempty, zero_add])
  rw [List.map_map]
  refine hsum.trans ?_
  rw [sum_salesRows hu]
  exact sumIn_filter fun d _ => hw d.orderDate

end

theorem Period.has_cur (date : Option ℤ) (h : period.cur.has date = true) : period.has date = true := by
  simp [Period.has, h]

theorem Period.has_prior (date : Option ℤ) (h : period.prior.has date = true) : period.has date = true := by
  simp [Period.has, h]

theorem aggOf_lines : ((aggOf (byProduct (salesRows period seen)) key).getD emptyAgg).lines =
    sumIn period.cur (·.lines) (rowsOf (·.productCompanyKey) seen key) :=
  aggOf_figure (fun _ _ => rfl) rfl (fun _ _ _ => rfl) Period.has_cur

theorem aggOf_linesPrior : ((aggOf (byProduct (salesRows period seen)) key).getD emptyAgg).linesPrior =
    sumIn period.prior (·.lines) (rowsOf (·.productCompanyKey) seen key) :=
  aggOf_figure (fun _ _ => rfl) rfl (fun _ _ _ => rfl) Period.has_prior

theorem soldInScope_eq (a : Option Agg) : soldInScope a = true ↔
    0 < (a.getD emptyAgg).lines ∨ 0 < (a.getD emptyAgg).linesPrior := by
  cases a <;> simp [soldInScope, emptyAgg]

/-- A positive number of lines is one of a row in the window. -/
theorem exists_line {w : Window} {rows : List DailyRow} (h : 0 < sumIn w (·.lines) rows) :
    ∃ d ∈ rows, w.has d.orderDate = true ∧ ∃ n, d.lines = some n ∧ 0 < n := by
  induction rows with
  | nil => simp [sumIn] at h
  | cons d rows ih =>
    by_cases hrest : 0 < sumIn w (·.lines) rows
    · obtain ⟨d', hd', hline⟩ := ih hrest
      exact ⟨d', List.mem_cons_of_mem _ hd', hline⟩
    · have hsum : sumIn w (·.lines) (d :: rows) =
          (if w.has d.orderDate then d.lines.getD 0 else 0) + sumIn w (·.lines) rows := rfl
      rw [hsum] at h
      refine ⟨d, List.mem_cons_self, ?_⟩
      by_cases hin : w.has d.orderDate = true
      · rw [if_pos hin] at h
        refine ⟨hin, ?_⟩
        cases hlines : d.lines with
        | none =>
          rw [hlines] at h
          simp at h
          omega
        | some n =>
          rw [hlines] at h
          simp at h
          exact ⟨n, rfl, by omega⟩
      · rw [if_neg hin] at h
        omega

/-- A product that sold in scope has a line in the period or the year before. -/
theorem line_of_soldInScope (h : soldInScope (aggOf (byProduct (salesRows period seen)) key) = true) :
    ∃ d ∈ seen, d.productCompanyKey = key ∧
      (period.cur.has d.orderDate = true ∨ period.prior.has d.orderDate = true) ∧
      ∃ n, d.lines = some n ∧ 0 < n := by
  rw [soldInScope_eq, aggOf_lines, aggOf_linesPrior] at h
  rcases h with hlines | hlines
  · obtain ⟨d, hd, hin, hline⟩ := exists_line hlines
    obtain ⟨hmem, hkey⟩ := List.mem_filter.mp hd
    exact ⟨d, hmem, of_decide_eq_true hkey, .inl hin, hline⟩
  · obtain ⟨d, hd, hin, hline⟩ := exists_line hlines
    obtain ⟨hmem, hkey⟩ := List.mem_filter.mp hd
    exact ⟨d, hmem, of_decide_eq_true hkey, .inr hin, hline⟩

end SalesDashboard.ProductDashboard
