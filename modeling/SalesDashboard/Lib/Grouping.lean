import SalesDashboard.Lib.Firsts
import SalesDashboard.Lib.Keyed
import Mathlib

/-! Rows grouped by a key, and totals over the groups. -/

namespace Grouping
open Firsts

variable {α κ ι M : Type*} [DecidableEq κ] [DecidableEq ι]

def rowsOf (c : α → κ) (rows : List α) (k : κ) : List α := rows.filter fun a => decide (c a = k)

/-- A group for each key, in the order in which the keys first appear. -/
def groups (c : α → κ) (rows : List α) : List (κ × List α) :=
  (firsts (rows.map c)).map fun k => (k, rowsOf c rows k)

theorem rowsOf_eq_nil {c : α → κ} {rows : List α} {k : κ} :
    rowsOf c rows k = [] ↔ k ∉ rows.map c := by
  unfold rowsOf
  rw [List.filter_eq_nil_iff, List.mem_map]
  constructor
  · rintro h ⟨a, ha, hk⟩
    exact h a ha (decide_eq_true hk)
  · rintro h a ha hk
    exact h ⟨a, ha, of_decide_eq_true hk⟩

theorem rowsOf_filter (c : α → κ) (p : α → Bool) (rows : List α) (k : κ) :
    rowsOf c (rows.filter p) k = (rowsOf c rows k).filter p := by
  unfold rowsOf
  rw [List.filter_comm]

theorem rowsOf_pair (c : α → κ) (d : α → ι) (rows : List α) (k : κ) (j : ι) :
    rowsOf (fun a => (c a, d a)) rows (k, j) = rowsOf d (rowsOf c rows k) j := by
  unfold rowsOf
  rw [List.filter_filter]
  refine List.filter_congr fun a _ => ?_
  simp only [Prod.mk.injEq, Bool.decide_and, Bool.and_comm]

theorem length_groups (c : α → κ) (rows : List α) :
    (groups c rows).length = (firsts (rows.map c)).length := List.length_map _

theorem map_fst_groups (c : α → κ) (rows : List α) :
    (groups c rows).map Prod.fst = firsts (rows.map c) := by
  unfold groups
  rw [List.map_map]
  exact List.map_id _

theorem find?_groups {c : α → κ} {rows : List α} {k : κ} (hk : k ∈ rows.map c) :
    (groups c rows).find? (fun g => decide (g.1 = k)) = some (k, rowsOf c rows k) := by
  have hn : ((groups c rows).map Prod.fst).Nodup := by
    rw [map_fst_groups]
    exact nodup_firsts _
  rw [Keyed.find?_eq_some_iff hn]
  exact ⟨List.mem_map.mpr ⟨k, mem_firsts.mpr hk, rfl⟩, rfl⟩

/-- A figure of the group of a key; a key without rows has the figure of no rows. -/
theorem lookup_groups {A : Type*} (c : α → κ) (rows : List α) (k : κ) (F : List α → A) :
    (((groups c rows).find? fun g => decide (g.1 = k)).map fun g => F g.2).getD (F []) =
      F (rowsOf c rows k) := by
  by_cases hk : k ∈ rows.map c
  · rw [find?_groups hk]
    rfl
  · have hnone : (groups c rows).find? (fun g => decide (g.1 = k)) = none := by
      rw [List.find?_eq_none]
      intro g hg heq
      refine hk ?_
      rw [← mem_firsts, ← map_fst_groups, ← of_decide_eq_true heq]
      exact List.mem_map_of_mem hg
    rw [hnone, rowsOf_eq_nil.mpr hk]
    rfl

section
variable [AddCommMonoid M]

/-- **Totals over groups** as a sum over any set that has all keys. -/
theorem sum_groups (c : α → κ) (rows : List α) (F : κ × List α → M) {K : Finset κ}
    (hK : ∀ a ∈ rows, c a ∈ K) :
    ((groups c rows).map F).sum =
      ∑ k ∈ K, if rowsOf c rows k = [] then 0 else F (k, rowsOf c rows k) := by
  unfold groups
  rw [List.map_map, ← List.sum_toFinset _ (nodup_firsts _)]
  have hkeys : (firsts (rows.map c)).toFinset = K.filter fun k => ¬ rowsOf c rows k = [] := by
    ext k
    rw [List.mem_toFinset, mem_firsts, Finset.mem_filter, rowsOf_eq_nil, not_not]
    constructor
    · intro hk
      obtain ⟨a, ha, rfl⟩ := List.mem_map.mp hk
      exact ⟨hK a ha, hk⟩
    · exact And.right
  rw [hkeys, Finset.sum_filter]
  refine Finset.sum_congr rfl fun k _ => ?_
  rw [ite_not]
  rfl

theorem sum_rowsOf (c : α → κ) (rows : List α) (v : α → M) {K : Finset κ}
    (hK : ∀ a ∈ rows, c a ∈ K) :
    ∑ k ∈ K, ((rowsOf c rows k).map v).sum = (rows.map v).sum := by
  induction rows with
  | nil => exact Finset.sum_const_zero
  | cons a rows ih =>
    have hrow : ∀ k, ((rowsOf c (a :: rows) k).map v).sum =
        (if c a = k then v a else 0) + ((rowsOf c rows k).map v).sum := by
      intro k
      unfold rowsOf
      by_cases hk : c a = k
      · simp [hk]
      · simp [hk]
    rw [Finset.sum_congr rfl fun k _ => hrow k, Finset.sum_add_distrib,
      ih fun b hb => hK b (List.mem_cons_of_mem _ hb), Finset.sum_ite_eq,
      if_pos (hK a List.mem_cons_self), List.map_cons, List.sum_cons]

/-- The rows of all groups are the rows. -/
theorem sum_groups_rows (c : α → κ) (rows : List α) (v : α → M) :
    ((groups c rows).map fun g => (g.2.map v).sum).sum = (rows.map v).sum := by
  have hK : ∀ a ∈ rows, c a ∈ (rows.map c).toFinset := fun a ha =>
    List.mem_toFinset.mpr (List.mem_map_of_mem ha)
  rw [sum_groups c rows _ hK, ← sum_rowsOf c rows v hK]
  refine Finset.sum_congr rfl fun k _ => ?_
  split
  · next h => rw [h, List.map_nil, List.sum_nil]
  · rfl

/-- Grouping by two keys is grouping by the first, and each group by the second. -/
theorem sum_groups_pair (c : α → κ) (d : α → ι) (rows : List α) (F : κ → ι → List α → M) :
    ((groups (fun a => (c a, d a)) rows).map fun g => F g.1.1 g.1.2 g.2).sum =
      ((groups c rows).map fun g => ((groups d g.2).map fun h => F g.1 h.1 h.2).sum).sum := by
  set K := (rows.map c).toFinset
  set J := (rows.map d).toFinset
  have hK : ∀ a ∈ rows, c a ∈ K := fun a ha => List.mem_toFinset.mpr (List.mem_map_of_mem ha)
  have hJ : ∀ a ∈ rows, d a ∈ J := fun a ha => List.mem_toFinset.mpr (List.mem_map_of_mem ha)
  rw [sum_groups (K := K ×ˢ J) _ rows _ fun a ha => Finset.mk_mem_product (hK a ha) (hJ a ha),
    sum_groups (K := K) c rows _ hK, Finset.sum_product]
  refine Finset.sum_congr rfl fun k _ => ?_
  have hrows : ∀ a ∈ rowsOf c rows k, d a ∈ J := fun a ha => hJ a (List.mem_of_mem_filter ha)
  rw [sum_groups (K := J) d _ _ hrows]
  split
  · next h =>
    refine Finset.sum_eq_zero fun j _ => if_pos ?_
    rw [rowsOf_pair, h]
    rfl
  · refine Finset.sum_congr rfl fun j _ => ?_
    rw [rowsOf_pair]

/-- The groups of some of the rows, from the groups of all of them. -/
theorem sum_groups_filter (c : α → κ) (p : α → Bool) (rows : List α) (F : κ × List α → M) :
    ((groups c (rows.filter p)).map F).sum =
      ((groups c rows).map fun g => if g.2.filter p = [] then 0 else F (g.1, g.2.filter p)).sum := by
  set K := (rows.map c).toFinset
  have hK : ∀ a ∈ rows, c a ∈ K := fun a ha => List.mem_toFinset.mpr (List.mem_map_of_mem ha)
  rw [sum_groups (K := K) c rows _ hK,
    sum_groups (K := K) c (rows.filter p) _ fun a ha => hK a (List.mem_of_mem_filter ha)]
  refine Finset.sum_congr rfl fun k _ => ?_
  rw [rowsOf_filter]
  by_cases h : rowsOf c rows k = []
  · rw [if_pos h, h, List.filter_nil, if_pos rfl]
  · rw [if_neg h]

/-- A total over the rows with one of some values, value by value. -/
theorem sum_values (f : α → κ) (ms : List κ) (hms : ms.Nodup) (rows : List α) (v : α → M) :
    (ms.map fun m => ((rowsOf f rows m).map v).sum).sum =
      ((rows.filter fun a => decide (f a ∈ ms)).map v).sum := by
  rw [← List.sum_toFinset _ hms,
    ← sum_rowsOf f (rows.filter fun a => decide (f a ∈ ms)) v (K := ms.toFinset)]
  · refine Finset.sum_congr rfl fun m hm => ?_
    rw [rowsOf_filter]
    refine congrArg (fun rs => (rs.map v).sum) (List.filter_eq_self.mpr fun a ha => ?_).symm
    have hfa : f a = m := of_decide_eq_true (List.mem_filter.mp ha).2
    exact decide_eq_true (hfa ▸ List.mem_toFinset.mp hm)
  · intro a ha
    exact List.mem_toFinset.mpr (of_decide_eq_true (List.mem_filter.mp ha).2)

theorem sum_filter_add_not (p : α → Bool) (rows : List α) (v : α → M) :
    ((rows.filter p).map v).sum + ((rows.filter fun a => !p a).map v).sum = (rows.map v).sum := by
  have hperm := (List.filter_append_perm p rows).map v
  rw [← hperm.sum_eq, List.map_append, List.sum_append]

theorem sum_map_ite (p : α → Bool) (rows : List α) (v : α → M) :
    (rows.map fun a => if p a then v a else 0).sum = ((rows.filter p).map v).sum := by
  induction rows with
  | nil => rfl
  | cons a rows ih =>
    rw [List.map_cons, List.sum_cons, ih, List.filter_cons]
    split
    · rw [List.map_cons, List.sum_cons]
    · rw [zero_add]

theorem sum_map_sum_comm {β γ : Type*} (xs : List β) (ys : List γ) (F : β → γ → M) :
    (xs.map fun x => (ys.map fun y => F x y).sum).sum =
      (ys.map fun y => (xs.map fun x => F x y).sum).sum := by
  induction xs with
  | nil => simp
  | cons x xs ih =>
    simp only [List.map_cons, List.sum_cons, ih]
    rw [← List.sum_map_add]

end

end Grouping
