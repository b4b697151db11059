import SalesDashboard.Lib.Grouping
import Mathlib

/-! Tables as lists of rows: left joins, rows counted by a key, and rows put into a map one
by one. -/

namespace Tables
open Firsts Grouping Keyed

variable {α β κ : Type*} [DecidableEq κ]

/-! ## Left joins -/

/-- The rows with each partner in the table; a row without one stands alone. -/
def leftJoin (ref : β → Option κ) (key : α → κ) (table : List α) (rows : List β) :
    List (β × Option α) :=
  rows.flatMap fun b =>
    let partners := table.filter fun a => decide (ref b = some (key a))
    if partners = [] then [(b, none)] else partners.map fun a => (b, some a)

/-- **One partner at most**: a table with one row for each key changes no row and doubles
none. -/
theorem map_fst_leftJoin {ref : β → Option κ} {key : α → κ} {table : List α}
    (hn : (table.map key).Nodup) (rows : List β) :
    (leftJoin ref key table rows).map Prod.fst = rows := by
  induction rows with
  | nil => rfl
  | cons b rows ih =>
    have hone : (table.filter fun a => decide (ref b = some (key a))).length ≤ 1 := by
      have hsub : ((table.filter fun a => decide (ref b = some (key a))).map key).Nodup :=
        hn.sublist (List.filter_sublist.map key)
      by_contra hlt
      obtain ⟨a, a', rest, heq⟩ : ∃ a a' rest, table.filter
          (fun a => decide (ref b = some (key a))) = a :: a' :: rest := by
        rcases hrows : table.filter fun a => decide (ref b = some (key a)) with _ | ⟨a, _ | ⟨a', rest⟩⟩
        · rw [hrows] at hlt
          simp at hlt
        · rw [hrows] at hlt
          simp at hlt
        · exact ⟨a, a', rest, rfl⟩
      have hkey : ∀ x ∈ a :: a' :: rest, ref b = some (key x) := by
        intro x hx
        rw [← heq] at hx
        exact of_decide_eq_true (List.mem_filter.mp hx).2
      have hsame : key a = key a' :=
        Option.some.inj ((hkey a (by simp)).symm.trans (hkey a' (by simp)))
      rw [heq] at hsub
      simp [hsame] at hsub
    unfold leftJoin at *
    rw [List.flatMap_cons, List.map_append, ih]
    dsimp only
    split
    · rfl
    · next hne =>
      obtain ⟨a, ha⟩ : ∃ a, table.filter (fun a => decide (ref b = some (key a))) = [a] := by
        apply List.length_eq_one_iff.mp
        have hpos := List.length_pos_iff.mpr hne
        omega
      rw [ha]
      rfl

theorem length_leftJoin {ref : β → Option κ} {key : α → κ} {table : List α}
    (hn : (table.map key).Nodup) (rows : List β) :
    (leftJoin ref key table rows).length = rows.length := by
  have hlen := congrArg List.length (@map_fst_leftJoin _ _ _ _ ref key table hn rows)
  rwa [List.length_map] at hlen

theorem mem_leftJoin {ref : β → Option κ} {key : α → κ} {table : List α} {rows : List β} {b : β}
    {o : Option α} (h : (b, o) ∈ leftJoin ref key table rows) : b ∈ rows ∧
      ((∃ a ∈ table, o = some a ∧ ref b = some (key a)) ∨
        (o = none ∧ ∀ a ∈ table, ref b ≠ some (key a))) := by
  obtain ⟨b', hb', hmem⟩ := List.mem_flatMap.mp h
  dsimp only at hmem
  split at hmem
  · next hnone =>
    obtain ⟨rfl, rfl⟩ := Prod.mk.inj (List.mem_singleton.mp hmem)
    refine ⟨hb', .inr ⟨rfl, fun a ha href => ?_⟩⟩
    exact List.filter_eq_nil_iff.mp hnone a ha (decide_eq_true href)
  · obtain ⟨a, ha, heq⟩ := List.mem_map.mp hmem
    obtain ⟨rfl, rfl⟩ := Prod.mk.inj heq
    obtain ⟨htable, href⟩ := List.mem_filter.mp ha
    exact ⟨hb', .inl ⟨a, htable, rfl, of_decide_eq_true href⟩⟩

/-! ## Counts -/

/-- `GROUP BY key` with `COUNT(*)`. -/
def countBy (key : α → κ) (rows : List α) : List (κ × Nat) :=
  (groups key rows).map fun g => (g.1, g.2.length)

theorem length_eq_sum_ones (rows : List α) : rows.length = (rows.map fun _ => 1).sum := by
  induction rows with
  | nil => rfl
  | cons a rows ih => rw [List.map_cons, List.sum_cons, List.length_cons, ih, Nat.add_comm]

/-- The groups together hold every row. -/
theorem sum_length_groups (key : α → κ) (rows : List α) :
    ((groups key rows).map fun g => g.2.length).sum = rows.length := by
  have hsum := sum_groups_rows key rows fun _ => 1
  simp only [← length_eq_sum_ones] at hsum
  exact hsum

/-- The count of a key; a key without rows counts nothing. -/
theorem lookup_countBy (key : α → κ) (rows : List α) (k : κ) :
    (((countBy key rows).find? fun c => decide (c.1 = k)).map Prod.snd).getD 0 =
      rows.countP fun a => decide (key a = k) := by
  have hlookup := lookup_groups key rows k List.length
  unfold countBy
  rw [List.find?_map, Option.map_map, List.countP_eq_length_filter]
  exact hlookup

/-- A weaker condition counts as many rows only where it selects the same ones. -/
theorem countP_eq_iff {p q : α → Bool} {rows : List α} (h : ∀ a ∈ rows, p a = true → q a = true) :
    rows.countP q = rows.countP p ↔ ∀ a ∈ rows, q a = true → p a = true := by
  induction rows with
  | nil => simp
  | cons a rows ih =>
    obtain ⟨ha, hrows⟩ := List.forall_mem_cons.mp h
    have hle : rows.countP p ≤ rows.countP q := List.countP_mono_left hrows
    rw [List.forall_mem_cons, ← ih hrows, List.countP_cons, List.countP_cons]
    cases hp : p a with
    | true =>
      have hq := ha hp
      simp [hq]
    | false =>
      cases hq : q a with
      | true =>
        simp only [if_true, Bool.false_eq_true, if_false]
        simp
        omega
      | false => simp

/-! ## Inserting row by row is grouping -/

section
variable {A : Type*} {g : A → α → A} {z : A}

theorem groups_concat_old {key : α → κ} {rows : List α} {r : α} (h : key r ∈ rows.map key) :
    groups key (rows ++ [r]) = (groups key rows).map fun p =>
      (p.1, if p.1 = key r then p.2 ++ [r] else p.2) := by
  unfold groups
  rw [List.map_append, List.map_singleton, firsts_concat, Firsts.insert, if_pos (mem_firsts.mpr h), List.map_map]
  refine List.map_congr_left fun k _ => ?_
  simp only [Function.comp_apply, rowsOf, List.filter_append, List.filter_singleton]
  by_cases hk : k = key r
  · simp [hk]
  · simp [hk, Ne.symm hk]

theorem groups_concat_new {key : α → κ} {rows : List α} {r : α} (h : key r ∉ rows.map key) :
    groups key (rows ++ [r]) = groups key rows ++ [(key r, [r])] := by
  have hnone : rowsOf key rows (key r) = [] := rowsOf_eq_nil.mpr h
  unfold groups
  rw [List.map_append, List.map_singleton, firsts_concat, Firsts.insert,
    if_neg (fun hmem => h (mem_firsts.mp hmem)), List.map_append, List.map_singleton]
  refine congrArg₂ _ (List.map_congr_left fun k hk => ?_) ?_
  · have hne : key r ≠ k := fun heq => h (heq ▸ mem_firsts.mp hk)
    simp [rowsOf, List.filter_append, hne]
  · unfold rowsOf at *
    rw [List.filter_append, hnone]
    simp

/-- **Inserting row by row** runs through the rows of each key. -/
theorem upserts_eq_groups (key : α → κ) (rows : List α) :
    upserts Prod.fst key (fun r e => (e.1, g e.2 r)) (fun r => (key r, g z r)) [] rows =
      (groups key rows).map fun p => (p.1, p.2.foldl g z) := by
  induction rows using List.reverseRecOn with
  | nil => rfl
  | append_singleton rows r ih =>
    have hlast : upserts Prod.fst key (fun r e => (e.1, g e.2 r)) (fun r => (key r, g z r)) []
        (rows ++ [r]) = upsert Prod.fst (key r) (fun e => (e.1, g e.2 r)) (key r, g z r)
          (upserts Prod.fst key (fun r e => (e.1, g e.2 r)) (fun r => (key r, g z r)) [] rows) :=
      List.foldl_append
    have hkeys : ((groups key rows).map fun p => (p.1, p.2.foldl g z)).map Prod.fst =
        firsts (rows.map key) := by
      rw [List.map_map, ← map_fst_groups]
      rfl
    rw [hlast, ih, upsert, hkeys]
    by_cases h : key r ∈ rows.map key
    · rw [if_pos (mem_firsts.mpr h), groups_concat_old h, List.map_map, List.map_map]
      refine List.map_congr_left fun p _ => ?_
      simp only [Function.comp_apply]
      split
      · next hk => rw [List.foldl_append, hk]; rfl
      · rfl
    · rw [if_neg fun hmem => h (mem_firsts.mp hmem), groups_concat_new h, List.map_append]
      rfl

end

/-! ## Groups of a permuted table -/

theorem mem_groups {key : α → κ} {rows : List α} {g : κ × List α} (hg : g ∈ groups key rows) :
    g.1 ∈ rows.map key ∧ g.2 = rowsOf key rows g.1 := by
  obtain ⟨k, hk, rfl⟩ := List.mem_map.mp hg
  exact ⟨mem_firsts.mp hk, rfl⟩

/-- A figure of the groups that does not depend on the order of their rows. -/
theorem perm_map_groups {C : Type*} {key : α → κ} {rows rows' : List α}
    (hkeys : ∀ k, k ∈ rows.map key ↔ k ∈ rows'.map key) {F : κ × List α → C}
    (h : ∀ k ∈ rows.map key, F (k, rowsOf key rows k) = F (k, rowsOf key rows' k)) :
    ((groups key rows).map F).Perm ((groups key rows').map F) := by
  have hfirsts : (firsts (rows.map key)).Perm (firsts (rows'.map key)) :=
    (List.perm_ext_iff_of_nodup (nodup_firsts _) (nodup_firsts _)).mpr fun k => by
      rw [mem_firsts, mem_firsts, hkeys]
  have hsame : (firsts (rows.map key)).map (F ∘ fun k => (k, rowsOf key rows k)) =
      (firsts (rows.map key)).map (F ∘ fun k => (k, rowsOf key rows' k)) :=
    List.map_congr_left fun k hk => h k (mem_firsts.mp hk)
  unfold groups
  rw [List.map_map, List.map_map, hsame]
  exact hfirsts.map _

theorem map_filterMap_eq {B C : Type*} {F : α → Option B} {f : B → C} {f' : α → C} {rows : List α}
    (h : ∀ a ∈ rows, (F a).map f = some (f' a)) : (rows.filterMap F).map f = rows.map f' := by
  induction rows with
  | nil => rfl
  | cons a rows ih =>
    obtain ⟨ha, hrows⟩ := List.forall_mem_cons.mp h
    obtain ⟨b, hb, hf⟩ := Option.map_eq_some_iff.mp ha
    rw [List.filterMap_cons, hb, List.map_cons, List.map_cons, ih hrows, hf]

end Tables
