import SalesDashboard.Lib.Tables
import Mathlib

/-! Snapshots: of each key the latest row, and of rows of one time the first. -/

namespace Latest
open Firsts Grouping Keyed Tables

variable {α κ ι τ : Type*} [DecidableEq κ] [DecidableEq ι] [LinearOrder τ]

/-! ## The latest of some rows -/

section
variable (time : α → τ)

def later (prev : Option α) (r : α) : Option α :=
  match prev with
  | none => some r
  | some p => if time p < time r then some r else some p

def latest (rows : List α) : Option α := rows.foldl (later time) none

theorem latest_concat (rows : List α) (r : α) : latest time (rows ++ [r]) = later time (latest time rows) r := by
  unfold latest
  rw [List.foldl_append]
  rfl

variable {time} {rows : List α}

theorem latest_eq_none : latest time rows = none ↔ rows = [] := by
  induction rows using List.reverseRecOn with
  | nil => simp [latest]
  | append_singleton rows r ih =>
    rw [latest_concat]
    cases latest time rows with
    | none => simp [later]
    | some p => by_cases h : time p < time r <;> simp [later, h]

/-- No row is later, and it is the first of its time. -/
theorem latest_spec {x : α} (hx : latest time rows = some x) :
    (∀ r ∈ rows, time r ≤ time x) ∧
      (rows.filter fun r => decide (time r = time x)).head? = some x := by
  induction rows using List.reverseRecOn generalizing x with
  | nil => cases hx
  | append_singleton rows r ih =>
    rw [latest_concat] at hx
    cases hp : latest time rows with
    | none =>
      rw [hp] at hx
      obtain rfl := Option.some.inj hx
      rw [latest_eq_none.mp hp]
      simp
    | some p =>
      obtain ⟨hle, hhead⟩ := ih hp
      rw [hp] at hx
      dsimp only [later] at hx
      rw [List.filter_append, List.head?_append]
      by_cases hlt : time p < time r
      · rw [if_pos hlt] at hx
        obtain rfl := Option.some.inj hx
        have hnone : rows.filter (fun s => decide (time s = time r)) = [] := by
          rw [List.filter_eq_nil_iff]
          intro s hs heq
          exact absurd (hle s hs) (not_le.mpr (of_decide_eq_true heq ▸ hlt))
        rw [hnone]
        refine ⟨fun s hs => ?_, by simp⟩
        rcases List.mem_append.mp hs with hs | hs
        · exact (hle s hs).trans hlt.le
        · rw [List.mem_singleton.mp hs]
      · rw [if_neg hlt] at hx
        obtain rfl := Option.some.inj hx
        rw [hhead]
        refine ⟨fun s hs => ?_, rfl⟩
        rcases List.mem_append.mp hs with hs | hs
        · exact hle s hs
        · rw [List.mem_singleton.mp hs]
          exact not_lt.mp hlt

theorem latest_mem {x : α} (hx : latest time rows = some x) : x ∈ rows :=
  List.mem_of_mem_filter (List.mem_of_mem_head? (latest_spec hx).2)

/-- Where no row is later than some of the rows, the first of these is the latest. -/
theorem latest_eq_head? {t : τ} (hle : ∀ r ∈ rows, time r ≤ t) (hmem : ∃ r ∈ rows, time r = t) :
    latest time rows = (rows.filter fun r => decide (time r = t)).head? := by
  cases hx : latest time rows with
  | none =>
    obtain ⟨r, hr, -⟩ := hmem
    rw [latest_eq_none.mp hx] at hr
    cases hr
  | some x =>
    obtain ⟨hall, hhead⟩ := latest_spec hx
    obtain ⟨r, hr, rfl⟩ := hmem
    have heq : time x = time r := le_antisymm (hle x (latest_mem hx)) (hall r hr)
    rw [← heq, hhead]

/-- An older row more changes nothing. -/
theorem latest_insert {xs ys : List α} {r : α} (h : ∃ s ∈ xs ++ ys, time r < time s) :
    latest time (xs ++ r :: ys) = latest time (xs ++ ys) := by
  obtain ⟨s, hs, hlt⟩ := h
  obtain ⟨x, hx⟩ : ∃ x, latest time (xs ++ ys) = some x :=
    Option.ne_none_iff_exists'.mp fun hnone => by
      rw [latest_eq_none.mp hnone] at hs
      cases hs
  obtain ⟨hall, hhead⟩ := latest_spec hx
  have hold : time r < time x := lt_of_lt_of_le hlt (hall s hs)
  rw [hx, ← hhead, latest_eq_head? (t := time x)]
  · rw [List.filter_append, List.filter_append, List.filter_cons_of_neg]
    simpa using hold.ne
  · intro r' hr'
    rcases List.mem_append.mp hr' with hr' | hr'
    · exact hall r' (List.mem_append_left _ hr')
    · rcases List.mem_cons.mp hr' with rfl | hr'
      · exact hold.le
      · exact hall r' (List.mem_append_right _ hr')
  · refine ⟨x, ?_, rfl⟩
    rcases List.mem_append.mp (latest_mem hx) with hm | hm
    · exact List.mem_append_left _ hm
    · exact List.mem_append_right _ (List.mem_cons_of_mem _ hm)

/-- Neither do some older rows less. -/
theorem latest_filter {p : α → Bool}
    (h : ∀ r ∈ rows, p r = false → ∃ s ∈ rows, p s = true ∧ time r < time s) :
    latest time (rows.filter p) = latest time rows := by
  cases hx : latest time rows with
  | none =>
    rw [latest_eq_none.mp hx]
    rfl
  | some x =>
    obtain ⟨hall, hhead⟩ := latest_spec hx
    have hkept : ∀ r ∈ rows, time r = time x → p r = true := by
      intro r hr htime
      by_contra hp
      obtain ⟨s, hs, -, hlt⟩ := h r hr (by simpa using hp)
      exact absurd (hall s hs) (not_le.mpr (htime ▸ hlt))
    rw [latest_eq_head? (t := time x), List.filter_filter, ← hhead]
    · refine congrArg List.head? (List.filter_congr fun r hr => ?_)
      by_cases htime : time r = time x
      · simp [htime, hkept r hr htime]
      · simp [htime]
    · exact fun r hr => hall r (List.mem_of_mem_filter hr)
    · exact ⟨x, List.mem_filter.mpr ⟨latest_mem hx, hkept x (latest_mem hx) rfl⟩, rfl⟩

end

/-! ## The latest of each key -/

section
variable (time : α → τ) (key : α → κ)

/-- A later row takes the place of the one its key has. -/
def snapshots (rows : List α) : List (κ × Option α) :=
  upserts Prod.fst key (fun r e => (e.1, later time e.2 r)) (fun r => (key r, later time none r)) [] rows

def latestOf (rows : List α) (k : κ) : Option α := latest time (rowsOf key rows k)

theorem snapshots_eq (rows : List α) :
    snapshots time key rows = (groups key rows).map fun p => (p.1, latest time p.2) :=
  upserts_eq_groups key rows

variable {time key}

theorem mem_snapshots {rows : List α} {k : κ} {o : Option α} :
    (k, o) ∈ snapshots time key rows ↔ k ∈ rows.map key ∧ o = latestOf time key rows k := by
  rw [snapshots_eq, groups, List.map_map, List.mem_map]
  constructor
  · rintro ⟨k', hk', heq⟩
    obtain ⟨rfl, rfl⟩ := Prod.mk.inj heq
    exact ⟨mem_firsts.mp hk', rfl⟩
  · rintro ⟨hk, rfl⟩
    exact ⟨k, mem_firsts.mpr hk, rfl⟩

theorem nodup_snapshots (rows : List α) : (snapshots time key rows).Nodup := by
  rw [snapshots_eq, groups, List.map_map]
  refine (nodup_firsts _).map fun k k' heq => ?_
  exact (Prod.mk.inj heq).1

theorem mem_keys_iff {rows : List α} {k : κ} : k ∈ rows.map key ↔ latestOf time key rows k ≠ none := by
  rw [ne_eq, latestOf, latest_eq_none, rowsOf_eq_nil, not_not]

/-- **Only the latest row of each key counts.** -/
theorem perm_snapshots {rows rows' : List α}
    (h : ∀ k, latestOf time key rows k = latestOf time key rows' k) :
    (snapshots time key rows).Perm (snapshots time key rows') := by
  refine (List.perm_ext_iff_of_nodup (nodup_snapshots rows) (nodup_snapshots rows')).mpr ?_
  rintro ⟨k, o⟩
  rw [mem_snapshots, mem_snapshots, @mem_keys_iff _ _ _ _ _ time, @mem_keys_iff _ _ _ _ _ time, h k]

/-- The rows of a class of keys have these keys' snapshots. -/
theorem latestOf_class (cls : κ → ι) (c : ι) (rows : List α) (k : κ) :
    latestOf time key (rows.filter fun r => decide (cls (key r) = c)) k =
      if cls k = c then latestOf time key rows k else none := by
  unfold latestOf
  rw [rowsOf_filter]
  split
  · next hk =>
    rw [List.filter_eq_self.mpr]
    intro r hr
    rw [of_decide_eq_true (List.mem_filter.mp hr).2]
    exact decide_eq_true hk
  · next hk =>
    rw [latest_eq_none, List.filter_eq_nil_iff]
    intro r hr hc
    rw [of_decide_eq_true (List.mem_filter.mp hr).2] at hc
    exact hk (of_decide_eq_true hc)

variable {M : Type*} [AddCommMonoid M]

/-- A total over the snapshots, over any keys that have all of the rows'. -/
theorem sum_snapshots (rows : List α) (v : Option α → M) (hv : v none = 0) {K : Finset κ}
    (hK : ∀ r ∈ rows, key r ∈ K) :
    ((snapshots time key rows).map fun e => v e.2).sum = ∑ k ∈ K, v (latestOf time key rows k) := by
  rw [snapshots_eq, List.map_map]
  have hsum := sum_groups key rows (fun p => v (latest time p.2)) hK
  refine hsum.trans (Finset.sum_congr rfl fun k _ => ?_)
  split
  · next h =>
    rw [latestOf, h]
    exact hv.symm
  · rfl

/-- **Class by class**: a total over the snapshots is the one over those of each class of
keys. -/
theorem sum_snapshots_classes (cls : κ → ι) {cs : List ι} (hcs : cs.Nodup) {rows : List α}
    (hrows : ∀ r ∈ rows, cls (key r) ∈ cs) (v : Option α → M) (hv : v none = 0) :
    (cs.map fun c => ((snapshots time key (rows.filter fun r => decide (cls (key r) = c))).map
      fun e => v e.2).sum).sum = ((snapshots time key rows).map fun e => v e.2).sum := by
  set K := (rows.map key).toFinset
  have hK : ∀ r ∈ rows, key r ∈ K := fun r hr => List.mem_toFinset.mpr (List.mem_map_of_mem hr)
  rw [sum_snapshots rows v hv hK, ← List.sum_toFinset _ hcs]
  have hclass : ∀ c, ((snapshots time key (rows.filter fun r => decide (cls (key r) = c))).map
      fun e => v e.2).sum = ∑ k ∈ K, if cls k = c then v (latestOf time key rows k) else 0 := by
    intro c
    rw [sum_snapshots _ v hv fun r hr => hK r (List.mem_of_mem_filter hr)]
    refine Finset.sum_congr rfl fun k _ => ?_
    rw [latestOf_class]
    split
    · rfl
    · exact hv
  rw [Finset.sum_congr rfl fun c _ => hclass c, Finset.sum_comm]
  refine Finset.sum_congr rfl fun k hk => ?_
  obtain ⟨r, hr, rfl⟩ := List.mem_map.mp (List.mem_toFinset.mp hk)
  rw [Finset.sum_ite_eq, if_pos (List.mem_toFinset.mpr (hrows r hr))]

end

end Latest
