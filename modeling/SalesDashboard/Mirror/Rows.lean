import SalesDashboard.Mirror.Store

/-! What the tables of the mirror hold under a key after each of their writes. -/

namespace SalesDashboard.Mirror

section
variable {K V : Type} [DecidableEq K] {rows : List (K × V)} {k : K} {v : V}

def Keyed (rows : List (K × V)) : Prop := (rows.map (·.1)).Nodup

instance (rows : List (K × V)) : Decidable (Keyed rows) :=
  inferInstanceAs (Decidable (rows.map (·.1)).Nodup)

theorem mem_of_stored (h : stored k rows = some v) : (k, v) ∈ rows := by
  obtain ⟨r, hr, rfl⟩ := Option.map_eq_some_iff.mp h
  have hk : r.1 = k := by simpa using List.find?_some hr
  exact hk ▸ List.mem_of_find?_eq_some hr

theorem stored_eq_none : stored k rows = none ↔ ∀ r ∈ rows, r.1 ≠ k := by
  simp [stored]

theorem stored_of_mem (hn : Keyed rows) (h : (k, v) ∈ rows) : stored k rows = some v := by
  cases hs : stored k rows with
  | none => exact absurd rfl (stored_eq_none.mp hs _ h)
  | some w =>
    have heq := List.inj_on_of_nodup_map hn h (mem_of_stored hs) rfl
    rw [Prod.mk.injEq] at heq
    rw [heq.2]

/-! ## Writing rows -/

theorem stored_write (row : K × V) :
    stored k (write rows row) = if row.1 = k then some row.2 else stored k rows := by
  unfold write
  split
  · next hany =>
    unfold stored
    rw [List.find?_map]
    have hkeys : (fun r : K × V => decide (r.1 = k)) ∘ (fun r => if r.1 = row.1 then row else r) =
        fun r => decide (r.1 = k) := by
      funext r
      simp only [Function.comp_apply]
      split
      · next h => rw [h]
      · rfl
    rw [hkeys]
    by_cases hk : row.1 = k
    · rw [if_pos hk]
      obtain ⟨r, hr, hrk⟩ := List.any_eq_true.mp hany
      have hrk : r.1 = k := (of_decide_eq_true hrk).trans hk
      obtain ⟨x, hx⟩ : ∃ x, rows.find? (fun r => decide (r.1 = k)) = some x := by
        rw [← Option.isSome_iff_exists, List.find?_isSome]
        exact ⟨r, hr, decide_eq_true hrk⟩
      have hxk : x.1 = row.1 := by
        rw [hk]
        simpa using List.find?_some hx
      simp [hx, hxk]
    · rw [if_neg hk]
      cases hx : rows.find? fun r => decide (r.1 = k) with
      | none => rfl
      | some x =>
        have hxk : x.1 ≠ row.1 := by
          have hxk : x.1 = k := by simpa using List.find?_some hx
          rw [hxk]
          exact Ne.symm hk
        simp [hxk]
  · next hany =>
    have hfresh : ∀ r ∈ rows, r.1 ≠ row.1 := fun r hr heq =>
      hany (List.any_eq_true.mpr ⟨r, hr, decide_eq_true heq⟩)
    unfold stored
    rw [List.find?_append]
    by_cases hk : row.1 = k
    · have hnone : rows.find? (fun r => decide (r.1 = k)) = none := by
        rw [List.find?_eq_none]
        intro r hr
        simpa [← hk] using hfresh r hr
      simp [hnone, hk]
    · simp [hk]

theorem Keyed.write (hn : Keyed rows) (row : K × V) : Keyed (write rows row) := by
  unfold Mirror.write Keyed
  split
  · have hkeys : (rows.map fun r => if r.1 = row.1 then row else r).map (·.1) = rows.map (·.1) := by
      rw [List.map_map]
      refine List.map_congr_left fun r _ => ?_
      simp only [Function.comp_apply]
      split
      · next h => exact h.symm
      · rfl
    rw [hkeys]
    exact hn
  · next hany =>
    have hfresh : ∀ r ∈ rows, r.1 ≠ row.1 := fun r hr heq =>
      hany (List.any_eq_true.mpr ⟨r, hr, decide_eq_true heq⟩)
    rw [List.map_append, List.nodup_append]
    refine ⟨hn, List.nodup_singleton _, ?_⟩
    intro a ha b hb heq
    obtain ⟨r, hr, rfl⟩ := List.mem_map.mp ha
    exact hfresh r hr (heq.trans (List.mem_singleton.mp hb))

theorem Keyed.foldl_write {new : List (K × V)} (hn : Keyed rows) :
    Keyed (new.foldl Mirror.write rows) := by
  induction new generalizing rows with
  | nil => exact hn
  | cons row new ih => exact ih (hn.write row)

theorem stored_cons {row : K × V} :
    stored k (row :: rows) = if row.1 = k then some row.2 else stored k rows := by
  unfold stored
  by_cases hk : row.1 = k <;> simp [hk]

/-- Rows of distinct keys are written side by side. -/
theorem stored_foldl_write {new : List (K × V)} (hn : Keyed new) :
    stored k (new.foldl write rows) = (stored k new).or (stored k rows) := by
  induction new generalizing rows with
  | nil => rfl
  | cons row new ih =>
    obtain ⟨hfresh, hn⟩ := List.nodup_cons.mp hn
    rw [List.foldl_cons, ih hn, stored_write, stored_cons]
    by_cases hk : row.1 = k
    · have hnone : stored k new = none := by
        rw [stored_eq_none]
        intro r hr heq
        exact hfresh (List.mem_map.mpr ⟨r, hr, heq.trans hk.symm⟩)
      rw [hnone, if_pos hk, if_pos hk]
      rfl
    · rw [if_neg hk, if_neg hk]

/-! ## Deleting rows -/

omit [DecidableEq K] in
theorem Keyed.filter (hn : Keyed rows) (p : K × V → Bool) : Keyed (rows.filter p) :=
  hn.sublist (List.filter_sublist.map _)

theorem stored_filter_key (p : K → Bool) :
    stored k (rows.filter fun r => p r.1) = if p k then stored k rows else none := by
  induction rows with
  | nil => simp [stored]
  | cons r rows ih =>
    rw [List.filter_cons]
    by_cases hp : p r.1 = true
    · rw [if_pos hp, stored_cons, stored_cons, ih]
      by_cases hk : r.1 = k
      · rw [if_pos hk, if_pos hk, if_pos (hk ▸ hp)]
      · rw [if_neg hk, if_neg hk]
    · rw [if_neg hp, ih, stored_cons]
      by_cases hk : r.1 = k
      · rw [if_neg (hk ▸ hp), if_neg (hk ▸ hp)]
      · rw [if_neg hk]

end

/-! ## Records read -/

section
variable {V : Type} {reads : List (Nat × V)}

theorem byId_keyed : Keyed (byId reads) :=
  Keyed.foldl_write (List.nodup_nil : Keyed ([] : List (Nat × V)))

theorem mem_of_mem_write {K : Type} [DecidableEq K] {rows : List (K × V)} {row r : K × V}
    (h : r ∈ write rows row) : r ∈ rows ∨ r = row := by
  unfold write at h
  split at h
  · obtain ⟨x, hx, rfl⟩ := List.mem_map.mp h
    split
    · exact .inr rfl
    · exact .inl hx
  · exact (List.mem_append.mp h).imp_right List.mem_singleton.mp

theorem mem_of_mem_byId {r : Nat × V} (h : r ∈ byId reads) : r ∈ reads := by
  have hgen : ∀ rows : List (Nat × V), r ∈ reads.foldl write rows → r ∈ rows ∨ r ∈ reads := by
    clear h
    induction reads with
    | nil => exact fun _ h => .inl h
    | cons x reads ih =>
      intro rows h
      rcases ih _ h with h | h
      · exact (mem_of_mem_write h).imp_right fun heq => by
          rw [heq]
          exact List.mem_cons_self
      · exact .inr (List.mem_cons_of_mem _ h)
  exact (hgen [] h).resolve_left fun hnil => by cases hnil

/-- Every id that is read is kept, with one of its reads. -/
theorem stored_byId {id : Nat} {v : V} (h : (id, v) ∈ reads) :
    ∃ w, stored id (byId reads) = some w := by
  have hgen : ∀ rows : List (Nat × V), (id, v) ∈ reads ∨ stored id rows ≠ none →
      stored id (reads.foldl write rows) ≠ none := by
    clear h
    induction reads with
    | nil => exact fun _ h => h.resolve_left fun hnil => by cases hnil
    | cons x reads ih =>
      intro rows h
      refine ih _ ?_
      rw [stored_write]
      rcases h with h | h
      · rcases List.mem_cons.mp h with heq | h
        · rw [← heq]
          exact .inr (by simp)
        · exact .inl h
      · refine .inr ?_
        split
        · simp
        · exact h
  exact Option.ne_none_iff_exists'.mp (hgen [] (.inl h))

theorem mem_of_stored_byId {id : Nat} {v : V} (h : stored id (byId reads) = some v) :
    (id, v) ∈ reads :=
  mem_of_mem_byId (mem_of_stored h)

end

/-! ## The tables -/

section
variable {P : Type} [DecidableEq P] {records : List ((Dataset × Nat) × P)} {ds : Dataset}
  {reads : List (Nat × P)} {k : Dataset × Nat}

theorem Keyed.upsert (hn : Keyed records) : Keyed (upsert ds reads records).1 := hn.foldl_write

omit [DecidableEq P] in
theorem Keyed.delete (hn : Keyed records) (ids : List Nat) : Keyed (delete ds ids records).1 :=
  Keyed.filter hn _

/-- After an upsert the dataset holds what was read last. -/
theorem stored_upsert : stored k (upsert ds reads records).1 =
    if k.1 = ds then (stored k.2 (byId reads)).or (stored k records) else stored k records := by
  obtain ⟨ds', id⟩ := k
  set changed := (byId reads).filter fun r => decide (stored (ds, r.1) records ≠ some r.2)
    with hchanged
  have hkeyed : Keyed changed := Keyed.filter byId_keyed _
  have hrows : (changed.map fun r => ((ds, r.1), r.2)).map (·.1) =
      (changed.map (·.1)).map fun id => (ds, id) := by
    rw [List.map_map, List.map_map]
    rfl
  have hnew : Keyed (changed.map fun r => ((ds, r.1), r.2)) := by
    unfold Keyed
    rw [hrows]
    exact hkeyed.map fun _ _ h => congrArg Prod.snd h
  have hfold : stored (ds', id) (upsert ds reads records).1 =
      (stored (ds', id) (changed.map fun r => ((ds, r.1), r.2))).or (stored (ds', id) records) :=
    stored_foldl_write hnew
  rw [hfold]
  by_cases hds : ds' = ds
  · rw [if_pos hds, hds]
    have hlook : stored (ds, id) (changed.map fun r => ((ds, r.1), r.2)) = stored id changed := by
      cases hc : stored id changed with
      | none =>
        rw [stored_eq_none] at hc ⊢
        intro r hr heq
        obtain ⟨x, hx, rfl⟩ := List.mem_map.mp hr
        exact hc x hx (congrArg Prod.snd heq)
      | some v => exact stored_of_mem hnew (List.mem_map.mpr ⟨_, mem_of_stored hc, rfl⟩)
    rw [hlook]
    cases hb : stored id (byId reads) with
    | none =>
      have hnone : stored id changed = none := by
        rw [stored_eq_none] at hb ⊢
        exact fun r hr => hb r (List.mem_filter.mp hr).1
      rw [hnone]
    | some v =>
      by_cases hsame : stored (ds, id) records = some v
      · have hnone : stored id changed = none := by
          rw [stored_eq_none]
          rintro ⟨i, w⟩ hr heq
          obtain ⟨hmem, hne⟩ := List.mem_filter.mp hr
          have heq : i = id := heq
          subst heq
          have hw := stored_of_mem byId_keyed hmem
          rw [hb] at hw
          cases hw
          exact (of_decide_eq_true hne) hsame
        rw [hnone, hsame]
        rfl
      · have hsome : stored id changed = some v :=
          stored_of_mem hkeyed (List.mem_filter.mpr ⟨mem_of_stored hb, decide_eq_true hsame⟩)
        rw [hsome]
  · have hnone : stored (ds', id) (changed.map fun r => ((ds, r.1), r.2)) = none := by
      rw [stored_eq_none]
      intro r hr heq
      obtain ⟨x, -, rfl⟩ := List.mem_map.mp hr
      exact hds (congrArg Prod.fst heq).symm
    rw [hnone, if_neg hds]
    rfl

/-- What an upsert changes is among the ids it returns. -/
theorem mem_changed (h : stored k (upsert ds reads records).1 ≠ stored k records) :
    k.1 = ds ∧ k.2 ∈ (upsert ds reads records).2 := by
  obtain ⟨ds', id⟩ := k
  rw [stored_upsert] at h
  by_cases hds : ds' = ds
  · refine ⟨hds, ?_⟩
    rw [if_pos hds, hds] at h
    cases hb : stored id (byId reads) with
    | none =>
      rw [hb] at h
      exact absurd rfl h
    | some v =>
      rw [hb] at h
      refine List.mem_map.mpr ⟨(id, v), List.mem_filter.mpr ⟨mem_of_stored hb, ?_⟩, rfl⟩
      exact decide_eq_true (Ne.symm h)
  · rw [if_neg hds] at h
    exact absurd rfl h

/-- An upsert returns only ids that were read. -/
theorem read_of_mem_changed {id : Nat} (h : id ∈ (upsert ds reads records).2) :
    ∃ v, (id, v) ∈ reads := by
  obtain ⟨r, hr, rfl⟩ := List.mem_map.mp h
  exact ⟨r.2, mem_of_mem_byId (List.mem_filter.mp hr).1⟩

omit [DecidableEq P] in
theorem stored_delete {ids : List Nat} : stored k (delete ds ids records).1 =
    if k.1 = ds ∧ k.2 ∈ ids then none else stored k records := by
  have hfilter : stored k (delete ds ids records).1 =
      if decide (¬ (k.1 = ds ∧ k.2 ∈ ids)) = true then stored k records else none :=
    stored_filter_key fun k : Dataset × Nat => decide (¬ (k.1 = ds ∧ k.2 ∈ ids))
  rw [hfilter]
  by_cases h : k.1 = ds ∧ k.2 ∈ ids <;> simp [h]

omit [DecidableEq P] in
theorem mem_mirroredIds {id : Nat} :
    id ∈ mirroredIds ds records ↔ stored (ds, id) records ≠ none := by
  unfold mirroredIds
  constructor
  · intro h
    obtain ⟨r, hr, rfl⟩ := List.mem_map.mp h
    obtain ⟨hr, hds⟩ := List.mem_filter.mp hr
    intro hnone
    exact stored_eq_none.mp hnone r hr (Prod.ext (of_decide_eq_true hds) rfl)
  · intro h
    obtain ⟨v, hv⟩ := Option.ne_none_iff_exists'.mp h
    exact List.mem_map.mpr ⟨_, List.mem_filter.mpr ⟨mem_of_stored hv, by simp⟩, rfl⟩

end

end SalesDashboard.Mirror
