import SalesDashboard.Mirror.Children

/-! What holds of the rows while parents and children are synced. A child that Odoo has
removed is found through its parent: a later sync sees the parent differ, or the rules of
this one re-check it. That knowledge is `Watched`. -/

namespace SalesDashboard.Mirror.Children

variable {V : Type}

/-! ## Reads of Odoo -/

section
variable {odoo rows : Rows V} {ds : Dataset} {id : Nat} {r : Rec V}

/-- Rows as Odoo has them now. -/
def Current (odoo : Rows V) (ds : Dataset) (reads : List (Nat × Rec V)) : Prop :=
  ∀ id r, (id, r) ∈ reads → stored (ds, id) odoo = some r

theorem current_readIds (ds : Dataset) (hn : Keyed odoo) (ids : List Nat) :
    Current odoo ds (readIds ds ids odoo) := by
  intro id r h
  obtain ⟨x, hx, heq⟩ := List.mem_map.mp h
  obtain ⟨hx, hk⟩ := List.mem_filter.mp hx
  obtain ⟨hds, -⟩ := of_decide_eq_true hk
  obtain ⟨⟨ds', id'⟩, r'⟩ := x
  cases heq
  have hds : ds' = ds := hds
  exact stored_of_mem hn (hds ▸ hx)

/-- The read asks for the record. -/
def Wanted (cfg : Settings) (watermark : Option Nat) (r : Rec V) : Prop :=
  ∀ t ∈ since cfg watermark, t ≤ r.writeDate

theorem mem_matching {cfg : Settings} {watermark : Option Nat} (hn : Keyed odoo) :
    (id, r) ∈ matching cfg ds watermark odoo ↔
      stored (ds, id) odoo = some r ∧ Wanted cfg watermark r := by
  unfold matching
  constructor
  · intro h
    obtain ⟨⟨⟨ds', id'⟩, r'⟩, hx, heq⟩ := List.mem_map.mp h
    obtain ⟨hx, hk⟩ := List.mem_filter.mp hx
    obtain ⟨hds, hw⟩ := of_decide_eq_true hk
    have hds : ds' = ds := hds
    cases heq
    exact ⟨stored_of_mem hn (hds ▸ hx), hw⟩
  · rintro ⟨h, hw⟩
    exact List.mem_map.mpr ⟨((ds, id), r), List.mem_filter.mpr ⟨mem_of_stored h,
      decide_eq_true ⟨rfl, hw⟩⟩, rfl⟩

theorem current_readPage (cfg : Settings) (ds : Dataset) (watermark : Option Nat) (last : Nat)
    (hn : Keyed odoo) : Current odoo ds (readPage cfg ds watermark last odoo) :=
  fun _ _ h => ((mem_matching hn).mp (Paging.mem_keysetPage h).1).1

theorem matching_inj {cfg : Settings} {watermark : Option Nat} (hn : Keyed odoo) :
    ∀ x ∈ matching cfg ds watermark odoo, ∀ y ∈ matching cfg ds watermark odoo,
      x.1 = y.1 → x = y := by
  rintro ⟨i, rx⟩ hx ⟨j, ry⟩ hy heq
  have heq : i = j := heq
  subst heq
  have hsame := ((mem_matching hn).mp hx).1.symm.trans ((mem_matching hn).mp hy).1
  cases hsame
  rfl

theorem mem_childIds {c : ChildLink} {parents : List Nat} (hn : Keyed rows) :
    id ∈ childIds c parents rows ↔
      ∃ r, stored (dataset c.child, id) rows = some r ∧ ∃ p ∈ r.parent, p ∈ parents := by
  unfold childIds
  constructor
  · intro h
    obtain ⟨⟨⟨ds, id⟩, r⟩, hr, rfl⟩ := List.mem_map.mp h
    obtain ⟨hr, hk⟩ := List.mem_filter.mp hr
    obtain ⟨hds, hp⟩ := of_decide_eq_true hk
    have hds : ds = dataset c.child := hds
    exact ⟨r, stored_of_mem hn (hds ▸ hr), hp⟩
  · rintro ⟨r, hr, hp⟩
    exact List.mem_map.mpr ⟨_, List.mem_filter.mpr ⟨mem_of_stored hr,
      decide_eq_true ⟨rfl, hp⟩⟩, rfl⟩

theorem stored_of_mem_missingParents {c : ChildLink} {p : Nat} (h : p ∈ missingParents c rows) :
    stored (dataset c.parent, p) rows = none := by
  unfold missingParents at h
  exact Option.isNone_iff_eq_none.mp (List.mem_filter.mp h).2

theorem mem_idsOf {keys : List (Dataset × Nat)} : id ∈ idsOf ds keys ↔ (ds, id) ∈ keys := by
  unfold idsOf
  constructor
  · intro h
    obtain ⟨⟨ds', id⟩, hk, rfl⟩ := List.mem_map.mp h
    obtain ⟨hk, hds⟩ := List.mem_filter.mp hk
    have hds : ds' = ds := of_decide_eq_true hds
    exact hds ▸ hk
  · intro h
    exact List.mem_map.mpr ⟨_, List.mem_filter.mpr ⟨h, decide_eq_true rfl⟩, rfl⟩

theorem mem_keysOf {ids : List Nat} {k : Dataset × Nat} :
    k ∈ keysOf ds ids ↔ k.1 = ds ∧ k.2 ∈ ids := by
  unfold keysOf
  rw [List.mem_map]
  constructor
  · rintro ⟨i, hi, rfl⟩
    exact ⟨rfl, hi⟩
  · rintro ⟨rfl, hi⟩
    exact ⟨k.2, hi, rfl⟩

end

variable [DecidableEq V]

/-- What Odoo has now is stored when it is read now, or was stored before. -/
theorem stored_upsert_current {odoo rows : Rows V} {ds : Dataset} {reads : List (Nat × Rec V)}
    (hcur : Current odoo ds reads) {k : Dataset × Nat} {r : Rec V} (hr : stored k odoo = some r)
    (h : stored k rows = some r ∨ k.1 = ds ∧ (k.2, r) ∈ reads) :
    stored k (upsert ds reads rows).1 = some r := by
  obtain ⟨ds', id⟩ := k
  rw [stored_upsert]
  by_cases hds : ds' = ds
  · rw [if_pos hds]
    cases hb : stored id (byId reads) with
    | some v =>
      have hv := hcur id v (mem_of_stored_byId hb)
      rw [← hds, hr] at hv
      exact hv.symm
    | none =>
      rcases h with h | ⟨-, h⟩
      · exact h
      · obtain ⟨w, hw⟩ := stored_byId h
        rw [hb] at hw
        cases hw
  · rw [if_neg hds]
    exact h.resolve_right fun h => hds h.1

/-- What is stored after a read is Odoo's now, or was stored before. -/
theorem stored_of_upsert {odoo rows : Rows V} {ds : Dataset} {reads : List (Nat × Rec V)}
    (hcur : Current odoo ds reads) {k : Dataset × Nat} {r : Rec V}
    (h : stored k (upsert ds reads rows).1 = some r) :
    stored k odoo = some r ∨ stored k rows = some r := by
  obtain ⟨ds', id⟩ := k
  rw [stored_upsert] at h
  by_cases hds : ds' = ds
  · rw [if_pos hds] at h
    cases hb : stored id (byId reads) with
    | some v =>
      rw [hb] at h
      have heq : v = r := Option.some.inj h
      exact .inl (by rw [hds, ← heq]; exact hcur id v (mem_of_stored_byId hb))
    | none =>
      rw [hb] at h
      exact .inr h
  · rw [if_neg hds] at h
    exact .inr h

theorem stored_upsert_isSome {rows : Rows V} {ds : Dataset} {reads : List (Nat × Rec V)}
    {k : Dataset × Nat} (h : stored k rows ≠ none) : stored k (upsert ds reads rows).1 ≠ none := by
  rw [stored_upsert]
  split
  · cases stored k.2 (byId reads) with
    | some v => simp
    | none => exact h
  · exact h

/-! ## The invariant -/

/-- Odoo may have stamped the record after the time `t`; in a quiet run it has not. -/
def Late (cfg : Settings) (quiet : Prop) (t : Nat) (r : Rec V) : Prop :=
  ¬ quiet ∧ t ≤ r.writeDate + cfg.overlap

structure OdooInv (st : State V) : Prop where
  keyed : Keyed st.odoo
  used : ∀ k r, stored k st.odoo = some r → k ∈ st.used
  positive : ∀ k r, stored k st.odoo = some r → 0 < k.2
  linked : ∀ c ∈ CHILDREN, ∀ id r, stored (dataset c.child, id) st.odoo = some r →
    ∀ p ∈ r.parent, stored (dataset c.parent, p) st.odoo ≠ none

/-- The rows are earlier versions of what Odoo has. -/
structure Sound (st : State V) (rows : Rows V) : Prop where
  keyed : Keyed rows
  used : ∀ k r, stored k rows = some r → k ∈ st.used
  older : ∀ k r r', stored k rows = some r → stored k st.odoo = some r' →
    r.writeDate ≤ r'.writeDate

/-- Every child that Odoo has removed will be found. -/
def Watched (st : State V) (v : View V) : Prop :=
  ∀ c ∈ CHILDREN, ∀ id r, stored (dataset c.child, id) v.rows = some r →
    stored (dataset c.child, id) st.odoo = none → Covered st.odoo v c id r

/-- The rows of a dataset are as Odoo has them, apart from what was stamped late. -/
def Synced (cfg : Settings) (quiet : Prop) (t : Nat) (st : State V) (ds : Dataset)
    (rows : Rows V) : Prop :=
  ∀ id r, stored (ds, id) st.odoo = some r →
    stored (ds, id) rows = some r ∨ Late cfg quiet t r

def Exact (st : State V) (ds : Dataset) (rows : Rows V) : Prop :=
  ∀ id, stored (ds, id) rows ≠ none → stored (ds, id) st.odoo ≠ none

/-- The specs whose transaction of this run has not committed. -/
def Phase.todo : Phase → List MirrorSpec
  | .specs todo => todo
  | .page spec todo _ _ | .ids spec todo _ | .missing spec todo _ _ => spec :: todo
  | .search _ _ _ _ | .unseen _ _ _ | .orphans _ _ _ | .rest | .names => []

def Done (st : State V) (ds : Dataset) : Prop :=
  match st.run with
  | some run => ∀ s ∈ run.phase.todo, dataset s.model ≠ ds
  | none => False

/-- Only the rows of the spec differ from the committed ones. -/
structure SpecTx (cfg : Settings) (st : State V) (run : SyncRun V) (spec : MirrorSpec)
    (started : Nat) : Prop where
  frame : ∀ k, k.1 ≠ dataset spec.model → stored k run.work = stored k st.mirror
  started : started ≤ st.clock

/-- The transaction of the rules. -/
structure RulesTx (cfg : Settings) (quiet : Prop) (st : State V) (run : SyncRun V) : Prop where
  synced : ∀ ds t, stored ds st.watermarks = some t → Synced cfg quiet t st ds run.work
  exact_ : quiet → ∀ c ∈ CHILDREN, Exact st (dataset c.parent) run.work
  empty : ∀ ds, stored ds st.watermarks = none → ∀ id, stored (ds, id) run.work = none
  parents : ∀ c ∈ CHILDREN, ∀ p, stored (dataset c.parent, p) st.mirror ≠ none →
    stored (dataset c.parent, p) run.work ≠ none

def PhaseInv (cfg : Settings) (quiet : Prop) (st : State V) (run : SyncRun V) : Prop :=
  match run.phase with
  | .specs _ => run.work = st.mirror
  | .page spec _ started last => SpecTx cfg st run spec started ∧
      (∀ id r, stored (dataset spec.model, id) st.odoo = some r →
        (Wanted cfg (stored (dataset spec.model) st.watermarks) r → id ≤ last) →
          stored (dataset spec.model, id) run.work = some r ∨ Late cfg quiet started r) ∧
      (quiet → stored (dataset spec.model) st.watermarks = none →
        Exact st (dataset spec.model) run.work)
  | .ids spec _ started => SpecTx cfg st run spec started ∧
      Synced cfg quiet started st (dataset spec.model) run.work
  | .missing spec _ started _ => SpecTx cfg st run spec started ∧
      Synced cfg quiet started st (dataset spec.model) run.work ∧
      (quiet → spec.idCheckEveryCycle = true → Exact st (dataset spec.model) run.work)
  | .search c links live odoo => RulesTx cfg quiet st run ∧ c ∈ CHILDREN ∧
      (∀ c' ∈ links, c' ∈ CHILDREN) ∧
      ∀ id r, stored (dataset c.child, id) st.odoo = some r → ∀ p ∈ r.parent,
        (dataset c.parent, p) ∈ run.changed → (dataset c.parent, p) ∉ run.gone → p ∉ live →
          id ∈ odoo ∨ ∀ t, stored (dataset c.child) st.watermarks = some t → Late cfg quiet t r
  | .unseen c links _ => RulesTx cfg quiet st run ∧ c ∈ CHILDREN ∧ ∀ c' ∈ links, c' ∈ CHILDREN
  | .orphans c links ids => RulesTx cfg quiet st run ∧ c ∈ CHILDREN ∧
      (∀ c' ∈ links, c' ∈ CHILDREN) ∧ ∀ p ∈ ids, stored (dataset c.parent, p) st.mirror = none
  | .rest => RulesTx cfg quiet st run
  | .names => run.work = st.mirror

structure RunInv (cfg : Settings) (quiet : Prop) (st : State V) (run : SyncRun V) : Prop where
  sound : Sound st run.work
  watched : Watched st (workView st run)
  gone : ∀ k ∈ run.gone, k ∈ st.used ∧ stored k st.odoo = none
  todo : ∀ s ∈ run.phase.todo, s ∈ specs
  filled : ∀ s ∈ specs, s ∈ run.phase.todo ∨ stored (dataset s.model) st.watermarks ≠ none
  phase : PhaseInv cfg quiet st run

structure Inv (cfg : Settings) (quiet : Prop) (st : State V) : Prop where
  odoo : OdooInv st
  clock : ∀ ds t, stored ds st.watermarks = some t → t ≤ st.clock
  tracked : ∀ ds t, stored ds st.watermarks = some t → ∃ s ∈ specs, dataset s.model = ds
  sound : Sound st st.mirror
  watched : Watched st (mirrorView st)
  empty : ∀ ds, stored ds st.watermarks = none → ∀ id, stored (ds, id) st.mirror = none
  synced : ∀ ds t, stored ds st.watermarks = some t →
    Synced cfg (quiet ∧ Done st ds) t st ds st.mirror
  exact_ : quiet → ∀ c ∈ CHILDREN, Done st (dataset c.parent) →
    Exact st (dataset c.parent) st.mirror
  run : ∀ run, st.run = some run → RunInv cfg quiet st run

/-- Nothing is mirrored yet. -/
structure Init (st : State V) : Prop where
  odoo : OdooInv st
  mirror : st.mirror = []
  watermarks : st.watermarks = []
  run : st.run = none

omit [DecidableEq V] in
theorem Init.inv {cfg : Settings} {st : State V} (h : Init st) : Inv cfg False st := by
  obtain ⟨hodoo, hm, hw, hr⟩ := h
  refine ⟨hodoo, ?_, ?_, ?_, ?_, ?_, ?_, fun h => h.elim, ?_⟩
  · rw [hw]
    exact fun _ _ h => by cases h
  · rw [hw]
    exact fun _ _ h => by cases h
  · rw [hm]
    exact ⟨List.nodup_nil, (fun _ _ h => by cases h), (fun _ _ _ h => by cases h)⟩
  · intro c _ id r h
    have h : stored (dataset c.child, id) st.mirror = some r := h
    rw [hm] at h
    cases h
  · rw [hm]
    exact fun _ _ _ => rfl
  · rw [hw]
    exact fun _ _ h => by cases h
  · rw [hr]
    exact fun _ h => by cases h

/-! ## Models -/

theorem child_ne_parent : ∀ c ∈ CHILDREN, ∀ c' ∈ CHILDREN,
    dataset c.child ≠ dataset c'.parent := by decide

theorem parent_inj : ∀ c ∈ CHILDREN, ∀ c' ∈ CHILDREN,
    dataset c.parent = dataset c'.parent → c = c' := by decide

theorem parent_spec : ∀ c ∈ CHILDREN, ∃ s ∈ specs, dataset s.model = dataset c.parent := by decide

theorem child_spec : ∀ c ∈ CHILDREN, ∃ s ∈ specs, dataset s.model = dataset c.child := by decide

/-- The ids of the parents are checked in every cycle. -/
theorem parent_idCheck : ∀ s ∈ specs, ∀ c ∈ CHILDREN, dataset s.model = dataset c.parent →
    s.idCheckEveryCycle = true := by decide

/-! ## What one write keeps -/

section
variable {st : State V} {v v' : View V} {run : SyncRun V}

omit [DecidableEq V] in
/-- A removed child stays watched when its row and its parent's stay, or the parent becomes
one that is to be re-checked. -/
theorem Watched.mono (hw : Watched st v)
    (hrows : ∀ c ∈ CHILDREN, ∀ id r, stored (dataset c.child, id) v'.rows = some r →
      stored (dataset c.child, id) st.odoo = none → stored (dataset c.child, id) v.rows = some r)
    (howed : ∀ c ∈ CHILDREN, ∀ id r, stored (dataset c.child, id) v'.rows = some r →
      stored (dataset c.child, id) st.odoo = none → ∀ p ∈ r.parent, v.owed c p id = true →
        stored (dataset c.parent, p) v'.rows ≠ stored (dataset c.parent, p) st.odoo ∨
          v'.owed c p id = true)
    (hnew : ∀ c ∈ CHILDREN, ∀ p id,
      stored (dataset c.parent, p) v'.rows ≠ stored (dataset c.parent, p) v.rows →
        v'.owed c p id = true) : Watched st v' := by
  intro c hc id r hr hgone
  obtain ⟨p, hp, hcov⟩ := hw c hc id r (hrows c hc id r hr hgone) hgone
  refine ⟨p, hp, ?_⟩
  rcases hcov with hdue | ho
  · by_cases hsame : stored (dataset c.parent, p) v'.rows = stored (dataset c.parent, p) v.rows
    · rw [hsame]
      exact .inl hdue
    · exact .inr (hnew c hc p id hsame)
  · exact howed c hc id r hr hgone p hp ho

theorem Sound.upsert {rows : Rows V} {ds : Dataset} {reads : List (Nat × Rec V)}
    (ho : OdooInv st) (hs : Sound st rows) (hcur : Current st.odoo ds reads) :
    Sound st (Mirror.upsert ds reads rows).1 where
  keyed := hs.keyed.upsert
  used k r h := (stored_of_upsert hcur h).elim (ho.used k r) (hs.used k r)
  older k r r' h h' := by
    rcases stored_of_upsert hcur h with hnow | hold
    · rw [h'] at hnow
      cases hnow
      exact Nat.le_refl _
    · exact hs.older k r r' hold h'

omit [DecidableEq V] in
theorem stored_of_delete {rows : Rows V} {ds : Dataset} {ids : List Nat} {k : Dataset × Nat}
    {r : Rec V} (h : stored k (delete ds ids rows).1 = some r) :
    stored k rows = some r ∧ ¬ (k.1 = ds ∧ k.2 ∈ ids) := by
  rw [stored_delete] at h
  split at h
  · cases h
  · next hk => exact ⟨h, hk⟩

omit [DecidableEq V] in
theorem Sound.delete {rows : Rows V} (hs : Sound st rows) (ds : Dataset) (ids : List Nat) :
    Sound st (Mirror.delete ds ids rows).1 where
  keyed := hs.keyed.delete ids
  used k r h := hs.used k r (stored_of_delete h).1
  older k r r' h h' := hs.older k r r' (stored_of_delete h).1 h'

theorem Synced.upsert {cfg : Settings} {quiet : Prop} {t : Nat} {rows : Rows V} {ds ds' : Dataset}
    {reads : List (Nat × Rec V)} (hs : Synced cfg quiet t st ds rows)
    (hcur : Current st.odoo ds' reads) :
    Synced cfg quiet t st ds (Mirror.upsert ds' reads rows).1 := fun id r hr =>
  (hs id r hr).imp_left fun h => stored_upsert_current hcur hr (.inl h)

theorem Exact.upsert {rows : Rows V} {ds ds' : Dataset} {reads : List (Nat × Rec V)}
    (he : Exact st ds rows) (hcur : Current st.odoo ds' reads) :
    Exact st ds (Mirror.upsert ds' reads rows).1 := by
  intro id h
  obtain ⟨r, hr⟩ := Option.ne_none_iff_exists'.mp h
  rcases stored_of_upsert hcur hr with hnow | hold
  · rw [hnow]
    simp
  · exact he id (by rw [hold]; simp)

end

end SalesDashboard.Mirror.Children
