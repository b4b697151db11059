import SalesDashboard.Extraction.Caught

/-! The next extraction that Odoo does not disturb brings the raw table up to date, whatever
changed before, and a reconciliation in it marks exactly the records that are gone. Without
the conditions a change or a record is lost for good. -/

namespace SalesDashboard.Extraction
open Paging Transition

variable {V W : Type} {cfg : Settings} {spec : Spec V W} {late : Nat} {s t : State V W}

/-- Odoo does not change, and the extraction neither fails nor begins anew. -/
def Action.undisturbed : Action V → Bool
  | .tick _ | .page | .load | .search | .mark => true
  | .write _ _ _ | .delete _ | .begin _ | .fail => false

def AllCurrent (spec : Spec V W) (s : State V W) : Prop :=
  ∀ r ∈ s.odoo, spec.inDomain r.values = true → Current spec s.raw r

/-- A row is marked when Odoo has no such record in the domain, and only then. -/
def Marked (spec : Spec V W) (s : State V W) : Prop :=
  ∀ id row, s.raw id = some row → (row.deletedAt = none ↔ ∃ r ∈ s.odoo, r.id = id ∧ spec.inDomain r.values = true)

/-- The ids that `search_ids` returns. -/
def liveIds (spec : Spec V W) (odoo : List (Record V)) : List Nat :=
  (odoo.filter fun r => spec.inDomain r.values).map Record.id

theorem mem_liveIds {odoo : List (Record V)} {id : Nat} :
    id ∈ liveIds spec odoo ↔ ∃ r ∈ odoo, r.id = id ∧ spec.inDomain r.values = true := by
  simp only [liveIds, List.mem_map, List.mem_filter]
  exact exists_congr fun r => ⟨fun h => ⟨h.1.1, h.2, h.1.2⟩, fun h => ⟨⟨h.1, h.2.2⟩, h.2.1⟩⟩

/-- An undisturbed extraction that began in `s`. -/
def Undisturbed (cfg : Settings) (spec : Spec V W) (s t : State V W) : Prop :=
  match t.phase with
  | .idle | .due => AllCurrent spec t
  | .paging _ full since byId offset =>
      t.raw = s.raw ∧ since = sinceOf cfg s.watermark full ∧ (∀ g ∈ byId, g ∈ t.odoo) ∧
        ∀ r ∈ t.odoo, selects spec since r = true → rank Record.id (selected spec since t.odoo) r.id < offset →
          r.id ∈ byId.map Record.id
  | .extracted _ full records =>
      t.raw = s.raw ∧ (∀ g ∈ records, g ∈ t.odoo) ∧
        ∀ r ∈ t.odoo, selects spec (sinceOf cfg s.watermark full) r = true → r.id ∈ records.map Record.id
  | .searched live => AllCurrent spec t ∧ live = liveIds spec t.odoo

section
variable {s₀ : State V W}

theorem Undisturbed.page (hn : (s.odoo.map Record.id).Nodup) {startedAt offset : Nat} {full : Bool}
    {since : Option Nat} {byId : List (Record V)} (hphase : s.phase = .paging startedAt full since byId offset)
    (hu : Undisturbed cfg spec s₀ s) : Undisturbed cfg spec s₀ (readPage cfg spec s startedAt full since byId offset) := by
  rw [Undisturbed, hphase] at hu
  obtain ⟨hraw, hsince, hsub, hread⟩ := hu
  set page := offsetPage Record.id cfg.pageSize offset (selected spec since s.odoo) with hpage
  set got := page.foldl (fun got r => put r got) byId with hgot
  have hsub' : ∀ g ∈ got, g ∈ s.odoo := fun g hg => (mem_of_mem_page hn hg).elim (hsub g) id
  have hread' : ∀ r ∈ s.odoo, selects spec since r = true →
      rank Record.id (selected spec since s.odoo) r.id < offset + cfg.pageSize → r.id ∈ got.map Record.id :=
    fun r hr hselects hrank => id_mem_page hn hr hselects hrank (hread r hr hselects)
  unfold readPage
  dsimp only
  rw [← hpage, ← hgot]
  split
  · next hshort =>
    refine ⟨hraw, fun g hg => hsub' g (mem_ordered.mp hg), fun r hr hselects => ?_⟩
    rw [← hsince] at hselects
    have hmem := hread' r hr hselects (rank_of_short hshort (mem_selected.mpr ⟨hr, hselects⟩))
    obtain ⟨g, hg, hgr⟩ := List.mem_map.mp hmem
    exact List.mem_map.mpr ⟨g, mem_ordered.mpr hg, hgr⟩
  · exact ⟨hraw, hsince, hsub', hread'⟩

/-- What was not asked for is current, for the watermark reaches all that is not. -/
theorem Undisturbed.load (hi : Caught cfg spec late s₀) (hodoo : s.odoo = s₀.odoo) {startedAt : Nat} {full : Bool}
    {records : List (Record V)} (hphase : s.phase = .extracted startedAt full records)
    (hu : Undisturbed cfg spec s₀ s) : Undisturbed cfg spec s₀ (load spec s full records) := by
  rw [Undisturbed, hphase] at hu
  obtain ⟨hraw, hsub, hread⟩ := hu
  have hn : (s.odoo.map Record.id).Nodup := hodoo ▸ hi.ids
  have hcurrent : ∀ r ∈ s.odoo, spec.inDomain r.values = true → Current spec (upsert spec s.raw records) r := by
    intro r hr hdomain
    by_cases hmem : r.id ∈ records.map Record.id
    · obtain ⟨g, hg, hgr, hupsert⟩ := upsert_of_mem spec s.raw hmem
      rw [eq_of_id hn (hsub g hg) hr hgr] at hupsert
      exact hupsert
    · have hselects : selects spec (sinceOf cfg s₀.watermark full) r ≠ true := fun h => hmem (hread r hr h)
      obtain ⟨-, hbehind⟩ := not_reached_of_not_selects hdomain hselects
      refine (upsert_of_not_mem hmem).trans ?_
      rw [hraw]
      exact (hi.caught r (hodoo ▸ hr) hdomain).resolve_right hbehind
  unfold Extraction.load Undisturbed
  dsimp only
  cases reconcileDue s full <;> exact hcurrent

theorem marked_reconcile {now : Nat} {raw : Nat → Option (RawRow W)} {odoo : List (Record V)} {id : Nat}
    {row : RawRow W} (h : reconcile now (liveIds spec odoo) raw id = some row) :
    row.deletedAt = none ↔ ∃ r ∈ odoo, r.id = id ∧ spec.inDomain r.values = true := by
  rw [← mem_liveIds]
  obtain ⟨old, -, rfl⟩ := Option.map_eq_some_iff.mp h
  by_cases hlive : id ∈ liveIds spec odoo
  · cases hmark : old.deletedAt <;> simp [hlive, hmark]
  · cases hmark : old.deletedAt <;> simp [hlive, hmark]

/-- An undisturbed extraction after the actions `as` of it. -/
structure Goes (cfg : Settings) (spec : Spec V W) (s₀ : State V W) (as : List (Action V)) (s : State V W) : Prop where
  odoo : s.odoo = s₀.odoo
  stage : Undisturbed cfg spec s₀ s
  marked : Action.mark ∈ as → s.phase = .idle ∧ Marked spec s

theorem Goes.step {as : List (Action V)} {a : Action V} (hi : Caught cfg spec late s₀) (hg : Goes cfg spec s₀ as s)
    (ha : a.undisturbed = true) (h : Extraction.step cfg spec s a = some t) : Goes cfg spec s₀ (as ++ [a]) t := by
  have hn : (s.odoo.map Record.id).Nodup := hg.odoo ▸ hi.ids
  -- While the extraction goes on, nothing was marked yet.
  have hnot : ∀ {b : Action V}, b ≠ .mark → s.phase ≠ .idle → Action.mark ∉ as ++ [b] := by
    intro b hb hphase hmem
    rcases List.mem_append.mp hmem with hmem | hmem
    · exact hphase (hg.marked hmem).1
    · exact hb (List.mem_singleton.mp hmem).symm
  cases a with
  | tick elapsed =>
    cases h
    refine ⟨hg.odoo, hg.stage, fun hmem => ?_⟩
    exact hg.marked ((List.mem_append.mp hmem).resolve_right (by simp))
  | page =>
    simp only [Extraction.step] at h
    split at h
    · next hphase =>
      cases h
      refine ⟨hg.odoo, hg.stage.page hn hphase, fun hmem => absurd hmem (hnot (by simp) (by simp [hphase]))⟩
    · cases h
  | load =>
    simp only [Extraction.step] at h
    split at h
    · next hphase =>
      cases h
      exact ⟨hg.odoo, hg.stage.load hi hg.odoo hphase, fun hmem => absurd hmem (hnot (by simp) (by simp [hphase]))⟩
    · cases h
  | search =>
    simp only [Extraction.step] at h
    split at h
    · next hphase =>
      cases h
      have hstage := hg.stage
      rw [Undisturbed, hphase] at hstage
      exact ⟨hg.odoo, ⟨hstage, rfl⟩, fun hmem => absurd hmem (hnot (by simp) (by simp [hphase]))⟩
    · cases h
  | mark =>
    simp only [Extraction.step] at h
    split at h
    · next hphase =>
      cases h
      have hstage := hg.stage
      rw [Undisturbed, hphase] at hstage
      obtain ⟨hcurrent, rfl⟩ := hstage
      refine ⟨hg.odoo, fun r hr hdomain => ?_, fun _ => ⟨rfl, fun id row hrow => marked_reconcile hrow⟩⟩
      exact reconcile_current (mem_liveIds.mpr ⟨r, hr, rfl, hdomain⟩) (hcurrent r hr hdomain)
    · cases h
  | write id values writeDate => cases ha
  | delete id => cases ha
  | begin fullRefresh => cases ha
  | fail => cases ha

end

/-! ## An undisturbed extraction comes to its end -/

/-- The extraction goes on from `s`, undisturbed, to a state where `p` holds. -/
def GoesOn (cfg : Settings) (spec : Spec V W) (s : State V W) (p : State V W → Prop) : Prop :=
  ∃ bs t, FreeRun (step cfg spec) s bs t ∧ (∀ b ∈ bs, b.undisturbed = true) ∧ p t

theorem GoesOn.here {p : State V W → Prop} (hp : p s) : GoesOn cfg spec s p :=
  ⟨[], s, .nil s, fun b hb => (by cases hb), hp⟩

theorem GoesOn.cons {p : State V W → Prop} {a : Action V} (h : step cfg spec s a = some t)
    (ha : a.undisturbed = true) (ht : GoesOn cfg spec t p) : GoesOn cfg spec s p := by
  obtain ⟨bs, u, hrun, hbs, hp⟩ := ht
  exact ⟨a :: bs, u, .cons trivial h hrun, List.forall_mem_cons.mpr ⟨ha, hbs⟩, hp⟩

theorem goesOn_searched {live : List Nat} (hphase : s.phase = .searched live) :
    GoesOn cfg spec s fun t => t.phase = .idle := by
  have hmark : step cfg spec s .mark =
      some { s with raw := reconcile s.now live s.raw, lastReconciled := some s.now, phase := .idle } := by
    simp only [step, hphase]
  exact .cons hmark rfl (.here rfl)

theorem goesOn_extracted {startedAt : Nat} {full : Bool} {records : List (Record V)}
    (hphase : s.phase = .extracted startedAt full records) : GoesOn cfg spec s fun t => t.phase = .idle := by
  have hload : step cfg spec s .load = some (load spec s full records) := by
    simp only [step, hphase]
  refine .cons hload rfl ?_
  cases hdue : reconcileDue s full with
  | false => exact .here (if_neg (by rw [hdue]; decide))
  | true =>
    have hafter : (load spec s full records).phase = .due := if_pos hdue
    have hsearch : step cfg spec (load spec s full records) .search =
        some { load spec s full records with phase := .searched (liveIds spec (load spec s full records).odoo) } := by
      simp only [step, hafter, liveIds]
    exact .cons hsearch rfl (goesOn_searched rfl)

/-- Every page that is full leaves fewer records to read. -/
theorem goesOn_paging (hpage : 0 < cfg.pageSize) {startedAt offset : Nat} {full : Bool} {since : Option Nat}
    {byId : List (Record V)} (hphase : s.phase = .paging startedAt full since byId offset) :
    GoesOn cfg spec s fun t => t.phase = .idle := by
  induction hleft : (selected spec since s.odoo).length - offset using Nat.strong_induction_on
    generalizing s byId offset with
  | _ left ih =>
    have hread : step cfg spec s .page = some (readPage cfg spec s startedAt full since byId offset) := by
      simp only [step, hphase]
    refine .cons hread rfl ?_
    by_cases hshort : (offsetPage Record.id cfg.pageSize offset (selected spec since s.odoo)).length < cfg.pageSize
    · exact goesOn_extracted (if_pos hshort)
    · have hfewer : (selected spec since s.odoo).length - (offset + cfg.pageSize) < left := by
        rw [length_offsetPage] at hshort
        omega
      exact ih _ hfewer (if_neg hshort) rfl

/-- **Extraction converges**: after any run in which no record that a read has passed leaves
it and no load takes a write date from beyond the overlap, with failures anywhere, an
extraction that Odoo does not disturb ends with the raw row of every record current, and
with exactly the rows of missing records marked when it reconciles. With pages of at least
one record there is such an extraction, and it comes to its end. -/
theorem extraction_converges {now : Nat} {odoo : List (Record V)} (hn : (odoo.map Record.id).Nodup)
    {as : List (Action V)} (fullRefresh : Bool)
    (h : Run (step cfg spec) (Ok cfg spec late) (nothing now odoo) as s) :
    (∀ bs t, FreeRun (step cfg spec) s (.begin fullRefresh :: bs) t → (∀ b ∈ bs, b.undisturbed = true) →
      t.phase = .idle → t.odoo = s.odoo ∧ AllCurrent spec t ∧ (Action.mark ∈ bs → Marked spec t)) ∧
    (0 < cfg.pageSize → s.phase = .idle → ∃ bs t, FreeRun (step cfg spec) s (.begin fullRefresh :: bs) t ∧
      (∀ b ∈ bs, b.undisturbed = true) ∧ t.phase = .idle) := by
  have hi : Caught cfg spec late s := h.invariant (fun _ _ _ hi hok hst => hi.step hok hst) (nothing_caught hn)
  refine ⟨fun bs t h' hbs hidle => ?_, fun hpage hidle => ?_⟩
  · cases h' with
    | cons _ hbegin hrest =>
      simp only [step] at hbegin
      split at hbegin
      · cases hbegin
        have hstart : Goes cfg spec s [] (begins cfg s fullRefresh) :=
          ⟨rfl, ⟨rfl, rfl, fun g hg => (by cases hg), fun r _ _ hrank => absurd hrank (Nat.not_lt_zero _)⟩,
            fun hmem => by cases hmem⟩
        have hend := (hrest.strengthen hbs).traced (Goes cfg spec s)
          (fun _ _ _ _ hg ha hst => hg.step hi ha.2 hst) hstart
        have hstage := hend.stage
        rw [Undisturbed, hidle] at hstage
        exact ⟨hend.odoo, hstage, fun hmem => (hend.marked hmem).2⟩
      · cases hbegin
  · have hbegin : step cfg spec s (.begin fullRefresh) = some (begins cfg s fullRefresh) := by
      simp only [step, hidle]
    obtain ⟨bs, t, hrun, hbs, hend⟩ := goesOn_paging hpage (rfl : (begins cfg s fullRefresh).phase = _)
    exact ⟨bs, t, .cons trivial hbegin hrun, hbs, hend⟩

/-! ## Runs on numbers -/

def numbers : Spec Nat Nat := ⟨fun _ => true, id⟩

/-- One record a page, and an overlap of one second. -/
def onePage : Settings := ⟨1, 1⟩

def twoRecords : List (Record Nat) := [⟨1, 0, 0⟩, ⟨2, 0, 0⟩]

/-- A record changes after its page was read, the run fails before it compares the ids, and
then the other record is deleted. -/
def changedAndFailed : List (Action Nat) :=
  [.begin false, .page, .tick second, .write 1 7 second, .page, .page, .load, .fail, .delete 2]

/-- An extraction of a single record that compares the ids. -/
def compares : List (Action Nat) := [.page, .page, .load, .search, .mark]

theorem extraction_converges_changedAndFailed : ∃ s t,
    Run (step onePage numbers) (Ok onePage numbers 0) (nothing 0 twoRecords) changedAndFailed s ∧
      FreeRun (step onePage numbers) s (.begin false :: compares) t ∧
        (t.odoo = s.odoo ∧ AllCurrent numbers t ∧ Marked numbers t) ∧
        ∃ bs u, FreeRun (step onePage numbers) s (.begin false :: bs) u ∧ u.phase = .idle := by
  have hrun : (exec (step onePage numbers) (Ok onePage numbers 0) (nothing 0 twoRecords) changedAndFailed).bind
      (fun s => (exec (step onePage numbers) (fun _ _ => True) s (.begin false :: compares)).map
        fun t => (s.phase, t.phase)) = some (.idle, .idle) := by decide +kernel
  obtain ⟨s, hs, hrun⟩ := Option.bind_eq_some_iff.mp hrun
  obtain ⟨t, ht, hphases⟩ := Option.map_eq_some_iff.mp hrun
  obtain ⟨hbegin, hidle⟩ := Prod.mk.inj hphases
  have hok := (exec_eq_some _ _ _ _ _).mp hs
  have hfree := (exec_eq_some _ _ _ _ _).mp ht
  obtain ⟨hconverges, hends⟩ := extraction_converges (by decide) false hok
  obtain ⟨hodoo, hcurrent, hmarked⟩ := hconverges compares t hfree (by decide) hidle
  obtain ⟨bs, u, hfree', -, hidle'⟩ := hends Nat.one_pos hbegin
  exact ⟨s, t, hok, hfree, ⟨hodoo, hcurrent, hmarked (by simp [compares])⟩, bs, u, hfree', hidle'⟩

def Action.loads : Action V → Bool
  | .load => true
  | .tick _ | .write _ _ _ | .delete _ | .begin _ | .page | .search | .mark | .fail => false

def Action.deletes : Action V → Bool
  | .delete _ => true
  | .tick _ | .write _ _ _ | .begin _ | .page | .load | .search | .mark | .fail => false

/-- The first record changes after its page was read, and the second long after that, before
its own page: the watermark goes past the first change. -/
def changedTwice : List (Action Nat) :=
  [.begin false, .page, .tick (5 * second), .write 1 7 (5 * second), .tick (10 * second),
    .write 2 8 (15 * second), .page, .page, .load, .search, .mark]

/-- The condition on a load is needed: a read that takes longer than the overlap loses a change. -/
theorem update_lost : ∃ s t,
    Run (step onePage numbers) (fun s a => a.loads = true ∨ Ok onePage numbers 0 s a) (nothing 0 twoRecords)
      changedTwice s ∧
    FreeRun (step onePage numbers) s [.begin false, .page, .page, .load] t ∧ t.phase = .idle ∧
      ¬ AllCurrent numbers t := by
  have hrun : (exec (step onePage numbers) (fun s a => a.loads = true ∨ Ok onePage numbers 0 s a)
      (nothing 0 twoRecords) changedTwice).bind (fun s => (exec (step onePage numbers) (fun _ _ => True) s
        [.begin false, .page, .page, .load]).map fun t => (t.phase, t.odoo, t.raw 1)) =
      some (.idle, [⟨1, 5 * second, 7⟩, ⟨2, 15 * second, 8⟩], some ⟨0, 0, none⟩) := by decide +kernel
  obtain ⟨s, hs, hrun⟩ := Option.bind_eq_some_iff.mp hrun
  obtain ⟨t, ht, hrun⟩ := Option.map_eq_some_iff.mp hrun
  simp only [Prod.mk.injEq] at hrun
  obtain ⟨hidle, hodoo, hraw⟩ := hrun
  refine ⟨s, t, (exec_eq_some _ _ _ _ _).mp hs, (exec_eq_some _ _ _ _ _).mp ht, hidle, fun hcurrent => ?_⟩
  have hfirst := hcurrent ⟨1, 5 * second, 7⟩ (hodoo ▸ List.mem_cons_self) rfl
  rw [Current, hraw] at hfirst
  exact absurd hfirst (by decide)

/-- The record on the page that was read is deleted, and the next page begins one record too
late. -/
def deletedBehind : List (Action Nat) :=
  [.begin false, .page, .delete 1, .page, .page, .load, .search, .mark]

/-- The condition on deletions is needed: the record in between is not read, and the next
incremental extraction does not ask for it. -/
theorem record_skipped : ∃ s t,
    Run (step onePage numbers) (fun s a => a.deletes = true ∨ Ok onePage numbers 0 s a)
      (nothing (5 * second) (twoRecords ++ [⟨3, 5 * second, 0⟩])) deletedBehind s ∧
    FreeRun (step onePage numbers) s [.begin false, .page, .page, .load] t ∧ t.phase = .idle ∧
      ¬ AllCurrent numbers t := by
  have hrun : (exec (step onePage numbers) (fun s a => a.deletes = true ∨ Ok onePage numbers 0 s a)
      (nothing (5 * second) (twoRecords ++ [⟨3, 5 * second, 0⟩])) deletedBehind).bind (fun s =>
        (exec (step onePage numbers) (fun _ _ => True) s [.begin false, .page, .page, .load]).map
          fun t => (t.phase, t.odoo, t.raw 2)) =
      some (.idle, [⟨2, 0, 0⟩, ⟨3, 5 * second, 0⟩], none) := by decide +kernel
  obtain ⟨s, hs, hrun⟩ := Option.bind_eq_some_iff.mp hrun
  obtain ⟨t, ht, hrun⟩ := Option.map_eq_some_iff.mp hrun
  simp only [Prod.mk.injEq] at hrun
  obtain ⟨hidle, hodoo, hraw⟩ := hrun
  refine ⟨s, t, (exec_eq_some _ _ _ _ _).mp hs, (exec_eq_some _ _ _ _ _).mp ht, hidle, fun hcurrent => ?_⟩
  have hsecond := hcurrent ⟨2, 0, 0⟩ (hodoo ▸ List.mem_cons_self) rfl
  rw [Current, hraw] at hsecond
  cases hsecond

end SalesDashboard.Extraction
