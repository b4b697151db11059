import SalesDashboard.Extraction.Raw

/-! Nothing Odoo changed is out of reach of the next extraction, as long as no record that a
read has passed leaves it, and a read ends within the overlap: along such runs every record
whose raw row is not current was written at or after the next lower bound. -/

namespace SalesDashboard.Extraction
open Paging Transition

variable {V W : Type} {cfg : Settings} {spec : Spec V W} {late : Nat} {s t : State V W}

/-! ## The conditions of a run -/

/-- The raw row of the record is as Odoo has it. -/
def Current (spec : Spec V W) (raw : Nat → Option (RawRow W)) (r : Record V) : Prop :=
  raw r.id = some (rowOf spec r)

/-- The next incremental read asks for write dates like this one. -/
def Reached (cfg : Settings) (wm : Watermark) (writeDate : Nat) : Prop :=
  ∀ best ∈ wm, best.1 * second ≤ writeDate + cfg.overlapSeconds * second

/-- A record the read has passed does not leave it; `next` is what Odoo makes of it. -/
def Stays (spec : Spec V W) (odoo : List (Record V)) (id : Nat) (next : Option (Record V)) : Phase V → Prop
  | .paging _ _ since _ offset =>
      ∀ r ∈ odoo, r.id = id → selects spec since r = true →
        rank Record.id (selected spec since odoo) id < offset → next.any (selects spec since) = true
  | _ => True

/-- What was read was written at most the overlap, less the time a transaction may take to
become visible, after the read began. -/
def Timely (cfg : Settings) (late : Nat) : Phase V → Prop
  | .extracted startedAt _ records => ∀ r ∈ records, r.writeDate + late ≤ startedAt + cfg.overlapSeconds * second
  | _ => True

/-- A transaction stamps its records at most `late` before it becomes visible. -/
def Ok (cfg : Settings) (spec : Spec V W) (late : Nat) (s : State V W) : Action V → Prop
  | .write id values writeDate =>
      s.now ≤ writeDate + late ∧ Stays spec s.odoo id (some ⟨id, writeDate, values⟩) s.phase
  | .delete id => Stays spec s.odoo id none s.phase
  | .load => Timely cfg late s.phase
  | _ => True

instance (spec : Spec V W) (odoo : List (Record V)) (id : Nat) (next : Option (Record V)) :
    (phase : Phase V) → Decidable (Stays spec odoo id next phase)
  | .paging _ _ _ _ _ => inferInstanceAs (Decidable (∀ _ ∈ _, _))
  | .idle | .extracted _ _ _ | .due | .searched _ => inferInstanceAs (Decidable True)

instance (cfg : Settings) (late : Nat) : (phase : Phase V) → Decidable (Timely cfg late phase)
  | .extracted _ _ _ => inferInstanceAs (Decidable (∀ _ ∈ _, _))
  | .idle | .paging _ _ _ _ _ | .due | .searched _ => inferInstanceAs (Decidable True)

instance (cfg : Settings) (spec : Spec V W) (late : Nat) (s : State V W) :
    (a : Action V) → Decidable (Ok cfg spec late s a)
  | .write _ _ _ => inferInstanceAs (Decidable (_ ∧ _))
  | .delete id => inferInstanceAs (Decidable (Stays spec s.odoo id none s.phase))
  | .load => inferInstanceAs (Decidable (Timely cfg late s.phase))
  | .tick _ | .begin _ | .page | .search | .mark | .fail => inferInstanceAs (Decidable True)

/-! ## The invariant -/

/-- What was read of a record is what Odoo has, or Odoo changed it since. -/
def Versions (late : Nat) (startedAt : Nat) (odoo got : List (Record V)) : Prop :=
  ∀ g ∈ got, ∀ r ∈ odoo, r.id = g.id → r = g ∨ startedAt ≤ r.writeDate + late

/-- The record was read, or Odoo changed it since. -/
def Read (late : Nat) (startedAt : Nat) (got : List (Record V)) (r : Record V) : Prop :=
  r.id ∈ got.map Record.id ∨ startedAt ≤ r.writeDate + late

/-- The watermark is no further than the overlap ahead of the time given. -/
def Bounded (cfg : Settings) (late : Nat) (wm : Watermark) (time : Nat) : Prop :=
  ∀ best ∈ wm, best.1 * second + late ≤ time + cfg.overlapSeconds * second

def sinceOf (cfg : Settings) (wm : Watermark) (full : Bool) : Option Nat :=
  if full then none else incrementalSince cfg wm

/-- What an extraction has established so far. -/
def Progress (cfg : Settings) (spec : Spec V W) (late : Nat) (s : State V W) : Prop :=
  match s.phase with
  | .idle | .due => True
  | .paging startedAt full since byId offset =>
      startedAt ≤ s.now ∧ Bounded cfg late s.watermark startedAt ∧ since = sinceOf cfg s.watermark full ∧
        Versions late startedAt s.odoo byId ∧
        ∀ r ∈ s.odoo, selects spec since r = true → rank Record.id (selected spec since s.odoo) r.id < offset →
          Read late startedAt byId r
  | .extracted startedAt full records =>
      startedAt ≤ s.now ∧ Bounded cfg late s.watermark startedAt ∧ Versions late startedAt s.odoo records ∧
        ∀ r ∈ s.odoo, selects spec (sinceOf cfg s.watermark full) r = true → Read late startedAt records r
  | .searched live => ∀ r ∈ s.odoo, spec.inDomain r.values = true → r.id ∈ live ∨ Reached cfg s.watermark r.writeDate

/-- Every record is current in the raw table or reached by the next read. -/
structure Caught (cfg : Settings) (spec : Spec V W) (late : Nat) (s : State V W) : Prop where
  ids : (s.odoo.map Record.id).Nodup
  clock : Bounded cfg late s.watermark s.now
  caught : ∀ r ∈ s.odoo, spec.inDomain r.values = true → Current spec s.raw r ∨ Reached cfg s.watermark r.writeDate
  progress : Progress cfg spec late s

/-! ## Lists of records -/

theorem mem_put {r x : Record V} {rs : List (Record V)} : x ∈ put r rs ↔ x ∈ rs ∧ x.id ≠ r.id ∨ x = r := by
  simp [put]

theorem id_mem_put {r : Record V} {rs : List (Record V)} {id : Nat} (h : id ∈ rs.map Record.id) :
    id ∈ (put r rs).map Record.id := by
  obtain ⟨x, hx, rfl⟩ := List.mem_map.mp h
  by_cases heq : x.id = r.id
  · exact List.mem_map.mpr ⟨r, mem_put.mpr (.inr rfl), heq.symm⟩
  · exact List.mem_map.mpr ⟨x, mem_put.mpr (.inl ⟨hx, heq⟩), rfl⟩

theorem mem_of_mem_puts {page got : List (Record V)} {x : Record V}
    (h : x ∈ page.foldl (fun got r => put r got) got) : x ∈ got ∨ x ∈ page := by
  induction page generalizing got with
  | nil => exact .inl h
  | cons r page ih =>
    rcases ih h with hput | hpage
    · rcases mem_put.mp hput with ⟨hx, -⟩ | rfl
      · exact .inl hx
      · exact .inr List.mem_cons_self
    · exact .inr (List.mem_cons_of_mem _ hpage)

theorem id_mem_puts {page got : List (Record V)} {id : Nat}
    (h : id ∈ got.map Record.id ∨ id ∈ page.map Record.id) :
    id ∈ (page.foldl (fun got r => put r got) got).map Record.id := by
  induction page generalizing got with
  | nil => exact h.resolve_right (by simp)
  | cons r page ih =>
    refine ih ?_
    rcases h with h | h
    · exact .inl (id_mem_put h)
    · rcases List.mem_cons.mp h with rfl | h
      · exact .inl (List.mem_map.mpr ⟨r, mem_put.mpr (.inr rfl), rfl⟩)
      · exact .inr h

theorem eq_of_id {odoo : List (Record V)} (hn : (odoo.map Record.id).Nodup) {r g : Record V} (hr : r ∈ odoo)
    (hg : g ∈ odoo) (h : r.id = g.id) : r = g :=
  List.inj_on_of_nodup_map hn hr hg h

theorem mem_selected {since : Option Nat} {odoo : List (Record V)} {r : Record V} :
    r ∈ selected spec since odoo ↔ r ∈ odoo ∧ selects spec since r = true := List.mem_filter

theorem nodup_selected {since : Option Nat} {odoo : List (Record V)} (hn : (odoo.map Record.id).Nodup) :
    ((selected spec since odoo).map Record.id).Nodup :=
  hn.sublist (List.filter_sublist.map Record.id)

section
variable {since : Option Nat} {odoo byId : List (Record V)} {offset : Nat} (hn : (odoo.map Record.id).Nodup)
include hn

theorem mem_of_mem_page {g : Record V}
    (h : g ∈ (offsetPage Record.id cfg.pageSize offset (selected spec since odoo)).foldl (fun got r => put r got) byId) :
    g ∈ byId ∨ g ∈ odoo :=
  (mem_of_mem_puts h).imp_right fun hnew => (mem_selected.mp ((mem_offsetPage (nodup_selected hn)).mp hnew).1).1

/-- A page adds the records of its places. -/
theorem id_mem_page {r : Record V} (hr : r ∈ odoo) (hselects : selects spec since r = true)
    (hrank : rank Record.id (selected spec since odoo) r.id < offset + cfg.pageSize)
    (hbefore : rank Record.id (selected spec since odoo) r.id < offset → r.id ∈ byId.map Record.id) :
    r.id ∈ ((offsetPage Record.id cfg.pageSize offset (selected spec since odoo)).foldl (fun got r => put r got)
      byId).map Record.id := by
  refine id_mem_puts ((em _).imp hbefore fun hafter => List.mem_map.mpr ⟨r, ?_, rfl⟩)
  exact (mem_offsetPage (nodup_selected hn)).mpr ⟨mem_selected.mpr ⟨hr, hselects⟩, Nat.le_of_not_lt hafter, hrank⟩

end

/-! ## The watermark -/

theorem toSecond_le (w : Nat) : toSecond w * second ≤ w := Nat.div_mul_le_self w second

theorem advance_bounded {wm : Watermark} {rows : List (Record V)} {time : Nat} (hwm : Bounded cfg late wm time)
    (hrows : ∀ r ∈ rows, r.writeDate + late ≤ time + cfg.overlapSeconds * second) :
    Bounded cfg late (advance wm rows) time := by
  induction rows generalizing wm with
  | nil => exact hwm
  | cons r rows ih =>
    show Bounded cfg late (advance (some _) rows) time
    refine ih (fun best hbest => ?_) fun x hx => hrows x (List.mem_cons_of_mem _ hx)
    obtain rfl := Option.some.inj hbest
    have hr := hrows r List.mem_cons_self
    have hsec := toSecond_le r.writeDate
    have hown : toSecond r.writeDate * second + late ≤ time + cfg.overlapSeconds * second := by omega
    cases wm with
    | none => exact hown
    | some old =>
      dsimp only [newer]
      split
      · exact hown
      · exact hwm old rfl

theorem reached_of_bounded {wm : Watermark} {time writeDate : Nat} (hwm : Bounded cfg late wm time)
    (hlate : time ≤ writeDate + late) : Reached cfg wm writeDate := by
  intro best hbest
  have := hwm best hbest
  omega

theorem Bounded.mono {wm : Watermark} {time time' : Nat} (hwm : Bounded cfg late wm time) (h : time ≤ time') :
    Bounded cfg late wm time' := by
  intro best hbest
  have := hwm best hbest
  omega

theorem overlap_le {newest overlap unit writeDate : Nat} (h : newest * unit ≤ writeDate + overlap * unit) :
    (newest - overlap) * unit ≤ writeDate := by
  rw [Nat.sub_mul]
  omega

theorem selects_iff {since : Option Nat} {r : Record V} :
    selects spec since r = true ↔ spec.inDomain r.values = true ∧ ∀ sec ∈ since, sec * second ≤ r.writeDate := by
  rw [selects, Bool.and_eq_true, Option.all_eq_true]
  exact and_congr_right fun _ => forall₂_congr fun _ _ => decide_eq_true_iff

/-- What an incremental read does not ask for is behind the overlap. -/
theorem not_reached_of_not_selects {full : Bool} {r : Record V} (hdomain : spec.inDomain r.values = true)
    (h : selects spec (sinceOf cfg s.watermark full) r ≠ true) :
    full = false ∧ ¬ Reached cfg s.watermark r.writeDate := by
  cases full with
  | true => exact absurd (selects_iff.mpr ⟨hdomain, fun sec hsec => (by cases hsec)⟩) h
  | false =>
    refine ⟨rfl, fun hreached => h (selects_iff.mpr ⟨hdomain, fun sec hsec => ?_⟩)⟩
    obtain ⟨best, hbest, rfl⟩ := Option.map_eq_some_iff.mp hsec
    exact overlap_le (hreached best hbest)

/-! ## Odoo changes -/

/-- Odoo after one record was written or deleted. -/
def change (id : Nat) (next : Option (Record V)) (odoo : List (Record V)) : List (Record V) :=
  odoo.filter (fun r => decide (r.id ≠ id)) ++ next.toList

theorem mem_change {id : Nat} {next : Option (Record V)} {odoo : List (Record V)} {r : Record V} :
    r ∈ change id next odoo ↔ r ∈ odoo ∧ r.id ≠ id ∨ r ∈ next := by
  simp [change]

theorem Caught.change (hi : Caught cfg spec late s) (id : Nat) (next : Option (Record V))
    (hid : ∀ r ∈ next, r.id = id) (hstamp : ∀ r ∈ next, s.now ≤ r.writeDate + late) (hstays : Stays spec s.odoo id next s.phase) :
    Caught cfg spec late { s with odoo := change id next s.odoo } := by
  have hnext : ∀ r ∈ next, Reached cfg s.watermark r.writeDate := fun r hr =>
    reached_of_bounded hi.clock (hstamp r hr)
  have hids : ((Extraction.change id next s.odoo).map Record.id).Nodup := by
    rw [Extraction.change, List.map_append, List.nodup_append]
    refine ⟨hi.ids.sublist (List.filter_sublist.map _), ?_, ?_⟩
    · cases next <;> simp
    · intro a ha b hb
      obtain ⟨x, hx, rfl⟩ := List.mem_map.mp ha
      obtain ⟨y, hy, rfl⟩ := List.mem_map.mp hb
      have hne : x.id ≠ id := by simpa using (List.mem_filter.mp hx).2
      rw [hid y (Option.mem_toList.mp hy)]
      exact hne
  refine ⟨hids, hi.clock, fun r hr hdomain => ?_, ?_⟩
  · rcases mem_change.mp hr with ⟨hold, -⟩ | hnew
    · exact hi.caught r hold hdomain
    · exact .inr (hnext r hnew)
  · have hprogress := hi.progress
    unfold Progress at hprogress ⊢
    dsimp only
    cases hphase : s.phase with
    | idle | due => trivial
    | paging startedAt full since byId offset =>
      rw [hphase] at hstays
      simp only [hphase] at hprogress ⊢
      obtain ⟨hstarted, hbounded, hsince, hversions, hread⟩ := hprogress
      refine ⟨hstarted, hbounded, hsince, fun g hg r hr hgr => ?_, fun r hr hselects hrank => ?_⟩
      · rcases mem_change.mp hr with ⟨hold, -⟩ | hnew
        · exact hversions g hg r hold hgr
        · exact .inr (hstarted.trans (hstamp r hnew))
      · rcases mem_change.mp hr with ⟨hold, -⟩ | hnew
        · refine hread r hold hselects ?_
          refine rank_before id (nodup_selected hi.ids) (nodup_selected hids) ?_ ?_ hrank
          · intro z hz hne
            rw [mem_selected] at hz
            exact ⟨z, mem_selected.mpr ⟨mem_change.mpr (.inl ⟨hz.1, hne⟩), hz.2⟩, rfl⟩
          · rintro ⟨z, hz, hzid, hzrank⟩
            rw [mem_selected] at hz
            obtain ⟨r', hr', hselects'⟩ := (Option.any_eq_true _ _).mp (hstays z hz.1 hzid hz.2 hzrank)
            exact ⟨r', mem_selected.mpr ⟨mem_change.mpr (.inr hr'), hselects'⟩, hid r' hr'⟩
        · exact .inr (hstarted.trans (hstamp r hnew))
    | extracted startedAt full records =>
      simp only [hphase] at hprogress ⊢
      obtain ⟨hstarted, hbounded, hversions, hread⟩ := hprogress
      refine ⟨hstarted, hbounded, fun g hg r hr hgr => ?_, fun r hr hselects => ?_⟩
      · rcases mem_change.mp hr with ⟨hold, -⟩ | hnew
        · exact hversions g hg r hold hgr
        · exact .inr (hstarted.trans (hstamp r hnew))
      · rcases mem_change.mp hr with ⟨hold, -⟩ | hnew
        · exact hread r hold hselects
        · exact .inr (hstarted.trans (hstamp r hnew))
    | searched live =>
      simp only [hphase] at hprogress ⊢
      intro r hr hdomain
      rcases mem_change.mp hr with ⟨hold, -⟩ | hnew
      · exact hprogress r hold hdomain
      · exact .inr (hnext r hnew)

/-! ## The extraction goes on -/

theorem Caught.begin (hi : Caught cfg spec late s) (fullRefresh : Bool) :
    Caught cfg spec late (begins cfg s fullRefresh) := by
  refine ⟨hi.ids, hi.clock, hi.caught, le_refl _, hi.clock, rfl, fun g hg => (by cases hg), fun r _ _ hrank => ?_⟩
  exact absurd hrank (Nat.not_lt_zero _)

theorem Caught.page (hi : Caught cfg spec late s) {startedAt offset : Nat} {full : Bool} {since : Option Nat}
    {byId : List (Record V)} (hphase : s.phase = .paging startedAt full since byId offset) :
    Caught cfg spec late (readPage cfg spec s startedAt full since byId offset) := by
  have hprogress := hi.progress
  rw [Progress, hphase] at hprogress
  obtain ⟨hstarted, hbounded, hsince, hversions, hread⟩ := hprogress
  set page := offsetPage Record.id cfg.pageSize offset (selected spec since s.odoo) with hpage
  set got := page.foldl (fun got r => put r got) byId with hgot
  have hversions' : Versions late startedAt s.odoo got := by
    intro g hg r hr hgr
    rcases mem_of_mem_page hi.ids hg with hold | hnew
    · exact hversions g hold r hr hgr
    · exact .inl (eq_of_id hi.ids hr hnew hgr)
  have hread' : ∀ r ∈ s.odoo, selects spec since r = true →
      rank Record.id (selected spec since s.odoo) r.id < offset + cfg.pageSize → Read late startedAt got r := by
    intro r hr hselects hrank
    by_cases hlate : startedAt ≤ r.writeDate + late
    · exact .inr hlate
    · exact .inl (id_mem_page hi.ids hr hselects hrank fun hbefore => (hread r hr hselects hbefore).resolve_right hlate)
  have hrest : ∀ phase, Progress cfg spec late { s with phase := phase } →
      Caught cfg spec late { s with phase := phase } := fun _ h => ⟨hi.ids, hi.clock, hi.caught, h⟩
  unfold readPage
  dsimp only
  rw [← hpage, ← hgot]
  split
  · next hshort =>
    refine hrest _ ⟨hstarted, hbounded, fun g hg => hversions' g (mem_ordered.mp hg), fun r hr hselects => ?_⟩
    rw [← hsince] at hselects
    have hrank := rank_of_short hshort (mem_selected.mpr ⟨hr, hselects⟩)
    refine (hread' r hr hselects hrank).imp_left fun h => ?_
    obtain ⟨g, hg, hgr⟩ := List.mem_map.mp h
    exact List.mem_map.mpr ⟨g, mem_ordered.mpr hg, hgr⟩
  · exact hrest _ ⟨hstarted, hbounded, hsince, hversions', hread'⟩

theorem upsert_of_mem (spec : Spec V W) (raw : Nat → Option (RawRow W)) {records : List (Record V)} {id : Nat}
    (h : id ∈ records.map Record.id) : ∃ g ∈ records, g.id = id ∧ upsert spec raw records id = some (rowOf spec g) := by
  obtain ⟨x, hx, hxid⟩ := List.mem_map.mp h
  have hsome : (records.find? fun r => decide (r.id = id)).isSome := by
    rw [List.find?_isSome]
    exact ⟨x, hx, decide_eq_true hxid⟩
  obtain ⟨g, hg⟩ := Option.isSome_iff_exists.mp hsome
  have hgid := List.find?_some hg
  exact ⟨g, List.mem_of_find?_eq_some hg, of_decide_eq_true hgid, by rw [upsert, hg]⟩

theorem upsert_of_not_mem {raw : Nat → Option (RawRow W)} {records : List (Record V)} {id : Nat}
    (h : id ∉ records.map Record.id) : upsert spec raw records id = raw id := by
  have hnone : (records.find? fun r => decide (r.id = id)) = none := by
    rw [List.find?_eq_none]
    exact fun x hx hxid => h (List.mem_map.mpr ⟨x, hx, of_decide_eq_true hxid⟩)
  rw [upsert, hnone]

theorem Caught.load (hi : Caught cfg spec late s) {startedAt : Nat} {full : Bool} {records : List (Record V)}
    (hphase : s.phase = .extracted startedAt full records) (htimely : Timely cfg late s.phase) :
    Caught cfg spec late (load spec s full records) := by
  have hprogress := hi.progress
  rw [Progress, hphase] at hprogress
  obtain ⟨hstarted, hbounded, hversions, hread⟩ := hprogress
  rw [hphase] at htimely
  have hwm : Bounded cfg late (advance (if full then none else s.watermark) records) startedAt := by
    refine advance_bounded ?_ htimely
    cases full with
    | true => exact fun best hbest => by cases hbest
    | false => exact hbounded
  refine ⟨hi.ids, hwm.mono hstarted, fun r hr hdomain => ?_, ?_⟩
  · by_cases hmem : r.id ∈ records.map Record.id
    · obtain ⟨g, hg, hgr, hupsert⟩ := upsert_of_mem spec s.raw hmem
      rcases hversions g hg r hr hgr.symm with rfl | hlate
      · exact .inl hupsert
      · exact .inr (reached_of_bounded hwm hlate)
    · by_cases hselects : selects spec (sinceOf cfg s.watermark full) r = true
      · exact .inr (reached_of_bounded hwm ((hread r hr hselects).resolve_left hmem))
      · obtain ⟨-, hbehind⟩ := not_reached_of_not_selects hdomain hselects
        exact .inl ((upsert_of_not_mem hmem).trans ((hi.caught r hr hdomain).resolve_right hbehind))
  · unfold Extraction.load Progress
    dsimp only
    cases reconcileDue s full <;> trivial

theorem Caught.search (hi : Caught cfg spec late s) :
    Caught cfg spec late
      { s with phase := .searched ((s.odoo.filter fun r => spec.inDomain r.values).map Record.id) } := by
  refine ⟨hi.ids, hi.clock, hi.caught, fun r hr hdomain => .inl ?_⟩
  exact List.mem_map.mpr ⟨r, List.mem_filter.mpr ⟨hr, hdomain⟩, rfl⟩

theorem reconcile_current {raw : Nat → Option (RawRow W)} {live : List Nat} {now : Nat} {r : Record V}
    (hlive : r.id ∈ live) (h : Current spec raw r) : Current spec (reconcile now live raw) r := by
  have hraw : raw r.id = some (rowOf spec r) := h
  show reconcile now live raw r.id = some (rowOf spec r)
  simp [reconcile, hraw, hlive, rowOf]

theorem Caught.mark (hi : Caught cfg spec late s) {live : List Nat} (hphase : s.phase = .searched live) :
    Caught cfg spec late
      { s with raw := reconcile s.now live s.raw, lastReconciled := some s.now, phase := .idle } := by
  have hprogress := hi.progress
  rw [Progress, hphase] at hprogress
  refine ⟨hi.ids, hi.clock, fun r hr hdomain => ?_, trivial⟩
  rcases hi.caught r hr hdomain with hcurrent | hreached
  · exact (hprogress r hr hdomain).imp_left fun hlive => reconcile_current hlive hcurrent
  · exact .inr hreached

theorem Caught.tick (hi : Caught cfg spec late s) (elapsed : Nat) :
    Caught cfg spec late { s with now := s.now + elapsed } := by
  refine ⟨hi.ids, hi.clock.mono (Nat.le_add_right _ _), hi.caught, ?_⟩
  have hprogress := hi.progress
  unfold Progress at hprogress ⊢
  dsimp only
  cases hphase : s.phase with
  | idle | due => trivial
  | paging startedAt full since byId offset =>
    simp only [hphase] at hprogress ⊢
    exact ⟨hprogress.1.trans (Nat.le_add_right _ _), hprogress.2⟩
  | extracted startedAt full records =>
    simp only [hphase] at hprogress ⊢
    exact ⟨hprogress.1.trans (Nat.le_add_right _ _), hprogress.2⟩
  | searched live =>
    simp only [hphase] at hprogress ⊢
    exact hprogress

/-- **Nothing falls out of reach**: every step that meets the conditions keeps the
invariant. -/
theorem Caught.step {a : Action V} (hi : Caught cfg spec late s) (hok : Ok cfg spec late s a)
    (h : Extraction.step cfg spec s a = some t) : Caught cfg spec late t := by
  cases a with
  | tick elapsed =>
    cases h
    exact hi.tick elapsed
  | write id values writeDate =>
    cases h
    refine hi.change id (some ⟨id, writeDate, values⟩) (fun r hr => ?_) (fun r hr => ?_) hok.2
    · obtain rfl := Option.some.inj hr
      rfl
    · obtain rfl := Option.some.inj hr
      exact hok.1
  | delete id =>
    cases h
    have hchange := hi.change id none (fun r hr => by cases hr) (fun r hr => by cases hr) hok
    rwa [Extraction.change, Option.toList_none, List.append_nil] at hchange
  | begin fullRefresh =>
    simp only [Extraction.step] at h
    split at h
    · cases h
      exact hi.begin fullRefresh
    · cases h
  | page =>
    simp only [Extraction.step] at h
    split at h
    · next hphase =>
      cases h
      exact hi.page hphase
    · cases h
  | load =>
    simp only [Extraction.step] at h
    split at h
    · next hphase =>
      cases h
      exact hi.load hphase hok
    · cases h
  | search =>
    simp only [Extraction.step] at h
    split at h
    · cases h
      exact hi.search
    · cases h
  | mark =>
    simp only [Extraction.step] at h
    split at h
    · next hphase =>
      cases h
      exact hi.mark hphase
    · cases h
  | fail =>
    cases h
    exact ⟨hi.ids, hi.clock, hi.caught, trivial⟩

theorem nothing_caught {now : Nat} {odoo : List (Record V)} (hn : (odoo.map Record.id).Nodup) :
    Caught cfg spec late (nothing now odoo : State V W) :=
  ⟨hn, fun best hbest => (by cases hbest), fun r _ _ => .inr fun best hbest => (by cases hbest), trivial⟩

end SalesDashboard.Extraction
