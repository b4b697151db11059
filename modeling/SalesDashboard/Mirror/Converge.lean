import SalesDashboard.Mirror.SyncSteps

/-! Convergence of parents and children. Changes of Odoo keep the invariant as well, where
they meet `Keeps`; in a run without them nothing is late, and what it leaves is Odoo's. -/

namespace SalesDashboard.Mirror.Children
open Transition

variable {V : Type}

section
variable {cfg : Settings} {quiet : Prop} {st : State V} {run : SyncRun V}

/-! ## Changes of Odoo -/

section
variable {rows : Rows V} {w : Nat}

/-- A record that Odoo has after its transaction is unchanged, or stamped now. -/
theorem OdooChange.cases (h : OdooChange cfg st rows w) {k : Dataset × Nat} {r : Rec V}
    (hr : stored k rows = some r) : stored k st.odoo = some r ∨ r.writeDate = w ∧
      (∀ old, stored k st.odoo = some old → old.writeDate < w) ∧
      (stored k st.odoo = none → k ∉ st.used) := by
  refine (h.moved _ (mem_of_stored hr)).imp_right fun hmoved => ⟨hmoved.1, ?_, ?_⟩
  · intro old hold
    have hlt := hmoved.2
    rw [hold] at hlt
    exact hlt
  · intro hnone
    have hfresh := hmoved.2
    rw [hnone] at hfresh
    exact hfresh

/-- Odoo after the transaction. -/
def State.changed (st : State V) (rows : Rows V) : State V :=
  { st with odoo := rows, used := st.used ++ rows.map (·.1) }

theorem OdooInv.change (h : OdooChange cfg st rows w) : OdooInv (st.changed rows) where
  keyed := h.keyed
  used _ _ hr := List.mem_append_right _ (List.mem_map.mpr ⟨_, mem_of_stored hr, rfl⟩)
  positive _ _ hr := h.positive _ (mem_of_stored hr)
  linked c hc _ _ hr p hp := h.linked _ (mem_of_stored hr) c hc rfl p hp

theorem Sound.change {table : Rows V} (h : OdooChange cfg st rows w) (hs : Sound st table) :
    Sound (st.changed rows) table where
  keyed := hs.keyed
  used k r hr := List.mem_append_left _ (hs.used k r hr)
  older k r r' hr hr' := by
    rcases h.cases hr' with hsame | ⟨hstamp, hold, hnew⟩
    · exact hs.older k r r' hr hsame
    · cases ho : stored k st.odoo with
      | none => exact absurd (hs.used k r hr) (hnew ho)
      | some old =>
        have := hs.older k r old hr ho
        have := hold old ho
        omega

/-- A parent that is stamped differs from every earlier version of it. -/
theorem Sound.differs {table : Rows V} (h : OdooChange cfg st rows w) (hs : Sound st table)
    {k : Dataset × Nat} {r : Rec V} (hr : stored k rows = some r) (hmoved : stored k st.odoo ≠ some r) :
    stored k table ≠ stored k rows := by
  intro heq
  rw [hr] at heq
  obtain ⟨hstamp, hold, hnew⟩ := (h.cases hr).resolve_left hmoved
  cases ho : stored k st.odoo with
  | none => exact hnew ho (hs.used k r heq)
  | some old =>
    have := hs.older k r old heq ho
    have := hold old ho
    omega

theorem Watched.change {v : View V} (h : OdooChange cfg st rows w) (hs : Sound st v.rows)
    (hw : Watched st v)
    (hk : ∀ r ∈ v.rows, ∀ c ∈ CHILDREN, r.1.1 = dataset c.child → stored r.1 rows = none →
      (stored r.1 st.odoo ≠ none ∨ ∃ p ∈ r.2.parent, stored (dataset c.parent, p) rows = none) →
        Covered rows v c r.1.2 r.2) : Watched (st.changed rows) v := by
  intro c hc id r hrow hgone
  have hgone : stored (dataset c.child, id) rows = none := hgone
  show Covered rows v c id r
  by_cases hremoved : stored (dataset c.child, id) st.odoo ≠ none ∨
      ∃ p ∈ r.parent, stored (dataset c.parent, p) rows = none
  · exact hk _ (mem_of_stored hrow) c hc rfl hgone hremoved
  · rw [not_or, not_not] at hremoved
    obtain ⟨p, hp, hdue | howed⟩ := hw c hc id r hrow hremoved.1
    · refine ⟨p, hp, .inl ?_⟩
      obtain ⟨parent, hparent⟩ := Option.ne_none_iff_exists'.mp fun hnone =>
        hremoved.2 ⟨p, hp, hnone⟩
      by_cases hmoved : stored (dataset c.parent, p) st.odoo = some parent
      · rw [hparent, ← hmoved]
        exact hdue
      · exact hs.differs h hparent hmoved
    · exact ⟨p, hp, .inr howed⟩

/-- What Odoo stamps now is late for every time up to now. -/
theorem OdooChange.late (h : OdooChange cfg st rows w) (hq : ¬ quiet) {t : Nat} (ht : t ≤ st.clock)
    {k : Dataset × Nat} {r : Rec V} (hr : stored k rows = some r) :
    stored k st.odoo = some r ∨ Late cfg quiet t r := by
  refine (h.cases hr).imp_right fun hmoved => ⟨hq, ?_⟩
  rw [hmoved.1]
  exact Nat.le_trans ht h.visible

theorem Synced.change {t : Nat} {ds : Dataset} {table : Rows V} (h : OdooChange cfg st rows w)
    (hq : ¬ quiet) (ht : t ≤ st.clock) (hs : Synced cfg quiet t st ds table) :
    Synced cfg quiet t (st.changed rows) ds table := fun id r hr =>
  (h.late hq ht hr).elim (hs id r) .inr

theorem RulesTx.change (h : OdooChange cfg st rows w) (hq : ¬ quiet)
    (hclock : ∀ ds t, stored ds st.watermarks = some t → t ≤ st.clock)
    (ht : RulesTx cfg quiet st run) : RulesTx cfg quiet (st.changed rows) run where
  synced ds t hw := (ht.synced ds t hw).change h hq (hclock ds t hw)
  exact_ hq' := absurd hq' hq
  empty := ht.empty
  parents := ht.parents

theorem PhaseInv.change (h : OdooChange cfg st rows w) (hq : ¬ quiet)
    (hclock : ∀ ds t, stored ds st.watermarks = some t → t ≤ st.clock)
    (hp : PhaseInv cfg quiet st run) : PhaseInv cfg quiet (st.changed rows) run := by
  unfold PhaseInv at hp ⊢
  cases hphase : run.phase with
  | specs todo =>
    rw [hphase] at hp
    exact hp
  | page spec todo started last =>
    rw [hphase] at hp
    obtain ⟨⟨hframe, hstarted⟩, hread, -⟩ := hp
    exact ⟨⟨hframe, hstarted⟩, fun id r hr hwant =>
      (h.late hq hstarted hr).elim (fun hold => hread id r hold hwant) .inr, fun hq' => absurd hq' hq⟩
  | ids spec todo started =>
    rw [hphase] at hp
    obtain ⟨⟨hframe, hstarted⟩, hsync⟩ := hp
    exact ⟨⟨hframe, hstarted⟩, hsync.change h hq hstarted⟩
  | missing spec todo started ids =>
    rw [hphase] at hp
    obtain ⟨⟨hframe, hstarted⟩, hsync, -⟩ := hp
    exact ⟨⟨hframe, hstarted⟩, hsync.change h hq hstarted, fun hq' => absurd hq' hq⟩
  | search c links live odoo =>
    rw [hphase] at hp
    obtain ⟨htx, hc, hlinks, hfound⟩ := hp
    refine ⟨htx.change h hq hclock, hc, hlinks, fun id r hr p hpr hch hgone hlive => ?_⟩
    rcases h.cases hr with hold | hmoved
    · exact hfound id r hold p hpr hch hgone hlive
    · refine .inr fun t ht => ⟨hq, ?_⟩
      rw [hmoved.1]
      exact Nat.le_trans (hclock _ t ht) h.visible
  | unseen c links ids =>
    rw [hphase] at hp
    exact ⟨hp.1.change h hq hclock, hp.2⟩
  | orphans c links ids =>
    rw [hphase] at hp
    exact ⟨hp.1.change h hq hclock, hp.2⟩
  | rest =>
    rw [hphase] at hp
    exact hp.change h hq hclock
  | names =>
    rw [hphase] at hp
    exact hp

theorem Inv.change (hi : Inv cfg quiet st) (hq : ¬ quiet) (h : OdooChange cfg st rows w)
    (hk : ∀ v ∈ views st, ∀ r ∈ v.rows, ∀ c ∈ CHILDREN, r.1.1 = dataset c.child →
      stored r.1 rows = none →
      (stored r.1 st.odoo ≠ none ∨ ∃ p ∈ r.2.parent, stored (dataset c.parent, p) rows = none) →
        Covered rows v c r.1.2 r.2) : Inv cfg quiet (st.changed rows) := by
  refine ⟨.change h, hi.clock, hi.tracked, hi.sound.change h, ?_, hi.empty, ?_,
    fun hq' => absurd hq' hq, fun run hrun => ?_⟩
  · exact Watched.change h hi.sound hi.watched (hk _ List.mem_cons_self)
  · exact fun ds t ht => (hi.synced ds t ht).change h (fun hq' => hq hq'.1) (hi.clock ds t ht)
  · have hr := hi.run run hrun
    have hrun : st.run = some run := hrun
    refine ⟨hr.sound.change h, ?_, fun k hk => ⟨?_, ?_⟩, hr.todo, hr.filled,
      hr.phase.change h hq hi.clock⟩
    · refine Watched.change (v := workView st run) h hr.sound hr.watched (hk _ ?_)
      unfold views
      rw [hrun]
      exact List.mem_cons_of_mem _ (List.mem_singleton_self _)
    · exact List.mem_append_left _ (hr.gone k hk).1
    · show stored k rows = none
      by_contra hne
      obtain ⟨r, hr'⟩ := Option.ne_none_iff_exists'.mp hne
      obtain ⟨hused, hnone⟩ := hr.gone k hk
      rcases h.cases hr' with hold | ⟨-, -, hnew⟩
      · rw [hnone] at hold
        cases hold
      · exact hnew hnone hused

end

theorem Inv.tick (hi : Inv cfg quiet st) (seconds : Nat) :
    Inv cfg quiet { st with clock := st.clock + seconds } := by
  refine ⟨⟨hi.odoo.keyed, hi.odoo.used, hi.odoo.positive, hi.odoo.linked⟩,
    fun ds t ht => Nat.le_trans (hi.clock ds t ht) (Nat.le_add_right _ _), hi.tracked,
    ⟨hi.sound.keyed, hi.sound.used, hi.sound.older⟩, hi.watched, hi.empty, hi.synced, hi.exact_,
    fun run hrun => ?_⟩
  have hr := hi.run run hrun
  refine ⟨⟨hr.sound.keyed, hr.sound.used, hr.sound.older⟩, hr.watched, hr.gone, hr.todo, hr.filled, ?_⟩
  have hp := hr.phase
  unfold PhaseInv at hp ⊢
  have hspec : ∀ {spec started}, SpecTx cfg st run spec started →
      SpecTx cfg { st with clock := st.clock + seconds } run spec started :=
    fun h => ⟨h.frame, Nat.le_trans h.started (Nat.le_add_right _ _)⟩
  have hrules : RulesTx cfg quiet st run →
      RulesTx cfg quiet { st with clock := st.clock + seconds } run :=
    fun h => ⟨h.synced, h.exact_, h.empty, h.parents⟩
  cases hphase : run.phase with
  | specs | names =>
    rw [hphase] at hp
    exact hp
  | page | ids | missing =>
    rw [hphase] at hp
    exact ⟨hspec hp.1, hp.2⟩
  | search | unseen | orphans =>
    rw [hphase] at hp
    exact ⟨hrules hp.1, hp.2⟩
  | rest =>
    rw [hphase] at hp
    exact hrules hp

/-! ## Runs -/

variable [DecidableEq V]

theorem Inv.runStep (hi : Inv cfg quiet st) (hrun : st.run = some run) {a : Action V}
    {st' : State V} (hk : Keeps st a) (h : Children.runStep cfg st run a = some st') :
    Inv cfg quiet st' := by
  cases a with
  | tick | odoo | start | raise => cases h
  | begin =>
    simp only [Children.runStep] at h
    split at h
    · next hphase =>
      cases h
      exact hi.begin hrun hphase
    · cases h
  | page =>
    have hpage := h
    simp only [Children.runStep] at h
    split at h
    · next hphase => exact hi.page hrun hphase hpage
    · cases h
  | searchIds => exact hi.searchIds hrun h
  | readIds => exact hi.readIds hrun h
  | rules =>
    simp only [Children.runStep] at h
    split at h
    · next hphase =>
      cases h
      exact hi.rules hrun hphase
    · cases h
  | search =>
    simp only [Children.runStep] at h
    split at h
    · next hphase =>
      cases h
      exact hi.search hrun hphase
    · cases h
  | recheck => exact hi.recheck hrun h
  | next =>
    simp only [Children.runStep] at h
    split at h
    · next hphase =>
      cases h
      exact hi.nextLink hrun hphase
    · next hphase =>
      cases h
      exact hi.nextOrphans hrun hphase
    · cases h
  | commit =>
    simp only [Children.runStep] at h
    split at h
    · next hphase =>
      cases h
      exact hi.commitSpec hrun hphase
    · next hphase =>
      cases h
      exact hi.commitRules hrun hphase (hk run hrun hphase)
    · cases h
  | complete =>
    simp only [Children.runStep] at h
    split at h
    · next hphase =>
      cases h
      refine hi.stop fun c _ id r _ _ p _ howed => ?_
      simp [mirrorView, hrun, hphase] at howed
    · cases h

theorem Inv.step (hi : Inv cfg quiet st) {a : Action V} (ha : quiet → a.quiet = true)
    {st' : State V} (hk : Keeps st a) (h : step cfg st a = some st') : Inv cfg quiet st' := by
  cases a with
  | tick seconds =>
    cases h
    exact hi.tick seconds
  | odoo rows w =>
    simp only [Children.step] at h
    split at h
    · next hchange =>
      cases h
      exact hi.change (fun hq => by cases ha hq) hchange hk
    · cases h
  | start =>
    simp only [Children.step] at h
    split at h
    · next hrun =>
      cases h
      exact hi.start hrun
    · cases h
  | raise =>
    simp only [Children.step] at h
    split at h
    · next run hrun =>
      cases h
      refine hi.stop fun c hc id r hrow hgone p hp howed => ?_
      simp only [mirrorView, hrun, decide_eq_true_eq] at howed
      exact hk run hrun howed.1 _ (mem_of_stored hrow) c hc rfl hgone p hp howed.2
    · cases h
  | begin | page | searchIds | readIds | rules | search | recheck | next | commit | complete =>
    simp only [Children.step] at h
    cases hrun : st.run with
    | none =>
      rw [hrun] at h
      cases h
    | some run =>
      rw [hrun] at h
      exact hi.runStep hrun hk h

omit [DecidableEq V] in
/-- From here on Odoo does not change. -/
theorem Inv.quieten (hi : Inv cfg False st) (hrun : st.run = none) : Inv cfg True st where
  odoo := hi.odoo
  clock := hi.clock
  tracked := hi.tracked
  sound := hi.sound
  watched := hi.watched
  empty := hi.empty
  synced ds t ht id r hr := (hi.synced ds t ht id r hr).imp_right fun hlate =>
    ⟨fun hq => by rw [Done, hrun] at hq; exact hq.2, hlate.2⟩
  exact_ _ c _ hd := by
    rw [Done, hrun] at hd
    exact hd.elim
  run run h := by
    rw [hrun] at h
    cases h

omit [DecidableEq V] in
/-- A quiet run that has done everything leaves Odoo's children. -/
theorem Inv.converged (hi : Inv cfg True st) (hrun : st.run = some run)
    (hphase : run.phase = .names) : Converged st := by
  have hr := hi.run run hrun
  have hfilled := hr.filled
  rw [hphase] at hfilled
  have hdone : ∀ ds, Done st ds := by
    intro ds
    unfold Done
    rw [hrun]
    show ∀ s ∈ run.phase.todo, dataset s.model ≠ ds
    rw [hphase]
    exact fun _ h => by cases h
  have hsync : ∀ s ∈ specs, ∀ id r, stored (dataset s.model, id) st.odoo = some r →
      stored (dataset s.model, id) st.mirror = some r := by
    intro s hs id r hodoo
    obtain ⟨t, ht⟩ := Option.ne_none_iff_exists'.mp
      ((hfilled s hs).resolve_left fun h => by cases h)
    exact (hi.synced _ t ht id r hodoo).resolve_right fun hlate => hlate.1 ⟨trivial, hdone _⟩
  intro c hc
  obtain ⟨sc, hsc, hchild⟩ := child_spec c hc
  obtain ⟨sp, hsp, hparent⟩ := parent_spec c hc
  have hchildren := hsync sc hsc
  have hparents := hsync sp hsp
  rw [hchild] at hchildren
  rw [hparent] at hparents
  -- a parent is mirrored as Odoo has it, so that no removed child is left
  have hsame : ∀ p, stored (dataset c.parent, p) st.mirror = stored (dataset c.parent, p) st.odoo := by
    intro p
    cases ho : stored (dataset c.parent, p) st.odoo with
    | some r => exact hparents p r ho
    | none =>
      by_contra hne
      exact hi.exact_ trivial c hc (hdone _) p hne ho
  have hlive : ∀ id r, stored (dataset c.child, id) st.mirror = some r →
      stored (dataset c.child, id) st.odoo ≠ none := by
    intro id r hrow hgone
    obtain ⟨p, -, hdue | howed⟩ := hi.watched c hc id r hrow hgone
    · exact hdue (hsame p)
    · simp [mirrorView, hrun, hphase] at howed
  constructor
  · intro id
    rw [mem_mirroredIds, mem_mirroredIds]
    constructor
    · intro hne
      obtain ⟨r, hr⟩ := Option.ne_none_iff_exists'.mp hne
      exact hlive id r hr
    · intro hne
      obtain ⟨r, hr⟩ := Option.ne_none_iff_exists'.mp hne
      rw [hchildren id r hr]
      simp
  · rintro ⟨⟨ds, id⟩, r⟩ hr hds p hp
    have hds : ds = dataset c.child := hds
    rw [hds] at hr
    have hrow := stored_of_mem hi.sound.keyed hr
    obtain ⟨r', hr'⟩ := Option.ne_none_iff_exists'.mp (hlive id r hrow)
    have heq := (hchildren id r' hr').symm.trans hrow
    rw [Option.some.inj heq] at hr'
    rw [mem_mirroredIds, hsame p]
    exact hi.odoo.linked c hc id r hr' p hp

end

/-- **Convergence of parents and children** along the steps that meet `Keeps`: a run that
starts after the last change of Odoo and completes leaves Odoo's children, each with its
parent. -/
theorem children_converge [DecidableEq V] {cfg : Settings} {st st' : State V} {as later : List (Action V)}
    (h₀ : Init st) (h : Run (step cfg) Keeps st (as ++ .start :: (later ++ [.complete])) st')
    (hquiet : ∀ a ∈ later, a.quiet = true) : Converged st' := by
  obtain ⟨s₁, hbefore, hrest⟩ := h.of_append
  have hinv : Inv cfg False s₁ := hbefore.invariant
    (fun _ _ _ hi hk hst => hi.step (fun hq => hq.elim) hk hst) h₀.inv
  cases hrest with
  | cons hk hstart hrest =>
    have hrun : s₁.run = none := by
      simp only [step] at hstart
      split at hstart
      · next hrun => exact hrun
      · cases hstart
    have hstarted := (hinv.quieten hrun).step (fun _ => rfl) hk hstart
    obtain ⟨s₂, hlater, hlast⟩ := hrest.of_append
    have hdone : Inv cfg True s₂ := (hlater.strengthen hquiet).invariant
      (fun _ _ _ hi hk hst => hi.step (fun _ => hk.2) hk.1 hst) hstarted
    cases hlast with
    | cons _ hst hnil =>
      cases hnil
      cases hrun₂ : s₂.run with
      | none =>
        simp only [step, hrun₂] at hst
        cases hst
      | some run =>
        simp only [step, hrun₂, runStep] at hst
        split at hst
        · next hphase =>
          cases hst
          exact hdone.converged hrun₂ hphase
        · cases hst

/-! ## Concrete runs -/

/-- One order with two lines. -/
def oneOrder : State Nat where
  clock := 100
  odoo := [((dataset "sale.order", 1), ⟨none, 50, 0⟩),
    ((dataset "sale.order.line", 1), ⟨some 1, 50, 0⟩),
    ((dataset "sale.order.line", 2), ⟨some 1, 50, 0⟩)]
  used := [(dataset "sale.order", 1), (dataset "sale.order.line", 1),
    (dataset "sale.order.line", 2)]
  mirror := []
  watermarks := []
  run := none

theorem oneOrder_init : Init oneOrder := by
  refine ⟨⟨by decide, fun k r h => ?_, fun k r h => ?_, fun c hc id r h p hp => ?_⟩, rfl, rfl, rfl⟩
  · have hrows : ∀ r ∈ oneOrder.odoo, r.1 ∈ oneOrder.used := by decide
    exact hrows _ (mem_of_stored h)
  · have hrows : ∀ r ∈ oneOrder.odoo, 0 < r.1.2 := by decide
    exact hrows _ (mem_of_stored h)
  · have hrows : ∀ r ∈ oneOrder.odoo, ∀ c ∈ CHILDREN, r.1.1 = dataset c.child →
        ∀ p ∈ r.2.parent, stored (dataset c.parent, p) oneOrder.odoo ≠ none := by decide
    exact hrows _ (mem_of_stored h) c hc rfl p hp

/-- The second line is removed, half a minute later. -/
def lineRemoved : List (Action Nat) :=
  [.tick 30, .odoo [((dataset "sale.order", 1), ⟨none, 130, 0⟩),
    ((dataset "sale.order.line", 1), ⟨some 1, 50, 0⟩)] 130]

/-- The rules, with the order searched or not, and the end of the run. -/
def rulesOf (searches : List (Action Nat)) : List (Action Nat) :=
  .rules :: searches ++ [.recheck, .next, .recheck, .next, .next, .next, .commit]

/-- The first run, which reads everything. -/
def firstFill : List (Action Nat) :=
  .start :: (List.replicate 4 [Action.begin, .page, .commit]).flatten ++ rulesOf [.search] ++
    [.complete]

/-- The transactions of the specs in a later run. -/
def laterSpecs : List (Action Nat) :=
  [.begin, .page, .searchIds, .commit, .begin, .page, .commit, .begin, .page, .searchIds, .commit,
    .begin, .page, .commit]

def settings : Settings := ⟨10, 2000⟩

/-- A line is removed, a run fails before it has committed anything, and the next one
completes. -/
theorem children_converge_lineRemoved : ∃ st',
    Run (step settings) Keeps oneOrder ((firstFill ++ lineRemoved ++ [.start, .begin, .page, .raise]) ++
      .start :: ((laterSpecs ++ rulesOf [.search]) ++ [.complete])) st' ∧ Converged st' := by
  have hsome : (exec (step settings) Keeps oneOrder
      ((firstFill ++ lineRemoved ++ [.start, .begin, .page, .raise]) ++
        .start :: ((laterSpecs ++ rulesOf [.search]) ++ [.complete]))).isSome = true := by
    decide +kernel
  obtain ⟨st', hst'⟩ := Option.isSome_iff_exists.mp hsome
  have hrun := (exec_eq_some _ _ _ _ _).mp hst'
  exact ⟨st', hrun, children_converge oneOrder_init hrun (by decide)⟩

/-- The run fails when the order is committed, and before the rules: the next one finds the
order unchanged, and the removed line stays. -/
theorem children_differ : ∃ st', Init oneOrder ∧
    FreeRun (step settings) oneOrder
      ((firstFill ++ lineRemoved ++ [.start, .begin, .page, .searchIds, .commit, .raise]) ++
        .start :: ((laterSpecs ++ rulesOf []) ++ [.complete])) st' ∧
    (∀ a ∈ laterSpecs ++ rulesOf [], a.quiet = true) ∧ ¬ Converged st' := by
  have hlast : (exec (step settings) (fun _ _ => True) oneOrder
      ((firstFill ++ lineRemoved ++ [.start, .begin, .page, .searchIds, .commit, .raise]) ++
        .start :: ((laterSpecs ++ rulesOf []) ++ [.complete]))).map (fun st =>
      (mirroredIds (dataset "sale.order.line") st.mirror,
        mirroredIds (dataset "sale.order.line") st.odoo)) = some ([1, 2], [1]) := by
    decide +kernel
  obtain ⟨st', hst', hst⟩ := Option.map_eq_some_iff.mp hlast
  rw [Prod.mk.injEq] at hst
  refine ⟨st', oneOrder_init, (exec_eq_some _ _ _ _ _).mp hst', by decide, fun hc => ?_⟩
  have hids := (hc ⟨"sale.order.line", "sale.order"⟩ (by decide)).1 2
  rw [hst.1, hst.2] at hids
  exact absurd (hids.mp (by decide)) (by decide)

end SalesDashboard.Mirror.Children
