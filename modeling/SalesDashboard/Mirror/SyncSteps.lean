import SalesDashboard.Mirror.Watched

/-! The steps of a run keep the invariant: each read brings rows that are Odoo's at that
moment, the id check and the re-check delete only what Odoo no longer has, and a commit
puts the rows of the transaction in the place of the mirror's. -/

namespace SalesDashboard.Mirror.Children

variable {V : Type} [DecidableEq V] {cfg : Settings} {quiet : Prop} {st : State V}
  {run run' : SyncRun V} {phase : Phase}

/-! ## The transactions of the specs -/

omit [DecidableEq V] in
theorem Sound.goOn {rows : Rows V} (h : Sound st rows) : Sound (st.goOn run phase) rows :=
  ⟨h.keyed, h.used, h.older⟩

omit [DecidableEq V] in
theorem OdooInv.goOn (h : OdooInv st) : OdooInv (st.goOn run phase) :=
  ⟨h.keyed, h.used, h.positive, h.linked⟩

omit [DecidableEq V] in
/-- The run goes on, with more parents to be re-checked and no commit. -/
theorem Inv.goOn (hi : Inv cfg quiet st) (hrun : st.run = some run)
    (htodo : phase.todo = run.phase.todo) (hnames : phase ≠ .names)
    (hch : ∀ k ∈ run.changed, k ∈ run'.changed)
    (hr : RunInv cfg quiet (st.goOn run' phase) { run' with phase := phase }) :
    Inv cfg quiet (st.goOn run' phase) := by
  have hdone : ∀ ds, Done (st.goOn run' phase) ds ↔ Done st ds := by
    intro ds
    unfold Done
    rw [hrun]
    show (∀ s ∈ phase.todo, dataset s.model ≠ ds) ↔ _
    rw [htodo]
  refine ⟨hi.odoo.goOn, hi.clock, hi.tracked, hi.sound.goOn, ?_, hi.empty, ?_, ?_, ?_⟩
  · have hw : Watched (st.goOn run' phase) (mirrorView st) := hi.watched
    refine hw.mono (fun c _ id r h _ => h) (fun c _ id r _ _ p _ howed => .inr ?_)
      fun c _ p id hne => absurd rfl hne
    unfold mirrorView at howed
    rw [hrun] at howed
    exact decide_eq_true ⟨hnames, hch _ (of_decide_eq_true howed).2⟩
  · intro ds t ht id r hr
    refine (hi.synced ds t ht id r hr).imp_right fun hlate => ⟨fun hq => hlate.1 ?_, hlate.2⟩
    exact ⟨hq.1, (hdone ds).mp hq.2⟩
  · exact fun hq c hc hd => hi.exact_ hq c hc ((hdone _).mp hd)
  · rintro run'' h
    cases h
    exact hr

theorem watched_upsert {model : String} {reads : List (Nat × Rec V)}
    (hw : Watched st (workView st run)) (hcur : Current st.odoo (dataset model) reads)
    (hre : ∀ c ∈ CHILDREN, ∀ id, run.phase.rechecks c id = true → phase.rechecks c id = true)
    (hrp : run.phase.readsParents = true → phase.readsParents = true)
    (hnew : ∀ c ∈ CHILDREN, dataset c.parent = dataset model →
      ∀ p ∈ (Mirror.upsert (dataset model) reads run.work).2, ∀ id,
        (workView st { run.upsert model reads with phase := phase }).owed c p id = true) :
    Watched st (workView st { run.upsert model reads with phase := phase }) := by
  refine hw.mono (fun c hc id r hr hgone => ?_) (fun c hc id r hr hgone p hp howed => .inr ?_)
    fun c hc p id hne => ?_
  · rcases stored_of_upsert hcur hr with hnow | hold
    · rw [hgone] at hnow
      cases hnow
    · exact hold
  · simp only [workView, Bool.or_eq_true, Bool.and_eq_true, decide_eq_true_eq] at howed ⊢
    rcases howed with ⟨h₁, h₂⟩ | ⟨⟨h₁, h₂⟩, h₃⟩
    · exact .inl ⟨hre c hc id h₁, List.mem_append_left _ h₂⟩
    · refine .inr ⟨⟨hrp h₁, h₂⟩, ?_⟩
      rw [← Option.ne_none_iff_isSome] at h₃ ⊢
      exact stored_upsert_isSome h₃
  · obtain ⟨hds, hmem⟩ := mem_changed hne
    exact hnew c hc hds p hmem id

/-- A read in the transaction of a spec. -/
theorem SpecTx.watched {model : String} {reads : List (Nat × Rec V)}
    (hw : Watched st (workView st run)) (hcur : Current st.odoo (dataset model) reads)
    (hre : ∀ c id, phase.rechecks c id = true) (hrp : run.phase.readsParents = false) :
    Watched st (workView st { run.upsert model reads with phase := phase }) := by
  refine watched_upsert hw hcur (fun c _ id _ => hre c id) (fun h => ?_) fun c _ hds p hp id => ?_
  · rw [hrp] at h
    cases h
  · simp only [workView, Bool.or_eq_true, Bool.and_eq_true, decide_eq_true_eq]
    exact .inl ⟨hre c id, List.mem_append_right _ (mem_keysOf.mpr ⟨hds, hp⟩)⟩

theorem SpecTx.upsert {spec : MirrorSpec} {started : Nat} {reads : List (Nat × Rec V)}
    (h : SpecTx cfg st run spec started) :
    SpecTx cfg (st.goOn (run.upsert spec.model reads) phase)
      { run.upsert spec.model reads with phase := phase } spec started where
  frame k hk := by
    show stored k (Mirror.upsert (dataset spec.model) reads run.work).1 = _
    rw [stored_upsert, if_neg hk]
    exact h.frame k hk
  started := h.started

omit [DecidableEq V] in
/-- A change of the phase alone. -/
theorem watched_phase (hw : Watched st (workView st run))
    (hre : ∀ c ∈ CHILDREN, ∀ id, stored (dataset c.child, id) st.odoo = none →
      run.phase.rechecks c id = true → phase.rechecks c id = true)
    (hrp : run.phase.readsParents = true → phase.readsParents = true) :
    Watched st (workView st { run with phase := phase }) := by
  refine hw.mono (fun c _ id r h _ => h) (fun c hc id r _ hgone p _ howed => .inr ?_)
    fun c _ p id hne => absurd rfl hne
  simp only [workView, Bool.or_eq_true, Bool.and_eq_true, decide_eq_true_eq] at howed ⊢
  rcases howed with ⟨h₁, h₂⟩ | ⟨⟨h₁, h₂⟩, h₃⟩
  · exact .inl ⟨hre c hc id hgone h₁, h₂⟩
  · exact .inr ⟨⟨hrp h₁, h₂⟩, h₃⟩

omit [DecidableEq V] in
theorem Inv.begin (hi : Inv cfg quiet st) (hrun : st.run = some run) {spec : MirrorSpec}
    {todo : List MirrorSpec} (hphase : run.phase = .specs (spec :: todo)) :
    Inv cfg quiet (st.goOn { run with work := st.mirror } (.page spec todo st.clock 0)) := by
  have hr := hi.run run hrun
  have hwork : run.work = st.mirror := by
    have hp := hr.phase
    rw [PhaseInv, hphase] at hp
    exact hp
  have hsame : { run with work := st.mirror } = run := by rw [← hwork]
  have htodo := hr.todo
  have hfilled := hr.filled
  rw [hphase] at htodo hfilled
  rw [hsame]
  refine hi.goOn hrun (by rw [hphase]; rfl) (by simp) (fun k hk => hk) ⟨hr.sound.goOn, ?_, hr.gone,
    htodo, hfilled, ⟨⟨fun k _ => ?_, Nat.le_refl _⟩, fun id r hodoo hwant => ?_,
      fun _ hw id hne => ?_⟩⟩
  · exact watched_phase hr.watched (fun _ _ _ _ _ => rfl) (by rw [hphase]; exact fun h => h)
  · show stored k run.work = stored k st.mirror
    rw [hwork]
  · -- what the read does not ask for is stored already
    show stored _ run.work = _ ∨ _
    rw [hwork]
    have hnot : ¬ Wanted cfg (stored (dataset spec.model) st.watermarks) r := fun hwant' =>
      absurd (hwant hwant') (Nat.not_le_of_lt (hi.odoo.positive _ _ hodoo))
    obtain ⟨t, ht⟩ : ∃ t, stored (dataset spec.model) st.watermarks = some t := by
      rw [← Option.ne_none_iff_exists']
      intro hnone
      rw [hnone] at hnot
      exact hnot fun t ht => by cases ht
    refine (hi.synced _ t ht id r hodoo).imp_right fun hlate => ?_
    refine absurd (fun t' ht' => ?_) hnot
    rw [ht] at ht'
    cases ht'
    have := hlate.2
    show t - cfg.overlap ≤ r.writeDate
    omega
  · have hne : stored _ run.work ≠ none := hne
    rw [hwork] at hne
    exact absurd (hi.empty _ hw id) hne

/-- A read in the transaction of a spec. -/
theorem Inv.specRead (hi : Inv cfg quiet st) (hrun : st.run = some run) {spec : MirrorSpec}
    {reads : List (Nat × Rec V)} (hcur : Current st.odoo (dataset spec.model) reads)
    (htodo : phase.todo = run.phase.todo) (hre : ∀ c id, phase.rechecks c id = true)
    (hrp : run.phase.readsParents = false)
    (hphase : PhaseInv cfg quiet (st.goOn (run.upsert spec.model reads) phase)
      { run.upsert spec.model reads with phase := phase }) :
    Inv cfg quiet (st.goOn (run.upsert spec.model reads) phase) := by
  have hr := hi.run run hrun
  have hnames : phase ≠ .names := fun h => by
    have := hre ⟨"", ""⟩ 0
    rw [h] at this
    cases this
  refine hi.goOn hrun htodo hnames (fun k hk => List.mem_append_left _ hk)
    ⟨(hr.sound.upsert hi.odoo hcur).goOn, SpecTx.watched hr.watched hcur hre hrp, hr.gone, ?_, ?_,
      hphase⟩
  · show ∀ s ∈ phase.todo, s ∈ specs
    rw [htodo]
    exact hr.todo
  · show ∀ s ∈ specs, s ∈ phase.todo ∨ _
    rw [htodo]
    exact hr.filled

/-- What a page adds to the records read so far. -/
theorem page_stored (hi : Inv cfg quiet st) (hrun : st.run = some run) {spec : MirrorSpec}
    {todo : List MirrorSpec} {started last : Nat} (hphase : run.phase = .page spec todo started last)
    {id : Nat} {r : Rec V} (hodoo : stored (dataset spec.model, id) st.odoo = some r)
    (hread : Wanted cfg (stored (dataset spec.model) st.watermarks) r → last < id →
      (id, r) ∈ readPage cfg (dataset spec.model) (stored (dataset spec.model) st.watermarks) last
        st.odoo) :
    stored (dataset spec.model, id) (run.upsert spec.model (readPage cfg (dataset spec.model)
      (stored (dataset spec.model) st.watermarks) last st.odoo)).work = some r ∨
      Late cfg quiet started r := by
  have hp := (hi.run run hrun).phase
  rw [PhaseInv, hphase] at hp
  have hcur := current_readPage cfg (dataset spec.model) (stored (dataset spec.model) st.watermarks) last
    hi.odoo.keyed
  by_cases hnew : Wanted cfg (stored (dataset spec.model) st.watermarks) r ∧ last < id
  · exact .inl (stored_upsert_current hcur hodoo (.inr ⟨rfl, hread hnew.1 hnew.2⟩))
  · have hold := hp.2.1 id r hodoo fun hw => Nat.le_of_not_lt fun hlt => hnew ⟨hw, hlt⟩
    exact hold.imp_left fun h => stored_upsert_current hcur hodoo (.inl h)

theorem Inv.page (hi : Inv cfg quiet st) (hrun : st.run = some run) {spec : MirrorSpec}
    {todo : List MirrorSpec} {started last : Nat} (hphase : run.phase = .page spec todo started last)
    {st' : State V} (h : runStep cfg st run .page = some st') : Inv cfg quiet st' := by
  have hr := hi.run run hrun
  have hp := hr.phase
  rw [PhaseInv, hphase] at hp
  obtain ⟨htx, -, hexact⟩ := hp
  have hcur := current_readPage cfg (dataset spec.model) (stored (dataset spec.model) st.watermarks) last
    hi.odoo.keyed
  have hrp : run.phase.readsParents = false := by rw [hphase]; rfl
  have htodo : run.phase.todo = spec :: todo := by rw [hphase]; rfl
  simp only [runStep, hphase] at h
  set reads := readPage cfg (dataset spec.model) (stored (dataset spec.model) st.watermarks) last
    st.odoo with hreads
  have hempty : quiet → stored (dataset spec.model) st.watermarks = none →
      Exact st (dataset spec.model) (run.upsert spec.model reads).work := fun hq hw =>
    (hexact hq hw).upsert hcur
  split at h
  · next hshort =>
    have hall : Synced cfg quiet started st (dataset spec.model)
        (run.upsert spec.model reads).work := fun id r hodoo =>
      page_stored hi hrun hphase hodoo fun hw hlt =>
        Paging.keysetPage_short hshort ((mem_matching hi.odoo.keyed).mpr ⟨hodoo, hw⟩) hlt
    split at h
    · cases h
      exact hi.specRead hrun hcur (by rw [htodo]; rfl) (fun _ _ => rfl) hrp ⟨htx.upsert, hall⟩
    · next hcheck =>
      cases h
      refine hi.specRead hrun hcur (by rw [htodo]; rfl) (fun _ _ => rfl) hrp
        ⟨htx.upsert, hall, fun hq hid => hempty hq ?_⟩
      rw [hid, Bool.and_true, Bool.not_eq_true, Option.isSome_eq_false_iff,
        Option.isNone_iff_eq_none] at hcheck
      exact hcheck
  · split at h
    · next r hlast =>
      cases h
      refine hi.specRead hrun hcur (by rw [htodo]; rfl) (fun _ _ => rfl) hrp
        ⟨htx.upsert, fun id r' hodoo hwant => ?_, hempty⟩
      refine page_stored hi hrun hphase hodoo fun hw hlt => ?_
      exact Paging.keysetPage_upTo hlast (matching_inj hi.odoo.keyed)
        ((mem_matching hi.odoo.keyed).mpr ⟨hodoo, hw⟩) hlt (hwant hw)
    · cases h

theorem Inv.searchIds (hi : Inv cfg quiet st) (hrun : st.run = some run) {st' : State V}
    (h : runStep cfg st run .searchIds = some st') : Inv cfg quiet st' := by
  have hr := hi.run run hrun
  simp only [runStep] at h
  split at h
  · next spec todo started hphase =>
    have hp := hr.phase
    rw [PhaseInv, hphase] at hp
    obtain ⟨htx, hsync⟩ := hp
    set ds := dataset spec.model with hds
    set ids := (mirroredIds ds run.work).filter (· ∉ mirroredIds ds st.odoo) with hids
    have habsent : ∀ id ∈ ids, stored (ds, id) st.odoo = none := by
      intro id hid
      by_contra hne
      exact of_decide_eq_true (List.mem_filter.mp hid).2 (mem_mirroredIds.mpr hne)
    have hmirrored : ∀ id ∈ ids, (ds, id) ∈ st.used := by
      intro id hid
      obtain ⟨r, hr'⟩ := Option.ne_none_iff_exists'.mp
        (mem_mirroredIds.mp (List.mem_filter.mp hid).1)
      exact hr.sound.used _ _ hr'
    have htodo := hr.todo
    have hfilled := hr.filled
    rw [hphase] at htodo hfilled
    cases h
    refine hi.goOn hrun (by rw [hphase]; rfl) (by simp) (fun k hk => List.mem_append_left _ hk)
      ⟨(hr.sound.delete ds ids).goOn, ?_, ?_, htodo, hfilled, ⟨⟨fun k hk => ?_, htx.started⟩,
        fun id r hodoo => ?_, fun _ _ id hne => ?_⟩⟩
    · refine Watched.mono (v := workView st run) hr.watched
        (fun c _ id r h _ => (stored_of_delete h).1)
        (fun c _ id r _ _ p _ howed => .inr ?_) fun c _ p id hne => ?_
      · simp only [workView, hphase, Phase.rechecks, Phase.readsParents, Bool.true_and,
          Bool.false_and, Bool.or_false, decide_eq_true_eq] at howed
        simp only [workView, Phase.rechecks, Bool.true_and, Bool.or_eq_true, decide_eq_true_eq]
        exact .inl (List.mem_append_left _ howed)
      · have hne : stored (dataset c.parent, p) (delete ds ids run.work).1 ≠
            stored (dataset c.parent, p) run.work := hne
        rw [stored_delete] at hne
        simp only [workView, Phase.rechecks, Bool.true_and, Bool.or_eq_true, decide_eq_true_eq]
        refine .inl (List.mem_append_right _ (mem_keysOf.mpr ?_))
        by_contra hnot
        exact hne (if_neg hnot)
    · intro k hk
      rcases List.mem_append.mp hk with hk | hk
      · exact hr.gone k hk
      · obtain ⟨hk, hid⟩ := mem_keysOf.mp hk
        obtain ⟨ds', id⟩ := k
        have hk : ds' = ds := hk
        rw [hk]
        exact ⟨hmirrored id hid, habsent id hid⟩
    · show stored k (delete ds ids run.work).1 = _
      rw [stored_delete, if_neg fun h => hk h.1]
      exact htx.frame k hk
    · have hodoo : stored (ds, id) st.odoo = some r := hodoo
      refine (hsync id r hodoo).imp_left fun hold => ?_
      show stored (ds, id) (delete ds ids run.work).1 = _
      rw [stored_delete, if_neg fun h => ?_]
      · exact hold
      · have := habsent id h.2
        rw [hodoo] at this
        cases this
    · obtain ⟨r, hr'⟩ := Option.ne_none_iff_exists'.mp hne
      obtain ⟨hold, hnot⟩ := stored_of_delete hr'
      intro hnone
      refine hnot ⟨rfl, List.mem_filter.mpr ⟨mem_mirroredIds.mpr (by rw [hold]; simp), ?_⟩⟩
      exact decide_eq_true fun hmem => mem_mirroredIds.mp hmem hnone
  · cases h

omit [DecidableEq V] in
theorem Inv.commitSpec (hi : Inv cfg quiet st) (hrun : st.run = some run) {spec : MirrorSpec}
    {todo : List MirrorSpec} {started : Nat} (hphase : run.phase = .missing spec todo started []) :
    Inv cfg quiet { st.goOn run (.specs todo) with
      mirror := run.work
      watermarks := write st.watermarks (dataset spec.model, started) } := by
  have hr := hi.run run hrun
  have hp := hr.phase
  rw [PhaseInv, hphase] at hp
  obtain ⟨htx, hsync, hexact⟩ := hp
  have htodo := hr.todo
  have hfilled := hr.filled
  have hwatched := hr.watched
  rw [hphase] at htodo hfilled
  have hview : ∀ c p id, (workView st run).owed c p id = true → (dataset c.parent, p) ∈ run.changed := by
    intro c p id howed
    simpa only [workView, hphase, Phase.rechecks, Phase.readsParents, Bool.true_and,
      Bool.false_and, Bool.or_false, decide_eq_true_eq] using howed
  have hdone : ∀ ds, dataset spec.model ≠ ds → (∀ s ∈ todo, dataset s.model ≠ ds) → Done st ds := by
    intro ds hne hrest
    unfold Done
    rw [hrun]
    show ∀ s ∈ run.phase.todo, dataset s.model ≠ ds
    rw [hphase]
    intro s hs
    rcases List.mem_cons.mp hs with rfl | hs
    · exact hne
    · exact hrest s hs
  refine ⟨⟨hi.odoo.keyed, hi.odoo.used, hi.odoo.positive, hi.odoo.linked⟩, ?_, ?_,
    ⟨hr.sound.keyed, hr.sound.used, hr.sound.older⟩, ?_, ?_, ?_, ?_, ?_⟩
  · intro ds t ht
    have ht : stored ds (write st.watermarks (dataset spec.model, started)) = some t := ht
    rw [stored_write] at ht
    split at ht
    · cases ht
      exact htx.started
    · exact hi.clock ds t ht
  · intro ds t ht
    have ht : stored ds (write st.watermarks (dataset spec.model, started)) = some t := ht
    rw [stored_write] at ht
    split at ht
    · next heq => exact ⟨spec, htodo spec List.mem_cons_self, heq⟩
    · exact hi.tracked ds t ht
  · refine Watched.mono (v := workView st run) hwatched (fun c _ id r h _ => h)
      (fun c _ id r _ _ p _ howed => .inr ?_) fun c _ p id hne => absurd rfl hne
    exact decide_eq_true ⟨by simp, hview c p id howed⟩
  · intro ds hnone id
    have hnone : stored ds (write st.watermarks (dataset spec.model, started)) = none := hnone
    rw [stored_write] at hnone
    split at hnone
    · cases hnone
    · next hne =>
      show stored (ds, id) run.work = none
      rw [htx.frame (ds, id) fun h => hne h.symm]
      exact hi.empty ds hnone id
  · intro ds t ht id r hodoo
    have ht : stored ds (write st.watermarks (dataset spec.model, started)) = some t := ht
    rw [stored_write] at ht
    split at ht
    · next heq =>
      cases ht
      have heq : dataset spec.model = ds := heq
      rw [← heq] at hodoo ⊢
      exact (hsync id r hodoo).imp_right fun hlate => ⟨fun hq => hlate.1 hq.1, hlate.2⟩
    · next hne =>
      have hne : dataset spec.model ≠ ds := hne
      show stored (ds, id) run.work = _ ∨ _
      rw [htx.frame (ds, id) fun h => hne h.symm]
      refine (hi.synced ds t ht id r hodoo).imp_right fun hlate => ⟨fun hq => hlate.1 ?_, hlate.2⟩
      exact ⟨hq.1, hdone ds hne hq.2⟩
  · intro hq c hc hd id hne
    have hne : stored (dataset c.parent, id) run.work ≠ none := hne
    by_cases heq : dataset spec.model = dataset c.parent
    · have hid := parent_idCheck spec (htodo spec List.mem_cons_self) c hc heq
      rw [← heq] at hne ⊢
      exact hexact hq hid id hne
    · rw [htx.frame (dataset c.parent, id) fun h => heq h.symm] at hne
      exact hi.exact_ hq c hc (hdone _ heq hd) id hne
  · rintro run' h
    cases h
    refine ⟨⟨hr.sound.keyed, hr.sound.used, hr.sound.older⟩, ?_, hr.gone,
      fun s hs => htodo s (List.mem_cons_of_mem _ hs), fun s hs => ?_, rfl⟩
    · refine Watched.mono (v := workView st run) hwatched (fun c _ id r h _ => h)
        (fun c _ id r _ _ p _ howed => .inr ?_) fun c _ p id hne => absurd rfl hne
      simp only [workView, Phase.rechecks, Bool.true_and, Bool.or_eq_true, decide_eq_true_eq]
      exact .inl (hview c p id howed)
    · show s ∈ todo ∨ stored _ (write st.watermarks (dataset spec.model, started)) ≠ none
      rw [stored_write]
      rcases hfilled s hs with hmem | hsome
      · rcases List.mem_cons.mp hmem with rfl | hmem
        · exact .inr (by simp)
        · exact .inl hmem
      · refine .inr ?_
        split
        · simp
        · exact hsome

/-! ## The rules -/

omit [DecidableEq V] in
theorem phaseInv_toOrphans (h : RulesTx cfg quiet st run) {links : List ChildLink}
    (hlinks : ∀ c ∈ links, c ∈ CHILDREN) :
    PhaseInv cfg quiet (st.goOn run (run.toOrphans links))
      { run with phase := run.toOrphans links } := by
  have htx : RulesTx cfg quiet (st.goOn run (run.toOrphans links))
      { run with phase := run.toOrphans links } := ⟨h.synced, h.exact_, h.empty, h.parents⟩
  cases links with
  | nil => exact htx
  | cons c links =>
    have hc := hlinks c List.mem_cons_self
    refine ⟨htx, hc, fun c' hc' => hlinks c' (List.mem_cons_of_mem _ hc'), fun p hp => ?_⟩
    by_contra hne
    exact h.parents c hc p hne (stored_of_mem_missingParents hp)

omit [DecidableEq V] in
theorem mem_live {c : ChildLink} {p : Nat} (h : (dataset c.parent, p) ∈ run.changed)
    (hgone : (dataset c.parent, p) ∉ run.gone) : p ∈ run.live c := by
  unfold SyncRun.live
  rw [Paging.mem_ordered, List.mem_filter, List.mem_dedup, mem_idsOf]
  exact ⟨h, decide_eq_true fun hmem => hgone (mem_idsOf.mp hmem)⟩

omit [DecidableEq V] in
theorem phaseInv_toSearch (h : RulesTx cfg quiet st run) {links : List ChildLink}
    (hlinks : ∀ c ∈ links, c ∈ CHILDREN) :
    PhaseInv cfg quiet (st.goOn run (run.toSearch links))
      { run with phase := run.toSearch links } := by
  cases links with
  | nil => exact phaseInv_toOrphans h fun c hc => hc
  | cons c links =>
    exact ⟨⟨h.synced, h.exact_, h.empty, h.parents⟩, hlinks c List.mem_cons_self,
      fun c' hc' => hlinks c' (List.mem_cons_of_mem _ hc'),
      fun id r _ p _ hch hgone hlive => absurd (mem_live hch hgone) hlive⟩

omit [DecidableEq V] in
theorem toOrphans_phase (run : SyncRun V) (links : List ChildLink) : (run.toOrphans links).todo = [] ∧
    run.toOrphans links ≠ .names ∧ (run.toOrphans links).readsParents = true := by
  cases links <;> exact ⟨rfl, by simp [SyncRun.toOrphans], rfl⟩

omit [DecidableEq V] in
theorem toSearch_phase (run : SyncRun V) (links : List ChildLink) : (run.toSearch links).todo = [] ∧
    run.toSearch links ≠ .names ∧
      ∀ c id, c ∈ links → (run.toSearch links).rechecks c id = true := by
  cases links with
  | nil =>
    have h := toOrphans_phase run CHILDREN
    exact ⟨h.1, h.2.1, fun _ _ h => by cases h⟩
  | cons c links =>
    refine ⟨rfl, by simp [SyncRun.toSearch], fun c' id h => decide_eq_true ?_⟩
    rcases List.mem_cons.mp h with rfl | h
    · exact .inr ⟨rfl, List.not_mem_nil⟩
    · exact .inl h

omit [DecidableEq V] in
/-- A step of the rules' transaction that writes nothing. -/
theorem Inv.rulesPhase (hi : Inv cfg quiet st) (hrun : st.run = some run)
    (htodo : run.phase.todo = []) (htodo' : phase.todo = []) (hnames : phase ≠ .names)
    (hre : ∀ c ∈ CHILDREN, ∀ id, stored (dataset c.child, id) st.odoo = none →
      run.phase.rechecks c id = true → phase.rechecks c id = true)
    (hrp : run.phase.readsParents = true → phase.readsParents = true)
    (hphase : PhaseInv cfg quiet (st.goOn run phase) { run with phase := phase }) :
    Inv cfg quiet (st.goOn run phase) := by
  have hr := hi.run run hrun
  have hfilled := hr.filled
  rw [htodo] at hfilled
  refine hi.goOn hrun (htodo'.trans htodo.symm) hnames (fun k hk => hk) ⟨hr.sound.goOn,
    watched_phase hr.watched hre hrp, hr.gone, ?_, ?_, hphase⟩
  · show ∀ s ∈ phase.todo, s ∈ specs
    rw [htodo']
    exact fun _ h => by cases h
  · show ∀ s ∈ specs, s ∈ phase.todo ∨ _
    rw [htodo']
    exact hfilled

omit [DecidableEq V] in
theorem Inv.rules (hi : Inv cfg quiet st) (hrun : st.run = some run)
    (hphase : run.phase = .specs []) :
    Inv cfg quiet (st.goOn { run with work := st.mirror } (run.toSearch CHILDREN)) := by
  have hp := (hi.run run hrun).phase
  rw [PhaseInv, hphase] at hp
  have hwork : run.work = st.mirror := hp
  have hsame : { run with work := st.mirror } = run := by rw [← hwork]
  have hdone : ∀ ds, Done st ds := by
    intro ds
    unfold Done
    rw [hrun]
    show ∀ s ∈ run.phase.todo, dataset s.model ≠ ds
    rw [hphase]
    exact fun _ h => by cases h
  have htx : RulesTx cfg quiet st run := by
    constructor
    · rw [hwork]
      intro ds t ht id r hodoo
      exact (hi.synced ds t ht id r hodoo).imp_right fun hlate =>
        ⟨fun hq => hlate.1 ⟨hq, hdone ds⟩, hlate.2⟩
    · rw [hwork]
      exact fun hq c hc => hi.exact_ hq c hc (hdone _)
    · rw [hwork]
      exact hi.empty
    · rw [hwork]
      exact fun _ _ _ h => h
  obtain ⟨htodo', hnames, hre⟩ := toSearch_phase run CHILDREN
  rw [hsame]
  exact hi.rulesPhase hrun (by rw [hphase]; rfl) htodo' hnames (fun c hc id _ _ => hre c id hc)
    (by rw [hphase]; exact fun h => by cases h) (phaseInv_toSearch htx fun c hc => hc)

omit [DecidableEq V] in
/-- A chunk of parents is searched; what Odoo no longer has is not found. -/
theorem Inv.search (hi : Inv cfg quiet st) (hrun : st.run = some run) {c : ChildLink}
    {links : List ChildLink} {live odoo : List Nat} (hphase : run.phase = .search c links live odoo) :
    Inv cfg quiet (st.goOn run (.search c links (live.drop 1000)
      (odoo ++ childIds c (live.take 1000) st.odoo))) := by
  have hp := (hi.run run hrun).phase
  rw [PhaseInv, hphase] at hp
  obtain ⟨htx, hc, hlinks, hfound⟩ := hp
  refine hi.rulesPhase hrun (by rw [hphase]; rfl) rfl (by simp) (fun c' hc' id hgone hre => ?_)
    (by rw [hphase]; exact fun h => h) ⟨⟨htx.synced, htx.exact_, htx.empty, htx.parents⟩, hc, hlinks,
      fun id r hodoo p hp hch hgone hlive => ?_⟩
  · rw [hphase] at hre
    refine decide_eq_true ((of_decide_eq_true hre).imp_right fun h => ⟨h.1, fun hmem => ?_⟩)
    rcases List.mem_append.mp hmem with hmem | hmem
    · exact h.2 hmem
    · obtain ⟨r, hr, -⟩ := (mem_childIds hi.odoo.keyed).mp hmem
      rw [h.1] at hgone
      rw [hgone] at hr
      cases hr
  · have hodoo : stored (dataset c.child, id) st.odoo = some r := hodoo
    by_cases hmem : p ∈ live
    · have htake : p ∈ live.take 1000 := by
        rw [← List.take_append_drop 1000 live] at hmem
        exact (List.mem_append.mp hmem).resolve_right hlive
      exact .inl (List.mem_append_right _
        ((mem_childIds hi.odoo.keyed).mpr ⟨r, hodoo, p, hp, htake⟩))
    · exact (hfound id r hodoo p hp hch hgone hmem).imp_left fun h => List.mem_append_left _ h

theorem Inv.recheck (hi : Inv cfg quiet st) (hrun : st.run = some run) {st' : State V}
    (h : runStep cfg st run .recheck = some st') : Inv cfg quiet st' := by
  have hr := hi.run run hrun
  simp only [runStep] at h
  split at h
  · next c links odoo hphase =>
    have hp := hr.phase
    rw [PhaseInv, hphase] at hp
    obtain ⟨htx, hc, hlinks, hfound⟩ := hp
    have hfilled := hr.filled
    rw [hphase] at hfilled
    set ids := (childIds c (idsOf (dataset c.parent) run.changed) run.work).filter (· ∉ odoo)
      with hids
    -- a child that Odoo has kept since before the watermark was found
    have hkept : ∀ id ∈ ids, ∀ r, stored (dataset c.child, id) st.odoo = some r →
        stored (dataset c.child, id) run.work = some r →
          ∀ t, stored (dataset c.child) st.watermarks = some t → Late cfg quiet t r := by
      intro id hid r hodoo hwork
      obtain ⟨hmem, hnot⟩ := List.mem_filter.mp hid
      obtain ⟨r', hr', p, hp, hch⟩ := (mem_childIds hr.sound.keyed).mp hmem
      rw [hwork] at hr'
      cases hr'
      have hgone : (dataset c.parent, p) ∉ run.gone := fun hgone =>
        hi.odoo.linked c hc id r hodoo p hp (hr.gone _ hgone).2
      exact (hfound id r hodoo p hp (mem_idsOf.mp hch) hgone List.not_mem_nil).resolve_left
        (of_decide_eq_true hnot)
    have hparent : ∀ c' ∈ CHILDREN, ∀ p, stored (dataset c'.parent, p)
        (delete (dataset c.child) ids run.work).1 = stored (dataset c'.parent, p) run.work := by
      intro c' hc' p
      rw [stored_delete, if_neg fun h => child_ne_parent c hc c' hc' h.1.symm]
    cases h
    refine hi.goOn hrun (by rw [hphase]; rfl) (by simp) (fun k hk => List.mem_append_left _ hk)
      ⟨(hr.sound.delete (dataset c.child) ids).goOn, ?_, hr.gone, (fun _ h => by cases h), hfilled,
        ⟨fun ds t ht id r hodoo => ?_, fun hq c' hc' id hne => ?_, fun ds hw id => ?_,
          fun c' hc' p hne => ?_⟩, hc, hlinks⟩
    · refine Watched.mono (v := workView st run) hr.watched
        (fun c' _ id r h _ => (stored_of_delete h).1)
        (fun c' _ id r hr' _ p hp howed => .inr ?_)
        fun c' hc' p id hne => absurd (hparent c' hc' p) hne
      simp only [workView, hphase, Phase.rechecks, Phase.readsParents, Bool.false_and,
        Bool.or_false, Bool.and_eq_true, decide_eq_true_eq] at howed
      obtain ⟨hre, hch⟩ := howed
      simp only [workView, Phase.rechecks, Bool.or_eq_true, Bool.and_eq_true, decide_eq_true_eq]
      rcases hre with hre | ⟨rfl, hnot⟩
      · exact .inl ⟨hre, List.mem_append_left _ hch⟩
      · obtain ⟨hold, hkeep⟩ := stored_of_delete hr'
        exact absurd ⟨rfl, List.mem_filter.mpr ⟨(mem_childIds hr.sound.keyed).mpr
          ⟨r, hold, p, hp, mem_idsOf.mpr hch⟩, decide_eq_true hnot⟩⟩ hkeep
    · have hodoo : stored (ds, id) st.odoo = some r := hodoo
      rcases htx.synced ds t ht id r hodoo with hold | hlate
      · by_cases hdel : ds = dataset c.child ∧ id ∈ ids
        · obtain ⟨rfl, hid⟩ := hdel
          exact .inr (hkept id hid r hodoo hold t ht)
        · refine .inl ?_
          show stored (ds, id) (delete (dataset c.child) ids run.work).1 = _
          rw [stored_delete, if_neg hdel]
          exact hold
      · exact .inr hlate
    · have hne : stored (dataset c'.parent, id) (delete (dataset c.child) ids run.work).1 ≠ none := hne
      rw [hparent c' hc'] at hne
      exact htx.exact_ hq c' hc' id hne
    · show stored (ds, id) (delete (dataset c.child) ids run.work).1 = _
      rw [stored_delete, htx.empty ds hw id]
      split <;> rfl
    · show stored (dataset c'.parent, p) (delete (dataset c.child) ids run.work).1 ≠ _
      rw [hparent c' hc']
      exact htx.parents c' hc' p hne
  · cases h

theorem RulesTx.upsert (h : RulesTx cfg quiet st run) {model : String}
    {reads : List (Nat × Rec V)} (hcur : Current st.odoo (dataset model) reads)
    (hw : stored (dataset model) st.watermarks ≠ none) :
    RulesTx cfg quiet (st.goOn (run.upsert model reads) phase)
      { run.upsert model reads with phase := phase } where
  synced ds t ht := (h.synced ds t ht).upsert hcur
  exact_ hq c hc := (h.exact_ hq c hc).upsert hcur
  empty ds hnone id := by
    show stored (ds, id) (Mirror.upsert (dataset model) reads run.work).1 = none
    rw [stored_upsert, if_neg fun heq => hw (by rw [← heq]; exact hnone)]
    exact h.empty ds hnone id
  parents c hc p hne := stored_upsert_isSome (h.parents c hc p hne)

omit [DecidableEq V] in
theorem mem_of_mem_readIds {ds : Dataset} {ids : List Nat} {odoo : Rows V} {id : Nat} {r : Rec V}
    (h : (id, r) ∈ readIds ds ids odoo) : id ∈ ids := by
  obtain ⟨x, hx, heq⟩ := List.mem_map.mp h
  cases heq
  exact (of_decide_eq_true (List.mem_filter.mp hx).2).2

/-- A read in the transaction of the rules. -/
theorem Inv.rulesRead (hi : Inv cfg quiet st) (hrun : st.run = some run) {model : String}
    {reads : List (Nat × Rec V)} (hcur : Current st.odoo (dataset model) reads)
    (htodo : run.phase.todo = []) (htodo' : phase.todo = []) (hnames : phase ≠ .names)
    (hre : ∀ c id, run.phase.rechecks c id = true → phase.rechecks c id = true)
    (hrp : run.phase.readsParents = true → phase.readsParents = true)
    (hnew : ∀ c ∈ CHILDREN, dataset c.parent = dataset model →
      ∀ p ∈ (Mirror.upsert (dataset model) reads run.work).2, ∀ id,
        (workView st { run.upsert model reads with phase := phase }).owed c p id = true)
    (hphase : PhaseInv cfg quiet (st.goOn (run.upsert model reads) phase)
      { run.upsert model reads with phase := phase }) :
    Inv cfg quiet (st.goOn (run.upsert model reads) phase) := by
  have hr := hi.run run hrun
  have hfilled := hr.filled
  rw [htodo] at hfilled
  refine hi.goOn hrun (htodo'.trans htodo.symm) hnames (fun k hk => List.mem_append_left _ hk)
    ⟨(hr.sound.upsert hi.odoo hcur).goOn,
      watched_upsert hr.watched hcur (fun c _ id => hre c id) hrp hnew, hr.gone, ?_, ?_, hphase⟩
  · show ∀ s ∈ phase.todo, s ∈ specs
    rw [htodo']
    exact fun _ h => by cases h
  · show ∀ s ∈ specs, s ∈ phase.todo ∨ _
    rw [htodo']
    exact hfilled

theorem Inv.readIds (hi : Inv cfg quiet st) (hrun : st.run = some run) {st' : State V}
    (h : runStep cfg st run .readIds = some st') : Inv cfg quiet st' := by
  have hr := hi.run run hrun
  have hwatermark : run.phase.todo = [] → ∀ s ∈ specs, stored (dataset s.model) st.watermarks ≠ none := by
    intro htodo s hs
    refine (hr.filled s hs).resolve_left fun h => ?_
    rw [htodo] at h
    cases h
  simp only [runStep] at h
  split at h
  · next spec todo started id ids hphase =>
    have hp := hr.phase
    rw [PhaseInv, hphase] at hp
    obtain ⟨htx, hsync, hexact⟩ := hp
    have hcur := current_readIds (dataset spec.model) hi.odoo.keyed ((id :: ids).take 500)
    cases h
    exact hi.specRead hrun hcur (by rw [hphase]; rfl) (fun _ _ => rfl) (by rw [hphase]; rfl)
      ⟨htx.upsert, hsync.upsert hcur, fun hq hid => (hexact hq hid).upsert hcur⟩
  · next c links id ids hphase =>
    have hp := hr.phase
    rw [PhaseInv, hphase] at hp
    obtain ⟨htx, hc, hlinks⟩ := hp
    have hcur := current_readIds (dataset c.child) hi.odoo.keyed ((id :: ids).take 500)
    obtain ⟨s, hs, hds⟩ := child_spec c hc
    have hw := hwatermark (by rw [hphase]; rfl) s hs
    rw [hds] at hw
    cases h
    exact hi.rulesRead hrun hcur (by rw [hphase]; rfl) rfl (by simp)
      (fun _ _ h => by rw [hphase] at h; exact h) (by rw [hphase]; exact fun h => h)
      (fun c' hc' heq => absurd heq.symm (child_ne_parent c hc c' hc'))
      ⟨htx.upsert hcur hw, hc, hlinks⟩
  · next c links p ids hphase =>
    have hp := hr.phase
    rw [PhaseInv, hphase] at hp
    obtain ⟨htx, hc, hlinks, habsent⟩ := hp
    have hcur := current_readIds (dataset c.parent) hi.odoo.keyed ((p :: ids).take 500)
    obtain ⟨s, hs, hds⟩ := parent_spec c hc
    have hw := hwatermark (by rw [hphase]; rfl) s hs
    rw [hds] at hw
    cases h
    refine hi.rulesRead hrun hcur (by rw [hphase]; rfl) rfl (by simp)
      (fun _ _ h => by rw [hphase] at h; exact h) (fun _ => rfl) (fun c' hc' heq p' hp' id => ?_)
      ⟨htx.upsert hcur hw, hc, hlinks, fun p' hp' => habsent p' (List.mem_of_mem_drop hp')⟩
    obtain rfl := parent_inj c' hc' c hc heq
    obtain ⟨r, hread⟩ := read_of_mem_changed hp'
    have hnone := habsent p' (List.mem_of_mem_take (mem_of_mem_readIds hread))
    have hsome : stored (dataset c'.parent, p') (Mirror.upsert (dataset c'.parent)
        (Children.readIds (dataset c'.parent) ((p :: ids).take 500) st.odoo) run.work).1 = some r :=
      stored_upsert_current hcur (hcur _ _ hread) (.inr ⟨rfl, hread⟩)
    simp only [workView, Phase.rechecks, Phase.readsParents, hnone, Bool.false_and, Bool.true_and,
      Option.isNone_none, Bool.false_or]
    show (stored (dataset c'.parent, p') (Mirror.upsert (dataset c'.parent)
        (Children.readIds (dataset c'.parent) ((p :: ids).take 500) st.odoo) run.work).1).isSome = true
    rw [hsome]
    rfl
  · cases h

omit [DecidableEq V] in
theorem Inv.nextLink (hi : Inv cfg quiet st) (hrun : st.run = some run) {c : ChildLink}
    {links : List ChildLink} (hphase : run.phase = .unseen c links []) :
    Inv cfg quiet (st.goOn run (run.toSearch links)) := by
  have hp := (hi.run run hrun).phase
  rw [PhaseInv, hphase] at hp
  obtain ⟨htx, -, hlinks⟩ := hp
  obtain ⟨htodo', hnames, hre⟩ := toSearch_phase run links
  refine hi.rulesPhase hrun (by rw [hphase]; rfl) htodo' hnames (fun c' _ id _ h => ?_)
    (by rw [hphase]; exact fun h => by cases h) (phaseInv_toSearch htx hlinks)
  rw [hphase] at h
  exact hre c' id (of_decide_eq_true h)

omit [DecidableEq V] in
theorem Inv.nextOrphans (hi : Inv cfg quiet st) (hrun : st.run = some run) {c : ChildLink}
    {links : List ChildLink} (hphase : run.phase = .orphans c links []) :
    Inv cfg quiet (st.goOn run (run.toOrphans links)) := by
  have hp := (hi.run run hrun).phase
  rw [PhaseInv, hphase] at hp
  obtain ⟨htx, -, hlinks, -⟩ := hp
  obtain ⟨htodo', hnames, hrp⟩ := toOrphans_phase run links
  exact hi.rulesPhase hrun (by rw [hphase]; rfl) htodo' hnames
    (fun c' _ id _ h => by rw [hphase] at h; cases h) (fun _ => hrp) (phaseInv_toOrphans htx hlinks)

omit [DecidableEq V] in
theorem Inv.commitRules (hi : Inv cfg quiet st) (hrun : st.run = some run)
    (hphase : run.phase = .rest)
    (hk : ∀ r ∈ run.work, ∀ c ∈ CHILDREN, r.1.1 = dataset c.child → stored r.1 st.odoo = none →
      ∀ p ∈ r.2.parent, stored (dataset c.parent, p) st.mirror = none →
        ∀ parent ∈ stored (dataset c.parent, p) run.work,
          some parent ≠ stored (dataset c.parent, p) st.odoo) :
    Inv cfg quiet { st.goOn run .names with mirror := run.work } := by
  have hr := hi.run run hrun
  have hp := hr.phase
  rw [PhaseInv, hphase] at hp
  have htx : RulesTx cfg quiet st run := hp
  have hfilled := hr.filled
  rw [hphase] at hfilled
  -- every removed child hangs under a parent that differs from Odoo's
  have hdue : ∀ c ∈ CHILDREN, ∀ id r, stored (dataset c.child, id) run.work = some r →
      stored (dataset c.child, id) st.odoo = none →
      ∃ p ∈ r.parent, stored (dataset c.parent, p) run.work ≠ stored (dataset c.parent, p) st.odoo := by
    intro c hc id r hrow hgone
    obtain ⟨p, hp, hdue | howed⟩ := hr.watched c hc id r hrow hgone
    · exact ⟨p, hp, hdue⟩
    · simp only [workView, hphase, Phase.rechecks, Phase.readsParents, Bool.false_and,
        Bool.true_and, Bool.false_or, Bool.and_eq_true, Option.isNone_iff_eq_none,
        Option.isSome_iff_exists] at howed
      obtain ⟨hnone, parent, hparent⟩ := howed
      refine ⟨p, hp, ?_⟩
      rw [hparent]
      exact hk _ (mem_of_stored hrow) c hc rfl hgone p hp hnone parent hparent
  refine ⟨⟨hi.odoo.keyed, hi.odoo.used, hi.odoo.positive, hi.odoo.linked⟩, hi.clock,
    hi.tracked, ⟨hr.sound.keyed, hr.sound.used, hr.sound.older⟩, ?_, htx.empty, ?_, ?_, ?_⟩
  · intro c hc id r hrow hgone
    obtain ⟨p, hp, hne⟩ := hdue c hc id r hrow hgone
    exact ⟨p, hp, .inl hne⟩
  · intro ds t ht id r hodoo
    exact (htx.synced ds t ht id r hodoo).imp_right fun hlate =>
      ⟨fun hq => hlate.1 hq.1, hlate.2⟩
  · exact fun hq c hc _ => htx.exact_ hq c hc
  · rintro run' h
    cases h
    refine ⟨⟨hr.sound.keyed, hr.sound.used, hr.sound.older⟩, fun c hc id r hrow hgone => ?_,
      hr.gone, (fun _ h => by cases h), hfilled, rfl⟩
    obtain ⟨p, hp, hne⟩ := hdue c hc id r hrow hgone
    exact ⟨p, hp, .inl hne⟩

omit [DecidableEq V] in
/-- The run is over; its transaction is committed, or rolled back. -/
theorem Inv.stop (hi : Inv cfg quiet st)
    (hk : ∀ c ∈ CHILDREN, ∀ id r, stored (dataset c.child, id) st.mirror = some r →
      stored (dataset c.child, id) st.odoo = none → ∀ p ∈ r.parent,
        (mirrorView st).owed c p id = true →
          stored (dataset c.parent, p) st.mirror ≠ stored (dataset c.parent, p) st.odoo) :
    Inv cfg quiet { st with run := none } := by
  refine ⟨⟨hi.odoo.keyed, hi.odoo.used, hi.odoo.positive, hi.odoo.linked⟩, hi.clock,
    hi.tracked, ⟨hi.sound.keyed, hi.sound.used, hi.sound.older⟩, ?_, hi.empty, ?_, fun _ _ _ h => h.elim,
    fun _ h => by cases h⟩
  · exact Watched.mono (v := mirrorView st) hi.watched (fun c _ id r h _ => h)
      (fun c hc id r hrow hgone p hp howed => .inl (hk c hc id r hrow hgone p hp howed))
      fun c _ p id hne => absurd rfl hne
  · intro ds t ht id r hodoo
    exact (hi.synced ds t ht id r hodoo).imp_right fun hlate => ⟨fun hq => hq.2.elim, hlate.2⟩

omit [DecidableEq V] in
theorem Inv.start (hi : Inv cfg quiet st) (hrun : st.run = none) :
    Inv cfg quiet { st with run := some ⟨.specs specs, st.mirror, [], []⟩ } := by
  have hdone : ∀ s ∈ specs, ∀ ds, dataset s.model = ds →
      ¬ Done { st with run := some ⟨.specs specs, st.mirror, [], []⟩ } ds :=
    fun s hs ds heq hd => hd s hs heq
  have hwatched : ∀ v : View V, v.rows = st.mirror → Watched st v := by
    intro v hv c hc id r hrow hgone
    rw [hv] at hrow
    obtain ⟨p, hp, hdue | howed⟩ := hi.watched c hc id r hrow hgone
    · exact ⟨p, hp, .inl (by rw [hv]; exact hdue)⟩
    · simp only [mirrorView, hrun, Bool.false_eq_true] at howed
  refine ⟨⟨hi.odoo.keyed, hi.odoo.used, hi.odoo.positive, hi.odoo.linked⟩, hi.clock,
    hi.tracked, ⟨hi.sound.keyed, hi.sound.used, hi.sound.older⟩, hwatched _ rfl, hi.empty, ?_, ?_, ?_⟩
  · intro ds t ht id r hodoo
    obtain ⟨s, hs, heq⟩ := hi.tracked ds t ht
    exact (hi.synced ds t ht id r hodoo).imp_right fun hlate =>
      ⟨fun hq => hdone s hs ds heq hq.2, hlate.2⟩
  · intro hq c hc hd
    obtain ⟨s, hs, heq⟩ := parent_spec c hc
    exact absurd hd (hdone s hs _ heq)
  · rintro run h
    cases h
    exact ⟨⟨hi.sound.keyed, hi.sound.used, hi.sound.older⟩, hwatched _ rfl,
      (fun _ h => by cases h), (fun _ h => h), (fun s hs => .inl hs), rfl⟩

end SalesDashboard.Mirror.Children
