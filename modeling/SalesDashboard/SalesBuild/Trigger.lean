import SalesDashboard.Lib.Transition
import SalesDashboard.SalesBuild.Build

/-! Lost updates of the sales build. The reference point of `build_reason` is taken
when the write task starts and ends, but its inputs are read by the tasks before,
so a change in between can be lost. Along the runs in which nothing changes
between a read and what guards it, `build_reason` is `none` only when the written
tables were computed from what is there now. -/

namespace SalesDashboard.SalesBuild
open Transition

variable {V C M : Type}

/-! ## What `build_reason` sees -/

/-- No change of a shared list is recorded after the instant. -/
def Unstamped (st : State V C M) (since : Nat) : Prop :=
  (∀ r ∈ st.lists, r.updatedAt ≤ since) ∧
    ∀ t ∈ st.coreLog, since < t.finished → t.deletedKeys = []

theorem dimChangesSince_eq_nil {st : State V C M} {since : Nat} :
    dimChangesSince st since = [] ↔ Unstamped st since := by
  unfold dimChangesSince Unstamped
  simp only [List.append_eq_nil_iff, List.map_eq_nil_iff, List.filter_eq_nil_iff,
    List.flatMap_eq_nil_iff, List.mem_filter, decide_eq_true_eq, Nat.not_lt, and_imp]

/-- What the last build recorded still describes the inputs. -/
structure Quiet (mode : Mode) (st : State V C M) (w : WriteLog) (d : BuildDetails) : Prop where
  last : lastBuild st = some w
  details : w.details = some d
  mode : d.mode = mode
  date : d.businessDate = st.today
  signature : d.inputsSignature = inputsSignature st.inputs
  lists : Unstamped st w.started

/-- `build_reason` is silent only when nothing differs from the last build. -/
theorem quiet_of_none {mode : Mode} {full : Bool} {st : State V C M}
    (h : buildReason mode full st = none) : ∃ w d, Quiet mode st w d := by
  unfold buildReason at h
  split at h
  · cases h
  split at h
  · cases h
  next last hlast =>
  split at h
  · cases h
  next d hd =>
  split at h
  · cases h
  next hmode =>
  split at h
  · cases h
  next hdate =>
  split at h
  · cases h
  next hsig =>
  have hdims : dimChangesSince st last.started = [] := by
    split at h
    · split at h
      · cases h
      · split at h
        · assumption
        · cases h
    · split at h
      · assumption
      · cases h
  exact ⟨last, d, hlast, hd, not_not.mp hmode, not_not.mp hdate, not_not.mp hsig,
    dimChangesSince_eq_nil.mp hdims⟩

/-! ## Reads that are still current -/

structure BuiltCurrent (st : State V C M) (b : Built C M) : Prop where
  mirror : b.mirror = st.mirror
  inputs : b.inputs = st.inputs
  date : b.date = st.today

/-- The tables were computed from the current mirror, shared lists, workbooks and
business date. -/
structure Current (st : State V C M) (c : Computed V C M) : Prop where
  build : BuiltCurrent st c.build
  lists : c.lists = listValues st.lists
  inputs : c.inputs = st.inputs
  date : c.date = st.today

/-- The start of the write task that a commit must be stamped after: that of the
last build and that of a write in progress. -/
def references (st : State V C M) : List Nat :=
  (match lastBuild st with
    | some ⟨started, some _⟩ => [started]
    | _ => []) ++
  match st.phase with
    | .writing _ started | .committed _ started | .captured _ started _ => [started]
    | _ => []

/-- The signatures that a changed workbook must differ from. -/
def signatures (st : State V C M) : List (List (String × Nat × Nat)) :=
  (match lastBuild st with
    | some ⟨_, some d⟩ => [d.inputsSignature]
    | _ => []) ++
  match st.phase with
    | .captured _ _ d => [d.inputsSignature]
    | _ => []

/-- After the commit something is on record later than the instant: a row it
writes, a row it leaves alone, or a logged deletion. -/
def Recorded (st : State V C M) (stamp : Nat) (upserts : List (ListKey × V))
    (deletes : List ListKey) (since : Nat) : Prop :=
  (upserts ≠ [] ∧ since < stamp) ∨
    (∃ r ∈ st.lists, since < r.updatedAt ∧ r.key ∉ deletes ∧ ∀ u ∈ upserts, r.key ≠ u.1) ∨
    ∃ t ∈ st.coreLog, since < t.finished ∧ t.deletedKeys ≠ []

/-- The lists that the conform task read are those there are now. -/
def ListsKept (st : State V C M) : Phase V C M → Prop
  | .conformed c => c.lists = listValues st.lists
  | _ => True

/-- Workbooks and date are as both tasks read them. -/
def InputsKept (st : State V C M) : Phase V C M → Prop
  | .committed c _ => c.build.inputs = st.inputs ∧ c.inputs = st.inputs ∧
      c.build.date = st.today ∧ c.date = st.today
  | _ => True

/-- The steps that lose nothing: an edit changes the signature; a commit of shared
lists that changes or deletes a row leaves a record later than the reference points;
the lists that conform read are those visible when the write task starts; workbooks
and date are at the end of the write task as they were read. -/
def Keeps (st : State V C M) : Action V C → Prop
  | .edit inputs => inputs = st.inputs ∨ ∀ s ∈ signatures st, inputsSignature inputs ≠ s
  | .coreCommit stamp upserts deletes =>
      (upserts = [] ∧ ∀ r ∈ st.lists, r.key ∉ deletes) ∨
        ∀ s ∈ references st, Recorded st stamp upserts deletes s
  | .startWrite => ListsKept st st.phase
  | .capture => InputsKept st st.phase
  | _ => True

section
variable [DecidableEq V] [DecidableEq C]

instance (st : State V C M) : (p : Phase V C M) → Decidable (ListsKept st p)
  | .conformed c => inferInstanceAs (Decidable (c.lists = listValues st.lists))
  | .idle | .skipped | .skipWriting _ | .built _ | .writing _ _ | .committed _ _
  | .captured _ _ _ => .isTrue trivial

instance (st : State V C M) : (p : Phase V C M) → Decidable (InputsKept st p)
  | .committed c _ => inferInstanceAs (Decidable (c.build.inputs = st.inputs ∧
      c.inputs = st.inputs ∧ c.build.date = st.today ∧ c.date = st.today))
  | .idle | .skipped | .skipWriting _ | .built _ | .conformed _ | .writing _ _
  | .captured _ _ _ => .isTrue trivial

instance (st : State V C M) (stamp : Nat) (upserts : List (ListKey × V))
    (deletes : List ListKey) (since : Nat) :
    Decidable (Recorded st stamp upserts deletes since) := by
  unfold Recorded
  infer_instance

instance (st : State V C M) : (a : Action V C) → Decidable (Keeps st a)
  | .edit inputs => inferInstanceAs
      (Decidable (inputs = st.inputs ∨ ∀ s ∈ signatures st, inputsSignature inputs ≠ s))
  | .coreCommit stamp upserts deletes => inferInstanceAs
      (Decidable ((upserts = [] ∧ ∀ r ∈ st.lists, r.key ∉ deletes) ∨
        ∀ s ∈ references st, Recorded st stamp upserts deletes s))
  | .startWrite => inferInstanceAs (Decidable (ListsKept st st.phase))
  | .capture => inferInstanceAs (Decidable (InputsKept st st.phase))
  | .tick _ | .rollOver | .coreLogged | .coreFailed | .build _ | .conform _ | .commitWrite
  | .logWrite | .fail => .isTrue trivial

end

/-! ## Commits leave a trace -/

theorem applyCommit_stamped (stamp : Nat) (deletes : List ListKey) {upserts : List (ListKey × V)}
    (h : upserts ≠ []) (rows : List (ListRow V)) :
    ∃ r ∈ applyCommit stamp upserts deletes rows, r.updatedAt = stamp := by
  unfold applyCommit
  obtain ⟨init, last, rfl⟩ : ∃ init last, upserts = init ++ [last] :=
    ⟨_, _, (List.dropLast_append_getLast h).symm⟩
  rw [List.foldl_append]
  exact ⟨_, List.mem_append_right _ (List.mem_singleton_self _), rfl⟩

theorem kept_applyCommit {stamp : Nat} {upserts : List (ListKey × V)} {deletes : List ListKey}
    {rows : List (ListRow V)} {r : ListRow V} (hr : r ∈ rows) (hdel : r.key ∉ deletes)
    (hup : ∀ u ∈ upserts, r.key ≠ u.1) : r ∈ applyCommit stamp upserts deletes rows := by
  unfold applyCommit
  have hkept : r ∈ rows.filter fun r => decide (r.key ∉ deletes) :=
    List.mem_filter.mpr ⟨hr, by simpa using hdel⟩
  revert hkept
  generalize rows.filter (fun r => decide (r.key ∉ deletes)) = kept
  intro hkept
  induction upserts generalizing kept with
  | nil => exact hkept
  | cons u us ih =>
    have hne := hup u (List.mem_cons_self)
    refine ih (fun u hu => hup u (List.mem_cons_of_mem _ hu)) _ ?_
    exact List.mem_append_left _ (List.mem_filter.mpr ⟨hkept, by simpa using hne⟩)

theorem not_unstamped {st st' : State V C M} {stamp since : Nat} {upserts : List (ListKey × V)}
    {deletes : List ListKey} (h : Recorded st stamp upserts deletes since)
    (hlists : st'.lists = applyCommit stamp upserts deletes st.lists)
    (hlog : st'.coreLog = st.coreLog) : ¬ Unstamped st' since := by
  rintro ⟨hrows, hdels⟩
  rw [hlists] at hrows
  rw [hlog] at hdels
  rcases h with ⟨hne, hlt⟩ | ⟨r, hr, hlt, hdel, hup⟩ | ⟨t, ht, hlt, hne⟩
  · obtain ⟨r, hr, hrs⟩ := applyCommit_stamped stamp deletes hne st.lists
    have := hrows r hr
    omega
  · have := hrows r (kept_applyCommit hr hdel hup)
    omega
  · exact hne (hdels t ht hlt)

theorem mem_applyCommit {stamp : Nat} {upserts : List (ListKey × V)} {deletes : List ListKey}
    {rows : List (ListRow V)} {r : ListRow V} (h : r ∈ applyCommit stamp upserts deletes rows) :
    r ∈ rows ∨ r.updatedAt = stamp := by
  unfold applyCommit at h
  generalize hkept : rows.filter (fun r => decide (r.key ∉ deletes)) = kept at h
  have hsub : ∀ r ∈ kept, r ∈ rows ∨ r.updatedAt = stamp := fun r hr =>
    .inl (List.mem_of_mem_filter (hkept ▸ hr))
  clear hkept
  induction upserts generalizing kept with
  | nil => exact hsub r h
  | cons u us ih =>
    refine ih _ h ?_
    intro r hr
    rcases List.mem_append.mp hr with hr | hr
    · exact hsub r (List.mem_of_mem_filter hr)
    · rw [List.mem_singleton.mp hr]
      exact .inr rfl

theorem listValues_stampGrowth (now : Nat) (growth : List ListKey) (rows : List (ListRow V)) :
    listValues (stampGrowth now growth rows) = listValues rows := by
  unfold listValues stampGrowth
  rw [List.map_map]
  apply List.map_congr_left
  intro r _
  simp only [Function.comp_apply]
  split <;> rfl

/-- Moving stamps to the present never hides a change. -/
theorem le_of_stampGrowth {now since : Nat} {growth : List ListKey} {rows : List (ListRow V)}
    (hnow : ∀ r ∈ rows, r.updatedAt ≤ now)
    (h : ∀ r ∈ stampGrowth now growth rows, r.updatedAt ≤ since) :
    ∀ r ∈ rows, r.updatedAt ≤ since := by
  intro r hr
  have hmem := h _ (List.mem_map_of_mem hr)
  have := hnow r hr
  split at hmem
  · exact Nat.le_trans this hmem
  · exact hmem

/-! ## The invariant -/

/-- What a run in progress knows about its reads. -/
def PhaseInv (mode : Mode) (st : State V C M) : Phase V C M → Prop
  | .idle | .skipped | .skipWriting _ => True
  | .built b => ∀ w d, Quiet mode st w d → BuiltCurrent st b
  | .conformed c => ∀ w d, Quiet mode st w d → Current st c
  | .writing c started => (∀ w d, Quiet mode st w d → Current st c) ∧
      (Unstamped st started → c.lists = listValues st.lists)
  | .committed c started => st.written = some c ∧
      (Unstamped st started → c.lists = listValues st.lists)
  | .captured c started d => st.written = some c ∧
      (Unstamped st started → c.lists = listValues st.lists) ∧ d.businessDate ≤ st.today ∧
      (d.inputsSignature = inputsSignature st.inputs →
        c.build.inputs = st.inputs ∧ c.inputs = st.inputs) ∧
      (d.businessDate = st.today → c.build.date = st.today ∧ c.date = st.today)

def runMirror : Phase V C M → Option M
  | .idle | .skipped | .skipWriting _ => none
  | .built b => some b.mirror
  | .conformed c | .writing c _ | .committed c _ | .captured c _ _ => some c.build.mirror

structure Inv (mode : Mode) (st : State V C M) : Prop where
  stamps : ∀ r ∈ st.lists, r.updatedAt ≤ st.clock
  dates : ∀ w d, lastBuild st = some w → w.details = some d → d.businessDate ≤ st.today
  mirror : ∀ m, runMirror st.phase = some m → m = st.mirror
  quiet : ∀ w d, Quiet mode st w d → ∃ c, st.written = some c ∧ Current st c
  phase : PhaseInv mode st st.phase

/-- Nothing is written yet; the lists, workbooks and dates are whatever they are. -/
structure Init (st : State V C M) : Prop where
  stamps : ∀ r ∈ st.lists, r.updatedAt ≤ st.clock
  writeLog : st.writeLog = []
  phase : st.phase = .idle

theorem inv_of_init {mode : Mode} {st : State V C M} (h : Init st) : Inv mode st where
  stamps := h.stamps
  dates w d hw _ := by simp [lastBuild, h.writeLog] at hw
  mirror m hm := by simp [h.phase, runMirror] at hm
  quiet w d hq := by simpa [lastBuild, h.writeLog] using hq.last
  phase := by rw [h.phase]; trivial

/-! ## The world around the build -/

/-- What is read now is what was read before. -/
structure SameReads (st st' : State V C M) : Prop where
  mirror : st'.mirror = st.mirror
  inputs : st'.inputs = st.inputs
  today : st'.today = st.today
  lists : listValues st'.lists = listValues st.lists

theorem BuiltCurrent.congr {st st' : State V C M} {b : Built C M} (h : BuiltCurrent st b)
    (hs : SameReads st st') : BuiltCurrent st' b :=
  ⟨h.mirror.trans hs.mirror.symm, h.inputs.trans hs.inputs.symm, h.date.trans hs.today.symm⟩

theorem Current.congr {st st' : State V C M} {c : Computed V C M} (h : Current st c)
    (hs : SameReads st st') : Current st' c :=
  ⟨h.build.congr hs, h.lists.trans hs.lists.symm, h.inputs.trans hs.inputs.symm,
    h.date.trans hs.today.symm⟩

/-- A step around the build: either it changes nothing that is read, or what it
changes no longer fits what was or will be recorded. -/
structure Around (mode : Mode) (st st' : State V C M) : Prop where
  writeLog : st'.writeLog = st.writeLog
  written : st'.written = st.written
  phase : st'.phase = st.phase
  mirror : st'.mirror = st.mirror
  stamps : ∀ r ∈ st'.lists, r.updatedAt ≤ st'.clock
  dates : st.today ≤ st'.today
  quiet : ∀ w d, Quiet mode st' w d → Quiet mode st w d ∧ SameReads st st'
  lists : ∀ s ∈ references st, Unstamped st' s →
    Unstamped st s ∧ listValues st'.lists = listValues st.lists
  signature : ∀ s ∈ signatures st, s = inputsSignature st'.inputs → st'.inputs = st.inputs
  today : ∀ c s d, st.phase = .captured c s d → d.businessDate = st'.today → st'.today = st.today

theorem Inv.around {mode : Mode} {st st' : State V C M} (hi : Inv mode st)
    (ha : Around mode st st') : Inv mode st' := by
  have hquiet : ∀ {c : Computed V C M}, (∀ w d, Quiet mode st w d → Current st c) →
      ∀ w d, Quiet mode st' w d → Current st' c := fun h w d hq =>
    (h w d (ha.quiet w d hq).1).congr (ha.quiet w d hq).2
  refine ⟨ha.stamps, ?_, ?_, ?_, ?_⟩
  · intro w d hw hd
    unfold lastBuild at hw
    rw [ha.writeLog] at hw
    exact Nat.le_trans (hi.dates w d hw hd) ha.dates
  · rw [ha.phase, ha.mirror]
    exact hi.mirror
  · intro w d hq
    obtain ⟨hq', hs⟩ := ha.quiet w d hq
    obtain ⟨c, hc, hcur⟩ := hi.quiet w d hq'
    exact ⟨c, ha.written.trans hc, hcur.congr hs⟩
  · rw [ha.phase]
    have hp := hi.phase
    have hrefs := ha.lists
    have hsigs := ha.signature
    have hdates := ha.today
    unfold references at hrefs
    unfold signatures at hsigs
    cases hphase : st.phase with
    | idle => trivial
    | skipped => trivial
    | skipWriting s => trivial
    | built b =>
      rw [hphase] at hp
      exact fun w d hq => (hp w d (ha.quiet w d hq).1).congr (ha.quiet w d hq).2
    | conformed c =>
      rw [hphase] at hp
      exact hquiet hp
    | writing c s =>
      rw [hphase] at hp hrefs
      refine ⟨hquiet hp.1, fun hu => ?_⟩
      obtain ⟨hu', hl⟩ := hrefs s (by simp) hu
      rw [hl, hp.2 hu']
    | committed c s =>
      rw [hphase] at hp hrefs
      refine ⟨ha.written.trans hp.1, fun hu => ?_⟩
      obtain ⟨hu', hl⟩ := hrefs s (by simp) hu
      rw [hl, hp.2 hu']
    | captured c s d =>
      rw [hphase] at hp hrefs hsigs
      obtain ⟨hw, hlists, hdate, hsig, htoday⟩ := hp
      refine ⟨ha.written.trans hw, fun hu => ?_, Nat.le_trans hdate ha.dates, fun hs => ?_,
        fun hd => ?_⟩
      · obtain ⟨hu', hl⟩ := hrefs s (by simp) hu
        rw [hl, hlists hu']
      · have hsame := hsigs d.inputsSignature (by simp) hs
        rw [hsame] at hs ⊢
        exact hsig hs
      · have hsame := hdates c s d hphase hd
        rw [hsame] at hd ⊢
        exact htoday hd

theorem mem_references {mode : Mode} {st st' : State V C M} {w : WriteLog} {d : BuildDetails}
    (hlog : st'.writeLog = st.writeLog) (hq : Quiet mode st' w d) :
    w.started ∈ references st ∧ d.inputsSignature ∈ signatures st := by
  have hlast := hq.last
  unfold lastBuild at hlast
  rw [hlog] at hlast
  obtain ⟨started, details⟩ := w
  have hd : details = some d := hq.details
  subst hd
  unfold references signatures lastBuild
  rw [hlast]
  exact ⟨List.mem_append_left _ (List.mem_singleton_self _),
    List.mem_append_left _ (List.mem_singleton_self _)⟩

section Around
variable {mode : Mode} {st : State V C M}

theorem around_tick (hi : Inv mode st) (n : Nat) :
    Around mode st { st with clock := st.clock + n } where
  writeLog := rfl
  written := rfl
  phase := rfl
  mirror := rfl
  stamps r hr := Nat.le_trans (hi.stamps r hr) (Nat.le_add_right _ _)
  dates := Nat.le_refl _
  quiet _ _ hq := ⟨⟨hq.last, hq.details, hq.mode, hq.date, hq.signature, hq.lists⟩,
    rfl, rfl, rfl, rfl⟩
  lists _ _ hu := ⟨hu, rfl⟩
  signature _ _ _ := rfl
  today _ _ _ _ _ := rfl

/-- A later date differs from every recorded one. -/
theorem around_rollOver (hi : Inv mode st) :
    Around mode st { st with today := st.today + 1 } where
  writeLog := rfl
  written := rfl
  phase := rfl
  mirror := rfl
  stamps := hi.stamps
  dates := Nat.le_succ _
  quiet w d hq := by
    have hle := hi.dates w d hq.last hq.details
    have hdate : d.businessDate = st.today + 1 := hq.date
    omega
  lists _ _ hu := ⟨hu, rfl⟩
  signature _ _ _ := rfl
  today c s d hphase hd := by
    have hp := hi.phase
    rw [hphase] at hp
    have hle := hp.2.2.1
    have hd : d.businessDate = st.today + 1 := hd
    omega

theorem around_edit (hi : Inv mode st) {inputs : Inputs C}
    (hk : inputs = st.inputs ∨ ∀ s ∈ signatures st, inputsSignature inputs ≠ s) :
    Around mode st { st with inputs := inputs } where
  writeLog := rfl
  written := rfl
  phase := rfl
  mirror := rfl
  stamps := hi.stamps
  dates := Nat.le_refl _
  quiet w d hq := by
    rcases hk with rfl | hk
    · exact ⟨hq, rfl, rfl, rfl, rfl⟩
    · exact absurd hq.signature.symm (hk _ (mem_references rfl hq).2)
  lists _ _ hu := ⟨hu, rfl⟩
  signature s hs heq := by
    rcases hk with h | hk
    · exact h
    · exact absurd heq.symm (hk s hs)
  today _ _ _ _ _ := rfl

/-- A commit is seen from every reference point it is stamped after. -/
theorem around_coreCommit (hi : Inv mode st) {stamp : Nat} {upserts : List (ListKey × V)}
    {deletes : List ListKey} (hstamp : stamp ≤ st.clock)
    (hk : (upserts = [] ∧ ∀ r ∈ st.lists, r.key ∉ deletes) ∨
      ∀ s ∈ references st, Recorded st stamp upserts deletes s) :
    Around mode st { st with
      lists := applyCommit stamp upserts deletes st.lists
      unlogged := st.unlogged ++ [deletes] } := by
  rcases hk with ⟨rfl, hnone⟩ | hrec
  · have hsame : applyCommit stamp ([] : List (ListKey × V)) deletes st.lists = st.lists := by
      simp only [applyCommit, List.foldl_nil, List.filter_eq_self, decide_eq_true_eq]
      exact hnone
    rw [hsame]
    exact ⟨rfl, rfl, rfl, rfl, hi.stamps, Nat.le_refl _,
      fun _ _ hq => ⟨⟨hq.last, hq.details, hq.mode, hq.date, hq.signature, hq.lists⟩,
        rfl, rfl, rfl, rfl⟩,
      fun _ _ hu => ⟨hu, rfl⟩, fun _ _ _ => rfl, fun _ _ _ _ _ => rfl⟩
  · refine ⟨rfl, rfl, rfl, rfl, ?_, Nat.le_refl _, ?_, ?_, fun _ _ _ => rfl,
      fun _ _ _ _ _ => rfl⟩
    · intro r' hr'
      rcases mem_applyCommit hr' with h | h
      · exact hi.stamps r' h
      · rw [h]
        exact hstamp
    · intro w d hq
      exact absurd hq.lists (not_unstamped (hrec _ (mem_references rfl hq).1) rfl rfl)
    · intro s hs hu
      exact absurd hu (not_unstamped (hrec s hs) rfl rfl)

theorem around_coreLogged (hi : Inv mode st) (deletes : List ListKey) (rest : List (List ListKey)) :
    Around mode st { st with
      coreLog := ⟨st.clock, deletes⟩ :: st.coreLog, unlogged := rest } where
  writeLog := rfl
  written := rfl
  phase := rfl
  mirror := rfl
  stamps := hi.stamps
  dates := Nat.le_refl _
  quiet _ _ hq := ⟨⟨hq.last, hq.details, hq.mode, hq.date, hq.signature, hq.lists.1,
    fun t ht => hq.lists.2 t (List.mem_cons_of_mem _ ht)⟩, rfl, rfl, rfl, rfl⟩
  lists _ _ hu := ⟨⟨hu.1, fun t ht => hu.2 t (List.mem_cons_of_mem _ ht)⟩, rfl⟩
  signature _ _ _ := rfl
  today _ _ _ _ _ := rfl

theorem around_coreFailed (hi : Inv mode st) (rest : List (List ListKey)) :
    Around mode st { st with unlogged := rest } where
  writeLog := rfl
  written := rfl
  phase := rfl
  mirror := rfl
  stamps := hi.stamps
  dates := Nat.le_refl _
  quiet _ _ hq := ⟨⟨hq.last, hq.details, hq.mode, hq.date, hq.signature, hq.lists⟩,
    rfl, rfl, rfl, rfl⟩
  lists _ _ hu := ⟨hu, rfl⟩
  signature _ _ _ := rfl
  today _ _ _ _ _ := rfl

end Around

theorem around_of_step {mode : Mode} {st st' : State V C M} {a : Action V C} (hi : Inv mode st)
    (hk : Keeps st a) (h : step mode st a = some st')
    (ha : (match a with
      | .tick _ | .rollOver | .edit _ | .coreCommit .. | .coreLogged | .coreFailed => True
      | _ => False)) :
    Around mode st st' := by
  cases a with
  | tick n =>
    cases h
    exact around_tick hi n
  | rollOver =>
    cases h
    exact around_rollOver hi
  | edit inputs =>
    cases h
    exact around_edit hi hk
  | coreCommit stamp upserts deletes =>
    simp only [step] at h
    split at h
    · next hstamp =>
      cases h
      exact around_coreCommit hi hstamp hk
    · cases h
  | coreLogged =>
    simp only [step] at h
    split at h
    · cases h
    · cases h
      exact around_coreLogged hi _ _
  | coreFailed =>
    simp only [step] at h
    split at h
    · cases h
    · cases h
      exact around_coreFailed hi _
  | build | conform | startWrite | commitWrite | capture | logWrite | fail => exact ha.elim

/-! ## The run -/

theorem Quiet.of_same {mode : Mode} {st st' : State V C M} {w : WriteLog} {d : BuildDetails}
    (hq : Quiet mode st' w d) (hlog : st'.writeLog = st.writeLog) (htoday : st'.today = st.today)
    (hinputs : st'.inputs = st.inputs) (hlists : Unstamped st' w.started → Unstamped st w.started) :
    Quiet mode st w d where
  last := by
    have h := hq.last
    unfold lastBuild at h ⊢
    rwa [hlog] at h
  details := hq.details
  mode := hq.mode
  date := hq.date.trans htoday
  signature := by rw [← hinputs]; exact hq.signature
  lists := hlists hq.lists

/-- A step that only moves the run on to its next phase. -/
theorem Inv.setPhase {mode : Mode} {st : State V C M} (hi : Inv mode st) (p : Phase V C M)
    (hm : ∀ m, runMirror p = some m → m = st.mirror)
    (hp : PhaseInv mode { st with phase := p } p) : Inv mode { st with phase := p } where
  stamps := hi.stamps
  dates := hi.dates
  mirror := hm
  quiet w d hq := by
    obtain ⟨c, hc, hcur⟩ := hi.quiet w d (hq.of_same rfl rfl rfl id)
    exact ⟨c, hc, hcur.congr ⟨rfl, rfl, rfl, rfl⟩⟩
  phase := hp

section Run
variable {mode : Mode} {st : State V C M}

theorem Inv.stepBuild (hi : Inv mode st) (fullRefresh : Bool) :
    Inv mode (stepBuild mode fullRefresh st) := by
  have hskip : Inv mode { st with phase := .skipped } :=
    hi.setPhase _ (fun _ hm => by cases hm) trivial
  unfold SalesBuild.stepBuild
  split
  · exact hskip
  split
  · exact hskip
  · refine hi.setPhase _ (fun m hm => ?_) fun _ _ _ => ⟨rfl, rfl, rfl⟩
    cases hm
    rfl

theorem Inv.stepConform (hi : Inv mode st) {b : Built C M} (hphase : st.phase = .built b)
    (growth : List ListKey) : Inv mode (stepConform mode growth b st) := by
  have hb := hi.phase
  have hm := hi.mirror b.mirror
  rw [hphase] at hb hm
  unfold SalesBuild.stepConform
  generalize hrows : (if mode = .incremental then stampGrowth st.clock growth st.lists
    else st.lists) = rows
  have hvalues : listValues rows = listValues st.lists := by
    rw [← hrows]
    split
    · exact listValues_stampGrowth _ _ _
    · rfl
  have hunstamped : ∀ since, (∀ r ∈ rows, r.updatedAt ≤ since) →
      ∀ r ∈ st.lists, r.updatedAt ≤ since := by
    intro since h
    rw [← hrows] at h
    split at h
    · exact le_of_stampGrowth hi.stamps h
    · exact h
  have hstamps : ∀ r ∈ rows, r.updatedAt ≤ st.clock := by
    intro r hr
    rw [← hrows] at hr
    split at hr
    · obtain ⟨o, ho, rfl⟩ := List.mem_map.mp hr
      split
      · exact Nat.le_refl _
      · exact hi.stamps o ho
    · exact hi.stamps r hr
  have hquiet : ∀ w d, Quiet mode { st with
      lists := rows
      phase := .conformed ⟨b, listValues st.lists, st.inputs, st.today⟩ } w d →
      Quiet mode st w d := fun w d hq =>
    hq.of_same rfl rfl rfl fun hu => ⟨hunstamped _ hu.1, hu.2⟩
  refine ⟨hstamps, hi.dates, ?_, ?_, ?_⟩
  · intro m hm'
    cases hm'
    exact hm rfl
  · intro w d hq
    obtain ⟨c, hc, hcur⟩ := hi.quiet w d (hquiet w d hq)
    exact ⟨c, hc, hcur.congr ⟨rfl, rfl, rfl, hvalues⟩⟩
  · intro w d hq
    exact ⟨(hb w d (hquiet w d hq)).congr ⟨rfl, rfl, rfl, hvalues⟩, hvalues.symm, rfl, rfl⟩

theorem Inv.startWrite (hi : Inv mode st) {c : Computed V C M} (hphase : st.phase = .conformed c)
    (hk : c.lists = listValues st.lists) :
    Inv mode { st with phase := .writing c st.clock } := by
  have hc := hi.phase
  have hm := hi.mirror
  rw [hphase] at hc hm
  refine hi.setPhase _ hm ⟨fun w d hq => ?_, fun _ => hk⟩
  exact (hc w d (hq.of_same rfl rfl rfl id)).congr ⟨rfl, rfl, rfl, rfl⟩

theorem Inv.commitWrite (hi : Inv mode st) {c : Computed V C M} {started : Nat}
    (hphase : st.phase = .writing c started) :
    Inv mode { st with written := some c, phase := .committed c started } := by
  have hc := hi.phase
  have hm := hi.mirror
  rw [hphase] at hc hm
  refine ⟨hi.stamps, hi.dates, hm, ?_, rfl, hc.2⟩
  intro w d hq
  exact ⟨c, rfl, (hc.1 w d (hq.of_same rfl rfl rfl id)).congr ⟨rfl, rfl, rfl, rfl⟩⟩

theorem Inv.capture (hi : Inv mode st) {c : Computed V C M} {started : Nat}
    (hphase : st.phase = .committed c started) (d : BuildDetails)
    (hdate : d.businessDate = st.today)
    (hk : c.build.inputs = st.inputs ∧ c.inputs = st.inputs ∧
      c.build.date = st.today ∧ c.date = st.today) :
    Inv mode { st with phase := .captured c started d } := by
  have hc := hi.phase
  have hm := hi.mirror
  rw [hphase] at hc hm
  exact hi.setPhase _ hm ⟨hc.1, hc.2, Nat.le_of_eq hdate, fun _ => ⟨hk.1, hk.2.1⟩, fun _ => hk.2.2⟩

/-- The build becomes the reference, and what it wrote is what it recorded. -/
theorem Inv.logWrite (hi : Inv mode st) {c : Computed V C M} {started : Nat} {d : BuildDetails}
    (hphase : st.phase = .captured c started d) :
    Inv mode { st with writeLog := ⟨started, some d⟩ :: st.writeLog, phase := .idle } := by
  have hc := hi.phase
  have hm := hi.mirror c.build.mirror
  rw [hphase] at hc hm
  obtain ⟨hw, hlists, hdate, hsig, htoday⟩ := hc
  refine ⟨hi.stamps, ?_, (fun _ hm => by cases hm), ?_, trivial⟩
  · intro w d' hlast hd
    cases hlast
    cases hd
    exact hdate
  · intro w d' hq
    have hlast := hq.last
    cases hlast
    have hd := hq.details
    cases hd
    obtain ⟨hbi, hci⟩ := hsig hq.signature
    obtain ⟨hbd, hcd⟩ := htoday hq.date
    exact ⟨c, hw, ⟨hm rfl, hbi, hbd⟩, hlists hq.lists, hci, hcd⟩

/-- A run with nothing to do leaves no details, so the next one builds. -/
theorem Inv.logSkip (hi : Inv mode st) (started : Nat) :
    Inv mode { st with writeLog := ⟨started, none⟩ :: st.writeLog, phase := .idle } where
  stamps := hi.stamps
  dates w d hlast hd := by
    cases hlast
    cases hd
  mirror _ hm := by cases hm
  quiet w d hq := by
    have hlast := hq.last
    cases hlast
    have hd := hq.details
    cases hd
  phase := trivial

end Run

theorem Inv.step {mode : Mode} {st st' : State V C M} {a : Action V C} (hi : Inv mode st)
    (hk : Keeps st a) (h : step mode st a = some st') : Inv mode st' := by
  cases a with
  | tick | rollOver | edit | coreCommit | coreLogged | coreFailed =>
    exact hi.around (around_of_step hi hk h trivial)
  | build fullRefresh =>
    simp only [SalesBuild.step] at h
    split at h
    · cases h
      exact hi.stepBuild fullRefresh
    · cases h
  | conform growth =>
    simp only [SalesBuild.step] at h
    split at h
    · next hphase =>
      cases h
      exact hi.stepConform hphase growth
    · cases h
  | startWrite =>
    simp only [SalesBuild.step] at h
    split at h
    · next hphase =>
      cases h
      simp only [Keeps, hphase, ListsKept] at hk
      exact hi.startWrite hphase hk
    · cases h
      exact hi.setPhase _ (fun _ hm => by cases hm) trivial
    · cases h
  | commitWrite =>
    simp only [SalesBuild.step] at h
    split at h
    · next hphase =>
      cases h
      exact hi.commitWrite hphase
    · cases h
  | capture =>
    simp only [SalesBuild.step] at h
    split at h
    · next hphase =>
      cases h
      simp only [Keeps, hphase, InputsKept] at hk
      exact hi.capture hphase _ rfl hk
    · cases h
  | logWrite =>
    simp only [SalesBuild.step] at h
    split at h
    · next hphase =>
      cases h
      exact hi.logWrite hphase
    · cases h
      exact hi.logSkip _
    · cases h
  | fail =>
    simp only [SalesBuild.step] at h
    split at h
    · cases h
    · cases h
      exact hi.setPhase _ (fun _ hm => by cases hm) trivial

/-- **Lost-update freedom**: along the steps that meet `Keeps`, whenever
`build_reason` is `none` the written tables were computed from what is there. -/
theorem silent_current {mode : Mode} {fullRefresh : Bool} {st st' : State V C M}
    {as : List (Action V C)} (h₀ : Init st) (h : Run (step mode) Keeps st as st')
    (hnone : buildReason mode fullRefresh st' = none) :
    ∃ c, st'.written = some c ∧ Current st' c := by
  obtain ⟨w, d, hq⟩ := quiet_of_none hnone
  exact (h.invariant (fun _ _ _ hi hk hst => hi.step hk hst) (inv_of_init h₀)).quiet w d hq

/-! ## Concrete runs -/

/-- One team workbook, one company, nothing built; it is day 100. -/
def fresh : State Nat Nat Unit where
  clock := 0
  today := 100
  inputs := ⟨some ⟨7, 7, 0⟩, none, none, none, none⟩
  lists := [⟨⟨.dimCompany, "1"⟩, 1, 0⟩]
  mirror := ()
  mirrorChanged := some 0
  writeLog := []
  coreLog := []
  unlogged := []
  written := none
  phase := .idle

theorem fresh_init : Init fresh := by
  constructor <;> simp [fresh]

/-- Company 1 is changed at second 8, after the write; the next run reads it. -/
theorem silent_current_rebuilt : ∃ st',
    Run (step .incremental) Keeps fresh
      [.build false, .conform [], .tick 5, .startWrite, .commitWrite, .capture, .logWrite,
        .tick 3, .coreCommit 8 [(⟨.dimCompany, "1"⟩, 2)] [], .coreLogged, .build false,
        .conform [], .tick 1, .startWrite, .commitWrite, .capture, .logWrite] st' ∧
      buildReason .incremental false st' = none ∧
      ∃ c, st'.written = some c ∧ Current st' c := by
  have hnone : (exec (step .incremental) Keeps fresh
      [.build false, .conform [], .tick 5, .startWrite, .commitWrite, .capture, .logWrite,
        .tick 3, .coreCommit 8 [(⟨.dimCompany, "1"⟩, 2)] [], .coreLogged, .build false,
        .conform [], .tick 1, .startWrite, .commitWrite, .capture, .logWrite]).map
      (buildReason .incremental false) = some none := by decide +kernel
  obtain ⟨st', hst', hst⟩ := Option.map_eq_some_iff.mp hnone
  have hrun := (exec_eq_some _ _ _ _ _).mp hst'
  exact ⟨st', hrun, hst, silent_current fresh_init hrun hst⟩

/-- Company 1 is changed at second 5, between the conform task, which read it as it
was, and the write task, whose start is the reference. -/
def lostRun : List (Action Nat Nat) :=
  [.build false, .conform [], .tick 5, .coreCommit 5 [(⟨.dimCompany, "1"⟩, 2)] [], .coreLogged,
    .tick 1, .startWrite, .commitWrite, .capture, .logWrite]

/-- Without the condition a change is lost: `build_reason` is silent while the
tables show the company as it was. -/
theorem silent_stale : ∃ st', Init fresh ∧ FreeRun (step .incremental) fresh lostRun st' ∧
    buildReason .incremental false st' = none ∧
      ¬ ∃ c, st'.written = some c ∧ Current st' c := by
  have hnone : (exec (step .incremental) (fun _ _ => True) fresh lostRun).map (fun st =>
      decide (buildReason .incremental false st = none) &&
        decide (st.written.map (·.lists) ≠ some (listValues st.lists))) = some true := by
    decide +kernel
  obtain ⟨st', hst', hst⟩ := Option.map_eq_some_iff.mp hnone
  rw [Bool.and_eq_true, decide_eq_true_eq, decide_eq_true_eq] at hst
  refine ⟨st', fresh_init, (exec_eq_some _ _ _ _ _).mp hst', hst.1, ?_⟩
  rintro ⟨c, hc, hcur⟩
  rw [hc, Option.map_some, hcur.lists] at hst
  exact hst.2 rfl

end SalesDashboard.SalesBuild
