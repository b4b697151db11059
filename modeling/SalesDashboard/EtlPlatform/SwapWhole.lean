import SalesDashboard.EtlPlatform.SwapSafe

/-! What a call of `atomic_swap` and `atomic_swap_many` promises, when it keeps it, and
what a later call finds. -/

namespace SalesDashboard.EtlPlatform.Swap
open FailPoints Numerals

variable {ρ : Type*} {fits : Frame ρ → Bool} {chunkSize : Nat} {beforeSwap : Option (Tables ρ → Bool)}
  {frames : List (Frame ρ)} {p : Program ρ}

/-! ## What is removed -/

/-- After the clean-up no staged table is there. -/
theorem removed_of_dropStaged {names : List String} {db db' : Db ρ}
    (h : execAll exec (dropStaged names) db = some db') : ∀ t ∈ names, db'.tables (newName t) = none := by
  have hdrops : ∀ (ts : List String) (a : Db ρ), ∃ b,
      execAll exec (ts.map fun t => .dropIfExists (newName t)) a = some b ∧
        ∀ x, (a.tables x = none ∨ x ∈ ts.map newName) → b.tables x = none := by
    intro ts
    induction ts with
    | nil => exact fun a => ⟨a, rfl, fun x hx => hx.resolve_right List.not_mem_nil⟩
    | cons t ts ih =>
      intro a
      obtain ⟨b, hb, hgone⟩ := ih (a.set (newName t) none)
      refine ⟨b, ?_, ?_⟩
      · rw [List.map_cons, execAll_cons]
        exact hb
      · intro x hx
        refine hgone x ?_
        by_cases hxt : x = newName t
        · exact .inl (hxt ▸ Function.update_self _ _ _)
        · rcases hx with hx | hx
          · exact .inl ((Function.update_of_ne hxt _ _).trans hx)
          · exact .inr ((List.mem_cons.mp hx).resolve_left hxt)
  intro t ht
  obtain ⟨b, hb, hgone⟩ := hdrops names db
  unfold dropStaged at h
  rw [execAll_append, hb, Option.bind_some] at h
  obtain rfl : b = db' := Option.some.inj h
  exact hgone _ (.inr (List.mem_map_of_mem ht))

/-- Statements that are about other tables. -/
theorem execAll_other {t : String} {sts : List (Statement ρ)} (hsts : ∀ st ∈ sts, st.isRename = false ∧ st.target ≠ some t)
    {db db' : Db ρ} (h : execAll exec sts db = some db') : db'.tables t = db.tables t := by
  induction sts generalizing db with
  | nil => exact congrArg (fun d => d.tables t) (Option.some.inj h).symm
  | cons st sts ih =>
    rw [execAll_cons] at h
    obtain ⟨mid, hmid, h⟩ := Option.bind_eq_some_iff.mp h
    obtain ⟨hrename, htarget⟩ := hsts st List.mem_cons_self
    exact (ih (fun x hx => hsts x (List.mem_cons_of_mem st hx)) h).trans (exec_other hmid hrename htarget)

/-- A staging that stops before its `CREATE TABLE` leaves no staged table, if none was there
or the `DROP` of it was done. -/
theorem removed_of_stage {f : Frame ρ} {tables : Tables ρ} {done rest : List (Statement ρ)} {db : Db ρ}
    (hsplit : stage fits f = done ++ rest) (hrest : .createLike (newName f.1) f.1 ∈ rest)
    (hbefore : .dropIfExists (newName f.1) ∈ rest → tables (newName f.1) = none)
    (hdone : execAll exec done ⟨tables, []⟩ = some db) : db.tables (newName f.1) = none := by
  have hfirst : ∀ st ∈ ([.reflect f.1, .require (fits f)] : List (Statement ρ)),
      st.isRename = false ∧ st.target ≠ some (newName f.1) := by
    intro st hst
    rcases List.mem_cons.mp hst with rfl | hst
    · exact ⟨rfl, fun h => by cases h⟩
    · rw [List.mem_singleton.mp hst]
      exact ⟨rfl, fun h => by cases h⟩
  have hgone : ∀ {sts : List (Statement ρ)} {a b : Db ρ},
      (∀ st ∈ sts, st.isRename = false ∧ st.target ≠ some (newName f.1)) →
        execAll exec (.dropIfExists (newName f.1) :: sts) a = some b → b.tables (newName f.1) = none := by
    intro sts a b hsts hab
    rw [execAll_cons] at hab
    exact (execAll_other hsts hab).trans (Function.update_self _ _ _)
  have hskip : ∀ (sts : List (Statement ρ)) {a b : Db ρ},
      execAll exec (.reflect f.1 :: .require (fits f) :: sts) a = some b → ∃ mid, execAll exec sts mid = some b := by
    intro sts a b hab
    rw [execAll_cons] at hab
    obtain ⟨mid, _, hab⟩ := Option.bind_eq_some_iff.mp hab
    rw [execAll_cons] at hab
    obtain ⟨mid, _, hab⟩ := Option.bind_eq_some_iff.mp hab
    exact ⟨mid, hab⟩
  unfold stage at hsplit
  rcases done with _ | ⟨s₁, _ | ⟨s₂, _ | ⟨s₃, _ | ⟨s₄, _ | ⟨s₅, done⟩⟩⟩⟩⟩
  · rw [List.nil_append] at hsplit
    rw [← hsplit] at hbefore
    rw [← Option.some.inj hdone]
    exact hbefore (by simp)
  · simp only [List.cons_append, List.nil_append, List.cons.injEq] at hsplit
    obtain ⟨rfl, rfl⟩ := hsplit
    rw [execAll_other (fun st hst => hfirst st (List.mem_cons.mpr (.inl (List.mem_singleton.mp hst)))) hdone]
    exact hbefore (by simp)
  · simp only [List.cons_append, List.nil_append, List.cons.injEq] at hsplit
    obtain ⟨rfl, rfl, rfl⟩ := hsplit
    rw [execAll_other hfirst hdone]
    exact hbefore (by simp)
  · simp only [List.cons_append, List.nil_append, List.cons.injEq] at hsplit
    obtain ⟨rfl, rfl, rfl, rfl⟩ := hsplit
    obtain ⟨mid, hmid⟩ := hskip _ hdone
    exact hgone (fun st hst => absurd hst List.not_mem_nil) hmid
  · simp only [List.cons_append, List.nil_append, List.cons.injEq] at hsplit
    obtain ⟨rfl, rfl, rfl, rfl, rfl⟩ := hsplit
    obtain ⟨mid, hmid⟩ := hskip _ hdone
    refine hgone (fun st hst => ?_) hmid
    rw [List.mem_singleton.mp hst]
    exact ⟨rfl, fun h => newName_ne_oldName _ _ (Option.some.inj h).symm⟩
  · -- the `CREATE TABLE` is done
    simp only [List.cons_append, List.cons.injEq] at hsplit
    obtain ⟨_, _, _, _, _, hsplit⟩ := hsplit
    have hcommit : .createLike (newName f.1) f.1 ∈ ([.commit] : List (Statement ρ)) := by
      rw [hsplit]
      exact List.mem_append_right _ hrest
    cases List.mem_singleton.mp hcommit

/-! ## When a call keeps its promise -/

/-- What a swap promises of a call: the live tables change together, they hold the frames
when it returns, and are as before, without staged tables, when it raises. -/
structure AllOrNothing (frames : List (Frame ρ)) (tables : Tables ρ) (c : Call ρ) : Prop where
  together : ∀ m ∈ c.states, Untouched (namesOf frames) tables m ∨ Holds frames m
  returned : c.ending = .returned → ∀ f ∈ frames, c.tables f.1 = some f.2
  untouched : c.ending = .raised → ∀ t ∈ namesOf frames, c.tables t = tables t
  removed : c.ending = .raised → ∀ t ∈ namesOf frames, c.tables (newName t) = none

/-- A statement before the `try` that is done. -/
def Opened (p : Program ρ) (c : Call ρ) (st : Statement ρ) : Prop := st ∈ p.opening ∧ st ∉ c.opening.rest

/-- No statement fails where the functions cannot undo it. -/
structure Steady (p : Program ρ) (names : List String) (tables : Tables ρ) (c : Call ρ) : Prop where
  /-- A failure before the `try` comes before the `CREATE TABLE`, and an earlier staged
  table is dropped by then. -/
  opening : c.opening.ending = .raised → ∀ t ∈ names, ¬ Opened p c (.createLike (newName t) t) ∧
    (¬ Opened p c (.dropIfExists (newName t)) → tables (newName t) = none)
  /-- A failure under the `try` comes before the `RENAME TABLE`. -/
  body : c.body.ending = .raised → c.body.rest.any (·.isRename) = true
  cleanup : c.cleanup.ending ≠ .raised

/-- A call that ends before its `try`. -/
theorem call_opening {fates : List Fate} {tables : Tables ρ}
    (h : (runOf p.opening fates ⟨tables, []⟩).ending ≠ .returned) :
    (call p fates tables).ending = (runOf p.opening fates ⟨tables, []⟩).ending ∧
      (call p fates tables).tables = (runOf p.opening fates ⟨tables, []⟩).last.tables := by
  constructor
  · show (if (runOf p.opening fates ⟨tables, []⟩).ending ≠ .returned then _ else _) = _
    rw [if_pos h]
  · unfold Call.tables call
    simp only [if_neg h]
    rfl

/-- A call that raises in its `try`: the clean-up starts, and the process does not die in it. -/
theorem call_raised {fates : List Fate} {tables : Tables ρ}
    (hopening : (runOf p.opening fates ⟨tables, []⟩).ending = .returned)
    (h : (call p fates tables).ending = .raised) :
    (call p fates tables).cleanup = runOf p.cleanup (call p fates tables).body.fates (call p fates tables).body.last ∧
      (call p fates tables).cleanup.ending ≠ .died := by
  have hend : (call p fates tables).ending =
      if (call p fates tables).opening.ending ≠ .returned then (call p fates tables).opening.ending
      else if (call p fates tables).body.ending ≠ .raised then (call p fates tables).body.ending
      else if (call p fates tables).cleanup.ending = .died then .died else .raised := rfl
  have hopened : (call p fates tables).opening.ending = .returned := hopening
  rw [hopened, if_neg (not_not_intro rfl)] at hend
  have hbody : (call p fates tables).body.ending = .raised := by
    by_contra hne
    rw [if_pos hne] at hend
    exact hne (hend.symm.trans h)
  rw [hbody, if_neg (not_not_intro rfl)] at hend
  constructor
  · show runOf (if (call p fates tables).body.ending = .raised then p.cleanup else [])
      (call p fates tables).body.fates (call p fates tables).body.last = _
    rw [if_pos hbody]
  · intro hdied
    rw [hdied, if_pos rfl, h] at hend
    cases hend

theorem Swaps.removed (h : Swaps fits chunkSize beforeSwap frames p) {tables : Tables ρ} {fates : List Fate}
    (hsteady : Steady p (namesOf frames) tables (call p fates tables))
    (hraised : (call p fates tables).ending = .raised) :
    ∀ t ∈ namesOf frames, (call p fates tables).tables (newName t) = none := by
  obtain ⟨prepare, _, hcleanup, _, hopening⟩ := h
  by_cases hret : (runOf p.opening fates ⟨tables, []⟩).ending = .returned
  · obtain ⟨hclean, hdied⟩ := call_raised hret hraised
    have hdone : (call p fates tables).cleanup.ending = .returned := by
      cases hend : (call p fates tables).cleanup.ending with
      | returned => rfl
      | raised => exact absurd hend hsteady.cleanup
      | died => exact absurd hend hdied
    rw [hclean] at hdone
    have hall := execAll_of_returned hdone
    rw [hcleanup] at hall
    unfold Call.tables
    rw [hclean, hcleanup]
    exact removed_of_dropStaged hall
  · obtain ⟨hending, htables⟩ := call_opening hret
    rw [htables]
    rcases hopening with hnone | ⟨f, rfl, hstage⟩
    · rw [hnone] at hret
      exact absurd rfl hret
    · intro t ht
      obtain rfl : t = f.1 := List.mem_singleton.mp ht
      obtain ⟨hcreate, hdrop⟩ := hsteady.opening (hending ▸ hraised) f.1 ht
      obtain ⟨done, db, hsplit, hdone, hlast⟩ := @run_done _ _ exec Db.rollback p.opening fates (⟨tables, []⟩ : Db ρ)
      have hrest : .createLike (newName f.1) f.1 ∈ (call p fates tables).opening.rest := by
        by_contra hno
        exact hcreate ⟨hstage ▸ by simp [stage], hno⟩
      have hsame : stage fits f = done ++ (call p fates tables).opening.rest := hstage.symm.trans hsplit
      have hgone := removed_of_stage hsame hrest (fun hmem => hdrop fun hopened => hopened.2 hmem) hdone
      unfold runOf
      rcases hlast with hlast | hlast
      · rw [hlast]
        exact hgone
      · rw [hlast]
        exact hgone

/-! ## A later call -/

theorem execAll_dropOld (names : List String) (hnodup : names.Nodup) {db : Db ρ}
    (hold : ∀ t ∈ names, (db.tables (oldName t)).isSome = true) : ∃ db', execAll exec (dropOld names) db = some db' := by
  unfold dropOld
  induction names generalizing db with
  | nil => exact ⟨db, rfl⟩
  | cons t names ih =>
    obtain ⟨rows, hrows⟩ := Option.isSome_iff_exists.mp (hold t List.mem_cons_self)
    obtain ⟨hmem, hnodup⟩ := List.nodup_cons.mp hnodup
    obtain ⟨db', hdb'⟩ := @ih hnodup (db.set (oldName t) none) fun u hu => by
      have hne : oldName u ≠ oldName t := fun heq => hmem (oldName_inj heq ▸ hu)
      show (Function.update db.tables (oldName t) none (oldName u)).isSome = true
      rw [Function.update_of_ne hne]
      exact hold u (List.mem_cons_of_mem t hu)
    refine ⟨db', ?_⟩
    rw [List.map_cons, List.cons_append, execAll_cons]
    simp only [exec, hrows, Option.map_some, Option.bind_some]
    exact hdb'

theorem execAll_check {db : Db ρ} (h : ∀ accepts ∈ beforeSwap, accepts db.tables = true) :
    execAll exec (check beforeSwap) db = some db := by
  cases beforeSwap with
  | none => rfl
  | some accepts =>
    show execAll exec [.beforeSwap accepts] db = some db
    rw [execAll_cons]
    simp only [exec, h accepts rfl, if_true, Option.bind_some]
    rfl

/-- Whatever staged and old tables are left, a call that nothing disturbs swaps. -/
theorem Swaps.succeeds (h : Swaps fits chunkSize beforeSwap frames p) (hne : frames ≠ []) (hnames : Names (namesOf frames))
    {tables : Tables ρ} (hstage : ∀ f ∈ frames, Stageable fits chunkSize tables f)
    (haccepts : ∀ accepts ∈ beforeSwap, accepts (frames.foldl stagedTables tables) = true) :
    (call p [] tables).ending = .returned := by
  obtain ⟨prepare, hbody, _, hprepare, _⟩ := h
  have hstaged : execAll exec (p.opening ++ prepare) ⟨tables, []⟩ = some ⟨frames.foldl stagedTables tables, []⟩ := by
    rw [hprepare, execAll_append, execAll_prepare frames hnames, if_pos hstage, Option.bind_some]
    exact execAll_check haccepts
  have hlive : ∀ t ∈ namesOf frames, (frames.foldl stagedTables tables t).isSome = true := by
    intro t ht
    rw [foldl_staged_other frames tables fun f hf =>
      ⟨(hnames.new f.1 (List.mem_map_of_mem hf) t ht).symm, (hnames.old f.1 (List.mem_map_of_mem hf) t ht).symm⟩]
    obtain ⟨f, hf, rfl⟩ := List.mem_map.mp ht
    exact (hstage f hf).1
  obtain ⟨renamed, hrename, _, hold⟩ := @exec_rename ρ frames hne hnames ⟨frames.foldl stagedTables tables, []⟩ hlive
    (staged_foldl frames hnames tables)
  obtain ⟨db', hdropped⟩ := execAll_dropOld (namesOf frames) hnames.nodup hold
  rw [execAll_append] at hstaged
  obtain ⟨opened, hopened, hstaged⟩ := Option.bind_eq_some_iff.mp hstaged
  have hall : execAll exec p.body opened = some db' := by
    rw [hbody, execAll_append, hstaged, Option.bind_some, swap, List.singleton_append, execAll_cons]
    show (exec (.rename (renamePairs (frames.map (·.1)))) _).bind _ = _
    rw [hrename, Option.bind_some]
    exact hdropped
  obtain ⟨hret, hlast, hfates⟩ := @run_undisturbed _ _ _ Db.rollback _ _ _ hopened
  obtain ⟨hret', _, _⟩ := @run_undisturbed _ _ _ Db.rollback _ _ _ hall
  unfold call runOf
  simp only [hret, hlast, hfates, if_true, hret', ne_eq, not_true, if_false, reduceCtorEq, not_false_iff]

/-! ## Both functions -/

/-- The program of a call with these frames, of either function. -/
def Swapping (fits : Frame ρ → Bool) (chunkSize : Nat) (beforeSwap : Option (Tables ρ → Bool)) (frames : List (Frame ρ))
    (p : Program ρ) : Prop :=
  p = programOf (atomicSwapMany fits chunkSize beforeSwap frames) ∨
    ∃ f, frames = [f] ∧ p = programOf (atomicSwap fits chunkSize beforeSwap f)

/-- The call swaps, or it raises for a name and does nothing. -/
theorem Swapping.cases (h : Swapping fits chunkSize beforeSwap frames p) :
    Swaps fits chunkSize beforeSwap frames p ∨
      (p = ⟨[.require false], [], []⟩ ∧ ∃ t ∈ namesOf frames, fitsStaging t = false) := by
  rcases h with rfl | ⟨f, rfl, rfl⟩
  · cases hp : atomicSwapMany fits chunkSize beforeSwap frames with
    | some p => exact .inl (swaps_atomicSwapMany hp)
    | none =>
      refine .inr ⟨rfl, ?_⟩
      unfold atomicSwapMany at hp
      by_contra hall
      rw [if_pos (List.all_eq_true.mpr fun f hf => by
        by_contra hno
        exact hall ⟨f.1, List.mem_map_of_mem hf, Bool.eq_false_of_not_eq_true hno⟩)] at hp
      cases hp
  · cases hp : atomicSwap fits chunkSize beforeSwap f with
    | some p => exact .inl (swaps_atomicSwap hp)
    | none =>
      refine .inr ⟨rfl, f.1, List.mem_singleton_self _, ?_⟩
      unfold atomicSwap at hp
      by_contra hno
      rw [if_pos (Bool.eq_true_of_not_eq_false hno)] at hp
      cases hp

/-- A call that raises for a name does nothing. -/
theorem call_refused (fates : List Fate) (tables : Tables ρ) :
    (∀ m ∈ (call ⟨[.require false], [], []⟩ fates tables).states, m = (⟨tables, []⟩ : Db ρ)) ∧
      (call (ρ := ρ) ⟨[.require false], [], []⟩ fates tables).ending ≠ .returned ∧
      (call (ρ := ρ) ⟨[.require false], [], []⟩ fates tables).cleanup.last = ⟨tables, []⟩ := by
  cases h : attempt exec (fates.headD .ok) (.require false) (⟨tables, []⟩ : Db ρ) with
  | ok db =>
    have hexec := attempt_ok h
    cases hexec
  | error ending =>
    have hrun : runOf [.require false] fates (⟨tables, []⟩ : Db ρ) =
        ⟨[], ⟨tables, []⟩, ending, [.require false], fates.tail⟩ := run_error h []
    have hne : ending ≠ .returned := attempt_error h
    have hcall : call ⟨[.require false], [], []⟩ fates tables = (⟨⟨[], ⟨tables, []⟩, ending, [.require false], fates.tail⟩,
        ⟨[], ⟨tables, []⟩, .returned, [], fates.tail⟩, ⟨[], ⟨tables, []⟩, .returned, [], fates.tail⟩, ending⟩ : Call ρ) := by
      unfold call
      simp only [hrun, if_neg hne, if_pos hne]
      rfl
    rw [hcall]
    refine ⟨?_, hne, rfl⟩
    intro m hm
    simpa [Call.states, Run.states] using hm

theorem Swapping.whole (h : Swapping fits chunkSize beforeSwap frames p) (hnames : Names (namesOf frames))
    {tables : Tables ρ} (hlive : ∀ t ∈ namesOf frames, (tables t).isSome = true) (fates : List Fate) :
    Whole frames tables (call p fates tables) := by
  rcases h.cases with hswaps | ⟨rfl, _⟩
  · exact hswaps.whole hnames hlive fates
  · obtain ⟨hstates, hending, hlast⟩ := call_refused fates tables
    have hsame : ∀ m : Db ρ, m = ⟨tables, []⟩ → Untouched (namesOf frames) tables m := by
      rintro m rfl
      exact fun t _ => rfl
    exact ⟨fun m hm => .inl (hsame m (hstates m hm)), .inl (hsame _ hlast), fun hret => absurd hret hending,
      fun _ _ => hsame _ hlast⟩

theorem Swapping.removed (h : Swapping fits chunkSize beforeSwap frames p) {tables : Tables ρ} {fates : List Fate}
    (hsteady : Steady p (namesOf frames) tables (call p fates tables))
    (hraised : (call p fates tables).ending = .raised) :
    ∀ t ∈ namesOf frames, (call p fates tables).tables (newName t) = none := by
  rcases h.cases with hswaps | ⟨rfl, _⟩
  · exact hswaps.removed hsteady hraised
  · obtain ⟨_, hending, hlast⟩ := call_refused fates tables
    intro t ht
    have hopening : (call ⟨[.require false], [], []⟩ fates tables).opening.ending = .raised := by
      rw [← hraised]
      have hret : (runOf [.require false] fates (⟨tables, []⟩ : Db ρ)).ending ≠ .returned := by
        intro hret
        have hall := execAll_of_returned hret
        cases hall
      exact (call_opening (p := ⟨[.require false], [], []⟩) hret).1.symm
    have hbefore := (hsteady.opening hopening t ht).2 fun hopened => by cases List.mem_singleton.mp hopened.1
    unfold Call.tables
    rw [hlast]
    exact hbefore

/-- A swap that is steady is all or nothing. In any case the live tables switch together,
and a later call with the same tables succeeds. -/
theorem swap_all_or_nothing (hp : Swapping fits chunkSize beforeSwap frames p) (hnames : Names (namesOf frames))
    (tables : Tables ρ) (hlive : ∀ t ∈ namesOf frames, (tables t).isSome = true) (fates : List Fate) :
    (∀ m ∈ (call p fates tables).states, Untouched (namesOf frames) tables m ∨ Holds frames m) ∧
      (Steady p (namesOf frames) tables (call p fates tables) → AllOrNothing frames tables (call p fates tables)) ∧
      ∀ (chunkSize' : Nat) (beforeSwap' : Option (Tables ρ → Bool)) (later : List (Frame ρ)) (p' : Program ρ),
        later ≠ [] → namesOf later = namesOf frames → Swapping fits chunkSize' beforeSwap' later p' →
        (∀ f ∈ later, fitsStaging f.1 = true ∧ fits f = true ∧ 0 < chunkSize') →
        (∀ accepts ∈ beforeSwap', accepts (later.foldl stagedTables (call p fates tables).tables) = true) →
        (call p' [] (call p fates tables).tables).ending = .returned ∧
          ∀ f ∈ later, (call p' [] (call p fates tables).tables).tables f.1 = some f.2 := by
  have hwhole := hp.whole hnames hlive fates
  refine ⟨hwhole.together, fun hsteady => ?_, fun chunkSize' beforeSwap' later p' hne hsame hp' hfits haccepts => ?_⟩
  · exact ⟨hwhole.together, hwhole.returned, fun hraised => hwhole.raised hraised hsteady.body, hp.removed hsteady⟩
  · have hleft : ∀ t ∈ namesOf later, ((call p fates tables).tables t).isSome = true := by
      intro t ht
      rw [hsame] at ht
      unfold Call.tables
      rcases hwhole.last with hlast | hlast
      · rw [hlast t ht]
        exact hlive t ht
      · obtain ⟨f, hf, rfl⟩ := List.mem_map.mp ht
        rw [hlast f hf]
        rfl
    have hnames' : Names (namesOf later) := hsame ▸ hnames
    have hret : (call p' [] (call p fates tables).tables).ending = .returned := by
      rcases hp'.cases with hswaps | ⟨_, t, ht, hno⟩
      · exact hswaps.succeeds hne hnames'
          (fun f hf => ⟨hleft f.1 (List.mem_map_of_mem hf), (hfits f hf).2.1, (hfits f hf).2.2⟩) haccepts
      · obtain ⟨f, hf, rfl⟩ := List.mem_map.mp ht
        rw [(hfits f hf).1] at hno
        cases hno
    exact ⟨hret, (hp'.whole hnames' hleft []).returned hret⟩

def oneTable : Tables Nat := fun x => if x = "t" then some [1] else none

theorem fitsStaging_t : fitsStaging "t" = true := by
  unfold fitsStaging oldName
  rw [String.length_append]
  decide

/-- A check that refuses the staged table. -/
theorem swap_all_or_nothing_refused :
    AllOrNothing [("t", [2])] oneTable
      (call (programOf (atomicSwap (fun _ => true) 1 (some fun _ => false) ("t", [2]))) [] oneTable) := by
  have hnames : Names (namesOf [(("t", [2]) : Frame Nat)]) := names_single "t"
  refine (swap_all_or_nothing (.inr ⟨_, rfl, rfl⟩) hnames oneTable (fun t ht => ?_) []).2.1 ?_
  · rw [List.mem_singleton.mp ht]
    rfl
  · have hnew : newName "t" ≠ "t" := newName_ne_self "t"
    have hold : oldName "t" ≠ "t" := oldName_ne_self "t"
    have hno : newName "t" ≠ oldName "t" := newName_ne_oldName "t" "t"
    constructor <;>
      simp [programOf, atomicSwap, fitsStaging_t, call, runOf, run, attempt, exec, stage, load, swap, dropOld, dropStaged,
        check, oneTable, Db.set, Function.update, hno, hnew.symm, hold.symm, chunks, chunksFrom, Run.before, Statement.isRename, Db.rollback]

/-- The `DROP TABLE` of the old table fails behind the `RENAME TABLE`: the call raises, and
the live table has changed. -/
theorem swap_drop_old_fails :
    ¬ AllOrNothing [("t", [2])] oneTable
      (call (programOf (atomicSwap (fun _ => true) 1 none ("t", [2]))) (List.replicate 11 .ok ++ [.fails]) oneTable) := by
  intro h
  have hnew : newName "t" ≠ "t" := newName_ne_self "t"
  have hold : oldName "t" ≠ "t" := oldName_ne_self "t"
  have hno : newName "t" ≠ oldName "t" := newName_ne_oldName "t" "t"
  have hruns : (call (programOf (atomicSwap (fun _ => true) 1 none ("t", [2])))
        (List.replicate 11 .ok ++ [.fails]) oneTable).ending = .raised ∧
      (call (programOf (atomicSwap (fun _ => true) 1 none ("t", [2])))
        (List.replicate 11 .ok ++ [.fails]) oneTable).tables "t" = some [2] := by
    simp [programOf, atomicSwap, fitsStaging_t, call, runOf, run, attempt, exec, stage, load, swap, dropOld, dropStaged,
      check, renamePairs, renameOne, oneTable, Db.set, Function.update, hnew, hold, hno, hno.symm, hnew.symm, hold.symm,
      chunks, chunksFrom, Run.before, Call.tables, List.replicate, Db.rollback]
  have huntouched := h.untouched hruns.1 "t" (List.mem_singleton_self _)
  rw [hruns.2] at huntouched
  have hrows := Option.some.inj (huntouched.trans (if_pos rfl))
  cases hrows

end SalesDashboard.EtlPlatform.Swap
