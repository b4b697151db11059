import SalesDashboard.EtlPlatform.Swap

/-! When a swap of tables is all or nothing, whatever fails and wherever the process dies. -/

namespace SalesDashboard.EtlPlatform.Swap
open FailPoints Numerals

variable {ρ : Type*}

/-! ## Names -/

theorem newName_inj {t t' : String} (h : newName t = newName t') : t = t' := by
  have htext := congrArg String.toList h
  unfold newName at htext
  rw [String.toList_append, String.toList_append] at htext
  exact String.toList_injective (List.append_cancel_right htext)

theorem oldName_inj {t t' : String} (h : oldName t = oldName t') : t = t' := by
  have htext := congrArg String.toList h
  unfold oldName at htext
  rw [String.toList_append, String.toList_append] at htext
  exact String.toList_injective (List.append_cancel_right htext)

theorem newName_ne_oldName (t t' : String) : newName t ≠ oldName t' := by
  intro h
  have htext := congrArg String.toList h
  unfold newName oldName at htext
  rw [String.toList_append, String.toList_append] at htext
  have hsame : "__new".toList = "__old".toList := (List.append_inj' htext (by simp)).2
  simp at hsame

theorem newName_ne_self (t : String) : newName t ≠ t := by
  intro h
  have hlen := congrArg (fun s => s.toList.length) h
  unfold newName at hlen
  simp at hlen

theorem oldName_ne_self (t : String) : oldName t ≠ t := by
  intro h
  have hlen := congrArg (fun s => s.toList.length) h
  unfold oldName at hlen
  simp at hlen

/-- The tables of one call; none has the name of a staged table of the call. -/
structure Names (tables : List String) : Prop where
  nodup : tables.Nodup
  new : ∀ t ∈ tables, ∀ t' ∈ tables, newName t ≠ t'
  old : ∀ t ∈ tables, ∀ t' ∈ tables, oldName t ≠ t'

theorem names_single (t : String) : Names [t] := by
  constructor
  · exact List.nodup_singleton t
  · intro a ha b hb
    rw [List.mem_singleton.mp ha, List.mem_singleton.mp hb]
    exact newName_ne_self t
  · intro a ha b hb
    rw [List.mem_singleton.mp ha, List.mem_singleton.mp hb]
    exact oldName_ne_self t

theorem Names.tail {t : String} {ts : List String} (h : Names (t :: ts)) : Names ts :=
  ⟨h.nodup.of_cons, fun a ha b hb => h.new a (List.mem_cons_of_mem t ha) b (List.mem_cons_of_mem t hb),
    fun a ha b hb => h.old a (List.mem_cons_of_mem t ha) b (List.mem_cons_of_mem t hb)⟩

/-! ## Staging -/

/-- A frame in its staged table, and no old table. -/
def stagedTables (tables : Tables ρ) (f : Frame ρ) : Tables ρ :=
  Function.update (Function.update tables (oldName f.1) none) (newName f.1) (some f.2)

@[simp]
theorem stagedTables_new (tables : Tables ρ) (f : Frame ρ) : stagedTables tables f (newName f.1) = some f.2 :=
  Function.update_self _ _ _

@[simp]
theorem stagedTables_old (tables : Tables ρ) (f : Frame ρ) : stagedTables tables f (oldName f.1) = none := by
  unfold stagedTables
  rw [Function.update_of_ne (newName_ne_oldName _ _).symm, Function.update_self]

theorem stagedTables_other (tables : Tables ρ) (f : Frame ρ) {t : String} (hnew : t ≠ newName f.1)
    (hold : t ≠ oldName f.1) : stagedTables tables f t = tables t := by
  unfold stagedTables
  rw [Function.update_of_ne hnew, Function.update_of_ne hold]

theorem execAll_inserts {table : String} {tables : Tables ρ} {old : List ρ} (h : tables table = some old)
    (parts : List (List ρ)) (inserted : List ρ) :
    execAll exec (parts.map (.insert table)) ⟨tables, inserted⟩ = some ⟨tables, inserted ++ parts.flatten⟩ := by
  induction parts generalizing inserted with
  | nil => simp [execAll]
  | cons part parts ih =>
    rw [List.map_cons, execAll_cons]
    have hexec : exec (.insert table part) (⟨tables, inserted⟩ : Db ρ) = some ⟨tables, inserted ++ part⟩ := by
      simp only [exec, h]
      rfl
    rw [hexec, Option.bind_some, ih, List.flatten_cons, List.append_assoc]

variable {fits : Frame ρ → Bool} {chunkSize : Nat}

/-- The frame can be staged: it fits, its table is there, and there are chunks. -/
def Stageable (fits : Frame ρ → Bool) (chunkSize : Nat) (tables : Tables ρ) (f : Frame ρ) : Prop :=
  (tables f.1).isSome = true ∧ fits f = true ∧ 0 < chunkSize

instance (tables : Tables ρ) (f : Frame ρ) : Decidable (Stageable fits chunkSize tables f) :=
  inferInstanceAs (Decidable (_ ∧ _ ∧ _))

theorem execAll_load {f : Frame ρ} {tables : Tables ρ} (h : tables (newName f.1) = some []) :
    execAll exec (load chunkSize f) ⟨tables, []⟩ =
      if 0 < chunkSize then some ⟨Function.update tables (newName f.1) (some f.2), []⟩ else none := by
  unfold load
  rw [List.append_assoc, List.cons_append, execAll_cons]
  simp only [exec, h, Option.map_some, Option.bind_some, List.cons_append, List.nil_append, execAll_cons]
  by_cases hchunk : 0 < chunkSize
  · simp only [hchunk, decide_true, if_true, Option.bind_some]
    rw [execAll_append, execAll_inserts h, Option.bind_some, execAll_cons]
    simp only [exec, h, Option.map_some, Option.bind_some, List.nil_append, flatten_chunks hchunk]
    rfl
  · simp [hchunk]

/-- A frame is staged exactly when it can be. -/
theorem execAll_stage_load (f : Frame ρ) (tables : Tables ρ) :
    execAll exec (stage fits f ++ load chunkSize f) ⟨tables, []⟩ =
      if Stageable fits chunkSize tables f then some ⟨stagedTables tables f, []⟩ else none := by
  cases hlive : tables f.1 with
  | none =>
    have hno : ¬ Stageable fits chunkSize tables f := by
      rintro ⟨hsome, _⟩
      rw [hlive] at hsome
      cases hsome
    rw [if_neg hno, stage, List.cons_append, execAll_cons]
    simp only [exec, hlive, Option.map_none, Option.bind_none]
  | some rows =>
    set dropped := Function.update (Function.update tables (newName f.1) none) (oldName f.1) none with hdropped
    have hnew : dropped (newName f.1) = none := by
      rw [hdropped, Function.update_of_ne (newName_ne_oldName _ _), Function.update_self]
    have hself : dropped f.1 = some rows := by
      rw [hdropped, Function.update_of_ne (oldName_ne_self _).symm, Function.update_of_ne (newName_ne_self _).symm, hlive]
    have hstaged : Function.update (Function.update dropped (newName f.1) (some [])) (newName f.1) (some f.2) =
        stagedTables tables f := by
      rw [Function.update_idem, hdropped]
      unfold stagedTables
      rw [Function.update_comm (newName_ne_oldName _ _), Function.update_idem]
    rw [execAll_append, stage]
    by_cases hfits : fits f = true
    · have hempty : Function.update dropped (newName f.1) (some []) (newName f.1) = some [] := Function.update_self _ _ _
      have hcreate : execAll exec (stage fits f) ⟨tables, []⟩ =
          some ⟨Function.update dropped (newName f.1) (some []), []⟩ := by
        simp only [stage, execAll_cons, exec, hlive, hfits, if_true, Option.map_some, Option.bind_some, Db.set,
          ← hdropped, hnew, hself]
        rfl
      rw [← stage, hcreate, Option.bind_some, execAll_load hempty, hstaged]
      simp only [Stageable, hlive, Option.isSome_some, hfits, true_and]
    · have hno : ¬ Stageable fits chunkSize tables f := fun h => hfits h.2.1
      rw [if_neg hno]
      simp only [execAll_cons, exec, hlive, hfits, Option.map_some, Option.bind_some, Bool.false_eq_true, if_false,
        Option.bind_none]

/-- All frames of a call are staged exactly when each can be. -/
theorem execAll_prepare (frames : List (Frame ρ)) (hnames : Names (frames.map (·.1))) (tables : Tables ρ) :
    execAll exec (frames.flatMap fun f => stage fits f ++ load chunkSize f) ⟨tables, []⟩ =
      if ∀ f ∈ frames, Stageable fits chunkSize tables f then some ⟨frames.foldl stagedTables tables, []⟩ else none := by
  induction frames generalizing tables with
  | nil => rfl
  | cons f frames ih =>
    have hlive : ∀ g ∈ frames, Stageable fits chunkSize (stagedTables tables f) g ↔ Stageable fits chunkSize tables g := by
      intro g hg
      have hmem : g.1 ∈ (f :: frames).map (·.1) := List.mem_cons_of_mem _ (List.mem_map_of_mem hg)
      unfold Stageable
      rw [stagedTables_other tables f (hnames.new f.1 List.mem_cons_self g.1 hmem).symm
        (hnames.old f.1 List.mem_cons_self g.1 hmem).symm]
    rw [List.flatMap_cons, execAll_append, execAll_stage_load]
    by_cases hf : Stageable fits chunkSize tables f
    · rw [if_pos hf, Option.bind_some, ih hnames.tail, List.foldl_cons]
      by_cases hall : ∀ g ∈ frames, Stageable fits chunkSize tables g
      · rw [if_pos fun g hg => (hlive g hg).mpr (hall g hg), if_pos (List.forall_mem_cons.mpr ⟨hf, hall⟩)]
      · rw [if_neg fun h => hall fun g hg => (hlive g hg).mp (h g hg),
          if_neg fun h => hall (List.forall_mem_cons.mp h).2]
    · rw [if_neg hf, if_neg fun h => hf (List.forall_mem_cons.mp h).1]
      rfl

theorem foldl_staged_other (frames : List (Frame ρ)) (tables : Tables ρ) {t : String}
    (h : ∀ f ∈ frames, t ≠ newName f.1 ∧ t ≠ oldName f.1) : frames.foldl stagedTables tables t = tables t := by
  induction frames generalizing tables with
  | nil => rfl
  | cons f frames ih =>
    obtain ⟨hnew, hold⟩ := h f List.mem_cons_self
    rw [List.foldl_cons, ih _ fun g hg => h g (List.mem_cons_of_mem f hg), stagedTables_other tables f hnew hold]

/-- Every frame is in its staged table, and there is no old table. -/
def Staged (frames : List (Frame ρ)) (tables : Tables ρ) : Prop :=
  ∀ f ∈ frames, tables (newName f.1) = some f.2 ∧ tables (oldName f.1) = none

theorem staged_foldl (frames : List (Frame ρ)) (hnames : Names (frames.map (·.1))) (tables : Tables ρ) :
    Staged frames (frames.foldl stagedTables tables) := by
  induction frames generalizing tables with
  | nil => exact fun f hf => absurd hf List.not_mem_nil
  | cons f frames ih =>
    intro g hg
    rw [List.foldl_cons]
    rcases List.mem_cons.mp hg with rfl | hg
    · have hne : ∀ x ∈ frames, g.1 ≠ x.1 := by
        intro x hx heq
        have hmem : g.1 ∈ frames.map (·.1) := heq ▸ List.mem_map_of_mem (f := (·.1)) hx
        exact (List.nodup_cons.mp hnames.nodup).1 hmem
      constructor
      · rw [foldl_staged_other frames _ fun x hx => ⟨fun h => hne x hx (newName_inj h), newName_ne_oldName _ _⟩,
          stagedTables_new]
      · rw [foldl_staged_other frames _ fun x hx => ⟨(newName_ne_oldName _ _).symm, fun h => hne x hx (oldName_inj h)⟩,
          stagedTables_old]
    · exact ih hnames.tail _ g hg

/-! ## Renaming -/

/-- What the two pairs of a table do. -/
def swapOne (tables : Tables ρ) (t : String) : Tables ρ := fun x =>
  if x = t then tables (newName t) else if x = oldName t then tables t else if x = newName t then none else tables x

theorem renameOne_pairs {tables : Tables ρ} {t : String} (hlive : (tables t).isSome = true)
    (hnew : (tables (newName t)).isSome = true) (hold : tables (oldName t) = none) :
    [(t, oldName t), (newName t, t)].foldlM renameOne tables = some (swapOne tables t) := by
  obtain ⟨rows, hrows⟩ := Option.isSome_iff_exists.mp hlive
  obtain ⟨staged, hstaged⟩ := Option.isSome_iff_exists.mp hnew
  have hno : newName t ≠ oldName t := newName_ne_oldName t t
  have hnt : newName t ≠ t := newName_ne_self t
  have hot : oldName t ≠ t := oldName_ne_self t
  have hfirst : renameOne tables (t, oldName t) =
      some (Function.update (Function.update tables t none) (oldName t) (some rows)) := by
    simp only [renameOne, hrows, hold]
  have hsecond : renameOne (Function.update (Function.update tables t none) (oldName t) (some rows)) (newName t, t) =
      some (Function.update (Function.update (Function.update (Function.update tables t none) (oldName t) (some rows))
        (newName t) none) t (some staged)) := by
    simp only [renameOne, Function.update_of_ne hno, Function.update_of_ne hnt, Function.update_of_ne hot.symm,
      Function.update_self, hstaged]
  rw [List.foldlM_cons, hfirst, Option.bind_eq_bind, Option.bind_some, List.foldlM_cons, hsecond, Option.bind_eq_bind,
    Option.bind_some, List.foldlM_nil]
  refine congrArg some (funext fun x => ?_)
  unfold swapOne
  by_cases hxt : x = t
  · subst hxt
    rw [if_pos rfl, Function.update_self, hstaged]
  · rw [if_neg hxt, Function.update_of_ne hxt]
    by_cases hxo : x = oldName t
    · subst hxo
      rw [if_pos rfl, Function.update_of_ne hno.symm, Function.update_self, hrows]
    · rw [if_neg hxo]
      by_cases hxn : x = newName t
      · subst hxn
        rw [if_pos rfl, Function.update_self]
      · rw [if_neg hxn, Function.update_of_ne hxn, Function.update_of_ne hxo, Function.update_of_ne hxt]

theorem swapOne_other (tables : Tables ρ) {t x : String} (ht : x ≠ t) (hold : x ≠ oldName t) (hnew : x ≠ newName t) :
    swapOne tables t x = tables x := by
  unfold swapOne
  rw [if_neg ht, if_neg hold, if_neg hnew]

theorem foldl_swapOne_other (ts : List String) (tables : Tables ρ) {x : String}
    (h : ∀ t ∈ ts, x ≠ t ∧ x ≠ oldName t ∧ x ≠ newName t) : ts.foldl swapOne tables x = tables x := by
  induction ts generalizing tables with
  | nil => rfl
  | cons t ts ih =>
    obtain ⟨ht, hold, hnew⟩ := h t List.mem_cons_self
    rw [List.foldl_cons, ih _ fun u hu => h u (List.mem_cons_of_mem t hu), swapOne_other tables ht hold hnew]

/-- A table of the call does not share its three names with another. -/
theorem Names.apart {t u : String} {ts : List String} (h : Names (t :: ts)) (hu : u ∈ ts) :
    (u ≠ t ∧ u ≠ oldName t ∧ u ≠ newName t) ∧ (newName u ≠ t ∧ newName u ≠ oldName t ∧ newName u ≠ newName t) ∧
      oldName u ≠ t ∧ oldName u ≠ oldName t ∧ oldName u ≠ newName t := by
  have hmem : u ∈ t :: ts := List.mem_cons_of_mem t hu
  have hne : u ≠ t := fun heq => (List.nodup_cons.mp h.nodup).1 (heq ▸ hu)
  exact ⟨⟨hne, (h.old t List.mem_cons_self u hmem).symm, (h.new t List.mem_cons_self u hmem).symm⟩,
    ⟨h.new u hmem t List.mem_cons_self, newName_ne_oldName u t, fun heq => hne (newName_inj heq)⟩,
    h.old u hmem t List.mem_cons_self, fun heq => hne (oldName_inj heq), (newName_ne_oldName t u).symm⟩

/-- All pairs are renamed, and every table takes the rows of its staged table. -/
theorem rename_all (ts : List String) (hnames : Names ts) (tables : Tables ρ)
    (h : ∀ t ∈ ts, (tables t).isSome = true ∧ (tables (newName t)).isSome = true ∧ tables (oldName t) = none) :
    (renamePairs ts).foldlM renameOne tables = some (ts.foldl swapOne tables) ∧
      ∀ t ∈ ts, ts.foldl swapOne tables t = tables (newName t) ∧ ts.foldl swapOne tables (oldName t) = tables t := by
  induction ts generalizing tables with
  | nil => exact ⟨rfl, fun t ht => absurd ht List.not_mem_nil⟩
  | cons t ts ih =>
    obtain ⟨hlive, hnew, hold⟩ := h t List.mem_cons_self
    have hrest : ∀ u ∈ ts, swapOne tables t u = tables u ∧ swapOne tables t (newName u) = tables (newName u) ∧
        swapOne tables t (oldName u) = tables (oldName u) := by
      intro u hu
      obtain ⟨⟨h1, h2, h3⟩, ⟨h4, h5, h6⟩, h7, h8, h9⟩ := hnames.apart hu
      exact ⟨swapOne_other tables h1 h2 h3, swapOne_other tables h4 h5 h6, swapOne_other tables h7 h8 h9⟩
    obtain ⟨hfold, hall⟩ := ih hnames.tail (swapOne tables t) fun u hu => by
      obtain ⟨h1, h2, h3⟩ := hrest u hu
      rw [h1, h2, h3]
      exact h u (List.mem_cons_of_mem t hu)
    constructor
    · rw [renamePairs, List.flatMap_cons, List.foldlM_append, renameOne_pairs hlive hnew hold]
      exact hfold
    · intro u hu
      rw [List.foldl_cons]
      rcases List.mem_cons.mp hu with rfl | hu
      · have hapart := fun x (hx : x ∈ ts) => hnames.apart hx
        constructor
        · rw [foldl_swapOne_other ts _ fun x hx => ⟨(hapart x hx).1.1.symm, (hapart x hx).2.2.1.symm,
            (hapart x hx).2.1.1.symm⟩]
          exact if_pos rfl
        · rw [foldl_swapOne_other ts _ fun x hx => ⟨(hapart x hx).1.2.1.symm, (hapart x hx).2.2.2.1.symm,
            (hapart x hx).2.1.2.1.symm⟩]
          unfold swapOne
          rw [if_neg (oldName_ne_self u), if_pos rfl]
      · obtain ⟨h1, h2, _⟩ := hrest u hu
        obtain ⟨hself, hold'⟩ := hall u hu
        exact ⟨hself.trans h2, hold'.trans h1⟩

/-! ## Statements that leave the tables alone -/

/-- The table that a statement other than a `RENAME TABLE` may change. -/
def Statement.target : Statement ρ → Option String
  | .dropIfExists table | .drop table | .createLike table _ | .commitInserts table => some table
  | .reflect _ | .require _ | .insert _ _ | .commit | .beforeSwap _ | .rename _ => none

def Statement.isRename : Statement ρ → Bool
  | .rename _ => true
  | .reflect _ | .require _ | .dropIfExists _ | .drop _ | .createLike _ _ | .insert _ _ | .commitInserts _ | .commit
  | .beforeSwap _ => false

theorem exec_other {st : Statement ρ} {db db' : Db ρ} (h : exec st db = some db') (hst : st.isRename = false)
    {t : String} (ht : st.target ≠ some t) : db'.tables t = db.tables t := by
  cases st with
  | reflect table =>
    obtain ⟨_, _, rfl⟩ := Option.map_eq_some_iff.mp h
    rfl
  | require holds =>
    simp only [exec] at h
    split at h
    · cases h
      rfl
    · cases h
  | dropIfExists table =>
    cases h
    exact Function.update_of_ne (fun heq => ht (by rw [heq]; rfl)) _ _
  | drop table =>
    obtain ⟨_, _, rfl⟩ := Option.map_eq_some_iff.mp h
    exact Function.update_of_ne (fun heq => ht (by rw [heq]; rfl)) _ _
  | createLike new table =>
    simp only [exec] at h
    split at h
    · cases h
      exact Function.update_of_ne (fun heq => ht (by rw [heq]; rfl)) _ _
    · cases h
  | insert table rows =>
    obtain ⟨_, _, rfl⟩ := Option.map_eq_some_iff.mp h
    rfl
  | commitInserts table =>
    obtain ⟨_, _, rfl⟩ := Option.map_eq_some_iff.mp h
    exact Function.update_of_ne (fun heq => ht (by rw [heq]; rfl)) _ _
  | commit =>
    cases h
    rfl
  | beforeSwap accepts =>
    simp only [exec] at h
    split at h
    · cases h
      rfl
    · cases h
  | rename pairs => cases hst

/-- Statements that change staged and old tables of the call only. -/
def Aside (names : List String) (st : Statement ρ) : Prop :=
  st.isRename = false ∧ ∀ t ∈ names, st.target ≠ some t

/-- The live tables hold these rows. -/
def Holds (frames : List (Frame ρ)) (db : Db ρ) : Prop := ∀ f ∈ frames, db.tables f.1 = some f.2

/-- The live tables are as they were. -/
def Untouched (names : List String) (tables : Tables ρ) (db : Db ρ) : Prop := ∀ t ∈ names, db.tables t = tables t

theorem Aside.untouched {names : List String} {st : Statement ρ} (h : Aside names st) {tables : Tables ρ} {db db' : Db ρ}
    (hdb : Untouched names tables db) (hexec : exec st db = some db') : Untouched names tables db' := by
  intro t ht
  rw [exec_other hexec h.1 (h.2 t ht)]
  exact hdb t ht

theorem Aside.holds {frames : List (Frame ρ)} {st : Statement ρ} (h : Aside (frames.map (·.1)) st) {db db' : Db ρ}
    (hdb : Holds frames db) (hexec : exec st db = some db') : Holds frames db' := by
  intro f hf
  rw [exec_other hexec h.1 (h.2 f.1 (List.mem_map_of_mem hf))]
  exact hdb f hf

theorem aside_prepare (frames : List (Frame ρ)) (hnames : Names (frames.map (·.1))) {st : Statement ρ}
    (hst : st ∈ frames.flatMap fun f => stage fits f ++ load chunkSize f) : Aside (frames.map (·.1)) st := by
  obtain ⟨f, hf, hst⟩ := List.mem_flatMap.mp hst
  have hmem : f.1 ∈ frames.map (·.1) := List.mem_map_of_mem hf
  have hnew : ∀ t ∈ frames.map (·.1), some (newName f.1) ≠ some t := fun t ht heq =>
    hnames.new f.1 hmem t ht (Option.some.inj heq)
  have hold : ∀ t ∈ frames.map (·.1), some (oldName f.1) ≠ some t := fun t ht heq =>
    hnames.old f.1 hmem t ht (Option.some.inj heq)
  have hnone : ∀ t ∈ frames.map (·.1), none ≠ some t := fun t _ heq => by cases heq
  simp only [stage, load, List.cons_append, List.nil_append, List.mem_cons, List.mem_append, List.mem_map,
    List.not_mem_nil, or_false] at hst
  rcases hst with rfl | rfl | rfl | rfl | rfl | rfl | rfl | rfl | ⟨part, _, rfl⟩ | rfl
  · exact ⟨rfl, hnone⟩
  · exact ⟨rfl, hnone⟩
  · exact ⟨rfl, hnew⟩
  · exact ⟨rfl, hold⟩
  · exact ⟨rfl, hnew⟩
  · exact ⟨rfl, hnone⟩
  · exact ⟨rfl, hnone⟩
  · exact ⟨rfl, hnone⟩
  · exact ⟨rfl, hnone⟩
  · exact ⟨rfl, hnew⟩

theorem aside_check (names : List String) {beforeSwap : Option (Tables ρ → Bool)} {st : Statement ρ}
    (hst : st ∈ check beforeSwap) : Aside names st := by
  obtain ⟨accepts, _, rfl⟩ := Option.map_eq_some_iff.mp (Option.mem_toList.mp hst)
  exact ⟨rfl, fun t _ heq => by cases heq⟩

theorem aside_dropOld {names : List String} (hnames : Names names) {st : Statement ρ} (hst : st ∈ dropOld names) :
    Aside names st := by
  rcases List.mem_append.mp hst with hst | hst
  · obtain ⟨t, ht, rfl⟩ := List.mem_map.mp hst
    exact ⟨rfl, fun u hu heq => hnames.old t ht u hu (Option.some.inj heq)⟩
  · rw [List.mem_singleton.mp hst]
    exact ⟨rfl, fun t _ heq => by cases heq⟩

theorem aside_dropStaged {names : List String} (hnames : Names names) {st : Statement ρ}
    (hst : st ∈ dropStaged names) : Aside names st := by
  rcases List.mem_append.mp hst with hst | hst
  · obtain ⟨t, ht, rfl⟩ := List.mem_map.mp hst
    exact ⟨rfl, fun u hu heq => hnames.new t ht u hu (Option.some.inj heq)⟩
  · rw [List.mem_singleton.mp hst]
    exact ⟨rfl, fun t _ heq => by cases heq⟩

/-- Runs of statements aside leave the live tables alone. -/
theorem untouched_run {names : List String} {tables : Tables ρ} {sts : List (Statement ρ)}
    (hsts : ∀ st ∈ sts, Aside names st) (fates : List Fate) {db : Db ρ} (hdb : Untouched names tables db) :
    ∀ m ∈ (runOf sts fates db).states, Untouched names tables m := by
  unfold runOf
  refine run_keeps ?_ sts fates hdb ?_
  · exact fun _ h => h
  · exact fun st hst _ _ hs hexec => (hsts st hst).untouched hs hexec

theorem holds_run {frames : List (Frame ρ)} {sts : List (Statement ρ)}
    (hsts : ∀ st ∈ sts, Aside (frames.map (·.1)) st) (fates : List Fate) {db : Db ρ} (hdb : Holds frames db) :
    ∀ m ∈ (runOf sts fates db).states, Holds frames m := by
  unfold runOf
  refine run_keeps ?_ sts fates hdb ?_
  · exact fun _ h => h
  · exact fun st hst _ _ hs hexec => (hsts st hst).holds hs hexec

/-! ## The swap -/

/-- The staged tables take the place of the live ones. -/
theorem exec_rename {frames : List (Frame ρ)} (hne : frames ≠ []) (hnames : Names (frames.map (·.1))) {db : Db ρ}
    (hlive : ∀ t ∈ frames.map (·.1), (db.tables t).isSome = true) (hstaged : Staged frames db.tables) :
    ∃ db', exec (.rename (renamePairs (frames.map (·.1)))) db = some db' ∧ Holds frames db' ∧
      ∀ t ∈ frames.map (·.1), (db'.tables (oldName t)).isSome = true := by
  obtain ⟨hfold, hall⟩ := rename_all (frames.map (·.1)) hnames db.tables fun t ht => by
    obtain ⟨f, hf, rfl⟩ := List.mem_map.mp ht
    rw [(hstaged f hf).1]
    exact ⟨hlive _ ht, rfl, (hstaged f hf).2⟩
  refine ⟨{ db with tables := (frames.map (·.1)).foldl swapOne db.tables }, ?_, ?_, ?_⟩
  · have hpairs : (renamePairs (frames.map (·.1))).isEmpty = false := by
      obtain ⟨f, rest, rfl⟩ := List.exists_cons_of_ne_nil hne
      rfl
    simp only [exec, hpairs, Bool.false_eq_true, if_false, hfold, Option.map_some]
  · intro f hf
    show (frames.map (·.1)).foldl swapOne db.tables f.1 = _
    rw [(hall f.1 (List.mem_map_of_mem hf)).1]
    exact (hstaged f hf).1
  · intro t ht
    show ((frames.map (·.1)).foldl swapOne db.tables (oldName t)).isSome = true
    rw [(hall t ht).2]
    exact hlive t ht

theorem any_isRename_dropOld (names : List String) : ∀ st ∈ (dropOld names : List (Statement ρ)), st.isRename = false := by
  intro st hst
  rcases List.mem_append.mp hst with hst | hst
  · obtain ⟨t, _, rfl⟩ := List.mem_map.mp hst
    rfl
  · rw [List.mem_singleton.mp hst]
    rfl

/-- The statement that ended a run is one of its statements. -/
theorem rest_subset (sts : List (Statement ρ)) (fates : List Fate) (db : Db ρ) :
    ∀ st ∈ (runOf sts fates db).rest, st ∈ sts := by
  unfold runOf
  induction sts generalizing fates db with
  | nil => exact fun st hst => hst
  | cons st sts ih =>
    cases h : attempt exec (fates.headD .ok) st db with
    | ok db' =>
      rw [run_ok h]
      exact fun x hx => List.mem_cons_of_mem st (ih _ _ x hx)
    | error ending =>
      rw [run_error h]
      exact fun x hx => hx

theorem swap_run {frames : List (Frame ρ)} (hnames : Names (frames.map (·.1))) {tables : Tables ρ} {db : Db ρ}
    (hold : Untouched (frames.map (·.1)) tables db) (hlive : ∀ t ∈ frames.map (·.1), (tables t).isSome = true)
    (hstaged : Staged frames db.tables) (fates : List Fate) :
    (∀ m ∈ (runOf (swap (frames.map (·.1))) fates db).states, Untouched (frames.map (·.1)) tables m ∨ Holds frames m) ∧
      ((runOf (swap (frames.map (·.1))) fates db).ending = .returned →
        Holds frames (runOf (swap (frames.map (·.1))) fates db).last) ∧
      ((runOf (swap (frames.map (·.1))) fates db).rest.any (·.isRename) = true →
        Untouched (frames.map (·.1)) tables (runOf (swap (frames.map (·.1))) fates db).last) := by
  rcases eq_or_ne frames [] with rfl | hne
  · exact ⟨fun m _ => .inl (List.forall_mem_nil _), fun _ => List.forall_mem_nil _, fun _ => List.forall_mem_nil _⟩
  obtain ⟨db', hexec, hnew, _⟩ := exec_rename hne hnames (fun t ht => by rw [hold t ht]; exact hlive t ht) hstaged
  unfold runOf swap
  rw [List.singleton_append]
  cases h : attempt exec (fates.headD .ok) (.rename (renamePairs (frames.map (·.1)))) db with
  | error ending =>
    rw [run_error h]
    refine ⟨?_, fun hret => absurd hret (attempt_error h), fun _ => hold⟩
    intro m hm
    rw [List.mem_singleton.mp hm]
    exact .inl hold
  | ok after =>
    rw [run_ok h]
    obtain rfl : after = db' := Option.some.inj ((attempt_ok h).symm.trans hexec)
    have hstates := holds_run (fun st hst => aside_dropOld hnames hst) fates.tail hnew
    have hlast := hstates _ (last_mem_states _)
    refine ⟨?_, fun _ => hlast, ?_⟩
    · intro m hm
      rcases List.mem_cons.mp hm with rfl | hm
      · exact .inr hnew
      · exact .inr (hstates m hm)
    · intro hany
      obtain ⟨st, hst, hrename⟩ := List.any_eq_true.mp hany
      rw [any_isRename_dropOld _ st (rest_subset _ _ _ st hst)] at hrename
      cases hrename

/-! ## Calls -/

def namesOf (frames : List (Frame ρ)) : List String := frames.map (·.1)

/-- A program that stages frames, checks them and swaps them, with all or some of the
staging under the `try`. -/
def Swaps (fits : Frame ρ → Bool) (chunkSize : Nat) (beforeSwap : Option (Tables ρ → Bool)) (frames : List (Frame ρ))
    (p : Program ρ) : Prop :=
  ∃ prepare, p.body = prepare ++ swap (namesOf frames) ∧ p.cleanup = dropStaged (namesOf frames) ∧
    p.opening ++ prepare = frames.flatMap (fun f => stage fits f ++ load chunkSize f) ++ check beforeSwap ∧
    (p.opening = [] ∨ ∃ f, frames = [f] ∧ p.opening = stage fits f)

variable {beforeSwap : Option (Tables ρ → Bool)} {frames : List (Frame ρ)} {p : Program ρ}

theorem swaps_atomicSwap {f : Frame ρ} (h : atomicSwap fits chunkSize beforeSwap f = some p) :
    Swaps fits chunkSize beforeSwap [f] p := by
  unfold atomicSwap at h
  split at h
  · cases h
    refine ⟨load chunkSize f ++ check beforeSwap, rfl, rfl, ?_, .inr ⟨f, rfl, rfl⟩⟩
    rw [List.flatMap_singleton, ← List.append_assoc]
  · cases h

theorem swaps_atomicSwapMany (h : atomicSwapMany fits chunkSize beforeSwap frames = some p) :
    Swaps fits chunkSize beforeSwap frames p := by
  unfold atomicSwapMany at h
  split at h
  · cases h
    exact ⟨_, rfl, rfl, rfl, .inl rfl⟩
  · cases h

theorem aside_prepared (hnames : Names (namesOf frames)) {prepare : List (Statement ρ)}
    (hprepare : p.opening ++ prepare = frames.flatMap (fun f => stage fits f ++ load chunkSize f) ++ check beforeSwap) :
    ∀ st ∈ p.opening ++ prepare, Aside (namesOf frames) st := by
  intro st hst
  rw [hprepare] at hst
  rcases List.mem_append.mp hst with hst | hst
  · exact aside_prepare frames hnames hst
  · exact aside_check _ hst

/-- Behind all preparations every frame is staged. -/
theorem staged_of_prepared (hnames : Names (namesOf frames)) {tables : Tables ρ} {db : Db ρ}
    (h : execAll exec (frames.flatMap (fun f => stage fits f ++ load chunkSize f) ++ check beforeSwap)
      ⟨tables, []⟩ = some db) : Staged frames db.tables := by
  rw [execAll_append, execAll_prepare frames hnames] at h
  split at h
  · have hcheck : ∀ {xs : List (Statement ρ)} {a b : Db ρ}, (∀ st ∈ xs, ∃ accepts, st = .beforeSwap accepts) →
        execAll exec xs a = some b → b = a := by
      intro xs a b hxs hab
      induction xs with
      | nil => exact (Option.some.inj hab).symm
      | cons st xs ih =>
        obtain ⟨accepts, rfl⟩ := hxs st List.mem_cons_self
        rw [execAll_cons] at hab
        simp only [exec] at hab
        split at hab
        · exact ih (fun x hx => hxs x (List.mem_cons_of_mem _ hx)) hab
        · cases hab
    have hsame : db = ⟨frames.foldl stagedTables tables, []⟩ := hcheck (fun st hst => by
      obtain ⟨accepts, _, heq⟩ := Option.map_eq_some_iff.mp (Option.mem_toList.mp hst)
      exact ⟨accepts, heq.symm⟩) h
    rw [hsame]
    exact staged_foldl frames hnames tables
  · cases h

/-- What always holds of a call: the live tables change together, and they have changed
when it returns. They have not when it fails before the `RENAME TABLE`. -/
structure Whole (frames : List (Frame ρ)) (tables : Tables ρ) (c : Call ρ) : Prop where
  together : ∀ m ∈ c.states, Untouched (namesOf frames) tables m ∨ Holds frames m
  last : Untouched (namesOf frames) tables c.cleanup.last ∨ Holds frames c.cleanup.last
  returned : c.ending = .returned → Holds frames c.cleanup.last
  raised : c.ending = .raised → (c.body.ending = .raised → c.body.rest.any (·.isRename) = true) →
    Untouched (namesOf frames) tables c.cleanup.last

/-- The statements under the `try`, from where the opening ones left off. -/
theorem body_run (hnames : Names (namesOf frames)) {tables : Tables ρ} {db : Db ρ}
    (hold : Untouched (namesOf frames) tables db) (hlive : ∀ t ∈ namesOf frames, (tables t).isSome = true)
    {prepare : List (Statement ρ)} (haside : ∀ st ∈ prepare, Aside (namesOf frames) st)
    (hstaged : ∀ db', execAll exec prepare db = some db' → Staged frames db'.tables) (fates : List Fate) :
    (∀ m ∈ (runOf (prepare ++ swap (namesOf frames)) fates db).states,
      Untouched (namesOf frames) tables m ∨ Holds frames m) ∧
      ((runOf (prepare ++ swap (namesOf frames)) fates db).ending = .returned →
        Holds frames (runOf (prepare ++ swap (namesOf frames)) fates db).last) ∧
      ((runOf (prepare ++ swap (namesOf frames)) fates db).rest.any (·.isRename) = true →
        Untouched (namesOf frames) tables (runOf (prepare ++ swap (namesOf frames)) fates db).last) := by
  have hprepare := untouched_run haside fates hold
  have hlast := hprepare _ (last_mem_states _)
  have happend : runOf (prepare ++ swap (namesOf frames)) fates db = _ :=
    run_append prepare (swap (namesOf frames)) fates db
  rw [happend]
  by_cases hret : (runOf prepare fates db).ending = .returned
  · have hstates := swap_run hnames hlast hlive (hstaged _ (execAll_of_returned hret)) (runOf prepare fates db).fates
    obtain ⟨h1, h2, h3, h4⟩ := foldr_before (runOf prepare fates db).moments
      (runOf (swap (namesOf frames)) (runOf prepare fates db).fates (runOf prepare fates db).last)
    unfold runOf at hret h1 h2 h3 h4 hstates
    rw [if_pos hret, h1, h2, h3, h4]
    refine ⟨?_, hstates.2.1, hstates.2.2⟩
    intro m hm
    rcases List.mem_append.mp hm with hm | hm
    · exact .inl (hprepare m (List.mem_append_left _ hm))
    · exact hstates.1 m hm
  · rw [show run exec Db.rollback prepare fates db = runOf prepare fates db from rfl, if_neg hret]
    exact ⟨fun m hm => .inl (hprepare m hm), fun h => absurd h hret, fun _ => hlast⟩

theorem Swaps.whole (h : Swaps fits chunkSize beforeSwap frames p) (hnames : Names (namesOf frames))
    {tables : Tables ρ} (hlive : ∀ t ∈ namesOf frames, (tables t).isSome = true) (fates : List Fate) :
    Whole frames tables (call p fates tables) := by
  obtain ⟨prepare, hbody, hcleanup, hprepare, _⟩ := h
  have haside := aside_prepared hnames hprepare
  set o := runOf p.opening fates ⟨tables, []⟩ with ho
  have hopening : ∀ m ∈ o.states, Untouched (namesOf frames) tables m :=
    untouched_run (fun st hst => haside st (List.mem_append_left _ hst)) fates fun t _ => rfl
  have hfirst := hopening _ (last_mem_states o)
  by_cases hret : o.ending = .returned
  · -- the statements under the `try` are reached
    set b := runOf (prepare ++ swap (namesOf frames)) o.fates o.last with hb
    obtain ⟨hstates, hdone, hbefore⟩ := body_run hnames hfirst hlive
      (fun st hst => haside st (List.mem_append_right _ hst)) (fun db' hdb' => by
        have hall : execAll exec (frames.flatMap (fun f => stage fits f ++ load chunkSize f) ++ check beforeSwap)
            ⟨tables, []⟩ = some db' := by
          rw [← hprepare, execAll_append, execAll_of_returned hret]
          exact hdb'
        exact staged_of_prepared hnames hall) o.fates
    rw [← hb] at hstates hdone hbefore
    set c := runOf (if b.ending = .raised then dropStaged (namesOf frames) else []) b.fates b.last with hc
    have hcall : call p fates tables = ⟨o, b, c, if b.ending ≠ .raised then b.ending
        else if c.ending = .died then .died else .raised⟩ := by
      unfold call
      simp only [← ho, hret, if_true, ne_eq, not_true, if_false, hbody, ← hb, hcleanup, ← hc]
    have hclean : ∀ st ∈ (if b.ending = .raised then dropStaged (namesOf frames) else [] : List (Statement ρ)),
        Aside (namesOf frames) st := by
      intro st hst
      split at hst
      · exact aside_dropStaged hnames hst
      · cases hst
    have huntouched : Untouched (namesOf frames) tables b.last → ∀ m ∈ c.states, Untouched (namesOf frames) tables m :=
      fun hlast => untouched_run hclean b.fates hlast
    have hholds : Holds frames b.last → ∀ m ∈ c.states, Holds frames m := fun hlast => holds_run hclean b.fates hlast
    have hthrough : ∀ m ∈ c.states, Untouched (namesOf frames) tables m ∨ Holds frames m := by
      rcases hstates _ (last_mem_states b) with hlast | hlast
      · exact fun m hm => .inl (huntouched hlast m hm)
      · exact fun m hm => .inr (hholds hlast m hm)
    rw [hcall]
    constructor
    · intro m hm
      rcases List.mem_append.mp hm with hm | hm
      · rcases List.mem_append.mp hm with hm | hm
        · exact .inl (hopening m hm)
        · exact hstates m hm
      · exact hthrough m hm
    · exact hthrough _ (last_mem_states c)
    · intro hend
      have hbret : b.ending = .returned := by
        by_contra hne
        by_cases hraised : b.ending = .raised
        · simp only [hraised, ne_eq, not_true, if_false] at hend
          split at hend <;> cases hend
        · simp only [ne_eq, hraised, not_false_iff, if_true] at hend
          exact hne hend
      exact hholds (hdone hbret) _ (last_mem_states c)
    · intro hend hbefore'
      have hraised : b.ending = .raised := by
        by_contra hne
        simp only [ne_eq, hne, not_false_iff, if_true] at hend
      exact huntouched (hbefore (hbefore' hraised)) _ (last_mem_states c)
  · -- the call ends in the statements before
    have hcall : call p fates tables = ⟨o, ⟨[], o.last, .returned, [], o.fates⟩, ⟨[], o.last, .returned, [], o.fates⟩,
        o.ending⟩ := by
      unfold call
      simp only [← ho, hret, if_false, ne_eq, not_false_iff, if_true]
      rfl
    have hlast : ∀ m ∈ (⟨[], o.last, .returned, [], o.fates⟩ : Run (Db ρ) (Statement ρ)).states,
        Untouched (namesOf frames) tables m := by
      intro m hm
      rw [List.mem_singleton.mp hm]
      exact hfirst
    rw [hcall]
    constructor
    · intro m hm
      rcases List.mem_append.mp hm with hm | hm
      · rcases List.mem_append.mp hm with hm | hm
        · exact .inl (hopening m hm)
        · exact .inl (hlast m hm)
      · exact .inl (hlast m hm)
    · exact .inl hfirst
    · exact fun hend => absurd hend hret
    · exact fun _ _ => hfirst

end SalesDashboard.EtlPlatform.Swap
