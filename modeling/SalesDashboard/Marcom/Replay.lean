import SalesDashboard.Lib.Transition
import SalesDashboard.Marcom.Removal

/-! The replay law of the MARCOM store. A current row exists exactly for the keys
of the remaining successful files and holds what the latest of them states. The
law can fail after the removal of a batch between two others; it holds along every
run that removes no superseded row on which a batch in between relies. -/

namespace SalesDashboard.Marcom
open VersionChain Transition

/-! ## Removing a batch -/

@[simp] theorem reown_id (plan : BrandPlan) (b : Brand) : (reown plan b).id = b.id := by
  unfold reown; split <;> rfl

@[simp] theorem reown_name (plan : BrandPlan) (b : Brand) : (reown plan b).name = b.name := by
  unfold reown; split <;> rfl

theorem applyBrands_valid {js : JsText} {l : Lookups} {next : Nat} (hl : l.Valid js next)
    (plan : BrandPlan) (tables : TableId → TableData) :
    Lookups.Valid js { l with brands := applyBrands plan tables l.brands } next := by
  have hkeep : ∀ {β : Type} (f : Brand → β), (∀ b, f (reown plan b) = f b) →
      ((applyBrands plan tables l.brands).map f).Sublist (l.brands.map f) := by
    intro β f hf
    unfold applyBrands
    rw [List.map_map, show f ∘ reown plan = f from funext hf]
    exact List.filter_sublist.map f
  refine ⟨hl.brandIds.sublist (hkeep _ (reown_id plan)),
    hl.brandNames.sublist (hkeep _ fun b => by rw [reown_name]), ?_, hl.categoryIds,
    hl.categoryNames⟩
  intro b hb
  have hid := (hkeep _ (reown_id plan)).subset (List.mem_map_of_mem hb)
  obtain ⟨c, hc, heq⟩ := List.mem_map.mp hid
  have := hl.brandFresh c hc
  omega

/-- A brand that a row still uses keeps its name. -/
theorem applyBrands_name {js : JsText} {l : Lookups} {next : Nat} (hl : l.Valid js next)
    (plan : BrandPlan) (tables : TableId → TableData) {t : TableId}
    (hu : (adapter t).uses .brand = true) {r : Row} (hr : r ∈ (tables t).rows)
    (hj : lookupJoins l (adapter t) r = true) :
    r.brandId.bind ({ l with brands := applyBrands plan tables l.brands } : Lookups).brandName =
      r.brandId.bind l.brandName := by
  unfold lookupJoins at hj
  simp only [hu, Bool.not_true, Bool.false_or, Bool.and_eq_true] at hj
  obtain ⟨name, hname⟩ := Option.isSome_iff_exists.mp hj.1
  obtain ⟨id, hid, hname⟩ := Option.bind_eq_some_iff.mp hname
  obtain ⟨b, hb, rfl⟩ := Option.map_eq_some_iff.mp hname
  have hbid : b.id = id := by simpa using List.find?_some hb
  have hused : (tableIds.any fun t => (adapter t).uses .brand &&
      (tables t).rows.any fun r => decide (r.brandId = some b.id)) = true := by
    rw [List.any_eq_true]
    refine ⟨t, mem_tableIds t, ?_⟩
    rw [hu, Bool.true_and, List.any_eq_true]
    exact ⟨r, hr, by simpa [hbid] using hid⟩
  have hmem : ∃ b' ∈ applyBrands plan tables l.brands, b'.id = id ∧ b'.name = b.name := by
    unfold applyBrands
    refine ⟨_, List.mem_map_of_mem (List.mem_filter.mpr
      ⟨List.mem_of_find?_eq_some hb, by simp [hused]⟩), ?_⟩
    rw [reown_id, reown_name]
    exact ⟨hbid, rfl⟩
  obtain ⟨b', hb', hid', hname'⟩ := hmem
  have hl' := applyBrands_valid hl plan tables
  have hfind := brandName_of_mem hl' hb'
  rw [hid, Option.bind_some, Option.bind_some, ← hid', hfind, hname', hid', ← hbid,
    brandName_of_mem hl (List.mem_of_find?_eq_some hb)]

/-- No successful batch in between states the key of a superseded row of `B`. -/
def NoneRelies {js : JsText} (st : Store js) (B : Nat) : Prop :=
  ∀ t, ∀ r ∈ (st.tables t).rows, r.batch = B → ∀ s ∈ r.supersededBy,
    ∀ b ∈ st.batches, b.status = .success → B < b.id → b.id < s →
      ∀ file ∈ b.file, ∀ p ∈ file.tables t,
        keyOf js (adapter t) p.data ≠ rowKey js st.lookups (adapter t) r

theorem noneBetween_of_noneRelies {js : JsText} {st : Store js} {B : Nat} (h : NoneRelies st B)
    (t : TableId) : NoneBetween (versions js st.lookups (adapter t) (st.tables t).rows)
      (stated st.batches t) B := by
  rintro _ ⟨r, hr, rfl⟩ hb s hs L hBL hLs
  cases hk : stated st.batches t L (version js st.lookups (adapter t) r).key with
  | none => rfl
  | some v =>
    obtain ⟨x, hx, rfl, hsucc, file, hfile, hstates⟩ := stated_some hk
    obtain ⟨p, hp, hpk, -⟩ := states_some.mp hstates
    exact absurd hpk (h t r hr hb s hs x hx hsucc hBL hLs file hfile p hp)

theorem setStatus_ids {js : JsText} (batches : List (Batch js)) (B : Nat) (status : BatchStatus) :
    (batches.map fun b => if b.id = B then { b with status := status } else b).map (·.id) =
      batches.map (·.id) := by
  rw [List.map_map]
  apply List.map_congr_left
  intro b _
  simp only [Function.comp_apply]
  split <;> rfl

theorem setStatus_fresh {js : JsText} {batches : List (Batch js)} {n : Nat}
    (hfresh : ∀ b ∈ batches, b.id < n) (B : Nat) (status : BatchStatus) :
    ∀ b ∈ batches.map fun b => if b.id = B then { b with status := status } else b, b.id < n := by
  intro b hb
  have hmem := List.mem_map_of_mem (f := fun b : Batch js => b.id) hb
  rw [setStatus_ids] at hmem
  obtain ⟨c, hc, heq⟩ := List.mem_map.mp hmem
  have := hfresh c hc
  omega

/-- The brands that the remaining rows use keep their names. -/
theorem removeWithin_sameNames {js : JsText} {st : Store js}
    (hl : st.lookups.Valid js st.nextBrand) {t : TableId}
    (hj : ∀ r ∈ (st.tables t).rows, lookupJoins st.lookups (adapter t) r = true) (B : Nat)
    (status : BatchStatus) (laterKeys : LaterKeys) :
    SameNames js st.lookups (removeWithin st B status laterKeys).lookups t
      (applyTable (planTableOf st B laterKeys t) (st.tables t)).rows := by
  intro r' hr'
  refine version_congr (fun hu => ?_) rfl
  refine applyBrands_name hl _
    (fun t => applyTable (planTableOf st B laterKeys t) (st.tables t)) hu hr' ?_
  obtain ⟨r, hr, hfate⟩ := mem_applyTable.mp hr'
  have hjoin := hj r hr
  unfold lookupJoins at hjoin ⊢
  rwa [(rowFate_some hfate).2.1, (rowFate_some hfate).2.2]

theorem Inv.removeWithin {js : JsText} {st : Store js} (hi : Inv st) {B : Nat}
    {status : BatchStatus} (hs : status ≠ .success) {laterKeys : LaterKeys}
    (hlater : LaterSpec st.batches B laterKeys) (hrelies : NoneRelies st B) :
    Inv (removeWithin st B status laterKeys) := by
  refine ⟨applyBrands_valid hi.lookups _ _, ?_, setStatus_fresh hi.batchFresh B status, ?_, ?_⟩
  · show ((st.batches.map _).map _).Nodup
    rw [setStatus_ids]
    exact hi.batchIds
  · intro b hb hsucc
    obtain ⟨c, hc, rfl⟩ := List.mem_map.mp hb
    by_cases hc' : c.id = B
    · rw [if_pos hc'] at hsucc
      exact absurd hsucc hs
    · rw [if_neg hc'] at hsucc ⊢
      exact hi.stored c hc hsucc
  · intro t
    exact (hi.tables t).remove hs hi.batchIds hlater _ (noneBetween_of_noneRelies hrelies t)
      (removeWithin_sameNames hi.lookups (hi.tables t).joined B status laterKeys)

/-- No batch is after the latest successful one. -/
theorem le_latest {js : JsText} {st : Store js} {B : Nat} (h : latestSuccessId st = some B)
    {b : Batch js} (hb : b ∈ st.batches) (hs : b.status = .success) : b.id ≤ B := by
  unfold latestSuccessId at h
  obtain ⟨-, hmax⟩ := List.max?_eq_some_iff.mp h
  exact hmax _ (List.mem_map_of_mem (List.mem_filter.mpr ⟨hb, by simpa using hs⟩))

theorem rollbackBatch_some {js : JsText} {st st' : Store js} {B : Nat}
    (h : rollbackBatch st B = some st') :
    latestSuccessId st = some B ∧ st' = removeWithin st B .rolledBack [] := by
  unfold Marcom.rollbackBatch at h
  split at h
  · cases h
  split at h
  · cases h
  next hlatest =>
    cases h
    exact ⟨not_not.mp hlatest, rfl⟩

theorem removeBatch_some {js : JsText} {st st' : Store js} {B : Nat}
    (h : removeBatch st B = some st') :
    ∃ laterKeys, laterBatchKeys st.batches B = some laterKeys ∧
      st' = removeWithin st B .removed laterKeys := by
  unfold Marcom.removeBatch at h
  split at h
  · cases h
  split at h
  · cases h
  · next laterKeys hkeys =>
    cases h
    exact ⟨laterKeys, hkeys, rfl⟩

/-- After the latest batch there are no later keys. -/
theorem laterSpec_nil {js : JsText} {st : Store js} {B : Nat} (h : latestSuccessId st = some B) :
    LaterSpec st.batches B [] := by
  refine ⟨List.nodup_nil, (fun _ he => by cases he), ?_⟩
  intro b hb hlt hs _
  have := le_latest h hb hs
  omega

theorem Inv.rollbackBatch {js : JsText} {st st' : Store js} (hi : Inv st) {B : Nat}
    (h : rollbackBatch st B = some st') : Inv st' := by
  obtain ⟨hlatest, rfl⟩ := rollbackBatch_some h
  refine hi.removeWithin (by decide) (laterSpec_nil hlatest) ?_
  intro _ _ _ _ _ _ b hb hs hlt _
  have := le_latest hlatest hb hs
  omega

theorem Inv.removeBatch {js : JsText} {st st' : Store js} (hi : Inv st) {B : Nat}
    (hrelies : NoneRelies st B) (h : removeBatch st B = some st') : Inv st' := by
  obtain ⟨laterKeys, hkeys, rfl⟩ := removeBatch_some h
  exact hi.removeWithin (by decide) (laterBatchKeys_spec hi.batchIds hkeys) hrelies

/-! ## The law -/

/-- The file of a batch states the key in a row `p`. -/
def StatedBy {js : JsText} (b : Batch js) (t : TableId) (key : String) (p : ParsedRow) : Prop :=
  b.status = .success ∧ ∃ file, b.file = some file ∧ p ∈ file.tables t ∧
    keyOf js (adapter t) p.data = key

/-- The current row of a key, as `selectCurrentSql` reads it. -/
def CurrentFor {js : JsText} (st : Store js) (t : TableId) (key : String) (r : Row) : Prop :=
  r ∈ (st.tables t).rows ∧ r.isCurrent = true ∧ rowKey js st.lookups (adapter t) r = key

/-- The replay law: a key has a current row if and only if a successful batch has
it in its file; the current row is unique and holds, up to `normalize`, what the
latest such batch states. -/
def ReplayLaw {js : JsText} (st : Store js) : Prop :=
  ∀ t key,
    ((∃ r, CurrentFor st t key r) ↔ ∃ b ∈ st.batches, ∃ p, StatedBy b t key p) ∧
    (∀ r r', CurrentFor st t key r → CurrentFor st t key r' → r = r') ∧
    ∀ r, CurrentFor st t key r → ∀ b ∈ st.batches, ∀ p, StatedBy b t key p →
      (∀ b' ∈ st.batches, ∀ p', StatedBy b' t key p' → b'.id ≤ b.id) →
      ∀ fd ∈ (adapter t).fields,
        normalize js fd.type (readRow st.lookups (adapter t) r fd.field) =
          normalize js fd.type (p.data fd.field)

theorem Inv.stated_iff {js : JsText} {st : Store js} (hi : Inv st) {t : TableId} {b : Nat}
    {key : String} {v : List (Option String)} :
    stated st.batches t b key = some v ↔
      ∃ x ∈ st.batches, x.id = b ∧ ∃ p, StatedBy x t key p ∧ values js (adapter t) p.data = v := by
  constructor
  · intro h
    obtain ⟨x, hx, hid, hs, file, hfile, hstates⟩ := stated_some h
    obtain ⟨p, hp, hk, hv⟩ := states_some.mp hstates
    exact ⟨x, hx, hid, p, ⟨hs, file, hfile, hp, hk⟩, hv⟩
  · rintro ⟨x, hx, rfl, p, ⟨hs, file, hfile, hp, hk⟩, hv⟩
    rw [stated_of_mem hi.batchIds hx hs hfile]
    exact states_some.mpr ⟨p, hp, hk, hv⟩

/-- The latest of the batches that state a key. -/
theorem exists_latest {js : JsText} {batches : List (Batch js)} {t : TableId} {key : String}
    (h : ∃ b ∈ batches, ∃ p, StatedBy b t key p) :
    ∃ b ∈ batches, ∃ p, StatedBy b t key p ∧
      ∀ b' ∈ batches, ∀ p', StatedBy b' t key p' → b'.id ≤ b.id := by
  induction batches with
  | nil =>
    obtain ⟨b, hb, -⟩ := h
    cases hb
  | cons x xs ih =>
    by_cases hxs : ∃ b ∈ xs, ∃ p, StatedBy b t key p
    · obtain ⟨b, hb, p, hp, hmax⟩ := ih hxs
      by_cases hx : (∃ p, StatedBy x t key p) ∧ b.id ≤ x.id
      · obtain ⟨⟨q, hq⟩, hle⟩ := hx
        refine ⟨x, List.mem_cons_self, q, hq, ?_⟩
        rintro b' hb' p' hp'
        rcases List.mem_cons.mp hb' with rfl | hb'
        · exact le_rfl
        · exact (hmax b' hb' p' hp').trans hle
      · refine ⟨b, List.mem_cons_of_mem _ hb, p, hp, ?_⟩
        rintro b' hb' p' hp'
        rcases List.mem_cons.mp hb' with rfl | hb'
        · by_contra hlt
          exact hx ⟨⟨p', hp'⟩, by omega⟩
        · exact hmax b' hb' p' hp'
    · obtain ⟨b, hb, p, hp⟩ := h
      rcases List.mem_cons.mp hb with rfl | hb
      · refine ⟨b, List.mem_cons_self, p, hp, ?_⟩
        rintro b' hb' p' hp'
        rcases List.mem_cons.mp hb' with rfl | hb'
        · exact le_rfl
        · exact absurd ⟨b', hb', p', hp'⟩ hxs
      · exact absurd ⟨b, hb, p, hp⟩ hxs

/-- The chain of every table gives the law. -/
theorem Inv.replayLaw {js : JsText} {st : Store js} (hi : Inv st) : ReplayLaw st := by
  intro t key
  have ht := hi.tables t
  refine ⟨⟨?_, ?_⟩, ?_, ?_⟩
  · rintro ⟨r, hr, -, hk⟩
    have hown := ht.chain.owned (version js st.lookups (adapter t) r) ⟨r, hr, rfl⟩
    obtain ⟨x, hx, -, p, hp, -⟩ := hi.stated_iff.mp hown
    exact ⟨x, hx, p, hk ▸ hp⟩
  · intro h
    obtain ⟨b, hb, p, hp, hmax⟩ := exists_latest h
    obtain ⟨_, ⟨r, hr, rfl⟩, hk, hopen⟩ := ht.chain.exists_open
      (hi.stated_iff.mpr ⟨b, hb, rfl, p, hp, rfl⟩) (fun b' v' hb' => by
        obtain ⟨x, hx, rfl, p', hp', -⟩ := hi.stated_iff.mp hb'
        exact hmax x hx p' hp')
    exact ⟨r, hr, (ht.flag r hr).mpr hopen, hk⟩
  · rintro r r' ⟨hr, hcur, hk⟩ ⟨hr', hcur', hk'⟩
    exact ht.rows.eq_of_current hr hr' hcur hcur' (hk.trans hk'.symm)
  · rintro r ⟨hr, hcur, rfl⟩ b hb p hp hmax
    have hval := ht.chain.open_val ⟨r, hr, rfl⟩ ((ht.flag r hr).mp hcur)
      (hi.stated_iff.mpr ⟨b, hb, rfl, p, hp, rfl⟩) (fun b' v' hb' => by
        obtain ⟨x, hx, rfl, p', hp', -⟩ := hi.stated_iff.mp hb'
        exact hmax x hx p' hp')
    exact values_eq_iff.mp hval

/-- The steps that keep the law: a file spells its brands as the store does, and a
removed batch has no superseded row on which a batch in between relies. -/
def Keeps {js : JsText} (st : Store js) : Op js → Prop
  | .commit file _ => BrandsSpelled st file
  | .remove batchId => NoneRelies st batchId
  | .commitFailed _ | .rollback _ => True

instance {js : JsText} (st : Store js) (file : Accepted js) : Decidable (BrandsSpelled st file) := by
  unfold BrandsSpelled
  infer_instance

instance {js : JsText} (st : Store js) (B : Nat) : Decidable (NoneRelies st B) := by
  unfold NoneRelies
  infer_instance

instance {js : JsText} (st : Store js) : (op : Op js) → Decidable (Keeps st op)
  | .commit file _ => inferInstanceAs (Decidable (BrandsSpelled st file))
  | .remove batchId => inferInstanceAs (Decidable (NoneRelies st batchId))
  | .commitFailed _ | .rollback _ => .isTrue trivial

theorem Inv.step {js : JsText} {st st' : Store js} {op : Op js} (hi : Inv st) (hk : Keeps st op)
    (h : step st op = some st') : Inv st' := by
  cases op with
  | commit file confirm => exact hi.commitUpload hk h
  | commitFailed used =>
    cases h
    exact hi.commitFailed used
  | rollback batchId => exact hi.rollbackBatch h
  | remove batchId => exact hi.removeBatch hk h

/-- **The replay law** holds in every state reached from empty tables by steps that
meet `Keeps`. -/
theorem replay_law {js : JsText} {st st' : Store js} {ops : List (Op js)} (h₀ : Empty st)
    (h : Run step Keeps st ops st') : ReplayLaw st' :=
  (h.invariant (fun _ _ _ hi hk hst => hi.step hk hst) (inv_of_empty h₀)).replayLaw

/-! ## Concrete runs -/

/-- Lower-casing and trimming of text that is ASCII without white space around. -/
def plainText : JsText where
  toLowerCase s := String.ofList (s.toList.map Char.toLower)
  trim s := s

def emptyStore : Store plainText where
  tables _ := ⟨[], 1⟩
  lookups := ⟨[], []⟩
  nextBrand := 1
  batches := []
  nextBatch := 1

theorem emptyStore_empty : Empty emptyStore := by
  constructor <;> simp [emptyStore]
  constructor <;> simp

/-- A file with one trade row for September 2026. -/
def tradeFile (attendees : ℚ) : Accepted plainText where
  tables t := if t = .trade then [⟨1, fun f => match f with
    | .year => .num 2026
    | .month => .num 9
    | .attendeesActual => .num attendees
    | _ => .null⟩] else []
  distinct t := by split <;> simp

/-- Batch 2 corrects batch 1 and batch 3 corrects both; batch 2 and then batch 3
are removed. -/
theorem replay_law_corrections : ∃ st', Run step Keeps emptyStore
    [.commit (tradeFile 100) false, .commit (tradeFile 200) false, .commit (tradeFile 300) false,
      .remove 2, .remove 3] st' ∧ ReplayLaw st' := by
  have hsome : (exec step Keeps emptyStore
      [.commit (tradeFile 100) false, .commit (tradeFile 200) false, .commit (tradeFile 300) false,
        .remove 2, .remove 3]).isSome = true := by decide +kernel
  obtain ⟨st', hst'⟩ := Option.isSome_iff_exists.mp hsome
  have hrun := (exec_eq_some step Keeps _ _ _).mp hst'
  exact ⟨st', hrun, replay_law emptyStore_empty hrun⟩

/-- Batch 1 says 100, batch 2 restates it, batch 3 says 200. Once batches 1 and 3
are gone, batch 2 is left without its row. -/
def lostRun : List (Op plainText) :=
  [.commit (tradeFile 100) false, .commit (tradeFile 100) false, .commit (tradeFile 200) false,
    .remove 1, .rollback 3]

/-- Without the condition the law fails: a successful batch loses its data. -/
theorem replay_law_fails :
    ∃ st', Empty emptyStore ∧ FreeRun step emptyStore lostRun st' ∧ ¬ ReplayLaw st' := by
  have hrows : (exec step (fun _ _ => True) emptyStore lostRun).map
      (fun st => (st.tables .trade).rows.length) = some 0 := by decide +kernel
  have hfile : (exec step (fun _ _ => True) emptyStore lostRun).map
      (fun st => st.batches.any fun b => decide (b.status = .success) && match b.file with
        | some file => (file.tables .trade).any fun p =>
            decide (keyOf plainText (adapter .trade) p.data = "2026|9")
        | none => false) = some true := by decide +kernel
  obtain ⟨st', hst', hlen⟩ := Option.map_eq_some_iff.mp hrows
  rw [hst', Option.map_some, Option.some.injEq] at hfile
  refine ⟨st', emptyStore_empty, (exec_eq_some _ _ _ _ _).mp hst', ?_⟩
  intro hlaw
  obtain ⟨b, hb, hstates⟩ := List.any_eq_true.mp hfile
  rw [Bool.and_eq_true, decide_eq_true_eq] at hstates
  obtain ⟨hsucc, hstates⟩ := hstates
  split at hstates
  · next file hbfile =>
    obtain ⟨p, hp, hk⟩ := List.any_eq_true.mp hstates
    obtain ⟨r, hr, -⟩ := ((hlaw .trade "2026|9").1).mpr
      ⟨b, hb, p, hsucc, file, hbfile, hp, of_decide_eq_true hk⟩
    rw [List.eq_nil_of_length_eq_zero hlen] at hr
    cases hr
  · cases hstates

end SalesDashboard.Marcom
