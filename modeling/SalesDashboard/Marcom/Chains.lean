import SalesDashboard.Marcom.Replay

/-! The version chains of the MARCOM tables. Whatever is imported, rolled back and
removed, one batch at a time, the rows of each key follow one another by
`superseded_by_batch`, and the chain ends at the single current row of the key. -/

namespace SalesDashboard.Marcom
open VersionChain Transition Relation

/-! ## Stored rows keep the keys of the file -/

/-- What the keys rely on: letter case is independent of the white space around a
text. -/
structure JsText.Lawful (js : JsText) : Prop where
  trim_empty : js.trim "" = ""
  lower_trim : ∀ s, js.toLowerCase (js.trim s) = js.trim (js.toLowerCase s)

/-- What the parser promises of a file without error issues: no row lacks its
brand. -/
def Parsed {js : JsText} (file : Accepted js) : Prop :=
  ∀ t, (adapter t).uses .brand = true → ∀ p ∈ file.tables t, p.data .brand ≠ .null

/-- The part of a key that a brand makes up. -/
theorem lower_normalize_brand {js : JsText} (hjs : js.Lawful) {c : Cell} (hc : c ≠ .null) :
    js.toLowerCase ((normalize js .brand c).getD "") = js.trim (js.toLowerCase c.toText) := by
  rw [← hjs.lower_trim]
  cases c with
  | null => exact absurd rfl hc
  | num q => rfl
  | text s =>
    by_cases hs : s = ""
    · subst hs
      simp [normalize, Cell.toText, hjs.trim_empty]
    · simp [normalize, hs]

section Key
variable {js : JsText} {l : Lookups} {t : TableId} {batchId nextBrand : Nat} {data : Data} {n : Row}

/-- A stored row has the key of the file row, however the brand is spelled. -/
theorem Inserted.rowKey_eq (hjs : js.Lawful) (hn : Inserted js l (adapter t) batchId data n)
    (hl : l.Valid js nextBrand) (hbrand : (adapter t).uses .brand = true → data .brand ≠ .null)
    (hcat : (adapter t).uses .category = true →
      ∃ c ∈ l.categories, data .category = .text c.name) :
    rowKey js l (adapter t) n = keyOf js (adapter t) data := by
  unfold rowKey keyOf
  congr 1
  apply List.map_congr_left
  intro k hk
  obtain ⟨fd, hfd, rfl⟩ := keyFields_subset t k hk
  have htype : (adapter t).typeOf fd.field = fd.type := by
    unfold Adapter.typeOf
    rw [find_field t fd hfd]
    rfl
  rw [htype, readRow_field l t n fd hfd]
  unfold selectCol
  split
  · next hb =>
    obtain ⟨hfield, hu⟩ := (lookup_field t fd hfd).1 hb
    obtain ⟨id, hid, hrow⟩ := hn.brand hu
    obtain ⟨b, -, hlow, hname⟩ := exists_of_brandId hl hid
    have hne : (Cell.text b.name) ≠ .null := by simp
    simp only [hrow, Option.bind_some, hname, Option.map_some, Option.getD_some, hb, hfield]
    rw [lower_normalize_brand hjs hne, lower_normalize_brand hjs (hbrand hu), ← hlow]
    rfl
  · next hc =>
    obtain ⟨hfield, hu⟩ := (lookup_field t fd hfd).2 hc
    obtain ⟨c, hc', hdata⟩ := hcat hu
    obtain ⟨id, hid, hrow⟩ := hn.category hu
    rw [hdata] at hid
    simp [hrow, categoryName_categoryId hl hc' hid, hfield, hdata]
  · rw [hn.cells]
    unfold storedCell
    rw [find_field t fd hfd]
    show js.toLowerCase ((normalize js fd.type (toDb fd.type (data fd.field))).getD "") = _
    rw [normalize_toDb]

theorem Inserted.lookupJoins_eq (hn : Inserted js l (adapter t) batchId data n)
    (hl : l.Valid js nextBrand) (hcat : (adapter t).uses .category = true →
      ∃ c ∈ l.categories, data .category = .text c.name) :
    lookupJoins l (adapter t) n = true := by
  unfold lookupJoins
  rw [Bool.and_eq_true, Bool.or_eq_true, Bool.or_eq_true]
  constructor
  · cases hu : (adapter t).uses .brand with
    | false => exact .inl rfl
    | true =>
      obtain ⟨id, hid, hrow⟩ := hn.brand hu
      obtain ⟨b, -, -, hname⟩ := exists_of_brandId hl hid
      exact .inr (by simp [hrow, hname])
  · cases hu : (adapter t).uses .category with
    | false => exact .inl rfl
    | true =>
      obtain ⟨c, hc, hdata⟩ := hcat hu
      obtain ⟨id, hid, hrow⟩ := hn.category hu
      rw [hdata] at hid
      exact .inr (by simp [hrow, categoryName_categoryId hl hc hid])

end Key

/-! ## The invariant -/

/-- Every row belongs to a successful batch. -/
def Owned {js : JsText} (batches : List (Batch js)) (rows : List Row) : Prop :=
  ∀ r ∈ rows, ∃ b ∈ batches, b.id = r.batch ∧ b.status = .success

structure ChainInv {js : JsText} (st : Store js) : Prop where
  lookups : st.lookups.Valid js st.nextBrand
  batchIds : (st.batches.map (·.id)).Nodup
  batchFresh : ∀ b ∈ st.batches, b.id < st.nextBatch
  rows : ∀ t, RowsInv js st.lookups t (st.tables t)
  owned : ∀ t, Owned st.batches (st.tables t).rows

theorem chainInv_of_empty {js : JsText} {st : Store js} (h : Empty st) : ChainInv st := by
  have hi := inv_of_empty h
  refine ⟨hi.lookups, hi.batchIds, hi.batchFresh, fun t => (hi.tables t).rows, ?_⟩
  intro t r hr
  rw [h.tables t] at hr
  cases hr

section Steps
variable {js : JsText} {st st' : Store js}

theorem Owned.append {batches : List (Batch js)} {rows : List Row} (h : Owned batches rows)
    (b : Batch js) : Owned (batches ++ [b]) rows := by
  intro r hr
  obtain ⟨x, hx, hid, hs⟩ := h r hr
  exact ⟨x, List.mem_append_left _ hx, hid, hs⟩

theorem ChainInv.commitUpload (hjs : js.Lawful) (hi : ChainInv st) {file : Accepted js}
    {confirm : Bool} (hp : Parsed file) (h : commitUpload st file confirm = some st') :
    ChainInv st' := by
  have him := commitUpload_some h
  have hl := him.valid hi.lookups
  obtain ⟨unchanged, hbatches, -⟩ := him.batches
  have hread : ∀ t, ReadsKeys js st'.lookups t file st.nextBatch := by
    intro t p hmem n hn
    exact ⟨hn.rowKey_eq hjs hl (fun hu => hp t hu p hmem) (fun hu => him.category hu hmem),
      hn.lookupJoins_eq hl (fun hu => him.category hu hmem)⟩
  have hcommit := fun t => (hi.rows t).commit (hread t) (him.sameNames (hi.rows t).joined)
    (fun r hr => by
      obtain ⟨b, hb, hid, -⟩ := hi.owned t r hr
      rw [← hid]
      exact hi.batchFresh b hb) (him.written t)
  refine ⟨hl, ?_, ?_, ?_, ?_⟩
  · rw [hbatches]
    exact nodup_newBatch hi.batchIds hi.batchFresh le_rfl
  · rw [hbatches, him.nextBatch]
    exact lt_newBatch hi.batchFresh le_rfl
  · intro t
    obtain ⟨_, -, hc⟩ := hcommit t
    exact hc.rows
  · intro t r hr
    obtain ⟨_, -, hc⟩ := hcommit t
    rw [hbatches]
    rcases hc.owned r hr with hb | ⟨o, ho, hb⟩
    · exact ⟨_, List.mem_append_right _ List.mem_cons_self, hb.symm, rfl⟩
    · obtain ⟨x, hx, hid, hs⟩ := hi.owned t o ho
      exact ⟨x, List.mem_append_left _ hx, hid.trans hb.symm, hs⟩

theorem ChainInv.commitFailed (hi : ChainInv st) (used : Nat) : ChainInv (commitFailed st used) where
  lookups := hi.lookups
  batchIds := nodup_newBatch hi.batchIds hi.batchFresh (Nat.le_add_right _ _)
  batchFresh := lt_newBatch hi.batchFresh (b := ⟨st.nextBatch + used, .failed, none, 0⟩)
    (Nat.le_add_right _ _)
  rows := hi.rows
  owned t := (hi.owned t).append _

/-- What belongs to another batch keeps its owner. -/
theorem owned_setStatus {batches : List (Batch js)} {B : Nat} {status : BatchStatus} {b : Batch js}
    (hb : b ∈ batches) (hne : b.id ≠ B) :
    b ∈ batches.map fun b => if b.id = B then { b with status := status } else b := by
  have := List.mem_map_of_mem
    (f := fun b : Batch js => if b.id = B then { b with status := status } else b) hb
  simpa [hne] using this

theorem ChainInv.removeWithin (hi : ChainInv st) {B : Nat} (status : BatchStatus)
    {laterKeys : LaterKeys} (hlater : LaterSpec st.batches B laterKeys) :
    ChainInv (removeWithin st B status laterKeys) := by
  refine ⟨applyBrands_valid hi.lookups _ _, ?_, setStatus_fresh hi.batchFresh B status, ?_, ?_⟩
  · show ((st.batches.map _).map _).Nodup
    rw [setStatus_ids]
    exact hi.batchIds
  · intro t
    exact (hi.rows t).remove hlater _
      (removeWithin_sameNames hi.lookups (hi.rows t).joined B status laterKeys)
  · intro t r' hr'
    obtain ⟨r, hr, hfate⟩ := mem_applyTable.mp hr'
    by_cases hb : r.batch = B
    -- the row was handed over to a later batch
    · have hfate : rowFate (tablePlan js st.lookups t (st.tables t).rows B laterKeys _) r =
        some r' := hfate
      rw [rowFate_own (hi.rows t) laterKeys _ hr hb] at hfate
      split at hfate
      · obtain ⟨L, hL, rfl⟩ := Option.map_eq_some_iff.mp hfate
        obtain ⟨⟨e, he, rfl, -⟩, -⟩ := laterOwner_some hlater.nodup hL
        obtain ⟨b, hmem, hbe, hlt, hs, -⟩ := hlater.sound e he
        exact ⟨b, owned_setStatus hmem (by omega), hbe, hs⟩
      · cases hfate
    · obtain ⟨b, hmem, hbr, hs⟩ := hi.owned t r hr
      have hbatch : r'.batch = r.batch := by
        by_cases hsup : r.supersededBy = some B
        · have hfate : rowFate (tablePlan js st.lookups t (st.tables t).rows B laterKeys _) r =
            some r' := hfate
          rw [rowFate_earlier (hi.rows t) laterKeys _ hr hb hsup] at hfate
          split at hfate <;> cases hfate <;> rfl
        · have hfate : rowFate (tablePlan js st.lookups t (st.tables t).rows B laterKeys _) r =
            some r' := hfate
          rw [rowFate_other (hi.rows t) laterKeys _ hr hb hsup] at hfate
          cases hfate
          rfl
      exact ⟨b, owned_setStatus hmem (by omega), hbr.trans hbatch.symm, hs⟩

theorem ChainInv.step (hjs : js.Lawful) (hi : ChainInv st) {op : Op js}
    (hp : ∀ file confirm, op = .commit file confirm → Parsed file) (h : step st op = some st') :
    ChainInv st' := by
  cases op with
  | commit file confirm => exact hi.commitUpload hjs (hp file confirm rfl) h
  | commitFailed used =>
    cases h
    exact hi.commitFailed used
  | rollback batchId =>
    obtain ⟨hlatest, rfl⟩ := rollbackBatch_some h
    exact hi.removeWithin .rolledBack (laterSpec_nil hlatest)
  | remove batchId =>
    obtain ⟨laterKeys, hkeys, rfl⟩ := removeBatch_some h
    exact hi.removeWithin .removed (laterBatchKeys_spec hi.batchIds hkeys)

end Steps

/-! ## The chains -/

/-- The rows of a key, as `removal.ts` reads them. -/
def rowsOf {js : JsText} (st : Store js) (t : TableId) (key : String) : List Row :=
  (st.tables t).rows.filter fun r => rowKey js st.lookups (adapter t) r = key

/-- `r'` is the row of the same key in the batch that superseded `r`. -/
def SupersededByRow {js : JsText} (st : Store js) (t : TableId) (r r' : Row) : Prop :=
  r' ∈ rowsOf st t (rowKey js st.lookups (adapter t) r) ∧ r.supersededBy = some r'.batch

/-- The version chains of every table. -/
structure VersionChains {js : JsText} (st : Store js) : Prop where
  single : ∀ t key, ((rowsOf st t key).filter (·.isCurrent)).length ≤ 1
  superseded : ∀ t, ∀ r ∈ (st.tables t).rows, r.isCurrent = false →
    ∃ s, r.supersededBy = some s ∧ r.batch < s ∧ statusOf st s = some .success ∧
      ((rowsOf st t (rowKey js st.lookups (adapter t) r)).filter (·.batch = s)).length = 1
  current : ∀ t, ∀ r ∈ (st.tables t).rows, r.isCurrent = true → r.supersededBy = none
  live : ∀ t, ∀ r ∈ (st.tables t).rows, statusOf st r.batch = some .success
  rising : ∀ t, ∀ r ∈ (st.tables t).rows, ∀ r', SupersededByRow st t r r' → r.batch < r'.batch
  /-- Following the rows from `r` ends at the current row of its key. -/
  ends : ∀ t, ∀ r ∈ (st.tables t).rows,
    ∃ c ∈ rowsOf st t (rowKey js st.lookups (adapter t) r), c.isCurrent = true ∧
      ReflTransGen (SupersededByRow st t) r c ∧
      ∀ r', ReflTransGen (SupersededByRow st t) r r' → ReflTransGen (SupersededByRow st t) r' c

section Chains
variable {js : JsText} {st : Store js}

theorem mem_rowsOf {t : TableId} {key : String} {r : Row} :
    r ∈ rowsOf st t key ↔
      r ∈ (st.tables t).rows ∧ rowKey js st.lookups (adapter t) r = key := by
  unfold rowsOf
  rw [List.mem_filter, decide_eq_true_eq]

theorem length_le_one {α : Type} {xs : List α} (hn : xs.Nodup) (h : ∀ x ∈ xs, ∀ y ∈ xs, x = y) :
    xs.length ≤ 1 := by
  match xs with
  | [] => exact Nat.zero_le _
  | [_] => exact le_rfl
  | x :: y :: zs =>
    have hxy := h x List.mem_cons_self y (List.mem_cons_of_mem _ List.mem_cons_self)
    exact absurd (hxy ▸ List.mem_cons_self) (List.nodup_cons.mp hn).1

theorem ChainInv.statusOf_eq (hi : ChainInv st) {b : Batch js} (hb : b ∈ st.batches) :
    statusOf st b.id = some b.status := by
  unfold statusOf
  rw [(Keyed.find?_eq_some_iff hi.batchIds).mpr ⟨hb, rfl⟩]
  rfl

theorem ChainInv.live (hi : ChainInv st) {t : TableId} {r : Row} (hr : r ∈ (st.tables t).rows) :
    statusOf st r.batch = some .success := by
  obtain ⟨b, hb, hid, hs⟩ := hi.owned t r hr
  rw [← hid, hi.statusOf_eq hb, hs]

theorem ChainInv.nodup_rowsOf (hi : ChainInv st) (t : TableId) (key : String) (p : Row → Bool) :
    ((rowsOf st t key).filter p).Nodup :=
  ((List.Nodup.of_map _ (hi.rows t).ids).filter _).filter _

/-- A link of the versions is a link of the rows. -/
theorem supersededByRow_of_closedBy {t : TableId} {r : Row}
    {v : Version String (List (Option String))}
    (h : ClosedBy (versions js st.lookups (adapter t) (st.tables t).rows)
      (version js st.lookups (adapter t) r) v) :
    ∃ r' ∈ (st.tables t).rows, version js st.lookups (adapter t) r' = v ∧
      SupersededByRow st t r r' := by
  obtain ⟨⟨r', hr', rfl⟩, hk, hn⟩ := h
  exact ⟨r', hr', rfl, mem_rowsOf.mpr ⟨hr', hk⟩, hn⟩

theorem closedBy_of_supersededByRow {t : TableId} {r r' : Row} (h : SupersededByRow st t r r') :
    ClosedBy (versions js st.lookups (adapter t) (st.tables t).rows)
      (version js st.lookups (adapter t) r) (version js st.lookups (adapter t) r') := by
  obtain ⟨hr', hk⟩ := mem_rowsOf.mp h.1
  exact ⟨⟨r', hr', rfl⟩, hk, h.2⟩

/-- A path of the versions is a path of the rows. -/
theorem rows_reach {t : TableId} {r : Row} (hr : r ∈ (st.tables t).rows)
    {v : Version String (List (Option String))}
    (h : ReflTransGen (ClosedBy (versions js st.lookups (adapter t) (st.tables t).rows))
      (version js st.lookups (adapter t) r) v) :
    ∃ r' ∈ (st.tables t).rows, version js st.lookups (adapter t) r' = v ∧
      ReflTransGen (SupersededByRow st t) r r' := by
  induction h with
  | refl => exact ⟨r, hr, rfl, .refl⟩
  | tail _ hlink ih =>
    obtain ⟨r', -, rfl, hreach⟩ := ih
    obtain ⟨r'', hr'', hv, hnext⟩ := supersededByRow_of_closedBy hlink
    exact ⟨r'', hr'', hv, hreach.tail hnext⟩

theorem ChainInv.ends (hi : ChainInv st) {t : TableId} {r : Row} (hr : r ∈ (st.tables t).rows) :
    ∃ c ∈ rowsOf st t (rowKey js st.lookups (adapter t) r), c.isCurrent = true ∧
      ReflTransGen (SupersededByRow st t) r c ∧
      ∀ r', ReflTransGen (SupersededByRow st t) r r' → ReflTransGen (SupersededByRow st t) r' c := by
  have hlinks := (hi.rows t).links
  have hbound : ∀ v ∈ versions js st.lookups (adapter t) (st.tables t).rows,
      v.batch < st.nextBatch := by
    rintro _ ⟨o, ho, rfl⟩
    obtain ⟨b, hb, hid, -⟩ := hi.owned t o ho
    have := hi.batchFresh b hb
    show o.batch < _
    omega
  obtain ⟨_, ⟨c, hc, rfl⟩, hck, hopen, hpath⟩ := hlinks.reaches_open hbound ⟨r, hr, rfl⟩
  -- a row that reads as the version `c` is the row `c`
  have hlift : ∀ o ∈ (st.tables t).rows,
      ReflTransGen (ClosedBy (versions js st.lookups (adapter t) (st.tables t).rows))
        (version js st.lookups (adapter t) o) (version js st.lookups (adapter t) c) →
      ReflTransGen (SupersededByRow st t) o c := by
    intro o ho h
    obtain ⟨c', hc', hv, hreach⟩ := rows_reach ho h
    rwa [(hi.rows t).eq_of_version hc' hc hv] at hreach
  refine ⟨c, mem_rowsOf.mpr ⟨hc, hck⟩, ((hi.rows t).flag c hc).mpr hopen, hlift r hr hpath, ?_⟩
  intro r' hreach
  have hr' : r' ∈ (st.tables t).rows := by
    rcases ReflTransGen.cases_tail hreach with rfl | ⟨_, -, hlast⟩
    · exact hr
    · exact (mem_rowsOf.mp hlast.1).1
  have hpath' := hreach.lift (version js st.lookups (adapter t))
    fun _ _ => closedBy_of_supersededByRow
  exact hlift r' hr' (hlinks.goes_on hopen hpath hpath')

theorem ChainInv.versionChains (hi : ChainInv st) : VersionChains st where
  single t key := by
    refine length_le_one (hi.nodup_rowsOf t key _) ?_
    intro x hx y hy
    obtain ⟨hx, hxcur⟩ := List.mem_filter.mp hx
    obtain ⟨hy, hycur⟩ := List.mem_filter.mp hy
    obtain ⟨hx, hxk⟩ := mem_rowsOf.mp hx
    obtain ⟨hy, hyk⟩ := mem_rowsOf.mp hy
    exact (hi.rows t).eq_of_current hx hy hxcur hycur (hxk.trans hyk.symm)
  superseded t r hr hcur := by
    have hne : r.supersededBy ≠ none := fun h => by
      rw [((hi.rows t).flag r hr).mpr h] at hcur
      cases hcur
    obtain ⟨s, hs⟩ := Option.ne_none_iff_exists'.mp hne
    obtain ⟨hlt, ⟨_, ⟨r', hr', rfl⟩, hk, hb⟩, -⟩ :=
      (hi.rows t).links.link (version js st.lookups (adapter t) r) ⟨r, hr, rfl⟩ s hs
    have hmem : r' ∈ (rowsOf st t (rowKey js st.lookups (adapter t) r)).filter (·.batch = s) :=
      List.mem_filter.mpr ⟨mem_rowsOf.mpr ⟨hr', hk⟩, decide_eq_true hb⟩
    refine ⟨s, hs, hlt, ?_, le_antisymm ?_ (List.length_pos_of_mem hmem)⟩
    · have hb : r'.batch = s := hb
      rw [← hb]
      exact hi.live hr'
    · refine length_le_one (hi.nodup_rowsOf t _ _) ?_
      intro x hx y hy
      obtain ⟨hx, hxb⟩ := List.mem_filter.mp hx
      obtain ⟨hy, hyb⟩ := List.mem_filter.mp hy
      obtain ⟨hx, hxk⟩ := mem_rowsOf.mp hx
      obtain ⟨hy, hyk⟩ := mem_rowsOf.mp hy
      exact (hi.rows t).eq_of_batch hx hy (hxk.trans hyk.symm)
        ((of_decide_eq_true hxb).trans (of_decide_eq_true hyb).symm)
  current t r hr hcur := ((hi.rows t).flag r hr).mp hcur
  live t r hr := hi.live hr
  rising t r hr r' h :=
    ((hi.rows t).links.link (version js st.lookups (adapter t) r) ⟨r, hr, rfl⟩ _ h.2).1
  ends t r hr := hi.ends hr

end Chains

/-- The steps of a run import files that the parser let through. -/
def ImportsParsed {js : JsText} (_ : Store js) (op : Op js) : Prop :=
  ∀ file confirm, op = .commit file confirm → Parsed file

/-- **The version chains** are in order in every state reached from empty tables by
imports, rollbacks and removals. -/
theorem version_chains {js : JsText} (hjs : js.Lawful) {st st' : Store js} {ops : List (Op js)}
    (h₀ : Empty st) (h : Run step ImportsParsed st ops st') : VersionChains st' :=
  (h.invariant (fun _ _ _ hi hp hst => hi.step hjs hp hst) (chainInv_of_empty h₀)).versionChains

/-! ## A run -/

theorem plainText_lawful : plainText.Lawful := ⟨rfl, fun _ => rfl⟩

theorem tradeFile_parsed (attendees : ℚ) : Parsed (tradeFile attendees) := by
  intro t hu p hp
  have ht : t ≠ .trade := by
    rintro rfl
    revert hu
    decide
  simp [tradeFile, ht] at hp

/-- Three versions of one key: the middle batch is removed, then the first, and a
fourth batch follows. -/
theorem version_chains_removals : ∃ st', Run step ImportsParsed emptyStore
    [.commit (tradeFile 100) false, .commit (tradeFile 200) false, .commit (tradeFile 300) false,
      .remove 2, .remove 1, .commit (tradeFile 400) false] st' ∧
    (st'.tables .trade).rows.map (fun r => (r.batch, r.supersededBy)) =
      [(3, some 4), (4, none)] ∧ VersionChains st' := by
  have hrows : (exec step (fun _ _ => True) emptyStore
      [.commit (tradeFile 100) false, .commit (tradeFile 200) false, .commit (tradeFile 300) false,
        .remove 2, .remove 1, .commit (tradeFile 400) false]).map
      (fun st => (st.tables .trade).rows.map fun r => (r.batch, r.supersededBy)) =
      some [(3, some 4), (4, none)] := by decide +kernel
  obtain ⟨st', hst', hrows⟩ := Option.map_eq_some_iff.mp hrows
  have hfree := (exec_eq_some _ _ _ _ _).mp hst'
  have hrun : Run step ImportsParsed emptyStore _ st' :=
    (hfree.strengthen (p := fun op => ∀ file confirm, op = .commit file confirm → Parsed file)
      (by simp [tradeFile_parsed])).weaken fun _ _ h => h.2
  exact ⟨st', hrun, hrows, version_chains plainText_lawful emptyStore_empty hrun⟩

end SalesDashboard.Marcom
