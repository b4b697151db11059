import SalesDashboard.Marcom.Commit

/-! Removing a batch keeps the invariant, if no successful batch in between relies
on a row of it that was superseded later. The planned handovers, deletions,
re-arms and relinks are the fate of the versions in the chain. -/

namespace SalesDashboard.Marcom
open VersionChain

/-! ## The later batches -/

/-- The batch that `handedTo` names for a current row of the key. -/
def laterOwner (t : TableId) (laterKeys : LaterKeys) (key : String) : Option Nat :=
  ((laterKeys.map (·.1)).insertionSort (· ≤ ·)).find? fun id =>
    match laterKeys.find? (·.1 = id) with
    | some (_, keys) => decide (key ∈ keys t)
    | none => false

theorem handedTo_eq (t : TableId) (laterKeys : LaterKeys) (r : DbRow) :
    handedTo t laterKeys r = if r.current then laterOwner t laterKeys r.key else none := rfl

section LaterOwner
variable {t : TableId} {laterKeys : LaterKeys} {key : String}

theorem laterOwner_some (hn : (laterKeys.map (·.1)).Nodup) {L : Nat}
    (h : laterOwner t laterKeys key = some L) :
    (∃ e ∈ laterKeys, e.1 = L ∧ key ∈ e.2 t) ∧
      ∀ e ∈ laterKeys, key ∈ e.2 t → L ≤ e.1 := by
  unfold laterOwner at h
  obtain ⟨hL, before, after, hsplit, hbefore⟩ := List.find?_eq_some_iff_append.mp h
  have hsorted := List.pairwise_insertionSort (r := (· ≤ ·)) (laterKeys.map (·.1))
  rw [hsplit, List.pairwise_append, List.pairwise_cons] at hsorted
  constructor
  · split at hL
    · next id keys hfind =>
      exact ⟨_, List.mem_of_find?_eq_some hfind, by simpa using List.find?_some hfind,
        of_decide_eq_true hL⟩
    · cases hL
  · intro e he hkey
    have hmem : e.1 ∈ before ++ L :: after := by
      rw [← hsplit, List.mem_insertionSort]
      exact List.mem_map_of_mem he
    rcases List.mem_append.mp hmem with hb | ha
    · have := hbefore _ hb
      rw [(Keyed.find?_eq_some_iff hn).mpr ⟨he, rfl⟩] at this
      simp [hkey] at this
    · rcases List.mem_cons.mp ha with heq | ha
      · exact heq.ge
      · exact hsorted.2.1.1 _ ha

theorem laterOwner_none (hn : (laterKeys.map (·.1)).Nodup)
    (h : laterOwner t laterKeys key = none) : ∀ e ∈ laterKeys, key ∉ e.2 t := by
  intro e he hkey
  have := List.find?_eq_none.mp h e.1
    ((List.mem_insertionSort _).mpr (List.mem_map_of_mem he))
  rw [(Keyed.find?_eq_some_iff hn).mpr ⟨he, rfl⟩] at this
  simp [hkey] at this

end LaterOwner

/-- The keys are those in the files of successful later batches, and no batch that
restated a row is missing. -/
structure LaterSpec {js : JsText} (batches : List (Batch js)) (B : Nat)
    (laterKeys : LaterKeys) : Prop where
  nodup : (laterKeys.map (·.1)).Nodup
  sound : ∀ e ∈ laterKeys, ∃ b ∈ batches, b.id = e.1 ∧ B < b.id ∧ b.status = .success ∧
    ∃ file, b.file = some file ∧
      ∀ t, e.2 t = (file.tables t).map fun r => keyOf js (adapter t) r.data
  complete : ∀ b ∈ batches, B < b.id → b.status = .success → 0 < b.unchanged →
    ∃ e ∈ laterKeys, e.1 = b.id

theorem laterBatchKeys_spec {js : JsText} {batches : List (Batch js)} {B : Nat}
    {laterKeys : LaterKeys} (hn : (batches.map (·.id)).Nodup)
    (h : laterBatchKeys batches B = some laterKeys) : LaterSpec batches B laterKeys := by
  unfold laterBatchKeys at h
  simp only at h
  generalize hlater : batches.filter (fun b => decide (B < b.id) &&
    decide (b.status = .success) && decide (0 < b.unchanged)) = later at h
  have hmem : ∀ b, b ∈ later ↔
      b ∈ batches ∧ B < b.id ∧ b.status = .success ∧ 0 < b.unchanged := by
    intro b
    rw [← hlater, List.mem_filter]
    simp [and_assoc]
  have hnl : (later.map (·.id)).Nodup := by
    rw [← hlater]
    exact hn.sublist (List.filter_sublist.map _)
  have hspec : laterKeys.map (·.1) = later.map (·.id) ∧
      ∀ e ∈ laterKeys, ∃ b ∈ later, b.id = e.1 ∧ ∃ file, b.file = some file ∧
        ∀ t, e.2 t = (file.tables t).map fun r => keyOf js (adapter t) r.data := by
    clear hlater hmem hnl
    induction later generalizing laterKeys with
    | nil =>
      cases h
      exact ⟨rfl, fun _ he => by cases he⟩
    | cons b later ih =>
      rw [List.foldr_cons] at h
      split at h
      · next file keys hfile hkeys =>
        cases h
        obtain ⟨hids, hrest⟩ := ih hkeys
        refine ⟨by rw [List.map_cons, List.map_cons, hids], ?_⟩
        intro e he
        rcases List.mem_cons.mp he with rfl | he
        · exact ⟨b, List.mem_cons_self, rfl, file, hfile, fun _ => rfl⟩
        · obtain ⟨b', hb', hrest⟩ := hrest e he
          exact ⟨b', List.mem_cons_of_mem _ hb', hrest⟩
      · cases h
  refine ⟨hspec.1 ▸ hnl, ?_, ?_⟩
  · intro e he
    obtain ⟨b, hb, hid, file, hfile, hkeys⟩ := hspec.2 e he
    obtain ⟨hb, hlt, hs, -⟩ := (hmem b).mp hb
    exact ⟨b, hb, hid, hlt, hs, file, hfile, hkeys⟩
  · intro b hb hlt hs hpos
    have hid : b.id ∈ later.map (·.id) := List.mem_map_of_mem ((hmem b).mpr ⟨hb, hlt, hs, hpos⟩)
    rw [← hspec.1] at hid
    obtain ⟨e, he, heq⟩ := List.mem_map.mp hid
    exact ⟨e, he, heq⟩

/-! ## Reading the rows of the plan -/

section Plan
variable {js : JsText} {l : Lookups} {batches : List (Batch js)} {t : TableId}
  {data : TableData} {B : Nat}

theorem mem_readRows {rows : List Row} {a : Adapter} {cond : Row → Bool}
    (hj : ∀ r ∈ rows, lookupJoins l a r = true) {d : DbRow} :
    d ∈ readRows js l a rows cond ↔ ∃ r ∈ rows, cond r = true ∧ dbRow js l a r = d := by
  unfold readRows
  simp only [List.mem_map, List.mem_filter, Bool.and_eq_true]
  constructor
  · rintro ⟨r, ⟨hr, hc, -⟩, rfl⟩
    exact ⟨r, hr, hc, rfl⟩
  · rintro ⟨r, hr, hc, rfl⟩
    exact ⟨r, ⟨hr, hc, hj r hr⟩, rfl⟩

theorem readRows_ids {rows : List Row} {a : Adapter} {cond : Row → Bool}
    (hn : (rows.map (·.id)).Nodup) : ((readRows js l a rows cond).map (·.id)).Nodup := by
  unfold readRows
  rw [List.map_map]
  exact hn.sublist (List.filter_sublist.map _)

/-- The plan row with the id of a stored row is that row. -/
theorem RowsInv.eq_dbRow (hi : RowsInv js l t data) {cond : Row → Bool} {r : Row}
    (hr : r ∈ data.rows) {d : DbRow}
    (hd : d ∈ readRows js l (adapter t) data.rows cond) (hid : d.id = r.id) :
    cond r = true ∧ d = dbRow js l (adapter t) r := by
  obtain ⟨r', hr', hc, rfl⟩ := (mem_readRows hi.joined).mp hd
  have : r' = r := List.inj_on_of_nodup_map hi.ids hr' hr hid
  exact ⟨this ▸ hc, by rw [this]⟩

/-- Looking up what a plan list says about a stored row. -/
theorem RowsInv.find_planned (hi : RowsInv js l t data) (cond : Row → Bool) {β : Type}
    (id : β → Nat) {f : DbRow → Option β} (hf : ∀ d b, f d = some b → id b = d.id) {r : Row}
    (hr : r ∈ data.rows) :
    ((readRows js l (adapter t) data.rows cond).filterMap f).find? (fun b => decide (id b = r.id)) =
      if cond r = true then f (dbRow js l (adapter t) r) else none := by
  split
  · next hc =>
    exact Keyed.find?_filterMap DbRow.id (readRows_ids hi.ids) (fun d _ => hf d)
      ((mem_readRows hi.joined).mpr ⟨r, hr, hc, rfl⟩)
  · next hc =>
    rw [List.find?_eq_none]
    intro b hb hid
    obtain ⟨d, hd, hfd⟩ := List.mem_filterMap.mp hb
    rw [decide_eq_true_eq, hf d b hfd] at hid
    exact hc (hi.eq_dbRow hr hd hid).1

/-- The plan of one table, over the rows it reads. -/
def tablePlan (js : JsText) (l : Lookups) (t : TableId) (rows : List Row) (B : Nat)
    (laterKeys : LaterKeys) (others : List DbRow) : TablePlan :=
  planTable t (readRows js l (adapter t) rows fun r => r.batch = B)
    (readRows js l (adapter t) rows fun r => r.supersededBy = some B) laterKeys others

/-- What closes the version that the removed batch closed, by key. -/
def succBatch (js : JsText) (l : Lookups) (t : TableId) (rows : List Row) (B : Nat)
    (laterKeys : LaterKeys) (key : String) : Option Nat :=
  (ownByKey (readRows js l (adapter t) rows fun r => r.batch = B) key).bind fun mine =>
    (handedTo t laterKeys mine).or (if mine.current then none else mine.supersededBy)

theorem RowsInv.ownByKey_eq (hi : RowsInv js l t data) {o : Row} (ho : o ∈ data.rows)
    (hb : o.batch = B) :
    ownByKey (readRows js l (adapter t) data.rows fun r => r.batch = B)
      (rowKey js l (adapter t) o) = some (dbRow js l (adapter t) o) := by
  have hkeys : ((readRows js l (adapter t) data.rows fun r => r.batch = B).map (·.key)).Nodup := by
    unfold readRows
    rw [List.map_map]
    refine List.Nodup.map_on ?_ ((List.Nodup.of_map _ hi.ids).filter _)
    intro x hx y hy hxy
    simp only [List.mem_filter, Bool.and_eq_true, decide_eq_true_eq] at hx hy
    exact hi.eq_of_batch hx.1 hy.1 hxy (hx.2.1.trans hy.2.1.symm)
  unfold ownByKey
  rw [Keyed.find?_reverse hkeys, Keyed.find?_eq_some_iff hkeys]
  exact ⟨(mem_readRows hi.joined).mpr ⟨o, ho, by simpa using hb, rfl⟩, rfl⟩

theorem RowsInv.succBatch_eq (hi : RowsInv js l t data) (laterKeys : LaterKeys)
    {o : Row} (ho : o ∈ data.rows) (hb : o.batch = B) :
    succBatch js l t data.rows B laterKeys (rowKey js l (adapter t) o) =
      if o.supersededBy = none then laterOwner t laterKeys (rowKey js l (adapter t) o)
      else o.supersededBy := by
  unfold succBatch
  rw [hi.ownByKey_eq ho hb, Option.bind_some, handedTo_eq]
  show (if o.isCurrent = true then laterOwner t laterKeys (rowKey js l (adapter t) o) else none).or
    (if o.isCurrent = true then none else o.supersededBy) = _
  by_cases hcur : o.isCurrent = true
  · simp [hcur, (hi.flag o ho).mp hcur]
  · have : o.supersededBy ≠ none := fun h => hcur ((hi.flag o ho).mpr h)
    simp [hcur, this]

/-- A row that the removed batch superseded is replaced by what replaces the row
of that batch. -/
theorem RowsInv.replacedBy_eq (hi : RowsInv js l t data) (laterKeys : LaterKeys)
    (others : List DbRow) {r : Row} (hr : r ∈ data.rows) (hs : r.supersededBy = some B) :
    replacedBy t (readRows js l (adapter t) data.rows fun r => r.batch = B) laterKeys others
      (dbRow js l (adapter t) r) =
    succBatch js l t data.rows B laterKeys (rowKey js l (adapter t) r) := by
  obtain ⟨-, ⟨_, ⟨o, ho, rfl⟩, hk, hb⟩, -⟩ :=
    hi.links.link (version js l (adapter t) r) ⟨r, hr, rfl⟩ B hs
  have hown := hi.ownByKey_eq ho hb
  rw [show rowKey js l (adapter t) o = rowKey js l (adapter t) r from hk] at hown
  unfold replacedBy succBatch
  rw [show (dbRow js l (adapter t) r).key = rowKey js l (adapter t) r from rfl, hown]
  rfl

/-- What the plan does to a row. -/
def rowFate (plan : TablePlan) (r : Row) : Option Row :=
  if r.id ∈ plan.deleteIds then none
  else some (relinkRow plan (rearmRow plan (handOverRow plan r)))

@[simp] theorem handOverRow_id (plan : TablePlan) (r : Row) : (handOverRow plan r).id = r.id := by
  unfold handOverRow; split <;> rfl

@[simp] theorem rearmRow_id (plan : TablePlan) (r : Row) : (rearmRow plan r).id = r.id := by
  unfold rearmRow; split <;> rfl

@[simp] theorem relinkRow_id (plan : TablePlan) (r : Row) : (relinkRow plan r).id = r.id := by
  unfold relinkRow; split <;> rfl

theorem applyTable_rows (plan : TablePlan) (data : TableData) :
    (applyTable plan data).rows = data.rows.filterMap (rowFate plan) := by
  unfold applyTable
  simp only
  induction data.rows with
  | nil => rfl
  | cons r rows ih =>
    rw [List.map_cons, List.filter_cons, List.filterMap_cons]
    by_cases hdel : r.id ∈ plan.deleteIds
    · simpa [rowFate, hdel] using ih
    · simpa [rowFate, hdel] using ih

section Planned
variable (hi : RowsInv js l t data) (laterKeys : LaterKeys) (others : List DbRow) {r : Row}
  (hr : r ∈ data.rows)
include hi hr

theorem planned_delete :
    r.id ∈ (tablePlan js l t data.rows B laterKeys others).deleteIds ↔
      r.batch = B ∧ handedTo t laterKeys (dbRow js l (adapter t) r) = none := by
  unfold tablePlan planTable
  simp only [List.mem_map, List.mem_filter, decide_eq_true_eq]
  constructor
  · rintro ⟨d, ⟨hd, hnone⟩, hid⟩
    obtain ⟨hb, rfl⟩ := hi.eq_dbRow hr hd hid
    exact ⟨by simpa using hb, hnone⟩
  · rintro ⟨hb, hnone⟩
    exact ⟨_, ⟨(mem_readRows hi.joined).mpr ⟨r, hr, by simpa using hb, rfl⟩, hnone⟩, rfl⟩

theorem planned_handOver :
    (tablePlan js l t data.rows B laterKeys others).handedOver.find? (fun h => decide (h.id = r.id)) =
      if r.batch = B then (handedTo t laterKeys (dbRow js l (adapter t) r)).map fun b =>
        ⟨r.id, rowKey js l (adapter t) r, b⟩
      else none := by
  have h := hi.find_planned (fun r => decide (r.batch = B)) HandedOver.id
    (f := fun d => (handedTo t laterKeys d).map fun b => ⟨d.id, d.key, b⟩) (fun d b h => by
      obtain ⟨_, _, rfl⟩ := Option.map_eq_some_iff.mp h
      rfl) hr
  simp only [decide_eq_true_eq] at h
  exact h

theorem planned_rearm :
    r.id ∈ (tablePlan js l t data.rows B laterKeys others).rearm.map (·.id) ↔
      r.supersededBy = some B ∧
        succBatch js l t data.rows B laterKeys (rowKey js l (adapter t) r) = none := by
  unfold tablePlan planTable
  simp only [List.mem_map, List.mem_filterMap]
  constructor
  · rintro ⟨m, ⟨e, he, hf⟩, hid⟩
    split at hf
    · next hnone =>
      cases hf
      obtain ⟨hs, rfl⟩ := hi.eq_dbRow hr he hid
      have hs : r.supersededBy = some B := by simpa using hs
      exact ⟨hs, by rwa [hi.replacedBy_eq laterKeys others hr hs] at hnone⟩
    · cases hf
  · rintro ⟨hs, hnone⟩
    refine ⟨⟨r.id, rowKey js l (adapter t) r, r.batch⟩, ⟨dbRow js l (adapter t) r, ?_, ?_⟩, rfl⟩
    · exact (mem_readRows hi.joined).mpr ⟨r, hr, by simpa using hs, rfl⟩
    · rw [hi.replacedBy_eq laterKeys others hr hs, hnone]
      rfl

theorem planned_relink :
    (tablePlan js l t data.rows B laterKeys others).relink.find? (fun h => decide (h.id = r.id)) =
      if r.supersededBy = some B then
        (succBatch js l t data.rows B laterKeys (rowKey js l (adapter t) r)).map fun b =>
          ⟨r.id, rowKey js l (adapter t) r, r.batch, b⟩
      else none := by
  have h := hi.find_planned (fun r => decide (r.supersededBy = some B)) Relink.id
    (f := fun e => (replacedBy t (readRows js l (adapter t) data.rows fun r => r.batch = B)
      laterKeys others e).map fun b => ⟨e.id, e.key, e.batch, b⟩) (fun d b h => by
        obtain ⟨_, _, rfl⟩ := Option.map_eq_some_iff.mp h
        rfl) hr
  simp only [decide_eq_true_eq] at h
  refine Eq.trans h ?_
  split
  · next hs =>
    rw [hi.replacedBy_eq laterKeys others hr hs]
    rfl
  · rfl

/-- No batch supersedes a row of its own. -/
theorem not_superseded_by_own (hb : r.batch = B) : r.supersededBy ≠ some B := by
  intro hs
  have hlt := (hi.links.link (version js l (adapter t) r) ⟨r, hr, rfl⟩ B hs).1
  have hlt : r.batch < B := hlt
  omega

/-- A row of the removed batch is handed over if it is current and some later
batch restated it; otherwise it is deleted. -/
theorem rowFate_own (hb : r.batch = B) :
    rowFate (tablePlan js l t data.rows B laterKeys others) r =
      if r.isCurrent = true then
        (laterOwner t laterKeys (rowKey js l (adapter t) r)).map fun L => { r with batch := L }
      else none := by
  have hto : handedTo t laterKeys (dbRow js l (adapter t) r) =
      if r.isCurrent = true then laterOwner t laterKeys (rowKey js l (adapter t) r) else none := rfl
  have hdel := planned_delete (B := B) hi laterKeys others hr
  have hhand := planned_handOver (B := B) hi laterKeys others hr
  have harm := planned_rearm (B := B) hi laterKeys others hr
  have hlink := planned_relink (B := B) hi laterKeys others hr
  simp only [hb, true_and, if_true, not_superseded_by_own hi hr hb, false_and, if_false] at *
  unfold rowFate
  cases hL : handedTo t laterKeys (dbRow js l (adapter t) r) with
  | none =>
    rw [if_pos (hdel.mpr hL)]
    rw [hto] at hL
    split
    · next hcur =>
      rw [if_pos hcur] at hL
      rw [hL]
      rfl
    · rfl
  | some L =>
    rw [hL] at hhand hdel
    rw [if_neg fun h => by cases hdel.mp h]
    have hmoved : handOverRow (tablePlan js l t data.rows B laterKeys others) r =
        { r with batch := L } := by
      unfold handOverRow
      rw [hhand]
      rfl
    rw [hto] at hL
    split at hL
    · next hcur =>
      rw [if_pos hcur, hL, hmoved]
      unfold rearmRow relinkRow
      simp only [harm, if_false, hlink, Option.map_some]
    · cases hL

/-- A row that the removed batch superseded is re-armed, or relinked to the batch
that takes its place. -/
theorem rowFate_earlier (hb : r.batch ≠ B) (hs : r.supersededBy = some B) :
    rowFate (tablePlan js l t data.rows B laterKeys others) r =
      match succBatch js l t data.rows B laterKeys (rowKey js l (adapter t) r) with
      | none => some { r with isCurrent := true, supersededBy := none }
      | some b => some { r with supersededBy := some b } := by
  have hdel := planned_delete (B := B) hi laterKeys others hr
  have hhand := planned_handOver (B := B) hi laterKeys others hr
  have harm := planned_rearm (B := B) hi laterKeys others hr
  have hlink := planned_relink (B := B) hi laterKeys others hr
  simp only [hb, false_and, if_false, hs, true_and, if_true] at hdel hhand harm hlink
  have hmoved : handOverRow (tablePlan js l t data.rows B laterKeys others) r = r := by
    unfold handOverRow
    rw [hhand]
  unfold rowFate
  rw [if_neg hdel.mp, hmoved]
  cases hsucc : succBatch js l t data.rows B laterKeys (rowKey js l (adapter t) r) with
  | none =>
    rw [hsucc] at hlink harm
    unfold rearmRow relinkRow
    simp only [harm, if_true, hlink, Option.map_none]
  | some b =>
    rw [hsucc] at hlink harm
    unfold rearmRow relinkRow
    simp only [harm, reduceCtorEq, if_false, hlink, Option.map_some]

theorem rowFate_other (hb : r.batch ≠ B) (hs : r.supersededBy ≠ some B) :
    rowFate (tablePlan js l t data.rows B laterKeys others) r = some r := by
  have hdel := planned_delete (B := B) hi laterKeys others hr
  have hhand := planned_handOver (B := B) hi laterKeys others hr
  have harm := planned_rearm (B := B) hi laterKeys others hr
  have hlink := planned_relink (B := B) hi laterKeys others hr
  simp only [hb, hs, false_and, if_false] at hdel hhand harm hlink
  unfold rowFate handOverRow
  simp only [hdel, if_false, hhand]
  unfold rearmRow
  simp only [harm, if_false]
  unfold relinkRow
  simp only [hlink]

/-- **The plan carries out the fate of the versions.** -/
theorem version_rowFate :
    (rowFate (tablePlan js l t data.rows B laterKeys others) r).map (version js l (adapter t)) =
      fate B (laterOwner t laterKeys) (succBatch js l t data.rows B laterKeys)
        (version js l (adapter t) r) := by
  have hflag := hi.flag r hr
  unfold fate
  by_cases hb : r.batch = B
  · rw [rowFate_own hi laterKeys others hr hb]
    rw [if_pos (show (version js l (adapter t) r).batch = B from hb)]
    by_cases hcur : r.isCurrent = true
    · rw [if_pos hcur, if_pos (show (version js l (adapter t) r).next = none from hflag.mp hcur),
        Option.map_map]
      rfl
    · rw [if_neg hcur,
        if_neg (show ¬ (version js l (adapter t) r).next = none from fun h => hcur (hflag.mpr h))]
      rfl
  · rw [if_neg (show ¬ (version js l (adapter t) r).batch = B from hb)]
    by_cases hs : r.supersededBy = some B
    · rw [if_pos (show (version js l (adapter t) r).next = some B from hs),
        rowFate_earlier hi laterKeys others hr hb hs]
      show _ = some { version js l (adapter t) r with
        next := succBatch js l t data.rows B laterKeys (rowKey js l (adapter t) r) }
      cases succBatch js l t data.rows B laterKeys (rowKey js l (adapter t) r) <;> rfl
    · rw [if_neg (show ¬ (version js l (adapter t) r).next = some B from hs),
        rowFate_other hi laterKeys others hr hb hs]
      rfl

end Planned

/-! ## The table after the removal -/

/-- The plan never touches the stored values of a row. -/
theorem rowFate_some {plan : TablePlan} {r r' : Row} (h : rowFate plan r = some r') :
    r'.id = r.id ∧ r'.brandId = r.brandId ∧ r'.categoryId = r.categoryId := by
  unfold rowFate at h
  split at h
  · cases h
  · cases h
    unfold relinkRow rearmRow handOverRow
    repeat' split
    all_goals exact ⟨rfl, rfl, rfl⟩

theorem stated_setStatus {batches : List (Batch js)} {B : Nat} {status : BatchStatus}
    (hs : status ≠ .success) (t : TableId) :
    stated (batches.map fun b => if b.id = B then { b with status := status } else b) t =
      Function.update (stated batches t) B fun _ => none := by
  funext b k
  unfold stated
  rw [List.find?_map]
  have hid : ((fun x : Batch js => decide (x.id = b)) ∘
      fun x => if x.id = B then { x with status := status } else x) = fun x => decide (x.id = b) := by
    funext x
    simp only [Function.comp_apply]
    split <;> rfl
  rw [hid]
  cases hf : batches.find? fun x => decide (x.id = b) with
  | none =>
    by_cases hb : b = B
    · rw [hb, Function.update_self]
      rfl
    · rw [Function.update_of_ne hb, hf]
      rfl
  | some x =>
    have hx : x.id = b := by simpa using List.find?_some hf
    by_cases hb : b = B
    · rw [hb, Function.update_self]
      simp [hx, hb, hs]
    · rw [Function.update_of_ne hb, hf]
      simp [hx, hb]

/-- The open versions go to later batches. -/
theorem RowsInv.reassigned (hi : RowsInv js l t data) {laterKeys : LaterKeys}
    (hlater : LaterSpec batches B laterKeys) :
    Reassigned (versions js l (adapter t) data.rows) B (laterOwner t laterKeys)
      (succBatch js l t data.rows B laterKeys) := by
  constructor
  · rintro _ ⟨o, ho, rfl⟩ _ _ L hL
    obtain ⟨⟨e, he, rfl, -⟩, -⟩ := laterOwner_some hlater.nodup hL
    obtain ⟨b, -, hbe, hlt, -⟩ := hlater.sound e he
    omega
  · rintro _ ⟨o, ho, rfl⟩ hb
    exact hi.succBatch_eq laterKeys ho hb

/-- What the later files say settles what happens to the open versions. -/
theorem TableInv.handover (hi : TableInv l batches t data)
    (hn : (batches.map (·.id)).Nodup) {laterKeys : LaterKeys}
    (hlater : LaterSpec batches B laterKeys) :
    Handover (versions js l (adapter t) data.rows) (stated batches t) B (laterOwner t laterKeys)
      (succBatch js l t data.rows B laterKeys) := by
  -- a later batch that states the key of an open version of `B` has no row of its own for it
  have hrestated : ∀ o ∈ data.rows, o.batch = B → o.supersededBy = none → ∀ L v, B < L →
      stated batches t L (rowKey js l (adapter t) o) = some v →
        ∃ e ∈ laterKeys, e.1 = L ∧ rowKey js l (adapter t) o ∈ e.2 t := by
    intro o ho hb hopen L v hlt hk
    obtain ⟨x, hx, rfl, hsucc, file, hfile, hstates⟩ := stated_some hk
    have hpos : 0 < x.unchanged := by
      refine (hi.restated x hx hsucc _ v hk).resolve_left ?_
      rintro ⟨r, hr, hrb, hrk⟩
      have hle := hi.chain.last _ ⟨o, ho, rfl⟩ hopen _ ⟨r, hr, rfl⟩ hrk
      have hle : r.batch ≤ o.batch := hle
      omega
    obtain ⟨e, he, hex⟩ := hlater.complete x hx hlt hsucc hpos
    obtain ⟨b, hb', hbe, -, -, file', hfile', hkeys⟩ := hlater.sound e he
    have hbx : b = x := List.inj_on_of_nodup_map hn hb' hx (hbe.trans hex)
    rw [hbx, hfile] at hfile'
    cases hfile'
    obtain ⟨p, hp, hpk, -⟩ := states_some.mp hstates
    refine ⟨e, he, hex, ?_⟩
    rw [hkeys, ← hpk]
    exact List.mem_map_of_mem hp
  constructor
  · rintro _ ⟨o, ho, rfl⟩ hb hopen L hL
    obtain ⟨⟨e, he, rfl, hkey⟩, hmin⟩ := laterOwner_some hlater.nodup hL
    obtain ⟨b, hb', hbe, hlt, hsucc, file, hfile, hkeys⟩ := hlater.sound e he
    refine ⟨by omega, ?_, ?_⟩
    · rw [hkeys] at hkey
      obtain ⟨p, hp, hpk⟩ := List.mem_map.mp hkey
      refine ⟨values js (adapter t) p.data, ?_⟩
      rw [← hbe, stated_of_mem hn hb' hsucc hfile]
      exact states_some.mpr ⟨p, hp, hpk, rfl⟩
    · intro L' v hlt' hk
      obtain ⟨e', he', rfl, hkey'⟩ := hrestated o ho hb hopen L' v hlt' hk
      exact hmin e' he' hkey'
  · rintro _ ⟨o, ho, rfl⟩ hb hopen hnone L v hlt hk
    obtain ⟨e, he, -, hkey⟩ := hrestated o ho hb hopen L v hlt hk
    exact laterOwner_none hlater.nodup hnone e he hkey
  · exact (hi.rows.reassigned hlater).follows

theorem mem_applyTable {plan : TablePlan} {r' : Row} :
    r' ∈ (applyTable plan data).rows ↔ ∃ r ∈ data.rows, rowFate plan r = some r' := by
  rw [applyTable_rows, List.mem_filterMap]

/-- The versions that outlive the removal. -/
theorem RowsInv.versions_applyTable (hi : RowsInv js l t data) {l' : Lookups}
    (laterKeys : LaterKeys) (others : List DbRow)
    (hsame : SameNames js l l' t
      (applyTable (tablePlan js l t data.rows B laterKeys others) data).rows) :
    versions js l' (adapter t)
      (applyTable (tablePlan js l t data.rows B laterKeys others) data).rows =
      drop B (laterOwner t laterKeys) (succBatch js l t data.rows B laterKeys)
        (versions js l (adapter t) data.rows) := by
  ext v
  constructor
  · rintro ⟨r', hr', rfl⟩
    obtain ⟨r, hr, hfate⟩ := mem_applyTable.mp hr'
    refine ⟨_, ⟨r, hr, rfl⟩, ?_⟩
    rw [← version_rowFate hi laterKeys others hr, hfate, Option.map_some, (hsame r' hr').1]
  · rintro ⟨_, ⟨r, hr, rfl⟩, hfate⟩
    rw [← version_rowFate hi laterKeys others hr] at hfate
    obtain ⟨r', hr', rfl⟩ := Option.map_eq_some_iff.mp hfate
    have hmem := mem_applyTable.mpr ⟨r, hr, hr'⟩
    exact ⟨r', hmem, (hsame r' hmem).1⟩

/-- **Removing a batch keeps the rows of each table linked.** -/
theorem RowsInv.remove (hi : RowsInv js l t data) {l' : Lookups} {laterKeys : LaterKeys}
    (hlater : LaterSpec batches B laterKeys) (others : List DbRow)
    (hsame : SameNames js l l' t
      (applyTable (tablePlan js l t data.rows B laterKeys others) data).rows) :
    RowsInv js l' t (applyTable (tablePlan js l t data.rows B laterKeys others) data) := by
  refine ⟨?_, ?_, ?_, ?_, ?_⟩
  · rw [applyTable_rows]
    exact hi.ids.sublist (Keyed.filterMap_keys_sublist (fun r r' h => (rowFate_some h).1) _)
  · intro r' hr'
    obtain ⟨r, hr, hfate⟩ := mem_applyTable.mp hr'
    rw [(rowFate_some hfate).1]
    exact hi.fresh r hr
  · intro r' hr'
    obtain ⟨r, hr, hfate⟩ := mem_applyTable.mp hr'
    have hflag := hi.flag r hr
    by_cases hb : r.batch = B
    · rw [rowFate_own hi laterKeys others hr hb] at hfate
      split at hfate
      · obtain ⟨L, -, rfl⟩ := Option.map_eq_some_iff.mp hfate
        exact hflag
      · cases hfate
    · by_cases hsup : r.supersededBy = some B
      · rw [rowFate_earlier hi laterKeys others hr hb hsup] at hfate
        split at hfate
        · cases hfate
          simp
        · cases hfate
          simpa [hsup] using hflag
      · rw [rowFate_other hi laterKeys others hr hb hsup] at hfate
        cases hfate
        exact hflag
  · intro r' hr'
    obtain ⟨r, hr, hfate⟩ := mem_applyTable.mp hr'
    rw [(hsame r' hr').2]
    have hjoin := hi.joined r hr
    unfold lookupJoins at hjoin ⊢
    rwa [(rowFate_some hfate).2.1, (rowFate_some hfate).2.2]
  · rw [hi.versions_applyTable laterKeys others hsame]
    exact hi.links.drop (hi.reassigned hlater)

/-- **Removing a batch keeps the invariant of each table.** -/
theorem TableInv.remove (hi : TableInv l batches t data) {l' : Lookups} {status : BatchStatus}
    (hs : status ≠ .success) (hn : (batches.map (·.id)).Nodup) {laterKeys : LaterKeys}
    (hlater : LaterSpec batches B laterKeys) (others : List DbRow)
    (hbetween : NoneBetween (versions js l (adapter t) data.rows) (stated batches t) B)
    (hsame : SameNames js l l' t
      (applyTable (tablePlan js l t data.rows B laterKeys others) data).rows) :
    TableInv l' (batches.map fun b => if b.id = B then { b with status := status } else b) t
      (applyTable (tablePlan js l t data.rows B laterKeys others) data) := by
  have hrows := hi.rows.remove hlater others hsame
  have hversions := hi.rows.versions_applyTable laterKeys others hsame
  refine ⟨hrows.ids, hrows.fresh, hrows.flag, hrows.joined, ?_, ?_⟩
  · rw [hversions, stated_setStatus hs]
    exact hi.chain.drop (hi.handover hn hlater) hbetween
  · intro x hx hsucc k v hk
    obtain ⟨b, hb, rfl⟩ := List.mem_map.mp hx
    rw [stated_setStatus hs] at hk
    by_cases hbB : b.id = B
    · rw [if_pos hbB] at hsucc
      exact absurd hsucc hs
    · rw [if_neg hbB] at hsucc hk ⊢
      rw [Function.update_of_ne hbB] at hk
      rcases hi.restated b hb hsucc k v hk with ⟨r, hr, hrb, hrk⟩ | hpos
      · obtain ⟨v', hv', hkey, hbatch, -⟩ := mem_drop_other B
          (laterOwner t laterKeys) (succBatch js l t data.rows B laterKeys)
          (show version js l (adapter t) r ∈ versions js l (adapter t) data.rows from ⟨r, hr, rfl⟩)
          (show r.batch ≠ B by omega)
        rw [← hversions] at hv'
        obtain ⟨r', hr', rfl⟩ := hv'
        exact .inl ⟨r', hr', hbatch.trans hrb, hkey.trans hrk⟩
      · exact .inr hpos

end Plan

end SalesDashboard.Marcom
