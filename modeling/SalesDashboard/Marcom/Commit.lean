import SalesDashboard.Marcom.Versions
import Mathlib

/-! Importing a file keeps the invariant: the write loop appends the versions that
differ from the current ones and closes those. -/

namespace SalesDashboard.Marcom
open VersionChain

/-! ## The classification -/

section Diff
variable {js : JsText} {a : Adapter} {current : List CurrentRow}

theorem diffTable_perm (rows : List ParsedRow) :
    ((diffTable js a current [] rows).updates.map (·.row) ++
      (diffTable js a current [] rows).inserts ++
        (diffTable js a current [] rows).unchanged).Perm rows := by
  induction rows with
  | nil => exact .refl _
  | cons row rows ih =>
    unfold diffTable
    simp only [List.not_mem_nil, if_false]
    cases byKey js a current (keyOf js a row.data) with
    | none =>
      refine .trans ?_ (ih.cons row)
      simp only [List.append_assoc, List.cons_append]
      exact List.perm_middle
    | some existing =>
      simp only
      split
      · refine .trans ?_ (ih.cons row)
        exact List.perm_middle
      · simpa using ih

theorem mem_diffTable_inserts {rows : List ParsedRow} {p : ParsedRow}
    (h : p ∈ (diffTable js a current [] rows).inserts) :
    byKey js a current (keyOf js a p.data) = none := by
  induction rows with
  | nil => cases h
  | cons row rows ih =>
    unfold diffTable at h
    simp only [List.not_mem_nil, if_false] at h
    cases hk : byKey js a current (keyOf js a row.data) with
    | none =>
      rw [hk] at h
      rcases List.mem_cons.mp h with rfl | h
      · exact hk
      · exact ih h
    | some existing =>
      rw [hk] at h
      simp only at h
      split at h <;> exact ih h

theorem mem_diffTable_updates {rows : List ParsedRow} {u : RowUpdate}
    (h : u ∈ (diffTable js a current [] rows).updates) :
    ∃ e, byKey js a current (keyOf js a u.row.data) = some e ∧ e.id = u.existingId := by
  induction rows with
  | nil => cases h
  | cons row rows ih =>
    unfold diffTable at h
    simp only [List.not_mem_nil, if_false] at h
    cases hk : byKey js a current (keyOf js a row.data) with
    | none =>
      rw [hk] at h
      exact ih h
    | some existing =>
      rw [hk] at h
      simp only at h
      split at h
      · exact ih h
      · rcases List.mem_cons.mp h with rfl | h
        · exact ⟨existing, hk, rfl⟩
        · exact ih h

theorem mem_diffTable_unchanged {rows : List ParsedRow} {p : ParsedRow}
    (h : p ∈ (diffTable js a current [] rows).unchanged) :
    ∃ e, byKey js a current (keyOf js a p.data) = some e ∧ fieldChanges js a e.data p.data = [] := by
  induction rows with
  | nil => cases h
  | cons row rows ih =>
    unfold diffTable at h
    simp only [List.not_mem_nil, if_false] at h
    cases hk : byKey js a current (keyOf js a row.data) with
    | none =>
      rw [hk] at h
      exact ih h
    | some existing =>
      rw [hk] at h
      simp only at h
      split at h
      · next hnil =>
        rcases List.mem_cons.mp h with rfl | h
        · exact ⟨existing, hk, hnil⟩
        · exact ih h
      · exact ih h

end Diff

/-! ## The write loop -/

/-- The row `data` as batch `batchId` stores it. -/
structure Inserted (js : JsText) (l : Lookups) (a : Adapter) (batchId : Nat) (data : Data)
    (n : Row) : Prop where
  cells : n.cells = storedCell a data
  batch : n.batch = batchId
  current : n.isCurrent = true
  superseded : n.supersededBy = none
  brand : a.uses .brand = true → ∃ id, l.brandId js (data .brand) = some id ∧ n.brandId = some id
  category : a.uses .category = true →
    ∃ id, l.categoryId js (data .category) = some id ∧ n.categoryId = some id

/-- The current rows with the given ids become history. -/
def closeRow (batchId : Nat) (ids : List Nat) (r : Row) : Row :=
  if r.id ∈ ids ∧ r.isCurrent = true then
    { r with isCurrent := false, supersededBy := some batchId } else r

/-- What a part of the write loop does: it closes some rows and appends others. -/
def Wrote (js : JsText) (l : Lookups) (a : Adapter) (batchId : Nat) (closed : List Nat)
    (datas : List Data) (t t' : TableData) : Prop :=
  ∃ new : List Row, t'.rows = t.rows.map (closeRow batchId closed) ++ new ∧
    List.Forall₂ (Inserted js l a batchId) datas new ∧
      new.map (·.id) = List.range' t.nextId new.length ∧ t'.nextId = t.nextId + new.length

@[simp] theorem closeRow_id (b : Nat) (ids : List Nat) (r : Row) :
    (closeRow b ids r).id = r.id := by unfold closeRow; split <;> rfl

theorem map_closeRow_nil (b : Nat) (rows : List Row) : rows.map (closeRow b []) = rows := by
  conv_rhs => rw [← List.map_id rows]
  exact List.map_congr_left fun r _ => by simp [closeRow]

theorem closeRow_closeRow (b : Nat) (ids ids' : List Nat) (r : Row) :
    closeRow b ids' (closeRow b ids r) = closeRow b (ids ++ ids') r := by
  unfold closeRow
  by_cases h : r.id ∈ ids ∧ r.isCurrent = true
  · simp [h.1, h.2]
  · by_cases hcur : r.isCurrent = true
    · have : r.id ∉ ids := fun hmem => h ⟨hmem, hcur⟩
      simp [this, hcur]
    · simp [hcur]

section Write
variable {js : JsText} {l : Lookups} {a : Adapter} {b : Nat}

theorem Wrote.refl (t : TableData) : Wrote js l a b [] [] t t :=
  ⟨[], by rw [map_closeRow_nil, List.append_nil], .nil, rfl, rfl⟩

theorem Wrote.trans {c c' : List Nat} {d d' : List Data} {t t' t'' : TableData}
    (h : Wrote js l a b c d t t') (h' : Wrote js l a b c' d' t' t'')
    (hc : ∀ i ∈ c', i < t.nextId) : Wrote js l a b (c ++ c') (d ++ d') t t'' := by
  obtain ⟨new, hrows, hins, hids, hnext⟩ := h
  obtain ⟨new', hrows', hins', hids', hnext'⟩ := h'
  have hnew : new.map (closeRow b c') = new := by
    conv_rhs => rw [← List.map_id new]
    apply List.map_congr_left
    intro n hn
    have hid : n.id ∈ List.range' t.nextId new.length := hids ▸ List.mem_map_of_mem hn
    rw [List.mem_range'] at hid
    have hnot : n.id ∉ c' := fun hmem => by
      have := hc _ hmem
      omega
    simp [closeRow, hnot]
  refine ⟨new ++ new', ?_, List.rel_append hins hins', ?_, by simp; omega⟩
  · rw [hrows', hrows, List.map_append, hnew, List.map_map, List.append_assoc]
    congr 1
    apply List.map_congr_left
    intro r _
    exact closeRow_closeRow b c c' r
  · rw [List.map_append, hids, hids', hnext, List.length_append, ← List.range'_append_1]

theorem insertRow_wrote {t t' : TableData} {data : Data}
    (h : insertRow js l a b t data = some t') : Wrote js l a b [] [data] t t' := by
  unfold insertRow at h
  simp only at h
  split at h
  · next brand category hb hc =>
    cases h
    refine ⟨[⟨t.nextId, storedCell a data, brand, category, b, true, none⟩],
      by rw [map_closeRow_nil], .cons ?_ .nil, rfl, rfl⟩
    refine ⟨rfl, rfl, rfl, rfl, ?_, ?_⟩
    · intro hu
      rw [hu, if_pos rfl, Option.map_eq_some_iff] at hb
      obtain ⟨id, hid, rfl⟩ := hb
      exact ⟨id, hid, rfl⟩
    · intro hu
      rw [hu, if_pos rfl, Option.map_eq_some_iff] at hc
      obtain ⟨id, hid, rfl⟩ := hc
      exact ⟨id, hid, rfl⟩
  · cases h

theorem supersede_wrote {t t' : TableData} {i : Nat} (h : supersede b i t = some t') :
    Wrote js l a b [i] [] t t' := by
  unfold supersede at h
  split at h
  · cases h
    exact ⟨[], by simp [closeRow], .nil, rfl, rfl⟩
  · cases h

theorem writeInserts_wrote {rs : List ParsedRow} {t t' : TableData}
    (h : writeInserts js l a b rs t = some t') :
    Wrote js l a b [] (rs.map (·.data)) t t' := by
  induction rs generalizing t with
  | nil =>
    cases h
    exact .refl _
  | cons r rs ih =>
    unfold writeInserts at h
    split at h
    · cases h
    · next t₁ h₁ => exact (insertRow_wrote h₁).trans (ih h) (by simp)

theorem writeUpdates_wrote {us : List RowUpdate} {t t' : TableData}
    (hold : ∀ u ∈ us, u.existingId < t.nextId) (h : writeUpdates js l a b us t = some t') :
    Wrote js l a b (us.map (·.existingId)) (us.map (·.row.data)) t t' := by
  induction us generalizing t with
  | nil =>
    cases h
    exact .refl _
  | cons u us ih =>
    unfold writeUpdates at h
    split at h
    · cases h
    · next t₁ h₁ =>
      split at h
      · cases h
      · next t₂ h₂ =>
        have hclose : Wrote js l a b [u.existingId] [] t t₁ := supersede_wrote h₁
        have hone := hclose.trans (insertRow_wrote h₂) (by simp)
        have hnext : t.nextId ≤ t₂.nextId := by
          obtain ⟨_, _, _, _, hn⟩ := hone
          omega
        have hrest := ih (fun v hv => (hold v (List.mem_cons_of_mem _ hv)).trans_le hnext) h
        exact hone.trans hrest fun i hi => by
          obtain ⟨v, hv, rfl⟩ := List.mem_map.mp hi
          exact hold v (List.mem_cons_of_mem _ hv)

/-- **The write loop**: the rows to update are closed, and the rows to update or
insert are appended. -/
theorem writeTable_wrote {d : TableDiff} {t t' : TableData}
    (hold : ∀ u ∈ d.updates, u.existingId < t.nextId) (h : writeTable js l a b d t = some t') :
    Wrote js l a b (d.updates.map (·.existingId))
      ((d.updates.map (·.row) ++ d.inserts).map (·.data)) t t' := by
  unfold writeTable at h
  split at h
  · cases h
  · next t₁ h₁ =>
    have := (writeUpdates_wrote hold h₁).trans (writeInserts_wrote h) (by simp)
    simpa [Function.comp_def] using this

end Write

/-! ## The appended versions -/

/-- The brand and the category of the row are spelled as the store spells them. -/
def Spelled (l : Lookups) (t : TableId) (data : Data) : Prop :=
  ((adapter t).uses .brand = true → ∃ b ∈ l.brands, data .brand = .text b.name) ∧
    ((adapter t).uses .category = true → ∃ c ∈ l.categories, data .category = .text c.name)

section Read
variable {js : JsText} {l : Lookups} {t : TableId} {batchId nextBrand : Nat} {data : Data} {n : Row}

/-- **A stored row reads back as the file states it.** -/
theorem Inserted.values_eq (hn : Inserted js l (adapter t) batchId data n)
    (hl : l.Valid js nextBrand) (hs : Spelled l t data) :
    values js (adapter t) (readRow l (adapter t) n) = values js (adapter t) data := by
  rw [values_eq_iff]
  intro fd hfd
  rw [readRow_field l t n fd hfd]
  unfold selectCol
  split
  · next htype =>
    obtain ⟨hfield, hu⟩ := (lookup_field t fd hfd).1 htype
    obtain ⟨b, hb, hdata⟩ := hs.1 hu
    obtain ⟨id, hid, hrow⟩ := hn.brand hu
    rw [hdata] at hid
    simp [hrow, brandName_brandId hl hb hid, hfield, hdata]
  · next htype =>
    obtain ⟨hfield, hu⟩ := (lookup_field t fd hfd).2 htype
    obtain ⟨c, hc, hdata⟩ := hs.2 hu
    obtain ⟨id, hid, hrow⟩ := hn.category hu
    rw [hdata] at hid
    simp [hrow, categoryName_categoryId hl hc hid, hfield, hdata]
  · rw [hn.cells]
    unfold storedCell
    rw [find_field t fd hfd]
    exact normalize_toDb js fd.type _

theorem Inserted.joined (hn : Inserted js l (adapter t) batchId data n)
    (hl : l.Valid js nextBrand) (hs : Spelled l t data) : lookupJoins l (adapter t) n = true := by
  unfold lookupJoins
  rw [Bool.and_eq_true, Bool.or_eq_true, Bool.or_eq_true]
  constructor
  · cases hu : (adapter t).uses .brand with
    | false => exact .inl rfl
    | true =>
      obtain ⟨b, hb, hdata⟩ := hs.1 hu
      obtain ⟨id, hid, hrow⟩ := hn.brand hu
      rw [hdata] at hid
      exact .inr (by simp [hrow, brandName_brandId hl hb hid])
  · cases hu : (adapter t).uses .category with
    | false => exact .inl rfl
    | true =>
      obtain ⟨c, hc, hdata⟩ := hs.2 hu
      obtain ⟨id, hid, hrow⟩ := hn.category hu
      rw [hdata] at hid
      exact .inr (by simp [hrow, categoryName_categoryId hl hc hid])

theorem Inserted.key_eq (hn : Inserted js l (adapter t) batchId data n)
    (hl : l.Valid js nextBrand) (hs : Spelled l t data) :
    rowKey js l (adapter t) n = keyOf js (adapter t) data :=
  keyOf_congr (hn.values_eq hl hs)

end Read

/-- The statements of the batches once a successful batch is added. -/
theorem stated_append {js : JsText} {batches : List (Batch js)} {b : Nat} (file : Accepted js)
    (unchanged : Nat) (hfresh : ∀ x ∈ batches, x.id < b) (t : TableId) :
    stated (batches ++ [⟨b, .success, some file, unchanged⟩]) t =
      Function.update (stated batches t) b (file.states t) := by
  funext b' k
  unfold stated
  rw [List.find?_append]
  by_cases hb : b' = b
  · subst hb
    have hnone : batches.find? (fun x => decide (x.id = b')) = none := by
      rw [List.find?_eq_none]
      intro x hx
      have := hfresh x hx
      simp
      omega
    rw [hnone, Function.update_self]
    simp
  · rw [Function.update_of_ne hb]
    have hne : ¬ b = b' := fun h => hb h.symm
    simp [hne]

/-- A current row read for the classification. -/
theorem mem_currentRows {l : Lookups} {a : Adapter} {rows : List Row} {c : CurrentRow} :
    c ∈ currentRows l a rows ↔ ∃ r ∈ rows, r.isCurrent = true ∧ lookupJoins l a r = true ∧
      c = ⟨r.id, readRow l a r⟩ := by
  unfold currentRows
  simp only [List.mem_map, List.mem_filter, Bool.and_eq_true]
  constructor
  · rintro ⟨r, ⟨hr, hcur, hj⟩, rfl⟩
    exact ⟨r, hr, hcur, hj, rfl⟩
  · rintro ⟨r, hr, hcur, hj, rfl⟩
    exact ⟨r, ⟨hr, hcur, hj⟩, rfl⟩

/-- The current row that the classification found for a key. -/
theorem byKey_current {js : JsText} {l : Lookups} {a : Adapter} {rows : List Row} {key : String}
    {e : CurrentRow} (h : byKey js a (currentRows l a rows) key = some e) :
    ∃ r ∈ rows, r.isCurrent = true ∧ rowKey js l a r = key ∧ e = ⟨r.id, readRow l a r⟩ := by
  obtain ⟨hmem, hkey⟩ := byKey_some h
  obtain ⟨r, hr, hcur, -, rfl⟩ := mem_currentRows.mp hmem
  exact ⟨r, hr, hcur, hkey, rfl⟩

theorem map_eq_of_forall₂ {α β γ : Type} {R : α → β → Prop} {f : α → γ} {g : β → γ}
    {xs : List α} {ys : List β} (h : List.Forall₂ R xs ys)
    (hfg : ∀ x ∈ xs, ∀ y, R x y → f x = g y) : ys.map g = xs.map f := by
  induction h with
  | nil => rfl
  | cons hxy _ ih =>
    rw [List.map_cons, List.map_cons, hfg _ List.mem_cons_self _ hxy,
      ih fun x hx => hfg x (List.mem_cons_of_mem _ hx)]

theorem mem_of_forall₂ {α β : Type} {R : α → β → Prop} {xs : List α} {ys : List β}
    (h : List.Forall₂ R xs ys) :
    (∀ y ∈ ys, ∃ x ∈ xs, R x y) ∧ ∀ x ∈ xs, ∃ y ∈ ys, R x y := by
  induction h with
  | nil => simp
  | cons hxy _ ih =>
    simp only [List.mem_cons, forall_eq_or_imp, exists_eq_or_imp]
    exact ⟨⟨.inl hxy, fun y hy => .inr (ih.1 y hy)⟩, ⟨.inl hxy, fun x hx => .inr (ih.2 x hx)⟩⟩

theorem version_closeRow (js : JsText) (l : Lookups) (a : Adapter) (b : Nat) (ids : List Nat)
    (r : Row) : version js l a (closeRow b ids r) =
      if r.id ∈ ids ∧ r.isCurrent = true then { version js l a r with next := some b }
      else version js l a r := by
  unfold closeRow
  split <;> rfl

theorem lookupJoins_closeRow (l : Lookups) (a : Adapter) (b : Nat) (ids : List Nat) (r : Row) :
    lookupJoins l a (closeRow b ids r) = lookupJoins l a r := by
  unfold closeRow
  split <;> rfl

section Table
variable {js : JsText} {l l' : Lookups} {batches : List (Batch js)} {t : TableId}
  {data data' : TableData} {file : Accepted js} {b unchanged nextBrand : Nat}

theorem RowsInv.not_existing (hi : RowsInv js l t data) {key : String}
    (h : byKey js (adapter t) (currentRows l (adapter t) data.rows) key = none) :
    ∀ r ∈ data.rows, r.isCurrent = true → rowKey js l (adapter t) r ≠ key := fun r hr hcur =>
  byKey_none h _ (mem_currentRows.mpr ⟨r, hr, hcur, hi.joined r hr, rfl⟩)

/-- The rows that the write loop appends, and the current rows they close. -/
structure NewRows (js : JsText) (l l' : Lookups) (t : TableId) (data : TableData) (b : Nat)
    (closed : List Nat) (new : List Row) : Prop where
  batch : ∀ n ∈ new, n.batch = b ∧ n.isCurrent = true ∧ n.supersededBy = none ∧
    lookupJoins l' (adapter t) n = true
  keys : (new.map (rowKey js l' (adapter t))).Nodup
  meets : ∀ n ∈ new, ∀ r ∈ data.rows, r.isCurrent = true →
    rowKey js l (adapter t) r = rowKey js l' (adapter t) n → r.id ∈ closed
  closes : ∀ r ∈ data.rows, r.id ∈ closed → r.isCurrent = true →
    ∃ n ∈ new, rowKey js l' (adapter t) n = rowKey js l (adapter t) r

/-- The rows of the file that are written. -/
theorem mem_written {p : ParsedRow} {current : List CurrentRow}
    (hp : p ∈ (diffTable js (adapter t) current [] (file.tables t)).updates.map (·.row) ++
      (diffTable js (adapter t) current [] (file.tables t)).inserts) : p ∈ file.tables t :=
  (diffTable_perm (file.tables t)).subset (List.mem_append_left _ hp)

/-- A row to update stands for the current row that the classification found. -/
theorem exists_updated {u : RowUpdate}
    (hu : u ∈ (diffTable js (adapter t) (currentRows l (adapter t) data.rows) []
      (file.tables t)).updates) :
    ∃ r ∈ data.rows, r.isCurrent = true ∧
      rowKey js l (adapter t) r = keyOf js (adapter t) u.row.data ∧ r.id = u.existingId := by
  obtain ⟨e, he, hid⟩ := mem_diffTable_updates hu
  obtain ⟨r, hr, hcur, hrk, rfl⟩ := byKey_current he
  exact ⟨r, hr, hcur, hrk, hid⟩

/-- The rows that are written read back under their keys. -/
def ReadsKeys (js : JsText) (l' : Lookups) (t : TableId) (file : Accepted js) (b : Nat) : Prop :=
  ∀ p ∈ file.tables t, ∀ n, Inserted js l' (adapter t) b p.data n →
    rowKey js l' (adapter t) n = keyOf js (adapter t) p.data ∧ lookupJoins l' (adapter t) n = true

theorem RowsInv.newRows (hi : RowsInv js l t data) (hread : ReadsKeys js l' t file b)
    {new : List Row} (hnew : List.Forall₂ (Inserted js l' (adapter t) b)
      (((diffTable js (adapter t) (currentRows l (adapter t) data.rows) [] (file.tables t)).updates.map
          (·.row) ++
        (diffTable js (adapter t) (currentRows l (adapter t) data.rows) []
          (file.tables t)).inserts).map (·.data)) new) :
    NewRows js l l' t data b
      ((diffTable js (adapter t) (currentRows l (adapter t) data.rows) []
        (file.tables t)).updates.map (·.existingId)) new := by
  rw [List.forall₂_map_left_iff] at hnew
  obtain ⟨hfrom, hto⟩ := mem_of_forall₂ hnew
  refine ⟨?_, ?_, ?_, ?_⟩
  · intro n hn
    obtain ⟨p, hp, hins⟩ := hfrom n hn
    exact ⟨hins.batch, hins.current, hins.superseded, (hread p (mem_written hp) n hins).2⟩
  · rw [map_eq_of_forall₂ hnew fun p hp n hn => (hread p (mem_written hp) n hn).1.symm]
    exact (((diffTable_perm (file.tables t)).map _).nodup_iff.mpr (file.distinct t)).sublist
      ((List.sublist_append_left _ _).map _)
  · intro n hn r hr hcur hrk
    obtain ⟨p, hp, hins⟩ := hfrom n hn
    rw [(hread p (mem_written hp) n hins).1] at hrk
    rcases List.mem_append.mp hp with hp | hp
    · obtain ⟨u, hu, rfl⟩ := List.mem_map.mp hp
      obtain ⟨r', hr', hcur', hrk', hid⟩ := exists_updated hu
      rw [hi.eq_of_current hr hr' hcur hcur' (hrk.trans hrk'.symm), hid]
      exact List.mem_map_of_mem hu
    · exact absurd hrk (hi.not_existing (mem_diffTable_inserts hp) r hr hcur)
  · intro r hr hid hcur
    obtain ⟨u, hu, hue⟩ := List.mem_map.mp hid
    obtain ⟨r', hr', _, hrk', hid'⟩ := exists_updated hu
    have hp := List.mem_append_left
      (diffTable js (adapter t) (currentRows l (adapter t) data.rows) [] (file.tables t)).inserts
      (List.mem_map_of_mem (f := (·.row)) hu)
    obtain ⟨n, hn, hins⟩ := hto _ hp
    refine ⟨n, hn, ?_⟩
    rw [(hread _ (mem_written hp) n hins).1, ← hrk',
      List.inj_on_of_nodup_map hi.ids hr hr' (hue.symm.trans hid'.symm)]

/-- The rows that the write loop appends, read back, and what they stand for. -/
structure Appended (js : JsText) (l l' : Lookups) (t : TableId) (data : TableData)
    (file : Accepted js) (b : Nat) (closed : List Nat) (new : List Row) : Prop where
  batch : ∀ n ∈ new, n.batch = b ∧ n.isCurrent = true ∧ n.supersededBy = none ∧
    lookupJoins l' (adapter t) n = true
  keys : (new.map (rowKey js l' (adapter t))).Nodup
  /-- A new row states its key, and closes the current row of the key if there is one. -/
  states : ∀ n ∈ new, file.states t (rowKey js l' (adapter t) n) =
      some (values js (adapter t) (readRow l' (adapter t) n)) ∧
    ∀ r ∈ data.rows, r.isCurrent = true →
      rowKey js l (adapter t) r = rowKey js l' (adapter t) n → r.id ∈ closed
  closes : ∀ r ∈ data.rows, r.id ∈ closed → r.isCurrent = true →
    ∃ n ∈ new, rowKey js l' (adapter t) n = rowKey js l (adapter t) r
  covers : ∀ k v, file.states t k = some v →
    (∃ n ∈ new, rowKey js l' (adapter t) n = k) ∨
      ((∃ r ∈ data.rows, r.isCurrent = true ∧ rowKey js l (adapter t) r = k ∧
        values js (adapter t) (readRow l (adapter t) r) = v) ∧
        0 < (diffTable js (adapter t) (currentRows l (adapter t) data.rows) []
          (file.tables t)).unchanged.length)

theorem Appended.newRows {closed : List Nat} {new : List Row}
    (ha : Appended js l l' t data file b closed new) : NewRows js l l' t data b closed new :=
  ⟨ha.batch, ha.keys, fun n hn => (ha.states n hn).2, ha.closes⟩

theorem readsKeys_of_spelled (hl : l'.Valid js nextBrand)
    (hs : ∀ p ∈ file.tables t, Spelled l' t p.data) : ReadsKeys js l' t file b := fun p hp _ hn =>
  ⟨hn.key_eq hl (hs p hp), hn.joined hl (hs p hp)⟩

theorem TableInv.appended (hi : TableInv l batches t data) (hl : l'.Valid js nextBrand)
    (hs : ∀ p ∈ file.tables t, Spelled l' t p.data) {new : List Row}
    (hnew : List.Forall₂ (Inserted js l' (adapter t) b)
      (((diffTable js (adapter t) (currentRows l (adapter t) data.rows) [] (file.tables t)).updates.map
          (·.row) ++
        (diffTable js (adapter t) (currentRows l (adapter t) data.rows) []
          (file.tables t)).inserts).map (·.data)) new) :
    Appended js l l' t data file b
      ((diffTable js (adapter t) (currentRows l (adapter t) data.rows) []
        (file.tables t)).updates.map (·.existingId)) new := by
  have hread : ReadsKeys js l' t file b := readsKeys_of_spelled hl hs
  have hn := hi.rows.newRows hread hnew
  rw [List.forall₂_map_left_iff] at hnew
  obtain ⟨hfrom, hto⟩ := mem_of_forall₂ hnew
  refine ⟨hn.batch, hn.keys, ?_, hn.closes, ?_⟩
  · intro n hmem
    obtain ⟨p, hp, hins⟩ := hfrom n hmem
    refine ⟨?_, hn.meets n hmem⟩
    rw [states_some, (hread p (mem_written hp) n hins).1,
      hins.values_eq hl (hs p (mem_written hp))]
    exact ⟨p, mem_written hp, rfl, rfl⟩
  · intro k v hk
    obtain ⟨p, hp, rfl, rfl⟩ := states_some.mp hk
    have hperm := @diffTable_perm js (adapter t) (currentRows l (adapter t) data.rows)
      (file.tables t)
    rcases List.mem_append.mp (hperm.symm.subset hp) with hp' | hp'
    · obtain ⟨n, hn, hins⟩ := hto p hp'
      exact .inl ⟨n, hn, (hread p hp n hins).1⟩
    · refine .inr ⟨?_, List.length_pos_of_mem hp'⟩
      obtain ⟨e, he, hsame⟩ := mem_diffTable_unchanged hp'
      obtain ⟨r, hr, hcur, hrk, rfl⟩ := byKey_current he
      exact ⟨r, hr, hcur, hrk, values_eq_iff.mpr (fieldChanges_eq_nil.mp hsame)⟩

/-- The rows read back under tables of names that name every brand they use. -/
def SameNames (js : JsText) (l l' : Lookups) (t : TableId) (rows : List Row) : Prop :=
  ∀ r ∈ rows, version js l' (adapter t) r = version js l (adapter t) r ∧
    lookupJoins l' (adapter t) r = lookupJoins l (adapter t) r

theorem SameNames.rowKey_eq {rows : List Row} (h : SameNames js l l' t rows) {r : Row}
    (hr : r ∈ rows) : rowKey js l' (adapter t) r = rowKey js l (adapter t) r :=
  congrArg Version.key (h r hr).1

/-- Closing the rows is what appending does to their versions. -/
theorem RowsInv.version_close (hi : RowsInv js l t data) {closed : List Nat}
    {new : List Row} (ha : NewRows js l l' t data b closed new)
    (hsame : SameNames js l l' t data.rows) {r : Row} (hr : r ∈ data.rows) :
    version js l' (adapter t) (closeRow b closed r) =
      close b (versions js l' (adapter t) new) (version js l (adapter t) r) := by
  have hiff : (r.id ∈ closed ∧ r.isCurrent = true) ↔
      ((version js l (adapter t) r).next = none ∧
        ∃ v ∈ versions js l' (adapter t) new, v.key = (version js l (adapter t) r).key) := by
    constructor
    · rintro ⟨hid, hcur⟩
      obtain ⟨n, hn, hk⟩ := ha.closes r hr hid hcur
      exact ⟨(hi.flag r hr).mp hcur, _, ⟨n, hn, rfl⟩, hk⟩
    · rintro ⟨hopen, v, ⟨n, hn, rfl⟩, hk⟩
      have hcur := (hi.flag r hr).mpr hopen
      exact ⟨ha.meets n hn r hr hcur hk.symm, hcur⟩
  rw [version_closeRow, (hsame r hr).1]
  unfold close
  by_cases h : r.id ∈ closed ∧ r.isCurrent = true
  · rw [if_pos h, if_pos (hiff.mp h)]
  · rw [if_neg h, if_neg fun h' => h (hiff.mpr h')]

theorem NewRows.opens {closed : List Nat} {new : List Row}
    (ha : NewRows js l l' t data b closed new) : Opens b (versions js l' (adapter t) new) := by
  constructor
  · rintro _ ⟨n, hn, rfl⟩
    exact (ha.batch n hn).1
  · rintro _ ⟨n, hn, rfl⟩
    exact (ha.batch n hn).2.2.1
  · rintro _ ⟨n, hn, rfl⟩ _ ⟨n', hn', rfl⟩ hk
    rw [List.inj_on_of_nodup_map ha.keys hn hn' hk]

theorem TableInv.fresh_versions (hi : TableInv l batches t data) {closed : List Nat}
    {new : List Row} (ha : Appended js l l' t data file b closed new) :
    Fresh (versions js l (adapter t) data.rows) b (file.states t)
      (versions js l' (adapter t) new) := by
  have ho := ha.newRows.opens
  refine ⟨ho.batch, ho.isOpen, ?_, ho.unique, ?_⟩
  · rintro _ ⟨n, hn, rfl⟩
    exact (ha.states n hn).1
  · intro k v hk
    rcases ha.covers k v hk with ⟨n, hn, hnk⟩ | ⟨⟨r, hr, hcur, hrk, hv⟩, -⟩
    · exact .inl ⟨_, ⟨n, hn, rfl⟩, hnk⟩
    · exact .inr ⟨_, ⟨r, hr, rfl⟩, hrk, (hi.flag r hr).mp hcur, hv⟩

/-- What writing the rows `new` does to a table. -/
structure Committed (js : JsText) (l l' : Lookups) (t : TableId) (b : Nat)
    (data data' : TableData) (new : List Row) : Prop where
  rows : RowsInv js l' t data'
  versions : versions js l' (adapter t) data'.rows =
    append b (versions js l' (adapter t) new) (Marcom.versions js l (adapter t) data.rows)
  kept : ∀ r ∈ data.rows, ∃ r' ∈ data'.rows, r'.batch = r.batch ∧
    rowKey js l' (adapter t) r' = rowKey js l (adapter t) r
  added : ∀ n ∈ new, n ∈ data'.rows
  owned : ∀ r' ∈ data'.rows, r'.batch = b ∨ ∃ r ∈ data.rows, r'.batch = r.batch

/-- **Importing a file keeps the rows of each table linked.** -/
theorem RowsInv.commit (hi : RowsInv js l t data) (hread : ReadsKeys js l' t file b)
    (hsame : SameNames js l l' t data.rows) (hlt : ∀ r ∈ data.rows, r.batch < b)
    (hw : writeTable js l' (adapter t) b (diffTable js (adapter t)
      (currentRows l (adapter t) data.rows) [] (file.tables t)) data = some data') :
    ∃ new, List.Forall₂ (Inserted js l' (adapter t) b)
        (((diffTable js (adapter t) (currentRows l (adapter t) data.rows) []
          (file.tables t)).updates.map (·.row) ++
        (diffTable js (adapter t) (currentRows l (adapter t) data.rows) []
          (file.tables t)).inserts).map (·.data)) new ∧
      Committed js l l' t b data data' new := by
  have hold : ∀ u ∈ (diffTable js (adapter t) (currentRows l (adapter t) data.rows) []
      (file.tables t)).updates, u.existingId < data.nextId := by
    intro u hu
    obtain ⟨r, hr, -, -, hid⟩ := exists_updated hu
    rw [← hid]
    exact hi.fresh r hr
  obtain ⟨new, hrows, hins, hnewIds, hnext⟩ := writeTable_wrote hold hw
  refine ⟨new, hins, ?_⟩
  have ha := hi.newRows hread hins
  generalize (diffTable js (adapter t) (currentRows l (adapter t) data.rows) []
    (file.tables t)).updates.map (·.existingId) = closed at hrows ha
  have hnewId : ∀ n ∈ new, data.nextId ≤ n.id ∧ n.id < data'.nextId := by
    intro n hn
    have hmem : n.id ∈ List.range' data.nextId new.length := hnewIds ▸ List.mem_map_of_mem hn
    rw [List.mem_range'] at hmem
    omega
  have hmem : ∀ r, r ∈ data'.rows ↔ (∃ o ∈ data.rows, closeRow b closed o = r) ∨ r ∈ new := by
    intro r
    rw [hrows, List.mem_append, List.mem_map]
  have hversions : versions js l' (adapter t) data'.rows =
      append b (versions js l' (adapter t) new) (versions js l (adapter t) data.rows) := by
    ext v
    constructor
    · rintro ⟨r, hr, rfl⟩
      rcases (hmem r).mp hr with ⟨o, ho, rfl⟩ | hn
      · exact .inl ⟨_, ⟨o, ho, rfl⟩, (hi.version_close ha hsame ho).symm⟩
      · exact .inr ⟨r, hn, rfl⟩
    · rintro (⟨_, ⟨o, ho, rfl⟩, rfl⟩ | ⟨n, hn, rfl⟩)
      · exact ⟨_, (hmem _).mpr (.inl ⟨o, ho, rfl⟩), hi.version_close ha hsame ho⟩
      · exact ⟨n, (hmem n).mpr (.inr hn), rfl⟩
  refine ⟨⟨?_, ?_, ?_, ?_, ?_⟩, hversions, ?_, fun n hn => (hmem n).mpr (.inr hn), ?_⟩
  · rw [hrows, List.map_append, List.map_map]
    refine List.Nodup.append ?_ (hnewIds ▸ List.nodup_range') ?_
    · simpa [Function.comp_def] using hi.ids
    · intro i h₁ h₂
      obtain ⟨o, ho, rfl⟩ := List.mem_map.mp h₁
      obtain ⟨n, hn, hni⟩ := List.mem_map.mp h₂
      have := hi.fresh o ho
      have := (hnewId n hn).1
      simp at hni
      omega
  · intro r hr
    rcases (hmem r).mp hr with ⟨o, ho, rfl⟩ | hn
    · have := hi.fresh o ho
      rw [closeRow_id]
      omega
    · exact (hnewId r hn).2
  · intro r hr
    rcases (hmem r).mp hr with ⟨o, ho, rfl⟩ | hn
    · have := hi.flag o ho
      unfold closeRow
      split
      · simp
      · exact this
    · obtain ⟨-, hcur, hsup, -⟩ := ha.batch r hn
      simp [hcur, hsup]
  · intro r hr
    rcases (hmem r).mp hr with ⟨o, ho, rfl⟩ | hn
    · rw [lookupJoins_closeRow, (hsame o ho).2]
      exact hi.joined o ho
    · exact (ha.batch r hn).2.2.2
  · rw [hversions]
    refine hi.links.append ha.opens ?_
    rintro _ ⟨r, hr, rfl⟩
    exact hlt r hr
  · intro r hr
    have hv := hi.version_close ha hsame hr
    refine ⟨_, (hmem _).mpr (.inl ⟨r, hr, rfl⟩), ?_, ?_⟩
    · exact (congrArg Version.batch hv).trans (close_batch _ _ _)
    · exact (congrArg Version.key hv).trans (close_key _ _ _)
  · intro r' hr'
    rcases (hmem r').mp hr' with ⟨r, hr, rfl⟩ | hn
    · refine .inr ⟨r, hr, ?_⟩
      unfold closeRow
      split <;> rfl
    · exact .inl (ha.batch r' hn).1

/-- **Importing a file keeps the invariant of each table.** -/
theorem TableInv.commit (hi : TableInv l batches t data) (hl : l'.Valid js nextBrand)
    (hs : ∀ p ∈ file.tables t, Spelled l' t p.data) (hsame : SameNames js l l' t data.rows)
    (hfresh : ∀ x ∈ batches, x.id < b)
    (hcount : (diffTable js (adapter t) (currentRows l (adapter t) data.rows) []
      (file.tables t)).unchanged.length ≤ unchanged)
    (hw : writeTable js l' (adapter t) b (diffTable js (adapter t)
      (currentRows l (adapter t) data.rows) [] (file.tables t)) data = some data') :
    TableInv l' (batches ++ [⟨b, .success, some file, unchanged⟩]) t data' := by
  have hnew : ∀ b' k v, stated batches t b' k = some v → b' < b := by
    intro b' k v hk
    obtain ⟨x, hx, rfl, -⟩ := stated_some hk
    exact hfresh x hx
  obtain ⟨new, hins, hc⟩ := hi.rows.commit (readsKeys_of_spelled hl hs) hsame
    (fun r hr => hnew _ _ _ (hi.chain.owned _ ⟨r, hr, rfl⟩)) hw
  have ha := hi.appended hl hs hins
  have hstated := stated_append file unchanged hfresh t
  refine ⟨hc.rows.ids, hc.rows.fresh, hc.rows.flag, hc.rows.joined, ?_, ?_⟩
  · rw [hc.versions, hstated]
    exact hi.chain.append (hi.fresh_versions ha) hnew
  · intro x hx hsucc k v hk
    rw [hstated] at hk
    rcases List.mem_append.mp hx with hx | hx
    · have := hfresh x hx
      rw [Function.update_of_ne (by omega)] at hk
      rcases hi.restated x hx hsucc k v hk with ⟨o, ho, hob, hok⟩ | hpos
      · obtain ⟨r, hr, hrb, hrk⟩ := hc.kept o ho
        exact .inl ⟨r, hr, hrb.trans hob, hrk.trans hok⟩
      · exact .inr hpos
    · rw [List.mem_singleton] at hx
      subst hx
      rw [Function.update_self] at hk
      rcases ha.covers k v hk with ⟨n, hn, hnk⟩ | ⟨-, hpos⟩
      · exact .inl ⟨n, hc.added n hn, (ha.batch n hn).1, hnk⟩
      · exact .inr (by show 0 < unchanged; omega)

end Table

/-! ## The brands a file adds -/

theorem foldl_newBrands (js : JsText) (known texts out : List String)
    (hout : (out.map js.toLowerCase).Nodup ∧
      ∀ s ∈ out, js.toLowerCase s ∉ known.map js.toLowerCase) :
    ((texts.foldl (fun out b => if js.toLowerCase b ∈ known.map js.toLowerCase ∨
      js.toLowerCase b ∈ out.map js.toLowerCase then out else out ++ [b]) out).map
        js.toLowerCase).Nodup ∧
    ∀ s ∈ texts.foldl (fun out b => if js.toLowerCase b ∈ known.map js.toLowerCase ∨
      js.toLowerCase b ∈ out.map js.toLowerCase then out else out ++ [b]) out,
      js.toLowerCase s ∉ known.map js.toLowerCase := by
  induction texts generalizing out with
  | nil => exact hout
  | cons b texts ih =>
    rw [List.foldl_cons]
    apply ih
    split
    · exact hout
    · next hb =>
      rw [not_or] at hb
      constructor
      · rw [List.map_append, List.map_singleton, List.nodup_append]
        refine ⟨hout.1, List.nodup_singleton _, ?_⟩
        intro x hx y hy hxy
        rw [List.mem_singleton] at hy
        exact hb.2 (hy ▸ hxy ▸ hx)
      · intro s hs
        rcases List.mem_append.mp hs with hs | hs
        · exact hout.2 s hs
        · rw [List.mem_singleton.mp hs]
          exact hb.1

theorem newBrandsOf_names (js : JsText) (tables : TableId → List ParsedRow) (known : List String) :
    ((newBrandsOf js tables known).map js.toLowerCase).Nodup ∧
      ∀ s ∈ newBrandsOf js tables known, js.toLowerCase s ∉ known.map js.toLowerCase := by
  unfold newBrandsOf
  exact foldl_newBrands js known _ [] ⟨List.nodup_nil, fun _ hs => by cases hs⟩

theorem insertBrands_map (batchId : Nat) (names : List String) (id : Nat) :
    (insertBrands batchId names id).map (·.id) = List.range' id names.length ∧
      (insertBrands batchId names id).map (·.name) = names := by
  induction names generalizing id with
  | nil => exact ⟨rfl, rfl⟩
  | cons name names ih =>
    simp only [insertBrands, List.map_cons, List.length_cons, List.range'_succ]
    rw [(ih (id + 1)).1, (ih (id + 1)).2]
    exact ⟨rfl, rfl⟩

theorem Lookups.Valid.insertBrands {js : JsText} {l : Lookups} {next : Nat} (hl : l.Valid js next)
    (batchId : Nat) {names : List String} (hn : (names.map js.toLowerCase).Nodup)
    (hknown : ∀ s ∈ names, js.toLowerCase s ∉ (l.brands.map (·.name)).map js.toLowerCase) :
    Lookups.Valid js { l with brands := l.brands ++ Marcom.insertBrands batchId names next }
      (next + names.length) := by
  obtain ⟨hids, hnames⟩ := insertBrands_map batchId names next
  have hlow : (Marcom.insertBrands batchId names next).map (fun b => js.toLowerCase b.name) =
      names.map js.toLowerCase := by
    conv_rhs => rw [← hnames, List.map_map]
    rfl
  have hrange : ∀ b ∈ Marcom.insertBrands batchId names next,
      next ≤ b.id ∧ b.id < next + names.length := by
    intro b hb
    have hmem : b.id ∈ List.range' next names.length := hids ▸ List.mem_map_of_mem hb
    rw [List.mem_range'] at hmem
    omega
  refine ⟨?_, ?_, ?_, hl.categoryIds, hl.categoryNames⟩
  · rw [List.map_append, hids, List.nodup_append]
    refine ⟨hl.brandIds, List.nodup_range', ?_⟩
    intro i hi j hj hij
    obtain ⟨b, hb, rfl⟩ := List.mem_map.mp hi
    have := hl.brandFresh b hb
    rw [List.mem_range'] at hj
    omega
  · rw [List.map_append, hlow, List.nodup_append]
    refine ⟨hl.brandNames, hn, ?_⟩
    intro x hx y hy hxy
    obtain ⟨b, hb, rfl⟩ := List.mem_map.mp hx
    obtain ⟨s, hs, rfl⟩ := List.mem_map.mp hy
    refine hknown s hs ?_
    rw [← hxy, List.map_map]
    exact List.mem_map_of_mem hb
  · intro b hb
    rcases List.mem_append.mp hb with hb | hb
    · have := hl.brandFresh b hb
      omega
    · exact (hrange b hb).2

theorem sameNames_append {js : JsText} {l : Lookups} {t : TableId} {rows : List Row}
    (new : List Brand) (hj : ∀ r ∈ rows, lookupJoins l (adapter t) r = true) :
    SameNames js l { l with brands := l.brands ++ new } t rows := by
  intro r hr
  refine version_congr ?_ rfl
  intro hu
  have hjoin := hj r hr
  unfold lookupJoins at hjoin
  simp only [hu, Bool.not_true, Bool.false_or, Bool.and_eq_true] at hjoin
  obtain ⟨name, hname⟩ := Option.isSome_iff_exists.mp hjoin.1
  obtain ⟨id, hid, hname⟩ := Option.bind_eq_some_iff.mp hname
  unfold Lookups.brandName at hname
  obtain ⟨b, hb, -⟩ := Option.map_eq_some_iff.mp hname
  rw [hid]
  simp only [Option.bind_some, Lookups.brandName, List.find?_append, hb, Option.some_or]

/-! ## The import as a whole -/

/-- Every brand of the file is spelled as the store spells it: as a stored brand
name, or as the new brand that the import creates for it. -/
def BrandsSpelled {js : JsText} (st : Store js) (file : Accepted js) : Prop :=
  ∀ t, (adapter t).uses .brand = true → ∀ p ∈ file.tables t,
    ∃ name ∈ st.lookups.brands.map (·.name) ++
      newBrandsOf js file.tables (st.lookups.brands.map (·.name)), p.data .brand = .text name

theorem known_category {l : Lookups} {tables : TableId → List ParsedRow} {t : TableId}
    (h : unknownCategory l tables = false) (hu : (adapter t).uses .category = true)
    {p : ParsedRow} (hp : p ∈ tables t) :
    ∃ c ∈ l.categories, p.data .category = .text c.name := by
  unfold unknownCategory at h
  have ht := List.any_eq_false.mp h t (mem_tableIds t)
  rw [hu, Bool.true_and] at ht
  have hrow := List.any_eq_false.mp (Bool.eq_false_iff.mpr ht) p hp
  simp only [Bool.not_eq_true', Bool.not_eq_false, List.any_eq_true, Bool.and_eq_true,
    decide_eq_true_eq] at hrow
  obtain ⟨c, hc, -, hname⟩ := hrow
  exact ⟨c, hc, hname⟩

/-- What a successful import does. -/
structure Imported {js : JsText} (st : Store js) (file : Accepted js) (st' : Store js) : Prop where
  known : unknownCategory st.lookups file.tables = false
  lookups : st'.lookups = { st.lookups with
    brands := st.lookups.brands ++ insertBrands st.nextBatch
      (newBrandsOf js file.tables (st.lookups.brands.map (·.name))) st.nextBrand }
  nextBrand : st'.nextBrand =
    st.nextBrand + (newBrandsOf js file.tables (st.lookups.brands.map (·.name))).length
  batches : ∃ unchanged,
    st'.batches = st.batches ++ [⟨st.nextBatch, .success, some file, unchanged⟩] ∧
      ∀ t, (diffTable js (adapter t) (currentRows st.lookups (adapter t) (st.tables t).rows) []
        (file.tables t)).unchanged.length ≤ unchanged
  nextBatch : st'.nextBatch = st.nextBatch + 1
  written : ∀ t, writeTable js st'.lookups (adapter t) st.nextBatch
    (diffTable js (adapter t) (currentRows st.lookups (adapter t) (st.tables t).rows) []
      (file.tables t)) (st.tables t) = some (st'.tables t)

theorem commitUpload_some {js : JsText} {st st' : Store js} {file : Accepted js} {confirm : Bool}
    (h : commitUpload st file confirm = some st') : Imported st file st' := by
  unfold Marcom.commitUpload at h
  split at h
  · cases h
  next hcat =>
  simp only at h
  split at h
  · cases h
  split at h
  next hall =>
    cases h
    refine ⟨Bool.eq_false_iff.mpr hcat, rfl, rfl, ⟨_, rfl, fun t => ?_⟩, rfl, fun t => ?_⟩
    · exact List.le_sum_of_mem (List.mem_map_of_mem (mem_tableIds t))
    · obtain ⟨data, hdata⟩ := Option.isSome_iff_exists.mp
        (List.all_eq_true.mp hall t (mem_tableIds t))
      simp only [hdata, Option.getD_some]
  · cases h

section Import
variable {js : JsText} {st st' : Store js} {file : Accepted js}

theorem Imported.valid (h : Imported st file st') (hl : st.lookups.Valid js st.nextBrand) :
    st'.lookups.Valid js st'.nextBrand := by
  obtain ⟨hnodup, hknown⟩ := newBrandsOf_names js file.tables (st.lookups.brands.map (·.name))
  rw [h.lookups, h.nextBrand]
  exact hl.insertBrands st.nextBatch hnodup hknown

theorem Imported.sameNames (h : Imported st file st') {t : TableId}
    (hj : ∀ r ∈ (st.tables t).rows, lookupJoins st.lookups (adapter t) r = true) :
    SameNames js st.lookups st'.lookups t (st.tables t).rows := by
  rw [h.lookups]
  exact sameNames_append _ hj

theorem Imported.category (h : Imported st file st') {t : TableId}
    (hu : (adapter t).uses .category = true) {p : ParsedRow} (hp : p ∈ file.tables t) :
    ∃ c ∈ st'.lookups.categories, p.data .category = .text c.name := by
  rw [h.lookups]
  exact known_category h.known hu hp

theorem Imported.spelled (h : Imported st file st') (hs : BrandsSpelled st file) (t : TableId) :
    ∀ p ∈ file.tables t, Spelled st'.lookups t p.data := by
  refine fun p hp => ⟨fun hu => ?_, fun hu => h.category hu hp⟩
  obtain ⟨name, hname, hdata⟩ := hs t hu p hp
  have hnames := (insertBrands_map st.nextBatch
    (newBrandsOf js file.tables (st.lookups.brands.map (·.name))) st.nextBrand).2
  rw [← hnames, ← List.map_append] at hname
  obtain ⟨b, hb, rfl⟩ := List.mem_map.mp hname
  rw [h.lookups]
  exact ⟨b, hb, hdata⟩

end Import

/-- A batch with a new number keeps the numbers distinct. -/
theorem nodup_newBatch {js : JsText} {batches : List (Batch js)} {n : Nat}
    (hn : (batches.map (·.id)).Nodup) (hfresh : ∀ b ∈ batches, b.id < n) {b : Batch js}
    (hb : n ≤ b.id) : ((batches ++ [b]).map (·.id)).Nodup := by
  rw [List.map_append, List.nodup_append]
  refine ⟨hn, List.nodup_singleton _, ?_⟩
  intro i hmem j hj hij
  obtain ⟨c, hc, rfl⟩ := List.mem_map.mp hmem
  have := hfresh c hc
  simp only [List.map_singleton, List.mem_singleton] at hj
  omega

theorem lt_newBatch {js : JsText} {batches : List (Batch js)} {n : Nat}
    (hfresh : ∀ b ∈ batches, b.id < n) {b : Batch js} (hb : n ≤ b.id) :
    ∀ c ∈ batches ++ [b], c.id < b.id + 1 := by
  intro c hc
  rcases List.mem_append.mp hc with hc | hc
  · have := hfresh c hc
    omega
  · rw [List.mem_singleton.mp hc]
    exact Nat.lt_succ_self _

theorem Inv.commitUpload {js : JsText} {st st' : Store js} {file : Accepted js} {confirm : Bool}
    (hi : Inv st) (hs : BrandsSpelled st file) (h : commitUpload st file confirm = some st') :
    Inv st' := by
  have him := commitUpload_some h
  obtain ⟨unchanged, hbatches, hcount⟩ := him.batches
  refine ⟨him.valid hi.lookups, ?_, ?_, ?_, ?_⟩
  · rw [hbatches]
    exact nodup_newBatch hi.batchIds hi.batchFresh le_rfl
  · rw [hbatches, him.nextBatch]
    exact lt_newBatch hi.batchFresh le_rfl
  · intro b hb hsucc
    rw [hbatches] at hb
    rcases List.mem_append.mp hb with hb | hb
    · exact hi.stored b hb hsucc
    · exact ⟨file, by rw [List.mem_singleton.mp hb]⟩
  · intro t
    rw [hbatches]
    exact (hi.tables t).commit (him.valid hi.lookups) (him.spelled hs t)
      (him.sameNames (hi.tables t).joined) hi.batchFresh (hcount t) (him.written t)

/-- A failed import adds a batch that states nothing. -/
theorem Inv.commitFailed {js : JsText} {st : Store js} (hi : Inv st) (used : Nat) :
    Inv (commitFailed st used) := by
  have hstated : ∀ t, stated (st.batches ++ [⟨st.nextBatch + used, .failed, none, 0⟩]) t =
      stated st.batches t := by
    intro t
    funext b k
    unfold stated
    rw [List.find?_append]
    cases h : st.batches.find? fun x => decide (x.id = b) with
    | some x => rfl
    | none =>
      by_cases hb : st.nextBatch + used = b <;> simp [hb]
  refine ⟨hi.lookups, ?_, ?_, ?_, ?_⟩
  · exact nodup_newBatch hi.batchIds hi.batchFresh (Nat.le_add_right _ _)
  · exact lt_newBatch hi.batchFresh (b := ⟨st.nextBatch + used, .failed, none, 0⟩)
      (Nat.le_add_right _ _)
  · intro b hb hsucc
    rcases List.mem_append.mp hb with hb | hb
    · exact hi.stored b hb hsucc
    · rw [List.mem_singleton.mp hb] at hsucc
      cases hsucc
  · intro t
    have ht := hi.tables t
    refine ⟨ht.ids, ht.fresh, ht.flag, ht.joined, ?_, ?_⟩
    · show Chained _ (stated (st.batches ++ [_]) t)
      rw [hstated]
      exact ht.chain
    · intro b hb hsucc k v hk
      rw [show (Marcom.commitFailed st used).batches =
        st.batches ++ [⟨st.nextBatch + used, .failed, none, 0⟩] from rfl, hstated] at hk
      rcases List.mem_append.mp hb with hb | hb
      · exact ht.restated b hb hsucc k v hk
      · rw [List.mem_singleton.mp hb] at hsucc
        cases hsucc

end SalesDashboard.Marcom
