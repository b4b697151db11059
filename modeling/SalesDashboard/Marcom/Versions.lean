import SalesDashboard.Lib.Keyed
import SalesDashboard.Lib.VersionChain
import SalesDashboard.Marcom.Store

/-! The rows of a MARCOM table as versions of keyed values, what each successful
batch states, and the invariant of the store. The lemmas on reading rows back are
here; the writers are in `Commit.lean` and `Removal.lean`. -/

namespace SalesDashboard.Marcom
open VersionChain

/-! ## The abstract view -/

/-- The normalised values of a row, field by field. -/
def values (js : JsText) (a : Adapter) (data : Data) : List (Option String) :=
  a.fields.map fun fd => normalize js fd.type (data fd.field)

def rowKey (js : JsText) (l : Lookups) (a : Adapter) (r : Row) : String :=
  keyOf js a (readRow l a r)

def version (js : JsText) (l : Lookups) (a : Adapter) (r : Row) :
    Version String (List (Option String)) :=
  ⟨r.id, rowKey js l a r, r.batch, r.supersededBy, values js a (readRow l a r)⟩

/-- The versions a table holds. -/
def versions (js : JsText) (l : Lookups) (a : Adapter) (rows : List Row) :
    Set (Version String (List (Option String))) :=
  { v | ∃ r ∈ rows, version js l a r = v }

/-- What a file states for a key. -/
def Accepted.states {js : JsText} (file : Accepted js) (t : TableId) (key : String) :
    Option (List (Option String)) :=
  ((file.tables t).find? fun r => keyOf js (adapter t) r.data = key).map
    fun r => values js (adapter t) r.data

/-- What the successful batches state. -/
def stated {js : JsText} (batches : List (Batch js)) (t : TableId) :
    Stated String (List (Option String)) := fun b key =>
  (batches.find? (·.id = b)).bind fun x =>
    if x.status = .success then x.file.bind fun file => file.states t key else none

/-! ## The invariant -/

/-- The lookup tables name every id and every name once. -/
structure Lookups.Valid (js : JsText) (l : Lookups) (nextBrand : Nat) : Prop where
  brandIds : (l.brands.map (·.id)).Nodup
  brandNames : (l.brands.map fun b => js.toLowerCase b.name).Nodup
  brandFresh : ∀ b ∈ l.brands, b.id < nextBrand
  categoryIds : (l.categories.map (·.id)).Nodup
  categoryNames : (l.categories.map fun c => js.toLowerCase c.name).Nodup

structure TableInv {js : JsText} (l : Lookups) (batches : List (Batch js)) (t : TableId)
    (data : TableData) : Prop where
  ids : (data.rows.map (·.id)).Nodup
  fresh : ∀ r ∈ data.rows, r.id < data.nextId
  flag : ∀ r ∈ data.rows, r.isCurrent = true ↔ r.supersededBy = none
  joined : ∀ r ∈ data.rows, lookupJoins l (adapter t) r = true
  chain : Chained (versions js l (adapter t) data.rows) (stated batches t)
  /-- A successful batch without a row for a key of its file left it unchanged. -/
  restated : ∀ b ∈ batches, b.status = .success → ∀ k v, stated batches t b.id k = some v →
    (∃ r ∈ data.rows, r.batch = b.id ∧ rowKey js l (adapter t) r = k) ∨ 0 < b.unchanged

/-- The part that does not speak of what the batches state: the ids, the flags and
the links of the stored rows. -/
structure RowsInv (js : JsText) (l : Lookups) (t : TableId) (data : TableData) : Prop where
  ids : (data.rows.map (·.id)).Nodup
  fresh : ∀ r ∈ data.rows, r.id < data.nextId
  flag : ∀ r ∈ data.rows, r.isCurrent = true ↔ r.supersededBy = none
  joined : ∀ r ∈ data.rows, lookupJoins l (adapter t) r = true
  links : Linked (versions js l (adapter t) data.rows)

theorem TableInv.rows {js : JsText} {l : Lookups} {batches : List (Batch js)} {t : TableId}
    {data : TableData} (h : TableInv l batches t data) : RowsInv js l t data :=
  ⟨h.ids, h.fresh, h.flag, h.joined, h.chain.linked⟩

/-- The invariant of the store. -/
structure Inv {js : JsText} (st : Store js) : Prop where
  lookups : st.lookups.Valid js st.nextBrand
  batchIds : (st.batches.map (·.id)).Nodup
  batchFresh : ∀ b ∈ st.batches, b.id < st.nextBatch
  stored : ∀ b ∈ st.batches, b.status = .success → ∃ file, b.file = some file
  tables : ∀ t, TableInv st.lookups st.batches t (st.tables t)

/-- Empty MARCOM tables: no batch and no row, whatever brands and categories the
database was seeded with. -/
structure Empty {js : JsText} (st : Store js) : Prop where
  lookups : st.lookups.Valid js st.nextBrand
  batches : st.batches = []
  tables : ∀ t, (st.tables t).rows = []

theorem inv_of_empty {js : JsText} {st : Store js} (h : Empty st) : Inv st where
  lookups := h.lookups
  batchIds := by simp [h.batches]
  batchFresh := by simp [h.batches]
  stored := by simp [h.batches]
  tables t := by
    constructor <;> simp [h.batches, h.tables t]
    constructor <;> simp [versions, stated]

/-! ## The fields of an adapter -/

theorem find_field (t : TableId) : ∀ fd ∈ (adapter t).fields,
    (adapter t).fields.find? (fun x => decide (x.field = fd.field)) = some fd := by
  cases t <;> decide

theorem keyFields_subset (t : TableId) : ∀ k ∈ (adapter t).keyFields,
    ∃ fd ∈ (adapter t).fields, fd.field = k := by
  cases t <;> decide

theorem lookup_field (t : TableId) : ∀ fd ∈ (adapter t).fields,
    (fd.type = .brand → fd.field = .brand ∧ (adapter t).uses .brand = true) ∧
    (fd.type = .category → fd.field = .category ∧ (adapter t).uses .category = true) := by
  cases t <;> decide

theorem readRow_field (l : Lookups) (t : TableId) (r : Row) (fd : FieldDef)
    (h : fd ∈ (adapter t).fields) : readRow l (adapter t) r fd.field = selectCol l fd r := by
  unfold readRow
  rw [find_field t fd h]

theorem values_eq_iff {js : JsText} {t : TableId} {d d' : Data} :
    values js (adapter t) d = values js (adapter t) d' ↔
      ∀ fd ∈ (adapter t).fields,
        normalize js fd.type (d fd.field) = normalize js fd.type (d' fd.field) := by
  unfold values
  rw [List.map_inj_left]

/-- Rows with the same values have the same key. -/
theorem keyOf_congr {js : JsText} {t : TableId} {d d' : Data}
    (h : values js (adapter t) d = values js (adapter t) d') :
    keyOf js (adapter t) d = keyOf js (adapter t) d' := by
  unfold keyOf
  congr 1
  apply List.map_congr_left
  intro k hk
  obtain ⟨fd, hfd, rfl⟩ := keyFields_subset t k hk
  have htype : (adapter t).typeOf fd.field = fd.type := by
    unfold Adapter.typeOf
    rw [find_field t fd hfd]
    rfl
  rw [htype, values_eq_iff.mp h fd hfd]

/-! ## Reading rows back -/

/-- Reading a row only depends on the names behind its brand and category. -/
theorem version_congr {js : JsText} {l l' : Lookups} {t : TableId} {r : Row}
    (hb : (adapter t).uses .brand = true → r.brandId.bind l'.brandName = r.brandId.bind l.brandName)
    (hc : l'.categories = l.categories) :
    version js l' (adapter t) r = version js l (adapter t) r ∧
      lookupJoins l' (adapter t) r = lookupJoins l (adapter t) r := by
  have hcat : l'.categoryName = l.categoryName := by
    funext id
    rw [Lookups.categoryName, Lookups.categoryName, hc]
  have hread : readRow l' (adapter t) r = readRow l (adapter t) r := by
    funext f
    unfold readRow
    split
    · next fd hfd =>
      have hmem := List.mem_of_find?_eq_some hfd
      unfold selectCol
      split
      · next htype => rw [hb ((lookup_field t fd hmem).1 htype).2]
      · rw [hcat]
      · rfl
    · rfl
  constructor
  · unfold version rowKey
    rw [hread]
  · unfold lookupJoins
    rw [hcat]
    cases hu : (adapter t).uses .brand with
    | false => rfl
    | true => rw [hb hu]

theorem brandName_of_mem {js : JsText} {l : Lookups} {n : Nat} (hl : l.Valid js n) {b : Brand}
    (hb : b ∈ l.brands) : l.brandName b.id = some b.name := by
  unfold Lookups.brandName
  rw [(Keyed.find?_eq_some_iff hl.brandIds).mpr ⟨hb, rfl⟩]
  rfl

theorem categoryName_of_mem {js : JsText} {l : Lookups} {n : Nat} (hl : l.Valid js n)
    {c : Category} (hc : c ∈ l.categories) : l.categoryName c.id = some c.name := by
  unfold Lookups.categoryName
  rw [(Keyed.find?_eq_some_iff hl.categoryIds).mpr ⟨hc, rfl⟩]
  rfl

/-- The brand that a cell resolves to has its name up to letter case. -/
theorem exists_of_brandId {js : JsText} {l : Lookups} {n id : Nat} (hl : l.Valid js n) {c : Cell}
    (h : l.brandId js c = some id) :
    ∃ b ∈ l.brands, js.toLowerCase b.name = js.toLowerCase c.toText ∧
      l.brandName id = some b.name := by
  unfold Lookups.brandId at h
  rw [Option.filter_eq_some_iff] at h
  obtain ⟨b, hb, rfl⟩ := Option.map_eq_some_iff.mp h.1
  have hmem := List.mem_reverse.mp (List.mem_of_find?_eq_some hb)
  exact ⟨b, hmem, by simpa using List.find?_some hb, brandName_of_mem hl hmem⟩

/-- A brand written as the store spells it reads back as written. -/
theorem brandName_brandId {js : JsText} {l : Lookups} {n id : Nat} (hl : l.Valid js n)
    {b : Brand} (hb : b ∈ l.brands) (h : l.brandId js (.text b.name) = some id) :
    l.brandName id = some b.name := by
  obtain ⟨c, hc, hlow, hname⟩ := exists_of_brandId hl h
  rw [hname, List.inj_on_of_nodup_map hl.brandNames hc hb hlow]

theorem categoryName_categoryId {js : JsText} {l : Lookups} {n id : Nat} (hl : l.Valid js n)
    {c : Category} (hc : c ∈ l.categories) (h : l.categoryId js (.text c.name) = some id) :
    l.categoryName id = some c.name := by
  unfold Lookups.categoryId at h
  rw [Option.filter_eq_some_iff] at h
  obtain ⟨d, hd, rfl⟩ := Option.map_eq_some_iff.mp h.1
  have hmem := List.mem_reverse.mp (List.mem_of_find?_eq_some hd)
  have hlow : js.toLowerCase d.name = js.toLowerCase (Cell.text c.name).toText := by
    simpa using List.find?_some hd
  rw [List.inj_on_of_nodup_map hl.categoryNames hmem hc hlow, categoryName_of_mem hl hc]

/-! ## What the batches state -/

theorem stated_of_mem {js : JsText} {batches : List (Batch js)}
    (hn : (batches.map (·.id)).Nodup) {b : Batch js} (hb : b ∈ batches)
    (hs : b.status = .success) {file : Accepted js} (hf : b.file = some file) (t : TableId) :
    stated batches t b.id = file.states t := by
  funext k
  unfold stated
  rw [(Keyed.find?_eq_some_iff hn).mpr ⟨hb, rfl⟩]
  simp [hs, hf]

theorem stated_some {js : JsText} {batches : List (Batch js)} {t : TableId} {b : Nat}
    {k : String} {v : List (Option String)} (h : stated batches t b k = some v) :
    ∃ x ∈ batches, x.id = b ∧ x.status = .success ∧
      ∃ file, x.file = some file ∧ file.states t k = some v := by
  unfold stated at h
  obtain ⟨x, hx, h⟩ := Option.bind_eq_some_iff.mp h
  split at h
  · next hs =>
    obtain ⟨file, hf, h⟩ := Option.bind_eq_some_iff.mp h
    exact ⟨x, List.mem_of_find?_eq_some hx, by simpa using List.find?_some hx, hs, file, hf, h⟩
  · cases h

theorem states_some {js : JsText} {file : Accepted js} {t : TableId} {k : String}
    {v : List (Option String)} :
    file.states t k = some v ↔
      ∃ r ∈ file.tables t, keyOf js (adapter t) r.data = k ∧ values js (adapter t) r.data = v := by
  unfold Accepted.states
  rw [Option.map_eq_some_iff]
  constructor
  · rintro ⟨r, hr, hv⟩
    obtain ⟨hmem, hk⟩ := (Keyed.find?_eq_some_iff (file.distinct t)).mp hr
    exact ⟨r, hmem, hk, hv⟩
  · rintro ⟨r, hmem, hk, hv⟩
    exact ⟨r, (Keyed.find?_eq_some_iff (file.distinct t)).mpr ⟨hmem, hk⟩, hv⟩

/-- Rows that read as the same version are one row. -/
theorem RowsInv.eq_of_version {js : JsText} {l : Lookups} {t : TableId} {data : TableData}
    (h : RowsInv js l t data) {r r' : Row} (hr : r ∈ data.rows) (hr' : r' ∈ data.rows)
    (hv : version js l (adapter t) r = version js l (adapter t) r') : r = r' :=
  List.inj_on_of_nodup_map h.ids hr hr' (congrArg Version.id hv)

/-- Two current rows with one key are one row. -/
theorem RowsInv.eq_of_current {js : JsText} {l : Lookups} {t : TableId} {data : TableData}
    (h : RowsInv js l t data) {r r' : Row} (hr : r ∈ data.rows) (hr' : r' ∈ data.rows)
    (hcur : r.isCurrent = true) (hcur' : r'.isCurrent = true)
    (hk : rowKey js l (adapter t) r = rowKey js l (adapter t) r') : r = r' := by
  have hv : version js l (adapter t) r ∈ versions js l (adapter t) data.rows := ⟨r, hr, rfl⟩
  have hv' : version js l (adapter t) r' ∈ versions js l (adapter t) data.rows := ⟨r', hr', rfl⟩
  have h₁ := h.links.last _ hv ((h.flag r hr).mp hcur) _ hv' hk.symm
  have h₂ := h.links.last _ hv' ((h.flag r' hr').mp hcur') _ hv hk
  exact h.eq_of_version hr hr' (h.links.unique _ hv _ hv' hk (Nat.le_antisymm h₂ h₁))

/-- The row of a key in a batch. -/
theorem RowsInv.eq_of_batch {js : JsText} {l : Lookups} {t : TableId} {data : TableData}
    (h : RowsInv js l t data) {r r' : Row} (hr : r ∈ data.rows) (hr' : r' ∈ data.rows)
    (hk : rowKey js l (adapter t) r = rowKey js l (adapter t) r') (hb : r.batch = r'.batch) :
    r = r' :=
  h.eq_of_version hr hr' (h.links.unique _ ⟨r, hr, rfl⟩ _ ⟨r', hr', rfl⟩ hk hb)

end SalesDashboard.Marcom
