import SalesDashboard.Marcom.Tables
import Mathlib

/-! The append-only MARCOM store and its three writers, each alone under the
write lock: importing a parsed file, rolling back the latest batch, and removing
any successful batch (`service.ts`, `removal.ts`). -/

namespace SalesDashboard.Marcom

/-! ## The stored tables -/

structure Brand where
  id : Nat
  name : String
  createdBatch : Option Nat
  deriving DecidableEq, Repr

structure Category where
  id : Nat
  name : String
  isActive : Bool
  deriving DecidableEq, Repr

/-- The tables behind `brand_id` and `category_id`. -/
structure Lookups where
  brands : List Brand
  categories : List Category

/-- A row of a data table. A live row has `is_current = 1`; `brandId` and
`categoryId` are null in a table without such a column. -/
structure Row where
  id : Nat
  cells : Data
  brandId : Option Nat
  categoryId : Option Nat
  batch : Nat
  isCurrent : Bool
  supersededBy : Option Nat

structure TableData where
  rows : List Row
  nextId : Nat

/-- A parse without error issues: two rows of one table never have the same key. -/
structure Accepted (js : JsText) where
  tables : TableId → List ParsedRow
  distinct : ∀ t, ((tables t).map fun r => keyOf js (adapter t) r.data).Nodup

inductive BatchStatus
  | success | failed | rolledBack | removed
  deriving DecidableEq, Repr

/-- A row of `marcom_upload_batch`: the stored file, and `totals.unchanged` of
its summary. -/
structure Batch (js : JsText) where
  id : Nat
  status : BatchStatus
  file : Option (Accepted js)
  unchanged : Nat

structure Store (js : JsText) where
  tables : TableId → TableData
  lookups : Lookups
  nextBrand : Nat
  batches : List (Batch js)
  nextBatch : Nat

/-! ## Reading rows back -/

def Adapter.uses (a : Adapter) (type : FieldType) : Bool :=
  a.fields.any (·.type = type)

def Lookups.brandName (l : Lookups) (id : Nat) : Option String :=
  (l.brands.find? (·.id = id)).map (·.name)

def Lookups.categoryName (l : Lookups) (id : Nat) : Option String :=
  (l.categories.find? (·.id = id)).map (·.name)

/-- `selectCol`: a brand or a category is read back by name. -/
def selectCol (l : Lookups) (fd : FieldDef) (r : Row) : Cell :=
  match fd.type with
  | .brand => ((r.brandId.bind l.brandName).map Cell.text).getD .null
  | .category => ((r.categoryId.bind l.categoryName).map Cell.text).getD .null
  | _ => r.cells fd.field

/-- The inner joins of `lookupJoins` keep the row. -/
def lookupJoins (l : Lookups) (a : Adapter) (r : Row) : Bool :=
  (!a.uses .brand || (r.brandId.bind l.brandName).isSome) &&
    (!a.uses .category || (r.categoryId.bind l.categoryName).isSome)

def readRow (l : Lookups) (a : Adapter) (r : Row) : Data := fun f =>
  match a.fields.find? (·.field = f) with
  | some fd => selectCol l fd r
  | none => .null

def currentRows (l : Lookups) (a : Adapter) (rows : List Row) : List CurrentRow :=
  (rows.filter fun r => r.isCurrent && lookupJoins l a r).map fun r => ⟨r.id, readRow l a r⟩

/-! ## Commit -/

/-- The brand names of the file that are not known yet, in their first spelling. -/
def newBrandsOf (js : JsText) (tables : TableId → List ParsedRow) (known : List String) :
    List String :=
  let texts := (tableIds.filter fun t => (adapter t).uses .brand).flatMap fun t =>
    (tables t).filterMap fun r =>
      match r.data .brand with
      | .text s => some s
      | _ => none
  texts.foldl (fun out b =>
    if js.toLowerCase b ∈ known.map js.toLowerCase ∨ js.toLowerCase b ∈ out.map js.toLowerCase
    then out else out ++ [b]) []

/-- A category that is not on the list of active ones is a blocking error. -/
def unknownCategory (l : Lookups) (tables : TableId → List ParsedRow) : Bool :=
  tableIds.any fun t => (adapter t).uses .category && (tables t).any fun r =>
    !l.categories.any fun c => c.isActive && decide (r.data .category = .text c.name)

def insertBrands (batchId : Nat) : List String → Nat → List Brand
  | [], _ => []
  | name :: names, id => ⟨id, name, some batchId⟩ :: insertBrands batchId names (id + 1)

/-- `brandIds.get(String(v).toLowerCase())`; a missing id is refused. -/
def Lookups.brandId (js : JsText) (l : Lookups) (c : Cell) : Option Nat :=
  ((l.brands.reverse.find? fun b => js.toLowerCase b.name = js.toLowerCase c.toText).map
    (·.id)).filter (· ≠ 0)

def Lookups.categoryId (js : JsText) (l : Lookups) (c : Cell) : Option Nat :=
  ((l.categories.reverse.find? fun b => js.toLowerCase b.name = js.toLowerCase c.toText).map
    (·.id)).filter (· ≠ 0)

def storedCell (a : Adapter) (data : Data) : Data := fun f =>
  match a.fields.find? (·.field = f) with
  | some fd => toDb fd.type (data f)
  | none => .null

/-- Append a current row of the batch; a brand or category that does not resolve
is an error. -/
def insertRow (js : JsText) (l : Lookups) (a : Adapter) (batchId : Nat) (t : TableData)
    (data : Data) : Option TableData :=
  let brandId := if a.uses .brand then (l.brandId js (data .brand)).map some else some none
  let categoryId :=
    if a.uses .category then (l.categoryId js (data .category)).map some else some none
  match brandId, categoryId with
  | some brand, some category =>
      some ⟨t.rows ++ [⟨t.nextId, storedCell a data, brand, category, batchId, true, none⟩],
        t.nextId + 1⟩
  | _, _ => none

/-- The live row `existingId` becomes history. Exactly one row must change. -/
def supersede (batchId existingId : Nat) (t : TableData) : Option TableData :=
  if (t.rows.filter fun r => r.id = existingId && r.isCurrent).length = 1 then
    some { t with rows := t.rows.map fun r =>
      if r.id = existingId ∧ r.isCurrent then
        { r with isCurrent := false, supersededBy := some batchId } else r }
  else none

def writeUpdates (js : JsText) (l : Lookups) (a : Adapter) (batchId : Nat) :
    List RowUpdate → TableData → Option TableData
  | [], t => some t
  | u :: us, t =>
      match supersede batchId u.existingId t with
      | none => none
      | some t' =>
          match insertRow js l a batchId t' u.row.data with
          | none => none
          | some t'' => writeUpdates js l a batchId us t''

def writeInserts (js : JsText) (l : Lookups) (a : Adapter) (batchId : Nat) :
    List ParsedRow → TableData → Option TableData
  | [], t => some t
  | r :: rs, t =>
      match insertRow js l a batchId t r.data with
      | none => none
      | some t' => writeInserts js l a batchId rs t'

def writeTable (js : JsText) (l : Lookups) (a : Adapter) (batchId : Nat) (d : TableDiff)
    (t : TableData) : Option TableData :=
  match writeUpdates js l a batchId d.updates t with
  | none => none
  | some t' => writeInserts js l a batchId d.inserts t'

/-- `commitUpload` of a parse without error issues: one transaction, so a table
that cannot be written fails the whole import. -/
def commitUpload {js : JsText} (st : Store js) (file : Accepted js) (confirmNewBrands : Bool) :
    Option (Store js) :=
  if unknownCategory st.lookups file.tables then none
  else
    let newBrands := newBrandsOf js file.tables (st.lookups.brands.map (·.name))
    if newBrands ≠ [] ∧ confirmNewBrands = false then none
    else
      let diffs := fun t => diffTable js (adapter t)
        (currentRows st.lookups (adapter t) (st.tables t).rows) [] (file.tables t)
      let batchId := st.nextBatch
      let lookups : Lookups :=
        { st.lookups with brands := st.lookups.brands ++ insertBrands batchId newBrands st.nextBrand }
      let written := fun t => writeTable js lookups (adapter t) batchId (diffs t) (st.tables t)
      if tableIds.all fun t => (written t).isSome then
        some {
          tables := fun t => (written t).getD (st.tables t)
          lookups := lookups
          nextBrand := st.nextBrand + newBrands.length
          batches := st.batches ++ [⟨batchId, .success, some file,
            (tableIds.map fun t => (diffs t).unchanged.length).sum⟩]
          nextBatch := batchId + 1 }
      else none

/-- An unexpected failure keeps a FAILED batch without a file. The transaction
may have used up batch numbers. -/
def commitFailed {js : JsText} (st : Store js) (used : Nat) : Store js :=
  { st with
    batches := st.batches ++ [⟨st.nextBatch + used, .failed, none, 0⟩]
    nextBatch := st.nextBatch + used + 1 }

/-! ## Removal: the plan -/

structure DbRow where
  id : Nat
  batch : Nat
  current : Bool
  supersededBy : Option Nat
  key : String
  deriving DecidableEq, Repr

def dbRow (js : JsText) (l : Lookups) (a : Adapter) (r : Row) : DbRow :=
  ⟨r.id, r.batch, r.isCurrent, r.supersededBy, keyOf js a (readRow l a r)⟩

def readRows (js : JsText) (l : Lookups) (a : Adapter) (rows : List Row) (cond : Row → Bool) :
    List DbRow :=
  (rows.filter fun r => cond r && lookupJoins l a r).map (dbRow js l a)

/-- Later batch ids with the natural keys of their files. -/
abbrev LaterKeys := List (Nat × (TableId → List String))

structure HandedOver where
  id : Nat
  key : String
  toBatch : Nat
  deriving DecidableEq, Repr

structure Rearm where
  id : Nat
  key : String
  batch : Nat
  deriving DecidableEq, Repr

structure Relink where
  id : Nat
  key : String
  batch : Nat
  toBatch : Nat
  deriving DecidableEq, Repr

structure TablePlan where
  deleteIds : List Nat
  deletedCurrent : Nat
  deletedSuperseded : List (String × Nat)
  handedOver : List HandedOver
  rearm : List Rearm
  relink : List Relink

/-- The earliest later batch whose file holds the key of a current row. -/
def handedTo (t : TableId) (laterKeys : LaterKeys) (r : DbRow) : Option Nat :=
  if r.current then
    ((laterKeys.map (·.1)).insertionSort (· ≤ ·)).find? fun id =>
      match laterKeys.find? (·.1 = id) with
      | some (_, keys) => decide (r.key ∈ keys t)
      | none => false
  else none

/-- `ownByKey.get(key)`. -/
def ownByKey (own : List DbRow) (key : String) : Option DbRow :=
  own.reverse.find? (·.key = key)

/-- The batch that replaces an earlier row once the removed batch is gone. -/
def replacedBy (t : TableId) (own : List DbRow) (laterKeys : LaterKeys)
    (currentOthers : List DbRow) (e : DbRow) : Option Nat :=
  match ownByKey own e.key with
  | some mine => (handedTo t laterKeys mine).or (if mine.current then none else mine.supersededBy)
  | none => (currentOthers.reverse.find? (·.key = e.key)).map (·.batch)

def planTable (t : TableId) (own earlier : List DbRow) (laterKeys : LaterKeys)
    (currentOthers : List DbRow) : TablePlan :=
  let deleted := own.filter fun r => handedTo t laterKeys r = none
  { deleteIds := deleted.map (·.id)
    deletedCurrent := (deleted.filter (·.current)).length
    deletedSuperseded := deleted.filterMap fun r =>
      if r.current then none else r.supersededBy.map fun s => (r.key, s)
    handedOver := own.filterMap fun r =>
      (handedTo t laterKeys r).map fun b => ⟨r.id, r.key, b⟩
    rearm := earlier.filterMap fun e =>
      match replacedBy t own laterKeys currentOthers e with
      | none => some ⟨e.id, e.key, e.batch⟩
      | some _ => none
    relink := earlier.filterMap fun e =>
      (replacedBy t own laterKeys currentOthers e).map fun b => ⟨e.id, e.key, e.batch, b⟩ }

/-- The plan of one table, read inside the write transaction. -/
def planTableOf {js : JsText} (st : Store js) (batchId : Nat) (laterKeys : LaterKeys)
    (t : TableId) : TablePlan :=
  let read := readRows js st.lookups (adapter t) (st.tables t).rows
  let own := read fun r => r.batch = batchId
  let earlier := read fun r => r.supersededBy = some batchId
  let others := if earlier = [] then [] else read fun r => r.isCurrent && r.batch ≠ batchId
  planTable t own earlier laterKeys others

structure BrandPlan where
  deleted : List Nat
  kept : List (Nat × List Nat)

/-- The batches that still use a brand once the plans are applied. -/
def brandUsedBy {js : JsText} (st : Store js) (plans : TableId → TablePlan) (brandId : Nat) :
    List Nat :=
  (tableIds.filter fun t => (adapter t).uses .brand).flatMap fun t =>
    (st.tables t).rows.filterMap fun r =>
      if r.brandId = some brandId ∧ r.id ∉ (plans t).deleteIds then
        some ((((plans t).handedOver.find? (·.id = r.id)).map (·.toBatch)).getD r.batch)
      else none

def planBrands {js : JsText} (st : Store js) (batchId : Nat) (plans : TableId → TablePlan) :
    BrandPlan :=
  let created := st.lookups.brands.filter fun b => b.createdBatch = some batchId
  { deleted := (created.filter fun b => brandUsedBy st plans b.id = []).map (·.id)
    kept := (created.filter fun b => brandUsedBy st plans b.id ≠ []).map fun b =>
      (b.id, (brandUsedBy st plans b.id).insertionSort (· ≤ ·)) }

/-! ## Removal: applying the plan -/

def handOverRow (plan : TablePlan) (r : Row) : Row :=
  match plan.handedOver.find? (·.id = r.id) with
  | some h => { r with batch := h.toBatch }
  | none => r

def rearmRow (plan : TablePlan) (r : Row) : Row :=
  if r.id ∈ plan.rearm.map (·.id) then { r with isCurrent := true, supersededBy := none } else r

def relinkRow (plan : TablePlan) (r : Row) : Row :=
  match plan.relink.find? (·.id = r.id) with
  | some h => { r with supersededBy := some h.toBatch }
  | none => r

/-- Hand over, delete, re-arm, relink. -/
def applyTable (plan : TablePlan) (t : TableData) : TableData :=
  { t with rows := (((t.rows.map (handOverRow plan)).filter fun r => r.id ∉ plan.deleteIds).map
      (rearmRow plan)).map (relinkRow plan) }

/-- A kept brand goes to the earliest batch that still uses it. -/
def reown (plan : BrandPlan) (b : Brand) : Brand :=
  match plan.kept.find? (·.1 = b.id) with
  | some (_, usedBy) => { b with createdBatch := usedBy.head? }
  | none => b

/-- Delete the unused brands, re-own the others. A brand that a row still uses is
never deleted. -/
def applyBrands (plan : BrandPlan) (tables : TableId → TableData) (brands : List Brand) :
    List Brand :=
  let used := fun (id : Nat) => tableIds.any fun t => (adapter t).uses .brand &&
    (tables t).rows.any fun r => r.brandId = some id
  (brands.filter fun b => decide (b.id ∉ plan.deleted) || used b.id).map (reown plan)

/-- Keys of the later successful batches that restated rows unchanged. A batch
without its stored file blocks the removal. -/
def laterBatchKeys {js : JsText} (batches : List (Batch js)) (batchId : Nat) :
    Option LaterKeys :=
  let later := batches.filter fun b => decide (batchId < b.id) && decide (b.status = .success) &&
    decide (0 < b.unchanged)
  later.foldr (fun b acc =>
    match b.file, acc with
    | some file, some keys =>
        some ((b.id, fun t => (file.tables t).map fun r => keyOf js (adapter t) r.data) :: keys)
    | _, _ => none) (some [])

/-- Plan and apply the removal of a batch and set its status. -/
def removeWithin {js : JsText} (st : Store js) (batchId : Nat) (status : BatchStatus)
    (laterKeys : LaterKeys) : Store js :=
  let plans := planTableOf st batchId laterKeys
  let tables := fun t => applyTable (plans t) (st.tables t)
  { st with
    tables := tables
    lookups := { st.lookups with
      brands := applyBrands (planBrands st batchId plans) tables st.lookups.brands }
    batches := st.batches.map fun b => if b.id = batchId then { b with status := status } else b }

def statusOf {js : JsText} (st : Store js) (batchId : Nat) : Option BatchStatus :=
  (st.batches.find? (·.id = batchId)).map (·.status)

def latestSuccessId {js : JsText} (st : Store js) : Option Nat :=
  ((st.batches.filter (·.status = .success)).map (·.id)).max?

/-- Only the latest successful batch can be rolled back; no later batch can hold
any of its rows. -/
def rollbackBatch {js : JsText} (st : Store js) (batchId : Nat) : Option (Store js) :=
  if statusOf st batchId ≠ some .success then none
  else if latestSuccessId st ≠ some batchId then none
  else some (removeWithin st batchId .rolledBack [])

def removeBatch {js : JsText} (st : Store js) (batchId : Nat) : Option (Store js) :=
  if statusOf st batchId ≠ some .success then none
  else match laterBatchKeys st.batches batchId with
    | none => none
    | some laterKeys => some (removeWithin st batchId .removed laterKeys)

/-! ## Runs -/

inductive Op (js : JsText)
  | commit (file : Accepted js) (confirmNewBrands : Bool)
  | commitFailed (used : Nat)
  | rollback (batchId : Nat)
  | remove (batchId : Nat)

def step {js : JsText} (st : Store js) : Op js → Option (Store js)
  | .commit file confirm => commitUpload st file confirm
  | .commitFailed used => some (commitFailed st used)
  | .rollback batchId => rollbackBatch st batchId
  | .remove batchId => removeBatch st batchId

end SalesDashboard.Marcom
