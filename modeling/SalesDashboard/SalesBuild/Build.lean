import Mathlib

/-! The sales build on the Odoo mirror (`incremental.py`, `dim_changes.py`): the
three tasks of a run, what each of them reads, and `build_reason`, which decides
from the task log whether the tables must be rebuilt. Around it, the writers of
the shared lists, the input workbooks and the business date change at any moment.
Instants are whole UTC seconds, dates are day numbers. -/

namespace SalesDashboard.SalesBuild

/-! ## Inputs of the build -/

inductive Mode
  | legacy | shadow | incremental
  deriving DecidableEq, Repr

/-- The tables of `CHANGED_BY_STAMP`. -/
inductive ListTable
  | dimCustomer | mapPartnerCustomer | dimProduct | mapOdooUserSalesperson
  | mapOdooTeamSalesTeam | dimSalesperson | dimSalesTeam | dimChannel | dimSegment | dimCompany
  deriving DecidableEq, Repr

structure ListKey where
  table : ListTable
  key : String
  deriving DecidableEq, Repr

/-- A committed row of a shared list, with what the build reads of it. -/
structure ListRow (V : Type) where
  key : ListKey
  value : V
  updatedAt : Nat
  deriving DecidableEq, Repr

structure Workbook (C : Type) where
  content : C
  size : Nat
  mtime : Nat
  deriving DecidableEq, Repr

/-- `SALES_INPUT_FILES`. -/
structure Inputs (C : Type) where
  salesTeam : Option (Workbook C)
  salesTargets : Option (Workbook C)
  offDays : Option (Workbook C)
  blockedCustomers : Option (Workbook C)
  productExclusions : Option (Workbook C)
  deriving DecidableEq, Repr

/-- `_inputs_signature`: name, size and modification second of each workbook. The
digest is taken to be that of its text. -/
def inputsSignature {C : Type} (i : Inputs C) : List (String × Nat × Nat) :=
  [("SalesTeam.xlsx", i.salesTeam), ("sales_targets.xlsx", i.salesTargets),
    ("OffDays.xlsx", i.offDays), ("BlockedCustomers.xlsx", i.blockedCustomers),
    ("ProductExclusions.xlsx", i.productExclusions)].filterMap fun (name, f) =>
      f.map fun f => (name, f.size, f.mtime)

/-! ## The task log -/

/-- `details` of a `write_sales_from_mirror` row that wrote the tables. -/
structure BuildDetails where
  mode : Mode
  businessDate : Nat
  inputsSignature : List (String × Nat × Nat)
  mirrorChanged : Option Nat
  deriving DecidableEq, Repr

/-- A successful `write_sales_from_mirror` row. A run with nothing to do logs one
without these details. -/
structure WriteLog where
  started : Nat
  details : Option BuildDetails
  deriving DecidableEq, Repr

/-- A successful core task and the keys its details list as deleted. -/
structure CoreLog where
  finished : Nat
  deletedKeys : List ListKey
  deriving DecidableEq, Repr

/-! ## The state -/

/-- What `build_sales_from_mirror` read. -/
structure Built (C M : Type) where
  mirror : M
  mirrorChanged : Option Nat
  inputs : Inputs C
  date : Nat

/-- What the conformed tables were computed from. -/
structure Computed (V C M : Type) where
  build : Built C M
  lists : List (ListKey × V)
  inputs : Inputs C
  date : Nat

inductive Phase (V C M : Type)
  | idle
  | skipped
  | skipWriting (started : Nat)
  | built (b : Built C M)
  | conformed (c : Computed V C M)
  | writing (c : Computed V C M) (started : Nat)
  | committed (c : Computed V C M) (started : Nat)
  | captured (c : Computed V C M) (started : Nat) (d : BuildDetails)

structure State (V C M : Type) where
  clock : Nat
  today : Nat
  inputs : Inputs C
  lists : List (ListRow V)
  mirror : M
  mirrorChanged : Option Nat
  /-- newest first; runs never overlap, so the newest row has the latest start -/
  writeLog : List WriteLog
  coreLog : List CoreLog
  /-- deletions of core tasks that have committed but not logged their success -/
  unlogged : List (List ListKey)
  written : Option (Computed V C M)
  phase : Phase V C M

variable {V C M : Type}

def listValues (rows : List (ListRow V)) : List (ListKey × V) :=
  rows.map fun r => (r.key, r.value)

/-! ## The trigger -/

inductive Reason
  | fullRefresh
  | firstBuild (mode : Mode)
  | businessDate (today : Nat)
  | inputsChanged
  | odooChanged (changed : Nat)
  | sharedLists (keys : List ListKey)
  deriving DecidableEq, Repr

/-- `_last_build`. -/
def lastBuild (st : State V C M) : Option WriteLog := st.writeLog.head?

/-- `dim_changes_since`: rows stamped after the instant, and keys that a core task
finished after it lists as deleted. -/
def dimChangesSince (st : State V C M) (since : Nat) : List ListKey :=
  (st.lists.filter fun r => since < r.updatedAt).map (·.key) ++
    (st.coreLog.filter fun t => since < t.finished).flatMap (·.deletedKeys)

def buildReason (mode : Mode) (fullRefresh : Bool) (st : State V C M) : Option Reason :=
  if fullRefresh then some .fullRefresh
  else match lastBuild st with
    | none => some (.firstBuild mode)
    | some last => match last.details with
      | none => some (.firstBuild mode)
      | some d =>
          if d.mode ≠ mode then some (.firstBuild mode)
          else if d.businessDate ≠ st.today then some (.businessDate st.today)
          else if d.inputsSignature ≠ inputsSignature st.inputs then some .inputsChanged
          else match st.mirrorChanged with
            | some changed =>
                if some changed ≠ d.mirrorChanged then some (.odooChanged changed)
                else if dimChangesSince st last.started = [] then none
                else some (.sharedLists (dimChangesSince st last.started))
            | none =>
                if dimChangesSince st last.started = [] then none
                else some (.sharedLists (dimChangesSince st last.started))

/-! ## The steps -/

/-- A core task writes its new and changed rows with one stamp and deletes rows. -/
def applyCommit (stamp : Nat) (upserts : List (ListKey × V)) (deletes : List ListKey)
    (rows : List (ListRow V)) : List (ListRow V) :=
  upserts.foldl (fun rows (key, value) =>
      rows.filter (fun r => decide (r.key ≠ key)) ++ [⟨key, value, stamp⟩])
    (rows.filter fun r => decide (r.key ∉ deletes))

/-- The customer growth columns are written back: the stamps of these customers
move, what the build reads of them does not. -/
def stampGrowth (now : Nat) (growth : List ListKey) (rows : List (ListRow V)) :
    List (ListRow V) :=
  rows.map fun r =>
    if r.key.table = .dimCustomer ∧ r.key ∈ growth then { r with updatedAt := now } else r

inductive Action (V C : Type)
  | tick (seconds : Nat)
  | rollOver
  | edit (inputs : Inputs C)
  | coreCommit (stamp : Nat) (upserts : List (ListKey × V)) (deletes : List ListKey)
  | coreLogged
  | coreFailed
  | build (fullRefresh : Bool)
  | conform (growth : List ListKey)
  | startWrite
  | commitWrite
  | capture
  | logWrite
  | fail

/-- `build_sales_from_mirror`: the watermark is read before the snapshot. -/
def stepBuild (mode : Mode) (fullRefresh : Bool) (st : State V C M) : State V C M :=
  if mode = .legacy then { st with phase := .skipped }
  else match buildReason mode fullRefresh st with
    | none => { st with phase := .skipped }
    | some _ => { st with phase := .built ⟨st.mirror, st.mirrorChanged, st.inputs, st.today⟩ }

def stepConform (mode : Mode) (growth : List ListKey) (b : Built C M) (st : State V C M) :
    State V C M :=
  { st with
    lists := if mode = .incremental then stampGrowth st.clock growth st.lists else st.lists
    phase := .conformed ⟨b, listValues st.lists, st.inputs, st.today⟩ }

def step (mode : Mode) (st : State V C M) : Action V C → Option (State V C M)
  | .tick seconds => some { st with clock := st.clock + seconds }
  | .rollOver => some { st with today := st.today + 1 }
  | .edit inputs => some { st with inputs := inputs }
  | .coreCommit stamp upserts deletes =>
      -- a row is stamped before its transaction commits
      if stamp ≤ st.clock then
        some { st with
          lists := applyCommit stamp upserts deletes st.lists
          unlogged := st.unlogged ++ [deletes] }
      else none
  | .coreLogged => match st.unlogged with
      | [] => none
      | deletes :: rest =>
          some { st with coreLog := ⟨st.clock, deletes⟩ :: st.coreLog, unlogged := rest }
  | .coreFailed => match st.unlogged with
      | [] => none
      | _ :: rest => some { st with unlogged := rest }
  | .build fullRefresh => match st.phase with
      | .idle => some (stepBuild mode fullRefresh st)
      | _ => none
  | .conform growth => match st.phase with
      | .built b => some (stepConform mode growth b st)
      | _ => none
  -- the task row is inserted before the task runs
  | .startWrite => match st.phase with
      | .conformed c => some { st with phase := .writing c st.clock }
      | .skipped => some { st with phase := .skipWriting st.clock }
      | _ => none
  | .commitWrite => match st.phase with
      | .writing c started => some { st with written := some c, phase := .committed c started }
      | _ => none
  -- date and signature of the details are taken after the commit
  | .capture => match st.phase with
      | .committed c started =>
          let details := ⟨mode, st.today, inputsSignature st.inputs, c.build.mirrorChanged⟩
          some { st with phase := .captured c started details }
      | _ => none
  | .logWrite => match st.phase with
      | .captured _ started d =>
          some { st with writeLog := ⟨started, some d⟩ :: st.writeLog, phase := .idle }
      | .skipWriting started =>
          some { st with writeLog := ⟨started, none⟩ :: st.writeLog, phase := .idle }
      | _ => none
  | .fail => match st.phase with
      | .idle => none
      | _ => some { st with phase := .idle }

end SalesDashboard.SalesBuild
