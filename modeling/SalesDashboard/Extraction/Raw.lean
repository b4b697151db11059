import SalesDashboard.Lib.Paging
import SalesDashboard.Lib.Transition

/-! Copying an Odoo model into its raw table (`extract_odoo_raw` and `reconcile_ids` of
`odoo_raw.py`, `search_read_incremental` of `sources/odoo.py`, `watermark.py`): the model is
read page by page while Odoo changes, the rows and the watermark are written together, and
now and then the ids are compared. Odoo keeps write dates in microseconds and returns
seconds. Skipped fields, the counts of a run and its metadata columns are left out. -/

namespace SalesDashboard.Extraction
open Paging Transition

structure Record (V : Type) where
  id : Nat
  writeDate : Nat
  values : V
  deriving DecidableEq

structure RawRow (W : Type) where
  values : W
  sourceWriteDate : Nat
  deletedAt : Option Nat
  deriving DecidableEq

/-- A `RawOdooSpec`: its domain, and what `records_to_frame` makes of the values. -/
structure Spec (V W : Type) where
  inDomain : V → Bool
  frame : V → W

structure Settings where
  pageSize : Nat
  overlapSeconds : Nat

def second : Nat := 1000000

/-- `RECONCILE_EVERY`, 20 hours. -/
def reconcileEvery : Nat := 20 * 60 * 60 * second

def toSecond (writeDate : Nat) : Nat := writeDate / second

/-- The newest (write date, id) that was loaded. -/
abbrev Watermark := Option (Nat × Nat)

def incrementalSince (cfg : Settings) (wm : Watermark) : Option Nat := wm.map fun best => best.1 - cfg.overlapSeconds

def newer (best : Nat × Nat) (sec id : Nat) : Nat × Nat :=
  if best.1 < sec ∨ best.1 = sec ∧ best.2 < id then (sec, id) else best

variable {V W : Type}

def advance (wm : Watermark) (rows : List (Record V)) : Watermark :=
  rows.foldl (fun best r => some (match best with
    | none => (toSecond r.writeDate, r.id)
    | some best => newer best (toSecond r.writeDate) r.id)) wm

/-- How far an extraction is. -/
inductive Phase (V : Type)
  | idle
  | paging (startedAt : Nat) (full : Bool) (since : Option Nat) (byId : List (Record V)) (offset : Nat)
  | extracted (startedAt : Nat) (full : Bool) (records : List (Record V))
  | due
  | searched (live : List Nat)
  deriving DecidableEq

/-- Odoo's records that are visible, the raw table, and the extraction. -/
structure State (V W : Type) where
  now : Nat
  odoo : List (Record V)
  raw : Nat → Option (RawRow W)
  watermark : Watermark
  lastReconciled : Option Nat
  phase : Phase V

inductive Action (V : Type)
  | tick (elapsed : Nat)
  | write (id : Nat) (values : V) (writeDate : Nat)
  | delete (id : Nat)
  | begin (fullRefresh : Bool)
  | page
  | load
  | search
  | mark
  | fail

/-- A record takes the place of the one with its id. -/
def put (r : Record V) (rs : List (Record V)) : List (Record V) := rs.filter (fun x => decide (x.id ≠ r.id)) ++ [r]

section
variable (cfg : Settings) (spec : Spec V W)

/-- The domain of an incremental read. -/
def selects (since : Option Nat) (r : Record V) : Bool :=
  spec.inDomain r.values && since.all fun sec => decide (sec * second ≤ r.writeDate)

def selected (since : Option Nat) (odoo : List (Record V)) : List (Record V) := odoo.filter (selects spec since)

def rowOf (r : Record V) : RawRow W := ⟨spec.frame r.values, toSecond r.writeDate, none⟩

def upsert (raw : Nat → Option (RawRow W)) (records : List (Record V)) (id : Nat) : Option (RawRow W) :=
  match records.find? fun r => decide (r.id = id) with
  | some r => some (rowOf spec r)
  | none => raw id

/-- What `reconcile_ids` makes of the marks. -/
def reconcile (now : Nat) (live : List Nat) (raw : Nat → Option (RawRow W)) (id : Nat) : Option (RawRow W) :=
  (raw id).map fun row =>
    if id ∉ live ∧ row.deletedAt = none then { row with deletedAt := some now }
    else if id ∈ live ∧ row.deletedAt ≠ none then { row with deletedAt := none }
    else row

def begins (s : State V W) (fullRefresh : Bool) : State V W :=
  let full := fullRefresh || s.watermark.isNone
  { s with phase := .paging s.now full (if full then none else incrementalSince cfg s.watermark) [] 0 }

def reconcileDue (s : State V W) (full : Bool) : Bool :=
  full || s.lastReconciled.all fun last => decide (reconcileEvery ≤ s.now - last)

def readPage (s : State V W) (startedAt : Nat) (full : Bool) (since : Option Nat) (byId : List (Record V))
    (offset : Nat) : State V W :=
  let page := offsetPage Record.id cfg.pageSize offset (selected spec since s.odoo)
  let byId := page.foldl (fun got r => put r got) byId
  { s with
    phase := if page.length < cfg.pageSize then .extracted startedAt full (ordered Record.id byId)
      else .paging startedAt full since byId (offset + cfg.pageSize) }

def load (s : State V W) (full : Bool) (records : List (Record V)) : State V W :=
  { s with
    raw := upsert spec s.raw records
    watermark := advance (if full then none else s.watermark) records
    phase := if reconcileDue s full then .due else .idle }

def step (s : State V W) : Action V → Option (State V W)
  | .tick elapsed => some { s with now := s.now + elapsed }
  | .write id values writeDate => some { s with odoo := put ⟨id, writeDate, values⟩ s.odoo }
  | .delete id => some { s with odoo := s.odoo.filter fun r => decide (r.id ≠ id) }
  | .begin fullRefresh =>
      match s.phase with
      | .idle => some (begins cfg s fullRefresh)
      | _ => none
  | .page =>
      match s.phase with
      | .paging startedAt full since byId offset => some (readPage cfg spec s startedAt full since byId offset)
      | _ => none
  | .load =>
      match s.phase with
      | .extracted _ full records => some (load spec s full records)
      | _ => none
  | .search =>
      match s.phase with
      | .due => some { s with phase := .searched ((s.odoo.filter fun r => spec.inDomain r.values).map Record.id) }
      | _ => none
  | .mark =>
      match s.phase with
      | .searched live =>
          some { s with raw := reconcile s.now live s.raw, lastReconciled := some s.now, phase := .idle }
      | _ => none
  | .fail => some { s with phase := .idle }

end

/-- Nothing was extracted yet. -/
def nothing (now : Nat) (odoo : List (Record V)) : State V W := ⟨now, odoo, fun _ => none, none, none, .idle⟩

end SalesDashboard.Extraction
