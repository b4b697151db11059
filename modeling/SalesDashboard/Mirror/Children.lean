import SalesDashboard.Lib.Paging
import SalesDashboard.Lib.Transition
import SalesDashboard.Mirror.Rows

/-! Parents and children in the mirror (`MirrorSync.run`, `_sync_spec` and the first two
loops of `_rules`): one step for each read of Odoo and each commit, with Odoo changing
between any two of them. The transactions of the other specs, the other rules and the
names write no row of a parent or a child. -/

namespace SalesDashboard.Mirror.Children

/-! ## Odoo and the store -/

/-- A record: the id in its link field, its write date, and the other fields. -/
structure Rec (V : Type) where
  parent : Option Nat
  writeDate : Nat
  values : V
  deriving DecidableEq, Repr

abbrev Rows (V : Type) := List ((Dataset × Nat) × Rec V)

structure ChildLink where
  child : String
  parent : String
  deriving DecidableEq, Repr

def CHILDREN : List ChildLink :=
  [⟨"sale.order.line", "sale.order"⟩, ⟨"stock.move", "stock.picking"⟩]

/-- Parents and children are not kept per company. -/
def dataset (model : String) : Dataset := ⟨model, 0⟩

def specs : List MirrorSpec :=
  SPECS.filter fun s => CHILDREN.any fun c => decide (c.child = s.model ∨ c.parent = s.model)

/-- `overlap_minutes` in the unit of the clock, and `page_size`. -/
structure Settings where
  overlap : Nat
  page : Nat

variable {V : Type}

def keysOf (ds : Dataset) (ids : List Nat) : List (Dataset × Nat) := ids.map fun id => (ds, id)

def idsOf (ds : Dataset) (keys : List (Dataset × Nat)) : List Nat :=
  (keys.filter fun k => decide (k.1 = ds)).map (·.2)

/-- The children of the parents: `child_ids` of the mirror, and the search in Odoo. -/
def childIds (c : ChildLink) (parents : List Nat) (rows : Rows V) : List Nat :=
  (rows.filter fun r => decide (r.1.1 = dataset c.child ∧ ∃ p ∈ r.2.parent, p ∈ parents)).map
    (·.1.2)

def missingParents (c : ChildLink) (rows : Rows V) : List Nat :=
  ((rows.filter fun r => decide (r.1.1 = dataset c.child)).filterMap (·.2.parent)).dedup.filter
    fun p => (stored (dataset c.parent, p) rows).isNone

def readIds (ds : Dataset) (ids : List Nat) (odoo : Rows V) : List (Nat × Rec V) :=
  (odoo.filter fun r => decide (r.1.1 = ds ∧ r.1.2 ∈ ids)).map fun r => (r.1.2, r.2)

/-- The lower bound of the read; without a watermark everything is read. -/
def since (cfg : Settings) (watermark : Option Nat) : Option Nat := watermark.map (· - cfg.overlap)

/-- The records that the read asks for. -/
def matching (cfg : Settings) (ds : Dataset) (watermark : Option Nat) (odoo : Rows V) :
    List (Nat × Rec V) :=
  (odoo.filter fun r => decide (r.1.1 = ds ∧ ∀ t ∈ since cfg watermark, t ≤ r.2.writeDate)).map
    fun r => (r.1.2, r.2)

def readPage (cfg : Settings) (ds : Dataset) (watermark : Option Nat) (last : Nat)
    (odoo : Rows V) : List (Nat × Rec V) :=
  Paging.keysetPage (·.1) cfg.page last (matching cfg ds watermark odoo)

/-! ## The state -/

/-- Where a run stands: between the transactions of the specs, in one of them, in the
transaction of the rules, or behind it. -/
inductive Phase
  | specs (todo : List MirrorSpec)
  | page (spec : MirrorSpec) (todo : List MirrorSpec) (started last : Nat)
  | ids (spec : MirrorSpec) (todo : List MirrorSpec) (started : Nat)
  | missing (spec : MirrorSpec) (todo : List MirrorSpec) (started : Nat) (ids : List Nat)
  | search (c : ChildLink) (links : List ChildLink) (live odoo : List Nat)
  | unseen (c : ChildLink) (links : List ChildLink) (ids : List Nat)
  | orphans (c : ChildLink) (links : List ChildLink) (ids : List Nat)
  | rest
  | names
  deriving DecidableEq, Repr

/-- A run: the rows of its open transaction, `changed_ids` and `_deleted`. -/
structure SyncRun (V : Type) where
  phase : Phase
  work : Rows V
  changed : List (Dataset × Nat)
  gone : List (Dataset × Nat)
  deriving DecidableEq, Repr

/-- `used` are the ids that Odoo has ever given out. -/
structure State (V : Type) where
  clock : Nat
  odoo : Rows V
  used : List (Dataset × Nat)
  mirror : Rows V
  watermarks : List (Dataset × Nat)
  run : Option (SyncRun V)
  deriving DecidableEq, Repr

/-! ## Odoo -/

/-- One transaction of Odoo, stamped `w`. A record that is created or updated carries the
stamp, and a later one than before; so does the parent of a child that is removed, unless
it is removed as well. -/
structure OdooChange (cfg : Settings) (st : State V) (rows : Rows V) (w : Nat) : Prop where
  visible : st.clock ≤ w + cfg.overlap
  keyed : Keyed rows
  positive : ∀ r ∈ rows, 0 < r.1.2
  moved : ∀ r ∈ rows, stored r.1 st.odoo = some r.2 ∨ r.2.writeDate = w ∧
    match stored r.1 st.odoo with
    | some old => old.writeDate < w
    | none => r.1 ∉ st.used
  linked : ∀ r ∈ rows, ∀ c ∈ CHILDREN, r.1.1 = dataset c.child → ∀ p ∈ r.2.parent,
    stored (dataset c.parent, p) rows ≠ none
  removed : ∀ r ∈ st.odoo, ∀ c ∈ CHILDREN, r.1.1 = dataset c.child → stored r.1 rows = none →
    ∀ p ∈ r.2.parent, ∀ parent ∈ stored (dataset c.parent, p) rows,
      some parent ≠ stored (dataset c.parent, p) st.odoo

variable [DecidableEq V]

instance (cfg : Settings) (st : State V) (rows : Rows V) (w : Nat) :
    Decidable (OdooChange cfg st rows w) :=
  have (r : (Dataset × Nat) × Rec V) : Decidable (match stored r.1 st.odoo with
      | some old => old.writeDate < w
      | none => r.1 ∉ st.used) := by
    split <;> infer_instance
  decidable_of_iff (st.clock ≤ w + cfg.overlap ∧ Keyed rows ∧ (∀ r ∈ rows, 0 < r.1.2) ∧
      (∀ r ∈ rows, stored r.1 st.odoo = some r.2 ∨ r.2.writeDate = w ∧
        match stored r.1 st.odoo with
        | some old => old.writeDate < w
        | none => r.1 ∉ st.used) ∧
      (∀ r ∈ rows, ∀ c ∈ CHILDREN, r.1.1 = dataset c.child → ∀ p ∈ r.2.parent,
        stored (dataset c.parent, p) rows ≠ none) ∧
      ∀ r ∈ st.odoo, ∀ c ∈ CHILDREN, r.1.1 = dataset c.child → stored r.1 rows = none →
        ∀ p ∈ r.2.parent, ∀ parent ∈ stored (dataset c.parent, p) rows,
          some parent ≠ stored (dataset c.parent, p) st.odoo)
    ⟨fun ⟨h₁, h₂, h₃, h₄, h₅, h₆⟩ => ⟨h₁, h₂, h₃, h₄, h₅, h₆⟩,
      fun h => ⟨h.visible, h.keyed, h.positive, h.moved, h.linked, h.removed⟩⟩

/-! ## Steps -/

inductive Action (V : Type)
  | tick (seconds : Nat)
  | odoo (rows : Rows V) (w : Nat)
  | start
  | begin
  | page
  | searchIds
  | readIds
  | rules
  | search
  | recheck
  | next
  | commit
  | complete
  | raise

/-- `upsert` in the open transaction. -/
def SyncRun.upsert (run : SyncRun V) (model : String) (reads : List (Nat × Rec V)) : SyncRun V :=
  let (work, changed) := Mirror.upsert (dataset model) reads run.work
  { run with work := work, changed := run.changed ++ keysOf (dataset model) changed }

/-- The parents that changed and were not deleted. -/
def SyncRun.live (run : SyncRun V) (c : ChildLink) : List Nat :=
  Paging.ordered id ((idsOf (dataset c.parent) run.changed).dedup.filter
    fun p => decide (p ∉ idsOf (dataset c.parent) run.gone))

/-- The loop over `CHILDREN` that re-checks children, and behind it the one that reads
missing parents. -/
def SyncRun.toOrphans (run : SyncRun V) : List ChildLink → Phase
  | [] => .rest
  | c :: links => .orphans c links (missingParents c run.work)

def SyncRun.toSearch (run : SyncRun V) : List ChildLink → Phase
  | [] => run.toOrphans CHILDREN
  | c :: links => .search c links (run.live c) []

/-- The run goes on in a phase. -/
def State.goOn (st : State V) (run : SyncRun V) (phase : Phase) : State V :=
  { st with run := some { run with phase := phase } }

/-- A step of the run. A raise is not among them. -/
def runStep (cfg : Settings) (st : State V) (run : SyncRun V) : Action V → Option (State V)
  | .begin => match run.phase with
      | .specs (spec :: todo) =>
          some (st.goOn { run with work := st.mirror } (.page spec todo st.clock 0))
      | _ => none
  | .page => match run.phase with
      | .page spec todo started last =>
          let watermark := stored (dataset spec.model) st.watermarks
          let reads := readPage cfg (dataset spec.model) watermark last st.odoo
          let read := run.upsert spec.model reads
          if reads.length < cfg.page then
            if watermark.isSome && spec.idCheckEveryCycle then
              some (st.goOn read (.ids spec todo started))
            else some (st.goOn read (.missing spec todo started []))
          else match reads.getLast? with
            | some r => some (st.goOn read (.page spec todo started r.1))
            | none => none
      | _ => none
  | .searchIds => match run.phase with
      | .ids spec todo started =>
          let ds := dataset spec.model
          let odooIds := mirroredIds ds st.odoo
          let mine := mirroredIds ds run.work
          let (work, deleted) := delete ds (mine.filter (· ∉ odooIds)) run.work
          let missing := Paging.ordered id (odooIds.filter (· ∉ mine)).dedup
          let checked := { run with
            work := work
            changed := run.changed ++ keysOf ds deleted
            gone := run.gone ++ keysOf ds deleted }
          some (st.goOn checked (.missing spec todo started missing))
      | _ => none
  -- the records of one chunk; they go into the transaction as they are read
  | .readIds => match run.phase with
      | .missing spec todo started (id :: ids) =>
          let reads := readIds (dataset spec.model) ((id :: ids).take 500) st.odoo
          some (st.goOn (run.upsert spec.model reads)
            (.missing spec todo started ((id :: ids).drop 500)))
      | .unseen c links (id :: ids) =>
          let reads := readIds (dataset c.child) ((id :: ids).take 500) st.odoo
          some (st.goOn (run.upsert c.child reads) (.unseen c links ((id :: ids).drop 500)))
      | .orphans c links (id :: ids) =>
          let reads := readIds (dataset c.parent) ((id :: ids).take 500) st.odoo
          some (st.goOn (run.upsert c.parent reads) (.orphans c links ((id :: ids).drop 500)))
      | _ => none
  | .rules => match run.phase with
      | .specs [] => some (st.goOn { run with work := st.mirror } (run.toSearch CHILDREN))
      | _ => none
  | .search => match run.phase with
      | .search c links (p :: live) odoo =>
          some (st.goOn run (.search c links ((p :: live).drop 1000)
            (odoo ++ childIds c ((p :: live).take 1000) st.odoo)))
      | _ => none
  -- without a changed parent nothing is mirrored or found here, and nothing is written
  | .recheck => match run.phase with
      | .search c links [] odoo =>
          let mirrored := childIds c (idsOf (dataset c.parent) run.changed) run.work
          let (work, removed) := delete (dataset c.child) (mirrored.filter (· ∉ odoo)) run.work
          let changed := run.changed ++ keysOf (dataset c.child) removed
          let unseen := odoo.filter fun id =>
            decide (id ∉ mirrored ∧ (dataset c.child, id) ∉ changed)
          some (st.goOn { run with work := work, changed := changed }
            (.unseen c links (Paging.ordered id unseen.dedup)))
      | _ => none
  | .next => match run.phase with
      | .unseen _ links [] => some (st.goOn run (run.toSearch links))
      | .orphans _ links [] => some (st.goOn run (run.toOrphans links))
      | _ => none
  -- the watermark of a spec commits with its rows
  | .commit => match run.phase with
      | .missing spec todo started [] =>
          some { st.goOn run (.specs todo) with
            mirror := run.work
            watermarks := write st.watermarks (dataset spec.model, started) }
      | .rest => some { st.goOn run .names with mirror := run.work }
      | _ => none
  | .complete => match run.phase with
      | .names => some { st with run := none }
      | _ => none
  | _ => none

def step (cfg : Settings) (st : State V) : Action V → Option (State V)
  | .tick seconds => some { st with clock := st.clock + seconds }
  | .odoo rows w =>
      if OdooChange cfg st rows w then
        some { st with odoo := rows, used := st.used ++ rows.map (·.1) }
      else none
  | .start => match st.run with
      | none => some { st with run := some ⟨.specs specs, st.mirror, [], []⟩ }
      | some _ => none
  -- an open transaction is rolled back; what the run remembers is lost
  | .raise => match st.run with
      | some _ => some { st with run := none }
      | none => none
  | a => match st.run with
      | some run => runStep cfg st run a
      | none => none

/-! ## The property -/

/-- The mirrored children are Odoo's, and the parent of each of them is mirrored. -/
def Converged (st : State V) : Prop :=
  ∀ c ∈ CHILDREN,
    (∀ id, id ∈ mirroredIds (dataset c.child) st.mirror ↔
      id ∈ mirroredIds (dataset c.child) st.odoo) ∧
    ∀ r ∈ st.mirror, r.1.1 = dataset c.child → ∀ p ∈ r.2.parent,
      p ∈ mirroredIds (dataset c.parent) st.mirror

def Action.quiet : Action V → Bool
  | .odoo _ _ => false
  | _ => true

/-! ## The condition -/

/-- The run has yet to compare the child with Odoo, if its parent is among the changed. -/
def Phase.rechecks (c : ChildLink) (id : Nat) : Phase → Bool
  | .specs _ | .page _ _ _ _ | .ids _ _ _ | .missing _ _ _ _ => true
  | .search c' links _ odoo => decide (c ∈ links ∨ c = c' ∧ id ∉ odoo)
  | .unseen _ links _ => decide (c ∈ links)
  | .orphans _ _ _ | .rest | .names => false

/-- Rows under which a child of `p` is looked after by the run that works on them. -/
structure View (V : Type) where
  rows : Rows V
  owed : ChildLink → Nat → Nat → Bool

/-- The rows committed: the run that is under way may still re-check what has changed. -/
def mirrorView (st : State V) : View V where
  rows := st.mirror
  owed c p _ := match st.run with
    | some run => decide (run.phase ≠ .names ∧ (dataset c.parent, p) ∈ run.changed)
    | none => false

/-- The rules have come to the parents that are not mirrored. -/
def Phase.readsParents : Phase → Bool
  | .orphans _ _ _ | .rest => true
  | _ => false

/-- The rows of the open transaction: the re-checks to come, and the parents that the rules
have read themselves. -/
def workView (st : State V) (run : SyncRun V) : View V where
  rows := run.work
  owed c p id := run.phase.rechecks c id && decide ((dataset c.parent, p) ∈ run.changed) ||
    run.phase.readsParents && (stored (dataset c.parent, p) st.mirror).isNone &&
      (stored (dataset c.parent, p) run.work).isSome

def views (st : State V) : List (View V) :=
  mirrorView st :: match st.run with
    | some run => [workView st run]
    | none => []

/-- A later sync finds the parent changed, or this one re-checks the child. -/
def Covered (odoo : Rows V) (v : View V) (c : ChildLink) (id : Nat) (r : Rec V) : Prop :=
  ∃ p ∈ r.parent, stored (dataset c.parent, p) v.rows ≠ stored (dataset c.parent, p) odoo ∨
    v.owed c p id = true

/-- The steps that lose no removed child. Odoo removes a child or its parent only where
the mirror holds the child under a parent that then differs from Odoo's, or under one
whose children are still to be re-checked. A run fails only while no child that Odoo has
removed hangs under a changed parent which the mirror already holds as Odoo does. The
rules do not commit a parent for the first time, as Odoo has it, together with a child of
it that Odoo has removed. -/
def Keeps (st : State V) : Action V → Prop
  | .odoo rows _ => ∀ v ∈ views st, ∀ r ∈ v.rows, ∀ c ∈ CHILDREN, r.1.1 = dataset c.child →
      stored r.1 rows = none →
      (stored r.1 st.odoo ≠ none ∨ ∃ p ∈ r.2.parent, stored (dataset c.parent, p) rows = none) →
        Covered rows v c r.1.2 r.2
  | .raise => ∀ run ∈ st.run, run.phase ≠ .names → ∀ r ∈ st.mirror, ∀ c ∈ CHILDREN,
      r.1.1 = dataset c.child → stored r.1 st.odoo = none → ∀ p ∈ r.2.parent,
        (dataset c.parent, p) ∈ run.changed →
          stored (dataset c.parent, p) st.mirror ≠ stored (dataset c.parent, p) st.odoo
  | .commit => ∀ run ∈ st.run, run.phase = .rest → ∀ r ∈ run.work, ∀ c ∈ CHILDREN,
      r.1.1 = dataset c.child → stored r.1 st.odoo = none → ∀ p ∈ r.2.parent,
        stored (dataset c.parent, p) st.mirror = none →
          ∀ parent ∈ stored (dataset c.parent, p) run.work,
            some parent ≠ stored (dataset c.parent, p) st.odoo
  | _ => True

instance (odoo : Rows V) (v : View V) (c : ChildLink) (id : Nat) (r : Rec V) :
    Decidable (Covered odoo v c id r) := by
  unfold Covered
  infer_instance

instance (st : State V) (a : Action V) : Decidable (Keeps st a) := by
  cases a <;> (unfold Keeps; infer_instance)

end SalesDashboard.Mirror.Children
