import SalesDashboard.Lib.Grouping
import SalesDashboard.Tachometer.Dates

/-! The NPS follow-up cases (`followup.py`): one case for each detractor rating, and a
flag on the cases whose rating left the source or is no detractor any more. Times are
numbers. The setting that holds the start date is read before, and is given here. -/

namespace SalesDashboard.NpsFollowup
open Tachometer

/-! ## Tables -/

inductive Stage
  | historical | new | contacted | inProgress | resolved | rejected
  deriving DecidableEq, Repr

/-- A row of `fact_process_nps_response`, as far as the cases read it. -/
structure Response where
  responseId : Int
  ratedAtLocal : Option Nat
  ratingDateKey : Int
  npsLevel : Int
  deriving DecidableEq

/-- The fact table, with its primary key. -/
structure Fact where
  rows : List Response
  nodup : (rows.map (·.responseId)).Nodup

/-- What people edit on a case. -/
structure Manual where
  stage : Stage
  reasonId : Option Nat
  reasonNote : Option String
  ownerUserId : Option Nat
  ownerName : Option String
  contactedAt : Option Nat
  resolvedAt : Option Nat
  rejectedAt : Option Nat
  rootCause : Option String
  actionTaken : Option String
  notes : Option String
  version : Nat
  updatedBy : Option Nat
  updatedAt : Nat
  deriving DecidableEq

structure Case where
  caseId : Nat
  responseId : Int
  ratedAtLocal : Option Nat
  manual : Manual
  sourceChanged : Bool
  sourceChangedAt : Option Nat
  sourceChangeReason : Option String
  createdBy : Option Nat
  createdAt : Nat
  deriving DecidableEq

structure AuditRow where
  caseId : Nat
  changedBy : Option Nat
  changedAt : Nat
  field : String
  oldValue : Option String
  newValue : Option String
  deriving DecidableEq

/-- Which of the migrations of the case table are applied. -/
inductive Schema
  | none | cases0052 | stage0066
  deriving DecidableEq, Repr

/-- The tables, and the next value of the case table's counter. -/
structure Db where
  schema : Schema
  fact : Fact
  cases : List Case
  nextCase : Nat
  audit : List AuditRow

/-! ## Keeping the cases in step -/

def DETRACTOR : Int := 1

def GONE : String := "rating no longer in the NPS source"

def NOT_DETRACTOR : String := "rating is no longer a detractor"

def SOURCE_CHANGED : String := "source_changed"

def stageColumn (schema : Schema) : String := if schema = .stage0066 then "stage" else "status"

/-- `status`, which the database works out from the stage. -/
def statusOf : Stage → Option String
  | .new | .contacted | .inProgress => some "OPEN"
  | .resolved => some "CLOSE"
  | .historical => none
  | .rejected => some "DISPUTED"

def startKey (start : Date) : Int := start.year * 10000 + start.month * 100 + start.day

def newCase (now : Nat) (start : Date) (caseId : Nat) (f : Response) : Case :=
  { caseId, responseId := f.responseId, ratedAtLocal := f.ratedAtLocal
    manual :=
      { stage := if startKey start ≤ f.ratingDateKey then .new else .historical
        reasonId := none, reasonNote := none, ownerUserId := none, ownerName := none
        contactedAt := none, resolvedAt := none, rejectedAt := none, rootCause := none
        actionTaken := none, notes := none, version := 1, updatedBy := none, updatedAt := now }
    sourceChanged := false, sourceChangedAt := none, sourceChangeReason := none
    createdBy := none, createdAt := now }

/-- The detractor ratings without a case. -/
def missing (fact : Fact) (cases : List Case) : List Response :=
  fact.rows.filter fun f =>
    decide (f.npsLevel = DETRACTOR) && !decide (f.responseId ∈ cases.map (·.responseId))

/-- `INSERT … SELECT`: the counter gives the new cases their ids. -/
def insertCases (db : Db) (now : Nat) (start : Date) : Db :=
  let rows := missing db.fact db.cases
  { db with
    cases := db.cases ++ rows.mapIdx fun i f => newCase now start (db.nextCase + i) f
    nextCase := db.nextCase + rows.length }

/-- `f.nps_level` of the join. -/
def levelOf (fact : Fact) (responseId : Int) : Option Int :=
  (fact.rows.find? (·.responseId = responseId)).map (·.npsLevel)

/-- Why a case is flagged. -/
def reasonOf (level : Option Int) : Option String :=
  match level with
  | none => some GONE
  | some level => if level ≠ DETRACTOR then some NOT_DETRACTOR else none

structure JoinRow where
  caseId : Nat
  changed : Bool
  oldReason : Option String
  level : Option Int

def joinRows (db : Db) : List JoinRow :=
  db.cases.map fun c => ⟨c.caseId, c.sourceChanged, c.sourceChangeReason, levelOf db.fact c.responseId⟩

def Case.flag (now : Nat) (reason : String) (c : Case) : Case :=
  { c with sourceChanged := true, sourceChangedAt := some now, sourceChangeReason := some reason }

def Case.restore (c : Case) : Case :=
  { c with sourceChanged := false, sourceChangedAt := none, sourceChangeReason := none }

/-- `UPDATE … WHERE case_id = :id`. -/
def updateCase (cases : List Case) (caseId : Nat) (f : Case → Case) : List Case :=
  cases.map fun c => if c.caseId = caseId then f c else c

/-- `_audit`; the loads have no user. -/
def auditRow (caseId : Nat) (now : Nat) (old new : Option String) : AuditRow :=
  ⟨caseId, none, now, SOURCE_CHANGED, old, new⟩

structure Loop where
  cases : List Case
  audit : List AuditRow
  flagged : Nat
  restored : Nat

def syncRow (now : Nat) (s : Loop) (r : JoinRow) : Loop :=
  match reasonOf r.level with
  | some reason =>
    if !r.changed || decide (r.oldReason ≠ some reason) then
      { s with
        cases := updateCase s.cases r.caseId (Case.flag now reason)
        audit := s.audit ++ [auditRow r.caseId now (if r.changed then r.oldReason else none) (some reason)]
        flagged := s.flagged + 1 }
    else s
  | none =>
    if r.changed then
      { s with
        cases := updateCase s.cases r.caseId Case.restore
        audit := s.audit ++ [auditRow r.caseId now r.oldReason none]
        restored := s.restored + 1 }
    else s

/-- The counts for the task details. -/
inductive SyncResult
  | skippedMigration
  | skippedSetting
  | synced (start : Date) (stageColumn : String) (created flagged restored : Nat)
      (byStage : List (Stage × Nat)) (byStatus : Option (List (Option String × Nat)))

/-- `sync_cases`, in the load's transaction. -/
def syncCases (db : Db) (now : Nat) (start : Option Date) : Db × SyncResult :=
  if db.schema = .none then (db, .skippedMigration)
  else
    match start with
    | none => (db, .skippedSetting)
    | some start =>
      let inserted := insertCases db now start
      let created : Nat := inserted.cases.length - db.cases.length
      let loop := (joinRows inserted).foldl (syncRow now) ⟨inserted.cases, inserted.audit, 0, 0⟩
      let byStage := (Grouping.groups (·.manual.stage) loop.cases).map fun g => (g.1, g.2.length)
      let withStatus := loop.cases.filter fun c => (statusOf c.manual.stage).isSome
      let byStatus := (Grouping.groups (fun c => statusOf c.manual.stage) withStatus).map
        fun g => (g.1, g.2.length)
      ({ inserted with cases := loop.cases, audit := loop.audit },
        .synced start (stageColumn db.schema) created loop.flagged loop.restored byStage
          (if db.schema = .stage0066 then some byStatus else none))

/-! ## The loop, case by case -/

/-- A case after the loop. -/
def refresh (now : Nat) (fact : Fact) (c : Case) : Case :=
  match reasonOf (levelOf fact c.responseId) with
  | some reason =>
    if !c.sourceChanged || decide (c.sourceChangeReason ≠ some reason) then c.flag now reason else c
  | none => if c.sourceChanged then c.restore else c

/-- What the loop writes to the audit for a case. -/
def auditOf (now : Nat) (fact : Fact) (c : Case) : List AuditRow :=
  match reasonOf (levelOf fact c.responseId) with
  | some reason =>
    if !c.sourceChanged || decide (c.sourceChangeReason ≠ some reason) then
      [auditRow c.caseId now (if c.sourceChanged then c.sourceChangeReason else none) (some reason)]
    else []
  | none => if c.sourceChanged then [auditRow c.caseId now c.sourceChangeReason none] else []

theorem updateCase_append_cons {done rest : List Case} {c : Case} {f : Case → Case}
    (hdone : c.caseId ∉ done.map (·.caseId)) (hrest : c.caseId ∉ rest.map (·.caseId)) :
    updateCase (done ++ c :: rest) c.caseId f = done ++ f c :: rest := by
  have hkeep : ∀ cs : List Case, c.caseId ∉ cs.map (·.caseId) → updateCase cs c.caseId f = cs := by
    intro cs hcs
    refine (List.map_congr_left fun x hx => if_neg fun heq => hcs ?_).trans (List.map_id _)
    rw [← heq]
    exact List.mem_map_of_mem hx
  have hdone := hkeep done hdone
  have hrest := hkeep rest hrest
  unfold updateCase at hdone hrest ⊢
  rw [List.map_append, List.map_cons, hdone, hrest, if_pos rfl]

theorem refresh_caseId (now : Nat) (fact : Fact) (c : Case) : (refresh now fact c).caseId = c.caseId := by
  unfold refresh
  split <;> split <;> rfl

theorem refresh_responseId (now : Nat) (fact : Fact) (c : Case) :
    (refresh now fact c).responseId = c.responseId := by
  unfold refresh
  split <;> split <;> rfl

theorem syncRow_eq (now : Nat) (fact : Fact) {done rest : List Case} {c : Case} (audit : List AuditRow)
    (flagged restored : Nat) (hdone : c.caseId ∉ done.map (·.caseId))
    (hrest : c.caseId ∉ rest.map (·.caseId)) :
    ∃ flagged' restored', syncRow now ⟨done ++ c :: rest, audit, flagged, restored⟩
        ⟨c.caseId, c.sourceChanged, c.sourceChangeReason, levelOf fact c.responseId⟩ =
      ⟨done ++ refresh now fact c :: rest, audit ++ auditOf now fact c, flagged', restored'⟩ := by
  unfold syncRow refresh auditOf
  simp only
  split
  · split
    · rw [updateCase_append_cons hdone hrest]
      exact ⟨_, _, rfl⟩
    · rw [List.append_nil]
      exact ⟨_, _, rfl⟩
  · split
    · rw [updateCase_append_cons hdone hrest]
      exact ⟨_, _, rfl⟩
    · rw [List.append_nil]
      exact ⟨_, _, rfl⟩

/-- The loop changes each case by itself. -/
theorem foldl_syncRow (now : Nat) (fact : Fact) (done rest : List Case) (audit : List AuditRow)
    (flagged restored : Nat) (hids : ((done ++ rest).map (·.caseId)).Nodup) :
    ∃ flagged' restored', (rest.map fun c => (⟨c.caseId, c.sourceChanged, c.sourceChangeReason,
        levelOf fact c.responseId⟩ : JoinRow)).foldl (syncRow now) ⟨done ++ rest, audit, flagged, restored⟩ =
      ⟨done ++ rest.map (refresh now fact), audit ++ rest.flatMap (auditOf now fact), flagged',
        restored'⟩ := by
  induction rest generalizing done audit flagged restored with
  | nil =>
    rw [List.map_nil, List.flatMap_nil, List.append_nil audit]
    exact ⟨_, _, rfl⟩
  | cons c rest ih =>
    have hsplit := hids
    rw [List.map_append, List.map_cons, List.nodup_append, List.nodup_cons] at hsplit
    obtain ⟨-, ⟨hrest, -⟩, hdisjoint⟩ := hsplit
    have hdone : c.caseId ∉ done.map (·.caseId) := fun h =>
      hdisjoint _ h _ List.mem_cons_self rfl
    obtain ⟨flagged₁, restored₁, hrow⟩ := syncRow_eq now fact audit flagged restored hdone hrest
    have hids' : (((done ++ [refresh now fact c]) ++ rest).map (·.caseId)).Nodup := by
      rw [List.append_assoc, List.map_append, List.map_append, List.map_singleton, refresh_caseId]
      rw [List.map_append, List.map_cons] at hids
      exact hids
    obtain ⟨flagged', restored', htail⟩ := ih (done ++ [refresh now fact c])
      (audit ++ auditOf now fact c) flagged₁ restored₁ hids'
    refine ⟨flagged', restored', ?_⟩
    rw [List.map_cons, List.foldl_cons, hrow, List.map_cons, List.flatMap_cons]
    simpa only [List.append_assoc, List.singleton_append] using htail

end SalesDashboard.NpsFollowup
