import SalesDashboard.Lib.Tables
import SalesDashboard.NpsFollowup.Cases
import SalesDashboard.NpsFollowup.Ageing

/-! The follow-up charts of the NPS page (`npsScore.ts`): the detractors of the filters with
their cases, in one pass over the rows. A case and a reason are as far as the charts read
them, with times in local milliseconds. The dates that the summary repeats are left
out. -/

namespace SalesDashboard.NpsFollowup
open Keyed Tables

/-! ## Stages and statuses -/

inductive FollowupStatus
  | OPEN | CLOSE | DISPUTED
  deriving DecidableEq, Repr

def FOLLOWUP_STATUSES : List FollowupStatus := [.OPEN, .CLOSE, .DISPUTED]

def FOLLOWUP_STAGES : List Stage := [.historical, .new, .contacted, .inProgress, .resolved, .rejected]

def OPEN_STAGES : List Stage := [.new, .contacted, .inProgress]

def statusOfStage (stage : Stage) : Option FollowupStatus :=
  if stage ∈ OPEN_STAGES then some .OPEN
  else if stage = .resolved then some .CLOSE
  else if stage = .historical then none
  else some .DISPUTED

def Stage.name : Stage → String
  | .historical => "HISTORICAL"
  | .new => "NEW"
  | .contacted => "CONTACTED"
  | .inProgress => "IN_PROGRESS"
  | .resolved => "RESOLVED"
  | .rejected => "REJECTED"

/-! ## Rows -/

/-- A row of `nps_followup_case`. -/
structure SummaryCase where
  responseId : Int
  stage : Stage
  status : Option FollowupStatus
  createdAt : Option Int
  contactedAt : Option Int
  resolvedAt : Option Int
  reasonId : Option Int
  deriving DecidableEq

/-- A row of `dim_nps_reason`. -/
structure ReasonRow where
  reasonId : Int
  categoryKey : String
  categoryEn : String
  categoryAr : Option String
  categorySort : Option Int
  subReasonEn : Option String
  subReasonAr : Option String
  sortOrder : Option Int
  requiresNote : Bool
  deriving DecidableEq

/-- A detractor with its case and the reason of that. -/
structure FollowupRow where
  followup : Option SummaryCase
  reason : Option ReasonRow
  deriving DecidableEq

/-- What the reasons of a category share. -/
def ReasonRow.category (r : ReasonRow) : String × Option String × Option Int × Bool :=
  (r.categoryEn, r.categoryAr, r.categorySort, r.requiresNote)

/-- `detractors` are the responses that the query selects; `status` is generated from the
stage. -/
structure FollowupTables where
  detractors : List Int
  cases : List SummaryCase
  reasons : List ReasonRow
  responseId_nodup : (cases.map (·.responseId)).Nodup
  reasonId_nodup : (reasons.map (·.reasonId)).Nodup
  status_generated : ∀ c ∈ cases, c.status = statusOfStage c.stage
  reason_known : ∀ c ∈ cases, ∀ k, c.reasonId = some k → k ∈ reasons.map (·.reasonId)
  category_once : ∀ r ∈ reasons, ∀ r' ∈ reasons, r.categoryKey = r'.categoryKey → r.category = r'.category

/-- The rows of the query, whose order nothing fixes. -/
def detractorRows (db : FollowupTables) : List FollowupRow :=
  (leftJoin (fun row : Int × Option SummaryCase => row.2.bind (·.reasonId)) (·.reasonId) db.reasons
    (leftJoin some (·.responseId) db.cases db.detractors)).map fun row => ⟨row.1.2, row.2⟩

/-! ## Reasons -/

/-- What the charts sort by. -/
structure Slice where
  label : String
  labelAr : Option String
  count : Nat
  sort : Int
  deriving DecidableEq

structure SubEntry extends Slice where
  reasonId : Int
  deriving DecidableEq

/-- A map of `Option` values is one whose values are there. -/
structure ReasonEntry extends Slice where
  categoryKey : Option String
  noSubs : Bool
  subs : List (Int × Option SubEntry)
  deriving DecidableEq

def MAX_SAFE_INTEGER : Int := 9007199254740991

def NOT_CLASSIFIED : String := "Not yet classified"

/-- `String(x)` of a column of the reason. -/
def reasonText (column : ReasonRow → String) (r : FollowupRow) : String := r.reason.elim "null" column

/-- `key`: the category of the case's reason. -/
def reasonKey (r : FollowupRow) : Option String :=
  (r.followup.bind (·.reasonId)).map fun _ => reasonText (·.categoryKey) r

def newEntry (r : FollowupRow) : ReasonEntry where
  categoryKey := reasonKey r
  label := if reasonKey r = none then NOT_CLASSIFIED else reasonText (·.categoryEn) r
  labelAr := if reasonKey r = none then none else r.reason.bind (·.categoryAr)
  count := 0
  sort := if reasonKey r = none then MAX_SAFE_INTEGER else (r.reason.bind (·.categorySort)).getD 0
  noSubs := decide (reasonKey r = none) || (r.reason.any (·.requiresNote))
  subs := []

/-- `r.sub_reason_en`, when it is not empty. -/
def subReason (r : FollowupRow) : Option String :=
  (r.reason.bind (·.subReasonEn)).filter fun s => decide (s ≠ "")

/-- `Number(r.reason_id)`. -/
def subId (r : FollowupRow) : Int := (r.followup.bind (·.reasonId)).getD 0

def newSub (r : FollowupRow) : SubEntry where
  reasonId := subId r
  label := (r.reason.bind (·.subReasonEn)).getD "Not specified"
  labelAr := (r.reason.bind (·.subReasonAr)).or (if (subReason r).isSome then none else some "غير محدد")
  count := 0
  sort := if (subReason r).isSome then (r.reason.bind (·.sortOrder)).getD 0 else MAX_SAFE_INTEGER

def countSub (sub : Option SubEntry) (r : FollowupRow) : Option SubEntry :=
  let sub := sub.getD (newSub r)
  some { sub with count := sub.count + 1 }

def addSub (subs : List (Int × Option SubEntry)) (r : FollowupRow) : List (Int × Option SubEntry) :=
  if reasonKey r = none then subs
  else upsert Prod.fst (subId r) (fun e => (e.1, countSub e.2 r)) (subId r, countSub none r) subs

def countReason (entry : Option ReasonEntry) (r : FollowupRow) : Option ReasonEntry :=
  let entry := entry.getD (newEntry r)
  some { entry with count := entry.count + 1, subs := addSub entry.subs r }

/-! ## The pass over the rows -/

/-- A map of counts is read with `?? 0`. -/
structure SummaryState where
  slaCases : List AgeingCase
  statuses : FollowupStatus → Nat
  stages : Stage → Nat
  reasons : List (Option String × Option ReasonEntry)
  rejected : Nat
  historical : Nat
  noCase : Nat

def SummaryState.start : SummaryState := ⟨[], fun _ => 0, fun _ => 0, [], 0, 0, 0⟩

def slaCase (now : Int) (c : SummaryCase) : AgeingCase where
  stage := c.stage.name
  sla := caseSla ⟨c.stage.name, c.createdAt, c.contactedAt, c.resolvedAt⟩ now
  contacted := c.contactedAt.isSome

/-- A case with a status: once in each donut, and in the ageing unless it is rejected. -/
def countCase (now : Int) (s : SummaryState) (r : FollowupRow) (c : SummaryCase) (status : FollowupStatus) :
    SummaryState :=
  { s with
    statuses := Function.update s.statuses status (s.statuses status + 1)
    stages := Function.update s.stages c.stage (s.stages c.stage + 1)
    rejected := if c.stage = .rejected then s.rejected + 1 else s.rejected
    slaCases := if c.stage = .rejected then s.slaCases else s.slaCases ++ [slaCase now c]
    reasons := upsert Prod.fst (reasonKey r) (fun e => (e.1, countReason e.2 r))
      (reasonKey r, countReason none r) s.reasons }

def countRow (now : Int) (s : SummaryState) (r : FollowupRow) : SummaryState :=
  match r.followup with
  | none => { s with noCase := s.noCase + 1 }
  | some c =>
    if c.stage = .historical then { s with historical := s.historical + 1 }
    else match c.status with
      | none => { s with historical := s.historical + 1 }
      | some status => countCase now s r c status

/-! ## The summary -/

structure StatusCount where
  key : FollowupStatus
  count : Nat
  stages : List (Stage × Nat)
  deriving DecidableEq

structure NpsSubReasonCount where
  reasonId : Int
  label : String
  labelAr : Option String
  count : Nat
  deriving DecidableEq

structure ReasonCount where
  categoryKey : Option String
  label : String
  labelAr : Option String
  count : Nat
  subReasons : List NpsSubReasonCount
  deriving DecidableEq

structure NpsFollowupSummary where
  detractors : Nat
  charted : Nat
  rejected : Nat
  historical : Nat
  noCase : Nat
  ageing : ResolutionAgeing
  byStatus : List StatusCount
  byReason : List ReasonCount
  deriving DecidableEq

/-- Most cases first, then by `sort`, then by `localeCompare` of the labels. -/
def chartOrder (localeLe : String → String → Bool) (a b : Slice) : Prop :=
  b.count < a.count ∨ b.count = a.count ∧
    (a.sort < b.sort ∨ a.sort = b.sort ∧ localeLe a.label b.label = true)

instance (localeLe : String → String → Bool) : DecidableRel (chartOrder localeLe) := fun _ _ => by
  unfold chartOrder
  infer_instance

def SubEntry.shown (sub : SubEntry) : NpsSubReasonCount := ⟨sub.reasonId, sub.label, sub.labelAr, sub.count⟩

def ReasonEntry.shown (localeLe : String → String → Bool) (e : ReasonEntry) : ReasonCount where
  categoryKey := e.categoryKey
  label := e.label
  labelAr := e.labelAr
  count := e.count
  subReasons :=
    if e.noSubs then []
    else ((e.subs.filterMap Prod.snd).insertionSort fun a b =>
      chartOrder localeLe a.toSlice b.toSlice).map (·.shown)

def byStatus (s : SummaryState) : List StatusCount :=
  FOLLOWUP_STATUSES.map fun key => ⟨key, s.statuses key,
    (FOLLOWUP_STAGES.filter fun stage => decide (statusOfStage stage = some key)).map fun stage =>
      (stage, s.stages stage)⟩

/-- The summary of the rows, in the order in which they come. -/
def followupSummary (localeLe : String → String → Bool) (now : Int) (list : List FollowupRow) :
    NpsFollowupSummary :=
  let s := list.foldl (countRow now) SummaryState.start
  { detractors := list.length
    charted := s.statuses .OPEN + s.statuses .CLOSE + s.statuses .DISPUTED
    rejected := s.rejected
    historical := s.historical
    noCase := s.noCase
    ageing := resolutionAgeing s.slaCases
    byStatus := byStatus s
    byReason := ((s.reasons.filterMap Prod.snd).insertionSort fun a b =>
      chartOrder localeLe a.toSlice b.toSlice).map (·.shown localeLe) }

end SalesDashboard.NpsFollowup
