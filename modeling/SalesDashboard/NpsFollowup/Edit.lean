import SalesDashboard.NpsFollowup.Cases
import SalesDashboard.NpsFollowup.Wall
import SalesDashboard.Accounts.Calls
import SalesDashboard.Marcom.Text

/-! Editing a follow-up case (`npsFollowupService.ts`): the fields after an edit, checked
against each other and the rating, and the transaction around it. The history rows of an
edit are left out. -/

namespace SalesDashboard.NpsFollowup.Service
open Accounts Marcom

/-! ## Requests -/

/-- A value of the request. What is neither `undefined` nor `null` has its `String(v)`,
and its `Number(v)` if that is whole. -/
inductive Given
  | undefined
  | null
  | text (string : String) (number : Option Int)
  | other (string : String) (number : Option Int)
  deriving DecidableEq, Repr

def Given.string : Given → String
  | undefined => "undefined"
  | null => "null"
  | text s _ => s
  | other s _ => s

def Given.number : Given → Option Int
  | undefined => none
  | null => some 0
  | text _ n => n
  | other _ n => n

/-- `v === null || v === ''`. -/
def Given.isEmpty : Given → Bool
  | null => true
  | text s _ => s = ""
  | _ => false

/-- `v === null || v === undefined`. -/
def Given.isNone : Given → Bool
  | undefined | null => true
  | _ => false

/-- The properties that the request has. -/
structure CaseInput where
  version : Option Given
  stage : Option Given
  status : Option Given
  reasonId : Option Given
  reasonNote : Option Given
  owner : Option Given
  contactedAt : Option Given
  resolvedAt : Option Given
  rejectedAt : Option Given
  rootCause : Option Given
  actionTaken : Option Given
  notes : Option Given
  deriving DecidableEq

structure FollowupCase where
  ratedAt : Option Clock
  stage : Stage
  reasonId : Option Nat
  reasonNote : Option String
  ownerUserId : Option Nat
  ownerName : Option String
  contactedAt : Option Wall
  resolvedAt : Option Wall
  rejectedAt : Option Wall
  rootCause : Option String
  actionTaken : Option String
  notes : Option String
  version : Nat
  deriving DecidableEq

structure FollowupValidationError where
  code : String
  message : String
  field : Option String
  deriving DecidableEq

def MAX_REASON_NOTE : Nat := 200

def MAX_TEXT : Nat := 2000

def MAX_OWNER : Nat := 120

def EDITABLE_STAGES : List Stage := [.new, .contacted, .inProgress, .resolved, .rejected]

/-! ## The fields of a request -/

/-- `if (…) throw`. -/
def refuse {ε : Type} (when : Bool) (e : ε) : Except ε Unit := if when then .error e else .ok ()

def wallInput (v : Given) (field label : String) : Except FollowupValidationError (Option Wall) :=
  if v.isEmpty then .ok none
  else
    match wallText (trimChars v.string.toList) with
    | some w =>
        if w.Readable then .ok (some w)
        else .error ⟨"case." ++ field, label ++ " must be a date and time.", some field⟩
    | none => .error ⟨"case." ++ field, label ++ " must be a date and time.", some field⟩

/-- `s || null`. -/
def orNull (s : String) : Option String := if s = "" then none else some s

def limited (s : String) (field label : String) (max : Nat) : Except FollowupValidationError (Option String) :=
  if max < utf16Length s then
    .error ⟨"case." ++ field, label ++ " is limited to " ++ toString max ++ " characters.", some field⟩
  else .ok (orNull s)

def textInput (v : Given) (field label : String) (max : Nat) : Except FollowupValidationError (Option String) :=
  if v.isNone then .ok none else limited (jsTrim v.string) field label max

def ownerInput (v : Given) : Except FollowupValidationError (Option String) :=
  if v.isNone then .ok none
  else limited (String.ofList (trimChars (collapse v.string.toList))) "owner" "Owner" MAX_OWNER

def idInput (v : Given) (field label : String) : Except FollowupValidationError (Option Nat) :=
  if v.isEmpty || v = .undefined then .ok none
  else
    match v.number with
    | some n => if 1 ≤ n then .ok (some n.toNat) else .error ⟨"case." ++ field, label ++ " is not valid.", some field⟩
    | none => .error ⟨"case." ++ field, label ++ " is not valid.", some field⟩

/-- `has(input, k) ? read(input[k]) : existing[k]`. -/
def fieldAfter {α : Type} (existing : α) (v : Option Given) (read : Given → Except FollowupValidationError α) :
    Except FollowupValidationError α :=
  match v with
  | some v => read v
  | none => .ok existing

def nextReasonId (existing : FollowupCase) (input : CaseInput) : Except FollowupValidationError (Option Nat) :=
  fieldAfter existing.reasonId input.reasonId fun v => idInput v "reasonId" "Reason"

/-- The stage with this name. -/
def stageNamed (s : String) : Option Stage :=
  if s = "HISTORICAL" then some .historical
  else if s = "NEW" then some .new
  else if s = "CONTACTED" then some .contacted
  else if s = "IN_PROGRESS" then some .inProgress
  else if s = "RESOLVED" then some .resolved
  else if s = "REJECTED" then some .rejected
  else none

/-- `String(input.stage ?? '').toUpperCase()`, if people may set it. -/
def stageInput (toUpperCase : String → String) (v : Given) : Except FollowupValidationError Stage :=
  match stageNamed (toUpperCase (if v.isNone then "" else v.string)) with
  | some s =>
      if s ∈ EDITABLE_STAGES then .ok s
      else .error ⟨"case.stage", "Stage must be New, Contacted, In progress, Resolved or Rejected.", some "stage"⟩
  | none => .error ⟨"case.stage", "Stage must be New, Contacted, In progress, Resolved or Rejected.", some "stage"⟩

/-! ## The edit -/

/-- What the edit needs to know of a reason. -/
structure ReasonRule where
  requiresNote : Bool
  deriving DecidableEq

/-- The values after the edit. -/
structure Edited where
  stage : Stage
  reasonId : Option Nat
  reasonNote : Option String
  ownerName : Option String
  contactedAt : Option Wall
  resolvedAt : Option Wall
  rejectedAt : Option Wall
  rootCause : Option String
  actionTaken : Option String
  notes : Option String
  deriving DecidableEq

/-- `!s`. -/
def isBlank (s : Option String) : Bool := s.all (· = "")

/-- A time is not before the rating, nor more than a quarter of an hour ahead. -/
def checkTime (ratedAt : Option Clock) (now : Clock) (field label : String) (value : Option Wall) :
    Except FollowupValidationError Unit :=
  match value with
  | none => .ok ()
  | some v => do
      refuse (ratedAt.any fun rated => v.lt rated.time) ⟨"case." ++ field,
        label ++ " can't be before the rating (" ++ ratedAt.elim "" (·.time.minutes) ++ ").", some field⟩
      refuse ((hoursBetween now.time v).any fun hours => decide (1 / 4 < hours))
        ⟨"case." ++ field, label ++ " can't be in the future.", some field⟩

/-- The stages that fill the time of contact. -/
def REACHED : List Stage := [.contacted, .inProgress, .resolved]

section
variable (toUpperCase : String → String)

/-- `reason` is the rule of the reason that the case will have. -/
def applyEdit (existing : FollowupCase) (input : CaseInput) (now : Clock) (reason : Option ReasonRule) :
    Except FollowupValidationError Edited := do
  refuse input.status.isSome ⟨"case.statusReadOnly",
    "Status can't be set: it follows the stage. Change the stage instead.", some "status"⟩
  refuse input.rejectedAt.isSome ⟨"case.rejectedAtReadOnly",
    "Rejected at is set when the stage becomes Rejected.", some "rejectedAt"⟩
  let stage ← fieldAfter existing.stage input.stage (stageInput toUpperCase)
  let reasonId ← nextReasonId existing input
  let reasonNote ← fieldAfter existing.reasonNote input.reasonNote
    fun v => textInput v "reasonNote" "The reason note" MAX_REASON_NOTE
  let ownerName ← fieldAfter existing.ownerName input.owner ownerInput
  let contactedAt ← fieldAfter existing.contactedAt input.contactedAt
    fun v => wallInput v "contactedAt" "Contacted at"
  let resolvedAt ← fieldAfter existing.resolvedAt input.resolvedAt
    fun v => wallInput v "resolvedAt" "Resolved at"
  let rootCause ← fieldAfter existing.rootCause input.rootCause
    fun v => textInput v "rootCause" "Root cause" MAX_TEXT
  let actionTaken ← fieldAfter existing.actionTaken input.actionTaken
    fun v => textInput v "actionTaken" "Action taken" MAX_TEXT
  let notes ← fieldAfter existing.notes input.notes fun v => textInput v "notes" "Notes" MAX_TEXT
  refuse (stage = .historical && (input.contactedAt.isSome || input.resolvedAt.isSome))
    ⟨"case.stage", "Move a Historical case to a follow-up stage first.", some "stage"⟩
  let contactedAt :=
    if stage ∈ REACHED ∧ contactedAt = none ∧ stage ≠ existing.stage then some now.time else contactedAt
  let resolvedAt := if stage = .resolved then some (resolvedAt.getD now.time) else none
  refuse (stage = .resolved && reasonId = none)
    ⟨"case.reasonRequired", "Choose a reason before moving the case to Resolved.", some "reasonId"⟩
  -- kept while the case stays rejected
  let rejectedAt :=
    if stage = .rejected then
      some (if existing.stage = .rejected then existing.rejectedAt.getD now.time else now.time)
    else none
  refuse (stage = .rejected && isBlank notes)
    ⟨"case.rejectNote", "Say in the notes why the case is rejected.", some "notes"⟩
  let reasonNote := if reasonId = none ∨ (reason.any fun r => !r.requiresNote) then none else reasonNote
  refuse ((reason.any (·.requiresNote)) && isBlank reasonNote &&
      (reasonId ≠ existing.reasonId || input.reasonNote.isSome))
    ⟨"case.reasonNote", "Say in a short note what the \"Other\" reason is.", some "reasonNote"⟩
  checkTime existing.ratedAt now "contactedAt" "Contacted at" contactedAt
  checkTime existing.ratedAt now "resolvedAt" "Resolved at" resolvedAt
  refuse (resolvedAt.any fun resolved => contactedAt.any fun contacted => resolved.lt contacted)
    ⟨"case.resolvedAt", "Resolved at can't be before Contacted at.", some "resolvedAt"⟩
  .ok { stage, reasonId, reasonNote, ownerName, contactedAt, resolvedAt, rejectedAt, rootCause, actionTaken, notes }

/-! ## The transaction -/

/-- A row of the reasons table. -/
structure FollowupReason where
  reasonId : Nat
  subReasonEn : Option String
  requiresNote : Bool
  isActive : Bool
  categoryActive : Bool
  deriving DecidableEq

def FollowupReason.pickable (r : FollowupReason) : Bool :=
  r.isActive && r.categoryActive && (r.subReasonEn.isSome || r.requiresNote)

inductive Refusal
  | validation (e : FollowupValidationError)
  | conflict (current : FollowupCase)
  deriving DecidableEq

/-- An edit, its time, and what the transaction reads: the reasons, and whether the
filters show the case. -/
structure Request where
  input : CaseInput
  now : Clock
  reasons : List FollowupReason
  shown : Bool
  deriving DecidableEq

/-- The rule of the reason that the edit leads to; a new choice must be pickable. -/
def ruleOf (reasons : List FollowupReason) (before after : Option Nat) :
    Except FollowupValidationError (Option ReasonRule) :=
  match after with
  | none => .ok none
  | some id =>
      match reasons.find? (·.reasonId = id) with
      | none => .error ⟨"case.reasonId", "Choose a reason from the list.", some "reasonId"⟩
      | some reason => do
          refuse (some id ≠ before && !reason.pickable)
            ⟨"case.reasonId", "Choose an active sub-reason (or Other).", some "reasonId"⟩
          .ok (some ⟨reason.requiresNote⟩)

/-- Some column of `WRITE_FIELDS` changes. -/
def changed (existing : FollowupCase) (next : Edited) : Bool :=
  existing.stage ≠ next.stage || existing.reasonId ≠ next.reasonId || existing.reasonNote ≠ next.reasonNote ||
    existing.ownerName ≠ next.ownerName || existing.contactedAt ≠ next.contactedAt ||
    existing.resolvedAt ≠ next.resolvedAt || existing.rejectedAt ≠ next.rejectedAt ||
    existing.rootCause ≠ next.rootCause || existing.actionTaken ≠ next.actionTaken || existing.notes ≠ next.notes

/-- The `UPDATE`; a typed owner replaces the link to a user. -/
def written (existing : FollowupCase) (next : Edited) : FollowupCase :=
  { ratedAt := existing.ratedAt
    stage := next.stage
    reasonId := next.reasonId
    reasonNote := next.reasonNote
    ownerUserId := if existing.ownerName ≠ next.ownerName then none else existing.ownerUserId
    ownerName := next.ownerName
    contactedAt := next.contactedAt
    resolvedAt := next.resolvedAt
    rejectedAt := next.rejectedAt
    rootCause := next.rootCause
    actionTaken := next.actionTaken
    notes := next.notes
    version := if changed existing next then existing.version + 1 else existing.version }

/-- The case version of the request. -/
def versionInput (v : Option Given) : Except FollowupValidationError Int :=
  match v.bind Given.number with
  | some n =>
      if 1 ≤ n then .ok n else .error ⟨"case.version", "The case version is missing; reload the case.", none⟩
  | none => .error ⟨"case.version", "The case version is missing; reload the case.", none⟩

/-- The case after an edit; a refused edit is rolled back. -/
def updateCase (existing : FollowupCase) (r : Request) : Except Refusal FollowupCase := do
  let version ← (versionInput r.input.version).mapError .validation
  refuse (!r.shown) (.validation ⟨"case.notFound", "Case not found.", none⟩)
  refuse ((existing.version : Int) ≠ version) (.conflict existing)
  let reasonId ← (nextReasonId existing r.input).mapError .validation
  let rule ← (ruleOf r.reasons existing.reasonId reasonId).mapError .validation
  let next ← (applyEdit toUpperCase existing r.input r.now rule).mapError .validation
  .ok (written existing next)

end

end SalesDashboard.NpsFollowup.Service
