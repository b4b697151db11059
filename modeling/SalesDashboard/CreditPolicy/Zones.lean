import SalesDashboard.Lib.Ranges
import SalesDashboard.Lib.Doubles

/-! The escalation zones of the credit policy, their validation at load and the zone of a
number of days overdue (`creditPolicy.ts`). Sums and differences of days are rounded to
doubles, as the source's are. -/

namespace SalesDashboard.CreditPolicy
open Ranges Doubles

/-! ## The policy -/

structure CreditPolicyActionArea where
  minDays : ℚ
  maxDays : Option ℚ
  action : String
  details : Option String
  edgeLabel : Option String
  deriving DecidableEq

inductive ZoneKey
  | GREEN | YELLOW | RED | BLOCK
  deriving DecidableEq, Repr

inductive Tone
  | green | amber | red | block
  deriving DecidableEq, Repr

/-- `minDays` and `maxDays` are the first and the last day overdue in the zone. -/
structure CreditPolicyZone where
  key : ZoneKey
  label : String
  minDays : ℚ
  maxDays : Option ℚ
  tone : Tone
  owner : String
  action : String
  edgeLabel : Option String
  actionAreas : Option (List CreditPolicyActionArea)
  deriving DecidableEq

/-- The first day after one that ends a range: `maxDays + 1`. -/
def dayAfter (maxDays : ℚ) : ℚ := toDouble (maxDays + 1)

def CREDIT_POLICY_ZONES : List CreditPolicyZone :=
  [⟨.GREEN, "GREEN", 0, some 15, .green, "Sales Manager", "Payment Reminder", some "15 Days", none⟩,
    ⟨.YELLOW, "YELLOW", 16, some 30, .amber, "Sales Director", "Follow-up / Customer Visit",
      some "30 Days", none⟩,
    ⟨.RED, "RED", 31, some 44, .red, "CEO", "CEO Intervention", some "45 Days", none⟩,
    ⟨.BLOCK, "BLOCK", 45, none, .block, "GCEO + CFO", "Management Escalation", none, some
      [⟨45, some 60, "Management Escalation", none, some "60 Days"⟩,
        ⟨61, some 65, "Final Warning + Stop Supply",
          some "Send final payment warning by registered mail and suspend further supply/deliveries.",
          some "65 Days"⟩,
        ⟨66, none, "Legal Action",
          some "CFO decides the appropriate legal action in consultation with GCEO.", none⟩]⟩]

def ESCALATION_WINDOW_DAYS : Nat := 7

def ZoneKey.text : ZoneKey → String
  | .GREEN => "GREEN"
  | .YELLOW => "YELLOW"
  | .RED => "RED"
  | .BLOCK => "BLOCK"

/-! ## Validation -/

/-- The last area does not end with its zone, or one before it is open-ended. -/
def uncovered (zone : CreditPolicyZone) (a : CreditPolicyActionArea)
    (rest : List CreditPolicyActionArea) : Bool :=
  if rest.isEmpty then decide (a.maxDays ≠ zone.maxDays) else a.maxDays.isNone

/-- The action areas from the one that has to start at `expected`. -/
def checkAreas (zone : CreditPolicyZone) : ℚ → List CreditPolicyActionArea → Except String Unit
  | _, [] => .ok ()
  | expected, a :: rest =>
      if a.minDays ≠ expected || a.maxDays.any (fun hi => decide (hi < a.minDays)) then
        .error "credit policy: gap or overlap in action areas"
      else if uncovered zone a rest then
        .error "credit policy: action areas must cover their zone"
      else checkAreas zone (dayAfter (a.maxDays.getD 0)) rest

/-- The zones after `previous`. -/
def checkZones : Option CreditPolicyZone → List CreditPolicyZone → Except String Unit
  | _, [] => .ok ()
  | previous, z :: rest =>
      if rest.isEmpty ≠ z.maxDays.isNone then .error "credit policy: only the last zone is open-ended"
      else if z.maxDays.any (fun hi => decide (hi < z.minDays)) then
        .error ("credit policy: zone " ++ z.key.text ++ " ends before it starts")
      else if previous.any (fun p => decide (z.minDays ≠ dayAfter (p.maxDays.getD 0))) then
        .error ("credit policy: gap or overlap before zone " ++ z.key.text)
      else
        match checkAreas z z.minDays (z.actionAreas.getD []) with
        | .error e => .error e
        | .ok _ => checkZones (some z) rest

def validateCreditPolicy (zones : List CreditPolicyZone) : Except String Unit :=
  if (zones.head?.map (·.minDays)) ≠ some 0 then
    .error "credit policy: the first zone must start at day 0"
  else checkZones none zones

/-! ## Lookups -/

def CreditPolicyActionArea.range (a : CreditPolicyActionArea) : Range ℚ := ⟨some a.minDays, a.maxDays⟩

def CreditPolicyZone.range (z : CreditPolicyZone) : Range ℚ := ⟨some z.minDays, z.maxDays⟩

def CreditPolicyActionArea.has (a : CreditPolicyActionArea) (daysOverdue : ℚ) : Bool :=
  a.range.has daysOverdue

def CreditPolicyZone.has (z : CreditPolicyZone) (daysOverdue : ℚ) : Bool := z.range.has daysOverdue

/-- The last zone stands for a number of days that no zone has. -/
def creditZoneForDays (daysOverdue : ℚ) (zones : List CreditPolicyZone) : Option CreditPolicyZone :=
  if daysOverdue < 0 then none
  else (zones.find? (·.has daysOverdue)).or zones.getLast?

structure NextZone where
  zone : CreditPolicyZone
  inDays : ℚ
  deriving DecidableEq

def nextCreditZone (daysOverdue : ℚ) (zones : List CreditPolicyZone) : Option NextZone :=
  (creditZoneForDays daysOverdue zones).bind fun z =>
    z.maxDays.bind fun hi =>
      zones[zones.idxOf z + 1]?.map fun next => ⟨next, toDouble (dayAfter hi - daysOverdue)⟩

def approachingNextZone (daysOverdue : ℚ) (zones : List CreditPolicyZone) : Bool :=
  (nextCreditZone daysOverdue zones).any fun n => decide (n.inDays ≤ (ESCALATION_WINDOW_DAYS : ℚ))

end SalesDashboard.CreditPolicy
