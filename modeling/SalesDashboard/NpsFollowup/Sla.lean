import SalesDashboard.Lib.Counts

/-! The follow-up SLA of a case and the ageing chart (`npsSla.ts`). A wall-clock time is
what `Date.parse` reads, in milliseconds. -/

namespace SalesDashboard.NpsFollowup

/-! ## The SLA state of a case -/

def NPS_SLA.contactHours : ℚ := 24

def NPS_SLA.closeDays : ℚ := 5

def HOURS_PER_DAY : ℚ := 24

def CLOSE_HOURS : ℚ := NPS_SLA.closeDays * HOURS_PER_DAY

inductive SlaBand
  | green | amber | red | grey
  deriving DecidableEq, Repr

inductive SlaRule
  | openWithinContact | openContacted | contactMissed | closeMissed
  | resolvedInSla | resolvedLate | rejected | historical
  deriving DecidableEq, Repr

structure CaseSla where
  band : SlaBand
  rule : SlaRule
  hours : Option ℚ
  exactHours : Option ℚ
  overByHours : Option ℚ
  contactedInSla : Option Bool
  deriving DecidableEq

structure SlaInput where
  stage : String
  createdAt : Option Int
  contactedAt : Option Int
  resolvedAt : Option Int
  deriving DecidableEq

def OPEN : List String := ["NEW", "CONTACTED", "IN_PROGRESS"]

def hoursBetween (start stop : Int) : ℚ := max 0 ((stop - start : ℤ) / 3600000)

def round1 (h : ℚ) : ℚ := ⌊h * 10 + 1 / 2⌋ / 10

def contactedInSla (c : SlaInput) : Option Bool :=
  match c.contactedAt, c.createdAt with
  | some contacted, some created => some (decide (hoursBetween created contacted ≤ NPS_SLA.contactHours))
  | _, _ => none

/-- No SLA. -/
def noSla (rule : SlaRule) (contacted : Option Bool) : CaseSla := ⟨.grey, rule, none, none, none, contacted⟩

/-- A case `hours` after it was created, and past a limit if one is given. -/
def timed (band : SlaBand) (rule : SlaRule) (hours : ℚ) (limit : Option ℚ) (contacted : Option Bool) :
    CaseSla :=
  ⟨band, rule, some (round1 hours), some hours, limit.map fun l => round1 (hours - l), contacted⟩

/-- A resolved case, by the time it took. -/
def resolvedSla (took : ℚ) (contacted : Option Bool) : CaseSla :=
  if took ≤ CLOSE_HOURS then timed .green .resolvedInSla took none contacted
  else timed .red .resolvedLate took (some CLOSE_HOURS) contacted

/-- An open case, by its age. -/
def openSla (age : ℚ) (contactedAt : Option Int) (contacted : Option Bool) : CaseSla :=
  if age > CLOSE_HOURS then timed .red .closeMissed age (some CLOSE_HOURS) contacted
  else if age > NPS_SLA.contactHours ∧ contactedAt = none then
    timed .red .contactMissed age (some NPS_SLA.contactHours) contacted
  else if age ≤ NPS_SLA.contactHours then timed .green .openWithinContact age none contacted
  else timed .amber .openContacted age none contacted

def caseSla (c : SlaInput) (now : Int) : CaseSla :=
  let contacted := contactedInSla c
  if c.stage = "REJECTED" then noSla .rejected contacted
  else
    match c.createdAt with
    | none => noSla .historical contacted
    | some created =>
      if c.stage = "HISTORICAL" then noSla .historical contacted
      else if c.stage = "RESOLVED" then
        match c.resolvedAt with
        | none => noSla .historical contacted
        | some resolved => resolvedSla (hoursBetween created resolved) contacted
      else if c.stage ∉ OPEN then noSla .historical contacted
      else openSla (hoursBetween created now) c.contactedAt contacted

/-! ## The ageing chart -/

inductive AgeingBucketKey
  | d1 | d2 | d5 | d10 | d30 | dmax
  deriving DecidableEq, Repr

structure AgeingBucket where
  key : AgeingBucketKey
  label : String
  maxHours : Option ℚ
  withinSla : Bool
  deriving DecidableEq

/-- Left of the Close SLA line. -/
def withinSla (maxHours : Option ℚ) : Bool := maxHours.any fun hours => decide (hours ≤ CLOSE_HOURS)

def ageingBucketOf (key : AgeingBucketKey) (label : String) (maxHours : Option ℚ) : AgeingBucket :=
  ⟨key, label, maxHours, withinSla maxHours⟩

def AGEING_BUCKETS : List AgeingBucket :=
  [ageingBucketOf .d1 "≤ 1 d" (some HOURS_PER_DAY),
    ageingBucketOf .d2 "1–2 d" (some (2 * HOURS_PER_DAY)),
    ageingBucketOf .d5 "2–5 d" (some CLOSE_HOURS),
    ageingBucketOf .d10 "5–10 d" (some (10 * HOURS_PER_DAY)),
    ageingBucketOf .d30 "10–30 d" (some (30 * HOURS_PER_DAY)),
    ageingBucketOf .dmax "> 30 d" none]

def ageingBucket (hours : ℚ) : AgeingBucketKey :=
  ((AGEING_BUCKETS.find? fun b => b.maxHours.all fun limit => decide (hours ≤ limit)).map (·.key)).getD .dmax

structure BucketCount where
  key : AgeingBucketKey
  label : String
  withinSla : Bool
  resolved : Nat
  unresolved : Nat
  deriving DecidableEq

/-- How many, of how many. -/
structure Share where
  count : Nat
  total : Nat
  deriving DecidableEq

structure ResolutionAgeing where
  buckets : List BucketCount
  closedInSla : Share
  contactedInSla : Share
  deriving DecidableEq

structure AgeingCase where
  stage : String
  sla : CaseSla
  contacted : Bool
  deriving DecidableEq

def Share.add (s : Share) (counts : Bool) : Share := ⟨if counts then s.count + 1 else s.count, s.total + 1⟩

/-- The bucket of the key counts one case more. -/
def countIn (key : AgeingBucketKey) (resolved : Bool) (buckets : List BucketCount) : List BucketCount :=
  buckets.map fun b =>
    if b.key = key then
      if resolved then { b with resolved := b.resolved + 1 } else { b with unresolved := b.unresolved + 1 }
    else b

def addCase (r : ResolutionAgeing) (c : AgeingCase) : ResolutionAgeing :=
  match c.sla.exactHours with
  | none => r
  | some hours =>
    if c.sla.band = .grey then r
    else
      let resolved := decide (c.stage = "RESOLVED")
      { buckets := countIn (ageingBucket hours) resolved r.buckets
        closedInSla :=
          if resolved then r.closedInSla.add (decide (c.sla.rule = .resolvedInSla)) else r.closedInSla
        contactedInSla :=
          if c.contacted || resolved || decide (hours > NPS_SLA.contactHours) then
            r.contactedInSla.add (decide (c.sla.contactedInSla = some true))
          else r.contactedInSla }

def resolutionAgeing (cases : List AgeingCase) : ResolutionAgeing :=
  cases.foldl addCase
    ⟨AGEING_BUCKETS.map fun b => ⟨b.key, b.label, b.withinSla, 0, 0⟩, ⟨0, 0⟩, ⟨0, 0⟩⟩

end SalesDashboard.NpsFollowup
