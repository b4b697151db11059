import SalesDashboard.Conformed.KeyMaps
import SalesDashboard.Lib.Firsts
import SalesDashboard.Lib.Doubles
import SalesDashboard.NpsRatings.CommentText
import Mathlib

/-! Raw NPS rows to responses and comments (`transform.py`). -/

namespace SalesDashboard.NpsRatings
open Conformed Python Firsts Doubles

/-! ## Rows -/

structure RawRow where
  id : Int
  companyName : Option String
  orderId : Option String
  deliveryCode : Option String
  partnerId : SourceId
  salespersonId : SourceId
  teamId : SourceId
  /-- Microseconds, in UTC. -/
  createDate : Option Int
  scheduledDate : Option Int
  body : Option String

structure LowRow where
  id : Int
  teamBranch : Option String

structure LocalTime where
  year : Nat
  month : Nat
  day : Nat
  microsecond : Nat
  deriving DecidableEq

/-- What the business time zone makes of a time in UTC. -/
abbrev Zone := Int → LocalTime

def dateKey (d : Option LocalTime) : Int := d.elim (-1) fun d => d.year * 10000 + d.month * 100 + d.day

/-- An order or a picking of a name. -/
structure Candidate where
  key : Int
  company : Int
  customer : Int
  deriving DecidableEq

/-- The documents by their names; a name that is not there has none. -/
structure Lookups where
  orders : String → List Candidate
  deliveries : String → List Candidate

inductive CompanySource
  | order | delivery | companyName | none
  deriving DecidableEq, Repr

structure Keys where
  companyKey : Int
  customerKey : Int
  salespersonKey : Int
  salesTeamKey : String
  segmentKey : Int
  channelKey : Int
  deriving DecidableEq

structure Response extends Keys where
  responseId : Int
  deliveryCode : Option String
  orderRef : Option String
  ratedAtUtc : Option Int
  ratedAtLocal : Option LocalTime
  ratingDateKey : Int
  deliveryDateKey : Int
  companySource : CompanySource
  salesOrderKey : Int
  pickingId : Int
  npsLevel : Nat
  isLowRating : Bool
  inLowRatingTable : Bool
  teamBranch : Option String
  hasComment : Bool
  deriving DecidableEq

structure Comment extends Keys where
  commentId : Int
  responseId : Int
  deliveryCode : Option String
  commentedAtUtc : Option Int
  commentedAtLocal : Option LocalTime
  commentDateKey : Int
  commentText : String
  deriving DecidableEq

/-! ## Documents -/

def COMPANY_BY_SOURCE_NAME (name : String) : Option Int :=
  if name = "MAJAAL" then some 1 else if name = "TIKA" then some 3 else none

def sourceCompany (name : Option String) (companyKeys : Int → Bool) : Int :=
  ((name.bind fun name => COMPANY_BY_SOURCE_NAME (upper (strip name))).filter companyKeys).getD UNKNOWN

/-- The candidates of a key, or all if there is none. -/
def narrow (p : Candidate → Bool) (found : List Candidate) : List Candidate :=
  if found.filter p = [] then found else found.filter p

def pick (candidates : List Candidate) (customerKey companyHint : Int) : Option Candidate :=
  let found := firsts candidates
  let found := if 1 < found.length ∧ customerKey ≠ UNKNOWN then narrow (·.customer = customerKey) found else found
  let found := if 1 < found.length ∧ companyHint ≠ UNKNOWN then narrow (·.company = companyHint) found else found
  if found.length = 1 then found.head? else none

/-- The pickings of a company and a customer. -/
def pickings (candidates : List Candidate) (company customer : Int) : List Int :=
  firsts ((candidates.filter fun c => c.company = company ∧ c.customer = customer ∧ 0 < c.key).map (·.key))

def pickDelivery (candidates : List Candidate) (customerKey companyHint : Int) : Option Candidate × Int :=
  match pick (candidates.map fun c => { c with key := 0 }) customerKey companyHint with
  | none => (none, UNKNOWN)
  | some found =>
      let ids := pickings candidates found.company found.customer
      (some found, if ids.length = 1 then ids.headD UNKNOWN else UNKNOWN)

/-- `_text` -/
def textOf (v : Option String) : String := (v.map strip).getD ""

/-- A text, or `None` for an empty one. -/
def orNone (s : String) : Option String := if s = "" then none else some s

/-! ## Building -/

section
variable (lib : Stdlib) (m : KeyMaps) (lookups : Lookups) (zone : Zone)

def RawRow.hint (r : RawRow) : Int := sourceCompany r.companyName m.companyKeys

def RawRow.orderRef (r : RawRow) : String := textOf r.orderId

def RawRow.code (r : RawRow) : String := textOf r.deliveryCode

def RawRow.customer (r : RawRow) : Int := m.customerKey r.partnerId

def RawRow.person (r : RawRow) : Int := m.salespersonKey r.salespersonId

def RawRow.team (r : RawRow) : String := m.teamKey true r.teamId (r.person m)

def RawRow.order (r : RawRow) : Option Candidate :=
  if r.orderRef = "" then none else pick (lookups.orders r.orderRef) (r.customer m) (r.hint m)

def RawRow.delivery (r : RawRow) : Option Candidate × Int :=
  if r.code = "" then (none, UNKNOWN) else pickDelivery (lookups.deliveries r.code) (r.customer m) (r.hint m)

/-- A matched document whose company is unknown does not decide. -/
def companyOf (order delivery : Option Candidate) (hint : Int) : Int × CompanySource :=
  match order.filter (·.company ≠ UNKNOWN), delivery.filter (·.company ≠ UNKNOWN) with
  | some o, _ => (o.company, .order)
  | none, some d => (d.company, .delivery)
  | none, none => if hint ≠ UNKNOWN then (hint, .companyName) else (UNKNOWN, .none)

def RawRow.company (r : RawRow) : Int × CompanySource :=
  companyOf (r.order m lookups) (r.delivery m lookups).1 (r.hint m)

def RawRow.keys (r : RawRow) : Keys where
  companyKey := (r.company m lookups).1
  customerKey := r.customer m
  salespersonKey := r.person m
  salesTeamKey := r.team m
  segmentKey := m.segmentKey (r.team m)
  channelKey := m.channelKey (r.person m)

/-- `low_branch`: the last row of an id counts. -/
def lowBranch (low : List LowRow) (id : Int) : Option LowRow := low.reverse.find? (·.id = id)

/-- A response before its comments are known. -/
def RawRow.response (low : List LowRow) (r : RawRow) (level : Nat) : Response where
  toKeys := r.keys m lookups
  responseId := r.id
  deliveryCode := orNone r.code
  orderRef := orNone r.orderRef
  ratedAtUtc := r.createDate
  ratedAtLocal := r.createDate.map zone
  ratingDateKey := dateKey (r.createDate.map zone)
  deliveryDateKey := dateKey (r.scheduledDate.map zone)
  companySource := (r.company m lookups).2
  salesOrderKey := ((r.order m lookups).map (·.key)).getD UNKNOWN
  pickingId := (r.delivery m lookups).2
  npsLevel := level
  isLowRating := level = LOW_RATING_LEVEL
  inLowRatingTable := (lowBranch low r.id).isSome
  teamBranch := (lowBranch low r.id).bind fun l => orNone (textOf l.teamBranch)
  hasComment := false

/-- A comment before it is linked. -/
def RawRow.comment (r : RawRow) : Comment where
  toKeys := r.keys m lookups
  commentId := r.id
  responseId := UNKNOWN
  deliveryCode := orNone r.code
  commentedAtUtc := r.createDate
  commentedAtLocal := r.createDate.map zone
  commentDateKey := dateKey (r.createDate.map zone)
  commentText := NpsRatings.commentText lib r.body

/-- `ratings_by_delivery`: the times and ids of the ratings of a delivery. -/
def ratingsOf (responses : List Response) (code : String) : List (Int × Int) :=
  responses.filterMap fun r => if r.deliveryCode = some code then r.ratedAtUtc.map (·, r.responseId) else none

/-- The order of times and ids as tuples. -/
def ratingLe (a b : Int × Int) : Prop := a.1 < b.1 ∨ (a.1 = b.1 ∧ a.2 ≤ b.2)

instance : DecidableRel ratingLe := fun a b => inferInstanceAs (Decidable (a.1 < b.1 ∨ (a.1 = b.1 ∧ a.2 ≤ b.2)))

/-- The rating of a comment: the latest at or before it, else the first after it. -/
def linkTo (found : List (Int × Int)) (commentedAt : Option Int) : Int :=
  match found, commentedAt with
  | first :: _, some at' => (((found.filter fun x => x.1 ≤ at').getLast?).getD first).2
  | _, _ => UNKNOWN

def Comment.linked (responses : List Response) (c : Comment) : Comment :=
  { c with responseId :=
      linkTo ((ratingsOf responses (c.deliveryCode.getD "")).insertionSort ratingLe) c.commentedAtUtc }

def Response.withComments (comments : List Comment) (r : Response) : Response :=
  { r with hasComment := comments.any fun c => c.responseId ≠ UNKNOWN ∧ c.responseId = r.responseId }

/-- `nps_style`: the share of the exceeded less that of the below in doubles, to one decimal. -/
def npsStyle (exceeded met below : Nat) : Option ℚ :=
  let total := exceeded + met + below
  if total = 0 then none
  else
    let share := toDouble (toDouble (100 * ((exceeded : ℚ) - below)) / total)
    some (toDouble (roundHalfEven (share * 10) / 10))

structure Stats where
  sourceRows : Nat
  ratings : Nat
  comments : Nat
  blank : Nat
  byLevel : List (Nat × Nat)
  npsStyle : Option ℚ
  companySource : List (CompanySource × Nat)
  commentsWithoutRating : Nat
  lowRatingIdsNotInFull : List Int
  lowRatingsNotInLowTable : List Int
  deliveriesRatedMoreThanOnce : List (String × Nat)
  deliveriesRatedMoreThanOnceCount : Nat
  ordersNotFound : Nat
  ordersAmbiguous : Nat

structure Fallbacks where
  customerKey : List Int
  salespersonKey : List Int
  salesTeamKey : List Int
  companyKey : List Int
  orderNotFound : List Int
  orderAmbiguous : List Int

structure Built where
  responses : List Response
  comments : List Comment
  fallbacks : Fallbacks
  stats : Stats

/-- An order name without a match; whether it has candidates. -/
def RawRow.unmatchedOrder (r : RawRow) (hasCandidates : Bool) : Bool :=
  r.orderRef ≠ "" ∧ (r.order m lookups).isNone ∧ (lookups.orders r.orderRef ≠ [] ↔ hasCandidates = true)

def build (full : List RawRow) (low : List LowRow) : Built :=
  let rows := full.insertionSort fun a b => a.id ≤ b.id
  let responses := rows.filterMap fun r => (classify r.body).map (r.response m lookups zone low)
  let comments := (rows.filter fun r => bodyKind lib r.body = .comment).map (RawRow.comment lib m lookups zone)
  let comments := comments.map (Comment.linked responses)
  let responses := responses.map (Response.withComments comments)
  let rated := fun id => responses.any fun r => r.responseId = id
  let levelCount := fun level => responses.countP fun r => r.npsLevel = level
  let ids := fun (p : RawRow → Bool) => (rows.filter p).map (·.id)
  let codes := firsts (responses.filterMap fun r => if r.ratedAtUtc.isSome then r.deliveryCode else none)
  let multi := (codes.map fun code => (code, (ratingsOf responses code).length)).filter fun x => 1 < x.2
  { responses, comments
    fallbacks := {
      customerKey := (m.customers (rows.map (·.partnerId))).2
      salespersonKey := (m.salespeople (rows.map (·.salespersonId))).2
      salesTeamKey := (m.teams true (rows.map (·.teamId)) (rows.map (RawRow.person m))).2
      companyKey := (ids fun r => (r.company m lookups).2 = .none).filter rated
      orderNotFound := (ids fun r => r.unmatchedOrder m lookups false).filter rated
      orderAmbiguous := (ids fun r => r.unmatchedOrder m lookups true).filter rated }
    stats := {
      sourceRows := rows.length
      ratings := responses.length
      comments := comments.length
      blank := rows.countP fun r => bodyKind lib r.body = .blank
      byLevel := LEVELS.map fun l => (l.level, levelCount l.level)
      npsStyle := npsStyle (levelCount 3) (levelCount 2) (levelCount 1)
      companySource := (firsts (rows.map fun r => (r.company m lookups).2)).map fun s =>
        (s, rows.countP fun r => (r.company m lookups).2 = s)
      commentsWithoutRating := comments.countP fun c => c.responseId = UNKNOWN
      lowRatingIdsNotInFull := (((firsts (low.map (·.id))).filter fun id => ! rows.any fun r => r.id = id).insertionSort
        (· ≤ ·)).take 50
      lowRatingsNotInLowTable := (((responses.filter fun r => r.isLowRating && ! r.inLowRatingTable).map
        (·.responseId)).insertionSort (· ≤ ·)).take 50
      deliveriesRatedMoreThanOnce := multi.take 20
      deliveriesRatedMoreThanOnceCount := multi.length
      ordersNotFound := rows.countP fun r => r.unmatchedOrder m lookups false
      ordersAmbiguous := rows.countP fun r => r.unmatchedOrder m lookups true } }

end

end SalesDashboard.NpsRatings
