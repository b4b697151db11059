import SalesDashboard.Lib.Keyed
import Mathlib

/-! Collections: how a customer payment is split over the salespeople and branches of
the invoices it is matched to (`build_collections` of `collections.py`). Amounts are
exact. A many-to-one value of Odoo is its id, or none. -/

namespace SalesDashboard.Collections

/-! ## What the transform reads -/

structure Date where
  year : Nat
  month : Nat
  day : Nat
  deriving DecidableEq, Repr

def Date.lt (a b : Date) : Bool :=
  a.year < b.year || (a.year = b.year && (a.month < b.month || (a.month = b.month && a.day < b.day)))

structure Payment where
  id : Int
  name : Option String
  date : Option Date
  state : Option String
  partnerId : Option Int
  companyId : Option Int
  currencyId : Option Int
  amount : Option ℚ
  amountCompanyCurrencySigned : Option ℚ
  isInternalTransfer : Bool
  deriving DecidableEq

structure PayLine where
  id : Int
  paymentId : Option Int
  accountType : Option String
  deriving DecidableEq, Repr

/-- A row of `account.partial.reconcile`. -/
structure Partial where
  id : Int
  debitMoveId : Option Int
  creditMoveId : Option Int
  amount : Option ℚ
  debitAmountCurrency : Option ℚ
  creditAmountCurrency : Option ℚ
  maxDate : Option Date
  deriving DecidableEq

structure DebitLine where
  moveId : Option Int
  date : Option Date
  dateMaturity : Option Date
  deriving DecidableEq, Repr

structure DebitMove where
  name : Option String
  moveType : Option String
  invoiceUserId : Option Int
  teamId : Option Int
  invoiceDateDue : Option Date
  deriving DecidableEq, Repr

structure KeyMaps where
  partnerCustomer : Int → Option Int
  userSalesperson : Int → Option Int
  teamMap : Int → Option (String × Bool)
  salespersonTeam : Int → Option String
  companyKeys : List Int

structure CollectionInputs where
  currencyKeys : List Int
  customerSalesperson : Int → Option Int
  intercompanyCustomers : List Int

def UNKNOWN : Int := -1

def UNKNOWN_TEXT : String := "-1"

def EPS : ℚ := 5 / 1000

def INVOICE_MOVE_TYPES : List String := ["out_invoice", "out_receipt"]

/-- `_num`. -/
def num (v : Option ℚ) : ℚ := v.getD 0

/-- `round(q, d)`: halves go to the even digit. -/
def roundHalfEven (d : Nat) (q : ℚ) : ℚ :=
  let x := q * 10 ^ d
  let rest := x - ⌊x⌋
  let n := if rest < 1 / 2 then ⌊x⌋ else if 1 / 2 < rest then ⌊x⌋ + 1
    else if ⌊x⌋ % 2 = 0 then ⌊x⌋ else ⌊x⌋ + 1
  n / 10 ^ d

def dueDate (dateMaturity invoiceDateDue lineDate : Option Date) : Option Date :=
  (dateMaturity.or invoiceDateDue).or lineDate

def dateKey (d : Date) : Int := d.year * 10000 + d.month * 100 + d.day

/-! ## The matches of a payment -/

inductive Kind
  | overdue | not_due | other
  deriving DecidableEq, Repr

/-- A salesperson and a branch. -/
abbrev GroupKey := Int × String

structure PayMatch where
  partialId : Int
  debitLineId : Option Int
  moveId : Option Int
  document : Option String
  moveType : Option String
  kind : Kind
  dueDate : Option Date
  appliedDocCcy : ℚ
  appliedInvoiceCcy : Option ℚ
  reconciledOn : Option Date
  group : Option GroupKey
  deriving DecidableEq

/-- What the matched invoices of one salesperson and branch take of the payment. -/
structure Group where
  key : GroupKey
  overdue : ℚ
  not_due : ℚ
  deriving DecidableEq

/-- `lines_of`: the receivable lines of a payment. -/
def linesOf (payLines : List PayLine) (paymentId : Int) : List Int :=
  (payLines.filter fun ln =>
    ln.accountType = some "asset_receivable" ∧ ln.paymentId = some paymentId).map (·.id)

/-- `partials_of_line`. -/
def partialsOfLine (partials : List Partial) (lineId : Int) : List Partial :=
  partials.filter (·.creditMoveId = some lineId)

/-- The partials of the receivable lines of a payment, in the order of the loop. -/
def partialsOf (payLines : List PayLine) (partials : List Partial) (paymentId : Int) :
    List Partial :=
  (linesOf payLines paymentId).flatMap (partialsOfLine partials)

/-- What a partial applies of the payment, in its currency. -/
def applied (p : Partial) : ℚ :=
  if num p.creditAmountCurrency ≠ 0 then num p.creditAmountCurrency else num p.amount

/-- The branch of an invoice: `teams` without the person's fallback, then
`own_team_keys`. -/
def invoiceTeam (maps : KeyMaps) (teamId : Option Int) : String :=
  match teamId with
  | none => UNKNOWN_TEXT
  | some tid =>
      match maps.teamMap tid with
      | none => UNKNOWN_TEXT
      | some (team, followsSalesperson) =>
          if followsSalesperson then "ODOO-TEAM-" ++ toString tid else team

def invoiceSalesperson (maps : KeyMaps) (userId : Option Int) : Int :=
  match userId with
  | none => UNKNOWN
  | some uid => (maps.userSalesperson uid).getD UNKNOWN

structure Lookup where
  debitLines : Int → Option DebitLine
  debitMoves : Int → Option DebitMove

def Lookup.line (look : Lookup) (p : Partial) : DebitLine :=
  (p.debitMoveId.bind look.debitLines).getD ⟨none, none, none⟩

def Lookup.move (look : Lookup) (p : Partial) : DebitMove :=
  ((look.line p).moveId.bind look.debitMoves).getD ⟨none, none, none, none, none⟩

/-- A customer invoice or receipt. -/
def DebitMove.isInvoice (mv : DebitMove) : Bool :=
  mv.moveType.any (· ∈ INVOICE_MOVE_TYPES)

/-- One turn of the loop over the partials. -/
def payMatch (maps : KeyMaps) (look : Lookup) (payDate : Date) (p : Partial) : PayMatch :=
  let dl := look.line p
  let mv := look.move p
  let due := dueDate dl.dateMaturity mv.invoiceDateDue dl.date
  { partialId := p.id
    debitLineId := p.debitMoveId
    moveId := dl.moveId
    document := mv.name
    moveType := mv.moveType
    kind := if mv.isInvoice then (if due.any (·.lt payDate) then .overdue else .not_due) else .other
    dueDate := due
    appliedDocCcy := applied p
    appliedInvoiceCcy := if num p.debitAmountCurrency = 0 then none else some (num p.debitAmountCurrency)
    reconciledOn := p.maxDate
    group := if mv.isInvoice then
        some (invoiceSalesperson maps mv.invoiceUserId, invoiceTeam maps mv.teamId)
      else none }

def Group.add (kind : Kind) (amount : ℚ) (g : Group) : Group :=
  match kind with
  | .overdue => { g with overdue := g.overdue + amount }
  | .not_due => { g with not_due := g.not_due + amount }
  | .other => g

/-- `groups.setdefault(key, …)[kind] += applied`. -/
def addToGroup (groups : List Group) (key : GroupKey) (kind : Kind) (amount : ℚ) : List Group :=
  Keyed.upsert Group.key key (Group.add kind amount) (Group.add kind amount ⟨key, 0, 0⟩) groups

/-- The accumulators of the loop over the partials of a payment. -/
structure Matched where
  groups : List Group
  other : ℚ
  payMatches : List PayMatch

def Matched.take (acc : Matched) (m : PayMatch) : Matched :=
  match m.group with
  | some key => ⟨addToGroup acc.groups key m.kind m.appliedDocCcy, acc.other, acc.payMatches ++ [m]⟩
  | none => ⟨acc.groups, acc.other + m.appliedDocCcy, acc.payMatches ++ [m]⟩

def matchPartials (maps : KeyMaps) (look : Lookup) (payDate : Date) (ps : List Partial) : Matched :=
  ps.foldl (fun acc p => acc.take (payMatch maps look payDate p)) ⟨[], 0, []⟩

/-- The Odoo users and teams of the matched invoices that the maps do not know. -/
def fellUsers (maps : KeyMaps) (look : Lookup) (ps : List Partial) : List Int :=
  ps.filterMap fun p =>
    if (look.move p).isInvoice then
      (look.move p).invoiceUserId.filter fun uid => (maps.userSalesperson uid).getD UNKNOWN = UNKNOWN
    else none

def fellTeams (maps : KeyMaps) (look : Lookup) (ps : List Partial) : List Int :=
  ps.filterMap fun p =>
    if (look.move p).isInvoice then
      (look.move p).teamId.filter fun tid => (maps.teamMap tid).isNone
    else none

/-! ## The allocations -/

def Group.total (g : Group) : ℚ := g.overdue + g.not_due

def Group.scale (s : ℚ) (g : Group) : Group :=
  { g with overdue := g.overdue * s, not_due := g.not_due * s }

/-- What is applied, never more than the payment. -/
structure Split where
  groups : List Group
  other : ℚ
  appliedTotal : ℚ
  scale : ℚ
  scaled : Bool

def appliedTotal (groups : List Group) (other : ℚ) : ℚ := other + (groups.map Group.total).sum

/-- Partials that exceed the payment are scaled down to it; a total of zero cannot be
divided by. -/
def splitTo (amount : ℚ) (m : Matched) : Option Split :=
  let total := appliedTotal m.groups m.other
  if amount + EPS < total then
    if total = 0 then none
    else some ⟨m.groups.map (Group.scale (amount / total)), m.other * (amount / total), amount,
      amount / total, true⟩
  else some ⟨m.groups, m.other, total, 1, false⟩

inductive Attribution
  | invoice | customer | none
  deriving DecidableEq, Repr

structure Allocation where
  salespersonKey : Int
  salesTeamKey : String
  attribution : Attribution
  appliedOverdue : ℚ
  appliedNotDue : ℚ
  appliedOther : ℚ
  unapplied : ℚ
  group : Option GroupKey
  deriving DecidableEq

/-- The sort key `(-(overdue + not_due), salesperson, team)`. -/
def groupLe (a b : Group) : Prop :=
  b.total < a.total ∨ (b.total = a.total ∧
    (a.key.1 < b.key.1 ∨ (a.key.1 = b.key.1 ∧ a.key.2 ≤ b.key.2)))

instance : DecidableRel groupLe := fun a b => by
  unfold groupLe
  infer_instance

def invoiceAllocation (g : Group) : Allocation :=
  ⟨g.key.1, g.key.2, .invoice, g.overdue, g.not_due, 0, 0, some g.key⟩

/-- The row of the customer's salesperson of record. -/
def customerAllocation (maps : KeyMaps) (inputs : CollectionInputs) (customer : Int)
    (other unapplied : ℚ) : Allocation :=
  let sp := (inputs.customerSalesperson customer).getD UNKNOWN
  ⟨sp, if sp ≠ UNKNOWN then (maps.salespersonTeam sp).getD UNKNOWN_TEXT else UNKNOWN_TEXT,
    if sp ≠ UNKNOWN then .customer else .none, 0, 0, other, unapplied, none⟩

def Allocation.part (a : Allocation) : ℚ :=
  a.appliedOverdue + a.appliedNotDue + a.appliedOther + a.unapplied

/-- `allocations[-1]["unapplied_doc_ccy"] += residue`. -/
def addResidue (residue : ℚ) : List Allocation → List Allocation
  | [] => []
  | [a] => [{ a with unapplied := a.unapplied + residue }]
  | a :: b :: rest => a :: addResidue residue (b :: rest)

def allocate (maps : KeyMaps) (inputs : CollectionInputs) (customer : Int) (amount : ℚ)
    (s : Split) : List Allocation :=
  let unapplied := amount - s.appliedTotal
  let invoices := (s.groups.insertionSort groupLe).map invoiceAllocation
  let allocations :=
    if EPS < |s.other| ∨ EPS < |unapplied| ∨ invoices = [] then
      invoices ++ [customerAllocation maps inputs customer s.other unapplied]
    else invoices
  let residue := amount - (allocations.map Allocation.part).sum
  if residue ≠ 0 then addResidue residue allocations else allocations

/-! ## The rows -/

/-- A row of `fact_finance_collection`. -/
structure FactRow where
  paymentId : Int
  allocationNo : Nat
  paymentName : Option String
  paymentDateKey : Int
  paymentDate : Date
  companyKey : Int
  customerKey : Int
  currencyKey : Int
  salespersonKey : Int
  salesTeamKey : String
  attribution : Attribution
  share : ℚ
  amountDocCcy : ℚ
  amountCompanyCcy : ℚ
  appliedOverdue : ℚ
  appliedNotDue : ℚ
  appliedOther : ℚ
  unapplied : ℚ
  isIntercompany : Bool
  deriving DecidableEq

/-- A row of `fact_finance_collection_invoice`. -/
structure MatchRow where
  partialId : Int
  paymentId : Int
  allocationNo : Nat
  debitLineId : Option Int
  moveId : Option Int
  document : Option String
  moveType : Option String
  kind : Kind
  dueDate : Option Date
  appliedDocCcy : ℚ
  appliedInvoiceCcy : Option ℚ
  reconciledOn : Option Date
  deriving DecidableEq

def customerOf (maps : KeyMaps) (pay : Payment) : Int :=
  match pay.partnerId with
  | none => UNKNOWN
  | some partner => (maps.partnerCustomer partner).getD UNKNOWN

/-- A key that has its dimension row, or unknown. -/
def keyIn (keys : List Int) (id : Option Int) : Int :=
  match id with
  | none => UNKNOWN
  | some k => if k ∈ keys then k else UNKNOWN

def factRow (maps : KeyMaps) (inputs : CollectionInputs) (pay : Payment) (amount : ℚ)
    (payDate : Date) (a : Allocation) (n : Nat) : FactRow :=
  let share := a.part / amount
  { paymentId := pay.id
    allocationNo := n
    paymentName := pay.name
    paymentDateKey := dateKey payDate
    paymentDate := payDate
    companyKey := keyIn maps.companyKeys pay.companyId
    customerKey := customerOf maps pay
    currencyKey := keyIn inputs.currencyKeys pay.currencyId
    salespersonKey := a.salespersonKey
    salesTeamKey := a.salesTeamKey
    attribution := a.attribution
    share := roundHalfEven 10 share
    amountDocCcy := a.part
    amountCompanyCcy := num pay.amountCompanyCurrencySigned * share
    appliedOverdue := a.appliedOverdue
    appliedNotDue := a.appliedNotDue
    appliedOther := a.appliedOther
    unapplied := a.unapplied
    isIntercompany := customerOf maps pay ∈ inputs.intercompanyCustomers }

/-- `no_of_group`: the number of the allocation of a group. -/
def noOfGroup (allocations : List Allocation) (group : Option GroupKey) : Option Nat :=
  ((allocations.zipIdx 1).reverse.find? fun a => a.1.group = group).map (·.2)

def matchRow (pay : Payment) (allocations : List Allocation) (scale : ℚ) (m : PayMatch) : MatchRow :=
  { partialId := m.partialId
    paymentId := pay.id
    allocationNo := (noOfGroup allocations m.group).getD ((noOfGroup allocations none).getD 1)
    debitLineId := m.debitLineId
    moveId := m.moveId
    document := m.document
    moveType := m.moveType
    kind := m.kind
    dueDate := m.dueDate
    appliedDocCcy := m.appliedDocCcy * scale
    appliedInvoiceCcy := m.appliedInvoiceCcy
    reconciledOn := m.reconciledOn }

/-! ## The transform -/

/-- The keys of `stats["skipped"]`. -/
inductive Skip
  | not_posted | internal_transfer | zero_amount | no_date | applied_scaled_to_amount
  deriving DecidableEq, Repr

/-- The guards of the loop over the payments. -/
def collectable (pay : Payment) : Except Skip Date :=
  if pay.state ≠ some "posted" then .error .not_posted
  else if pay.isInternalTransfer then .error .internal_transfer
  else if |num pay.amount| < EPS then .error .zero_amount
  else match pay.date with
    | none => .error .no_date
    | some payDate => .ok payDate

/-- What the loop adds for one payment. -/
structure Part where
  rows : List FactRow
  matchRows : List MatchRow
  skipped : Option Skip
  fellCust : List Int
  fellUser : List Int
  fellTeam : List Int
  fellCcy : List Int

structure Source where
  payLines : List PayLine
  partials : List Partial
  look : Lookup
  maps : KeyMaps
  inputs : CollectionInputs

def collect (src : Source) (pay : Payment) : Option Part :=
  match collectable pay with
  | .error skip => some ⟨[], [], some skip, [], [], [], []⟩
  | .ok payDate =>
      let amount := num pay.amount
      let ps := partialsOf src.payLines src.partials pay.id
      let matched := matchPartials src.maps src.look payDate ps
      match splitTo amount matched with
      | none => none
      | some split =>
          let allocations := allocate src.maps src.inputs (customerOf src.maps pay) amount split
          some {
            rows := (allocations.zipIdx 1).map fun a =>
              factRow src.maps src.inputs pay amount payDate a.1 a.2
            matchRows := matched.payMatches.map (matchRow pay allocations split.scale)
            skipped := if split.scaled then some .applied_scaled_to_amount else none
            fellCust := (pay.partnerId.filter fun p => (src.maps.partnerCustomer p).getD UNKNOWN = UNKNOWN).toList
            fellUser := fellUsers src.maps src.look ps
            fellTeam := fellTeams src.maps src.look ps
            fellCcy := (pay.currencyId.filter fun c => keyIn src.inputs.currencyKeys (some c) = UNKNOWN).toList }

structure Stats where
  payments : Nat
  factRows : Nat
  matchRows : Nat
  skipped : List (Skip × Nat)
  collectedByCurrency : List (Int × ℚ)

structure CollectionBuild where
  fact : List FactRow
  matchRows : List MatchRow
  fallbacks : List (String × List Int)
  stats : Stats

/-- `stats["collected_by_currency"]`. -/
def collectedByCurrency (rows : List FactRow) : List (Int × ℚ) :=
  ((rows.map (·.currencyKey)).dedup.insertionSort (· ≤ ·)).map fun k =>
    (k, roundHalfEven 2 ((rows.filter (·.currencyKey = k)).map (·.amountDocCcy)).sum)

def skippedCounts (parts : List Part) : List (Skip × Nat) :=
  let skips := parts.filterMap (·.skipped)
  skips.dedup.map fun s => (s, skips.count s)

/-- `build_collections`; a division by zero fails the whole build. -/
def buildCollections (src : Source) (payments : List Payment) : Option CollectionBuild :=
  (payments.mapM (collect src)).map fun parts =>
    let fact := parts.flatMap (·.rows)
    let matchRows := parts.flatMap (·.matchRows)
    { fact := fact
      matchRows := matchRows
      fallbacks :=
        [("fact_finance_collection.CustomerKey (partner id)", parts.flatMap (·.fellCust)),
          ("fact_finance_collection.SalespersonKey (Odoo user not in OdooUsers)",
            parts.flatMap (·.fellUser)),
          ("fact_finance_collection.SalesTeamKey (Odoo team id not in OdooTeams)",
            parts.flatMap (·.fellTeam)),
          ("fact_finance_collection.CurrencyKey (Odoo currency not in dim_currency)",
            parts.flatMap (·.fellCcy))].filter (·.2 ≠ [])
      stats := ⟨payments.length, fact.length, matchRows.length, skippedCounts parts,
        collectedByCurrency fact⟩ }

end SalesDashboard.Collections
