import SalesDashboard.Collections.Allocate

/-! The weekly receivables movement (`engine.py` of `ar_weekly`): balances on past days,
rebuilt from the open balance and the reconciliations since, and what happened to the
overdue ones in a week. Amounts are exact, and a day is its number. -/

namespace SalesDashboard.ArWeekly
open Collections (roundHalfEven)

/-! ## Balances on a past day -/

def EPS : ℚ := 5 / 1000

structure Line where
  lineId : Int
  moveId : Int
  kind : String
  date : Int
  due : Int
  residual : ℚ
  deriving DecidableEq

structure Partial where
  debitLine : Option Int
  creditLine : Option Int
  amtDebit : ℚ
  amtCredit : ℚ
  maxDate : Option Int
  creditClass : String
  deriving DecidableEq

/-- `max_date > d`, which a missing date is not. -/
def Partial.after (p : Partial) (d : Int) : Bool := p.maxDate.any fun day => decide (d < day)

/-- What the reconciliations after a day took from a debit line. -/
def addedDebit (partials : List Partial) (d lineId : Int) : ℚ :=
  ((partials.filter fun p => p.after d && decide (p.debitLine = some lineId)).map (·.amtDebit)).sum

def addedCredit (partials : List Partial) (d lineId : Int) : ℚ :=
  ((partials.filter fun p => p.after d && decide (p.creditLine = some lineId)).map (·.amtCredit)).sum

/-- `residual_at`, for one line. -/
def residualAt (partials : List Partial) (d : Int) (l : Line) : ℚ :=
  let res := roundHalfEven 2 (l.residual + addedDebit partials d l.lineId - addedCredit partials d l.lineId)
  let res := if l.date ≤ d then res else 0
  if |res| > EPS then res else 0

/-! ## A week -/

structure WeekResult where
  startDate : Int
  endDate : Int
  startOverdue : ℚ
  target : ℚ
  collectedOverdue : ℚ
  creditNotesOverdue : ℚ
  otherOverdue : ℚ
  collectedTotal : ℚ
  newOverdue : ℚ
  newOverdueDocs : Nat
  endOverdue : ℚ
  unexplained : ℚ

/-- Credit notes and other settlements on the starting overdue. -/
def WeekResult.adjustments (w : WeekResult) : ℚ :=
  roundHalfEven 2 (w.creditNotesOverdue + w.otherOverdue)

/-- What is left of the starting overdue at the end of the week. -/
def WeekResult.remaining (w : WeekResult) : ℚ :=
  roundHalfEven 2 (w.startOverdue - w.collectedOverdue - w.adjustments)

def invoices (lines : List Line) : List Line := lines.filter fun l => decide (l.kind = "invoice")

/-- Due before the day and open on it. -/
def overdueAt (partials : List Partial) (d : Int) (l : Line) : Bool :=
  decide (l.due < d) && decide (residualAt partials d l > EPS)

/-- The line ids of the starting overdue. -/
def startSet (lines : List Line) (partials : List Partial) (w0 : Int) : List Int :=
  ((invoices lines).filter (overdueAt partials w0)).map (·.lineId)

/-- The reconciliations of the window on the invoice lines. -/
def window (lines : List Line) (partials : List Partial) (w0 w1 : Int) : List Partial :=
  partials.filter fun p => p.after w0 && p.maxDate.any (fun day => decide (day ≤ w1)) &&
    p.debitLine.any fun id => decide (id ∈ (invoices lines).map (·.lineId))

def onOverdue (lines : List Line) (partials : List Partial) (w0 w1 : Int) : List Partial :=
  (window lines partials w0 w1).filter fun p =>
    p.debitLine.any fun id => decide (id ∈ startSet lines partials w0)

/-- The amounts of one class. -/
def ofClass (creditClass : String) (partials : List Partial) : ℚ :=
  ((partials.filter fun p => decide (p.creditClass = creditClass)).map (·.amtDebit)).sum

/-- Overdue at the end and not at the start. -/
def newlyOverdue (lines : List Line) (partials : List Partial) (w0 w1 : Int) : List Line :=
  (invoices lines).filter fun l =>
    overdueAt partials w1 l && !decide (l.lineId ∈ startSet lines partials w0)

def weekResult (lines : List Line) (partials : List Partial) (w0 w1 : Int) (targetPct : ℚ)
    (targetOverride : Option ℚ) : WeekResult :=
  let inv := invoices lines
  let start := ((inv.filter (overdueAt partials w0)).map (residualAt partials w0)).sum
  let stop := ((inv.filter (overdueAt partials w1)).map (residualAt partials w1)).sum
  let newly := newlyOverdue lines partials w0 w1
  let new := (newly.map (residualAt partials w1)).sum
  let onOd := onOverdue lines partials w0 w1
  let cash := ofClass "cash" onOd
  let cn := ofClass "credit_note" onOd
  let other := ofClass "other" onOd
  { startDate := w0
    endDate := w1
    startOverdue := roundHalfEven 2 start
    target := targetOverride.getD (roundHalfEven 2 (start * targetPct / 100))
    collectedOverdue := roundHalfEven 2 cash
    creditNotesOverdue := roundHalfEven 2 cn
    otherOverdue := roundHalfEven 2 other
    collectedTotal := roundHalfEven 2 (ofClass "cash" (window lines partials w0 w1))
    newOverdue := roundHalfEven 2 new
    newOverdueDocs := (newly.map (·.moveId)).dedup.length
    endOverdue := roundHalfEven 2 stop
    unexplained := roundHalfEven 2 (start - cash - cn - other + new - stop) }

end SalesDashboard.ArWeekly
