import SalesDashboard.Lib.Loops
import SalesDashboard.Receivables.Report
import Mathlib

/-! What the endpoints of the Receivables page add up: each of their figures is a sum over
the lines of a view, which is one currency, or all of them in the company's. -/

namespace SalesDashboard.Receivables
open DataScope Grouping Keyed Loops

/-! ## The figures of some lines -/

instance : Zero Amounts := ⟨⟨0, 0, 0, 0, 0, 0⟩⟩

instance : Add Amounts := ⟨fun a b => ⟨a.open_ + b.open_, a.overdue + b.overdue,
  a.notDue + b.notDue, a.credits + b.credits, a.otherEntries + b.otherEntries, a.net + b.net⟩⟩

theorem Amounts.zero_def : (0 : Amounts) = ⟨0, 0, 0, 0, 0, 0⟩ := rfl

theorem Amounts.add_def (a b : Amounts) : a + b = ⟨a.open_ + b.open_, a.overdue + b.overdue,
  a.notDue + b.notDue, a.credits + b.credits, a.otherEntries + b.otherEntries, a.net + b.net⟩ := rfl

instance : AddCommMonoid Amounts where
  add_assoc a b c := by simp [Amounts.add_def, add_assoc]
  zero_add a := by simp [Amounts.add_def, Amounts.zero_def]
  add_zero a := by simp [Amounts.add_def, Amounts.zero_def]
  add_comm a b := by simp [Amounts.add_def, add_comm]
  nsmul := nsmulRec

/-- What a line is in the figures. -/
def contribution (company : Bool) (l : ReceivableLine) : Amounts := (0 : Amounts).add company l

theorem Amounts.add_eq (company : Bool) (l : ReceivableLine) (a : Amounts) :
    a.add company l = a + contribution company l := by
  unfold contribution Amounts.add
  dsimp only
  split
  · simp [Amounts.add_def, Amounts.zero_def]
  · split <;> simp [Amounts.add_def, Amounts.zero_def]

/-- **The figures** of some lines. -/
def figures (company : Bool) (lines : List ReceivableLine) : Amounts :=
  (lines.map (contribution company)).sum

def kindSum (company : Bool) (kind : DebtLineKind) (lines : List ReceivableLine) : ℚ :=
  ((lines.filter fun l => decide (lineKind l = kind)).map (amountOf company)).sum

def overdueSum (company : Bool) (lines : List ReceivableLine) : ℚ :=
  ((lines.filter isInvoice).map (overdueAmountOf company)).sum

theorem figures_cons (company : Bool) (l : ReceivableLine) (ls : List ReceivableLine) :
    figures company (l :: ls) = contribution company l + figures company ls := by
  simp [figures]

theorem kindSum_cons (company : Bool) (kind : DebtLineKind) (l : ReceivableLine)
    (ls : List ReceivableLine) : kindSum company kind (l :: ls) =
      (if lineKind l = kind then amountOf company l else 0) + kindSum company kind ls := by
  unfold kindSum
  by_cases h : lineKind l = kind
  · simp [h]
  · simp [h]

theorem overdueSum_cons (company : Bool) (l : ReceivableLine) (ls : List ReceivableLine) :
    overdueSum company (l :: ls) =
      (if lineKind l = .invoice then overdueAmountOf company l else 0) + overdueSum company ls := by
  unfold overdueSum isInvoice
  by_cases h : lineKind l = .invoice
  · simp [h]
  · simp [h]

theorem lineKind_cases (l : ReceivableLine) : lineKind l = .invoice ∨ lineKind l = .credit_note ∨
    lineKind l = .payment ∨ lineKind l = .other ∨ lineKind l = .intercompany := by
  cases lineKind l <;> simp

/-- A line is in the figures under its kind, and in the net. -/
theorem contribution_eq (company : Bool) (l : ReceivableLine) :
    contribution company l =
      { open_ := if lineKind l = .invoice then amountOf company l else 0
        overdue := if lineKind l = .invoice then overdueAmountOf company l else 0
        notDue := if lineKind l = .invoice then amountOf company l - overdueAmountOf company l else 0
        credits := (if lineKind l = .credit_note then amountOf company l else 0) +
          (if lineKind l = .payment then amountOf company l else 0)
        otherEntries := (if lineKind l = .other then amountOf company l else 0) +
          (if lineKind l = .intercompany then amountOf company l else 0)
        net := amountOf company l } := by
  unfold contribution Amounts.add CREDIT_KINDS
  rcases lineKind_cases l with h | h | h | h | h <;> simp [h, Amounts.zero_def]

theorem figures_eq (company : Bool) (lines : List ReceivableLine) : figures company lines =
    { open_ := kindSum company .invoice lines
      overdue := overdueSum company lines
      notDue := kindSum company .invoice lines - overdueSum company lines
      credits := kindSum company .credit_note lines + kindSum company .payment lines
      otherEntries := kindSum company .other lines + kindSum company .intercompany lines
      net := (lines.map (amountOf company)).sum } := by
  induction lines with
  | nil => simp [figures, kindSum, overdueSum, Amounts.zero_def]
  | cons l ls ih =>
    rw [figures_cons, contribution_eq, ih, Amounts.add_def]
    simp only [kindSum_cons, overdueSum_cons, List.map_cons, List.sum_cons, Amounts.mk.injEq, true_and,
      and_true]
    refine ⟨?_, ?_, ?_⟩
    · split <;> ring
    · ring
    · ring

/-- Every line is an invoice, a credit or another entry, and an invoice is overdue or not. -/
theorem net_eq (company : Bool) (lines : List ReceivableLine) :
    (lines.map (amountOf company)).sum = kindSum company .invoice lines +
      (kindSum company .credit_note lines + kindSum company .payment lines) +
      (kindSum company .other lines + kindSum company .intercompany lines) := by
  induction lines with
  | nil => simp [kindSum]
  | cons l ls ih =>
    simp only [kindSum_cons, List.map_cons, List.sum_cons, ih]
    rcases lineKind_cases l with h | h | h | h | h <;> simp [h] <;> ring

/-! ## The accumulator of a view -/

/-- The accumulator of a kind. -/
def CurrencyAcc.kind (c : CurrencyAcc) : DebtLineKind → KindAcc
  | .invoice => c.invoices
  | .credit_note => c.creditNote
  | .payment => c.payment
  | .other => c.other
  | .intercompany => c.intercompany

theorem addLine_company (c : CurrencyAcc) (l : ReceivableLine) : (addLine c l).company = c.company := by
  unfold addLine
  dsimp only
  split <;> rfl

theorem addLine_kind (c : CurrencyAcc) (l : ReceivableLine) (kind : DebtLineKind) :
    (addLine c l).kind kind =
      if decide (lineKind l = kind) then (c.kind kind).add c.company l else c.kind kind := by
  unfold addLine
  cases lineKind l <;> cases kind <;> rfl

theorem addLine_invoice (c : CurrencyAcc) (l : ReceivableLine) (h : isInvoice l = true) :
    addLine c l = addInvoice { c with
      net := c.net + amountOf c.company l
      n := c.n + 1
      allCustomers := Firsts.insert c.allCustomers l.customerKey } l := by
  have hkind : lineKind l = .invoice := of_decide_eq_true h
  unfold addLine
  rw [hkind]

/-- Other lines leave the figures of the invoices alone. -/
theorem addLine_other (c : CurrencyAcc) (l : ReceivableLine) (h : isInvoice l = false) :
    (addLine c l).overdue = c.overdue ∧ (addLine c l).buckets = c.buckets ∧
      (addLine c l).byCustomer = c.byCustomer ∧ (addLine c l).bySalesperson = c.bySalesperson ∧
      (addLine c l).byTeam = c.byTeam := by
  have hkind : lineKind l ≠ .invoice := of_decide_eq_false h
  unfold addLine
  cases hl : lineKind l with
  | invoice => exact absurd hl hkind
  | credit_note | payment | other | intercompany => exact ⟨rfl, rfl, rfl, rfl, rfl⟩

section
variable (company : Bool) (lines : List ReceivableLine)

/-- The accumulator after the lines. -/
def accOf : CurrencyAcc := lines.foldl addLine (newCurrencyAcc company)

theorem keeps_company : ∀ c l, c.company = company → (addLine c l).company = company :=
  fun c l h => (addLine_company c l).trans h

theorem accOf_kind (kind : DebtLineKind) :
    ((accOf company lines).kind kind).amount = kindSum company kind lines := by
  unfold accOf kindSum
  rw [foldl_filter (g := addLine) (w := fun c => c.kind kind) (f := fun k l => k.add company l)
    (p := fun l => decide (lineKind l = kind)) (fun c => c.company = company) (keeps_company company)
    ?_ lines rfl, sum_foldl (w := KindAcc.amount) (d := amountOf company) (fun _ => True) ?_ ?_ _ trivial]
  · have hzero : ((newCurrencyAcc company).kind kind).amount = 0 := by cases kind <;> rfl
    rw [hzero, zero_add]
  · exact fun _ _ _ => trivial
  · exact fun _ _ _ => rfl
  · intro c l hc
    rw [addLine_kind, hc]

theorem accOf_net : (accOf company lines).net = (lines.map (amountOf company)).sum := by
  unfold accOf
  refine (sum_foldl (w := CurrencyAcc.net) (d := amountOf company) (fun c => c.company = company)
    (keeps_company company) (fun c l hc => ?_) lines rfl).trans (zero_add _)
  unfold addLine
  rw [← hc]
  cases lineKind l <;> rfl

/-- A variable that only invoice lines change. -/
theorem accOf_invoices {γ : Type} {w : CurrencyAcc → γ} {f : γ → ReceivableLine → γ}
    (hinvoice : ∀ c l, c.company = company → isInvoice l = true → w (addLine c l) = f (w c) l)
    (hother : ∀ c l, isInvoice l = false → w (addLine c l) = w c) :
    w (accOf company lines) = (lines.filter isInvoice).foldl f (w (newCurrencyAcc company)) := by
  refine foldl_filter (fun c => c.company = company) (keeps_company company) (fun c l hc => ?_) lines rfl
  split
  · next h => exact hinvoice c l hc h
  · next h => exact hother c l (Bool.eq_false_iff.mpr h)

theorem accOf_overdue : (accOf company lines).overdue = overdueSum company lines := by
  rw [accOf_invoices company lines (w := CurrencyAcc.overdue)
    (f := fun a l => a + overdueAmountOf company l)]
  · refine (sum_foldl (w := id) (d := overdueAmountOf company) (fun _ => True)
      (fun _ _ _ => trivial) (fun _ _ _ => rfl) _ trivial).trans (zero_add _)
  · intro c l hc h
    rw [addLine_invoice c l h, ← hc]
    rfl
  · exact fun c l h => (addLine_other c l h).1

theorem accOf_buckets : (accOf company lines).buckets =
    upserts Prod.fst (·.agingBucketKey)
      (fun l b => (b.1, BucketAcc.mk (b.2.amount + amountOf company l) (b.2.n + 1)))
      (fun l => (l.agingBucketKey, BucketAcc.mk (0 + amountOf company l) (0 + 1))) []
      (lines.filter isInvoice) := by
  refine accOf_invoices company lines (w := CurrencyAcc.buckets) (fun c l hc h => ?_) fun c l h => ?_
  · rw [addLine_invoice c l h, ← hc]
    rfl
  · exact (addLine_other c l h).2.1

/-- The groups of a chart. -/
def groupsBy {κ : Type} [DecidableEq κ] (key : ReceivableLine → κ) (label : ReceivableLine → String)
    (detail : ReceivableLine → Option String) : List (κ × GroupAcc) :=
  upserts Prod.fst key
    (fun l g => (g.1, g.2.add (amountOf company l) (overdueAmountOf company l) (detail l)))
    (fun l => (key l,
      (GroupAcc.mk (label l) [] 0 0).add (amountOf company l) (overdueAmountOf company l) (detail l)))
    [] (lines.filter isInvoice)

theorem accOf_byCustomer : (accOf company lines).byCustomer =
    groupsBy company lines (·.customerKey) (·.customer) fun l => some l.company := by
  refine accOf_invoices company lines (w := CurrencyAcc.byCustomer) (fun c l hc h => ?_) fun c l h => ?_
  · rw [addLine_invoice c l h, ← hc]
    rfl
  · exact (addLine_other c l h).2.2.1

theorem accOf_bySalesperson : (accOf company lines).bySalesperson =
    groupsBy company lines (·.salespersonKey) (·.salesperson) fun _ => none := by
  refine accOf_invoices company lines (w := CurrencyAcc.bySalesperson) (fun c l hc h => ?_)
    fun c l h => ?_
  · rw [addLine_invoice c l h, ← hc]
    rfl
  · exact (addLine_other c l h).2.2.2.1

theorem accOf_byTeam : (accOf company lines).byTeam =
    groupsBy company lines (·.salesTeamKey) (·.salesTeam) fun _ => none := by
  refine accOf_invoices company lines (w := CurrencyAcc.byTeam) (fun c l hc h => ?_) fun c l h => ?_
  · rw [addLine_invoice c l h, ← hc]
    rfl
  · exact (addLine_other c l h).2.2.2.2

/-! ## Charts -/

/-- A bucket has the invoice lines of its key. -/
theorem bucketOf_eq (key : Int) : bucketOf (accOf company lines) key =
    ⟨(((lines.filter isInvoice).filter fun l => decide (l.agingBucketKey = key)).map
        (amountOf company)).sum,
      ((lines.filter isInvoice).filter fun l => decide (l.agingBucketKey = key)).length⟩ := by
  unfold bucketOf
  rw [accOf_buckets]
  have hfold := find?_upserts (z := BucketAcc.mk 0 0)
    (g := fun b l => BucketAcc.mk (b.amount + amountOf company l) (b.n + 1))
    (k := fun l : ReceivableLine => l.agingBucketKey) (lines.filter isInvoice) key
  refine hfold.trans ?_
  generalize (lines.filter isInvoice).filter (fun l => decide (l.agingBucketKey = key)) = ls
  have hamount := sum_foldl (g := fun b l => BucketAcc.mk (b.amount + amountOf company l) (b.n + 1))
    (w := BucketAcc.amount) (d := amountOf company) (fun _ => True) (fun _ _ _ => trivial)
    (fun _ _ _ => rfl) ls (a := ⟨0, 0⟩) trivial
  have hn := sum_foldl (g := fun b l => BucketAcc.mk (b.amount + amountOf company l) (b.n + 1))
    (w := BucketAcc.n) (d := fun _ : ReceivableLine => 1) (fun _ => True) (fun _ _ _ => trivial)
    (fun _ _ _ => rfl) ls (a := ⟨0, 0⟩) trivial
  rw [zero_add] at hamount hn
  rw [← hamount]
  have hlength : (ls.map fun _ => 1).sum = ls.length := by
    rw [List.map_const', List.sum_replicate, nsmul_one, Nat.cast_id]
  rw [← hlength, ← hn]

theorem mem_points {κ : Type} {total : ℚ} {m : List (κ × GroupAcc)} {limit : Option Nat}
    {withDetail : Bool} {p : DebtGroupPoint κ} (hp : p ∈ points total m limit withDetail) :
    ∃ g ∈ m, p.key = g.1 ∧ p.overdue = g.2.overdue := by
  unfold points at hp
  obtain ⟨g, hg, rfl⟩ := List.mem_map.mp hp
  refine ⟨g, ?_, rfl, rfl⟩
  set kept := (m.filter fun g => decide ((5 : ℚ) / 1000 ≤ |g.2.overdue|)).insertionSort
    fun a b => b.2.overdue ≤ a.2.overdue with hkept
  have hmem : g ∈ kept := by
    cases limit with
    | none => exact hg
    | some n => exact List.mem_of_mem_take hg
  rw [hkept, List.mem_insertionSort] at hmem
  exact List.mem_of_mem_filter hmem

/-- A point of a chart is the overdue part of the invoice lines of its key. -/
theorem point_overdue {κ : Type} [DecidableEq κ] {key : ReceivableLine → κ}
    {label : ReceivableLine → String} {detail : ReceivableLine → Option String} {total : ℚ}
    {limit : Option Nat} {withDetail : Bool} {p : DebtGroupPoint κ}
    (hp : p ∈ points total (groupsBy company lines key label detail) limit withDetail) :
    p.overdue = (((lines.filter isInvoice).filter fun l => decide (key l = p.key)).map
      (overdueAmountOf company)).sum := by
  obtain ⟨g, hg, hkey, hoverdue⟩ := mem_points hp
  rw [hkey, hoverdue]
  refine figure_upserts (w := fun g : κ × GroupAcc => g.2.overdue) (d := overdueAmountOf company)
    (by exact fun _ _ => rfl) (by exact fun _ => rfl) (by exact fun _ _ _ => rfl) (fun l => ?_) hg
  exact zero_add _

/-- The overdue invoice lines of a key add up to the overdue part of its invoice lines. -/
theorem sum_overdue_lines {κ : Type} [DecidableEq κ] (key : ReceivableLine → κ) (k : κ)
    (f : ReceivableLine → ℚ)
    (hf : ∀ l : ReceivableLine, 0 < l.daysPastDue → f l = overdueAmountOf company l) :
    ((lines.filter fun l => decide (key l = k) && decide (0 < l.daysPastDue) &&
        decide (lineKind l = .invoice)).map f).sum =
      (((lines.filter isInvoice).filter fun l => decide (key l = k)).map
        (overdueAmountOf company)).sum := by
  induction lines with
  | nil => rfl
  | cons l ls ih =>
    unfold isInvoice at *
    by_cases hkind : lineKind l = .invoice
    · by_cases hkey : key l = k
      · by_cases hdays : 0 < l.daysPastDue
        · simp [hkind, hkey, hdays, hf l hdays, ih]
        · simp [hkind, hkey, hdays, ih, overdueAmountOf]
      · simp [hkind, hkey, ih]
    · simp [hkind, ih]

end

end SalesDashboard.Receivables
