import SalesDashboard.Lib.Grouping
import SalesDashboard.Python.Text
import Mathlib

/-! The classification of quotations and sales orders (`facts/quotation_classification.py`):
a row's flags, from its own dates and from the rows that share its quotation key. -/

namespace SalesDashboard.SalesPipeline
open Python

/-! ## Rows -/

/-- The columns that are read. Dates are in microseconds, what is no date or no number is
missing. -/
structure DocumentRow where
  salesDocumentType : Option String
  quotationDate : Option Int
  salesOrderDate : Option Int
  orderState : Option String
  salesSegment : Option String
  salesOrderID : Option Int
  sourceQuotationID : Option String
  quotationID : Option String
  deriving DecidableEq

inductive QuotationClass
  | notApplicable | unclassified | systemGenerated | realQuotation | invalidDateSequence
  deriving DecidableEq, Repr

inductive RealReason
  | notApplicable | missingDates | convertedWithin24h | convertedAfter24h | lostAfter24h | openAfter24h
  | salesOrderBeforeQuotation
  deriving DecidableEq, Repr

inductive SalesOrderClass
  | unclassified | systemGenerated | realSalesOrder
  deriving DecidableEq, Repr

structure QuotationRow extends DocumentRow where
  quotationAgeMinutes : Option Int
  quotationAgeHours : Option ℚ
  quotationToSalesOrderMinutes : Option Int
  quotationToSalesOrderHours : Option ℚ
  isRealQuotation : Bool
  isSystemGeneratedQuotation : Bool
  quotationClassification : QuotationClass
  quotationRealReason : RealReason
  deriving DecidableEq

structure SalesOrderRow extends QuotationRow where
  isRealSalesOrder : Bool
  salesOrderClassification : SalesOrderClass
  deriving DecidableEq

structure OutcomeRow extends SalesOrderRow where
  isWonQuotation : Bool
  deriving DecidableEq

namespace DocumentRow

/-- The document type as the first function reads it. -/
def isSalesOrderStripped (r : DocumentRow) : Bool := decide (r.salesDocumentType.map strip = some "Sales Order")

def isSalesOrder (r : DocumentRow) : Bool := decide (r.salesDocumentType = some "Sales Order")

def isQuotationRow (r : DocumentRow) : Bool := decide (r.salesDocumentType = some "Quotation")

def isB2b (r : DocumentRow) : Bool := decide (r.salesSegment.map (fun s => upper (strip s)) = some "B2B")

def isLostOrCancelled (r : DocumentRow) : Bool :=
  r.orderState.any fun s => decide (lower (strip s) ∈ ["cancel", "cancelled", "lost"])

/-- `_quotation_key`: the source quotation, else the quotation; a text for nothing is nothing. -/
def quotationKey (r : DocumentRow) : Option String :=
  ((r.sourceQuotationID.or r.quotationID).map strip).filter fun key =>
    decide (key ∉ ["", "<NA>", "nan", "None"])

end DocumentRow

/-! ## Quotations -/

def REAL_QUOTATION_THRESHOLD_MINUTES : Int := 1440

def MINUTE : Int := 60000000

def HOUR : Int := 3600000000

/-- `_linked_sales_order_date` of a key: the earliest date of its sales orders. -/
def linkedSalesOrderDate (rows : List DocumentRow) (key : String) : Option Int :=
  ((rows.filter fun r => r.isSalesOrderStripped && decide (r.quotationKey = some key)).filterMap
    (·.salesOrderDate)).min?

/-- The row's own sales order date, else that of its key. -/
def orderDateOf (rows : List DocumentRow) (r : DocumentRow) : Option Int :=
  r.salesOrderDate.or (r.quotationKey.bind (linkedSalesOrderDate rows))

/-- The row as `add_quotation_classification` leaves it, for the sales order date that it is
linked to. Of the assignments to one column the last that applies counts. -/
def classifyRow (refresh : Int) (linked : Option Int) (r : DocumentRow) : QuotationRow :=
  let hasLink := linked.isSome || r.salesOrderID.isSome
  let ageEnd := if hasLink then linked else some refresh
  let age := r.quotationDate.bind fun q => ageEnd.map fun e => e - q
  let toSalesOrder := r.quotationDate.bind fun q => linked.map fun l => l - q
  let ageMinutes := age.map (· / MINUTE)
  let toSalesOrderMinutes := toSalesOrder.map (· / MINUTE)
  let invalid := toSalesOrderMinutes.any fun m => decide (m < 0)
  let missingDates := r.quotationDate.isNone || (hasLink && linked.isNone)
  let real := r.isB2b && !missingDates && !invalid &&
    ageMinutes.any fun m => decide (REAL_QUOTATION_THRESHOLD_MINUTES ≤ m)
  let systemGenerated := r.isB2b && hasLink && !missingDates && !invalid &&
    ageMinutes.any fun m => decide (m < REAL_QUOTATION_THRESHOLD_MINUTES)
  { r with
    quotationAgeMinutes := ageMinutes
    quotationAgeHours := age.map fun d => d / HOUR
    quotationToSalesOrderMinutes := toSalesOrderMinutes
    quotationToSalesOrderHours := toSalesOrder.map fun d => d / HOUR
    isRealQuotation := real
    isSystemGeneratedQuotation := systemGenerated
    quotationClassification :=
      if invalid then .invalidDateSequence
      else if real then .realQuotation
      else if systemGenerated then .systemGenerated
      else if missingDates then .unclassified
      else .notApplicable
    quotationRealReason :=
      if invalid then .salesOrderBeforeQuotation
      else if real && !hasLink && !r.isLostOrCancelled then .openAfter24h
      else if real && !hasLink && r.isLostOrCancelled then .lostAfter24h
      else if real && hasLink then .convertedAfter24h
      else if systemGenerated then .convertedWithin24h
      else if missingDates then .missingDates
      else .notApplicable }

def addQuotationClassification (refresh : Int) (rows : List DocumentRow) : List QuotationRow :=
  rows.map fun r => classifyRow refresh (orderDateOf rows r) r

/-! ## Sales orders -/

/-- `_linked_quotation_real_by_key`: whether a quotation of the key is real, if it has any. -/
def linkedQuotationReal (rows : List QuotationRow) (key : String) : Option Bool :=
  let quotes := rows.filter fun r => decide (r.quotationKey = some key) && !r.isSalesOrder
  if quotes.isEmpty then none else some (quotes.any (·.isRealQuotation))

def salesOrderRow (rows : List QuotationRow) (r : QuotationRow) : SalesOrderRow :=
  let linkedReal := (r.quotationKey.bind (linkedQuotationReal rows)).getD r.isRealQuotation
  let real := r.isSalesOrder && r.isB2b && r.quotationKey.isSome && linkedReal
  { r with
    isRealSalesOrder := real
    salesOrderClassification :=
      if real then .realSalesOrder else if r.isSalesOrder then .systemGenerated else .unclassified }

def addSalesOrderClassification (rows : List QuotationRow) : List SalesOrderRow :=
  rows.map (salesOrderRow rows)

/-! ## Outcomes -/

/-- `_linked_sales_order_real_by_key`, a key without sales orders being no. -/
def linkedSalesOrderReal (rows : List SalesOrderRow) (key : String) : Bool :=
  (rows.filter fun r => decide (r.quotationKey = some key) && r.isSalesOrder).any (·.isRealSalesOrder)

def outcomeRow (rows : List SalesOrderRow) (r : SalesOrderRow) : OutcomeRow :=
  { r with isWonQuotation := r.isQuotationRow && r.isRealQuotation && r.quotationKey.any (linkedSalesOrderReal rows) }

def addQuotationOutcomeFlags (rows : List SalesOrderRow) : List OutcomeRow := rows.map (outcomeRow rows)

/-- The three functions in their order. -/
def classify (refresh : Int) (rows : List DocumentRow) : List OutcomeRow :=
  addQuotationOutcomeFlags (addSalesOrderClassification (addQuotationClassification refresh rows))

/-! ## One row -/

/-- The case that a reason belongs to. -/
def RealReason.classOf : RealReason → QuotationClass
  | .notApplicable => .notApplicable
  | .missingDates => .unclassified
  | .convertedWithin24h => .systemGenerated
  | .convertedAfter24h | .lostAfter24h | .openAfter24h => .realQuotation
  | .salesOrderBeforeQuotation => .invalidDateSequence

/-- What the columns of a row say about each other. -/
structure RowConsistent (rows : List DocumentRow) (r : QuotationRow) : Prop where
  exclusive : ¬ (r.isRealQuotation = true ∧ r.isSystemGeneratedQuotation = true)
  b2b : r.isRealQuotation = true ∨ r.isSystemGeneratedQuotation = true → r.isB2b = true
  real : r.isRealQuotation = true ↔ r.quotationClassification = .realQuotation
  system : r.isSystemGeneratedQuotation = true ↔ r.quotationClassification = .systemGenerated
  reason : r.quotationRealReason.classOf = r.quotationClassification
  minutes : r.quotationToSalesOrderMinutes =
    r.quotationDate.bind fun q => (orderDateOf rows r.toDocumentRow).map fun l => (l - q) / MINUTE
  invalid : r.quotationClassification = .invalidDateSequence ↔
    ∃ m, r.quotationToSalesOrderMinutes = some m ∧ m < 0
  age : ∀ m, r.quotationToSalesOrderMinutes = some m → r.quotationAgeMinutes = some m

/-- The class of a row is that of its flags, of which at most one holds. -/
theorem class_of_flags {invalid real system missing : Bool} {c : QuotationClass}
    (hreal : real = true → invalid = false) (hsystem : system = true → invalid = false ∧ real = false)
    (hc : c = if invalid then .invalidDateSequence else if real then .realQuotation
      else if system then .systemGenerated else if missing then .unclassified else .notApplicable) :
    (real = true ↔ c = .realQuotation) ∧ (system = true ↔ c = .systemGenerated) ∧
      (invalid = true ↔ c = .invalidDateSequence) := by
  subst hc
  cases invalid <;> cases real <;> cases system <;> cases missing <;> simp_all

/-- A reason names the class that the same flags give. -/
theorem classOf_reason (invalid real system missing link lost : Bool) :
    (if invalid then RealReason.salesOrderBeforeQuotation
      else if real && !link && !lost then .openAfter24h
      else if real && !link && lost then .lostAfter24h
      else if real && link then .convertedAfter24h
      else if system then .convertedWithin24h
      else if missing then .missingDates
      else .notApplicable).classOf =
    if invalid then .invalidDateSequence else if real then .realQuotation
      else if system then .systemGenerated else if missing then .unclassified else .notApplicable := by
  cases invalid <;> cases real <;> cases system <;> cases missing <;> cases link <;> cases lost <;> rfl

theorem classifyRow_consistent (refresh : Int) (rows : List DocumentRow) (r : DocumentRow) :
    RowConsistent rows (classifyRow refresh (orderDateOf rows r) r) := by
  generalize hl : orderDateOf rows r = linked
  have hsame : (classifyRow refresh linked r).toDocumentRow = r := rfl
  have hvalid : (classifyRow refresh linked r).isRealQuotation = true →
      ((classifyRow refresh linked r).quotationToSalesOrderMinutes.any fun m => decide (m < 0)) = false := by
    simp only [classifyRow, Bool.and_eq_true, Bool.not_eq_true']
    exact fun h => h.1.2
  have hsystem : (classifyRow refresh linked r).isSystemGeneratedQuotation = true →
      ((classifyRow refresh linked r).quotationToSalesOrderMinutes.any fun m => decide (m < 0)) = false ∧
        (classifyRow refresh linked r).isRealQuotation = false := by
    simp only [classifyRow, Bool.and_eq_true, Bool.not_eq_true', Bool.and_eq_false_iff]
    intro h
    refine ⟨h.1.2, .inr ?_⟩
    obtain ⟨m, hm, hlt⟩ := (Option.any_eq_true _ _).mp h.2
    rw [hm]
    exact decide_eq_false (by have := of_decide_eq_true hlt; omega)
  obtain ⟨hreal, hsys, hinvalid⟩ := class_of_flags hvalid hsystem
    (show (classifyRow refresh linked r).quotationClassification = _ from rfl)
  constructor
  · rintro ⟨h, h'⟩
    rw [(hsystem h').2] at h
    cases h
  · simp only [classifyRow, Bool.and_eq_true]
    rintro (h | h)
    · exact h.1.1.1
    · exact h.1.1.1.1
  · exact hreal
  · exact hsys
  · exact classOf_reason _ _ _ _ _ _
  · rw [hsame, hl]
    simp only [classifyRow]
    cases r.quotationDate <;> cases linked <;> rfl
  · rw [← hinvalid, Option.any_eq_true]
    simp only [decide_eq_true_eq]
  · intro m
    simp only [classifyRow]
    cases linked with
    | none => cases r.quotationDate <;> simp
    | some l => simp

/-! ## Rows in any order -/

theorem min?_perm {xs ys : List Int} (h : xs.Perm ys) : xs.min? = ys.min? := by
  cases hx : xs.min? with
  | none =>
    rw [List.min?_eq_none_iff] at hx
    rw [hx] at h
    rw [List.perm_nil.mp h.symm]
    rfl
  | some m =>
    rw [List.min?_eq_some_iff] at hx
    symm
    rw [List.min?_eq_some_iff]
    exact ⟨h.mem_iff.mp hx.1, fun y hy => hx.2 y (h.mem_iff.mpr hy)⟩

theorem orderDateOf_perm {rows rows' : List DocumentRow} (h : rows'.Perm rows) : orderDateOf rows' = orderDateOf rows := by
  have hkey : linkedSalesOrderDate rows' = linkedSalesOrderDate rows := by
    funext key
    exact min?_perm ((h.filter _).filterMap _)
  funext r
  unfold orderDateOf
  rw [hkey]

theorem salesOrderRow_perm {rows rows' : List QuotationRow} (h : rows'.Perm rows) :
    salesOrderRow rows' = salesOrderRow rows := by
  have hkey : linkedQuotationReal rows' = linkedQuotationReal rows := by
    funext key
    have hquotes := h.filter fun r => decide (r.quotationKey = some key) && !r.isSalesOrder
    simp only [linkedQuotationReal, List.isEmpty_iff, List.Perm.any_eq hquotes]
    by_cases hnil : (rows.filter fun r => decide (r.quotationKey = some key) && !r.isSalesOrder) = []
    · rw [hnil] at hquotes
      rw [if_pos hnil, if_pos (List.perm_nil.mp hquotes)]
    · rw [if_neg hnil, if_neg fun hnil' => hnil (List.perm_nil.mp (hnil' ▸ hquotes).symm)]
  funext r
  unfold salesOrderRow
  rw [hkey]

theorem outcomeRow_perm {rows rows' : List SalesOrderRow} (h : rows'.Perm rows) : outcomeRow rows' = outcomeRow rows := by
  have hkey : linkedSalesOrderReal rows' = linkedSalesOrderReal rows := by
    funext key
    exact List.Perm.any_eq (h.filter _)
  funext r
  unfold outcomeRow
  rw [hkey]

/-- What the three functions make of a row of the frame. -/
def outcomeOf (refresh : Int) (rows : List DocumentRow) (r : DocumentRow) : OutcomeRow :=
  outcomeRow (addSalesOrderClassification (addQuotationClassification refresh rows))
    (salesOrderRow (addQuotationClassification refresh rows) (classifyRow refresh (orderDateOf rows r) r))

theorem classify_eq (refresh : Int) (rows : List DocumentRow) :
    classify refresh rows = rows.map (outcomeOf refresh rows) := by
  unfold classify addQuotationOutcomeFlags
  conv_lhs => rw [addSalesOrderClassification, addQuotationClassification, List.map_map, List.map_map]
  rfl

theorem outcomeOf_perm (refresh : Int) {rows rows' : List DocumentRow} (h : rows'.Perm rows) :
    outcomeOf refresh rows' = outcomeOf refresh rows := by
  have hquotations : (addQuotationClassification refresh rows').Perm (addQuotationClassification refresh rows) := by
    unfold addQuotationClassification
    rw [orderDateOf_perm h]
    exact h.map _
  have horders : (addSalesOrderClassification (addQuotationClassification refresh rows')).Perm
      (addSalesOrderClassification (addQuotationClassification refresh rows)) := by
    unfold addSalesOrderClassification
    rw [salesOrderRow_perm hquotations]
    exact hquotations.map _
  funext r
  unfold outcomeOf
  rw [orderDateOf_perm h, salesOrderRow_perm hquotations, outcomeRow_perm horders]

/-! ## Rows of one key -/

/-- Every row is a quotation or a sales order. -/
def Typed (rows : List DocumentRow) : Prop :=
  ∀ r ∈ rows, r.salesDocumentType = some "Quotation" ∨ r.salesDocumentType = some "Sales Order"

theorem Typed.quotation_iff {rows : List DocumentRow} (h : Typed rows) {r : DocumentRow} (hr : r ∈ rows) :
    r.isQuotationRow = true ↔ r.isSalesOrder = false := by
  unfold DocumentRow.isQuotationRow DocumentRow.isSalesOrder
  rcases h r hr with heq | heq
  · rw [heq]
    decide
  · rw [heq]
    decide

/-- Whether a row of the frame is a real quotation. -/
def realIn (refresh : Int) (rows : List DocumentRow) (r : DocumentRow) : Bool :=
  (classifyRow refresh (orderDateOf rows r) r).isRealQuotation

theorem linkedQuotationReal_eq {refresh : Int} {rows : List DocumentRow} {key : String} (htyped : Typed rows)
    (hquote : ∃ q ∈ rows, q.isQuotationRow = true ∧ q.quotationKey = some key) :
    ∃ b, linkedQuotationReal (addQuotationClassification refresh rows) key = some b ∧
      (b = true ↔ ∃ q ∈ rows, q.isQuotationRow = true ∧ q.quotationKey = some key ∧ realIn refresh rows q = true) := by
  have hmem : ∀ x : QuotationRow, x ∈ ((addQuotationClassification refresh rows).filter fun r =>
      decide (r.quotationKey = some key) && !r.isSalesOrder) ↔
      ∃ q ∈ rows, q.isQuotationRow = true ∧ q.quotationKey = some key ∧
        classifyRow refresh (orderDateOf rows q) q = x := by
    intro x
    rw [List.mem_filter, addQuotationClassification, List.mem_map]
    constructor
    · rintro ⟨⟨q, hq, rfl⟩, hx⟩
      rw [Bool.and_eq_true, decide_eq_true_eq, Bool.not_eq_true'] at hx
      exact ⟨q, hq, (htyped.quotation_iff hq).mpr hx.2, hx.1, rfl⟩
    · rintro ⟨q, hq, hquotation, hkey, rfl⟩
      refine ⟨⟨q, hq, rfl⟩, ?_⟩
      rw [Bool.and_eq_true, decide_eq_true_eq, Bool.not_eq_true']
      exact ⟨hkey, (htyped.quotation_iff hq).mp hquotation⟩
  obtain ⟨q, hq, hquotation, hkey⟩ := hquote
  have hne : ((addQuotationClassification refresh rows).filter fun r =>
      decide (r.quotationKey = some key) && !r.isSalesOrder) ≠ [] :=
    List.ne_nil_of_mem ((hmem _).mpr ⟨q, hq, hquotation, hkey, rfl⟩)
  refine ⟨_, if_neg fun hempty => hne (List.isEmpty_iff.mp hempty), ?_⟩
  rw [List.any_eq_true]
  constructor
  · rintro ⟨x, hx, hreal⟩
    obtain ⟨q, hq, hquotation, hkey, rfl⟩ := (hmem x).mp hx
    exact ⟨q, hq, hquotation, hkey, hreal⟩
  · rintro ⟨q, hq, hquotation, hkey, hreal⟩
    exact ⟨_, (hmem _).mpr ⟨q, hq, hquotation, hkey, rfl⟩, hreal⟩

/-- A sales order of a key with quotations is real when one of them is. -/
theorem isRealSalesOrder_iff {refresh : Int} {rows : List DocumentRow} {key : String} (htyped : Typed rows)
    (hquote : ∃ q ∈ rows, q.isQuotationRow = true ∧ q.quotationKey = some key) {r : DocumentRow}
    (hkey : r.quotationKey = some key) :
    (outcomeOf refresh rows r).isRealSalesOrder = true ↔ r.isSalesOrder = true ∧ r.isB2b = true ∧
      ∃ q ∈ rows, q.isQuotationRow = true ∧ q.quotationKey = some key ∧ realIn refresh rows q = true := by
  obtain ⟨b, hb, hiff⟩ := @linkedQuotationReal_eq refresh rows key htyped hquote
  have hreal : (outcomeOf refresh rows r).isRealSalesOrder = (r.isSalesOrder && r.isB2b && true && b) := by
    show (r.isSalesOrder && r.isB2b && r.quotationKey.isSome && (r.quotationKey.bind
      (linkedQuotationReal (addQuotationClassification refresh rows))).getD _) = _
    rw [hkey, Option.bind_some, hb]
    rfl
  rw [hreal, ← hiff]
  simp [and_assoc]

theorem isWonQuotation_iff {refresh : Int} {rows : List DocumentRow} {r : DocumentRow} :
    (outcomeOf refresh rows r).isWonQuotation = true ↔ r.isQuotationRow = true ∧ realIn refresh rows r = true ∧
      ∃ key, r.quotationKey = some key ∧ ∃ s ∈ rows, s.isSalesOrder = true ∧ s.quotationKey = some key ∧
        (outcomeOf refresh rows s).isRealSalesOrder = true := by
  have hwon : (outcomeOf refresh rows r).isWonQuotation = (r.isQuotationRow && realIn refresh rows r &&
      r.quotationKey.any (linkedSalesOrderReal
        (addSalesOrderClassification (addQuotationClassification refresh rows)))) := rfl
  rw [hwon, Bool.and_eq_true, Bool.and_eq_true, and_assoc, Option.any_eq_true]
  refine and_congr_right fun _ => and_congr_right fun _ => exists_congr fun key => and_congr_right fun _ => ?_
  unfold linkedSalesOrderReal addSalesOrderClassification addQuotationClassification
  rw [List.any_eq_true]
  constructor
  · rintro ⟨x, hx, hreal⟩
    obtain ⟨hmem, hx⟩ := List.mem_filter.mp hx
    obtain ⟨y, hy, rfl⟩ := List.mem_map.mp hmem
    obtain ⟨s, hs, rfl⟩ := List.mem_map.mp hy
    rw [Bool.and_eq_true, decide_eq_true_eq] at hx
    exact ⟨s, hs, hx.2, hx.1, hreal⟩
  · rintro ⟨s, hs, horder, hkey, hreal⟩
    refine ⟨_, List.mem_filter.mpr ⟨List.mem_map_of_mem (List.mem_map_of_mem hs), ?_⟩, hreal⟩
    rw [Bool.and_eq_true, decide_eq_true_eq]
    exact ⟨hkey, horder⟩

/-- What the flags of the rows with one key say about each other. -/
structure LinksConsistent (out : List OutcomeRow) : Prop where
  won : ∀ r ∈ out, r.isQuotationRow = true → (r.isWonQuotation = true ↔ r.isRealQuotation = true ∧
    ∃ key, r.quotationKey = some key ∧ ∃ s ∈ out, s.isSalesOrder = true ∧ s.isB2b = true ∧ s.quotationKey = some key)
  salesOrders : ∀ key, (∃ q ∈ out, q.isQuotationRow = true ∧ q.quotationKey = some key) →
    ∀ s ∈ out, s.isSalesOrder = true → s.isB2b = true → s.quotationKey = some key →
      (s.isRealSalesOrder = true ↔
        ∃ q ∈ out, q.isQuotationRow = true ∧ q.quotationKey = some key ∧ q.isRealQuotation = true)

theorem linksConsistent_classify {rows : List DocumentRow} (htyped : Typed rows) (refresh : Int) :
    LinksConsistent (classify refresh rows) := by
  rw [classify_eq]
  constructor
  · intro r hr hquotation
    obtain ⟨d, hd, rfl⟩ := List.mem_map.mp hr
    have hquotation : d.isQuotationRow = true := hquotation
    rw [isWonQuotation_iff]
    constructor
    · rintro ⟨_, hreal, key, hkey, s, hs, horder, hskey, hsreal⟩
      obtain ⟨_, hb2b, _⟩ := (isRealSalesOrder_iff htyped ⟨d, hd, hquotation, hkey⟩ hskey).mp hsreal
      exact ⟨hreal, key, hkey, _, List.mem_map_of_mem hs, horder, hb2b, hskey⟩
    · rintro ⟨hreal, key, hkey, x, hx, horder, hb2b, hskey⟩
      obtain ⟨s, hs, rfl⟩ := List.mem_map.mp hx
      exact ⟨hquotation, hreal, key, hkey, s, hs, horder, hskey,
        (isRealSalesOrder_iff htyped ⟨d, hd, hquotation, hkey⟩ hskey).mpr
          ⟨horder, hb2b, d, hd, hquotation, hkey, hreal⟩⟩
  · intro key hquote s hs horder hb2b hskey
    obtain ⟨d, hd, rfl⟩ := List.mem_map.mp hs
    obtain ⟨x, hx, hquotation, hkey⟩ := hquote
    obtain ⟨q, hq, rfl⟩ := List.mem_map.mp hx
    have hskey : d.quotationKey = some key := hskey
    rw [isRealSalesOrder_iff htyped ⟨q, hq, hquotation, hkey⟩ hskey]
    constructor
    · rintro ⟨_, _, p, hp, hpq, hpk, hreal⟩
      exact ⟨_, List.mem_map_of_mem hp, hpq, hpk, hreal⟩
    · rintro ⟨y, hy, hpq, hpk, hreal⟩
      obtain ⟨p, hp, rfl⟩ := List.mem_map.mp hy
      exact ⟨horder, hb2b, p, hp, hpq, hpk, hreal⟩

/-- **Quotations and sales orders are classified consistently**, each row by itself and
the rows of a key together, whatever the order of the rows. -/
theorem classification_consistent (rows : List DocumentRow) (htyped : Typed rows) (refresh : Int) :
    (∃ result : DocumentRow → OutcomeRow, classify refresh rows = rows.map result ∧
      (∀ r, (result r).toDocumentRow = r) ∧
      ∀ rows', rows'.Perm rows → classify refresh rows' = rows'.map result) ∧
    (∀ r ∈ classify refresh rows, RowConsistent rows r.toQuotationRow) ∧
    LinksConsistent (classify refresh rows) := by
  refine ⟨⟨outcomeOf refresh rows, classify_eq refresh rows, fun _ => rfl, ?_⟩, ?_,
    linksConsistent_classify htyped refresh⟩
  · intro rows' h
    rw [classify_eq, outcomeOf_perm refresh h]
  · intro r hr
    rw [classify_eq] at hr
    obtain ⟨d, _, rfl⟩ := List.mem_map.mp hr
    exact classifyRow_consistent refresh rows d

/-- A quotation and the order that was made of it two days later. -/
def quotationAndOrder : List DocumentRow :=
  [{ salesDocumentType := some "Quotation", quotationDate := some 0, salesOrderDate := none, orderState := some "sale",
     salesSegment := some "B2B", salesOrderID := none, sourceQuotationID := none, quotationID := some "7" },
   { salesDocumentType := some "Sales Order", quotationDate := none, salesOrderDate := some 172800000000,
     orderState := some "sale", salesSegment := some "b2b ", salesOrderID := some 9, sourceQuotationID := some "7",
     quotationID := none }]

theorem classification_consistent_order : Typed quotationAndOrder ∧
    LinksConsistent (classify 0 quotationAndOrder) ∧
    (classify 0 quotationAndOrder).map (fun r => (r.isRealQuotation, r.isWonQuotation, r.isRealSalesOrder)) =
      [(true, true, false), (false, false, true)] := by
  have htyped : Typed quotationAndOrder := by
    unfold Typed
    decide
  exact ⟨htyped, (classification_consistent quotationAndOrder htyped 0).2.2, by decide +kernel⟩

end SalesDashboard.SalesPipeline
