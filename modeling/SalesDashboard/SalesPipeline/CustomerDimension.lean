import SalesDashboard.Lib.Firsts
import SalesDashboard.Python.Text
import SalesDashboard.Tachometer.Dates
import Mathlib

/-! `CustomerDimensionBuilder.build` (`legacy_transform.py`): a row for each customer with
its first purchase, the flags of its history, its segment, class and status. A customer is
its pair of id and name; which customers the blocked sheet names comes from outside. -/

namespace SalesDashboard.SalesPipeline.Customers
open Firsts Python Tachometer

/-! ## Sales -/

/-- The columns that are read; a date that is none is missing. -/
structure SaleRow (C K : Type*) where
  customer : Option C
  orderDate : Option Date
  value : Option K
  salesSegment : Option String

/-- A row of `df` once customers and dates are there. -/
structure Sale (C K : Type*) where
  customer : C
  orderDate : Date
  value : Option K
  salesSegment : Option String

variable {C K : Type*} [DecidableEq C]

def SaleRow.sale (r : SaleRow C K) : Option (Sale C K) :=
  r.customer.bind fun c => r.orderDate.map fun d => ⟨c, d, r.value, r.salesSegment⟩

/-- The least date, `min` of a column. -/
def earliest : List Date → Option Date
  | [] => none
  | d :: ds => match earliest ds with
    | none => some d
    | some e => some (if d.le e then d else e)

/-- The greatest date, `max` of a column. -/
def latest : List Date → Option Date
  | [] => none
  | d :: ds => match latest ds with
    | none => some d
    | some e => some (if d.le e then e else d)

/-! ## Windows of the latest date -/

theorem firstDay_thisYear (maxDate : Date) : 1 ≤ 1 ∧ 1 ≤ daysInMonth maxDate.year 1 := firstDay ..

theorem firstDay_lastYear (maxDate : Date) : 1 ≤ 1 ∧ 1 ≤ daysInMonth (maxDate.year - 1) 1 := firstDay ..

def ytdStart (maxDate : Date) : Date :=
  dateOnlyUTC maxDate.year 1 1 january_bounds (firstDay_thisYear maxDate)

def lytdStart (maxDate : Date) : Date :=
  dateOnlyUTC (maxDate.year - 1) 1 1 january_bounds (firstDay_lastYear maxDate)

theorem day_28 (year month : Nat) : 1 ≤ 28 ∧ 28 ≤ daysInMonth year month :=
  ⟨by decide, le_daysInMonth year month⟩

/-- `max_date.replace(year=last_year)`; the `except` branch takes the 28th. -/
def lytdEnd (maxDate : Date) : Date :=
  if h : maxDate.day ≤ daysInMonth (maxDate.year - 1) maxDate.month then
    dateOnlyUTC (maxDate.year - 1) maxDate.month maxDate.day maxDate.month_bounds ⟨maxDate.day_pos, h⟩
  else dateOnlyUTC (maxDate.year - 1) maxDate.month 28 maxDate.month_bounds (day_28 ..)

/-! ## Classes -/

inductive ValueClass
  | A | B | C | D
  deriving DecidableEq, Repr

/-- A above B above C above D. -/
def ValueClass.height : ValueClass → Nat
  | .A => 3
  | .B => 2
  | .C => 1
  | .D => 0

section Classes

variable [Field K] [LinearOrder K]

/-- `classify` of `_add_customer_class`. -/
def classify (value : K) : ValueClass :=
  if 600000 < value then .A
  else if 300000 ≤ value ∧ value ≤ 599999 then .B
  else if 60000 ≤ value ∧ value ≤ 299999 then .C
  else .D

/-- The totals between two ranges, which `classify` leaves to the default. -/
def InGap (value : K) : Prop :=
  299999 < value ∧ value < 300000 ∨ 599999 < value ∧ value ≤ 600000

inductive CustomerSegment
  | B2B | B2C | unknown
  deriving DecidableEq, Repr

def addCustomerClass (segment : CustomerSegment) (lyValue : K) : Option ValueClass :=
  if segment = .B2B ∨ segment = .B2C then some (classify lyValue) else none

/-- `_add_customer_segment`: any B2B sale, else any B2C sale. -/
def addCustomerSegment (sales : List (Sale C K)) (c : C) : CustomerSegment :=
  let values := ((sales.filter fun s => decide (s.customer = c)).filterMap (·.salesSegment)).map
    fun s => upper (strip s)
  if "B2B" ∈ values then .B2B else if "B2C" ∈ values then .B2C else .unknown

end Classes

/-! ## Statuses -/

inductive CustomerStatus
  | activeRetained | nonActive | reactivated | new | other | blocked
  deriving DecidableEq, Repr

structure HistoryFlags where
  isLYTD : Bool
  isYTD : Bool
  hasHistoryBeforeLYTD : Bool
  hasHistoryPostLYTDLastYear : Bool
  isLYFullYear : Bool
  deriving DecidableEq

/-- Each flag is set for the customers with a date in its window. -/
def historyFlags (maxDate : Date) (dates : List Date) : HistoryFlags where
  isLYTD := dates.any fun d => (lytdStart maxDate).le d && d.le (lytdEnd maxDate)
  isYTD := dates.any fun d => (ytdStart maxDate).le d && d.le maxDate
  hasHistoryBeforeLYTD := dates.any fun d => d.lt (lytdStart maxDate)
  hasHistoryPostLYTDLastYear := dates.any fun d => (lytdEnd maxDate).lt d && d.lt (ytdStart maxDate)
  isLYFullYear := dates.any fun d => decide (d.year = maxDate.year - 1)

def calcStatus (isBlocked : Bool) (firstPurchaseDate : Option Date) (flags : HistoryFlags)
    (maxDate : Date) : CustomerStatus :=
  if isBlocked then .blocked
  else if firstPurchaseDate.any fun d => (ytdStart maxDate).le d && d.le maxDate then .new
  else if flags.isLYTD && flags.isYTD && flags.isLYFullYear then .activeRetained
  else if flags.hasHistoryBeforeLYTD && ! flags.isLYTD && flags.isYTD then .reactivated
  else if flags.isLYTD && ! flags.isYTD then .nonActive
  else .other

/-! ## The dimension -/

structure CustomerRow (C K : Type*) where
  customer : C
  firstPurchaseDate : Option Date
  lyValue : K
  flags : HistoryFlags
  customerSegment : CustomerSegment
  customerClassLY : Option ValueClass
  isBlocked : Bool
  customerStatus : CustomerStatus

def datesOf (sales : List (Sale C K)) (c : C) : List Date :=
  (sales.filter fun s => decide (s.customer = c)).map (·.orderDate)

variable [Field K] [LinearOrder K]

/-- The sum of the last-year lines; a line without a value adds nothing. -/
def lyValue (sales : List (Sale C K)) (lastYear : Nat) (c : C) : K :=
  ((sales.filter fun s => decide (s.orderDate.year = lastYear ∧ s.customer = c)).filterMap (·.value)).sum

def customerRow (sales : List (Sale C K)) (maxDate : Date) (blocked : C → Bool) (c : C) : CustomerRow C K :=
  let first := earliest (datesOf sales c)
  let flags := historyFlags maxDate (datesOf sales c)
  let segment := addCustomerSegment sales c
  let ly := lyValue sales (maxDate.year - 1) c
  { customer := c
    firstPurchaseDate := first
    lyValue := ly
    flags := flags
    customerSegment := segment
    customerClassLY := addCustomerClass segment ly
    isBlocked := blocked c
    customerStatus := calcStatus (blocked c) first flags maxDate }

inductive BuildError
  | noValidDates
  deriving DecidableEq, Repr

def build (rows : List (SaleRow C K)) (blocked : C → Bool) : Except BuildError (List (CustomerRow C K)) :=
  if rows.filter (·.customer.isSome) = [] then .ok []
  else
    let sales := rows.filterMap SaleRow.sale
    match latest (sales.map (·.orderDate)) with
    | none => .error .noValidDates
    | some maxDate => .ok ((firsts (sales.map (·.customer))).map (customerRow sales maxDate blocked))

/-! ## Dates -/

theorem Date.le_total (a b : Date) : a.le b = true ∨ b.le a = true := by
  simp only [Date.le_iff]
  omega

theorem Date.le_refl (d : Date) : d.le d = true := (Date.le_total d d).elim id id

theorem Date.le_trans {a b c : Date} (hab : a.le b = true) (hbc : b.le c = true) : a.le c = true := by
  simp only [Date.le_iff] at *
  omega

theorem Date.lt_iff {a b : Date} : a.lt b = true ↔ ¬ b.le a = true := by simp [Date.lt]

theorem earliest_eq_none {ds : List Date} (h : earliest ds = none) : ds = [] := by
  cases ds with
  | nil => rfl
  | cons d ds =>
    unfold earliest at h
    split at h <;> simp at h

theorem earliest_spec {ds : List Date} {e : Date} (h : earliest ds = some e) :
    e ∈ ds ∧ ∀ d ∈ ds, e.le d = true := by
  induction ds generalizing e with
  | nil => simp [earliest] at h
  | cons d ds ih =>
    unfold earliest at h
    cases htail : earliest ds with
    | none =>
      obtain rfl := earliest_eq_none htail
      simp only [htail, Option.some.injEq] at h
      subst h
      simpa using Date.le_refl d
    | some e' =>
      obtain ⟨hmem, hle⟩ := ih htail
      simp only [htail, Option.some.injEq] at h
      subst h
      split
      · next hd =>
        refine ⟨List.mem_cons_self, fun x hx => ?_⟩
        rcases List.mem_cons.mp hx with rfl | hx
        · exact Date.le_refl x
        · exact Date.le_trans hd (hle x hx)
      · next hd =>
        refine ⟨List.mem_cons_of_mem _ hmem, fun x hx => ?_⟩
        rcases List.mem_cons.mp hx with rfl | hx
        · exact (Date.le_total e' x).resolve_right hd
        · exact hle x hx

end SalesDashboard.SalesPipeline.Customers
