import SalesDashboard.Lib.Grouping
import SalesDashboard.SalesPipeline.CustomerDimension
import Mathlib

/-! `add_invoice_summary` (`legacy_transform.py`): every sales line gets the invoiced value
of its order, the class of that value and the year of the order. -/

namespace SalesDashboard.SalesPipeline.Customers
open Grouping Python Tachometer

structure OrderLine (O K : Type*) where
  orderNumber : Option O
  value : Option K
  invoiceStatus : Option String
  orderDate : Option Date

/-- A line of `base`: with an order, a value and the status "invoiced". -/
structure InvoicedLine (O K : Type*) where
  orderNumber : O
  value : K
  orderDate : Option Date

structure InvoiceFigures (O K : Type*) where
  orderNumber : O
  invoiceValue : K
  invoiceClass : ValueClass
  invoiceYear : Option Nat

variable {O K : Type*}

def OrderLine.isInvoiced (r : OrderLine O K) : Bool :=
  r.invoiceStatus.any fun s => decide (lower (strip s) = "invoiced")

def OrderLine.invoiced (r : OrderLine O K) : Option (InvoicedLine O K) :=
  if r.isInvoiced then
    r.orderNumber.bind fun o => r.value.map fun v => ⟨o, v, r.orderDate⟩
  else none

def base (df : List (OrderLine O K)) : List (InvoicedLine O K) := df.filterMap OrderLine.invoiced

variable [Field K] [LinearOrder K]

/-- `_classify_invoice`. -/
def classifyInvoice (value : K) : ValueClass :=
  if 50000 < value then .A
  else if 25000 ≤ value ∧ value ≤ 50000 then .B
  else if 5000 ≤ value ∧ value < 25000 then .C
  else .D

/-- One row of `invoice_summary`. -/
def figuresOf (g : O × List (InvoicedLine O K)) : InvoiceFigures O K :=
  let invoiceValue := (g.2.map (·.value)).sum
  { orderNumber := g.1
    invoiceValue := invoiceValue
    invoiceClass := classifyInvoice invoiceValue
    invoiceYear := (latest (g.2.filterMap (·.orderDate))).map (·.year) }

variable [DecidableEq O]

def invoiceSummary (df : List (OrderLine O K)) : List (InvoiceFigures O K) :=
  (groups (·.orderNumber) (base df)).map figuresOf

/-- The left join of the lines with the summary. -/
def addInvoiceSummary (df : List (OrderLine O K)) : List (OrderLine O K × Option (InvoiceFigures O K)) :=
  df.map fun r => (r, r.orderNumber.bind fun o =>
    (invoiceSummary df).find? fun f => decide (f.orderNumber = o))

/-- The sum of the invoiced lines of an order. -/
def invoicedTotal (df : List (OrderLine O K)) (o : O) : K :=
  ((rowsOf (·.orderNumber) (base df) o).map (·.value)).sum

theorem figures_of_mem {df : List (OrderLine O K)} {r : OrderLine O K} {f : InvoiceFigures O K}
    (h : (r, some f) ∈ addInvoiceSummary df) :
    r.orderNumber = some f.orderNumber ∧ f.invoiceValue = invoicedTotal df f.orderNumber ∧
      f.invoiceClass = classifyInvoice f.invoiceValue := by
  obtain ⟨r', -, hr⟩ := List.mem_map.mp h
  obtain ⟨rfl, hf⟩ := Prod.mk.injEq .. ▸ hr
  obtain ⟨o, ho, hfind⟩ := Option.bind_eq_some_iff.mp hf
  have heq : f.orderNumber = o := by
    have h := List.find?_some hfind
    exact of_decide_eq_true h
  obtain ⟨g, hg, rfl⟩ := List.mem_map.mp (List.mem_of_find?_eq_some hfind)
  obtain ⟨k, -, rfl⟩ := List.mem_map.mp hg
  exact ⟨heq ▸ ho, rfl, rfl⟩

end SalesDashboard.SalesPipeline.Customers
