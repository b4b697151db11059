import SalesDashboard.SalesPipeline.InvoiceSummary
import Mathlib

/-! The classes against the totals they are of. The class of an order never falls when its
total grows; the class of a customer does where the total enters one of the two gaps that
the closed ranges leave. -/

namespace SalesDashboard.SalesPipeline.Customers
open Python Tachometer

variable {C O K : Type*} [DecidableEq C] [DecidableEq O] [Field K] [LinearOrder K]

/-- Neither class is missing and the second is at least as high. -/
def NotLower (a b : Option ValueClass) : Prop :=
  ∃ x y, a = some x ∧ b = some y ∧ x.height ≤ y.height

section Order

variable [IsStrictOrderedRing K]

theorem classify_gap {value : K} (h : InGap value) : classify value = .D := by
  unfold classify
  rcases h with ⟨h₁, h₂⟩ | ⟨h₁, h₂⟩
  · rw [if_neg (by intro h; linarith), if_neg (by intro h; linarith [h.1]),
      if_neg (by intro h; linarith [h.2])]
  · rw [if_neg (by intro h; linarith), if_neg (by intro h; linarith [h.2]),
      if_neg (by intro h; linarith [h.2])]

/-- The lowest class is that of the small totals and of the gaps. -/
theorem classify_height_eq_zero {value : K} :
    (classify value).height = 0 ↔ value < 60000 ∨ InGap value := by
  constructor
  · intro h
    unfold classify at h
    by_contra hno
    rw [not_or, not_lt, InGap, not_or, not_and_or, not_and_or] at hno
    simp only [not_lt, not_le] at hno
    obtain ⟨h60, hlow, hhigh⟩ := hno
    split at h
    · simp [ValueClass.height] at h
    · next hA =>
      split at h
      · simp [ValueClass.height] at h
      · next hB =>
        split at h
        · simp [ValueClass.height] at h
        · next hC =>
          rw [not_and_or, not_le, not_le] at hB hC
          rcases hC with hC | hC
          · linarith
          · rcases hlow with hlow | hlow
            · linarith
            · rcases hB with hB | hB
              · linarith
              · rcases hhigh with hhigh | hhigh <;> linarith
  · rintro (h | h)
    · unfold classify
      rw [if_neg (by intro h'; linarith), if_neg (by intro h'; linarith [h'.1]),
        if_neg (by intro h'; linarith [h'.1])]
      rfl
    · rw [classify_gap h]
      rfl

theorem height_le_three (x : ValueClass) : x.height ≤ 3 := by cases x <;> decide

omit [IsStrictOrderedRing K] in
theorem classify_height_le_two {v : K} (h : v ≤ 600000) : (classify v).height ≤ 2 := by
  unfold classify
  rw [if_neg (not_lt.mpr h)]
  split_ifs <;> decide

theorem classify_height_le_one {v : K} (h : v < 300000) : (classify v).height ≤ 1 := by
  unfold classify
  rw [if_neg (by intro h'; linarith), if_neg (by intro h'; linarith [h'.1])]
  split_ifs <;> decide

omit [IsStrictOrderedRing K] in
theorem classify_A {w : K} (h : 600000 < w) : classify w = .A := if_pos h

theorem classify_B {w : K} (hlo : 300000 ≤ w) (hhi : w ≤ 599999) : classify w = .B := by
  unfold classify
  rw [if_neg (by intro h; linarith), if_pos ⟨hlo, hhi⟩]

theorem classify_C {w : K} (hlo : 60000 ≤ w) (hhi : w ≤ 299999) : classify w = .C := by
  unfold classify
  rw [if_neg (by intro h; linarith), if_neg (by intro h; linarith [h.1]), if_pos ⟨hlo, hhi⟩]

/-- Outside the gaps a greater total has no lower class. -/
theorem classify_mono {v w : K} (hvw : v ≤ w) (hw : ¬ InGap w) :
    (classify v).height ≤ (classify w).height := by
  rw [InGap, not_or, not_and_or, not_and_or] at hw
  simp only [not_lt, not_le] at hw
  obtain ⟨hlow, hhigh⟩ := hw
  rcases hhigh with h599 | hA
  · rcases hlow with h299 | hB
    · rcases lt_or_ge w 60000 with h60 | hC
      · have hv : (classify v).height = 0 := classify_height_eq_zero.mpr (Or.inl (lt_of_le_of_lt hvw h60))
        omega
      · rw [classify_C hC h299]
        exact classify_height_le_one (by linarith)
    · rw [classify_B hB h599]
      exact classify_height_le_two (by linarith)
  · rw [classify_A hA]
    exact height_le_three _

theorem classify_mono_iff {v w : K} (hvw : v ≤ w) :
    (classify v).height ≤ (classify w).height ↔ (InGap w → v < 60000 ∨ InGap v) := by
  constructor
  · intro h hw
    rw [classify_gap hw] at h
    exact classify_height_eq_zero.mp (Nat.le_zero.mp h)
  · intro h
    by_cases hw : InGap w
    · rw [classify_height_eq_zero.mpr (h hw)]
      exact Nat.zero_le _
    · exact classify_mono hvw hw

omit [IsStrictOrderedRing K] in
theorem classifyInvoice_height_le_two {v : K} (h : v ≤ 50000) : (classifyInvoice v).height ≤ 2 := by
  unfold classifyInvoice
  rw [if_neg (not_lt.mpr h)]
  split_ifs <;> decide

theorem classifyInvoice_height_le_one {v : K} (h : v < 25000) : (classifyInvoice v).height ≤ 1 := by
  unfold classifyInvoice
  rw [if_neg (by intro h'; linarith), if_neg (by intro h'; linarith [h'.1])]
  split_ifs <;> decide

theorem classifyInvoice_D {v : K} (h : v < 5000) : classifyInvoice v = .D := by
  unfold classifyInvoice
  rw [if_neg (by intro h'; linarith), if_neg (by intro h'; linarith [h'.1]),
    if_neg (by intro h'; linarith [h'.1])]

/-- The ranges of an order meet, so no total is left out. -/
theorem classifyInvoice_mono {v w : K} (hvw : v ≤ w) :
    (classifyInvoice v).height ≤ (classifyInvoice w).height := by
  rcases lt_or_ge 50000 w with hA | hA
  · rw [show classifyInvoice w = .A from if_pos hA]
    exact height_le_three _
  · rcases lt_or_ge w 25000 with h25 | hB
    · rcases lt_or_ge w 5000 with h5 | hC
      · rw [classifyInvoice_D (lt_of_le_of_lt hvw h5)]
        exact Nat.zero_le _
      · have hw : classifyInvoice w = .C := by
          unfold classifyInvoice
          rw [if_neg (not_lt.mpr hA), if_neg (by intro h; linarith [h.1]), if_pos ⟨hC, h25⟩]
        rw [hw]
        exact classifyInvoice_height_le_one (by linarith)
    · have hw : classifyInvoice w = .B := by
        unfold classifyInvoice
        rw [if_neg (not_lt.mpr hA), if_pos ⟨hB, hA⟩]
      rw [hw]
      exact classifyInvoice_height_le_two (by linarith)

end Order

/-! ## The dimension -/

theorem mem_build {rows : List (SaleRow C K)} {blocked : C → Bool} {dim : List (CustomerRow C K)}
    (hdim : build rows blocked = .ok dim) {r : CustomerRow C K} (hr : r ∈ dim) :
    ∃ maxDate, r = customerRow (rows.filterMap SaleRow.sale) maxDate blocked r.customer := by
  unfold build at hdim
  split at hdim
  · cases hdim
    simp at hr
  · dsimp only at hdim
    split at hdim
    · cases hdim
    · next maxDate hmax =>
      cases hdim
      obtain ⟨c, -, rfl⟩ := List.mem_map.mp hr
      exact ⟨maxDate, rfl⟩

theorem customerClassLY_of_mem {rows : List (SaleRow C K)} {blocked : C → Bool} {dim : List (CustomerRow C K)}
    (hdim : build rows blocked = .ok dim) {r : CustomerRow C K} (hr : r ∈ dim)
    (hseg : r.customerSegment = .B2B ∨ r.customerSegment = .B2C) :
    r.customerClassLY = some (classify r.lyValue) := by
  obtain ⟨maxDate, hrow⟩ := mem_build hdim hr
  have hclass : r.customerClassLY = addCustomerClass r.customerSegment r.lyValue := by
    rw [hrow]
    rfl
  rw [hclass, addCustomerClass, if_pos hseg]

theorem notLower_some {x y : ValueClass} : NotLower (some x) (some y) ↔ x.height ≤ y.height := by
  simp [NotLower]

variable [IsStrictOrderedRing K]

/-- Two rows of a customer of the segment B2B or B2C, and any two orders: the classes follow
the totals, except where the greater one is in a gap. -/
theorem classes_monotone_iff {rows rows' : List (SaleRow C K)} {blocked blocked' : C → Bool}
    {dim dim' : List (CustomerRow C K)} (hdim : build rows blocked = .ok dim)
    (hdim' : build rows' blocked' = .ok dim') {r r' : CustomerRow C K} (hr : r ∈ dim) (hr' : r' ∈ dim')
    (hseg : r.customerSegment = .B2B ∨ r.customerSegment = .B2C)
    (hseg' : r'.customerSegment = .B2B ∨ r'.customerSegment = .B2C) (hle : r.lyValue ≤ r'.lyValue) :
    (NotLower r.customerClassLY r'.customerClassLY ∧
      ∀ (df df' : List (OrderLine O K)) (l l' : OrderLine O K) (f f' : InvoiceFigures O K),
        (l, some f) ∈ addInvoiceSummary df → (l', some f') ∈ addInvoiceSummary df' →
        invoicedTotal df f.orderNumber ≤ invoicedTotal df' f'.orderNumber →
        NotLower (some f.invoiceClass) (some f'.invoiceClass)) ↔
      (InGap r'.lyValue → r.lyValue < 60000 ∨ InGap r.lyValue) := by
  rw [customerClassLY_of_mem hdim hr hseg, customerClassLY_of_mem hdim' hr' hseg', notLower_some,
    classify_mono_iff hle, and_iff_left_iff_imp]
  intro _ df df' l l' f f' hf hf' htotal
  obtain ⟨-, hv, hc⟩ := figures_of_mem hf
  obtain ⟨-, hv', hc'⟩ := figures_of_mem hf'
  rw [notLower_some, hc, hc', hv, hv']
  exact classifyInvoice_mono htotal

/-! ## A total in a gap -/

/-- A B2B customer with one sale of this value last year and one without a value since. -/
def boughtFor (value : ℚ) : List (SaleRow Nat ℚ) :=
  [⟨some 1, some (dateOnlyUTC 2025 3 1 (by decide) (firstDay ..)), some value, some "B2B"⟩,
    ⟨some 1, some (dateOnlyUTC 2026 1 1 january_bounds (firstDay ..)), none, some "B2B"⟩]

theorem build_boughtFor (value : ℚ) :
    build (boughtFor value) (fun _ => false) =
      .ok [customerRow ((boughtFor value).filterMap SaleRow.sale)
        (dateOnlyUTC 2026 1 1 january_bounds (firstDay ..)) (fun _ => false) 1] := by
  rfl

theorem segment_boughtFor (value : ℚ) (maxDate : Date) :
    (customerRow ((boughtFor value).filterMap SaleRow.sale) maxDate (fun _ => false) 1).customerSegment = .B2B := by
  have hword : upper (strip "B2B") = "B2B" := by
    rw [← String.toList_inj, upper, String.toList_map, strip, String.toList_ofList]
    decide
  simp [customerRow, addCustomerSegment, boughtFor, SaleRow.sale, hword]

theorem lyValue_boughtFor (value : ℚ) :
    (customerRow ((boughtFor value).filterMap SaleRow.sale)
      (dateOnlyUTC 2026 1 1 january_bounds (firstDay ..)) (fun _ => false) 1).lyValue = value := by
  simp [customerRow, lyValue, boughtFor, SaleRow.sale, dateOnlyUTC, utcYear]

/-- The class falls from C to D when the total grows from 299999 by one half. -/
theorem class_lower_in_gap :
    ∃ (dim dim' : List (CustomerRow Nat ℚ)) (r r' : CustomerRow Nat ℚ),
      build (boughtFor 299999) (fun _ => false) = .ok dim ∧
        build (boughtFor (299999 + 1 / 2)) (fun _ => false) = .ok dim' ∧ r ∈ dim ∧ r' ∈ dim' ∧
        r.customerSegment = .B2B ∧ r'.customerSegment = .B2B ∧ r.lyValue ≤ r'.lyValue ∧
        ¬ NotLower r.customerClassLY r'.customerClassLY := by
  refine ⟨_, _, _, _, build_boughtFor _, build_boughtFor _, List.mem_singleton_self _,
    List.mem_singleton_self _, segment_boughtFor _ _, segment_boughtFor _ _, ?_, ?_⟩
  · rw [lyValue_boughtFor, lyValue_boughtFor]
    norm_num
  · rw [customerClassLY_of_mem (build_boughtFor _) (List.mem_singleton_self _) (Or.inl (segment_boughtFor _ _)),
      customerClassLY_of_mem (build_boughtFor _) (List.mem_singleton_self _) (Or.inl (segment_boughtFor _ _)),
      lyValue_boughtFor, lyValue_boughtFor, notLower_some, classify_C (by norm_num) (by norm_num),
      classify_gap (Or.inl ⟨by norm_num, by norm_num⟩)]
    decide

theorem classes_monotone_iff_boughtFor :
    ∃ r r' : CustomerRow Nat ℚ, r.lyValue = 299999 ∧ r'.lyValue = 300000 ∧
      ((NotLower r.customerClassLY r'.customerClassLY ∧
        ∀ (df df' : List (OrderLine Nat ℚ)) (l l' : OrderLine Nat ℚ) (f f' : InvoiceFigures Nat ℚ),
          (l, some f) ∈ addInvoiceSummary df → (l', some f') ∈ addInvoiceSummary df' →
          invoicedTotal df f.orderNumber ≤ invoicedTotal df' f'.orderNumber →
          NotLower (some f.invoiceClass) (some f'.invoiceClass)) ↔
        (InGap r'.lyValue → r.lyValue < 60000 ∨ InGap r.lyValue)) := by
  refine ⟨_, _, lyValue_boughtFor 299999, lyValue_boughtFor 300000,
    classes_monotone_iff (build_boughtFor 299999) (build_boughtFor 300000) (List.mem_singleton_self _)
      (List.mem_singleton_self _) (Or.inl (segment_boughtFor _ _)) (Or.inl (segment_boughtFor _ _)) ?_⟩
  rw [lyValue_boughtFor, lyValue_boughtFor]
  norm_num

end SalesDashboard.SalesPipeline.Customers
