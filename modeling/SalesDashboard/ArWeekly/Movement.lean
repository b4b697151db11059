import SalesDashboard.ArWeekly.Week
import SalesDashboard.Lib.Grouping

/-! The weekly movement closes: what was overdue at the start is settled, or it is still
there at the end with what has become overdue. -/

namespace SalesDashboard.ArWeekly
open Collections (roundHalfEven)
open Grouping

/-! ## Cents -/

def IsCents (x : ℚ) : Prop := ∃ n : ℤ, x = n / 100

theorem isCents_zero : IsCents 0 := ⟨0, by norm_num⟩

theorem IsCents.add {x y : ℚ} (hx : IsCents x) (hy : IsCents y) : IsCents (x + y) := by
  obtain ⟨m, rfl⟩ := hx
  obtain ⟨n, rfl⟩ := hy
  exact ⟨m + n, by push_cast; ring⟩

theorem IsCents.sub {x y : ℚ} (hx : IsCents x) (hy : IsCents y) : IsCents (x - y) := by
  obtain ⟨m, rfl⟩ := hx
  obtain ⟨n, rfl⟩ := hy
  exact ⟨m - n, by push_cast; ring⟩

theorem isCents_sum {xs : List ℚ} (h : ∀ x ∈ xs, IsCents x) : IsCents xs.sum := by
  induction xs with
  | nil => exact isCents_zero
  | cons x xs ih =>
    rw [List.sum_cons]
    exact (h x List.mem_cons_self).add (ih fun y hy => h y (List.mem_cons_of_mem _ hy))

theorem isCents_sum_map {α : Type} {f : α → ℚ} {xs : List α} (h : ∀ x ∈ xs, IsCents (f x)) :
    IsCents (xs.map f).sum :=
  isCents_sum (List.forall_mem_map.mpr h)

theorem roundHalfEven_cents {x : ℚ} (h : IsCents x) : roundHalfEven 2 x = x := by
  obtain ⟨n, rfl⟩ := h
  have hx : (n : ℚ) / 100 * 10 ^ 2 = n := by norm_num
  unfold roundHalfEven
  simp only [hx, Int.floor_intCast, sub_self]
  norm_num

theorem abs_gt_eps {x : ℚ} (h : IsCents x) : |x| > EPS ↔ x ≠ 0 := by
  obtain ⟨n, rfl⟩ := h
  unfold EPS
  constructor
  · rintro hgt hzero
    rw [hzero, abs_zero] at hgt
    norm_num at hgt
  · intro hne
    have hn : n ≠ 0 := by
      rintro rfl
      exact hne (by norm_num)
    have hone : (1 : ℚ) ≤ |(n : ℚ)| := by exact_mod_cast Int.one_le_abs hn
    rw [abs_div, abs_of_pos (by norm_num : (0 : ℚ) < 100)]
    linarith

theorem gt_eps {x : ℚ} (h : IsCents x) : x > EPS ↔ 0 < x := by
  have habs := abs_gt_eps h
  constructor
  · intro hgt
    have : (0 : ℚ) < EPS := by norm_num [EPS]
    linarith
  · intro hpos
    rw [abs_of_pos hpos] at habs
    exact habs.mpr hpos.ne'

/-! ## What the week is about -/

variable {lines : List Line} {partials : List Partial} {w0 w1 : Int}

/-- Lines with their ids and reconciliations, in cents, of which none credits an invoice;
at the end no invoice is overpaid. -/
structure Movement (lines : List Line) (partials : List Partial) (w0 w1 : Int) : Prop where
  ids : (lines.map (·.lineId)).Nodup
  lineCents : ∀ l ∈ lines, IsCents l.residual
  partialCents : ∀ p ∈ partials, IsCents p.amtDebit ∧ IsCents p.amtCredit
  debitOnly : ∀ l ∈ invoices lines, ∀ p ∈ partials, p.creditLine ≠ some l.lineId
  nonneg : ∀ l ∈ invoices lines, 0 ≤ residualAt partials w1 l
  classes : ∀ p ∈ partials, p.creditClass ∈ ["cash", "credit_note", "other"]
  week : w0 < w1

theorem mem_invoices {l : Line} : l ∈ invoices lines ↔ l ∈ lines ∧ l.kind = "invoice" := by
  unfold invoices
  rw [List.mem_filter, decide_eq_true_eq]

section
variable (h : Movement lines partials w0 w1)
include h

/-- The balance of an invoice line is its open balance and what was settled since. -/
theorem Movement.residualAt_eq {l : Line} (hl : l ∈ invoices lines) (d : Int) : residualAt partials d l =
    if l.date ≤ d then l.residual + addedDebit partials d l.lineId else 0 := by
  have hcredit : addedCredit partials d l.lineId = 0 := by
    unfold addedCredit
    rw [List.filter_eq_nil_iff.mpr fun p hp => by simp [h.debitOnly l hl p hp]]
    rfl
  have hcents : IsCents (l.residual + addedDebit partials d l.lineId) :=
    (h.lineCents l (mem_invoices.mp hl).1).add
      (isCents_sum_map fun p hp => (h.partialCents p (List.mem_of_mem_filter hp)).1)
  unfold residualAt
  simp only [hcredit, sub_zero, roundHalfEven_cents hcents]
  split
  · split
    · rfl
    · next hsmall =>
      rw [abs_gt_eps hcents, not_not] at hsmall
      exact hsmall.symm
  · simp

theorem Movement.residualAt_cents {l : Line} (hl : l ∈ invoices lines) (d : Int) :
    IsCents (residualAt partials d l) := by
  rw [h.residualAt_eq hl]
  split
  · exact (h.lineCents l (mem_invoices.mp hl).1).add
      (isCents_sum_map fun p hp => (h.partialCents p (List.mem_of_mem_filter hp)).1)
  · exact isCents_zero

theorem Movement.overdueAt_iff {l : Line} (hl : l ∈ invoices lines) (d : Int) :
    overdueAt partials d l = true ↔ l.due < d ∧ 0 < residualAt partials d l := by
  unfold overdueAt
  rw [Bool.and_eq_true, decide_eq_true_eq, decide_eq_true_eq, gt_eps (h.residualAt_cents hl d)]

theorem Movement.nodup_invoices : ((invoices lines).map (·.lineId)).Nodup :=
  (List.filter_sublist.map _).nodup h.ids

theorem Movement.mem_startSet {l : Line} (hl : l ∈ invoices lines) :
    l.lineId ∈ startSet lines partials w0 ↔ overdueAt partials w0 l = true := by
  unfold startSet
  rw [List.mem_map]
  constructor
  · rintro ⟨l', hl', hid⟩
    obtain ⟨hmem, hover⟩ := List.mem_filter.mp hl'
    rwa [List.inj_on_of_nodup_map h.nodup_invoices hmem hl hid] at hover
  · exact fun hover => ⟨l, List.mem_filter.mpr ⟨hl, hover⟩, rfl⟩

/-- What the window took from a debit line. -/
theorem Movement.addedDebit_window {l : Line} (hl : l ∈ invoices lines) :
    addedDebit partials w0 l.lineId = addedDebit partials w1 l.lineId +
      ((rowsOf Partial.debitLine (window lines partials w0 w1) (some l.lineId)).map (·.amtDebit)).sum := by
  have hw := h.week
  have hid : l.lineId ∈ (invoices lines).map (·.lineId) := List.mem_map_of_mem hl
  unfold addedDebit
  rw [← sum_filter_add_not (fun p => p.after w1)
    (partials.filter fun p => p.after w0 && decide (p.debitLine = some l.lineId))]
  have hlater : (partials.filter fun p => p.after w0 && decide (p.debitLine = some l.lineId)).filter
      (fun p => p.after w1) = partials.filter fun p => p.after w1 && decide (p.debitLine = some l.lineId) := by
    rw [List.filter_filter]
    refine List.filter_congr fun p _ => ?_
    unfold Partial.after
    cases p.maxDate with
    | none => rfl
    | some day =>
      simp only [Option.any_some]
      by_cases hafter : w1 < day
      · simp [hafter, hw.trans hafter]
      · simp [hafter]
  have hwindow : (partials.filter fun p => p.after w0 && decide (p.debitLine = some l.lineId)).filter
      (fun p => !p.after w1) = rowsOf Partial.debitLine (window lines partials w0 w1) (some l.lineId) := by
    unfold rowsOf window
    rw [List.filter_filter, List.filter_filter]
    refine List.filter_congr fun p _ => ?_
    by_cases hdebit : p.debitLine = some l.lineId
    · unfold Partial.after
      cases p.maxDate with
      | none => simp [hdebit]
      | some day =>
        have hle : decide (day ≤ w1) = !decide (w1 < day) := by
          rw [← decide_not, decide_eq_decide, not_lt]
        simp [hdebit, hid, hle, Bool.and_comm, -List.mem_map]
    · simp [hdebit]
  rw [hlater, hwindow]

/-- A line overdue at the start keeps at the end what the window did not take. -/
theorem Movement.residualAt_start {l : Line} (hl : l ∈ invoices lines)
    (hover : overdueAt partials w0 l = true) : residualAt partials w0 l = residualAt partials w1 l +
      ((rowsOf Partial.debitLine (window lines partials w0 w1) (some l.lineId)).map (·.amtDebit)).sum := by
  have hpos := ((h.overdueAt_iff hl w0).mp hover).2
  have hdate : l.date ≤ w0 := by
    by_contra hlate
    rw [h.residualAt_eq hl, if_neg hlate] at hpos
    exact hpos.false
  rw [h.residualAt_eq hl, h.residualAt_eq hl, if_pos hdate, if_pos (hdate.trans h.week.le),
    h.addedDebit_window hl, add_assoc]

/-- What the window took from the lines overdue at the start, line by line. -/
theorem Movement.sum_onOverdue : (((invoices lines).filter (overdueAt partials w0)).map fun l =>
      ((rowsOf Partial.debitLine (window lines partials w0 w1) (some l.lineId)).map (·.amtDebit)).sum).sum =
    ((onOverdue lines partials w0 w1).map (·.amtDebit)).sum := by
  have hids : (startSet lines partials w0).Nodup := (List.filter_sublist.map _).nodup h.nodup_invoices
  have hvalues := sum_values Partial.debitLine ((startSet lines partials w0).map some)
    (hids.map (Option.some_injective _)) (window lines partials w0 w1) (·.amtDebit)
  unfold onOverdue
  refine Eq.trans ?_ (hvalues.trans (congrArg (fun rows => (rows.map Partial.amtDebit).sum)
    (List.filter_congr fun p _ => ?_)))
  · unfold startSet
    rw [List.map_map, List.map_map]
    rfl
  · cases p.debitLine with
    | none => simp
    | some id => simp

/-- Every settlement of the window is of one class. -/
theorem Movement.sum_classes : ofClass "cash" (onOverdue lines partials w0 w1) +
      ofClass "credit_note" (onOverdue lines partials w0 w1) + ofClass "other" (onOverdue lines partials w0 w1) =
    ((onOverdue lines partials w0 w1).map (·.amtDebit)).sum := by
  have hvalues := sum_values Partial.creditClass ["cash", "credit_note", "other"] (by decide)
    (onOverdue lines partials w0 w1) (·.amtDebit)
  have hall : (onOverdue lines partials w0 w1).filter
      (fun p => decide (p.creditClass ∈ ["cash", "credit_note", "other"])) = onOverdue lines partials w0 w1 :=
    List.filter_eq_self.mpr fun p hp => decide_eq_true
      (h.classes p (List.mem_of_mem_filter (List.mem_of_mem_filter hp)))
  rw [hall] at hvalues
  rw [← hvalues]
  simp only [List.map_cons, List.map_nil, List.sum_cons, List.sum_nil, add_zero, ← add_assoc]
  rfl

/-- The balance at the start is the balance left at the end and what the window took. -/
theorem Movement.sum_start :
    (((invoices lines).filter (overdueAt partials w0)).map (residualAt partials w0)).sum =
      (((invoices lines).filter (overdueAt partials w0)).map (residualAt partials w1)).sum +
        ((onOverdue lines partials w0 w1).map (·.amtDebit)).sum := by
  rw [← h.sum_onOverdue, ← List.sum_map_add]
  refine congrArg List.sum (List.map_congr_left fun l hl => ?_)
  obtain ⟨hinv, hover⟩ := List.mem_filter.mp hl
  exact h.residualAt_start hinv hover

/-- The overdue at the end was overdue at the start and not settled, or it is new. -/
theorem Movement.sum_end :
    (((invoices lines).filter (overdueAt partials w1)).map (residualAt partials w1)).sum =
      (((invoices lines).filter (overdueAt partials w0)).map (residualAt partials w1)).sum +
        ((newlyOverdue lines partials w0 w1).map (residualAt partials w1)).sum := by
  have hsettled : ∀ l ∈ ((invoices lines).filter (overdueAt partials w0)).filter
      (fun l => !overdueAt partials w1 l), residualAt partials w1 l = 0 := by
    intro l hl
    obtain ⟨hl, hnot⟩ := List.mem_filter.mp hl
    obtain ⟨hinv, hover⟩ := List.mem_filter.mp hl
    have hdue := ((h.overdueAt_iff hinv w0).mp hover).1
    rw [Bool.not_eq_true', Bool.eq_false_iff, ne_eq, h.overdueAt_iff hinv] at hnot
    have hle : ¬ 0 < residualAt partials w1 l := fun hpos => hnot ⟨hdue.trans h.week, hpos⟩
    exact le_antisymm (not_lt.mp hle) (h.nonneg l hinv)
  have hzero : ((((invoices lines).filter (overdueAt partials w0)).filter
      (fun l => !overdueAt partials w1 l)).map (residualAt partials w1)).sum = 0 :=
    List.sum_eq_zero (List.forall_mem_map.mpr hsettled)
  have hnew : ((invoices lines).filter (overdueAt partials w1)).filter (fun l => !overdueAt partials w0 l) =
      newlyOverdue lines partials w0 w1 := by
    unfold newlyOverdue
    rw [List.filter_filter]
    refine List.filter_congr fun l hl => ?_
    have hmem : decide (l.lineId ∈ startSet lines partials w0) = overdueAt partials w0 l := by
      rw [Bool.eq_iff_iff, decide_eq_true_eq]
      exact h.mem_startSet hl
    rw [hmem, Bool.and_comm]
  rw [← sum_filter_add_not (overdueAt partials w0) ((invoices lines).filter (overdueAt partials w1)), hnew,
    ← sum_filter_add_not (overdueAt partials w1) ((invoices lines).filter (overdueAt partials w0)), hzero,
    add_zero, List.filter_comm]

end

/-! ## The movement of the week -/

/-- The cash of the window on invoices that were not overdue at the start. -/
def cashElsewhere (lines : List Line) (partials : List Partial) (w0 w1 : Int) : ℚ :=
  ofClass "cash" ((window lines partials w0 w1).filter fun p =>
    !p.debitLine.any fun id => decide (id ∈ startSet lines partials w0))

/-- Nothing is unexplained, the movements lead from the start to the end, what remains of
the starting overdue is its balance at the end, and the cash beyond it is on the other
invoices. -/
def WeekCloses (lines : List Line) (partials : List Partial) (w0 w1 : Int) (w : WeekResult) : Prop :=
  w.unexplained = 0 ∧
    w.startOverdue - w.collectedOverdue - w.creditNotesOverdue - w.otherOverdue + w.newOverdue =
      w.endOverdue ∧
    w.remaining = (((invoices lines).filter (overdueAt partials w0)).map (residualAt partials w1)).sum ∧
    w.collectedTotal = w.collectedOverdue + cashElsewhere lines partials w0 w1 ∧
    ((∀ p ∈ window lines partials w0 w1, p.creditClass = "cash" → 0 ≤ p.amtDebit) →
      w.collectedOverdue ≤ w.collectedTotal)

theorem ofClass_filter (p : Partial → Bool) (creditClass : String) (rows : List Partial) :
    ofClass creditClass (rows.filter p) + ofClass creditClass (rows.filter fun x => !p x) =
      ofClass creditClass rows := by
  unfold ofClass
  rw [List.filter_comm, List.filter_comm _ (fun x => !p x)]
  exact sum_filter_add_not p _ _

section
variable (h : Movement lines partials w0 w1)
include h

theorem Movement.ofClass_cents (creditClass : String) {rows : List Partial} (hrows : ∀ p ∈ rows, p ∈ partials) :
    IsCents (ofClass creditClass rows) :=
  isCents_sum_map fun p hp => (h.partialCents p (hrows p (List.mem_of_mem_filter hp))).1

theorem Movement.sum_residualAt_cents (p : Line → Bool) (d : Int) :
    IsCents (((invoices lines).filter p).map (residualAt partials d)).sum :=
  isCents_sum_map fun _ hl => h.residualAt_cents (List.mem_of_mem_filter hl) d

/-- **The week closes** over whatever lines and settlements. -/
theorem weekResult_closes (targetPct : ℚ) (targetOverride : Option ℚ) :
    WeekCloses lines partials w0 w1 (weekResult lines partials w0 w1 targetPct targetOverride) := by
  have hwin : ∀ p ∈ window lines partials w0 w1, p ∈ partials := fun p hp => List.mem_of_mem_filter hp
  have hon : ∀ p ∈ onOverdue lines partials w0 w1, p ∈ partials := fun p hp =>
    hwin p (List.mem_of_mem_filter hp)
  have hcash := h.ofClass_cents "cash" hon
  have hcn := h.ofClass_cents "credit_note" hon
  have hother := h.ofClass_cents "other" hon
  have htotal := h.ofClass_cents "cash" hwin
  have hstart := h.sum_residualAt_cents (overdueAt partials w0) w0
  have hstop := h.sum_residualAt_cents (overdueAt partials w1) w1
  have hnew := h.sum_residualAt_cents
    (fun l => overdueAt partials w1 l && !decide (l.lineId ∈ startSet lines partials w0)) w1
  have hclasses := h.sum_classes
  have hbegin := h.sum_start
  have hend := h.sum_end
  have helsewhere : ofClass "cash" (onOverdue lines partials w0 w1) + cashElsewhere lines partials w0 w1 =
      ofClass "cash" (window lines partials w0 w1) := ofClass_filter _ _ _
  unfold newlyOverdue at hend
  unfold WeekCloses WeekResult.remaining WeekResult.adjustments weekResult newlyOverdue
  simp only [roundHalfEven_cents hcash, roundHalfEven_cents hcn, roundHalfEven_cents hother,
    roundHalfEven_cents htotal, roundHalfEven_cents hstart, roundHalfEven_cents hstop,
    roundHalfEven_cents hnew, roundHalfEven_cents (hcn.add hother),
    roundHalfEven_cents ((hstart.sub hcash).sub (hcn.add hother)),
    roundHalfEven_cents (((((hstart.sub hcash).sub hcn).sub hother).add hnew).sub hstop)]
  refine ⟨by linarith, by linarith, by linarith, helsewhere.symm, ?_⟩
  intro hnonneg
  have hle : 0 ≤ cashElsewhere lines partials w0 w1 := by
    unfold cashElsewhere ofClass
    refine List.sum_nonneg (List.forall_mem_map.mpr fun p hp => ?_)
    obtain ⟨hp, hclass⟩ := List.mem_filter.mp hp
    exact hnonneg p (List.mem_of_mem_filter hp) (of_decide_eq_true hclass)
  linarith

end

/-! ## Two weeks -/

def sampleLines : List Line :=
  [⟨1, 11, "invoice", 1, 5, 40⟩, ⟨2, 12, "invoice", 3, 9, 25⟩, ⟨3, 13, "payment", 10, 10, -10⟩]

def samplePartials : List Partial :=
  [⟨some 1, some 3, 60, 60, some 10, "cash"⟩, ⟨some 2, some 3, 15, 15, some 12, "cash"⟩]

theorem sample_movement : Movement sampleLines samplePartials 7 14 where
  ids := by decide
  lineCents := by
    intro l hl
    fin_cases hl
    · exact ⟨4000, by norm_num⟩
    · exact ⟨2500, by norm_num⟩
    · exact ⟨-1000, by norm_num⟩
  partialCents := by
    intro p hp
    fin_cases hp
    · exact ⟨⟨6000, by norm_num⟩, 6000, by norm_num⟩
    · exact ⟨⟨1500, by norm_num⟩, 1500, by norm_num⟩
  debitOnly := by decide
  nonneg := by decide +kernel
  classes := by decide
  week := by decide

theorem weekResult_closes_sample :
    let w := weekResult sampleLines samplePartials 7 14 50 none
    w.unexplained = 0 ∧ w.remaining = 40 ∧ w.collectedOverdue ≤ w.collectedTotal := by
  obtain ⟨hclosed, _, hleft, _, hle⟩ := weekResult_closes sample_movement 50 none
  refine ⟨hclosed, hleft.trans ?_, hle ?_⟩
  · decide +kernel
  · decide +kernel

/-- An invoice not yet due, with a cash settlement of a negative amount. -/
def refundedLines : List Line := [⟨1, 11, "invoice", 1, 30, 60⟩]

def refundedPartials : List Partial := [⟨some 1, some 2, -10, -10, some 10, "cash"⟩]

theorem refunded_movement : Movement refundedLines refundedPartials 7 14 where
  ids := by decide
  lineCents := by
    intro l hl
    fin_cases hl
    exact ⟨6000, by norm_num⟩
  partialCents := by
    intro p hp
    fin_cases hp
    exact ⟨⟨-1000, by norm_num⟩, -1000, by norm_num⟩
  debitOnly := by decide
  nonneg := by decide +kernel
  classes := by decide
  week := by decide

theorem refunded_collects_less : Movement refundedLines refundedPartials 7 14 ∧
    ¬ (weekResult refundedLines refundedPartials 7 14 50 none).collectedOverdue ≤
      (weekResult refundedLines refundedPartials 7 14 50 none).collectedTotal :=
  ⟨refunded_movement, by decide +kernel⟩

end SalesDashboard.ArWeekly
