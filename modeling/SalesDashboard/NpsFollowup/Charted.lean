import SalesDashboard.NpsFollowup.Summary
import Mathlib

/-! What the follow-up charts count: the state after the pass over the rows, as counts over
the rows, and what the tables promise of these. -/

namespace SalesDashboard.NpsFollowup
open Firsts Grouping Keyed Tables

variable {list rows : List FollowupRow} {r r' : FollowupRow} {now : Int}

/-! ## The pass over the rows -/

/-- The case that a row adds to the charts, with its status. -/
def chartedCase (r : FollowupRow) : Option (SummaryCase × FollowupStatus) :=
  r.followup.bind fun c => if c.stage = .historical then none else c.status.map fun status => (c, status)

def isCharted (r : FollowupRow) : Bool := (chartedCase r).isSome

def chartedStatus (r : FollowupRow) : Option FollowupStatus := (chartedCase r).map Prod.snd

def chartedStage (r : FollowupRow) : Option Stage := (chartedCase r).map fun c => c.1.stage

/-- What a row adds to the ageing. -/
def slaCaseOf (now : Int) (r : FollowupRow) : Option AgeingCase :=
  (chartedCase r).bind fun c => if c.1.stage = .rejected then none else some (slaCase now c.1)

theorem countRow_cases (now : Int) (s : SummaryState) (r : FollowupRow) :
    (r.followup = none ∧ countRow now s r = { s with noCase := s.noCase + 1 }) ∨
    (r.followup ≠ none ∧ chartedCase r = none ∧ countRow now s r = { s with historical := s.historical + 1 }) ∨
    (∃ c status, r.followup = some c ∧ chartedCase r = some (c, status) ∧
      countRow now s r = countCase now s r c status) := by
  unfold countRow chartedCase
  cases hcase : r.followup with
  | none => exact .inl ⟨rfl, rfl⟩
  | some c =>
    right
    by_cases hhistorical : c.stage = .historical
    · left
      simp [hhistorical]
    · cases hstatus : c.status with
      | none =>
        left
        simp [hhistorical, hstatus]
      | some status =>
        right
        exact ⟨c, status, rfl, by simp [hhistorical, hstatus], by simp [hhistorical, hstatus]⟩

/-- What the state says of the rows behind it. -/
structure Counted (now : Int) (list : List FollowupRow) (s : SummaryState) : Prop where
  noCase : s.noCase = list.countP fun r => r.followup.isNone
  historical : s.historical = list.countP fun r => r.followup.isSome && (chartedCase r).isNone
  statuses : ∀ status, s.statuses status = list.countP fun r => decide (chartedStatus r = some status)
  stages : ∀ stage, s.stages stage = list.countP fun r => decide (chartedStage r = some stage)
  rejected : s.rejected = list.countP fun r => decide (chartedStage r = some .rejected)
  slaCases : s.slaCases = list.filterMap (slaCaseOf now)
  reasons : s.reasons = upserts Prod.fst reasonKey (fun r e => (e.1, countReason e.2 r))
    (fun r => (reasonKey r, countReason none r)) [] (list.filter isCharted)

/-- One row more. -/
theorem Counted.step {s : SummaryState} (h : Counted now list s) (r : FollowupRow) :
    Counted now (list ++ [r]) (countRow now s r) := by
  have hcount : ∀ p : FollowupRow → Bool, (list ++ [r]).countP p = list.countP p + if p r then 1 else 0 :=
    fun p => by rw [List.countP_append, List.countP_singleton]
  rcases countRow_cases now s r with ⟨hcase, heq⟩ | ⟨hcase, hcharted, heq⟩ | ⟨c, status, hcase, hcharted, heq⟩
  · have hcharted : chartedCase r = none := by simp [chartedCase, hcase]
    rw [heq]
    constructor
    · simp [hcount, hcase, h.noCase]
    · simp [hcount, hcase, h.historical]
    · simp [hcount, chartedStatus, hcharted, h.statuses]
    · simp [hcount, chartedStage, hcharted, h.stages]
    · simp [hcount, chartedStage, hcharted, h.rejected]
    · simp [slaCaseOf, hcharted, h.slaCases]
    · simp [isCharted, hcharted, h.reasons]
  · obtain ⟨c, hc⟩ := Option.ne_none_iff_exists'.mp hcase
    rw [heq]
    constructor
    · simp [hcount, hc, h.noCase]
    · simp [hcount, hc, hcharted, h.historical]
    · simp [hcount, chartedStatus, hcharted, h.statuses]
    · simp [hcount, chartedStage, hcharted, h.stages]
    · simp [hcount, chartedStage, hcharted, h.rejected]
    · simp [slaCaseOf, hcharted, h.slaCases]
    · simp [isCharted, hcharted, h.reasons]
  · rw [heq]
    constructor
    · simp [hcount, hcase, countCase, h.noCase]
    · simp [hcount, hcharted, countCase, h.historical]
    · intro status'
      simp only [countCase, hcount, chartedStatus, hcharted, Option.map_some, Function.update_apply]
      by_cases hs : status' = status
      · subst hs
        simp [h.statuses, chartedStatus]
      · simp [hs, Ne.symm hs, h.statuses, chartedStatus]
    · intro stage
      simp only [countCase, hcount, chartedStage, hcharted, Option.map_some, Function.update_apply]
      by_cases hs : stage = c.stage
      · subst hs
        simp [h.stages, chartedStage]
      · simp [hs, Ne.symm hs, h.stages, chartedStage]
    · simp only [countCase, hcount, chartedStage, hcharted, Option.map_some]
      by_cases hs : c.stage = .rejected
      · simp [hs, h.rejected, chartedStage]
      · simp [hs, h.rejected, chartedStage]
    · simp only [countCase, List.filterMap_append, h.slaCases]
      by_cases hs : c.stage = .rejected
      · simp [hs, hcharted, slaCaseOf]
      · simp [hs, hcharted, slaCaseOf]
    · have hfilter : (list ++ [r]).filter isCharted = list.filter isCharted ++ [r] := by
        simp [List.filter_append, isCharted, hcharted]
      rw [hfilter, upserts, List.foldl_append]
      show upsert Prod.fst (reasonKey r) _ _ s.reasons = _
      rw [h.reasons]
      rfl

theorem counted (now : Int) (list : List FollowupRow) :
    Counted now list (list.foldl (countRow now) SummaryState.start) := by
  induction list using List.reverseRecOn with
  | nil => exact ⟨rfl, rfl, fun _ => rfl, fun _ => rfl, rfl, rfl, rfl⟩
  | append_singleton list r ih =>
    rw [List.foldl_append]
    exact ih.step r

/-! ## The counts -/

theorem isCharted_status (list : List FollowupRow) :
    (list.countP fun r => decide (chartedStatus r = some .OPEN)) +
      (list.countP fun r => decide (chartedStatus r = some .CLOSE)) +
      (list.countP fun r => decide (chartedStatus r = some .DISPUTED)) = list.countP isCharted := by
  have hkeys : [some FollowupStatus.OPEN, some .CLOSE, some .DISPUTED].Nodup := by decide
  have hsum := Counts.sum_countP_keys chartedStatus (fun _ => true) hkeys list
  simp only [Bool.true_and, List.map_cons, List.map_nil, List.sum_cons, List.sum_nil] at hsum
  refine Eq.trans (by omega) (hsum.trans (List.countP_congr fun r _ => ?_))
  unfold chartedStatus isCharted
  cases chartedCase r with
  | none => simp
  | some c => rcases c with ⟨c, status⟩; cases status <;> simp

/-- A row has no case, one without a status, or one that the charts count. -/
theorem length_eq_parts (list : List FollowupRow) : list.length = list.countP isCharted +
    (list.countP fun r => r.followup.isSome && (chartedCase r).isNone) +
    list.countP fun r => r.followup.isNone := by
  induction list with
  | nil => rfl
  | cons r list ih =>
    simp only [List.length_cons, List.countP_cons, isCharted]
    cases hcase : r.followup with
    | none =>
      have hnone : chartedCase r = none := by simp [chartedCase, hcase]
      simp [hnone]
      omega
    | some c =>
      have hnone : (chartedCase r).isNone = !(chartedCase r).isSome := by cases chartedCase r <;> rfl
      by_cases hsome : (chartedCase r).isSome = true
      · simp [hsome, hnone]
        omega
      · simp [hsome, hnone]
        omega

/-! ## The groups of the reasons -/

theorem head_of_mem_keys {κ : Type} [DecidableEq κ] {key : FollowupRow → κ} {k : κ} (hk : k ∈ rows.map key) :
    ∃ first, (rowsOf key rows k).head? = some first ∧ first ∈ rows ∧ key first = k := by
  have hne : rowsOf key rows k ≠ [] := by rwa [ne_eq, rowsOf_eq_nil, not_not]
  obtain ⟨first, rest, heq⟩ := List.exists_cons_of_ne_nil hne
  have hmem : first ∈ rowsOf key rows k := by rw [heq]; exact List.mem_cons_self
  obtain ⟨hrows, hkey⟩ := List.mem_filter.mp hmem
  exact ⟨first, by rw [heq]; rfl, hrows, of_decide_eq_true hkey⟩

theorem foldl_countReason (rows : List FollowupRow) :
    rows.foldl countReason none = rows.head?.map fun first =>
      { newEntry first with count := rows.length, subs := rows.foldl addSub [] } := by
  induction rows using List.reverseRecOn with
  | nil => rfl
  | append_singleton rows r ih =>
    rw [List.foldl_append, ih, List.foldl_append]
    cases rows with
    | nil => rfl
    | cons first rows => simp [countReason]

theorem foldl_countSub (rows : List FollowupRow) :
    rows.foldl countSub none = rows.head?.map fun first => { newSub first with count := rows.length } := by
  induction rows using List.reverseRecOn with
  | nil => rfl
  | append_singleton rows r ih =>
    rw [List.foldl_append, ih]
    cases rows with
    | nil => rfl
    | cons first rows => simp [countSub]

/-- The sub-reasons of the rows of one category, or none without a category. -/
theorem foldl_addSub {k : Option String} (hk : ∀ r ∈ rows, reasonKey r = k) : rows.foldl addSub [] =
    if k = none then [] else (groups subId rows).map fun g => (g.1, g.2.foldl countSub none) := by
  have hgen : ∀ subs : List (Int × Option SubEntry), rows.foldl addSub subs =
      if k = none then subs else upserts Prod.fst subId (fun r e => (e.1, countSub e.2 r))
        (fun r => (subId r, countSub none r)) subs rows := by
    induction rows with
    | nil => simp [upserts]
    | cons r rows ih =>
      intro subs
      obtain ⟨hr, hrows⟩ := List.forall_mem_cons.mp hk
      rw [List.foldl_cons, ih hrows, addSub, hr]
      split <;> rfl
  rw [hgen, upserts_eq_groups]

/-! ## Rows of the tables -/

/-- What the tables promise of the rows. -/
structure WellFormed (list : List FollowupRow) : Prop where
  status : ∀ r ∈ list, ∀ c, r.followup = some c → c.status = statusOfStage c.stage
  known : ∀ r ∈ list, ∀ k, r.followup.bind (·.reasonId) = some k → ∃ q, r.reason = some q ∧ q.reasonId = k
  category : ∀ r ∈ list, ∀ r' ∈ list, ∀ q q', r.reason = some q → r'.reason = some q' →
    q.categoryKey = q'.categoryKey → q.category = q'.category
  reason : ∀ r ∈ list, ∀ r' ∈ list, ∀ q q', r.reason = some q → r'.reason = some q' →
    q.reasonId = q'.reasonId → q = q'

theorem WellFormed.of_subset (h : WellFormed list) (hsub : ∀ r ∈ rows, r ∈ list) : WellFormed rows :=
  ⟨fun r hr => h.status r (hsub r hr), fun r hr => h.known r (hsub r hr),
    fun r hr r' hr' => h.category r (hsub r hr) r' (hsub r' hr'),
    fun r hr r' hr' => h.reason r (hsub r hr) r' (hsub r' hr')⟩

theorem wellFormed_detractorRows (db : FollowupTables) : WellFormed (detractorRows db) := by
  have hrow : ∀ r ∈ detractorRows db, (∀ c, r.followup = some c → c ∈ db.cases) ∧
      (∀ q, r.reason = some q → q ∈ db.reasons) ∧
      ∀ k, r.followup.bind (·.reasonId) = some k → ∃ q, r.reason = some q ∧ q.reasonId = k := by
    intro r hr
    obtain ⟨⟨⟨d, o⟩, q⟩, hmem, rfl⟩ := List.mem_map.mp hr
    obtain ⟨hcase, hreason⟩ := mem_leftJoin hmem
    obtain ⟨-, hjoined⟩ := mem_leftJoin hcase
    have hc : ∀ c, o = some c → c ∈ db.cases := by
      rintro c rfl
      rcases hjoined with ⟨c', hc', heq, -⟩ | ⟨hnone, -⟩
      · rwa [Option.some.inj heq]
      · cases hnone
    refine ⟨hc, ?_, ?_⟩
    · rintro q' rfl
      rcases hreason with ⟨q'', hq, heq, -⟩ | ⟨hnone, -⟩
      · rwa [Option.some.inj heq]
      · cases hnone
    · intro k hk
      rcases hreason with ⟨q', hq, rfl, href⟩ | ⟨-, hnone⟩
      · exact ⟨q', rfl, Option.some.inj (href.symm.trans hk)⟩
      · obtain ⟨c, rfl, hck⟩ := Option.bind_eq_some_iff.mp hk
        obtain ⟨q', hq, rfl⟩ := List.mem_map.mp (db.reason_known c (hc c rfl) k hck)
        exact absurd hk (hnone q' hq)
  constructor
  · intro r hr c hc
    exact db.status_generated c ((hrow r hr).1 c hc)
  · exact fun r hr => (hrow r hr).2.2
  · intro r hr r' hr' q q' hq hq' hkey
    exact db.category_once q ((hrow r hr).2.1 q hq) q' ((hrow r' hr').2.1 q' hq') hkey
  · intro r hr r' hr' q q' hq hq' hkey
    exact List.inj_on_of_nodup_map db.reasonId_nodup ((hrow r hr).2.1 q hq) ((hrow r' hr').2.1 q' hq') hkey

theorem length_detractorRows (db : FollowupTables) : (detractorRows db).length = db.detractors.length := by
  rw [detractorRows, List.length_map, length_leftJoin db.reasonId_nodup,
    length_leftJoin db.responseId_nodup]

/-- The reason of a row with a category. -/
theorem WellFormed.reason_of_key (h : WellFormed list) (hr : r ∈ list) {k : String}
    (hk : reasonKey r = some k) : ∃ q, r.reason = some q ∧ q.categoryKey = k ∧ subId r = q.reasonId := by
  unfold reasonKey at hk
  obtain ⟨k', hid, htext⟩ := Option.map_eq_some_iff.mp hk
  obtain ⟨q, hq, hqk⟩ := h.known r hr k' hid
  refine ⟨q, hq, ?_, ?_⟩
  · rw [← htext, reasonText, hq]
    rfl
  · rw [subId, hid, hqk]
    rfl

/-- The first row of a category says the same of it as any. -/
theorem WellFormed.newEntry_eq (h : WellFormed list) (hr : r ∈ list) (hr' : r' ∈ list)
    (hkey : reasonKey r = reasonKey r') : newEntry r = newEntry r' := by
  cases hk : reasonKey r with
  | none =>
    have hk' : reasonKey r' = none := hkey ▸ hk
    simp [newEntry, hk, hk']
  | some k =>
    have hk' : reasonKey r' = some k := hkey ▸ hk
    obtain ⟨q, hq, hqk, -⟩ := h.reason_of_key hr hk
    obtain ⟨q', hq', hqk', -⟩ := h.reason_of_key hr' hk'
    have hcategory := h.category r hr r' hr' q q' hq hq' (hqk.trans hqk'.symm)
    simp only [ReasonRow.category, Prod.mk.injEq] at hcategory
    obtain ⟨hen, har, hsort, hnote⟩ := hcategory
    simp [newEntry, reasonText, hk, hk', hq, hq', hen, har, hsort, hnote]

theorem WellFormed.newSub_eq (h : WellFormed list) (hr : r ∈ list) (hr' : r' ∈ list)
    (hk : reasonKey r ≠ none) (hk' : reasonKey r' ≠ none) (hid : subId r = subId r') :
    newSub r = newSub r' := by
  obtain ⟨k, hk⟩ := Option.ne_none_iff_exists'.mp hk
  obtain ⟨k', hk'⟩ := Option.ne_none_iff_exists'.mp hk'
  obtain ⟨q, hq, -, hqid⟩ := h.reason_of_key hr hk
  obtain ⟨q', hq', -, hqid'⟩ := h.reason_of_key hr' hk'
  have heq := h.reason r hr r' hr' q q' hq hq' (by rw [← hqid, ← hqid', hid])
  simp only [newSub, subReason, hid, hq, hq', heq]

end SalesDashboard.NpsFollowup
