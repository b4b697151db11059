import SalesDashboard.NpsFollowup.Charted
import Mathlib

/-! Whether the follow-up charts agree with the cases, in every order of the rows. -/

namespace SalesDashboard.NpsFollowup
open Firsts Grouping Keyed Tables

variable {list list' rows rows' : List FollowupRow} {r r' : FollowupRow} {now : Int}

/-! ## Reasons and their sub-reasons -/

/-- The entries of the map of reasons. -/
def reasonEntries (list : List FollowupRow) : List ReasonEntry :=
  (groups reasonKey (list.filter isCharted)).filterMap fun g => g.2.foldl countReason none

theorem byReason_perm (localeLe : String → String → Bool) (now : Int) (list : List FollowupRow) :
    (followupSummary localeLe now list).byReason.Perm ((reasonEntries list).map (·.shown localeLe)) := by
  have hreasons := (counted now list).reasons
  unfold followupSummary
  dsimp only
  rw [hreasons, upserts_eq_groups, List.filterMap_map]
  exact (List.perm_insertionSort _ _).map _

/-- The rows of one category, and the entry they make. -/
structure EntryOf (list : List FollowupRow) (k : Option String) (e : ReasonEntry) (rows : List FollowupRow) :
    Prop where
  rows_eq : rows = rowsOf reasonKey (list.filter isCharted) k
  key : ∀ r ∈ rows, reasonKey r = k
  subset : ∀ r ∈ rows, r ∈ list
  entry : ∃ first ∈ rows, e = { newEntry first with count := rows.length, subs := rows.foldl addSub [] }

theorem entryOf_group {k : Option String} (hk : k ∈ (list.filter isCharted).map reasonKey) :
    ∃ e, (rowsOf reasonKey (list.filter isCharted) k).foldl countReason none = some e ∧
      EntryOf list k e (rowsOf reasonKey (list.filter isCharted) k) := by
  obtain ⟨first, hfirst, -, -⟩ := head_of_mem_keys hk
  refine ⟨_, by rw [foldl_countReason, hfirst]; rfl, rfl, ?_, ?_, first, List.mem_of_mem_head? hfirst, rfl⟩
  · exact fun r hr => of_decide_eq_true (List.mem_filter.mp hr).2
  · exact fun r hr => List.mem_of_mem_filter (List.mem_of_mem_filter hr)

theorem mem_reasonEntries {e : ReasonEntry} (he : e ∈ reasonEntries list) :
    ∃ k ∈ (list.filter isCharted).map reasonKey,
      EntryOf list k e (rowsOf reasonKey (list.filter isCharted) k) := by
  obtain ⟨g, hg, hfold⟩ := List.mem_filterMap.mp he
  obtain ⟨hk, hrows⟩ := mem_groups hg
  obtain ⟨e', he', hentry⟩ := entryOf_group hk
  rw [hrows, he'] at hfold
  obtain rfl := Option.some.inj hfold
  exact ⟨g.1, hk, hentry⟩

theorem EntryOf.categoryKey {k : Option String} {e : ReasonEntry} (h : EntryOf list k e rows) :
    e.categoryKey = k := by
  obtain ⟨first, hfirst, rfl⟩ := h.entry
  exact h.key first hfirst

theorem EntryOf.count {k : Option String} {e : ReasonEntry} (h : EntryOf list k e rows) :
    e.count = rows.length := by
  obtain ⟨first, -, rfl⟩ := h.entry
  rfl

/-- An entry that has sub-reasons to show is of a category. -/
theorem EntryOf.key_of_subs {k : Option String} {e : ReasonEntry} (h : EntryOf list k e rows)
    (hsubs : e.noSubs = false) : k ≠ none := by
  obtain ⟨first, hfirst, rfl⟩ := h.entry
  have hkey := h.key first hfirst
  rintro rfl
  simp [newEntry, hkey] at hsubs

theorem map_reasonEntries_key (list : List FollowupRow) : (reasonEntries list).map (·.categoryKey) =
    firsts ((list.filter isCharted).map reasonKey) := by
  rw [← map_fst_groups]
  refine map_filterMap_eq fun g hg => ?_
  obtain ⟨hk, hrows⟩ := mem_groups hg
  obtain ⟨e, he, hentry⟩ := entryOf_group hk
  rw [hrows, he, Option.map_some, hentry.categoryKey]

/-- The entries count every charted row once. -/
theorem sum_reasonEntries (list : List FollowupRow) :
    ((reasonEntries list).map (·.count)).sum = list.countP isCharted := by
  rw [List.countP_eq_length_filter, ← sum_length_groups reasonKey (list.filter isCharted)]
  refine congrArg List.sum (map_filterMap_eq fun g hg => ?_)
  obtain ⟨hk, hrows⟩ := mem_groups hg
  obtain ⟨e, he, hentry⟩ := entryOf_group hk
  rw [hrows, he, Option.map_some, hentry.count]

/-- The sub-reasons of an entry count its rows, each reason once. -/
theorem EntryOf.subs {k : Option String} {e : ReasonEntry} (h : EntryOf list k e rows) (hk : k ≠ none) :
    ((e.subs.filterMap Prod.snd).map (·.count)).sum = e.count ∧
      ((e.subs.filterMap Prod.snd).map (·.reasonId)).Nodup := by
  have hsubs : e.subs = (groups subId rows).map fun g => (g.1, g.2.foldl countSub none) := by
    obtain ⟨first, -, rfl⟩ := h.entry
    exact (foldl_addSub h.key).trans (if_neg hk)
  have hsub : ∀ g ∈ groups subId rows, ∃ sub, g.2.foldl countSub none = some sub ∧
      sub.count = g.2.length ∧ sub.reasonId = g.1 := by
    intro g hg
    obtain ⟨hkey, hrows⟩ := mem_groups hg
    obtain ⟨first, hfirst, -, hid⟩ := head_of_mem_keys hkey
    rw [hrows]
    exact ⟨_, by rw [foldl_countSub, hfirst]; rfl, rfl, hid⟩
  rw [hsubs, List.filterMap_map, h.count]
  constructor
  · rw [← sum_length_groups subId rows]
    refine congrArg List.sum (map_filterMap_eq fun g hg => ?_)
    obtain ⟨sub, heq, hcount, -⟩ := hsub g hg
    simp [heq, hcount]
  · have hids : ((groups subId rows).filterMap (Prod.snd ∘ fun g => (g.1, g.2.foldl countSub none))).map
        (·.reasonId) = (groups subId rows).map Prod.fst := by
      refine map_filterMap_eq fun g hg => ?_
      obtain ⟨sub, heq, -, hid⟩ := hsub g hg
      simp [heq, hid]
    rw [hids, map_fst_groups]
    exact nodup_firsts _

/-! ## Rows in another order -/

/-- The sub-reasons of the rows of a category do not depend on their order. -/
theorem WellFormed.subs_perm (h : WellFormed list) {k : Option String} (hperm : rows.Perm rows')
    (hsub : ∀ r ∈ rows, r ∈ list) (hk : ∀ r ∈ rows, reasonKey r = k) :
    ((rows.foldl addSub []).filterMap Prod.snd).Perm ((rows'.foldl addSub []).filterMap Prod.snd) := by
  rw [foldl_addSub hk, foldl_addSub fun r hr => hk r (hperm.mem_iff.mpr hr)]
  by_cases hnone : k = none
  · rw [if_pos hnone, if_pos hnone]
  · rw [if_neg hnone, if_neg hnone, List.filterMap_map, List.filterMap_map]
    have hmap := (@perm_map_groups _ _ _ _ subId rows rows' (fun id => (hperm.map subId).mem_iff)
      (fun g => g.2.foldl countSub none) ?_).filterMap id
    · rwa [List.filterMap_map, List.filterMap_map] at hmap
    · intro id hid
      have hrows : (rowsOf subId rows id).Perm (rowsOf subId rows' id) := hperm.filter _
      obtain ⟨first, hfirst, hmem, hfid⟩ := head_of_mem_keys hid
      obtain ⟨first', hfirst', hmem', hfid'⟩ := head_of_mem_keys ((hperm.map subId).mem_iff.mp hid)
      have hmem' := hperm.mem_iff.mpr hmem'
      have hsame : newSub first = newSub first' :=
        h.newSub_eq (hsub _ hmem) (hsub _ hmem') (hk _ hmem ▸ hnone) (hk _ hmem' ▸ hnone)
          (hfid.trans hfid'.symm)
      dsimp only
      rw [foldl_countSub, foldl_countSub, hfirst, hfirst', Option.map_some, Option.map_some, hsame,
        hrows.length_eq]

/-- An entry of the chart without its sub-reasons. -/
def ReasonCount.figures (e : ReasonCount) : Option String × String × Option String × Nat :=
  (e.categoryKey, e.label, e.labelAr, e.count)

/-- The same figures, with the sub-reasons in some order. -/
structure SameEntry (e e' : ReasonEntry) : Prop where
  slice : e.toSlice = e'.toSlice
  categoryKey : e.categoryKey = e'.categoryKey
  noSubs : e.noSubs = e'.noSubs
  subs : (e.subs.filterMap Prod.snd).Perm (e'.subs.filterMap Prod.snd)

theorem WellFormed.sameEntry (h : WellFormed list) (hperm : list.Perm list') {k : Option String}
    {e e' : ReasonEntry} (he : EntryOf list k e rows) (he' : EntryOf list' k e' rows') : SameEntry e e' := by
  have hrows : rows.Perm rows' := by
    rw [he.rows_eq, he'.rows_eq]
    exact (hperm.filter _).filter _
  obtain ⟨first, hfirst, heq⟩ := he.entry
  obtain ⟨first', hfirst', heq'⟩ := he'.entry
  have hsame : newEntry first = newEntry first' :=
    h.newEntry_eq (he.subset _ hfirst) (hperm.mem_iff.mpr (he'.subset _ hfirst'))
      ((he.key _ hfirst).trans (he'.key _ hfirst').symm)
  have hsubs := h.subs_perm hrows he.subset he.key
  subst heq heq'
  constructor
  · simp only [hsame, hrows.length_eq]
  · simp only [hsame]
  · simp only [hsame]
  · exact hsubs

theorem SameEntry.shown {e e' : ReasonEntry} (h : SameEntry e e') (localeLe : String → String → Bool) :
    (e.shown localeLe).figures = (e'.shown localeLe).figures ∧
      (e.shown localeLe).subReasons.Perm (e'.shown localeLe).subReasons := by
  constructor
  · simp [ReasonCount.figures, ReasonEntry.shown, h.slice, h.categoryKey]
  · simp only [ReasonEntry.shown, h.noSubs]
    split
    · exact List.Perm.refl []
    · have hsorted := (List.perm_insertionSort (fun a b : SubEntry => chartOrder localeLe a.toSlice b.toSlice)
        (e.subs.filterMap Prod.snd)).trans h.subs
      exact (hsorted.trans (List.perm_insertionSort _ _).symm).map _

/-! ## The charts agree with the cases -/

structure Reconciles (list : List FollowupRow) (now : Int) (s : NpsFollowupSummary) : Prop where
  detractors : s.detractors = s.charted + s.historical + s.noCase
  charted : s.charted = list.countP isCharted
  statusSum : (s.byStatus.map (·.count)).sum = s.charted
  stageSum : ∀ b ∈ s.byStatus, b.count = (b.stages.map Prod.snd).sum
  reasonSum : (s.byReason.map (·.count)).sum = s.charted
  oneEntry : (s.byReason.map (·.categoryKey)).Nodup
  subSum : ∀ e ∈ s.byReason, e.subReasons ≠ [] →
    (e.subReasons.map (·.count)).sum = e.count ∧ (e.subReasons.map (·.reasonId)).Nodup
  noSubs : ∀ e ∈ s.byReason, e.subReasons = [] → e.categoryKey = none ∨
    ∃ r ∈ list, reasonKey r = e.categoryKey ∧ r.reason.any (·.requiresNote)
  ageing : s.ageing = resolutionAgeing (list.filterMap (slaCaseOf now))
  aged : (list.filterMap (slaCaseOf now)).length + s.rejected = s.charted

/-- Only the order of the reasons may differ. -/
structure SameCharts (s s' : NpsFollowupSummary) : Prop where
  counts : (s.detractors, s.charted, s.rejected, s.historical, s.noCase) =
    (s'.detractors, s'.charted, s'.rejected, s'.historical, s'.noCase)
  ageing : s.ageing = s'.ageing
  byStatus : s.byStatus = s'.byStatus
  byReason : (s.byReason.map (·.figures)).Perm (s'.byReason.map (·.figures))
  subReasons : ∀ e ∈ s.byReason, ∃ e' ∈ s'.byReason, e'.figures = e.figures ∧
    e.subReasons.Perm e'.subReasons

/-- A stage is shown under the one status it generates. -/
theorem WellFormed.stageSum (h : WellFormed list) (status : FollowupStatus) :
    ((FOLLOWUP_STAGES.filter fun stage => decide (statusOfStage stage = some status)).map fun stage =>
      list.countP fun r => decide (chartedStage r = some stage)).sum =
      list.countP fun r => decide (chartedStatus r = some status) := by
  have hkeys : ((FOLLOWUP_STAGES.filter fun stage => decide (statusOfStage stage = some status)).map
      some).Nodup := by
    cases status <;> decide
  have hsum := Counts.sum_countP_keys chartedStage (fun _ => true) hkeys list
  simp only [Bool.true_and, List.map_map, Function.comp_def] at hsum
  refine hsum.trans (List.countP_congr fun r hr => ?_)
  cases hcharted : chartedCase r with
  | none => simp [chartedStage, chartedStatus, hcharted]
  | some c =>
    obtain ⟨c, status'⟩ := c
    obtain ⟨c', hcase, hc⟩ := Option.bind_eq_some_iff.mp hcharted
    have hgenerated := h.status r hr c' hcase
    split at hc
    · cases hc
    · obtain ⟨status'', hstatus, heq⟩ := Option.map_eq_some_iff.mp hc
      obtain ⟨rfl, rfl⟩ := Prod.mk.inj heq
      rw [hstatus] at hgenerated
      have hmem : c'.stage ∈ FOLLOWUP_STAGES := by
        cases c'.stage <;> decide
      simp [chartedStage, chartedStatus, hcharted, hmem, ← hgenerated]

/-- The ageing leaves out the rejected ones of the charted cases, and no other. -/
theorem aged (now : Int) (list : List FollowupRow) : (list.filterMap (slaCaseOf now)).length +
    (list.countP fun r => decide (chartedStage r = some .rejected)) = list.countP isCharted := by
  induction list with
  | nil => rfl
  | cons r list ih =>
    rw [List.countP_cons, List.countP_cons]
    rcases Option.eq_none_or_eq_some (chartedCase r) with hcharted | ⟨c, hcharted⟩
    · have hnone : slaCaseOf now r = none := by simp [slaCaseOf, hcharted]
      rw [List.filterMap_cons_none hnone]
      simpa [chartedStage, isCharted, hcharted] using ih
    · have hone : isCharted r = true := by simp [isCharted, hcharted]
      by_cases hstage : c.1.stage = .rejected
      · have hnone : slaCaseOf now r = none := by simp [slaCaseOf, hcharted, hstage]
        have hrejected : chartedStage r = some .rejected := by simp [chartedStage, hcharted, hstage]
        rw [List.filterMap_cons_none hnone]
        simp only [hone, hrejected, decide_true, if_true]
        omega
      · have hsome : slaCaseOf now r = some (slaCase now c.1) := by simp [slaCaseOf, hcharted, hstage]
        have hother : chartedStage r ≠ some .rejected := by simp [chartedStage, hcharted, hstage]
        rw [List.filterMap_cons_some hsome, List.length_cons]
        simp only [hone, hother, decide_false, Bool.false_eq_true, if_false, if_true]
        omega

/-! ## Every order of the rows -/

theorem followupSummary_parts (localeLe : String → String → Bool) (now : Int) (list : List FollowupRow) :
    (followupSummary localeLe now list).noCase = (list.countP fun r => r.followup.isNone) ∧
    (followupSummary localeLe now list).historical =
      (list.countP fun r => r.followup.isSome && (chartedCase r).isNone) ∧
    (followupSummary localeLe now list).rejected =
      (list.countP fun r => decide (chartedStage r = some .rejected)) ∧
    (followupSummary localeLe now list).charted = list.countP isCharted ∧
    (followupSummary localeLe now list).ageing = resolutionAgeing (list.filterMap (slaCaseOf now)) ∧
    (followupSummary localeLe now list).byStatus = FOLLOWUP_STATUSES.map fun key =>
      ⟨key, list.countP fun r => decide (chartedStatus r = some key),
        (FOLLOWUP_STAGES.filter fun stage => decide (statusOfStage stage = some key)).map fun stage =>
          (stage, list.countP fun r => decide (chartedStage r = some stage))⟩ := by
  have h := counted now list
  refine ⟨h.noCase, h.historical, h.rejected, ?_, congrArg resolutionAgeing h.slaCases, ?_⟩
  · unfold followupSummary
    dsimp only
    rw [h.statuses, h.statuses, h.statuses, isCharted_status]
  · unfold followupSummary byStatus
    dsimp only
    simp only [h.statuses, h.stages]

theorem resolutionAgeing_perm {cases cases' : List AgeingCase} (h : cases.Perm cases') :
    resolutionAgeing cases = resolutionAgeing cases' := by
  rw [resolutionAgeing_eq, resolutionAgeing_eq]
  unfold chartOf
  simp only [h.countP_eq]

theorem WellFormed.reconciles (h : WellFormed list) (localeLe : String → String → Bool) (now : Int) :
    Reconciles list now (followupSummary localeLe now list) := by
  obtain ⟨hnoCase, hhistorical, hrejected, hcharted, hageing, hstatus⟩ := followupSummary_parts localeLe now list
  have hperm := byReason_perm localeLe now list
  have hentry : ∀ e ∈ (followupSummary localeLe now list).byReason, ∃ entry ∈ reasonEntries list,
      entry.shown localeLe = e := fun e he => List.mem_map.mp (hperm.mem_iff.mp he)
  have hkeys : ((followupSummary localeLe now list).byReason.map (·.categoryKey)).Perm
      ((reasonEntries list).map (·.categoryKey)) := by
    have hmap := hperm.map fun e : ReasonCount => e.categoryKey
    rwa [List.map_map] at hmap
  have hcounts : ((followupSummary localeLe now list).byReason.map (·.count)).Perm
      ((reasonEntries list).map (·.count)) := by
    have hmap := hperm.map fun e : ReasonCount => e.count
    rwa [List.map_map] at hmap
  have hsubs : ∀ entry : ReasonEntry, entry.noSubs = false →
      (((entry.shown localeLe).subReasons.map (·.count)).Perm ((entry.subs.filterMap Prod.snd).map (·.count))) ∧
      ((entry.shown localeLe).subReasons.map (·.reasonId)).Perm
        ((entry.subs.filterMap Prod.snd).map (·.reasonId)) := by
    intro entry hno
    have hsorted := List.perm_insertionSort (fun a b : SubEntry => chartOrder localeLe a.toSlice b.toSlice)
      (entry.subs.filterMap Prod.snd)
    simp only [ReasonEntry.shown, hno, Bool.false_eq_true, if_false, List.map_map]
    exact ⟨hsorted.map _, hsorted.map _⟩
  constructor
  · rw [hcharted, hhistorical, hnoCase]
    exact length_eq_parts list
  · exact hcharted
  · rw [hcharted, hstatus, ← isCharted_status list]
    simp [FOLLOWUP_STATUSES]
    omega
  · rw [hstatus]
    intro b hb
    obtain ⟨status, -, rfl⟩ := List.mem_map.mp hb
    rw [List.map_map]
    exact (h.stageSum status).symm
  · rw [hcounts.sum_eq, hcharted, sum_reasonEntries]
  · rw [hkeys.nodup_iff, map_reasonEntries_key]
    exact nodup_firsts _
  · intro e he hne
    obtain ⟨entry, hmem, rfl⟩ := hentry e he
    obtain ⟨k, -, hof⟩ := mem_reasonEntries hmem
    have hno : entry.noSubs = false := by
      cases hno : entry.noSubs with
      | false => rfl
      | true => exact absurd (by simp [ReasonEntry.shown, hno]) hne
    obtain ⟨hsum, hids⟩ := hof.subs (hof.key_of_subs hno)
    obtain ⟨hpermCount, hpermId⟩ := hsubs entry hno
    exact ⟨hpermCount.sum_eq.trans hsum, hpermId.nodup_iff.mpr hids⟩
  · intro e he hnil
    obtain ⟨entry, hmem, rfl⟩ := hentry e he
    obtain ⟨k, hk, hof⟩ := mem_reasonEntries hmem
    obtain ⟨first, hfirst, heq⟩ := hof.entry
    cases hno : entry.noSubs with
    | true =>
      rw [heq] at hno
      rcases (Bool.or_eq_true ..).mp hno with hnone | hnote
      · exact .inl (hof.categoryKey.trans ((hof.key _ hfirst).symm.trans (of_decide_eq_true hnone)))
      · exact .inr ⟨first, hof.subset _ hfirst, (hof.key _ hfirst).trans hof.categoryKey.symm, hnote⟩
    | false =>
      have hsum := (hsubs entry hno).1.sum_eq.trans (hof.subs (hof.key_of_subs hno)).1
      have hpos := List.length_pos_of_mem hfirst
      have hcount := hof.count
      rw [hnil] at hsum
      simp at hsum
      omega
  · exact hageing
  · rw [hrejected, hcharted]
    exact aged now list

theorem WellFormed.sameCharts (h : WellFormed list) (hperm : list.Perm list') (localeLe : String → String → Bool)
    (now : Int) : SameCharts (followupSummary localeLe now list) (followupSummary localeLe now list') := by
  obtain ⟨hnoCase, hhistorical, hrejected, hcharted, hageing, hstatus⟩ := followupSummary_parts localeLe now list
  obtain ⟨hnoCase', hhistorical', hrejected', hcharted', hageing', hstatus'⟩ :=
    followupSummary_parts localeLe now list'
  have hbyReason := byReason_perm localeLe now list
  have hbyReason' := byReason_perm localeLe now list'
  have hfiltered : (list.filter isCharted).Perm (list'.filter isCharted) := hperm.filter _
  have hkeys : ∀ k, k ∈ (list.filter isCharted).map reasonKey ↔ k ∈ (list'.filter isCharted).map reasonKey :=
    fun k => (hfiltered.map reasonKey).mem_iff
  have hsame : ∀ k ∈ (list.filter isCharted).map reasonKey, ∃ e e',
      (rowsOf reasonKey (list.filter isCharted) k).foldl countReason none = some e ∧
      (rowsOf reasonKey (list'.filter isCharted) k).foldl countReason none = some e' ∧ SameEntry e e' := by
    intro k hk
    obtain ⟨e, he, hof⟩ := entryOf_group hk
    obtain ⟨e', he', hof'⟩ := entryOf_group ((hkeys k).mp hk)
    exact ⟨e, e', he, he', h.sameEntry hperm hof hof'⟩
  constructor
  · rw [hnoCase, hhistorical, hrejected, hcharted, hnoCase', hhistorical', hrejected', hcharted',
      hperm.countP_eq, hperm.countP_eq, hperm.countP_eq, hperm.countP_eq]
    simp only [followupSummary, hperm.length_eq]
  · rw [hageing, hageing']
    exact resolutionAgeing_perm (hperm.filterMap _)
  · rw [hstatus, hstatus']
    simp only [hperm.countP_eq]
  · have hfigures := (perm_map_groups hkeys (F := fun g => (g.2.foldl countReason none).map fun e =>
      (e.shown localeLe).figures) fun k hk => by
        obtain ⟨e, e', he, he', hs⟩ := hsame k hk
        dsimp only
        rw [he, he', Option.map_some, Option.map_some, (hs.shown localeLe).1]).filterMap id
    have hmap : ∀ list : List FollowupRow, ((reasonEntries list).map (·.shown localeLe)).map (·.figures) =
        ((groups reasonKey (list.filter isCharted)).map fun g => (g.2.foldl countReason none).map fun e =>
          (e.shown localeLe).figures).filterMap id := by
      intro list
      rw [List.filterMap_map, reasonEntries, List.map_filterMap, List.map_filterMap]
      refine List.filterMap_congr fun g _ => ?_
      simp only [Function.comp_apply, id_eq, Option.map_map]
      rfl
    refine (hbyReason.map _).trans ?_
    rw [hmap]
    refine hfigures.trans ?_
    rw [← hmap]
    exact (hbyReason'.map _).symm
  · intro e he
    obtain ⟨entry, hmem, rfl⟩ := List.mem_map.mp (hbyReason.mem_iff.mp he)
    obtain ⟨g, hg, hfold⟩ := List.mem_filterMap.mp hmem
    obtain ⟨hk, hrows⟩ := mem_groups hg
    obtain ⟨e, e', he, he', hs⟩ := hsame g.1 hk
    rw [hrows, he] at hfold
    obtain rfl := Option.some.inj hfold
    obtain ⟨hfigures, hsubs⟩ := hs.shown localeLe
    refine ⟨e'.shown localeLe, hbyReason'.mem_iff.mpr (List.mem_map_of_mem ?_), hfigures.symm, hsubs⟩
    refine List.mem_filterMap.mpr ⟨(g.1, rowsOf reasonKey (list'.filter isCharted) g.1), ?_, he'⟩
    exact List.mem_map_of_mem (mem_firsts.mpr ((hkeys g.1).mp hk))

/-- **The follow-up charts agree with the cases**, in every order of the rows. -/
theorem followup_reconciles (db : FollowupTables) (localeLe : String → String → Bool) (now : Int)
    (h : list.Perm (detractorRows db)) (h' : list'.Perm (detractorRows db)) :
    (followupSummary localeLe now list).detractors = db.detractors.length ∧
      Reconciles list now (followupSummary localeLe now list) ∧
      SameCharts (followupSummary localeLe now list) (followupSummary localeLe now list') := by
  have hwell : WellFormed list := (wellFormed_detractorRows db).of_subset fun r hr => h.mem_iff.mp hr
  refine ⟨?_, hwell.reconciles localeLe now, hwell.sameCharts (h.trans h'.symm) localeLe now⟩
  rw [← length_detractorRows, ← h.length_eq]
  rfl

def lateDelivery : ReasonRow :=
  ⟨1, "delivery", "Delivery", some "التوصيل", some 1, some "Late", none, some 1, false⟩

def someDelivery : ReasonRow := { lateDelivery with reasonId := 2, subReasonEn := none, sortOrder := none }

/-- A resolved case, an open and a rejected one of a category, and a detractor without a
case. -/
def deliveryTables : FollowupTables where
  detractors := [7, 8, 9, 10]
  cases := [⟨7, .resolved, some .CLOSE, some 0, some 3600000, some 7200000, some 1⟩,
    ⟨8, .new, some .OPEN, some 0, none, none, some 2⟩,
    ⟨9, .rejected, some .DISPUTED, some 0, none, none, some 1⟩]
  reasons := [lateDelivery, someDelivery]
  responseId_nodup := by decide
  reasonId_nodup := by decide
  status_generated := by decide
  reason_known := by decide
  category_once := by decide

theorem followup_reconciles_delivery :
    (followupSummary (fun a b => decide (a ≤ b)) 0 (detractorRows deliveryTables)).detractors = 4 ∧
      Reconciles (detractorRows deliveryTables) 0
        (followupSummary (fun a b => decide (a ≤ b)) 0 (detractorRows deliveryTables)) ∧
      SameCharts (followupSummary (fun a b => decide (a ≤ b)) 0 (detractorRows deliveryTables))
        (followupSummary (fun a b => decide (a ≤ b)) 0 (detractorRows deliveryTables).reverse) :=
  followup_reconciles deliveryTables (fun a b => decide (a ≤ b)) 0 (List.Perm.refl _)
    (List.reverse_perm _)

end SalesDashboard.NpsFollowup
