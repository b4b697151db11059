import SalesDashboard.Lib.CrossFilter

/-! The cascading filters of the filter bar (`cascade.ts`): the options of each dimension
under the other ones' selections, and the selection after dropping what is not an option. -/

namespace SalesDashboard.Filters
open CrossFilter

/-! ## The cascade -/

inductive Dimension
  | companyKeys | segmentKeys | channelKeys | salesTeamKeys | salespersonKeys | customerKeys
  deriving DecidableEq, Repr

def DIMENSIONS : List Dimension :=
  [.companyKeys, .segmentKeys, .channelKeys, .salesTeamKeys, .salespersonKeys, .customerKeys]

abbrev Combo := Dimension → Option String

abbrev Selection := Dimension → List String

/-- Earlier ones are dropped first. -/
def PRUNE_ORDER : List Dimension :=
  [.customerKeys, .salespersonKeys, .salesTeamKeys, .channelKeys, .segmentKeys, .companyKeys]

def MAX_PASSES : Nat := DIMENSIONS.length + 2

structure CascadeResult where
  options : Dimension → List String
  selection : Selection
  matchingCombos : Nat

/-- `!set || (v !== null && set.has(v))`, for the set of a list, and no set of an empty one. -/
def passes (values : List String) (v : Option String) : Bool :=
  values.isEmpty || v.any fun w => decide (w ∈ values)

/-- How many dimensions a combo fails, two for any number above one, and the last it failed. -/
def failuresOf (scope current : Selection) (combo : Combo) :
    List Dimension → Nat → Option Dimension → Nat × Option Dimension
  | [], failures, failed => (failures, failed)
  | d :: rest, failures, failed =>
      if passes (scope d) (combo d) = false then (2, failed)
      else if passes (current d) (combo d) = false then
        if failures + 1 > 1 then (failures + 1, some d)
        else failuresOf scope current combo rest (failures + 1) (some d)
      else failuresOf scope current combo rest failures failed

structure Pass where
  options : Dimension → List String
  matching : Nat

/-- `options[d].add(v)` for a value that is not null. -/
def addOption (options : List String) (v : Option String) : List String :=
  match v with
  | none => options
  | some w => if w ∈ options then options else options ++ [w]

/-- A combo that fails one dimension's selection is still valid for that dimension's list. -/
def addCombo (pass : Pass) (combo : Combo) : Nat × Option Dimension → Pass
  | (0, _) => ⟨fun d => addOption (pass.options d) (combo d), pass.matching + 1⟩
  | (1, some d) =>
      { pass with options := Function.update pass.options d (addOption (pass.options d) (combo d)) }
  | _ => pass

def scanCombo (scope current : Selection) (pass : Pass) (combo : Combo) : Pass :=
  addCombo pass combo (failuresOf scope current combo DIMENSIONS 0 none)

def onePass (combos : List Combo) (scope current : Selection) : Pass :=
  combos.foldl (scanCombo scope current) ⟨fun _ => [], 0⟩

/-- A dimension whose selection has a value that is not an option, the first in the order. -/
def dropDim (current : Selection) (options : Dimension → List String) : Option Dimension :=
  PRUNE_ORDER.find? fun d => (current d).any fun v => decide (v ∉ options d)

/-- The passes that are left; `pass` is the one before. -/
def passesLeft (combos : List Combo) (scope : Selection) : Nat → Selection → Pass → CascadeResult
  | 0, current, pass => ⟨pass.options, current, pass.matching⟩
  | n + 1, current, _ =>
      let pass := onePass combos scope current
      match dropDim current pass.options with
      | none => ⟨pass.options, current, pass.matching⟩
      | some d => passesLeft combos scope n (prune current d fun v => decide (v ∈ pass.options d)) pass

/-- A dimension that the scope does not mention has no values in it. -/
def computeCascade (combos : List Combo) (selection : Selection)
    (scope : Dimension → Option (List String)) : CascadeResult :=
  passesLeft combos (fun d => (scope d).getD []) MAX_PASSES selection ⟨fun _ => [], 0⟩

/-! ## One pass -/

theorem mem_dimensions (d : Dimension) : d ∈ DIMENSIONS := by cases d <;> decide

theorem nodup_dimensions : DIMENSIONS.Nodup := by decide

theorem passes_iff {sel : Selection} {combo : Combo} {d : Dimension} :
    passes (sel d) (combo d) = true ↔ Passes sel combo d := by
  unfold passes Passes
  rw [Bool.or_eq_true, List.isEmpty_iff]
  refine or_congr Iff.rfl ?_
  cases combo d <;> simp

/-- The combo is inside the scope. -/
def inScope (scope : Selection) (combo : Combo) : Bool := DIMENSIONS.all fun d => passes (scope d) (combo d)

theorem inScope_iff {scope : Selection} {combo : Combo} :
    inScope scope combo = true ↔ ∀ d, Passes scope combo d := by
  unfold inScope
  rw [List.all_eq_true]
  exact ⟨fun h d => passes_iff.mp (h d (mem_dimensions d)), fun h d _ => passes_iff.mpr (h d)⟩

/-- The combo satisfies the scope and the whole selection. -/
def satisfies (scope current : Selection) (combo : Combo) : Bool :=
  inScope scope combo && inScope current combo

/-- The dimensions of a list whose selection the combo fails. -/
def failing (current : Selection) (combo : Combo) (ds : List Dimension) : List Dimension :=
  ds.filter fun d => !passes (current d) (combo d)

/-- The scope passes in the dimensions of a list. -/
def within (scope : Selection) (combo : Combo) (ds : List Dimension) : Prop :=
  ∀ d ∈ ds, passes (scope d) (combo d) = true

theorem failing_cons_of_pass {current : Selection} {combo : Combo} {d : Dimension} {ds : List Dimension}
    (h : passes (current d) (combo d) = true) : failing current combo (d :: ds) = failing current combo ds := by
  simp [failing, h]

theorem failing_cons_of_fail {current : Selection} {combo : Combo} {d : Dimension} {ds : List Dimension}
    (h : passes (current d) (combo d) = false) :
    failing current combo (d :: ds) = d :: failing current combo ds := by
  simp [failing, h]

/-- After one failure another one ends the count. -/
theorem failuresOf_one (scope current : Selection) (combo : Combo) (failed : Option Dimension)
    (ds : List Dimension) :
    (within scope combo ds ∧ failing current combo ds = [] ∧
      failuresOf scope current combo ds 1 failed = (1, failed)) ∨
    (¬ (within scope combo ds ∧ failing current combo ds = []) ∧
      (failuresOf scope current combo ds 1 failed).1 = 2) := by
  induction ds with
  | nil => exact .inl ⟨by simp [within], rfl, rfl⟩
  | cons d ds ih =>
    unfold failuresOf
    cases hscope : passes (scope d) (combo d) with
    | false => exact .inr ⟨fun h => by simp [h.1 d List.mem_cons_self] at hscope, rfl⟩
    | true =>
      cases hsel : passes (current d) (combo d) with
      | false => exact .inr ⟨fun h => by simp [failing_cons_of_fail hsel] at h, rfl⟩
      | true =>
        have hwithin : within scope combo (d :: ds) ↔ within scope combo ds := by simp [within, hscope]
        rw [failing_cons_of_pass hsel, hwithin]
        exact ih

/-- What the count says of a combo. -/
theorem failuresOf_zero (scope current : Selection) (combo : Combo) (ds : List Dimension) :
    (within scope combo ds ∧ failing current combo ds = [] ∧
      failuresOf scope current combo ds 0 none = (0, none)) ∨
    (∃ d, within scope combo ds ∧ failing current combo ds = [d] ∧
      failuresOf scope current combo ds 0 none = (1, some d)) ∨
    (¬ (within scope combo ds ∧ (failing current combo ds).length ≤ 1) ∧
      (failuresOf scope current combo ds 0 none).1 = 2) := by
  induction ds with
  | nil => exact .inl ⟨by simp [within], rfl, rfl⟩
  | cons d ds ih =>
    unfold failuresOf
    cases hscope : passes (scope d) (combo d) with
    | false => exact .inr (.inr ⟨fun h => by simp [h.1 d List.mem_cons_self] at hscope, rfl⟩)
    | true =>
      have hwithin : within scope combo (d :: ds) ↔ within scope combo ds := by simp [within, hscope]
      cases hsel : passes (current d) (combo d) with
      | true =>
        rw [failing_cons_of_pass hsel, hwithin]
        exact ih
      | false =>
        rw [failing_cons_of_fail hsel, hwithin]
        rcases failuresOf_one scope current combo (some d) ds with ⟨hin, hnone, heq⟩ | ⟨hnot, htwo⟩
        · exact .inr (.inl ⟨d, hin, by rw [hnone], heq⟩)
        · refine .inr (.inr ⟨fun h => hnot ⟨h.1, ?_⟩, htwo⟩)
          simpa using h.2

theorem mem_addOption {options : List String} {v : Option String} {w : String} :
    w ∈ addOption options v ↔ w ∈ options ∨ v = some w := by
  cases v with
  | none => simp [addOption]
  | some u =>
    by_cases hu : u ∈ options
    · simp only [addOption, if_pos hu, Option.some.injEq]
      exact ⟨.inl, fun h => h.elim id fun heq => heq ▸ hu⟩
    · simp [addOption, hu, eq_comm]

/-- What one combo adds to the options and to the count. -/
theorem scanCombo_spec (scope current : Selection) (pass : Pass) (combo : Combo) :
    (∀ d v, v ∈ (scanCombo scope current pass combo).options d ↔ v ∈ pass.options d ∨
      (inScope scope combo = true ∧ combo d = some v ∧ ∀ e, e ≠ d → Passes current combo e)) ∧
    (scanCombo scope current pass combo).matching = pass.matching +
      if satisfies scope current combo then 1 else 0 := by
  have hin : within scope combo DIMENSIONS ↔ inScope scope combo = true := by
    unfold within inScope
    rw [List.all_eq_true]
  have hfailing : ∀ d, d ∈ failing current combo DIMENSIONS ↔ ¬ Passes current combo d := by
    intro d
    rw [← passes_iff, failing, List.mem_filter, Bool.not_eq_true', Bool.not_eq_true]
    exact ⟨And.right, fun h => ⟨mem_dimensions d, h⟩⟩
  have hall : satisfies scope current combo = true ↔
      inScope scope combo = true ∧ failing current combo DIMENSIONS = [] := by
    rw [satisfies, Bool.and_eq_true, @inScope_iff current, List.eq_nil_iff_forall_not_mem]
    simp only [hfailing, not_not]
  unfold scanCombo
  rcases failuresOf_zero scope current combo DIMENSIONS with
    ⟨hscope, hnone, heq⟩ | ⟨d', hscope, hone, heq⟩ | ⟨hnot, htwo⟩
  · rw [heq, if_pos (hall.mpr ⟨hin.mp hscope, hnone⟩)]
    refine ⟨fun d v => ?_, rfl⟩
    simp only [addCombo]
    rw [mem_addOption]
    refine or_congr_right ⟨fun hv => ⟨hin.mp hscope, hv, fun e _ => ?_⟩, fun h => h.2.1⟩
    by_contra hfail
    rw [← hfailing, hnone] at hfail
    cases hfail
  · have honly : ∀ e, ¬ Passes current combo e ↔ e = d' := fun e => by
      rw [← hfailing, hone, List.mem_singleton]
    rw [heq, if_neg fun h => by rw [hall, hone] at h; cases h.2]
    refine ⟨fun d v => ?_, rfl⟩
    simp only [addCombo]
    by_cases hd : d = d'
    · subst hd
      rw [Function.update_self, mem_addOption]
      refine or_congr_right ⟨fun hv => ⟨hin.mp hscope, hv, fun e he => ?_⟩, fun h => h.2.1⟩
      by_contra hfail
      exact he ((honly e).mp hfail)
    · rw [Function.update_of_ne hd]
      refine (or_iff_left ?_).symm
      rintro ⟨-, -, hpasses⟩
      exact (honly d').mpr rfl (hpasses d' (Ne.symm hd))
  · have hout : ∀ ds : List Dimension, ¬ (inScope scope combo = true ∧ ds.length ≤ 1 ∧
        ∀ d ∈ failing current combo DIMENSIONS, d ∈ ds) := by
      rintro ds ⟨hscope, hlen, hsub⟩
      refine hnot ⟨hin.mpr hscope, le_trans ?_ hlen⟩
      exact ((nodup_dimensions.filter _).subperm hsub).length_le
    have hskip : ∀ count : Nat × Option Dimension, count.1 = 2 → addCombo pass combo count = pass := by
      rintro ⟨n, failed⟩ htwo
      obtain rfl : n = 2 := htwo
      rfl
    rw [hskip _ htwo, if_neg fun h => hout [] ⟨(hall.mp h).1, by simp, by rw [(hall.mp h).2]; simp⟩]
    refine ⟨fun d v => (or_iff_left ?_).symm, rfl⟩
    rintro ⟨hscope, -, hpasses⟩
    refine hout [d] ⟨hscope, le_refl 1, fun e he => ?_⟩
    rw [List.mem_singleton]
    by_contra hne
    exact (hfailing e).mp he (hpasses e hne)

/-- The options of a pass are the offered values, and it counts the combos that pass
everything. -/
theorem onePass_spec (combos : List Combo) (scope current : Selection) :
    (∀ d v, v ∈ (onePass combos scope current).options d ↔
      Offered (combos.filter (inScope scope)) current d v) ∧
    (onePass combos scope current).matching = (combos.filter (satisfies scope current)).length := by
  unfold onePass
  induction combos using List.reverseRecOn with
  | nil => simp [Offered]
  | append_singleton combos combo ih =>
    obtain ⟨hoptions, hmatching⟩ := scanCombo_spec scope current
      (combos.foldl (scanCombo scope current) ⟨fun _ => [], 0⟩) combo
    rw [List.foldl_append, List.foldl_cons, List.foldl_nil]
    refine ⟨fun d v => ?_, ?_⟩
    · rw [hoptions, ih.1]
      unfold Offered
      simp only [List.filter_append, List.mem_append, or_and_right, exists_or]
      refine or_congr_right ?_
      rw [List.filter_singleton]
      cases hscope : inScope scope combo <;> simp
    · rw [hmatching, ih.2, List.filter_append, List.length_append, List.filter_singleton]
      cases satisfies scope current combo <;> rfl

/-! ## The passes -/

section
variable {combos : List Combo} {scope : Selection}

/-- The selection of a dimension has a value that is not an option under the whole selection. -/
def stale (combos : List Combo) (scope current : Selection) (d : Dimension) : Bool :=
  (current d).any fun v => decide (v ∉ (onePass combos scope current).options d)

theorem stale_eq_false {current : Selection} {d : Dimension} : stale combos scope current d = false ↔
    Settled (combos.filter (inScope scope)) current d := by
  unfold stale Settled
  rw [← Bool.not_eq_true, List.any_eq_true]
  simp only [decide_eq_true_eq, (onePass_spec combos scope current).1, not_exists, not_and, not_not]

theorem mem_pruneOrder (d : Dimension) : d ∈ PRUNE_ORDER := by cases d <;> decide

theorem nodup_pruneOrder : PRUNE_ORDER.Nodup := by decide

/-- The selection after a pass that drops values of a dimension. -/
def dropped (combos : List Combo) (scope current : Selection) (d : Dimension) : Selection :=
  prune current d fun v => decide (v ∈ (onePass combos scope current).options d)

/-- Each drop settles one dimension more. -/
theorem length_stale_dropped {current : Selection} {d : Dimension} (hd : stale combos scope current d = true) :
    (PRUNE_ORDER.filter (stale combos scope (dropped combos scope current d))).length <
      (PRUNE_ORDER.filter (stale combos scope current)).length := by
  have hkeep : ∀ v, decide (v ∈ (onePass combos scope current).options d) = true ↔
      Offered (combos.filter (inScope scope)) current d v := fun v => by
    rw [decide_eq_true_eq, (onePass_spec combos scope current).1]
  have hself : stale combos scope (dropped combos scope current d) d = false :=
    stale_eq_false.mpr (settled_prune_self fun v _ => (hkeep v).mp)
  have hnodup : (d :: PRUNE_ORDER.filter (stale combos scope (dropped combos scope current d))).Nodup := by
    refine List.nodup_cons.mpr ⟨fun hmem => ?_, nodup_pruneOrder.filter _⟩
    rw [(List.mem_filter.mp hmem).2] at hself
    cases hself
  refine (hnodup.subperm fun e he => ?_).length_le
  rcases List.mem_cons.mp he with rfl | he
  · exact List.mem_filter.mpr ⟨mem_pruneOrder e, hd⟩
  · refine List.mem_filter.mpr ⟨mem_pruneOrder e, ?_⟩
    have hstale := (List.mem_filter.mp he).2
    by_contra hsettled
    rw [Bool.not_eq_true, stale_eq_false] at hsettled
    have hne : e ≠ d := by
      rintro rfl
      rw [hself] at hstale
      cases hstale
    have hkept : stale combos scope (dropped combos scope current d) e = false :=
      stale_eq_false.mpr (settled_prune (fun v _ => (hkeep v).mpr) hsettled hne)
    rw [hkept] at hstale
    cases hstale

/-- The result for a selection that no pass changes any more. -/
def resultOf (combos : List Combo) (scope selection : Selection) : CascadeResult :=
  ⟨(onePass combos scope selection).options, selection, (onePass combos scope selection).matching⟩

/-- With more passes than stale dimensions, the last pass drops nothing. -/
theorem passesLeft_spec (n : Nat) (current : Selection) (pass : Pass)
    (hn : (PRUNE_ORDER.filter (stale combos scope current)).length < n) :
    ∃ selection, passesLeft combos scope n current pass = resultOf combos scope selection ∧
      (∀ d, stale combos scope selection d = false) ∧ (∀ d, (selection d).Sublist (current d)) ∧
      ((∀ d, stale combos scope current d = false) → selection = current) := by
  induction n generalizing current pass with
  | zero => exact absurd hn (Nat.not_lt_zero _)
  | succ n ih =>
    unfold passesLeft
    simp only
    cases hdrop : dropDim current (onePass combos scope current).options with
    | none =>
      refine ⟨current, rfl, fun d => ?_, fun d => .refl _, fun _ => rfl⟩
      exact Bool.not_eq_true _ |>.mp (List.find?_eq_none.mp hdrop d (mem_pruneOrder d))
    | some d =>
      have hstale : stale combos scope current d = true :=
        List.find?_some (p := fun d => stale combos scope current d) hdrop
      have hlt := length_stale_dropped hstale
      obtain ⟨selection, heq, hsettled, hsub, -⟩ := ih (dropped combos scope current d)
        (onePass combos scope current) (by omega)
      refine ⟨selection, heq, hsettled, fun e => (hsub e).trans prune_sublist, fun hall => ?_⟩
      rw [hall d] at hstale
      cases hstale

end

/-! ## The fixpoint -/

/-- The options are the values that the other dimensions leave, the selection is a part of
the requested one and among the options, and it stays under another run. -/
structure Settles (combos : List Combo) (selection : Selection)
    (scope : Dimension → Option (List String)) (r : CascadeResult) : Prop where
  options : ∀ d v, v ∈ r.options d ↔
    Offered (combos.filter (inScope fun d => (scope d).getD [])) r.selection d v
  valid : ∀ d, ∀ v ∈ r.selection d, v ∈ r.options d
  requested : ∀ d, (r.selection d).Sublist (selection d)
  kept : (∀ d, Settled (combos.filter (inScope fun d => (scope d).getD [])) selection d) →
    r.selection = selection
  matching : r.matchingCombos =
    (combos.filter (satisfies (fun d => (scope d).getD []) r.selection)).length
  none_iff : r.matchingCombos = 0 ↔ ∀ c ∈ combos, inScope (fun d => (scope d).getD []) c = false
  again : computeCascade combos r.selection scope = r

/-- **The cascade ends in a fixpoint** before its passes run out. -/
theorem computeCascade_settles (combos : List Combo) (selection : Selection)
    (scope : Dimension → Option (List String)) :
    Settles combos selection scope (computeCascade combos selection scope) := by
  have hpasses : ∀ current : Selection,
      (PRUNE_ORDER.filter (stale combos (fun d => (scope d).getD []) current)).length < MAX_PASSES :=
    fun current => lt_of_le_of_lt (List.length_filter_le _ _) (by decide)
  obtain ⟨settled, heq, hstale, hsub, hkept⟩ := passesLeft_spec MAX_PASSES selection
    ⟨fun _ => [], 0⟩ (hpasses selection)
  obtain ⟨settled', hagain, -, -, hsame⟩ := passesLeft_spec MAX_PASSES settled
    ⟨fun _ => [], 0⟩ (hpasses settled)
  obtain ⟨hoptions, hmatching⟩ := onePass_spec combos (fun d => (scope d).getD []) settled
  have hsettled := fun d => stale_eq_false.mp (hstale d)
  have hresult : computeCascade combos selection scope =
      resultOf combos (fun d => (scope d).getD []) settled := heq
  rw [hresult]
  refine ⟨hoptions, fun d v hv => (hoptions d v).mpr (hsettled d v hv), hsub, fun hall => ?_, hmatching,
    ?_, ?_⟩
  · exact hkept fun d => stale_eq_false.mpr (hall d)
  · show (onePass combos (fun d => (scope d).getD []) settled).matching = 0 ↔ _
    rw [hmatching, List.length_eq_zero_iff, List.filter_eq_nil_iff]
    constructor
    · intro hnone c hc
      by_contra hscope
      rw [Bool.not_eq_false] at hscope
      have hin : c ∈ combos.filter (inScope fun d => (scope d).getD []) := List.mem_filter.mpr ⟨hc, hscope⟩
      obtain ⟨c', hc', hpasses'⟩ := exists_passes hsettled (List.ne_nil_of_mem hin)
      obtain ⟨hmem, hscope'⟩ := List.mem_filter.mp hc'
      refine hnone c' hmem ?_
      rw [satisfies, hscope', inScope_iff.mpr hpasses']
      rfl
    · intro hnone c hc hsatisfies
      rw [satisfies, hnone c hc] at hsatisfies
      cases hsatisfies
  · rw [← hsame hstale]
    exact hsame hstale ▸ hagain

end SalesDashboard.Filters
