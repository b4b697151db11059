import SalesDashboard.DataScope.Rules
import SalesDashboard.Lib.Transition

/-! A saved data-scope rule stays enforced: the rows it wrote stand, alone under their
rule number, until another call replaces or removes them. -/

namespace SalesDashboard.DataScope
open Firsts Transition

/-! ## The rows of a rule -/

/-- The stored rows under the rule's dimension and number. -/
def rowsOf (R : RoleScopeRule) (table : List ScopeRow) : List ScopeRow :=
  table.filter fun r => decide (r.dimension = R.dimension ∧ r.ruleNo = some R.ruleNo)

/-- The rows of the rule's number are the rule's own rows. -/
def Stands (R : RoleScopeRule) (table : List ScopeRow) : Prop :=
  rowsOf R table = R.values.map (ruleRow R)

theorem insertRuleRows_eq {rule : RoleScopeRule} {values : List Key} {table table' : List ScopeRow}
    (h : insertRuleRows rule table values = some table') :
    table' = table ++ values.map (ruleRow rule) := by
  induction values generalizing table with
  | nil =>
    cases h
    rw [List.map_nil, List.append_nil]
  | cons value values ih =>
    unfold insertRuleRows at h
    split at h
    · cases h
    · rw [ih h, List.append_assoc, List.map_cons, List.singleton_append]

theorem rowsOf_append (R : RoleScopeRule) (xs ys : List ScopeRow) :
    rowsOf R (xs ++ ys) = rowsOf R xs ++ rowsOf R ys :=
  List.filter_append ..

theorem rowsOf_map_ruleRow (R : RoleScopeRule) (values : List Key) :
    rowsOf R (values.map (ruleRow R)) = values.map (ruleRow R) := by
  unfold rowsOf
  rw [List.filter_eq_self]
  intro r hr
  obtain ⟨v, -, rfl⟩ := List.mem_map.mp hr
  exact decide_eq_true ⟨rfl, rfl⟩

theorem rowsOf_map_ruleRow_other {R S : RoleScopeRule} (values : List Key)
    (h : ¬ (S.dimension = R.dimension ∧ S.ruleNo = R.ruleNo)) :
    rowsOf R (values.map (ruleRow S)) = [] := by
  unfold rowsOf
  rw [List.filter_eq_nil_iff]
  intro r hr
  obtain ⟨v, -, rfl⟩ := List.mem_map.mp hr
  rw [decide_eq_true_eq]
  rintro ⟨hd, hn⟩
  exact h ⟨hd, Option.some.inj hn⟩

theorem rowsOf_deleteRule_self (R : RoleScopeRule) (table : List ScopeRow) :
    rowsOf R (deleteRule table R.dimension R.ruleNo) = [] := by
  unfold rowsOf deleteRule
  rw [List.filter_filter, List.filter_eq_nil_iff]
  intro r _
  simp only [Bool.and_eq_true, Bool.not_eq_true', decide_eq_true_eq, decide_eq_false_iff_not]
  exact fun h => h.2 h.1

theorem rowsOf_deleteRule {R : RoleScopeRule} {d : ScopeDimension} {n : Nat}
    (table : List ScopeRow) (h : ¬ (d = R.dimension ∧ n = R.ruleNo)) :
    rowsOf R (deleteRule table d n) = rowsOf R table := by
  unfold rowsOf deleteRule
  rw [List.filter_filter]
  apply List.filter_congr
  intro r _
  rw [Bool.and_eq_left_iff_imp]
  intro hr
  obtain ⟨hd, hn⟩ := of_decide_eq_true hr
  rw [Bool.not_eq_true', decide_eq_false_iff_not]
  rintro ⟨hd', hn'⟩
  exact h ⟨hd'.symm.trans hd, Option.some.inj (hn'.symm.trans hn)⟩

theorem rowsOf_deleteDimension_self (R : RoleScopeRule) (table : List ScopeRow) :
    rowsOf R (deleteDimension table R.dimension) = [] := by
  unfold rowsOf deleteDimension
  rw [List.filter_filter, List.filter_eq_nil_iff]
  intro r _
  simp only [Bool.and_eq_true, decide_eq_true_eq]
  exact fun h => h.2 h.1.1

theorem rowsOf_deleteDimension {R : RoleScopeRule} {d : ScopeDimension} (table : List ScopeRow)
    (h : d ≠ R.dimension) : rowsOf R (deleteDimension table d) = rowsOf R table := by
  unfold rowsOf deleteDimension
  rw [List.filter_filter]
  apply List.filter_congr
  intro r _
  rw [Bool.and_eq_left_iff_imp]
  intro hr
  rw [decide_eq_true_eq]
  exact fun hd => h (hd.symm.trans (of_decide_eq_true hr).1)

/-! ## One write -/

/-- An insert finds its rule number unused. -/
def Write.Fresh (table : List ScopeRow) : Write → Prop
  | .insert rule n => rowsOf (rule.saved n) table = []
  | .replace _ _ | .overwrite _ | .deleteRule _ _ => True

/-- The write replaces or removes what is stored under the rule's number. -/
def Write.Displaces (R : RoleScopeRule) : Write → Prop
  | .insert _ _ => False
  | .replace rule n => rule.dimension = R.dimension ∧ n = R.ruleNo
  | .overwrite rule => rule.dimension = R.dimension
  | .deleteRule d n => d = R.dimension ∧ n = R.ruleNo

/-- A write leaves its own rule standing. -/
theorem Write.stands_own {w : Write} {table table' : List ScopeRow} {R : RoleScopeRule}
    (hfresh : w.Fresh table) (hrun : w.run table = some table') (hsaved : w.saved = some R) :
    Stands R table' := by
  unfold Stands
  cases w with
  | insert rule n =>
    cases hsaved
    rw [insertRuleRows_eq hrun, rowsOf_append, hfresh, List.nil_append]
    exact rowsOf_map_ruleRow _ _
  | replace rule n =>
    cases hsaved
    rw [insertRuleRows_eq hrun, rowsOf_append]
    have hnil := rowsOf_deleteRule_self (rule.saved n) table
    rw [show rowsOf (rule.saved n) (DataScope.deleteRule table rule.dimension n) = [] from hnil]
    exact rowsOf_map_ruleRow _ _
  | overwrite rule =>
    cases hsaved
    rw [insertRuleRows_eq hrun, rowsOf_append]
    have hnil := rowsOf_deleteDimension_self (rule.saved 1) table
    rw [show rowsOf (rule.saved 1) (deleteDimension table rule.dimension) = [] from hnil]
    exact rowsOf_map_ruleRow _ _
  | deleteRule d n => cases hsaved

/-- Any other write leaves a rule standing, unless it replaces or removes it. -/
theorem Write.stands_other {w : Write} {table table' : List ScopeRow} {R : RoleScopeRule}
    (hne : R.values ≠ []) (hstands : Stands R table) (hfresh : w.Fresh table)
    (hkeep : ¬ w.Displaces R) (hrun : w.run table = some table') : Stands R table' := by
  unfold Stands at hstands ⊢
  cases w with
  | insert rule n =>
    have hother : ¬ ((rule.saved n).dimension = R.dimension ∧ (rule.saved n).ruleNo = R.ruleNo) := by
      rintro ⟨hd, hn⟩
      have hsame : rowsOf (rule.saved n) table = rowsOf R table := by
        unfold rowsOf
        rw [hd, hn]
      rw [hfresh, hstands] at hsame
      exact hne (List.map_eq_nil_iff.mp hsame.symm)
    rw [insertRuleRows_eq hrun, rowsOf_append, rowsOf_map_ruleRow_other _ hother, List.append_nil]
    exact hstands
  | replace rule n =>
    have hother : ¬ ((rule.saved n).dimension = R.dimension ∧ (rule.saved n).ruleNo = R.ruleNo) :=
      hkeep
    rw [insertRuleRows_eq hrun, rowsOf_append, rowsOf_map_ruleRow_other _ hother, List.append_nil,
      rowsOf_deleteRule table hkeep]
    exact hstands
  | overwrite rule =>
    have hother : ¬ ((rule.saved 1).dimension = R.dimension ∧ (rule.saved 1).ruleNo = R.ruleNo) :=
      fun h => hkeep h.1
    rw [insertRuleRows_eq hrun, rowsOf_append, rowsOf_map_ruleRow_other _ hother, List.append_nil,
      rowsOf_deleteDimension table hkeep]
    exact hstands
  | deleteRule d n =>
    cases hrun
    rw [rowsOf_deleteRule table hkeep]
    exact hstands

/-! ## Reading a standing rule -/

/-- Every row has a positive rule number, and an operator. -/
def Stored (table : List ScopeRow) : Prop :=
  ∀ r ∈ table, ∃ n op, 0 < n ∧ r.ruleNo = some n ∧ r.operator = some op

theorem Stored.number {table : List ScopeRow} (h : Stored table) {r : ScopeRow} (hr : r ∈ table) :
    r.ruleNo = some r.number := by
  obtain ⟨n, op, hpos, hn, -⟩ := h r hr
  unfold ScopeRow.number
  rw [hn, Option.getD_some, if_neg (by omega)]

theorem number_pos (r : ScopeRow) : 0 < r.number := by
  unfold ScopeRow.number
  split <;> omega

/-- Stable sorting keeps the order of the rows that a predicate picks from one rank. -/
theorem filter_insertionSort {α : Type*} (r : α → α → Prop) [DecidableRel r] (p : α → Bool)
    (hp : ∀ a b, p a = true → p b = true → r a b) (l : List α) :
    (l.insertionSort r).filter p = l.filter p := by
  have hpairwise : (l.filter p).Pairwise r :=
    List.pairwise_of_forall_mem_list fun a ha b hb =>
      hp a b (List.mem_filter.mp ha).2 (List.mem_filter.mp hb).2
  have hsub := (List.sublist_insertionSort hpairwise List.filter_sublist).filter p
  simp only [List.filter_filter, Bool.and_self] at hsub
  exact (hsub.eq_of_length ((List.perm_insertionSort r l).filter p).length_eq.symm).symm

theorem ownRows_readScopeRows (table : List ScopeRow) (d : ScopeDimension) (n : Nat) :
    ownRows (readScopeRows table) d n = ownRows table d n := by
  apply filter_insertionSort
  intro a b ha hb
  have ha := of_decide_eq_true ha
  have hb := of_decide_eq_true hb
  show a.number ≤ b.number
  omega

theorem ownRows_eq_rowsOf {table : List ScopeRow} (hstored : Stored table) (R : RoleScopeRule) :
    ownRows table R.dimension R.ruleNo = rowsOf R table := by
  apply List.filter_congr
  intro r hr
  rw [hstored.number hr, decide_eq_decide, Option.some.injEq]

theorem mem_getRoleScopeRules {table : List ScopeRow} {rule : RoleScopeRule} :
    rule ∈ getRoleScopeRules table ↔ ownRows table rule.dimension rule.ruleNo ≠ [] ∧
      rule = ruleOf table (rule.dimension, rule.ruleNo) := by
  unfold getRoleScopeRules ruleOf
  rw [mem_groupScopeRows, ownRows_readScopeRows]
  unfold ruleOf
  rw [ownRows_readScopeRows]

/-- A standing rule is read back as it was saved. -/
theorem Stands.read {table : List ScopeRow} (hstored : Stored table) {R : RoleScopeRule}
    (hnodup : R.values.Nodup) (hne : R.values ≠ []) (h : Stands R table) :
    R ∈ getRoleScopeRules table := by
  have hown : ownRows table R.dimension R.ruleNo = R.values.map (ruleRow R) :=
    (ownRows_eq_rowsOf hstored R).trans h
  rw [mem_getRoleScopeRules, hown]
  refine ⟨?_, ?_⟩
  · rw [Ne, List.map_eq_nil_iff]
    exact hne
  · obtain ⟨v, hv⟩ := List.exists_mem_of_ne_nil _ hne
    unfold ruleOf
    rw [hown, List.map_map]
    have hvalues : firsts (R.values.map ((·.value) ∘ ruleRow R)) = R.values := by
      rw [show (·.value) ∘ ruleRow R = id from rfl, List.map_id]
      exact firsts_of_nodup hnodup
    rw [hvalues, List.any_map]
    obtain ⟨d, n, op, values⟩ := R
    have hop : (values.any ((fun r : ScopeRow => decide (r.readOperator = .notIn)) ∘
        ruleRow ⟨d, n, op, values⟩)) = decide (op = .notIn) := by
      cases op with
      | isIn => exact List.any_eq_false.mpr fun _ _ => Bool.false_ne_true
      | notIn => exact List.any_eq_true.mpr ⟨v, hv, rfl⟩
    rw [hop]
    cases op <;> rfl

/-- What the resolved scope allows on a dimension, every rule on it allows. -/
theorem passes_of_allowed {rows : List ScopeRow} {dims : DimTables} {R : RoleScopeRule}
    (hR : R ∈ groupScopeRows rows) {v : Key}
    (hv : (R.dimension, v) ∈ getRoleDataScopeRules rows dims) :
    R.Passes v ∨ v = scopeNoMatchValue R.dimension := by
  rcases mem_allowedValues.mp (mem_resolveRoleScope.mp hv).2 with hallowed | ⟨-, hnone⟩
  · left
    have hall := (mem_combineDimensionRules.mp hallowed).1
    exact hall R (List.mem_filter.mpr ⟨hR, decide_eq_true rfl⟩)
  · exact .inr hnone

/-! ## Runs -/

/-- The write a call comes to in this step, when an action is that step. -/
def writeAt (st : State) : Action → Option Write
  | .advance i => match st.calls[i]? with
    | some (.ready w) => some w
    | _ => none
  | _ => none

theorem writeAt_ready {st : State} {i : Nat} {w : Write} (h : st.calls[i]? = some (.ready w)) :
    writeAt st (.advance i) = some w := by
  simp only [writeAt, h]

/-- An add whose rows go in now finds its rule number unused. -/
def Fresh (st : State) (a : Action) : Prop :=
  ∀ w, writeAt st a = some w → w.Fresh st.table

/-- The dimension whose rows a removal of every rule deletes in this step. -/
def removalAt (st : State) : Action → Option ScopeDimension
  | .advance i => match st.calls[i]? with
    | some (.called (.removeRoleScopeRule (some d) none)) => some d
    | _ => none
  | _ => none

/-- The step replaces or removes what is stored under the rule's number. -/
def Displaces (R : RoleScopeRule) (st : State) (a : Action) : Prop :=
  (∃ w, writeAt st a = some w ∧ w.Displaces R) ∨ removalAt st a = some R.dimension

instance (table : List ScopeRow) (w : Write) : Decidable (w.Fresh table) :=
  match w with
  | .insert rule n => inferInstanceAs (Decidable (rowsOf (rule.saved n) table = []))
  | .replace _ _ | .overwrite _ | .deleteRule _ _ => inferInstanceAs (Decidable True)

instance (R : RoleScopeRule) (w : Write) : Decidable (w.Displaces R) :=
  match w with
  | .insert _ _ => inferInstanceAs (Decidable False)
  | .replace rule n => inferInstanceAs (Decidable (rule.dimension = R.dimension ∧ n = R.ruleNo))
  | .overwrite rule => inferInstanceAs (Decidable (rule.dimension = R.dimension))
  | .deleteRule d n => inferInstanceAs (Decidable (d = R.dimension ∧ n = R.ruleNo))

instance (st : State) (a : Action) : Decidable (Fresh st a) :=
  inferInstanceAs (Decidable (∀ w ∈ writeAt st a, w.Fresh st.table))

instance (R : RoleScopeRule) (st : State) (a : Action) : Decidable (Displaces R st a) :=
  inferInstanceAs (Decidable ((∃ w ∈ writeAt st a, w.Displaces R) ∨
    removalAt st a = some R.dimension))

def Init (st : State) : Prop := Stored st.table ∧ st.calls = []

/-- The write numbers its rule from 1. -/
def Write.Numbered : Write → Prop
  | .insert _ n | .replace _ n => 0 < n
  | .overwrite _ | .deleteRule _ _ => True

structure Inv (st : State) : Prop where
  stored : Stored st.table
  numbered : ∀ w, .ready w ∈ st.calls → w.Numbered

/-- What a step does to the stored rows. -/
inductive Effect (st : State) (a : Action) (table : List ScopeRow) : Prop
  | none (h : table = st.table)
  | write (w : Write) (hw : writeAt st a = some w) (h : w.run st.table = some table)
  | removal (d : ScopeDimension) (hd : removalAt st a = some d)
      (h : table = deleteDimension st.table d)

theorem effect_of_advance {st : State} {i : Nat} {p q : Phase} {table : List ScopeRow}
    (hi : st.calls[i]? = some p) (h : advance st p = some (table, q)) :
    Effect st (.advance i) table := by
  cases p with
  | called c =>
    cases c with
    | save kind input =>
      refine .none ?_
      simp only [advance] at h
      split at h <;> cases h <;> rfl
    | removeRoleScopeRule dimension ruleNo =>
      cases dimension with
      | none =>
        cases h
        exact .none rfl
      | some d =>
        cases ruleNo with
        | none =>
          cases h
          exact .removal d (by simp only [removalAt, hi]) rfl
        | some n =>
          cases h
          exact .none rfl
  | validated kind rule domain =>
    cases h
    exact .none rfl
  | ready w =>
    have hw : writeAt st (.advance i) = some w := writeAt_ready hi
    simp only [advance] at h
    split at h
    · cases h
      exact .none rfl
    · next table' hrun =>
      refine .write w hw ?_
      split at h <;> cases h <;> exact hrun
  | returned saved | removed | refused e | failed => cases h

theorem effect_of_step {st st' : State} {a : Action} (h : step st a = some st') :
    Effect st a st'.table := by
  cases a with
  | warehouse dims =>
    cases h
    exact .none rfl
  | call c =>
    cases h
    exact .none rfl
  | advance i =>
    simp only [step] at h
    split at h
    · cases h
    · next p hi =>
      obtain ⟨⟨table, q⟩, hadv, heq⟩ := Option.map_eq_some_iff.mp h
      cases heq
      exact effect_of_advance hi hadv

theorem stored_append {table : List ScopeRow} (h : Stored table) (R : RoleScopeRule)
    (hpos : 0 < R.ruleNo) (values : List Key) :
    Stored (table ++ values.map (ruleRow R)) := by
  intro r hr
  rcases List.mem_append.mp hr with hr | hr
  · exact h r hr
  · obtain ⟨v, -, rfl⟩ := List.mem_map.mp hr
    exact ⟨_, _, hpos, rfl, rfl⟩

theorem stored_filter {table : List ScopeRow} (h : Stored table) (p : ScopeRow → Bool) :
    Stored (table.filter p) :=
  fun r hr => h r (List.mem_filter.mp hr).1

theorem Write.run_stored {w : Write} {table table' : List ScopeRow} (h : Stored table)
    (hnum : w.Numbered) (hrun : w.run table = some table') : Stored table' := by
  cases w with
  | insert rule n =>
    rw [insertRuleRows_eq hrun]
    exact stored_append h (rule.saved n) hnum _
  | replace rule n =>
    rw [insertRuleRows_eq hrun]
    exact stored_append (stored_filter h _) (rule.saved n) hnum _
  | overwrite rule =>
    rw [insertRuleRows_eq hrun]
    exact stored_append (stored_filter h _) _ Nat.one_pos _
  | deleteRule d n =>
    cases hrun
    exact stored_filter h _

theorem mem_of_writeAt {st : State} {a : Action} {w : Write} (h : writeAt st a = some w) :
    .ready w ∈ st.calls := by
  unfold writeAt at h
  split at h
  · split at h
    · next hi =>
      cases h
      exact List.mem_of_getElem? hi
    · cases h
  · cases h

/-- A write that a save has come to numbers its rule from 1: an update takes the
number of a rule it read. -/
theorem decideWrite_numbered {table : List ScopeRow} {rule : NewRule} {domain : List Key}
    {kind : Saving} {w : Write} (h : decideWrite table rule domain kind = .ready w) :
    w.Numbered := by
  cases kind with
  | addRoleScopeRule =>
    simp only [decideWrite] at h
    split at h
    · cases h
    · cases h
      exact Nat.succ_pos _
  | updateRoleScopeRule n =>
    simp only [decideWrite] at h
    split at h
    · cases h
    · next hany =>
      split at h
      · cases h
      · cases h
        rw [Bool.not_eq_false, List.any_eq_true] at hany
        obtain ⟨r, hr, hn⟩ := hany
        have hread := (mem_getRoleScopeRules.mp (List.mem_filter.mp hr).1).1
        obtain ⟨row, hrow⟩ := List.exists_mem_of_ne_nil _ hread
        have hnum : row.number = n := (mem_ownRows.mp hrow).2.2.trans (of_decide_eq_true hn)
        exact hnum ▸ number_pos row
  | setRoleScopeRule =>
    cases h
    trivial

theorem advance_numbered {st : State} {p : Phase} {table : List ScopeRow} {w : Write}
    (h : advance st p = some (table, .ready w)) : w.Numbered := by
  cases p with
  | called c =>
    cases c with
    | save kind input =>
      simp only [advance] at h
      split at h <;> cases h
    | removeRoleScopeRule dimension ruleNo =>
      cases dimension with
      | none => cases h
      | some d =>
        cases ruleNo with
        | none => cases h
        | some n =>
          cases h
          trivial
  | validated kind rule domain =>
    simp only [advance, Option.some.injEq, Prod.mk.injEq] at h
    exact decideWrite_numbered h.2
  | ready w' =>
    simp only [advance] at h
    split at h
    · cases h
    · split at h <;> cases h
  | returned saved | removed | refused e | failed => cases h

theorem Inv.step {st st' : State} {a : Action} (hi : Inv st) (h : step st a = some st') :
    Inv st' := by
  constructor
  · cases effect_of_step h with
    | none htable => exact htable ▸ hi.stored
    | write w hw hrun => exact w.run_stored hi.stored (hi.numbered w (mem_of_writeAt hw)) hrun
    | removal d _ htable => exact htable ▸ stored_filter hi.stored _
  · intro w hw
    cases a with
    | warehouse dims =>
      cases h
      exact hi.numbered w hw
    | call c =>
      cases h
      rcases List.mem_append.mp hw with hw | hw
      · exact hi.numbered w hw
      · cases List.mem_singleton.mp hw
    | advance i =>
      simp only [DataScope.step] at h
      split at h
      · cases h
      · obtain ⟨⟨table, q⟩, hadv, heq⟩ := Option.map_eq_some_iff.mp h
        cases heq
        rcases List.mem_or_eq_of_mem_set hw with hw | heq
        · exact hi.numbered w hw
        · obtain rfl : .ready w = q := heq
          exact advance_numbered hadv

/-- A rule that stands keeps standing, through every step that does not displace it. -/
theorem Stands.step {R : RoleScopeRule} (hne : R.values ≠ []) {st st' : State} {a : Action}
    (hstands : Stands R st.table) (hok : Fresh st a ∧ ¬ Displaces R st a)
    (h : step st a = some st') : Stands R st'.table := by
  cases effect_of_step h with
  | none htable => exact htable ▸ hstands
  | write w hw hrun =>
    exact w.stands_other hne hstands (hok.1 w hw) (fun hd => hok.2 (.inl ⟨w, hw, hd⟩)) hrun
  | removal d hd htable =>
    have hne : d ≠ R.dimension := by
      rintro rfl
      exact hok.2 (.inr hd)
    unfold Stands
    rw [htable, rowsOf_deleteDimension st.table hne]
    exact hstands

/-- The step in which a call returns a rule is the step that writes it. -/
theorem write_of_returned {st st' : State} {i : Nat} {R : RoleScopeRule}
    (h : step st (.advance i) = some st')
    (hreturned : st'.calls[i]? = some (.returned R)) :
    ∃ w, writeAt st (.advance i) = some w ∧ w.run st.table = some st'.table ∧
      w.saved = some R := by
  simp only [step] at h
  split at h
  · cases h
  · next p hi =>
    obtain ⟨⟨table, q⟩, hadv, heq⟩ := Option.map_eq_some_iff.mp h
    cases heq
    have hlt : i < st.calls.length := (List.getElem?_eq_some_iff.mp hi).1
    rw [List.getElem?_set_self hlt] at hreturned
    cases hreturned
    cases p with
    | ready w =>
      refine ⟨w, writeAt_ready hi, ?_⟩
      simp only [advance] at hadv
      split at hadv
      · cases hadv
      · next table' hrun =>
        split at hadv
        · next saved hsaved =>
          cases hadv
          exact ⟨hrun, hsaved⟩
        · cases hadv
    | called c =>
      cases c with
      | save kind input =>
        simp only [advance] at hadv
        split at hadv <;> cases hadv
      | removeRoleScopeRule dimension ruleNo =>
        cases dimension with
        | none => cases hadv
        | some d => cases ruleNo <;> cases hadv
    | validated kind rule domain =>
      simp only [advance, Option.some.injEq, Prod.mk.injEq] at hadv
      have hq := hadv.2
      cases kind with
      | addRoleScopeRule =>
        simp only [decideWrite] at hq
        split at hq <;> cases hq
      | updateRoleScopeRule n =>
        simp only [decideWrite] at hq
        split at hq
        · cases hq
        · split at hq <;> cases hq
      | setRoleScopeRule => cases hq
    | returned saved | removed | refused e | failed => cases hadv

theorem Write.saved_values {w : Write} {R : RoleScopeRule} (h : w.saved = some R) :
    R.values.Nodup ∧ R.values ≠ [] := by
  cases w with
  | insert rule n | replace rule n =>
    cases h
    exact ⟨rule.nodup, rule.ne_nil⟩
  | overwrite rule =>
    cases h
    exact ⟨rule.nodup, rule.ne_nil⟩
  | deleteRule d n => cases h

/-- **A saved rule stays enforced**: along steps in which every add finds its number
unused, a returned rule that no later step displaces is read back as it was saved, and
the resolved scope allows only what it allows. -/
theorem saved_rule_enforced {s₀ s t u : State} {as bs : List Action} {i : Nat} {R : RoleScopeRule}
    (hinit : Init s₀) (hbefore : Run step Fresh s₀ as s) (hfresh : Fresh s (.advance i))
    (hwrite : step s (.advance i) = some t) (hreturned : t.calls[i]? = some (.returned R))
    (hafter : Run step (fun st a => Fresh st a ∧ ¬ Displaces R st a) t bs u) :
    R ∈ getRoleScopeRules u.table ∧
      ∀ dims v, (R.dimension, v) ∈ getRoleDataScopeRules (readScopeRows u.table) dims →
        R.Passes v ∨ v = scopeNoMatchValue R.dimension := by
  have hinv : Inv s := by
    refine hbefore.invariant (fun _ _ _ hi _ hst => hi.step hst) ⟨hinit.1, ?_⟩
    intro w hw
    rw [hinit.2] at hw
    cases hw
  have hinvu : Inv u := hafter.invariant (fun _ _ _ hi _ hst => hi.step hst) (hinv.step hwrite)
  obtain ⟨w, hw, hrun, hsaved⟩ := write_of_returned hwrite hreturned
  obtain ⟨hnodup, hne⟩ := w.saved_values hsaved
  have hown : Stands R t.table := w.stands_own (hfresh w hw) hrun hsaved
  have hstep : ∀ st a st', Stands R st.table → Fresh st a ∧ ¬ Displaces R st a →
      step st a = some st' → Stands R st'.table :=
    fun _ _ _ hs hok hst => hs.step hne hok hst
  have hstands : Stands R u.table := Run.invariant hstep hafter hown
  have hread := hstands.read hinvu.stored hnodup hne
  exact ⟨hread, fun dims v hv => passes_of_allowed hread hv⟩

/-! ### Two administrators -/

/-- A role without rules; two customer groups. -/
def noRules : State := ⟨[], ⟨[1], [1, 2], [2, 3], ["HQ"], [5]⟩, []⟩

theorem noRules_init : Init noRules := ⟨(fun _ hr => by cases hr), rfl⟩

def addGroups (operator : ScopeOperator) (groups : List ℚ) : Action :=
  .call (.save .addRoleScopeRule
    ⟨some .segmentKeys, some operator, some (groups.map fun g => some (.num g))⟩)

def bothGroups : RoleScopeRule := ⟨.segmentKeys, 1, .isIn, [.num 1, .num 2]⟩
def onlyFirst : RoleScopeRule := ⟨.segmentKeys, 1, .isIn, [.num 1]⟩

/-- The second add reads what the first one wrote, and both rules stand. -/
theorem saved_rule_enforced_twice : ∃ u,
    Run step Fresh noRules
      [addGroups .isIn [1, 2], addGroups .notIn [2], .advance 0, .advance 0, .advance 0,
        .advance 1, .advance 1, .advance 1] u ∧
      bothGroups ∈ getRoleScopeRules u.table := by
  have hrun : ((exec step Fresh noRules
      [addGroups .isIn [1, 2], addGroups .notIn [2], .advance 0, .advance 0]).bind fun s =>
        if Fresh s (.advance 0) then (step s (.advance 0)).bind fun t =>
          (exec step (fun st a => Fresh st a ∧ ¬ Displaces bothGroups st a) t
            [.advance 1, .advance 1, .advance 1]).map fun _ =>
              decide (t.calls[0]? = some (.returned bothGroups))
        else none) = some true := by decide +kernel
  obtain ⟨s, hs, hrun⟩ := Option.bind_eq_some_iff.mp hrun
  split at hrun
  · next hfresh =>
    obtain ⟨t, ht, hrun⟩ := Option.bind_eq_some_iff.mp hrun
    obtain ⟨u, hu, hreturned⟩ := Option.map_eq_some_iff.mp hrun
    have hbefore := (exec_eq_some _ _ _ _ _).mp hs
    have hafter := (exec_eq_some _ _ _ _ _).mp hu
    refine ⟨u, hbefore.append (.cons hfresh ht (hafter.weaken fun _ _ h => h.1)), ?_⟩
    exact (saved_rule_enforced noRules_init hbefore hfresh ht (of_decide_eq_true hreturned)
      hafter).1
  · cases hrun

/-- Both adds read the empty role and take number 1: "only group 1" and "only group 2"
become one rule that lets both groups be seen. -/
theorem saved_rule_merged : ∃ s t u,
    FreeRun step noRules [addGroups .isIn [1], addGroups .isIn [2], .advance 0, .advance 0,
      .advance 1, .advance 1] s ∧
    step s (.advance 0) = some t ∧ t.calls[0]? = some (.returned onlyFirst) ∧
    Run step (fun st a => ¬ Displaces onlyFirst st a) t [.advance 1] u ∧
    onlyFirst ∉ getRoleScopeRules u.table := by
  have hrun : ((exec step (fun _ _ => True) noRules [addGroups .isIn [1], addGroups .isIn [2],
      .advance 0, .advance 0, .advance 1, .advance 1]).bind fun s =>
        (step s (.advance 0)).bind fun t =>
          (exec step (fun st a => ¬ Displaces onlyFirst st a) t [.advance 1]).map fun u =>
            decide (t.calls[0]? = some (.returned onlyFirst)) &&
              decide (onlyFirst ∉ getRoleScopeRules u.table)) = some true := by decide +kernel
  obtain ⟨s, hs, hrun⟩ := Option.bind_eq_some_iff.mp hrun
  obtain ⟨t, ht, hrun⟩ := Option.bind_eq_some_iff.mp hrun
  obtain ⟨u, hu, hboth⟩ := Option.map_eq_some_iff.mp hrun
  rw [Bool.and_eq_true, decide_eq_true_eq, decide_eq_true_eq] at hboth
  exact ⟨s, t, u, (exec_eq_some _ _ _ _ _).mp hs, ht, hboth.1, (exec_eq_some _ _ _ _ _).mp hu,
    hboth.2⟩

end SalesDashboard.DataScope
