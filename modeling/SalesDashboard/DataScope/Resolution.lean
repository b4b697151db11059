import SalesDashboard.DataScope.Filters
import Mathlib

/-! What the grouping of stored rows and the resolution of rules compute. -/

namespace SalesDashboard.DataScope
open Firsts

/-! ## Grouping -/

/-- The rows of one rule. -/
def ownRows (rows : List ScopeRow) (d : ScopeDimension) (n : Nat) : List ScopeRow :=
  rows.filter fun r => decide (r.dimension = d ∧ r.number = n)

/-- The rule that the rows of one dimension and number make. -/
def ruleOf (rows : List ScopeRow) (k : ScopeDimension × Nat) : RoleScopeRule :=
  ⟨k.1, k.2,
    if (ownRows rows k.1 k.2).any fun r => decide (r.readOperator = .notIn) then .notIn else .isIn,
    firsts ((ownRows rows k.1 k.2).map (·.value))⟩

def rowKey (r : ScopeRow) : ScopeDimension × Nat := (r.dimension, r.number)

theorem mem_ownRows {rows : List ScopeRow} {d : ScopeDimension} {n : Nat} {r : ScopeRow} :
    r ∈ ownRows rows d n ↔ r ∈ rows ∧ r.dimension = d ∧ r.number = n := by
  unfold ownRows
  rw [List.mem_filter, decide_eq_true_eq]

theorem ownRows_eq_nil {rows : List ScopeRow} {d : ScopeDimension} {n : Nat} :
    ownRows rows d n = [] ↔ (d, n) ∉ rows.map rowKey := by
  rw [List.eq_nil_iff_forall_not_mem, List.mem_map]
  constructor
  · rintro h ⟨r, hr, hk⟩
    unfold rowKey at hk
    rw [Prod.mk.injEq] at hk
    exact h r (mem_ownRows.mpr ⟨hr, hk.1, hk.2⟩)
  · intro h r hr
    have hown := mem_ownRows.mp hr
    exact h ⟨r, hown.1, Prod.ext hown.2.1 hown.2.2⟩

theorem ownRows_concat (rows : List ScopeRow) (r : ScopeRow) (k : ScopeDimension × Nat) :
    ownRows (rows ++ [r]) k.1 k.2 =
      if rowKey r = k then ownRows rows k.1 k.2 ++ [r] else ownRows rows k.1 k.2 := by
  unfold ownRows
  rw [List.filter_append]
  by_cases hk : rowKey r = k
  · subst hk
    simp [rowKey]
  · have hne : ¬ (r.dimension = k.1 ∧ r.number = k.2) := fun h => hk (Prod.ext h.1 h.2)
    simp [hk, hne]

theorem ruleOf_concat_ne (rows : List ScopeRow) {r : ScopeRow} {k : ScopeDimension × Nat}
    (hk : rowKey r ≠ k) : ruleOf (rows ++ [r]) k = ruleOf rows k := by
  unfold ruleOf
  rw [ownRows_concat, if_neg hk]

theorem ruleOf_concat_self (rows : List ScopeRow) (r : ScopeRow) :
    ruleOf (rows ++ [r]) (rowKey r) =
      { ruleOf rows (rowKey r) with
        operator := if r.readOperator = .notIn then .notIn else (ruleOf rows (rowKey r)).operator
        values := insert (ruleOf rows (rowKey r)).values r.value } := by
  unfold ruleOf
  rw [ownRows_concat, if_pos rfl, List.map_append, List.map_singleton, firsts_concat]
  by_cases hop : r.readOperator = .notIn
  · simp [hop]
  · simp [hop]

theorem ruleOf_concat_new (rows : List ScopeRow) (r : ScopeRow)
    (hnew : rowKey r ∉ rows.map rowKey) :
    ruleOf (rows ++ [r]) (rowKey r) = ⟨r.dimension, r.number, r.readOperator, [r.value]⟩ := by
  have hnil : ownRows rows (rowKey r).1 (rowKey r).2 = [] := ownRows_eq_nil.mpr hnew
  unfold ruleOf
  rw [ownRows_concat, if_pos rfl, hnil]
  cases hop : r.readOperator <;> simp [rowKey, hop, firsts, Firsts.insert]

/-- The loop of `groupScopeRows` has one rule for each key met, in the order met. -/
theorem foldl_groupRow (rows : List ScopeRow) :
    rows.foldl groupRow [] = (firsts (rows.map rowKey)).map (ruleOf rows) := by
  induction rows using List.reverseRecOn with
  | nil => rfl
  | append_singleton rows r ih =>
    rw [List.foldl_append, ih, List.map_append, List.map_singleton, firsts_concat]
    show groupRow _ r = _
    have hany : (((firsts (rows.map rowKey)).map (ruleOf rows)).any fun rule =>
        decide (rule.dimension = r.dimension ∧ rule.ruleNo = r.number)) = true ↔
        rowKey r ∈ rows.map rowKey := by
      rw [List.any_map, List.any_eq_true]
      constructor
      · rintro ⟨k, hk, heq⟩
        rw [Function.comp_apply, decide_eq_true_eq] at heq
        have : k = rowKey r := Prod.ext heq.1 heq.2
        exact this ▸ mem_firsts.mp hk
      · intro hmem
        exact ⟨rowKey r, mem_firsts.mpr hmem, by simp [ruleOf, rowKey]⟩
    unfold groupRow
    by_cases hmem : rowKey r ∈ rows.map rowKey
    · rw [if_pos (hany.mpr hmem)]
      have hins : insert (firsts (rows.map rowKey)) (rowKey r) = firsts (rows.map rowKey) :=
        if_pos (mem_firsts.mpr hmem)
      rw [hins, List.map_map]
      apply List.map_congr_left
      intro k _
      rw [Function.comp_apply]
      by_cases hk : rowKey r = k
      · subst hk
        rw [ruleOf_concat_self]
        exact if_pos ⟨rfl, rfl⟩
      · rw [ruleOf_concat_ne rows hk]
        exact if_neg fun h => hk (Prod.ext h.1.symm h.2.symm)
    · rw [if_neg fun h => hmem (hany.mp h)]
      have hins : insert (firsts (rows.map rowKey)) (rowKey r) =
          firsts (rows.map rowKey) ++ [rowKey r] :=
        if_neg fun h => hmem (mem_firsts.mp h)
      rw [hins, List.map_append, List.map_singleton, ruleOf_concat_new rows r hmem]
      congr 1
      apply List.map_congr_left
      intro k hk
      have hne : rowKey r ≠ k := fun heq => hmem (heq ▸ mem_firsts.mp hk)
      rw [ruleOf_concat_ne rows hne]

/-- **Grouping**: the rules of stored rows are what the rows of each key make. -/
theorem mem_groupScopeRows {rows : List ScopeRow} {rule : RoleScopeRule} :
    rule ∈ groupScopeRows rows ↔
      ownRows rows rule.dimension rule.ruleNo ≠ [] ∧
        rule = ruleOf rows (rule.dimension, rule.ruleNo) := by
  unfold groupScopeRows
  rw [List.mem_insertionSort, foldl_groupRow, List.mem_map]
  constructor
  · rintro ⟨k, hk, rfl⟩
    refine ⟨?_, rfl⟩
    intro hnil
    exact ownRows_eq_nil.mp hnil (mem_firsts.mp hk)
  · rintro ⟨hne, heq⟩
    refine ⟨(rule.dimension, rule.ruleNo), ?_, heq.symm⟩
    by_contra hk
    exact hne (ownRows_eq_nil.mpr fun h => hk (mem_firsts.mpr h))

theorem mem_foldl_filter {rules : List RoleScopeRule} {acc : List Key} {v : Key} :
    v ∈ rules.foldl (fun allowed (rule : RoleScopeRule) => allowed.filter (· ∈ rule.values)) acc ↔
      v ∈ acc ∧ ∀ rule ∈ rules, v ∈ rule.values := by
  induction rules generalizing acc with
  | nil => simp
  | cons rule rules ih =>
    rw [List.foldl_cons, ih, List.mem_filter, decide_eq_true_eq, List.forall_mem_cons, and_assoc]

/-- Whether one rule allows the value. -/
def RoleScopeRule.Passes (rule : RoleScopeRule) (v : Key) : Prop :=
  match rule.operator with
  | .isIn => v ∈ rule.values
  | .notIn => v ∉ rule.values

def PassesAll (rules : List RoleScopeRule) (v : Key) : Prop :=
  ∀ rule ∈ rules, rule.Passes v

theorem passes_isIn {rule : RoleScopeRule} {v : Key} (hop : rule.operator = .isIn) :
    rule.Passes v ↔ v ∈ rule.values := by
  unfold RoleScopeRule.Passes
  rw [hop]

theorem passes_notIn {rule : RoleScopeRule} {v : Key} (hop : rule.operator = .notIn) :
    rule.Passes v ↔ v ∉ rule.values := by
  unfold RoleScopeRule.Passes
  rw [hop]

theorem mem_combineDimensionRules {rules : List RoleScopeRule} {domain : Option (List Key)}
    {v : Key} :
    v ∈ combineDimensionRules rules domain ↔
      PassesAll rules v ∧ ((∀ rule ∈ rules, rule.operator = .notIn) → v ∈ domain.getD []) := by
  have hexcluded : v ∉ (rules.filter fun r => decide (r.operator = .notIn)).flatMap (·.values) ↔
      ∀ rule ∈ rules, rule.operator = .notIn → v ∉ rule.values := by
    rw [List.mem_flatMap]
    constructor
    · intro h rule hrule hop hv
      exact h ⟨rule, List.mem_filter.mpr ⟨hrule, decide_eq_true hop⟩, hv⟩
    · rintro h ⟨rule, hrule, hv⟩
      have hmem := List.mem_filter.mp hrule
      exact h rule hmem.1 (of_decide_eq_true hmem.2) hv
  have hpasses : PassesAll rules v ↔ (∀ rule ∈ rules, rule.operator = .isIn → v ∈ rule.values) ∧
      ∀ rule ∈ rules, rule.operator = .notIn → v ∉ rule.values := by
    constructor
    · intro h
      exact ⟨fun rule hrule hop => (passes_isIn hop).mp (h rule hrule),
        fun rule hrule hop => (passes_notIn hop).mp (h rule hrule)⟩
    · intro h rule hrule
      cases hop : rule.operator with
      | isIn => exact (passes_isIn hop).mpr (h.1 rule hrule hop)
      | notIn => exact (passes_notIn hop).mpr (h.2 rule hrule hop)
  unfold combineDimensionRules
  rw [List.mem_filter, decide_eq_true_eq, hexcluded, hpasses]
  cases hin : rules.filter fun r => decide (r.operator = .isIn) with
  | nil =>
    have hall : ∀ rule ∈ rules, rule.operator ≠ .isIn := by
      intro rule hrule hop
      have : rule ∈ rules.filter fun r => decide (r.operator = .isIn) :=
        List.mem_filter.mpr ⟨hrule, decide_eq_true hop⟩
      rw [hin] at this
      cases this
    have hnot : ∀ rule ∈ rules, rule.operator = .notIn := by
      intro rule hrule
      have := hall rule hrule
      cases hop : rule.operator with
      | isIn => exact absurd hop this
      | notIn => rfl
    show v ∈ firsts (domain.getD []) ∧ _ ↔ _
    rw [mem_firsts]
    constructor
    · intro h
      exact ⟨⟨fun rule hrule hop => absurd hop (hall rule hrule), h.2⟩, fun _ => h.1⟩
    · intro h
      exact ⟨h.2 hnot, h.1.2⟩
  | cons first rest =>
    have hmem : ∀ rule, rule ∈ first :: rest ↔ rule ∈ rules ∧ rule.operator = .isIn := by
      intro rule
      rw [← hin, List.mem_filter, decide_eq_true_eq]
    show v ∈ rest.foldl (fun allowed (rule : RoleScopeRule) => allowed.filter (· ∈ rule.values))
      (firsts first.values) ∧ _ ↔ _
    have hfirst := (hmem first).mp List.mem_cons_self
    rw [mem_foldl_filter, mem_firsts]
    constructor
    · intro h
      refine ⟨⟨?_, h.2⟩, ?_⟩
      · intro rule hrule hop
        rcases List.mem_cons.mp ((hmem rule).mpr ⟨hrule, hop⟩) with rfl | hrest
        · exact h.1.1
        · exact h.1.2 rule hrest
      · intro hall
        have := hall first hfirst.1
        rw [hfirst.2] at this
        cases this
    · intro h
      refine ⟨⟨h.1.1 first hfirst.1 hfirst.2, ?_⟩, h.1.2⟩
      intro rule hrest
      have := (hmem rule).mp (List.mem_cons_of_mem _ hrest)
      exact h.1.1 rule this.1 this.2

theorem mem_allowedValues {rules : List RoleScopeRule} {domain : Option (List Key)}
    {d : ScopeDimension} {v : Key} :
    v ∈ allowedValues rules domain d ↔
      v ∈ combineDimensionRules (rules.filter fun r => decide (r.dimension = d)) domain ∨
        combineDimensionRules (rules.filter fun r => decide (r.dimension = d)) domain = [] ∧
          v = scopeNoMatchValue d := by
  unfold allowedValues
  simp only [List.isEmpty_iff]
  split
  · next h => simp [h]
  · next h => simp [h]

theorem mem_resolveRoleScope {rules : List RoleScopeRule}
    {domain : ScopeDimension → Option (List Key)} {d : ScopeDimension} {v : Key} :
    (d, v) ∈ resolveRoleScope rules domain ↔
      (∃ rule ∈ rules, rule.dimension = d) ∧ v ∈ allowedValues rules (domain d) d := by
  unfold resolveRoleScope
  rw [List.mem_flatMap]
  constructor
  · rintro ⟨d', hd', hmem⟩
    obtain ⟨v', hv', heq⟩ := List.mem_map.mp hmem
    rw [Prod.mk.injEq] at heq
    obtain ⟨rfl, rfl⟩ := heq
    exact ⟨List.mem_map.mp (mem_firsts.mp hd'), hv'⟩
  · rintro ⟨hd, hv⟩
    exact ⟨d, mem_firsts.mpr (List.mem_map.mpr hd), List.mem_map.mpr ⟨v, hv, rfl⟩⟩

/-! ## What the stored rules allow -/

/-- The stored rows of a role; the rows of one rule share their operator. -/
structure RoleRows where
  rows : List ScopeRow
  one_operator : ∀ r ∈ rows, ∀ r' ∈ rows, rowKey r = rowKey r' → r.readOperator = r'.readOperator

def RoleRows.Restricts (scope : RoleRows) (d : ScopeDimension) : Prop :=
  ∃ r ∈ scope.rows, r.dimension = d

/-- The value is among those of every "in" rule and of no "not_in" rule. -/
def RoleRows.Allows (scope : RoleRows) (d : ScopeDimension) (v : Key) : Prop :=
  ∀ r ∈ scope.rows, r.dimension = d → match r.readOperator with
    | .isIn => ∃ r' ∈ scope.rows, rowKey r' = rowKey r ∧ r'.value = v
    | .notIn => r.value ≠ v

def RoleRows.OnlyExcludes (scope : RoleRows) (d : ScopeDimension) : Prop :=
  ∀ r ∈ scope.rows, r.dimension = d → r.readOperator = .notIn

/-- A value the rules of a dimension leave: without an "in" rule it is a current key. -/
def RoleRows.Leaves (scope : RoleRows) (dims : DimTables) (d : ScopeDimension) (v : Key) : Prop :=
  scope.Allows d v ∧ (scope.OnlyExcludes d → v ∈ dims.keys d)

def RoleRows.LeavesNothing (scope : RoleRows) (dims : DimTables) (d : ScopeDimension) : Prop :=
  scope.Restricts d ∧ ∀ v, ¬ scope.Leaves dims d v

/-- Allowed, or the no-match value of a dimension on which nothing is left. -/
def RoleRows.Seen (scope : RoleRows) (dims : DimTables) (d : ScopeDimension) (v : Key) : Prop :=
  scope.Allows d v ∨ scope.LeavesNothing dims d ∧ v = scopeNoMatchValue d

end SalesDashboard.DataScope
