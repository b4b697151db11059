import SalesDashboard.DataScope.Resolution

/-! Saving and removing the data-scope rules of one role (`dataScopeService.ts`), by
any number of calls at once. Each statement of a call is one step, and so is each
transaction. The columns `operator` and `rule_no` are there, and the stored rows are
listed by `scope_id`. -/

namespace SalesDashboard.DataScope
open Firsts

/-! ## What a call is given -/

/-- A request body. An unknown dimension or operator is `none`, and so are values that
are no list, and an item of the list that is empty, too long, or no text or number. -/
structure RuleInput where
  dimension : Option ScopeDimension
  operator : Option ScopeOperator
  values : Option (List (Option Key))
  deriving DecidableEq

inductive ValidationError
  | unknownDimension | badOperator | valuesNotAList | noValue | badValue
  | unknownValues (values : List Key)
  | noMatch
  | ruleGone
  deriving DecidableEq

/-- A parsed rule: at least one value, none twice. -/
structure NewRule where
  dimension : ScopeDimension
  operator : ScopeOperator
  values : List Key
  nodup : values.Nodup
  ne_nil : values ≠ []
  deriving DecidableEq

def NewRule.saved (rule : NewRule) (ruleNo : Nat) : RoleScopeRule :=
  ⟨rule.dimension, ruleNo, rule.operator, rule.values⟩

theorem firsts_given_ne_nil {items : List (Option Key)} (hitems : items ≠ []) (hnone : none ∉ items) :
    firsts (items.filterMap id) ≠ [] := by
  obtain ⟨item, hitem⟩ := List.exists_mem_of_ne_nil _ hitems
  cases item with
  | none => exact absurd hitem hnone
  | some v =>
    exact List.ne_nil_of_mem (mem_firsts.mpr (List.mem_filterMap.mpr ⟨some v, hitem, rfl⟩))

def parseScopeRuleInput (raw : RuleInput) : Except ValidationError NewRule :=
  match raw.dimension, raw.operator, raw.values with
  | none, _, _ => .error .unknownDimension
  | some _, none, _ => .error .badOperator
  | some _, some _, none => .error .valuesNotAList
  | some dimension, some operator, some items =>
      if hitems : items = [] then .error .noValue
      else if hnone : none ∈ items then .error .badValue
      else .ok ⟨dimension, operator, firsts (items.filterMap id), nodup_firsts _,
        firsts_given_ne_nil hitems hnone⟩

def validatedRule (input : RuleInput) (dims : DimTables) :
    Except ValidationError (NewRule × List Key) :=
  match parseScopeRuleInput input with
  | .error e => .error e
  | .ok rule =>
      let domain := dims.keys rule.dimension
      let unknown := rule.values.filter (· ∉ domain)
      if unknown ≠ [] then .error (.unknownValues unknown) else .ok (rule, domain)

/-! ## Reads and writes -/

/-- `ORDER BY rule_no, scope_id`. -/
def readScopeRows (table : List ScopeRow) : List ScopeRow :=
  table.insertionSort fun a b => a.number ≤ b.number

def getRoleScopeRules (table : List ScopeRow) : List RoleScopeRule :=
  groupScopeRows (readScopeRows table)

def existingRules (table : List ScopeRow) (d : ScopeDimension) : List RoleScopeRule :=
  (getRoleScopeRules table).filter fun r => decide (r.dimension = d)

def assertRulesMatchData (rules : List (ScopeOperator × List Key)) (d : ScopeDimension)
    (domain : List Key) : Except ValidationError Unit :=
  if rules.length < 2 then .ok ()
  else if combineDimensionRules (rules.map fun r => ⟨d, 0, r.1, r.2⟩) (some domain) = [] then
    .error .noMatch
  else .ok ()

def ruleRow (rule : RoleScopeRule) (value : Key) : ScopeRow :=
  ⟨rule.dimension, some rule.ruleNo, some rule.operator, value⟩

/-- Fails where the unique key (role, dimension, rule_no, value) is taken. -/
def insertRuleRows (rule : RoleScopeRule) : List ScopeRow → List Key → Option (List ScopeRow)
  | table, [] => some table
  | table, value :: values =>
      if table.any fun r => decide (r.dimension = rule.dimension ∧ r.ruleNo = some rule.ruleNo ∧
          r.value = value) then none
      else insertRuleRows rule (table ++ [ruleRow rule value]) values

def deleteRule (table : List ScopeRow) (d : ScopeDimension) (n : Nat) : List ScopeRow :=
  table.filter fun r => ! decide (r.dimension = d ∧ r.ruleNo = some n)

def deleteDimension (table : List ScopeRow) (d : ScopeDimension) : List ScopeRow :=
  table.filter fun r => decide (r.dimension ≠ d)

/-- The transaction, or single `DELETE`, that a call has come to. -/
inductive Write
  | insert (rule : NewRule) (ruleNo : Nat)
  | replace (rule : NewRule) (ruleNo : Nat)
  | overwrite (rule : NewRule)
  | deleteRule (dimension : ScopeDimension) (ruleNo : Nat)
  deriving DecidableEq

/-- The rule the call returns. -/
def Write.saved : Write → Option RoleScopeRule
  | .insert rule n | .replace rule n => some (rule.saved n)
  | .overwrite rule => some (rule.saved 1)
  | .deleteRule _ _ => none

/-- `none` is a rolled back transaction. -/
def Write.run (table : List ScopeRow) : Write → Option (List ScopeRow)
  | .insert rule n => insertRuleRows (rule.saved n) table rule.values
  | .replace rule n =>
      insertRuleRows (rule.saved n) (DataScope.deleteRule table rule.dimension n) rule.values
  | .overwrite rule => insertRuleRows (rule.saved 1) (deleteDimension table rule.dimension) rule.values
  | .deleteRule d n => some (DataScope.deleteRule table d n)

/-! ## Calls -/

inductive Saving
  | addRoleScopeRule
  | updateRoleScopeRule (ruleNo : Nat)
  | setRoleScopeRule
  deriving DecidableEq

inductive Call
  | save (kind : Saving) (input : RuleInput)
  | removeRoleScopeRule (dimension : Option ScopeDimension) (ruleNo : Option Nat)
  deriving DecidableEq

inductive Phase
  | called (c : Call)
  | validated (kind : Saving) (rule : NewRule) (domain : List Key)
  | ready (w : Write)
  | returned (saved : RoleScopeRule)
  | removed
  | refused (e : ValidationError)
  | failed
  deriving DecidableEq

/-- What a call that has its domain decides on the stored rows. -/
def decideWrite (table : List ScopeRow) (rule : NewRule) (domain : List Key) : Saving → Phase
  | .addRoleScopeRule =>
      let existing := existingRules table rule.dimension
      match assertRulesMatchData
          (existing.map (fun r => (r.operator, r.values)) ++ [(rule.operator, rule.values)])
          rule.dimension domain with
      | .error e => .refused e
      | .ok () => .ready (.insert rule ((existing.map (·.ruleNo)).foldl max 0 + 1))
  | .updateRoleScopeRule ruleNo =>
      let existing := existingRules table rule.dimension
      if (existing.any fun r => decide (r.ruleNo = ruleNo)) = false then .refused .ruleGone
      else match assertRulesMatchData
          ((existing.filter fun r => decide (r.ruleNo ≠ ruleNo)).map (fun r => (r.operator, r.values))
            ++ [(rule.operator, rule.values)]) rule.dimension domain with
      | .error e => .refused e
      | .ok () => .ready (.replace rule ruleNo)
  | .setRoleScopeRule => .ready (.overwrite rule)

structure State where
  table : List ScopeRow
  dims : DimTables
  calls : List Phase

inductive Action
  | warehouse (dims : DimTables)
  | call (c : Call)
  | advance (i : Nat)

/-- The next statement of a call. -/
def advance (st : State) : Phase → Option (List ScopeRow × Phase)
  | .called (.removeRoleScopeRule none _) => some (st.table, .refused .unknownDimension)
  | .called (.removeRoleScopeRule (some d) none) => some (deleteDimension st.table d, .removed)
  | .called (.removeRoleScopeRule (some d) (some n)) => some (st.table, .ready (.deleteRule d n))
  | .called (.save kind input) =>
      match validatedRule input st.dims with
      | .error e => some (st.table, .refused e)
      | .ok (rule, domain) => some (st.table, .validated kind rule domain)
  | .validated kind rule domain => some (st.table, decideWrite st.table rule domain kind)
  | .ready w =>
      match w.run st.table with
      | none => some (st.table, .failed)
      | some table =>
          match w.saved with
          | some saved => some (table, .returned saved)
          | none => some (table, .removed)
  | .returned _ | .removed | .refused _ | .failed => none

def step (st : State) : Action → Option State
  | .warehouse dims => some { st with dims := dims }
  | .call c => some { st with calls := st.calls ++ [.called c] }
  | .advance i =>
      match st.calls[i]? with
      | none => none
      | some p => (advance st p).map fun next =>
          { st with table := next.1, calls := st.calls.set i next.2 }

end SalesDashboard.DataScope
