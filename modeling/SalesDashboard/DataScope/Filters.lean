import SalesDashboard.Lib.Firsts
import Mathlib

/-! Row-level data scope (`filters.ts`, `scopeContext.ts`, the read side of
`dataScopeService.ts`): the stored rules of a role are grouped, resolved to allowed
values, forced on or intersected with the request, and become the `WHERE` clause of
every query. Numbers are finite. A stored value of a numeric dimension is the
decimal text of a key, and stands here as that number. A stored row of an unknown
dimension is skipped by `groupScopeRows`, and left out. -/

namespace SalesDashboard.DataScope
open Firsts

/-! ## Filters -/

inductive ScopeDimension
  | companyKeys | segmentKeys | channelKeys | salesTeamKeys | salespersonKeys
  deriving DecidableEq, Repr

def SCOPE_DIMENSIONS : List ScopeDimension :=
  [.companyKeys, .segmentKeys, .channelKeys, .salesTeamKeys, .salespersonKeys]

/-- The fields of `Filters`. -/
inductive Field
  | scope (dimension : ScopeDimension)
  | customerKeys
  deriving DecidableEq, Repr

def FILTER_FIELDS : List Field := SCOPE_DIMENSIONS.map .scope ++ [.customerKeys]

inductive Key
  | num (n : ℚ)
  | text (s : String)
  deriving DecidableEq

/-- An empty list is no restriction. -/
abbrev Filters := Field → List Key

/-- Names that may be missing are compared by this instance throughout. -/
instance lawfulName : LawfulBEq (Option String) := inferInstance

/-! ## Fact rows -/

/-- The overrides of `salesperson_admin_profile`. -/
structure Overrides where
  segmentKey : Option ℚ
  channelKey : Option ℚ
  salesTeamKey : Option String
  deriving DecidableEq

/-- The profile of each salesperson key; nothing is overridden without one. -/
abbrev Profiles := ℚ → Overrides

structure FactRow where
  companyKey : ℚ
  segmentKey : ℚ
  channelKey : ℚ
  salesTeamKey : String
  salespersonKey : ℚ
  customerKey : Option ℚ
  deriving DecidableEq

def effectiveSegment (sap : Profiles) (row : FactRow) : ℚ :=
  (sap row.salespersonKey).segmentKey.getD row.segmentKey

def effectiveSalesTeam (sap : Profiles) (row : FactRow) : String :=
  (sap row.salespersonKey).salesTeamKey.getD row.salesTeamKey

def effectiveChannel (sap : Profiles) (row : FactRow) : ℚ :=
  (sap row.salespersonKey).channelKey.getD
    (if row.channelKey ≠ -1 then row.channelKey
      else if effectiveSegment sap row ∈ [(2 : ℚ), 3] then 3
      else if effectiveSegment sap row ∈ [(1 : ℚ), 4] then 2
      else -1)

/-- The key of the row on a dimension, as every filter sees it. -/
def effectiveKey (sap : Profiles) (row : FactRow) : ScopeDimension → Key
  | .companyKeys => .num row.companyKey
  | .segmentKeys => .num (effectiveSegment sap row)
  | .channelKeys => .num (effectiveChannel sap row)
  | .salesTeamKeys => .text (effectiveSalesTeam sap row)
  | .salespersonKeys => .num row.salespersonKey

def column (sap : Profiles) (row : FactRow) : Field → Option Key
  | .scope dimension => some (effectiveKey sap row dimension)
  | .customerKeys => row.customerKey.map .num

/-- Whether the row meets the clause; `NULL IN (…)` is not true. -/
def buildWhereClause (filters : Filters) (supportsCustomer : Bool) (sap : Profiles)
    (row : FactRow) : Bool :=
  FILTER_FIELDS.all fun field =>
    if field = .customerKeys ∧ supportsCustomer = false then true
    else if filters field = [] then true
    else match column sap row field with
      | some key => decide (key ∈ filters field)
      | none => false

/-! ## The salesperson lock -/

inductive ScopeOperator
  | isIn | notIn
  deriving DecidableEq, Repr

/-- A row of `role_data_scope`; number and operator are null before their
migrations. -/
structure ScopeRow where
  dimension : ScopeDimension
  ruleNo : Option Nat
  operator : Option ScopeOperator
  value : Key
  deriving DecidableEq

/-- `Number(r.rule_no ?? 1) || 1`. -/
def ScopeRow.number (r : ScopeRow) : Nat :=
  if r.ruleNo.getD 1 = 0 then 1 else r.ruleNo.getD 1

def ScopeRow.readOperator (r : ScopeRow) : ScopeOperator :=
  if r.operator = some .notIn then .notIn else .isIn

structure RoleScopeRule where
  dimension : ScopeDimension
  ruleNo : Nat
  operator : ScopeOperator
  values : List Key
  deriving DecidableEq

/-- One turn of the loop of `groupScopeRows`. -/
def groupRow (rules : List RoleScopeRule) (r : ScopeRow) : List RoleScopeRule :=
  if rules.any fun rule => decide (rule.dimension = r.dimension ∧ rule.ruleNo = r.number) then
    rules.map fun rule =>
      if rule.dimension = r.dimension ∧ rule.ruleNo = r.number then
        { rule with
          operator := if r.readOperator = .notIn then .notIn else rule.operator
          values := insert rule.values r.value }
      else rule
  else rules ++ [⟨r.dimension, r.number, r.readOperator, [r.value]⟩]

def groupScopeRows (rows : List ScopeRow) : List RoleScopeRule :=
  let dimensionOrder := firsts (rows.map (·.dimension))
  (rows.foldl groupRow []).insertionSort fun a b =>
    dimensionOrder.idxOf a.dimension < dimensionOrder.idxOf b.dimension ∨
      (dimensionOrder.idxOf a.dimension = dimensionOrder.idxOf b.dimension ∧ a.ruleNo ≤ b.ruleNo)

/-! ## Resolution -/

/-- A value no dimension key can have. -/
def scopeNoMatchValue (dimension : ScopeDimension) : Key :=
  if dimension = .salesTeamKeys then .text "__no_scope_match__" else .num (-2147483648)

def combineDimensionRules (rules : List RoleScopeRule) (domain : Option (List Key)) : List Key :=
  let inRules := rules.filter fun r => decide (r.operator = .isIn)
  let excluded := (rules.filter fun r => decide (r.operator = .notIn)).flatMap (·.values)
  let allowed := match inRules with
    | [] => firsts (domain.getD [])
    | first :: rest =>
        rest.foldl (fun allowed (rule : RoleScopeRule) => allowed.filter (· ∈ rule.values))
          (firsts first.values)
  allowed.filter (· ∉ excluded)

def dimensionsNeedingDomain (rules : List RoleScopeRule) : List ScopeDimension :=
  SCOPE_DIMENSIONS.filter fun d =>
    let own := rules.filter fun r => decide (r.dimension = d)
    !own.isEmpty && own.all fun r => decide (r.operator = .notIn)

/-- The allowed values of a dimension that has rules. -/
def allowedValues (rules : List RoleScopeRule) (domain : Option (List Key))
    (d : ScopeDimension) : List Key :=
  let allowed := combineDimensionRules (rules.filter fun r => decide (r.dimension = d)) domain
  if allowed.isEmpty then [scopeNoMatchValue d] else allowed

def resolveRoleScope (rules : List RoleScopeRule)
    (domain : ScopeDimension → Option (List Key)) : List (ScopeDimension × Key) :=
  (firsts (rules.map (·.dimension))).flatMap fun d =>
    (allowedValues rules (domain d) d).map fun value => (d, value)

/-- The current keys of the `dim_*` tables. -/
structure DimTables where
  company : List ℚ
  segment : List ℚ
  channel : List ℚ
  salesTeam : List String
  salesperson : List ℚ

def DimTables.keys (dims : DimTables) : ScopeDimension → List Key
  | .companyKeys => dims.company.map .num
  | .segmentKeys => dims.segment.map .num
  | .channelKeys => dims.channel.map .num
  | .salesTeamKeys => dims.salesTeam.map .text
  | .salespersonKeys => dims.salesperson.map .num

/-- The keys of the dimensions that need them. -/
def dimensionKeys (dims : DimTables) (dimensions : List ScopeDimension) (d : ScopeDimension) :
    Option (List Key) :=
  if d ∈ dimensions then some (dims.keys d) else none

def getRoleDataScopeRules (rows : List ScopeRow) (dims : DimTables) :
    List (ScopeDimension × Key) :=
  let rules := groupScopeRows rows
  resolveRoleScope rules (dimensionKeys dims (dimensionsNeedingDomain rules))

/-! ## The role's scope on a request -/

/-- The signed-in user, as `requireAuth` leaves it. -/
structure RequestUser where
  roleTierCode : Option String
  salespersonKey : Option ℚ

/-- The filter parameters of a query string. A number that does not parse is `none`. -/
structure Query where
  numbers : Field → Option (List (Option ℚ))
  salesTeamKeys : Option (List String)

def parseNumberArray (raw : Option (List (Option ℚ))) : List Key :=
  (raw.getD []).filterMap fun n => n.map .num

def parseStringArray (raw : Option (List String)) : List Key :=
  (raw.getD []).map .text

def rawFilters (q : Query) : Filters
  | .scope .salesTeamKeys => parseStringArray q.salesTeamKeys
  | field => parseNumberArray (q.numbers field)

structure Refusal where
  status : Nat
  error : String
  deriving DecidableEq, Repr

end SalesDashboard.DataScope
