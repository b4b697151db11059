import SalesDashboard.DataScope.Resolution

/-! Role data scope as a wall: which rows a request that is let through can see. -/

namespace SalesDashboard.DataScope
open Firsts

/-! ## The scope on a request -/

/-- An empty filter is no restriction. -/
def Meets (filters : Filters) (d : ScopeDimension) (v : Key) : Prop :=
  filters (.scope d) = [] ∨ v ∈ filters (.scope d)

def MeetsCustomer (filters : Filters) (row : FactRow) : Prop :=
  filters .customerKeys = [] ∨ ∃ c, row.customerKey = some c ∧ .num c ∈ filters .customerKeys

/-- Every effective key of the row is a key of its dimension table. -/
def Known (dims : DimTables) (sap : Profiles) (row : FactRow) : Prop :=
  ∀ d, effectiveKey sap row d ∈ dims.keys d

/-- The rows a caller may see: inside every rule, and their own at the SALESPERSON
tier, else what the request asks for. -/
def Permitted (user : RequestUser) (scope : RoleRows) (q : Query) (sap : Profiles)
    (row : FactRow) : Prop :=
  (∀ d, scope.Allows d (effectiveKey sap row d)) ∧
    (user.roleTierCode = some "SALESPERSON" → user.salespersonKey = some row.salespersonKey) ∧
    (user.roleTierCode ≠ some "SALESPERSON" →
      (∀ d, Meets (rawFilters q) d (effectiveKey sap row d)) ∧ MeetsCustomer (rawFilters q) row)

open Classical in
/-- The filters show the permitted rows and no other, so the answer depends on no other. -/
structure Wall (user : RequestUser) (scope : RoleRows) (dims : DimTables) (q : Query)
    (filters : Filters) : Prop where
  row : ∀ sap row, Known dims sap row →
    (buildWhereClause filters true sap row = true ↔ Permitted user scope q sap row)
  answer : ∀ sap (warehouse other : List FactRow), (∀ row ∈ warehouse, Known dims sap row) →
    (∀ row ∈ other, Known dims sap row) →
    (warehouse.filter fun row => decide (Permitted user scope q sap row)) =
      (other.filter fun row => decide (Permitted user scope q sap row)) →
    warehouse.filter (buildWhereClause filters true sap) =
      other.filter (buildWhereClause filters true sap)

/-- A row with given keys: its salesperson's overrides are free. -/
theorem exists_row {dims : DimTables} (keys : ScopeDimension → Key)
    (hkeys : ∀ d, keys d ∈ dims.keys d) (customer : Option ℚ) :
    ∃ sap row, (∀ d, effectiveKey sap row d = keys d) ∧ row.customerKey = customer := by
  obtain ⟨company, -, hcompany⟩ := List.mem_map.mp (hkeys .companyKeys)
  obtain ⟨segment, -, hsegment⟩ := List.mem_map.mp (hkeys .segmentKeys)
  obtain ⟨channel, -, hchannel⟩ := List.mem_map.mp (hkeys .channelKeys)
  obtain ⟨team, -, hteam⟩ := List.mem_map.mp (hkeys .salesTeamKeys)
  obtain ⟨person, -, hperson⟩ := List.mem_map.mp (hkeys .salespersonKeys)
  refine ⟨fun _ => ⟨some segment, some channel, some team⟩,
    ⟨company, segment, channel, team, person, customer⟩, fun d => ?_, rfl⟩
  cases d with
  | companyKeys => exact hcompany
  | segmentKeys => exact hsegment
  | channelKeys => exact hchannel
  | salesTeamKeys => exact hteam
  | salespersonKeys => exact hperson

theorem exists_customer (q : Query) : ∃ customer, ∀ row : FactRow, row.customerKey = customer →
    MeetsCustomer (rawFilters q) row := by
  cases h : rawFilters q .customerKeys with
  | nil => exact ⟨none, fun _ _ => .inl h⟩
  | cons k ks =>
    have hk : k ∈ rawFilters q .customerKeys := h ▸ List.mem_cons_self
    obtain ⟨n, -, hn⟩ := List.mem_filterMap.mp hk
    cases n with
    | none => cases hn
    | some c =>
      cases hn
      exact ⟨some c, fun row hrow => .inr ⟨c, hrow, hk⟩⟩

def noOverrides : Profiles := fun _ => ⟨none, none, none⟩
end SalesDashboard.DataScope
