import Mathlib

/-! The keys of source ids, the same in every department (`core/resolve.py`). -/

namespace SalesDashboard.Conformed

def UNKNOWN : Int := -1

def UNKNOWN_TEXT : String := "-1"

/-- An id as a source gives it. -/
inductive SourceId
  /-- `None`, `False`, a blank, NaN, an empty pair, a text that is no number. -/
  | missing
  /-- A finite number, as the float that `float` makes of it. -/
  | number (x : ℚ)
  /-- Odoo's `[id, name]`. -/
  | pair (id : Int)
  deriving DecidableEq

/-- `_int_or_none`; `int` cuts towards zero. -/
def SourceId.intOrNone : SourceId → Option Int
  | .missing => none
  | .number x => some (x.num.tdiv x.den)
  | .pair id => some id

structure KeyMaps where
  partnerCustomer : Int → Option Int
  userSalesperson : Int → Option Int
  /-- The team, and whether it follows the salesperson. -/
  teamMap : Int → Option (String × Bool)
  salespersonTeam : Int → Option String
  salespersonChannel : Int → Option Int
  teamSegment : String → Option Int
  companyKeys : Int → Bool
  productKeys : Int → Bool

namespace KeyMaps
variable (m : KeyMaps)

def customerKey (v : SourceId) : Int := (v.intOrNone.bind m.partnerCustomer).getD UNKNOWN

def salespersonKey (v : SourceId) : Int := (v.intOrNone.bind m.userSalesperson).getD UNKNOWN

/-- The ids that were given and have the Unknown key. -/
def fellBack (key : SourceId → Int) (ids : List SourceId) : List Int :=
  ids.filterMap fun v => v.intOrNone.bind fun id => if key v = UNKNOWN then some id else none

def customers (ids : List SourceId) : List Int × List Int := (ids.map m.customerKey, fellBack m.customerKey ids)

def salespeople (ids : List SourceId) : List Int × List Int := (ids.map m.salespersonKey, fellBack m.salespersonKey ids)

def personTeam (personFallback : Bool) (person : Int) : String :=
  if personFallback then (m.salespersonTeam person).getD UNKNOWN_TEXT else UNKNOWN_TEXT

/-- The team as transacted. -/
def teamKey (personFallback : Bool) (v : SourceId) (person : Int) : String :=
  match v.intOrNone with
  | none => m.personTeam personFallback person
  | some id =>
      match m.teamMap id with
      | none => UNKNOWN_TEXT
      | some (team, follows) => if follows then m.personTeam personFallback person else team

def unlistedTeam (v : SourceId) : Option Int :=
  v.intOrNone.bind fun id => if (m.teamMap id).isNone then some id else none

def teams (personFallback : Bool) (ids : List SourceId) (people : List Int) : List String × List Int :=
  (List.zipWith (m.teamKey personFallback) ids people, (ids.zip people).filterMap fun x => m.unlistedTeam x.1)

def segmentKey (team : String) : Int := (m.teamSegment team).getD UNKNOWN

def segments (teams : List String) : List Int := teams.map m.segmentKey

def channelKey (person : Int) : Int := (m.salespersonChannel person).getD UNKNOWN

def channels (people : List Int) : List Int := people.map m.channelKey

/-- A key that is its own id, if the dimension has it. -/
def ownKey (keys : Int → Bool) (v : SourceId) : Int := ((v.intOrNone).filter keys).getD UNKNOWN

/-- The ids that were given and are not in the dimension. -/
def notIn (keys : Int → Bool) (ids : List SourceId) : List Int :=
  ids.filterMap fun v => v.intOrNone.filter fun id => ! keys id

def companies (ids : List SourceId) : List Int × List Int := (ids.map (ownKey m.companyKeys), notIn m.companyKeys ids)

def products (ids : List SourceId) : List Int × List Int := (ids.map (ownKey m.productKeys), notIn m.productKeys ids)

end KeyMaps

end SalesDashboard.Conformed
