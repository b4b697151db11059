import SalesDashboard.Filters.Cascade
import SalesDashboard.DataScope.Wall
import Mathlib

/-! The options of the filter bar (`GET /filters/options`: `optionsService.ts`,
`routes/filters.ts`). A report is asked with the filters that the answer carries and one of
its options; the middleware scopes that request as any other. Names of the values are left
out: of each table its keys are here, in display order. So are the caches, which keep the
combinations and the values of a table for up to 60 seconds: every read is of the warehouse
as it stands. -/

namespace SalesDashboard.Filters
open CrossFilter DataScope Firsts

/-! ## Keys as texts -/

/-- `String(n)`. A number that is not whole has a text that is no number's here. -/
def numText (n : ℚ) : String := if n.den = 1 then n.num.repr else n.num.repr ++ "/" ++ n.den.repr

/-- `Number(s)` of a whole number's text. -/
def numOf (s : String) : Option ℚ := s.toInt?.map fun n => (n : ℚ)

def keyText : Key → String
  | .num n => numText n
  | .text s => s

def fieldOf : Dimension → Field
  | .companyKeys => .scope .companyKeys
  | .segmentKeys => .scope .segmentKeys
  | .channelKeys => .scope .channelKeys
  | .salesTeamKeys => .scope .salesTeamKeys
  | .salespersonKeys => .scope .salespersonKeys
  | .customerKeys => .customerKeys

/-- A line of `v_sales_lines` with its day in `dim_date`. -/
structure SalesLine where
  date : Option ℤ
  row : FactRow

/-- Both ends inclusive. -/
structure DateWindow where
  start : Option ℤ
  stop : Option ℤ

def DateWindow.has (window : DateWindow) (day : ℤ) : Bool :=
  window.start.all (fun start => decide (start ≤ day)) && window.stop.all fun stop => decide (day ≤ stop)

/-- The lines of the window; a line without a day is in none. -/
def linesIn (window : DateWindow) (lines : List SalesLine) : List SalesLine :=
  lines.filter fun l => l.date.any window.has

instance fintypeDimension : Fintype Dimension := ⟨DIMENSIONS.toFinset, fun d => by cases d <;> decide⟩

/-- The keys of the name tables. -/
structure Names where
  keys : Dimension → List String
  whole : ∀ d, d ≠ .salesTeamKeys → ∀ v ∈ keys d, ∃ n : ℤ, v = n.repr

/-! ## The request -/

def known (names : Names) (selection : Selection) (d : Dimension) : List String :=
  (selection d).filter fun v => decide (v ∈ names.keys d)

/-- The request with one value of one dimension instead of its selection. -/
def pick (filters : Query) (d : Dimension) (v : String) : Query :=
  if d = .salesTeamKeys then { filters with salesTeamKeys := some [v] }
  else { filters with numbers := Function.update filters.numbers (fieldOf d) (some [numOf v]) }

/-! ## Texts of keys -/

/-- Teams have texts as keys, the other dimensions numbers. -/
def Typed (d : Dimension) (key : Key) : Prop := (∃ s, key = .text s) ↔ d = .salesTeamKeys

/-- The texts of a request's keys. -/
def textsOf (F : Filters) : Selection := fun d => (F (fieldOf d)).map keyText

section
variable {context : UserContext}

end

/-! ## The options of an answer -/

section
variable {context : UserContext} {names : Names} {sap : Profiles} {lines : List SalesLine}
  {start stop : Option ℤ} {q : Query} {res : FilterOptionsResult}

end

/-! ### Two lines, one manager -/

end SalesDashboard.Filters
