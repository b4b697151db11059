import SalesDashboard.Lib.Latest
import SalesDashboard.MarcomKpi.Spending

/-! The MARCOM Digital page (`digital.ts`, `formulas.ts`): social and website rows, those
uploaded without a brand dropped where their cell has rows of a brand, added up over all,
by platform, by month and by brand, and the latest follower snapshots. Figures are exact,
before they are rounded for output, and a card is its value and the two months its trend
compares; the colours of the cards are left out. -/

namespace SalesDashboard.MarcomKpi
open Grouping Latest

/-! ## Rows -/

inductive Platform
  | facebook | google | linkedIn | instagram | tikTok
  deriving DecidableEq, Repr

def PLATFORMS : List Platform := [.facebook, .google, .linkedIn, .instagram, .tikTok]

/-- A row without a brand is one uploaded before the template had brands. -/
structure SocialRow where
  year : ℕ
  month : ℕ
  platform : Platform
  brandId : Option ℕ
  accountName : Option String
  followers : ℚ
  impressions : ℚ
  clicks : ℚ
  paid : ℚ
  organic : ℚ
  deriving DecidableEq

structure WebRow where
  year : ℕ
  month : ℕ
  brandId : Option ℕ
  bounce : ℚ
  totalVisitors : ℚ
  sessions : ℚ
  minutes : ℚ
  deriving DecidableEq

structure DigitalInput where
  year : ℕ
  fromMonth : ℕ
  toMonth : ℕ
  social : List SocialRow
  web : List WebRow
  platforms : List Platform
  brands : List BrandRef

def SocialRow.cell (r : SocialRow) : ℕ × ℕ × Platform := (r.year, r.month, r.platform)

def WebRow.cell (r : WebRow) : ℕ × ℕ := (r.year, r.month)

section
variable {T κ : Type} [DecidableEq κ]

/-- Rows without a brand go where their cell has rows with one. -/
def dropSupersededLegacy (brandId : T → Option ℕ) (cell : T → κ) (rows : List T) : List T :=
  let branded := (rows.filter fun r => (brandId r).isSome).map cell
  rows.filter fun r => (brandId r).isSome || decide (cell r ∉ branded)

end

def DigitalInput.keptSocial (input : DigitalInput) : List SocialRow :=
  dropSupersededLegacy (·.brandId) (·.cell) input.social

def DigitalInput.keptWeb (input : DigitalInput) : List WebRow :=
  dropSupersededLegacy (·.brandId) (·.cell) input.web

def DigitalInput.inRange (input : DigitalInput) : List SocialRow :=
  input.keptSocial.filter fun r => decide (input.fromMonth ≤ r.month) && decide (r.month ≤ input.toMonth)

/-! ## Sums -/

structure SAgg where
  impressions : ℚ
  clicks : ℚ
  paid : ℚ
  organic : ℚ
  deriving DecidableEq

def sAgg (rows : List SocialRow) : SAgg where
  impressions := total rows (·.impressions)
  clicks := total rows (·.clicks)
  paid := total rows (·.paid)
  organic := total rows (·.organic)

def SAgg.engagement (a : SAgg) : ℚ := a.paid + a.organic

structure WAgg where
  bounce : ℚ
  visitors : ℚ
  sessions : ℚ
  minutes : ℚ
  deriving DecidableEq

def wAgg (rows : List WebRow) : WAgg where
  bounce := total rows (·.bounce)
  visitors := total rows (·.totalVisitors)
  sessions := total rows (·.sessions)
  minutes := total rows (·.minutes)

/-- `groupBy`, read at a key. -/
def grouped {T κ : Type} [DecidableEq κ] (key : T → κ) (rows : List T) (k : κ) : Option (List T) :=
  ((groups key rows).find? fun g => decide (g.1 = k)).map Prod.snd

def ratio (a b : ℚ) : Option ℚ := if b = 0 then none else some (a / b)

def SAgg.ctr (a : SAgg) : Option ℚ := ratio a.clicks a.impressions

def SAgg.engagementRate (a : SAgg) : Option ℚ := ratio (a.paid + a.organic) a.impressions

def SAgg.organicShare (a : SAgg) : Option ℚ := ratio a.organic (a.paid + a.organic)

def WAgg.bounceRate (a : WAgg) : Option ℚ := ratio a.bounce a.visitors

def WAgg.avgSessionMinutes (a : WAgg) : Option ℚ := ratio a.minutes a.sessions

/-! ## Cards -/

/-- `previous` and `delta` are there when two months of the range have data. -/
structure Kpi where
  value : Option ℚ
  previous : Option ℚ
  delta : Option ℚ
  deriving DecidableEq

def plainKpi (value : Option ℚ) : Kpi := ⟨value, none, none⟩

/-- `withMonthlyTrend` with the `lastTwo` of a series. -/
def trendKpi (value : Option ℚ) (series : List (Option ℚ)) : Kpi :=
  match (series.filterMap id).reverse with
  | last :: prev :: _ => ⟨value, some prev, some (last - prev)⟩
  | _ => plainKpi value

/-! ## Followers -/

/-- Brand, platform and account of a snapshot; the letter case of the account is
ignored. -/
def followerKey (toLowerCase : String → String) (r : SocialRow) : Option ℕ × Platform × String :=
  (r.brandId, r.platform, toLowerCase (r.accountName.getD ""))

structure Followers where
  value : Option ℚ
  asOf : Option (ℕ × ℕ)
  deriving DecidableEq

/-- `picked.reduce(…)`: the first of the newest. -/
def newest (first : SocialRow) (rest : List SocialRow) : SocialRow :=
  rest.foldl (fun a b => if a.month < b.month then b else a) first

/-- Of the snapshots that the latest rows are. -/
def pickedFollowers (picked : List SocialRow) : Followers :=
  match picked with
  | [] => ⟨none, none⟩
  | first :: rest =>
      ⟨some (picked.map (·.followers)).sum, some ((newest first rest).year, (newest first rest).month)⟩

def latestFollowers (toLowerCase : String → String) (rows : List SocialRow) : Followers :=
  pickedFollowers ((snapshots (·.month) (followerKey toLowerCase) rows).filterMap Prod.snd)

/-- `sum` of the values that are there, if any is. -/
def sumKnown (values : List (Option ℚ)) : Option ℚ :=
  if values.filterMap id = [] then none else some (values.filterMap id).sum

/-! ## The brand comparison -/

structure BrandEntry where
  brandId : Option ℕ
  brand : String
  social : List SocialRow
  followerRows : List SocialRow
  web : List WebRow

def NO_BRAND_LABEL : String := "No brand (needs review)"

structure BrandFigures where
  brandId : Option ℕ
  brand : String
  needsReview : Bool
  followers : Option ℚ
  impressions : ℚ
  clicks : ℚ
  engagement : ℚ
  ctr : Kpi
  engagementRate : Kpi
  visitors : Option ℚ
  bounceRate : Kpi
  avgSession : Kpi

def DigitalInput.legacySocial (input : DigitalInput) : List SocialRow :=
  input.inRange.filter fun r => r.brandId.isNone

def DigitalInput.legacyWeb (input : DigitalInput) : List WebRow :=
  input.keptWeb.filter fun r => r.brandId.isNone

def brandEntry (input : DigitalInput) (br : BrandRef) : BrandEntry where
  brandId := some br.id
  brand := br.name
  social := input.inRange.filter fun r => decide (r.brandId = some br.id)
  followerRows := input.keptSocial.filter fun r => decide (r.brandId = some br.id)
  web := input.keptWeb.filter fun r => decide (r.brandId = some br.id)

def legacyEntry (input : DigitalInput) : BrandEntry where
  brandId := none
  brand := NO_BRAND_LABEL
  social := input.legacySocial
  followerRows := input.keptSocial.filter fun r => r.brandId.isNone
  web := input.legacyWeb

/-- The entry without a brand is there for rows in the range; the snapshots before it are
not asked. -/
def brandEntries (input : DigitalInput) : List BrandEntry :=
  input.brands.map (brandEntry input) ++
    if input.legacySocial ≠ [] ∨ input.legacyWeb ≠ [] then [legacyEntry input] else []

def BrandEntry.shown (e : BrandEntry) : Bool :=
  decide (e.social ≠ []) || decide (e.web ≠ []) || decide (e.followerRows ≠ [])

def brandFigures (toLowerCase : String → String) (e : BrandEntry) : BrandFigures :=
  let a := sAgg e.social
  let w := wAgg e.web
  { brandId := e.brandId
    brand := e.brand
    needsReview := e.brandId.isNone
    followers := (latestFollowers toLowerCase e.followerRows).value
    impressions := a.impressions
    clicks := a.clicks
    engagement := a.paid + a.organic
    ctr := plainKpi a.ctr
    engagementRate := plainKpi a.engagementRate
    visitors := if e.web = [] then none else some w.visitors
    bounceRate := plainKpi w.bounceRate
    avgSession := plainKpi w.avgSessionMinutes }

/-! ## The page -/

structure PlatformFollowers where
  platform : Platform
  value : Option ℚ
  asOf : Option (ℕ × ℕ)
  deriving DecidableEq

structure FollowerFigures where
  platforms : List PlatformFollowers
  total : Option ℚ
  metaTotal : Option ℚ
  deriving DecidableEq

structure EngagementMonth where
  month : ℕ
  paid : Option ℚ
  organic : Option ℚ
  organicShare : Option ℚ

structure Card where
  overall : Kpi
  byPlatform : List (Platform × Kpi)

structure SeriesCard where
  kpi : Kpi
  series : List (ℕ × Option ℚ)

structure Digital where
  hasData : Bool
  brandNeedsReview : Option ℕ
  followers : FollowerFigures
  ctr : Card
  engagementRate : Card
  engagementMonthly : List EngagementMonth
  bounceRate : SeriesCard
  avgSession : SeriesCard
  byBrand : List BrandFigures

def followerFigures (toLowerCase : String → String) (input : DigitalInput) : FollowerFigures :=
  let followerRows := input.platforms.map fun p =>
    (p, latestFollowers toLowerCase (input.keptSocial.filter fun r => decide (r.platform = p)))
  let of := fun p => (followerRows.find? fun f => decide (f.1 = p)).bind (·.2.value)
  { platforms := followerRows.map fun f => ⟨f.1, f.2.value, f.2.asOf⟩
    total := sumKnown (followerRows.map (·.2.value))
    metaTotal :=
      if of .facebook = none ∧ of .instagram = none then none
      else some ((of .facebook).getD 0 + (of .instagram).getD 0) }

/-- The sums of a platform and of a month of the range. -/
def platformAgg (input : DigitalInput) (p : Platform) : SAgg :=
  sAgg ((grouped (·.platform) input.inRange p).getD [])

def monthAgg (input : DigitalInput) (m : ℕ) : Option SAgg := (grouped (·.month) input.inRange m).map sAgg

def monthWebAgg (input : DigitalInput) (m : ℕ) : Option WAgg := (grouped (·.month) input.keptWeb m).map wAgg

def socialCard (input : DigitalInput) (rate : SAgg → Option ℚ) : Card where
  overall := trendKpi (rate (sAgg input.inRange))
    ((monthRange input.fromMonth input.toMonth).map fun m => (monthAgg input m).bind rate)
  byPlatform := input.platforms.map fun p => (p, plainKpi (rate (platformAgg input p)))

def webCard (input : DigitalInput) (rate : WAgg → Option ℚ) : SeriesCard :=
  let series := (monthRange input.fromMonth input.toMonth).map fun m => (m, (monthWebAgg input m).bind rate)
  { kpi := trendKpi (rate (wAgg input.keptWeb)) (series.map Prod.snd)
    series }

def engagementMonth (input : DigitalInput) (m : ℕ) : EngagementMonth where
  month := m
  paid := (monthAgg input m).map (·.paid)
  organic := (monthAgg input m).map (·.organic)
  organicShare := (monthAgg input m).bind (·.organicShare)

def buildDigital (toLowerCase : String → String) (input : DigitalInput) : Digital where
  hasData := (input.keptSocial.any fun r => decide (input.fromMonth ≤ r.month)) || decide (input.keptWeb ≠ [])
  brandNeedsReview :=
    if input.legacySocial ≠ [] ∨ input.legacyWeb ≠ [] then
      some (input.legacySocial.length + input.legacyWeb.length)
    else none
  followers := followerFigures toLowerCase input
  ctr := socialCard input (·.ctr)
  engagementRate := socialCard input (·.engagementRate)
  engagementMonthly := (monthRange input.fromMonth input.toMonth).map (engagementMonth input)
  bounceRate := webCard input (·.bounceRate)
  avgSession := webCard input (·.avgSessionMinutes)
  byBrand := ((brandEntries input).filter (·.shown)).map (brandFigures toLowerCase)

end SalesDashboard.MarcomKpi
