import SalesDashboard.Lib.Joined
import SalesDashboard.Lib.Keyed
import SalesDashboard.MarcomKpi.Months

/-! Total MARCOM spend (`totalSpend.ts`): campaign spend spread over the months a
campaign runs in, other spend, and both merged into the rows of the Spending page.
Amounts are exact. -/

namespace SalesDashboard.MarcomKpi
open Tachometer CriticalNumber Keyed

/-! ## Keys -/

/-- `${year}-${month}-${brandId}`. -/
def ymKey (year month brandId : Nat) : String :=
  toString year ++ "-" ++ toString month ++ "-" ++ toString brandId

/-- `Number(s)` of digits. -/
def numberOf (cs : List Char) : Nat := Nat.ofDigitChars 10 cs 0

/-- `k.split('-').map(Number)`. -/
def parseKey (k : String) : List Nat := (k.toList.splitOn '-').map numberOf

theorem toList_toString (n : Nat) : (toString n).toList = Nat.toDigits 10 n := by
  rw [Nat.toString_eq_repr, Nat.repr_eq_ofList_toDigits, String.toList_ofList]

theorem numberOf_toDigits (n : Nat) : numberOf (Nat.toDigits 10 n) = n :=
  Nat.ofDigitChars_toDigits (by decide) (by decide)

theorem not_mem_toDigits (n : Nat) : '-' ∉ Nat.toDigits 10 n := by
  intro h
  have := Nat.isDigit_of_mem_toDigits (by decide) (by decide) h
  exact absurd this (by decide)

theorem toList_ymKey (year month brandId : Nat) : (ymKey year month brandId).toList =
    ['-'].intercalate [Nat.toDigits 10 year, Nat.toDigits 10 month, Nat.toDigits 10 brandId] := by
  unfold ymKey
  simp only [String.toList_append, toList_toString]
  simp [List.intercalate]

/-- A key is read back. -/
theorem parseKey_ymKey (year month brandId : Nat) :
    parseKey (ymKey year month brandId) = [year, month, brandId] := by
  unfold parseKey
  rw [toList_ymKey, List.splitOn_intercalate]
  · simp only [List.map_cons, List.map_nil, numberOf_toDigits]
  · intro l hl
    simp only [List.mem_cons, List.not_mem_nil, or_false] at hl
    rcases hl with rfl | rfl | rfl <;> exact not_mem_toDigits _
  · simp

theorem ymKey_inj {y m b y' m' b' : Nat} :
    ymKey y m b = ymKey y' m' b' ↔ y = y' ∧ m = m' ∧ b = b' := by
  constructor
  · intro h
    have hparse := congrArg parseKey h
    rw [parseKey_ymKey, parseKey_ymKey] at hparse
    simpa using hparse
  · rintro ⟨rfl, rfl, rfl⟩
    rfl

/-! ## Campaign spend -/

structure CampaignSpendRow where
  brandId : Nat
  start : Date
  stop : Date
  spend : ℚ

/-- An amount for each `ymKey`. -/
abbrev Amounts := List (String × ℚ)

def CampaignSpendRow.duration (c : CampaignSpendRow) : Int := dayNumber c.stop - dayNumber c.start + 1

/-- Campaign spend per `ymKey`, for the given cells only. -/
def prorateCampaigns (campaigns : List CampaignSpendRow) (cells : List Month) : Amounts :=
  campaigns.foldl (fun out c =>
    let duration : Int := c.duration
    if duration ≤ 0 then out
    else cells.foldl (fun out cell =>
      let days := overlapDays c.start c.stop cell
      if days = 0 then out
      else
        let share : ℚ := c.spend * ((days : ℚ) / (duration : ℚ))
        addTo out (ymKey cell.year cell.month c.brandId) share) out) []

/-- What a campaign adds to a cell. -/
def CampaignSpendRow.share (c : CampaignSpendRow) (cell : Month) : ℚ :=
  c.spend * ((overlapDays c.start c.stop cell : ℚ) / (c.duration : ℚ))

/-- The shares in the order in which they are added. -/
def shares (cells : List Month) (c : CampaignSpendRow) : Amounts :=
  if c.duration ≤ 0 then []
  else cells.filterMap fun cell =>
    if overlapDays c.start c.stop cell = 0 then none
    else some (ymKey cell.year cell.month c.brandId, c.share cell)

theorem prorateCampaigns_eq (campaigns : List CampaignSpendRow) (cells : List Month) :
    prorateCampaigns campaigns cells = sums (campaigns.flatMap (shares cells)) := by
  unfold prorateCampaigns sums
  rw [List.foldl_flatMap]
  congr 1
  funext out c
  unfold shares
  simp only
  split
  · rfl
  · rw [List.foldl_filterMap]
    congr 1
    funext out cell
    split <;> rfl

/-! ## Shares of a key -/

theorem key_eq_iff {cell cell' : Month} {b b' : Nat} :
    ymKey cell.year cell.month b = ymKey cell'.year cell'.month b' ↔ cell = cell' ∧ b = b' := by
  rw [ymKey_inj]
  cases cell
  cases cell'
  simp only [Month.mk.injEq]
  exact and_assoc.symm

theorem mem_shares {cells : List Month} {c : CampaignSpendRow} {e : String × ℚ} :
    e ∈ shares cells c ↔ 0 < c.duration ∧ ∃ cell ∈ cells, overlapDays c.start c.stop cell ≠ 0 ∧
      e = (ymKey cell.year cell.month c.brandId, c.share cell) := by
  unfold shares
  split
  · next h =>
    simp only [List.not_mem_nil, false_iff, not_and]
    omega
  · next h =>
    rw [List.mem_filterMap]
    constructor
    · rintro ⟨cell, hcell, he⟩
      split at he
      · cases he
      · next hdays => exact ⟨by omega, cell, hcell, hdays, (Option.some.inj he).symm⟩
    · rintro ⟨-, cell, hcell, hdays, rfl⟩
      exact ⟨cell, hcell, if_neg hdays⟩

/-- A campaign adds its share to the key of a cell and its brand once. -/
theorem filter_shares {cells : List Month} (hcells : cells.Nodup) (c : CampaignSpendRow) (cell : Month)
    (b : Nat) : (shares cells c).filter (fun e => decide (e.1 = ymKey cell.year cell.month b)) =
      if (0 < c.duration ∧ c.brandId = b ∧ overlapDays c.start c.stop cell ≠ 0) ∧ cell ∈ cells then
        [(ymKey cell.year cell.month b, c.share cell)] else [] := by
  unfold shares
  split
  · next h => rw [if_neg (by omega), List.filter_nil]
  · next h =>
    have hpos : 0 < c.duration := by omega
    induction cells with
    | nil => simp
    | cons cell' cells ih =>
      rw [List.nodup_cons] at hcells
      have ih := ih hcells.2
      rw [List.filterMap_cons]
      by_cases hsame : cell' = cell
      · subst hsame
        have hrest : ¬ ((0 < c.duration ∧ c.brandId = b ∧ overlapDays c.start c.stop cell' ≠ 0) ∧
            cell' ∈ cells) := fun hin => hcells.1 hin.2
        rw [if_neg hrest] at ih
        by_cases hdays : overlapDays c.start c.stop cell' = 0
        · simp [hdays, ih]
        · by_cases hb : c.brandId = b
          · subst hb
            simp [hdays, ih, hpos]
          · have hkey : ymKey cell'.year cell'.month c.brandId ≠ ymKey cell'.year cell'.month b :=
              fun heq => hb (key_eq_iff.mp heq).2
            simp [hdays, ih, hb, hkey]
      · have hkey : ymKey cell'.year cell'.month c.brandId ≠ ymKey cell.year cell.month b :=
          fun heq => hsame (key_eq_iff.mp heq).1
        have hmem : cell ∈ cell' :: cells ↔ cell ∈ cells := by
          simp [Ne.symm hsame]
        simp only [hmem]
        rw [← ih]
        by_cases hdays : overlapDays c.start c.stop cell' = 0 <;> simp [hdays, hkey]

/-- What a brand's campaigns add to a cell. -/
def brandShares (campaigns : List CampaignSpendRow) (cell : Month) (b : Nat) : ℚ :=
  ((campaigns.filter fun c => decide (c.brandId = b)).map (·.share cell)).sum

theorem share_eq_zero {c : CampaignSpendRow} {cell : Month}
    (h : overlapDays c.start c.stop cell = 0) : c.share cell = 0 := by
  unfold CampaignSpendRow.share
  rw [h]
  simp

theorem duration_pos {c : CampaignSpendRow} (h : c.start.le c.stop = true) : 0 < c.duration := by
  have := dayNumber_le_iff.mpr h
  unfold CampaignSpendRow.duration
  omega

/-- What a campaign adds to the keys that a test finds to be of a year. -/
theorem sum_shares {c : CampaignSpendRow} (hpos : 0 < c.duration) {cells : List Month} {p : String → Bool} {year : Nat}
    (hp : ∀ cell ∈ cells, overlapDays c.start c.stop cell ≠ 0 →
      p (ymKey cell.year cell.month c.brandId) = decide (cell.year = year)) :
    (((shares cells c).filter fun e => p e.1).map Prod.snd).sum =
      ((cells.filter fun cell => decide (cell.year = year)).map c.share).sum := by
  unfold shares
  rw [if_neg (by omega)]
  induction cells with
  | nil => rfl
  | cons cell cells ih =>
    have ih := ih fun cell' hcell' => hp cell' (List.mem_cons_of_mem _ hcell')
    have hcell := hp cell List.mem_cons_self
    by_cases hdays : overlapDays c.start c.stop cell = 0
    · by_cases hyear : cell.year = year
      · simp [hdays, hyear, share_eq_zero hdays, ih]
      · simp [hdays, hyear, ih]
    · by_cases hyear : cell.year = year
      · subst hyear
        simp [hdays, hcell hdays, ih]
      · simp [hdays, hcell hdays, hyear, ih]

/-- **The amount of a cell and a brand** is what the brand's campaigns add to it. -/
theorem amountOf_prorate {campaigns : List CampaignSpendRow}
    (hdates : ∀ c ∈ campaigns, c.start.le c.stop = true) {cells : List Month} (hcells : cells.Nodup)
    {cell : Month} (hcell : cell ∈ cells) (b : Nat) :
    (amountOf (prorateCampaigns campaigns cells) (ymKey cell.year cell.month b)).getD 0 =
      brandShares campaigns cell b := by
  rw [prorateCampaigns_eq, amountOf_sums]
  unfold brandShares
  induction campaigns with
  | nil => rfl
  | cons c campaigns ih =>
    have hpos := duration_pos (hdates c List.mem_cons_self)
    rw [List.flatMap_cons, List.filter_append, List.map_append, List.sum_append,
      ih fun c hc => hdates c (List.mem_cons_of_mem _ hc), filter_shares hcells]
    by_cases hb : c.brandId = b
    · by_cases hdays : overlapDays c.start c.stop cell = 0
      · simp [hb, hdays, share_eq_zero hdays]
      · simp [hb, hdays, hpos, hcell]
    · simp [hb]

/-- A cell and a brand have an amount when a campaign of the brand runs in the cell. -/
theorem amountOf_prorate_isSome {campaigns : List CampaignSpendRow} {cells : List Month} {cell : Month}
    {b : Nat} : (amountOf (prorateCampaigns campaigns cells) (ymKey cell.year cell.month b)).isSome =
      true ↔ cell ∈ cells ∧ ∃ c ∈ campaigns, 0 < c.duration ∧ c.brandId = b ∧
        overlapDays c.start c.stop cell ≠ 0 := by
  rw [prorateCampaigns_eq, amountOf_isSome, keys_sums, List.mem_map]
  constructor
  · rintro ⟨e, he, hkey⟩
    obtain ⟨c, hc, he⟩ := List.mem_flatMap.mp he
    obtain ⟨hpos, cell', hcell', hdays, rfl⟩ := mem_shares.mp he
    obtain ⟨rfl, rfl⟩ := key_eq_iff.mp hkey
    exact ⟨hcell', c, hc, hpos, rfl, hdays⟩
  · rintro ⟨hcell, c, hc, hpos, rfl, hdays⟩
    exact ⟨_, List.mem_flatMap.mpr ⟨c, hc, mem_shares.mpr ⟨hpos, cell, hcell, hdays, rfl⟩⟩, rfl⟩

end SalesDashboard.MarcomKpi
