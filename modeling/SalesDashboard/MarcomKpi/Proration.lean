import SalesDashboard.MarcomKpi.TotalSpend

/-! Campaign spend over the months: nothing is lost, each month gets its days' part,
and no cell depends on the others. -/

namespace SalesDashboard.MarcomKpi
open Tachometer CriticalNumber Keyed

/-- The shares of a campaign add up to its spend. -/
theorem sum_share {c : CampaignSpendRow} (hdates : c.start.le c.stop = true) {cells : List Month}
    (hcells : cells.Nodup)
    (hcover : ∀ d : Date, c.start.le d = true → d.le c.stop = true → monthOf d ∈ cells) :
    (cells.map c.share).sum = c.spend := by
  have hpos : (c.duration : ℚ) ≠ 0 := by
    have := duration_pos hdates
    exact_mod_cast this.ne'
  have hdays : (cells.map fun cell => (overlapDays c.start c.stop cell : ℚ)).sum = (c.duration : ℚ) := by
    have hsum := sum_overlapDays hdates hcells hcover
    have hcast := congrArg (Int.cast : Int → ℚ) hsum
    rw [Int.cast_list_sum, List.map_map] at hcast
    exact hcast
  have hshare : ∀ cell, c.share cell =
      (c.spend / c.duration) * (overlapDays c.start c.stop cell : ℚ) := by
    intro cell
    unfold CampaignSpendRow.share
    ring
  rw [List.map_congr_left fun cell _ => hshare cell, List.sum_map_mul_left, hdays]
  exact div_mul_cancel₀ _ hpos

theorem option_eq {o o' : Option ℚ} (hsome : o.isSome = true ↔ o'.isSome = true)
    (hvalue : o.getD 0 = o'.getD 0) : o = o' := by
  cases o <;> cases o' <;> simp_all

/-- **Campaign proration loses nothing**, gives each cell its days' part of each
campaign, and gives a cell the same whatever the other cells are. -/
theorem prorateCampaigns_exact (campaigns : List CampaignSpendRow)
    (hdates : ∀ c ∈ campaigns, c.start.le c.stop = true) (cells : List Month) (hcells : cells.Nodup) :
    ((∀ c ∈ campaigns, ∀ d : Date, c.start.le d = true → d.le c.stop = true → monthOf d ∈ cells) →
      ∀ b, (cells.map fun cell =>
          (amountOf (prorateCampaigns campaigns cells) (ymKey cell.year cell.month b)).getD 0).sum =
        ((campaigns.filter fun c => decide (c.brandId = b)).map (·.spend)).sum) ∧
    (∀ cell ∈ cells, ∀ b,
      (amountOf (prorateCampaigns campaigns cells) (ymKey cell.year cell.month b)).getD 0 =
        ((campaigns.filter fun c => decide (c.brandId = b)).map fun c =>
          c.spend * ((overlapDays c.start c.stop cell : ℚ) / (c.duration : ℚ))).sum) ∧
    (∀ c ∈ campaigns, ∀ cell : Month, 0 ≤ overlapDays c.start c.stop cell ∧
      overlapDays c.start c.stop cell ≤ daysInMonth cell.year cell.month) ∧
    (∀ k ∈ (prorateCampaigns campaigns cells).map Prod.fst, ∃ cell ∈ cells, ∃ c ∈ campaigns,
      k = ymKey cell.year cell.month c.brandId) ∧
    ∀ full : List Month, full.Nodup → cells ⊆ full → ∀ (cell : Month) (b : Nat),
      amountOf (prorateCampaigns campaigns cells) (ymKey cell.year cell.month b) =
        if cell ∈ cells then amountOf (prorateCampaigns campaigns full) (ymKey cell.year cell.month b)
        else none := by
  have hamount : ∀ cell ∈ cells, ∀ b,
      (amountOf (prorateCampaigns campaigns cells) (ymKey cell.year cell.month b)).getD 0 =
        brandShares campaigns cell b :=
    fun cell hcell b => amountOf_prorate hdates hcells hcell b
  refine ⟨?_, hamount, fun c _ cell => ?_, fun k hk => ?_, ?_⟩
  · intro hcover b
    rw [List.map_congr_left fun cell hcell => hamount cell hcell b]
    unfold brandShares
    rw [Grouping.sum_map_sum_comm]
    refine congrArg List.sum (List.map_congr_left fun c hc => ?_)
    have hc := List.mem_of_mem_filter hc
    exact sum_share (hdates c hc) hcells (hcover c hc)
  · exact ⟨overlapDays_nonneg _ _ _, overlapDays_le _ _ _⟩
  · rw [prorateCampaigns_eq, keys_sums] at hk
    obtain ⟨e, he, rfl⟩ := List.mem_map.mp hk
    obtain ⟨c, hc, he⟩ := List.mem_flatMap.mp he
    obtain ⟨-, cell, hcell, -, rfl⟩ := mem_shares.mp he
    exact ⟨cell, hcell, c, hc, rfl⟩
  · intro full hfull hsub cell b
    split
    · next hcell =>
      refine option_eq ?_ ?_
      · rw [amountOf_prorate_isSome, amountOf_prorate_isSome]
        exact and_congr_left fun _ => iff_of_true hcell (hsub hcell)
      · rw [hamount cell hcell b, amountOf_prorate hdates hfull (hsub hcell) b]
    · next hcell =>
      rw [← Option.not_isSome_iff_eq_none, amountOf_prorate_isSome]
      exact fun h => hcell h.1

/-- The campaign of the source's own example: 1 February to 15 March, 120,000. -/
def ramadan : CampaignSpendRow := ⟨1, dateAt 2026 2 1, dateAt 2026 3 15, 120000⟩

def february : Month := monthOf (dateAt 2026 2 1)

def march : Month := monthOf (dateAt 2026 3 1)

theorem ramadan_months : ∀ d : Date, ramadan.start.le d = true → d.le ramadan.stop = true →
    monthOf d ∈ [february, march] := by
  have hdays : ∀ d ∈ eachDay ⟨ramadan.start, ramadan.stop⟩, monthOf d ∈ [february, march] := by
    decide +kernel
  intro d hstart hstop
  refine hdays d ?_
  rw [mem_eachDay, DateWindow.has, hstart, hstop]
  rfl

/-- February gets 28 of the 43 days, and both months have the whole spend. -/
theorem prorateCampaigns_exact_ramadan :
    ([february, march].map fun cell => (amountOf (prorateCampaigns [ramadan] [february, march])
      (ymKey cell.year cell.month 1)).getD 0).sum = 120000 ∧
    (amountOf (prorateCampaigns [ramadan] [february, march]) (ymKey 2026 2 1)).getD 0 =
      120000 * (28 / 43) := by
  obtain ⟨hsum, hshare, -⟩ := prorateCampaigns_exact [ramadan] (by decide +kernel) [february, march]
    (by decide +kernel)
  constructor
  · rw [hsum (fun c hc => by rw [List.mem_singleton.mp hc]; exact ramadan_months) 1]
    decide +kernel
  · refine (hshare february (by decide +kernel) 1).trans ?_
    decide +kernel

end SalesDashboard.MarcomKpi
