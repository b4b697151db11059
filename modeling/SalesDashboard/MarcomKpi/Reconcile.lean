import SalesDashboard.MarcomKpi.Proration
import SalesDashboard.MarcomKpi.Spending

/-! The Spending page reconciles with itself: campaign and other spend, categories,
months, rows and brands give one total. -/

namespace SalesDashboard.MarcomKpi
open Keyed

/-! ## The merged rows -/

/-- A row stands under its own key, once. -/
structure Merged (out : RowMap) : Prop where
  nodup : (out.map Prod.fst).Nodup
  own : ∀ e ∈ out, e.2.key = e.1

theorem mem_keys_setRow {out : RowMap} {k k' : String} {row : SpendRow} :
    k' ∈ (setRow out k row).map Prod.fst ↔ k' ∈ out.map Prod.fst ∨ k' = k := by
  let new : Unit → String × SpendRow := fun _ => (k, row)
  have hnew : Prod.fst (new ()) = k := rfl
  exact mem_keys_upsert (k := fun _ => k) (f := fun _ e => (e.1, row)) (fun _ => rfl) hnew

theorem mem_setRow {out : RowMap} {k : String} {row : SpendRow} {e : String × SpendRow}
    (he : e ∈ setRow out k row) : e ∈ out ∨ e = (k, row) := by
  unfold setRow upsert at he
  split at he
  · obtain ⟨x, hx, rfl⟩ := List.mem_map.mp he
    split
    · next hk =>
      rw [← hk]
      exact .inr rfl
    · exact .inl hx
  · rw [List.mem_append, List.mem_singleton] at he
    exact he

theorem setRow_merged {out : RowMap} {k : String} {row : SpendRow} (hout : Merged out)
    (hrow : row.key = k) : Merged (setRow out k row) where
  nodup := nodup_upsert (fun _ => rfl) rfl hout.nodup
  own e he := by
    rcases mem_setRow he with he | rfl
    · exact hout.own e he
    · exact hrow

theorem inputs_merged (p1 : List SpendRow) :
    Merged (p1.foldl (fun out x => setRow out x.key x) []) := by
  induction p1 using List.reverseRecOn with
  | nil => exact ⟨List.nodup_nil, by simp⟩
  | append_singleton p1 x ih =>
    rw [List.foldl_append]
    exact setRow_merged ih rfl

theorem mem_inputs {p1 : List SpendRow} {e : String × SpendRow}
    (he : e ∈ p1.foldl (fun out x => setRow out x.key x) []) : e.2 ∈ p1 := by
  induction p1 using List.reverseRecOn with
  | nil => cases he
  | append_singleton p1 x ih =>
    rw [List.foldl_append] at he
    rcases mem_setRow he with he | rfl
    · exact List.mem_append_left _ (ih he)
    · exact List.mem_append_right _ (List.mem_singleton.mpr rfl)

@[simp] theorem newRow_year (brands : List BrandRef) (y m b : Nat) :
    (newRow brands (ymKey y m b)).year = y := by
  simp [newRow, parseKey_ymKey]

@[simp] theorem newRow_month (brands : List BrandRef) (y m b : Nat) :
    (newRow brands (ymKey y m b)).month = m := by
  simp [newRow, parseKey_ymKey]

@[simp] theorem newRow_brandId (brands : List BrandRef) (y m b : Nat) :
    (newRow brands (ymKey y m b)).brandId = b := by
  simp [newRow, parseKey_ymKey]

/-- A text that some year, month and brand give. -/
def IsKey (k : String) : Prop := ∃ y m b, k = ymKey y m b

theorem newRow_key {k : String} (hk : IsKey k) (brands : List BrandRef) : (newRow brands k).key = k := by
  obtain ⟨y, m, b, rfl⟩ := hk
  simp [SpendRow.key]

theorem addKeys_concat (brands : List BrandRef) (allowed : Option (List Nat)) (out : RowMap)
    (keys : List String) (k : String) : addKeys brands allowed out (keys ++ [k]) =
      let row := newRow brands k
      if passes allowed row.brandId = false ∨ k ∈ (addKeys brands allowed out keys).map Prod.fst then
        addKeys brands allowed out keys
      else setRow (addKeys brands allowed out keys) k row := by
  unfold addKeys
  rw [List.foldl_append]
  rfl

theorem addKeys_merged {brands : List BrandRef} {allowed : Option (List Nat)} {out : RowMap}
    (hout : Merged out) {keys : List String} (hkeys : ∀ k ∈ keys, IsKey k) :
    Merged (addKeys brands allowed out keys) := by
  induction keys using List.reverseRecOn with
  | nil => exact hout
  | append_singleton keys k ih =>
    have ih := ih fun k' hk' => hkeys k' (List.mem_append_left _ hk')
    rw [addKeys_concat]
    simp only
    split
    · exact ih
    · exact setRow_merged ih (newRow_key (hkeys k (by simp)) brands)

/-- A key has a row when it has one before, or passes the filter. -/
theorem mem_addKeys {brands : List BrandRef} {allowed : Option (List Nat)} {out : RowMap}
    {keys : List String} {k : String} : k ∈ (addKeys brands allowed out keys).map Prod.fst ↔
      k ∈ out.map Prod.fst ∨ (k ∈ keys ∧ passes allowed (newRow brands k).brandId = true) := by
  induction keys using List.reverseRecOn with
  | nil => simp [addKeys]
  | append_singleton keys k' ih =>
    rw [addKeys_concat, List.mem_append, List.mem_singleton]
    simp only
    split
    · next hskip =>
      rw [ih]
      constructor
      · rintro (h | ⟨h, hpass⟩)
        · exact .inl h
        · exact .inr ⟨.inl h, hpass⟩
      · rintro (h | ⟨h | rfl, hpass⟩)
        · exact .inl h
        · exact .inr ⟨h, hpass⟩
        · rcases hskip with hskip | hskip
          · rw [hskip] at hpass
            cases hpass
          · exact ih.mp hskip
    · next hnew =>
      rw [mem_keys_setRow, ih]
      rw [not_or, Bool.not_eq_false] at hnew
      constructor
      · rintro ((h | ⟨h, hpass⟩) | rfl)
        · exact .inl h
        · exact .inr ⟨.inl h, hpass⟩
        · exact .inr ⟨.inr rfl, hnew.1⟩
      · rintro (h | ⟨h | rfl, hpass⟩)
        · exact .inl (.inl h)
        · exact .inl (.inr ⟨h, hpass⟩)
        · exact .inr rfl

/-- The rows before their spend is put in. -/
def mergedRows (p1 : List SpendRow) (campaigns : List CampaignSpendRow) (other : List OtherSpendRow)
    (cells : List Month) (brands : List BrandRef) (allowed : Option (List Nat)) : RowMap :=
  addKeys brands allowed (p1.foldl (fun out x => setRow out x.key x) [])
    (Firsts.firsts ((prorateCampaigns campaigns cells).map Prod.fst ++ (otherByKey other).map Prod.fst))

theorem addTo_keys (other : List OtherSpendRow) :
    otherByKey other = sums (other.map fun l => (l.key, l.amount)) := by
  unfold otherByKey sums
  rw [List.foldl_map]

theorem mem_otherByKey {other : List OtherSpendRow} {k : String} :
    k ∈ (otherByKey other).map Prod.fst ↔ ∃ l ∈ other, l.key = k := by
  rw [addTo_keys, keys_sums]
  simp

theorem mem_campaignKeys {campaigns : List CampaignSpendRow} {cells : List Month} {k : String} :
    k ∈ (prorateCampaigns campaigns cells).map Prod.fst ↔ ∃ c ∈ campaigns, 0 < c.duration ∧
      ∃ cell ∈ cells, overlapDays c.start c.stop cell ≠ 0 ∧ k = ymKey cell.year cell.month c.brandId := by
  rw [prorateCampaigns_eq, keys_sums, List.mem_map]
  constructor
  · rintro ⟨e, he, rfl⟩
    obtain ⟨c, hc, he⟩ := List.mem_flatMap.mp he
    obtain ⟨hpos, cell, hcell, hdays, rfl⟩ := mem_shares.mp he
    exact ⟨c, hc, hpos, cell, hcell, hdays, rfl⟩
  · rintro ⟨c, hc, hpos, cell, hcell, hdays, rfl⟩
    exact ⟨_, List.mem_flatMap.mpr ⟨c, hc, mem_shares.mpr ⟨hpos, cell, hcell, hdays, rfl⟩⟩, rfl⟩

section
variable {p1 : List SpendRow} {campaigns : List CampaignSpendRow} {other : List OtherSpendRow}
  {cells : List Month} {brands : List BrandRef} {allowed : Option (List Nat)}

theorem mem_spendKeys {k : String} :
    k ∈ Firsts.firsts ((prorateCampaigns campaigns cells).map Prod.fst ++
      (otherByKey other).map Prod.fst) ↔
    k ∈ (prorateCampaigns campaigns cells).map Prod.fst ∨ ∃ l ∈ other, l.key = k := by
  rw [Firsts.mem_firsts, List.mem_append, mem_otherByKey]

theorem mergedRows_merged : Merged (mergedRows p1 campaigns other cells brands allowed) := by
  refine addKeys_merged (inputs_merged p1) fun k hk => ?_
  rcases mem_spendKeys.mp hk with hk | ⟨l, -, rfl⟩
  · obtain ⟨c, -, -, cell, -, -, rfl⟩ := mem_campaignKeys.mp hk
    exact ⟨_, _, _, rfl⟩
  · exact ⟨_, _, _, rfl⟩

theorem mergeSpendRows_perm :
    (mergeSpendRows p1 campaigns other cells brands allowed).Perm
      ((mergedRows p1 campaigns other cells brands allowed).map fun e =>
        withSpend (prorateCampaigns campaigns cells) (otherByKey other) e.1 e.2) :=
  List.mergeSort_perm _ _

/-- What the spend of a row is made of. -/
theorem spend_of_mem {r : SpendRow}
    (hr : r ∈ mergeSpendRows p1 campaigns other cells brands allowed) :
    r.campaignSpend = some ((amountOf (prorateCampaigns campaigns cells) r.key).getD 0) ∧
    r.otherSpend = some ((amountOf (otherByKey other) r.key).getD 0) ∧
    r.spend = r.campaignSpend.getD 0 + r.otherSpend.getD 0 := by
  obtain ⟨e, he, rfl⟩ := List.mem_map.mp (mergeSpendRows_perm.mem_iff.mp hr)
  have hown : (withSpend (prorateCampaigns campaigns cells) (otherByKey other) e.1 e.2).key = e.1 :=
    mergedRows_merged.own e he
  rw [hown]
  exact ⟨rfl, rfl, rfl⟩

theorem keys_perm : ((mergeSpendRows p1 campaigns other cells brands allowed).map SpendRow.key).Perm
    ((mergedRows p1 campaigns other cells brands allowed).map Prod.fst) := by
  refine (mergeSpendRows_perm.map SpendRow.key).trans (List.Perm.of_eq ?_)
  rw [List.map_map]
  exact List.map_congr_left fun e he => mergedRows_merged.own e he

theorem nodup_keys : ((mergeSpendRows p1 campaigns other cells brands allowed).map SpendRow.key).Nodup :=
  keys_perm.nodup_iff.mpr mergedRows_merged.nodup

/-- A year, month and brand with spend that passes the filter has a row. -/
theorem exists_row {y m b : Nat} (hpass : passes allowed b = true)
    (hk : ymKey y m b ∈ (prorateCampaigns campaigns cells).map Prod.fst ∨
      ∃ l ∈ other, l.key = ymKey y m b) :
    ∃ r ∈ mergeSpendRows p1 campaigns other cells brands allowed,
      r.year = y ∧ r.month = m ∧ r.brandId = b := by
  have hmem : ymKey y m b ∈ (mergedRows p1 campaigns other cells brands allowed).map Prod.fst := by
    refine mem_addKeys.mpr (.inr ⟨mem_spendKeys.mpr hk, ?_⟩)
    rw [newRow_brandId]
    exact hpass
  obtain ⟨r, hr, hkey⟩ := List.mem_map.mp (keys_perm.mem_iff.mpr hmem)
  exact ⟨r, hr, ymKey_inj.mp hkey⟩

/-- A year and month are among the cells. -/
def inCells (cells : List Month) (year month : Nat) : Prop :=
  ∃ cell ∈ cells, cell.year = year ∧ cell.month = month

theorem row_inCells (hp1 : ∀ r ∈ p1, inCells cells r.year r.month)
    (hother : ∀ l ∈ other, inCells cells l.year l.month) {r : SpendRow}
    (hr : r ∈ mergeSpendRows p1 campaigns other cells brands allowed) :
    inCells cells r.year r.month := by
  have hkey := keys_perm.mem_iff.mp (List.mem_map_of_mem hr)
  rcases mem_addKeys.mp hkey with hkey | ⟨hkey, -⟩
  · obtain ⟨e, he, hek⟩ := List.mem_map.mp hkey
    have hown : e.2.key = r.key := ((inputs_merged p1).own e he).trans hek
    obtain ⟨hy, hm, -⟩ := ymKey_inj.mp hown
    rw [← hy, ← hm]
    exact hp1 _ (mem_inputs he)
  · rcases mem_spendKeys.mp hkey with hkey | ⟨l, hl, hkey⟩
    · obtain ⟨c, -, -, cell, hcell, -, hkey⟩ := mem_campaignKeys.mp hkey
      obtain ⟨hy, hm, -⟩ := ymKey_inj.mp hkey
      exact ⟨cell, hcell, hy.symm, hm.symm⟩
    · obtain ⟨hy, hm, -⟩ := ymKey_inj.mp hkey
      rw [← hy, ← hm]
      exact hother l hl

/-- The rows of a year take the amounts of their keys. -/
theorem sum_amounts (es : Amounts) (year : Nat) :
    (((mergeSpendRows p1 campaigns other cells brands allowed).filter fun r =>
      decide (r.year = year)).map fun r => (amountOf (sums es) r.key).getD 0).sum =
    ((es.filter fun e => decide (e.1 ∈ ((mergeSpendRows p1 campaigns other cells brands allowed).filter fun r =>
      decide (r.year = year)).map SpendRow.key)).map Prod.snd).sum := by
  set current := (mergeSpendRows p1 campaigns other cells brands allowed).filter fun r => decide (r.year = year)
  have hn : (current.map SpendRow.key).Nodup := (List.filter_sublist.map _).nodup nodup_keys
  have hvalues := Grouping.sum_values Prod.fst (current.map SpendRow.key) hn es Prod.snd
  rw [List.map_map] at hvalues
  refine Eq.trans (congrArg List.sum (List.map_congr_left fun r _ => ?_)) hvalues
  exact amountOf_sums ..

/-- A key that has a row has it among those of its year. -/
theorem mem_keys_year {y m b year : Nat} (hrow : ∃ r ∈ mergeSpendRows p1 campaigns other cells brands allowed,
    r.year = y ∧ r.month = m ∧ r.brandId = b) :
    ymKey y m b ∈ ((mergeSpendRows p1 campaigns other cells brands allowed).filter fun r =>
      decide (r.year = year)).map SpendRow.key ↔ y = year := by
  constructor
  · intro hk
    obtain ⟨r, hr, hkey⟩ := List.mem_map.mp hk
    rw [← (ymKey_inj.mp hkey).1]
    exact of_decide_eq_true (List.mem_filter.mp hr).2
  · rintro rfl
    obtain ⟨r, hr, hy, hm, hb⟩ := hrow
    exact List.mem_map.mpr ⟨r, List.mem_filter.mpr ⟨hr, decide_eq_true hy⟩, ymKey_inj.mpr ⟨hy, hm, hb⟩⟩

/-- The other spend of the rows of a year is that of the lines of the year. -/
theorem sum_otherSpend (hother : ∀ l ∈ other, passes allowed l.brandId = true) (year : Nat) :
    (((mergeSpendRows p1 campaigns other cells brands allowed).filter fun r =>
      decide (r.year = year)).map fun r => r.otherSpend.getD 0).sum =
    ((other.filter fun l => decide (l.year = year)).map (·.amount)).sum := by
  have hamounts := @sum_amounts p1 campaigns other cells brands allowed
    (other.map fun l => (l.key, l.amount)) year
  rw [← addTo_keys, List.filter_map, List.map_map] at hamounts
  refine Eq.trans (congrArg List.sum (List.map_congr_left fun r hr => ?_)) (hamounts.trans ?_)
  · rw [(spend_of_mem (List.mem_of_mem_filter hr)).2.1, Option.getD_some]
  · refine congrArg (fun ls : List OtherSpendRow => (ls.map (·.amount)).sum) (List.filter_congr fun l hl => ?_)
    exact decide_eq_decide.mpr (mem_keys_year (exists_row (hother l hl) (.inr ⟨l, hl, rfl⟩)))

/-- The campaign spend of the rows of a year is what the campaigns add to its cells. -/
theorem sum_campaignSpend (hcampaigns : ∀ c ∈ campaigns, c.start.le c.stop = true ∧ passes allowed c.brandId = true)
    (year : Nat) :
    (((mergeSpendRows p1 campaigns other cells brands allowed).filter fun r =>
      decide (r.year = year)).map fun r => r.campaignSpend.getD 0).sum =
    (campaigns.map fun c => ((cells.filter fun cell => decide (cell.year = year)).map c.share).sum).sum := by
  have hamounts := @sum_amounts p1 campaigns other cells brands allowed
    (campaigns.flatMap (shares cells)) year
  rw [← prorateCampaigns_eq, List.filter_flatMap, List.map_flatMap, List.flatMap_def, List.sum_flatten,
    List.map_map] at hamounts
  refine Eq.trans (congrArg List.sum (List.map_congr_left fun r hr => ?_)) (hamounts.trans ?_)
  · rw [(spend_of_mem (List.mem_of_mem_filter hr)).1, Option.getD_some]
  · refine congrArg List.sum (List.map_congr_left fun c hc => ?_)
    have hpos := duration_pos (hcampaigns c hc).1
    refine sum_shares (p := fun k => decide (k ∈ _)) hpos fun cell hcell hdays =>
      decide_eq_decide.mpr (mem_keys_year ?_)
    exact exists_row (hcampaigns c hc).2 (.inl (mem_campaignKeys.mpr ⟨c, hc, hpos, cell, hcell, hdays, rfl⟩))

end

/-! ## The totals of the page -/

theorem aggregate_spend {rows : List SpendRow}
    (h : ∀ r ∈ rows, r.spend = r.campaignSpend.getD 0 + r.otherSpend.getD 0) :
    (aggregate rows).spend = (aggregate rows).campaign + (aggregate rows).other := by
  show (rows.map (·.spend)).sum = _
  rw [List.map_congr_left h, List.sum_map_add]
  rfl

theorem sum_byCategory (collate : String → String → Bool) (input : SpendingInput) :
    ((buildSpending collate input).byCategory.map (·.amount)).sum =
      (aggregate input.current).campaign + total input.otherLines (·.amount) := by
  set groups := Grouping.groups OtherSpendRow.category input.otherLines with hgroups
  set linesOf := fun c => ((groups.find? (·.1 = c)).map Prod.snd).getD [] with hlines
  have hrows : ∀ g ∈ groups, total (linesOf g.1) (·.amount) = (g.2.map (·.amount)).sum := by
    intro g hg
    obtain ⟨c, hc, rfl⟩ := List.mem_map.mp hg
    rw [hlines]
    simp only
    rw [hgroups, Grouping.find?_groups (Firsts.mem_firsts.mp hc)]
    rfl
  have hcats : ((groups.map Prod.fst).mergeSort (categoryOrder collate input.categories)).Perm
    (groups.map Prod.fst) := List.mergeSort_perm _ _
  have hsum := (hcats.map fun c => total (linesOf c) (·.amount)).sum_eq
  rw [List.map_map] at hsum
  have hsum := hsum.trans ((congrArg List.sum (List.map_congr_left hrows)).trans
    (Grouping.sum_groups_rows ..))
  have hpage : (buildSpending collate input).byCategory.map (·.amount) = (aggregate input.current).campaign ::
      ((groups.map Prod.fst).mergeSort (categoryOrder collate input.categories)).map
        fun c => total (linesOf c) (·.amount) := by
    simp only [buildSpending, List.map_cons, List.map_map]
    rfl
  rw [hpage, List.sum_cons, hsum]
  rfl

/-- The months of a figure that adds up over rows. -/
theorem sum_series (pick : Agg → ℚ) {v : SpendRow → ℚ}
    (hpick : ∀ rows, pick (aggregate rows) = (rows.map v).sum) {fromMonth toMonth : Nat}
    {current : List SpendRow} (hmonths : ∀ r ∈ current, fromMonth ≤ r.month ∧ r.month ≤ toMonth) :
    ((monthRange fromMonth toMonth).map fun m =>
      ((groupOf (Grouping.groups SpendRow.month current) m).map fun rows => pick (aggregate rows)).getD
        0).sum = pick (aggregate current) := by
  have hgroup : ∀ m, ((groupOf (Grouping.groups SpendRow.month current) m).map fun rows =>
      pick (aggregate rows)).getD 0 = ((Grouping.rowsOf SpendRow.month current m).map v).sum := by
    intro m
    have hlookup := Grouping.lookup_groups SpendRow.month current m fun rows => (rows.map v).sum
    rw [List.map_nil, List.sum_nil] at hlookup
    unfold groupOf
    rw [← hlookup, Option.map_map]
    simp only [hpick]
    rfl
  rw [List.map_congr_left fun m _ => hgroup m, Grouping.sum_values _ (monthRange fromMonth toMonth)
    List.nodup_range', hpick]
  refine congrArg (fun rows => (rows.map v).sum) (List.filter_eq_self.mpr fun r hr => ?_)
  have := hmonths r hr
  rw [decide_eq_true_eq, monthRange, List.mem_range'_1]
  omega

theorem sum_reconRows (collate : String → String → Bool) (input : SpendingInput) :
    ((buildSpending collate input).reconRows.map (·.2.2.2.totalSpend)).sum =
      (aggregate input.current).spend := by
  have hperm : (buildSpending collate input).reconRows.Perm
      (input.current.map fun r => (r.month, r.brandId, r.brand, reconBlock (aggregate [r]))) :=
    List.mergeSort_perm _ _
  rw [(hperm.map _).sum_eq, List.map_map]
  refine congrArg List.sum (List.map_congr_left fun r _ => ?_)
  simp [reconBlock, aggregate, total]

theorem sum_budgetBrands (collate : String → String → Bool) {input : SpendingInput}
    (hids : (input.brands.map (·.id)).Nodup)
    (hbrands : ∀ r ∈ input.current, r.brandId ∈ input.brands.map (·.id)) :
    ((buildSpending collate input).budgetBrands.map (·.2.spend)).sum =
      (aggregate input.current).spend := by
  have hgroup : ∀ b ∈ input.brands, (budgetBlock (aggregate
      ((groupOf (Grouping.groups SpendRow.brandId input.current) b.id).getD []))).spend =
      ((Grouping.rowsOf SpendRow.brandId input.current b.id).map (·.spend)).sum := by
    intro b _
    have hlookup := Grouping.lookup_groups SpendRow.brandId input.current b.id id
    rw [← show _ = Grouping.rowsOf SpendRow.brandId input.current b.id from hlookup]
    rfl
  have hvalues := Grouping.sum_values SpendRow.brandId (input.brands.map (·.id)) hids input.current (·.spend)
  rw [List.map_map] at hvalues
  simp only [buildSpending, List.map_map]
  refine (congrArg List.sum (List.map_congr_left hgroup)).trans (hvalues.trans ?_)
  rw [List.filter_eq_self.mpr fun r hr => decide_eq_true (hbrands r hr)]
  rfl

/-- What the page of a year is built from. -/
def pageInput (rows : List SpendRow) (other : List OtherSpendRow) (selected : List BrandRef)
    (categories : List String) (year fromMonth toMonth : Nat) : SpendingInput :=
  { year, fromMonth, toMonth, brands := selected, categories
    current := rows.filter fun r => decide (r.year = year)
    otherLines := other.filter fun l => decide (l.year = year) }

/-- **The Spending page reconciles.** For the merged rows of P1 rows, campaigns and other
spend inside the cells, the total is campaign plus other spend, and the categories, the
months, the reconciliation rows and the brands add up to it; each year, month and brand
has one row, and none with spend is missing. The campaign spend is what the campaigns add to
the cells of the year, when they pass the filter. -/
theorem spending_reconciles (collate : String → String → Bool) (p1 : List SpendRow)
    (campaigns : List CampaignSpendRow) (other : List OtherSpendRow) (cells : List Month)
    (brands selected : List BrandRef) (allowed : Option (List Nat)) (categories : List String)
    (year fromMonth toMonth : Nat) (hp1 : ∀ r ∈ p1, inCells cells r.year r.month)
    (hother : ∀ l ∈ other, inCells cells l.year l.month ∧ passes allowed l.brandId = true)
    (hcells : ∀ cell ∈ cells, cell.year = year → fromMonth ≤ cell.month ∧ cell.month ≤ toMonth) :
    let rows := mergeSpendRows p1 campaigns other cells brands allowed
    let page := buildSpending collate
      (pageInput rows other selected categories year fromMonth toMonth)
    page.spend.total = page.campaignSpend.total + page.otherSpend.total ∧
    (page.byCategory.map (·.amount)).sum = page.spend.total ∧
    (page.spend.series.map fun m => m.2.getD 0).sum = page.spend.total ∧
    (page.reconRows.map (·.2.2.2.totalSpend)).sum = page.spend.total ∧
    ((selected.map (·.id)).Nodup →
      (∀ r ∈ rows, r.year = year → r.brandId ∈ selected.map (·.id)) →
      (page.budgetBrands.map (·.2.spend)).sum = page.spend.total) ∧
    (rows.map fun r => (r.year, r.month, r.brandId)).Nodup ∧
    (∀ c ∈ campaigns, ∀ cell ∈ cells, 0 < c.duration → overlapDays c.start c.stop cell ≠ 0 →
      passes allowed c.brandId = true →
      ∃ r ∈ rows, r.year = cell.year ∧ r.month = cell.month ∧ r.brandId = c.brandId) ∧
    (∀ l ∈ other, ∃ r ∈ rows, r.year = l.year ∧ r.month = l.month ∧ r.brandId = l.brandId) ∧
    ((∀ c ∈ campaigns, c.start.le c.stop = true ∧ passes allowed c.brandId = true) → page.campaignSpend.total =
      (campaigns.map fun c => ((cells.filter fun cell => decide (cell.year = year)).map c.share).sum).sum) := by
  intro rows page
  have htotal : page.spend.total = page.campaignSpend.total + page.otherSpend.total :=
    aggregate_spend fun r hr => (spend_of_mem (List.mem_of_mem_filter hr)).2.2
  have hmonths : ∀ r ∈ rows.filter (fun r => decide (r.year = year)),
      fromMonth ≤ r.month ∧ r.month ≤ toMonth := by
    intro r hr
    obtain ⟨hr, hyear⟩ := List.mem_filter.mp hr
    obtain ⟨cell, hcell, hy, hm⟩ := row_inCells hp1 (fun l hl => (hother l hl).1) hr
    rw [← hm]
    exact hcells cell hcell (hy.trans (of_decide_eq_true hyear))
  refine ⟨htotal, ?_, ?_, sum_reconRows .., fun hids hbrands => ?_, ?_, ?_, ?_,
    fun hcampaigns => sum_campaignSpend hcampaigns year⟩
  · refine (sum_byCategory collate _).trans (Eq.trans ?_ htotal.symm)
    exact congrArg _ (sum_otherSpend (fun l hl => (hother l hl).2) year).symm
  · refine Eq.trans ?_ (sum_series Agg.spend (fun _ => rfl) hmonths)
    rw [show page.spend.series = (monthRange fromMonth toMonth).map fun m =>
      (m, (groupOf (Grouping.groups SpendRow.month _) m).map fun rows => (aggregate rows).spend)
      from rfl, List.map_map]
    rfl
  · refine sum_budgetBrands collate hids fun r hr => ?_
    obtain ⟨hr, hyear⟩ := List.mem_filter.mp hr
    exact hbrands r hr (of_decide_eq_true hyear)
  · have hn : (rows.map SpendRow.key).Nodup := nodup_keys
    have hkeys : rows.map SpendRow.key = (rows.map fun r => (r.year, r.month, r.brandId)).map
        fun k => ymKey k.1 k.2.1 k.2.2 := by
      rw [List.map_map]
      rfl
    rw [hkeys] at hn
    exact hn.of_map _
  · intro c hc cell hcell hpos hdays hpass
    exact exists_row hpass (.inl (mem_campaignKeys.mpr ⟨c, hc, hpos, cell, hcell, hdays, rfl⟩))
  · intro l hl
    exact exists_row (hother l hl).2 (.inr ⟨l, hl, rfl⟩)

def brandOne : BrandRef := ⟨1, "Xtreme", none, none, .brand⟩

def radio : OtherSpendRow := ⟨2026, 3, 1, "Xtreme", "Radio", 500⟩

/-- The campaign of 120,000 and radio spend of 500, of a brand without P1 rows. -/
theorem spending_reconciles_ramadan :
    let rows := mergeSpendRows [] [ramadan] [radio] [february, march] [brandOne] (some [1])
    let page := buildSpending (fun x y => decide (x ≤ y)) (pageInput rows [radio] [brandOne] ["Radio"] 2026 2 3)
    page.spend.total = 120500 ∧ (page.spend.series.map fun m => m.2.getD 0).sum = 120500 ∧
      (page.byCategory.map (·.amount)).sum = 120500 := by
  intro rows page
  obtain ⟨-, hcategories, hmonths, -⟩ := spending_reconciles (fun x y => decide (x ≤ y)) [] [ramadan]
    [radio] [february, march] [brandOne] [brandOne] (some [1]) ["Radio"] 2026 2 3 (by simp)
    (by
      intro l hl
      rw [List.mem_singleton.mp hl]
      exact ⟨⟨march, by simp, by decide, by decide⟩, by decide⟩)
    (by decide)
  have htotal : page.spend.total = 120500 := by
    have hrows : rows.Perm _ := mergeSpendRows_perm
    refine ((hrows.filter fun r => decide (r.year = 2026)).map (·.spend)).sum_eq.trans ?_
    decide +kernel
  exact ⟨htotal, hmonths.trans htotal, hcategories.trans htotal⟩

end SalesDashboard.MarcomKpi
