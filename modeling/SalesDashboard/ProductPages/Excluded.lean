import SalesDashboard.ProductPages.Build
import SalesDashboard.ProductPages.Categories

/-! What the product pages leave out: the products under an excluded category of the
category tree, as far as the paths of the products' own categories show them. -/

namespace SalesDashboard.ProductPages
open Firsts Grouping

/-! ## The rules -/

/-- Each product has the id and the path of its own category. -/
structure Catalogued (t : CategoryTree) (catalog : List CatalogRow) : Prop where
  unassigned : ∀ r ∈ catalog, r.categoryId = none → r.category = UNASSIGNED
  path : ∀ r ∈ catalog, ∀ c, r.categoryId = some c → ∃ cat ∈ t.categories, cat.id = c ∧ r.category = cat.path

namespace Inputs

variable (i : Inputs)

def known : List ProductCompanyKey := knownKeys i.realSales i.allStock i.dimProduct

def Kept (key : ProductCompanyKey) : Prop := key.productKey ∈ ids i.rules.products .keep key.company

def Listed (key : ProductCompanyKey) : Prop := key.productKey ∈ ids i.rules.products .exclude key.company

def excludedCategories (key : ProductCompanyKey) : List Int := ids i.rules.categories .exclude key.company

/-- The product's category is an excluded one or a descendant of one. -/
def InExcludedCategory (t : CategoryTree) (key : ProductCompanyKey) : Prop :=
  ∃ r, rowOf i.dimProduct key.productKey = some r ∧ ∃ c, r.categoryId = some c ∧
    ∃ a ∈ i.excludedCategories key, t.Below c a

def ExcludedByRule (t : CategoryTree) (key : ProductCompanyKey) : Prop :=
  ¬ i.Kept key ∧ (i.Listed key ∨ i.InExcludedCategory t key)

/-- The path of the product's category goes through that of an excluded category which
some product is directly in. -/
def ByPath (key : ProductCompanyKey) : Prop :=
  ∃ r, rowOf i.dimProduct key.productKey = some r ∧ ∃ a ∈ i.excludedCategories key,
    ∃ path, pathOf i.dimProduct a = some path ∧ underPath path r.category = true

def HasCustomerRule (action : Action) (l : SalesLine) : Prop :=
  ∃ id ∈ ids i.rules.customers action l.company, l.odooPartnerId = some id ∨ l.customerKey = some id

def NotRealSale (l : SalesLine) : Prop :=
  ((∃ key ∈ i.config.excludedSegmentKeys, l.segmentKey = some key) ∨
      i.config.excludeIntercompany = true ∧ l.isIntercompany = true) ∧ ¬ i.HasCustomerRule .keep l ∨
    i.HasCustomerRule .exclude l

end Inputs

def Tables.keys (t : Tables) : List ProductCompanyKey :=
  t.daily.map (·.grain.productCompanyKey) ++ t.products.map (·.productCompanyKey) ++
    t.gaps.map (·.productCompanyKey) ++ t.quality.map (·.productCompanyKey)

/-- What the rules promise of a build. The rules are applied to the known products; in the
tables no excluded product may be, known or not. -/
structure Meets (t : CategoryTree) (i : Inputs) : Prop where
  excludes : ∀ key ∈ i.known, key ∈ i.excludedProductKeys ↔ i.ExcludedByRule t key
  absent : ∀ tables, i.build = some tables → ∀ key, i.ExcludedByRule t key → key ∉ tables.keys
  dropped : ∀ l ∈ i.ofCompanies, l ∉ i.realSales ↔ i.NotRealSale l
  totals : ∃ tables, i.build = some tables ∧ (tables.daily.map (·.value)).sum = total (·.value) i.lines ∧
    (tables.daily.map (·.qty)).sum = total (·.qty) i.lines ∧
    (tables.daily.map (·.lines)).sum = i.lines.length
  products : ∀ tables, i.build = some tables → (tables.products.map (·.productCompanyKey)).Nodup ∧
    ∀ key, key ∈ tables.products.map (·.productCompanyKey) ↔ key ∉ i.excludedProductKeys ∧
      ((∃ l ∈ i.realSales, l.productCompanyKey = key) ∨ (∃ s ∈ i.allStock, s.productCompanyKey = key) ∨
        ∃ r ∈ i.dimProduct, r.isActive = true ∧ r.productCompanyKey = some key ∧
          key.company ∈ i.lines.map (·.company))

/-! ## What the code excludes -/

theorem mem_excludedProducts {e : ProductExclusions} {lines : List SalesLine} {catalog : List CatalogRow}
    {stock : List StockRow} {key : ProductCompanyKey} :
    key ∈ excludedProducts e lines catalog stock ↔
      key ∈ knownKeys lines stock catalog ∧ hit e catalog key.company key.productKey = true := by
  unfold excludedProducts
  rw [List.mem_filter]
  refine and_congr_right fun hkey => ?_
  rw [List.any_eq_true]
  constructor
  · rintro ⟨company, -, h⟩
    rw [Bool.and_eq_true, decide_eq_true_eq] at h
    exact h.1 ▸ h.2
  · intro h
    refine ⟨key.company, mem_firsts.mpr (List.mem_map_of_mem hkey), ?_⟩
    rw [decide_eq_true rfl, Bool.true_and]
    exact h

section
variable {t : CategoryTree} {i : Inputs}

theorem hit_iff {key : ProductCompanyKey} : hit i.rules i.dimProduct key.company key.productKey = true ↔
    ¬ i.Kept key ∧ (i.Listed key ∨ i.ByPath key) := by
  unfold hit Inputs.Kept Inputs.Listed Inputs.ByPath Inputs.excludedCategories
  simp only [Bool.and_eq_true, Bool.or_eq_true, decide_eq_true_eq, List.any_eq_true, Option.any_eq_true,
    Bool.not_eq_true', decide_eq_false_iff_not]
  rw [and_comm, or_comm]
  refine and_congr_right fun _ => or_congr_right ?_
  constructor
  · rintro ⟨a, ha, path, hpath, r, hr, hunder⟩
    exact ⟨r, hr, a, ha, path, hpath, hunder⟩
  · rintro ⟨r, hr, a, ha, path, hpath, hunder⟩
    exact ⟨a, ha, path, hpath, r, hr, hunder⟩

theorem mem_excludedProductKeys {key : ProductCompanyKey} : key ∈ i.excludedProductKeys ↔
    key ∈ i.known ∧ ¬ i.Kept key ∧ (i.Listed key ∨ i.ByPath key) := by
  rw [← hit_iff]
  exact mem_excludedProducts

/-- The rules and the code agree on the products where the tree and the paths do. -/
theorem excludes_iff : (∀ key ∈ i.known, key ∈ i.excludedProductKeys ↔ i.ExcludedByRule t key) ↔
    ∀ key ∈ i.known, ¬ i.Kept key → ¬ i.Listed key → (i.InExcludedCategory t key ↔ i.ByPath key) := by
  refine forall₂_congr fun key hkey => ?_
  rw [mem_excludedProductKeys]
  unfold Inputs.ExcludedByRule
  tauto

/-! ## Lines that are not real sales -/

theorem customerRule_iff {action : Action} {l : SalesLine} (hl : l ∈ i.ofCompanies) :
    customerRule i.rules action i.ofCompanies l = true ↔ i.HasCustomerRule action l := by
  unfold customerRule Inputs.HasCustomerRule
  rw [List.any_eq_true]
  simp only [Bool.and_eq_true, Bool.or_eq_true, decide_eq_true_eq, Option.any_eq_true]
  constructor
  · rintro ⟨company, -, hcompany, h⟩
    subst hcompany
    rcases h with ⟨id, hid, hown⟩ | ⟨id, hid, hown⟩
    · exact ⟨id, hown, .inl hid⟩
    · exact ⟨id, hown, .inr hid⟩
  · rintro ⟨id, hown, hid⟩
    refine ⟨l.company, mem_firsts.mpr (List.mem_map_of_mem hl), rfl, ?_⟩
    rcases hid with hid | hid
    · exact .inl ⟨id, hid, hown⟩
    · exact .inr ⟨id, hid, hown⟩

theorem nonSalesMask_iff {l : SalesLine} (hl : l ∈ i.ofCompanies) :
    nonSalesMask i.config i.rules i.ofCompanies l = true ↔ i.NotRealSale l := by
  have hkeep := @customerRule_iff i .keep _ hl
  have hexclude := @customerRule_iff i .exclude _ hl
  unfold nonSalesMask Inputs.NotRealSale
  simp only [Bool.and_eq_true, Bool.or_eq_true, Bool.not_eq_true', Option.any_eq_true, decide_eq_true_eq,
    ← hkeep, ← hexclude, Bool.not_eq_true]
  refine or_congr_left (and_congr_left' (or_congr_left ?_))
  exact exists_congr fun key => and_comm

theorem dropped_iff {l : SalesLine} (hl : l ∈ i.ofCompanies) : l ∉ i.realSales ↔ i.NotRealSale l := by
  rw [← nonSalesMask_iff hl]
  unfold Inputs.realSales dropNonSales
  rw [List.mem_filter, Bool.not_eq_true', not_and, Bool.not_eq_false]
  exact ⟨fun h => h hl, fun h _ => h⟩

/-! ## The tables -/

theorem sum_daily (amount : SalesLine → ℚ) (lines : List SalesLine) :
    ((groups SalesLine.grain lines).map fun g => total amount g.2).sum = total amount lines :=
  sum_groups_rows SalesLine.grain lines amount

theorem daily_totals (lines : List SalesLine) : ((daily lines).map (·.value)).sum = total (·.value) lines ∧
    ((daily lines).map (·.qty)).sum = total (·.qty) lines ∧ ((daily lines).map (·.lines)).sum = lines.length := by
  unfold daily
  simp only [List.map_map]
  refine ⟨sum_daily (·.value) lines, sum_daily (·.qty) lines, ?_⟩
  have hcount := sum_groups_rows SalesLine.grain lines fun _ => 1
  simp only [List.map_const', List.sum_replicate, smul_eq_mul, mul_one] at hcount
  exact hcount

theorem preserved_self (x : ℚ) : preserved x x = true := by
  unfold preserved
  rw [sub_self, abs_zero]
  exact decide_eq_true (by norm_num)

theorem totalsPreserved_daily (lines : List SalesLine) : totalsPreserved lines (daily lines) = true := by
  obtain ⟨hvalue, hqty, hlines⟩ := daily_totals lines
  unfold totalsPreserved
  rw [hvalue, hqty, hlines, preserved_self, preserved_self, preserved_self]
  rfl

/-- The build ends with its tables. -/
theorem build_eq : i.build = some
    { daily := daily i.lines
      products := i.productRows
      gaps := odooGaps i.asOf i.lines i.productRows
      quality := dataQuality i.productRows i.inventory
      summary :=
        { asOfDate := i.asOf.today
          salesLinesValue := total (·.value) i.lines
          salesLinesQty := total (·.qty) i.lines
          salesLinesCount := i.lines.length
          dailyValue := ((daily i.lines).map (·.value)).sum
          products := i.productRows.length } } :=
  if_pos (totalsPreserved_daily i.lines)

theorem mem_lines {l : SalesLine} : l ∈ i.lines ↔ l ∈ i.realSales ∧ l.productCompanyKey ∉ i.excludedProductKeys := by
  unfold Inputs.lines
  rw [List.mem_filter, Bool.not_eq_true', decide_eq_false_iff_not]

theorem mem_stock {s : StockRow} : s ∈ i.stock ↔ s ∈ i.allStock ∧ s.productCompanyKey ∉ i.excludedProductKeys := by
  unfold Inputs.stock
  rw [List.mem_filter, Bool.not_eq_true', decide_eq_false_iff_not]

theorem daily_keys {lines : List SalesLine} {key : ProductCompanyKey}
    (h : key ∈ (daily lines).map (·.grain.productCompanyKey)) : ∃ l ∈ lines, l.productCompanyKey = key := by
  obtain ⟨row, hrow, rfl⟩ := List.mem_map.mp h
  obtain ⟨g, hg, rfl⟩ := List.mem_map.mp hrow
  have hgrain : g.1 ∈ lines.map SalesLine.grain := by
    rw [← mem_firsts, ← map_fst_groups]
    exact List.mem_map_of_mem hg
  obtain ⟨l, hl, heq⟩ := List.mem_map.mp hgrain
  exact ⟨l, hl, congrArg DailyGrain.productCompanyKey heq⟩

theorem map_productRows : i.productRows.map (·.productCompanyKey) =
    (firsts ((seen i.lines i.dimProduct i.stock).map (·.1))).filter
      fun key => !decide (key ∈ i.excludedProductKeys) := by
  unfold Inputs.productRows products
  rw [List.map_map]
  exact List.map_id _

theorem mem_seen {lines : List SalesLine} {catalog : List CatalogRow} {stock : List StockRow}
    {key : ProductCompanyKey} : key ∈ (seen lines catalog stock).map (·.1) ↔
      (∃ l ∈ lines, l.productCompanyKey = key) ∨ (∃ s ∈ stock, s.productCompanyKey = key) ∨
        ∃ r ∈ catalog, r.isActive = true ∧ r.productCompanyKey = some key ∧
          key.company ∈ lines.map (·.company) := by
  unfold seen
  simp only [List.map_append, List.map_map, List.mem_append, or_assoc]
  refine or_congr (List.mem_map) (or_congr List.mem_map ?_)
  simp only [List.mem_map, List.mem_filterMap, List.mem_filter, Option.map_eq_some_iff, Bool.and_eq_true,
    Option.any_eq_true, decide_eq_true_eq]
  constructor
  · rintro ⟨_, ⟨r, ⟨hr, hactive, company, hcompany, hsold⟩, k, hk, rfl⟩, rfl⟩
    refine ⟨r, hr, hactive, hk, ?_⟩
    obtain ⟨company', hcompany', rfl⟩ := Option.map_eq_some_iff.mp hk
    rw [hcompany] at hcompany'
    cases hcompany'
    exact hsold
  · rintro ⟨r, hr, hactive, hk, hsold⟩
    obtain ⟨company, hcompany, rfl⟩ := Option.map_eq_some_iff.mp hk
    exact ⟨_, ⟨r, ⟨hr, hactive, company, hcompany, hsold⟩, _, hk, rfl⟩, rfl⟩

theorem mem_productRows {key : ProductCompanyKey} : key ∈ i.productRows.map (·.productCompanyKey) ↔
    key ∉ i.excludedProductKeys ∧
      ((∃ l ∈ i.realSales, l.productCompanyKey = key) ∨ (∃ s ∈ i.allStock, s.productCompanyKey = key) ∨
        ∃ r ∈ i.dimProduct, r.isActive = true ∧ r.productCompanyKey = some key ∧
          key.company ∈ i.lines.map (·.company)) := by
  rw [map_productRows, List.mem_filter, mem_firsts, mem_seen, Bool.not_eq_true', decide_eq_false_iff_not,
    and_comm]
  refine and_congr_right fun hkey => or_congr ?_ (or_congr_left ?_)
  · constructor
    · rintro ⟨l, hl, rfl⟩
      exact ⟨l, (mem_lines.mp hl).1, rfl⟩
    · rintro ⟨l, hl, rfl⟩
      exact ⟨l, mem_lines.mpr ⟨hl, hkey⟩, rfl⟩
  · constructor
    · rintro ⟨s, hs, rfl⟩
      exact ⟨s, (mem_stock.mp hs).1, rfl⟩
    · rintro ⟨s, hs, rfl⟩
      exact ⟨s, mem_stock.mpr ⟨hs, hkey⟩, rfl⟩

theorem gaps_keys {asOf : AsOf} {lines : List SalesLine} {rows : List ProductRow} {key : ProductCompanyKey}
    (h : key ∈ (odooGaps asOf lines rows).map (·.productCompanyKey)) :
    key ∈ rows.map (·.productCompanyKey) := by
  obtain ⟨row, hrow, rfl⟩ := List.mem_map.mp h
  unfold odooGaps at hrow
  rw [(List.perm_insertionSort _ _).mem_iff] at hrow
  obtain ⟨p, hp, hsome⟩ := List.mem_filterMap.mp hrow
  dsimp only at hsome
  split at hsome
  · cases hsome
  · cases hsome
    exact List.mem_map_of_mem hp

theorem quality_keys {rows : List ProductRow} {inventory : List InventoryRow} {key : ProductCompanyKey} :
    key ∈ (dataQuality rows inventory).map (·.productCompanyKey) →
      key ∈ rows.map (·.productCompanyKey) ∨ ∃ r ∈ inventory, r.onHandQty < 0 ∧ r.productCompanyKey = key := by
  unfold dataQuality
  simp only [List.map_append, List.map_map, List.mem_append]
  rintro ((h | h) | h)
  · obtain ⟨r, hr, rfl⟩ := List.mem_map.mp h
    obtain ⟨hr, hneg⟩ := List.mem_filter.mp hr
    exact .inr ⟨r, hr, of_decide_eq_true hneg, rfl⟩
  · obtain ⟨p, hp, rfl⟩ := List.mem_map.mp h
    exact .inl (List.mem_map_of_mem (List.mem_of_mem_filter hp))
  · obtain ⟨p, hp, rfl⟩ := List.mem_map.mp h
    exact .inl (List.mem_map_of_mem (List.mem_of_mem_filter hp))

theorem mem_known {key : ProductCompanyKey} : key ∈ i.known ↔ (∃ l ∈ i.realSales, l.productCompanyKey = key) ∨
    (∃ s ∈ i.allStock, s.productCompanyKey = key) ∨ ∃ r ∈ i.dimProduct, r.productCompanyKey = some key := by
  unfold Inputs.known knownKeys
  rw [mem_firsts, List.mem_append, List.mem_append, List.mem_map, List.mem_map, List.mem_filterMap, or_assoc]

theorem known_of_productRow {key : ProductCompanyKey} (h : key ∈ i.productRows.map (·.productCompanyKey)) :
    key ∈ i.known := by
  rcases (mem_productRows.mp h).2 with hline | hstock | ⟨r, hr, -, hkey, -⟩
  · exact mem_known.mpr (.inl hline)
  · exact mem_known.mpr (.inr (.inl hstock))
  · exact mem_known.mpr (.inr (.inr ⟨r, hr, hkey⟩))

/-- Where the rules are applied as written, only the negative stock of an excluded product
is left in the tables. -/
theorem absent_iff (hexcludes : ∀ key ∈ i.known, key ∈ i.excludedProductKeys ↔ i.ExcludedByRule t key) :
    (∀ tables, i.build = some tables → ∀ key, i.ExcludedByRule t key → key ∉ tables.keys) ↔
    ∀ r ∈ i.inventory, r.onHandQty < 0 → ¬ i.ExcludedByRule t r.productCompanyKey := by
  constructor
  · intro h r hr hneg hrule
    refine h _ build_eq _ hrule (List.mem_append_right _ ?_)
    unfold dataQuality
    simp only [List.map_append, List.map_map, List.mem_append]
    exact .inl (.inl (List.mem_map.mpr ⟨r, List.mem_filter.mpr ⟨hr, decide_eq_true hneg⟩, rfl⟩))
  · intro h tables htables key hrule hmem
    rw [build_eq] at htables
    cases htables
    have hrows : key ∉ i.productRows.map (·.productCompanyKey) := fun hrow =>
      (mem_productRows.mp hrow).1 ((hexcludes key (known_of_productRow hrow)).mpr hrule)
    unfold Tables.keys at hmem
    simp only [List.mem_append] at hmem
    rcases hmem with ((hmem | hmem) | hmem) | hmem
    · obtain ⟨l, hl, rfl⟩ := daily_keys hmem
      obtain ⟨hreal, hkeep⟩ := mem_lines.mp hl
      exact hkeep ((hexcludes _ (mem_known.mpr (.inl ⟨l, hreal, rfl⟩))).mpr hrule)
    · exact hrows hmem
    · exact hrows (gaps_keys hmem)
    · rcases quality_keys hmem with hmem | ⟨r, hr, hneg, rfl⟩
      · exact hrows hmem
      · exact h r hr hneg hrule

/-! ## Trees whose paths name their categories -/

/-- Some product is directly in the category. -/
def Held (catalog : List CatalogRow) (a : Int) : Prop := ∃ r ∈ catalog, r.categoryId = some a

theorem pathOf_cases {catalog : List CatalogRow} (hcat : Catalogued t catalog) {a : Int} {path : String}
    (h : pathOf catalog a = some path) : Held catalog a ∧ ∃ cat ∈ t.categories, cat.id = a ∧ path = cat.path := by
  obtain ⟨r, hr, rfl⟩ := Option.map_eq_some_iff.mp h
  have hmem := List.mem_of_find?_eq_some hr
  have hid : r.categoryId = some a := of_decide_eq_true (List.find?_some hr :)
  exact ⟨⟨r, hmem, hid⟩, hcat.path r hmem a hid⟩

theorem exists_pathOf {catalog : List CatalogRow} {a : Int} (h : Held catalog a) :
    ∃ path, pathOf catalog a = some path := by
  obtain ⟨r, hr, hid⟩ := h
  have hsome : (catalog.find? fun r => decide (r.categoryId = some a)).isSome := by
    rw [List.find?_isSome]
    exact ⟨r, hr, decide_eq_true hid⟩
  obtain ⟨found, hfound⟩ := Option.isSome_iff_exists.mp hsome
  exact ⟨found.category, by rw [pathOf, hfound]; rfl⟩

theorem byPath_iff (hcat : Catalogued t i.dimProduct) (hsep : t.Separable) {key : ProductCompanyKey} :
    i.ByPath key ↔ ∃ r, rowOf i.dimProduct key.productKey = some r ∧ ∃ c, r.categoryId = some c ∧
      ∃ a ∈ i.excludedCategories key, t.Below c a ∧ Held i.dimProduct a := by
  constructor
  · rintro ⟨r, hr, a, ha, path, hpath, hunder⟩
    obtain ⟨hheld, cat, hmem, rfl, rfl⟩ := pathOf_cases hcat hpath
    have hrow := List.mem_of_find?_eq_some hr
    cases hc : r.categoryId with
    | none =>
      rw [hcat.unassigned r hrow hc, underPath_iff] at hunder
      rcases hunder with heq | hpre
      · exact absurd heq.symm (hsep.assigned cat hmem)
      · exact absurd (slash_mem_of_below hpre) (by decide)
    | some c =>
      obtain ⟨own, hown, rfl, hcategory⟩ := hcat.path r hrow c hc
      rw [hcategory] at hunder
      exact ⟨r, hr, own.id, hc, cat.id, ha, hsep.below_of_underPath hown hmem hunder, hheld⟩
  · rintro ⟨r, hr, c, hc, a, ha, hbelow, hheld⟩
    obtain ⟨path, hpath⟩ := exists_pathOf hheld
    obtain ⟨-, cat, hmem, rfl, rfl⟩ := pathOf_cases hcat hpath
    obtain ⟨own, hown, rfl, hcategory⟩ := hcat.path r (List.mem_of_find?_eq_some hr) c hc
    exact ⟨r, hr, cat.id, ha, cat.path, hpath, hcategory ▸ hbelow.underPath hown hmem⟩

/-! ## When the build does what the rules promise -/

/-- No excluded product has negative stock. -/
def NoNegativeStock (t : CategoryTree) (i : Inputs) : Prop :=
  ∀ r ∈ i.inventory, r.onHandQty < 0 → ¬ i.ExcludedByRule t r.productCompanyKey

theorem meets_iff_paths : Meets t i ↔ (∀ key ∈ i.known, ¬ i.Kept key → ¬ i.Listed key →
    (i.InExcludedCategory t key ↔ i.ByPath key)) ∧ NoNegativeStock t i := by
  rw [← excludes_iff]
  constructor
  · intro h
    exact ⟨h.excludes, (absent_iff h.excludes).mp h.absent⟩
  · rintro ⟨hexcludes, hneg⟩
    refine ⟨hexcludes, (absent_iff hexcludes).mpr hneg, fun l hl => dropped_iff hl,
      ⟨_, build_eq, daily_totals i.lines⟩, fun tables htables => ?_⟩
    rw [build_eq] at htables
    cases htables
    refine ⟨?_, fun key => mem_productRows⟩
    rw [map_productRows]
    exact (nodup_firsts _).filter _

/-- An excluded category above the product's own is reached through one that some product
is directly in. -/
def Reached (t : CategoryTree) (i : Inputs) (key : ProductCompanyKey) : Prop :=
  ∀ r, rowOf i.dimProduct key.productKey = some r → ∀ c, r.categoryId = some c →
    (∃ a ∈ i.excludedCategories key, t.Below c a) →
    ∃ a ∈ i.excludedCategories key, t.Below c a ∧ Held i.dimProduct a

theorem reached_iff (hcat : Catalogued t i.dimProduct) (hsep : t.Separable) {key : ProductCompanyKey} :
    Reached t i key ↔ (i.InExcludedCategory t key ↔ i.ByPath key) := by
  rw [byPath_iff hcat hsep]
  unfold Reached Inputs.InExcludedCategory
  constructor
  · intro h
    constructor
    · rintro ⟨r, hr, c, hc, hin⟩
      exact ⟨r, hr, c, hc, h r hr c hc hin⟩
    · rintro ⟨r, hr, c, hc, a, ha, hbelow, -⟩
      exact ⟨r, hr, c, hc, a, ha, hbelow⟩
  · intro h r hr c hc hin
    obtain ⟨r', hr', c', hc', hheld⟩ := h.mp ⟨r, hr, c, hc, hin⟩
    rw [hr] at hr'
    cases hr'
    rw [hc] at hc'
    cases hc'
    exact hheld

/-- **The build leaves out what the rules say** exactly when the paths show each product
under an excluded category and no excluded product has negative stock. In a tree whose
paths name their categories the first means that the excluded categories above a product
are not all without products of their own. -/
theorem meets_iff (hcat : Catalogued t i.dimProduct) :
    (Meets t i ↔ (∀ key ∈ i.known, ¬ i.Kept key → ¬ i.Listed key →
      (i.InExcludedCategory t key ↔ i.ByPath key)) ∧ NoNegativeStock t i) ∧
    (t.Separable → (Meets t i ↔ (∀ key ∈ i.known, ¬ i.Kept key → ¬ i.Listed key → Reached t i key) ∧
      NoNegativeStock t i)) := by
  refine ⟨meets_iff_paths, fun hsep => ?_⟩
  rw [meets_iff_paths]
  simp only [reached_iff hcat hsep]

end

/-! ## Two builds -/

/-- `All / Packaging / Films`. -/
def sampleCategories : List Category :=
  [⟨1, none, "All", "All"⟩, ⟨39, some 1, "Packaging", "All / Packaging"⟩,
    ⟨90, some 39, "Films", "All / Packaging / Films"⟩]

def sampleTree : CategoryTree where
  categories := sampleCategories
  ids := by simp [sampleCategories]
  root := by simp [sampleCategories]
  child := by simp [sampleCategories]

def carton : CatalogRow :=
  ⟨1, "Carton", some 39, "All / Packaging", "Brand", "Family", "Size", none, true, some "Tika"⟩

def film : CatalogRow :=
  ⟨2, "Film", some 90, "All / Packaging / Films", "Brand", "Family", "Size", none, true, some "Tika"⟩

/-- Packaging is excluded, and the catalog is given. -/
def packagingExcluded (catalog : List CatalogRow) : Inputs where
  config := ⟨[], [], false, []⟩
  exclusions := ⟨[], [⟨"All", 39, .exclude⟩], [], some "ProductExclusions.xlsx"⟩
  asOf := ⟨20000, 19900, 19635⟩
  salesLines := []
  dimProduct := catalog
  factInventory := []

theorem sample_catalogued : Catalogued sampleTree [carton, film] where
  unassigned := by simp [carton, film]
  path := by
    intro r hr c hc
    fin_cases hr
    · cases hc
      exact ⟨⟨39, some 1, "Packaging", "All / Packaging"⟩, by simp [sampleTree, sampleCategories], rfl, rfl⟩
    · cases hc
      exact ⟨⟨90, some 39, "Films", "All / Packaging / Films"⟩, by simp [sampleTree, sampleCategories], rfl, rfl⟩

theorem sample_separable : sampleTree.Separable where
  plain := by decide
  paths := by decide
  assigned := by decide

/-- With a product directly in Packaging the films are left out as well. -/
theorem meets_iff_sample : Meets sampleTree (packagingExcluded [carton, film]) := by
  refine ((meets_iff (i := packagingExcluded [carton, film]) sample_catalogued).2 sample_separable).mpr ⟨?_, ?_⟩
  · intro key _ _ _ r _ c _ hin
    obtain ⟨a, ha, hbelow⟩ := hin
    have ha39 : a = 39 := by simpa [Inputs.excludedCategories, Inputs.rules, withFallback, packagingExcluded, ids] using ha
    subst ha39
    exact ⟨39, ha, hbelow, carton, List.mem_cons_self, rfl⟩
  · intro r hr
    exact absurd hr List.not_mem_nil

/-- Packaging holds no product itself, and the film stays. -/
theorem film_not_excluded : Catalogued sampleTree [film] ∧ ¬ Meets sampleTree (packagingExcluded [film]) := by
  refine ⟨⟨by simp [film], ?_⟩, fun h => ?_⟩
  · intro r hr c hc
    exact sample_catalogued.path r (List.mem_cons_of_mem _ hr) c hc
  · have hkept : (⟨"Tika", 2⟩ : ProductCompanyKey) ∉ (packagingExcluded [film]).excludedProductKeys := by decide
    refine hkept ((h.excludes _ (by decide)).mpr ⟨List.not_mem_nil, .inr ⟨film, rfl, 90, rfl, 39, by decide, ?_⟩⟩)
    exact .single ⟨⟨90, some 39, "Films", "All / Packaging / Films"⟩, by simp [sampleTree, sampleCategories], rfl, rfl⟩

end SalesDashboard.ProductPages
