import SalesDashboard.ProductDashboard.Figures
import Mathlib

/-! Whether the product pages stay inside the companies of the caller's role: what they
list, and what they depend on. -/

namespace SalesDashboard.ProductDashboard
open DataScope Firsts Grouping Keyed Tables

variable {upper : String → String} {db db' : Warehouse upper} {sap : Profiles} {period : Period}
  {query : ProductDashboardQuery} {view : View}

/-! ## The rows of the role's companies -/

def inCompanies (query : ProductDashboardQuery) (companyKey : ℚ) : Bool :=
  decide (.num companyKey ∈ companyKeys query)

def Warehouse.ownDaily (db : Warehouse upper) (query : ProductDashboardQuery) : List DailyRow :=
  db.daily.filter fun d => inCompanies query d.keys.companyKey

def Warehouse.ownDashboard (db : Warehouse upper) (query : ProductDashboardQuery) : List DashboardRow :=
  db.dashboard.filter fun p => inCompanies query p.companyKey

theorem buildWhereClause_key {filters : Filters} {row : FactRow} (h : buildWhereClause filters false sap row = true)
    {d : ScopeDimension} (hd : filters (.scope d) ≠ []) : effectiveKey sap row d ∈ filters (.scope d) := by
  have hfield := List.all_eq_true.mp h (.scope d) (by cases d <;> decide)
  simpa [hd, column] using hfield

theorem inScope_iff {d : DailyRow} : inScope sap query view d = true ↔
    buildWhereClause query.filters false sap d.keys = true ∧ companyClause view d.company = true ∧
      notExcluded d.company = true := by
  simp [inScope, and_assoc]

theorem inCompanies_of_inScope (hkeys : companyKeys query ≠ []) {d : DailyRow}
    (h : inScope sap query view d = true) : inCompanies query d.keys.companyKey = true :=
  decide_eq_true (buildWhereClause_key (inScope_iff.mp h).1 hkeys)

theorem companyClause_iff {company : Option String} : companyClause view company = true ↔
    view = .BMH ∨ company = some view.name := by
  simp [companyClause]

theorem isScoped_of_keys (hkeys : companyKeys query ≠ []) : isScoped query = true := by
  unfold isScoped
  rw [List.any_eq_true]
  exact ⟨.companyKeys, by decide, decide_eq_true hkeys⟩

theorem Warehouse.dashboard_key (db : Warehouse upper) {d : DailyRow} {p : DashboardRow} (hd : d ∈ db.daily)
    (hp : p ∈ db.dashboard) {name : String} (hdn : d.company = some name) (hpn : p.company = some name) :
    d.keys.companyKey = p.companyKey :=
  db.company_key _ (List.mem_append_left _ (List.mem_map_of_mem hd)) _
    (List.mem_append_right _ (List.mem_map_of_mem hp)) (by simp [hdn]) (hdn.trans hpn.symm)

theorem Warehouse.daily_key (db : Warehouse upper) {d d' : DailyRow} (hd : d ∈ db.daily) (hd' : d' ∈ db.daily)
    {name : String} (hdn : d.company = some name) (hdn' : d'.company = some name) :
    d.keys.companyKey = d'.keys.companyKey :=
  db.company_key _ (List.mem_append_left _ (List.mem_map_of_mem hd)) _
    (List.mem_append_left _ (List.mem_map_of_mem hd')) (by simp [hdn]) (hdn.trans hdn'.symm)

/-! ## The view -/

/-- The sales rows of the role are all of one company, which has a view of its own. -/
def OneCompany (db : Warehouse upper) (query : ProductDashboardQuery) : Prop :=
  ∃ name, resolveView upper (some name) ≠ .BMH ∧ db.ownDaily query ≠ [] ∧
    ∀ d ∈ db.ownDaily query, companyText d.company = name

theorem mem_ownDaily {d : DailyRow} : d ∈ db.ownDaily query ↔
    d ∈ db.daily ∧ inCompanies query d.keys.companyKey = true := List.mem_filter

theorem allowed_eq (db : Warehouse upper) (query : ProductDashboardQuery) :
    allowed db.daily query = (firsts ((db.ownDaily query).map (·.company))).map companyText := rfl

/-- A company view is one of a company of the role. -/
theorem requestedView_company (hkeys : companyKeys query ≠ []) (h : requestedView upper db.daily query = .ok view)
    (hview : view ≠ .BMH) : ∃ d ∈ db.ownDaily query, d.company = some view.name := by
  unfold requestedView at h
  simp only [if_neg hkeys] at h
  split at h
  · cases h
  · next hallowed =>
    split at h
    · next hasked =>
      obtain rfl := Except.ok.inj h
      have hmem : (resolveView upper query.company).name ∈ allowed db.daily query :=
        not_not.mp fun hnot => hallowed ⟨hasked, hnot⟩
      rw [allowed_eq] at hmem
      obtain ⟨c, hc, htext⟩ := List.mem_map.mp hmem
      obtain ⟨d, hd, rfl⟩ := List.mem_map.mp (mem_firsts.mp hc)
      refine ⟨d, hd, ?_⟩
      cases hcompany : d.company with
      | some name => rw [← htext, hcompany]; rfl
      | none =>
        rw [hcompany] at htext
        exfalso
        revert htext
        cases resolveView upper query.company <;> decide
    · split at h
      · next only hone =>
        obtain rfl := Except.ok.inj h
        rw [allowed_eq] at hone
        have hmem : only ∈ (firsts ((db.ownDaily query).map (·.company))).map companyText := by
          rw [hone]
          exact List.mem_singleton_self _
        obtain ⟨c, hc, rfl⟩ := List.mem_map.mp hmem
        obtain ⟨d, hd, rfl⟩ := List.mem_map.mp (mem_firsts.mp hc)
        exact ⟨d, hd, db.normalised d (mem_ownDaily.mp hd).1 hview⟩
      · obtain rfl := Except.ok.inj h
        exact absurd rfl hview

theorem eq_singleton {α : Type} {xs : List α} {a : α} (hn : xs.Nodup) (hne : xs ≠ []) (h : ∀ x ∈ xs, x = a) :
    xs = [a] := by
  cases xs with
  | nil => exact absurd rfl hne
  | cons x rest =>
    cases rest with
    | nil => rw [h x List.mem_cons_self]
    | cons y rest =>
      have hxy : x = y := (h x (by simp)).trans (h y (by simp)).symm
      simp [hxy] at hn

theorem oneCompany_iff : OneCompany db query ↔
    ∃ only, allowed db.daily query = [only] ∧ resolveView upper (some only) ≠ .BMH := by
  constructor
  · rintro ⟨name, hname, hne, hall⟩
    have hcompany : ∀ d ∈ db.ownDaily query, d.company = some (resolveView upper (some name)).name := by
      intro d hd
      have h := db.normalised d (mem_ownDaily.mp hd).1
      rw [hall d hd] at h
      exact h hname
    have hfirsts : firsts ((db.ownDaily query).map (·.company)) =
        [some (resolveView upper (some name)).name] := by
      refine eq_singleton (nodup_firsts _) (fun hnil => hne ?_) ?_
      · simpa using firsts_eq_nil.mp hnil
      · intro c hc
        obtain ⟨d, hd, rfl⟩ := List.mem_map.mp (mem_firsts.mp hc)
        exact hcompany d hd
    refine ⟨(resolveView upper (some name)).name, by rw [allowed_eq, hfirsts]; rfl, ?_⟩
    obtain ⟨d, hd⟩ := List.exists_mem_of_ne_nil _ hne
    have htext := hall d hd
    rw [hcompany d hd] at htext
    rwa [show (resolveView upper (some name)).name = name from htext]
  · rintro ⟨only, hone, hview⟩
    rw [allowed_eq] at hone
    refine ⟨only, hview, fun hnil => ?_, fun d hd => ?_⟩
    · rw [hnil] at hone
      cases hone
    · have hmem : companyText d.company ∈ (firsts ((db.ownDaily query).map (·.company))).map companyText :=
        List.mem_map_of_mem (mem_firsts.mpr (List.mem_map_of_mem hd))
      rw [hone] at hmem
      exact List.mem_singleton.mp hmem

theorem requestedView_iff (hkeys : companyKeys query ≠ []) (h : requestedView upper db.daily query = .ok view) :
    view ≠ .BMH ↔ resolveView upper query.company ≠ .BMH ∨ OneCompany db query := by
  rw [oneCompany_iff]
  unfold requestedView at h
  simp only [if_neg hkeys] at h
  split at h
  · cases h
  · split at h
    · next hasked =>
      obtain rfl := Except.ok.inj h
      exact ⟨.inl, fun _ => hasked⟩
    · next hall =>
      split at h
      · next only hone =>
        obtain rfl := Except.ok.inj h
        refine ⟨fun hview => .inr ⟨only, hone, hview⟩, ?_⟩
        rintro (hasked | ⟨only', hone', hview⟩)
        · exact absurd hasked hall
        · rw [hone] at hone'
          rwa [(List.cons.inj hone').1]
      · next hmany =>
        obtain rfl := Except.ok.inj h
        refine ⟨fun hne => absurd rfl hne, ?_⟩
        rintro (hasked | ⟨only', hone', -⟩)
        · exact absurd hasked hall
        · exact absurd hone' (hmany only')

/-- Without a company asked for there is a page. -/
theorem requestedView_ok (hkeys : companyKeys query ≠ []) (hasked : resolveView upper query.company = .BMH) :
    ∃ view, requestedView upper db.daily query = .ok view := by
  unfold requestedView
  simp only [if_neg hkeys, hasked, ne_eq, not_true, false_and, if_false]
  split
  · exact ⟨_, rfl⟩
  · exact ⟨_, rfl⟩

/-! ## What is listed -/

/-- A listed product is one of the role, in a company view and for a salesperson. -/
theorem listed_inside (hkeys : companyKeys query ≠ []) (h : requestedView upper db.daily query = .ok view)
    (hinside : view ≠ .BMH ∨ query.salespersonTier = true) {p : DashboardRow} (hp : p ∈ db.dashboard)
    (hlisted : isListed period query view db.daily
      (byProduct (salesRows period (db.daily.filter (inScope sap query view)))) p = true) :
    inCompanies query p.companyKey = true := by
  unfold isListed at hlisted
  simp only [Bool.and_eq_true, isScoped_of_keys hkeys] at hlisted
  obtain ⟨⟨hexcluded, hclause⟩, hhidden⟩ := hlisted
  rcases hinside with hview | htier
  · obtain ⟨d, hd, hcompany⟩ := requestedView_company hkeys h hview
    obtain ⟨hdaily, hin⟩ := mem_ownDaily.mp hd
    have hpn := (companyClause_iff.mp hclause).resolve_left hview
    rwa [← db.dashboard_key hdaily hp hcompany hpn]
  · simp [htier] at hhidden
    obtain ⟨d, hd, hkey, -, -⟩ := line_of_soldInScope hhidden
    obtain ⟨hdaily, hscope⟩ := List.mem_filter.mp hd
    have hcompany := db.same_company d hdaily p hp hkey
    obtain ⟨name, hname⟩ : ∃ name, p.company = some name := by
      cases hc : p.company with
      | none => simp [notExcluded, hc] at hexcluded
      | some name => exact ⟨name, rfl⟩
    rw [← db.dashboard_key hdaily hp (hcompany.trans hname) hname]
    exact inCompanies_of_inScope hkeys hscope

/-! ## What the page depends on -/

/-- The two warehouses have the same rows of the role's companies. -/
structure SameRows (query : ProductDashboardQuery) (db db' : Warehouse upper) : Prop where
  daily : db.ownDaily query = db'.ownDaily query
  dashboard : db.ownDashboard query = db'.ownDashboard query

theorem filter_of_imp {α : Type} {p q : α → Bool} {xs : List α} (h : ∀ a ∈ xs, p a = true → q a = true) :
    xs.filter p = (xs.filter q).filter p := by
  rw [List.filter_filter]
  refine List.filter_congr fun a ha => ?_
  cases hp : p a with
  | false => rfl
  | true => simp [h a ha hp]

theorem any_of_imp {α : Type} {p q : α → Bool} {xs : List α} (h : ∀ a ∈ xs, p a = true → q a = true) :
    xs.any p = (xs.filter q).any p := by
  rw [Bool.eq_iff_iff, List.any_eq_true, List.any_eq_true]
  constructor
  · rintro ⟨a, ha, hp⟩
    exact ⟨a, List.mem_filter.mpr ⟨ha, h a ha hp⟩, hp⟩
  · rintro ⟨a, ha, hp⟩
    exact ⟨a, List.mem_of_mem_filter ha, hp⟩

theorem SameRows.requestedView (h : SameRows query db db') :
    requestedView upper db.daily query = requestedView upper db'.daily query := by
  have hallowed : allowed db.daily query = allowed db'.daily query := by
    rw [allowed_eq, allowed_eq, h.daily]
  unfold ProductDashboard.requestedView
  rw [hallowed]

theorem scoped_eq (hkeys : companyKeys query ≠ []) (db : Warehouse upper) :
    db.daily.filter (inScope sap query view) = (db.ownDaily query).filter (inScope sap query view) :=
  filter_of_imp fun _ _ h => inCompanies_of_inScope hkeys h

/-- Where a product of a company view has been sold is in the rows of that company. -/
theorem soldAnywhere_eq (hkeys : companyKeys query ≠ []) (h : requestedView upper db.daily query = .ok view)
    (hview : view ≠ .BMH) (key : String) :
    soldAnywhere period view db.daily key = soldAnywhere period view (db.ownDaily query) key := by
  obtain ⟨own, hown, hcompany⟩ := requestedView_company hkeys h hview
  obtain ⟨hdaily, hin⟩ := mem_ownDaily.mp hown
  refine any_of_imp fun d hd hsold => ?_
  simp only [Bool.and_eq_true] at hsold
  have hdn := (companyClause_iff.mp hsold.1.2).resolve_left hview
  rwa [db.daily_key hd hdaily hdn hcompany]

theorem isListed_eq (hkeys : companyKeys query ≠ []) (h : requestedView upper db.daily query = .ok view)
    (hinside : view ≠ .BMH ∨ query.salespersonTier = true) (products : List (String × Agg)) (p : DashboardRow) :
    isListed period query view db.daily products p = isListed period query view (db.ownDaily query) products p := by
  unfold isListed
  rcases hinside with hview | htier
  · rw [soldAnywhere_eq hkeys h hview]
  · simp only [htier, Bool.true_or]

/-- The page, from the rows of the role's companies. -/
theorem overview_eq (hkeys : companyKeys query ≠ []) (h : requestedView upper db.daily query = .ok view)
    (hinside : view ≠ .BMH ∨ query.salespersonTier = true) :
    overview sap period query view db.daily db.dashboard =
      overview sap period query view (db.ownDaily query) (db.ownDashboard query) := by
  have hproducts : db.dashboard.filter (isListed period query view db.daily
      (byProduct (salesRows period (db.daily.filter (inScope sap query view))))) =
      (db.ownDashboard query).filter (isListed period query view (db.ownDaily query)
        (byProduct (salesRows period ((db.ownDaily query).filter (inScope sap query view))))) := by
    rw [filter_of_imp fun p hp hlisted => listed_inside hkeys h hinside hp hlisted, ← scoped_eq hkeys db]
    exact List.filter_congr fun p _ => isListed_eq hkeys h hinside _ p
  unfold overview
  dsimp only
  rw [hproducts, scoped_eq hkeys db]

/-! ## The wall -/

/-- The pages list products of the role's companies alone, and no row of another company
changes them. -/
structure Walled (db : Warehouse upper) (sap : Profiles) (period : Period) (query : ProductDashboardQuery) :
    Prop where
  listed : ∀ page, computeProductDashboard db sap period query = .ok page → ∀ row ∈ page.products,
    ∃ p ∈ db.dashboard, p.productCompanyKey = row.productCompanyKey ∧ inCompanies query p.companyKey = true
  blind : ∀ db' : Warehouse upper, SameRows query db db' →
    computeProductDashboard db sap period query = computeProductDashboard db' sap period query

/-- A company is asked for, the caller is a salesperson, or the role sells in one company
with a view of its own. -/
def KeepsInside (db : Warehouse upper) (query : ProductDashboardQuery) : Prop :=
  resolveView upper query.company ≠ .BMH ∨ query.salespersonTier = true ∨ OneCompany db query

theorem compute_eq (h : requestedView upper db.daily query = .ok view) :
    computeProductDashboard db sap period query = .ok (overview sap period query view db.daily db.dashboard) := by
  unfold computeProductDashboard
  rw [h]
  rfl

theorem KeepsInside.inside (h : KeepsInside db query) (hkeys : companyKeys query ≠ [])
    (hok : requestedView upper db.daily query = .ok view) : view ≠ .BMH ∨ query.salespersonTier = true := by
  rw [requestedView_iff hkeys hok]
  rcases h with hasked | htier | hone
  · exact .inl (.inl hasked)
  · exact .inr htier
  · exact .inl (.inr hone)

theorem walled_of_keepsInside (hkeys : companyKeys query ≠ []) (h : KeepsInside db query) :
    Walled db sap period query := by
  constructor
  · intro page hpage row hrow
    cases hok : requestedView upper db.daily query with
    | error e =>
      unfold computeProductDashboard at hpage
      rw [hok] at hpage
      cases hpage
    | ok view =>
      rw [compute_eq hok] at hpage
      obtain rfl := Except.ok.inj hpage
      obtain ⟨p, hp, rfl⟩ := List.mem_map.mp hrow
      obtain ⟨hmem, hlisted⟩ := List.mem_filter.mp hp
      exact ⟨p, hmem, rfl, listed_inside hkeys hok (h.inside hkeys hok) hmem hlisted⟩
  · intro db' hsame
    have hview := hsame.requestedView
    cases hok : requestedView upper db.daily query with
    | error e =>
      unfold computeProductDashboard
      rw [← hview, hok]
      rfl
    | ok view =>
      have hinside := h.inside hkeys hok
      have hok' : requestedView upper db'.daily query = .ok view := hview.symm.trans hok
      rw [compute_eq hok, compute_eq hok', overview_eq hkeys hok hinside, overview_eq hkeys hok' hinside,
        hsame.daily, hsame.dashboard]

/-! ## Where the wall has a gap -/

/-- The warehouse with a product more, of a company that no row names. -/
def Warehouse.withProduct (db : Warehouse upper) (p : DashboardRow)
    (hkey : p.productCompanyKey ∉ db.daily.map (·.productCompanyKey) ++ db.dashboard.map (·.productCompanyKey))
    (hname : p.company ∉ (companies db.daily db.dashboard).map Prod.fst) : Warehouse upper where
  daily := db.daily
  dashboard := db.dashboard ++ [p]
  key_nodup := by
    rw [List.map_append, List.nodup_append]
    refine ⟨db.key_nodup, by simp, fun k hk k' hk' heq => hkey ?_⟩
    rw [List.map_singleton, List.mem_singleton] at hk'
    rw [← hk', ← heq]
    exact List.mem_append_right _ hk
  same_company := by
    intro d hd q hq heq
    rcases List.mem_append.mp hq with hq | hq
    · exact db.same_company d hd q hq heq
    · rw [List.mem_singleton.mp hq] at heq
      exact absurd (List.mem_append_left _ (heq ▸ List.mem_map_of_mem hd)) hkey
  company_key := by
    have hcompanies : companies db.daily (db.dashboard ++ [p]) =
        companies db.daily db.dashboard ++ [(p.company, p.companyKey)] := by
      simp [companies]
    rw [hcompanies]
    intro c hc c' hc' hne heq
    rcases List.mem_append.mp hc with hc | hc <;> rcases List.mem_append.mp hc' with hc' | hc'
    · exact db.company_key c hc c' hc' hne heq
    · rw [List.mem_singleton.mp hc'] at heq
      exact absurd (List.mem_map.mpr ⟨c, hc, heq⟩) hname
    · rw [List.mem_singleton.mp hc] at heq
      exact absurd (List.mem_map.mpr ⟨c', hc', heq.symm⟩) hname
    · rw [List.mem_singleton.mp hc, List.mem_singleton.mp hc']
  normalised := db.normalised

theorem exists_name (names : List String) : ∃ name, name ∉ names := by
  have hinj : Function.Injective fun n : ℕ => String.ofList (List.replicate n 'x') := by
    intro n m h
    simpa using congrArg List.length (String.ofList_injective h)
  have : Infinite String := Infinite.of_injective _ hinj
  obtain ⟨name, hname⟩ := Infinite.exists_notMem_finset names.toFinset
  exact ⟨name, fun h => hname (List.mem_toFinset.mpr h)⟩

theorem exists_companyKey (keys : List Key) : ∃ key : ℚ, Key.num key ∉ keys := by
  have hinj : Function.Injective Key.num := fun a b h => Key.num.inj h
  obtain ⟨key, hkey⟩ := Infinite.exists_notMem_finset (keys.toFinset.preimage Key.num hinj.injOn)
  exact ⟨key, fun h => hkey (Finset.mem_preimage.mpr (List.mem_toFinset.mpr h))⟩

/-- In the view of all companies a product that nobody has sold is listed. -/
theorem isListed_unsold (htier : query.salespersonTier = false) {daily : List DailyRow} {p : DashboardRow}
    (hexcluded : notExcluded p.company = true) (hkey : p.productCompanyKey ∉ daily.map (·.productCompanyKey))
    (products : List (String × Agg)) : isListed period query .BMH daily products p = true := by
  have hsold : soldAnywhere period .BMH daily p.productCompanyKey = false := by
    unfold soldAnywhere
    rw [List.any_eq_false]
    intro d hd h
    simp only [Bool.and_eq_true, decide_eq_true_eq] at h
    exact hkey (h.1.1.1.1 ▸ List.mem_map_of_mem hd)
  simp [isListed, hexcluded, companyClause, htier, hsold]

/-- **The wall of the product pages** stands exactly when the page is of one company or of
one salesperson. -/
theorem walled_iff (db : Warehouse upper) (sap : Profiles) (period : Period) (query : ProductDashboardQuery)
    (hkeys : companyKeys query ≠ []) : Walled db sap period query ↔ KeepsInside db query := by
  refine ⟨fun hwalled => ?_, walled_of_keepsInside hkeys⟩
  by_contra hgap
  simp only [KeepsInside, not_or, not_not, Bool.not_eq_true] at hgap
  obtain ⟨hasked, htier, hone⟩ := hgap
  obtain ⟨view, hview⟩ := requestedView_ok hkeys hasked
  have hBMH : view = .BMH := by
    by_contra hne
    rcases (requestedView_iff hkeys hview).mp hne with h | h
    · exact absurd hasked h
    · exact hone h
  subst hBMH
  obtain ⟨name, hname⟩ := exists_name ("Athena" :: (companies db.daily db.dashboard).filterMap Prod.fst)
  obtain ⟨key, hkey⟩ := exists_name (db.daily.map (·.productCompanyKey) ++ db.dashboard.map (·.productCompanyKey))
  obtain ⟨companyKey, hcompanyKey⟩ := exists_companyKey (companyKeys query)
  rw [List.mem_cons, not_or] at hname
  obtain ⟨hathena, hname⟩ := hname
  have hnew : some name ∉ (companies db.daily db.dashboard).map Prod.fst := by
    intro h
    obtain ⟨c, hc, heq⟩ := List.mem_map.mp h
    exact hname (List.mem_filterMap.mpr ⟨c, hc, heq⟩)
  set p : DashboardRow := ⟨key, some name, companyKey, none, []⟩ with hp
  have hsame : SameRows query db (db.withProduct p hkey hnew) := by
    refine ⟨rfl, ?_⟩
    have hout : inCompanies query p.companyKey = false := decide_eq_false hcompanyKey
    simp [Warehouse.ownDashboard, Warehouse.withProduct, List.filter_append, hout]
  have hblind := hwalled.blind _ hsame
  rw [compute_eq hview, compute_eq (hsame.requestedView.symm.trans hview)] at hblind
  have hcount := congrArg (fun page => page.products.length) (Except.ok.inj hblind)
  have hlisted : isListed period query .BMH db.daily
      (byProduct (salesRows period (db.daily.filter (inScope sap query .BMH)))) p = true := by
    refine isListed_unsold htier ?_ (fun h => hkey (List.mem_append_left _ h)) _
    simpa [notExcluded, EXCLUDED_COMPANIES, hp] using hathena
  simp [overview, Warehouse.withProduct, List.filter_append, hlisted] at hcount

/-! ## A shop -/

def shopUpper (s : String) : String :=
  if s = "Majaal" then "MAJAAL" else if s = "Tika" then "TIKA" else s

def cementSale : DailyRow where
  productCompanyKey := "Majaal|1"
  company := some "Majaal"
  keys := ⟨1, 1, 2, "7", 5, none⟩
  orderDate := some 10
  isIntercompany := some 0
  uom := some "Unit"
  value := some 100
  qty := some 4
  costValue := some 60
  uncostedQty := some 0
  lines := some 2

/-- Majaal sells cement, and Tika has paint that nobody has bought. -/
def shop : Warehouse shopUpper where
  daily := [cementSale]
  dashboard := [⟨"Majaal|1", some "Majaal", 1, some "Unit", []⟩, ⟨"Tika|9", some "Tika", 2, none, []⟩]
  key_nodup := by decide
  same_company := by decide
  company_key := by decide +kernel
  normalised := by decide

def shopPeriod : Period := ⟨⟨some 1, some 31⟩, ⟨some (-364), some (-334)⟩, ⟨some 1, some 31⟩, ⟨some (-364), some (-334)⟩⟩

/-- The role of one company. -/
def roleOf (companyKey : ℚ) : ProductDashboardQuery where
  company := none
  filters := fun field => if field = .scope .companyKeys then [.num companyKey] else []
  salespersonTier := false

theorem roleOf_keys (companyKey : ℚ) : companyKeys (roleOf companyKey) ≠ [] := by
  simp [companyKeys, roleOf]

/-- The role of Majaal sees its cement alone; that of Tika, which has sold nothing, sees
the other company. -/
theorem walled_shop : Walled shop (fun _ => ⟨none, none, none⟩) shopPeriod (roleOf 1) ∧
    ¬ Walled shop (fun _ => ⟨none, none, none⟩) shopPeriod (roleOf 2) := by
  constructor
  · refine (walled_iff shop _ shopPeriod (roleOf 1) (roleOf_keys 1)).mpr (.inr (.inr ⟨"Majaal", ?_⟩))
    decide +kernel
  · rw [walled_iff shop _ shopPeriod (roleOf 2) (roleOf_keys 2)]
    rintro (hasked | htier | ⟨name, -, hsold, -⟩)
    · exact hasked (by decide)
    · cases htier
    · exact hsold (by decide +kernel)

end SalesDashboard.ProductDashboard
