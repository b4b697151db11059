import SalesDashboard.CustomerGrowth.Rows
import Mathlib

/-! New customers on the page, in the count and in the dimension of the ETL. The page takes
a customer for new that bought this year, not in the same period last year and not before
it; the others want no earlier purchase at all. They part on the customers that bought
between the end of that period and the start of this year. -/

namespace SalesDashboard.CustomerGrowth
open DataScope Firsts Grouping SalesPipeline.Customers Tachometer

/-! ## The windows -/

theorem utcYear_utcYear (year : Nat) : utcYear (utcYear year) = utcYear year :=
  utcYear_of_ge (utcYear_ge year)

/-- The page and the ETL end last year's period on the same day. -/
theorem lytdEnd_eq (anchor : Date) : lytdEnd anchor = shiftOneYearBack anchor := by
  unfold lytdEnd shiftOneYearBack
  by_cases h : anchor.month = 2 ∧ anchor.day = 29 ∧ daysInMonth (anchor.year - 1) 2 < 29
  · obtain ⟨hm, hd, hlt⟩ := h
    rw [dif_neg (by rw [hm, hd]; omega), dif_pos ⟨hm, hd, hlt⟩]
    simp only [hm]
  · rw [dif_pos (day_le_other anchor.day_le h), dif_neg h]

theorem lytdWindow_eq (anchor : Date) : lytdWindow anchor = ⟨lytdStart anchor, lytdEnd anchor⟩ := by
  rw [lytdEnd_eq]
  have hyear : (shiftOneYearBack anchor).year = utcYear (anchor.year - 1) := by
    unfold shiftOneYearBack
    split <;> rfl
  unfold lytdWindow ytdWindow lytdStart dateOnlyUTC
  simp only [hyear, utcYear_utcYear]

theorem lytdEnd_year {anchor : Date} (h : 1000 ≤ anchor.year) : (lytdEnd anchor).year = anchor.year - 1 := by
  unfold lytdEnd
  split <;> exact utcYear_of_ge (by omega)

theorem lytdStart_eq {anchor : Date} (h : 1000 ≤ anchor.year) :
    (lytdStart anchor).year = anchor.year - 1 ∧ (lytdStart anchor).month = 1 ∧ (lytdStart anchor).day = 1 :=
  ⟨utcYear_of_ge (by omega), rfl, rfl⟩

theorem ytdStart_eq (anchor : Date) :
    (ytdStart anchor).year = anchor.year ∧ (ytdStart anchor).month = 1 ∧ (ytdStart anchor).day = 1 :=
  ⟨utcYear_of_ge anchor.year_ge, rfl, rfl⟩

/-- A date up to the anchor is before the period of last year, in it, after it but not of
this year, or of this year. -/
theorem date_cases {anchor d : Date} (hd : d.le anchor = true) :
    d.lt (lytdStart anchor) = true ∨ (lytdWindow anchor).has d = true ∨
      ((lytdEnd anchor).lt d = true ∧ d.lt (ytdStart anchor) = true) ∨ (ytdWindow anchor).has d = true := by
  obtain ⟨hy, hm, hday⟩ := ytdStart_eq anchor
  have hpos := d.day_pos
  have hmon := d.month_pos
  rw [lytdWindow_eq, ytdWindow_has, DateWindow.has, Bool.and_eq_true, Date.lt_iff, Date.lt_iff, Date.lt_iff]
  by_cases hbefore : (lytdStart anchor).le d = true
  · by_cases hlast : d.le (lytdEnd anchor) = true
    · exact Or.inr (Or.inl ⟨hbefore, hlast⟩)
    · by_cases hthis : (ytdStart anchor).le d = true
      · refine Or.inr (Or.inr (Or.inr ⟨?_, hd⟩))
        rw [Date.le_iff] at hthis hd
        omega
      · exact Or.inr (Or.inr (Or.inl ⟨hlast, hthis⟩))
  · exact Or.inl hbefore

/-- A date before this year is no date of this year. -/
theorem not_ytd_of_year {anchor d : Date} (h : d.year < anchor.year) : ¬ (ytdWindow anchor).has d = true := by
  rw [ytdWindow_has]
  omega

theorem year_lt_of_le_lytdEnd {anchor d : Date} (h : 1000 ≤ anchor.year) (hd : d.le (lytdEnd anchor) = true) :
    d.year < anchor.year := by
  have hy := lytdEnd_year h
  rw [Date.le_iff] at hd
  omega

theorem lytdStart_le_lytdEnd {anchor : Date} (h : 1000 ≤ anchor.year) :
    (lytdStart anchor).le (lytdEnd anchor) = true := by
  obtain ⟨hy, hm, hday⟩ := lytdStart_eq h
  have hy' := lytdEnd_year h
  have hpos := (lytdEnd anchor).day_pos
  have hmon := (lytdEnd anchor).month_pos
  rw [Date.le_iff]
  omega

/-! ## One customer -/

/-- Purchases this year, none up to the end of last year's period, and one in between. -/
def BoughtOnlySince (anchor : Date) (dates : List Date) : Prop :=
  (∃ d ∈ dates, (ytdWindow anchor).has d = true) ∧ (∀ d ∈ dates, (lytdEnd anchor).lt d = true) ∧
    ∃ d ∈ dates, d.lt (ytdStart anchor) = true

/-- A first purchase this year, as the KPI and the ETL read "new". -/
def FirstBoughtIn (anchor : Date) (dates : List Date) : Prop :=
  (earliest dates).any (ytdWindow anchor).has = true

variable {anchor : Date} {dates : List Date}

theorem firstBoughtIn_iff (hle : ∀ d ∈ dates, d.le anchor = true) :
    FirstBoughtIn anchor dates ↔ dates ≠ [] ∧ ∀ d ∈ dates, (ytdWindow anchor).has d = true := by
  unfold FirstBoughtIn
  cases hfirst : earliest dates with
  | none =>
    have hnil := earliest_eq_none hfirst
    simp [hnil]
  | some e =>
    obtain ⟨hmem, hmin⟩ := earliest_spec hfirst
    rw [Option.any_some]
    constructor
    · intro he
      refine ⟨List.ne_nil_of_mem hmem, fun d hd => ?_⟩
      have hed := hmin d hd
      have hda := hle d hd
      rw [ytdWindow_has] at he ⊢
      refine ⟨?_, hda⟩
      rw [Date.le_iff] at hed hda
      omega
    · rintro ⟨-, hall⟩
      exact hall e hmem

theorem lytdEnd_lt_of_ytd (h : 1000 ≤ anchor.year) {d : Date} (hd : (ytdWindow anchor).has d = true) :
    (lytdEnd anchor).lt d = true := by
  rw [Date.lt_iff]
  intro hle
  have hlt := year_lt_of_le_lytdEnd h hle
  exact not_ytd_of_year hlt hd

/-- Not in last year's period and not before it is after it. -/
theorem all_since_iff (h : 1000 ≤ anchor.year) (hle : ∀ d ∈ dates, d.le anchor = true) :
    (∀ d ∈ dates, (lytdEnd anchor).lt d = true) ↔
      dates.any (lytdWindow anchor).has = false ∧ dates.any (fun d => d.lt (lytdStart anchor)) = false := by
  simp only [List.any_eq_false]
  constructor
  · intro hall
    refine ⟨fun d hd hin => ?_, fun d hd hbefore => ?_⟩
    · rw [lytdWindow_eq, DateWindow.has, Bool.and_eq_true] at hin
      exact Date.lt_iff.mp (hall d hd) hin.2
    · have hstart := lytdStart_le_lytdEnd h
      have hdd : d.le (lytdStart anchor) = true :=
        (Date.le_total _ _).resolve_right (Date.lt_iff.mp hbefore)
      exact Date.lt_iff.mp (hall d hd) (Date.le_trans hdd hstart)
  · rintro ⟨hlytd, hbefore⟩ d hd
    rcases date_cases (hle d hd) with hb | hl | hs | hy
    · exact absurd hb (hbefore d hd)
    · exact absurd hl (hlytd d hd)
    · exact hs.1
    · exact lytdEnd_lt_of_ytd h hy

theorem boughtOnlySince_iff (h : 1000 ≤ anchor.year) (hle : ∀ d ∈ dates, d.le anchor = true) :
    BoughtOnlySince anchor dates ↔ dates.any (ytdWindow anchor).has = true ∧
      dates.any (lytdWindow anchor).has = false ∧ dates.any (fun d => d.lt (lytdStart anchor)) = false ∧
      ¬ FirstBoughtIn anchor dates := by
  have hsince := all_since_iff h hle
  unfold BoughtOnlySince
  rw [List.any_eq_true, hsince, firstBoughtIn_iff hle]
  constructor
  · rintro ⟨hy, ⟨hl, hb⟩, d, hd, hlt⟩
    refine ⟨hy, hl, hb, fun hall => ?_⟩
    have hin := hall.2 d hd
    rw [ytdWindow, DateWindow.has, Bool.and_eq_true] at hin
    exact Date.lt_iff.mp hlt hin.1
  · rintro ⟨hy, hl, hb, hfirst⟩
    refine ⟨hy, ⟨hl, hb⟩, ?_⟩
    by_contra hno
    refine hfirst ⟨List.ne_nil_of_mem hy.choose_spec.1, fun d hd => ?_⟩
    have hthis : ¬ d.lt (ytdStart anchor) = true := fun hlt => hno ⟨d, hd, hlt⟩
    have hstart : (ytdStart anchor).le d = true := by simpa [Date.lt] using hthis
    rw [ytdWindow, DateWindow.has, Bool.and_eq_true]
    exact ⟨hstart, hle d hd⟩

/-- A first purchase this year leaves nothing before it. -/
theorem flags_of_firstBoughtIn (h : 1000 ≤ anchor.year) (hle : ∀ d ∈ dates, d.le anchor = true)
    (hfirst : FirstBoughtIn anchor dates) : dates.any (ytdWindow anchor).has = true ∧
      dates.any (lytdWindow anchor).has = false ∧ dates.any (fun d => d.lt (lytdStart anchor)) = false := by
  obtain ⟨hne, hall⟩ := (firstBoughtIn_iff hle).mp hfirst
  obtain ⟨d, hd⟩ := List.exists_mem_of_ne_nil _ hne
  refine ⟨List.any_eq_true.mpr ⟨d, hd, hall d hd⟩, (all_since_iff h hle).mp fun d' hd' => ?_⟩
  exact lytdEnd_lt_of_ytd h (hall d' hd')

theorem isLYFullYear_of_lytd (h : 1000 ≤ anchor.year) (hl : dates.any (lytdWindow anchor).has = true) :
    (historyFlags anchor dates).isLYFullYear = true := by
  obtain ⟨d, hd, hin⟩ := List.any_eq_true.mp hl
  rw [lytdWindow_eq, DateWindow.has, Bool.and_eq_true] at hin
  obtain ⟨hlo, hhi⟩ := hin
  have hs := (lytdStart_eq h).1
  have he := lytdEnd_year h
  refine List.any_eq_true.mpr ⟨d, hd, decide_eq_true ?_⟩
  dsimp only at hlo hhi
  rw [Date.le_iff] at hlo hhi
  omega

/-- What the page reads off the dates of a customer. -/
structure Shows (anchor : Date) (dates : List Date) (activity : CustomerActivity) : Prop where
  hasYtd : activity.hasYtd = dates.any (ytdWindow anchor).has
  hasLytd : activity.hasLytd = dates.any (lytdWindow anchor).has
  hasBeforeLytd : activity.hasBeforeLytd = dates.any fun d => d.lt (lytdStart anchor)

theorem Shows.new_iff {activity : CustomerActivity} (hs : Shows anchor dates activity) (h : 1000 ≤ anchor.year)
    (hle : ∀ d ∈ dates, d.le anchor = true) :
    classifyCustomerStatus (some activity) false = .new ↔
      FirstBoughtIn anchor dates ∨ BoughtOnlySince anchor dates := by
  have hfirst := @flags_of_firstBoughtIn anchor dates h hle
  rw [boughtOnlySince_iff h hle]
  unfold classifyCustomerStatus
  simp only [Option.map_some, Option.getD_some, hs.hasYtd, hs.hasLytd, hs.hasBeforeLytd]
  by_cases hf : FirstBoughtIn anchor dates
  · obtain ⟨hy, hl, hb⟩ := hfirst hf
    simp [hy, hl, hb, hf]
  · cases dates.any (ytdWindow anchor).has <;> cases dates.any (lytdWindow anchor).has <;>
      cases dates.any (fun d => d.lt (lytdStart anchor)) <;> simp [hf]

/-- The page and the ETL agree on every customer but those. -/
theorem Shows.status_iff {activity : CustomerActivity} (hs : Shows anchor dates activity) (h : 1000 ≤ anchor.year)
    (hle : ∀ d ∈ dates, d.le anchor = true) :
    classifyCustomerStatus (some activity) false =
        calcStatus false (earliest dates) (historyFlags anchor dates) anchor ↔
      ¬ BoughtOnlySince anchor dates := by
  have hfirst := @flags_of_firstBoughtIn anchor dates h hle
  have hfull := @isLYFullYear_of_lytd anchor dates h
  have hflags : (historyFlags anchor dates).isYTD = dates.any (ytdWindow anchor).has ∧
      (historyFlags anchor dates).isLYTD = dates.any (lytdWindow anchor).has ∧
      (historyFlags anchor dates).hasHistoryBeforeLYTD = dates.any (fun d => d.lt (lytdStart anchor)) := by
    rw [lytdWindow_eq]
    exact ⟨rfl, rfl, rfl⟩
  have hnew : ((earliest dates).any fun d => (ytdStart anchor).le d && d.le anchor) =
      (earliest dates).any (ytdWindow anchor).has := rfl
  rw [boughtOnlySince_iff h hle]
  unfold classifyCustomerStatus calcStatus FirstBoughtIn
  simp only [Option.map_some, Option.getD_some, hs.hasYtd, hs.hasLytd, hs.hasBeforeLytd, hnew, hflags.1,
    hflags.2.1, hflags.2.2]
  cases hf : (earliest dates).any (ytdWindow anchor).has with
  | true =>
    obtain ⟨hy, hl, hb⟩ := hfirst hf
    simp [hy, hl, hb]
  | false =>
    cases hl : dates.any (lytdWindow anchor).has with
    | true =>
      rw [hfull hl]
      cases dates.any (ytdWindow anchor).has <;> simp
    | false =>
      cases dates.any (ytdWindow anchor).has <;> cases dates.any (fun d => d.lt (lytdStart anchor)) <;> simp

/-! ## The page, the count and the dimension -/

/-- The lines as the ETL reads them; the segment plays no part in a status. -/
def etlSales (db : Warehouse) : List (Sale ℚ ℚ) :=
  (db.salesLines.map fun line =>
    (⟨line.customerKey, db.dimDate line.dateKey, line.value, none⟩ : SaleRow ℚ ℚ)).filterMap SaleRow.sale

/-- The status of a customer in a `dim_customer` built at the anchor, with nobody blocked. -/
def dimStatus (db : Warehouse) (anchor : Date) (k : ℚ) : CustomerStatus :=
  (customerRow (etlSales db) anchor (fun _ => false) k).customerStatus

/-- The status of a customer on the page. -/
def pageStatus (db : Warehouse) (anchor : Date) (dc : CustomerDimRow) : CustomerStatus :=
  classifyCustomerStatus ((fetchCustomerActivitySnapshot db anchor noFilters none).find? fun activity =>
    decide (activity.customerKey = dc.customerKey)) dc.isBlocked

structure Consistent (db : Warehouse) (anchor : Date) : Prop where
  firstPurchase : ∀ dc ∈ db.dimCustomer, dc.firstPurchaseDate = earliest (lineDates db dc.customerKey)
  notBlocked : ∀ dc ∈ db.dimCustomer, dc.isBlocked = false
  upToAnchor : ∀ line ∈ db.salesLines, ∀ d, db.dimDate line.dateKey = some d → d.le anchor = true

/-- The new rows are as many as the count says, and every customer has one status. -/
def OneMeaning (db : Warehouse) (anchor : Date) : Prop :=
  ((fetchCustomerRows db anchor noFilters none).filter fun row => decide (row.status = .new)).length =
      fetchNewCustomerCount db (ytdWindow anchor) noFilters none ∧
    ∀ dc ∈ db.dimCustomer, pageStatus db anchor dc = dimStatus db anchor dc.customerKey

section Warehouse

variable {db : Warehouse} {dc : CustomerDimRow}

theorem lineDates_spec {k : ℚ} {d : Date} (hd : d ∈ lineDates db k) :
    ∃ line ∈ db.salesLines, db.dimDate line.dateKey = some d := by
  obtain ⟨line, hline, h⟩ := List.mem_filterMap.mp hd
  split at h
  · exact ⟨line, hline, h⟩
  · cases h

theorem Consistent.dates_le (hc : Consistent db anchor) {k : ℚ} : ∀ d ∈ lineDates db k, d.le anchor = true := by
  intro d hd
  obtain ⟨line, hline, h⟩ := lineDates_spec hd
  exact hc.upToAnchor line hline d h

/-- A line up to the anchor puts the anchor among the years of the database. -/
theorem Consistent.year_ge (hc : Consistent db anchor) {k : ℚ} (hne : lineDates db k ≠ []) :
    1000 ≤ anchor.year := by
  obtain ⟨d, hd⟩ := List.exists_mem_of_ne_nil _ hne
  obtain ⟨line, -, h⟩ := lineDates_spec hd
  have hge := db.dimDate_ge _ _ h
  have hle := hc.dates_le d hd
  rw [Date.le_iff] at hle
  omega

theorem datesOf_etlSales (db : Warehouse) (k : ℚ) : datesOf (etlSales db) k = lineDates db k := by
  rw [datesOf, etlSales, lineDates, List.filterMap_map, List.filter_filterMap, List.map_filterMap]
  refine List.filterMap_congr fun line _ => ?_
  cases hk : line.customerKey with
  | none => simp [SaleRow.sale, hk]
  | some c =>
    cases hd : db.dimDate line.dateKey with
    | none => simp [SaleRow.sale, hk, hd]
    | some d => by_cases hck : c = k <;> simp [SaleRow.sale, hk, hd, hck]

theorem dimStatus_eq (db : Warehouse) (anchor : Date) (k : ℚ) : dimStatus db anchor k =
    calcStatus false (earliest (lineDates db k)) (historyFlags anchor (lineDates db k)) anchor := by
  rw [← datesOf_etlSales]
  rfl

/-- The activity of a customer with lines. -/
def activityFor (db : Warehouse) (anchor : Date) (k : ℚ) : CustomerActivity :=
  activityOf (ytdWindow anchor) (lytdWindow anchor)
    (k, rowsOf (·.customer.customerKey) (joinedLines db noFilters none) k)

theorem shows_activityFor (anchor : Date) (hdc : dc ∈ db.dimCustomer) :
    Shows anchor (lineDates db dc.customerKey) (activityFor db anchor dc.customerKey) := by
  have hlytd := lytdWindow_eq anchor
  rw [← dates_of_customer hdc]
  constructor
  · rw [List.any_map]
    rfl
  · rw [List.any_map]
    rfl
  · rw [List.any_map, activityFor, activityOf, hlytd]
    rfl

theorem mem_keys (hdc : dc ∈ db.dimCustomer) :
    dc.customerKey ∈ (joinedLines db noFilters none).map (·.customer.customerKey) ↔
      lineDates db dc.customerKey ≠ [] := by
  rw [← dates_of_customer hdc, ne_eq, List.map_eq_nil_iff, rowsOf_eq_nil, not_not]

theorem exists_customer {k : ℚ} (hk : k ∈ (joinedLines db noFilters none).map (·.customer.customerKey)) :
    ∃ dc ∈ db.dimCustomer, dc.customerKey = k := by
  obtain ⟨j, hj, rfl⟩ := List.mem_map.mp hk
  rw [joinedLines_noFilters] at hj
  obtain ⟨line, -, hjoin⟩ := List.mem_filterMap.mp hj
  exact ⟨j.customer, (joinLine_eq_some hjoin).2.2, rfl⟩

theorem pageStatus_of_lines (hc : Consistent db anchor) (hdc : dc ∈ db.dimCustomer)
    (hne : lineDates db dc.customerKey ≠ []) :
    pageStatus db anchor dc = classifyCustomerStatus (some (activityFor db anchor dc.customerKey)) false := by
  have hfind : (fetchCustomerActivitySnapshot db anchor noFilters none).find?
      (fun activity => decide (activity.customerKey = dc.customerKey)) =
        some (activityFor db anchor dc.customerKey) := by
    rw [fetchCustomerActivitySnapshot, List.find?_map]
    have hgroup := find?_groups ((mem_keys hdc).mpr hne)
    rw [show ((fun activity : CustomerActivity => decide (activity.customerKey = dc.customerKey)) ∘
      activityOf (ytdWindow anchor) (lytdWindow anchor)) = fun g => decide (g.1 = dc.customerKey) from rfl, hgroup]
    rfl
  rw [pageStatus, hfind, hc.notBlocked dc hdc]

/-- A customer without a line is in no group and has no flag. -/
theorem pageStatus_of_nil (hc : Consistent db anchor) (hdc : dc ∈ db.dimCustomer)
    (hnil : lineDates db dc.customerKey = []) : pageStatus db anchor dc = .other := by
  have hfind : (fetchCustomerActivitySnapshot db anchor noFilters none).find?
      (fun activity => decide (activity.customerKey = dc.customerKey)) = none := by
    refine List.find?_eq_none.mpr fun activity hmem => ?_
    obtain ⟨g, hg, rfl⟩ := List.mem_map.mp hmem
    obtain ⟨k, hk, rfl⟩ := List.mem_map.mp hg
    intro heq
    have hkey : k = dc.customerKey := of_decide_eq_true heq
    exact (mem_keys hdc).mp (hkey ▸ mem_firsts.mp hk) hnil
  rw [pageStatus, hfind, hc.notBlocked dc hdc]
  rfl

theorem status_agrees_iff (hc : Consistent db anchor) (hdc : dc ∈ db.dimCustomer) :
    pageStatus db anchor dc = dimStatus db anchor dc.customerKey ↔
      ¬ BoughtOnlySince anchor (lineDates db dc.customerKey) := by
  rw [dimStatus_eq]
  by_cases hnil : lineDates db dc.customerKey = []
  · rw [pageStatus_of_nil hc hdc hnil, hnil]
    simp [earliest, historyFlags, calcStatus, BoughtOnlySince]
  · rw [pageStatus_of_lines hc hdc hnil]
    exact (shows_activityFor anchor hdc).status_iff (hc.year_ge hnil) hc.dates_le

theorem fetchCustomerRows_eq (db : Warehouse) (anchor : Date) :
    fetchCustomerRows db anchor noFilters none =
      (firsts ((joinedLines db noFilters none).map (·.customer.customerKey))).map
        fun k => customerTableRow db (activityFor db anchor k) := by
  rw [fetchCustomerRows, fetchCustomerActivitySnapshot, groups, List.map_map, List.map_map]
  rfl

theorem row_status (hc : Consistent db anchor) (hdc : dc ∈ db.dimCustomer) :
    (customerTableRow db (activityFor db anchor dc.customerKey)).status =
      classifyCustomerStatus (some (activityFor db anchor dc.customerKey)) false := by
  have hfind : db.dimCustomer.find? (fun c =>
      decide (c.customerKey = (activityFor db anchor dc.customerKey).customerKey)) = some dc := find?_customer hdc
  simp only [customerTableRow, hfind, Option.map_some, Option.getD_some, hc.notBlocked dc hdc]

def newRows (db : Warehouse) (anchor : Date) : List CustomerTableRow :=
  (fetchCustomerRows db anchor noFilters none).filter fun row => decide (row.status = .new)

theorem nodup_newRows (db : Warehouse) (anchor : Date) :
    ((newRows db anchor).map (·.customerKey)).Nodup := by
  have hkeys : (fetchCustomerRows db anchor noFilters none).map (·.customerKey) =
      firsts ((joinedLines db noFilters none).map (·.customer.customerKey)) := by
    rw [fetchCustomerRows_eq, List.map_map]
    exact List.map_id _
  have hn : ((fetchCustomerRows db anchor noFilters none).map (·.customerKey)).Nodup := by
    rw [hkeys]
    exact nodup_firsts _
  exact hn.sublist (List.filter_sublist.map _)

theorem mem_newRows (hc : Consistent db anchor) (hdc : dc ∈ db.dimCustomer) :
    dc.customerKey ∈ (newRows db anchor).map (·.customerKey) ↔
      FirstBoughtIn anchor (lineDates db dc.customerKey) ∨
        BoughtOnlySince anchor (lineDates db dc.customerKey) := by
  have hrow : dc.customerKey ∈ (newRows db anchor).map (·.customerKey) ↔
      lineDates db dc.customerKey ≠ [] ∧
        classifyCustomerStatus (some (activityFor db anchor dc.customerKey)) false = .new := by
    rw [← row_status hc hdc, ← mem_keys hdc, newRows, fetchCustomerRows_eq]
    constructor
    · intro h
      obtain ⟨row, hmem, hkey⟩ := List.mem_map.mp h
      obtain ⟨hin, hnew⟩ := List.mem_filter.mp hmem
      obtain ⟨k, hk, rfl⟩ := List.mem_map.mp hin
      have hk' : k = dc.customerKey := hkey
      subst hk'
      exact ⟨mem_firsts.mp hk, of_decide_eq_true hnew⟩
    · rintro ⟨hk, hnew⟩
      refine List.mem_map.mpr ⟨_, List.mem_filter.mpr ⟨List.mem_map.mpr
        ⟨dc.customerKey, mem_firsts.mpr hk, rfl⟩, decide_eq_true hnew⟩, rfl⟩
  rw [hrow]
  by_cases hnil : lineDates db dc.customerKey = []
  · simp [hnil, FirstBoughtIn, BoughtOnlySince, earliest]
  · rw [(shows_activityFor anchor hdc).new_iff (hc.year_ge hnil) hc.dates_le]
    exact and_iff_right hnil

/-- The keys the count counts. -/
def countedKeys (db : Warehouse) (window : DateWindow) : List ℚ :=
  firsts (((joinedLines db noFilters none).filter fun j =>
    window.has j.date && j.customer.firstPurchaseDate.any window.has).map (·.customer.customerKey))

theorem joined_customer {j : JoinedLine} (hj : j ∈ joinedLines db noFilters none) : j.customer ∈ db.dimCustomer := by
  rw [joinedLines_noFilters] at hj
  obtain ⟨line, -, hjoin⟩ := List.mem_filterMap.mp hj
  exact (joinLine_eq_some hjoin).2.2

theorem eq_of_customerKey {dc' : CustomerDimRow} (hdc : dc ∈ db.dimCustomer) (hdc' : dc' ∈ db.dimCustomer)
    (hkey : dc'.customerKey = dc.customerKey) : dc' = dc := by
  have hfind := find?_customer hdc'
  rw [hkey, find?_customer hdc] at hfind
  exact (Option.some.inj hfind).symm

theorem mem_countedKeys (hc : Consistent db anchor) (hdc : dc ∈ db.dimCustomer) :
    dc.customerKey ∈ countedKeys db (ytdWindow anchor) ↔ FirstBoughtIn anchor (lineDates db dc.customerKey) := by
  unfold countedKeys
  rw [mem_firsts, List.mem_map]
  constructor
  · rintro ⟨j, hj, hkey⟩
    obtain ⟨hin, hp⟩ := List.mem_filter.mp hj
    rw [Bool.and_eq_true] at hp
    obtain rfl := eq_of_customerKey hdc (joined_customer hin) hkey
    rw [FirstBoughtIn, ← hc.firstPurchase _ hdc]
    exact hp.2
  · intro hfirst
    obtain ⟨hne, hall⟩ := (firstBoughtIn_iff hc.dates_le).mp hfirst
    obtain ⟨j, hj, hkey⟩ := List.mem_map.mp ((mem_keys hdc).mpr hne)
    obtain rfl := eq_of_customerKey hdc (joined_customer hj) hkey
    refine ⟨j, List.mem_filter.mpr ⟨hj, ?_⟩, rfl⟩
    have hdate : j.date ∈ lineDates db j.customer.customerKey := by
      rw [← dates_of_customer hdc]
      exact List.mem_map.mpr ⟨j, List.mem_filter.mpr ⟨hj, decide_eq_true rfl⟩, rfl⟩
    rw [Bool.and_eq_true]
    refine ⟨hall _ hdate, ?_⟩
    rw [hc.firstPurchase _ hdc]
    exact hfirst

theorem newCount_eq (hc : Consistent db anchor)
    (hnone : ∀ dc ∈ db.dimCustomer, ¬ BoughtOnlySince anchor (lineDates db dc.customerKey)) :
    (newRows db anchor).length = fetchNewCustomerCount db (ytdWindow anchor) noFilters none := by
  have hperm : ((newRows db anchor).map (·.customerKey)).Perm (countedKeys db (ytdWindow anchor)) := by
    refine (List.perm_ext_iff_of_nodup (nodup_newRows db anchor) (nodup_firsts _)).mpr fun k => ?_
    constructor
    · intro hk
      have hk' := hk
      obtain ⟨row, hrow, rfl⟩ := List.mem_map.mp hk
      rw [newRows, fetchCustomerRows_eq] at hrow
      obtain ⟨k, hkeys, rfl⟩ := List.mem_map.mp (List.mem_filter.mp hrow).1
      obtain ⟨dc, hdc, rfl⟩ := exists_customer (mem_firsts.mp hkeys)
      exact (mem_countedKeys hc hdc).mpr (((mem_newRows hc hdc).mp hk').resolve_right (hnone dc hdc))
    · intro hk
      have hk' := hk
      rw [mem_firsts] at hk
      obtain ⟨j, hj, rfl⟩ := List.mem_map.mp hk
      have hdc := joined_customer (List.mem_filter.mp hj).1
      exact (mem_newRows hc hdc).mpr (Or.inl ((mem_countedKeys hc hdc).mp hk'))
  have hlen := hperm.length_eq
  rw [List.length_map] at hlen
  exact hlen

end Warehouse

/-- "New" means one thing if and only if nobody bought only since the end of last year's
period and also before this year. -/
theorem oneMeaning_iff {db : Warehouse} {anchor : Date} (hc : Consistent db anchor) :
    OneMeaning db anchor ↔
      ∀ dc ∈ db.dimCustomer, ¬ BoughtOnlySince anchor (lineDates db dc.customerKey) := by
  constructor
  · rintro ⟨-, hstatus⟩ dc hdc
    exact (status_agrees_iff hc hdc).mp (hstatus dc hdc)
  · intro hnone
    exact ⟨newCount_eq hc hnone, fun dc hdc => (status_agrees_iff hc hdc).mpr (hnone dc hdc)⟩

/-! ## A first purchase between the periods -/

def august2025 : Date := dateOnlyUTC 2025 8 1 (by decide) (firstDay ..)

theorem firstDay_january2026 : 1 ≤ 1 ∧ 1 ≤ daysInMonth 2026 1 := firstDay ..

theorem firstDay_march2026 : 1 ≤ 1 ∧ 1 ≤ daysInMonth 2026 3 := firstDay ..

def january2026 : Date := dateOnlyUTC 2026 1 1 january_bounds firstDay_january2026

def march2026 : Date := dateOnlyUTC 2026 3 1 march_bounds firstDay_march2026

def daysOf : Int → Option Date
  | 1 => some august2025
  | 2 => some january2026
  | _ => none

theorem daysOf_ge (key : Int) (d : Date) (h : daysOf key = some d) : 1000 ≤ d.year := by
  unfold daysOf at h
  split at h
  · cases h
    decide
  · cases h
    decide
  · cases h

def saleOn (dateKey : Int) : SalesLine :=
  ⟨⟨1, 1, 1, "T", 1, some 7⟩, dateKey, some 100, some 1⟩

/-- One customer with a sale on each of these days. -/
def customerWith (dateKeys : List Int) (first : Option Date) : Warehouse where
  salesLines := dateKeys.map saleOn
  dimDate := daysOf
  dimCustomer := [⟨7, none, first, none, none, none, false⟩]
  profiles := fun _ => ⟨none, none, none⟩
  odooFormUrl := fun _ _ => none
  dimDate_ge := daysOf_ge
  customerKey_nodup := List.nodup_singleton _

theorem consistent_customerWith (dateKeys : List Int) :
    Consistent (customerWith dateKeys (earliest (dateKeys.filterMap daysOf))) march2026 := by
  constructor
  · intro dc hdc
    obtain rfl := List.mem_singleton.mp hdc
    simp [lineDates, customerWith, List.filterMap_map, Function.comp_def, saleOn]
  · intro dc hdc
    obtain rfl := List.mem_singleton.mp hdc
    rfl
  · intro line hline d hd
    obtain ⟨key, -, rfl⟩ := List.mem_map.mp hline
    have h : daysOf key = some d := hd
    unfold daysOf at h
    split at h
    · cases h
      decide
    · cases h
      decide
    · cases h

/-- August of last year and January of this one: new on the page, not in the count and
"Other" in the dimension. -/
theorem newOnPage_only :
    Consistent (customerWith [1, 2] (some august2025)) march2026 ∧
      (newRows (customerWith [1, 2] (some august2025)) march2026).map (·.customerKey) = [7] ∧
      fetchNewCustomerCount (customerWith [1, 2] (some august2025)) (ytdWindow march2026) noFilters none = 0 ∧
      dimStatus (customerWith [1, 2] (some august2025)) march2026 7 = .other ∧
      ¬ OneMeaning (customerWith [1, 2] (some august2025)) march2026 := by
  refine ⟨consistent_customerWith [1, 2], by decide, by decide, by decide, ?_⟩
  rintro ⟨hcount, -⟩
  exact absurd hcount (by decide)

theorem oneMeaning_iff_january : OneMeaning (customerWith [2] (some january2026)) march2026 ↔
    ∀ dc ∈ (customerWith [2] (some january2026)).dimCustomer,
      ¬ BoughtOnlySince march2026 (lineDates (customerWith [2] (some january2026)) dc.customerKey) :=
  oneMeaning_iff (consistent_customerWith [2])

end SalesDashboard.CustomerGrowth
