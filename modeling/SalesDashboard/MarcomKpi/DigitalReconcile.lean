import SalesDashboard.MarcomKpi.Superseded
import Mathlib

/-! Whether the Digital page agrees with itself: the figures by brand, by platform and by
month against those over all, and the follower figures when an older snapshot is added. -/

namespace SalesDashboard.MarcomKpi
open Firsts Grouping Latest Keyed

/-- Rows of the year and its months, of the brands and the platforms of the page, each of
which is there once. -/
structure DigitalInput.Valid (input : DigitalInput) : Prop where
  socialYear : ∀ r ∈ input.social, r.year = input.year
  socialMonth : ∀ r ∈ input.social, 1 ≤ r.month ∧ r.month ≤ input.toMonth
  webYear : ∀ r ∈ input.web, r.year = input.year
  webMonth : ∀ r ∈ input.web, input.fromMonth ≤ r.month ∧ r.month ≤ input.toMonth
  brands : (input.brands.map (·.id)).Nodup
  platforms : input.platforms.Nodup
  socialBrand : ∀ r ∈ input.social, ∀ id, r.brandId = some id → id ∈ input.brands.map (·.id)
  webBrand : ∀ r ∈ input.web, ∀ id, r.brandId = some id → id ∈ input.brands.map (·.id)
  socialPlatform : ∀ r ∈ input.social, r.platform ∈ input.platforms

variable {toLowerCase : String → String} {input : DigitalInput}

theorem keptSocial_subset {r : SocialRow} (hr : r ∈ input.keptSocial) : r ∈ input.social :=
  List.mem_of_mem_filter hr

theorem inRange_subset {r : SocialRow} (hr : r ∈ input.inRange) : r ∈ input.keptSocial :=
  List.mem_of_mem_filter hr

/-! ## Classes of rows -/

/-- Value by value, when every row has one of the values. -/
theorem total_values {T κ : Type} [DecidableEq κ] {key : T → κ} {ks : List κ} (hks : ks.Nodup)
    {rows : List T} (hrows : ∀ r ∈ rows, key r ∈ ks) (v : T → ℚ) :
    (ks.map fun k => total (rowsOf key rows k) v).sum = total rows v :=
  (sum_values key ks hks rows v).trans (congrArg (fun rs => (rs.map v).sum)
    (List.filter_eq_self.mpr fun r hr => decide_eq_true (hrows r hr)))

/-- No brand, and each brand of the page. -/
def brandClasses (input : DigitalInput) : List (Option ℕ) := none :: input.brands.map fun br => some br.id

theorem nodup_brandClasses (h : input.Valid) : (brandClasses input).Nodup := by
  refine List.nodup_cons.mpr ⟨by simp, ?_⟩
  have hsome := h.brands.map (f := some) fun a b hab => Option.some.inj hab
  rwa [List.map_map] at hsome

theorem mem_brandClasses {o : Option ℕ} (ho : ∀ id, o = some id → id ∈ input.brands.map (·.id)) :
    o ∈ brandClasses input := by
  cases o with
  | none => exact List.mem_cons_self
  | some id =>
    obtain ⟨br, hbr, rfl⟩ := List.mem_map.mp (ho id rfl)
    exact List.mem_cons_of_mem _ (List.mem_map_of_mem hbr)

theorem decide_eq_none (o : Option ℕ) [Decidable (o = none)] : decide (o = none) = o.isNone := by
  cases o <;> simp

/-- What the brands and the rows without one add up to. -/
theorem sum_brandClasses {T : Type} {brandId : T → Option ℕ} (h : input.Valid) {rows : List T}
    (hrows : ∀ r ∈ rows, ∀ id, brandId r = some id → id ∈ input.brands.map (·.id)) (v : T → ℚ) :
    (input.brands.map fun br => total (rows.filter fun r => decide (brandId r = some br.id)) v).sum +
      total (rows.filter fun r => (brandId r).isNone) v = total rows v := by
  have hsum := total_values (nodup_brandClasses h) (fun r hr => mem_brandClasses (hrows r hr)) v
  rw [brandClasses, List.map_cons, List.sum_cons, List.map_map, add_comm] at hsum
  simp only [rowsOf, decide_eq_none] at hsum
  exact hsum

/-- Entries that are not shown add nothing. -/
theorem sum_shown (v : BrandEntry → ℚ) (hv : ∀ e, e.shown = false → v e = 0) (entries : List BrandEntry) :
    ((entries.filter (·.shown)).map v).sum = (entries.map v).sum := by
  rw [← sum_map_ite]
  refine congrArg List.sum (List.map_congr_left fun e _ => ?_)
  split
  · rfl
  · next hshown => exact (hv e (by simpa using hshown)).symm

theorem shown_false {e : BrandEntry} (he : e.shown = false) :
    e.social = [] ∧ e.web = [] ∧ e.followerRows = [] := by
  simpa [BrandEntry.shown, and_assoc] using he

/-- What a figure adds up to over the entries that are shown. -/
theorem sum_byBrand_entries (figure : BrandFigures → ℚ) (v : BrandEntry → ℚ)
    (hfigure : ∀ e, figure (brandFigures toLowerCase e) = v e) (hv : ∀ e, e.shown = false → v e = 0) :
    ((buildDigital toLowerCase input).byBrand.map figure).sum =
      (input.brands.map fun br => v (brandEntry input br)).sum +
        if input.legacySocial ≠ [] ∨ input.legacyWeb ≠ [] then v (legacyEntry input) else 0 := by
  have hcomp : figure ∘ brandFigures toLowerCase = v := funext hfigure
  show ((((brandEntries input).filter (·.shown)).map (brandFigures toLowerCase)).map figure).sum = _
  rw [List.map_map, hcomp, sum_shown v hv, brandEntries, List.map_append, List.sum_append, List.map_map]
  refine congrArg₂ _ rfl ?_
  split <;> simp

/-- A figure that is nothing without rows in the range adds up over the brands and the
rows without one. -/
theorem sum_byBrand (figure : BrandFigures → ℚ) (v : BrandEntry → ℚ)
    (hfigure : ∀ e, figure (brandFigures toLowerCase e) = v e)
    (hv : ∀ e : BrandEntry, e.social = [] → e.web = [] → v e = 0) :
    ((buildDigital toLowerCase input).byBrand.map figure).sum =
      (input.brands.map fun br => v (brandEntry input br)).sum + v (legacyEntry input) := by
  rw [sum_byBrand_entries figure v hfigure fun e he => hv e (shown_false he).1 (shown_false he).2.1]
  refine congrArg₂ _ rfl ?_
  split
  · rfl
  · next hnone =>
    simp only [not_or, not_not] at hnone
    exact (hv (legacyEntry input) hnone.1 hnone.2).symm

/-! ## Sums over all -/

/-- The parts make up the whole in each figure. -/
def AddUp (parts : List SAgg) (whole : SAgg) : Prop :=
  (parts.map (·.impressions)).sum = whole.impressions ∧ (parts.map (·.clicks)).sum = whole.clicks ∧
    (parts.map (·.paid)).sum = whole.paid ∧ (parts.map (·.organic)).sum = whole.organic

theorem grouped_getD {T κ : Type} [DecidableEq κ] (key : T → κ) (rows : List T) (k : κ) :
    (grouped key rows k).getD [] = rowsOf key rows k :=
  lookup_groups key rows k id

theorem grouped_eq {T κ : Type} [DecidableEq κ] (key : T → κ) (rows : List T) (k : κ) :
    grouped key rows k = if rowsOf key rows k = [] then none else some (rowsOf key rows k) := by
  unfold grouped
  by_cases hk : k ∈ rows.map key
  · rw [find?_groups hk, if_neg (by rwa [rowsOf_eq_nil, not_not])]
    rfl
  · rw [if_pos (rowsOf_eq_nil.mpr hk), Option.map_eq_none_iff, List.find?_eq_none]
    intro g hg heq
    refine hk (mem_firsts.mp ?_)
    rw [← map_fst_groups, ← of_decide_eq_true heq]
    exact List.mem_map_of_mem hg

/-- The sums of the rows of each of some values are the sums of the rows. -/
theorem addUp_values {κ : Type} [DecidableEq κ] {key : SocialRow → κ} {ks : List κ} (hks : ks.Nodup)
    {rows : List SocialRow} (hrows : ∀ r ∈ rows, key r ∈ ks) :
    AddUp (ks.map fun k => sAgg (rowsOf key rows k)) (sAgg rows) := by
  refine ⟨?_, ?_, ?_, ?_⟩
  all_goals
    rw [List.map_map]
    exact total_values hks hrows _

theorem platforms_addUp (h : input.Valid) :
    AddUp (input.platforms.map (platformAgg input)) (sAgg input.inRange) := by
  have hagg : platformAgg input = fun p => sAgg (rowsOf (·.platform) input.inRange p) :=
    funext fun p => congrArg sAgg (grouped_getD _ _ p)
  rw [hagg]
  exact addUp_values h.platforms fun r hr => h.socialPlatform r (keptSocial_subset (inRange_subset hr))

theorem mem_monthRange {fromMonth toMonth m : ℕ} :
    m ∈ monthRange fromMonth toMonth ↔ fromMonth ≤ m ∧ m ≤ toMonth := by
  unfold monthRange
  rw [List.mem_range'_1]
  omega

theorem inRange_month {r : SocialRow} (hr : r ∈ input.inRange) :
    r.month ∈ monthRange input.fromMonth input.toMonth := by
  have h := (List.mem_filter.mp hr).2
  rw [mem_monthRange]
  simpa using h

/-- A month without rows has no sums, and adds nothing. -/
theorem months_addUp (input : DigitalInput) :
    AddUp ((monthRange input.fromMonth input.toMonth).filterMap (monthAgg input)) (sAgg input.inRange) := by
  have hall := @addUp_values _ _ (·.month) (monthRange input.fromMonth input.toMonth)
    List.nodup_range' _ fun r hr => inRange_month hr
  have hskip : ∀ f : SAgg → ℚ, f (sAgg []) = 0 → ∀ ms : List ℕ,
      ((ms.filterMap (monthAgg input)).map f).sum =
        (ms.map fun m => f (sAgg (rowsOf (·.month) input.inRange m))).sum := by
    intro f hf ms
    induction ms with
    | nil => rfl
    | cons m ms ih =>
      have hm : monthAgg input m = if rowsOf (·.month) input.inRange m = [] then none
          else some (sAgg (rowsOf (·.month) input.inRange m)) := by
        rw [monthAgg, grouped_eq]
        split <;> rfl
      rw [List.map_cons, List.sum_cons, ← ih, List.filterMap_cons, hm]
      by_cases hnil : rowsOf (·.month) input.inRange m = []
      · rw [if_pos hnil, hnil, hf, zero_add]
      · rw [if_neg hnil, List.map_cons, List.sum_cons]
  obtain ⟨himpressions, hclicks, hpaid, horganic⟩ := hall
  rw [List.map_map] at himpressions hclicks hpaid horganic
  exact ⟨(hskip _ rfl _).trans himpressions, (hskip _ rfl _).trans hclicks, (hskip _ rfl _).trans hpaid,
    (hskip _ rfl _).trans horganic⟩

theorem sum_filterMap {T : Type} (g : ℕ → Option T) (f : T → ℚ) (ms : List ℕ) :
    ((ms.filterMap g).map f).sum = (ms.map fun m => ((g m).map f).getD 0).sum := by
  induction ms with
  | nil => rfl
  | cons m ms ih =>
    rw [List.map_cons, List.sum_cons, ← ih, List.filterMap_cons]
    cases g m <;> simp

theorem trendKpi_value (value : Option ℚ) (series : List (Option ℚ)) : (trendKpi value series).value = value := by
  unfold trendKpi
  split <;> rfl

/-- The social figures of the brands. -/
theorem byBrand_social (h : input.Valid) (figure : BrandFigures → ℚ) (v : SocialRow → ℚ)
    (hfigure : ∀ e, figure (brandFigures toLowerCase e) = total e.social v) :
    ((buildDigital toLowerCase input).byBrand.map figure).sum = total input.inRange v := by
  rw [sum_byBrand figure (fun e => total e.social v) hfigure fun e he _ => by rw [he]; rfl]
  exact sum_brandClasses h
    (fun r hr => h.socialBrand r (keptSocial_subset (inRange_subset hr))) v

theorem total_add {T : Type} (rows : List T) (v w : T → ℚ) :
    total rows v + total rows w = total rows fun r => v r + w r :=
  List.sum_map_add.symm

theorem byBrand_visitors (h : input.Valid) :
    ((buildDigital toLowerCase input).byBrand.map fun e => e.visitors.getD 0).sum =
      (wAgg input.keptWeb).visitors := by
  have hfigure : ∀ e, (brandFigures toLowerCase e).visitors.getD 0 = total e.web (·.totalVisitors) := by
    intro e
    simp only [brandFigures]
    split
    · next hnil => rw [hnil]; rfl
    · rfl
  rw [sum_byBrand _ (fun e => total e.web (·.totalVisitors)) hfigure fun e _ he => by rw [he]; rfl]
  exact sum_brandClasses h (fun r hr => h.webBrand r (List.mem_of_mem_filter hr)) _

/-! ## Followers -/

/-- The followers of the latest row of every key. -/
def followersInAll (toLowerCase : String → String) (input : DigitalInput) : ℚ :=
  ((snapshots (·.month) (followerKey toLowerCase) input.keptSocial).map fun e =>
    (e.2.map (·.followers)).getD 0).sum

theorem sumKnown_getD (values : List (Option ℚ)) :
    (sumKnown values).getD 0 = (values.map (·.getD 0)).sum := by
  have hsum : (values.filterMap id).sum = (values.map (·.getD 0)).sum := by
    induction values with
    | nil => rfl
    | cons o values ih =>
      cases o with
      | none => simpa using ih
      | some value => exact congrArg (value + ·) ih
  unfold sumKnown
  split
  · next hnil => rw [← hsum, hnil]; rfl
  · exact hsum

theorem sumKnown_eq_none (values : List (Option ℚ)) : sumKnown values = none ↔ ∀ o ∈ values, o = none := by
  unfold sumKnown
  split
  · next hnil => simpa using hnil
  · next hne => simpa using hne

theorem followers_total (h : input.Valid) :
    (followerFigures toLowerCase input).total.getD 0 = followersInAll toLowerCase input := by
  have hclasses := @sum_snapshots_classes _ _ _ _ _ _ _ (·.month) (followerKey toLowerCase) _ _
    (fun k => k.2.1) _ h.platforms input.keptSocial
    (fun r hr => h.socialPlatform r (keptSocial_subset hr))
    (fun o : Option SocialRow => (o.map (·.followers)).getD 0) rfl
  simp only [followerFigures, sumKnown_getD, List.map_map, Function.comp_def, latestFollowers_getD]
  exact hclasses

/-- The brands have all followers when the rows without one are shown, or none of these
counts. -/
theorem followers_byBrand (h : input.Valid)
    (hshown : (∃ r ∈ input.keptSocial, r.brandId = none) →
      input.legacySocial ≠ [] ∨ input.legacyWeb ≠ []) :
    ((buildDigital toLowerCase input).byBrand.map fun e => e.followers.getD 0).sum =
      followersInAll toLowerCase input := by
  have hclasses := @sum_snapshots_classes _ _ _ _ _ _ _ (·.month) (followerKey toLowerCase) _ _
    Prod.fst _ (nodup_brandClasses h) input.keptSocial
    (fun r hr => mem_brandClasses (h.socialBrand r (keptSocial_subset hr)))
    (fun o : Option SocialRow => (o.map (·.followers)).getD 0) rfl
  rw [brandClasses, List.map_cons, List.sum_cons, List.map_map, add_comm] at hclasses
  have hlegacy : (if input.legacySocial ≠ [] ∨ input.legacyWeb ≠ [] then
      (latestFollowers toLowerCase (legacyEntry input).followerRows).value.getD 0 else 0) =
        (latestFollowers toLowerCase (legacyEntry input).followerRows).value.getD 0 := by
    split
    · rfl
    · next hnone =>
      have hnil : (legacyEntry input).followerRows = [] := by
        rw [legacyEntry, List.filter_eq_nil_iff]
        intro r hr hlegacy
        exact hnone (hshown ⟨r, hr, by simpa using hlegacy⟩)
      rw [hnil]
      rfl
  rw [sum_byBrand_entries _ (fun e => (latestFollowers toLowerCase e.followerRows).value.getD 0)
    (fun _ => rfl) fun e he => by rw [(shown_false he).2.2]; rfl, hlegacy]
  have hrows : (legacyEntry input).followerRows = input.keptSocial.filter fun r =>
      decide ((followerKey toLowerCase r).1 = none) :=
    List.filter_congr fun r _ => (decide_eq_none _).symm
  simp only [latestFollowers_getD, hrows]
  exact hclasses

/-! ## Rows that do not count -/

/-- A page depends on the rows that count alone. -/
theorem buildDigital_congr {social : List SocialRow} {web : List WebRow}
    (hsocial : { input with social, web }.keptSocial = input.keptSocial)
    (hweb : { input with social, web }.keptWeb = input.keptWeb) :
    buildDigital toLowerCase { input with social, web } = buildDigital toLowerCase input := by
  have hrange : { input with social, web }.inRange = input.inRange := by
    rw [DigitalInput.inRange, hsocial]
    rfl
  have hplatform : platformAgg { input with social, web } = platformAgg input := by
    funext p
    rw [platformAgg, hrange]
    rfl
  have hmonth : monthAgg { input with social, web } = monthAgg input := by
    funext m
    rw [monthAgg, hrange]
    rfl
  have hwebMonth : monthWebAgg { input with social, web } = monthWebAgg input := by
    funext m
    rw [monthWebAgg, hweb]
    rfl
  have hbrand : brandEntry { input with social, web } = brandEntry input := by
    funext br
    rw [brandEntry, hrange, hsocial, hweb]
    rfl
  have hengagement : engagementMonth { input with social, web } = engagementMonth input := by
    funext m
    rw [engagementMonth, hmonth]
    rfl
  simp only [buildDigital, followerFigures, socialCard, webCard, brandEntries, legacyEntry,
    DigitalInput.legacySocial, DigitalInput.legacyWeb, hsocial, hweb, hrange, hplatform, hmonth, hwebMonth,
    hbrand, hengagement]
  rfl

/-! ## An older snapshot -/

section Older
variable {xs ys : List SocialRow} {r : SocialRow}

theorem shown_iff {e : BrandEntry} (hsub : ∀ r ∈ e.social, r ∈ e.followerRows) : e.shown = true ↔
    e.web ≠ [] ∨ (latestFollowers toLowerCase e.followerRows).value ≠ none := by
  rw [ne_eq (latestFollowers _ _).value, latestFollowers_value_none]
  simp only [BrandEntry.shown, Bool.or_eq_true, decide_eq_true_eq]
  constructor
  · rintro ((h | h) | h)
    · obtain ⟨r, hr⟩ := List.exists_mem_of_ne_nil _ h
      exact .inr (List.ne_nil_of_mem (hsub r hr))
    · exact .inl h
    · exact .inr h
  · rintro (h | h)
    · exact .inl (.inr h)
    · exact .inr h

/-- Rows without a brand are in the range when the latest of one of their keys is. -/
theorem legacySocial_ne_nil (toLowerCase : String → String)
    (hmonth : ∀ r ∈ input.keptSocial, r.month ≤ input.toMonth) : input.legacySocial ≠ [] ↔
      ∃ k x, snapshotOf toLowerCase input.keptSocial k = some x ∧ k.1 = none ∧ input.fromMonth ≤ x.month := by
  constructor
  · intro h
    obtain ⟨r, hr⟩ := List.exists_mem_of_ne_nil _ h
    obtain ⟨hrange, hlegacy⟩ := List.mem_filter.mp hr
    obtain ⟨hkept, hin⟩ := List.mem_filter.mp hrange
    have hkey := List.mem_map_of_mem (f := followerKey toLowerCase) hkept
    obtain ⟨x, hx⟩ := Option.ne_none_iff_exists'.mp
      ((@mem_keys_iff _ _ _ _ _ (·.month) (followerKey toLowerCase) _ _).mp hkey)
    have hle := (latest_spec hx).1 r (List.mem_filter.mpr ⟨hkept, decide_eq_true rfl⟩)
    simp only [Bool.and_eq_true, decide_eq_true_eq] at hin
    exact ⟨_, x, hx, by simpa [followerKey] using hlegacy, hin.1.trans hle⟩
  · rintro ⟨k, x, hx, hk, hfrom⟩
    obtain ⟨hkept, hkey⟩ := List.mem_filter.mp (latest_mem hx)
    have hbrand : x.brandId = none := by
      rw [← hk, ← of_decide_eq_true hkey]
      rfl
    refine List.ne_nil_of_mem (a := x) (List.mem_filter.mpr ⟨List.mem_filter.mpr ⟨hkept, ?_⟩, ?_⟩)
    · simpa using ⟨hfrom, hmonth x hkept⟩
    · rw [hbrand]
      rfl

/-- What the two pages have to share. -/
structure SameSnapshots (toLowerCase : String → String) (input : DigitalInput) (social : List SocialRow) :
    Prop where
  year : ∀ r ∈ input.keptSocial, r.year = input.year
  month : ∀ r ∈ input.keptSocial, r.month ≤ input.toMonth
  month' : ∀ r ∈ { input with social }.keptSocial, r.month ≤ input.toMonth
  snapshot : ∀ k, snapshotOf toLowerCase input.keptSocial k =
    snapshotOf toLowerCase { input with social }.keptSocial k

variable {social : List SocialRow}

theorem SameSnapshots.followers (h : SameSnapshots toLowerCase input social) :
    followerFigures toLowerCase { input with social } = followerFigures toLowerCase input := by
  have hplatform : ∀ p, latestFollowers toLowerCase
      ({ input with social }.keptSocial.filter fun r => decide (r.platform = p)) =
        latestFollowers toLowerCase (input.keptSocial.filter fun r => decide (r.platform = p)) :=
    fun p => (latestFollowers_class (fun k => k.2.1) p h.year h.snapshot).symm
  simp only [followerFigures, hplatform]

theorem legacy_followerRows (toLowerCase : String → String) (input : DigitalInput) :
    (legacyEntry input).followerRows =
      input.keptSocial.filter fun r => decide ((followerKey toLowerCase r).1 = none) :=
  List.filter_congr fun _ _ => (decide_eq_none _).symm

/-- What a brand and its followers are called by. -/
def namedFollowers (toLowerCase : String → String) (e : BrandEntry) : Option ℕ × String × Option ℚ :=
  (e.brandId, e.brand, (latestFollowers toLowerCase e.followerRows).value)

theorem SameSnapshots.brandEntry_followers (h : SameSnapshots toLowerCase input social) (br : BrandRef) :
    latestFollowers toLowerCase (brandEntry { input with social } br).followerRows =
      latestFollowers toLowerCase (brandEntry input br).followerRows :=
  (latestFollowers_class Prod.fst (some br.id) h.year h.snapshot).symm

theorem SameSnapshots.legacyEntry_followers (h : SameSnapshots toLowerCase input social) :
    latestFollowers toLowerCase (legacyEntry { input with social }).followerRows =
      latestFollowers toLowerCase (legacyEntry input).followerRows := by
  rw [legacy_followerRows toLowerCase, legacy_followerRows toLowerCase]
  exact (latestFollowers_class Prod.fst none h.year h.snapshot).symm

theorem brandEntry_social (input : DigitalInput) (br : BrandRef) :
    ∀ r ∈ (brandEntry input br).social, r ∈ (brandEntry input br).followerRows := by
  intro r hr
  obtain ⟨hrange, hbrand⟩ := List.mem_filter.mp hr
  exact List.mem_filter.mpr ⟨inRange_subset hrange, hbrand⟩

theorem legacyEntry_social (input : DigitalInput) :
    ∀ r ∈ (legacyEntry input).social, r ∈ (legacyEntry input).followerRows := by
  intro r hr
  obtain ⟨hrange, hbrand⟩ := List.mem_filter.mp hr
  exact List.mem_filter.mpr ⟨inRange_subset hrange, hbrand⟩

/-- The rows without a brand that the range has, on both pages or on neither. -/
theorem SameSnapshots.legacy_iff (h : SameSnapshots toLowerCase input social) :
    ({ input with social }.legacySocial ≠ [] ∨ { input with social }.legacyWeb ≠ []) ↔
      (input.legacySocial ≠ [] ∨ input.legacyWeb ≠ []) := by
  have hsocial : { input with social }.legacySocial ≠ [] ↔ input.legacySocial ≠ [] := by
    rw [legacySocial_ne_nil toLowerCase h.month, legacySocial_ne_nil toLowerCase h.month']
    simp only [h.snapshot]
  exact or_congr hsocial Iff.rfl

theorem SameSnapshots.byBrand (h : SameSnapshots toLowerCase input social) :
    (buildDigital toLowerCase { input with social }).byBrand.map
        (fun e => (e.brandId, e.brand, e.followers)) =
      (buildDigital toLowerCase input).byBrand.map fun e => (e.brandId, e.brand, e.followers) := by
  have hbyBrand : ∀ input : DigitalInput, (buildDigital toLowerCase input).byBrand.map
      (fun e => (e.brandId, e.brand, e.followers)) =
        ((brandEntries input).filter (·.shown)).map (namedFollowers toLowerCase) := by
    intro input
    show (((brandEntries input).filter (·.shown)).map (brandFigures toLowerCase)).map _ = _
    rw [List.map_map]
    rfl
  have hshown : ∀ br, (brandEntry { input with social } br).shown = (brandEntry input br).shown := by
    intro br
    rw [Bool.eq_iff_iff, @shown_iff toLowerCase _ (brandEntry_social _ br),
      @shown_iff toLowerCase _ (brandEntry_social _ br), h.brandEntry_followers br]
    rfl
  have hlegacy : (legacyEntry { input with social }).shown = (legacyEntry input).shown := by
    rw [Bool.eq_iff_iff, @shown_iff toLowerCase _ (legacyEntry_social _),
      @shown_iff toLowerCase _ (legacyEntry_social _), h.legacyEntry_followers]
    rfl
  have hnamed : namedFollowers toLowerCase (legacyEntry { input with social }) =
      namedFollowers toLowerCase (legacyEntry input) := by
    unfold namedFollowers
    rw [h.legacyEntry_followers]
    rfl
  rw [hbyBrand, hbyBrand, brandEntries, brandEntries, List.filter_append, List.filter_append,
    List.map_append, List.map_append]
  refine congrArg₂ _ ?_ ?_
  · rw [List.filter_map, List.filter_map, List.map_map, List.map_map]
    have hfilter : (fun br => (brandEntry { input with social } br).shown) =
        fun br => (brandEntry input br).shown := funext hshown
    simp only [Function.comp_def, hfilter]
    refine List.map_congr_left fun br _ => ?_
    unfold namedFollowers
    rw [h.brandEntry_followers br]
    rfl
  · simp only [h.legacy_iff]
    split
    · simp only [List.filter_singleton, hlegacy]
      cases (legacyEntry input).shown with
      | true => exact congrArg (fun x => [x]) hnamed
      | false => rfl
    · rfl

/-- An outdated row of the year, which supersedes nothing that is not outdated. -/
theorem sameSnapshots_insert (h : input.Valid) (hsocial : input.social = xs ++ ys)
    (hold : Outdated toLowerCase input r) (hdrop : SupersedesOutdated toLowerCase input r) :
    SameSnapshots toLowerCase input (xs ++ r :: ys) where
  year := fun s hs => h.socialYear s (keptSocial_subset hs)
  month := fun s hs => (h.socialMonth s (keptSocial_subset hs)).2
  month' := by
    intro s hs
    have hin : s ∈ xs ++ r :: ys := keptSocial_subset hs
    have hcases : s = r ∨ s ∈ input.social := by
      rw [hsocial]
      simp only [List.mem_append, List.mem_cons] at hin ⊢
      tauto
    rcases hcases with rfl | hs
    · obtain ⟨later, hlater, -, hlt⟩ := hold
      exact hlt.le.trans (h.socialMonth later (keptSocial_subset hlater)).2
    · exact (h.socialMonth s hs).2
  snapshot := fun k => (snapshotOf_insert hsocial hold hdrop k).symm

end Older

/-! ## The page -/

/-- What the figures of a page have to agree on. -/
structure Reconciles (toLowerCase : String → String) (input : DigitalInput) : Prop where
  cards : (buildDigital toLowerCase input).ctr.overall.value = (sAgg input.inRange).ctr ∧
    (buildDigital toLowerCase input).engagementRate.overall.value = (sAgg input.inRange).engagementRate
  impressions : ((buildDigital toLowerCase input).byBrand.map (·.impressions)).sum =
    (sAgg input.inRange).impressions
  clicks : ((buildDigital toLowerCase input).byBrand.map (·.clicks)).sum = (sAgg input.inRange).clicks
  engagement : ((buildDigital toLowerCase input).byBrand.map (·.engagement)).sum =
    (sAgg input.inRange).engagement
  byPlatform : AddUp (input.platforms.map (platformAgg input)) (sAgg input.inRange)
  byMonth : AddUp ((monthRange input.fromMonth input.toMonth).filterMap (monthAgg input)) (sAgg input.inRange)
  engagementMonthly :
    ((buildDigital toLowerCase input).engagementMonthly.map fun m => m.paid.getD 0 + m.organic.getD 0).sum =
      (sAgg input.inRange).engagement
  visitors : ((buildDigital toLowerCase input).byBrand.map fun e => e.visitors.getD 0).sum =
    (wAgg input.keptWeb).visitors
  followersByPlatform : (buildDigital toLowerCase input).followers.total.getD 0 =
    ((buildDigital toLowerCase input).followers.platforms.map fun f => f.value.getD 0).sum
  followersMissing : (buildDigital toLowerCase input).followers.total = none ↔
    ∀ f ∈ (buildDigital toLowerCase input).followers.platforms, f.value = none
  followersByBrand : ((∃ r ∈ input.keptSocial, r.brandId = none) →
      input.legacySocial ≠ [] ∨ input.legacyWeb ≠ []) →
    (buildDigital toLowerCase input).followers.total.getD 0 =
      ((buildDigital toLowerCase input).byBrand.map fun e => e.followers.getD 0).sum
  counted : buildDigital toLowerCase { input with social := input.keptSocial, web := input.keptWeb } =
    buildDigital toLowerCase input
  oneKind : ∀ a ∈ input.keptSocial, ∀ b ∈ input.keptSocial, a.cell = b.cell →
    a.brandId.isSome = b.brandId.isSome
  oneKindWeb : ∀ a ∈ input.keptWeb, ∀ b ∈ input.keptWeb, a.cell = b.cell →
    a.brandId.isSome = b.brandId.isSome
  olderSnapshot : ∀ xs ys r, input.social = xs ++ ys → Outdated toLowerCase input r →
    SupersedesOutdated toLowerCase input r →
    (buildDigital toLowerCase { input with social := xs ++ r :: ys }).followers =
        (buildDigital toLowerCase input).followers ∧
      (buildDigital toLowerCase { input with social := xs ++ r :: ys }).byBrand.map
          (fun e => (e.brandId, e.brand, e.followers)) =
        (buildDigital toLowerCase input).byBrand.map fun e => (e.brandId, e.brand, e.followers)

theorem engagementMonthly_sum (toLowerCase : String → String) (input : DigitalInput) :
    ((buildDigital toLowerCase input).engagementMonthly.map fun m => m.paid.getD 0 + m.organic.getD 0).sum =
      (sAgg input.inRange).engagement := by
  obtain ⟨-, -, hpaid, horganic⟩ := months_addUp input
  rw [sum_filterMap] at hpaid horganic
  show (((monthRange input.fromMonth input.toMonth).map (engagementMonth input)).map _).sum = _
  rw [List.map_map, SAgg.engagement, ← hpaid, ← horganic, ← List.sum_map_add]
  rfl

/-- **The Digital page agrees with itself.** -/
theorem digital_reconciles (toLowerCase : String → String) (input : DigitalInput) (h : input.Valid) :
    Reconciles toLowerCase input := by
  have hengagement : ∀ rows : List SocialRow,
      (sAgg rows).engagement = total rows fun r => r.paid + r.organic := fun rows => total_add rows _ _
  constructor
  · exact ⟨trendKpi_value _ _, trendKpi_value _ _⟩
  · exact byBrand_social h _ _ fun _ => rfl
  · exact byBrand_social h _ _ fun _ => rfl
  · rw [hengagement]
    exact byBrand_social h _ _ fun e => hengagement e.social
  · exact platforms_addUp h
  · exact months_addUp input
  · exact engagementMonthly_sum toLowerCase input
  · exact byBrand_visitors h
  · show (sumKnown _).getD 0 = _
    rw [sumKnown_getD]
    simp only [buildDigital, followerFigures, List.map_map, Function.comp_def]
  · show sumKnown _ = none ↔ _
    rw [sumKnown_eq_none]
    simp [buildDigital, followerFigures]
  · intro hshown
    rw [followers_byBrand h hshown]
    exact followers_total h
  · exact buildDigital_congr dropSupersededLegacy_self dropSupersededLegacy_self
  · exact fun a ha b hb hcell => same_cell_same_kind ha hb hcell
  · exact fun a ha b hb hcell => same_cell_same_kind ha hb hcell
  · intro xs ys r hsocial hold hdrop
    have hsame := sameSnapshots_insert h hsocial hold hdrop
    exact ⟨hsame.followers, hsame.byBrand⟩

/-! ## A month entered again -/

def pageBrand : BrandRef := ⟨1, "Tika", none, none, .brand⟩

/-- A row of Facebook, of the account `a`. -/
def facebookRow (month : ℕ) (brandId : Option ℕ) (followers : ℚ) : SocialRow :=
  ⟨2026, month, .facebook, brandId, some "a", followers, 10, 2, 1, 1⟩

def facebookPage (social : List SocialRow) : DigitalInput :=
  ⟨2026, 1, 5, social, [], [.facebook], [pageBrand]⟩

theorem valid_facebookPage {social : List SocialRow}
    (h : ∀ r ∈ social, ∃ m ∈ [3, 5], ∃ id ∈ [none, some 1], ∃ f, r = facebookRow m id f) :
    (facebookPage social).Valid := by
  constructor
  · intro r hr
    obtain ⟨m, -, id, -, f, rfl⟩ := h r hr
    rfl
  · intro r hr
    obtain ⟨m, hm, id, -, f, rfl⟩ := h r hr
    simp only [facebookPage, facebookRow]
    simp only [List.mem_cons, List.not_mem_nil, or_false] at hm
    omega
  · exact fun r hr => absurd hr List.not_mem_nil
  · exact fun r hr => absurd hr List.not_mem_nil
  · exact List.nodup_singleton _
  · exact List.nodup_singleton _
  · intro r hr id' hid'
    obtain ⟨m, -, id, hid, f, rfl⟩ := h r hr
    have hone : id = some id' := hid'
    rw [hone] at hid
    simpa [facebookPage, pageBrand] using hid
  · exact fun r hr => absurd hr List.not_mem_nil
  · intro r hr
    obtain ⟨m, -, id, -, f, rfl⟩ := h r hr
    exact List.mem_singleton_self _

/-- March without a brand, May with one. -/
def marchWithoutBrand : List SocialRow := [facebookRow 3 none 100, facebookRow 5 (some 1) 50]

theorem valid_march : (facebookPage marchWithoutBrand).Valid := by
  refine valid_facebookPage fun r hr => ?_
  rcases List.mem_cons.mp hr with rfl | hr
  · exact ⟨3, by simp, none, by simp, 100, rfl⟩
  · rw [List.mem_singleton.mp hr]
    exact ⟨5, by simp, some 1, by simp, 50, rfl⟩

/-- The brand's March, older than its May, takes the followers of the row without a brand
off the total. -/
theorem older_snapshot_supersedes :
    (facebookPage marchWithoutBrand).Valid ∧
      (facebookPage (marchWithoutBrand ++ [facebookRow 3 (some 1) 40])).Valid ∧
      Outdated id (facebookPage marchWithoutBrand) (facebookRow 3 (some 1) 40) ∧
      (buildDigital id (facebookPage marchWithoutBrand)).followers.total = some 150 ∧
      (buildDigital id (facebookPage (marchWithoutBrand ++ [facebookRow 3 (some 1) 40]))).followers.total =
        some 50 := by
  refine ⟨valid_march, ?_, ?_, by decide +kernel, by decide +kernel⟩
  · refine valid_facebookPage fun r hr => ?_
    rcases List.mem_append.mp hr with hr | hr
    · rcases List.mem_cons.mp hr with rfl | hr
      · exact ⟨3, by simp, none, by simp, 100, rfl⟩
      · rw [List.mem_singleton.mp hr]
        exact ⟨5, by simp, some 1, by simp, 50, rfl⟩
    · rw [List.mem_singleton.mp hr]
      exact ⟨3, by simp, some 1, by simp, 40, rfl⟩
  · exact ⟨facebookRow 5 (some 1) 50, by decide +kernel, rfl, by decide⟩

theorem digital_reconciles_march : Reconciles id (facebookPage marchWithoutBrand) :=
  digital_reconciles id (facebookPage marchWithoutBrand) valid_march

end SalesDashboard.MarcomKpi
