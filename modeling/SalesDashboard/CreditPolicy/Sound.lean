import SalesDashboard.CreditPolicy.Zones

/-! What an accepted credit policy guarantees for every number of days overdue. -/

namespace SalesDashboard.CreditPolicy
open Ranges Doubles

variable {zones : List CreditPolicyZone}

/-! ## What the validation says -/

theorem checkAreas_cons {zone : CreditPolicyZone} {a : CreditPolicyActionArea}
    {rest : List CreditPolicyActionArea} {expected : ℚ} (h : checkAreas zone expected (a :: rest) = .ok ()) :
    a.minDays = expected ∧ a.range.Proper ∧ (rest = [] → a.maxDays = zone.maxDays) ∧
      (rest ≠ [] → ∃ hi, a.maxDays = some hi) ∧ checkAreas zone (dayAfter (a.maxDays.getD 0)) rest = .ok () := by
  unfold checkAreas at h
  split at h
  · cases h
  · next hgap =>
    simp only [ne_eq, Bool.or_eq_true, decide_eq_true_eq, not_or, not_not, Bool.not_eq_true] at hgap
    split at h
    · cases h
    · next hcover =>
      refine ⟨hgap.1, ?_, ?_, ?_, h⟩
      · rintro lo hlo hi hhi
        obtain rfl := Option.some.inj hlo
        simpa [show a.maxDays = some hi from hhi] using hgap.2
      · rintro rfl
        simpa [uncovered] using hcover
      · intro hrest
        refine Option.ne_none_iff_exists'.mp ?_
        simpa [uncovered, hrest] using hcover

theorem checkAreas_ok {zone : CreditPolicyZone} {a : CreditPolicyActionArea}
    {rest : List CreditPolicyActionArea} {expected : ℚ} (h : checkAreas zone expected (a :: rest) = .ok ()) :
    a.minDays = expected ∧ ((a :: rest).getLast (List.cons_ne_nil _ _)).maxDays = zone.maxDays ∧
      ((a :: rest).map CreditPolicyActionArea.range).IsChain (Follows dayAfter) ∧
      ∀ a' ∈ a :: rest, a'.range.Proper := by
  induction rest generalizing a expected with
  | nil =>
    obtain ⟨hmin, hproper, hlast, -, -⟩ := checkAreas_cons h
    exact ⟨hmin, hlast rfl, .singleton _, by simpa using hproper⟩
  | cons b rest ih =>
    obtain ⟨hmin, hproper, -, hnext, hrest⟩ := checkAreas_cons h
    obtain ⟨hi, hhi⟩ := hnext (List.cons_ne_nil _ _)
    obtain ⟨hb, hlast, hchain, hpropers⟩ := ih hrest
    refine ⟨hmin, hlast, .cons_cons ⟨hi, hhi, ?_⟩ hchain, List.forall_mem_cons.mpr ⟨hproper, hpropers⟩⟩
    rw [hhi] at hb
    exact congrArg some hb

/-- The zones follow one another from the first one, and their areas do. -/
structure Accepted (first : CreditPolicyZone) (rest : List CreditPolicyZone) : Prop where
  chain : ((first :: rest).map CreditPolicyZone.range).IsChain (Follows dayAfter)
  proper : ∀ z ∈ first :: rest, z.range.Proper
  last : ((first :: rest).getLast (List.cons_ne_nil _ _)).maxDays = none
  areas : ∀ z ∈ first :: rest, ∀ areas, z.actionAreas = some areas →
    checkAreas z z.minDays areas = .ok ()

theorem checkZones_cons {previous : Option CreditPolicyZone} {z : CreditPolicyZone}
    {rest : List CreditPolicyZone} (h : checkZones previous (z :: rest) = .ok ()) :
    (rest.isEmpty = z.maxDays.isNone) ∧ z.range.Proper ∧
      (∀ p, previous = some p → z.minDays = dayAfter (p.maxDays.getD 0)) ∧
      (∀ areas, z.actionAreas = some areas → checkAreas z z.minDays areas = .ok ()) ∧
      checkZones (some z) rest = .ok () := by
  unfold checkZones at h
  split_ifs at h with hlast hends hgap
  split at h
  · cases h
  · next hareas =>
    refine ⟨not_not.mp hlast, ?_, ?_, ?_, h⟩
    · rintro lo hlo hi hhi
      obtain rfl := Option.some.inj hlo
      simpa [show z.maxDays = some hi from hhi] using hends
    · rintro p rfl
      simpa using hgap
    · intro areas heq
      rw [heq] at hareas
      exact hareas

theorem checkZones_ok {previous : Option CreditPolicyZone} {first : CreditPolicyZone}
    {rest : List CreditPolicyZone} (h : checkZones previous (first :: rest) = .ok ()) :
    Accepted first rest := by
  induction rest generalizing previous first with
  | nil =>
    obtain ⟨hlast, hproper, -, hareas, -⟩ := checkZones_cons h
    refine ⟨.singleton _, by simpa using hproper, ?_, by simpa using hareas⟩
    exact Option.isNone_iff_eq_none.mp hlast.symm
  | cons s rest ih =>
    obtain ⟨hlast, hproper, -, hareas, hrest⟩ := checkZones_cons h
    obtain ⟨-, -, hlink, -, -⟩ := checkZones_cons hrest
    have hsub := ih hrest
    obtain ⟨hi, hhi⟩ : ∃ hi, first.maxDays = some hi := by
      refine Option.ne_none_iff_exists'.mp fun hnone => ?_
      rw [hnone] at hlast
      cases hlast
    refine ⟨.cons_cons ⟨hi, hhi, ?_⟩ hsub.chain, ?_, hsub.last, ?_⟩
    · have hmin := hlink first rfl
      rw [hhi] at hmin
      exact congrArg some hmin
    · exact List.forall_mem_cons.mpr ⟨hproper, hsub.proper⟩
    · exact List.forall_mem_cons.mpr ⟨hareas, hsub.areas⟩

theorem validateCreditPolicy_ok (h : validateCreditPolicy zones = .ok ()) :
    ∃ first rest, zones = first :: rest ∧ first.minDays = 0 ∧ Accepted first rest := by
  unfold validateCreditPolicy at h
  split_ifs at h with hstart
  rw [not_not] at hstart
  cases zones with
  | nil => cases hstart
  | cons first rest => exact ⟨first, rest, rfl, Option.some.inj hstart, checkZones_ok h⟩

/-! ## Soundness -/

/-- `days` later is the first day in another zone, `next`. -/
structure FirstDayIn (zones : List CreditPolicyZone) (d days : ℕ) (next : CreditPolicyZone) : Prop where
  pos : 1 ≤ days
  there : creditZoneForDays (d + days : ℕ) zones = some next
  other : creditZoneForDays d zones ≠ some next
  before : ∀ j < days, creditZoneForDays (d + j : ℕ) zones = creditZoneForDays d zones

/-- Every number of days has one zone, one action area of it where it has areas, and a next
zone unless it is in the last one. -/
structure Sound (zones : List CreditPolicyZone) : Prop where
  zone : ∀ d : ℕ, ∃ z, zones.filter (·.has (d : ℚ)) = [z] ∧ creditZoneForDays d zones = some z
  area : ∀ d : ℕ, ∀ z ∈ zones, z.has (d : ℚ) = true → ∀ areas, z.actionAreas = some areas →
    (areas.filter (·.has (d : ℚ))).length = 1
  last : ∀ d : ℕ, ∀ z, creditZoneForDays d zones = some z →
    (nextCreditZone d zones = none ↔ zones.getLast? = some z)
  next : ∀ d : ℕ, ∀ n, nextCreditZone d zones = some n →
    ∃ days : ℕ, n.inDays = days ∧ FirstDayIn zones d days n.zone
  approaching : ∀ d : ℕ, approachingNextZone d zones = true ↔
    ∃ days next, FirstDayIn zones d days next ∧ days ≤ ESCALATION_WINDOW_DAYS

/-- The day after `hi`, as the source adds it, is the whole number after it. -/
def WholeNext (hi : ℚ) : Prop := dayAfter hi = ⌊hi⌋ + 1

/-- The zones and the action areas end where the next day is the next whole number, and no
list of areas is empty. -/
structure WholeDays (zones : List CreditPolicyZone) : Prop where
  zoneEnds : ∀ z ∈ zones, ∀ hi, z.maxDays = some hi → WholeNext hi
  areaEnds : ∀ z ∈ zones, ∀ areas, z.actionAreas = some areas →
    areas ≠ [] ∧ ∀ a ∈ areas, ∀ hi, a.maxDays = some hi → WholeNext hi

/-- The zones and the action areas end below 2 ^ 53. -/
structure Below (zones : List CreditPolicyZone) : Prop where
  zoneEnds : ∀ z ∈ zones, ∀ hi, z.maxDays = some hi → hi < 2 ^ 53
  areaEnds : ∀ z ∈ zones, ∀ areas, z.actionAreas = some areas →
    ∀ a ∈ areas, ∀ hi, a.maxDays = some hi → hi < 2 ^ 53

/-! ## The day after -/

/-- The day after a number of days below 2 ^ 53 is no smaller than the whole number after it. -/
theorem floor_lt_dayAfter {hi : ℚ} (hpos : 0 ≤ hi) (hbelow : hi < 2 ^ 53) : (⌊hi⌋ + 1 : ℚ) ≤ dayAfter hi := by
  obtain ⟨n, hn⟩ := Int.eq_ofNat_of_zero_le (Int.floor_nonneg.mpr hpos)
  have hle : n + 1 ≤ 2 ^ 53 := by
    have hfloor : ⌊hi⌋ < 2 ^ 53 := Int.floor_lt.mpr (by exact_mod_cast hbelow)
    omega
  have hsum : ((n + 1 : ℕ) : ℚ) ≤ hi + 1 := by
    have hself := Int.floor_le hi
    rw [hn] at hself
    push_cast at hself ⊢
    linarith
  have hdouble := natCast_le_toDouble hle hsum
  rw [hn]
  push_cast at hdouble ⊢
  exact hdouble

theorem lt_dayAfter {hi : ℚ} (hpos : 0 ≤ hi) (hbelow : hi < 2 ^ 53) : hi < dayAfter hi :=
  (Int.lt_floor_add_one hi).trans_le (floor_lt_dayAfter hpos hbelow)

theorem dayAfter_nonneg (m : ℚ) (h : 0 ≤ m) : 0 ≤ dayAfter m := by
  have hzero := natCast_le_toDouble (n := 0) (by norm_num) (x := m + 1) (by push_cast; linarith)
  exact_mod_cast hzero

theorem rises_of_wholeNext {r : Range ℚ} (h : ∀ hi, r.hi = some hi → WholeNext hi) : r.Rises dayAfter := by
  intro hi hhi
  rw [h hi hhi]
  exact Int.lt_floor_add_one hi

/-- Whole numbers of days below 2 ^ 53 are what the source is written for. -/
theorem wholeNext_of_whole {n : ℕ} (h : n < 2 ^ 53) : WholeNext n := by
  have hsum := toDouble_natCast (n := n + 1) h
  rw [WholeNext, dayAfter, Int.floor_natCast]
  push_cast at hsum ⊢
  exact hsum

theorem FirstDayIn.unique {d days days' : ℕ} {next next' : CreditPolicyZone}
    (h : FirstDayIn zones d days next) (h' : FirstDayIn zones d days' next') : days = days' := by
  rcases lt_trichotomy days days' with hlt | heq | hlt
  · exact absurd ((h'.before days hlt).symm.trans h.there) h.other
  · exact heq
  · exact absurd ((h.before days' hlt).symm.trans h'.there) h'.other

/-! ## The zone of a number of days -/

section
variable {first : CreditPolicyZone} {rest : List CreditPolicyZone} (h : Accepted first rest)
include h

theorem Accepted.has_minDays {z : CreditPolicyZone} (hz : z ∈ first :: rest) : z.has z.minDays = true :=
  Range.has_iff.mpr ⟨fun _ hm => (Option.some.inj hm).ge, fun _ hm => h.proper z hz _ rfl _ hm⟩

theorem Accepted.minDays_nonneg (hstart : first.minDays = 0) {z : CreditPolicyZone}
    (hz : z ∈ first :: rest) : 0 ≤ z.minDays :=
  le_lo h.chain (List.forall_mem_map.mpr h.proper) (fun _ _ m _ => dayAfter_nonneg m) rfl hstart.ge z.range
    (List.mem_map_of_mem hz) z.minDays rfl

/-- The zones start at whole numbers of days where they end so. -/
theorem Accepted.exists_minDays (hstart : first.minDays = 0)
    (hw : ∀ z ∈ first :: rest, ∀ hi, z.maxDays = some hi → WholeNext hi) {z : CreditPolicyZone}
    (hz : z ∈ first :: rest) : ∃ d : ℕ, z.minDays = d := by
  rcases lo_cases h.chain z.range (List.mem_map_of_mem hz) with hfirst | ⟨r, hr, hi, hhi, hlo⟩
  · have hmin := congrArg Range.lo hfirst
    exact ⟨0, by simpa [hstart] using Option.some.inj hmin⟩
  · rw [← List.map_cons] at hr
    obtain ⟨y, hy, rfl⟩ := List.mem_map.mp hr
    obtain ⟨n, hn⟩ := Int.eq_ofNat_of_zero_le (Int.floor_nonneg.mpr
      ((h.minDays_nonneg hstart hy).trans (h.proper y hy _ rfl hi hhi)))
    refine ⟨n + 1, ?_⟩
    rw [Option.some.inj hlo, hw y hy hi hhi, hn]
    push_cast
    rfl

theorem Accepted.maxDays_nonneg (hstart : first.minDays = 0) {z : CreditPolicyZone} (hz : z ∈ first :: rest)
    {hi : ℚ} (hhi : z.maxDays = some hi) : 0 ≤ hi :=
  (h.minDays_nonneg hstart hz).trans (h.proper z hz _ rfl hi hhi)

section
variable (hrises : ∀ z ∈ first :: rest, z.range.Rises dayAfter)
include hrises

theorem Accepted.pairwise : (first :: rest).Pairwise fun a b =>
    ∀ x y : ℚ, a.has x = true → b.has y = true → x < y := by
  have hbefore := pairwise_before (List.forall_mem_map.mpr hrises) h.chain
    (List.forall_mem_map.mpr fun z hz => (h.proper z hz).upright (hrises z hz))
  rw [List.pairwise_map] at hbefore
  exact hbefore

theorem Accepted.nodup : (first :: rest).Nodup := by
  refine (h.pairwise hrises).imp_of_mem fun {a b} ha _ hab heq => ?_
  subst heq
  exact lt_irrefl _ (hab _ _ (h.has_minDays ha) (h.has_minDays ha))

end

theorem Accepted.once (hw : ∀ z ∈ first :: rest, ∀ hi, z.maxDays = some hi → WholeNext hi)
    (hstart : first.minDays = 0) (d : ℕ) : ((first :: rest).filter (·.has (d : ℚ))).length = 1 := by
  refine once_of_whole_map (d := d) h.chain h.proper hw (fun m hm => ?_) fun m hm => ?_
  · rw [← Option.some.inj hm, hstart]
    positivity
  · cases h.last.symm.trans hm

variable (hw : ∀ z ∈ first :: rest, ∀ hi, z.maxDays = some hi → WholeNext hi) (hstart : first.minDays = 0)
include hw hstart

theorem Accepted.creditZone_iff {d : ℕ} {z : CreditPolicyZone} :
    creditZoneForDays d (first :: rest) = some z ↔ z ∈ first :: rest ∧ z.has (d : ℚ) = true := by
  have honce := h.once hw hstart d
  have hfind : ∀ y ∈ first :: rest, y.has (d : ℚ) = true → creditZoneForDays d (first :: rest) = some y := by
    intro y hy hhas
    unfold creditZoneForDays
    rw [if_neg (not_lt.mpr (Nat.cast_nonneg d)), find?_of_once honce hy hhas]
    rfl
  constructor
  · intro hz
    obtain ⟨y, hy⟩ := List.length_eq_one_iff.mp honce
    obtain ⟨hmem, hhas⟩ := List.mem_filter.mp (hy ▸ List.mem_singleton_self y)
    rw [hfind y hmem hhas] at hz
    cases hz
    exact ⟨hmem, hhas⟩
  · exact fun hz => hfind z hz.1 hz.2

/-- The zone after the one of a number of days. -/
theorem Accepted.nextCreditZone_of_split {d : ℕ} {z : CreditPolicyZone} {pre post : List CreditPolicyZone}
    (hsplit : first :: rest = pre ++ z :: post) (hz : z.has (d : ℚ) = true) :
    nextCreditZone d (first :: rest) = post.head?.bind fun next =>
      z.maxDays.map fun hi => ⟨next, toDouble (dayAfter hi - d)⟩ := by
  have hnodup := h.nodup fun y hy => rises_of_wholeNext (hw y hy)
  have hmem : z ∈ first :: rest := by simp [hsplit]
  rw [hsplit, List.nodup_append] at hnodup
  have hidx : (first :: rest).idxOf z = pre.length := by
    rw [hsplit, List.idxOf_append_of_notMem fun hin => hnodup.2.2 z hin z List.mem_cons_self rfl]
    simp
  unfold nextCreditZone
  rw [(h.creditZone_iff hw hstart).mpr ⟨hmem, hz⟩, Option.bind_some, hidx]
  have hnext : (first :: rest)[pre.length + 1]? = post.head? := by
    rw [hsplit, List.getElem?_append_right (by omega), Nat.add_sub_cancel_left, List.getElem?_cons_succ,
      List.head?_eq_getElem?]
  rw [hnext]
  cases post.head? <;> cases z.maxDays <;> rfl

section
variable (hbelow : ∀ z ∈ first :: rest, ∀ hi, z.maxDays = some hi → hi < 2 ^ 53)
include hbelow

/-- A zone with one after it ends before the day on which that one starts. -/
theorem Accepted.firstDayIn {d : ℕ} {z next : CreditPolicyZone} {pre post : List CreditPolicyZone}
    (hsplit : first :: rest = pre ++ z :: next :: post) (hz : z.has (d : ℚ) = true) :
    ∃ days : ℕ, (∃ hi, z.maxDays = some hi ∧ toDouble (dayAfter hi - d) = days) ∧
      FirstDayIn (first :: rest) d days next := by
  have hmem : z ∈ first :: rest := by simp [hsplit]
  have hnext : next ∈ first :: rest := by simp [hsplit]
  have hchain := h.chain
  rw [hsplit, List.map_append] at hchain
  obtain ⟨-, hlink, -⟩ := List.isChain_append.mp hchain
  obtain ⟨⟨hi, hhi, hlo⟩, -⟩ := List.isChain_cons_cons.mp hlink
  have hle : (d : ℤ) ≤ ⌊hi⌋ := Int.le_floor.mpr (by exact_mod_cast (Range.has_iff.mp hz).2 _ hhi)
  obtain ⟨days, hdays⟩ : ∃ days : ℕ, ⌊hi⌋ + 1 = d + days := ⟨(⌊hi⌋ + 1 - d).toNat, by omega⟩
  have hafter : dayAfter hi = (d + days : ℕ) := by
    rw [hw z hmem hi hhi]
    exact_mod_cast hdays
  have hfew : days ≤ 2 ^ 53 := by
    have hfloor : ⌊hi⌋ < 2 ^ 53 := Int.floor_lt.mpr (by exact_mod_cast hbelow z hmem hi hhi)
    omega
  have hin : toDouble (dayAfter hi - d) = days := by
    rw [hafter, Nat.cast_add, add_sub_cancel_left, toDouble_natCast hfew]
  have hstarts : next.minDays = (d + days : ℕ) := hafter ▸ Option.some.inj hlo
  have hzone := fun (k : ℕ) (y : CreditPolicyZone) => h.creditZone_iff hw hstart (d := k) (z := y)
  have hhas : next.has ((d + days : ℕ) : ℚ) = true := hstarts ▸ h.has_minDays hnext
  refine ⟨days, ⟨hi, hhi, hin⟩, by omega, (hzone _ _).mpr ⟨hnext, hhas⟩, ?_, fun j hj => ?_⟩
  · intro hsame
    have hdhas := ((hzone _ _).mp hsame).2
    have hge := (Range.has_iff.mp hdhas).1 _ rfl
    rw [hstarts] at hge
    have : d + days ≤ d := by exact_mod_cast hge
    omega
  · rw [(hzone _ _).mpr ⟨hmem, hz⟩, hzone]
    refine ⟨hmem, Range.has_iff.mpr ⟨fun m hm => ?_, fun m hm => ?_⟩⟩
    · refine ((Range.has_iff.mp hz).1 m hm).trans ?_
      exact_mod_cast Nat.le_add_right d j
    · rw [hhi] at hm
      rw [← Option.some.inj hm]
      exact_mod_cast Int.le_floor.mp (show ((d + j : ℕ) : ℤ) ≤ ⌊hi⌋ by omega)

/-- A number of days is in the last zone, or another zone comes after its own. -/
theorem Accepted.zone_cases {d : ℕ} {z : CreditPolicyZone}
    (hz : creditZoneForDays d (first :: rest) = some z) :
    ((first :: rest).getLast? = some z ∧ nextCreditZone d (first :: rest) = none) ∨
    (first :: rest).getLast? ≠ some z ∧ ∃ days : ℕ, ∃ next,
      nextCreditZone d (first :: rest) = some ⟨next, days⟩ ∧ FirstDayIn (first :: rest) d days next := by
  obtain ⟨hmem, hhas⟩ := (h.creditZone_iff hw hstart).mp hz
  obtain ⟨pre, post, hsplit⟩ := List.append_of_mem hmem
  have hnextZone := h.nextCreditZone_of_split hw hstart hsplit hhas
  cases post with
  | nil => exact .inl ⟨by simp [hsplit], hnextZone⟩
  | cons next post =>
    refine .inr ⟨?_, ?_⟩
    · intro hlast
      have hnodup := h.nodup fun y hy => rises_of_wholeNext (hw y hy)
      rw [hsplit, List.nodup_append, List.nodup_cons] at hnodup
      rw [hsplit, List.getLast?_append_of_ne_nil _ (List.cons_ne_nil _ _), List.getLast?_cons_cons] at hlast
      exact hnodup.2.1.1 (List.mem_of_getLast? hlast)
    · obtain ⟨days, ⟨hi, hhi, hin⟩, hfirst⟩ := h.firstDayIn hw hstart hbelow hsplit hhas
      refine ⟨days, next, ?_, hfirst⟩
      rw [hnextZone, hhi, List.head?_cons, Option.bind_some, Option.map_some, hin]

end

theorem Accepted.not_firstDayIn_last {d days : ℕ} {z next : CreditPolicyZone}
    (hz : creditZoneForDays d (first :: rest) = some z) (hlast : (first :: rest).getLast? = some z) :
    ¬ FirstDayIn (first :: rest) d days next := by
  intro hnext
  obtain ⟨hmem, hhas⟩ := (h.creditZone_iff hw hstart).mp hz
  have hopen : z.maxDays = none := by
    rw [List.getLast?_eq_some_getLast (List.cons_ne_nil first rest)] at hlast
    rw [← Option.some.inj hlast]
    exact h.last
  refine hnext.other ?_
  rw [hz, ← hnext.there, eq_comm, h.creditZone_iff hw hstart]
  refine ⟨hmem, Range.has_iff.mpr ⟨fun m hm => ?_, fun m hm => ?_⟩⟩
  · refine ((Range.has_iff.mp hhas).1 m hm).trans ?_
    exact_mod_cast Nat.le_add_right d days
  · cases hopen.symm.trans hm

end

/-! ## The action areas -/

theorem area_once {zone : CreditPolicyZone} {areas : List CreditPolicyActionArea} (hne : areas ≠ [])
    (h : checkAreas zone zone.minDays areas = .ok ())
    (hw : ∀ a ∈ areas, ∀ hi, a.maxDays = some hi → WholeNext hi) {d : ℕ} (hd : zone.has (d : ℚ) = true) :
    (areas.filter (·.has (d : ℚ))).length = 1 := by
  obtain ⟨a, rest, rfl⟩ := List.exists_cons_of_ne_nil hne
  obtain ⟨hmin, hlast, hchain, hproper⟩ := checkAreas_ok h
  obtain ⟨hge, hle⟩ := Range.has_iff.mp hd
  refine once_of_whole_map (d := d) hchain hproper hw (fun m hm => hge m ?_) fun m hm => hle m ?_
  · rw [← hm]
    exact congrArg some hmin.symm
  · rw [← hm]
    exact hlast.symm

/-- Where the day after an end of an area passes over the next whole number, that day of the
zone has no area. -/
theorem area_whole {zone : CreditPolicyZone} {areas : List CreditPolicyActionArea}
    (h : checkAreas zone zone.minDays areas = .ok ()) (hzone : 0 ≤ zone.minDays)
    (hend : ∀ hi, zone.maxDays = some hi → WholeNext hi)
    (hbelow : ∀ a ∈ areas, ∀ hi, a.maxDays = some hi → hi < 2 ^ 53)
    (honce : ∀ d : ℕ, zone.has (d : ℚ) = true → (areas.filter (·.has (d : ℚ))).length = 1) :
    ∀ a ∈ areas, ∀ hi, a.maxDays = some hi → WholeNext hi := by
  intro a ha hi hhi
  by_contra hnot
  cases areas with
  | nil => cases ha
  | cons b rest =>
    obtain ⟨hmin, hlast, hchain, hproper⟩ := checkAreas_ok h
    have hpropers := List.forall_mem_map.mpr hproper
    have hrising : ∀ r ∈ (b :: rest).map CreditPolicyActionArea.range, ∀ m, r.hi = some m → zone.minDays ≤ m →
        zone.minDays ≤ dayAfter m := List.forall_mem_map.mpr fun y hy m hm hle =>
      hle.trans (lt_dayAfter (hzone.trans hle) (hbelow y hy m hm)).le
    have hstarts : ∀ y ∈ b :: rest, zone.minDays ≤ y.minDays := fun y hy =>
      le_lo hchain hpropers hrising (congrArg some hmin) le_rfl y.range (List.mem_map_of_mem hy) y.minDays rfl
    have hends : ∀ y ∈ b :: rest, ∀ m, y.maxDays = some m → zone.minDays ≤ m := fun y hy m hm =>
      (hstarts y hy).trans (hproper y hy _ rfl m hm)
    have hrises : ∀ r ∈ (b :: rest).map CreditPolicyActionArea.range, r.Rises dayAfter :=
      List.forall_mem_map.mpr fun y hy m hm =>
        lt_dayAfter (hzone.trans (hends y hy m hm)) (hbelow y hy m hm)
    have hpassed : (⌊hi⌋ + 1 : ℚ) < dayAfter hi :=
      lt_of_le_of_ne (floor_lt_dayAfter (hzone.trans (hends a ha hi hhi)) (hbelow a ha hi hhi)) (Ne.symm hnot)
    have hnone := none_of_passed hrises hchain hpropers (List.mem_map_of_mem ha) hhi hpassed
    have hstop : ∀ m, zone.maxDays = some m → (⌊hi⌋ + 1 : ℚ) ≤ m := by
      intro m hm
      rw [← hlast] at hm
      obtain ⟨pre, post, hsplit⟩ := List.append_of_mem ha
      cases post with
      | nil =>
        simp only [hsplit, List.getLast_append_singleton] at hlast
        exact absurd (hend hi (hlast ▸ hhi)) hnot
      | cons s post =>
        have hlink := hchain
        rw [hsplit, List.map_append] at hlink
        obtain ⟨⟨m', hm', hlo⟩, -⟩ := List.isChain_cons_cons.mp (List.isChain_append.mp hlink).2.1
        obtain rfl := Option.some.inj (hhi.symm.trans hm')
        have hs : s ∈ b :: rest := by simp [hsplit]
        refine hpassed.le.trans (lo_le_last hrises hchain hpropers ?_ s.range (List.mem_map_of_mem hs) _ hlo)
        have hmap := List.getLast_map (f := CreditPolicyActionArea.range) (l := b :: rest) (by simp)
        exact (congrArg Range.hi hmap).trans hm
    obtain ⟨d, hd⟩ : ∃ d : ℕ, (d : ℤ) = ⌊hi⌋ + 1 := by
      have : 0 ≤ ⌊hi⌋ := Int.floor_nonneg.mpr (hzone.trans (hends a ha hi hhi))
      exact ⟨(⌊hi⌋ + 1).toNat, by omega⟩
    have hcast : (d : ℚ) = ⌊hi⌋ + 1 := by exact_mod_cast hd
    have hday := honce d (Range.has_iff.mpr ⟨fun m hm => ?_, fun m hm => hcast.trans_le (hstop m hm)⟩)
    · rw [List.filter_map, List.map_eq_nil_iff, ← hd] at hnone
      have hempty : (b :: rest).filter (·.has (d : ℚ)) = [] := hnone
      rw [hempty] at hday
      cases hday
    · rw [← Option.some.inj hm, hcast]
      exact (hends a ha hi hhi).trans (Int.lt_floor_add_one hi).le

/-! ## Soundness of the validation -/

/-- A zone whose next day is passed over leaves that day in no zone. -/
theorem Accepted.zoneEnds_of_sound {first : CreditPolicyZone} {rest : List CreditPolicyZone} (h : Accepted first rest)
    (hstart : first.minDays = 0) (hbelow : ∀ z ∈ first :: rest, ∀ hi, z.maxDays = some hi → hi < 2 ^ 53)
    (hsound : Sound (first :: rest)) : ∀ z ∈ first :: rest, ∀ hi, z.maxDays = some hi → WholeNext hi := by
  have hrises : ∀ r ∈ (first :: rest).map CreditPolicyZone.range, r.Rises dayAfter :=
    List.forall_mem_map.mpr fun z hz hi hhi => lt_dayAfter (h.maxDays_nonneg hstart hz hhi) (hbelow z hz hi hhi)
  intro z hz hi hhi
  by_contra hnot
  have hpos := h.maxDays_nonneg hstart hz hhi
  have hpassed : (⌊hi⌋ + 1 : ℚ) < dayAfter hi :=
    lt_of_le_of_ne (floor_lt_dayAfter hpos (hbelow z hz hi hhi)) (Ne.symm hnot)
  have hnone := none_of_passed hrises h.chain (List.forall_mem_map.mpr h.proper) (List.mem_map_of_mem hz) hhi hpassed
  have hfloor : 0 ≤ ⌊hi⌋ := Int.floor_nonneg.mpr hpos
  obtain ⟨d, hd⟩ : ∃ d : ℕ, (d : ℤ) = ⌊hi⌋ + 1 := ⟨(⌊hi⌋ + 1).toNat, by omega⟩
  obtain ⟨y, hy, -⟩ := hsound.zone d
  rw [List.filter_map, List.map_eq_nil_iff, ← hd] at hnone
  have hempty : (first :: rest).filter (·.has (d : ℚ)) = [] := hnone
  rw [hempty] at hy
  cases hy

/-- **An accepted policy is sound**, with its ends below 2 ^ 53, exactly where the day after
each end is the next whole number and no list of areas is empty. -/
theorem validateCreditPolicy_sound_iff (h : validateCreditPolicy zones = .ok ()) (hbelow : Below zones) :
    Sound zones ↔ WholeDays zones := by
  obtain ⟨first, rest, rfl, hstart, haccepted⟩ := validateCreditPolicy_ok h
  constructor
  · intro hsound
    have hends := haccepted.zoneEnds_of_sound hstart hbelow.zoneEnds hsound
    refine ⟨hends, fun z hz areas hareas => ⟨?_, ?_⟩⟩
    · rintro rfl
      obtain ⟨d, hd⟩ := haccepted.exists_minDays hstart hends hz
      cases hsound.area d z hz (hd ▸ haccepted.has_minDays hz) [] hareas
    · exact area_whole (haccepted.areas z hz areas hareas) (haccepted.minDays_nonneg hstart hz)
        (hends z hz) (hbelow.areaEnds z hz areas hareas) fun d hd => hsound.area d z hz hd areas hareas
  · intro hwhole
    have hw := hwhole.zoneEnds
    have hzone : ∀ d : ℕ, ∃ z, (first :: rest).filter (·.has (d : ℚ)) = [z] ∧
        creditZoneForDays d (first :: rest) = some z := by
      intro d
      obtain ⟨z, hz⟩ := List.length_eq_one_iff.mp (haccepted.once hw hstart d)
      exact ⟨z, hz, (haccepted.creditZone_iff hw hstart).mpr
        (List.mem_filter.mp (hz ▸ List.mem_singleton_self z))⟩
    refine ⟨hzone, ?_, ?_, ?_, ?_⟩
    · intro d z hz hd areas hareas
      obtain ⟨hne, hends⟩ := hwhole.areaEnds z hz areas hareas
      exact area_once hne (haccepted.areas z hz areas hareas) hends hd
    · intro d z hz
      rcases haccepted.zone_cases hw hstart hbelow.zoneEnds hz with ⟨hlast, hnone⟩ | ⟨hlast, days, next, hnext, -⟩
      · exact ⟨fun _ => hlast, fun _ => hnone⟩
      · rw [hnext]
        exact ⟨fun hnone => absurd hnone (Option.some_ne_none _), fun h => absurd h hlast⟩
    · intro d n hn
      obtain ⟨z, -, hz⟩ := hzone d
      rcases haccepted.zone_cases hw hstart hbelow.zoneEnds hz with ⟨-, hnone⟩ | ⟨-, days, next, hnext, hfirst⟩
      · rw [hnone] at hn
        cases hn
      · rw [hnext] at hn
        cases hn
        exact ⟨days, rfl, hfirst⟩
    · intro d
      obtain ⟨z, -, hz⟩ := hzone d
      unfold approachingNextZone
      rcases haccepted.zone_cases hw hstart hbelow.zoneEnds hz with ⟨hlast, hnone⟩ | ⟨-, days, next, hnext, hfirst⟩
      · rw [hnone]
        refine ⟨fun h => absurd h (by simp), ?_⟩
        rintro ⟨days, next, hfirst, -⟩
        exact absurd hfirst (haccepted.not_firstDayIn_last hw hstart hz hlast)
      · rw [hnext, Option.any_some, decide_eq_true_eq, Nat.cast_le]
        constructor
        · exact fun hle => ⟨days, next, hfirst, hle⟩
        · rintro ⟨days', next', hfirst', hle⟩
          rwa [hfirst.unique hfirst']

theorem validateCreditPolicy_sound_iff_shipped : Sound CREDIT_POLICY_ZONES ↔ WholeDays CREDIT_POLICY_ZONES := by
  refine validateCreditPolicy_sound_iff (by decide +kernel) ⟨?_, ?_⟩
  · decide +kernel
  · decide +kernel

/-- One open zone, whose list of action areas is empty. -/
def areasForgotten : List CreditPolicyZone :=
  [⟨.BLOCK, "BLOCK", 0, none, .block, "GCEO + CFO", "Management Escalation", none, some []⟩]

/-- An empty list of action areas is accepted, and covers no day of its zone. -/
theorem areasForgotten_unsound :
    ¬ ∀ zones, validateCreditPolicy zones = .ok () → Sound zones := by
  intro h
  have hday := (h areasForgotten (by decide +kernel)).area 0 _ (List.mem_singleton_self _)
    (by decide +kernel) [] rfl
  cases hday

/-- Two zones at 2 ^ 53, where the next day is rounded down to the same number. -/
def roundedDays : List CreditPolicyZone :=
  [⟨.GREEN, "GREEN", 0, some (2 ^ 53), .green, "Sales Manager", "Payment Reminder", none, none⟩,
    ⟨.BLOCK, "BLOCK", 2 ^ 53, none, .block, "GCEO + CFO", "Management Escalation", none, none⟩]

/-- From 2 ^ 53 on two zones with one day in common are accepted. -/
theorem roundedDays_unsound : validateCreditPolicy roundedDays = .ok () ∧ ¬ Sound roundedDays := by
  refine ⟨by decide +kernel, fun h => ?_⟩
  obtain ⟨z, hz, -⟩ := h.zone (2 ^ 53)
  have hlength : (roundedDays.filter (·.has ((2 ^ 53 : ℕ) : ℚ))).length = 2 := by decide +kernel
  rw [hz] at hlength
  cases hlength

end SalesDashboard.CreditPolicy
