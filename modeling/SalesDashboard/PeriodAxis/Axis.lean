import SalesDashboard.PeriodAxis.Periods

/-! The periods of a range follow each other without a gap, and hold each of its dates
once, in the period that the grouping names. -/

namespace SalesDashboard.PeriodAxis
open Tachometer CriticalNumber MarcomKpi

variable {grain : CollectionGrain}

/-! ## Periods by their place in the calendar -/

/-- The number of the period that holds a date. -/
def placeOf (d : Date) : CollectionGrain → Int
  | .day => dayNumber d
  | .week => (dayNumber d - 2) / 7
  | .month => d.year * 12 + d.month

/-- How many periods the range touches. -/
def periodCount (fromDate toDate : Date) (grain : CollectionGrain) : Int :=
  placeOf toDate grain - placeOf fromDate grain + 1

def IsStart (s : Date) : CollectionGrain → Prop
  | .day => True
  | .week => (dayNumber s - 2) % 7 = 0
  | .month => s.day = 1

/-- The start of the period after one, in the calendar. -/
def followingStart (s : Date) : CollectionGrain → Date
  | .day => stepDays s 1
  | .week => stepDays s 7
  | .month => stepMonths s 1

theorem IsStart.place_le_iff {s d : Date} (h : IsStart s grain) :
    placeOf s grain ≤ placeOf d grain ↔ s.le d = true := by
  cases grain with
  | day => exact dayNumber_le_iff
  | week =>
    simp only [IsStart] at h
    simp only [placeOf, ← dayNumber_le_iff]
    omega
  | month =>
    have hs := s.month_le
    have hs' := s.month_pos
    have hd := d.month_pos
    have hd' := d.month_le
    have hday := d.day_pos
    simp only [IsStart] at h
    simp only [placeOf, Date.le_iff]
    omega

theorem IsStart.eq_of_place {s t : Date} (hs : IsStart s grain) (ht : IsStart t grain)
    (h : placeOf s grain = placeOf t grain) : s = t :=
  Date.le_antisymm (hs.place_le_iff.mp h.le) (ht.place_le_iff.mp h.ge)

theorem placeOf_mono {a b : Date} (h : a.le b = true) : placeOf a grain ≤ placeOf b grain := by
  have hday := dayNumber_le_iff.mpr h
  have hle := Date.le_iff.mp h
  have ha := a.month_le
  have hb := b.month_pos
  cases grain with
  | day => exact hday
  | week =>
    simp only [placeOf]
    omega
  | month =>
    simp only [placeOf]
    omega

theorem dayNumber_stepDays_ahead (d : Date) (n : Nat) : dayNumber (stepDays d n) = dayNumber d + n := by
  unfold stepDays
  rw [if_pos (Int.natCast_nonneg n), Int.toNat_natCast, dayNumber_iterate]

/-- The following start is the first date of the next place. -/
theorem IsStart.following {s : Date} (h : IsStart s grain) :
    IsStart (followingStart s grain) grain ∧
      placeOf (followingStart s grain) grain = placeOf s grain + 1 := by
  cases grain with
  | day => exact ⟨trivial, dayNumber_stepDays_ahead s 1⟩
  | week =>
    have hstep := dayNumber_stepDays_ahead s 7
    simp only [IsStart, placeOf, followingStart] at *
    push_cast at hstep
    omega
  | month =>
    have hm := s.month_pos
    have hm' := s.month_le
    refine ⟨rfl, ?_⟩
    simp only [placeOf, followingStart, stepMonths, firstOf]
    omega

theorem isStart_periodStart {d : Date} (h : 1000 ≤ d.year) (h' : d.year ≤ 9999) :
    IsStart (periodStart d grain) grain ∧ placeOf (periodStart d grain) grain = placeOf d grain := by
  cases grain with
  | day => exact ⟨trivial, rfl⟩
  | week =>
    have hstart := dayNumber_weekStartIso h h'
    simp only [IsStart, placeOf, periodStart]
    omega
  | month => exact ⟨rfl, rfl⟩

/-- The grouping gives a date the start of its period. -/
theorem periodSql_eq {d : Date} (h : 1000 ≤ d.year) (h' : d.year ≤ 9999) :
    periodSql d grain = periodStart d grain := by
  cases grain with
  | day => rfl
  | week => exact weekStartSql_eq h h'
  | month => rfl

theorem nextStart_eq (s : Date) : nextStart s grain = toIso (followingStart s grain) := by
  cases grain <;> rfl

theorem nextStart_of_year {s : Date} (h : (followingStart s grain).year ≤ 9999) :
    nextStart s grain = followingStart s grain := (nextStart_eq s).trans (toIso_eq h)

/-! ## Where a period ends -/

/-- The last day with four digits for its year. -/
def lastDate : Date := lastOf 9999 12 (by omega) december

theorem lastDay_number : dayNumber lastDate = 2932896 := by decide

theorem dayNumber_le_of_year {d : Date} (h : d.year ≤ 9999) : dayNumber d ≤ 2932896 := by
  rw [← lastDay_number, dayNumber_le_iff, Date.le_iff]
  have hm := d.month_le
  have hd := d.day_le
  have hle := daysInMonth_le d.year d.month
  have hlast : lastDate.day = 31 := rfl
  simp only [lastDate, lastOf] at hlast ⊢
  omega

/-- The first day of year 999, in which the week of a valid date may start. -/
def yearBefore : Date := firstOf 999 1 (by omega) january

theorem yearBefore_number : dayNumber yearBefore = -354650 := by decide

theorem dayNumber_ge_of_year {d : Date} (h : 1000 ≤ d.year) : -354285 ≤ dayNumber d := by
  have hfirst : dayNumber (firstOf 1000 1 (by decide) january) = -354285 := by decide
  rw [← hfirst, dayNumber_le_iff, Date.le_iff]
  have hm := d.month_pos
  have hd := d.day_pos
  simp only [firstOf]
  omega

theorem year_of_dayNumber_le {d : Date} (h : dayNumber d ≤ 2932896) : d.year ≤ 9999 := by
  rw [← lastDay_number] at h
  exact year_le_of_le h

/-- A period ends on the day before the following one starts. -/
theorem IsStart.dayNumber_periodEnd {s : Date} (h : IsStart s grain) (hge : 999 ≤ s.year)
    (hle : s.year ≤ 9999) :
    dayNumber (periodEnd s grain) = dayNumber (followingStart s grain) - 1 := by
  cases grain with
  | day =>
    have hstep := dayNumber_stepDays_ahead s 1
    simp only [periodEnd, followingStart]
    push_cast at hstep
    omega
  | week =>
    have hsix := dayNumber_stepDays_ahead s 6
    have hseven := dayNumber_stepDays_ahead s 7
    have hlast := dayNumber_le_of_year hle
    simp only [IsStart] at h
    simp only [periodEnd, followingStart, addDaysIso]
    push_cast at hsix hseven
    rw [toIso_eq (year_of_dayNumber_le (by omega))]
    omega
  | month =>
    have hnext : addMonths s 1 = stepMonths s 1 := by
      unfold addMonths toIso
      split
      · rfl
      · exact date_ext rfl rfl rfl
    obtain ⟨hstart, hplace⟩ := h.following
    have hyear : 100 < (stepMonths s 1).year := by
      simp only [stepMonths, firstOf]
      omega
    have hback : stepDays (stepMonths s 1) (-1) = prevDay (stepMonths s 1) := rfl
    have hnum := dayNumber_prevDay hyear
    simp only [periodEnd, followingStart, addDaysIso, hnext, hback]
    rw [toIso_eq, hnum]
    have hbefore : ¬ placeOf (stepMonths s 1) .month ≤ placeOf (prevDay (stepMonths s 1)) .month := by
      rw [show stepMonths s 1 = followingStart s .month from rfl, hstart.place_le_iff, ← dayNumber_le_iff]
      simp only [followingStart]
      omega
    have hm := s.month_le
    have hm' := (prevDay (stepMonths s 1)).month_pos
    simp only [followingStart] at hplace
    rw [hplace] at hbefore
    simp only [placeOf] at hbefore
    omega

theorem year_periodStart_ge {d : Date} (h : 1000 ≤ d.year) (h' : d.year ≤ 9999) :
    999 ≤ (periodStart d grain).year := by
  cases grain with
  | day => exact (by decide : 999 ≤ 1000).trans h
  | week =>
    have hnum := dayNumber_weekStartIso h h'
    have hfirst := dayNumber_ge_of_year h
    exact year_le_of_le (a := yearBefore) (b := weekStartIso d) (by
      rw [yearBefore_number]
      omega)
  | month => exact (by decide : 999 ≤ 1000).trans h

/-- A start is the start of its own period. -/
theorem IsStart.periodStart_eq {s : Date} (h : IsStart s grain) (hyear : s.year ≤ 9999) :
    periodStart s grain = s := by
  cases grain with
  | day => rfl
  | week =>
    have hzero : (getUTCDay s + 1) % 7 = 0 := by
      simp only [IsStart] at h
      unfold getUTCDay
      omega
    simp only [periodStart, weekStartIso, addDaysIso, hzero]
    exact toIso_eq hyear
  | month => exact date_ext rfl rfl h.symm

/-! ## The starts, one after the other -/

/-- So many starts from one on. -/
def starts (grain : CollectionGrain) (s : Date) (n : Nat) : List Date :=
  List.iterate (fun s => followingStart s grain) s n

theorem IsStart.iterate {s : Date} (h : IsStart s grain) (n : Nat) :
    IsStart ((fun s => followingStart s grain)^[n] s) grain ∧
      placeOf ((fun s => followingStart s grain)^[n] s) grain = placeOf s grain + n := by
  induction n with
  | zero => exact ⟨h, by simp⟩
  | succ n ih =>
    rw [Function.iterate_succ_apply']
    obtain ⟨hstart, hplace⟩ := ih.1.following
    exact ⟨hstart, by rw [hplace, ih.2]; push_cast; ring⟩

/-- The starts are those whose places come next. -/
theorem IsStart.mem_starts {s : Date} (h : IsStart s grain) {n : Nat} {t : Date} :
    t ∈ starts grain s n ↔ IsStart t grain ∧ placeOf s grain ≤ placeOf t grain ∧
      placeOf t grain < placeOf s grain + n := by
  unfold starts
  rw [List.mem_iterate]
  constructor
  · rintro ⟨k, hk, rfl⟩
    obtain ⟨hstart, hplace⟩ := h.iterate k
    rw [hplace]
    exact ⟨hstart, by omega, by omega⟩
  · rintro ⟨ht, hlo, hhi⟩
    obtain ⟨hstart, hplace⟩ := h.iterate (placeOf t grain - placeOf s grain).toNat
    refine ⟨(placeOf t grain - placeOf s grain).toNat, by omega, ht.eq_of_place hstart ?_⟩
    rw [hplace]
    omega

theorem starts_increasing {s : Date} (h : IsStart s grain) (n : Nat) :
    (starts grain s n).Pairwise fun a b => dayNumber a < dayNumber b := by
  unfold starts
  rw [List.pairwise_iff_getElem]
  intro i j hi hj hij
  rw [List.getElem_iterate, List.getElem_iterate]
  obtain ⟨hstart, hplace⟩ := h.iterate j
  refine dayNumber_lt fun hle => ?_
  have hmono := hstart.place_le_iff.mpr hle
  rw [hplace, (h.iterate i).2] at hmono
  omega

theorem starts_chain (s : Date) (n : Nat) :
    (starts grain s n).IsChain fun a b => b = followingStart a grain := by
  unfold starts
  rw [List.isChain_iff_getElem]
  intro i hi
  rw [List.getElem_iterate, List.getElem_iterate, Function.iterate_succ_apply']

/-! ## The loop -/

theorem year_le_followingStart (s : Date) : s.year ≤ (followingStart s grain).year := by
  cases grain with
  | day =>
    have hstep := dayNumber_stepDays_ahead s 1
    exact year_le_of_le (by simp only [followingStart]; push_cast at hstep; omega)
  | week =>
    have hstep := dayNumber_stepDays_ahead s 7
    exact year_le_of_le (by simp only [followingStart]; push_cast at hstep; omega)
  | month => exact Nat.le_add_right _ _

/-- The loops over starts, for so many at most. -/
def listStarts (grain : CollectionGrain) (toDate : Date) : Nat → Date → List Date
  | 0, _ => []
  | fuel + 1, s => if isoLe s toDate then s :: listStarts grain toDate fuel (nextStart s grain) else []

theorem listPeriods_eq (toDate : Date) (fuel : Nat) (s : Date) : listPeriods toDate grain fuel s =
    (listStarts grain toDate fuel s).map fun s => ⟨s, periodEnd s grain⟩ := by
  induction fuel generalizing s with
  | zero => rfl
  | succ fuel ih =>
    unfold listPeriods listStarts
    split
    · rw [ih, List.map_cons]
    · rfl

theorem listWeeks_eq (toDate : Date) (fuel : Nat) (s : Date) :
    listWeeks toDate fuel s = listStarts .week toDate fuel s := by
  induction fuel generalizing s with
  | zero => rfl
  | succ fuel ih =>
    unfold listWeeks listStarts
    split
    · rw [ih]
      rfl
    · rfl

theorem isoLe_eq {a b : Date} (ha : a.year ≤ 9999) (hb : b.year ≤ 9999) : isoLe a b = a.le b := by
  unfold isoLe
  rw [if_neg (by omega), if_neg (by omega)]

/-- A date with five digits for its year never gets past the end of the range. -/
theorem length_listStarts_of_year {toDate : Date} (hto : toDate.year ≤ 9999) (fuel : Nat) {s : Date}
    (h : 9999 < s.year) : (listStarts grain toDate fuel s).length = fuel := by
  induction fuel generalizing s with
  | zero => rfl
  | succ fuel ih =>
    have hnext : 9999 < (nextStart s grain).year := by
      rw [nextStart_eq, year_toIso]
      exact h.trans_le (year_le_followingStart s)
    have hle : isoLe s toDate = true := if_pos ⟨h, hto⟩
    unfold listStarts
    rw [if_pos hle, List.length_cons, ih hnext]

/-- Up to the end of year 9999 the loop lists the starts of the range. -/
theorem listStarts_eq {toDate : Date} (hto : toDate.year ≤ 9999) {e : Date} (he : IsStart e grain)
    (hplace : placeOf e grain = placeOf toDate grain) (hlast : (followingStart e grain).year ≤ 9999)
    (fuel : Nat) {s : Date} (hs : IsStart s grain)
    (hyear : s.year ≤ 9999) (hfuel : placeOf toDate grain + 1 - placeOf s grain ≤ fuel) :
    listStarts grain toDate fuel s = starts grain s (placeOf toDate grain + 1 - placeOf s grain).toNat := by
  induction fuel generalizing s with
  | zero =>
    have hzero : (placeOf toDate grain + 1 - placeOf s grain).toNat = 0 := by omega
    rw [hzero]
    rfl
  | succ fuel ih =>
    unfold listStarts
    rw [isoLe_eq hyear hto]
    by_cases hle : s.le toDate = true
    · rw [if_pos hle]
      have hmono := hs.place_le_iff.mpr hle
      obtain ⟨hnext, hnextPlace⟩ := hs.following
      have hnextYear : (followingStart s grain).year ≤ 9999 := by
        refine (year_le_of_le (dayNumber_le_iff.mpr (hnext.place_le_iff.mp ?_))).trans hlast
        rw [hnextPlace, he.following.2]
        omega
      rw [nextStart_of_year hnextYear, ih hnext hnextYear (by omega), hnextPlace]
      obtain ⟨n, hn⟩ : ∃ n, (placeOf toDate grain + 1 - placeOf s grain).toNat = n + 1 :=
        ⟨(placeOf toDate grain - placeOf s grain).toNat, by omega⟩
      have hn' : (placeOf toDate grain + 1 - (placeOf s grain + 1)).toNat = n := by omega
      rw [hn, hn']
      rfl
    · have hzero : (placeOf toDate grain + 1 - placeOf s grain).toNat = 0 := by
        rw [← hs.place_le_iff] at hle
        omega
      rw [if_neg hle, hzero]
      rfl

/-- Where the following period starts in year 10000 the loop runs on. -/
theorem length_listStarts_overflow {toDate : Date} (hto : toDate.year ≤ 9999) {e : Date} (he : IsStart e grain)
    (hplace : placeOf e grain = placeOf toDate grain) (hlast : 9999 < (followingStart e grain).year)
    (fuel : Nat) {s : Date} (hs : IsStart s grain)
    (hyear : s.year ≤ 9999) (hle : s.le toDate = true) : (listStarts grain toDate fuel s).length = fuel := by
  induction fuel generalizing s with
  | zero => rfl
  | succ fuel ih =>
    have hmono := hs.place_le_iff.mpr hle
    obtain ⟨hnext, hnextPlace⟩ := hs.following
    unfold listStarts
    rw [isoLe_eq hyear hto, if_pos hle, List.length_cons]
    by_cases hnextYear : (followingStart s grain).year ≤ 9999
    · rw [nextStart_of_year hnextYear]
      rw [ih hnext hnextYear]
      rw [← hnext.place_le_iff, hnextPlace]
      by_contra hlt
      have heq : followingStart s grain = followingStart e grain :=
        hnext.eq_of_place he.following.1 (by rw [hnextPlace, he.following.2]; omega)
      rw [heq] at hnextYear
      omega
    · have hcut : 9999 < (nextStart s grain).year := by
        rw [nextStart_eq, year_toIso]
        omega
      rw [length_listStarts_of_year hto fuel hcut]

/-! ## The periods of a range -/

def Period.has (p : Period) (d : Date) : Prop := p.start.le d = true ∧ d.le p.stop = true

theorem starts_has {s : Date} (hs : IsStart s grain) (hge : 999 ≤ s.year) (hle : s.year ≤ 9999) {d : Date} :
    Period.has ⟨s, periodEnd s grain⟩ d ↔ placeOf d grain = placeOf s grain := by
  have hend := hs.dayNumber_periodEnd hge hle
  obtain ⟨hnext, hnextPlace⟩ := hs.following
  have hlast : d.le (periodEnd s grain) = true ↔ ¬ placeOf (followingStart s grain) grain ≤ placeOf d grain := by
    rw [hnext.place_le_iff, ← dayNumber_le_iff, ← dayNumber_le_iff, hend]
    omega
  unfold Period.has
  rw [hlast, ← hs.place_le_iff, hnextPlace]
  omega

/-- Periods in order without a gap, with each date of the range in the one that the
grouping names. -/
structure Agrees (fromDate toDate : Date) (grain : CollectionGrain) (ps : List Period) : Prop where
  increasing : ps.Pairwise fun a b => dayNumber a.start < dayNumber b.start
  disjoint : ps.Pairwise fun a b => ∀ d, ¬ (a.has d ∧ b.has d)
  consecutive : ps.IsChain fun a b => dayNumber b.start = dayNumber a.stop + 1
  holds : ∀ d : Date, fromDate.le d = true → d.le toDate = true →
    ∃ p ∈ ps, p.has d ∧ p.start = periodSql d grain ∧ ∀ q ∈ ps, q.has d → q = p

/-- Days from 1000 on, as MySQL's dates, and with four digits for the year. -/
structure Valid (fromDate toDate : Date) : Prop where
  year_ge : 1000 ≤ fromDate.year
  year_le : toDate.year ≤ 9999
  ordered : fromDate.le toDate = true

theorem Valid.year_of_mem {fromDate toDate d : Date} (h : Valid fromDate toDate) (hfrom : fromDate.le d = true)
    (hto : d.le toDate = true) : 1000 ≤ d.year ∧ d.year ≤ 9999 := by
  have hge := year_le_of_le (dayNumber_le_iff.mpr hfrom)
  have hle := year_le_of_le (dayNumber_le_iff.mpr hto)
  exact ⟨h.year_ge.trans hge, hle.trans h.year_le⟩

theorem Valid.first {fromDate toDate : Date} (h : Valid fromDate toDate) :
    1000 ≤ fromDate.year ∧ fromDate.year ≤ 9999 :=
  h.year_of_mem (dayNumber_le_iff.mp le_rfl) h.ordered

theorem Valid.last {fromDate toDate : Date} (h : Valid fromDate toDate) :
    1000 ≤ toDate.year ∧ toDate.year ≤ 9999 :=
  h.year_of_mem h.ordered (dayNumber_le_iff.mp le_rfl)

/-- The period after the one that holds the end of the range starts in year 9999 at the
latest. -/
def LastFits (toDate : Date) (grain : CollectionGrain) : Prop :=
  (nextStart (periodStart toDate grain) grain).year ≤ 9999

instance (toDate : Date) (grain : CollectionGrain) : Decidable (LastFits toDate grain) :=
  inferInstanceAs (Decidable ((nextStart (periodStart toDate grain) grain).year ≤ 9999))

theorem lastFits_iff {toDate : Date} :
    LastFits toDate grain ↔ (followingStart (periodStart toDate grain) grain).year ≤ 9999 := by
  rw [LastFits, nextStart_eq, year_toIso]

section
variable {fromDate toDate : Date} (h : Valid fromDate toDate)
include h

theorem Valid.listStarts_eq (hfits : LastFits toDate grain) {fuel : Nat}
    (hlimit : periodCount fromDate toDate grain ≤ fuel) :
    listStarts grain toDate fuel (periodStart fromDate grain) =
      starts grain (periodStart fromDate grain) (periodCount fromDate toDate grain).toNat := by
  obtain ⟨hstart, hplace⟩ := @isStart_periodStart grain _ h.first.1 h.first.2
  obtain ⟨hend, hendPlace⟩ := @isStart_periodStart grain _ h.last.1 h.last.2
  have hyear : (periodStart fromDate grain).year ≤ 9999 := by
    refine (year_le_of_le (dayNumber_le_iff.mpr (hstart.place_le_iff.mp ?_))).trans h.first.2
    exact hplace.le
  have hcount : periodCount fromDate toDate grain =
      placeOf toDate grain + 1 - placeOf (periodStart fromDate grain) grain := by
    rw [hplace, periodCount]
    ring
  rw [hcount] at hlimit ⊢
  exact PeriodAxis.listStarts_eq h.year_le hend hendPlace (lastFits_iff.mp hfits) fuel hstart hyear hlimit

theorem Valid.length_overflow (hfits : ¬ LastFits toDate grain) (fuel : Nat) :
    (listStarts grain toDate fuel (periodStart fromDate grain)).length = fuel := by
  obtain ⟨hstart, hplace⟩ := @isStart_periodStart grain _ h.first.1 h.first.2
  obtain ⟨hend, hendPlace⟩ := @isStart_periodStart grain _ h.last.1 h.last.2
  have hle : (periodStart fromDate grain).le fromDate = true := hstart.place_le_iff.mp hplace.le
  rw [lastFits_iff, not_le] at hfits
  refine length_listStarts_overflow h.year_le hend hendPlace hfits fuel hstart
    ((year_le_of_le (dayNumber_le_iff.mpr hle)).trans h.first.2) (hstart.place_le_iff.mp ?_)
  rw [hplace]
  exact placeOf_mono h.ordered

theorem Valid.periodsBetween_eq (hfits : LastFits toDate grain)
    (hlimit : periodCount fromDate toDate grain ≤ MAX_PERIODS) : periodsBetween fromDate toDate grain =
      some ((starts grain (periodStart fromDate grain) (periodCount fromDate toDate grain).toNat).map
        fun s => ⟨s, periodEnd s grain⟩) := by
  unfold periodsBetween
  simp only [listPeriods_eq]
  rw [h.listStarts_eq hfits (by push_cast; omega), if_neg]
  rw [List.length_map, starts, List.length_iterate]
  omega

theorem Valid.periodsBetween_overflow (hfits : ¬ LastFits toDate grain) :
    periodsBetween fromDate toDate grain = none := by
  unfold periodsBetween
  simp only [listPeriods_eq]
  rw [List.length_map, h.length_overflow hfits]
  exact if_pos (Nat.lt_succ_self _)

/-- The years of the starts of a range. -/
theorem Valid.year_of_start {n : Nat} {s : Date}
    (hn : (n : Int) ≤ periodCount fromDate toDate grain)
    (hs : s ∈ starts grain (periodStart fromDate grain) n) : 999 ≤ s.year ∧ s.year ≤ 9999 := by
  obtain ⟨hstart, hplace⟩ := @isStart_periodStart grain _ h.first.1 h.first.2
  obtain ⟨hend, hendPlace⟩ := @isStart_periodStart grain _ h.last.1 h.last.2
  obtain ⟨hown, hlo, hhi⟩ := hstart.mem_starts.mp hs
  have hlow := @year_periodStart_ge grain _ h.first.1 h.first.2
  refine ⟨hlow.trans (year_le_of_le (dayNumber_le_iff.mpr (hstart.place_le_iff.mp hlo))), ?_⟩
  have hle : s.le (periodStart toDate grain) = true := by
    rw [← hown.place_le_iff, hendPlace]
    rw [periodCount, ← hplace] at hn
    omega
  have hlast : (periodStart toDate grain).le toDate = true := hend.place_le_iff.mp hendPlace.le
  exact (year_le_of_le ((dayNumber_le_iff.mpr hle).trans (dayNumber_le_iff.mpr hlast))).trans h.last.2

/-- **The periods of a range agree with the grouping.** -/
theorem Valid.agrees {n : Nat} (hn : (n : Int) = periodCount fromDate toDate grain) :
    Agrees fromDate toDate grain
      ((starts grain (periodStart fromDate grain) n).map fun s => ⟨s, periodEnd s grain⟩) := by
  obtain ⟨hstart, hplace⟩ := @isStart_periodStart grain _ h.first.1 h.first.2
  have hyears : ∀ s ∈ starts grain (periodStart fromDate grain) n, 999 ≤ s.year ∧ s.year ≤ 9999 :=
    fun s hs => h.year_of_start hn.le hs
  have hhas : ∀ s ∈ starts grain (periodStart fromDate grain) n, ∀ d,
      Period.has ⟨s, periodEnd s grain⟩ d ↔ placeOf d grain = placeOf s grain := fun s hs d =>
    starts_has (hstart.mem_starts.mp hs).1 (hyears s hs).1 (hyears s hs).2
  constructor
  · exact List.pairwise_map.mpr (starts_increasing hstart n)
  · refine List.pairwise_map.mpr ((starts_increasing hstart n).imp_of_mem fun {a b} ha hb hab d hd => ?_)
    have heq : placeOf a grain = placeOf b grain := ((hhas a ha d).mp hd.1).symm.trans ((hhas b hb d).mp hd.2)
    rw [(hstart.mem_starts.mp ha).1.eq_of_place (hstart.mem_starts.mp hb).1 heq] at hab
    exact hab.false
  · refine (List.isChain_map _).mpr ((starts_chain _ _).imp_of_mem_imp fun {a b} ha _ hab => ?_)
    have hend := (hstart.mem_starts.mp ha).1.dayNumber_periodEnd (hyears a ha).1 (hyears a ha).2
    dsimp only
    rw [hab, hend]
    omega
  · intro d hfrom hto
    obtain ⟨hge, hle⟩ := h.year_of_mem hfrom hto
    obtain ⟨hown, hownPlace⟩ := @isStart_periodStart grain _ hge hle
    have hlo := @placeOf_mono grain _ _ hfrom
    have hhi := @placeOf_mono grain _ _ hto
    have hmem : periodStart d grain ∈ starts grain (periodStart fromDate grain) n := by
      rw [hstart.mem_starts, hownPlace, hplace]
      refine ⟨hown, hlo, ?_⟩
      rw [hn, periodCount]
      omega
    refine ⟨_, List.mem_map_of_mem hmem, (hhas _ hmem d).mpr hownPlace.symm, (periodSql_eq hge hle).symm, ?_⟩
    intro q hq hqd
    obtain ⟨s, hs, rfl⟩ := List.mem_map.mp hq
    have hsd := (hhas s hs d).mp hqd
    rw [(hstart.mem_starts.mp hs).1.eq_of_place hown (hsd.symm.trans hownPlace.symm)]

end

end SalesDashboard.PeriodAxis
