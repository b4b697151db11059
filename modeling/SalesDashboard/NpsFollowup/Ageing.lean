import SalesDashboard.NpsFollowup.Sla

/-! The ageing chart and the SLA state of its cases tell the same. -/

namespace SalesDashboard.NpsFollowup
open Counts

/-! ## One case -/

/-- A case without an SLA, a resolved one or an open one. -/
theorem caseSla_cases (c : SlaInput) (now : Int) :
    (∃ rule, caseSla c now = noSla rule (contactedInSla c)) ∨
    (c.stage = "RESOLVED" ∧ ∃ took, caseSla c now = resolvedSla took (contactedInSla c)) ∨
    (c.stage ∈ OPEN ∧ ∃ created, c.createdAt = some created ∧
      caseSla c now = openSla (hoursBetween created now) c.contactedAt (contactedInSla c)) := by
  unfold caseSla
  simp only
  split
  · exact .inl ⟨_, rfl⟩
  · split
    · exact .inl ⟨_, rfl⟩
    · next created hcreated =>
      split
      · exact .inl ⟨_, rfl⟩
      · split
        · next hresolved =>
          split
          · exact .inl ⟨_, rfl⟩
          · exact .inr (.inl ⟨hresolved, _, rfl⟩)
        · split
          · exact .inl ⟨_, rfl⟩
          · next hopen => exact .inr (.inr ⟨not_not.mp hopen, created, hcreated, rfl⟩)

theorem resolved_not_open : "RESOLVED" ∉ OPEN := by decide

theorem caseSla_open {c : SlaInput} (h : c.stage ∈ OPEN) (now : Int) : caseSla c now =
    c.createdAt.elim (noSla .historical (contactedInSla c)) fun created =>
      openSla (hoursBetween created now) c.contactedAt (contactedInSla c) := by
  have hother : c.stage ≠ "REJECTED" ∧ c.stage ≠ "HISTORICAL" ∧ c.stage ≠ "RESOLVED" := by
    have hnot : ∀ stage ∈ OPEN, stage ≠ "REJECTED" ∧ stage ≠ "HISTORICAL" ∧ stage ≠ "RESOLVED" := by decide
    exact hnot c.stage h
  unfold caseSla
  cases c.createdAt with
  | none => simp only [if_neg hother.1, Option.elim_none]
  | some created =>
    simp only [if_neg hother.1, if_neg hother.2.1, if_neg hother.2.2, if_neg (not_not.mpr h),
      Option.elim_some]

theorem resolvedSla_spec (took : ℚ) (contacted : Option Bool) :
    (resolvedSla took contacted).band ≠ .grey ∧ (resolvedSla took contacted).exactHours = some took ∧
      ((resolvedSla took contacted).rule = .resolvedInSla ↔ took ≤ CLOSE_HOURS) := by
  unfold resolvedSla
  split
  · next h => exact ⟨by simp [timed], rfl, by simp [timed, h]⟩
  · next h => exact ⟨by simp [timed], rfl, by simp [timed, h]⟩

theorem openSla_spec (age : ℚ) (contactedAt : Option Int) (contacted : Option Bool) :
    (openSla age contactedAt contacted).band ≠ .grey ∧
      (openSla age contactedAt contacted).exactHours = some age ∧
      ((openSla age contactedAt contacted).rule = .closeMissed ↔ CLOSE_HOURS < age) := by
  unfold openSla
  split_ifs with hclose hcontact hwithin
  · exact ⟨by simp [timed], rfl, by simpa [timed] using hclose⟩
  all_goals exact ⟨by simp [timed], rfl, by simpa [timed] using hclose⟩

/-- The rules of a case that is still open. -/
def openRules : List SlaRule := [.openWithinContact, .openContacted, .contactMissed, .closeMissed]

theorem openSla_rule (age : ℚ) (contactedAt : Option Int) (contacted : Option Bool) :
    (openSla age contactedAt contacted).rule ∈ openRules := by
  unfold openSla
  split_ifs <;> simp [timed, openRules]

/-- The rules an open case may have after this one. -/
def SlaRule.after : SlaRule → List SlaRule
  | .openWithinContact => [.openContacted, .contactMissed, .closeMissed]
  | .openContacted | .contactMissed => [.closeMissed]
  | .closeMissed | .resolvedInSla | .resolvedLate | .rejected | .historical => []

theorem hoursBetween_mono {start stop stop' : Int} (h : stop ≤ stop') :
    hoursBetween start stop ≤ hoursBetween start stop' := by
  unfold hoursBetween
  have hcast : ((stop - start : ℤ) : ℚ) ≤ ((stop' - start : ℤ) : ℚ) := by
    exact_mod_cast Int.sub_le_sub_right h start
  exact max_le_max (le_refl 0) (by linarith)

/-- An older case has the same rule or a later one. -/
theorem openSla_forward {age age' : ℚ} (h : age ≤ age') (contactedAt : Option Int) (contacted : Option Bool) :
    (openSla age contactedAt contacted).rule = (openSla age' contactedAt contacted).rule ∨
      (openSla age' contactedAt contacted).rule ∈ (openSla age contactedAt contacted).rule.after := by
  have hlimits : NPS_SLA.contactHours < CLOSE_HOURS := by decide +kernel
  unfold openSla
  split_ifs <;> simp_all [timed, SlaRule.after] <;> linarith

/-! ## The buckets -/

theorem nodup_bucketKeys : (AGEING_BUCKETS.map (·.key)).Nodup := by decide +kernel

/-- The keys left of the Close SLA line. -/
def keysWithin : List AgeingBucketKey := (AGEING_BUCKETS.filter (·.withinSla)).map (·.key)

theorem mem_bucketKeys (key : AgeingBucketKey) : key ∈ AGEING_BUCKETS.map (·.key) := by
  cases key <;> decide +kernel

theorem ageingBucket_eq (hours : ℚ) : ageingBucket hours =
    if hours ≤ 24 then .d1 else if hours ≤ 48 then .d2 else if hours ≤ 120 then .d5
    else if hours ≤ 240 then .d10 else if hours ≤ 720 then .d30 else .dmax := by
  have hlimits : AGEING_BUCKETS.map (fun b => (b.key, b.maxHours)) =
      [(.d1, some 24), (.d2, some 48), (.d5, some 120), (.d10, some 240), (.d30, some 720), (.dmax, none)] := by
    decide +kernel
  have hfind : ∀ buckets : List AgeingBucket,
      ((buckets.find? fun b => b.maxHours.all fun limit => decide (hours ≤ limit)).map (·.key)) =
        ((buckets.map fun b => (b.key, b.maxHours)).find? fun b =>
          b.2.all fun limit => decide (hours ≤ limit)).map (·.1) := by
    intro buckets
    rw [List.find?_map, Option.map_map]
    rfl
  unfold ageingBucket
  rw [hfind, hlimits]
  clear hlimits hfind
  simp only [List.find?_cons, Option.all_some, Option.all_none]
  split_ifs <;> simp only [*, decide_true, decide_false, Option.map_some, Option.getD_some]

theorem ageingBucket_within (hours : ℚ) : ageingBucket hours ∈ keysWithin ↔ hours ≤ CLOSE_HOURS := by
  have hwithin : keysWithin = [.d1, .d2, .d5] := by decide +kernel
  have hclose : CLOSE_HOURS = 120 := by decide +kernel
  rw [hwithin, hclose, ageingBucket_eq]
  split_ifs with h1 h2 h3 h4 h5
  · exact ⟨fun _ => h1.trans (by norm_num), fun _ => by simp⟩
  · exact ⟨fun _ => h2.trans (by norm_num), fun _ => by simp⟩
  · exact ⟨fun _ => h3, fun _ => by simp⟩
  all_goals exact ⟨fun hmem => by simp at hmem, fun hle => absurd hle h3⟩

/-! ## The chart -/

/-- The case is drawn. -/
def charted (c : AgeingCase) : Bool := decide (c.sla.band ≠ .grey) && c.sla.exactHours.isSome

def isResolved (c : AgeingCase) : Bool := decide (c.stage = "RESOLVED")

def bucketKeyOf (c : AgeingCase) : AgeingBucketKey := ageingBucket (c.sla.exactHours.getD 0)

/-- The contact deadline of the case is behind it. -/
def contactDue (c : AgeingCase) : Bool :=
  c.contacted || isResolved c || decide (c.sla.exactHours.getD 0 > NPS_SLA.contactHours)

/-- The chart as counts over the cases. -/
def chartOf (cases : List AgeingCase) : ResolutionAgeing where
  buckets := AGEING_BUCKETS.map fun b => ⟨b.key, b.label, b.withinSla,
    cases.countP fun c => (charted c && isResolved c) && decide (bucketKeyOf c = b.key),
    cases.countP fun c => (charted c && !isResolved c) && decide (bucketKeyOf c = b.key)⟩
  closedInSla := ⟨cases.countP fun c => charted c && isResolved c && decide (c.sla.rule = .resolvedInSla),
    cases.countP fun c => charted c && isResolved c⟩
  contactedInSla := ⟨cases.countP fun c => charted c && contactDue c && decide (c.sla.contactedInSla = some true),
    cases.countP fun c => charted c && contactDue c⟩

theorem addCase_of_not_charted {r : ResolutionAgeing} {c : AgeingCase} (h : charted c = false) :
    addCase r c = r := by
  unfold addCase
  split
  · rfl
  · next hours hhours =>
    split
    · rfl
    · next hband => simp [charted, hhours, hband] at h

theorem addCase_of_charted {r : ResolutionAgeing} {c : AgeingCase} (h : charted c = true) : addCase r c =
    { buckets := countIn (bucketKeyOf c) (isResolved c) r.buckets
      closedInSla :=
        if isResolved c then r.closedInSla.add (decide (c.sla.rule = .resolvedInSla)) else r.closedInSla
      contactedInSla :=
        if contactDue c then r.contactedInSla.add (decide (c.sla.contactedInSla = some true))
        else r.contactedInSla } := by
  rw [charted, Bool.and_eq_true, decide_eq_true_eq, Option.isSome_iff_exists] at h
  obtain ⟨hband, hours, hhours⟩ := h
  unfold addCase contactDue bucketKeyOf isResolved
  simp only [hhours, if_neg hband, Option.getD_some]

theorem resolutionAgeing_eq (cases : List AgeingCase) : resolutionAgeing cases = chartOf cases := by
  unfold resolutionAgeing
  induction cases using List.reverseRecOn with
  | nil => rfl
  | append_singleton cases c ih =>
    rw [List.foldl_append, ih, List.foldl_cons, List.foldl_nil]
    have hcount : ∀ p : AgeingCase → Bool, (cases ++ [c]).countP p = cases.countP p + if p c then 1 else 0 :=
      fun p => by rw [List.countP_append, List.countP_singleton]
    cases hcharted : charted c with
    | false =>
      rw [addCase_of_not_charted hcharted]
      unfold chartOf
      simp only [hcount, hcharted, Bool.false_and, Bool.false_eq_true, if_false, Nat.add_zero]
    | true =>
      rw [addCase_of_charted hcharted]
      unfold chartOf
      simp only [hcount, hcharted, Bool.true_and]
      refine ResolutionAgeing.mk.injEq .. |>.mpr ⟨?_, ?_, ?_⟩
      · unfold countIn
        rw [List.map_map]
        refine List.map_congr_left fun b _ => ?_
        by_cases hkey : b.key = bucketKeyOf c
        · cases hresolved : isResolved c <;> simp [hkey]
        · cases hresolved : isResolved c <;> simp [hkey, Ne.symm hkey]
      · cases hresolved : isResolved c <;> simp [Share.add]
        split <;> rfl
      · cases hdue : contactDue c <;> simp [Share.add]
        split <;> rfl

/-! ## The chart and the rules agree -/

/-- The rows of the chart at one instant; each case comes with its `contacted` flag. -/
def ageingCases (cases : List (SlaInput × Bool)) (now : Int) : List AgeingCase :=
  cases.map fun c => ⟨c.1.stage, caseSla c.1 now, c.2⟩

/-- A bucket right of the Close SLA line. -/
def rightOfLine (key : AgeingBucketKey) : Prop := ∃ b ∈ AGEING_BUCKETS, b.key = key ∧ b.withinSla = false

structure Agrees (cases : List (SlaInput × Bool)) (now : Int) : Prop where
  /-- Each bucket counts the drawn cases of its key, and each of them has one bucket. -/
  counted : ∀ b ∈ (resolutionAgeing (ageingCases cases now)).buckets,
    b.resolved = (ageingCases cases now).countP (fun c =>
      (charted c && isResolved c) && decide (bucketKeyOf c = b.key)) ∧
    b.unresolved = (ageingCases cases now).countP fun c =>
      (charted c && !isResolved c) && decide (bucketKeyOf c = b.key)
  one : ∀ key, ((resolutionAgeing (ageingCases cases now)).buckets.map (·.key)).count key = 1
  drawn : ∀ c ∈ ageingCases cases now, charted c = true ↔ c.sla.band ≠ .grey
  sum : ((resolutionAgeing (ageingCases cases now)).buckets.map fun b => b.resolved + b.unresolved).sum =
    (ageingCases cases now).countP fun c => decide (c.sla.band ≠ .grey)
  closedTotal : (resolutionAgeing (ageingCases cases now)).closedInSla.total =
    ((resolutionAgeing (ageingCases cases now)).buckets.map (·.resolved)).sum
  closedCount : (resolutionAgeing (ageingCases cases now)).closedInSla.count =
    (((resolutionAgeing (ageingCases cases now)).buckets.filter (·.withinSla)).map (·.resolved)).sum
  closed_le : (resolutionAgeing (ageingCases cases now)).closedInSla.count ≤
    (resolutionAgeing (ageingCases cases now)).closedInSla.total
  contacted_le : (resolutionAgeing (ageingCases cases now)).contactedInSla.count ≤
    (resolutionAgeing (ageingCases cases now)).contactedInSla.total
  missed : ∀ c ∈ cases, c.1.stage ∈ OPEN →
    ((∃ hours, (caseSla c.1 now).exactHours = some hours ∧ rightOfLine (ageingBucket hours)) ↔
      (caseSla c.1 now).rule = .closeMissed)
  rules : ∀ c ∈ cases, c.1.stage ∈ OPEN → c.1.createdAt ≠ none → (caseSla c.1 now).rule ∈ openRules
  forward : ∀ c ∈ cases, c.1.stage ∈ OPEN → ∀ later, now ≤ later →
    (caseSla c.1 now).rule = (caseSla c.1 later).rule ∨
      (caseSla c.1 later).rule ∈ (caseSla c.1 now).rule.after

theorem rightOfLine_iff (hours : ℚ) : rightOfLine (ageingBucket hours) ↔ CLOSE_HOURS < hours := by
  rw [← not_le, ← ageingBucket_within]
  have hkeys : ∀ key, rightOfLine key ↔ key ∉ keysWithin := by
    intro key
    unfold rightOfLine
    cases key <;> decide +kernel
  exact hkeys _

theorem exactHours_isSome_iff (c : SlaInput) (now : Int) :
    (caseSla c now).exactHours.isSome = true ↔ (caseSla c now).band ≠ .grey := by
  rcases caseSla_cases c now with ⟨rule, heq⟩ | ⟨-, took, heq⟩ | ⟨-, created, -, heq⟩
  · rw [heq]
    simp [noSla]
  · obtain ⟨hband, hhours, -⟩ := resolvedSla_spec took (contactedInSla c)
    rw [heq, hhours]
    exact ⟨fun _ => hband, fun _ => rfl⟩
  · obtain ⟨hband, hhours, -⟩ := openSla_spec (hoursBetween created now) c.contactedAt (contactedInSla c)
    rw [heq, hhours]
    exact ⟨fun _ => hband, fun _ => rfl⟩

/-- A resolved case is in time exactly when its bucket is left of the line. -/
theorem resolvedInSla_iff {c : AgeingCase} (hsla : ∃ i now, c.stage = SlaInput.stage i ∧ c.sla = caseSla i now)
    (hcharted : charted c = true) (hresolved : isResolved c = true) :
    c.sla.rule = .resolvedInSla ↔ bucketKeyOf c ∈ keysWithin := by
  obtain ⟨i, now, hstage, hsla⟩ := hsla
  rw [isResolved, decide_eq_true_eq, hstage] at hresolved
  rw [charted, Bool.and_eq_true, decide_eq_true_eq, hsla] at hcharted
  rw [bucketKeyOf, ageingBucket_within, hsla]
  rcases caseSla_cases i now with ⟨rule, heq⟩ | ⟨-, took, heq⟩ | ⟨hopen, -⟩
  · rw [heq] at hcharted
    exact absurd rfl hcharted.1
  · obtain ⟨-, hhours, hrule⟩ := resolvedSla_spec took (contactedInSla i)
    rw [heq, hhours]
    exact hrule
  · rw [hresolved] at hopen
    exact absurd hopen resolved_not_open

/-- A case of the chart has the line of some input. -/
theorem exists_caseSla {cases : List (SlaInput × Bool)} {now : Int} {c : AgeingCase} (hc : c ∈ ageingCases cases now) :
    ∃ i now, c.stage = SlaInput.stage i ∧ c.sla = caseSla i now := by
  obtain ⟨i, -, rfl⟩ := List.mem_map.mp hc
  exact ⟨i.1, now, rfl, rfl⟩

theorem charted_iff {cases : List (SlaInput × Bool)} {now : Int} {c : AgeingCase} (hc : c ∈ ageingCases cases now) :
    charted c = true ↔ c.sla.band ≠ .grey := by
  obtain ⟨i, now', -, heq⟩ := exists_caseSla hc
  rw [charted, Bool.and_eq_true, decide_eq_true_eq, heq, exactHours_isSome_iff, and_self]

/-- Counted by bucket, the cases are counted once each. -/
theorem sum_buckets (p : AgeingCase → Bool) (xs : List AgeingCase) :
    (AGEING_BUCKETS.map fun b => xs.countP fun c => p c && decide (bucketKeyOf c = b.key)).sum = xs.countP p := by
  have hkeys := sum_countP_keys bucketKeyOf p nodup_bucketKeys xs
  rw [List.map_map] at hkeys
  refine hkeys.trans (List.countP_congr fun c _ => ?_)
  rw [decide_eq_true (mem_bucketKeys _), Bool.and_true]

theorem countP_resolved_add (xs : List AgeingCase) : (xs.countP fun c => charted c && isResolved c) +
    (xs.countP fun c => charted c && !isResolved c) = xs.countP charted := by
  induction xs with
  | nil => rfl
  | cons c xs ih =>
    simp only [List.countP_cons]
    cases charted c <;> cases isResolved c <;> simp <;> omega

section
variable {c : SlaInput} (hopen : c.stage ∈ OPEN) (now : Int)
include hopen

/-- An open case is right of the Close SLA line when it has missed it. -/
theorem open_missed_iff : (∃ hours, (caseSla c now).exactHours = some hours ∧ rightOfLine (ageingBucket hours)) ↔
    (caseSla c now).rule = .closeMissed := by
  rw [caseSla_open hopen]
  cases c.createdAt with
  | none => simp [noSla]
  | some created =>
    obtain ⟨-, hexact, hrule⟩ := openSla_spec (hoursBetween created now) c.contactedAt (contactedInSla c)
    simp only [Option.elim_some, hexact, Option.some.injEq, exists_eq_left', rightOfLine_iff, hrule]

theorem open_rule (hcreated : c.createdAt ≠ none) : (caseSla c now).rule ∈ openRules := by
  rw [caseSla_open hopen]
  cases hc : c.createdAt with
  | none => exact absurd hc hcreated
  | some created => exact openSla_rule _ _ _

theorem open_forward {later : Int} (hle : now ≤ later) : (caseSla c now).rule = (caseSla c later).rule ∨
    (caseSla c later).rule ∈ (caseSla c now).rule.after := by
  rw [caseSla_open hopen, caseSla_open hopen]
  cases c.createdAt with
  | none => exact .inl rfl
  | some created => exact openSla_forward (hoursBetween_mono hle) _ _

end

/-- **The ageing chart and its SLA lines agree** with the rules of the cases. -/
theorem resolutionAgeing_agrees (cases : List (SlaInput × Bool)) (now : Int) : Agrees cases now := by
  refine ⟨?_, ?_, fun c => charted_iff, ?_, ?_, ?_, ?_, ?_, ?_, ?_, ?_⟩
  · rw [resolutionAgeing_eq]
    intro b hb
    obtain ⟨bucket, -, rfl⟩ := List.mem_map.mp hb
    exact ⟨rfl, rfl⟩
  · intro key
    have hkeys : (resolutionAgeing (ageingCases cases now)).buckets.map (·.key) =
        AGEING_BUCKETS.map (·.key) := by
      rw [resolutionAgeing_eq, chartOf, List.map_map]
      rfl
    rw [hkeys]
    exact List.count_eq_one_of_mem nodup_bucketKeys (mem_bucketKeys key)
  · rw [resolutionAgeing_eq, chartOf, List.map_map]
    simp only [Function.comp_def, List.sum_map_add, sum_buckets]
    rw [countP_resolved_add]
    refine List.countP_congr fun c hc => ?_
    rw [charted_iff hc, decide_eq_true_eq]
  · rw [resolutionAgeing_eq, chartOf, List.map_map]
    exact (sum_buckets (fun c => charted c && isResolved c) _).symm
  · rw [resolutionAgeing_eq, chartOf]
    simp only [List.filter_map, List.map_map]
    have hkeys := sum_countP_keys bucketKeyOf (fun c => charted c && isResolved c)
      ((List.filter_sublist.map _).nodup nodup_bucketKeys : keysWithin.Nodup) (ageingCases cases now)
    rw [List.map_map] at hkeys
    refine Eq.trans (List.countP_congr fun c hc => ?_) hkeys.symm
    simp only [Bool.and_eq_true, decide_eq_true_eq]
    exact and_congr_right fun h => resolvedInSla_iff (exists_caseSla hc) h.1 h.2
  · rw [resolutionAgeing_eq]
    exact List.countP_mono_left fun c _ h => (Bool.and_eq_true .. |>.mp h).1
  · rw [resolutionAgeing_eq]
    exact List.countP_mono_left fun c _ h => (Bool.and_eq_true .. |>.mp h).1
  · exact fun c _ hopen => open_missed_iff hopen now
  · exact fun c _ hopen => open_rule hopen now
  · exact fun c _ hopen later => open_forward hopen now

end SalesDashboard.NpsFollowup
