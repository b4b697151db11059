import SalesDashboard.Collections.Allocate
import SalesDashboard.Lib.Loops
import Mathlib

/-! The rows of a payment add up to the payment. The groups of the loop hold what the
matches of their salesperson and branch apply, scaling keeps that, and the last row
takes the residue, so the facts and the matches agree. -/

namespace SalesDashboard.Collections

/-! ## The groups of the loop -/

def Group.applied (k : Kind) (g : Group) : ℚ :=
  match k with
  | .overdue => g.overdue
  | .not_due => g.not_due
  | .other => 0

/-- What a match of an invoice adds to its group, and the group it starts. -/
def Group.put (b : GroupKey × PayMatch) : Group → Group := Group.add b.2.kind b.2.appliedDocCcy

def Group.first (b : GroupKey × PayMatch) : Group := Group.put b ⟨b.1, 0, 0⟩

theorem Group.put_key (b : GroupKey × PayMatch) (g : Group) : (Group.put b g).key = g.key := by
  unfold Group.put Group.add
  split <;> rfl

theorem Group.first_key (b : GroupKey × PayMatch) : (Group.first b).key = b.1 :=
  Group.put_key b _

theorem Group.applied_put {k : Kind} (hk : k ≠ .other) (b : GroupKey × PayMatch) (g : Group) :
    (Group.put b g).applied k = g.applied k + if b.2.kind = k then b.2.appliedDocCcy else 0 := by
  unfold Group.put
  cases k with
  | other => exact absurd rfl hk
  | overdue => cases b.2.kind <;> simp [Group.add, Group.applied]
  | not_due => cases b.2.kind <;> simp [Group.add, Group.applied]

theorem Group.applied_first {k : Kind} (hk : k ≠ .other) (b : GroupKey × PayMatch) :
    (Group.first b).applied k = if b.2.kind = k then b.2.appliedDocCcy else 0 := by
  unfold Group.first
  rw [Group.applied_put hk]
  cases k <;> exact zero_add _

theorem Group.total_put (b : GroupKey × PayMatch) (g : Group) :
    (Group.put b g).total = g.total + if b.2.kind = .other then 0 else b.2.appliedDocCcy := by
  unfold Group.put Group.total
  cases b.2.kind <;> simp [Group.add] <;> ring

theorem Group.total_first (b : GroupKey × PayMatch) :
    (Group.first b).total = if b.2.kind = .other then 0 else b.2.appliedDocCcy := by
  unfold Group.first
  rw [Group.total_put]
  exact (congrArg (· + _) (add_zero (0 : ℚ))).trans (zero_add _)

/-- The matches of invoices under their groups. -/
def grouped (ms : List PayMatch) : List (GroupKey × PayMatch) :=
  ms.filterMap fun m => m.group.map fun key => (key, m)

theorem grouped_cons (m : PayMatch) (ms : List PayMatch) :
    grouped (m :: ms) = (m.group.map fun key => (key, m)).toList ++ grouped ms := by
  unfold grouped
  rw [List.filterMap_cons]
  cases m.group <;> rfl

/-- The accumulators after the loop. -/
theorem take_loop (ms : List PayMatch) (acc : Matched) :
    ms.foldl Matched.take acc =
      ⟨Keyed.upserts Group.key Prod.fst Group.put Group.first acc.groups (grouped ms),
        acc.other + ((ms.filter (·.group = none)).map (·.appliedDocCcy)).sum,
        acc.payMatches ++ ms⟩ := by
  induction ms generalizing acc with
  | nil => simp [grouped, Keyed.upserts]
  | cons m ms ih =>
    rw [List.foldl_cons, ih, grouped_cons]
    unfold Matched.take
    cases hg : m.group with
    | none => simp [hg, add_assoc]
    | some key => simp [hg, Keyed.upserts, addToGroup, Group.put, Group.first]

section Matches
variable (maps : KeyMaps) (look : Lookup) (payDate : Date) (ps : List Partial)

/-- What the loop over the partials `ps` ends with. -/
theorem matchPartials_eq : matchPartials maps look payDate ps =
    ⟨Keyed.upserts Group.key Prod.fst Group.put Group.first []
        (grouped (ps.map (payMatch maps look payDate))),
      (((ps.map (payMatch maps look payDate)).filter (·.group = none)).map (·.appliedDocCcy)).sum,
      ps.map (payMatch maps look payDate)⟩ := by
  unfold matchPartials
  rw [← List.foldl_map, take_loop, zero_add, List.nil_append]

theorem groups_nodup : ((matchPartials maps look payDate ps).groups.map Group.key).Nodup := by
  rw [matchPartials_eq]
  exact Keyed.nodup_upserts Group.put_key Group.first_key List.nodup_nil

/-- Every match of an invoice has its group. -/
theorem exists_group {m : PayMatch} (hm : m ∈ (matchPartials maps look payDate ps).payMatches)
    {key : GroupKey} (hk : m.group = some key) :
    key ∈ (matchPartials maps look payDate ps).groups.map Group.key := by
  rw [matchPartials_eq] at hm ⊢
  rw [Keyed.mem_keys_upserts Group.put_key Group.first_key]
  refine List.mem_map.mpr ⟨(key, m), List.mem_filterMap.mpr ⟨m, hm, ?_⟩, rfl⟩
  rw [hk]
  rfl

/-- **A group holds what its matches apply.** -/
theorem group_applied {g : Group} (hg : g ∈ (matchPartials maps look payDate ps).groups)
    {k : Kind} (hk : k ≠ .other) :
    g.applied k = (((matchPartials maps look payDate ps).payMatches.filter fun m =>
      m.group = some g.key ∧ m.kind = k).map (·.appliedDocCcy)).sum := by
  rw [matchPartials_eq] at hg ⊢
  rw [Keyed.figure_upserts Group.put_key Group.first_key
    (fun b g _ => Group.applied_put hk b g) (Group.applied_first hk) hg]
  generalize ps.map (payMatch maps look payDate) = ms
  induction ms with
  | nil => rfl
  | cons m ms ih =>
    rw [grouped_cons, List.filter_append, List.map_append, List.sum_append, ih, List.filter_cons]
    cases hgroup : m.group with
    | none => simp
    | some key =>
      by_cases hkey : key = g.key
      · by_cases hkind : m.kind = k <;> simp [hkey, hkind]
      · simp [hkey]

/-- A match has no group exactly when it is not one of an invoice. -/
theorem payMatch_kind (p : Partial) :
    (payMatch maps look payDate p).group = none ↔ (payMatch maps look payDate p).kind = .other := by
  unfold payMatch
  simp only
  split
  · split <;> simp
  · simp

/-- The total the loop ends with is what the partials apply. -/
theorem appliedTotal_eq :
    appliedTotal (matchPartials maps look payDate ps).groups
      (matchPartials maps look payDate ps).other = (ps.map applied).sum := by
  unfold appliedTotal
  rw [matchPartials_eq, Keyed.sum_upserts_nil Group.put_key Group.first_key
    (fun b g _ => Group.total_put b g) Group.total_first]
  induction ps with
  | nil => simp [grouped]
  | cons p ps ih =>
    simp only [List.map_cons, grouped_cons, List.map_append, List.sum_append, List.sum_cons,
      List.filter_cons] at ih ⊢
    rw [← ih]
    have hamount : (payMatch maps look payDate p).appliedDocCcy = applied p := rfl
    cases hgroup : (payMatch maps look payDate p).group with
    | none =>
      simp only [decide_true, if_true, List.map_cons, List.sum_cons, Option.map_none,
        Option.toList_none, List.map_nil, List.sum_nil, hamount]
      ring
    | some key =>
      have hkind : (payMatch maps look payDate p).kind ≠ .other := fun h => by
        rw [(payMatch_kind maps look payDate p).mpr h] at hgroup
        cases hgroup
      simp only [reduceCtorEq, decide_false, if_false, Option.map_some, Option.toList_some,
        List.map_cons, List.map_nil, List.sum_cons, List.sum_nil, hkind, hamount]
      ring

end Matches

/-! ## Scaling to the payment -/

/-- What scaling leaves. -/
theorem splitTo_some {amount : ℚ} {m : Matched} {s : Split} (h : splitTo amount m = some s) :
    s.groups = m.groups.map (Group.scale s.scale) := by
  unfold splitTo at h
  simp only at h
  split at h
  · split at h
    · cases h
    · cases h
      rfl
  · cases h
    have hscale : Group.scale 1 = id := by
      funext g
      simp [Group.scale]
    simp [hscale]

theorem splitTo_eq_none {amount : ℚ} {m : Matched} :
    splitTo amount m = none ↔ amount + EPS < 0 ∧ appliedTotal m.groups m.other = 0 := by
  unfold splitTo
  simp only
  by_cases hlt : amount + EPS < appliedTotal m.groups m.other
  · by_cases hzero : appliedTotal m.groups m.other = 0
    · rw [hzero] at hlt
      simp [hzero, hlt]
    · simp [hlt, hzero]
  · rw [if_neg hlt]
    simp only [reduceCtorEq, false_iff, not_and]
    intro hneg hzero
    rw [hzero] at hlt
    exact hlt hneg

theorem Group.applied_scale (s : ℚ) (k : Kind) (g : Group) :
    (Group.scale s g).applied k = g.applied k * s := by
  cases k
  · rfl
  · rfl
  · exact (zero_mul s).symm

/-! ## The allocations of a payment -/

def Allocation.applied (k : Kind) (a : Allocation) : ℚ :=
  match k with
  | .overdue => a.appliedOverdue
  | .not_due => a.appliedNotDue
  | .other => a.appliedOther

/-- The residue only changes what is not matched. -/
theorem addResidue_map {β : Type} {f : Allocation → β}
    (hf : ∀ a u, f { a with unapplied := u } = f a) (residue : ℚ) (as : List Allocation) :
    (addResidue residue as).map f = as.map f := by
  induction as with
  | nil => rfl
  | cons a as ih =>
    cases as with
    | nil => simp [addResidue, hf]
    | cons b rest =>
      rw [addResidue, List.map_cons, ih]
      rfl

theorem addResidue_sum (residue : ℚ) {as : List Allocation} (h : as ≠ []) :
    ((addResidue residue as).map Allocation.part).sum = (as.map Allocation.part).sum + residue := by
  induction as with
  | nil => exact absurd rfl h
  | cons a as ih =>
    cases as with
    | nil =>
      simp [addResidue, Allocation.part]
      ring
    | cons b rest =>
      rw [addResidue, List.map_cons, List.sum_cons, ih (by simp)]
      simp only [List.map_cons, List.sum_cons]
      ring

section Allocate
variable (maps : KeyMaps) (inputs : CollectionInputs) (customer : Int) (amount : ℚ) (s : Split)

/-- The allocations before the residue. -/
def allocations₀ : List Allocation :=
  let invoices := (s.groups.insertionSort groupLe).map invoiceAllocation
  if EPS < |s.other| ∨ EPS < |amount - s.appliedTotal| ∨ invoices = [] then
    invoices ++ [customerAllocation maps inputs customer s.other (amount - s.appliedTotal)]
  else invoices

theorem allocate_eq : allocate maps inputs customer amount s =
    if amount - ((allocations₀ maps inputs customer amount s).map Allocation.part).sum ≠ 0 then
      addResidue (amount - ((allocations₀ maps inputs customer amount s).map Allocation.part).sum)
        (allocations₀ maps inputs customer amount s)
    else allocations₀ maps inputs customer amount s := rfl

theorem allocate_map {β : Type} {f : Allocation → β}
    (hf : ∀ a u, f { a with unapplied := u } = f a) :
    (allocate maps inputs customer amount s).map f =
      (allocations₀ maps inputs customer amount s).map f := by
  rw [allocate_eq]
  split
  · exact addResidue_map hf _ _
  · rfl

theorem allocations₀_ne_nil : allocations₀ maps inputs customer amount s ≠ [] := by
  unfold allocations₀
  simp only
  split
  · simp
  · next h =>
    rw [not_or, not_or] at h
    exact h.2.2

/-- **The allocations add up to the payment.** -/
theorem allocate_sum : ((allocate maps inputs customer amount s).map Allocation.part).sum = amount := by
  rw [allocate_eq]
  split
  · rw [addResidue_sum _ (allocations₀_ne_nil maps inputs customer amount s)]
    ring
  · next h => linarith [not_not.mp h]

theorem mem_allocations₀ {a : Allocation} (ha : a ∈ allocations₀ maps inputs customer amount s) :
    (∃ g ∈ s.groups, a = invoiceAllocation g) ∨
      a = customerAllocation maps inputs customer s.other (amount - s.appliedTotal) := by
  unfold allocations₀ at ha
  simp only at ha
  have hinvoice : ∀ {a}, a ∈ (s.groups.insertionSort groupLe).map invoiceAllocation →
      ∃ g ∈ s.groups, a = invoiceAllocation g := by
    intro a ha
    obtain ⟨g, hg, rfl⟩ := List.mem_map.mp ha
    exact ⟨g, (List.mem_insertionSort groupLe).mp hg, rfl⟩
  split at ha
  · rcases List.mem_append.mp ha with ha | ha
    · exact .inl (hinvoice ha)
    · exact .inr (List.mem_singleton.mp ha)
  · exact .inl (hinvoice ha)

theorem customerAllocation_attribution (other unapplied : ℚ) :
    (customerAllocation maps inputs customer other unapplied).attribution ≠ .invoice := by
  unfold customerAllocation
  simp only
  split <;> simp

/-- The group of an allocation names its row. -/
theorem allocate_groups_nodup (hn : (s.groups.map Group.key).Nodup) :
    ((allocate maps inputs customer amount s).map (·.group)).Nodup := by
  rw [allocate_map maps inputs customer amount s fun _ _ => rfl]
  have hinvoices : (((s.groups.insertionSort groupLe).map invoiceAllocation).map
      (·.group)).Nodup := by
    have hperm := (List.perm_insertionSort groupLe s.groups).map Group.key
    have hsome := (hperm.nodup_iff.mpr hn).map (Option.some_injective _)
    simpa [List.map_map, Function.comp_def, invoiceAllocation] using hsome
  unfold allocations₀
  simp only
  split
  · rw [List.map_append, List.nodup_append]
    refine ⟨hinvoices, List.nodup_singleton _, ?_⟩
    intro x hx y hy hxy
    obtain ⟨a, ha, rfl⟩ := List.mem_map.mp hx
    obtain ⟨g, -, rfl⟩ := List.mem_map.mp ha
    rw [List.map_singleton, List.mem_singleton] at hy
    rw [hy] at hxy
    cases hxy
  · exact hinvoices

/-- An invoice allocation holds what its group applies. -/
theorem allocate_invoice {a : Allocation} (ha : a ∈ allocate maps inputs customer amount s)
    (hinv : a.attribution = .invoice) :
    ∃ g ∈ s.groups, a.group = some g.key ∧ ∀ k, k ≠ .other → a.applied k = g.applied k := by
  have hmem := List.mem_map_of_mem
    (f := fun a : Allocation => (a.attribution, a.group, a.appliedOverdue, a.appliedNotDue)) ha
  rw [allocate_map maps inputs customer amount s fun _ _ => rfl] at hmem
  obtain ⟨b, hb, heq⟩ := List.mem_map.mp hmem
  simp only [Prod.mk.injEq] at heq
  obtain ⟨hattr, hgroup, hover, hnot⟩ := heq
  rcases mem_allocations₀ maps inputs customer amount s hb with ⟨g, hg, rfl⟩ | rfl
  · refine ⟨g, hg, hgroup.symm, ?_⟩
    intro k hk
    cases k with
    | other => exact absurd rfl hk
    | overdue => exact hover.symm
    | not_due => exact hnot.symm
  · rw [hinv] at hattr
    exact absurd hattr (customerAllocation_attribution maps inputs customer _ _)

/-- Every group has its allocation. -/
theorem exists_allocation {g : Group} (hg : g ∈ s.groups) :
    ∃ a ∈ allocate maps inputs customer amount s, a.group = some g.key := by
  have hmem : some g.key ∈ (allocations₀ maps inputs customer amount s).map (·.group) := by
    have hinv : invoiceAllocation g ∈ (s.groups.insertionSort groupLe).map invoiceAllocation :=
      List.mem_map_of_mem ((List.mem_insertionSort groupLe).mpr hg)
    unfold allocations₀
    simp only
    refine List.mem_map.mpr ⟨invoiceAllocation g, ?_, rfl⟩
    split
    · exact List.mem_append_left _ hinv
    · exact hinv
  rw [← allocate_map maps inputs customer amount s fun _ _ => rfl] at hmem
  obtain ⟨a, ha, hk⟩ := List.mem_map.mp hmem
  exact ⟨a, ha, hk⟩

end Allocate

/-! ## The numbers of the allocations -/

section Numbers
variable {allocations : List Allocation}

theorem noOfGroup_of_mem (hn : (allocations.map (·.group)).Nodup) {a : Allocation} {n : Nat}
    (ha : (a, n) ∈ allocations.zipIdx 1) : noOfGroup allocations a.group = some n := by
  have hkeys : ((allocations.zipIdx 1).map fun a => a.1.group) = allocations.map (·.group) := by
    conv_rhs => rw [← List.zipIdx_map_fst 1 allocations, List.map_map]
    rfl
  have hkeyed : ((allocations.zipIdx 1).map fun a => a.1.group).Nodup := by rwa [hkeys]
  unfold noOfGroup
  rw [Keyed.find?_reverse hkeyed, (Keyed.find?_eq_some_iff hkeyed).mpr ⟨ha, rfl⟩]
  rfl

theorem mem_of_noOfGroup {group : Option GroupKey} {n : Nat}
    (h : noOfGroup allocations group = some n) :
    ∃ a, (a, n) ∈ allocations.zipIdx 1 ∧ a.group = group := by
  unfold noOfGroup at h
  obtain ⟨⟨a, m⟩, ha, rfl⟩ := Option.map_eq_some_iff.mp h
  exact ⟨a, List.mem_reverse.mp (List.mem_of_find?_eq_some ha), by simpa using List.find?_some ha⟩

theorem mem_zipIdx {a : Allocation} (ha : a ∈ allocations) : ∃ n, (a, n) ∈ allocations.zipIdx 1 := by
  rw [← List.zipIdx_map_fst 1 allocations] at ha
  obtain ⟨⟨b, n⟩, hb, rfl⟩ := List.mem_map.mp ha
  exact ⟨n, hb⟩

/-- A number names one allocation. -/
theorem eq_of_number {a b : Allocation} {n : Nat} (ha : (a, n) ∈ allocations.zipIdx 1)
    (hb : (b, n) ∈ allocations.zipIdx 1) : a = b := by
  have hn : ((allocations.zipIdx 1).map Prod.snd).Nodup := by
    rw [List.zipIdx_map_snd]
    exact List.nodup_range'
  exact congrArg Prod.fst (List.inj_on_of_nodup_map hn ha hb rfl)

/-- Where a match of a listed group points. -/
theorem matchRow_no (pay : Payment) (scale : ℚ) {m : PayMatch} {n : Nat}
    (h : noOfGroup allocations m.group = some n) :
    (matchRow pay allocations scale m).allocationNo = n := by
  unfold matchRow
  rw [h]
  rfl

end Numbers

/-! ## The rows of one payment -/

/-- The payments that make rows. -/
structure Collected (pay : Payment) : Prop where
  posted : pay.state = some "posted"
  external : pay.isInternalTransfer = false
  dated : pay.date ≠ none
  amount : EPS ≤ |num pay.amount|

theorem collectable_iff {pay : Payment} :
    Collected pay ↔ ∃ payDate, collectable pay = .ok payDate := by
  unfold collectable
  constructor
  · rintro ⟨hposted, hexternal, hdated, hamount⟩
    obtain ⟨payDate, hdate⟩ := Option.ne_none_iff_exists'.mp hdated
    exact ⟨payDate, by simp [hposted, hexternal, not_lt.mpr hamount, hdate]⟩
  · rintro ⟨payDate, h⟩
    split at h
    · cases h
    next hposted =>
      split at h
      · cases h
      next hexternal =>
        split at h
        · cases h
        next hamount =>
          split at h
          · cases h
          next hdate =>
            exact ⟨not_not.mp hposted, by simpa using hexternal, by simp [hdate],
              not_lt.mp hamount⟩

/-- A payment below zero whose partials come to nothing: the scale divides by zero. -/
def Indivisible (src : Source) (pay : Payment) : Prop :=
  Collected pay ∧ num pay.amount + EPS < 0 ∧
    ((partialsOf src.payLines src.partials pay.id).map applied).sum = 0

def FactRow.applied (k : Kind) (r : FactRow) : ℚ :=
  match k with
  | .overdue => r.appliedOverdue
  | .not_due => r.appliedNotDue
  | .other => r.appliedOther

/-- The rows and the match rows of a payment add up to it and agree with each other. -/
structure Conserves (src : Source) (pay : Payment) (rows : List FactRow)
    (matchRows : List MatchRow) : Prop where
  own : (∀ r ∈ rows, r.paymentId = pay.id) ∧ ∀ m ∈ matchRows, m.paymentId = pay.id
  numbered : rows.map (·.allocationNo) = List.range' 1 rows.length
  total : (rows.map (·.amountDocCcy)).sum = num pay.amount
  split : ∀ r ∈ rows,
    r.amountDocCcy = r.appliedOverdue + r.appliedNotDue + r.appliedOther + r.unapplied
  shares : (rows.map fun r => r.amountDocCcy / num pay.amount).sum = 1 ∧
    ∀ r ∈ rows, r.share = roundHalfEven 10 (r.amountDocCcy / num pay.amount)
  company : (rows.map (·.amountCompanyCcy)).sum = num pay.amountCompanyCurrencySigned
  invoices : ∀ r ∈ rows, r.attribution = .invoice → ∀ k, k ≠ .other →
    ((matchRows.filter fun m => m.allocationNo = r.allocationNo ∧ m.kind = k).map
      (·.appliedDocCcy)).sum = r.applied k
  /-- One match row for each partial. -/
  matched : matchRows.map (·.partialId) =
    (partialsOf src.payLines src.partials pay.id).map (·.id)
  pointed : ∀ m ∈ matchRows, ∃ r ∈ rows, r.allocationNo = m.allocationNo

theorem sum_map_mul (c : ℚ) (xs : List ℚ) : (xs.map (· * c)).sum = xs.sum * c := by
  induction xs with
  | nil => simp
  | cons x xs ih => rw [List.map_cons, List.sum_cons, ih, List.sum_cons, add_mul]

section Payment
variable {src : Source} {pay : Payment} {payDate : Date} {s : Split}

/-- The allocations of a payment. -/
abbrev allocationsOf (src : Source) (pay : Payment) (s : Split) : List Allocation :=
  allocate src.maps src.inputs (customerOf src.maps pay) (num pay.amount) s

abbrev rowsOf (src : Source) (pay : Payment) (payDate : Date) (s : Split) : List FactRow :=
  ((allocationsOf src pay s).zipIdx 1).map fun a =>
    factRow src.maps src.inputs pay (num pay.amount) payDate a.1 a.2

theorem rowsOf_map {β : Type} {f : FactRow → β} {g : Allocation → β}
    (hfg : ∀ a n, f (factRow src.maps src.inputs pay (num pay.amount) payDate a n) = g a) :
    (rowsOf src pay payDate s).map f = (allocationsOf src pay s).map g := by
  conv_rhs => rw [← List.zipIdx_map_fst 1 (allocationsOf src pay s), List.map_map]
  rw [List.map_map]
  exact List.map_congr_left fun a _ => hfg a.1 a.2

/-- The matches that point at an invoice allocation are those of its group. -/
theorem matchRows_of_invoice (hs : splitTo (num pay.amount)
      (matchPartials src.maps src.look payDate (partialsOf src.payLines src.partials pay.id)) = some s)
    {a : Allocation} {n : Nat} (ha : (a, n) ∈ (allocationsOf src pay s).zipIdx 1)
    {key : GroupKey} (hkey : a.group = some key) {k : Kind} (hk : k ≠ .other) {m : PayMatch}
    (hm : m ∈ (matchPartials src.maps src.look payDate
      (partialsOf src.payLines src.partials pay.id)).payMatches) :
    ((matchRow pay (allocationsOf src pay s) s.scale m).allocationNo = n ∧ m.kind = k) ↔
      (m.group = some key ∧ m.kind = k) := by
  refine and_congr_left fun hmk => ?_
  have hgroups := splitTo_some hs
  have hkeys : s.groups.map Group.key = (matchPartials src.maps src.look payDate
      (partialsOf src.payLines src.partials pay.id)).groups.map Group.key := by
    rw [hgroups, List.map_map]
    rfl
  have hnodup := allocate_groups_nodup src.maps src.inputs (customerOf src.maps pay)
    (num pay.amount) s (hkeys ▸ groups_nodup _ _ _ _)
  -- the match has a group, since its kind is that of an invoice
  cases hgroup : m.group with
  | none =>
    have hm' := hm
    rw [matchPartials_eq] at hm'
    obtain ⟨p, -, rfl⟩ := List.mem_map.mp hm'
    rw [payMatch_kind, hmk] at hgroup
    exact absurd hgroup hk
  | some key' =>
    have hmem := exists_group src.maps src.look payDate _ hm hgroup
    rw [← hkeys] at hmem
    obtain ⟨g, hg, hgk⟩ := List.mem_map.mp hmem
    obtain ⟨b, hb, hbk⟩ := exists_allocation src.maps src.inputs (customerOf src.maps pay)
      (num pay.amount) s hg
    obtain ⟨n', hb'⟩ := mem_zipIdx hb
    rw [hgk] at hbk
    have hno : noOfGroup (allocationsOf src pay s) m.group = some n' := by
      rw [hgroup, ← hbk]
      exact noOfGroup_of_mem hnodup hb'
    rw [matchRow_no pay s.scale hno]
    constructor
    · rintro rfl
      rw [← hkey, ← hbk, eq_of_number hb' ha]
    · intro heq
      have hno' := noOfGroup_of_mem hnodup ha
      rw [hkey, ← heq, ← hgroup, hno] at hno'
      exact Option.some.inj hno'

/-- **The rows of a payment conserve it.** -/
theorem conserves_of_split (hc : Collected pay) (hs : splitTo (num pay.amount)
      (matchPartials src.maps src.look payDate (partialsOf src.payLines src.partials pay.id)) = some s) :
    Conserves src pay (rowsOf src pay payDate s)
      ((matchPartials src.maps src.look payDate
        (partialsOf src.payLines src.partials pay.id)).payMatches.map
          (matchRow pay (allocationsOf src pay s) s.scale)) := by
  have hamount : num pay.amount ≠ 0 := by
    intro h
    have := hc.amount
    rw [h, abs_zero] at this
    revert this
    unfold EPS
    norm_num
  have hsum := allocate_sum src.maps src.inputs (customerOf src.maps pay) (num pay.amount) s
  refine ⟨⟨?_, ?_⟩, ?_, ?_, ?_, ⟨?_, ?_⟩, ?_, ?_, ?_, ?_⟩
  · intro r hr
    obtain ⟨a, -, rfl⟩ := List.mem_map.mp hr
    rfl
  · intro m hm
    obtain ⟨p, -, rfl⟩ := List.mem_map.mp hm
    rfl
  · rw [List.map_map, List.length_map, List.length_zipIdx]
    exact List.zipIdx_map_snd 1 _
  · rw [rowsOf_map (g := Allocation.part) fun _ _ => rfl]
    exact hsum
  · intro r hr
    obtain ⟨a, -, rfl⟩ := List.mem_map.mp hr
    rfl
  · rw [rowsOf_map (g := fun a => a.part / num pay.amount) fun _ _ => rfl]
    have hdiv := sum_map_mul (num pay.amount)⁻¹ ((allocationsOf src pay s).map Allocation.part)
    rw [List.map_map, hsum, mul_inv_cancel₀ hamount] at hdiv
    exact hdiv
  · intro r hr
    obtain ⟨a, -, rfl⟩ := List.mem_map.mp hr
    rfl
  · rw [rowsOf_map (g := fun a => num pay.amountCompanyCurrencySigned * (a.part / num pay.amount))
      fun _ _ => rfl]
    have hdiv := sum_map_mul (num pay.amountCompanyCurrencySigned / num pay.amount)
      ((allocationsOf src pay s).map Allocation.part)
    rw [List.map_map, hsum, mul_div_cancel₀ _ hamount] at hdiv
    refine Eq.trans (congrArg List.sum (List.map_congr_left fun a _ => ?_)) hdiv
    simp only [Function.comp_apply]
    ring
  · intro r hr hinv k hk
    obtain ⟨⟨a, n⟩, ha, rfl⟩ := List.mem_map.mp hr
    have hmem : a ∈ allocationsOf src pay s := by
      rw [← List.zipIdx_map_fst 1 (allocationsOf src pay s)]
      exact List.mem_map_of_mem ha
    obtain ⟨g, hg, hgroup, happlied⟩ := allocate_invoice src.maps src.inputs _ _ s hmem hinv
    rw [splitTo_some hs] at hg
    obtain ⟨g₀, hg₀, rfl⟩ := List.mem_map.mp hg
    have hfigure := group_applied src.maps src.look payDate _ hg₀ hk
    have hrow : (factRow src.maps src.inputs pay (num pay.amount) payDate a n).applied k =
        a.applied k := by
      cases k <;> rfl
    rw [hrow, happlied k hk, Group.applied_scale, hfigure, ← sum_map_mul, List.filter_map,
      List.map_map, List.map_map]
    congr 1
    have hfilter := List.filter_congr (p := (fun m : MatchRow =>
        decide (m.allocationNo = n ∧ m.kind = k)) ∘ matchRow pay (allocationsOf src pay s) s.scale)
      (q := fun m : PayMatch => decide (m.group = some g₀.key ∧ m.kind = k))
      (fun m hm => decide_eq_decide.mpr (matchRows_of_invoice hs ha hgroup hk hm))
    exact congrArg _ hfilter
  · rw [matchPartials_eq, List.map_map, List.map_map]
    rfl
  · intro m hm
    obtain ⟨p, -, rfl⟩ := List.mem_map.mp hm
    have hpoint : ∃ a, (a, (matchRow pay (allocationsOf src pay s) s.scale p).allocationNo) ∈
        (allocationsOf src pay s).zipIdx 1 := by
      unfold matchRow
      cases hno : noOfGroup (allocationsOf src pay s) p.group with
      | some n =>
        obtain ⟨a, ha, -⟩ := mem_of_noOfGroup hno
        exact ⟨a, ha⟩
      | none =>
        cases hno' : noOfGroup (allocationsOf src pay s) none with
        | some n =>
          obtain ⟨a, ha, -⟩ := mem_of_noOfGroup hno'
          exact ⟨a, ha⟩
        | none =>
          cases hall : allocationsOf src pay s with
          | nil =>
            rw [show allocate _ _ _ _ _ = [] from hall] at hsum
            exact absurd hsum.symm hamount
          | cons a rest => exact ⟨a, by simp⟩
    obtain ⟨a, ha⟩ := hpoint
    exact ⟨_, List.mem_map_of_mem ha, rfl⟩

end Payment

/-! ## The transform -/

/-- The rows a payment has to have: those that conserve it, or none. -/
def Accounted (src : Source) (pay : Payment) (rows : List FactRow) (matchRows : List MatchRow) :
    Prop :=
  (Collected pay → Conserves src pay rows matchRows) ∧
    (¬ Collected pay → rows = [] ∧ matchRows = [])

theorem collect_eq_none {src : Source} {pay : Payment} :
    collect src pay = none ↔ Indivisible src pay := by
  unfold collect Indivisible
  rw [collectable_iff]
  cases hc : collectable pay with
  | error skip => simp
  | ok payDate =>
    simp only [Except.ok.injEq, exists_eq', true_and]
    cases hs : splitTo (num pay.amount)
        (matchPartials src.maps src.look payDate (partialsOf src.payLines src.partials pay.id)) with
    | none =>
      rw [splitTo_eq_none, appliedTotal_eq] at hs
      simpa using hs
    | some s =>
      simp only [reduceCtorEq, false_iff]
      intro h
      rw [splitTo_eq_none.mpr (by rwa [appliedTotal_eq])] at hs
      cases hs

theorem collect_accounted {src : Source} {pay : Payment} {part : Part}
    (h : collect src pay = some part) : Accounted src pay part.rows part.matchRows := by
  unfold collect at h
  split at h
  · next skip hc =>
    cases h
    refine ⟨fun hp => ?_, fun _ => ⟨rfl, rfl⟩⟩
    obtain ⟨payDate, hok⟩ := collectable_iff.mp hp
    rw [hc] at hok
    cases hok
  · next payDate hc =>
    simp only at h
    split at h
    · cases h
    · next s hs =>
      cases h
      refine ⟨fun hp => conserves_of_split hp hs, fun hp => ?_⟩
      exact absurd (collectable_iff.mpr ⟨payDate, hc⟩) hp

theorem Accounted.own {src : Source} {pay : Payment} {rows : List FactRow}
    {matchRows : List MatchRow} (h : Accounted src pay rows matchRows) :
    (∀ r ∈ rows, r.paymentId = pay.id) ∧ ∀ m ∈ matchRows, m.paymentId = pay.id := by
  by_cases hc : Collected pay
  · exact (h.1 hc).own
  · obtain ⟨rfl, rfl⟩ := h.2 hc
    simp

/-- **Payments are conserved.** The transform fails only on a payment below zero whose
partials come to nothing; otherwise its output falls into the rows of the payments, one
after the other, and with distinct ids those are the rows that carry the payment's id. -/
theorem collections_conserve (src : Source) (payments : List Payment) :
    (buildCollections src payments = none ↔ ∃ pay ∈ payments, Indivisible src pay) ∧
    ∀ out, buildCollections src payments = some out →
      (∃ parts : List (List FactRow × List MatchRow),
        out.fact = parts.flatMap (·.1) ∧ out.matchRows = parts.flatMap (·.2) ∧
          List.Forall₂ (fun pay part => Accounted src pay part.1 part.2) payments parts) ∧
      ((payments.map (·.id)).Nodup → ∀ pay ∈ payments,
        Accounted src pay (out.fact.filter (·.paymentId = pay.id))
          (out.matchRows.filter (·.paymentId = pay.id))) := by
  constructor
  · unfold buildCollections
    rw [Option.map_eq_none_iff, Loops.mapM_eq_none]
    simp only [collect_eq_none]
  · intro out h
    unfold buildCollections at h
    obtain ⟨parts, hparts, rfl⟩ := Option.map_eq_some_iff.mp h
    have hall := (Loops.mapM_eq_some.mp hparts).imp fun _ _ => collect_accounted
    refine ⟨⟨parts.map fun part => (part.rows, part.matchRows), ?_, ?_, ?_⟩, ?_⟩
    · rw [List.flatMap_map]
    · rw [List.flatMap_map]
    · rw [List.forall₂_map_right_iff]
      exact hall
    · intro hn pay hpay
      have hfact := Loops.filter_flatMap_of_key Payment.id FactRow.paymentId Part.rows hall (fun _ _ h => h.own.1) hn
      have hmatch := Loops.filter_flatMap_of_key Payment.id MatchRow.paymentId Part.matchRows hall (fun _ _ h => h.own.2) hn
      obtain ⟨part, hmem⟩ : ∃ part, (pay, part) ∈ payments.zip parts := by
        rw [← List.map_fst_zip hall.length_eq.le] at hpay
        obtain ⟨⟨_, part⟩, hmem, rfl⟩ := List.mem_map.mp hpay
        exact ⟨part, hmem⟩
      have hrows := (List.forall₂_iff_zip.mp hfact).2 hmem
      have hmatches := (List.forall₂_iff_zip.mp hmatch).2 hmem
      simp only at hrows hmatches ⊢
      rw [hrows, hmatches]
      exact (List.forall₂_iff_zip.mp hall).2 hmem

/-! ## Concrete payments -/

/-- A payment line of an invoice of salesperson 1, due before the payment. -/
def plainSource (amount : ℚ) : Source where
  payLines := [⟨11, some 1, some "asset_receivable"⟩]
  partials := [⟨1, some 1001, some 11, some amount, some amount, some amount, none⟩]
  look := ⟨fun id => if id = 1001 then some ⟨some 2001, some ⟨2026, 8, 1⟩, some ⟨2026, 9, 1⟩⟩ else none,
    fun id => if id = 2001 then some ⟨some "INV1", some "out_invoice", some 10, some 7, none⟩ else none⟩
  maps := ⟨fun _ => some 500, fun _ => some 1, fun _ => some ("TEAM-A", false), fun _ => none, [1]⟩
  inputs := ⟨[102], fun _ => some 3, []⟩

def plainPayment (amount : ℚ) : Payment :=
  ⟨1, some "PAY1", some ⟨2026, 9, 15⟩, some "posted", some 500, some 1, some 102, some amount,
    some amount, false⟩

/-- Partials that exceed the payment are scaled down to it. -/
theorem collections_conserve_scaled :
    ∃ out, buildCollections (plainSource 120) [plainPayment 100] = some out ∧
      out.stats.skipped = [(.applied_scaled_to_amount, 1)] ∧
      Accounted (plainSource 120) (plainPayment 100) (out.fact.filter (·.paymentId = 1))
        (out.matchRows.filter (·.paymentId = 1)) := by
  have hskipped : (buildCollections (plainSource 120) [plainPayment 100]).map
      (·.stats.skipped) = some [(.applied_scaled_to_amount, 1)] := by decide +kernel
  obtain ⟨out, hout, hskip⟩ := Option.map_eq_some_iff.mp hskipped
  have h := (collections_conserve (plainSource 120) [plainPayment 100]).2 out hout
  exact ⟨out, hout, hskip, h.2 (by simp) _ List.mem_cons_self⟩

/-- A payment below the threshold does have rows when it is below zero. -/
theorem collections_negative :
    ∃ out, buildCollections (plainSource 50) [plainPayment (-100)] = some out ∧
      ¬ EPS ≤ num (plainPayment (-100)).amount ∧ out.fact ≠ [] := by
  have hrows : (buildCollections (plainSource 50) [plainPayment (-100)]).map
      (fun out => out.fact.length) = some 1 := by decide +kernel
  obtain ⟨out, hout, hlen⟩ := Option.map_eq_some_iff.mp hrows
  refine ⟨out, hout, by decide +kernel, ?_⟩
  intro h
  rw [h] at hlen
  cases hlen

end SalesDashboard.Collections
