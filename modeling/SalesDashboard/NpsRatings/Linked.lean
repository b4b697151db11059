import SalesDashboard.NpsRatings.Transform

/-! The ratings and comments of a build: each row in one place, each comment at its
delivery's rating, and no difference from the order of what is read. -/

namespace SalesDashboard.NpsRatings
open Conformed Python Firsts

/-! ## Orders that do not matter -/

/-- Lists with the same members have the same distinct ones. -/
theorem firsts_perm {α : Type*} [DecidableEq α] {xs ys : List α} (h : ∀ a, a ∈ xs ↔ a ∈ ys) :
    (firsts xs).Perm (firsts ys) :=
  (List.perm_ext_iff_of_nodup (nodup_firsts xs) (nodup_firsts ys)).mpr fun a => by
    rw [mem_firsts, mem_firsts]
    exact h a

theorem narrow_perm {xs ys : List Candidate} (h : xs.Perm ys) (p : Candidate → Bool) :
    (narrow p xs).Perm (narrow p ys) := by
  unfold narrow
  by_cases hx : xs.filter p = []
  · have hy : ys.filter p = [] := List.Perm.nil_eq (hx ▸ h.filter p) |>.symm
    rw [if_pos hx, if_pos hy]
    exact h
  · have hy : ys.filter p ≠ [] := fun hy => hx (List.Perm.eq_nil (hy ▸ h.filter p))
    rw [if_neg hx, if_neg hy]
    exact h.filter p

theorem narrow_if_perm {xs ys : List Candidate} (h : xs.Perm ys) (known : Prop) [Decidable known] (p : Candidate → Bool) :
    (if 1 < xs.length ∧ known then narrow p xs else xs).Perm (if 1 < ys.length ∧ known then narrow p ys else ys) := by
  rw [h.length_eq]
  split
  · exact narrow_perm h p
  · exact h

/-- The one value of a list, however it is ordered. -/
theorem single_perm {α : Type*} {xs ys : List α} (h : xs.Perm ys) :
    (if xs.length = 1 then xs.head? else none) = if ys.length = 1 then ys.head? else none := by
  rw [h.length_eq]
  split
  · rename_i hlen
    obtain ⟨c, hc⟩ := List.length_eq_one_iff.mp hlen
    rw [hc] at h ⊢
    rw [List.perm_singleton.mp h]
  · rfl

/-- The match of a name does not depend on the order of its candidates, nor on repetitions. -/
theorem pick_congr {xs ys : List Candidate} (h : ∀ c, c ∈ xs ↔ c ∈ ys) (customerKey companyHint : Int) :
    pick xs customerKey companyHint = pick ys customerKey companyHint := by
  have hperm := narrow_if_perm (narrow_if_perm (firsts_perm h) (customerKey ≠ UNKNOWN) (·.customer = customerKey))
    (companyHint ≠ UNKNOWN) (·.company = companyHint)
  unfold pick
  exact single_perm hperm

theorem pickings_congr {xs ys : List Candidate} (h : ∀ c, c ∈ xs ↔ c ∈ ys) (company customer : Int) :
    (pickings xs company customer).Perm (pickings ys company customer) := by
  unfold pickings
  refine firsts_perm fun k => ?_
  simp only [List.mem_map, List.mem_filter, h]

theorem pickDelivery_congr {xs ys : List Candidate} (h : ∀ c, c ∈ xs ↔ c ∈ ys) (customerKey companyHint : Int) :
    pickDelivery xs customerKey companyHint = pickDelivery ys customerKey companyHint := by
  have hpick : pick (xs.map fun c => { c with key := 0 }) customerKey companyHint =
      pick (ys.map fun c => { c with key := 0 }) customerKey companyHint :=
    pick_congr (fun c => by simp only [List.mem_map, h]) _ _
  unfold pickDelivery
  rw [hpick]
  cases pick (ys.map fun c => { c with key := 0 }) customerKey companyHint with
  | none => rfl
  | some found =>
    have hids := single_perm (pickings_congr h found.company found.customer)
    have hone : ∀ ids : List Int, (if ids.length = 1 then ids.headD UNKNOWN else UNKNOWN) =
        (if ids.length = 1 then ids.head? else none).getD UNKNOWN := by
      intro ids
      split
      · exact List.headD_eq_head?_getD
      · rfl
    simp only [hone, hids]

/-- Rows with their own ids, in the order of their ids. -/
theorem sortedRows_perm {full full' : List RawRow} (h : full.Perm full') (hids : (full.map (·.id)).Nodup) :
    full.insertionSort (fun a b => a.id ≤ b.id) = full'.insertionSort fun a b => a.id ≤ b.id := by
  have hx := List.perm_insertionSort (fun a b : RawRow => a.id ≤ b.id) full
  have hy := List.perm_insertionSort (fun a b : RawRow => a.id ≤ b.id) full'
  have hperm := hx.trans (h.trans hy.symm)
  refine @List.Perm.eq_of_pairwise _ (fun a b : RawRow => a.id ≤ b.id) _ _ ?_ (List.pairwise_insertionSort _ full)
    (List.pairwise_insertionSort _ full') hperm
  intro a b ha hb hab hba
  exact List.inj_on_of_nodup_map hids (hx.mem_iff.mp ha) (hx.mem_iff.mp (hperm.mem_iff.mpr hb)) (le_antisymm hab hba)

/-! ## The rating of a comment -/

theorem ratingLe_total (a b : Int × Int) : ratingLe a b ∨ ratingLe b a := by
  unfold ratingLe
  omega

theorem ratingLe_trans {a b c : Int × Int} (hab : ratingLe a b) (hbc : ratingLe b c) : ratingLe a c := by
  unfold ratingLe at *
  omega

instance : Std.Total ratingLe := ⟨ratingLe_total⟩

instance : IsTrans (Int × Int) ratingLe := ⟨fun _ _ _ => ratingLe_trans⟩

theorem ratingLe_refl (a : Int × Int) : ratingLe a a := .inr ⟨rfl, le_refl a.2⟩

theorem ratingLe.time_le {a b : Int × Int} (h : ratingLe a b) : a.1 ≤ b.1 := by
  unfold ratingLe at h
  omega

/-- The last of ratings in order is the latest. -/
theorem ratingLe_getLast {xs : List (Int × Int)} (hsorted : xs.Pairwise ratingLe) {x : Int × Int}
    (hx : xs.getLast? = some x) : x ∈ xs ∧ ∀ y ∈ xs, ratingLe y x := by
  obtain ⟨ys, rfl⟩ := List.getLast?_eq_some_iff.mp hx
  refine ⟨List.mem_append_right ys (List.mem_singleton_self x), fun y hy => ?_⟩
  rcases List.mem_append.mp hy with hy | hy
  · exact (List.pairwise_append.mp hsorted).2.2 y hy x (List.mem_singleton_self x)
  · rw [List.mem_singleton.mp hy]
    exact ratingLe_refl x

/-- The latest rating at or before a comment, else the first after it. -/
theorem linkTo_spec {found : List (Int × Int)} (hsorted : found.Pairwise ratingLe) (hne : found ≠ []) (at' : Int) :
    ∃ x ∈ found, linkTo found (some at') = x.2 ∧
      ((x.1 ≤ at' ∧ ∀ y ∈ found, y.1 ≤ at' → ratingLe y x) ∨ ∀ y ∈ found, at' < y.1 ∧ ratingLe x y) := by
  cases found with
  | nil => exact absurd rfl hne
  | cons first rest =>
    unfold linkTo
    simp only
    cases hlast : ((first :: rest).filter fun x => decide (x.1 ≤ at')).getLast? with
    | some x =>
      obtain ⟨hmem, hmax⟩ := ratingLe_getLast (hsorted.filter _) hlast
      obtain ⟨hx, hle⟩ := List.mem_filter.mp hmem
      exact ⟨x, hx, rfl, .inl ⟨of_decide_eq_true hle, fun y hy hyle =>
        hmax y (List.mem_filter.mpr ⟨hy, decide_eq_true hyle⟩)⟩⟩
    | none =>
      have hnone := List.filter_eq_nil_iff.mp (List.getLast?_eq_none_iff.mp hlast)
      refine ⟨first, List.mem_cons_self, rfl, .inr fun y hy => ⟨?_, ?_⟩⟩
      · have hlt := hnone y hy
        simpa using hlt
      · rcases List.mem_cons.mp hy with rfl | hy
        · exact ratingLe_refl y
        · exact List.rel_of_pairwise_cons hsorted hy

/-- A rating of a delivery at a time. -/
def Carries (r : Response) (code : String) (t : Int) : Prop := r.deliveryCode = some code ∧ r.ratedAtUtc = some t

theorem mem_ratingsOf {responses : List Response} {code : String} {t id : Int} :
    (t, id) ∈ ratingsOf responses code ↔ ∃ r ∈ responses, Carries r code t ∧ r.responseId = id := by
  unfold ratingsOf Carries
  rw [List.mem_filterMap]
  constructor
  · rintro ⟨r, hr, h⟩
    split at h
    · rename_i hcode
      obtain ⟨t', ht, heq⟩ := Option.map_eq_some_iff.mp h
      cases heq
      exact ⟨r, hr, ⟨hcode, ht⟩, rfl⟩
    · cases h
  · rintro ⟨r, hr, ⟨hcode, ht⟩, rfl⟩
    refine ⟨r, hr, ?_⟩
    rw [if_pos hcode, ht]
    rfl

/-- Where a comment belongs among the ratings. -/
structure LinkRule (responses : List Response) (c : Comment) : Prop where
  linked : ∀ at' code, c.commentedAtUtc = some at' → c.deliveryCode = some code →
    (∃ r ∈ responses, ∃ t, Carries r code t) →
    ∃ r ∈ responses, ∃ t, Carries r code t ∧ c.responseId = r.responseId ∧
      ((t ≤ at' ∧ ∀ r' ∈ responses, ∀ t', Carries r' code t' → t' ≤ at' → t' ≤ t) ∨
        ∀ r' ∈ responses, ∀ t', Carries r' code t' → at' < t' ∧ t ≤ t')
  other : (¬ ∃ at' code, c.commentedAtUtc = some at' ∧ c.deliveryCode = some code ∧
    ∃ r ∈ responses, ∃ t, Carries r code t) → c.responseId = UNKNOWN

/-- No delivery has an empty code. -/
def Coded (responses : List Response) : Prop := ∀ r ∈ responses, r.deliveryCode ≠ some ""

theorem linked_rule {responses : List Response} (hcoded : Coded responses) (c : Comment) :
    LinkRule responses (c.linked responses) := by
  have hmem : ∀ x code, x ∈ (ratingsOf responses code).insertionSort ratingLe ↔ x ∈ ratingsOf responses code :=
    fun x code => (List.perm_insertionSort ratingLe _).mem_iff
  constructor
  · intro at' code hat hcode hsome
    obtain ⟨r₀, hr₀, t₀, hcarry⟩ := hsome
    have hat' : c.commentedAtUtc = some at' := hat
    have hcode' : c.deliveryCode = some code := hcode
    have hne : (ratingsOf responses code).insertionSort ratingLe ≠ [] :=
      List.ne_nil_of_mem ((hmem _ _).mpr (mem_ratingsOf.mpr ⟨r₀, hr₀, hcarry, rfl⟩))
    obtain ⟨x, hx, hlink, hrule⟩ := linkTo_spec (List.pairwise_insertionSort ratingLe _) hne at'
    obtain ⟨r, hr, hcarries, hid⟩ := mem_ratingsOf.mp ((hmem x code).mp hx)
    refine ⟨r, hr, x.1, hcarries, ?_, ?_⟩
    · show linkTo ((ratingsOf responses (c.deliveryCode.getD "")).insertionSort ratingLe) c.commentedAtUtc = r.responseId
      rw [hcode', hat', hid]
      exact hlink
    · rcases hrule with ⟨hle, hmax⟩ | hafter
      · exact .inl ⟨hle, fun r' hr' t' hc hle' =>
          (hmax (t', r'.responseId) ((hmem _ _).mpr (mem_ratingsOf.mpr ⟨r', hr', hc, rfl⟩)) hle').time_le⟩
      · refine .inr fun r' hr' t' hc => ?_
        obtain ⟨hlt, hle⟩ := hafter (t', r'.responseId) ((hmem _ _).mpr (mem_ratingsOf.mpr ⟨r', hr', hc, rfl⟩))
        exact ⟨hlt, hle.time_le⟩
  · intro hno
    show linkTo ((ratingsOf responses (c.deliveryCode.getD "")).insertionSort ratingLe) c.commentedAtUtc = UNKNOWN
    cases hat : c.commentedAtUtc with
    | none => cases (ratingsOf responses (c.deliveryCode.getD "")).insertionSort ratingLe <;> rfl
    | some at' =>
      have hnil : ratingsOf responses (c.deliveryCode.getD "") = [] := by
        refine List.eq_nil_iff_forall_not_mem.mpr fun x hx => ?_
        obtain ⟨r, hr, hcarries, _⟩ := mem_ratingsOf.mp hx
        cases hcode : c.deliveryCode with
        | none =>
          rw [hcode] at hcarries
          exact hcoded r hr hcarries.1
        | some code =>
          rw [hcode] at hcarries
          exact hno ⟨at', code, hat, hcode, r, hr, x.1, hcarries⟩
      rw [hnil]
      rfl

/-! ## Documents -/

theorem mem_narrow {p : Candidate → Bool} {found : List Candidate} {c : Candidate} (h : c ∈ narrow p found) : c ∈ found := by
  unfold narrow at h
  split at h
  · exact h
  · exact (List.mem_filter.mp h).1

/-- A match is one of the candidates. -/
theorem mem_of_pick {candidates : List Candidate} {customerKey companyHint : Int} {c : Candidate}
    (h : pick candidates customerKey companyHint = some c) : c ∈ candidates := by
  have hif : ∀ {known : Prop} [Decidable known] {p : Candidate → Bool} {found : List Candidate},
      c ∈ (if 1 < found.length ∧ known then narrow p found else found) → c ∈ found := by
    intro known _ p found hmem
    split at hmem
    · exact mem_narrow hmem
    · exact hmem
  have hhead : ∀ {found : List Candidate}, (if found.length = 1 then found.head? else none) = some c → c ∈ found := by
    intro found hfound
    split at hfound
    · exact List.mem_of_head? hfound
    · cases hfound
  unfold pick at h
  exact mem_firsts.mp (hif (hif (hhead h)))

/-- A picking is the only one of the matched company and customer. -/
theorem pickDelivery_spec {candidates : List Candidate} {customerKey companyHint : Int}
    (h : (pickDelivery candidates customerKey companyHint).2 ≠ UNKNOWN) :
    ∃ d, (pickDelivery candidates customerKey companyHint).1 = some d ∧
      (∃ c ∈ candidates, c.key = (pickDelivery candidates customerKey companyHint).2 ∧ c.company = d.company ∧
        c.customer = d.customer) ∧
      ∀ c ∈ candidates, c.company = d.company → c.customer = d.customer → 0 < c.key →
        c.key = (pickDelivery candidates customerKey companyHint).2 := by
  unfold pickDelivery at h ⊢
  cases hpick : pick (candidates.map fun c => { c with key := 0 }) customerKey companyHint with
  | none =>
    rw [hpick] at h
    exact absurd rfl h
  | some d =>
    rw [hpick] at h
    simp only at h ⊢
    split at h
    · rename_i hlen
      obtain ⟨k, hk⟩ := List.length_eq_one_iff.mp hlen
      have hmem : ∀ j, j ∈ pickings candidates d.company d.customer ↔
          ∃ c ∈ candidates, (c.company = d.company ∧ c.customer = d.customer ∧ 0 < c.key) ∧ c.key = j := by
        intro j
        unfold pickings
        rw [mem_firsts]
        simp only [List.mem_map, List.mem_filter, decide_eq_true_eq, and_assoc]
      rw [if_pos hlen, hk]
      obtain ⟨c, hc, ⟨hco, hcu, _⟩, hkey⟩ := (hmem k).mp (hk ▸ List.mem_singleton_self k)
      refine ⟨d, rfl, ⟨c, hc, hkey, hco, hcu⟩, fun c' hc' hco' hcu' hpos => ?_⟩
      have hin := (hmem c'.key).mpr ⟨c', hc', ⟨hco', hcu', hpos⟩, rfl⟩
      rw [hk] at hin
      exact List.mem_singleton.mp hin
    · exact absurd rfl h

section
variable (m : KeyMaps) (lookups : Lookups)

/-- Which step gives the company of a row. -/
structure CompanyRule (r : RawRow) (companyKey : Int) (source : CompanySource) : Prop where
  order : ∀ o, r.order m lookups = some o → o.company ≠ UNKNOWN → companyKey = o.company ∧ source = .order
  delivery : (∀ o, r.order m lookups = some o → o.company = UNKNOWN) → ∀ d, (r.delivery m lookups).1 = some d →
    d.company ≠ UNKNOWN → companyKey = d.company ∧ source = .delivery
  name : (∀ o, r.order m lookups = some o → o.company = UNKNOWN) →
    (∀ d, (r.delivery m lookups).1 = some d → d.company = UNKNOWN) →
    (r.hint m ≠ UNKNOWN → companyKey = r.hint m ∧ source = .companyName) ∧
      (r.hint m = UNKNOWN → companyKey = UNKNOWN ∧ source = .none)

theorem company_rule (r : RawRow) : CompanyRule m lookups r (r.company m lookups).1 (r.company m lookups).2 := by
  have hfilter : ∀ {x : Option Candidate}, (∀ o, x = some o → o.company = UNKNOWN) →
      x.filter (fun c => decide (c.company ≠ UNKNOWN)) = none := by
    intro x hx
    cases x with
    | none => rfl
    | some o => exact Option.filter_some_neg (by simpa using hx o rfl)
  have hkeep : ∀ {o : Candidate}, o.company ≠ UNKNOWN →
      (some o).filter (fun c => decide (c.company ≠ UNKNOWN)) = some o :=
    fun h => Option.filter_some_pos (decide_eq_true h)
  unfold RawRow.company companyOf
  constructor
  · intro o ho hne
    rw [ho, hkeep hne]
    exact ⟨rfl, rfl⟩
  · intro hno d hd hne
    rw [hfilter hno, hd, hkeep hne]
    exact ⟨rfl, rfl⟩
  · intro hno hnd
    rw [hfilter hno, hfilter hnd]
    refine ⟨fun h => ?_, fun h => ?_⟩
    · have hcase : (if r.hint m ≠ UNKNOWN then (r.hint m, CompanySource.companyName) else (UNKNOWN, .none)) = _ := if_pos h
      exact ⟨congrArg Prod.fst hcase, congrArg Prod.snd hcase⟩
    · have hcase : (if r.hint m ≠ UNKNOWN then (r.hint m, CompanySource.companyName) else (UNKNOWN, .none)) = _ :=
        if_neg (not_not_intro h)
      exact ⟨congrArg Prod.fst hcase, congrArg Prod.snd hcase⟩

/-- Which documents a response may name. -/
structure DocumentRule (r : RawRow) (salesOrderKey pickingId : Int) : Prop where
  order : salesOrderKey ≠ UNKNOWN → ∃ c ∈ lookups.orders r.orderRef, c.key = salesOrderKey
  picking : pickingId ≠ UNKNOWN → ∃ d, (r.delivery m lookups).1 = some d ∧
    (∃ c ∈ lookups.deliveries r.code, c.key = pickingId ∧ c.company = d.company ∧ c.customer = d.customer) ∧
    ∀ c ∈ lookups.deliveries r.code, c.company = d.company → c.customer = d.customer → 0 < c.key → c.key = pickingId

theorem document_rule (r : RawRow) :
    DocumentRule m lookups r (((r.order m lookups).map (·.key)).getD UNKNOWN) (r.delivery m lookups).2 := by
  constructor
  · intro hne
    cases horder : r.order m lookups with
    | none =>
      rw [horder] at hne
      exact absurd rfl hne
    | some c =>
      unfold RawRow.order at horder
      split at horder
      · cases horder
      · exact ⟨c, mem_of_pick horder, rfl⟩
  · intro hne
    unfold RawRow.delivery at hne ⊢
    split at hne
    · exact absurd rfl hne
    · rename_i hcode
      rw [if_neg hcode]
      exact pickDelivery_spec hne

end

end SalesDashboard.NpsRatings
