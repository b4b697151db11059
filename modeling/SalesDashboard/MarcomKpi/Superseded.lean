import SalesDashboard.MarcomKpi.Digital
import Mathlib

/-! The rows that count on the Digital page, and its follower figures. A cell counts rows
of brands or rows without one, never both, and a follower figure depends on the latest
counted row of each key alone. -/

namespace SalesDashboard.MarcomKpi
open Grouping Latest Keyed

/-! ## Superseded rows -/

section Superseded
variable {T κ : Type} [DecidableEq κ] {brandId : T → Option ℕ} {cell : T → κ} {rows : List T} {a b : T}

omit [DecidableEq κ] in
theorem mem_branded {k : κ} : k ∈ (rows.filter fun r => (brandId r).isSome).map cell ↔
    ∃ b ∈ rows, (brandId b).isSome = true ∧ cell b = k := by
  simp only [List.mem_map, List.mem_filter, and_assoc]

theorem mem_dropSupersededLegacy : a ∈ dropSupersededLegacy brandId cell rows ↔
    a ∈ rows ∧ ((brandId a).isSome = true ∨ ∀ b ∈ rows, (brandId b).isSome = true → cell b ≠ cell a) := by
  unfold dropSupersededLegacy
  rw [List.mem_filter, Bool.or_eq_true, decide_eq_true_eq, mem_branded]
  simp only [not_exists, not_and, ne_eq]

/-- **One kind of row in a cell.** -/
theorem same_cell_same_kind (ha : a ∈ dropSupersededLegacy brandId cell rows)
    (hb : b ∈ dropSupersededLegacy brandId cell rows) (hcell : cell a = cell b) :
    (brandId a).isSome = (brandId b).isSome := by
  obtain ⟨hina, hkepta⟩ := mem_dropSupersededLegacy.mp ha
  obtain ⟨hinb, hkeptb⟩ := mem_dropSupersededLegacy.mp hb
  cases hsa : (brandId a).isSome with
  | true =>
    cases hsb : (brandId b).isSome with
    | true => rfl
    | false =>
      rcases hkeptb with h | h
      · rw [hsb] at h
        cases h
      · exact absurd hcell (h a hina hsa)
  | false =>
    cases hsb : (brandId b).isSome with
    | true =>
      rcases hkepta with h | h
      · rw [hsa] at h
        cases h
      · exact absurd hcell.symm (h b hinb hsb)
    | false => rfl

theorem dropSupersededLegacy_self :
    dropSupersededLegacy brandId cell (dropSupersededLegacy brandId cell rows) =
      dropSupersededLegacy brandId cell rows := by
  have hall : ∀ a ∈ dropSupersededLegacy brandId cell rows,
      a ∈ dropSupersededLegacy brandId cell (dropSupersededLegacy brandId cell rows) := by
    intro a ha
    refine mem_dropSupersededLegacy.mpr ⟨ha, ?_⟩
    refine (mem_dropSupersededLegacy.mp ha).2.imp_right fun h b hb hsome => ?_
    exact h b (mem_dropSupersededLegacy.mp hb).1 hsome
  conv_lhs => unfold dropSupersededLegacy
  exact List.filter_eq_self.mpr fun a ha => (List.mem_filter.mp (hall a ha)).2

/-- What a new row leaves of a row that counted: a row of a brand drops those without one
from its cell. -/
def leaves (brandId : T → Option ℕ) (cell : T → κ) (r a : T) : Bool :=
  (brandId a).isSome || (brandId r).isNone || decide (cell a ≠ cell r)

/-- A row more: what counted before counts but for what it supersedes, and the row itself
may count. -/
theorem dropSupersededLegacy_insert (xs ys : List T) (r : T) :
    ∃ as bs, as ++ bs = (dropSupersededLegacy brandId cell (xs ++ ys)).filter (leaves brandId cell r) ∧
      (dropSupersededLegacy brandId cell (xs ++ r :: ys) = as ++ r :: bs ∨
        dropSupersededLegacy brandId cell (xs ++ r :: ys) = as ++ bs) := by
  set branded := ((xs ++ ys).filter fun b => (brandId b).isSome).map cell with hbranded
  set branded' := ((xs ++ r :: ys).filter fun b => (brandId b).isSome).map cell with hbranded'
  have hmem : ∀ k, k ∈ branded' ↔ k ∈ branded ∨ (brandId r).isSome = true ∧ k = cell r := by
    intro k
    rw [hbranded, hbranded', mem_branded, mem_branded]
    simp only [List.mem_append, List.mem_cons]
    grind
  have hkept : ∀ a, ((brandId a).isSome || decide (cell a ∉ branded')) =
      (leaves brandId cell r a && ((brandId a).isSome || decide (cell a ∉ branded))) := by
    intro a
    unfold leaves
    have hk := hmem (cell a)
    cases hsr : brandId r with
    | none =>
      have hiff : cell a ∈ branded' ↔ cell a ∈ branded := by simpa [hsr] using hk
      simp [hiff]
    | some id =>
      have hiff : cell a ∈ branded' ↔ cell a ∈ branded ∨ cell a = cell r := by simpa [hsr] using hk
      cases brandId a with
      | some id' => simp
      | none =>
        simp only [Option.isSome_none, Bool.false_or, Option.isNone_some, hiff, not_or, Bool.decide_and,
          ne_eq, Bool.and_comm]
  refine ⟨xs.filter fun a => (brandId a).isSome || decide (cell a ∉ branded'),
    ys.filter fun a => (brandId a).isSome || decide (cell a ∉ branded'), ?_, ?_⟩
  · unfold dropSupersededLegacy
    rw [← hbranded, List.filter_filter, ← List.filter_append]
    exact List.filter_congr fun a _ => hkept a
  · unfold dropSupersededLegacy
    rw [← hbranded', List.filter_append, List.filter_cons]
    by_cases hr : ((brandId r).isSome || decide (cell r ∉ branded')) = true
    · exact .inl (by rw [if_pos hr])
    · exact .inr (by rw [if_neg hr])

end Superseded

/-! ## Follower figures -/

variable {toLowerCase : String → String} {rows rows' : List SocialRow}

theorem newest_spec (first : SocialRow) (rest : List SocialRow) :
    newest first rest ∈ first :: rest ∧ ∀ r ∈ first :: rest, r.month ≤ (newest first rest).month := by
  unfold newest
  induction rest generalizing first with
  | nil => simp
  | cons b rest ih =>
    rw [List.foldl_cons]
    obtain ⟨hmem, hle⟩ := ih (if first.month < b.month then b else first)
    have hstep : first.month ≤ (if first.month < b.month then b else first).month ∧
        b.month ≤ (if first.month < b.month then b else first).month := by
      split
      · next h => exact ⟨h.le, le_rfl⟩
      · next h => exact ⟨le_rfl, not_lt.mp h⟩
    have hfirst := hle _ List.mem_cons_self
    constructor
    · rcases List.mem_cons.mp hmem with h | h
      · rw [h]
        split <;> simp
      · exact List.mem_cons_of_mem _ (List.mem_cons_of_mem _ h)
    · intro r hr
      rcases List.mem_cons.mp hr with rfl | hr
      · exact hstep.1.trans hfirst
      · rcases List.mem_cons.mp hr with rfl | hr
        · exact hstep.2.trans hfirst
        · exact hle r (List.mem_cons_of_mem _ hr)

/-- The order of the snapshots of a year does not matter. -/
theorem pickedFollowers_perm {picked picked' : List SocialRow} {year : ℕ}
    (hyear : ∀ r ∈ picked, r.year = year) (hperm : picked.Perm picked') :
    pickedFollowers picked = pickedFollowers picked' := by
  cases picked with
  | nil => rw [hperm.nil_eq]
  | cons first rest =>
    cases picked' with
    | nil => exact absurd hperm.symm.nil_eq (by simp)
    | cons first' rest' =>
      obtain ⟨hmem, hle⟩ := newest_spec first rest
      obtain ⟨hmem', hle'⟩ := newest_spec first' rest'
      have hmonth : (newest first rest).month = (newest first' rest').month :=
        le_antisymm (hle' _ (hperm.mem_iff.mp hmem)) (hle _ (hperm.mem_iff.mpr hmem'))
      simp only [pickedFollowers]
      rw [(hperm.map (·.followers)).sum_eq, hmonth, hyear _ hmem, hyear _ (hperm.mem_iff.mpr hmem')]

/-- The latest row of a key, among some rows. -/
abbrev snapshotOf (toLowerCase : String → String) (rows : List SocialRow)
    (k : Option ℕ × Platform × String) : Option SocialRow :=
  latestOf (·.month) (followerKey toLowerCase) rows k

/-- **A follower figure depends on the latest rows alone.** -/
theorem latestFollowers_congr {year : ℕ} (hyear : ∀ r ∈ rows, r.year = year)
    (h : ∀ k, snapshotOf toLowerCase rows k = snapshotOf toLowerCase rows' k) :
    latestFollowers toLowerCase rows = latestFollowers toLowerCase rows' := by
  have hperm := (perm_snapshots h).filterMap Prod.snd
  refine @pickedFollowers_perm _ _ year ?_ hperm
  intro r hr
  obtain ⟨⟨k, o⟩, hmem, ho⟩ := List.mem_filterMap.mp hr
  obtain ⟨-, hlatest⟩ := mem_snapshots.mp hmem
  have ho : o = some r := ho
  rw [ho] at hlatest
  exact hyear r (List.mem_of_mem_filter (latest_mem hlatest.symm))

/-- The same of the rows of a class of keys, such as a platform or a brand. -/
theorem latestFollowers_class {ι : Type} [DecidableEq ι] (cls : Option ℕ × Platform × String → ι) (c : ι)
    {year : ℕ} (hyear : ∀ r ∈ rows, r.year = year)
    (h : ∀ k, snapshotOf toLowerCase rows k = snapshotOf toLowerCase rows' k) :
    latestFollowers toLowerCase (rows.filter fun r => decide (cls (followerKey toLowerCase r) = c)) =
      latestFollowers toLowerCase (rows'.filter fun r => decide (cls (followerKey toLowerCase r) = c)) := by
  refine latestFollowers_congr (fun r hr => hyear r (List.mem_of_mem_filter hr)) fun k => ?_
  rw [snapshotOf, snapshotOf, latestOf_class, latestOf_class]
  exact congrArg (if cls k = c then · else none) (h k)

/-- A missing figure counts nothing. -/
theorem latestFollowers_getD (toLowerCase : String → String) (rows : List SocialRow) :
    (latestFollowers toLowerCase rows).value.getD 0 =
      ((snapshots (·.month) (followerKey toLowerCase) rows).map fun e =>
        (e.2.map (·.followers)).getD 0).sum := by
  have hsum : ∀ picked, (pickedFollowers picked).value.getD 0 = (picked.map (·.followers)).sum := by
    intro picked
    cases picked <;> simp [pickedFollowers]
  rw [latestFollowers, hsum]
  induction snapshots (·.month) (followerKey toLowerCase) rows with
  | nil => rfl
  | cons e es ih =>
    obtain ⟨k, o⟩ := e
    cases o with
    | none => simpa using ih
    | some r => simp [ih]

theorem latestFollowers_value_none (toLowerCase : String → String) (rows : List SocialRow) :
    (latestFollowers toLowerCase rows).value = none ↔ rows = [] := by
  have hnone : ∀ picked, (pickedFollowers picked).value = none ↔ picked = [] := by
    intro picked
    cases picked <;> simp [pickedFollowers]
  rw [latestFollowers, hnone, List.filterMap_eq_nil_iff]
  constructor
  · intro h
    by_contra hne
    obtain ⟨r, hr⟩ := List.exists_mem_of_ne_nil _ hne
    have hkey := List.mem_map_of_mem (f := followerKey toLowerCase) hr
    have hsome := (@mem_keys_iff _ _ _ _ _ (·.month) (followerKey toLowerCase) rows _).mp hkey
    exact hsome (h (_, _) (mem_snapshots.mpr ⟨hkey, rfl⟩))
  · rintro rfl e he
    cases he

/-! ## An older snapshot -/

section Older
variable {input : DigitalInput} {xs ys : List SocialRow} {r : SocialRow}

/-- A counted row of the key of `r` is later. -/
def Outdated (toLowerCase : String → String) (input : DigitalInput) (r : SocialRow) : Prop :=
  ∃ s ∈ input.keptSocial, followerKey toLowerCase s = followerKey toLowerCase r ∧ r.month < s.month

/-- What the row supersedes is out of date too. -/
def SupersedesOutdated (toLowerCase : String → String) (input : DigitalInput) (r : SocialRow) : Prop :=
  r.brandId.isSome = true → ∀ l ∈ input.keptSocial, l.brandId = none → l.cell = r.cell →
    Outdated toLowerCase input l

/-- **An outdated row more** leaves the snapshot of every key. -/
theorem snapshotOf_insert (hsocial : input.social = xs ++ ys) (hold : Outdated toLowerCase input r)
    (hdrop : SupersedesOutdated toLowerCase input r) (k : Option ℕ × Platform × String) :
    snapshotOf toLowerCase { input with social := xs ++ r :: ys }.keptSocial k =
      snapshotOf toLowerCase input.keptSocial k := by
  obtain ⟨as, bs, hcommon, hinsert⟩ :=
    @dropSupersededLegacy_insert _ _ _ (·.brandId) (·.cell) xs ys r
  rw [← hsocial] at hcommon
  -- what both count, and what each counts beyond it
  have hbefore : snapshotOf toLowerCase (as ++ bs) k = snapshotOf toLowerCase input.keptSocial k := by
    rw [hcommon, snapshotOf, snapshotOf, latestOf, latestOf, rowsOf_filter]
    refine latest_filter fun l hl hgone => ?_
    obtain ⟨hmem, hkey⟩ := List.mem_filter.mp hl
    have hkey := of_decide_eq_true hkey
    simp only [leaves, Bool.or_eq_false_iff, decide_eq_false_iff_not, not_not] at hgone
    obtain ⟨⟨hlegacy, hbranded⟩, hcell⟩ := hgone
    obtain ⟨s, hs, hskey, hlt⟩ := hdrop (by simpa using hbranded) l hmem (by simpa using hlegacy) hcell
    refine ⟨s, List.mem_filter.mpr ⟨hs, decide_eq_true (hskey.trans hkey)⟩, ?_, hlt⟩
    have hne : s.cell ≠ r.cell := by
      intro heq
      have hmonth : s.month = l.month := by
        have h := heq.trans hcell.symm
        simp only [SocialRow.cell, Prod.mk.injEq] at h
        exact h.2.1
      omega
    simp [leaves, hne]
  have hafter : snapshotOf toLowerCase (as ++ r :: bs) k = snapshotOf toLowerCase (as ++ bs) k := by
    simp only [snapshotOf, latestOf, rowsOf, List.filter_append, List.filter_cons]
    split
    · next hk =>
      have hk := of_decide_eq_true hk
      obtain ⟨s, hs, hskey, hlt⟩ := hold
      refine latest_insert ⟨s, ?_, hlt⟩
      rw [← List.filter_append, hcommon]
      refine List.mem_filter.mpr ⟨List.mem_filter.mpr ⟨hs, ?_⟩, decide_eq_true (hskey.trans hk)⟩
      have hbrand : s.brandId = r.brandId := congrArg Prod.fst hskey
      simp only [leaves, hbrand]
      cases r.brandId <;> simp
    · rfl
  rw [← hbefore, ← hafter]
  rcases hinsert with h | h
  · exact congrArg (snapshotOf toLowerCase · k) h
  · rw [hafter]
    exact congrArg (snapshotOf toLowerCase · k) h

end Older

end SalesDashboard.MarcomKpi
