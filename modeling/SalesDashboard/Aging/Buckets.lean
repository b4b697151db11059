import SalesDashboard.Lib.Ranges

/-! The receivable aging buckets and their validation (`aging.py`). -/

namespace SalesDashboard.Aging
open Ranges

/-! ## The buckets -/

/-- Bounds are inclusive; `none` is an open end. -/
structure AgingBucket where
  key : Int
  label : String
  minDays : Option Int
  maxDays : Option Int
  deriving DecidableEq

def AGING_BUCKETS : List AgingBucket :=
  [⟨1, "Not due 60+", none, some (-61)⟩,
    ⟨2, "Not due 31-60", some (-60), some (-31)⟩,
    ⟨3, "Not due 16-30", some (-30), some (-16)⟩,
    ⟨4, "Not due 0-15", some (-15), some 0⟩,
    ⟨5, "Overdue 1-30", some 1, some 30⟩,
    ⟨6, "Overdue 31-60", some 31, some 60⟩,
    ⟨7, "Overdue 61-90", some 61, some 90⟩,
    ⟨8, "Overdue 90+", some 91, none⟩]

inductive Raised
  | valueError (text : String)
  | indexError
  deriving DecidableEq

def byKey (a b : AgingBucket) : Prop := a.key ≤ b.key

instance : DecidableRel byKey := fun a b => inferInstanceAs (Decidable (a.key ≤ b.key))

instance : Std.Total byKey := ⟨fun a b => Int.le_total a.key b.key⟩

instance : IsTrans AgingBucket byKey := ⟨fun _ _ _ => Int.le_trans⟩

/-- The second bucket starts the day after the first one ends. -/
def follows (a b : AgingBucket) : Bool :=
  match a.maxDays, b.minDays with
  | some hi, some lo => decide (lo = hi + 1)
  | _, _ => false

def checkNeighbours : List AgingBucket → Except Raised Unit
  | a :: b :: rest =>
      if follows a b then checkNeighbours (b :: rest)
      else .error (.valueError
        ("aging buckets '" ++ a.label ++ "' and '" ++ b.label ++ "' leave a gap or overlap"))
  | _ => .ok ()

def validateBuckets (buckets : List AgingBucket) : Except Raised Unit :=
  let ordered := buckets.insertionSort byKey
  match ordered.head?, ordered.getLast? with
  | some first, some last =>
      if first.minDays.isSome || last.maxDays.isSome then
        .error (.valueError "the first bucket must have no lower bound and the last no upper bound")
      else checkNeighbours ordered
  | _, _ => .error .indexError

def AgingBucket.range (b : AgingBucket) : Range ℤ := ⟨b.minDays, b.maxDays⟩

def AgingBucket.has (b : AgingBucket) (daysPastDue : Int) : Bool := b.range.has daysPastDue

def bucketKey (daysPastDue : Int) (buckets : List AgingBucket) : Except Raised Int :=
  match buckets.find? (·.has daysPastDue) with
  | some b => .ok b.key
  | none => .error (.valueError ("no aging bucket for " ++ toString daysPastDue ++ " day(s)"))

/-! ## What the validation says -/

theorem follows_iff {a b : AgingBucket} : follows a b = true ↔ Follows (· + 1) a.range b.range := by
  obtain ⟨ka, la, mina, maxa⟩ := a
  obtain ⟨kb, lb, minb, maxb⟩ := b
  cases maxa <;> cases minb <;> simp [follows, Follows, AgingBucket.range]

theorem checkNeighbours_ok {buckets : List AgingBucket} (h : checkNeighbours buckets = .ok ()) :
    (buckets.map AgingBucket.range).IsChain (Follows (· + 1)) := by
  induction buckets with
  | nil => exact .nil
  | cons a rest ih =>
    cases rest with
    | nil => exact .singleton _
    | cons b rest =>
      unfold checkNeighbours at h
      split at h
      · next hab => exact .cons_cons (follows_iff.mp hab) (ih h)
      · cases h

/-- The buckets in key order, from an open start to an open end. -/
theorem validateBuckets_ok {buckets : List AgingBucket} (h : validateBuckets buckets = .ok ()) :
    ∃ first rest, buckets.insertionSort byKey = first :: rest ∧ first.minDays = none ∧
      ((first :: rest).getLast (List.cons_ne_nil _ _)).maxDays = none ∧
      ((first :: rest).map AgingBucket.range).IsChain (Follows (· + 1)) := by
  unfold validateBuckets at h
  cases hordered : buckets.insertionSort byKey with
  | nil =>
    rw [hordered] at h
    cases h
  | cons first rest =>
    simp only [hordered, List.head?_cons, List.getLast?_eq_some_getLast (List.cons_ne_nil first rest)] at h
    split at h
    · cases h
    · next hopen =>
      rw [Bool.or_eq_true, not_or, Bool.not_eq_true, Bool.not_eq_true, Option.isSome_eq_false_iff,
        Option.isSome_eq_false_iff, Option.isNone_iff_eq_none, Option.isNone_iff_eq_none] at hopen
      exact ⟨first, rest, rfl, hopen.1, hopen.2, checkNeighbours_ok h⟩

/-! ## Soundness -/

/-- Every number of days has one bucket, and later days have no smaller key. -/
structure Sound (buckets : List AgingBucket) : Prop where
  once : ∀ days : Int, (buckets.filter (·.has days)).length = 1
  total : ∀ days : Int, ∃ key, bucketKey days buckets = .ok key
  monotone : ∀ d1 d2 : Int, d1 ≤ d2 → ∀ k1 k2, bucketKey d1 buckets = .ok k1 →
    bucketKey d2 buckets = .ok k2 → k1 ≤ k2

/-- Ends no more than one day before it starts. -/
def AgingBucket.Upright (b : AgingBucket) : Prop :=
  ∀ lo, b.minDays = some lo → ∀ hi, b.maxDays = some hi → lo ≤ hi + 1

theorem bucketKey_ok {buckets : List AgingBucket} {days key : Int} (h : bucketKey days buckets = .ok key) :
    ∃ b ∈ buckets, b.has days = true ∧ b.key = key := by
  unfold bucketKey at h
  split at h
  · next b hb =>
    cases h
    exact ⟨b, List.mem_of_find?_eq_some hb, List.find?_some (p := fun b : AgingBucket => b.has days) hb, rfl⟩
  · cases h

theorem exists_bucketKey {buckets : List AgingBucket} {days : Int}
    (h : (buckets.filter (·.has days)).length = 1) : ∃ key, bucketKey days buckets = .ok key := by
  obtain ⟨b, hb⟩ := List.length_eq_one_iff.mp h
  have hmem : b ∈ buckets.filter (·.has days) := by
    rw [hb]
    exact List.mem_singleton_self b
  obtain ⟨hmem, hhas⟩ := List.mem_filter.mp hmem
  unfold bucketKey
  cases hfind : buckets.find? (·.has days) with
  | some b' => exact ⟨b'.key, rfl⟩
  | none => exact absurd hhas (List.find?_eq_none.mp hfind b hmem)

theorem length_filter_range (buckets : List AgingBucket) (days : Int) :
    ((buckets.map AgingBucket.range).filter (·.has days)).length =
      (buckets.filter (·.has days)).length := by
  rw [List.filter_map, List.length_map]
  rfl

/-- Of two buckets in key order, the later days are in the one of the larger key. -/
theorem key_le_of_has {ordered : List AgingBucket} (hsorted : ordered.Pairwise byKey)
    (hchain : (ordered.map AgingBucket.range).IsChain (Follows (· + 1))) (hup : ∀ b ∈ ordered, b.Upright)
    {a b : AgingBucket} (ha : a ∈ ordered) (hb : b ∈ ordered) {d1 d2 : Int} (hle : d1 ≤ d2)
    (h1 : a.has d1 = true) (h2 : b.has d2 = true) : a.key ≤ b.key := by
  have hbefore := pairwise_before (fun _ _ m _ => lt_add_one m) hchain (List.forall_mem_map.mpr hup)
  rw [List.pairwise_map] at hbefore
  let Later : AgingBucket → AgingBucket → Prop := fun a b =>
    ∀ d1 d2, d1 ≤ d2 → a.has d1 = true → b.has d2 = true → a.key ≤ b.key
  have hlater : ∀ a ∈ ordered, ∀ b ∈ ordered, Later a b := by
    refine List.Pairwise.forall_of_forall_of_flip (fun _ _ _ _ _ _ _ => le_refl _)
      (hsorted.imp fun hkey _ _ _ _ _ => hkey) (hbefore.imp fun {x y} hxy d1 d2 hle hy hx => ?_)
    exact absurd (hxy d2 d1 hx hy) (not_lt.mpr hle)
  exact hlater a ha b hb d1 d2 hle h1 h2

/-- **The validation is sound** exactly for buckets that do not end before they start. -/
theorem validateBuckets_sound_iff {buckets : List AgingBucket} (h : validateBuckets buckets = .ok ()) :
    Sound buckets ↔ ∀ b ∈ buckets, b.Upright := by
  obtain ⟨first, rest, hordered, hfirst, hlast, hchain⟩ := validateBuckets_ok h
  have hperm : (first :: rest).Perm buckets := hordered ▸ List.perm_insertionSort byKey buckets
  have hopen : ((first.range :: rest.map AgingBucket.range).getLast (List.cons_ne_nil _ _)).hi = none := by
    have hmap := List.getLast_map (f := AgingBucket.range) (l := first :: rest) (by simp)
    simp only [List.map_cons] at hmap
    rw [hmap]
    exact hlast
  have honce : (∀ days, (buckets.filter (·.has days)).length = 1) ↔ ∀ b ∈ buckets, b.Upright := by
    have hiff := once_iff hchain hfirst hopen
    simp only [← List.map_cons, length_filter_range] at hiff
    simp only [← (hperm.filter _).length_eq, hiff, List.forall_mem_map, ← hperm.mem_iff]
    rfl
  constructor
  · exact fun hsound => honce.mp hsound.once
  · intro hup
    have hfilter := honce.mpr hup
    refine ⟨hfilter, fun days => exists_bucketKey (hfilter days), ?_⟩
    intro d1 d2 hle k1 k2 h1 h2
    obtain ⟨b1, hb1, hhas1, rfl⟩ := bucketKey_ok h1
    obtain ⟨b2, hb2, hhas2, rfl⟩ := bucketKey_ok h2
    refine key_le_of_has ?_ hchain (fun b hb => hup b (hperm.mem_iff.mp hb)) (hperm.mem_iff.mpr hb1)
      (hperm.mem_iff.mpr hb2) hle hhas1 hhas2
    exact hordered ▸ List.pairwise_insertionSort byKey buckets

theorem validateBuckets_sound_iff_shipped : Sound AGING_BUCKETS ↔ ∀ b ∈ AGING_BUCKETS, b.Upright :=
  validateBuckets_sound_iff (by decide)

/-- The second bucket ends six days before it starts, and the third one starts there. -/
def invertedBuckets : List AgingBucket :=
  [⟨1, "Not due", none, some 0⟩, ⟨2, "Overdue", some 1, some (-5)⟩, ⟨3, "Overdue 1+", some (-4), none⟩]

/-- Day 0 is in two buckets of an accepted tuple. -/
theorem invertedBuckets_unsound :
    ¬ ∀ buckets, validateBuckets buckets = .ok () → Sound buckets := by
  intro h
  have hzero := (h invertedBuckets (by decide)).once 0
  revert hzero
  decide

end SalesDashboard.Aging
