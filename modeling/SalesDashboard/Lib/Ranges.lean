import Mathlib

/-! Chains of ranges with open or closed ends, each of which starts at the value after the
end of the one before it: when a value is in some range, and when in one only. -/

namespace Ranges

/-- The values from `lo` to `hi`, both inclusive; `none` is an open end. -/
structure Range (α : Type*) where
  lo : Option α
  hi : Option α

variable {α : Type*}

def Range.has [LE α] [DecidableLE α] (r : Range α) (x : α) : Bool :=
  r.lo.all (fun m => decide (m ≤ x)) && r.hi.all fun m => decide (x ≤ m)

theorem Range.has_iff [LE α] [DecidableLE α] {r : Range α} {x : α} :
    r.has x = true ↔ (∀ m, r.lo = some m → m ≤ x) ∧ ∀ m, r.hi = some m → x ≤ m := by
  obtain ⟨lo, hi⟩ := r
  cases lo <;> cases hi <;> simp [Range.has]

section
variable [LinearOrder α] {next : α → α}

def Follows (next : α → α) (a b : Range α) : Prop := ∃ m, a.hi = some m ∧ b.lo = some (next m)

/-- The value after the end of the range is no smaller than its start. -/
def Range.Upright (next : α → α) (r : Range α) : Prop := ∀ a, r.lo = some a → ∀ b, r.hi = some b → a ≤ next b

/-- The value after the end of the range is larger than the end. -/
def Range.Rises (next : α → α) (r : Range α) : Prop := ∀ m, r.hi = some m → m < next m

/-- Nothing below the start of a chain is in it. -/
theorem not_has_of_lt {rs : List (Range α)} {r : Range α} {k x : α} (hchain : (r :: rs).IsChain (Follows next))
    (hup : ∀ r' ∈ r :: rs, r'.Upright next) (hlo : r.lo = some k) (hx : x < k) :
    ∀ r' ∈ r :: rs, r'.has x = false := by
  induction rs generalizing r k with
  | nil =>
    intro r' hr'
    rw [List.mem_singleton.mp hr', ← Bool.not_eq_true, Range.has_iff]
    intro h
    exact absurd (h.1 k hlo) (not_le.mpr hx)
  | cons s rs ih =>
    intro r' hr'
    rcases List.mem_cons.mp hr' with rfl | hr'
    · rw [← Bool.not_eq_true, Range.has_iff]
      intro h
      exact absurd (h.1 k hlo) (not_le.mpr hx)
    · obtain ⟨⟨m, hhi, hslo⟩, hrest⟩ := List.isChain_cons_cons.mp hchain
      have hkm := hup r List.mem_cons_self k hlo m hhi
      exact ih hrest (fun r'' hr'' => hup r'' (List.mem_cons_of_mem _ hr'')) hslo (hx.trans_le hkm) r' hr'

/-- The values of a range are below those of a later one. -/
theorem pairwise_before {rs : List (Range α)} (hrises : ∀ r ∈ rs, r.Rises next) (hchain : rs.IsChain (Follows next))
    (hup : ∀ r ∈ rs, r.Upright next) : rs.Pairwise fun a b => ∀ x y, a.has x = true → b.has y = true → x < y := by
  induction rs with
  | nil => exact .nil
  | cons r rs ih =>
    refine .cons ?_ (ih (fun r' hr' => hrises r' (List.mem_cons_of_mem _ hr')) hchain.tail
      fun r' hr' => hup r' (List.mem_cons_of_mem _ hr'))
    intro b hb x y hx hy
    cases rs with
    | nil => cases hb
    | cons s rs =>
      obtain ⟨⟨m, hhi, hslo⟩, hrest⟩ := List.isChain_cons_cons.mp hchain
      have hxm : x ≤ m := (Range.has_iff.mp hx).2 m hhi
      by_contra hyx
      have hlt : y < next m := ((not_lt.mp hyx).trans hxm).trans_lt (hrises r List.mem_cons_self m hhi)
      have hnot := not_has_of_lt hrest (fun r' hr' => hup r' (List.mem_cons_of_mem _ hr')) hslo hlt b hb
      rw [hy] at hnot
      cases hnot

/-- A value that no end of the chain leaves between two ranges is in one of them. -/
theorem exists_has {rs : List (Range α)} {r : Range α} {x : α} (hchain : (r :: rs).IsChain (Follows next))
    (hlo : ∀ m, r.lo = some m → m ≤ x)
    (hhi : ∀ m, ((r :: rs).getLast (List.cons_ne_nil _ _)).hi = some m → x ≤ m)
    (hstep : ∀ r' ∈ r :: rs, ∀ m, r'.hi = some m → m < x → next m ≤ x) :
    ∃ r' ∈ r :: rs, r'.has x = true := by
  induction rs generalizing r with
  | nil => exact ⟨r, List.mem_cons_self, Range.has_iff.mpr ⟨hlo, hhi⟩⟩
  | cons s rs ih =>
    obtain ⟨⟨m, hrhi, hslo⟩, hrest⟩ := List.isChain_cons_cons.mp hchain
    by_cases hxm : x ≤ m
    · refine ⟨r, List.mem_cons_self, Range.has_iff.mpr ⟨hlo, fun m' hm' => ?_⟩⟩
      rw [hrhi] at hm'
      cases hm'
      exact hxm
    · have hnext := hstep r List.mem_cons_self m hrhi (not_le.mp hxm)
      obtain ⟨r', hr', hhas⟩ := ih hrest (fun m' hm' => by
          rw [hslo] at hm'
          cases hm'
          exact hnext)
        (by rwa [List.getLast_cons_cons] at hhi) fun r' hr' => hstep r' (List.mem_cons_of_mem _ hr')
      exact ⟨r', List.mem_cons_of_mem _ hr', hhas⟩

/-- The range starts no later than it ends. -/
def Range.Proper (r : Range α) : Prop := ∀ a, r.lo = some a → ∀ b, r.hi = some b → a ≤ b

theorem Range.Proper.upright {r : Range α} (h : r.Proper) (hrises : r.Rises next) : r.Upright next :=
  fun a ha b hb => (h a ha b hb).trans (hrises b hb).le

omit [LinearOrder α] in
/-- A range of a chain starts where the chain does, or at the value after an end. -/
theorem lo_cases {rs : List (Range α)} {r : Range α} (hchain : (r :: rs).IsChain (Follows next)) :
    ∀ r' ∈ r :: rs, r' = r ∨ ∃ s ∈ r :: rs, Follows next s r' := by
  induction rs generalizing r with
  | nil => exact fun r' hr' => .inl (List.mem_singleton.mp hr')
  | cons s rs ih =>
    obtain ⟨hrs, hrest⟩ := List.isChain_cons_cons.mp hchain
    intro r' hr'
    rcases List.mem_cons.mp hr' with rfl | hr'
    · exact .inl rfl
    · rcases ih hrest r' hr' with rfl | ⟨s', hs', hfollows⟩
      · exact .inr ⟨r, List.mem_cons_self, hrs⟩
      · exact .inr ⟨s', List.mem_cons_of_mem _ hs', hfollows⟩

/-- No range starts before a value that is before the chain and before the value after each
end. -/
theorem le_lo {rs : List (Range α)} {r : Range α} {k : α} (hchain : (r :: rs).IsChain (Follows next))
    (hproper : ∀ r' ∈ r :: rs, r'.Proper)
    (hnext : ∀ r' ∈ r :: rs, ∀ m, r'.hi = some m → k ≤ m → k ≤ next m) {c : α} (hlo : r.lo = some c) (hk : k ≤ c) :
    ∀ r' ∈ r :: rs, ∀ a, r'.lo = some a → k ≤ a := by
  induction rs generalizing r c with
  | nil =>
    intro r' hr' a ha
    rw [List.mem_singleton.mp hr', hlo] at ha
    exact Option.some.inj ha ▸ hk
  | cons s rs ih =>
    obtain ⟨⟨m, hm, hslo⟩, hrest⟩ := List.isChain_cons_cons.mp hchain
    have hkm := hnext r List.mem_cons_self m hm (hk.trans (hproper r List.mem_cons_self c hlo m hm))
    intro r' hr' a ha
    rcases List.mem_cons.mp hr' with rfl | hr'
    · rw [hlo] at ha
      exact Option.some.inj ha ▸ hk
    · exact ih hrest (fun r'' hr'' => hproper r'' (List.mem_cons_of_mem _ hr''))
        (fun r'' hr'' => hnext r'' (List.mem_cons_of_mem _ hr'')) hslo hkm r' hr' a ha

/-- A value between the end of a range and the start of the next one is in no range. -/
theorem not_has_of_gap {rs : List (Range α)} (hrises : ∀ r ∈ rs, r.Rises next) (hchain : rs.IsChain (Follows next))
    (hproper : ∀ r ∈ rs, r.Proper) {r : Range α} (hr : r ∈ rs) {m x : α} (hhi : r.hi = some m)
    (hmx : m < x) (hxm : x < next m) : ∀ r' ∈ rs, r'.has x = false := by
  obtain ⟨pre, post, rfl⟩ := List.append_of_mem hr
  obtain ⟨-, hpost, -⟩ := List.isChain_append.mp hchain
  have hbefore := pairwise_before hrises hchain fun r' hr' => (hproper r' hr').upright (hrises r' hr')
  have hrm : r.has m = true := Range.has_iff.mpr
    ⟨fun a ha => hproper r hr a ha m hhi, fun b hb => by rw [hhi] at hb; cases hb; rfl⟩
  intro r' hr'
  rw [← Bool.not_eq_true]
  intro hhas
  rcases List.mem_append.mp hr' with hpre | hmem
  · have hlt := (List.pairwise_append.mp hbefore).2.2 r' hpre r List.mem_cons_self x m hhas hrm
    exact absurd hlt (not_lt.mpr hmx.le)
  · rcases List.mem_cons.mp hmem with rfl | hmem
    · exact absurd ((Range.has_iff.mp hhas).2 m hhi) (not_le.mpr hmx)
    · cases post with
      | nil => cases hmem
      | cons s post =>
        obtain ⟨⟨m', hm', hslo⟩, hrest⟩ := List.isChain_cons_cons.mp hpost
        rw [hhi] at hm'
        cases hm'
        have hlater : ∀ r'' ∈ s :: post, r'' ∈ pre ++ r :: s :: post := fun r'' hr'' =>
          List.mem_append_right _ (List.mem_cons_of_mem _ hr'')
        have hnot := not_has_of_lt hrest
          (fun r'' hr'' => (hproper r'' (hlater r'' hr'')).upright (hrises r'' (hlater r'' hr''))) hslo hxm r' hmem
        rw [hhas] at hnot
        cases hnot

/-- No range starts after the end of the chain. -/
theorem lo_le_last {rs : List (Range α)} {r : Range α} (hrises : ∀ r' ∈ r :: rs, r'.Rises next)
    (hchain : (r :: rs).IsChain (Follows next)) (hproper : ∀ r' ∈ r :: rs, r'.Proper) {m : α}
    (hhi : ((r :: rs).getLast (List.cons_ne_nil _ _)).hi = some m) :
    ∀ r' ∈ r :: rs, ∀ a, r'.lo = some a → a ≤ m := by
  induction rs generalizing r with
  | nil =>
    intro r' hr' a ha
    rw [List.mem_singleton.mp hr'] at ha
    exact hproper r List.mem_cons_self a ha m hhi
  | cons s rs ih =>
    obtain ⟨⟨m', hm', hslo⟩, hrest⟩ := List.isChain_cons_cons.mp hchain
    rw [List.getLast_cons_cons] at hhi
    have hsub := ih (fun r' hr' => hrises r' (List.mem_cons_of_mem _ hr')) hrest
      (fun r' hr' => hproper r' (List.mem_cons_of_mem _ hr')) hhi
    intro r' hr' a ha
    rcases List.mem_cons.mp hr' with rfl | hr'
    · have hsm := hsub s List.mem_cons_self _ hslo
      exact ((hproper r' List.mem_cons_self a ha m' hm').trans (hrises r' List.mem_cons_self m' hm').le).trans hsm
    · exact hsub r' hr' a ha

end

/-! ## Whole numbers -/

theorem length_filter_le_one {β : Type*} {p : β → Bool} {xs : List β}
    (h : xs.Pairwise fun a b => ¬ (p a = true ∧ p b = true)) : (xs.filter p).length ≤ 1 := by
  induction xs with
  | nil => simp
  | cons x xs ih =>
    obtain ⟨hx, hxs⟩ := List.pairwise_cons.mp h
    rw [List.filter_cons]
    split
    · next hpx =>
      have hnone : xs.filter p = [] := List.filter_eq_nil_iff.mpr fun y hy hpy => hx y hy ⟨hpx, hpy⟩
      rw [hnone]
      rfl
    · exact ih hxs

theorem find?_of_once {β : Type*} {p : β → Bool} {xs : List β} (h : (xs.filter p).length = 1) {x : β}
    (hx : x ∈ xs) (hp : p x = true) : xs.find? p = some x := by
  obtain ⟨y, hy⟩ := List.length_eq_one_iff.mp h
  have hmem : x ∈ xs.filter p := List.mem_filter.mpr ⟨hx, hp⟩
  rw [hy, List.mem_singleton] at hmem
  rw [← List.head?_filter, hy, hmem]
  rfl

theorem exists_has_int {rs : List (Range ℤ)} {r : Range ℤ} {x : ℤ} (hchain : (r :: rs).IsChain (Follows (· + 1)))
    (hlo : ∀ m, r.lo = some m → m ≤ x)
    (hhi : ∀ m, ((r :: rs).getLast (List.cons_ne_nil _ _)).hi = some m → x ≤ m) :
    ∃ r' ∈ r :: rs, r'.has x = true :=
  exists_has hchain hlo hhi fun _ _ _ _ hlt => hlt

/-- A chain without ends has each whole number once exactly when no range of it is
upside down. -/
theorem once_iff {rs : List (Range ℤ)} {r : Range ℤ} (hchain : (r :: rs).IsChain (Follows (· + 1)))
    (hlo : r.lo = none) (hhi : ((r :: rs).getLast (List.cons_ne_nil _ _)).hi = none) :
    (∀ x, ((r :: rs).filter (·.has x)).length = 1) ↔ ∀ r' ∈ r :: rs, r'.Upright (· + 1) := by
  constructor
  · intro hone r' hr' a ha b hb
    by_contra hle
    have hlt : b + 1 < a := not_le.mp hle
    -- `b + 1` is in a range before this one, which goes up to `a - 1`, and in a range after it
    obtain ⟨pre, post, hsplit⟩ := List.append_of_mem hr'
    have htwo : 2 ≤ ((r :: rs).filter (·.has (b + 1))).length := by
      have hchain' := hchain
      rw [hsplit] at hchain'
      obtain ⟨hpre, hpost, hlink⟩ := List.isChain_append.mp hchain'
      have hbefore : ∃ s ∈ pre, s.has (b + 1) = true := by
        cases pre with
        | nil =>
          rw [List.nil_append, List.cons.injEq] at hsplit
          rw [← hsplit.1, hlo] at ha
          cases ha
        | cons p pre =>
          obtain ⟨rfl, -⟩ := List.cons.inj hsplit
          refine exists_has_int hpre (by simp [hlo]) fun m hm => ?_
          obtain ⟨m', hm', hlo'⟩ := hlink _ (List.getLast?_eq_some_getLast (List.cons_ne_nil r pre)) r' rfl
          rw [hm] at hm'
          cases hm'
          have hab : a = m + 1 := Option.some.inj (ha.symm.trans hlo')
          omega
      have hafter : ∃ s ∈ post, s.has (b + 1) = true := by
        cases post with
        | nil =>
          have hlast : (r :: rs).getLast (List.cons_ne_nil _ _) = r' := by
            simp only [hsplit, List.getLast_append_singleton]
          rw [hlast, hb] at hhi
          cases hhi
        | cons p post =>
          obtain ⟨⟨m, hm, hplo⟩, hrest⟩ := List.isChain_cons_cons.mp hpost
          rw [hb] at hm
          cases hm
          refine exists_has_int hrest (fun m hm => by rw [hplo] at hm; cases hm; rfl) fun m hm => ?_
          have hlast : (r :: rs).getLast (List.cons_ne_nil _ _) =
              (p :: post).getLast (List.cons_ne_nil _ _) := by
            simp only [hsplit, List.getLast_append_of_ne_nil _ (List.cons_ne_nil r' _), List.getLast_cons_cons]
          rw [← hlast, hhi] at hm
          cases hm
      obtain ⟨s, hs, hshas⟩ := hbefore
      obtain ⟨t, ht, hthas⟩ := hafter
      rw [hsplit, List.filter_append, List.length_append, List.filter_cons]
      have hs' : 0 < (pre.filter (·.has (b + 1))).length :=
        List.length_pos_of_mem (List.mem_filter.mpr ⟨hs, hshas⟩)
      have ht' : 0 < (post.filter (·.has (b + 1))).length :=
        List.length_pos_of_mem (List.mem_filter.mpr ⟨ht, hthas⟩)
      split
      · rw [List.length_cons]
        omega
      · omega
    rw [hone] at htwo
    omega
  · intro hup x
    have hbefore := pairwise_before (fun _ _ m _ => lt_add_one m) hchain hup
    have hle := length_filter_le_one (hbefore.imp fun {a b} hab hboth =>
      absurd (hab x x hboth.1 hboth.2) (lt_irrefl x))
    obtain ⟨s, hs, hshas⟩ := exists_has_int (x := x) hchain (by simp [hlo]) (by simp [hhi])
    have hpos : 0 < ((r :: rs).filter (·.has x)).length :=
      List.length_pos_of_mem (List.mem_filter.mpr ⟨hs, hshas⟩)
    omega

/-! ## Whole numbers in ranges of rationals -/

section
variable {next : ℚ → ℚ}

/-- Where the value after an end is the whole number after it, each whole number of the chain
is in one range. -/
theorem once_of_whole {rs : List (Range ℚ)} {r : Range ℚ} (hchain : (r :: rs).IsChain (Follows next))
    (hproper : ∀ r' ∈ r :: rs, r'.Proper) (hwhole : ∀ r' ∈ r :: rs, ∀ m, r'.hi = some m → next m = ⌊m⌋ + 1) {x : ℤ}
    (hlo : ∀ m, r.lo = some m → m ≤ x)
    (hhi : ∀ m, ((r :: rs).getLast (List.cons_ne_nil _ _)).hi = some m → (x : ℚ) ≤ m) :
    ((r :: rs).filter (·.has (x : ℚ))).length = 1 := by
  have hrises : ∀ r' ∈ r :: rs, r'.Rises next := fun r' hr' m hm => by
    rw [hwhole r' hr' m hm]
    exact Int.lt_floor_add_one m
  have hle := length_filter_le_one ((pairwise_before hrises hchain fun r' hr' =>
    (hproper r' hr').upright (hrises r' hr')).imp fun {a b} hab hboth =>
      absurd (hab x x hboth.1 hboth.2) (lt_irrefl _))
  obtain ⟨s, hs, hshas⟩ := exists_has hchain hlo hhi fun r' hr' m hm hlt => by
    rw [hwhole r' hr' m hm]
    exact_mod_cast Int.floor_lt.mpr hlt
  have hpos : 0 < ((r :: rs).filter (·.has (x : ℚ))).length :=
    List.length_pos_of_mem (List.mem_filter.mpr ⟨hs, hshas⟩)
  omega

section
variable {ι : Type*} {f : ι → Range ℚ} {x : ι} {xs : List ι}

/-- The same for the items that the ranges belong to. -/
theorem once_of_whole_map (hchain : ((x :: xs).map f).IsChain (Follows next))
    (hproper : ∀ y ∈ x :: xs, (f y).Proper) (hwhole : ∀ y ∈ x :: xs, ∀ m, (f y).hi = some m → next m = ⌊m⌋ + 1)
    {d : ℤ} (hlo : ∀ m, (f x).lo = some m → m ≤ d)
    (hhi : ∀ m, (f ((x :: xs).getLast (List.cons_ne_nil _ _))).hi = some m → (d : ℚ) ≤ m) :
    ((x :: xs).filter fun y => (f y).has (d : ℚ)).length = 1 := by
  have hlast : (f x :: xs.map f).getLast (List.cons_ne_nil _ _) =
      f ((x :: xs).getLast (List.cons_ne_nil _ _)) := by
    have hmap := List.getLast_map (f := f) (l := x :: xs) (by simp)
    simpa only [List.map_cons] using hmap
  have honce := @once_of_whole next (xs.map f) (f x) hchain
    (by rw [← List.map_cons]; exact List.forall_mem_map.mpr hproper)
    (by rw [← List.map_cons]; exact List.forall_mem_map.mpr hwhole) d hlo (by rw [hlast]; exact hhi)
  rw [← List.map_cons, List.filter_map, List.length_map] at honce
  exact honce

end

/-- Where the value after an end passes over the whole number after it, that number is in no
range. -/
theorem none_of_passed {rs : List (Range ℚ)} (hrises : ∀ r ∈ rs, r.Rises next)
    (hchain : rs.IsChain (Follows next)) (hproper : ∀ r ∈ rs, r.Proper) {r : Range ℚ} (hr : r ∈ rs) {m : ℚ}
    (hhi : r.hi = some m) (hm : (⌊m⌋ + 1 : ℚ) < next m) : rs.filter (·.has ((⌊m⌋ + 1 : ℤ) : ℚ)) = [] := by
  refine List.filter_eq_nil_iff.mpr fun r' hr' => Bool.not_eq_true _ |>.mpr ?_
  refine not_has_of_gap hrises hchain hproper hr hhi ?_ ?_ r' hr'
  · exact_mod_cast Int.lt_floor_add_one m
  · exact_mod_cast hm

end

end Ranges
