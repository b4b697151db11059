import Mathlib

/-! Regular expressions that are searched with backtracking: the matches at a position in
the order in which they are tried, and the substitution of all matches from left to right. -/

namespace Regex

variable {α : Type*}

inductive Re (α : Type*)
  /-- One character of a class. -/
  | one (p : α → Bool)
  | opt (p : α → Bool)
  /-- At least so many characters of a class, as many as there are first. -/
  | many (least : Nat) (p : α → Bool)
  | seq (a b : Re α)
  /-- Once or more, as often as possible first. -/
  | plus (a : Re α)
  | notAfter (p : α → Bool)
  | notBefore (p : α → Bool)

/-! ## Matches -/

/-- The character before what is left of `s` behind `n` characters. -/
def before (prev : Option α) (s : List α) (n : Nat) : Option α := (s.take n).getLast?.or prev

/-- A repetition; one that takes nothing is not repeated. -/
def plusLengths (step : Option α → List α → List Nat) : Nat → Option α → List α → List Nat
  | 0, _, _ => []
  | fuel + 1, prev, s => (step prev s).flatMap fun n =>
      (if n = 0 then [] else (plusLengths step fuel (before prev s n) (s.drop n)).map (n + ·)) ++ [n]

/-- The lengths of the matches at the head of `s`, in the order in which they are tried. -/
def Re.lengths : Re α → Option α → List α → List Nat
  | .one p, _, s => if s.head?.any p then [1] else []
  | .opt p, _, s => if s.head?.any p then [1, 0] else [0]
  | .many least p, _, s => ((List.range ((s.takeWhile p).length + 1)).filter (least ≤ ·)).reverse
  | .seq a b, prev, s => (a.lengths prev s).flatMap fun n => (b.lengths (before prev s n) (s.drop n)).map (n + ·)
  | .plus a, prev, s => plusLengths a.lengths (s.length + 1) prev s
  | .notAfter p, prev, _ => if prev.any p then [] else [0]
  | .notBefore p, _, s => if s.head?.any p then [] else [0]

def Re.matchLength (r : Re α) (prev : Option α) (s : List α) : Option Nat := (r.lengths prev s).head?

/-- The words an expression stands for, whatever is around them. -/
def Re.language : Re α → Language α
  | .one p => {w | ∃ c, p c = true ∧ w = [c]}
  | .opt p => {w | w = [] ∨ ∃ c, p c = true ∧ w = [c]}
  | .many least p => {w | least ≤ w.length ∧ ∀ c ∈ w, p c = true}
  | .seq a b => a.language * b.language
  | .plus a => a.language * KStar.kstar a.language
  | .notAfter _ | .notBefore _ => 1

/-- No condition on what is around a match. -/
def Re.plain : Re α → Bool
  | .one _ | .opt _ | .many _ _ => true
  | .seq a b => a.plain && b.plain
  | .plus a => a.plain
  | .notAfter _ | .notBefore _ => false

theorem take_add_split (s : List α) (n m : Nat) : s.take (n + m) = s.take n ++ (s.drop n).take m := by
  rw [List.take_add]

theorem mem_plusLengths {step : Option α → List α → List Nat} {L : Language α}
    (hstep : ∀ prev s, ∀ n ∈ step prev s, n ≤ s.length ∧ s.take n ∈ L) (fuel : Nat) (prev : Option α) (s : List α) :
    ∀ n ∈ plusLengths step fuel prev s, n ≤ s.length ∧ s.take n ∈ L * KStar.kstar L := by
  induction fuel generalizing prev s with
  | zero => exact fun n hn => absurd hn List.not_mem_nil
  | succ fuel ih =>
    intro n hn
    obtain ⟨k, hk, hn⟩ := List.mem_flatMap.mp hn
    obtain ⟨hle, hmem⟩ := hstep prev s k hk
    rcases List.mem_append.mp hn with hn | hn
    · split at hn
      · cases hn
      · obtain ⟨m, hm, rfl⟩ := List.mem_map.mp hn
        obtain ⟨hle', hmem'⟩ := ih _ _ m hm
        rw [List.length_drop] at hle'
        refine ⟨by omega, ?_⟩
        rw [take_add_split]
        have hstar : (s.drop k).take m ∈ KStar.kstar L := mul_kstar_le_kstar (a := L) hmem'
        exact Language.append_mem_mul hmem hstar
    · rw [List.mem_singleton.mp hn]
      exact ⟨hle, List.append_nil (s.take k) ▸ Language.append_mem_mul hmem (Language.nil_mem_kstar L)⟩

/-- What is matched is a word of the expression. -/
theorem Re.mem_lengths (r : Re α) (prev : Option α) (s : List α) :
    ∀ n ∈ r.lengths prev s, n ≤ s.length ∧ s.take n ∈ r.language := by
  induction r generalizing prev s with
  | one p =>
    intro n hn
    unfold Re.lengths at hn
    cases s with
    | nil => cases hn
    | cons c s =>
      split at hn
      · rename_i hc
        rw [List.mem_singleton.mp hn]
        exact ⟨Nat.succ_le_succ (Nat.zero_le _), c, hc, rfl⟩
      · cases hn
  | opt p =>
    intro n hn
    unfold Re.lengths at hn
    split at hn
    · rename_i hc
      cases s with
      | nil => cases hc
      | cons c s =>
        rcases List.mem_cons.mp hn with rfl | hn
        · exact ⟨Nat.succ_le_succ (Nat.zero_le _), .inr ⟨c, hc, rfl⟩⟩
        · rw [List.mem_singleton.mp hn]
          exact ⟨Nat.zero_le _, .inl rfl⟩
    · rw [List.mem_singleton.mp hn]
      exact ⟨Nat.zero_le _, .inl rfl⟩
  | many least p =>
    intro n hn
    obtain ⟨hrange, hleast⟩ := List.mem_filter.mp (List.mem_reverse.mp hn)
    have hlt := List.mem_range.mp hrange
    have htake : s.take n = (s.takeWhile p).take n := by
      obtain ⟨rest, hrest⟩ := List.takeWhile_prefix (l := s) p
      conv_lhs => rw [← hrest]
      rw [List.take_append_of_le_length (by omega)]
    have hlen := (List.takeWhile_prefix (l := s) p).length_le
    refine ⟨by omega, ?_, ?_⟩
    · rw [List.length_take]
      have := of_decide_eq_true hleast
      omega
    · rw [htake]
      exact fun c hc => List.mem_takeWhile_imp (List.mem_of_mem_take hc)
  | seq a b iha ihb =>
    intro n hn
    obtain ⟨k, hk, hn⟩ := List.mem_flatMap.mp hn
    obtain ⟨m, hm, rfl⟩ := List.mem_map.mp hn
    obtain ⟨hle, hmem⟩ := iha prev s k hk
    obtain ⟨hle', hmem'⟩ := ihb _ _ m hm
    rw [List.length_drop] at hle'
    refine ⟨by omega, ?_⟩
    rw [take_add_split]
    exact Language.append_mem_mul hmem hmem'
  | plus a ih => exact mem_plusLengths ih _ _ _
  | notAfter p =>
    intro n hn
    unfold Re.lengths at hn
    split at hn
    · cases hn
    · rw [List.mem_singleton.mp hn]
      exact ⟨Nat.zero_le _, rfl⟩
  | notBefore p =>
    intro n hn
    unfold Re.lengths at hn
    split at hn
    · cases hn
    · rw [List.mem_singleton.mp hn]
      exact ⟨Nat.zero_le _, rfl⟩

theorem plusLengths_flatten {step : Option α → List α → List Nat} {L : Language α}
    (hstep : ∀ w ∈ L, ∀ prev post, w.length ∈ step prev (w ++ post)) (w : List α) (ws : List (List α))
    (hw : w ∈ L) (hws : ∀ v ∈ ws, v ∈ L ∧ v ≠ []) (hne : ws ≠ [] → w ≠ []) (fuel : Nat)
    (hfuel : ws.length < fuel) (prev : Option α) (post : List α) :
    (w ++ ws.flatten).length ∈ plusLengths step fuel prev (w ++ ws.flatten ++ post) := by
  induction ws generalizing w fuel prev with
  | nil =>
    obtain ⟨fuel, rfl⟩ := Nat.exists_eq_succ_of_ne_zero (Nat.ne_of_gt hfuel)
    rw [List.flatten_nil, List.append_nil]
    exact List.mem_flatMap.mpr ⟨w.length, hstep w hw prev post, List.mem_append_right _ (List.mem_singleton_self _)⟩
  | cons v ws ih =>
    obtain ⟨fuel, rfl⟩ := Nat.exists_eq_succ_of_ne_zero (Nat.ne_of_gt (Nat.lt_of_le_of_lt (Nat.zero_le _) hfuel))
    obtain ⟨⟨hv, hvne⟩, hws⟩ := List.forall_mem_cons.mp hws
    have hwne : w.length ≠ 0 := fun h => hne (List.cons_ne_nil v ws) (List.length_eq_zero_iff.mp h)
    have hrest := ih v hv hws (fun _ => hvne) fuel (Nat.lt_of_succ_lt_succ hfuel)
      (before prev (w ++ (v :: ws).flatten ++ post) w.length)
    have hsplit : w ++ (v :: ws).flatten ++ post = w ++ (v ++ ws.flatten ++ post) := by
      rw [List.flatten_cons, List.append_assoc]
    refine List.mem_flatMap.mpr ⟨w.length, hsplit ▸ hstep w hw prev _, List.mem_append_left _ ?_⟩
    rw [if_neg hwne]
    refine List.mem_map.mpr ⟨(v ++ ws.flatten).length, ?_, ?_⟩
    · rw [hsplit, List.drop_left]
      exact hsplit ▸ hrest
    · rw [List.flatten_cons, List.length_append, List.length_append, List.length_append]

/-- Every word of an expression without conditions is a match wherever it stands. -/
theorem Re.length_mem {r : Re α} (hplain : r.plain = true) {w : List α} (hw : w ∈ r.language) (prev : Option α)
    (post : List α) : w.length ∈ r.lengths prev (w ++ post) := by
  induction r generalizing w prev post with
  | one p =>
    obtain ⟨c, hc, rfl⟩ := hw
    unfold Re.lengths
    rw [if_pos (by exact hc)]
    exact List.mem_singleton_self _
  | opt p =>
    unfold Re.lengths
    rcases hw with rfl | ⟨c, hc, rfl⟩
    · split
      · exact List.mem_cons_of_mem _ (List.mem_singleton_self _)
      · exact List.mem_singleton_self _
    · rw [if_pos (by exact hc)]
      exact List.mem_cons_self
  | many least p =>
    obtain ⟨hleast, hall⟩ := hw
    refine List.mem_reverse.mpr (List.mem_filter.mpr ⟨List.mem_range.mpr ?_, decide_eq_true hleast⟩)
    rw [List.takeWhile_append_of_pos hall, List.length_append]
    omega
  | seq a b iha ihb =>
    obtain ⟨ha, hb⟩ := Bool.and_eq_true_iff.mp hplain
    obtain ⟨x, hx, y, hy, rfl⟩ := Language.mem_mul.mp hw
    refine List.mem_flatMap.mpr ⟨x.length, ?_, List.mem_map.mpr ⟨y.length, ?_, (List.length_append).symm⟩⟩
    · rw [List.append_assoc]
      exact iha ha hx prev (y ++ post)
    · rw [List.append_assoc, List.drop_left]
      exact ihb hb hy _ post
  | plus a ih =>
    obtain ⟨x, hx, y, hy, rfl⟩ := Language.mem_mul.mp hw
    obtain ⟨ws, rfl, hws⟩ := Language.mem_kstar_iff_exists_nonempty.mp hy
    have hlength : ∀ vs : List (List α), (∀ v ∈ vs, v ∈ a.language ∧ v ≠ []) → vs.length ≤ vs.flatten.length := by
      intro vs hvs
      induction vs with
      | nil => exact Nat.le_refl 0
      | cons v vs ihv =>
        have hv := List.length_pos_iff.mpr (hvs v List.mem_cons_self).2
        have hrest := ihv fun u hu => hvs u (List.mem_cons_of_mem v hu)
        rw [List.flatten_cons, List.length_append, List.length_cons]
        omega
    have hstep : ∀ v ∈ a.language, ∀ prev post, v.length ∈ a.lengths prev (v ++ post) :=
      fun v hv prev post => ih hplain hv prev post
    by_cases hxne : x = []
    · -- an empty first word is left out
      subst hxne
      cases ws with
      | nil =>
        refine plusLengths_flatten hstep [] [] hx (fun v hv => absurd hv List.not_mem_nil) (fun h => absurd rfl h) _
          (Nat.succ_pos _) prev post
      | cons v ws =>
        obtain ⟨⟨hv, hvne⟩, hws⟩ := List.forall_mem_cons.mp hws
        have hlen := hlength ws hws
        have hmem := plusLengths_flatten hstep v ws hv hws (fun _ => hvne) ((v ++ ws.flatten ++ post).length + 1)
          (by rw [List.length_append, List.length_append]; omega) prev post
        exact hmem
    · have hlen := hlength ws hws
      exact plusLengths_flatten hstep x ws hx hws (fun _ => hxne) _
        (by rw [List.length_append, List.length_append]; omega) prev post
  | notAfter p => cases hplain
  | notBefore p => cases hplain

/-! ## Substitution -/

inductive Piece (α : Type*)
  | kept (c : α)
  | hit (w : List α)

def Piece.source : Piece α → List α
  | .kept c => [c]
  | .hit w => w

def Piece.shown (f : List α → List α) : Piece α → List α
  | .kept c => [c]
  | .hit w => f w

/-- The matches from left to right; a match that takes nothing is not one here. The first
argument counts what is left of a match. -/
def Re.scan (r : Re α) : Nat → Option α → List α → List (Piece α)
  | _, _, [] => []
  | skip + 1, _, c :: cs => r.scan skip (some c) cs
  | 0, prev, c :: cs =>
      match r.matchLength prev (c :: cs) with
      | some (n + 1) => .hit ((c :: cs).take (n + 1)) :: r.scan n (some c) cs
      | _ => .kept c :: r.scan 0 (some c) cs

/-- `re.sub`. -/
def Re.sub (r : Re α) (f : List α → List α) (s : List α) : List α := (r.scan 0 none s).flatMap (Piece.shown f)

theorem Re.scan_hit {r : Re α} {prev : Option α} {c : α} {cs : List α} {n : Nat}
    (h : r.matchLength prev (c :: cs) = some (n + 1)) :
    r.scan 0 prev (c :: cs) = .hit ((c :: cs).take (n + 1)) :: r.scan n (some c) cs := by
  rw [Re.scan, h]

theorem Re.scan_kept {r : Re α} {prev : Option α} {c : α} {cs : List α}
    (h : ∀ n, r.matchLength prev (c :: cs) ≠ some (n + 1)) :
    r.scan 0 prev (c :: cs) = .kept c :: r.scan 0 (some c) cs := by
  rw [Re.scan]
  cases hlen : r.matchLength prev (c :: cs) with
  | none => rfl
  | some n =>
    cases n with
    | zero => rfl
    | succ n => exact absurd hlen (h n)

theorem Re.matchLength_mem {r : Re α} {prev : Option α} {s : List α} {n : Nat} (h : r.matchLength prev s = some n) :
    n ≤ s.length ∧ s.take n ∈ r.language := r.mem_lengths prev s n (List.mem_of_head? h)

/-- At a position there is a match, or the character is kept. -/
theorem Re.scan_cases (r : Re α) (prev : Option α) (c : α) (cs : List α) :
    (∃ n, r.matchLength prev (c :: cs) = some (n + 1) ∧
      r.scan 0 prev (c :: cs) = .hit ((c :: cs).take (n + 1)) :: r.scan n (some c) cs) ∨
    ((∀ n, r.matchLength prev (c :: cs) ≠ some (n + 1)) ∧
      r.scan 0 prev (c :: cs) = .kept c :: r.scan 0 (some c) cs) := by
  by_cases h : ∃ n, r.matchLength prev (c :: cs) = some (n + 1)
  · obtain ⟨n, hn⟩ := h
    exact .inl ⟨n, hn, Re.scan_hit hn⟩
  · have hno : ∀ n, r.matchLength prev (c :: cs) ≠ some (n + 1) := fun n hn => h ⟨n, hn⟩
    exact .inr ⟨hno, Re.scan_kept hno⟩

theorem Re.scan_source (r : Re α) (skip : Nat) (prev : Option α) (s : List α) :
    (r.scan skip prev s).flatMap Piece.source = s.drop skip := by
  induction s generalizing skip prev with
  | nil =>
    unfold Re.scan
    rw [List.drop_nil, List.flatMap_nil]
  | cons c cs ih =>
    cases skip with
    | succ skip =>
      unfold Re.scan
      rw [ih, List.drop_succ_cons]
    | zero =>
      rcases r.scan_cases prev c cs with ⟨n, _, hscan⟩ | ⟨_, hscan⟩
      · rw [hscan, List.flatMap_cons, ih, List.drop_zero]
        exact List.take_append_drop (n + 1) (c :: cs)
      · rw [hscan, List.flatMap_cons, ih, List.drop_zero, List.drop_zero]
        rfl

/-- What is substituted are words of the expression. -/
theorem Re.scan_hits (r : Re α) (skip : Nat) (prev : Option α) (s : List α) :
    ∀ w, .hit w ∈ r.scan skip prev s → w ∈ r.language ∧ w <:+: s := by
  induction s generalizing skip prev with
  | nil =>
    intro w hw
    unfold Re.scan at hw
    cases hw
  | cons c cs ih =>
    intro w hw
    have hlater : ∀ skip, .hit w ∈ r.scan skip (some c) cs → w ∈ r.language ∧ w <:+: c :: cs := fun skip hmem =>
      ⟨(ih skip _ w hmem).1, (ih skip _ w hmem).2.trans (List.suffix_cons c cs).isInfix⟩
    cases skip with
    | succ skip =>
      unfold Re.scan at hw
      exact hlater skip hw
    | zero =>
      rcases r.scan_cases prev c cs with ⟨n, hn, hscan⟩ | ⟨_, hscan⟩
      · rw [hscan] at hw
        rcases List.mem_cons.mp hw with heq | hw
        · cases heq
          exact ⟨(Re.matchLength_mem hn).2, (List.take_prefix _ _).isInfix⟩
        · exact hlater n hw
      · rw [hscan] at hw
        rcases List.mem_cons.mp hw with heq | hw
        · cases heq
        · exact hlater 0 hw

/-! ## Words in what is left -/

/-- A replacement that no word reaches into from outside, and that holds none. -/
structure Fence (L : Language α) (f : List α) : Prop where
  head : ∃ o rest, f = o :: rest ∧ ∀ m ∈ L, o ∉ m
  through : ∀ m ∈ L, ∀ rest, m <:+: f ++ rest → m <:+: rest

theorem infix_of_infix_cons {m xs : List α} {o : α} (ho : o ∉ m) (h : m <:+: o :: xs) : m <:+: xs := by
  rcases List.infix_cons_iff.mp h with h | h
  · rcases List.prefix_cons_iff.mp h with rfl | ⟨t, rfl, _⟩
    · exact List.nil_infix
    · exact absurd List.mem_cons_self ho
  · exact h

theorem infix_of_infix_append_cons {m ys : List α} {c : α} (hc : c ∉ m) (xs : List α) (h : m <:+: xs ++ c :: ys) :
    m <:+: xs ∨ m <:+: ys := by
  induction xs with
  | nil => exact .inr (infix_of_infix_cons hc h)
  | cons x xs ih =>
    rcases List.infix_cons_iff.mp h with hpre | h
    · have hshort : ∀ (zs : List α) (k : List α), c ∉ k → k <+: zs ++ c :: ys → k <+: zs := by
        intro zs
        induction zs with
        | nil =>
          intro k hk hpre
          rcases List.prefix_cons_iff.mp hpre with rfl | ⟨t, rfl, _⟩
          · exact List.nil_prefix
          · exact absurd List.mem_cons_self hk
        | cons z zs ihz =>
          intro k hk hpre
          rcases List.prefix_cons_iff.mp hpre with rfl | ⟨t, rfl, ht⟩
          · exact List.nil_prefix
          · exact List.cons_prefix_cons.mpr ⟨rfl, ihz t (fun hmem => hk (List.mem_cons_of_mem z hmem)) ht⟩
      exact .inl (hshort (x :: xs) m hc hpre).isInfix
    · rcases ih h with h | h
      · exact .inl (List.infix_cons_iff.mpr (.inr h))
      · exact .inr h

theorem fence_one {L : Language α} {o : α} (ho : ∀ m ∈ L, o ∉ m) : Fence L [o] :=
  ⟨⟨o, [], rfl, ho⟩, fun m hm _ h => infix_of_infix_cons (ho m hm) h⟩

theorem fence_between {L : Language α} {o c : α} {mid : List α} (ho : ∀ m ∈ L, o ∉ m) (hc : ∀ m ∈ L, c ∉ m)
    (hmid : ∀ m ∈ L, ¬ m <:+: mid) : Fence L (o :: (mid ++ [c])) := by
  refine ⟨⟨o, mid ++ [c], rfl, ho⟩, fun m hm rest h => ?_⟩
  rw [List.cons_append, List.append_assoc] at h
  exact (infix_of_infix_append_cons (hc m hm) mid (infix_of_infix_cons (ho m hm) h)).resolve_left (hmid m hm)

theorem prefix_append_mono {m xs ys : List α} (w : List α) (h : ∀ k, k <:+ m → k <+: xs → k <+: ys)
    (hm : m <+: w ++ xs) : m <+: w ++ ys := by
  induction w generalizing m with
  | nil => exact h m (List.suffix_refl m) hm
  | cons c w ih =>
    rcases List.prefix_cons_iff.mp hm with rfl | ⟨t, rfl, ht⟩
    · exact List.nil_prefix
    · exact List.cons_prefix_cons.mpr ⟨rfl, ih (fun k hk => h k (hk.trans (List.suffix_cons c t))) ht⟩

theorem infix_append_mono {m xs ys : List α} (w : List α) (hpre : ∀ k, k <:+ m → k <+: xs → k <+: ys)
    (hinf : m <:+: xs → m <:+: ys) (hm : m <:+: w ++ xs) : m <:+: w ++ ys := by
  induction w with
  | nil => exact hinf hm
  | cons c w ih =>
    rcases List.infix_cons_iff.mp hm with h | h
    · exact (prefix_append_mono (c :: w) hpre h).isInfix
    · exact List.infix_cons_iff.mpr (.inr (ih h))

section
variable {r : Re α} {f : List α → List α}

theorem Re.prefix_of_scan {m : List α} (hf : ∀ w, f w = w ∨ ∃ o rest, f w = o :: rest ∧ o ∉ m) (skip : Nat)
    (prev : Option α) (s : List α) (h : m <+: (r.scan skip prev s).flatMap (Piece.shown f)) : m <+: s.drop skip := by
  induction s generalizing skip prev m with
  | nil =>
    unfold Re.scan at h
    rw [List.drop_nil]
    exact h
  | cons c cs ih =>
    have hsub : ∀ k, k <:+ m → ∀ w, f w = w ∨ ∃ o rest, f w = o :: rest ∧ o ∉ k := by
      intro k hk w
      rcases hf w with heq | ⟨o, rest, heq, ho⟩
      · exact .inl heq
      · exact .inr ⟨o, rest, heq, fun hmem => ho (hk.mem hmem)⟩
    cases skip with
    | succ skip =>
      unfold Re.scan at h
      rw [List.drop_succ_cons]
      exact ih hf skip _ h
    | zero =>
      rw [List.drop_zero]
      rcases r.scan_cases prev c cs with ⟨n, _, hscan⟩ | ⟨_, hscan⟩
      · rw [hscan, List.flatMap_cons] at h
        show m <+: c :: cs
        rw [← List.take_append_drop (n + 1) (c :: cs), List.drop_succ_cons]
        rcases hf ((c :: cs).take (n + 1)) with heq | ⟨o, rest, heq, ho⟩
        · rw [show Piece.shown f (.hit ((c :: cs).take (n + 1))) = f ((c :: cs).take (n + 1)) from rfl, heq] at h
          exact prefix_append_mono _ (fun k hk hpre => ih (hsub k hk) n _ hpre) h
        · rw [show Piece.shown f (.hit ((c :: cs).take (n + 1))) = f ((c :: cs).take (n + 1)) from rfl, heq] at h
          rcases List.prefix_cons_iff.mp h with rfl | ⟨t, rfl, _⟩
          · exact List.nil_prefix
          · exact absurd List.mem_cons_self ho
      · rw [hscan, List.flatMap_cons] at h
        exact prefix_append_mono [c] (fun k hk hpre => ih (hsub k hk) 0 _ hpre) h

/-- A word that is left was there before, if what is replaced is fenced off. -/
theorem Re.infix_of_scan {L : Language α} {m : List α} (hm : m ∈ L) (hf : ∀ w, f w = w ∨ Fence L (f w)) (skip : Nat)
    (prev : Option α) (s : List α) (h : m <:+: (r.scan skip prev s).flatMap (Piece.shown f)) : m <:+: s.drop skip := by
  have hhead : ∀ k, k <:+ m → ∀ w, f w = w ∨ ∃ o rest, f w = o :: rest ∧ o ∉ k := by
    intro k hk w
    rcases hf w with heq | hfence
    · exact .inl heq
    · obtain ⟨o, rest, heq, ho⟩ := hfence.head
      exact .inr ⟨o, rest, heq, fun hmem => ho m hm (hk.mem hmem)⟩
  induction s generalizing skip prev with
  | nil =>
    unfold Re.scan at h
    rw [List.drop_nil]
    exact h
  | cons c cs ih =>
    cases skip with
    | succ skip =>
      unfold Re.scan at h
      rw [List.drop_succ_cons]
      exact ih skip _ h
    | zero =>
      rw [List.drop_zero]
      rcases r.scan_cases prev c cs with ⟨n, _, hscan⟩ | ⟨_, hscan⟩
      · rw [hscan, List.flatMap_cons] at h
        rw [← List.take_append_drop (n + 1) (c :: cs), List.drop_succ_cons]
        rcases hf ((c :: cs).take (n + 1)) with heq | hfence
        · rw [show Piece.shown f (.hit ((c :: cs).take (n + 1))) = f ((c :: cs).take (n + 1)) from rfl, heq] at h
          exact infix_append_mono _ (fun k hk => Re.prefix_of_scan (hhead k hk) n _ cs) (ih n _) h
        · exact (ih n _ (hfence.through m hm _ h)).trans (List.suffix_append _ _).isInfix
      · rw [hscan, List.flatMap_cons] at h
        exact infix_append_mono [c] (fun k hk => Re.prefix_of_scan (hhead k hk) 0 _ cs) (ih 0 _) h

/-- No word is left when every match is fenced off. -/
theorem Re.not_infix_sub (hplain : r.plain = true) (hnil : [] ∉ r.language) (hf : ∀ w, Fence r.language (f w)) (s : List α) :
    ∀ m ∈ r.language, ¬ m <:+: r.sub f s := by
  intro m hm
  have hhead : ∀ k, k <:+ m → ∀ w, f w = w ∨ ∃ o rest, f w = o :: rest ∧ o ∉ k := by
    intro k hk w
    obtain ⟨o, rest, heq, ho⟩ := (hf w).head
    exact .inr ⟨o, rest, heq, fun hmem => ho m hm (hk.mem hmem)⟩
  have hne : m ≠ [] := fun heq => hnil (heq ▸ hm)
  have hgen : ∀ (s : List α) (skip : Nat) (prev : Option α),
      ¬ m <:+: (r.scan skip prev s).flatMap (Piece.shown f) := by
    intro s
    induction s with
    | nil =>
      intro skip prev h
      unfold Re.scan at h
      exact hne (List.infix_nil.mp h)
    | cons c cs ih =>
      intro skip prev h
      cases skip with
      | succ skip =>
        unfold Re.scan at h
        exact ih skip _ h
      | zero =>
        rcases r.scan_cases prev c cs with ⟨n, _, hscan⟩ | ⟨hno, hscan⟩
        · rw [hscan, List.flatMap_cons] at h
          exact ih n _ ((hf _).through m hm _ h)
        · -- a word that starts here would have been a match
          rw [hscan, List.flatMap_cons] at h
          rcases List.infix_cons_iff.mp h with hpre | h
          · have hfull := prefix_append_mono [c] (fun k hk => Re.prefix_of_scan (hhead k hk) 0 _ cs) hpre
            obtain ⟨post, hpost⟩ := hfull
            have hlen := Re.length_mem hplain hm prev post
            rw [hpost] at hlen
            cases hfirst : r.matchLength prev (c :: cs) with
            | none => exact List.ne_nil_of_mem hlen (List.head?_eq_none_iff.mp hfirst)
            | some n =>
              cases n with
              | zero => exact hnil ((Re.matchLength_mem hfirst).2)
              | succ n => exact hno n hfirst
          · exact ih 0 _ h
  exact hgen s 0 none

/-- Characters at which no match starts are kept. -/
theorem Re.scan_keeps {xs rest : List α}
    (h : ∀ c post, c :: post <:+ xs → ∀ prev n, r.matchLength prev (c :: (post ++ rest)) ≠ some (n + 1)) (prev : Option α) :
    (r.scan 0 prev (xs ++ rest)).flatMap (Piece.shown f) =
      xs ++ (r.scan 0 (xs.getLast?.or prev) rest).flatMap (Piece.shown f) := by
  induction xs generalizing prev with
  | nil => rfl
  | cons c xs ih =>
    have hkept := Re.scan_kept (h c xs (List.suffix_refl _) prev)
    have hlast : (c :: xs).getLast?.or prev = xs.getLast?.or (some c) := by
      rw [List.getLast?_cons]
      cases xs.getLast? <;> rfl
    rw [List.cons_append, hkept, List.flatMap_cons, ih (fun d post hd => h d post (hd.trans (List.suffix_cons c xs))), hlast]
    rfl

theorem Re.scan_skip (xs rest : List α) (prev : Option α) :
    r.scan xs.length prev (xs ++ rest) = r.scan 0 (xs.getLast?.or prev) rest := by
  induction xs generalizing prev with
  | nil => rfl
  | cons c xs ih =>
    rw [List.length_cons, List.cons_append, Re.scan, ih, List.getLast?_cons]
    cases xs.getLast? <;> rfl

theorem Re.filter_sub (p : α → Bool) (h : ∀ w ∈ r.language, (f w).filter p = w.filter p) (s : List α) :
    (r.sub f s).filter p = s.filter p := by
  have hpieces : ∀ pieces : List (Piece α), (∀ w, .hit w ∈ pieces → w ∈ r.language) →
      (pieces.flatMap (Piece.shown f)).filter p = (pieces.flatMap Piece.source).filter p := by
    intro pieces hpieces
    induction pieces with
    | nil => rfl
    | cons x pieces ih =>
      rw [List.flatMap_cons, List.flatMap_cons, List.filter_append, List.filter_append,
        ih fun w hw => hpieces w (List.mem_cons_of_mem x hw)]
      cases x with
      | kept c => rfl
      | hit w =>
        rw [show Piece.shown f (.hit w) = f w from rfl, h w (hpieces w List.mem_cons_self)]
        rfl
  unfold Re.sub
  rw [hpieces _ fun w hw => (r.scan_hits 0 none s w hw).1, r.scan_source, List.drop_zero]

/-- Without a word of the expression nothing is replaced. -/
theorem Re.sub_eq_self {s : List α} (h : ∀ w ∈ r.language, ¬ w <:+: s) : r.sub f s = s := by
  have hpieces : ∀ pieces : List (Piece α), (∀ w, .hit w ∉ pieces) →
      pieces.flatMap (Piece.shown f) = pieces.flatMap Piece.source := by
    intro pieces hpieces
    induction pieces with
    | nil => rfl
    | cons x pieces ih =>
      rw [List.flatMap_cons, List.flatMap_cons, ih fun w hw => hpieces w (List.mem_cons_of_mem x hw)]
      cases x with
      | kept c => rfl
      | hit w => exact absurd List.mem_cons_self (hpieces w)
  unfold Re.sub
  rw [hpieces _ fun w hw => h w (r.scan_hits 0 none s w hw).1 (r.scan_hits 0 none s w hw).2, r.scan_source, List.drop_zero]

end

end Regex
