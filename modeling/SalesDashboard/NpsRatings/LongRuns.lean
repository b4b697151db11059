import SalesDashboard.NpsRatings.Phone

/-! Which runs of seven digits and more the masking of phone numbers leaves. -/

namespace SalesDashboard.NpsRatings
open Regex Python

variable {lib : Stdlib}

/-! ## Long runs -/

/-- Somewhere only digits, blanks and hyphens stand between seven digits and more. -/
def LongRun (lib : Stdlib) (s : List Char) : Prop :=
  ∃ run, run <:+: s ∧ (∀ c ∈ run, inRun lib c = true) ∧ 7 ≤ run.countP lib.digit

theorem LongRun.of_infix {s t : List Char} (h : LongRun lib s) (hst : s <:+: t) : LongRun lib t := by
  obtain ⟨run, hrun, hall, hcount⟩ := h
  exact ⟨run, hrun.trans hst, hall, hcount⟩

theorem longRun_append_cons {x : Char} (hx : inRun lib x = false) (xs ys : List Char) :
    LongRun lib (xs ++ x :: ys) ↔ LongRun lib xs ∨ LongRun lib ys := by
  constructor
  · rintro ⟨run, hrun, hall, hcount⟩
    have hmem : x ∉ run := by
      intro hmem
      rw [hall x hmem] at hx
      cases hx
    rcases infix_of_infix_append_cons hmem xs hrun with h | h
    · exact .inl ⟨run, h, hall, hcount⟩
    · exact .inr ⟨run, h, hall, hcount⟩
  · rintro (h | h)
    · exact h.of_infix (List.prefix_append xs _).isInfix
    · exact h.of_infix ((List.suffix_cons x ys).trans (List.suffix_append xs _)).isInfix

theorem longRun_block {b : List Char} (hb : ∀ c ∈ b, inRun lib c = true) : LongRun lib b ↔ 7 ≤ b.countP lib.digit := by
  constructor
  · rintro ⟨run, hrun, _, hcount⟩
    exact Nat.le_trans hcount (hrun.sublist.countP_le)
  · exact fun hcount => ⟨b, List.infix_refl b, hb, hcount⟩

theorem not_longRun {s : List Char} (hs : ∀ c ∈ s, lib.digit c = false) : ¬ LongRun lib s := by
  rintro ⟨run, hrun, _, hcount⟩
  have hzero : run.countP lib.digit = 0 :=
    List.countP_eq_zero.mpr fun c hc => Bool.eq_false_iff.mp (hs c (hrun.mem hc))
  omega

/-- Blanks do not count. -/
theorem longRun_filter (s : List Char) : LongRun lib (s.filter fun c => !isSpace c) ↔ LongRun lib s := by
  constructor
  · rintro ⟨run, ⟨pre, post, heq⟩, hall, hcount⟩
    obtain ⟨s₁, s₂, rfl, hs₁, _⟩ := List.filter_eq_append_iff.mp heq.symm
    obtain ⟨s₃, s₄, rfl, _, hs₄⟩ := List.filter_eq_append_iff.mp hs₁
    refine ⟨s₄, (List.suffix_append s₃ s₄).isInfix.trans (List.prefix_append _ s₂).isInfix, fun c hc => ?_, ?_⟩
    · cases hspace : isSpace c with
      | true =>
        unfold inRun
        rw [hspace, Bool.or_true]
        rfl
      | false =>
        refine hall c ?_
        rw [← hs₄]
        exact List.mem_filter.mpr ⟨hc, by rw [hspace]; rfl⟩
    · rw [← hs₄] at hcount
      exact Nat.le_trans hcount ((List.filter_sublist).countP_le)
  · rintro ⟨run, hrun, hall, hcount⟩
    refine ⟨run.filter fun c => !isSpace c, hrun.filter _, fun c hc => hall c (List.mem_filter.mp hc).1, ?_⟩
    rw [List.countP_filter]
    refine Nat.le_trans hcount (Nat.le_of_eq (List.countP_congr fun c _ => ?_))
    cases hspace : isSpace c with
    | true => simp [lib.digit_space c hspace]
    | false => simp

/-! ## Runs and their numbers -/

/-- The longest runs of digits, blanks and hyphens. -/
def runs (lib : Stdlib) (s : List Char) : List (List Char) := s.splitOnP fun c => !inRun lib c

/-- A run from its first digit to its last. -/
def number (lib : Stdlib) (b : List Char) : List Char :=
  (b.dropWhile fun c => !lib.digit c).rdropWhile fun c => !lib.digit c

/-- Seven digits with nothing between them, and no others in their run. -/
def SevenTogether (lib : Stdlib) (s : List Char) : Prop :=
  ∃ b ∈ runs lib s, (number lib b).length = 7 ∧ b.countP lib.digit = 7

instance (s : List Char) : Decidable (SevenTogether lib s) :=
  inferInstanceAs (Decidable (∃ b ∈ runs lib s, (number lib b).length = 7 ∧ b.countP lib.digit = 7))

/-- A run has no digits, or its number with blanks and hyphens around it. -/
theorem number_cases (b : List Char) :
    ((∀ c ∈ b, lib.digit c = false) ∧ number lib b = []) ∨
      ∃ lead trail d rest, b = lead ++ (number lib b ++ trail) ∧ (∀ c ∈ lead, lib.digit c = false) ∧
        (∀ c ∈ trail, lib.digit c = false) ∧ number lib b = d :: rest ∧ lib.digit d = true ∧
        (rest = [] ∨ ∃ mid e, rest = mid ++ [e] ∧ lib.digit e = true) := by
  have hlead : ∀ c ∈ b.takeWhile fun c => !lib.digit c, lib.digit c = false := fun c hc => by
    simpa using List.mem_takeWhile_imp hc
  have htrail : ∀ c ∈ (b.dropWhile fun c => !lib.digit c).rtakeWhile fun c => !lib.digit c, lib.digit c = false :=
    fun c hc => by simpa using List.mem_rtakeWhile_imp hc
  have hsplit : b = b.takeWhile (fun c => !lib.digit c) ++
      (number lib b ++ (b.dropWhile fun c => !lib.digit c).rtakeWhile fun c => !lib.digit c) := by
    unfold number
    rw [List.rdropWhile_append_rtakeWhile, List.takeWhile_append_dropWhile]
  cases hnumber : number lib b with
  | nil =>
    refine .inl ⟨fun c hc => ?_, rfl⟩
    rw [hsplit, hnumber] at hc
    rcases List.mem_append.mp hc with hc | hc
    · exact hlead c hc
    · exact htrail c hc
  | cons d rest =>
    refine .inr ⟨_, _, d, rest, hnumber ▸ hsplit, hlead, htrail, rfl, ?_, ?_⟩
    · have hpre : d :: rest <+: b.dropWhile fun c => !lib.digit c := hnumber ▸ List.rdropWhile_prefix _ _
      obtain ⟨t, ht⟩ := hpre
      have hhead := List.head?_dropWhile_not (fun c => !lib.digit c) b
      rw [← ht] at hhead
      simpa using hhead
    · by_cases hrest : rest = []
      · exact .inl hrest
      · refine .inr ⟨rest.dropLast, rest.getLast hrest, (List.dropLast_append_getLast hrest).symm, ?_⟩
        have hne : ((b.dropWhile fun c => !lib.digit c).rdropWhile fun c => !lib.digit c) ≠ [] := by
          show number lib b ≠ []
          rw [hnumber]
          exact List.cons_ne_nil d rest
        have hlast := List.rdropWhile_last_not _ _ hne
        have hsame : ((b.dropWhile fun c => !lib.digit c).rdropWhile fun c => !lib.digit c).getLast hne =
            rest.getLast hrest := by
          have heq : ((b.dropWhile fun c => !lib.digit c).rdropWhile fun c => !lib.digit c) = d :: rest := hnumber
          simp only [heq]
          exact List.getLast_cons hrest
        rw [hsame] at hlast
        simpa using hlast

/-! ## Masking -/

/-- The text behind a position, with its phone numbers masked. -/
def shownFrom (lib : Stdlib) (prev : Option Char) (s : List Char) : List Char :=
  ((PHONE lib).scan 0 prev s).flatMap (Piece.shown (maskPhone lib))

theorem digit_phone_mask : ∀ c ∈ PHONE_MASK, lib.digit c = false := by
  intro c hc
  unfold PHONE_MASK at hc
  simp only [List.mem_cons, List.not_mem_nil, or_false] at hc
  rcases hc with rfl | rfl | rfl | rfl | rfl | rfl | rfl <;> exact Stdlib.digit_of_ascii _ (by decide) (by decide)

theorem plus_not_inRun : inRun lib '+' = false := inRun_of_ascii '+' (by decide) (by decide) (by decide)

theorem maskPhone_run {w : List Char} (hw : ∀ c ∈ w, inRun lib c = true) :
    maskPhone lib w = if 7 ≤ w.countP lib.digit then PHONE_MASK else w := by
  unfold maskPhone
  rw [List.countP_congr fun c hc => by rw [isdigit_of_inRun (hw c hc)]]

/-- The last character, or the one before. -/
theorem getLast_or_any {xs : List Char} {prev : Option Char} (hxs : ∀ c ∈ xs, lib.digit c = false)
    (hprev : prev.any lib.digit = false) : (xs.getLast?.or prev).any lib.digit = false := by
  cases hlast : xs.getLast? with
  | none => exact hprev
  | some c => exact hxs c (List.mem_of_getLast? hlast)

theorem shownFrom_keeps {xs s : List Char} (hxs : ∀ c ∈ xs, lib.digit c = false ∧ c ≠ '+') (prev : Option Char) :
    shownFrom lib prev (xs ++ s) = xs ++ shownFrom lib (xs.getLast?.or prev) s :=
  Re.scan_keeps (fun c post hc _ n =>
    phone_other (hxs c (hc.mem List.mem_cons_self)).1 (hxs c (hc.mem List.mem_cons_self)).2 (post ++ s) (n + 1)) prev

/-- A run is shown, without its number if that is masked; the number is left as a long run
only if it has just seven digits. -/
theorem shownFrom_block {b rest : List Char} (hb : ∀ c ∈ b, inRun lib c = true)
    (hrest : ∀ c ∈ rest.head?, inRun lib c = false) {prev : Option Char} (hprev : prev.any lib.digit = false) :
    ∃ sb prev', shownFrom lib prev (b ++ rest) = sb ++ shownFrom lib prev' rest ∧
      (LongRun lib sb ↔ (number lib b).length = 7 ∧ b.countP lib.digit = 7) := by
  have hplus : ∀ c ∈ b, c ≠ '+' := by
    rintro c hc rfl
    have hno := (hb '+' hc).symm.trans plus_not_inRun
    cases hno
  rcases number_cases b with ⟨hnone, hnumber⟩ | ⟨lead, trail, d, mid, hsplit, hlead, htrail, hnumber, hd, hmid⟩
  · refine ⟨b, _, shownFrom_keeps (fun c hc => ⟨hnone c hc, hplus c hc⟩) prev, ?_⟩
    rw [hnumber]
    exact iff_of_false (not_longRun hnone) fun h => by cases h.1
  · have hcount : b.countP lib.digit = (number lib b).countP lib.digit := by
      have hzero : ∀ xs : List Char, (∀ c ∈ xs, lib.digit c = false) → xs.countP lib.digit = 0 := fun xs hxs =>
        List.countP_eq_zero.mpr fun c hc => Bool.eq_false_iff.mp (hxs c hc)
      conv_lhs => rw [hsplit]
      rw [List.countP_append, List.countP_append, hzero lead hlead, hzero trail htrail]
      omega
    have hle : (number lib b).countP lib.digit ≤ (number lib b).length := List.countP_le_length
    have hsub : ∀ c ∈ number lib b, c ∈ b := fun c hc => by
      rw [hsplit]
      exact List.mem_append_right _ (List.mem_append_left _ hc)
    have htrailsub : ∀ c ∈ trail, c ∈ b := fun c hc => by
      rw [hsplit]
      exact List.mem_append_right _ (List.mem_append_right _ hc)
    have hleadsub : ∀ c ∈ lead, c ∈ b := fun c hc => by
      rw [hsplit]
      exact List.mem_append_left _ hc
    have hrun : ∀ c ∈ number lib b, inRun lib c = true := fun c hc => hb c (hsub c hc)
    have hahead : NoDigitAhead lib (trail ++ rest) := noDigitAhead_append htrail hrest
    have hjoin : ∀ xs, b ++ xs = lead ++ (number lib b ++ (trail ++ xs)) := fun xs => by
      refine (congrArg (· ++ xs) hsplit).trans ?_
      rw [List.append_assoc, List.append_assoc]
    have hstart : shownFrom lib prev (b ++ rest) =
        lead ++ shownFrom lib (lead.getLast?.or prev) (number lib b ++ (trail ++ rest)) := by
      rw [hjoin]
      exact shownFrom_keeps (fun c hc => ⟨hlead c hc, hplus c (hleadsub c hc)⟩) prev
    have hend : ∀ p, shownFrom lib p (trail ++ rest) = trail ++ shownFrom lib (trail.getLast?.or p) rest :=
      fun p => shownFrom_keeps (fun c hc => ⟨htrail c hc, hplus c (htrailsub c hc)⟩) p
    by_cases hshort : (number lib b).length < 8
    · -- too short for the pattern
      have hkeep : ∀ p, shownFrom lib p (number lib b ++ (trail ++ rest)) =
          number lib b ++ shownFrom lib ((number lib b).getLast?.or p) (trail ++ rest) := fun p =>
        Re.scan_keeps (fun c post hc prev n => by
          refine phone_short (w := c :: post) hahead (Nat.lt_of_le_of_lt hc.length_le hshort) ?_ (n + 1)
          intro hhead
          exact hplus c (hsub c (hc.mem List.mem_cons_self)) (Option.some.inj hhead)) p
      refine ⟨b, trail.getLast?.or ((number lib b).getLast?.or (lead.getLast?.or prev)), ?_, ?_⟩
      · rw [hstart, hkeep, hend, hjoin]
      · rw [longRun_block hb, hcount]
        omega
    · -- the pattern matches the number
      rcases hmid with rfl | ⟨middle, e, rfl, he⟩
      · rw [hnumber] at hshort
        exact absurd (show [d].length < 8 by rw [List.length_singleton]; omega) hshort
      · have hlength : (number lib b).length = middle.length + 2 := by
          rw [hnumber, List.length_cons, List.length_append, List.length_singleton]
        have hmatch := @phone_long lib _ (getLast_or_any hlead hprev) d e middle _ hd he
          (fun c hc => hrun c (by rw [hnumber]; exact List.mem_cons_of_mem d (List.mem_append_left _ hc))) (by omega) hahead
        have hform : number lib b ++ (trail ++ rest) = d :: ((middle ++ [e]) ++ (trail ++ rest)) := by
          rw [hnumber, List.cons_append]
        have hflat : (middle ++ [e]) ++ (trail ++ rest) = middle ++ e :: (trail ++ rest) := by
          rw [List.append_assoc, List.singleton_append]
        have htake : (d :: ((middle ++ [e]) ++ (trail ++ rest))).take (middle.length + 1 + 1) = number lib b := by
          rw [← hform, show middle.length + 1 + 1 = (number lib b).length from hlength.symm, List.take_left]
        have hnum : shownFrom lib (lead.getLast?.or prev) (number lib b ++ (trail ++ rest)) =
            maskPhone lib (number lib b) ++ shownFrom lib ((middle ++ [e]).getLast?.or (some d)) (trail ++ rest) := by
          unfold shownFrom
          rw [hform, Re.scan_hit (hflat ▸ hmatch), htake, List.flatMap_cons]
          refine congrArg (_ ++ ·) ?_
          have hskip := Re.scan_skip (r := PHONE lib) (middle ++ [e]) (trail ++ rest) (some d)
          rw [List.length_append, List.length_singleton] at hskip
          rw [hskip]
        refine ⟨lead ++ (maskPhone lib (number lib b) ++ trail),
          trail.getLast?.or ((middle ++ [e]).getLast?.or (some d)), ?_, ?_⟩
        · rw [hstart, hnum, hend, List.append_assoc, List.append_assoc]
        · rw [maskPhone_run hrun]
          split
          · refine iff_of_false (not_longRun fun c hc => ?_) fun h => by omega
            rcases List.mem_append.mp hc with hc | hc
            · exact hlead c hc
            · rcases List.mem_append.mp hc with hc | hc
              · exact digit_phone_mask c hc
              · exact htrail c hc
          · rw [← hsplit, longRun_block hb, hcount]
            omega

/-- A character outside the runs ends them, also if it is a sign taken with a number. -/
theorem shownFrom_other {x : Char} (hx : inRun lib x = false) (prev : Option Char) (rest : List Char) :
    ∃ y tail, shownFrom lib prev (x :: rest) = y :: tail ∧ inRun lib y = false ∧
      (LongRun lib tail ↔ LongRun lib (shownFrom lib (some x) rest)) := by
  unfold shownFrom
  rcases (PHONE lib).scan_cases prev x rest with ⟨n, hn, hscan⟩ | ⟨_, hscan⟩
  · have hxplus : x = '+' := by
      by_contra hne
      exact phone_other (digit_of_not_inRun hx) hne rest _ hn
    subst hxplus
    have hprev : prev.any lib.digit = false := by
      cases hprev : prev.any lib.digit with
      | false => rfl
      | true => exact absurd hn (phone_behind_digit hprev _ _)
    have hhead : rest.head?.any lib.digit = true := by
      cases hhead : rest.head?.any lib.digit with
      | true => rfl
      | false => exact absurd hn (phone_plus_other hhead _)
    cases rest with
    | nil => cases hhead
    | cons d t =>
      have hinner : (PHONE lib).matchLength (some '+') (d :: t) = some n := by
        rw [phone_plus hprev hhead] at hn
        obtain ⟨k, hk, hkn⟩ := Option.map_eq_some_iff.mp hn
        rw [hk, Nat.succ.inj hkn]
      cases n with
      | zero =>
        obtain ⟨plus, c, mid, e, heq, _⟩ := mem_phone (Re.matchLength_mem hinner).2
        have hlen := congrArg List.length heq
        simp at hlen
      | succ n =>
        have hinnerscan := Re.scan_hit hinner
        have houter : (PHONE lib).scan (n + 1) (some '+') (d :: t) = (PHONE lib).scan n (some d) t := by
          rw [Re.scan]
        rw [hscan, hinnerscan, houter, List.take_succ_cons]
        rw [List.flatMap_cons, List.flatMap_cons]
        set w := (d :: t).take (n + 1) with hw
        set tail := ((PHONE lib).scan n (some d) t).flatMap (Piece.shown (maskPhone lib)) with htail
        have hsame : ('+' :: w).countP lib.isdigit = w.countP lib.isdigit :=
          List.countP_cons_of_neg (by rw [lib.isdigit_ascii '+' (by decide)]; decide)
        show ∃ y tail', maskPhone lib ('+' :: w) ++ tail = y :: tail' ∧ inRun lib y = false ∧
          (LongRun lib tail' ↔ LongRun lib (maskPhone lib w ++ tail))
        unfold maskPhone
        rw [hsame]
        split
        · refine ⟨'[', ['p', 'h', 'o', 'n', 'e'] ++ ']' :: tail, rfl,
            inRun_of_ascii '[' (by decide) (by decide) (by decide), ?_⟩
          have hopen := @longRun_append_cons lib '[' (inRun_of_ascii '[' (by decide) (by decide) (by decide)) []
            (['p', 'h', 'o', 'n', 'e'] ++ ']' :: tail)
          have hnil : ¬ LongRun lib [] := not_longRun fun c hc => absurd hc List.not_mem_nil
          exact (hopen.trans (or_iff_right hnil)).symm
        · exact ⟨'+', w ++ tail, rfl, plus_not_inRun, Iff.rfl⟩
  · rw [hscan, List.flatMap_cons]
    exact ⟨x, _, rfl, hx, Iff.rfl⟩

theorem runs_block {b : List Char} (hb : ∀ c ∈ b, inRun lib c = true) : runs lib b = [b] :=
  List.splitOnP_eq_singleton fun c hc => by rw [hb c hc]; rfl

theorem runs_append_cons {b : List Char} (hb : ∀ c ∈ b, inRun lib c = true) {x : Char} (hx : inRun lib x = false)
    (rest : List Char) : runs lib (b ++ x :: rest) = b :: runs lib rest :=
  List.splitOnP_append_cons_of_forall_mem (fun c hc => by rw [hb c hc]; rfl) x (by rw [hx]; rfl) rest

/-- The masking leaves a long run exactly where seven digits stand together. -/
theorem longRun_shownFrom (s : List Char) (prev : Option Char) (hprev : prev.any lib.digit = false) :
    LongRun lib (shownFrom lib prev s) ↔ SevenTogether lib s := by
  induction hlen : s.length using Nat.strong_induction_on generalizing s prev with
  | _ n ih =>
    have hb : ∀ c ∈ s.takeWhile (inRun lib), inRun lib c = true := fun c hc => List.mem_takeWhile_imp hc
    have hsplit : s.takeWhile (inRun lib) ++ s.dropWhile (inRun lib) = s := List.takeWhile_append_dropWhile
    set b := s.takeWhile (inRun lib) with hbdef
    cases hrest : s.dropWhile (inRun lib) with
    | nil =>
      rw [hrest, List.append_nil] at hsplit
      obtain ⟨sb, prev', hshown, hiff⟩ := @shownFrom_block lib _ [] hb (fun c hc => by cases hc) prev hprev
      rw [List.append_nil] at hshown
      unfold SevenTogether
      rw [← hsplit, hshown, runs_block hb]
      show LongRun lib (sb ++ []) ↔ _
      rw [List.append_nil, hiff]
      simp
    | cons x rest =>
      have hx : inRun lib x = false := by
        have hhead := List.head?_dropWhile_not (inRun lib) s
        rw [hrest] at hhead
        simpa using hhead
      rw [hrest] at hsplit
      obtain ⟨sb, prev', hshown, hiff⟩ := @shownFrom_block lib _ (x :: rest) hb
        (fun c hc => by rw [← Option.some.inj hc]; exact hx) prev hprev
      obtain ⟨y, tail, hother, hy, htail⟩ := shownFrom_other hx prev' rest
      have hlt : rest.length < n := by
        rw [← hlen, ← hsplit, List.length_append, List.length_cons]
        omega
      have hih := ih rest.length hlt rest (some x) (digit_of_not_inRun hx) rfl
      unfold SevenTogether at hih ⊢
      rw [← hsplit, hshown, hother, longRun_append_cons hy, hiff, htail, hih, runs_append_cons hb hx]
      simp

end SalesDashboard.NpsRatings
