import SalesDashboard.NpsRatings.CommentText

/-! What the pattern of phone numbers matches, and which long runs of digits it leaves. -/

namespace SalesDashboard.NpsRatings
open Regex Python

variable {lib : Stdlib}

/-! ## Characters -/

theorem Stdlib.digit_of_ascii (c : Char) (hc : c.toNat < 128) (hno : c.isDigit = false) :
    lib.digit c = false := (lib.digit_ascii c hc).trans hno

theorem Stdlib.word_of_ascii (c : Char) (hc : c.toNat < 128)
    (hno : (c.isAlphanum || c = '_') = false) : lib.word c = false := (lib.word_ascii c hc).trans hno

theorem inRun_of_ascii (c : Char) (hc : c.toNat < 128) (hno : c.isDigit = false)
    (hspace : (isSpace c || c = '-') = false) : inRun lib c = false := by
  unfold inRun
  rw [Stdlib.digit_of_ascii c hc hno, Bool.false_or]
  exact hspace

theorem inRun_digit {c : Char} (h : lib.digit c = true) : inRun lib c = true := by
  unfold inRun
  rw [h]
  rfl

theorem digit_of_not_inRun {c : Char} (h : inRun lib c = false) : lib.digit c = false := by
  cases hd : lib.digit c with
  | false => rfl
  | true =>
    rw [inRun_digit hd] at h
    cases h

theorem isdigit_of_inRun {c : Char} (h : inRun lib c = true) : lib.isdigit c = lib.digit c := by
  cases hd : lib.digit c with
  | true => exact lib.isdigit_digit c hd
  | false =>
    unfold inRun at h
    rw [hd, Bool.false_or] at h
    rcases Bool.or_eq_true_iff.mp h with h | h
    · exact lib.isdigit_space c h
    · rw [of_decide_eq_true h]
      exact lib.isdigit_ascii '-' (by decide)

/-! ## Matches -/

/-- A phone number in the sense of the pattern. -/
theorem mem_phone {w : List Char} (h : w ∈ (PHONE lib).language) :
    ∃ plus d mid e, w = plus ++ d :: (mid ++ [e]) ∧ (plus = [] ∨ plus = ['+']) ∧ lib.digit d = true ∧
      lib.digit e = true ∧ 6 ≤ mid.length ∧ ∀ c ∈ mid, inRun lib c = true := by
  obtain ⟨_, rfl, _, ⟨plus, hplus, _, ⟨_, ⟨d, hd, rfl⟩, _, ⟨mid, ⟨hlen, hmid⟩, _, ⟨_, ⟨e, he, rfl⟩, _, rfl, rfl⟩, rfl⟩, rfl⟩,
    rfl⟩, rfl⟩ := h
  refine ⟨plus, d, mid, e, rfl, ?_, hd, he, hlen, hmid⟩
  rcases hplus with rfl | ⟨c, hc, rfl⟩
  · exact .inl rfl
  · exact .inr (by rw [of_decide_eq_true hc])

theorem phone_behind_digit {prev : Option Char} (hprev : prev.any lib.digit = true) (s : List Char) (n : Nat) :
    (PHONE lib).matchLength prev s ≠ some n := by
  intro h
  have hmem := List.mem_of_head? h
  obtain ⟨k, hk, _⟩ := List.mem_flatMap.mp hmem
  unfold Re.lengths at hk
  rw [if_pos hprev] at hk
  cases hk

/-- No digit comes before the next character that is not of a run. -/
def NoDigitAhead (lib : Stdlib) (s : List Char) : Prop := ∀ c ∈ s.takeWhile (inRun lib), lib.digit c = false

theorem noDigitAhead_append {trail rest : List Char} (htrail : ∀ c ∈ trail, lib.digit c = false)
    (hrest : ∀ c ∈ rest.head?, inRun lib c = false) : NoDigitAhead lib (trail ++ rest) := by
  intro c hc
  have hnil : rest.takeWhile (inRun lib) = [] := by
    cases rest with
    | nil => rfl
    | cons x rest => exact List.takeWhile_cons_of_neg (Bool.eq_false_iff.mp (hrest x rfl))
  rw [List.takeWhile_append] at hc
  split at hc
  · rw [hnil, List.append_nil] at hc
    exact htrail c hc
  · exact htrail c (List.takeWhile_prefix _ |>.subset hc)

theorem noDigitAhead_cons {c : Char} {s : List Char} (h : NoDigitAhead lib (c :: s)) (hc : inRun lib c = true) :
    lib.digit c = false ∧ NoDigitAhead lib s := by
  unfold NoDigitAhead at h
  rw [List.takeWhile_cons_of_pos hc] at h
  exact List.forall_mem_cons.mp h

/-- A prefix in a run that ends with a digit ends before the part without digits. -/
theorem length_le_of_prefix {w p s : List Char} {e : Char} (hs : NoDigitAhead lib s) (he : lib.digit e = true)
    (hp : ∀ c ∈ p, inRun lib c = true) (hpre : p ++ [e] <+: w ++ s) : p.length + 1 ≤ w.length := by
  induction w generalizing p with
  | nil =>
    exfalso
    rw [List.nil_append] at hpre
    induction p generalizing s with
    | nil =>
      obtain ⟨t, rfl⟩ := hpre
      have hno := (noDigitAhead_cons hs (inRun_digit he)).1
      rw [he] at hno
      cases hno
    | cons c p ihp =>
      cases s with
      | nil => exact absurd (List.prefix_nil.mp hpre) (List.cons_ne_nil _ _)
      | cons x s =>
        obtain ⟨rfl, htail⟩ := List.cons_prefix_cons.mp hpre
        exact ihp (noDigitAhead_cons hs (hp c List.mem_cons_self)).2 (fun c hc => hp c (List.mem_cons_of_mem _ hc)) htail
  | cons x w ih =>
    cases p with
    | nil => exact Nat.succ_le_succ (Nat.zero_le _)
    | cons c p =>
      obtain ⟨rfl, htail⟩ := List.cons_prefix_cons.mp hpre
      exact Nat.succ_le_succ (ih (fun c hc => hp c (List.mem_cons_of_mem _ hc)) htail)

/-- A number of fewer than eight characters is not matched. -/
theorem phone_short {prev : Option Char} {w s : List Char} (hs : NoDigitAhead lib s) (hw : w.length < 8)
    (hplus : '+' ∉ (w ++ s).head?) (n : Nat) : (PHONE lib).matchLength prev (w ++ s) ≠ some n := by
  intro h
  obtain ⟨plus, d, mid, e, heq, hsign, hd, he, hlen, hmid⟩ := mem_phone (Re.matchLength_mem h).2
  have hpre : plus ++ d :: (mid ++ [e]) <+: w ++ s := heq ▸ List.take_prefix n _
  rcases hsign with rfl | rfl
  · have hle := length_le_of_prefix (p := d :: mid) hs he
      (List.forall_mem_cons.mpr ⟨inRun_digit hd, hmid⟩) hpre
    rw [List.length_cons] at hle
    omega
  · obtain ⟨t, ht⟩ := hpre
    rw [← ht] at hplus
    exact hplus rfl

theorem phone_other {prev : Option Char} {c : Char} (hc : lib.digit c = false) (hplus : c ≠ '+') (s : List Char) (n : Nat) :
    (PHONE lib).matchLength prev (c :: s) ≠ some n := by
  intro h
  obtain ⟨plus, d, mid, e, heq, hsign, hd, _⟩ := mem_phone (Re.matchLength_mem h).2
  have hpre : plus ++ d :: (mid ++ [e]) <+: c :: s := heq ▸ List.take_prefix n _
  rcases hsign with rfl | rfl
  · obtain ⟨rfl, _⟩ := List.cons_prefix_cons.mp hpre
    rw [hd] at hc
    cases hc
  · exact hplus (List.cons_prefix_cons.mp hpre).1.symm

/-- The pattern behind its conditions on the left. -/
def numberTail (lib : Stdlib) : Re Char :=
  .seq (.one lib.digit) (.seq (.many 6 (inRun lib)) (.seq (.one lib.digit) (.notBefore lib.digit)))

/-- A digit behind which none follows. -/
def lastDigit (lib : Stdlib) (s : List Char) : Bool := s.head?.any lib.digit && !(s.drop 1).head?.any lib.digit

theorem lengths_lastDigit (prev : Option Char) (s : List Char) :
    (Re.seq (.one lib.digit) (.notBefore lib.digit)).lengths prev s = if lastDigit lib s then [1] else [] := by
  unfold lastDigit
  simp only [Re.lengths]
  cases hs : s.head?.any lib.digit with
  | false => rfl
  | true =>
    simp only [if_true, List.flatMap_singleton, Bool.true_and]
    cases hnext : (s.drop 1).head?.any lib.digit <;> rfl

/-- How many characters may stand between the first and the last digit, most first. -/
def middles (lib : Stdlib) (s : List Char) : List Nat :=
  ((List.range ((s.takeWhile (inRun lib)).length + 1)).filter (6 ≤ ·)).reverse

theorem lengths_numberTail (prev : Option Char) {d : Char} (hd : lib.digit d = true) (s : List Char) :
    (numberTail lib).lengths prev (d :: s) =
      (middles lib s).flatMap fun k => if lastDigit lib (s.drop k) then [k + 2] else [] := by
  unfold numberTail
  rw [Re.lengths, Re.lengths, if_pos (show ((d :: s).head?.any lib.digit) = true from hd), List.flatMap_singleton,
    Re.lengths, List.drop_one, List.tail_cons, List.map_flatMap,
    show (Re.many 6 (inRun lib)).lengths (before prev (d :: s) 1) s = middles lib s from rfl]
  simp only [lengths_lastDigit]
  refine congrArg List.flatten (List.map_congr_left fun k _ => ?_)
  split
  · simp only [List.map_cons, List.map_nil]
    congr 1
    omega
  · rfl

theorem find_last {q : Nat → Bool} {xs : List Nat} (hsorted : xs.Pairwise (· > ·)) {k : Nat} (hk : k ∈ xs)
    (hq : q k = true) (hno : ∀ j ∈ xs, k < j → q j = false) : xs.find? q = some k := by
  obtain ⟨as, bs, rfl⟩ := List.append_of_mem hk
  refine List.find?_eq_some_iff_append.mpr ⟨hq, as, bs, rfl, fun j hj => ?_⟩
  have hgt : j > k := (List.pairwise_append.mp hsorted).2.2 j hj k List.mem_cons_self
  rw [hno j (List.mem_append_left _ hj) hgt]
  rfl

theorem head_flatMap_if {q : Nat → Bool} (g : Nat → Nat) (xs : List Nat) :
    (xs.flatMap fun k => if q k then [g k] else []).head? = (xs.find? q).map g := by
  induction xs with
  | nil => rfl
  | cons x xs ih =>
    rw [List.flatMap_cons]
    cases hq : q x with
    | true =>
      rw [List.find?_cons_of_pos hq]
      rfl
    | false =>
      rw [List.find?_cons_of_neg (Bool.eq_false_iff.mp hq)]
      exact ih

theorem sorted_middles (s : List Char) : (middles lib s).Pairwise (· > ·) := by
  unfold middles
  rw [List.pairwise_reverse]
  exact List.Pairwise.filter _ List.pairwise_lt_range

theorem NoDigitAhead.head_drop {s : List Char} (h : NoDigitAhead lib s) {j : Nat}
    (hj : j ≤ (s.takeWhile (inRun lib)).length) : (s.drop j).head?.any lib.digit = false := by
  induction s generalizing j with
  | nil =>
    rw [List.drop_nil]
    rfl
  | cons c s ih =>
    cases hc : inRun lib c with
    | true =>
      obtain ⟨hno, hrest⟩ := noDigitAhead_cons h hc
      rw [List.takeWhile_cons_of_pos hc, List.length_cons] at hj
      cases j with
      | zero => exact hno
      | succ j => exact ih hrest (Nat.le_of_succ_le_succ hj)
    | false =>
      rw [List.takeWhile_cons_of_neg (Bool.eq_false_iff.mp hc)] at hj
      obtain rfl : j = 0 := Nat.le_zero.mp hj
      exact digit_of_not_inRun hc

/-- The pattern runs to the last digit of a run. -/
theorem first_numberTail (prev : Option Char) {d e : Char} {mid s : List Char} (hd : lib.digit d = true)
    (he : lib.digit e = true) (hmid : ∀ c ∈ mid, inRun lib c = true) (hlen : 6 ≤ mid.length) (hs : NoDigitAhead lib s) :
    ((numberTail lib).lengths prev (d :: (mid ++ e :: s))).head? = some (mid.length + 2) := by
  have htake : ((mid ++ e :: s).takeWhile (inRun lib)).length = mid.length + 1 + (s.takeWhile (inRun lib)).length := by
    rw [List.takeWhile_append_of_pos hmid, List.takeWhile_cons_of_pos (inRun_digit he), List.length_append, List.length_cons]
    omega
  have hfind : (middles lib (mid ++ e :: s)).find? (fun k => lastDigit lib ((mid ++ e :: s).drop k)) = some mid.length := by
    refine find_last (sorted_middles _) ?_ ?_ ?_
    · refine List.mem_reverse.mpr (List.mem_filter.mpr ⟨List.mem_range.mpr ?_, decide_eq_true hlen⟩)
      omega
    · rw [List.drop_left]
      unfold lastDigit
      have hnext := hs.head_drop (Nat.zero_le _)
      rw [List.drop_zero] at hnext
      rw [List.drop_one, List.tail_cons, hnext]
      exact Bool.and_eq_true_iff.mpr ⟨he, rfl⟩
    · intro k hk hlt
      have hle := List.mem_range.mp (List.mem_filter.mp (List.mem_reverse.mp hk)).1
      unfold lastDigit
      have hdrop : (mid ++ e :: s).drop k = s.drop (k - mid.length - 1) := by
        rw [show k = mid.length + (1 + (k - mid.length - 1)) by omega, ← List.drop_drop, List.drop_left, Nat.add_comm 1,
          List.drop_succ_cons]
        congr 1
        omega
      rw [hdrop, hs.head_drop (by omega)]
      rfl
  rw [lengths_numberTail prev hd, head_flatMap_if (· + 2), hfind]
  rfl

theorem before_zero (prev : Option Char) (s : List Char) : before prev s 0 = prev := rfl

theorem phone_lengths {prev : Option Char} (hprev : prev.any lib.digit = false) {d : Char} (hd : lib.digit d = true)
    (s : List Char) : (PHONE lib).lengths prev (d :: s) = (numberTail lib).lengths prev (d :: s) := by
  have hplus : decide (d = '+') = false := by
    refine decide_eq_false fun h => ?_
    rw [h, Stdlib.digit_of_ascii '+' (by decide) (by decide)] at hd
    cases hd
  have hopt : (Re.opt (α := Char) (fun c => decide (c = '+'))).lengths prev (d :: s) = [0] := by
    unfold Re.lengths
    exact if_neg (by rw [show ((d :: s).head?.any fun c => decide (c = '+')) = decide (d = '+') from rfl, hplus]; exact Bool.false_ne_true)
  show (Re.seq (.notAfter lib.digit) (.seq (.opt fun c => decide (c = '+')) (numberTail lib))).lengths prev (d :: s) = _
  rw [Re.lengths, Re.lengths, if_neg (by rw [hprev]; exact Bool.false_ne_true), List.flatMap_singleton, before_zero,
    List.drop_zero, Re.lengths, hopt, List.flatMap_singleton, before_zero, List.drop_zero]
  simp only [Nat.zero_add, List.map_id']

theorem phone_long {prev : Option Char} (hprev : prev.any lib.digit = false) {d e : Char} {mid s : List Char}
    (hd : lib.digit d = true) (he : lib.digit e = true) (hmid : ∀ c ∈ mid, inRun lib c = true) (hlen : 6 ≤ mid.length)
    (hs : NoDigitAhead lib s) : (PHONE lib).matchLength prev (d :: (mid ++ e :: s)) = some (mid.length + 2) := by
  unfold Re.matchLength
  rw [phone_lengths hprev hd]
  exact first_numberTail prev hd he hmid hlen hs

/-- A sign is taken with the number behind it. -/
theorem phone_plus {prev : Option Char} (hprev : prev.any lib.digit = false) {d : Char} (hd : lib.digit d = true)
    (s : List Char) : (PHONE lib).matchLength prev ('+' :: d :: s) =
      ((PHONE lib).matchLength (some '+') (d :: s)).map (· + 1) := by
  have hplus : lib.digit '+' = false := Stdlib.digit_of_ascii '+' (by decide) (by decide)
  have hnone : (numberTail lib).lengths prev ('+' :: d :: s) = [] := by
    unfold numberTail
    rw [Re.lengths, Re.lengths, if_neg (by rw [show ('+' :: d :: s).head?.any lib.digit = lib.digit '+' from rfl, hplus]; exact Bool.false_ne_true)]
    rfl
  have hopt : (Re.opt (α := Char) (fun c => decide (c = '+'))).lengths prev ('+' :: d :: s) = [1, 0] := rfl
  have hlengths : (PHONE lib).lengths prev ('+' :: d :: s) =
      ((numberTail lib).lengths (some '+') (d :: s)).map (1 + ·) := by
    show (Re.seq (.notAfter lib.digit) (.seq (.opt fun c => decide (c = '+')) (numberTail lib))).lengths prev _ = _
    rw [Re.lengths, Re.lengths, if_neg (by rw [hprev]; exact Bool.false_ne_true), List.flatMap_singleton, before_zero,
      List.drop_zero, Re.lengths, hopt, List.flatMap_cons, List.flatMap_singleton, before_zero, List.drop_zero, hnone,
      List.map_nil, List.append_nil]
    simp only [Nat.zero_add, List.map_id']
    rfl
  unfold Re.matchLength
  rw [hlengths, phone_lengths (show (some '+').any lib.digit = false from hplus) hd, List.head?_map]
  refine congrArg (fun f => Option.map f _) (funext fun n => ?_)
  omega

theorem phone_plus_other {prev : Option Char} {s : List Char} (hs : s.head?.any lib.digit = false) (n : Nat) :
    (PHONE lib).matchLength prev ('+' :: s) ≠ some n := by
  intro h
  obtain ⟨plus, d, mid, e, heq, hsign, hd, _⟩ := mem_phone (Re.matchLength_mem h).2
  have hpre : plus ++ d :: (mid ++ [e]) <+: '+' :: s := heq ▸ List.take_prefix n _
  rcases hsign with rfl | rfl
  · obtain ⟨rfl, _⟩ := List.cons_prefix_cons.mp hpre
    rw [Stdlib.digit_of_ascii '+' (by decide) (by decide)] at hd
    cases hd
  · obtain ⟨t, rfl⟩ := (List.cons_prefix_cons.mp hpre).2
    exact Bool.false_ne_true (hs.symm.trans hd)

end SalesDashboard.NpsRatings
