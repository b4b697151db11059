import SalesDashboard.MarcomKpi.RatOps
import Mathlib

/-! The decimal texts that `Rat.parse` accepts, with the number each denotes and the
operations that reading it carries out. -/

namespace SalesDashboard.MarcomKpi.Exact
open Marcom SalesDashboard.MarcomKpi.Exact.Rat

/-! ## The grammar -/

def Digits (cs : List Char) : Prop := ∀ c ∈ cs, c.isDigit = true

inductive SignText : List Char → ℤ → Prop
  | none : SignText [] 1
  | plus : SignText ['+'] 1
  | minus : SignText ['-'] (-1)

/-- Digits with an optional point. -/
inductive Mantissa : List Char → ℚ → List Operation → Prop
  | whole {int : List Char} : Digits int → int ≠ [] → Mantissa int (digitsValue int) [.digits int, .power 0]
  | point {int frac : List Char} : Digits int → Digits frac → ¬ (int = [] ∧ frac = []) →
      Mantissa (int ++ '.' :: frac) (digitsValue (int ++ frac) / 10 ^ frac.length)
        [.digits ((if int = [] then ['0'] else int) ++ frac), .power frac.length]

/-- What a power of ten does with the lowest terms of a number. -/
def scaleOps (q : ℚ) (k : ℤ) : List Operation :=
  .power k.natAbs ::
    if 0 ≤ k then [.product q.num (10 ^ k.natAbs), .product q.den 1]
    else [.product q.num 1, .product q.den (10 ^ k.natAbs)]

inductive Decimal : List Char → ℚ → List Operation → Prop
  | plain {sg m : List Char} {σ : ℤ} {q : ℚ} {ops : List Operation} : SignText sg σ → Mantissa m q ops →
      Decimal (sg ++ m) (σ * q) ops
  | scaled {sg m sx x : List Char} {σ τ : ℤ} {q : ℚ} {ops : List Operation} {e : Char} : SignText sg σ →
      Mantissa m q ops → isE e = true → SignText sx τ → Digits x → x ≠ [] →
      Decimal (sg ++ m ++ e :: (sx ++ x)) (σ * q * 10 ^ (τ * digitsValue x))
        (ops ++ scaleOps (σ * q) (τ * digitsValue x))

/-! ## Signs -/

theorem not_isSign_of_digit {c : Char} (h : c.isDigit = true) : isSign c = false := by
  unfold isSign
  rw [Bool.or_eq_false_iff, decide_eq_false_iff_not, decide_eq_false_iff_not]
  constructor <;> rintro rfl <;> exact absurd h (by decide)

theorem Mantissa.head {m : List Char} {q : ℚ} {ops : List Operation} (h : Mantissa m q ops) :
    ∃ c cs, m = c :: cs ∧ isSign c = false := by
  cases h with
  | whole hint hne =>
    obtain ⟨c, cs, rfl⟩ := List.exists_cons_of_ne_nil hne
    exact ⟨c, cs, rfl, not_isSign_of_digit (hint c List.mem_cons_self)⟩
  | @point int frac hint hfrac hne =>
    cases int with
    | nil => exact ⟨'.', frac, rfl, by decide⟩
    | cons c cs => exact ⟨c, cs ++ '.' :: frac, rfl, not_isSign_of_digit (hint c List.mem_cons_self)⟩

theorem unsigned_append {sg m : List Char} {σ : ℤ} (hs : SignText sg σ) {c : Char} {cs : List Char}
    (hm : m = c :: cs) (hc : isSign c = false) :
    unsigned (sg ++ m) = m ∧ ((sg ++ m).head? = some '-' ↔ σ = -1) := by
  subst hm
  have hne : c ≠ '-' := by
    rintro rfl
    exact absurd hc (by decide)
  cases hs with
  | none => simp [unsigned, hc, hne]
  | plus => simp [unsigned, isSign]
  | minus => simp [unsigned, isSign]

/-- Every text is a sign and the rest. -/
theorem exists_sign (s : List Char) : ∃ sg σ, SignText sg σ ∧ s = sg ++ unsigned s := by
  cases s with
  | nil => exact ⟨[], 1, SignText.none, rfl⟩
  | cons c cs =>
    by_cases hp : c = '+'
    · subst hp
      exact ⟨['+'], 1, SignText.plus, by simp [unsigned, isSign]⟩
    · by_cases hm : c = '-'
      · subst hm
        exact ⟨['-'], -1, SignText.minus, by simp [unsigned, isSign]⟩
      · exact ⟨[], 1, SignText.none, by simp [unsigned, isSign, hp, hm]⟩

/-! ## Plain decimals -/

theorem dropWhile_digits {int : List Char} (h : Digits int) (rest : List Char) :
    (int ++ rest).dropWhile Char.isDigit = rest.dropWhile Char.isDigit ∧
      (int ++ rest).takeWhile Char.isDigit = int ++ rest.takeWhile Char.isDigit := by
  exact ⟨List.dropWhile_append_of_pos h, List.takeWhile_append_of_pos h⟩

theorem decimalMatch_whole {int : List Char} (h : Digits int) : decimalMatch int = some (int, none) := by
  obtain ⟨hdrop, htake⟩ := dropWhile_digits h []
  rw [List.append_nil] at hdrop htake
  unfold decimalMatch
  rw [hdrop, htake]
  simp

theorem decimalMatch_point {int frac : List Char} (h : Digits int) (hfrac : Digits frac) :
    decimalMatch (int ++ '.' :: frac) = some (int, some frac) := by
  obtain ⟨hdrop, htake⟩ := dropWhile_digits h ('.' :: frac)
  have hdot : ('.' :: frac).dropWhile Char.isDigit = '.' :: frac := by
    rw [List.dropWhile_cons_of_neg (by decide)]
  have hdot' : ('.' :: frac).takeWhile Char.isDigit = [] := by
    rw [List.takeWhile_cons_of_neg (by decide)]
  unfold decimalMatch
  rw [hdrop, htake, hdot, hdot', List.append_nil]
  have hall : frac.all Char.isDigit = true := List.all_eq_true.mpr hfrac
  simp [hall]

/-- What the expression matches is a mantissa, unless it has no digit. -/
theorem mantissa_of_match {m int : List Char} {frac? : Option (List Char)}
    (h : decimalMatch m = some (int, frac?)) (hne : ¬ (int = [] ∧ frac?.getD [] = [])) :
    ∃ q ops, Mantissa m q ops := by
  have hsplit := List.takeWhile_append_dropWhile (p := Char.isDigit) (l := m)
  have htake : Digits (m.takeWhile Char.isDigit) := fun c hc => List.mem_takeWhile_imp hc
  unfold decimalMatch at h
  split at h
  · next hdrop =>
    obtain ⟨rfl, rfl⟩ := Prod.mk.injEq .. ▸ Option.some.inj h
    rw [hdrop, List.append_nil] at hsplit
    rw [← hsplit]
    exact ⟨_, _, Mantissa.whole htake fun hnil => hne ⟨hnil, rfl⟩⟩
  · next c frac hdrop =>
    split at h
    · next hc =>
      rw [Bool.and_eq_true, decide_eq_true_eq] at hc
      obtain ⟨rfl, rfl⟩ := Prod.mk.injEq .. ▸ Option.some.inj h
      rw [hdrop, hc.1] at hsplit
      rw [← hsplit]
      exact ⟨_, _, Mantissa.point htake (List.all_eq_true.mp hc.2) hne⟩
    · cases h

/-- `BigInt((m[1] || '0') + frac)` over a power of ten, with the sign. -/
theorem guarded_read (E : Engine) {sg : List Char} {σ : ℤ} (hs : SignText sg σ) (int frac : List Char) {neg : Prop}
    [Decidable neg] (hneg : neg ↔ σ = -1) :
    Guarded (Fits E [.digits ((if int = [] then ['0'] else int) ++ frac), .power frac.length])
      (do
        let n ← big E (.digits ((if int = [] then ['0'] else int) ++ frac))
        let d ← big E (.power frac.length)
        Rat.of (if neg then -n else n) d)
      (Is (σ * (digitsValue (int ++ frac) / 10 ^ frac.length))) := by
  have hzero : digitsValue ((if int = [] then ['0'] else int) ++ frac) = digitsValue (int ++ frac) := by
    split
    · next h =>
      subst h
      rfl
    · rfl
  have hsign : ∀ n : ℤ, (if neg then -n else n) = σ * n := by
    intro n
    cases hs with
    | none => rw [if_neg (by rw [hneg]; decide), one_mul]
    | plus => rw [if_neg (by rw [hneg]; decide), one_mul]
    | minus => rw [if_pos (hneg.mpr rfl), neg_one_mul]
  have hten : (10 ^ frac.length : ℤ) ≠ 0 := by positivity
  have hval : (σ : ℚ) * (digitsValue (int ++ frac) / 10 ^ frac.length) =
      ((σ * (digitsValue (int ++ frac) : ℤ) : ℤ) : ℚ) / ((10 ^ frac.length : ℤ) : ℚ) := by
    push_cast
    rw [mul_div_assoc]
  rw [hval, ← hsign, ← hzero]
  exact Guarded.big_bind (Guarded.big_bind (guarded_of hten).none_left)

theorem guarded_parseDecimal (E : Engine) (shown : List Char) {sg m : List Char} {σ : ℤ} {q : ℚ} {ops : List Operation}
    (hs : SignText sg σ) (hm : Mantissa m q ops) :
    Guarded (Fits E ops) (parseDecimal E shown (sg ++ m)) (Is (σ * q)) := by
  obtain ⟨c, cs, hcons, hc⟩ := hm.head
  obtain ⟨hun, hneg⟩ := unsigned_append hs hcons hc
  unfold parseDecimal
  rw [hun]
  cases hm with
  | whole hint hne =>
    have hread := guarded_read E hs m [] hneg
    simp only [List.append_nil, List.length_nil, pow_zero, div_one] at hread
    simp only [decimalMatch_whole hint, Option.getD_none, hne, false_and, if_false, List.append_nil,
      List.length_nil]
    simpa only [hne, if_false] using hread
  | @point int frac hint hfrac hne =>
    simp only [decimalMatch_point hint hfrac, Option.getD_some, hne, if_false]
    exact guarded_read E hs int frac hneg

theorem parseDecimal_error (E : Engine) (shown : List Char) {s : List Char}
    (h : ∀ q ops, ¬ Mantissa (unsigned s) q ops) : parseDecimal E shown s = .error (.notDecimal shown) := by
  unfold parseDecimal
  cases hmatch : decimalMatch (unsigned s) with
  | none => rfl
  | some parts =>
    obtain ⟨int, frac?⟩ := parts
    by_cases hempty : int = [] ∧ frac?.getD [] = []
    · dsimp only
      rw [if_pos hempty]
    · obtain ⟨q, ops, hm⟩ := mantissa_of_match hmatch hempty
      exact absurd hm (h q ops)

/-! ## Exponents -/

theorem roundEven_small {n : ℕ} (h : n < 2 ^ 53) : roundEven n = n := by
  have hsize : n.size ≤ 53 := Nat.size_le.mpr h
  have he : n.size - 53 = 0 := by omega
  unfold roundEven
  rw [he]
  simp [Nat.mod_one]

theorem roundEven_large {n : ℕ} (h : 2 ^ 53 ≤ n) : 2 ^ 53 ≤ roundEven n := by
  have hsize : 53 < n.size := Nat.lt_size.mpr h
  obtain ⟨e, he⟩ : ∃ e, n.size = 53 + (e + 1) := ⟨n.size - 54, by omega⟩
  have hlow : 2 ^ (53 + e) ≤ n := Nat.lt_size.mp (by omega)
  have hq : 2 ^ 52 ≤ n / 2 ^ (e + 1) := by
    rw [Nat.le_div_iff_mul_le (by positivity), ← Nat.pow_add]
    rwa [show 52 + (e + 1) = 53 + e by omega]
  have hpow : 2 ^ 53 ≤ 2 ^ 52 * 2 ^ (e + 1) := by
    rw [← Nat.pow_add]
    exact Nat.pow_le_pow_right (by decide) (by omega)
  unfold roundEven
  rw [he, Nat.add_sub_cancel_left]
  refine hpow.trans (Nat.mul_le_mul_right _ ?_)
  split <;> omega

theorem toDouble_small {n : ℕ} (h : n < 2 ^ 53) : toDouble n = some n := by
  have hfin : n < infinityFrom := h.trans (Nat.pow_lt_pow_right (by decide) (by decide))
  unfold toDouble
  rw [roundEven_small h, if_pos hfin]

theorem toDouble_large {n k : ℕ} (h : 2 ^ 53 ≤ n) (hk : toDouble n = some k) : 2 ^ 53 ≤ k := by
  unfold toDouble at hk
  split at hk
  · cases hk
    exact roundEven_large h
  · cases hk

theorem exponentNumber_append {sx x : List Char} {τ : ℤ} (hs : SignText sx τ) (hx : Digits x) (hne : x ≠ []) :
    exponentNumber (sx ++ x) = (toDouble (digitsValue x)).map fun k : ℕ => τ * (k : ℤ) := by
  obtain ⟨c, cs, hcons⟩ := List.exists_cons_of_ne_nil hne
  have hc : isSign c = false := not_isSign_of_digit (hx c (hcons ▸ List.mem_cons_self))
  obtain ⟨hun, hneg⟩ := unsigned_append hs hcons hc
  unfold exponentNumber
  rw [hun]
  congr 1
  funext k
  cases hs with
  | none => rw [if_neg (by rw [hneg]; decide), one_mul]
  | plus => rw [if_neg (by rw [hneg]; decide), one_mul]
  | minus => rw [if_pos (hneg.mpr rfl), neg_one_mul]

theorem natAbs_sign_mul {sx : List Char} {τ : ℤ} (hs : SignText sx τ) (k : ℕ) : (τ * (k : ℤ)).natAbs = k := by
  cases hs <;> simp

/-- The two branches of the scaling by a power of ten. -/
theorem guarded_scale_some (E : Engine) {base : Rat} {q : ℚ} (hb : Is q base) (k : ℤ) :
    Guarded (Fits E (scaleOps q k)) (scale E base (some k)) (Is (q * 10 ^ k)) := by
  obtain ⟨hnum, hden⟩ := hb.num_den
  have hpow : Is ((10 ^ k.natAbs : ℤ) : ℚ) ⟨10 ^ k.natAbs, 1⟩ := 
    ⟨⟨Int.one_pos, Int.gcd_one_right ..⟩, by simp [value]⟩
  obtain ⟨power, hof, hpower⟩ := (guarded_of (n := (10 ^ k.natAbs : ℤ)) one_ne_zero).1 trivial
  rw [Int.cast_one, div_one] at hpower
  have hpow' : power = ⟨10 ^ k.natAbs, 1⟩ := hpower.1.ext hpow.1 (hpower.2.trans hpow.2.symm)
  subst hpow'
  have hne : ((10 ^ k.natAbs : ℤ) : ℚ) ≠ 0 := by positivity
  unfold scale scaleOps
  dsimp only
  refine Guarded.big_bind ?_
  show Guarded _ (Rat.of (10 ^ k.natAbs) 1 >>= _) _
  rw [hof, ← hnum, ← hden]
  show Guarded _ (if 0 ≤ k then base.mul E ⟨10 ^ k.natAbs, 1⟩ else do
    let q ← base.div E ⟨10 ^ k.natAbs, 1⟩
    return q.getD Rat.ZERO) _
  by_cases hk : 0 ≤ k
  · have hz : (10 : ℚ) ^ k = ((10 ^ k.natAbs : ℤ) : ℚ) := by
      push_cast
      rw [← zpow_natCast, Int.natAbs_of_nonneg hk]
    rw [if_pos hk, if_pos hk, hz]
    exact guarded_mul E hb hpow
  · have hz : (10 : ℚ) ^ k = ((10 ^ k.natAbs : ℤ) : ℚ)⁻¹ := by
      push_cast
      rw [← zpow_natCast, ← zpow_neg, Int.ofNat_natAbs_of_nonpos (by omega), neg_neg]
    rw [if_neg hk, if_neg hk, hz, ← div_eq_mul_inv]
    refine Guarded.congr (Guarded.bind (guarded_div E hb hpow hne) fun r hr => ?_) (Iff.of_eq (and_true _))
    obtain ⟨s, rfl, hs⟩ := hr
    exact Guarded.pure hs

theorem guarded_scale (E : Engine) {base : Rat} {q : ℚ} (hb : Is q base) {sx x : List Char} {τ : ℤ}
    (hs : SignText sx τ) (hx : Digits x) (hne : x ≠ []) :
    Guarded (Fits E (scaleOps q (τ * digitsValue x))) (scale E base (exponentNumber (sx ++ x)))
      (Is (q * 10 ^ (τ * (digitsValue x : ℤ)))) := by
  rw [exponentNumber_append hs hx hne]
  by_cases hfit : E.fits (.power (digitsValue x)) = true
  · rw [toDouble_small (E.lt_of_fits_power _ hfit), Option.map_some]
    exact guarded_scale_some E hb _
  · have hno : ¬ Fits E (scaleOps q (τ * digitsValue x)) := by
      intro h
      rw [scaleOps, fits_cons, natAbs_sign_mul hs] at h
      exact hfit h.1
    refine ⟨fun h => absurd h hno, fun _ => ?_⟩
    cases hk : toDouble (digitsValue x) with
    | none => rfl
    | some k =>
      have hlarge : ¬ E.fits (.power k) = true := by
        intro hfit'
        by_cases hsmall : digitsValue x < 2 ^ 53
        · rw [toDouble_small hsmall] at hk
          cases hk
          exact hfit hfit'
        · have hge := toDouble_large (not_lt.mp hsmall) hk
          have hlt := E.lt_of_fits_power k hfit'
          omega
      have hbig : big E (.power (τ * (k : ℤ)).natAbs) = .error .tooBig := by
        refine (guarded_big E _).2 ?_
        rwa [natAbs_sign_mul hs]
      rw [Option.map_some]
      unfold scale
      dsimp only
      rw [hbig]
      rfl

/-! ## Texts -/

theorem isDigit_bounds {c : Char} (h : c.isDigit = true) : 48 ≤ c.toNat ∧ c.toNat ≤ 57 := by
  simp only [Char.isDigit, Bool.and_eq_true, decide_eq_true_eq] at h
  exact ⟨UInt32.le_iff_toNat_le.mp h.1, UInt32.le_iff_toNat_le.mp h.2⟩

/-- A character of a number: no letter and no blank. -/
theorem plain_of_digit {c : Char} (h : c.isDigit = true) : isE c = false ∧ isSpace c = false := by
  obtain ⟨hlo, hhi⟩ := isDigit_bounds h
  constructor
  · unfold isE
    rw [Bool.or_eq_false_iff, decide_eq_false_iff_not, decide_eq_false_iff_not]
    constructor <;> rintro rfl <;> exact absurd h (by decide)
  · unfold isSpace
    simp only [Bool.or_eq_false_iff, Bool.and_eq_false_iff, decide_eq_false_iff_not]
    omega

def Plain (cs : List Char) : Prop := ∀ c ∈ cs, isE c = false ∧ isSpace c = false

theorem plain_of_isMantissa {base : List Char} (h : isMantissa base = true) : Plain base := by
  unfold isMantissa at h
  rw [Bool.and_eq_true, List.all_eq_true] at h
  have hrest : Plain (unsigned base) := by
    intro c hc
    have hcase := h.2 c hc
    rw [Bool.or_eq_true, decide_eq_true_eq] at hcase
    rcases hcase with hd | rfl
    · exact plain_of_digit hd
    · decide
  obtain ⟨sg, σ, hs, heq⟩ := exists_sign base
  rw [heq]
  intro c hc
  rcases List.mem_append.mp hc with hsg | hc
  · cases hs with
    | none => cases hsg
    | plus =>
      obtain rfl := List.mem_singleton.mp hsg
      decide
    | minus =>
      obtain rfl := List.mem_singleton.mp hsg
      decide
  · exact hrest c hc

theorem isMantissa_append {sg m : List Char} {σ : ℤ} {q : ℚ} {ops : List Operation} (hs : SignText sg σ)
    (hm : Mantissa m q ops) : isMantissa (sg ++ m) = true := by
  obtain ⟨c, cs, hcons, hc⟩ := hm.head
  obtain ⟨hun, -⟩ := unsigned_append hs hcons hc
  unfold isMantissa
  rw [hun, Bool.and_eq_true, decide_eq_true_eq, List.all_eq_true]
  refine ⟨by rw [hcons]; exact List.cons_ne_nil _ _, ?_⟩
  cases hm with
  | whole hint hne =>
    intro c hc
    rw [hint c hc]
    rfl
  | point hint hfrac hne =>
    intro c hc
    rcases List.mem_append.mp hc with hc | hc
    · rw [hint c hc]
      rfl
    · rcases List.mem_cons.mp hc with rfl | hc
      · decide
      · rw [hfrac c hc]
        rfl

theorem Plain.notE {cs : List Char} (h : Plain cs) : ∀ c ∈ cs, (! isE c) = true := by
  intro c hc
  rw [(h c hc).1]
  rfl

theorem expMatch_plain {cs : List Char} (h : Plain cs) : expMatch cs = none := by
  unfold expMatch
  rw [List.dropWhile_eq_nil_iff.mpr h.notE]

theorem expMatch_scaled {base ex : List Char} {e : Char} (hbase : isMantissa base = true) (he : isE e = true)
    (hex : isExponent ex = true) : expMatch (base ++ e :: ex) = some (base, ex) := by
  have hplain := plain_of_isMantissa hbase
  have hdrop : (base ++ e :: ex).dropWhile (fun c => ! isE c) = e :: ex := by
    rw [List.dropWhile_append_of_pos hplain.notE, List.dropWhile_cons_of_neg (by simp [he])]
  have htake : (base ++ e :: ex).takeWhile (fun c => ! isE c) = base := by
    rw [List.takeWhile_append_of_pos hplain.notE, List.takeWhile_cons_of_neg (by simp [he]), List.append_nil]
  unfold expMatch
  rw [hdrop, htake]
  simp [hbase, hex]

theorem expMatch_eq_some {s base ex : List Char} (h : expMatch s = some (base, ex)) :
    isMantissa base = true ∧ isExponent ex = true ∧ ∃ e, isE e = true ∧ s = base ++ e :: ex := by
  have hsplit := List.takeWhile_append_dropWhile (p := fun c => ! isE c) (l := s)
  unfold expMatch at h
  split at h
  · cases h
  · next e ex' hdrop =>
    dsimp only at h
    split at h
    · next hm =>
      cases h
      rw [Bool.and_eq_true] at hm
      refine ⟨hm.1, hm.2, e, ?_, ?_⟩
      · have hhead := List.head?_dropWhile_not (fun c => ! isE c) s
        rw [hdrop] at hhead
        simpa using hhead
      · rw [← hdrop, hsplit]
    · cases h

theorem exponent_parts {ex : List Char} (h : isExponent ex = true) :
    ∃ sx τ x, SignText sx τ ∧ Digits x ∧ x ≠ [] ∧ ex = sx ++ x := by
  unfold isExponent at h
  rw [Bool.and_eq_true, decide_eq_true_eq, List.all_eq_true] at h
  obtain ⟨sx, τ, hs, heq⟩ := exists_sign ex
  exact ⟨sx, τ, unsigned ex, hs, h.2, h.1, heq⟩

theorem isExponent_append {sx x : List Char} {τ : ℤ} (hs : SignText sx τ) (hx : Digits x) (hne : x ≠ []) :
    isExponent (sx ++ x) = true := by
  obtain ⟨c, cs, hcons⟩ := List.exists_cons_of_ne_nil hne
  obtain ⟨hun, -⟩ := unsigned_append hs hcons (not_isSign_of_digit (hx c (hcons ▸ List.mem_cons_self)))
  unfold isExponent
  rw [hun, Bool.and_eq_true, decide_eq_true_eq, List.all_eq_true]
  exact ⟨hne, hx⟩

theorem trimChars_plain {cs : List Char} (h : Plain cs) : trimChars cs = cs := by
  have hdrop : cs.dropWhile isSpace = cs := by
    refine List.dropWhile_eq_self_iff.mpr fun hlt => ?_
    rw [(h _ (List.getElem_mem hlt)).2]
    decide
  unfold trimChars trimEnd
  rw [hdrop]
  refine List.rdropWhile_eq_self_iff.mpr fun hne => ?_
  rw [(h _ (List.getLast_mem hne)).2]
  decide

end SalesDashboard.MarcomKpi.Exact
