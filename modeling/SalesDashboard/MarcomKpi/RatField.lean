import SalesDashboard.MarcomKpi.Decimal
import Mathlib

/-! Every rational that the operations and the parser can give is the exact value of what
was computed, in lowest terms. -/

namespace SalesDashboard.MarcomKpi.Exact
open Marcom SalesDashboard.MarcomKpi.Exact.Rat

variable (E : Engine)

def Fault.isTypeError : Fault → Bool
  | .notFinite _ => true
  | .notDecimal _ => true
  | .nullOperand => true
  | .zeroDenominator => false
  | .tooBig => false

/-! ## Texts -/

theorem parseTrimmed_of_none {shown s : List Char} (hne : s ≠ []) (h : expMatch s = none) :
    parseTrimmed E shown s = parseDecimal E shown s := by
  rw [parseTrimmed, if_neg hne]
  split
  · next base ex hmatch => cases h.symm.trans hmatch
  · rfl

theorem parseTrimmed_of_some {shown s base ex : List Char} (h : expMatch s = some (base, ex)) :
    parseTrimmed E shown s =
      (parseTrimmed E base (trimChars base) >>= fun r => scale E r (exponentNumber ex)) := by
  have hne : s ≠ [] := by
    rintro rfl
    cases h
  rw [parseTrimmed, if_neg hne]
  split
  · next base' ex' hmatch =>
    cases h.symm.trans hmatch
    rfl
  · next hmatch => cases h.symm.trans hmatch

/-- The text before the exponent is read as it stands. -/
theorem parseTrimmed_base {base : List Char} (h : isMantissa base = true) :
    parseTrimmed E base (trimChars base) = parseDecimal E base base := by
  have hplain := plain_of_isMantissa h
  have hne : base ≠ [] := by
    rintro rfl
    exact absurd h (by decide)
  rw [trimChars_plain hplain, parseTrimmed_of_none E hne (expMatch_plain hplain)]

theorem guarded_parseTrimmed {shown s : List Char} {q : ℚ} {ops : List Operation} (h : Decimal s q ops) :
    Guarded (Fits E ops) (parseTrimmed E shown s) (Is q) := by
  cases h with
  | plain hs hm =>
    have hmant := isMantissa_append hs hm
    have hne : _ ++ _ ≠ [] := fun hnil => absurd (hnil ▸ hmant) (by decide)
    rw [parseTrimmed_of_none E hne (expMatch_plain (plain_of_isMantissa hmant))]
    exact guarded_parseDecimal E shown hs hm
  | scaled hs hm he hsx hx hne =>
    have hmant := isMantissa_append hs hm
    rw [parseTrimmed_of_some E (expMatch_scaled hmant he (isExponent_append hsx hx hne)),
      parseTrimmed_base E hmant]
    exact (Guarded.bind (guarded_parseDecimal E _ hs hm) fun r hr => guarded_scale E hr hsx hx hne).congr
      fits_append.symm

/-- A text that is no decimal is refused. -/
theorem parseTrimmed_error {shown s : List Char} (h : ∀ q ops, ¬ Decimal s q ops) :
    ∃ f, parseTrimmed E shown s = .error f ∧ f.isTypeError = true := by
  by_cases hne : s = []
  · subst hne
    refine ⟨.notFinite shown, ?_, rfl⟩
    rw [parseTrimmed, if_pos rfl]
  · obtain ⟨sg, σ, hs, hsplit⟩ := exists_sign s
    cases hmatch : expMatch s with
    | none =>
      rw [parseTrimmed_of_none E hne hmatch, parseDecimal_error E shown fun q ops hm => ?_]
      · exact ⟨_, rfl, rfl⟩
      · have hdec := Decimal.plain hs hm
        rw [← hsplit] at hdec
        exact h _ _ hdec
    | some parts =>
      obtain ⟨base, ex⟩ := parts
      obtain ⟨hmant, hex, e, he, hsource⟩ := expMatch_eq_some hmatch
      obtain ⟨sg', σ', hs', hbase⟩ := exists_sign base
      obtain ⟨sx, τ, x, hsx, hx, hxne, rfl⟩ := exponent_parts hex
      rw [parseTrimmed_of_some E hmatch, parseTrimmed_base E hmant, parseDecimal_error E base fun q ops hm => ?_]
      · exact ⟨_, rfl, rfl⟩
      · have hdec := Decimal.scaled hs' hm he hsx hx hxne
        rw [← hbase, ← hsource] at hdec
        exact h _ _ hdec

/-! ## What is parsed -/

/-- The number a value stands for. -/
inductive InputValue : Input → ℚ → Prop
  | nothing : InputValue .nothing 0
  | bigint {n : ℤ} : InputValue (.bigint n) n
  | number {text : List Char} {q : ℚ} {ops : List Operation} : Decimal text q ops → InputValue (.number true text) q
  | empty : InputValue (.string []) 0
  | string {text : List Char} {q : ℚ} {ops : List Operation} : text ≠ [] → Decimal (trimChars text) q ops →
      InputValue (.string text) q
  | other {text : List Char} {q : ℚ} {ops : List Operation} : Decimal (trimChars text) q ops → InputValue (.other text) q

theorem is_ZERO : Is 0 ZERO := ⟨lowest_ZERO, value_ZERO⟩

theorem parse_string {text : List Char} (h : text ≠ []) :
    Rat.parse E (.string text) = parseTrimmed E text (trimChars text) := by
  cases text with
  | nil => exact absurd rfl h
  | cons c cs => rfl

theorem of_int (n : ℤ) : ∃ r, Rat.of n 1 = .ok r ∧ Is n r := by
  obtain ⟨r, hr, his⟩ := (guarded_of (n := n) one_ne_zero).1 trivial
  refine ⟨r, hr, ?_⟩
  simpa using his

theorem parse_value {v : Input} {q : ℚ} (h : InputValue v q) :
    (∃ r, Rat.parse E v = .ok r ∧ Is q r) ∨ Rat.parse E v = .error .tooBig := by
  cases h with
  | nothing => exact Or.inl ⟨ZERO, rfl, is_ZERO⟩
  | bigint => exact Or.inl (of_int _)
  | number h => exact (guarded_parseTrimmed E h).ok_or_tooBig
  | empty => exact Or.inl ⟨ZERO, rfl, is_ZERO⟩
  | string hne h =>
    rw [parse_string E hne]
    exact (guarded_parseTrimmed E h).ok_or_tooBig
  | other h => exact (guarded_parseTrimmed E h).ok_or_tooBig

/-- A text that is read is a decimal, of that value. -/
theorem decimal_of_parseTrimmed {shown s : List Char} {r : Rat} (h : parseTrimmed E shown s = .ok r) :
    ∃ q ops, Decimal s q ops ∧ Is q r := by
  by_cases hdec : ∃ q ops, Decimal s q ops
  · obtain ⟨q, ops, hdec⟩ := hdec
    exact ⟨q, ops, hdec, (guarded_parseTrimmed E hdec).of_ok h⟩
  · obtain ⟨f, hf, -⟩ := @parseTrimmed_error E shown s fun q ops hd => hdec ⟨q, ops, hd⟩
    cases h.symm.trans hf

theorem value_of_parse {v : Input} {r : Rat} (h : Rat.parse E v = .ok r) : ∃ q, InputValue v q ∧ Is q r := by
  cases v with
  | nothing =>
    cases h
    exact ⟨0, InputValue.nothing, is_ZERO⟩
  | bigint n =>
    obtain ⟨r', hr', his⟩ := of_int n
    cases hr'.symm.trans h
    exact ⟨n, InputValue.bigint, his⟩
  | number isFinite text =>
    cases isFinite with
    | false =>
      have hnone : parseTrimmed E text [] = .error (.notFinite text) := by rw [parseTrimmed, if_pos rfl]
      cases hnone.symm.trans h
    | true =>
      obtain ⟨q, ops, hdec, his⟩ := decimal_of_parseTrimmed E h
      exact ⟨q, InputValue.number hdec, his⟩
  | string text =>
    by_cases hne : text = []
    · subst hne
      cases h
      exact ⟨0, InputValue.empty, is_ZERO⟩
    · rw [parse_string E hne] at h
      obtain ⟨q, ops, hdec, his⟩ := decimal_of_parseTrimmed E h
      exact ⟨q, InputValue.string hne hdec, his⟩
  | other text =>
    obtain ⟨q, ops, hdec, his⟩ := decimal_of_parseTrimmed E h
    exact ⟨q, InputValue.other hdec, his⟩

/-! ## Expressions -/

/-- `reparse` is `Rat.parse` of a result. -/
inductive Expr
  | of (n d : ℤ)
  | parse (v : Input)
  | reparse (e : Expr)
  | add (a b : Expr)
  | sub (a b : Expr)
  | mul (a b : Expr)
  | div (a b : Expr)

/-- A method of two results; `null` has none, and is no argument of one. -/
def onRats (f : Rat → Rat → Except Fault (Option Rat)) : Option Rat → Option Rat → Except Fault (Option Rat)
  | some a, some b => f a b
  | _, _ => .error .nullOperand

def eval : Expr → Except Fault (Option Rat)
  | .of n d => some <$> Rat.of n d
  | .parse v => some <$> Rat.parse E v
  | .reparse e => eval e >>= fun x => .ok (some (x.getD ZERO))
  | .add a b => eval a >>= fun x => eval b >>= fun y => onRats (fun r s => some <$> r.add E s) x y
  | .sub a b => eval a >>= fun x => eval b >>= fun y => onRats (fun r s => some <$> r.sub E s) x y
  | .mul a b => eval a >>= fun x => eval b >>= fun y => onRats (fun r s => some <$> r.mul E s) x y
  | .div a b => eval a >>= fun x => eval b >>= fun y => onRats (fun r s => r.div E s) x y

/-- The exact value of an expression; none is the `null` of a division by zero. -/
inductive Denotes : Expr → Option ℚ → Prop
  | of {n d : ℤ} : d ≠ 0 → Denotes (.of n d) (some (n / d))
  | parse {v : Input} {q : ℚ} : InputValue v q → Denotes (.parse v) (some q)
  | reparse {e : Expr} {o : Option ℚ} : Denotes e o → Denotes (.reparse e) (some (o.getD 0))
  | add {a b : Expr} {p q : ℚ} : Denotes a (some p) → Denotes b (some q) → Denotes (.add a b) (some (p + q))
  | sub {a b : Expr} {p q : ℚ} : Denotes a (some p) → Denotes b (some q) → Denotes (.sub a b) (some (p - q))
  | mul {a b : Expr} {p q : ℚ} : Denotes a (some p) → Denotes b (some q) → Denotes (.mul a b) (some (p * q))
  | div {a b : Expr} {p q : ℚ} : Denotes a (some p) → Denotes b (some q) → q ≠ 0 →
      Denotes (.div a b) (some (p / q))
  | divZero {a b : Expr} {p : ℚ} : Denotes a (some p) → Denotes b (some 0) → Denotes (.div a b) none

/-- A result and a value: both null, or lowest terms of the value. -/
inductive Matches : Option Rat → Option ℚ → Prop
  | null : Matches none none
  | is {r : Rat} {q : ℚ} : Is q r → Matches (some r) (some q)

theorem matches_some {x : Option Rat} {q : ℚ} (h : Matches x (some q)) : ∃ r, x = some r ∧ Is q r := by
  cases h with
  | is hr => exact ⟨_, rfl, hr⟩

/-- The value, or the engine's error. -/
def Computes (m : Except Fault (Option Rat)) (o : Option ℚ) : Prop :=
  (∃ x, m = .ok x ∧ Matches x o) ∨ m = .error .tooBig

theorem Computes.some_map {m : Except Fault Rat} {q : ℚ}
    (h : (∃ r, m = .ok r ∧ Is q r) ∨ m = .error .tooBig) : Computes (some <$> m) (some q) := by
  rcases h with ⟨r, rfl, hr⟩ | rfl
  · exact Or.inl ⟨some r, rfl, Matches.is hr⟩
  · exact Or.inr rfl

variable {E} {a b : Expr} {p q : ℚ}

/-- An operation on two results that have values. -/
theorem Computes.binary {f : Rat → Rat → Except Fault (Option Rat)} {o : Option ℚ}
    (ha : Computes (eval E a) (some p)) (hb : Computes (eval E b) (some q))
    (hf : ∀ r s, Is p r → Is q s → Computes (f r s) o) :
    Computes (eval E a >>= fun x => eval E b >>= fun y => onRats f x y) o := by
  rcases ha with ⟨x, hx, hxm⟩ | ha
  · obtain ⟨r, rfl, hr⟩ := matches_some hxm
    rcases hb with ⟨y, hy, hym⟩ | hb
    · obtain ⟨s, rfl, hs⟩ := matches_some hym
      rw [hx, hy]
      exact hf r s hr hs
    · rw [hx, hb]
      exact Or.inr rfl
  · rw [ha]
    exact Or.inr rfl

theorem computes_of_denotes {e : Expr} {o : Option ℚ} (h : Denotes e o) : Computes (eval E e) o := by
  induction h with
  | @of n d hd =>
    obtain ⟨r, hr, his⟩ := (guarded_of (n := n) hd).1 trivial
    exact Computes.some_map (Or.inl ⟨r, hr, his⟩)
  | parse hv => exact Computes.some_map (parse_value E hv)
  | @reparse e o _ ih =>
    rw [eval]
    rcases ih with ⟨x, hx, hm⟩ | he
    · rw [hx]
      cases hm with
      | null => exact Or.inl ⟨some ZERO, rfl, Matches.is is_ZERO⟩
      | is hr => exact Or.inl ⟨_, rfl, Matches.is hr⟩
    · rw [he]
      exact Or.inr rfl
  | add _ _ iha ihb =>
    exact Computes.binary iha ihb fun r s hr hs => Computes.some_map (guarded_add E hr hs).ok_or_tooBig
  | sub _ _ iha ihb =>
    exact Computes.binary iha ihb fun r s hr hs => Computes.some_map (guarded_sub E hr hs).ok_or_tooBig
  | mul _ _ iha ihb =>
    exact Computes.binary iha ihb fun r s hr hs => Computes.some_map (guarded_mul E hr hs).ok_or_tooBig
  | div _ _ hq iha ihb =>
    refine Computes.binary iha ihb fun r s hr hs => ?_
    rcases (guarded_div E hr hs hq).ok_or_tooBig with ⟨x, hx, t, rfl, ht⟩ | htoo
    · exact Or.inl ⟨some t, hx, Matches.is ht⟩
    · exact Or.inr htoo
  | divZero _ _ iha ihb =>
    exact Computes.binary iha ihb fun r s hr hs => Or.inl ⟨none, (div_eq_null_iff E hr hs).mpr rfl, Matches.null⟩

theorem ok_of_some_map {m : Except Fault Rat} {x : Option Rat} (h : some <$> m = .ok x) :
    ∃ r, m = .ok r ∧ x = some r := by
  cases m with
  | error f => cases h
  | ok r =>
    cases h
    exact ⟨r, rfl, rfl⟩

theorem ok_of_bind {α β : Type} {m : Except Fault α} {f : α → Except Fault β} {y : β}
    (h : m >>= f = .ok y) : ∃ x, m = .ok x ∧ f x = .ok y := by
  cases m with
  | error e => cases h
  | ok x => exact ⟨x, rfl, h⟩

/-- The exact value of what comes out. -/
def Found (e : Expr) (x : Option Rat) : Prop := ∃ o, Denotes e o ∧ Matches x o

theorem found_binary {f : Rat → Rat → Except Fault (Option Rat)} {z : Option Rat}
    (h : (eval E a >>= fun x => eval E b >>= fun y => onRats f x y) = .ok z)
    (iha : ∀ x, eval E a = .ok x → Found a x) (ihb : ∀ y, eval E b = .ok y → Found b y) :
    ∃ r s p q, Denotes a (some p) ∧ Denotes b (some q) ∧ Is p r ∧ Is q s ∧ f r s = .ok z := by
  obtain ⟨x, hx, h⟩ := ok_of_bind h
  obtain ⟨y, hy, h⟩ := ok_of_bind h
  obtain ⟨o, hao, hxm⟩ := iha x hx
  obtain ⟨o', hbo, hym⟩ := ihb y hy
  cases hxm with
  | null => cases h
  | is hr =>
    cases hym with
    | null => cases h
    | is hs => exact ⟨_, _, _, _, hao, hbo, hr, hs, h⟩

theorem found_of_eval {e : Expr} {x : Option Rat} (h : eval E e = .ok x) : Found e x := by
  induction e generalizing x with
  | of n d =>
    obtain ⟨r, hr, rfl⟩ := ok_of_some_map h
    have hd : d ≠ 0 := by
      rintro rfl
      cases hr
    exact ⟨_, Denotes.of hd, Matches.is ((guarded_of hd).of_ok hr)⟩
  | parse v =>
    obtain ⟨r, hr, rfl⟩ := ok_of_some_map h
    obtain ⟨q, hv, his⟩ := value_of_parse E hr
    exact ⟨_, Denotes.parse hv, Matches.is his⟩
  | reparse e ih =>
    obtain ⟨y, hy, h⟩ := ok_of_bind h
    cases h
    obtain ⟨o, ho, hm⟩ := ih hy
    refine ⟨_, Denotes.reparse ho, ?_⟩
    cases hm with
    | null => exact Matches.is is_ZERO
    | is hr => exact Matches.is hr
  | add a b iha ihb =>
    obtain ⟨r, s, p, q, hp, hq, hr, hs, h⟩ := found_binary h (fun _ => iha) fun _ => ihb
    obtain ⟨t, ht, rfl⟩ := ok_of_some_map h
    exact ⟨_, Denotes.add hp hq, Matches.is ((guarded_add E hr hs).of_ok ht)⟩
  | sub a b iha ihb =>
    obtain ⟨r, s, p, q, hp, hq, hr, hs, h⟩ := found_binary h (fun _ => iha) fun _ => ihb
    obtain ⟨t, ht, rfl⟩ := ok_of_some_map h
    exact ⟨_, Denotes.sub hp hq, Matches.is ((guarded_sub E hr hs).of_ok ht)⟩
  | mul a b iha ihb =>
    obtain ⟨r, s, p, q, hp, hq, hr, hs, h⟩ := found_binary h (fun _ => iha) fun _ => ihb
    obtain ⟨t, ht, rfl⟩ := ok_of_some_map h
    exact ⟨_, Denotes.mul hp hq, Matches.is ((guarded_mul E hr hs).of_ok ht)⟩
  | div a b iha ihb =>
    obtain ⟨r, s, p, q, hp, hq, hr, hs, h⟩ := found_binary h (fun _ => iha) fun _ => ihb
    by_cases hzero : q = 0
    · subst hzero
      cases ((div_eq_null_iff E hr hs).mpr rfl).symm.trans h
      exact ⟨_, Denotes.divZero hp hq, Matches.null⟩
    · obtain ⟨t, rfl, ht⟩ := (guarded_div E hr hs hzero).of_ok h
      exact ⟨_, Denotes.div hp hq hzero, Matches.is ht⟩

/-! ## The field of rationals -/

theorem rat_exact (E : Engine) :
    (∀ e r, eval E e = .ok (some r) → r.Lowest ∧ Denotes e (some r.value)) ∧
      (∀ e o, Denotes e o → Computes (eval E e) o) ∧
      (∀ a b p q, Is p a → Is q b → (div E a b = .ok none ↔ q = 0) ∧
        Guarded (Fits E (crossOps a b)) (cmp E a b)
          (fun c => (c = -1 ↔ p < q) ∧ (c = 0 ↔ a.n = b.n ∧ a.d = b.d) ∧ (c = 1 ↔ q < p))) ∧
      Rat.parse E (.string []) = .ok ZERO ∧
      ∀ text, text ≠ [] →
        (∀ q ops, Decimal (trimChars text) q ops →
          Guarded (Fits E ops) (Rat.parse E (.string text)) (Is q)) ∧
        ((∀ q ops, ¬ Decimal (trimChars text) q ops) →
          ∃ f, Rat.parse E (.string text) = .error f ∧ f.isTypeError = true) := by
  refine ⟨fun e r h => ?_, fun e o => computes_of_denotes, fun a b p q ha hb => ⟨div_eq_null_iff E ha hb, ?_⟩,
    rfl, fun text hne => ⟨fun q ops h => ?_, fun h => ?_⟩⟩
  · obtain ⟨o, ho, hm⟩ := found_of_eval h
    cases hm with
    | is hr =>
      obtain ⟨hlow, rfl⟩ := hr
      exact ⟨hlow, ho⟩
  · refine (guarded_cmp E ha hb).mono fun c hc => ⟨hc.1, ?_, hc.2.2⟩
    rw [hc.2.1]
    constructor
    · rintro rfl
      obtain rfl := ha.1.ext hb.1 (ha.2.trans hb.2.symm)
      exact ⟨rfl, rfl⟩
    · rintro ⟨hn, hd⟩
      rw [ha.eq_div, hb.eq_div, hn, hd]
  · rw [parse_string E hne]
    exact guarded_parseTrimmed E h
  · rw [parse_string E hne]
    exact parseTrimmed_error E h

/-! ## Texts outside the claim's grammar -/

theorem lt_of_ten_pow_lt {k bits : ℕ} (h : (10 ^ k : ℤ).natAbs < 2 ^ bits) : k < bits := by
  have htwo : 2 ^ k ≤ 10 ^ k := Nat.pow_le_pow_left (by decide) k
  rw [Int.natAbs_pow] at h
  exact (Nat.pow_lt_pow_iff_right (by decide)).mp (htwo.trans_lt h)

/-- An engine that refuses every BigInt of more bits. -/
def byLength (maxBits : ℕ) (h : maxBits ≤ 2 ^ 53) : Engine where
  fits op := decide (op.result.natAbs < 2 ^ maxBits)
  lt_of_fits_power _ hfits := (lt_of_ten_pow_lt (of_decide_eq_true hfits)).trans_le h

theorem lt_of_fits_byLength {maxBits k : ℕ} {h : maxBits ≤ 2 ^ 53} (hfits : (byLength maxBits h).fits (.power k) = true) :
    k < maxBits := lt_of_ten_pow_lt (of_decide_eq_true hfits)

/-- A BigInt of V8 has at most 2³⁰ bits. -/
def v8 : Engine := byLength (2 ^ 30) (Nat.pow_le_pow_right (by decide) (by decide))

theorem decimal_ne_nil {q : ℚ} {ops : List Operation} : ¬ Decimal [] q ops := by
  intro h
  generalize hs : ([] : List Char) = s at h
  cases h with
  | plain hsg hm =>
    obtain ⟨-, rfl⟩ := List.append_eq_nil_iff.mp hs.symm
    obtain ⟨c, cs, hcons, -⟩ := hm.head
    cases hcons
  | scaled => simp at hs

def twoThousandMillion : List Char := ['2', '0', '0', '0', '0', '0', '0', '0', '0', '0']

/-- A one with that many zeros. -/
def farTooLong : List Char := '1' :: 'e' :: twoThousandMillion

theorem decimal_farTooLong : ∃ q ops, Decimal farTooLong q ops ∧ ¬ Fits v8 ops := by
  have hone : Mantissa ['1'] _ _ := Mantissa.whole (List.all_eq_true.mp rfl) (List.cons_ne_nil _ _)
  have hdigits : Digits twoThousandMillion := List.all_eq_true.mp rfl
  have hdec : Decimal ([] ++ ['1'] ++ 'e' :: ([] ++ twoThousandMillion)) _ _ :=
    Decimal.scaled SignText.none hone rfl SignText.none hdigits (List.cons_ne_nil _ _)
  refine ⟨_, _, hdec, fun hfits => ?_⟩
  have hpower := (fits_cons.mp (fits_append.mp hfits).2).1
  rw [natAbs_sign_mul SignText.none] at hpower
  have hlt := @lt_of_fits_byLength (2 ^ 30) _ _ hpower
  have hvalue : digitsValue twoThousandMillion = 2000000000 := by decide
  rw [hvalue] at hlt
  exact absurd hlt (by decide)

/-- The empty text is no number and is read as zero; this number is too long for a BigInt. -/
theorem parse_not_as_claimed :
    (∀ q ops, ¬ Decimal [] q ops) ∧ Rat.parse v8 (.string []) = .ok ZERO ∧
      (∃ q ops, Decimal farTooLong q ops) ∧ Rat.parse v8 (.string farTooLong) = .error .tooBig := by
  obtain ⟨q, ops, hdec, hlong⟩ := decimal_farTooLong
  refine ⟨fun q ops => decimal_ne_nil, rfl, ⟨q, ops, hdec⟩, ?_⟩
  have hne : farTooLong ≠ [] := List.cons_ne_nil _ _
  have htrim : trimChars farTooLong = farTooLong := by decide
  rw [parse_string v8 hne, htrim]
  exact (guarded_parseTrimmed v8 hdec).2 hlong

end SalesDashboard.MarcomKpi.Exact
