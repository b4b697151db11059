import SalesDashboard.MarcomKpi.Rat
import Mathlib

/-! The operations on exact rationals: each gives the value of the operation in lowest
terms, or ends with the engine's error where the engine refuses a number it forms. -/

namespace SalesDashboard.MarcomKpi.Exact

/-! ## Guarded results -/

/-- The result is one of `P` where `fits` holds, and the engine's error where it does not. -/
def Guarded {α : Type} (fits : Prop) (m : Except Fault α) (P : α → Prop) : Prop :=
  (fits → ∃ a, m = .ok a ∧ P a) ∧ (¬ fits → m = .error .tooBig)

section Guarded

variable {α β : Type} {fits fits' : Prop} {m : Except Fault α} {P : α → Prop}

theorem Guarded.pure {a : α} (h : P a) : Guarded True (.ok a) P :=
  ⟨fun _ => ⟨a, rfl, h⟩, fun hno => absurd trivial hno⟩

theorem Guarded.bind {f : α → Except Fault β} {Q : β → Prop} (hm : Guarded fits m P)
    (hf : ∀ a, P a → Guarded fits' (f a) Q) : Guarded (fits ∧ fits') (m >>= f) Q := by
  constructor
  · rintro ⟨hfits, hfits'⟩
    obtain ⟨a, rfl, ha⟩ := hm.1 hfits
    exact (hf a ha).1 hfits'
  · intro hno
    by_cases hfits : fits
    · obtain ⟨a, rfl, ha⟩ := hm.1 hfits
      exact (hf a ha).2 fun h => hno ⟨hfits, h⟩
    · rw [hm.2 hfits]
      rfl

theorem Guarded.congr (hm : Guarded fits m P) (h : fits ↔ fits') : Guarded fits' m P :=
  ⟨fun h' => hm.1 (h.mpr h'), fun h' => hm.2 fun h'' => h' (h.mp h'')⟩

theorem Guarded.mono {Q : α → Prop} (hm : Guarded fits m P) (h : ∀ a, P a → Q a) : Guarded fits m Q := by
  refine ⟨fun hfits => ?_, hm.2⟩
  obtain ⟨a, ha, hp⟩ := hm.1 hfits
  exact ⟨a, ha, h a hp⟩

/-- Whatever comes out is one of `P`. -/
theorem Guarded.of_ok (hm : Guarded fits m P) {a : α} (h : m = .ok a) : P a := by
  by_cases hfits : fits
  · obtain ⟨a', ha', hp⟩ := hm.1 hfits
    cases h.symm.trans ha'
    exact hp
  · cases h.symm.trans (hm.2 hfits)

theorem Guarded.ok_or_tooBig (hm : Guarded fits m P) : (∃ a, m = .ok a ∧ P a) ∨ m = .error .tooBig := by
  by_cases hfits : fits
  · exact Or.inl (hm.1 hfits)
  · exact Or.inr (hm.2 hfits)

end Guarded

/-- The engine carries the operations out. -/
def Fits (E : Engine) (ops : List Operation) : Prop := ∀ op ∈ ops, E.fits op = true

@[simp]
theorem fits_nil {E : Engine} : Fits E [] ↔ True := iff_true_intro fun _ hop => by cases hop

@[simp]
theorem fits_cons {E : Engine} {op : Operation} {ops : List Operation} :
    Fits E (op :: ops) ↔ E.fits op = true ∧ Fits E ops := List.forall_mem_cons

@[simp]
theorem fits_append {E : Engine} {ops ops' : List Operation} :
    Fits E (ops ++ ops') ↔ Fits E ops ∧ Fits E ops' := List.forall_mem_append

theorem guarded_big (E : Engine) (op : Operation) : Guarded (E.fits op = true) (big E op) (· = op.result) := by
  unfold big
  constructor
  · intro h
    rw [if_pos h]
    exact ⟨op.result, rfl, rfl⟩
  · intro h
    rw [if_neg h]

/-- One operation more that has to fit. -/
theorem Guarded.big_bind {β : Type} {E : Engine} {op : Operation} {ops : List Operation} {f : ℤ → Except Fault β}
    {Q : β → Prop} (h : Guarded (Fits E ops) (f op.result) Q) : Guarded (Fits E (op :: ops)) (big E op >>= f) Q :=
  Guarded.congr (Guarded.bind (guarded_big E op) fun _ hy => hy ▸ h) fits_cons.symm

/-- Nothing has to fit any more. -/
theorem Guarded.none_left {E : Engine} {α : Type} {m : Except Fault α} {P : α → Prop} (h : Guarded True m P) :
    Guarded (Fits E []) m P := h.congr fits_nil.symm

/-! ## Lowest terms -/

theorem gcdLoop_eq (x y : ℤ) (hx : 0 ≤ x) (hy : 0 ≤ y) : gcdLoop x y = Int.gcd x y := by
  induction x, y using gcdLoop.induct with
  | case1 x =>
    rw [gcdLoop, dif_pos rfl, Int.gcd_zero_right, Int.natAbs_of_nonneg hx]
  | case2 x y hne ih =>
    rw [gcdLoop, dif_neg hne, ih hy (Int.tmod_nonneg y hx), Int.tmod_eq_emod_of_nonneg hx, Int.gcd_comm,
      Int.gcd_emod]

theorem gcd_eq (a b : ℤ) : gcd a b = Int.gcd a b := by
  unfold gcd
  rw [gcdLoop_eq _ _ (by split <;> omega) (by split <;> omega)]
  split <;> split <;> simp

namespace Rat

def value (r : Rat) : ℚ := r.n / r.d

/-- A positive denominator coprime to the numerator. -/
def Lowest (r : Rat) : Prop := 0 < r.d ∧ Int.gcd r.n r.d = 1

theorem Lowest.d_ne_zero {r : Rat} (h : r.Lowest) : (r.d : ℚ) ≠ 0 := by
  exact_mod_cast h.1.ne'

/-- Numerator and denominator are those of the value. -/
theorem Lowest.num_den {r : Rat} (h : r.Lowest) : r.n = r.value.num ∧ r.d = r.value.den := by
  have hcop : Nat.Coprime r.n.natAbs r.d.natAbs := h.2
  have hnum := Rat.num_div_eq_of_coprime h.1 hcop
  have hden := Rat.den_div_eq_of_coprime h.1 hcop
  exact ⟨hnum.symm, hden.symm⟩

theorem Lowest.ext {a b : Rat} (ha : a.Lowest) (hb : b.Lowest) (h : a.value = b.value) : a = b := by
  obtain ⟨han, had⟩ := ha.num_den
  obtain ⟨hbn, hbd⟩ := hb.num_den
  have hn : a.n = b.n := by rw [han, hbn, h]
  have hd : a.d = b.d := by rw [had, hbd, h]
  cases a
  cases b
  exact Rat.mk.injEq .. ▸ ⟨hn, hd⟩

theorem lowest_ZERO : ZERO.Lowest := by
  refine ⟨?_, ?_⟩ <;> decide

theorem value_ZERO : ZERO.value = 0 := by simp [value, ZERO]

/-- `Rat.of` divides by the greatest common divisor and makes the denominator positive. -/
theorem of_spec {n d : ℤ} (hd : d ≠ 0) : ∃ r, of n d = .ok r ∧ r.Lowest ∧ r.value = n / d := by
  have hd' : (if d < 0 then -d else d) = |d| := by
    split
    · next h => rw [abs_of_neg h]
    · next h => rw [abs_of_nonneg (not_lt.mp h)]
  have hpos : 0 < |d| := abs_pos.mpr hd
  generalize hn' : (if d < 0 then -n else n) = n'
  have hg : gcd n' |d| = Int.gcd n' |d| := gcd_eq n' |d|
  have hgpos : 0 < Int.gcd n' |d| := Int.gcd_pos_of_ne_zero_right _ hpos.ne'
  have hval : ((n' : ℚ) / (|d| : ℤ)) = n / d := by
    rw [← hn']
    split
    · next h => rw [abs_of_neg h]; push_cast; exact neg_div_neg_eq _ _
    · next h => rw [abs_of_nonneg (not_lt.mp h)]
  refine ⟨⟨n'.tdiv (Int.gcd n' |d|), |d|.tdiv (Int.gcd n' |d|)⟩, ?_, ⟨?_, ?_⟩, ?_⟩
  · unfold of
    rw [if_neg hd]
    simp only [hd', hn', hg]
    rw [if_neg (by exact_mod_cast hgpos.ne')]
  · rw [Int.tdiv_eq_ediv_of_dvd (Int.gcd_dvd_right ..)]
    exact Int.ediv_pos_of_pos_of_dvd hpos (by positivity) (Int.gcd_dvd_right ..)
  · rw [Int.tdiv_eq_ediv_of_dvd (Int.gcd_dvd_left ..), Int.tdiv_eq_ediv_of_dvd (Int.gcd_dvd_right ..)]
    exact Int.gcd_ediv_gcd_ediv_gcd hgpos
  · have hgq : ((Int.gcd n' |d| : ℤ) : ℚ) ≠ 0 := by exact_mod_cast hgpos.ne'
    rw [value, Int.tdiv_eq_ediv_of_dvd (Int.gcd_dvd_left ..), Int.tdiv_eq_ediv_of_dvd (Int.gcd_dvd_right ..),
      Int.cast_div (Int.gcd_dvd_left ..) hgq, Int.cast_div (Int.gcd_dvd_right ..) hgq,
      div_div_div_cancel_right₀ hgq, hval]

/-- Lowest terms of a value. -/
def Is (q : ℚ) (r : Rat) : Prop := r.Lowest ∧ r.value = q

theorem guarded_of {n d : ℤ} (hd : d ≠ 0) : Guarded True (of n d) (Is (n / d)) := by
  obtain ⟨r, hr, hlow, hval⟩ := of_spec (n := n) hd
  rw [hr]
  exact Guarded.pure ⟨hlow, hval⟩

section Ops

variable (E : Engine) {a b : Rat} {p q : ℚ}

theorem Is.num_den (ha : Is p a) : a.n = p.num ∧ a.d = p.den := by
  obtain ⟨hlow, rfl⟩ := ha
  exact hlow.num_den

theorem Is.d_ne_zero (ha : Is p a) : a.d ≠ 0 := ha.1.1.ne'

theorem Is.eq_div (ha : Is p a) : p = a.n / a.d := ha.2.symm

/-- The products of numerators and denominators that `mul` forms. -/
def mulOps (a b : Rat) : List Operation := [.product a.n b.n, .product a.d b.d]

def divOps (a b : Rat) : List Operation := [.product a.n b.d, .product a.d b.n]

/-- The cross products, which are also what `cmp` forms. -/
def crossOps (a b : Rat) : List Operation := [.product a.n b.d, .product b.n a.d]

def addOps (a b : Rat) : List Operation :=
  crossOps a b ++ [.sum (a.n * b.d) (b.n * a.d), .product a.d b.d]

def subOps (a b : Rat) : List Operation :=
  crossOps a b ++ [.difference (a.n * b.d) (b.n * a.d), .product a.d b.d]

theorem guarded_mul (ha : Is p a) (hb : Is q b) : Guarded (Fits E (mulOps a b)) (mul E a b) (Is (p * q)) := by
  have hd : a.d * b.d ≠ 0 := mul_ne_zero ha.d_ne_zero hb.d_ne_zero
  have hval : p * q = ((a.n * b.n : ℤ) : ℚ) / ((a.d * b.d : ℤ) : ℚ) := by
    rw [ha.eq_div, hb.eq_div, div_mul_div_comm]
    push_cast
    rfl
  rw [hval]
  exact Guarded.big_bind (Guarded.big_bind (guarded_of hd).none_left)

theorem Is.n_ne_zero (hb : Is q b) (hq : q ≠ 0) : b.n ≠ 0 := by
  intro h
  refine hq ?_
  rw [hb.eq_div, h]
  simp

theorem guarded_div (ha : Is p a) (hb : Is q b) (hq : q ≠ 0) :
    Guarded (Fits E (divOps a b)) (div E a b) (fun r => ∃ s, r = some s ∧ Is (p / q) s) := by
  have hn : b.n ≠ 0 := hb.n_ne_zero hq
  have hd : a.d * b.n ≠ 0 := mul_ne_zero ha.d_ne_zero hn
  have hval : p / q = ((a.n * b.d : ℤ) : ℚ) / ((a.d * b.n : ℤ) : ℚ) := by
    rw [ha.eq_div, hb.eq_div, div_div_div_eq]
    push_cast
    rfl
  unfold div
  rw [if_neg hn, hval]
  refine Guarded.big_bind (Guarded.big_bind ?_)
  refine Guarded.congr (Guarded.bind (guarded_of hd) fun r hr => Guarded.pure ⟨r, rfl, hr⟩) ?_
  rw [and_true, fits_nil]

theorem guarded_add (ha : Is p a) (hb : Is q b) : Guarded (Fits E (addOps a b)) (add E a b) (Is (p + q)) := by
  have hd : a.d * b.d ≠ 0 := mul_ne_zero ha.d_ne_zero hb.d_ne_zero
  have hval : p + q = ((a.n * b.d + b.n * a.d : ℤ) : ℚ) / ((a.d * b.d : ℤ) : ℚ) := by
    rw [ha.eq_div, hb.eq_div, div_add_div _ _ ha.1.d_ne_zero hb.1.d_ne_zero]
    push_cast
    ring
  rw [hval]
  exact Guarded.big_bind (Guarded.big_bind (Guarded.big_bind (Guarded.big_bind (guarded_of hd).none_left)))

theorem guarded_sub (ha : Is p a) (hb : Is q b) : Guarded (Fits E (subOps a b)) (sub E a b) (Is (p - q)) := by
  have hd : a.d * b.d ≠ 0 := mul_ne_zero ha.d_ne_zero hb.d_ne_zero
  have hval : p - q = ((a.n * b.d - b.n * a.d : ℤ) : ℚ) / ((a.d * b.d : ℤ) : ℚ) := by
    rw [ha.eq_div, hb.eq_div, div_sub_div _ _ ha.1.d_ne_zero hb.1.d_ne_zero]
    push_cast
    ring
  rw [hval]
  exact Guarded.big_bind (Guarded.big_bind (Guarded.big_bind (Guarded.big_bind (guarded_of hd).none_left)))

/-- `div` gives `null` exactly for a divisor that is zero. -/
theorem div_eq_null_iff (ha : Is p a) (hb : Is q b) : div E a b = .ok none ↔ q = 0 := by
  constructor
  · intro h
    by_contra hq
    obtain ⟨s, hs, -⟩ := (guarded_div E ha hb hq).of_ok h
    cases hs
  · intro hq
    have hn : b.n = 0 := by
      have hval := hb.eq_div
      rw [hq, eq_comm, div_eq_zero_iff] at hval
      exact_mod_cast hval.resolve_right hb.1.d_ne_zero
    exact if_pos hn

/-- `cmp` is the order of the values. -/
theorem guarded_cmp (ha : Is p a) (hb : Is q b) : Guarded (Fits E (crossOps a b)) (cmp E a b)
    (fun c => (c = -1 ↔ p < q) ∧ (c = 0 ↔ p = q) ∧ (c = 1 ↔ q < p)) := by
  have hda : (0 : ℚ) < a.d := by exact_mod_cast ha.1.1
  have hdb : (0 : ℚ) < b.d := by exact_mod_cast hb.1.1
  have hlt : p < q ↔ a.n * b.d < b.n * a.d := by
    rw [ha.eq_div, hb.eq_div, div_lt_div_iff₀ hda hdb]
    exact_mod_cast Iff.rfl
  have hgt : q < p ↔ b.n * a.d < a.n * b.d := by
    rw [ha.eq_div, hb.eq_div, div_lt_div_iff₀ hdb hda]
    exact_mod_cast Iff.rfl
  have heq : p = q ↔ ¬ p < q ∧ ¬ q < p := by
    rw [not_lt, not_lt, and_comm, le_antisymm_iff]
  refine Guarded.big_bind (Guarded.big_bind (Guarded.none_left (Guarded.pure ?_)))
  simp only [Operation.result]
  rw [heq, hlt, hgt]
  by_cases h : a.n * b.d < b.n * a.d
  · have h' : ¬ b.n * a.d < a.n * b.d := by omega
    simp [h, h']
  · by_cases h' : b.n * a.d < a.n * b.d <;> simp [h, h']

end Ops

end Rat

end SalesDashboard.MarcomKpi.Exact
