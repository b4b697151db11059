import Mathlib

/-! What a loop leaves in one of its variables: a sum, or the loop of that variable
alone. A loop whose turns can fail has a result when no turn fails. -/

namespace Loops

variable {α β γ : Type*}

/-- Each turn adds to a figure of the variables, as long as they are in order. -/
theorem sum_foldl {M : Type*} [AddCommMonoid M] {g : α → β → α} {w : α → M} {d : β → M}
    (P : α → Prop) (hP : ∀ a b, P a → P (g a b)) (hw : ∀ a b, P a → w (g a b) = w a + d b)
    (bs : List β) {a : α} (ha : P a) : w (bs.foldl g a) = w a + (bs.map d).sum := by
  induction bs generalizing a with
  | nil => simp
  | cons b bs ih => rw [List.foldl_cons, ih (hP a b ha), hw a b ha, List.map_cons, List.sum_cons, add_assoc]

/-- A variable that only some turns change runs through those. -/
theorem foldl_filter {g : α → β → α} {w : α → γ} {f : γ → β → γ} {p : β → Bool}
    (P : α → Prop) (hP : ∀ a b, P a → P (g a b))
    (hw : ∀ a b, P a → w (g a b) = if p b then f (w a) b else w a)
    (bs : List β) {a : α} (ha : P a) : w (bs.foldl g a) = (bs.filter p).foldl f (w a) := by
  induction bs generalizing a with
  | nil => rfl
  | cons b bs ih =>
    rw [List.foldl_cons, ih (hP a b ha), hw a b ha, List.filter_cons]
    split
    · rw [List.foldl_cons]
    · rfl

/-! ## Turns that can fail -/

theorem mapM_eq_some {f : α → Option β} {xs : List α} {ys : List β} :
    xs.mapM f = some ys ↔ List.Forall₂ (fun x y => f x = some y) xs ys := by
  induction xs generalizing ys with
  | nil => simp [eq_comm]
  | cons x xs ih =>
    rw [List.mapM_cons, Option.bind_eq_bind, Option.bind_eq_some_iff]
    constructor
    · rintro ⟨y, hy, h⟩
      obtain ⟨zs, hzs, h⟩ := Option.bind_eq_some_iff.mp h
      cases h
      exact .cons hy (ih.mp hzs)
    · intro h
      cases h with
      | cons hy hrest => exact ⟨_, hy, Option.bind_eq_some_iff.mpr ⟨_, ih.mpr hrest, rfl⟩⟩

theorem mapM_eq_none {f : α → Option β} {xs : List α} :
    xs.mapM f = none ↔ ∃ x ∈ xs, f x = none := by
  induction xs with
  | nil => simp
  | cons x xs ih =>
    rw [List.mapM_cons, Option.bind_eq_bind, List.exists_mem_cons_iff, ← ih]
    cases f x with
    | none => simp
    | some y => cases xs.mapM f <;> simp

theorem mem_of_mapM {f : α → Option β} {xs : List α} {ys : List β} (h : xs.mapM f = some ys) {y : β} :
    y ∈ ys ↔ ∃ x ∈ xs, f x = some y := by
  rw [mapM_eq_some] at h
  induction h with
  | nil => simp
  | @cons x z xs ys hxz _ ih =>
    rw [List.mem_cons, List.exists_mem_cons_iff, ih, hxz, Option.some_inj, eq_comm]

/-- A loop ends after the turn that fails, in the state that the turns before it left. -/
theorem foldlM_cases {ε : Type*} {f : β → α → Except ε β} (xs : List α) {b : β} (P : List α → β → Prop)
    (hb : P [] b)
    (hstep : ∀ pre x c c', pre ++ [x] <+: xs → P pre c → f c x = .ok c' → P (pre ++ [x]) c') :
    (∃ b', xs.foldlM f b = .ok b' ∧ P xs b') ∨
      ∃ pre x c e, pre ++ [x] <+: xs ∧ P pre c ∧ f c x = .error e ∧ xs.foldlM f b = .error e := by
  induction xs using List.reverseRecOn with
  | nil => exact .inl ⟨b, rfl, hb⟩
  | append_singleton xs x ih =>
    rw [List.foldlM_append]
    rcases ih fun pre y c c' hpre => hstep pre y c c' (hpre.trans (List.prefix_append _ _)) with
      ⟨c, hc, hP⟩ | ⟨pre, y, c, e, hpre, hP, he, hfold⟩
    · rw [hc]
      cases hx : f c x with
      | ok c' =>
        exact .inl ⟨c', by simp [hx, bind, Except.bind, pure, Except.pure],
          hstep xs x c c' (List.prefix_refl _) hP hx⟩
      | error e =>
        exact .inr ⟨xs, x, c, e, List.prefix_refl _, hP, hx, by simp [hx, bind, Except.bind]⟩
    · exact .inr ⟨pre, y, c, e, hpre.trans (List.prefix_append _ _), hP, he, by
        rw [hfold]; rfl⟩

/-- The output of a turn, found in that of the loop by the key of its input. -/
theorem filter_flatMap_of_key {κ : Type*} [DecidableEq κ] (id : α → κ) (key : γ → κ) (g : β → List γ)
    {R : α → β → Prop} {xs : List α} {ys : List β} (h : List.Forall₂ R xs ys)
    (hown : ∀ x y, R x y → ∀ z ∈ g y, key z = id x) (hn : (xs.map id).Nodup) :
    List.Forall₂ (fun x y => (ys.flatMap g).filter (fun z => decide (key z = id x)) = g y) xs ys := by
  have hother : ∀ {xs ys}, List.Forall₂ R xs ys → ∀ k, k ∉ xs.map id →
      (ys.flatMap g).filter (fun z => decide (key z = k)) = [] := by
    intro xs ys h k hk
    induction h with
    | nil => rfl
    | @cons x y xs ys hxy _ ih =>
      rw [List.map_cons, List.mem_cons, not_or] at hk
      rw [List.flatMap_cons, List.filter_append, ih hk.2, List.append_nil, List.filter_eq_nil_iff]
      intro z hz heq
      exact hk.1 ((of_decide_eq_true heq).symm.trans (hown x y hxy z hz))
  induction h with
  | nil => exact .nil
  | @cons x y xs ys hxy hrest ih =>
    rw [List.map_cons, List.nodup_cons] at hn
    have hself : (g y).filter (fun z => decide (key z = id x)) = g y :=
      List.filter_eq_self.mpr fun z hz => decide_eq_true (hown x y hxy z hz)
    refine .cons ?_ ?_
    · rw [List.flatMap_cons, List.filter_append, hself, hother hrest _ hn.1, List.append_nil]
    · refine List.forall₂_iff_zip.mpr ⟨hrest.length_eq, ?_⟩
      intro x' y' hmem
      have hx' : id x' ≠ id x := fun heq =>
        hn.1 (heq ▸ List.mem_map_of_mem (List.of_mem_zip hmem).1)
      have hnone : (g y).filter (fun z => decide (key z = id x')) = [] := by
        rw [List.filter_eq_nil_iff]
        intro z hz heq
        exact hx' ((of_decide_eq_true heq).symm.trans (hown x y hxy z hz))
      rw [List.flatMap_cons, List.filter_append, hnone, List.nil_append]
      exact (List.forall₂_iff_zip.mp (ih hn.2)).2 hmem

end Loops
