import Mathlib

/-! Runs of a partial step function. An action names what happens in a step;
`step s a = none` says that the action is not possible in `s`. A run carries a
condition on each state and the action taken there, so that a property proved
for the steps that meet the condition holds along every run of such steps. -/

namespace Transition

variable {σ α : Type*}

/-- The actions `as` lead from `s` to `t`, and each of them meets `ok` in the
state in which it is taken. -/
inductive Run (step : σ → α → Option σ) (ok : σ → α → Prop) : σ → List α → σ → Prop
  | nil (s : σ) : Run step ok s [] s
  | cons {s t u : σ} {a : α} {as : List α} :
      ok s a → step s a = some t → Run step ok t as u → Run step ok s (a :: as) u

/-- The run without a condition. -/
abbrev FreeRun (step : σ → α → Option σ) : σ → List α → σ → Prop :=
  Run step (fun _ _ => True)

section
variable {step : σ → α → Option σ} {ok : σ → α → Prop}

/-- What every step that meets the condition preserves holds at the end of the
run. -/
theorem Run.invariant {Inv : σ → Prop}
    (hstep : ∀ s a t, Inv s → ok s a → step s a = some t → Inv t)
    {s t : σ} {as : List α} (h : Run step ok s as t) (hs : Inv s) : Inv t := by
  induction h with
  | nil => exact hs
  | cons ha hst _ ih => exact ih (hstep _ _ _ hs ha hst)

theorem Run.weaken {ok' : σ → α → Prop} (hok : ∀ s a, ok s a → ok' s a)
    {s t : σ} {as : List α} (h : Run step ok s as t) : Run step ok' s as t := by
  induction h with
  | nil s => exact .nil s
  | cons ha hst _ ih => exact .cons (hok _ _ ha) hst ih

theorem Run.free {s t : σ} {as : List α} (h : Run step ok s as t) : FreeRun step s as t :=
  h.weaken fun _ _ _ => trivial

theorem Run.strengthen {p : α → Prop} {s t : σ} {as : List α} (h : Run step ok s as t)
    (hp : ∀ a ∈ as, p a) : Run step (fun s a => ok s a ∧ p a) s as t := by
  induction h with
  | nil s => exact .nil s
  | cons ha hst _ ih =>
    exact .cons ⟨ha, hp _ List.mem_cons_self⟩ hst (ih fun a h => hp a (List.mem_cons_of_mem _ h))

theorem Run.append {s t u : σ} {as bs : List α}
    (h : Run step ok s as t) (h' : Run step ok t bs u) : Run step ok s (as ++ bs) u := by
  induction h with
  | nil => exact h'
  | cons ha hst _ ih => exact .cons ha hst (ih h')

theorem Run.of_append {s u : σ} {as bs : List α} (h : Run step ok s (as ++ bs) u) :
    ∃ t, Run step ok s as t ∧ Run step ok t bs u := by
  induction as generalizing s with
  | nil => exact ⟨s, .nil s, h⟩
  | cons a as ih =>
    cases h with
    | cons ha hst hrest =>
      obtain ⟨t, h₁, h₂⟩ := ih hrest
      exact ⟨t, .cons ha hst h₁, h₂⟩

end

/-- How many of the steps that the actions make meet the test. -/
def countAlong (step : σ → α → Option σ) (p : σ → α → Bool) : σ → List α → Nat
  | _, [] => 0
  | s, a :: as =>
      (if p s a then 1 else 0) +
        match step s a with
        | some t => countAlong step p t as
        | none => 0

/-- An invariant that counts those steps. -/
theorem Run.counting {step : σ → α → Option σ} {ok : σ → α → Prop} {p : σ → α → Bool}
    {Inv : Nat → σ → Prop}
    (hstep : ∀ n s a t, Inv n s → ok s a → step s a = some t →
      Inv (n + if p s a then 1 else 0) t)
    {s t : σ} {as : List α} (h : Run step ok s as t) {n : Nat} (hs : Inv n s) :
    Inv (n + countAlong step p s as) t := by
  induction h generalizing n with
  | nil => exact hs
  | cons ha hst _ ih =>
    have := ih (hstep _ _ _ _ hs ha hst)
    rw [Nat.add_assoc] at this
    simp only [countAlong, hst]
    exact this

/-- An invariant that speaks of the actions taken so far. -/
theorem Run.traced {step : σ → α → Option σ} {ok : σ → α → Prop} (Inv : List α → σ → Prop)
    (hstep : ∀ as s a t, Inv as s → ok s a → step s a = some t → Inv (as ++ [a]) t)
    {s t : σ} {as bs : List α} (h : Run step ok s bs t) (hs : Inv as s) : Inv (as ++ bs) t := by
  induction h generalizing as with
  | nil =>
    rw [List.append_nil]
    exact hs
  | cons ha hst _ ih =>
    have := ih (hstep _ _ _ _ hs ha hst)
    rw [List.append_assoc] at this
    exact this

/-- Execute the actions, checking the condition before each of them. -/
def exec (step : σ → α → Option σ) (ok : σ → α → Prop) [∀ s a, Decidable (ok s a)] :
    σ → List α → Option σ
  | s, [] => some s
  | s, a :: as =>
      if ok s a then
        match step s a with
        | some t => exec step ok t as
        | none => none
      else none

/-- The executions are the runs. -/
theorem exec_eq_some (step : σ → α → Option σ) (ok : σ → α → Prop)
    [∀ s a, Decidable (ok s a)] (s t : σ) (as : List α) :
    exec step ok s as = some t ↔ Run step ok s as t := by
  induction as generalizing s with
  | nil =>
    constructor
    · intro h
      cases h
      exact .nil _
    · intro h
      cases h
      rfl
  | cons a as ih =>
    constructor
    · intro h
      unfold exec at h
      split at h
      · next ha =>
        split at h
        · next u hu => exact .cons ha hu ((ih u).mp h)
        · cases h
      · cases h
    · intro h
      cases h with
      | cons ha hst hrest =>
        unfold exec
        simp only [ha, hst, if_true]
        exact (ih _).mpr hrest

end Transition
