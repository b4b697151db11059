import Mathlib

/-! Statements that run one after the other, each of which may fail, and between any two
of which the process may die. What an open transaction did is undone then. -/

namespace FailPoints

/-- What happens to a statement, besides what it does itself. -/
inductive Fate
  | ok | fails | dies
  deriving DecidableEq, Repr

inductive Ending
  | returned | raised | died
  deriving DecidableEq, Repr

variable {S σ : Type*}

structure Run (S σ : Type*) where
  /-- The states behind the statements that were done. -/
  moments : List S
  last : S
  ending : Ending
  /-- The statement that ended the run and those behind it. -/
  rest : List σ
  /-- The fates that are not used up. -/
  fates : List Fate

/-- The states of a run, with that in which it ended. -/
def Run.states (r : Run S σ) : List S := r.moments ++ [r.last]

def Run.before (s : S) (r : Run S σ) : Run S σ := { r with moments := s :: r.moments }

section
variable (exec : σ → S → Option S) (undo : S → S)

/-- The state behind a statement, or how the run ends there. -/
def attempt (fate : Fate) (st : σ) (s : S) : Except Ending S :=
  match fate, exec st s with
  | .ok, some s' => .ok s'
  | .dies, _ => .error .died
  | _, _ => .error .raised

/-- Runs statements; without a fate a statement is not disturbed. -/
def run : List σ → List Fate → S → Run S σ
  | [], fates, s => ⟨[], s, .returned, [], fates⟩
  | st :: sts, fates, s =>
      match attempt exec (fates.headD .ok) st s with
      | .ok s' => (run sts fates.tail s').before s'
      | .error ending => ⟨[], undo s, ending, st :: sts, fates.tail⟩

/-- The statements without any failure but their own. -/
def execAll (sts : List σ) (s : S) : Option S := sts.foldlM (fun s st => exec st s) s

end

variable {exec : σ → S → Option S} {undo : S → S}

theorem attempt_ok {fate : Fate} {st : σ} {s s' : S} (h : attempt exec fate st s = .ok s') : exec st s = some s' := by
  unfold attempt at h
  cases fate <;> cases hexec : exec st s <;> simp_all

theorem attempt_error {fate : Fate} {st : σ} {s : S} {ending : Ending} (h : attempt exec fate st s = .error ending) :
    ending ≠ .returned := by
  unfold attempt at h
  rintro rfl
  cases fate <;> cases hexec : exec st s <;> simp_all

theorem run_ok {fates : List Fate} {st : σ} {s s' : S} (h : attempt exec (fates.headD .ok) st s = .ok s')
    (sts : List σ) : run exec undo (st :: sts) fates s = (run exec undo sts fates.tail s').before s' := by
  rw [run, h]

theorem run_error {fates : List Fate} {st : σ} {s : S} {ending : Ending}
    (h : attempt exec (fates.headD .ok) st s = .error ending) (sts : List σ) :
    run exec undo (st :: sts) fates s = ⟨[], undo s, ending, st :: sts, fates.tail⟩ := by
  rw [run, h]

theorem execAll_cons (st : σ) (sts : List σ) (s : S) :
    execAll exec (st :: sts) s = (exec st s).bind (execAll exec sts) := by
  unfold execAll
  rw [List.foldlM_cons]
  rfl

theorem execAll_append (xs ys : List σ) (s : S) :
    execAll exec (xs ++ ys) s = (execAll exec xs s).bind (execAll exec ys) := by
  unfold execAll
  rw [List.foldlM_append]
  rfl

/-- What every statement keeps holds throughout. -/
theorem run_keeps {P : S → Prop} (hundo : ∀ s, P s → P (undo s)) (sts : List σ) (fates : List Fate) {s : S} (hs : P s)
    (hstep : ∀ st ∈ sts, ∀ s s', P s → exec st s = some s' → P s') :
    ∀ m ∈ (run exec undo sts fates s).states, P m := by
  induction sts generalizing s fates with
  | nil =>
    intro m hm
    rw [List.mem_singleton.mp hm]
    exact hs
  | cons st sts ih =>
    cases h : attempt exec (fates.headD .ok) st s with
    | ok s' =>
      rw [run_ok h]
      have hs' := hstep st List.mem_cons_self s s' hs (attempt_ok h)
      intro m hm
      rcases List.mem_cons.mp hm with rfl | hm
      · exact hs'
      · exact ih _ hs' (fun st hst => hstep st (List.mem_cons_of_mem _ hst)) m hm
    | error ending =>
      rw [run_error h]
      intro m hm
      rw [List.mem_singleton.mp hm]
      exact hundo s hs

theorem last_mem_states (r : Run S σ) : r.last ∈ r.states := List.mem_append_right _ (List.mem_singleton_self _)

/-- A run that returns has done all its statements. -/
theorem execAll_of_returned {sts : List σ} {fates : List Fate} {s : S}
    (h : (run exec undo sts fates s).ending = .returned) :
    execAll exec sts s = some (run exec undo sts fates s).last := by
  induction sts generalizing s fates with
  | nil => rfl
  | cons st sts ih =>
    cases hst : attempt exec (fates.headD .ok) st s with
    | ok s' =>
      rw [run_ok hst] at h ⊢
      rw [execAll_cons, attempt_ok hst]
      exact ih h
    | error ending =>
      rw [run_error hst] at h
      exact absurd h (attempt_error hst)

/-- Statements that can all be done are done when nothing disturbs them. -/
theorem run_undisturbed {sts : List σ} {s s' : S} (h : execAll exec sts s = some s') :
    (run exec undo sts [] s).ending = .returned ∧ (run exec undo sts [] s).last = s' ∧
      (run exec undo sts [] s).fates = [] := by
  induction sts generalizing s with
  | nil => exact ⟨rfl, Option.some.inj h, rfl⟩
  | cons st sts ih =>
    rw [execAll_cons] at h
    obtain ⟨t, ht, h⟩ := Option.bind_eq_some_iff.mp h
    have hattempt : attempt exec (([] : List Fate).headD .ok) st s = .ok t := by
      show attempt exec .ok st s = .ok t
      unfold attempt
      rw [ht]
    rw [run_ok hattempt]
    exact ih h

/-- A run of two parts: it ends in the first, or goes on from its end. -/
theorem run_append (xs ys : List σ) (fates : List Fate) (s : S) :
    run exec undo (xs ++ ys) fates s =
      if (run exec undo xs fates s).ending = .returned then
        (run exec undo xs fates s).moments.foldr Run.before
          (run exec undo ys (run exec undo xs fates s).fates (run exec undo xs fates s).last)
      else { run exec undo xs fates s with rest := (run exec undo xs fates s).rest ++ ys } := by
  induction xs generalizing s fates with
  | nil => rfl
  | cons st xs ih =>
    rw [List.cons_append]
    cases h : attempt exec (fates.headD .ok) st s with
    | ok s' =>
      rw [run_ok h, run_ok h, ih]
      show Run.before s' _ = if (run exec undo xs fates.tail s').ending = .returned then _ else _
      split
      · rfl
      · rfl
    | error ending =>
      rw [run_error h, run_error h]
      exact (if_neg (attempt_error h)).symm

/-- A run stops where the statements it has done end. -/
theorem run_done (sts : List σ) (fates : List Fate) (s : S) :
    ∃ done s', sts = done ++ (run exec undo sts fates s).rest ∧ execAll exec done s = some s' ∧
      ((run exec undo sts fates s).last = s' ∨ (run exec undo sts fates s).last = undo s') := by
  induction sts generalizing s fates with
  | nil => exact ⟨[], s, rfl, rfl, .inl rfl⟩
  | cons st sts ih =>
    cases h : attempt exec (fates.headD .ok) st s with
    | ok t =>
      obtain ⟨done, s', hsplit, hdone, hlast⟩ := ih fates.tail t
      rw [run_ok h]
      refine ⟨st :: done, s', congrArg (st :: ·) hsplit, ?_, hlast⟩
      rw [execAll_cons, attempt_ok h]
      exact hdone
    | error ending =>
      rw [run_error h]
      exact ⟨[], s, rfl, rfl, .inr rfl⟩

theorem foldr_before (moments : List S) (r : Run S σ) :
    (moments.foldr Run.before r).states = moments ++ r.states ∧ (moments.foldr Run.before r).last = r.last ∧
      (moments.foldr Run.before r).ending = r.ending ∧ (moments.foldr Run.before r).rest = r.rest := by
  induction moments with
  | nil => exact ⟨rfl, rfl, rfl, rfl⟩
  | cons m moments ih => exact ⟨congrArg (m :: ·) ih.1, ih.2.1, ih.2.2.1, ih.2.2.2⟩

end FailPoints
