import Mathlib

/-! The distinct values of a list in the order in which each first appears. -/

namespace Firsts

variable {α : Type*} [DecidableEq α]

/-- Put a value at the end unless it is there. -/
def insert (acc : List α) (a : α) : List α := if a ∈ acc then acc else acc ++ [a]

def firsts (xs : List α) : List α := xs.foldl insert []

theorem firsts_concat (xs : List α) (a : α) : firsts (xs ++ [a]) = insert (firsts xs) a := by
  unfold firsts
  rw [List.foldl_append]
  rfl

@[simp]
theorem mem_insert {acc : List α} {a b : α} : b ∈ insert acc a ↔ b ∈ acc ∨ b = a := by
  unfold insert
  split
  · next h =>
    constructor
    · exact .inl
    · rintro (hb | rfl)
      · exact hb
      · exact h
  · rw [List.mem_append, List.mem_singleton]

@[simp]
theorem mem_firsts {xs : List α} {a : α} : a ∈ firsts xs ↔ a ∈ xs := by
  induction xs using List.reverseRecOn with
  | nil => exact Iff.rfl
  | append_singleton xs b ih =>
    rw [firsts_concat, mem_insert, ih, List.mem_append, List.mem_singleton]

theorem nodup_firsts (xs : List α) : (firsts xs).Nodup := by
  induction xs using List.reverseRecOn with
  | nil => exact List.nodup_nil
  | append_singleton xs b ih =>
    rw [firsts_concat]
    unfold insert
    split
    · exact ih
    · next h =>
      rw [List.nodup_append]
      refine ⟨ih, List.nodup_singleton b, ?_⟩
      intro x hx y hy heq
      rw [List.mem_singleton.mp hy] at heq
      exact h (heq ▸ hx)

/-- A list without repetitions is its own. -/
theorem firsts_of_nodup {xs : List α} (h : xs.Nodup) : firsts xs = xs := by
  induction xs using List.reverseRecOn with
  | nil => rfl
  | append_singleton xs b ih =>
    rw [List.nodup_append] at h
    have hb : b ∉ xs := fun hmem => h.2.2 b hmem b (List.mem_singleton_self b) rfl
    rw [firsts_concat, ih h.1]
    exact if_neg hb

theorem firsts_eq_nil {xs : List α} : firsts xs = [] ↔ xs = [] := by
  constructor
  · intro h
    rw [List.eq_nil_iff_forall_not_mem]
    intro a ha
    have : a ∈ firsts xs := mem_firsts.mpr ha
    rw [h] at this
    cases this
  · rintro rfl
    rfl

end Firsts
