import Mathlib

/-! Counters by key, as a dictionary of numbers with the total over all keys. -/

namespace Counts

variable {κ : Type*} [DecidableEq κ]

/-- The count of a key; an absent key counts nothing. -/
def get (k : κ) (c : List (κ × Nat)) : Nat :=
  ((c.filter fun e => decide (e.1 = k)).map (·.2)).sum

def set (k : κ) (n : Nat) (c : List (κ × Nat)) : List (κ × Nat) :=
  (c.filter fun e => decide (e.1 ≠ k)) ++ [(k, n)]

def total (c : List (κ × Nat)) : Nat := (c.map (·.2)).sum

theorem total_set (k : κ) (n : Nat) (c : List (κ × Nat)) :
    total (set k n c) + get k c = total c + n := by
  unfold total set get
  rw [List.map_append, List.sum_append]
  have hsplit : ((c.filter fun e => decide (e.1 ≠ k)).map (·.2)).sum +
      ((c.filter fun e => decide (e.1 = k)).map (·.2)).sum = (c.map (·.2)).sum := by
    induction c with
    | nil => rfl
    | cons e c ih =>
      simp only [ne_eq] at ih
      by_cases he : e.1 = k
      · simp only [List.filter_cons, he, ne_eq, not_true, decide_true, decide_false, if_true,
          Bool.false_eq_true, if_false, List.map_cons, List.sum_cons]
        omega
      · simp only [List.filter_cons, he, ne_eq, not_false_eq_true, decide_true, decide_false,
          if_true, Bool.false_eq_true, if_false, List.map_cons, List.sum_cons]
        omega
  simp only [List.map_cons, List.map_nil, List.sum_cons, List.sum_nil]
  omega

/-- Adding to a count adds to the total. -/
theorem total_add (k : κ) (n : Nat) (c : List (κ × Nat)) :
    total (set k (get k c + n) c) = total c + n := by
  have h := total_set k (get k c + n) c
  omega

theorem get_eq_zero {k : κ} {c : List (κ × Nat)} (h : ∀ e ∈ c, e.1 ≠ k) : get k c = 0 := by
  unfold get
  rw [List.filter_eq_nil_iff.mpr fun e he => by simpa using h e he]
  rfl

/-- Assigning a count nobody has assigned adds to the total. -/
theorem total_assign {k : κ} {c : List (κ × Nat)} (n : Nat) (h : ∀ e ∈ c, e.1 ≠ k) :
    total (set k n c) = total c + n := by
  have h' := total_set k n c
  rw [get_eq_zero h] at h'
  exact h'

theorem mem_set {k : κ} {n : Nat} {c : List (κ × Nat)} {e : κ × Nat} (h : e ∈ set k n c) :
    e.1 = k ∨ e ∈ c := by
  rcases List.mem_append.mp h with h | h
  · exact .inr (List.mem_of_mem_filter h)
  · rw [List.mem_singleton.mp h]
    exact .inl rfl

/-! ## Counting by keys -/

theorem sum_ite_mem {ks : List κ} (hks : ks.Nodup) (j : κ) :
    (ks.map fun k => if j = k then 1 else 0).sum = if j ∈ ks then 1 else 0 := by
  induction ks with
  | nil => rfl
  | cons k ks ih =>
    obtain ⟨hk, hks⟩ := List.nodup_cons.mp hks
    rw [List.map_cons, List.sum_cons, ih hks]
    by_cases hj : j = k
    · subst hj
      simp [hk]
    · simp [hj]

/-- What is counted for each of some keys makes up what is counted for all of them. -/
theorem sum_countP_keys {α : Type*} (f : α → κ) (p : α → Bool) {ks : List κ} (hks : ks.Nodup)
    (xs : List α) : (ks.map fun k => xs.countP fun x => p x && decide (f x = k)).sum =
      xs.countP fun x => p x && decide (f x ∈ ks) := by
  induction xs with
  | nil => simp
  | cons x xs ih =>
    simp only [List.countP_cons, List.sum_map_add, ih]
    refine congrArg _ ?_
    cases p x with
    | false => simp
    | true =>
      have hone := sum_ite_mem hks (f x)
      simpa using hone

/-! ## Numbers that count something each -/

theorem length_le_zeros_add_sum (ns : List Nat) :
    ns.length ≤ (ns.countP fun n => decide (n = 0)) + ns.sum := by
  induction ns with
  | nil => exact Nat.le_refl 0
  | cons n ns ih =>
    rw [List.length_cons, List.countP_cons, List.sum_cons]
    split
    · omega
    · next h =>
      have : n ≠ 0 := by simpa using h
      omega

/-- The zeros and the total make up the length when no number is above one. -/
theorem length_eq_zeros_add_sum_iff (ns : List Nat) :
    ns.length = (ns.countP fun n => decide (n = 0)) + ns.sum ↔ ∀ n ∈ ns, n ≤ 1 := by
  induction ns with
  | nil => simp
  | cons n ns ih =>
    have hle := length_le_zeros_add_sum ns
    rw [List.forall_mem_cons, ← ih, List.length_cons, List.countP_cons, List.sum_cons]
    split
    · next h =>
      have : n = 0 := by simpa using h
      omega
    · next h =>
      have : n ≠ 0 := by simpa using h
      omega

end Counts
