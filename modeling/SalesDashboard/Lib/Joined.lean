import Mathlib

/-! Lists joined with a separator, and what the joined list says about its
parts. A part may hold the separator itself. -/

namespace Joined

variable {α : Type*} [DecidableEq α]

/-- What stands between separators, over all parts in order. -/
def pieces (sep : α) (parts : List (List α)) : List (List α) :=
  parts.flatMap (·.splitOn sep)

theorem splitOn_intercalate (sep : α) {parts : List (List α)} (hne : parts ≠ []) :
    ([sep].intercalate parts).splitOn sep = pieces sep parts := by
  induction parts with
  | nil => exact absurd rfl hne
  | cons x parts ih =>
    cases parts with
    | nil => simp [pieces]
    | cons y parts =>
      have hcons : [sep].intercalate (x :: y :: parts) =
          x ++ sep :: [sep].intercalate (y :: parts) := by
        simp [List.intercalate]
      rw [hcons, List.splitOn_eq_splitOnP, List.splitOnP_append_cons _ _ (by simp),
        ← List.splitOn_eq_splitOnP, ← List.splitOn_eq_splitOnP, ih (by simp)]
      rfl

/-- The joined list determines the pieces, and nothing more. -/
theorem intercalate_eq_iff (sep : α) {xs ys : List (List α)} (hx : xs ≠ []) (hy : ys ≠ []) :
    [sep].intercalate xs = [sep].intercalate ys ↔ pieces sep xs = pieces sep ys := by
  rw [← splitOn_intercalate sep hx, ← splitOn_intercalate sep hy]
  constructor
  · intro h
    rw [h]
  · intro h
    have hjoin := congrArg [sep].intercalate h
    rwa [List.intercalate_splitOn, List.intercalate_splitOn] at hjoin

theorem length_splitOn (sep : α) (x : List α) : (x.splitOn sep).length = x.count sep + 1 := by
  induction x with
  | nil => rfl
  | cons a x ih =>
    rw [List.splitOn_cons_eq_if_modifyHead, List.count_cons]
    split <;> simp_all

/-- The pieces determine the parts once each part's separators are counted. -/
theorem eq_of_pieces {sep : α} {xs ys : List (List α)}
    (hcount : xs.map (·.count sep) = ys.map (·.count sep))
    (hpieces : pieces sep xs = pieces sep ys) : xs = ys := by
  induction xs generalizing ys with
  | nil =>
    cases ys with
    | nil => rfl
    | cons y ys => simp at hcount
  | cons x xs ih =>
    cases ys with
    | nil => simp at hcount
    | cons y ys =>
      simp only [List.map_cons, List.cons.injEq] at hcount
      have hlen : (x.splitOn sep).length = (y.splitOn sep).length := by
        rw [length_splitOn, length_splitOn, hcount.1]
      obtain ⟨hhead, htail⟩ := List.append_inj hpieces hlen
      have hxy := congrArg [sep].intercalate hhead
      rw [List.intercalate_splitOn, List.intercalate_splitOn] at hxy
      rw [hxy, ih hcount.2 htail]

/-- **When joining tells two lists of parts apart.** -/
theorem joined_iff (sep : α) {xs ys : List (List α)} (hx : xs ≠ []) (hy : ys ≠ []) :
    ([sep].intercalate xs = [sep].intercalate ys ↔ xs = ys) ↔
      (xs.map (·.count sep) = ys.map (·.count sep) ∨ pieces sep xs ≠ pieces sep ys) := by
  rw [intercalate_eq_iff sep hx hy]
  constructor
  · intro h
    by_cases hp : pieces sep xs = pieces sep ys
    · exact Or.inl (by rw [h.mp hp])
    · exact Or.inr hp
  · rintro (hcount | hne)
    · exact ⟨eq_of_pieces hcount, fun h => by rw [h]⟩
    · exact ⟨fun h => absurd h hne, fun h => by rw [h]⟩

end Joined
