import Mathlib

/-! Decimal numerals with leading zeros, and lists cut into pieces of a size. -/

namespace Numerals

/-- At least `width` digits. -/
def padded (width n : Nat) : List Char :=
  List.replicate (width - (Nat.toDigits 10 n).length) '0' ++ Nat.toDigits 10 n

theorem ofDigitChars_replicate (k : Nat) (cs : List Char) :
    Nat.ofDigitChars 10 (List.replicate k '0' ++ cs) 0 = Nat.ofDigitChars 10 cs 0 := by
  induction k with
  | zero => rfl
  | succ k ih =>
    rw [List.replicate_succ, List.cons_append]
    exact ih

/-- A numeral is read back. -/
theorem ofDigitChars_padded (width n : Nat) : Nat.ofDigitChars 10 (padded width n) 0 = n := by
  unfold padded
  rw [ofDigitChars_replicate]
  exact Nat.ofDigitChars_toDigits (by decide) (by decide)

theorem isDigit_of_mem_padded {width n : Nat} {c : Char} (h : c ∈ padded width n) :
    c.isDigit = true := by
  rcases List.mem_append.mp h with h | h
  · rw [List.eq_of_mem_replicate h]
    rfl
  · exact Nat.isDigit_of_mem_toDigits (by decide) (by decide) h

/-- Numerals joined by a character that is no digit are read back one by one. -/
theorem joined_padded_inj {sep : Char} (hsep : sep.isDigit = false) {widths : List Nat}
    {ns ms : List Nat} (hns : ns.length = widths.length) (hms : ms.length = widths.length)
    (h : [sep].intercalate (List.zipWith padded widths ns) =
      [sep].intercalate (List.zipWith padded widths ms)) : ns = ms := by
  cases widths with
  | nil => rw [List.length_eq_zero_iff.mp hns, List.length_eq_zero_iff.mp hms]
  | cons w ws =>
    have hfree : ∀ ks : List Nat, ∀ l ∈ List.zipWith padded (w :: ws) ks, sep ∉ l := by
      intro ks l hl hmem
      obtain ⟨i, hi, rfl⟩ := List.getElem_of_mem hl
      rw [List.getElem_zipWith] at hmem
      rw [isDigit_of_mem_padded hmem] at hsep
      cases hsep
    have hread : ∀ ks : List Nat, ks.length = (w :: ws).length →
        (([sep].intercalate (List.zipWith padded (w :: ws) ks)).splitOn sep).map
          (fun cs => Nat.ofDigitChars 10 cs 0) = ks := by
      intro ks hks
      rw [List.splitOn_intercalate sep (hfree ks)]
      · apply List.ext_getElem
        · simp [hks]
        · intro i hi hi'
          simp [ofDigitChars_padded]
      · cases ks with
        | nil => simp at hks
        | cons k ks => simp
    rw [← hread ns hns, ← hread ms hms, h]

/-! ## Pieces -/

variable {α : Type*}

def chunksFrom (size : Nat) : Nat → List α → List (List α)
  | 0, _ => []
  | fuel + 1, xs => if xs.isEmpty then [] else xs.take size :: chunksFrom size fuel (xs.drop size)

/-- `rows[i:i + size]`, one after the other. -/
def chunks (size : Nat) (xs : List α) : List (List α) := chunksFrom size xs.length xs

theorem flatten_chunks {size : Nat} (hsize : 0 < size) (xs : List α) : (chunks size xs).flatten = xs := by
  have hgen : ∀ (fuel : Nat) (xs : List α), xs.length ≤ fuel → (chunksFrom size fuel xs).flatten = xs := by
    intro fuel
    induction fuel with
    | zero =>
      intro xs hxs
      rw [List.length_eq_zero_iff.mp (Nat.le_zero.mp hxs)]
      rfl
    | succ fuel ih =>
      intro xs hxs
      unfold chunksFrom
      cases xs with
      | nil => rfl
      | cons x xs =>
        have hdrop : ((x :: xs).drop size).length ≤ fuel := by
          rw [List.length_drop]
          omega
        rw [List.isEmpty_cons, if_neg (by decide), List.flatten_cons, ih _ hdrop, List.take_append_drop]
  exact hgen xs.length xs (Nat.le_refl _)

end Numerals
