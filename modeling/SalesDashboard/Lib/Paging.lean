import Mathlib

/-! Reading a set in pages, in the order of a key. A page is the first `n` records
behind a cursor; what is behind the cursor and not on the page has a larger key than
all of it. -/

namespace Paging

variable {α : Type*}

/-- The records in the order of their key. -/
def ordered (key : α → Nat) (xs : List α) : List α :=
  xs.insertionSort fun x y => key x ≤ key y

/-- The first `n` records whose key is above `last`. -/
def keysetPage (key : α → Nat) (n last : Nat) (xs : List α) : List α :=
  (ordered key (xs.filter fun x => decide (last < key x))).take n

variable {key : α → Nat} {n last : Nat} {xs : List α} {x : α}

@[simp]
theorem mem_ordered : x ∈ ordered key xs ↔ x ∈ xs := List.mem_insertionSort _

@[simp]
theorem length_ordered : (ordered key xs).length = xs.length := List.length_insertionSort _ _

theorem pairwise_ordered : (ordered key xs).Pairwise fun x y => key x ≤ key y := by
  have htotal : Std.Total fun x y : α => key x ≤ key y := ⟨fun x y => Nat.le_total _ _⟩
  have htrans : IsTrans α fun x y => key x ≤ key y := ⟨fun _ _ _ => Nat.le_trans⟩
  exact List.pairwise_insertionSort _ xs

theorem mem_keysetPage (h : x ∈ keysetPage key n last xs) : x ∈ xs ∧ last < key x := by
  have hx := List.mem_of_mem_take h
  rw [mem_ordered, List.mem_filter] at hx
  exact ⟨hx.1, of_decide_eq_true hx.2⟩

/-- A record behind the cursor is on the page, or the page is full and the record comes
after it. -/
theorem keysetPage_complete (hx : x ∈ xs) (hlast : last < key x) :
    x ∈ keysetPage key n last xs ∨
      ((keysetPage key n last xs).length = n ∧ ∀ y ∈ keysetPage key n last xs, key y ≤ key x) := by
  set sorted := ordered key (xs.filter fun x => decide (last < key x)) with hsorted
  have hmem : x ∈ sorted := by
    rw [hsorted, mem_ordered, List.mem_filter]
    exact ⟨hx, decide_eq_true hlast⟩
  have hpair : (sorted.take n ++ sorted.drop n).Pairwise fun x y => key x ≤ key y := by
    rw [List.take_append_drop]
    exact pairwise_ordered
  rw [← List.take_append_drop n sorted, List.mem_append] at hmem
  rcases hmem with htake | hdrop
  · exact .inl htake
  · refine .inr ⟨?_, fun y hy => (List.pairwise_append.mp hpair).2.2 y hy x hdrop⟩
    have hlong : n < sorted.length := by
      by_contra hle
      rw [List.drop_eq_nil_of_le (Nat.le_of_not_lt hle)] at hdrop
      cases hdrop
    show (sorted.take n).length = n
    rw [List.length_take]
    omega

/-- A page that is not full is the last one. -/
theorem keysetPage_short (h : (keysetPage key n last xs).length < n) (hx : x ∈ xs)
    (hlast : last < key x) : x ∈ keysetPage key n last xs :=
  (keysetPage_complete hx hlast).resolve_right fun hfull => by omega

/-- Up to the key at which a page ends, nothing is left out. -/
theorem keysetPage_upTo {z : α} (hz : (keysetPage key n last xs).getLast? = some z)
    (hkeys : ∀ x ∈ xs, ∀ y ∈ xs, key x = key y → x = y) (hx : x ∈ xs) (hlast : last < key x)
    (hle : key x ≤ key z) : x ∈ keysetPage key n last xs := by
  have hmem := List.mem_of_getLast? hz
  rcases keysetPage_complete hx hlast with h | ⟨-, hafter⟩
  · exact h
  · have heq := hkeys x hx z (mem_keysetPage hmem).1 (Nat.le_antisymm hle (hafter z hmem))
    exact heq ▸ hmem

/-! ## Pages by offset -/

/-- How many keys come before `k`. -/
def rank (key : α → Nat) (xs : List α) (k : Nat) : Nat := xs.countP fun y => decide (key y < k)

/-- The `n` records from the position `offset` on. -/
def offsetPage (key : α → Nat) (n offset : Nat) (xs : List α) : List α := ((ordered key xs).drop offset).take n

theorem length_offsetPage {offset : Nat} : (offsetPage key n offset xs).length = min n (xs.length - offset) := by
  rw [offsetPage, List.length_take, List.length_drop, length_ordered]

theorem rank_eq_card (hn : (xs.map key).Nodup) (k : Nat) :
    rank key xs k = ((xs.map key).toFinset.filter fun j => j < k).card := by
  have hfin : ((xs.map key).toFinset.filter fun j => j < k) = ((xs.map key).filter fun j => decide (j < k)).toFinset := by
    ext j
    simp
  rw [rank, hfin, List.toFinset_card_of_nodup (hn.filter _), List.filter_map, List.length_map,
    List.countP_eq_length_filter]
  rfl

theorem rank_lt_length (hx : x ∈ xs) : rank key xs (key x) < xs.length := by
  refine lt_of_le_of_ne List.countP_le_length fun heq => ?_
  have hall := List.countP_eq_length.mp heq x hx
  simp at hall

/-- A record is at the position of its rank. -/
theorem rank_getElem (hn : (xs.map key).Nodup) {i : Nat} (hi : i < (ordered key xs).length) :
    rank key xs (key (ordered key xs)[i]) = i := by
  have hperm : (ordered key xs).Perm xs := List.perm_insertionSort _ xs
  have hdistinct : (ordered key xs).Pairwise fun x y => key x ≠ key y :=
    List.pairwise_map.mp ((hperm.map key).nodup_iff.mpr hn)
  have hstrict : (ordered key xs).Pairwise fun x y => key x < key y :=
    (pairwise_ordered.and hdistinct).imp fun h => lt_of_le_of_ne h.1 h.2
  have hmono : ∀ j (hj : j < (ordered key xs).length), key (ordered key xs)[j] < key (ordered key xs)[i] ↔ j < i := by
    intro j hj
    rcases Nat.lt_trichotomy j i with hlt | rfl | hlt
    · exact iff_of_true (List.pairwise_iff_getElem.mp hstrict j i hj hi hlt) hlt
    · exact iff_of_false (lt_irrefl _) (lt_irrefl _)
    · have := List.pairwise_iff_getElem.mp hstrict i j hi hj hlt
      omega
  generalize key (ordered key xs)[i] = k at hmono ⊢
  have hsplit : rank key xs k = ((ordered key xs).take i).countP (fun y => decide (key y < k)) +
      ((ordered key xs).drop i).countP fun y => decide (key y < k) := by
    rw [rank, ← hperm.countP_eq, ← List.countP_append, List.take_append_drop]
  have hlow : ((ordered key xs).take i).countP (fun y => decide (key y < k)) = i := by
    rw [List.countP_eq_length.mpr, List.length_take, Nat.min_eq_left hi.le]
    intro y hy
    obtain ⟨j, hj, rfl⟩ := List.getElem_of_mem hy
    rw [List.length_take] at hj
    rw [List.getElem_take]
    exact decide_eq_true ((hmono j (by omega)).mpr (by omega))
  have hhigh : ((ordered key xs).drop i).countP (fun y => decide (key y < k)) = 0 := by
    rw [List.countP_eq_zero]
    intro y hy
    obtain ⟨j, hj, rfl⟩ := List.getElem_of_mem hy
    rw [List.length_drop] at hj
    rw [List.getElem_drop]
    have := hmono (i + j) (by omega)
    simp only [decide_eq_true_eq]
    omega
  omega

theorem mem_offsetPage (hn : (xs.map key).Nodup) {offset : Nat} :
    x ∈ offsetPage key n offset xs ↔
      x ∈ xs ∧ offset ≤ rank key xs (key x) ∧ rank key xs (key x) < offset + n := by
  constructor
  · intro h
    obtain ⟨j, hj, rfl⟩ := List.getElem_of_mem h
    simp only [offsetPage, List.length_take, List.length_drop] at hj
    simp only [offsetPage, List.getElem_take, List.getElem_drop]
    have hi : offset + j < (ordered key xs).length := by omega
    rw [rank_getElem hn hi]
    exact ⟨mem_ordered.mp (List.getElem_mem hi), by omega, by omega⟩
  · rintro ⟨hx, hlow, hhigh⟩
    have hmem : x ∈ ordered key xs := mem_ordered.mpr hx
    obtain ⟨i, hi, rfl⟩ := List.getElem_of_mem hmem
    rw [rank_getElem hn hi] at hlow hhigh
    refine List.mem_iff_getElem.mpr ⟨i - offset, ?_, ?_⟩
    · simp only [offsetPage, List.length_take, List.length_drop]
      omega
    · simp only [offsetPage, List.getElem_take, List.getElem_drop]
      congr 1
      omega

/-- Nothing comes behind a page that is not full. -/
theorem rank_of_short {offset : Nat} (h : (offsetPage key n offset xs).length < n) (hx : x ∈ xs) :
    rank key xs (key x) < offset + n := by
  have hlt : rank key xs (key x) < xs.length := rank_lt_length hx
  simp only [offsetPage, List.length_take, List.length_drop, length_ordered] at h
  omega

/-- When no key but `gone` leaves, a record that is before the offset was before it, unless
`gone` was. -/
theorem rank_before (gone : Nat) {ys : List α} {offset : Nat} (hn : (xs.map key).Nodup) (hn' : (ys.map key).Nodup)
    (hkept : ∀ z ∈ xs, key z ≠ gone → ∃ y ∈ ys, key y = key z)
    (hgone : (∃ z ∈ xs, key z = gone ∧ rank key xs gone < offset) → ∃ y ∈ ys, key y = gone)
    (hlt : rank key ys (key x) < offset) : rank key xs (key x) < offset := by
  rw [rank_eq_card hn'] at hlt
  rw [rank_eq_card hn] at hgone ⊢
  by_contra hge
  have hback : (∃ z ∈ xs, key z = gone ∧ key z < key x) → ∃ y ∈ ys, key y = gone := by
    rintro ⟨z, hz, hzg, hzx⟩
    by_contra hnone
    -- `gone` is itself before the offset: removing it takes one key away.
    have hsub : ((xs.map key).toFinset.filter fun j => j < key x).erase gone ⊆
        (ys.map key).toFinset.filter fun j => j < key x := by
      intro j hj
      simp only [Finset.mem_erase, Finset.mem_filter, List.mem_toFinset, List.mem_map] at hj ⊢
      obtain ⟨hne, ⟨w, hw, rfl⟩, hlt⟩ := hj
      obtain ⟨y, hy, hkey⟩ := hkept w hw hne
      exact ⟨⟨y, hy, hkey⟩, hlt⟩
    have hmem : gone ∈ (xs.map key).toFinset.filter fun j => j < key x := by
      simp only [Finset.mem_filter, List.mem_toFinset, List.mem_map]
      exact ⟨⟨z, hz, hzg⟩, hzg ▸ hzx⟩
    have hcard := Finset.card_le_card hsub
    rw [Finset.card_erase_of_mem hmem] at hcard
    have hless : ((xs.map key).toFinset.filter fun j => j < gone).card <
        ((xs.map key).toFinset.filter fun j => j < key x).card := by
      refine Finset.card_lt_card (Finset.ssubset_iff_of_subset ?_ |>.mpr ⟨gone, hmem, by simp⟩)
      intro j hj
      simp only [Finset.mem_filter] at hj ⊢
      exact ⟨hj.1, hj.2.trans (hzg ▸ hzx)⟩
    exact hnone (hgone ⟨z, hz, hzg, by omega⟩)
  have hsub : ((xs.map key).toFinset.filter fun j => j < key x) ⊆
      (ys.map key).toFinset.filter fun j => j < key x := by
    intro j hj
    simp only [Finset.mem_filter, List.mem_toFinset, List.mem_map] at hj ⊢
    obtain ⟨⟨w, hw, rfl⟩, hlt⟩ := hj
    by_cases hg : key w = gone
    · obtain ⟨y, hy, hkey⟩ := hback ⟨w, hw, hg, hlt⟩
      exact ⟨⟨y, hy, hkey.trans hg.symm⟩, hlt⟩
    · obtain ⟨y, hy, hkey⟩ := hkept w hw hg
      exact ⟨⟨y, hy, hkey⟩, hlt⟩
  have hcard := Finset.card_le_card hsub
  omega

end Paging
