import Mathlib

/-! Lists in which everything an entry needs stands before it. -/

namespace Topological

variable {α : Type*} {needs : α → List α} {xs : List α} {x d : α}

def InOrder (needs : α → List α) (xs : List α) : Prop :=
  ∀ pre x post, xs = pre ++ x :: post → ∀ d ∈ needs x, d ∈ pre

theorem inOrder_nil : InOrder needs [] := by
  intro pre x post h
  simp at h

theorem InOrder.concat (h : InOrder needs xs) (hx : ∀ d ∈ needs x, d ∈ xs) :
    InOrder needs (xs ++ [x]) := by
  intro pre y post heq d hd
  rcases List.eq_nil_or_concat post with rfl | ⟨post, z, rfl⟩
  · obtain ⟨rfl, hyx⟩ := List.append_inj' heq rfl
    cases hyx
    exact hx d hd
  · have hsplit : xs ++ [x] = (pre ++ y :: post) ++ [z] := by simpa using heq
    obtain ⟨rfl, -⟩ := List.append_inj' hsplit rfl
    exact h pre y post rfl d hd

/-- What an entry needs has a smaller position than the entry. -/
theorem InOrder.idxOf_lt [DecidableEq α] (h : InOrder needs xs) (hx : x ∈ xs) (hd : d ∈ needs x) :
    xs.idxOf d < xs.idxOf x := by
  obtain ⟨pre, post, heq, hnot⟩ := List.eq_append_cons_of_mem hx
  have hmem : d ∈ pre := h pre x post heq d hd
  subst heq
  rw [List.idxOf_append_of_mem hmem, List.idxOf_append_of_notMem hnot]
  have := List.idxOf_lt_length_of_mem hmem
  omega

theorem InOrder.mem (h : InOrder needs xs) (hx : x ∈ xs) (hd : d ∈ needs x) : d ∈ xs := by
  obtain ⟨pre, post, rfl⟩ := List.append_of_mem hx
  exact List.mem_append_left _ (h pre x post rfl d hd)

/-! ## Cycles -/

/-- What an entry needs, what that needs, and so on. -/
def NeedsAll (needs : α → List α) : α → α → Prop := Relation.TransGen fun a d => d ∈ needs a

def Cyclic (needs : α → List α) : Prop := ∃ x, NeedsAll needs x x

theorem InOrder.idxOf_lt_of_needsAll [DecidableEq α] (h : InOrder needs xs) (hx : x ∈ xs)
    (hd : NeedsAll needs x d) : d ∈ xs ∧ xs.idxOf d < xs.idxOf x := by
  induction hd with
  | single hd => exact ⟨h.mem hx hd, h.idxOf_lt hx hd⟩
  | tail _ hd ih =>
    obtain ⟨hmem, hlt⟩ := ih
    exact ⟨h.mem hmem hd, (h.idxOf_lt hmem hd).trans hlt⟩

theorem InOrder.not_needsAll (h : InOrder needs xs) (hx : x ∈ xs) : ¬ NeedsAll needs x x := by
  classical
  intro hself
  exact (h.idxOf_lt_of_needsAll hx hself).2.false

/-- Among finitely many entries that all need one of them there is a cycle. -/
theorem cyclic_of_needs (hx : x ∈ xs) (h : ∀ a ∈ xs, ∃ d ∈ needs a, d ∈ xs) : Cyclic needs := by
  by_contra hcyclic
  let below : {a // a ∈ xs} → {a // a ∈ xs} → Prop := fun d a => NeedsAll needs a.1 d.1
  have htrans : IsTrans _ below := ⟨fun _ _ _ hab hbc => Relation.TransGen.trans hbc hab⟩
  have hirrefl : Std.Irrefl below := ⟨fun a ha => hcyclic ⟨a.1, ha⟩⟩
  have hfinite : Finite {a // a ∈ xs} := List.finite_toSet xs
  have hwf : WellFounded below := Finite.wellFounded_of_trans_of_irrefl below
  obtain ⟨d, hd, hmem⟩ := h _ (hwf.min Set.univ ⟨⟨x, hx⟩, trivial⟩).2
  exact hwf.not_lt_min Set.univ (x := ⟨d, hmem⟩) trivial (.single hd)

/-! ## The first of several orders -/

/-- Each entry is the first, by its position, of those that could stand in its place. -/
def Greedy (needs : α → List α) (members : List α) (position : α → ℕ) (xs : List α) : Prop :=
  ∀ pre x post, xs = pre ++ x :: post → ∀ c ∈ members, c ∉ pre → (∀ d ∈ needs c, d ∈ pre) →
    position x ≤ position c

variable {members : List α} {position : α → ℕ}

theorem greedy_nil : Greedy needs members position [] := by
  intro pre x post h
  simp at h

theorem Greedy.concat (h : Greedy needs members position xs)
    (hx : ∀ c ∈ members, c ∉ xs → (∀ d ∈ needs c, d ∈ xs) → position x ≤ position c) :
    Greedy needs members position (xs ++ [x]) := by
  intro pre y post heq
  rcases List.eq_nil_or_concat post with rfl | ⟨post, z, rfl⟩
  · obtain ⟨rfl, hyx⟩ := List.append_inj' heq rfl
    cases hyx
    exact hx
  · have hsplit : xs ++ [x] = (pre ++ y :: post) ++ [z] := by simpa using heq
    obtain ⟨rfl, -⟩ := List.append_inj' hsplit rfl
    exact h pre y post rfl

/-- **No order of the members comes before the greedy one** when their positions are
compared lexicographically. -/
theorem Greedy.not_lex {ys : List α} (h : Greedy needs members position xs) (hys : InOrder needs ys)
    (hnodup : ys.Nodup) (hperm : xs.Perm ys) (hmem : ∀ y ∈ ys, y ∈ members)
    (hposition : ∀ a ∈ members, ∀ b ∈ members, position a = position b → a = b) :
    ¬ List.Lex (· < ·) (ys.map position) (xs.map position) := by
  have hsuffix : ∀ (suf pre post : List α), xs = pre ++ suf → ys = pre ++ post →
      ¬ List.Lex (· < ·) (post.map position) (suf.map position) := by
    intro suf
    induction suf with
    | nil =>
      intro pre post _ _ hlex
      exact List.not_lex_nil hlex
    | cons a suf ih =>
      intro pre post hxs hpost hlex
      cases post with
      | nil =>
        have hlen := hperm.length_eq
        rw [hxs, hpost] at hlen
        simp at hlen
      | cons c post =>
        have hc : c ∈ ys := by rw [hpost]; simp
        have ha : a ∈ ys := hperm.subset (by rw [hxs]; simp)
        have hnot : c ∉ pre := by
          rw [hpost, List.nodup_append] at hnodup
          exact fun hcpre => hnodup.2.2 c hcpre c List.mem_cons_self rfl
        have hle : position a ≤ position c :=
          h pre a suf hxs c (hmem c hc) hnot (hys pre c post hpost)
        rw [List.map_cons, List.map_cons, List.cons_lex_cons_iff] at hlex
        rcases hlex with hlt | ⟨heq, hrest⟩
        · omega
        · have hac : c = a := hposition c (hmem c hc) a (hmem a ha) heq
          subst hac
          exact ih (pre ++ [c]) post (by simpa using hxs) (by simpa using hpost) hrest
  exact hsuffix xs [] ys rfl rfl

end Topological
