import Mathlib

/-! Cross-filtering: a value of a dimension is offered when some record has it and passes
the selection of every other dimension. Dropping the values that are not offered from one
dimension takes no offered value from another. -/

namespace CrossFilter

variable {δ V : Type*} {records : List (δ → Option V)} {sel : δ → List V} {d e : δ} {v : V}

/-- An empty selection lets everything pass. -/
def Passes (sel : δ → List V) (record : δ → Option V) (d : δ) : Prop :=
  sel d = [] ∨ ∃ v ∈ sel d, record d = some v

def Offered (records : List (δ → Option V)) (sel : δ → List V) (d : δ) (v : V) : Prop :=
  ∃ record ∈ records, record d = some v ∧ ∀ e, e ≠ d → Passes sel record e

/-- Every selected value of the dimension is offered. -/
def Settled (records : List (δ → Option V)) (sel : δ → List V) (d : δ) : Prop :=
  ∀ v ∈ sel d, Offered records sel d v

section
variable [DecidableEq δ] {keep : V → Bool}

/-- The selection without the values of one dimension that are not kept. -/
def prune (sel : δ → List V) (d : δ) (keep : V → Bool) : δ → List V :=
  Function.update sel d ((sel d).filter keep)

theorem prune_of_ne (h : e ≠ d) : prune sel d keep e = sel e := Function.update_of_ne h _ _

theorem prune_self : prune sel d keep d = (sel d).filter keep := Function.update_self ..

theorem prune_sublist : (prune sel d keep e).Sublist (sel e) := by
  by_cases h : e = d
  · subst h
    rw [prune_self]
    exact List.filter_sublist
  · rw [prune_of_ne h]

theorem passes_prune_of_ne {record : δ → Option V} (h : e ≠ d) :
    Passes (prune sel d keep) record e ↔ Passes sel record e := by
  unfold Passes
  rw [prune_of_ne h]

/-- A selection does not restrict the offers of its own dimension. -/
theorem offered_prune_self : Offered records (prune sel d keep) d v ↔ Offered records sel d v := by
  constructor
  all_goals
    rintro ⟨record, hmem, hv, hpasses⟩
    exact ⟨record, hmem, hv, fun e he => by simpa [passes_prune_of_ne he] using hpasses e he⟩

theorem settled_prune_self (hkeep : ∀ v ∈ sel d, keep v = true → Offered records sel d v) :
    Settled records (prune sel d keep) d := by
  intro v hv
  rw [prune_self] at hv
  exact offered_prune_self.mpr (hkeep v (List.mem_filter.mp hv).1 (List.mem_filter.mp hv).2)

/-- The record that offers a value passes the dropped dimension by a value that is offered
there, and so is kept. -/
theorem settled_prune (hkeep : ∀ v ∈ sel d, Offered records sel d v → keep v = true)
    (h : Settled records sel e) (he : e ≠ d) : Settled records (prune sel d keep) e := by
  intro v hv
  rw [prune_of_ne he] at hv
  obtain ⟨record, hmem, hrecord, hpasses⟩ := h v hv
  refine ⟨record, hmem, hrecord, fun f hf => ?_⟩
  by_cases hfd : f = d
  · subst hfd
    rcases hpasses f hf with hempty | ⟨w, hw, hrecordw⟩
    · refine .inl ?_
      rw [prune_self, hempty]
      rfl
    · refine .inr ⟨w, ?_, hrecordw⟩
      rw [prune_self, List.mem_filter]
      refine ⟨hw, hkeep w hw ⟨record, hmem, hrecordw, fun g hg => ?_⟩⟩
      by_cases hge : g = e
      · subst hge
        exact .inr ⟨v, hv, hrecord⟩
      · exact hpasses g hge
  · exact (passes_prune_of_ne hfd).mpr (hpasses f hf)

end

/-- Where every selected value is offered, a record passes everything. -/
theorem exists_passes (hsettled : ∀ d, Settled records sel d) (hne : records ≠ []) :
    ∃ record ∈ records, ∀ d, Passes sel record d := by
  by_cases hall : ∀ d, sel d = []
  · obtain ⟨record, hmem⟩ := List.exists_mem_of_ne_nil records hne
    exact ⟨record, hmem, fun d => .inl (hall d)⟩
  · obtain ⟨d, hd⟩ := not_forall.mp hall
    obtain ⟨v, hv⟩ := List.exists_mem_of_ne_nil _ hd
    obtain ⟨record, hmem, hrecord, hpasses⟩ := hsettled d v hv
    refine ⟨record, hmem, fun e => ?_⟩
    by_cases he : e = d
    · subst he
      exact .inr ⟨v, hv, hrecord⟩
    · exact hpasses e he

end CrossFilter
