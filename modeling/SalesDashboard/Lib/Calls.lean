import SalesDashboard.Lib.Transition

/-! Concurrent calls on one store. The rest of a call is a program of statements: a read
hands the store to what follows, a write changes the store or fails, and a failed write
ends its call. Any call may take its next statement at any time. -/

namespace Calls
open Transition

/-- Statements over stores `σ`: writes `ω` with answers `ι`, results `ρ`. -/
inductive Prog (σ ω ι ρ : Type)
  | done (result : ρ)
  | read (next : σ → Prog σ ω ι ρ)
  | write (w : ω) (next : ι → Prog σ ω ι ρ)

/-- What calls `κ` do: the program of each, and what a write makes of the store. -/
structure System (σ ω ι ρ κ : Type) where
  body : κ → Prog σ ω ι ρ
  write : σ → ω → Option (σ × ι)
  failed : ρ

/-- A call with the answers it was given so far. -/
structure Running (σ ω ι ρ κ : Type) where
  call : κ
  answers : List ι
  rest : Prog σ ω ι ρ

structure State (σ ω ι ρ κ : Type) where
  store : σ
  calls : List (Running σ ω ι ρ κ)

inductive Action (κ : Type)
  | call (c : κ)
  | advance (i : Nat)
  deriving DecidableEq

variable {σ ω ι ρ κ : Type}

def Running.isDone (r : Running σ ω ι ρ κ) : Bool :=
  match r.rest with
  | .done _ => true
  | _ => false

def Running.result (r : Running σ ω ι ρ κ) : Option ρ :=
  match r.rest with
  | .done result => some result
  | _ => none

theorem rest_of_result {r : Running σ ω ι ρ κ} {result : ρ} (h : r.result = some result) :
    r.rest = .done result := by
  obtain ⟨c, as, rest⟩ := r
  cases rest with
  | done result' =>
    cases h
    rfl
  | read next => cases h
  | write w next => cases h

/-- The next statement of a call. -/
def advance (sys : System σ ω ι ρ κ) (s : σ) (r : Running σ ω ι ρ κ) :
    Option (σ × Running σ ω ι ρ κ) :=
  match r.rest with
  | .done _ => none
  | .read next => some (s, { r with rest := next s })
  | .write w next =>
      match sys.write s w with
      | none => some (s, { r with rest := .done sys.failed })
      | some (s', a) => some (s', { r with answers := r.answers ++ [a], rest := next a })

def step (sys : System σ ω ι ρ κ) (st : State σ ω ι ρ κ) : Action κ → Option (State σ ω ι ρ κ)
  | .call c => some { st with calls := st.calls ++ [⟨c, [], sys.body c⟩] }
  | .advance i =>
      match st.calls[i]? with
      | none => none
      | some r => (advance sys st.store r).map fun next =>
          ⟨next.1, st.calls.set i next.2⟩

/-- The write that an action is, when it is one. -/
def writeAt (st : State σ ω ι ρ κ) : Action κ → Option ω
  | .call _ => none
  | .advance i =>
      match st.calls[i]? with
      | some ⟨_, _, .write w _⟩ => some w
      | _ => none

/-- A condition on the store and the write made to it. -/
def AtWrites (ok : σ → ω → Prop) (st : State σ ω ι ρ κ) (a : Action κ) : Prop :=
  ∀ w ∈ writeAt st a, ok st.store w

instance (ok : σ → ω → Prop) [∀ s w, Decidable (ok s w)] (st : State σ ω ι ρ κ) (a : Action κ) :
    Decidable (AtWrites ok st a) :=
  inferInstanceAs (Decidable (∀ w ∈ writeAt st a, ok st.store w))

/-- Everything a step can be. -/
inductive StepCase (sys : System σ ω ι ρ κ) (st st' : State σ ω ι ρ κ) (a : Action κ) : Prop
  | call (c : κ) (ha : a = .call c)
      (h : st' = ⟨st.store, st.calls ++ [⟨c, [], sys.body c⟩]⟩)
  | read (i : Nat) (c : κ) (as : List ι) (next : σ → Prog σ ω ι ρ) (ha : a = .advance i)
      (hi : st.calls[i]? = some ⟨c, as, .read next⟩)
      (h : st' = ⟨st.store, st.calls.set i ⟨c, as, next st.store⟩⟩)
  | fail (i : Nat) (c : κ) (as : List ι) (w : ω) (next : ι → Prog σ ω ι ρ) (ha : a = .advance i)
      (hi : st.calls[i]? = some ⟨c, as, .write w next⟩) (hw : sys.write st.store w = none)
      (h : st' = ⟨st.store, st.calls.set i ⟨c, as, .done sys.failed⟩⟩)
  | write (i : Nat) (c : κ) (as : List ι) (w : ω) (next : ι → Prog σ ω ι ρ) (s' : σ) (x : ι)
      (ha : a = .advance i) (hi : st.calls[i]? = some ⟨c, as, .write w next⟩)
      (hw : sys.write st.store w = some (s', x))
      (h : st' = ⟨s', st.calls.set i ⟨c, as ++ [x], next x⟩⟩)

variable {sys : System σ ω ι ρ κ} {st st' : State σ ω ι ρ κ} {a : Action κ}

theorem step_cases (h : step sys st a = some st') : StepCase sys st st' a := by
  cases a with
  | call c =>
    cases h
    exact .call c rfl rfl
  | advance i =>
    simp only [step] at h
    split at h
    · cases h
    · next r hi =>
      obtain ⟨c, as, rest⟩ := r
      cases rest with
      | done result => cases h
      | read next =>
        cases h
        exact .read i c as next rfl hi rfl
      | write w next =>
        cases hw : sys.write st.store w with
        | none =>
          simp only [advance, hw, Option.map_some, Option.some.injEq] at h
          exact .fail i c as w next rfl hi hw h.symm
        | some sx =>
          simp only [advance, hw, Option.map_some, Option.some.injEq] at h
          exact .write i c as w next sx.1 sx.2 rfl hi hw h.symm

theorem writeAt_of_get {i : Nat} {c : κ} {as : List ι} {w : ω} {next : ι → Prog σ ω ι ρ}
    (hi : st.calls[i]? = some ⟨c, as, .write w next⟩) : writeAt st (.advance i) = some w := by
  simp only [writeAt, hi]

theorem get_set {α : Type} {l : List α} {i j : Nat} {a b : α} (h : (l.set i a)[j]? = some b) :
    j = i ∧ b = a ∨ j ≠ i ∧ l[j]? = some b := by
  by_cases hj : j = i
  · subst hj
    rw [List.getElem?_set_self'] at h
    obtain ⟨c, -, hab⟩ := Option.map_eq_some_iff.mp h
    exact .inl ⟨rfl, hab.symm⟩
  · rw [List.getElem?_set_ne (fun heq => hj heq.symm)] at h
    exact .inr ⟨hj, h⟩

theorem get_concat {α : Type} {l : List α} {j : Nat} {a b : α} (h : (l ++ [a])[j]? = some b) :
    l[j]? = some b ∨ j = l.length ∧ b = a := by
  rw [List.getElem?_append] at h
  split at h
  · exact .inl h
  · rw [List.getElem?_singleton] at h
    split at h
    · cases h
      exact .inr ⟨by omega, rfl⟩
    · cases h

/-- A step leaves the store alone, or is a write. -/
theorem store_of_step (h : step sys st a = some st') :
    st'.store = st.store ∨
      ∃ w x, writeAt st a = some w ∧ sys.write st.store w = some (st'.store, x) := by
  cases step_cases h with
  | call c ha h => exact .inl (h ▸ rfl)
  | read i c as next ha hi h => exact .inl (h ▸ rfl)
  | fail i c as w next ha hi hw h => exact .inl (h ▸ rfl)
  | write i c as w next s' x ha hi hw h =>
    refine .inr ⟨w, x, ?_, ?_⟩
    · rw [ha]
      exact writeAt_of_get hi
    · rw [h]
      exact hw

/-! ## What every program keeps to -/

/-- Every write of the program meets `P`, whatever it reads from stores that meet `J`. -/
def Prog.All (J : σ → Prop) (P : ω → Prop) : Prog σ ω ι ρ → Prop
  | .done _ => True
  | .read next => ∀ s, J s → (next s).All J P
  | .write w next => P w ∧ ∀ x, (next x).All J P

theorem Prog.All.mono {J : σ → Prop} {P Q : ω → Prop} (hpq : ∀ w, P w → Q w) :
    ∀ {p : Prog σ ω ι ρ}, p.All J P → p.All J Q
  | .done _, _ => trivial
  | .read _, h => fun s hs => (h s hs).mono hpq
  | .write _ _, h => ⟨hpq _ h.1, fun x => (h.2 x).mono hpq⟩

/-- What the program comes to first: a result in `D`, or a write with its continuation
in `R`. -/
def Prog.First (D : ρ → Prop) (R : ω → (ι → Prog σ ω ι ρ) → Prop) : Prog σ ω ι ρ → Prop
  | .done r => D r
  | .read next => ∀ s, (next s).First D R
  | .write w next => R w next

/-- An invariant `J` of the store, with the discipline `P` of what each call writes. -/
structure Keeps (J : σ → Prop) (P : κ → ω → Prop) (st : State σ ω ι ρ κ) : Prop where
  store : J st.store
  calls : ∀ r ∈ st.calls, r.rest.All J (P r.call)

theorem Keeps.of_nil {J : σ → Prop} {P : κ → ω → Prop} (hs : J st.store) (hc : st.calls = []) :
    Keeps J P st := by
  refine ⟨hs, fun r hr => ?_⟩
  rw [hc] at hr
  cases hr

theorem Keeps.step {J : σ → Prop} {P : κ → ω → Prop} (ok : σ → ω → Prop)
    (hbody : ∀ c, (sys.body c).All J (P c))
    (hwrite : ∀ s c w s' x, J s → P c w → ok s w → sys.write s w = some (s', x) → J s')
    (hk : Keeps J P st) (hok : AtWrites ok st a) (h : Calls.step sys st a = some st') :
    Keeps J P st' := by
  cases step_cases h with
  | call c ha h =>
    subst h
    refine ⟨hk.store, fun r hr => ?_⟩
    rcases List.mem_append.mp hr with hr | hr
    · exact hk.calls r hr
    · rw [List.mem_singleton.mp hr]
      exact hbody c
  | read i c as next ha hi h =>
    subst h
    refine ⟨hk.store, fun r hr => ?_⟩
    rcases List.mem_or_eq_of_mem_set hr with hr | rfl
    · exact hk.calls r hr
    · exact hk.calls _ (List.mem_of_getElem? hi) _ hk.store
  | fail i c as w next ha hi hw h =>
    subst h
    refine ⟨hk.store, fun r hr => ?_⟩
    rcases List.mem_or_eq_of_mem_set hr with hr | rfl
    · exact hk.calls r hr
    · trivial
  | write i c as w next s' x ha hi hw h =>
    subst h ha
    have hall := hk.calls _ (List.mem_of_getElem? hi)
    refine ⟨hwrite _ c w s' x hk.store hall.1 (hok w (writeAt_of_get hi)) hw, fun r hr => ?_⟩
    rcases List.mem_or_eq_of_mem_set hr with hr | rfl
    · exact hk.calls r hr
    · exact hall.2 x

/-- **Invariants of concurrent calls**: what every write of the discipline keeps, every
run keeps. -/
theorem Keeps.run {J : σ → Prop} {P : κ → ω → Prop} (ok : σ → ω → Prop)
    (hbody : ∀ c, (sys.body c).All J (P c))
    (hwrite : ∀ s c w s' x, J s → P c w → ok s w → sys.write s w = some (s', x) → J s')
    {as : List (Action κ)} (hk : Keeps J P st)
    (h : Run (Calls.step sys) (AtWrites ok) st as st') : Keeps J P st' :=
  h.invariant (fun _ _ _ hk hok hst => hk.step ok hbody hwrite hok hst) hk

end Calls
