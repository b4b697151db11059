import Mathlib

/-! Versions of keyed values, written batch by batch. A batch states values for
some keys. A version is stored only where the statement differs from the open
version of the key, and closes that version. The chain invariant says which
version speaks for which batch; appending a batch keeps it, and so does dropping
one whose closed versions no later batch relies on. -/

namespace VersionChain
open Relation

variable {K V : Type*}

/-- One stored version. `next` is the batch that closed it; an open version has
none. -/
structure Version (K V : Type*) where
  id : Nat
  key : K
  batch : Nat
  next : Option Nat
  val : V

/-- `stated b k = some v`: the live batch `b` states the value `v` for `k`. -/
abbrev Stated (K V : Type*) := Nat → K → Option V

/-- The chain invariant. `covers` is its heart: the newest version at or before a
batch carries what the batch states, whoever wrote it. -/
structure Chained (rows : Set (Version K V)) (stated : Stated K V) : Prop where
  owned : ∀ r ∈ rows, stated r.batch r.key = some r.val
  unique : ∀ r ∈ rows, ∀ r' ∈ rows, r.key = r'.key → r.batch = r'.batch → r = r'
  last : ∀ r ∈ rows, r.next = none → ∀ r' ∈ rows, r'.key = r.key → r'.batch ≤ r.batch
  link : ∀ r ∈ rows, ∀ s, r.next = some s →
    r.batch < s ∧ (∃ r' ∈ rows, r'.key = r.key ∧ r'.batch = s) ∧
      ∀ r' ∈ rows, r'.key = r.key → r'.batch ≤ r.batch ∨ s ≤ r'.batch
  covers : ∀ b k v, stated b k = some v →
    ∃ r ∈ rows, r.key = k ∧ r.val = v ∧ r.batch ≤ b ∧
      ∀ r' ∈ rows, r'.key = k → r'.batch ≤ b → r'.batch ≤ r.batch

/-- The part of the invariant that does not speak of what the batches state. -/
structure Linked (rows : Set (Version K V)) : Prop where
  unique : ∀ r ∈ rows, ∀ r' ∈ rows, r.key = r'.key → r.batch = r'.batch → r = r'
  last : ∀ r ∈ rows, r.next = none → ∀ r' ∈ rows, r'.key = r.key → r'.batch ≤ r.batch
  link : ∀ r ∈ rows, ∀ s, r.next = some s →
    r.batch < s ∧ (∃ r' ∈ rows, r'.key = r.key ∧ r'.batch = s) ∧
      ∀ r' ∈ rows, r'.key = r.key → r'.batch ≤ r.batch ∨ s ≤ r'.batch

theorem Chained.linked {rows : Set (Version K V)} {stated : Stated K V}
    (hc : Chained rows stated) : Linked rows :=
  ⟨hc.unique, hc.last, hc.link⟩

section
variable {rows : Set (Version K V)} {stated : Stated K V}

/-! ## The open version -/

/-- The open version of a key carries what the latest batch that states the key
states. -/
theorem Chained.open_val (hc : Chained rows stated) {r : Version K V} (hr : r ∈ rows)
    (hopen : r.next = none) {b : Nat} {v : V} (hb : stated b r.key = some v)
    (hlatest : ∀ b' v', stated b' r.key = some v' → b' ≤ b) : r.val = v := by
  obtain ⟨r', hr', hk, hv, _, hmax⟩ := hc.covers b r.key v hb
  have hle : r.batch ≤ r'.batch := hmax r hr rfl (hlatest _ _ (hc.owned r hr))
  have hge : r'.batch ≤ r.batch := hc.last r hr hopen r' hr' hk
  have heq : r = r' := hc.unique r hr r' hr' hk.symm (by omega)
  rw [heq, hv]

/-- A key that some batch states last has an open version. -/
theorem Chained.exists_open (hc : Chained rows stated) {b : Nat} {k : K} {v : V}
    (hb : stated b k = some v) (hlatest : ∀ b' v', stated b' k = some v' → b' ≤ b) :
    ∃ r ∈ rows, r.key = k ∧ r.next = none := by
  obtain ⟨r, hr, hk, _, _, hmax⟩ := hc.covers b k v hb
  refine ⟨r, hr, hk, ?_⟩
  cases hnext : r.next with
  | none => rfl
  | some s =>
    obtain ⟨hlt, ⟨r', hr', hk', hs⟩, _⟩ := hc.link r hr s hnext
    have hstated := hc.owned r' hr'
    rw [hk', hk, hs] at hstated
    have hle := hmax r' hr' (hk'.trans hk) (by rw [hs]; exact hlatest _ _ hstated)
    omega

/-- A later batch restates the open version if and only if it left the version
as it is. -/
theorem Chained.val_of_open_le (hc : Chained rows stated) {r : Version K V} (hr : r ∈ rows)
    (hopen : r.next = none) {b : Nat} {v : V} (hb : stated b r.key = some v)
    (hle : r.batch ≤ b) : r.val = v := by
  obtain ⟨r', hr', hk, hv, _, hmax⟩ := hc.covers b r.key v hb
  have h₁ : r.batch ≤ r'.batch := hmax r hr rfl hle
  have h₂ : r'.batch ≤ r.batch := hc.last r hr hopen r' hr' hk
  have heq : r = r' := hc.unique r hr r' hr' hk.symm (by omega)
  rw [heq, hv]

/-! ## Following the links -/

/-- `r'` is the version that closed `r`. -/
def ClosedBy (rows : Set (Version K V)) (r r' : Version K V) : Prop :=
  r' ∈ rows ∧ r'.key = r.key ∧ r.next = some r'.batch

/-- From any version the links lead to the open version of its key. -/
theorem Linked.reaches_open (hc : Linked rows) {b : Nat} (hb : ∀ r ∈ rows, r.batch < b)
    {r : Version K V} (hr : r ∈ rows) :
    ∃ c ∈ rows, c.key = r.key ∧ c.next = none ∧ ReflTransGen (ClosedBy rows) r c := by
  induction hn : b - r.batch using Nat.strong_induction_on generalizing r with
  | _ n ih =>
    cases hnext : r.next with
    | none => exact ⟨r, hr, rfl, hnext, .refl⟩
    | some s =>
      obtain ⟨hlt, ⟨r', hr', hk, hs⟩, -⟩ := hc.link r hr s hnext
      have := hb r' hr'
      obtain ⟨c, hc', hck, hopen, hreach⟩ := ih (b - r'.batch) (by omega) hr' rfl
      exact ⟨c, hc', hck.trans hk, hopen, .head ⟨hr', hk, by rw [hnext, hs]⟩ hreach⟩

theorem Linked.closedBy_unique (hc : Linked rows) : Relator.RightUnique (ClosedBy rows) := by
  rintro r r₁ r₂ ⟨h₁, hk₁, hn₁⟩ ⟨h₂, hk₂, hn₂⟩
  exact hc.unique r₁ h₁ r₂ h₂ (hk₁.trans hk₂.symm) (Option.some.inj (hn₁.symm.trans hn₂))

/-- Wherever the links lead, they go on to the open version. -/
theorem Linked.goes_on (hc : Linked rows) {r r' c : Version K V} (hopen : c.next = none)
    (h : ReflTransGen (ClosedBy rows) r c) (h' : ReflTransGen (ClosedBy rows) r r') :
    ReflTransGen (ClosedBy rows) r' c := by
  rcases ReflTransGen.total_of_right_unique hc.closedBy_unique h h' with hcr | hrc
  · rcases ReflTransGen.cases_head hcr with rfl | ⟨d, ⟨-, -, hd⟩, -⟩
    · exact .refl
    · rw [hopen] at hd
      cases hd
  · exact hrc

/-! ## Appending a batch -/

/-- The versions a new batch writes: one for each key whose open version does not
already carry the stated value. -/
structure Fresh (rows : Set (Version K V)) (b : Nat) (file : K → Option V)
    (fresh : Set (Version K V)) : Prop where
  batch : ∀ n ∈ fresh, n.batch = b
  isOpen : ∀ n ∈ fresh, n.next = none
  stated : ∀ n ∈ fresh, file n.key = some n.val
  unique : ∀ n ∈ fresh, ∀ n' ∈ fresh, n.key = n'.key → n = n'
  covers : ∀ k v, file k = some v →
    (∃ n ∈ fresh, n.key = k) ∨ ∃ r ∈ rows, r.key = k ∧ r.next = none ∧ r.val = v

/-- The fresh versions alone: open ones of one batch, at most one for each key. -/
structure Opens (b : Nat) (fresh : Set (Version K V)) : Prop where
  batch : ∀ n ∈ fresh, n.batch = b
  isOpen : ∀ n ∈ fresh, n.next = none
  unique : ∀ n ∈ fresh, ∀ n' ∈ fresh, n.key = n'.key → n = n'

theorem Fresh.opens {b : Nat} {file : K → Option V} {fresh : Set (Version K V)}
    (hf : Fresh rows b file fresh) : Opens b fresh :=
  ⟨hf.batch, hf.isOpen, hf.unique⟩

open Classical in
/-- The fresh version of a key closes the open one. -/
noncomputable def close (b : Nat) (fresh : Set (Version K V)) (r : Version K V) : Version K V :=
  if r.next = none ∧ ∃ n ∈ fresh, n.key = r.key then { r with next := some b } else r

noncomputable def append (b : Nat) (fresh rows : Set (Version K V)) : Set (Version K V) :=
  close b fresh '' rows ∪ fresh

@[simp] theorem close_key (b : Nat) (fresh : Set (Version K V)) (r : Version K V) :
    (close b fresh r).key = r.key := by unfold close; split <;> rfl

@[simp] theorem close_batch (b : Nat) (fresh : Set (Version K V)) (r : Version K V) :
    (close b fresh r).batch = r.batch := by unfold close; split <;> rfl

@[simp] theorem close_val (b : Nat) (fresh : Set (Version K V)) (r : Version K V) :
    (close b fresh r).val = r.val := by unfold close; split <;> rfl

theorem close_eq_none {b : Nat} {fresh : Set (Version K V)} {r : Version K V}
    (h : (close b fresh r).next = none) : r.next = none ∧ ∀ n ∈ fresh, n.key ≠ r.key := by
  unfold close at h
  split at h
  · cases h
  · next hn => exact ⟨h, fun n hn' hk => hn ⟨h, n, hn', hk⟩⟩

theorem close_eq_some {b s : Nat} {fresh : Set (Version K V)} {r : Version K V}
    (h : (close b fresh r).next = some s) :
    r.next = some s ∨ (r.next = none ∧ s = b ∧ ∃ n ∈ fresh, n.key = r.key) := by
  unfold close at h
  split at h
  · next hn =>
    cases h
    exact .inr ⟨hn.1, rfl, hn.2⟩
  · exact .inl h

theorem mem_append_of_mem {b : Nat} {fresh : Set (Version K V)} {r : Version K V}
    (hr : r ∈ rows) : close b fresh r ∈ append b fresh rows :=
  .inl ⟨r, hr, rfl⟩

/-- **Appending a batch keeps the links**, as long as it is newer than every
version. -/
theorem Linked.append (hc : Linked rows) {b : Nat} {fresh : Set (Version K V)}
    (hf : Opens b fresh) (hlt : ∀ r ∈ rows, r.batch < b) : Linked (append b fresh rows) := by
  constructor
  · rintro _ (⟨r, hr, rfl⟩ | hn) _ (⟨r', hr', rfl⟩ | hn') hk hb
    · rw [hc.unique r hr r' hr' (by simpa using hk) (by simpa using hb)]
    · have h₁ := hlt r hr
      have h₂ := hf.batch _ hn'
      simp only [close_batch] at hb
      omega
    · have h₁ := hlt r' hr'
      have h₂ := hf.batch _ hn
      simp only [close_batch] at hb
      omega
    · exact hf.unique _ hn _ hn' hk
  · rintro _ (⟨r, hr, rfl⟩ | hn) hopen _ (⟨r', hr', rfl⟩ | hn') hk
    · simpa using hc.last r hr (close_eq_none hopen).1 r' hr' (by simpa using hk)
    · exact absurd (by simpa using hk) ((close_eq_none hopen).2 _ hn')
    · have h₁ := hlt r' hr'
      rw [close_batch, hf.batch _ hn]
      omega
    · rw [hf.batch _ hn, hf.batch _ hn']
  · rintro _ (⟨r, hr, rfl⟩ | hn) s hs
    · rcases close_eq_some hs with hs | ⟨hopen, rfl, n, hn, hnk⟩
      · obtain ⟨h₁, ⟨r', hr', hk', hb'⟩, h₃⟩ := hc.link r hr s hs
        refine ⟨by simpa using h₁, ⟨_, mem_append_of_mem hr', by simpa using hk', by simpa using hb'⟩, ?_⟩
        rintro _ (⟨r'', hr'', rfl⟩ | hn'') hk''
        · simpa using h₃ r'' hr'' (by simpa using hk'')
        · have := hlt r' hr'
          rw [hf.batch _ hn'']
          omega
      · refine ⟨by simpa using hlt r hr, ⟨n, .inr hn, by simpa using hnk, hf.batch n hn⟩, ?_⟩
        rintro _ (⟨r'', hr'', rfl⟩ | hn'') hk''
        · exact .inl (by simpa using hc.last r hr hopen r'' hr'' (by simpa using hk''))
        · exact .inr (by rw [hf.batch _ hn''])
    · rw [hf.isOpen _ hn] at hs
      cases hs

/-- **Appending a batch keeps the chain**, whatever the batch states, as long as
it is newer than every live one. -/
theorem Chained.append (hc : Chained rows stated) {b : Nat} {file : K → Option V}
    {fresh : Set (Version K V)} (hf : Fresh rows b file fresh)
    (hnew : ∀ b' k v, stated b' k = some v → b' < b) :
    Chained (append b fresh rows) (Function.update stated b file) := by
  have hlt : ∀ r ∈ rows, r.batch < b := fun r hr => hnew _ _ _ (hc.owned r hr)
  have hlinked := hc.linked.append hf.opens hlt
  refine ⟨?_, hlinked.unique, hlinked.last, hlinked.link, ?_⟩
  · rintro _ (⟨r, hr, rfl⟩ | hn)
    · have := hlt r hr
      simpa [Function.update_of_ne (by omega : r.batch ≠ b)] using hc.owned r hr
    · rename_i n
      rw [hf.batch n hn, Function.update_self]
      exact hf.stated n hn
  · intro b' k v hstated
    by_cases hb' : b' = b
    · subst hb'
      rw [Function.update_self] at hstated
      by_cases hex : ∃ n ∈ fresh, n.key = k
      · obtain ⟨n, hn, rfl⟩ := hex
        have hv := hf.stated n hn
        rw [hstated] at hv
        cases hv
        refine ⟨n, .inr hn, rfl, rfl, by rw [hf.batch n hn], ?_⟩
        intro _ _ _ hle
        rwa [hf.batch n hn]
      · obtain ⟨r, hr, rfl, hopen, hv⟩ := (hf.covers k v hstated).resolve_left hex
        refine ⟨_, mem_append_of_mem hr, by simp, by simpa using hv,
          by simpa using (hlt r hr).le, ?_⟩
        rintro _ (⟨r', hr', rfl⟩ | hn') hk' _
        · simpa using hc.last r hr hopen r' hr' (by simpa using hk')
        · exact absurd ⟨_, hn', hk'⟩ hex
    · rw [Function.update_of_ne hb'] at hstated
      obtain ⟨r, hr, hk, hv, hle, hmax⟩ := hc.covers b' k v hstated
      refine ⟨_, mem_append_of_mem hr, by simpa using hk, by simpa using hv,
        by simpa using hle, ?_⟩
      rintro _ (⟨r', hr', rfl⟩ | hn') hk' hle'
      · simpa using hmax r' hr' (by simpa using hk') (by simpa using hle')
      · have h₁ := hf.batch _ hn'
        have h₂ := hnew _ _ _ hstated
        omega

/-! ## Dropping a batch -/

/-- What happens to a version when batch `B` is dropped. An open version of `B`
goes to the batch `handedTo` names, if any; a closed one is deleted; a version
that `B` closed is closed by `succ` instead, or open again. -/
def fate (B : Nat) (handedTo succ : K → Option Nat) (r : Version K V) : Option (Version K V) :=
  if r.batch = B then
    if r.next = none then (handedTo r.key).map fun L => { r with batch := L } else none
  else if r.next = some B then some { r with next := succ r.key }
  else some r

def drop (B : Nat) (handedTo succ : K → Option Nat) (rows : Set (Version K V)) :
    Set (Version K V) :=
  { r' | ∃ r ∈ rows, fate B handedTo succ r = some r' }

/-- The open versions of `B` are handed to the earliest later batch that restates
them, and what `B` closed follows the version of `B`. -/
structure Handover (rows : Set (Version K V)) (stated : Stated K V) (B : Nat)
    (handedTo succ : K → Option Nat) : Prop where
  handed : ∀ o ∈ rows, o.batch = B → o.next = none → ∀ L, handedTo o.key = some L →
    B < L ∧ (∃ v, stated L o.key = some v) ∧
      ∀ L' v, B < L' → stated L' o.key = some v → L ≤ L'
  kept : ∀ o ∈ rows, o.batch = B → o.next = none → handedTo o.key = none →
    ∀ L v, B < L → stated L o.key ≠ some v
  follows : ∀ o ∈ rows, o.batch = B →
    succ o.key = if o.next = none then handedTo o.key else o.next

/-- The handover alone: an open version goes to a later batch. -/
structure Reassigned (rows : Set (Version K V)) (B : Nat) (handedTo succ : K → Option Nat) :
    Prop where
  later : ∀ o ∈ rows, o.batch = B → o.next = none → ∀ L, handedTo o.key = some L → B < L
  follows : ∀ o ∈ rows, o.batch = B →
    succ o.key = if o.next = none then handedTo o.key else o.next

theorem Handover.reassigned {B : Nat} {handedTo succ : K → Option Nat}
    (hh : Handover rows stated B handedTo succ) : Reassigned rows B handedTo succ :=
  ⟨fun o ho hb hn L hL => (hh.handed o ho hb hn L hL).1, hh.follows⟩

/-- The three ways in which a version outlives batch `B`. -/
theorem fate_cases {B : Nat} {handedTo succ : K → Option Nat} {r r' : Version K V}
    (h : fate B handedTo succ r = some r') :
    (∃ L, r.batch = B ∧ r.next = none ∧ handedTo r.key = some L ∧ r' = { r with batch := L }) ∨
    (r.batch ≠ B ∧ r.next = some B ∧ r' = { r with next := succ r.key }) ∨
    (r.batch ≠ B ∧ r.next ≠ some B ∧ r' = r) := by
  unfold fate at h
  split at h
  · next hb =>
    split at h
    · next hn =>
      obtain ⟨L, hL, rfl⟩ := Option.map_eq_some_iff.mp h
      exact .inl ⟨L, hb, hn, hL, rfl⟩
    · cases h
  · next hb =>
    split at h
    · next hn =>
      cases h
      exact .inr (.inl ⟨hb, hn, rfl⟩)
    · next hn =>
      cases h
      exact .inr (.inr ⟨hb, hn, rfl⟩)

theorem mem_drop_handed {B L : Nat} {handedTo succ : K → Option Nat} {r : Version K V}
    (hr : r ∈ rows) (hb : r.batch = B) (hn : r.next = none) (hL : handedTo r.key = some L) :
    { r with batch := L } ∈ drop B handedTo succ rows :=
  ⟨r, hr, by simp [fate, hb, hn, hL]⟩

/-- A version of another batch keeps its key, batch and value. -/
theorem mem_drop_other (B : Nat) (handedTo succ : K → Option Nat) {r : Version K V}
    (hr : r ∈ rows) (hb : r.batch ≠ B) :
    ∃ r' ∈ drop B handedTo succ rows,
      r'.key = r.key ∧ r'.batch = r.batch ∧ r'.val = r.val := by
  by_cases hn : r.next = some B
  · exact ⟨{ r with next := succ r.key }, ⟨r, hr, by simp [fate, hb, hn]⟩, rfl, rfl, rfl⟩
  · exact ⟨r, ⟨r, hr, by simp [fate, hb, hn]⟩, rfl, rfl, rfl⟩

/-- What a surviving version looks like: it comes from a version with its key and
value, whose batch it keeps unless that was `B`. -/
theorem mem_drop {B : Nat} {handedTo succ : K → Option Nat} {r' : Version K V}
    (h : r' ∈ drop B handedTo succ rows) :
    ∃ r ∈ rows, r'.key = r.key ∧ r'.val = r.val ∧
      ((r.batch = B ∧ r.next = none ∧ r'.next = none ∧ handedTo r.key = some r'.batch) ∨
        (r.batch ≠ B ∧ r'.batch = r.batch ∧
          ((r.next = some B ∧ r'.next = succ r.key) ∨ (r.next ≠ some B ∧ r'.next = r.next)))) := by
  obtain ⟨r, hr, hfate⟩ := h
  rcases fate_cases hfate with ⟨L, hb, hn, hL, rfl⟩ | ⟨hb, hn, rfl⟩ | ⟨hb, hn, rfl⟩
  · exact ⟨r, hr, rfl, rfl, .inl ⟨hb, hn, hn, hL⟩⟩
  · exact ⟨r, hr, rfl, rfl, .inr ⟨hb, rfl, .inl ⟨hn, rfl⟩⟩⟩
  · exact ⟨r', hr, rfl, rfl, .inr ⟨hb, rfl, .inr ⟨hn, rfl⟩⟩⟩

theorem Chained.drop_owned (hc : Chained rows stated) {B : Nat} {handedTo succ : K → Option Nat}
    (hh : Handover rows stated B handedTo succ) :
    ∀ r ∈ drop B handedTo succ rows,
      Function.update stated B (fun _ => none) r.batch r.key = some r.val := by
  intro r' hr'
  obtain ⟨r, hr, hk, hv, ⟨hb, hn, -, hL⟩ | ⟨hb, hb', -⟩⟩ := mem_drop hr'
  · obtain ⟨hlt, ⟨v, hstated⟩, -⟩ := hh.handed r hr hb hn _ hL
    rw [Function.update_of_ne (by omega), hk, hv, hstated,
      hc.val_of_open_le hr hn hstated (by omega)]
  · rw [Function.update_of_ne (by omega), hk, hv, hb']
    exact hc.owned r hr

theorem Linked.drop_unique (hc : Linked rows) {B : Nat}
    {handedTo succ : K → Option Nat} (hh : Reassigned rows B handedTo succ) :
    ∀ r ∈ drop B handedTo succ rows, ∀ r' ∈ drop B handedTo succ rows,
      r.key = r'.key → r.batch = r'.batch → r = r' := by
  rintro r ⟨o, ho, hfo⟩ r' ⟨o', ho', hfo'⟩ hk hb
  suffices o = o' by
    subst this
    exact Option.some.inj (hfo.symm.trans hfo')
  rcases fate_cases hfo with ⟨L, hbo, hno, hL, heq⟩ | ⟨hbo, -, heq⟩ | ⟨hbo, -, heq⟩ <;>
    rcases fate_cases hfo' with ⟨L', hbo', hno', hL', heq'⟩ | ⟨hbo', -, heq'⟩ | ⟨hbo', -, heq'⟩ <;>
      simp only [heq, heq'] at hk hb
  case inl.inl => exact hc.unique o ho o' ho' hk (by omega)
  -- the batch an open version is handed to is newer than every version of the key
  case inl.inr.inl | inl.inr.inr =>
    have := hh.later o ho hbo hno L hL
    have := hc.last o ho hno o' ho' hk.symm
    omega
  case inr.inl.inl | inr.inr.inl =>
    have := hh.later o' ho' hbo' hno' L' hL'
    have := hc.last o' ho' hno' o ho hk
    omega
  all_goals exact hc.unique o ho o' ho' hk hb

/-- The version of `B` that closed `r`, and what closes `r` afterwards. -/
theorem Linked.follows (hc : Linked rows) {B : Nat} {handedTo succ : K → Option Nat}
    (hh : Reassigned rows B handedTo succ) {r : Version K V} (hr : r ∈ rows)
    (hn : r.next = some B) :
    ∃ o ∈ rows, o.key = r.key ∧ o.batch = B ∧
      succ r.key = if o.next = none then handedTo o.key else o.next := by
  obtain ⟨-, ⟨o, ho, hk, hb⟩, -⟩ := hc.link r hr B hn
  exact ⟨o, ho, hk, hb, by rw [← hk]; exact hh.follows o ho hb⟩

theorem Linked.drop_last (hc : Linked rows) {B : Nat} {handedTo succ : K → Option Nat}
    (hh : Reassigned rows B handedTo succ) :
    ∀ r ∈ drop B handedTo succ rows, r.next = none →
      ∀ r' ∈ drop B handedTo succ rows, r'.key = r.key → r'.batch ≤ r.batch := by
  intro r hr hopen r' hr' hkey
  obtain ⟨o, ho, hk, -, horigin⟩ := mem_drop hr
  obtain ⟨o', ho', hk', -, horigin'⟩ := mem_drop hr'
  have hkk : o'.key = o.key := by rw [← hk', ← hk, hkey]
  rcases horigin with ⟨hb, hn, -, hL⟩ | ⟨hb, hb', ⟨hn, hn'⟩ | ⟨hn, hn'⟩⟩
  · have hlt := hh.later o ho hb hn _ hL
    have hle := hc.last o ho hn o' ho' hkk
    rcases horigin' with ⟨hbo, -, -, hL'⟩ | ⟨-, hbo, -⟩
    · rw [hkk, hL, Option.some.injEq] at hL'
      omega
    · omega
  -- `B` closed the version and nothing takes the place of `B`
  · obtain ⟨p, hp, hpk, hpb, hsucc⟩ := hc.follows hh ho hn
    rw [← hn', hopen] at hsucc
    have hpn : p.next = none := by
      by_contra hne
      rw [if_neg hne] at hsucc
      exact hne hsucc.symm
    rw [if_pos hpn] at hsucc
    have hle := hc.last p hp hpn o' ho' (hkk.trans hpk.symm)
    rcases horigin' with ⟨-, -, -, hL'⟩ | ⟨hbo, hbo', -⟩
    · rw [hkk, ← hpk, ← hsucc] at hL'
      cases hL'
    · have := (hc.link o ho B hn).2.2 o' ho' hkk
      omega
  · rw [hn'] at hopen
    have hle := hc.last o ho hopen o' ho' hkk
    rcases horigin' with ⟨hbo, hno, -, -⟩ | ⟨-, hbo, -⟩
    · have := hc.last o' ho' hno o ho hkk.symm
      omega
    · omega

theorem Linked.drop_link (hc : Linked rows) {B : Nat} {handedTo succ : K → Option Nat}
    (hh : Reassigned rows B handedTo succ) :
    ∀ r ∈ drop B handedTo succ rows, ∀ s, r.next = some s →
      r.batch < s ∧ (∃ r' ∈ drop B handedTo succ rows, r'.key = r.key ∧ r'.batch = s) ∧
        ∀ r' ∈ drop B handedTo succ rows, r'.key = r.key → r'.batch ≤ r.batch ∨ s ≤ r'.batch := by
  intro r hr s hs
  obtain ⟨o, ho, hk, -, ⟨-, -, hn, -⟩ | ⟨hb, hb', ⟨hn, hn'⟩ | ⟨hn, hn'⟩⟩⟩ := mem_drop hr
  · rw [hn] at hs
    cases hs
  · obtain ⟨p, hp, hpk, hpb, hsucc⟩ := hc.follows hh ho hn
    obtain ⟨hlt, -, hbetween⟩ := hc.link o ho B hn
    rw [← hn', hs] at hsucc
    by_cases hpn : p.next = none
    -- the version of `B` is handed over, and closes `r` under its new batch
    · rw [if_pos hpn] at hsucc
      have hBs := hh.later p hp hpb hpn s hsucc.symm
      refine ⟨by omega, ⟨_, mem_drop_handed hp hpb hpn hsucc.symm, ?_, rfl⟩, ?_⟩
      · exact hpk.trans hk.symm
      · intro r' hr' hkey
        obtain ⟨o', ho', hk', -, horigin'⟩ := mem_drop hr'
        have hkk : o'.key = o.key := by rw [← hk', ← hk, hkey]
        have hle := hc.last p hp hpn o' ho' (hkk.trans hpk.symm)
        rcases horigin' with ⟨-, -, -, hL'⟩ | ⟨hbo, hbo', -⟩
        · rw [hkk, ← hpk, ← hsucc] at hL'
          cases hL'
          exact .inr le_rfl
        · have := hbetween o' ho' hkk
          omega
    -- the version of `B` is deleted, and what closed it closes `r`
    · rw [if_neg hpn] at hsucc
      obtain ⟨hBs, ⟨q, hq, hqk, hqb⟩, hbetween'⟩ := hc.link p hp s hsucc.symm
      obtain ⟨q', hq', hqk', hqb', -⟩ :=
        mem_drop_other B handedTo succ hq (by omega)
      refine ⟨by omega, ⟨q', hq', ?_, by omega⟩, ?_⟩
      · rw [hqk', hqk, hpk, hk]
      · intro r' hr' hkey
        obtain ⟨o', ho', hk', -, horigin'⟩ := mem_drop hr'
        have hkk : o'.key = o.key := by rw [← hk', ← hk, hkey]
        rcases horigin' with ⟨hbo, hno, -, -⟩ | ⟨hbo, hbo', -⟩
        · have : o' = p := hc.unique o' ho' p hp (hkk.trans hpk.symm) (by omega)
          rw [this] at hno
          exact absurd hno hpn
        · have h₁ := hbetween o' ho' hkk
          have h₂ := hbetween' o' ho' (hkk.trans hpk.symm)
          omega
  · rw [hn'] at hs
    obtain ⟨hlt, ⟨q, hq, hqk, hqb⟩, hbetween⟩ := hc.link o ho s hs
    have hsB : s ≠ B := fun h => hn (by rw [hs, h])
    obtain ⟨q', hq', hqk', hqb', -⟩ :=
      mem_drop_other B handedTo succ hq (by omega)
    refine ⟨by omega, ⟨q', hq', ?_, by omega⟩, ?_⟩
    · rw [hqk', hqk, hk]
    · intro r' hr' hkey
      obtain ⟨o', ho', hk', -, horigin'⟩ := mem_drop hr'
      have hkk : o'.key = o.key := by rw [← hk', ← hk, hkey]
      rcases horigin' with ⟨hbo, hno, -, hL'⟩ | ⟨hbo, hbo', -⟩
      · have h₁ := hh.later o' ho' hbo hno _ hL'
        have h₂ := hc.last o' ho' hno q hq (hqk.trans hkk.symm)
        omega
      · have := hbetween o' ho' hkk
        omega

/-- **Dropping a batch keeps the links.** -/
theorem Linked.drop (hc : Linked rows) {B : Nat} {handedTo succ : K → Option Nat}
    (hh : Reassigned rows B handedTo succ) : Linked (drop B handedTo succ rows) :=
  ⟨hc.drop_unique hh, hc.drop_last hh, hc.drop_link hh⟩

/-- The batches after a closed version of `B` that state its key are not before
the version that closed it. -/
def NoneBetween (rows : Set (Version K V)) (stated : Stated K V) (B : Nat) : Prop :=
  ∀ o ∈ rows, o.batch = B → ∀ s, o.next = some s →
    ∀ L, B < L → L < s → stated L o.key = none

theorem Chained.drop_covers (hc : Chained rows stated) {B : Nat}
    {handedTo succ : K → Option Nat} (hh : Handover rows stated B handedTo succ)
    (hbetween : NoneBetween rows stated B) :
    ∀ b k v, Function.update stated B (fun _ => none) b k = some v →
      ∃ r ∈ drop B handedTo succ rows, r.key = k ∧ r.val = v ∧ r.batch ≤ b ∧
        ∀ r' ∈ drop B handedTo succ rows, r'.key = k → r'.batch ≤ b → r'.batch ≤ r.batch := by
  intro b k v hstated
  have hbB : b ≠ B := by
    rintro rfl
    simp at hstated
  rw [Function.update_of_ne hbB] at hstated
  obtain ⟨r, hr, hk, hv, hle, hmax⟩ := hc.covers b k v hstated
  by_cases hrB : r.batch = B
  · cases hn : r.next with
    | some s =>
      obtain ⟨hlt, ⟨q, hq, hqk, hqb⟩, -⟩ := hc.link r hr s hn
      have hsb : s ≤ b := by
        by_contra hsb
        have := hbetween r hr hrB s hn b (by omega) (by omega)
        rw [hk, hstated] at this
        cases this
      have := hmax q hq (hqk.trans hk) (by omega)
      omega
    | none =>
      cases hL : handedTo r.key with
      | none =>
        exact absurd (by rw [hk]; exact hstated) (hh.kept r hr hrB hn hL b v (by omega))
      | some L =>
        have hLb : L ≤ b :=
          (hh.handed r hr hrB hn L hL).2.2 b v (by omega) (by rw [hk]; exact hstated)
        have hBL := (hh.handed r hr hrB hn L hL).1
        refine ⟨_, mem_drop_handed hr hrB hn hL, hk, hv, hLb, ?_⟩
        intro r' hr' hkey _
        obtain ⟨o', ho', hk', -, horigin'⟩ := mem_drop hr'
        have hkk : o'.key = r.key := by rw [← hk', hkey, hk]
        have := hc.last r hr hn o' ho' hkk
        rcases horigin' with ⟨-, -, -, hL'⟩ | ⟨hbo, hbo', -⟩
        · rw [hkk, hL, Option.some.injEq] at hL'
          exact hL'.ge
        · show r'.batch ≤ L
          omega
  · obtain ⟨r₁, hr₁, hk₁, hb₁, hv₁⟩ :=
      mem_drop_other B handedTo succ hr hrB
    refine ⟨r₁, hr₁, hk₁.trans hk, hv₁.trans hv, by omega, ?_⟩
    intro r' hr' hkey hle'
    obtain ⟨o', ho', hk', -, horigin'⟩ := mem_drop hr'
    have hkk : o'.key = k := by rw [← hk', hkey]
    rcases horigin' with ⟨hbo, hno, -, hL'⟩ | ⟨hbo, hbo', -⟩
    · have h₁ := (hh.handed o' ho' hbo hno _ hL').1
      have h₂ := hmax o' ho' hkk (by omega)
      have h₃ := hc.last o' ho' hno r hr (hk.trans hkk.symm)
      omega
    · have := hmax o' ho' hkk (by omega)
      omega

/-- **Dropping a batch keeps the chain**, if no batch that is still live relies on
one of its closed versions. -/
theorem Chained.drop (hc : Chained rows stated) {B : Nat} {handedTo succ : K → Option Nat}
    (hh : Handover rows stated B handedTo succ) (hbetween : NoneBetween rows stated B) :
    Chained (drop B handedTo succ rows) (Function.update stated B fun _ => none) :=
  have hlinked := hc.linked.drop hh.reassigned
  ⟨hc.drop_owned hh, hlinked.unique, hlinked.last, hlinked.link, hc.drop_covers hh hbetween⟩

end

end VersionChain
