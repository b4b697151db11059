import Mathlib

/-! Lists of records in which a key occurs at most once: looking a record up by
its key, and inserting by key. -/

namespace Keyed

variable {α β κ : Type*} [DecidableEq κ]

/-- In a keyed list the lookup finds exactly the record of the key. -/
theorem find?_eq_some_iff {key : α → κ} {xs : List α} (hn : (xs.map key).Nodup) {k : κ} {x : α} :
    xs.find? (fun y => decide (key y = k)) = some x ↔ x ∈ xs ∧ key x = k := by
  refine ⟨fun h => ⟨List.mem_of_find?_eq_some h, by simpa using List.find?_some h⟩, ?_⟩
  rintro ⟨hx, hk⟩
  have hsome : (xs.find? fun y => decide (key y = k)).isSome := by
    rw [List.find?_isSome]
    exact ⟨x, hx, by simpa using hk⟩
  obtain ⟨y, hy⟩ := Option.isSome_iff_exists.mp hsome
  have hky : key y = key x := by rw [hk]; simpa using List.find?_some hy
  rw [hy, List.inj_on_of_nodup_map hn (List.mem_of_find?_eq_some hy) hx hky]

theorem find?_reverse {key : α → κ} {xs : List α} (hn : (xs.map key).Nodup) (k : κ) :
    xs.reverse.find? (fun y => decide (key y = k)) = xs.find? (fun y => decide (key y = k)) := by
  have hn' : (xs.reverse.map key).Nodup := by
    rw [List.map_reverse]
    exact List.nodup_reverse.mpr hn
  ext x
  rw [find?_eq_some_iff hn', find?_eq_some_iff hn, List.mem_reverse]

/-- A lookup among the records that a keyed list yields. -/
theorem find?_filterMap (key : α → κ) {key' : β → κ} {f : α → Option β} {xs : List α}
    (hn : (xs.map key).Nodup) (hf : ∀ x ∈ xs, ∀ y, f x = some y → key' y = key x)
    {x : α} (hx : x ∈ xs) :
    (xs.filterMap f).find? (fun y => decide (key' y = key x)) = f x := by
  cases hfx : f x with
  | some y =>
    induction xs with
    | nil => cases hx
    | cons z zs ih =>
      rw [List.map_cons, List.nodup_cons] at hn
      rcases List.mem_cons.mp hx with rfl | hx'
      · simp [hfx, hf x hx y hfx]
      · have hne : key z ≠ key x := fun h => hn.1 (h ▸ List.mem_map_of_mem hx')
        have hrest := ih hn.2 (fun w hw => hf w (List.mem_cons_of_mem _ hw)) hx'
        rw [List.filterMap_cons]
        cases hfz : f z with
        | none => exact hrest
        | some w =>
          have hw := hf z List.mem_cons_self w hfz
          simp [hw, hne, hrest]
  | none =>
    rw [List.find?_eq_none]
    intro y hy hk
    obtain ⟨z, hz, hfz⟩ := List.mem_filterMap.mp hy
    have hkz : key z = key x := by
      rw [← hf z hz y hfz]
      simpa using hk
    rw [List.inj_on_of_nodup_map hn hz hx hkz, hfx] at hfz
    cases hfz

omit [DecidableEq κ] in
theorem filterMap_keys_sublist {key : α → κ} {key' : β → κ} {f : α → Option β}
    (hf : ∀ x y, f x = some y → key' y = key x) (xs : List α) :
    ((xs.filterMap f).map key').Sublist (xs.map key) := by
  induction xs with
  | nil => exact .slnil
  | cons x xs ih =>
    rw [List.filterMap_cons]
    cases hfx : f x with
    | none => exact ih.cons _
    | some y =>
      rw [List.map_cons, List.map_cons, hf x y hfx]
      exact ih.cons_cons _

/-! ## One value of a list without repetitions -/

theorem filter_map_single {xs : List κ} (hn : xs.Nodup) {k : κ} (hk : k ∈ xs) (F : κ → β)
    {p : β → Bool} (hp : ∀ y ∈ xs, p (F y) = decide (y = k)) : (xs.map F).filter p = [F k] := by
  have hone : xs.filter (p ∘ F) = xs.filter fun y => decide (y = k) := List.filter_congr hp
  rw [List.filter_map, hone, List.filter_eq, hn.count, if_pos hk]
  rfl

omit [DecidableEq κ] in
theorem flatMap_single {xs : List κ} (hn : xs.Nodup) {k : κ} (hk : k ∈ xs) (G : κ → List β)
    (hG : ∀ y ∈ xs, y ≠ k → G y = []) : xs.flatMap G = G k := by
  induction xs with
  | nil => cases hk
  | cons x xs ih =>
    rw [List.nodup_cons] at hn
    rw [List.flatMap_cons]
    rcases List.mem_cons.mp hk with rfl | hk
    · have hrest : xs.flatMap G = [] := by
        rw [List.flatMap_eq_nil_iff]
        exact fun y hy => hG y (List.mem_cons_of_mem _ hy) fun heq => hn.1 (heq ▸ hy)
      rw [hrest, List.append_nil]
    · rw [hG x List.mem_cons_self fun heq => hn.1 (heq ▸ hk), List.nil_append,
        ih hn.2 hk fun y hy => hG y (List.mem_cons_of_mem _ hy)]

/-! ## Inserting by key -/

/-- Change the record of the key, or put a new one at the end. -/
def upsert (key : α → κ) (k : κ) (f : α → α) (new : α) (xs : List α) : List α :=
  if k ∈ xs.map key then xs.map fun x => if key x = k then f x else x else xs ++ [new]

section
variable {key : α → κ} {k : κ} {f : α → α} {new : α} {xs : List α}

theorem mem_upsert (hf : ∀ x, key (f x) = key x) (hnew : key new = k) {y : α}
    (hy : y ∈ upsert key k f new xs) : y ∈ xs ∨ key y = k := by
  unfold upsert at hy
  split at hy
  · obtain ⟨x, hx, rfl⟩ := List.mem_map.mp hy
    by_cases hk : key x = k
    · rw [if_pos hk, hf]
      exact .inr hk
    · rw [if_neg hk]
      exact .inl hx
  · rcases List.mem_append.mp hy with hy | hy
    · exact .inl hy
    · rw [List.mem_singleton.mp hy]
      exact .inr hnew

theorem nodup_upsert (hf : ∀ x, key (f x) = key x) (hnew : key new = k)
    (hn : (xs.map key).Nodup) : ((upsert key k f new xs).map key).Nodup := by
  unfold upsert
  split
  · have hkeys : (xs.map fun x => if key x = k then f x else x).map key = xs.map key := by
      rw [List.map_map]
      refine List.map_congr_left fun x _ => ?_
      show key (if key x = k then f x else x) = key x
      split
      · exact hf x
      · rfl
    rw [hkeys]
    exact hn
  · next hk =>
    rw [List.map_append, List.map_singleton, hnew, List.nodup_append]
    refine ⟨hn, List.nodup_singleton k, fun a ha b hb => ?_⟩
    rw [List.mem_singleton.mp hb]
    exact fun heq => hk (heq ▸ ha)

/-- The total of the records goes up by what the change adds. -/
theorem sum_upsert {M : Type*} [AddCommMonoid M] {w : α → M} {d : M} (hn : (xs.map key).Nodup)
    (hf : ∀ x ∈ xs, key x = k → w (f x) = w x + d) (hnew : w new = d) :
    ((upsert key k f new xs).map w).sum = (xs.map w).sum + d := by
  unfold upsert
  split
  · next hk =>
    induction xs with
    | nil => cases hk
    | cons x xs ih =>
      rw [List.map_cons, List.nodup_cons] at hn
      have htail := fun y hy => hf y (List.mem_cons_of_mem _ hy)
      by_cases hx : key x = k
      · have hrest : (xs.map fun y => if key y = k then f y else y) = xs := by
          refine (List.map_congr_left fun y hy => if_neg fun hy' => hn.1 ?_).trans (List.map_id _)
          rw [hx, ← hy']
          exact List.mem_map_of_mem hy
        rw [List.map_cons, List.map_cons, List.sum_cons, if_pos hx, hrest,
          hf x List.mem_cons_self hx, List.map_cons, List.sum_cons, add_right_comm]
      · have hk' : k ∈ xs.map key := by
          rcases List.mem_cons.mp hk with hk | hk
          · exact absurd hk.symm hx
          · exact hk
        rw [List.map_cons, List.map_cons, List.sum_cons, if_neg hx, ih hn.2 htail hk',
          List.map_cons, List.sum_cons, add_assoc]
  · rw [List.map_append, List.sum_append, List.map_singleton, List.sum_singleton, hnew]

end

/-- Insert records `bs` one after the other. -/
def upserts (key : α → κ) (k : β → κ) (f : β → α → α) (new : β → α) (xs : List α) (bs : List β) :
    List α :=
  bs.foldl (fun xs b => upsert key (k b) (f b) (new b) xs) xs

section
variable {key : α → κ} {k : β → κ} {f : β → α → α} {new : β → α} {xs : List α} {bs : List β}

theorem nodup_upserts (hf : ∀ b x, key (f b x) = key x) (hnew : ∀ b, key (new b) = k b)
    (hn : (xs.map key).Nodup) : ((upserts key k f new xs bs).map key).Nodup := by
  induction bs generalizing xs with
  | nil => exact hn
  | cons b bs ih => exact ih (nodup_upsert (hf b) (hnew b) hn)

/-- Each insertion adds its amount to the total. -/
theorem sum_upserts {M : Type*} [AddCommMonoid M] {w : α → M} {d : β → M}
    (hf : ∀ b x, key (f b x) = key x) (hnew : ∀ b, key (new b) = k b)
    (hwf : ∀ b x, key x = k b → w (f b x) = w x + d b) (hwnew : ∀ b, w (new b) = d b)
    (hn : (xs.map key).Nodup) :
    ((upserts key k f new xs bs).map w).sum = (xs.map w).sum + (bs.map d).sum := by
  induction bs generalizing xs with
  | nil => simp [upserts]
  | cons b bs ih =>
    have hfirst := sum_upsert (k := k b) hn (fun x _ => hwf b x) (hwnew b)
    show ((upserts key k f new (upsert key (k b) (f b) (new b) xs) bs).map w).sum = _
    rw [ih (nodup_upsert (hf b) (hnew b) hn), hfirst, List.map_cons, List.sum_cons, add_assoc]

theorem sum_upserts_nil {M : Type*} [AddCommMonoid M] {w : α → M} {d : β → M}
    (hf : ∀ b x, key (f b x) = key x) (hnew : ∀ b, key (new b) = k b)
    (hwf : ∀ b x, key x = k b → w (f b x) = w x + d b) (hwnew : ∀ b, w (new b) = d b) :
    ((upserts key k f new [] bs).map w).sum = (bs.map d).sum := by
  rw [sum_upserts hf hnew hwf hwnew (by exact List.nodup_nil), List.map_nil, List.sum_nil, zero_add]

/-- With one insertion for each key, the amounts have to be right for the first records
only. -/
theorem sum_upserts_of_nodup {M : Type*} [AddCommMonoid M] {w : α → M} {d : β → M}
    (hf : ∀ b x, key (f b x) = key x) (hnew : ∀ b, key (new b) = k b)
    (hwf : ∀ b, ∀ x ∈ xs, w (f b x) = w x + d b) (hwnew : ∀ b, w (new b) = d b)
    (hn : (xs.map key).Nodup) (hbs : (bs.map k).Nodup) :
    ((upserts key k f new xs bs).map w).sum = (xs.map w).sum + (bs.map d).sum := by
  have hgen : ∀ ys : List α, (ys.map key).Nodup →
      (∀ b ∈ bs, ∀ x ∈ ys, key x = k b → w (f b x) = w x + d b) →
      ((upserts key k f new ys bs).map w).sum = (ys.map w).sum + (bs.map d).sum := by
    clear hwf hn
    induction bs with
    | nil => simp [upserts]
    | cons b bs ih =>
      intro ys hn hwf
      rw [List.map_cons, List.nodup_cons] at hbs
      have hfirst := sum_upsert (k := k b) hn (hwf b List.mem_cons_self) (hwnew b)
      show ((upserts key k f new (upsert key (k b) (f b) (new b) ys) bs).map w).sum = _
      rw [ih hbs.2 _ (nodup_upsert (hf b) (hnew b) hn) ?_, hfirst, List.map_cons, List.sum_cons,
        add_assoc]
      intro b' hb' x hx hkey
      rcases mem_upsert (hf b) (hnew b) hx with hx | hx
      · exact hwf b' (List.mem_cons_of_mem _ hb') x hx hkey
      · exact absurd (List.mem_map.mpr ⟨b', hb', hkey.symm.trans hx⟩) hbs.1
  exact hgen xs hn fun b _ x hx _ => hwf b x hx

/-- Records of distinct new keys go to the end. -/
theorem upserts_of_nodup (hnew : ∀ b, key (new b) = k b) (hbs : (bs.map k).Nodup) :
    upserts key k f new [] bs = bs.map new := by
  have hgen : ∀ ys : List α, (∀ b ∈ bs, k b ∉ ys.map key) →
      upserts key k f new ys bs = ys ++ bs.map new := by
    induction bs with
    | nil => simp [upserts]
    | cons b bs ih =>
      intro ys hys
      rw [List.map_cons, List.nodup_cons] at hbs
      have hfirst : upsert key (k b) (f b) (new b) ys = ys ++ [new b] :=
        if_neg (hys b List.mem_cons_self)
      show upserts key k f new (upsert key (k b) (f b) (new b) ys) bs = _
      rw [hfirst, ih hbs.2, List.map_cons, List.append_assoc]
      · rfl
      · intro b' hb'
        rw [List.map_append, List.map_singleton, List.mem_append, List.mem_singleton, hnew]
        rintro (hk | hk)
        · exact hys b' (List.mem_cons_of_mem _ hb') hk
        · exact hbs.1 (hk ▸ List.mem_map_of_mem hb')
  exact hgen [] fun b _ hk => by cases hk

theorem forall_upserts (P : α → Prop) (hf : ∀ b x, P x → P (f b x)) (hnew : ∀ b, P (new b))
    (hxs : ∀ x ∈ xs, P x) : ∀ x ∈ upserts key k f new xs bs, P x := by
  induction bs generalizing xs with
  | nil => exact hxs
  | cons b bs ih =>
    have hxs' : ∀ x ∈ upsert key (k b) (f b) (new b) xs, P x := fun x hx => ?_
    exact ih hxs'
    unfold upsert at hx
    split at hx
    · obtain ⟨y, hy, rfl⟩ := List.mem_map.mp hx
      split
      · exact hf b y (hxs y hy)
      · exact hxs y hy
    · rcases List.mem_append.mp hx with hx | hx
      · exact hxs x hx
      · rw [List.mem_singleton.mp hx]
        exact hnew b

theorem mem_keys_upsert (hf : ∀ x, key (f b x) = key x) (hnew : key (new b) = k b) {k' : κ} :
    k' ∈ (upsert key (k b) (f b) (new b) xs).map key ↔ k' ∈ xs.map key ∨ k' = k b := by
  unfold upsert
  split
  · next hk =>
    have hkeys : (xs.map fun x => if key x = k b then f b x else x).map key = xs.map key := by
      rw [List.map_map]
      refine List.map_congr_left fun x _ => ?_
      show key (if key x = k b then f b x else x) = key x
      split
      · exact hf x
      · rfl
    rw [hkeys]
    exact ⟨.inl, fun h => h.elim id fun heq => heq ▸ hk⟩
  · rw [List.map_append, List.map_singleton, hnew, List.mem_append, List.mem_singleton]

theorem mem_keys_upserts (hf : ∀ b x, key (f b x) = key x) (hnew : ∀ b, key (new b) = k b) {k' : κ} :
    k' ∈ (upserts key k f new [] bs).map key ↔ k' ∈ bs.map k := by
  induction bs using List.reverseRecOn with
  | nil => rfl
  | append_singleton bs b ih =>
    have hlast : upserts key k f new [] (bs ++ [b]) =
        upsert key (k b) (f b) (new b) (upserts key k f new [] bs) := List.foldl_append
    rw [hlast, mem_keys_upsert (hf b) (hnew b), ih, List.map_append, List.mem_append,
      List.map_singleton, List.mem_singleton]

/-- **A record adds up its own**: a figure of a record is the sum over the insertions of its
key. -/
theorem figure_upserts {M : Type*} [AddCommMonoid M] {w : α → M} {d : β → M}
    (hf : ∀ b x, key (f b x) = key x) (hnew : ∀ b, key (new b) = k b)
    (hwf : ∀ b x, key x = k b → w (f b x) = w x + d b) (hwnew : ∀ b, w (new b) = d b) {x : α}
    (hx : x ∈ upserts key k f new [] bs) :
    w x = ((bs.filter fun b => decide (k b = key x)).map d).sum := by
  induction bs using List.reverseRecOn generalizing x with
  | nil => cases hx
  | append_singleton bs b ih =>
    have hlast : upserts key k f new [] (bs ++ [b]) =
        upsert key (k b) (f b) (new b) (upserts key k f new [] bs) := List.foldl_append
    rw [hlast] at hx
    rw [List.filter_append, List.map_append, List.sum_append]
    unfold upsert at hx
    split at hx
    · obtain ⟨y, hy, rfl⟩ := List.mem_map.mp hx
      by_cases hk : key y = k b
      · rw [if_pos hk, hwf b y hk, hf, ih hy, List.filter_singleton, hk]
        simp
      · rw [if_neg hk, ih hy, List.filter_singleton]
        simp [Ne.symm hk]
    · next habsent =>
      rw [mem_keys_upserts hf hnew] at habsent
      rcases List.mem_append.mp hx with hy | hy
      · have hk : k b ≠ key x := by
          intro hk
          rw [hk, ← mem_keys_upserts hf hnew] at habsent
          exact habsent (List.mem_map_of_mem hy)
        rw [ih hy, List.filter_singleton]
        simp [hk]
      · rw [List.mem_singleton.mp hy, hwnew, hnew]
        have hnone : (bs.filter fun b' => decide (k b' = k b)) = [] := by
          rw [List.filter_eq_nil_iff]
          intro b' hb' heq
          exact habsent (List.mem_map.mpr ⟨b', hb', of_decide_eq_true heq⟩)
        rw [hnone, List.filter_singleton]
        simp

/-- The record of a key after insertions has run through those of its key. -/
theorem find?_upserts {A : Type*} {g : A → β → A} {z : A} {k : β → κ} (bs : List β) (k' : κ) :
    (((upserts Prod.fst k (fun b x => (x.1, g x.2 b)) (fun b => (k b, g z b)) [] bs).find?
        fun x => decide (x.1 = k')).map Prod.snd).getD z =
      (bs.filter fun b => decide (k b = k')).foldl g z := by
  induction bs using List.reverseRecOn with
  | nil => rfl
  | append_singleton bs b ih =>
    set xs := upserts Prod.fst k (fun b x => (x.1, g x.2 b)) (fun b => (k b, g z b)) [] bs
    have hlast : upserts Prod.fst k (fun b x => (x.1, g x.2 b)) (fun b => (k b, g z b)) []
        (bs ++ [b]) = upsert Prod.fst (k b) (fun x => (x.1, g x.2 b)) (k b, g z b) xs :=
      List.foldl_append
    rw [hlast, List.filter_append, List.foldl_append, ← ih, List.filter_singleton]
    unfold upsert
    split
    · next hmem =>
      rw [List.find?_map]
      have hkeys : (fun x : κ × A => decide (x.1 = k')) ∘
          (fun x => if x.1 = k b then (x.1, g x.2 b) else x) = fun x => decide (x.1 = k') := by
        funext x
        simp only [Function.comp_apply]
        split <;> rfl
      rw [hkeys]
      by_cases hk : k b = k'
      · obtain ⟨x, hx⟩ : ∃ x, xs.find? (fun x => decide (x.1 = k')) = some x := by
          rw [← Option.isSome_iff_exists, List.find?_isSome]
          obtain ⟨x, hx, hkx⟩ := List.mem_map.mp hmem
          exact ⟨x, hx, decide_eq_true (hkx.trans hk)⟩
        have hkx : x.1 = k b := by
          have h := List.find?_some hx
          rw [hk]
          exact of_decide_eq_true h
        rw [hx]
        simp [hk, hkx]
      · rw [decide_eq_false hk]
        cases hfind : xs.find? fun x => decide (x.1 = k') with
        | none => rfl
        | some x =>
          have hkx : x.1 ≠ k b := by
            have h := List.find?_some hfind
            rw [of_decide_eq_true h]
            exact Ne.symm hk
          simp [hkx]
    · next hmem =>
      rw [List.find?_append]
      by_cases hk : k b = k'
      · have hnone : xs.find? (fun x => decide (x.1 = k')) = none := by
          rw [List.find?_eq_none]
          intro x hx heq
          refine hmem (List.mem_map.mpr ⟨x, hx, ?_⟩)
          rw [hk]
          exact of_decide_eq_true heq
        rw [hnone]
        simp [hk]
      · simp [hk]

end

/-! ## Amounts by key -/

section
variable {M : Type*} [AddCommMonoid M]

/-- Add to the amount of a key; a new key starts at nothing. -/
def addTo (out : List (κ × M)) (k : κ) (v : M) : List (κ × M) :=
  upsert Prod.fst k (fun e => (e.1, e.2 + v)) (k, 0 + v) out

def amountOf (out : List (κ × M)) (k : κ) : Option M :=
  (out.find? fun e => decide (e.1 = k)).map Prod.snd

/-- The amounts of a list of entries, added up by key. -/
def sums (entries : List (κ × M)) : List (κ × M) :=
  entries.foldl (fun out e => addTo out e.1 e.2) []

theorem sums_eq_upserts (entries : List (κ × M)) :
    sums entries = upserts Prod.fst Prod.fst (fun (e x : κ × M) => (x.1, x.2 + e.2))
      (fun e => (e.1, 0 + e.2)) [] entries := rfl

theorem keys_sums {entries : List (κ × M)} {k : κ} :
    k ∈ (sums entries).map Prod.fst ↔ k ∈ entries.map Prod.fst := by
  rw [sums_eq_upserts, mem_keys_upserts]
  · exact fun _ _ => rfl
  · exact fun _ => rfl

omit [AddCommMonoid M] in
theorem amountOf_isSome {out : List (κ × M)} {k : κ} :
    (amountOf out k).isSome = true ↔ k ∈ out.map Prod.fst := by
  unfold amountOf
  rw [Option.isSome_map, List.find?_isSome, List.mem_map]
  simp only [decide_eq_true_eq]

/-- **The amount of a key** is the sum of its entries. -/
theorem amountOf_sums (entries : List (κ × M)) (k : κ) :
    (amountOf (sums entries) k).getD 0 =
      ((entries.filter fun e => decide (e.1 = k)).map Prod.snd).sum := by
  have hfold := find?_upserts (g := fun (a : M) (e : κ × M) => a + e.2) (z := 0) (k := Prod.fst) entries k
  refine hfold.trans ?_
  generalize entries.filter (fun e => decide (e.1 = k)) = own
  have hsum : ∀ (own : List (κ × M)) (z : M), own.foldl (fun a e => a + e.2) z =
      z + (own.map Prod.snd).sum := by
    intro own
    induction own with
    | nil => simp
    | cons e own ih =>
      intro z
      rw [List.foldl_cons, ih, List.map_cons, List.sum_cons, add_assoc]
  rw [hsum, zero_add]

end

end Keyed
