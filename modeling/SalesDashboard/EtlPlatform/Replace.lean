import SalesDashboard.EtlPlatform.Load

/-! `replace_changed` as a rewrite of the whole table: when the two leave the same, and
when the change set tells what happened. -/

namespace SalesDashboard.EtlPlatform.Load
open Tachometer Numerals Keyed

variable {types : List KeyType} {collate : String → String}

/-! ## Keys are told apart -/

theorem isoDate_inj {d d' : Date} (h : isoDate d = isoDate d') : d = d' := by
  have hchars := congrArg String.toList h
  simp only [isoDate, String.toList_ofList] at hchars
  have hparts := joined_padded_inj (by decide) (by rfl) (by rfl) hchars
  cases d
  cases d'
  simp only [List.cons.injEq, and_true] at hparts
  obtain ⟨rfl, rfl, rfl⟩ := hparts
  rfl

theorem norm_value_inj {v w : KeyValue} (htype : v.type = w.type) (h : norm v.value = norm w.value) :
    v = w := by
  cases v <;> cases w <;> try cases htype
  · cases h
    rfl
  · cases h
    rfl
  · exact congrArg KeyValue.date (isoDate_inj (Norm.text.inj h))

theorem columnEquals_iff {v w : KeyValue} (htype : v.type = w.type) :
    columnEquals collate v (norm w.value) = true ↔ v.weight collate = w.weight collate := by
  cases v <;> cases w <;> try cases htype
  · exact decide_eq_true_iff.trans ⟨congrArg KeyValue.int, KeyValue.int.inj⟩
  · exact decide_eq_true_iff.trans ⟨congrArg KeyValue.text, KeyValue.text.inj⟩
  · exact decide_eq_true_iff.trans
      ⟨fun h => congrArg KeyValue.date (isoDate_inj h), fun h => congrArg isoDate (KeyValue.date.inj h)⟩

theorem values_inj {k k' : Key types} (h : k.values = k'.values) : k = k' := by
  cases k
  cases k'
  cases h
  rfl

/-- A key equals the normal form of a key when the two are one to the database. -/
theorem keyEquals_iff {k k' : Key types} :
    keyEquals collate k (keyOf k') = true ↔ k.weight collate = k'.weight collate := by
  have hgen : ∀ vs ws : List KeyValue, vs.map KeyValue.type = ws.map KeyValue.type →
      (((vs.zip (ws.map fun v => norm v.value)).all fun p => columnEquals collate p.1 p.2) = true ↔
        vs.map (·.weight collate) = ws.map (·.weight collate)) := by
    intro vs
    induction vs with
    | nil =>
      intro ws hws
      rw [List.map_nil, eq_comm, List.map_eq_nil_iff] at hws
      rw [hws]
      simp
    | cons v vs ih =>
      intro ws hws
      cases ws with
      | nil => simp at hws
      | cons w ws =>
        rw [List.map_cons, List.map_cons, List.cons.injEq] at hws
        rw [List.map_cons, List.zip_cons_cons, List.all_cons, Bool.and_eq_true, ih ws hws.2,
          columnEquals_iff hws.1, List.map_cons, List.map_cons, List.cons.injEq]
  unfold keyEquals keyOf
  rw [hgen k.values k'.values (k.typed.trans k'.typed.symm)]
  exact ⟨fun h => values_inj h, fun h => congrArg Key.values h⟩

theorem keyOf_inj {k k' : Key types} (h : keyOf k = keyOf k') : k = k' := by
  have hgen : ∀ vs ws : List KeyValue, vs.map KeyValue.type = ws.map KeyValue.type →
      vs.map (fun v => norm v.value) = ws.map (fun v => norm v.value) → vs = ws := by
    intro vs
    induction vs with
    | nil =>
      intro ws hws _
      exact (List.map_eq_nil_iff.mp hws.symm).symm
    | cons v vs ih =>
      intro ws hws hnorm
      cases ws with
      | nil => simp at hws
      | cons w ws =>
        rw [List.map_cons, List.map_cons, List.cons.injEq] at hws hnorm
        rw [norm_value_inj hws.1 hnorm.1, ih ws hws.2 hnorm.2]
  exact values_inj (hgen _ _ (k.typed.trans k'.typed.symm) h)

theorem keyOf_injective : Function.Injective (keyOf : Key types → List Norm) := fun _ _ => keyOf_inj

/-! ## Statements -/

theorem deleteKeys_eq (rows : List (Row types)) (missing : List (List Norm)) :
    deleteKeys collate rows missing = rows.filter fun r => !missing.any (keyEquals collate r.key) := by
  have hgen : ∀ (cs : List (List (List Norm))) (rows : List (Row types)),
      cs.foldl (fun rows chunk => rows.filter fun r => !chunk.any (keyEquals collate r.key)) rows =
        rows.filter fun r => !cs.flatten.any (keyEquals collate r.key) := by
    intro cs
    induction cs with
    | nil =>
      intro rows
      simp
    | cons c cs ih =>
      intro rows
      rw [List.foldl_cons, ih, List.filter_filter]
      refine List.filter_congr fun r _ => ?_
      rw [List.flatten_cons, List.any_append, Bool.not_or, Bool.and_comm]
  unfold deleteKeys
  rw [hgen, flatten_chunks (by decide)]

section
variable {α κ β : Type*} [DecidableEq κ] {key : α → κ} {k : β → κ} {f : β → α → α} {new : β → α}

/-- Rows that replace the ones of their keys. -/
theorem mem_replacing {bs : List β} {xs : List α} (hnew : ∀ b, key (new b) = k b)
    (hf : ∀ b ∈ bs, ∀ x ∈ xs, key x = k b → f b x = new b) (hbs : (bs.map k).Nodup) (y : α) :
    y ∈ bs.foldl (fun xs b => upsert key (k b) (f b) (new b) xs) xs ↔
      (∃ b ∈ bs, y = new b) ∨ (y ∈ xs ∧ key y ∉ bs.map k) := by
  have hone : ∀ (b : β) (xs : List α) (y : α), (∀ x ∈ xs, key x = k b → f b x = new b) →
      (y ∈ upsert key (k b) (f b) (new b) xs ↔ y = new b ∨ (y ∈ xs ∧ key y ≠ k b)) := by
    intro b xs y hf
    unfold upsert
    split
    · next hk =>
      constructor
      · intro hy
        obtain ⟨x, hx, rfl⟩ := List.mem_map.mp hy
        by_cases hkey : key x = k b
        · rw [if_pos hkey]
          exact .inl (hf x hx hkey)
        · rw [if_neg hkey]
          exact .inr ⟨hx, hkey⟩
      · rintro (rfl | ⟨hy, hkey⟩)
        · obtain ⟨x, hx, hkey⟩ := List.mem_map.mp hk
          exact List.mem_map.mpr ⟨x, hx, by rw [if_pos hkey, hf x hx hkey]⟩
        · exact List.mem_map.mpr ⟨y, hy, if_neg hkey⟩
    · next hk =>
      rw [List.mem_append, List.mem_singleton, or_comm]
      refine or_congr_right ⟨fun hy => ⟨hy, fun hkey => hk ?_⟩, And.left⟩
      rw [← hkey]
      exact List.mem_map_of_mem hy
  induction bs generalizing xs with
  | nil => simp
  | cons b bs ih =>
    rw [List.map_cons, List.nodup_cons] at hbs
    have hfirst : ∀ y, y ∈ upsert key (k b) (f b) (new b) xs ↔ y = new b ∨ (y ∈ xs ∧ key y ≠ k b) :=
      fun y => hone b xs y (hf b List.mem_cons_self)
    rw [List.foldl_cons]
    refine (ih ?_ hbs.2).trans ?_
    · intro b' hb' x hx hkey
      rcases (hfirst x).mp hx with rfl | ⟨hx, -⟩
      · rw [hnew] at hkey
        exact absurd (hkey ▸ List.mem_map_of_mem hb') hbs.1
      · exact hf b' (List.mem_cons_of_mem _ hb') x hx hkey
    rw [hfirst]
    simp only [List.mem_cons, List.map_cons, not_or, exists_eq_or_imp]
    constructor
    · rintro (h | ⟨rfl | ⟨hy, hkey⟩, hrest⟩)
      · exact .inl (.inr h)
      · exact .inl (.inl rfl)
      · exact .inr ⟨hy, hkey, hrest⟩
    · rintro ((rfl | h) | ⟨hy, hkey, hrest⟩)
      · exact .inr ⟨.inl rfl, by rw [hnew]; exact hbs.1⟩
      · exact .inl h
      · exact .inr ⟨.inr ⟨hy, hkey⟩, hrest⟩

end

/-- The row a frame row becomes. -/
def written (store : Nat → Value → Value) (stamp : Value) (f : FrameRow types) : Row types :=
  ⟨f.key, keep store f.content, stamp⟩

theorem upsertRows_eq (store : Nat → Value → Value) (stamp : Value) (rows : List (Row types))
    (changed : List (FrameRow types)) : upsertRows collate store stamp rows changed =
      changed.foldl (fun rows f => upsert (Row.weight collate) (f.weight collate)
        (fun r => ⟨r.key, keep store f.content, stamp⟩) (written store stamp f) rows) rows := by
  unfold upsertRows
  rw [← List.foldl_flatten, flatten_chunks (by decide)]
  rfl

theorem weight_written (store : Nat → Value → Value) (stamp : Value) (f : FrameRow types) :
    (written store stamp f).weight collate = f.weight collate := rfl

/-- Where the rows that a frame row meets are spelled like it, it replaces them. -/
theorem mem_upsertRows {store : Nat → Value → Value} {stamp : Value} {rows : List (Row types)}
    {changed : List (FrameRow types)} (hn : (changed.map (FrameRow.weight collate)).Nodup)
    (hspelled : ∀ f ∈ changed, ∀ r ∈ rows, r.weight collate = f.weight collate → r.key = f.key)
    (r : Row types) : r ∈ upsertRows collate store stamp rows changed ↔
      (∃ f ∈ changed, r = written store stamp f) ∨
        (r ∈ rows ∧ r.weight collate ∉ changed.map (FrameRow.weight collate)) := by
  rw [upsertRows_eq]
  refine mem_replacing (weight_written store stamp) ?_ hn r
  intro f hf r hr hkey
  rw [hspelled f hf r hr hkey]
  rfl

theorem nodup_upsertRows {store : Nat → Value → Value} {stamp : Value} {rows : List (Row types)}
    (changed : List (FrameRow types)) (hn : (rows.map (Row.weight collate)).Nodup) :
    ((upsertRows collate store stamp rows changed).map (Row.weight collate)).Nodup := by
  rw [upsertRows_eq]
  exact nodup_upserts (f := fun f r => ⟨r.key, keep store f.content, stamp⟩) (fun _ _ => rfl)
    (weight_written store stamp) hn

theorem nodup_keys {α : Type} {key : α → Key types} {xs : List α}
    (h : (xs.map fun x => (key x).weight collate).Nodup) : (xs.map key).Nodup := by
  refine List.Nodup.of_map (Key.weight collate) ?_
  rw [List.map_map]
  exact h

/-! ## The diff -/

section
variable {H : Type} [DecidableEq H] (sha1 : List Norm → H)

omit [DecidableEq H] in
theorem storedHashes_eq (table : Table collate types) : storedHashes sha1 table.rows =
    table.rows.map fun r => (keyOf r.key, contentHash sha1 r.content) := by
  have hnew : ∀ r : Row types, (keyOf r.key, contentHash sha1 r.content).1 = keyOf r.key := fun _ => rfl
  refine upserts_of_nodup (f := fun r e => (e.1, contentHash sha1 r.content)) hnew ?_
  have hkeys : table.rows.map (fun r => keyOf r.key) = (table.rows.map (·.key)).map keyOf := by
    rw [List.map_map]
    rfl
  rw [hkeys]
  exact (nodup_keys table.nodup).map keyOf_injective

omit [DecidableEq H] in
/-- The hash of a frame row's key is that of the stored row of its key. -/
theorem storedHash_eq_some (table : Table collate types) {key : Key types} {h : H} :
    storedHash (storedHashes sha1 table.rows) (keyOf key) = some h ↔
      ∃ t ∈ table.rows, t.key = key ∧ contentHash sha1 t.content = h := by
  have hn : ((storedHashes sha1 table.rows).map Prod.fst).Nodup := by
    rw [storedHashes_eq, List.map_map]
    show (table.rows.map fun r => keyOf r.key).Nodup
    rw [show (table.rows.map fun r => keyOf r.key) = (table.rows.map (·.key)).map keyOf by
      rw [List.map_map]; rfl]
    exact (nodup_keys table.nodup).map keyOf_injective
  unfold storedHash
  rw [Option.map_eq_some_iff]
  constructor
  · rintro ⟨e, he, rfl⟩
    obtain ⟨hmem, hkey⟩ := (find?_eq_some_iff hn).mp he
    rw [storedHashes_eq] at hmem
    obtain ⟨t, ht, rfl⟩ := List.mem_map.mp hmem
    exact ⟨t, ht, keyOf_inj hkey, rfl⟩
  · rintro ⟨t, ht, rfl, rfl⟩
    refine ⟨(keyOf t.key, contentHash sha1 t.content), (find?_eq_some_iff hn).mpr ⟨?_, rfl⟩, rfl⟩
    rw [storedHashes_eq]
    exact List.mem_map_of_mem ht

/-- A frame row is new or its content hash differs. -/
def changedRow (table : Table collate types) (f : FrameRow types) : Bool :=
  decide (storedHash (storedHashes sha1 table.rows) (keyOf f.key) ≠ some (contentHash sha1 f.content))

theorem changedRow_eq_false (table : Table collate types) (f : FrameRow types) :
    changedRow sha1 table f = false ↔ ∃ t ∈ table.rows, t.key = f.key ∧
      contentHash sha1 t.content = contentHash sha1 f.content := by
  unfold changedRow
  rw [decide_eq_false_iff_not, not_not, storedHash_eq_some]

/-- The frame row's key is stored. -/
def isStored (table : Table collate types) (f : FrameRow types) : Bool :=
  decide (f.key ∈ table.rows.map (·.key))

theorem changedRow_of_not_stored (table : Table collate types) {f : FrameRow types}
    (h : isStored table f = false) : changedRow sha1 table f = true := by
  rw [← Bool.not_eq_false, changedRow_eq_false]
  rintro ⟨t, ht, hkey, -⟩
  exact of_decide_eq_false h (List.mem_map.mpr ⟨t, ht, hkey⟩)

omit [DecidableEq H] in
theorem storedHash_isNone (table : Table collate types) (f : FrameRow types) :
    (storedHash (storedHashes sha1 table.rows) (keyOf f.key)).isNone = !isStored table f := by
  rw [Bool.eq_iff_iff, Option.isNone_iff_eq_none, Option.eq_none_iff_forall_ne_some, Bool.not_eq_true',
    isStored, decide_eq_false_iff_not]
  constructor
  · intro h hmem
    obtain ⟨t, ht, hkey⟩ := List.mem_map.mp hmem
    exact h _ ((storedHash_eq_some sha1 table).mpr ⟨t, ht, hkey, rfl⟩)
  · intro h hash heq
    obtain ⟨t, ht, hkey, -⟩ := (storedHash_eq_some sha1 table).mp heq
    exact h (List.mem_map.mpr ⟨t, ht, hkey⟩)

theorem diffRow_eq (table : Table collate types) (d : Diff) (f : FrameRow types) :
    diffRow sha1 (storedHashes sha1 table.rows) d f =
      { mask := d.mask ++ [changedRow sha1 table f]
        keys := if changedRow sha1 table f then d.keys ++ [keyOf f.key] else d.keys
        new := if changedRow sha1 table f && !isStored table f then d.new ++ [keyOf f.key] else d.new
        seen := d.seen ++ [keyOf f.key] } := by
  rw [← storedHash_isNone sha1]
  rfl

theorem diff_eq (table : Table collate types) (rows : List (FrameRow types)) :
    rows.foldl (diffRow sha1 (storedHashes sha1 table.rows)) ⟨[], [], [], []⟩ =
      { mask := rows.map (changedRow sha1 table)
        keys := (rows.filter (changedRow sha1 table)).map fun f => keyOf f.key
        new := (rows.filter fun f => changedRow sha1 table f && !isStored table f).map fun f => keyOf f.key
        seen := rows.map fun f => keyOf f.key } := by
  induction rows using List.reverseRecOn with
  | nil => rfl
  | append_singleton rows f ih =>
    rw [List.foldl_append, ih, List.foldl_cons, List.foldl_nil, diffRow_eq]
    have hfilter : ∀ p : FrameRow types → Bool, (rows ++ [f]).filter p =
        rows.filter p ++ if p f then [f] else [] := by
      intro p
      rw [List.filter_append, List.filter_singleton]
      cases p f <;> rfl
    rw [hfilter, hfilter]
    cases hchanged : changedRow sha1 table f <;> cases isStored table f <;> simp [hchanged]

theorem masked_map {α : Type} (p : α → Bool) (xs : List α) : masked (xs.map p) xs = xs.filter p := by
  unfold masked
  induction xs with
  | nil => rfl
  | cons x xs ih =>
    rw [List.map_cons, List.zip_cons_cons, List.filter_cons, List.filter_cons]
    split
    · rw [List.map_cons, ih]
    · exact ih

/-- The frame has the key of a stored row. -/
def inFrame (frame : Frame types) (r : Row types) : Bool := decide (r.key ∈ frame.rows.map (·.key))

theorem mem_map_keyOf {α : Type} (key : α → Key types) {xs : List α} {k : Key types} :
    keyOf k ∈ xs.map (fun x => keyOf (key x)) ↔ k ∈ xs.map key := by
  constructor
  · intro h
    obtain ⟨x, hx, heq⟩ := List.mem_map.mp h
    rw [← keyOf_inj heq]
    exact List.mem_map_of_mem hx
  · intro h
    obtain ⟨x, hx, rfl⟩ := List.mem_map.mp h
    exact List.mem_map.mpr ⟨x, hx, rfl⟩

/-- What `replace_changed` does, in terms of the rows. -/
theorem replaceChanged_eq (store : Nat → Value → Value) (stamp : Value) (table : Table collate types)
    (frame : Frame types) : replaceChanged sha1 store stamp table frame =
      (upsertRows collate store stamp (table.rows.filter (inFrame frame))
          (frame.rows.filter (changedRow sha1 table)),
        { inserted := (frame.rows.filter fun f => !isStored table f).map fun f => keyOf f.key
          updated := (frame.rows.filter fun f => changedRow sha1 table f && isStored table f).map
            fun f => keyOf f.key
          deleted := (table.rows.filter fun r => !inFrame frame r).map fun r => keyOf r.key
          unchanged := (frame.rows.filter fun f => !changedRow sha1 table f).length }) := by
  have hd : (if frame.rows.isEmpty then ⟨[], [], [], []⟩
      else diff sha1 (storedHashes sha1 table.rows) frame : Diff) =
      { mask := frame.rows.map (changedRow sha1 table)
        keys := (frame.rows.filter (changedRow sha1 table)).map fun f => keyOf f.key
        new := (frame.rows.filter fun f => changedRow sha1 table f && !isStored table f).map
          fun f => keyOf f.key
        seen := frame.rows.map fun f => keyOf f.key } := by
    split
    · next hempty =>
      rw [List.isEmpty_iff.mp hempty]
      rfl
    · exact diff_eq sha1 table frame.rows
  have hmissing : (if frame.rows.isEmpty then table.rows.map fun r => keyOf r.key
      else ((storedHashes sha1 table.rows).map Prod.fst).filter fun k =>
        !decide (k ∈ frame.rows.map fun f => keyOf f.key)) =
      (table.rows.filter fun r => !inFrame frame r).map fun r => keyOf r.key := by
    split
    · next hempty =>
      have hall : (table.rows.filter fun r => !inFrame frame r) = table.rows := by
        rw [List.filter_eq_self]
        intro r _
        unfold inFrame
        rw [List.isEmpty_iff.mp hempty]
        simp
      rw [hall]
    · rw [storedHashes_eq, List.map_map, List.filter_map]
      refine congrArg (List.map _) (List.filter_congr fun r _ => ?_)
      show (!decide (keyOf r.key ∈ frame.rows.map fun f => keyOf f.key)) = !inFrame frame r
      unfold inFrame
      rw [decide_eq_decide.mpr (mem_map_keyOf FrameRow.key)]
  have hnew : ∀ f ∈ frame.rows, decide (keyOf f.key ∈ (frame.rows.filter fun f =>
      changedRow sha1 table f && !isStored table f).map fun f => keyOf f.key) =
      (changedRow sha1 table f && !isStored table f) := by
    intro f hf
    rw [Bool.eq_iff_iff, decide_eq_true_eq, mem_map_keyOf FrameRow.key]
    constructor
    · intro h
      obtain ⟨g, hg, hkey⟩ := List.mem_map.mp h
      obtain ⟨hg, hp⟩ := List.mem_filter.mp hg
      rw [← List.inj_on_of_nodup_map frame.nodup hg hf hkey]
      exact hp
    · intro h
      exact List.mem_map_of_mem (List.mem_filter.mpr ⟨hf, h⟩)
  have hkeys : ∀ (p : FrameRow types → Bool) (q : List Norm → Bool),
      (∀ f ∈ frame.rows, q (keyOf f.key) = p f) →
      ((frame.rows.filter (changedRow sha1 table)).map fun f => keyOf f.key).filter q =
        (frame.rows.filter fun f => changedRow sha1 table f && p f).map fun f => keyOf f.key := by
    intro p q hq
    rw [List.filter_map, List.filter_filter]
    refine congrArg (List.map _) (List.filter_congr fun f hf => ?_)
    show (q (keyOf f.key) && _) = _
    rw [hq f hf, Bool.and_comm]
  unfold replaceChanged
  simp only [hd, hmissing, masked_map]
  refine Prod.ext_iff.mpr ⟨?_, ?_⟩
  · have hleft : deleteKeys collate table.rows ((table.rows.filter fun r => !inFrame frame r).map
        fun r => keyOf r.key) = table.rows.filter (inFrame frame) := by
      rw [deleteKeys_eq]
      refine List.filter_congr fun r hr => ?_
      rw [Bool.eq_iff_iff, Bool.not_eq_true', ← Bool.not_eq_true, List.any_eq_true]
      constructor
      · intro h
        by_contra hout
        refine h ⟨keyOf r.key, List.mem_map_of_mem (List.mem_filter.mpr ⟨hr, ?_⟩), keyEquals_iff.mpr rfl⟩
        rw [Bool.not_eq_true] at hout
        rw [hout]
        rfl
      · rintro hin ⟨k, hk, hequals⟩
        obtain ⟨t, ht, rfl⟩ := List.mem_map.mp hk
        have hout := (List.mem_filter.mp ht).2
        rw [Bool.not_eq_true'] at hout
        rw [List.inj_on_of_nodup_map table.nodup hr (List.mem_filter.mp ht).1 (keyEquals_iff.mp hequals),
          hout] at hin
        cases hin
    simp only [hleft]
    split
    · next hnone =>
      rw [List.isEmpty_iff, List.map_eq_nil_iff] at hnone
      rw [hnone]
      rfl
    · rfl
  · refine ChangeSet.mk.injEq .. |>.mpr ⟨?_, ?_, rfl, ?_⟩
    · rw [hkeys _ _ hnew]
      refine congrArg (List.map _) (List.filter_congr fun f _ => ?_)
      cases hstored : isStored table f with
      | true => simp
      | false => simp [changedRow_of_not_stored sha1 table hstored]
    · rw [hkeys (fun f => !(changedRow sha1 table f && !isStored table f)) _ fun f hf => by
        rw [hnew f hf]]
      refine congrArg (List.map _) (List.filter_congr fun f _ => ?_)
      cases changedRow sha1 table f <;> cases isStored table f <;> rfl
    · rw [List.filter_map, List.length_map]
      rfl

/-! ## The same as a rewrite -/

/-- A frame row's key is stored with other values. -/
def differs (store : Nat → Value → Value) (table : Table collate types) (f : FrameRow types) : Bool :=
  table.rows.any fun t => decide (t.key = f.key) && decide (t.content ≠ keep store f.content)

/-- The table mirrors the frame, the change set tells each key once, and only the rows that
changed are stamped. -/
structure Mirrors (store : Nat → Value → Value) (stamp : Value) (table : Table collate types)
    (frame : Frame types) (result : List (Row types) × ChangeSet) : Prop where
  same : ∃ rows, replaceAll collate store stamp frame = some rows ∧
    (result.1.map fun r => (r.key, r.content)).Perm (rows.map fun r => (r.key, r.content))
  inserted : result.2.inserted =
    (frame.rows.filter fun f => !isStored table f).map fun f => keyOf f.key
  updated : result.2.updated = (frame.rows.filter (differs store table)).map fun f => keyOf f.key
  deleted : result.2.deleted =
    (table.rows.filter fun r => !inFrame frame r).map fun r => keyOf r.key
  once : (result.2.inserted ++ result.2.updated ++ result.2.deleted).Nodup
  counts : result.2.inserted.length + result.2.updated.length + result.2.unchanged = frame.rows.length
  kept : ∀ t ∈ table.rows, ∀ f ∈ frame.rows, t.key = f.key → t.content = keep store f.content →
    t ∈ result.1
  stamped : ∀ f ∈ frame.rows, (isStored table f = false ∨ differs store table f = true) →
    written store stamp f ∈ result.1

/-- No two keys of the frame are one to the database. -/
def Separate (collate : String → String) (frame : Frame types) : Prop :=
  (frame.rows.map (FrameRow.weight collate)).Nodup

/-- Where a key is in both, the normal forms agree exactly when the stored values are what
the columns would keep of the frame's. -/
def Tells (store : Nat → Value → Value) (table : Table collate types) (frame : Frame types) : Prop :=
  ∀ t ∈ table.rows, ∀ f ∈ frame.rows, t.key = f.key →
    (contentHash sha1 t.content = contentHash sha1 f.content ↔ t.content = keep store f.content)

section
variable {sha1} {store : Nat → Value → Value} {stamp : Value} {table : Table collate types} {frame : Frame types}

theorem differs_iff {f : FrameRow types} : differs store table f = true ↔
    ∃ t ∈ table.rows, t.key = f.key ∧ t.content ≠ keep store f.content := by
  unfold differs
  rw [List.any_eq_true]
  simp only [Bool.and_eq_true, decide_eq_true_eq]

theorem isStored_iff {f : FrameRow types} :
    isStored table f = true ↔ ∃ t ∈ table.rows, t.key = f.key := by
  unfold isStored
  rw [decide_eq_true_eq, List.mem_map]

theorem inFrame_iff {r : Row types} : inFrame frame r = true ↔ ∃ f ∈ frame.rows, f.key = r.key := by
  unfold inFrame
  rw [decide_eq_true_eq, List.mem_map]

theorem row_unique {t t' : Row types} (ht : t ∈ table.rows) (ht' : t' ∈ table.rows)
    (h : t.key = t'.key) : t = t' := List.inj_on_of_nodup_map (nodup_keys table.nodup) ht ht' h

theorem frame_unique {f f' : FrameRow types} (hf : f ∈ frame.rows) (hf' : f' ∈ frame.rows)
    (h : f.key = f'.key) : f = f' := List.inj_on_of_nodup_map frame.nodup hf hf' h

theorem Separate.key_eq (hs : Separate collate frame) {r : Row types} {f : FrameRow types}
    (hr : inFrame frame r = true) (hf : f ∈ frame.rows)
    (h : r.weight collate = f.weight collate) : r.key = f.key := by
  obtain ⟨g, hg, hgkey⟩ := inFrame_iff.mp hr
  have hsame : g.weight collate = f.weight collate := by rw [← h, FrameRow.weight, hgkey, Row.weight]
  rw [← hgkey, List.inj_on_of_nodup_map hs hg hf hsame]

theorem mem_result (hs : Separate collate frame) (r : Row types) :
    r ∈ (replaceChanged sha1 store stamp table frame).1 ↔
      (∃ f ∈ frame.rows, changedRow sha1 table f = true ∧ r = written store stamp f) ∨
      (r ∈ table.rows ∧ ∃ f ∈ frame.rows, f.key = r.key ∧ changedRow sha1 table f = false) := by
  have hn : ((frame.rows.filter (changedRow sha1 table)).map (FrameRow.weight collate)).Nodup :=
    (List.filter_sublist.map _).nodup hs
  rw [replaceChanged_eq]
  simp only
  rw [mem_upsertRows hn fun f hf r hr h =>
    hs.key_eq (List.mem_filter.mp hr).2 (List.mem_filter.mp hf).1 h]
  refine or_congr ?_ ?_
  · simp only [List.mem_filter, and_assoc]
  · rw [List.mem_filter, and_assoc]
    refine and_congr_right fun _ => ?_
    constructor
    · rintro ⟨hin, hout⟩
      obtain ⟨f, hf, hkey⟩ := inFrame_iff.mp hin
      refine ⟨f, hf, hkey, ?_⟩
      rw [← Bool.not_eq_true]
      intro hchanged
      refine hout (List.mem_map.mpr ⟨f, List.mem_filter.mpr ⟨hf, hchanged⟩, ?_⟩)
      rw [FrameRow.weight, hkey, Row.weight]
    · rintro ⟨f, hf, hkey, hsame⟩
      have hin : inFrame frame r = true := inFrame_iff.mpr ⟨f, hf, hkey⟩
      refine ⟨hin, fun hmem => ?_⟩
      obtain ⟨g, hg, hgkey⟩ := List.mem_map.mp hmem
      obtain ⟨hg, hchanged⟩ := List.mem_filter.mp hg
      rw [frame_unique hg hf ((hs.key_eq hin hg hgkey.symm).symm.trans hkey.symm), hsame] at hchanged
      cases hchanged

theorem nodup_result : ((replaceChanged sha1 store stamp table frame).1.map (·.key)).Nodup := by
  rw [replaceChanged_eq]
  have hweights := @nodup_upsertRows _ collate store stamp _ (frame.rows.filter (changedRow sha1 table))
    ((List.filter_sublist.map _).nodup table.nodup : ((table.rows.filter (inFrame frame)).map _).Nodup)
  exact nodup_keys hweights

theorem changedRow_of_tells (h : Tells sha1 store table frame) {f : FrameRow types}
    (hf : f ∈ frame.rows) :
    changedRow sha1 table f = true ↔ isStored table f = false ∨ differs store table f = true := by
  rw [← not_iff_not, Bool.not_eq_true, changedRow_eq_false, not_or, Bool.not_eq_false, isStored_iff,
    differs_iff]
  constructor
  · rintro ⟨t, ht, hkey, hhash⟩
    refine ⟨⟨t, ht, hkey⟩, ?_⟩
    rintro ⟨t', ht', hkey', hne⟩
    refine hne ?_
    rw [row_unique ht' ht (hkey'.trans hkey.symm)]
    exact (h t ht f hf hkey).mp hhash
  · rintro ⟨⟨t, ht, hkey⟩, hnone⟩
    refine ⟨t, ht, hkey, (h t ht f hf hkey).mpr ?_⟩
    by_contra hne
    exact hnone ⟨t, ht, hkey, hne⟩

theorem mirrors_same (hs : Separate collate frame) (h : Tells sha1 store table frame) :
    ((replaceChanged sha1 store stamp table frame).1.map fun r => (r.key, r.content)).Perm
      ((frame.rows.map (written store stamp)).map fun r => (r.key, r.content)) := by
  have hright : (frame.rows.map (written store stamp)).map (fun r => (r.key, r.content)) =
      frame.rows.map fun f => (f.key, keep store f.content) := by
    rw [List.map_map]
    rfl
  have hpairs : ∀ {α : Type} {xs : List α} (key : α → Key types) (content : α → List Value),
      (xs.map key).Nodup → (xs.map fun x => (key x, content x)).Nodup := by
    intro α xs key content hn
    refine List.Nodup.of_map Prod.fst ?_
    rw [List.map_map]
    exact hn
  rw [hright]
  refine (List.perm_ext_iff_of_nodup (hpairs _ _ nodup_result) (hpairs _ _ frame.nodup)).mpr ?_
  rintro ⟨k, c⟩
  rw [List.mem_map, List.mem_map]
  constructor
  · rintro ⟨r, hr, heq⟩
    rcases (mem_result hs r).mp hr with ⟨f, hf, -, rfl⟩ | ⟨hr, f, hf, hkey, hsame⟩
    · exact ⟨f, hf, heq⟩
    · refine ⟨f, hf, ?_⟩
      obtain ⟨t, ht, htkey, hhash⟩ := (changedRow_eq_false sha1 table f).mp hsame
      rw [← heq, hkey, ← (h t ht f hf htkey).mp hhash, row_unique ht hr (htkey.trans hkey)]
  · rintro ⟨f, hf, heq⟩
    cases hchanged : changedRow sha1 table f with
    | true => exact ⟨_, (mem_result hs _).mpr (.inl ⟨f, hf, hchanged, rfl⟩), heq⟩
    | false =>
      obtain ⟨t, ht, htkey, hhash⟩ := (changedRow_eq_false sha1 table f).mp hchanged
      refine ⟨t, (mem_result hs _).mpr (.inr ⟨ht, f, hf, htkey.symm, hchanged⟩), ?_⟩
      rw [htkey, (h t ht f hf htkey).mp hhash]
      exact heq

theorem keys_nodup {α : Type} {key : α → Key types} {xs : List α} (p : α → Bool)
    (h : (xs.map key).Nodup) : ((xs.filter p).map fun x => keyOf (key x)).Nodup := by
  have hmap : (xs.filter p).map (fun x => keyOf (key x)) = ((xs.filter p).map key).map keyOf := by
    rw [List.map_map]
    rfl
  rw [hmap]
  exact ((List.filter_sublist.map _).nodup h).map keyOf_injective

/-- A key is inserted, updated or deleted. -/
theorem changes_nodup (sha1 : List Norm → H) (store : Nat → Value → Value) (stamp : Value)
    (table : Table collate types) (frame : Frame types) :
    ((replaceChanged sha1 store stamp table frame).2.inserted ++
      (replaceChanged sha1 store stamp table frame).2.updated ++
      (replaceChanged sha1 store stamp table frame).2.deleted).Nodup := by
  rw [replaceChanged_eq]
  refine List.nodup_append'.mpr ⟨List.nodup_append'.mpr ⟨keys_nodup _ frame.nodup,
    keys_nodup _ frame.nodup, ?_⟩, keys_nodup _ (nodup_keys table.nodup), ?_⟩
  · intro k hk hk'
    obtain ⟨f, hf, rfl⟩ := List.mem_map.mp hk
    obtain ⟨g, hg, hkey⟩ := List.mem_map.mp hk'
    obtain ⟨hf, hnew⟩ := List.mem_filter.mp hf
    obtain ⟨hg, hstored⟩ := List.mem_filter.mp hg
    rw [frame_unique hg hf (keyOf_inj hkey)] at hstored
    simp_all
  · intro k hk hk'
    obtain ⟨r, hr, rfl⟩ := List.mem_map.mp hk'
    have hout := (List.mem_filter.mp hr).2
    have hin : inFrame frame r = true := by
      rw [inFrame_iff]
      rcases List.mem_append.mp hk with hk | hk
      all_goals
        obtain ⟨f, hf, hkey⟩ := List.mem_map.mp hk
        exact ⟨f, (List.mem_filter.mp hf).1, keyOf_inj hkey⟩
    rw [hin] at hout
    cases hout

theorem changes_length (sha1 : List Norm → H) (store : Nat → Value → Value) (stamp : Value)
    (table : Table collate types) (frame : Frame types) :
    (replaceChanged sha1 store stamp table frame).2.inserted.length +
      (replaceChanged sha1 store stamp table frame).2.updated.length +
      (replaceChanged sha1 store stamp table frame).2.unchanged = frame.rows.length := by
  rw [replaceChanged_eq]
  simp only [List.length_map]
  induction frame.rows with
  | nil => rfl
  | cons f fs ih =>
    have hfresh := changedRow_of_not_stored sha1 table (f := f)
    cases hstored : isStored table f <;> cases hchanged : changedRow sha1 table f <;>
      simp_all only [List.filter_cons, List.length_cons] <;> simp <;> omega

theorem replaceAll_of_separate (hs : Separate collate frame) :
    replaceAll collate store stamp frame = some (frame.rows.map (written store stamp)) := if_pos hs

theorem Mirrors.separate (hm : Mirrors store stamp table frame (replaceChanged sha1 store stamp table frame)) :
    Separate collate frame := by
  obtain ⟨rows, hrows, -⟩ := hm.same
  by_contra hcollide
  have hnone : replaceAll collate store stamp frame = none := if_neg hcollide
  rw [hnone] at hrows
  cases hrows

/-- A row that hashes alike stays as it is, and one that hashes differently is told as
updated. -/
theorem Mirrors.tells (hm : Mirrors store stamp table frame (replaceChanged sha1 store stamp table frame)) :
    Tells sha1 store table frame := by
  have hs := hm.separate
  obtain ⟨rows, hrows, hperm⟩ := hm.same
  rw [replaceAll_of_separate hs] at hrows
  cases hrows
  intro t ht f hf hkey
  constructor
  · intro hhash
    have hsame := (changedRow_eq_false sha1 table f).mpr ⟨t, ht, hkey, hhash⟩
    have hin : t ∈ (replaceChanged sha1 store stamp table frame).1 :=
      (mem_result hs t).mpr (.inr ⟨ht, f, hf, hkey.symm, hsame⟩)
    have hpair := hperm.mem_iff.mp (List.mem_map_of_mem (f := fun r => (r.key, r.content)) hin)
    obtain ⟨r, hr, heq⟩ := List.mem_map.mp hpair
    obtain ⟨g, hg, rfl⟩ := List.mem_map.mp hr
    obtain ⟨hgkey, hgcontent⟩ := Prod.ext_iff.mp heq
    rw [← frame_unique hg hf (hgkey.trans hkey)]
    exact hgcontent.symm
  · intro hcontent
    by_contra hhash
    have hchanged : changedRow sha1 table f = true := by
      rw [← Bool.not_eq_false, changedRow_eq_false]
      rintro ⟨t', ht', hkey', hhash'⟩
      exact hhash (row_unique ht' ht (hkey'.trans hkey.symm) ▸ hhash')
    have hupdated := hm.updated
    rw [replaceChanged_eq] at hupdated
    have hmem : keyOf f.key ∈ (frame.rows.filter (differs store table)).map fun f => keyOf f.key := by
      rw [← hupdated]
      refine List.mem_map.mpr ⟨f, List.mem_filter.mpr ⟨hf, ?_⟩, rfl⟩
      rw [hchanged, isStored_iff.mpr ⟨t, ht, hkey⟩]
      rfl
    obtain ⟨g, hg, hgkey⟩ := List.mem_map.mp hmem
    obtain ⟨hg, hdiffers⟩ := List.mem_filter.mp hg
    rw [frame_unique hg hf (keyOf_inj hgkey), differs_iff] at hdiffers
    obtain ⟨t', ht', hkey', hne⟩ := hdiffers
    rw [row_unique ht' ht (hkey'.trans hkey.symm)] at hne
    exact hne hcontent

/-- Where the normal forms tell rows apart as the columns do, the rows that are written over
are those that differ. -/
theorem Tells.changed (h : Tells sha1 store table frame) : ∀ f ∈ frame.rows,
    (changedRow sha1 table f && isStored table f) = differs store table f := by
  intro f hf
  rw [Bool.eq_iff_iff, Bool.and_eq_true, changedRow_of_tells h hf]
  constructor
  · rintro ⟨hnew | hdiffers, hstored⟩
    · rw [hnew] at hstored
      cases hstored
    · exact hdiffers
  · intro hdiffers
    obtain ⟨t, ht, hkey, -⟩ := differs_iff.mp hdiffers
    exact ⟨.inr hdiffers, isStored_iff.mpr ⟨t, ht, hkey⟩⟩

theorem mirrors_of_tells (hs : Separate collate frame) (h : Tells sha1 store table frame) :
    Mirrors store stamp table frame (replaceChanged sha1 store stamp table frame) := by
  have hupdated : (replaceChanged sha1 store stamp table frame).2.updated =
      (frame.rows.filter (differs store table)).map fun f => keyOf f.key := by
    rw [replaceChanged_eq]
    simp only
    rw [List.filter_congr h.changed]
  have hinserted : (replaceChanged sha1 store stamp table frame).2.inserted =
      (frame.rows.filter fun f => !isStored table f).map fun f => keyOf f.key := by
    rw [replaceChanged_eq]
  have hdeleted : (replaceChanged sha1 store stamp table frame).2.deleted =
      (table.rows.filter fun r => !inFrame frame r).map fun r => keyOf r.key := by
    rw [replaceChanged_eq]
  refine ⟨⟨_, replaceAll_of_separate hs, mirrors_same hs h⟩, hinserted, hupdated, hdeleted,
    changes_nodup .., changes_length .., ?_, ?_⟩
  · intro t ht f hf hkey hcontent
    refine (mem_result hs t).mpr (.inr ⟨ht, f, hf, hkey.symm, ?_⟩)
    exact (changedRow_eq_false sha1 table f).mpr ⟨t, ht, hkey, (h t ht f hf hkey).mpr hcontent⟩
  · intro f hf hwhen
    exact (mem_result hs _).mpr (.inl ⟨f, hf, (changedRow_of_tells h hf).mpr hwhen, rfl⟩)

/-- **A diff that is a rewrite**, exactly where the frame's keys are different keys of the
database and the normal forms tell rows apart as the columns do. -/
theorem replaceChanged_mirrors_iff (sha1 : List Norm → H) (store : Nat → Value → Value) (stamp : Value)
    (table : Table collate types) (frame : Frame types) :
    Mirrors store stamp table frame (replaceChanged sha1 store stamp table frame) ↔
      Separate collate frame ∧ Tells sha1 store table frame := by
  constructor
  · intro hm
    exact ⟨hm.separate, hm.tells⟩
  · rintro ⟨hs, h⟩
    exact mirrors_of_tells hs h

end

end

/-! ## A stale row -/

def invoiceKey : Key [.int] := ⟨[.int 1], rfl⟩

/-- A table of one row. -/
def storedAt (x : ℚ) : Table id [.int] := ⟨[⟨invoiceKey, [.float x], .none⟩], List.nodup_singleton _⟩

/-- A frame of one row. -/
def frameAt (x : ℚ) : Frame [.int] := ⟨[⟨invoiceKey, [.float x]⟩], List.nodup_singleton _⟩

/-- A difference in the tenth decimal is not written. -/
theorem replaceChanged_stale : ¬ Mirrors (fun _ v => v) .none (storedAt (1 / 10 ^ 10))
    (frameAt (3 / 10 ^ 10))
    (replaceChanged id (fun _ v => v) .none (storedAt (1 / 10 ^ 10)) (frameAt (3 / 10 ^ 10))) := by
  intro h
  have hin : (⟨invoiceKey, [.float (3 / 10 ^ 10)], .none⟩ : Row [.int]) ∈
      (replaceChanged id (fun _ v => v) .none (storedAt (1 / 10 ^ 10)) (frameAt (3 / 10 ^ 10))).1 :=
    h.stamped ⟨invoiceKey, [.float (3 / 10 ^ 10)]⟩ (List.mem_singleton.mpr rfl) (.inr (by decide +kernel))
  revert hin
  decide +kernel

end SalesDashboard.EtlPlatform.Load
