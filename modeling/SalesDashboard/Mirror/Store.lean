import SalesDashboard.Lib.Counts
import Mathlib

/-! The Odoo mirror (`mirror.py`): the stored records and display names, the
transactions of one sync, and what each of them counts. A payload stands for its
hash; two payloads are the same when their hashes are. -/

namespace SalesDashboard.Mirror

/-! ## The specs -/

structure MirrorSpec where
  model : String
  perCompany : Bool := false
  idCheckEveryCycle : Bool := false
  deriving DecidableEq, Repr

def SPECS : List MirrorSpec :=
  [{ model := "sale.order", idCheckEveryCycle := true },
    { model := "sale.order.line" },
    { model := "stock.picking", idCheckEveryCycle := true },
    { model := "stock.move" },
    { model := "crm.lead", idCheckEveryCycle := true },
    { model := "crm.stage" },
    { model := "crm.lost.reason" },
    { model := "product.product", perCompany := true },
    { model := "product.supplierinfo", perCompany := true, idCheckEveryCycle := true },
    { model := "stock.quant", idCheckEveryCycle := true },
    { model := "stock.location" },
    { model := "res.company" },
    { model := "uom.uom" }]

def USER_MODEL : String := "res.users"

/-- A model and its company context; `dataset_name` names these. -/
structure Dataset where
  model : String
  ctx : Nat
  deriving DecidableEq, Repr

def contexts (companies : List Nat) (spec : MirrorSpec) : List Nat :=
  if spec.perCompany then companies else [0]

/-- What `run` walks through, in order. -/
def plan (companies : List Nat) : List (MirrorSpec × Nat) :=
  SPECS.flatMap fun spec => (contexts companies spec).map fun ctx => (spec, ctx)

/-! ## The stored tables -/

structure Tables (P : Type) where
  records : List ((Dataset × Nat) × P)
  names : List ((String × Nat) × Option String)
  deriving DecidableEq, Repr

/-- A record read twice keeps the last read. -/
def byId {V : Type} (reads : List (Nat × V)) : List (Nat × V) :=
  reads.foldl (fun acc r =>
    if acc.any fun a => decide (a.1 = r.1) then acc.map fun a => if a.1 = r.1 then r else a
    else acc ++ [r]) []

def stored {K V : Type} [DecidableEq K] (key : K) (rows : List (K × V)) : Option V :=
  (rows.find? fun r => decide (r.1 = key)).map (·.2)

def write {K V : Type} [DecidableEq K] (rows : List (K × V)) (row : K × V) : List (K × V) :=
  if rows.any fun r => decide (r.1 = row.1) then
    rows.map fun r => if r.1 = row.1 then row else r
  else rows ++ [row]

/-- `upsert` and `upsert_names`: the rows that are new or differ are written, and
their ids returned. -/
def upsertRows {K V : Type} [DecidableEq K] [DecidableEq V] (key : Nat → K)
    (reads : List (Nat × V)) (rows : List (K × V)) : List (K × V) × List Nat :=
  let changed := (byId reads).filter fun r => decide (stored (key r.1) rows ≠ some r.2)
  ((changed.map fun r => (key r.1, r.2)).foldl write rows, changed.map (·.1))

variable {P : Type} [DecidableEq P]

def upsert (ds : Dataset) (reads : List (Nat × P)) (records : List ((Dataset × Nat) × P)) :
    List ((Dataset × Nat) × P) × List Nat :=
  upsertRows (fun id => (ds, id)) reads records

def upsertNames (model : String) (reads : List (Nat × Option String))
    (names : List ((String × Nat) × Option String)) :
    List ((String × Nat) × Option String) × List Nat :=
  upsertRows (fun id => (model, id)) reads names

def delete (ds : Dataset) (ids : List Nat) (records : List ((Dataset × Nat) × P)) :
    List ((Dataset × Nat) × P) × List Nat :=
  (records.filter fun r => decide (¬ (r.1.1 = ds ∧ r.1.2 ∈ ids)), ids)

def mirroredIds (ds : Dataset) (records : List ((Dataset × Nat) × P)) : List Nat :=
  (records.filter fun r => decide (r.1.1 = ds)).map (·.1.2)

/-! ## The transactions -/

/-- What Odoo answers to the reads of one dataset. -/
structure SpecRead (P : Type) where
  records : List (Nat × P)
  odooIds : List Nat := []
  missing : List (Nat × P) := []
  audit : List (Nat × P) := []
  deriving DecidableEq, Repr

/-- `_sync_spec`: the records, the changed ids and the deleted ids. -/
def syncSpec (idCheck fullCheck : Bool) (ds : Dataset) (read : SpecRead P)
    (records : List ((Dataset × Nat) × P)) :
    List ((Dataset × Nat) × P) × List Nat × List Nat :=
  let (records₁, changed) := upsert ds read.records records
  if idCheck then
    let mine := mirroredIds ds records₁
    let (records₂, deleted) := delete ds (mine.filter (· ∉ read.odooIds)) records₁
    let (records₃, unseen) :=
      if (read.odooIds.filter (· ∉ mine)).isEmpty then (records₂, [])
      else upsert ds read.missing records₂
    let (records₄, audited) :=
      if fullCheck then upsert ds read.audit records₃ else (records₃, [])
    (records₄, changed ++ unseen ++ audited, deleted)
  else (records₁, changed, [])

/-- The counters of the run; `dataset_name` keys the first two. -/
structure SyncResult where
  changed : List (Dataset × Nat) := []
  deleted : List (Dataset × Nat) := []
  namesChanged : List (String × Nat) := []
  deriving DecidableEq, Repr

def SyncResult.anyChange (r : SyncResult) : Bool :=
  Counts.total r.changed + Counts.total r.deleted + Counts.total r.namesChanged != 0

/-- What the run records for a dataset it has synced. -/
def SyncResult.recordSpec (r : SyncResult) (ds : Dataset) (changed deleted : List Nat) :
    SyncResult :=
  { r with
    changed := Counts.set ds changed.dedup.length r.changed
    deleted := Counts.set ds deleted.length r.deleted }

def SyncResult.addChanged (r : SyncResult) (ds : Dataset) (n : Nat) : SyncResult :=
  { r with changed := Counts.set ds (Counts.get ds r.changed + n) r.changed }

def SyncResult.addDeleted (r : SyncResult) (ds : Dataset) (n : Nat) : SyncResult :=
  { r with deleted := Counts.set ds (Counts.get ds r.deleted + n) r.deleted }

def SyncResult.setNames (r : SyncResult) (model : String) (n : Nat) : SyncResult :=
  { r with namesChanged := Counts.set model n r.namesChanged }

/-- One deletion or re-read of the rules; which ones there are is up to Odoo. -/
inductive RuleOp (P : Type)
  | removeChildren (child : String) (ids : List Nat)
  | reread (model : String) (reads : List (Nat × List (Nat × P)))

/-- `_reread`: the records, and the ids that changed in any company. -/
def reread (model : String) (reads : List (Nat × List (Nat × P)))
    (records : List ((Dataset × Nat) × P)) : List ((Dataset × Nat) × P) × List Nat :=
  reads.foldl (fun (records, changed) (ctx, read) =>
    let (records', ids) := upsert ⟨model, ctx⟩ read records
    (records', changed ++ ids)) (records, [])

def ruleOp (records : List ((Dataset × Nat) × P)) (result : SyncResult) :
    RuleOp P → List ((Dataset × Nat) × P) × SyncResult
  | .removeChildren child ids =>
      let (records', removed) := delete ⟨child, 0⟩ ids records
      (records', if removed.isEmpty then result
        else result.addDeleted ⟨child, 0⟩ removed.length)
  | .reread model reads =>
      let (records', changed) := reread model reads records
      (records', if changed.isEmpty then result
        else result.addChanged ⟨model, 0⟩ changed.dedup.length)

def rules (ops : List (RuleOp P)) (records : List ((Dataset × Nat) × P)) (result : SyncResult) :
    List ((Dataset × Nat) × P) × SyncResult :=
  ops.foldl (fun (records, result) op => ruleOp records result op) (records, result)

/-- The display names of one model; a read that fails is reported and skipped. -/
def namesOf (names : List ((String × Nat) × Option String)) (result : SyncResult)
    (read : String × Option (List (Nat × Option String))) :
    List ((String × Nat) × Option String) × SyncResult :=
  match read.2 with
  | none => (names, result)
  | some reads =>
      let (names', changed) := upsertNames read.1 reads names
      (names', result.setNames read.1 changed.length)

/-- Names that follow a renamed record of another model. -/
def followNames (names : List ((String × Nat) × Option String)) (result : SyncResult)
    (read : String × List (Nat × Option String)) :
    List ((String × Nat) × Option String) × SyncResult :=
  let (names', changed) := upsertNames read.1 read.2 names
  (names', result.setNames read.1 (Counts.get read.1 result.namesChanged + changed.length))

def syncNames (reads : List (String × Option (List (Nat × Option String))))
    (follows : List (String × List (Nat × Option String)))
    (names : List ((String × Nat) × Option String)) (result : SyncResult) :
    List ((String × Nat) × Option String) × SyncResult :=
  follows.foldl (fun (names, result) read => followNames names result read)
    (reads.foldl (fun (names, result) read => namesOf names result read) (names, result))

/-! ## What is written is counted -/

def SyncResult.count (r : SyncResult) : Nat :=
  Counts.total r.changed + Counts.total r.deleted + Counts.total r.namesChanged

theorem SyncResult.anyChange_iff {r : SyncResult} : r.anyChange = true ↔ 0 < r.count := by
  unfold SyncResult.anyChange SyncResult.count
  rw [bne_iff_ne, Nat.pos_iff_ne_zero]

/-- A step of the sync from one content to another: what it writes it counts, and it
takes back nothing counted before. -/
structure Counted {T : Type} (rows rows' : T) (r r' : SyncResult) : Prop where
  le : r.count ≤ r'.count
  lt : rows' ≠ rows → r.count < r'.count

theorem Counted.refl {T : Type} (rows : T) (r : SyncResult) : Counted rows rows r r :=
  ⟨Nat.le_refl _, fun h => absurd rfl h⟩

theorem Counted.trans {T : Type} {rows rows₁ rows₂ : T} {r r₁ r₂ : SyncResult}
    (h : Counted rows rows₁ r r₁) (h' : Counted rows₁ rows₂ r₁ r₂) : Counted rows rows₂ r r₂ where
  le := Nat.le_trans h.le h'.le
  lt hne := by
    by_cases hmid : rows₁ = rows
    · exact Nat.lt_of_le_of_lt h.le (h'.lt (hmid ▸ hne))
    · exact Nat.lt_of_lt_of_le (h.lt hmid) h'.le

theorem Counted.map {T U : Type} (f : T → U) {rows rows' : T} {r r' : SyncResult}
    (h : Counted rows rows' r r') : Counted (f rows) (f rows') r r' :=
  ⟨h.le, fun hne => h.lt fun heq => hne (congrArg f heq)⟩

omit [DecidableEq P] in
theorem delete_nil (ds : Dataset) (records : List ((Dataset × Nat) × P)) :
    (delete ds [] records).1 = records := by
  unfold delete
  exact List.filter_eq_self.mpr fun r _ => by simp

theorem upsertRows_nil {K V : Type} [DecidableEq K] [DecidableEq V] {key : Nat → K}
    {reads : List (Nat × V)} {rows : List (K × V)} (h : (upsertRows key reads rows).2 = []) :
    (upsertRows key reads rows).1 = rows := by
  unfold upsertRows at h ⊢
  simp only [List.map_eq_nil_iff] at h
  simp only [h, List.map_nil, List.foldl_nil]

theorem syncSpec_nil {idCheck fullCheck : Bool} {ds : Dataset} {read : SpecRead P}
    {records : List ((Dataset × Nat) × P)}
    (hc : (syncSpec idCheck fullCheck ds read records).2.1 = [])
    (hd : (syncSpec idCheck fullCheck ds read records).2.2 = []) :
    (syncSpec idCheck fullCheck ds read records).1 = records := by
  unfold syncSpec at hc hd ⊢
  cases idCheck with
  | false => exact upsertRows_nil hc
  | true =>
    simp only [if_true, List.append_eq_nil_iff] at hc hd ⊢
    obtain ⟨⟨h₁, h₂⟩, h₃⟩ := hc
    have hfirst : (upsert ds read.records records).1 = records := upsertRows_nil h₁
    have hgone : (mirroredIds ds (upsert ds read.records records).1).filter
        (· ∉ read.odooIds) = [] := hd
    rw [hfirst] at hgone h₂ h₃ ⊢
    simp only [hgone, delete_nil] at h₂ h₃ ⊢
    have hunseen : (if (read.odooIds.filter (· ∉ mirroredIds ds records)).isEmpty = true
        then (records, []) else upsert ds read.missing records).1 = records := by
      split at h₂
      · next he => rw [if_pos he]
      · next he =>
        rw [if_neg he]
        exact upsertRows_nil h₂
    rw [hunseen] at h₃ ⊢
    split at h₃
    · next hf =>
      rw [if_pos hf]
      exact upsertRows_nil h₃
    · next hf => rw [if_neg hf]

theorem dedup_length_pos {ids : List Nat} (h : ids ≠ []) : 0 < ids.dedup.length := by
  obtain ⟨id, rest, rfl⟩ := List.exists_cons_of_ne_nil h
  exact List.length_pos_of_mem (List.mem_dedup.mpr List.mem_cons_self)

theorem syncSpec_counted {idCheck fullCheck : Bool} {ds : Dataset} {read : SpecRead P}
    {records records' : List ((Dataset × Nat) × P)} {changed deleted : List Nat} {r : SyncResult}
    (hc : ∀ e ∈ r.changed, e.1 ≠ ds) (hd : ∀ e ∈ r.deleted, e.1 ≠ ds)
    (h : syncSpec idCheck fullCheck ds read records = (records', changed, deleted)) :
    Counted records records' r (r.recordSpec ds changed deleted) := by
  have hcount : (r.recordSpec ds changed deleted).count =
      r.count + changed.dedup.length + deleted.length := by
    simp only [SyncResult.count, SyncResult.recordSpec, Counts.total_assign _ hc,
      Counts.total_assign _ hd]
    omega
  refine ⟨by omega, fun hne => ?_⟩
  have hsome : changed ≠ [] ∨ deleted ≠ [] := by
    by_contra hnone
    rw [not_or, not_not, not_not] at hnone
    apply hne
    have hrec := syncSpec_nil (by rw [h]; exact hnone.1) (by rw [h]; exact hnone.2)
    rwa [h] at hrec
  rcases hsome with hsome | hsome
  · have := dedup_length_pos hsome
    omega
  · have := List.length_pos_of_ne_nil hsome
    omega

theorem reread_nil {model : String} {reads : List (Nat × List (Nat × P))}
    {records : List ((Dataset × Nat) × P)} (h : (reread model reads records).2 = []) :
    (reread model reads records).1 = records := by
  unfold reread at h ⊢
  -- the ids gathered so far are part of the result
  have hall : ∀ (acc : List Nat) (rows : List ((Dataset × Nat) × P)),
      (reads.foldl (fun (records, changed) (ctx, read) =>
        let (records', ids) := upsert ⟨model, ctx⟩ read records
        (records', changed ++ ids)) (rows, acc)).2 = [] →
      acc = [] ∧ (reads.foldl (fun (records, changed) (ctx, read) =>
        let (records', ids) := upsert ⟨model, ctx⟩ read records
        (records', changed ++ ids)) (rows, acc)).1 = rows := by
    clear h
    induction reads with
    | nil => exact fun acc rows h => ⟨h, rfl⟩
    | cons read reads ih =>
      intro acc rows h
      obtain ⟨hacc, hrows⟩ := ih _ _ h
      obtain ⟨rfl, hids⟩ := List.append_eq_nil_iff.mp hacc
      exact ⟨rfl, hrows.trans (upsertRows_nil hids)⟩
  exact (hall [] records h).2

@[simp]
theorem count_addChanged (r : SyncResult) (ds : Dataset) (n : Nat) :
    (r.addChanged ds n).count = r.count + n := by
  simp only [SyncResult.count, SyncResult.addChanged, Counts.total_add]
  omega

@[simp]
theorem count_addDeleted (r : SyncResult) (ds : Dataset) (n : Nat) :
    (r.addDeleted ds n).count = r.count + n := by
  simp only [SyncResult.count, SyncResult.addDeleted, Counts.total_add]
  omega

theorem ruleOp_counted (records : List ((Dataset × Nat) × P)) (r : SyncResult) (op : RuleOp P) :
    Counted records (ruleOp records r op).1 r (ruleOp records r op).2 := by
  cases op with
  | removeChildren child ids =>
    cases ids with
    | nil => exact ⟨Nat.le_refl _, fun hne => absurd (delete_nil _ _) hne⟩
    | cons id ids =>
      have hcount : r.count < (r.addDeleted ⟨child, 0⟩ (id :: ids).length).count := by
        rw [count_addDeleted, List.length_cons]
        omega
      exact ⟨Nat.le_of_lt hcount, fun _ => hcount⟩
  | reread model reads =>
    by_cases hnil : (reread model reads records).2 = []
    · have hresult : (ruleOp records r (.reread model reads)).2 = r :=
        if_pos (List.isEmpty_iff.mpr hnil)
      rw [hresult]
      exact ⟨Nat.le_refl _, fun hne => absurd (reread_nil hnil) hne⟩
    · have hresult : (ruleOp records r (.reread model reads)).2 =
          r.addChanged ⟨model, 0⟩ (reread model reads records).2.dedup.length :=
        if_neg fun h => hnil (List.isEmpty_iff.mp h)
      have hpos := dedup_length_pos hnil
      rw [hresult]
      exact ⟨by rw [count_addChanged]; omega, fun _ => by rw [count_addChanged]; omega⟩

theorem rules_counted (ops : List (RuleOp P)) (records : List ((Dataset × Nat) × P))
    (r : SyncResult) : Counted records (rules ops records r).1 r (rules ops records r).2 := by
  induction ops generalizing records r with
  | nil => exact .refl _ _
  | cons op ops ih => exact (ruleOp_counted records r op).trans (ih _ _)

theorem namesOf_counted {names : List ((String × Nat) × Option String)} {r : SyncResult}
    {read : String × Option (List (Nat × Option String))}
    (h : ∀ e ∈ r.namesChanged, e.1 ≠ read.1) :
    Counted names (namesOf names r read).1 r (namesOf names r read).2 := by
  obtain ⟨model, answer⟩ := read
  cases answer with
  | none => exact .refl _ _
  | some reads =>
    have hcount : (namesOf names r (model, some reads)).2.count =
        r.count + (upsertNames model reads names).2.length := by
      simp only [namesOf, SyncResult.count, SyncResult.setNames, Counts.total_assign _ h]
      omega
    refine ⟨by omega, fun hne => ?_⟩
    have hsome : (upsertNames model reads names).2 ≠ [] := fun hnil => hne (upsertRows_nil hnil)
    have := List.length_pos_of_ne_nil hsome
    omega

theorem followNames_counted (names : List ((String × Nat) × Option String)) (r : SyncResult)
    (read : String × List (Nat × Option String)) :
    Counted names (followNames names r read).1 r (followNames names r read).2 := by
  have hcount : (followNames names r read).2.count =
      r.count + (upsertNames read.1 read.2 names).2.length := by
    simp only [followNames, SyncResult.count, SyncResult.setNames, Counts.total_add]
    omega
  refine ⟨by omega, fun hne => ?_⟩
  have hsome : (upsertNames read.1 read.2 names).2 ≠ [] := fun hnil => hne (upsertRows_nil hnil)
  have := List.length_pos_of_ne_nil hsome
  omega

/-- The models whose names are read are a set, so no count is overwritten. -/
theorem syncNames_counted {reads : List (String × Option (List (Nat × Option String)))}
    (follows : List (String × List (Nat × Option String)))
    {names : List ((String × Nat) × Option String)} {r : SyncResult}
    (hn : (reads.map (·.1)).Nodup) (h : r.namesChanged = []) :
    Counted names (syncNames reads follows names r).1 r (syncNames reads follows names r).2 := by
  have hfollow : ∀ (names : List ((String × Nat) × Option String)) (r : SyncResult),
      Counted names
        (follows.foldl (fun (names, result) read => followNames names result read) (names, r)).1 r
        (follows.foldl (fun (names, result) read => followNames names result read)
          (names, r)).2 := by
    induction follows with
    | nil => exact fun _ _ => .refl _ _
    | cons read follows ih =>
      exact fun names r => (followNames_counted names r read).trans (ih _ _)
  have hreads : ∀ (names : List ((String × Nat) × Option String)) (r : SyncResult),
      (∀ e ∈ r.namesChanged, e.1 ∉ reads.map (·.1)) →
      Counted names
        (reads.foldl (fun (names, result) read => namesOf names result read) (names, r)).1 r
        (reads.foldl (fun (names, result) read => namesOf names result read) (names, r)).2 := by
    clear h hfollow
    induction reads with
    | nil => exact fun _ _ _ => .refl _ _
    | cons read reads ih =>
      intro names r hkeys
      rw [List.map_cons, List.nodup_cons] at hn
      have hfirst : ∀ e ∈ r.namesChanged, e.1 ≠ read.1 := fun e he heq =>
        hkeys e he (heq ▸ List.mem_cons_self)
      refine (namesOf_counted hfirst).trans (ih hn.2 _ _ ?_)
      intro e he
      have hold : e.1 = read.1 ∨ e ∈ r.namesChanged := by
        split at he
        · exact .inr he
        · exact Counts.mem_set he
      rcases hold with heq | hold
      · rw [heq]
        exact hn.1
      · exact fun hmem => hkeys e hold (List.mem_cons_of_mem _ hmem)
  exact (hreads names r (by rw [h]; exact fun _ h => by cases h)).trans (hfollow _ _)

end SalesDashboard.Mirror
