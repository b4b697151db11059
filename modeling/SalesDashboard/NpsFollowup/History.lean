import SalesDashboard.NpsFollowup.Cases

/-! Loads and edits in any order: one case for each rating that was a detractor, flags
that say what the last load saw, and an audit that leads to the flag. -/

namespace SalesDashboard.NpsFollowup
open Tachometer

/-! ## Events -/

/-- The history fields of an edit. -/
inductive EditField
  | stage | reason | reasonNote | owner | contactedAt | resolvedAt | rootCause | actionTaken | notes
  deriving DecidableEq, Repr

def EditField.name : EditField → String
  | .stage => "stage"
  | .reason => "reason"
  | .reasonNote => "reason_note"
  | .owner => "owner"
  | .contactedAt => "contacted_at"
  | .resolvedAt => "resolved_at"
  | .rootCause => "root_cause"
  | .actionTaken => "action_taken"
  | .notes => "notes"

structure EditChange where
  field : EditField
  oldValue : Option String
  newValue : Option String

inductive Event
  | load (fact : Fact) (now : Nat) (start : Option Date)
  | edit (caseId : Nat) (manual : Manual) (changedBy : Nat) (changedAt : Nat) (changes : List EditChange)

/-- A load replaces the ratings and keeps the cases in step; an edit writes the manual
fields of a case and its history. -/
def apply (db : Db) : Event → Db
  | .load fact now start => (syncCases { db with fact } now start).1
  | .edit caseId manual changedBy changedAt changes =>
    { db with
      cases := updateCase db.cases caseId fun c => { c with manual }
      audit := db.audit ++ changes.map fun ch =>
        ⟨caseId, some changedBy, changedAt, ch.field.name, ch.oldValue, ch.newValue⟩ }

/-- The tables as the migrations leave them. -/
def initial (withStage : Bool) (fact : Fact) : Db :=
  ⟨if withStage then .stage0066 else .cases0052, fact, [], 1, []⟩

def run (db : Db) (events : List Event) : Db := events.foldl apply db

/-- A rating is a detractor in a fact table. -/
def Fact.detractor (fact : Fact) (responseId : Int) : Prop :=
  ∃ f ∈ fact.rows, f.responseId = responseId ∧ f.npsLevel = DETRACTOR

/-- A load with a start date saw the rating as a detractor. -/
def Event.saw (responseId : Int) : Event → Prop
  | .load fact _ (some _) => fact.detractor responseId
  | _ => False

/-! ## The audit of a case -/

/-- The `source_changed` rows of a case, in order. -/
def changesOf (audit : List AuditRow) (caseId : Nat) : List AuditRow :=
  audit.filter fun r => decide (r.caseId = caseId) && decide (r.field = SOURCE_CHANGED)

/-- Each row starts where the one before ended. -/
def replay (rows : List AuditRow) : Option (Option String) :=
  rows.foldlM (fun reason r => if r.oldValue = reason then some r.newValue else none) none

theorem changesOf_append (audit audit' : List AuditRow) (caseId : Nat) :
    changesOf (audit ++ audit') caseId = changesOf audit caseId ++ changesOf audit' caseId :=
  List.filter_append ..

theorem EditField.name_ne (field : EditField) : field.name ≠ SOURCE_CHANGED := by
  cases field <;> decide

theorem changesOf_edit (caseId : Nat) (changedBy changedAt : Nat) (changes : List EditChange) (id : Nat) :
    changesOf (changes.map fun ch => (⟨caseId, some changedBy, changedAt, ch.field.name, ch.oldValue,
      ch.newValue⟩ : AuditRow)) id = [] := by
  unfold changesOf
  rw [List.filter_eq_nil_iff]
  intro r hr
  obtain ⟨ch, -, rfl⟩ := List.mem_map.mp hr
  simp [ch.field.name_ne]

theorem replay_append_singleton {rows : List AuditRow} {reason : Option String} {r : AuditRow}
    (h : replay rows = some reason) (hr : r.oldValue = reason) :
    replay (rows ++ [r]) = some r.newValue := by
  unfold replay at h ⊢
  rw [List.foldlM_append, h]
  simp [hr]

/-! ## One load -/

theorem mem_missing {fact : Fact} {cases : List Case} {f : Response} :
    f ∈ missing fact cases ↔
      f ∈ fact.rows ∧ f.npsLevel = DETRACTOR ∧ f.responseId ∉ cases.map (·.responseId) := by
  unfold missing
  rw [List.mem_filter, Bool.and_eq_true, Bool.not_eq_true', decide_eq_true_eq, decide_eq_false_iff_not]

theorem levelOf_eq_some {fact : Fact} {responseId level : Int} :
    levelOf fact responseId = some level ↔
      ∃ f ∈ fact.rows, f.responseId = responseId ∧ f.npsLevel = level := by
  unfold levelOf
  rw [Option.map_eq_some_iff]
  constructor
  · rintro ⟨f, hf, rfl⟩
    obtain ⟨hmem, hid⟩ := (Keyed.find?_eq_some_iff fact.nodup).mp hf
    exact ⟨f, hmem, hid, rfl⟩
  · rintro ⟨f, hmem, hid, rfl⟩
    exact ⟨f, (Keyed.find?_eq_some_iff fact.nodup).mpr ⟨hmem, hid⟩, rfl⟩

theorem levelOf_eq_none {fact : Fact} {responseId : Int} :
    levelOf fact responseId = none ↔ responseId ∉ fact.rows.map (·.responseId) := by
  unfold levelOf
  rw [Option.map_eq_none_iff, List.find?_eq_none, List.mem_map]
  constructor
  · rintro h ⟨f, hf, hid⟩
    exact h f hf (decide_eq_true hid)
  · intro h f hf hid
    exact h ⟨f, hf, of_decide_eq_true hid⟩

theorem reasonOf_eq_none {fact : Fact} {responseId : Int} :
    reasonOf (levelOf fact responseId) = none ↔ fact.detractor responseId := by
  unfold Fact.detractor
  rw [← levelOf_eq_some]
  unfold reasonOf
  cases levelOf fact responseId with
  | none => simp
  | some level => by_cases h : level = DETRACTOR <;> simp [h]

theorem gone_ne : GONE ≠ NOT_DETRACTOR := by decide

theorem reasonOf_eq_gone {fact : Fact} {responseId : Int} :
    reasonOf (levelOf fact responseId) = some GONE ↔ responseId ∉ fact.rows.map (·.responseId) := by
  rw [← levelOf_eq_none]
  unfold reasonOf
  cases levelOf fact responseId with
  | none => simp
  | some level =>
    have hne := gone_ne.symm
    by_cases h : level = DETRACTOR <;> simp [h, hne]

theorem reasonOf_eq_not {fact : Fact} {responseId : Int} :
    reasonOf (levelOf fact responseId) = some NOT_DETRACTOR ↔
      ∃ f ∈ fact.rows, f.responseId = responseId ∧ f.npsLevel ≠ DETRACTOR := by
  have hlevel : (∃ f ∈ fact.rows, f.responseId = responseId ∧ f.npsLevel ≠ DETRACTOR) ↔
      ∃ level, levelOf fact responseId = some level ∧ level ≠ DETRACTOR := by
    constructor
    · rintro ⟨f, hf, hid, hne⟩
      exact ⟨_, levelOf_eq_some.mpr ⟨f, hf, hid, rfl⟩, hne⟩
    · rintro ⟨level, hlevel, hne⟩
      obtain ⟨f, hf, hid, rfl⟩ := levelOf_eq_some.mp hlevel
      exact ⟨f, hf, hid, hne⟩
  rw [hlevel]
  unfold reasonOf
  cases levelOf fact responseId with
  | none => simp [gone_ne]
  | some level => by_cases h : level = DETRACTOR <;> simp [h]

/-- The flag of a case says whether it has a reason. -/
def Case.Consistent (c : Case) : Prop := c.sourceChanged = c.sourceChangeReason.isSome

theorem refresh_consistent {now : Nat} {fact : Fact} {c : Case} (h : c.Consistent) :
    (refresh now fact c).Consistent ∧
      (refresh now fact c).sourceChangeReason = reasonOf (levelOf fact c.responseId) := by
  unfold Case.Consistent at h ⊢
  unfold refresh
  cases hreason : reasonOf (levelOf fact c.responseId) with
  | none =>
    simp only
    split
    · exact ⟨rfl, rfl⟩
    · next hflag =>
      rw [h, Bool.not_eq_true, Option.isSome_eq_false_iff, Option.isNone_iff_eq_none] at hflag
      exact ⟨h, hflag⟩
  | some reason =>
    simp only
    split
    · exact ⟨rfl, rfl⟩
    · next hsame =>
      rw [Bool.or_eq_true, not_or, Bool.not_eq_true', decide_eq_true_eq, not_not] at hsame
      exact ⟨h, hsame.2⟩

/-- The audit says what changed, and says nothing where nothing changed. -/
theorem auditOf_cases (now : Nat) (fact : Fact) {c : Case} (h : c.Consistent) :
    (auditOf now fact c = [] ∧ refresh now fact c = c) ∨
      auditOf now fact c =
        [auditRow c.caseId now c.sourceChangeReason (refresh now fact c).sourceChangeReason] := by
  have hold : (if c.sourceChanged then c.sourceChangeReason else none) = c.sourceChangeReason := by
    split
    · rfl
    · next hflag =>
      rw [h, Bool.not_eq_true, Option.isSome_eq_false_iff, Option.isNone_iff_eq_none] at hflag
      exact hflag.symm
  unfold auditOf refresh
  cases reasonOf (levelOf fact c.responseId) with
  | none =>
    simp only
    split
    · exact .inr rfl
    · exact .inl ⟨rfl, rfl⟩
  | some reason =>
    simp only [hold]
    split
    · exact .inr rfl
    · exact .inl ⟨rfl, rfl⟩

/-- A case that says what the ratings say stays as it is. -/
theorem refresh_settled {now : Nat} {fact : Fact} {c : Case} (h : c.Consistent)
    (hreason : c.sourceChangeReason = reasonOf (levelOf fact c.responseId)) :
    refresh now fact c = c ∧ auditOf now fact c = [] := by
  unfold Case.Consistent at h
  unfold refresh auditOf
  rw [← hreason]
  cases hc : c.sourceChangeReason with
  | none =>
    rw [hc] at h
    simp [h]
  | some reason =>
    rw [hc] at h
    simp [h]

/-! ## The invariant -/

structure Inv (db : Db) : Prop where
  schema : db.schema ≠ .none
  ids : (db.cases.map (·.caseId)).Nodup
  responses : (db.cases.map (·.responseId)).Nodup
  below : ∀ c ∈ db.cases, c.caseId < db.nextCase
  audited : ∀ r ∈ db.audit, r.field = SOURCE_CHANGED → r.caseId < db.nextCase
  consistent : ∀ c ∈ db.cases, c.Consistent
  replays : ∀ c ∈ db.cases, replay (changesOf db.audit c.caseId) = some c.sourceChangeReason

theorem Inv.withFact {db : Db} (h : Inv db) (fact : Fact) : Inv { db with fact } :=
  ⟨h.schema, h.ids, h.responses, h.below, h.audited, h.consistent, h.replays⟩

theorem initial_inv (withStage : Bool) (fact : Fact) : Inv (initial withStage fact) where
  schema := by cases withStage <;> simp [initial]
  ids := List.nodup_nil
  responses := List.nodup_nil
  below := by simp [initial]
  audited := by simp [initial]
  consistent := by simp [initial]
  replays := by simp [initial]

/-- The rows that an insert adds. -/
def inserted (db : Db) (now : Nat) (start : Date) : List Case :=
  (missing db.fact db.cases).mapIdx fun i f => newCase now start (db.nextCase + i) f

theorem mem_inserted (db : Db) {now : Nat} {start : Date} {c : Case} :
    c ∈ inserted db now start → ∃ f ∈ missing db.fact db.cases, ∃ i < (missing db.fact db.cases).length,
      c = newCase now start (db.nextCase + i) f := by
  intro h
  obtain ⟨i, hi, rfl⟩ := List.mem_mapIdx.mp h
  exact ⟨_, List.getElem_mem hi, i, hi, rfl⟩

theorem inserted_ids (db : Db) (now : Nat) (start : Date) :
    (inserted db now start).map (·.caseId) =
      List.range' db.nextCase (missing db.fact db.cases).length := by
  unfold inserted
  apply List.ext_getElem
  · simp
  · intro i hi hi'
    simp [newCase]

theorem inserted_responses (db : Db) (now : Nat) (start : Date) :
    (inserted db now start).map (·.responseId) = (missing db.fact db.cases).map (·.responseId) := by
  unfold inserted
  apply List.ext_getElem
  · simp
  · intro i hi hi'
    simp [newCase]

theorem insertCases_inv {db : Db} (h : Inv db) (now : Nat) (start : Date) :
    Inv (insertCases db now start) := by
  have hcases : (insertCases db now start).cases = db.cases ++ inserted db now start := rfl
  have hnew : ∀ c ∈ inserted db now start, db.nextCase ≤ c.caseId ∧
      c.caseId < db.nextCase + (missing db.fact db.cases).length ∧ c.sourceChanged = false ∧
      c.sourceChangeReason = none := by
    intro c hc
    obtain ⟨f, -, i, hi, rfl⟩ := mem_inserted db hc
    exact ⟨Nat.le_add_right .., Nat.add_lt_add_left hi _, rfl, rfl⟩
  refine ⟨h.schema, ?_, ?_, ?_, ?_, ?_, ?_⟩
  · rw [hcases, List.map_append, inserted_ids, List.nodup_append]
    refine ⟨h.ids, List.nodup_range', fun a ha b hb => ?_⟩
    obtain ⟨c, hc, rfl⟩ := List.mem_map.mp ha
    have := h.below c hc
    have := (List.mem_range'_1.mp hb).1
    omega
  · rw [hcases, List.map_append, inserted_responses, List.nodup_append]
    refine ⟨h.responses, (List.filter_sublist.map _).nodup db.fact.nodup, fun a ha b hb => ?_⟩
    obtain ⟨f, hf, rfl⟩ := List.mem_map.mp hb
    rintro rfl
    exact (mem_missing.mp hf).2.2 ha
  · intro c hc
    rw [hcases, List.mem_append] at hc
    rcases hc with hc | hc
    · exact Nat.lt_of_lt_of_le (h.below c hc) (Nat.le_add_right ..)
    · exact (hnew c hc).2.1
  · intro r hr hfield
    exact Nat.lt_of_lt_of_le (h.audited r hr hfield) (Nat.le_add_right ..)
  · intro c hc
    rw [hcases, List.mem_append] at hc
    rcases hc with hc | hc
    · exact h.consistent c hc
    · obtain ⟨-, -, hflag, hreason⟩ := hnew c hc
      unfold Case.Consistent
      rw [hflag, hreason]
      rfl
  · intro c hc
    rw [hcases, List.mem_append] at hc
    rcases hc with hc | hc
    · exact h.replays c hc
    · obtain ⟨hge, -, -, hreason⟩ := hnew c hc
      have hnone : changesOf db.audit c.caseId = [] := by
        unfold changesOf
        rw [List.filter_eq_nil_iff]
        intro r hr hrow
        rw [Bool.and_eq_true, decide_eq_true_eq, decide_eq_true_eq] at hrow
        have := h.audited r hr hrow.2
        omega
      rw [show (insertCases db now start).audit = db.audit from rfl, hnone, hreason]
      rfl

/-- Without a start date the cases stay as they are. -/
theorem syncCases_none (db : Db) (now : Nat) : (syncCases db now none).1 = db := by
  unfold syncCases
  split <;> rfl

/-- The cases after a load with a start date. -/
theorem syncCases_some {db : Db} (h : Inv db) (now : Nat) (start : Date) :
    (syncCases db now (some start)).1 =
      { insertCases db now start with
        cases := (insertCases db now start).cases.map (refresh now db.fact)
        audit := db.audit ++ (insertCases db now start).cases.flatMap (auditOf now db.fact) } := by
  have hins := insertCases_inv h now start
  obtain ⟨flagged, restored, hloop⟩ := foldl_syncRow now db.fact [] (insertCases db now start).cases
    db.audit 0 0 hins.ids
  rw [List.nil_append, List.nil_append] at hloop
  unfold syncCases
  rw [if_neg h.schema]
  have hrows : (joinRows (insertCases db now start)).foldl (syncRow now)
      ⟨(insertCases db now start).cases, (insertCases db now start).audit, 0, 0⟩ = _ := hloop
  simp only [hrows]

theorem changesOf_auditOf {now : Nat} {fact : Fact} {c : Case} (h : c.Consistent) (id : Nat) :
    changesOf (auditOf now fact c) id = if c.caseId = id then auditOf now fact c else [] := by
  rcases auditOf_cases now fact h with ⟨hnone, -⟩ | hone
  · rw [hnone]
    split <;> rfl
  · rw [hone]
    unfold changesOf auditRow
    by_cases hid : c.caseId = id <;> simp [hid]

/-- A load writes to the audit of a case what it writes for the case. -/
theorem changesOf_flatMap {now : Nat} {fact : Fact} {cases : List Case}
    (hids : (cases.map (·.caseId)).Nodup) (hcons : ∀ c ∈ cases, c.Consistent) {c : Case}
    (hc : c ∈ cases) : changesOf (cases.flatMap (auditOf now fact)) c.caseId = auditOf now fact c := by
  have hfilter : changesOf (cases.flatMap (auditOf now fact)) c.caseId =
      cases.flatMap fun x => changesOf (auditOf now fact x) c.caseId := List.filter_flatMap ..
  rw [hfilter, Keyed.flatMap_single hids.of_map hc]
  · rw [changesOf_auditOf (hcons c hc), if_pos rfl]
  · intro x hx hne
    rw [changesOf_auditOf (hcons x hx), if_neg]
    exact fun heq => hne (List.inj_on_of_nodup_map hids hx hc heq)

theorem syncCases_inv {db : Db} (h : Inv db) (now : Nat) (start : Option Date) :
    Inv (syncCases db now start).1 := by
  cases start with
  | none =>
    rw [syncCases_none]
    exact h
  | some start =>
    rw [syncCases_some h now start]
    have hins := insertCases_inv h now start
    have hmap : ∀ c ∈ (insertCases db now start).cases.map (refresh now db.fact),
        ∃ c₀ ∈ (insertCases db now start).cases, refresh now db.fact c₀ = c := fun c hc =>
      List.mem_map.mp hc
    refine ⟨h.schema, ?_, ?_, ?_, ?_, ?_, ?_⟩
    · rw [List.map_map]
      exact (List.map_congr_left fun c _ => refresh_caseId now db.fact c).symm ▸ hins.ids
    · rw [List.map_map]
      exact (List.map_congr_left fun c _ => refresh_responseId now db.fact c).symm ▸ hins.responses
    · intro c hc
      obtain ⟨c₀, hc₀, rfl⟩ := hmap c hc
      rw [refresh_caseId]
      exact hins.below c₀ hc₀
    · intro r hr hfield
      rcases List.mem_append.mp hr with hr | hr
      · exact hins.audited r hr hfield
      · obtain ⟨c, hc, hr⟩ := List.mem_flatMap.mp hr
        rcases auditOf_cases now db.fact (hins.consistent c hc) with ⟨hnone, -⟩ | hone
        · rw [hnone] at hr
          cases hr
        · rw [hone, List.mem_singleton] at hr
          rw [hr]
          exact hins.below c hc
    · intro c hc
      obtain ⟨c₀, hc₀, rfl⟩ := hmap c hc
      exact (refresh_consistent (hins.consistent c₀ hc₀)).1
    · intro c hc
      obtain ⟨c₀, hc₀, rfl⟩ := hmap c hc
      rw [refresh_caseId, changesOf_append, changesOf_flatMap hins.ids hins.consistent hc₀]
      have hreplay := hins.replays c₀ hc₀
      rcases auditOf_cases now db.fact (hins.consistent c₀ hc₀) with
        ⟨hnone, hsame⟩ | hone
      · rw [hnone, hsame, List.append_nil]
        exact hreplay
      · rw [hone]
        exact replay_append_singleton hreplay rfl

theorem updateCase_map {cases : List Case} {caseId : Nat} {f : Case → Case} {β : Type} (g : Case → β)
    (hf : ∀ c, g (f c) = g c) : (updateCase cases caseId f).map g = cases.map g := by
  unfold updateCase
  rw [List.map_map]
  refine List.map_congr_left fun c _ => ?_
  show g (if c.caseId = caseId then f c else c) = g c
  split
  · exact hf c
  · rfl

theorem mem_updateCase {cases : List Case} {caseId : Nat} {f : Case → Case} {c : Case}
    (hc : c ∈ updateCase cases caseId f) : ∃ c₀ ∈ cases, c = c₀ ∨ c = f c₀ := by
  obtain ⟨c₀, hc₀, rfl⟩ := List.mem_map.mp hc
  refine ⟨c₀, hc₀, ?_⟩
  split
  · exact .inr rfl
  · exact .inl rfl

theorem apply_inv {db : Db} (h : Inv db) (e : Event) : Inv (apply db e) := by
  cases e with
  | load fact now start =>
    exact syncCases_inv (h.withFact fact) now start
  | edit caseId manual changedBy changedAt changes =>
    have hmem : ∀ c ∈ (apply db (.edit caseId manual changedBy changedAt changes)).cases,
        ∃ c₀ ∈ db.cases, c.caseId = c₀.caseId ∧ c.sourceChanged = c₀.sourceChanged ∧
          c.sourceChangeReason = c₀.sourceChangeReason := by
      intro c hc
      obtain ⟨c₀, hc₀, rfl | rfl⟩ := mem_updateCase hc
      · exact ⟨_, hc₀, rfl, rfl, rfl⟩
      · exact ⟨c₀, hc₀, rfl, rfl, rfl⟩
    have hids : (apply db (.edit caseId manual changedBy changedAt changes)).cases.map (·.caseId) =
        db.cases.map (·.caseId) := updateCase_map (·.caseId) fun _ => rfl
    have hresponses : (apply db (.edit caseId manual changedBy changedAt changes)).cases.map
        (·.responseId) = db.cases.map (·.responseId) := updateCase_map (·.responseId) fun _ => rfl
    refine ⟨h.schema, hids ▸ h.ids, hresponses ▸ h.responses, ?_, ?_, ?_, ?_⟩
    · intro c hc
      obtain ⟨c₀, hc₀, hid, -⟩ := hmem c hc
      rw [hid]
      exact h.below c₀ hc₀
    · intro r hr hfield
      rcases List.mem_append.mp hr with hr | hr
      · exact h.audited r hr hfield
      · obtain ⟨ch, -, rfl⟩ := List.mem_map.mp hr
        exact absurd hfield ch.field.name_ne
    · intro c hc
      obtain ⟨c₀, hc₀, -, hflag, hreason⟩ := hmem c hc
      unfold Case.Consistent
      rw [hflag, hreason]
      exact h.consistent c₀ hc₀
    · intro c hc
      obtain ⟨c₀, hc₀, hid, -, hreason⟩ := hmem c hc
      unfold apply
      rw [changesOf_append, changesOf_edit, List.append_nil, hid, hreason]
      exact h.replays c₀ hc₀

theorem run_inv (withStage : Bool) (fact : Fact) (events : List Event) :
    Inv (run (initial withStage fact) events) := by
  induction events using List.reverseRecOn with
  | nil => exact initial_inv withStage fact
  | append_singleton events e ih =>
    unfold run at ih ⊢
    rw [List.foldl_append]
    exact apply_inv ih e

/-! ## What a load keeps -/

/-- What a load never rewrites on a case. -/
structure Case.Kept (before after : Case) : Prop where
  caseId : after.caseId = before.caseId
  responseId : after.responseId = before.responseId
  ratedAtLocal : after.ratedAtLocal = before.ratedAtLocal
  manual : after.manual = before.manual
  createdBy : after.createdBy = before.createdBy
  createdAt : after.createdAt = before.createdAt

theorem refresh_kept (now : Nat) (fact : Fact) (c : Case) : c.Kept (refresh now fact c) := by
  unfold refresh
  split <;> split <;> exact ⟨rfl, rfl, rfl, rfl, rfl, rfl⟩

theorem load_kept {db : Db} (h : Inv db) (fact : Fact) (now : Nat) (start : Option Date) {c : Case}
    (hc : c ∈ db.cases) : ∃ c' ∈ (apply db (.load fact now start)).cases, c.Kept c' := by
  unfold apply
  cases start with
  | none =>
    simp only [syncCases_none]
    exact ⟨c, hc, ⟨rfl, rfl, rfl, rfl, rfl, rfl⟩⟩
  | some start =>
    simp only [syncCases_some (h.withFact fact) now start]
    exact ⟨_, List.mem_map_of_mem (List.mem_append_left _ hc), refresh_kept now fact c⟩

/-- A case that a load adds starts at the stage of its rating's date. -/
theorem load_created {db : Db} (h : Inv db) (fact : Fact) (now : Nat) (start : Option Date) {c : Case}
    (hc : c ∈ (apply db (.load fact now start)).cases) (hnew : c.responseId ∉ db.cases.map (·.responseId)) :
    ∃ day, start = some day ∧ ∃ f ∈ fact.rows, f.responseId = c.responseId ∧ f.npsLevel = DETRACTOR ∧
      c.manual.stage = if startKey day ≤ f.ratingDateKey then .new else .historical := by
  unfold apply at hc
  cases start with
  | none =>
    simp only [syncCases_none] at hc
    exact absurd (List.mem_map_of_mem hc) hnew
  | some day =>
    simp only [syncCases_some (h.withFact fact) now day] at hc
    obtain ⟨c₀, hc₀, rfl⟩ := List.mem_map.mp hc
    have hkept := refresh_kept now fact c₀
    rw [hkept.responseId] at hnew ⊢
    rw [hkept.manual]
    rcases List.mem_append.mp hc₀ with hold | hins
    · exact absurd (List.mem_map_of_mem hold) hnew
    · obtain ⟨f, hf, i, -, rfl⟩ := mem_inserted { db with fact } hins
      obtain ⟨hrow, hlevel, -⟩ := mem_missing.mp hf
      exact ⟨day, rfl, f, hrow, rfl, hlevel, rfl⟩

theorem load_responses {db : Db} (h : Inv db) (fact : Fact) (now : Nat) (start : Option Date) (id : Int) :
    id ∈ (apply db (.load fact now start)).cases.map (·.responseId) ↔
      id ∈ db.cases.map (·.responseId) ∨ (Event.load fact now start).saw id := by
  constructor
  · intro hid
    by_cases hold : id ∈ db.cases.map (·.responseId)
    · exact .inl hold
    · obtain ⟨c, hc, rfl⟩ := List.mem_map.mp hid
      obtain ⟨day, rfl, f, hf, hresponse, hlevel, -⟩ := load_created h fact now start hc hold
      exact .inr ⟨f, hf, hresponse, hlevel⟩
  · rintro (hid | hsaw)
    · obtain ⟨c, hc, rfl⟩ := List.mem_map.mp hid
      obtain ⟨c', hc', hkept⟩ := load_kept h fact now start hc
      rw [← hkept.responseId]
      exact List.mem_map_of_mem hc'
    · cases start with
      | none => cases hsaw
      | some day =>
        obtain ⟨f, hf, rfl, hlevel⟩ := hsaw
        by_cases hold : f.responseId ∈ db.cases.map (·.responseId)
        · obtain ⟨c, hc, hresponse⟩ := List.mem_map.mp hold
          obtain ⟨c', hc', hkept⟩ := load_kept h fact now (some day) hc
          rw [← hresponse, ← hkept.responseId]
          exact List.mem_map_of_mem hc'
        · unfold apply
          simp only [syncCases_some (h.withFact fact) now day]
          rw [List.map_map, show (Case.responseId ∘ refresh now fact) = Case.responseId from
              funext fun c => refresh_responseId now fact c]
          show f.responseId ∈ (db.cases ++ inserted { db with fact } now day).map (·.responseId)
          rw [List.map_append, inserted_responses]
          exact List.mem_append_right _ (List.mem_map_of_mem (mem_missing.mpr ⟨hf, hlevel, hold⟩))

/-- The cases are those of the ratings that a load with a start date saw as detractors. -/
theorem run_responses (withStage : Bool) (fact : Fact) (events : List Event) (id : Int) :
    id ∈ (run (initial withStage fact) events).cases.map (·.responseId) ↔ ∃ e ∈ events, e.saw id := by
  induction events using List.reverseRecOn with
  | nil => simp [run, initial]
  | append_singleton events e ih =>
    have hinv := run_inv withStage fact events
    have hlast : run (initial withStage fact) (events ++ [e]) =
        apply (run (initial withStage fact) events) e := List.foldl_append ..
    have hevents : (∃ e' ∈ events ++ [e], e'.saw id) ↔ (∃ e' ∈ events, e'.saw id) ∨ e.saw id := by
      simp [or_and_right, exists_or]
    rw [hlast, hevents, ← ih]
    cases e with
    | load fact' now start => exact load_responses hinv fact' now start id
    | edit caseId manual changedBy changedAt changes =>
      have hsame : (apply (run (initial withStage fact) events)
          (.edit caseId manual changedBy changedAt changes)).cases.map (·.responseId) =
          (run (initial withStage fact) events).cases.map (·.responseId) :=
        updateCase_map (·.responseId) fun _ => rfl
      rw [hsame]
      exact (or_iff_left fun hsaw => by cases hsaw).symm

/-- Ratings without a missing case, and cases that say what the ratings say. -/
theorem syncCases_settled {db : Db} (h : Inv db) (hmissing : missing db.fact db.cases = [])
    (hreasons : ∀ c ∈ db.cases, c.sourceChangeReason = reasonOf (levelOf db.fact c.responseId))
    (now : Nat) (start : Option Date) : (syncCases db now start).1 = db := by
  cases start with
  | none => exact syncCases_none db now
  | some day =>
    have hins : insertCases db now day = db := by
      unfold insertCases
      simp only [hmissing, List.mapIdx_nil, List.append_nil, List.length_nil, Nat.add_zero]
    have hsame : ∀ c ∈ db.cases, refresh now db.fact c = c ∧ auditOf now db.fact c = [] :=
      fun c hc => refresh_settled (h.consistent c hc) (hreasons c hc)
    have hcases : db.cases.map (refresh now db.fact) = db.cases :=
      (List.map_congr_left fun c hc => (hsame c hc).1).trans (List.map_id _)
    have haudit : db.cases.flatMap (auditOf now db.fact) = [] :=
      List.flatMap_eq_nil_iff.mpr fun c hc => (hsame c hc).2
    rw [syncCases_some h now day, hins, hcases, haudit, List.append_nil]

/-- After a load with a start date each case says what the ratings say. -/
theorem load_reason {db : Db} (h : Inv db) (fact : Fact) (now : Nat) (day : Date) {c : Case}
    (hc : c ∈ (apply db (.load fact now (some day))).cases) :
    c.sourceChangeReason = reasonOf (levelOf fact c.responseId) := by
  have h' := h.withFact fact
  unfold apply at hc
  simp only [syncCases_some h' now day] at hc
  obtain ⟨c₀, hc₀, rfl⟩ := List.mem_map.mp hc
  rw [refresh_responseId]
  exact (refresh_consistent ((insertCases_inv h' now day).consistent c₀ hc₀)).2

theorem load_fact (db : Db) (fact : Fact) (now : Nat) (start : Option Date) :
    (apply db (.load fact now start)).fact = fact := by
  unfold apply syncCases
  simp only
  split
  · rfl
  · cases start <;> rfl

/-- **The follow-up cases over any loads and edits.** A load with a start date leaves one
case for each rating that it or an earlier such load saw as a detractor; a load deletes no
case and rewrites neither its response, nor its stage, nor another manual field; the flags
say what the last load saw; running the step again changes nothing; and the audit of a
case leads to its flag. -/
theorem cases_follow_ratings (withStage : Bool) (fact₀ : Fact) (events : List Event) :
    let db := run (initial withStage fact₀) events
    (∀ c ∈ db.cases, c.sourceChanged = c.sourceChangeReason.isSome ∧
      replay (changesOf db.audit c.caseId) = some c.sourceChangeReason) ∧
    (∀ e, ∀ c ∈ db.cases, ∃ c' ∈ (apply db e).cases, c'.caseId = c.caseId ∧ c'.responseId = c.responseId) ∧
    (∀ fact now start, ∀ c ∈ db.cases, ∃ c' ∈ (apply db (.load fact now start)).cases, c.Kept c') ∧
    (∀ fact now start, ∀ c ∈ (apply db (.load fact now start)).cases,
      c.responseId ∉ db.cases.map (·.responseId) → ∃ day, start = some day ∧
        ∃ f ∈ fact.rows, f.responseId = c.responseId ∧
          c.manual.stage = if startKey day ≤ f.ratingDateKey then .new else .historical) ∧
    ∀ fact now day,
      let after := apply db (.load fact now (some day))
      (after.cases.map (·.responseId)).Nodup ∧
      (∀ id, id ∈ after.cases.map (·.responseId) ↔
        fact.detractor id ∨ ∃ e ∈ events, e.saw id) ∧
      (∀ c ∈ after.cases,
        (c.sourceChanged = true ↔ ¬ fact.detractor c.responseId) ∧
        (c.sourceChangeReason = some GONE ↔ c.responseId ∉ fact.rows.map (·.responseId)) ∧
        (c.sourceChangeReason = some NOT_DETRACTOR ↔
          ∃ f ∈ fact.rows, f.responseId = c.responseId ∧ f.npsLevel ≠ DETRACTOR) ∧
        (c.sourceChangeReason = none ↔ fact.detractor c.responseId)) ∧
      ∀ now' start', (syncCases after now' start').1 = after := by
  intro db
  have hinv : Inv db := run_inv withStage fact₀ events
  refine ⟨fun c hc => ⟨hinv.consistent c hc, hinv.replays c hc⟩, ?_,
    fun fact now start c hc => load_kept hinv fact now start hc, ?_, ?_⟩
  · intro e c hc
    cases e with
    | load fact now start =>
      obtain ⟨c', hc', hkept⟩ := load_kept hinv fact now start hc
      exact ⟨c', hc', hkept.caseId, hkept.responseId⟩
    | edit caseId manual changedBy changedAt changes =>
      refine ⟨_, List.mem_map_of_mem hc, ?_⟩
      split <;> exact ⟨rfl, rfl⟩
  · intro fact now start c hc hnew
    obtain ⟨day, hday, f, hf, hresponse, -, hstage⟩ := load_created hinv fact now start hc hnew
    exact ⟨day, hday, f, hf, hresponse, hstage⟩
  · intro fact now day after
    have hafter : Inv after := apply_inv hinv _
    have hreasons : ∀ c ∈ after.cases, c.sourceChangeReason = reasonOf (levelOf fact c.responseId) :=
      fun c hc => load_reason hinv fact now day hc
    have hids : ∀ id, id ∈ after.cases.map (·.responseId) ↔
        fact.detractor id ∨ ∃ e ∈ events, e.saw id := fun id => by
      rw [load_responses hinv fact now (some day), run_responses, or_comm]
      rfl
    refine ⟨hafter.responses, hids, fun c hc => ?_, fun now' start' => ?_⟩
    · rw [hafter.consistent c hc, hreasons c hc, reasonOf_eq_gone, reasonOf_eq_not, reasonOf_eq_none,
        ← reasonOf_eq_none, ← ne_eq, Option.isSome_iff_ne_none]
      exact ⟨Iff.rfl, Iff.rfl, Iff.rfl, Iff.rfl⟩
    · have hfact : after.fact = fact := load_fact db fact now (some day)
      refine syncCases_settled hafter ?_ (hfact ▸ hreasons) now' start'
      rw [List.eq_nil_iff_forall_not_mem]
      intro f hf
      obtain ⟨hrow, hlevel, hnone⟩ := mem_missing.mp hf
      exact hnone ((hids _).mpr (.inl ⟨f, hfact ▸ hrow, rfl, hlevel⟩))

end SalesDashboard.NpsFollowup
