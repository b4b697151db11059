import SalesDashboard.Lib.Transition
import SalesDashboard.Mirror.Store
import SalesDashboard.SalesBuild.Build

/-! Signalling of mirror changes. A sync commits dataset by dataset, then the rules
and the names; only after the last of them `mirror_sync` moves `MIRROR_CHANGED`,
and only when the counters of this run say so. What a failed run has committed is
therefore signalled only by a later run with a change of its own. -/

namespace SalesDashboard.Mirror
open Transition

/-! ## The state -/

inductive SyncPhase
  | users
  | specs (todo : List (MirrorSpec × Nat))
  | names
  | done
  deriving DecidableEq, Repr

/-- A run of `mirror_sync`. `wrote` records that a transaction of it which counts
what it writes has changed the stored tables. -/
structure SyncRun where
  fullCheck : Bool
  phase : SyncPhase
  result : SyncResult
  wrote : Bool
  deriving DecidableEq, Repr

/-- What a build has read: the watermark, and the committed changes it includes. -/
structure Consumed where
  mirrorChanged : Option Nat
  seen : Nat
  deriving DecidableEq, Repr

inductive BuildPhase
  | idle
  | started (mirrorChanged : Option Nat)
  | read (c : Consumed)
  deriving DecidableEq, Repr

/-- `version` numbers the committed transactions that changed the stored tables;
`saved` is the one up to which `MIRROR_CHANGED` was last moved, and `completed` the
one at the end of the last sync that succeeded. -/
structure State (P : Type) where
  clock : Nat
  tables : Tables P
  filled : List Dataset
  mirrorChanged : Option Nat
  run : Option SyncRun
  build : BuildPhase
  lastBuild : Option Consumed
  version : Nat
  saved : Nat
  completed : Nat
  deriving DecidableEq, Repr

/-! ## Steps -/

inductive Action (P : Type)
  | tick (seconds : Nat)
  | startSync (fullCheck : Bool)
  | users (uid : Nat) (answer : List (Nat × P)) (companies : List Nat)
  | spec (read : SpecRead P)
  | rules (ops : List (RuleOp P))
  | names (reads : List (String × Option (List (Nat × Option String))))
      (follows : List (String × List (Nat × Option String)))
  | complete
  | raise
  | startBuild
  | snapshot
  | buildLogged
  | buildFailed

variable {P : Type} [DecidableEq P]

/-- A transaction commits. -/
def commit (tables : Tables P) (st : State P) : State P :=
  { st with
    tables := tables
    version := if tables = st.tables then st.version else st.version + 1 }

/-- A transaction of the run commits and the run goes on. -/
def commitRun (tables : Tables P) (run : SyncRun) (st : State P) : State P :=
  { commit tables st with
    run := some { run with wrote := run.wrote || decide (tables ≠ st.tables) } }

def userDataset : Dataset := ⟨USER_MODEL, 0⟩

def step (st : State P) : Action P → Option (State P)
  | .tick seconds => some { st with clock := st.clock + seconds }
  -- the lock of the job keeps two syncs apart
  | .startSync fullCheck => match st.run with
      | none => some { st with run := some ⟨fullCheck, .users, {}, false⟩ }
      | some _ => none
  -- the one row of the ETL user; not counted
  | .users uid answer companies => match st.run with
      | some ⟨fullCheck, .users, result, wrote⟩ =>
          if companies.Nodup then
            let records :=
              if fullCheck ∨ (stored (userDataset, uid) st.tables.records).isNone then
                (upsert userDataset answer st.tables.records).1
              else st.tables.records
            some { commit { st.tables with records := records } st with
              run := some ⟨fullCheck, .specs (plan companies), result, wrote⟩ }
          else none
      | _ => none
  | .spec read => match st.run with
      | some ⟨fullCheck, .specs ((spec, ctx) :: todo), result, wrote⟩ =>
          let ds : Dataset := ⟨spec.model, ctx⟩
          let idCheck := decide (ds ∈ st.filled) && (fullCheck || spec.idCheckEveryCycle)
          let (records, changed, deleted) := syncSpec idCheck fullCheck ds read st.tables.records
          some { commitRun { st.tables with records := records }
              ⟨fullCheck, .specs todo, result.recordSpec ds changed deleted, wrote⟩ st with
            filled := ds :: st.filled }
      | _ => none
  | .rules ops => match st.run with
      | some ⟨fullCheck, .specs [], result, wrote⟩ =>
          let (records, result') := rules ops st.tables.records result
          some (commitRun { st.tables with records := records }
            ⟨fullCheck, .names, result', wrote⟩ st)
      | _ => none
  | .names reads follows => match st.run with
      | some ⟨fullCheck, .names, result, wrote⟩ =>
          if (reads.map (·.1)).Nodup then
            let (names, result') := syncNames reads follows st.tables.names result
            some (commitRun { st.tables with names := names }
              ⟨fullCheck, .done, result', wrote⟩ st)
          else none
      | _ => none
  | .complete => match st.run with
      | some ⟨_, .done, result, _⟩ =>
          if result.anyChange then
            some { st with
              mirrorChanged := some st.clock
              run := none
              saved := st.version
              completed := st.version }
          else some { st with run := none, completed := st.version }
      | _ => none
  -- an open transaction is rolled back
  | .raise => match st.run with
      | some _ => some { st with run := none }
      | none => none
  | .startBuild => match st.build with
      | .idle => some { st with build := .started st.mirrorChanged }
      | _ => none
  | .snapshot => match st.build with
      | .started mirrorChanged => some { st with build := .read ⟨mirrorChanged, st.version⟩ }
      | _ => none
  | .buildLogged => match st.build with
      | .read c => some { st with build := .idle, lastBuild := some c }
      | _ => none
  | .buildFailed => some { st with build := .idle }

/-! ## The property -/

/-- What was committed before the last sync that succeeded, and is not in the last
build, is announced by a later watermark than the one that build consumed. -/
def Signalled (st : State P) : Prop :=
  ∀ b, st.lastBuild = some b → b.seen < st.completed →
    ∃ v, st.mirrorChanged = some v ∧ ∀ w, b.mirrorChanged = some w → w < v

/-- `build_reason` has a reason after this build, whatever else it reads. -/
def Reports (mirrorChanged : Option Nat) (b : Consumed) : Prop :=
  ∀ (V C M : Type) (mode : SalesBuild.Mode) (fullRefresh : Bool) (sb : SalesBuild.State V C M)
    (last : SalesBuild.WriteLog) (d : SalesBuild.BuildDetails),
    SalesBuild.lastBuild sb = some last → last.details = some d →
      d.mirrorChanged = b.mirrorChanged → sb.mirrorChanged = mirrorChanged →
      SalesBuild.buildReason mode fullRefresh sb ≠ none

theorem reports_of_later {mirrorChanged : Option Nat} {b : Consumed} {v : Nat}
    (hv : mirrorChanged = some v) (hlater : ∀ w, b.mirrorChanged = some w → w < v) :
    Reports mirrorChanged b := by
  intro V C M mode fullRefresh sb last d hlast hd hb hm hnone
  have hdiffers : some v ≠ d.mirrorChanged := by
    intro heq
    have := hlater v (hb ▸ heq.symm)
    omega
  unfold SalesBuild.buildReason at hnone
  rw [hlast, hm, hv] at hnone
  simp only [hd, if_pos hdiffers] at hnone
  repeat' split at hnone
  all_goals cases hnone

/-- The watermarks that builds have consumed. -/
def consumed (st : State P) : List (Option Nat) :=
  (match st.lastBuild with
    | some b => [b.mirrorChanged]
    | none => []) ++
  match st.build with
    | .idle => []
    | .started w => [w]
    | .read c => [c.mirrorChanged]

/-- A sync that completes has written something itself. -/
def Wrote : Option SyncRun → Prop
  | some run => run.wrote = true
  | none => False

/-- The steps that signal: a sync that completes while a committed change is not yet
announced has written something itself, and does not complete in the very second
whose watermark a build has consumed. -/
def Keeps (st : State P) : Action P → Prop
  | .complete => st.saved < st.version → Wrote st.run ∧ some st.clock ∉ consumed st
  | _ => True

instance : (run : Option SyncRun) → Decidable (Wrote run)
  | some run => inferInstanceAs (Decidable (run.wrote = true))
  | none => .isFalse id

omit [DecidableEq P] in
instance (st : State P) : (a : Action P) → Decidable (Keeps st a)
  | .complete => inferInstanceAs
      (Decidable (st.saved < st.version → Wrote st.run ∧ some st.clock ∉ consumed st))
  | .tick _ | .startSync _ | .users _ _ _ | .spec _ | .rules _ | .names _ _ | .raise
  | .startBuild | .snapshot | .buildLogged | .buildFailed => .isTrue trivial

/-! ## The run counts what it writes -/

def datasets (todo : List (MirrorSpec × Nat)) : List Dataset :=
  todo.map fun (spec, ctx) => ⟨spec.model, ctx⟩

theorem plan_nodup {companies : List Nat} (h : companies.Nodup) :
    (datasets (plan companies)).Nodup := by
  have hctx : ∀ spec, (contexts companies spec).Nodup := by
    intro spec
    unfold contexts
    split
    · exact h
    · exact List.nodup_singleton 0
  have hmodels : SPECS.Pairwise fun a b => a.model ≠ b.model := by decide
  unfold datasets plan
  rw [List.map_flatMap, List.nodup_flatMap]
  refine ⟨fun spec _ => ?_, hmodels.imp fun {a b} hab => ?_⟩
  · rw [List.map_map]
    refine (hctx spec).map fun c c' heq => ?_
    exact congrArg Dataset.ctx heq
  · intro ds ha hb
    simp only [List.map_map, List.mem_map, Function.comp_apply] at ha hb
    obtain ⟨_, _, rfl⟩ := ha
    obtain ⟨_, _, heq⟩ := hb
    exact hab (congrArg Dataset.model heq).symm

/-- No counter of a dataset still to come is set. -/
def PhaseInv (r : SyncResult) : SyncPhase → Prop
  | .users => r = {}
  | .specs todo => (datasets todo).Nodup ∧ (∀ e ∈ r.changed, e.1 ∉ datasets todo) ∧
      (∀ e ∈ r.deleted, e.1 ∉ datasets todo) ∧ r.namesChanged = []
  | .names => r.namesChanged = []
  | .done => True

structure RunInv (run : SyncRun) : Prop where
  counted : run.wrote = true → 0 < run.result.count
  phase : PhaseInv run.result run.phase

/-- A counting transaction of the run. -/
theorem counted_wrote {T : Type} [DecidableEq T] {rows rows' : T} {r r' : SyncResult}
    {wrote : Bool} (h : Counted rows rows' r r') (hw : wrote = true → 0 < r.count) :
    (wrote || decide (rows' ≠ rows)) = true → 0 < r'.count := by
  intro hor
  rcases Bool.or_eq_true _ _ ▸ hor with hold | hnew
  · exact Nat.lt_of_lt_of_le (hw hold) h.le
  · exact Nat.lt_of_le_of_lt (Nat.zero_le _) (h.lt (of_decide_eq_true hnew))

theorem ruleOp_namesChanged (records : List ((Dataset × Nat) × P)) (r : SyncResult)
    (op : RuleOp P) : (ruleOp records r op).2.namesChanged = r.namesChanged := by
  cases op <;> (simp only [ruleOp]; split <;> rfl)

theorem rules_namesChanged (ops : List (RuleOp P)) (records : List ((Dataset × Nat) × P))
    (r : SyncResult) : (Mirror.rules ops records r).2.namesChanged = r.namesChanged := by
  induction ops generalizing records r with
  | nil => rfl
  | cons op ops ih => exact (ih _ _).trans (ruleOp_namesChanged records r op)

/-! ## The invariant -/

/-- The value is not newer than the watermark. -/
def Past (mirrorChanged w : Option Nat) : Prop :=
  ∀ v, w = some v → ∃ v', mirrorChanged = some v' ∧ v ≤ v'

/-- What the reader does not include is announced, as far as it is saved. -/
structure Announced (mirrorChanged : Option Nat) (saved : Nat) (b : Consumed) : Prop where
  past : Past mirrorChanged b.mirrorChanged
  later : b.seen < saved →
    ∃ v, mirrorChanged = some v ∧ ∀ w, b.mirrorChanged = some w → w < v

structure Inv (st : State P) : Prop where
  clock : ∀ v, st.mirrorChanged = some v → v ≤ st.clock
  completed : st.completed ≤ st.saved
  saved : st.saved ≤ st.version
  last : ∀ b, st.lastBuild = some b → Announced st.mirrorChanged st.saved b
  read : ∀ b, st.build = .read b → Announced st.mirrorChanged st.saved b
  started : ∀ w, st.build = .started w → Past st.mirrorChanged w
  run : ∀ run, st.run = some run → RunInv run

/-- No build is logged, and nothing is under way. -/
structure Init (st : State P) : Prop where
  clock : ∀ v, st.mirrorChanged = some v → v ≤ st.clock
  run : st.run = none
  build : st.build = .idle
  lastBuild : st.lastBuild = none
  completed : st.completed = st.version
  saved : st.saved = st.version

omit [DecidableEq P] in
theorem Init.inv {st : State P} (h : Init st) : Inv st where
  clock := h.clock
  completed := Nat.le_of_eq (h.completed.trans h.saved.symm)
  saved := Nat.le_of_eq h.saved
  last b hb := by rw [h.lastBuild] at hb; cases hb
  read b hb := by rw [h.build] at hb; cases hb
  started w hw := by rw [h.build] at hw; cases hw
  run run hr := by rw [h.run] at hr; cases hr

omit [DecidableEq P] in
theorem Inv.signalled {st : State P} (hi : Inv st) : Signalled st := fun b hb hlt =>
  (hi.last b hb).later (Nat.lt_of_lt_of_le hlt hi.completed)

/-! ## The steps -/

theorem version_le_commit (tables : Tables P) (st : State P) :
    st.version ≤ (commit tables st).version := by
  unfold commit
  dsimp only
  split <;> omega

section
variable {st st' : State P} (hi : Inv st)
include hi

omit [DecidableEq P] in
/-- A step that leaves watermark and builds alone. -/
theorem Inv.advance (hclock : st.clock ≤ st'.clock) (hversion : st.version ≤ st'.version)
    (hm : st'.mirrorChanged = st.mirrorChanged) (hs : st'.saved = st.saved)
    (hc : st'.completed = st.completed) (hl : st'.lastBuild = st.lastBuild)
    (hb : st'.build = st.build) (hr : ∀ run, st'.run = some run → RunInv run) : Inv st' := by
  refine ⟨?_, ?_, ?_, ?_, ?_, ?_, hr⟩
  · exact fun v hv => Nat.le_trans (hi.clock v (hm ▸ hv)) hclock
  · rw [hc, hs]
    exact hi.completed
  · rw [hs]
    exact Nat.le_trans hi.saved hversion
  · rw [hm, hs, hl]
    exact hi.last
  · rw [hm, hs, hb]
    exact hi.read
  · rw [hm, hb]
    exact hi.started

theorem Inv.commitRun {tables : Tables P} {run : SyncRun}
    (hr : RunInv { run with wrote := run.wrote || decide (tables ≠ st.tables) }) :
    Inv (commitRun tables run st) := by
  refine hi.advance (Nat.le_refl _) (version_le_commit _ _) rfl rfl rfl rfl rfl fun run' h => ?_
  cases h
  exact hr

theorem Inv.users {uid : Nat} {answer : List (Nat × P)} {companies : List Nat}
    (h : step st (.users uid answer companies) = some st') : Inv st' := by
  simp only [step] at h
  split at h
  · next fullCheck result wrote hrun =>
    split at h
    · next hnodup =>
      cases h
      refine hi.advance (Nat.le_refl _) (version_le_commit _ _) rfl rfl rfl rfl rfl fun run' hr => ?_
      cases hr
      have hinv := hi.run _ hrun
      have hempty : result = {} := hinv.phase
      refine ⟨hinv.counted, plan_nodup hnodup, ?_, ?_, ?_⟩
      · rw [hempty]
        exact fun _ he => by cases he
      · rw [hempty]
        exact fun _ he => by cases he
      · rw [hempty]
    · cases h
  · cases h

theorem Inv.spec {read : SpecRead P} (h : step st (.spec read) = some st') : Inv st' := by
  simp only [step] at h
  split at h
  · next fullCheck spec ctx todo result wrote hrun =>
    have hinv := hi.run _ hrun
    obtain ⟨hnodup, hchanged, hdeleted, hnames⟩ := hinv.phase
    obtain ⟨hfresh, hrest⟩ := List.nodup_cons.mp hnodup
    generalize hsync : syncSpec (decide ((⟨spec.model, ctx⟩ : Dataset) ∈ st.filled) &&
      (fullCheck || spec.idCheckEveryCycle)) fullCheck ⟨spec.model, ctx⟩ read
        st.tables.records = synced at h
    obtain ⟨records, changed, deleted⟩ := synced
    cases h
    have hcounted := syncSpec_counted (r := result)
      (fun e he heq => hchanged e he (heq ▸ List.mem_cons_self))
      (fun e he heq => hdeleted e he (heq ▸ List.mem_cons_self)) hsync
    have hkeys : ∀ {counts : List (Dataset × Nat)} {n : Nat},
        (∀ e ∈ counts, e.1 ∉ datasets ((spec, ctx) :: todo)) →
        ∀ e ∈ Counts.set ⟨spec.model, ctx⟩ n counts, e.1 ∉ datasets todo := by
      intro counts n hold e he
      rcases Counts.mem_set he with heq | hmem
      · rw [heq]
        exact hfresh
      · exact fun hin => hold e hmem (List.mem_cons_of_mem _ hin)
    refine hi.advance (Nat.le_refl _) (version_le_commit _ _) rfl rfl rfl rfl rfl fun run' hr => ?_
    cases hr
    exact ⟨counted_wrote (hcounted.map fun records => { st.tables with records := records })
      hinv.counted, hrest, hkeys hchanged, hkeys hdeleted, hnames⟩
  · cases h

theorem Inv.rules {ops : List (RuleOp P)} (h : step st (.rules ops) = some st') : Inv st' := by
  simp only [step] at h
  split at h
  · next fullCheck result wrote hrun =>
    have hinv := hi.run _ hrun
    have hnames : result.namesChanged = [] := hinv.phase.2.2.2
    cases h
    exact hi.commitRun ⟨counted_wrote ((rules_counted ops st.tables.records result).map
      fun records => { st.tables with records := records }) hinv.counted,
      (rules_namesChanged ops st.tables.records result).trans hnames⟩
  · cases h

theorem Inv.names {reads : List (String × Option (List (Nat × Option String)))}
    {follows : List (String × List (Nat × Option String))}
    (h : step st (.names reads follows) = some st') : Inv st' := by
  simp only [step] at h
  split at h
  · next fullCheck result wrote hrun =>
    split at h
    · next hnodup =>
      have hinv := hi.run _ hrun
      cases h
      exact hi.commitRun ⟨counted_wrote ((syncNames_counted follows hnodup hinv.phase).map
        fun names => { st.tables with names := names }) hinv.counted, trivial⟩
    · cases h
  · cases h

omit hi [DecidableEq P] in
theorem consumed_of_last {b : Consumed} (h : st.lastBuild = some b) :
    b.mirrorChanged ∈ consumed st := by
  unfold consumed
  rw [h]
  exact List.mem_append_left _ (List.mem_singleton_self _)

omit hi [DecidableEq P] in
theorem consumed_of_read {b : Consumed} (h : st.build = .read b) :
    b.mirrorChanged ∈ consumed st := by
  unfold consumed
  rw [h]
  exact List.mem_append_right _ (List.mem_singleton_self _)

omit [DecidableEq P] in
/-- The watermark moves past everything that a build has consumed. -/
theorem Inv.announce {b : Consumed} (hb : Announced st.mirrorChanged st.saved b)
    (hmem : b.mirrorChanged ∈ consumed st)
    (hk : st.saved < st.version → some st.clock ∉ consumed st) :
    Announced (some st.clock) st.version b where
  past w hw := by
    obtain ⟨v, hv, hle⟩ := hb.past w hw
    exact ⟨st.clock, rfl, Nat.le_trans hle (hi.clock v hv)⟩
  later hlt := by
    refine ⟨st.clock, rfl, fun w hw => ?_⟩
    by_cases hseen : b.seen < st.saved
    · obtain ⟨v, hv, hlater⟩ := hb.later hseen
      exact Nat.lt_of_lt_of_le (hlater w hw) (hi.clock v hv)
    · obtain ⟨v, hv, hle⟩ := hb.past w hw
      have hne : w ≠ st.clock := fun heq => by
        rw [hw, heq] at hmem
        exact hk (by omega) hmem
      have := hi.clock v hv
      omega

theorem Inv.complete (hk : Keeps st .complete) (h : step st .complete = some st') : Inv st' := by
  simp only [step] at h
  split at h
  · next fullCheck result wrote hrun =>
    have hinv := hi.run _ hrun
    have hk : st.saved < st.version → Wrote st.run ∧ some st.clock ∉ consumed st := hk
    split at h
    · cases h
      refine ⟨?_, Nat.le_refl _, Nat.le_refl _, ?_, ?_, ?_, fun run hr => by cases hr⟩
      · intro v hv
        cases hv
        exact Nat.le_refl _
      · exact fun b hb => hi.announce (hi.last b hb) (consumed_of_last hb)
          fun hlt => (hk hlt).2
      · exact fun b hb => hi.announce (hi.read b hb) (consumed_of_read hb)
          fun hlt => (hk hlt).2
      · intro w hw v hv
        obtain ⟨v', hv', hle⟩ := hi.started w hw v hv
        exact ⟨st.clock, rfl, Nat.le_trans hle (hi.clock v' hv')⟩
    · next hquiet =>
      cases h
      have hsame : st.version ≤ st.saved := by
        by_contra hlt
        have hwrote := (hk (Nat.lt_of_not_le hlt)).1
        rw [hrun] at hwrote
        exact hquiet (SyncResult.anyChange_iff.mpr (hinv.counted hwrote))
      exact ⟨hi.clock, hsame, hi.saved, hi.last, hi.read, hi.started, fun run hr => by cases hr⟩
  · cases h

/-- A build reads the watermark first and the mirror after it. -/
theorem Inv.snapshot (h : step st .snapshot = some st') : Inv st' := by
  simp only [step] at h
  split at h
  · next w hbuild =>
    cases h
    have hread : Announced st.mirrorChanged st.saved ⟨w, st.version⟩ :=
      ⟨hi.started w hbuild, fun hlt => absurd hi.saved (Nat.not_le_of_lt hlt)⟩
    exact ⟨hi.clock, hi.completed, hi.saved, hi.last, (fun b hb => by cases hb; exact hread),
      (fun w hw => by cases hw), hi.run⟩
  · cases h

theorem Inv.step {a : Action P} (hk : Keeps st a) (h : step st a = some st') : Inv st' := by
  cases a with
  | tick seconds =>
    cases h
    exact hi.advance (Nat.le_add_right _ _) (Nat.le_refl _) rfl rfl rfl rfl rfl hi.run
  | startSync fullCheck =>
    simp only [Mirror.step] at h
    split at h
    · cases h
      refine hi.advance (Nat.le_refl _) (Nat.le_refl _) rfl rfl rfl rfl rfl fun run hr => ?_
      cases hr
      exact ⟨(fun hw => by cases hw), rfl⟩
    · cases h
  | users => exact hi.users h
  | spec => exact hi.spec h
  | rules => exact hi.rules h
  | names => exact hi.names h
  | complete => exact hi.complete hk h
  | raise =>
    simp only [Mirror.step] at h
    split at h
    · cases h
      exact hi.advance (Nat.le_refl _) (Nat.le_refl _) rfl rfl rfl rfl rfl (fun run hr => by cases hr)
    · cases h
  | startBuild =>
    simp only [Mirror.step] at h
    split at h
    · cases h
      refine ⟨hi.clock, hi.completed, hi.saved, hi.last, (fun b hb => by cases hb), ?_, hi.run⟩
      intro w hw v hv
      cases hw
      exact ⟨v, hv, Nat.le_refl _⟩
    · cases h
  | snapshot => exact hi.snapshot h
  | buildLogged =>
    simp only [Mirror.step] at h
    split at h
    · next c hbuild =>
      cases h
      refine ⟨hi.clock, hi.completed, hi.saved, fun b hb => ?_, (fun b hb => by cases hb),
        (fun w hw => by cases hw), hi.run⟩
      cases hb
      exact hi.read c hbuild
    · cases h
  | buildFailed =>
    cases h
    exact ⟨hi.clock, hi.completed, hi.saved, hi.last, (fun b hb => by cases hb),
      (fun w hw => by cases hw), hi.run⟩

end

/-- **Every stored change is signalled** along the steps that meet `Keeps`: once a
later sync has succeeded, the watermark is later than what a build without the
change has consumed, and `build_reason` reports it. -/
theorem mirror_signalled {st st' : State P} {as : List (Action P)} (h₀ : Init st)
    (h : Run step Keeps st as st') :
    Signalled st' ∧ ∀ b, st'.lastBuild = some b → b.seen < st'.completed →
      Reports st'.mirrorChanged b := by
  have hs := (h.invariant (fun _ _ _ hi hk hst => hi.step hk hst) h₀.inv).signalled
  refine ⟨hs, fun b hb hlt => ?_⟩
  obtain ⟨v, hv, hlater⟩ := hs b hb hlt
  exact reports_of_later hv hlater

/-! ## Concrete runs -/

/-- The mirror holds the row of the ETL user, number 7, and nothing else. -/
def userOnly : State Nat where
  clock := 1
  tables := ⟨[((userDataset, 7), 0)], []⟩
  filled := []
  mirrorChanged := none
  run := none
  build := .idle
  lastBuild := none
  version := 0
  saved := 0
  completed := 0

theorem userOnly_init : Init userOnly := by
  constructor <;> simp [userOnly]

/-- A sync in which the first dataset answers `orders`, the name of order 1 is read, and all
else is as before. -/
def ordersSync (orders : SpecRead Nat) : List (Action Nat) :=
  [.startSync false, .users 7 [] [], .spec orders] ++ List.replicate 10 (.spec ⟨[], [], [], []⟩) ++
    [.rules [], .names [("sale.order", some [(1, some "S00001")])] [], .complete]

/-- An order is stored by a sync that succeeds, after a build without it. -/
theorem mirror_signalled_order : ∃ st',
    Run step Keeps userOnly
      ([.startBuild, .snapshot, .buildLogged] ++ ordersSync ⟨[(1, 10)], [], [], []⟩) st' ∧
      Signalled st' ∧ ∀ b, st'.lastBuild = some b → b.seen < st'.completed →
        Reports st'.mirrorChanged b := by
  have hsome : (exec step Keeps userOnly
      ([.startBuild, .snapshot, .buildLogged] ++
        ordersSync ⟨[(1, 10)], [], [], []⟩)).isSome = true := by decide +kernel
  obtain ⟨st', hst'⟩ := Option.isSome_iff_exists.mp hsome
  have hrun := (exec_eq_some _ _ _ _ _).mp hst'
  exact ⟨st', hrun, mirror_signalled userOnly_init hrun⟩

/-- The mirror holds order 1 and its name as well; `MIRROR_CHANGED` has the second in which
they were stored. -/
def orderHeld : State Nat where
  clock := 60
  tables := ⟨[((userDataset, 7), 0), ((⟨"sale.order", 0⟩, 1), 10)], [(("sale.order", 1), some "S00001")]⟩
  filled := datasets (plan [])
  mirrorChanged := some 1
  run := none
  build := .idle
  lastBuild := none
  version := 0
  saved := 0
  completed := 0

theorem orderHeld_init : Init orderHeld := by
  constructor <;> simp [orderHeld]

/-- After a build the order is edited. The sync that stores the edit fails at the next
dataset; the sync after it finds the order and its name unchanged. -/
def forgottenRun : List (Action Nat) :=
  [.startBuild, .snapshot, .buildLogged, .tick 60, .startSync false, .users 7 [] [],
    .spec ⟨[(1, 11)], [1], [], []⟩, .raise, .tick 60] ++ ordersSync ⟨[(1, 11)], [1], [], []⟩

/-- Without the condition a stored change is never announced. -/
theorem stored_unsignalled :
    ∃ st', Init orderHeld ∧ FreeRun step orderHeld forgottenRun st' ∧ ¬ Signalled st' := by
  have hlast : (exec step (fun _ _ => True) orderHeld forgottenRun).map (fun st =>
      (st.lastBuild, st.completed, st.mirrorChanged)) = some (some ⟨some 1, 0⟩, 1, some 1) := by
    decide +kernel
  obtain ⟨st', hst', hst⟩ := Option.map_eq_some_iff.mp hlast
  simp only [Prod.mk.injEq] at hst
  refine ⟨st', orderHeld_init, (exec_eq_some _ _ _ _ _).mp hst', fun hs => ?_⟩
  obtain ⟨v, hv, hlater⟩ := hs _ hst.1 (by rw [hst.2.1]; exact Nat.zero_lt_one)
  rw [hst.2.2] at hv
  cases hv
  exact absurd (hlater 1 rfl) (Nat.lt_irrefl 1)

end SalesDashboard.Mirror
