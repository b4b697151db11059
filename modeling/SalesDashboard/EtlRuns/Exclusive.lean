import SalesDashboard.Lib.Transition
import SalesDashboard.EtlRuns.Queue
import Mathlib

/-! Exclusivity of the ETL runs. The enqueue guard counts active rows once, when a
row is inserted; every later write of a status is unconditional. Exclusivity
therefore rests on no finished row becoming active again, and that rests on where
the run can still be started from: the call that has its `add` to send, the `add`
in flight, the waiting job and the worker that holds it. -/

namespace SalesDashboard.EtlRuns
open Transition

/-! ## The property -/

/-- The queued or running rows of some job types. -/
def activeRuns (p : PlatformJob → Bool) (runs : List JobRun) : Nat :=
  runs.countP fun r => r.status.active && p r.jobType

def mainRun (job : PlatformJob) : Bool := !isLongQueueJob job && job != REFRESH_JOB

structure Exclusive (runs : List JobRun) : Prop where
  main : activeRuns mainRun runs ≤ 1
  refresh : activeRuns (· == REFRESH_JOB) runs ≤ 1
  salesBuild : activeRuns (· == .salesBuild) runs ≤ 1

/-- The row of the run is queued or running. -/
def Live (runs : List JobRun) (runId : Nat) : Prop :=
  ∀ r ∈ runs, r.id = runId → r.status.active = true

/-- The `add` of the call is still to be sent. -/
def CallPhase.unsent : CallPhase → Bool
  | .inserted | .named => true
  | .adding | .failing => false

/-- The attempt can still write, or will be made again. -/
def AttemptPhase.live : AttemptPhase → Bool
  | .picked | .running | .failing true => true
  | .finished | .failing false => false

def NotWaiting (st : State) (runId : Nat) : Prop :=
  ∀ j ∈ st.jobs, j.runId = runId → j.state ≠ .waiting

/-- No `add` of the run is to come, no worker is at it, and its job, if it waits in
the queue, is removed next. -/
structure Abandoned (st : State) (runId : Nat) (thenRemove : Bool) : Prop where
  sent : ∀ c ∈ st.calls, c.runId = runId → c.phase.unsent = false
  landed : ∀ a ∈ st.inFlight, a.runId ≠ runId
  unheld : ∀ a ∈ st.attempts, a.runId = runId → a.phase.live = false
  unqueued : thenRemove = false → NotWaiting st runId

/-- The steps that keep runs exclusive: whoever but the worker fails a row has an
abandoned run; no worker takes a job that is being removed; a removal is not lost
while the job waits; a worker that dies after its last write takes the job with it;
and no worker that lives loses its job. -/
def Keeps (st : State) : Action → Prop
  | .failRow runId => Abandoned st runId false
  | .doTask (.finish runId thenRemove) => Abandoned st runId thenRemove
  | .dropTask (.remove runId) => NotWaiting st runId
  | .pickUp runId => .remove runId ∉ st.tasks
  | .crash runId requeued =>
      requeued = true → ∃ a ∈ st.attempts, a.runId = runId ∧ a.phase.live = true
  | .stall _ _ => False
  | _ => True

instance (st : State) (runId : Nat) : Decidable (NotWaiting st runId) := by
  unfold NotWaiting
  infer_instance

instance (st : State) (runId : Nat) (thenRemove : Bool) :
    Decidable (Abandoned st runId thenRemove) :=
  decidable_of_iff ((∀ c ∈ st.calls, c.runId = runId → c.phase.unsent = false) ∧
      (∀ a ∈ st.inFlight, a.runId ≠ runId) ∧
      (∀ a ∈ st.attempts, a.runId = runId → a.phase.live = false) ∧
      (thenRemove = false → NotWaiting st runId))
    ⟨fun ⟨h₁, h₂, h₃, h₄⟩ => ⟨h₁, h₂, h₃, h₄⟩, fun h => ⟨h.sent, h.landed, h.unheld, h.unqueued⟩⟩

instance (st : State) : (a : Action) → Decidable (Keeps st a)
  | .failRow runId => inferInstanceAs (Decidable (Abandoned st runId false))
  | .doTask (.finish runId thenRemove) =>
      inferInstanceAs (Decidable (Abandoned st runId thenRemove))
  | .dropTask (.remove runId) => inferInstanceAs (Decidable (NotWaiting st runId))
  | .pickUp runId => inferInstanceAs (Decidable (.remove runId ∉ st.tasks))
  | .crash runId requeued => inferInstanceAs
      (Decidable (requeued = true → ∃ a ∈ st.attempts, a.runId = runId ∧ a.phase.live = true))
  | .stall _ _ => .isFalse id
  | .tick _ | .enqueue _ | .setJobId _ | .sendAdd _ | .deliver _ | .lose _ | .addResolved _
  | .giveUp _ | .callDies _ | .start _ | .throw _ | .result _ _ | .settle _ | .evict _
  | .startupSweep | .staleSweep | .forceReset | .doTask (.check _) | .doTask (.remove _)
  | .dropTask (.check _) | .dropTask (.finish _ _) | .strayStart _ | .strayResult _ _
  | .strayEnd _ => .isTrue trivial

/-! ## Writes of the rows -/

/-- A write that keeps the rows and revives none of them. -/
structure Quietly (runs : List JobRun) (f : JobRun → JobRun) : Prop where
  id : ∀ r ∈ runs, (f r).id = r.id
  jobType : ∀ r ∈ runs, (f r).jobType = r.jobType
  active : ∀ r ∈ runs, (f r).status.active = true → r.status.active = true

theorem setStatus_quietly {runs : List JobRun} {runId : Nat} {s : Status}
    (h : s.active = true → Live runs runId) :
    Quietly runs fun r => if r.id = runId then { r with status := s } else r where
  id r _ := by
    split <;> rfl
  jobType r _ := by
    split <;> rfl
  active r hr ha := by
    split at ha
    · next hid => exact h ha r hr hid
    · exact ha

theorem Live.setStatus_active {runs : List JobRun} {runId k : Nat} {s : Status}
    (hs : s.active = true) (h : Live runs k) : Live (setStatus runId s runs) k := by
  intro r hr hk
  obtain ⟨o, ho, rfl⟩ := List.mem_map.mp hr
  by_cases hid : o.id = runId
  · rw [if_pos hid]
    exact hs
  · rw [if_neg hid] at hk ⊢
    exact h o ho hk

theorem Live.setStatus_ne {runs : List JobRun} {runId k : Nat} {s : Status} (hne : k ≠ runId)
    (h : Live runs k) : Live (setStatus runId s runs) k := by
  intro r hr hk
  obtain ⟨o, ho, rfl⟩ := List.mem_map.mp hr
  by_cases hid : o.id = runId
  · rw [if_pos hid] at hk
    exact absurd (hk.symm.trans hid) hne
  · rw [if_neg hid] at hk ⊢
    exact h o ho hk

theorem Live.setRunJobId {runs : List JobRun} {runId k : Nat} (h : Live runs k) :
    Live (setRunJobId runId runs) k := by
  intro r hr hk
  obtain ⟨o, ho, rfl⟩ := List.mem_map.mp hr
  by_cases hid : o.id = runId
  · rw [if_pos hid] at hk ⊢
    exact h o ho hk
  · rw [if_neg hid] at hk ⊢
    exact h o ho hk

theorem map_id_setStatus (runId : Nat) (s : Status) (runs : List JobRun) :
    (setStatus runId s runs).map (·.id) = runs.map (·.id) := by
  unfold setStatus
  rw [List.map_map]
  apply List.map_congr_left
  intro r _
  simp only [Function.comp_apply]
  split <;> rfl

theorem activeRuns_map_le {runs : List JobRun} {f : JobRun → JobRun} (h : Quietly runs f)
    (p : PlatformJob → Bool) : activeRuns p (runs.map f) ≤ activeRuns p runs := by
  unfold activeRuns
  rw [List.countP_map]
  apply List.countP_mono_left
  intro r hr hp
  simp only [Function.comp_apply, Bool.and_eq_true] at hp ⊢
  exact ⟨h.active r hr hp.1, h.jobType r hr ▸ hp.2⟩

theorem Exclusive.map {runs : List JobRun} {f : JobRun → JobRun} (hq : Quietly runs f)
    (h : Exclusive runs) : Exclusive (runs.map f) :=
  ⟨Nat.le_trans (activeRuns_map_le hq _) h.main, Nat.le_trans (activeRuns_map_le hq _) h.refresh,
    Nat.le_trans (activeRuns_map_le hq _) h.salesBuild⟩

/-- The run has a row, and its status is final. -/
structure Done (runs : List JobRun) (runId : Nat) : Prop where
  row : ∃ r ∈ runs, r.id = runId
  final : ∀ r ∈ runs, r.id = runId → r.status.active = false

theorem Done.map {runs : List JobRun} {f : JobRun → JobRun} {runId : Nat} (hq : Quietly runs f)
    (h : Done runs runId) : Done (runs.map f) runId where
  row := by
    obtain ⟨r, hr, hid⟩ := h.row
    exact ⟨f r, List.mem_map_of_mem hr, (hq.id r hr).trans hid⟩
  final r hr hid := by
    obtain ⟨o, ho, rfl⟩ := List.mem_map.mp hr
    rw [hq.id o ho] at hid
    by_contra hactive
    have hdone := h.final o ho hid
    rw [hq.active o ho (Bool.not_eq_false _ ▸ hactive)] at hdone
    cases hdone

/-! ## The guard -/

theorem activeRuns_eq_zero {p : PlatformJob → Bool} {runs : List JobRun} :
    activeRuns p runs = 0 ↔ ∀ job ∈ activeEtlRunJobTypes runs, p job = false := by
  unfold activeRuns activeEtlRunJobTypes
  simp only [List.countP_eq_zero, List.mem_map, List.mem_filter, Bool.and_eq_true, not_and,
    Bool.not_eq_true]
  constructor
  · rintro h _ ⟨r, ⟨hr, ha⟩, rfl⟩
    exact h r hr ha
  · exact fun h r hr ha => h _ ⟨r, ⟨hr, ha⟩, rfl⟩

theorem activeRuns_append_le {p : PlatformJob → Bool} {runs : List JobRun} {r : JobRun}
    (h : activeRuns p runs ≤ 1) (hp : p r.jobType = true → activeRuns p runs = 0) :
    activeRuns p (runs ++ [r]) ≤ 1 := by
  have hsplit : activeRuns p (runs ++ [r]) =
      activeRuns p runs + if r.status.active && p r.jobType then 1 else 0 := by
    unfold activeRuns
    rw [List.countP_append, List.countP_singleton]
  rw [hsplit]
  split
  · next hr =>
    exact Nat.le_of_eq (by rw [hp (Bool.and_eq_true_iff.mp hr).2])
  · exact h

theorem isLongQueueJob_iff {job : PlatformJob} : isLongQueueJob job = true ↔ job = .salesBuild := by
  cases job <;> decide

/-- Only the long schedules queue behind a refresh. -/
theorem not_refresh_of_behind {c : Caller} (h : c.input.queueBehindRefresh = true) :
    platformJobFor c.input.loadMode c.input.job ≠ REFRESH_JOB := by
  cases c with
  | start key => cases key <;> cases h
  | command => cases h
  | scheduledRefresh | scheduledFinance | scheduledSalesBuild => cases h
  | scheduledIncremental | scheduledFull | scheduledNps => decide

/-- What the guard has seen when it lets a job in. -/
theorem mayEnqueue_spec {job : PlatformJob} {behind : Bool} {runs : List JobRun}
    (h : mayEnqueue job behind runs = true) :
    (job = .salesBuild ∧ activeRuns (· == .salesBuild) runs = 0) ∨
      (job ≠ .salesBuild ∧ activeRuns mainRun runs = 0 ∧
        (behind = false → activeRuns (· == REFRESH_JOB) runs = 0)) := by
  unfold mayEnqueue at h
  by_cases hlong : isLongQueueJob job = true
  · rw [if_pos hlong] at h
    obtain rfl := isLongQueueJob_iff.mp hlong
    refine .inl ⟨rfl, activeRuns_eq_zero.mpr fun j hj => ?_⟩
    simp only [Bool.not_eq_true', List.contains_eq_mem, decide_eq_false_iff_not] at h
    exact beq_false_of_ne fun he => h (he ▸ hj)
  · rw [if_neg hlong] at h
    refine .inr ⟨fun he => hlong (isLongQueueJob_iff.mpr he), ?_⟩
    cases behind with
    | false =>
      simp only [Bool.not_false, if_true, beq_iff_eq, List.length_eq_zero_iff,
        List.filter_eq_nil_iff, Bool.not_eq_true', Bool.not_eq_false] at h
      have hmain : ∀ j ∈ activeEtlRunJobTypes runs, j = .salesBuild := fun j hj =>
        isLongQueueJob_iff.mp (h j hj)
      exact ⟨activeRuns_eq_zero.mpr fun j hj => hmain j hj ▸ rfl,
        fun _ => activeRuns_eq_zero.mpr fun j hj => hmain j hj ▸ rfl⟩
    | true =>
      simp only [Bool.not_true, Bool.false_eq_true, if_false, List.all_filter, List.all_eq_true,
        Bool.or_eq_true, Bool.not_not] at h
      refine ⟨activeRuns_eq_zero.mpr fun j hj => ?_, fun h => by cases h⟩
      rcases h j hj with hl | hr
      · unfold mainRun
        rw [hl]
        rfl
      · unfold mainRun bne
        rw [hr, Bool.not_true, Bool.and_false]

theorem Exclusive.enqueue {runs : List JobRun} {c : Caller} (h : Exclusive runs)
    (hmay : mayEnqueue (platformJobFor c.input.loadMode c.input.job) c.input.queueBehindRefresh
      runs = true) {r : JobRun} (hjob : r.jobType = platformJobFor c.input.loadMode c.input.job) :
    Exclusive (runs ++ [r]) := by
  rw [← hjob] at hmay
  have hspec := mayEnqueue_spec hmay
  refine ⟨activeRuns_append_le h.main fun hp => ?_, activeRuns_append_le h.refresh fun hp => ?_,
    activeRuns_append_le h.salesBuild fun hp => ?_⟩
  · rcases hspec with ⟨hsb, -⟩ | ⟨-, hzero, -⟩
    · rw [hsb] at hp
      cases hp
    · exact hzero
  · have hr : r.jobType = REFRESH_JOB := eq_of_beq hp
    rcases hspec with ⟨hsb, -⟩ | ⟨-, -, hzero⟩
    · rw [hsb] at hp
      cases hp
    · refine hzero (Bool.eq_false_iff.mpr fun hb => ?_)
      exact not_refresh_of_behind hb (hjob.symm.trans hr)
  · have hr : r.jobType = .salesBuild := eq_of_beq hp
    rcases hspec with ⟨-, hzero⟩ | ⟨hsb, -⟩
    · exact hzero
    · exact absurd hr hsb

/-! ## The invariant -/

/-- The run has a live row and neither an `add` nor a job yet. -/
structure Unsent (nextId : Nat) (runs : List JobRun) (inFlight : List Add)
    (jobs : List BullJob) (runId : Nat) : Prop where
  lt : runId < nextId
  live : Live runs runId
  flight : ∀ a ∈ inFlight, a.runId ≠ runId
  jobs : ∀ j ∈ jobs, j.runId ≠ runId

/-- A run is started from one place at a time, and its row is live while it can be. -/
structure Inv (st : State) : Prop where
  ids : (st.runs.map (·.id)).Nodup
  fresh : ∀ r ∈ st.runs, r.id < st.nextId
  flightIds : ∀ a ∈ st.inFlight, a.runId < st.nextId
  jobIds : ∀ j ∈ st.jobs, j.runId < st.nextId
  unsent : ∀ c ∈ st.calls, c.phase.unsent = true →
    Unsent st.nextId st.runs st.inFlight st.jobs c.runId
  flight : ∀ a ∈ st.inFlight, Live st.runs a.runId ∧ ∀ j ∈ st.jobs, j.runId ≠ a.runId
  waiting : ∀ j ∈ st.jobs, j.state = .waiting →
    Live st.runs j.runId ∨ .remove j.runId ∈ st.tasks
  held : ∀ a ∈ st.attempts, (∃ j ∈ st.jobs, j.runId = a.runId) ∧
    ∀ j ∈ st.jobs, j.runId = a.runId → j.state = .active
  working : ∀ a ∈ st.attempts, a.phase.live = true → Live st.runs a.runId
  strays : st.strays = []

theorem Unsent.congr {nextId runId : Nat} {runs runs' : List JobRun} {inFlight : List Add}
    {jobs : List BullJob} (h : Unsent nextId runs inFlight jobs runId)
    (hl : Live runs runId → Live runs' runId) : Unsent nextId runs' inFlight jobs runId :=
  ⟨h.lt, hl h.live, h.flight, h.jobs⟩

/-- Nothing is under way; the rows are history. -/
structure Idle (st : State) : Prop where
  ids : (st.runs.map (·.id)).Nodup
  fresh : ∀ r ∈ st.runs, r.id < st.nextId
  done : ∀ r ∈ st.runs, r.status.active = false
  calls : st.calls = []
  inFlight : st.inFlight = []
  jobs : st.jobs = []
  attempts : st.attempts = []
  tasks : st.tasks = []
  strays : st.strays = []

theorem Idle.inv {st : State} (h : Idle st) : Inv st where
  ids := h.ids
  fresh := h.fresh
  flightIds := by simp [h.inFlight]
  jobIds := by simp [h.jobs]
  unsent := by simp [h.calls]
  flight := by simp [h.inFlight]
  waiting := by simp [h.jobs]
  held := by simp [h.attempts]
  working := by simp [h.attempts]
  strays := h.strays

section
variable {st : State} (hi : Inv st)
include hi

theorem Inv.setAttempts {attempts : List Attempt}
    (h : ∀ a ∈ attempts, ∃ o ∈ st.attempts, o.runId = a.runId ∧
      (a.phase.live = true → Live st.runs a.runId)) : Inv { st with attempts := attempts } :=
  { hi with
    held := fun a ha => by
      obtain ⟨o, ho, hid, -⟩ := h a ha
      exact hid ▸ hi.held o ho
    working := fun a ha hl => by
      obtain ⟨o, ho, hid, hlive⟩ := h a ha
      exact hlive hl }

theorem Inv.moveAttempt (runId : Nat) (phase : AttemptPhase)
    (h : phase.live = true → Live st.runs runId) :
    Inv { st with attempts := setAttemptPhase runId phase st.attempts } := by
  refine hi.setAttempts fun a ha => ?_
  obtain ⟨o, ho, rfl⟩ := List.mem_map.mp ha
  by_cases hid : o.runId = runId
  · rw [if_pos hid]
    exact ⟨o, ho, rfl, fun hl => hid ▸ h hl⟩
  · rw [if_neg hid]
    exact ⟨o, ho, rfl, hi.working o ho⟩

theorem Inv.setTasks (tasks : List SweepTask)
    (h : ∀ j ∈ st.jobs, j.state = .waiting → .remove j.runId ∈ st.tasks →
      .remove j.runId ∈ tasks) : Inv { st with tasks := tasks } :=
  { hi with
    waiting := fun j hj hw => (hi.waiting j hj hw).imp_right (h j hj hw) }

/-- A row is set to an active status by a party that finds it live. -/
theorem Inv.writeActive (runId : Nat) {s : Status} (hs : s.active = true) :
    Inv { st with runs := setStatus runId s st.runs } where
  ids := by
    show ((setStatus runId s st.runs).map (·.id)).Nodup
    rw [map_id_setStatus]
    exact hi.ids
  fresh r hr := by
    obtain ⟨o, ho, rfl⟩ := List.mem_map.mp hr
    have := hi.fresh o ho
    split <;> exact this
  flightIds := hi.flightIds
  jobIds := hi.jobIds
  unsent c hc hu := (hi.unsent c hc hu).congr (·.setStatus_active hs)
  flight a ha := ⟨(hi.flight a ha).1.setStatus_active hs, (hi.flight a ha).2⟩
  waiting j hj hw := (hi.waiting j hj hw).imp_left (·.setStatus_active hs)
  held := hi.held
  working a ha hl := (hi.working a ha hl).setStatus_active hs
  strays := hi.strays

/-- The row of a run may be finished once nothing can start the run any more, but
for a waiting job that is removed next. -/
theorem Inv.finish {runId : Nat} (s : Status)
    (hcalls : ∀ c ∈ st.calls, c.runId = runId → c.phase.unsent = false)
    (hflight : ∀ a ∈ st.inFlight, a.runId ≠ runId)
    (hjobs : ∀ j ∈ st.jobs, j.runId = runId → j.state = .waiting → .remove runId ∈ st.tasks)
    (hattempts : ∀ a ∈ st.attempts, a.runId = runId → a.phase.live = false) :
    Inv { st with runs := setStatus runId s st.runs } where
  ids := by
    show ((setStatus runId s st.runs).map (·.id)).Nodup
    rw [map_id_setStatus]
    exact hi.ids
  fresh r hr := by
    obtain ⟨o, ho, rfl⟩ := List.mem_map.mp hr
    have := hi.fresh o ho
    split <;> exact this
  flightIds := hi.flightIds
  jobIds := hi.jobIds
  unsent c hc hu := by
    have hne : c.runId ≠ runId := fun h => by
      rw [hcalls c hc h] at hu
      cases hu
    exact (hi.unsent c hc hu).congr (·.setStatus_ne hne)
  flight a ha := ⟨(hi.flight a ha).1.setStatus_ne (hflight a ha), (hi.flight a ha).2⟩
  waiting j hj hw := by
    by_cases hid : j.runId = runId
    · exact .inr (hid ▸ hjobs j hj hid hw)
    · exact (hi.waiting j hj hw).imp_left (·.setStatus_ne hid)
  held := hi.held
  working a ha hl := by
    have hne : a.runId ≠ runId := fun h => by
      rw [hattempts a ha h] at hl
      cases hl
    exact (hi.working a ha hl).setStatus_ne hne
  strays := hi.strays

/-- Jobs change their state or go; those that wait are live or about to go. -/
theorem Inv.setJobs {jobs : List BullJob}
    (hids : ∀ j ∈ jobs, ∃ o ∈ st.jobs, o.runId = j.runId)
    (hwaiting : ∀ j ∈ jobs, j.state = .waiting →
      Live st.runs j.runId ∨ .remove j.runId ∈ st.tasks)
    (hheld : ∀ a ∈ st.attempts, (∃ j ∈ jobs, j.runId = a.runId) ∧
      ∀ j ∈ jobs, j.runId = a.runId → j.state = .active) : Inv { st with jobs := jobs } where
  ids := hi.ids
  fresh := hi.fresh
  flightIds := hi.flightIds
  jobIds j hj := by
    obtain ⟨o, ho, hid⟩ := hids j hj
    exact hid ▸ hi.jobIds o ho
  unsent c hc hu :=
    { lt := (hi.unsent c hc hu).lt
      live := (hi.unsent c hc hu).live
      flight := (hi.unsent c hc hu).flight
      jobs := fun j hj => by
        obtain ⟨o, ho, hid⟩ := hids j hj
        exact hid ▸ (hi.unsent c hc hu).jobs o ho }
  flight a ha := ⟨(hi.flight a ha).1, fun j hj => by
    obtain ⟨o, ho, hid⟩ := hids j hj
    exact hid ▸ (hi.flight a ha).2 o ho⟩
  waiting := hwaiting
  held := hheld
  working := hi.working
  strays := hi.strays

/-- The job of a run that no worker holds. -/
theorem Inv.setJobsOf (runId : Nat) (f : BullJob → BullJob) (hf : ∀ j, (f j).runId = j.runId)
    (hwaiting : ∀ j ∈ st.jobs, j.runId = runId → (f j).state = .waiting → Live st.runs runId)
    (hfree : ∀ a ∈ st.attempts, a.runId ≠ runId) :
    Inv { st with jobs := st.jobs.map fun j => if j.runId = runId then f j else j } := by
  refine hi.setJobs ?_ ?_ ?_
  · intro j hj
    obtain ⟨o, ho, rfl⟩ := List.mem_map.mp hj
    refine ⟨o, ho, ?_⟩
    split
    · exact (hf o).symm
    · rfl
  · intro j hj hw
    obtain ⟨o, ho, rfl⟩ := List.mem_map.mp hj
    by_cases hid : o.runId = runId
    · rw [if_pos hid] at hw ⊢
      rw [hf, hid]
      exact .inl (hwaiting o ho hid hw)
    · rw [if_neg hid] at hw ⊢
      exact hi.waiting o ho hw
  · intro a ha
    obtain ⟨⟨j, hj, hja⟩, hall⟩ := hi.held a ha
    have hne : ∀ j ∈ st.jobs, j.runId = a.runId → j.runId ≠ runId := fun j _ h =>
      h ▸ hfree a ha
    refine ⟨⟨j, List.mem_map.mpr ⟨j, hj, if_neg (hne j hj hja)⟩, hja⟩, ?_⟩
    intro j' hj' hid'
    obtain ⟨o, ho, rfl⟩ := List.mem_map.mp hj'
    by_cases hid : o.runId = runId
    · rw [if_pos hid, hf] at hid'
      exact absurd hid (hne o ho hid')
    · rw [if_neg hid] at hid' ⊢
      exact hall o ho hid'

theorem Inv.filterJobs (p : BullJob → Bool) (h : ∀ j ∈ st.jobs, j.state = .active → p j = true) :
    Inv { st with jobs := st.jobs.filter p } := by
  refine hi.setJobs (fun j hj => ⟨j, List.mem_of_mem_filter hj, rfl⟩)
    (fun j hj => hi.waiting j (List.mem_of_mem_filter hj)) ?_
  intro a ha
  obtain ⟨⟨j, hj, hja⟩, hall⟩ := hi.held a ha
  exact ⟨⟨j, List.mem_filter.mpr ⟨hj, h j hj (hall j hj hja)⟩, hja⟩,
    fun j' hj' => hall j' (List.mem_of_mem_filter hj')⟩

/-! ## The enqueuing calls -/

omit hi in
theorem findCall_some {runId : Nat} {phase : CallPhase} {c : Call}
    (h : findCall st runId phase = some c) : c ∈ st.calls ∧ c.runId = runId ∧ c.phase = phase := by
  have hp := List.find?_some h
  simp only [decide_eq_true_eq] at hp
  exact ⟨List.mem_of_find?_eq_some h, hp⟩

omit hi in
theorem mem_setCallPhase {runId : Nat} {phase : CallPhase} {calls : List Call} {c : Call}
    (h : c ∈ setCallPhase runId phase calls) :
    ∃ o ∈ calls, o.runId = c.runId ∧
      ((o.runId = runId ∧ c.phase = phase) ∨ (o.runId ≠ runId ∧ c = o)) := by
  obtain ⟨o, ho, rfl⟩ := List.mem_map.mp h
  by_cases hid : o.runId = runId
  · rw [if_pos hid]
    exact ⟨o, ho, rfl, .inl ⟨hid, rfl⟩⟩
  · rw [if_neg hid]
    exact ⟨o, ho, rfl, .inr ⟨hid, rfl⟩⟩

theorem Inv.enqueue (job : PlatformJob) (attempts : Nat) :
    Inv { st with
      nextId := st.nextId + 1
      runs := st.runs ++ [⟨st.nextId, job, .queued, st.clock, false⟩]
      calls := st.calls ++ [⟨st.nextId, attempts, .inserted⟩] } := by
  have hlive : ∀ k, Live st.runs k →
      Live (st.runs ++ [⟨st.nextId, job, .queued, st.clock, false⟩]) k := by
    intro k h r hr hk
    rcases List.mem_append.mp hr with hr | hr
    · exact h r hr hk
    · rw [List.mem_singleton.mp hr]
      rfl
  have hnew : Live (st.runs ++ [⟨st.nextId, job, .queued, st.clock, false⟩]) st.nextId := by
    intro r hr hk
    rcases List.mem_append.mp hr with hr | hr
    · have := hi.fresh r hr
      omega
    · rw [List.mem_singleton.mp hr]
      rfl
  refine ⟨?_, ?_, ?_, ?_, ?_, ?_, ?_, hi.held, fun a ha hl => hlive _ (hi.working a ha hl), hi.strays⟩
  · show (List.map JobRun.id (st.runs ++ [⟨st.nextId, job, .queued, st.clock, false⟩])).Nodup
    rw [List.map_append, List.nodup_append]
    refine ⟨hi.ids, List.nodup_singleton _, ?_⟩
    intro k hk k' hk' heq
    obtain ⟨r, hr, rfl⟩ := List.mem_map.mp hk
    have hk' : k' = st.nextId := List.mem_singleton.mp hk'
    have := hi.fresh r hr
    omega
  · intro r hr
    show r.id < st.nextId + 1
    rcases List.mem_append.mp hr with hr | hr
    · have := hi.fresh r hr
      omega
    · rw [List.mem_singleton.mp hr]
      exact Nat.lt_succ_self _
  · exact fun a ha => Nat.lt_succ_of_lt (hi.flightIds a ha)
  · exact fun j hj => Nat.lt_succ_of_lt (hi.jobIds j hj)
  · intro c hc hu
    rcases List.mem_append.mp hc with hc | hc
    · have hc := hi.unsent c hc hu
      exact ⟨Nat.lt_succ_of_lt hc.lt, hlive _ hc.live, hc.flight, hc.jobs⟩
    · rw [List.mem_singleton.mp hc]
      exact ⟨Nat.lt_succ_self _, hnew, fun a ha => Nat.ne_of_lt (hi.flightIds a ha),
        fun j hj => Nat.ne_of_lt (hi.jobIds j hj)⟩
  · exact fun a ha => ⟨hlive _ (hi.flight a ha).1, (hi.flight a ha).2⟩
  · exact fun j hj hw => (hi.waiting j hj hw).imp_left (hlive _)

theorem Inv.sendAdd {runId : Nat} {c : Call} (hc : findCall st runId .named = some c) :
    Inv { st with
      inFlight := st.inFlight ++ [⟨runId, c.attempts⟩]
      calls := setCallPhase runId .adding st.calls } := by
  obtain ⟨hmem, rfl, hphase⟩ := findCall_some hc
  have hunsent := hi.unsent c hmem (by rw [hphase]; rfl)
  refine { hi with flightIds := ?_, unsent := ?_, flight := ?_ }
  · intro a ha
    rcases List.mem_append.mp ha with ha | ha
    · exact hi.flightIds a ha
    · rw [List.mem_singleton.mp ha]
      exact hunsent.lt
  · intro c' hc' hu
    obtain ⟨o, ho, hoid, ⟨-, hp⟩ | ⟨hne, rfl⟩⟩ := mem_setCallPhase hc'
    · rw [hp] at hu
      cases hu
    · obtain ⟨h₁, h₂, h₃, h₄⟩ := hi.unsent c' ho hu
      refine ⟨h₁, h₂, fun a ha => ?_, h₄⟩
      rcases List.mem_append.mp ha with ha | ha
      · exact h₃ a ha
      · rw [List.mem_singleton.mp ha]
        exact hne.symm
  · intro a ha
    rcases List.mem_append.mp ha with ha | ha
    · exact hi.flight a ha
    · rw [List.mem_singleton.mp ha]
      exact ⟨hunsent.live, hunsent.jobs⟩

/-- The job enters the queue with a live row. -/
theorem Inv.deliver {runId : Nat} {add : Add}
    (hadd : st.inFlight.find? (·.runId = runId) = some add) :
    Inv { st with
      inFlight := st.inFlight.filter fun a => decide (a.runId ≠ runId)
      jobs := st.jobs ++ [⟨runId, add.attempts, 0, .waiting⟩] } := by
  have hid : add.runId = runId := by simpa using List.find?_some hadd
  have hmem := List.mem_of_find?_eq_some hadd
  subst hid
  obtain ⟨hlive, hjobs⟩ := hi.flight add hmem
  refine ⟨hi.ids, hi.fresh, ?_, ?_, ?_, ?_, ?_, ?_, hi.working, hi.strays⟩
  · exact fun a ha => hi.flightIds a (List.mem_of_mem_filter ha)
  · intro j hj
    rcases List.mem_append.mp hj with hj | hj
    · exact hi.jobIds j hj
    · rw [List.mem_singleton.mp hj]
      exact hi.flightIds add hmem
  · intro c hc hu
    obtain ⟨h₁, h₂, h₃, h₄⟩ := hi.unsent c hc hu
    refine ⟨h₁, h₂, fun a ha => h₃ a (List.mem_of_mem_filter ha), fun j hj => ?_⟩
    rcases List.mem_append.mp hj with hj | hj
    · exact h₄ j hj
    · rw [List.mem_singleton.mp hj]
      exact h₃ add hmem
  · intro a ha
    obtain ⟨ha, hne⟩ := List.mem_filter.mp ha
    have hne := of_decide_eq_true hne
    refine ⟨(hi.flight a ha).1, fun j hj => ?_⟩
    rcases List.mem_append.mp hj with hj | hj
    · exact (hi.flight a ha).2 j hj
    · rw [List.mem_singleton.mp hj]
      exact hne.symm
  · intro j hj hw
    rcases List.mem_append.mp hj with hj | hj
    · exact hi.waiting j hj hw
    · rw [List.mem_singleton.mp hj]
      exact .inl hlive
  · intro a ha
    obtain ⟨⟨j, hj, hja⟩, hall⟩ := hi.held a ha
    refine ⟨⟨j, List.mem_append_left _ hj, hja⟩, fun j' hj' hid => ?_⟩
    rcases List.mem_append.mp hj' with hj' | hj'
    · exact hall j' hj' hid
    · rw [List.mem_singleton.mp hj'] at hid
      exact absurd (hja.trans hid.symm) (hjobs j hj)

theorem Inv.lose (runId : Nat) :
    Inv { st with inFlight := st.inFlight.filter fun a => decide (a.runId ≠ runId) } :=
  { hi with
    flightIds := fun a ha => hi.flightIds a (List.mem_of_mem_filter ha)
    unsent := fun c hc hu =>
      { lt := (hi.unsent c hc hu).lt
        live := (hi.unsent c hc hu).live
        flight := fun a ha => (hi.unsent c hc hu).flight a (List.mem_of_mem_filter ha)
        jobs := (hi.unsent c hc hu).jobs }
    flight := fun a ha => hi.flight a (List.mem_of_mem_filter ha) }

/-! ## The workers -/

omit hi in
theorem findAttempt_some {runId : Nat} {a : Attempt} (h : findAttempt st runId = some a) :
    a ∈ st.attempts ∧ a.runId = runId :=
  ⟨List.mem_of_find?_eq_some h, by simpa using List.find?_some h⟩

/-- A worker takes a waiting job whose row is live. -/
theorem Inv.pickUp {runId : Nat} {j : BullJob} {willRetry : Bool}
    (hj : st.jobs.find? (fun j => j.runId = runId ∧ j.state = .waiting) = some j)
    (hremove : .remove runId ∉ st.tasks) :
    Inv { st with
      jobs := setJobState runId .active st.jobs
      attempts := st.attempts ++ [⟨runId, willRetry, .picked⟩] } := by
  have hmem := List.mem_of_find?_eq_some hj
  have hp := List.find?_some hj
  simp only [decide_eq_true_eq] at hp
  obtain ⟨rfl, hw⟩ := hp
  have hlive : Live st.runs j.runId := (hi.waiting j hmem hw).resolve_right hremove
  have hfree : ∀ a ∈ st.attempts, a.runId ≠ j.runId := by
    intro a ha h
    rw [(hi.held a ha).2 j hmem h.symm] at hw
    cases hw
  have hi' := hi.setJobsOf j.runId (fun j => { j with state := .active })
    (fun _ => rfl) (fun _ _ _ h => by cases h) hfree
  refine { hi' with held := ?_, working := ?_ }
  · intro a ha
    rcases List.mem_append.mp ha with ha | ha
    · exact hi'.held a ha
    · rw [List.mem_singleton.mp ha]
      refine ⟨⟨{ j with state := .active }, List.mem_map.mpr ⟨j, hmem, if_pos rfl⟩, rfl⟩, ?_⟩
      intro j' hj' hid
      obtain ⟨o, _, rfl⟩ := List.mem_map.mp hj'
      by_cases ho : o.runId = j.runId
      · rw [if_pos ho]
      · rw [if_neg ho] at hid
        exact absurd hid ho
  · intro a ha hl
    rcases List.mem_append.mp ha with ha | ha
    · exact hi.working a ha hl
    · rw [List.mem_singleton.mp ha]
      exact hlive

/-- No other place than its attempt can start a run that a worker holds. -/
theorem Inv.finishHeld {runId : Nat} {a : Attempt} (ha : a ∈ st.attempts) (hid : a.runId = runId)
    (s : Status) {phase : AttemptPhase} (hphase : phase.live = false) :
    Inv { st with
      runs := setStatus runId s st.runs
      attempts := setAttemptPhase runId phase st.attempts } := by
  subst hid
  obtain ⟨⟨j, hj, hja⟩, hall⟩ := hi.held a ha
  have hi' := hi.moveAttempt a.runId phase fun hl => by
    rw [hphase] at hl
    cases hl
  refine hi'.finish s ?_ ?_ ?_ ?_
  · intro c hc hca
    refine Bool.eq_false_iff.mpr fun hu => ?_
    exact (hi.unsent c hc hu).jobs j hj (hja.trans hca.symm)
  · exact fun f hf hfa => (hi.flight f hf).2 j hj (hja.trans hfa.symm)
  · intro j' hj' hid hw
    rw [hall j' hj' hid] at hw
    cases hw
  · intro a' ha' hid
    obtain ⟨o, _, rfl⟩ := List.mem_map.mp ha'
    by_cases ho : o.runId = a.runId
    · rw [if_pos ho]
      exact hphase
    · rw [if_neg ho] at hid
      exact absurd hid ho

/-- The worker records how its attempt ended. -/
theorem Inv.result {runId : Nat} {a : Attempt} (ha : findAttempt st runId = some a)
    (hrun : a.phase = .running) (outcome : Outcome) :
    Inv { st with
      runs := setStatus runId (recorded a.willRetry outcome) st.runs
      attempts := setAttemptPhase runId
        (if outcome = .failed then .failing a.willRetry else .finished) st.attempts } := by
  obtain ⟨hmem, hid⟩ := findAttempt_some ha
  have hlive : Live st.runs runId := hid ▸ hi.working a hmem (by rw [hrun]; rfl)
  cases outcome with
  | failed =>
    cases a.willRetry with
    | true => exact (hi.moveAttempt runId (.failing true) fun _ => hlive).writeActive runId rfl
    | false => exact hi.finishHeld hmem hid .failed rfl
  | cancelled | partial_ | locked | success => exact hi.finishHeld hmem hid _ rfl

end

/-! ## The run -/

theorem Inv.stepTask {st : State} (hi : Inv st) {task : SweepTask}
    (hk : Keeps st (.doTask task)) : Inv (stepTask st task) := by
  have hother : ∀ {k : Nat} {t : SweepTask}, t ≠ .remove k → .remove k ∈ st.tasks →
      .remove k ∈ st.tasks.erase t := fun hne hmem =>
    (List.mem_erase_of_ne hne.symm).mpr hmem
  cases task with
  | check runId =>
    simp only [EtlRuns.stepTask]
    split
    · exact hi.setTasks _ fun j _ _ hmem => hother (by simp) hmem
    · exact hi.setTasks _ fun j _ _ hmem => List.mem_cons_of_mem _ (hother (by simp) hmem)
  | finish runId thenRemove =>
    have hk : Abandoned st runId thenRemove := hk
    have hi' := hi.setTasks (if thenRemove = true
      then .remove runId :: st.tasks.erase (.finish runId thenRemove)
      else st.tasks.erase (.finish runId thenRemove)) fun j _ _ hmem => by
        have := hother (t := .finish runId thenRemove) (by simp) hmem
        split
        · exact List.mem_cons_of_mem _ this
        · exact this
    refine hi'.finish .failed hk.sent hk.landed ?_ hk.unheld
    intro j hj hid hw
    cases thenRemove with
    | true => exact List.mem_cons_self
    | false => exact absurd hw (hk.unqueued rfl j hj hid)
  | remove runId =>
    have hi' := hi.filterJobs (fun j => decide (¬ (j.runId = runId ∧ j.state ≠ .active)))
      fun j _ ha => by simp [ha]
    refine hi'.setTasks _ fun j hj hw hmem => hother (fun h => ?_) hmem
    have hkeep := of_decide_eq_true (List.mem_filter.mp hj).2
    refine hkeep ⟨?_, by rw [hw]; decide⟩
    injection h with h
    exact h.symm

theorem Inv.not_stray {st : State} (hi : Inv st) (a : Attempt) : a ∉ st.strays := by
  rw [hi.strays]
  exact List.not_mem_nil

theorem quietly_id (runs : List JobRun) : Quietly runs id :=
  ⟨fun _ _ => rfl, fun _ _ => rfl, fun _ _ h => h⟩

theorem setRunJobId_quietly (runs : List JobRun) (runId : Nat) :
    Quietly runs fun r => if r.id = runId then { r with hasJobId := true } else r where
  id r _ := by
    split <;> rfl
  jobType r _ := by
    split <;> rfl
  active r _ ha := by
    split at ha <;> exact ha

/-- A step that is not an enqueue revives no row. -/
theorem rows_of_step {st st' : State} {a : Action} (hi : Inv st) (h : step st a = some st') :
    (∃ caller, a = .enqueue caller) ∨ ∃ f, Quietly st.runs f ∧ st'.runs = st.runs.map f := by
  have hsame : st'.runs = st.runs → ∃ f, Quietly st.runs f ∧ st'.runs = st.runs.map f := fun he =>
    ⟨id, quietly_id _, by rw [he, List.map_id]⟩
  have hfinish : ∀ {runId : Nat} {s : Status}, s.active = false →
      ∃ f, Quietly st.runs f ∧ setStatus runId s st.runs = st.runs.map f := fun hs =>
    ⟨_, setStatus_quietly (fun ha => by rw [hs] at ha; cases ha), rfl⟩
  cases a with
  | enqueue caller => exact .inl ⟨caller, rfl⟩
  | tick | lose | callDies | evict | startupSweep | staleSweep | forceReset =>
    cases h
    exact .inr (hsame rfl)
  | setJobId runId =>
    simp only [step] at h
    split at h
    · cases h
    · cases h
      exact .inr ⟨_, setRunJobId_quietly _ runId, rfl⟩
  | sendAdd | deliver | giveUp | pickUp | crash | stall | dropTask =>
    simp only [step] at h
    split at h
    all_goals cases h
    exact .inr (hsame rfl)
  | strayStart a | strayResult a outcome =>
    simp only [step] at h
    split at h
    · next hstray => exact absurd hstray.1 (hi.not_stray a)
    · cases h
  | strayEnd a =>
    simp only [step] at h
    split at h
    · next hstray => exact absurd hstray (hi.not_stray a)
    · cases h
  | addResolved =>
    simp only [step] at h
    split at h
    · cases h
    split at h
    · cases h
    · cases h
      exact .inr (hsame rfl)
  | failRow runId =>
    simp only [step] at h
    split at h
    · cases h
    · cases h
      exact .inr (hfinish rfl)
  | start runId =>
    simp only [step] at h
    split at h
    · next ha =>
      cases h
      obtain ⟨hmem, hid⟩ := findAttempt_some ha
      exact .inr ⟨_, setStatus_quietly fun _ => hid ▸ hi.working _ hmem rfl, rfl⟩
    · cases h
  | throw runId =>
    simp only [step] at h
    split at h
    · cases h
      exact .inr (hsame rfl)
    · cases h
      exact .inr (hsame rfl)
    · cases h
  | result runId outcome =>
    simp only [step] at h
    split at h
    · next ha =>
      cases h
      obtain ⟨hmem, hid⟩ := findAttempt_some ha
      exact .inr ⟨_, setStatus_quietly fun _ => hid ▸ hi.working _ hmem rfl, rfl⟩
    · cases h
  | settle runId =>
    simp only [step] at h
    split at h
    · cases h
      exact .inr (hsame rfl)
    · cases h
      exact .inr (hsame rfl)
    · cases h
      exact .inr (hsame rfl)
    · cases h
  | doTask task =>
    simp only [step] at h
    split at h
    · cases h
      cases task with
      | check runId =>
        simp only [stepTask]
        refine .inr ?_
        split <;> exact ⟨id, quietly_id _, (List.map_id _).symm⟩
      | finish runId thenRemove => exact .inr (hfinish rfl)
      | remove runId => exact .inr (hsame rfl)
    · cases h

theorem Exclusive.step {st st' : State} {a : Action} (hi : Inv st)
    (h : step st a = some st') (he : Exclusive st.runs) : Exclusive st'.runs := by
  rcases rows_of_step hi h with ⟨caller, rfl⟩ | ⟨f, hq, hruns⟩
  · simp only [EtlRuns.step] at h
    split at h
    · next hmay =>
      cases h
      exact he.enqueue hmay rfl
    · cases h
  · rw [hruns]
    exact he.map hq

theorem Done.step {st st' : State} {a : Action} {runId : Nat} (hi : Inv st)
    (h : step st a = some st') (hd : Done st.runs runId) : Done st'.runs runId := by
  rcases rows_of_step hi h with ⟨caller, rfl⟩ | ⟨f, hq, hruns⟩
  · simp only [EtlRuns.step] at h
    split at h
    · cases h
      obtain ⟨r, hr, hid⟩ := hd.row
      have hlt := hi.fresh r hr
      refine ⟨⟨r, List.mem_append_left _ hr, hid⟩, fun r' hr' hid' => ?_⟩
      rcases List.mem_append.mp hr' with hr' | hr'
      · exact hd.final r' hr' hid'
      · rw [List.mem_singleton.mp hr'] at hid'
        have hid' : st.nextId = runId := hid'
        omega
    · cases h
  · rw [hruns]
    exact hd.map hq

def noRuns : State := ⟨0, 1, [], [], [], [], [], [], []⟩

/-- A full run that succeeded although its worker had lost the job. -/
def outlived : State :=
  { noRuns with
    nextId := 2
    runs := [⟨1, .fullAll, .success, 0, true⟩]
    jobs := [⟨1, 3, 0, .waiting⟩] }

/-- A job that stalls is worked on again after its run has ended. -/
theorem stall_revives : FreeRun step noRuns [.enqueue (.start .full), .setJobId 1, .sendAdd 1, .deliver 1,
      .addResolved 1, .pickUp 1, .start 1, .stall 1 true, .strayResult ⟨1, true, .running⟩ .success] outlived ∧
    FreeRun step outlived [.pickUp 1, .start 1]
      { outlived with
        runs := [⟨1, .fullAll, .running, 0, true⟩]
        jobs := [⟨1, 3, 0, .active⟩]
        attempts := [⟨1, true, .running⟩] } :=
  ⟨(exec_eq_some _ _ _ _ _).mp (by decide +kernel), (exec_eq_some _ _ _ _ _).mp (by decide +kernel)⟩

end SalesDashboard.EtlRuns
