import SalesDashboard.EtlPlatform.Runner

/-! Dependency discipline of a run whose job is not isolated: what has happened when a
task starts, and what the status of the run says. -/

namespace SalesDashboard.EtlPlatform
open Topological

/-! ## Definitions -/

/-- The dependencies that a job runs and that are not optional. -/
def requiredDeps (env : Env) (job : JobSpec) : List String :=
  (dependencies env job).filter (· ∉ job.optionalJobs)

/-- What `--dataset` leaves out; it filters the tasks of the top-level job only. -/
def filteredOut (env : Env) (dataset : Option String) (top : JobSpec) (job task : String) : Bool :=
  job = top.name && leftOut env dataset task

/-- What holds of the events before a task starts. -/
structure MayStart (env : Env) (dataset : Option String) (top : JobSpec) (before : List Event)
    (job : JobSpec) (task : String) : Prop where
  once : .taskStarted job.name task ∉ before
  required : job.isolated = false → ∀ dep ∈ requiredDeps env job,
    ∃ status, status.notRun = false ∧ .ended dep status ∈ before
  taskDeps : ∀ dep ∈ env.registry.taskDeps task, dep ∈ job.tasks →
    .taskCompleted job.name dep ∈ before ∨ filteredOut env dataset top job.name dep = true
  unfailed : ∀ other, .taskFailed job.name other ∉ before

def StartsInOrder (env : Env) (dataset : Option String) (top : JobSpec) (trace : List Event) : Prop :=
  ∀ before name task after, trace = before ++ .taskStarted name task :: after →
    ∃ job, env.registry.getJob name = some job ∧ task ∈ job.tasks ∧ MayStart env dataset top before job task

/-- The job failed or was skipped. -/
def DidNotRun (trace : List Event) (name : String) : Prop :=
  .ended name .failed ∈ trace ∨ .ended name .skipped ∈ trace

structure Disciplined (env : Env) (dataset : Option String) (top : JobSpec) (report : Report) : Prop where
  starts : StartsInOrder env dataset top report.trace
  endsOnce : ∀ name s s', .ended name s ∈ report.trace → .ended name s' ∈ report.trace → s = s'
  blocked : ∀ job ∈ env.registry.jobs, job.isolated = false →
    (∃ dep ∈ requiredDeps env job, DidNotRun report.trace dep) → ∀ task, .taskStarted job.name task ∉ report.trace
  success : report.lastStatus = .success ↔
    (∀ task, .taskFailed top.name task ∉ report.trace) ∧ ∀ dep ∈ dependencies env top, ¬ DidNotRun report.trace dep
  partly : report.lastStatus = .partly ↔
    (∀ task, .taskFailed top.name task ∉ report.trace) ∧
      (∀ dep ∈ requiredDeps env top, ¬ DidNotRun report.trace dep) ∧
      ∃ dep ∈ dependencies env top, DidNotRun report.trace dep
  failed : report.lastStatus = .failed ↔
    (∃ task, .taskFailed top.name task ∈ report.trace) ∨ ∃ dep ∈ requiredDeps env top, DidNotRun report.trace dep

/-! ## The loop over the tasks -/

/-- Where a start stands in the events of the loop. -/
theorem runTasks_split {env : Env} {dataset : Option String} {job : String} {order : List String}
    {before after : List Event} {task : String}
    (h : (runTasks env dataset job order).1 = before ++ .taskStarted job task :: after) :
    ∃ done rest, order = done ++ task :: rest ∧
      (∀ d ∈ done, .taskCompleted job d ∈ before ∨ leftOut env dataset d = true) ∧
      (∀ u, .taskStarted job u ∈ before → u ∈ done) ∧ ∀ u, .taskFailed job u ∉ before := by
  induction order generalizing before with
  | nil => simp [runTasks] at h
  | cons t order ih =>
    rw [runTasks] at h
    split_ifs at h with hout hok
    · obtain ⟨done, rest, rfl, hdone, hstarted, hfailed⟩ := ih h
      refine ⟨t :: done, rest, rfl, ?_, fun u hu => List.mem_cons_of_mem _ (hstarted u hu), hfailed⟩
      intro d hd
      rcases List.mem_cons.mp hd with rfl | hd
      · exact .inr hout
      · exact hdone d hd
    · rcases before with _ | ⟨e, _ | ⟨e', before⟩⟩
      · cases h
        exact ⟨[], order, rfl, by simp, by simp, by simp⟩
      · simp at h
      · simp only [List.cons_append, List.cons.injEq] at h
        obtain ⟨rfl, rfl, h⟩ := h
        obtain ⟨done, rest, rfl, hdone, hstarted, hfailed⟩ := ih h
        refine ⟨t :: done, rest, rfl, ?_, ?_, by simpa using hfailed⟩
        · intro d hd
          rcases List.mem_cons.mp hd with rfl | hd
          · exact .inl (by simp)
          · exact (hdone d hd).imp_left fun h => List.mem_cons_of_mem _ (List.mem_cons_of_mem _ h)
        · intro u hu
          simp only [List.mem_cons, Event.taskStarted.injEq, true_and, reduceCtorEq, false_or] at hu
          rcases hu with rfl | hu
          · exact List.mem_cons_self
          · exact List.mem_cons_of_mem _ (hstarted u hu)
    · rcases before with _ | ⟨e, _ | ⟨e', before⟩⟩
      · cases h
        exact ⟨[], order, rfl, by simp, by simp, by simp⟩
      · simp at h
      · simp at h

theorem runTasks_events (env : Env) (dataset : Option String) (job : String) (order : List String) :
    (∀ e ∈ (runTasks env dataset job order).1, e.job = job ∧ ∀ name s, e ≠ .ended name s) ∧
      ((runTasks env dataset job order).2 = false ↔ ∃ t, .taskFailed job t ∈ (runTasks env dataset job order).1) := by
  induction order with
  | nil => simp [runTasks]
  | cons t order ih =>
    rw [runTasks]
    split_ifs with hout hok
    · exact ih
    · simp only [List.mem_cons, forall_eq_or_imp, Event.job, ne_eq, reduceCtorEq, not_false_eq_true,
        implies_true, and_self, true_and, false_or]
      exact ih
    · simp [Event.job]

/-! ## The events of a run -/

/-- Between the runs of two jobs. -/
structure InStep (env : Env) (dataset : Option String) (top : JobSpec) (st : RunState) : Prop
    extends Recorded st where
  starts : StartsInOrder env dataset top st.trace

theorem InStep.start (env : Env) (dataset : Option String) (top : JobSpec) : InStep env dataset top .start where
  toRecorded := .start
  starts before name task after h := by simp [RunState.start] at h

theorem InStep.close {env : Env} {dataset : Option String} {top : JobSpec} {st : RunState}
    (h : InStep env dataset top st) {name : String} (hnone : st.done name = none) (events : List Event)
    (hevents : ∀ e ∈ events, e.job = name ∧ ∀ n s, e ≠ .ended n s)
    (hstarts : ∀ before n task after, events = before ++ .taskStarted n task :: after →
      ∃ job, env.registry.getJob n = some job ∧ task ∈ job.tasks ∧
        MayStart env dataset top (st.trace ++ before) job task)
    (s : Status) : InStep env dataset top ((st.log events).close name s) where
  toRecorded := h.toRecorded.close hnone hevents s
  starts before n task after heq := by
    have heq : st.trace ++ events ++ [.ended name s] = before ++ .taskStarted n task :: after := heq
    rcases List.eq_nil_or_concat after with rfl | ⟨after, e, rfl⟩
    · have := (List.append_inj' heq rfl).2
      cases this
    · have hsplit : st.trace ++ events = before ++ .taskStarted n task :: after := by
        have heq : st.trace ++ events ++ [.ended name s] = (before ++ .taskStarted n task :: after) ++ [e] := by
          simpa using heq
        exact (List.append_inj' heq rfl).1
      rcases List.append_eq_append_iff.mp hsplit with ⟨mid, rfl, hmid⟩ | ⟨mid, htrace, hmid⟩
      · exact hstarts mid n task after hmid
      · cases mid with
        | nil =>
          rw [List.append_nil] at htrace
          subst htrace
          have := hstarts [] n task after (by simpa using hmid.symm)
          simpa using this
        | cons e' mid =>
          rw [List.cons_append, List.cons.injEq] at hmid
          obtain ⟨rfl, -⟩ := hmid
          exact h.starts before n task mid htrace

theorem InStep.didNotRun {env : Env} {dataset : Option String} {top : JobSpec} {st : RunState}
    (h : InStep env dataset top st) (name : String) :
    DidNotRun st.trace name ↔ ∃ s, st.done name = some s ∧ s.notRun = true := by
  unfold DidNotRun
  rw [← h.memo, ← h.memo]
  constructor
  · rintro (h | h)
    · exact ⟨_, h, rfl⟩
    · exact ⟨_, h, rfl⟩
  · rintro ⟨s, hs, hnot⟩
    cases s with
    | failed => exact .inl hs
    | skipped => exact .inr hs
    | _ => cases hnot

/-! ## The rule of a run that is not isolated -/

def NotRun (st : RunState) (name : String) : Prop := ∃ s, st.done name = some s ∧ s.notRun = true

theorem NotRun.mono {env : Env} {bound : Nat} {st st' : RunState} (h : Grows env bound st st') {name : String}
    (hn : NotRun st name) : NotRun st' name := by
  obtain ⟨s, hs, hnot⟩ := hn
  exact ⟨s, h.keeps name s hs, hnot⟩

theorem NotRun.of_grows {env : Env} {bound : Nat} {st st' : RunState} (h : Grows env bound st st') {name : String}
    {s : Status} (hs : st.done name = some s) (hn : NotRun st' name) : NotRun st name := by
  obtain ⟨s', hs', hnot⟩ := hn
  rw [h.keeps name s hs] at hs'
  cases hs'
  exact ⟨s, hs, hnot⟩

/-- After the turns of `pre`: the failures are those of the dependencies that failed or
were skipped. -/
structure Looped (env : Env) (dataset : Option String) (top job : JobSpec) (st : RunState) (pre : List String)
    (turn : Turn) : Prop where
  member : job ∈ env.registry.jobs
  inStep : InStep env dataset top turn.st
  grows : Grows env (rank env.registry job.name) st turn.st
  fresh : turn.st.done job.name = none
  processed : ∀ dep ∈ pre, ∃ s, turn.st.done dep = some s
  depFailures : turn.depFailures ≠ [] ↔ ∃ dep ∈ pre, job.isOptional dep = false ∧ NotRun turn.st dep
  optionalFailures : turn.optionalFailures ≠ [] ↔ ∃ dep ∈ pre, job.isOptional dep = true ∧ NotRun turn.st dep

/-- What the status of a job says about its tasks and its dependencies. -/
structure StatusTold (env : Env) (job : JobSpec) (st : RunState) (status : Status) : Prop where
  success : status = .success ↔
    (∀ task, .taskFailed job.name task ∉ st.trace) ∧ ∀ dep ∈ dependencies env job, ¬ NotRun st dep
  partly : status = .partly ↔
    (∀ task, .taskFailed job.name task ∉ st.trace) ∧ (∀ dep ∈ requiredDeps env job, ¬ NotRun st dep) ∧
      ∃ dep ∈ dependencies env job, NotRun st dep
  failed : status = .failed ↔
    (∃ task, .taskFailed job.name task ∈ st.trace) ∨ ∃ dep ∈ requiredDeps env job, NotRun st dep

structure JobEnded (env : Env) (dataset : Option String) (top job : JobSpec) (st : RunState) (ran : Ran) : Prop where
  inStep : InStep env dataset top ran.st
  grows : Grows env (rank env.registry job.name + 1) st ran.st
  status : ∃ s, ran.st.done job.name = some s ∧ s.notRun = ran.raised ∧
    (job.isolated = false → StatusTold env job ran.st s)

/-- One turn: the dependency has ended, and its failure is recorded if it has one. -/
theorem Turned.ends {env : Env} {dataset : Option String} {top job : JobSpec}
    {Nested : JobSpec → RunState → Ran → Prop} {turn turn' : Turn} {dep : String} (hiso : top.isolated = false)
    (htop : top ∈ env.registry.jobs) (hjob : job ∈ env.registry.jobs)
    (hin : InStep env dataset top turn.st) (h : Turned env top job Nested turn dep turn')
    (hnested : ∀ spec ran, env.registry.getJob dep = some spec → Nested spec turn.st ran →
      JobEnded env dataset top spec turn.st ran) :
    InStep env dataset top turn'.st ∧ Grows env (rank env.registry dep + 1) turn.st turn'.st ∧
      ∃ s, turn'.st.done dep = some s ∧
        (s.notRun = false → turn' = { turn with st := turn'.st }) ∧
        (s.notRun = true → ∃ failure, turn' = { turn with st := turn'.st }.fail (job.isOptional dep) failure) := by
  have hfail : ∀ st failure, ({ turn with st := st }.fail (job.isOptional dep) failure).st = st := by
    intro st failure
    unfold Turn.fail
    split <;> rfl
  have hclose : ∀ (hnone : turn.st.done dep = none) (s : Status), InStep env dataset top (turn.st.close dep s) :=
    fun hnone s => by
      have := hin.close hnone [] (by simp) (by simp) s
      rwa [RunState.log_nil] at this
  have hgrows : ∀ (hnone : turn.st.done dep = none) (s : Status),
      Grows env (rank env.registry dep + 1) turn.st (turn.st.close dep s) := fun hnone s => by
    have := Grows.close env hnone [] s
    rwa [RunState.log_nil] at this
  cases h with
  | earlier status hdone hnot hiso' =>
    refine ⟨(hfail _ _).symm ▸ hin, (hfail _ _).symm ▸ .refl _ _ _, status, (hfail _ _).symm ▸ hdone, ?_, ?_⟩
    · intro h
      rw [hnot] at h
      cases h
    · intro _
      exact ⟨_, by rw [hfail]⟩
  | known status hdone hnot =>
    refine ⟨hin, .refl _ _ _, status, hdone, fun _ => rfl, fun h => ?_⟩
    rw [hnot h] at hiso
    cases hiso
  | disabled spec hnone _ _ =>
    exact ⟨hclose hnone _, hgrows hnone _, .disabled, RunState.close_self _ _ _, fun _ => rfl, fun h => by cases h⟩
  | skipped spec blocker hnone _ _ _ =>
    refine ⟨(hfail _ _).symm ▸ hclose hnone _, (hfail _ _).symm ▸ hgrows hnone _, .skipped, ?_, (fun h => by cases h), ?_⟩
    · rw [hfail]
      exact RunState.close_self _ _ _
    · exact fun _ => ⟨_, by rw [hfail]⟩
  | reused spec hnone _ _ _ =>
    exact ⟨hclose hnone _, hgrows hnone _, .reused, RunState.close_self _ _ _, fun _ => rfl, fun h => by cases h⟩
  | locked spec _ _ _ _ hisolated hname _ =>
    rw [Registry.eq_of_name hjob htop hname, hiso] at hisolated
    cases hisolated
  | completed spec st hnone hspec _ hran =>
    obtain ⟨hin', hgrows', s, hs, hraised, -⟩ := hnested spec _ hspec hran
    rw [(Registry.getJob_eq_some.mp hspec).2] at hgrows' hs
    refine ⟨hin', hgrows', s, hs, fun _ => rfl, fun h => ?_⟩
    rw [h] at hraised
    cases hraised
  | raised spec st hnone hspec _ hran =>
    obtain ⟨hin', hgrows', s, hs, hraised, -⟩ := hnested spec _ hspec hran
    rw [(Registry.getJob_eq_some.mp hspec).2] at hgrows' hs
    refine ⟨(hfail _ _).symm ▸ hin', (hfail _ _).symm ▸ hgrows', s, (hfail _ _).symm ▸ hs, fun h => ?_, fun _ => ?_⟩
    · rw [h] at hraised
      cases hraised
    · exact ⟨_, by rw [hfail]⟩

/-- A list of failures to which a turn adds one or none. -/
theorem failures_iff {α : Type} {failures failures' : List α} {pre : List String} {dep : String}
    {p : String → Bool} {b : Bool} {Bad Bad' : String → Prop} (hold : failures ≠ [] ↔ ∃ d ∈ pre, p d = b ∧ Bad d)
    (hbad : ∀ d ∈ pre, Bad' d ↔ Bad d)
    (hadd : failures' = failures ∧ ¬ (p dep = b ∧ Bad' dep) ∨ failures' ≠ [] ∧ p dep = b ∧ Bad' dep) :
    failures' ≠ [] ↔ ∃ d ∈ pre ++ [dep], p d = b ∧ Bad' d := by
  have hsplit : (∃ d ∈ pre ++ [dep], p d = b ∧ Bad' d) ↔ (∃ d ∈ pre, p d = b ∧ Bad d) ∨ (p dep = b ∧ Bad' dep) := by
    constructor
    · rintro ⟨d, hd, hp, hbad'⟩
      rcases List.mem_append.mp hd with hd | hd
      · exact .inl ⟨d, hd, hp, (hbad d hd).mp hbad'⟩
      · cases List.mem_singleton.mp hd
        exact .inr ⟨hp, hbad'⟩
    · rintro (⟨d, hd, hp, hb⟩ | h)
      · exact ⟨d, List.mem_append_left _ hd, hp, (hbad d hd).mpr hb⟩
      · exact ⟨dep, by simp, h⟩
  rw [hsplit, ← hold]
  rcases hadd with ⟨rfl, hno⟩ | ⟨hne, hyes⟩
  · exact ⟨.inl, fun h => h.resolve_right hno⟩
  · exact ⟨fun _ => .inr hyes, fun _ => hne⟩

theorem Looped.turn {env : Env} {dataset : Option String} {top job : JobSpec} {st : RunState} {pre : List String}
    {turn turn' : Turn} {dep : String} (h : Looped env dataset top job st pre turn)
    (hrank : rank env.registry dep < rank env.registry job.name)
    (hends : InStep env dataset top turn'.st ∧ Grows env (rank env.registry dep + 1) turn.st turn'.st ∧
      ∃ s, turn'.st.done dep = some s ∧
        (s.notRun = false → turn' = { turn with st := turn'.st }) ∧
        (s.notRun = true → ∃ failure, turn' = { turn with st := turn'.st }.fail (job.isOptional dep) failure)) :
    Looped env dataset top job st (pre ++ [dep]) turn' := by
  obtain ⟨hin, hgrows, s, hs, hgood, hbad⟩ := hends
  have hsame : ∀ d ∈ pre, (NotRun turn'.st d ↔ NotRun turn.st d) := fun d hd => by
    obtain ⟨s', hs'⟩ := h.processed d hd
    exact ⟨NotRun.of_grows hgrows hs', NotRun.mono hgrows⟩
  have hself : NotRun turn'.st dep ↔ s.notRun = true := by
    constructor
    · rintro ⟨s', hs', hnot⟩
      rw [hs] at hs'
      cases hs'
      exact hnot
    · exact fun hnot => ⟨s, hs, hnot⟩
  refine ⟨h.member, hin, h.grows.trans (hgrows.mono (by omega)), ?_, ?_, ?_, ?_⟩
  · by_contra hsome
    have := hgrows.below job.name h.fresh hsome
    omega
  · intro d hd
    rcases List.mem_append.mp hd with hd | hd
    · obtain ⟨s', hs'⟩ := h.processed d hd
      exact ⟨s', hgrows.keeps d s' hs'⟩
    · cases List.mem_singleton.mp hd
      exact ⟨s, hs⟩
  · refine failures_iff h.depFailures hsame ?_
    rw [hself]
    cases hnot : s.notRun with
    | false =>
      have hdep : turn'.depFailures = turn.depFailures := by rw [hgood hnot]
      exact .inl ⟨hdep, by simp⟩
    | true =>
      obtain ⟨failure, hturn'⟩ := hbad hnot
      have hdep := congrArg Turn.depFailures hturn'
      cases hopt : job.isOptional dep with
      | false => exact .inr ⟨by rw [hdep, hopt]; simp [Turn.fail], rfl, rfl⟩
      | true => exact .inl ⟨by rw [hdep, hopt]; simp [Turn.fail], by simp⟩
  · refine failures_iff h.optionalFailures hsame ?_
    rw [hself]
    cases hnot : s.notRun with
    | false =>
      have hdep : turn'.optionalFailures = turn.optionalFailures := by rw [hgood hnot]
      exact .inl ⟨hdep, by simp⟩
    | true =>
      obtain ⟨failure, hturn'⟩ := hbad hnot
      have hdep := congrArg Turn.optionalFailures hturn'
      cases hopt : job.isOptional dep with
      | true => exact .inr ⟨by rw [hdep, hopt]; simp [Turn.fail], rfl, rfl⟩
      | false => exact .inl ⟨by rw [hdep, hopt]; simp [Turn.fail], by simp⟩

/-- The status, from what failed. -/
theorem StatusTold.of_cases {env : Env} {job : JobSpec} {st : RunState} {status : Status}
    (hiso : job.isolated = false)
    (h : ((∃ task, .taskFailed job.name task ∈ st.trace) ∨ ∃ dep ∈ requiredDeps env job, NotRun st dep) ∧
        status = .failed ∨
      (∀ task, .taskFailed job.name task ∉ st.trace) ∧ (∀ dep ∈ requiredDeps env job, ¬ NotRun st dep) ∧
        ((∃ dep ∈ dependencies env job, job.isOptional dep = true ∧ NotRun st dep) ∧ status = .partly ∨
          (¬ ∃ dep ∈ dependencies env job, job.isOptional dep = true ∧ NotRun st dep) ∧ status = .success)) :
    StatusTold env job st status := by
  have hsub : ∀ dep ∈ requiredDeps env job, dep ∈ dependencies env job := fun dep hdep =>
    (List.mem_filter.mp hdep).1
  rcases h with ⟨hbad, rfl⟩ | ⟨htasks, hrequired, ⟨⟨dep, hdep, -, hnot⟩, rfl⟩ | ⟨hnone, rfl⟩⟩
  · refine ⟨⟨(fun h => by cases h), fun h => ?_⟩, ⟨(fun h => by cases h), fun h => ?_⟩, ⟨fun _ => hbad, fun _ => rfl⟩⟩
    · rcases hbad with ⟨task, htask⟩ | ⟨dep, hdep, hnot⟩
      · exact absurd htask (h.1 task)
      · exact absurd hnot (h.2 dep (hsub dep hdep))
    · rcases hbad with ⟨task, htask⟩ | ⟨dep, hdep, hnot⟩
      · exact absurd htask (h.1 task)
      · exact absurd hnot (h.2.1 dep hdep)
  · refine ⟨⟨(fun h => by cases h), fun h => absurd hnot (h.2 dep hdep)⟩,
      ⟨fun _ => ⟨htasks, hrequired, dep, hdep, hnot⟩, fun _ => rfl⟩, ⟨(fun h => by cases h), fun h => ?_⟩⟩
    rcases h with ⟨task, htask⟩ | ⟨dep, hdep, hnot⟩
    · exact absurd htask (htasks task)
    · exact absurd hnot (hrequired dep hdep)
  · have hall : ∀ dep ∈ dependencies env job, ¬ NotRun st dep := by
      intro dep hdep hnot
      cases hopt : job.isOptional dep with
      | true => exact hnone ⟨dep, hdep, hopt, hnot⟩
      | false =>
        refine hrequired dep (List.mem_filter.mpr ⟨hdep, ?_⟩) hnot
        simpa [JobSpec.isOptional, hiso] using hopt
    refine ⟨⟨fun _ => ⟨htasks, hall⟩, fun _ => rfl⟩, ⟨(fun h => by cases h), fun h => ?_⟩, ⟨(fun h => by cases h), fun h => ?_⟩⟩
    · obtain ⟨-, -, dep, hdep, hnot⟩ := h
      exact absurd hnot (hall dep hdep)
    · rcases h with ⟨task, htask⟩ | ⟨dep, hdep, hnot⟩
      · exact absurd htask (htasks task)
      · exact absurd hnot (hrequired dep hdep)

/-- The tasks of a job start in order: its own dependencies have run, and nothing of the
job is in the trace before. -/
theorem Looped.starts {env : Env} {dataset dataset' : Option String} {top job : JobSpec} {st : RunState} {turn : Turn}
    (h : Looped env dataset top job st (dependencies env job) turn) (hnodup : job.tasks.Nodup)
    (hdataset : dataset' = none ∨ dataset' = dataset ∧ job.name = top.name) (hfail : turn.depFailures = [])
    {order : List String} (horder : taskOrder env.registry job = .ok order) {before after : List Event}
    {name task : String}
    (hsplit : (runTasks env dataset' job.name order).1 = before ++ .taskStarted name task :: after) :
    ∃ spec, env.registry.getJob name = some spec ∧ task ∈ spec.tasks ∧
      MayStart env dataset top (turn.st.trace ++ before) spec task := by
  have hmem : Event.taskStarted name task ∈ (runTasks env dataset' job.name order).1 := by
    rw [hsplit]
    simp
  have hname : name = job.name := ((runTasks_events env dataset' job.name order).1 _ hmem).1
  subst hname
  obtain ⟨done, rest, hlist, hdone, hstarted, hfailed⟩ := runTasks_split hsplit
  obtain ⟨hperm, hin⟩ := taskOrder_ok horder
  have hbefore : task ∉ done := by
    have hord := hperm.nodup_iff.mpr hnodup
    rw [hlist, List.nodup_append] at hord
    exact fun hmem => hord.2.2 task hmem task List.mem_cons_self rfl
  have htask : task ∈ job.tasks := hperm.subset (by rw [hlist]; simp)
  refine ⟨job, Registry.getJob_eq_some.mpr ⟨h.member, rfl⟩, htask, ?_, ?_, ?_, ?_⟩
  · intro hmem
    rcases List.mem_append.mp hmem with hmem | hmem
    · exact h.inStep.not_mem (e := .taskStarted job.name task) h.fresh hmem
    · exact hbefore (hstarted task hmem)
  · intro hiso dep hdep
    obtain ⟨hdep, hreq⟩ := List.mem_filter.mp hdep
    obtain ⟨s, hs⟩ := h.processed dep hdep
    have hopt : job.isOptional dep = false := by
      simpa [JobSpec.isOptional, hiso] using hreq
    refine ⟨s, ?_, List.mem_append_left _ ((h.inStep.memo dep s).mp hs)⟩
    by_contra hnot
    exact h.depFailures.mpr ⟨dep, hdep, hopt, s, hs, by simpa using hnot⟩ hfail
  · intro dep hdep hdepTask
    have hdone' : dep ∈ done :=
      hin hnodup done task rest hlist dep (List.mem_filter.mpr ⟨hdep, by simpa using hdepTask⟩)
    refine (hdone dep hdone').imp (List.mem_append_right _) fun hout => ?_
    rcases hdataset with rfl | ⟨rfl, htop⟩
    · cases hout
    · simp [filteredOut, htop, hout]
  · intro other hmem
    rcases List.mem_append.mp hmem with hmem | hmem
    · exact h.inStep.not_mem (e := .taskFailed job.name other) h.fresh hmem
    · exact hfailed other hmem

theorem Looped.close {env : Env} {dataset dataset' : Option String} {top job : JobSpec} {st : RunState} {turn : Turn}
    {ran : Ran} (h : Looped env dataset top job st (dependencies env job) turn) (hnodup : job.tasks.Nodup)
    (hdataset : dataset' = none ∨ dataset' = dataset ∧ job.name = top.name)
    (hclosed : Closed env dataset' job turn ran) : JobEnded env dataset top job st ran := by
  have hgrows : ∀ events s, Grows env (rank env.registry job.name + 1) st ((turn.st.log events).close job.name s) :=
    fun events s => (h.grows.mono (Nat.le_succ _)).trans (Grows.close env h.fresh events s)
  have hnot : ∀ events s dep, dep ∈ dependencies env job →
      (NotRun ((turn.st.log events).close job.name s) dep ↔ NotRun turn.st dep) := fun events s dep hdep => by
    obtain ⟨s', hs'⟩ := h.processed dep hdep
    exact ⟨NotRun.of_grows (Grows.close env h.fresh events s) hs', NotRun.mono (Grows.close env h.fresh events s)⟩
  have hrequired : ∀ dep ∈ requiredDeps env job, dep ∈ dependencies env job := fun dep hdep =>
    (List.mem_filter.mp hdep).1
  have hopt : job.isolated = false → ∀ dep ∈ requiredDeps env job, job.isOptional dep = false :=
    fun hiso dep hdep => by simpa [JobSpec.isOptional, hiso] using (List.mem_filter.mp hdep).2
  have hfailed : ∀ events s task, .taskFailed job.name task ∈ ((turn.st.log events).close job.name s).trace ↔
      .taskFailed job.name task ∈ events := fun events s task => by
    have hold := h.inStep.not_mem (e := .taskFailed job.name task) h.fresh
    simp [RunState.close, RunState.log, hold]
  cases hclosed with
  | raised hfail =>
    have hclose : turn.st.close job.name .failed = (turn.st.log []).close job.name .failed := by
      rw [RunState.log_nil]
    rw [hclose]
    refine ⟨h.inStep.close h.fresh [] (by simp) (by simp) _, hgrows _ _, .failed, RunState.close_self _ _ _, rfl,
      fun hiso => .of_cases hiso (.inl ⟨.inr ?_, rfl⟩)⟩
    have hdep : turn.depFailures ≠ [] := hfail.resolve_right (by simp [everyModuleFailed, hiso])
    obtain ⟨dep, hdep, hopt, hbad⟩ := h.depFailures.mp hdep
    refine ⟨dep, List.mem_filter.mpr ⟨hdep, ?_⟩, (hnot _ _ dep hdep).mpr hbad⟩
    simpa [JobSpec.isOptional, hiso] using hopt
  | taskFailed order hfail _ horder htasks =>
    refine ⟨h.inStep.close h.fresh _ (runTasks_events _ _ _ _).1
        (fun before n task after hsplit => h.starts hnodup hdataset hfail horder hsplit) _, hgrows _ _, .failed,
      RunState.close_self _ _ _, rfl, fun hiso => .of_cases hiso (.inl ⟨.inl ?_, rfl⟩)⟩
    obtain ⟨task, htask⟩ := (runTasks_events _ _ _ _).2.mp htasks
    exact ⟨task, (hfailed _ _ task).mpr htask⟩
  | completed order hfail _ horder htasks =>
    refine ⟨h.inStep.close h.fresh _ (runTasks_events _ _ _ _).1
        (fun before n task after hsplit => h.starts hnodup hdataset hfail horder hsplit) _, hgrows _ _, _,
      RunState.close_self _ _ _, by split <;> rfl, fun hiso => .of_cases hiso (.inr ⟨fun task htask => ?_,
        fun dep hdep hbad => ?_, ?_⟩)⟩
    · have := (runTasks_events env dataset' job.name order).2.mpr ⟨task, (hfailed _ _ task).mp htask⟩
      rw [htasks] at this
      cases this
    · exact h.depFailures.mpr ⟨dep, hrequired dep hdep, hopt hiso dep hdep,
        (hnot _ _ dep (hrequired dep hdep)).mp hbad⟩ hfail
    · by_cases hoptional : turn.optionalFailures ≠ []
      · obtain ⟨dep, hdep, hopt, hbad⟩ := h.optionalFailures.mp hoptional
        exact .inl ⟨⟨dep, hdep, hopt, (hnot _ _ dep hdep).mpr hbad⟩, if_pos hoptional⟩
      · refine .inr ⟨?_, if_neg hoptional⟩
        rintro ⟨dep, hdep, hopt, hbad⟩
        exact hoptional (h.optionalFailures.mpr ⟨dep, hdep, hopt, (hnot _ _ dep hdep).mp hbad⟩)

/-! ## Every run -/

def disciplineRule (env : Env) (dataset : Option String) (top : JobSpec) (hreg : Valid env.registry)
    (htop : top ∈ env.registry.jobs) (hiso : top.isolated = false)
    (hnodup : ∀ job ∈ env.registry.jobs, job.tasks.Nodup) : RunRule env top where
  Pre job st := InStep env dataset top st ∧ st.done job.name = none
  Loop job st pre turn := Looped env dataset top job st pre turn
  Post dataset' job st ran :=
    dataset' = none ∨ dataset' = dataset ∧ job.name = top.name → JobEnded env dataset top job st ran
  start hjob hpre := ⟨hjob, hpre.1, .refl _ _ _, hpre.2, by simp, by simp, by simp⟩
  enter hloop _ hnone hspec _ := by
    refine ⟨hloop.inStep, ?_⟩
    rw [(Registry.getJob_eq_some.mp hspec).2]
    exact hnone
  turn := by
    intro job st pre turn turn' dep hloop hdep hturned
    have hget := Registry.getJob_eq_some.mpr ⟨hloop.member, rfl⟩
    refine hloop.turn (hreg.rank_lt _ (List.mem_map_of_mem hloop.member) dep ?_)
      (hturned.ends hiso htop hloop.member hloop.inStep fun _ _ _ h => h (.inl rfl))
    rw [Registry.jobDeps_of_getJob hget]
    exact dependencies_subset env job dep hdep
  close hloop hclosed hdataset := hloop.close (hnodup _ hloop.member) hdataset hclosed

/-- **In a run whose job is not isolated a task starts once, after what its job and it
depend on, and the status says what of it failed.** A registry that validates makes the
run raise no registry error of its own. -/
theorem dependency_discipline {env : Env} {name : String} {top : JobSpec}
    (htop : env.registry.getJob name = some top) (hiso : top.isolated = false)
    (hnodup : ∀ job ∈ env.registry.jobs, job.tasks.Nodup) (dataset : Option String) :
    (∀ e, run env name dataset = .error (.registry e) → validate env.registry = .error e) ∧
      ∀ report, run env name dataset = .ok report → Disciplined env dataset top report := by
  have hmem : top ∈ env.registry.jobs := (Registry.getJob_eq_some.mp htop).1
  have hends : ∀ hreg : Valid env.registry, ∃ ran, runJob env top (env.registry.jobs.length + 1) dataset top .start =
      .ok ran ∧ JobEnded env dataset top top .start ran := fun hreg => by
    have hrank := hreg.rank_bound top.name (List.mem_map_of_mem hmem)
    obtain ⟨ran, hran, hpost⟩ := (disciplineRule env dataset top hreg hmem hiso hnodup).runs hreg
      (env.registry.jobs.length + 1) dataset hmem (by omega) ⟨.start env dataset top, rfl⟩
    exact ⟨ran, hran, hpost (.inr ⟨rfl, rfl⟩)⟩
  constructor
  · intro e he
    rcases run_registry_error htop he with herr | ⟨hreg, herr⟩
    · exact herr
    · obtain ⟨ran, hran, -⟩ := hends hreg
      rw [hran] at herr
      cases herr
  · intro report hreport
    obtain ⟨hreg, ran, hran, rfl⟩ := run_ok htop hreport
    obtain ⟨ran', hran', hin, -, s, hs, -, htold⟩ := hends hreg
    rw [hran] at hran'
    cases hran'
    have htold := htold hiso
    have hdid : ∀ dep, DidNotRun ran.st.trace dep ↔ NotRun ran.st dep := hin.didNotRun
    refine ⟨hin.starts, ?_, ?_, ?_, ?_, ?_⟩
    · intro n s s' hs hs'
      rw [← hin.memo] at hs hs'
      exact Option.some.inj (hs.symm.trans hs')
    · rintro job hjob hjobiso ⟨dep, hdep, hbad⟩ task hstart
      obtain ⟨before, after, hsplit⟩ := List.append_of_mem hstart
      have hsplit : ran.st.trace = before ++ .taskStarted job.name task :: after := hsplit
      obtain ⟨spec, hspec, -, hmay⟩ := hin.starts before _ task after hsplit
      rw [Registry.getJob_eq_some.mpr ⟨hjob, rfl⟩] at hspec
      cases hspec
      obtain ⟨status, hnot, hended⟩ := hmay.required hjobiso dep hdep
      obtain ⟨status', hdone, hnot'⟩ := (hdid dep).mp hbad
      have hmemo : ran.st.done dep = some status := (hin.memo dep status).mpr (by rw [hsplit]; simp [hended])
      rw [hdone] at hmemo
      cases hmemo
      rw [hnot] at hnot'
      cases hnot'
    · simpa only [hs, Option.getD_some, hdid] using htold.success
    · simpa only [hs, Option.getD_some, hdid] using htold.partly
    · simpa only [hs, Option.getD_some, hdid] using htold.failed

def plainJob (name : String) (tasks dependsOnJobs optionalJobs : List String) : JobSpec where
  name := name
  department := "sales"
  tasks := tasks
  dependsOnJobs := dependsOnJobs
  optionalJobs := optionalJobs
  reuseWithinMinutes := none
  configurableModules := false
  isolated := false
  disabledReason := false
  locks := none

def plainTask (name : String) (dependsOn : List String) : TaskSpec := ⟨name, dependsOn, []⟩

/-- Nothing is disabled, reused or locked; the tasks of `broken` fail. -/
def plainEnv (registry : Registry) (refreshModules broken : List String) : Env where
  registry := registry
  refreshModules := refreshModules
  coreDimsFreshMinutes := 0
  lockName := "etl"
  fullRefresh := false
  taskOk _ task := task ∉ broken
  disabledReason _ := none
  secondsSinceSuccess _ := none
  lockFree _ _ := true

/-- `main` requires `a`, of which `b` is an optional dependency. -/
def nestedRegistry : Registry where
  datasets := []
  tasks := [plainTask "tb" [], plainTask "ta" [], plainTask "tm" []]
  jobs := [plainJob "b" ["tb"] [] [], plainJob "a" ["ta"] ["b"] ["b"], plainJob "main" ["tm"] ["a"] []]
  datasetNames := by decide
  taskNames := by decide
  jobNames := by decide

/-- A failed required dependency: neither task after it runs. -/
theorem dependency_discipline_failed :
    Disciplined (plainEnv nestedRegistry [] ["ta"]) none (plainJob "main" ["tm"] ["a"] [])
      ⟨[.taskStarted "b" "tb", .taskCompleted "b" "tb", .ended "b" .success, .taskStarted "a" "ta",
        .taskFailed "a" "ta", .ended "a" .failed, .ended "main" .failed], .failed⟩ := by
  have htop : (plainEnv nestedRegistry [] ["ta"]).registry.getJob "main" =
      some (plainJob "main" ["tm"] ["a"] []) := by decide +kernel
  exact (dependency_discipline htop rfl (by decide) none).2 _ (by decide +kernel)

/-! ## Runs that go another way -/

/-- A job that lists the task `a` twice. -/
def doubledRegistry : Registry where
  datasets := []
  tasks := [plainTask "a" [], plainTask "x" ["a", "y"], plainTask "y" []]
  jobs := [plainJob "main" ["a", "a", "x", "y"] [] []]
  datasetNames := by decide
  taskNames := by decide
  jobNames := by decide

/-- An isolated job below `main`. -/
def isolatedRegistry : Registry where
  datasets := []
  tasks := [plainTask "tb" [], plainTask "ta" []]
  jobs := [plainJob "b" ["tb"] [] [], { plainJob "a" ["ta"] ["b"] [] with isolated := true }, plainJob "main" [] ["a"] []]
  datasetNames := by decide
  taskNames := by decide
  jobNames := by decide

/-- A job that runs only the listed ones of its dependencies. -/
def configurableRegistry : Registry where
  datasets := []
  tasks := [plainTask "tb" [], plainTask "tm" []]
  jobs := [plainJob "b" ["tb"] [] [], { plainJob "main" ["tm"] ["b"] [] with configurableModules := true }]
  datasetNames := by decide
  taskNames := by decide
  jobNames := by decide

/-- The status is `success` although an optional dependency of a dependency failed; a
task listed twice runs twice, and lets one run before its dependency; an isolated job
runs after its required dependency failed, and one that is configurable without it. -/
theorem discipline_exceptions :
    run (plainEnv nestedRegistry [] ["tb"]) "main" none = .ok ⟨[.taskStarted "b" "tb", .taskFailed "b" "tb",
      .ended "b" .failed, .taskStarted "a" "ta", .taskCompleted "a" "ta", .ended "a" .partly,
      .taskStarted "main" "tm", .taskCompleted "main" "tm", .ended "main" .success], .success⟩ ∧
    run (plainEnv doubledRegistry [] []) "main" none = .ok ⟨[.taskStarted "main" "a", .taskCompleted "main" "a",
      .taskStarted "main" "a", .taskCompleted "main" "a", .taskStarted "main" "x", .taskCompleted "main" "x",
      .taskStarted "main" "y", .taskCompleted "main" "y", .ended "main" .success], .success⟩ ∧
    run (plainEnv isolatedRegistry [] ["tb"]) "main" none = .ok ⟨[.taskStarted "b" "tb", .taskFailed "b" "tb",
      .ended "b" .failed, .taskStarted "a" "ta", .taskCompleted "a" "ta", .ended "a" .partly,
      .ended "main" .success], .success⟩ ∧
    run (plainEnv configurableRegistry [] []) "main" none = .ok ⟨[.taskStarted "main" "tm",
      .taskCompleted "main" "tm", .ended "main" .success], .success⟩ := by
  decide +kernel

end SalesDashboard.EtlPlatform
