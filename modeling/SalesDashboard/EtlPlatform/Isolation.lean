import SalesDashboard.EtlPlatform.Discipline

/-! Isolation of the modules of an umbrella job. Which job runs which does not depend on
what fails, so it is planned from the registry and the settings alone; on the plan the
failures of a run are those of its tasks, carried up by required dependencies. -/

namespace SalesDashboard.EtlPlatform

/-! ## Definitions -/

/-- How a job is dealt with in an isolated run; a job that runs runs some of its
dependencies itself. -/
inductive How
  | ran (children : List String)
  | disabled
  | reused
  | locked
  deriving DecidableEq, Repr

abbrev Plan := String → Option How

/-- One turn of the loop over the dependencies. -/
def planTurn (env : Env) (top job : JobSpec) (planDep : JobSpec → Plan → Plan) (acc : Plan × List String)
    (depName : String) : Plan × List String :=
  match acc.1 depName with
  | some _ => acc
  | none =>
      match env.registry.getJob depName with
      | none => acc
      | some dep =>
          if env.isDisabled dep then (Function.update acc.1 depName (some .disabled), acc.2)
          else if reusable env dep then (Function.update acc.1 depName (some .reused), acc.2)
          else if job.isolated && job.name = top.name &&
              (busyLock env (fun name => (acc.1 name).isSome) dep).isSome then
            (Function.update acc.1 depName (some .locked), acc.2)
          else (planDep dep acc.1, acc.2 ++ [depName])

def planJob (env : Env) (top : JobSpec) : Nat → JobSpec → Plan → Plan
  | 0, _, plan => plan
  | fuel + 1, job, plan =>
      let acc := (dependencies env job).foldl (planTurn env top job (planJob env top fuel)) (plan, [])
      Function.update acc.1 job.name (some (.ran acc.2))

/-- Which jobs an isolated run of `top` runs, and for which job. -/
def schedule (env : Env) (top : JobSpec) : Plan :=
  planJob env top (env.registry.jobs.length + 1) top fun _ => none

/-- The jobs that fail: for a task of their own, for a required dependency that they
run, or as umbrella jobs of whose modules one fails and none succeeds. -/
inductive Fails (env : Env) (plan : Plan) : String → Prop
  | task {job : JobSpec} {children : List String} {task : String} :
      job ∈ env.registry.jobs → plan job.name = some (.ran children) → task ∈ job.tasks →
      env.taskOk job.name task = false → Fails env plan job.name
  | required {job : JobSpec} {children : List String} {dep : String} :
      job ∈ env.registry.jobs → plan job.name = some (.ran children) → dep ∈ children →
      job.isOptional dep = false → Fails env plan dep → Fails env plan job.name
  | umbrella {job : JobSpec} {children : List String} {dep : String} :
      job ∈ env.registry.jobs → plan job.name = some (.ran children) → dep ∈ children →
      job.isolated = true → job.tasks = [] → Fails env plan dep →
      (∀ other ∈ dependencies env job, plan other ≠ some .disabled → plan other ≠ some .locked →
        Fails env plan other) → Fails env plan job.name

/-- A module whose required dependency fails in a run of its own, or a failure that no
module run by the umbrella job itself shares. -/
def NestedFailure (env : Env) (top : JobSpec) : Prop :=
  (∃ mod ∈ env.registry.jobs, mod.name ∈ dependencies env top ∧ mod.tasks ≠ [] ∧
    ∃ children, schedule env top mod.name = some (.ran children) ∧
      ∃ dep ∈ children, mod.isOptional dep = false ∧ Fails env (schedule env top) dep) ∨
  ((∃ name ∈ dependencies env top, Fails env (schedule env top) name) ∧
    ∀ children, schedule env top top.name = some (.ran children) →
      ∀ name ∈ children, ¬ Fails env (schedule env top) name)

/-- The status that the modules' outcomes give the umbrella job. -/
def umbrellaStatus (env : Env) (top : JobSpec) (trace : List Event) : Status :=
  if (dependencies env top).any fun name => decide (.ended name .failed ∈ trace) then
    if (dependencies env top).any fun name => decide (.ended name .success ∈ trace ∨
        .ended name .partly ∈ trace ∨ .ended name .reused ∈ trace) then .partly else .failed
  else .success

/-- Every selected module starts its tasks unless it is disabled, reused or locked, and
the status of the umbrella job counts the modules. -/
structure UmbrellaIsolated (env : Env) (top : JobSpec) (report : Report) : Prop where
  starts : ∀ mod ∈ env.registry.jobs, mod.name ∈ dependencies env top → mod.tasks ≠ [] →
    env.isDisabled mod = false → reusable env mod = false → .locked mod.name ∉ report.trace →
    ∃ task, .taskStarted mod.name task ∈ report.trace
  status : report.lastStatus = umbrellaStatus env top report.trace

/-! ## Failures as the plan grows -/

def PlanGrows (plan plan' : Plan) : Prop := ∀ name how, plan name = some how → plan' name = some how

theorem PlanGrows.update {plan : Plan} {name : String} (hnone : plan name = none) (how : How) :
    PlanGrows plan (Function.update plan name (some how)) := by
  intro other h hother
  rw [Function.update_of_ne, hother]
  rintro rfl
  rw [hnone] at hother
  cases hother

/-- What a job that ran depends on is planned, and it ran only dependencies. -/
structure PlanClosed (env : Env) (plan : Plan) : Prop where
  planned : ∀ job ∈ env.registry.jobs, ∀ children, plan job.name = some (.ran children) →
    ∀ dep ∈ dependencies env job, (plan dep).isSome = true
  children : ∀ job ∈ env.registry.jobs, ∀ children, plan job.name = some (.ran children) →
    ∀ dep ∈ children, dep ∈ dependencies env job

theorem Fails.grow {env : Env} {plan plan' : Plan} (hclosed : PlanClosed env plan) (hgrows : PlanGrows plan plan')
    {name : String} (h : Fails env plan name) : Fails env plan' name := by
  induction h with
  | task hjob hran htask hok => exact .task hjob (hgrows _ _ hran) htask hok
  | required hjob hran hdep hopt _ ih => exact .required hjob (hgrows _ _ hran) hdep hopt ih
  | umbrella hjob hran hdep hiso htasks _ _ ih ihall =>
    refine .umbrella hjob (hgrows _ _ hran) hdep hiso htasks ih fun other hother hdis hlock => ?_
    obtain ⟨how, hhow⟩ := Option.isSome_iff_exists.mp (hclosed.planned _ hjob _ hran other hother)
    have hsame : plan' other = plan other := (hgrows _ _ hhow).trans hhow.symm
    rw [hsame] at hdis hlock
    exact ihall other hother hdis hlock

theorem Fails.shrink {env : Env} {plan plan' : Plan} (hclosed : PlanClosed env plan) (hgrows : PlanGrows plan plan')
    {name : String} (h : Fails env plan' name) (hname : (plan name).isSome = true) : Fails env plan name := by
  have hback : ∀ {other how}, (plan other).isSome = true → plan' other = some how → plan other = some how := by
    intro other how hsome hother
    obtain ⟨how', hhow'⟩ := Option.isSome_iff_exists.mp hsome
    rw [hgrows _ _ hhow'] at hother
    cases hother
    exact hhow'
  induction h with
  | task hjob hran htask hok => exact .task hjob (hback hname hran) htask hok
  | required hjob hran hdep hopt _ ih =>
    have hran := hback hname hran
    exact .required hjob hran hdep hopt
      (ih (hclosed.planned _ hjob _ hran _ (hclosed.children _ hjob _ hran _ hdep)))
  | umbrella hjob hran hdep hiso htasks _ _ ih ihall =>
    have hran := hback hname hran
    refine .umbrella hjob hran hdep hiso htasks
      (ih (hclosed.planned _ hjob _ hran _ (hclosed.children _ hjob _ hran _ hdep)))
      fun other hother hdis hlock => ?_
    have hplanned := hclosed.planned _ hjob _ hran other hother
    refine ihall other hother (fun h => hdis (hback hplanned h)) (fun h => hlock (hback hplanned h)) hplanned

/-- A planned job fails in a larger plan as it does in this one. -/
theorem fails_iff {env : Env} {plan plan' : Plan} (hclosed : PlanClosed env plan) (hgrows : PlanGrows plan plan')
    {name : String} (hname : (plan name).isSome = true) : Fails env plan' name ↔ Fails env plan name :=
  ⟨fun h => h.shrink hclosed hgrows hname, fun h => h.grow hclosed hgrows⟩

/-- Only a job that runs fails. -/
theorem Fails.ran {env : Env} {plan : Plan} {name : String} (h : Fails env plan name) :
    ∃ children, plan name = some (.ran children) := by
  cases h with
  | task _ hran => exact ⟨_, hran⟩
  | required _ hran => exact ⟨_, hran⟩
  | umbrella _ hran => exact ⟨_, hran⟩

/-! ## What the run and the plan agree on -/

/-- The status of a planned job. -/
def Outcome (env : Env) (plan : Plan) (name : String) : How → Status → Prop
  | .disabled, s => s = .disabled
  | .reused, s => s = .reused
  | .locked, s => s = .skipped
  | .ran children, s => ∃ job, env.registry.getJob name = some job ∧
      (Fails env plan name ∧ s = .failed ∨
        ¬ Fails env plan name ∧ (∃ dep ∈ children, job.isOptional dep = true ∧ Fails env plan dep) ∧ s = .partly ∨
        ¬ Fails env plan name ∧ (¬ ∃ dep ∈ children, job.isOptional dep = true ∧ Fails env plan dep) ∧
          s = .success)

/-- A job that runs its tasks: no required dependency that it ran itself failed. -/
def Started (env : Env) (plan : Plan) (job : JobSpec) (children : List String) : Prop :=
  ¬ ∃ dep ∈ children, job.isOptional dep = false ∧ Fails env plan dep

/-- Between the runs of two jobs of an isolated run. -/
structure Agrees (env : Env) (top : JobSpec) (plan : Plan) (st : RunState) : Prop extends Recorded st,
    PlanClosed env plan where
  known : ∀ name, (plan name).isSome = st.has name
  outcome : ∀ name how, plan name = some how → ∃ s, st.done name = some s ∧ Outcome env plan name how s
  locked : ∀ name, .locked name ∈ st.trace ↔ plan name = some .locked
  starts : ∀ job ∈ env.registry.jobs, ∀ children, plan job.name = some (.ran children) → job.tasks ≠ [] →
    ((∃ task, .taskStarted job.name task ∈ st.trace) ↔ Started env plan job children)
  settings : ∀ job ∈ env.registry.jobs, job.name ≠ top.name →
    (plan job.name = some .disabled → env.isDisabled job = true) ∧
    (plan job.name = some .reused → reusable env job = true) ∧
    ∀ children, plan job.name = some (.ran children) → env.isDisabled job = false ∧ reusable env job = false

theorem Agrees.start (env : Env) (top : JobSpec) : Agrees env top (fun _ => none) .start where
  toRecorded := .start
  planned _ _ _ h := by cases h
  children _ _ _ h := by cases h
  known _ := rfl
  outcome _ _ h := by cases h
  locked name := by simp [RunState.start]
  starts _ _ _ h := by cases h
  settings _ _ _ := ⟨(fun h => by cases h), (fun h => by cases h), fun _ h => by cases h⟩

theorem Agrees.plan_eq_none {env : Env} {top : JobSpec} {plan : Plan} {st : RunState} (h : Agrees env top plan st)
    {name : String} : plan name = none ↔ st.done name = none := by
  have := h.known name
  rw [RunState.has] at this
  cases hp : plan name <;> cases hd : st.done name <;> simp_all

/-- Whether a dependency failed, read off its status. -/
theorem Outcome.grow {env : Env} {plan plan' : Plan} (hclosed : PlanClosed env plan) (hgrows : PlanGrows plan plan')
    {name : String} {how : How} {s : Status} (hname : plan name = some how) (h : Outcome env plan name how s) :
    Outcome env plan' name how s := by
  have hself : Fails env plan' name ↔ Fails env plan name := fails_iff hclosed hgrows (by rw [hname]; rfl)
  cases how with
  | ran children =>
    obtain ⟨job, hjob, h⟩ := h
    obtain ⟨hmem, rfl⟩ := Registry.getJob_eq_some.mp hjob
    refine ⟨job, hjob, ?_⟩
    have hchild : (∃ dep ∈ children, job.isOptional dep = true ∧ Fails env plan' dep) ↔
        ∃ dep ∈ children, job.isOptional dep = true ∧ Fails env plan dep := by
      refine exists_congr fun dep => and_congr_right fun hdep => and_congr_right fun _ => ?_
      exact fails_iff hclosed hgrows
        (hclosed.planned job hmem _ hname dep (hclosed.children job hmem _ hname dep hdep))
    rw [hself, hchild]
    exact h
  | _ => exact h

/-- A job that has not ended ends as planned. -/
theorem Agrees.close {env : Env} {top : JobSpec} {plan : Plan} {st : RunState} (h : Agrees env top plan st)
    {name : String} (hnone : st.done name = none) {events : List Event}
    (hevents : ∀ e ∈ events, e.job = name ∧ ∀ n s, e ≠ .ended n s) {how : How} {s : Status}
    (hlocked : .locked name ∈ events ↔ how = .locked)
    (houtcome : Outcome env (Function.update plan name (some how)) name how s)
    (hran : ∀ job ∈ env.registry.jobs, job.name = name → ∀ children, how = .ran children →
      (∀ dep ∈ dependencies env job, (plan dep).isSome = true) ∧ (∀ dep ∈ children, dep ∈ dependencies env job) ∧
      (job.tasks ≠ [] → ((∃ task, .taskStarted name task ∈ events) ↔ Started env plan job children)))
    (hsettings : ∀ job ∈ env.registry.jobs, job.name = name → name ≠ top.name →
      (how = .disabled → env.isDisabled job = true) ∧ (how = .reused → reusable env job = true) ∧
      ∀ children, how = .ran children → env.isDisabled job = false ∧ reusable env job = false) :
    Agrees env top (Function.update plan name (some how)) ((st.log events).close name s) := by
  have hplan : plan name = none := h.plan_eq_none.mpr hnone
  have hgrows : PlanGrows plan (Function.update plan name (some how)) := .update hplan how
  have hsome : ∀ dep, (plan dep).isSome = true → (Function.update plan name (some how) dep).isSome = true := by
    intro dep hdep
    obtain ⟨how', hhow'⟩ := Option.isSome_iff_exists.mp hdep
    rw [hgrows _ _ hhow']
    rfl
  have htrace : ∀ e, e.job ≠ name → (∀ n s', e ≠ .ended n s') →
      (e ∈ ((st.log events).close name s).trace ↔ e ∈ st.trace) := by
    intro e he hended
    have hnot : e ∉ events := fun hmem => he (hevents e hmem).1
    simp [RunState.close, RunState.log, hnot, hended]
  have hself : ∀ e, e.job = name → (∀ n s', e ≠ .ended n s') →
      (e ∈ ((st.log events).close name s).trace ↔ e ∈ events) := by
    intro e he hended
    have hnot : e ∉ st.trace := h.toRecorded.not_mem (he ▸ hnone)
    simp [RunState.close, RunState.log, hnot, hended]
  have hstarted : ∀ job ∈ env.registry.jobs, ∀ children, (∀ dep ∈ children, (plan dep).isSome = true) →
      (Started env (Function.update plan name (some how)) job children ↔ Started env plan job children) := by
    intro job _ children hchildren
    refine not_congr (exists_congr fun dep => and_congr_right fun hdep => and_congr_right fun _ => ?_)
    exact fails_iff h.toPlanClosed hgrows (hchildren dep hdep)
  refine { toRecorded := h.toRecorded.close hnone hevents s, planned := ?_, children := ?_, known := ?_,
           outcome := ?_, locked := ?_, starts := ?_, settings := ?_ }
  · intro job hjob children hjobPlan dep hdep
    by_cases hname : job.name = name
    · rw [hname, Function.update_self] at hjobPlan
      exact hsome dep ((hran job hjob hname children (Option.some.inj hjobPlan)).1 dep hdep)
    · rw [Function.update_of_ne hname] at hjobPlan
      exact hsome dep (h.planned job hjob children hjobPlan dep hdep)
  · intro job hjob children hjobPlan
    by_cases hname : job.name = name
    · rw [hname, Function.update_self] at hjobPlan
      exact (hran job hjob hname children (Option.some.inj hjobPlan)).2.1
    · rw [Function.update_of_ne hname] at hjobPlan
      exact h.children job hjob children hjobPlan
  · intro other
    by_cases hname : other = name
    · subst hname
      rw [Function.update_self, RunState.has, RunState.close_self]
      rfl
    · rw [Function.update_of_ne hname, RunState.has, RunState.close_of_ne _ _ hname]
      exact h.known other
  · intro other how' hother
    by_cases hname : other = name
    · subst hname
      rw [Function.update_self] at hother
      cases hother
      exact ⟨s, RunState.close_self _ _ _, houtcome⟩
    · rw [Function.update_of_ne hname] at hother
      obtain ⟨s', hs', hout⟩ := h.outcome other how' hother
      exact ⟨s', (RunState.close_of_ne _ _ hname).trans hs', hout.grow h.toPlanClosed hgrows hother⟩
  · intro other
    by_cases hname : other = name
    · subst hname
      rw [hself (.locked other) rfl (fun _ _ h => by cases h), hlocked, Function.update_self, Option.some.injEq]
    · rw [htrace (.locked other) hname (fun _ _ h => by cases h), Function.update_of_ne hname, h.locked]
  · intro job hjob children hjobPlan htasks
    by_cases hname : job.name = name
    · rw [hname, Function.update_self] at hjobPlan
      obtain ⟨hdeps, hsub, hstart⟩ := hran job hjob hname children (Option.some.inj hjobPlan)
      rw [hstarted job hjob children fun dep hdep => hdeps dep (hsub dep hdep), ← hstart htasks]
      refine exists_congr fun task => ?_
      rw [hname]
      exact hself (.taskStarted name task) rfl fun _ _ h => by cases h
    · rw [Function.update_of_ne hname] at hjobPlan
      rw [hstarted job hjob children fun dep hdep => h.planned job hjob children hjobPlan dep
        (h.children job hjob children hjobPlan dep hdep), ← h.starts job hjob children hjobPlan htasks]
      exact exists_congr fun task => htrace (.taskStarted job.name task) hname fun _ _ h => by cases h
  · intro job hjob htop
    by_cases hname : job.name = name
    · rw [hname, Function.update_self]
      simpa only [Option.some.injEq] using hsettings job hjob hname (hname ▸ htop)
    · rw [Function.update_of_ne hname]
      exact h.settings job hjob htop

/-! ## The rule of an isolated run -/

/-- After the turns of `pre`, for a plan that agreed with the state before the loop. -/
structure LoopPlanned (env : Env) (top job : JobSpec) (plan : Plan) (acc : Plan × List String) (pre : List String)
    (turn : Turn) : Prop where
  agrees : Agrees env top acc.1 turn.st
  grows : PlanGrows plan acc.1
  below : ∀ name, plan name = none → acc.1 name ≠ none → rank env.registry name < rank env.registry job.name
  fresh : acc.1 job.name = none
  children : ∀ dep ∈ acc.2, dep ∈ dependencies env job ∧ (acc.1 dep).isSome = true
  planned : ∀ dep ∈ pre, (acc.1 dep).isSome = true
  depFailures : turn.depFailures ≠ [] ↔ ∃ dep ∈ acc.2, job.isOptional dep = false ∧ Fails env acc.1 dep
  optionalFailures : turn.optionalFailures ≠ [] ↔ ∃ dep ∈ acc.2, job.isOptional dep = true ∧ Fails env acc.1 dep

structure JobPlanned (env : Env) (top job : JobSpec) (plan plan' : Plan) (ran : Ran) : Prop where
  agrees : Agrees env top plan' ran.st
  grows : PlanGrows plan plan'
  below : ∀ name, plan name = none → plan' name ≠ none →
    rank env.registry name < rank env.registry job.name + 1
  planned : (plan' job.name).isSome = true
  raised : ran.raised = true ↔ Fails env plan' job.name

/-- What a turn does to the plan and to the failures. -/
theorem LoopPlanned.extend {env : Env} {top job : JobSpec} {plan plan' : Plan} {acc : Plan × List String}
    {pre children : List String} {turn turn' : Turn} {dep : String} (h : LoopPlanned env top job plan acc pre turn)
    (hdep : dep ∈ dependencies env job) (hrank : rank env.registry dep < rank env.registry job.name)
    (hagrees : Agrees env top plan' turn'.st) (hgrows : PlanGrows acc.1 plan')
    (hbelow : ∀ name, acc.1 name = none → plan' name ≠ none → rank env.registry name < rank env.registry dep + 1)
    (hplanned : (plan' dep).isSome = true)
    (hfail : (children = acc.2 ∧ turn' = { turn with st := turn'.st }) ∨
      (children = acc.2 ++ [dep] ∧ ¬ Fails env plan' dep ∧ turn' = { turn with st := turn'.st }) ∨
      (children = acc.2 ++ [dep] ∧ Fails env plan' dep ∧
        ∃ failure, turn' = { turn with st := turn'.st }.fail (job.isOptional dep) failure)) :
    LoopPlanned env top job plan (plan', children) (pre ++ [dep]) turn' := by
  have hsome : ∀ {name}, (acc.1 name).isSome = true → (plan' name).isSome = true := fun {name} hname => by
    obtain ⟨how, hhow⟩ := Option.isSome_iff_exists.mp hname
    rw [hgrows _ _ hhow]
    rfl
  have hsame : ∀ d ∈ acc.2, (Fails env plan' d ↔ Fails env acc.1 d) := fun d hd =>
    fails_iff h.agrees.toPlanClosed hgrows (h.children d hd).2
  have hchildren : ∀ d ∈ children, d ∈ dependencies env job ∧ (plan' d).isSome = true := by
    have hold : ∀ d ∈ acc.2, d ∈ dependencies env job ∧ (plan' d).isSome = true := fun d hd =>
      ⟨(h.children d hd).1, hsome (h.children d hd).2⟩
    intro d hd
    rcases hfail with ⟨rfl, -⟩ | ⟨rfl, -⟩ | ⟨rfl, -⟩
    · exact hold d hd
    all_goals
      rcases List.mem_append.mp hd with hd | hd
      · exact hold d hd
      · exact List.mem_singleton.mp hd ▸ ⟨hdep, hplanned⟩
  refine ⟨hagrees, fun name how hname => hgrows _ _ (h.grows _ _ hname), ?_, ?_, hchildren, ?_, ?_, ?_⟩
  · intro name hnone hsome'
    cases hmid : acc.1 name with
    | none =>
      have := hbelow name hmid hsome'
      omega
    | some how => exact h.below name hnone (by simp [hmid])
  · by_contra hsome'
    have := hbelow job.name h.fresh hsome'
    omega
  · intro d hd
    rcases List.mem_append.mp hd with hd | hd
    · exact hsome (h.planned d hd)
    · exact List.mem_singleton.mp hd ▸ hplanned
  · rcases hfail with ⟨rfl, hturn⟩ | ⟨rfl, hgood, hturn⟩ | ⟨rfl, hbad, failure, hturn⟩
    · rw [hturn, h.depFailures]
      exact exists_congr fun d => and_congr_right fun hd => and_congr_right fun _ => (hsame d hd).symm
    · refine failures_iff h.depFailures hsame (.inl ⟨by rw [hturn], fun hor => hgood hor.2⟩)
    · refine failures_iff h.depFailures hsame ?_
      have hdeps := congrArg Turn.depFailures hturn
      cases hopt : job.isOptional dep with
      | false => exact .inr ⟨by rw [hdeps, hopt]; simp [Turn.fail], rfl, hbad⟩
      | true => exact .inl ⟨by rw [hdeps, hopt]; simp [Turn.fail], by simp⟩
  · rcases hfail with ⟨rfl, hturn⟩ | ⟨rfl, hgood, hturn⟩ | ⟨rfl, hbad, failure, hturn⟩
    · rw [hturn, h.optionalFailures]
      exact exists_congr fun d => and_congr_right fun hd => and_congr_right fun _ => (hsame d hd).symm
    · refine failures_iff h.optionalFailures hsame (.inl ⟨by rw [hturn], fun hor => hgood hor.2⟩)
    · refine failures_iff h.optionalFailures hsame ?_
      have hdeps := congrArg Turn.optionalFailures hturn
      cases hopt : job.isOptional dep with
      | true => exact .inr ⟨by rw [hdeps, hopt]; simp [Turn.fail], rfl, hbad⟩
      | false => exact .inl ⟨by rw [hdeps, hopt]; simp [Turn.fail], by simp⟩

/-- A dependency that the loop does not run. -/
theorem LoopPlanned.settle {env : Env} {top job : JobSpec} {plan : Plan} {acc : Plan × List String}
    {pre : List String} {turn : Turn} {dep : String} (h : LoopPlanned env top job plan acc pre turn)
    (hdep : dep ∈ dependencies env job) (hrank : rank env.registry dep < rank env.registry job.name)
    (hnone : turn.st.done dep = none) {spec : JobSpec} (hspec : env.registry.getJob dep = some spec)
    (events : List Event) (how : How) (s : Status)
    (hevents : ∀ e ∈ events, e = .locked dep) (hlocked : .locked dep ∈ events ↔ how = .locked)
    (hhow : ∀ children, how ≠ .ran children)
    (houtcome : Outcome env (Function.update acc.1 dep (some how)) dep how s)
    (hdisabled : how = .disabled → env.isDisabled spec = true) (hreused : how = .reused → reusable env spec = true) :
    LoopPlanned env top job plan (Function.update acc.1 dep (some how), acc.2) (pre ++ [dep])
      { turn with st := (turn.st.log events).close dep s } := by
  have hplan : acc.1 dep = none := h.agrees.plan_eq_none.mpr hnone
  obtain ⟨hmem, hname⟩ := Registry.getJob_eq_some.mp hspec
  refine h.extend hdep hrank (h.agrees.close hnone ?_ hlocked houtcome ?_ ?_) (.update hplan how) ?_ ?_
    (.inl ⟨rfl, rfl⟩)
  · intro e he
    rw [hevents e he]
    exact ⟨rfl, fun _ _ h => by cases h⟩
  · exact fun _ _ _ children hran => absurd hran (hhow children)
  · intro other hother hsame _
    have : other = spec := Registry.eq_of_name hother hmem (hsame.trans hname.symm)
    subst this
    exact ⟨hdisabled, hreused, fun children hran => absurd hran (hhow children)⟩
  · intro name hnone' hsome
    by_cases hself : name = dep
    · subst hself
      omega
    · rw [Function.update_of_ne hself] at hsome
      exact absurd hnone' hsome
  · rw [Function.update_self]
    rfl

theorem LoopPlanned.turn {env : Env} {top job : JobSpec} {plan : Plan} {acc : Plan × List String}
    {pre : List String} {turn turn' : Turn} {dep : String} {planDep : JobSpec → Plan → Plan}
    {Nested : JobSpec → RunState → Ran → Prop} (hiso : top.isolated = true)
    (h : LoopPlanned env top job plan acc pre turn) (hdep : dep ∈ dependencies env job)
    (hrank : rank env.registry dep < rank env.registry job.name)
    (hturned : Turned env top job Nested turn dep turn')
    (hnested : ∀ spec ran, env.registry.getJob dep = some spec → turn.st.done dep = none →
      Starts env top job turn.st spec → Nested spec turn.st ran →
      JobPlanned env top spec acc.1 (planDep spec acc.1) ran) :
    LoopPlanned env top job plan (planTurn env top job planDep acc dep) (pre ++ [dep]) turn' := by
  have hhas : (fun name => (acc.1 name).isSome) = turn.st.has := funext h.agrees.known
  have hnone' : turn.st.done dep = none → acc.1 dep = none := h.agrees.plan_eq_none.mpr
  cases hturned with
  | earlier status _ _ hiso' =>
    rw [hiso] at hiso'
    cases hiso'
  | known status hdone _ =>
    have hsome : (acc.1 dep).isSome = true := by
      rw [h.agrees.known, RunState.has, hdone]
      rfl
    obtain ⟨how, hhow⟩ := Option.isSome_iff_exists.mp hsome
    have hplan : planTurn env top job planDep acc dep = acc := by simp [planTurn, hhow]
    rw [hplan]
    exact h.extend hdep hrank h.agrees (fun _ _ => id) (fun _ hn hs => absurd hn hs) hsome (.inl ⟨rfl, rfl⟩)
  | disabled spec hnone hspec hdis =>
    have hplan : planTurn env top job planDep acc dep = (Function.update acc.1 dep (some .disabled), acc.2) := by
      simp [planTurn, hnone' hnone, hspec, hdis]
    have hsettle := h.settle hdep hrank hnone hspec [] .disabled .disabled
      (by simp) (by simp) (by simp) rfl (fun _ => hdis) (by simp)
    rw [RunState.log_nil] at hsettle
    rw [hplan]
    exact hsettle
  | skipped spec blocker _ _ _ hblock =>
    rw [failedRequirement, hiso] at hblock
    cases hblock
  | reused spec hnone hspec hdis hfresh =>
    have hplan : planTurn env top job planDep acc dep = (Function.update acc.1 dep (some .reused), acc.2) := by
      simp [planTurn, hnone' hnone, hspec, hdis, hfresh]
    have hsettle := h.settle hdep hrank hnone hspec [] .reused .reused
      (by simp) (by simp) (by simp) rfl (by simp) (fun _ => hfresh)
    rw [RunState.log_nil] at hsettle
    rw [hplan]
    exact hsettle
  | locked spec hnone hspec hdis hfresh hjob hname hbusy =>
    have hplan : planTurn env top job planDep acc dep = (Function.update acc.1 dep (some .locked), acc.2) := by
      simp [planTurn, hnone' hnone, hspec, hdis, hfresh, hjob, hname, hhas, hbusy]
    rw [hplan]
    exact h.settle hdep hrank hnone hspec [.locked dep] .locked .skipped (by simp) (by simp) (by simp) rfl (by simp) (by simp)
  | completed spec st hnone hspec hstarts hran =>
    have hplan : planTurn env top job planDep acc dep = (planDep spec acc.1, acc.2 ++ [dep]) := by
      simp only [planTurn, hnone' hnone, hspec, hstarts.enabled, hstarts.stale, hhas, Bool.false_eq_true, if_false]
      rw [if_neg]
      simpa using fun hiso hname => hstarts.free hiso hname
    obtain ⟨hagrees, hgrows, hbelow, hplanned, hraised⟩ := hnested spec _ hspec hnone hstarts hran
    rw [(Registry.getJob_eq_some.mp hspec).2] at hbelow hplanned hraised
    rw [hplan]
    exact h.extend hdep hrank hagrees hgrows hbelow hplanned
      (.inr (.inl ⟨rfl, fun hfails => (by cases hraised.mpr hfails), rfl⟩))
  | raised spec st hnone hspec hstarts hran =>
    have hplan : planTurn env top job planDep acc dep = (planDep spec acc.1, acc.2 ++ [dep]) := by
      simp only [planTurn, hnone' hnone, hspec, hstarts.enabled, hstarts.stale, hhas, Bool.false_eq_true, if_false]
      rw [if_neg]
      simpa using fun hiso hname => hstarts.free hiso hname
    obtain ⟨hagrees, hgrows, hbelow, hplanned, hraised⟩ := hnested spec _ hspec hnone hstarts hran
    rw [(Registry.getJob_eq_some.mp hspec).2] at hbelow hplanned hraised
    have hst : ∀ failure, ({ turn with st := st }.fail (job.isOptional dep) failure).st = st := by
      intro failure
      unfold Turn.fail
      split <;> rfl
    rw [hplan]
    refine h.extend hdep hrank (by rw [hst]; exact hagrees) hgrows hbelow hplanned
      (.inr (.inr ⟨rfl, hraised.mp rfl, .raised dep, by rw [hst]⟩))

/-- Why a job that runs fails. -/
theorem fails_cases {env : Env} {plan : Plan} {job : JobSpec} {children : List String}
    (hjob : job ∈ env.registry.jobs) (hran : plan job.name = some (.ran children))
    (h : Fails env plan job.name) :
    (∃ task ∈ job.tasks, env.taskOk job.name task = false) ∨
    (∃ dep ∈ children, job.isOptional dep = false ∧ Fails env plan dep) ∨
    (job.isolated = true ∧ job.tasks = [] ∧ (∃ dep ∈ children, Fails env plan dep) ∧
      ∀ other ∈ dependencies env job, plan other ≠ some .disabled → plan other ≠ some .locked →
        Fails env plan other) := by
  generalize hname : job.name = name at h
  cases h with
  | @task job' _ task hjob' hran' htask hok =>
    have := Registry.eq_of_name hjob hjob' hname
    subst this
    exact .inl ⟨task, htask, hok⟩
  | @required job' _ dep hjob' hran' hdep hopt hfails =>
    have := Registry.eq_of_name hjob hjob' hname
    subst this
    rw [hran] at hran'
    cases hran'
    exact .inr (.inl ⟨dep, hdep, hopt, hfails⟩)
  | @umbrella job' _ dep hjob' hran' hdep hiso htasks hfails hall =>
    have := Registry.eq_of_name hjob hjob' hname
    subst this
    rw [hran] at hran'
    cases hran'
    exact .inr (.inr ⟨hiso, htasks, ⟨dep, hdep, hfails⟩, hall⟩)

/-- A dependency that ended well is reused, or ran and did not fail. -/
theorem Agrees.good_iff {env : Env} {top : JobSpec} {plan : Plan} {st : RunState} (h : Agrees env top plan st)
    {name : String} (hname : (plan name).isSome = true) :
    ((st.done name).map (·.good)).getD false = true ↔
      plan name ≠ some .disabled ∧ plan name ≠ some .locked ∧ ¬ Fails env plan name := by
  obtain ⟨how, hhow⟩ := Option.isSome_iff_exists.mp hname
  obtain ⟨s, hs, hout⟩ := h.outcome name how hhow
  have hnot : (∀ children, how ≠ .ran children) → ¬ Fails env plan name := fun hno hfails => by
    obtain ⟨children, hran⟩ := hfails.ran
    rw [hhow] at hran
    exact hno children (Option.some.inj hran)
  rw [hs, hhow]
  cases how with
  | disabled => cases hout; simp [Status.good]
  | reused =>
    cases hout
    simpa [Status.good] using hnot (by simp)
  | locked => cases hout; simp [Status.good]
  | ran children =>
    obtain ⟨job, -, ⟨hfails, rfl⟩ | ⟨hfails, -, rfl⟩ | ⟨hfails, -, rfl⟩⟩ := hout <;> simp [Status.good, hfails]

theorem runTasks_all (env : Env) (job : String) (order : List String) :
    ((runTasks env none job order).2 = false ↔ ∃ task ∈ order, env.taskOk job task = false) ∧
      (order ≠ [] → ∃ task, .taskStarted job task ∈ (runTasks env none job order).1) ∧
      .locked job ∉ (runTasks env none job order).1 := by
  induction order with
  | nil => simp [runTasks]
  | cons task order ih =>
    rw [runTasks, leftOut, if_neg (by simp)]
    split_ifs with hok
    · refine ⟨?_, fun _ => ⟨task, by simp⟩, by simpa using ih.2.2⟩
      simp only [List.mem_cons, exists_eq_or_imp, hok, Bool.true_eq_false, false_or]
      exact ih.1
    · exact ⟨by simpa using .inl (by simpa using hok), fun _ => ⟨task, by simp⟩, by simp⟩

theorem LoopPlanned.close {env : Env} {top job : JobSpec} {plan : Plan} {acc : Plan × List String} {turn : Turn}
    {ran : Ran} (hjob : job ∈ env.registry.jobs)
    (h : LoopPlanned env top job plan acc (dependencies env job) turn)
    (hsettings : job.name ≠ top.name → env.isDisabled job = false ∧ reusable env job = false)
    (hclosed : Closed env none job turn ran) :
    JobPlanned env top job plan (Function.update acc.1 job.name (some (.ran acc.2))) ran := by
  have hget : env.registry.getJob job.name = some job := Registry.getJob_eq_some.mpr ⟨hjob, rfl⟩
  have hself : Function.update acc.1 job.name (some (.ran acc.2)) job.name = some (.ran acc.2) :=
    Function.update_self ..
  have hgrows : PlanGrows acc.1 (Function.update acc.1 job.name (some (.ran acc.2))) := .update h.fresh _
  have hsame : ∀ d ∈ dependencies env job,
      (Fails env (Function.update acc.1 job.name (some (.ran acc.2))) d ↔ Fails env acc.1 d) := fun d hd =>
    fails_iff h.agrees.toPlanClosed hgrows (h.planned d hd)
  have hchild : ∀ (p : String → Prop), (∃ d ∈ acc.2, p d ∧
      Fails env (Function.update acc.1 job.name (some (.ran acc.2))) d) ↔ ∃ d ∈ acc.2, p d ∧ Fails env acc.1 d :=
    fun p => exists_congr fun d => and_congr_right fun hd => and_congr_right fun _ => hsame d (h.children d hd).1
  have hplanOf : ∀ d ∈ dependencies env job, ∀ how, Function.update acc.1 job.name (some (.ran acc.2)) d = some how ↔
      acc.1 d = some how := fun d hd how => by
    rw [Function.update_of_ne]
    rintro rfl
    have := h.planned _ hd
    rw [h.fresh] at this
    cases this
  have hclose : ∀ (events : List Event) (s : Status), (∀ e ∈ events, e.job = job.name ∧ ∀ n s, e ≠ .ended n s) →
      .locked job.name ∉ events → Outcome env (Function.update acc.1 job.name (some (.ran acc.2))) job.name (.ran acc.2) s →
      (job.tasks ≠ [] → ((∃ task, .taskStarted job.name task ∈ events) ↔ Started env acc.1 job acc.2)) →
      (∀ raised, (raised = true ↔ Fails env (Function.update acc.1 job.name (some (.ran acc.2))) job.name) →
        JobPlanned env top job plan (Function.update acc.1 job.name (some (.ran acc.2)))
          ⟨(turn.st.log events).close job.name s, raised⟩) := by
    intro events s hevents hlocked hout hstart raised hraised
    refine ⟨h.agrees.close (h.agrees.plan_eq_none.mp h.fresh) hevents (by simpa using hlocked) hout ?_ ?_,
      fun name how hname => hgrows _ _ (h.grows _ _ hname), ?_, by rw [hself]; rfl, hraised⟩
    · intro other hother hname children hran
      cases hran
      have := Registry.eq_of_name hother hjob hname
      subst this
      exact ⟨h.planned, fun d hd => (h.children d hd).1, hstart⟩
    · intro other hother hname htop
      have := Registry.eq_of_name hother hjob hname
      subst this
      exact ⟨(fun h => by cases h), (fun h => by cases h), fun _ _ => hsettings htop⟩
    · intro name hnone hsome
      by_cases hname : name = job.name
      · subst hname
        omega
      · rw [Function.update_of_ne hname] at hsome
        have := h.below name hnone hsome
        omega
  have heveryModule : everyModuleFailed env job turn = true ↔ job.isolated = true ∧ turn.optionalFailures ≠ [] ∧
      job.tasks = [] ∧ ∀ d ∈ dependencies env job, acc.1 d ≠ some .disabled → acc.1 d ≠ some .locked →
        Fails env acc.1 d := by
    simp only [everyModuleFailed, Bool.and_eq_true, decide_eq_true_eq, Bool.not_eq_true', List.any_eq_false, and_assoc]
    refine and_congr_right fun _ => and_congr_right fun _ => and_congr_right fun _ => ?_
    refine forall₂_congr fun d hd => ?_
    rw [h.agrees.good_iff (h.planned d hd)]
    tauto
  have hordered : ∀ {order}, taskOrder env.registry job = .ok order →
      ((runTasks env none job.name order).2 = false ↔ ∃ task ∈ job.tasks, env.taskOk job.name task = false) ∧
      (job.tasks ≠ [] → ∃ task, .taskStarted job.name task ∈ (runTasks env none job.name order).1) := by
    intro order horder
    have hperm := (taskOrder_ok horder).1
    obtain ⟨hfailed, hstarted, -⟩ := runTasks_all env job.name order
    refine ⟨hfailed.trans (exists_congr fun task => and_congr_left fun _ => hperm.mem_iff), fun htasks => hstarted ?_⟩
    rintro rfl
    exact htasks hperm.nil_eq.symm
  have hevents : ∀ order, (∀ e ∈ (runTasks env none job.name order).1, e.job = job.name ∧ ∀ n s, e ≠ .ended n s) ∧
      .locked job.name ∉ (runTasks env none job.name order).1 := fun order =>
    ⟨(runTasks_events env none job.name order).1, (runTasks_all env job.name order).2.2⟩
  cases hclosed with
  | raised hfail =>
    have hfails : Fails env (Function.update acc.1 job.name (some (.ran acc.2))) job.name := by
      rcases hfail with hdep | hevery
      · obtain ⟨d, hd, hopt, hbad⟩ := h.depFailures.mp hdep
        exact .required hjob hself hd hopt ((hsame d (h.children d hd).1).mpr hbad)
      · obtain ⟨hiso, hoptional, htasks, hall⟩ := heveryModule.mp hevery
        obtain ⟨d, hd, hopt, hbad⟩ := h.optionalFailures.mp hoptional
        refine .umbrella hjob hself hd hiso htasks ((hsame d (h.children d hd).1).mpr hbad) fun other hother hdis hlock => ?_
        rw [Ne, hplanOf other hother] at hdis hlock
        exact (hsame other hother).mpr (hall other hother hdis hlock)
    have := hclose [] .failed (by simp) (by simp) ⟨job, hget, .inl ⟨hfails, rfl⟩⟩ ?_ true
      (by simpa using hfails)
    · rwa [RunState.log_nil] at this
    · intro htasks
      have hdep := hfail.resolve_right fun hevery => htasks (heveryModule.mp hevery).2.2.1
      simpa [Started] using h.depFailures.mp hdep
  | taskFailed order hfail hevery horder htasks =>
    obtain ⟨task, htask, hok⟩ := (hordered horder).1.mp htasks
    have hfails : Fails env (Function.update acc.1 job.name (some (.ran acc.2))) job.name := .task hjob hself htask hok
    refine hclose _ _ (hevents order).1 (hevents order).2 ⟨job, hget, .inl ⟨hfails, rfl⟩⟩ (fun hne => ?_) true
      (by simpa using hfails)
    exact iff_of_true ((hordered horder).2 hne) fun hbad => h.depFailures.mpr hbad hfail
  | completed order hfail hevery horder htasks =>
    have hgood : ¬ Fails env (Function.update acc.1 job.name (some (.ran acc.2))) job.name := by
      intro hfails
      rcases fails_cases hjob hself hfails with htask | hdep | ⟨hiso, hempty, ⟨d, hd, hbad⟩, hall⟩
      · rw [(hordered horder).1.mpr htask] at htasks
        cases htasks
      · exact h.depFailures.mpr ((hchild _).mp hdep) hfail
      · have hopt : job.isOptional d = true := by simp [JobSpec.isOptional, hiso]
        have hyes : everyModuleFailed env job turn = true := by
          refine heveryModule.mpr ⟨hiso, h.optionalFailures.mpr ⟨d, hd, hopt, (hsame d (h.children d hd).1).mp hbad⟩,
            hempty, fun other hother hdis hlock => ?_⟩
          refine (hsame other hother).mp (hall other hother ?_ ?_)
          · rwa [Ne, hplanOf other hother]
          · rwa [Ne, hplanOf other hother]
        rw [hyes] at hevery
        cases hevery
    refine hclose _ _ (hevents order).1 (hevents order).2 ⟨job, hget, .inr ?_⟩ (fun hne => ?_) false (by simpa using hgood)
    · rw [hchild, ← h.optionalFailures]
      by_cases hoptional : turn.optionalFailures ≠ []
      · exact .inl ⟨hgood, hoptional, if_pos hoptional⟩
      · exact .inr ⟨hgood, hoptional, if_neg hoptional⟩
    · exact iff_of_true ((hordered horder).2 hne) fun hbad => h.depFailures.mpr hbad hfail

def isolationRule (env : Env) (top : JobSpec) (hreg : Valid env.registry) (hiso : top.isolated = true) :
    RunRule env top where
  Pre job _ := job.name ≠ top.name → env.isDisabled job = false ∧ reusable env job = false
  Loop job st pre turn := job ∈ env.registry.jobs ∧
    (job.name ≠ top.name → env.isDisabled job = false ∧ reusable env job = false) ∧
    ∀ fuel plan, rank env.registry job.name ≤ fuel → Agrees env top plan st → st.done job.name = none →
      LoopPlanned env top job plan (pre.foldl (planTurn env top job (planJob env top fuel)) (plan, [])) pre turn
  Post dataset job st ran := dataset = none → ∀ fuel plan, rank env.registry job.name < fuel →
    Agrees env top plan st → st.done job.name = none → JobPlanned env top job plan (planJob env top fuel job plan) ran
  start := by
    intro job st hjob hpre
    refine ⟨hjob, hpre, fun fuel plan _ hagrees hnone => ?_⟩
    exact ⟨hagrees, fun _ _ => id, fun _ hn hs => absurd hn hs, hagrees.plan_eq_none.mpr hnone, by simp, by simp,
      by simp, by simp⟩
  enter _ _ _ _ hstarts _ := ⟨hstarts.enabled, hstarts.stale⟩
  turn := by
    intro job st pre turn turn' dep hloop hdep hturned
    obtain ⟨hjob, hpre, hplans⟩ := hloop
    have hrank : rank env.registry dep < rank env.registry job.name := by
      refine hreg.rank_lt _ (List.mem_map_of_mem hjob) dep ?_
      rw [Registry.jobDeps_of_getJob (Registry.getJob_eq_some.mpr ⟨hjob, rfl⟩)]
      exact dependencies_subset env job dep hdep
    refine ⟨hjob, hpre, fun fuel plan hfuel hagrees hnone => ?_⟩
    have hloop := hplans fuel plan hfuel hagrees hnone
    rw [List.foldl_append, List.foldl_cons, List.foldl_nil]
    refine hloop.turn hiso hdep hrank hturned fun spec ran hspec hdone _ hpost => ?_
    have hname := (Registry.getJob_eq_some.mp hspec).2
    exact hpost rfl fuel _ (by rw [hname]; omega) hloop.agrees (hname ▸ hdone)
  close := by
    intro dataset job st turn ran hloop hclosed hdataset fuel plan hfuel hagrees hnone
    subst hdataset
    obtain ⟨hjob, hpre, hplans⟩ := hloop
    obtain ⟨fuel, rfl⟩ := Nat.exists_eq_succ_of_ne_zero (Nat.ne_of_gt (Nat.lt_of_le_of_lt (Nat.zero_le _) hfuel))
    exact (hplans fuel plan (Nat.le_of_lt_succ hfuel) hagrees hnone).close hjob hpre hclosed

/-! ## The umbrella job -/

/-- A job without tasks has no run of one dataset. -/
theorem dataset_of_run {env : Env} {name : String} {top : JobSpec} (htop : env.registry.getJob name = some top)
    (htasks : top.tasks = []) {dataset : Option String} {report : Report} (h : run env name dataset = .ok report) :
    dataset = none := by
  cases dataset with
  | none => rfl
  | some ds =>
    unfold run at h
    rw [htop] at h
    have hfilter : ∃ e, checkDatasetFilter env top (some ds) = .error e := by
      unfold checkDatasetFilter
      dsimp only
      rw [htasks]
      by_cases hknown : ds ∉ env.registry.datasets.map (·.name)
      · exact ⟨_, if_pos hknown⟩
      · exact ⟨_, (if_neg hknown).trans rfl⟩
    obtain ⟨e, he⟩ := hfilter
    cases hvalid : validate env.registry with
    | error e' => rw [hvalid] at h; cases h
    | ok _ =>
      rw [hvalid] at h
      simp only [he] at h
      cases h

/-- The isolated run, against its schedule. -/
theorem run_scheduled {env : Env} {name : String} {top : JobSpec} (htop : env.registry.getJob name = some top)
    (hiso : top.isolated = true) (htasks : top.tasks = []) {dataset : Option String} {report : Report}
    (h : run env name dataset = .ok report) :
    ∃ st, Agrees env top (schedule env top) st ∧ report = ⟨st.trace, (st.done top.name).getD .failed⟩ ∧
      ((schedule env top) top.name).isSome = true ∧
      ∀ dep ∈ dependencies env top, dep ≠ top.name := by
  cases dataset_of_run htop htasks h
  obtain ⟨hreg, ran, hran, rfl⟩ := run_ok htop h
  obtain ⟨hmem, rfl⟩ := Registry.getJob_eq_some.mp htop
  have hrank := hreg.rank_bound top.name (List.mem_map_of_mem hmem)
  obtain ⟨ran', hran', hpost⟩ := (isolationRule env top hreg hiso).runs hreg (env.registry.jobs.length + 1)
    none hmem (by omega) (fun h => absurd rfl h)
  rw [hran] at hran'
  cases hran'
  have hplanned := hpost rfl (env.registry.jobs.length + 1) (fun _ => none) (by omega) (.start env top) rfl
  refine ⟨ran.st, hplanned.agrees, rfl, hplanned.planned, fun dep hdep hself => ?_⟩
  have := hreg.rank_lt top.name (List.mem_map_of_mem hmem) dep (by
    rw [Registry.jobDeps_of_getJob htop]
    exact dependencies_subset env top dep hdep)
  rw [hself] at this
  omega

/-- A module failed in the trace if it fails in the plan. -/
theorem Agrees.ended_failed {env : Env} {top : JobSpec} {plan : Plan} {st : RunState} (h : Agrees env top plan st)
    {name : String} (hname : (plan name).isSome = true) :
    .ended name .failed ∈ st.trace ↔ Fails env plan name := by
  obtain ⟨how, hhow⟩ := Option.isSome_iff_exists.mp hname
  obtain ⟨s, hs, hout⟩ := h.outcome name how hhow
  have hiff : .ended name .failed ∈ st.trace ↔ s = .failed := by
    rw [← h.memo, hs, Option.some.injEq]
  rw [hiff]
  have hnot : (∀ children, how ≠ .ran children) → ¬ Fails env plan name := fun hno hfails => by
    obtain ⟨children, hran⟩ := hfails.ran
    rw [hhow] at hran
    exact hno children (Option.some.inj hran)
  cases how with
  | ran children =>
    obtain ⟨job, -, ⟨hfails, rfl⟩ | ⟨hfails, -, rfl⟩ | ⟨hfails, -, rfl⟩⟩ := hout <;> simp [hfails]
  | _ =>
    cases hout
    simpa using hnot (by simp)

theorem Agrees.ended_good {env : Env} {top : JobSpec} {plan : Plan} {st : RunState} (h : Agrees env top plan st)
    (name : String) :
    (.ended name .success ∈ st.trace ∨ .ended name .partly ∈ st.trace ∨ .ended name .reused ∈ st.trace) ↔
      ((st.done name).map (·.good)).getD false = true := by
  rw [← h.memo, ← h.memo, ← h.memo]
  cases hs : st.done name with
  | none => simp
  | some s => cases s <;> simp [Status.good]

/-- **The modules of an isolated umbrella job are isolated exactly when no module that
runs a dependency of its own fails with it.** -/
theorem umbrella_isolated {env : Env} {name : String} {top : JobSpec}
    (htop : env.registry.getJob name = some top) (hiso : top.isolated = true) (htasks : top.tasks = [])
    {dataset : Option String} {report : Report} (hrun : run env name dataset = .ok report) :
    UmbrellaIsolated env top report ↔ ¬ NestedFailure env top := by
  obtain ⟨st, h, rfl, hplanned, hother⟩ := run_scheduled htop hiso htasks hrun
  obtain ⟨hmem, -⟩ := Registry.getJob_eq_some.mp htop
  have hran : ∃ children, schedule env top top.name = some (.ran children) := ⟨_, Function.update_self ..⟩
  obtain ⟨children, hran⟩ := hran
  have hsel : ∀ dep ∈ dependencies env top, (schedule env top dep).isSome = true := h.planned top hmem children hran
  obtain ⟨s, hs, job, hjob, hout⟩ := h.outcome _ _ hran
  have hjob : job = top := by
    rw [Registry.getJob_eq_some.mpr ⟨hmem, rfl⟩] at hjob
    exact (Option.some.inj hjob).symm
  subst hjob
  have hopt : ∀ dep, job.isOptional dep = true := fun dep => by simp [JobSpec.isOptional, hiso]
  have hstarts : (∀ mod ∈ env.registry.jobs, mod.name ∈ dependencies env job → mod.tasks ≠ [] →
      env.isDisabled mod = false → reusable env mod = false → .locked mod.name ∉ st.trace →
      ∃ task, .taskStarted mod.name task ∈ st.trace) ↔
      ¬ ∃ mod ∈ env.registry.jobs, mod.name ∈ dependencies env job ∧ mod.tasks ≠ [] ∧
        ∃ children, schedule env job mod.name = some (.ran children) ∧
          ∃ dep ∈ children, mod.isOptional dep = false ∧ Fails env (schedule env job) dep := by
    constructor
    · rintro hall ⟨mod, hmod, hdep, hne, children', hran', hbad⟩
      obtain ⟨hdis, hfresh⟩ := (h.settings mod hmod (hother _ hdep)).2.2 children' hran'
      have hlock : .locked mod.name ∉ st.trace := fun hlock => by
        rw [(h.locked _).mp hlock] at hran'
        cases hran'
      exact (h.starts mod hmod children' hran' hne).mp (hall mod hmod hdep hne hdis hfresh hlock) hbad
    · intro hno mod hmod hdep hne hdis hfresh hlock
      obtain ⟨hdisabled, hreused, -⟩ := h.settings mod hmod (hother _ hdep)
      obtain ⟨how, hhow⟩ := Option.isSome_iff_exists.mp (hsel _ hdep)
      cases how with
      | disabled =>
        rw [hdisabled hhow] at hdis
        cases hdis
      | reused =>
        rw [hreused hhow] at hfresh
        cases hfresh
      | locked => exact absurd ((h.locked _).mpr hhow) hlock
      | ran children' =>
        exact (h.starts mod hmod children' hhow hne).mpr fun hbad => hno ⟨mod, hmod, hdep, hne, children', hhow, hbad⟩
  have hanyFailed : ((dependencies env job).any fun dep => decide (.ended dep .failed ∈ st.trace)) = true ↔
      ∃ dep ∈ dependencies env job, Fails env (schedule env job) dep := by
    simp only [List.any_eq_true, decide_eq_true_eq]
    exact exists_congr fun dep => and_congr_right fun hdep => h.ended_failed (hsel dep hdep)
  have hanyGood : ((dependencies env job).any fun dep => decide (.ended dep .success ∈ st.trace ∨
      .ended dep .partly ∈ st.trace ∨ .ended dep .reused ∈ st.trace)) = true ↔
      ∃ dep ∈ dependencies env job, schedule env job dep ≠ some .disabled ∧ schedule env job dep ≠ some .locked ∧
        ¬ Fails env (schedule env job) dep := by
    simp only [List.any_eq_true, decide_eq_true_eq]
    exact exists_congr fun dep => and_congr_right fun hdep => (h.ended_good dep).trans (h.good_iff (hsel dep hdep))
  have hchild : ∀ dep ∈ children, dep ∈ dependencies env job := h.children job hmem children hran
  have hstatus : s = umbrellaStatus env job st.trace ↔
      ¬ ((∃ dep ∈ dependencies env job, Fails env (schedule env job) dep) ∧
        ∀ children, schedule env job job.name = some (.ran children) →
          ∀ dep ∈ children, ¬ Fails env (schedule env job) dep) := by
    have hself : Fails env (schedule env job) job.name ↔ (∃ dep ∈ children, Fails env (schedule env job) dep) ∧
        ¬ ∃ dep ∈ dependencies env job, schedule env job dep ≠ some .disabled ∧
          schedule env job dep ≠ some .locked ∧ ¬ Fails env (schedule env job) dep := by
      constructor
      · intro hfails
        rcases fails_cases hmem hran hfails with ⟨task, htask, -⟩ | ⟨dep, -, hreq, -⟩ | ⟨-, -, hdep, hall⟩
        · rw [htasks] at htask
          cases htask
        · rw [hopt] at hreq
          cases hreq
        · refine ⟨hdep, ?_⟩
          rintro ⟨other, hother, hdis, hlock, hgood⟩
          exact hgood (hall other hother hdis hlock)
      · rintro ⟨⟨dep, hdep, hbad⟩, hnone⟩
        refine .umbrella hmem hran hdep hiso htasks hbad fun other hother hdis hlock => ?_
        by_contra hgood
        exact hnone ⟨other, hother, hdis, hlock, hgood⟩
    have hpartly : (∃ dep ∈ children, job.isOptional dep = true ∧ Fails env (schedule env job) dep) ↔
        ∃ dep ∈ children, Fails env (schedule env job) dep := by
      simp only [hopt, true_and]
    rw [hself, hpartly] at hout
    have hchildren : (∀ children, schedule env job job.name = some (.ran children) →
        ∀ dep ∈ children, ¬ Fails env (schedule env job) dep) ↔
        ¬ ∃ dep ∈ children, Fails env (schedule env job) dep := by
      constructor
      · rintro hall ⟨dep, hdep, hbad⟩
        exact hall children hran dep hdep hbad
      · intro hnone children' hran' dep hdep hbad
        rw [hran] at hran'
        cases hran'
        exact hnone ⟨dep, hdep, hbad⟩
    have hany : (∃ dep ∈ children, Fails env (schedule env job) dep) →
        ∃ dep ∈ dependencies env job, Fails env (schedule env job) dep := by
      rintro ⟨dep, hdep, hbad⟩
      exact ⟨dep, hchild dep hdep, hbad⟩
    rw [hchildren]
    unfold umbrellaStatus
    rcases hout with ⟨⟨hbad, hnone⟩, rfl⟩ | ⟨hgood, hbad, rfl⟩ | ⟨-, hnone, rfl⟩
    · rw [if_pos (hanyFailed.mpr (hany hbad)), if_neg fun h => hnone (hanyGood.mp h)]
      exact iff_of_true rfl fun h => h.2 hbad
    · have hyes := not_not.mp fun h => hgood ⟨hbad, h⟩
      rw [if_pos (hanyFailed.mpr (hany hbad)), if_pos (hanyGood.mpr hyes)]
      exact iff_of_true rfl fun h => h.2 hbad
    · by_cases hfailed : ∃ dep ∈ dependencies env job, Fails env (schedule env job) dep
      · rw [if_pos (hanyFailed.mpr hfailed)]
        refine iff_of_false (fun h => ?_) fun h => h ⟨hfailed, hnone⟩
        split at h <;> cases h
      · rw [if_neg fun h => hfailed (hanyFailed.mp h)]
        exact iff_of_true rfl fun h => hfailed h.1
  rw [NestedFailure, not_or, ← hstarts, ← hstatus]
  exact ⟨fun hu => ⟨hu.starts, by simpa [hs] using hu.status⟩, fun hu => ⟨hu.1, by simpa [hs] using hu.2⟩⟩

/-! ## A module that is not selected -/

/-- Finance requires the shared lists, which the umbrella job is told not to run. -/
def refreshRegistry : Registry where
  datasets := []
  tasks := [plainTask "load_dims" [], plainTask "load_finance" []]
  jobs := [plainJob "core_dims" ["load_dims"] [] [], plainJob "finance" ["load_finance"] ["core_dims"] [],
    { plainJob "refresh_30m" [] ["core_dims", "finance"] [] with isolated := true, configurableModules := true }]
  datasetNames := List.nodup_nil
  taskNames := by decide
  jobNames := by decide

/-- `refresh_30m` with the module finance alone: finance runs the failing `core_dims`
itself, and does not start. -/
theorem umbrella_not_isolated :
    ∃ report, run (plainEnv refreshRegistry ["finance"] ["load_dims"]) "refresh_30m" none = .ok report ∧
      ¬ UmbrellaIsolated (plainEnv refreshRegistry ["finance"] ["load_dims"])
        { plainJob "refresh_30m" [] ["core_dims", "finance"] [] with isolated := true, configurableModules := true }
        report := by
  refine ⟨⟨[.taskStarted "core_dims" "load_dims", .taskFailed "core_dims" "load_dims", .ended "core_dims" .failed,
    .ended "finance" .failed, .ended "refresh_30m" .failed], .failed⟩, by decide +kernel, fun h => ?_⟩
  obtain ⟨task, htask⟩ := h.starts (plainJob "finance" ["load_finance"] ["core_dims"] []) (by decide) (by decide)
    (by decide) (by decide) (by decide) (by decide)
  simp [plainJob] at htask

/-- With both modules selected the failure stays with the shared lists. -/
theorem umbrella_isolated_both :
    UmbrellaIsolated (plainEnv refreshRegistry ["core_dims", "finance"] ["load_dims"])
      { plainJob "refresh_30m" [] ["core_dims", "finance"] [] with isolated := true, configurableModules := true }
      ⟨[.taskStarted "core_dims" "load_dims", .taskFailed "core_dims" "load_dims", .ended "core_dims" .failed,
        .taskStarted "finance" "load_finance", .taskCompleted "finance" "load_finance", .ended "finance" .success,
        .ended "refresh_30m" .partly], .partly⟩ ↔
      ¬ NestedFailure (plainEnv refreshRegistry ["core_dims", "finance"] ["load_dims"])
        { plainJob "refresh_30m" [] ["core_dims", "finance"] [] with isolated := true, configurableModules := true } := by
  have htop : (plainEnv refreshRegistry ["core_dims", "finance"] ["load_dims"]).registry.getJob "refresh_30m" = some
      { plainJob "refresh_30m" [] ["core_dims", "finance"] [] with isolated := true, configurableModules := true } := by
    decide +kernel
  have hrun : run (plainEnv refreshRegistry ["core_dims", "finance"] ["load_dims"]) "refresh_30m" none = .ok
      ⟨[.taskStarted "core_dims" "load_dims", .taskFailed "core_dims" "load_dims", .ended "core_dims" .failed,
        .taskStarted "finance" "load_finance", .taskCompleted "finance" "load_finance", .ended "finance" .success,
        .ended "refresh_30m" .partly], .partly⟩ := by
    decide +kernel
  exact umbrella_isolated htop rfl rfl hrun

end SalesDashboard.EtlPlatform
