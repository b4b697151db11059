import SalesDashboard.EtlPlatform.Order
import Mathlib

/-! `Runner.run` (`runner.py`): dependency jobs first, then the job's tasks. A run leaves
the outcome of each job in `done` and a trace of what it did. Log rows, totals and
messages are left out. -/

namespace SalesDashboard.EtlPlatform

/-! ## Definitions -/

/-- `partly` is the source's `partial`. -/
inductive Status
  | success | partly | failed | skipped | disabled | reused
  deriving DecidableEq, Repr

/-- `in NOT_RUN`. -/
def Status.notRun : Status → Bool
  | .failed | .skipped => true
  | _ => false

inductive Event
  | taskStarted (job task : String)
  | taskCompleted (job task : String)
  | taskFailed (job task : String)
  | locked (job : String)
  | ended (job : String) (status : Status)
  deriving DecidableEq, Repr

def Event.job : Event → String
  | .taskStarted job _ | .taskCompleted job _ | .taskFailed job _ | .locked job | .ended job _ => job

/-- What a run is given, and what it meets: the outcome of a task in a job, the answer
of `disabled_reason()`, the age of a job's newest success row, and whether the named
lock is free when the job asks for it. -/
structure Env where
  registry : Registry
  refreshModules : List String
  coreDimsFreshMinutes : Nat
  lockName : String
  fullRefresh : Bool
  taskOk : String → String → Bool
  disabledReason : String → Option String
  secondsSinceSuccess : String → Option Int
  lockFree : String → String → Bool

/-- `self._done`, and the events in their order. -/
structure RunState where
  done : String → Option Status
  trace : List Event

def RunState.start : RunState := ⟨fun _ => none, []⟩

/-- `self._done[name] = status`. -/
def RunState.close (st : RunState) (name : String) (status : Status) : RunState :=
  ⟨Function.update st.done name (some status), st.trace ++ [.ended name status]⟩

/-- `name in self._done`. -/
def RunState.has (st : RunState) (name : String) : Bool := (st.done name).isSome

def RunState.log (st : RunState) (events : List Event) : RunState := { st with trace := st.trace ++ events }

def Env.isDisabled (env : Env) (job : JobSpec) : Bool :=
  job.disabledReason && (env.disabledReason job.name).getD "" ≠ ""

/-- `_dependencies`. -/
def dependencies (env : Env) (job : JobSpec) : List String :=
  if job.configurableModules then job.dependsOnJobs.filter (· ∈ env.refreshModules) else job.dependsOnJobs

/-- The modules that a job and the dependencies it may run write. -/
def lockModules (env : Env) (done : String → Bool) : Nat → JobSpec → List String
  | 0, _ => []
  | fuel + 1, job =>
      job.ownLocks ++ (dependencies env job).flatMap fun dep =>
        if done dep then []
        else match env.registry.getJob dep with
          | none => []
          | some dep => lockModules env done fuel dep

/-- `_lock_names`; without `skip_done` for a `done` that has no job. -/
def lockNames (env : Env) (done : String → Bool) (job : JobSpec) : List String :=
  ((lockModules env done (env.registry.jobs.length + 1) job).dedup.map
    fun m => env.lockName ++ ":" ++ m).insertionSort (· ≤ ·)

/-- The lock at which `_hold` gives up. -/
def busyLock (env : Env) (done : String → Bool) (job : JobSpec) : Option String :=
  (lockNames env done job).find? fun name => !env.lockFree job.name name

/-- `_failed_requirement`. -/
def failedRequirement (top : JobSpec) (done : String → Option Status) (job : JobSpec) : Option String :=
  if top.isolated then none
  else job.dependsOnJobs.find? fun dep => dep ∉ job.optionalJobs ∧ ((done dep).map (·.notRun)).getD false

def reuseWindow (env : Env) (job : JobSpec) : Nat :=
  match job.reuseWithinMinutes with
  | none => 0
  | some .config => env.coreDimsFreshMinutes
  | some (.minutes n) => n

/-- `_fresh_success`. -/
def freshSuccess (env : Env) (job : JobSpec) : Bool :=
  reuseWindow env job ≠ 0 &&
    match env.secondsSinceSuccess job.name with
    | none => false
    | some age => age ≤ 60 * reuseWindow env job

/-- The loop's `fresh is not None`. -/
def reusable (env : Env) (job : JobSpec) : Bool := !env.fullRefresh && freshSuccess env job

/-- What a dependency's failure says. -/
inductive Failure
  | earlier (dep : String) (status : Status)
  | requirement (dep blocker : String)
  | raised (dep : String)
  deriving DecidableEq, Repr

/-- The variables of the loop over the dependencies. -/
structure Turn where
  st : RunState
  depFailures : List Failure
  optionalFailures : List Failure

def Turn.fail (turn : Turn) (optional : Bool) (failure : Failure) : Turn :=
  if optional then { turn with optionalFailures := turn.optionalFailures ++ [failure] }
  else { turn with depFailures := turn.depFailures ++ [failure] }

/-- `optional` of the loop. -/
def JobSpec.isOptional (job : JobSpec) (dep : String) : Bool := dep ∈ job.optionalJobs || job.isolated

/-- How a job's run ends; `raised` says that it raised. -/
structure Ran where
  st : RunState
  raised : Bool

/-- One turn of the loop, in which `runDep` runs the dependency. -/
def depTurn (env : Env) (top job : JobSpec) (runDep : JobSpec → RunState → Except RegistryError Ran)
    (turn : Turn) (depName : String) : Except RegistryError Turn :=
  match turn.st.done depName with
  | some status =>
      .ok (if status.notRun && !top.isolated then
        turn.fail (job.isOptional depName) (.earlier depName status) else turn)
  | none =>
      match env.registry.getJob depName with
      | none => .error (.unknownJob depName)
      | some dep =>
          if env.isDisabled dep then .ok { turn with st := turn.st.close depName .disabled }
          else match failedRequirement top turn.st.done dep with
            | some blocker =>
                .ok ({ turn with st := turn.st.close depName .skipped }.fail (job.isOptional depName)
                  (.requirement depName blocker))
            | none =>
                if reusable env dep then .ok { turn with st := turn.st.close depName .reused }
                else if job.isolated && job.name = top.name && (busyLock env turn.st.has dep).isSome then
                  .ok { turn with st := (turn.st.log [.locked depName]).close depName .skipped }
                else match runDep dep turn.st with
                  | .error e => .error e
                  | .ok ran =>
                      .ok (if ran.raised then
                        { turn with st := ran.st }.fail (job.isOptional depName) (.raised depName)
                      else { turn with st := ran.st })

/-- The tasks that `--dataset` leaves out. -/
def leftOut (env : Env) (dataset : Option String) (task : String) : Bool :=
  match dataset with
  | none => false
  | some ds => ds ∉ ((env.registry.getTask task).map (·.datasets)).getD []

/-- The loop over the tasks: its events, and whether no task failed. -/
def runTasks (env : Env) (dataset : Option String) (job : String) : List String → List Event × Bool
  | [] => ([], true)
  | task :: tasks =>
      if leftOut env dataset task then runTasks env dataset job tasks
      else if env.taskOk job task then
        let rest := runTasks env dataset job tasks
        (.taskStarted job task :: .taskCompleted job task :: rest.1, rest.2)
      else ([.taskStarted job task, .taskFailed job task], false)

def Status.good : Status → Bool
  | .success | .partly | .reused => true
  | _ => false

/-- The test for `every module failed`. -/
def everyModuleFailed (env : Env) (job : JobSpec) (turn : Turn) : Bool :=
  job.isolated && turn.optionalFailures ≠ [] && job.tasks = [] &&
    !(dependencies env job).any fun dep => ((turn.st.done dep).map (·.good)).getD false

/-- `_run_job` after the loop over the dependencies. -/
def closeJob (env : Env) (dataset : Option String) (job : JobSpec) (turn : Turn) : Except RegistryError Ran :=
  if turn.depFailures ≠ [] || everyModuleFailed env job turn then .ok ⟨turn.st.close job.name .failed, true⟩
  else match taskOrder env.registry job with
    | .error e => .error e
    | .ok order =>
        let tasks := runTasks env dataset job.name order
        let status := if !tasks.2 then .failed else if turn.optionalFailures ≠ [] then .partly else .success
        .ok ⟨(turn.st.log tasks.1).close job.name status, !tasks.2⟩

/-- `_run_job`. -/
def runJob (env : Env) (top : JobSpec) : Nat → Option String → JobSpec → RunState → Except RegistryError Ran
  | 0, _, _, _ => .error .recursionLimit
  | fuel + 1, dataset, job, st =>
      match (dependencies env job).foldlM (depTurn env top job (runJob env top fuel none)) ⟨st, [], []⟩ with
      | .error e => .error e
      | .ok turn => closeJob env dataset job turn

/-- Why a run does not start. -/
inductive Refusal
  | registry (e : RegistryError)
  | unknownDataset (dataset : String)
  | datasetNotLoaded (dataset job : String)
  | locked (name : String)
  | disabled (job : String)
  deriving DecidableEq, Repr

/-- `_check_dataset_filter`. -/
def checkDatasetFilter (env : Env) (job : JobSpec) (dataset : Option String) : Except Refusal Unit :=
  match dataset with
  | none => .ok ()
  | some ds =>
      if ds ∉ env.registry.datasets.map (·.name) then .error (.unknownDataset ds)
      else if job.tasks.all (leftOut env dataset) then .error (.datasetNotLoaded ds job.name)
      else .ok ()

structure Report where
  trace : List Event
  lastStatus : Status
  deriving DecidableEq, Repr

/-- `Runner.run`; what it raises after the job has started is in the status. -/
def run (env : Env) (jobName : String) (dataset : Option String) : Except Refusal Report :=
  match validate env.registry with
  | .error e => .error (.registry e)
  | .ok _ =>
    match env.registry.getJob jobName with
    | none => .error (.registry (.unknownJob jobName))
    | some job =>
      match checkDatasetFilter env job dataset with
      | .error e => .error e
      | .ok _ =>
        match if job.isolated then none else busyLock env (fun _ => false) job with
        | some name => .error (.locked name)
        | none =>
          if env.isDisabled job then .error (.disabled job.name)
          else match runJob env job (env.registry.jobs.length + 1) dataset job .start with
            | .error e => .error (.registry e)
            | .ok ran => .ok ⟨ran.st.trace, (ran.st.done job.name).getD .failed⟩

/-! ## What a turn and a run can do -/

theorem dependencies_subset (env : Env) (job : JobSpec) : ∀ dep ∈ dependencies env job, dep ∈ job.dependsOnJobs := by
  intro dep hdep
  unfold dependencies at hdep
  split at hdep
  · exact (List.mem_filter.mp hdep).1
  · exact hdep

/-- A dependency that the loop reaches first: none of its answers stops it. -/
structure Starts (env : Env) (top job : JobSpec) (st : RunState) (dep : JobSpec) : Prop where
  enabled : env.isDisabled dep = false
  unblocked : failedRequirement top st.done dep = none
  stale : reusable env dep = false
  free : job.isolated = true → job.name = top.name → busyLock env st.has dep = none

/-- The cases of `depTurn`; `Nested` is what a nested run does. -/
inductive Turned (env : Env) (top job : JobSpec) (Nested : JobSpec → RunState → Ran → Prop) (turn : Turn)
    (dep : String) : Turn → Prop
  | earlier (status : Status) : turn.st.done dep = some status → status.notRun = true → top.isolated = false →
      Turned env top job Nested turn dep (turn.fail (job.isOptional dep) (.earlier dep status))
  | known (status : Status) : turn.st.done dep = some status → (status.notRun = true → top.isolated = true) →
      Turned env top job Nested turn dep turn
  | disabled (spec : JobSpec) : turn.st.done dep = none → env.registry.getJob dep = some spec →
      env.isDisabled spec = true →
      Turned env top job Nested turn dep { turn with st := turn.st.close dep .disabled }
  | skipped (spec : JobSpec) (blocker : String) : turn.st.done dep = none → env.registry.getJob dep = some spec →
      env.isDisabled spec = false → failedRequirement top turn.st.done spec = some blocker →
      Turned env top job Nested turn dep ({ turn with st := turn.st.close dep .skipped }.fail (job.isOptional dep)
        (.requirement dep blocker))
  | reused (spec : JobSpec) : turn.st.done dep = none → env.registry.getJob dep = some spec →
      env.isDisabled spec = false → reusable env spec = true →
      Turned env top job Nested turn dep { turn with st := turn.st.close dep .reused }
  | locked (spec : JobSpec) : turn.st.done dep = none → env.registry.getJob dep = some spec →
      env.isDisabled spec = false → reusable env spec = false → job.isolated = true → job.name = top.name →
      (busyLock env turn.st.has spec).isSome = true →
      Turned env top job Nested turn dep { turn with st := (turn.st.log [.locked dep]).close dep .skipped }
  | completed (spec : JobSpec) (st : RunState) : turn.st.done dep = none → env.registry.getJob dep = some spec →
      Starts env top job turn.st spec → Nested spec turn.st ⟨st, false⟩ →
      Turned env top job Nested turn dep { turn with st := st }
  | raised (spec : JobSpec) (st : RunState) : turn.st.done dep = none → env.registry.getJob dep = some spec →
      Starts env top job turn.st spec → Nested spec turn.st ⟨st, true⟩ →
      Turned env top job Nested turn dep ({ turn with st := st }.fail (job.isOptional dep) (.raised dep))

theorem depTurn_cases {env : Env} (top job : JobSpec) (runDep : JobSpec → RunState → Except RegistryError Ran)
    (Nested : JobSpec → RunState → Ran → Prop) (turn : Turn) {dep : String} (hdep : dep ∈ env.registry.names)
    (hrun : ∀ spec, env.registry.getJob dep = some spec → turn.st.done dep = none →
      Starts env top job turn.st spec → ∃ ran, runDep spec turn.st = .ok ran ∧ Nested spec turn.st ran) :
    ∃ turn', depTurn env top job runDep turn dep = .ok turn' ∧ Turned env top job Nested turn dep turn' := by
  obtain ⟨spec, hspec⟩ := env.registry.exists_getJob hdep
  unfold depTurn
  cases hdone : turn.st.done dep with
  | some status =>
    refine ⟨_, rfl, ?_⟩
    by_cases hrec : status.notRun = true ∧ top.isolated = false
    · rw [if_pos (by simp [hrec.1, hrec.2])]
      exact .earlier status hdone hrec.1 hrec.2
    · have hiso : status.notRun = true → top.isolated = true := fun h => by
        by_contra hiso
        exact hrec ⟨h, by simpa using hiso⟩
      rw [if_neg (by simpa using hiso)]
      exact .known status hdone hiso
  | none =>
    rw [hspec]
    dsimp only
    cases hdis : env.isDisabled spec with
    | true => exact ⟨_, rfl, .disabled spec hdone hspec hdis⟩
    | false =>
      rw [if_neg (by simp)]
      cases hblock : failedRequirement top turn.st.done spec with
      | some blocker => exact ⟨_, rfl, .skipped spec blocker hdone hspec hdis hblock⟩
      | none =>
        dsimp only
        cases hfresh : reusable env spec with
        | true => exact ⟨_, rfl, .reused spec hdone hspec hdis hfresh⟩
        | false =>
          rw [if_neg (by simp)]
          by_cases hlock : (job.isolated && job.name = top.name && (busyLock env turn.st.has spec).isSome) = true
          · rw [if_pos hlock]
            simp only [Bool.and_eq_true, decide_eq_true_eq] at hlock
            exact ⟨_, rfl, .locked spec hdone hspec hdis hfresh hlock.1.1 hlock.1.2 hlock.2⟩
          · rw [if_neg hlock]
            have hfree : job.isolated = true → job.name = top.name → busyLock env turn.st.has spec = none := by
              intro hiso hname
              simpa [hiso, hname] using hlock
            have hstarts : Starts env top job turn.st spec := ⟨hdis, hblock, hfresh, hfree⟩
            obtain ⟨⟨st, raised⟩, hran, hnested⟩ := hrun spec hspec hdone hstarts
            rw [hran]
            cases raised with
            | false => exact ⟨_, rfl, .completed spec st hdone hspec hstarts hnested⟩
            | true => exact ⟨_, rfl, .raised spec st hdone hspec hstarts hnested⟩

/-- The cases of `closeJob`. -/
inductive Closed (env : Env) (dataset : Option String) (job : JobSpec) (turn : Turn) : Ran → Prop
  | raised : (turn.depFailures ≠ [] ∨ everyModuleFailed env job turn = true) →
      Closed env dataset job turn ⟨turn.st.close job.name .failed, true⟩
  | taskFailed (order : List String) : turn.depFailures = [] → everyModuleFailed env job turn = false →
      taskOrder env.registry job = .ok order → (runTasks env dataset job.name order).2 = false →
      Closed env dataset job turn
        ⟨(turn.st.log (runTasks env dataset job.name order).1).close job.name .failed, true⟩
  | completed (order : List String) : turn.depFailures = [] → everyModuleFailed env job turn = false →
      taskOrder env.registry job = .ok order → (runTasks env dataset job.name order).2 = true →
      Closed env dataset job turn
        ⟨(turn.st.log (runTasks env dataset job.name order).1).close job.name
          (if turn.optionalFailures ≠ [] then .partly else .success), false⟩

theorem closeJob_cases {env : Env} (hreg : Valid env.registry) (dataset : Option String) {job : JobSpec}
    (hjob : job ∈ env.registry.jobs) (turn : Turn) :
    ∃ ran, closeJob env dataset job turn = .ok ran ∧ Closed env dataset job turn ran := by
  unfold closeJob
  by_cases hfail : turn.depFailures ≠ [] ∨ everyModuleFailed env job turn = true
  · rw [if_pos (by simpa using hfail)]
    exact ⟨_, rfl, .raised hfail⟩
  · rw [if_neg (by simpa using hfail)]
    rw [not_or, not_not, Bool.not_eq_true] at hfail
    obtain ⟨order, horder⟩ := hreg.ordered job hjob
    rw [horder]
    dsimp only
    cases htasks : (runTasks env dataset job.name order).2 with
    | false => exact ⟨_, rfl, .taskFailed order hfail.1 hfail.2 horder htasks⟩
    | true => exact ⟨_, rfl, .completed order hfail.1 hfail.2 horder htasks⟩

/-- What is to be shown of the loop over the dependencies for a property of every run:
`Loop job st pre turn` holds after the turns of `pre`, in a run of the job from `st`. -/
structure RunRule (env : Env) (top : JobSpec) where
  Pre : JobSpec → RunState → Prop
  Loop : JobSpec → RunState → List String → Turn → Prop
  Post : Option String → JobSpec → RunState → Ran → Prop
  start : ∀ {job st}, job ∈ env.registry.jobs → Pre job st → Loop job st [] ⟨st, [], []⟩
  enter : ∀ {job st pre turn dep spec}, Loop job st pre turn → dep ∈ dependencies env job →
    turn.st.done dep = none → env.registry.getJob dep = some spec → Starts env top job turn.st spec →
    Pre spec turn.st
  turn : ∀ {job st pre turn turn' dep}, Loop job st pre turn → dep ∈ dependencies env job →
    Turned env top job (Post none) turn dep turn' → Loop job st (pre ++ [dep]) turn'
  close : ∀ {dataset job st turn ran}, Loop job st (dependencies env job) turn →
    Closed env dataset job turn ran → Post dataset job st ran

/-- **Every run ends, and keeps the rule.** -/
theorem RunRule.runs {env : Env} {top : JobSpec} (rule : RunRule env top) (hreg : Valid env.registry) (fuel : Nat) :
    ∀ (dataset : Option String) {job : JobSpec} {st : RunState}, job ∈ env.registry.jobs →
      rank env.registry job.name < fuel → rule.Pre job st →
      ∃ ran, runJob env top fuel dataset job st = .ok ran ∧ rule.Post dataset job st ran := by
  induction fuel with
  | zero => intro dataset job st _ hrank; omega
  | succ fuel ih =>
    intro dataset job st hjob hrank hpre
    have hname : job.name ∈ env.registry.names := List.mem_map_of_mem hjob
    have hget : env.registry.getJob job.name = some job := Registry.getJob_eq_some.mpr ⟨hjob, rfl⟩
    have hdeps : ∀ dep ∈ dependencies env job, dep ∈ env.registry.jobDeps job.name := by
      rw [Registry.jobDeps_of_getJob hget]
      exact dependencies_subset env job
    have hturn : ∀ pre dep turn, dep ∈ dependencies env job → rule.Loop job st pre turn →
        ∃ turn', depTurn env top job (runJob env top fuel none) turn dep = .ok turn' ∧
          rule.Loop job st (pre ++ [dep]) turn' := by
      intro pre dep turn hdep hloop
      have hknown := hreg.known _ hname dep (hdeps dep hdep)
      obtain ⟨turn', hturn', hcase⟩ := depTurn_cases top job (runJob env top fuel none) (rule.Post none) turn hknown fun spec hspec hnone hstarts => by
          obtain ⟨hmem, heq⟩ := Registry.getJob_eq_some.mp hspec
          refine ih none hmem ?_ (rule.enter hloop hdep hnone hspec hstarts)
          have := hreg.rank_lt _ hname dep (hdeps dep hdep)
          rw [heq]
          omega
      exact ⟨turn', hturn', rule.turn hloop hdep hcase⟩
    rw [runJob]
    rcases Loops.foldlM_cases (f := depTurn env top job (runJob env top fuel none)) (dependencies env job)
        (rule.Loop job st) (rule.start hjob hpre) (fun pre dep turn turn' hfirst hloop hok => by
          obtain ⟨turn'', hok', hloop'⟩ := hturn pre dep turn (hfirst.subset (by simp)) hloop
          rw [hok] at hok'
          cases hok'
          exact hloop') with ⟨turn, hfold, hloop⟩ | ⟨pre, dep, turn, e, hfirst, hloop, herr, -⟩
    · rw [hfold]
      obtain ⟨ran, hran, hclosed⟩ := closeJob_cases hreg dataset hjob turn
      exact ⟨ran, hran, rule.close hloop hclosed⟩
    · obtain ⟨turn', hok, -⟩ := hturn pre dep turn (hfirst.subset (by simp)) hloop
      rw [herr] at hok
      cases hok

theorem run_ok {env : Env} {name : String} {top : JobSpec} (htop : env.registry.getJob name = some top)
    {dataset : Option String} {report : Report} (h : run env name dataset = .ok report) :
    Valid env.registry ∧ ∃ ran, runJob env top (env.registry.jobs.length + 1) dataset top .start = .ok ran ∧
      report = ⟨ran.st.trace, (ran.st.done top.name).getD .failed⟩ := by
  unfold run at h
  rw [htop] at h
  cases hvalid : validate env.registry with
  | error e => rw [hvalid] at h; cases h
  | ok _ =>
    refine ⟨validate_ok hvalid, ?_⟩
    rw [hvalid] at h
    dsimp only at h
    split at h
    · cases h
    · split at h
      · cases h
      · split_ifs at h
        split at h
        · cases h
        · rename_i ran hran
          exact ⟨ran, hran, (Except.ok.inj h).symm⟩

/-- Beside the validation only `runJob` could raise a registry error. -/
theorem run_registry_error {env : Env} {name : String} {top : JobSpec} (htop : env.registry.getJob name = some top)
    {dataset : Option String} {e : RegistryError} (h : run env name dataset = .error (.registry e)) :
    validate env.registry = .error e ∨ Valid env.registry ∧
      runJob env top (env.registry.jobs.length + 1) dataset top .start = .error e := by
  unfold run at h
  rw [htop] at h
  cases hvalid : validate env.registry with
  | error e' =>
    rw [hvalid] at h
    cases h
    exact .inl rfl
  | ok _ =>
    refine .inr ⟨validate_ok hvalid, ?_⟩
    rw [hvalid] at h
    dsimp only at h
    split at h
    · rename_i refusal hfilter
      cases h
      unfold checkDatasetFilter at hfilter
      split at hfilter
      · cases hfilter
      · split_ifs at hfilter <;> cases hfilter
    · split at h
      · cases h
      · split_ifs at h
        · cases h
        · split at h
          · rename_i e' he
            cases h
            exact he
          · cases h

/-! ## What the memo and the trace agree on -/

/-- Between the runs of two jobs: the memo says how each job ended, and the trace is
about those jobs. -/
structure Recorded (st : RunState) : Prop where
  memo : ∀ name s, st.done name = some s ↔ .ended name s ∈ st.trace
  about : ∀ e ∈ st.trace, (st.done e.job).isSome = true

theorem Recorded.start : Recorded .start where
  memo name s := by simp [RunState.start]
  about e he := by simp [RunState.start] at he

theorem RunState.close_self (st : RunState) (name : String) (s : Status) : (st.close name s).done name = some s :=
  Function.update_self ..

theorem RunState.close_of_ne (st : RunState) {name other : String} (s : Status) (h : other ≠ name) :
    (st.close name s).done other = st.done other :=
  Function.update_of_ne h ..

theorem RunState.log_nil (st : RunState) : st.log [] = st := by
  rw [RunState.log, List.append_nil]

/-- A job that has not ended does what it does, and ends. -/
theorem Recorded.close {st : RunState} (h : Recorded st) {name : String} (hnone : st.done name = none)
    {events : List Event} (hevents : ∀ e ∈ events, e.job = name ∧ ∀ n s, e ≠ .ended n s) (s : Status) :
    Recorded ((st.log events).close name s) where
  memo other s' := by
    have hnew : .ended other s' ∈ events → False := fun hmem => (hevents _ hmem).2 other s' rfl
    change Function.update st.done name (some s) other = some s' ↔
      .ended other s' ∈ st.trace ++ events ++ [.ended name s]
    simp only [List.mem_append, List.mem_singleton, Event.ended.injEq]
    by_cases hother : other = name
    · subst hother
      rw [Function.update_self]
      have hold : .ended other s' ∉ st.trace := fun hmem => by
        rw [(h.memo other s').mpr hmem] at hnone
        cases hnone
      simp only [Option.some.injEq, true_and, hold, false_or]
      exact ⟨fun heq => .inr heq.symm, fun hor => (hor.resolve_left hnew).symm⟩
    · rw [Function.update_of_ne hother, h.memo other s']
      exact ⟨fun hmem => .inl (.inl hmem), fun hor => (hor.resolve_right fun h => hother h.1).resolve_right hnew⟩
  about e he := by
    have hself : (((st.log events).close name s).done name).isSome = true := by rw [RunState.close_self]; rfl
    have he : e ∈ st.trace ++ events ++ [.ended name s] := he
    rcases List.mem_append.mp he with he | he
    · rcases List.mem_append.mp he with he | he
      · by_cases hjob : e.job = name
        · rw [hjob]
          exact hself
        · rw [RunState.close_of_ne _ _ hjob]
          exact h.about e he
      · rw [(hevents e he).1]
        exact hself
    · cases List.mem_singleton.mp he
      exact hself

/-- A job that has not ended has left no event. -/
theorem Recorded.not_mem {st : RunState} (h : Recorded st) {e : Event} (hnone : st.done e.job = none) :
    e ∉ st.trace := by
  intro hmem
  have := h.about e hmem
  rw [hnone] at this
  cases this

/-- What a job's run leaves in the memo: the jobs that had ended, the job itself, and
jobs of a lower rank. -/
structure Grows (env : Env) (bound : Nat) (st st' : RunState) : Prop where
  keeps : ∀ name s, st.done name = some s → st'.done name = some s
  below : ∀ name, st.done name = none → st'.done name ≠ none → rank env.registry name < bound

theorem Grows.refl (env : Env) (bound : Nat) (st : RunState) : Grows env bound st st :=
  ⟨fun _ _ => id, fun _ h h' => absurd h h'⟩

theorem Grows.mono {env : Env} {bound bound' : Nat} {st st' : RunState} (h : Grows env bound st st')
    (hle : bound ≤ bound') : Grows env bound' st st' :=
  ⟨h.keeps, fun name hnone hsome => lt_of_lt_of_le (h.below name hnone hsome) hle⟩

theorem Grows.trans {env : Env} {bound : Nat} {st st' st'' : RunState} (h : Grows env bound st st')
    (h' : Grows env bound st' st'') : Grows env bound st st'' where
  keeps name s hs := h'.keeps name s (h.keeps name s hs)
  below name hnone hsome := by
    cases hmid : st'.done name with
    | none => exact h'.below name hmid hsome
    | some s => exact h.below name hnone (by simp [hmid])

theorem Grows.close (env : Env) {st : RunState} {name : String} (hnone : st.done name = none)
    (events : List Event) (s : Status) :
    Grows env (rank env.registry name + 1) st ((st.log events).close name s) where
  keeps other s' hs := by
    have hother : other ≠ name := by
      rintro rfl
      rw [hnone] at hs
      cases hs
    rw [RunState.close_of_ne _ _ hother]
    exact hs
  below other hnone' hsome := by
    by_cases hother : other = name
    · subst hother
      omega
    · rw [RunState.close_of_ne _ _ hother] at hsome
      exact absurd hnone' hsome

end SalesDashboard.EtlPlatform
