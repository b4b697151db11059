import Mathlib

/-! ETL runs: the rows of `etl_job_runs`, the BullMQ jobs, and every party that
writes them. Enqueuing calls (`etlQueue.ts`), workers (`runPipelineJob.ts`), the
sweeps and Force Reset (`etlReconciliation.ts`, `etlControl.ts`) take turns in any
order. A BullMQ job is known by its run, since its id is `etl-<runId>`. -/

namespace SalesDashboard.EtlRuns

/-! ## Jobs and who starts them -/

inductive PlatformJob
  | main | salesIncremental | salesFull | fullAll | coreDims | financeReceivables | processNps
  | refresh30m | salesMirror | salesBuild | salesShadowCompare
  deriving DecidableEq, Repr

def REFRESH_JOB : PlatformJob := .refresh30m

def LONG_QUEUE_JOBS : List PlatformJob := [.salesBuild]

def isLongQueueJob (job : PlatformJob) : Bool := LONG_QUEUE_JOBS.contains job

inductive LoadMode
  | full | incremental
  deriving DecidableEq, Repr

def platformJobFor (loadMode : LoadMode) (job : Option PlatformJob) : PlatformJob :=
  job.getD (if loadMode = .incremental then .main else .fullAll)

structure EnqueuePipelineRunInput where
  job : Option PlatformJob
  loadMode : LoadMode
  attempts : Option Nat := none
  queueBehindRefresh : Bool := false
  deriving DecidableEq, Repr

/-- The keys of `START_CONFIGS`. -/
inductive StartKey
  | incremental | full | finance | nps | refresh | salesBuild
  deriving DecidableEq, Repr

/-- The callers of `enqueuePipelineRun`: the schedules, the start and retry routes
and the commands. -/
inductive Caller
  | scheduledRefresh | scheduledIncremental | scheduledFull | scheduledFinance | scheduledNps
  | scheduledSalesBuild
  | start (key : StartKey)
  | command (loadMode : LoadMode)
  deriving DecidableEq, Repr

def startConfig : StartKey → EnqueuePipelineRunInput
  | .incremental => { job := some .main, loadMode := .incremental }
  | .full => { job := some .fullAll, loadMode := .full }
  | .finance => { job := some .financeReceivables, loadMode := .full }
  | .nps => { job := some .processNps, loadMode := .full }
  | .refresh => { job := some .refresh30m, loadMode := .incremental }
  | .salesBuild => { job := some .salesBuild, loadMode := .incremental }

def Caller.input : Caller → EnqueuePipelineRunInput
  | .scheduledRefresh =>
      { job := some .refresh30m, loadMode := .incremental, attempts := some 1 }
  | .scheduledIncremental =>
      { job := some .main, loadMode := .incremental, queueBehindRefresh := true }
  | .scheduledFull => { job := some .fullAll, loadMode := .full, queueBehindRefresh := true }
  | .scheduledFinance => { job := some .financeReceivables, loadMode := .full }
  | .scheduledNps => { job := some .processNps, loadMode := .full, queueBehindRefresh := true }
  | .scheduledSalesBuild =>
      { job := some .salesBuild, loadMode := .incremental, attempts := some 1 }
  | .start key => startConfig key
  | .command loadMode => { job := none, loadMode := loadMode }

/-! ## The state -/

inductive Status
  | queued | running | success | partial_ | failed | cancelled | skipped
  deriving DecidableEq, Repr

def Status.active : Status → Bool
  | .queued | .running => true
  | _ => false

/-- A row of `etl_job_runs`. -/
structure JobRun where
  id : Nat
  jobType : PlatformJob
  status : Status
  queuedAt : Nat
  hasJobId : Bool
  deriving DecidableEq, Repr

inductive CallPhase
  | inserted | named | adding | failing
  deriving DecidableEq, Repr

/-- A call of `enqueuePipelineRun` past its guard. -/
structure Call where
  runId : Nat
  attempts : Nat
  phase : CallPhase
  deriving DecidableEq, Repr

/-- `waiting` includes the delay before a retry. -/
inductive JobState
  | waiting | active | completed | failed
  deriving DecidableEq, Repr

structure BullJob where
  runId : Nat
  attempts : Nat
  attemptsMade : Nat
  state : JobState
  deriving DecidableEq, Repr

inductive AttemptPhase
  | picked | running | finished | failing (retry : Bool)
  deriving DecidableEq, Repr

/-- A run of `processEtlJob` in some worker. -/
structure Attempt where
  runId : Nat
  willRetry : Bool
  phase : AttemptPhase
  deriving DecidableEq, Repr

/-- What a sweep or Force Reset still has to do. -/
inductive SweepTask
  | check (runId : Nat)
  | finish (runId : Nat) (thenRemove : Bool)
  | remove (runId : Nat)
  deriving DecidableEq, Repr

/-- An `add` that Redis has not executed yet. -/
structure Add where
  runId : Nat
  attempts : Nat
  deriving DecidableEq, Repr

/-- `strays` are attempts that BullMQ has taken the job from: their worker is alive and
still writes the row, but what they do no longer moves the job. -/
structure State where
  clock : Nat
  nextId : Nat
  runs : List JobRun
  calls : List Call
  inFlight : List Add
  jobs : List BullJob
  attempts : List Attempt
  tasks : List SweepTask
  strays : List Attempt
  deriving DecidableEq, Repr

/-! ## Writers of the rows -/

def setStatus (runId : Nat) (status : Status) (runs : List JobRun) : List JobRun :=
  runs.map fun r => if r.id = runId then { r with status := status } else r

def setRunJobId (runId : Nat) (runs : List JobRun) : List JobRun :=
  runs.map fun r => if r.id = runId then { r with hasJobId := true } else r

def markRunStarted (runId : Nat) : List JobRun → List JobRun := setStatus runId .running

def markRunRetrying (runId : Nat) : List JobRun → List JobRun := setStatus runId .queued

def finishRun (runId : Nat) (status : Status) : List JobRun → List JobRun :=
  setStatus runId status

def activeEtlRunJobTypes (runs : List JobRun) : List PlatformJob :=
  (runs.filter (·.status.active)).map (·.jobType)

def mayEnqueue (job : PlatformJob) (queueBehindRefresh : Bool) (runs : List JobRun) : Bool :=
  let active := activeEtlRunJobTypes runs
  if isLongQueueJob job then !active.contains job
  else
    let mainQueue := active.filter fun jobType => !isLongQueueJob jobType
    if !queueBehindRefresh then mainQueue.length == 0
    else mainQueue.all (· == REFRESH_JOB)

/-! ## Steps -/

/-- How `runPipeline` ends for its caller: `failed` is a non-zero exit code or an
exception. -/
inductive Outcome
  | cancelled | partial_ | locked | failed | success
  deriving DecidableEq, Repr

inductive Action
  | tick (seconds : Nat)
  -- enqueuePipelineRun
  | enqueue (caller : Caller)
  | setJobId (runId : Nat)
  | sendAdd (runId : Nat)
  | deliver (runId : Nat)
  | lose (runId : Nat)
  | addResolved (runId : Nat)
  | giveUp (runId : Nat)
  | failRow (runId : Nat)
  | callDies (runId : Nat)
  -- processEtlJob and BullMQ
  | pickUp (runId : Nat)
  | start (runId : Nat)
  | throw (runId : Nat)
  | result (runId : Nat) (outcome : Outcome)
  | settle (runId : Nat)
  | crash (runId : Nat) (requeued : Bool)
  | stall (runId : Nat) (requeued : Bool)
  | strayStart (a : Attempt)
  | strayResult (a : Attempt) (outcome : Outcome)
  | strayEnd (a : Attempt)
  | evict (runId : Nat)
  -- the sweeps and Force Reset
  | startupSweep
  | staleSweep
  | forceReset
  | doTask (task : SweepTask)
  | dropTask (task : SweepTask)
  deriving DecidableEq, Repr

def findCall (st : State) (runId : Nat) (phase : CallPhase) : Option Call :=
  st.calls.find? fun c => c.runId = runId ∧ c.phase = phase

def setCallPhase (runId : Nat) (phase : CallPhase) (calls : List Call) : List Call :=
  calls.map fun c => if c.runId = runId then { c with phase := phase } else c

def endCall (runId : Nat) (calls : List Call) : List Call :=
  calls.filter fun c => decide (c.runId ≠ runId)

def setJobState (runId : Nat) (state : JobState) (jobs : List BullJob) : List BullJob :=
  jobs.map fun j => if j.runId = runId then { j with state := state } else j

/-- BullMQ's own decision after a thrown error. -/
def retryJob (runId : Nat) (jobs : List BullJob) : List BullJob :=
  jobs.map fun j =>
    if j.runId = runId then { j with attemptsMade := j.attemptsMade + 1, state := .waiting } else j

def findAttempt (st : State) (runId : Nat) : Option Attempt :=
  st.attempts.find? fun a => a.runId = runId

def setAttemptPhase (runId : Nat) (phase : AttemptPhase) (attempts : List Attempt) :
    List Attempt :=
  attempts.map fun a => if a.runId = runId then { a with phase := phase } else a

def endAttempt (runId : Nat) (attempts : List Attempt) : List Attempt :=
  attempts.filter fun a => decide (a.runId ≠ runId)

def STALE_QUEUED_SECONDS : Nat := 600

def staleRow (clock : Nat) (r : JobRun) : Bool :=
  decide (r.status = .queued ∧ r.queuedAt + STALE_QUEUED_SECONDS ≤ clock)

/-- The status that `processEtlJob` records for the outcome of an attempt. -/
def recorded (willRetry : Bool) : Outcome → Status
  | .cancelled => .cancelled
  | .partial_ => .partial_
  | .locked => .skipped
  | .failed => if willRetry then .queued else .failed
  | .success => .success

/-- The rows of one sweep are handled one after another; here in any order, which
only adds runs. -/
def stepTask (st : State) : SweepTask → State
  | .check runId =>
      -- a job that exists is left to BullMQ
      if st.jobs.any (·.runId = runId) then { st with tasks := st.tasks.erase (.check runId) }
      else { st with tasks := .finish runId false :: st.tasks.erase (.check runId) }
  | .finish runId thenRemove =>
      let rest := st.tasks.erase (.finish runId thenRemove)
      { st with
        runs := finishRun runId .failed st.runs
        tasks := if thenRemove then .remove runId :: rest else rest }
  | .remove runId =>
      -- a job that a worker holds is locked and stays
      { st with
        jobs := st.jobs.filter fun j => decide (¬ (j.runId = runId ∧ j.state ≠ .active))
        tasks := st.tasks.erase (.remove runId) }

def step (st : State) : Action → Option State
  | .tick seconds => some { st with clock := st.clock + seconds }
  | .enqueue caller =>
      let input := caller.input
      let job := platformJobFor input.loadMode input.job
      if mayEnqueue job input.queueBehindRefresh st.runs then
        some { st with
          nextId := st.nextId + 1
          runs := st.runs ++ [⟨st.nextId, job, .queued, st.clock, false⟩]
          calls := st.calls ++ [⟨st.nextId, input.attempts.getD 3, .inserted⟩] }
      else none
  | .setJobId runId =>
      match findCall st runId .inserted with
      | none => none
      | some _ => some { st with
          runs := setRunJobId runId st.runs
          calls := setCallPhase runId .named st.calls }
  | .sendAdd runId =>
      match findCall st runId .named with
      | none => none
      | some c => some { st with
          inFlight := st.inFlight ++ [⟨runId, c.attempts⟩]
          calls := setCallPhase runId .adding st.calls }
  | .deliver runId =>
      match st.inFlight.find? (·.runId = runId) with
      | none => none
      | some add => some { st with
          inFlight := st.inFlight.filter fun a => decide (a.runId ≠ runId)
          jobs := st.jobs ++ [⟨runId, add.attempts, 0, .waiting⟩] }
  | .lose runId =>
      some { st with inFlight := st.inFlight.filter fun a => decide (a.runId ≠ runId) }
  | .addResolved runId =>
      match findCall st runId .adding with
      | none => none
      | some _ =>
          if st.inFlight.any (·.runId = runId) then none
          else some { st with calls := endCall runId st.calls }
  -- a rejection or the 10 s timeout: the `add` may still be in flight
  | .giveUp runId =>
      match findCall st runId .adding with
      | none => none
      | some _ => some { st with calls := setCallPhase runId .failing st.calls }
  | .failRow runId =>
      match findCall st runId .failing with
      | none => none
      | some _ => some { st with
          runs := finishRun runId .failed st.runs
          calls := endCall runId st.calls }
  | .callDies runId => some { st with calls := endCall runId st.calls }
  | .pickUp runId =>
      match st.jobs.find? (fun j => j.runId = runId ∧ j.state = .waiting) with
      | none => none
      | some j => some { st with
          jobs := setJobState runId .active st.jobs
          attempts := st.attempts ++ [⟨runId, j.attemptsMade + 1 < j.attempts, .picked⟩] }
  | .start runId =>
      match findAttempt st runId with
      | some ⟨_, _, .picked⟩ => some { st with
          runs := markRunStarted runId st.runs
          attempts := setAttemptPhase runId .running st.attempts }
      | _ => none
  -- an error that no branch records: a failed statement or a lost Redis
  | .throw runId =>
      match findAttempt st runId with
      | some ⟨_, willRetry, .picked⟩ | some ⟨_, willRetry, .running⟩ => some { st with
          attempts := setAttemptPhase runId (.failing willRetry) st.attempts }
      | _ => none
  | .result runId outcome =>
      match findAttempt st runId with
      | some ⟨_, willRetry, .running⟩ => some { st with
          runs := setStatus runId (recorded willRetry outcome) st.runs
          attempts := setAttemptPhase runId
            (if outcome = .failed then .failing willRetry else .finished) st.attempts }
      | _ => none
  | .settle runId =>
      match findAttempt st runId with
      | some ⟨_, _, .finished⟩ => some { st with
          jobs := setJobState runId .completed st.jobs
          attempts := endAttempt runId st.attempts }
      | some ⟨_, _, .failing true⟩ => some { st with
          jobs := retryJob runId st.jobs
          attempts := endAttempt runId st.attempts }
      | some ⟨_, _, .failing false⟩ => some { st with
          jobs := setJobState runId .failed st.jobs
          attempts := endAttempt runId st.attempts }
      | _ => none
  -- the worker process dies; BullMQ puts a stalled job back, or gives up on it
  | .crash runId requeued =>
      match findAttempt st runId with
      | none => none
      | some _ => some { st with
          jobs := setJobState runId (if requeued then .waiting else .failed) st.jobs
          attempts := endAttempt runId st.attempts }
  -- the lock of the job was not renewed in time, and its worker lives on
  | .stall runId requeued =>
      match findAttempt st runId with
      | none => none
      | some a => some { st with
          jobs := setJobState runId (if requeued then .waiting else .failed) st.jobs
          attempts := endAttempt runId st.attempts
          strays := st.strays ++ [a] }
  | .strayStart a =>
      if a ∈ st.strays ∧ a.phase = .picked then some { st with
        runs := markRunStarted a.runId st.runs
        strays := st.strays.erase a ++ [{ a with phase := .running }] }
      else none
  | .strayResult a outcome =>
      if a ∈ st.strays ∧ a.phase = .running then some { st with
        runs := setStatus a.runId (recorded a.willRetry outcome) st.runs
        strays := st.strays.erase a }
      else none
  -- it throws, or its worker dies after all
  | .strayEnd a =>
      if a ∈ st.strays then some { st with strays := st.strays.erase a } else none
  | .evict runId => some { st with
      jobs := st.jobs.filter fun j =>
        decide (¬ (j.runId = runId ∧ (j.state = .completed ∨ j.state = .failed))) }
  | .startupSweep => some { st with
      tasks := st.tasks ++ (st.runs.filter (·.status.active)).map fun r =>
        if r.hasJobId then .check r.id else .finish r.id false }
  -- the probe for a worker also answers "none" when it times out
  | .staleSweep => some { st with
      tasks := st.tasks ++ (st.runs.filter (staleRow st.clock)).map fun r =>
        .finish r.id r.hasJobId }
  | .forceReset => some { st with
      tasks := st.tasks ++ (st.runs.filter (·.status.active)).map fun r =>
        .finish r.id r.hasJobId }
  | .doTask task => if task ∈ st.tasks then some (stepTask st task) else none
  -- the process dies or the queue does not answer
  | .dropTask task =>
      if task ∈ st.tasks then some { st with tasks := st.tasks.erase task } else none

end SalesDashboard.EtlRuns
