import SalesDashboard.Lib.Calls

/-! The in-memory job tracker of the ETL API (`job_tracker.py`): the thread of each job, the
process it starts, and the requests that start, cancel and reset jobs, assignment by
assignment. Job ids are positions; logs and times are left out. -/

namespace SalesDashboard.EtlApi
open Transition

inductive Lane
  | main | long
  deriving DecidableEq, Repr

inductive Status
  | pending | running | completed | failed | cancelled
  deriving DecidableEq, Repr

/-- `TERMINAL_STATUSES` -/
def Status.terminal : Status → Bool
  | .completed | .failed | .cancelled => true
  | .pending | .running => false

/-- How far the thread of a job is: `running` before the process is started, `spawned`
before it is stored, `stored` before the cancel check, `waiting` for the process,
`recorded` before the last status. A process that does not start leaves it `refused`,
then `broken`. -/
inductive Phase
  | created | running | spawned | stored | waiting | recorded | refused | broken | done
  deriving DecidableEq, Repr

structure Process where
  alive : Bool
  signalled : Bool
  code : Int
  deriving DecidableEq

/-- `known` is whether `job.process` is set. -/
structure Job where
  lane : Lane
  status : Status
  exitCode : Option Int
  cancelRequested : Bool
  process : Option Process
  known : Bool
  phase : Phase
  deriving DecidableEq

/-- A request that is under way, by what it does next; a reset has lanes left. -/
inductive Request
  | cancelMark (job : Nat)
  | cancelSignal (job : Nat)
  | resetLane (lanes : List Lane)
  | resetMark (job : Nat) (lanes : List Lane)
  | resetSignal (job : Nat) (lanes : List Lane)
  | resetCheck (job : Nat) (lanes : List Lane)
  | resetStatus (job : Nat) (lanes : List Lane)
  deriving DecidableEq

structure Tracker where
  jobs : List Job
  active : Lane → Option Nat
  requests : List Request

/-- A reset holds the lock, and so keeps `start` and other resets waiting. -/
def Request.holdsLock : Request → Bool
  | .cancelMark _ | .cancelSignal _ => false
  | _ => true

def LONG_LANE_JOBS : List String := ["sales_build"]

def laneFor (jobName : Option String) : Lane :=
  if jobName.any fun name => decide (name ∈ LONG_LANE_JOBS) then .long else .main

/-! ## Steps -/

/-- `_active_job_locked` of one lane. -/
def activeJob (t : Tracker) (lane : Lane) : Option Nat :=
  (t.active lane).filter fun i => t.jobs[i]?.any fun job => !job.status.terminal

/-- `process.terminate()` -/
def Job.terminate (job : Job) : Job :=
  { job with process := job.process.map fun p => if p.alive then { p with signalled := true } else p }

/-- One assignment of `_run_job`; `none` where the thread waits or has ended. -/
def threadStep (starts : Bool) (job : Job) : Option Job :=
  match job.phase with
  | .created => some { job with status := .running, phase := .running }
  | .running =>
      if starts then some { job with process := some ⟨true, false, 0⟩, phase := .spawned }
      else some { job with phase := .refused }
  | .spawned => some { job with known := true, phase := .stored }
  | .stored => some { (if job.cancelRequested then job.terminate else job) with phase := .waiting }
  | .waiting =>
      match job.process with
      | some p => if p.alive then none else some { job with exitCode := some p.code, phase := .recorded }
      | none => none
  | .recorded =>
      some { job with
        status := if job.cancelRequested then .cancelled
          else if job.exitCode = some 0 then .completed else .failed
        phase := .done }
  | .refused => some { job with exitCode := some (-1), phase := .broken }
  | .broken => some { job with status := .failed, phase := .done }
  | .done => none

def Job.exit (code : Int) (job : Job) : Option Job :=
  match job.process with
  | some p => if p.alive then some { job with process := some { p with alive := false, code := code } } else none
  | none => none

def setJob (t : Tracker) (i : Nat) (f : Job → Option Job) : Option Tracker :=
  match t.jobs[i]? with
  | none => none
  | some job => (f job).map fun job => { t with jobs := t.jobs.set i job }

inductive Action
  | start (jobName : Option String)
  | thread (job : Nat) (starts : Bool)
  | exit (job : Nat) (code : Int)
  | cancel (job : Nat)
  | reset
  | advance (request : Nat)
  deriving DecidableEq

def newJob (lane : Lane) : Job := ⟨lane, .pending, none, false, none, false, .created⟩

def start (t : Tracker) (lane : Lane) : Tracker :=
  { t with
    jobs := t.jobs ++ [newJob lane]
    active := Function.update t.active lane (some t.jobs.length) }

/-- What a request does next, and what is left of it. -/
def requestStep (t : Tracker) : Request → Option (Tracker × Option Request)
  | .cancelMark i =>
      (setJob t i fun job => some { job with cancelRequested := true }).map (·, some (.cancelSignal i))
  | .cancelSignal i =>
      (setJob t i fun job => some (if job.known then job.terminate else job)).map (·, none)
  | .resetLane [] => some (t, none)
  | .resetLane (lane :: lanes) =>
      let cleared := { t with active := Function.update t.active lane none }
      match activeJob t lane with
      | none => some (cleared, some (.resetLane lanes))
      | some i => some (cleared, some (.resetMark i lanes))
  | .resetMark i lanes =>
      (setJob t i fun job => some { job with cancelRequested := true }).map (·, some (.resetSignal i lanes))
  | .resetSignal i lanes =>
      (setJob t i fun job => some (if job.known then job.terminate else job)).map (·, some (.resetCheck i lanes))
  | .resetCheck i lanes =>
      match t.jobs[i]? with
      | none => none
      | some job =>
          some (t, some (if job.status.terminal then .resetLane lanes else .resetStatus i lanes))
  | .resetStatus i lanes =>
      (setJob t i fun job => some { job with status := .cancelled }).map (·, some (.resetLane lanes))

def step (t : Tracker) : Action → Option Tracker
  | .start jobName =>
      if t.requests.any Request.holdsLock then none
      else if activeJob t (laneFor jobName) ≠ none then none
      else some (start t (laneFor jobName))
  | .thread i starts => setJob t i (threadStep starts)
  | .exit i code => setJob t i (Job.exit code)
  | .cancel i =>
      match t.jobs[i]? with
      | none => none
      | some job =>
          if job.status.terminal then none else some { t with requests := t.requests ++ [.cancelMark i] }
  | .reset =>
      if t.requests.any Request.holdsLock then none
      else some { t with requests := t.requests ++ [.resetLane [.main, .long]] }
  | .advance k =>
      match t.requests[k]? with
      | none => none
      | some request =>
          (requestStep t request).map fun next =>
            { next.1 with requests := next.2.toList ++ t.requests.eraseIdx k }

def noJobs : Tracker := ⟨[], fun _ => none, []⟩

end SalesDashboard.EtlApi
