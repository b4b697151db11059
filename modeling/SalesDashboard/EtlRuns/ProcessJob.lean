import SalesDashboard.EtlRuns.Queue

/-! One attempt of `processEtlJob` (`runPipelineJob.ts`) with the row it writes
(`etlRunTracker.ts`): the awaited calls in their order, each of which may reject. The
lines and progress that the pipeline reports meanwhile are left out, and so is the map
of the running jobs. -/

namespace SalesDashboard.EtlRuns.ProcessJob

/-! ## The row and the calls -/

/-- A row of `etl_job_runs`, with the columns an attempt writes. -/
structure Row where
  status : Status
  queuedAt : Nat
  startedAt : Option Nat
  finishedAt : Option Nat
  durationSeconds : Option Int
  exitCode : Option Int
  errorMessage : Option String
  odooExtractCount : Option Nat
  dbLoadedCount : Option Nat
  qaIssuesCount : Option Nat
  pipelineRunLogId : Option Nat

/-- How the statement of a write settles. One that rejects may have reached the row. -/
inductive Write
  | succeeds
  | rejects (applied : Bool) (message : String)

def Write.ok : Write → Bool
  | .succeeds => true
  | .rejects _ _ => false

/-- `PipelineRunResult`. -/
structure Result where
  exitCode : Int
  cancelled : Bool
  durationMs : Nat
  stdoutTail : String
  stderrTail : String

/-- The platform's own log row of a run. -/
structure Correlated where
  pipelineRunLogId : Nat
  odooExtractCount : Option Nat
  dbLoadedCount : Option Nat
  qaIssuesCount : Option Nat
  errorMessage : Option String

inductive OutputMode
  | sql | excel | both
  deriving DecidableEq, Repr

/-- The job, as far as an attempt reads it. -/
structure Job where
  outputMode : OutputMode
  label : String
  attemptsMade : Nat
  attempts : Option Nat

/-- How the awaited calls of an attempt settle: `records k` is for the `k`-th call that
records a status. -/
structure Env where
  startedAt : Nat
  finishedAt : Nat
  markRunStarted : Write
  updateProgress : Except String Unit
  getMaxEtlRunId : Except String Nat
  runPipeline : Except String Result
  correlateLatestEtlRun : Nat → Except String (Option Correlated)
  records : Nat → Write

/-! ## Statements -/

/-- What an attempt has: the row, the flag of the source, what the pipeline returned, and
how the calls that record a status settled. -/
structure Attempt where
  row : Row
  recordedTerminalStatus : Bool
  result : Option Result
  recorded : List Bool

abbrev Await := EStateM String Attempt

def await {α : Type} : Except String α → Await α
  | .ok x => pure x
  | .error message => throw message

def write (w : Write) (f : Row → Row) : Await Unit :=
  match w with
  | .succeeds => modify fun a => { a with row := f a.row }
  | .rejects applied message => do
    modify fun a => { a with row := if applied then f a.row else a.row }
    throw message

/-- A write that records a status. -/
def record (env : Env) (f : Row → Row) : Await Unit := do
  let w := env.records (← get).recorded.length
  modify fun a => { a with recorded := a.recorded ++ [w.ok] }
  write w f

def markRunStarted (env : Env) : Await Unit :=
  write env.markRunStarted fun row => { row with status := .running, startedAt := some env.startedAt }

def markRunRetrying (env : Env) (errorMessage : String) : Await Unit :=
  record env fun row =>
    { row with
      status := .queued, startedAt := none
      errorMessage := some (String.ofList (("Attempt failed, retrying: " ++ errorMessage).toList.take 60000)) }

structure FinishRunInput where
  status : Status
  exitCode : Option Int
  errorMessage : Option String := none
  odooExtractCount : Option Nat := none
  dbLoadedCount : Option Nat := none
  qaIssuesCount : Option Nat := none
  pipelineRunLogId : Option Nat := none

def finishRun (env : Env) (input : FinishRunInput) : Await Unit :=
  record env fun row =>
    { row with
      status := input.status, finishedAt := some env.finishedAt
      durationSeconds := some ((env.finishedAt : Int) - (row.startedAt.getD row.queuedAt : Nat))
      exitCode := input.exitCode, errorMessage := input.errorMessage
      odooExtractCount := input.odooExtractCount, dbLoadedCount := input.dbLoadedCount
      qaIssuesCount := input.qaIssuesCount, pipelineRunLogId := input.pipelineRunLogId }

/-! ## processEtlJob -/

def ETL_EXIT_PARTIAL : Int := 3

def ETL_EXIT_LOCKED : Int := 4

/-- `a || b` of texts. -/
def orText (a : Option String) (b : String) : String :=
  match a with
  | some text => if text = "" then b else text
  | none => b

/-- The counts that a finished run takes over. -/
def finished (status : Status) (exitCode : Int) (errorMessage : Option String)
    (correlated : Option Correlated) : FinishRunInput :=
  { status, exitCode := some exitCode, errorMessage
    pipelineRunLogId := correlated.map (·.pipelineRunLogId)
    odooExtractCount := correlated.bind (·.odooExtractCount)
    dbLoadedCount := correlated.bind (·.dbLoadedCount)
    qaIssuesCount := correlated.bind (·.qaIssuesCount) }

def willRetry (job : Job) : Bool := decide (job.attemptsMade + 1 < job.attempts.getD 1)

def setRecorded : Await Unit := modify fun a => { a with recordedTerminalStatus := true }

/-- The counts are asked for unless the run is for Excel only. -/
def correlate (job : Job) (env : Env) (baseline : Nat) : Await (Option Correlated) :=
  if job.outputMode ≠ .excel then await (env.correlateLatestEtlRun baseline) else pure none

/-- The branches of the exit codes. -/
def recordResult (job : Job) (env : Env) (result : Result) (correlated : Option Correlated) :
    Await Unit := do
  if result.cancelled then
    setRecorded
    finishRun env (finished .cancelled result.exitCode none correlated)
  else if result.exitCode = ETL_EXIT_PARTIAL then
    setRecorded
    let errorMessage := orText (correlated.bind (·.errorMessage))
      (orText (some result.stderrTail) "A step of the run failed (see the run steps).")
    finishRun env (finished .partial_ result.exitCode (some errorMessage) correlated)
  else if result.exitCode = ETL_EXIT_LOCKED then
    setRecorded
    finishRun env
      { status := .skipped, exitCode := some result.exitCode
        errorMessage := some
          "Skipped: another ETL run was already running (it holds the ETL lock). Nothing was written." }
  else if result.exitCode ≠ 0 then
    setRecorded
    let errorMessage := orText (some result.stderrTail) (orText (some result.stdoutTail)
      (orText (correlated.bind (·.errorMessage)) "Pipeline exited non-zero with no captured output."))
    if willRetry job then markRunRetrying env errorMessage
    else finishRun env (finished .failed result.exitCode (some errorMessage) correlated)
    throw ("ETL run \"" ++ job.label ++ "\" exited with code " ++ toString result.exitCode ++ " after " ++
      toString result.durationMs ++ "ms. error: " ++ errorMessage)
  else
    setRecorded
    finishRun env (finished .success result.exitCode none correlated)

/-- The `try` block. -/
def runAttempt (job : Job) (env : Env) (baseline : Nat) : Await Unit := do
  let result ← await env.runPipeline
  modify fun a => { a with result := some result }
  let correlated ← correlate job env baseline
  recordResult job env result correlated

/-- The `catch` block. -/
def failAttempt (job : Job) (env : Env) (errorMessage : String) : Await Unit := do
  if (← get).recordedTerminalStatus = false then
    if willRetry job then markRunRetrying env errorMessage
    else finishRun env { status := .failed, exitCode := none, errorMessage := some errorMessage }
  throw errorMessage

def processEtlJob (job : Job) (env : Env) : Await Unit := do
  markRunStarted env
  await env.updateProgress
  let baseline ← await env.getMaxEtlRunId
  modify fun a => { a with recordedTerminalStatus := false }
  tryCatch (runAttempt job env baseline) (failAttempt job env)

/-- Whether an attempt throws, and what it has then. -/
structure Settled where
  throws : Bool
  attempt : Attempt

/-- Run to the end. -/
def settle (x : Await Unit) (a : Attempt) : Settled :=
  match x.run a with
  | .ok _ a => ⟨false, a⟩
  | .error _ a => ⟨true, a⟩

/-- An attempt from a row. -/
def attemptFrom (job : Job) (env : Env) (row : Row) : Settled :=
  settle (processEtlJob job env) ⟨row, false, none, []⟩

/-! ## What an attempt does -/

/-- A result that is no reason to run the job again. -/
def Result.final (r : Result) : Bool :=
  r.cancelled || decide (r.exitCode = ETL_EXIT_PARTIAL) || decide (r.exitCode = ETL_EXIT_LOCKED) ||
    decide (r.exitCode = 0)

theorem run_tryCatch_ok {α : Type} {x : Await α} {handle : String → Await α} {a a' : Attempt} {y : α}
    (h : x.run a = .ok y a') : (tryCatch x handle).run a = .ok y a' := by
  show EStateM.tryCatch x handle a = _
  have hx : x a = .ok y a' := h
  simp only [EStateM.tryCatch, hx]

theorem run_tryCatch_error {α : Type} {x : Await α} {handle : String → Await α} {a a' : Attempt}
    {message : String} (h : x.run a = .error message a') :
    (tryCatch x handle).run a = (handle message).run a' := by
  show EStateM.tryCatch x handle a = _
  have hx : x a = .error message a' := h
  simp only [EStateM.tryCatch, hx]
  rfl

/-- A call that records a status reaches the row when it succeeds. -/
theorem record_cases (env : Env) (f : Row → Row) (a : Attempt) :
    ((env.records a.recorded.length).ok = true ∧ (record env f).run a =
      .ok () { a with row := f a.row, recorded := a.recorded ++ [true] }) ∨
    ((env.records a.recorded.length).ok = false ∧ ∃ message row, (record env f).run a =
      .error message { a with row := row, recorded := a.recorded ++ [false] }) := by
  cases hw : env.records a.recorded.length with
  | succeeds =>
    refine .inl ⟨rfl, ?_⟩
    simp [record, write, hw, Write.ok]
  | rejects applied message =>
    refine .inr ⟨rfl, message, if applied then f a.row else a.row, ?_⟩
    simp [record, write, hw, Write.ok]

/-- How the `try` block ends. -/
inductive Tried (job : Job) (env : Env) (baseline : Nat) (a : Attempt) :
    EStateM.Result String Attempt Unit → Prop
  | pipeline {message : String} (h : env.runPipeline = .error message) :
      Tried job env baseline a (.error message a)
  | correlate {r : Result} {message : String} (h : env.runPipeline = .ok r)
      (hmode : job.outputMode ≠ .excel) (hc : env.correlateLatestEtlRun baseline = .error message) :
      Tried job env baseline a (.error message { a with result := some r })
  | returned {r : Result} {row : Row} (h : env.runPipeline = .ok r) (hfinal : r.final = true)
      (hc : job.outputMode ≠ .excel → (env.correlateLatestEtlRun baseline).isOk = true)
      (hw : (env.records a.recorded.length).ok = true) (hrow : row.status.active = false) :
      Tried job env baseline a (.ok () ⟨row, true, some r, a.recorded ++ [true]⟩)
  | failed {r : Result} {row : Row} {message : String} (h : env.runPipeline = .ok r)
      (hfinal : r.final = false) (hw : (env.records a.recorded.length).ok = true)
      (hrow : row.status = if willRetry job then .queued else .failed) :
      Tried job env baseline a (.error message ⟨row, true, some r, a.recorded ++ [true]⟩)
  | unrecorded {r : Result} {row : Row} {message : String} (h : env.runPipeline = .ok r)
      (hw : (env.records a.recorded.length).ok = false) :
      Tried job env baseline a (.error message ⟨row, true, some r, a.recorded ++ [false]⟩)

section
variable {job : Job} {env : Env} {baseline : Nat} {a : Attempt} {r : Result}

/-- A branch that records a terminal status and returns. -/
theorem tried_finish (h : env.runPipeline = .ok r) (hfinal : r.final = true)
    (hc : job.outputMode ≠ .excel → (env.correlateLatestEtlRun baseline).isOk = true)
    {input : FinishRunInput} (hinput : input.status.active = false) :
    Tried job env baseline a
      ((finishRun env input).run { a with result := some r, recordedTerminalStatus := true }) := by
  unfold finishRun
  rcases record_cases env _ { a with result := some r, recordedTerminalStatus := true } with
    ⟨hw, hrun⟩ | ⟨hw, message, row, hrun⟩
  · rw [hrun]
    exact .returned h hfinal hc hw hinput
  · rw [hrun]
    exact .unrecorded h hw

/-- The branch of a failed run records what the retry asks for, and throws. -/
theorem tried_fail (h : env.runPipeline = .ok r) (hfinal : r.final = false) {f : Row → Row}
    (hf : ∀ row, (f row).status = if willRetry job then .queued else .failed) (message : String) :
    Tried job env baseline a (((do record env f; throw message) : Await Unit).run
      { a with result := some r, recordedTerminalStatus := true }) := by
  rcases record_cases env f { a with result := some r, recordedTerminalStatus := true } with
    ⟨hw, hrun⟩ | ⟨hw, message', row, hrun⟩
  · rw [EStateM.run_bind, hrun]
    exact .failed h hfinal hw (hf _)
  · rw [EStateM.run_bind, hrun]
    exact .unrecorded h hw

theorem recordResult_tried (h : env.runPipeline = .ok r) {correlated : Option Correlated}
    (hc : job.outputMode ≠ .excel → (env.correlateLatestEtlRun baseline).isOk = true) :
    Tried job env baseline a ((recordResult job env r correlated).run { a with result := some r }) := by
  unfold recordResult setRecorded
  by_cases hcancelled : r.cancelled = true
  · rw [if_pos hcancelled]
    exact tried_finish h (by simp [Result.final, hcancelled]) hc rfl
  rw [if_neg hcancelled]
  by_cases hpartial : r.exitCode = ETL_EXIT_PARTIAL
  · rw [if_pos hpartial]
    exact tried_finish h (by simp [Result.final, hpartial]) hc rfl
  rw [if_neg hpartial]
  by_cases hlocked : r.exitCode = ETL_EXIT_LOCKED
  · rw [if_pos hlocked]
    exact tried_finish h (by simp [Result.final, hlocked]) hc rfl
  rw [if_neg hlocked]
  by_cases hzero : r.exitCode = 0
  · rw [if_neg (not_not.mpr hzero)]
    exact tried_finish h (by simp [Result.final, hzero]) hc rfl
  · rw [if_pos hzero]
    have hfinal : r.final = false := by
      simp [Result.final, hcancelled, hpartial, hlocked, hzero]
    by_cases hretry : willRetry job = true
    · simp only [hretry, if_true]
      exact tried_fail h hfinal (fun _ => (if_pos hretry).symm) _
    · simp only [hretry]
      exact tried_fail h hfinal (fun _ => (if_neg hretry).symm) _

theorem correlate_cases (job : Job) (env : Env) (baseline : Nat) (a : Attempt) :
    (∃ message, job.outputMode ≠ .excel ∧ env.correlateLatestEtlRun baseline = .error message ∧
      (correlate job env baseline).run a = .error message a) ∨
    ∃ correlated, (job.outputMode ≠ .excel → (env.correlateLatestEtlRun baseline).isOk = true) ∧
      (correlate job env baseline).run a = .ok correlated a := by
  unfold correlate
  by_cases hmode : job.outputMode ≠ .excel
  · rw [if_pos hmode]
    cases hc : env.correlateLatestEtlRun baseline with
    | error message => exact .inl ⟨message, hmode, rfl, rfl⟩
    | ok correlated => exact .inr ⟨correlated, fun _ => rfl, rfl⟩
  · exact .inr ⟨none, fun h => absurd h hmode, by rw [if_neg hmode]; rfl⟩

theorem runAttempt_tried (job : Job) (env : Env) (baseline : Nat) (a : Attempt) :
    Tried job env baseline a ((runAttempt job env baseline).run a) := by
  unfold runAttempt
  rw [EStateM.run_bind]
  cases hp : env.runPipeline with
  | error message => exact .pipeline hp
  | ok r =>
    show Tried job env baseline a ((correlate job env baseline >>= fun correlated =>
      recordResult job env r correlated).run { a with result := some r })
    rw [EStateM.run_bind]
    rcases correlate_cases job env baseline { a with result := some r } with
      ⟨message, hmode, hc, hrun⟩ | ⟨correlated, hc, hrun⟩
    · rw [hrun]
      exact .correlate hp hmode hc
    · rw [hrun]
      exact recordResult_tried hp hc

end

/-- The pipeline's result, when the counts are there too. -/
def Correlates (job : Job) (env : Env) (baseline : Nat) : Prop :=
  job.outputMode ≠ .excel → (env.correlateLatestEtlRun baseline).isOk = true

/-- How the attempt ends once the pipeline was asked for. -/
inductive Settles (job : Job) (env : Env) (baseline : Nat) : Settled → Prop
  | returned {r : Result} {row : Row} (h : env.runPipeline = .ok r) (hc : Correlates job env baseline)
      (hw : (env.records 0).ok = true) (hrow : row.status.active = false) :
      Settles job env baseline ⟨false, ⟨row, true, some r, [true]⟩⟩
  | recorded {row : Row} {flag : Bool} {result : Option Result}
      (h : ∀ r, result = some r ↔ env.runPipeline = .ok r)
      (hc : ∀ r, result = some r → r.final = true → ¬ Correlates job env baseline)
      (hrow : row.status = if willRetry job then .queued else .failed) :
      Settles job env baseline ⟨true, ⟨row, flag, result, [true]⟩⟩
  | unrecorded {row : Row} {flag : Bool} {result : Option Result}
      (h : ∀ r, result = some r ↔ env.runPipeline = .ok r) (hw : (env.records 0).ok = false) :
      Settles job env baseline ⟨true, ⟨row, flag, result, [false]⟩⟩

theorem failAttempt_recorded {job : Job} {env : Env} {message : String} {a : Attempt}
    (h : a.recordedTerminalStatus = true) :
    settle (failAttempt job env message) a = ⟨true, a⟩ := by
  unfold settle failAttempt
  simp [h]

/-- Where nothing was recorded, the `catch` block records what the retry asks for. -/
theorem failAttempt_cases (job : Job) (env : Env) (message : String) {a : Attempt}
    (h : a.recordedTerminalStatus = false) (hnone : a.recorded = []) :
    (∃ row, row.status = (if willRetry job then Status.queued else .failed) ∧
      settle (failAttempt job env message) a = ⟨true, { a with row := row, recorded := [true] }⟩) ∨
    ((env.records 0).ok = false ∧ ∃ row,
      settle (failAttempt job env message) a = ⟨true, { a with row := row, recorded := [false] }⟩) := by
  have hgen : ∀ f : Row → Row, (∀ row, (f row).status = if willRetry job then .queued else .failed) →
      (∃ row, row.status = (if willRetry job then Status.queued else .failed) ∧
        settle (do record env f; throw message) a = ⟨true, { a with row := row, recorded := [true] }⟩) ∨
      ((env.records 0).ok = false ∧ ∃ row,
        settle (do record env f; throw message) a =
          ⟨true, { a with row := row, recorded := [false] }⟩) := by
    intro f hf
    unfold settle
    rcases record_cases env f a with ⟨hw, hrun⟩ | ⟨hw, message', row, hrun⟩
    · refine .inl ⟨f a.row, hf _, ?_⟩
      rw [EStateM.run_bind, hrun]
      simp [hnone]
    · rw [hnone] at hw
      refine .inr ⟨hw, row, ?_⟩
      rw [EStateM.run_bind, hrun]
      simp [hnone]
  by_cases hretry : willRetry job = true
  · have hrun : settle (failAttempt job env message) a =
        settle (do markRunRetrying env message; throw message) a := by
      unfold settle failAttempt
      simp [h, hretry]
    rw [hrun]
    exact hgen _ fun _ => (if_pos hretry).symm
  · have hrun : settle (failAttempt job env message) a = settle (do
        finishRun env { status := .failed, exitCode := none, errorMessage := some message }
        throw message) a := by
      unfold settle failAttempt
      simp [h, hretry]
    rw [hrun]
    exact hgen _ fun _ => (if_neg hretry).symm

theorem settles (job : Job) (env : Env) (baseline : Nat) (row : Row) :
    Settles job env baseline
      (settle (tryCatch (runAttempt job env baseline) (failAttempt job env)) ⟨row, false, none, []⟩) := by
  have hcatch : ∀ {message : String} {a : Attempt},
      (runAttempt job env baseline).run ⟨row, false, none, []⟩ = .error message a →
      settle (tryCatch (runAttempt job env baseline) (failAttempt job env)) ⟨row, false, none, []⟩ =
        settle (failAttempt job env message) a := by
    intro message a hrun
    unfold settle
    rw [run_tryCatch_error hrun]
  generalize hrun : (runAttempt job env baseline).run ⟨row, false, none, []⟩ = end_
  have htried := runAttempt_tried job env baseline ⟨row, false, none, []⟩
  rw [hrun] at htried
  cases htried with
  | @pipeline message h =>
    rw [hcatch hrun]
    have hresult : ∀ r, (none : Option Result) = some r ↔ env.runPipeline = .ok r := by simp [h]
    rcases failAttempt_cases job env message
      (a := ⟨row, false, none, []⟩) rfl rfl with ⟨row', hrow, hend⟩ | ⟨hw, row', hend⟩
    · rw [hend]
      exact .recorded hresult (by simp) hrow
    · rw [hend]
      exact .unrecorded hresult hw
  | @correlate r message h hmode hc =>
    rw [hcatch hrun]
    have hresult : ∀ r', some r = some r' ↔ env.runPipeline = .ok r' := by simp [h]
    rcases failAttempt_cases job env message
      (a := ⟨row, false, some r, []⟩) rfl rfl with ⟨row', hrow, hend⟩ | ⟨hw, row', hend⟩
    · rw [hend]
      refine .recorded hresult (fun _ _ _ hcorrelates => ?_) hrow
      have := hcorrelates hmode
      rw [hc] at this
      cases this
    · rw [hend]
      exact .unrecorded hresult hw
  | returned h hfinal hc hw hrow =>
    unfold settle
    rw [run_tryCatch_ok hrun]
    exact .returned h hc hw hrow
  | @failed r row' message h hfinal hw hrow =>
    rw [hcatch hrun, failAttempt_recorded rfl]
    refine .recorded (by simp [h]) (fun r' hr' hfinal' => ?_) hrow
    cases hr'
    rw [hfinal] at hfinal'
    cases hfinal'
  | unrecorded h hw =>
    rw [hcatch hrun, failAttempt_recorded rfl]
    exact .unrecorded (by simp [h]) hw

/-- How a whole attempt ends. -/
inductive Ended (job : Job) (env : Env) (row : Row) : Settled → Prop
  | notStarted {applied : Bool} {message : String} {row' : Row}
      (h : env.markRunStarted = .rejects applied message)
      (hrow : row'.status = if applied then .running else row.status) :
      Ended job env row ⟨true, ⟨row', false, none, []⟩⟩
  | early {row' : Row} (h : env.markRunStarted.ok = true)
      (hcalls : ¬ (env.updateProgress.isOk = true ∧ env.getMaxEtlRunId.isOk = true))
      (hrow : row'.status = .running) : Ended job env row ⟨true, ⟨row', false, none, []⟩⟩
  | tried {baseline : Nat} {s : Settled} (h : env.markRunStarted.ok = true)
      (hp : env.updateProgress.isOk = true) (hb : env.getMaxEtlRunId = .ok baseline)
      (hs : Settles job env baseline s) : Ended job env row s

theorem attempt_ended (job : Job) (env : Env) (row : Row) :
    Ended job env row (attemptFrom job env row) := by
  unfold attemptFrom processEtlJob markRunStarted
  cases hstart : env.markRunStarted with
  | rejects applied message =>
    refine .notStarted hstart ?_
    cases applied <;> rfl
  | succeeds =>
    have hok : env.markRunStarted.ok = true := by rw [hstart]; rfl
    cases hp : env.updateProgress with
    | error message => exact .early hok (by simp [hp, Except.isOk, Except.toBool]) rfl
    | ok u =>
      cases hb : env.getMaxEtlRunId with
      | error message => exact .early hok (by simp [hb, Except.isOk, Except.toBool]) rfl
      | ok baseline =>
        exact .tried hok (by rw [hp]; rfl) hb
          (settles job env baseline { row with status := .running, startedAt := some env.startedAt })

/-! ## No stuck run -/

/-- What an attempt should leave: when no status call failed, a row that is not running,
terminal on the last attempt and queued when there is a retry; and no retry of a result
that is final. -/
def NoStuckRun (job : Job) (s : Settled) : Prop :=
  (s.attempt.recorded.getLast? ≠ some false →
    s.attempt.row.status ≠ .running ∧
    (willRetry job = false → s.attempt.row.status.active = false) ∧
    (willRetry job = true → s.throws = true → s.attempt.row.status = .queued)) ∧
  ∀ r, s.attempt.result = some r → r.final = true → ¬ (s.throws = true ∧ willRetry job = true)

/-- The calls that an attempt makes outside the reach of its own error handling hold. -/
def CallsHold (job : Job) (env : Env) (row : Row) : Prop :=
  (∀ applied message, env.markRunStarted = .rejects applied message →
    applied = false ∧ if willRetry job then row.status = .queued else row.status.active = false) ∧
  (env.markRunStarted.ok = true → env.updateProgress.isOk = true ∧ ∃ baseline,
    env.getMaxEtlRunId = .ok baseline ∧
    (willRetry job = true → ∀ r, env.runPipeline = .ok r → r.final = true →
      Correlates job env baseline ∧ (env.records 0).ok = true))

theorem noStuckRun_unrecorded {job : Job} {row : Row} :
    NoStuckRun job ⟨true, ⟨row, false, none, []⟩⟩ ↔
      if willRetry job then row.status = .queued else row.status.active = false := by
  unfold NoStuckRun
  cases willRetry job <;> cases row.status <;> simp [Status.active]

theorem settles_iff {job : Job} {env : Env} {baseline : Nat} {s : Settled}
    (hs : Settles job env baseline s) :
    NoStuckRun job s ↔ (willRetry job = true → ∀ r, env.runPipeline = .ok r → r.final = true →
      Correlates job env baseline ∧ (env.records 0).ok = true) := by
  cases hs with
  | @returned r row h hc hw hrow =>
    constructor
    · intro _ _ _ _ _
      exact ⟨hc, hw⟩
    · intro _
      refine ⟨fun _ => ⟨?_, fun _ => hrow, fun _ hthrows => by cases hthrows⟩,
        fun _ _ _ hretry => by cases hretry.1⟩
      intro hrunning
      rw [hrunning] at hrow
      cases hrow
  | @recorded row flag result h hc hrow =>
    constructor
    · intro hgood hretry r hr hfinal
      exact absurd ⟨rfl, hretry⟩ (hgood.2 r ((h r).mpr hr) hfinal)
    · intro hfinal
      refine ⟨fun _ => ?_, fun r hr hf hretry => ?_⟩
      · rw [hrow]
        cases willRetry job <;> simp [Status.active]
      · exact hc r hr hf (hfinal hretry.2 r ((h r).mp hr) hf).1
  | @unrecorded row flag result h hw =>
    constructor
    · intro hgood hretry r hr hfinal
      exact absurd ⟨rfl, hretry⟩ (hgood.2 r ((h r).mpr hr) hfinal)
    · intro hfinal
      refine ⟨fun hsome => absurd rfl hsome, fun r hr hf hretry => ?_⟩
      have := (hfinal hretry.2 r ((h r).mp hr) hf).2
      rw [hw] at this
      cases this

/-- **No stuck run, exactly**: an attempt leaves what it should if and only if the calls
before its `try` hold and, while a retry is left, those after a final result too. -/
theorem noStuckRun_iff (job : Job) (env : Env) (row : Row) :
    NoStuckRun job (attemptFrom job env row) ↔ CallsHold job env row := by
  have hended := attempt_ended job env row
  generalize attemptFrom job env row = s at hended
  unfold CallsHold
  cases hended with
  | @notStarted applied message row' h hrow =>
    rw [noStuckRun_unrecorded, hrow, h]
    constructor
    · intro hstatus
      refine ⟨fun applied' message' heq => ?_, fun hok => by cases hok⟩
      cases heq
      cases applied with
      | true => cases hretry : willRetry job <;> simp [hretry, Status.active] at hstatus
      | false => exact ⟨rfl, hstatus⟩
    · rintro ⟨hhold, -⟩
      obtain ⟨rfl, hstatus⟩ := hhold applied message rfl
      exact hstatus
  | early h hcalls hrow =>
    constructor
    · intro hgood
      exact absurd hrow (hgood.1 (by simp)).1
    · rintro ⟨-, hhold⟩
      obtain ⟨hp, baseline, hb, -⟩ := hhold h
      exact absurd ⟨hp, by rw [hb]; rfl⟩ hcalls
  | @tried baseline s h hp hb hs =>
    rw [settles_iff hs]
    constructor
    · intro hfinal
      refine ⟨fun applied message heq => ?_, fun _ => ⟨hp, baseline, hb, hfinal⟩⟩
      rw [heq] at h
      cases h
    · rintro ⟨-, hhold⟩
      obtain ⟨-, baseline', hb', hfinal⟩ := hhold h
      rw [hb] at hb'
      cases hb'
      exact hfinal

/-- The 30-minute refresh: one attempt. -/
def refreshJob : Job := ⟨.sql, "scheduled-refresh", 0, some 1⟩

def queuedRow : Row := ⟨.queued, 0, none, none, none, none, none, none, none, none, none⟩

/-- The progress update rejects, every write would succeed. -/
def lostRedis : Env :=
  { startedAt := 5, finishedAt := 60, markRunStarted := .succeeds
    updateProgress := .error "Connection is closed.", getMaxEtlRunId := .ok 0
    runPipeline := .ok ⟨0, false, 0, "", ""⟩, correlateLatestEtlRun := fun _ => .ok none
    records := fun _ => .succeeds }

/-- The row is left running on the only attempt. -/
theorem refresh_stuck : ¬ NoStuckRun refreshJob (attemptFrom refreshJob lostRedis queuedRow) := by
  intro h
  exact (h.1 (by decide)).1 rfl

end SalesDashboard.EtlRuns.ProcessJob
