import SalesDashboard.EtlApi.JobTracker

/-! How the log of a job reaches the backend (`to_status_dict` of `job_tracker.py`, the loop of
`runPipeline` in `pythonRunner.ts`): the ETL API reads the lines after an index, the status,
the exit code and the number of lines one after the other, while the job goes on, and the
backend asks on from that number. Durations and the backend's own log are left out. -/

namespace SalesDashboard.EtlApi
open Transition

inductive Stream
  | stdout | stderr
  deriving DecidableEq, Repr

/-- The index of a line is its position. -/
structure LogLine where
  stream : Stream
  text : String
  deriving DecidableEq

structure JobStatus where
  status : Status
  exitCode : Option Int
  logLineCount : Nat
  lines : List LogLine
  deriving DecidableEq

/-- How far `to_status_dict` is, by what it has read. -/
inductive Reading
  | asked (after : Nat)
  | readLines (lines : List LogLine)
  | readStatus (lines : List LogLine) (status : Status)
  | readExit (lines : List LogLine) (status : Status) (exitCode : Option Int)
  | reply (data : JobStatus)
  deriving DecidableEq

structure PipelineRunResult where
  exitCode : Int
  cancelled : Bool
  stdoutTail : String
  stderrTail : String
  deriving DecidableEq

def TAIL_LINES : Nat := 40

def MAX_CONSECUTIVE_POLL_FAILURES : Nat := 10

/-- `lines.slice(-n).join('\n')` -/
def tail (lines : List String) (n : Nat) : String :=
  String.intercalate "\n" (lines.drop (lines.length - n))

/-- `stdoutLines` and `stderrLines`, from the lines received so far. -/
def textsOf (stream : Stream) (received : List LogLine) : List String :=
  (received.filter fun line => line.stream = stream).map LogLine.text

def resultOf (status : Status) (exitCode : Option Int) (received : List LogLine) : PipelineRunResult where
  exitCode := exitCode.getD (-1)
  cancelled := decide (status = .cancelled)
  stdoutTail := tail (textsOf .stdout received) TAIL_LINES
  stderrTail := tail (textsOf .stderr received) TAIL_LINES

/-- A job of the API with its log, and the loop of the backend that polls it. `received`
are the lines it was given, in order. -/
structure Polling where
  job : Job
  log : List LogLine
  poll : Option Reading
  after : Nat
  received : List LogLine
  failures : Nat
  result : Option (Except String PipelineRunResult)

inductive PollAction
  | append (line : LogLine)
  | thread (exc : Option String)
  | exit (code : Int)
  | markCancelled
  | terminate
  | settle
  | ask
  | read
  | deliver
  | lose (message : String)
  deriving DecidableEq

/-- The next read of `to_status_dict`. -/
def readStep (s : Polling) : Reading → Option Reading
  | .asked after => some (.readLines (s.log.drop after))
  | .readLines lines => some (.readStatus lines s.job.status)
  | .readStatus lines status => some (.readExit lines status s.job.exitCode)
  | .readExit lines status exitCode => some (.reply ⟨status, exitCode, s.log.length, lines⟩)
  | .reply _ => none

/-- The backend takes a reply. -/
def take (s : Polling) (data : JobStatus) : Polling :=
  { s with
    poll := none
    after := data.logLineCount
    received := s.received ++ data.lines
    failures := 0
    result :=
      if data.status.terminal then some (.ok (resultOf data.status data.exitCode (s.received ++ data.lines)))
      else none }

/-- The line of a process that does not start, for the reason given. -/
def refusal (job : Job) : Option String → List LogLine
  | some exc => if job.phase = .running then [⟨.stderr, "Failed to start pipeline subprocess: " ++ exc⟩] else []
  | none => []

/-- The pumps append while the thread waits for the process and for them. `settle` is the
status that a reset sets. -/
def pollStep (s : Polling) : PollAction → Option Polling
  | .append line => if s.job.phase = .waiting then some { s with log := s.log ++ [line] } else none
  | .thread exc =>
      (threadStep exc.isNone s.job).map fun job => { s with job := job, log := s.log ++ refusal s.job exc }
  | .exit code => (s.job.exit code).map fun job => { s with job := job }
  | .markCancelled => some { s with job := { s.job with cancelRequested := true } }
  | .terminate => some { s with job := if s.job.known then s.job.terminate else s.job }
  | .settle => some { s with job := { s.job with status := .cancelled } }
  | .ask => if s.poll = none ∧ s.result = none then some { s with poll := some (.asked s.after) } else none
  | .read => s.poll.bind fun r => (readStep s r).map fun r' => { s with poll := some r' }
  | .deliver =>
      match s.poll with
      | some (.reply data) => some (take s data)
      | _ => none
  | .lose message =>
      if s.poll = none then none
      else some { s with
        poll := none
        failures := s.failures + 1
        result := if MAX_CONSECUTIVE_POLL_FAILURES ≤ s.failures + 1 then some (.error message) else none }

/-- A job that was just created, and a loop that has not asked yet. -/
def unpolled (lane : Lane) : Polling := ⟨newJob lane, [], none, 0, [], 0, none⟩

/-! ## What a reply says of the log -/

/-- What the reads of a poll say of the log, from `after` on. -/
def Reading.Says (log : List LogLine) (after : Nat) : Reading → Prop
  | .asked after' => after' = after
  | .readLines lines | .readStatus lines _ | .readExit lines _ _ =>
      after + lines.length ≤ log.length ∧ log.take (after + lines.length) = log.take after ++ lines
  | .reply data =>
      after + data.lines.length ≤ data.logLineCount ∧ data.logLineCount ≤ log.length ∧
        log.take (after + data.lines.length) = log.take after ++ data.lines

/-- The reply that is delivered counts more lines than it brings: one was appended
between the two reads. -/
def slips (s : Polling) : PollAction → Bool
  | .deliver =>
      match s.poll with
      | some (.reply data) => decide (data.logLineCount ≠ s.after + data.lines.length)
      | _ => false
  | _ => false

/-- After `n` replies in which a line slipped through. -/
structure Received (n : Nat) (s : Polling) : Prop where
  after : s.after ≤ s.log.length
  received : s.received.Sublist (s.log.take s.after)
  all : s.received = s.log.take s.after ↔ n = 0
  poll : ∀ r ∈ s.poll, r.Says s.log s.after

section
variable {s s' : Polling} {n : Nat}

theorem Reading.Says.append {log : List LogLine} {after : Nat} {r : Reading} (h : r.Says log after)
    (hafter : after ≤ log.length) (more : List LogLine) : r.Says (log ++ more) after := by
  have htake : ∀ k, k ≤ log.length → (log ++ more).take k = log.take k := fun k hk =>
    List.take_append_of_le_length hk
  cases r with
  | asked after' => exact h
  | readLines lines | readStatus lines status | readExit lines status code =>
    obtain ⟨hle, heq⟩ := h
    refine ⟨by rw [List.length_append]; omega, ?_⟩
    rw [htake _ hle, htake _ hafter, heq]
  | reply data =>
    obtain ⟨hle, hcount, heq⟩ := h
    refine ⟨hle, by rw [List.length_append]; omega, ?_⟩
    rw [htake _ (hle.trans hcount), htake _ hafter, heq]

theorem Received.append (hi : Received n s) (job : Job) (more : List LogLine) :
    Received n { s with job := job, log := s.log ++ more } := by
  have htake : (s.log ++ more).take s.after = s.log.take s.after := List.take_append_of_le_length hi.after
  refine ⟨by rw [List.length_append]; exact le_trans hi.after (Nat.le_add_right _ _), ?_, ?_, fun r hr => ?_⟩
  · rw [htake]
    exact hi.received
  · rw [htake]
    exact hi.all
  · exact (hi.poll r hr).append hi.after more

theorem Received.read (hi : Received n s) {r r' : Reading} (hr : s.poll = some r) (h : readStep s r = some r') :
    Received n { s with poll := some r' } := by
  refine ⟨hi.after, hi.received, hi.all, fun q hq => ?_⟩
  obtain rfl : r' = q := Option.some.inj hq
  have htold := hi.poll r hr
  cases r with
  | asked after =>
    cases h
    obtain rfl : after = s.after := htold
    refine ⟨?_, ?_⟩
    · show s.after + (s.log.drop s.after).length ≤ s.log.length
      rw [List.length_drop, Nat.add_sub_cancel' hi.after]
    · rw [List.length_drop, Nat.add_sub_cancel' hi.after, List.take_length, List.take_append_drop]
  | readLines lines =>
    cases h
    exact htold
  | readStatus lines status =>
    cases h
    exact htold
  | readExit lines status code =>
    cases h
    exact ⟨htold.1, le_refl _, htold.2⟩
  | reply data => cases h

theorem Received.take (hi : Received n s) {data : JobStatus} (hr : s.poll = some (.reply data)) :
    Received (n + if slips s .deliver then 1 else 0) (take s data) := by
  obtain ⟨hle, hcount, heq⟩ := hi.poll _ hr
  have hslip : slips s .deliver = true ↔ data.logLineCount ≠ s.after + data.lines.length := by
    simp only [slips, hr, decide_eq_true_eq]
  have hsub : (s.received ++ data.lines).Sublist (s.log.take data.logLineCount) := by
    have happend : (s.received ++ data.lines).Sublist (s.log.take s.after ++ data.lines) :=
      (List.append_sublist_append_right _).mpr hi.received
    refine happend.trans ?_
    rw [← heq]
    exact (List.take_prefix_take_left (by omega)).sublist
  refine ⟨hcount, hsub, ?_, fun r hr' => by cases hr'⟩
  by_cases htight : data.logLineCount = s.after + data.lines.length
  · rw [if_neg fun h => hslip.mp h htight, Nat.add_zero]
    show s.received ++ data.lines = s.log.take data.logLineCount ↔ n = 0
    rw [htight, heq, List.append_left_inj]
    exact hi.all
  · rw [if_pos (hslip.mpr htight)]
    refine iff_of_false (fun hall => ?_) (by omega)
    have hlen := congrArg List.length hall
    have hshort := hi.received.length_le
    rw [List.length_take] at hshort
    change (s.received ++ data.lines).length = (s.log.take data.logLineCount).length at hlen
    rw [List.length_append, List.length_take] at hlen
    omega

theorem Received.step {a : PollAction} (hi : Received n s) (h : pollStep s a = some s') :
    Received (n + if slips s a then 1 else 0) s' := by
  cases a with
  | append line =>
    simp only [pollStep] at h
    split at h
    · cases h
      exact hi.append s.job [line]
    · cases h
  | thread exc =>
    obtain ⟨job, -, rfl⟩ := Option.map_eq_some_iff.mp h
    exact hi.append job (refusal s.job exc)
  | exit code =>
    obtain ⟨job, -, rfl⟩ := Option.map_eq_some_iff.mp h
    exact ⟨hi.after, hi.received, hi.all, hi.poll⟩
  | markCancelled | terminate | settle =>
    cases h
    exact ⟨hi.after, hi.received, hi.all, hi.poll⟩
  | ask =>
    simp only [pollStep] at h
    split at h
    · cases h
      refine ⟨hi.after, hi.received, hi.all, fun r hr => ?_⟩
      cases hr
      rfl
    · cases h
  | read =>
    obtain ⟨r, hr, hmap⟩ := Option.bind_eq_some_iff.mp h
    obtain ⟨r', hr', rfl⟩ := Option.map_eq_some_iff.mp hmap
    exact hi.read hr hr'
  | deliver =>
    simp only [pollStep] at h
    split at h
    · next data hr =>
      cases h
      exact hi.take hr
    · cases h
  | lose message =>
    simp only [pollStep] at h
    split at h
    · cases h
    · cases h
      exact ⟨hi.after, hi.received, hi.all, fun r hr => by cases hr⟩

end

theorem unpolled_received (lane : Lane) : Received 0 (unpolled lane) :=
  ⟨le_refl _, List.Sublist.refl _, iff_of_true rfl rfl, fun r hr => by cases hr⟩

/-! ## A job that has ended -/

/-- The thread of the job has ended, with the status, exit code and number of lines given. -/
structure Ended (s : Polling) (status : Status) (exitCode : Option Int) (lines : Nat) : Prop where
  phase : s.job.phase = .done
  status : status = s.job.status
  exitCode : exitCode = s.job.exitCode
  lines : lines = s.log.length

/-- A terminal status is read once the thread has ended, and what is read after it is final. -/
def Reading.Final (s : Polling) : Reading → Prop
  | .asked _ | .readLines _ => True
  | .readStatus _ status => status.terminal = true → Ended s status s.job.exitCode s.log.length
  | .readExit _ status exitCode => status.terminal = true → Ended s status exitCode s.log.length
  | .reply data => data.status.terminal = true → Ended s data.status data.exitCode data.logLineCount

/-- While no reset has set the status. -/
structure Finished (s : Polling) : Prop where
  status : s.job.status.terminal = true → s.job.phase = .done
  poll : ∀ r ∈ s.poll, r.Final s
  idle : s.result ≠ none → s.poll = none
  result : ∀ r, s.result = some (.ok r) → s.job.phase = .done ∧ s.after = s.log.length ∧
    r = resultOf s.job.status s.job.exitCode s.received

section
variable {s s' : Polling}

theorem Finished.of_frozen (hi : Finished s) {job : Job} {log : List LogLine}
    (hstatus : job.status.terminal = true → job.phase = .done)
    (hfrozen : s.job.phase = .done →
      job.phase = .done ∧ job.status = s.job.status ∧ job.exitCode = s.job.exitCode ∧ log = s.log) :
    Finished { s with job := job, log := log } where
  status := hstatus
  poll r hr := by
    have hended : ∀ {status code lines}, Ended s status code lines →
        Ended { s with job := job, log := log } status code lines := by
      rintro status code lines ⟨hphase, hst, hcode, hlines⟩
      obtain ⟨hphase', hst', hcode', hlog'⟩ := hfrozen hphase
      exact ⟨hphase', hst.trans hst'.symm, hcode.trans hcode'.symm, by rw [hlines, hlog']⟩
    have hfinal := hi.poll r hr
    cases r with
    | asked after | readLines lines => trivial
    | readStatus lines status =>
      intro hterminal
      have h := hended (hfinal hterminal)
      exact ⟨h.phase, h.status, rfl, rfl⟩
    | readExit lines status code =>
      intro hterminal
      have h := hended (hfinal hterminal)
      exact ⟨h.phase, h.status, h.exitCode, rfl⟩
    | reply data => exact fun hterminal => hended (hfinal hterminal)
  idle := hi.idle
  result r hr := by
    obtain ⟨hphase, hafter, hres⟩ := hi.result r hr
    obtain ⟨hphase', hst', hcode', hlog'⟩ := hfrozen hphase
    refine ⟨hphase', ?_, ?_⟩
    · show s.after = log.length
      rw [hafter, hlog']
    · show r = resultOf job.status job.exitCode s.received
      rw [hres, hst', hcode']

/-- A thread sets a terminal status with its last step. -/
theorem threadStep_terminal {starts : Bool} {job job' : Job} (h : threadStep starts job = some job')
    (hstatus : job.status.terminal = true → job.phase = .done) :
    job.phase ≠ .done ∧ (job'.status.terminal = true → job'.phase = .done) := by
  unfold threadStep at h
  cases hphase : job.phase with
  | created =>
    rw [hphase] at h
    cases h
    exact ⟨by simp, fun hrun => by cases hrun⟩
  | running =>
    rw [hphase] at h
    dsimp only at h
    have hnot : job.status.terminal ≠ true := fun hend => by simp [hphase] at hstatus; simp [hend] at hstatus
    split at h <;> cases h <;> exact ⟨by simp, fun hend => absurd hend hnot⟩
  | spawned | refused =>
    rw [hphase] at h
    cases h
    exact ⟨by simp, fun hend => by simpa [hphase] using hstatus hend⟩
  | stored =>
    rw [hphase] at h
    cases h
    refine ⟨by simp, fun hend => ?_⟩
    have hend' : job.status.terminal = true := by
      cases hreq : job.cancelRequested <;> simpa [hreq, Job.terminate] using hend
    simpa [hphase] using hstatus hend'
  | waiting =>
    rw [hphase] at h
    dsimp only at h
    split at h
    · split at h
      · cases h
      · cases h
        exact ⟨by simp, fun hend => by simpa [hphase] using hstatus hend⟩
    · cases h
  | recorded | broken =>
    rw [hphase] at h
    cases h
    exact ⟨by simp, fun _ => rfl⟩
  | done =>
    rw [hphase] at h
    cases h

theorem Finished.read (hi : Finished s) {r r' : Reading} (hr : s.poll = some r) (h : readStep s r = some r') :
    Finished { s with poll := some r' } := by
  refine ⟨hi.status, fun q hq => ?_, fun hres => ?_, hi.result⟩
  · obtain rfl : r' = q := Option.some.inj hq
    have hfinal := hi.poll r hr
    cases r with
    | asked after =>
      cases h
      trivial
    | readLines lines =>
      cases h
      exact fun hterminal => ⟨hi.status hterminal, rfl, rfl, rfl⟩
    | readStatus lines status =>
      cases h
      exact fun hterminal => ⟨(hfinal hterminal).phase, (hfinal hterminal).status, rfl, rfl⟩
    | readExit lines status code =>
      cases h
      exact fun hterminal => ⟨(hfinal hterminal).phase, (hfinal hterminal).status, (hfinal hterminal).exitCode, rfl⟩
    | reply data => cases h
  · rw [hi.idle hres] at hr
    cases hr

theorem Finished.take (hi : Finished s) {data : JobStatus} (hr : s.poll = some (.reply data)) :
    Finished (take s data) := by
  refine ⟨hi.status, fun q hq => (by cases hq), fun _ => rfl, fun r hres => ?_⟩
  simp only [EtlApi.take] at hres
  split at hres
  · next hterminal =>
    cases hres
    have hend := hi.poll _ hr hterminal
    refine ⟨hend.phase, hend.lines, ?_⟩
    rw [hend.status, hend.exitCode]
    rfl
  · cases hres

theorem Finished.step {a : PollAction} (hi : Finished s) (ha : a ≠ .settle) (h : pollStep s a = some s') :
    Finished s' := by
  cases a with
  | append line =>
    simp only [pollStep] at h
    split at h
    · next hphase =>
      cases h
      exact hi.of_frozen hi.status fun hdone => by simp [hphase] at hdone
    · cases h
  | thread exc =>
    obtain ⟨job, hjob, rfl⟩ := Option.map_eq_some_iff.mp h
    obtain ⟨hnot, hterminal⟩ := threadStep_terminal hjob hi.status
    exact hi.of_frozen hterminal fun hdone => absurd hdone hnot
  | exit code =>
    obtain ⟨job, hjob, rfl⟩ := Option.map_eq_some_iff.mp h
    obtain ⟨hstatus, hphase, hcode⟩ : job.status = s.job.status ∧ job.phase = s.job.phase ∧
        job.exitCode = s.job.exitCode := by
      unfold Job.exit at hjob
      split at hjob
      · split at hjob
        · cases hjob
          exact ⟨rfl, rfl, rfl⟩
        · cases hjob
      · cases hjob
    refine hi.of_frozen (fun hend => ?_) fun hdone => ⟨hphase.trans hdone, hstatus, hcode, rfl⟩
    rw [hphase]
    exact hi.status (hstatus ▸ hend)
  | markCancelled =>
    cases h
    exact hi.of_frozen hi.status fun hdone => ⟨hdone, rfl, rfl, rfl⟩
  | terminate =>
    cases h
    refine hi.of_frozen (fun hend => ?_) fun hdone => ?_
    · cases hknown : s.job.known <;> simp only [hknown, if_true, if_false, Bool.false_eq_true] at hend ⊢ <;>
        exact hi.status hend
    · cases s.job.known <;> exact ⟨hdone, rfl, rfl, rfl⟩
  | settle => exact absurd rfl ha
  | ask =>
    simp only [pollStep] at h
    split at h
    · next hfree =>
      cases h
      refine ⟨hi.status, fun r hr => ?_, fun hres => absurd hfree.2 hres, hi.result⟩
      cases hr
      trivial
    · cases h
  | read =>
    obtain ⟨r, hr, hmap⟩ := Option.bind_eq_some_iff.mp h
    obtain ⟨r', hr', rfl⟩ := Option.map_eq_some_iff.mp hmap
    exact hi.read hr hr'
  | deliver =>
    simp only [pollStep] at h
    split at h
    · next data hr =>
      cases h
      exact hi.take hr
    · cases h
  | lose message =>
    simp only [pollStep] at h
    split at h
    · cases h
    · cases h
      refine ⟨hi.status, fun r hr => (by cases hr), fun _ => rfl, fun r hres => ?_⟩
      dsimp only at hres
      split at hres <;> cases hres

end

theorem unpolled_finished (lane : Lane) : Finished (unpolled lane) :=
  ⟨fun h => (by cases h), fun r hr => (by cases hr), fun h => absurd rfl h, fun r hr => (by cases hr)⟩

/-- **What the backend gets of a log.** In every run the lines received are lines of the
log in their order, each at most once, and all of them up to the number the backend asks
on from exactly when no reply counted more lines than it brought. A result is the job's own
once its thread has ended, with every line counted, unless a reset set the status. -/
theorem log_transferred {lane : Lane} {as : List PollAction} {s : Polling}
    (h : FreeRun pollStep (unpolled lane) as s) :
    s.after ≤ s.log.length ∧ s.received.Sublist (s.log.take s.after) ∧
      (s.received = s.log.take s.after ↔ countAlong pollStep slips (unpolled lane) as = 0) ∧
      ((∀ a ∈ as, a ≠ .settle) → ∀ r, s.result = some (.ok r) → s.job.phase = .done ∧
        (s.received = s.log ↔ countAlong pollStep slips (unpolled lane) as = 0) ∧
        r = resultOf s.job.status s.job.exitCode s.received) := by
  have hreceived : Received (0 + countAlong pollStep slips (unpolled lane) as) s :=
    h.counting (fun _ _ _ _ hi _ hstep => hi.step hstep) (unpolled_received lane)
  rw [Nat.zero_add] at hreceived
  refine ⟨hreceived.after, hreceived.received, hreceived.all, fun hreset r hr => ?_⟩
  have hfinished : Finished s :=
    (h.strengthen hreset).invariant (fun _ _ _ hi ha hstep => hi.step ha.2 hstep) (unpolled_finished lane)
  obtain ⟨hphase, hafter, hres⟩ := hfinished.result r hr
  have hall := hreceived.all
  rw [hafter, List.take_length] at hall
  exact ⟨hphase, hall, hres⟩

/-! ### One line, and its loss -/

/-- The thread starts a process and waits for it. -/
def started : List PollAction := List.replicate 4 (.thread none)

/-- The line comes before the poll. -/
def lineThenPoll : List PollAction :=
  started ++ [.append ⟨.stdout, "Done"⟩, .exit 0, .ask, .read, .thread none, .thread none, .read, .read, .read, .deliver]

theorem log_transferred_line : ∃ s, FreeRun pollStep (unpolled .main) lineThenPoll s ∧
    s.result = some (.ok ⟨0, false, "Done", ""⟩) ∧ s.received = s.log := by
  have hrun : (exec pollStep (fun _ _ => True) (unpolled .main) lineThenPoll).map (fun s =>
      decide (s.result.bind Except.toOption = some ⟨0, false, "Done", ""⟩) &&
        decide (countAlong pollStep slips (unpolled .main) lineThenPoll = 0)) = some true := by decide +kernel
  obtain ⟨s, hs, hrun⟩ := Option.map_eq_some_iff.mp hrun
  rw [Bool.and_eq_true, decide_eq_true_eq, decide_eq_true_eq] at hrun
  obtain ⟨hresult, hcount⟩ := hrun
  have hfree := (exec_eq_some _ _ _ _ _).mp hs
  obtain ⟨answer, hanswer, hok⟩ := Option.bind_eq_some_iff.mp hresult
  have hresult : s.result = some (.ok ⟨0, false, "Done", ""⟩) := by
    cases answer with
    | error message => cases hok
    | ok r =>
      cases hok
      exact hanswer
  have hall := (log_transferred hfree).2.2.2 (by decide) _ hresult
  exact ⟨s, hfree, hresult, hall.2.1.mpr hcount⟩

/-- The line comes between the reads of the lines and of their number. -/
def lineDuringPoll : List PollAction :=
  started ++ [.ask, .read, .append ⟨.stdout, "Done"⟩, .exit 0, .thread none, .thread none, .read, .read, .read, .deliver]

/-- The run succeeds and its only line never arrives. -/
theorem line_lost : ∃ s, FreeRun pollStep (unpolled .main) lineDuringPoll s ∧
    s.log = [⟨.stdout, "Done"⟩] ∧ s.after = 1 ∧ s.received = [] ∧ s.job.status = .completed := by
  have hrun : (exec pollStep (fun _ _ => True) (unpolled .main) lineDuringPoll).map (fun s =>
      decide (s.log = [⟨.stdout, "Done"⟩] ∧ s.after = 1 ∧ s.received = [] ∧ s.job.status = .completed)) =
      some true := by decide +kernel
  obtain ⟨s, hs, hrun⟩ := Option.map_eq_some_iff.mp hrun
  exact ⟨s, (exec_eq_some _ _ _ _ _).mp hs, of_decide_eq_true hrun⟩

end SalesDashboard.EtlApi
