import SalesDashboard.EtlApi.OneProcess

/-! "Only one job may be active at a time": the statuses of the jobs of a lane. -/

namespace SalesDashboard.EtlApi
open Transition

/-! ## One active job a lane -/

/-- The job that the reset is at. -/
def Request.resetting : Request → Option Nat
  | .resetMark i _ | .resetSignal i _ | .resetCheck i _ | .resetStatus i _ => some i
  | _ => none

/-- The job whose status the reset sets next. -/
def Request.settling : Request → Option Nat
  | .resetStatus i _ => some i
  | _ => none

/-- No reset sets the status of a job whose thread has not begun. -/
def Begun (t : Tracker) : Action → Prop
  | .advance k => ∀ i ∈ t.requests[k]?.bind Request.settling, ∀ job ∈ t.jobs[i]?, job.phase ≠ .created
  | _ => True

instance (t : Tracker) (a : Action) : Decidable (Begun t a) := by
  cases a <;> unfold Begun <;> infer_instance

/-- A job that is not at its end has its lane, or a reset is at it. -/
structure Owned (t : Tracker) : Prop where
  owned : ∀ (i : Nat) (job : Job), t.jobs[i]? = some job → job.status.terminal = false →
    t.active job.lane = some i ∨ ∃ r ∈ t.requests, r.resetting = some i
  begun : ∀ (i : Nat) (job : Job), t.jobs[i]? = some job → job.phase = .created → job.status.terminal = false

section
variable {t t' : Tracker}

theorem Owned.setJob (hi : Owned t) {i : Nat} {job job' : Job} (hjob : t.jobs[i]? = some job)
    (hlane : job'.lane = job.lane) (hstatus : job'.status.terminal = false → job.status.terminal = false)
    (hbegun : job'.phase = .created → job'.status.terminal = false) :
    Owned { t with jobs := t.jobs.set i job' } where
  owned j q hj hq := by
    rcases Calls.get_set hj with ⟨rfl, rfl⟩ | ⟨-, hj⟩
    · exact hlane ▸ hi.owned j job hjob (hstatus hq)
    · exact hi.owned j q hj hq
  begun j q hj hphase := by
    rcases Calls.get_set hj with ⟨rfl, rfl⟩ | ⟨-, hj⟩
    · exact hbegun hphase
    · exact hi.begun j q hj hphase

theorem threadStep_status {starts : Bool} {job job' : Job} (h : threadStep starts job = some job')
    (hstatus : job.phase = .created → job.status.terminal = false) :
    job'.lane = job.lane ∧ (job'.status.terminal = false → job.status.terminal = false) ∧ job'.phase ≠ .created := by
  unfold threadStep at h
  cases hphase : job.phase with
  | created =>
    rw [hphase] at h
    cases h
    exact ⟨rfl, fun _ => hstatus hphase, by simp⟩
  | running =>
    rw [hphase] at h
    dsimp only at h
    split at h <;> cases h <;> exact ⟨rfl, id, by simp⟩
  | spawned | refused =>
    rw [hphase] at h
    cases h
    exact ⟨rfl, id, by simp⟩
  | stored =>
    rw [hphase] at h
    cases h
    cases job.cancelRequested <;> exact ⟨rfl, id, by simp⟩
  | waiting =>
    rw [hphase] at h
    dsimp only at h
    split at h
    · split at h
      · cases h
      · cases h
        exact ⟨rfl, id, by simp⟩
    · cases h
  | recorded =>
    rw [hphase] at h
    cases h
    refine ⟨rfl, fun hnot => ?_, by simp⟩
    dsimp only at hnot
    split at hnot
    · cases hnot
    · split at hnot <;> cases hnot
  | broken =>
    rw [hphase] at h
    cases h
    exact ⟨rfl, fun hnot => (by cases hnot), by simp⟩
  | done =>
    rw [hphase] at h
    cases h

/-- A request that leaves statuses alone. -/
theorem Owned.requests (hi : Owned t) {k : Nat} {request : Request} {next : List Request} {jobs : List Job}
    {active : Lane → Option Nat} (hk : t.requests[k]? = some request)
    (hjobs : ∀ (i : Nat) (job : Job), jobs[i]? = some job → ∃ q : Job, t.jobs[i]? = some q ∧
      (job.lane = q.lane ∧ job.phase = q.phase) ∧ (job.status.terminal = false → q.status.terminal = false) ∧
      (q.phase = .created → job.status.terminal = q.status.terminal))
    (hactive : ∀ (i : Nat) (job q : Job), jobs[i]? = some job → t.jobs[i]? = some q → job.status.terminal = false →
      t.active q.lane = some i → active q.lane = some i ∨ ∃ r ∈ next, r.resetting = some i)
    (hreset : ∀ (i : Nat) (job : Job), jobs[i]? = some job → job.status.terminal = false →
      request.resetting = some i → ∃ r ∈ next, r.resetting = some i) :
    Owned ⟨jobs, active, next ++ t.requests.eraseIdx k⟩ where
  owned i job hjob hnot := by
    obtain ⟨q, hq, ⟨hlane, -⟩, hstatus, -⟩ := hjobs i job hjob
    rcases hi.owned i q hq (hstatus hnot) with hown | ⟨r, hr, hres⟩
    · rcases hactive i job q hjob hq hnot hown with hown' | ⟨r, hr, hres⟩
      · exact .inl (hlane ▸ hown')
      · exact .inr ⟨r, List.mem_append_left _ hr, hres⟩
    · by_cases hself : r = request
      · obtain ⟨r', hr', hres'⟩ := hreset i job hjob hnot (hself ▸ hres)
        exact .inr ⟨r', List.mem_append_left _ hr', hres'⟩
      · exact .inr ⟨r, List.mem_append_right _ (mem_eraseIdx hk hr hself), hres⟩
  begun i job hjob hphase := by
    obtain ⟨q, hq, ⟨-, hphase'⟩, -, hsame⟩ := hjobs i job hjob
    rw [hsame (hphase' ▸ hphase)]
    exact hi.begun i q hq (hphase' ▸ hphase)

/-- One job changed by a request that stays at it, or is no reset. -/
theorem set_jobs {i : Nat} {job job' : Job} (hjob : t.jobs[i]? = some job) (hlane : job'.lane = job.lane)
    (hphase : job'.phase = job.phase) (hstatus : job'.status.terminal = false → job.status.terminal = false)
    (hsame : job.phase = .created → job'.status.terminal = job.status.terminal) (j : Nat) (q' : Job)
    (hj : (t.jobs.set i job')[j]? = some q') : ∃ q : Job, t.jobs[j]? = some q ∧
      (q'.lane = q.lane ∧ q'.phase = q.phase) ∧ (q'.status.terminal = false → q.status.terminal = false) ∧
      (q.phase = .created → q'.status.terminal = q.status.terminal) := by
  rcases Calls.get_set hj with ⟨rfl, rfl⟩ | ⟨-, hj⟩
  · exact ⟨job, hjob, ⟨hlane, hphase⟩, hstatus, hsame⟩
  · exact ⟨q', hj, ⟨rfl, rfl⟩, id, fun _ => rfl⟩

theorem same_jobs (j : Nat) (q' : Job) (hj : t.jobs[j]? = some q') : ∃ q : Job, t.jobs[j]? = some q ∧
    (q'.lane = q.lane ∧ q'.phase = q.phase) ∧ (q'.status.terminal = false → q.status.terminal = false) ∧
    (q.phase = .created → q'.status.terminal = q.status.terminal) :=
  ⟨q', hj, ⟨rfl, rfl⟩, id, fun _ => rfl⟩

theorem Owned.advance (hi : Owned t) {k : Nat} {request : Request} {next : Tracker × Option Request}
    (hk : t.requests[k]? = some request) (hok : Begun t (.advance k)) (h : requestStep t request = some next) :
    Owned { next.1 with requests := next.2.toList ++ t.requests.eraseIdx k } := by
  have hsignal : ∀ {job : Job}, (if job.known then job.terminate else job).lane = job.lane ∧
      (if job.known then job.terminate else job).phase = job.phase ∧
      (if job.known then job.terminate else job).status = job.status := by
    intro job
    split <;> exact ⟨rfl, rfl, rfl⟩
  cases request with
  | cancelMark i =>
    obtain ⟨t', hset, rfl⟩ := Option.map_eq_some_iff.mp h
    obtain ⟨job, job', hjob, hf, rfl⟩ := setJob_ok hset
    cases hf
    exact hi.requests hk (set_jobs hjob rfl rfl id fun _ => rfl) (fun _ _ _ _ _ _ hown => .inl hown)
      (fun _ _ _ _ hself => by cases hself)
  | cancelSignal i =>
    obtain ⟨t', hset, rfl⟩ := Option.map_eq_some_iff.mp h
    obtain ⟨job, job', hjob, hf, rfl⟩ := setJob_ok hset
    cases hf
    exact hi.requests hk (set_jobs hjob hsignal.1 hsignal.2.1 (fun hs => hsignal.2.2 ▸ hs) fun _ => by
      rw [hsignal.2.2]) (fun _ _ _ _ _ _ hown => .inl hown) (fun _ _ _ _ hself => by cases hself)
  | resetLane lanes =>
    cases lanes with
    | nil =>
      cases h
      exact hi.requests hk same_jobs (fun _ _ _ _ _ _ hown => .inl hown) (fun _ _ _ _ hself => by cases hself)
    | cons lane lanes =>
      have hclear : ∀ request' : Request, (∀ i, activeJob t lane = some i → request'.resetting = some i) →
          Owned ⟨t.jobs, Function.update t.active lane none, [request'] ++ t.requests.eraseIdx k⟩ := by
        intro request' hnext
        refine hi.requests hk same_jobs (fun i job q hjob hq hnot hown => ?_) (fun _ _ _ _ hself => by cases hself)
        by_cases hlane : q.lane = lane
        · refine .inr ⟨request', List.mem_singleton_self _, hnext i ?_⟩
          subst hlane
          exact Option.filter_eq_some_iff.mpr ⟨hown, by simp [hjob, hnot]⟩
        · exact .inl ((Function.update_of_ne hlane _ _).trans hown)
      simp only [requestStep] at h
      cases hactive : activeJob t lane with
      | none =>
        rw [hactive] at h
        cases h
        exact hclear _ fun i hi' => by rw [hactive] at hi'; cases hi'
      | some i =>
        rw [hactive] at h
        cases h
        exact hclear _ fun j hj => by rw [hactive] at hj; exact hj
  | resetMark i lanes =>
    obtain ⟨t', hset, rfl⟩ := Option.map_eq_some_iff.mp h
    obtain ⟨job, job', hjob, hf, rfl⟩ := setJob_ok hset
    cases hf
    exact hi.requests hk (set_jobs hjob rfl rfl id fun _ => rfl) (fun _ _ _ _ _ _ hown => .inl hown)
      (fun _ _ _ _ hself => ⟨_, List.mem_singleton_self _, hself⟩)
  | resetSignal i lanes =>
    obtain ⟨t', hset, rfl⟩ := Option.map_eq_some_iff.mp h
    obtain ⟨job, job', hjob, hf, rfl⟩ := setJob_ok hset
    cases hf
    exact hi.requests hk (set_jobs hjob hsignal.1 hsignal.2.1 (fun hs => hsignal.2.2 ▸ hs) fun _ => by
      rw [hsignal.2.2]) (fun _ _ _ _ _ _ hown => .inl hown)
      (fun _ _ _ _ hself => ⟨_, List.mem_singleton_self _, hself⟩)
  | resetCheck i lanes =>
    simp only [requestStep] at h
    split at h
    · cases h
    · next job hjob =>
      cases h
      refine hi.requests hk same_jobs (fun _ _ _ _ _ _ hown => .inl hown) (fun j q hj hnot hself => ?_)
      obtain rfl : i = j := Option.some.inj hself
      rw [hjob] at hj
      cases hj
      refine ⟨_, List.mem_singleton_self _, ?_⟩
      rw [hnot]
      rfl
  | resetStatus i lanes =>
    obtain ⟨t', hset, rfl⟩ := Option.map_eq_some_iff.mp h
    obtain ⟨job, job', hjob, hf, rfl⟩ := setJob_ok hset
    cases hf
    have hphase : job.phase ≠ .created := hok i (by rw [hk]; rfl) job hjob
    refine hi.requests hk (set_jobs hjob rfl rfl (fun hs => by cases hs) fun hc => absurd hc hphase)
      (fun _ _ _ _ _ _ hown => .inl hown) (fun j q hj hnot hself => ?_)
    obtain rfl : i = j := Option.some.inj hself
    rw [get_set_self hjob] at hj
    cases hj
    cases hnot

theorem Owned.start (hi : Owned t) {lane : Lane} (hfree : activeJob t lane = none) : Owned (start t lane) where
  owned i job hjob hnot := by
    rcases Calls.get_concat hjob with hold | ⟨rfl, rfl⟩
    · refine (hi.owned i job hold hnot).imp_left fun hown => ?_
      have hne : job.lane ≠ lane := by
        rintro rfl
        rw [activeJob_eq_none hfree hold hown] at hnot
        cases hnot
      exact (Function.update_of_ne hne _ _).trans hown
    · exact .inl (Function.update_self ..)
  begun i job hjob hphase := by
    rcases Calls.get_concat hjob with hold | ⟨rfl, rfl⟩
    · exact hi.begun i job hold hphase
    · rfl

theorem Owned.request (hi : Owned t) (request : Request) :
    Owned { t with requests := t.requests ++ [request] } where
  owned i job hjob hnot := by
    refine (hi.owned i job hjob hnot).imp_right ?_
    rintro ⟨r, hr, hres⟩
    exact ⟨r, List.mem_append_left _ hr, hres⟩
  begun := hi.begun

theorem Owned.step {a : Action} (hi : Owned t) (hok : Begun t a) (h : step t a = some t') : Owned t' := by
  cases a with
  | start jobName =>
    simp only [EtlApi.step] at h
    split at h
    · cases h
    · split at h
      · cases h
      · next hfree =>
        cases h
        exact hi.start (not_not.mp hfree)
  | thread i starts =>
    obtain ⟨job, job', hjob, hf, rfl⟩ := setJob_ok h
    obtain ⟨hlane, hstatus, hphase⟩ := threadStep_status hf (hi.begun i job hjob)
    exact hi.setJob hjob hlane hstatus fun hc => absurd hc hphase
  | exit i code =>
    obtain ⟨job, job', hjob, hf, rfl⟩ := setJob_ok h
    unfold Job.exit at hf
    split at hf
    · split at hf
      · cases hf
        exact hi.setJob hjob rfl id (hi.begun i job hjob)
      · cases hf
    · cases hf
  | cancel i =>
    simp only [EtlApi.step] at h
    split at h
    · cases h
    · split at h
      · cases h
      · cases h
        exact hi.request _
  | reset =>
    simp only [EtlApi.step] at h
    split at h
    · cases h
    · cases h
      exact hi.request _
  | advance k =>
    simp only [EtlApi.step] at h
    split at h
    · cases h
    · next request hk =>
      obtain ⟨next, hnext, rfl⟩ := Option.map_eq_some_iff.mp h
      exact hi.advance hk hok hnext

end

/-- **One active job a lane**: along steps in which no reset sets the status of a job whose
thread has not begun, two jobs of one lane that are not at their end are one job, or a
reset is at one of them. -/
theorem one_active_job {t : Tracker} {as : List Action} (h : Run step Begun noJobs as t) {i j : Nat} {a b : Job}
    (ha : t.jobs[i]? = some a) (hb : t.jobs[j]? = some b) (hlane : a.lane = b.lane)
    (hnot : a.status.terminal = false) (hnot' : b.status.terminal = false) :
    i = j ∨ ∃ r ∈ t.requests, r.resetting = some i ∨ r.resetting = some j := by
  have hstart : Owned noJobs := by constructor <;> (intro i job hjob; cases hjob)
  have hi : Owned t := h.invariant (fun _ _ _ hi hok hst => hi.step hok hst) hstart
  rcases hi.owned i a ha hnot with hown | ⟨r, hr, hres⟩
  · rcases hi.owned j b hb hnot' with hown' | ⟨r, hr, hres⟩
    · rw [hlane, hown'] at hown
      exact .inl (Option.some.inj hown).symm
    · exact .inr ⟨r, hr, .inr hres⟩
  · exact .inr ⟨r, hr, .inl hres⟩

/-! ### Before and after the thread has begun -/

/-- After a reset the next job is the lane's only one that is not at its end. -/
theorem one_active_job_reset : ∃ t, Run step Begun noJobs resetAndStart t ∧
    (∃ job, t.jobs[1]? = some job ∧ job.lane = .main ∧ job.status = .running) ∧
    ∀ i job, t.jobs[i]? = some job → job.lane = .main → job.status.terminal = false → i = 1 := by
  have hrun : (exec step Begun noJobs resetAndStart).map (fun t => decide (t.requests = []) &&
      decide (t.jobs[1]? = some ⟨.main, .running, none, false, some ⟨true, false, 0⟩, true, .waiting⟩)) =
      some true := by decide +kernel
  obtain ⟨t, ht, hrun⟩ := Option.map_eq_some_iff.mp hrun
  rw [Bool.and_eq_true, decide_eq_true_eq, decide_eq_true_eq] at hrun
  obtain ⟨hquiet, hjob⟩ := hrun
  have hbegun := (exec_eq_some _ _ _ _ _).mp ht
  refine ⟨t, hbegun, ⟨_, hjob, rfl, rfl⟩, fun i job hi hlane hnot => ?_⟩
  rcases one_active_job hbegun hi hjob hlane hnot rfl with heq | ⟨r, hr, -⟩
  · exact heq
  · rw [hquiet] at hr
    cases hr

/-- A job is reset before its thread has begun, and another one is started in its lane:
the first thread says "running" again, next to the second job. -/
theorem two_running_jobs : ∃ t, FreeRun step noJobs
    [.start none, .reset, .advance 0, .advance 0, .advance 0, .advance 0, .advance 0, .advance 0, .advance 0,
      .start none, .thread 0 true, .thread 1 true] t ∧
    (t.jobs.map fun job => (job.lane, job.status)) = [(.main, .running), (.main, .running)] := by
  have hrun : (exec step (fun _ _ => True) noJobs
      [.start none, .reset, .advance 0, .advance 0, .advance 0, .advance 0, .advance 0, .advance 0, .advance 0,
        .start none, .thread 0 true, .thread 1 true]).map (fun t => decide (
          (t.jobs.map fun job => (job.lane, job.status)) = [(.main, .running), (.main, .running)])) =
      some true := by decide +kernel
  obtain ⟨t, ht, hrun⟩ := Option.map_eq_some_iff.mp hrun
  exact ⟨t, (exec_eq_some _ _ _ _ _).mp ht, of_decide_eq_true hrun⟩

end SalesDashboard.EtlApi
