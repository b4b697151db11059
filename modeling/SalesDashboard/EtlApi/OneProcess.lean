import SalesDashboard.EtlApi.JobTracker

/-! Cancels and resets race with the thread of a job: the thread stores its process and
then looks for a cancel, a request marks the job and then looks for its process. -/

namespace SalesDashboard.EtlApi
open Transition

/-! ## What a request has still to do -/

/-- The job whose process the request will tell to stop. -/
def Request.stopping : Request → Option Nat
  | .cancelSignal i | .resetMark i _ | .resetSignal i _ => some i
  | _ => none

/-- The job that the request has marked. -/
def Request.marked : Request → Option Nat
  | .cancelSignal i | .resetSignal i _ | .resetCheck i _ | .resetStatus i _ => some i
  | _ => none

/-- The thread waits for a process that runs and was not told to stop. -/
def Job.Unstopped (job : Job) : Prop :=
  job.phase = .waiting ∧ ∃ p, job.process = some p ∧ p.alive = true ∧ p.signalled = false

structure Inv (t : Tracker) : Prop where
  owned : ∀ (i : Nat) (job : Job), t.jobs[i]? = some job → job.cancelRequested = false → job.phase ≠ .done →
    job.status.terminal = false ∧ (t.active job.lane = some i ∨ ∃ r ∈ t.requests, r.stopping = some i)
  told : ∀ (i : Nat) (job : Job), t.jobs[i]? = some job → job.cancelRequested = true → job.Unstopped →
    ∃ r ∈ t.requests, r.stopping = some i
  marked : ∀ r ∈ t.requests, ∀ i, r.marked = some i →
    ∃ job : Job, t.jobs[i]? = some job ∧ job.cancelRequested = true
  known : ∀ (i : Nat) (job : Job), t.jobs[i]? = some job → job.phase = .stored ∨ job.phase = .waiting →
    job.known = true

section
variable {t t' : Tracker}

theorem setJob_ok {i : Nat} {f : Job → Option Job} (h : setJob t i f = some t') :
    ∃ job job', t.jobs[i]? = some job ∧ f job = some job' ∧ t' = { t with jobs := t.jobs.set i job' } := by
  unfold setJob at h
  split at h
  · cases h
  · next job hjob =>
    obtain ⟨job', hf, heq⟩ := Option.map_eq_some_iff.mp h
    exact ⟨job, job', hjob, hf, heq.symm⟩

theorem get_set_self {i : Nat} {job job' : Job} (h : t.jobs[i]? = some job) :
    (t.jobs.set i job')[i]? = some job' :=
  List.getElem?_set_self (List.getElem?_eq_some_iff.mp h).1

/-- A change of one job keeps the invariant when it keeps to these rules. -/
theorem Inv.setJob (hi : Inv t) {i : Nat} {job job' : Job} (hjob : t.jobs[i]? = some job)
    (hlane : job'.lane = job.lane) (hmark : job.cancelRequested = true → job'.cancelRequested = true)
    (howned : job'.cancelRequested = false → job'.phase ≠ .done → job.phase ≠ .done ∧
      (job.status.terminal = false → job'.status.terminal = false))
    (htold : job'.cancelRequested = true → job'.Unstopped → ∃ r ∈ t.requests, r.stopping = some i)
    (hknown : job'.phase = .stored ∨ job'.phase = .waiting → job'.known = true) : Inv { t with jobs := t.jobs.set i job' } where
  owned j q hj hreq hphase := by
    rcases Calls.get_set hj with ⟨rfl, rfl⟩ | ⟨-, hj⟩
    · have hreq' : job.cancelRequested = false := by
        rw [← Bool.not_eq_true]
        intro hset
        rw [hmark hset] at hreq
        cases hreq
      obtain ⟨hphase', hstatus⟩ := howned hreq hphase
      obtain ⟨hterminal, hactive⟩ := hi.owned j job hjob hreq' hphase'
      exact ⟨hstatus hterminal, hlane ▸ hactive⟩
    · exact hi.owned j q hj hreq hphase
  told j q hj hreq hrun := by
    rcases Calls.get_set hj with ⟨rfl, rfl⟩ | ⟨-, hj⟩
    · exact htold hreq hrun
    · exact hi.told j q hj hreq hrun
  marked r hr j hj := by
    obtain ⟨q, hq, hreq⟩ := hi.marked r hr j hj
    by_cases hij : i = j
    · subst hij
      rw [hjob] at hq
      cases hq
      exact ⟨job', get_set_self hjob, hmark hreq⟩
    · exact ⟨q, (List.getElem?_set_ne hij).trans hq, hreq⟩
  known j q hj hphase := by
    rcases Calls.get_set hj with ⟨rfl, rfl⟩ | ⟨-, hj⟩
    · exact hknown hphase
    · exact hi.known j q hj hphase

theorem not_unstopped_terminate (job : Job) : ¬ job.terminate.Unstopped := by
  rintro ⟨-, p, hp, halive, hsignalled⟩
  obtain ⟨q, -, rfl⟩ := Option.map_eq_some_iff.mp hp
  cases hq : q.alive <;> simp [hq] at halive hsignalled

/-- The thread of a job. -/
theorem Inv.thread (hi : Inv t) {i : Nat} {starts : Bool} {job job' : Job} (hjob : t.jobs[i]? = some job)
    (h : threadStep starts job = some job') : Inv { t with jobs := t.jobs.set i job' } := by
  unfold threadStep at h
  cases hphase : job.phase with
  | created =>
    rw [hphase] at h
    cases h
    exact hi.setJob hjob rfl id (fun _ _ => ⟨by simp [hphase], fun _ => rfl⟩)
      (fun _ hrun => by cases hrun.1) (by simp)
  | running =>
    rw [hphase] at h
    dsimp only at h
    split at h
    · cases h
      exact hi.setJob hjob rfl id (fun _ _ => ⟨by simp [hphase], id⟩)
        (fun _ hrun => by cases hrun.1) (by simp)
    · cases h
      exact hi.setJob hjob rfl id (fun _ _ => ⟨by simp [hphase], id⟩)
        (fun _ hrun => by cases hrun.1) (by simp)
  | spawned =>
    rw [hphase] at h
    cases h
    exact hi.setJob hjob rfl id (fun _ _ => ⟨by simp [hphase], id⟩)
      (fun _ hrun => by cases hrun.1) (fun _ => rfl)
  | stored =>
    rw [hphase] at h
    cases h
    have hknown := hi.known i job hjob (.inl hphase)
    cases hreq : job.cancelRequested with
    | true =>
      refine hi.setJob hjob (by simp [Job.terminate]) (fun _ => by simp [Job.terminate, hreq])
        (fun hnot => by simp [Job.terminate, hreq] at hnot) (fun _ hrun => ?_) (fun _ => by simp [Job.terminate, hknown])
      simp only [if_true] at hrun
      exact absurd ⟨hrun.1, hrun.2⟩ (not_unstopped_terminate { job with phase := .waiting })
    | false =>
      refine hi.setJob hjob (by simp) (fun hset => by simp [hreq] at hset) (fun _ _ => ⟨by simp [hphase], ?_⟩)
        (fun hset _ => by simp [hreq] at hset) (fun _ => by simp [hknown])
      exact fun hstatus => by simp [hstatus]
  | waiting =>
    rw [hphase] at h
    dsimp only at h
    split at h
    · split at h
      · cases h
      · cases h
        exact hi.setJob hjob rfl id (fun _ _ => ⟨by simp [hphase], id⟩)
          (fun _ hrun => by cases hrun.1) (by simp)
    · cases h
  | recorded =>
    rw [hphase] at h
    cases h
    exact hi.setJob hjob rfl id (fun _ hdone => absurd rfl hdone)
      (fun _ hrun => by cases hrun.1) (by simp)
  | refused =>
    rw [hphase] at h
    cases h
    exact hi.setJob hjob rfl id (fun _ _ => ⟨by simp [hphase], id⟩)
      (fun _ hrun => by cases hrun.1) (by simp)
  | broken =>
    rw [hphase] at h
    cases h
    exact hi.setJob hjob rfl id (fun _ hdone => absurd rfl hdone)
      (fun _ hrun => by cases hrun.1) (by simp)
  | done =>
    rw [hphase] at h
    cases h

theorem Inv.exit (hi : Inv t) {i : Nat} {code : Int} {job job' : Job} (hjob : t.jobs[i]? = some job)
    (h : job.exit code = some job') : Inv { t with jobs := t.jobs.set i job' } := by
  unfold Job.exit at h
  split at h
  · split at h
    · cases h
      refine hi.setJob hjob rfl id (fun _ hdone => ⟨hdone, id⟩) (fun _ hrun => ?_) (hi.known i job hjob)
      obtain ⟨-, p, hp, halive, -⟩ := hrun
      cases hp
      cases halive
    · cases h
  · cases h

theorem activeJob_eq_none {lane : Lane} (h : activeJob t lane = none) {i : Nat} {job : Job}
    (hjob : t.jobs[i]? = some job) (hactive : t.active lane = some i) : job.status.terminal = true := by
  unfold activeJob at h
  rw [hactive] at h
  simpa [hjob] using h

theorem Inv.start (hi : Inv t) {lane : Lane} (hfree : activeJob t lane = none) : Inv (start t lane) where
  owned i job hjob hreq hphase := by
    rcases Calls.get_concat hjob with hold | ⟨rfl, rfl⟩
    · obtain ⟨hstatus, hactive⟩ := hi.owned i job hold hreq hphase
      refine ⟨hstatus, hactive.imp_left fun hown => ?_⟩
      have hne : job.lane ≠ lane := by
        rintro rfl
        rw [activeJob_eq_none hfree hold hown] at hstatus
        cases hstatus
      exact (Function.update_of_ne hne _ _).trans hown
    · exact ⟨rfl, .inl (Function.update_self ..)⟩
  told i job hjob hreq hrun := by
    rcases Calls.get_concat hjob with hjob | ⟨-, rfl⟩
    · exact hi.told i job hjob hreq hrun
    · cases hreq
  marked r hr i hmarked := by
    obtain ⟨job, hjob, hreq⟩ := hi.marked r hr i hmarked
    refine ⟨job, ?_, hreq⟩
    exact (List.getElem?_append_left (List.getElem?_eq_some_iff.mp hjob).1).trans hjob
  known i job hjob hphase := by
    rcases Calls.get_concat hjob with hjob | ⟨-, rfl⟩
    · exact hi.known i job hjob hphase
    · rcases hphase with hphase | hphase <;> cases hphase

/-! ## Requests -/

theorem mem_eraseIdx {k : Nat} {request r : Request} (hk : t.requests[k]? = some request) (hr : r ∈ t.requests)
    (hself : r ≠ request) : r ∈ t.requests.eraseIdx k := by
  obtain ⟨j, hj, rfl⟩ := List.mem_iff_getElem.mp hr
  refine List.mem_eraseIdx_iff_getElem.mpr ⟨j, hj, ?_, rfl⟩
  rintro rfl
  rw [List.getElem?_eq_getElem hj] at hk
  exact hself (Option.some.inj hk)

theorem exists_stopping {k i : Nat} {request : Request} {next : List Request} (hk : t.requests[k]? = some request)
    (h : ∃ r ∈ t.requests, r.stopping = some i)
    (hnext : request.stopping = some i → ∃ r ∈ next, r.stopping = some i) :
    ∃ r ∈ next ++ t.requests.eraseIdx k, r.stopping = some i := by
  obtain ⟨r, hr, hstop⟩ := h
  by_cases hself : r = request
  · obtain ⟨r', hr', hstop'⟩ := hnext (hself ▸ hstop)
    exact ⟨r', List.mem_append_left _ hr', hstop'⟩
  · exact ⟨r, List.mem_append_right _ (mem_eraseIdx hk hr hself), hstop⟩

/-- A request that leaves the jobs alone, where a cleared lane is taken over. -/
theorem Inv.requests (hi : Inv t) {k : Nat} {request : Request} {next : List Request} {active : Lane → Option Nat}
    (hk : t.requests[k]? = some request) (hquiet : request.stopping = none)
    (hactive : ∀ i job, t.jobs[i]? = some job → job.cancelRequested = false → job.status.terminal = false →
      t.active job.lane = some i → active job.lane = some i ∨ ∃ r ∈ next, r.stopping = some i)
    (hmarked : ∀ r ∈ next, ∀ i, r.marked = some i → request.marked = some i) :
    Inv { t with active := active, requests := next ++ t.requests.eraseIdx k } where
  owned i job hjob hreq hphase := by
    obtain ⟨hstatus, hown⟩ := hi.owned i job hjob hreq hphase
    refine ⟨hstatus, ?_⟩
    rcases hown with hown | hstop
    · rcases hactive i job hjob hreq hstatus hown with hown' | ⟨r, hr, hstop⟩
      · exact .inl hown'
      · exact .inr ⟨r, List.mem_append_left _ hr, hstop⟩
    · exact .inr (exists_stopping hk hstop fun hself => by rw [hquiet] at hself; cases hself)
  told i job hjob hreq hrun :=
    exists_stopping hk (hi.told i job hjob hreq hrun) fun hself => by rw [hquiet] at hself; cases hself
  marked r hr i hi' := by
    rcases List.mem_append.mp hr with hr | hr
    · exact hi.marked request (List.mem_of_getElem? hk) i (hmarked r hr i hi')
    · exact hi.marked r (List.mem_of_mem_eraseIdx hr) i hi'
  known := hi.known

/-- A request that has marked a job, or does so now. -/
theorem Inv.mark (hi : Inv t) {k i : Nat} {request : Request} {next : List Request} {job job' : Job}
    (hk : t.requests[k]? = some request) (hjob : t.jobs[i]? = some job) (hreq : job'.cancelRequested = true)
    (hstop : ∀ j, request.stopping = some j → j = i)
    (htold : job'.Unstopped → ∃ r ∈ next ++ t.requests.eraseIdx k, r.stopping = some i)
    (hmarked : ∀ r ∈ next, ∀ j, r.marked = some j → j = i)
    (hknown : job'.phase = .stored ∨ job'.phase = .waiting → job'.known = true) :
    Inv { t with jobs := t.jobs.set i job', requests := next ++ t.requests.eraseIdx k } where
  owned j q hj hnot hphase := by
    rcases Calls.get_set hj with ⟨rfl, rfl⟩ | ⟨hne, hj⟩
    · rw [hreq] at hnot
      cases hnot
    · obtain ⟨hstatus, hown⟩ := hi.owned j q hj hnot hphase
      exact ⟨hstatus, hown.imp_right fun h => exists_stopping hk h fun hself => absurd (hstop j hself) hne⟩
  told j q hj hset hrun := by
    rcases Calls.get_set hj with ⟨rfl, rfl⟩ | ⟨hne, hj⟩
    · exact htold hrun
    · exact exists_stopping hk (hi.told j q hj hset hrun) fun hself => absurd (hstop j hself) hne
  marked r hr j hj := by
    have hother : (∃ q : Job, t.jobs[j]? = some q ∧ q.cancelRequested = true) →
        ∃ q, (t.jobs.set i job')[j]? = some q ∧ q.cancelRequested = true := by
      rintro ⟨q, hq, hset⟩
      by_cases hij : i = j
      · subst hij
        exact ⟨job', get_set_self hjob, hreq⟩
      · exact ⟨q, (List.getElem?_set_ne hij).trans hq, hset⟩
    rcases List.mem_append.mp hr with hr | hr
    · rw [hmarked r hr j hj]
      exact ⟨job', get_set_self hjob, hreq⟩
    · exact hother (hi.marked r (List.mem_of_mem_eraseIdx hr) j hj)
  known j q hj hphase := by
    rcases Calls.get_set hj with ⟨rfl, rfl⟩ | ⟨-, hj⟩
    · exact hknown hphase
    · exact hi.known j q hj hphase

/-- Told to stop when its process is stored, a job that waits is not left running. -/
theorem not_unstopped_signal (hi : Inv t) {i : Nat} {job : Job} (hjob : t.jobs[i]? = some job) :
    ¬ (if job.known then job.terminate else job).Unstopped := by
  intro hrun
  cases hknown : job.known with
  | true =>
    rw [hknown, if_pos rfl] at hrun
    exact not_unstopped_terminate job hrun
  | false =>
    rw [hknown] at hrun
    rw [hi.known i job hjob (.inr hrun.1)] at hknown
    cases hknown

theorem Inv.signal (hi : Inv t) {k i : Nat} {request : Request} {next : List Request} {job : Job}
    (hk : t.requests[k]? = some request) (hjob : t.jobs[i]? = some job) (hmark : request.marked = some i)
    (hstop : ∀ j, request.stopping = some j → j = i) (hmarked : ∀ r ∈ next, ∀ j, r.marked = some j → j = i) :
    Inv { t with
      jobs := t.jobs.set i (if job.known then job.terminate else job)
      requests := next ++ t.requests.eraseIdx k } := by
  have hreq : job.cancelRequested = true := by
    obtain ⟨q, hq, hreq⟩ := hi.marked request (List.mem_of_getElem? hk) i hmark
    rw [hjob] at hq
    cases hq
    exact hreq
  refine hi.mark hk hjob ?_ hstop (fun hrun => absurd hrun (not_unstopped_signal hi hjob)) hmarked ?_
  · split <;> exact hreq
  · split <;> exact hi.known i job hjob

/-- A new request has marked nothing. -/
theorem Inv.request (hi : Inv t) {request : Request} (hquiet : request.marked = none) :
    Inv { t with requests := t.requests ++ [request] } where
  owned i job hjob hreq hphase := by
    obtain ⟨hstatus, hown⟩ := hi.owned i job hjob hreq hphase
    refine ⟨hstatus, hown.imp_right ?_⟩
    rintro ⟨r, hr, hstop⟩
    exact ⟨r, List.mem_append_left _ hr, hstop⟩
  told i job hjob hreq hrun := by
    obtain ⟨r, hr, hstop⟩ := hi.told i job hjob hreq hrun
    exact ⟨r, List.mem_append_left _ hr, hstop⟩
  marked r hr i hmarked := by
    rcases List.mem_append.mp hr with hr | hr
    · exact hi.marked r hr i hmarked
    · rw [List.mem_singleton.mp hr, hquiet] at hmarked
      cases hmarked
  known := hi.known

/-- Clearing a lane hands its job to the reset. -/
theorem Inv.clear (hi : Inv t) {k : Nat} {lane : Lane} {lanes : List Lane} {next : Request}
    (hk : t.requests[k]? = some (.resetLane (lane :: lanes)))
    (hnext : ∀ i, activeJob t lane = some i → next.stopping = some i) (hquiet : next.marked = none) :
    Inv { t with
      active := Function.update t.active lane none
      requests := [next] ++ t.requests.eraseIdx k } := by
  refine hi.requests hk rfl (fun i job hjob _ hstatus hown => ?_) (fun r hr i hmarked => ?_)
  · by_cases hlane : job.lane = lane
    · refine .inr ⟨next, List.mem_singleton_self _, hnext i ?_⟩
      subst hlane
      exact Option.filter_eq_some_iff.mpr ⟨hown, by simp [hjob, hstatus]⟩
    · exact .inl ((Function.update_of_ne hlane _ _).trans hown)
  · rw [List.mem_singleton.mp hr, hquiet] at hmarked
    cases hmarked

theorem Inv.advance (hi : Inv t) {k : Nat} {request : Request} {next : Tracker × Option Request}
    (hk : t.requests[k]? = some request) (h : requestStep t request = some next) :
    Inv { next.1 with requests := next.2.toList ++ t.requests.eraseIdx k } := by
  have hmem := List.mem_of_getElem? hk
  have hone : ∀ {r : Request} {i : Nat}, (∀ j, r.marked = some j → j = i) →
      ∀ q ∈ [r], ∀ j, q.marked = some j → j = i := by
    intro r i hr q hq j hj
    rw [List.mem_singleton.mp hq] at hj
    exact hr j hj
  cases request with
  | cancelMark i =>
    obtain ⟨t', hset, rfl⟩ := Option.map_eq_some_iff.mp h
    obtain ⟨job, job', hjob, hf, rfl⟩ := setJob_ok hset
    cases hf
    refine hi.mark hk hjob rfl (fun j hj => by cases hj) (fun _ => ⟨_, List.mem_cons_self, rfl⟩)
      (hone fun j hj => by cases hj; rfl) (hi.known i job hjob)
  | cancelSignal i =>
    obtain ⟨t', hset, rfl⟩ := Option.map_eq_some_iff.mp h
    obtain ⟨job, job', hjob, hf, rfl⟩ := setJob_ok hset
    cases hf
    exact hi.signal hk hjob rfl (fun j hj => by cases hj; rfl) (fun r hr => by cases hr)
  | resetLane lanes =>
    cases lanes with
    | nil =>
      cases h
      exact hi.requests hk rfl (fun _ _ _ _ _ hown => .inl hown) (fun r hr => by cases hr)
    | cons lane lanes =>
      simp only [requestStep] at h
      cases hactive : activeJob t lane with
      | none =>
        rw [hactive] at h
        cases h
        exact hi.clear hk (fun i hi' => by rw [hactive] at hi'; cases hi') rfl
      | some i =>
        rw [hactive] at h
        cases h
        exact hi.clear hk (fun j hj => by rw [hactive] at hj; exact hj) rfl
  | resetMark i lanes =>
    obtain ⟨t', hset, rfl⟩ := Option.map_eq_some_iff.mp h
    obtain ⟨job, job', hjob, hf, rfl⟩ := setJob_ok hset
    cases hf
    exact hi.mark hk hjob rfl (fun j hj => by cases hj; rfl) (fun _ => ⟨_, List.mem_cons_self, rfl⟩)
      (hone fun j hj => by cases hj; rfl) (hi.known i job hjob)
  | resetSignal i lanes =>
    obtain ⟨t', hset, rfl⟩ := Option.map_eq_some_iff.mp h
    obtain ⟨job, job', hjob, hf, rfl⟩ := setJob_ok hset
    cases hf
    exact hi.signal hk hjob rfl (fun j hj => by cases hj; rfl) (hone fun j hj => by cases hj; rfl)
  | resetCheck i lanes =>
    simp only [requestStep] at h
    split at h
    · cases h
    · next job hjob =>
      cases h
      refine hi.requests hk rfl (fun _ _ _ _ _ hown => .inl hown) (fun r hr j hj => ?_)
      rw [Option.toList_some, List.mem_singleton] at hr
      subst hr
      split at hj
      · cases hj
      · exact hj
  | resetStatus i lanes =>
    obtain ⟨t', hset, rfl⟩ := Option.map_eq_some_iff.mp h
    obtain ⟨job, job', hjob, hf, rfl⟩ := setJob_ok hset
    cases hf
    obtain ⟨q, hq, hreq⟩ := hi.marked _ hmem i rfl
    rw [hjob] at hq
    cases hq
    refine hi.mark hk hjob hreq (fun j hj => by cases hj) (fun hrun => ?_) (hone fun j hj => by cases hj)
      (hi.known i job hjob)
    exact exists_stopping hk (hi.told i job hjob hreq hrun) fun hself => by cases hself

theorem Inv.step {a : Action} (hi : Inv t) (h : step t a = some t') : Inv t' := by
  cases a with
  | start jobName =>
    simp only [EtlApi.step] at h
    split at h
    · cases h
    · split at h
      · cases h
      · next hfree =>
        cases h
        exact hi.start (not_not.mp hfree)
  | thread i starts =>
    obtain ⟨job, job', hjob, hf, rfl⟩ := setJob_ok h
    exact hi.thread hjob hf
  | exit i code =>
    obtain ⟨job, job', hjob, hf, rfl⟩ := setJob_ok h
    exact hi.exit hjob hf
  | cancel i =>
    simp only [EtlApi.step] at h
    split at h
    · cases h
    · split at h
      · cases h
      · cases h
        exact hi.request rfl
  | reset =>
    simp only [EtlApi.step] at h
    split at h
    · cases h
    · cases h
      exact hi.request rfl
  | advance k =>
    simp only [EtlApi.step] at h
    split at h
    · cases h
    · next request hk =>
      obtain ⟨next, hnext, rfl⟩ := Option.map_eq_some_iff.mp h
      exact hi.advance hk hnext

end

/-- A job runs, a reset stops it, and the next job of the lane runs. -/
def resetAndStart : List Action :=
  [.start none, .thread 0 true, .thread 0 true, .thread 0 true, .thread 0 true, .reset] ++
    List.replicate 7 (.advance 0) ++ [.start none, .thread 1 true, .thread 1 true, .thread 1 true, .thread 1 true]

end SalesDashboard.EtlApi
