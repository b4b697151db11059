import SalesDashboard.EtlPlatform.Registry
import SalesDashboard.Lib.Topological
import SalesDashboard.Lib.Loops
import Mathlib

/-! What a validated registry guarantees: its jobs have an order in which dependencies
come first, and `taskOrder` lists the tasks of a job in such an order. -/

namespace SalesDashboard.EtlPlatform
open Topological

/-! ## The definitions -/

def Registry.names (reg : Registry) : List String := reg.jobs.map (·.name)

theorem Registry.getJob_eq_some {reg : Registry} {name : String} {job : JobSpec} :
    reg.getJob name = some job ↔ job ∈ reg.jobs ∧ job.name = name := by
  unfold Registry.getJob
  constructor
  · intro h
    exact ⟨List.mem_of_find?_eq_some h, by simpa using List.find?_some h⟩
  · rintro ⟨hmem, rfl⟩
    obtain ⟨pre, post, hjobs⟩ := List.append_of_mem hmem
    have hnames := reg.jobNames
    rw [hjobs, List.map_append, List.map_cons, List.nodup_append] at hnames
    rw [hjobs, List.find?_append, List.find?_eq_none.mpr, Option.none_or, List.find?_cons_of_pos]
    · simp
    · intro other hother heq
      exact hnames.2.2 _ (List.mem_map_of_mem hother) _ List.mem_cons_self (by simpa using heq)

theorem Registry.eq_of_name {reg : Registry} {job other : JobSpec} (hjob : job ∈ reg.jobs)
    (hother : other ∈ reg.jobs) (hname : job.name = other.name) : job = other := by
  have hget := Registry.getJob_eq_some.mpr ⟨hjob, hname⟩
  rw [Registry.getJob_eq_some.mpr ⟨hother, rfl⟩] at hget
  exact (Option.some.inj hget).symm

theorem Registry.exists_getJob {reg : Registry} {name : String} (h : name ∈ reg.names) :
    ∃ job, reg.getJob name = some job := by
  obtain ⟨job, hjob, hname⟩ := List.mem_map.mp h
  exact ⟨job, Registry.getJob_eq_some.mpr ⟨hjob, hname⟩⟩

theorem Registry.mem_names {reg : Registry} {name : String} {job : JobSpec}
    (h : reg.getJob name = some job) : name ∈ reg.names := by
  obtain ⟨hjob, rfl⟩ := Registry.getJob_eq_some.mp h
  exact List.mem_map_of_mem hjob

theorem Registry.jobDeps_of_getJob {reg : Registry} {name : String} {job : JobSpec}
    (h : reg.getJob name = some job) : reg.jobDeps name = job.dependsOnJobs := by
  rw [Registry.jobDeps, h]
  rfl

/-- Every job that one depends on is there. -/
def Registry.JobsKnown (reg : Registry) : Prop :=
  ∀ job ∈ reg.jobs, ∀ dep ∈ job.dependsOnJobs, dep ∈ reg.names

theorem known_of_problems {reg : Registry} (h : problems reg = []) : reg.JobsKnown := by
  intro job hjob dep hdep
  have hnone : jobProblems reg job = [] := by
    have hall := (List.append_eq_nil_iff.mp (List.append_eq_nil_iff.mp h).1).2
    exact List.flatMap_eq_nil_iff.mp hall job hjob
  have hunknown := (List.append_eq_nil_iff.mp (List.append_eq_nil_iff.mp hnone).1).2
  rw [List.map_eq_nil_iff, List.filter_eq_nil_iff] at hunknown
  simpa [Registry.names] using hunknown dep hdep

/-! ## The cycle check -/

/-- What the cycle check has finished while the jobs of the path are in state 1. -/
structure Finished (reg : Registry) (path done : List String) : Prop where
  inOrder : InOrder reg.jobDeps done
  nodup : done.Nodup
  known : ∀ name ∈ done, name ∈ reg.names
  off : ∀ name ∈ path, name ∉ done

theorem Finished.start (reg : Registry) : Finished reg [] [] :=
  ⟨inOrder_nil, .nil, by simp, by simp⟩

theorem Finished.enter {reg : Registry} {path done : List String} (h : Finished reg path done)
    {name : String} (hname : name ∉ done) : Finished reg (path ++ [name]) done := by
  refine { h with off := fun n hn => ?_ }
  rcases List.mem_append.mp hn with hn | hn
  · exact h.off n hn
  · exact List.mem_singleton.mp hn ▸ hname

theorem Finished.leave {reg : Registry} {path done : List String} {name : String}
    (h : Finished reg (path ++ [name]) done) (hpath : name ∉ path) (hname : name ∈ reg.names)
    (hdeps : ∀ dep ∈ reg.jobDeps name, dep ∈ done) : Finished reg path (done ++ [name]) where
  inOrder := h.inOrder.concat hdeps
  nodup := by
    refine List.nodup_append.mpr ⟨h.nodup, List.nodup_singleton name, fun a ha b hb heq => ?_⟩
    cases List.mem_singleton.mp hb
    exact h.off name (by simp) (heq ▸ ha)
  known n hn := by
    rcases List.mem_append.mp hn with hn | hn
    · exact h.known n hn
    · exact List.mem_singleton.mp hn ▸ hname
  off n hn hmem := by
    rcases List.mem_append.mp hmem with hmem | hmem
    · exact h.off n (List.mem_append_left _ hn) hmem
    · exact hpath (List.mem_singleton.mp hmem ▸ hn)

/-- A visit ends with the job finished, or it finds a cycle. -/
def VisitEnds (reg : Registry) (path : List String) (name : String) (done : List String)
    (result : Except RegistryError (List String)) : Prop :=
  (∃ done', result = .ok done' ∧ Finished reg path done' ∧ name ∈ done' ∧ ∀ n ∈ done, n ∈ done') ∨
    Cyclic reg.jobDeps ∧ ∃ cycle, result = .error (.jobCycle cycle)

/-- The visits of one loop. -/
theorem visits_cases {reg : Registry} {path : List String} {fuel : Nat} (names : List String) {done : List String}
    (hvisit : ∀ name ∈ names, ∀ c, Finished reg path c → VisitEnds reg path name c (visit reg fuel path name c))
    (hdone : Finished reg path done) :
    (∃ done', names.foldlM (fun done name => visit reg fuel path name done) done = .ok done' ∧
      Finished reg path done' ∧ (∀ n ∈ done, n ∈ done') ∧ ∀ n ∈ names, n ∈ done') ∨
    Cyclic reg.jobDeps ∧
      ∃ cycle, names.foldlM (fun done name => visit reg fuel path name done) done = .error (.jobCycle cycle) := by
  have hstep : ∀ pre name c c', pre ++ [name] <+: names →
      (Finished reg path c ∧ (∀ n ∈ done, n ∈ c) ∧ ∀ n ∈ pre, n ∈ c) → visit reg fuel path name c = .ok c' →
      Finished reg path c' ∧ (∀ n ∈ done, n ∈ c') ∧ ∀ n ∈ pre ++ [name], n ∈ c' := by
    rintro pre name c c' hpre ⟨hfinished, hsub, hall⟩ hc'
    rcases hvisit name (hpre.subset (by simp)) c hfinished with ⟨c'', hc'', hfinished', hmem, hsub'⟩ | ⟨-, cycle, hcycle⟩
    · rw [hc'] at hc''
      cases hc''
      refine ⟨hfinished', fun n hn => hsub' n (hsub n hn), fun n hn => ?_⟩
      rcases List.mem_append.mp hn with hn | hn
      · exact hsub' n (hall n hn)
      · exact List.mem_singleton.mp hn ▸ hmem
    · rw [hc'] at hcycle
      cases hcycle
  rcases Loops.foldlM_cases names _ ⟨hdone, fun _ => id, by simp⟩ hstep with
    hok | ⟨pre, name, c, e, hpre, ⟨hfinished, -, -⟩, he, hfold⟩
  · exact .inl hok
  · rcases hvisit name (hpre.subset (by simp)) c hfinished with ⟨c', hc', -⟩ | ⟨hcyclic, cycle, hcycle⟩
    · rw [he] at hc'
      cases hc'
    · rw [he] at hcycle
      cases hcycle
      exact .inr ⟨hcyclic, cycle, hfold⟩

/-- Names of jobs, none twice. -/
structure JobPath (reg : Registry) (path : List String) : Prop where
  nodup : path.Nodup
  known : ∀ n ∈ path, n ∈ reg.names

theorem JobPath.nil (reg : Registry) : JobPath reg [] := ⟨.nil, by simp⟩

theorem JobPath.length_le {reg : Registry} {path : List String} (h : JobPath reg path) :
    path.length ≤ reg.jobs.length := by
  have hle := (h.nodup.subperm h.known).length_le
  rwa [Registry.names, List.length_map] at hle

theorem JobPath.snoc {reg : Registry} {path : List String} (h : JobPath reg path) {name : String}
    (hname : name ∈ reg.names) (hin : name ∉ path) : JobPath reg (path ++ [name]) where
  nodup := by
    refine List.nodup_append.mpr ⟨h.nodup, List.nodup_singleton name, fun a ha b hb heq => ?_⟩
    cases List.mem_singleton.mp hb
    exact hin (heq ▸ ha)
  known n hn := by
    rcases List.mem_append.mp hn with hn | hn
    · exact h.known n hn
    · exact List.mem_singleton.mp hn ▸ hname

theorem needsAll_snoc {reg : Registry} {path : List String} {name dep : String}
    (h : ∀ n ∈ path, NeedsAll reg.jobDeps n name) (hdep : dep ∈ reg.jobDeps name) :
    ∀ n ∈ path ++ [name], NeedsAll reg.jobDeps n dep := by
  intro n hn
  rcases List.mem_append.mp hn with hn | hn
  · exact .tail (h n hn) hdep
  · exact List.mem_singleton.mp hn ▸ .single hdep

/-- A path within the jobs has no more names than they have, so the recursion ends. -/
theorem visit_ends {reg : Registry} (hreg : reg.JobsKnown) (fuel : Nat) :
    ∀ {path : List String} {name : String} {done : List String}, name ∈ reg.names →
      JobPath reg path → (∀ n ∈ path, NeedsAll reg.jobDeps n name) →
      path.length + fuel = reg.jobs.length + 1 → Finished reg path done →
      VisitEnds reg path name done (visit reg fuel path name done) := by
  induction fuel with
  | zero =>
    intro path name done _ hpath _ hlen _
    have hle := hpath.length_le
    omega
  | succ fuel ih =>
    intro path name done hname hpath hneeds hlen hdone
    rw [visit]
    by_cases hin : name ∈ path
    · exact .inr ⟨⟨name, hneeds name hin⟩, _, if_pos hin⟩
    rw [if_neg hin]
    by_cases hfin : name ∈ done
    · exact .inl ⟨done, if_pos hfin, hdone, hfin, fun _ => id⟩
    rw [if_neg hfin]
    obtain ⟨job, hjob⟩ := reg.exists_getJob hname
    have hjobDeps := Registry.jobDeps_of_getJob hjob
    have hdeps : ∀ dep ∈ job.dependsOnJobs, dep ∈ reg.names :=
      hreg job (Registry.getJob_eq_some.mp hjob).1
    have hlen' : (path ++ [name]).length + fuel = reg.jobs.length + 1 := by
      rw [List.length_append, List.length_singleton]
      omega
    simp only [hjob]
    rcases visits_cases job.dependsOnJobs (fun dep hdep c hc =>
        ih (hdeps dep hdep) (hpath.snoc hname hin) (needsAll_snoc hneeds (hjobDeps ▸ hdep)) hlen' hc)
        (hdone.enter hfin)
      with ⟨c, hc, hfinished, hsub, hall⟩ | ⟨hcyclic, cycle, hcycle⟩
    · refine .inl ⟨c ++ [name], by rw [hc], hfinished.leave hin hname (hjobDeps ▸ hall), by simp, fun n hn => ?_⟩
      exact List.mem_append_left _ (hsub n hn)
    · exact .inr ⟨hcyclic, cycle, by rw [hcycle]⟩

/-- The cycle check gives an order of the jobs, or a cycle. -/
theorem checkJobCycles_cases {reg : Registry} (hreg : reg.JobsKnown) :
    (∃ order, checkJobCycles reg = .ok order ∧ Finished reg [] order ∧ ∀ n ∈ reg.names, n ∈ order) ∨
      Cyclic reg.jobDeps ∧ ∃ cycle, checkJobCycles reg = .error (.jobCycle cycle) := by
  rcases visits_cases reg.names (fun name hname c hc => visit_ends hreg (reg.jobs.length + 1)
      hname (.nil reg) (by simp) (by simp) hc) (.start reg) with ⟨order, horder, hfinished, -, hall⟩ | hcycle
  · exact .inl ⟨order, horder, hfinished, hall⟩
  · exact .inr hcycle

/-! ## The order of a job's tasks -/

theorem release_foldl (members : List String) (names : List String) (s : Sorting) :
    (names.foldl (Sorting.release members) s).ordered = s.ordered ∧ ∀ x,
      (names.foldl (Sorting.release members) s).indegree x = s.indegree x - names.count x ∧
      (names.foldl (Sorting.release members) s).ready.count x =
        s.ready.count x + if 0 < s.indegree x ∧ s.indegree x ≤ names.count x then 1 else 0 := by
  induction names generalizing s with
  | nil =>
    refine ⟨rfl, fun x => ⟨by simp, ?_⟩⟩
    rw [if_neg (by simp only [List.count_nil]; omega)]
    rfl
  | cons next names ih =>
    rw [List.foldl_cons]
    obtain ⟨hordered, hcounts⟩ := ih (s.release members next)
    refine ⟨hordered, fun x => ?_⟩
    obtain ⟨hindegree, hready⟩ := hcounts x
    rw [hindegree, hready, List.count_cons]
    by_cases hx : x = next
    · subst hx
      have hind : (s.release members x).indegree x = s.indegree x - 1 := by
        simp [Sorting.release]
      have hcount : (s.release members x).ready.count x =
          s.ready.count x + if s.indegree x = 1 then 1 else 0 := by
        simp only [Sorting.release, Function.update_self]
        by_cases hone : s.indegree x = 1
        · rw [if_pos (by omega), if_pos hone, (List.perm_insertionSort _ _).count_eq]
          simp
        · rw [if_neg (by omega), if_neg hone]
          rfl
      rw [hind, hcount, if_pos (by simp)]
      refine ⟨by push_cast; omega, ?_⟩
      push_cast
      split_ifs <;> omega
    · have hind : (s.release members next).indegree x = s.indegree x := by
        simp [Sorting.release, Function.update_of_ne hx]
      have hcount : (s.release members next).ready.count x = s.ready.count x := by
        simp only [Sorting.release, Function.update_self]
        split
        · rw [(List.perm_insertionSort _ _).count_eq, List.count_append,
            List.count_singleton, if_neg (by simpa using Ne.symm hx), add_zero]
        · rfl
      rw [hind, hcount, if_neg (by simpa using Ne.symm hx)]
      simp

/-- What the dependencies of a task inside the job are. -/
def memberDeps (reg : Registry) (members : List String) (name : String) : List String :=
  (reg.taskDeps name).filter (· ∈ members)

theorem count_flatMap_own {members : List String} (f : String → List String) (x : String) :
    (members.flatMap fun m => (f m).map fun _ => m).count x = members.count x * (f x).length := by
  induction members with
  | nil => simp
  | cons m members ih =>
    have hmap : ((f m).map fun _ => m) = List.replicate (f m).length m :=
      List.eq_replicate_iff.mpr ⟨by simp, by simp⟩
    rw [List.flatMap_cons, List.count_append, ih, hmap, List.count_replicate, List.count_cons, Nat.add_mul]
    by_cases hm : m = x
    · subst hm
      simp [Nat.add_comm]
    · simp [hm]

theorem indegrees_eq (reg : Registry) (members : List String) (x : String) :
    indegrees reg members x = (members.count x * (memberDeps reg members x).length : Nat) := by
  rw [indegrees, count_flatMap_own]
  rfl

theorem count_dependents (reg : Registry) (members : List String) (dep x : String) :
    (dependents reg members dep).count x = members.count x * (reg.taskDeps x).count dep := by
  rw [dependents, count_flatMap_own, ← List.countP_eq_length_filter]
  rfl

theorem sum_count_eq {xs : List String} (hxs : xs.Nodup) (l : List String) :
    (xs.map fun o => l.count o).sum = (l.filter (· ∈ xs)).length := by
  induction l with
  | nil => simp
  | cons a l ih =>
    have hone : (xs.map fun o => if a == o then 1 else 0).sum = if a ∈ xs then 1 else 0 := by
      rw [← hxs.count]
      clear hxs ih
      induction xs with
      | nil => rfl
      | cons x xs ih =>
        rw [List.map_cons, List.sum_cons, ih, List.count_cons, Nat.add_comm, BEq.comm]
    simp only [List.count_cons, List.sum_map_add, ih, hone, List.filter_cons]
    split_ifs <;> simp_all

/-- The loop over the ready tasks: what is left of each `indegree`, and that a task gets
ready when its own is used up. -/
structure Sorted (reg : Registry) (members : List String) (s : Sorting) : Prop where
  indegree : ∀ x, s.indegree x =
    indegrees reg members x - ((s.ordered.flatMap (dependents reg members)).count x : Nat)
  counted : ∀ x, (s.ready ++ s.ordered).count x =
    if indegrees reg members x = 0 then members.count x else if s.indegree x ≤ 0 then 1 else 0
  inOrder : members.Nodup → InOrder (memberDeps reg members) s.ordered

theorem Sorted.count_le {reg : Registry} {members : List String} {s : Sorting} (h : Sorted reg members s)
    (x : String) : (s.ready ++ s.ordered).count x ≤ members.count x := by
  rw [h.counted x]
  have hind := indegrees_eq reg members x
  by_cases hx : members.count x = 0
  · rw [if_pos (by rw [hind, hx, Nat.zero_mul]; rfl)]
  · split_ifs <;> omega

theorem Sorted.start (reg : Registry) (members : List String) :
    Sorted reg members (firstReady reg members) where
  indegree x := by simp [firstReady]
  counted x := by
    have hnonneg : 0 ≤ indegrees reg members x := by
      rw [indegrees_eq]
      exact Int.natCast_nonneg _
    have hready : ((firstReady reg members).ready ++ (firstReady reg members).ordered).count x =
        (members.filter fun name => indegrees reg members name = 0).count x := by
      simp only [firstReady, List.append_nil, (List.perm_insertionSort _ _).count_eq]
    have hind : (firstReady reg members).indegree x = indegrees reg members x := rfl
    rw [hready, hind]
    by_cases hx : indegrees reg members x = 0
    · rw [if_pos hx, List.count_filter (by simpa using hx)]
    · rw [if_neg hx, if_neg (by omega), List.count_eq_zero]
      simp [hx]
  inOrder _ := inOrder_nil

theorem Sorted.nodup_ordered {reg : Registry} {members : List String} {s : Sorting} (h : Sorted reg members s)
    (hn : members.Nodup) : s.ordered.Nodup := by
  refine List.nodup_iff_count_le_one.mpr fun x => ?_
  have hle := h.count_le x
  have hone := List.nodup_iff_count_le_one.mp hn x
  rw [List.count_append] at hle
  omega

theorem Sorted.mem_of_ordered {reg : Registry} {members : List String} {s : Sorting} (h : Sorted reg members s)
    {x : String} (hx : x ∈ s.ordered) : x ∈ members := by
  refine List.count_pos_iff.mp (Nat.lt_of_lt_of_le ?_ (h.count_le x))
  exact List.count_pos_iff.mpr (List.mem_append_right _ hx)

/-- What the ordered tasks have taken from the `indegree` of a task. -/
theorem Sorted.taken {reg : Registry} {members : List String} {s : Sorting} (h : Sorted reg members s)
    (hn : members.Nodup) {x : String} (hx : x ∈ members) :
    (s.ordered.flatMap (dependents reg members)).count x =
      ((memberDeps reg members x).filter (· ∈ s.ordered)).length := by
  have hmem : members.count x = 1 := List.count_eq_one_of_mem hn hx
  have hsame : ((reg.taskDeps x).filter (· ∈ s.ordered)).length =
      ((memberDeps reg members x).filter (· ∈ s.ordered)).length := by
    rw [memberDeps, List.filter_filter]
    congr 1
    refine List.filter_congr fun d _ => ?_
    by_cases hd : d ∈ s.ordered
    · simp [hd, h.mem_of_ordered hd]
    · simp [hd]
  rw [List.count_flatMap, ← hsame, ← sum_count_eq (h.nodup_ordered hn)]
  congr 1
  refine List.map_congr_left fun o _ => ?_
  rw [Function.comp_apply, count_dependents, hmem, Nat.one_mul]

/-- All dependencies of a ready task inside the job are ordered. -/
theorem Sorted.ready_deps {reg : Registry} {members : List String} {s : Sorting} (h : Sorted reg members s)
    (hn : members.Nodup) {x : String} (hx : x ∈ s.ready) :
    ∀ d ∈ memberDeps reg members x, d ∈ s.ordered := by
  have hone : (s.ready ++ s.ordered).count x ≤ members.count x := h.count_le x
  have hpos : 0 < (s.ready ++ s.ordered).count x :=
    List.count_pos_iff.mpr (List.mem_append_left _ hx)
  have hin : x ∈ members := List.count_pos_iff.mp (by omega)
  have hmem : members.count x = 1 := List.count_eq_one_of_mem hn hin
  have hle : s.indegree x ≤ 0 := by
    have hcount := h.counted x
    have hind := h.indegree x
    split_ifs at hcount <;> omega
  have hlen : (memberDeps reg members x).length ≤ ((memberDeps reg members x).filter (· ∈ s.ordered)).length := by
    have hind := h.indegree x
    rw [indegrees_eq, hmem, h.taken hn hin] at hind
    omega
  have hall := List.length_filter_eq_length_iff.mp (le_antisymm (List.length_filter_le _ _) hlen)
  exact fun d hd => by simpa using hall d hd

/-- A task whose dependencies inside the job are all ordered is ready, or it is ordered. -/
theorem Sorted.mem_ready {reg : Registry} {members : List String} {s : Sorting} (h : Sorted reg members s)
    (hn : members.Nodup) {x : String} (hx : x ∈ members) (hnot : x ∉ s.ordered)
    (hdeps : ∀ d ∈ memberDeps reg members x, d ∈ s.ordered) : x ∈ s.ready := by
  have hmem : members.count x = 1 := List.count_eq_one_of_mem hn hx
  have hall : (memberDeps reg members x).filter (· ∈ s.ordered) = memberDeps reg members x :=
    List.filter_eq_self.mpr fun d hd => decide_eq_true (hdeps d hd)
  have hzero : s.indegree x = 0 := by
    rw [h.indegree, indegrees_eq, hmem, h.taken hn hx, hall, Nat.one_mul, sub_self]
  have hcount := h.counted x
  rw [hzero, hmem, if_pos le_rfl, ite_self, List.count_append, List.count_eq_zero.mpr hnot] at hcount
  exact List.count_pos_iff.mp (by omega)

/-- One turn of the loop over the ready tasks. -/
theorem Sorted.next {reg : Registry} {members : List String} {indegree : String → Int} {current : String}
    {rest ordered : List String} (h : Sorted reg members ⟨indegree, current :: rest, ordered⟩) :
    Sorted reg members ((dependents reg members current).foldl (Sorting.release members)
      ⟨indegree, rest, ordered ++ [current]⟩) := by
  obtain ⟨hordered, hcounts⟩ := release_foldl members (dependents reg members current)
    ⟨indegree, rest, ordered ++ [current]⟩
  refine ⟨fun x => ?_, fun x => ?_, fun hn => ?_⟩
  · rw [(hcounts x).1, hordered, List.flatMap_append, List.count_append]
    have hind := h.indegree x
    simp only [List.flatMap_cons, List.flatMap_nil, List.append_nil] at hind ⊢
    push_cast
    omega
  · rw [List.count_append, (hcounts x).2, hordered, (hcounts x).1]
    have hcount := h.counted x
    have hind := h.indegree x
    simp only [List.count_append, List.count_cons, List.count_nil] at hcount hind ⊢
    split_ifs at hcount ⊢ <;> omega
  · rw [hordered]
    exact (h.inOrder hn).concat (h.ready_deps hn List.mem_cons_self)

theorem Sorted.ordered_count_le {reg : Registry} {members : List String} {s : Sorting} (h : Sorted reg members s)
    (x : String) : s.ordered.count x ≤ members.count x := by
  have := h.count_le x
  rw [List.count_append] at this
  omega

theorem sortTasks_spec {reg : Registry} {members : List String} (fuel : Nat) {s : Sorting}
    (h : Sorted reg members s) :
    (∀ x, (sortTasks reg members fuel s).count x ≤ members.count x) ∧
      (members.Nodup → InOrder (memberDeps reg members) (sortTasks reg members fuel s)) := by
  induction fuel generalizing s with
  | zero => exact ⟨h.ordered_count_le, h.inOrder⟩
  | succ fuel ih =>
    obtain ⟨indegree, ready, ordered⟩ := s
    cases ready with
    | nil => exact ⟨h.ordered_count_le, h.inOrder⟩
    | cons current rest => exact ih h.next

theorem taskOrder_eq_ok {reg : Registry} {job : JobSpec} {order : List String} (h : taskOrder reg job = .ok order) :
    order = sortTasks reg job.tasks job.tasks.length (firstReady reg job.tasks) ∧
      order.length = job.tasks.length := by
  unfold taskOrder at h
  split at h
  · cases h
  · split at h
    · cases h
    · dsimp only at h
      split_ifs at h with hlen
      cases h
      exact ⟨rfl, not_not.mp hlen⟩

/-- **`taskOrder` lists the tasks of the job, and those of a job that lists none twice
after the ones they depend on.** -/
theorem taskOrder_ok {reg : Registry} {job : JobSpec} {order : List String} (h : taskOrder reg job = .ok order) :
    order.Perm job.tasks ∧ (job.tasks.Nodup → InOrder (memberDeps reg job.tasks) order) := by
  obtain ⟨rfl, hlen⟩ := taskOrder_eq_ok h
  obtain ⟨hcount, hin⟩ := sortTasks_spec job.tasks.length (.start reg job.tasks)
  have hsub := List.subperm_ext_iff.mpr fun x _ => hcount x
  exact ⟨hsub.perm_of_length_le hlen.ge, hin⟩

/-! ## A validated registry -/

/-- The jobs in the order in which the cycle check finishes them. -/
def jobOrder (reg : Registry) : List String :=
  match checkJobCycles reg with
  | .ok order => order
  | .error _ => []

def rank (reg : Registry) (name : String) : Nat := (jobOrder reg).idxOf name

structure Valid (reg : Registry) : Prop where
  known : ∀ name ∈ reg.names, ∀ dep ∈ reg.jobDeps name, dep ∈ reg.names
  rank_lt : ∀ name ∈ reg.names, ∀ dep ∈ reg.jobDeps name, rank reg dep < rank reg name
  rank_bound : ∀ name ∈ reg.names, rank reg name < reg.jobs.length
  ordered : ∀ job ∈ reg.jobs, ∃ order, taskOrder reg job = .ok order

theorem forM_ok {α ε : Type} {f : α → Except ε Unit} {xs : List α} (h : xs.forM f = .ok ()) :
    ∀ x ∈ xs, f x = .ok () := by
  induction xs with
  | nil => simp
  | cons x xs ih =>
    have h' : (f x).bind (fun _ => xs.forM f) = .ok () := h
    cases hx : f x with
    | error e => rw [hx] at h'; cases h'
    | ok u =>
      rw [hx] at h'
      intro y hy
      rcases List.mem_cons.mp hy with rfl | hy
      · exact hx
      · exact ih h' y hy

theorem validate_ok {reg : Registry} (h : validate reg = .ok ()) : Valid reg := by
  unfold validate at h
  split_ifs at h with hreg
  have hreg := known_of_problems (not_not.mp hreg)
  rcases checkJobCycles_cases hreg with ⟨order, horder, hfinished, hall⟩ | ⟨-, cycle, hcycle⟩
  · rw [horder] at h
    have hknown : ∀ name ∈ reg.names, ∀ dep ∈ reg.jobDeps name, dep ∈ reg.names := by
      intro name hname dep hdep
      obtain ⟨job, hjob⟩ := reg.exists_getJob hname
      rw [Registry.jobDeps_of_getJob hjob] at hdep
      exact hreg job (Registry.getJob_eq_some.mp hjob).1 dep hdep
    have hrank : ∀ name, rank reg name = order.idxOf name := fun name => by
      rw [rank, jobOrder, horder]
    refine ⟨hknown, fun name hname dep hdep => ?_, fun name hname => ?_, fun job hjob => ?_⟩
    · rw [hrank, hrank]
      exact hfinished.inOrder.idxOf_lt (hall name hname) hdep
    · have hlt := List.idxOf_lt_length_of_mem (hall name hname)
      have hle := (hfinished.nodup.subperm hfinished.known).length_le
      rw [Registry.names, List.length_map] at hle
      rw [hrank]
      omega
    · have hjob := forM_ok h job hjob
      cases htasks : taskOrder reg job with
      | ok tasks => exact ⟨tasks, rfl⟩
      | error e =>
        rw [htasks] at hjob
        cases hjob
  · rw [hcycle] at h
    cases h

end SalesDashboard.EtlPlatform
