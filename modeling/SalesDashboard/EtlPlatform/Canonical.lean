import SalesDashboard.EtlPlatform.Order

/-! The order of a job's tasks is canonical: of all orders with dependencies first it is
the one that keeps closest to the order in which the job lists them. -/

namespace SalesDashboard.EtlPlatform
open Topological

variable {reg : Registry} {members : List String}

/-! ## The ready tasks by position -/

instance (members : List String) : Std.Total (byPosition members) :=
  ⟨fun a b => Nat.le_total (position members a) (position members b)⟩

instance (members : List String) : IsTrans String (byPosition members) := ⟨fun _ _ _ => Nat.le_trans⟩

theorem position_inj {a b : String} (ha : a ∈ members) (hb : b ∈ members)
    (h : position members a = position members b) : a = b := by
  have hlta := List.idxOf_lt_length_of_mem (List.mem_reverse.mpr ha)
  have hltb := List.idxOf_lt_length_of_mem (List.mem_reverse.mpr hb)
  rw [List.length_reverse] at hlta hltb
  unfold position at h
  exact (List.idxOf_inj (List.mem_reverse.mpr ha)).mp (by omega)

theorem pairwise_release_foldl (names : List String) {s : Sorting}
    (h : s.ready.Pairwise (byPosition members)) :
    (names.foldl (Sorting.release members) s).ready.Pairwise (byPosition members) := by
  induction names generalizing s with
  | nil => exact h
  | cons next names ih =>
    refine ih ?_
    unfold Sorting.release
    dsimp only
    split
    · exact List.pairwise_insertionSort _ _
    · exact h

theorem sortTasks_greedy (hn : members.Nodup) (fuel : Nat) {s : Sorting} (h : Sorted reg members s)
    (hready : s.ready.Pairwise (byPosition members))
    (hgreedy : Greedy (memberDeps reg members) members (position members) s.ordered) :
    Greedy (memberDeps reg members) members (position members) (sortTasks reg members fuel s) := by
  induction fuel generalizing s with
  | zero => exact hgreedy
  | succ fuel ih =>
    obtain ⟨indegree, ready, ordered⟩ := s
    cases ready with
    | nil => exact hgreedy
    | cons current rest =>
      obtain ⟨hfirst, hrest⟩ := List.pairwise_cons.mp hready
      refine ih h.next (pairwise_release_foldl _ hrest) ?_
      rw [(release_foldl members _ _).1]
      refine hgreedy.concat fun c hc hnot hdeps => ?_
      rcases List.mem_cons.mp (h.mem_ready hn hc hnot hdeps) with rfl | hc
      · exact Nat.le_refl _
      · exact hfirst c hc

/-- The loop ends with all tasks ordered, or with none ready. -/
theorem sortTasks_ends (fuel : Nat) {s : Sorting} (h : Sorted reg members s)
    (hlen : s.ordered.length + fuel = members.length) :
    ∃ t : Sorting, Sorted reg members t ∧ sortTasks reg members fuel s = t.ordered ∧
      (t.ready = [] ∨ t.ordered.length = members.length) := by
  induction fuel generalizing s with
  | zero => exact ⟨s, h, rfl, .inr hlen⟩
  | succ fuel ih =>
    obtain ⟨indegree, ready, ordered⟩ := s
    cases ready with
    | nil => exact ⟨_, h, rfl, .inl rfl⟩
    | cons current rest =>
      refine ih h.next ?_
      rw [(release_foldl members _ _).1, List.length_append, List.length_singleton]
      have hlen' : ordered.length + (fuel + 1) = members.length := hlen
      omega

theorem mem_of_needsAll {x d : String} (h : NeedsAll (memberDeps reg members) x d) : d ∈ members := by
  cases h with
  | single hd => exact of_decide_eq_true (List.mem_filter.mp hd).2
  | tail _ hd => exact of_decide_eq_true (List.mem_filter.mp hd).2

/-- The tasks that a job leaves unordered depend on each other. -/
theorem sortTasks_complete_iff (hn : members.Nodup) :
    (sortTasks reg members members.length (firstReady reg members)).length = members.length ↔
      ¬ Cyclic (memberDeps reg members) := by
  obtain ⟨hcount, hin⟩ := sortTasks_spec members.length (.start reg members)
  constructor
  · rintro hlen ⟨x, hx⟩
    have hperm := (List.subperm_ext_iff.mpr fun x _ => hcount x).perm_of_length_le hlen.ge
    exact (hin hn).not_needsAll (hperm.symm.subset (mem_of_needsAll hx)) hx
  · intro hcyclic
    obtain ⟨t, ht, heq, hready | hlen⟩ := sortTasks_ends members.length (.start reg members)
      (Nat.zero_add members.length)
    · rw [heq]
      have hle := (ht.nodup_ordered hn).subperm fun x hx => ht.mem_of_ordered hx
      by_contra hne
      have hleft : ∃ x ∈ members, x ∉ t.ordered := by
        by_contra hall
        push Not at hall
        exact hne (le_antisymm hle.length_le (hn.subperm hall).length_le)
      obtain ⟨x, hx, hnot⟩ := hleft
      have hin : x ∈ members.filter fun n => n ∉ t.ordered :=
        List.mem_filter.mpr ⟨hx, decide_eq_true hnot⟩
      refine hcyclic (cyclic_of_needs hin fun a ha => ?_)
      obtain ⟨ha, haleft⟩ := List.mem_filter.mp ha
      have haleft := of_decide_eq_true haleft
      by_contra hdeps
      push Not at hdeps
      have hmem := ht.mem_ready hn ha haleft fun d hd => by
        by_contra hd'
        exact hdeps d hd (List.mem_filter.mpr
          ⟨of_decide_eq_true (List.mem_filter.mp hd).2, decide_eq_true hd'⟩)
      rw [hready] at hmem
      exact List.not_mem_nil hmem
    · rw [heq]
      exact hlen

/-! ## The tasks of the dependency jobs -/

/-- A job among some, or one that they depend on. -/
def Below (reg : Registry) (names : List String) (n : String) : Prop :=
  ∃ m ∈ names, Relation.ReflTransGen (fun a d => d ∈ reg.jobDeps a) m n

theorem Below.of_dep {names : List String} {name n : String} (hname : name ∈ names)
    (h : Below reg (reg.jobDeps name) n) : Below reg names n := by
  obtain ⟨m, hm, hn⟩ := h
  exact ⟨name, hname, .head hm hn⟩

theorem tasksOfJobs_succ {fuel : Nat} {names out : List String}
    (h : tasksOfJobs reg (fuel + 1) names = some out) {task : String} :
    task ∈ out ↔ ∃ name ∈ names, ∃ job, reg.getJob name = some job ∧
      ∃ inner, tasksOfJobs reg fuel job.dependsOnJobs = some inner ∧ (task ∈ job.tasks ∨ task ∈ inner) := by
  rw [tasksOfJobs, Option.map_eq_some_iff] at h
  obtain ⟨parts, hparts, rfl⟩ := h
  rw [List.mem_flatten]
  constructor
  · rintro ⟨part, hpart, htask⟩
    obtain ⟨name, hname, hf⟩ := (Loops.mem_of_mapM hparts).mp hpart
    cases hjob : reg.getJob name with
    | none =>
      rw [hjob] at hf
      cases hf
      exact absurd htask List.not_mem_nil
    | some job =>
      rw [hjob] at hf
      obtain ⟨inner, hinner, rfl⟩ := Option.map_eq_some_iff.mp hf
      exact ⟨name, hname, job, hjob, inner, hinner, List.mem_append.mp htask⟩
  · rintro ⟨name, hname, job, hjob, inner, hinner, htask⟩
    refine ⟨job.tasks ++ inner, (Loops.mem_of_mapM hparts).mpr ⟨name, hname, ?_⟩, List.mem_append.mpr htask⟩
    simp only [hjob, hinner, Option.map_some]

theorem exists_inner {fuel : Nat} {names out : List String} (h : tasksOfJobs reg (fuel + 1) names = some out)
    {name : String} (hname : name ∈ names) {job : JobSpec} (hjob : reg.getJob name = some job) :
    ∃ inner, tasksOfJobs reg fuel job.dependsOnJobs = some inner := by
  cases hinner : tasksOfJobs reg fuel job.dependsOnJobs with
  | some inner => exact ⟨inner, rfl⟩
  | none =>
    rw [tasksOfJobs, Loops.mapM_eq_none.mpr ⟨name, hname, by simp only [hjob, hinner, Option.map_none]⟩] at h
    cases h

theorem exists_of_mem_jobDeps {name dep : String} (h : dep ∈ reg.jobDeps name) :
    ∃ job, reg.getJob name = some job ∧ dep ∈ job.dependsOnJobs := by
  cases hjob : reg.getJob name with
  | none =>
    rw [Registry.jobDeps, hjob] at h
    exact absurd h List.not_mem_nil
  | some job => exact ⟨job, rfl, Registry.jobDeps_of_getJob hjob ▸ h⟩

/-- What `_tasks_of_jobs` returns. -/
theorem mem_tasksOfJobs {fuel : Nat} {names out : List String} (h : tasksOfJobs reg fuel names = some out)
    {task : String} : task ∈ out ↔ ∃ job ∈ reg.jobs, Below reg names job.name ∧ task ∈ job.tasks := by
  induction fuel generalizing names out with
  | zero => cases h
  | succ fuel ih =>
    rw [tasksOfJobs_succ h]
    constructor
    · rintro ⟨name, hname, job, hjob, inner, hinner, htask | htask⟩
      · obtain ⟨hmem, rfl⟩ := Registry.getJob_eq_some.mp hjob
        exact ⟨job, hmem, ⟨_, hname, .refl⟩, htask⟩
      · obtain ⟨other, hother, hbelow, htask⟩ := (ih hinner).mp htask
        rw [← Registry.jobDeps_of_getJob hjob] at hbelow
        exact ⟨other, hother, hbelow.of_dep hname, htask⟩
    · rintro ⟨job, hmem, ⟨name, hname, hbelow⟩, htask⟩
      rcases hbelow.cases_head with rfl | ⟨dep, hdep, hrest⟩
      · have hjob := Registry.getJob_eq_some.mpr ⟨hmem, rfl⟩
        obtain ⟨inner, hinner⟩ := exists_inner h hname hjob
        exact ⟨_, hname, job, hjob, inner, hinner, .inl htask⟩
      · obtain ⟨next, hnext, hdep⟩ := exists_of_mem_jobDeps hdep
        obtain ⟨inner, hinner⟩ := exists_inner h hname hnext
        exact ⟨name, hname, next, hnext, inner, hinner,
          .inr ((ih hinner).mpr ⟨job, hmem, ⟨dep, hdep, hrest⟩, htask⟩)⟩

/-- `_tasks_of_jobs` returns only where no chain of dependencies goes on for ever. -/
theorem acc_of_tasksOfJobs {fuel : Nat} {names out : List String} (h : tasksOfJobs reg fuel names = some out) :
    ∀ name ∈ names, Acc (fun d a => d ∈ reg.jobDeps a) name := by
  induction fuel generalizing names out with
  | zero => cases h
  | succ fuel ih =>
    intro name hname
    refine .intro name fun dep hdep => ?_
    obtain ⟨job, hjob, hdep⟩ := exists_of_mem_jobDeps hdep
    obtain ⟨inner, hinner⟩ := exists_inner h hname hjob
    exact ih hinner dep hdep

theorem not_needsAll_of_acc {name : String} (h : Acc (fun d a => d ∈ reg.jobDeps a) name) :
    ¬ NeedsAll reg.jobDeps name name := by
  intro hself
  have hswap : Relation.TransGen (fun d a => d ∈ reg.jobDeps a) name name :=
    Relation.transGen_swap.mpr hself
  have hacc := h.transGen
  clear h hself
  induction hacc with
  | intro name _ ih => exact ih name hswap hswap

/-- A path within the jobs has no more names than they have, so without a cycle
`_tasks_of_jobs` returns. -/
theorem exists_tasksOfJobs (fuel : Nat) : ∀ {path names : List String}, JobPath reg path →
    (∀ n ∈ path, ∀ m ∈ names, NeedsAll reg.jobDeps n m) →
    (∀ n, Below reg names n → ¬ NeedsAll reg.jobDeps n n) → path.length + fuel = reg.jobs.length + 1 →
    ∃ out, tasksOfJobs reg fuel names = some out := by
  induction fuel with
  | zero =>
    intro path names hpath _ _ hlen
    have hle := hpath.length_le
    omega
  | succ fuel ih =>
    intro path names hpath hneeds hcycle hlen
    cases hout : tasksOfJobs reg (fuel + 1) names with
    | some out => exact ⟨out, rfl⟩
    | none =>
      rw [tasksOfJobs, Option.map_eq_none_iff] at hout
      obtain ⟨name, hname, hf⟩ := Loops.mapM_eq_none.mp hout
      cases hjob : reg.getJob name with
      | none =>
        rw [hjob] at hf
        cases hf
      | some job =>
        rw [hjob] at hf
        have hjobDeps := Registry.jobDeps_of_getJob hjob
        have hin : name ∉ path := fun hin => hcycle name ⟨name, hname, .refl⟩ (hneeds name hin name hname)
        have hneeds' : ∀ n ∈ path ++ [name], ∀ dep ∈ job.dependsOnJobs, NeedsAll reg.jobDeps n dep :=
          fun n hn dep hdep => needsAll_snoc (fun n hn => hneeds n hn name hname) (hjobDeps ▸ hdep) n hn
        have hcycle' : ∀ n, Below reg job.dependsOnJobs n → ¬ NeedsAll reg.jobDeps n n := fun n hn =>
          hcycle n (.of_dep hname (hjobDeps ▸ hn))
        obtain ⟨inner, hinner⟩ := ih (hpath.snoc (Registry.mem_names hjob) hin) hneeds' hcycle' (by
          rw [List.length_append, List.length_singleton]
          omega)
        simp only [hinner] at hf
        cases hf

/-! ## What `taskOrder` answers -/

/-- What `taskOrder` needs before it sorts: the jobs below have no cycle, the tasks are
there, and what they depend on is in the job or in a job below. -/
structure Resolves (reg : Registry) (job : JobSpec) : Prop where
  noCycle : ∀ n, Below reg job.dependsOnJobs n → ¬ NeedsAll reg.jobDeps n n
  registered : ∀ name ∈ job.tasks, name ∈ reg.tasks.map (·.name)
  provided : ∀ name ∈ job.tasks, ∀ dep ∈ reg.taskDeps name, dep ∉ job.tasks →
    ∃ other ∈ reg.jobs, Below reg job.dependsOnJobs other.name ∧ dep ∈ other.tasks

theorem exists_getTask {name : String} :
    name ∈ reg.tasks.map (·.name) ↔ ∃ task, reg.getTask name = some task := by
  unfold Registry.getTask
  rw [← Option.isSome_iff_exists, List.find?_isSome, List.mem_map]
  simp only [decide_eq_true_eq]

theorem membersError_eq_none {job : JobSpec} {elsewhere : List String} :
    membersError reg job elsewhere = none ↔ ∀ name ∈ job.tasks, name ∈ reg.tasks.map (·.name) ∧
      ∀ dep ∈ reg.taskDeps name, dep ∉ job.tasks → dep ∈ elsewhere := by
  unfold membersError
  rw [List.findSome?_eq_none_iff]
  refine forall₂_congr fun name _ => ?_
  rw [exists_getTask]
  unfold Registry.taskDeps
  cases htask : reg.getTask name with
  | none => simp
  | some task => simp [List.find?_eq_none]

theorem resolves_iff {job : JobSpec} : Resolves reg job ↔
    ∃ elsewhere, tasksOfJobs reg (reg.jobs.length + 1) job.dependsOnJobs = some elsewhere ∧
      membersError reg job elsewhere = none := by
  constructor
  · rintro ⟨hcycle, hregistered, hprovided⟩
    obtain ⟨elsewhere, helsewhere⟩ := exists_tasksOfJobs (reg.jobs.length + 1) (.nil reg)
      (by simp) hcycle (Nat.zero_add _)
    refine ⟨elsewhere, helsewhere, membersError_eq_none.mpr fun name hname => ⟨hregistered name hname, ?_⟩⟩
    exact fun dep hdep hout => (mem_tasksOfJobs helsewhere).mpr (hprovided name hname dep hdep hout)
  · rintro ⟨elsewhere, helsewhere, hmembers⟩
    rw [membersError_eq_none] at hmembers
    refine ⟨?_, fun name hname => (hmembers name hname).1, fun name hname dep hdep hout => ?_⟩
    · rintro n ⟨m, hm, hn⟩
      refine not_needsAll_of_acc ?_
      have hacc := acc_of_tasksOfJobs helsewhere m hm
      induction hn with
      | refl => exact hacc
      | tail _ hdep ih => exact ih.inv hdep
    · exact (mem_tasksOfJobs helsewhere).mp ((hmembers name hname).2 dep hdep hout)

theorem taskOrder_of_resolves {job : JobSpec} (h : Resolves reg job) : taskOrder reg job =
    let ordered := sortTasks reg job.tasks job.tasks.length (firstReady reg job.tasks)
    if ordered.length ≠ job.tasks.length then
      .error (.taskCycle job.name (job.tasks.filter fun n => n ∉ ordered))
    else .ok ordered := by
  obtain ⟨elsewhere, helsewhere, hmembers⟩ := resolves_iff.mp h
  unfold taskOrder
  simp only [helsewhere, hmembers]

theorem membersError_ne_taskCycle {job : JobSpec} {elsewhere : List String} {stuck : List String} :
    membersError reg job elsewhere ≠ some (.taskCycle job.name stuck) := by
  intro h
  obtain ⟨name, -, hname⟩ := List.exists_of_findSome?_eq_some h
  split at hname
  · cases hname
  · obtain ⟨dep, -, hdep⟩ := Option.map_eq_some_iff.mp hname
    cases hdep

theorem resolves_of_sorted {job : JobSpec} (h : (∃ order, taskOrder reg job = .ok order) ∨
    ∃ stuck, taskOrder reg job = .error (.taskCycle job.name stuck)) : Resolves reg job := by
  rw [resolves_iff]
  unfold taskOrder at h
  cases helsewhere : tasksOfJobs reg (reg.jobs.length + 1) job.dependsOnJobs with
  | none => simp [helsewhere] at h
  | some elsewhere =>
    cases hmembers : membersError reg job elsewhere with
    | none => exact ⟨elsewhere, rfl, hmembers⟩
    | some e =>
      simp only [helsewhere, hmembers] at h
      rcases h with ⟨order, h⟩ | ⟨stuck, h⟩
      · cases h
      · cases h
        exact absurd hmembers membersError_ne_taskCycle

/-- `taskOrder` finds a cycle where it gets to sort and there is one. -/
theorem taskOrder_cycle_iff {job : JobSpec} (hn : job.tasks.Nodup) :
    (∃ stuck, taskOrder reg job = .error (.taskCycle job.name stuck)) ↔
      Resolves reg job ∧ Cyclic (memberDeps reg job.tasks) := by
  constructor
  · intro h
    have hresolves := resolves_of_sorted (.inr h)
    refine ⟨hresolves, ?_⟩
    obtain ⟨stuck, h⟩ := h
    rw [taskOrder_of_resolves hresolves] at h
    dsimp only at h
    split_ifs at h with hlen
    by_contra hcyclic
    exact hlen ((sortTasks_complete_iff hn).mpr hcyclic)
  · rintro ⟨hresolves, hcyclic⟩
    have hlen := mt (sortTasks_complete_iff hn).mp (not_not.mpr hcyclic)
    rw [taskOrder_of_resolves hresolves]
    dsimp only
    rw [if_pos hlen]
    exact ⟨_, rfl⟩

/-- The cycle check fails where the jobs have a cycle, and only there. -/
theorem checkJobCycles_iff (hreg : reg.JobsKnown) :
    ((∃ path, checkJobCycles reg = .error (.jobCycle path)) ↔ Cyclic reg.jobDeps) ∧
      ((∃ order, checkJobCycles reg = .ok order) ↔ ¬ Cyclic reg.jobDeps) := by
  rcases checkJobCycles_cases hreg with ⟨order, horder, hfinished, hall⟩ | ⟨hcyclic, cycle, hcycle⟩
  · have hno : ¬ Cyclic reg.jobDeps := by
      rintro ⟨x, hx⟩
      obtain ⟨dep, hdep, -⟩ := Relation.TransGen.head'_iff.mp hx
      obtain ⟨job, hjob, -⟩ := exists_of_mem_jobDeps hdep
      exact hfinished.inOrder.not_needsAll (hall x (Registry.mem_names hjob)) hx
    rw [horder]
    simp [hno]
  · rw [hcycle]
    simp [hcyclic]

theorem taskOrder_first {job : JobSpec} {order : List String} (h : taskOrder reg job = .ok order)
    (hn : job.tasks.Nodup) : Greedy (memberDeps reg job.tasks) job.tasks (position job.tasks) order := by
  obtain ⟨rfl, -⟩ := taskOrder_eq_ok h
  exact sortTasks_greedy hn _ (.start reg job.tasks) (List.pairwise_insertionSort _ _) greedy_nil

/-- One order of the members comes before another: where they first differ it has the
member that is listed first. -/
def ComesBefore (members : List String) (a b : List String) : Prop :=
  List.Lex (· < ·) (a.map (position members)) (b.map (position members))

/-- **The order of a job's tasks is canonical**: in a valid registry it is a permutation
with dependencies first, before which no other such order comes, and every dependency
outside of the job is a task of a job below. A cycle of tasks is reported where the order
is reached, and a cycle of jobs by the cycle check. -/
theorem taskOrder_canonical (reg : Registry) :
    (validate reg = .ok () → ∀ job ∈ reg.jobs, job.tasks.Nodup →
      (∃ order, taskOrder reg job = .ok order ∧ order.Perm job.tasks ∧
        InOrder (memberDeps reg job.tasks) order ∧
        ∀ other : List String, other.Perm job.tasks → InOrder (memberDeps reg job.tasks) other →
          ¬ ComesBefore job.tasks other order) ∧
      ∀ name ∈ job.tasks, ∀ dep ∈ reg.taskDeps name, dep ∉ job.tasks →
        ∃ other ∈ reg.jobs, NeedsAll reg.jobDeps job.name other.name ∧ dep ∈ other.tasks) ∧
    (∀ job : JobSpec, job.tasks.Nodup →
      ((∃ stuck, taskOrder reg job = .error (.taskCycle job.name stuck)) ↔
        Resolves reg job ∧ Cyclic (memberDeps reg job.tasks))) ∧
    (reg.JobsKnown →
      ((∃ path, checkJobCycles reg = .error (.jobCycle path)) ↔ Cyclic reg.jobDeps) ∧
        ((∃ order, checkJobCycles reg = .ok order) ↔ ¬ Cyclic reg.jobDeps)) := by
  refine ⟨fun hvalid job hjob hn => ⟨?_, ?_⟩, fun job hn => taskOrder_cycle_iff hn, checkJobCycles_iff⟩
  · obtain ⟨order, horder⟩ := (validate_ok hvalid).ordered job hjob
    obtain ⟨hperm, hin⟩ := taskOrder_ok horder
    refine ⟨order, horder, hperm, hin hn, fun other hother hinOrder => ?_⟩
    exact (taskOrder_first horder hn).not_lex hinOrder (hother.nodup_iff.mpr hn)
      (hperm.trans hother.symm) (fun y hy => hother.subset hy) fun a ha b hb => position_inj ha hb
  · intro name hname dep hdep hout
    have hresolves := resolves_of_sorted (.inl ((validate_ok hvalid).ordered job hjob))
    obtain ⟨other, hother, ⟨m, hm, hbelow⟩, htask⟩ := hresolves.provided name hname dep hdep hout
    have hedge : m ∈ reg.jobDeps job.name := by
      rwa [Registry.jobDeps_of_getJob (Registry.getJob_eq_some.mpr ⟨hjob, rfl⟩)]
    exact ⟨other, hother, Relation.TransGen.head' hedge hbelow, htask⟩

/-! ## Three registries -/

def bareJob (name : String) (tasks dependsOnJobs : List String) : JobSpec :=
  ⟨name, "sales", tasks, dependsOnJobs, [], none, false, false, false, none⟩

def sampleTasks : List TaskSpec :=
  [⟨"rates", [], []⟩, ⟨"report", ["lines"], []⟩, ⟨"lines", ["rates"], []⟩, ⟨"checks", [], []⟩]

def sampleRegistry : Registry :=
  ⟨[], sampleTasks, [bareJob "core" ["rates"] [], bareJob "sales" ["report", "lines", "checks"] ["core"]],
    .nil, by simp [sampleTasks], by simp [bareJob]⟩

/-- `report` waits for `lines`, which the job lists later. -/
theorem taskOrder_canonical_sample :
    (∃ order, taskOrder sampleRegistry (bareJob "sales" ["report", "lines", "checks"] ["core"]) = .ok order ∧
      order = ["lines", "report", "checks"]) ∧
    ∀ other : List String, other.Perm ["report", "lines", "checks"] →
      InOrder (memberDeps sampleRegistry ["report", "lines", "checks"]) other →
      ¬ ComesBefore ["report", "lines", "checks"] other ["lines", "report", "checks"] := by
  obtain ⟨⟨order, horder, -, -, hfirst⟩, -⟩ := (taskOrder_canonical sampleRegistry).1 rfl
    (bareJob "sales" ["report", "lines", "checks"] ["core"]) (by simp [sampleRegistry]) (by decide)
  have heq : taskOrder sampleRegistry (bareJob "sales" ["report", "lines", "checks"] ["core"]) =
      .ok ["lines", "report", "checks"] := rfl
  rw [heq] at horder
  cases horder
  exact ⟨⟨_, heq, rfl⟩, hfirst⟩

/-- Two tasks that need each other, of which one needs a task no job has. -/
def cyclicRegistry : Registry :=
  ⟨[], [⟨"a", ["b", "c"], []⟩, ⟨"b", ["a"], []⟩, ⟨"c", [], []⟩], [bareJob "loop" ["a", "b"] []],
    .nil, by simp, by simp⟩

/-- A job that lists a task twice. -/
def twiceListed : Registry :=
  ⟨[], [⟨"a", [], []⟩, ⟨"b", ["a"], []⟩], [bareJob "double" ["b", "b", "a"] []], .nil, by simp, by simp⟩

theorem taskOrder_cycle_missed_and_made_up :
    (Cyclic (memberDeps cyclicRegistry ["a", "b"]) ∧
      taskOrder cyclicRegistry (bareJob "loop" ["a", "b"] []) = .error (.taskElsewhere "a" "loop" "c")) ∧
    (¬ Cyclic (memberDeps twiceListed ["b", "b", "a"]) ∧
      taskOrder twiceListed (bareJob "double" ["b", "b", "a"] []) = .error (.taskCycle "double" [])) := by
  refine ⟨⟨⟨"a", .tail (.single (b := "b") ?_) ?_⟩, rfl⟩, ?_, rfl⟩
  · decide
  · decide
  · rintro ⟨x, hx⟩
    have hin : InOrder (memberDeps twiceListed ["b", "b", "a"]) ["a", "b"] :=
      (inOrder_nil.concat (by decide)).concat (by decide)
    have hlisted : ∀ y ∈ ["b", "b", "a"], y ∈ ["a", "b"] := by decide
    exact hin.not_needsAll (hlisted x (mem_of_needsAll hx)) hx

end SalesDashboard.EtlPlatform
