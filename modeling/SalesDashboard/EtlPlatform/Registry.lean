import Mathlib

/-! The declarative registry of datasets, tasks and jobs, its validation and the order
of a job's tasks (`registry.py`). The three dictionaries are lists with distinct
names. -/

namespace SalesDashboard.EtlPlatform

/-! ## Definitions -/

inductive SourceKind
  | odoo | excel | sql | mysql
  deriving DecidableEq, Repr

structure DatasetSpec where
  name : String
  source : SourceKind
  naturalKey : List String
  model : Option String
  file : Option String
  deriving DecidableEq, Repr

structure TaskSpec where
  name : String
  dependsOn : List String
  datasets : List String
  deriving DecidableEq, Repr

inductive ReuseWindow
  | minutes (n : Nat)
  | config
  deriving DecidableEq, Repr

/-- `disabledReason` says whether the job has such a callable; `locks` is what the
job's locks come to at run time. -/
structure JobSpec where
  name : String
  department : String
  tasks : List String
  dependsOnJobs : List String
  optionalJobs : List String
  reuseWithinMinutes : Option ReuseWindow
  configurableModules : Bool
  isolated : Bool
  disabledReason : Bool
  locks : Option (List String)
  deriving DecidableEq, Repr

def JobSpec.ownLocks (job : JobSpec) : List String :=
  job.locks.getD (if job.department = "all" then [] else [job.department])

structure Registry where
  datasets : List DatasetSpec
  tasks : List TaskSpec
  jobs : List JobSpec
  datasetNames : (datasets.map (·.name)).Nodup
  taskNames : (tasks.map (·.name)).Nodup
  jobNames : (jobs.map (·.name)).Nodup

def Registry.getJob (reg : Registry) (name : String) : Option JobSpec :=
  reg.jobs.find? (·.name = name)

def Registry.getTask (reg : Registry) (name : String) : Option TaskSpec :=
  reg.tasks.find? (·.name = name)

/-- `self.jobs[name].depends_on_jobs`. -/
def Registry.jobDeps (reg : Registry) (name : String) : List String :=
  ((reg.getJob name).map (·.dependsOnJobs)).getD []

/-- `self.tasks[name].depends_on`. -/
def Registry.taskDeps (reg : Registry) (name : String) : List String :=
  ((reg.getTask name).map (·.dependsOn)).getD []

/-! ## Validation -/

/-- What the functions below raise; `keyError` is a name that a dictionary does not have. -/
inductive RegistryError
  | invalidDefinitions (problems : List String)
  | jobCycle (path : List String)
  | taskElsewhere (task job dep : String)
  | taskCycle (job : String) (stuck : List String)
  | unknownJob (name : String)
  | keyError (name : String)
  | recursionLimit
  deriving DecidableEq, Repr

def quote (name : String) : String := "'" ++ name ++ "'"

def taskProblems (reg : Registry) (task : TaskSpec) : List String :=
  (task.dependsOn.filter fun dep => dep ∉ reg.tasks.map (·.name)).map (fun dep =>
      "task " ++ quote task.name ++ " depends on unknown task " ++ quote dep) ++
    (task.datasets.filter fun ds => ds ∉ reg.datasets.map (·.name)).map fun ds =>
      "task " ++ quote task.name ++ " references unknown dataset " ++ quote ds

def jobProblems (reg : Registry) (job : JobSpec) : List String :=
  (job.tasks.filter fun name => name ∉ reg.tasks.map (·.name)).map (fun name =>
      "job " ++ quote job.name ++ " lists unknown task " ++ quote name) ++
    (job.dependsOnJobs.filter fun dep => dep ∉ reg.jobs.map (·.name)).map (fun dep =>
      "job " ++ quote job.name ++ " depends on unknown job " ++ quote dep) ++
    (job.optionalJobs.filter fun dep => dep ∉ job.dependsOnJobs).map fun dep =>
      "job " ++ quote job.name ++ " lists optional job " ++ quote dep ++
        " that is not one of its dependencies"

def datasetProblems (ds : DatasetSpec) : List String :=
  (if ds.naturalKey = [] then ["dataset " ++ quote ds.name ++ " has no natural key"] else []) ++
    (if ds.source = .odoo ∧ ds.model.getD "" = "" then
      ["odoo dataset " ++ quote ds.name ++ " has no model"] else []) ++
    (if ds.source = .excel ∧ ds.file.getD "" = "" then
      ["excel dataset " ++ quote ds.name ++ " has no file"] else [])

def problems (reg : Registry) : List String :=
  reg.tasks.flatMap (taskProblems reg) ++ reg.jobs.flatMap (jobProblems reg) ++
    reg.datasets.flatMap datasetProblems

/-- `visit` of the cycle check. The names in state 1 are those of the path; those in
state 2 are returned, in the order in which they were finished. A path without a
repetition is no longer than the number of jobs. -/
def visit (reg : Registry) : Nat → List String → String → List String →
    Except RegistryError (List String)
  | 0, _, _, _ => .error .recursionLimit
  | fuel + 1, path, name, done =>
      if name ∈ path then .error (.jobCycle (path ++ [name]))
      else if name ∈ done then .ok done
      else
        match reg.getJob name with
        | none => .error (.keyError name)
        | some job =>
          match job.dependsOnJobs.foldlM (fun done dep => visit reg fuel (path ++ [name]) dep done) done with
          | .error e => .error e
          | .ok done' => .ok (done' ++ [name])

def checkJobCycles (reg : Registry) : Except RegistryError (List String) :=
  (reg.jobs.map (·.name)).foldlM (fun done name => visit reg (reg.jobs.length + 1) [] name done) []

/-! ## The order of a job's tasks -/

/-- The tasks of jobs and of those they depend on. The recursion is as deep as a chain of
dependencies is long, and one without a cycle has no more jobs than there are. -/
def tasksOfJobs (reg : Registry) : Nat → List String → Option (List String)
  | 0, _ => none
  | fuel + 1, names => (names.mapM fun name =>
      match reg.getJob name with
      | none => some []
      | some job => (tasksOfJobs reg fuel job.dependsOnJobs).map (job.tasks ++ ·)).map List.flatten

/-- The index of a member; a name listed twice has its last one. -/
def position (members : List String) (name : String) : Nat :=
  members.length - 1 - members.reverse.idxOf name

def byPosition (members : List String) (a b : String) : Prop := position members a ≤ position members b

instance (members : List String) : DecidableRel (byPosition members) := fun a b =>
  inferInstanceAs (Decidable (position members a ≤ position members b))

/-- `dependents[dep]`: a member for each of its dependencies on `dep`. -/
def dependents (reg : Registry) (members : List String) (dep : String) : List String :=
  members.flatMap fun name => ((reg.taskDeps name).filter (· = dep)).map fun _ => name

/-- `indegree` before the loop. -/
def indegrees (reg : Registry) (members : List String) (name : String) : Int :=
  (members.flatMap fun m => ((reg.taskDeps m).filter (· ∈ members)).map fun _ => m).count name

structure Sorting where
  indegree : String → Int
  ready : List String
  ordered : List String

/-- One turn of the inner loop. -/
def Sorting.release (members : List String) (s : Sorting) (next : String) : Sorting :=
  let indegree := Function.update s.indegree next (s.indegree next - 1)
  { s with
    indegree := indegree
    ready := if indegree next = 0 then (s.ready ++ [next]).insertionSort (byPosition members)
      else s.ready }

/-- The loop over the ready tasks. A listed name gets ready once, so it takes no more
turns than there are members. -/
def sortTasks (reg : Registry) (members : List String) : Nat → Sorting → List String
  | 0, s => s.ordered
  | fuel + 1, s =>
      match s.ready with
      | [] => s.ordered
      | current :: rest =>
          sortTasks reg members fuel ((dependents reg members current).foldl
            (Sorting.release members) ⟨s.indegree, rest, s.ordered ++ [current]⟩)

def firstReady (reg : Registry) (members : List String) : Sorting :=
  ⟨indegrees reg members,
    (members.filter fun name => indegrees reg members name = 0).insertionSort (byPosition members), []⟩

/-- What the loop over the members raises: a task that is not there, or a dependency that
neither the job nor one of its dependency jobs has. -/
def membersError (reg : Registry) (job : JobSpec) (providedElsewhere : List String) : Option RegistryError :=
  job.tasks.findSome? fun name =>
    match reg.getTask name with
    | none => some (.keyError name)
    | some task => (task.dependsOn.find? fun dep => dep ∉ job.tasks ∧ dep ∉ providedElsewhere).map
        fun dep => .taskElsewhere name job.name dep

def taskOrder (reg : Registry) (job : JobSpec) : Except RegistryError (List String) :=
  match tasksOfJobs reg (reg.jobs.length + 1) job.dependsOnJobs with
  | none => .error .recursionLimit
  | some providedElsewhere =>
    match membersError reg job providedElsewhere with
    | some e => .error e
    | none =>
        let ordered := sortTasks reg job.tasks job.tasks.length (firstReady reg job.tasks)
        if ordered.length ≠ job.tasks.length then
          .error (.taskCycle job.name (job.tasks.filter fun n => n ∉ ordered))
        else .ok ordered

def validate (reg : Registry) : Except RegistryError Unit :=
  if problems reg ≠ [] then .error (.invalidDefinitions (problems reg))
  else match checkJobCycles reg with
    | .error e => .error e
    | .ok _ => reg.jobs.forM fun job => (taskOrder reg job).map fun _ => ()

end SalesDashboard.EtlPlatform
