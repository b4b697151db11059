import SalesDashboard.Lib.Files
import SalesDashboard.Lib.Calls

/-! Replacing the input workbooks of the ETL (`input_files.py`): any number of uploads at once,
each statement of `replace_file` that touches the disk or the lock a step of its own, runs
that begin, end and write an empty BlockedCustomers.xlsx where they find none
(`_validate_inputs`), failing calls and crashes. The loaders that validate a workbook, the
hash and the run-time's texts are parameters; modification times are left out. -/

namespace SalesDashboard.EtlApi.InputFiles
open Transition Files

abbrev Bytes := List UInt8

/-- The parts of a path. -/
abbrev FilePath := List String

structure UploadRejected where
  message : String
  status : Nat
  problems : List String
  deriving DecidableEq

def REQUIRED_INPUT_FILES : List String := ["sales_targets.xlsx", "SalesTeam.xlsx", "OffDays.xlsx"]

def OPTIONAL_INPUT_FILES : List String := ["BlockedCustomers.xlsx", "ProductExclusions.xlsx"]

def SLOT_NAMES : List String := REQUIRED_INPUT_FILES ++ OPTIONAL_INPUT_FILES

def MAX_UPLOAD_BYTES : Nat := 5 * 1024 * 1024

/-- `name!r`, a path and an exception as texts, and what the loaders make of a workbook. -/
structure Env (Summary : Type) where
  inputs : FilePath
  backups : FilePath
  nameRepr : String → String
  pathText : FilePath → String
  validateFile : String → Bytes → Except UploadRejected Summary
  sha256 : Bytes → String

structure FileMeta where
  path : FilePath
  sizeBytes : Nat
  sha256 : String
  deriving DecidableEq

inductive Answer (Summary : Type)
  | rejected (error : UploadRejected)
  | failed (exc : String)
  | checked (current : Option FileMeta) (validation : Summary)
  | replaced (previous current : Option FileMeta) (backup : Option FilePath) (validation : Summary)
  deriving DecidableEq

/-- How an upload leaves the lock. -/
inductive Outcome
  | rejected (error : UploadRejected)
  | failed (exc : String)
  | swapped
  deriving DecidableEq

/-- What an upload does next. -/
inductive Phase (Summary : Type)
  | received
  | validated
  | readOnly
  | waiting
  | locked
  | checked
  | compared
  | copyOpen
  | copying (written : Nat)
  | staging
  | writing (written : Nat)
  | written
  | cleaning (outcome : Outcome)
  | leaving (outcome : Outcome)
  | swapped
  | done (answer : Answer Summary)
  deriving DecidableEq

/-- An upload with the variables of `replace_file` that are set so far. -/
structure Upload (Summary : Type) where
  name : String
  content : Bytes
  summary : Option Summary
  previous : Option Bytes
  backup : Option String
  phase : Phase Summary
  deriving DecidableEq

/-- `mounted` is whether the input folder is there, `running` whether a run is active, and
`creating` whether the run has found no BlockedCustomers.xlsx and not yet written its own. -/
structure State (Summary : Type) where
  files : Disk FilePath Bytes
  mounted : Bool
  writable : Bool
  running : Bool
  creating : Bool
  uploads : List (Upload Summary)

variable {Summary : Type}

/-- Inside `with _replace_lock`. -/
def Phase.critical : Phase Summary → Bool
  | .received | .validated | .readOnly | .waiting | .swapped | .done _ => false
  | _ => true

/-- Past the check that no run is active, and not yet swapped or given up. -/
def Phase.pastCheck : Phase Summary → Bool
  | .checked | .compared | .copyOpen | .copying _ | .staging | .writing _ | .written => true
  | _ => false

def State.locked (s : State Summary) : Bool := s.uploads.any fun u => u.phase.critical

section
variable (env : Env Summary)

def target (name : String) : FilePath := env.inputs ++ [name]

/-- `Settings.blocked_customers_path`. -/
def blockedCustomersPath : FilePath := target env "BlockedCustomers.xlsx"

def stagingFile (name : String) : FilePath := env.inputs ++ ["." ++ name ++ ".uploading"]

def backupFile (file : String) : FilePath := env.backups ++ [file]

def fileMeta (path : FilePath) (content : Bytes) : FileMeta := ⟨path, content.length, env.sha256 content⟩

/-- `os.path.splitext` of a file name. -/
def splitext (name : String) : String × String :=
  let suffix := (name.toList.reverse.takeWhile (· ≠ '.')).reverse
  let stem := name.toList.take (name.toList.length - suffix.length - 1)
  if '.' ∈ name.toList ∧ stem.any (· ≠ '.') then (String.ofList stem, String.ofList ('.' :: suffix)) else (name, "")

/-- The name tried after `counter` others. -/
def backupName (name stamp : String) (counter : Nat) : String :=
  let (stem, suffix) := splitext name
  if counter = 0 then stem ++ "." ++ stamp ++ suffix else stem ++ "." ++ stamp ++ "-" ++ toString counter ++ suffix

/-- What is checked before the lock, in the source's order. -/
def checkUpload (mounted : Bool) (name : String) (content : Bytes) : Except UploadRejected Summary :=
  if name ∉ SLOT_NAMES then
    .error ⟨"Unknown input file " ++ env.nameRepr name ++ ". Expected one of: " ++
      ", ".intercalate SLOT_NAMES ++ ".", 404, []⟩
  else if content = [] then .error ⟨"The uploaded file is empty.", 400, []⟩
  else if MAX_UPLOAD_BYTES < content.length then
    .error ⟨"The file is larger than the " ++ toString (MAX_UPLOAD_BYTES / (1024 * 1024)) ++ " MB limit.", 413, []⟩
  else if env.inputs <+: env.backups then
    .error ⟨"ETL_INPUT_BACKUP_DIR (" ++ env.pathText env.backups ++
      ") must not be the ETL input folder or inside it.", 500, []⟩
  else if ¬ mounted then
    .error ⟨"The ETL input folder " ++ env.pathText env.inputs ++ " does not exist or is not mounted.", 500, []⟩
  else env.validateFile name content

def runInProgress : UploadRejected := ⟨"An ETL run is in progress. Upload again once it has finished.", 409, []⟩

def identical (name : String) : UploadRejected :=
  ⟨"This file is identical to the current " ++ name ++ "; nothing was replaced.", 409, []⟩

def couldNotReplace (name exc : String) : UploadRejected :=
  ⟨"Could not replace " ++ name ++ ": the file is locked or the folder is read-only (" ++ exc ++
    "). Close it if it is open in Excel and check the input folder is mounted read-write.", 409, []⟩

def Upload.finish (u : Upload Summary) (answer : Answer Summary) : Upload Summary := { u with phase := .done answer }

/-- The next statement of an upload, with the time in the name of a backup and the number
of bytes that a write takes; `none` where it waits or has ended. -/
def uploadStep (s : State Summary) (stamp : String) (chunk : Nat) (u : Upload Summary) :
    Option (Disk FilePath Bytes × Upload Summary) :=
  match u.phase with
  | .received =>
      match checkUpload env s.mounted u.name u.content with
      | .error error => some (s.files, u.finish (.rejected error))
      | .ok summary => some (s.files, { u with summary := some summary, phase := .validated })
  | .validated => some (s.files, { u with phase := if s.writable then .waiting else .readOnly })
  | .readOnly =>
      u.summary.map fun summary => (s.files, u.finish
        (.checked ((read s.files (target env u.name)).map (fileMeta env (target env u.name))) summary))
  | .waiting => if s.locked then none else some (s.files, { u with phase := .locked })
  | .locked =>
      some (s.files, { u with phase := if s.running then .leaving (.rejected runInProgress) else .checked })
  | .checked => some (s.files, { u with previous := read s.files (target env u.name), phase := .compared })
  | .compared =>
      match u.previous with
      | none => some (s.files, { u with phase := .staging })
      | some previous =>
          if env.sha256 previous = env.sha256 u.content then
            some (s.files, { u with phase := .leaving (.rejected (identical u.name)) })
          else
            (firstFree s.files fun counter => backupFile env (backupName u.name stamp counter)).map fun counter =>
              (s.files, { u with backup := some (backupName u.name stamp counter), phase := .copyOpen })
  | .copyOpen =>
      u.backup.map fun file => (write s.files (backupFile env file) [], { u with phase := .copying 0 })
  | .copying written =>
      u.backup.bind fun file => (read s.files (target env u.name)).map fun previous =>
        if written < previous.length then
          (write s.files (backupFile env file) (previous.take (written + chunk)),
            { u with phase := .copying (written + chunk) })
        else (s.files, { u with phase := .staging })
  | .staging => some (write s.files (stagingFile env u.name) [], { u with phase := .writing 0 })
  | .writing written =>
      if written < u.content.length then
        some (write s.files (stagingFile env u.name) (u.content.take (written + chunk)),
          { u with phase := .writing (written + chunk) })
      else some (s.files, { u with phase := .written })
  | .written =>
      (read s.files (stagingFile env u.name)).map fun staged =>
        (write (remove s.files (stagingFile env u.name)) (target env u.name) staged,
          { u with phase := .cleaning .swapped })
  | .cleaning outcome => some (remove s.files (stagingFile env u.name), { u with phase := .leaving outcome })
  | .leaving (.rejected error) => some (s.files, u.finish (.rejected error))
  | .leaving (.failed exc) => some (s.files, u.finish (.failed exc))
  | .leaving .swapped => some (s.files, { u with phase := .swapped })
  | .swapped =>
      u.summary.map fun summary => (s.files, u.finish (.replaced
        (u.previous.map (fileMeta env (target env u.name)))
        ((read s.files (target env u.name)).map (fileMeta env (target env u.name)))
        (u.backup.map (backupFile env)) summary))
  | .done _ => none

/-- The statement fails: `try` turns what goes wrong from the staging file to the swap into
a rejection, and the lock is released in any case. -/
def failStep (exc : String) (u : Upload Summary) : Option (Upload Summary) :=
  match u.phase with
  | .received | .validated | .readOnly | .swapped => some (u.finish (.failed exc))
  | .locked | .checked | .compared | .copyOpen | .copying _ | .cleaning _ =>
      some { u with phase := .leaving (.failed exc) }
  | .staging | .writing _ | .written => some { u with phase := .cleaning (.rejected (couldNotReplace u.name exc)) }
  | .waiting | .leaving _ | .done _ => none

end

inductive Action
  | upload (name : String) (content : Bytes)
  | advance (i : Nat) (stamp : String) (chunk : Nat)
  | fail (i : Nat) (exc : String)
  | crash
  | runBegins
  | runLooks
  | runWrites (template : Bytes) (more : Bool)
  | runEnds
  | access (writable : Bool)
  deriving DecidableEq

/-- A run that looks for BlockedCustomers.xlsx may do so before or after any statement of an
upload, and it writes its template in as many pieces as it likes. -/
def step (env : Env Summary) (s : State Summary) : Action → Option (State Summary)
  | .upload name content =>
      some { s with uploads := s.uploads ++ [⟨name, content, none, none, none, .received⟩] }
  | .advance i stamp chunk =>
      match s.uploads[i]? with
      | none => none
      | some u => (uploadStep env s stamp chunk u).map fun next =>
          { s with files := next.1, uploads := s.uploads.set i next.2 }
  | .fail i exc =>
      match s.uploads[i]? with
      | none => none
      | some u => (failStep exc u).map fun u => { s with uploads := s.uploads.set i u }
  | .crash => some { s with running := false, creating := false, uploads := [] }
  | .runBegins => if s.running then none else some { s with running := true }
  | .runLooks =>
      if s.running then some { s with creating := decide (read s.files (blockedCustomersPath env) = none) } else none
  | .runWrites template more =>
      if s.creating then
        some { s with files := write s.files (blockedCustomersPath env) template, creating := more }
      else none
  | .runEnds => some { s with running := false, creating := false }
  | .access writable => some { s with writable := writable }

def noUploads (files : Disk FilePath Bytes) (mounted writable : Bool) : State Summary :=
  ⟨files, mounted, writable, false, false, []⟩

end SalesDashboard.EtlApi.InputFiles
