import SalesDashboard.Lib.FailPoints
import SalesDashboard.Lib.Numerals
import Mathlib

/-! `atomic_swap` and `atomic_swap_many` (`load.py`) on MySQL: every DDL statement commits
by itself, the inserts of a staged table commit together, and one `RENAME TABLE` renames
all its pairs or none. -/

namespace SalesDashboard.EtlPlatform.Swap
open FailPoints Numerals

/-! ## The database -/

/-- The rows of every table there is, and what the open transaction has inserted. -/
structure Db (ρ : Type*) where
  tables : String → Option (List ρ)
  inserted : List ρ

variable {ρ : Type*}

abbrev Tables (ρ : Type*) := String → Option (List ρ)

def Db.rollback (db : Db ρ) : Db ρ := { db with inserted := [] }

def Db.set (db : Db ρ) (table : String) (rows : Option (List ρ)) : Db ρ :=
  { db with tables := Function.update db.tables table rows }

inductive Statement (ρ : Type*)
  /-- `reflect_table`. -/
  | reflect (table : String)
  /-- A test in Python, as `_validate` of the frame, that raises unless it holds. -/
  | require (holds : Bool)
  | dropIfExists (table : String)
  | drop (table : String)
  | createLike (new table : String)
  | insert (table : String) (rows : List ρ)
  /-- The end of the transaction that inserted into a table. -/
  | commitInserts (table : String)
  /-- A commit behind statements that are committed already. -/
  | commit
  /-- `before_swap`, which reads and may raise. -/
  | beforeSwap (accepts : Tables ρ → Bool)
  | rename (pairs : List (String × String))

/-- One pair of `RENAME TABLE`. -/
def renameOne (tables : Tables ρ) (pair : String × String) : Option (Tables ρ) :=
  match tables pair.1, tables pair.2 with
  | some rows, none => some (Function.update (Function.update tables pair.1 none) pair.2 (some rows))
  | _, _ => none

/-- What a statement does; `none` when MySQL, or the check, refuses it. -/
def exec : Statement ρ → Db ρ → Option (Db ρ)
  | .reflect table, db => (db.tables table).map fun _ => db
  | .require holds, db => if holds then some db else none
  | .dropIfExists table, db => some (db.set table none)
  | .drop table, db => (db.tables table).map fun _ => db.set table none
  | .createLike new table, db =>
      match db.tables new, db.tables table with
      | none, some _ => some (db.set new (some []))
      | _, _ => none
  | .insert table rows, db => (db.tables table).map fun _ => { db with inserted := db.inserted ++ rows }
  | .commitInserts table, db =>
      (db.tables table).map fun old => { db.set table (some (old ++ db.inserted)) with inserted := [] }
  | .commit, db => some db
  | .beforeSwap accepts, db => if accepts db.tables then some db else none
  | .rename pairs, db =>
      -- a `RENAME TABLE` without pairs is a syntax error
      if pairs.isEmpty then none else (pairs.foldlM renameOne db.tables).map fun tables => { db with tables }

/-! ## The programs -/

/-- Statements, those under the `try`, and those of its `except`. -/
structure Program (ρ : Type*) where
  opening : List (Statement ρ)
  body : List (Statement ρ)
  cleanup : List (Statement ρ)

def MAX_IDENTIFIER : Nat := 64

def newName (table : String) : String := table ++ "__new"

def oldName (table : String) : String := table ++ "__old"

/-- `_staging_names` raises a `LoadError` for a name that is too long. -/
def fitsStaging (table : String) : Bool := decide ((oldName table).length ≤ MAX_IDENTIFIER)

/-- A table and the rows of its frame. -/
abbrev Frame (ρ : Type*) := String × List ρ

section
variable (fits : Frame ρ → Bool) (chunkSize : Nat)

def stage (f : Frame ρ) : List (Statement ρ) :=
  [.reflect f.1, .require (fits f), .dropIfExists (newName f.1), .dropIfExists (oldName f.1),
    .createLike (newName f.1) f.1, .commit]

/-- `range` refuses chunks of no rows. -/
def load (f : Frame ρ) : List (Statement ρ) :=
  [.reflect (newName f.1), .require (decide (0 < chunkSize))] ++ (chunks chunkSize f.2).map (.insert (newName f.1)) ++ [.commitInserts (newName f.1)]

def check (beforeSwap : Option (Tables ρ → Bool)) : List (Statement ρ) := (beforeSwap.map .beforeSwap).toList

def renamePairs (tables : List String) : List (String × String) :=
  tables.flatMap fun t => [(t, oldName t), (newName t, t)]

/-- The old tables are dropped in the connection of the `RENAME TABLE`. -/
def dropOld (tables : List String) : List (Statement ρ) := tables.map (fun t => .drop (oldName t)) ++ [.commit]

def swap (tables : List String) : List (Statement ρ) := [.rename (renamePairs tables)] ++ dropOld tables

def dropStaged (tables : List String) : List (Statement ρ) :=
  tables.map (fun t => .dropIfExists (newName t)) ++ [.commit]

/-- `none` is the `LoadError` of a name, before anything is done. -/
def atomicSwap (beforeSwap : Option (Tables ρ → Bool)) (f : Frame ρ) : Option (Program ρ) :=
  if fitsStaging f.1 then
    some ⟨stage fits f, load chunkSize f ++ check beforeSwap ++ swap [f.1], dropStaged [f.1]⟩
  else none

def atomicSwapMany (beforeSwap : Option (Tables ρ → Bool)) (frames : List (Frame ρ)) : Option (Program ρ) :=
  if frames.all fun f => fitsStaging f.1 then
    some ⟨[], frames.flatMap (fun f => stage fits f ++ load chunkSize f) ++ check beforeSwap ++
      swap (frames.map (·.1)), dropStaged (frames.map (·.1))⟩
  else none

end

/-- The program of a function: the `LoadError` of a name is all that is done. -/
def programOf (program : Option (Program ρ)) : Program ρ := program.getD ⟨[.require false], [], []⟩

/-! ## A call -/

def runOf (statements : List (Statement ρ)) (fates : List Fate) (db : Db ρ) : Run (Db ρ) (Statement ρ) :=
  run exec Db.rollback statements fates db

/-- A call with the runs of its parts; a part that is not reached has no statements. -/
structure Call (ρ : Type*) where
  opening : Run (Db ρ) (Statement ρ)
  body : Run (Db ρ) (Statement ρ)
  cleanup : Run (Db ρ) (Statement ρ)
  ending : Ending

/-- Runs a program on the tables there are. What fails under the `try` is raised again
behind the `except`. -/
def call (p : Program ρ) (fates : List Fate) (tables : Tables ρ) : Call ρ :=
  let opening := runOf p.opening fates ⟨tables, []⟩
  let body := runOf (if opening.ending = .returned then p.body else []) opening.fates opening.last
  let cleanup := runOf (if body.ending = .raised then p.cleanup else []) body.fates body.last
  { opening, body, cleanup
    ending :=
      if opening.ending ≠ .returned then opening.ending
      else if body.ending ≠ .raised then body.ending
      else if cleanup.ending = .died then .died else .raised }

/-- Every state of the database from the first statement of a call to its end. -/
def Call.states (c : Call ρ) : List (Db ρ) := c.opening.states ++ c.body.states ++ c.cleanup.states

/-- The tables that a call leaves. -/
def Call.tables (c : Call ρ) : Tables ρ := c.cleanup.last.tables

end SalesDashboard.EtlPlatform.Swap
