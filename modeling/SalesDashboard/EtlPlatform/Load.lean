import SalesDashboard.Lib.Keyed
import SalesDashboard.Lib.Doubles
import SalesDashboard.Lib.Numerals
import SalesDashboard.Tachometer.Dates

/-! `replace_all` and `replace_changed` (`load.py`). The keys of the tables are whole
numbers, texts and dates, as the migrations declare them. The frame compares the texts
exactly, the database by their collation. The other columns may hold anything; what a
column keeps of a value is the database's. -/

namespace SalesDashboard.EtlPlatform.Load
open Tachometer Numerals Doubles

/-! ## Values -/

/-- A cell of a frame, or one read back. -/
inductive Value
  | none
  | bool (b : Bool)
  | int (i : Int)
  | float (x : ℚ)
  | decimal (x : ℚ)
  | datetime (day : Date) (second microsecond : Nat)
  | date (day : Date)
  | bytes (bs : List Nat)
  | text (s : String)
  deriving DecidableEq

/-- What `json.dumps` writes for a cell. -/
inductive Norm
  | null
  | int (i : Int)
  | float (x : ℚ)
  | text (s : String)
  deriving DecidableEq

/-- `round(value, 9)`. -/
def round9 (x : ℚ) : ℚ := roundHalfEven (x * 10 ^ 9) / 10 ^ 9

def normFloat (x : ℚ) : Norm := if x.den = 1 then .int x.num else .float (round9 x)

/-- `date.isoformat()`. -/
def isoDate (d : Date) : String :=
  String.ofList (['-'].intercalate (List.zipWith padded [4, 2, 2] [d.year, d.month, d.day]))

def isoTime (second : Nat) : String :=
  String.ofList ([':'].intercalate (List.zipWith padded [2, 2, 2] [second / 3600, second / 60 % 60, second % 60]))

def hexDigits (b : Nat) : List Char := [Nat.digitChar (b / 16), Nat.digitChar (b % 16)]

/-- `_norm`; `float(d)` is in the range of the normal doubles. -/
def norm : Value → Norm
  | .none => .null
  | .bool b => .int (if b then 1 else 0)
  | .int i => .int i
  | .float x => normFloat x
  | .decimal x => normFloat (toDouble x)
  | .datetime day second _ => .text (isoDate day ++ " " ++ isoTime second)
  | .date day => .text (isoDate day)
  | .bytes bs => .text (String.ofList (bs.flatMap hexDigits))
  | .text s => .text s

/-! ## Keys -/

inductive KeyType
  | int | text | date
  deriving DecidableEq, Repr

inductive KeyValue
  | int (i : Int)
  | text (s : String)
  | date (day : Date)
  deriving DecidableEq

def KeyValue.type : KeyValue → KeyType
  | .int _ => .int
  | .text _ => .text
  | .date _ => .date

def KeyValue.value : KeyValue → Value
  | .int i => .int i
  | .text s => .text s
  | .date day => .date day

/-- A key of a table whose key columns have these types. -/
structure Key (types : List KeyType) where
  values : List KeyValue
  typed : values.map KeyValue.type = types
  deriving DecidableEq

variable {types : List KeyType}

/-- `_key_of`. -/
def keyOf (key : Key types) : List Norm := key.values.map fun v => norm v.value

section
variable (collate : String → String)

/-- `table.c[col] == v` for a normalised value. Two texts are equal when the collation gives
them one sort key; a date column reads the text as a date. -/
def columnEquals : KeyValue → Norm → Bool
  | .int i, .int j => decide (i = j)
  | .text s, .text t => decide (collate s = collate t)
  | .date day, .text t => decide (isoDate day = t)
  | _, _ => false

def keyEquals (key : Key types) (k : List Norm) : Bool :=
  (key.values.zip k).all fun p => columnEquals collate p.1 p.2

/-- A key value as the primary key compares it: the sort key stands for the text. -/
def KeyValue.weight : KeyValue → KeyValue
  | .int i => .int i
  | .text s => .text (collate s)
  | .date day => .date day

theorem KeyValue.type_weight (v : KeyValue) : (v.weight collate).type = v.type := by
  cases v <;> rfl

def Key.weight (key : Key types) : Key types where
  values := key.values.map (·.weight collate)
  typed := by
    rw [List.map_map]
    exact (List.map_congr_left fun v _ => v.type_weight collate).trans key.typed

end

/-! ## Tables and frames -/

structure Row (types : List KeyType) where
  key : Key types
  content : List Value
  stamp : Value
  deriving DecidableEq

def Row.weight (collate : String → String) (r : Row types) : Key types := r.key.weight collate

/-- A table with its primary key; `content` is every column but the key and the stamp. -/
structure Table (collate : String → String) (types : List KeyType) where
  rows : List (Row types)
  nodup : (rows.map (Row.weight collate)).Nodup

structure FrameRow (types : List KeyType) where
  key : Key types
  content : List Value

def FrameRow.weight (collate : String → String) (f : FrameRow types) : Key types := f.key.weight collate

/-- A frame that passes `_validate`: no key is null, and no key twice. -/
structure Frame (types : List KeyType) where
  rows : List (FrameRow types)
  nodup : (rows.map (·.key)).Nodup

/-- What the columns keep of the values written to them, by the place of the column. -/
def keep (store : Nat → Value → Value) (content : List Value) : List Value := content.mapIdx store

/-- `replace_all`: every row deleted, the frame inserted. Two keys that are one to the
database end the insert with an error. -/
def replaceAll (collate : String → String) (store : Nat → Value → Value) (stamp : Value)
    (frame : Frame types) : Option (List (Row types)) :=
  if (frame.rows.map (FrameRow.weight collate)).Nodup then
    some (frame.rows.map fun f => ⟨f.key, keep store f.content, stamp⟩)
  else none

/-! ## replace_changed -/

structure ChangeSet where
  inserted : List (List Norm)
  updated : List (List Norm)
  deleted : List (List Norm)
  unchanged : Nat
  deriving DecidableEq

section
variable {H : Type} [DecidableEq H]

/-- `_content_hash`: SHA-1 of the JSON of the normalised cells. -/
def contentHash (sha1 : List Norm → H) (content : List Value) : H := sha1 (content.map norm)

/-- `stored`: the content hash of each key. -/
def storedHashes (sha1 : List Norm → H) (rows : List (Row types)) : List (List Norm × H) :=
  rows.foldl (fun stored r =>
    let hash := contentHash sha1 r.content
    Keyed.upsert Prod.fst (keyOf r.key) (fun e => (e.1, hash)) (keyOf r.key, hash) stored) []

def storedHash (stored : List (List Norm × H)) (k : List Norm) : Option H :=
  (stored.find? fun e => decide (e.1 = k)).map Prod.snd

structure Diff where
  mask : List Bool
  keys : List (List Norm)
  new : List (List Norm)
  seen : List (List Norm)

/-- One row of the frame. -/
def diffRow (sha1 : List Norm → H) (stored : List (List Norm × H)) (d : Diff) (rec : FrameRow types) :
    Diff :=
  let k := keyOf rec.key
  let old := storedHash stored k
  let changed := decide (old ≠ some (contentHash sha1 rec.content))
  { mask := d.mask ++ [changed]
    keys := if changed then d.keys ++ [k] else d.keys
    new := if changed && old.isNone then d.new ++ [k] else d.new
    seen := d.seen ++ [k] }

def diff (sha1 : List Norm → H) (stored : List (List Norm × H)) (frame : Frame types) : Diff :=
  frame.rows.foldl (diffRow sha1 stored) ⟨[], [], [], []⟩

def deleteKeys (collate : String → String) (rows : List (Row types)) (missing : List (List Norm)) :
    List (Row types) :=
  (chunks 500 missing).foldl (fun rows chunk =>
    rows.filter fun r => !chunk.any (keyEquals collate r.key)) rows

/-- `INSERT … ON DUPLICATE KEY UPDATE`, row by row. The row that is there keeps its key as it
is spelled. -/
def upsertRows (collate : String → String) (store : Nat → Value → Value) (stamp : Value)
    (rows : List (Row types)) (changed : List (FrameRow types)) : List (Row types) :=
  (chunks 1000 changed).foldl (fun rows chunk => chunk.foldl (fun rows f =>
    let content := keep store f.content
    Keyed.upsert (Row.weight collate) (f.weight collate) (fun r => ⟨r.key, content, stamp⟩)
      ⟨f.key, content, stamp⟩ rows) rows) rows

/-- The rows under a mask. -/
def masked {α : Type} (mask : List Bool) (xs : List α) : List α :=
  ((mask.zip xs).filter (·.1)).map Prod.snd

def replaceChanged {collate : String → String} (sha1 : List Norm → H) (store : Nat → Value → Value)
    (stamp : Value) (table : Table collate types) (frame : Frame types) : List (Row types) × ChangeSet :=
  let stored := storedHashes sha1 table.rows
  let d := if frame.rows.isEmpty then ⟨[], [], [], []⟩ else diff sha1 stored frame
  let missing :=
    if frame.rows.isEmpty then table.rows.map fun r => keyOf r.key
    else (stored.map Prod.fst).filter fun k => !decide (k ∈ d.seen)
  let left := deleteKeys collate table.rows missing
  let written :=
    if d.keys.isEmpty then left else upsertRows collate store stamp left (masked d.mask frame.rows)
  (written,
    { inserted := d.keys.filter fun k => decide (k ∈ d.new)
      updated := d.keys.filter fun k => !decide (k ∈ d.new)
      deleted := missing
      unchanged := (d.mask.filter (!·)).length })

end

end SalesDashboard.EtlPlatform.Load
