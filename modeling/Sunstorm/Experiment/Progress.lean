import Mathlib.Data.List.Dedup
import Sunstorm.Csv.Csv
import Sunstorm.Experiment.BenchmarkArgs
import Sunstorm.Sorting.Sorting

/-!
# The progress of an experiment

`tools/experiment.py`: `Progress`. The records are kept in a file with one column for every key that
some record has. A file is loaded through `csv.DictReader`; the surplus fields of a row that is
longer than the first one are not modelled, `save` never writes such a row. Writing the file is one
step.
-/

namespace Sunstorm

/-- What is known about a case. A value is `None` only where a row of the file was too short. -/
abbrev Record : Type := Dict String (Option ParameterValue)

/-- The metadata with all values converted to text. -/
def metadataTexts (metadata : Dict String ParameterValue) : Dict String String :=
  metadata.map fun _ value => value.toText

/-- Why a progress file cannot be loaded. -/
inductive LoadError where
  | csv (e : Csv.Error)
  | surplusFields
  deriving DecidableEq

namespace Record

/-- `metadata.items() <= record.items()`. -/
def covers (self : Record) (metadata : Dict String String) : Bool :=
  metadata.entries.all fun e => self.get? e.1 = some (some (.str e.2))

/-- The record of a case that was not seen before. -/
def pending (metadata : Dict String String) : Record :=
  (Dict.empty.setAll
    [("status", some (.str "pending")), ("reloaded", some (.bool false))]).setAll
    (metadata.entries.map fun e => (e.1, some (.str e.2)))

/-- The text that is written for the field. -/
def cell (self : Record) (field : String) : String :=
  match self.get? field with
  | some (some value) => value.toText
  | _ => ""

/-- The record of a row. The fields that the row is too short for are `None`. -/
def ofRow (fieldnames : List String) (row : List String) : Except LoadError Record :=
  if fieldnames.length < row.length then .error .surplusFields
  else
    .ok (Dict.empty.setAll (fieldnames.zip
      (row.map (fun text => some (.str text)) ++
        List.replicate (fieldnames.length - row.length) none)))

end Record

/-- The limit of `csv` for the length of a field. -/
def fieldSizeLimit : Nat := 131072

/-- `list(csv.DictReader(f))`, for the rows of the file. Empty rows are skipped. -/
def readRecords : List (List String) → Except LoadError (List Record)
  | [] => .ok []
  | fieldnames :: rows => (rows.filter (· ≠ [])).mapM (Record.ofRow fieldnames)

/-- The records of a file. -/
def loadRecords (text : List Char) : Except LoadError (List Record) :=
  match Csv.parse fieldSizeLimit text with
  | .ok rows => readRecords (rows.map fun row => row.map String.ofList)
  | .error e => .error (.csv e)

/-- The keys of all records, sorted. -/
def fieldnames (progress : List Record) : List String :=
  Sorting.sortBy id (progress.flatMap Dict.keys).dedup

/-- The header and the rows of the file. -/
def tableOf (progress : List Record) : List (List String) :=
  fieldnames progress :: progress.map fun record => (fieldnames progress).map record.cell

/-- What is written into the file. -/
def saveRecords (progress : List Record) : List Char :=
  Csv.render ((tableOf progress).map fun row => row.map String.toList)

/-- `class Progress`, with what its file holds. -/
structure Progress where
  file : Option (List Char)
  progress : List Record

namespace Progress

/-- `Progress.STATUSES`. -/
def statuses : List String := ["done", "error", "pending"]

/-- `Progress.load`. -/
def load (self : Progress) : Except LoadError Progress :=
  match self.file with
  | some text => (loadRecords text).map fun progress => { self with progress }
  | none => .ok self

/-- `Progress.save`. -/
def save (self : Progress) : Progress :=
  if self.progress = [] then self else { self with file := some (saveRecords self.progress) }

/-- `Progress.get_or_insert`. It returns a reference to a record, which is its position here. -/
def getOrInsert (self : Progress) (metadata : Dict String ParameterValue) : Progress × Nat :=
  let metadata := metadataTexts metadata
  match self.progress.findIdx? fun record => record.covers metadata with
  | some i => (self, i)
  | none =>
    (save { self with progress := self.progress ++ [.pending metadata] }, self.progress.length)

/-- Set fields of the record at the position. -/
def update (self : Progress) (i : Nat) (fields : List (String × ParameterValue)) : Progress :=
  { self with
    progress := self.progress.modify i fun record =>
      record.setAll (fields.map fun e => (e.1, some e.2)) }

end Progress

end Sunstorm
