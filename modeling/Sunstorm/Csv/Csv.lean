import Mathlib.Data.List.Basic

/-!
# Tables as comma-separated text

The text that Python's `csv` module writes and reads with its default dialect. A field is quoted
where it has to be, and a quote in it is then doubled. The reader is a state machine that gets the
text of a file line by line.
-/

namespace Csv

/-- A row of a table. -/
abbrev Row : Type := List (List Char)

/-! ## Writing -/

/-- The character makes it necessary to quote a field. -/
def special (c : Char) : Bool := c = ',' ∨ c = '"' ∨ c = '\n' ∨ c = '\r'

/-- A quote is doubled. -/
def double (c : Char) : List Char := if c = '"' then ['"', '"'] else [c]

def quote (f : List Char) : List Char := '"' :: (f.flatMap double ++ ['"'])

def writeField (f : List Char) : List Char := if f.any special then quote f else f

/-- The fields with commas between them. -/
def join : Row → List Char
  | [] => []
  | [f] => writeField f
  | f :: fs => writeField f ++ ',' :: join fs

/-- A row is not written as an empty line, unless it has no field. -/
def writeRow (row : Row) : List Char := if row = [[]] then ['"', '"'] else join row

/-- The text of a table. -/
def render (rows : List Row) : List Char := rows.flatMap fun row => writeRow row ++ ['\r', '\n']

/-! ## Reading -/

/-- Every line ends with a line feed, whichever end of line the file has. `cr` says that a carriage
return comes before the text. -/
def universal (cr : Bool) : List Char → List Char
  | [] => []
  | c :: cs =>
    if c = '\n' ∧ cr = true then universal false cs
    else if c = '\r' then '\n' :: universal true cs
    else c :: universal false cs

/-- The characters of the text, with `none` after every line. -/
def symbols : List Char → List (Option Char)
  | [] => []
  | c :: cs => if c = '\n' ∨ cs = [] then some c :: none :: symbols cs else some c :: symbols cs

/-- Where the reader is in a row. -/
inductive Mode where
  | startRecord
  | startField
  | inField
  | inQuoted
  | quoteInQuoted
  | eatNewline
  deriving DecidableEq

/-- The row that is being read. -/
structure State where
  mode : Mode
  field : List Char
  fields : Row
  deriving DecidableEq

inductive Error where
  | fieldTooLong
  | newlineInUnquoted
  deriving DecidableEq

def isNewline (c : Char) : Bool := c = '\n' ∨ c = '\r'

namespace State

/-- At the start of a row. -/
def init : State := { mode := .startRecord, field := [], fields := [] }

/-- Add a character to the field. Fields have a limited length. -/
def add (limit : Nat) (s : State) (c : Char) (mode : Mode) : Except Error State :=
  if limit ≤ s.field.length then .error .fieldTooLong
  else .ok { s with mode, field := s.field ++ [c] }

/-- The field is complete. -/
def save (s : State) (mode : Mode) : State :=
  { mode, field := [], fields := s.fields ++ [s.field] }

/-- The field ends with the symbol, or goes on as `other` says. -/
def endOr (s : State) (other : Char → Except Error State) : Option Char → Except Error State
  | none => .ok (s.save .startRecord)
  | some c =>
    if isNewline c then .ok (s.save .eatNewline)
    else if c = ',' then .ok (s.save .startField)
    else other c

/-- The first symbol of a field. -/
def begin (limit : Nat) (s : State) : Option Char → Except Error State :=
  s.endOr fun c => if c = '"' then .ok { s with mode := .inQuoted } else s.add limit c .inField

/-- The next symbol of a row. -/
def process (limit : Nat) (s : State) (x : Option Char) : Except Error State :=
  match s.mode with
  | .startRecord =>
    match x with
    | none => .ok s
    | some c => if isNewline c then .ok { s with mode := .eatNewline } else s.begin limit x
  | .startField => s.begin limit x
  | .inField => s.endOr (fun c => s.add limit c .inField) x
  | .inQuoted =>
    match x with
    | none => .ok s
    | some c => if c = '"' then .ok { s with mode := .quoteInQuoted } else s.add limit c .inQuoted
  | .quoteInQuoted =>
    if x = some '"' then s.add limit '"' .inQuoted else s.endOr (fun c => s.add limit c .inField) x
  | .eatNewline =>
    match x with
    | none => .ok { s with mode := .startRecord }
    | some c => if isNewline c then .ok s else .error .newlineInUnquoted

end State

/-- The rows that were read, and the one that is being read. -/
structure Reading where
  state : State
  rows : List Row
  deriving DecidableEq

namespace Reading

def init : Reading := { state := .init, rows := [] }

/-- A row is complete when a line has ended and no field is open. -/
def emit (r : Reading) (x : Option Char) : Reading :=
  if x = none ∧ r.state.mode = .startRecord then
    { state := .init, rows := r.rows ++ [r.state.fields] }
  else r

def feed (limit : Nat) : Reading → List (Option Char) → Except Error Reading
  | r, [] => .ok r
  | r, x :: xs =>
    match r.state.process limit x with
    | .ok state => feed limit (emit { r with state } x) xs
    | .error e => .error e

/-- A row that the text breaks off in counts as well. -/
def close (r : Reading) : List Row :=
  if r.state.field ≠ [] ∨ r.state.mode = .inQuoted then
    r.rows ++ [(r.state.save .startRecord).fields]
  else r.rows

end Reading

/-- The table that a file holds. -/
def parse (limit : Nat) (text : List Char) : Except Error (List Row) :=
  (Reading.init.feed limit (symbols (universal false text))).map Reading.close

end Csv
