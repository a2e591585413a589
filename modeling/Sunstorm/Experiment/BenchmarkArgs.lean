import Mathlib.Data.List.Basic
import Sunstorm.Dict.Dict

/-!
# The parameter sets of an experiment

`tools/experiment.py`: `to_named_value`, `replace_values` and `benchmark_args`. An experiment is what
its file was parsed to, as the `TypedDict`s describe it. A `float` is kept with its text, as Python
prints it.
-/

namespace Sunstorm

/-- A `float`: its text, and its value unless it is infinite or not a number. -/
structure PyFloat where
  text : String
  value : Option Rat
  deriving DecidableEq

/-- `ParameterValue`. -/
inductive ParameterValue where
  | str (s : String)
  | int (n : Int)
  | float (x : PyFloat)
  | bool (b : Bool)
  deriving DecidableEq

namespace ParameterValue

/-- `str(value)`. -/
def toText : ParameterValue → String
  | str s => s
  | int n => toString n
  | float x => x.text
  | bool true => "True"
  | bool false => "False"

/-- The number that the value is equal to. A `bool` is 0 or 1. -/
def number : ParameterValue → Option Rat
  | str _ => none
  | int n => some n
  | float x => x.value
  | bool b => some b.toNat

/-- `==`. -/
def eq (a b : ParameterValue) : Bool :=
  match a.number, b.number with
  | some x, some y => x = y
  | none, none =>
    match a, b with
    | str s, str t => s = t
    | float x, float y => x.text = y.text ∧ x.text ≠ "nan"
    | _, _ => false
  | _, _ => false

/-- `escape`: the commas of a string. -/
def escape : ParameterValue → ParameterValue
  | str s => str (String.ofList (s.toList.flatMap fun c => if c = ',' then ['\\', ','] else [c]))
  | value => value

end ParameterValue

/-- `str` of a value or `None`. -/
def textOf : Option ParameterValue → String
  | some value => value.toText
  | none => "None"

/-- `==` of values or `None`. -/
def sameValue : Option ParameterValue → Option ParameterValue → Bool
  | some a, some b => a.eq b
  | none, none => true
  | _, _ => false

/-- `NamedParameterValue`. -/
structure NamedParameterValue where
  name : String
  value : Option ParameterValue
  deriving DecidableEq

/-- A value as the file gives it. -/
inductive GivenValue where
  | named (value : NamedParameterValue)
  | plain (value : Option ParameterValue)
  deriving DecidableEq

/-- The values of a parameter as the file gives them. -/
inductive GivenValues where
  | many (values : List GivenValue)
  | one (value : GivenValue)
  deriving DecidableEq

def GivenValues.toList : GivenValues → List GivenValue
  | many values => values
  | one value => [value]

/-- An entry of `param_keys`: a name, or a `ParameterKey` in which the flag may be missing. -/
inductive GivenKey where
  | plain (name : String)
  | keyed (name : String) (alwaysUsedInTag : Option Bool)
  deriving DecidableEq

/-- What a condition of a rule compares a parameter to. -/
inductive Condition where
  /-- A `dict`: the name. -/
  | named (name : String)
  /-- The value. -/
  | plain (value : Option ParameterValue)
  deriving DecidableEq

/-- `replace["match"]`. -/
inductive Conditions where
  /-- A list of alternatives; the empty one stands for a missing or empty `match` as well. -/
  | alternatives (clauses : List (List (String × Condition)))
  /-- Something that is neither empty nor a list. -/
  | malformed
  deriving DecidableEq

/-- `Replace`. -/
structure Replace where
  conditions : Conditions
  values : List (String × GivenValue)
  deriving DecidableEq

/-- `Experiment`, without `reload_every`. -/
structure Experiment where
  name : String
  dbtype : String
  benchmark : String
  scalefactor : Int
  time : Int
  rate : Int
  isolation : String
  paramKeys : List GivenKey
  paramValues : Dict String GivenValues
  replace : Option (List Replace)

/-- A choice of a value for every parameter. -/
abbrev Combination : Type := Dict String NamedParameterValue

/-- `ValueError`: its text, or the combination and the parameter that its text is made of. -/
inductive ValueError where
  | text (message : String)
  | noneValue (combination : Combination) (param : String)

/-- `param.split(".")[-1]`. -/
def paramSuffix (param : String) : String :=
  String.ofList (param.toList.reverse.takeWhile (· ≠ '.')).reverse

/-- `to_named_value`. -/
def toNamedValue (param : String) : GivenValue → NamedParameterValue
  | .named value => value
  | .plain value => ⟨paramSuffix param ++ textOf value, value⟩

/-- Whether the condition compares equal. -/
def Condition.holds (value : NamedParameterValue) : Condition → Bool
  | named name => name = value.name
  | plain expected => sameValue expected value.value

/-- Whether all conditions of an alternative hold. The first one that does not ends the search. -/
def clauseMatches (namedValues : Combination) : List (String × Condition) → Except ValueError Bool
  | [] => .ok true
  | (param, condition) :: rest =>
    match namedValues.get? param with
    | none => .error (.text ("Unknown parameter \"" ++ param ++ "\" specified in replace.match"))
    | some value => if condition.holds value then clauseMatches namedValues rest else .ok false

/-- Whether the rule is to be applied. All alternatives are looked at. -/
def Conditions.hold (namedValues : Combination) : Conditions → Except ValueError Bool
  | alternatives [] => .ok true
  | alternatives clauses => do
    let found ← clauses.mapM (clauseMatches namedValues)
    return found.any id
  | malformed => .error (.text "replace.match must be empty or a list of OR-ed conditions")

/-- Set the values of a rule. -/
def setValues (namedValues : Combination) : List (String × GivenValue) → Except ValueError Combination
  | [] => .ok namedValues
  | (param, value) :: rest =>
    if param ∈ namedValues.keys then
      setValues (namedValues.set param (toNamedValue param value)) rest
    else .error (.text ("Unknown parameter \"" ++ param ++ "\" specified in replace.set"))

/-- `replace_values`. -/
def replaceValues (namedValues : Combination) : List Replace → Except ValueError Combination
  | [] => .ok namedValues
  | replace :: rest => do
    let found ← replace.conditions.hold namedValues
    let namedValues ← if found then setValues namedValues replace.values else pure namedValues
    replaceValues namedValues rest

/-- What `benchmark_args` yields. -/
structure BenchmarkItem where
  args : List String
  metadata : Dict String ParameterValue
  tag : String

namespace Experiment

/-- `base_args`. -/
def baseArgs (exp : Experiment) : List String :=
  ["-s", "dbtype=" ++ exp.dbtype, "-s", "benchmark=" ++ exp.benchmark,
    "-s", "scalefactor=" ++ toString exp.scalefactor, "-s", "time=" ++ toString exp.time,
    "-s", "rate=" ++ toString exp.rate, "-s", "isolation=" ++ exp.isolation]

/-- `base_metadata`. -/
def baseMetadata (exp : Experiment) (tagPrefix : Option String) : Dict String ParameterValue :=
  Dict.empty.setAll
    [("prefix", .str (tagPrefix.getD "")), ("benchmark", .str exp.benchmark),
      ("scalefactor", .int exp.scalefactor), ("time", .int exp.time), ("rate", .int exp.rate),
      ("isolation", .str exp.isolation)]

/-- `param_keys`: the parameters in their order, and whether each is always used in the tag. -/
def keyFlags (exp : Experiment) : Dict String Bool :=
  Dict.empty.setAll (exp.paramKeys.map fun
    | .plain name => (name, false)
    | .keyed name alwaysUsedInTag => (name, alwaysUsedInTag.getD false))

/-- `named_parameters`. -/
def namedParameters (exp : Experiment) : Dict String (List NamedParameterValue) :=
  exp.paramValues.map fun param values => values.toList.map (toNamedValue param)

/-- `tag_params`: the parameters with more than one value and those that are always used. -/
def tagParams (exp : Experiment) : List String :=
  (exp.paramValues.entries.filter fun e =>
    1 < e.2.toList.length ∨ exp.keyFlags.get? e.1 = some true).map Prod.fst

/-- All combinations of the values of the parameters `params`, added to `combinations`. -/
def combine (exp : Experiment) : List String → List Combination → List Combination
  | [], combinations => combinations
  | param :: params, combinations =>
    exp.combine params (combinations.flatMap fun x =>
      ((exp.namedParameters.get? param).getD []).map fun v => x.set param v)

/-- `combinations`. -/
def combinations (exp : Experiment) : List Combination := exp.combine exp.keyFlags.keys [Dict.empty]

/-- The value of every parameter, unless one is `None`. -/
def presentValues (combination : Combination) :
    List (String × NamedParameterValue) → Except ValueError (List (String × ParameterValue))
  | [] => .ok []
  | (param, namedValue) :: rest =>
    match namedValue.value with
    | none => .error (.noneValue combination param)
    | some value => do
      let values ← presentValues combination rest
      return (param, value) :: values

/-- The names that the parameters of the tag have in the combination. -/
def tagNames (exp : Experiment) (combination : Combination) : List String :=
  (combination.entries.filter fun e => e.1 ∈ exp.tagParams).map fun e => e.2.name

/-- A part of the tag that may be missing or empty. -/
def optionalPart : Option String → List String
  | some part => if part = "" then [] else [part]
  | none => []

/-- `tag`. -/
def tag (exp : Experiment) (tagPrefix tagSuffix : Option String) (combination : Combination) :
    String :=
  "-".intercalate (optionalPart tagPrefix ++ [exp.name] ++ exp.tagNames combination ++
    optionalPart tagSuffix)

/-- The body of the loop of `benchmark_args`. -/
def item (exp : Experiment) (tagPrefix tagSuffix : Option String) (combination : Combination) :
    Except ValueError BenchmarkItem := do
  let combination ← replaceValues combination (exp.replace.getD [])
  let values ← presentValues combination combination.entries
  let tag := exp.tag tagPrefix tagSuffix combination
  return {
    args := exp.baseArgs ++
      values.flatMap (fun e => ["-s", e.1 ++ "=" ++ e.2.escape.toText]) ++ ["-s", "tag=" ++ tag]
    metadata := (exp.baseMetadata tagPrefix).setAll values
    tag }

/-- What a generator yields whose loop has the body `f`, and the exception that ends it. -/
def yields {α β ε : Type} (f : α → Except ε β) : List α → List β × Option ε
  | [] => ([], none)
  | a :: as =>
    match f a with
    | .ok b => (b :: (yields f as).1, (yields f as).2)
    | .error e => ([], some e)

/-- `benchmark_args`. -/
def benchmarkArgs (exp : Experiment) (tagPrefix tagSuffix : Option String) :
    List BenchmarkItem × Option ValueError :=
  if (∀ k ∈ exp.keyFlags.keys, k ∈ exp.paramValues.keys) ∧
      ∀ k ∈ exp.paramValues.keys, k ∈ exp.keyFlags.keys then
    yields (exp.item tagPrefix tagSuffix) exp.combinations
  else
    ([], some (.text "The parameters in param_values do not match those in param_keys"))

end Experiment

end Sunstorm
