import Sunstorm.Tools.Deployment

/-!
# Running a benchmark

`tools/benchmark.py`: `run_benchmark`, and the operations `Create`, `SLoad` and `Delete`. A setting
can have a value for each region; `run_benchmark` hands over what is for its own region. The calls
that `Load`, `Execute` and `Delete` make are made by the workers of a pool, which drop what they
raise. What the programs do, and that they fail, is not modelled.
-/

namespace Sunstorm

/-! ## The operations of one namespace -/

namespace OperationArgs

/-- `run_benchmark` is called for the global namespace, unless its region is skipped. -/
def globalBenchmark (args : OperationArgs) (config : MainConfig) (own : List String) :
    List BenchmarkRun :=
  if args.skips config.globalRegion then []
  else
    [{ ns := "global", region := config.globalRegion
       sets := args.settings config.sortedNamespaces ++ own ++
         optionalSetting "target_address_and_database" config.globalRegionTargetAddressAndDatabase
       deleteOnly := false, dryRun := args.dryRun }]

/-- `run_benchmark` is called to delete what an operation has left. -/
def deletion (args : OperationArgs) (config : MainConfig) (ns region operation : String) :
    BenchmarkRun :=
  { ns, region, sets := args.settings config.sortedNamespaces ++ ["operation=" ++ operation]
    deleteOnly := true, dryRun := args.dryRun }

end OperationArgs

/-- `Create.run`. -/
def Create.run (config : MainConfig) (args : OperationArgs) : List BenchmarkRun :=
  if args.logsOnly then [] else args.globalBenchmark config ["operation=create"]

/-- `SLoad.run`. -/
def SLoad.run (config : MainConfig) (args : OperationArgs) : List BenchmarkRun :=
  if args.logsOnly then [] else args.globalBenchmark config ["operation=load", "loadall=true"]

/-- `Delete.run`. -/
def Delete.run (config : MainConfig) (args : OperationArgs) : List BenchmarkRun :=
  if args.logsOnly then []
  else
    (if args.skips config.globalRegion then []
      else [args.deletion config "global" config.globalRegion "create"]) ++
    (config.sortedNamespaces.filter fun ns => !args.skips ns.2.region).flatMap fun ns =>
      [args.deletion config ns.1 ns.2.region "load", args.deletion config ns.1 ns.2.region "execute"]

/-- One of the operations calls `run_benchmark`, `Execute` at the time `timestamp`. -/
def Benchmarked (config : MainConfig) (args : OperationArgs) (timestamp : String)
    (run : BenchmarkRun) : Prop :=
  run ∈ Create.run config args ∨ run ∈ SLoad.run config args ∨ run ∈ Load.run config args ∨
    (∃ runs, Execute.run config args timestamp = .ok runs ∧ run ∈ runs) ∨
    run ∈ Delete.run config args

/-! ## `run_benchmark` -/

/-- `ValueError`, with its text. -/
inductive SettingError where
  | tooManyValues
  | invalid (text : String)
  deriving DecidableEq

/-- `str.isspace`, for a character. -/
def isSpace (c : Char) : Bool :=
  let n := c.toNat
  (9 ≤ n && n ≤ 13) || (28 ≤ n && n ≤ 32) || n = 0x85 || n = 0xa0 || n = 0x1680 ||
    (0x2000 ≤ n && n ≤ 0x200a) || n = 0x2028 || n = 0x2029 || n = 0x202f || n = 0x205f ||
    n = 0x3000

/-- `s.strip()`. -/
def strip (s : String) : String :=
  String.ofList ((s.toList.dropWhile isSpace).reverse.dropWhile isSpace).reverse

/-- `s.split("=!")`. -/
def splitMarks : List Char → List (List Char)
  | [] => [[]]
  | [c] => [[c]]
  | c :: d :: cs =>
    if c = '=' ∧ d = '!' then [] :: splitMarks cs
    else
      match splitMarks (d :: cs) with
      | [] => [[c]]
      | piece :: pieces => (c :: piece) :: pieces

/-- What a value for a region comes to in the region `region`. -/
def regionValue (region key : String) (perRegionValue : List Char) :
    Except SettingError (List String) :=
  match perRegionValue.splitOn ':' with
  | [_] => .error (.invalid ("Invalid per-region value: " ++ String.ofList perRegionValue))
  | [targetRegion, val] =>
    .ok (if strip (String.ofList targetRegion) = region then
      [key ++ "=" ++ strip (String.ofList val)] else [])
  | _ => .error .tooManyValues

/-- What a setting comes to in the region. -/
def helmSet (region s : String) : Except SettingError (List String) :=
  match splitMarks s.toList with
  | [_] => .ok [s]
  | [key, value] =>
    ((value.splitOn ';').mapM (regionValue region (String.ofList key))).map List.flatten
  | _ => .error .tooManyValues

/-- The settings that are handed to `helm`. -/
def helmSets (region : String) (sets : List String) : Except SettingError (List String) :=
  (sets.mapM (helmSet region)).map List.flatten

/-- The programs that are run. -/
inductive BenchmarkCall where
  | template (ns : String) (sets : List String) (debug : Bool)
  | delete (ns context : String)
  | apply (ns context : String)
  deriving DecidableEq

/-- `run_benchmark`, in a region with the context `context`. In a dry run only `helm` is run. -/
def runBenchmark (context : String) (run : BenchmarkRun) :
    Except SettingError (List BenchmarkCall) :=
  (helmSets run.region run.sets).map fun sets =>
    [.template run.ns sets run.dryRun] ++
      if run.dryRun then []
      else if run.deleteOnly then [.delete run.ns context]
      else [.delete run.ns context, .apply run.ns context]

/-! ## Values per region -/

/-- The setting has no mark for values per region. -/
def IsPlain (s : String) : Prop := splitMarks s.toList = [s.toList]

instance (s : String) : Decidable (IsPlain s) :=
  inferInstanceAs (Decidable (splitMarks s.toList = [s.toList]))

/-- A setting with values per region. -/
def perRegionSetting (key : String) (values : List (String × String)) : String :=
  key ++ "=!" ++ ";".intercalate (values.map fun e => e.1 ++ ":" ++ e.2)

/-- The values of a region. -/
def valuesOf (region : String) (values : List (String × String)) : List String :=
  (values.filter fun e => strip e.1 = region).map fun e => strip e.2

/-- The text has none of the characters that stand between values. -/
def Unmarked (s : String) : Prop := ':' ∉ s.toList ∧ ';' ∉ s.toList ∧ '!' ∉ s.toList

instance (s : String) : Decidable (Unmarked s) :=
  inferInstanceAs (Decidable (':' ∉ s.toList ∧ ';' ∉ s.toList ∧ '!' ∉ s.toList))

/-- What an argument of `--set` is meant to say. -/
inductive Setting where
  /-- A setting for all regions. -/
  | plain (text : String)
  /-- A setting with values for single regions. -/
  | perRegion (key : String) (values : List (String × String))

namespace Setting

/-- The argument. -/
def text : Setting → String
  | plain text => text
  | perRegion key values => perRegionSetting key values

/-- The argument can be read as it is meant. -/
def WellFormed : Setting → Prop
  | plain text => IsPlain text
  | perRegion key values => '=' ∉ key.toList ∧ '!' ∉ key.toList ∧ values ≠ [] ∧
      ∀ e ∈ values, Unmarked e.1 ∧ Unmarked e.2

instance : (s : Setting) → Decidable s.WellFormed
  | plain text => inferInstanceAs (Decidable (IsPlain text))
  | perRegion key values => inferInstanceAs (Decidable ('=' ∉ key.toList ∧ '!' ∉ key.toList ∧
      values ≠ [] ∧ ∀ e ∈ values, Unmarked e.1 ∧ Unmarked e.2))

/-- The value that the setting gives the key in the region: of several values for the region, the
last. -/
def valueIn (region key : String) : Setting → Option String
  | plain text => ownValue key text
  | perRegion key' values => if key' = key then (valuesOf region values).getLast? else none

end Setting

/-- The value that the settings give the key in the region. Of several settings, the last one counts
that has a value for the region. -/
def valueIn (region key : String) : List Setting → Option String
  | [] => none
  | s :: settings => (valueIn region key settings).or (s.valueIn region key)

/-- What an operation adds to the settings that it was given. -/
def BenchmarkRun.added (args : OperationArgs) (run : BenchmarkRun) : List String :=
  run.sets.drop args.set.length

end Sunstorm
