import Sunstorm.Experiment.Progress
import Sunstorm.Machine.Machine

/-!
# The experiment runner

`tools/experiment.py`: the loop of `main`. A session goes through the cases of an experiment, skips
those that the progress file says are done, and calls `benchmark.main` for the others. It can be
interrupted wherever it waits; a later session goes on from the file.

What `main` does before the loop (it prints, asks whether to start, checks the connection to MinIO)
and the result collector are not part of it.
-/

namespace Sunstorm

/-- The command line. -/
structure RunArgs where
  new : Bool
  tagPrefix : Option String
  skipCreateLoad : Bool
  sload : Bool
  dryRun : Bool
  interactive : Bool
  logsPerSec : Int
  set : Option (List String)

/-- `create_set_arg`. -/
def createSetArg (args : RunArgs) : List String := (args.set.getD []).flatMap fun s => ["-s", s]

/-- What `benchmark.main` returns. -/
structure BenchmarkResult where
  throughput : PyFloat
  goodput : PyFloat

/-- What `benchmark.main` is called for. -/
inductive BenchmarkOperation where
  | create
  | load
  | execute
  deriving DecidableEq

/-- The exceptions that end `main`. -/
inductive RunError where
  | value (e : ValueError)
  | key (key : String)
  | load (e : LoadError)

/-- Where a session is. In the loop, it works on a case and on the record at a position. -/
inductive RunStage where
  /-- At the head of the loop. -/
  | head
  /-- It asks whether to continue. -/
  | asking (i : Nat) (x : BenchmarkItem)
  /-- It waits for `benchmark.main`. -/
  | calling (op : BenchmarkOperation) (i : Nat) (x : BenchmarkItem)
  /-- It is about to save the progress. -/
  | saving (i : Nat) (x : BenchmarkItem)
  /-- It was told not to continue. -/
  | declined
  /-- `main` has returned 0 after the last case, or raised. -/
  | ended (r : Except RunError Unit)

/-- What happens in a session. -/
inductive RunEvent where
  | called (args : List String)
  | loaded
  | executed (x : BenchmarkItem) (result : BenchmarkResult)
  | failed (x : BenchmarkItem)

/-- A run of `main`. -/
structure RunSession where
  args : RunArgs
  reloadEvery : Int
  /-- The cases of the experiment. -/
  items : List BenchmarkItem
  /-- How `benchmark_args` ends. -/
  ending : Option ValueError
  /-- The cases that are still to come. -/
  rest : List BenchmarkItem
  reloadCounter : Int
  stage : RunStage
  /-- What has happened, oldest first. -/
  events : List RunEvent
  /-- The cases whose success was saved when the session started, and those that it has executed with
  success itself. With `--new` it starts with none. A success is forgotten when the session ends before
  it is saved. -/
  succeeded : List (Dict String String)

namespace RunSession

/-- The arguments of `benchmark.main`. -/
def callArgs (self : RunSession) (x : BenchmarkItem) (op : BenchmarkOperation) : List String :=
  let dryRunArg := if self.args.dryRun then ["--dry-run"] else []
  let operation :=
    match op with
    | .create => ["create"]
    | .load => [if self.args.sload then "sload" else "load"]
    | .execute => ["execute", "--logs-per-sec", toString self.args.logsPerSec]
  operation ++ x.args ++ createSetArg self.args ++ dryRunArg

/-- Call `benchmark.main`. -/
def call (self : RunSession) (op : BenchmarkOperation) (i : Nat) (x : BenchmarkItem) : RunSession :=
  { self with
    stage := .calling op i x
    events := self.events ++ [.called (self.callArgs x op)] }

/-- Start to work on a case. The database is created and loaded again when the counter is 0. -/
def begin (self : RunSession) (i : Nat) (x : BenchmarkItem) : RunSession :=
  if self.args.skipCreateLoad = false ∧ self.reloadCounter = 0 then self.call .create i x
  else self.call .execute i x

/-- An exception was caught. -/
def fail (self : RunSession) (i : Nat) (x : BenchmarkItem) : RunSession :=
  { self with
    reloadCounter := 0
    stage := .saving i x
    events := self.events ++ [.failed x] }

/-- The execution was successful. -/
def succeed (self : RunSession) (i : Nat) (x : BenchmarkItem) (result : BenchmarkResult) :
    RunSession :=
  { self with
    reloadCounter := self.reloadCounter - 1
    stage := .saving i x
    events := self.events ++ [.executed x result]
    succeeded := self.succeeded ++ [metadataTexts x.metadata] }

/-- The database was created and loaded. -/
def reloaded (self : RunSession) (i : Nat) (x : BenchmarkItem) : RunSession :=
  RunSession.call
    { self with reloadCounter := self.reloadEvery, events := self.events ++ [.loaded] } .execute i x

end RunSession

/-- The progress file, and the session if there is one. -/
structure Runner where
  progress : Progress
  /-- The cases whose success is saved in the file. -/
  recorded : List (Dict String String)
  session : Option RunSession

namespace Runner

/-- No progress file yet. -/
def init : Runner :=
  { progress := { file := none, progress := [] }, recorded := [], session := none }

/-- What can happen. -/
inductive Act where
  /-- `main` is called, and gets to the loop. -/
  | launch (exp : Experiment) (reloadEvery : Option Int) (args : RunArgs) (timestamp : String)
  /-- The loop looks at the next case. -/
  | next
  /-- The question whether to continue is answered. -/
  | confirm (yes : Bool)
  /-- `benchmark.main` returns. -/
  | returned (result : BenchmarkResult)
  /-- The question or `benchmark.main` raises an exception. -/
  | raised
  /-- The progress is saved. -/
  | saved
  /-- The process of the session ends, or is interrupted. -/
  | kill

/-- `main` up to the loop. -/
def launch (self : Runner) (exp : Experiment) (reloadEvery : Option Int) (args : RunArgs)
    (timestamp : String) : Runner :=
  let cases := exp.benchmarkArgs args.tagPrefix (some timestamp)
  let session : RunSession :=
    { args, reloadEvery := reloadEvery.getD 0, items := cases.1, ending := cases.2, rest := cases.1
      reloadCounter := 0, stage := .head, events := [], succeeded := [] }
  let progress : Progress := { file := self.progress.file, progress := [] }
  if args.new then { self with progress, session := some session }
  else
    let session := { session with succeeded := self.recorded }
    match progress.load with
    | .ok progress => { self with progress, session := some session }
    | .error e =>
      { self with progress, session := some { session with stage := .ended (.error (.load e)) } }

/-- What the loop does with the case `x`, whose record has the position `i`. -/
def look (s : RunSession) (i : Nat) (x : BenchmarkItem) :
    Option (Option ParameterValue) → RunSession
  | none => { s with stage := .ended (.error (.key "status")) }
  | some status =>
    if status ∉ Progress.statuses.map (fun text => some (.str text)) then
      { s with stage := .ended (.error (.value (.text ("Unknown status: " ++ textOf status)))) }
    else if status = some (.str "done") then { s with stage := .head }
    else if s.args.interactive then { s with stage := .asking i x }
    else s.begin i x

/-- The head of the loop. -/
def next (self : Runner) (s : RunSession) : Runner :=
  match s.rest with
  | [] =>
    { self with
      session := some { s with
        stage := .ended (match s.ending with
          | some e => .error (.value e)
          | none => .ok ()) } }
  | x :: rest =>
    let found := self.progress.getOrInsert x.metadata
    { progress := found.1
      recorded := if found.2 < self.progress.progress.length then self.recorded else s.succeeded
      session := some (look { s with rest } found.2 x
        (found.1.progress[found.2]?.bind fun record => record.get? "status")) }

/-- One step. -/
def step (self : Runner) : Act → Option Runner
  | .launch exp reloadEvery args timestamp =>
    match self.session with
    | none => some (self.launch exp reloadEvery args timestamp)
    | some _ => none
  | .next =>
    match self.session with
    | some s =>
      match s.stage with
      | .head => some (self.next s)
      | _ => none
    | none => none
  | .confirm yes =>
    match self.session with
    | some s =>
      match s.stage with
      | .asking i x =>
        some { self with
          session := some (if yes then s.begin i x else { s with stage := .declined }) }
      | _ => none
    | none => none
  | .returned result =>
    match self.session with
    | some s =>
      match s.stage with
      | .calling .create i x => some { self with session := some (s.call .load i x) }
      | .calling .load i x =>
        some { self with
          progress := self.progress.update i [("reloaded", .bool true)]
          session := some (s.reloaded i x) }
      | .calling .execute i x =>
        some { self with
          progress := self.progress.update i
            [("throughput", .float result.throughput), ("goodput", .float result.goodput),
              ("tag", .str x.tag), ("status", .str "done")]
          session := some (s.succeed i x result) }
      | _ => none
    | none => none
  | .raised =>
    match self.session with
    | some s =>
      match s.stage with
      | .asking i x | .calling _ i x =>
        some { self with
          progress := self.progress.update i [("status", .str "error")]
          session := some (s.fail i x) }
      | _ => none
    | none => none
  | .saved =>
    match self.session with
    | some s =>
      match s.stage with
      | .saving _ _ =>
        some { progress := self.progress.save, recorded := s.succeeded
               session := some { s with stage := .head } }
      | _ => none
    | none => none
  | .kill => some { self with session := none }

end Runner

end Sunstorm
