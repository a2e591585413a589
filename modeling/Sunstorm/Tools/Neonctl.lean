import Sunstorm.Sorting.Sorting

/-!
# The tool for local clusters

`tools/neonctl.py`: the commands `create` and `start`. A command is what it does to the directories
and which programs it runs, in its order, if no program fails. The search for the binaries, their
environment and what is logged are not modelled.
-/

namespace Sunstorm

/-- `os.path.join`. -/
def joinPath (path name : String) : String :=
  if name.toList.head? = some '/' then name
  else if path = "" ∨ path.toList.getLast? = some '/' then path ++ name
  else path ++ "/" ++ name

namespace Neonctl

/-- The programs that are run. -/
inductive Program where
  | neonLocal
  | xactserver
  deriving DecidableEq

/-- A call of `Neon.run` or `XactServer.run`. In a dry run the program is not started, only its
command line is shown. -/
structure Call where
  program : Program
  args : List String
  cwd : String
  dryRun : Bool
  deriving DecidableEq

/-- One thing that a command does. -/
inductive Act where
  | makedirs (path : String)
  | cloneNeon (src dst : String) (ordinal : Nat)
  | run (call : Call)
  deriving DecidableEq

/-- `list index out of range`. -/
inductive IndexError where
  | outOfRange
  deriving DecidableEq

/-! ## `create` -/

/-- The arguments of `create`. -/
structure CreateArgs where
  dataDir : String
  dryRun : Bool
  numRegions : Int
  pgVersion : String
  regionPrefix : String
  keepNeon : Bool
  pageserverConfig : List String
  tenantConfig : List String

namespace CreateArgs

/-- `region_names`. -/
def regionNames (args : CreateArgs) : List String :=
  (List.range (args.numRegions + 1).toNat).map (Sorting.numbered args.regionPrefix)

/-- The regions but the global one, with their indices. -/
def otherRegions (args : CreateArgs) : List (String × Nat) :=
  args.regionNames.zipIdx.filter fun e => e.2 ≠ 0

def regionDir (args : CreateArgs) (region : String) : String := joinPath args.dataDir region

/-- `neon.run`. -/
def neon (args : CreateArgs) (words : List String) (cwd : String) : Act :=
  .run { program := .neonLocal, args := words, cwd, dryRun := args.dryRun }

/-- `os.makedirs`, unless the run is dry. -/
def makedirs (args : CreateArgs) (path : String) : List Act :=
  if args.dryRun then [] else [.makedirs path]

/-- The calls that set the global region up. -/
def initGlobal (args : CreateArgs) (dir : String) : List Act :=
  args.makedirs dir ++
    [args.neon ["init", "--pg-version", args.pgVersion] dir,
      args.neon (["start"] ++
        args.pageserverConfig.flatMap fun c => ["--pageserver-config-override", c]) dir,
      args.neon (["tenant", "create", "--set-default", "--pg-version", args.pgVersion] ++
        args.tenantConfig.flatMap fun c => ["-c", c]) dir]

/-- The timeline of a region. -/
def branchTimeline (args : CreateArgs) (globalDir : String) (region : String) (i : Nat) : Act :=
  args.neon ["timeline", "branch", "--branch-name", region, "--region-id", toString i] globalDir

/-- The copy of the global region for a region. -/
def cloneRegion (args : CreateArgs) (globalDir : String) (region : String) (i : Nat) : List Act :=
  if args.dryRun then []
  else [.makedirs (args.regionDir region), .cloneNeon globalDir (args.regionDir region) i]

/-- The endpoint of a region. -/
def createEndpoint (args : CreateArgs) (region : String) (i : Nat) : Act :=
  args.neon
    ["endpoint", "create", region, "--branch-name", region, "--pg-port", toString (55432 + 2 * i),
      "--http-port", toString (55432 + 2 * i + 1), "--pg-version", args.pgVersion]
    (args.regionDir region)

/-- `CreateCommand.do_command`. -/
def doCommand (args : CreateArgs) : Except IndexError (List Act) :=
  match args.regionNames[0]? with
  | none => .error .outOfRange
  | some globalRegion =>
    let globalDir := args.regionDir globalRegion
    .ok (args.initGlobal globalDir ++
      args.otherRegions.map (fun e => args.branchTimeline globalDir e.1 e.2) ++
      (if args.keepNeon then [] else [args.neon ["stop"] globalDir]) ++
      args.otherRegions.flatMap (fun e => args.cloneRegion globalDir e.1 e.2) ++
      args.otherRegions.map fun e => args.createEndpoint e.1 e.2)

end CreateArgs

/-! ## `start` -/

/-- An entry of a directory. -/
structure DirEntry where
  name : String
  isDir : Bool
  deriving DecidableEq

/-- The names of the directories, as `os.listdir` happens to list them. -/
def dirNames (listing : List DirEntry) : List String := (listing.filter DirEntry.isDir).map DirEntry.name

/-- `get_regions_in_root_dir`. -/
def getRegionsInRootDir (listing : List DirEntry) : List String :=
  Sorting.sortBy id (dirNames listing)

/-- The arguments of `start`, and the path of `valgrind.supp`. -/
structure StartArgs where
  dataDir : String
  dryRun : Bool
  noXactserver : Bool
  pgVersion : String
  valgrind : Bool
  valgrindSupp : String

namespace StartArgs

/-- `regions_and_dirs`. -/
def regionsAndDirs (args : StartArgs) (listing : List DirEntry) : List (String × String) :=
  (getRegionsInRootDir listing).map fun r => (r, joinPath args.dataDir r)

/-- `valgrind_args`. -/
def valgrindArgs (args : StartArgs) : List String :=
  ["valgrind", "--leak-check=no", "--error-markers=VALGRINDERROR-BEGIN,VALGRINDERROR-END",
    "--suppressions=" ++ args.valgrindSupp, "--trace-children=yes", "--time-stamp=yes"]

/-- `neon.run`. -/
def neon (args : StartArgs) (words : List String) (cwd : String) : Act :=
  .run { program := .neonLocal, args := words, cwd, dryRun := args.dryRun }

/-- `start_args`. -/
def endpointArgs (args : StartArgs) (region : String) : List String :=
  ["endpoint", "start", region, "--pg-version", args.pgVersion] ++
    if args.valgrind then ["--valgrind", " ".intercalate args.valgrindArgs] else []

/-- The calls that start neon and the endpoint of a region. -/
def startNeon (args : StartArgs) (region dir : String) : List Act :=
  [args.neon ["start"] dir, args.neon (args.endpointArgs region) dir]

/-- The address of the xactserver `i` in `xactserver_nodes`. -/
def nodeAddress (i : Nat) : String := "http://localhost:" ++ toString (23000 + i)

/-- The arguments of the xactserver `i` of `count`. -/
def xactserverArgs (count i : Nat) : List String :=
  ["--node-id", toString i, "--listen-pg", "127.0.0.1:" ++ toString (10000 + i),
    "--connect-pg",
    "postgresql://cloud_admin@localhost:" ++ toString (55432 + 2 * i) ++ "/postgres",
    "--nodes", ",".intercalate ((List.range count).map nodeAddress),
    "--listen-http", "127.0.0.1:" ++ toString (8080 + i),
    "--listen-peer", "0.0.0.0:" ++ toString (23000 + i)]

/-- `xactserver.run`. -/
def startXactserver (args : StartArgs) (count : Nat) (dir : String) (i : Nat) : Act :=
  .run { program := .xactserver, args := xactserverArgs count i, cwd := dir
         dryRun := args.dryRun || args.noXactserver }

/-- `start_all_regions`, on the listing of the data directory. -/
def startAllRegions (args : StartArgs) (listing : List DirEntry) : List Act :=
  let regions := args.regionsAndDirs listing
  regions.flatMap (fun e => args.startNeon e.1 e.2) ++
    regions.zipIdx.map fun e => args.startXactserver regions.length e.1.2 e.2

end StartArgs

/-! ## The numbers that the programs are given -/

/-- The value of an option on a command line that consists of options. -/
def optionValue (name : String) : List String → Option String
  | option :: value :: rest => if option = name then some value else optionValue name rest
  | _ => none

/-- The calls among what a command does. -/
def calls (acts : List Act) : List Call :=
  acts.filterMap fun
    | .run call => some call
    | _ => none

/-- The xactservers that a command starts. -/
def xactservers (acts : List Act) : List Call :=
  (calls acts).filter fun call => call.program = .xactserver

/-- The addresses on a list of addresses. -/
def addresses (nodes : String) : List String := (nodes.toList.splitOn ',').map String.ofList

namespace Call

/-- The port of the endpoint that the call creates. -/
def createdPort (call : Call) : Option String :=
  if call.program = .neonLocal ∧ call.args.take 2 = ["endpoint", "create"] then
    optionValue "--pg-port" (call.args.drop 3)
  else none

/-- The xactserver has the node id `i`, connects to the endpoint at the port `pgPort`, and is the one
that all nodes find at the position `i`. -/
structure HasNumber (call : Call) (i : Nat) (pgPort : String) : Prop where
  nodeId : optionValue "--node-id" call.args = some (toString i)
  connectPg : optionValue "--connect-pg" call.args =
    some ("postgresql://cloud_admin@localhost:" ++ pgPort ++ "/postgres")
  nodes : ∃ nodes port, optionValue "--nodes" call.args = some nodes ∧
    optionValue "--listen-peer" call.args = some ("0.0.0.0:" ++ port) ∧
    (addresses nodes)[i]? = some ("http://localhost:" ++ port)

end Call

/-- What was created in the directory of the region `i` is started with the number of the region: the
endpoint has the port of the region, and every xactserver in the directory has its number. -/
structure KeepsNumber (created started : List Act) (dir : String) (i : Nat) : Prop where
  endpoint : ∃ call ∈ calls created, call.cwd = dir ∧
    call.createdPort = some (toString (55432 + 2 * i))
  running : ∃ call ∈ xactservers started, call.cwd = dir
  numbered : ∀ call ∈ xactservers started, call.cwd = dir →
    call.HasNumber i (toString (55432 + 2 * i))

end Neonctl

end Sunstorm
