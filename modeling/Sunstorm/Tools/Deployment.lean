import Sunstorm.Dict.Dict
import Sunstorm.Sorting.Sorting

/-!
# The numbers of the regions in a deployment

`tools/utils.py`: `get_namespaces`; `tools/deploy.py`: `deploy_neon`; `tools/benchmark.py`:
`Operation.run`, `Load` and `Execute`. The main configuration is what its file was parsed to, as the
`TypedDict`s describe it. The contexts of `kubectl` and the logs are not modelled.
-/

namespace Sunstorm

/-! ## The namespaces -/

/-- `RegionInfo`, with the fields that are read by `get`. -/
structure RegionInfo where
  id : Int
  targetAddressAndDatabase : Option String
  warmup : Option Int
  benchbaseInstances : Option Int
  deriving DecidableEq

/-- `MainConfig`. -/
structure MainConfig where
  globalRegion : String
  globalRegionTargetAddressAndDatabase : Option String
  regions : Option (Dict String RegionInfo)

/-- `NamespaceInfo`. -/
structure NamespaceInfo where
  region : String
  id : Int
  targetAddressAndDatabase : Option String
  warmup : Int
  benchbaseInstances : Int
  deriving DecidableEq

/-- The keys and the values as text. -/
def NamespaceInfo.items (info : NamespaceInfo) : List (String × String) :=
  [("region", info.region), ("id", toString info.id),
    ("target_address_and_database", info.targetAddressAndDatabase.getD "None"),
    ("warmup", toString info.warmup),
    ("benchbase_instances", toString info.benchbaseInstances)]

/-- A namespace: its name and its information. -/
abbrev Namespace : Type := String × NamespaceInfo

namespace MainConfig

/-- `config.get("regions") or {}`. -/
def regionDict (config : MainConfig) : Dict String RegionInfo := config.regions.getD Dict.empty

/-- The ids of the regions. -/
def regionIds (config : MainConfig) : List Int := config.regionDict.entries.map fun e => e.2.id

/-- The namespace of the global region. -/
def globalNamespace (config : MainConfig) : NamespaceInfo :=
  { region := config.globalRegion, id := 0
    targetAddressAndDatabase := config.globalRegionTargetAddressAndDatabase
    warmup := 0, benchbaseInstances := 1 }

/-- The namespace of a region. -/
def regionNamespace (e : String × RegionInfo) : Namespace :=
  (e.1,
    { region := e.1, id := e.2.id, targetAddressAndDatabase := e.2.targetAddressAndDatabase
      warmup := e.2.warmup.getD 0, benchbaseInstances := e.2.benchbaseInstances.getD 1 })

/-- `get_namespaces`. -/
def getNamespaces (config : MainConfig) : Dict String NamespaceInfo :=
  (Dict.empty.set "global" config.globalNamespace).setAll
    (config.regionDict.entries.map regionNamespace)

/-- The namespaces in the order of their ids. -/
def sortedNamespaces (config : MainConfig) : List Namespace :=
  Sorting.sortBy (fun ns => ns.2.id) config.getNamespaces.entries

end MainConfig

/-- `namespaces.{ns}.{k}={v}` for all `k` and `v`. -/
def namespaceSettings (ns : Namespace) : List String :=
  ns.2.items.map fun e => "namespaces." ++ ns.1 ++ "." ++ e.1 ++ "=" ++ e.2

/-- `ordered_namespaces`, as it is set. -/
def orderedSetting (names : List String) : String :=
  "ordered_namespaces=\x7b" ++ ",".intercalate names ++ "\x7d"

/-! ## Deployment -/

/-- A call of `helm` for a namespace. -/
inductive HelmCall where
  | uninstall (ns : String)
  /-- With the settings that are joined for `--set`. -/
  | install (ns region : String) (sets : List String)
  deriving DecidableEq

namespace MainConfig

/-- `ordered_namespaces` of `deploy_neon`. The key `int(id or 0)` is the id. -/
def orderedNamespaces (config : MainConfig) : List String := config.sortedNamespaces.map Prod.fst

/-- `deploy_neon_one_namespace`. Every namespace has an index. -/
def deployNeonOneNamespace (config : MainConfig) (ns : Namespace) : HelmCall :=
  .install ns.1 ns.2.region
    (config.getNamespaces.entries.flatMap namespaceSettings ++
      [orderedSetting config.orderedNamespaces,
        "namespace_id=" ++ toString (config.orderedNamespaces.idxOf ns.1)])

/-- `deploy_neon`. -/
def deployNeon (config : MainConfig) (cleanupOnly : Bool) : List HelmCall :=
  config.getNamespaces.entries.map (fun ns => .uninstall ns.1) ++
    if cleanupOnly then [] else config.getNamespaces.entries.map config.deployNeonOneNamespace

end MainConfig

/-! ## Benchmarks -/

/-- A call of `run_benchmark`. -/
structure BenchmarkRun where
  ns : String
  region : String
  sets : List String
  deleteOnly : Bool
  dryRun : Bool
  deriving DecidableEq

/-- The arguments of an operation. `--set` and `--regions` are empty if they are not given. -/
structure OperationArgs where
  set : List String
  regions : List String
  dryRun : Bool
  logsOnly : Bool
  deriving DecidableEq

namespace OperationArgs

/-- `regions and region not in regions`. -/
def skips (args : OperationArgs) (region : String) : Bool :=
  !args.regions.isEmpty && !args.regions.contains region

/-- `cls.settings`. -/
def settings (args : OperationArgs) (namespaces : List Namespace) : List String :=
  args.set ++ [orderedSetting (namespaces.map Prod.fst)] ++ namespaces.flatMap namespaceSettings

/-- A benchmark of a namespace, with its own settings after those of the operation. -/
def benchmark (args : OperationArgs) (namespaces : List Namespace) (ns : Namespace)
    (perRegion : List String) : BenchmarkRun :=
  { ns := ns.1, region := ns.2.region, sets := args.settings namespaces ++ perRegion
    deleteOnly := false, dryRun := args.dryRun }

end OperationArgs

/-- A setting that is left out if there is no value. -/
def optionalSetting (key : String) : Option String → List String
  | some value => if value = "" then [] else [key ++ "=" ++ value]
  | none => []

/-- A setting that is left out if the value is zero. -/
def nonzeroSetting (key : String) (value : Int) : List String :=
  if value = 0 then [] else [key ++ "=" ++ toString value]

namespace Load

/-- `per_region_settings`. -/
def perRegionSettings (id : Nat) (info : NamespaceInfo) : List String :=
  ["operation=load", "loadall=false", "namespace_id=" ++ toString id] ++
    optionalSetting "target_address_and_database" info.targetAddressAndDatabase

/-- `Load.do`. -/
def benchmarks (args : OperationArgs) (namespaces : List Namespace) : List BenchmarkRun :=
  (namespaces.zipIdx.filter fun e => !args.skips e.1.2.region).map fun e =>
    args.benchmark namespaces e.1 (perRegionSettings e.2 e.1.2)

/-- `Load.run`. -/
def run (config : MainConfig) (args : OperationArgs) : List BenchmarkRun :=
  if args.logsOnly then [] else benchmarks args config.sortedNamespaces

end Load

namespace Execute

/-- `ValueError` of a thread pool without workers. -/
inductive NoWorkers where
  | maxWorkers
  deriving DecidableEq

/-- `Execute.namespaces_without_global`. -/
def namespacesWithoutGlobal (args : OperationArgs) (namespaces : List Namespace) :
    List Namespace :=
  namespaces.filter fun ns => ns.1 ≠ "global" && !args.skips ns.2.region

/-- `per_region_settings`. -/
def perRegionSettings (timestamp : String) (info : NamespaceInfo) : List String :=
  ["operation=execute", "timestamp=" ++ timestamp, "namespace_id=" ++ toString info.id] ++
    optionalSetting "target_address_and_database" info.targetAddressAndDatabase ++
    nonzeroSetting "warmup" info.warmup ++ nonzeroSetting "instances" info.benchbaseInstances

/-- `Execute.do`, at the time `timestamp`. -/
def benchmarks (args : OperationArgs) (timestamp : String) (namespaces : List Namespace) :
    Except NoWorkers (List BenchmarkRun) :=
  let others := namespacesWithoutGlobal args namespaces
  if others = [] then .error .maxWorkers
  else .ok ((others.filter fun ns => !args.skips ns.2.region).map fun ns =>
    args.benchmark namespaces ns (perRegionSettings timestamp ns.2))

/-- `Execute.run`. -/
def run (config : MainConfig) (args : OperationArgs) (timestamp : String) :
    Except NoWorkers (List BenchmarkRun) :=
  if args.logsOnly then .ok [] else benchmarks args timestamp config.sortedNamespaces

end Execute

/-! ## The number of a namespace -/

/-- The value of a key in one setting. -/
def ownValue (key setting : String) : Option String :=
  if (key.toList ++ ['=']).isPrefixOf setting.toList then
    some (String.ofList (setting.toList.drop (key.length + 1)))
  else none

/-- The value of a key in a list of settings. The last one counts. -/
def settingValue (key : String) : List String → Option String
  | [] => none
  | setting :: rest => (settingValue key rest).or (ownValue key setting)

/-- `namespace_id`. -/
def namespaceId (sets : List String) : Option String := settingValue "namespace_id" sets

/-- Deployment, loading and execution give the namespace the same `namespace_id`. -/
def NumberedAlike (config : MainConfig) (ns : String) : Prop :=
  ∃ id : String,
    (∀ region sets, .install ns region sets ∈ config.deployNeon false →
      namespaceId sets = some id) ∧
    (∀ args, ∀ run ∈ Load.run config args, run.ns = ns → namespaceId run.sets = some id) ∧
    ∀ args timestamp runs, Execute.run config args timestamp = .ok runs →
      ∀ run ∈ runs, run.ns = ns → namespaceId run.sets = some id

/-- Every namespace but the global one has its id as its place. -/
def PlacedById (config : MainConfig) : Prop :=
  ∀ ns ∈ config.getNamespaces.entries, ns.1 ≠ "global" →
    (config.orderedNamespaces.idxOf ns.1 : Int) = ns.2.id

/-- The ids of the regions are 1, 2 and so on, and no region is called `global`. Or the only region
is. -/
def MainConfig.Consecutive (config : MainConfig) : Prop :=
  config.regionDict.keys = ["global"] ∨
    "global" ∉ config.regionDict.keys ∧
      config.regionIds.Perm ((List.range config.regionIds.length).map fun i : Nat => (i : Int) + 1)

end Sunstorm
