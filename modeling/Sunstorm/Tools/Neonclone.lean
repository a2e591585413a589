import Mathlib.Data.List.Basic
import Mathlib.Logic.Function.Basic
import Sunstorm.Tools.Neonctl
import Sunstorm.Tools.RunBenchmark

/-!
# The tool that clones a neon directory

`tools/neonclone.py`. A clone gets ports and ids of its own: they are moved by the number of the
clone. Of the configuration files only what is changed in them is modelled; that a key is missing is
not. The digits of a number are those of ASCII.
-/

namespace Sunstorm

namespace Neonclone

/-- What is raised. -/
inductive Raised where
  | cloneError (text : String)
  | fileExistsError
  | valueError
  | osError
  deriving DecidableEq

/-! ## Addresses -/

/-- A number without a sign. Between two digits there may be an underscore. -/
def readDigits (cs : List Char) : Option Int :=
  if (cs.splitOn '_').all fun ds => ds ≠ [] && ds.all Char.isDigit then
    some (Nat.ofDigitChars 10 (cs.filter fun c => c ≠ '_') 0)
  else none

/-- A number with or without a sign. -/
def readSigned : List Char → Option Int
  | [] => none
  | c :: cs =>
    if c = '-' then (readDigits cs).map fun n => -n
    else if c = '+' then readDigits cs
    else readDigits (c :: cs)

/-- `int(s)`. -/
def readInt (s : String) : Option Int := readSigned (strip s).toList

/-- `hostname or old_hostname`. -/
def hostnameOr (hostname : Option String) (oldHostname : String) : String :=
  match hostname with
  | some h => if h = "" then oldHostname else h
  | none => oldHostname

/-- The host and the port of an address, which are separated by the only colon in it. -/
def hostAndPort (addr : String) : Option (String × Int) :=
  match addr.toList.splitOn ':' with
  | [hostname, port] => (readInt (String.ofList port)).map fun port => (String.ofList hostname, port)
  | _ => none

/-- `change_addr`. -/
def changeAddr (ordinal : Int) (hostname : Option String) (addr : String) : Except Raised String :=
  match hostAndPort addr with
  | some (oldHostname, port) =>
    .ok (hostnameOr hostname oldHostname ++ ":" ++ toString (port + ordinal))
  | none => .error .valueError

/-! ## The directory -/

/-- `pageserver.toml`, and the section of it in `config`. -/
@[ext] structure Pageserver where
  listenHttpAddr : String
  listenPgAddr : String
  id : Int
  deriving DecidableEq

/-- A safekeeper in `config`. -/
structure Safekeeper where
  id : Int
  httpPort : Int
  pgPort : Int
  deriving DecidableEq

/-- The file `config`. -/
@[ext] structure Config where
  pageserver : Pageserver
  /-- `listen_pg_addr` of the section `xactserver`. -/
  xactserver : String
  safekeepers : List Safekeeper
  deriving DecidableEq

/-- `num_sk`. -/
def Config.numSk (self : Config) : Int := self.safekeepers.length

/-- An entry of the directory `safekeepers`. The files have names and contents. -/
inductive Entry where
  | file
  | dir (files : List (String × String))
  deriving DecidableEq

/-- The directory `.neon`. -/
@[ext] structure Neon where
  pageserverToml : Pageserver
  config : Config
  /-- The directory `safekeepers`, if there is one. -/
  safekeepers : Option (String → Option Entry)

/-- `edit_configs`. Where it raises, the first file may have been written. -/
def editConfigs (ordinal : Int) (hostname : Option String) (neon : Neon) :
    Except Raised Unit × Neon :=
  match changeAddr ordinal hostname neon.pageserverToml.listenHttpAddr with
  | .error e => (.error e, neon)
  | .ok listenHttpAddr =>
    match changeAddr ordinal hostname neon.pageserverToml.listenPgAddr with
    | .error e => (.error e, neon)
    | .ok listenPgAddr =>
      let pageserver : Pageserver :=
        { listenHttpAddr, listenPgAddr, id := neon.pageserverToml.id + ordinal }
      let neon := { neon with pageserverToml := pageserver }
      match changeAddr ordinal hostname neon.config.xactserver with
      | .error e => (.error e, neon)
      | .ok xactserver =>
        let safekeepers := neon.config.safekeepers.map fun sk =>
          { sk with httpPort := sk.httpPort + ordinal, pgPort := sk.pgPort + ordinal }
        (.ok (), { neon with config := { pageserver, xactserver, safekeepers } })

/-- The name of the directory of a safekeeper. -/
def skName (id : Int) : String := "sk" ++ toString id

/-- `Path.rename`, for a directory. An empty directory gives way. -/
def rename (fs : String → Option Entry) (old new : String) : Except Raised (String → Option Entry) :=
  let moved := Function.update (Function.update fs old none) new (fs old)
  if old = new then .ok fs
  else
    match fs new with
    | none => .ok moved
    | some (.dir []) => .ok moved
    | some _ => .error .osError

/-- `unlink`, for the file `safekeeper.id`. -/
def Entry.unlinkId : Entry → Entry
  | file => file
  | dir files => dir (files.filter fun f => f.1 ≠ "safekeeper.id")

/-- The loop of `edit_safekeeper_ids`, with `num_sk * ordinal` as `shift`. -/
def renameAll (shift : Int) :
    List Safekeeper → (String → Option Entry) →
      Except Raised (List Safekeeper) × (String → Option Entry)
  | [], fs => (.ok [], fs)
  | sk :: sks, fs =>
    let newId := sk.id + shift
    match fs (skName sk.id) with
    | some (.dir _) =>
      match rename fs (skName sk.id) (skName newId) with
      | .error e => (.error e, fs)
      | .ok fs =>
        let fs := Function.update fs (skName newId) ((fs (skName newId)).map Entry.unlinkId)
        match renameAll shift sks fs with
        | (.ok sks, fs) => (.ok ({ sk with id := newId } :: sks), fs)
        | (.error e, fs) => (.error e, fs)
    | _ =>
      (.error (.cloneError ("Cannot find directory for safekeeper 'sk" ++ toString sk.id ++ "'")), fs)

/-- `edit_safekeeper_ids`. -/
def editSafekeeperIds (ordinal : Int) (dstNeon : String) (neon : Neon) :
    Except Raised Unit × Neon :=
  match neon.safekeepers with
  | none =>
    (.error (.cloneError ("Safekeepers directory not found or not a directory: '" ++
      joinPath dstNeon "safekeepers" ++ "'")), neon)
  | some fs =>
    match renameAll (neon.config.numSk * ordinal) neon.config.safekeepers fs with
    | (.ok safekeepers, fs) =>
      (.ok (), { neon with config := { neon.config with safekeepers }, safekeepers := some fs })
    | (.error e, fs) => (.error e, { neon with safekeepers := some fs })

/-- What is at a path: a directory, which may contain `.neon`, or something else. -/
abbrev Place : Type := Option (Option Neon)

/-- `deep_copy_neon`. -/
def deepCopyNeon (src dst : String) : Place → Place → Except Raised Neon
  | none, _ =>
    .error (.cloneError ("Source directory not found or not a directory: '" ++ src ++ "'"))
  | some none, _ => .error (.cloneError ("The '.neon' directory is not found in '" ++ src ++ "'"))
  | some (some _), none =>
    .error (.cloneError ("Destination directory not found or not a directory: '" ++ dst ++ "'"))
  | some (some _), some (some _) => .error .fileExistsError
  | some (some neon), some none => .ok neon

/-- `clone_neon`, with what is at the destination afterwards. -/
def cloneNeon (src dst : String) (offset : Int) (hostname : Option String) (source place : Place) :
    Except Raised Unit × Place :=
  match deepCopyNeon src dst source place with
  | .error e => (.error e, place)
  | .ok neon =>
    match editConfigs offset hostname neon with
    | (.error e, neon) => (.error e, some (some neon))
    | (.ok (), neon) =>
      match editSafekeeperIds offset (joinPath dst ".neon") neon with
      | (.error e, neon) => (.error e, some (some neon))
      | (.ok (), neon) => (.ok (), some (some neon))

/-! ## What can be cloned -/

/-- The ports that are listened to. -/
def Config.ports (self : Config) : List Int :=
  ([self.pageserver.listenHttpAddr, self.pageserver.listenPgAddr, self.xactserver].filterMap
      fun addr => (hostAndPort addr).map Prod.snd) ++
    self.safekeepers.flatMap fun sk => [sk.httpPort, sk.pgPort]

/-- Every safekeeper has its directory, and there is nothing else. -/
def Housed (sks : List Safekeeper) (fs : String → Option Entry) : Prop :=
  (∀ sk ∈ sks, ∃ files, fs (skName sk.id) = some (.dir files)) ∧
  ∀ name, fs name ≠ none → ∃ sk ∈ sks, name = skName sk.id

/-- A directory in which everything is in its place. The ids of the safekeepers are told apart by
their remainders, as the ids from one on are. -/
structure Neon.Tidy (neon : Neon) : Prop where
  agrees : neon.config.pageserver = neon.pageserverToml
  http : (hostAndPort neon.pageserverToml.listenHttpAddr).isSome = true
  pg : (hostAndPort neon.pageserverToml.listenPgAddr).isSome = true
  xactserver : (hostAndPort neon.config.xactserver).isSome = true
  housed : ∃ fs, neon.safekeepers = some fs ∧ Housed neon.config.safekeepers fs
  apart : neon.config.safekeepers.Pairwise fun a b =>
    a.id % neon.config.numSk ≠ b.id % neon.config.numSk

/-! ## What a clone is to be like -/

/-- The address with another port and, where a host is given, with that host. -/
def AddrMoved (offset : Int) (hostname : Option String) (addr addr' : String) : Prop :=
  ∃ host port, hostAndPort addr = some (host, port) ∧
    addr' = hostnameOr hostname host ++ ":" ++ toString (port + offset)

/-- The safekeeper with the ports and the id of a clone. -/
def Safekeeper.moved (numSk offset : Int) (sk : Safekeeper) : Safekeeper :=
  { id := sk.id + numSk * offset, httpPort := sk.httpPort + offset, pgPort := sk.pgPort + offset }

/-- The directory is the clone number `offset` of the other one. -/
structure Cloned (offset : Int) (hostname : Option String) (neon neon' : Neon) : Prop where
  http : AddrMoved offset hostname neon.pageserverToml.listenHttpAddr
    neon'.pageserverToml.listenHttpAddr
  pg : AddrMoved offset hostname neon.pageserverToml.listenPgAddr neon'.pageserverToml.listenPgAddr
  id : neon'.pageserverToml.id = neon.pageserverToml.id + offset
  agrees : neon'.config.pageserver = neon'.pageserverToml
  xactserver : AddrMoved offset hostname neon.config.xactserver neon'.config.xactserver
  safekeepers : neon'.config.safekeepers =
    neon.config.safekeepers.map (Safekeeper.moved neon.config.numSk offset)
  /-- Every safekeeper has its own directory, without the file with its old id. -/
  housed : ∃ fs fs', neon.safekeepers = some fs ∧ neon'.safekeepers = some fs' ∧
    Housed neon'.config.safekeepers fs' ∧
    ∀ sk ∈ neon.config.safekeepers,
      fs' (skName (sk.id + neon.config.numSk * offset)) = (fs (skName sk.id)).map Entry.unlinkId

/-- The hostname that is left when a clone is cloned. -/
def laterHostname (first second : Option String) : Option String :=
  match second with
  | some h => if h = "" then first else some h
  | none => first

end Neonclone

end Sunstorm
