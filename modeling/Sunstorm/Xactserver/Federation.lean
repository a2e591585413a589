import Sunstorm.Commitment.Commitment
import Sunstorm.Xactserver.Cluster
import Sunstorm.Xactserver.Sql

/-!
# The cluster and the databases of its nodes

Every node stands in front of one PostgreSQL server, which all its state managers work on. What a
state manager asks of PostgreSQL is carried out statement by statement, on a connection from the pool
of the node: the transaction that an earlier user has left on it is not known.
-/

namespace Sunstorm

open Await Postgres Commitment

/-- The cluster with its databases. -/
structure Federation where
  cluster : Cluster
  /-- What has happened to the prepared transactions of each node, by their global identifiers. -/
  history : NodeId → String → List GidEvent
  /-- The transaction of the connection that a state manager works on. -/
  txn : NodeId → XactId → Txn
  /-- The statements that a state manager has left to send. -/
  sql : NodeId → XactId → Option SqlTask

namespace Federation

/-- The databases `history`, in front of which no transaction was started. -/
def init (history : NodeId → String → List GidEvent) : Federation :=
  { cluster := Cluster.init, history, txn := fun _ _ => .idle, sql := fun _ _ => none }

/-- The database of the node as the state manager of the transaction sees it. -/
def db (self : Federation) (n : NodeId) (xactId : XactId) : Db String :=
  ⟨self.txn n xactId, self.history n⟩

/-- `f` with `a` for the state manager of the transaction at the node. -/
def put {α : Type} (f : NodeId → XactId → α) (n : NodeId) (xactId : XactId) (a : α) :
    NodeId → XactId → α := fun k x => if k = n ∧ x = xactId then a else f k x

/-- The state manager goes on with `sql`, on a connection with `txn`. -/
def withSql (self : Federation) (n : NodeId) (xactId : XactId) (sql : Option SqlTask) (txn : Txn) :
    Federation :=
  { self with sql := put self.sql n xactId sql, txn := put self.txn n xactId txn }

/-- Begin what the state manager awaits, on a connection with `txn`. -/
def resume (self : Federation) (n : NodeId) (xactId : XactId) (txn : Txn) : Federation :=
  self.withSql n xactId ((self.cluster.awaited n xactId).bind Effect.sql) txn

/-- What can happen. -/
inductive Act where
  /-- A step of the cluster. A state manager that goes on is given a connection with `txn`. -/
  | cluster (a : Cluster.Action) (txn : Txn)
  /-- The next statement of a state manager is sent, and this becomes of it. -/
  | statement (n : NodeId) (xactId : XactId) (o : Fate AnyhowError)
  /-- The statements of a state manager are through. -/
  | finish (n : NodeId) (xactId : XactId) (txn : Txn)

/-- What is asked of PostgreSQL is answered by the statements only. -/
def Free (self : Federation) : Cluster.Action → Prop
  | .answer n xactId _ => self.sql n xactId = none
  | _ => True

instance (self : Federation) (a : Cluster.Action) : Decidable (self.Free a) :=
  match a with
  | .client _ _ _ => isTrue trivial
  | .deliver _ _ => isTrue trivial
  | .emit _ _ _ => isTrue trivial
  | .take _ _ => isTrue trivial
  | .answer n xactId _ =>
    decidable_of_iff ((self.sql n xactId).isNone = true) Option.isNone_iff_eq_none
  | .stop _ _ => isTrue trivial

/-- What a step of the cluster does to the statements. -/
def follow (self : Federation) (txn : Txn) : Cluster.Action → Federation
  | .take n xactId => self.resume n xactId txn
  | .answer n xactId _ => self.resume n xactId txn
  | .stop n xactId => self.withSql n xactId none txn
  | _ => self

/-- One step. -/
def step (self : Federation) : Act → Option Federation
  | .cluster a txn =>
    if self.Free a then
      (self.cluster.step a).map fun cluster => { self with cluster }.follow txn a
    else none
  | .statement n xactId o =>
    match self.sql n xactId with
    | some (.await _ stmt k) =>
      ((self.db n xactId).exec stmt o).map fun x =>
        { self with history := Function.update self.history n x.2.history }.withSql n xactId
          (some (k x.1)) x.2.txn
    | _ => none
  | .finish n xactId txn =>
    match self.sql n xactId with
    | some (.done (r, _)) =>
      (self.cluster.step (.answer n xactId r)).map fun cluster =>
        { self with cluster }.resume n xactId txn
    | _ => none

/-- What PostgreSQL shows of the part of a node: the last thing that has happened to it. -/
def phaseOf (history : List GidEvent) : Phase :=
  match history.getLast? with
  | none => .working
  | some (.prepared _) => .prepared
  | some .committed => .committed
  | some .rolledBack => .rolledBack

/-- The nodes that do the work of a transaction: its participants, but for the coordinator. -/
abbrev Workers (xactId : XactId) (P : BitSet) : Type :=
  { n : NodeId // n.toUsize ∈ P ∧ n ≠ xactId.nodeId }

/-- What the databases show of the transaction. -/
def phases (self : Federation) (xactId : XactId) (P : BitSet) : Workers xactId P → Phase :=
  fun n => phaseOf (self.history n.1 xactId.toString)

end Federation

end Sunstorm
