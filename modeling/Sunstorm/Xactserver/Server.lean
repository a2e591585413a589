import Sunstorm.Await.Channel
import Sunstorm.Xactserver.Federation
import Sunstorm.Xactserver.Reply

/-!
# Servers in front of their PostgreSQL clients

`pg/watcher.rs`, `node.rs` and the loop of `Manager::run`. PostgreSQL keeps connections to the
watcher of its node and hands a transaction over on each of them, one at a time. The watcher and the
listener for the peers send what they get to the manager, each through a channel of its own, and the
manager passes it on to the state managers.

How a connection is accepted and started up is code of `neon_postgres_backend`; a connection is
looked at from the first query on it.
-/

namespace Sunstorm

open Await Postgres

/-- `FeMessage`: what a client sends. Of the kinds that the watcher does not expect, only the text
of the message counts. -/
inductive FeMessage where
  | copyData (bytes : Bytes)
  | terminate
  | other (text : String)
  deriving DecidableEq

/-- `QueryError`: the connection is broken, or anything else. -/
inductive QueryError where
  | connection (text : String)
  | other (text : String)
  deriving DecidableEq

/-- Where `process_query` stands. -/
inductive Query where
  /-- It writes that the connection is switched to COPYBOTH. -/
  | opening
  /-- It reads the next message. -/
  | reading
  /-- It waits until the channel of the manager has room. -/
  | sending (data : Bytes) (commitTx : Sender)
  /-- It waits for the decision. -/
  | deciding (data : Bytes) (commitTx : Sender)
  /-- It writes the reply. -/
  | writing
  /-- It has returned. -/
  | returned (r : Except QueryError Unit)
  /-- It has panicked. -/
  | panicked (f : Failure)
  /-- It was dropped with the thread of the watcher. -/
  | dropped

namespace Query

/-- The transaction that the client waits for, with the sender for the decision about it. -/
def outstanding : Query → Option (Bytes × Sender)
  | sending data commitTx => some (data, commitTx)
  | deciding data commitTx => some (data, commitTx)
  | _ => none

/-- The query ends with an error of the connection, or goes on with `next`. -/
def orBroken (next : Query) : Except String Unit → Query
  | .ok () => next
  | .error text => returned (.error (.connection text))

end Query

/-- A transaction that a client has handed over, and the reply to it. -/
structure Exchange where
  data : Bytes
  commitTx : Sender
  decision : Option RollbackInfo
  /-- What is written to the client. -/
  reply : Bytes

/-- A connection with a query on it. -/
structure Connection where
  query : Query
  /-- The data of all transactions that were read, oldest first. -/
  read : List Bytes
  /-- The replies, oldest first. -/
  exchanges : List Exchange

/-- `process_query` is called. -/
def Connection.start : Connection := { query := .opening, read := [], exchanges := [] }

/-- What the watcher, the listener and the manager of a node share. -/
structure Front where
  connections : List Connection
  /-- The data of the local transactions that were read. The position of one of them stands for the
  one-shot channel that was created for it. -/
  issued : List Bytes
  /-- The channel from the watcher, `local_rx`. -/
  localRx : Channel XsMessage channelCapacity
  /-- The channel from the listener for the peers, `remote_rx`. -/
  remoteRx : Channel XsMessage channelCapacity
  /-- The message that the manager has received and is passing on. -/
  hand : Option XsMessage
  /-- What was sent on the one-shot channels. -/
  decisions : Sender → Option (Option RollbackInfo)
  /-- The loop of the manager has been left, and its channels were dropped. -/
  stopped : Bool
  /-- The local transactions in the order in which the watcher sent them. -/
  submitted : List (Bytes × Sender)
  /-- The local transactions in the order in which the manager passed them on, with their ids. -/
  passed : List (XactId × Bytes × Sender)

/-- What happens to `process_query` where it awaits. -/
inductive Io where
  /-- COPYBOTH is written and flushed. -/
  | opened (r : Except String Unit)
  /-- A message is read; there is none when the client has disconnected. -/
  | read (msg : Except String (Option FeMessage))
  /-- The channel of the manager takes the transaction. -/
  | sent
  /-- The channel of the manager is closed. -/
  | unsent
  /-- The decision comes. -/
  | decided
  /-- The sender for the decision is dropped. -/
  | abandoned
  /-- The reply is written and flushed. -/
  | replied (r : Except String Unit)
  /-- The thread of the watcher ends. -/
  | drop

/-- The local transaction of the message, with its sender. -/
def XsMessage.submission : XsMessage → Option (Bytes × Sender)
  | .localXact data commitTx => some (data, commitTx)
  | _ => none

/-- The message carries the sender. -/
def XsMessage.carries (commitTx : Sender) : XsMessage → Bool
  | .localXact _ tx => tx = commitTx
  | _ => false

/-- The sender that the effect uses, and what it sends. -/
def Effect.decides : Effect → Option (Sender × Option RollbackInfo)
  | .replyCommit (some tx) => some (tx, none)
  | .replyRollback (some tx) info => some (tx, some info)
  | _ => none

/-- The transaction keeps the sender. -/
def XactType.holds (commitTx : Sender) : XactType → Bool
  | .localXact xact => xact.controller.commitTx = some commitTx
  | _ => false

/-- The state manager has the sender, or will take it from its channel. -/
def XactProc.holds (commitTx : Sender) (p : XactProc) : Bool :=
  p.inbox.any (XsMessage.carries commitTx) ||
    match p.task with
    | .idle s => s.xact.holds commitTx
    | .busy s e _ => s.xact.holds commitTx || e.decides.any fun d => d.1 = commitTx
    | .halted _ _ => false

/-- What reaches the cluster when the manager of `n` passes the message on. -/
def Cluster.Action.ofMessage (n : NodeId) : XsMessage → Cluster.Action
  | .localXact data commitTx => .client n data commitTx
  | .prepare msg => .deliver n (.prepare msg)
  | .vote msg => .deliver n (.vote msg)

namespace Front

/-- A node that was just started. -/
def init : Front :=
  { connections := [], issued := [], localRx := Channel.empty, remoteRx := Channel.empty
    hand := none, decisions := fun _ => none, stopped := false, submitted := [], passed := [] }

/-- The requests of peers that the manager has not passed on, oldest first. -/
def backlog (self : Front) : List PeerMessage :=
  (self.hand.toList ++ self.remoteRx.messages).filterMap XsMessage.peer

/-- Some connection still waits for what is sent on the one-shot channel. -/
def waits (self : Front) (commitTx : Sender) : Bool :=
  self.connections.any fun c => c.query.outstanding.any fun x => x.2 = commitTx

/-- Put `c` in the place of the connection `i`. -/
def setConnection (self : Front) (i : Nat) (c : Connection) : Front :=
  { self with connections := self.connections.set i c }

/-- The connection `i`, which was `c`, has read a message. -/
def readMessage (self : Front) (i : Nat) (c : Connection) : Option FeMessage → Front
  | some (.copyData bytes) =>
    { self with issued := self.issued ++ [bytes] }.setConnection i
      { c with query := .sending bytes ⟨self.issued.length⟩, read := c.read ++ [bytes] }
  | some .terminate => self.setConnection i { c with query := .returned (.ok ()) }
  | some (.other text) =>
    self.setConnection i
      { c with
        query := .returned (.error (.other ("unexpected message: " ++ text ++ " during COPY"))) }
  | none => self.setConnection i { c with query := .returned (.ok ()) }

/-- The connection `i`, which was `c`, gets the decision about its transaction. -/
def decide (overflowChecks : Bool) (self : Front) (i : Nat) (c : Connection) (data : Bytes)
    (commitTx : Sender) (decision : Option RollbackInfo) : Front :=
  match serializeRollbackInfo overflowChecks decision with
  | .ok reply =>
    self.setConnection i
      { c with
        query := .writing
        exchanges := c.exchanges ++ [{ data, commitTx, decision, reply }] }
  | .error f => self.setConnection i { c with query := .panicked f }

/-- A step of `process_query` on the connection `i`, which is `c`. The senders that `held` admits
were not dropped. -/
def process (overflowChecks : Bool) (held : Sender → Bool) (self : Front) (i : Nat)
    (c : Connection) : Io → Option Front
  | .opened r =>
    match c.query with
    | .opening => some (self.setConnection i { c with query := .orBroken .reading r })
    | _ => none
  | .read msg =>
    match c.query with
    | .reading =>
      match msg with
      | .ok msg => some (self.readMessage i c msg)
      | .error text =>
        some (self.setConnection i { c with query := .returned (.error (.connection text)) })
    | _ => none
  | .sent =>
    match c.query with
    | .sending data commitTx =>
      if self.stopped then none
      else
        (self.localRx.send (.localXact data commitTx)).map fun localRx =>
          { self with localRx, submitted := self.submitted ++ [(data, commitTx)] }.setConnection i
            { c with query := .deciding data commitTx }
    | _ => none
  | .unsent =>
    match c.query with
    | .sending _ _ =>
      if self.stopped then
        some (self.setConnection i { c with query := .returned (.error (.other "channel closed")) })
      else none
    | _ => none
  | .decided =>
    match c.query with
    | .deciding data commitTx =>
      (self.decisions commitTx).map (self.decide overflowChecks i c data commitTx)
    | _ => none
  | .abandoned =>
    match c.query with
    | .deciding _ commitTx =>
      if (self.decisions commitTx).isNone ∧ held commitTx = false then
        some (self.setConnection i { c with query := .returned (.error (.other "channel closed")) })
      else none
    | _ => none
  | .replied r =>
    match c.query with
    | .writing => some (self.setConnection i { c with query := .orBroken .reading r })
    | _ => none
  | .drop => some (self.setConnection i { c with query := .dropped })

/-- The manager receives a message, from the watcher or from the listener. -/
def receive (self : Front) («from» : Bool) : Option Front :=
  if self.hand.isSome ∨ self.stopped then none
  else if «from» then
    self.localRx.recv.map fun x => { self with hand := some x.1, localRx := x.2 }
  else self.remoteRx.recv.map fun x => { self with hand := some x.1, remoteRx := x.2 }

end Front

/-- The nodes with their watchers and listeners. -/
structure System where
  federation : Federation
  fronts : NodeId → Front
  /-- The requests that the listeners have acknowledged, oldest first. -/
  accepted : List Envelope

namespace System

/-- Nodes that were just started, in front of the databases `history`. -/
def init (history : NodeId → String → List GidEvent) : System :=
  { federation := Federation.init history, fronts := fun _ => Front.init, accepted := [] }

/-- What can happen. -/
inductive Act where
  /-- A client connects to the watcher of the node. -/
  | connect (n : NodeId)
  /-- Something happens to a connection of the node. -/
  | io (n : NodeId) (i : Nat) (x : Io)
  /-- The listener of the node takes a request that went out, and acknowledges it. -/
  | accept (n : NodeId) (msg : PeerMessage)
  /-- The manager of the node receives a message, from the watcher or from the listener. -/
  | receive (n : NodeId) («from» : Bool)
  /-- The manager of the node passes on what it has received. -/
  | pass (n : NodeId)
  /-- The manager of the node leaves its loop. What is in its channels is dropped. -/
  | shutdown (n : NodeId)
  /-- A state manager or a database goes on. -/
  | work (a : Federation.Act)

variable (self : System)

/-- Put `front` at the node. -/
def setFront (n : NodeId) (front : Front) : System :=
  { self with fronts := Function.update self.fronts n front }

/-- The sender for a decision at the node is in the channel of the manager or with a state
manager. -/
def holds (n : NodeId) (commitTx : Sender) : Bool :=
  ((self.fronts n).hand.toList ++ (self.fronts n).localRx.messages).any
      (XsMessage.carries commitTx) ||
    (self.federation.cluster.managers n).spawned.any fun x =>
      (self.federation.cluster.proc n x).any (XactProc.holds commitTx)

/-- The message is taken out of the hand of the manager. -/
def handOver (n : NodeId) (msg : XsMessage) : Front :=
  let front := { self.fronts n with hand := none }
  match msg with
  | .localXact data commitTx =>
    { front with
      passed := front.passed ++
        [((self.federation.cluster.managers n).xactIdOf msg, data, commitTx)] }
  | _ => front

/-- A broadcast succeeds only when every request of it is acknowledged; a decision can be sent to a
client if and only if it still waits. -/
def canAnswer (n : NodeId) (xactId : XactId) (r : Answer) : Bool :=
  match self.federation.cluster.awaited n xactId with
  | some (.sendToAll messages) => r ≠ .ok () || messages.all self.accepted.contains
  | some e =>
    match e.decides with
    | some (commitTx, _) => r.isOk = (self.fronts n).waits commitTx
    | none => true
  | none => true

/-- The node once its state manager of the transaction is answered. -/
def told (n : NodeId) (xactId : XactId) : Answer → Front
  | .ok () =>
    match (self.federation.cluster.awaited n xactId).bind Effect.decides with
    | some (commitTx, decision) =>
      { self.fronts n with
        decisions := Function.update (self.fronts n).decisions commitTx (some decision) }
    | none => self.fronts n
  | .error _ => self.fronts n

/-- The databases and the cluster make a step. -/
def follow (a : Federation.Act) : Option System :=
  (self.federation.step a).map fun federation => { self with federation }

/-- One step. -/
def step (overflowChecks : Bool) (self : System) : Act → Option System
  | .connect n =>
    let front := self.fronts n
    some (self.setFront n { front with connections := front.connections ++ [.start] })
  | .io n i x =>
    match (self.fronts n).connections[i]? with
    | some c => ((self.fronts n).process overflowChecks (self.holds n) i c x).map (self.setFront n)
    | none => none
  | .accept n msg =>
    if self.federation.cluster.sent.contains (n, msg) && !(self.fronts n).stopped then
      ((self.fronts n).remoteRx.send (XsMessage.ofPeer msg)).map fun remoteRx =>
        { self with accepted := self.accepted ++ [(n, msg)] }.setFront n
          { self.fronts n with remoteRx }
    else none
  | .receive n «from» => ((self.fronts n).receive «from»).map (self.setFront n)
  | .pass n =>
    match (self.fronts n).hand with
    | some msg =>
      if (self.federation.cluster.managers n).hasRoom msg then
        (self.setFront n (self.handOver n msg)).follow (.cluster (.ofMessage n msg) .idle)
      else none
    | none => none
  | .shutdown n =>
    if (self.fronts n).hand.isNone then
      some (self.setFront n
        { self.fronts n with
          stopped := true, localRx := Channel.empty, remoteRx := Channel.empty })
    else none
  | .work (.cluster (.client _ _ _) _) => none
  | .work (.cluster (.deliver _ _) _) => none
  | .work (.cluster (.answer n xactId r) txn) =>
    if self.canAnswer n xactId r then
      (self.setFront n (self.told n xactId r)).follow (.cluster (.answer n xactId r) txn)
    else none
  | .work a => self.follow a

/-- The requests to the node, in their order. -/
def requestsTo (n : NodeId) (envelopes : List Envelope) : List PeerMessage :=
  (envelopes.filter fun e => e.1 = n).map Prod.snd

end System

end Sunstorm
