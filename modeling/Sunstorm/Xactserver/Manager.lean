import Sunstorm.Await.Proc
import Sunstorm.Xactserver.Decoder
import Sunstorm.Xactserver.XactType

/-!
# The manager of a node and the state managers of its transactions

`manager.rs`. The manager gives an id to every local transaction and hands each message over to the
state manager of its transaction, which it creates at the first message. A state manager handles
its messages one at a time. The arguments of `debug!` are not modelled: the server logs at level
`info`, where they are not evaluated.
-/

namespace Sunstorm

open Await

/-- What is measured about a transaction. -/
inductive Measurement where
  | started (coordinator : NodeId)
  | finished (coordinator : NodeId) (rollbackReason : String)
  deriving DecidableEq

/-- `get_rollback_reason_label`. -/
def getRollbackReasonLabel : XactStatus → Except Failure (Option String)
  | .committed => .ok (some "none")
  | .rollbacked info =>
    match info.reason with
    | .db err =>
      match String.fromUTF8? ⟨err.code.toArray⟩ with
      | none => .error (.panic "called `Result::unwrap()` on an `Err` value")
      | some code =>
        if code = "40P01" then .ok (some "deadlock")
        else if code = "40001" then .ok (some "serialization_failure")
        else if code = "40003" then .ok (some "statement_completion_unknown")
        else .ok (some "other_sql")
    | .other _ => .ok (some "other")
  | _ => .ok none

/-- `struct XactStateManager`, without the connection pools. The timer is only known to run or not;
`measured` is what was recorded about the transaction. -/
structure XactStateManager where
  xactId : XactId
  nodeId : NodeId
  coordinatorId : Option NodeId
  xact : XactType
  totalDurationTimer : Option Unit
  measured : List Measurement

namespace XactStateManager

/-- `XactStateManager::new`. -/
def new (xactId : XactId) (nodeId : NodeId) : XactStateManager :=
  { xactId, nodeId, coordinatorId := none, xact := XactType.default, totalDurationTimer := none,
    measured := [] }

/-- `Option::unwrap`. -/
def unwrap {α : Type} : Option α → Except Failure α
  | some a => .ok a
  | none => .error (.panic "called `Option::unwrap()` on a `None` value")

/-- The transaction seen as a part of its state manager. -/
def withXact {α : Type} (x : Code XactType α) : Code XactStateManager α := fun self =>
  x.within (fun xact => { self with xact }) self.xact self

/-- `XactStateManager::begin_xact_measurement`. -/
def beginXactMeasurement : Code XactStateManager Unit := do
  let coordinator ← Async.lift (unwrap (← Async.get).coordinatorId)
  Async.modify fun self =>
    { self with totalDurationTimer := some (), measured := self.measured ++ [.started coordinator] }

/-- `XactStateManager::end_xact_measurement`. -/
def endXactMeasurement (rollbackReason : String) : Code XactStateManager Unit := do
  let coordinator ← Async.lift (unwrap (← Async.get).coordinatorId)
  let _ ← Async.lift (unwrap (← Async.get).totalDurationTimer)
  Async.modify fun self =>
    { self with
      totalDurationTimer := none
      measured := self.measured ++ [.finished coordinator rollbackReason] }

/-- The messages of `send_to_all_but_me`: one for every participant but the node itself. -/
def toAllBut (nodeId : NodeId) (participants : BitSet) (message : PeerMessage) :
    List (NodeId × PeerMessage) :=
  (((BitSet.toList participants).map NodeId.ofUsize).filter (· ≠ nodeId)).map fun p => (p, message)

/-- `XactStateManager::send_to_all_but_me`: `try_join_all` over the participants. -/
def sendToAllButMe (participants : BitSet) (message : PeerMessage) : Code XactStateManager Unit := do
  let self ← Async.get
  match ← Async.call (.sendToAll (toAllBut self.nodeId participants message)) with
  | .ok () => pure ()
  | .error e => Async.fail (.err e)

/-- The end of `handle_prepare_msg` and of `handle_vote_msg`: finish the transaction if it can be
finished, and say whether it is. -/
def finishXact : Code XactStateManager Bool := do
  let status ← withXact XactType.tryFinish
  match ← Async.lift (getRollbackReasonLabel status) with
  | some label => endXactMeasurement label
  | none => pure ()
  return status.isTerminal

/-- `XactStateManager::handle_local_xact_msg`. -/
def handleLocalXactMsg (data : Bytes) (commitTx : Sender) : Code XactStateManager Bool := do
  Async.modify fun self => { self with coordinatorId := some self.nodeId }
  beginXactMeasurement
  let rwset ← (Async.lift (RWSet.decode data)).mapFailure
    (Failure.context "Failed to decode read/write set")
  let self ← Async.get
  let status ← withXact (XactType.initAsLocal self.nodeId self.nodeId rwset.participants commitTx)
  Async.ensure (status = .waiting) (.panic "assertion failed: `(left == right)`")
  sendToAllButMe rwset.participants
    (.prepare { «from» := self.nodeId.val, xactId := self.xactId.val, data })
  return false

/-- The reason that a surrogate sends with its vote. -/
def voteReason : XactStatus → Except Failure (Option ProtoRollbackReason)
  | .rollbacking info => .ok (some info.reason.toProto)
  | .rollbacked info => .ok (some info.reason.toProto)
  | .committing => .ok none
  | .committed => .ok none
  | .waiting => .ok none
  | .uninitialized => .error (.msg "Surrogate xact has unexpected status: Uninitialized")

/-- `XactStateManager::handle_prepare_msg`. -/
def handlePrepareMsg (prepare : PrepareMessage) : Code XactStateManager Bool := do
  let coordinatorId : NodeId := ⟨prepare.from⟩
  Async.modify fun self => { self with coordinatorId := some coordinatorId }
  beginXactMeasurement
  let rwset ← (Async.lift (RWSet.decode prepare.data)).mapFailure
    (Failure.context "Failed to decode read/write set")
  let self ← Async.get
  -- a node that is not involved stops the transaction at once
  if self.nodeId.toUsize ∉ rwset.participants then return true
  else
    let status ← withXact
      (XactType.initAsSurrogate self.xactId self.nodeId coordinatorId rwset.participants
        prepare.data)
    let rollbackReason ← Async.lift (voteReason status)
    sendToAllButMe rwset.participants
      (.vote { «from» := self.nodeId.val, xactId := self.xactId.val, rollbackReason })
    finishXact

/-- `XactStateManager::handle_vote_msg`. -/
def handleVoteMsg (vote : VoteMessage) : Code XactStateManager Bool := do
  Async.update fun self =>
    match self.xact.addVote (Vote.ofMessage vote) with
    | .ok xact => .ok { self with xact }
    | .error e => .error e
  finishXact

/-- The handler of the loop in `XactStateManager::run`. -/
def handle : XsMessage → Code XactStateManager Bool
  | .localXact data commitTx =>
    (handleLocalXactMsg data commitTx).mapFailure (Failure.context "failed to handle local xact msg")
  | .prepare msg => (handlePrepareMsg msg).mapFailure (Failure.context "failed to handle prepare msg")
  | .vote msg => (handleVoteMsg msg).mapFailure (Failure.context "failed to handle vote msg")

end XactStateManager

/-- A running `XactStateManager` and its channel. -/
abbrev XactProc : Type := Proc XactStateManager XsMessage Effect Answer Failure

/-- The messages that the channel of a state manager holds. A manager that sends one more waits until
one was taken. -/
def channelCapacity : Nat := 100

/-- `struct Manager`, without the connections. `spawned` lists the ids for which a state manager was
spawned, in order; no code reads it. -/
structure Manager where
  nodeId : NodeId
  xactStateManagers : XactId → Option XactProc
  xactIdCounter : UInt32
  spawned : List XactId

namespace Manager

/-- `Manager::new`. -/
def new (nodeId : NodeId) : Manager :=
  { nodeId, xactStateManagers := fun _ => none, xactIdCounter := 0, spawned := [] }

/-- The transaction id of a message; a local transaction takes the next value of the counter, which
wraps around in a release build. -/
def xactIdOf (self : Manager) : XsMessage → XactId
  | .localXact _ _ => XactId.new (self.xactIdCounter + 1) self.nodeId
  | .prepare msg => ⟨msg.xactId⟩
  | .vote msg => ⟨msg.xactId⟩

/-- The counter after a message. -/
def counterAfter (self : Manager) : XsMessage → UInt32
  | .localXact _ _ => self.xactIdCounter + 1
  | _ => self.xactIdCounter

/-- Put `proc` in the place of the state manager of `xactId`. -/
def setProc (self : Manager) (xactId : XactId) (proc : XactProc) : Manager :=
  { self with
    xactStateManagers := fun id => if id = xactId then some proc else self.xactStateManagers id }

/-- `Manager::process_message`, once the channel has taken the message: `hasRoom` says when it does. -/
def processMessage (self : Manager) (msg : XsMessage) : Manager :=
  let xactId := self.xactIdOf msg
  let self := { self with xactIdCounter := self.counterAfter msg }
  match self.xactStateManagers xactId with
  | some proc => self.setProc xactId (proc.post msg)
  | none =>
    let proc : XactProc := Proc.start (XactStateManager.new xactId self.nodeId)
    { self.setProc xactId (proc.post msg) with spawned := self.spawned ++ [xactId] }

/-- The channel that the message goes to has room, or is closed. -/
def hasRoom (self : Manager) (msg : XsMessage) : Bool :=
  match self.xactStateManagers (self.xactIdOf msg) with
  | some proc => proc.inbox.length < channelCapacity || proc.task.isHalted
  | none => true

/-- Let the state manager of `xactId` make a step. -/
def stepProc (self : Manager) (xactId : XactId) (f : XactProc → Option XactProc) : Option Manager :=
  match self.xactStateManagers xactId with
  | some proc =>
    match f proc with
    | some proc => some (self.setProc xactId proc)
    | none => none
  | none => none

/-- What can happen at a node. -/
inductive Action where
  /-- The manager takes a message from one of its channels. -/
  | message (msg : XsMessage)
  /-- A state manager takes its next message. -/
  | take (xactId : XactId)
  /-- An effect that a state manager awaits is answered. -/
  | answer (xactId : XactId) (r : Answer)
  /-- A state manager is stopped. -/
  | stop (xactId : XactId)

/-- One step of a node. -/
def step (self : Manager) : Action → Option Manager
  | .message msg => some (self.processMessage msg)
  | .take xactId => self.stepProc xactId (Proc.take XactStateManager.handle)
  | .answer xactId r => self.stepProc xactId (Proc.answer r)
  | .stop xactId => self.stepProc xactId Proc.cancel

/-- The node after a sequence of actions, if all of them are possible. -/
def run (self : Manager) : List Action → Option Manager
  | [] => some self
  | a :: as =>
    match self.step a with
    | some self => run self as
    | none => none

end Manager

end Sunstorm
