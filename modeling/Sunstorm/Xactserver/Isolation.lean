import Sunstorm.Machine.Family
import Sunstorm.Xactserver.Manager

/-!
# State managers on their own

What a node does, seen from one transaction: the messages that the manager hands over to its state
manager, and the steps of that one. The ids of local transactions depend on the counter of the node
only. The loop of the manager has one message at a time, and waits with it until the channel of the
state manager takes it.
-/

namespace Sunstorm

open Await

namespace Manager

/-! ## The loop -/

/-- The loop of `Manager::run`: `hand` is the message that was received and that `process_message` has
not sent yet. -/
structure Loop where
  manager : Manager
  hand : Option XsMessage

namespace Loop

/-- What can happen at a node. -/
inductive Act where
  /-- The loop receives a message. -/
  | receive (msg : XsMessage)
  /-- `process_message` sends it to its state manager and returns. -/
  | send
  /-- A state manager takes its next message. -/
  | take (xactId : XactId)
  /-- An effect that a state manager awaits is answered. -/
  | answer (xactId : XactId) (r : Answer)
  /-- A state manager is stopped. -/
  | stop (xactId : XactId)

/-- The step that a state manager makes. The loop has no part in it. -/
def Act.own : Act → Option Action
  | .receive _ => none
  | .send => none
  | .take xactId => some (.take xactId)
  | .answer xactId r => some (.answer xactId r)
  | .stop xactId => some (.stop xactId)

/-- The transaction whose state manager makes the step. -/
def Act.mover : Act → Option XactId
  | .receive _ => none
  | .send => none
  | .take xactId => some xactId
  | .answer xactId _ => some xactId
  | .stop xactId => some xactId

/-- `Manager::run` before the first message. -/
def new (nodeId : NodeId) : Loop := { manager := Manager.new nodeId, hand := none }

/-- One step of the node. The loop receives nothing while it waits in `process_message`. -/
def step (self : Loop) : Act → Option Loop
  | .receive msg => if self.hand.isNone then some { self with hand := some msg } else none
  | .send =>
    match self.hand with
    | some msg =>
      if self.manager.hasRoom msg then
        some { manager := self.manager.processMessage msg, hand := none }
      else none
    | none => none
  | .take xactId => (self.manager.step (.take xactId)).map fun manager => { self with manager }
  | .answer xactId r =>
    (self.manager.step (.answer xactId r)).map fun manager => { self with manager }
  | .stop xactId => (self.manager.step (.stop xactId)).map fun manager => { self with manager }

/-- What the acts make of the manager, when the loop has `hand` at first: a message is handed over
where it is sent. There is nothing if something is received before the last message was sent, or sent
that was not received. -/
def handled : Option XsMessage → List Act → Option (List Action)
  | _, [] => some []
  | none, .receive msg :: as => handled (some msg) as
  | some _, .receive _ :: _ => none
  | none, .send :: _ => none
  | some msg, .send :: as => (handled none as).map (.message msg :: ·)
  | hand, .take xactId :: as => (handled hand as).map (.take xactId :: ·)
  | hand, .answer xactId r :: as => (handled hand as).map (.answer xactId r :: ·)
  | hand, .stop xactId :: as => (handled hand as).map (.stop xactId :: ·)

end Loop

/-! ## One transaction -/

/-- The counter after the action. -/
def counterOf (counter : UInt32) : Action → UInt32
  | .message (.localXact _ _) => counter + 1
  | _ => counter

/-- The transaction that the action concerns, and what its state manager goes through. -/
def route (nodeId : NodeId) (counter : UInt32) : Action → XactId × Proc.Act XsMessage Answer
  | .message (.localXact data commitTx) =>
    (XactId.new (counter + 1) nodeId, .post (.localXact data commitTx))
  | .message (.prepare msg) => (⟨msg.xactId⟩, .post (.prepare msg))
  | .message (.vote msg) => (⟨msg.xactId⟩, .post (.vote msg))
  | .take xactId => (xactId, .take)
  | .answer xactId r => (xactId, .answer r)
  | .stop xactId => (xactId, .cancel)

/-- The same for all actions, oldest first. -/
def routes (nodeId : NodeId) :
    UInt32 → List Action → List (XactId × Proc.Act XsMessage Answer)
  | _, [] => []
  | counter, a :: as => route nodeId counter a :: routes nodeId (counterOf counter a) as

/-- One step of the state manager of a transaction, when there is no other transaction. The first
message creates it; a full channel takes none. -/
def alone (nodeId : NodeId) (xactId : XactId) :
    Option XactProc → Proc.Act XsMessage Answer → Option (Option XactProc)
  | none, .post m => some (some ((Proc.start (XactStateManager.new xactId nodeId)).post m))
  | none, _ => none
  | some p, .post m =>
    if p.inbox.length < channelCapacity || p.task.isHalted then some (some (p.post m)) else none
  | some p, a => (p.act XactStateManager.handle a).map some

end Manager

end Sunstorm
