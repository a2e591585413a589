import Sunstorm.Xactserver.Manager

/-!
# A cluster of nodes

Every node runs a manager. A request that a node issues in `send_to_all_but_me` goes out while the
node awaits the answers of all of them; it may go out or not, and it may be delivered at any time
after that, or never. The answer is an error when one of the requests is answered by an error,
whether that request was delivered or not.

The requests that went out and those that were delivered are recorded, and so are the ids given to
local transactions.
-/

namespace Sunstorm

open Await

/-- A request on its way to a node. -/
abbrev Envelope : Type := NodeId × PeerMessage

/-- The state of the cluster. -/
structure Cluster where
  managers : NodeId → Manager
  /-- The requests that went out. -/
  sent : List Envelope
  /-- The requests that were delivered. -/
  delivered : List Envelope
  /-- The ids given to local transactions with their data, oldest first. -/
  assigned : List (XactId × Bytes)

namespace Cluster

/-- The cluster at the start. -/
def init : Cluster :=
  { managers := Manager.new, sent := [], delivered := [], assigned := [] }

/-- What can happen in the cluster. -/
inductive Action where
  /-- PostgreSQL hands a transaction over to the node. -/
  | client (n : NodeId) (data : Bytes) (commitTx : Sender)
  /-- A request that went out reaches the manager of its node. -/
  | deliver (n : NodeId) (msg : PeerMessage)
  /-- A request of the broadcast that the state manager of `xactId` awaits goes out. -/
  | emit (n : NodeId) (xactId : XactId) (envelope : Envelope)
  /-- A state manager takes its next message. -/
  | take (n : NodeId) (xactId : XactId)
  /-- The effect that a state manager awaits is answered. -/
  | answer (n : NodeId) (xactId : XactId) (r : Answer)
  /-- A state manager stops. -/
  | stop (n : NodeId) (xactId : XactId)

/-- The state manager of the transaction at the node. -/
def proc (self : Cluster) (n : NodeId) (xactId : XactId) : Option XactProc :=
  (self.managers n).xactStateManagers xactId

/-- The effect that the state manager of the transaction awaits at the node. -/
def awaited (self : Cluster) (n : NodeId) (xactId : XactId) : Option Effect :=
  match self.proc n xactId with
  | some ⟨_, .busy _ e _, _⟩ => some e
  | _ => none

/-- The requests of the broadcast that the state manager of the transaction awaits at the node. -/
def broadcast (self : Cluster) (n : NodeId) (xactId : XactId) : List Envelope :=
  match self.awaited n xactId with
  | some (.sendToAll messages) => messages
  | _ => []

/-- A broadcast succeeds when all its requests went out, and fails only when it has a request. -/
def canAnswer (self : Cluster) (n : NodeId) (xactId : XactId) (r : Answer) : Bool :=
  match self.awaited n xactId, r with
  | some (.sendToAll messages), .ok () => messages.all (· ∈ self.sent)
  | some (.sendToAll messages), .error _ => !messages.isEmpty
  | _, _ => true

/-- Put `m` in the place of the manager of the node. -/
def setManager (self : Cluster) (n : NodeId) (m : Manager) : Cluster :=
  { self with managers := fun k => if k = n then m else self.managers k }

/-- Let the manager of the node make a step. -/
def stepManager (self : Cluster) (n : NodeId) (a : Manager.Action) : Option Cluster :=
  match (self.managers n).step a with
  | some m => some (self.setManager n m)
  | none => none

/-- One step of the cluster. -/
def step (self : Cluster) : Action → Option Cluster
  | .client n data commitTx =>
    { self with
      assigned := self.assigned ++ [((self.managers n).xactIdOf (.localXact data commitTx), data)]
      }.stepManager n (.message (.localXact data commitTx))
  | .deliver n msg =>
    if (n, msg) ∈ self.sent then
      { self with delivered := self.delivered ++ [(n, msg)] }.stepManager n
        (.message (XsMessage.ofPeer msg))
    else none
  | .emit n xactId envelope =>
    if envelope ∈ self.broadcast n xactId then some { self with sent := self.sent ++ [envelope] }
    else none
  | .take n xactId => self.stepManager n (.take xactId)
  | .answer n xactId r =>
    if self.canAnswer n xactId r then self.stepManager n (.answer xactId r) else none
  | .stop n xactId => self.stepManager n (.stop xactId)

/-- The cluster after a sequence of actions, if all of them are possible. -/
def run (self : Cluster) : List Action → Option Cluster
  | [] => some self
  | a :: as =>
    match self.step a with
    | some self => run self as
    | none => none

/-- Whether `ok` admits all actions of the sequence, and all of them are possible. -/
def admits (ok : Cluster → Action → Prop) [∀ st a, Decidable (ok st a)] (self : Cluster) :
    List Action → Bool
  | [] => true
  | a :: as =>
    decide (ok self a) &&
      match self.step a with
      | some self => admits ok self as
      | none => false

/-- The clusters that can be reached by steps that `ok` admits. -/
inductive Reach (ok : Cluster → Action → Prop) : Cluster → Prop where
  | init : Reach ok init
  | step {st st' : Cluster} (a : Action) (hr : Reach ok st) (ha : ok st a)
      (h : st.step a = some st') : Reach ok st'

/-- The requests about the transaction that were delivered to the node, oldest first. -/
def arrived (self : Cluster) (n : NodeId) (xactId : XactId) : List PeerMessage :=
  (self.delivered.filter fun e => e.1 = n ∧ e.2.xactId = xactId).map Prod.snd

/-- The data that was handed over to the node under the id, oldest first. -/
def handed (self : Cluster) (n : NodeId) (xactId : XactId) : List Bytes :=
  (self.assigned.filter fun a => a.1 = xactId ∧ xactId.nodeId = n).map Prod.snd

/-- The id that the next local transaction of the node gets. -/
def nextId (self : Cluster) (n : NodeId) : XactId :=
  XactId.new ((self.managers n).xactIdCounter + 1) n

/-- The ids that the node gave to local transactions, oldest first. -/
def numbered (self : Cluster) (n : NodeId) : List XactId :=
  (self.assigned.map Prod.fst).filter fun x => x.nodeId = n

/-- How many local transactions the node can number. At node 0 one value of the counter gives the
invalid id. -/
def capacity (n : NodeId) : Nat := if n.val = 0 then 2 ^ 32 - 1 else 2 ^ 32

/-- No node is handed more local transactions than it can number. -/
def HasRoom (self : Cluster) : Action → Prop
  | .client n _ _ => (self.numbered n).length < capacity n
  | _ => True

instance (self : Cluster) (a : Action) : Decidable (HasRoom self a) :=
  match a with
  | .client n _ _ => inferInstanceAs (Decidable ((self.numbered n).length < capacity n))
  | .deliver _ _ => isTrue trivial
  | .emit _ _ _ => isTrue trivial
  | .take _ _ => isTrue trivial
  | .answer _ _ _ => isTrue trivial
  | .stop _ _ => isTrue trivial

/-- The status of the transaction at the node. -/
def status (self : Cluster) (n : NodeId) (xactId : XactId) : XactStatus :=
  match self.proc n xactId with
  | some p => p.task.state.xact.status
  | none => .uninitialized

/-- Nothing interrupts the transaction `id`: its state managers are not stopped, no request about it
is delivered twice, and only effects that `fails` admits are answered by an error. -/
def Undisturbed (xactId : XactId) (fails : Effect → Bool) (self : Cluster) : Action → Prop
  | .deliver n msg => msg.xactId = xactId → (n, msg) ∉ self.delivered
  | .answer n x r => x = xactId → ∀ e ∈ self.awaited n x, fails e = false → r = .ok ()
  | .stop _ x => x ≠ xactId
  | _ => True

instance (xactId : XactId) (fails : Effect → Bool) (self : Cluster) (a : Action) :
    Decidable (Undisturbed xactId fails self a) :=
  match a with
  | .client _ _ _ => isTrue trivial
  | .deliver n msg => inferInstanceAs (Decidable (msg.xactId = xactId → (n, msg) ∉ self.delivered))
  | .emit _ _ _ => isTrue trivial
  | .take _ _ => isTrue trivial
  | .answer n x r => inferInstanceAs
    (Decidable (x = xactId → ∀ e ∈ self.awaited n x, fails e = false → r = .ok ()))
  | .stop _ x => inferInstanceAs (Decidable (x ≠ xactId))

/-- No request is delivered twice, and no id is given to a second transaction. -/
def Orderly (self : Cluster) : Action → Prop
  | .client n _ _ => self.nextId n ∉ self.assigned.map Prod.fst
  | .deliver n msg => (n, msg) ∉ self.delivered
  | _ => True

instance (self : Cluster) (a : Action) : Decidable (Orderly self a) :=
  match a with
  | .client n _ _ => inferInstanceAs (Decidable (self.nextId n ∉ self.assigned.map Prod.fst))
  | .deliver n msg => inferInstanceAs (Decidable ((n, msg) ∉ self.delivered))
  | .emit _ _ _ => isTrue trivial
  | .take _ _ => isTrue trivial
  | .answer _ _ _ => isTrue trivial
  | .stop _ _ => isTrue trivial

/-- How many messages came for the state manager of the transaction at the node. -/
def addressed (self : Cluster) (n : NodeId) (xactId : XactId) : Nat :=
  (self.handed n xactId).length + (self.arrived n xactId).length

/-- Nothing is left to do about the transaction among `P`: the requests that went out were
delivered, and every state manager has taken its messages and is not inside a handler. -/
def Quiescent (self : Cluster) (xactId : XactId) (P : BitSet) : Prop :=
  (∀ envelope ∈ self.sent, envelope.2.xactId = xactId → envelope ∈ self.delivered) ∧
  ∀ i ∈ P, ∀ p ∈ self.proc (NodeId.ofUsize i) xactId, p.inbox = [] ∧ p.task.isBusy = false

instance (self : Cluster) (xactId : XactId) (P : BitSet) :
    Decidable (self.Quiescent xactId P) := inferInstanceAs (Decidable (_ ∧ _))

/-- The id was given to one local transaction and to no other. -/
def Unique (self : Cluster) (xactId : XactId) (data : Bytes) : Prop :=
  self.assigned.filter (fun a => a.1 = xactId) = [(xactId, data)]

end Cluster

end Sunstorm
