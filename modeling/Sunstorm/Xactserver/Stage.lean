import Sunstorm.Xactserver.Ballot
import Sunstorm.Xactserver.Manager

/-!
# The stages of a transaction at a node

The life of a state manager, told by its log. Votes are kept until a local transaction or a
`Prepare` opens the ballot; the ballot is opened once, it is announced with one broadcast, and its
decision is carried out by one effect. Every other way through the handlers ends the state manager.
-/

namespace Sunstorm

open Await Tally

/-- What a state manager went through. -/
abbrev XactLog : Type := List (Event XsMessage Effect Answer)

/-- The participants that the data of a transaction names, if it can be decoded. -/
def RWSet.participantsIn (data : Bytes) : Option BitSet :=
  match RWSet.decode data with
  | .ok rwset => some rwset.participants
  | .error _ => none

/-- A vote message as the ballot sees it. -/
def VoteMessage.cast (msg : VoteMessage) : Nat × Option RollbackReason := (Vote.ofMessage msg).cast

/-- The log of taking votes. -/
def taken (votes : List VoteMessage) : XactLog := votes.map fun v => .recv (.vote v)

/-- What opens the ballot of a transaction at a node: at the coordinator the transaction itself, at
a surrogate a `Prepare`, with the answer to its execution. -/
inductive Opening where
  | coordinator (data : Bytes) (commitTx : Sender)
  | surrogate (msg : PrepareMessage) (result : Answer)

namespace Opening

/-- The message that opens the ballot. -/
def message : Opening → XsMessage
  | coordinator data commitTx => .localXact data commitTx
  | surrogate msg _ => .prepare msg

def data : Opening → Bytes
  | coordinator data _ => data
  | surrogate msg _ => msg.data

/-- The coordinator, when the ballot is opened at `n`. -/
def coordinatorAt (n : NodeId) : Opening → NodeId
  | coordinator _ _ => n
  | surrogate msg _ => ⟨msg.from⟩

/-- The log between the message and the broadcast. -/
def executed (id : XactId) : Opening → XactLog
  | coordinator _ _ => []
  | surrogate msg r => [.call (.execute id msg.data), .ret (.execute id msg.data) r]

/-- The votes that are counted before those that were kept. -/
def votes (n : NodeId) : Opening → List (Nat × Option RollbackReason)
  | coordinator _ _ => [(n.toUsize, none)]
  | surrogate msg r =>
    [((⟨msg.from⟩ : NodeId).toUsize, none), (n.toUsize, RollbackReason.ofAnswer r)]

/-- The transaction once `votes` are counted. -/
def xact (id : XactId) (n : NodeId) (P : BitSet) (votes : List (Nat × Option RollbackReason)) :
    Opening → XactType
  | coordinator _ tx =>
    .localXact ((XactState.new n n P (LocalXactController.new tx)).counting votes)
  | surrogate msg _ => .surrogate ((XactState.new n ⟨msg.from⟩ P ⟨id, msg.data⟩).counting votes)

/-- The effect that carries the decision out. -/
def closing (id : XactId) (d : Decision Nat RollbackReason) : Opening → Option Effect
  | coordinator _ tx =>
    (XactState.closing (.replyCommit (some tx)) (.replyRollback (some tx)) d).map Prod.fst
  | surrogate _ _ => (XactState.closing (.commit id) (.rollback id) d).map Prod.fst

/-- The request that announces the ballot to the others, when it stands at `d`. -/
def request (id : XactId) (n : NodeId) (d : Decision Nat RollbackReason) : Opening → PeerMessage
  | coordinator data _ => .prepare { «from» := n.val, xactId := id.val, data }
  | surrogate _ _ =>
    .vote { «from» := n.val
            xactId := id.val
            rollbackReason :=
              match d with
              | .rollback _ reason => some reason.toProto
              | _ => none }

/-- What the code checks before it announces the ballot. -/
def Announced (n : NodeId) (P : BitSet) (early : List VoteMessage) : Opening → Prop
  | coordinator data tx =>
    decision P ((coordinator data tx).votes n ++ early.map VoteMessage.cast) = .waiting
  | surrogate msg r =>
    n.toUsize ∈ P ∧
      ¬ Overrun P ((surrogate msg r).votes n) (early.map VoteMessage.cast)

end Opening

namespace XactStateManager

/-- The state manager that has kept the votes `early`. -/
def keeping (id : XactId) (n : NodeId) (early : List VoteMessage) : XactStateManager :=
  { new id n with xact := .unknown (early.map Vote.ofMessage) }

/-- The state manager whose ballot was opened by `o` and has counted `votes`. -/
def counting (id : XactId) (n : NodeId) (o : Opening) (P : BitSet)
    (votes : List (Nat × Option RollbackReason)) : XactStateManager :=
  { xactId := id, nodeId := n, coordinatorId := some (o.coordinatorAt n), xact := o.xact id n P votes
    totalDurationTimer := some (), measured := [.started (o.coordinatorAt n)] }

end XactStateManager

/-- A ballot that was opened at the node `n` and announced to the others. -/
structure Session (n : NodeId) where
  /-- The votes that were kept when the ballot was opened. -/
  early : List VoteMessage
  opening : Opening
  participants : BitSet
  decoded : RWSet.participantsIn opening.data = some participants
  announced : opening.Announced n participants early
  /-- No surrogate has itself as its coordinator. -/
  foreign : ∀ msg r, opening = .surrogate msg r → (⟨msg.from⟩ : NodeId) ≠ n

namespace Session

variable {n : NodeId}

/-- The votes, when `late` came in after the announcement. -/
def ballot (S : Session n) (late : List VoteMessage) : List (Nat × Option RollbackReason) :=
  S.opening.votes n ++ (S.early ++ late).map VoteMessage.cast

/-- The decision of the ballot. -/
def decision (S : Session n) (late : List VoteMessage) : Decision Nat RollbackReason :=
  Tally.decision S.participants (S.ballot late)

/-- The request that announces the ballot. -/
def request (S : Session n) (id : XactId) : PeerMessage := S.opening.request id n (S.decision [])

/-- The broadcast of that request. -/
def broadcast (S : Session n) (id : XactId) : Effect :=
  .sendToAll (XactStateManager.toAllBut n S.participants (S.request id))

/-- The state manager once the votes `late` are counted. -/
def manager (S : Session n) (id : XactId) (late : List VoteMessage) : XactStateManager :=
  .counting id n S.opening S.participants (S.ballot late)

/-- The log up to the broadcast. -/
def opened (S : Session n) (id : XactId) : XactLog :=
  taken S.early ++ [.recv S.opening.message] ++ S.opening.executed id ++ [.call (S.broadcast id)]

/-- The log once the broadcast has succeeded and the votes `late` came in. -/
def voting (S : Session n) (id : XactId) (late : List VoteMessage) : XactLog :=
  S.opened id ++ [.ret (S.broadcast id) (.ok ())] ++ taken late

end Session

/-- The message ends a state manager that has no ballot yet: its data cannot be decoded, or the
node does not take part. -/
def XsMessage.Refused (n : NodeId) : XsMessage → Prop
  | .localXact data _ => RWSet.participantsIn data = none
  | .prepare msg => ∀ P, RWSet.participantsIn msg.data = some P → n.toUsize ∉ P
  | .vote _ => False

/-- The message opens a ballot. -/
def XsMessage.opens : XsMessage → Bool
  | .vote _ => false
  | _ => true

/-- The message does not name the node as the coordinator of a `Prepare`. -/
def XsMessage.Foreign (n : NodeId) : XsMessage → Prop
  | .prepare msg => (⟨msg.from⟩ : NodeId) ≠ n
  | _ => True

/-- The votes among the requests of an effect, with their destinations. -/
def Effect.votes : Effect → List (NodeId × VoteMessage)
  | .sendToAll messages =>
    messages.filterMap fun
      | (p, .vote msg) => some (p, msg)
      | (_, .prepare _) => none
  | _ => []

/-- The votes that were sent, oldest first. -/
def votesSent (log : XactLog) : List (NodeId × VoteMessage) := (calls log).flatMap Effect.votes

/-- What a state manager is doing. -/
inductive Point where
  | idle
  | busy
  | halted (why : Halt Failure)

/-- How a ballot that was announced goes on: the status and the log. -/
inductive Session.Tail {n : NodeId} (S : Session n) (id : XactId) :
    Point → XactStatus → XactLog → Prop where
  /-- The broadcast is awaited. -/
  | announcing : S.Tail id .busy (.ofDecision (S.decision [])) (S.opened id)
  /-- The broadcast failed. -/
  | unannounced (e : AnyhowError) (f : Failure) :
    S.Tail id (.halted (.failed f)) (.ofDecision (S.decision []))
      (S.opened id ++ [.ret (S.broadcast id) (.error e)])
  /-- Votes are missing. -/
  | voting (late : List VoteMessage) (h : S.decision late = .waiting) :
    S.Tail id .idle .waiting (S.voting id late)
  /-- The ballot was opened for a second time. -/
  | reopened (late : List VoteMessage) (h : S.decision late = .waiting) (m : XsMessage)
    (hm : m.opens = true) (status : XactStatus) (hs : status = .uninitialized ∨ status = .waiting)
    (why : Halt Failure) (hwhy : why ≠ .cancelled) :
    S.Tail id (.halted why) status (S.voting id late ++ [.recv m])
  /-- The effect that carries the decision out is awaited. -/
  | closing (late : List VoteMessage) (e : Effect)
    (he : S.opening.closing id (S.decision late) = some e) :
    S.Tail id .busy (.ofDecision (S.decision late)) (S.voting id late ++ [.call e])
  /-- The decision could not be carried out. -/
  | unclosed (late : List VoteMessage) (e : Effect)
    (he : S.opening.closing id (S.decision late) = some e) (x : AnyhowError) (f : Failure) :
    S.Tail id (.halted (.failed f)) (.ofDecision (S.decision late))
      (S.voting id late ++ [.call e] ++ [.ret e (.error x)])
  /-- The decision is carried out. -/
  | closed (late : List VoteMessage) (e : Effect)
    (he : S.opening.closing id (S.decision late) = some e) :
    S.Tail id (.halted .finished) (.finalOf (S.decision late))
      (S.voting id late ++ [.call e] ++ [.ret e (.ok ())])
  /-- The decision is carried out, but the code of its reason is no text. -/
  | unlabelled (late : List VoteMessage) (e : Effect)
    (he : S.opening.closing id (S.decision late) = some e) (f f' : Failure)
    (hf : getRollbackReasonLabel (.finalOf (S.decision late)) = .error f) :
    S.Tail id (.halted (.failed f')) (.finalOf (S.decision late))
      (S.voting id late ++ [.call e] ++ [.ret e (.ok ())])

/-- The stages of the transaction `id` at the node `n`. -/
inductive Stage (id : XactId) (n : NodeId) : Point → XactStatus → XactLog → Prop where
  /-- Nothing but votes has come in. -/
  | unknown (early : List VoteMessage) : Stage id n .idle .uninitialized (taken early)
  /-- The message that was to open the ballot was refused. -/
  | refused (early : List VoteMessage) (m : XsMessage) (hm : m.Refused n) (why : Halt Failure)
    (hwhy : why ≠ .cancelled) :
    Stage id n (.halted why) .uninitialized (taken early ++ [.recv m])
  /-- The coordinator finds the ballot decided by votes that it kept. -/
  | decided (early : List VoteMessage) (data : Bytes) (tx : Sender) (P : BitSet)
    (hP : RWSet.participantsIn data = some P) (vs : List (Nat × Option RollbackReason))
    (hvs : vs = (Opening.coordinator data tx).votes n ++ early.map VoteMessage.cast)
    (hd : decision P vs ≠ .waiting) (f : Failure) :
    Stage id n (.halted (.failed f)) (.ofDecision (decision P vs))
      (taken early ++ [.recv (.localXact data tx)])
  /-- A surrogate executes the transaction. -/
  | executing (early : List VoteMessage) (msg : PrepareMessage) (P : BitSet)
    (hP : RWSet.participantsIn msg.data = some P) (hn : n.toUsize ∈ P)
    (hfrom : (⟨msg.from⟩ : NodeId) ≠ n) :
    Stage id n .busy .waiting
      (taken early ++ [.recv (.prepare msg)] ++ [.call (.execute id msg.data)])
  /-- The votes that a surrogate kept go on after the ballot is carried. -/
  | overrun (early : List VoteMessage) (msg : PrepareMessage) (P : BitSet)
    (hP : RWSet.participantsIn msg.data = some P) (hn : n.toUsize ∈ P)
    (hfrom : (⟨msg.from⟩ : NodeId) ≠ n) (r : Answer)
    (h : Overrun P ((Opening.surrogate msg r).votes n) (early.map VoteMessage.cast))
    (f : Failure) :
    Stage id n (.halted (.failed f)) .committing
      (taken early ++ [.recv (.prepare msg)] ++ (Opening.surrogate msg r).executed id)
  /-- The ballot was announced. -/
  | session (S : Session n) {pt : Point} {status : XactStatus} {log : XactLog}
    (h : S.Tail id pt status log) : Stage id n pt status log
  /-- The state manager was stopped. -/
  | stopped {pt : Point} {status : XactStatus} {log : XactLog} (hpt : ∀ why, pt ≠ .halted why)
    (h : Stage id n pt status log) : Stage id n (.halted .cancelled) status log

/-- The point at which a task is. -/
def Point.ofTask : Task XactStateManager Effect Answer Failure → Point
  | .idle _ => .idle
  | .busy _ _ _ => .busy
  | .halted _ why => .halted why

/-- No message that the node gets names the node itself as the coordinator of a `Prepare`. -/
def Manager.Action.Foreign (n : NodeId) : Manager.Action → Prop
  | .message msg => msg.Foreign n
  | _ => True

/-- The status of the transaction of a state manager. -/
def XactProc.status (p : XactProc) : XactStatus := p.task.state.xact.status

end Sunstorm
