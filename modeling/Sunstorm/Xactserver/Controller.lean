import Sunstorm.Await.Prog
import Sunstorm.Xactserver.Messages

/-!
# What a transaction asks of its environment, and its controllers

The effects are the points where a task of the server awaits something outside it: PostgreSQL, the
client that waits for the reply, or the peers. Every effect is answered by an `anyhow` result.

A controller carries out one transaction at a node. `LocalXactController` replies to the client and
`SurrogateXactController` works on PostgreSQL.
-/

namespace Sunstorm

open Await

/-- The effects of the server. -/
inductive Effect where
  /-- Run the transaction in PostgreSQL and prepare it. -/
  | execute (xactId : XactId) (data : Bytes)
  /-- Commit the prepared transaction. -/
  | commit (xactId : XactId)
  /-- Roll the transaction back. -/
  | rollback (xactId : XactId) (info : RollbackInfo)
  /-- Tell the client that the transaction is committed, if its channel is still there. -/
  | replyCommit (commitTx : Option Sender)
  /-- Tell the client that the transaction is rolled back, if its channel is still there. -/
  | replyRollback (commitTx : Option Sender) (info : RollbackInfo)
  /-- Send each of the messages to its node, all of them at the same time. -/
  | sendToAll (messages : List (NodeId × PeerMessage))
  deriving DecidableEq

/-- What a handler does to commit. -/
def Effect.isCommit : Effect → Bool
  | .commit _ => true
  | .replyCommit _ => true
  | _ => false

/-- What a handler does to roll back. -/
def Effect.isRollback : Effect → Bool
  | .rollback _ _ => true
  | .replyRollback _ _ => true
  | _ => false

/-- Whether the effect is an execution. -/
def Effect.isExecute : Effect → Bool
  | execute _ _ => true
  | _ => false

/-- Whether the effect is a reply to the client. -/
def Effect.isReply : Effect → Bool
  | replyCommit _ => true
  | replyRollback _ _ => true
  | _ => false

/-- Whether the effect is a broadcast. -/
def Effect.isSendToAll : Effect → Bool
  | sendToAll _ => true
  | _ => false

/-- The answer to an effect: `anyhow::Result<()>`. -/
abbrev Answer : Type := Except AnyhowError Unit

instance : DecidableEq Answer
  | .ok (), .ok () => isTrue rfl
  | .error e, .error e' =>
    if h : e = e' then isTrue (by rw [h]) else isFalse fun heq => h (Except.error.inj heq)
  | .ok (), .error _ => isFalse (by simp)
  | .error _, .ok () => isFalse (by simp)

/-- The code of the server: it may await, and fail with an error or a panic. -/
abbrev Code (σ α : Type) : Type := Async σ Effect Answer Failure α

/-- `trait XactController`. -/
class XactController (C : Type) where
  execute : Async C Effect Answer AnyhowError Unit
  commit : Async C Effect Answer AnyhowError Unit
  rollback (info : RollbackInfo) : Async C Effect Answer AnyhowError Unit

/-- `struct LocalXactController`. -/
structure LocalXactController where
  commitTx : Option Sender
  deriving DecidableEq

namespace LocalXactController

/-- `LocalXactController::new`. -/
def new (commitTx : Sender) : LocalXactController := ⟨some commitTx⟩

/-- Take the sender and send `reply` on it. The effect is asked for also when the sender was taken
before; nothing is sent then, and the answer does not matter. -/
def send (reply : Option Sender → Effect) : Async LocalXactController Effect Answer AnyhowError Unit :=
  fun self => .await ⟨none⟩ (reply self.commitTx) fun
    | r =>
      match self.commitTx, r with
      | none, _ => .done (.error (.msg "Transaction has already been committed or rollbacked"), ⟨none⟩)
      | some _, .error _ => .done (.error (.msg "The pg watcher has dropped the receiver"), ⟨none⟩)
      | some _, .ok () => .done (.ok (), ⟨none⟩)

end LocalXactController

instance : XactController LocalXactController where
  execute := pure ()
  commit := LocalXactController.send .replyCommit
  rollback info := LocalXactController.send fun tx => .replyRollback tx info

/-- `struct SurrogateXactController`, without the connection pool. -/
structure SurrogateXactController where
  xactId : XactId
  data : Bytes
  deriving DecidableEq

/-- Ask for `e` and pass its result on. -/
def askPostgres {σ : Type} (e : σ → Effect) : Async σ Effect Answer AnyhowError Unit :=
  fun self => .await self (e self) fun r => .done (r, self)

instance : XactController SurrogateXactController where
  execute := askPostgres fun self => .execute self.xactId self.data
  commit := askPostgres fun self => .commit self.xactId
  rollback info := askPostgres fun self => .rollback self.xactId info

end Sunstorm
