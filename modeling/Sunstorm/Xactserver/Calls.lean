import Sunstorm.Xactserver.Ballot

/-!
# Calls on the state of a transaction

`add_vote` and `try_finish`, called in any order and again after an error. A watched controller
carries out the transaction as the controller inside it does, and keeps a list of what it was
invoked for.
-/

namespace Sunstorm

open Await

/-- What a controller was invoked for, with the result. -/
inductive Invocation where
  | commit (r : Answer)
  | rollback (info : RollbackInfo) (r : Answer)
  deriving DecidableEq

namespace Invocation

/-- What the invocation returned. -/
def result : Invocation → Answer
  | commit r => r
  | rollback _ r => r

/-- The invocation is a commit. -/
def IsCommit (x : Invocation) : Prop := ∃ r, x = commit r

/-- The invocation is a rollback for `info`. -/
def IsRollback (info : RollbackInfo) (x : Invocation) : Prop := ∃ r, x = rollback info r

end Invocation

/-- A controller and what it was invoked for, oldest first. -/
structure Watched (C : Type) where
  inner : C
  invocations : List Invocation

namespace Watched

variable {C : Type}

/-- Run `x` on the controller inside, and write down what `record` makes of its result. -/
def watch (record : Answer → List Invocation) (x : Async C Effect Answer AnyhowError Unit) :
    Async (Watched C) Effect Answer AnyhowError Unit := fun self =>
  ((x self.inner).zoom fun inner => { self with inner }).bind fun (r, inner) =>
    .done (r, { inner, invocations := self.invocations ++ record r })

instance [XactController C] : XactController (Watched C) where
  execute := watch (fun _ => []) XactController.execute
  commit := watch (fun r => [.commit r]) XactController.commit
  rollback info := watch (fun r => [.rollback info r]) (XactController.rollback info)

end Watched

/-- What is sent to the client when the effect is asked for: `None` for a commit, the info of a
rollback, and nothing when the channel was used before. -/
def Effect.reply : Effect → Option (Option RollbackInfo)
  | .replyCommit (some _) => some none
  | .replyRollback (some _) info => some (some info)
  | _ => none

/-- The status may go from one value to the other in one call. -/
inductive XactStatus.Moves : XactStatus → XactStatus → Prop where
  | stay (status : XactStatus) : Moves status status
  | carry : Moves .waiting .committing
  | lose (info : RollbackInfo) : Moves .waiting (.rollbacking info)
  | commit : Moves .committing .committed
  | rollback (info : RollbackInfo) : Moves (.rollbacking info) (.rollbacked info)

namespace XactState

variable {C : Type}

/-- A call on the state. The effects of `try_finish` are answered by `env`. -/
inductive Call where
  | addVote (vote : Vote)
  | tryFinish (env : Effect → Answer)

/-- The same state, with its controller watched from now on. -/
def watched (self : XactState C) : XactState (Watched C) :=
  { self with controller := ⟨self.controller, []⟩ }

variable [XactController C]

/-- What the call returns, and the state that it leaves. -/
def call (self : XactState C) : Call → Except Failure XactStatus × XactState C
  | .addVote vote =>
    match self.addVote vote with
    | .ok self => (.ok self.status, self)
    | .error e => (.error e, self)
  | .tryFinish env => (XactState.tryFinish self).run env

/-- The state after the calls. -/
def calls (self : XactState C) : List Call → XactState C
  | [] => self
  | c :: cs => calls (self.call c).2 cs

/-- What the call sends to the client. -/
def sends (self : XactState C) : Call → List (Option RollbackInfo)
  | .addVote _ => []
  | .tryFinish env => ((XactState.tryFinish self).asks env).filterMap Effect.reply

/-- What the calls send to the client, oldest first. -/
def sendsAll (self : XactState C) : List Call → List (Option RollbackInfo)
  | [] => []
  | c :: cs => self.sends c ++ sendsAll (self.call c).2 cs

end XactState

end Sunstorm
