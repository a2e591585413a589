import Sunstorm.Tally.Tally
import Sunstorm.Xactserver.XactType

/-!
# The ballot behind the state of a transaction

What a transaction state is for: it takes a ballot among the participants. The votes are those that
were counted, oldest first, and the status is the decision of the ballot.
-/

namespace Sunstorm

open Await Tally

/-- A vote as the ballot sees it. -/
def Vote.cast (vote : Vote) : Nat × Option RollbackReason := (vote.from.toUsize, vote.rollbackReason)

/-- The reason that an answer to an execution gives, if it is an error. -/
def RollbackReason.ofAnswer : Answer → Option RollbackReason
  | .ok () => none
  | .error e => some (.ofError e)

namespace XactStatus

/-- The status while the decision is not carried out. -/
def ofDecision : Decision Nat RollbackReason → XactStatus
  | .waiting => .waiting
  | .commit => .committing
  | .rollback p reason => .rollbacking ⟨NodeId.ofUsize p, reason⟩

/-- The status once the decision is carried out. -/
def finalOf : Decision Nat RollbackReason → XactStatus
  | .waiting => .waiting
  | .commit => .committed
  | .rollback p reason => .rollbacked ⟨NodeId.ofUsize p, reason⟩

end XactStatus

namespace XactState

variable {C : Type}

/-- The state once `votes` are counted. -/
def counting (self : XactState C) (votes : List (Nat × Option RollbackReason)) : XactState C :=
  { self with
    status := .ofDecision (decision self.participants votes)
    voted := Tally.voted self.participants votes }

/-- What comes of counting `more` after `votes`: an error when votes go on after the ballot is
carried. -/
def verdict (P : BitSet) (votes more : List (Nat × Option RollbackReason)) : Except Failure Unit :=
  if Overrun P votes more then
    .error (.msg ("Condition failed: `self.status != XactStatus::Committing && " ++
      "self.status != XactStatus::Committed`"))
  else .ok ()

/-- What `initialize` ends with when it counts `more` after `votes`. -/
def counted (self : XactState C) (votes more : List (Nat × Option RollbackReason)) :
    Except Failure XactStatus × XactState C :=
  ((verdict self.participants votes more).map fun _ => (self.counting (votes ++ more)).status,
    self.counting (votes ++ more))

/-- A controller that carries a decision out with one effect, and is `spent` from then on. -/
structure Carries [XactController C] (controller spent : C) (onCommit : Effect)
    (onRollback : RollbackInfo → Effect) (onError : AnyhowError → AnyhowError) : Prop where
  commit : (XactController.commit : Async C Effect Answer AnyhowError Unit) controller =
    .await spent onCommit fun r => .done (r.mapError onError, spent)
  rollback : ∀ info,
    (XactController.rollback info : Async C Effect Answer AnyhowError Unit) controller =
      .await spent (onRollback info) fun r => .done (r.mapError onError, spent)

/-- The effect that carries a decision out, with the context of its errors. -/
def closing (onCommit : Effect) (onRollback : RollbackInfo → Effect) :
    Decision Nat RollbackReason → Option (Effect × String)
  | .waiting => none
  | .commit => some (onCommit, "Failed to commit")
  | .rollback p reason => some (onRollback ⟨NodeId.ofUsize p, reason⟩, "Failed to rollback")

/-- What `try_finish` ends with when the effect that carries the decision out is answered. -/
def closed (self : XactState C) (d : Decision Nat RollbackReason) (text : String) :
    Answer → Except Failure XactStatus × XactState C
  | .ok () => (.ok (.finalOf d), { self with status := .finalOf d })
  | .error e => (.error (.err (e.context text)), self)

end XactState

end Sunstorm
