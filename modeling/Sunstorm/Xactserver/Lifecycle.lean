import Sunstorm.Xactserver.Stage

/-!
# The life of a state manager

`manager.rs` unwraps the id of the coordinator, the timer and the code of a database error. What it
measures about a transaction is to start before it ends, and to end with the transaction.
-/

namespace Sunstorm

open Await

/-! ## Codes that are text -/

/-- The code is UTF-8, as `From<&tokio_postgres::Error>` produces it. -/
def DbError.Textual (err : DbError) : Prop := (String.fromUTF8? ⟨err.code.toArray⟩).isSome = true

def RollbackReason.Textual : RollbackReason → Prop
  | .db err => err.Textual
  | .other _ => True

def XactStatus.Textual : XactStatus → Prop
  | .rollbacking info => info.reason.Textual
  | .rollbacked info => info.reason.Textual
  | _ => True

def Vote.Textual (vote : Vote) : Prop := ∀ reason, vote.rollbackReason = some reason → reason.Textual

/-- The votes that are kept and the status give textual codes only. -/
def XactType.Textual : XactType → Prop
  | .unknown votes => ∀ vote ∈ votes, vote.Textual
  | .localXact xact => xact.status.Textual
  | .surrogate xact => xact.status.Textual

def XsMessage.Textual : XsMessage → Prop
  | .vote msg => (Vote.ofMessage msg).Textual
  | _ => True

/-! ## Unwraps and measurements -/

/-- The panic of an `unwrap`. -/
def Failure.IsUnwrap (f : Failure) : Prop :=
  f = .panic "called `Option::unwrap()` on a `None` value" ∨
    f = .panic "called `Result::unwrap()` on an `Err` value"

/-- Whether this is recorded by `end_xact_measurement`. -/
def Measurement.isFinished : Measurement → Bool
  | .finished _ _ => true
  | .started _ => false

/-- The life of a state manager up to some point. -/
structure XactProc.Orderly (p : XactProc) : Prop where
  /-- No `unwrap` has panicked. -/
  unwraps : ∀ st f, p.task = .halted st (.failed f) → ¬ f.IsUnwrap
  /-- The measurement has ended once if the transaction is finished, and not at all before. -/
  measured : p.task.state.measured.countP Measurement.isFinished =
    if p.status.isTerminal then 1 else 0
  /-- It was started before it ended. -/
  begun : ∀ l l' coordinator label,
    p.task.state.measured = l ++ .finished coordinator label :: l' → .started coordinator ∈ l
  /-- The handler that finished the transaction has completed, and with it the loop. -/
  completed : p.status.isTerminal = true → ∃ st, p.task = .halted st .finished

end Sunstorm
