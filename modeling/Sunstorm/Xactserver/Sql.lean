import Sunstorm.Postgres.Db
import Sunstorm.Xactserver.Manager

/-!
# What a surrogate does in PostgreSQL

`pg/controller.rs`: `SurrogateXactController` as the statements that it sends, and a state manager
whose effects on PostgreSQL are carried out statement by statement.
-/

namespace Sunstorm

open Await Postgres

/-- A statement of a surrogate. The work of its transaction is `validate_and_apply_xact`. -/
abbrev Sql : Type := Stmt String Bytes

/-- The answer to a statement: whether there is a row. -/
abbrev SqlReply : Type := Except AnyhowError Bool

/-- Code that talks to PostgreSQL. -/
abbrev SqlCode (α : Type) : Type := Async Unit Sql SqlReply AnyhowError α

/-- Send the statement; `text` is the context of its error. -/
def query (stmt : Sql) (text : String) : SqlCode Bool :=
  (Async.ask stmt).mapFailure (AnyhowError.context text)

namespace SurrogateXactController

/-- `SurrogateXactController::execute`. -/
def executeSql (self : SurrogateXactController) : SqlCode Unit := do
  let _ ← Async.ask .connect
  let _ ← query .begin ("Failed to begin xact " ++ self.xactId.toString)
  let result ← (query (.work self.data) ("Failed to validate xact " ++ self.xactId.toString)).attempt
  let _ ← query (.prepare self.xactId.toString) ("Failed to prepare xact " ++ self.xactId.toString)
  -- the result is looked at only now, to give `PREPARE TRANSACTION` a chance to roll back
  let _ ← Async.lift result
  return ()

/-- `SurrogateXactController::commit`. -/
def commitSql (self : SurrogateXactController) : SqlCode Unit := do
  let _ ← Async.ask .connect
  let _ ← query (.commitPrepared self.xactId.toString)
    ("Failed to commit prepared xact " ++ self.xactId.toString)
  return ()

/-- `SurrogateXactController::rollback`. -/
def rollbackSql (self : SurrogateXactController) : SqlCode Unit := do
  let _ ← Async.ask .connect
  let preparedXact ← query (.lookup self.xactId.toString)
    ("Failed to check preparedness of xact " ++ self.xactId.toString)
  if preparedXact then
    let _ ← query (.rollbackPrepared self.xactId.toString)
      ("Failed to rollback xact " ++ self.xactId.toString)
    return ()
  else return ()

end SurrogateXactController

/-- A program that is sending statements. -/
abbrev SqlTask : Type := Prog Unit Sql SqlReply (Answer × Unit)

/-- The statements that carry out the effect, if it is one on PostgreSQL. -/
def Effect.sql : Effect → Option SqlTask
  | .execute xactId data => some (SurrogateXactController.executeSql ⟨xactId, data⟩ ())
  | .commit xactId => some (SurrogateXactController.commitSql ⟨xactId, []⟩ ())
  | .rollback xactId _ => some (SurrogateXactController.rollbackSql ⟨xactId, []⟩ ())
  | _ => none

/-- The message is one for a surrogate at `n`: it hands no transaction to the node, and does not name
the node as the coordinator. -/
def XsMessage.AtSurrogate (n : NodeId) : XsMessage → Prop
  | .localXact _ _ => False
  | .prepare msg => (⟨msg.from⟩ : NodeId) ≠ n
  | .vote _ => True

/-- A state manager at work on PostgreSQL. -/
structure Site where
  proc : XactProc
  db : Db String
  /-- The statements left to send for the effect that the state manager awaits. -/
  sql : Option SqlTask

namespace Site

/-- The state manager at the start, in front of the database `db`. -/
def start (id : XactId) (n : NodeId) (db : Db String) : Site :=
  ⟨Proc.start (XactStateManager.new id n), db, none⟩

/-- The state manager when it has come to `proc`: what it awaits is begun. -/
def resume (proc : XactProc) (db : Db String) : Site :=
  ⟨proc, db,
    match proc.task with
    | .busy _ e _ => e.sql
    | _ => none⟩

/-- What can happen. -/
inductive Act where
  /-- A message arrives. -/
  | post (m : XsMessage)
  /-- The state manager takes its next message. -/
  | take
  /-- The next statement is sent, and this becomes of it. -/
  | statement (o : Fate AnyhowError)
  /-- The statements of an effect are through. -/
  | finish
  /-- An effect that is not one on PostgreSQL is answered. -/
  | answer (r : Answer)
  /-- The state manager is stopped. -/
  | stop

/-- One step. -/
def step (self : Site) : Act → Option Site
  | .post m => some { self with proc := self.proc.post m }
  | .take => (self.proc.take XactStateManager.handle).map fun proc => resume proc self.db
  | .statement o =>
    match self.sql with
    | some (.await _ stmt k) => (self.db.exec stmt o).map fun x => ⟨self.proc, x.2, some (k x.1)⟩
    | _ => none
  | .finish =>
    match self.sql with
    | some (.done (r, _)) => (self.proc.answer r).map fun proc => resume proc self.db
    | _ => none
  | .answer r =>
    match self.sql with
    | none => (self.proc.answer r).map fun proc => resume proc self.db
    | some _ => none
  | .stop => self.proc.cancel.map fun proc => ⟨proc, self.db, none⟩

/-- An act at a surrogate, where `may` says what may become of a statement. -/
def Act.AtSurrogate (n : NodeId) (may : Db String → Fate AnyhowError → Prop) (s : Site) :
    Act → Prop
  | .post m => m.AtSurrogate n
  | .statement o => may s.db o
  | _ => True

end Site

end Sunstorm
