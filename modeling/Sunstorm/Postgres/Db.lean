import Mathlib.Logic.Function.Basic

/-!
# Prepared transactions of a database

A database as one client sees it that works with prepared transactions: the transaction of its
connection, and what has happened to the prepared transactions by their global identifiers. A
statement has one effect when it takes place. It reports success only if it took place; an error
says nothing about that.
-/

namespace Postgres

/-- The transaction of the connection. -/
inductive Txn where
  | idle
  /-- Open; and whether the work of the transaction was done in it. -/
  | opened (worked : Bool)
  | aborted
  deriving DecidableEq

/-- What happens to a prepared transaction. -/
inductive GidEvent where
  /-- It was prepared; and whether its work had been done. -/
  | prepared (worked : Bool)
  | committed
  | rolledBack
  deriving DecidableEq

/-- A statement of the client, about transactions `γ` that work on `δ`. -/
inductive Stmt (γ δ : Type) where
  /-- Take a connection. -/
  | connect
  /-- `BEGIN`. -/
  | begin
  /-- The work of the transaction. -/
  | work (data : δ)
  /-- `PREPARE TRANSACTION`. -/
  | prepare (gid : γ)
  /-- Ask whether the transaction is prepared. -/
  | lookup (gid : γ)
  /-- `COMMIT PREPARED`. -/
  | commitPrepared (gid : γ)
  /-- `ROLLBACK PREPARED`. -/
  | rollbackPrepared (gid : γ)
  deriving DecidableEq

/-- The statement concerns no prepared transaction but `gid`. -/
def Stmt.About {γ δ : Type} (gid : γ) : Stmt γ δ → Prop
  | .prepare g => g = gid
  | .lookup g => g = gid
  | .commitPrepared g => g = gid
  | .rollbackPrepared g => g = gid
  | _ => True

/-- When the statement takes place, `ev` may happen to the prepared transaction `gid`. -/
def Stmt.Records {γ δ : Type} : Stmt γ δ → γ → GidEvent → Prop
  | .prepare g, gid, .prepared _ => g = gid
  | .commitPrepared g, gid, .committed => g = gid
  | .rollbackPrepared g, gid, .rolledBack => g = gid
  | _, _, _ => False

/-- What becomes of a statement. -/
inductive Fate (φ : Type) where
  /-- It takes place and succeeds. -/
  | done
  /-- It takes place and reports an error. -/
  | hidden (e : φ)
  /-- It reports an error and does not take place; the connection is left with `txn`. -/
  | failed (e : φ) (txn : Txn)

/-- The database. -/
structure Db (γ : Type) where
  txn : Txn
  /-- What has happened to the prepared transactions, oldest first. -/
  history : γ → List GidEvent

namespace Db

variable {γ δ φ : Type} [DecidableEq γ]

/-- Whether the transaction is prepared now, and then whether its work had been done. -/
def prepared (db : Db γ) (gid : γ) : Option Bool :=
  match (db.history gid).getLast? with
  | some (.prepared worked) => some worked
  | _ => none

/-- The database once `ev` has happened to the transaction. -/
def record (db : Db γ) (gid : γ) (ev : GidEvent) : Db γ :=
  { db with history := Function.update db.history gid (db.history gid ++ [ev]) }

/-- The database as if no other transaction than `gid` was ever prepared. -/
def only (gid : γ) (db : Db γ) : Db γ :=
  { db with history := fun g => if g = gid then db.history g else [] }

/-- The effect of a statement that takes place, and whether it returns a row. An aborted transaction
takes no work and cannot begin again, and preparing it rolls it back. -/
def effect (db : Db γ) : Stmt γ δ → Option (Bool × Db γ)
  | .connect => some (false, db)
  | .begin => if db.txn = .aborted then none else some (false, { db with txn := .opened false })
  | .work _ =>
    match db.txn with
    | .idle => some (true, db)
    | .opened _ => some (true, { db with txn := .opened true })
    | .aborted => none
  | .prepare gid =>
    match db.txn with
    | .opened worked => some (false, { db.record gid (.prepared worked) with txn := .idle })
    | _ => some (false, { db with txn := .idle })
  | .lookup gid => some ((db.prepared gid).isSome, db)
  | .commitPrepared gid =>
    if (db.prepared gid).isSome then some (false, db.record gid .committed) else none
  | .rollbackPrepared gid =>
    if (db.prepared gid).isSome then some (false, db.record gid .rolledBack) else none

/-- What the statement reports, and the database it leaves, if the outcome is possible. -/
def exec (db : Db γ) (stmt : Stmt γ δ) : Fate φ → Option (Except φ Bool × Db γ)
  | .done => (db.effect stmt).map fun x => (.ok x.1, x.2)
  | .hidden e => (db.effect stmt).map fun x => (.error e, x.2)
  | .failed e txn => some (.error e, { db with txn })

/-- The statement may report `r` and turn `db` into `db'`, where `may` says what may become of a
statement in front of `db`. -/
def Executes (may : Db γ → Fate φ → Prop) (stmt : Stmt γ δ) (db : Db γ) (r : Except φ Bool)
    (db' : Db γ) : Prop :=
  ∃ o, may db o ∧ db.exec stmt o = some (r, db')

/-- A statement succeeds while the transaction `gid` is prepared. -/
def Reliable (gid : γ) (db : Db γ) (o : Fate φ) : Prop := db.prepared gid = none ∨ o = .done

end Db

end Postgres
