import Sunstorm.Await.Proofs.ProgProofs
import Sunstorm.Postgres.Proofs.DbProofs
import Sunstorm.Xactserver.Sql

/-!
# Proofs: what the statements of a surrogate leave in PostgreSQL

One specification for each of the three programs. They hold for whatever becomes of the statements.
-/

namespace Sunstorm

open Await Postgres

/-- `COMMIT PREPARED` is sent only for the transaction `id`, and only while it is prepared with its
work done. -/
def Guarded (id : XactId) (stmt : Sql) (db : Db String) : Prop :=
  ∀ gid, stmt = .commitPrepared gid → gid = id.toString ∧ db.prepared gid = some true

/-- What has happened to the transaction once `execute` has returned. -/
def Executed : Answer → List GidEvent → Prop
  | .ok (), history => history = [.prepared true]
  | .error _, history => history = [] ∨ ∃ worked, history = [.prepared worked]

/-- What has happened to the transaction once `commit` has returned. -/
def CommitReturned : Answer → List GidEvent → Prop
  | .ok (), history => history = [.prepared true, .committed]
  | .error _, _ => True

/-- What has happened to the transaction once `rollback` has returned. -/
def RollbackReturned : Answer → List GidEvent → Prop
  | .ok (), history => history = [] ∨ ∃ worked, history = [.prepared worked, .rolledBack]
  | .error _, _ => True

namespace SurrogateXactController

variable {self : SurrogateXactController} {db : Db String}
  {may : Db String → Fate AnyhowError → Prop}

theorem wp_query {stmt : Sql} {text : String} {Q : SqlReply × Unit → Db String → Prop}
    {exec : Sql → Db String → SqlReply → Db String → Prop} :
    (query stmt text ()).Wp exec (Guarded self.xactId) Q db ↔
      Guarded self.xactId stmt db ∧ ∀ r db', exec stmt db r db' →
        Q (r.mapError (AnyhowError.context text), ()) db' := Iff.rfl

/-- **What `execute` does.** If it returns no error, the transaction is prepared with its work done;
otherwise it may be prepared or not. -/
theorem wp_execute (self : SurrogateXactController) (h : db.history self.xactId.toString = []) :
    (executeSql self ()).Wp (Db.Executes may) (Guarded self.xactId)
      (fun a db' => Executed a.1 (db'.history self.xactId.toString)) db := by
  unfold executeSql
  rw [Async.wp_bind, Async.wp_ask]
  refine ⟨fun gid hgid => absurd hgid (by simp), fun r₁ db₁ h₁ => ?_⟩
  have hist₁ := Db.executes_connect h₁
  cases r₁ with
  | error e => exact Or.inl (by rw [hist₁, h])
  | ok b₁ =>
    show Prog.Wp _ _ _ _ _
    rw [Async.wp_bind, wp_query]
    refine ⟨fun gid hgid => absurd hgid (by simp), fun r₂ db₂ h₂ => ?_⟩
    obtain ⟨hist₂, hopen₂⟩ := Db.executes_begin h₂
    cases r₂ with
    | error e => exact Or.inl (by rw [hist₂, hist₁, h])
    | ok b₂ =>
      show Prog.Wp _ _ _ _ _
      rw [Async.wp_bind, Async.wp_attempt, wp_query]
      refine ⟨fun gid hgid => absurd hgid (by simp), fun r₃ db₃ h₃ => ?_⟩
      obtain ⟨hist₃, hopen₃⟩ := Db.executes_work h₃ (hopen₂ b₂ rfl)
      show Prog.Wp _ _ _ _ _
      rw [Async.wp_bind, wp_query]
      refine ⟨fun gid hgid => absurd hgid (by simp), fun r₄ db₄ h₄ => ?_⟩
      obtain ⟨hist₄, hprepared⟩ := Db.executes_prepare h₄
      have hempty : db₃.history self.xactId.toString = [] := by rw [hist₃, hist₂, hist₁, h]
      rw [hempty] at hist₄ hprepared
      cases r₄ with
      | error e => exact hist₄
      | ok b₄ =>
        cases r₃ with
        | error e => exact hist₄
        | ok b₃ => exact hprepared b₄ true rfl (hopen₃ b₃ rfl)

/-- **What `commit` does**, to a transaction that is prepared with its work done. -/
theorem wp_commit (self : SurrogateXactController) (h : db.history self.xactId.toString = [.prepared true]) :
    (commitSql self ()).Wp (Db.Executes may) (Guarded self.xactId)
      (fun a db' => CommitReturned a.1 (db'.history self.xactId.toString)) db := by
  unfold commitSql
  rw [Async.wp_bind, Async.wp_ask]
  refine ⟨fun gid hgid => absurd hgid (by simp), fun r₁ db₁ h₁ => ?_⟩
  have hist₁ := Db.executes_connect h₁
  cases r₁ with
  | error e => trivial
  | ok b₁ =>
    show Prog.Wp _ _ _ _ _
    rw [Async.wp_bind, wp_query]
    have hnow : db₁.history self.xactId.toString = [] ++ [.prepared true] := by rw [hist₁, h]; rfl
    constructor
    · rintro gid hgid
      obtain rfl := Stmt.commitPrepared.inj hgid
      exact ⟨rfl, Db.prepared_of_prepared hnow⟩
    · intro r₂ db₂ h₂
      cases r₂ with
      | error e => trivial
      | ok b₂ =>
        have hist₂ := Db.executes_commitPrepared h₂ rfl
        rw [hnow] at hist₂
        exact hist₂

/-- **What `rollback` does**, to a transaction that is prepared or not. -/
theorem wp_rollback (self : SurrogateXactController) (h : db.history self.xactId.toString = [] ∨
      ∃ worked, db.history self.xactId.toString = [.prepared worked]) :
    (rollbackSql self ()).Wp (Db.Executes may) (Guarded self.xactId)
      (fun a db' => RollbackReturned a.1 (db'.history self.xactId.toString)) db := by
  unfold rollbackSql
  rw [Async.wp_bind, Async.wp_ask]
  refine ⟨fun gid hgid => absurd hgid (by simp), fun r₁ db₁ h₁ => ?_⟩
  have hist₁ := Db.executes_connect h₁
  cases r₁ with
  | error e => trivial
  | ok b₁ =>
    show Prog.Wp _ _ _ _ _
    rw [Async.wp_bind, wp_query]
    refine ⟨fun gid hgid => absurd hgid (by simp), fun r₂ db₂ h₂ => ?_⟩
    obtain ⟨hist₂, hrow⟩ := Db.executes_lookup h₂
    cases r₂ with
    | error e => trivial
    | ok b₂ =>
      have hb := hrow b₂ rfl
      show Prog.Wp _ _ _ _ _
      rcases h with h | ⟨worked, h⟩
      · have hnow : db₁.history self.xactId.toString = [] := by rw [hist₁, h]
        rw [Db.prepared_of_nil hnow] at hb
        obtain rfl : b₂ = false := hb
        exact Or.inl (by rw [hist₂, hnow])
      · have hnow : db₁.history self.xactId.toString = [] ++ [.prepared worked] := by
          rw [hist₁, h]; rfl
        rw [Db.prepared_of_prepared hnow] at hb
        obtain rfl : b₂ = true := hb
        show Prog.Wp _ _ _ ((query (.rollbackPrepared _) _ >>= fun _ => pure ()) ()) _
        rw [Async.wp_bind, wp_query]
        refine ⟨fun gid hgid => absurd hgid (by simp), fun r₃ db₃ h₃ => ?_⟩
        cases r₃ with
        | error e => trivial
        | ok b₃ =>
          have hist₃ := Db.executes_rollbackPrepared h₃ rfl
          rw [hist₂, hnow] at hist₃
          exact Or.inr ⟨worked, hist₃⟩

end SurrogateXactController

end Sunstorm
