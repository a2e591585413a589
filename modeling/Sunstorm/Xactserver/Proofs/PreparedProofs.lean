import Sunstorm.Await.Proofs.StepProofs
import Sunstorm.Machine.Proofs.MachineProofs
import Sunstorm.Xactserver.Proofs.SiteProofs

/-!
# Proofs: PostgreSQL follows the status of a surrogate

The database is where the last answer left it, and what is being sent keeps its specification. This
is an invariant for every specification of the three programs.
-/

namespace Sunstorm

open Await Postgres

variable {id : XactId} {n : NodeId} {may : Db String → Fate AnyhowError → Prop}
  {Post : Effect → Answer → Db String → Prop} {db₀ : Db String} {s s' s₀ : Site}

/-- `Post` tells what the calls of a surrogate leave in PostgreSQL, by their answers. -/
structure Settles (id : XactId) (may : Db String → Fate AnyhowError → Prop)
    (Post : Effect → Answer → Db String → Prop) : Prop where
  execute : ∀ data db, db.history id.toString = [] → ∀ prog,
    (Effect.execute id data).sql = some prog →
    prog.Wp (Db.Executes may) (Guarded id) (fun a => Post (.execute id data) a.1) db
  close : ∀ data r c db, Post (.execute id data) r db → Closes id r c → ∀ prog, c.sql = some prog →
    prog.Wp (Db.Executes may) (Guarded id) (fun a => Post c a.1) db

/-- An execution prepares the transaction or leaves nothing, so its closing starts from there. -/
theorem Settles.of_wp
    (hexecute : ∀ data, Post (.execute id data) = fun r db => Executed r (db.history id.toString))
    (hcommit : ∀ db, db.history id.toString = [.prepared true] →
      (SurrogateXactController.commitSql ⟨id, []⟩ ()).Wp (Db.Executes may) (Guarded id)
        (fun a => Post (.commit id) a.1) db)
    (hrollback : ∀ info db, (db.history id.toString = [] ∨
        ∃ worked, db.history id.toString = [.prepared worked]) →
      (SurrogateXactController.rollbackSql ⟨id, []⟩ ()).Wp (Db.Executes may) (Guarded id)
        (fun a => Post (.rollback id info) a.1) db) :
    Settles id may Post where
  execute := by
    intro data db h prog hprog
    obtain rfl := Option.some.inj hprog
    rw [hexecute]
    exact SurrogateXactController.wp_execute ⟨id, data⟩ h
  close := by
    intro data r c db h hc prog hprog
    rw [hexecute] at h
    rcases hc with ⟨rfl, rfl⟩ | ⟨info, rfl⟩
    · obtain rfl := Option.some.inj hprog
      exact hcommit db h
    · obtain rfl := Option.some.inj hprog
      refine hrollback info db ?_
      cases r with
      | error e => exact h
      | ok u => exact Or.inr ⟨true, h⟩

/-- The database is where the last answer has left it. -/
structure Agrees (id : XactId) (Post : Effect → Answer → Db String → Prop) (db : Db String)
    (sql : XactLog) : Prop where
  untouched : sql = [] → db.history id.toString = []
  answered : ∀ l e r, sql = l ++ [.ret e r] → Post e r db

/-- The answer to the call that closes the transaction is the last one. -/
theorem Agrees.closed {db : Db String} {sql : XactLog} (h : Agrees id Post db sql)
    (hshape : SqlShape id sql) {c : Effect} {r : Answer} (hmem : .ret c r ∈ sql)
    (hc : c.isExecute = false) : Post c r db := by
  cases hshape with
  | untouched => exact absurd hmem List.not_mem_nil
  | executing data => exact absurd hmem (by simp)
  | executed data r' =>
    obtain ⟨rfl, -⟩ : c = .execute id data ∧ r = r' := by simpa using hmem
    exact absurd hc (by simp [Effect.isExecute])
  | closing data r' c' hc' =>
    obtain ⟨rfl, -⟩ : c = .execute id data ∧ r = r' := by simpa using hmem
    exact absurd hc (by simp [Effect.isExecute])
  | closed data r' c' hc' r'' =>
    have hcases : (c = .execute id data ∧ r = r') ∨ (c = c' ∧ r = r'') := by simpa using hmem
    rcases hcases with ⟨rfl, -⟩ | ⟨rfl, rfl⟩
    · exact absurd hc (by simp [Effect.isExecute])
    · exact h.answered [_, _, _] c r rfl

namespace Site

/-- What is true of a surrogate in front of PostgreSQL. -/
structure Settled (id : XactId) (n : NodeId) (may : Db String → Fate AnyhowError → Prop)
    (Post : Effect → Answer → Db String → Prop) (s : Site) : Prop where
  reach : Proc.Reach XactStateManager.handle (XsMessage.AtSurrogate n) (XactStateManager.new id n)
    s.proc
  agrees : Agrees id Post s.db (sqlLog s.proc.log)
  /-- What is awaited is begun. -/
  begun : ∀ st e k, s.proc.task = .busy st e k → (s.sql = none ↔ e.sql = none)
  /-- What is sent is for the effect that is awaited. -/
  sending : ∀ prog, s.sql = some prog → ∃ st e k, s.proc.task = .busy st e k ∧
    prog.Wp (Db.Executes may) (Guarded id) (fun a => Post e a.1) s.db

theorem stage_of_reach_surrogate {p : XactProc}
    (hp : Proc.Reach XactStateManager.handle (XsMessage.AtSurrogate n) (XactStateManager.new id n) p) :
    Stage id n (Point.ofTask p.task) (XactProc.status p) p.log := by
  have hforeign : ∀ m : XsMessage, m.AtSurrogate n → m.Foreign n := by
    intro m hm
    cases m with
    | prepare msg => exact hm
    | _ => trivial
  exact stage_of_reach (hp.mono hforeign)

/-- What the log says of a surrogate. -/
theorem told_of_reach {p : XactProc}
    (hp : Proc.Reach XactStateManager.handle (XsMessage.AtSurrogate n) (XactStateManager.new id n) p) :
    Told id (XactProc.status p) (sqlLog p.log) :=
  (stage_of_reach_surrogate hp).told fun _ _ hmem => hp.taken hmem

theorem settled_start (h : db₀.history id.toString = []) :
    Settled id n may Post (start id n db₀) where
  reach := .start
  agrees := ⟨fun _ => h, fun l e r hl => absurd hl (by simp [start, Proc.start, sqlLog])⟩
  begun := fun st e k ht => absurd ht (by simp [start, Proc.start])
  sending := fun prog hprog => absurd hprog (by simp [start])

/-- A handler that goes on begins what it awaits, from a database that is settled. -/
theorem settled_resume (hset : Settles id may Post)
    {q : Prog XactStateManager Effect Answer (Except Failure Bool × XactStateManager)}
    {inbox : List XsMessage} {log : XactLog} {db : Db String}
    (hreach : Proc.Reach XactStateManager.handle (XsMessage.AtSurrogate n)
      (XactStateManager.new id n) (Proc.enter q inbox log))
    (hagrees : Agrees id Post db (sqlLog log)) :
    Settled id n may Post (resume (Proc.enter q inbox log) db) := by
  have hshape := (told_of_reach hreach).shape
  rcases Proc.enter_cases q inbox log with ⟨hbusy, hlog⟩ | ⟨st, e, k, htask, hlog⟩
  · have hnone : ∀ st e k, (Proc.enter q inbox log).task ≠ .busy st e k := by
      intro st e k ht
      rw [ht] at hbusy
      exact absurd hbusy (by simp [Task.isBusy])
    have hsql : (resume (Proc.enter q inbox log) db).sql = none := by
      unfold resume
      cases ht : (Proc.enter q inbox log).task with
      | busy st e k => exact absurd ht (hnone st e k)
      | _ => rfl
    refine ⟨hreach, ?_, fun st e k ht => absurd ht (hnone st e k), fun prog hprog => ?_⟩
    · show Agrees id Post db (sqlLog (Proc.enter q inbox log).log)
      rw [hlog]
      exact hagrees
    · rw [hsql] at hprog
      exact absurd hprog (by simp)
  · have hsql : (resume (Proc.enter q inbox log) db).sql = e.sql := by
      unfold resume
      rw [htask]
    rw [hlog, sqlLog_append] at hshape
    refine ⟨hreach, ?_, fun st' e' k' ht => ?_, fun prog hprog => ⟨st, e, k, htask, ?_⟩⟩
    · show Agrees id Post db (sqlLog (Proc.enter q inbox log).log)
      rw [hlog, sqlLog_append]
      cases he : e.sql with
      | none =>
        rw [sqlLog_call_other he, List.append_nil]
        exact hagrees
      | some prog =>
        rw [sqlLog_call (by rw [he]; rfl)]
        refine ⟨fun hnil => absurd hnil (by simp), fun l e' r hl => ?_⟩
        exact absurd (List.append_inj' hl rfl).2 (by simp)
    · obtain ⟨-, rfl, -⟩ := Task.busy.inj (htask.symm.trans ht)
      rw [hsql]
    · rw [hsql] at hprog
      rw [sqlLog_call (by rw [hprog]; rfl)] at hshape
      rcases hshape.call_cases with ⟨data, hrest, rfl⟩ | ⟨data, r, hrest, hc⟩
      · exact hset.execute data db (hagrees.untouched hrest) prog hprog
      · exact hset.close data r e db (hagrees.answered [_] _ _ hrest) hc prog hprog

/-- A step keeps the database settled. -/
theorem Settled.step (hset : Settles id may Post) (h : Settled id n may Post s) {a : Act}
    (ha : a.AtSurrogate n may s) (hs : s.step a = some s') : Settled id n may Post s' := by
  have hret : ∀ st e k r, s.proc.task = .busy st e k → (e.sql.isSome = true → Post e r s.db) →
      Agrees id Post s.db (sqlLog (s.proc.log ++ [.ret e r])) := by
    intro st e k r ht hpost
    rw [sqlLog_append]
    cases he : e.sql with
    | none =>
      rw [sqlLog_ret_other he, List.append_nil]
      exact h.agrees
    | some prog =>
      have hsome : e.sql.isSome = true := by rw [he]; rfl
      rw [sqlLog_ret hsome]
      refine ⟨fun hnil => absurd hnil (by simp), fun l e' r' hl => ?_⟩
      obtain ⟨rfl, rfl⟩ := Event.ret.inj (List.singleton_inj.mp (List.append_inj' hl rfl).2)
      exact hpost hsome
  cases a with
  | post m =>
    obtain rfl := Option.some.inj hs
    refine ⟨.post m ha h.reach, ?_, ?_, ?_⟩
    · show Agrees id Post s.db (sqlLog (s.proc.post m).log)
      rw [Proc.post_log]
      exact h.agrees
    · show ∀ st e k, (s.proc.post m).task = .busy st e k → (s.sql = none ↔ e.sql = none)
      rw [Proc.post_task]
      exact h.begun
    · show ∀ prog, s.sql = some prog → ∃ st e k, (s.proc.post m).task = .busy st e k ∧ _
      rw [Proc.post_task]
      exact h.sending
  | take =>
    obtain ⟨proc, htake, rfl⟩ := Option.map_eq_some_iff.mp hs
    have hreach := Proc.Reach.take h.reach htake
    obtain ⟨st, m, rest, -, -, rfl⟩ := Proc.take_cases htake
    refine settled_resume hset hreach ?_
    rw [sqlLog_append, sqlLog_recv, List.append_nil]
    exact h.agrees
  | statement o =>
    simp only [Site.step] at hs
    cases hsql : s.sql with
    | none =>
      rw [hsql] at hs
      exact absurd hs (by simp)
    | some prog =>
      obtain ⟨st, e, k, ht, hwp⟩ := h.sending prog hsql
      cases prog with
      | done a =>
        rw [hsql] at hs
        exact absurd hs (by simp)
      | await u stmt next =>
        rw [hsql] at hs
        obtain ⟨⟨r, db'⟩, hexec, rfl⟩ := Option.map_eq_some_iff.mp hs
        have he : e.sql ≠ none := fun he => absurd hsql (by rw [(h.begun st e k ht).mpr he]; simp)
        obtain ⟨l, hl⟩ := h.reach.awaiting_last ht
        refine ⟨h.reach, ?_, fun st' e' k' ht' => ?_, fun prog hprog => ⟨st, e, k, ht, ?_⟩⟩
        · -- the answer is still out
          show Agrees id Post db' (sqlLog s.proc.log)
          rw [hl, sqlLog_append, sqlLog_call (Option.isSome_iff_ne_none.mpr he)]
          refine ⟨fun hnil => absurd hnil (by simp), fun l' e' r' hl' => ?_⟩
          exact absurd (List.append_inj' hl' rfl).2 (by simp)
        · obtain ⟨-, rfl, -⟩ := Task.busy.inj (ht.symm.trans ht')
          exact iff_of_false (by simp) he
        · obtain rfl := Option.some.inj hprog
          exact hwp.2 r db' ⟨o, ha, hexec⟩
  | finish =>
    simp only [Site.step] at hs
    cases hsql : s.sql with
    | none =>
      rw [hsql] at hs
      exact absurd hs (by simp)
    | some prog =>
      obtain ⟨st, e, k, ht, hwp⟩ := h.sending prog hsql
      cases prog with
      | await u stmt next =>
        rw [hsql] at hs
        exact absurd hs (by simp)
      | done a =>
        rw [hsql] at hs
        obtain ⟨proc, hanswer, rfl⟩ := Option.map_eq_some_iff.mp hs
        have hreach := Proc.Reach.answer a.1 h.reach hanswer
        obtain ⟨st', e', k', ht', rfl⟩ := Proc.answer_cases hanswer
        obtain ⟨-, rfl, -⟩ := Task.busy.inj (ht.symm.trans ht')
        exact settled_resume hset hreach (hret st' e k' a.1 ht' fun _ => hwp)
  | answer r =>
    simp only [Site.step] at hs
    cases hsql : s.sql with
    | some prog =>
      rw [hsql] at hs
      exact absurd hs (by simp)
    | none =>
      rw [hsql] at hs
      obtain ⟨proc, hanswer, rfl⟩ := Option.map_eq_some_iff.mp hs
      have hreach := Proc.Reach.answer r h.reach hanswer
      obtain ⟨st, e, k, ht, rfl⟩ := Proc.answer_cases hanswer
      have he := (h.begun st e k ht).mp hsql
      refine settled_resume hset hreach (hret st e k r ht fun hsome => ?_)
      rw [he] at hsome
      exact absurd hsome (by simp)
  | stop =>
    obtain ⟨proc, hcancel, rfl⟩ := Option.map_eq_some_iff.mp hs
    have hreach := Proc.Reach.cancel h.reach hcancel
    obtain ⟨st, -, -, rfl⟩ := Proc.cancel_cases hcancel
    exact ⟨hreach, h.agrees, fun st e k ht => absurd ht (by simp),
      fun prog hprog => absurd hprog (by simp)⟩

/-- The database is settled in every state of a surrogate. -/
theorem settled_of_reach (hset : Settles id may Post) (h₀ : db₀.history id.toString = [])
    (hr : Machine.Reach step (Act.AtSurrogate n may) (start id n db₀) s) :
    Settled id n may Post s :=
  hr.invariant (settled_start h₀) fun _ _ _ h ha hs => h.step hset ha hs

end Site

/-- What the calls of a surrogate leave behind, whatever becomes of the statements. -/
def Left (id : XactId) : Effect → Answer → Db String → Prop
  | .execute _ _, r, db => Executed r (db.history id.toString)
  | .commit _, r, db => CommitReturned r (db.history id.toString)
  | .rollback _ _, r, db => RollbackReturned r (db.history id.toString)
  | _, _, _ => True

theorem settles_left : Settles id may (Left id) :=
  .of_wp (fun _ => rfl) (fun _ h => SurrogateXactController.wp_commit ⟨id, []⟩ h)
    fun _ _ h => SurrogateXactController.wp_rollback ⟨id, []⟩ h

/-- **PostgreSQL follows the status of a surrogate**, whatever becomes of its statements and whatever
votes it gets. -/
theorem prepared_follows_status (h₀ : db₀.history id.toString = [])
    (hr : Machine.Reach Site.step (Site.Act.AtSurrogate n fun _ _ => True) (Site.start id n db₀) s) :
    (∀ u gid k, s.sql = some (.await u (.commitPrepared gid) k) →
      gid = id.toString ∧ s.db.prepared gid = some true) ∧
    (∀ info, s.proc.status = .rollbacked info →
      s.db.prepared id.toString = none ∧ .committed ∉ s.db.history id.toString) ∧
    (s.proc.status = .committed → s.db.history id.toString = [.prepared true, .committed]) := by
  have h := Site.settled_of_reach settles_left h₀ hr
  have htold := Site.told_of_reach h.reach
  refine ⟨?_, ?_, ?_⟩
  · intro u gid k hsql
    obtain ⟨st, e, k', -, hwp⟩ := h.sending _ hsql
    exact hwp.1 gid rfl
  · intro info hstatus
    have hleft := h.agrees.closed htold.shape (htold.rolledBack info hstatus) rfl
    rcases hleft with hempty | ⟨worked, hrolled⟩
    · exact ⟨Db.prepared_of_nil hempty, by rw [hempty]; exact List.not_mem_nil⟩
    · exact ⟨Db.prepared_of_closed (l := [_]) hrolled (by simp), by rw [hrolled]; simp⟩
  · intro hstatus
    exact h.agrees.closed htold.shape (htold.committed hstatus) rfl

/-- Node 1 in front of a database where nothing was prepared, at the start of a transaction of
node 0. -/
def freshSite : Site := Site.start (.new 1 ⟨0⟩) ⟨1⟩ ⟨.idle, fun _ => []⟩

/-- Node 1 executes the transaction and commits it with the votes of both. -/
def committingRun : List Site.Act :=
  let data : Bytes := [0, 0, 0, 1, 0, 0, 0, 0, 0, 0, 0, 3, 0, 0, 0, 0, 0, 0, 0, 0]
  [.post (.prepare { «from» := 0, xactId := (XactId.new 1 ⟨0⟩).val, data }), .take,
    .statement .done, .statement .done, .statement .done, .statement .done, .finish,
    .answer (.ok ()), .statement .done, .statement .done, .finish]

theorem prepared_follows_status_commit :
    ∃ s, Machine.run Site.step freshSite committingRun = some s ∧ s.proc.status = .committed ∧
      s.db.history (XactId.new 1 ⟨0⟩).toString = [.prepared true, .committed] := by
  have hrun : (Machine.run Site.step freshSite committingRun).map
      (fun s => decide (s.proc.status = .committed)) = some true := by
    decide
  obtain ⟨s, hs, hfact⟩ := Option.map_eq_some_iff.mp hrun
  have hstatus := of_decide_eq_true hfact
  have hreach : Machine.Reach Site.step (Site.Act.AtSurrogate ⟨1⟩ fun _ _ => True) freshSite s := by
    refine Machine.reach_of_run .start (Machine.admitted_of_forall fun s a ha => ?_) hs
    simp only [committingRun, List.mem_cons, List.not_mem_nil, or_false] at ha
    rcases ha with rfl | rfl | rfl | rfl | rfl | rfl | rfl | rfl | rfl | rfl | rfl <;>
      simp [Site.Act.AtSurrogate, XsMessage.AtSurrogate]
  exact ⟨s, hs, hstatus, (prepared_follows_status rfl hreach).2.2 hstatus⟩

end Sunstorm
