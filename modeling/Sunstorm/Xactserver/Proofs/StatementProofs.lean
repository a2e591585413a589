import Sunstorm.Postgres.Proofs.FrameProofs
import Sunstorm.Xactserver.Proofs.PreparedProofs

/-!
# Proofs: what a node has asked of PostgreSQL shows in its history

A statement is sent only where it fits what has happened so far. So the history of a prepared
transaction never has more than two entries, and every entry was asked for by the state manager.
-/

namespace Sunstorm

open Await Postgres

variable {id : XactId} {n : NodeId} {sql : XactLog} {history : List GidEvent}
  {may : Db String → Fate AnyhowError → Prop}

/-- A statement that carries out part of an effect, at a point in the history of the transaction. -/
inductive Fits (id : XactId) : Effect → Sql → List GidEvent → Prop where
  | connect (e : Effect) (history : List GidEvent) : Fits id e .connect history
  | begin (data : Bytes) : Fits id (.execute id data) .begin []
  | work (data : Bytes) : Fits id (.execute id data) (.work data) []
  | prepare (data : Bytes) : Fits id (.execute id data) (.prepare id.toString) []
  | commit : Fits id (.commit id) (.commitPrepared id.toString) [.prepared true]
  | lookup (info : RollbackInfo) (history : List GidEvent) :
    Fits id (.rollback id info) (.lookup id.toString) history
  | rollback (info : RollbackInfo) (worked : Bool) :
    Fits id (.rollback id info) (.rollbackPrepared id.toString) [.prepared worked]

/-- The statement fits what the database shows. -/
def Fitting (id : XactId) (e : Effect) (stmt : Sql) (db : Db String) : Prop :=
  Fits id e stmt (db.history id.toString)

theorem Fits.about {e : Effect} {stmt : Sql} (h : Fits id e stmt history) :
    stmt.About id.toString := by
  cases h with
  | connect | begin | work => trivial
  | prepare | commit | lookup | rollback => rfl

/-! ## The three programs -/

namespace SurrogateXactController

variable {self : SurrogateXactController} {db : Db String}

theorem wp_query_of {ω : Type} {exec : Sql → ω → SqlReply → ω → Prop} {G : Sql → ω → Prop}
    {stmt : Sql} {text : String} {Q : SqlReply × Unit → ω → Prop} {w : ω} :
    (query stmt text ()).Wp exec G Q w ↔
      G stmt w ∧ ∀ r w', exec stmt w r w' →
        Q (r.mapError (AnyhowError.context text), ()) w' := Iff.rfl

theorem fitting_execute (self : SurrogateXactController)
    (h : db.history self.xactId.toString = []) :
    (executeSql self ()).Wp (Db.Executes may) (Fitting self.xactId (.execute self.xactId self.data))
      (fun _ _ => True) db := by
  unfold executeSql
  rw [Async.wp_bind, Async.wp_ask]
  refine ⟨.connect _ _, fun r₁ db₁ h₁ => ?_⟩
  have hist₁ : db₁.history self.xactId.toString = [] := by rw [Db.executes_connect h₁, h]
  cases r₁ with
  | error e => trivial
  | ok b₁ =>
    show Prog.Wp _ _ _ _ _
    rw [Async.wp_bind, wp_query_of]
    refine ⟨by unfold Fitting; rw [hist₁]; exact .begin _, fun r₂ db₂ h₂ => ?_⟩
    obtain ⟨hist₂, hopen₂⟩ := Db.executes_begin h₂
    rw [← hist₂] at hist₁
    cases r₂ with
    | error e => trivial
    | ok b₂ =>
      show Prog.Wp _ _ _ _ _
      rw [Async.wp_bind, Async.wp_attempt, wp_query_of]
      refine ⟨by unfold Fitting; rw [hist₁]; exact .work _, fun r₃ db₃ h₃ => ?_⟩
      obtain ⟨hist₃, -⟩ := Db.executes_work h₃ (hopen₂ b₂ rfl)
      rw [← hist₃] at hist₁
      show Prog.Wp _ _ _ _ _
      rw [Async.wp_bind, wp_query_of]
      refine ⟨by unfold Fitting; rw [hist₁]; exact .prepare _, fun r₄ db₄ h₄ => ?_⟩
      cases r₄ with
      | error e => trivial
      | ok b₄ => cases r₃ <;> trivial

theorem fitting_commit (self : SurrogateXactController)
    (h : db.history self.xactId.toString = [.prepared true]) :
    (commitSql self ()).Wp (Db.Executes may) (Fitting self.xactId (.commit self.xactId))
      (fun _ _ => True) db := by
  unfold commitSql
  rw [Async.wp_bind, Async.wp_ask]
  refine ⟨.connect _ _, fun r₁ db₁ h₁ => ?_⟩
  have hist₁ : db₁.history self.xactId.toString = [.prepared true] := by
    rw [Db.executes_connect h₁, h]
  cases r₁ with
  | error e => trivial
  | ok b₁ =>
    show Prog.Wp _ _ _ _ _
    rw [Async.wp_bind, wp_query_of]
    refine ⟨by unfold Fitting; rw [hist₁]; exact .commit, fun r₂ db₂ h₂ => ?_⟩
    cases r₂ <;> trivial

theorem fitting_rollback (self : SurrogateXactController) (info : RollbackInfo)
    (h : db.history self.xactId.toString = [] ∨
      ∃ worked, db.history self.xactId.toString = [.prepared worked]) :
    (rollbackSql self ()).Wp (Db.Executes may) (Fitting self.xactId (.rollback self.xactId info))
      (fun _ _ => True) db := by
  unfold rollbackSql
  rw [Async.wp_bind, Async.wp_ask]
  refine ⟨.connect _ _, fun r₁ db₁ h₁ => ?_⟩
  have hist₁ := Db.executes_connect h₁
  cases r₁ with
  | error e => trivial
  | ok b₁ =>
    show Prog.Wp _ _ _ _ _
    rw [Async.wp_bind, wp_query_of]
    refine ⟨.lookup _ _, fun r₂ db₂ h₂ => ?_⟩
    obtain ⟨hist₂, hrow⟩ := Db.executes_lookup h₂
    cases r₂ with
    | error e => trivial
    | ok b₂ =>
      have hb := hrow b₂ rfl
      show Prog.Wp _ _ _ _ _
      rcases h with h | ⟨worked, h⟩
      · rw [Db.prepared_of_nil (by rw [hist₁, h])] at hb
        obtain rfl : b₂ = false := hb
        trivial
      · have hnow : db₁.history self.xactId.toString = [] ++ [.prepared worked] := by
          rw [hist₁, h]
          rfl
        rw [Db.prepared_of_prepared hnow] at hb
        obtain rfl : b₂ = true := hb
        show Prog.Wp _ _ _ ((query (.rollbackPrepared _) _ >>= fun _ => pure ()) ()) _
        rw [Async.wp_bind, wp_query_of]
        refine ⟨by unfold Fitting; rw [hist₂, hnow]; exact .rollback _ _, fun r₃ db₃ h₃ => ?_⟩
        cases r₃ <;> trivial

end SurrogateXactController

/-! ## What a node has asked for, and what has happened -/

/-- What has happened to the transaction was asked for in the log. -/
structure Shown (id : XactId) (sql : XactLog) (history : List GidEvent) : Prop where
  untouched : sql = [] → history = []
  form : history = [] ∨ ∃ worked, history = [.prepared worked] ∨
    history = [.prepared worked, .committed] ∨ history = [.prepared worked, .rolledBack]
  committed : .committed ∈ history → .call (.commit id) ∈ sql
  rolledBack : .rolledBack ∈ history → ∃ info, .call (.rollback id info) ∈ sql
  /-- An execution that has succeeded has prepared the transaction. -/
  worked : ∀ data, .ret (.execute id data) (.ok ()) ∈ sql → [.prepared true] <+: history

namespace Shown

theorem nil : Shown id [] [] where
  untouched := fun _ => rfl
  form := Or.inl rfl
  committed := fun h => absurd h List.not_mem_nil
  rolledBack := fun h => absurd h List.not_mem_nil
  worked := fun _ h => absurd h List.not_mem_nil

/-- One more call. -/
theorem call (h : Shown id sql history) (e : Effect) : Shown id (sql ++ [.call e]) history where
  untouched := fun hnil => absurd hnil (by simp)
  form := h.form
  committed := fun hc => List.mem_append_left _ (h.committed hc)
  rolledBack := fun hr => by
    obtain ⟨info, hinfo⟩ := h.rolledBack hr
    exact ⟨info, List.mem_append_left _ hinfo⟩
  worked := fun data hw => h.worked data (by simpa using hw)

/-- One more answer. -/
theorem ret (h : Shown id sql history) {e : Effect} {r : Answer}
    (hworked : ∀ data, e = .execute id data → r = .ok () → [.prepared true] <+: history) :
    Shown id (sql ++ [.ret e r]) history where
  untouched := fun hnil => absurd hnil (by simp)
  form := h.form
  committed := fun hc => List.mem_append_left _ (h.committed hc)
  rolledBack := fun hr => by
    obtain ⟨info, hinfo⟩ := h.rolledBack hr
    exact ⟨info, List.mem_append_left _ hinfo⟩
  worked := by
    intro data hw
    rw [List.mem_append, List.mem_singleton] at hw
    rcases hw with hw | hw
    · exact h.worked data hw
    · obtain ⟨rfl, rfl⟩ := Event.ret.inj hw
      exact hworked data rfl rfl

/-- Nothing was closed while nothing was asked to close it. -/
theorem of_unclosed (h : Shown id sql history) (hc : .call (.commit id) ∉ sql)
    (hr : ∀ info, .call (.rollback id info) ∉ sql) :
    history = [] ∨ ∃ worked, history = [.prepared worked] := by
  rcases h.form with hnil | ⟨worked, hp | hcommitted | hrolled⟩
  · exact Or.inl hnil
  · exact Or.inr ⟨worked, hp⟩
  · exact absurd (h.committed (by rw [hcommitted]; simp)) hc
  · obtain ⟨info, hinfo⟩ := h.rolledBack (by rw [hrolled]; simp)
    exact absurd hinfo (hr info)

/-- The statements of the next call fit. -/
theorem fitting (h : Shown id sql history) {e : Effect} (hshape : SqlShape id (sql ++ [.call e]))
    {db : Db String} (hdb : db.history id.toString = history) {prog : SqlTask}
    (hprog : e.sql = some prog) :
    prog.Wp (Db.Executes may) (Fitting id e) (fun _ _ => True) db := by
  rcases hshape.call_cases with ⟨data, rfl, rfl⟩ | ⟨data, r, rfl, hc⟩
  · obtain rfl := Option.some.inj hprog
    exact SurrogateXactController.fitting_execute ⟨id, data⟩ (hdb.trans (h.untouched rfl))
  · have hopen := h.of_unclosed (by simp) (by simp)
    rw [← hdb] at hopen
    rcases hc with ⟨rfl, rfl⟩ | ⟨info, rfl⟩
    · obtain rfl := Option.some.inj hprog
      refine SurrogateXactController.fitting_commit ⟨id, []⟩ ?_
      have hworked := h.worked data (by simp)
      rw [← hdb] at hworked
      rcases hopen with hnil | ⟨worked, hp⟩
      · rw [hnil] at hworked
        exact absurd hworked (by simp)
      · rw [hp] at hworked
        obtain rfl : true = worked := by simpa using hworked
        exact hp
    · obtain rfl := Option.some.inj hprog
      exact SurrogateXactController.fitting_rollback ⟨id, []⟩ info hopen

/-- A statement that fits keeps the history in form. -/
theorem statement {e : Effect} (h : Shown id (sql ++ [.call e]) history)
    (hshape : SqlShape id (sql ++ [.call e])) {stmt : Sql} (hfits : Fits id e stmt history)
    {ev : GidEvent} (hrec : stmt.Records id.toString ev) :
    Shown id (sql ++ [.call e]) (history ++ [ev]) := by
  have hgrows : ∀ data, .ret (.execute id data) (.ok ()) ∈ sql ++ [.call e] →
      [.prepared true] <+: history ++ [ev] :=
    fun data hw => (h.worked data hw).trans (List.prefix_append _ _)
  cases hfits with
  | connect | begin | work | lookup => exact hrec.elim
  | prepare data =>
    obtain ⟨worked, rfl⟩ : ∃ worked, ev = .prepared worked := by
      cases ev with
      | prepared worked => exact ⟨worked, rfl⟩
      | _ => exact hrec.elim
    exact ⟨fun hnil => absurd hnil (by simp), Or.inr ⟨worked, Or.inl rfl⟩,
      fun hc => absurd hc (by simp), fun hr => absurd hr (by simp), hgrows⟩
  | commit =>
    obtain rfl : ev = .committed := by
      cases ev with
      | committed => rfl
      | _ => exact hrec.elim
    exact ⟨fun hnil => absurd hnil (by simp), Or.inr ⟨true, Or.inr (Or.inl rfl)⟩,
      fun _ => by simp, fun hr => absurd hr (by simp), hgrows⟩
  | rollback info worked =>
    obtain rfl : ev = .rolledBack := by
      cases ev with
      | rolledBack => rfl
      | _ => exact hrec.elim
    exact ⟨fun hnil => absurd hnil (by simp), Or.inr ⟨worked, Or.inr (Or.inr rfl)⟩,
      fun hc => absurd hc (by simp), fun _ => ⟨info, by simp⟩, hgrows⟩

end Shown

/-! ## A state manager in front of PostgreSQL -/

namespace Site

variable {s s' : Site} {a : Act}

/-- What is true of a surrogate in front of PostgreSQL, statement by statement. -/
structure Traced (id : XactId) (n : NodeId) (s : Site) : Prop where
  settled : Settled id n (fun _ _ => True) (Left id) s
  fitting : ∀ prog, s.sql = some prog → ∃ st e k, s.proc.task = .busy st e k ∧
    prog.Wp (Db.Executes fun _ _ => True) (Fitting id e) (fun _ _ => True) s.db
  shown : Shown id (sqlLog s.proc.log) (s.db.history id.toString)

namespace Traced

theorem start {db₀ : Db String} (h : db₀.history id.toString = []) :
    Traced id n (Site.start id n db₀) where
  settled := settled_start h
  fitting := fun prog hprog => absurd hprog (by simp [Site.start])
  shown := by
    show Shown id [] (db₀.history id.toString)
    rw [h]
    exact .nil

/-- Nothing depends on the connection while no statement is left to send. -/
theorem reconnect {proc : XactProc} {db : Db String} {rest : Option SqlTask}
    (h : Traced id n ⟨proc, db, rest⟩) (hrest : ∀ prog, rest = some prog → ∃ a, prog = .done a)
    (txn : Txn) : Traced id n ⟨proc, ⟨txn, db.history⟩, rest⟩ where
  settled := by
    refine ⟨h.settled.reach, ⟨h.settled.agrees.untouched, fun l e r hl => ?_⟩, h.settled.begun,
      fun prog hprog => ?_⟩
    · have hleft := h.settled.agrees.answered l e r hl
      cases e <;> exact hleft
    · obtain ⟨st, e, k, ht, hwp⟩ := h.settled.sending prog hprog
      obtain ⟨a, rfl⟩ := hrest prog hprog
      have hleft : Left id e a.1 db := hwp
      refine ⟨st, e, k, ht, ?_⟩
      show Left id e a.1 _
      cases e <;> exact hleft
  fitting := by
    intro prog hprog
    obtain ⟨st, e, k, ht, -⟩ := h.fitting prog hprog
    obtain ⟨a, rfl⟩ := hrest prog hprog
    exact ⟨st, e, k, ht, trivial⟩
  shown := h.shown

/-- A handler that goes on begins a call that fits, if what has happened was asked for. -/
theorem of_enter {q : Prog XactStateManager Effect Answer (Except Failure Bool × XactStateManager)}
    {inbox : List XsMessage} {log : XactLog} {db : Db String}
    (hset : Settled id n (fun _ _ => True) (Left id) (resume (Proc.enter q inbox log) db))
    (hshown : Shown id (sqlLog log) (db.history id.toString)) :
    Traced id n (resume (Proc.enter q inbox log) db) := by
  have hshape := (told_of_reach hset.reach).shape
  refine ⟨hset, fun prog hprog => ?_, ?_⟩
  · obtain ⟨st, e, k, ht, -⟩ := hset.sending prog hprog
    have he : e.sql = some prog := by
      unfold resume at hprog ht
      dsimp only at ht
      rw [ht] at hprog
      exact hprog
    refine ⟨st, e, k, ht, ?_⟩
    rcases Proc.enter_cases q inbox log with ⟨hbusy, -⟩ | ⟨st', e', k', ht', hlog⟩
    · have ht' : (Proc.enter q inbox log).task = .busy st e k := ht
      rw [ht'] at hbusy
      exact absurd hbusy (by simp [Task.isBusy])
    · obtain ⟨-, rfl, -⟩ := Task.busy.inj ((show (Proc.enter q inbox log).task = .busy st e k from
        ht).symm.trans ht')
      have hsql : sqlLog (Proc.enter q inbox log).log = sqlLog log ++ [.call e] := by
        rw [hlog, sqlLog_append, sqlLog_call (by rw [he]; rfl)]
      exact hshown.fitting (hsql ▸ hshape) rfl he
  · show Shown id (sqlLog (Proc.enter q inbox log).log) (db.history id.toString)
    rcases Proc.enter_log q inbox log with hlog | ⟨e, hlog⟩
    · rw [hlog]
      exact hshown
    · rw [hlog, sqlLog_append]
      cases he : e.sql with
      | none =>
        rw [sqlLog_call_other he, List.append_nil]
        exact hshown
      | some prog =>
        rw [sqlLog_call (by rw [he]; rfl)]
        exact hshown.call e

/-- One step. -/
theorem step (h : Traced id n s) (ha : a.AtSurrogate n (fun _ _ => True) s)
    (hs : s.step a = some s') : Traced id n s' := by
  have hset := h.settled.step settles_left ha hs
  cases a with
  | post m =>
    obtain rfl := Option.some.inj hs
    refine ⟨hset, fun prog hprog => ?_, ?_⟩
    · obtain ⟨st, e, k, ht, hwp⟩ := h.fitting prog hprog
      exact ⟨st, e, k, (Proc.post_task m s.proc).trans ht, hwp⟩
    · show Shown id (sqlLog (s.proc.post m).log) _
      rw [Proc.post_log]
      exact h.shown
  | take =>
    obtain ⟨proc, htake, rfl⟩ := Option.map_eq_some_iff.mp hs
    obtain ⟨st, m, rest, -, -, rfl⟩ := Proc.take_cases htake
    refine of_enter hset ?_
    rw [sqlLog_append, sqlLog_recv, List.append_nil]
    exact h.shown
  | statement o =>
    simp only [Site.step] at hs
    cases hsql : s.sql with
    | none =>
      rw [hsql] at hs
      exact absurd hs (by simp)
    | some prog =>
      obtain ⟨st, e, k, ht, hwp⟩ := h.fitting prog hsql
      cases prog with
      | done a =>
        rw [hsql] at hs
        exact absurd hs (by simp)
      | await u stmt next =>
        rw [hsql] at hs
        obtain ⟨⟨r, db'⟩, hexec, rfl⟩ := Option.map_eq_some_iff.mp hs
        refine ⟨hset, fun prog hprog => ⟨st, e, k, ht, ?_⟩, ?_⟩
        · obtain rfl := Option.some.inj hprog
          exact hwp.2 r db' ⟨o, trivial, hexec⟩
        · have hfits : Fits id e stmt (s.db.history id.toString) := hwp.1
          obtain ⟨l, hl⟩ := h.settled.reach.awaiting_last ht
          have he : e.sql ≠ none := by
            intro he
            have hnone := (h.settled.begun st e k ht).mpr he
            rw [hsql] at hnone
            exact absurd hnone (by simp)
          have hlog : sqlLog s.proc.log = sqlLog l ++ [.call e] := by
            rw [hl, sqlLog_append, sqlLog_call (Option.isSome_iff_ne_none.mpr he)]
          show Shown id (sqlLog s.proc.log) (db'.history id.toString)
          rcases Db.exec_own hfits.about hexec with heq | ⟨ev, hev, heq⟩
          · rw [heq]
            exact h.shown
          · have hshape := (told_of_reach h.settled.reach).shape
            have hshown := h.shown
            rw [hlog] at hshape hshown ⊢
            rw [heq]
            exact hshown.statement hshape hfits hev
  | finish =>
    simp only [Site.step] at hs
    cases hsql : s.sql with
    | none =>
      rw [hsql] at hs
      exact absurd hs (by simp)
    | some prog =>
      obtain ⟨st, e, k, ht, hwp⟩ := h.settled.sending prog hsql
      cases prog with
      | await u stmt next =>
        rw [hsql] at hs
        exact absurd hs (by simp)
      | done a =>
        rw [hsql] at hs
        obtain ⟨proc, hanswer, rfl⟩ := Option.map_eq_some_iff.mp hs
        obtain ⟨st', e', k', ht', rfl⟩ := Proc.answer_cases hanswer
        obtain ⟨-, rfl, -⟩ := Task.busy.inj (ht.symm.trans ht')
        have hleft : Left id e a.1 s.db := hwp
        refine of_enter hset ?_
        rw [sqlLog_append]
        cases he : e.sql with
        | none =>
          rw [sqlLog_ret_other he, List.append_nil]
          exact h.shown
        | some prog =>
          rw [sqlLog_ret (by rw [he]; rfl)]
          refine h.shown.ret fun data hdata hr => ?_
          rw [hdata, hr] at hleft
          have hhistory : s.db.history id.toString = [.prepared true] := hleft
          rw [hhistory]
  | answer r =>
    simp only [Site.step] at hs
    cases hsql : s.sql with
    | some prog =>
      rw [hsql] at hs
      exact absurd hs (by simp)
    | none =>
      rw [hsql] at hs
      obtain ⟨proc, hanswer, rfl⟩ := Option.map_eq_some_iff.mp hs
      obtain ⟨st, e, k, ht, rfl⟩ := Proc.answer_cases hanswer
      have he := (h.settled.begun st e k ht).mp hsql
      refine of_enter hset ?_
      rw [sqlLog_append, sqlLog_ret_other he, List.append_nil]
      exact h.shown
  | stop =>
    obtain ⟨proc, hcancel, rfl⟩ := Option.map_eq_some_iff.mp hs
    obtain ⟨st, -, -, rfl⟩ := Proc.cancel_cases hcancel
    exact ⟨hset, fun prog hprog => absurd hprog (by simp), h.shown⟩

end Traced

end Site

/-! ## Who asks PostgreSQL -/

/-- Only a transaction that was prepared by another node is carried out in PostgreSQL, and under its
own identifier. -/
theorem Stage.sql_cases {pt : Point} {status : XactStatus} {log : XactLog}
    (h : Stage id n pt status log) {e : Effect} (he : .call e ∈ log) (hsql : e.sql ≠ none) :
    (∃ msg, .recv (.prepare msg) ∈ log) ∧
      ((∃ data, e = .execute id data) ∨ e = .commit id ∨ ∃ info, e = .rollback id info) := by
  have hcall := mem_calls.mpr he
  induction h with
  | unknown early => exact absurd he call_not_mem_taken
  | refused early m hm why hwhy => exact absurd he (by simp)
  | decided early data tx P hP vs hvs hd f => exact absurd he (by simp)
  | executing early msg P hP hn hfrom =>
    refine ⟨⟨msg, by simp⟩, Or.inl ⟨msg.data, ?_⟩⟩
    simpa using he
  | overrun early msg P hP hn hfrom r ho f =>
    refine ⟨⟨msg, by simp⟩, Or.inl ⟨msg.data, ?_⟩⟩
    simpa [Opening.executed] using he
  | session S htail =>
    obtain ⟨late, closing, hseen⟩ := htail.seen
    rw [hseen.effects, List.mem_append, List.mem_append, List.mem_singleton] at hcall
    have hmessage : .recv S.opening.message ∈ S.opened id := by simp [Session.opened]
    have hmem := hseen.begins.subset hmessage
    cases ho : S.opening with
    | coordinator data tx =>
      rw [ho] at hcall
      rcases hcall with (hcall | rfl) | hcall
      · exact absurd hcall List.not_mem_nil
      · exact absurd rfl hsql
      · rcases hseen.ends with rfl | ⟨e', he', rfl⟩
        · exact absurd hcall List.not_mem_nil
        · obtain rfl := List.mem_singleton.mp hcall
          rw [ho] at he'
          cases hd : S.decision late <;> rw [hd] at he' <;>
            simp [Opening.closing, XactState.closing] at he' <;> subst he' <;>
            exact absurd rfl hsql
    | surrogate msg r =>
      rw [ho] at hcall hmem
      refine ⟨⟨msg, hmem⟩, ?_⟩
      rcases hcall with (hcall | rfl) | hcall
      · exact Or.inl ⟨msg.data, by simpa [Opening.executed] using hcall⟩
      · exact absurd rfl hsql
      · rcases hseen.ends with rfl | ⟨e', he', rfl⟩
        · exact absurd hcall List.not_mem_nil
        · obtain rfl := List.mem_singleton.mp hcall
          obtain ⟨hc, -⟩ := Session.closes_of_closing ho he'
          rcases hc with ⟨rfl, -⟩ | ⟨info, rfl⟩
          · exact Or.inr (Or.inl rfl)
          · exact Or.inr (Or.inr ⟨info, rfl⟩)
  | stopped hpt h ih => exact ih he hcall

end Sunstorm
