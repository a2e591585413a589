import Sunstorm.Xactserver.Proofs.SessionProofs
import Sunstorm.Xactserver.Proofs.SqlProofs

/-!
# Proofs: the prepared transaction of a surrogate

A surrogate asks PostgreSQL to execute the transaction at most once, and after that to commit or to
roll it back at most once. What the log says of these calls tells what has happened to the prepared
transaction, whatever became of the statements.
-/

namespace Sunstorm

open Await Postgres Tally

variable {id : XactId} {n : NodeId} {pt : Point} {status : XactStatus} {log : XactLog}

/-! ## The calls on PostgreSQL -/

/-- Whether the event is a call on PostgreSQL or its answer. -/
def onPostgres : Event XsMessage Effect Answer → Bool
  | .recv _ => false
  | .call e => e.sql.isSome
  | .ret e _ => e.sql.isSome

/-- The calls on PostgreSQL and their answers. -/
def sqlLog (log : XactLog) : XactLog := log.filter onPostgres

@[simp] theorem sqlLog_append (log log' : XactLog) :
    sqlLog (log ++ log') = sqlLog log ++ sqlLog log' := List.filter_append _ _

@[simp] theorem sqlLog_taken (votes : List VoteMessage) : sqlLog (taken votes) = [] := by
  unfold sqlLog taken
  rw [List.filter_eq_nil_iff]
  intro ev hev
  obtain ⟨v, -, rfl⟩ := List.mem_map.mp hev
  simp [onPostgres]

@[simp] theorem sqlLog_recv (m : XsMessage) : sqlLog [.recv m] = [] := rfl

theorem sqlLog_call {e : Effect} (he : e.sql.isSome = true) : sqlLog [.call e] = [.call e] :=
  List.filter_cons_of_pos he

theorem sqlLog_ret {e : Effect} (he : e.sql.isSome = true) (r : Answer) :
    sqlLog [.ret e r] = [.ret e r] := List.filter_cons_of_pos he

theorem sqlLog_call_other {e : Effect} (he : e.sql = none) : sqlLog [.call e] = [] :=
  List.filter_cons_of_neg (by simp [onPostgres, he])

theorem sqlLog_ret_other {e : Effect} (he : e.sql = none) (r : Answer) : sqlLog [.ret e r] = [] :=
  List.filter_cons_of_neg (by simp [onPostgres, he])

/-- `c` ends the transaction whose execution returned `r`: nothing but a success is committed. -/
def Closes (id : XactId) (r : Answer) (c : Effect) : Prop :=
  (c = .commit id ∧ r = .ok ()) ∨ ∃ info, c = .rollback id info

theorem Closes.isSome {r : Answer} {c : Effect} (h : Closes id r c) : c.sql.isSome = true := by
  rcases h with ⟨rfl, -⟩ | ⟨info, rfl⟩ <;> rfl

/-- What a surrogate asks of PostgreSQL, up to some point. -/
inductive SqlShape (id : XactId) : XactLog → Prop where
  | untouched : SqlShape id []
  | executing (data : Bytes) : SqlShape id [.call (.execute id data)]
  | executed (data : Bytes) (r : Answer) :
    SqlShape id [.call (.execute id data), .ret (.execute id data) r]
  | closing (data : Bytes) (r : Answer) (c : Effect) (hc : Closes id r c) :
    SqlShape id [.call (.execute id data), .ret (.execute id data) r, .call c]
  | closed (data : Bytes) (r : Answer) (c : Effect) (hc : Closes id r c) (r' : Answer) :
    SqlShape id [.call (.execute id data), .ret (.execute id data) r, .call c, .ret c r']

/-- A call on PostgreSQL is an execution and the first of all, or it closes what was executed. -/
theorem SqlShape.call_cases {rest : XactLog} {e : Effect} (h : SqlShape id (rest ++ [.call e])) :
    (∃ data, rest = [] ∧ e = .execute id data) ∨
      ∃ data r, rest = [.call (.execute id data), .ret (.execute id data) r] ∧ Closes id r e := by
  have hlast : ∀ (l : XactLog) (ev : Event XsMessage Effect Answer), rest ++ [.call e] = l ++ [ev] →
      rest = l ∧ .call e = ev := by
    intro l ev heq
    obtain ⟨hrest, hev⟩ := List.append_inj' heq rfl
    exact ⟨hrest, List.singleton_inj.mp hev⟩
  generalize hfull : rest ++ [.call e] = full at h
  cases h with
  | untouched => exact absurd hfull (by simp)
  | executing data =>
    obtain ⟨hrest, he⟩ := hlast [] _ hfull
    exact Or.inl ⟨data, hrest, Event.call.inj he⟩
  | executed data r => exact absurd (hlast [_] _ hfull).2 (by simp)
  | closing data r c hc =>
    obtain ⟨hrest, he⟩ := hlast [_, _] _ hfull
    obtain rfl := Event.call.inj he
    exact Or.inr ⟨data, r, hrest, hc⟩
  | closed data r c hc r' => exact absurd (hlast [_, _, _] _ hfull).2 (by simp)

/-- The status is final only after the call that it tells of. -/
structure Told (id : XactId) (status : XactStatus) (sql : XactLog) : Prop where
  shape : SqlShape id sql
  committed : status = .committed → .ret (.commit id) (.ok ()) ∈ sql
  rolledBack : ∀ info, status = .rollbacked info → .ret (.rollback id info) (.ok ()) ∈ sql

theorem Told.of_open {sql : XactLog} (h : SqlShape id sql) (hc : status ≠ .committed)
    (hr : ∀ info, status ≠ .rollbacked info) : Told id status sql :=
  ⟨h, fun hs => absurd hs hc, fun info hs => absurd hs (hr info)⟩

theorem ofDecision_ne_committed (d : Decision Nat RollbackReason) :
    XactStatus.ofDecision d ≠ .committed := by cases d <;> simp [XactStatus.ofDecision]

theorem ofDecision_ne_rollbacked (d : Decision Nat RollbackReason) (info : RollbackInfo) :
    XactStatus.ofDecision d ≠ .rollbacked info := by cases d <;> simp [XactStatus.ofDecision]

namespace Session

variable {S : Session n}

theorem sqlLog_opened {msg : PrepareMessage} {r : Answer} (ho : S.opening = .surrogate msg r) :
    sqlLog (S.opened id) = [.call (.execute id msg.data), .ret (.execute id msg.data) r] := by
  have hbroadcast : sqlLog [.call (S.broadcast id)] = [] := sqlLog_call_other rfl
  unfold opened
  rw [ho]
  simp only [sqlLog_append, sqlLog_taken, sqlLog_recv, hbroadcast, List.nil_append, List.append_nil]
  rfl

theorem sqlLog_voting {msg : PrepareMessage} {r : Answer} (ho : S.opening = .surrogate msg r)
    (late : List VoteMessage) :
    sqlLog (S.voting id late) = [.call (.execute id msg.data), .ret (.execute id msg.data) r] := by
  have hret : sqlLog [.ret (S.broadcast id) (.ok ())] = [] := sqlLog_ret_other rfl _
  unfold voting
  simp only [sqlLog_append, sqlLog_opened ho, sqlLog_taken, hret, List.append_nil]

/-- The call that carries the decision of a surrogate out. -/
theorem closes_of_closing {msg : PrepareMessage} {r : Answer} (ho : S.opening = .surrogate msg r)
    {late : List VoteMessage} {e : Effect} (he : S.opening.closing id (S.decision late) = some e) :
    Closes id r e ∧ (XactStatus.finalOf (S.decision late) = .committed → e = .commit id) ∧
      ∀ info, XactStatus.finalOf (S.decision late) = .rollbacked info → e = .rollback id info := by
  have hfailed : ∀ x, r = .error x → S.decision late = .rollback n.toUsize (.ofError x) := by
    rintro x rfl
    exact S.decision_failed ho late
  rw [ho] at he
  cases hd : S.decision late with
  | waiting =>
    rw [hd] at he
    exact absurd he (by simp [Opening.closing, XactState.closing])
  | commit =>
    rw [hd] at he hfailed
    obtain rfl : .commit id = e := Option.some.inj he
    refine ⟨Or.inl ⟨rfl, ?_⟩, fun _ => rfl, fun info hs => absurd hs (by simp [XactStatus.finalOf])⟩
    cases r with
    | ok u => rfl
    | error x => exact absurd (hfailed x rfl) (by simp)
  | rollback i reason =>
    rw [hd] at he
    obtain rfl : .rollback id ⟨NodeId.ofUsize i, reason⟩ = e := Option.some.inj he
    refine ⟨Or.inr ⟨_, rfl⟩, fun hs => absurd hs (by simp [XactStatus.finalOf]), fun info hs => ?_⟩
    rw [XactStatus.rollbacked.inj hs]

/-- The message that opened the ballot was taken. -/
theorem Tail.message_mem {o : Opening} (ho : S.opening = o) (h : S.Tail id pt status log) :
    .recv o.message ∈ log := by
  obtain ⟨late, closing, hseen⟩ := h.seen
  rw [← ho]
  exact hseen.begins.subset (by simp [Session.opened])

/-- The calls on PostgreSQL of a surrogate that has announced its ballot. -/
theorem Tail.told {msg : PrepareMessage} {r : Answer} (ho : S.opening = .surrogate msg r)
    (h : S.Tail id pt status log) : Told id status (sqlLog log) := by
  have hclosed : ∀ {late : List VoteMessage} {e : Effect},
      S.opening.closing id (S.decision late) = some e →
      Told id (.finalOf (S.decision late))
        (sqlLog (S.voting id late ++ [.call e] ++ [.ret e (.ok ())])) := by
    intro late e he
    obtain ⟨hc, hcommit, hrollback⟩ := closes_of_closing ho he
    rw [sqlLog_append, sqlLog_append, sqlLog_voting ho, sqlLog_call hc.isSome,
      sqlLog_ret hc.isSome]
    refine ⟨.closed _ _ e hc _, fun hs => ?_, fun info hs => ?_⟩
    · rw [hcommit hs]; simp
    · rw [hrollback info hs]; simp
  cases h with
  | announcing =>
    rw [sqlLog_opened ho]
    exact .of_open (.executed _ _) (ofDecision_ne_committed _) (ofDecision_ne_rollbacked _)
  | unannounced e f =>
    have hret : sqlLog [.ret (S.broadcast id) (.error e)] = [] := sqlLog_ret_other rfl _
    rw [sqlLog_append, sqlLog_opened ho, hret]
    exact .of_open (.executed _ _) (ofDecision_ne_committed _) (ofDecision_ne_rollbacked _)
  | voting late hd =>
    rw [sqlLog_voting ho]
    exact .of_open (.executed _ _) (by simp) (by simp)
  | reopened late hd m hm status hs why hwhy =>
    rw [sqlLog_append, sqlLog_voting ho, sqlLog_recv]
    rcases hs with rfl | rfl <;> exact .of_open (.executed _ _) (by simp) (by simp)
  | closing late e he =>
    obtain ⟨hc, -⟩ := closes_of_closing ho he
    rw [sqlLog_append, sqlLog_voting ho, sqlLog_call hc.isSome]
    exact .of_open (.closing _ _ e hc) (ofDecision_ne_committed _) (ofDecision_ne_rollbacked _)
  | unclosed late e he x f =>
    obtain ⟨hc, -⟩ := closes_of_closing ho he
    rw [sqlLog_append, sqlLog_append, sqlLog_voting ho, sqlLog_call hc.isSome,
      sqlLog_ret hc.isSome]
    exact .of_open (.closed _ _ e hc _) (ofDecision_ne_committed _) (ofDecision_ne_rollbacked _)
  | closed late e he => exact hclosed he
  | unlabelled late e he f f' hf => exact hclosed he

end Session

/-- The calls on PostgreSQL of a state manager that is handed no transaction of its own. -/
theorem Stage.told (h : Stage id n pt status log)
    (hsurrogate : ∀ data tx, .recv (.localXact data tx) ∉ log) : Told id status (sqlLog log) := by
  induction h with
  | unknown early =>
    rw [sqlLog_taken]
    exact .of_open .untouched (by simp) (by simp)
  | refused early m hm why hwhy =>
    rw [sqlLog_append, sqlLog_taken, sqlLog_recv]
    exact .of_open .untouched (by simp) (by simp)
  | decided early data tx P hP vs hvs hd f => exact absurd (by simp) (hsurrogate data tx)
  | executing early msg P hP hn hfrom =>
    rw [sqlLog_append, sqlLog_append, sqlLog_taken, sqlLog_recv, sqlLog_call rfl]
    exact .of_open (.executing _) (by simp) (by simp)
  | overrun early msg P hP hn hfrom r ho f =>
    have hsql : sqlLog ((Opening.surrogate msg r).executed id) =
      [.call (.execute id msg.data), .ret (.execute id msg.data) r] := rfl
    rw [sqlLog_append, sqlLog_append, sqlLog_taken, sqlLog_recv, hsql]
    exact .of_open (.executed _ _) (by simp) (by simp)
  | session S h =>
    cases ho : S.opening with
    | surrogate msg r => exact h.told ho
    | coordinator data tx => exact absurd (h.message_mem ho) (hsurrogate data tx)
  | stopped hpt h ih => exact ih hsurrogate

end Sunstorm
