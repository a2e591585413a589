import Sunstorm.Xactserver.Proofs.PreparedProofs

/-!
# Proofs: what a surrogate leaves prepared when it ends

A surrogate that ends on its own has closed what it prepared, except where its vote could not be
sent: then it drops the transaction and leaves it in PostgreSQL.
-/

namespace Sunstorm

open Await Postgres Tally

variable {id : XactId} {n : NodeId} {pt : Point} {status : XactStatus} {log : XactLog}
  {db₀ : Db String} {s : Site}

/-! ## Closing a prepared transaction -/

namespace SurrogateXactController

variable {self : SurrogateXactController} {db : Db String}

/-- `commit` leaves nothing prepared, if statements are reliable. -/
theorem wp_commit_reliable (self : SurrogateXactController)
    (h : db.history self.xactId.toString = [.prepared true]) :
    (commitSql self ()).Wp (Db.Executes (Db.Reliable self.xactId.toString)) (Guarded self.xactId)
      (fun _ db' => db'.prepared self.xactId.toString = none) db := by
  have hnow : db.history self.xactId.toString = [] ++ [.prepared true] := h
  have hprepared := Db.prepared_of_prepared hnow
  unfold commitSql
  rw [Async.wp_bind, Async.wp_ask]
  refine ⟨fun gid hgid => absurd hgid (by simp), fun r₁ db₁ h₁ => ?_⟩
  obtain ⟨b₁, rfl, heffect⟩ := Db.executes_reliable h₁ (by rw [hprepared]; simp)
  obtain ⟨-, rfl⟩ := Prod.mk.inj (Option.some.inj heffect)
  show Prog.Wp _ _ _ _ _
  rw [Async.wp_bind, wp_query]
  refine ⟨fun gid hgid => ?_, fun r₂ db₂ h₂ => ?_⟩
  · obtain rfl := Stmt.commitPrepared.inj hgid
    exact ⟨rfl, hprepared⟩
  · obtain ⟨b₂, rfl, -⟩ := Db.executes_reliable h₂ (by rw [hprepared]; simp)
    exact Db.prepared_of_closed (Db.executes_commitPrepared h₂ rfl) (by simp)

/-- `rollback` leaves nothing prepared, if statements are reliable. -/
theorem wp_rollback_reliable (self : SurrogateXactController)
    (h : db.history self.xactId.toString = [] ∨
      ∃ worked, db.history self.xactId.toString = [.prepared worked]) :
    (rollbackSql self ()).Wp (Db.Executes (Db.Reliable self.xactId.toString)) (Guarded self.xactId)
      (fun _ db' => db'.prepared self.xactId.toString = none) db := by
  unfold rollbackSql
  rw [Async.wp_bind, Async.wp_ask]
  refine ⟨fun gid hgid => absurd hgid (by simp), fun r₁ db₁ h₁ => ?_⟩
  have hist₁ := Db.executes_connect h₁
  rcases h with h | ⟨worked, h⟩
  · -- nothing was prepared, so nothing can be left
    have hempty₁ : db₁.history self.xactId.toString = [] := by rw [hist₁, h]
    cases r₁ with
    | error e => exact Db.prepared_of_nil hempty₁
    | ok b₁ =>
      show Prog.Wp _ _ _ _ _
      rw [Async.wp_bind, wp_query]
      refine ⟨fun gid hgid => absurd hgid (by simp), fun r₂ db₂ h₂ => ?_⟩
      obtain ⟨hist₂, hrow⟩ := Db.executes_lookup h₂
      have hempty₂ : db₂.history self.xactId.toString = [] := by rw [hist₂, hempty₁]
      cases r₂ with
      | error e => exact Db.prepared_of_nil hempty₂
      | ok b₂ =>
        have hb := hrow b₂ rfl
        rw [Db.prepared_of_nil hempty₁] at hb
        obtain rfl : b₂ = false := hb
        exact Db.prepared_of_nil hempty₂
  · have hnow : db.history self.xactId.toString = [] ++ [.prepared worked] := h
    have hprepared := Db.prepared_of_prepared hnow
    have hreliable : db.prepared self.xactId.toString ≠ none := by rw [hprepared]; simp
    obtain ⟨b₁, rfl, heffect₁⟩ := Db.executes_reliable h₁ hreliable
    obtain ⟨-, rfl⟩ := Prod.mk.inj (Option.some.inj heffect₁)
    show Prog.Wp _ _ _ _ _
    rw [Async.wp_bind, wp_query]
    refine ⟨fun gid hgid => absurd hgid (by simp), fun r₂ db₂ h₂ => ?_⟩
    obtain ⟨b₂, rfl, heffect₂⟩ := Db.executes_reliable h₂ hreliable
    obtain ⟨hb, rfl⟩ := Prod.mk.inj (Option.some.inj heffect₂)
    rw [hprepared] at hb
    obtain rfl : true = b₂ := hb
    show Prog.Wp _ _ _ ((query (.rollbackPrepared _) _ >>= fun _ => pure ()) ()) _
    rw [Async.wp_bind, wp_query]
    refine ⟨fun gid hgid => absurd hgid (by simp), fun r₃ db₃ h₃ => ?_⟩
    obtain ⟨b₃, rfl, -⟩ := Db.executes_reliable h₃ hreliable
    exact Db.prepared_of_closed (Db.executes_rollbackPrepared h₃ rfl) (by simp)

end SurrogateXactController

/-- What the calls of a surrogate leave behind, if statements are reliable. -/
def Resolved (id : XactId) : Effect → Answer → Db String → Prop
  | .execute _ _, r, db => Executed r (db.history id.toString)
  | _, _, db => db.prepared id.toString = none

theorem settles_resolved : Settles id (Db.Reliable id.toString) (Resolved id) :=
  .of_wp (fun _ => rfl) (fun _ h => SurrogateXactController.wp_commit_reliable ⟨id, []⟩ h)
    fun _ _ h => SurrogateXactController.wp_rollback_reliable ⟨id, []⟩ h

/-! ## The ends of a surrogate -/

/-- A broadcast of the vote failed. -/
def VoteUnsent (log : XactLog) : Prop :=
  ∃ messages e, .ret (.sendToAll messages) (.error e) ∈ log

/-- The ballot was to be opened twice. -/
def OpenedTwice (log : XactLog) : Prop := 2 ≤ (recvs log).countP XsMessage.opens

/-- The votes that came before the `Prepare` go on after the ballot is carried. -/
def Overran (id : XactId) (n : NodeId) (log : XactLog) : Prop :=
  ∃ early msg P r, log = taken early ++ [.recv (.prepare msg)] ++ (Opening.surrogate msg r).executed id ∧
    RWSet.participantsIn msg.data = some P ∧
    Overrun P ((Opening.surrogate msg r).votes n) (early.map VoteMessage.cast)

theorem Overran.calls (h : Overran id n log) : (calls log).length = 1 := by
  obtain ⟨early, msg, P, r, rfl, -, -⟩ := h
  simp [Opening.executed]

/-- How a surrogate ends on its own, as its log tells. -/
inductive SurrogateEnd (id : XactId) (n : NodeId) (log : XactLog) : Prop where
  /-- Nothing was asked of PostgreSQL. -/
  | untouched (h : sqlLog log = [])
  /-- The transaction was closed, or tried to be. -/
  | closed (c : Effect) (r : Answer) (hc : c.isExecute = false) (h : .ret c r ∈ sqlLog log)
  | unsent (h : VoteUnsent log)
  | openedTwice (h : OpenedTwice log)
  | overran (h : Overran id n log)

theorem Closes.not_execute {r : Answer} {c : Effect} (h : Closes id r c) : c.isExecute = false := by
  rcases h with ⟨rfl, -⟩ | ⟨info, rfl⟩ <;> rfl

/-- The end of a surrogate that has announced its ballot. -/
theorem Session.Tail.ended {S : Session n} {msg : PrepareMessage} {r : Answer}
    (ho : S.opening = .surrogate msg r) {why : Halt Failure} (h : S.Tail id (.halted why) status log) :
    SurrogateEnd id n log := by
  have hclosed : ∀ {late : List VoteMessage} {c : Effect} {x : Answer} {log' : XactLog},
      S.opening.closing id (S.decision late) = some c → SurrogateEnd id n (log' ++ [.ret c x]) := by
    intro late c x log' he
    obtain ⟨hc, -⟩ := closes_of_closing ho he
    refine .closed c x hc.not_execute ?_
    rw [sqlLog_append, sqlLog_ret hc.isSome]
    exact List.mem_append_right _ List.mem_cons_self
  cases h with
  | unannounced e f => exact .unsent ⟨_, e, List.mem_append_right _ List.mem_cons_self⟩
  | reopened late hd m hm status hs why hwhy =>
    have hopening : S.opening.message ∈ recvs (S.voting id late) :=
      mem_recvs.mpr ((S.opened_prefix_voting late).subset (by simp [Session.opened]))
    have hopens : S.opening.message.opens = true := by rw [ho]; rfl
    have hpos : 0 < (recvs (S.voting id late)).countP XsMessage.opens :=
      List.countP_pos_iff.mpr ⟨_, hopening, hopens⟩
    refine .openedTwice ?_
    unfold OpenedTwice
    rw [recvs_append, List.countP_append, recvs_recv, List.countP_cons_of_pos hm]
    omega
  | unclosed late e he x f => exact hclosed he
  | closed late e he => exact hclosed he
  | unlabelled late e he f f' hf => exact hclosed he

/-- The end of a surrogate. -/
theorem Stage.ended {why : Halt Failure} (h : Stage id n (.halted why) status log)
    (hwhy : why ≠ .cancelled) (hsurrogate : ∀ data tx, .recv (.localXact data tx) ∉ log) :
    SurrogateEnd id n log := by
  cases h with
  | refused early m hm why hwhy =>
    refine .untouched ?_
    rw [sqlLog_append, sqlLog_taken, sqlLog_recv]
    rfl
  | decided early data tx P hP vs hvs hd f => exact absurd (by simp) (hsurrogate data tx)
  | overrun early msg P hP hn hfrom r ho f => exact .overran ⟨early, msg, P, r, rfl, hP, ho⟩
  | session S h =>
    cases ho : S.opening with
    | surrogate msg r => exact h.ended ho
    | coordinator data tx => exact absurd (h.message_mem ho) (hsurrogate data tx)
  | stopped hpt h => exact absurd rfl hwhy

/-- A surrogate whose vote could not be sent has ended, and has asked for the execution and for
nothing else. -/
theorem Session.Tail.unsent {S : Session n} {msg : PrepareMessage} {r : Answer}
    (ho : S.opening = .surrogate msg r) (h : S.Tail id pt status log) (hunsent : VoteUnsent log) :
    (∃ f, pt = .halted (.failed f)) ∧
      sqlLog log = [.call (.execute id msg.data), .ret (.execute id msg.data) r] := by
  obtain ⟨messages, e, hmem⟩ := hunsent
  have hopened : .ret (.sendToAll messages) (.error e) ∉ S.opened id := by
    simp [Session.opened, ho, Opening.executed]
  have hvoting : ∀ late, .ret (.sendToAll messages) (.error e) ∉ S.voting id late := by
    intro late
    simp [Session.voting, hopened]
  have hcloses : ∀ {late : List VoteMessage} {c : Effect},
      S.opening.closing id (S.decision late) = some c → c ≠ .sendToAll messages := by
    rintro late c hc rfl
    exact absurd (closes_of_closing ho hc).1.isSome (by simp [Effect.sql])
  cases h with
  | announcing => exact absurd hmem hopened
  | unannounced e' f =>
    have hret : sqlLog [.ret (S.broadcast id) (.error e')] = [] := sqlLog_ret_other rfl _
    rw [sqlLog_append, sqlLog_opened ho, hret]
    exact ⟨⟨f, rfl⟩, rfl⟩
  | voting late hd => exact absurd hmem (hvoting late)
  | reopened late hd m hm status hs why hwhy => exact absurd hmem (by simp [hvoting])
  | closing late c hc => exact absurd hmem (by simp [hvoting])
  | unclosed late c hc x f => exact absurd hmem (by simp [hvoting, (hcloses hc).symm])
  | closed late c hc => exact absurd hmem (by simp [hvoting])
  | unlabelled late c hc f f' hf => exact absurd hmem (by simp [hvoting])

theorem Stage.unsent (h : Stage id n pt status log)
    (hsurrogate : ∀ data tx, .recv (.localXact data tx) ∉ log) (hunsent : VoteUnsent log) :
    (∃ f, pt = .halted (.failed f)) ∧
      ∃ data r, sqlLog log = [.call (.execute id data), .ret (.execute id data) r] := by
  induction h with
  | unknown early =>
    obtain ⟨messages, e, hmem⟩ := hunsent
    exact absurd hmem (by simp)
  | refused early m hm why hwhy =>
    obtain ⟨messages, e, hmem⟩ := hunsent
    exact absurd hmem (by simp)
  | decided early data tx P hP vs hvs hd f => exact absurd (by simp) (hsurrogate data tx)
  | executing early msg P hP hn hfrom =>
    obtain ⟨messages, e, hmem⟩ := hunsent
    exact absurd hmem (by simp)
  | overrun early msg P hP hn hfrom r ho f =>
    obtain ⟨messages, e, hmem⟩ := hunsent
    exact absurd hmem (by simp [Opening.executed])
  | session S h =>
    cases ho : S.opening with
    | surrogate msg r =>
      obtain ⟨hended, hsql⟩ := h.unsent ho hunsent
      exact ⟨hended, msg.data, r, hsql⟩
    | coordinator data tx => exact absurd (h.message_mem ho) (hsurrogate data tx)
  | stopped hpt h ih =>
    obtain ⟨⟨f, rfl⟩, -⟩ := ih hsurrogate hunsent
    exact absurd rfl (hpt _)

theorem Point.failed_of_eq {task : Task XactStateManager Effect Answer Failure} {f : Failure}
    (h : Point.ofTask task = .halted (.failed f)) : ∃ st f, task = .halted st (.failed f) := by
  cases task with
  | halted st why =>
    obtain rfl := Point.halted.inj h
    exact ⟨st, f, rfl⟩
  | _ => exact absurd h (by simp [Point.ofTask])

/-- **What a surrogate leaves prepared.** When it ends on its own, with one opening message and no kept
vote behind a carried ballot, and its vote was sent to all, it leaves nothing prepared. When its vote
could not be sent, it has ended with that, and what it has executed stays prepared. -/
theorem abandoned_iff_unsent (h₀ : db₀.history id.toString = [])
    (hr : Machine.Reach Site.step (Site.Act.AtSurrogate n (Db.Reliable id.toString)) (Site.start id n db₀) s) :
    (∀ st why, s.proc.task = .halted st why → why ≠ .cancelled → ¬ OpenedTwice s.proc.log →
      ¬ Overran id n s.proc.log → ¬ VoteUnsent s.proc.log → s.db.prepared id.toString = none) ∧
    (VoteUnsent s.proc.log → (∃ st f, s.proc.task = .halted st (.failed f)) ∧
      ∀ data, .ret (.execute id data) (.ok ()) ∈ s.proc.log →
        s.db.prepared id.toString = some true) := by
  have h := Site.settled_of_reach settles_resolved h₀ hr
  have htold := Site.told_of_reach h.reach
  have hstage := Site.stage_of_reach_surrogate h.reach
  have hsurrogate : ∀ data tx, .recv (.localXact data tx) ∉ s.proc.log :=
    fun _ _ hmem => h.reach.taken hmem
  constructor
  · intro st why hhalt hwhy honce hkept hsent
    rw [hhalt] at hstage
    cases hstage.ended hwhy hsurrogate with
    | untouched hnil => exact Db.prepared_of_nil (h.agrees.untouched hnil)
    | closed c r hc hmem =>
      have hleft := h.agrees.closed htold.shape hmem hc
      cases c with
      | execute x data => exact absurd hc (by simp [Effect.isExecute])
      | _ => exact hleft
    | unsent hunsent => exact absurd hunsent hsent
    | openedTwice htwice => exact absurd htwice honce
    | overran hoverran => exact absurd hoverran hkept
  · intro hunsent
    obtain ⟨⟨f, hended⟩, data', r, hsql⟩ := hstage.unsent hsurrogate hunsent
    refine ⟨Point.failed_of_eq hended, fun data hmem => ?_⟩
    have hmem' : .ret (.execute id data) (.ok ()) ∈ sqlLog s.proc.log :=
      List.mem_filter.mpr ⟨hmem, rfl⟩
    rw [hsql] at hmem'
    obtain ⟨rfl, rfl⟩ : data = data' ∧ .ok () = r := by simpa using hmem'
    exact Db.prepared_of_prepared (l := []) (h.agrees.answered [_] _ _ hsql)

/-- Node 1 prepares a transaction of node 0 and cannot send its vote. -/
def unsentRun : List Site.Act :=
  let data : Bytes := [0, 0, 0, 1, 0, 0, 0, 0, 0, 0, 0, 3, 0, 0, 0, 0, 0, 0, 0, 0]
  [.post (.prepare { «from» := 0, xactId := (XactId.new 1 ⟨0⟩).val, data }), .take,
    .statement .done, .statement .done, .statement .done, .statement .done, .finish,
    .answer (.error (.msg "transport error"))]

theorem unsentRun_reach (hs : Machine.run Site.step freshSite unsentRun = some s) :
    Machine.Reach Site.step (Site.Act.AtSurrogate ⟨1⟩ (Db.Reliable (XactId.new 1 ⟨0⟩).toString))
      freshSite s := by
  refine Machine.reach_of_run .start (Machine.admitted_of_forall fun s a ha => ?_) hs
  simp only [unsentRun, List.mem_cons, List.not_mem_nil, or_false] at ha
  rcases ha with rfl | rfl | rfl | rfl | rfl | rfl | rfl | rfl <;>
    simp [Site.Act.AtSurrogate, XsMessage.AtSurrogate, Db.Reliable]

/-- The state manager has ended with an error, and the transaction stays prepared. -/
theorem surrogate_abandons_prepared :
    ¬ ∀ (id : XactId) (n : NodeId) (db₀ : Db String) (s : Site) (st : XactStateManager)
      (why : Halt Failure), db₀.history id.toString = [] →
      Machine.Reach Site.step (Site.Act.AtSurrogate n (Db.Reliable id.toString)) (Site.start id n db₀) s →
      s.proc.task = .halted st why → why ≠ .cancelled → s.db.prepared id.toString = none := by
  intro hclaim
  have hrun : (Machine.run Site.step freshSite unsentRun).map
      (fun s => decide (s.proc.task.ended ≠ none ∧ s.proc.task.ended ≠ some .cancelled ∧
        s.db.prepared (XactId.new 1 ⟨0⟩).toString = some true)) = some true := by
    decide
  obtain ⟨s, hs, hfacts⟩ := Option.map_eq_some_iff.mp hrun
  obtain ⟨hended, hnot, hprepared⟩ := of_decide_eq_true hfacts
  obtain ⟨why, hwhy⟩ := Option.ne_none_iff_exists'.mp hended
  obtain ⟨st, hhalt⟩ := Task.eq_halted hwhy
  have hnone := hclaim _ _ _ s st why rfl (unsentRun_reach hs) hhalt (fun h => hnot (h ▸ hwhy))
  exact absurd (hprepared.symm.trans hnone) (by simp)

theorem abandoned_iff_unsent_failed :
    ∃ s, Machine.run Site.step freshSite unsentRun = some s ∧ VoteUnsent s.proc.log ∧
      (∃ st f, s.proc.task = .halted st (.failed f)) ∧
      s.db.prepared (XactId.new 1 ⟨0⟩).toString = some true := by
  let data : Bytes := [0, 0, 0, 1, 0, 0, 0, 0, 0, 0, 0, 3, 0, 0, 0, 0, 0, 0, 0, 0]
  let vote : VoteMessage :=
    { «from» := 1, xactId := (XactId.new 1 ⟨0⟩).val, rollbackReason := none }
  have hrun : (Machine.run Site.step freshSite unsentRun).map (fun s => decide (
      .ret (.sendToAll [(⟨0⟩, .vote vote)]) (.error (.msg "transport error")) ∈ s.proc.log ∧
        .ret (.execute (.new 1 ⟨0⟩) data) (.ok ()) ∈ s.proc.log)) = some true := by
    decide
  obtain ⟨s, hs, hfacts⟩ := Option.map_eq_some_iff.mp hrun
  obtain ⟨hunsent, hexecuted⟩ := of_decide_eq_true hfacts
  obtain ⟨hended, hprepared⟩ :=
    (abandoned_iff_unsent rfl (unsentRun_reach hs)).2 ⟨_, _, hunsent⟩
  exact ⟨s, hs, ⟨_, _, hunsent⟩, hended, hprepared data hexecuted⟩

end Sunstorm
