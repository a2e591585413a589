import Sunstorm.Xactserver.Proofs.AtomicityProofs

/-!
# Proofs: without failures every participant decides

When only executions fail and nothing is left to do, every participant has announced its ballot and
has received the votes of all others. A ballot in which every participant has voted is decided.
-/

namespace Sunstorm

open Await Tally

namespace Cluster

variable {st : Cluster} {n x y z : NodeId} {id : XactId} {p q : XactProc} {data : Bytes}
  {P : BitSet}

/-- A state manager that has announced its ballot to all others, and has taken every message that
came or is done. -/
structure Polled (id : XactId) (n : NodeId) (p : XactProc) (S : Session n)
    (late : List VoteMessage) (closing : List Effect) : Prop where
  seen : S.Seen id (XactProc.status p) p.log late closing
  announced : .ret (S.broadcast id) (.ok ()) ∈ p.log
  /-- Votes are missing, and all that came are counted. -/
  voting : closing = [] → p.task.isHalted = false ∧ S.decision late = .waiting ∧
    ∀ v, .recv (.vote v) ∈ p.log → v ∈ S.early ++ late
  /-- The decision is carried out. -/
  closed : ∀ e, closing = [e] → XactProc.status p = .finalOf (S.decision late) ∧
    .ret e (.ok ()) ∈ p.log

/-- The votes in the log of an open ballot are those that it counts. -/
theorem votes_of_voting {S : Session n} {late : List VoteMessage} {v : VoteMessage}
    (hv : .recv (.vote v) ∈ S.voting id late) : v ∈ S.early ++ late := by
  have hopening : .recv (.vote v) ∉ ([.recv S.opening.message] : XactLog) := by
    cases S.opening <;> simp [Opening.message]
  have hexecuted : .recv (.vote v) ∉ S.opening.executed id := by
    cases S.opening <;> simp [Opening.executed]
  unfold Session.voting Session.opened at hv
  simp only [List.mem_append, recv_mem_taken, hopening, hexecuted, List.mem_singleton,
    or_false, reduceCtorEq] at hv
  rcases hv with ⟨w, hw, heq⟩ | ⟨w, hw, heq⟩
  · obtain rfl := XsMessage.vote.inj heq
    exact List.mem_append_left _ hw
  · obtain rfl := XsMessage.vote.inj heq
    exact List.mem_append_right _ hw

/-- What is known when nothing is left to do about a transaction that nothing has interrupted. -/
structure Settled (st : Cluster) (id : XactId) (data : Bytes) (P : BitSet) : Prop where
  reach : Reach (Undisturbed id Effect.isExecute) st
  unique : st.Unique id data
  decoded : RWSet.participantsIn data = some P
  coordinates : id.nodeId.toUsize ∈ P
  other : ∃ t : NodeId, t.toUsize ∈ P ∧ t ≠ id.nodeId
  quiescent : st.Quiescent id P

namespace Settled

theorem honest (h : Settled st id data P) : Honest st := Honest.of_reach h.reach

/-- Nothing but an execution has failed. -/
theorem answer_ok (h : Settled st id data P) (hp : st.proc n id = some p) {e : Effect}
    {r : Answer} (hret : .ret e r ∈ p.log) (he : e.isExecute = false) : r = .ok () :=
  (calm_of_reach h.reach).answers n p e r hp hret he

/-- A state manager that has ended has carried out its decision. -/
theorem finished (h : Settled st id data P) (hn : n.toUsize ∈ P)
    (hp : st.proc n id = some p) (hhalt : p.task.isHalted = true) : Finished id n p := by
  obtain ⟨t, ht, htc⟩ := h.other
  rcases (calm_of_reach h.reach).ended h.honest (rooted_of_reach h.reach)
    (fun e he _ => he) h.unique h.decoded ht htc (Or.inl hn) hp hhalt with hfin | ⟨messages, e, hret⟩
  · exact hfin
  · exact absurd (h.answer_ok hp hret rfl) (by simp)

theorem resting (h : Settled st id data P) (hn : n.toUsize ∈ P) (hp : st.proc n id = some p) :
    p.inbox = [] ∧ p.task.isBusy = false := by
  apply h.quiescent.2 n.toUsize hn
  rw [NodeId.ofUsize_toUsize]
  exact hp

/-- A message that came was taken, or the state manager has ended. -/
theorem received (h : Settled st id data P) (hn : n.toUsize ∈ P) (hp : st.proc n id = some p)
    (hhalt : p.task.isHalted = false) {α : Type} {f : XsMessage → Option α} {xs : List α}
    (hgot : p.Got f xs) {a : α} (ha : a ∈ xs) : ∃ m, .recv m ∈ p.log ∧ f m = some a := by
  obtain ⟨m, hm, hf⟩ := hgot.received hhalt ha
  unfold Proc.received at hm
  rw [(h.resting hn hp).1, List.append_nil] at hm
  exact ⟨m, mem_recvs.mp hm, hf⟩

/-- A state manager that got what opens its ballot has polled the others. -/
theorem polled (h : Settled st id data P) (hn : n.toUsize ∈ P)
    (hp : st.proc n id = some p)
    (hopened : p.task.isHalted = false → ∃ m : XsMessage, .recv m ∈ p.log ∧ m.opens = true) :
    ∃ S late closing, Polled id n p S late closing := by
  cases hhalt : p.task.isHalted with
  | true =>
    obtain ⟨S, late, e, hseen, -, hstatus, hret, hannounced⟩ := h.finished hn hp hhalt
    refine ⟨S, late, [e], hseen, hannounced, fun habs => absurd habs (by simp), ?_⟩
    intro e' he'
    obtain rfl := List.singleton_inj.mp he'
    exact ⟨hstatus, hret⟩
  | false =>
    obtain ⟨m, hm, hopens⟩ := hopened hhalt
    have hidle : Point.ofTask p.task = .idle := by
      cases htask : p.task with
      | idle s => rfl
      | busy s e k =>
        have hbusy := (h.resting hn hp).2
        rw [htask] at hbusy
        exact absurd hbusy (by simp [Task.isBusy])
      | halted s why => rw [htask] at hhalt; exact absurd hhalt (by simp [Task.isHalted])
    have hstage := h.honest.stage hp
    rw [hidle] at hstage
    generalize hpt : Point.idle = pt at hstage
    generalize hst : XactProc.status p = status at hstage
    generalize hl : p.log = log at hstage
    cases hstage with
    | unknown early =>
      rw [hl] at hm
      obtain ⟨v, -, rfl⟩ := recv_mem_taken.mp hm
      exact absurd hopens (by simp [XsMessage.opens])
    | session S htail =>
      cases htail with
      | voting late hd =>
        have hannounced : .ret (S.broadcast id) (.ok ()) ∈ p.log := by simp [hl, Session.voting]
        refine ⟨S, late, [], ?_, hannounced, fun _ => ⟨hhalt, hd, fun v hv => ?_⟩, fun e he => ?_⟩
        · rw [hst, hl]
          exact Session.seen_voting hd
        · rw [hl] at hv
          exact votes_of_voting hv
        · exact absurd he (by simp)
      | _ => exact absurd hpt (by simp)
    | _ => exact absurd hpt (by simp)

/-- What was broadcast with success has come. -/
theorem arrived (h : Settled st id data P) (hp : st.proc n id = some p) {S : Session n}
    {late : List VoteMessage} {closing : List Effect} (hpoll : Polled id n p S late closing)
    (hx : x.toUsize ∈ S.participants) (hne : x ≠ n) : S.request id ∈ st.arrived x id := by
  have hmem : (x, S.request id) ∈ XactStateManager.toAllBut n S.participants (S.request id) :=
    (XactStateManager.mem_toAllBut fun i hi => S.participants_lt hi).mpr ⟨rfl, hne, hx⟩
  have hid : (S.request id).xactId = id := by
    unfold Session.request
    cases S.opening <;> rfl
  have hsent := sent_of_reach h.reach hp hpoll.announced _ hmem
  exact mem_arrived.mpr ⟨h.quiescent.1 _ hsent hid, hid⟩

/-- All ballots are taken among the participants. -/
theorem participants_eq (h : Settled st id data P) (hp : st.proc n id = some p) {S : Session n}
    {late : List VoteMessage} {closing : List Effect} (hpoll : Polled id n p S late closing) :
    S.participants = P := by
  have hdec := hpoll.seen.standing.decoded
  rw [h.honest.data_eq hp hpoll.seen.standing h.unique, h.decoded] at hdec
  exact (Option.some.inj hdec).symm

/-- The state manager of a message that came exists. -/
theorem exists_of_arrived (h : Settled st id data P) {msg : PeerMessage}
    (ha : msg ∈ st.arrived n id) : ∃ p, st.proc n id = some p := by
  cases hp : st.proc n id with
  | some p => exact ⟨p, rfl⟩
  | none =>
    rw [(h.honest.recorded.fresh n id hp).1] at ha
    exact absurd ha List.not_mem_nil

/-- The coordinator has polled the others. -/
theorem coordinator (h : Settled st id data P) :
    ∃ p tx S late closing, st.proc id.nodeId id = some p ∧
      Polled id id.nodeId p S late closing ∧ S.opening = .coordinator data tx ∧
      .recv (.localXact data tx) ∈ p.log := by
  have hassigned : (id, data) ∈ st.assigned := by
    have hmem : (id, data) ∈ st.assigned.filter fun a => a.1 = id := by
      rw [h.unique]
      exact List.mem_singleton.mpr rfl
    exact (List.mem_filter.mp hmem).1
  have hhanded : data ∈ st.handed id.nodeId id := mem_handed.mpr ⟨hassigned, rfl⟩
  obtain ⟨p, hp⟩ : ∃ p, st.proc id.nodeId id = some p := by
    cases hp : st.proc id.nodeId id with
    | some p => exact ⟨p, rfl⟩
    | none =>
      rw [(h.honest.recorded.fresh _ id hp).2] at hhanded
      exact absurd hhanded List.not_mem_nil
  obtain ⟨S, late, closing, hpoll⟩ := h.polled h.coordinates hp (by
    intro hhalt
    obtain ⟨m, hm, hf⟩ := h.received h.coordinates hp hhalt (h.honest.recorded.locals _ id p hp) hhanded
    refine ⟨m, hm, ?_⟩
    cases m with
    | localXact data' tx => rfl
    | prepare msg => exact absurd hf (by simp [XsMessage.handed])
    | vote v => exact absurd hf (by simp [XsMessage.handed]))
  have hm := hpoll.seen.executed.1
  cases ho : S.opening with
  | coordinator data' tx =>
    rw [ho] at hm
    obtain rfl := h.unique.data_eq (h.honest.recv_local hp hm).1
    exact ⟨p, tx, S, late, closing, hp, hpoll, ho, hm⟩
  | surrogate msg r =>
    rw [ho] at hm
    exact absurd rfl (h.honest.prepare_from hp hm).2.1

/-- Every participant has polled the others. -/
theorem everyone_polled (h : Settled st id data P) (hx : x.toUsize ∈ P) :
    ∃ p S late closing, st.proc x id = some p ∧ Polled id x p S late closing := by
  obtain ⟨c, tx, S, late, closing, hc, hpoll, ho, -⟩ := h.coordinator
  by_cases hxc : x = id.nodeId
  · subst hxc
    exact ⟨c, S, late, closing, hc, hpoll⟩
  · have harr := h.arrived hc hpoll (by rw [h.participants_eq hc hpoll]; exact hx) hxc
    obtain ⟨p, hp⟩ := h.exists_of_arrived harr
    obtain ⟨S', late', closing', hpoll'⟩ := h.polled hx hp (by
      intro hhalt
      obtain ⟨m, hm, hf⟩ := h.received hx hp hhalt (h.honest.recorded.peers _ id p hp) harr
      refine ⟨m, hm, ?_⟩
      unfold Session.request at hf
      rw [ho] at hf
      cases m with
      | localXact data' tx' => rfl
      | prepare msg => rfl
      | vote v => exact absurd hf (by simp [XsMessage.peer, Opening.request]))
    exact ⟨p, S', late', closing', hp, hpoll'⟩

/-- Every participant has a vote in every ballot that is still open. -/
theorem voted (h : Settled st id data P) (hp : st.proc n id = some p) {S : Session n}
    {late : List VoteMessage} (hpoll : Polled id n p S late []) (hn : n.toUsize ∈ P)
    (hx : x.toUsize ∈ P) : ∃ o, (x.toUsize, o) ∈ S.ballot late := by
  obtain ⟨hhalt, -, hcounted⟩ := hpoll.voting rfl
  have hcoord := (h.honest.coordinator_eq hp hpoll.seen.standing).1
  by_cases hxn : x = n
  · subst hxn
    unfold Session.ballot
    cases S.opening with
    | coordinator data' tx => exact ⟨none, by simp [Opening.votes]⟩
    | surrogate msg r => exact ⟨RollbackReason.ofAnswer r, by simp [Opening.votes]⟩
  · by_cases hxc : x = id.nodeId
    · refine ⟨none, ?_⟩
      unfold Session.ballot
      rw [hxc, ← hcoord]
      cases S.opening with
      | coordinator data' tx => simp [Opening.votes, Opening.coordinatorAt]
      | surrogate msg r => simp [Opening.votes, Opening.coordinatorAt]
    · obtain ⟨q, S', late', closing', hq, hpoll'⟩ := h.everyone_polled hx
      have harr := h.arrived hq hpoll' (by rw [h.participants_eq hq hpoll']; exact hn)
        (fun heq => hxn heq.symm)
      obtain ⟨m, hm, hf⟩ := h.received hn hp hhalt (h.honest.recorded.peers _ id p hp) harr
      have hs' : ∃ msg r, S'.opening = .surrogate msg r := by
        cases ho : S'.opening with
        | surrogate msg r => exact ⟨msg, r, rfl⟩
        | coordinator data' tx =>
          have hm' := hpoll'.seen.executed.1
          rw [ho] at hm'
          exact absurd (h.honest.recv_local hq hm').2.symm hxc
      obtain ⟨msg, r, ho⟩ := hs'
      unfold Session.request at hf
      rw [ho] at hf
      cases m with
      | localXact data' tx => exact absurd hf (by simp [XsMessage.peer])
      | prepare msg' => exact absurd hf (by simp [XsMessage.peer, Opening.request])
      | vote v =>
        have hv : v.from = x.val := by
          have heq := PeerMessage.vote.inj (Option.some.inj hf)
          rw [heq]
        refine ⟨v.cast.2, List.mem_append_right _ (List.mem_map.mpr ⟨v, hcounted v hm, ?_⟩)⟩
        unfold VoteMessage.cast Vote.cast Vote.ofMessage
        simp only [NodeId.toUsize, hv]

/-- Every participant has carried out its decision. -/
theorem everyone_finished (h : Settled st id data P) (hx : x.toUsize ∈ P) :
    ∃ p S late e, st.proc x id = some p ∧ Polled id x p S late [e] ∧
      S.opening.closing id (S.decision late) = some e := by
  obtain ⟨p, S, late, closing, hp, hpoll⟩ := h.everyone_polled hx
  rcases hpoll.seen.ends with rfl | ⟨e, he, rfl⟩
  · have hS := h.participants_eq hp hpoll
    refine absurd (hpoll.voting rfl).2.1 (decision_of_all_voted ⟨x.toUsize, hS ▸ hx⟩ ?_)
    intro i hi
    have hi' : i < 64 := S.participants_lt hi
    rw [← toUsize_ofUsize hi']
    rw [← toUsize_ofUsize hi', hS] at hi
    exact h.voted hp hpoll hx hi
  · exact ⟨p, S, late, e, hp, hpoll, he⟩

/-- An execution that failed, failed at a participant. -/
theorem member_of_failed (h : Settled st id data P) {reason : RollbackReason}
    (hf : st.FailedAt id n reason) :
    n.toUsize ∈ P ∧ ∀ q, st.proc n id = some q →
      .ret (.execute id data) (.ok ()) ∉ q.log := by
  obtain ⟨p, data', e, hp, hret, -⟩ := hf
  rcases (h.honest.stage hp).standing with ⟨-, -, hnone, -⟩ | ⟨o, P', early, late, hst⟩
  · exact absurd hret (hnone _ _)
  · obtain ⟨msg, ho, -⟩ := Opening.results_executed (hst.results _ _ _ hret)
    have hdec := hst.decoded
    rw [h.honest.data_eq hp hst h.unique, h.decoded] at hdec
    obtain rfl := Option.some.inj hdec
    refine ⟨(hst.member msg _ ho).2, fun q hq hok => ?_⟩
    obtain rfl : p = q := Option.some.inj (hp.symm.trans hq)
    exact absurd (hst.result_unique hret hok) (by simp)

theorem status_eq (hp : st.proc n id = some p) : st.status n id = XactProc.status p := by
  unfold status
  rw [hp]
  rfl

/-- What a participant has decided: to commit, and then every execution has succeeded, or to roll
back, and then one has failed. -/
theorem outcome (h : Settled st id data P) (hx : x.toUsize ∈ P) :
    (st.status x id = .committed ∧ ∀ z : NodeId, z.toUsize ∈ P → z ≠ id.nodeId →
      ∃ q, st.proc z id = some q ∧ .ret (.execute id data) (.ok ()) ∈ q.log) ∨
    ((∃ info, st.status x id = .rollbacked info) ∧ ∃ z : NodeId, z.toUsize ∈ P ∧ z ≠ id.nodeId ∧
      ∀ q, st.proc z id = some q → .ret (.execute id data) (.ok ()) ∉ q.log) := by
  obtain ⟨p, S, late, e, hp, hpoll, he⟩ := h.everyone_finished hx
  have hst := hpoll.seen.standing
  rw [status_eq hp, (hpoll.closed e rfl).1]
  rcases Opening.closing_cases he with ⟨hd, -⟩ | ⟨⟨i, reason, hd⟩, -⟩
  · left
    rw [hd]
    refine ⟨rfl, fun z hz hzc => ?_⟩
    have hz' : z.toUsize ∈ S.participants := by rw [h.participants_eq hp hpoll]; exact hz
    obtain ⟨q, hq, hret⟩ := h.honest.validity hp hst hd hz' hzc
    rw [h.honest.data_eq hp hst h.unique] at hret
    exact ⟨q, hq, hret⟩
  · right
    rw [hd]
    refine ⟨⟨_, rfl⟩, ?_⟩
    obtain ⟨m, -, hm, hf | ⟨q, msg, w, -, -, -, -, -, k, -, hk, hf⟩⟩ :=
      h.honest.blame (rooted_of_reach h.reach) hp hst hd
    · obtain ⟨hmP, hnone⟩ := h.member_of_failed hf
      exact ⟨m, hmP, hm, hnone⟩
    · obtain ⟨hkP, hnone⟩ := h.member_of_failed hf
      exact ⟨k, hkP, hk, hnone⟩

/-- The coordinator has replied once, with its decision. -/
theorem replied (h : Settled st id data P) :
    ∃ p tx, st.proc id.nodeId id = some p ∧ .recv (.localXact data tx) ∈ p.log ∧
      ((st.status id.nodeId id = .committed ∧
          (calls p.log).filter Effect.isReply = [.replyCommit (some tx)] ∧
          .ret (.replyCommit (some tx)) (.ok ()) ∈ p.log) ∨
        ∃ info, st.status id.nodeId id = .rollbacked info ∧
          (calls p.log).filter Effect.isReply = [.replyRollback (some tx) info] ∧
          .ret (.replyRollback (some tx) info) (.ok ()) ∈ p.log) := by
  obtain ⟨p, S, late, e, hp, hpoll, he⟩ := h.everyone_finished h.coordinates
  obtain ⟨hstatus, hret⟩ := hpoll.closed e rfl
  have hm := hpoll.seen.executed.1
  have heffects := hpoll.seen.effects
  cases ho : S.opening with
  | surrogate msg r =>
    rw [ho] at hm
    exact absurd rfl (h.honest.prepare_from hp hm).2.1
  | coordinator data' tx =>
    rw [ho] at hm he heffects
    obtain rfl := h.unique.data_eq (h.honest.recv_local hp hm).1
    refine ⟨p, tx, hp, hm, ?_⟩
    rw [status_eq hp, hstatus]
    have hreplies : (calls p.log).filter Effect.isReply = [e].filter Effect.isReply := by
      rw [heffects]
      rfl
    rw [hreplies]
    cases hd : S.decision late with
    | waiting =>
      rw [hd] at he
      exact absurd he (by simp [Opening.closing, XactState.closing])
    | commit =>
      rw [hd] at he
      obtain rfl : .replyCommit (some tx) = e := Option.some.inj he
      exact Or.inl ⟨rfl, rfl, hret⟩
    | rollback i reason =>
      rw [hd] at he
      obtain rfl : .replyRollback (some tx) ⟨NodeId.ofUsize i, reason⟩ = e := Option.some.inj he
      exact Or.inr ⟨_, rfl, rfl, hret⟩

end Settled

/-- **No participant is left undecided in a failure-free run.** Only executions fail, and nothing is
left to do about the transaction. Then all participants have committed or all have rolled back; they
have committed if every execution succeeded and only then; and the coordinator has replied to its
client once, with the outcome. The servers log at level `info`, so `decode_rest` in the `debug!` of the
handlers is not called. -/
theorem failure_free_run_decides (st : Cluster) (id : XactId) (data : Bytes) (P : BitSet)
    (hr : Reach (Undisturbed id Effect.isExecute) st) (hid : st.Unique id data)
    (hP : RWSet.participantsIn data = some P) (hc : id.nodeId.toUsize ∈ P)
    (hother : ∃ t : NodeId, t.toUsize ∈ P ∧ t ≠ id.nodeId) (hq : st.Quiescent id P) :
    ((∀ x : NodeId, x.toUsize ∈ P → st.status x id = .committed) ∨
      ∀ x : NodeId, x.toUsize ∈ P → ∃ info, st.status x id = .rollbacked info) ∧
    (∀ x : NodeId, x.toUsize ∈ P → (st.status x id = .committed ↔
      ∀ z : NodeId, z.toUsize ∈ P → z ≠ id.nodeId →
        ∃ q, st.proc z id = some q ∧ .ret (.execute id data) (.ok ()) ∈ q.log)) ∧
    ∃ p tx, st.proc id.nodeId id = some p ∧ .recv (.localXact data tx) ∈ p.log ∧
      ((st.status id.nodeId id = .committed ∧
          (calls p.log).filter Effect.isReply = [.replyCommit (some tx)] ∧
          .ret (.replyCommit (some tx)) (.ok ()) ∈ p.log) ∨
        ∃ info, st.status id.nodeId id = .rollbacked info ∧
          (calls p.log).filter Effect.isReply = [.replyRollback (some tx) info] ∧
          .ret (.replyRollback (some tx) info) (.ok ()) ∈ p.log) := by
  have h : Settled st id data P := ⟨hr, hid, hP, hc, hother, hq⟩
  have hcontra : ∀ {z : NodeId}, z.toUsize ∈ P → z ≠ id.nodeId →
      (∀ q, st.proc z id = some q → .ret (.execute id data) (.ok ()) ∉ q.log) →
      (∀ z : NodeId, z.toUsize ∈ P → z ≠ id.nodeId →
        ∃ q, st.proc z id = some q ∧ .ret (.execute id data) (.ok ()) ∈ q.log) → False := by
    intro z hz hzc hnone hall
    obtain ⟨q, hq, hret⟩ := hall z hz hzc
    exact hnone q hq hret
  refine ⟨?_, ?_, h.replied⟩
  · rcases h.outcome hc with ⟨-, hall⟩ | ⟨-, z, hz, hzc, hnone⟩
    · left
      intro x hx
      rcases h.outcome hx with ⟨hs, -⟩ | ⟨-, z, hz, hzc, hnone⟩
      · exact hs
      · exact (hcontra hz hzc hnone hall).elim
    · right
      intro x hx
      rcases h.outcome hx with ⟨-, hall⟩ | ⟨hs, -⟩
      · exact (hcontra hz hzc hnone hall).elim
      · exact hs
  · intro x hx
    rcases h.outcome hx with ⟨hs, hall⟩ | ⟨⟨info, hs⟩, z, hz, hzc, hnone⟩
    · exact ⟨fun _ => hall, fun _ => hs⟩
    · rw [hs]
      exact ⟨fun habs => absurd habs (by simp), fun hall => (hcontra hz hzc hnone hall).elim⟩

theorem failure_free_run_decides_commit :
    ∃ st, init.run commitRun = some st ∧
      ((∀ x : NodeId, x.toUsize ∈ ({0, 1} : BitSet) → st.status x (.new 1 ⟨0⟩) = .committed) ∨
        ∀ x : NodeId, x.toUsize ∈ ({0, 1} : BitSet) →
          ∃ info, st.status x (.new 1 ⟨0⟩) = .rollbacked info) := by
  have hrun : (init.run commitRun).map
      (fun st => (st.assigned, decide (st.Quiescent (.new 1 ⟨0⟩) {0, 1}))) =
      some ([(.new 1 ⟨0⟩, [0, 0, 0, 1, 0, 0, 0, 0, 0, 0, 0, 3, 0, 0, 0, 0, 0, 0, 0, 0])],
        true) := by decide
  obtain ⟨st, hst, heq⟩ := Option.map_eq_some_iff.mp hrun
  obtain ⟨hassigned, hquiescent⟩ := Prod.mk.inj heq
  have hid : st.Unique (.new 1 ⟨0⟩)
      [0, 0, 0, 1, 0, 0, 0, 0, 0, 0, 0, 3, 0, 0, 0, 0, 0, 0, 0, 0] := by
    unfold Unique
    rw [hassigned]
    decide
  exact ⟨st, hst, (failure_free_run_decides st _ _ {0, 1} (reach_of_run .init hst (by decide)) hid
    (by decide) (by decide) ⟨⟨1⟩, by decide, by decide⟩ (of_decide_eq_true hquiescent)).1⟩

end Cluster

end Sunstorm
