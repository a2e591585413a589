import Sunstorm.Xactserver.Proofs.AgreementProofs

/-!
# Proofs: the reason of a rollback

The reason that a node gives with its no is the reason of an execution that failed, at the node
itself or at another one whose no it had received before its `Prepare`. In the second case the node
passes the reason on in its own name.
-/

namespace Sunstorm

open Await Tally

/-- The execution of the transaction failed at the node, with the reason. -/
def Cluster.FailedAt (self : Cluster) (id : XactId) (n : NodeId) (reason : RollbackReason) : Prop :=
  ∃ p data e, self.proc n id = some p ∧ .ret (.execute id data) (.error e) ∈ p.log ∧
    reason = .ofError e

/-- The node has broadcast a no with the reason, in its own name. -/
def Cluster.VotedNo (self : Cluster) (id : XactId) (n : NodeId) (reason : RollbackReason) : Prop :=
  ∃ p messages dst v, self.proc n id = some p ∧ .call (.sendToAll messages) ∈ p.log ∧
    (dst, .vote v) ∈ messages ∧ (⟨v.from⟩ : NodeId) = n ∧
    v.rollbackReason.map RollbackReason.ofProto = some reason

namespace Standing

variable {id : XactId} {n : NodeId} {status : XactStatus} {log : XactLog} {o : Opening}
  {P : BitSet} {early late : List VoteMessage}

/-- The reason of a no that a surrogate sends: its own execution failed, or it succeeded and a vote
with the reason had come before the `Prepare`. -/
theorem reason_source (h : Standing id n status log o P early late) {msg : PrepareMessage}
    {r : Answer} (ho : o = .surrogate msg r) {i : Nat} {reason : RollbackReason}
    (hd : decision P (o.votes n ++ early.map VoteMessage.cast) = .rollback i reason) :
    (∃ e, .ret (.execute id msg.data) (.error e) ∈ log ∧ reason = .ofError e) ∨
      .ret (.execute id msg.data) (.ok ()) ∈ log ∧
        ∃ w ∈ early, w.rollbackReason.map RollbackReason.ofProto = some reason := by
  have hret : .ret (.execute id msg.data) r ∈ log :=
    h.executed_mem _ (by simp [ho, Opening.executed])
  cases r with
  | error e =>
    rw [h.decision_failed ho early] at hd
    exact Or.inl ⟨e, hret, (Decision.rollback.inj hd).2.symm⟩
  | ok u =>
    refine Or.inr ⟨hret, ?_⟩
    rcases mem_ballot (no_of_rollback hd).2 with hown | ⟨w, hw, hcast⟩
    · obtain ⟨-, msg', e, ho', -⟩ := own_no hown
      rw [ho] at ho'
      exact absurd (Opening.surrogate.inj ho').2 (by simp)
    · exact ⟨w, hw, (Prod.mk.inj hcast).2⟩

/-- An execution succeeds or fails, not both. -/
theorem result_unique (h : Standing id n status log o P early late) {x x' : XactId}
    {data data' : Bytes} {r r' : Answer} (hr : .ret (.execute x data) r ∈ log)
    (hr' : .ret (.execute x' data') r' ∈ log) : r = r' := by
  obtain ⟨msg, ho, -⟩ := Opening.results_executed (h.results _ _ _ hr)
  obtain ⟨msg', ho', -⟩ := Opening.results_executed (h.results _ _ _ hr')
  rw [ho] at ho'
  exact (Opening.surrogate.inj ho').2

/-- A vote that came before the message that opened the ballot. -/
theorem early_order (h : Standing id n status log o P early late) {w : VoteMessage}
    (hw : w ∈ early) : List.Sublist [.recv (.vote w), .recv o.message] log := by
  have hearly : List.Sublist [.recv (.vote w)] (taken early) :=
    List.singleton_sublist.mpr (recv_mem_taken.mpr ⟨w, hw, rfl⟩)
  have hboth := hearly.append (List.Sublist.refl [Event.recv o.message])
  exact (hboth.trans (List.sublist_append_left _ _)).trans h.opened.sublist

end Standing

namespace Cluster

variable {st st' : Cluster} {n : NodeId} {id : XactId} {p q : XactProc}

theorem Change.failedAt_mono {a : Action} (h : Change st st' a) {reason : RollbackReason}
    (hf : st.FailedAt id n reason) : st'.FailedAt id n reason := by
  obtain ⟨p, data, e, hp, hret, hreason⟩ := hf
  obtain ⟨p', hp', hlog⟩ := h.log_mono hp
  exact ⟨p', data, e, hp', hlog.subset hret, hreason⟩

/-- Every reason that was broadcast is the reason of an execution that failed, and not at the
coordinator. -/
def Rooted (st : Cluster) : Prop :=
  ∀ n id p messages dst v reason, st.proc n id = some p → .call (.sendToAll messages) ∈ p.log →
    (dst, .vote v) ∈ messages → v.rollbackReason.map RollbackReason.ofProto = some reason →
    ∃ m, m ≠ id.nodeId ∧ st.FailedAt id m reason

namespace Honest

variable {o : Opening} {P : BitSet} {early late : List VoteMessage}

/-- The ballot that a vote announces was opened by a `Prepare`. -/
theorem surrogate_of_vote (h : Honest st) (hp : st.proc n id = some p)
    {messages : List Envelope} (hcall : .call (.sendToAll messages) ∈ p.log) {dst : NodeId}
    {v : VoteMessage} (hmem : (dst, .vote v) ∈ messages) :
    ∃ msg r P early late, n ≠ id.nodeId ∧
      Standing id n (XactProc.status p) p.log (.surrogate msg r) P early late := by
  obtain ⟨o, P, early, late, hst⟩ := h.standing_of_broadcast hp hcall
  obtain ⟨hreq, -⟩ := hst.announces hcall hmem
  cases o with
  | coordinator data tx => exact absurd hreq (by simp [Opening.request])
  | surrogate msg r => exact ⟨msg, r, P, early, late, (h.coordinator_eq hp hst).2 msg r rfl, hst⟩

/-- Where a no comes from: an execution that failed at the node, or one that succeeded and a no that
had come before the `Prepare`. -/
theorem no_source (h : Honest st) (hp : st.proc n id = some p) {messages : List Envelope}
    (hcall : .call (.sendToAll messages) ∈ p.log) {dst : NodeId} {v : VoteMessage}
    (hmem : (dst, .vote v) ∈ messages) {reason : RollbackReason}
    (hv : v.rollbackReason.map RollbackReason.ofProto = some reason) :
    n ≠ id.nodeId ∧ (st.FailedAt id n reason ∨
      ∃ msg w, .ret (.execute id msg.data) (.ok ()) ∈ p.log ∧
        List.Sublist [.recv (.vote w), .recv (.prepare msg)] p.log ∧
        w.rollbackReason.map RollbackReason.ofProto = some reason) := by
  obtain ⟨msg, r, P, early, late, hne, hst⟩ := h.surrogate_of_vote hp hcall hmem
  obtain ⟨pr, hpr, rfl⟩ := Option.map_eq_some_iff.mp hv
  obtain ⟨i, hd⟩ := hst.no_vote hcall hmem hpr
  refine ⟨hne, ?_⟩
  rcases hst.reason_source rfl hd with ⟨e, hret, hreason⟩ | ⟨hret, w, hw, hreason⟩
  · exact Or.inl ⟨p, msg.data, e, hp, hret, hreason⟩
  · exact Or.inr ⟨msg, w, hret, hst.early_order hw, hreason⟩

/-- One step keeps the reasons rooted. A new broadcast draws on the node's own execution, or on a
vote that went out before. -/
theorem rooted_step (h : Honest st) (hroot : Rooted st) {a : Action}
    (hs : st.step a = some st') : Rooted st' := by
  have hchange := change_of_step h.nodeId hs
  have h' := h.step hs
  intro n id p' messages dst v reason hp' hcall hmem hv
  have hold : ∀ {n id p messages dst v}, st.proc n id = some p →
      .call (.sendToAll messages) ∈ p.log → (dst, .vote v) ∈ messages →
      v.rollbackReason.map RollbackReason.ofProto = some reason →
      ∃ m, m ≠ id.nodeId ∧ st'.FailedAt id m reason := by
    intro n id p messages dst v hp hcall hmem hv
    obtain ⟨m, hm, hf⟩ := hroot n id p messages dst v reason hp hcall hmem hv
    exact ⟨m, hm, hchange.failedAt_mono hf⟩
  rcases hchange.event_cases hp' hcall with ⟨p, hp, hcall'⟩ | ⟨p, hp, -, hsent⟩
  · exact hold hp hcall' hmem hv
  · obtain ⟨hne, hf | ⟨msg, w, -, horder, hw⟩⟩ := h'.no_source hp' hcall hmem hv
    · exact ⟨n, hne, hf⟩
    · have hrecv : .recv (.vote w) ∈ p'.log := horder.subset (by simp)
      obtain ⟨hwsent, rfl⟩ := h'.recv_request hp' hrecv rfl
      rw [hsent] at hwsent
      obtain ⟨q, messages', hq, hcall', hmem'⟩ := h.sent_vote hwsent
      exact hold hq hcall' hmem' hw

end Honest

/-- The reasons are rooted in every run. -/
theorem rooted_of_reach {ok : Cluster → Action → Prop} (hr : Reach ok st) : Rooted st := by
  induction hr with
  | init =>
    intro n id p messages dst v reason hp
    exact absurd hp (by simp [Cluster.init, proc, Manager.new])
  | step a hr _ hs ih => exact (Honest.of_reach hr).rooted_step ih hs

/-- Where the pair in a ballot that is lost comes from. -/
theorem Honest.blame (h : Honest st) (hroot : Rooted st) (hp : st.proc n id = some p) {o : Opening}
    {P : BitSet} {early late : List VoteMessage}
    (hst : Standing id n (XactProc.status p) p.log o P early late) {i : Nat}
    {reason : RollbackReason}
    (hd : decision P (o.votes n ++ (early ++ late).map VoteMessage.cast) = .rollback i reason) :
    ∃ m : NodeId, m.toUsize = i ∧ m ≠ id.nodeId ∧
      (st.FailedAt id m reason ∨
        ∃ q msg w, st.proc m id = some q ∧ .ret (.execute id msg.data) (.ok ()) ∈ q.log ∧
          List.Sublist [.recv (.vote w), .recv (.prepare msg)] q.log ∧
          w.rollbackReason.map RollbackReason.ofProto = some reason ∧ st.VotedNo id m reason ∧
          ∃ k, k ≠ m ∧ k ≠ id.nodeId ∧ st.FailedAt id k reason) := by
  rcases Standing.mem_ballot (no_of_rollback hd).2 with hown | ⟨v, hv, hcast⟩
  · obtain ⟨rfl, msg, e, rfl, hreason⟩ := Standing.own_no hown
    have hret : .ret (.execute id msg.data) (.error e) ∈ p.log :=
      hst.executed_mem _ (by simp [Opening.executed])
    exact ⟨n, rfl, (h.coordinator_eq hp hst).2 msg _ rfl, Or.inl ⟨p, msg.data, e, hp, hret, hreason⟩⟩
  · obtain ⟨rfl, hreason⟩ := Prod.mk.inj hcast
    obtain ⟨q, messages, hq, hcall, hmem⟩ := h.vote_from hp (hst.counted v hv)
    obtain ⟨hne, hf | ⟨msg, w, hret, horder, hw⟩⟩ := h.no_source hq hcall hmem hreason
    · exact ⟨_, rfl, hne, Or.inl hf⟩
    · refine ⟨_, rfl, hne, Or.inr ⟨q, msg, w, hq, hret, horder, hw,
        ⟨q, messages, _, v, hq, hcall, hmem, rfl, hreason⟩, ?_⟩⟩
      obtain ⟨q', messages', hq', hcall', hmem'⟩ :=
        h.vote_from hq (horder.subset (by simp) : .recv (.vote w) ∈ q.log)
      obtain ⟨k, hk, hf⟩ := hroot _ _ _ _ _ _ _ hq' hcall' hmem' hw
      refine ⟨k, ?_, hk, hf⟩
      -- the execution succeeded at the node that passes the reason on
      rintro rfl
      obtain ⟨q'', data, e, hq'', hfail, -⟩ := hf
      obtain rfl : q = q'' := Option.some.inj (hq.symm.trans hq'')
      obtain ⟨om, Pm, earlym, latem, hstm⟩ := h.standing_of_broadcast hq hcall
      exact absurd (hstm.result_unique hret hfail) (by simp)

/-- **Whom a rollback names.** Whenever a node is about to roll back, has rolled back or tells its
client so, the node that it names is not the coordinator, and either the execution failed there with
that reason, or it succeeded there after a no with that reason had come in, and the node voted no with
it in its own name; and then it is the reason of an execution that failed at a third node. -/
theorem rollback_names_source (st : Cluster) (hr : Reach (fun _ _ => True) st) (n : NodeId)
    (id : XactId) (info : RollbackInfo)
    (hs : st.status n id = .rollbacking info ∨ st.status n id = .rollbacked info ∨
      ∃ p tx, st.proc n id = some p ∧ .call (.replyRollback tx info) ∈ p.log) :
    info.node ≠ id.nodeId ∧
      (st.FailedAt id info.node info.reason ∨
        ∃ q msg w, st.proc info.node id = some q ∧
          .ret (.execute id msg.data) (.ok ()) ∈ q.log ∧
          List.Sublist [.recv (.vote w), .recv (.prepare msg)] q.log ∧
          w.rollbackReason.map RollbackReason.ofProto = some info.reason ∧
          st.VotedNo id info.node info.reason ∧
          ∃ k, k ≠ info.node ∧ k ≠ id.nodeId ∧ st.FailedAt id k info.reason) := by
  have h := Honest.of_reach hr
  have hroot := rooted_of_reach hr
  have hlost : ∃ p o P early late i, st.proc n id = some p ∧
      Standing id n (XactProc.status p) p.log o P early late ∧
      decision P (o.votes n ++ (early ++ late).map VoteMessage.cast) = .rollback i info.reason ∧
      NodeId.ofUsize i = info.node := by
    rcases hs with hs | hs | ⟨p, tx, hp, hcall⟩
    · obtain ⟨p, o, P, early, late, hp, heq, hst⟩ :=
        h.standing_of_status (by rw [hs]; simp) (by rw [hs]; simp)
      obtain ⟨i, hd, hi⟩ := hst.lost (Or.inl (heq.symm.trans hs))
      exact ⟨p, o, P, early, late, i, hp, hst, hd, hi⟩
    · obtain ⟨p, o, P, early, late, hp, heq, hst⟩ :=
        h.standing_of_status (by rw [hs]; simp) (by rw [hs]; simp)
      obtain ⟨i, hd, hi⟩ := hst.lost (Or.inr (heq.symm.trans hs))
      exact ⟨p, o, P, early, late, i, hp, hst, hd, hi⟩
    · rcases (h.stage hp).standing with ⟨-, hacts, -⟩ | ⟨o, P, early, late, hst⟩
      · exact absurd (hacts _ (mem_calls.mpr hcall)).2 (by simp [Effect.isRollback])
      · have hclosing := hst.acts _ (mem_calls.mpr hcall) (Or.inr rfl)
        cases hd : decision P (o.votes n ++ (early ++ late).map VoteMessage.cast) with
        | waiting =>
          rw [hd] at hclosing
          cases o <;> exact absurd hclosing (by simp [Opening.closing, XactState.closing])
        | commit =>
          rw [hd] at hclosing
          cases o <;> exact absurd hclosing (by simp [Opening.closing, XactState.closing])
        | rollback i reason =>
          rw [hd] at hclosing
          have hinfo : info = ⟨NodeId.ofUsize i, reason⟩ := by
            cases o with
            | coordinator data tx' =>
              simp only [Opening.closing, XactState.closing, Option.map_some, Option.some.injEq,
                Effect.replyRollback.injEq] at hclosing
              exact hclosing.2.symm
            | surrogate msg r =>
              exact absurd hclosing (by simp [Opening.closing, XactState.closing])
          refine ⟨p, o, P, early, late, i, hp, hst, ?_, ?_⟩
          · rw [hinfo]
            exact hd
          · rw [hinfo]
  obtain ⟨p, o, P, early, late, i, hp, hst, hd, hi⟩ := hlost
  obtain ⟨m, rfl, hm, hblame⟩ := h.blame hroot hp hst hd
  rw [NodeId.ofUsize_toUsize] at hi
  rw [← hi]
  exact ⟨hm, hblame⟩

/-- Three nodes run a transaction. The execution fails at node 1. Its no reaches node 2 before the
`Prepare`, and the no of node 2, where the execution succeeds, is the first to reach node 0. -/
def relayRun : List Action :=
  let id : XactId := .new 1 ⟨0⟩
  let data : Bytes := [0, 0, 0, 1, 0, 0, 0, 0, 0, 0, 0, 7, 0, 0, 0, 0, 0, 0, 0, 0]
  let prepare : PeerMessage := .prepare { «from» := 0, xactId := id.val, data }
  let no (n : UInt32) : PeerMessage :=
    .vote { «from» := n, xactId := id.val, rollbackReason := some (.other "conflict") }
  [.client ⟨0⟩ data ⟨7⟩, .take ⟨0⟩ id, .emit ⟨0⟩ id (⟨1⟩, prepare), .emit ⟨0⟩ id (⟨2⟩, prepare),
    .answer ⟨0⟩ id (.ok ()), .deliver ⟨1⟩ prepare, .take ⟨1⟩ id,
    .answer ⟨1⟩ id (.error (.msg "conflict")), .emit ⟨1⟩ id (⟨2⟩, no 1), .deliver ⟨2⟩ (no 1),
    .take ⟨2⟩ id, .deliver ⟨2⟩ prepare, .take ⟨2⟩ id, .answer ⟨2⟩ id (.ok ()),
    .emit ⟨2⟩ id (⟨0⟩, no 2), .deliver ⟨0⟩ (no 2), .take ⟨0⟩ id, .answer ⟨0⟩ id (.ok ())]

/-- No execution that failed is in the log. -/
def noFailedExecution (log : XactLog) : Bool :=
  log.all fun
    | .ret (.execute _ _) (.error _) => false
    | _ => true

theorem relayRun_state :
    ∃ st, init.run relayRun = some st ∧
      st.status ⟨0⟩ (.new 1 ⟨0⟩) = .rollbacked ⟨⟨2⟩, .other "conflict"⟩ ∧
      (st.proc ⟨2⟩ (.new 1 ⟨0⟩)).map (fun p => noFailedExecution p.log) = some true := by
  have hrun : (init.run relayRun).map (fun st => (st.status ⟨0⟩ (.new 1 ⟨0⟩),
      (st.proc ⟨2⟩ (.new 1 ⟨0⟩)).map fun p => noFailedExecution p.log)) =
      some (.rollbacked ⟨⟨2⟩, .other "conflict"⟩, some true) := by decide
  obtain ⟨st, hst, heq⟩ := Option.map_eq_some_iff.mp hrun
  obtain ⟨hstatus, hlog⟩ := Prod.mk.inj heq
  exact ⟨st, hst, hstatus, hlog⟩

theorem relayed_no_names_relay :
    ¬ ∀ st, Reach (fun _ _ => True) st → ∀ n id info,
      (st.status n id = .rollbacking info ∨ st.status n id = .rollbacked info) →
      st.FailedAt id info.node info.reason := by
  intro hclaim
  obtain ⟨st, hst, hstatus, hlog⟩ := relayRun_state
  obtain ⟨p, data, e, hp, hret, -⟩ := hclaim st (reach_of_run .init hst (by decide)) _ _ _ (Or.inr hstatus)
  rw [hp] at hlog
  have hall := List.all_eq_true.mp (Option.some.inj hlog) _ hret
  exact absurd hall (by simp)

theorem rollback_names_source_relay :
    ∃ st, init.run relayRun = some st ∧
      (⟨2⟩ : NodeId) ≠ (XactId.new 1 ⟨0⟩).nodeId ∧
      (st.FailedAt (.new 1 ⟨0⟩) ⟨2⟩ (.other "conflict") ∨
        ∃ q msg w, st.proc ⟨2⟩ (.new 1 ⟨0⟩) = some q ∧
          .ret (.execute (.new 1 ⟨0⟩) msg.data) (.ok ()) ∈ q.log ∧
          List.Sublist [.recv (.vote w), .recv (.prepare msg)] q.log ∧
          w.rollbackReason.map RollbackReason.ofProto = some (.other "conflict") ∧
          st.VotedNo (.new 1 ⟨0⟩) ⟨2⟩ (.other "conflict") ∧
          ∃ k, k ≠ ⟨2⟩ ∧ k ≠ (XactId.new 1 ⟨0⟩).nodeId ∧
            st.FailedAt (.new 1 ⟨0⟩) k (.other "conflict")) := by
  obtain ⟨st, hst, hstatus, -⟩ := relayRun_state
  exact ⟨st, hst, rollback_names_source st (reach_of_run .init hst (by decide)) ⟨0⟩ (.new 1 ⟨0⟩) _
    (Or.inr (Or.inl hstatus))⟩

end Cluster

end Sunstorm
