import Sunstorm.Xactserver.Proofs.BlameProofs
import Sunstorm.Xactserver.Proofs.DuplicateProofs

/-!
# Proofs: a transaction that nothing interrupts

When state managers are not stopped, no request is delivered twice and only executions and
broadcasts may fail, then a state manager ends in one of two ways: it has carried its decision out,
or its broadcast failed.
-/

namespace Sunstorm

open Await Tally

namespace Cluster

variable {st st' : Cluster} {n : NodeId} {id : XactId} {p p' : XactProc}

theorem awaited_busy (hp : st.proc n id = some p) {s : XactStateManager} {e : Effect}
    {k : Answer → Prog XactStateManager Effect Answer (Except Failure Bool × XactStateManager)}
    (ht : p.task = .busy s e k) : st.awaited n id = some e := by
  obtain ⟨inbox, task, log⟩ := p
  obtain rfl : task = .busy s e k := ht
  unfold awaited
  rw [hp]

/-- What holds of every answer when it is given, and is kept by every step, holds of all answers in
the logs. -/
theorem answers_of_reach (id : XactId) {ok : Cluster → Action → Prop}
    {G : Cluster → Effect → Answer → Prop}
    (hmono : ∀ st st' a e r, Change st st' a → G st e r → G st' e r)
    (hanswer : ∀ st n r e, ok st (.answer n id r) → st.canAnswer n id r = true →
      st.awaited n id = some e → G st e r)
    (hr : Reach ok st) : ∀ n p e r, st.proc n id = some p → .ret e r ∈ p.log → G st e r := by
  induction hr with
  | init =>
    intro n p e r hp
    exact absurd hp (by simp [Cluster.init, proc, Manager.new])
  | @step st st' a hr ha hs ih =>
    have hchange := change_of_step (Honest.of_reach hr).nodeId hs
    intro n p' e r hp' hret
    apply hmono st st' a e r hchange
    rcases hchange.event_cases hp' hret with ⟨p, hp, hret'⟩ | ⟨p, hp, hown, -⟩
    · exact ih n p e r hp hret'
    · rcases hown.ret_mem hret with hret' | ⟨rfl, hc, s, k, ht⟩
      · exact ih n p e r hp hret'
      · exact hanswer st n r e ha hc (awaited_busy hp ht)

/-- The requests of a broadcast that succeeded went out. -/
theorem sent_of_reach {ok : Cluster → Action → Prop} (hr : Reach ok st)
    (hp : st.proc n id = some p) {messages : List Envelope}
    (hret : .ret (.sendToAll messages) (.ok ()) ∈ p.log) : ∀ e ∈ messages, e ∈ st.sent := by
  have hG := answers_of_reach id
    (G := fun st e r => ∀ messages, e = .sendToAll messages → r = .ok () →
      ∀ envelope ∈ messages, envelope ∈ st.sent) ?_ ?_ hr n p _ _ hp hret
  · exact hG messages rfl rfl
  · intro st st' a e r hchange hG messages he hr' envelope hmem
    have hsent := hG messages he hr' envelope hmem
    cases hchange with
    | client _ _ _ _ sent => exact sent ▸ hsent
    | deliver _ _ _ _ sent => exact sent ▸ hsent
    | emit _ _ _ _ _ sent =>
      rw [sent]
      exact List.mem_append_left _ hsent
    | own _ _ _ _ _ _ _ _ sent => exact sent ▸ hsent
  · rintro st n r e - hc haw messages rfl rfl envelope hmem
    unfold canAnswer at hc
    rw [haw] at hc
    exact of_decide_eq_true (List.all_eq_true.mp hc envelope hmem)

/-- What holds of a transaction that nothing interrupts. -/
structure Calm (st : Cluster) (id : XactId) (fails : Effect → Bool) : Prop where
  running : ∀ n p s, st.proc n id = some p → p.task ≠ .halted s .cancelled
  answers : ∀ n p e r, st.proc n id = some p → .ret e r ∈ p.log → fails e = false → r = .ok ()
  once : ∀ n, (st.arrived n id).Nodup

theorem calm_of_reach {fails : Effect → Bool} (hr : Reach (Undisturbed id fails) st) :
    Calm st id fails := by
  refine ⟨?_, ?_, ?_⟩
  · induction hr with
    | init =>
      intro n p s hp
      exact absurd hp (by simp [Cluster.init, proc, Manager.new])
    | step a hr ha hs ih =>
      intro n p' s hp' ht
      have hchange := change_of_step (Honest.of_reach hr).nodeId hs
      rcases hchange.proc_cases hp' with ⟨p, hp, htask, -⟩ | ⟨htask, -⟩ | ⟨p, hp, hown, -⟩
      · exact ih n p s hp (htask.symm.trans ht)
      · rw [ht] at htask
        exact absurd htask (by simp)
      · obtain rfl := hown.cancelled ht
        exact absurd rfl ha
  · exact answers_of_reach id (G := fun _ e r => fails e = false → r = .ok ())
      (fun _ _ _ _ _ _ hG => hG) (fun st n r e ha _ haw => ha rfl e haw) hr
  · induction hr with
    | init => exact fun n => List.nodup_nil
    | step a hr ha hs ih =>
      intro n
      have hchange := change_of_step (Honest.of_reach hr).nodeId hs
      cases hchange with
      | client _ _ _ _ _ delivered =>
        rw [arrived_congr delivered]
        exact ih n
      | emit _ _ _ _ _ _ delivered =>
        rw [arrived_congr delivered]
        exact ih n
      | own _ _ _ _ _ _ _ _ _ delivered =>
        rw [arrived_congr delivered]
        exact ih n
      | deliver m msg mem _ _ delivered =>
        rw [arrived_concat delivered]
        by_cases hk : n = m ∧ id = msg.xactId
        · rw [if_pos hk]
          obtain ⟨rfl, rfl⟩ := hk
          have hnew : msg ∉ arrived _ n msg.xactId := fun hmem => ha rfl (mem_arrived.mp hmem).1
          exact List.nodup_append.mpr ⟨ih n, by simp, by
            intro x hx y hy
            rw [List.mem_singleton.mp hy]
            exact fun heq => hnew (heq ▸ hx)⟩
        · rw [if_neg hk, List.append_nil]
          exact ih n

/-! ## The messages of a transaction whose id is unique -/

namespace Honest

variable {data : Bytes} {P : BitSet}

/-- What opens the ballot at a node is the transaction itself, or a `Prepare` with its data. -/
theorem recv_data (h : Honest st) (hid : st.Unique id data) (hp : st.proc n id = some p)
    {m : XsMessage} (hm : .recv m ∈ p.log) :
    (∃ v, m = .vote v) ∨ (∃ tx, m = .localXact data tx ∧ n = id.nodeId) ∨
      ∃ msg, m = .prepare msg ∧ msg.data = data ∧ n ≠ id.nodeId := by
  cases m with
  | vote v => exact Or.inl ⟨v, rfl⟩
  | localXact data' tx =>
    obtain ⟨hmem, hn⟩ := h.recv_local hp hm
    obtain rfl := hid.data_eq hmem
    exact Or.inr (Or.inl ⟨tx, rfl, hn.symm⟩)
  | prepare msg =>
    obtain ⟨-, hne, -, c, messages, hc, hcall, -⟩ := h.prepare_from hp hm
    obtain ⟨oc, Pc, earlyc, latec, hstc⟩ := h.standing_of_broadcast hc hcall
    have hdata := h.prepared_data hp hm hc hstc
    exact Or.inr (Or.inr ⟨msg, rfl, hdata.symm.trans (h.data_eq hc hstc hid), hne⟩)

/-- All nodes are sent the same `Prepare`. -/
theorem sent_prepare_unique (h : Honest st) {k : NodeId} {msg msg' : PrepareMessage}
    (hs : (n, .prepare msg) ∈ st.sent) (hs' : (k, .prepare msg') ∈ st.sent)
    (hx : msg.xactId = msg'.xactId) : msg = msg' := by
  obtain ⟨-, -, c, messages, hc, hcall, hmem⟩ := h.sent_prepare hs
  obtain ⟨-, -, c', messages', hc', hcall', hmem'⟩ := h.sent_prepare hs'
  rw [← hx] at hc'
  obtain rfl : c = c' := Option.some.inj (hc.symm.trans hc')
  obtain ⟨oc, Pc, earlyc, latec, hstc⟩ := h.standing_of_broadcast hc hcall
  have hreq := (hstc.announces hcall hmem).1
  rw [← (hstc.announces hcall' hmem').1] at hreq
  exact PeerMessage.prepare.inj hreq

theorem prepare_unique (h : Honest st) {k : NodeId} {q : XactProc} (hp : st.proc n id = some p)
    (hq : st.proc k id = some q) {msg msg' : PrepareMessage} (hm : .recv (.prepare msg) ∈ p.log)
    (hm' : .recv (.prepare msg') ∈ q.log) : msg = msg' := by
  obtain ⟨hs, hx⟩ := h.recv_request hp hm rfl
  obtain ⟨hs', hx'⟩ := h.recv_request hq hm' rfl
  exact h.sent_prepare_unique hs hs' (XactId.mk.inj (hx.trans hx'.symm))

/-- A vote that went out comes from a participant other than the coordinator and the node itself. -/
theorem sender_of_sent (h : Honest st) (hid : st.Unique id data) {v : VoteMessage}
    (hs : (n, .vote v) ∈ st.sent) (hx : (⟨v.xactId⟩ : XactId) = id) :
    (⟨v.from⟩ : NodeId) ≠ n ∧ (⟨v.from⟩ : NodeId) ≠ id.nodeId ∧
      ∃ P, RWSet.participantsIn data = some P ∧ (⟨v.from⟩ : NodeId).toUsize ∈ P := by
  obtain ⟨q, messages, hq, hcall, hmem⟩ := h.sent_vote hs
  rw [hx] at hq
  obtain ⟨msg, r, P, early, late, hne, hst⟩ := h.surrogate_of_vote hq hcall hmem
  have hdec := hst.decoded
  rw [h.data_eq hq hst hid] at hdec
  exact ⟨(hst.announces hcall hmem).2.1.symm, hne, P, hdec, (hst.member msg r rfl).2⟩

/-- A vote comes from a participant other than the coordinator and the node itself. -/
theorem sender_of_vote (h : Honest st) (hid : st.Unique id data)
    (hP : RWSet.participantsIn data = some P) (hp : st.proc n id = some p) {v : VoteMessage}
    (hv : .recv (.vote v) ∈ p.log) :
    (⟨v.from⟩ : NodeId) ≠ n ∧ (⟨v.from⟩ : NodeId) ≠ id.nodeId ∧
      (⟨v.from⟩ : NodeId).toUsize ∈ P := by
  obtain ⟨hs, hx⟩ := h.recv_request hp hv rfl
  obtain ⟨hne, hnode, P', hP', hmem⟩ := h.sender_of_sent hid hs hx
  obtain rfl : P = P' := Option.some.inj (hP.symm.trans hP')
  exact ⟨hne, hnode, hmem⟩

/-- Two votes of one sender are the same. -/
theorem sent_vote_unique (h : Honest st) {v w : VoteMessage} (hv : (n, .vote v) ∈ st.sent)
    (hw : (n, .vote w) ∈ st.sent) (hx : v.xactId = w.xactId) (hfrom : v.from = w.from) : v = w := by
  obtain ⟨q, messages, hq, hcall, hmem⟩ := h.sent_vote hv
  obtain ⟨q', messages', hq', hcall', hmem'⟩ := h.sent_vote hw
  rw [← hfrom, ← hx] at hq'
  obtain rfl : q = q' := Option.some.inj (hq.symm.trans hq')
  obtain ⟨o, Pq, earlyq, lateq, hst⟩ := h.standing_of_broadcast hq hcall
  have hreq := (hst.announces hcall hmem).1
  rw [← (hst.announces hcall' hmem').1] at hreq
  exact PeerMessage.vote.inj hreq

theorem vote_unique (h : Honest st) (hp : st.proc n id = some p) {v w : VoteMessage}
    (hv : .recv (.vote v) ∈ p.log) (hw : .recv (.vote w) ∈ p.log) (hfrom : v.from = w.from) :
    v = w := by
  obtain ⟨hs, hx⟩ := h.recv_request hp hv rfl
  obtain ⟨hs', hx'⟩ := h.recv_request hp hw rfl
  exact h.sent_vote_unique hs hs' (XactId.mk.inj (hx.trans hx'.symm)) hfrom

/-- No vote comes in before the coordinator has broadcast the transaction. -/
theorem broadcast_of_vote (h : Honest st) (hp : st.proc n id = some p) {v : VoteMessage}
    (hv : .recv (.vote v) ∈ p.log) :
    ∃ c messages, st.proc id.nodeId id = some c ∧ .call (.sendToAll messages) ∈ c.log := by
  obtain ⟨q, messages, hq, hcall, hmem⟩ := h.vote_from hp hv
  obtain ⟨msg, r, Pq, earlyq, lateq, -, hst⟩ := h.surrogate_of_vote hq hcall hmem
  obtain ⟨-, -, -, c, messages', hc, hcall', -⟩ := h.prepare_from hq hst.message_mem
  exact ⟨c, messages', hc, hcall'⟩

/-- The reasons in a ballot are those of executions that failed. -/
theorem genuine_of_lost (h : Honest st) (hroot : Rooted st) (hp : st.proc n id = some p)
    {o : Opening} {early late : List VoteMessage}
    (hst : Standing id n (XactProc.status p) p.log o P early late) {i : Nat}
    {reason : RollbackReason}
    (hd : decision P (o.votes n ++ (early ++ late).map VoteMessage.cast) = .rollback i reason) :
    reason.Genuine := by
  obtain ⟨m, -, -, hf | ⟨q, msg, w, -, -, -, -, -, k, -, -, hf⟩⟩ := h.blame hroot hp hst hd
  · obtain ⟨q, data, e, -, -, hreason⟩ := hf
    exact ⟨e, hreason⟩
  · obtain ⟨q', data, e, -, -, hreason⟩ := hf
    exact ⟨e, hreason⟩

end Honest

/-! ## How a state manager ends -/

/-- The state manager has carried out the decision of its ballot. -/
def Finished (id : XactId) (n : NodeId) (p : XactProc) : Prop :=
  ∃ (S : Session n) (late : List VoteMessage) (e : Effect),
    S.Seen id (XactProc.status p) p.log late [e] ∧
    S.opening.closing id (S.decision late) = some e ∧
    XactProc.status p = .finalOf (S.decision late) ∧ .ret e (.ok ()) ∈ p.log ∧
    .ret (S.broadcast id) (.ok ()) ∈ p.log

namespace Calm

variable {data : Bytes} {P : BitSet} {fails : Effect → Bool}

/-- The messages that came from peers, each once. -/
theorem peers_nodup (hc : Calm st id fails) (h : Honest st) (hp : st.proc n id = some p) :
    ((recvs p.log).filterMap XsMessage.peer).Nodup := by
  have hgot := (h.recorded.peers n id p hp).sublist.nodup (hc.once n)
  unfold Proc.received at hgot
  rw [List.filterMap_append] at hgot
  exact hgot.sublist (List.sublist_append_left _ _)

/-- A transaction is handed over once. -/
theorem handed_once (h : Honest st) (hid : st.Unique id data) (hp : st.proc n id = some p) :
    ((recvs p.log).filterMap XsMessage.handed).length ≤ 1 := by
  have hgot := (h.recorded.locals n id p hp).sublist
  unfold Proc.received at hgot
  rw [List.filterMap_append] at hgot
  have hlen := (((List.sublist_append_left _ _).trans hgot).length_le).trans
    (le_of_eq (List.length_map _))
  refine hlen.trans ?_
  have hsub : List.Sublist (st.assigned.filter fun a => a.1 = id ∧ id.nodeId = n)
      (st.assigned.filter fun a => a.1 = id) :=
    List.monotone_filter_right _ (by intro a; simp +contextual)
  rw [hid] at hsub
  exact hsub.length_le

/-- What opened the ballot does not come again. -/
theorem opens_once (hc : Calm st id fails) (h : Honest st) (hid : st.Unique id data)
    (hp : st.proc n id = some p) {m m' : XsMessage} (hm : m.opens = true) (hm' : m'.opens = true)
    {l l' : XactLog} (hlog : p.log = l ++ [.recv m] ++ l' ++ [.recv m']) : False := by
  have hmem : .recv m ∈ p.log := by simp [hlog]
  have hmem' : .recv m' ∈ p.log := by simp [hlog]
  rcases h.recv_data hid hp hmem with ⟨v, rfl⟩ | ⟨tx, rfl, hn⟩ | ⟨msg, rfl, -, hn⟩
  · exact absurd hm (by simp [XsMessage.opens])
  · rcases h.recv_data hid hp hmem' with ⟨v, rfl⟩ | ⟨tx', rfl, -⟩ | ⟨msg', rfl, -, hn'⟩
    · exact absurd hm' (by simp [XsMessage.opens])
    · have hlen := handed_once h hid hp
      rw [hlog] at hlen
      simp only [recvs_append, recvs_recv, recvs_nil, List.filterMap_append, List.filterMap_cons,
        XsMessage.handed, List.filterMap_nil, List.length_append, List.length_cons,
        List.length_nil] at hlen
      omega
    · exact hn' hn
  · rcases h.recv_data hid hp hmem' with ⟨v, rfl⟩ | ⟨tx', rfl, hn'⟩ | ⟨msg', rfl, -, -⟩
    · exact absurd hm' (by simp [XsMessage.opens])
    · exact hn hn'
    · obtain rfl := h.prepare_unique hp hp hmem hmem'
      have hnodup := hc.peers_nodup h hp
      rw [hlog] at hnodup
      simp only [recvs_append, recvs_recv, recvs_nil, List.filterMap_append, List.filterMap_cons,
        XsMessage.peer, List.filterMap_nil] at hnodup
      have hdisj := (List.nodup_append.mp hnodup).2.2 (.prepare msg) (by simp) (.prepare msg)
        (by simp)
      exact hdisj rfl

/-- The data of the transaction is refused nowhere among its participants. -/
theorem not_refused (h : Honest st) (hid : st.Unique id data)
    (hP : RWSet.participantsIn data = some P) (hn : n.toUsize ∈ P ∨ n = id.nodeId)
    (hp : st.proc n id = some p) {m : XsMessage} (hm : .recv m ∈ p.log) : ¬ m.Refused n := by
  intro href
  rcases h.recv_data hid hp hm with ⟨v, rfl⟩ | ⟨tx, rfl, -⟩ | ⟨msg, rfl, rfl, hne⟩
  · exact href
  · rw [show RWSet.participantsIn data = none from href] at hP
    exact absurd hP (by simp)
  · exact href P hP (hn.resolve_right hne)

/-- The votes that a surrogate kept do not go on after the ballot is carried. -/
theorem not_overrun (hc : Calm st id fails) (h : Honest st) (hid : st.Unique id data)
    (hP : RWSet.participantsIn data = some P) (hp : st.proc n id = some p)
    {early : List VoteMessage} {msg : PrepareMessage} {r : Answer}
    (hlog : p.log = taken early ++ [.recv (.prepare msg)] ++
      (Opening.surrogate msg r).executed id) :
    ¬ Overrun P ((Opening.surrogate msg r).votes n) (early.map VoteMessage.cast) := by
  have hrecv : ∀ v ∈ early, .recv (.vote v) ∈ p.log := by
    intro v hv
    rw [hlog]
    exact List.mem_append_left _ (List.mem_append_left _ (recv_mem_taken.mpr ⟨v, hv, rfl⟩))
  have hsender := fun v hv => h.sender_of_vote hid hP hp (hrecv v hv)
  obtain ⟨hfrom, hne, -⟩ := h.prepare_from hp (by simp [hlog] : .recv (.prepare msg) ∈ p.log)
  -- the votes came once each, and each sender sends one
  have hearly : early.Nodup := by
    have hpeers : (recvs p.log).filterMap XsMessage.peer =
        early.map PeerMessage.vote ++ [.prepare msg] := by
      have htaken : (recvs (taken early)).filterMap XsMessage.peer =
          early.map PeerMessage.vote := by
        induction early with
        | nil => rfl
        | cons v early ih =>
          simp [taken, recvs, XsMessage.peer, List.filterMap_map, Function.comp_def]
      rw [hlog]
      simp [htaken, Opening.executed, XsMessage.peer]
    have hnodup := hc.peers_nodup h hp
    rw [hpeers] at hnodup
    exact (hnodup.sublist (List.sublist_append_left _ _)).of_map
  have hcast : ((early.map VoteMessage.cast).map Prod.fst).Nodup := by
    rw [List.map_map]
    refine hearly.map_on fun v hv w hw heq => ?_
    have hvw : (⟨v.from⟩ : NodeId) = ⟨w.from⟩ := NodeId.toUsize_inj.mp heq
    exact h.vote_unique hp (hrecv v hv) (hrecv w hw) (NodeId.mk.inj hvw)
  apply not_overrun_of_nodup
  · simp only [Opening.votes, List.cons_append, List.nil_append, List.map_cons, List.nodup_cons,
      List.mem_cons, hcast, and_true]
    refine ⟨?_, ?_⟩
    · rintro (heq | hmem)
      · exact hne ((NodeId.toUsize_inj.mp heq).symm.trans hfrom)
      · obtain ⟨w, hw, heq⟩ := List.mem_map.mp hmem
        obtain ⟨v, hv, rfl⟩ := List.mem_map.mp hw
        exact (hsender v hv).2.1 ((NodeId.toUsize_inj.mp heq).trans hfrom)
    · intro hmem
      obtain ⟨w, hw, heq⟩ := List.mem_map.mp hmem
      obtain ⟨v, hv, rfl⟩ := List.mem_map.mp hw
      exact (hsender v hv).1 (NodeId.toUsize_inj.mp heq)
  · intro w hw
    obtain ⟨v, hv, rfl⟩ := List.mem_map.mp hw
    exact (hsender v hv).2.2

/-- The coordinator has no decision before it broadcasts. -/
theorem not_decided (h : Honest st) (hid : st.Unique id data)
    (hP : RWSet.participantsIn data = some P) {t : NodeId} (ht : t.toUsize ∈ P)
    (htc : t ≠ id.nodeId) (hp : st.proc n id = some p) {early : List VoteMessage}
    {data' : Bytes} {tx : Sender} {P' : BitSet} (hP' : RWSet.participantsIn data' = some P')
    (hlog : p.log = taken early ++ [.recv (.localXact data' tx)]) :
    decision P' ((Opening.coordinator data' tx).votes n ++ early.map VoteMessage.cast) =
      .waiting := by
  obtain ⟨hmem, hn⟩ := h.recv_local hp (by simp [hlog] : .recv (.localXact data' tx) ∈ p.log)
  obtain rfl := hid.data_eq hmem
  obtain rfl : P = P' := Option.some.inj (hP.symm.trans hP')
  have hearly : early = [] := by
    cases early with
    | nil => rfl
    | cons v early =>
      have hv : .recv (.vote v) ∈ p.log := by simp [hlog, taken]
      obtain ⟨c, messages, hcproc, hcall⟩ := h.broadcast_of_vote hp hv
      rw [hn] at hcproc
      obtain rfl : p = c := Option.some.inj (hp.symm.trans hcproc)
      rw [hlog] at hcall
      exact absurd hcall (by simp)
  rw [hearly]
  have hcommit : decision P ((Opening.coordinator data' tx).votes n) ≠ .commit := by
    intro hd
    have hyes := (yes_of_commit hd).2 _ ht
    have heq : t.toUsize = n.toUsize := by simpa [Opening.votes] using hyes
    exact htc ((NodeId.toUsize_inj.mp heq).trans hn.symm)
  cases hd : decision P ((Opening.coordinator data' tx).votes n) with
  | waiting => simpa using hd
  | commit => exact absurd hd hcommit
  | rollback i reason => exact absurd (no_of_rollback hd).2 (by simp [Opening.votes])

/-- **How a state manager ends.** A state manager of a participant that has ended has carried its
decision out, or its broadcast failed. -/
theorem ended (hc : Calm st id fails) (h : Honest st) (hroot : Rooted st)
    (hfails : ∀ e : Effect, e.isExecute = false → e.isSendToAll = false → fails e = false)
    (hid : st.Unique id data) (hP : RWSet.participantsIn data = some P) {t : NodeId}
    (ht : t.toUsize ∈ P) (htc : t ≠ id.nodeId) (hn : n.toUsize ∈ P ∨ n = id.nodeId)
    (hp : st.proc n id = some p) (hhalt : p.task.isHalted = true) :
    Finished id n p ∨ ∃ messages e, .ret (.sendToAll messages) (.error e) ∈ p.log := by
  have hstage := h.stage hp
  obtain ⟨s, why, htask⟩ : ∃ s why, p.task = .halted s why := by
    cases htask : p.task with
    | halted s why => exact ⟨s, why, rfl⟩
    | _ => rw [htask] at hhalt; exact absurd hhalt (by simp [Task.isHalted])
  have hwhy : why ≠ .cancelled := fun heq => hc.running n p s hp (heq ▸ htask)
  rw [htask] at hstage
  generalize hpt : Point.ofTask (.halted s why) = pt at hstage
  generalize hst : XactProc.status p = status at hstage
  generalize hl : p.log = log at hstage
  cases hstage with
  | unknown early => exact absurd hpt (by simp [Point.ofTask])
  | executing early msg P' hP' hn' hfrom => exact absurd hpt (by simp [Point.ofTask])
  | refused early m hm why' hwhy' =>
    exact absurd hm (not_refused h hid hP hn hp (by simp [hl]))
  | decided early data' tx P' hP' vs hvs hd f =>
    rw [hvs] at hd
    exact absurd (not_decided h hid hP ht htc hp hP' hl) hd
  | overrun early msg P' hP' hn' hfrom r hover f =>
    obtain ⟨v, hv⟩ | ⟨tx, hv, -⟩ | ⟨msg', hv, hdata, -⟩ :=
      h.recv_data hid hp (by simp [hl] : .recv (.prepare msg) ∈ p.log)
    · exact absurd hv (by simp)
    · exact absurd hv (by simp)
    · obtain rfl := XsMessage.prepare.inj hv
      rw [hdata, hP] at hP'
      obtain rfl := Option.some.inj hP'
      exact absurd hover (hc.not_overrun h hid hP hp hl)
  | stopped hpt' hstage' => exact absurd (by simpa [Point.ofTask] using hpt) hwhy
  | session S htail =>
    cases htail with
    | announcing => exact absurd hpt (by simp [Point.ofTask])
    | voting late hd => exact absurd hpt (by simp [Point.ofTask])
    | closing late e he => exact absurd hpt (by simp [Point.ofTask])
    | unannounced e f =>
      exact Or.inr ⟨_, e, List.mem_append_right _ (List.mem_singleton.mpr rfl)⟩
    | reopened late hd m hm status hs why' hwhy' =>
      have hopens : S.opening.message.opens = true := by cases S.opening <;> rfl
      have hlog : p.log = taken S.early ++ [.recv S.opening.message] ++
          (S.opening.executed id ++ [.call (S.broadcast id)] ++
            [.ret (S.broadcast id) (.ok ())] ++ taken late) ++ [.recv m] := by
        simp [hl, Session.voting, Session.opened]
      exact (hc.opens_once h hid hp hopens hm hlog).elim
    | unclosed late e he x f =>
      have hret : .ret e (.error x) ∈ p.log := by simp [hl]
      have hfe : fails e = false := by
        rcases Opening.closing_cases he with ⟨-, hcm, -⟩ | ⟨-, -, hrb⟩
        · exact hfails e (by cases e <;> simp_all [Effect.isCommit, Effect.isExecute])
            (by cases e <;> simp_all [Effect.isCommit, Effect.isSendToAll])
        · exact hfails e (by cases e <;> simp_all [Effect.isRollback, Effect.isExecute])
            (by cases e <;> simp_all [Effect.isRollback, Effect.isSendToAll])
      exact absurd (hc.answers n p e _ hp hret hfe) (by simp)
    | closed late e he =>
      refine Or.inl ⟨S, late, e, ?_, he, hst, by simp [hl], by simp [hl, Session.voting]⟩
      rw [hst, hl]
      exact Session.seen_closing he rfl (by simp) (Or.inr rfl)
    | unlabelled late e he f f' hf =>
      have hseen : S.Seen id (XactProc.status p) p.log late [e] := by
        rw [hst, hl]
        exact Session.seen_closing he rfl (by simp) (Or.inr rfl)
      have hd := Opening.closing_cases he
      rcases hd with ⟨hd, -⟩ | ⟨⟨i, reason, hd⟩, -⟩
      · rw [hd] at hf
        exact absurd hf (by simp [XactStatus.finalOf, getRollbackReasonLabel])
      · obtain ⟨label, hlabel⟩ :=
          (h.genuine_of_lost hroot hp hseen.standing hd).label (NodeId.ofUsize i)
        rw [hd] at hf
        exact absurd (hlabel.symm.trans hf) (by simp)

end Calm

end Cluster

end Sunstorm
