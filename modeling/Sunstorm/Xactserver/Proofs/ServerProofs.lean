import Sunstorm.Xactserver.Proofs.FrontProofs
import Sunstorm.Xactserver.Proofs.RefinementProofs

/-!
# Proofs: from the reply to a client to the databases

The servers only move messages about and let the cluster and the databases make their steps. What a
state manager has received as a local transaction was read from one client, and what a client is told
about its transaction was decided by the one state manager that got it.
-/

namespace Sunstorm

open Await Postgres Tally

/-! ## What a step of the cluster leaves in the channels and in the logs -/

namespace Cluster

variable {st st' : Cluster} {k : NodeId} {id : XactId} {p' : XactProc} {a : Action}

/-- What a state manager has received was received before, or comes with the action. -/
theorem Change.received_cases (h : Change st st' a) (hp' : st'.proc k id = some p')
    {m : XsMessage} (hm : m ∈ p'.received) :
    (∃ p, st.proc k id = some p ∧ m ∈ p.received) ∨
      (∃ data tx, a = .client k data tx ∧ id = st.nextId k ∧ m = .localXact data tx) ∨
      ∃ msg, m = XsMessage.ofPeer msg := by
  have hpost : ∀ n x msg, st.procsWith n x (st.posted n x msg) k id = some p' →
      (∃ p, st.proc k id = some p ∧ m ∈ p.received) ∨ k = n ∧ id = x ∧ m = msg := by
    intro n x msg hk
    by_cases hown : k = n ∧ id = x
    · obtain ⟨rfl, rfl⟩ := hown
      rw [procsWith_self] at hk
      obtain rfl := Option.some.inj hk
      rcases Proc.mem_received_post hm with hold | rfl
      · cases hp : st.proc k id with
        | some p =>
          rw [hp] at hold
          exact Or.inl ⟨p, rfl, hold⟩
        | none =>
          rw [hp] at hold
          exact absurd hold List.not_mem_nil
      · exact Or.inr ⟨rfl, rfl, rfl⟩
    · rw [procsWith_other hown] at hk
      exact Or.inl ⟨p', hk, hm⟩
  cases h with
  | client n data tx procs =>
    rw [procs] at hp'
    rcases hpost _ _ _ hp' with hold | ⟨rfl, hid, hmsg⟩
    · exact Or.inl hold
    · exact Or.inr (Or.inl ⟨data, tx, rfl, hid, hmsg⟩)
  | deliver n msg mem procs =>
    rw [procs] at hp'
    rcases hpost _ _ _ hp' with hold | ⟨-, -, hmsg⟩
    · exact Or.inl hold
    · exact Or.inr (Or.inr ⟨msg, hmsg⟩)
  | emit n x envelope mem procs =>
    rw [procs] at hp'
    exact Or.inl ⟨p', hp', hm⟩
  | own _ n x q q' hq ha procs =>
    rw [procs] at hp'
    by_cases hown : k = n ∧ id = x
    · obtain ⟨rfl, rfl⟩ := hown
      rw [procsWith_self] at hp'
      obtain rfl := Option.some.inj hp'
      obtain ⟨dropped, hreceived, -⟩ := ha.step.received
      refine Or.inl ⟨q, hq, ?_⟩
      rw [hreceived]
      exact List.mem_append_left _ hm
    · rw [procsWith_other hown] at hp'
      exact Or.inl ⟨p', hp', hm⟩

/-- What is awaited is what the task shows. -/
theorem awaited_of_busy {p : XactProc} (hp : st.proc k id = some p) {s : XactStateManager}
    {e : Effect} {next : Answer → Prog XactStateManager Effect Answer
      (Except Failure Bool × XactStateManager)} (ht : p.task = .busy s e next) :
    st.awaited k id = some e := by
  obtain ⟨inbox, task, log⟩ := p
  obtain rfl : task = _ := ht
  unfold awaited
  rw [hp]

theorem busy_of_awaited {e : Effect} (h : st.awaited k id = some e) :
    ∃ p s next, st.proc k id = some p ∧ p.task = .busy s e next := by
  unfold awaited at h
  cases hp : st.proc k id with
  | none =>
    rw [hp] at h
    exact absurd h (by simp)
  | some p =>
    obtain ⟨inbox, task, log⟩ := p
    rw [hp] at h
    cases task with
    | busy s e' next =>
      obtain rfl := Option.some.inj h
      exact ⟨_, s, next, rfl, rfl⟩
    | idle s => exact absurd h (by simp)
    | halted s why => exact absurd h (by simp)

/-- An answer in a log is an old one, or the action is this answer. -/
theorem Change.ret_cases (h : Change st st' a) (hp' : st'.proc k id = some p') {e : Effect}
    {r : Answer} (hret : .ret e r ∈ p'.log) :
    (∃ p, st.proc k id = some p ∧ .ret e r ∈ p.log) ∨
      a = .answer k id r ∧ st.awaited k id = some e := by
  rcases h.event_cases hp' hret with hold | ⟨p, hp, hown, -⟩
  · exact Or.inl hold
  · rcases hown.ret_mem hret with hold | ⟨ha, -, s, next, ht⟩
    · exact Or.inl ⟨p, hp, hold⟩
    · exact Or.inr ⟨ha, awaited_of_busy hp ht⟩

end Cluster

namespace Federation

variable {w w' : Federation} {a : Act} {k : NodeId} {id : XactId} {p' : XactProc}

/-- What a step does to the cluster: nothing, the step that it names, or the answer to what was
asked of PostgreSQL. -/
theorem cluster_cases (h : w.step a = some w') :
    w'.cluster = w.cluster ∨ (∃ c txn, a = .cluster c txn ∧ w.cluster.step c = some w'.cluster) ∨
      ∃ n x txn r, a = .finish n x txn ∧ w.sql n x ≠ none ∧
        w.cluster.step (.answer n x r) = some w'.cluster := by
  cases a with
  | cluster c txn =>
    obtain ⟨-, h⟩ := Option.ite_none_right_eq_some.mp h
    obtain ⟨st, hst, rfl⟩ := Option.map_eq_some_iff.mp h
    refine Or.inr (Or.inl ⟨c, txn, rfl, ?_⟩)
    rw [follow_cluster]
    exact hst
  | statement n x o =>
    unfold step at h
    dsimp only at h
    cases hsql : w.sql n x with
    | none =>
      rw [hsql] at h
      exact absurd h (by simp)
    | some prog =>
      cases prog with
      | done y =>
        rw [hsql] at h
        exact absurd h (by simp)
      | await u stmt next =>
        rw [hsql] at h
        obtain ⟨y, -, rfl⟩ := Option.map_eq_some_iff.mp h
        exact Or.inl rfl
  | finish n x txn =>
    unfold step at h
    dsimp only at h
    cases hsql : w.sql n x with
    | none =>
      rw [hsql] at h
      exact absurd h (by simp)
    | some prog =>
      cases prog with
      | await u stmt next =>
        rw [hsql] at h
        exact absurd h (by simp)
      | done y =>
        obtain ⟨r, u⟩ := y
        rw [hsql] at h
        obtain ⟨st, hst, rfl⟩ := Option.map_eq_some_iff.mp h
        exact Or.inr (Or.inr ⟨n, x, txn, r, rfl, by rw [hsql]; simp, hst⟩)

/-- A local transaction that a state manager has received was received before, or comes with the
step. -/
theorem local_cases (h : Lawful w) (hs : w.step a = some w')
    (hp' : w'.cluster.proc k id = some p') {data : Bytes} {tx : Sender}
    (hm : .localXact data tx ∈ p'.received) :
    (∃ p, w.cluster.proc k id = some p ∧ .localXact data tx ∈ p.received) ∨
      ∃ txn, a = .cluster (.client k data tx) txn ∧ id = w.cluster.nextId k := by
  rcases cluster_cases hs with heq | ⟨c, txn, rfl, hc⟩ | ⟨n, x, txn, r, rfl, -, hc⟩
  · rw [heq] at hp'
    exact Or.inl ⟨p', hp', hm⟩
  · rcases (Cluster.change_of_step h.honest.nodeId hc).received_cases hp' hm with
      hold | ⟨data', tx', hcl, hid, hmsg⟩ | ⟨msg, hmsg⟩
    · exact Or.inl hold
    · obtain ⟨rfl, rfl⟩ := XsMessage.localXact.inj hmsg
      exact Or.inr ⟨txn, by rw [hcl], hid⟩
    · cases msg <;> exact absurd hmsg (by simp [XsMessage.ofPeer])
  · rcases (Cluster.change_of_step h.honest.nodeId hc).received_cases hp' hm with
      hold | ⟨data', tx', hcl, -, -⟩ | ⟨msg, hmsg⟩
    · exact Or.inl hold
    · exact absurd hcl (by simp)
    · cases msg <;> exact absurd hmsg (by simp [XsMessage.ofPeer])

/-- The answer to a broadcast is an old one, or comes with the step. -/
theorem broadcast_cases (h : Lawful w) (hs : w.step a = some w')
    (hp' : w'.cluster.proc k id = some p') {messages : List (NodeId × PeerMessage)} {r : Answer}
    (hret : .ret (.sendToAll messages) r ∈ p'.log) :
    (∃ p, w.cluster.proc k id = some p ∧ .ret (.sendToAll messages) r ∈ p.log) ∨
      ∃ txn, a = .cluster (.answer k id r) txn ∧
        w.cluster.awaited k id = some (.sendToAll messages) := by
  rcases cluster_cases hs with heq | ⟨c, txn, rfl, hc⟩ | ⟨n, x, txn, r', rfl, hsql, hc⟩
  · rw [heq] at hp'
    exact Or.inl ⟨p', hp', hret⟩
  · rcases (Cluster.change_of_step h.honest.nodeId hc).ret_cases hp' hret with hold | ⟨rfl, ha⟩
    · exact Or.inl hold
    · exact Or.inr ⟨txn, rfl, ha⟩
  · rcases (Cluster.change_of_step h.honest.nodeId hc).ret_cases hp' hret with hold | ⟨hx, ha⟩
    · exact Or.inl hold
    · -- what was asked of PostgreSQL is no broadcast
      obtain ⟨rfl, rfl, rfl⟩ := Cluster.Action.answer.inj hx
      cases hprog : w.sql n x with
      | none => exact absurd hprog hsql
      | some prog =>
        obtain ⟨p, s, e, next, hp, ht, he⟩ := h.begun n x prog hprog
        obtain rfl := Option.some.inj ((Cluster.awaited_of_busy hp ht).symm.trans ha)
        exact absurd rfl he

end Federation

/-! ## One step of the servers -/

/-- What a step does that concerns the connections and the manager's channels of one node only. -/
inductive Front.Moved (overflowChecks : Bool) (self : Front) : Front → Prop where
  | connect : Moved overflowChecks self { self with connections := self.connections ++ [.start] }
  | io (i : Nat) (c : Connection) (hc : self.connections[i]? = some c) (self' : Front)
    (hp : Processed overflowChecks self i c self') : Moved overflowChecks self self'
  | receive (hhand : self.hand = none) (m : XsMessage)
    (localRx : Channel XsMessage channelCapacity) (hm : self.localRx.messages = m :: localRx.messages) :
    Moved overflowChecks self { self with hand := some m, localRx }
  | receivePeer (hhand : self.hand = none) (m : XsMessage)
    (remoteRx : Channel XsMessage channelCapacity)
    (hm : self.remoteRx.messages = m :: remoteRx.messages) :
    Moved overflowChecks self { self with hand := some m, remoteRx }
  | stop (hhand : self.hand = none) :
    Moved overflowChecks self
      { self with stopped := true, localRx := Channel.empty, remoteRx := Channel.empty }

namespace System

variable {overflowChecks : Bool} {s s' : System}

/-- What a step of the servers does. -/
inductive Moved (overflowChecks : Bool) (s s' : System) : Prop where
  | front (n : NodeId) (front : Front) (hf : (s.fronts n).Moved overflowChecks front)
    (h : s' = s.setFront n front)
  | accept (n : NodeId) (msg : PeerMessage) (remoteRx : Channel XsMessage channelCapacity)
    (hsent : (n, msg) ∈ s.federation.cluster.sent) (hopen : (s.fronts n).stopped = false)
    (hsend : (s.fronts n).remoteRx.send (XsMessage.ofPeer msg) = some remoteRx)
    (h : s' = ({ s with accepted := s.accepted ++ [(n, msg)] } : System).setFront n
      { s.fronts n with remoteRx })
  | pass (n : NodeId) (msg : XsMessage) (hhand : (s.fronts n).hand = some msg)
    (federation : Federation)
    (hfed : s.federation.step (.cluster (.ofMessage n msg) .idle) = some federation)
    (h : s' = { s.setFront n (s.handOver n msg) with federation })
  | answer (n : NodeId) (x : XactId) (r : Answer) (txn : Txn) (hanswer : s.canAnswer n x r = true)
    (federation : Federation)
    (hfed : s.federation.step (.cluster (.answer n x r) txn) = some federation)
    (h : s' = { s.setFront n (s.told n x r) with federation })
  | work (a : Federation.Act) (federation : Federation)
    (hclient : ∀ n data tx txn, a ≠ .cluster (.client n data tx) txn)
    (hdeliver : ∀ n msg txn, a ≠ .cluster (.deliver n msg) txn)
    (hanswer : ∀ n x r txn, a ≠ .cluster (.answer n x r) txn)
    (hfed : s.federation.step a = some federation) (h : s' = { s with federation })

theorem follow_cases {a : Federation.Act} (h : s.follow a = some s') :
    ∃ federation, s.federation.step a = some federation ∧ s' = { s with federation } := by
  obtain ⟨federation, hfed, rfl⟩ := Option.map_eq_some_iff.mp h
  exact ⟨federation, hfed, rfl⟩

theorem moved_of_receive {n : NodeId} {«from» : Bool} {front : Front}
    (h : (s.fronts n).receive «from» = some front) : (s.fronts n).Moved overflowChecks front := by
  unfold Front.receive at h
  obtain ⟨hbusy, h⟩ := Option.ite_none_left_eq_some.mp h
  have hhand : (s.fronts n).hand = none := by
    cases hhand : (s.fronts n).hand with
    | none => rfl
    | some m => exact absurd (Or.inl (by rw [hhand]; rfl)) hbusy
  cases «from» with
  | true =>
    obtain ⟨⟨m, localRx⟩, hrecv, rfl⟩ := Option.map_eq_some_iff.mp h
    exact .receive hhand m localRx (Channel.recv_messages hrecv)
  | false =>
    obtain ⟨⟨m, remoteRx⟩, hrecv, rfl⟩ := Option.map_eq_some_iff.mp h
    exact .receivePeer hhand m remoteRx (Channel.recv_messages hrecv)

/-- Every step of the servers is one of these. -/
theorem moved_of_step {a : Act} (h : s.step overflowChecks a = some s') :
    Moved overflowChecks s s' := by
  cases a with
  | connect n => exact .front n _ .connect (Option.some.inj h).symm
  | io n i x =>
    unfold step at h
    dsimp only at h
    cases hc : (s.fronts n).connections[i]? with
    | none =>
      rw [hc] at h
      exact absurd h (by simp)
    | some c =>
      rw [hc] at h
      obtain ⟨front, hfront, rfl⟩ := Option.map_eq_some_iff.mp h
      exact .front n front (.io i c hc front (Front.processed_of_process hfront)) rfl
  | accept n msg =>
    obtain ⟨htaken, h⟩ := Option.ite_none_right_eq_some.mp h
    obtain ⟨hsent, hopen⟩ := Bool.and_eq_true_iff.mp htaken
    obtain ⟨remoteRx, hsend, rfl⟩ := Option.map_eq_some_iff.mp h
    exact .accept n msg remoteRx (List.contains_iff_mem.mp hsent)
      (by simpa using hopen) hsend rfl
  | receive n «from» =>
    obtain ⟨front, hfront, rfl⟩ := Option.map_eq_some_iff.mp h
    exact .front n front (moved_of_receive hfront) rfl
  | pass n =>
    unfold step at h
    dsimp only at h
    cases hhand : (s.fronts n).hand with
    | none =>
      rw [hhand] at h
      exact absurd h (by simp)
    | some msg =>
      rw [hhand] at h
      obtain ⟨-, h⟩ := Option.ite_none_right_eq_some.mp h
      obtain ⟨federation, hfed, rfl⟩ := follow_cases h
      exact .pass n msg hhand federation hfed rfl
  | shutdown n =>
    obtain ⟨hhand, h⟩ := Option.ite_none_right_eq_some.mp h
    exact .front n _ (.stop (Option.isNone_iff_eq_none.mp hhand)) (Option.some.inj h).symm
  | work a =>
    have hquiet : ∀ (_ : ∀ n data tx txn, a ≠ .cluster (.client n data tx) txn)
        (_ : ∀ n msg txn, a ≠ .cluster (.deliver n msg) txn)
        (_ : ∀ n x r txn, a ≠ .cluster (.answer n x r) txn), s.follow a = some s' →
        Moved overflowChecks s s' := by
      intro hclient hdeliver hanswer h
      obtain ⟨federation, hfed, rfl⟩ := follow_cases h
      exact .work a federation hclient hdeliver hanswer hfed rfl
    cases a with
    | statement n x o => exact hquiet (by simp) (by simp) (by simp) h
    | finish n x txn => exact hquiet (by simp) (by simp) (by simp) h
    | cluster c txn =>
      cases c with
      | client n data tx => exact absurd h (by simp [step])
      | deliver n msg => exact absurd h (by simp [step])
      | answer n x r =>
        obtain ⟨hanswer, h⟩ := Option.ite_none_right_eq_some.mp h
        obtain ⟨federation, hfed, rfl⟩ := follow_cases h
        exact .answer n x r txn hanswer federation hfed rfl
      | emit n x envelope => exact hquiet (by simp) (by simp) (by simp) h
      | take n x => exact hquiet (by simp) (by simp) (by simp) h
      | stop n x => exact hquiet (by simp) (by simp) (by simp) h

/-- The databases and the cluster make a step of their own, or none. -/
theorem Moved.federation (h : Moved overflowChecks s s') :
    s'.federation = s.federation ∨ ∃ a, s.federation.step a = some s'.federation := by
  cases h with
  | front n front hf h' =>
    rw [h']
    exact Or.inl rfl
  | accept n msg remoteRx hsent hopen hsend h' =>
    rw [h']
    exact Or.inl rfl
  | pass n msg hhand federation hfed h' =>
    rw [h']
    exact Or.inr ⟨_, hfed⟩
  | answer n x r txn hanswer federation hfed h' =>
    rw [h']
    exact Or.inr ⟨_, hfed⟩
  | work a federation hclient hdeliver hanswer hfed h' =>
    rw [h']
    exact Or.inr ⟨a, hfed⟩

/-- **The servers are in front of a federation.** What the cluster and the databases do is one of
their own runs. -/
theorem federation_reach {history : NodeId → String → List GidEvent}
    (hr : Machine.Reach (step overflowChecks) (fun _ _ => True) (init history) s) :
    Machine.Reach Federation.step (fun _ _ => True) (Federation.init history) s.federation := by
  induction hr with
  | start => exact .start
  | step a _ _ hs ih =>
    rcases (moved_of_step hs).federation with heq | ⟨b, hb⟩
    · rw [heq]
      exact ih
    · exact .step b ih trivial hb

/-! ## What is told to the clients -/

/-- Some state manager of the node has decided this about the transaction whose sender it has, and
has sent it. -/
def Told (self : System) (n : NodeId) (commitTx : Sender) (decision : Option RollbackInfo) : Prop :=
  ∃ id p e, self.federation.cluster.proc n id = some p ∧ .call e ∈ p.log ∧
    e.decides = some (commitTx, decision)

/-- What holds of one connection of the node and of what is written on it. -/
structure Serves (overflowChecks : Bool) (s : System) (n : NodeId) (c : Connection) : Prop where
  replies : ∀ x ∈ c.exchanges, s.Told n x.commitTx x.decision ∧
    serializeRollbackInfo overflowChecks x.decision = .ok x.reply
  calm : ∀ f, c.query ≠ .panicked f

/-- What holds of the servers in every run. -/
structure Sound (overflowChecks : Bool) (s : System) : Prop where
  lawful : Federation.Lawful s.federation
  fronts : ∀ n, (s.fronts n).Sound
  received : ∀ n id p data commitTx, s.federation.cluster.proc n id = some p →
    .localXact data commitTx ∈ p.received → (id, data, commitTx) ∈ (s.fronts n).passed
  decisions : ∀ n commitTx decision, (s.fronts n).decisions commitTx = some decision →
    s.Told n commitTx decision
  serves : ∀ n (i : Nat) (c : Connection), (s.fronts n).connections[i]? = some c →
    s.Serves overflowChecks n c

section Told

variable {n : NodeId} {commitTx : Sender} {decision : Option RollbackInfo}

theorem told_of_awaited (h : Federation.Lawful s.federation) {x : XactId} {e : Effect}
    (ha : s.federation.cluster.awaited n x = some e) (he : e.decides = some (commitTx, decision)) :
    s.Told n commitTx decision := by
  obtain ⟨p, state, next, hp, ht⟩ := Cluster.busy_of_awaited ha
  exact ⟨x, p, e, hp, ((h.honest.served n).reach x p hp).awaiting ht, he⟩

/-- What was sent to a client stays sent. -/
theorem Told.mono (h : Federation.Lawful s.federation)
    (hfed : s'.federation = s.federation ∨ ∃ a, s.federation.step a = some s'.federation)
    (ht : s.Told n commitTx decision) : s'.Told n commitTx decision := by
  obtain ⟨id, p, e, hp, hcall, he⟩ := ht
  rcases hfed with heq | ⟨a, ha⟩
  · refine ⟨id, p, e, ?_, hcall, he⟩
    rw [heq]
    exact hp
  · obtain ⟨p', hp', hlog⟩ := Federation.log_step h ha hp
    exact ⟨id, p', e, hp', hlog.subset hcall, he⟩

theorem reply_of_decides {e : Effect} (he : e.decides = some (commitTx, decision)) :
    e.reply = some decision := by
  cases e with
  | replyCommit tx =>
    cases tx with
    | none => exact absurd he (by simp [Effect.decides])
    | some tx =>
      obtain ⟨-, rfl⟩ := Prod.mk.inj (Option.some.inj he)
      rfl
  | replyRollback tx info =>
    cases tx with
    | none => exact absurd he (by simp [Effect.decides])
    | some tx =>
      obtain ⟨-, rfl⟩ := Prod.mk.inj (Option.some.inj he)
      rfl
  | _ => exact absurd he (by simp [Effect.decides])

/-- What is sent to a client can be written. -/
theorem Told.writable (h : Federation.Lawful s.federation) (ht : s.Told n commitTx decision)
    {f : Failure} : serializeRollbackInfo overflowChecks decision ≠ .error f := by
  obtain ⟨id, p, e, hp, hcall, he⟩ := ht
  have hnumbered := reply_numbered ((h.honest.served n).reach id p hp) (mem_calls.mpr hcall)
    (reply_of_decides he)
  obtain ⟨w, hw⟩ := Reply.serialize_of_numbered hnumbered
  rw [hw overflowChecks]
  simp

theorem Serves.mono {c : Connection} (h : Federation.Lawful s.federation)
    (hfed : s'.federation = s.federation ∨ ∃ a, s.federation.step a = some s'.federation)
    (hs : s.Serves overflowChecks n c) : s'.Serves overflowChecks n c where
  replies := fun x hx => ⟨(hs.replies x hx).1.mono h hfed, (hs.replies x hx).2⟩
  calm := hs.calm

end Told

namespace Sound

variable {n : NodeId}

theorem init (history : NodeId → String → List GidEvent) :
    Sound overflowChecks (System.init history) where
  lawful := .init history
  fronts := fun _ => Front.Sound.init
  received := fun n id p data commitTx hp => absurd hp (by
    simp [System.init, Federation.init, Cluster.init, Cluster.proc, Manager.new])
  decisions := fun n commitTx decision h => absurd h (by simp [System.init, Front.init])
  serves := fun n i c hc => absurd hc (by simp [System.init, Front.init])

/-- The connections and the channels of one node. -/
theorem front_moved {front front' : Front} (h : front.Sound)
    (hf : front.Moved overflowChecks front') : front'.Sound := by
  cases hf with
  | connect => exact h.connect
  | io i c hc self' hp => exact h.processed hc hp
  | receive hhand m localRx hm =>
    refine h.channels rfl rfl rfl rfl ?_ h.peers fun x hx => h.locals x (by rw [hm]; simp [hx])
    unfold Front.underway
    rw [hm, hhand]
    rfl
  | receivePeer hhand m remoteRx hm =>
    refine h.channels rfl rfl rfl rfl ?_ (fun x hx => h.peers x (by rw [hm]; simp [hx])) h.locals
    have hnone := h.peers m (by rw [hm]; simp)
    unfold Front.underway
    rw [hhand]
    simp [hnone]
  | stop hhand => exact h.stop hhand

/-- The manager passes a message on. -/
theorem handed_over (h : Sound overflowChecks s) {msg : XsMessage}
    (hhand : (s.fronts n).hand = some msg) : (s.handOver n msg).Sound := by
  have hfront := h.fronts n
  cases msg with
  | localXact data commitTx =>
    refine hfront.channels rfl rfl rfl rfl ?_ hfront.peers hfront.locals
    unfold handOver Front.underway
    rw [hhand]
    simp [XsMessage.submission]
  | prepare msg =>
    refine hfront.channels rfl rfl rfl rfl ?_ hfront.peers hfront.locals
    unfold handOver Front.underway
    rw [hhand]
    rfl
  | vote msg =>
    refine hfront.channels rfl rfl rfl rfl ?_ hfront.peers hfront.locals
    unfold handOver Front.underway
    rw [hhand]
    rfl

/-- What the step of a federation leaves in the channels of the state managers, when it is no local
transaction that comes. -/
theorem received_step (h : Sound overflowChecks s) {a : Federation.Act} {federation : Federation}
    (hclient : ∀ n data tx txn, a ≠ .cluster (.client n data tx) txn)
    (hfed : s.federation.step a = some federation) {id : XactId} {p : XactProc} {data : Bytes}
    {commitTx : Sender} (hp : federation.cluster.proc n id = some p)
    (hm : .localXact data commitTx ∈ p.received) :
    (id, data, commitTx) ∈ (s.fronts n).passed := by
  rcases Federation.local_cases h.lawful hfed hp hm with ⟨q, hq, hold⟩ | ⟨txn, ha, -⟩
  · exact h.received n id q data commitTx hq hold
  · exact absurd ha (hclient _ _ _ _)

/-- What may stand in the place of the node `k`. -/
structure Renewed (overflowChecks : Bool) (s : System) (k : NodeId) (front : Front) : Prop where
  sound : front.Sound
  passed : ∀ x ∈ (s.fronts k).passed, x ∈ front.passed
  decisions : ∀ commitTx decision, front.decisions commitTx = some decision →
    s.Told k commitTx decision
  serves : ∀ (i : Nat) (c : Connection), front.connections[i]? = some c →
    s.Serves overflowChecks k c

theorem renewed (h : Sound overflowChecks s) (k : NodeId) :
    Renewed overflowChecks s k (s.fronts k) :=
  ⟨h.fronts k, fun _ hx => hx, h.decisions k, h.serves k⟩

theorem renewed_set (h : Sound overflowChecks s) {front : Front}
    (hfront : Renewed overflowChecks s n front) (k : NodeId) :
    Renewed overflowChecks s k (Function.update s.fronts n front k) := by
  by_cases hk : k = n
  · subst hk
    rw [Function.update_self]
    exact hfront
  · rw [Function.update_of_ne hk]
    exact h.renewed k

theorem of_renewed (h : Sound overflowChecks s) (hlawful : Federation.Lawful s'.federation)
    (hfederation : s'.federation = s.federation ∨
      ∃ a, s.federation.step a = some s'.federation)
    (hfronts : ∀ k, Renewed overflowChecks s k (s'.fronts k))
    (hreceived : ∀ k id p data commitTx, s'.federation.cluster.proc k id = some p →
      .localXact data commitTx ∈ p.received → (id, data, commitTx) ∈ (s'.fronts k).passed) :
    Sound overflowChecks s' where
  lawful := hlawful
  fronts := fun k => (hfronts k).sound
  received := hreceived
  decisions := fun k commitTx decision hd =>
    ((hfronts k).decisions commitTx decision hd).mono h.lawful hfederation
  serves := fun k i c hc => ((hfronts k).serves i c hc).mono h.lawful hfederation

/-- A step of one connection. -/
theorem renewed_processed (h : Sound overflowChecks s) {i : Nat} {c : Connection}
    (hc : (s.fronts n).connections[i]? = some c) {front : Front}
    (hp : Front.Processed overflowChecks (s.fronts n) i c front) :
    Renewed overflowChecks s n front := by
  have hsound := (h.fronts n).processed hc hp
  have hserves := h.serves n i c hc
  have hset : ∀ (f : Front) (c' : Connection), f.connections = (s.fronts n).connections →
      s.Serves overflowChecks n c' → ∀ (j : Nat) (d : Connection),
      (f.setConnection i c').connections[j]? = some d → s.Serves overflowChecks n d := by
    intro f c' hf hc' j d hd
    have hcf : f.connections[i]? = some c := by rw [hf]; exact hc
    rcases Front.connection_cases hcf hd with ⟨-, rfl⟩ | ⟨-, hold⟩
    · exact hc'
    · exact h.serves n j d (by rw [← hf]; exact hold)
  cases hp with
  | quiet query hnone hover hpanic =>
    refine ⟨hsound, fun _ hx => hx, h.decisions n, hset _ _ rfl ⟨hserves.replies, ?_⟩⟩
    intro f hf
    obtain ⟨data, commitTx, decision, -, hd, hserialize⟩ := hpanic f hf
    exact (h.decisions n commitTx decision hd).writable h.lawful hserialize
  | read bytes hquery =>
    exact ⟨hsound, fun _ hx => hx, h.decisions n, hset _ _ rfl ⟨hserves.replies, by simp⟩⟩
  | sent data commitTx hquery hopen localRx hsend =>
    exact ⟨hsound, fun _ hx => hx, h.decisions n, hset _ _ rfl ⟨hserves.replies, by simp⟩⟩
  | decided data commitTx decision reply hquery hdecision hreply =>
    refine ⟨hsound, fun _ hx => hx, h.decisions n, hset _ _ rfl ⟨fun x hx => ?_, by simp⟩⟩
    rcases List.mem_append.mp hx with hx | hx
    · exact hserves.replies x hx
    · obtain rfl := List.mem_singleton.mp hx
      exact ⟨h.decisions n commitTx decision hdecision, hreply⟩

theorem renewed_moved (h : Sound overflowChecks s) {front : Front}
    (hf : (s.fronts n).Moved overflowChecks front) : Renewed overflowChecks s n front := by
  have hsound := front_moved (h.fronts n) hf
  cases hf with
  | connect =>
    refine ⟨hsound, fun _ hx => hx, h.decisions n, fun i c hc => ?_⟩
    rcases List.mem_append.mp (List.mem_of_getElem? hc) with hmem | hmem
    · obtain ⟨j, hj⟩ := List.mem_iff_getElem?.mp hmem
      exact h.serves n j c hj
    · obtain rfl := List.mem_singleton.mp hmem
      exact ⟨fun x hx => absurd hx List.not_mem_nil, by simp [Connection.start]⟩
  | io i c hc self' hp => exact h.renewed_processed hc hp
  | receive hhand m localRx hm => exact ⟨hsound, fun _ hx => hx, h.decisions n, h.serves n⟩
  | receivePeer hhand m remoteRx hm => exact ⟨hsound, fun _ hx => hx, h.decisions n, h.serves n⟩
  | stop hhand => exact ⟨hsound, fun _ hx => hx, h.decisions n, h.serves n⟩

/-- A message leaves the hand of the manager. -/
theorem renewed_handed_over (h : Sound overflowChecks s) {msg : XsMessage}
    (hhand : (s.fronts n).hand = some msg) :
    Renewed overflowChecks s n (s.handOver n msg) := by
  have hsound := h.handed_over hhand
  cases msg with
  | localXact data commitTx =>
    exact ⟨hsound, fun x hx => List.mem_append_left _ hx, h.decisions n, h.serves n⟩
  | prepare msg => exact ⟨hsound, fun _ hx => hx, h.decisions n, h.serves n⟩
  | vote msg => exact ⟨hsound, fun _ hx => hx, h.decisions n, h.serves n⟩

/-- A state manager is answered. -/
theorem renewed_told (h : Sound overflowChecks s) (x : XactId) (r : Answer) :
    Renewed overflowChecks s n (s.told n x r) := by
  unfold told
  cases r with
  | error e => exact h.renewed n
  | ok u =>
    cases ha : s.federation.cluster.awaited n x with
    | none => exact h.renewed n
    | some e =>
      cases hd : e.decides with
      | none =>
        rw [Option.bind_some, hd]
        exact h.renewed n
      | some d =>
        rw [Option.bind_some, hd]
        refine ⟨(h.fronts n).channels rfl rfl rfl rfl rfl (h.fronts n).peers (h.fronts n).locals,
          fun _ hx => hx, fun commitTx decision hdecision => ?_, h.serves n⟩
        dsimp only at hdecision
        by_cases htx : commitTx = d.1
        · rw [htx, Function.update_self] at hdecision
          obtain rfl := Option.some.inj hdecision
          exact htx ▸ told_of_awaited h.lawful ha hd
        · rw [Function.update_of_ne htx] at hdecision
          exact h.decisions n commitTx decision hdecision

/-- One step. -/
theorem step (h : Sound overflowChecks s) {a : Act} (hs : s.step overflowChecks a = some s') :
    Sound overflowChecks s' := by
  have hmoved := moved_of_step hs
  have hfederation := hmoved.federation
  have hlawful : Federation.Lawful s'.federation := by
    rcases hfederation with heq | ⟨b, hb⟩
    · rw [heq]
      exact h.lawful
    · exact h.lawful.step hb
  have hof := h.of_renewed hlawful hfederation
  cases hmoved with
  | front n front hf h' =>
    subst h'
    have hfronts := h.renewed_set (h.renewed_moved hf)
    exact hof hfronts fun k id p data commitTx hp hm =>
      (hfronts k).passed _ (h.received k id p data commitTx hp hm)
  | accept n msg remoteRx hsent hopen hsend h' =>
    subst h'
    have hsound : Front.Sound { s.fronts n with remoteRx } := by
      refine (h.fronts n).channels rfl rfl rfl rfl rfl (fun m hm => ?_) (h.fronts n).locals
      rw [Channel.send_messages hsend, List.mem_append, List.mem_singleton] at hm
      rcases hm with hm | rfl
      · exact (h.fronts n).peers m hm
      · cases msg <;> rfl
    have hrenewed : Renewed overflowChecks s n { s.fronts n with remoteRx } :=
      ⟨hsound, fun _ hx => hx, h.decisions n, h.serves n⟩
    have hfronts := h.renewed_set hrenewed
    exact hof hfronts fun k id p data commitTx hp hm =>
      (hfronts k).passed _ (h.received k id p data commitTx hp hm)
  | pass n msg hhand federation hfed h' =>
    subst h'
    have hfronts := h.renewed_set (h.renewed_handed_over hhand)
    refine hof hfronts fun k id p data commitTx hp hm => ?_
    rcases Federation.local_cases h.lawful hfed hp hm with ⟨q, hq, hold⟩ | ⟨txn, ha, hid⟩
    · exact (hfronts k).passed _ (h.received k id q data commitTx hq hold)
    · -- the transaction comes from the manager, which has recorded it
      cases msg with
      | localXact data' commitTx' =>
        obtain ⟨rfl, rfl, rfl⟩ := Cluster.Action.client.inj (Federation.Act.cluster.inj ha).1
        unfold setFront
        dsimp only
        rw [Function.update_self]
        refine List.mem_append_right _ (List.mem_singleton.mpr ?_)
        rw [hid]
        unfold Cluster.nextId Manager.xactIdOf
        rw [h.lawful.honest.nodeId]
      | prepare msg => exact absurd ha (by simp [Cluster.Action.ofMessage])
      | vote msg => exact absurd ha (by simp [Cluster.Action.ofMessage])
  | answer n x r txn hanswer federation hfed h' =>
    subst h'
    have hfronts := h.renewed_set (h.renewed_told (n := n) x r)
    refine hof hfronts fun k id p data commitTx hp hm => (hfronts k).passed _ ?_
    exact h.received_step (fun n data tx txn => by simp) hfed hp hm
  | work a federation hclient hdeliver hanswer hfed h' =>
    subst h'
    refine hof h.renewed fun k id p data commitTx hp hm => ?_
    exact h.received_step hclient hfed hp hm

theorem of_reach {history : NodeId → String → List GidEvent}
    (hr : Machine.Reach (System.step overflowChecks) (fun _ _ => True) (System.init history) s) :
    Sound overflowChecks s :=
  hr.invariant (.init history) fun _ _ _ h _ hs => h.step hs

end Sound

end System

end Sunstorm
