import Sunstorm.Xactserver.Proofs.ClusterProofs
import Sunstorm.Xactserver.Proofs.StandingProofs

/-!
# Proofs: where the messages come from

In every run of the cluster, a request that went out is one that some state manager broadcast, and
what a state manager has received is what was delivered or handed over to its node. The opening of a
ballot and the votes in it can therefore be traced back to the nodes they name.
-/

namespace Sunstorm

open Await Tally

namespace Cluster

variable {st st' : Cluster} {n k : NodeId} {id : XactId} {p p' : XactProc}

/-- What the state managers have received is what came for them. -/
structure Recorded (st : Cluster) : Prop where
  peers : ∀ n id p, st.proc n id = some p → p.Got XsMessage.peer (st.arrived n id)
  locals : ∀ n id p, st.proc n id = some p → p.Got XsMessage.handed (st.handed n id)
  fresh : ∀ n id, st.proc n id = none → st.arrived n id = [] ∧ st.handed n id = []
  known : ∀ n id p, st.proc n id = some p → st.arrived n id ≠ [] ∨ st.handed n id ≠ []

/-- What holds in every run of the cluster. -/
structure Honest (st : Cluster) : Prop where
  served : ∀ n, Manager.Served (XsMessage.Foreign n) n (st.managers n)
  /-- A request that went out was broadcast. -/
  sent : ∀ envelope ∈ st.sent, ∃ n id p messages, st.proc n id = some p ∧
    .call (.sendToAll messages) ∈ p.log ∧ envelope ∈ messages
  delivered : ∀ envelope ∈ st.delivered, envelope ∈ st.sent
  recorded : Recorded st

/-! ## What the record of the cluster says after a step -/

theorem mem_arrived {msg : PeerMessage} :
    msg ∈ st.arrived n id ↔ (n, msg) ∈ st.delivered ∧ msg.xactId = id := by
  unfold arrived
  rw [List.mem_map]
  constructor
  · rintro ⟨⟨m, msg'⟩, he, rfl⟩
    obtain ⟨hmem, hcond⟩ := List.mem_filter.mp he
    obtain ⟨rfl, hid⟩ := of_decide_eq_true hcond
    exact ⟨hmem, hid⟩
  · rintro ⟨hmem, hid⟩
    exact ⟨(n, msg), List.mem_filter.mpr ⟨hmem, decide_eq_true ⟨rfl, hid⟩⟩, rfl⟩

theorem mem_handed {data : Bytes} :
    data ∈ st.handed n id ↔ (id, data) ∈ st.assigned ∧ id.nodeId = n := by
  unfold handed
  rw [List.mem_map]
  constructor
  · rintro ⟨⟨x, data'⟩, he, rfl⟩
    obtain ⟨hmem, hcond⟩ := List.mem_filter.mp he
    obtain ⟨rfl, hn⟩ := of_decide_eq_true hcond
    exact ⟨hmem, hn⟩
  · rintro ⟨hmem, hn⟩
    exact ⟨(id, data), List.mem_filter.mpr ⟨hmem, decide_eq_true ⟨rfl, hn⟩⟩, rfl⟩

theorem arrived_congr (h : st'.delivered = st.delivered) : st'.arrived n id = st.arrived n id := by
  unfold arrived
  rw [h]

theorem handed_congr (h : st'.assigned = st.assigned) : st'.handed n id = st.handed n id := by
  unfold handed
  rw [h]

theorem arrived_concat {msg : PeerMessage} (h : st'.delivered = st.delivered ++ [(k, msg)]) :
    st'.arrived n id =
      st.arrived n id ++ if n = k ∧ id = msg.xactId then [msg] else [] := by
  unfold arrived
  rw [h, List.filter_append, List.map_append]
  by_cases hc : n = k ∧ id = msg.xactId
  · obtain ⟨rfl, rfl⟩ := hc
    simp
  · have hc' : ¬ (k = n ∧ msg.xactId = id) := fun h => hc ⟨h.1.symm, h.2.symm⟩
    simp [hc, hc']

theorem handed_concat {data : Bytes} {x : XactId} (hx : x.nodeId = k)
    (h : st'.assigned = st.assigned ++ [(x, data)]) :
    st'.handed n id = st.handed n id ++ if n = k ∧ id = x then [data] else [] := by
  unfold handed
  rw [h, List.filter_append, List.map_append]
  by_cases hc : n = k ∧ id = x
  · obtain ⟨rfl, rfl⟩ := hc
    simp [hx]
  · have hc' : ¬ (x = id ∧ id.nodeId = n) := by
      rintro ⟨rfl, hn⟩
      exact hc ⟨hn.symm.trans hx, rfl⟩
    simp [hc, hc']

theorem nextId_nodeId : (st.nextId n).nodeId = n := XactId.nodeId_new _ _

/-! ## One step -/

theorem procsWith_self : st.procsWith n id p n id = some p := if_pos ⟨rfl, rfl⟩

theorem procsWith_other {x : XactId} (h : ¬ (k = n ∧ x = id)) :
    st.procsWith n id p k x = st.proc k x := if_neg h

/-- Logs only grow. -/
theorem Change.log_mono {a : Action} (h : Change st st' a) (hp : st.proc k id = some p) :
    ∃ p', st'.proc k id = some p' ∧ p.log <+: p'.log := by
  have hpost : ∀ n x msg, ∃ p', st.procsWith n x (st.posted n x msg) k id = some p' ∧
      p.log <+: p'.log := by
    intro n x msg
    by_cases hk : k = n ∧ id = x
    · obtain ⟨rfl, rfl⟩ := hk
      refine ⟨_, procsWith_self, ?_⟩
      rw [posted, hp, Option.getD_some, Proc.post_log]
    · exact ⟨p, (procsWith_other hk).trans hp, List.prefix_refl _⟩
  cases h with
  | client n data tx procs =>
    rw [procs]
    exact hpost _ _ _
  | deliver n msg mem procs =>
    rw [procs]
    exact hpost _ _ _
  | emit n x envelope mem procs =>
    rw [procs]
    exact ⟨p, hp, List.prefix_refl _⟩
  | own _ n x q q' hq ha procs =>
    rw [procs]
    by_cases hk : k = n ∧ id = x
    · obtain ⟨rfl, rfl⟩ := hk
      obtain rfl : p = q := Option.some.inj (hp.symm.trans hq)
      exact ⟨q', procsWith_self, ha.step.log_grows⟩
    · exact ⟨p, (procsWith_other hk).trans hp, List.prefix_refl _⟩

/-- A state manager after the step: one that got a message at most, a new one, or the one that made
the step. -/
theorem Change.proc_cases {a : Action} (h : Change st st' a) (hp' : st'.proc k id = some p') :
    (∃ p, st.proc k id = some p ∧ p'.task = p.task ∧ p'.log = p.log) ∨
      (p'.task = .idle (XactStateManager.new id k) ∧ p'.log = []) ∨
      ∃ p, st.proc k id = some p ∧ st.Own k id p p' a ∧ st'.sent = st.sent := by
  have hpost : ∀ n x msg, st.procsWith n x (st.posted n x msg) k id = some p' →
      (∃ p, st.proc k id = some p ∧ p'.task = p.task ∧ p'.log = p.log) ∨
        (p'.task = .idle (XactStateManager.new id k) ∧ p'.log = []) := by
    intro n x msg hk'
    by_cases hk : k = n ∧ id = x
    · obtain ⟨rfl, rfl⟩ := hk
      rw [procsWith_self] at hk'
      obtain rfl := Option.some.inj hk'
      unfold posted
      rw [Proc.post_task, Proc.post_log]
      cases hq : st.proc k id with
      | some q => exact Or.inl ⟨q, rfl, rfl, rfl⟩
      | none => exact Or.inr ⟨rfl, rfl⟩
    · exact Or.inl ⟨p', (procsWith_other hk).symm.trans hk', rfl, rfl⟩
  cases h with
  | client n data tx procs =>
    rw [procs] at hp'
    exact (hpost _ _ _ hp').imp_right Or.inl
  | deliver n msg mem procs =>
    rw [procs] at hp'
    exact (hpost _ _ _ hp').imp_right Or.inl
  | emit n x envelope mem procs =>
    rw [procs] at hp'
    exact Or.inl ⟨p', hp', rfl, rfl⟩
  | own _ n x q q' hq ha procs sent =>
    rw [procs] at hp'
    by_cases hk : k = n ∧ id = x
    · obtain ⟨rfl, rfl⟩ := hk
      rw [procsWith_self] at hp'
      obtain rfl := Option.some.inj hp'
      exact Or.inr (Or.inr ⟨q, hq, ha, sent⟩)
    · exact Or.inl ⟨p', (procsWith_other hk).symm.trans hp', rfl, rfl⟩

/-- What is in a log after the step was there before, unless the state manager made the step. -/
theorem Change.event_cases {a : Action} (h : Change st st' a) (hp' : st'.proc k id = some p')
    {ev : Event XsMessage Effect Answer} (hev : ev ∈ p'.log) :
    (∃ p, st.proc k id = some p ∧ ev ∈ p.log) ∨
      ∃ p, st.proc k id = some p ∧ st.Own k id p p' a ∧ st'.sent = st.sent := by
  rcases h.proc_cases hp' with ⟨p, hp, -, hlog⟩ | ⟨-, hlog⟩ | hown
  · exact Or.inl ⟨p, hp, hlog ▸ hev⟩
  · rw [hlog] at hev
    exact absurd hev List.not_mem_nil
  · exact Or.inr hown

namespace Recorded

theorem init : Recorded Cluster.init where
  peers := fun n id p hp => absurd hp (by simp [Cluster.init, proc, Manager.new])
  locals := fun n id p hp => absurd hp (by simp [Cluster.init, proc, Manager.new])
  fresh := fun n id _ => ⟨rfl, rfl⟩
  known := fun n id p hp => absurd hp (by simp [Cluster.init, proc, Manager.new])

/-- Nothing comes and nothing is taken. -/
theorem congr (h : Recorded st) (procs : st'.proc = st.proc)
    (delivered : st'.delivered = st.delivered) (assigned : st'.assigned = st.assigned) :
    Recorded st' where
  peers := by
    intro k x
    rw [procs, arrived_congr delivered]
    exact h.peers k x
  locals := by
    intro k x
    rw [procs, handed_congr assigned]
    exact h.locals k x
  fresh := by
    intro k x
    rw [procs, arrived_congr delivered, handed_congr assigned]
    exact h.fresh k x
  known := by
    intro k x
    rw [procs, arrived_congr delivered, handed_congr assigned]
    exact h.known k x

/-- A message that is posted, seen in the record of what came. -/
theorem got_posted {α : Type} {f : XsMessage → Option α} {xs : List α}
    (hgot : ∀ p, st.proc n id = some p → p.Got f xs) (hfresh : st.proc n id = none → xs = [])
    (msg : XsMessage) : (st.posted n id msg).Got f (xs ++ (f msg).toList) := by
  unfold Cluster.posted
  cases hp : st.proc n id with
  | some p => exact (hgot p hp).post msg
  | none =>
    rw [hfresh hp]
    exact (Proc.got_start _).post msg

/-- A message comes. -/
theorem posted (h : Recorded st) {msg : XsMessage}
    (procs : st'.proc = st.procsWith n id (st.posted n id msg))
    (arrived : ∀ k x, st'.arrived k x =
      st.arrived k x ++ if k = n ∧ x = id then msg.peer.toList else [])
    (handed : ∀ k x, st'.handed k x =
      st.handed k x ++ if k = n ∧ x = id then msg.handed.toList else []) : Recorded st' := by
  constructor
  all_goals
    intro k x
    rw [procs]
    by_cases hk : k = n ∧ x = id
  · obtain ⟨rfl, rfl⟩ := hk
    rw [procsWith_self, arrived, if_pos ⟨rfl, rfl⟩]
    rintro p hp
    obtain rfl := Option.some.inj hp
    exact got_posted (h.peers k x) (fun hnone => (h.fresh k x hnone).1) msg
  · rw [procsWith_other hk, arrived, if_neg hk, List.append_nil]
    exact h.peers k x
  · obtain ⟨rfl, rfl⟩ := hk
    rw [procsWith_self, handed, if_pos ⟨rfl, rfl⟩]
    rintro p hp
    obtain rfl := Option.some.inj hp
    exact got_posted (h.locals k x) (fun hnone => (h.fresh k x hnone).2) msg
  · rw [procsWith_other hk, handed, if_neg hk, List.append_nil]
    exact h.locals k x
  · obtain ⟨rfl, rfl⟩ := hk
    rw [procsWith_self]
    exact fun hp => absurd hp (by simp)
  · rw [procsWith_other hk, arrived, handed, if_neg hk, List.append_nil, if_neg hk,
      List.append_nil]
    exact h.fresh k x
  · rw [arrived, handed, if_pos hk, if_pos hk]
    rintro p -
    cases msg with
    | localXact data tx => exact Or.inr (by simp [XsMessage.handed])
    | prepare msg => exact Or.inl (by simp [XsMessage.peer])
    | vote v => exact Or.inl (by simp [XsMessage.peer])
  · rw [procsWith_other hk, arrived, handed, if_neg hk, List.append_nil, if_neg hk,
      List.append_nil]
    exact h.known k x

/-- A state manager makes a step of its own. -/
theorem own (h : Recorded st) (hp : st.proc n id = some p)
    (hs : Proc.Step XactStateManager.handle p p') (procs : st'.proc = st.procsWith n id p')
    (delivered : st'.delivered = st.delivered) (assigned : st'.assigned = st.assigned) :
    Recorded st' := by
  constructor
  all_goals
    intro k x
    rw [procs]
    try rw [arrived_congr delivered]
    try rw [handed_congr assigned]
    by_cases hk : k = n ∧ x = id
  · obtain ⟨rfl, rfl⟩ := hk
    rw [procsWith_self]
    rintro q hq
    obtain rfl := Option.some.inj hq
    exact (h.peers k x p hp).step hs
  · rw [procsWith_other hk]
    exact h.peers k x
  · obtain ⟨rfl, rfl⟩ := hk
    rw [procsWith_self]
    rintro q hq
    obtain rfl := Option.some.inj hq
    exact (h.locals k x p hp).step hs
  · rw [procsWith_other hk]
    exact h.locals k x
  · obtain ⟨rfl, rfl⟩ := hk
    rw [procsWith_self]
    exact fun hq => absurd hq (by simp)
  · rw [procsWith_other hk]
    exact h.fresh k x
  · obtain ⟨rfl, rfl⟩ := hk
    exact fun _ _ => h.known k x p hp
  · rw [procsWith_other hk]
    exact h.known k x

end Recorded

namespace Honest

theorem init : Honest Cluster.init where
  served := fun n => Manager.Served.new n
  sent := fun _ he => absurd he List.not_mem_nil
  delivered := fun _ he => absurd he List.not_mem_nil
  recorded := Recorded.init

theorem nodeId (h : Honest st) (n : NodeId) : (st.managers n).nodeId = n := (h.served n).nodeId

theorem stage (h : Honest st) (hp : st.proc n id = some p) :
    Stage id n (Point.ofTask p.task) (XactProc.status p) p.log := (h.served n).stage hp

/-- A request that went out announces a ballot to another participant. -/
theorem sent_standing (h : Honest st) {dst : NodeId} {msg : PeerMessage}
    (hs : (dst, msg) ∈ st.sent) :
    ∃ n id p o P early late, st.proc n id = some p ∧
      Standing id n (XactProc.status p) p.log o P early late ∧
      msg = o.request id n (decision P (o.votes n ++ early.map VoteMessage.cast)) ∧ dst ≠ n ∧
      dst.toUsize ∈ P := by
  obtain ⟨n, id, p, messages, hp, hcall, hmem⟩ := h.sent _ hs
  rcases (h.stage hp).standing with ⟨hquiet, -⟩ | ⟨o, P, early, late, hst⟩
  · exact absurd hcall (hquiet messages)
  · exact ⟨n, id, p, o, P, early, late, hp, hst, hst.announces hcall hmem⟩

/-- No node is sent a `Prepare` in its own name. -/
theorem foreign (h : Honest st) {msg : PeerMessage} (hs : (n, msg) ∈ st.sent) :
    (XsMessage.ofPeer msg).Foreign n := by
  obtain ⟨m, id, p, o, P, early, late, -, -, rfl, hne, -⟩ := h.sent_standing hs
  cases o with
  | coordinator data tx => exact fun heq => hne heq.symm
  | surrogate msg r => exact trivial

/-- The invariants of the nodes. -/
theorem served_step (h : Honest st) {a : Action} (hs : st.step a = some st') (n : NodeId) :
    Manager.Served (XsMessage.Foreign n) n (st'.managers n) := by
  have hmanager : ∀ {st₁ : Cluster} {k : NodeId} {b : Manager.Action},
      st₁.managers = st.managers → b.Foreign k → st₁.stepManager k b = some st' →
      Manager.Served (XsMessage.Foreign n) n (st'.managers n) := by
    intro st₁ k b heq hb hstep
    obtain ⟨m, hm, rfl⟩ := stepManager_cases hstep
    rw [heq] at hm
    unfold setManager
    dsimp only
    split_ifs with hk
    · subst hk
      refine (h.served n).step (fun msg heq => ?_) hm
      subst heq
      exact hb
    · rw [heq]
      exact h.served n
  cases a with
  | client k data tx =>
    simp only [step] at hs
    exact hmanager (b := .message (.localXact data tx)) (by rfl) trivial hs
  | deliver k msg =>
    simp only [step] at hs
    split_ifs at hs with hmem
    exact hmanager (b := .message (XsMessage.ofPeer msg)) (by rfl) (h.foreign hmem) hs
  | emit k x envelope =>
    simp only [step] at hs
    split_ifs at hs with hmem
    obtain rfl := Option.some.inj hs
    exact h.served n
  | take k x => exact hmanager (b := .take x) rfl trivial hs
  | answer k x r =>
    simp only [step] at hs
    split_ifs at hs with hr
    exact hmanager (b := .answer x r) rfl trivial hs
  | stop k x => exact hmanager (b := .stop x) rfl trivial hs

/-- The effect that a state manager awaits is in its log. -/
theorem awaited_mem (h : Honest st) {envelope : Envelope} (he : envelope ∈ st.broadcast n id) :
    ∃ p messages, st.proc n id = some p ∧ .call (.sendToAll messages) ∈ p.log ∧
      envelope ∈ messages := by
  unfold broadcast at he
  split at he
  · rename_i messages haw
    unfold awaited at haw
    split at haw
    · rename_i inbox s e k log hp
      obtain rfl := Option.some.inj haw
      exact ⟨_, messages, hp, ((h.served n).reach id _ hp).awaiting rfl, he⟩
    · exact absurd haw (by simp)
  · exact absurd he List.not_mem_nil

/-- One step of the cluster. -/
theorem step (h : Honest st) {a : Action} (hs : st.step a = some st') : Honest st' := by
  have hchange := change_of_step h.nodeId hs
  have hserved := h.served_step hs
  have hsent : ∀ envelope ∈ st.sent, ∃ n id p messages, st'.proc n id = some p ∧
      .call (.sendToAll messages) ∈ p.log ∧ envelope ∈ messages := by
    intro envelope he
    obtain ⟨n, id, p, messages, hp, hcall, hmem⟩ := h.sent envelope he
    obtain ⟨p', hp', hlog⟩ := hchange.log_mono hp
    exact ⟨n, id, p', messages, hp', hlog.subset hcall, hmem⟩
  cases hchange with
  | client n data tx procs sent delivered assigned =>
    refine ⟨hserved, by rw [sent]; exact hsent, by rw [delivered, sent]; exact h.delivered,
      h.recorded.posted procs (fun k x => ?_) (fun k x => ?_)⟩
    · rw [arrived_congr delivered]
      simp [XsMessage.peer]
    · rw [handed_concat nextId_nodeId assigned]
      rfl
  | deliver n msg mem procs sent delivered assigned =>
    have hpeer : (XsMessage.ofPeer msg).peer = some msg := by cases msg <;> rfl
    have hhanded : (XsMessage.ofPeer msg).handed = none := by cases msg <;> rfl
    refine ⟨hserved, by rw [sent]; exact hsent, ?_,
      h.recorded.posted procs (fun k x => ?_) (fun k x => ?_)⟩
    · intro envelope he
      rw [delivered, List.mem_append, List.mem_singleton] at he
      rw [sent]
      rcases he with he | rfl
      · exact h.delivered envelope he
      · exact mem
    · rw [arrived_concat delivered, hpeer]
      rfl
    · rw [handed_congr assigned, hhanded]
      simp
  | emit n x envelope mem procs sent delivered assigned =>
    refine ⟨hserved, ?_, ?_, h.recorded.congr procs delivered assigned⟩
    · intro envelope' he
      rw [sent, List.mem_append, List.mem_singleton] at he
      rcases he with he | rfl
      · exact hsent envelope' he
      · obtain ⟨p, messages, hp, hcall, hmem⟩ := h.awaited_mem mem
        exact ⟨n, x, p, messages, by rw [procs]; exact hp, hcall, hmem⟩
    · intro envelope' he
      rw [delivered] at he
      rw [sent]
      exact List.mem_append_left _ (h.delivered envelope' he)
  | own _ n x p p' hp ha procs sent delivered assigned =>
    exact ⟨hserved, by rw [sent]; exact hsent, by rw [delivered, sent]; exact h.delivered,
      h.recorded.own hp ha.step procs delivered assigned⟩

/-- Every run of the cluster is honest. -/
theorem of_reach {ok : Cluster → Action → Prop} (hr : Reach ok st) : Honest st := by
  induction hr with
  | init => exact Honest.init
  | step a _ _ hs ih => exact ih.step hs

/-! ## Tracing a message back -/

theorem recv_request (h : Honest st) (hp : st.proc n id = some p) {m : XsMessage}
    (hm : .recv m ∈ p.log) {msg : PeerMessage} (hmsg : m.peer = some msg) :
    (n, msg) ∈ st.sent ∧ msg.xactId = id := by
  have hrec : m ∈ p.received := List.mem_append_left _ (mem_recvs.mpr hm)
  obtain ⟨hdel, hid⟩ := mem_arrived.mp ((h.recorded.peers n id p hp).mem hrec hmsg)
  exact ⟨h.delivered _ hdel, hid⟩

/-- A local transaction was handed over to the node that its id names. -/
theorem recv_local (h : Honest st) (hp : st.proc n id = some p) {data : Bytes} {tx : Sender}
    (hm : .recv (.localXact data tx) ∈ p.log) : (id, data) ∈ st.assigned ∧ id.nodeId = n := by
  have hrec : .localXact data tx ∈ p.received := List.mem_append_left _ (mem_recvs.mpr hm)
  exact mem_handed.mp ((h.recorded.locals n id p hp).mem hrec rfl)

/-- A vote that went out was broadcast by the node it names. -/
theorem sent_vote (h : Honest st) {v : VoteMessage} (hs : (n, .vote v) ∈ st.sent) :
    ∃ q messages, st.proc ⟨v.from⟩ ⟨v.xactId⟩ = some q ∧ .call (.sendToAll messages) ∈ q.log ∧
      (n, .vote v) ∈ messages := by
  obtain ⟨m, y, q, messages, hq, hcall, hmem⟩ := h.sent _ hs
  rcases (h.stage hq).standing with ⟨hquiet, -⟩ | ⟨o, P, early, late, hst⟩
  · exact absurd hcall (hquiet messages)
  · obtain ⟨hreq, -⟩ := hst.announces hcall hmem
    cases o with
    | coordinator data tx => exact absurd hreq (by simp [Opening.request])
    | surrogate msg r =>
      obtain rfl := PeerMessage.vote.inj hreq
      exact ⟨q, messages, hq, hcall, hmem⟩

/-- A vote comes from the node it names. -/
theorem vote_from (h : Honest st) (hp : st.proc n id = some p) {v : VoteMessage}
    (hv : .recv (.vote v) ∈ p.log) :
    ∃ q messages, st.proc ⟨v.from⟩ id = some q ∧ .call (.sendToAll messages) ∈ q.log ∧
      (n, .vote v) ∈ messages := by
  obtain ⟨hsent, rfl⟩ := h.recv_request hp hv rfl
  exact h.sent_vote hsent

/-- A `Prepare` that went out was broadcast by the node that the id names, and it goes to others. -/
theorem sent_prepare (h : Honest st) {msg : PrepareMessage} (hs : (n, .prepare msg) ∈ st.sent) :
    (⟨msg.from⟩ : NodeId) = (⟨msg.xactId⟩ : XactId).nodeId ∧ n ≠ (⟨msg.xactId⟩ : XactId).nodeId ∧
    ∃ q messages, st.proc (⟨msg.xactId⟩ : XactId).nodeId ⟨msg.xactId⟩ = some q ∧
      .call (.sendToAll messages) ∈ q.log ∧ (n, .prepare msg) ∈ messages := by
  obtain ⟨m, y, q, messages, hq, hcall, hmem⟩ := h.sent _ hs
  rcases (h.stage hq).standing with ⟨hquiet, -⟩ | ⟨o, P, early, late, hst⟩
  · exact absurd hcall (hquiet messages)
  · obtain ⟨hreq, hne, -⟩ := hst.announces hcall hmem
    cases o with
    | surrogate msg r => exact absurd hreq (by simp [Opening.request])
    | coordinator data tx =>
      obtain rfl := PeerMessage.prepare.inj hreq
      obtain ⟨-, rfl⟩ := h.recv_local hq hst.message_mem
      exact ⟨rfl, hne, q, messages, hq, hcall, hmem⟩

/-- A `Prepare` comes from the node that the id names, and it goes to others. -/
theorem prepare_from (h : Honest st) (hp : st.proc n id = some p) {msg : PrepareMessage}
    (hm : .recv (.prepare msg) ∈ p.log) :
    (⟨msg.from⟩ : NodeId) = id.nodeId ∧ n ≠ id.nodeId ∧ (⟨msg.xactId⟩ : XactId) = id ∧
    ∃ q messages, st.proc id.nodeId id = some q ∧ .call (.sendToAll messages) ∈ q.log ∧
      (n, .prepare msg) ∈ messages := by
  obtain ⟨hsent, rfl⟩ := h.recv_request hp hm rfl
  obtain ⟨hfrom, hne, hq⟩ := h.sent_prepare hsent
  exact ⟨hfrom, hne, rfl, hq⟩

section Standing

variable {o : Opening} {P : BitSet} {early late : List VoteMessage}

/-- A state manager that has broadcast something has a ballot behind it. -/
theorem standing_of_broadcast (h : Honest st) (hp : st.proc n id = some p)
    {messages : List Envelope} (hcall : .call (.sendToAll messages) ∈ p.log) :
    ∃ o P early late, Standing id n (XactProc.status p) p.log o P early late := by
  rcases (h.stage hp).standing with ⟨hquiet, -⟩ | hst
  · exact absurd hcall (hquiet messages)
  · exact hst

/-- The coordinator is the node that the id names. -/
theorem coordinator_eq (h : Honest st) (hp : st.proc n id = some p)
    (hst : Standing id n (XactProc.status p) p.log o P early late) :
    o.coordinatorAt n = id.nodeId ∧ (∀ msg r, o = .surrogate msg r → n ≠ id.nodeId) := by
  have hm := hst.message_mem
  cases o with
  | coordinator data tx => exact ⟨(h.recv_local hp hm).2.symm, fun msg r ho => absurd ho (by simp)⟩
  | surrogate msg r =>
    obtain ⟨hfrom, hne, -⟩ := h.prepare_from hp hm
    exact ⟨hfrom, fun _ _ _ => hne⟩

/-- The `Prepare` that opened a ballot carries the data that opened the ballot of the
coordinator. -/
theorem prepared_data (h : Honest st) (hp : st.proc n id = some p) {msg : PrepareMessage}
    (hm : .recv (.prepare msg) ∈ p.log) {q : XactProc} (hq : st.proc id.nodeId id = some q)
    (hst : Standing id id.nodeId (XactProc.status q) q.log o P early late) :
    o.data = msg.data := by
  obtain ⟨-, -, -, q', messages, hq', hcall, hmem⟩ := h.prepare_from hp hm
  obtain rfl : q = q' := Option.some.inj (hq.symm.trans hq')
  obtain ⟨hreq, -⟩ := hst.announces hcall hmem
  cases o with
  | surrogate msg r => exact absurd hreq (by simp [Opening.request])
  | coordinator data tx =>
    obtain rfl := PeerMessage.prepare.inj hreq
    rfl

/-- Any two nodes open their ballots on the same data. -/
theorem same_data (h : Honest st) (hp : st.proc n id = some p)
    (hst : Standing id n (XactProc.status p) p.log o P early late) {q : XactProc}
    (hq : st.proc k id = some q) {o' : Opening} {P' : BitSet} {early' late' : List VoteMessage}
    (hst' : Standing id k (XactProc.status q) q.log o' P' early' late') (hne : n ≠ k) :
    o.data = o'.data := by
  have hm := hst.message_mem
  have hm' := hst'.message_mem
  cases o with
  | coordinator data tx =>
    obtain ⟨-, rfl⟩ := h.recv_local hp hm
    cases o' with
    | coordinator data' tx' => exact absurd (h.recv_local hq hm').2 hne
    | surrogate msg' r' => exact h.prepared_data hq hm' hp hst
  | surrogate msg r =>
    cases o' with
    | coordinator data' tx' =>
      obtain ⟨-, rfl⟩ := h.recv_local hq hm'
      exact (h.prepared_data hp hm hq hst').symm
    | surrogate msg' r' =>
      -- both come from the coordinator
      obtain ⟨-, -, -, c, messages, hc, hcall, -⟩ := h.prepare_from hp hm
      obtain ⟨oc, Pc, earlyc, latec, hstc⟩ := h.standing_of_broadcast hc hcall
      have hdata := h.prepared_data hp hm hc hstc
      have hdata' := h.prepared_data hq hm' hc hstc
      exact hdata.symm.trans hdata'

/-- A ballot is about a transaction that was handed over to some node. -/
theorem assigned_of_standing (h : Honest st) (hp : st.proc n id = some p)
    (hst : Standing id n (XactProc.status p) p.log o P early late) :
    ∃ data, (id, data) ∈ st.assigned := by
  have hm := hst.message_mem
  cases o with
  | coordinator data tx => exact ⟨data, (h.recv_local hp hm).1⟩
  | surrogate msg r =>
    obtain ⟨-, -, -, c, messages, hc, hcall, -⟩ := h.prepare_from hp hm
    obtain ⟨oc, Pc, earlyc, latec, hstc⟩ := h.standing_of_broadcast hc hcall
    have hmc := hstc.message_mem
    cases oc with
    | coordinator data tx => exact ⟨data, (h.recv_local hc hmc).1⟩
    | surrogate msg' r' => exact absurd rfl ((h.coordinator_eq hc hstc).2 msg' r' rfl)

theorem same_participants (h : Honest st) (hp : st.proc n id = some p)
    (hst : Standing id n (XactProc.status p) p.log o P early late) {q : XactProc}
    (hq : st.proc k id = some q) {o' : Opening} {P' : BitSet} {early' late' : List VoteMessage}
    (hst' : Standing id k (XactProc.status q) q.log o' P' early' late') (hne : n ≠ k) :
    P = P' := by
  have hdec := hst.decoded
  rw [h.same_data hp hst hq hst' hne, hst'.decoded] at hdec
  exact (Option.some.inj hdec).symm

end Standing

end Honest

end Cluster

end Sunstorm
