import Sunstorm.Xactserver.Proofs.ServerProofs

/-!
# Proofs: what clients and peers can rely on

A reply that PostgreSQL reads says what has become of the transaction at all other databases. A
transaction that a client hands over goes to one state manager at most. The requests that a node has
acknowledged are passed on once, in the order of the acknowledgements, until its manager leaves the
loop.
-/

namespace Sunstorm

open Await Postgres Tally

namespace System

variable {overflowChecks : Bool} {s s' : System} {n : NodeId}

/-! ## Replies -/

theorem decides_acts {e : Effect} {commitTx : Sender} {decision : Option RollbackInfo}
    (he : e.decides = some (commitTx, decision)) :
    decision = none ∧ e.isCommit = true ∨ decision ≠ none ∧ e.isRollback = true := by
  cases e with
  | replyCommit tx =>
    cases tx with
    | none => exact absurd he (by simp [Effect.decides])
    | some tx =>
      obtain ⟨-, rfl⟩ := Prod.mk.inj (Option.some.inj he)
      exact Or.inl ⟨rfl, rfl⟩
  | replyRollback tx info =>
    cases tx with
    | none => exact absurd he (by simp [Effect.decides])
    | some tx =>
      obtain ⟨-, rfl⟩ := Prod.mk.inj (Option.some.inj he)
      exact Or.inr ⟨by simp, rfl⟩
  | _ => exact absurd he (by simp [Effect.decides])

/-- Only a coordinator decides for a client, and it uses the sender that came with the
transaction. -/
theorem coordinator_of_decides {id : XactId} {o : Opening} {d : Decision Nat RollbackReason}
    {e : Effect} {commitTx : Sender} {decision : Option RollbackInfo}
    (h : o.closing id d = some e) (he : e.decides = some (commitTx, decision)) :
    ∃ data, o = .coordinator data commitTx := by
  cases o with
  | coordinator data tx =>
    refine ⟨data, ?_⟩
    cases d with
    | waiting => exact absurd h (by simp [Opening.closing, XactState.closing])
    | commit =>
      obtain rfl := Option.some.inj h
      obtain ⟨rfl, -⟩ := Prod.mk.inj (Option.some.inj he)
      rfl
    | rollback i reason =>
      obtain rfl := Option.some.inj h
      obtain ⟨rfl, -⟩ := Prod.mk.inj (Option.some.inj he)
      rfl
  | surrogate msg r =>
    cases d with
    | waiting => exact absurd h (by simp [Opening.closing, XactState.closing])
    | commit =>
      obtain rfl := Option.some.inj h
      exact absurd he (by simp [Effect.decides])
    | rollback i reason =>
      obtain rfl := Option.some.inj h
      exact absurd he (by simp [Effect.decides])

/-- What is told to a client is about the transaction that came with its sender. -/
theorem Sound.told_cases (h : Sound overflowChecks s) {commitTx : Sender}
    {decision : Option RollbackInfo} (ht : s.Told n commitTx decision) :
    ∃ id p e data P, s.federation.cluster.proc n id = some p ∧ .call e ∈ p.log ∧
      e.decides = some (commitTx, decision) ∧ RWSet.participantsIn data = some P ∧
      (id, data) ∈ s.federation.cluster.assigned ∧ id.nodeId = n ∧
      (id, data, commitTx) ∈ (s.fronts n).passed := by
  obtain ⟨id, p, e, hp, hcall, he⟩ := ht
  have hhonest := h.lawful.honest
  have hact : e.isCommit = true ∨ e.isRollback = true := by
    rcases decides_acts he with ⟨-, hc⟩ | ⟨-, hr⟩
    · exact Or.inl hc
    · exact Or.inr hr
  obtain ⟨o, P, early, late, hst, hclosing⟩ := hhonest.ballot_of_act hp hcall hact
  obtain ⟨data, rfl⟩ := coordinator_of_decides hclosing he
  have hrecv := hst.message_mem
  obtain ⟨hassigned, hnode⟩ := hhonest.recv_local hp hrecv
  have hreceived : .localXact data commitTx ∈ p.received :=
    List.mem_append_left _ (mem_recvs.mpr hrecv)
  exact ⟨id, p, e, data, P, hp, hcall, he, hst.decoded, hassigned, hnode,
    h.received n id p data commitTx hp hreceived⟩

/-- What the manager passes on was read from a client. -/
theorem Sound.issued_of_passed (h : Sound overflowChecks s) {id : XactId} {data : Bytes}
    {commitTx : Sender} (hpassed : (id, data, commitTx) ∈ (s.fronts n).passed) :
    (s.fronts n).Issued (data, commitTx) := by
  obtain ⟨lost, hflow, -⟩ := (h.fronts n).flow
  refine (h.fronts n).issued _ ?_
  rw [hflow]
  exact List.mem_append_left _ (List.mem_append_left _ (List.mem_map.mpr ⟨_, hpassed, rfl⟩))

/-- What the manager has passed on is told apart by the senders. -/
theorem Sound.passed_inj (h : Sound overflowChecks s) {x y : XactId × Bytes × Sender}
    (hx : x ∈ (s.fronts n).passed) (hy : y ∈ (s.fronts n).passed) (htx : x.2.2 = y.2.2) :
    x = y := by
  have honce := (h.fronts n).once
  obtain ⟨lost, hflow, -⟩ := (h.fronts n).flow
  rw [hflow, List.map_append, List.map_append] at honce
  have hnodup : ((s.fronts n).passed.map fun z => z.2.2).Nodup := by
    have hleft := (List.nodup_append.mp (List.nodup_append.mp honce).1).1
    rw [List.map_map] at hleft
    exact hleft
  exact List.inj_on_of_nodup_map hnodup hx hy htx

/-- So are the replies, on all connections of a node. -/
theorem Sound.exchange_inj (h : Sound overflowChecks s) {c d : Connection} {x y : Exchange}
    (hc : c ∈ (s.fronts n).connections) (hd : d ∈ (s.fronts n).connections)
    (hx : x ∈ c.exchanges) (hy : y ∈ d.exchanges) (htx : y.commitTx = x.commitTx) :
    d = c ∧ y = x := by
  obtain ⟨i, hi⟩ := List.mem_iff_getElem?.mp hc
  obtain ⟨j, hj⟩ := List.mem_iff_getElem?.mp hd
  have hmx : x.commitTx ∈ c.senders := List.mem_append_left _ (List.mem_map_of_mem hx)
  have hmy : x.commitTx ∈ d.senders :=
    List.mem_append_left _ (List.mem_map.mpr ⟨y, hy, htx⟩)
  obtain rfl := (h.fronts n).apart i j c d x.commitTx hi hj hmx hmy
  obtain rfl : c = d := Option.some.inj (hi.symm.trans hj)
  have hdistinct := (List.nodup_append.mp ((h.fronts n).attends i c hi).distinct).1
  exact ⟨rfl, List.inj_on_of_nodup_map hdistinct hy hx htx⟩

/-- The first byte tells a commit from a rollback. -/
theorem reply_eq_zero {decision : Option RollbackInfo} {reply : Bytes}
    (hnumbered : Reply.Numbered decision)
    (h : serializeRollbackInfo overflowChecks decision = .ok reply) :
    reply = [0] ↔ decision = none := by
  cases decision with
  | none =>
    obtain rfl := Except.ok.inj h
    simp
  | some info =>
    have hlt : info.node.toUsize < 255 := Nat.lt_trans (hnumbered info rfl) (by decide)
    rw [Reply.serialize_some, Reply.replyNode_of_lt hlt] at h
    obtain rfl := Except.ok.inj h
    have hne : UInt8.ofNat (info.node.toUsize + 1) ≠ 0 := by
      intro heq
      have hnat := congrArg UInt8.toNat heq
      rw [UInt8.toNat_ofNat'] at hnat
      have hzero : (0 : UInt8).toNat = 0 := rfl
      omega
    constructor
    · intro heq
      exact absurd (List.cons.inj heq).1 hne
    · intro heq
      exact absurd heq (by simp)

/-- **A reply is the outcome.** Every reply that a client reads answers one transaction: the one that
came with the sender of the reply, which no other reply has. The manager of the node has passed this
transaction on to the state manager of one id, and the reply is what that state manager has decided.
Unless the id was given out twice, or some database knew it before: if the reply is the single byte 0,
every worker has the transaction prepared with its work done, or has committed it; if it is anything
else, no worker has committed it. -/
theorem reply_is_outcome (overflowChecks : Bool) (history : NodeId → String → List GidEvent)
    (s : System)
    (hr : Machine.Reach (step overflowChecks) (fun _ _ => True) (init history) s) (n : NodeId)
    (c : Connection) (hc : c ∈ (s.fronts n).connections) (x : Exchange) (hx : x ∈ c.exchanges) :
    (∀ d ∈ (s.fronts n).connections, ∀ y ∈ d.exchanges, y.commitTx = x.commitTx →
      d = c ∧ y = x) ∧
    ∃ id P, id.nodeId = n ∧ (id, x.data, x.commitTx) ∈ (s.fronts n).passed ∧
      (∀ z ∈ (s.fronts n).passed, z.2.2 = x.commitTx → z = (id, x.data, x.commitTx)) ∧
      (∃ p e, s.federation.cluster.proc n id = some p ∧ .call e ∈ p.log ∧
        e.decides = some (x.commitTx, x.decision)) ∧
      serializeRollbackInfo overflowChecks x.decision = .ok x.reply ∧
      (id, x.data) ∈ s.federation.cluster.assigned ∧ RWSet.participantsIn x.data = some P ∧
      (s.federation.cluster.Unique id x.data → (∀ k, history k id.toString = []) →
        ∀ t : Federation.Workers id P,
          (x.reply = [0] → s.federation.history t.1 id.toString = [.prepared true] ∨
            s.federation.history t.1 id.toString = [.prepared true, .committed]) ∧
          (x.reply ≠ [0] → .committed ∉ s.federation.history t.1 id.toString)) := by
  have h := Sound.of_reach hr
  obtain ⟨i, hi⟩ := List.mem_iff_getElem?.mp hc
  obtain ⟨htold, hreply⟩ := (h.serves n i c hi).replies x hx
  obtain ⟨id, p, e, data, P, hp, hcall, he, hP, hassigned, hnode, hpassed⟩ := h.told_cases htold
  have hdata : data = x.data :=
    (h.issued_of_passed hpassed).eq (((h.fronts n).attends i c hi).exchanges x hx)
  subst hdata
  have hzero : x.reply = [0] ↔ x.decision = none :=
    reply_eq_zero (reply_numbered ((h.lawful.honest.served n).reach id p hp)
      (mem_calls.mpr hcall) (reply_of_decides he)) hreply
  refine ⟨fun d hd y hy htx => h.exchange_inj hc hd hx hy htx, id, P, hnode, hpassed,
    fun z hz htx => h.passed_inj hz hpassed htx, ⟨p, e, hp, hcall, he⟩, hreply, hassigned, hP,
    fun hid h₀ t => ?_⟩
  have hsound := Federation.sound_of_reach h₀ (federation_reach hr)
  have hne : n ≠ t.1 := fun heq => t.2.2 (heq ▸ hnode.symm)
  constructor
  · intro hcommit
    rcases decides_acts he with ⟨-, hact⟩ | ⟨hnot, -⟩
    · exact hsound.held_of_commit hid hP hp hcall hact t hne
    · exact absurd (hzero.mp hcommit) hnot
  · intro hrollback hcommitted
    rcases decides_acts he with ⟨hnone, -⟩ | ⟨-, hact⟩
    · exact hrollback (hzero.mpr hnone)
    · obtain ⟨q, hq, hcommit⟩ := hsound.commit_called hcommitted
      have hnot := h.lawful.honest.acts_agree hq hp hne.symm hcommit rfl hcall
      exact absurd (hact.symm.trans hnot) (by simp)

/-- A client hands the transaction of `Federation.commitRun` over to the first of two nodes, and the
node replies to it. -/
def replyRun : List Act :=
  let id : XactId := .new 1 ⟨0⟩
  let data : Bytes := [0, 0, 0, 1, 0, 0, 0, 0, 0, 0, 0, 3, 0, 0, 0, 0, 0, 0, 0, 0]
  let prepare : PeerMessage := .prepare { «from» := 0, xactId := id.val, data }
  let vote : PeerMessage := .vote { «from» := 1, xactId := id.val, rollbackReason := none }
  let sql : Act := .work (.statement ⟨1⟩ id .done)
  [.connect ⟨0⟩, .io ⟨0⟩ 0 (.opened (.ok ())), .io ⟨0⟩ 0 (.read (.ok (some (.copyData data)))),
    .io ⟨0⟩ 0 .sent, .receive ⟨0⟩ true, .pass ⟨0⟩,
    .work (.cluster (.take ⟨0⟩ id) .idle), .work (.cluster (.emit ⟨0⟩ id (⟨1⟩, prepare)) .idle),
    .accept ⟨1⟩ prepare, .work (.cluster (.answer ⟨0⟩ id (.ok ())) .idle),
    .receive ⟨1⟩ false, .pass ⟨1⟩, .work (.cluster (.take ⟨1⟩ id) .idle),
    sql, sql, sql, sql, .work (.finish ⟨1⟩ id .idle),
    .work (.cluster (.emit ⟨1⟩ id (⟨0⟩, vote)) .idle), .accept ⟨0⟩ vote,
    .work (.cluster (.answer ⟨1⟩ id (.ok ())) .idle), .receive ⟨0⟩ false, .pass ⟨0⟩,
    .work (.cluster (.take ⟨0⟩ id) .idle), .work (.cluster (.answer ⟨0⟩ id (.ok ())) .idle),
    .io ⟨0⟩ 0 .decided, .io ⟨0⟩ 0 (.replied (.ok ()))]

theorem reply_is_outcome_commit :
    ∃ s c x, Machine.run (step false) (init fun _ _ => []) replyRun = some s ∧
      c ∈ (s.fronts ⟨0⟩).connections ∧ x ∈ c.exchanges ∧ x.reply = [0] ∧
      (s.federation.history ⟨1⟩ (XactId.new 1 ⟨0⟩).toString = [.prepared true] ∨
        s.federation.history ⟨1⟩ (XactId.new 1 ⟨0⟩).toString = [.prepared true, .committed]) := by
  have hrun : (Machine.run (step false) (init fun _ _ => []) replyRun).map
      (fun s => (s.federation.cluster.assigned, (s.fronts ⟨0⟩).connections.any fun c =>
        c.exchanges.any fun x => x.data = [0, 0, 0, 1, 0, 0, 0, 0, 0, 0, 0, 3, 0, 0, 0, 0, 0, 0, 0, 0] ∧
          x.reply = [0])) =
      some ([(.new 1 ⟨0⟩, [0, 0, 0, 1, 0, 0, 0, 0, 0, 0, 0, 3, 0, 0, 0, 0, 0, 0, 0, 0])],
        true) := by decide
  obtain ⟨s, hs, heq⟩ := Option.map_eq_some_iff.mp hrun
  obtain ⟨hassigned, hany⟩ := Prod.mk.inj heq
  obtain ⟨c, hc, hany⟩ := List.any_eq_true.mp hany
  obtain ⟨x, hx, hboth⟩ := List.any_eq_true.mp hany
  obtain ⟨hdata, hreply⟩ := of_decide_eq_true hboth
  have hreach : Machine.Reach (step false) (fun _ _ => True) (init fun _ _ => []) s :=
    Machine.reach_of_run .start (Machine.admitted_of_forall fun _ _ _ => trivial) hs
  obtain ⟨-, id, P, -, -, -, -, -, hmem, hP, houtcome⟩ :=
    reply_is_outcome false _ s hreach ⟨0⟩ c hc x hx
  rw [hassigned, List.mem_singleton] at hmem
  obtain ⟨rfl, -⟩ := Prod.mk.inj hmem
  rw [hdata] at hP houtcome
  obtain rfl : ({0, 1} : BitSet) = P := Option.some.inj ((show _ = some ({0, 1} : BitSet) by decide).symm.trans hP)
  have hunique : s.federation.cluster.Unique (.new 1 ⟨0⟩)
      [0, 0, 0, 1, 0, 0, 0, 0, 0, 0, 0, 3, 0, 0, 0, 0, 0, 0, 0, 0] := by
    unfold Cluster.Unique
    rw [hassigned]
    decide
  exact ⟨s, c, x, hs, hc, hx, hreply, (houtcome hunique (fun _ => rfl) ⟨⟨1⟩, by decide⟩).1 hreply⟩

/-! ## Transactions of clients -/

/-- **One reply to one transaction.** In every run, on every connection of every node: the replies
belong, in order, to the transactions that were read, at most the last one has none, and writing one
never panics. Two state managers of a node never get the same transaction of a client. -/
theorem requests_kept_apart (overflowChecks : Bool) (history : NodeId → String → List GidEvent)
    (s : System)
    (hr : Machine.Reach (step overflowChecks) (fun _ _ => True) (init history) s) (n : NodeId) :
    (∀ c ∈ (s.fronts n).connections, c.exchanges.map Exchange.data <+: c.read ∧
      c.read.length ≤ c.exchanges.length + 1 ∧ ∀ f, c.query ≠ .panicked f) ∧
    ∀ id id' p p' data data' commitTx, s.federation.cluster.proc n id = some p →
      s.federation.cluster.proc n id' = some p' → .localXact data commitTx ∈ p.received →
      .localXact data' commitTx ∈ p'.received → id = id' ∧ data = data' := by
  have h := Sound.of_reach hr
  constructor
  · intro c hc
    obtain ⟨i, hi⟩ := List.mem_iff_getElem?.mp hc
    have hstep := ((h.fronts n).attends i c hi).inStep
    exact ⟨(List.prefix_append _ _).trans hstep.replied, hstep.missing, (h.serves n i c hi).calm⟩
  · intro id id' p p' data data' commitTx hp hp' hm hm'
    have hx := h.received n id p data commitTx hp hm
    have hy := h.received n id' p' data' commitTx hp' hm'
    obtain ⟨hid, hdata⟩ := Prod.mk.inj (h.passed_inj hx hy rfl)
    exact ⟨hid, (Prod.mk.inj hdata).1⟩

theorem requests_kept_apart_commit :
    ∃ s, Machine.run (step false) (init fun _ _ => []) replyRun = some s ∧
      (s.fronts ⟨0⟩).connections.length = 1 ∧
      ∀ c ∈ (s.fronts ⟨0⟩).connections, c.read.length ≤ c.exchanges.length + 1 := by
  have hrun : (Machine.run (step false) (init fun _ _ => []) replyRun).map
      (fun s => (s.fronts ⟨0⟩).connections.length) = some 1 := by decide
  obtain ⟨s, hs, hlength⟩ := Option.map_eq_some_iff.mp hrun
  have hreach : Machine.Reach (step false) (fun _ _ => True) (init fun _ _ => []) s :=
    Machine.reach_of_run .start (Machine.admitted_of_forall fun _ _ _ => trivial) hs
  exact ⟨s, hs, hlength, fun c hc =>
    ((requests_kept_apart false _ s hreach ⟨0⟩).1 c hc).2.1⟩

/-! ## Requests of peers -/

/-- What the servers keep about the requests of peers: nothing is lost but what is in the channel when
the loop is left. -/
structure Delivers (s : System) : Prop where
  order : ∀ n, ∃ lost, requestsTo n s.accepted =
    requestsTo n s.federation.cluster.delivered ++ (s.fronts n).backlog ++ lost ∧
      ((s.fronts n).stopped = false → lost = [])
  acknowledged : ∀ n id p messages, s.federation.cluster.proc n id = some p →
    .ret (.sendToAll messages) (.ok ()) ∈ p.log → ∀ e ∈ messages, e ∈ s.accepted

theorem requestsTo_append (envelopes : List Envelope) (k : NodeId) (msgs : List PeerMessage) :
    requestsTo n (envelopes ++ msgs.map fun msg => (k, msg)) =
      requestsTo n envelopes ++ if n = k then msgs else [] := by
  unfold requestsTo
  rw [List.filter_append, List.map_append]
  refine congrArg (_ ++ ·) ?_
  by_cases hk : n = k
  · subst hk
    rw [if_pos rfl, List.filter_eq_self.mpr (by simp), List.map_map]
    exact List.map_id msgs
  · have hnone : (msgs.map fun msg => (k, msg)).filter (fun e => e.1 = n) = [] :=
      List.filter_eq_nil_iff.mpr (by simpa using fun _ _ heq => hk heq.symm)
    rw [if_neg hk, hnone]
    rfl

/-- The requests `accepted` come into the channel and the requests `delivered` out of it. What is
neither passed on nor in the channel is lost, and nothing is lost before the loop is left. -/
def Balanced (front front' : Front) (accepted delivered : List PeerMessage) : Prop :=
  ∀ lost, (front.stopped = false → lost = []) → ∃ lost',
    front.backlog ++ lost ++ accepted = delivered ++ front'.backlog ++ lost' ∧
      (front'.stopped = false → lost' = [])

/-- Nothing is lost when requests are passed on. -/
theorem balanced_of_eq {front front' : Front} {delivered : List PeerMessage}
    (hstopped : front'.stopped = front.stopped) (hbacklog : front.backlog = delivered ++ front'.backlog) :
    Balanced front front' [] delivered := by
  intro lost hopen
  refine ⟨lost, ?_, fun hrunning => hopen (hstopped.symm.trans hrunning)⟩
  rw [hbacklog, List.append_nil]

/-- Requests are acknowledged in the loop only. -/
theorem balanced_accept {front front' : Front} {msg : PeerMessage} (hopen : front.stopped = false)
    (hbacklog : front'.backlog = front.backlog ++ [msg]) : Balanced front front' [msg] [] := by
  intro lost hlost
  obtain rfl := hlost hopen
  refine ⟨[], ?_, fun _ => rfl⟩
  rw [hbacklog, List.append_nil, List.append_nil]
  rfl

/-- What happens to the connections and the channels of one node loses a request only when the loop is
left. -/
theorem balanced_moved {front : Front} (h : (s.fronts n).Sound)
    (hf : (s.fronts n).Moved overflowChecks front) : Balanced (s.fronts n) front [] [] := by
  cases hf with
  | connect => exact balanced_of_eq rfl rfl
  | io i c hc self' hp => cases hp <;> exact balanced_of_eq rfl rfl
  | receive hhand m localRx hm =>
    have hlocal := h.locals m (by rw [hm]; simp)
    refine balanced_of_eq rfl ?_
    unfold Front.backlog
    rw [hhand]
    simp [hlocal]
  | receivePeer hhand m remoteRx hm =>
    refine balanced_of_eq rfl ?_
    unfold Front.backlog
    rw [hhand, hm]
    rfl
  | stop hhand =>
    intro lost _
    have hempty : Front.backlog { s.fronts n with
        stopped := true, localRx := Channel.empty, remoteRx := Channel.empty } = [] := by
      unfold Front.backlog
      rw [hhand]
      rfl
    refine ⟨(s.fronts n).backlog ++ lost, ?_, fun hrunning => absurd hrunning (by simp)⟩
    rw [hempty, List.append_nil]
    rfl

/-- A message that the manager passes on is a request that is delivered, or a transaction of a
client. -/
theorem delivered_message (h : Federation.Lawful s.federation) {msg : XsMessage} {txn : Txn}
    {federation : Federation}
    (hfed : s.federation.step (.cluster (.ofMessage n msg) txn) = some federation) :
    federation.cluster.delivered =
      s.federation.cluster.delivered ++ msg.peer.toList.map fun m => (n, m) := by
  obtain ⟨st, hst, rfl⟩ := Option.map_eq_some_iff.mp (Option.ite_none_right_eq_some.mp hfed).2
  rw [Federation.follow_cluster]
  have hn := h.honest.nodeId n
  cases msg with
  | localXact data commitTx =>
    obtain ⟨-, -, delivered, -⟩ := Cluster.procs_message (by exact hn) hst
    exact delivered.trans (List.append_nil _).symm
  | prepare msg =>
    obtain ⟨-, hst⟩ := Option.ite_none_right_eq_some.mp hst
    obtain ⟨-, -, delivered, -⟩ := Cluster.procs_message (by exact hn) hst
    exact delivered
  | vote msg =>
    obtain ⟨-, hst⟩ := Option.ite_none_right_eq_some.mp hst
    obtain ⟨-, -, delivered, -⟩ := Cluster.procs_message (by exact hn) hst
    exact delivered

/-- Nothing else delivers a request. -/
theorem delivered_same (h : Federation.Lawful s.federation) {a : Federation.Act}
    {federation : Federation} (hdeliver : ∀ k msg txn, a ≠ .cluster (.deliver k msg) txn)
    (hfed : s.federation.step a = some federation) :
    federation.cluster.delivered = s.federation.cluster.delivered := by
  have hchange : ∀ c, s.federation.cluster.step c = some federation.cluster →
      (∀ k msg, c ≠ .deliver k msg) →
      federation.cluster.delivered = s.federation.cluster.delivered := by
    intro c hc hnot
    cases Cluster.change_of_step h.honest.nodeId hc with
    | client k data tx procs sent delivered => exact delivered
    | deliver k msg => exact absurd rfl (hnot k msg)
    | emit k x envelope mem procs sent delivered => exact delivered
    | own _ k x p p' hp ha procs sent delivered => exact delivered
  rcases Federation.cluster_cases hfed with heq | ⟨c, txn, rfl, hc⟩ | ⟨k, x, txn, r, rfl, -, hc⟩
  · rw [heq]
  · exact hchange c hc fun k msg heq => hdeliver k msg txn (by rw [heq])
  · exact hchange _ hc fun k msg heq => absurd heq (by simp)

namespace Delivers

theorem init (history : NodeId → String → List GidEvent) : Delivers (System.init history) where
  order := fun _ => ⟨[], rfl, fun _ => rfl⟩
  acknowledged := fun n id p messages hp => absurd hp (by
    simp [System.init, Federation.init, Cluster.init, Cluster.proc, Manager.new])

/-- The requests `accepted` are acknowledged by the node, and the requests `delivered` are passed
on. -/
theorem order_set (h : Delivers s) {front : Front} {accepted delivered : List PeerMessage}
    (hfront : Balanced (s.fronts n) front accepted delivered)
    (haccepted : s'.accepted = s.accepted ++ accepted.map fun msg => (n, msg))
    (hdelivered : s'.federation.cluster.delivered =
      s.federation.cluster.delivered ++ delivered.map fun msg => (n, msg))
    (hfronts : s'.fronts = Function.update s.fronts n front) (k : NodeId) :
    ∃ lost, requestsTo k s'.accepted =
      requestsTo k s'.federation.cluster.delivered ++ (s'.fronts k).backlog ++ lost ∧
        ((s'.fronts k).stopped = false → lost = []) := by
  obtain ⟨lost, horder, hlost⟩ := h.order k
  rw [haccepted, hdelivered, hfronts, requestsTo_append, requestsTo_append, horder]
  by_cases hk : k = n
  · subst hk
    obtain ⟨lost', hbalance, hlost'⟩ := hfront lost hlost
    rw [if_pos rfl, if_pos rfl, Function.update_self]
    refine ⟨lost', ?_, hlost'⟩
    simpa only [List.append_assoc] using congrArg (_ ++ ·) hbalance
  · rw [if_neg hk, if_neg hk, Function.update_of_ne hk, List.append_nil, List.append_nil]
    exact ⟨lost, rfl, hlost⟩

/-- One step. -/
theorem step (h : Delivers s) (hsound : Sound overflowChecks s) {a : Act}
    (hs : s.step overflowChecks a = some s') : Delivers s' := by
  have hlawful := hsound.lawful
  -- a broadcast is answered by a step of its own only
  have hbefore : ∀ {a : Federation.Act} {federation : Federation},
      s.federation.step a = some federation →
      (∀ k x r txn, a ≠ .cluster (.answer k x r) txn) → ∀ k id p messages,
      federation.cluster.proc k id = some p → .ret (.sendToAll messages) (.ok ()) ∈ p.log →
      ∀ e ∈ messages, e ∈ s.accepted := by
    intro a federation hfed hanswer k id p messages hp hret
    rcases Federation.broadcast_cases hlawful hfed hp hret with ⟨q, hq, hold⟩ | ⟨txn, ha, -⟩
    · exact h.acknowledged k id q messages hq hold
    · exact absurd ha (hanswer k id (.ok ()) txn)
  cases moved_of_step hs with
  | front n front hf h' =>
    subst h'
    exact ⟨h.order_set (balanced_moved (hsound.fronts n) hf) (List.append_nil _).symm
      (List.append_nil _).symm rfl, h.acknowledged⟩
  | accept n msg remoteRx hsent hopen hsend h' =>
    subst h'
    have hpeer : (XsMessage.ofPeer msg).peer = some msg := by cases msg <;> rfl
    have hbacklog : Front.backlog { s.fronts n with remoteRx } = (s.fronts n).backlog ++ [msg] := by
      unfold Front.backlog
      rw [Channel.send_messages hsend]
      simp [hpeer]
    exact ⟨h.order_set (balanced_accept hopen hbacklog) rfl (List.append_nil _).symm rfl,
      fun k id p messages hp hret e he =>
        List.mem_append_left _ (h.acknowledged k id p messages hp hret e he)⟩
  | pass n msg hhand federation hfed h' =>
    subst h'
    have hbacklog : (s.fronts n).backlog = msg.peer.toList ++ (s.handOver n msg).backlog := by
      unfold Front.backlog
      rw [hhand]
      cases msg <;> rfl
    have hstopped : (s.handOver n msg).stopped = (s.fronts n).stopped := by cases msg <;> rfl
    refine ⟨h.order_set (balanced_of_eq hstopped hbacklog) (List.append_nil _).symm
      (delivered_message hlawful hfed) rfl,
      hbefore hfed fun k x r txn => ?_⟩
    cases msg <;> simp [Cluster.Action.ofMessage]
  | answer n x r txn hanswer federation hfed h' =>
    subst h'
    have hbalanced : Balanced (s.fronts n) (s.told n x r) [] [] := by
      unfold told
      cases r with
      | error e => exact balanced_of_eq rfl rfl
      | ok u =>
        cases (s.federation.cluster.awaited n x).bind Effect.decides with
        | none => exact balanced_of_eq rfl rfl
        | some d => exact balanced_of_eq rfl rfl
    have hdelivered := delivered_same hlawful (fun k msg txn' => by simp) hfed
    refine ⟨h.order_set hbalanced (List.append_nil _).symm
      (hdelivered.trans (List.append_nil _).symm) rfl, fun k id p messages hp hret => ?_⟩
    rcases Federation.broadcast_cases hlawful hfed hp hret with ⟨q, hq, hold⟩ | ⟨txn', ha, hawaited⟩
    · exact h.acknowledged k id q messages hq hold
    · obtain ⟨rfl, rfl, rfl⟩ := Cluster.Action.answer.inj (Federation.Act.cluster.inj ha).1
      unfold canAnswer at hanswer
      rw [hawaited] at hanswer
      have hall : messages.all s.accepted.contains = true := by simpa using hanswer
      exact fun e he => List.contains_iff_mem.mp (List.all_eq_true.mp hall e he)
  | work a federation hclient hdeliver hanswer hfed h' =>
    subst h'
    have hdelivered := delivered_same hlawful hdeliver hfed
    refine ⟨fun k => ?_, hbefore hfed hanswer⟩
    dsimp only
    rw [hdelivered]
    exact h.order k

end Delivers

/-- **Acknowledged requests are not lost while the manager runs.** In every run, what the manager of a
node has passed on, followed by what is still in its channel, is what the node has acknowledged, in
this order: all of it, until the manager leaves its loop, and from then on a first part of it. A
broadcast succeeds only when all its requests were acknowledged. -/
theorem acknowledged_delivered (overflowChecks : Bool)
    (history : NodeId → String → List GidEvent) (s : System)
    (hr : Machine.Reach (step overflowChecks) (fun _ _ => True) (init history) s) :
    (∀ n, requestsTo n s.federation.cluster.delivered ++ (s.fronts n).backlog <+:
        requestsTo n s.accepted ∧
      ((s.fronts n).stopped = false → requestsTo n s.accepted =
        requestsTo n s.federation.cluster.delivered ++ (s.fronts n).backlog)) ∧
    ∀ n id p messages, s.federation.cluster.proc n id = some p →
      .ret (.sendToAll messages) (.ok ()) ∈ p.log → ∀ dst msg, (dst, msg) ∈ messages →
        msg ∈ requestsTo dst s.accepted ∧
        ((s.fronts dst).stopped = false →
          msg ∈ requestsTo dst s.federation.cluster.delivered ∨ msg ∈ (s.fronts dst).backlog) := by
  have h : Delivers s := by
    induction hr with
    | start => exact .init history
    | step a hr _ hs ih => exact ih.step (Sound.of_reach hr) hs
  have hall : ∀ n, (s.fronts n).stopped = false → requestsTo n s.accepted =
      requestsTo n s.federation.cluster.delivered ++ (s.fronts n).backlog := by
    intro n hopen
    obtain ⟨lost, horder, hlost⟩ := h.order n
    rw [horder, hlost hopen, List.append_nil]
  refine ⟨fun n => ⟨?_, hall n⟩, fun n id p messages hp hret dst msg hmem => ?_⟩
  · obtain ⟨lost, horder, -⟩ := h.order n
    exact ⟨lost, horder.symm⟩
  · have haccepted := h.acknowledged n id p messages hp hret (dst, msg) hmem
    have hto : msg ∈ requestsTo dst s.accepted :=
      List.mem_map.mpr ⟨(dst, msg), List.mem_filter.mpr ⟨haccepted, by simp⟩, rfl⟩
    refine ⟨hto, fun hopen => ?_⟩
    rw [hall dst hopen] at hto
    exact List.mem_append.mp hto

/-- Node 1 acknowledges the request of `replyRun`, and its manager leaves the loop before it gets
there. -/
def shutdownRun : List Act := replyRun.take 10 ++ [.shutdown ⟨1⟩]

theorem acknowledged_delivered_shutdown :
    ∃ s, Machine.run (step false) (init fun _ _ => []) shutdownRun = some s ∧
      (requestsTo ⟨1⟩ s.accepted).length = 1 ∧ (s.fronts ⟨1⟩).backlog = [] ∧
      requestsTo ⟨1⟩ s.federation.cluster.delivered ++ (s.fronts ⟨1⟩).backlog <+:
        requestsTo ⟨1⟩ s.accepted := by
  have hrun : (Machine.run (step false) (init fun _ _ => []) shutdownRun).map
      (fun s => ((requestsTo ⟨1⟩ s.accepted).length, (s.fronts ⟨1⟩).backlog)) = some (1, []) := by
    decide
  obtain ⟨s, hs, heq⟩ := Option.map_eq_some_iff.mp hrun
  obtain ⟨hlength, hbacklog⟩ := Prod.mk.inj heq
  have hreach : Machine.Reach (step false) (fun _ _ => True) (init fun _ _ => []) s :=
    Machine.reach_of_run .start (Machine.admitted_of_forall fun _ _ _ => trivial) hs
  exact ⟨s, hs, hlength, hbacklog, ((acknowledged_delivered false _ s hreach).1 ⟨1⟩).1⟩

end System

end Sunstorm
