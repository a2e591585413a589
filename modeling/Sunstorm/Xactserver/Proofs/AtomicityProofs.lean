import Sunstorm.Xactserver.Proofs.UndisturbedProofs

/-!
# Proofs: what a failed broadcast leaves behind

A node whose broadcast failed gives up the transaction, although its request may have reached some
of the others, and these may go on to commit. Apart from that, no participant is left out when
another one commits.
-/

namespace Sunstorm

open Await Tally

namespace Cluster

variable {st : Cluster} {n x y : NodeId} {id : XactId} {p q : XactProc}

namespace Honest

variable {data : Bytes} {P : BitSet}

/-- A node that has committed, or tells its client so, has a ballot that is carried. -/
theorem carried_of_committed (h : Honest st)
    (hx : st.status x id = .committed ∨
      ∃ p tx, st.proc x id = some p ∧ .call (.replyCommit tx) ∈ p.log) :
    ∃ p o P early late, st.proc x id = some p ∧
      Standing id x (XactProc.status p) p.log o P early late ∧
      decision P (o.votes x ++ (early ++ late).map VoteMessage.cast) = .commit := by
  rcases hx with hx | ⟨p, tx, hp, hcall⟩
  · obtain ⟨p, o, P, early, late, hp, heq, hst⟩ :=
      h.standing_of_status (by rw [hx]; simp) (by rw [hx]; simp)
    exact ⟨p, o, P, early, late, hp, hst, hst.carried (Or.inr (heq.symm.trans hx))⟩
  · rcases (h.stage hp).standing with ⟨-, hacts, -⟩ | ⟨o, P, early, late, hst⟩
    · exact absurd (hacts _ (mem_calls.mpr hcall)).1 (by simp [Effect.isCommit])
    · have hclosing := hst.acts _ (mem_calls.mpr hcall) (Or.inl rfl)
      rcases Opening.closing_cases hclosing with ⟨hd, -⟩ | ⟨-, hc, -⟩
      · exact ⟨p, o, P, early, late, hp, hst, hd⟩
      · exact absurd hc (by simp [Effect.isCommit])

/-- Once a ballot is carried, every participant and the coordinator know of the transaction. -/
theorem exists_proc (h : Honest st) (hp : st.proc x id = some p) {o : Opening} {P : BitSet}
    {early late : List VoteMessage}
    (hst : Standing id x (XactProc.status p) p.log o P early late)
    (hd : decision P (o.votes x ++ (early ++ late).map VoteMessage.cast) = .commit)
    (hy : y.toUsize ∈ P ∨ y = id.nodeId) : ∃ q, st.proc y id = some q := by
  by_cases hc : y = id.nodeId
  · subst hc
    have hm := hst.message_mem
    cases o with
    | coordinator data tx =>
      obtain ⟨-, rfl⟩ := h.recv_local hp hm
      exact ⟨p, hp⟩
    | surrogate msg r =>
      obtain ⟨-, -, -, c, messages, hc, -⟩ := h.prepare_from hp hm
      exact ⟨c, hc⟩
  · obtain ⟨q, hq, -⟩ := h.validity hp hst hd (hy.resolve_right hc) hc
    exact ⟨q, hq⟩

/-- A node that is not the coordinator takes part. -/
theorem member_of_standing (h : Honest st) (hp : st.proc x id = some p) {o : Opening} {P : BitSet}
    {early late : List VoteMessage}
    (hst : Standing id x (XactProc.status p) p.log o P early late) (hx : x ≠ id.nodeId) :
    x.toUsize ∈ P := by
  have hm := hst.message_mem
  cases o with
  | coordinator data tx => exact absurd (h.recv_local hp hm).2.symm hx
  | surrogate msg r => exact (hst.member msg r rfl).2

end Honest

/-- A decision that was carried out at one node agrees with a ballot that is carried at another. -/
theorem Finished.committed (h : Honest st) (hq : st.proc y id = some q) (hfin : Finished id y q)
    (hp : st.proc x id = some p) {o : Opening} {P : BitSet} {early late : List VoteMessage}
    (hst : Standing id x (XactProc.status p) p.log o P early late) (hne : x ≠ y)
    (hd : decision P (o.votes x ++ (early ++ late).map VoteMessage.cast) = .commit) :
    XactProc.status q = .committed := by
  obtain ⟨S, late', e, hseen, he, hstatus, -⟩ := hfin
  rw [hstatus]
  rcases Opening.closing_cases he with ⟨hd', -⟩ | ⟨⟨i, reason, hd'⟩, -⟩
  · rw [hd']
    rfl
  · exact absurd hd' (h.agreement hp hst hq hseen.standing hne hd)

/-- Executions and broadcasts may fail. -/
def failsUpToRpc (e : Effect) : Bool := e.isExecute || e.isSendToAll

/-- **When requests between nodes fail.** In every run in which nothing but executions and
broadcasts fails, once a node has committed the transaction or tells its client so, every other
participant and the coordinator has a state manager for it that still runs, or has committed, or has
ended because its own broadcast failed. -/
theorem commit_despite_failed_rpcs (st : Cluster) (id : XactId) (data : Bytes) (P : BitSet)
    (hr : Reach (Undisturbed id failsUpToRpc) st) (hid : st.Unique id data)
    (hP : RWSet.participantsIn data = some P) (x : NodeId)
    (hx : st.status x id = .committed ∨
      ∃ p tx, st.proc x id = some p ∧ .call (.replyCommit tx) ∈ p.log)
    (y : NodeId) (hy : y.toUsize ∈ P ∨ y = id.nodeId) (hne : x ≠ y) :
    ∃ q, st.proc y id = some q ∧
      (q.task.isHalted = false ∨ XactProc.status q = .committed ∨
        q.task.isHalted = true ∧ ∃ messages e, .ret (.sendToAll messages) (.error e) ∈ q.log) := by
  have h := Honest.of_reach hr
  obtain ⟨p, o, Px, early, late, hp, hst, hd⟩ := h.carried_of_committed hx
  have hdec := hst.decoded
  rw [h.data_eq hp hst hid, hP] at hdec
  obtain rfl := Option.some.inj hdec
  obtain ⟨q, hq⟩ := h.exists_proc hp hst hd hy
  obtain ⟨t, ht, htc⟩ : ∃ t : NodeId, t.toUsize ∈ P ∧ t ≠ id.nodeId := by
    by_cases hc : y = id.nodeId
    · have hxc : x ≠ id.nodeId := fun heq => hne (heq.trans hc.symm)
      exact ⟨x, h.member_of_standing hp hst hxc, hxc⟩
    · exact ⟨y, hy.resolve_right hc, hc⟩
  refine ⟨q, hq, ?_⟩
  by_cases hhalt : q.task.isHalted = true
  · have hfails : ∀ e : Effect, e.isExecute = false → e.isSendToAll = false →
        failsUpToRpc e = false := fun e he hs => by rw [failsUpToRpc, he, hs]; rfl
    rcases (calm_of_reach hr).ended h (rooted_of_reach hr) hfails hid hP ht htc hy hq hhalt with
      hfin | hfailed
    · exact Or.inr (Or.inl (hfin.committed h hq hp hst hne hd))
    · exact Or.inr (Or.inr ⟨hhalt, hfailed⟩)
  · exact Or.inl (by simpa using hhalt)

/-- Three nodes run a transaction. The votes of node 1 reach the others, but one of the answers is
lost; node 1 gives up, and the others commit. -/
def lostAnswerRun : List Action :=
  let id : XactId := .new 1 ⟨0⟩
  let data : Bytes := [0, 0, 0, 1, 0, 0, 0, 0, 0, 0, 0, 7, 0, 0, 0, 0, 0, 0, 0, 0]
  let prepare : PeerMessage := .prepare { «from» := 0, xactId := id.val, data }
  let yes (n : UInt32) : PeerMessage :=
    .vote { «from» := n, xactId := id.val, rollbackReason := none }
  [.client ⟨0⟩ data ⟨7⟩, .take ⟨0⟩ id, .emit ⟨0⟩ id (⟨1⟩, prepare), .emit ⟨0⟩ id (⟨2⟩, prepare),
    .answer ⟨0⟩ id (.ok ()), .deliver ⟨1⟩ prepare, .take ⟨1⟩ id, .answer ⟨1⟩ id (.ok ()),
    .emit ⟨1⟩ id (⟨0⟩, yes 1), .emit ⟨1⟩ id (⟨2⟩, yes 1), .answer ⟨1⟩ id (.error (.msg "timeout")),
    .deliver ⟨0⟩ (yes 1), .deliver ⟨2⟩ (yes 1), .take ⟨2⟩ id, .deliver ⟨2⟩ prepare, .take ⟨2⟩ id,
    .answer ⟨2⟩ id (.ok ()), .emit ⟨2⟩ id (⟨0⟩, yes 2), .emit ⟨2⟩ id (⟨1⟩, yes 2),
    .answer ⟨2⟩ id (.ok ()), .answer ⟨2⟩ id (.ok ()), .deliver ⟨0⟩ (yes 2), .take ⟨0⟩ id,
    .take ⟨0⟩ id, .answer ⟨0⟩ id (.ok ())]

theorem lostAnswerRun_state :
    ∃ st, Reach (Undisturbed (.new 1 ⟨0⟩) failsUpToRpc) st ∧
      st.Unique (.new 1 ⟨0⟩) [0, 0, 0, 1, 0, 0, 0, 0, 0, 0, 0, 7, 0, 0, 0, 0, 0, 0, 0, 0] ∧
      st.status ⟨0⟩ (.new 1 ⟨0⟩) = .committed ∧ st.status ⟨1⟩ (.new 1 ⟨0⟩) = .waiting ∧
      (st.proc ⟨1⟩ (.new 1 ⟨0⟩)).map (fun p => p.task.isHalted) = some true := by
  have hrun : (init.run lostAnswerRun).map (fun st => (st.assigned, st.status ⟨0⟩ (.new 1 ⟨0⟩),
      st.status ⟨1⟩ (.new 1 ⟨0⟩), (st.proc ⟨1⟩ (.new 1 ⟨0⟩)).map fun p => p.task.isHalted)) =
      some ([(.new 1 ⟨0⟩, [0, 0, 0, 1, 0, 0, 0, 0, 0, 0, 0, 7, 0, 0, 0, 0, 0, 0, 0, 0])],
        .committed, .waiting, some true) := by decide
  obtain ⟨st, hst, heq⟩ := Option.map_eq_some_iff.mp hrun
  obtain ⟨hassigned, heq⟩ := Prod.mk.inj heq
  obtain ⟨hcommitted, heq⟩ := Prod.mk.inj heq
  obtain ⟨hwaiting, hhalted⟩ := Prod.mk.inj heq
  refine ⟨st, reach_of_run .init hst (by decide), ?_, hcommitted, hwaiting, hhalted⟩
  unfold Unique
  rw [hassigned]
  decide

theorem failed_rpc_leaves_undecided :
    ¬ ∀ st id data P, Reach (Undisturbed id failsUpToRpc) st → st.Unique id data →
      RWSet.participantsIn data = some P → ∀ x y : NodeId, x.toUsize ∈ P → y.toUsize ∈ P →
      st.status x id = .committed →
      st.status y id = .committed ∨
        ∃ p, st.proc y id = some p ∧ p.task.isHalted = false := by
  intro hclaim
  obtain ⟨st, hr, hid, hcommitted, hwaiting, hhalted⟩ := lostAnswerRun_state
  rcases hclaim st _ _ {0, 1, 2} hr hid (by decide) ⟨0⟩ ⟨1⟩ (by decide) (by decide) hcommitted with
    h | ⟨p, hp, h⟩
  · rw [hwaiting] at h
    exact absurd h (by simp)
  · rw [hp] at hhalted
    exact absurd ((Option.some.inj hhalted).symm.trans h) (by simp)

theorem commit_despite_failed_rpcs_lost_answer :
    ∃ st, Reach (Undisturbed (.new 1 ⟨0⟩) failsUpToRpc) st ∧
      ∃ q, st.proc ⟨1⟩ (.new 1 ⟨0⟩) = some q ∧
        (q.task.isHalted = false ∨ XactProc.status q = .committed ∨
          q.task.isHalted = true ∧
            ∃ messages e, .ret (.sendToAll messages) (.error e) ∈ q.log) := by
  obtain ⟨st, hr, hid, hcommitted, -⟩ := lostAnswerRun_state
  exact ⟨st, hr, commit_despite_failed_rpcs st _ _ {0, 1, 2} hr hid (by decide) ⟨0⟩
    (Or.inl hcommitted) ⟨1⟩ (Or.inl (by decide)) (by decide)⟩

end Cluster

end Sunstorm
