import Sunstorm.Xactserver.Proofs.HonestProofs

/-!
# Proofs: all nodes decide the same

A ballot that is carried at one node has a yes of every participant, and a ballot that is lost at
another has the no of one. The two votes are of the same node, and a node votes once.
-/

namespace Sunstorm

open Await Tally

namespace Cluster

variable {st : Cluster} {x y t : NodeId} {id : XactId} {p q : XactProc}

/-- A sequence of actions that is possible and admitted is a run. -/
theorem reach_of_run {ok : Cluster → Action → Prop} [∀ st a, Decidable (ok st a)]
    {as : List Action} {st₀ : Cluster} (h₀ : Reach ok st₀) (h : st₀.run as = some st)
    (hok : st₀.admits ok as = true) : Reach ok st := by
  induction as generalizing st₀ with
  | nil =>
    obtain rfl := Option.some.inj h
    exact h₀
  | cons a as ih =>
    simp only [run] at h
    simp only [admits, Bool.and_eq_true] at hok
    obtain ⟨ha, hrest⟩ := hok
    split at h
    · rename_i st₁ hs
      rw [hs] at hrest
      exact ih (.step a h₀ (of_decide_eq_true ha) hs) h hrest
    · exact absurd h (by simp)

theorem Unique.data_eq {data data' : Bytes} (h : st.Unique id data)
    (hmem : (id, data') ∈ st.assigned) : data' = data := by
  have hfilter : (id, data') ∈ st.assigned.filter fun a => a.1 = id :=
    List.mem_filter.mpr ⟨hmem, by simp⟩
  rw [h, List.mem_singleton] at hfilter
  exact (Prod.mk.inj hfilter).2

namespace Honest

variable {o o' : Opening} {P P' : BitSet} {early late early' late' : List VoteMessage}

/-- The yes of a participant other than the coordinator, in a ballot that is carried. -/
theorem yes_of_carried (h : Honest st) (hp : st.proc x id = some p)
    (hst : Standing id x (XactProc.status p) p.log o P early late)
    (hd : decision P (o.votes x ++ (early ++ late).map VoteMessage.cast) = .commit)
    (ht : t.toUsize ∈ P) (hc : t ≠ id.nodeId) :
    (t = x ∧ ∃ msg, o = .surrogate msg (.ok ())) ∨
      ∃ q messages v, st.proc t id = some q ∧ .call (.sendToAll messages) ∈ q.log ∧
        (x, .vote v) ∈ messages ∧ v.rollbackReason = none := by
  rcases Standing.mem_ballot ((yes_of_commit hd).2 _ ht) with hown | ⟨v, hv, hcast⟩
  · rcases Standing.own_yes hown with hcoord | ⟨hx, hok⟩
    · rw [(h.coordinator_eq hp hst).1] at hcoord
      exact absurd (NodeId.toUsize_inj.mp hcoord) hc
    · exact Or.inl ⟨NodeId.toUsize_inj.mp hx, hok⟩
  · obtain ⟨hfrom, hreason⟩ := Prod.mk.inj hcast
    obtain ⟨q, messages, hq, hcall, hmem⟩ := h.vote_from hp (hst.counted v hv)
    have ht' : (⟨v.from⟩ : NodeId) = t := NodeId.toUsize_inj.mp hfrom
    rw [ht'] at hq
    exact Or.inr ⟨q, messages, v, hq, hcall, hmem, Option.map_eq_none_iff.mp hreason⟩

/-- **Agreement.** No ballot of a transaction is carried at one node and lost at another. -/
theorem agreement (h : Honest st) (hp : st.proc x id = some p)
    (hst : Standing id x (XactProc.status p) p.log o P early late)
    (hq : st.proc y id = some q)
    (hst' : Standing id y (XactProc.status q) q.log o' P' early' late') (hne : x ≠ y)
    (hd : decision P (o.votes x ++ (early ++ late).map VoteMessage.cast) = .commit) {i : Nat}
    {reason : RollbackReason} :
    decision P' (o'.votes y ++ (early' ++ late').map VoteMessage.cast) ≠ .rollback i reason := by
  intro hd'
  obtain rfl := h.same_participants hp hst hq hst' hne
  obtain ⟨hi, hno⟩ := no_of_rollback hd'
  rcases Standing.mem_ballot hno with hown | ⟨w, hw, hcast⟩
  · -- the execution at `y` failed, so `y` cannot have voted yes
    obtain ⟨rfl, msg, e, rfl, -⟩ := Standing.own_no hown
    have hc := (h.coordinator_eq hq hst').2 msg _ rfl
    rcases h.yes_of_carried hp hst hd hi hc with ⟨heq, -⟩ | ⟨q', messages, v, hq', hcall, hmem, hv⟩
    · exact hne heq.symm
    · obtain rfl : q = q' := Option.some.inj (hq.symm.trans hq')
      obtain ⟨⟨msg', ho⟩, -⟩ := hst'.yes_vote hcall hmem hv
      exact absurd (Opening.surrogate.inj ho).2 (by simp)
  · -- the node `m` voted no, so it cannot have voted yes
    obtain ⟨rfl, hreason⟩ := Prod.mk.inj hcast
    obtain ⟨q', messages, hq', hcall, hmem⟩ := h.vote_from hq (hst'.counted w hw)
    obtain ⟨pr, hpr, -⟩ := Option.map_eq_some_iff.mp hreason
    have hmP : (⟨w.from⟩ : NodeId).toUsize ∈ P := hi
    generalize (⟨w.from⟩ : NodeId) = m at hmP hq'
    by_cases hmx : m = x
    · subst hmx
      obtain rfl : p = q' := Option.some.inj (hp.symm.trans hq')
      obtain ⟨j, hlost⟩ := hst.no_vote hcall hmem hpr
      rw [Opening.decision_stable (by rw [hlost]; simp), hlost] at hd
      exact absurd hd (by simp)
    · obtain ⟨om, Pm, earlym, latem, hstm⟩ := h.standing_of_broadcast hq' hcall
      obtain ⟨j, hlost⟩ := hstm.no_vote hcall hmem hpr
      have hc : m ≠ id.nodeId := by
        obtain ⟨hreq, -⟩ := hstm.announces hcall hmem
        cases om with
        | coordinator data tx => exact absurd hreq (by simp [Opening.request])
        | surrogate msg r => exact (h.coordinator_eq hq' hstm).2 msg r rfl
      rcases h.yes_of_carried hp hst hd hmP hc with ⟨heq, -⟩ | ⟨q₂, messages₂, v, hq₂, hcall₂, hmem₂, hv⟩
      · exact hmx heq
      · obtain rfl : q' = q₂ := Option.some.inj (hq'.symm.trans hq₂)
        exact (hstm.yes_vote hcall₂ hmem₂ hv).2 _ _ hlost

/-- **Validity.** A ballot is carried only after every execution succeeded. -/
theorem validity (h : Honest st) (hp : st.proc x id = some p)
    (hst : Standing id x (XactProc.status p) p.log o P early late)
    (hd : decision P (o.votes x ++ (early ++ late).map VoteMessage.cast) = .commit)
    (ht : t.toUsize ∈ P) (hc : t ≠ id.nodeId) :
    ∃ q, st.proc t id = some q ∧ .ret (.execute id o.data) (.ok ()) ∈ q.log := by
  have hret : ∀ (msg : PrepareMessage), .ret (.execute id msg.data) (.ok ()) ∈
      (Opening.surrogate msg (.ok ())).executed id := fun msg => by simp [Opening.executed]
  rcases h.yes_of_carried hp hst hd ht hc with ⟨rfl, msg, rfl⟩ | ⟨q, messages, v, hq, hcall, hmem, hv⟩
  · exact ⟨p, hp, hst.executed_mem _ (hret msg)⟩
  · obtain ⟨ot, Pt, earlyt, latet, hstt⟩ := h.standing_of_broadcast hq hcall
    obtain ⟨⟨msg, rfl⟩, -⟩ := hstt.yes_vote hcall hmem hv
    obtain ⟨-, hne, -⟩ := hstt.announces hcall hmem
    refine ⟨q, hq, ?_⟩
    rw [h.same_data hp hst hq hstt hne]
    exact hstt.executed_mem _ (hret msg)

/-- A status that is decided has a ballot behind it. -/
theorem standing_of_status (h : Honest st) (hs : st.status x id ≠ .uninitialized)
    (hs' : st.status x id ≠ .waiting) :
    ∃ p o P early late, st.proc x id = some p ∧ st.status x id = XactProc.status p ∧
      Standing id x (XactProc.status p) p.log o P early late := by
  unfold status at hs hs' ⊢
  split at hs
  · rename_i p hp
    rw [hp] at hs' ⊢
    rcases (h.stage hp).standing with ⟨-, -, -, hu | hw⟩ | ⟨o, P, early, late, hst⟩
    · exact absurd hu hs
    · exact absurd hw hs'
    · exact ⟨p, o, P, early, late, rfl, rfl, hst⟩
  · exact absurd rfl hs

/-- The data that opened a ballot is that of the local transaction. -/
theorem data_eq (h : Honest st) (hp : st.proc x id = some p)
    (hst : Standing id x (XactProc.status p) p.log o P early late) {data : Bytes}
    (hid : st.Unique id data) : o.data = data := by
  have hm := hst.message_mem
  cases o with
  | coordinator data' tx => exact hid.data_eq (h.recv_local hp hm).1
  | surrogate msg r =>
    obtain ⟨-, -, -, c, messages, hc, hcall, -⟩ := h.prepare_from hp hm
    obtain ⟨oc, Pc, earlyc, latec, hstc⟩ := h.standing_of_broadcast hc hcall
    have hdata := h.prepared_data hp hm hc hstc
    have hmc := hstc.message_mem
    cases oc with
    | coordinator data' tx => exact hdata.symm.trans (hid.data_eq (h.recv_local hc hmc).1)
    | surrogate msg' r' => exact absurd rfl ((h.coordinator_eq hc hstc).2 msg' r' rfl)

end Honest

/-- **Agreement and validity of the commit protocol.** In every run in which the id was given to one
transaction, no node commits while another rolls back, and a node commits only after the execution
has succeeded at every participant other than the coordinator. -/
theorem agreement_and_validity (st : Cluster) (hr : Reach (fun _ _ => True) st) (id : XactId)
    (data : Bytes) (P : BitSet) (hid : st.Unique id data)
    (hP : RWSet.participantsIn data = some P) :
    (∀ x y info, (st.status x id = .committing ∨ st.status x id = .committed) →
      ¬ (st.status y id = .rollbacking info ∨ st.status y id = .rollbacked info)) ∧
    (∀ x, (st.status x id = .committing ∨ st.status x id = .committed) →
      ∀ t : NodeId, t.toUsize ∈ P → t ≠ id.nodeId →
        ∃ p, st.proc t id = some p ∧ .ret (.execute id data) (.ok ()) ∈ p.log) := by
  have h := Honest.of_reach hr
  have hcarried : ∀ x, (st.status x id = .committing ∨ st.status x id = .committed) →
      ∃ p o P early late, st.proc x id = some p ∧ st.status x id = XactProc.status p ∧
        Standing id x (XactProc.status p) p.log o P early late ∧
        decision P (o.votes x ++ (early ++ late).map VoteMessage.cast) = .commit := by
    intro x hx
    obtain ⟨p, o, P, early, late, hp, hs, hst⟩ := h.standing_of_status
      (by rcases hx with hx | hx <;> rw [hx] <;> simp)
      (by rcases hx with hx | hx <;> rw [hx] <;> simp)
    rw [hs] at hx
    exact ⟨p, o, P, early, late, hp, hs, hst, hst.carried hx⟩
  constructor
  · intro x y info hx hy
    obtain ⟨p, o, Px, early, late, hp, hs, hst, hd⟩ := hcarried x hx
    obtain ⟨q, o', Py, early', late', hq, hs', hst'⟩ := h.standing_of_status
      (by rcases hy with hy | hy <;> rw [hy] <;> simp)
      (by rcases hy with hy | hy <;> rw [hy] <;> simp)
    have hne : x ≠ y := by
      rintro rfl
      rcases hx with hx | hx <;> rcases hy with hy | hy <;> rw [hx] at hy <;>
        exact absurd hy (by simp)
    rw [hs'] at hy
    obtain ⟨i, hlost, -⟩ := hst'.lost hy
    exact h.agreement hp hst hq hst' hne hd hlost
  · intro x hx t ht hc
    obtain ⟨p, o, Px, early, late, hp, -, hst, hd⟩ := hcarried x hx
    have hdata := h.data_eq hp hst hid
    have hdec := hst.decoded
    rw [hdata, hP] at hdec
    obtain rfl := Option.some.inj hdec
    rw [← hdata]
    exact h.validity hp hst hd ht hc

/-- Two nodes run a transaction, and both commit it. -/
def commitRun : List Action :=
  let id : XactId := .new 1 ⟨0⟩
  let data : Bytes := [0, 0, 0, 1, 0, 0, 0, 0, 0, 0, 0, 3, 0, 0, 0, 0, 0, 0, 0, 0]
  let prepare : PeerMessage := .prepare { «from» := 0, xactId := id.val, data }
  let vote : PeerMessage := .vote { «from» := 1, xactId := id.val, rollbackReason := none }
  [.client ⟨0⟩ data ⟨7⟩, .take ⟨0⟩ id, .emit ⟨0⟩ id (⟨1⟩, prepare), .deliver ⟨1⟩ prepare,
    .answer ⟨0⟩ id (.ok ()), .take ⟨1⟩ id, .answer ⟨1⟩ id (.ok ()), .emit ⟨1⟩ id (⟨0⟩, vote),
    .answer ⟨1⟩ id (.ok ()), .answer ⟨1⟩ id (.ok ()), .deliver ⟨0⟩ vote, .take ⟨0⟩ id,
    .answer ⟨0⟩ id (.ok ())]

theorem agreement_and_validity_commit :
    ∃ st, init.run commitRun = some st ∧ st.status ⟨0⟩ (.new 1 ⟨0⟩) = .committed ∧
      (∀ x y info, (st.status x (.new 1 ⟨0⟩) = .committing ∨
          st.status x (.new 1 ⟨0⟩) = .committed) →
        ¬ (st.status y (.new 1 ⟨0⟩) = .rollbacking info ∨
          st.status y (.new 1 ⟨0⟩) = .rollbacked info)) ∧
      (∀ x, (st.status x (.new 1 ⟨0⟩) = .committing ∨ st.status x (.new 1 ⟨0⟩) = .committed) →
        ∀ t : NodeId, t.toUsize ∈ ({0, 1} : BitSet) → t ≠ (XactId.new 1 ⟨0⟩).nodeId →
          ∃ p, st.proc t (.new 1 ⟨0⟩) = some p ∧
            .ret (.execute (.new 1 ⟨0⟩)
              [0, 0, 0, 1, 0, 0, 0, 0, 0, 0, 0, 3, 0, 0, 0, 0, 0, 0, 0, 0]) (.ok ()) ∈ p.log) := by
  have hrun : (init.run commitRun).map (fun st => (st.assigned, st.status ⟨0⟩ (.new 1 ⟨0⟩))) =
      some ([(.new 1 ⟨0⟩, [0, 0, 0, 1, 0, 0, 0, 0, 0, 0, 0, 3, 0, 0, 0, 0, 0, 0, 0, 0])],
        .committed) := by decide
  obtain ⟨st, hst, heq⟩ := Option.map_eq_some_iff.mp hrun
  obtain ⟨hassigned, hstatus⟩ := Prod.mk.inj heq
  refine ⟨st, hst, hstatus, agreement_and_validity st (reach_of_run .init hst (by decide)) _ _ _ ?_ ?_⟩
  · unfold Unique
    rw [hassigned]
    decide
  · decide

end Cluster

end Sunstorm
