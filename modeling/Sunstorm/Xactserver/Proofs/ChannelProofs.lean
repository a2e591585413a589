import Sunstorm.Xactserver.Proofs.BlameProofs
import Sunstorm.Xactserver.Proofs.NumberingProofs
import Sunstorm.Xactserver.Proofs.UndisturbedProofs
import Mathlib.Data.Finset.Option

/-!
# Proofs: the channels of the state managers

What comes for a transaction at a node is one message that opens its ballot and one vote from each
participant at most. That fits the channel of the state manager, so the manager of the node never
waits for it, whatever the state manager waits for.
-/

namespace Sunstorm

open Await

/-- Every message is a request of a peer or a local transaction. -/
theorem length_eq_peer_add_handed (ms : List XsMessage) :
    ms.length = (ms.filterMap XsMessage.peer).length + (ms.filterMap XsMessage.handed).length := by
  induction ms with
  | nil => rfl
  | cons m ms ih =>
    cases m <;> simp only [List.filterMap_cons, XsMessage.peer, XsMessage.handed, List.length_cons] <;>
      omega

/-- Among pairs with different keys, a key picks out its pair. -/
theorem filter_key {α β : Type} [DecidableEq α] {l : List (α × β)} {a : α} {b : β}
    (hkeys : (l.map Prod.fst).Nodup) (hmem : (a, b) ∈ l) : l.filter (fun x => x.1 = a) = [(a, b)] := by
  induction l with
  | nil => exact absurd hmem List.not_mem_nil
  | cons x l ih =>
    obtain ⟨hnew, hrest⟩ := List.nodup_cons.mp hkeys
    rcases List.mem_cons.mp hmem with rfl | hmem
    · have hnone : l.filter (fun x => x.1 = a) = [] := by
        rw [List.filter_eq_nil_iff]
        intro y hy hkey
        have hy' : y.1 ∈ l.map Prod.fst := List.mem_map_of_mem hy
        rw [of_decide_eq_true hkey] at hy'
        exact hnew hy'
      rw [List.filter_cons_of_pos (by simp), hnone]
    · have hne : x.1 ≠ a := fun heq => hnew (heq ▸ List.mem_map_of_mem (f := Prod.fst) hmem)
      rw [List.filter_cons_of_neg (by simp [hne]), ih hrest hmem]

namespace Cluster

variable {st st' : Cluster} {n : NodeId} {id : XactId} {data : Bytes}

/-- The participants of the transaction. There are none when its data cannot be decoded. -/
def members (self : Cluster) (xactId : XactId) : BitSet :=
  match self.assigned.find? fun a => a.1 = xactId with
  | some a => (RWSet.participantsIn a.2).getD ∅
  | none => ∅

theorem members_le (st : Cluster) (id : XactId) : (st.members id).card ≤ 64 := by
  have hlt : ∀ i ∈ st.members id, i < 64 := by
    intro i hi
    unfold members at hi
    split at hi
    · rename_i a ha
      cases hP : RWSet.participantsIn a.2 with
      | none =>
        rw [hP] at hi
        exact absurd hi (Finset.notMem_empty i)
      | some P =>
        rw [hP] at hi
        exact participantsIn_lt hP hi
    · exact absurd hi (Finset.notMem_empty i)
  have hsub : st.members id ⊆ Finset.range 64 := fun i hi => Finset.mem_range.mpr (hlt i hi)
  exact (Finset.card_le_card hsub).trans (le_of_eq (Finset.card_range 64))

/-- In an orderly run every id is given once and every request is delivered once. -/
theorem once_of_reach (hr : Reach Orderly st) :
    (st.assigned.map Prod.fst).Nodup ∧ st.delivered.Nodup := by
  induction hr with
  | init => exact ⟨List.nodup_nil, List.nodup_nil⟩
  | @step st st' a hr ha hs ih =>
    obtain ⟨hids, hdel⟩ := ih
    have hconcat : ∀ {α : Type} {l : List α} {x : α}, l.Nodup → x ∉ l → (l ++ [x]).Nodup := by
      intro α l x hl hx
      exact List.nodup_append.mpr ⟨hl, by simp, by
        intro y hy z hz
        rw [List.mem_singleton.mp hz]
        exact fun heq => hx (heq ▸ hy)⟩
    cases change_of_step (Honest.of_reach hr).nodeId hs with
    | client n data tx _ _ delivered assigned =>
      rw [assigned, delivered, List.map_append]
      exact ⟨hconcat hids ha, hdel⟩
    | deliver n msg _ _ _ delivered assigned =>
      rw [assigned, delivered]
      exact ⟨hids, hconcat hdel ha⟩
    | emit _ _ _ _ _ _ delivered assigned =>
      rw [assigned, delivered]
      exact ⟨hids, hdel⟩
    | own _ _ _ _ _ _ _ _ _ delivered assigned =>
      rw [assigned, delivered]
      exact ⟨hids, hdel⟩

theorem members_eq (hid : st.Unique id data) :
    st.members id = (RWSet.participantsIn data).getD ∅ := by
  have hfind : st.assigned.find? (fun a => a.1 = id) = some (id, data) := by
    rw [← List.head?_filter, hid]
    rfl
  unfold members
  rw [hfind]

/-- The voter, when the request is a vote. -/
def voter : PeerMessage → Option Nat
  | .prepare _ => none
  | .vote v => some (⟨v.from⟩ : NodeId).toUsize

/-- The votes that come for a transaction are from different participants, and at most one other
request comes. -/
theorem voters_of_arrived (h : Honest st) (hid : st.Unique id data) (hdel : st.delivered.Nodup) :
    ((st.arrived n id).map voter).Nodup ∧
      ∀ o ∈ (st.arrived n id).map voter, o ∈ Finset.insertNone (st.members id) := by
  have hsent : ∀ msg ∈ st.arrived n id, (n, msg) ∈ st.sent ∧ msg.xactId = id := fun msg hmsg =>
    ⟨h.delivered _ (mem_arrived.mp hmsg).1, (mem_arrived.mp hmsg).2⟩
  have harrived : (st.arrived n id).Nodup := by
    unfold arrived
    refine List.Nodup.map_on ?_ (hdel.filter _)
    rintro ⟨k, msg⟩ hmem ⟨k', msg'⟩ hmem' heq
    have hk := of_decide_eq_true (List.mem_filter.mp hmem).2
    have hk' := of_decide_eq_true (List.mem_filter.mp hmem').2
    exact Prod.ext (hk.1.trans hk'.1.symm) heq
  constructor
  · refine List.Nodup.map_on ?_ harrived
    intro msg hmsg msg' hmsg' heq
    obtain ⟨hs, hx⟩ := hsent msg hmsg
    obtain ⟨hs', hx'⟩ := hsent msg' hmsg'
    cases msg with
    | prepare m =>
      cases msg' with
      | prepare m' =>
        rw [h.sent_prepare_unique hs hs' (XactId.mk.inj (hx.trans hx'.symm))]
      | vote v' => exact absurd heq (by simp [voter])
    | vote v =>
      cases msg' with
      | prepare m' => exact absurd heq (by simp [voter])
      | vote v' =>
        have hfrom := NodeId.mk.inj (NodeId.toUsize_injective (Option.some.inj heq))
        rw [h.sent_vote_unique hs hs' (XactId.mk.inj (hx.trans hx'.symm)) hfrom]
  · intro o ho
    obtain ⟨msg, hmsg, rfl⟩ := List.mem_map.mp ho
    cases msg with
    | prepare m => exact Finset.none_mem_insertNone
    | vote v =>
      obtain ⟨hs, hx⟩ := hsent _ hmsg
      obtain ⟨-, -, P, hP, hmem⟩ := h.sender_of_sent hid hs hx
      rw [members_eq hid, hP]
      exact Finset.some_mem_insertNone.mpr hmem

/-- What comes for a transaction at a node: at most one message for each of its participants, and
one more. -/
theorem addressed_le (h : Honest st) (hids : (st.assigned.map Prod.fst).Nodup)
    (hdel : st.delivered.Nodup) : st.addressed n id ≤ (st.members id).card + 1 := by
  by_cases hknown : ∃ data, (id, data) ∈ st.assigned
  · obtain ⟨data, hmem⟩ := hknown
    have hid : st.Unique id data := filter_key hids hmem
    obtain ⟨hnodup, hvoters⟩ := voters_of_arrived (n := n) h hid hdel
    have hhanded : (st.handed n id).length ≤ 1 := by
      have hsub : List.Sublist (st.assigned.filter fun a => a.1 = id ∧ id.nodeId = n)
          (st.assigned.filter fun a => a.1 = id) :=
        List.monotone_filter_right _ (by intro a; simp +contextual)
      rw [hid] at hsub
      unfold handed
      rw [List.length_map]
      exact hsub.length_le
    by_cases hn : id.nodeId = n
    · -- at the coordinator no `Prepare` comes
      have hnone : none ∉ (st.arrived n id).map voter := by
        intro hmem
        obtain ⟨msg, hmsg, hvoter⟩ := List.mem_map.mp hmem
        obtain ⟨hd, hx⟩ := mem_arrived.mp hmsg
        cases msg with
        | prepare m => exact (h.sent_prepare (h.delivered _ hd)).2.1 (by rw [← hn, ← hx]; rfl)
        | vote v => exact absurd hvoter (by simp [voter])
      have hcard : ((st.arrived n id).map voter).toFinset.card ≤
          ((st.members id).map Function.Embedding.some).card := by
        refine Finset.card_le_card fun o ho => ?_
        have hmem := List.mem_toFinset.mp ho
        have hins := hvoters o hmem
        cases o with
        | none => exact absurd hmem hnone
        | some i => exact Finset.mem_map_of_mem _ (Finset.some_mem_insertNone.mp hins)
      rw [List.toFinset_card_of_nodup hnodup, List.length_map, Finset.card_map] at hcard
      unfold addressed
      omega
    · have hempty : st.handed n id = [] := by
        unfold handed
        rw [List.map_eq_nil_iff, List.filter_eq_nil_iff]
        intro a _ ha
        exact hn (of_decide_eq_true ha).2
      have hcard : ((st.arrived n id).map voter).toFinset.card ≤
          (Finset.insertNone (st.members id)).card :=
        Finset.card_le_card fun o ho => hvoters o (List.mem_toFinset.mp ho)
      rw [List.toFinset_card_of_nodup hnodup, List.length_map, Finset.card_insertNone] at hcard
      unfold addressed
      rw [hempty]
      simpa using hcard
  · -- nothing is known of an id that was not given
    have hnone := h.unknown_of_fresh (fun data hmem => hknown ⟨data, hmem⟩) n
    obtain ⟨harrived, hhanded⟩ := h.recorded.fresh n id hnone
    unfold addressed
    rw [harrived, hhanded]
    exact Nat.zero_le _

/-- What waits in an inbox came for it. -/
theorem inbox_le (h : Honest st) {p : XactProc} (hp : st.proc n id = some p) :
    p.inbox.length ≤ st.addressed n id := by
  have hpeers := (h.recorded.peers n id p hp).sublist.length_le
  have hhanded := (h.recorded.locals n id p hp).sublist.length_le
  unfold Proc.received at hpeers hhanded
  rw [List.filterMap_append, List.length_append] at hpeers hhanded
  have hsum := length_eq_peer_add_handed p.inbox
  unfold addressed
  omega

/-- **No transaction stalls a manager.** As long as no request is delivered twice and no id is given
twice, at most one message for each participant and one more ever come for a transaction at a node;
so its channel has room for every message that is sent to it. -/
theorem channel_has_room (st : Cluster) (hr : Reach Orderly st) (n : NodeId) (id : XactId) :
    st.addressed n id ≤ (st.members id).card + 1 ∧ (st.members id).card ≤ 64 ∧
      ∀ p, st.proc n id = some p → p.inbox.length < channelCapacity := by
  have h := Honest.of_reach hr
  obtain ⟨hids, hdel⟩ := once_of_reach hr
  have haddressed : st.addressed n id ≤ (st.members id).card + 1 := addressed_le h hids hdel
  have hmembers := st.members_le id
  refine ⟨haddressed, hmembers, fun p hp => ?_⟩
  have hinbox := inbox_le h hp
  unfold channelCapacity
  omega

theorem channel_has_room_three :
    ∃ st, init.run relayRun = some st ∧
      st.addressed ⟨2⟩ (.new 1 ⟨0⟩) ≤ (st.members (.new 1 ⟨0⟩)).card + 1 ∧
      (st.members (.new 1 ⟨0⟩)).card ≤ 64 ∧
      ∀ p, st.proc ⟨2⟩ (.new 1 ⟨0⟩) = some p → p.inbox.length < channelCapacity := by
  obtain ⟨st, hst, -⟩ := relayRun_state
  exact ⟨st, hst, channel_has_room st (reach_of_run .init hst (by decide)) ⟨2⟩ (.new 1 ⟨0⟩)⟩

end Cluster

end Sunstorm
