import Sunstorm.Xactserver.Proofs.AgreementProofs

/-!
# Proofs: the ids of local transactions

A node numbers its local transactions 1, 2, 3 and so on in 32 bits. The numbers are distinct as long
as no more than `2 ^ 32` of them are needed; then the counter comes back to its first value, and a
new transaction gets the id of an old one.
-/

namespace Sunstorm

open Await

namespace Cluster

variable {st st' : Cluster} {n k : NodeId} {id : XactId} {p p' : XactProc}

/-- The id of the local transaction that the node numbers after `j` others. -/
def idAt (n : NodeId) (j : Nat) : XactId := XactId.new (UInt32.ofNat (j + 1)) n

theorem idAt_inj {i j : Nat} (hi : i < 2 ^ 32) (hj : j < 2 ^ 32) (h : idAt n i = idAt n j) :
    i = j := by
  obtain ⟨hcounter, -⟩ := XactId.new_inj.mp h
  have hnat := congrArg UInt32.toNat hcounter
  rw [UInt32.toNat_ofNat', UInt32.toNat_ofNat'] at hnat
  omega

/-- After `2 ^ 32` transactions the ids come again. -/
theorem idAt_wrap (j : Nat) : idAt n (j + 2 ^ 32) = idAt n j := by
  have hcounter : UInt32.ofNat (j + 2 ^ 32 + 1) = UInt32.ofNat (j + 1) := by
    apply UInt32.toNat_inj.mp
    rw [UInt32.toNat_ofNat', UInt32.toNat_ofNat']
    omega
  unfold idAt
  rw [hcounter]

theorem idAt_eq_invalid {j : Nat} (hj : j < 2 ^ 32) :
    idAt n j = XactId.invalid ↔ n.val = 0 ∧ j = 2 ^ 32 - 1 := by
  unfold idAt
  rw [XactId.new_eq_invalid, and_comm]
  refine and_congr_right fun _ => ?_
  rw [← UInt32.toNat_inj, UInt32.toNat_ofNat']
  have hzero : (0 : UInt32).toNat = 0 := rfl
  rw [hzero]
  omega

/-! ## The counter -/

/-- The counter stands at the number of ids given, modulo `2 ^ 32`, and these are the first ones. -/
def Numbered (st : Cluster) : Prop :=
  ∀ n, st.numbered n = (List.range (st.numbered n).length).map (idAt n) ∧
    (st.managers n).xactIdCounter = UInt32.ofNat (st.numbered n).length

theorem numbered_congr (h : st'.assigned = st.assigned) : st'.numbered n = st.numbered n := by
  unfold numbered
  rw [h]

theorem numbered_concat {x : XactId} {data : Bytes}
    (h : st'.assigned = st.assigned ++ [(x, data)]) :
    st'.numbered n = st.numbered n ++ if x.nodeId = n then [x] else [] := by
  unfold numbered
  rw [h, List.map_append, List.filter_append]
  by_cases hx : x.nodeId = n <;> simp [hx]

/-- Nothing but a local transaction is numbered. -/
theorem Numbered.congr (h : Numbered st) (hassigned : st'.assigned = st.assigned)
    (hcounter : ∀ n, (st'.managers n).xactIdCounter = (st.managers n).xactIdCounter) :
    Numbered st' := by
  intro n
  rw [numbered_congr hassigned, hcounter]
  exact h n

theorem Numbered.nextId (h : Numbered st) : st.nextId n = idAt n (st.numbered n).length := by
  unfold Cluster.nextId idAt
  rw [(h n).2, UInt32.ofNat_add]
  rfl

/-- One step of the cluster. -/
theorem Numbered.step (h : Numbered st) {a : Action} (hs : Change st st' a) : Numbered st' := by
  cases hs with
  | client k data tx procs sent delivered assigned counter =>
    intro n
    rw [numbered_concat assigned, counter, nextId_nodeId]
    by_cases hk : n = k
    · subst hk
      rw [if_pos rfl, if_pos rfl, List.length_append, List.length_singleton, List.range_succ,
        List.map_append, ← (h n).1, h.nextId, (h n).2, UInt32.ofNat_add]
      exact ⟨rfl, rfl⟩
    · rw [if_neg hk, if_neg fun heq => hk heq.symm, List.append_nil]
      exact h n
  | deliver _ _ _ _ _ _ assigned counter => exact h.congr assigned counter
  | emit _ _ _ _ _ _ _ assigned counter => exact h.congr assigned counter
  | own _ _ _ _ _ _ _ _ _ _ assigned counter => exact h.congr assigned counter

theorem numbered_of_reach {ok : Cluster → Action → Prop} (hr : Reach ok st) : Numbered st := by
  induction hr with
  | init => exact fun n => ⟨rfl, rfl⟩
  | step a hr _ hs ih => exact ih.step (change_of_step (Honest.of_reach hr).nodeId hs)

/-! ## Distinct ids -/

/-- An id occurs among all ids as often as among those of its node. -/
theorem nodup_of_numbered (h : ∀ n, (st.numbered n).Nodup) : (st.assigned.map Prod.fst).Nodup := by
  rw [List.nodup_iff_count_le_one]
  intro x
  have hcount : (st.numbered x.nodeId).count x = (st.assigned.map Prod.fst).count x := by
    unfold numbered
    exact List.count_filter (by simp)
  rw [← hcount]
  exact List.nodup_iff_count_le_one.mp (h x.nodeId) x

theorem capacity_le (n : NodeId) : capacity n ≤ 2 ^ 32 := by
  unfold capacity
  split_ifs <;> omega

/-- The ids are distinct and valid if no node has numbered more transactions than it can, and only
then. -/
theorem distinct_iff (h : Numbered st) :
    ((st.assigned.map Prod.fst).Nodup ∧ XactId.invalid ∉ st.assigned.map Prod.fst) ↔
      ∀ n, (st.numbered n).length ≤ capacity n := by
  constructor
  · rintro ⟨hnodup, hvalid⟩ n
    by_contra hlt
    push Not at hlt
    have hsub : List.Sublist (st.numbered n) (st.assigned.map Prod.fst) := List.filter_sublist
    have hmem : ∀ j < (st.numbered n).length, idAt n j ∈ st.numbered n := by
      intro j hj
      rw [(h n).1]
      exact List.mem_map.mpr ⟨j, List.mem_range.mpr hj, rfl⟩
    by_cases hn : n.val = 0
    · have hcap : capacity n = 2 ^ 32 - 1 := if_pos hn
      have hinv := hsub.subset (hmem (2 ^ 32 - 1) (by omega))
      rw [(idAt_eq_invalid (by omega)).mpr ⟨hn, rfl⟩] at hinv
      exact hvalid hinv
    · have hcap : capacity n = 2 ^ 32 := if_neg hn
      have hids := hnodup.sublist hsub
      rw [(h n).1] at hids
      have heq := List.inj_on_of_nodup_map hids (List.mem_range.mpr (by omega : 0 + 2 ^ 32 < _))
        (List.mem_range.mpr (by omega : 0 < _)) (idAt_wrap 0)
      omega
  · intro hroom
    have hlt : ∀ n j, j ∈ List.range (st.numbered n).length → j < capacity n := by
      intro n j hj
      exact lt_of_lt_of_le (List.mem_range.mp hj) (hroom n)
    refine ⟨nodup_of_numbered fun n => ?_, fun hinv => ?_⟩
    · rw [(h n).1]
      refine List.nodup_range.map_on fun i hi j hj heq => ?_
      have hcap := capacity_le n
      have hi' := hlt n i hi
      have hj' := hlt n j hj
      exact idAt_inj (by omega) (by omega) heq
    · have hmem : XactId.invalid ∈ st.numbered XactId.invalid.nodeId :=
        List.mem_filter.mpr ⟨hinv, by simp⟩
      rw [(h _).1] at hmem
      obtain ⟨j, hj, heq⟩ := List.mem_map.mp hmem
      have hj' := hlt _ j hj
      have hcap := capacity_le XactId.invalid.nodeId
      obtain ⟨hzero, hlast⟩ := (idAt_eq_invalid (by omega)).mp heq
      have hcap' : capacity XactId.invalid.nodeId = 2 ^ 32 - 1 := if_pos hzero
      omega

/-- In a run with room no node numbers more transactions than it can. -/
theorem room_of_reach (hr : Reach HasRoom st) : ∀ n, (st.numbered n).length ≤ capacity n := by
  induction hr with
  | init => exact fun n => Nat.zero_le _
  | step a hr ha hs ih =>
    intro n
    have hchange := change_of_step (Honest.of_reach hr).nodeId hs
    cases hchange with
    | client k data tx _ _ _ assigned =>
      rw [numbered_concat assigned, nextId_nodeId]
      by_cases hk : k = n
      · subst hk
        have hlt : (numbered _ k).length < capacity k := ha
        rw [if_pos rfl, List.length_append, List.length_singleton]
        exact hlt
      · simpa [hk] using ih n
    | deliver _ _ _ _ _ _ assigned => exact numbered_congr (n := n) assigned ▸ ih n
    | emit _ _ _ _ _ _ _ assigned => exact numbered_congr (n := n) assigned ▸ ih n
    | own _ _ _ _ _ _ _ _ _ _ assigned => exact numbered_congr (n := n) assigned ▸ ih n

/-! ## Fresh state managers -/

/-- An id that a node still has room for was not given before. -/
theorem nextId_fresh (h : Numbered st) (hroom : (st.numbered n).length < capacity n) :
    ∀ data, (st.nextId n, data) ∉ st.assigned := by
  intro data hmem
  have hnum : st.nextId n ∈ st.numbered n :=
    List.mem_filter.mpr ⟨List.mem_map.mpr ⟨_, hmem, rfl⟩, by simp [nextId_nodeId]⟩
  rw [h.nextId, (h n).1] at hnum
  obtain ⟨j, hj, heq⟩ := List.mem_map.mp hnum
  have hlt := List.mem_range.mp hj
  have hcap := capacity_le n
  rw [List.length_map, List.length_range] at heq
  have := idAt_inj (by omega) (by omega) heq
  omega

/-- Nothing is known of an id that was not given. -/
theorem Honest.unknown_of_fresh (h : Honest st) (hfresh : ∀ data, (id, data) ∉ st.assigned)
    (n : NodeId) : st.proc n id = none := by
  cases hp : st.proc n id with
  | none => rfl
  | some p =>
    rcases h.recorded.known n id p hp with harr | hhand
    · obtain ⟨msg, hmsg⟩ := List.exists_mem_of_ne_nil _ harr
      obtain ⟨hdel, hid⟩ := mem_arrived.mp hmsg
      obtain ⟨m, y, q, o, P, early, late, hq, hst, rfl, -⟩ :=
        h.sent_standing (h.delivered _ hdel)
      have hy : y = id := by
        rw [← hid]
        cases o <;> rfl
      subst hy
      obtain ⟨data, hdata⟩ := h.assigned_of_standing hq hst
      exact absurd hdata (hfresh data)
    · obtain ⟨data, hdata⟩ := List.exists_mem_of_ne_nil _ hhand
      exact absurd (mem_handed.mp hdata).1 (hfresh data)

/-- No local transaction comes after another message. -/
theorem first_of_reach (hr : Reach HasRoom st) :
    ∀ n id p, st.proc n id = some p → ∀ m ∈ p.received.tail, m.handed = none := by
  have hposted : ∀ {st₀ : Cluster} {n : NodeId} {id : XactId} {msg : XsMessage},
      (∀ p, st₀.proc n id = some p → ∀ m ∈ p.received.tail, m.handed = none) →
      (msg.handed = none ∨ st₀.proc n id = none) →
      ∀ m ∈ (st₀.posted n id msg).received.tail, m.handed = none := by
    intro st₀ n id msg hold hmsg
    unfold posted
    cases hp : st₀.proc n id with
    | none =>
      rw [Option.getD_none, Proc.received_post msg rfl]
      exact fun m hm => absurd hm List.not_mem_nil
    | some p =>
      have hnone := hmsg.resolve_right (by simp [hp])
      rw [Option.getD_some]
      cases hhalt : p.task.isHalted with
      | true =>
        rw [Proc.post_halted msg hhalt]
        exact hold p hp
      | false =>
        rw [Proc.received_post msg hhalt]
        intro m hm
        cases hrec : p.received with
        | nil =>
          rw [hrec] at hm
          exact absurd hm List.not_mem_nil
        | cons m₀ rest =>
          rw [hrec, List.cons_append, List.tail_cons, List.mem_append, List.mem_singleton] at hm
          rcases hm with hm | rfl
          · exact hold p hp m (by rw [hrec]; exact hm)
          · exact hnone
  induction hr with
  | init =>
    intro n id p hp
    exact absurd hp (by simp [Cluster.init, proc, Manager.new])
  | @step st st' a hr ha hs ih =>
    have h := Honest.of_reach hr
    intro n id p' hp'
    have hchange := change_of_step h.nodeId hs
    cases hchange with
    | client k data tx procs =>
      rw [procs] at hp'
      by_cases hk : n = k ∧ id = st.nextId k
      · obtain ⟨rfl, rfl⟩ := hk
        rw [procsWith_self] at hp'
        obtain rfl := Option.some.inj hp'
        have hfresh := nextId_fresh (numbered_of_reach hr) ha
        exact hposted (ih n _) (Or.inr (h.unknown_of_fresh hfresh n))
      · exact ih n id p' ((procsWith_other hk).symm.trans hp')
    | deliver k msg mem procs =>
      rw [procs] at hp'
      by_cases hk : n = k ∧ id = msg.xactId
      · obtain ⟨rfl, rfl⟩ := hk
        rw [procsWith_self] at hp'
        obtain rfl := Option.some.inj hp'
        exact hposted (ih n _) (Or.inl (by cases msg <;> rfl))
      · exact ih n id p' ((procsWith_other hk).symm.trans hp')
    | emit k x envelope mem procs =>
      rw [procs] at hp'
      exact ih n id p' hp'
    | own _ k x q q' hq hown procs =>
      rw [procs] at hp'
      by_cases hk : n = k ∧ id = x
      · obtain ⟨rfl, rfl⟩ := hk
        rw [procsWith_self] at hp'
        obtain rfl := Option.some.inj hp'
        obtain ⟨dropped, hrec, -⟩ := hown.step.received
        intro m hm
        apply ih n id q hq m
        rw [hrec]
        cases hrec' : q'.received with
        | nil =>
          rw [hrec'] at hm
          exact absurd hm List.not_mem_nil
        | cons m₀ rest =>
          rw [hrec'] at hm
          exact List.mem_append_left _ hm
      · exact ih n id p' ((procsWith_other hk).symm.trans hp')

/-- **Transaction ids are not reused while the counters have room.** In every run in which no node
is handed more local transactions than it can number, their ids are distinct, valid and printed
differently; every local transaction is the first message of a state manager that did not exist
before. The components of an id can always be read back. -/
theorem ids_never_reused (st : Cluster) (hr : Reach HasRoom st) :
    (st.assigned.map Prod.fst).Nodup ∧ XactId.invalid ∉ st.assigned.map Prod.fst ∧
    (st.assigned.map fun a => a.1.toString).Nodup ∧
    (∀ n data tx st', HasRoom st (.client n data tx) → st.step (.client n data tx) = some st' →
      st.proc n (st.nextId n) = none ∧
      st'.proc n (st.nextId n) =
        some ⟨[.localXact data tx], .idle (XactStateManager.new (st.nextId n) n), []⟩) ∧
    (∀ n id p, st.proc n id = some p → ∀ m ∈ p.received.tail, m.handed = none) ∧
    (∀ counter n, (XactId.new counter n).counter = counter ∧ (XactId.new counter n).nodeId = n) := by
  have hnumbered := numbered_of_reach hr
  obtain ⟨hnodup, hvalid⟩ := (distinct_iff hnumbered).mpr (room_of_reach hr)
  refine ⟨hnodup, hvalid, ?_, ?_, first_of_reach hr, fun counter n =>
    ⟨XactId.counter_new counter n, XactId.nodeId_new counter n⟩⟩
  · have hmap : (st.assigned.map fun a => a.1.toString) =
        (st.assigned.map Prod.fst).map XactId.toString := by
      rw [List.map_map]
      rfl
    rw [hmap]
    exact hnodup.map XactId.toString_injective
  · intro n data tx st' hroom hs
    have h := Honest.of_reach hr
    have hnone := h.unknown_of_fresh (nextId_fresh hnumbered hroom) n
    refine ⟨hnone, ?_⟩
    have hchange := change_of_step h.nodeId hs
    cases hchange with
    | own _ _ _ _ _ _ ha =>
      rcases ha with ⟨ha, -⟩ | ⟨r, ha, -⟩ | ⟨ha, -⟩ <;> exact absurd ha (by simp)
    | client _ _ _ procs =>
      rw [procs, procsWith_self]
      unfold posted
      rw [hnone]
      rfl

/-- Two transactions are handed to node 0, and one to node 1 between them. -/
def threeClientsRun : List Action := [.client ⟨0⟩ [] ⟨7⟩, .client ⟨1⟩ [] ⟨7⟩, .client ⟨0⟩ [1] ⟨8⟩]

theorem ids_never_reused_three :
    ∃ st, init.run threeClientsRun = some st ∧
      st.assigned.map Prod.fst = [.new 1 ⟨0⟩, .new 1 ⟨1⟩, .new 2 ⟨0⟩] ∧
      (st.assigned.map Prod.fst).Nodup ∧ XactId.invalid ∉ st.assigned.map Prod.fst ∧
      (st.assigned.map fun a => a.1.toString).Nodup := by
  have hrun : (init.run threeClientsRun).map (fun st => st.assigned.map Prod.fst) =
      some [.new 1 ⟨0⟩, .new 1 ⟨1⟩, .new 2 ⟨0⟩] := by decide
  obtain ⟨st, hst, hassigned⟩ := Option.map_eq_some_iff.mp hrun
  have hids := ids_never_reused st (reach_of_run .init hst (by decide))
  exact ⟨st, hst, hassigned, hids.1, hids.2.1, hids.2.2.1⟩

/-- A node can be handed any number of transactions. -/
theorem exists_numbered (n : NodeId) (k : Nat) :
    ∃ st, Reach (fun _ _ => True) st ∧ (st.numbered n).length = k := by
  induction k with
  | zero => exact ⟨_, .init, rfl⟩
  | succ k ih =>
    obtain ⟨st, hr, hk⟩ := ih
    obtain ⟨st', hs⟩ : ∃ st', st.step (.client n [] ⟨0⟩) = some st' := ⟨_, rfl⟩
    refine ⟨st', .step _ hr trivial hs, ?_⟩
    have hchange := change_of_step (Honest.of_reach hr).nodeId hs
    cases hchange with
    | own _ _ _ _ _ _ ha =>
      rcases ha with ⟨ha, -⟩ | ⟨r, ha, -⟩ | ⟨ha, -⟩ <;> exact absurd ha (by simp)
    | client _ _ _ _ _ _ assigned =>
      rw [numbered_concat assigned, nextId_nodeId, if_pos rfl, List.length_append, hk]
      rfl

theorem ids_are_reused :
    ¬ ∀ st, Reach (fun _ _ => True) st →
      (st.assigned.map Prod.fst).Nodup ∧ XactId.invalid ∉ st.assigned.map Prod.fst := by
  intro hclaim
  obtain ⟨st, hr, hlen⟩ := exists_numbered ⟨1⟩ (2 ^ 32 + 1)
  have hle := (distinct_iff (numbered_of_reach hr)).mp (hclaim st hr) ⟨1⟩
  have hcap := capacity_le ⟨1⟩
  omega

end Cluster

end Sunstorm
