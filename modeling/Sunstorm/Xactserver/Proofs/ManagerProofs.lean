import Sunstorm.Xactserver.Proofs.FormatProofs
import Sunstorm.Xactserver.Proofs.SessionProofs

/-!
# Proofs: a node in any run

Every state manager of a node is reached by the steps of its own task, and there is one for each
transaction. What the log of one state manager shows is therefore what the node did about the
transaction.
-/

namespace Sunstorm

open Await Tally

variable {id : XactId} {n : NodeId}

/-! ## Requests -/

/-- The participants fit into 64 bits. -/
theorem participantsIn_lt {data : Bytes} {P : BitSet} (hP : RWSet.participantsIn data = some P)
    {i : Nat} (hi : i ∈ P) : i < 64 := by
  obtain ⟨rwset, hdec, rfl⟩ := RWSet.participantsIn_eq_some.mp hP
  obtain ⟨dbid, regionSet, len, n, rest, -, -, rfl⟩ := decode_eq_ok.mp hdec
  exact ((mem_participantsOf regionSet i).mp hi).1

theorem toUsize_ofUsize {i : Nat} (hi : i < 64) : (NodeId.ofUsize i).toUsize = i := by
  unfold NodeId.ofUsize NodeId.toUsize
  rw [UInt32.toNat_ofNat']
  omega

namespace XactStateManager

/-- The requests go to the participants other than the node itself. -/
theorem mem_toAllBut {P : BitSet} (hP : ∀ i ∈ P, i < 64) {msg : PeerMessage}
    {envelope : NodeId × PeerMessage} :
    envelope ∈ toAllBut n P msg ↔
      envelope.2 = msg ∧ envelope.1 ≠ n ∧ envelope.1.toUsize ∈ P := by
  obtain ⟨dst, msg'⟩ := envelope
  unfold toAllBut
  rw [List.mem_map]
  constructor
  · rintro ⟨p, hp, h⟩
    obtain ⟨rfl, rfl⟩ := Prod.mk.inj h
    obtain ⟨hmem, hne⟩ := List.mem_filter.mp hp
    obtain ⟨i, hi, rfl⟩ := List.mem_map.mp hmem
    have hiP := BitSet.mem_toList.mp hi
    refine ⟨rfl, by simpa using hne, ?_⟩
    rw [toUsize_ofUsize (hP i hiP)]
    exact hiP
  · rintro ⟨rfl, hne, hmem⟩
    refine ⟨dst, List.mem_filter.mpr ⟨List.mem_map.mpr ⟨dst.toUsize, ?_, ?_⟩, by simpa using hne⟩,
      rfl⟩
    · exact BitSet.mem_toList.mpr hmem
    · exact NodeId.ofUsize_toUsize dst

/-- No participant is sent the request twice. -/
theorem nodup_toAllBut {P : BitSet} (hP : ∀ i ∈ P, i < 64) (msg : PeerMessage) :
    ((toAllBut n P msg).map Prod.fst).Nodup := by
  unfold toAllBut
  rw [List.map_map]
  have hinj : ∀ i ∈ BitSet.toList P, ∀ j ∈ BitSet.toList P,
      NodeId.ofUsize i = NodeId.ofUsize j → i = j := by
    intro i hi j hj h
    rw [← toUsize_ofUsize (hP i (BitSet.mem_toList.mp hi)), h,
      toUsize_ofUsize (hP j (BitSet.mem_toList.mp hj))]
  have hnodup := ((BitSet.nodup_toList P).map_on hinj).filter fun p => p ≠ n
  have hid : (Prod.fst ∘ fun p : NodeId => (p, msg)) = id := rfl
  rw [hid, List.map_id]
  exact hnodup

end XactStateManager

namespace Session

variable {S : Session n}

theorem participants_lt {i : Nat} (hi : i ∈ S.participants) : i < 64 :=
  participantsIn_lt S.decoded hi

end Session

/-! ## Runs of a node -/

/-- What holds of a node that is sent messages that satisfy `A`. -/
structure Manager.Served (A : XsMessage → Prop) (n : NodeId) (m : Manager) : Prop where
  nodeId : m.nodeId = n
  reach : ∀ id p, m.xactStateManagers id = some p →
    Proc.Reach XactStateManager.handle A (XactStateManager.new id n) p
  nodup : m.spawned.Nodup
  spawned : ∀ id, id ∈ m.spawned ↔ (m.xactStateManagers id).isSome = true

namespace Manager.Served

variable {A : XsMessage → Prop} {self self' : Manager}

theorem new (n : NodeId) : Served A n (Manager.new n) where
  nodeId := rfl
  reach := fun id p h => absurd h (by simp [Manager.new])
  nodup := List.nodup_nil
  spawned := by simp [Manager.new]

/-- Replacing a state manager by one that its task can reach. -/
theorem setProc (h : Served A n self) {id : XactId} {p : XactProc}
    (hsome : (self.xactStateManagers id).isSome = true)
    (hp : Proc.Reach XactStateManager.handle A (XactStateManager.new id n) p) :
    Served A n (self.setProc id p) where
  nodeId := h.nodeId
  reach := by
    intro id' p' hp'
    simp only [Manager.setProc] at hp'
    split_ifs at hp' with heq
    · obtain rfl := Option.some.inj hp'
      exact heq ▸ hp
    · exact h.reach id' p' hp'
  nodup := h.nodup
  spawned := by
    intro id'
    simp only [Manager.setProc]
    split_ifs with heq
    · rw [heq, h.spawned id, hsome]
      simp
    · exact h.spawned id'

theorem stepProc (h : Served A n self) {id : XactId} {f : XactProc → Option XactProc}
    (hf : ∀ p p', Proc.Reach XactStateManager.handle A (XactStateManager.new id n) p → f p = some p' →
      Proc.Reach XactStateManager.handle A (XactStateManager.new id n) p')
    (hs : self.stepProc id f = some self') : Served A n self' := by
  unfold Manager.stepProc at hs
  split at hs
  · rename_i p hp
    split at hs
    · rename_i p' hp'
      obtain rfl := Option.some.inj hs
      exact h.setProc (by rw [hp]; rfl) (hf p p' (h.reach id p hp) hp')
    · exact absurd hs (by simp)
  · exact absurd hs (by simp)

theorem processMessage (h : Served A n self) {msg : XsMessage} (hm : A msg) :
    Served A n (self.processMessage msg) := by
  unfold Manager.processMessage
  generalize self.counterAfter msg = counter
  have hself : Served A n { self with xactIdCounter := counter } :=
    ⟨h.nodeId, h.reach, h.nodup, h.spawned⟩
  cases hp : self.xactStateManagers (self.xactIdOf msg) with
  | some p =>
    simp only [hp]
    exact hself.setProc (by rw [show _ = some p from hp]; rfl) (.post msg hm (h.reach _ p hp))
  | none =>
    simp only [hp]
    have hnew : self.xactIdOf msg ∉ self.spawned := by
      rw [h.spawned, hp]
      simp
    constructor
    · exact h.nodeId
    · intro id' p' hp'
      simp only [Manager.setProc] at hp'
      split_ifs at hp' with heq
      · obtain rfl := Option.some.inj hp'
        rw [heq, show ({ self with xactIdCounter := counter } : Manager).nodeId = n from h.nodeId]
        exact .post msg hm .start
      · exact h.reach id' p' hp'
    · exact List.nodup_append.mpr ⟨h.nodup, by simp, by
        intro a ha b hb
        rw [List.mem_singleton.mp hb]
        exact fun heq => hnew (heq ▸ ha)⟩
    · intro id'
      simp only [Manager.setProc]
      split_ifs with heq
      · simp [heq]
      · simp only [List.mem_append, List.mem_singleton, heq, or_false]
        exact h.spawned id'

/-- One step of the node. -/
theorem step (h : Served A n self) {a : Manager.Action} (ha : ∀ msg, a = .message msg → A msg)
    (hs : self.step a = some self') : Served A n self' := by
  cases a with
  | message msg =>
    obtain rfl := Option.some.inj hs
    exact h.processMessage (ha msg rfl)
  | take id => exact h.stepProc (fun p p' hp hp' => .take hp hp') hs
  | answer id r => exact h.stepProc (fun p p' hp hp' => .answer r hp hp') hs
  | stop id => exact h.stepProc (fun p p' hp hp' => .cancel hp hp') hs

/-- A whole run of the node. -/
theorem run (h : Served A n self) {actions : List Manager.Action}
    (ha : ∀ msg, .message msg ∈ actions → A msg) (hs : self.run actions = some self') :
    Served A n self' := by
  induction actions generalizing self with
  | nil =>
    obtain rfl := Option.some.inj hs
    exact h
  | cons a actions ih =>
    simp only [Manager.run] at hs
    split at hs
    · rename_i self₁ hstep
      exact ih (h.step (fun msg heq => ha msg (heq ▸ List.mem_cons_self)) hstep)
        (fun msg hm => ha msg (List.mem_cons_of_mem _ hm)) hs
    · exact absurd hs (by simp)

/-- Every state manager of the node is in one of the stages. -/
theorem stage (h : Served (XsMessage.Foreign n) n self) {id : XactId} {p : XactProc}
    (hp : self.xactStateManagers id = some p) :
    Stage id n (Point.ofTask p.task) (XactProc.status p) p.log := stage_of_reach (h.reach id p hp)

end Manager.Served

end Sunstorm
