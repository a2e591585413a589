import Sunstorm.Await.Proofs.StepProofs
import Sunstorm.Xactserver.Cluster
import Sunstorm.Xactserver.Proofs.EquivocationProofs

/-!
# Proofs: what one step of the cluster does

A step touches one state manager at most: it posts a message to it, or lets it make a step of its
own. `Change` says which, and what becomes of the requests and of the ids.
-/

namespace Sunstorm

open Await

namespace Manager

variable {self self' : Manager}

/-- A message is posted to the state manager of its transaction, which is created if need be. -/
theorem processMessage_procs (msg : XsMessage) (id : XactId) :
    (self.processMessage msg).xactStateManagers id =
      if id = self.xactIdOf msg then
        some (((self.xactStateManagers id).getD
          (Proc.start (XactStateManager.new id self.nodeId))).post msg)
      else self.xactStateManagers id := by
  unfold processMessage
  cases hp : self.xactStateManagers (self.xactIdOf msg) with
  | some p =>
    simp only [hp, setProc]
    split_ifs with h
    · rw [h, hp]
      rfl
    · rfl
  | none =>
    simp only [hp, setProc]
    split_ifs with h
    · rw [h, hp]
      rfl
    · rfl

theorem processMessage_counter (msg : XsMessage) :
    (self.processMessage msg).xactIdCounter = self.counterAfter msg := by
  unfold processMessage
  cases hp : self.xactStateManagers (self.xactIdOf msg) <;> simp only [hp, setProc]

theorem stepProc_cases {id : XactId} {f : XactProc → Option XactProc}
    (h : self.stepProc id f = some self') :
    ∃ p p', self.xactStateManagers id = some p ∧ f p = some p' ∧ self' = self.setProc id p' := by
  unfold stepProc at h
  split at h
  · rename_i p hp
    split at h
    · rename_i p' hp'
      exact ⟨p, p', hp, hp', (Option.some.inj h).symm⟩
    · exact absurd h (by simp)
  · exact absurd h (by simp)

end Manager

namespace Cluster

variable {st st' : Cluster} {n : NodeId} {id : XactId}

/-- The state manager of the transaction at the node once the message is posted to it. -/
def posted (self : Cluster) (n : NodeId) (id : XactId) (msg : XsMessage) : XactProc :=
  ((self.proc n id).getD (Proc.start (XactStateManager.new id n))).post msg

/-- The state managers of the cluster, with `p` for the transaction `id` at `n`. -/
def procsWith (self : Cluster) (n : NodeId) (id : XactId) (p : XactProc) :
    NodeId → XactId → Option XactProc :=
  fun k x => if k = n ∧ x = id then some p else self.proc k x

/-- The action `a` lets the state manager of `id` at `n` go from `p` to `p'`. -/
def Own (self : Cluster) (n : NodeId) (id : XactId) (p p' : XactProc) (a : Action) : Prop :=
  (a = .take n id ∧ p.take XactStateManager.handle = some p') ∨
  (∃ r, a = .answer n id r ∧ self.canAnswer n id r = true ∧ p.answer r = some p') ∨
  (a = .stop n id ∧ p.cancel = some p')

theorem Own.step {p p' : XactProc} {a : Action} (h : st.Own n id p p' a) :
    Proc.Step XactStateManager.handle p p' := by
  rcases h with ⟨-, h⟩ | ⟨r, -, -, h⟩ | ⟨-, h⟩
  · exact .take h
  · exact .answer r h
  · exact .cancel h

/-- An answer in the log is an old one, unless it is the answer of the step. -/
theorem Own.ret_mem {p p' : XactProc} {a : Action} (h : st.Own n id p p' a) {e : Effect}
    {r : Answer} (hr : .ret e r ∈ p'.log) :
    .ret e r ∈ p.log ∨
      a = .answer n id r ∧ st.canAnswer n id r = true ∧ ∃ s k, p.task = .busy s e k := by
  rcases h with ⟨-, h⟩ | ⟨r', rfl, hc, h⟩ | ⟨-, h⟩
  · obtain ⟨s, m, rest, -, -, rfl⟩ := Proc.take_cases h
    have hmem := Proc.mem_enter_log (fun e' => by simp) hr
    exact Or.inl (by simpa using hmem)
  · obtain ⟨s, e', k, ht, rfl⟩ := Proc.answer_cases h
    have hmem := Proc.mem_enter_log (fun e' => by simp) hr
    rw [List.mem_append, List.mem_singleton] at hmem
    rcases hmem with hmem | hmem
    · exact Or.inl hmem
    · obtain ⟨rfl, rfl⟩ := Event.ret.inj hmem
      exact Or.inr ⟨rfl, hc, s, k, ht⟩
  · obtain ⟨s, -, -, rfl⟩ := Proc.cancel_cases h
    exact Or.inl hr

/-- Only a state manager that is stopped ends as a stopped one. -/
theorem Own.cancelled {p p' : XactProc} {a : Action} (h : st.Own n id p p' a)
    {s : XactStateManager} (ht : p'.task = .halted s .cancelled) : a = .stop n id := by
  rcases h with ⟨-, h⟩ | ⟨r, -, -, h⟩ | ⟨ha, -⟩
  · obtain ⟨s', m, rest, -, -, rfl⟩ := Proc.take_cases h
    exact absurd ht (Proc.enter_not_cancelled _ _ _ _)
  · obtain ⟨s', e, k, -, rfl⟩ := Proc.answer_cases h
    exact absurd ht (Proc.enter_not_cancelled _ _ _ _)
  · exact ha

/-- What one step of the cluster does. -/
inductive Change (st st' : Cluster) : Action → Prop where
  | client (n : NodeId) (data : Bytes) (tx : Sender)
    (procs : st'.proc = st.procsWith n (st.nextId n)
      (st.posted n (st.nextId n) (.localXact data tx)))
    (sent : st'.sent = st.sent) (delivered : st'.delivered = st.delivered)
    (assigned : st'.assigned = st.assigned ++ [(st.nextId n, data)])
    (counter : ∀ k, (st'.managers k).xactIdCounter =
      if k = n then (st.managers k).xactIdCounter + 1 else (st.managers k).xactIdCounter) :
    Change st st' (.client n data tx)
  | deliver (n : NodeId) (msg : PeerMessage) (mem : (n, msg) ∈ st.sent)
    (procs : st'.proc = st.procsWith n msg.xactId (st.posted n msg.xactId (XsMessage.ofPeer msg)))
    (sent : st'.sent = st.sent) (delivered : st'.delivered = st.delivered ++ [(n, msg)])
    (assigned : st'.assigned = st.assigned)
    (counter : ∀ k, (st'.managers k).xactIdCounter = (st.managers k).xactIdCounter) :
    Change st st' (.deliver n msg)
  | emit (n : NodeId) (id : XactId) (envelope : Envelope) (mem : envelope ∈ st.broadcast n id)
    (procs : st'.proc = st.proc) (sent : st'.sent = st.sent ++ [envelope])
    (delivered : st'.delivered = st.delivered) (assigned : st'.assigned = st.assigned)
    (counter : ∀ k, (st'.managers k).xactIdCounter = (st.managers k).xactIdCounter) :
    Change st st' (.emit n id envelope)
  | own (a : Action) (n : NodeId) (id : XactId) (p p' : XactProc) (hp : st.proc n id = some p)
    (ha : st.Own n id p p' a) (procs : st'.proc = st.procsWith n id p') (sent : st'.sent = st.sent)
    (delivered : st'.delivered = st.delivered) (assigned : st'.assigned = st.assigned)
    (counter : ∀ k, (st'.managers k).xactIdCounter = (st.managers k).xactIdCounter) :
    Change st st' a

/-- The step of a manager inside the cluster. -/
theorem stepManager_cases {a : Manager.Action} (h : st.stepManager n a = some st') :
    ∃ m, (st.managers n).step a = some m ∧ st' = st.setManager n m := by
  unfold stepManager at h
  split at h
  · rename_i m hm
    exact ⟨m, hm, (Option.some.inj h).symm⟩
  · exact absurd h (by simp)

theorem proc_setManager (m : Manager) (k : NodeId) (x : XactId) :
    (st.setManager n m).proc k x = if k = n then m.xactStateManagers x else st.proc k x := by
  unfold proc setManager
  by_cases hk : k = n <;> simp [hk]

/-- A message reaches its state manager. -/
theorem procs_message {msg : XsMessage} (hn : (st.managers n).nodeId = n)
    (h : st.stepManager n (.message msg) = some st') :
    st'.proc = st.procsWith n ((st.managers n).xactIdOf msg)
        (st.posted n ((st.managers n).xactIdOf msg) msg) ∧
      st'.sent = st.sent ∧ st'.delivered = st.delivered ∧ st'.assigned = st.assigned ∧
      ∀ k, (st'.managers k).xactIdCounter =
        if k = n then (st.managers k).counterAfter msg else (st.managers k).xactIdCounter := by
  obtain ⟨m, hm, rfl⟩ := stepManager_cases h
  obtain rfl := Option.some.inj hm
  refine ⟨?_, rfl, rfl, rfl, fun k => ?_⟩
  swap
  · unfold setManager
    dsimp only
    split_ifs with hk
    · rw [Manager.processMessage_counter, hk]
    · rfl
  funext k x
  rw [proc_setManager, Manager.processMessage_procs]
  unfold procsWith posted
  by_cases hk : k = n
  · subst hk
    by_cases hx : x = (st.managers k).xactIdOf msg
    · rw [if_pos rfl, if_pos hx, if_pos ⟨rfl, hx⟩, hn, ← hx]
      rfl
    · rw [if_pos rfl, if_neg hx, if_neg fun hkx => hx hkx.2]
      rfl
  · rw [if_neg hk, if_neg fun hkx => hk hkx.1]

/-- A state manager makes a step of its own. -/
theorem procs_own {f : XactProc → Option XactProc} {a : Manager.Action}
    (ha : ∀ m : Manager, m.step a = m.stepProc id f) (h : st.stepManager n a = some st') :
    ∃ p p', st.proc n id = some p ∧ f p = some p' ∧ st'.proc = st.procsWith n id p' ∧
      st'.sent = st.sent ∧ st'.delivered = st.delivered ∧ st'.assigned = st.assigned ∧
      ∀ k, (st'.managers k).xactIdCounter = (st.managers k).xactIdCounter := by
  obtain ⟨m, hm, rfl⟩ := stepManager_cases h
  rw [ha] at hm
  obtain ⟨p, p', hp, hp', rfl⟩ := Manager.stepProc_cases hm
  refine ⟨p, p', hp, hp', ?_, rfl, rfl, rfl, fun k => ?_⟩
  swap
  · unfold setManager Manager.setProc
    dsimp only
    split_ifs with hk
    · rw [hk]
    · rfl
  funext k x
  rw [proc_setManager]
  unfold procsWith Manager.setProc
  by_cases hk : k = n
  · subst hk
    by_cases hx : x = id
    · simp [hx]
    · simp [hx, proc]
  · simp [hk]

/-- Every step of the cluster is a change. -/
theorem change_of_step (hn : ∀ n, (st.managers n).nodeId = n) {a : Action}
    (h : st.step a = some st') : Change st st' a := by
  cases a with
  | client n data tx =>
    simp only [step] at h
    obtain ⟨procs, sent, delivered, assigned, counter⟩ := procs_message (by exact hn n) h
    have hid : (st.managers n).xactIdOf (.localXact data tx) = st.nextId n := by
      simp [Manager.xactIdOf, nextId, hn n]
    dsimp only at procs sent delivered assigned counter
    rw [hid] at procs assigned
    exact .client n data tx procs sent delivered assigned counter
  | deliver n msg =>
    simp only [step] at h
    split_ifs at h with hmem
    obtain ⟨procs, sent, delivered, assigned, counter⟩ := procs_message (by exact hn n) h
    have hid : (st.managers n).xactIdOf (XsMessage.ofPeer msg) = msg.xactId := by
      cases msg <;> rfl
    dsimp only at procs sent delivered assigned counter
    rw [hid] at procs
    refine .deliver n msg hmem procs sent delivered assigned fun k => ?_
    rw [counter k]
    cases msg <;> simp [XsMessage.ofPeer, Manager.counterAfter]
  | emit n id envelope =>
    simp only [step] at h
    split_ifs at h with hmem
    obtain rfl := Option.some.inj h
    exact .emit n id envelope hmem rfl rfl rfl rfl fun k => rfl
  | take n id =>
    obtain ⟨p, p', hp, hp', procs, sent, delivered, assigned, counter⟩ :=
      procs_own (fun m => rfl) h
    exact .own _ n id p p' hp (Or.inl ⟨rfl, hp'⟩) procs sent delivered assigned counter
  | answer n id r =>
    simp only [step] at h
    split_ifs at h with hr
    obtain ⟨p, p', hp, hp', procs, sent, delivered, assigned, counter⟩ :=
      procs_own (fun m => rfl) h
    exact .own _ n id p p' hp (Or.inr (Or.inl ⟨r, rfl, hr, hp'⟩)) procs sent delivered assigned
      counter
  | stop n id =>
    obtain ⟨p, p', hp, hp', procs, sent, delivered, assigned, counter⟩ :=
      procs_own (fun m => rfl) h
    exact .own _ n id p p' hp (Or.inr (Or.inr ⟨rfl, hp'⟩)) procs sent delivered assigned counter

end Cluster

end Sunstorm
