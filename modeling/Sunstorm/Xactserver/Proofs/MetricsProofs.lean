import Sunstorm.Xactserver.Metrics
import Sunstorm.Xactserver.Proofs.LifecycleProofs
import Sunstorm.Xactserver.Proofs.ManagerProofs

/-!
# Proofs: what is counted as finished was counted as started

A measurement that is running makes up for the next one that is counted as finished. Every handler
keeps this balance, also when it fails and when a transaction is opened for a second time.
-/

namespace Sunstorm

open Await

namespace XactStateManager

variable {self : XactStateManager}

/-- For every coordinator, what was finished and what is running was started. -/
def Balanced (self : XactStateManager) : Prop :=
  ∀ c, self.count (Measurement.finishes c) + self.running c ≤ self.count (Measurement.starts c)

theorem balanced_new (id : XactId) (n : NodeId) : (new id n).Balanced := fun _ => Nat.le_refl _

/-- The balance does not depend on the transaction. -/
theorem balanced_withXact {α : Type} (x : Code XactType α) :
    Async.Keeps XsMessage Balanced (withXact x) := by
  intro s hs h
  rw [safe_withXact]
  exact Prog.safe_of_forall (fun _ _ => hs) (fun _ _ => hs) _ _

/-- A measurement that begins is counted as started. One that was running is given up. -/
theorem balanced_begin (hs : self.Balanced) (coordinator : NodeId) :
    (self.begin coordinator).Balanced := by
  intro c
  have hold := hs c
  unfold count at hold ⊢
  have hfinishes : (self.begin coordinator).measured.countP (Measurement.finishes c) =
      self.measured.countP (Measurement.finishes c) := by
    simp [begin, Measurement.finishes]
  by_cases hc : coordinator = c
  · subst hc
    have hstarts : (self.begin coordinator).measured.countP (Measurement.starts coordinator) =
        self.measured.countP (Measurement.starts coordinator) + 1 := by
      simp [begin, Measurement.starts]
    have hrunning : (self.begin coordinator).running coordinator = 1 := by
      simp [begin, running]
    rw [hfinishes, hstarts, hrunning]
    omega
  · have hstarts : (self.begin coordinator).measured.countP (Measurement.starts c) =
        self.measured.countP (Measurement.starts c) := by
      simp [begin, Measurement.starts, hc]
    have hrunning : (self.begin coordinator).running c = 0 := by
      simp [begin, running, hc]
    rw [hfinishes, hstarts, hrunning]
    omega

/-- A measurement that ends was running. -/
theorem balanced_endXactMeasurement (label : String) :
    Async.Keeps XsMessage Balanced (endXactMeasurement label) := by
  intro s hs h
  cases hcoordinator : s.coordinatorId with
  | none =>
    have hend : endXactMeasurement label s =
        .done (.error (.panic "called `Option::unwrap()` on a `None` value"), s) := by
      simp [endXactMeasurement, bind, Async.get, Async.lift, hcoordinator, unwrap]
    rw [hend]
    exact hs
  | some coordinator =>
    cases htimer : s.totalDurationTimer with
    | none =>
      have hend : endXactMeasurement label s =
          .done (.error (.panic "called `Option::unwrap()` on a `None` value"), s) := by
        simp [endXactMeasurement, bind, Async.get, Async.lift, hcoordinator, htimer, unwrap]
      rw [hend]
      exact hs
    | some u =>
      have hend : endXactMeasurement label s = .done (.ok (), { s with
          totalDurationTimer := none
          measured := s.measured ++ [.finished coordinator label] }) := by
        simp [endXactMeasurement, bind, Async.get, Async.lift, Async.modify, hcoordinator, htimer,
          unwrap]
      rw [hend]
      intro c
      have hold := hs c
      have hover : ∀ t : XactStateManager, t.totalDurationTimer = none → t.running c = 0 := by
        intro t ht
        simp [running, ht]
      rw [hover _ rfl]
      unfold count at hold ⊢
      rw [List.countP_append, List.countP_append]
      by_cases hc : coordinator = c
      · subst hc
        have hrunning : s.running coordinator = 1 := by
          simp [running, hcoordinator, htimer]
        have hone : [Measurement.finished coordinator label].countP
            (Measurement.finishes coordinator) = 1 := by simp [Measurement.finishes]
        omega
      · have hzero : [Measurement.finished coordinator label].countP (Measurement.finishes c) = 0 := by
          simp [Measurement.finishes, hc]
        omega

theorem balanced_finishXact : Async.Keeps XsMessage Balanced finishXact := by
  unfold finishXact
  refine (balanced_withXact _).bind fun status => (Async.keeps_lift _).bind fun label => ?_
  cases label with
  | none => exact (Async.keeps_pure _).bind fun _ => Async.keeps_pure _
  | some label => exact (balanced_endXactMeasurement label).bind fun _ => Async.keeps_pure _

theorem balanced_sendToAllButMe (P : BitSet) (message : PeerMessage) :
    Async.Keeps XsMessage Balanced (sendToAllButMe P message) := by
  unfold sendToAllButMe
  refine Async.keeps_get.bind fun self => (Async.keeps_call _).bind fun r => ?_
  cases r with
  | ok u => exact Async.keeps_pure _
  | error e => exact Async.keeps_fail _

theorem balanced_decode (data : Bytes) : Async.Keeps XsMessage Balanced
    ((Async.lift (RWSet.decode data) : Code XactStateManager RWSet).mapFailure
      (Failure.context "Failed to decode read/write set")) := (Async.keeps_lift _).mapFailure _

theorem balanced_handleLocalXactMsg (data : Bytes) (commitTx : Sender) :
    Async.Keeps XsMessage Balanced (handleLocalXactMsg data commitTx) := by
  intro s hs h
  have hrest : Async.Keeps XsMessage Balanced (do
      let rwset ← (Async.lift (RWSet.decode data)).mapFailure
        (Failure.context "Failed to decode read/write set")
      let self ← Async.get
      let status ← withXact
        (XactType.initAsLocal self.nodeId self.nodeId rwset.participants commitTx)
      Async.ensure (status = .waiting) (.panic "assertion failed: `(left == right)`")
      sendToAllButMe rwset.participants
        (.prepare { «from» := self.nodeId.val, xactId := self.xactId.val, data })
      return false : Code XactStateManager Bool) :=
    (balanced_decode data).bind fun rwset => Async.keeps_get.bind fun self =>
      (balanced_withXact _).bind fun status => (Async.keeps_ensure _ _).bind fun _ =>
        (balanced_sendToAllButMe _ _).bind fun _ => Async.keeps_pure _
  exact hrest (s.begin s.nodeId) (balanced_begin hs s.nodeId) h

theorem balanced_handlePrepareMsg (msg : PrepareMessage) :
    Async.Keeps XsMessage Balanced (handlePrepareMsg msg) := by
  intro s hs h
  have hrest : Async.Keeps XsMessage Balanced (do
      let rwset ← (Async.lift (RWSet.decode msg.data)).mapFailure
        (Failure.context "Failed to decode read/write set")
      let self ← Async.get
      if self.nodeId.toUsize ∉ rwset.participants then return true
      else
        let status ← withXact
          (XactType.initAsSurrogate self.xactId self.nodeId ⟨msg.from⟩ rwset.participants msg.data)
        let rollbackReason ← Async.lift (voteReason status)
        sendToAllButMe rwset.participants
          (.vote { «from» := self.nodeId.val, xactId := self.xactId.val, rollbackReason })
        finishXact : Code XactStateManager Bool) := by
    refine (balanced_decode msg.data).bind fun rwset => Async.keeps_get.bind fun self => ?_
    by_cases hmember : self.nodeId.toUsize ∉ rwset.participants
    · rw [if_pos hmember]
      exact Async.keeps_pure _
    · rw [if_neg hmember]
      exact (balanced_withXact _).bind fun status => (Async.keeps_lift _).bind fun reason =>
        (balanced_sendToAllButMe _ _).bind fun _ => balanced_finishXact
  exact hrest (s.begin ⟨msg.from⟩) (balanced_begin hs ⟨msg.from⟩) h

theorem balanced_handleVoteMsg (msg : VoteMessage) :
    Async.Keeps XsMessage Balanced (handleVoteMsg msg) := by
  unfold handleVoteMsg
  refine (Async.keeps_update fun s t hs ht => ?_).bind fun _ => balanced_finishXact
  cases hvote : s.xact.addVote (Vote.ofMessage msg) with
  | ok xact =>
    rw [hvote] at ht
    obtain rfl := Except.ok.inj ht
    exact hs
  | error e =>
    rw [hvote] at ht
    exact absurd ht (by simp)

theorem balanced_handle (m : XsMessage) : Async.Keeps XsMessage Balanced (handle m) := by
  cases m with
  | localXact data commitTx => exact (balanced_handleLocalXactMsg data commitTx).mapFailure _
  | prepare msg => exact (balanced_handlePrepareMsg msg).mapFailure _
  | vote msg => exact (balanced_handleVoteMsg msg).mapFailure _

/-- The contract of a state manager about what it counts. -/
def balance : Contract XactStateManager XsMessage Effect Answer Failure where
  idle self _ := self.Balanced
  busy self _ := self.Balanced
  halted self _ _ := self.Balanced

theorem balance_sound (id : XactId) (n : NodeId) :
    balance.Sound handle (fun _ => True) (new id n) where
  start := balanced_new id n
  handle := by
    intro m s h _ hs
    refine (balanced_handle m s hs _).mono (fun _ _ hi => hi) fun a h' ha => ?_
    obtain ⟨r, s'⟩ := a
    cases r with
    | ok b => cases b <;> exact ha
    | error e => exact ha
  cancel_idle := fun _ _ hs => hs
  cancel_busy := fun _ _ hs => hs

theorem balanced_of_reach {id : XactId} {n : NodeId} {p : XactProc}
    (hp : Proc.Reach handle (fun _ => True) (new id n) p) : p.task.state.Balanced := by
  have hkept := Contract.kept_of_reach (balance_sound id n) hp
  obtain ⟨inbox, task, log⟩ := p
  cases task with
  | idle s => exact hkept
  | busy s e k => exact hkept.1
  | halted s why => exact hkept

end XactStateManager

/-- Where no part of a list is counted more often one way than the other, the whole is not. -/
theorem countP_flatMap_le {α β : Type} (f : α → List β) (p q : β → Bool)
    (h : ∀ a, (f a).countP p ≤ (f a).countP q) (as : List α) :
    (as.flatMap f).countP p ≤ (as.flatMap f).countP q := by
  induction as with
  | nil => exact Nat.le_refl _
  | cons a as ih =>
    have hhead := h a
    rw [List.flatMap_cons, List.countP_append, List.countP_append]
    omega

/-- **No more is finished than was started.** In every run of a node, whatever messages it gets: for
every coordinator, the transactions counted in `FINISHED_XACTS`, with all reasons together, are no
more than those counted in `STARTED_XACTS`. -/
theorem Manager.finished_le_started (n : NodeId) (as : List Manager.Action) (m : Manager)
    (h : (Manager.new n).run as = some m) (c : NodeId) :
    m.count (Measurement.finishes c) ≤ m.count (Measurement.starts c) := by
  refine countP_flatMap_le _ _ _ (fun id => ?_) m.spawned
  cases hp : m.xactStateManagers id with
  | none => exact Nat.le_refl _
  | some p =>
    have hserved := (Manager.Served.new (A := fun _ => True) n).run (fun _ _ => trivial) h
    have hreach := hserved.reach id p hp
    have hbalanced := XactStateManager.balanced_of_reach hreach c
    exact Nat.le_trans (Nat.le_add_right _ _) hbalanced

theorem Manager.finished_le_started_commit :
    ∃ m, (Manager.new ⟨0⟩).run
        [.message (.localXact [0, 0, 0, 1, 0, 0, 0, 0, 0, 0, 0, 3, 0, 0, 0, 0, 0, 0, 0, 0] ⟨7⟩),
          .take (.new 1 ⟨0⟩), .answer (.new 1 ⟨0⟩) (.ok ()),
          .message (.vote { «from» := 1, xactId := (XactId.new 1 ⟨0⟩).val, rollbackReason := none }),
          .take (.new 1 ⟨0⟩), .answer (.new 1 ⟨0⟩) (.ok ())] = some m ∧
      m.count (Measurement.finishes ⟨0⟩) = 1 ∧
      m.count (Measurement.finishes ⟨0⟩) ≤ m.count (Measurement.starts ⟨0⟩) := by
  have hrun : ((Manager.new ⟨0⟩).run
      [.message (.localXact [0, 0, 0, 1, 0, 0, 0, 0, 0, 0, 0, 3, 0, 0, 0, 0, 0, 0, 0, 0] ⟨7⟩),
        .take (.new 1 ⟨0⟩), .answer (.new 1 ⟨0⟩) (.ok ()),
        .message (.vote { «from» := 1, xactId := (XactId.new 1 ⟨0⟩).val, rollbackReason := none }),
        .take (.new 1 ⟨0⟩), .answer (.new 1 ⟨0⟩) (.ok ())]).map
      (fun m => m.count (Measurement.finishes ⟨0⟩)) = some 1 := by decide
  obtain ⟨m, hm, hcount⟩ := Option.map_eq_some_iff.mp hrun
  exact ⟨m, hm, hcount, Manager.finished_le_started ⟨0⟩ _ m hm ⟨0⟩⟩

end Sunstorm
