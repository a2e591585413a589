import Sunstorm.Await.Proofs.ProgProofs
import Sunstorm.Tally.Proofs.TallyProofs
import Sunstorm.Xactserver.Ballot
import Sunstorm.Xactserver.Proofs.IdsProofs

/-!
# Proofs: the state of a transaction counts a ballot

`addVote_counting` is the simulation of one vote, and the other results of this file put it
together: what `add_vote`, `initialize` and `try_finish` do is said by the decision of the ballot.
-/

namespace Sunstorm

open Await Tally

namespace XactStatus

variable {d : Decision Nat RollbackReason}

@[simp] theorem ofDecision_eq_waiting : ofDecision d = .waiting ↔ d = .waiting := by
  cases d <;> simp [ofDecision]

@[simp] theorem ofDecision_eq_committing : ofDecision d = .committing ↔ d = .commit := by
  cases d <;> simp [ofDecision]

@[simp] theorem ofDecision_ne_committed : ofDecision d ≠ .committed := by
  cases d <;> simp [ofDecision]

@[simp] theorem finalOf_ne_committing : finalOf d ≠ .committing := by
  cases d <;> simp [finalOf]

@[simp] theorem finalOf_eq_committed : finalOf d = .committed ↔ d = .commit := by
  cases d <;> simp [finalOf]

end XactStatus

namespace XactState

variable {C : Type} {self : XactState C} {vs : List (Nat × Option RollbackReason)}

@[simp] theorem counting_participants : (self.counting vs).participants = self.participants := rfl

@[simp] theorem counting_nodeId : (self.counting vs).nodeId = self.nodeId := rfl

@[simp] theorem counting_coordinator : (self.counting vs).coordinator = self.coordinator := rfl

@[simp] theorem counting_controller : (self.counting vs).controller = self.controller := rfl

@[simp] theorem counting_status :
    (self.counting vs).status = .ofDecision (decision self.participants vs) := rfl

@[simp] theorem counting_counting (ws : List (Nat × Option RollbackReason)) :
    (self.counting vs).counting ws = self.counting ws := rfl

theorem decision_nil (P : BitSet) :
    decision P ([] : List (Nat × Option RollbackReason)) = .waiting := by
  refine decision_eq_waiting.mpr ⟨by simp, fun hP => ?_⟩
  have hvoted : Tally.voted P ([] : List (Nat × Option RollbackReason)) = ∅ := by
    simp [Tally.voted, untilNo, yesFrom]
  rw [hvoted]
  exact hP.ne_empty.symm

/-- A new state that is set to waiting has counted no vote. -/
theorem new_waiting (nodeId coordinator : NodeId) (P : BitSet) (controller : C) :
    { new nodeId coordinator P controller with status := .waiting } =
      (new nodeId coordinator P controller).counting [] := by
  have hvoted : Tally.voted P ([] : List (Nat × Option RollbackReason)) = ∅ := by
    simp [Tally.voted, untilNo, yesFrom]
  unfold counting
  rw [show (new nodeId coordinator P controller).participants = P from rfl, decision_nil, hvoted]
  rfl

/-- `add_vote` counts one more vote as long as the ballot is not carried. -/
theorem addVote_counting (h : decision self.participants vs ≠ .commit) (vote : Vote) :
    (self.counting vs).addVote vote = .ok (self.counting (vs ++ [vote.cast])) := by
  have hcount := decision_concat self.participants vs vote.cast
  have hcommit : ¬ ((self.counting vs).status = .committing ∨
      (self.counting vs).status = .committed) := by simp [h]
  unfold addVote
  rw [if_neg hcommit]
  have hstays : ∀ d ys, (decision self.participants (vs ++ [vote.cast]),
      Tally.voted self.participants (vs ++ [vote.cast])) = (d, ys) →
      self.counting (vs ++ [vote.cast]) = { self with status := .ofDecision d, voted := ys } := by
    intro d ys heq
    obtain ⟨rfl, rfl⟩ := Prod.mk.inj heq
    rfl
  by_cases hmem : vote.from.toUsize ∈ self.participants
  · rw [if_neg (by simpa using hmem)]
    by_cases hwait : decision self.participants vs = .waiting
    · rw [if_neg (by simpa using hwait)]
      rw [hwait] at hcount
      cases hr : vote.rollbackReason with
      | some reason =>
        simp only [Vote.cast, hr, count, if_pos hmem] at hcount
        have heq := hstays _ _ (by simpa only [Vote.cast, hr] using hcount)
        rw [heq]
        simp [counting, XactStatus.ofDecision, NodeId.ofUsize_toUsize]
      | none =>
        simp only [Vote.cast, hr, count, if_pos hmem] at hcount
        have heq := hstays _ _ (by simpa only [Vote.cast, hr] using hcount)
        rw [heq]
        by_cases hnew : vote.from.toUsize ∈ Tally.voted self.participants vs
        · have hins := Finset.insert_eq_of_mem hnew
          have hnot : Tally.voted self.participants vs ≠ self.participants :=
            (decision_eq_waiting.mp hwait).2 ⟨_, hmem⟩
          simp [counting, hnew, hins, hnot, hwait, XactStatus.ofDecision]
        · by_cases hfull :
            insert vote.from.toUsize (Tally.voted self.participants vs) = self.participants
          · simp [counting, hnew, hfull, XactStatus.ofDecision]
          · simp [counting, hnew, hfull, hwait, XactStatus.ofDecision]
    · rw [if_pos (by simpa using hwait)]
      rw [hstays _ _ (hcount.trans (count_of_ne_waiting hwait _ _))]
      rfl
  · rw [if_pos (by simpa using hmem)]
    have hsame : count self.participants vote.cast
        (decision self.participants vs, Tally.voted self.participants vs) =
        (decision self.participants vs, Tally.voted self.participants vs) := by
      cases hd : decision self.participants vs with
      | waiting => simp [count, Vote.cast, hmem]
      | commit => rfl
      | rollback p r => rfl
    rw [hstays _ _ (hcount.trans hsame)]
    rfl

/-- A carried ballot takes no further vote. -/
theorem addVote_carried (h : decision self.participants vs = .commit) (vote : Vote) :
    ∃ e, verdict self.participants vs [vote.cast] = .error e ∧
      (self.counting vs).addVote vote = .error e := by
  have hover : Overrun self.participants vs [vote.cast] :=
    (overrun_cons _ _).mpr (Or.inl h)
  refine ⟨_, by rw [verdict, if_pos hover], ?_⟩
  have hcommit : (self.counting vs).status = .committing ∨
      (self.counting vs).status = .committed := by simp [h]
  unfold addVote
  rw [if_pos hcommit]

/-- Votes counted one after the other. The state is the same as if all of them were counted. -/
theorem addVotes_counting (votes : List Vote) (vs : List (Nat × Option RollbackReason)) :
    (self.counting vs).addVotes votes =
      (verdict self.participants vs (votes.map Vote.cast),
        self.counting (vs ++ votes.map Vote.cast)) := by
  induction votes generalizing vs with
  | nil =>
    rw [List.map_nil, List.append_nil, verdict, if_neg not_overrun_nil]
    rfl
  | cons vote votes ih =>
    rw [List.map_cons]
    by_cases hd : decision self.participants vs = .commit
    · obtain ⟨e, hv, hadd⟩ := addVote_carried hd vote
      have hover : Overrun self.participants vs (vote.cast :: votes.map Vote.cast) :=
        (overrun_cons _ _).mpr (Or.inl hd)
      have hstable : self.counting (vs ++ vote.cast :: votes.map Vote.cast) = self.counting vs := by
        obtain ⟨hdec, hvoted⟩ :=
          ballot_stable (by rw [hd]; simp) (vote.cast :: votes.map Vote.cast)
        unfold counting
        rw [hdec, hvoted]
      rw [verdict, if_pos ((overrun_cons _ _).mpr (Or.inl hd))] at hv
      rw [verdict, if_pos hover, hstable]
      simp only [addVotes, hadd]
      rw [← hv]
    · have hverdict : verdict self.participants vs (vote.cast :: votes.map Vote.cast) =
          verdict self.participants (vs ++ [vote.cast]) (votes.map Vote.cast) := by
        unfold verdict
        simp only [overrun_cons, hd, false_or]
      simp only [addVotes, addVote_counting hd, ih, hverdict, List.append_assoc,
        List.singleton_append]

/-! ## Initialising -/

/-- The end of `initialize`: the votes kept so far are counted. -/
theorem replay_counting (self : XactState C) (vs : List (Nat × Option RollbackReason))
    (votes : List Vote) :
    (match (self.counting vs).addVotes votes with
      | (.ok (), self) => (.done (.ok self.status, self) :
          Prog (XactState C) Effect Answer (Except Failure XactStatus × XactState C))
      | (.error e, self) => .done (.error e, self)) =
      .done (self.counted vs (votes.map Vote.cast)) := by
  rw [addVotes_counting, counted]
  cases verdict self.participants vs (votes.map Vote.cast) <;> rfl

/-- At the coordinator the first vote is its own yes. -/
theorem initialize_local [XactController C] (n : NodeId) (P : BitSet) (controller : C)
    (votes : List Vote) :
    initializeXact votes (new n n P controller) =
      .done ((new n n P controller).counted [(n.toUsize, none)] (votes.map Vote.cast)) := by
  have hadd : ((new n n P controller).counting []).addVote ⟨n, none⟩ =
      .ok ((new n n P controller).counting [(n.toUsize, none)]) :=
    addVote_counting (by rw [decision_nil]; simp) _
  rw [← new_waiting] at hadd
  simp only [new] at hadd ⊢
  simp [initializeXact, bind, Async.ensure, Async.get, Async.modify, Async.update, pure, hadd]
  exact replay_counting _ _ _

theorem executeReason_surrogate (self : XactState SurrogateXactController) :
    executeReason self =
      .await self (.execute self.controller.xactId self.controller.data) fun r =>
        .done (.ok (RollbackReason.ofAnswer r), self) := by
  unfold executeReason
  show Prog.await self (Effect.execute self.controller.xactId self.controller.data) _ = _
  congr 1
  funext r
  cases r <;> rfl

/-- The yes of the coordinator alone carries no ballot that another node takes part in. -/
theorem decision_coordinator {n c : NodeId} {P : BitSet} (hnc : n ≠ c) (hn : n.toUsize ∈ P) :
    decision P [(c.toUsize, (none : Option RollbackReason))] ≠ .commit := by
  intro h
  have hyes := (yes_of_commit h).2 _ hn
  have heq : n.toUsize = c.toUsize := by simpa using hyes
  exact hnc (NodeId.toUsize_inj.mp heq)

theorem decision_coordinator_waiting {n c : NodeId} {P : BitSet} (hnc : n ≠ c)
    (hn : n.toUsize ∈ P) :
    decision P [(c.toUsize, (none : Option RollbackReason))] = .waiting := by
  cases hd : decision P [(c.toUsize, (none : Option RollbackReason))] with
  | waiting => rfl
  | commit => exact absurd hd (decision_coordinator hnc hn)
  | rollback p reason =>
    obtain ⟨-, hno⟩ := no_of_rollback hd
    exact absurd hno (by simp)

/-- At a surrogate the votes that were kept come after the yes of the coordinator and its own
vote. -/
theorem initialize_surrogate {n c : NodeId} {P : BitSet} (hnc : n ≠ c) (hn : n.toUsize ∈ P)
    (controller : SurrogateXactController) (votes : List Vote) :
    initializeXact votes (new n c P controller) =
      .await ((new n c P controller).counting [(c.toUsize, none)])
        (.execute controller.xactId controller.data) fun r =>
          .done ((new n c P controller).counted
            [(c.toUsize, none), (n.toUsize, RollbackReason.ofAnswer r)] (votes.map Vote.cast)) := by
  have hadd : ((new n c P controller).counting []).addVote (Vote.yes c) =
      .ok ((new n c P controller).counting [(c.toUsize, none)]) :=
    addVote_counting (by rw [decision_nil]; simp) _
  rw [← new_waiting] at hadd
  have hown : ∀ r, ((new n c P controller).counting [(c.toUsize, none)]).addVote ⟨n, r⟩ =
      .ok ((new n c P controller).counting [(c.toUsize, none), (n.toUsize, r)]) :=
    fun r => addVote_counting (decision_coordinator hnc hn) _
  have hexec := executeReason_surrogate ((new n c P controller).counting [(c.toUsize, none)])
  simp only [new] at hadd hown hexec ⊢
  simp [initializeXact, bind, Async.ensure, Async.get, Async.modify, Async.update, pure, hadd, hnc,
    hexec, hown]
  funext r
  exact replay_counting _ _ _

/-! ## Finishing -/

theorem carries_local (tx : Sender) :
    Carries (LocalXactController.new tx) ⟨none⟩ (.replyCommit (some tx)) (.replyRollback (some tx))
      (fun _ => .msg "The pg watcher has dropped the receiver") := by
  constructor
  · show Prog.await _ _ _ = _
    congr 1
    funext r
    cases r <;> rfl
  · intro info
    show Prog.await _ _ _ = _
    congr 1
    funext r
    cases r <;> rfl

theorem carries_surrogate (controller : SurrogateXactController) :
    Carries controller controller (.commit controller.xactId) (.rollback controller.xactId) id := by
  constructor
  · show Prog.await _ _ _ = _
    congr 1
    funext r
    cases r <;> rfl
  · intro info
    show Prog.await _ _ _ = _
    congr 1
    funext r
    cases r <;> rfl

section

variable [XactController C] {spent : C} {onCommit : Effect} {onRollback : RollbackInfo → Effect}
  {onError : AnyhowError → AnyhowError}

theorem tryFinish_waiting (h : decision self.participants vs = .waiting) :
    tryFinish (self.counting vs) = .done (.ok .waiting, self.counting vs) := by
  simp [tryFinish, bind, Async.get, h, XactStatus.ofDecision, pure]

/-- A decided ballot is carried out by its one effect. -/
theorem tryFinish_decided (self : XactState C)
    (hc : Carries self.controller spent onCommit onRollback onError) {e : Effect} {text : String}
    (h : closing onCommit onRollback (decision self.participants vs) = some (e, text)) :
    tryFinish (self.counting vs) =
      .await { self.counting vs with controller := spent } e fun r =>
        .done (closed { self.counting vs with controller := spent }
          (decision self.participants vs) text (r.mapError onError)) := by
  cases hd : decision self.participants vs with
  | waiting =>
    rw [hd] at h
    exact absurd h (by simp [closing])
  | commit =>
    rw [hd] at h
    obtain ⟨rfl, rfl⟩ := Prod.mk.inj (Option.some.inj h)
    simp [tryFinish, bind, Async.get, hd, XactStatus.ofDecision, pure, Async.mapFailure,
      withController, Async.within, hc.commit]
    funext r
    cases r <;> simp [Async.modify, Except.mapError, closed, XactStatus.finalOf]
  | rollback p reason =>
    rw [hd] at h
    obtain ⟨rfl, rfl⟩ := Prod.mk.inj (Option.some.inj h)
    simp [tryFinish, bind, Async.get, hd, XactStatus.ofDecision, pure, Async.mapFailure,
      withController, Async.within, hc.rollback]
    funext r
    cases r <;> simp [Async.modify, Except.mapError, closed, XactStatus.finalOf]

end

end XactState

end Sunstorm
