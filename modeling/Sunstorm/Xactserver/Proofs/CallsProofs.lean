import Sunstorm.Await.Proofs.ProgProofs
import Sunstorm.Xactserver.Calls
import Sunstorm.Xactserver.Proofs.XactStateProofs

/-!
# Proofs: counting votes and carrying a decision out

`add_vote` takes the ballot that `decision` describes, up to the first call that fails. Whatever
calls are made, the status moves from waiting to a decision and on to its end, and the controller
is invoked for that decision only, until it succeeds.
-/

namespace Sunstorm

open Await Tally

namespace XactState

variable {C : Type}

/-! ## Counting votes -/

/-- **Votes are counted as the ballot says.** As long as no call fails, the status is the decision
of the ballot and the voters are the members that voted yes before it; the next call fails exactly
when the ballot is carried. -/
theorem addVotes_reference (nodeId coordinator : NodeId) (P : BitSet) (controller : C)
    (votes : List Vote) (s : XactState C)
    (hok : addVotes { new nodeId coordinator P controller with status := .waiting } votes =
      (.ok (), s)) :
    s.status = .ofDecision (decision P (votes.map Vote.cast)) ∧
      s.voted = Tally.voted P (votes.map Vote.cast) ∧ s.voted ⊆ P ∧
      (∀ vote, (∃ e, s.addVote vote = .error e) ↔
        decision P (votes.map Vote.cast) = .commit) ∧
      (s.status = .committing ↔ s.voted = P ∧ P.Nonempty) := by
  rw [new_waiting, addVotes_counting, List.nil_append] at hok
  obtain ⟨-, rfl⟩ := Prod.mk.inj hok
  refine ⟨rfl, rfl, Finset.filter_subset _ _, fun vote => ?_, ?_⟩
  · constructor
    · rintro ⟨e, he⟩
      by_contra hd
      rw [addVote_counting hd] at he
      exact absurd he (by simp)
    · intro hd
      obtain ⟨e, -, he⟩ : ∃ e, _ ∧
          ((new nodeId coordinator P controller).counting (votes.map Vote.cast)).addVote vote =
            .error e := addVote_carried hd vote
      exact ⟨e, he⟩
  · rw [counting_status, XactStatus.ofDecision_eq_committing, decision_eq_commit]
    show _ ↔ Tally.voted P (votes.map Vote.cast) = P ∧ P.Nonempty
    rw [voted_eq_self]
    exact and_comm

/-- The yes of node 0, a vote of an outsider and the no of node 1, in a ballot of 0, 1 and 2. -/
theorem addVotes_reference_three :
    XactStatus.rollbacking ⟨⟨1⟩, .other "no"⟩ = .ofDecision (decision {0, 1, 2}
        [(0, none), (7, none), (1, some (RollbackReason.other "no"))]) ∧
      ({0} : BitSet) = Tally.voted {0, 1, 2} [(0, none), (7, none), (1, some (RollbackReason.other "no"))] := by
  obtain ⟨hstatus, hvoted, -⟩ := addVotes_reference ⟨0⟩ ⟨0⟩ {0, 1, 2} ()
    [.yes ⟨0⟩, .yes ⟨7⟩, .no ⟨1⟩ (.other "no")] _ rfl
  exact ⟨hstatus, hvoted⟩

/-! ## Carrying a decision out -/

section

variable [XactController C]

/-- `try_finish` invokes the controller for the decision, and takes the end of it when that
succeeds. -/
theorem run_tryFinish_committing {self : XactState C} (h : self.status = .committing)
    (env : Effect → Answer) {r : Answer} {controller : C}
    (hrun : ((XactController.commit : Async C Effect Answer AnyhowError Unit)
      self.controller).run env = (r, controller)) :
    (r = .ok () → (tryFinish self).run env =
      (.ok .committed, { self with status := .committed, controller })) ∧
    ∀ e, r = .error e → (tryFinish self).run env =
      (.error (.err (e.context "Failed to commit")), { self with controller }) := by
  unfold tryFinish
  simp only [bind, Async.get, Prog.bind_done, h, Async.mapFailure, withController, Async.within,
    Prog.run_bind, Prog.run_zoom, hrun, Prog.run_done]
  constructor
  · rintro rfl
    rfl
  · rintro e rfl
    simp [Except.mapError]

theorem run_tryFinish_rollbacking {self : XactState C} {info : RollbackInfo}
    (h : self.status = .rollbacking info) (env : Effect → Answer) {r : Answer} {controller : C}
    (hrun : ((XactController.rollback info : Async C Effect Answer AnyhowError Unit)
      self.controller).run env = (r, controller)) :
    (r = .ok () → (tryFinish self).run env =
      (.ok (.rollbacked info), { self with status := .rollbacked info, controller })) ∧
    ∀ e, r = .error e → (tryFinish self).run env =
      (.error (.err (e.context "Failed to rollback")), { self with controller }) := by
  unfold tryFinish
  simp only [bind, Async.get, Prog.bind_done, h, Async.mapFailure, withController, Async.within,
    Prog.run_bind, Prog.run_zoom, hrun, Prog.run_done]
  constructor
  · rintro rfl
    rfl
  · rintro e rfl
    simp [Except.mapError]

/-- Without a decision to carry out, `try_finish` does nothing. -/
theorem run_tryFinish_other {self : XactState C} (hc : self.status ≠ .committing)
    (hr : ∀ info, self.status ≠ .rollbacking info) (env : Effect → Answer) :
    (tryFinish self).run env = (.ok self.status, self) := by
  unfold tryFinish
  cases hs : self.status with
  | committing => exact absurd hs hc
  | rollbacking info => exact absurd hs (hr info)
  | _ => simp [bind, Async.get, hs, pure]

/-- `try_finish` asks for what the controller asks for. -/
theorem asks_tryFinish_committing {self : XactState C} (h : self.status = .committing)
    (env : Effect → Answer) :
    (tryFinish self).asks env =
      ((XactController.commit : Async C Effect Answer AnyhowError Unit) self.controller).asks env := by
  unfold tryFinish
  simp only [bind, Async.get, Prog.bind_done, h, Async.mapFailure, withController, Async.within,
    Prog.asks_bind, Prog.asks_zoom, Prog.asks_done, List.append_nil]
  split <;> simp [Async.modify, pure]

theorem asks_tryFinish_rollbacking {self : XactState C} {info : RollbackInfo}
    (h : self.status = .rollbacking info) (env : Effect → Answer) :
    (tryFinish self).asks env =
      ((XactController.rollback info : Async C Effect Answer AnyhowError Unit)
        self.controller).asks env := by
  unfold tryFinish
  simp only [bind, Async.get, Prog.bind_done, h, Async.mapFailure, withController, Async.within,
    Prog.asks_bind, Prog.asks_zoom, Prog.asks_done, List.append_nil]
  split <;> simp [Async.modify, pure]

theorem asks_tryFinish_other {self : XactState C} (hc : self.status ≠ .committing)
    (hr : ∀ info, self.status ≠ .rollbacking info) (env : Effect → Answer) :
    (tryFinish self).asks env = [] := by
  unfold tryFinish
  cases hs : self.status with
  | committing => exact absurd hs hc
  | rollbacking info => exact absurd hs (hr info)
  | _ => simp [bind, Async.get, hs, pure]

end

end XactState

/-! ## Calls in any order -/

section

variable {C : Type}

theorem Watched.run_watch (record : Answer → List Invocation)
    (x : Async C Effect Answer AnyhowError Unit) (self : Watched C) (env : Effect → Answer) :
    (Watched.watch record x self).run env =
      (((x self.inner).run env).1,
        ⟨((x self.inner).run env).2, self.invocations ++ record ((x self.inner).run env).1⟩) := by
  unfold Watched.watch
  rw [Prog.run_bind, Prog.run_zoom]
  rfl

/-- A vote leaves the controller alone, and it moves the status only out of waiting. -/
theorem XactState.addVote_moves {self self' : XactState C} {vote : Vote}
    (h : self.addVote vote = .ok self') :
    self'.controller = self.controller ∧ self'.participants = self.participants ∧
      (self' = self ∨ self.status = .waiting ∧ (self'.status = .waiting ∨
        self'.status = .committing ∨ ∃ info, self'.status = .rollbacking info)) := by
  unfold XactState.addVote at h
  by_cases hdone : self.status = .committing ∨ self.status = .committed
  · rw [if_pos hdone] at h
    exact absurd h (by simp)
  rw [if_neg hdone] at h
  by_cases hout : vote.from.toUsize ∉ self.participants
  · rw [if_pos hout] at h
    obtain rfl := Except.ok.inj h
    exact ⟨rfl, rfl, Or.inl rfl⟩
  rw [if_neg hout] at h
  by_cases hwait : self.status = .waiting
  · rw [if_neg (not_not.mpr hwait)] at h
    cases hr : vote.rollbackReason with
    | some reason =>
      rw [hr] at h
      obtain rfl := Except.ok.inj h
      exact ⟨rfl, rfl, Or.inr ⟨hwait, Or.inr (Or.inr ⟨_, rfl⟩)⟩⟩
    | none =>
      simp only [hr] at h
      by_cases hnew : vote.from.toUsize ∉ self.voted
      · rw [if_pos hnew] at h
        by_cases hfull : insert vote.from.toUsize self.voted = self.participants
        · rw [if_pos hfull] at h
          obtain rfl := Except.ok.inj h
          exact ⟨rfl, rfl, Or.inr ⟨hwait, Or.inr (Or.inl rfl)⟩⟩
        · rw [if_neg hfull] at h
          obtain rfl := Except.ok.inj h
          exact ⟨rfl, rfl, Or.inr ⟨hwait, Or.inl hwait⟩⟩
      · rw [if_neg hnew] at h
        obtain rfl := Except.ok.inj h
        exact ⟨rfl, rfl, Or.inl rfl⟩
  · rw [if_pos hwait] at h
    obtain rfl := Except.ok.inj h
    exact ⟨rfl, rfl, Or.inl rfl⟩

/-- What a call does: it fails and leaves the state, it does not invoke the controller, or it
invokes it for the decision and takes the end of it when that succeeds. -/
inductive XactState.Did (self : XactState (Watched C)) :
    Except Failure XactStatus → XactState (Watched C) → Prop where
  | refused (e : Failure) : Did self (.error e) self
  | counted {status : XactStatus} {s' : XactState (Watched C)}
    (controller : s'.controller = self.controller)
    (moved : s'.status = self.status ∨ self.status = .waiting ∧ (s'.status = .committing ∨
      ∃ info, s'.status = .rollbacking info)) : Did self (.ok status) s'
  | invoked (inner : C) (x : Invocation) {r : Except Failure XactStatus}
    {s' : XactState (Watched C)}
    (controller : s'.controller = ⟨inner, self.controller.invocations ++ [x]⟩)
    (participants : s'.participants = self.participants) (voted : s'.voted = self.voted)
    (decided : self.status = .committing ∧ x.IsCommit ∨
      ∃ info, self.status = .rollbacking info ∧ x.IsRollback info)
    (ended : (∃ status, r = .ok status) ∧ x.result = .ok () ∧
        (self.status = .committing ∧ s'.status = .committed ∨
          ∃ info, self.status = .rollbacking info ∧ s'.status = .rollbacked info) ∨
      (∃ e, r = .error e) ∧ x.result ≠ .ok () ∧ s'.status = self.status) : Did self r s'

/-- The three cases of a call. -/
theorem XactState.call_did [XactController C] (self : XactState (Watched C)) (c : Call) :
    self.Did (self.call c).1 (self.call c).2 := by
  cases c with
  | addVote vote =>
    cases h : self.addVote vote with
    | error e =>
      rw [show self.call (.addVote vote) = (.error e, self) by simp [call, h]]
      exact .refused e
    | ok s' =>
      rw [show self.call (.addVote vote) = (.ok s'.status, s') by simp [call, h]]
      obtain ⟨hcontroller, -, rfl | ⟨hwait, hmoved⟩⟩ := addVote_moves h
      · exact .counted rfl (Or.inl rfl)
      · rcases hmoved with hs | hs | hs
        · exact .counted hcontroller (Or.inl (hs.trans hwait.symm))
        · exact .counted hcontroller (Or.inr ⟨hwait, Or.inl hs⟩)
        · exact .counted hcontroller (Or.inr ⟨hwait, Or.inr hs⟩)
  | tryFinish env =>
    show self.Did ((XactState.tryFinish self).run env).1 ((XactState.tryFinish self).run env).2
    cases hs : self.status with
    | committing =>
      have hrun := Watched.run_watch (fun r => [.commit r]) XactController.commit
        self.controller env
      obtain ⟨hok, herror⟩ := run_tryFinish_committing hs env hrun
      cases hr : ((XactController.commit self.controller.inner).run env).1 with
      | ok u =>
        rw [hok hr, hr]
        exact .invoked _ _ rfl rfl rfl (Or.inl ⟨hs, _, rfl⟩)
          (Or.inl ⟨⟨_, rfl⟩, rfl, Or.inl ⟨hs, rfl⟩⟩)
      | error e =>
        rw [herror e hr, hr]
        exact .invoked _ _ rfl rfl rfl (Or.inl ⟨hs, _, rfl⟩)
          (Or.inr ⟨⟨_, rfl⟩, by simp [Invocation.result], rfl⟩)
    | rollbacking info =>
      have hrun := Watched.run_watch (fun r => [.rollback info r]) (XactController.rollback info)
        self.controller env
      obtain ⟨hok, herror⟩ := run_tryFinish_rollbacking hs env hrun
      cases hr : ((XactController.rollback info self.controller.inner).run env).1 with
      | ok u =>
        rw [hok hr, hr]
        exact .invoked _ _ rfl rfl rfl (Or.inr ⟨info, hs, _, rfl⟩)
          (Or.inl ⟨⟨_, rfl⟩, rfl, Or.inr ⟨info, hs, rfl⟩⟩)
      | error e =>
        rw [herror e hr, hr]
        exact .invoked _ _ rfl rfl rfl (Or.inr ⟨info, hs, _, rfl⟩)
          (Or.inr ⟨⟨_, rfl⟩, by simp [Invocation.result], rfl⟩)
    | _ =>
      rw [run_tryFinish_other (by simp [hs]) (by simp [hs])]
      exact .counted rfl (Or.inl rfl)

/-- What the controller was invoked for: always the decision that the status shows, and nothing
after it succeeded. -/
structure XactState.Faithful (s : XactState (Watched C)) : Prop where
  kind : s.controller.invocations = [] ∨
    (∀ x ∈ s.controller.invocations, x.IsCommit) ∧
      (s.status = .committing ∨ s.status = .committed) ∨
    ∃ info, (∀ x ∈ s.controller.invocations, x.IsRollback info) ∧
      (s.status = .rollbacking info ∨ s.status = .rollbacked info)
  last : ∀ xs x ys, s.controller.invocations = xs ++ x :: ys → x.result = .ok () →
    ys = [] ∧ (s.status = .committed ∨ ∃ info, s.status = .rollbacked info)

namespace XactState.Faithful

variable {self s' : XactState (Watched C)} {r : Except Failure XactStatus}

/-- One call keeps it. -/
theorem step (h : self.Faithful) (hd : self.Did r s') : s'.Faithful := by
  cases hd with
  | refused e => exact h
  | counted controller moved =>
    rcases moved with hs | ⟨hwait, -⟩
    · exact ⟨by rw [controller, hs]; exact h.kind, by rw [controller, hs]; exact h.last⟩
    · -- nothing was invoked while the status was waiting
      have hnil : self.controller.invocations = [] := by
        rcases h.kind with hnil | ⟨-, hs⟩ | ⟨info, -, hs⟩
        · exact hnil
        · rcases hs with hs | hs <;> exact absurd (hwait.symm.trans hs) (by simp)
        · rcases hs with hs | hs <;> exact absurd (hwait.symm.trans hs) (by simp)
      refine ⟨Or.inl (by rw [controller, hnil]), fun xs x ys heq => ?_⟩
      rw [controller, hnil] at heq
      exact absurd heq (by simp)
  | invoked inner x controller participants voted decided ended =>
    have hinv : s'.controller.invocations = self.controller.invocations ++ [x] := by
      rw [controller]
    have hopen : ∀ y ∈ self.controller.invocations, y.result ≠ .ok () := by
      intro y hy hok
      obtain ⟨xs, ys, heq⟩ := List.append_of_mem hy
      obtain ⟨-, hs⟩ := h.last xs y ys heq hok
      rcases decided with ⟨hd, -⟩ | ⟨info, hd, -⟩ <;> rw [hd] at hs <;> simp at hs
    refine ⟨Or.inr ?_, fun xs y ys heq hok => ?_⟩
    · rcases decided with ⟨hd, hx⟩ | ⟨info, hd, hx⟩
      · refine Or.inl ⟨fun y hy => ?_, ?_⟩
        · rw [hinv, List.mem_append, List.mem_singleton] at hy
          rcases hy with hy | rfl
          · rcases h.kind with hnil | ⟨hall, -⟩ | ⟨info, -, hs⟩
            · rw [hnil] at hy
              exact absurd hy List.not_mem_nil
            · exact hall y hy
            · rw [hd] at hs
              exact absurd hs (by simp)
          · exact hx
        · rcases ended with ⟨-, -, ⟨-, hs⟩ | ⟨info, hs, -⟩⟩ | ⟨-, -, hs⟩
          · exact Or.inr hs
          · exact absurd (hd.symm.trans hs) (by simp)
          · exact Or.inl (hs.trans hd)
      · refine Or.inr ⟨info, fun y hy => ?_, ?_⟩
        · rw [hinv, List.mem_append, List.mem_singleton] at hy
          rcases hy with hy | rfl
          · rcases h.kind with hnil | ⟨-, hs⟩ | ⟨info', hall, hs⟩
            · rw [hnil] at hy
              exact absurd hy List.not_mem_nil
            · rw [hd] at hs
              exact absurd hs (by simp)
            · have heq : info = info' := by
                rw [hd] at hs
                simpa using hs
              rw [heq]
              exact hall y hy
          · exact hx
        · rcases ended with ⟨-, -, ⟨hs, -⟩ | ⟨info', hs, hs'⟩⟩ | ⟨-, -, hs⟩
          · exact absurd (hd.symm.trans hs) (by simp)
          · obtain rfl := XactStatus.rollbacking.inj (hd.symm.trans hs)
            exact Or.inr hs'
          · exact Or.inl (hs.trans hd)
    · rw [hinv] at heq
      rcases List.eq_nil_or_concat ys with rfl | ⟨ys', z, rfl⟩
      · obtain ⟨-, hlast⟩ := List.append_inj' heq rfl
        obtain rfl := List.singleton_inj.mp hlast
        refine ⟨rfl, ?_⟩
        rcases ended with ⟨-, -, ⟨-, hs⟩ | ⟨info, -, hs⟩⟩ | ⟨-, hno, -⟩
        · exact Or.inl hs
        · exact Or.inr ⟨info, hs⟩
        · exact absurd hok hno
      · have hy : y ∈ self.controller.invocations := by
          rw [List.concat_eq_append, ← List.cons_append, ← List.append_assoc] at heq
          obtain ⟨hinit, -⟩ := List.append_inj' heq rfl
          rw [hinit]
          simp
        exact absurd hok (hopen y hy)

/-- Any calls keep it. -/
theorem calls [XactController C] (h : self.Faithful) (cs : List Call) : (self.calls cs).Faithful := by
  induction cs generalizing self with
  | nil => exact h
  | cons c cs ih => exact ih (h.step (call_did self c))

theorem watched (self : XactState C) : self.watched.Faithful :=
  ⟨Or.inl rfl, fun xs x ys heq => absurd heq (by simp [XactState.watched])⟩

end XactState.Faithful

/-- What one call does to a state, in terms of what it returns. -/
theorem XactState.Did.summary {self s' : XactState (Watched C)} {r : Except Failure XactStatus}
    (h : self.Did r s') :
    ((∃ e, r = .error e) → s'.status = self.status ∧ s'.voted = self.voted ∧
      s'.participants = self.participants) ∧
    self.status.Moves s'.status ∧
    (s'.controller.invocations = self.controller.invocations ∨
      ∃ x, s'.controller.invocations = self.controller.invocations ++ [x] ∧
        (self.status = .committing ∧ x.IsCommit ∨
          ∃ info, self.status = .rollbacking info ∧ x.IsRollback info)) := by
  cases h with
  | refused e => exact ⟨fun _ => ⟨rfl, rfl, rfl⟩, .stay _, Or.inl rfl⟩
  | counted controller moved =>
    refine ⟨fun ⟨e, he⟩ => absurd he (by simp), ?_, Or.inl (by rw [controller])⟩
    rcases moved with hs | ⟨hwait, hs | ⟨info, hs⟩⟩
    · rw [hs]
      exact .stay _
    · rw [hwait, hs]
      exact .carry
    · rw [hwait, hs]
      exact .lose info
  | invoked inner x controller participants voted decided ended =>
    have hinv : s'.controller.invocations = self.controller.invocations ++ [x] := by
      rw [controller]
    rcases ended with ⟨⟨status, rfl⟩, -, hs⟩ | ⟨-, -, hs⟩
    · refine ⟨fun ⟨e, he⟩ => absurd he (by simp), ?_, Or.inr ⟨x, hinv, decided⟩⟩
      rcases hs with ⟨hs, hs'⟩ | ⟨info, hs, hs'⟩
      · rw [hs, hs']
        exact .commit
      · rw [hs, hs']
        exact .rollback info
    · refine ⟨fun _ => ⟨hs, voted, participants⟩, ?_, Or.inr ⟨x, hinv, decided⟩⟩
      rw [hs]
      exact .stay _

/-! ## The reply to the client -/

theorem LocalXactController.asks_send (reply : Option Sender → Effect)
    (self : LocalXactController) (env : Effect → Answer) :
    (LocalXactController.send reply self).asks env = [reply self.commitTx] := by
  unfold LocalXactController.send
  rw [Prog.asks_await]
  cases self.commitTx with
  | none => rfl
  | some tx => cases env (reply (some tx)) <;> rfl

/-- The sender is taken even when sending on it fails. -/
theorem LocalXactController.run_send (reply : Option Sender → Effect)
    (self : LocalXactController) (env : Effect → Answer) :
    ∃ r, (LocalXactController.send reply self).run env = (r, ⟨none⟩) := by
  unfold LocalXactController.send
  rw [Prog.run_await]
  cases self.commitTx with
  | none => exact ⟨_, rfl⟩
  | some tx => cases env (reply (some tx)) <;> exact ⟨_, rfl⟩

/-- A coordinator sends a reply only for its decision, and only if it has not sent one before. -/
theorem sends_cases (self : XactState LocalXactController) (c : XactState.Call) :
    (self.sends c = [] ∧ ((self.call c).2.controller.commitTx = none ∨
        (self.call c).2.controller = self.controller)) ∨
      (self.controller.commitTx.isSome = true ∧ (self.call c).2.controller.commitTx = none ∧
        (self.status = .committing ∧ self.sends c = [none] ∨
          ∃ info, self.status = .rollbacking info ∧ self.sends c = [some info])) := by
  cases c with
  | addVote vote =>
    refine Or.inl ⟨rfl, Or.inr ?_⟩
    cases h : self.addVote vote with
    | error e => simp [XactState.call, h]
    | ok s' =>
      obtain ⟨hcontroller, -⟩ := XactState.addVote_moves h
      simp [XactState.call, h, hcontroller]
  | tryFinish env =>
    have hcall : self.call (.tryFinish env) = (XactState.tryFinish self).run env := rfl
    have hsends : self.sends (.tryFinish env) =
        ((XactState.tryFinish self).asks env).filterMap Effect.reply := rfl
    rw [hcall, hsends]
    cases hs : self.status with
    | committing =>
      obtain ⟨r, hrun⟩ := LocalXactController.run_send .replyCommit self.controller env
      have hspent : ((XactState.tryFinish self).run env).2.controller.commitTx = none := by
        obtain ⟨hok, herror⟩ := XactState.run_tryFinish_committing hs env hrun
        cases r with
        | ok u => rw [hok rfl]
        | error e => rw [herror e rfl]
      have hasks : (XactState.tryFinish self).asks env = [.replyCommit self.controller.commitTx] :=
        (XactState.asks_tryFinish_committing hs env).trans
          (LocalXactController.asks_send _ self.controller env)
      rw [hasks]
      cases htx : self.controller.commitTx with
      | none => exact Or.inl ⟨rfl, Or.inl hspent⟩
      | some tx => exact Or.inr ⟨rfl, hspent, Or.inl ⟨rfl, rfl⟩⟩
    | rollbacking info =>
      obtain ⟨r, hrun⟩ :=
        LocalXactController.run_send (fun tx => .replyRollback tx info) self.controller env
      have hspent : ((XactState.tryFinish self).run env).2.controller.commitTx = none := by
        obtain ⟨hok, herror⟩ := XactState.run_tryFinish_rollbacking hs env hrun
        cases r with
        | ok u => rw [hok rfl]
        | error e => rw [herror e rfl]
      have hasks : (XactState.tryFinish self).asks env =
          [.replyRollback self.controller.commitTx info] :=
        (XactState.asks_tryFinish_rollbacking hs env).trans
          (LocalXactController.asks_send _ self.controller env)
      rw [hasks]
      cases htx : self.controller.commitTx with
      | none => exact Or.inl ⟨rfl, Or.inl hspent⟩
      | some tx => exact Or.inr ⟨rfl, hspent, Or.inr ⟨info, rfl, rfl⟩⟩
    | _ =>
      have hc : self.status ≠ .committing := by simp [hs]
      have hr : ∀ info, self.status ≠ .rollbacking info := by simp [hs]
      rw [XactState.asks_tryFinish_other hc hr, XactState.run_tryFinish_other hc hr]
      exact Or.inl ⟨rfl, Or.inr rfl⟩

/-- At most one reply goes out, and none after the sender was taken. -/
theorem sendsAll_length (self : XactState LocalXactController) (cs : List XactState.Call) :
    (self.sendsAll cs).length ≤ if self.controller.commitTx.isSome then 1 else 0 := by
  induction cs generalizing self with
  | nil => exact Nat.zero_le _
  | cons c cs ih =>
    have hrest := ih (self.call c).2
    rw [XactState.sendsAll, List.length_append]
    rcases sends_cases self c with ⟨hnone, hspent | hsame⟩ | ⟨hsome, hspent, hsent⟩
    · rw [hspent] at hrest
      have hzero : ((self.call c).2.sendsAll cs).length ≤ 0 := hrest
      rw [hnone, List.length_nil]
      omega
    · rw [hsame] at hrest
      rw [hnone]
      simpa using hrest
    · rw [hspent] at hrest
      have hzero : ((self.call c).2.sendsAll cs).length ≤ 0 := hrest
      have hone : (self.sends c).length = 1 := by
        rcases hsent with ⟨-, hsent⟩ | ⟨info, -, hsent⟩ <;> rw [hsent] <;> rfl
      rw [hone, if_pos hsome]
      omega

/-- **Decisions are irrevocable, and errors leave the state as it was.** Whatever calls are made,
and whatever the controller answers: a call that fails changes nothing, the status only moves to a
decision and from there to its end, the controller is invoked only for the decision that the status
shows, never for two, and not again once it succeeded. A coordinator sends one reply at most, and
sends the decision that its status shows. -/
theorem decisions_irrevocable :
    (∀ (C : Type) [XactController C] (self : XactState C) (before : List XactState.Call)
        (c : XactState.Call),
      let s := self.watched.calls before
      let s' := (s.call c).2
      ((∃ e, (s.call c).1 = .error e) → s'.status = s.status ∧ s'.voted = s.voted ∧
        s'.participants = s.participants) ∧
      s.status.Moves s'.status ∧
      (s'.controller.invocations = s.controller.invocations ∨
        ∃ x, s'.controller.invocations = s.controller.invocations ++ [x] ∧
          (s.status = .committing ∧ x.IsCommit ∨
            ∃ info, s.status = .rollbacking info ∧ x.IsRollback info)) ∧
      (¬ ∃ x ∈ s'.controller.invocations, ∃ y ∈ s'.controller.invocations, ∃ info,
        x.IsCommit ∧ y.IsRollback info) ∧
      ∀ xs x ys, s'.controller.invocations = xs ++ x :: ys → x.result = .ok () → ys = []) ∧
    ∀ (self : XactState LocalXactController) (before : List XactState.Call) (c : XactState.Call),
      (self.sendsAll (before ++ [c])).length ≤ 1 ∧
      ∀ reply ∈ (self.calls before).sends c,
        reply = none ∧ (self.calls before).status = .committing ∨
          ∃ info, reply = some info ∧ (self.calls before).status = .rollbacking info := by
  constructor
  · intro C _ self before c
    have hdid := XactState.call_did (self.watched.calls before) c
    have hfaithful := ((XactState.Faithful.watched self).calls before).step hdid
    obtain ⟨herror, hmoves, hinvoked⟩ := hdid.summary
    refine ⟨herror, hmoves, hinvoked, ?_, fun xs x ys heq hok => (hfaithful.last xs x ys heq hok).1⟩
    rintro ⟨x, hx, y, hy, info, ⟨r, rfl⟩, ⟨r', rfl⟩⟩
    rcases hfaithful.kind with hnil | ⟨hall, -⟩ | ⟨info', hall, -⟩
    · rw [hnil] at hx
      exact absurd hx List.not_mem_nil
    · obtain ⟨r'', hr⟩ := hall _ hy
      exact absurd hr (by simp)
    · obtain ⟨r'', hr⟩ := hall _ hx
      exact absurd hr (by simp)
  · intro self before c
    refine ⟨(sendsAll_length self _).trans (by split <;> simp), fun reply hreply => ?_⟩
    rcases sends_cases (self.calls before) c with ⟨hnone, -⟩ | ⟨-, -, ⟨hs, hsent⟩ | ⟨info, hs, hsent⟩⟩
    · rw [hnone] at hreply
      exact absurd hreply List.not_mem_nil
    · rw [hsent, List.mem_singleton] at hreply
      exact Or.inl ⟨hreply, hs⟩
    · rw [hsent, List.mem_singleton] at hreply
      exact Or.inr ⟨info, hreply, hs⟩

end

end Sunstorm
