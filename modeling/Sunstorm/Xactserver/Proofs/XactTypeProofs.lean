import Sunstorm.Xactserver.Stage
import Sunstorm.Xactserver.Proofs.XactStateProofs

/-!
# Proofs: a transaction of either kind counts its ballot

The results about the state of a transaction, for the two kinds of transaction at once: a
transaction that was opened by `o` and has counted `vs` is `o.xact id n P vs`.
-/

namespace Sunstorm

open Await Tally

namespace XactType

variable {o : Opening} {id : XactId} {n : NodeId} {P : BitSet}
  {vs : List (Nat × Option RollbackReason)}

@[simp] theorem status_xact : (o.xact id n P vs).status = .ofDecision (decision P vs) := by
  cases o <;> rfl

/-- A local transaction opens the ballot with the yes of its node. -/
theorem initAsLocal_unknown (id : XactId) (n : NodeId) (P : BitSet) (data : Bytes) (tx : Sender)
    (votes : List Vote) :
    initAsLocal n n P tx (.unknown votes) =
      .done ((XactState.verdict P [(n.toUsize, none)] (votes.map Vote.cast)).map
          (fun _ => .ofDecision (decision P ([(n.toUsize, none)] ++ votes.map Vote.cast))),
        (Opening.coordinator data tx).xact id n P
          ([(n.toUsize, none)] ++ votes.map Vote.cast)) := by
  unfold initAsLocal initAs
  simp only [Async.within, XactState.initialize_local]
  rfl

/-- A surrogate opens the ballot with the yes of the coordinator and its own vote. -/
theorem initAsSurrogate_unknown {n : NodeId} {P : BitSet} {msg : PrepareMessage}
    (hfrom : (⟨msg.from⟩ : NodeId) ≠ n) (hn : n.toUsize ∈ P) (id : XactId) (votes : List Vote) :
    initAsSurrogate id n ⟨msg.from⟩ P msg.data (.unknown votes) =
      .await ((Opening.surrogate msg (.ok ())).xact id n P
          [((⟨msg.from⟩ : NodeId).toUsize, none)]) (.execute id msg.data) fun r =>
        .done ((XactState.verdict P ((Opening.surrogate msg r).votes n) (votes.map Vote.cast)).map
            (fun _ => .ofDecision
              (decision P ((Opening.surrogate msg r).votes n ++ votes.map Vote.cast))),
          (Opening.surrogate msg r).xact id n P
            ((Opening.surrogate msg r).votes n ++ votes.map Vote.cast)) := by
  unfold initAsSurrogate initAs
  simp only [Async.within, XactState.initialize_surrogate hfrom.symm hn]
  rfl

/-- A transaction that was opened panics when it is opened again. -/
theorem initAs_xact {C : Type} [XactController C] (wrap : XactState C → XactType)
    (newState : XactState C) :
    initAs wrap newState (o.xact id n P vs) = .done (.error unreachable, wrap newState) := by
  cases o <;> rfl

theorem addVote_unknown (votes : List Vote) (vote : Vote) :
    (XactType.unknown votes).addVote vote = .ok (.unknown (votes ++ [vote])) := rfl

/-- A vote is counted as long as the ballot is not carried. -/
theorem addVote_xact (h : decision P vs ≠ .commit) (vote : Vote) :
    (o.xact id n P vs).addVote vote = .ok (o.xact id n P (vs ++ [vote.cast])) := by
  cases o with
  | coordinator data tx =>
    simp only [Opening.xact, XactType.addVote]
    rw [XactState.addVote_counting h]
  | surrogate msg r =>
    simp only [Opening.xact, XactType.addVote]
    rw [XactState.addVote_counting h]

theorem tryFinish_unknown (votes : List Vote) :
    tryFinish (.unknown votes) = .done (.ok .uninitialized, .unknown votes) := rfl

theorem tryFinish_waiting (h : decision P vs = .waiting) :
    tryFinish (o.xact id n P vs) = .done (.ok .waiting, o.xact id n P vs) := by
  cases o with
  | coordinator data tx =>
    simp only [Opening.xact, tryFinish, Async.mapFailure, Async.within]
    rw [XactState.tryFinish_waiting h]
    rfl
  | surrogate msg r =>
    simp only [Opening.xact, tryFinish, Async.mapFailure, Async.within]
    rw [XactState.tryFinish_waiting h]
    rfl

/-- A decided ballot asks for the effect that carries it out, and is closed when that succeeds. -/
theorem tryFinish_decided {e : Effect} (he : o.closing id (decision P vs) = some e) :
    ∃ (xact xact' : XactType) (f : AnyhowError → AnyhowError),
      xact.status = .ofDecision (decision P vs) ∧ xact'.status = .finalOf (decision P vs) ∧
      tryFinish (o.xact id n P vs) = .await xact e fun r =>
        match r with
        | .ok () => .done (.ok (.finalOf (decision P vs)), xact')
        | .error x => .done (.error (.err (f x)), xact) := by
  cases o with
  | coordinator data tx =>
    obtain ⟨⟨e', text⟩, hclosing, rfl⟩ := Option.map_eq_some_iff.mp he
    have hstep := XactState.tryFinish_decided (XactState.new n n P (LocalXactController.new tx))
      (XactState.carries_local tx) hclosing
    refine ⟨.localXact { (XactState.new n n P (LocalXactController.new tx)).counting vs with
        controller := ⟨none⟩ },
      .localXact { (XactState.new n n P (LocalXactController.new tx)).counting vs with
        controller := ⟨none⟩, status := .finalOf (decision P vs) },
      fun _ => ((AnyhowError.msg "The pg watcher has dropped the receiver").context text).context
        "Failed to try finishing local xact", rfl, rfl, ?_⟩
    simp only [Opening.xact, tryFinish, Async.mapFailure, Async.within]
    rw [hstep]
    simp only [Prog.zoom_await, Prog.bind_await]
    congr 1
    funext r
    cases r <;> rfl
  | surrogate msg r =>
    obtain ⟨⟨e', text⟩, hclosing, rfl⟩ := Option.map_eq_some_iff.mp he
    have hstep := XactState.tryFinish_decided
      (XactState.new n ⟨msg.from⟩ P (⟨id, msg.data⟩ : SurrogateXactController))
      (XactState.carries_surrogate _) hclosing
    refine ⟨(Opening.surrogate msg r).xact id n P vs,
      .surrogate { (XactState.new n ⟨msg.from⟩ P ⟨id, msg.data⟩).counting vs with
        status := .finalOf (decision P vs) },
      fun x => (x.context text).context "Failed to try finishing surrogate xact", rfl, rfl, ?_⟩
    simp only [Opening.xact, tryFinish, Async.mapFailure, Async.within]
    rw [hstep]
    simp only [Prog.zoom_await, Prog.bind_await]
    congr 1
    funext r
    cases r <;> rfl

end XactType

namespace Opening

variable {o : Opening} {n : NodeId} {P : BitSet} {early late : List VoteMessage}

/-- A decision has an effect exactly when it is taken. -/
theorem closing_eq_none {id : XactId} {d : Decision Nat RollbackReason} :
    o.closing id d = none ↔ d = .waiting := by
  cases o <;> cases d <;> simp [closing, XactState.closing]

/-- A decision on the early votes stands. -/
theorem decision_stable (h : decision P (o.votes n ++ early.map VoteMessage.cast) ≠ .waiting) :
    decision P (o.votes n ++ (early ++ late).map VoteMessage.cast) =
      decision P (o.votes n ++ early.map VoteMessage.cast) := by
  rw [List.map_append, ← List.append_assoc]
  exact Tally.decision_stable h _

/-- A failed execution is the first no of the ballot. -/
theorem decision_failed {msg : PrepareMessage} {e : AnyhowError} (hne : n ≠ ⟨msg.from⟩)
    (hn : n.toUsize ∈ P) (votes : List VoteMessage) :
    decision P ((surrogate msg (.error e)).votes n ++ votes.map VoteMessage.cast) =
      .rollback n.toUsize (.ofError e) := by
  have hballot : (surrogate msg (.error e)).votes n ++ votes.map VoteMessage.cast =
      [((⟨msg.from⟩ : NodeId).toUsize, none)] ++
        (n.toUsize, some (RollbackReason.ofError e)) :: votes.map VoteMessage.cast := rfl
  rw [hballot]
  exact decision_no (XactState.decision_coordinator_waiting hne hn) hn _ _

end Opening

end Sunstorm
