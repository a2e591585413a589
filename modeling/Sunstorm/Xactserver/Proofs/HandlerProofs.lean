import Sunstorm.Xactserver.Proofs.XactTypeProofs

/-!
# Proofs: what the handlers of a state manager do

One equation for each handler and each stage in which it can be called: the effects it awaits, the
states it shows meanwhile and what it returns.
-/

namespace Sunstorm

open Await Tally

theorem RWSet.participantsIn_eq_some {data : Bytes} {P : BitSet} :
    RWSet.participantsIn data = some P ↔
      ∃ rwset, RWSet.decode data = .ok rwset ∧ rwset.participants = P := by
  unfold participantsIn
  cases RWSet.decode data with
  | ok rwset => simp
  | error e => simp

theorem RWSet.participantsIn_eq_none {data : Bytes} :
    RWSet.participantsIn data = none ↔ ∃ e, RWSet.decode data = .error e := by
  unfold participantsIn
  cases RWSet.decode data with
  | ok rwset => simp
  | error e => simp

theorem map_cast (votes : List VoteMessage) :
    (votes.map Vote.ofMessage).map Vote.cast = votes.map VoteMessage.cast := by
  rw [List.map_map]
  rfl

theorem fromUTF8?_toUTF8 (s : String) :
    String.fromUTF8? ⟨s.toUTF8.data.toList.toArray⟩ = some s := by
  have hutf8 : ByteArray.IsValidUTF8 s.toUTF8 := s.isValidUTF8
  rw [Array.toArray_toList]
  unfold String.fromUTF8?
  rw [dif_pos hutf8]
  rfl

theorem XactStatus.isTerminal_finalOf {d : Decision Nat RollbackReason} (hd : d ≠ .waiting) :
    (XactStatus.finalOf d).isTerminal = true := by
  cases d with
  | waiting => exact absurd rfl hd
  | commit => rfl
  | rollback p reason => rfl

/-- A decision that was carried out has a label, unless the code of its reason is no text. -/
theorem getRollbackReasonLabel_cases {d : Decision Nat RollbackReason} (hd : d ≠ .waiting) :
    (∃ label, getRollbackReasonLabel (.finalOf d) = .ok (some label)) ∨
      ∃ f, getRollbackReasonLabel (.finalOf d) = .error f := by
  cases d with
  | waiting => exact absurd rfl hd
  | commit => exact Or.inl ⟨_, rfl⟩
  | rollback p reason =>
    cases reason with
    | other err => exact Or.inl ⟨_, rfl⟩
    | db err =>
      simp only [XactStatus.finalOf, getRollbackReasonLabel]
      split
      · exact Or.inr ⟨_, rfl⟩
      · split_ifs <;> exact Or.inl ⟨_, rfl⟩

namespace XactStateManager

variable {o : Opening} {id : XactId} {n : NodeId} {P : BitSet}
  {vs : List (Nat × Option RollbackReason)} {early : List VoteMessage}

@[simp] theorem counting_status :
    (counting id n o P vs).xact.status = .ofDecision (decision P vs) :=
  XactType.status_xact

/-! ## Votes -/

theorem handle_vote_keeping (id : XactId) (n : NodeId) (early : List VoteMessage)
    (v : VoteMessage) :
    handle (.vote v) (keeping id n early) = .done (.ok false, keeping id n (early ++ [v])) := by
  simp [handle, handleVoteMsg, keeping, Async.mapFailure, bind, Async.update, XactType.addVote,
    finishXact, withXact, Async.within, XactType.tryFinish, Async.lift, getRollbackReasonLabel,
    pure, Except.mapError, XactStatus.isTerminal]

theorem handle_vote_counting (h : decision P vs ≠ .commit) (v : VoteMessage) :
    handle (.vote v) (counting id n o P vs) =
      (finishXact.mapFailure (Failure.context "failed to handle vote msg"))
        (counting id n o P (vs ++ [v.cast])) := by
  have hadd : (o.xact id n P vs).addVote (Vote.ofMessage v) =
      .ok (o.xact id n P (vs ++ [v.cast])) := XactType.addVote_xact h _
  simp [handle, handleVoteMsg, counting, Async.mapFailure, bind, Async.update, hadd]

theorem finishXact_waiting (h : decision P vs = .waiting) :
    finishXact (counting id n o P vs) = .done (.ok false, counting id n o P vs) := by
  have hfin : XactType.tryFinish (o.xact id n P vs) =
      .done (.ok .waiting, o.xact id n P vs) := XactType.tryFinish_waiting h
  simp [finishXact, counting, bind, withXact, Async.within, hfin, Async.lift,
    getRollbackReasonLabel, pure, XactStatus.isTerminal]

/-- Whether the decision could be labelled once it was carried out. -/
def labelled (status : XactStatus) : Except Failure Bool :=
  (getRollbackReasonLabel status).map fun _ => true

theorem finishXact_decided {e : Effect} (he : o.closing id (decision P vs) = some e) :
    ∃ (s s' : XactStateManager) (f : AnyhowError → AnyhowError),
      s.xact.status = .ofDecision (decision P vs) ∧ s'.xact.status = .finalOf (decision P vs) ∧
      finishXact (counting id n o P vs) = .await s e fun r =>
        match r with
        | .ok () => .done (labelled (.finalOf (decision P vs)), s')
        | .error x => .done (.error (.err (f x)), s) := by
  have hd : decision P vs ≠ .waiting := by
    intro hd
    rw [Opening.closing_eq_none.mpr hd] at he
    exact absurd he (by simp)
  obtain ⟨xact, xact', f, hs, hs', hfin⟩ := XactType.tryFinish_decided (n := n) he
  rcases getRollbackReasonLabel_cases hd with ⟨label, hlabel⟩ | ⟨failure, hlabel⟩
  · refine ⟨{ counting id n o P vs with xact },
      { counting id n o P vs with
        xact := xact', totalDurationTimer := none
        measured := [.started (o.coordinatorAt n), .finished (o.coordinatorAt n) label] },
      f, hs, hs', ?_⟩
    simp only [finishXact, counting, bind, withXact, Async.within, hfin, Prog.zoom_await,
      Prog.bind_await]
    congr 1
    funext r
    cases r with
    | ok u =>
      simp [hlabel, Async.lift, endXactMeasurement, unwrap, bind, Async.get, Async.modify, pure,
        labelled, Except.map, XactStatus.isTerminal_finalOf hd]
    | error x => rfl
  · refine ⟨{ counting id n o P vs with xact }, { counting id n o P vs with xact := xact' },
      f, hs, hs', ?_⟩
    simp only [finishXact, counting, bind, withXact, Async.within, hfin, Prog.zoom_await,
      Prog.bind_await]
    congr 1
    funext r
    cases r with
    | ok u => simp [hlabel, Async.lift, labelled, Except.map]
    | error x => rfl

/-! ## Opening the ballot -/

theorem sendToAllButMe_eq (P : BitSet) (msg : PeerMessage) (s : XactStateManager) :
    sendToAllButMe P msg s =
      .await s (.sendToAll (toAllBut s.nodeId P msg)) fun r => .done (r.mapError .err, s) := by
  show Prog.await s _ _ = _
  congr 1
  funext r
  cases r <;> rfl

/-- The state manager once a handler has begun to open the ballot. -/
def beginning (c : NodeId) (s : XactStateManager) : XactStateManager :=
  { s with
    coordinatorId := some c
    totalDurationTimer := some ()
    measured := s.measured ++ [.started c] }

theorem handle_local_undecoded {data : Bytes} {e : Failure} (he : RWSet.decode data = .error e)
    (tx : Sender) (s : XactStateManager) :
    handle (.localXact data tx) s =
      .done (.error ((e.context "Failed to decode read/write set").context
        "failed to handle local xact msg"), beginning s.nodeId s) := by
  simp [handle, handleLocalXactMsg, Async.mapFailure, bind, Async.modify, Async.get,
    beginXactMeasurement, Async.lift, unwrap, he, Except.mapError]
  rfl

/-- The handler of a local transaction, once its data is decoded and its ballot is opened. -/
theorem handle_local_decoded {data : Bytes} {rwset : RWSet} (hdec : RWSet.decode data = .ok rwset)
    {tx : Sender} {s : XactStateManager} {r : Except Failure XactStatus} {xact : XactType}
    (hinit : XactType.initAsLocal s.nodeId s.nodeId rwset.participants tx s.xact =
      .done (r, xact)) :
    handle (.localXact data tx) s =
      match r with
      | .error e => .done (.error (e.context "failed to handle local xact msg"),
          { beginning s.nodeId s with xact })
      | .ok status =>
        if status = .waiting then
          .await { beginning s.nodeId s with xact }
            (.sendToAll (toAllBut s.nodeId rwset.participants
              (.prepare { «from» := s.nodeId.val, xactId := s.xactId.val, data }))) fun r =>
            match r with
            | .ok () => .done (.ok false, { beginning s.nodeId s with xact })
            | .error x =>
              .done (.error (Failure.context "failed to handle local xact msg" (.err x)),
                { beginning s.nodeId s with xact })
        else
          .done (.error ((Failure.panic "assertion failed: `(left == right)`").context
            "failed to handle local xact msg"), { beginning s.nodeId s with xact }) := by
  cases r with
  | error e =>
    simp [handle, handleLocalXactMsg, Async.mapFailure, bind, Async.modify, Async.get,
      beginXactMeasurement, Async.lift, unwrap, hdec, withXact, Async.within, hinit, Except.mapError,
      beginning]
  | ok status =>
    by_cases hs : status = .waiting
    · simp [handle, handleLocalXactMsg, Async.mapFailure, bind, Async.modify, Async.get,
        beginXactMeasurement, Async.lift, unwrap, hdec, withXact, Async.within, hinit,
        Except.mapError, Async.ensure, hs, pure, sendToAllButMe_eq, beginning]
      funext r
      cases r <;> rfl
    · simp [handle, handleLocalXactMsg, Async.mapFailure, bind, Async.modify, Async.get,
        beginXactMeasurement, Async.lift, unwrap, hdec, withXact, Async.within, hinit,
        Except.mapError, Async.ensure, hs, Async.fail, beginning]

theorem handle_prepare_undecoded {msg : PrepareMessage} {e : Failure}
    (he : RWSet.decode msg.data = .error e) (s : XactStateManager) :
    handle (.prepare msg) s =
      .done (.error ((e.context "Failed to decode read/write set").context
        "failed to handle prepare msg"), beginning ⟨msg.from⟩ s) := by
  simp [handle, handlePrepareMsg, Async.mapFailure, bind, Async.modify, Async.get,
    beginXactMeasurement, Async.lift, unwrap, he, Except.mapError]
  rfl

theorem handle_prepare_absent {msg : PrepareMessage} {rwset : RWSet}
    (hdec : RWSet.decode msg.data = .ok rwset) {s : XactStateManager}
    (hn : s.nodeId.toUsize ∉ rwset.participants) :
    handle (.prepare msg) s = .done (.ok true, beginning ⟨msg.from⟩ s) := by
  simp [handle, handlePrepareMsg, Async.mapFailure, bind, Async.modify, Async.get,
    beginXactMeasurement, Async.lift, unwrap, hdec, Except.mapError, hn, pure]
  rfl

/-- The end of `handle_prepare_msg`, when opening the ballot has given `r`. -/
def announce (msg : PrepareMessage) (P : BitSet) (s : XactStateManager)
    (r : Except Failure XactStatus) (xact : XactType) :
    Prog XactStateManager Effect Answer (Except Failure Bool × XactStateManager) :=
  let s' := { beginning ⟨msg.from⟩ s with xact }
  match r.bind voteReason with
  | .error e => .done (.error (e.context "failed to handle prepare msg"), s')
  | .ok rollbackReason =>
    .await s' (.sendToAll (toAllBut s.nodeId P
      (.vote { «from» := s.nodeId.val, xactId := s.xactId.val, rollbackReason }))) fun r =>
        match r with
        | .ok () => (finishXact.mapFailure (Failure.context "failed to handle prepare msg")) s'
        | .error x =>
          .done (.error (Failure.context "failed to handle prepare msg" (.err x)), s')

/-- The handler of a `Prepare`, once its data is decoded. -/
theorem handle_prepare_decoded {msg : PrepareMessage} {rwset : RWSet}
    (hdec : RWSet.decode msg.data = .ok rwset) {s : XactStateManager}
    (hn : s.nodeId.toUsize ∈ rwset.participants) :
    handle (.prepare msg) s =
      ((XactType.initAsSurrogate s.xactId s.nodeId ⟨msg.from⟩ rwset.participants msg.data
          s.xact).zoom fun xact => { beginning ⟨msg.from⟩ s with xact }).bind fun opened =>
        announce msg rwset.participants s opened.1 opened.2 := by
  simp [handle, handlePrepareMsg, Async.mapFailure, bind, Async.modify, Async.get,
    beginXactMeasurement, Async.lift, unwrap, hdec, Except.mapError, hn, pure, withXact,
    Async.within, Prog.bind_bind]
  simp only [beginning]
  congr 1
  funext opened
  obtain ⟨r, xact⟩ := opened
  cases r with
  | error e => rfl
  | ok status =>
    simp only [announce, Except.bind]
    cases voteReason status with
    | error e => rfl
    | ok reason =>
      simp only [Prog.bind_done, sendToAllButMe_eq, Prog.bind_await]
      congr 1
      funext r
      cases r <;> rfl

/-! ## The stages in which a ballot is opened -/

/-- A message that is refused ends the state manager and leaves the transaction as it was. -/
theorem handle_refused {m : XsMessage} (hm : m.Refused n) {s : XactStateManager}
    (hs : s.nodeId = n) :
    ∃ r s', handle m s = .done (r, s') ∧ r ≠ .ok false ∧ s'.xact = s.xact := by
  cases m with
  | localXact data tx =>
    obtain ⟨e, he⟩ := RWSet.participantsIn_eq_none.mp hm
    exact ⟨_, _, handle_local_undecoded he tx s, by simp, rfl⟩
  | prepare msg =>
    cases hdec : RWSet.decode msg.data with
    | error e => exact ⟨_, _, handle_prepare_undecoded hdec s, by simp, rfl⟩
    | ok rwset =>
      have hn : s.nodeId.toUsize ∉ rwset.participants := by
        rw [hs]
        exact hm _ (RWSet.participantsIn_eq_some.mpr ⟨rwset, hdec, rfl⟩)
      exact ⟨_, _, handle_prepare_absent hdec hn, by simp, rfl⟩
  | vote msg => exact absurd hm id

/-- The coordinator announces its ballot when it is open. -/
theorem handle_local_announced {data : Bytes} {tx : Sender}
    (hP : RWSet.participantsIn data = some P)
    (hd : decision P ((Opening.coordinator data tx).votes n ++ early.map VoteMessage.cast) =
      .waiting) :
    handle (.localXact data tx) (keeping id n early) =
      .await
        (counting id n (.coordinator data tx) P
          ((Opening.coordinator data tx).votes n ++ early.map VoteMessage.cast))
        (.sendToAll (toAllBut n P (.prepare { «from» := n.val, xactId := id.val, data }))) fun r =>
        match r with
        | .ok () =>
          .done (.ok false, counting id n (.coordinator data tx) P
            ((Opening.coordinator data tx).votes n ++ early.map VoteMessage.cast))
        | .error x =>
          .done (.error (Failure.context "failed to handle local xact msg" (.err x)),
            counting id n (.coordinator data tx) P
              ((Opening.coordinator data tx).votes n ++ early.map VoteMessage.cast)) := by
  obtain ⟨rwset, hdec, rfl⟩ := RWSet.participantsIn_eq_some.mp hP
  have hinit := XactType.initAsLocal_unknown id n rwset.participants data tx
    (early.map Vote.ofMessage)
  rw [map_cast] at hinit
  have hover : ¬ Overrun rwset.participants ((Opening.coordinator data tx).votes n)
      (early.map VoteMessage.cast) := by
    intro hover
    rw [hover.commit] at hd
    exact absurd hd (by simp)
  simp only [Opening.votes] at hd hover ⊢
  rw [XactState.verdict, if_neg hover, hd] at hinit
  rw [handle_local_decoded hdec (s := keeping id n early) hinit]
  rfl

/-- The coordinator gives up when the votes that it kept decide the ballot. -/
theorem handle_local_decided (id : XactId) {data : Bytes} {tx : Sender}
    (hP : RWSet.participantsIn data = some P)
    (hd : decision P ((Opening.coordinator data tx).votes n ++ early.map VoteMessage.cast) ≠
      .waiting) :
    ∃ f, handle (.localXact data tx) (keeping id n early) =
      .done (.error f, counting id n (.coordinator data tx) P
        ((Opening.coordinator data tx).votes n ++ early.map VoteMessage.cast)) := by
  obtain ⟨rwset, hdec, rfl⟩ := RWSet.participantsIn_eq_some.mp hP
  have hinit := XactType.initAsLocal_unknown id n rwset.participants data tx
    (early.map Vote.ofMessage)
  rw [map_cast] at hinit
  simp only [Opening.votes] at hd ⊢
  by_cases hover : Overrun rwset.participants [(n.toUsize, none)] (early.map VoteMessage.cast)
  · rw [XactState.verdict, if_pos hover] at hinit
    exact ⟨_, handle_local_decoded hdec (s := keeping id n early) hinit⟩
  · rw [XactState.verdict, if_neg hover] at hinit
    have hne : XactStatus.ofDecision (decision rwset.participants
        ([(n.toUsize, none)] ++ early.map VoteMessage.cast)) ≠ .waiting := by simpa using hd
    have hhandle := handle_local_decoded hdec (s := keeping id n early) hinit
    simp only [Except.map, if_neg hne] at hhandle
    exact ⟨_, hhandle⟩

theorem voteReason_ofDecision (d : Decision Nat RollbackReason) :
    voteReason (.ofDecision d) =
      .ok (match d with
        | .rollback _ reason => some reason.toProto
        | _ => none) := by
  cases d <;> rfl

/-- A surrogate executes the transaction, and then announces its ballot unless the votes that it
kept go on after the ballot is carried. -/
theorem handle_prepare_announced {msg : PrepareMessage}
    (hP : RWSet.participantsIn msg.data = some P) (hn : n.toUsize ∈ P)
    (hfrom : (⟨msg.from⟩ : NodeId) ≠ n) :
    handle (.prepare msg) (keeping id n early) =
      .await (counting id n (.surrogate msg (.ok ())) P [((⟨msg.from⟩ : NodeId).toUsize, none)])
        (.execute id msg.data) fun r =>
        let votes := (Opening.surrogate msg r).votes n ++ early.map VoteMessage.cast
        if Overrun P ((Opening.surrogate msg r).votes n) (early.map VoteMessage.cast) then
          .done (.error (Failure.context "failed to handle prepare msg"
            (.msg ("Condition failed: `self.status != XactStatus::Committing && " ++
              "self.status != XactStatus::Committed`"))),
            counting id n (.surrogate msg r) P votes)
        else
          .await (counting id n (.surrogate msg r) P votes)
            (.sendToAll (toAllBut n P ((Opening.surrogate msg r).request id n
              (decision P votes)))) fun a =>
            match a with
            | .ok () =>
              (finishXact.mapFailure (Failure.context "failed to handle prepare msg"))
                (counting id n (.surrogate msg r) P votes)
            | .error x =>
              .done (.error (Failure.context "failed to handle prepare msg" (.err x)),
                counting id n (.surrogate msg r) P votes) := by
  obtain ⟨rwset, hdec, rfl⟩ := RWSet.participantsIn_eq_some.mp hP
  have hinit := XactType.initAsSurrogate_unknown hfrom hn id (early.map Vote.ofMessage)
  rw [map_cast] at hinit
  rw [handle_prepare_decoded hdec (s := keeping id n early) hn]
  simp only [keeping, new, hinit, Prog.zoom_await, Prog.bind_await, Prog.zoom_done, Prog.bind_done]
  congr 1
  funext r
  by_cases hover : Overrun rwset.participants ((Opening.surrogate msg r).votes n)
      (early.map VoteMessage.cast)
  · rw [if_pos hover, XactState.verdict, if_pos hover]
    rfl
  · rw [if_neg hover, XactState.verdict, if_neg hover]
    simp only [announce, Except.map, Except.bind, voteReason_ofDecision]
    rfl

/-- A second `Prepare` of a participant panics. -/
theorem handle_prepare_reopened (o : Opening) (id : XactId) (P : BitSet)
    (vs : List (Nat × Option RollbackReason)) {msg : PrepareMessage} {P' : BitSet}
    (hP : RWSet.participantsIn msg.data = some P') (hn : n.toUsize ∈ P') :
    ∃ s', handle (.prepare msg) (counting id n o P vs) = .done (.error XactType.unreachable, s') ∧
      s'.xact.status = .uninitialized := by
  obtain ⟨rwset, hdec, rfl⟩ := RWSet.participantsIn_eq_some.mp hP
  have hinit : XactType.initAsSurrogate id n ⟨msg.from⟩ rwset.participants msg.data
      (o.xact id n P vs) =
      .done (.error XactType.unreachable, .surrogate
        (.new n ⟨msg.from⟩ rwset.participants ⟨id, msg.data⟩)) := XactType.initAs_xact _ _
  have hhandle := handle_prepare_decoded hdec (s := counting id n o P vs) hn
  simp only [counting, hinit, Prog.zoom_done, Prog.bind_done] at hhandle
  exact ⟨_, hhandle, rfl⟩

/-- A ballot that is opened for a second time ends the state manager. -/
theorem handle_reopened (o : Opening) (id : XactId) (n : NodeId) (P : BitSet)
    (vs : List (Nat × Option RollbackReason)) {m : XsMessage} (hm : m.opens = true) :
    ∃ r s', handle m (counting id n o P vs) = .done (r, s') ∧ r ≠ .ok false ∧
      (s'.xact.status = .uninitialized ∨
        s'.xact.status = (counting id n o P vs).xact.status) := by
  cases m with
  | localXact data tx =>
    cases hdec : RWSet.decode data with
    | error e => exact ⟨_, _, handle_local_undecoded hdec tx _, by simp, Or.inr rfl⟩
    | ok rwset =>
      have hinit : XactType.initAsLocal n n rwset.participants tx (o.xact id n P vs) =
          .done (.error XactType.unreachable, .localXact
            (.new n n rwset.participants (.new tx))) := XactType.initAs_xact _ _
      exact ⟨_, _, handle_local_decoded hdec (s := counting id n o P vs) hinit, by simp,
        Or.inl rfl⟩
  | prepare msg =>
    cases hdec : RWSet.decode msg.data with
    | error e => exact ⟨_, _, handle_prepare_undecoded hdec _, by simp, Or.inr rfl⟩
    | ok rwset =>
      by_cases hn : n.toUsize ∈ rwset.participants
      · have hP := RWSet.participantsIn_eq_some.mpr ⟨rwset, hdec, rfl⟩
        obtain ⟨s', hhandle, hs'⟩ := handle_prepare_reopened o id P vs hP hn
        exact ⟨_, _, hhandle, by simp, Or.inl hs'⟩
      · exact ⟨_, _, handle_prepare_absent hdec (s := counting id n o P vs) hn, by simp,
          Or.inr rfl⟩
  | vote msg => exact absurd hm (by simp [XsMessage.opens])

end XactStateManager

end Sunstorm
