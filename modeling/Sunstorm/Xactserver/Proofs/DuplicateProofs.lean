import Sunstorm.Xactserver.Proofs.ManagerProofs
import Sunstorm.Xactserver.Proofs.ReplayProofs

/-!
# Proofs: duplicated and stray messages

A surrogate gets its `Prepare`, the votes of the others, and further copies of these messages. As
long as the copies do it no harm, they do not change the outcome; the result of this file says
exactly when they do harm.
-/

namespace Sunstorm

open Await Tally

/-- The votes among the messages. -/
def votesOf (ms : List XsMessage) : List VoteMessage :=
  ms.filterMap fun
    | .vote v => some v
    | _ => none

@[simp] theorem votesOf_append (ms ms' : List XsMessage) :
    votesOf (ms ++ ms') = votesOf ms ++ votesOf ms' := List.filterMap_append

@[simp] theorem votesOf_vote (v : VoteMessage) (ms : List XsMessage) :
    votesOf (.vote v :: ms) = v :: votesOf ms := rfl

@[simp] theorem votesOf_prepare (msg : PrepareMessage) (ms : List XsMessage) :
    votesOf (.prepare msg :: ms) = votesOf ms := rfl

@[simp] theorem votesOf_map (votes : List VoteMessage) : votesOf (votes.map .vote) = votes := by
  induction votes with
  | nil => rfl
  | cons v votes ih => rw [List.map_cons, votesOf_vote, ih]

theorem mem_votesOf {ms : List XsMessage} {v : VoteMessage} : v ∈ votesOf ms ↔ .vote v ∈ ms := by
  unfold votesOf
  rw [List.mem_filterMap]
  constructor
  · rintro ⟨m, hm, h⟩
    cases m with
    | vote w => exact Option.some.inj h ▸ hm
    | localXact data tx => exact absurd h (by simp)
    | prepare msg => exact absurd h (by simp)
  · intro h
    exact ⟨_, h, rfl⟩

/-! ## Reasons that nodes send -/

/-- A reason that a node derives from a failed execution. -/
def RollbackReason.Genuine (reason : RollbackReason) : Prop := ∃ e, reason = .ofError e

/-- A genuine reason has a label: its code is text. -/
theorem RollbackReason.Genuine.label {reason : RollbackReason} (h : reason.Genuine) (p : NodeId) :
    ∃ label, getRollbackReasonLabel (.rollbacked ⟨p, reason⟩) = .ok (some label) := by
  obtain ⟨e, rfl⟩ := h
  unfold ofError
  cases e.cause with
  | msg text => exact ⟨_, rfl⟩
  | pg err =>
    unfold ofPgError
    simp only
    cases err.asDbError with
    | none => exact ⟨_, rfl⟩
    | some dbError =>
      simp only [getRollbackReasonLabel, fromUTF8?_toUTF8]
      split_ifs <;> exact ⟨_, rfl⟩

/-- All noes of a ballot have genuine reasons. -/
def GenuineBallot (vs : List (Nat × Option RollbackReason)) : Prop :=
  ∀ p reason, (p, some reason) ∈ vs → reason.Genuine

theorem XactStateManager.labelled_of_genuine {P : BitSet} {vs : List (Nat × Option RollbackReason)}
    (hg : GenuineBallot vs) (hd : decision P vs ≠ .waiting) :
    labelled (.finalOf (decision P vs)) = .ok true := by
  unfold labelled
  cases h : decision P vs with
  | waiting => exact absurd h hd
  | commit => rfl
  | rollback p reason =>
    obtain ⟨label, hlabel⟩ := (hg p reason (no_of_rollback h).2).label (NodeId.ofUsize p)
    rw [show XactStatus.finalOf (.rollback p reason) =
      .rollbacked ⟨NodeId.ofUsize p, reason⟩ from rfl, hlabel]
    rfl

/-! ## The loop of a surrogate -/

namespace XactStateManager

variable {o : Opening} {id : XactId} {n : NodeId} {P : BitSet} {r : Answer}
  {vs : List (Nat × Option RollbackReason)}

/-- The end of a handler, when all effects but the execution succeed. -/
theorem run_finishXact (o : Opening) (id : XactId) (n : NodeId) (P : BitSet) (r : Answer)
    (hg : GenuineBallot vs) (text : String) :
    ∃ s, ((finishXact.mapFailure (Failure.context text)) (counting id n o P vs)).run
        (answering r) = (.ok (decide (decision P vs ≠ .waiting)), s) ∧
      s.xact.status = .finalOf (decision P vs) ∧
      (decision P vs = .waiting → s = counting id n o P vs) := by
  unfold Async.mapFailure
  rw [Prog.run_bind]
  by_cases hd : decision P vs = .waiting
  · rw [finishXact_waiting hd]
    refine ⟨_, ?_, ?_, fun _ => rfl⟩
    · simp [hd, Except.mapError]
    · rw [counting_status, hd]
      rfl
  · obtain ⟨e, he⟩ : ∃ e, o.closing id (decision P vs) = some e := by
      rw [← Option.ne_none_iff_exists']
      exact fun h => hd (Opening.closing_eq_none.mp h)
    obtain ⟨s, s', f, -, hs', hfin⟩ := finishXact_decided (n := n) he
    rw [hfin, Prog.run_await, XactType.answering_closing he]
    refine ⟨s', ?_, hs', fun h => absurd h hd⟩
    simp [labelled_of_genuine hg hd, hd, Except.mapError]

/-- The `Prepare` comes again while the ballot is open. -/
def OpenedAgain (msg : PrepareMessage) (P : BitSet) (vs : List (Nat × Option RollbackReason))
    (ms : List XsMessage) : Prop :=
  ∃ ms₁ ms₂, ms = ms₁ ++ .prepare msg :: ms₂ ∧
    decision P (vs ++ (votesOf ms₁).map VoteMessage.cast) = .waiting

variable {msg : PrepareMessage}

theorem openedAgain_vote (v : VoteMessage) (ms : List XsMessage) :
    OpenedAgain msg P vs (.vote v :: ms) ↔ OpenedAgain msg P (vs ++ [v.cast]) ms := by
  constructor
  · rintro ⟨ms₁, ms₂, h, hd⟩
    cases ms₁ with
    | nil => exact absurd (List.cons.inj h).1 (by simp)
    | cons m ms₁ =>
      obtain ⟨rfl, rfl⟩ := List.cons.inj h
      refine ⟨ms₁, ms₂, rfl, ?_⟩
      rw [List.append_assoc]
      exact hd
  · rintro ⟨ms₁, ms₂, rfl, hd⟩
    refine ⟨.vote v :: ms₁, ms₂, rfl, ?_⟩
    rw [List.append_assoc] at hd
    exact hd

/-- A decided ballot is not opened again. -/
theorem not_openedAgain (hd : decision P vs ≠ .waiting) (ms : List XsMessage) :
    ¬ OpenedAgain msg P vs ms := by
  rintro ⟨ms₁, ms₂, -, h⟩
  rw [decision_stable hd] at h
  exact hd h

/-- What becomes of an open ballot: it fails when it is opened again, and otherwise all the votes
are counted. -/
theorem serve_counting (o : Opening) (id : XactId) (r : Answer)
    (hP : RWSet.participantsIn msg.data = some P) (hn : n.toUsize ∈ P)
    (ms : List XsMessage) (hms : ∀ m ∈ ms, m = .prepare msg ∨ ∃ v, m = .vote v)
    (hd : decision P vs = .waiting)
    (hg : GenuineBallot (vs ++ (votesOf ms).map VoteMessage.cast)) :
    (OpenedAgain msg P vs ms →
      (serve handle (answering r) (counting id n o P vs) ms).2 =
        some (.failed XactType.unreachable)) ∧
    (¬ OpenedAgain msg P vs ms →
      (∀ f, (serve handle (answering r) (counting id n o P vs) ms).2 ≠ some (.failed f)) ∧
      (serve handle (answering r) (counting id n o P vs) ms).1.xact.status =
        .finalOf (decision P (vs ++ (votesOf ms).map VoteMessage.cast))) := by
  induction ms generalizing vs with
  | nil =>
    refine ⟨?_, fun _ => ⟨by simp [serve], ?_⟩⟩
    · rintro ⟨ms₁, ms₂, h, -⟩
      exact absurd h (by simp)
    · rw [serve, counting_status, show votesOf [] = [] from rfl, List.map_nil, List.append_nil, hd]
      rfl
  | cons m ms ih =>
    rcases hms m (by simp) with rfl | ⟨v, rfl⟩
    · obtain ⟨s', hhandle, -⟩ := handle_prepare_reopened o id P vs hP hn
      have hagain : OpenedAgain msg P vs (.prepare msg :: ms) :=
        ⟨[], ms, rfl, by simpa [votesOf] using hd⟩
      refine ⟨fun _ => ?_, fun h => absurd hagain h⟩
      rw [serve, hhandle]
      rfl
    · have hballot : vs ++ (votesOf (.vote v :: ms)).map VoteMessage.cast =
          (vs ++ [v.cast]) ++ (votesOf ms).map VoteMessage.cast := by simp
      have hg' : GenuineBallot (vs ++ [v.cast]) := by
        intro p reason hmem
        refine hg p reason ?_
        rw [hballot]
        exact List.mem_append_left _ hmem
      obtain ⟨s, hrun, hstatus, hsame⟩ := run_finishXact o id n P r hg' "failed to handle vote msg"
      rw [openedAgain_vote, hballot, serve, handle_vote_counting (by rw [hd]; simp), hrun]
      by_cases hd' : decision P (vs ++ [v.cast]) = .waiting
      · obtain rfl := hsame hd'
        simp only [hd', ne_eq, not_true_eq_false, decide_false]
        exact ih (fun m hm => hms m (List.mem_cons_of_mem _ hm)) hd' (by rw [← hballot]; exact hg)
      · simp only [hd', ne_eq, not_false_eq_true, decide_true]
        refine ⟨fun h => absurd h (not_openedAgain hd' ms), fun _ => ⟨by simp, ?_⟩⟩
        rw [hstatus, decision_stable hd']

/-- Votes are kept until the ballot is opened. -/
theorem serve_keeping (votes early : List VoteMessage) (ms : List XsMessage) :
    serve handle (answering r) (keeping id n early) (votes.map .vote ++ ms) =
      serve handle (answering r) (keeping id n (early ++ votes)) ms := by
  induction votes generalizing early with
  | nil => simp
  | cons v votes ih =>
    rw [List.map_cons, List.cons_append, serve, handle_vote_keeping, Prog.run_done]
    simp only [ih, List.append_assoc, List.singleton_append]

/-- The two ways in which copies do harm: the votes that were kept go on after the ballot is
carried, or the `Prepare` comes again while the ballot is open. -/
def Harmed (n : NodeId) (msg : PrepareMessage) (r : Answer) (P : BitSet)
    (early : List VoteMessage) (rest : List XsMessage) : Prop :=
  Overrun P ((Opening.surrogate msg r).votes n) (early.map VoteMessage.cast) ∨
    OpenedAgain msg P ((Opening.surrogate msg r).votes n ++ early.map VoteMessage.cast) rest

/-- **The run of a surrogate**: it fails if it is harmed, and otherwise ends with the decision of
the ballot in which all votes are cast. -/
theorem serve_surrogate (hP : RWSet.participantsIn msg.data = some P) (hn : n.toUsize ∈ P)
    (hfrom : (⟨msg.from⟩ : NodeId) ≠ n) (early : List VoteMessage) (rest : List XsMessage)
    (hrest : ∀ m ∈ rest, m = .prepare msg ∨ ∃ v, m = .vote v)
    (hg : GenuineBallot ((Opening.surrogate msg r).votes n ++
      (early ++ votesOf rest).map VoteMessage.cast)) :
    (Harmed n msg r P early rest →
      ∃ f, (serve handle (answering r) (new id n) (early.map .vote ++ .prepare msg :: rest)).2 =
        some (.failed f)) ∧
    (¬ Harmed n msg r P early rest →
      (∀ f, (serve handle (answering r) (new id n) (early.map .vote ++ .prepare msg :: rest)).2 ≠
        some (.failed f)) ∧
      (serve handle (answering r) (new id n)
          (early.map .vote ++ .prepare msg :: rest)).1.xact.status =
        .finalOf (decision P ((Opening.surrogate msg r).votes n ++
          (early ++ votesOf rest).map VoteMessage.cast))) := by
  have hstart : (new id n) = keeping id n [] := rfl
  rw [hstart, serve_keeping, List.nil_append, serve, handle_prepare_announced hP hn hfrom,
    Prog.run_await, show answering r (.execute id msg.data) = r from rfl]
  unfold Harmed
  by_cases hover : Overrun P ((Opening.surrogate msg r).votes n) (early.map VoteMessage.cast)
  · simp only [if_pos hover]
    exact ⟨fun _ => ⟨_, rfl⟩, fun h => absurd (Or.inl hover) h⟩
  · simp only [if_neg hover]
    rw [Prog.run_await, show answering r (.sendToAll _) = .ok () from rfl]
    rw [List.map_append, ← List.append_assoc] at hg ⊢
    generalize hvs : (Opening.surrogate msg r).votes n ++ early.map VoteMessage.cast = vs at hg ⊢
    have hg' : GenuineBallot vs := fun p reason hmem => hg p reason (List.mem_append_left _ hmem)
    obtain ⟨s, hrun, hstatus, hsame⟩ :=
      run_finishXact (.surrogate msg r) id n P r hg' "failed to handle prepare msg"
    simp only [hrun, hover, false_or]
    by_cases hd : decision P vs = .waiting
    · obtain rfl := hsame hd
      obtain ⟨hagain, hdone⟩ := serve_counting (.surrogate msg r) id r hP hn rest hrest hd hg
      simp only [hd, ne_eq, not_true_eq_false, decide_false]
      exact ⟨fun h => ⟨_, hagain h⟩, hdone⟩
    · simp only [hd, ne_eq, not_false_eq_true, decide_true]
      refine ⟨fun h => absurd h (not_openedAgain hd rest), fun _ => ⟨by simp, ?_⟩⟩
      rw [hstatus, decision_stable hd]

end XactStateManager

/-! ## Copies of messages -/

/-- What a surrogate gets about a transaction: its `Prepare`, and one vote of each participant other
than the coordinator and itself. -/
structure Traffic (n : NodeId) (msg : PrepareMessage) (P : BitSet) (M : List XsMessage) : Prop where
  once : M.count (.prepare msg) = 1
  kinds : ∀ m ∈ M, m = .prepare msg ∨ ∃ v, m = .vote v
  senders : ((votesOf M).map VoteMessage.from).Nodup
  others : ∀ v ∈ votesOf M, (⟨v.from⟩ : NodeId).toUsize ∈ P ∧ v.from ≠ msg.from ∧ v.from ≠ n.val
  all : ∀ p : NodeId, p.toUsize ∈ P → p ≠ ⟨msg.from⟩ → p ≠ n → ∃ v ∈ votesOf M, ⟨v.from⟩ = p
  genuine : ∀ v ∈ votesOf M, ∀ reason, v.rollbackReason = some reason →
    (RollbackReason.ofProto reason).Genuine

/-- `M'` is `M` with copies of its messages inserted, and yes votes of nodes that do not take
part. -/
structure Inserted (P : BitSet) (M M' : List XsMessage) : Prop where
  sublist : M.Sublist M'
  copies : ∀ m ∈ M', m ∈ M ∨
    ∃ v, m = .vote v ∧ v.rollbackReason = none ∧ (⟨v.from⟩ : NodeId).toUsize ∉ P

/-- The copies do no harm: the state manager does not fail, and the outcome is the same. -/
def Harmless (id : XactId) (n : NodeId) (r : Answer) (M M' : List XsMessage) : Prop :=
  (∀ f, (serve XactStateManager.handle (answering r) (.new id n) M').2 ≠ some (.failed f)) ∧
    (serve XactStateManager.handle (answering r) (.new id n) M').1.xact.status.outcome =
      (serve XactStateManager.handle (answering r) (.new id n) M).1.xact.status.outcome

/-- All votes of participants are yes, and only the coordinator and the node itself are missing. -/
def AllYes (n coordinator : NodeId) (P : BitSet) (votes : List VoteMessage) : Prop :=
  (∀ v ∈ votes, (⟨v.from⟩ : NodeId).toUsize ∈ P → v.rollbackReason = none) ∧
    ∀ p : NodeId, p.toUsize ∈ P → p ≠ coordinator → p ≠ n → ∃ v ∈ votes, ⟨v.from⟩ = p

/-- A participant has voted no. -/
def SomeNo (P : BitSet) (votes : List VoteMessage) : Prop :=
  ∃ v ∈ votes, (⟨v.from⟩ : NodeId).toUsize ∈ P ∧ v.rollbackReason ≠ none

section

variable {id : XactId} {n : NodeId} {msg : PrepareMessage} {r : Answer} {P : BitSet}
  {M M' : List XsMessage}

theorem Traffic.toOthers (h : Traffic n msg P M) :
    Others P ⟨msg.from⟩ n ((votesOf M).map Vote.ofMessage) where
  nodup := by
    have hmap : ((votesOf M).map Vote.ofMessage).map Vote.from =
        ((votesOf M).map VoteMessage.from).map NodeId.mk := by
      rw [List.map_map, List.map_map]
      rfl
    rw [hmap]
    exact h.senders.map fun a b hab => NodeId.mk.inj hab
  mem := by
    intro v hv
    obtain ⟨w, hw, rfl⟩ := List.mem_map.mp hv
    obtain ⟨hmem, hc, hn⟩ := h.others w hw
    exact ⟨hmem, fun heq => hc (NodeId.mk.inj heq), fun heq => hn (congrArg NodeId.val heq)⟩

/-- Among votes that are copies of `M` or strays, nobody votes both ways. -/
theorem Traffic.consistent (h : Traffic n msg P M) (hfrom : (⟨msg.from⟩ : NodeId) ≠ n)
    {votes : List VoteMessage}
    (hvotes : ∀ v ∈ votes, (⟨v.from⟩ : NodeId).toUsize ∈ P → v ∈ votesOf M) :
    Consistent P ((Opening.surrogate msg r).votes n ++ votes.map VoteMessage.cast) := by
  have hnodup := h.toOthers.nodup_cast hfrom.symm (RollbackReason.ofAnswer r)
  rw [map_cast] at hnodup
  refine (consistent_of_nodup hnodup).mono fun p hp o hmem => ?_
  rcases List.mem_append.mp hmem with hmem | hmem
  · exact List.mem_append_left ((votesOf M).map VoteMessage.cast) hmem
  · obtain ⟨v, hv, heq⟩ := List.mem_map.mp hmem
    have hfrom' : (⟨v.from⟩ : NodeId).toUsize = p := congrArg Prod.fst heq
    exact List.mem_append_right ((Opening.surrogate msg r).votes n)
      (List.mem_map.mpr ⟨v, hvotes v hv (by rw [hfrom']; exact hp), heq⟩)

theorem cast_eq_yes {v : VoteMessage} {p : Nat} :
    v.cast = (p, none) ↔ (⟨v.from⟩ : NodeId).toUsize = p ∧ v.rollbackReason = none := by
  unfold VoteMessage.cast Vote.cast Vote.ofMessage
  simp

/-- The ballot is carried when the execution succeeded and all others voted yes. -/
theorem decision_commit_iff (hP : RWSet.participantsIn msg.data = some P) (hn : n.toUsize ∈ P)
    (hfrom : (⟨msg.from⟩ : NodeId) ≠ n) (h : Traffic n msg P M) {votes : List VoteMessage}
    (hvotes : ∀ v ∈ votes, (⟨v.from⟩ : NodeId).toUsize ∈ P → v ∈ votesOf M) :
    decision P ((Opening.surrogate msg r).votes n ++ votes.map VoteMessage.cast) = .commit ↔
      r = .ok () ∧ AllYes n ⟨msg.from⟩ P votes := by
  have hcons := h.consistent (r := r) hfrom hvotes
  rw [(decision_of_consistent hcons).2]
  constructor
  · rintro ⟨-, hall⟩
    have hsender : ∀ p : NodeId, p.toUsize ∈ P → p ≠ ⟨msg.from⟩ →
        (p = n ∧ RollbackReason.ofAnswer r = none) ∨
          ∃ v ∈ votes, (⟨v.from⟩ : NodeId) = p ∧ v.rollbackReason = none := by
      intro p hp hc
      rcases List.mem_append.mp (hall _ hp) with hmem | hmem
      · simp only [Opening.votes, List.mem_cons, Prod.mk.injEq, NodeId.toUsize_inj, and_true,
          List.not_mem_nil, or_false] at hmem
        rcases hmem with heq | ⟨heq, hr⟩
        · exact absurd heq hc
        · exact Or.inl ⟨heq, hr.symm⟩
      · obtain ⟨v, hv, heq⟩ := List.mem_map.mp hmem
        obtain ⟨hp', hr⟩ := cast_eq_yes.mp heq
        exact Or.inr ⟨v, hv, NodeId.toUsize_inj.mp hp', hr⟩
    refine ⟨?_, ?_, ?_⟩
    · rcases hsender n hn hfrom.symm with ⟨-, hr⟩ | ⟨v, hv, hvn, -⟩
      · cases r with
        | ok u => rfl
        | error e => exact absurd hr (by simp [RollbackReason.ofAnswer])
      · have hother := (h.others v (hvotes v hv (by rw [hvn]; exact hn))).2.2
        exact absurd (congrArg NodeId.val hvn) hother
    · intro v hv hp
      by_contra hno
      obtain ⟨reason, hr⟩ := Option.ne_none_iff_exists'.mp hno
      refine hcons _ hp (hall _ hp) (.ofProto reason) (List.mem_append_right _ ?_)
      refine List.mem_map.mpr ⟨v, hv, ?_⟩
      simp [VoteMessage.cast, Vote.cast, Vote.ofMessage, hr]
    · intro p hp hc hpn
      rcases hsender p hp hc with ⟨heq, -⟩ | ⟨v, hv, heq, -⟩
      · exact absurd heq hpn
      · exact ⟨v, hv, heq⟩
  · rintro ⟨rfl, hyes, hall⟩
    refine ⟨⟨_, hn⟩, fun p hp => ?_⟩
    have hpn := toUsize_ofUsize (participantsIn_lt hP hp)
    rw [← hpn] at hp ⊢
    by_cases hc : NodeId.ofUsize p = ⟨msg.from⟩
    · rw [hc]
      exact List.mem_append_left _ List.mem_cons_self
    · by_cases hself : NodeId.ofUsize p = n
      · rw [hself]
        exact List.mem_append_left _ (by simp [Opening.votes, RollbackReason.ofAnswer])
      · obtain ⟨v, hv, heq⟩ := hall _ hp hc hself
        refine List.mem_append_right _ (List.mem_map.mpr ⟨v, hv, cast_eq_yes.mpr ?_⟩)
        rw [heq]
        exact ⟨rfl, hyes v hv (by rw [heq]; exact hp)⟩

/-- The ballot is lost when the execution failed or a participant voted no. -/
theorem decision_rollback_iff (hn : n.toUsize ∈ P) (hfrom : (⟨msg.from⟩ : NodeId) ≠ n)
    (h : Traffic n msg P M) {votes : List VoteMessage}
    (hvotes : ∀ v ∈ votes, (⟨v.from⟩ : NodeId).toUsize ∈ P → v ∈ votesOf M) :
    (∃ p reason, decision P ((Opening.surrogate msg r).votes n ++ votes.map VoteMessage.cast) =
        .rollback p reason) ↔ r ≠ .ok () ∨ SomeNo P votes := by
  rw [(decision_of_consistent (h.consistent (r := r) hfrom hvotes)).1]
  constructor
  · rintro ⟨p, hp, reason, hmem⟩
    rcases List.mem_append.mp hmem with hmem | hmem
    · left
      rintro rfl
      exact absurd hmem (by simp [Opening.votes, RollbackReason.ofAnswer])
    · obtain ⟨v, hv, heq⟩ := List.mem_map.mp hmem
      obtain ⟨hp', hr⟩ := Prod.mk.inj heq
      refine Or.inr ⟨v, hv, ?_, fun hno => ?_⟩
      · rw [show (⟨v.from⟩ : NodeId).toUsize = p from hp']
        exact hp
      · simp [Vote.ofMessage, hno] at hr
  · rintro (hr | ⟨v, hv, hp, hno⟩)
    · cases r with
      | ok u => exact absurd rfl hr
      | error e =>
        exact ⟨_, hn, .ofError e, by simp [Opening.votes, RollbackReason.ofAnswer]⟩
    · obtain ⟨reason, hr⟩ := Option.ne_none_iff_exists'.mp hno
      refine ⟨_, hp, .ofProto reason, List.mem_append_right _ (List.mem_map.mpr ⟨v, hv, ?_⟩)⟩
      simp [VoteMessage.cast, Vote.cast, Vote.ofMessage, hr]

theorem decision_decided_iff (hP : RWSet.participantsIn msg.data = some P) (hn : n.toUsize ∈ P)
    (hfrom : (⟨msg.from⟩ : NodeId) ≠ n) (h : Traffic n msg P M) {votes : List VoteMessage}
    (hvotes : ∀ v ∈ votes, (⟨v.from⟩ : NodeId).toUsize ∈ P → v ∈ votesOf M) :
    decision P ((Opening.surrogate msg r).votes n ++ votes.map VoteMessage.cast) ≠ .waiting ↔
      r ≠ .ok () ∨ SomeNo P votes ∨ AllYes n ⟨msg.from⟩ P votes := by
  have hcommit := decision_commit_iff (r := r) hP hn hfrom h hvotes
  have hrollback := decision_rollback_iff (r := r) hn hfrom h hvotes
  constructor
  · intro hd
    cases hdec : decision P
        ((Opening.surrogate msg r).votes n ++ votes.map VoteMessage.cast) with
    | waiting => exact absurd hdec hd
    | commit => exact Or.inr (Or.inr (hcommit.mp hdec).2)
    | rollback p reason =>
      rcases hrollback.mp ⟨p, reason, hdec⟩ with hr | hno
      · exact Or.inl hr
      · exact Or.inr (Or.inl hno)
  · intro hdecided hwait
    have hlost : ¬ (r ≠ .ok () ∨ SomeNo P votes) := by
      intro hno
      obtain ⟨p, reason, hdec⟩ := hrollback.mpr hno
      rw [hwait] at hdec
      exact absurd hdec (by simp)
    rcases hdecided with hr | hno | hyes
    · exact hlost (Or.inl hr)
    · exact hlost (Or.inr hno)
    · by_cases hr : r = .ok ()
      · have hdec := hcommit.mpr ⟨hr, hyes⟩
        rw [hwait] at hdec
        exact absurd hdec (by simp)
      · exact hlost (Or.inl hr)

/-- Copies add no vote of a participant. -/
theorem Inserted.votes (hM : Inserted P M M') {v : VoteMessage} (hv : v ∈ votesOf M')
    (hp : (⟨v.from⟩ : NodeId).toUsize ∈ P) : v ∈ votesOf M := by
  rcases hM.copies _ (mem_votesOf.mp hv) with hmem | ⟨w, heq, -, hw⟩
  · exact mem_votesOf.mpr hmem
  · obtain rfl := XsMessage.vote.inj heq
    exact absurd hp hw

/-- Messages of the two kinds, with a `Prepare` among them, start with the votes that are kept. -/
theorem exists_first_prepare {ms : List XsMessage}
    (hms : ∀ m ∈ ms, m = .prepare msg ∨ ∃ v, m = .vote v) (hmem : .prepare msg ∈ ms) :
    ∃ (early : List VoteMessage) (rest : List XsMessage),
      ms = early.map XsMessage.vote ++ .prepare msg :: rest := by
  induction ms with
  | nil => exact absurd hmem List.not_mem_nil
  | cons m ms ih =>
    rcases hms m (by simp) with rfl | ⟨v, rfl⟩
    · exact ⟨[], ms, rfl⟩
    · have hmem' : .prepare msg ∈ ms := by simpa using hmem
      obtain ⟨early, rest, rfl⟩ := ih (fun m hm => hms m (List.mem_cons_of_mem _ hm)) hmem'
      exact ⟨v :: early, rest, rfl⟩

/-- Without copies there is no harm. -/
theorem Traffic.not_harmed (h : Traffic n msg P M) (hfrom : (⟨msg.from⟩ : NodeId) ≠ n)
    {early : List VoteMessage} {rest : List XsMessage}
    (hM : M = early.map XsMessage.vote ++ .prepare msg :: rest) :
    ¬ XactStateManager.Harmed n msg r P early rest := by
  have hothers := h.toOthers
  rw [hM] at hothers
  simp only [votesOf_append, votesOf_map, votesOf_prepare, List.map_append] at hothers
  have hover := hothers.append_left.not_overrun hfrom.symm (RollbackReason.ofAnswer r)
  rw [map_cast] at hover
  rintro (habs | ⟨ms, ms', rfl, -⟩)
  · exact hover habs
  · have honce := h.once
    rw [hM] at honce
    simp [List.count_append] at honce
    omega

/-- What the run comes to in the two cases, for copies of `M`. -/
theorem Inserted.serve (id : XactId) (r : Answer)
    (hP : RWSet.participantsIn msg.data = some P) (hn : n.toUsize ∈ P)
    (hfrom : (⟨msg.from⟩ : NodeId) ≠ n) (h : Traffic n msg P M) (hM : Inserted P M M')
    {early : List VoteMessage} {rest : List XsMessage}
    (hM' : M' = early.map XsMessage.vote ++ .prepare msg :: rest) :
    (XactStateManager.Harmed n msg r P early rest →
      ∃ f, (Await.serve XactStateManager.handle (answering r) (.new id n) M').2 =
        some (.failed f)) ∧
    (¬ XactStateManager.Harmed n msg r P early rest →
      (∀ f, (Await.serve XactStateManager.handle (answering r) (.new id n) M').2 ≠
        some (.failed f)) ∧
      (Await.serve XactStateManager.handle (answering r) (.new id n) M').1.xact.status =
        .finalOf (decision P ((Opening.surrogate msg r).votes n ++
          (votesOf M').map VoteMessage.cast))) := by
  have hvotes : votesOf M' = early ++ votesOf rest := by rw [hM']; simp
  have hrest : ∀ m ∈ rest, m = .prepare msg ∨ ∃ v, m = .vote v := by
    intro m hm
    rcases hM.copies m (by rw [hM']; simp [hm]) with hmem | ⟨v, rfl, -⟩
    · exact h.kinds m hmem
    · exact Or.inr ⟨v, rfl⟩
  have hg : GenuineBallot ((Opening.surrogate msg r).votes n ++
      (early ++ votesOf rest).map VoteMessage.cast) := by
    intro p reason hmem
    rcases List.mem_append.mp hmem with hmem | hmem
    · cases r with
      | ok u => exact absurd hmem (by simp [Opening.votes, RollbackReason.ofAnswer])
      | error e =>
        refine ⟨e, ?_⟩
        simp [Opening.votes, RollbackReason.ofAnswer] at hmem
        exact hmem.2
    · obtain ⟨v, hv, heq⟩ := List.mem_map.mp hmem
      obtain ⟨-, hr⟩ := Prod.mk.inj heq
      rw [← hvotes] at hv
      rcases hM.copies _ (mem_votesOf.mp hv) with hmem' | ⟨w, heq', hyes, -⟩
      · obtain ⟨pr, hpr, rfl⟩ := Option.map_eq_some_iff.mp hr
        exact h.genuine v (mem_votesOf.mpr hmem') pr hpr
      · obtain rfl := XsMessage.vote.inj heq'
        simp [Vote.ofMessage, hyes] at hr
  rw [hvotes, hM']
  exact XactStateManager.serve_surrogate hP hn hfrom early rest hrest hg

/-- **When copies are harmless.** They are, exactly when the votes before the `Prepare` do not go on
after a ballot that is carried, and the `Prepare` does not come again before the ballot is
decided. -/
theorem duplicates_harmless_iff (id : XactId) (n : NodeId) (msg : PrepareMessage) (r : Answer)
    (P : BitSet) (hP : RWSet.participantsIn msg.data = some P) (hn : n.toUsize ∈ P)
    (hfrom : (⟨msg.from⟩ : NodeId) ≠ n) (M M' : List XsMessage) (h : Traffic n msg P M)
    (hM : Inserted P M M') (early : List VoteMessage) (rest : List XsMessage)
    (hM' : M' = early.map XsMessage.vote ++ .prepare msg :: rest) :
    Harmless id n r M M' ↔
      (∀ votes v votes', early = votes ++ v :: votes' →
        ¬ (r = .ok () ∧ AllYes n ⟨msg.from⟩ P votes)) ∧
      ∀ ms ms', rest = ms ++ .prepare msg :: ms' →
        r ≠ .ok () ∨ SomeNo P (early ++ votesOf ms) ∨
          AllYes n ⟨msg.from⟩ P (early ++ votesOf ms) := by
  obtain ⟨hfail, hdone⟩ := hM.serve id r hP hn hfrom h hM'
  have hvotes' : votesOf M' = early ++ votesOf rest := by rw [hM']; simp
  have hearly : ∀ v ∈ early, (⟨v.from⟩ : NodeId).toUsize ∈ P → v ∈ votesOf M := by
    intro v hv hp
    exact hM.votes (by rw [hvotes']; exact List.mem_append_left _ hv) hp
  -- the run of `M` itself
  have hmemM : .prepare msg ∈ M := by
    rw [← List.one_le_count_iff, h.once]
  obtain ⟨early₀, rest₀, hM₀⟩ := exists_first_prepare h.kinds hmemM
  have hself : Inserted P M M := ⟨List.Sublist.refl _, fun m hm => Or.inl hm⟩
  obtain ⟨-, hbase⟩ := (hself.serve id r hP hn hfrom h hM₀).2
    (h.not_harmed hfrom hM₀)
  have houtcome : (XactStatus.finalOf (decision P ((Opening.surrogate msg r).votes n ++
        (votesOf M').map VoteMessage.cast))).outcome =
      (XactStatus.finalOf (decision P ((Opening.surrogate msg r).votes n ++
        (votesOf M).map VoteMessage.cast))).outcome := by
    obtain ⟨hc, hr⟩ := decision_congr (h.consistent (r := r) hfrom fun v hv _ => hv)
      ((Opening.surrogate msg r).votes n ++ (votesOf M').map VoteMessage.cast) (by
        intro p hp o
        rw [List.mem_append, List.mem_append]
        refine or_congr_right ?_
        rw [List.mem_map, List.mem_map]
        constructor
        · rintro ⟨v, hv, heq⟩
          have hvp : (⟨v.from⟩ : NodeId).toUsize = p := congrArg Prod.fst heq
          exact ⟨v, hM.votes hv (by rw [hvp]; exact hp), heq⟩
        · rintro ⟨v, hv, heq⟩
          exact ⟨v, mem_votesOf.mpr (hM.sublist.subset (mem_votesOf.mp hv)), heq⟩)
    exact outcome_congr hc hr
  have hharmless : Harmless id n r M M' ↔ ¬ XactStateManager.Harmed n msg r P early rest := by
    constructor
    · rintro ⟨hok, -⟩ hharmed
      obtain ⟨f, hf⟩ := hfail hharmed
      exact hok f hf
    · intro hnot
      obtain ⟨hok, hstatus⟩ := hdone hnot
      refine ⟨hok, ?_⟩
      rw [hstatus, hbase, houtcome]
  rw [hharmless]
  unfold XactStateManager.Harmed
  rw [not_or]
  refine and_congr ?_ ?_
  · constructor
    · rintro hover votes v votes' rfl hyes
      refine hover ⟨votes.length, by simp, ?_⟩
      have htake : ((votes ++ v :: votes').map VoteMessage.cast).take votes.length =
          votes.map VoteMessage.cast := by simp
      rw [htake]
      exact (decision_commit_iff hP hn hfrom h fun w hw hp =>
        hearly w (List.mem_append_left _ hw) hp).mpr hyes
    · rintro hno ⟨j, hj, hd⟩
      rw [List.length_map] at hj
      have hsplit : early = early.take j ++ early[j] :: early.drop (j + 1) := by
        rw [List.getElem_cons_drop, List.take_append_drop]
      rw [← List.map_take] at hd
      exact hno _ _ _ hsplit ((decision_commit_iff hP hn hfrom h fun w hw hp =>
        hearly w (List.mem_of_mem_take hw) hp).mp hd)
  · have hms : ∀ ms ms', rest = ms ++ .prepare msg :: ms' →
        ∀ v ∈ early ++ votesOf ms, (⟨v.from⟩ : NodeId).toUsize ∈ P → v ∈ votesOf M := by
      rintro ms ms' rfl v hv hp
      refine hM.votes ?_ hp
      rw [hvotes', votesOf_append, ← List.append_assoc]
      exact List.mem_append_left _ hv
    constructor
    · intro hnot ms ms' hrest
      rw [← decision_decided_iff (r := r) hP hn hfrom h (hms ms ms' hrest)]
      intro hwait
      refine hnot ⟨ms, ms', hrest, ?_⟩
      rw [List.map_append, ← List.append_assoc] at hwait
      exact hwait
    · rintro hall ⟨ms, ms', hrest, hwait⟩
      have hdec := hall ms ms' hrest
      rw [← decision_decided_iff (r := r) hP hn hfrom h (hms ms ms' hrest)] at hdec
      rw [List.append_assoc, ← List.map_append] at hwait
      exact hdec hwait

end

/-- The `Prepare` of node 0 for a transaction of the nodes 0, 1 and 2. -/
def threeNodePrepare : PrepareMessage :=
  { «from» := 0
    xactId := (XactId.new 1 ⟨0⟩).val
    data := [0, 0, 0, 1, 0, 0, 0, 0, 0, 0, 0, 7, 0, 0, 0, 0, 0, 0, 0, 0] }

/-- The yes of node 2 in that transaction. -/
def threeNodeVote : VoteMessage :=
  { «from» := 2, xactId := (XactId.new 1 ⟨0⟩).val, rollbackReason := none }

theorem traffic_three :
    Traffic ⟨1⟩ threeNodePrepare {0, 1, 2} [.prepare threeNodePrepare, .vote threeNodeVote] where
  once := by decide
  kinds := by simp
  senders := by decide
  others := by decide
  all := by
    intro p hp hc hn
    refine ⟨threeNodeVote, by decide, ?_⟩
    have hcases : p.toUsize = (⟨0⟩ : NodeId).toUsize ∨ p.toUsize = (⟨1⟩ : NodeId).toUsize ∨
        p.toUsize = (⟨2⟩ : NodeId).toUsize := by
      rw [Finset.mem_insert, Finset.mem_insert, Finset.mem_singleton] at hp
      exact hp
    simp only [NodeId.toUsize_inj] at hcases
    rcases hcases with rfl | rfl | rfl
    · exact absurd rfl hc
    · exact absurd rfl hn
    · rfl
  genuine := by
    intro v hv reason hr
    obtain rfl := List.mem_singleton.mp (show v ∈ [threeNodeVote] from hv)
    exact absurd hr (by simp [threeNodeVote])

/-- A `Prepare` that comes twice before the vote of node 2 makes node 1 panic. -/
theorem duplicate_prepare_panics :
    ¬ ∀ (id : XactId) (n : NodeId) (msg : PrepareMessage) (r : Answer) (P : BitSet),
      RWSet.participantsIn msg.data = some P → n.toUsize ∈ P → (⟨msg.from⟩ : NodeId) ≠ n →
      ∀ M M', Traffic n msg P M → Inserted P M M' → Harmless id n r M M' := by
  intro h
  have hharmless := h (XactId.new 1 ⟨0⟩) ⟨1⟩ threeNodePrepare (.ok ()) {0, 1, 2} (by decide)
    (by decide) (by decide) _
    [.prepare threeNodePrepare, .prepare threeNodePrepare, .vote threeNodeVote] traffic_three
    ⟨by decide, by simp⟩
  exact hharmless.1 XactType.unreachable (by decide)

/-- A `Prepare` that comes again once the ballot is decided does no harm. -/
theorem duplicates_harmless_iff_late :
    Harmless (XactId.new 1 ⟨0⟩) ⟨1⟩ (.ok ()) [.prepare threeNodePrepare, .vote threeNodeVote]
        [.prepare threeNodePrepare, .vote threeNodeVote, .prepare threeNodePrepare] ↔
      (∀ votes v votes', [] = votes ++ v :: votes' →
        ¬ ((.ok () : Answer) = .ok () ∧ AllYes ⟨1⟩ ⟨0⟩ {0, 1, 2} votes)) ∧
      ∀ ms ms', [.vote threeNodeVote, .prepare threeNodePrepare] =
          ms ++ .prepare threeNodePrepare :: ms' →
        (.ok () : Answer) ≠ .ok () ∨ SomeNo {0, 1, 2} ([] ++ votesOf ms) ∨
          AllYes ⟨1⟩ ⟨0⟩ {0, 1, 2} ([] ++ votesOf ms) :=
  duplicates_harmless_iff (XactId.new 1 ⟨0⟩) ⟨1⟩ threeNodePrepare (.ok ()) {0, 1, 2} (by decide)
    (by decide) (by decide) _ _ traffic_three ⟨by decide, by simp⟩ [] _ rfl

end Sunstorm
