import Sunstorm.Xactserver.Proofs.EquivocationProofs

/-!
# Proofs: the ballot behind a status

A state manager whose status is neither `Uninitialized` nor `Waiting` has opened a ballot, and so
has one that has broadcast anything. `Standing` names the ballot and says what the log and the
status have to do with it.
-/

namespace Sunstorm

open Await Tally

variable {id : XactId} {n : NodeId} {pt : Point} {status : XactStatus} {log : XactLog}

/-- The ballot behind the status and the log of a state manager: `o` opened it among `P`, the votes
`early` came before `o`, and the votes `late` after it. -/
structure Standing (id : XactId) (n : NodeId) (status : XactStatus) (log : XactLog) (o : Opening)
    (P : BitSet) (early late : List VoteMessage) : Prop where
  decoded : RWSet.participantsIn o.data = some P
  opened : taken early ++ [.recv o.message] ++ o.executed id <+: log
  counted : ∀ v ∈ early ++ late, .recv (.vote v) ∈ log
  member : ∀ msg r, o = .surrogate msg r → n ≠ ⟨msg.from⟩ ∧ n.toUsize ∈ P
  results : ∀ x data r, .ret (.execute x data) r ∈ log → .ret (.execute x data) r ∈ o.executed id
  broadcast : ∀ messages, .call (.sendToAll messages) ∈ log →
    messages = XactStateManager.toAllBut n P
      (o.request id n (decision P (o.votes n ++ early.map VoteMessage.cast)))
  acts : ∀ e ∈ calls log, e.isCommit = true ∨ e.isRollback = true →
    o.closing id (decision P (o.votes n ++ (early ++ late).map VoteMessage.cast)) = some e
  shown :
    status = .ofDecision (decision P (o.votes n ++ (early ++ late).map VoteMessage.cast)) ∨
    status = .finalOf (decision P (o.votes n ++ (early ++ late).map VoteMessage.cast)) ∨
    status = .uninitialized

namespace Opening

/-- The only effect between the opening and the announcement is an execution. -/
theorem calls_executed {o : Opening} {e : Effect} (h : e ∈ calls (o.executed id)) :
    ∃ data, e = .execute id data := by
  cases o with
  | coordinator data tx => exact absurd h List.not_mem_nil
  | surrogate msg r =>
    refine ⟨msg.data, ?_⟩
    simpa [executed] using h

theorem results_executed {o : Opening} {x : XactId} {data : Bytes} {r : Answer}
    (h : .ret (.execute x data) r ∈ o.executed id) :
    ∃ msg, o = .surrogate msg r ∧ x = id ∧ data = msg.data := by
  cases o with
  | coordinator data tx => exact absurd h List.not_mem_nil
  | surrogate msg r' =>
    have h' : (x = id ∧ data = msg.data) ∧ r = r' := by simpa [executed] using h
    obtain ⟨⟨hx, hdata⟩, rfl⟩ := h'
    exact ⟨msg, rfl, hx, hdata⟩

end Opening

theorem Session.Seen.standing {S : Session n} {late : List VoteMessage} {closing : List Effect}
    (h : S.Seen id status log late closing) :
    Standing id n status log S.opening S.participants S.early late where
  decoded := S.decoded
  opened := (List.prefix_append _ _).trans h.begins
  counted := h.counted
  member := fun msg r ho => S.surrogate_member ho
  results := h.results
  broadcast := by
    intro messages hm
    have hmem := mem_calls.mpr hm
    rw [h.effects, List.mem_append, List.mem_append] at hmem
    rcases hmem with (hmem | hmem) | hmem
    · obtain ⟨data, heq⟩ := Opening.calls_executed hmem
      exact absurd heq (by simp)
    · have heq := Effect.sendToAll.inj (List.mem_singleton.mp hmem)
      rw [heq, request, decision, ballot, List.append_nil]
    · rcases h.ends with rfl | ⟨e, he, rfl⟩
      · exact absurd hmem List.not_mem_nil
      · rw [← List.mem_singleton.mp hmem] at he
        rcases Opening.closing_cases he with ⟨-, hc, -⟩ | ⟨-, -, hr⟩
        · exact absurd hc (by simp [Effect.isCommit])
        · exact absurd hr (by simp [Effect.isRollback])
  acts := fun e he hact => h.act he hact
  shown := h.shown

/-- **The ballot behind a status.** Without one, no effect but an execution was asked for and none
was answered, and nothing was decided. -/
theorem Stage.standing (h : Stage id n pt status log) :
    ((∀ messages, .call (.sendToAll messages) ∉ log) ∧
      (∀ e ∈ calls log, e.isCommit = false ∧ e.isRollback = false) ∧
      (∀ e r, .ret e r ∉ log) ∧ (status = .uninitialized ∨ status = .waiting)) ∨
    ∃ o P early late, Standing id n status log o P early late := by
  rcases h.announced_or with h | ⟨S, late, closing, h⟩
  · have hquiet : ∀ messages, .call (.sendToAll messages) ∉ log := by
      intro messages hm
      obtain ⟨data, heq⟩ := h.effects _ (mem_calls.mpr hm)
      exact absurd heq (by simp)
    have hacts : ∀ e ∈ calls log, e.isCommit = false ∧ e.isRollback = false := by
      intro e he
      obtain ⟨data, rfl⟩ := h.effects e he
      exact ⟨rfl, rfl⟩
    rcases h.shown with hs | ⟨o, P, early, hP, hlog, hmember, hs⟩
    · exact Or.inl ⟨hquiet, hacts, hs⟩
    · refine Or.inr ⟨o, P, early, [], hP, ?_, ?_, hmember, ?_, ?_, ?_, Or.inl ?_⟩
      · rw [hlog]
      · intro v hv
        rw [hlog]
        simp only [List.append_nil] at hv
        exact List.mem_append_left _ (List.mem_append_left _ (recv_mem_taken.mpr ⟨v, hv, rfl⟩))
      · intro x data r hr
        rw [hlog] at hr
        simpa using hr
      · exact fun messages hm => absurd hm (hquiet messages)
      · intro e he hact
        obtain ⟨hc, hr⟩ := hacts e he
        rcases hact with hact | hact
        · exact absurd (hc.symm.trans hact) (by simp)
        · exact absurd (hr.symm.trans hact) (by simp)
      · rw [List.append_nil]
        exact hs
  · exact Or.inr ⟨S.opening, S.participants, S.early, late, h.standing⟩

namespace Standing

variable {o : Opening} {P : BitSet} {early late : List VoteMessage}

theorem participants_lt (h : Standing id n status log o P early late) {i : Nat} (hi : i ∈ P) :
    i < 64 := participantsIn_lt h.decoded hi

/-- A request that was broadcast announces the ballot to another participant. -/
theorem announces (h : Standing id n status log o P early late)
    {messages : List (NodeId × PeerMessage)} (hm : .call (.sendToAll messages) ∈ log)
    {dst : NodeId} {msg : PeerMessage} (hmem : (dst, msg) ∈ messages) :
    msg = o.request id n (decision P (o.votes n ++ early.map VoteMessage.cast)) ∧ dst ≠ n ∧
      dst.toUsize ∈ P := by
  rw [h.broadcast messages hm] at hmem
  exact (XactStateManager.mem_toAllBut fun i hi => h.participants_lt hi).mp hmem

theorem message_mem (h : Standing id n status log o P early late) : .recv o.message ∈ log :=
  h.opened.subset (by simp)

theorem executed_mem (h : Standing id n status log o P early late) :
    ∀ ev ∈ o.executed id, ev ∈ log := fun ev hev => h.opened.subset (by simp [hev])

/-- A vote that is counted was cast by the opening or came in a message. -/
theorem mem_ballot {v : Nat × Option RollbackReason} {votes : List VoteMessage}
    (hv : v ∈ o.votes n ++ votes.map VoteMessage.cast) :
    v ∈ o.votes n ∨ ∃ w ∈ votes, w.cast = v := by
  rcases List.mem_append.mp hv with hv | hv
  · exact Or.inl hv
  · exact Or.inr (List.mem_map.mp hv)

/-- A no that the opening casts is that of a failed execution of the node itself. -/
theorem own_no {i : Nat} {reason : RollbackReason} (h : (i, some reason) ∈ o.votes n) :
    i = n.toUsize ∧ ∃ msg e, o = .surrogate msg (.error e) ∧ reason = .ofError e := by
  cases o with
  | coordinator data tx => exact absurd h (by simp [Opening.votes])
  | surrogate msg r =>
    have h' : i = n.toUsize ∧ some reason = RollbackReason.ofAnswer r := by
      simpa [Opening.votes] using h
    cases r with
    | ok u => exact absurd h'.2 (by simp [RollbackReason.ofAnswer])
    | error e =>
      exact ⟨h'.1, msg, e, rfl, Option.some.inj h'.2⟩

/-- A yes that the opening casts is that of the coordinator, or that of the node itself after an
execution that succeeded. -/
theorem own_yes {i : Nat} (h : (i, none) ∈ o.votes n) :
    i = (o.coordinatorAt n).toUsize ∨
      (i = n.toUsize ∧ ∃ msg, o = .surrogate msg (.ok ())) := by
  cases o with
  | coordinator data tx =>
    have h' : i = n.toUsize := by simpa [Opening.votes] using h
    exact Or.inl h'
  | surrogate msg r =>
    have h' : i = (⟨msg.from⟩ : NodeId).toUsize ∨
        (i = n.toUsize ∧ RollbackReason.ofAnswer r = none) := by
      simpa [Opening.votes, eq_comm] using h
    rcases h' with h' | ⟨hi, hr⟩
    · exact Or.inl h'
    · cases r with
      | ok u => exact Or.inr ⟨hi, msg, rfl⟩
      | error e => exact absurd hr (by simp [RollbackReason.ofAnswer])

/-- A failed execution is the first no of the ballot. -/
theorem decision_failed (h : Standing id n status log o P early late) {msg : PrepareMessage}
    {e : AnyhowError} (ho : o = .surrogate msg (.error e)) (votes : List VoteMessage) :
    decision P (o.votes n ++ votes.map VoteMessage.cast) = .rollback n.toUsize (.ofError e) := by
  obtain ⟨hne, hn⟩ := h.member msg _ ho
  rw [ho]
  exact Opening.decision_failed hne hn votes

/-- A yes that was broadcast follows an execution that succeeded, and the ballot was not lost. -/
theorem yes_vote (h : Standing id n status log o P early late)
    {messages : List (NodeId × PeerMessage)} (hm : .call (.sendToAll messages) ∈ log)
    {dst : NodeId} {v : VoteMessage} (hmem : (dst, .vote v) ∈ messages)
    (hv : v.rollbackReason = none) :
    (∃ msg, o = .surrogate msg (.ok ())) ∧
      ∀ i reason, decision P (o.votes n ++ early.map VoteMessage.cast) ≠ .rollback i reason := by
  obtain ⟨hreq, -⟩ := h.announces hm hmem
  cases o with
  | coordinator data tx => exact absurd hreq (by simp [Opening.request])
  | surrogate msg r =>
    have hlost : ∀ i reason, decision P ((Opening.surrogate msg r).votes n ++
        early.map VoteMessage.cast) ≠ .rollback i reason := by
      intro i reason hd
      rw [PeerMessage.vote.inj hreq, hd] at hv
      exact absurd hv (by simp)
    refine ⟨?_, hlost⟩
    cases r with
    | ok u => exact ⟨msg, rfl⟩
    | error e => exact absurd (h.decision_failed rfl early) (hlost _ _)

/-- A no that was broadcast is the decision of the ballot. -/
theorem no_vote (h : Standing id n status log o P early late)
    {messages : List (NodeId × PeerMessage)} (hm : .call (.sendToAll messages) ∈ log)
    {dst : NodeId} {v : VoteMessage} (hmem : (dst, .vote v) ∈ messages)
    {reason : ProtoRollbackReason} (hv : v.rollbackReason = some reason) :
    ∃ i, decision P (o.votes n ++ early.map VoteMessage.cast) =
      .rollback i (RollbackReason.ofProto reason) := by
  obtain ⟨hreq, -⟩ := h.announces hm hmem
  cases o with
  | coordinator data tx => exact absurd hreq (by simp [Opening.request])
  | surrogate msg r =>
    rw [PeerMessage.vote.inj hreq] at hv
    cases hd : decision P ((Opening.surrogate msg r).votes n ++ early.map VoteMessage.cast) with
    | waiting =>
      rw [hd] at hv
      exact absurd hv (by simp)
    | commit =>
      rw [hd] at hv
      exact absurd hv (by simp)
    | rollback i reason' =>
      rw [hd] at hv
      obtain rfl := Option.some.inj hv
      cases reason' <;> exact ⟨i, rfl⟩

/-- A status that commits is a ballot that is carried. -/
theorem carried (h : Standing id n status log o P early late)
    (hs : status = .committing ∨ status = .committed) :
    decision P (o.votes n ++ (early ++ late).map VoteMessage.cast) = .commit := by
  have hshown := h.shown
  cases hd : decision P (o.votes n ++ (early ++ late).map VoteMessage.cast) with
  | commit => rfl
  | waiting =>
    rw [hd] at hshown
    rcases hs with rfl | rfl <;>
      exact absurd hshown (by simp [XactStatus.ofDecision, XactStatus.finalOf])
  | rollback i reason =>
    rw [hd] at hshown
    rcases hs with rfl | rfl <;>
      exact absurd hshown (by simp [XactStatus.ofDecision, XactStatus.finalOf])

/-- A status that rolls back is a ballot that is lost. -/
theorem lost (h : Standing id n status log o P early late) {info : RollbackInfo}
    (hs : status = .rollbacking info ∨ status = .rollbacked info) :
    ∃ i, decision P (o.votes n ++ (early ++ late).map VoteMessage.cast) =
      .rollback i info.reason ∧ NodeId.ofUsize i = info.node := by
  have hshown := h.shown
  cases hd : decision P (o.votes n ++ (early ++ late).map VoteMessage.cast) with
  | rollback i reason =>
    rw [hd] at hshown
    have hinfo : info = ⟨NodeId.ofUsize i, reason⟩ := by
      rcases hs with rfl | rfl <;> simpa [XactStatus.ofDecision, XactStatus.finalOf] using hshown
    rw [hinfo]
    exact ⟨i, rfl, rfl⟩
  | waiting =>
    rw [hd] at hshown
    rcases hs with rfl | rfl <;>
      exact absurd hshown (by simp [XactStatus.ofDecision, XactStatus.finalOf])
  | commit =>
    rw [hd] at hshown
    rcases hs with rfl | rfl <;>
      exact absurd hshown (by simp [XactStatus.ofDecision, XactStatus.finalOf])

end Standing

end Sunstorm
