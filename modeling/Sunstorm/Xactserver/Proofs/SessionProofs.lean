import Sunstorm.Xactserver.Proofs.StageProofs

/-!
# Proofs: what a node did, read off its log

A log shows at most one broadcast and at most one effect that closes the transaction, in this order.
What was broadcast, what the effect is and what the status is are all decisions of one ballot, at an
earlier and at a later point.
-/

namespace Sunstorm

open Await Tally

variable {id : XactId} {n : NodeId} {pt : Point} {status : XactStatus} {log : XactLog}

@[simp] theorem calls_taken (votes : List VoteMessage) : calls (taken votes) = [] := by
  induction votes with
  | nil => rfl
  | cons v votes ih => exact ih

@[simp] theorem recv_mem_taken {votes : List VoteMessage} {m : XsMessage} :
    (.recv m : Event XsMessage Effect Answer) ∈ taken votes ↔ ∃ v ∈ votes, m = .vote v := by
  unfold taken
  rw [List.mem_map]
  constructor
  · rintro ⟨v, hv, h⟩
    exact ⟨v, hv, (Event.recv.inj h).symm⟩
  · rintro ⟨v, hv, rfl⟩
    exact ⟨v, hv, rfl⟩

@[simp] theorem call_not_mem_taken {votes : List VoteMessage} {e : Effect} :
    (.call e : Event XsMessage Effect Answer) ∉ taken votes := by simp [taken]

@[simp] theorem ret_not_mem_taken {votes : List VoteMessage} {e : Effect} {r : Answer} :
    (.ret e r : Event XsMessage Effect Answer) ∉ taken votes := by simp [taken]

/-- An effect that carries a decision out is the commit or the rollback of that decision. -/
theorem Opening.closing_cases {o : Opening} {d : Decision Nat RollbackReason} {e : Effect}
    (h : o.closing id d = some e) :
    (d = .commit ∧ e.isCommit = true ∧ e.isRollback = false) ∨
      ((∃ p reason, d = .rollback p reason) ∧ e.isCommit = false ∧ e.isRollback = true) := by
  cases o <;> cases d <;> simp [Opening.closing, XactState.closing] at h <;> subst h <;>
    simp [Effect.isCommit, Effect.isRollback]

theorem Opening.closing_votes {o : Opening} {d : Decision Nat RollbackReason} {e : Effect}
    (h : o.closing id d = some e) : e.votes = [] := by
  cases o <;> cases d <;> simp [Opening.closing, XactState.closing] at h <;> subst h <;> rfl

/-- No decision is carried out by an execution. -/
theorem Opening.closing_ne_execute {o : Opening} {d : Decision Nat RollbackReason} {x : XactId}
    {data : Bytes} : ¬ o.closing id d = some (.execute x data) := by
  intro h
  rcases closing_cases h with ⟨-, hc, -⟩ | ⟨-, -, hr⟩
  · exact absurd hc (by simp [Effect.isCommit])
  · exact absurd hr (by simp [Effect.isRollback])

namespace Session

variable {S : Session n}

/-- A decision at the announcement stands. -/
theorem decision_stable (h : S.decision [] ≠ .waiting) (late : List VoteMessage) :
    S.decision late = S.decision [] := by
  unfold decision ballot at h ⊢
  rw [List.append_nil] at h ⊢
  exact Opening.decision_stable h

/-- A surrogate takes part and is not its own coordinator. -/
theorem surrogate_member {msg : PrepareMessage} {r : Answer} (h : S.opening = .surrogate msg r) :
    n ≠ ⟨msg.from⟩ ∧ n.toUsize ∈ S.participants := by
  have hann := S.announced
  rw [h] at hann
  exact ⟨(S.foreign msg r h).symm, hann.1⟩

/-- A failed execution is the first no of the ballot. -/
theorem decision_failed {msg : PrepareMessage} {e : AnyhowError}
    (h : S.opening = .surrogate msg (.error e)) (late : List VoteMessage) :
    S.decision late = .rollback n.toUsize (.ofError e) := by
  obtain ⟨hne, hn⟩ := surrogate_member h
  unfold decision ballot
  rw [h]
  exact Opening.decision_failed hne hn _

/-- What a vote says: the reason for which the ballot stood at a rollback when it was announced. -/
def voteReason (S : Session n) : Option ProtoRollbackReason :=
  match S.decision [] with
  | .rollback _ reason => some reason.toProto
  | _ => none

/-- Only a surrogate sends votes, and it sends one to all. -/
theorem request_eq_vote {v : VoteMessage} (h : S.request id = .vote v) :
    (∃ msg r, S.opening = .surrogate msg r) ∧
      v = { «from» := n.val, xactId := id.val, rollbackReason := S.voteReason } := by
  unfold request at h
  cases ho : S.opening with
  | coordinator data tx =>
    rw [ho] at h
    exact absurd h (by simp [Opening.request])
  | surrogate msg r =>
    rw [ho] at h
    exact ⟨⟨msg, r, rfl⟩, (PeerMessage.vote.inj h).symm⟩

/-- What can be seen of a ballot that was announced: the votes `late` that came in after the
announcement, and the effects `closing` that carry its decision out. -/
structure Seen (S : Session n) (id : XactId) (status : XactStatus) (log : XactLog)
    (late : List VoteMessage) (closing : List Effect) : Prop where
  begins : S.opened id <+: log
  counted : ∀ v ∈ S.early ++ late, .recv (.vote v) ∈ log
  effects : calls log = calls (S.opening.executed id) ++ [S.broadcast id] ++ closing
  ends : closing = [] ∨ ∃ e, S.opening.closing id (S.decision late) = some e ∧ closing = [e]
  order : ∀ e ∈ closing, ∀ v ∈ S.early ++ late, List.Sublist [.recv (.vote v), .call e] log
  shown : status = .ofDecision (S.decision late) ∨ status = .finalOf (S.decision late) ∨
    status = .uninitialized
  results : ∀ x data r, .ret (.execute x data) r ∈ log →
    .ret (.execute x data) r ∈ S.opening.executed id

theorem calls_opened :
    calls (S.opened id) = calls (S.opening.executed id) ++ [S.broadcast id] := by
  simp [opened]

theorem calls_voting (late : List VoteMessage) :
    calls (S.voting id late) = calls (S.opening.executed id) ++ [S.broadcast id] := by
  simp [voting, calls_opened]

theorem early_mem_opened {v : VoteMessage} (hv : v ∈ S.early) :
    .recv (.vote v) ∈ S.opened id := by
  have htaken : (.recv (.vote v) : Event XsMessage Effect Answer) ∈ taken S.early :=
    recv_mem_taken.mpr ⟨v, hv, rfl⟩
  unfold opened
  exact List.mem_append_left _ (List.mem_append_left _ (List.mem_append_left _ htaken))

theorem votes_mem_voting {late : List VoteMessage} {v : VoteMessage} (hv : v ∈ S.early ++ late) :
    .recv (.vote v) ∈ S.voting id late := by
  unfold voting
  rcases List.mem_append.mp hv with hv | hv
  · exact List.mem_append_left _ (List.mem_append_left _ (early_mem_opened hv))
  · exact List.mem_append_right _ (recv_mem_taken.mpr ⟨v, hv, rfl⟩)

theorem opened_prefix_voting (late : List VoteMessage) : S.opened id <+: S.voting id late := by
  unfold voting
  rw [List.append_assoc]
  exact List.prefix_append _ _

theorem order_voting {late : List VoteMessage} {e : Effect} {v : VoteMessage}
    (hv : v ∈ S.early ++ late) :
    List.Sublist [.recv (.vote v), .call e] (S.voting id late ++ [.call e]) :=
  (List.singleton_sublist.mpr (votes_mem_voting hv)).append (List.Sublist.refl [Event.call e])

theorem results_opened {x : XactId} {data : Bytes} {r : Answer}
    (h : .ret (.execute x data) r ∈ S.opened id) :
    .ret (.execute x data) r ∈ S.opening.executed id := by simpa [opened] using h

theorem results_voting {late : List VoteMessage} {x : XactId} {data : Bytes} {r : Answer}
    (h : .ret (.execute x data) r ∈ S.voting id late) :
    .ret (.execute x data) r ∈ S.opening.executed id := by
  apply results_opened
  simpa [voting, broadcast] using h

/-- What can be seen while votes are missing. -/
theorem seen_voting {late : List VoteMessage} (h : S.decision late = .waiting) :
    S.Seen id .waiting (S.voting id late) late [] := by
  refine ⟨opened_prefix_voting late, fun v hv => votes_mem_voting hv, by simp [calls_voting],
    Or.inl rfl, by simp, Or.inl ?_, fun x data r => results_voting⟩
  rw [h]
  rfl

/-- What can be seen once the effect that carries the decision out is asked for. -/
theorem seen_closing {late : List VoteMessage} {e : Effect}
    (he : S.opening.closing id (S.decision late) = some e) {rest : XactLog}
    (hcalls : calls rest = [])
    (hrest : ∀ x data r, .ret (.execute x data) r ∈ rest → .execute x data = e)
    (hs : status = .ofDecision (S.decision late) ∨ status = .finalOf (S.decision late)) :
    S.Seen id status (S.voting id late ++ [.call e] ++ rest) late [e] := by
  have hbegin : S.voting id late <+: S.voting id late ++ [.call e] ++ rest := by
    rw [List.append_assoc]
    exact List.prefix_append _ _
  refine ⟨(opened_prefix_voting late).trans hbegin, fun v hv => hbegin.subset (votes_mem_voting hv),
    by simp [calls_voting, hcalls], Or.inr ⟨e, he, rfl⟩, ?_, ?_, ?_⟩
  · intro e' he' v hv
    rw [List.mem_singleton.mp he']
    exact (order_voting hv).trans (List.sublist_append_left _ _)
  · rcases hs with hs | hs
    · exact Or.inl hs
    · exact Or.inr (Or.inl hs)
  · intro x data r h
    rw [List.append_assoc, List.mem_append] at h
    rcases h with h | h
    · exact results_voting h
    · obtain rfl := hrest x data r (by simpa using h)
      exact absurd he Opening.closing_ne_execute

theorem Tail.seen (h : S.Tail id pt status log) :
    ∃ late closing, S.Seen id status log late closing := by
  cases h with
  | announcing =>
    exact ⟨[], [], ⟨List.prefix_refl _, fun v hv => early_mem_opened (by simpa using hv),
      by simp [calls_opened], Or.inl rfl, by simp, Or.inl rfl, fun x data r => results_opened⟩⟩
  | unannounced e f =>
    refine ⟨[], [], ⟨List.prefix_append _ _, fun v hv => ?_, by simp [calls_opened], Or.inl rfl,
      by simp, Or.inl rfl, fun x data r h => results_opened ?_⟩⟩
    · exact List.mem_append_left _ (early_mem_opened (by simpa using hv))
    · simpa [broadcast] using h
  | voting late h => exact ⟨late, [], seen_voting h⟩
  | reopened late h m hm st hs why hwhy =>
    refine ⟨late, [], ⟨(opened_prefix_voting late).trans (List.prefix_append _ _),
      fun v hv => List.mem_append_left _ (votes_mem_voting hv), by simp [calls_voting],
      Or.inl rfl, by simp, ?_, fun x data r h => results_voting (by simpa using h)⟩⟩
    rcases hs with rfl | rfl
    · exact Or.inr (Or.inr rfl)
    · rw [h]
      exact Or.inl rfl
  | closing late e he =>
    have hseen : S.Seen id (.ofDecision (S.decision late)) (S.voting id late ++ [.call e] ++ [])
        late [e] := seen_closing he rfl (by simp) (Or.inl rfl)
    rw [List.append_nil] at hseen
    exact ⟨late, [e], hseen⟩
  | unclosed late e he x f =>
    exact ⟨late, [e], seen_closing he rfl (by simp) (Or.inl rfl)⟩
  | closed late e he =>
    exact ⟨late, [e], seen_closing he rfl (by simp) (Or.inr rfl)⟩
  | unlabelled late e he f f' hf =>
    exact ⟨late, [e], seen_closing he rfl (by simp) (Or.inr rfl)⟩

end Session

/-! ## Votes sent -/

@[simp] theorem Effect.mem_votes {messages : List (NodeId × PeerMessage)} {p : NodeId}
    {v : VoteMessage} : (p, v) ∈ (Effect.sendToAll messages).votes ↔ (p, .vote v) ∈ messages := by
  simp only [Effect.votes, List.mem_filterMap]
  constructor
  · rintro ⟨⟨q, msg⟩, hmem, h⟩
    cases msg with
    | prepare msg => exact absurd h (by simp)
    | vote w =>
      obtain ⟨rfl, rfl⟩ := Prod.mk.inj (Option.some.inj h)
      exact hmem
  · intro h
    exact ⟨_, h, rfl⟩

theorem Effect.votes_sublist (messages : List (NodeId × PeerMessage)) :
    List.Sublist ((Effect.sendToAll messages).votes.map Prod.fst) (messages.map Prod.fst) := by
  induction messages with
  | nil => exact List.Sublist.refl _
  | cons m messages ih =>
    obtain ⟨p, msg⟩ := m
    cases msg with
    | prepare msg => exact ih.cons _
    | vote v => exact ih.cons_cons _

/-- The effects of a ballot that was announced: no votes but in its broadcast. -/
theorem Session.Seen.sent {S : Session n} {late : List VoteMessage} {closing : List Effect}
    (h : S.Seen id status log late closing) : votesSent log = (S.broadcast id).votes := by
  have hexec : (calls (S.opening.executed id)).flatMap Effect.votes = [] := by
    cases S.opening <;> rfl
  have hclosing : closing.flatMap Effect.votes = [] := by
    rcases h.ends with rfl | ⟨e, he, rfl⟩
    · rfl
    · simp [Opening.closing_votes he]
  unfold votesSent
  rw [h.effects, List.flatMap_append, List.flatMap_append, hexec, hclosing]
  simp

/-- A ballot that was never announced: the only effect is an execution, and the status follows
from votes that are in the log. -/
structure Unannounced (id : XactId) (n : NodeId) (status : XactStatus) (log : XactLog) : Prop where
  effects : ∀ e ∈ calls log, ∃ data, e = .execute id data
  shown : ((∀ e r, .ret e r ∉ log) ∧ (status = .uninitialized ∨ status = .waiting)) ∨
    ∃ (o : Opening) (P : BitSet) (early : List VoteMessage),
      RWSet.participantsIn o.data = some P ∧
      log = taken early ++ [.recv o.message] ++ o.executed id ∧
      (∀ msg r, o = .surrogate msg r → n ≠ ⟨msg.from⟩ ∧ n.toUsize ∈ P) ∧
      status = .ofDecision (decision P (o.votes n ++ early.map VoteMessage.cast))

/-- Either the ballot was announced or it was not. -/
theorem Stage.announced_or (h : Stage id n pt status log) :
    Unannounced id n status log ∨
      ∃ (S : Session n) (late : List VoteMessage) (closing : List Effect),
        S.Seen id status log late closing := by
  induction h with
  | unknown early => exact Or.inl ⟨by simp, Or.inl ⟨by simp, Or.inl rfl⟩⟩
  | refused early m hm why hwhy => exact Or.inl ⟨by simp, Or.inl ⟨by simp, Or.inl rfl⟩⟩
  | decided early data tx P hP vs hvs hd f =>
    refine Or.inl ⟨by simp, Or.inr ⟨.coordinator data tx, P, early, hP, ?_, ?_, ?_⟩⟩
    · simp [Opening.message, Opening.executed]
    · intro msg r h
      exact absurd h (by simp)
    · rw [hvs]
  | executing early msg P hP hn hfrom =>
    refine Or.inl ⟨?_, Or.inl ⟨by simp, Or.inr rfl⟩⟩
    intro e he
    have heq : e = .execute id msg.data := by simpa using he
    exact ⟨_, heq⟩
  | overrun early msg P hP hn hfrom r hover f =>
    refine Or.inl ⟨?_, Or.inr ⟨.surrogate msg r, P, early, hP, rfl, ?_, ?_⟩⟩
    · intro e he
      have heq : e = .execute id msg.data := by simpa [Opening.executed] using he
      exact ⟨_, heq⟩
    · intro msg' r' h
      obtain ⟨rfl, -⟩ := Opening.surrogate.inj h
      exact ⟨hfrom.symm, hn⟩
    · rw [hover.commit]
      rfl
  | session S hS =>
    obtain ⟨late, closing, hseen⟩ := hS.seen
    exact Or.inr ⟨S, late, closing, hseen⟩
  | stopped hpt _ ih => exact ih

end Sunstorm
