import Sunstorm.Xactserver.Proofs.ManagerProofs

/-!
# Proofs: a node does not contradict itself

Whatever a node is sent, it votes once in each transaction and acts once on it. Its vote and its
act are decisions of one ballot, and a decision that is taken stands.
-/

namespace Sunstorm

open Await Tally

variable {id : XactId} {n : NodeId} {status : XactStatus} {log : XactLog}

/-- The conduct of a node in a transaction, as its log shows it. -/
structure Conduct (id : XactId) (n : NodeId) (log : XactLog) : Prop where
  /-- No peer is sent two votes. -/
  once : ((votesSent log).map Prod.fst).Nodup
  /-- All votes are the same, up to the peer. -/
  same : ∀ v ∈ votesSent log, ∀ w ∈ votesSent log, v.2.rollbackReason = w.2.rollbackReason
  /-- The votes are about the transaction and in the name of the node. -/
  own : ∀ v ∈ votesSent log, v.2.xactId = id.val ∧ v.2.from = n.val
  /-- After a no there is no commit. -/
  no : ∀ v ∈ votesSent log, v.2.rollbackReason.isSome = true → ∀ e ∈ calls log, e.isCommit = false
  /-- A yes comes after an execution that succeeded, and a rollback comes after the no of a
  participant then. -/
  yes : ∀ e ∈ calls log, ∀ v ∈ e.votes, v.2.rollbackReason = none →
    ∃ msg, .recv (.prepare msg) ∈ log ∧
      List.Sublist [.ret (.execute id msg.data) (.ok ()), .call e] log ∧
      ∀ e' ∈ calls log, e'.isRollback = true →
        ∃ P w, RWSet.participantsIn msg.data = some P ∧ (⟨w.from⟩ : NodeId).toUsize ∈ P ∧
          w.rollbackReason.isSome = true ∧ List.Sublist [.recv (.vote w), .call e'] log
  /-- The transaction is acted on once. -/
  acts : ((calls log).filter fun e => e.isCommit || e.isRollback).length ≤ 1

theorem Unannounced.sent (h : Unannounced id n status log) : votesSent log = [] := by
  unfold votesSent
  rw [List.flatMap_eq_nil_iff]
  intro e he
  obtain ⟨data, rfl⟩ := h.effects e he
  rfl

theorem Unannounced.conduct (h : Unannounced id n status log) : Conduct id n log := by
  have hvotes := h.sent
  have hacts : (calls log).filter (fun e => e.isCommit || e.isRollback) = [] := by
    rw [List.filter_eq_nil_iff]
    intro e he
    obtain ⟨data, rfl⟩ := h.effects e he
    simp [Effect.isCommit, Effect.isRollback]
  constructor
  · rw [hvotes]
    exact List.nodup_nil
  · simp [hvotes]
  · simp [hvotes]
  · simp [hvotes]
  · intro e he v hv
    obtain ⟨data, rfl⟩ := h.effects e he
    exact absurd hv List.not_mem_nil
  · rw [hacts]
    simp

namespace Session

variable {S : Session n} {late : List VoteMessage} {closing : List Effect}

/-- The events between the opening and the announcement are in the log. -/
theorem Seen.executed (h : S.Seen id status log late closing) :
    .recv S.opening.message ∈ log ∧ ∀ ev ∈ S.opening.executed id, ev ∈ log := by
  have hsub := h.begins.subset
  constructor
  · apply hsub
    simp [opened]
  · intro ev hev
    apply hsub
    simp [opened, hev]

/-- A vote that was sent is the request of the broadcast. -/
theorem Seen.vote (h : S.Seen id status log late closing) {v : NodeId × VoteMessage}
    (hv : v ∈ votesSent log) : S.request id = .vote v.2 := by
  rw [h.sent] at hv
  have hmem := Effect.mem_votes.mp hv
  exact ((XactStateManager.mem_toAllBut fun i hi => S.participants_lt hi).mp hmem).1.symm

/-- The effects before the closing one neither commit nor roll back. -/
theorem acts_opened (e : Effect)
    (he : e ∈ calls (S.opening.executed id) ++ [S.broadcast id]) :
    e.isCommit = false ∧ e.isRollback = false := by
  rcases List.mem_append.mp he with he | he
  · cases ho : S.opening with
    | coordinator data tx =>
      rw [ho] at he
      exact absurd he List.not_mem_nil
    | surrogate msg r =>
      rw [ho] at he
      obtain rfl : e = .execute id msg.data := by simpa [Opening.executed] using he
      exact ⟨rfl, rfl⟩
  · rw [List.mem_singleton.mp he]
    exact ⟨rfl, rfl⟩

theorem Seen.act_mem_closing (h : S.Seen id status log late closing) {e : Effect}
    (he : e ∈ calls log) (hact : e.isCommit = true ∨ e.isRollback = true) : e ∈ closing := by
  rw [h.effects, List.mem_append] at he
  rcases he with he | he
  · obtain ⟨hc, hr⟩ := acts_opened e he
    rcases hact with hact | hact
    · exact absurd (hc.symm.trans hact) (by simp)
    · exact absurd (hr.symm.trans hact) (by simp)
  · exact he

/-- An effect that acts on the transaction is the decision of the ballot. -/
theorem Seen.act (h : S.Seen id status log late closing) {e : Effect} (he : e ∈ calls log)
    (hact : e.isCommit = true ∨ e.isRollback = true) :
    S.opening.closing id (S.decision late) = some e := by
  have hmem := h.act_mem_closing he hact
  rcases h.ends with rfl | ⟨e', he', rfl⟩
  · exact absurd hmem List.not_mem_nil
  · rw [List.mem_singleton.mp hmem]
    exact he'

/-- Only the broadcast carries votes. -/
theorem Seen.voting_effect (h : S.Seen id status log late closing) {e : Effect}
    (he : e ∈ calls log) {v : NodeId × VoteMessage} (hv : v ∈ e.votes) : e = S.broadcast id := by
  rw [h.effects, List.mem_append, List.mem_append] at he
  rcases he with (he | he) | he
  · cases ho : S.opening with
    | coordinator data tx =>
      rw [ho] at he
      exact absurd he List.not_mem_nil
    | surrogate msg r =>
      rw [ho] at he
      obtain rfl : e = .execute id msg.data := by simpa [Opening.executed] using he
      exact absurd hv List.not_mem_nil
  · exact List.mem_singleton.mp he
  · rcases h.ends with rfl | ⟨e', he', rfl⟩
    · exact absurd he List.not_mem_nil
    · obtain rfl := List.mem_singleton.mp he
      rw [Opening.closing_votes he'] at hv
      exact absurd hv List.not_mem_nil

/-- A vote without a reason is the vote of a surrogate whose execution succeeded. -/
theorem executed_of_yes (hs : ∃ msg r, S.opening = .surrogate msg r) (h : S.voteReason = none) :
    ∃ msg, S.opening = .surrogate msg (.ok ()) := by
  obtain ⟨msg, r, ho⟩ := hs
  cases r with
  | ok u => exact ⟨msg, ho⟩
  | error e =>
    unfold voteReason at h
    rw [decision_failed ho []] at h
    exact absurd h (by simp)

/-- A rollback after a yes was caused by the no of a participant. -/
theorem no_of_rollback {msg : PrepareMessage} (ho : S.opening = .surrogate msg (.ok ()))
    {p : Nat} {reason : RollbackReason} (hd : S.decision late = .rollback p reason) :
    ∃ w ∈ S.early ++ late, w.cast = (p, some reason) ∧ p ∈ S.participants := by
  obtain ⟨hp, hno⟩ := Tally.no_of_rollback hd
  unfold ballot at hno
  rw [ho, List.mem_append] at hno
  rcases hno with hno | hno
  · exact absurd hno (by simp [Opening.votes, RollbackReason.ofAnswer])
  · obtain ⟨w, hw, hcast⟩ := List.mem_map.mp hno
    exact ⟨w, hw, hcast, hp⟩

theorem Seen.conduct (h : S.Seen id status log late closing) : Conduct id n log := by
  have hvote : ∀ v ∈ votesSent log, v.2.xactId = id.val ∧ v.2.from = n.val ∧
      v.2.rollbackReason = S.voteReason ∧ ∃ msg r, S.opening = .surrogate msg r := by
    intro v hv
    obtain ⟨hs, heq⟩ := request_eq_vote (h.vote hv)
    rw [heq]
    exact ⟨rfl, rfl, rfl, hs⟩
  constructor
  · rw [h.sent]
    exact (XactStateManager.nodup_toAllBut (fun i hi => S.participants_lt hi) _).sublist
      (Effect.votes_sublist _)
  · intro v hv w hw
    rw [(hvote v hv).2.2.1, (hvote w hw).2.2.1]
  · intro v hv
    exact ⟨(hvote v hv).1, (hvote v hv).2.1⟩
  · -- the ballot stood at a rollback when the vote was sent, so it does now
    intro v hv hno e he
    by_contra hcommit
    have hclosing := h.act he (Or.inl (by simpa using hcommit))
    rw [(hvote v hv).2.2.1] at hno
    unfold voteReason at hno
    cases hd : S.decision [] with
    | waiting => rw [hd] at hno; exact absurd hno (by simp)
    | commit => rw [hd] at hno; exact absurd hno (by simp)
    | rollback p reason =>
      rw [decision_stable (by rw [hd]; simp), hd] at hclosing
      rcases Opening.closing_cases hclosing with ⟨habs, -⟩ | ⟨-, hc, -⟩
      · exact absurd habs (by simp)
      · exact hcommit hc
  · intro e he v hv hyes
    have hsent : v ∈ votesSent log := List.mem_flatMap.mpr ⟨e, he, hv⟩
    obtain ⟨-, -, hreason, hs⟩ := hvote v hsent
    obtain ⟨msg, ho⟩ := executed_of_yes hs (hreason.symm.trans hyes)
    have hrecv := h.executed.1
    rw [ho] at hrecv
    refine ⟨msg, hrecv, ?_, ?_⟩
    · have hbroadcast : e = S.broadcast id := h.voting_effect he hv
      have hsub : List.Sublist [.ret (.execute id msg.data) (.ok ()), .call e] (S.opened id) := by
        rw [hbroadcast, Session.opened, ho]
        have hexec : List.Sublist [(.ret (.execute id msg.data) (.ok ()))]
            (taken S.early ++ [.recv (.prepare msg)] ++
              (Opening.surrogate msg (.ok ())).executed id) :=
          List.singleton_sublist.mpr (by simp [Opening.executed])
        exact hexec.append (List.Sublist.refl [Event.call (S.broadcast id)])
      exact hsub.trans h.begins.sublist
    · intro e' he' hrollback
      have hclosing := h.act he' (Or.inr hrollback)
      rcases Opening.closing_cases hclosing with ⟨-, -, habs⟩ | ⟨⟨p, reason, hd⟩, -, -⟩
      · rw [hrollback] at habs
        exact absurd habs (by simp)
      · obtain ⟨w, hw, hcast, hp⟩ := no_of_rollback ho hd
        obtain ⟨hfrom, hr⟩ := Prod.mk.inj hcast
        have hdecoded := S.decoded
        rw [ho] at hdecoded
        refine ⟨S.participants, w, hdecoded, ?_, ?_, ?_⟩
        · rw [show (⟨w.from⟩ : NodeId).toUsize = p from hfrom]
          exact hp
        · have hsome : (w.rollbackReason.map RollbackReason.ofProto).isSome = true := by
            rw [show w.rollbackReason.map RollbackReason.ofProto = some reason from hr]
            rfl
          simpa using hsome
        · exact h.order e' (h.act_mem_closing he' (Or.inr hrollback)) w hw
  · rw [h.effects, List.filter_append, List.filter_append]
    have hexec : (calls (S.opening.executed id)).filter
        (fun e => e.isCommit || e.isRollback) = [] := by
      cases S.opening <;> rfl
    have hbroadcast : [S.broadcast id].filter (fun e => e.isCommit || e.isRollback) = [] := rfl
    rw [hexec, hbroadcast]
    rcases h.ends with rfl | ⟨e, -, rfl⟩
    · simp
    · exact List.length_filter_le _ _

end Session

/-- **A node never equivocates and acts at most once on a transaction.** At every moment of every
run of a node that is not sent a `Prepare` in its own name, one state manager was created at most
for a transaction, and the conduct of the node in it is as in `Conduct`. -/
theorem manager_never_equivocates (n : NodeId) (actions : List Manager.Action) (m : Manager)
    (hforeign : ∀ a ∈ actions, a.Foreign n) (hrun : (Manager.new n).run actions = some m)
    (id : XactId) :
    m.spawned.count id ≤ 1 ∧
      ∀ p, m.xactStateManagers id = some p → Conduct id n p.log := by
  have hserved := (Manager.Served.new (A := XsMessage.Foreign n) n).run
    (fun msg hm => hforeign _ hm) hrun
  refine ⟨List.nodup_iff_count_le_one.mp hserved.nodup id, fun p hp => ?_⟩
  rcases (hserved.stage hp).announced_or with h | ⟨S, late, closing, h⟩
  · exact h.conduct
  · exact h.conduct

/-- A surrogate that gets a vote, its `Prepare` twice and a further vote: it votes yes, and it rolls
back for the no of the third participant. -/
def surrogateRun : List Manager.Action :=
  let id : XactId := .new 1 ⟨0⟩
  let data : Bytes := [0, 0, 0, 1, 0, 0, 0, 0, 0, 0, 0, 7, 0, 0, 0, 0, 0, 0, 0, 0]
  [.message (.vote { «from» := 3, xactId := id.val, rollbackReason := none }),
    .message (.prepare { «from» := 0, xactId := id.val, data }), .take id, .take id,
    .answer id (.ok ()),
    .message (.vote { «from» := 2, xactId := id.val, rollbackReason := some (.other "no") }),
    .message (.prepare { «from» := 0, xactId := id.val, data }),
    .answer id (.ok ()), .take id, .answer id (.ok ())]

theorem manager_never_equivocates_surrogate :
    ∃ m, (Manager.new ⟨1⟩).run surrogateRun = some m ∧
      m.spawned.count (XactId.new 1 ⟨0⟩) ≤ 1 ∧
      ∀ p, m.xactStateManagers (XactId.new 1 ⟨0⟩) = some p →
        Conduct (XactId.new 1 ⟨0⟩) ⟨1⟩ p.log := by
  have hforeign : ∀ a ∈ surrogateRun, a.Foreign ⟨1⟩ := by
    intro a ha
    simp only [surrogateRun, List.mem_cons, List.not_mem_nil, or_false] at ha
    rcases ha with rfl | rfl | rfl | rfl | rfl | rfl | rfl | rfl | rfl | rfl <;>
      simp [Manager.Action.Foreign, XsMessage.Foreign]
  obtain ⟨m, hm⟩ : ∃ m, (Manager.new ⟨1⟩).run surrogateRun = some m :=
    Option.isSome_iff_exists.mp (by decide)
  exact ⟨m, hm, manager_never_equivocates ⟨1⟩ surrogateRun m hforeign hm (XactId.new 1 ⟨0⟩)⟩

end Sunstorm
