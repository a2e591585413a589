import Sunstorm.Xactserver.Proofs.XactTypeProofs

/-!
# Proofs: when the `Prepare` comes among the votes does not matter

Votes that are kept and replayed when the transaction is initialised have the effect of votes that
are counted as they come: both are votes of one ballot. The order of the votes matters for the
reported reason at most.
-/

namespace Sunstorm

open Await Tally

/-- Every effect succeeds, except the execution, which is answered by `r`. -/
def answering (r : Answer) : Effect → Answer
  | .execute _ _ => r
  | _ => .ok ()

namespace XactType

/-- `add_vote` followed by `try_finish` for one vote after the other, until the transaction is
finished. -/
def voteAll : List Vote → Code XactType XactStatus
  | [] => fun self => .done (.ok self.status, self)
  | vote :: votes => do
    Async.update fun self => self.addVote vote
    let status ← tryFinish
    if status.isTerminal then return status else voteAll votes

/-- A surrogate that gets the votes `before`, then the `Prepare`, then the votes `after`. -/
def prepareAmong (id : XactId) (nodeId coordinator : NodeId) (P : BitSet) (data : Bytes)
    (before after : List Vote) : Code XactType XactStatus := do
  let _ ← voteAll before
  let _ ← initAsSurrogate id nodeId coordinator P data
  let status ← tryFinish
  if status.isTerminal then return status else voteAll after

variable {o : Opening} {id : XactId} {n : NodeId} {P : BitSet} {r : Answer}
  {vs : List (Nat × Option RollbackReason)}

/-- The result of a transaction whose ballot came to `d`. -/
def Ended (d : Decision Nat RollbackReason) (res : Except Failure XactStatus × XactType) : Prop :=
  res.1 = .ok (.finalOf d) ∧ res.2.status = .finalOf d

theorem answering_closing {d : Decision Nat RollbackReason} {e : Effect}
    (he : o.closing id d = some e) : answering r e = .ok () := by
  cases o <;> cases d <;> simp [Opening.closing, XactState.closing] at he <;> subst he <;> rfl

/-- `try_finish` leaves an open ballot alone, and carries a decision out. -/
theorem run_tryFinish (o : Opening) (id : XactId) (n : NodeId) (P : BitSet)
    (vs : List (Nat × Option RollbackReason)) (r : Answer) :
    Ended (decision P vs) ((tryFinish (o.xact id n P vs)).run (answering r)) ∧
      (decision P vs = .waiting →
        (tryFinish (o.xact id n P vs)).run (answering r) = (.ok .waiting, o.xact id n P vs)) := by
  by_cases hd : decision P vs = .waiting
  · rw [tryFinish_waiting hd, Prog.run_done, hd]
    refine ⟨⟨rfl, ?_⟩, fun _ => rfl⟩
    rw [status_xact, hd]
    rfl
  · obtain ⟨e, he⟩ : ∃ e, o.closing id (decision P vs) = some e := by
      rw [← Option.ne_none_iff_exists']
      exact fun h => hd (Opening.closing_eq_none.mp h)
    obtain ⟨xact, xact', f, -, hs', hfin⟩ := tryFinish_decided (n := n) he
    rw [hfin, Prog.run_await, answering_closing he]
    exact ⟨⟨rfl, hs'⟩, fun h => absurd h hd⟩

theorem isTerminal_finalOf_iff {d : Decision Nat RollbackReason} :
    (XactStatus.finalOf d).isTerminal = true ↔ d ≠ .waiting := by
  cases d <;> simp [XactStatus.finalOf, XactStatus.isTerminal]

/-- `try_finish`, and the votes after it unless the transaction is finished. -/
def finishOr (votes : List Vote) : Code XactType XactStatus := do
  let status ← tryFinish
  if status.isTerminal then return status else voteAll votes

theorem voteAll_cons (hd : decision P vs ≠ .commit) (vote : Vote) (votes : List Vote) :
    voteAll (vote :: votes) (o.xact id n P vs) =
      finishOr votes (o.xact id n P (vs ++ [vote.cast])) := by
  have hadd : (o.xact id n P vs).addVote vote = .ok (o.xact id n P (vs ++ [vote.cast])) :=
    addVote_xact hd vote
  simp [voteAll, bind, Async.update, hadd]
  rfl

/-- What `try_finish` and the votes after it come to, when `vs` were counted before. -/
theorem run_finishOr (o : Opening) (id : XactId) (n : NodeId) (P : BitSet) (r : Answer)
    (votes : List Vote) (vs : List (Nat × Option RollbackReason)) :
    Ended (decision P (vs ++ votes.map Vote.cast))
      ((finishOr votes (o.xact id n P vs)).run (answering r)) := by
  induction votes generalizing vs with
  | nil =>
    rw [List.map_nil, List.append_nil]
    obtain ⟨hend, hwait⟩ := run_tryFinish o id n P vs r
    simp only [finishOr, bind, Prog.run_bind]
    by_cases hd : decision P vs = .waiting
    · rw [hwait hd, hd]
      refine ⟨?_, ?_⟩ <;>
        simp [voteAll, XactStatus.isTerminal, hd, XactStatus.ofDecision, XactStatus.finalOf]
    · obtain ⟨h1, h2⟩ := hend
      rw [show (tryFinish (o.xact id n P vs)).run (answering r) =
        (.ok (.finalOf (decision P vs)), _) from Prod.ext h1 rfl]
      simp only [isTerminal_finalOf_iff.mpr hd, if_true]
      exact ⟨rfl, h2⟩
  | cons vote votes ih =>
    obtain ⟨hend, hwait⟩ := run_tryFinish o id n P vs r
    simp only [finishOr, bind, Prog.run_bind]
    by_cases hd : decision P vs = .waiting
    · have hih := ih (vs ++ [vote.cast])
      rw [List.append_assoc, ← voteAll_cons (by rw [hd]; simp)] at hih
      rw [hwait hd]
      exact hih
    · obtain ⟨h1, h2⟩ := hend
      rw [show (tryFinish (o.xact id n P vs)).run (answering r) =
        (.ok (.finalOf (decision P vs)), _) from Prod.ext h1 rfl, decision_stable hd]
      simp only [isTerminal_finalOf_iff.mpr hd, if_true]
      exact ⟨rfl, h2⟩

/-- Votes are kept as long as the transaction is unknown. -/
theorem voteAll_unknown (kept votes : List Vote) :
    voteAll votes (.unknown kept) = .done (.ok .uninitialized, .unknown (kept ++ votes)) := by
  induction votes generalizing kept with
  | nil => simp [voteAll, status]
  | cons vote votes ih =>
    have hih := ih (kept ++ [vote])
    rw [List.append_assoc] at hih
    simp [voteAll, bind, Async.update, addVote_unknown, tryFinish_unknown, XactStatus.isTerminal]
    exact hih

/-- The whole run of a surrogate is decided by the ballot in which all votes were cast. -/
theorem run_prepareAmong (id : XactId) (msg : PrepareMessage) (r : Answer)
    (hfrom : (⟨msg.from⟩ : NodeId) ≠ n) (hn : n.toUsize ∈ P) (before after : List Vote)
    (hover : ¬ Overrun P ((Opening.surrogate msg r).votes n) (before.map Vote.cast)) :
    Ended (decision P ((Opening.surrogate msg r).votes n ++ (before ++ after).map Vote.cast))
      ((prepareAmong id n ⟨msg.from⟩ P msg.data before after default).run (answering r)) := by
  have hinit := initAsSurrogate_unknown hfrom hn id before
  have hrest := run_finishOr (.surrogate msg r) id n P r after
    ((Opening.surrogate msg r).votes n ++ before.map Vote.cast)
  unfold prepareAmong
  rw [List.map_append, ← List.append_assoc]
  simp only [bind, default, voteAll_unknown, List.nil_append, Prog.bind_done, hinit,
    Prog.bind_await, Prog.run_await]
  rw [show answering r (.execute id msg.data) = r from rfl, XactState.verdict, if_neg hover]
  exact hrest

end XactType

/-- The votes of distinct participants other than the coordinator and the surrogate itself. -/
structure Others (P : BitSet) (coordinator nodeId : NodeId) (V : List Vote) : Prop where
  nodup : (V.map Vote.from).Nodup
  mem : ∀ v ∈ V, v.from.toUsize ∈ P ∧ v.from ≠ coordinator ∧ v.from ≠ nodeId

namespace Others

variable {P : BitSet} {coordinator nodeId : NodeId} {V W : List Vote}

theorem perm (h : Others P coordinator nodeId V) (hp : V.Perm W) : Others P coordinator nodeId W :=
  ⟨(hp.map _).nodup_iff.mp h.nodup, fun v hv => h.mem v (hp.mem_iff.mpr hv)⟩

/-- With the yes of the coordinator and the own vote in front, everybody votes once. -/
theorem nodup_cast (h : Others P coordinator nodeId V) (hne : nodeId ≠ coordinator)
    (own : Option RollbackReason) :
    (((coordinator.toUsize, none) :: (nodeId.toUsize, own) :: V.map Vote.cast).map
      Prod.fst).Nodup := by
  have hmap : (V.map Vote.cast).map Prod.fst = (V.map Vote.from).map NodeId.toUsize := by
    rw [List.map_map, List.map_map]
    rfl
  have hsender : ∀ p : NodeId, (∀ v ∈ V, v.from ≠ p) →
      p.toUsize ∉ (V.map Vote.from).map NodeId.toUsize := by
    intro p hp hmem
    obtain ⟨q, hq, heq⟩ := List.mem_map.mp hmem
    obtain ⟨v, hv, rfl⟩ := List.mem_map.mp hq
    exact hp v hv (NodeId.toUsize_inj.mp heq)
  rw [List.map_cons, List.map_cons, hmap, List.nodup_cons, List.nodup_cons]
  refine ⟨?_, hsender nodeId fun v hv => (h.mem v hv).2.2, ?_⟩
  · rw [List.mem_cons, not_or]
    exact ⟨fun heq => hne (NodeId.toUsize_inj.mp heq).symm,
      hsender coordinator fun v hv => (h.mem v hv).2.1⟩
  · exact h.nodup.map NodeId.toUsize_injective

theorem not_overrun (h : Others P coordinator nodeId V) (hne : nodeId ≠ coordinator)
    (own : Option RollbackReason) :
    ¬ Overrun P [(coordinator.toUsize, none), (nodeId.toUsize, own)] (V.map Vote.cast) := by
  refine not_overrun_of_nodup (h.nodup_cast hne own) fun w hw => ?_
  obtain ⟨v, hv, rfl⟩ := List.mem_map.mp hw
  exact (h.mem v hv).1

theorem append_left (h : Others P coordinator nodeId (V ++ W)) : Others P coordinator nodeId V := by
  have hnodup := h.nodup
  rw [List.map_append] at hnodup
  exact ⟨(List.nodup_append.mp hnodup).1, fun v hv => h.mem v (List.mem_append_left _ hv)⟩

end Others

/-- How a transaction can stand when no effect is awaited. -/
inductive Outcome where
  | waiting
  | committed
  | rollbacked
  deriving DecidableEq

/-- The outcome, without the reason of a rollback. -/
def XactStatus.outcome : XactStatus → Option Outcome
  | .waiting => some .waiting
  | .committed => some .committed
  | .rollbacked _ => some .rollbacked
  | _ => none

theorem outcome_finalOf {d : Decision Nat RollbackReason} :
    (XactStatus.finalOf d).outcome = some (match d with
      | .waiting => .waiting
      | .commit => .committed
      | .rollback _ _ => .rollbacked) := by
  cases d <;> rfl

/-- Decisions of the same kind have the same outcome. -/
theorem outcome_congr {d d' : Decision Nat RollbackReason} (hc : d' = .commit ↔ d = .commit)
    (hr : (∃ p r, d' = .rollback p r) ↔ ∃ p r, d = .rollback p r) :
    (XactStatus.finalOf d').outcome = (XactStatus.finalOf d).outcome := by
  cases d <;> cases d' <;> simp_all [XactStatus.finalOf, XactStatus.outcome]

/-- The code never errs and ends in `status`, when the execution is answered by `r`. -/
def EndsIn (x : Code XactType XactStatus) (r : Answer) (status : XactStatus) : Prop :=
  ∃ xact, (x XactType.default).run (answering r) = (.ok status, xact) ∧ xact.status = status

theorem XactType.Ended.endsIn {x : Code XactType XactStatus} {r : Answer}
    {d : Decision Nat RollbackReason} (h : XactType.Ended d ((x XactType.default).run (answering r))) :
    EndsIn x r (.finalOf d) := ⟨_, Prod.ext h.1 rfl, h.2⟩

/-- **When the `Prepare` comes among the votes does not matter.** For votes of distinct participants
other than the coordinator and the surrogate, every position of the `Prepare` leads to the same
status, reason included, and every order of the votes to the same outcome. -/
theorem prepare_position_irrelevant (id : XactId) (P : BitSet) (coordinator nodeId : NodeId)
    (hne : nodeId ≠ coordinator) (hmem : nodeId.toUsize ∈ P) (data : Bytes) (r : Answer)
    (V : List Vote) (hV : Others P coordinator nodeId V) :
    ∃ status outcome, status.outcome = some outcome ∧
      (∀ V₁ V₂, V₁ ++ V₂ = V →
        EndsIn (XactType.prepareAmong id nodeId coordinator P data V₁ V₂) r status) ∧
      ∀ W, V.Perm W → ∃ status', status'.outcome = some outcome ∧
        ∀ W₁ W₂, W₁ ++ W₂ = W →
          EndsIn (XactType.prepareAmong id nodeId coordinator P data W₁ W₂) r status' := by
  let opening : List (Nat × Option RollbackReason) :=
    [(coordinator.toUsize, none), (nodeId.toUsize, RollbackReason.ofAnswer r)]
  -- every position of the `Prepare` among `W` gives the ballot of `opening` and `W`
  have hrun : ∀ W, Others P coordinator nodeId W → ∀ W₁ W₂, W₁ ++ W₂ = W →
      EndsIn (XactType.prepareAmong id nodeId coordinator P data W₁ W₂) r
        (.finalOf (decision P (opening ++ W.map Vote.cast))) := by
    rintro W hW W₁ W₂ rfl
    let msg : PrepareMessage := { «from» := coordinator.val, xactId := id.val, data }
    have hover := hW.append_left.not_overrun hne (RollbackReason.ofAnswer r)
    exact (XactType.run_prepareAmong id msg r hne.symm hmem W₁ W₂ hover).endsIn
  have hcons : Consistent P (opening ++ V.map Vote.cast) :=
    consistent_of_nodup (hV.nodup_cast hne _)
  refine ⟨_, _, outcome_finalOf, hrun V hV, fun W hVW => ?_⟩
  obtain ⟨hcommit, hrollback⟩ := decision_congr hcons (opening ++ W.map Vote.cast)
    fun p _ o => ((hVW.map Vote.cast).append_left opening).mem_iff.symm
  refine ⟨_, ?_, hrun W (hV.perm hVW)⟩
  rw [outcome_congr hcommit hrollback]
  exact outcome_finalOf

/-- Four participants: the surrogate 1 of the coordinator 0 gets the no of 2 and the yes of 3, in
either order, before its `Prepare` or after it. -/
theorem prepare_position_irrelevant_four :
    ∃ status outcome, status.outcome = some outcome ∧
      (∀ V₁ V₂, V₁ ++ V₂ = [Vote.no ⟨2⟩ (.other "no"), Vote.yes ⟨3⟩] →
        EndsIn (XactType.prepareAmong ⟨1⟩ ⟨1⟩ ⟨0⟩ {0, 1, 2, 3} [] V₁ V₂) (.ok ()) status) ∧
      ∀ W, [Vote.no ⟨2⟩ (.other "no"), Vote.yes ⟨3⟩].Perm W →
        ∃ status', status'.outcome = some outcome ∧ ∀ W₁ W₂, W₁ ++ W₂ = W →
          EndsIn (XactType.prepareAmong ⟨1⟩ ⟨1⟩ ⟨0⟩ {0, 1, 2, 3} [] W₁ W₂) (.ok ()) status' := by
  have hothers : Others {0, 1, 2, 3} ⟨0⟩ ⟨1⟩ [Vote.no ⟨2⟩ (.other "no"), Vote.yes ⟨3⟩] :=
    ⟨by decide, by decide⟩
  exact prepare_position_irrelevant ⟨1⟩ {0, 1, 2, 3} ⟨0⟩ ⟨1⟩ (by decide) (by decide) [] (.ok ()) _
    hothers

end Sunstorm
