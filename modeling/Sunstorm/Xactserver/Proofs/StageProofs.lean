import Sunstorm.Await.Proofs.ProcProofs
import Sunstorm.Xactserver.Proofs.HandlerProofs

/-!
# Proofs: every state manager is in one of the stages

The stages are a contract of the handlers, so they hold of every state manager that can be reached,
whatever it is sent and whatever its effects are answered.
-/

namespace Sunstorm

open Await Tally

variable {id : XactId} {n : NodeId}

/-! ## Logs -/

theorem taken_concat (votes : List VoteMessage) (v : VoteMessage) :
    taken (votes ++ [v]) = taken votes ++ [.recv (.vote v)] := by
  simp [taken]

namespace Session

variable {S : Session n} {late : List VoteMessage}

theorem voting_nil : S.voting id [] = S.opened id ++ [.ret (S.broadcast id) (.ok ())] := by
  simp [voting, taken]

theorem voting_concat (v : VoteMessage) :
    S.voting id (late ++ [v]) = S.voting id late ++ [.recv (.vote v)] := by
  simp only [voting, taken_concat, List.append_assoc]

theorem ballot_concat (v : VoteMessage) : S.ballot (late ++ [v]) = S.ballot late ++ [v.cast] := by
  simp [ballot]

theorem ballot_nil : S.ballot [] = S.opening.votes n ++ S.early.map VoteMessage.cast := by
  simp [ballot]

theorem manager_status : (S.manager id late).xact.status = .ofDecision (S.decision late) :=
  XactType.status_xact

end Session

/-- The contract of a state manager: it is in one of the stages, and between two messages its
state is the one that its votes determine. -/
def stageContract (id : XactId) (n : NodeId) :
    Contract XactStateManager XsMessage Effect Answer Failure where
  idle s h :=
    (∃ early, s = .keeping id n early ∧ h = taken early) ∨
    ∃ (S : Session n) (late : List VoteMessage), S.decision late = .waiting ∧
      s = S.manager id late ∧ h = S.voting id late
  busy s h := Stage id n .busy s.xact.status h
  halted s why h := Stage id n (.halted why) s.xact.status h

theorem Stage.of_idle {s : XactStateManager} {h : XactLog} (hs : (stageContract id n).idle s h) :
    Stage id n .idle s.xact.status h := by
  rcases hs with ⟨early, rfl, rfl⟩ | ⟨S, late, hd, rfl, rfl⟩
  · exact .unknown early
  · rw [Session.manager_status, hd]
    exact .session S (.voting late hd)

/-- The end of the two handlers that can finish a transaction. -/
theorem safe_finishXact (id : XactId) (S : Session n) (late : List VoteMessage) (text : String) :
    ((XactStateManager.finishXact.mapFailure (Failure.context text)) (S.manager id late)).Safe
      (stageContract id n).busy (stageContract id n).result (S.voting id late) := by
  unfold Async.mapFailure
  by_cases hd : S.decision late = .waiting
  · rw [Session.manager, XactStateManager.finishXact_waiting hd]
    exact Or.inr ⟨S, late, hd, rfl, rfl⟩
  · obtain ⟨e, he⟩ : ∃ e, S.opening.closing id (S.decision late) = some e := by
      rw [← Option.ne_none_iff_exists']
      exact fun h => hd (Opening.closing_eq_none.mp h)
    obtain ⟨s, s', f, hs, hs', hfin⟩ := XactStateManager.finishXact_decided (n := n) he
    rw [Session.manager, hfin, Prog.bind_await, Prog.safe_await]
    constructor
    · show Stage id n .busy s.xact.status _
      rw [hs]
      exact .session S (.closing late e he)
    · intro r
      cases r with
      | error x =>
        show Stage id n (.halted (.failed _)) s.xact.status _
        rw [hs]
        exact .session S (.unclosed late e he x _)
      | ok u =>
        simp only [XactStateManager.labelled]
        cases hlabel : getRollbackReasonLabel (.finalOf (decision S.participants (S.ballot late))) with
        | ok label =>
          show Stage id n (.halted .finished) s'.xact.status _
          rw [hs']
          exact .session S (.closed late e he)
        | error failure =>
          show Stage id n (.halted (.failed _)) s'.xact.status _
          rw [hs']
          exact .session S (.unlabelled late e he failure _ hlabel)

/-- A vote is kept, or it is counted. -/
theorem safe_vote (v : VoteMessage) {s : XactStateManager} {h : XactLog}
    (hs : (stageContract id n).idle s h) :
    (XactStateManager.handle (.vote v) s).Safe (stageContract id n).busy
      (stageContract id n).result (h ++ [.recv (.vote v)]) := by
  rcases hs with ⟨early, rfl, rfl⟩ | ⟨S, late, hd, rfl, rfl⟩
  · rw [XactStateManager.handle_vote_keeping, ← taken_concat]
    exact Or.inl ⟨_, rfl, rfl⟩
  · have hcommit : decision S.participants (S.ballot late) ≠ .commit := by
      rw [show decision S.participants (S.ballot late) = .waiting from hd]
      simp
    rw [Session.manager, XactStateManager.handle_vote_counting hcommit, ← Session.ballot_concat,
      ← Session.voting_concat]
    exact safe_finishXact id S (late ++ [v]) _

/-- A handler that ends the state manager. -/
theorem safe_halt {r : Except Failure Bool} {s : XactStateManager} {h : XactLog}
    (hr : r ≠ .ok false)
    (hs : ∀ why, why ≠ .cancelled → Stage id n (.halted why) s.xact.status h) :
    Prog.Safe (stageContract id n).busy (stageContract id n).result (.done (r, s)) h := by
  cases r with
  | error e => exact hs _ (by simp)
  | ok b =>
    cases b with
    | false => exact absurd rfl hr
    | true => exact hs _ (by simp)

/-- A message that is refused. -/
theorem safe_refused (early : List VoteMessage) {m : XsMessage} (hm : m.Refused n) :
    (XactStateManager.handle m (.keeping id n early)).Safe (stageContract id n).busy
      (stageContract id n).result (taken early ++ [.recv m]) := by
  obtain ⟨r, s', hhandle, hr, hxact⟩ :=
    XactStateManager.handle_refused hm (s := .keeping id n early) rfl
  rw [hhandle]
  refine safe_halt hr fun why hwhy => ?_
  rw [hxact]
  exact .refused early m hm why hwhy

/-- The coordinator opens its ballot. -/
theorem safe_local (early : List VoteMessage) (data : Bytes) (tx : Sender) :
    (XactStateManager.handle (.localXact data tx) (.keeping id n early)).Safe
      (stageContract id n).busy (stageContract id n).result
      (taken early ++ [.recv (.localXact data tx)]) := by
  cases hP : RWSet.participantsIn data with
  | none => exact safe_refused early (m := .localXact data tx) hP
  | some P =>
    by_cases hd : decision P ((Opening.coordinator data tx).votes n ++ early.map VoteMessage.cast) =
        .waiting
    · let S : Session n :=
        { early, opening := .coordinator data tx, participants := P, decoded := hP, announced := hd
          foreign := by simp }
      have hS : S.ballot [] = (Opening.coordinator data tx).votes n ++ early.map VoteMessage.cast :=
        Session.ballot_nil
      have hwait : S.decision [] = .waiting := by rw [Session.decision, hS]; exact hd
      have hopened : S.opened id = taken early ++ [.recv (.localXact data tx)] ++
          [.call (S.broadcast id)] := by simp [S, Session.opened, Opening.message, Opening.executed]
      rw [XactStateManager.handle_local_announced hP hd, ← hS, Prog.safe_await]
      constructor
      · show Stage id n .busy (S.manager id []).xact.status (taken early ++ _ ++
          [.call (S.broadcast id)])
        rw [← hopened, Session.manager_status]
        exact .session S .announcing
      · intro r
        cases r with
        | ok u =>
          refine Or.inr ⟨S, [], hwait, rfl, ?_⟩
          rw [Session.voting_nil, hopened]
          rfl
        | error x =>
          show Stage id n (.halted (.failed _)) (S.manager id []).xact.status (taken early ++ _ ++
            [.call (S.broadcast id)] ++ [.ret (S.broadcast id) (.error x)])
          rw [← hopened, Session.manager_status]
          exact .session S (.unannounced x _)
    · obtain ⟨f, hhandle⟩ := XactStateManager.handle_local_decided id hP hd
      rw [hhandle]
      show Stage id n (.halted (.failed f)) (XactStateManager.counting _ _ _ _ _).xact.status _
      rw [XactStateManager.counting_status]
      exact .decided early data tx P hP _ rfl hd f

/-- A surrogate opens its ballot. -/
theorem safe_prepare (early : List VoteMessage) (msg : PrepareMessage)
    (hfrom : (⟨msg.from⟩ : NodeId) ≠ n) :
    (XactStateManager.handle (.prepare msg) (.keeping id n early)).Safe
      (stageContract id n).busy (stageContract id n).result
      (taken early ++ [.recv (.prepare msg)]) := by
  by_cases hm : (XsMessage.prepare msg).Refused n
  · exact safe_refused early hm
  · obtain ⟨P, hP, hn⟩ : ∃ P, RWSet.participantsIn msg.data = some P ∧ n.toUsize ∈ P := by
      by_contra hno
      refine hm fun P hP hn => hno ⟨P, hP, hn⟩
    rw [XactStateManager.handle_prepare_announced hP hn hfrom, Prog.safe_await]
    constructor
    · show Stage id n .busy (XactStateManager.counting _ _ _ _ _).xact.status _
      rw [XactStateManager.counting_status, XactState.decision_coordinator_waiting hfrom.symm hn]
      exact .executing early msg P hP hn hfrom
    · intro r
      have hlog : taken early ++ [.recv (.prepare msg)] ++ [.call (.execute id msg.data)] ++
          [.ret (.execute id msg.data) r] =
          taken early ++ [.recv (.prepare msg)] ++ (Opening.surrogate msg r).executed id := by
        simp [Opening.executed]
      rw [hlog]
      by_cases hover : Overrun P ((Opening.surrogate msg r).votes n) (early.map VoteMessage.cast)
      · simp only [if_pos hover]
        show Stage id n (.halted (.failed _)) (XactStateManager.counting _ _ _ _ _).xact.status _
        rw [XactStateManager.counting_status, hover.commit]
        exact .overrun early msg P hP hn hfrom r hover _
      · let S : Session n :=
          { early, opening := .surrogate msg r, participants := P, decoded := hP
            announced := ⟨hn, hover⟩
            foreign := fun msg' r' h => (Opening.surrogate.inj h).1 ▸ hfrom }
        have hS : S.ballot [] = (Opening.surrogate msg r).votes n ++ early.map VoteMessage.cast :=
          Session.ballot_nil
        have hopened : S.opened id = taken early ++ [.recv (.prepare msg)] ++
            (Opening.surrogate msg r).executed id ++ [.call (S.broadcast id)] := rfl
        simp only [if_neg hover]
        rw [← hS, Prog.safe_await]
        constructor
        · show Stage id n .busy (S.manager id []).xact.status (taken early ++ _ ++ _ ++
            [.call (S.broadcast id)])
          rw [← hopened, Session.manager_status]
          exact .session S .announcing
        · intro a
          cases a with
          | ok u =>
            have hvoting : S.voting id [] = taken early ++ [.recv (.prepare msg)] ++
                (Opening.surrogate msg r).executed id ++ [.call (S.broadcast id)] ++
                [.ret (S.broadcast id) (.ok ())] := by rw [Session.voting_nil, hopened]
            have hfin := safe_finishXact id S [] "failed to handle prepare msg"
            rw [hvoting] at hfin
            exact hfin
          | error x =>
            show Stage id n (.halted (.failed _)) (S.manager id []).xact.status (taken early ++ _ ++
              _ ++ [.call (S.broadcast id)] ++ [.ret (S.broadcast id) (.error x)])
            rw [← hopened, Session.manager_status]
            exact .session S (.unannounced x _)

/-- A second opening. -/
theorem safe_reopened (S : Session n) (late : List VoteMessage) (hd : S.decision late = .waiting)
    {m : XsMessage} (hm : m.opens = true) :
    (XactStateManager.handle m (S.manager id late)).Safe (stageContract id n).busy
      (stageContract id n).result (S.voting id late ++ [.recv m]) := by
  obtain ⟨r, s', hhandle, hr, hstatus⟩ :=
    XactStateManager.handle_reopened S.opening id n S.participants (S.ballot late) hm
  rw [Session.manager, hhandle]
  refine safe_halt hr fun why hwhy => ?_
  have hstatus' : s'.xact.status = .uninitialized ∨ s'.xact.status = .waiting := by
    rw [XactStateManager.counting_status] at hstatus
    rw [show decision S.participants (S.ballot late) = .waiting from hd] at hstatus
    exact hstatus
  exact .session S (.reopened late hd m hm _ hstatus' why hwhy)

/-- The stages are a contract that every handler keeps. -/
theorem stageContract_sound (id : XactId) (n : NodeId) :
    (stageContract id n).Sound XactStateManager.handle (XsMessage.Foreign n)
      (XactStateManager.new id n) where
  start := Or.inl ⟨[], rfl, rfl⟩
  handle := by
    intro m s h hm hs
    cases m with
    | vote v => exact safe_vote v hs
    | localXact data tx =>
      rcases hs with ⟨early, rfl, rfl⟩ | ⟨S, late, hd, rfl, rfl⟩
      · exact safe_local early data tx
      · exact safe_reopened S late hd rfl
    | prepare msg =>
      rcases hs with ⟨early, rfl, rfl⟩ | ⟨S, late, hd, rfl, rfl⟩
      · exact safe_prepare early msg hm
      · exact safe_reopened S late hd rfl
  cancel_idle := fun s h hs => .stopped (by simp) (Stage.of_idle hs)
  cancel_busy := fun s h hs => .stopped (by simp) hs

/-- **Every state manager is in one of the stages**, whatever messages it got, in whatever order,
and whatever its effects were answered. -/
theorem stage_of_reach {p : XactProc}
    (hp : Proc.Reach XactStateManager.handle (XsMessage.Foreign n) (XactStateManager.new id n) p) :
    Stage id n (Point.ofTask p.task) (XactProc.status p) p.log := by
  have hkept := Contract.kept_of_reach (stageContract_sound id n) hp
  unfold Contract.Kept at hkept
  unfold XactProc.status
  cases ht : p.task with
  | idle s =>
    rw [ht] at hkept
    exact Stage.of_idle hkept
  | busy s e k =>
    rw [ht] at hkept
    exact hkept.1
  | halted s why =>
    rw [ht] at hkept
    exact hkept

end Sunstorm
