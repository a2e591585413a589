import Sunstorm.Await.Proofs.StepProofs
import Sunstorm.Xactserver.Lifecycle
import Sunstorm.Xactserver.Proofs.FormatProofs
import Sunstorm.Xactserver.Proofs.StageProofs

/-!
# Proofs: the life of a state manager

Every handler keeps a contract about the timer, the id of the coordinator and the codes that were
kept. It is put together from one specification for each function, whoever sends the messages and
whatever the effects are answered.
-/

namespace Sunstorm

open Await

/-! ## Codes and failures -/

theorem RollbackReason.textual_ofError (e : AnyhowError) : (ofError e).Textual := by
  unfold ofError
  cases e.cause with
  | msg text => trivial
  | pg err =>
    simp only [ofPgError]
    cases err.asDbError with
    | none => trivial
    | some dbError => exact Option.isSome_iff_exists.mpr ⟨_, fromUTF8?_toUTF8 dbError.code⟩

theorem Failure.not_isUnwrap_of_noPanic {f : Failure} (h : NoPanic f) : ¬ f.IsUnwrap := by
  rintro (rfl | rfl) <;> exact absurd h (by simp [NoPanic, Failure.isPanic])

theorem Failure.isUnwrap_context {f : Failure} {text : String} :
    (f.context text).IsUnwrap ↔ f.IsUnwrap := by
  cases f with
  | err e => simp [Failure.context, Failure.IsUnwrap]
  | panic t => rfl

/-- The status is not final, and its code is textual. -/
def XactStatus.Pending (status : XactStatus) : Prop := status.Textual ∧ status.isTerminal = false

/-! ## The state of a transaction -/

namespace XactState

variable {C : Type} {self : XactState C} {h : XactLog}

/-- What `add_vote` can do to the state. -/
theorem addVote_cases (self : XactState C) (vote : Vote) :
    (∃ f, self.addVote vote = .error f ∧ NoPanic f) ∨ ∃ s, self.addVote vote = .ok s ∧
      (s.status = self.status ∨ s.status = .committing ∨
        ∃ reason, vote.rollbackReason = some reason ∧ s.status = .rollbacking ⟨vote.from, reason⟩) := by
  unfold addVote
  by_cases hcommit : self.status = .committing ∨ self.status = .committed
  · rw [if_pos hcommit]
    exact Or.inl ⟨_, rfl, rfl⟩
  · rw [if_neg hcommit]
    right
    by_cases hmember : vote.from.toUsize ∉ self.participants
    · rw [if_pos hmember]
      exact ⟨_, rfl, Or.inl rfl⟩
    · rw [if_neg hmember]
      by_cases hwaiting : self.status ≠ .waiting
      · rw [if_pos hwaiting]
        exact ⟨_, rfl, Or.inl rfl⟩
      · rw [if_neg hwaiting]
        cases hreason : vote.rollbackReason with
        | some reason => exact ⟨_, rfl, Or.inr (Or.inr ⟨reason, rfl, rfl⟩)⟩
        | none =>
          simp only
          split_ifs
          · exact ⟨_, rfl, Or.inl rfl⟩
          · exact ⟨_, rfl, Or.inr (Or.inl rfl)⟩
          · exact ⟨_, rfl, Or.inl rfl⟩

theorem addVote_pending (hself : self.status.Pending) {vote : Vote} (hvote : vote.Textual) :
    (∃ f, self.addVote vote = .error f ∧ NoPanic f) ∨
      ∃ s, self.addVote vote = .ok s ∧ s.status.Pending := by
  rcases addVote_cases self vote with hf | ⟨s, hs, hsame | hcommitting | ⟨reason, hreason, hno⟩⟩
  · exact Or.inl hf
  · exact Or.inr ⟨s, hs, by rw [hsame]; exact hself⟩
  · exact Or.inr ⟨s, hs, by rw [hcommitting]; exact ⟨trivial, rfl⟩⟩
  · exact Or.inr ⟨s, hs, by rw [hno]; exact ⟨hvote reason hreason, rfl⟩⟩

theorem addVotes_pending (hself : self.status.Pending) {votes : List Vote}
    (hvotes : ∀ vote ∈ votes, vote.Textual) :
    (self.addVotes votes).2.status.Pending ∧
      ∀ f, (self.addVotes votes).1 = .error f → NoPanic f := by
  induction votes generalizing self with
  | nil =>
    refine ⟨hself, ?_⟩
    intro f hf
    exact absurd hf (by simp [addVotes])
  | cons vote votes ih =>
    have hrest : ∀ v ∈ votes, v.Textual := fun v hv => hvotes v (List.mem_cons_of_mem vote hv)
    unfold addVotes
    rcases addVote_pending hself (hvotes vote List.mem_cons_self) with ⟨f, hf, hpanic⟩ | ⟨s, hs, hp⟩
    · rw [hf]
      refine ⟨hself, ?_⟩
      intro f' hf'
      rw [← Except.error.inj hf']
      exact hpanic
    · rw [hs]
      exact ih hp hrest

/-- A controller leaves the rest of the state alone. -/
theorem safe_withController (x : Async C Effect Answer AnyhowError Unit) (self : XactState C) :
    (withController x self).Safe (fun s _ => s.status = self.status)
      (fun a _ => a.2.status = self.status) h := by
  unfold withController
  rw [Async.safe_within]
  exact Prog.safe_of_forall (fun _ _ => rfl) (fun _ _ => rfl) _ _

/-- What a function on the state may end with: the status that it returns is that of the state, and
it does not panic. -/
def Ends (a : Except Failure XactStatus × XactState C) : Prop :=
  (∀ status, a.1 = .ok status → status = a.2.status) ∧ ∀ f, a.1 = .error f → NoPanic f

theorem ends_ok (s : XactState C) : Ends (.ok s.status, s) := by
  constructor
  · intro status hstatus
    exact (Except.ok.inj hstatus).symm
  · intro f hf
    exact absurd hf (by simp)

theorem ends_error {f : Failure} (hf : NoPanic f) (s : XactState C) : Ends (.error f, s) := by
  constructor
  · intro status hstatus
    exact absurd hstatus (by simp)
  · intro f' hf'
    rw [← Except.error.inj hf']
    exact hf

theorem safe_addVote (hself : self.status.Pending) (vote : XactState C → Vote)
    (hvote : (vote self).Textual) :
    ((Async.update fun s => s.addVote (vote s) : Code (XactState C) Unit) self).Safe
      (fun s _ => s.status.Pending)
      (fun a _ => a.2.status.Pending ∧ ∀ f, a.1 = .error f → NoPanic f) h := by
  rw [Async.safe_update]
  rcases addVote_pending hself hvote with ⟨f, hf, hpanic⟩ | ⟨s, hs, hp⟩
  · rw [hf]
    constructor
    · intro t ht
      exact absurd ht (by simp)
    · intro f' hf'
      rw [← Except.error.inj hf']
      refine ⟨hself, ?_⟩
      intro f'' hf''
      rw [← Except.error.inj hf'']
      exact hpanic
  · rw [hs]
    constructor
    · intro t ht
      rw [← Except.ok.inj ht]
      exact ⟨hp, fun f hf => absurd hf (by simp)⟩
    · intro f hf
      exact absurd hf (by simp)

/-- The end of `initialize`: the votes kept so far are counted. -/
def countKept (votes : List Vote) : Code (XactState C) XactStatus := fun self =>
  match self.addVotes votes with
  | (.ok (), self) => .done (.ok self.status, self)
  | (.error e, self) => .done (.error e, self)

/-- Before that, the vote of the node is counted. -/
def countOwn (votes : List Vote) (reason : Option RollbackReason) :
    Code (XactState C) XactStatus := do
  Async.update fun self => self.addVote ⟨self.nodeId, reason⟩
  countKept votes

theorem safe_countKept (hself : self.status.Pending) {votes : List Vote}
    (hvotes : ∀ vote ∈ votes, vote.Textual) :
    (countKept votes self).Safe (fun s _ => s.status.Pending)
      (fun a _ => a.2.status.Pending ∧ Ends a) h := by
  obtain ⟨hp, hpanic⟩ := addVotes_pending hself hvotes
  unfold countKept
  cases hadd : self.addVotes votes with
  | mk r s =>
    rw [hadd] at hp hpanic
    cases r with
    | ok u => exact ⟨hp, ends_ok s⟩
    | error f => exact ⟨hp, ends_error (hpanic f rfl) s⟩

theorem safe_countOwn (hself : self.status.Pending) {votes : List Vote}
    (hvotes : ∀ vote ∈ votes, vote.Textual) {reason : Option RollbackReason}
    (hreason : ∀ r, reason = some r → r.Textual) :
    (countOwn votes reason self).Safe (fun s _ => s.status.Pending)
      (fun a _ => a.2.status.Pending ∧ Ends a) h := by
  unfold countOwn
  rw [Async.safe_bind]
  refine (safe_addVote hself (fun s => ⟨s.nodeId, reason⟩) hreason).mono (fun _ _ hs => hs)
    fun a h' ha => ?_
  obtain ⟨r, s⟩ := a
  obtain ⟨hs, hpanic⟩ := ha
  cases r with
  | ok u => exact safe_countKept hs hvotes
  | error f => exact ⟨hs, ends_error (hpanic f rfl) s⟩

/-- A decision is carried out, and its end is the new status. -/
theorem safe_carry (hself : self.status.Pending) (x : Async C Effect Answer AnyhowError Unit)
    (text : String) {status : XactStatus} (hstatus : status.Textual) :
    ((do
      (withController x).mapFailure fun e => .err (e.context text)
      Async.modify fun self => { self with status }
      return (← Async.get).status : Code (XactState C) XactStatus) self).Safe
      (fun s _ => s.status.Pending)
      (fun a _ => a.2.status.Textual ∧ Ends a ∧ ∀ f, a.1 = .error f → a.2.status.Pending) h := by
  rw [Async.safe_bind, Async.safe_mapFailure]
  have hkept : ∀ s : XactState C, s.status = self.status → s.status.Pending := by
    intro s hs
    rw [hs]
    exact hself
  refine (safe_withController x self).mono (fun s _ hs => hkept s hs) fun a h' ha => ?_
  obtain ⟨r, s⟩ := a
  have hs : s.status.Pending := hkept s ha
  cases r with
  | ok u => exact ⟨hstatus, ends_ok { s with status }, fun f hf => absurd hf (by simp)⟩
  | error e =>
    have hf : NoPanic (.err (e.context text)) := rfl
    exact ⟨hs.1, ends_error hf s, fun _ _ => hs⟩

variable [XactController C]

theorem safe_executeReason (self : XactState C) :
    (executeReason self).Safe (fun s _ => s.status = self.status)
      (fun a _ => a.2.status = self.status ∧
        ∃ r, a.1 = .ok r ∧ ∀ reason, r = some reason → reason.Textual) h := by
  unfold executeReason
  rw [Async.safe_bind, Async.safe_attempt]
  refine (safe_withController _ self).mono (fun _ _ hs => hs) fun a h' ha => ?_
  obtain ⟨r, s⟩ := a
  cases r with
  | ok u =>
    refine ⟨ha, none, rfl, ?_⟩
    intro reason hreason
    exact absurd hreason (by simp)
  | error e =>
    refine ⟨ha, _, rfl, ?_⟩
    intro reason hreason
    rw [← Option.some.inj hreason]
    exact RollbackReason.textual_ofError e

theorem safe_initializeXact (hself : self.status = .uninitialized) {votes : List Vote}
    (hvotes : ∀ vote ∈ votes, vote.Textual) :
    (initializeXact votes self).Safe (fun s _ => s.status.Pending)
      (fun a _ => a.2.status.Pending ∧ Ends a) h := by
  have hwaiting : ({ self with status := .waiting } : XactState C).status.Pending := ⟨trivial, rfl⟩
  by_cases hne : self.nodeId ≠ self.coordinator
  · have hinit : initializeXact votes self =
        (do
          Async.update fun self => self.addVote (Vote.yes self.coordinator)
          countOwn votes (← executeReason) : Code (XactState C) XactStatus)
          { self with status := .waiting } := by
      simp [initializeXact, Async.ensure, Async.get, Async.modify, bind, pure, hself, hne]
      rfl
    rw [hinit, Async.safe_bind]
    refine (safe_addVote hwaiting (fun s => Vote.yes s.coordinator) ?_).mono (fun _ _ hs => hs)
      fun a h' ha => ?_
    · exact fun r hr => absurd hr (by simp [Vote.yes])
    obtain ⟨r, s⟩ := a
    obtain ⟨hs, hpanic⟩ := ha
    cases r with
    | error f => exact ⟨hs, ends_error (hpanic f rfl) s⟩
    | ok u =>
      show ((executeReason >>= countOwn votes) s).Safe _ _ h'
      rw [Async.safe_bind]
      refine (safe_executeReason s).mono (fun t _ ht => by rw [ht]; exact hs) fun a h'' ha => ?_
      obtain ⟨r, t⟩ := a
      obtain ⟨ht, reason, rfl, hreason⟩ := ha
      exact safe_countOwn (by rw [ht]; exact hs) hvotes hreason
  · have hinit : initializeXact votes self = countOwn votes none { self with status := .waiting } := by
      simp [initializeXact, Async.ensure, Async.get, Async.modify, bind, pure, hself, hne]
      rfl
    rw [hinit]
    exact safe_countOwn hwaiting hvotes fun r hr => absurd hr (by simp)

theorem safe_tryFinish (hself : self.status.Pending) :
    (tryFinish self).Safe (fun s _ => s.status.Pending)
      (fun a _ => a.2.status.Textual ∧ Ends a ∧ ∀ f, a.1 = .error f → a.2.status.Pending) h := by
  have hkeeps : Prog.Safe (fun (s : XactState C) (_ : XactLog) => s.status.Pending)
      (fun a _ => a.2.status.Textual ∧ Ends a ∧ ∀ f, a.1 = .error f → a.2.status.Pending)
      (.done (.ok self.status, self)) h :=
    ⟨hself.1, ends_ok self, fun _ _ => hself⟩
  unfold tryFinish
  rw [Async.safe_bind]
  simp only [Async.get, Prog.safe_done, Async.After]
  cases hstatus : self.status with
  | committing => exact safe_carry hself _ _ trivial
  | rollbacking info =>
    refine safe_carry hself _ _ ?_
    have htext := hself.1
    rw [hstatus] at htext
    exact htext
  | _ => exact hkeeps

end XactState

/-! ## A transaction of either kind -/

namespace XactType

variable {self : XactType} {h : XactLog}

/-- The transaction is not finished, and gives textual codes only. -/
def Pending (self : XactType) : Prop := self.Textual ∧ self.status.isTerminal = false

theorem Textual.status (hself : self.Textual) : self.status.Textual := by
  cases self with
  | unknown votes => trivial
  | localXact xact => exact hself
  | surrogate xact => exact hself

/-- What a function on the transaction may end with: the status that it returns is that of the
transaction, and no `unwrap` has failed. -/
def Ends (a : Except Failure XactStatus × XactType) : Prop :=
  (∀ status, a.1 = .ok status → status = a.2.status) ∧ ∀ f, a.1 = .error f → ¬ f.IsUnwrap

theorem addVote_pending (hself : self.Pending) {vote : Vote} (hvote : vote.Textual) :
    (∃ f, self.addVote vote = .error f ∧ NoPanic f) ∨
      ∃ xact, self.addVote vote = .ok xact ∧ xact.Pending := by
  cases self with
  | unknown votes =>
    refine Or.inr ⟨_, rfl, fun v hv => ?_, rfl⟩
    rcases List.mem_append.mp hv with hv | hv
    · exact hself.1 v hv
    · rw [List.mem_singleton.mp hv]
      exact hvote
  | localXact xact =>
    rcases XactState.addVote_pending hself hvote with ⟨f, hf, hpanic⟩ | ⟨s, hs, hp⟩
    · simp only [addVote, hf]
      exact Or.inl ⟨_, rfl, noPanic_context _ hpanic⟩
    · simp only [addVote, hs]
      exact Or.inr ⟨_, rfl, hp⟩
  | surrogate xact =>
    rcases XactState.addVote_pending hself hvote with ⟨f, hf, hpanic⟩ | ⟨s, hs, hp⟩
    · simp only [addVote, hf]
      exact Or.inl ⟨_, rfl, noPanic_context _ hpanic⟩
    · simp only [addVote, hs]
      exact Or.inr ⟨_, rfl, hp⟩

theorem pending_wrap {C : Type} {wrap : XactState C → XactType}
    (hstatus : ∀ s, (wrap s).status = s.status)
    (htext : ∀ s, s.status.Textual → (wrap s).Textual) (s : XactState C) (hs : s.status.Pending) :
    (wrap s).Pending := by
  refine ⟨htext s hs.1, ?_⟩
  rw [hstatus]
  exact hs.2

/-- Opening the ballot: the first time it is initialised, the second time it is unreachable. -/
theorem safe_initAs {C : Type} [XactController C] (wrap : XactState C → XactType)
    (hstatus : ∀ s, (wrap s).status = s.status)
    (htext : ∀ s, s.status.Textual → (wrap s).Textual) {newState : XactState C}
    (hnew : newState.status = .uninitialized) (hself : self.Textual) :
    (initAs wrap newState self).Safe (fun xact _ => xact.Pending)
      (fun a _ => a.2.Pending ∧ Ends a) h := by
  have hpending : ∀ s, s.status.Pending → (wrap s).Pending := pending_wrap hstatus htext
  have hagain : Prog.Safe (fun (xact : XactType) (_ : XactLog) => xact.Pending)
      (fun a _ => a.2.Pending ∧ Ends a) (.done (.error unreachable, wrap newState)) h := by
    refine ⟨hpending _ (by rw [hnew]; exact ⟨trivial, rfl⟩),
      fun status hs => absurd hs (by simp), fun f hf => ?_⟩
    rw [← Except.error.inj hf]
    simp [unreachable, Failure.IsUnwrap]
  cases self with
  | unknown votes =>
    show ((XactState.initializeXact votes).within wrap newState (.unknown votes)).Safe _ _ h
    rw [Async.safe_within]
    refine (XactState.safe_initializeXact hnew hself).mono (fun s _ hs => hpending s hs)
      fun a _ ha => ⟨hpending _ ha.1, fun status hs => ?_, fun f hf => ?_⟩
    · rw [hstatus]
      exact ha.2.1 status hs
    · exact Failure.not_isUnwrap_of_noPanic (ha.2.2 f hf)
  | localXact xact => exact hagain
  | surrogate xact => exact hagain

/-- Finishing the transaction, for either kind. -/
theorem safe_tryFinishAs {C : Type} [XactController C] (wrap : XactState C → XactType)
    (hstatus : ∀ s, (wrap s).status = s.status)
    (htext : ∀ s, s.status.Textual → (wrap s).Textual) {xact : XactState C}
    (hxact : xact.status.Pending) (text : String) :
    (((Async.within wrap xact XactState.tryFinish).mapFailure (Failure.context text) :
        Code XactType XactStatus) self).Safe (fun xact _ => xact.Pending)
      (fun a _ => a.2.Textual ∧ Ends a ∧ ∀ f, a.1 = .error f → a.2.Pending) h := by
  have hpending : ∀ s, s.status.Pending → (wrap s).Pending := pending_wrap hstatus htext
  rw [Async.safe_mapFailure, Async.safe_within]
  refine (XactState.safe_tryFinish hxact).mono (fun s _ hs => hpending s hs) fun a _ ha => ?_
  obtain ⟨r, s⟩ := a
  obtain ⟨hs, hends, hfails⟩ := ha
  refine ⟨htext s hs, ⟨fun status hok => ?_, fun f hf => ?_⟩, fun f hf => ?_⟩
  · cases r with
    | ok status' =>
      rw [hstatus]
      exact hends.1 status hok
    | error f => exact absurd hok (by simp [Except.mapError])
  · cases r with
    | ok status' => exact absurd hf (by simp [Except.mapError])
    | error f' =>
      rw [← Except.error.inj hf, Failure.isUnwrap_context]
      exact Failure.not_isUnwrap_of_noPanic (hends.2 f' rfl)
  · cases r with
    | ok status' => exact absurd hf (by simp [Except.mapError])
    | error f' => exact hpending s (hfails f' rfl)

theorem safe_tryFinish (hself : self.Pending) :
    (tryFinish self).Safe (fun xact _ => xact.Pending)
      (fun a _ => a.2.Textual ∧ Ends a ∧ ∀ f, a.1 = .error f → a.2.Pending) h := by
  cases self with
  | unknown votes =>
    exact ⟨hself.1, ⟨fun status hs => (Except.ok.inj hs).symm, fun f hf => absurd hf (by simp)⟩,
      fun f hf => absurd hf (by simp)⟩
  | localXact xact => exact safe_tryFinishAs .localXact (fun _ => rfl) (fun _ hs => hs) hself _
  | surrogate xact => exact safe_tryFinishAs .surrogate (fun _ => rfl) (fun _ hs => hs) hself _

end XactType

/-! ## The state manager -/

/-- A transaction that is finished has a label. -/
theorem getRollbackReasonLabel_terminal {status : XactStatus} (htext : status.Textual)
    (hterminal : status.isTerminal = true) :
    ∃ label, getRollbackReasonLabel status = .ok (some label) := by
  cases status with
  | committed => exact ⟨_, rfl⟩
  | rollbacked info =>
    obtain ⟨node, reason⟩ := info
    cases reason with
    | other err => exact ⟨_, rfl⟩
    | db err =>
      obtain ⟨code, hcode⟩ := Option.isSome_iff_exists.mp htext
      simp only [getRollbackReasonLabel, hcode]
      split_ifs <;> exact ⟨_, rfl⟩
  | _ => exact absurd hterminal (by simp [XactStatus.isTerminal])

theorem getRollbackReasonLabel_pending {status : XactStatus}
    (hpending : status.isTerminal = false) : getRollbackReasonLabel status = .ok none := by
  cases status with
  | committed => exact absurd hpending (by simp [XactStatus.isTerminal])
  | rollbacked info => exact absurd hpending (by simp [XactStatus.isTerminal])
  | _ => rfl

namespace XactStateManager

/-- The transaction is not finished, and neither is its measurement. -/
structure Going (s : XactStateManager) : Prop where
  pending : s.xact.Pending
  unfinished : ∀ m ∈ s.measured, m.isFinished = false

/-- The measurement was started. -/
def Timed (self : XactStateManager) : Prop :=
  ∃ coordinator, self.coordinatorId = some coordinator ∧ self.totalDurationTimer = some () ∧
    .started coordinator ∈ self.measured

/-- The transaction is finished, and its measurement ended with it. -/
def Over (self : XactStateManager) : Prop :=
  self.xact.status.isTerminal = true ∧ ∃ l coordinator label,
    self.measured = l ++ [.finished coordinator label] ∧ .started coordinator ∈ l ∧
    ∀ m ∈ l, m.isFinished = false

/-- The contract of a state manager about its measurement. -/
def lifecycle : Contract XactStateManager XsMessage Effect Answer Failure where
  idle self _ := self.Going ∧ (self.Timed ∨ ∃ votes, self.xact = .unknown votes)
  busy self _ := self.Going
  halted self why _ :=
    (self.Going ∧ ∀ f, why = .failed f → ¬ f.IsUnwrap) ∨ (self.Over ∧ why = .finished)

variable {self : XactStateManager} {h : XactLog}

theorem Going.fails (hself : self.Going) {f : Failure} (hf : ¬ f.IsUnwrap) :
    lifecycle.result (.error f, self) h := by
  refine Or.inl ⟨hself, ?_⟩
  intro f' hf'
  rw [← Halt.failed.inj hf']
  exact hf

/-- The context that `run` adds to an error changes nothing. -/
theorem safe_context {x : Code XactStateManager Bool} (text : String)
    (hx : (x self).Safe lifecycle.busy lifecycle.result h) :
    ((x.mapFailure (Failure.context text)) self).Safe lifecycle.busy lifecycle.result h := by
  rw [Async.safe_mapFailure]
  refine hx.mono (fun _ _ hs => hs) fun a h' ha => ?_
  obtain ⟨r, s⟩ := a
  cases r with
  | ok b => exact ha
  | error f =>
    rcases ha with ⟨hgoing, hf⟩ | ⟨-, hwhy⟩
    · exact hgoing.fails (fun hu => hf f rfl (Failure.isUnwrap_context.mp hu))
    · exact absurd hwhy (by simp)

theorem safe_withXact {α : Type} {J : XactStateManager → XactLog → Prop}
    {Q : Except Failure α × XactStateManager → XactLog → Prop} (x : Code XactType α) :
    ((withXact x) self).Safe J Q h ↔
      (x self.xact).Safe (fun xact => J { self with xact }) (fun a => Q (a.1, { self with xact := a.2 }))
        h := Async.safe_within _ _ _

/-- `end_xact_measurement` finds what `begin_xact_measurement` has set. -/
theorem endXactMeasurement_timed (hself : self.Timed) (label : String) :
    ∃ coordinator, .started coordinator ∈ self.measured ∧ endXactMeasurement label self =
      .done (.ok (), { self with
        totalDurationTimer := none
        measured := self.measured ++ [.finished coordinator label] }) := by
  obtain ⟨coordinator, hcoordinator, htimer, hstarted⟩ := hself
  refine ⟨coordinator, hstarted, ?_⟩
  simp [endXactMeasurement, bind, Async.get, Async.lift, Async.modify, hcoordinator, htimer, unwrap]

/-- The end of the handlers: the measurement ends if the transaction is finished. -/
theorem safe_finishXact (hself : self.Going) (htimed : self.Timed) :
    (finishXact self).Safe lifecycle.busy lifecycle.result h := by
  unfold finishXact
  rw [Async.safe_bind, safe_withXact]
  refine (XactType.safe_tryFinish hself.pending).mono
    (fun xact _ hxact => ⟨hxact, hself.unfinished⟩) fun a h' ha => ?_
  obtain ⟨r, xact⟩ := a
  obtain ⟨htext, hends, hfails⟩ := ha
  cases r with
  | error f =>
    have hgoing : ({ self with xact } : XactStateManager).Going := ⟨hfails f rfl, hself.unfinished⟩
    exact hgoing.fails (hends.2 f rfl)
  | ok status =>
    obtain rfl : status = xact.status := hends.1 status rfl
    show Prog.Safe _ _ ((Async.lift (getRollbackReasonLabel xact.status) >>= _) { self with xact }) h'
    cases hterminal : xact.status.isTerminal with
    | false =>
      rw [getRollbackReasonLabel_pending hterminal]
      exact ⟨⟨⟨htext, hterminal⟩, hself.unfinished⟩, Or.inl htimed⟩
    | true =>
      obtain ⟨label, hlabel⟩ := getRollbackReasonLabel_terminal htext.status hterminal
      have htimed' : ({ self with xact } : XactStateManager).Timed := htimed
      obtain ⟨coordinator, hstarted, hfinish⟩ := endXactMeasurement_timed htimed' label
      rw [hlabel]
      show Prog.Safe _ _ ((endXactMeasurement label >>= _) { self with xact }) h'
      rw [Async.safe_bind, hfinish]
      exact Or.inr ⟨⟨hterminal, _, coordinator, label, rfl, hstarted, hself.unfinished⟩, rfl⟩

/-! ## The handlers -/

/-- A broadcast keeps the contract, whatever it is answered. -/
theorem safe_sendToAllButMe (hself : self.Going) (P : BitSet) (message : PeerMessage)
    {f : Unit → Code XactStateManager Bool}
    (hf : ∀ h', (f () self).Safe lifecycle.busy lifecycle.result h') :
    ((sendToAllButMe P message >>= f) self).Safe lifecycle.busy lifecycle.result h := by
  refine ⟨hself, fun r => ?_⟩
  cases r with
  | ok u => exact hf _
  | error e => exact hself.fails (f := .err e) (Failure.not_isUnwrap_of_noPanic rfl)

/-- The state manager when the measurement has begun. -/
def begin (self : XactStateManager) (coordinator : NodeId) : XactStateManager :=
  { self with
    coordinatorId := some coordinator
    totalDurationTimer := some ()
    measured := self.measured ++ [.started coordinator] }

theorem Going.begin (hself : self.Going) (coordinator : NodeId) : (self.begin coordinator).Going where
  pending := hself.pending
  unfinished := by
    intro m hm
    rcases List.mem_append.mp hm with hm | hm
    · exact hself.unfinished m hm
    · rw [List.mem_singleton.mp hm]
      rfl

theorem timed_begin (coordinator : NodeId) : (self.begin coordinator).Timed :=
  ⟨coordinator, rfl, rfl, List.mem_append_right _ List.mem_cons_self⟩

/-- Data that cannot be decoded end the state manager with an error. -/
theorem safe_decode (hself : self.Going) (data : Bytes) {f : RWSet → Code XactStateManager Bool}
    (hf : ∀ rwset, (f rwset self).Safe lifecycle.busy lifecycle.result h) :
    (((Async.lift (RWSet.decode data)).mapFailure
        (Failure.context "Failed to decode read/write set") >>= f) self).Safe
      lifecycle.busy lifecycle.result h := by
  rw [Async.safe_bind, Async.safe_mapFailure]
  unfold Async.lift
  cases hdecode : RWSet.decode data with
  | ok rwset => exact hf rwset
  | error e =>
    exact hself.fails (Failure.not_isUnwrap_of_noPanic (noPanic_context _ (rwset_decode_noPanic hdecode)))

/-- A ballot that is opened keeps the contract, if what follows does. -/
theorem safe_open (hself : self.Going) {C : Type} [XactController C] (wrap : XactState C → XactType)
    (hstatus : ∀ s, (wrap s).status = s.status)
    (htext : ∀ s, s.status.Textual → (wrap s).Textual) {newState : XactState C}
    (hnew : newState.status = .uninitialized) {f : XactStatus → Code XactStateManager Bool}
    (hf : ∀ status xact h', ({ self with xact } : XactStateManager).Going →
      (f status { self with xact }).Safe lifecycle.busy lifecycle.result h') :
    ((withXact (XactType.initAs wrap newState) >>= f) self).Safe lifecycle.busy lifecycle.result
      h := by
  rw [Async.safe_bind, safe_withXact]
  refine (XactType.safe_initAs wrap hstatus htext hnew hself.pending.1).mono
    (fun xact _ hxact => ⟨hxact, hself.unfinished⟩) fun a h' ha => ?_
  obtain ⟨r, xact⟩ := a
  obtain ⟨hxact, hends⟩ := ha
  have hgoing : ({ self with xact } : XactStateManager).Going := ⟨hxact, hself.unfinished⟩
  cases r with
  | error f' => exact hgoing.fails (hends.2 f' rfl)
  | ok status => exact hf status xact h' hgoing

theorem safe_handleLocalXactMsg (hself : self.Going) (data : Bytes) (commitTx : Sender) :
    (handleLocalXactMsg data commitTx self).Safe lifecycle.busy lifecycle.result h := by
  have hbegin := hself.begin self.nodeId
  show Prog.Safe _ _ (((Async.lift (RWSet.decode data)).mapFailure _ >>= _) (self.begin self.nodeId)) h
  refine safe_decode hbegin data fun rwset => ?_
  refine safe_open hbegin .localXact (fun _ => rfl) (fun _ hs => hs) rfl fun status xact h' hgoing => ?_
  by_cases hwaiting : status = .waiting
  · subst hwaiting
    exact safe_sendToAllButMe hgoing _ _ fun _ => ⟨hgoing, Or.inl (timed_begin self.nodeId)⟩
  · show Prog.Safe _ _ ((Async.ensure (decide (status = .waiting)) _ >>= _) _) h'
    rw [decide_eq_false hwaiting]
    exact hgoing.fails (by simp [Failure.IsUnwrap])

theorem voteReason_noPanic {status : XactStatus} {f : Failure} (h : voteReason status = .error f) :
    NoPanic f := by
  cases status <;> simp [voteReason] at h
  rw [← h]
  rfl

theorem safe_handlePrepareMsg (hself : self.Going) (msg : PrepareMessage) :
    (handlePrepareMsg msg self).Safe lifecycle.busy lifecycle.result h := by
  have hbegin := hself.begin ⟨msg.from⟩
  show Prog.Safe _ _ (((Async.lift (RWSet.decode msg.data)).mapFailure _ >>= _)
    (self.begin ⟨msg.from⟩)) h
  refine safe_decode hbegin msg.data fun rwset => ?_
  show Prog.Safe _ _ ((ite (self.nodeId.toUsize ∉ rwset.participants) _ _ :
    Code XactStateManager Bool) (self.begin ⟨msg.from⟩)) h
  by_cases hmember : self.nodeId.toUsize ∉ rwset.participants
  · rw [if_pos hmember]
    exact Or.inl ⟨hbegin, fun f hf => absurd hf (by simp)⟩
  · rw [if_neg hmember]
    refine safe_open hbegin .surrogate (fun _ => rfl) (fun _ hs => hs) rfl
      fun status xact h' hgoing => ?_
    show Prog.Safe _ _ ((Async.lift (voteReason status) >>= _) _) h'
    cases hvote : voteReason status with
    | error f => exact hgoing.fails (Failure.not_isUnwrap_of_noPanic (voteReason_noPanic hvote))
    | ok reason =>
      exact safe_sendToAllButMe hgoing _ _ fun _ => safe_finishXact hgoing (timed_begin ⟨msg.from⟩)

theorem finishXact_unknown (self : XactStateManager) (votes : List Vote) :
    finishXact { self with xact := .unknown votes } =
      .done (.ok false, { self with xact := .unknown votes }) := rfl

/-- A vote that comes before the ballot is opened is kept; one that comes after it is counted. -/
theorem safe_handleVoteMsg (hself : self.Going)
    (htimed : self.Timed ∨ ∃ votes, self.xact = .unknown votes) {msg : VoteMessage}
    (hmsg : (Vote.ofMessage msg).Textual) :
    (handleVoteMsg msg self).Safe lifecycle.busy lifecycle.result h := by
  unfold handleVoteMsg
  rw [Async.safe_bind, Async.safe_update]
  rcases XactType.addVote_pending hself.pending hmsg with ⟨f, hf, hpanic⟩ | ⟨xact, hadd, hxact⟩
  · rw [hf]
    refine ⟨fun t ht => absurd ht (by simp), fun f' hf' => ?_⟩
    obtain rfl := Except.error.inj hf'
    exact hself.fails (Failure.not_isUnwrap_of_noPanic hpanic)
  · rw [hadd]
    refine ⟨fun t ht => ?_, fun f hf => absurd hf (by simp)⟩
    obtain rfl := Except.ok.inj ht
    rcases htimed with htimed | ⟨votes, hvotes⟩
    · exact safe_finishXact ⟨hxact, hself.unfinished⟩ htimed
    · rw [hvotes, XactType.addVote_unknown] at hadd
      obtain rfl := Except.ok.inj hadd
      show Prog.Safe lifecycle.busy lifecycle.result
        (finishXact { self with xact := .unknown (votes ++ [Vote.ofMessage msg]) }) h
      rw [finishXact_unknown]
      exact ⟨⟨hxact, hself.unfinished⟩, Or.inr ⟨_, rfl⟩⟩

/-- The contract is kept whoever sends the messages, if the codes of their errors are text. -/
theorem lifecycle_sound (id : XactId) (n : NodeId) :
    lifecycle.Sound handle XsMessage.Textual (new id n) where
  start := by
    have hpending : (XactType.unknown []).Pending := ⟨fun v hv => absurd hv List.not_mem_nil, rfl⟩
    have hunfinished : ∀ m ∈ (new id n).measured, m.isFinished = false := by
      intro m hm
      exact absurd hm List.not_mem_nil
    exact ⟨⟨hpending, hunfinished⟩, Or.inr ⟨[], rfl⟩⟩
  handle := by
    intro m s h hm hs
    cases m with
    | localXact data commitTx => exact safe_context _ (safe_handleLocalXactMsg hs.1 data commitTx)
    | prepare msg => exact safe_context _ (safe_handlePrepareMsg hs.1 msg)
    | vote msg => exact safe_context _ (safe_handleVoteMsg hs.1 hs.2 hm)
  cancel_idle := fun s h hs => Or.inl ⟨hs.1, fun f hf => absurd hf (by simp)⟩
  cancel_busy := fun s h hs => Or.inl ⟨hs, fun f hf => absurd hf (by simp)⟩

end XactStateManager

open XactStateManager

/-! ## Every run -/

namespace XactProc.Orderly

variable {p : XactProc}

theorem of_going (hgoing : p.task.state.Going)
    (hfails : ∀ st f, p.task = .halted st (.failed f) → ¬ f.IsUnwrap) : p.Orderly where
  unwraps := hfails
  measured := by
    have hpending : p.status.isTerminal = false := hgoing.pending.2
    rw [hpending]
    exact List.countP_eq_zero.mpr fun m hm => by rw [hgoing.unfinished m hm]; simp
  begun := by
    intro l l' coordinator label hm
    have hmem : .finished coordinator label ∈ p.task.state.measured := by rw [hm]; simp
    exact absurd (hgoing.unfinished _ hmem) (by simp [Measurement.isFinished])
  completed := by
    intro hterminal
    have hpending : p.status.isTerminal = false := hgoing.pending.2
    exact absurd (hpending.symm.trans hterminal) (by simp)

theorem of_over {st : XactStateManager} (hover : st.Over) (htask : p.task = .halted st .finished) :
    p.Orderly := by
  obtain ⟨hterminal, l, coordinator, label, hm, hstarted, hunfinished⟩ := hover
  have hstate : p.task.state = st := by rw [htask]; rfl
  have hzero : l.countP Measurement.isFinished = 0 :=
    List.countP_eq_zero.mpr fun m hm => by rw [hunfinished m hm]; simp
  refine ⟨fun st' f hf => ?_, ?_, fun l₁ l₂ coordinator' label' heq => ?_, fun _ => ⟨st, htask⟩⟩
  · rw [htask] at hf
    exact absurd hf (by simp)
  · unfold XactProc.status
    rw [hstate, hm, if_pos hterminal, List.countP_append, hzero]
    rfl
  · -- the measurement that ends is the last one
    rw [hstate, hm] at heq
    rcases List.append_eq_append_iff.mp heq with ⟨as, rfl, has⟩ | ⟨bs, rfl, hbs⟩
    · cases as with
      | nil =>
        obtain ⟨rfl, -⟩ := Measurement.finished.inj (List.cons.inj has).1
        rw [List.append_nil]
        exact hstarted
      | cons a as => exact absurd (congrArg List.length has) (by simp)
    · cases bs with
      | nil =>
        obtain ⟨rfl, -⟩ := Measurement.finished.inj (List.cons.inj hbs).1
        rw [List.append_nil] at hstarted
        exact hstarted
      | cons b bs =>
        obtain ⟨rfl, -⟩ := List.cons.inj hbs
        have hmem : .finished coordinator' label' ∈ l₁ ++ .finished coordinator' label' :: bs := by
          simp
        exact absurd (hunfinished _ hmem) (by simp [Measurement.isFinished])

end XactProc.Orderly

/-- **The unwraps of a state manager do not fail**, and what it measures about its transaction ends
once, with the handler that finishes the transaction; no message is handled after it. This holds of
every sequence of messages whose codes are text. -/
theorem lifecycle_orderly {id : XactId} {n : NodeId} {p : XactProc}
    (hp : Proc.Reach handle XsMessage.Textual (XactStateManager.new id n) p) :
    p.Orderly ∧ (p.status.isTerminal = true → ∀ acts p', p.run handle acts = some p' →
      recvs p'.log = recvs p.log) := by
  have hkept := Contract.kept_of_reach (lifecycle_sound id n) hp
  unfold Contract.Kept at hkept
  have horderly : p.Orderly := by
    cases htask : p.task with
    | idle s =>
      rw [htask] at hkept
      exact .of_going (by rw [htask]; exact hkept.1) fun st f hf => absurd hf (by simp [htask])
    | busy s e k =>
      rw [htask] at hkept
      exact .of_going (by rw [htask]; exact hkept.1) fun st f hf => absurd hf (by simp [htask])
    | halted s why =>
      rw [htask] at hkept
      rcases hkept with ⟨hgoing, hfails⟩ | ⟨hover, rfl⟩
      · refine .of_going (by rw [htask]; exact hgoing) fun st f hf => ?_
        rw [htask] at hf
        exact hfails f (Task.halted.inj hf).2
      · exact .of_over hover htask
  refine ⟨horderly, fun hterminal acts p' hrun => ?_⟩
  obtain ⟨st, htask⟩ := horderly.completed hterminal
  rw [Proc.run_halted (by rw [htask]; rfl) hrun]

/-- A node gets the no of node 2, with an SQLSTATE, before the `Prepare` of node 0, and a vote after
it. -/
def labelledRun : List (Proc.Act XsMessage Answer) :=
  let data : Bytes := [0, 0, 0, 1, 0, 0, 0, 0, 0, 0, 0, 7, 0, 0, 0, 0, 0, 0, 0, 0]
  let deadlock : DbError :=
    { code := [52, 48, 80, 48, 49], severity := "ERROR", message := "deadlock", detail := "", hint := "" }
  [.post (.vote { «from» := 2, xactId := (XactId.new 1 ⟨0⟩).val, rollbackReason := some (.db deadlock) }),
    .post (.prepare { «from» := 0, xactId := (XactId.new 1 ⟨0⟩).val, data }), .take, .take,
    .answer (.ok ()), .answer (.ok ()), .answer (.ok ()),
    .post (.vote { «from» := 0, xactId := (XactId.new 1 ⟨0⟩).val, rollbackReason := none })]

theorem lifecycle_orderly_deadlock :
    ∃ p : XactProc, Proc.run handle (Proc.start (XactStateManager.new (.new 1 ⟨0⟩) ⟨1⟩)) labelledRun =
        some p ∧ p.status.isTerminal = true ∧ p.Orderly := by
  have hrun : (Proc.run handle (Proc.start (XactStateManager.new (.new 1 ⟨0⟩) ⟨1⟩))
      labelledRun).map (fun p => XactStatus.isTerminal (XactProc.status p)) = some true := by
    decide
  obtain ⟨p, hp, hterminal⟩ := Option.map_eq_some_iff.mp hrun
  refine ⟨p, hp, hterminal, (lifecycle_orderly (Proc.reach_of_run .start (fun m hm => ?_) hp)).1⟩
  simp only [labelledRun, List.mem_cons, List.not_mem_nil, or_false, Proc.Act.post.injEq,
    reduceCtorEq, false_or] at hm
  rcases hm with rfl | rfl | rfl
  · intro reason hreason
    obtain rfl := Option.some.inj hreason
    show (String.fromUTF8? ⟨#[52, 48, 80, 48, 49]⟩).isSome = true
    decide
  · trivial
  · exact fun reason hreason => absurd hreason (by simp [Vote.ofMessage])

end Sunstorm
