import Sunstorm.Xactserver.Controller

/-!
# The state of a transaction

`xact/state.rs`: the participants, the votes counted so far and the status.
-/

namespace Sunstorm

open Await

/-- `enum XactStatus`. -/
inductive XactStatus where
  | uninitialized
  | waiting
  | committing
  | rollbacking (info : RollbackInfo)
  | committed
  | rollbacked (info : RollbackInfo)
  deriving DecidableEq

/-- `XactStatus::is_terminal`. -/
def XactStatus.isTerminal : XactStatus → Bool
  | .committed => true
  | .rollbacked _ => true
  | _ => false

/-- `struct XactState`. -/
structure XactState (C : Type) where
  nodeId : NodeId
  coordinator : NodeId
  status : XactStatus
  participants : BitSet
  voted : BitSet
  controller : C
  deriving DecidableEq

namespace XactState

variable {C : Type}

/-- `XactState::new`. -/
def new (nodeId coordinator : NodeId) (participants : BitSet) (controller : C) : XactState C :=
  { nodeId, coordinator, status := .uninitialized, participants, voted := ∅, controller }

/-- `XactState::add_vote`. It does not await, and an error leaves the state as it was. -/
def addVote (self : XactState C) (vote : Vote) : Except Failure (XactState C) :=
  if self.status = .committing ∨ self.status = .committed then
    .error (.msg ("Condition failed: `self.status != XactStatus::Committing && " ++
      "self.status != XactStatus::Committed`"))
  else if vote.from.toUsize ∉ self.participants then .ok self
  else if self.status ≠ .waiting then .ok self
  else
    match vote.rollbackReason with
    | some reason => .ok { self with status := .rollbacking ⟨vote.from, reason⟩ }
    | none =>
      if vote.from.toUsize ∉ self.voted then
        let voted := insert vote.from.toUsize self.voted
        if voted = self.participants then .ok { self with voted, status := .committing }
        else .ok { self with voted }
      else .ok self

/-- The votes one after the other, up to the first error; with the state then reached. -/
def addVotes (self : XactState C) : List Vote → Except Failure Unit × XactState C
  | [] => (.ok (), self)
  | vote :: votes =>
    match self.addVote vote with
    | .ok self => addVotes self votes
    | .error e => (.error e, self)

variable [XactController C]

/-- The controller seen as a part of the state. -/
def withController (x : Async C Effect Answer AnyhowError Unit) :
    Async (XactState C) Effect Answer AnyhowError Unit := fun self =>
  x.within (fun controller => { self with controller }) self.controller self

/-- Execute the transaction and return the reason of the failure, if it fails. -/
def executeReason : Code (XactState C) (Option RollbackReason) := do
  match ← (withController XactController.execute).attempt with
  | .ok () => return none
  | .error e => return some (RollbackReason.ofError e)

/-- `XactState::initialize`. -/
def initializeXact (existingVotes : List Vote) : Code (XactState C) XactStatus := do
  Async.ensure ((← Async.get).status = .uninitialized)
    (.msg "Condition failed: `self.status == XactStatus::Uninitialized`")
  Async.modify fun self => { self with status := .waiting }
  let self ← Async.get
  let rollbackReason ←
    if self.nodeId ≠ self.coordinator then do
      -- the coordinator sends no vote; its yes is implied by its `Prepare`
      Async.update fun self => self.addVote (Vote.yes self.coordinator)
      executeReason
    else pure none
  Async.update fun self => self.addVote ⟨self.nodeId, rollbackReason⟩
  fun self =>
    match self.addVotes existingVotes with
    | (.ok (), self) => .done (.ok self.status, self)
    | (.error e, self) => .done (.error e, self)

/-- `XactState::try_finish`. -/
def tryFinish : Code (XactState C) XactStatus := do
  match (← Async.get).status with
  | .committing =>
    (withController XactController.commit).mapFailure fun e => .err (e.context "Failed to commit")
    Async.modify fun self => { self with status := .committed }
  | .rollbacking info =>
    (withController (XactController.rollback info)).mapFailure fun e =>
      .err (e.context "Failed to rollback")
    Async.modify fun self => { self with status := .rollbacked info }
  | _ => pure ()
  return (← Async.get).status

end XactState

end Sunstorm
