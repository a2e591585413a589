import Sunstorm.Xactserver.XactState

/-!
# A transaction before and after its kind is known

`xact.rs`: votes that arrive before the transaction is known to be local or a surrogate are kept
and counted when it is initialised. Initialising a transaction for a second time panics, after the
old state was replaced.
-/

namespace Sunstorm

open Await

/-- `enum XactType`. -/
inductive XactType where
  | unknown (votes : List Vote)
  | localXact (xact : XactState LocalXactController)
  | surrogate (xact : XactState SurrogateXactController)
  deriving DecidableEq

namespace XactType

/-- `XactType::default`. -/
def default : XactType := .unknown []

/-- The status, as `try_finish` reports it. -/
def status : XactType → XactStatus
  | .unknown _ => .uninitialized
  | .localXact xact => xact.status
  | .surrogate xact => xact.status

/-- `unreachable!()`. -/
def unreachable : Failure := .panic "internal error: entered unreachable code"

/-- Replace the transaction by `newState` and initialise it with the votes kept so far. -/
def initAs {C : Type} [XactController C] (wrap : XactState C → XactType) (newState : XactState C) :
    Code XactType XactStatus := fun self =>
  match self with
  | .unknown votes => Async.within wrap newState (XactState.initializeXact votes) self
  | _ => .done (.error unreachable, wrap newState)

/-- `XactType::init_as_local`. -/
def initAsLocal (nodeId coordinator : NodeId) (participants : BitSet) (commitTx : Sender) :
    Code XactType XactStatus :=
  initAs .localXact (XactState.new nodeId coordinator participants (LocalXactController.new commitTx))

/-- `XactType::init_as_surrogate`. -/
def initAsSurrogate (xactId : XactId) (nodeId coordinator : NodeId) (participants : BitSet)
    (data : Bytes) : Code XactType XactStatus :=
  initAs .surrogate (XactState.new nodeId coordinator participants ⟨xactId, data⟩)

/-- `XactType::add_vote`. -/
def addVote (self : XactType) (vote : Vote) : Except Failure XactType :=
  match self with
  | .unknown votes => .ok (.unknown (votes ++ [vote]))
  | .localXact xact =>
    match xact.addVote vote with
    | .ok xact => .ok (.localXact xact)
    | .error e => .error (e.context "Failed to add vote for local xact")
  | .surrogate xact =>
    match xact.addVote vote with
    | .ok xact => .ok (.surrogate xact)
    | .error e => .error (e.context "Failed to add vote for surrogate xact")

/-- `XactType::try_finish`. -/
def tryFinish : Code XactType XactStatus := fun self =>
  match self with
  | .unknown _ => .done (.ok .uninitialized, self)
  | .localXact xact =>
    (Async.within .localXact xact XactState.tryFinish).mapFailure
      (Failure.context "Failed to try finishing local xact") self
  | .surrogate xact =>
    (Async.within .surrogate xact XactState.tryFinish).mapFailure
      (Failure.context "Failed to try finishing surrogate xact") self

end XactType

end Sunstorm
