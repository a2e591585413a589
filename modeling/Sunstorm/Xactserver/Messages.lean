import Sunstorm.Xactserver.Ids

/-!
# Errors, votes and messages

The data that nodes exchange: `lib.rs` and `rpc.proto`. An `anyhow` error is its cause with the
contexts put around it; besides errors, a computation can panic.
-/

namespace Sunstorm

abbrev Bytes := List UInt8

/-! ## Errors -/

/-- What PostgreSQL reports when a statement fails. -/
structure PgDbError where
  code : String
  severity : String
  message : String
  detail : Option String
  hint : Option String
  deriving DecidableEq

/-- `tokio_postgres::Error`: the report of the server, if there is one, and the text. -/
structure PgError where
  asDbError : Option PgDbError
  text : String
  deriving DecidableEq

/-- The error at the bottom of an `anyhow::Error`. -/
inductive Cause where
  | pg (e : PgError)
  | msg (text : String)
  deriving DecidableEq

/-- `anyhow::Error`, with its contexts from the outermost to the innermost. -/
structure AnyhowError where
  contexts : List String
  cause : Cause
  deriving DecidableEq

namespace AnyhowError

/-- `anyhow!(text)`. -/
def msg (text : String) : AnyhowError := ⟨[], .msg text⟩

/-- `.context(text)`. -/
def context (text : String) (e : AnyhowError) : AnyhowError := { e with contexts := text :: e.contexts }

/-- `to_string()`: the outermost message only. -/
def toString (e : AnyhowError) : String :=
  match e.contexts, e.cause with
  | text :: _, _ => text
  | [], .pg e => e.text
  | [], .msg text => text

end AnyhowError

/-- How a computation fails: with an error, or with a panic. -/
inductive Failure where
  | err (e : AnyhowError)
  | panic (text : String)
  deriving DecidableEq

namespace Failure

/-- `anyhow!(text)` as a failure. -/
def msg (text : String) : Failure := .err (.msg text)

/-- `.context(text)`; a panic passes through. -/
def context (text : String) : Failure → Failure
  | .err e => .err (e.context text)
  | .panic t => .panic t

/-- Whether this is a panic. -/
def isPanic : Failure → Bool
  | .panic _ => true
  | .err _ => false

end Failure

/-! ## Reasons and votes -/

/-- `proto::DbError`. -/
structure DbError where
  code : Bytes
  severity : String
  message : String
  detail : String
  hint : String
  deriving DecidableEq

/-- `enum RollbackReason`. -/
inductive RollbackReason where
  | db (err : DbError)
  | other (err : String)
  deriving DecidableEq

/-- `struct RollbackInfo(NodeId, RollbackReason)`. -/
structure RollbackInfo where
  node : NodeId
  reason : RollbackReason
  deriving DecidableEq

/-- `vote_message::RollbackReason`, the `oneof` of the protocol buffer. -/
inductive ProtoRollbackReason where
  | db (err : DbError)
  | other (err : String)
  deriving DecidableEq

/-- `From<&tokio_postgres::Error> for RollbackReason`. -/
def RollbackReason.ofPgError (err : PgError) : RollbackReason :=
  match err.asDbError with
  | some e => .db {
      code := e.code.toUTF8.data.toList
      severity := e.severity
      message := e.message
      detail := e.detail.getD ""
      hint := e.hint.getD "" }
  | none => .other err.text

/-- The reason that `XactState::initialize` derives from a failed execution. -/
def RollbackReason.ofError (err : AnyhowError) : RollbackReason :=
  match err.cause with
  | .pg e => .ofPgError e
  | .msg _ => .other err.toString

/-- `From<vote_message::RollbackReason> for RollbackReason`. -/
def RollbackReason.ofProto : ProtoRollbackReason → RollbackReason
  | .db err => .db err
  | .other err => .other err

/-- `From<&RollbackReason> for vote_message::RollbackReason`. -/
def RollbackReason.toProto : RollbackReason → ProtoRollbackReason
  | .db err => .db err
  | .other err => .other err

/-- `struct Vote`. -/
structure Vote where
  «from» : NodeId
  rollbackReason : Option RollbackReason
  deriving DecidableEq

/-- `Vote::yes`. -/
def Vote.yes (nodeId : NodeId) : Vote := ⟨nodeId, none⟩

/-- `Vote::no`. -/
def Vote.no (nodeId : NodeId) (reason : RollbackReason) : Vote := ⟨nodeId, some reason⟩

/-! ## Messages -/

/-- `proto::PrepareMessage`. -/
structure PrepareMessage where
  «from» : UInt32
  xactId : UInt64
  data : Bytes
  deriving DecidableEq

/-- `proto::VoteMessage`. -/
structure VoteMessage where
  «from» : UInt32
  xactId : UInt64
  rollbackReason : Option ProtoRollbackReason
  deriving DecidableEq

/-- `From<VoteMessage> for Vote`. -/
def Vote.ofMessage (msg : VoteMessage) : Vote :=
  ⟨⟨msg.from⟩, msg.rollbackReason.map RollbackReason.ofProto⟩

/-- `oneshot::Sender<Option<RollbackInfo>>`, by the channel it belongs to. -/
structure Sender where
  channel : Nat
  deriving DecidableEq

/-- What a node sends to a peer: the two requests of the `XactCoordination` service. -/
inductive PeerMessage where
  | prepare (msg : PrepareMessage)
  | vote (msg : VoteMessage)
  deriving DecidableEq

/-- `enum XsMessage`. -/
inductive XsMessage where
  | localXact (data : Bytes) (commitTx : Sender)
  | prepare (msg : PrepareMessage)
  | vote (msg : VoteMessage)
  deriving DecidableEq

/-- `Node::prepare` and `Node::vote` hand the request over to the manager. -/
def XsMessage.ofPeer : PeerMessage → XsMessage
  | .prepare msg => .prepare msg
  | .vote msg => .vote msg

/-- The request that a message carries. -/
def XsMessage.peer : XsMessage → Option PeerMessage
  | .localXact _ _ => none
  | .prepare msg => some (.prepare msg)
  | .vote msg => some (.vote msg)

/-- The data of a local transaction that a message carries. -/
def XsMessage.handed : XsMessage → Option Bytes
  | .localXact data _ => some data
  | _ => none

/-- The transaction a request is about. -/
def PeerMessage.xactId : PeerMessage → XactId
  | .prepare msg => ⟨msg.xactId⟩
  | .vote msg => ⟨msg.xactId⟩

end Sunstorm
