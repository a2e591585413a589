import Sunstorm.Xactserver.Decoder

/-!
# The reply to PostgreSQL

`pg/watcher.rs`: how the watcher writes the outcome of a local transaction, and a reader for what it
writes.
-/

namespace Sunstorm

open Codec

/-- `str::as_bytes`. -/
def asBytes (s : String) : Bytes := s.toUTF8.data.toList

/-- `(u32::from(by) + 1).try_into().unwrap()` for a `u8`. Where overflow is not checked, the sum
wraps around. -/
def replyNode (overflowChecks : Bool) («by» : NodeId) : Except Failure UInt8 :=
  if overflowChecks = true ∧ «by».val = 0xffffffff then
    .error (.panic "attempt to add with overflow")
  else if («by».val + 1).toNat < 256 then .ok (UInt8.ofNat («by».val + 1).toNat)
  else .error (.panic "called `Result::unwrap()` on an `Err` value")

/-- `serialize_rollback_info`. -/
def serializeRollbackInfo (overflowChecks : Bool) : Option RollbackInfo → Except Failure Bytes
  | none => .ok [0]
  | some ⟨«by», .db dbErr⟩ => do
    -- plus 1 to distinguish between region 0 and the end of message byte
    let node ← replyNode overflowChecks «by»
    return [node] ++ asBytes dbErr.message ++ [0] ++ [1] ++ dbErr.code ++ asBytes dbErr.severity ++
      [0] ++ asBytes dbErr.detail ++ [0] ++ asBytes dbErr.hint ++ [0] ++ [0]
  | some ⟨«by», .other err⟩ => do
    let node ← replyNode overflowChecks «by»
    return [node] ++ asBytes err ++ [0] ++ [0]

/-! ## Reading a reply -/

namespace Reply

/-- The failure of a reader that finds too few bytes, or other ones. -/
def malformed : Failure := .msg "malformed reply"

/-- A text with the NUL byte behind it. -/
def readText : Decode String :=
  (Reader.upTo malformed 0).through malformed fun bs => String.fromUTF8? ⟨bs.toArray⟩

/-- The byte `b`. -/
def readByte (b : UInt8) : Decode Unit := do
  if (← getU8) = b then return () else Reader.fail malformed

/-- What follows the message in an error of PostgreSQL. -/
def readSqlError (message : String) : Decode RollbackReason := do
  let code ← Reader.exactly malformed 5
  let severity ← readText
  let detail ← readText
  let hint ← readText
  readByte 0
  return .db { code, severity, message, detail, hint }

/-- A reason. The byte behind the message tells the two kinds apart. -/
def readReason : Decode RollbackReason := do
  let message ← readText
  let marker ← getU8
  if marker = 0 then return .other message
  else if marker = 1 then readSqlError message
  else Reader.fail malformed

/-- A reply. -/
def read : Decode (Option RollbackInfo) := do
  let first ← getU8
  if first = 0 then return none
  else
    let reason ← readReason
    return some ⟨⟨first.toUInt32 - 1⟩, reason⟩

/-- The reply at the front of the bytes, and the number of bytes that it takes. -/
def decode (buf : Bytes) : Option (Option RollbackInfo × Nat) :=
  match read buf with
  | .ok (reply, rest) => some (reply, buf.length - rest.length)
  | .error _ => none

/-- No text of the reason has a NUL byte, and the code of an error of PostgreSQL has five bytes. -/
def PlainReason : RollbackReason → Prop
  | .db err => err.code.length = 5 ∧ 0 ∉ asBytes err.message ∧ 0 ∉ asBytes err.severity ∧
      0 ∉ asBytes err.detail ∧ 0 ∉ asBytes err.hint
  | .other err => 0 ∉ asBytes err

instance : (reason : RollbackReason) → Decidable (PlainReason reason)
  | .db err => inferInstanceAs (Decidable (err.code.length = 5 ∧ 0 ∉ asBytes err.message ∧
      0 ∉ asBytes err.severity ∧ 0 ∉ asBytes err.detail ∧ 0 ∉ asBytes err.hint))
  | .other err => inferInstanceAs (Decidable (0 ∉ asBytes err))

/-- The node of the reply is a participant of some transaction, if the reply has one. -/
def Numbered (reply : Option RollbackInfo) : Prop := ∀ info ∈ reply, info.node.toUsize < 64

/-- The reason of the reply is plain, if the reply has one. -/
def Plain (reply : Option RollbackInfo) : Prop := ∀ info ∈ reply, PlainReason info.reason

end Reply

end Sunstorm
