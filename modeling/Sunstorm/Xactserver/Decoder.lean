import Sunstorm.Codec.Reader
import Sunstorm.Xactserver.Messages

/-!
# The read/write set decoder

`decoder.rs`. The header is decoded at once; the relations are kept as bytes and decoded on demand.
A slice beyond the end of a buffer panics, and so does reading a number from too few bytes.
-/

namespace Sunstorm

open Codec

/-- The readers of the decoder. -/
abbrev Decode (α : Type) := Reader UInt8 Failure α

/-- `.context(text)` around a reader. -/
def Decode.context (text : String) (p : Decode α) : Decode α := p.mapFailure (Failure.context text)

/-- `Buf::get_*`: panics when fewer than `size` bytes remain. -/
def bufGet (size : Nat) (ofNat : Nat → α) : Decode α := fun buf =>
  if size ≤ buf.length then .ok (ofNat (ofBe (buf.take size)), buf.drop size)
  else .error (.panic "buffer too short")

/-- `new_get_num_fn!`. -/
def getNum (size : Nat) (ofNat : Nat → α) : Decode α := fun buf =>
  if size ≤ buf.length then bufGet size ofNat buf
  else .error (.msg s!"Required bytes: {size}. Remaining bytes: {buf.length}")

def getU8 : Decode UInt8 := getNum 1 UInt8.ofNat

def getU16 : Decode UInt16 := getNum 2 UInt16.ofNat

def getU32 : Decode UInt32 := getNum 4 UInt32.ofNat

def getU64 : Decode UInt64 := getNum 8 UInt64.ofNat

/-- `struct RWSetHeader`. -/
structure RWSetHeader where
  dbid : UInt32
  participants : BitSet
  deriving DecidableEq

/-- The loop of `RWSetHeader::decode`: the positions of the bits of `region_set` that are set. -/
def participantsOf (regionSet : UInt64) : BitSet :=
  (List.range 64).foldl
    (fun participants i =>
      if (regionSet >>> UInt64.ofNat i) &&& 1 = 1 then insert i participants else participants) ∅

/-- `RWSetHeader::decode`. -/
def RWSetHeader.decode : Decode RWSetHeader := do
  let dbid ← getU32.context "Failed to decode 'dbid'"
  let regionSet ← getU64.context "Failed to decode 'region_set'"
  return { dbid, participants := participantsOf regionSet }

/-- `struct Tuple`. -/
structure Tuple where
  blocknum : UInt32
  offset : UInt16
  deriving DecidableEq

/-- `struct Page`. -/
structure Page where
  blocknum : UInt32
  deriving DecidableEq

/-- `enum Relation`. -/
inductive Relation where
  | table (oid : UInt32) (region : UInt8) (csn : UInt64) (isTableScan : Bool) (nTuples : UInt32)
      (tuples : List Tuple)
  | index (oid : UInt32) (region : UInt8) (csn : UInt64) (nPages : UInt32) (pages : List Page)
  deriving DecidableEq

namespace Relation

/-- `Relation::decode_tuple`. -/
def decodeTuple : Decode Tuple := do
  let blocknum ← getU32.context "Failed to decode 'blocknum'"
  let offset ← getU16.context "Failed to decode 'offset'"
  return { blocknum, offset }

/-- `Relation::decode_page`. -/
def decodePage : Decode Page := do
  let blocknum ← getU32.context "Failed to decode 'blocknum'"
  return { blocknum }

/-- `Relation::decode_relation`. -/
def decodeRelation (isIndex : Bool) : Decode Relation := do
  let relid ← getU32.context "Failed to decode 'relid'"
  let region ← getU8.context "Failed to decode 'region'"
  let csn ← getU64.context "Failed to decode 'csn'"
  let isTableScan ← getU8.context "Failed to decode 'is_table_scan'"
  let nitems ← getU32.context "Failed to decode 'nitems'"
  if isIndex then
    let pages ← Reader.times (fun pages : List Page =>
      decodePage.context s!"Failed to decode page. Pages decoded: {pages.length}") nitems.toNat []
    return .index relid region csn nitems pages
  else
    let tuples ← Reader.times (fun tuples : List Tuple =>
      decodeTuple.context s!"Failed to decode tuple. Tuples decoded: {tuples.length}")
      nitems.toNat []
    return .table relid region csn (isTableScan != 0) nitems tuples

/-- `Relation::decode`. The tags are the letters `T` and `I`. -/
def decode : Decode Relation := do
  let tag ← getU8.context "Failed to decode relation type"
  if tag = 84 then (decodeRelation false).context "Failed to decode table"
  else if tag = 73 then (decodeRelation true).context "Failed to decode index"
  else Reader.fail (.msg s!"Invalid relation type: {tag.toNat}")

end Relation

/-- `struct RWSet`. -/
structure RWSet where
  header : RWSetHeader
  relationsLen : Nat
  nRelations : UInt32
  relations : Option (List Relation)
  remainder : Bytes
  decodedAll : Bool
  deriving DecidableEq

namespace RWSet

/-- The part of `RWSet::decode` that follows the header and the length of the relations section. -/
def decodeCount (header : RWSetHeader) (relationsLen : Nat) (buf : Bytes) :
    Except Failure RWSet :=
  if relationsLen ≤ buf.length then
    match getU32.context "Failed to decode number of relations" buf with
    | .ok (nRelations, buf) =>
      .ok { header, relationsLen, nRelations, relations := none, remainder := buf,
            decodedAll := false }
    | .error e => .error e
  else
    .error (.msg (s!"Relations section too short. Expected: {relationsLen}. " ++
      s!"Remaining: {buf.length}"))

/-- `RWSet::decode`. -/
def decode (buf : Bytes) : Except Failure RWSet :=
  match RWSetHeader.decode.context "Failed to decode header" buf with
  | .error e => .error e
  | .ok (header, buf) =>
    match getU32.context "Failed to decode length" buf with
    | .error e => .error e
    | .ok (relationsLen, buf) => decodeCount header relationsLen.toNat buf

/-- `RWSet::participants`. -/
def participants (self : RWSet) : BitSet := self.header.participants

/-- `Bytes::split_to`: the first `at` bytes and the rest; panics when there are fewer. -/
def splitTo (buf : Bytes) (at_ : Nat) : Except Failure (Bytes × Bytes) :=
  if at_ ≤ buf.length then .ok (buf.take at_, buf.drop at_)
  else .error (.panic "split_to out of bounds")

/-- The loop of `RWSet::decode_relations` over the bytes of the section. Every relation takes a
byte at least, so the number of bytes is enough fuel. -/
def decodeSection (relationsBuf : Bytes) : Except Failure (List Relation) :=
  match Reader.untilEmpty (.panic "out of fuel")
      (fun relations : List Relation => Relation.decode.context
        s!"Failed to decode relation. Relations decoded: {relations.length}")
      relationsBuf.length [] relationsBuf with
  | .ok (relations, _) => .ok relations
  | .error e => .error e

/-- `RWSet::decode_relations`, with the buffer it leaves. A panic of `split_to` leaves the buffer as
it was. -/
def decodeRelations (buf : Bytes) (relationsLen : Nat) (nRelations : UInt32) :
    Except Failure (List Relation) × Bytes :=
  match splitTo buf relationsLen with
  | .error e => (.error e, buf)
  | .ok (relationsBuf, buf) =>
    match decodeSection relationsBuf with
    | .error e => (.error e, buf)
    | .ok relations =>
      if nRelations = UInt32.ofNat relations.length then (.ok relations, buf)
      else
        (.error (.msg (s!"Failed to receive relations. Expected: {nRelations.toNat}, " ++
          s!"Received:{relations.length}")), buf)

/-- `RWSet::decode_rest`, with the set it leaves. -/
def decodeRest (self : RWSet) : Except Failure Unit × RWSet :=
  if self.decodedAll then (.ok (), self)
  else
    match decodeRelations self.remainder self.relationsLen self.nRelations with
    | (.ok relations, remainder) =>
      (.ok (), { self with relations := some relations, remainder, decodedAll := true })
    | (.error e, remainder) =>
      (.error (e.context "Failed to decode relations"), { self with remainder })

end RWSet

end Sunstorm
