import Sunstorm.Xactserver.Decoder

/-!
# The read/write set format

The serialisation that the decoder implies. The byte that says whether a table is scanned is read
as a flag for tables and ignored for indexes, so the encoding is given for any such byte.
-/

namespace Sunstorm

open Codec

/-- The item count of the relation says how many items it has. -/
def Relation.Counted : Relation → Prop
  | .table _ _ _ _ nTuples tuples => nTuples.toNat = tuples.length
  | .index _ _ _ nPages pages => nPages.toNat = pages.length

instance (r : Relation) : Decidable r.Counted := by
  cases r <;> exact inferInstanceAs (Decidable (_ = _))

/-- A relation whose item count is right. -/
abbrev CountedRelation : Type := { r : Relation // r.Counted }

def Tuple.encode (t : Tuple) : Bytes := toBe 4 t.blocknum.toNat ++ toBe 2 t.offset.toNat

def Page.encode (p : Page) : Bytes := toBe 4 p.blocknum.toNat

/-- The relation with `scan` as its byte `is_table_scan`. -/
def Relation.encodeWith (scan : UInt8) : Relation → Bytes
  | .table oid region csn _ nTuples tuples =>
    [84] ++ toBe 4 oid.toNat ++ toBe 1 region.toNat ++ toBe 8 csn.toNat ++ toBe 1 scan.toNat ++
      toBe 4 nTuples.toNat ++ (tuples.map Tuple.encode).flatten
  | .index oid region csn nPages pages =>
    [73] ++ toBe 4 oid.toNat ++ toBe 1 region.toNat ++ toBe 8 csn.toNat ++ toBe 1 scan.toNat ++
      toBe 4 nPages.toNat ++ (pages.map Page.encode).flatten

/-- The bytes `is_table_scan` that stand for the relation. -/
def Relation.ScanFits (scan : UInt8) : Relation → Prop
  | .table _ _ _ isTableScan _ _ => (scan != 0) = isTableScan
  | .index _ _ _ _ _ => True

/-- The byte `is_table_scan` to write for the relation. -/
def Relation.scan : Relation → UInt8
  | .table _ _ _ true _ _ => 1
  | _ => 0

/-- The relations section with the given bytes `is_table_scan`. -/
def encodeSectionWith (scans : List UInt8) (relations : List CountedRelation) : Bytes :=
  (List.zipWith (fun scan r => Relation.encodeWith scan r.val) scans relations).flatten

/-- The relations section. -/
def encodeSection (relations : List CountedRelation) : Bytes :=
  encodeSectionWith (relations.map fun r => r.val.scan) relations

/-- A read/write set around the bytes of its relations section. -/
def encodeAround (dbid : UInt32) (regionSet : UInt64) (nRelations : Nat) (section_ : Bytes) :
    Bytes :=
  toBe 4 dbid.toNat ++ toBe 8 regionSet.toNat ++ toBe 4 section_.length ++ toBe 4 nRelations ++
    section_

/-- The read/write set with the given bytes `is_table_scan`. -/
def RWSet.encodeWith (scans : List UInt8) (dbid : UInt32) (regionSet : UInt64)
    (relations : List CountedRelation) : Bytes :=
  encodeAround dbid regionSet relations.length (encodeSectionWith scans relations)

/-- The encoding of a read/write set. -/
def RWSet.encode (dbid : UInt32) (regionSet : UInt64) (relations : List CountedRelation) : Bytes :=
  encodeAround dbid regionSet relations.length (encodeSection relations)

/-- The 64-bit number whose bits are the members of `participants`. -/
def regionSetOf (participants : BitSet) : UInt64 :=
  UInt64.ofNat ((List.range 64).foldl
    (fun acc i => if i ∈ participants then acc ||| 2 ^ i else acc) 0)

/-- The length of the relations section that the buffer declares. -/
def declaredLen (buf : Bytes) : Nat := ofBe ((buf.drop 12).take 4)

end Sunstorm
