import Mathlib.Data.Finset.Basic
import Mathlib.Data.Finset.Lattice.Fold
import Mathlib.Order.Lattice.Nat

/-!
# Node ids, transaction ids and sets of nodes

A transaction id packs the counter of the node that received the transaction and the id of that
node into one 64-bit number.
-/

namespace Sunstorm

/-- `struct NodeId(pub u32)`. -/
structure NodeId where
  val : UInt32
  deriving DecidableEq, Repr, Inhabited

namespace NodeId

/-- The number of bits of a node id. -/
def bitLength : Nat := 4 * 8

/-- `From<NodeId> for usize`, on a 64-bit machine. -/
def toUsize (n : NodeId) : Nat := n.val.toNat

/-- `From<usize> for NodeId`: the cast keeps the low 32 bits. -/
def ofUsize (i : Nat) : NodeId := ⟨UInt32.ofNat i⟩

/-- `Display for NodeId`. -/
def toString (n : NodeId) : String := Nat.repr n.val.toNat

end NodeId

/-- `struct XactId(pub u64)`. -/
structure XactId where
  val : UInt64
  deriving DecidableEq, Repr, Inhabited

namespace XactId

/-- `XactId::INVALID`. -/
def invalid : XactId := ⟨0⟩

/-- `XactId::new`. -/
def new (counter : UInt32) (nodeId : NodeId) : XactId :=
  ⟨(counter.toUInt64 <<< UInt64.ofNat NodeId.bitLength) ||| nodeId.val.toUInt64⟩

/-- `XactId::counter`. -/
def counter (self : XactId) : UInt32 := (self.val >>> UInt64.ofNat NodeId.bitLength).toUInt32

/-- `XactId::node_id`. -/
def nodeId (self : XactId) : NodeId :=
  ⟨(self.val &&& ((1 <<< UInt64.ofNat NodeId.bitLength) - 1)).toUInt32⟩

/-- `Display for XactId`: the global transaction identifier given to PostgreSQL. -/
def toString (self : XactId) : String :=
  "(" ++ Nat.repr self.counter.toNat ++ "," ++ self.nodeId.toString ++ ")"

end XactId

/-- `bit_set::BitSet`: a finite set of `usize` numbers. Two sets are equal when they have the same
members. -/
abbrev BitSet := Finset Nat

/-- The members in ascending order, as the iterator of the set gives them. -/
def BitSet.toList (s : BitSet) : List Nat := (List.range (s.sup id + 1)).filter (· ∈ s)

end Sunstorm
