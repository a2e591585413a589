import Sunstorm.Codec.Proofs.DecimalProofs
import Sunstorm.Xactserver.Ids
import Mathlib.Tactic.NormNum

/-!
# Proofs: ids are packed and printed without loss

A transaction id is the number `counter * 2 ^ 32 + node`, so the two components can be read back,
and so they can from the printed form.
-/

namespace Sunstorm

open Codec

namespace NodeId

theorem ofUsize_toUsize (n : NodeId) : ofUsize n.toUsize = n := by
  unfold ofUsize toUsize
  rw [UInt32.ofNat_toNat]

theorem toUsize_injective : Function.Injective toUsize := by
  intro n m h
  rw [← ofUsize_toUsize n, h, ofUsize_toUsize]

theorem toUsize_inj {n m : NodeId} : n.toUsize = m.toUsize ↔ n = m := toUsize_injective.eq_iff

end NodeId

namespace XactId

theorem toNat_new (counter : UInt32) (n : NodeId) :
    (new counter n).val.toNat = counter.toNat * 2 ^ 32 + n.val.toNat := by
  have hc := counter.toNat_lt
  have hn := n.val.toNat_lt
  have h32 : (UInt64.ofNat NodeId.bitLength).toNat % 64 = 32 := by decide
  have hlt : counter.toNat <<< 32 < 2 ^ 64 := by
    rw [Nat.shiftLeft_eq]
    omega
  have hor : (counter.toNat <<< 32) ||| n.val.toNat = counter.toNat <<< 32 + n.val.toNat :=
    (Nat.shiftLeft_add_eq_or_of_lt hn counter.toNat).symm
  simp only [new, UInt64.toNat_or, UInt64.toNat_shiftLeft, UInt32.toNat_toUInt64]
  rw [h32, Nat.mod_eq_of_lt hlt, hor, Nat.shiftLeft_eq]

theorem toNat_counter (x : XactId) : x.counter.toNat = x.val.toNat / 2 ^ 32 := by
  have hx := x.val.toNat_lt
  have h32 : (UInt64.ofNat NodeId.bitLength).toNat % 64 = 32 := by decide
  simp only [counter, UInt64.toNat_toUInt32, UInt64.toNat_shiftRight, h32,
    Nat.shiftRight_eq_div_pow]
  omega

theorem toNat_nodeId (x : XactId) : x.nodeId.val.toNat = x.val.toNat % 2 ^ 32 := by
  have hmask : ((1 <<< UInt64.ofNat NodeId.bitLength) - 1 : UInt64).toNat = 2 ^ 32 - 1 := by
    decide
  simp only [nodeId, UInt64.toNat_toUInt32, UInt64.toNat_and, hmask,
    Nat.and_two_pow_sub_one_eq_mod]
  omega

/-- `XactId::counter` recovers the counter. -/
theorem counter_new (counter : UInt32) (n : NodeId) : (new counter n).counter = counter := by
  have hn := n.val.toNat_lt
  apply UInt32.toNat_inj.mp
  rw [toNat_counter, toNat_new]
  omega

/-- `XactId::node_id` recovers the node. -/
theorem nodeId_new (counter : UInt32) (n : NodeId) : (new counter n).nodeId = n := by
  have hn := n.val.toNat_lt
  have hval : (new counter n).nodeId.val = n.val := by
    apply UInt32.toNat_inj.mp
    rw [toNat_nodeId, toNat_new]
    omega
  obtain ⟨v⟩ := n
  exact congrArg NodeId.mk hval

theorem new_inj {counter counter' : UInt32} {n n' : NodeId} :
    new counter n = new counter' n' ↔ counter = counter' ∧ n = n' := by
  constructor
  · intro h
    constructor
    · rw [← counter_new counter n, h, counter_new]
    · rw [← nodeId_new counter n, h, nodeId_new]
  · rintro ⟨rfl, rfl⟩
    rfl

/-- Only counter 0 at node 0 packs into the invalid id. -/
theorem new_eq_invalid {counter : UInt32} {n : NodeId} :
    new counter n = invalid ↔ counter = 0 ∧ n.val = 0 := by
  have hinv : invalid = new 0 ⟨0⟩ := by decide
  rw [hinv, new_inj]
  constructor
  · rintro ⟨hc, rfl⟩
    exact ⟨hc, rfl⟩
  · rintro ⟨hc, hn⟩
    obtain ⟨v⟩ := n
    exact ⟨hc, congrArg NodeId.mk hn⟩

/-- An id is determined by its two components. -/
theorem eq_of_components {x y : XactId} (hc : x.counter = y.counter) (hn : x.nodeId = y.nodeId) :
    x = y := by
  have hc' : x.val.toNat / 2 ^ 32 = y.val.toNat / 2 ^ 32 := by
    rw [← toNat_counter, ← toNat_counter, hc]
  have hn' : x.val.toNat % 2 ^ 32 = y.val.toNat % 2 ^ 32 := by
    rw [← toNat_nodeId, ← toNat_nodeId, hn]
  have hval : x.val = y.val := by
    apply UInt64.toNat_inj.mp
    omega
  obtain ⟨v⟩ := x
  exact congrArg XactId.mk hval

/-! ## The printed form -/

/-- Different ids are printed differently. -/
theorem toString_injective : Function.Injective toString := by
  intro x y h
  have hlist := congrArg String.toList h
  simp only [toString, NodeId.toString, String.toList_append] at hlist
  have hopen := List.append_cancel_right hlist
  rw [List.append_assoc, List.append_assoc, List.append_assoc, List.append_assoc] at hopen
  obtain ⟨hcounter, hnode⟩ := append_cons_inj Char.isDigit (c := ',') (by decide)
    (fun z hz => isDigit_of_mem_repr hz) (fun z hz => isDigit_of_mem_repr hz)
    (List.append_cancel_left hopen)
  refine eq_of_components ?_ ?_
  · exact UInt32.toNat_inj.mp (repr_toList_inj hcounter)
  · have hval : x.nodeId.val = y.nodeId.val := UInt32.toNat_inj.mp (repr_toList_inj hnode)
    cases hx : x.nodeId
    cases hy : y.nodeId
    rw [hx, hy] at hval
    exact congrArg NodeId.mk hval

end XactId

namespace BitSet

theorem mem_toList {s : BitSet} {i : Nat} : i ∈ toList s ↔ i ∈ s := by
  unfold toList
  rw [List.mem_filter, List.mem_range]
  constructor
  · rintro ⟨-, h⟩
    exact of_decide_eq_true h
  · intro h
    have hle : id i ≤ s.sup id := Finset.le_sup h
    exact ⟨Nat.lt_succ_of_le hle, decide_eq_true h⟩

theorem nodup_toList (s : BitSet) : (toList s).Nodup := List.nodup_range.filter _

end BitSet

end Sunstorm
