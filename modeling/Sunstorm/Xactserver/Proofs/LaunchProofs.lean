import Sunstorm.Xactserver.Calls
import Sunstorm.Xactserver.Proofs.HandlerProofs
import Sunstorm.Xactserver.Proofs.ManagerProofs

/-!
# Proofs: what becomes of a local transaction

`handle_local_xact_msg` asserts that the transaction waits, and leaves it to the votes of others to
finish it. So it needs another participant whose vote is still to come.
-/

namespace Sunstorm

open Await Tally

namespace XactStateManager

/-- Someone else takes part in the transaction whose vote was not kept, and no vote that was kept
decides it. -/
def Awaited (n : NodeId) (P : BitSet) (early : List VoteMessage) : Prop :=
  (∀ v ∈ early.map VoteMessage.cast, isNo P v = false) ∧
    ∃ i ∈ P, i ≠ n.toUsize ∧ (i, none) ∉ early.map VoteMessage.cast

variable {id : XactId} {n : NodeId} {P : BitSet} {early : List VoteMessage} {data : Bytes}
  {tx : Sender}

/-- While no vote is a no, the votes missing are those of which there is no yes. -/
theorem mem_voted {vs : List (Nat × Option RollbackReason)} (hno : ∀ v ∈ vs, isNo P v = false)
    {i : Nat} : i ∈ voted P vs ↔ i ∈ P ∧ (i, none) ∈ vs := by
  unfold voted
  rw [untilNo_eq_self hno, Finset.mem_filter, mem_yesFrom]

theorem isNo_coordinator (n : NodeId) (data : Bytes) (tx : Sender) :
    (∀ v ∈ (Opening.coordinator data tx).votes n ++ early.map VoteMessage.cast, isNo P v = false) ↔
      ∀ v ∈ early.map VoteMessage.cast, isNo P v = false := by
  simp [Opening.votes, isNo]

/-- The ballot of an awaited transaction is open, and the one awaited did not vote. -/
theorem Awaited.waiting (h : Awaited n P early) (data : Bytes) (tx : Sender) :
    decision P ((Opening.coordinator data tx).votes n ++ early.map VoteMessage.cast) = .waiting ∧
      ∃ i ∈ P, i ≠ n.toUsize ∧
        i ∉ voted P ((Opening.coordinator data tx).votes n ++ early.map VoteMessage.cast) := by
  obtain ⟨hno, i, hi, hne, hmissing⟩ := h
  have hno' := (isNo_coordinator n data tx).mpr hno
  have hvoted : i ∉ voted P ((Opening.coordinator data tx).votes n ++
      early.map VoteMessage.cast) := by
    rw [mem_voted hno']
    rintro ⟨-, hmem⟩
    rcases List.mem_append.mp hmem with hmem | hmem
    · have heq : i = n.toUsize := by simpa [Opening.votes] using hmem
      exact hne heq
    · exact hmissing hmem
  refine ⟨decision_eq_waiting.mpr ⟨hno', fun _ hall => hvoted ?_⟩, i, hi, hne, hvoted⟩
  rw [hall]
  exact hi

end XactStateManager

open XactStateManager

end Sunstorm
