import Mathlib.Logic.Function.Basic

/-!
# Atomic commitment

What a commit protocol is for. Every resource manager works on its part of a transaction and may
prepare it. A part is committed only when all parts are prepared, and rolled back only while no part
is committed. The protocol that gets there is left open.
-/

namespace Commitment

/-- What has become of the part of one resource manager. -/
inductive Phase where
  | working
  | prepared
  | committed
  | rolledBack
  deriving DecidableEq

variable {ι : Type} [DecidableEq ι]

/-- What the resource managers `ι` may do. -/
inductive Step (s s' : ι → Phase) : Prop where
  | prepare (i : ι) (h : s i = .working) (h' : s' = Function.update s i .prepared)
  | commit (i : ι) (h : s i = .prepared) (all : ∀ j, s j = .prepared ∨ s j = .committed)
    (h' : s' = Function.update s i .committed)
  | rollBack (i : ι) (h : s i = .working ∨ s i = .prepared) (none : ∀ j, s j ≠ .committed)
    (h' : s' = Function.update s i .rolledBack)

/-- What can be reached when all resource managers are at work at first. -/
inductive Reach : (ι → Phase) → Prop where
  | start : Reach fun _ => .working
  | step {s s' : ι → Phase} (hr : Reach s) (h : Step s s') : Reach s'

end Commitment
