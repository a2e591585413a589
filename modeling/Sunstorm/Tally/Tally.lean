import Mathlib.Data.Finset.Basic

/-!
# Counting votes under a veto

A ballot is taken among the members of a finite set `P`. A vote is a sender with, for a no, its
reason. Votes of senders outside `P` do not count. The ballot is carried when every member has
voted yes before any member has voted no, and it is lost by the first no that comes before that.
-/

namespace Tally

variable {ι ρ : Type} [DecidableEq ι]

/-- What the votes so far decide. -/
inductive Decision (ι ρ : Type) where
  | waiting
  | commit
  | rollback (by_ : ι) (reason : ρ)
  deriving DecidableEq

/-- A no of a member. -/
def isNo (P : Finset ι) (v : ι × Option ρ) : Bool := decide (v.1 ∈ P) && v.2.isSome

/-- The votes before the first no of a member. -/
def untilNo (P : Finset ι) (vs : List (ι × Option ρ)) : List (ι × Option ρ) :=
  vs.takeWhile fun v => !isNo P v

/-- The senders of the yes votes. -/
def yesFrom (vs : List (ι × Option ρ)) : List ι :=
  vs.filterMap fun v => if v.2.isNone then some v.1 else none

/-- The members that voted yes before the first no of a member. -/
def voted (P : Finset ι) (vs : List (ι × Option ρ)) : Finset ι :=
  P.filter (· ∈ yesFrom (untilNo P vs))

/-- The decision of the ballot. -/
def decision (P : Finset ι) (vs : List (ι × Option ρ)) : Decision ι ρ :=
  if P.Nonempty ∧ ∀ p ∈ P, p ∈ yesFrom (untilNo P vs) then .commit
  else
    match vs.find? (isNo P) with
    | some (p, some r) => .rollback p r
    | _ => .waiting

/-- One more vote `v`, for a ballot that stands at `d` with the yes votes `ys`. -/
def count (P : Finset ι) (v : ι × Option ρ) : Decision ι ρ × Finset ι → Decision ι ρ × Finset ι
  | (.waiting, ys) =>
    if v.1 ∈ P then
      match v.2 with
      | some r => (.rollback v.1 r, ys)
      | none => (if insert v.1 ys = P then .commit else .waiting, insert v.1 ys)
    else (.waiting, ys)
  | (d, ys) => (d, ys)

/-- The votes `ws`, counted after `vs`, go on after the ballot is carried. -/
def Overrun (P : Finset ι) (vs ws : List (ι × Option ρ)) : Prop :=
  ∃ j < ws.length, decision P (vs ++ ws.take j) = .commit

instance [DecidableEq ρ] (P : Finset ι) (vs ws : List (ι × Option ρ)) :
    Decidable (Overrun P vs ws) :=
  inferInstanceAs (Decidable (∃ j < ws.length, decision P (vs ++ ws.take j) = .commit))

/-- No member votes both ways. -/
def Consistent (P : Finset ι) (vs : List (ι × Option ρ)) : Prop :=
  ∀ p ∈ P, (p, none) ∈ vs → ∀ r, (p, some r) ∉ vs

end Tally
