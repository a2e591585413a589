import Sunstorm.Machine.Machine
import Mathlib.Logic.Function.Basic

/-!
# Machines side by side

A family of machines, each with a state of its own. An act names the machine that it concerns, and
leaves the others alone.
-/

namespace Machine

variable {κ σ α : Type} [DecidableEq κ]

/-- One step of the family: the machine that the act names makes it. -/
def family (step : κ → σ → α → Option σ) (s : κ → σ) (a : κ × α) : Option (κ → σ) :=
  (step a.1 (s a.1) a.2).map (Function.update s a.1)

/-- The acts that concern the machine `k`. -/
def share (k : κ) (as : List (κ × α)) : List α :=
  as.filterMap fun a => if a.1 = k then some a.2 else none

end Machine
