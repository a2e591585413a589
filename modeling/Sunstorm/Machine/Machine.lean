import Mathlib.Init

/-!
# Machines

A machine is a step function: it says of every state and every act whether the act is possible, and
where it leads. Runs are sequences of acts; what can be reached is stated for the acts that are
admitted in each state.
-/

namespace Machine

variable {σ α : Type}

/-- The state after a sequence of acts, if all of them are possible. -/
def run (step : σ → α → Option σ) (s : σ) : List α → Option σ
  | [] => some s
  | a :: as =>
    match step s a with
    | some s => run step s as
    | none => none

/-- Every act of the sequence is admitted where it is made. -/
def Admitted (step : σ → α → Option σ) (ok : σ → α → Prop) (s : σ) : List α → Prop
  | [] => True
  | a :: as => ok s a ∧ ∀ s' ∈ step s a, Admitted step ok s' as

instance Admitted.decidable (step : σ → α → Option σ) (ok : σ → α → Prop)
    [∀ s a, Decidable (ok s a)] : (s : σ) → (as : List α) → Decidable (Admitted step ok s as)
  | _, [] => isTrue trivial
  | s, a :: as =>
    have : ∀ s', Decidable (Admitted step ok s' as) := fun s' => decidable step ok s' as
    inferInstanceAs (Decidable (ok s a ∧ ∀ s' ∈ step s a, Admitted step ok s' as))

/-- What can be reached from `s₀` by acts that `ok` admits. -/
inductive Reach (step : σ → α → Option σ) (ok : σ → α → Prop) (s₀ : σ) : σ → Prop where
  | start : Reach step ok s₀ s₀
  | step {s s' : σ} (a : α) (hr : Reach step ok s₀ s) (ha : ok s a) (h : step s a = some s') :
      Reach step ok s₀ s'

end Machine
