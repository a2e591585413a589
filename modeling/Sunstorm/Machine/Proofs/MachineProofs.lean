import Sunstorm.Machine.Machine

/-!
# Proofs: invariants and runs of machines
-/

namespace Machine

variable {σ α : Type} {step : σ → α → Option σ} {ok : σ → α → Prop} {s₀ s s' : σ} {as : List α}

theorem run_cons (s : σ) (a : α) (as : List α) :
    run step s (a :: as) = (step s a).bind fun s' => run step s' as := by
  rw [run]
  cases step s a <;> rfl

/-- What holds at the start and is kept by every admitted step holds in every state reached. -/
theorem Reach.invariant {Inv : σ → Prop} (h₀ : Inv s₀)
    (hstep : ∀ s a s', Inv s → ok s a → step s a = some s' → Inv s') (hr : Reach step ok s₀ s) :
    Inv s := by
  induction hr with
  | start => exact h₀
  | step a _ ha h ih => exact hstep _ a _ ih ha h

/-- What is reached from a state that is reached is reached. -/
theorem Reach.trans (h₁ : Reach step ok s₀ s) (h₂ : Reach step ok s s') : Reach step ok s₀ s' := by
  induction h₂ with
  | start => exact h₁
  | step a _ ha h ih => exact .step a ih ha h

theorem admitted_of_forall (hok : ∀ s, ∀ a ∈ as, ok s a) : Admitted step ok s as := by
  induction as generalizing s with
  | nil => trivial
  | cons a as ih =>
    exact ⟨hok s a List.mem_cons_self,
      fun s' _ => ih fun s b hb => hok s b (List.mem_cons_of_mem a hb)⟩

/-- What an admitted run leads to is reached. -/
theorem reach_of_run (hr : Reach step ok s₀ s) (hok : Admitted step ok s as)
    (h : run step s as = some s') : Reach step ok s₀ s' := by
  induction as generalizing s with
  | nil =>
    obtain rfl := Option.some.inj h
    exact hr
  | cons a as ih =>
    unfold run at h
    cases hstep : step s a with
    | none =>
      rw [hstep] at h
      exact absurd h (by simp)
    | some s₁ =>
      rw [hstep] at h
      exact ih (.step a hr hok.1 hstep) (hok.2 s₁ hstep) h

end Machine
