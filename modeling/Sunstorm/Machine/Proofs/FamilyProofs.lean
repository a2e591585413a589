import Sunstorm.Machine.Family

/-!
# Proofs: a family runs as its machines do
-/

namespace Machine

variable {κ σ α : Type} [DecidableEq κ] {step : κ → σ → α → Option σ} {s s' : κ → σ} {k : κ}

@[simp] theorem share_nil : share k ([] : List (κ × α)) = [] := rfl

theorem share_own (a : α) (as : List (κ × α)) : share k ((k, a) :: as) = a :: share k as := by
  unfold share
  rw [List.filterMap_cons, if_pos rfl]

theorem share_other {j : κ} (h : j ≠ k) (a : α) (as : List (κ × α)) :
    share k ((j, a) :: as) = share k as := by
  unfold share
  rw [List.filterMap_cons, if_neg h]

/-- A run of the family gives every machine a run of its own. -/
theorem run_of_family {as : List (κ × α)} (h : run (family step) s as = some s') (k : κ) :
    run (step k) (s k) (share k as) = some (s' k) := by
  induction as generalizing s with
  | nil =>
    obtain rfl := Option.some.inj h
    rfl
  | cons a as ih =>
    obtain ⟨j, a⟩ := a
    unfold run at h
    cases hstep : step j (s j) a with
    | none =>
      have hnone : family step s (j, a) = none := by
        unfold family
        rw [hstep]
        rfl
      rw [hnone] at h
      exact absurd h (by simp)
    | some x =>
      have hsome : family step s (j, a) = some (Function.update s j x) := by
        unfold family
        rw [hstep]
        rfl
      rw [hsome] at h
      have hrest := ih h
      by_cases hj : j = k
      · subst hj
        rw [Function.update_self] at hrest
        rw [share_own]
        unfold run
        rw [hstep]
        exact hrest
      · rw [Function.update_of_ne fun heq => hj heq.symm] at hrest
        rw [share_other hj]
        exact hrest

/-- When every machine can run on its own, the family can. -/
theorem family_of_run {as : List (κ × α)}
    (h : ∀ k, run (step k) (s k) (share k as) = some (s' k)) :
    run (family step) s as = some s' := by
  induction as generalizing s with
  | nil =>
    have hsame : s = s' := funext fun k => Option.some.inj (h k)
    rw [hsame]
    rfl
  | cons a as ih =>
    obtain ⟨j, a⟩ := a
    have hown := h j
    rw [share_own] at hown
    unfold run at hown
    cases hstep : step j (s j) a with
    | none =>
      rw [hstep] at hown
      exact absurd hown (by simp)
    | some x =>
      rw [hstep] at hown
      have hrest : ∀ k, run (step k) (Function.update s j x k) (share k as) = some (s' k) := by
        intro k
        by_cases hk : k = j
        · subst hk
          rw [Function.update_self]
          exact hown
        · rw [Function.update_of_ne hk]
          have hother := h k
          rw [share_other fun heq => hk heq.symm] at hother
          exact hother
      unfold run family
      dsimp only
      rw [hstep]
      exact ih hrest

/-- **A family runs as its machines do.** It can make a sequence of acts if every machine can make
its share of them. -/
theorem family_isSome_iff {as : List (κ × α)} :
    (run (family step) s as).isSome = true ↔
      ∀ k, (run (step k) (s k) (share k as)).isSome = true := by
  constructor
  · intro h k
    obtain ⟨s', hs'⟩ := Option.isSome_iff_exists.mp h
    rw [run_of_family hs' k]
    rfl
  · intro h
    have hrun : run (family step) s as = some fun k => (run (step k) (s k) (share k as)).get (h k) :=
      family_of_run fun k => (Option.some_get (h k)).symm
    rw [hrun]
    rfl

end Machine
