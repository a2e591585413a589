import Sunstorm.Commitment.Commitment

/-!
# Proofs: what atomic commitment promises
-/

namespace Commitment

variable {ι : Type} [DecidableEq ι] {s s' : ι → Phase} {i j : ι}

/-- Once a part is committed, every part is prepared or committed. -/
theorem Reach.all_prepared (hr : Reach s) (hi : s i = .committed) (j : ι) :
    s j = .prepared ∨ s j = .committed := by
  induction hr generalizing i j with
  | start => exact absurd hi (by simp)
  | step hr h ih =>
    cases h with
    | prepare k hk h' =>
      have hik : i ≠ k := by
        rintro rfl
        rw [h', Function.update_self] at hi
        exact absurd hi (by simp)
      rw [h', Function.update_of_ne hik] at hi
      by_cases hjk : j = k
      · subst hjk
        exact Or.inl (by rw [h', Function.update_self])
      · rw [h', Function.update_of_ne hjk]
        exact ih hi j
    | commit k hk all h' =>
      by_cases hjk : j = k
      · subst hjk
        exact Or.inr (by rw [h', Function.update_self])
      · rw [h', Function.update_of_ne hjk]
        exact all j
    | rollBack k hk none h' =>
      have hik : i ≠ k := by
        rintro rfl
        rw [h', Function.update_self] at hi
        exact absurd hi (by simp)
      rw [h', Function.update_of_ne hik] at hi
      exact absurd hi (none i)

/-- **Consistency.** No part is committed while another one is rolled back. -/
theorem Reach.consistent (hr : Reach s) (hi : s i = .committed) : s j ≠ .rolledBack := by
  intro hj
  rcases hr.all_prepared hi j with h | h
  · rw [hj] at h
    exact absurd h (by simp)
  · rw [hj] at h
    exact absurd h (by simp)

end Commitment
