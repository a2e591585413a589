import Sunstorm.Await.Proc
import Sunstorm.Await.Proofs.ProgProofs

/-!
# Proofs: a sound contract is kept in every run

`kept_of_reach` is the induction over runs, made once for every contract.
-/

namespace Await

variable {σ μ ε ρ φ : Type}

/-! ## Logs -/

@[simp] theorem calls_nil : calls ([] : List (Event μ ε ρ)) = [] := rfl

@[simp] theorem calls_append (log log' : List (Event μ ε ρ)) :
    calls (log ++ log') = calls log ++ calls log' := List.filterMap_append

@[simp] theorem calls_call (e : ε) (log : List (Event μ ε ρ)) :
    calls (.call e :: log) = e :: calls log := rfl

@[simp] theorem calls_recv (m : μ) (log : List (Event μ ε ρ)) :
    calls (.recv m :: log) = calls log := rfl

@[simp] theorem calls_ret (e : ε) (r : ρ) (log : List (Event μ ε ρ)) :
    calls (.ret e r :: log) = calls log := rfl

@[simp] theorem mem_calls {log : List (Event μ ε ρ)} {e : ε} : e ∈ calls log ↔ .call e ∈ log := by
  unfold calls
  rw [List.mem_filterMap]
  constructor
  · rintro ⟨ev, hev, h⟩
    cases ev with
    | call e' =>
      have heq : e' = e := by simpa using h
      exact heq ▸ hev
    | recv m => exact absurd h (by simp)
    | ret e' r => exact absurd h (by simp)
  · intro h
    exact ⟨.call e, h, rfl⟩

theorem Task.eq_halted {task : Task σ ε ρ φ} {why : Halt φ} (h : task.ended = some why) :
    ∃ s, task = .halted s why := by
  cases task with
  | halted s why' =>
    obtain rfl := Option.some.inj h
    exact ⟨s, rfl⟩
  | _ => exact absurd h (by simp [Task.ended])

namespace Proc

theorem post_task (m : μ) (p : Proc σ μ ε ρ φ) : (p.post m).task = p.task := by
  obtain ⟨inbox, task, log⟩ := p
  cases task <;> rfl

theorem post_log (m : μ) (p : Proc σ μ ε ρ φ) : (p.post m).log = p.log := by
  obtain ⟨inbox, task, log⟩ := p
  cases task <;> rfl

theorem mem_post_inbox {m x : μ} {p : Proc σ μ ε ρ φ} (h : x ∈ (p.post m).inbox) :
    x ∈ p.inbox ∨ x = m := by
  obtain ⟨inbox, task, log⟩ := p
  cases task with
  | halted s why => exact Or.inl h
  | _ => simpa [post] using h

theorem mem_enter_inbox {p : Prog σ ε ρ (Except φ Bool × σ)} {inbox : List μ}
    {log : List (Event μ ε ρ)} {x : μ} (h : x ∈ (enter p inbox log).inbox) : x ∈ inbox := by
  unfold enter at h
  split at h
  · exact h
  · exact absurd h (by simp)
  · exact absurd h (by simp)
  · exact h

/-- The shape of a process that takes a message. -/
theorem take_cases {handle : μ → Async σ ε ρ φ Bool} {p p' : Proc σ μ ε ρ φ}
    (h : p.take handle = some p') :
    ∃ s m rest, p.task = .idle s ∧ p.inbox = m :: rest ∧
      p' = enter (handle m s) rest (p.log ++ [.recv m]) := by
  unfold take at h
  split at h
  · exact ⟨_, _, _, ‹_›, ‹_›, (Option.some.inj h).symm⟩
  · exact absurd h (by simp)

/-- The shape of a process that is answered. -/
theorem answer_cases {r : ρ} {p p' : Proc σ μ ε ρ φ} (h : p.answer r = some p') :
    ∃ s e k, p.task = .busy s e k ∧ p' = enter (k r) p.inbox (p.log ++ [.ret e r]) := by
  unfold answer at h
  split at h
  · exact ⟨_, _, _, ‹_›, (Option.some.inj h).symm⟩
  · exact absurd h (by simp)

/-- The shape of a process that is cancelled. -/
theorem cancel_cases {p p' : Proc σ μ ε ρ φ} (h : p.cancel = some p') :
    ∃ s, p.task.state = s ∧ p.task.isHalted = false ∧ p' = ⟨[], .halted s .cancelled, p.log⟩ := by
  unfold cancel at h
  split at h
  · rename_i s hs
    exact ⟨s, by rw [hs]; rfl, by rw [hs]; rfl, (Option.some.inj h).symm⟩
  · rename_i s e k hs
    exact ⟨s, by rw [hs]; rfl, by rw [hs]; rfl, (Option.some.inj h).symm⟩
  · exact absurd h (by simp)

/-- The log only grows when a handler goes on. -/
theorem enter_log_grows (p : Prog σ ε ρ (Except φ Bool × σ)) (inbox : List μ)
    (log : List (Event μ ε ρ)) : log <+: (enter p inbox log).log := by
  unfold enter
  split
  · exact List.prefix_refl _
  · exact List.prefix_refl _
  · exact List.prefix_refl _
  · exact List.prefix_append _ _

/-- What a run from the start leads to is reached. -/
theorem reach_of_run {handle : μ → Async σ ε ρ φ Bool} {A : μ → Prop} {s₀ : σ}
    {p p' : Proc σ μ ε ρ φ} (hp : Reach handle A s₀ p) {acts : List (Act μ ρ)}
    (hA : ∀ m, .post m ∈ acts → A m) (h : p.run handle acts = some p') :
    Reach handle A s₀ p' := by
  induction acts generalizing p with
  | nil =>
    obtain rfl := Option.some.inj h
    exact hp
  | cons a acts ih =>
    unfold run at h
    cases hact : p.act handle a with
    | none =>
      rw [hact] at h
      exact absurd h (by simp)
    | some q =>
      rw [hact] at h
      refine ih ?_ (fun m hm => hA m (List.mem_cons_of_mem a hm)) h
      cases a with
      | post m =>
        obtain rfl := Option.some.inj hact
        exact .post m (hA m List.mem_cons_self) hp
      | take => exact .take hp hact
      | answer r => exact .answer r hp hact
      | cancel => exact .cancel hp hact

/-- Only admitted messages are in the inbox. -/
theorem Reach.admitted {handle : μ → Async σ ε ρ φ Bool} {A : μ → Prop} {s₀ : σ}
    {p : Proc σ μ ε ρ φ} (hp : Reach handle A s₀ p) : ∀ m ∈ p.inbox, A m := by
  induction hp with
  | start => intro m hm; exact absurd hm List.not_mem_nil
  | post m hm _ ih =>
    intro x hx
    rcases mem_post_inbox hx with hx | rfl
    · exact ih x hx
    · exact hm
  | take _ h ih =>
    obtain ⟨s, m, rest, -, hin, rfl⟩ := take_cases h
    intro x hx
    exact ih x (by rw [hin]; exact List.mem_cons_of_mem _ (mem_enter_inbox hx))
  | answer r _ h ih =>
    obtain ⟨s, e, k, -, rfl⟩ := answer_cases h
    exact fun x hx => ih x (mem_enter_inbox hx)
  | cancel _ h ih =>
    obtain ⟨s, -, -, rfl⟩ := cancel_cases h
    intro x hx
    exact absurd hx List.not_mem_nil

end Proc

namespace Contract

variable {C : Contract σ μ ε ρ φ}

/-- A handler that is safe leaves a process that keeps the contract. -/
theorem kept_enter {p : Prog σ ε ρ (Except φ Bool × σ)} {inbox : List μ}
    {log : List (Event μ ε ρ)} (h : p.Safe C.busy C.result log) :
    C.Kept (Proc.enter p inbox log) := by
  match p, h with
  | .done (.ok false, s), h => exact h
  | .done (.ok true, s), h => exact h
  | .done (.error e, s), h => exact h
  | .await s e k, h => exact h

variable {handle : μ → Async σ ε ρ φ Bool} {A : μ → Prop} {s₀ : σ}

/-- A sound contract is kept by every process that can be reached. -/
theorem kept_of_reach (hC : C.Sound handle A s₀) {p : Proc σ μ ε ρ φ}
    (hp : Proc.Reach handle A s₀ p) : C.Kept p := by
  induction hp with
  | start => exact hC.start
  | post m hm _ ih =>
    unfold Kept at ih ⊢
    rw [Proc.post_task, Proc.post_log]
    exact ih
  | take hp h ih =>
    obtain ⟨s, m, rest, ht, hin, rfl⟩ := Proc.take_cases h
    unfold Kept at ih
    rw [ht] at ih
    exact kept_enter (hC.handle m s _ (hp.admitted m (by rw [hin]; simp)) ih)
  | answer r hp h ih =>
    obtain ⟨s, e, k, ht, rfl⟩ := Proc.answer_cases h
    unfold Kept at ih
    rw [ht] at ih
    exact kept_enter (ih.2 r)
  | @cancel p p' hp h ih =>
    obtain ⟨s, hs, hh, rfl⟩ := Proc.cancel_cases h
    unfold Kept at ih
    cases ht : p.task with
    | idle s' =>
      rw [ht] at ih hs
      subst hs
      exact hC.cancel_idle _ _ ih
    | busy s' e k =>
      rw [ht] at ih hs
      subst hs
      exact hC.cancel_busy _ _ ih.1
    | halted s' why => rw [ht] at hh; exact absurd hh (by simp [Task.isHalted])

end Contract

end Await
