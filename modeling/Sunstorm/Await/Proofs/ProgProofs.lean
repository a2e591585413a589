import Sunstorm.Await.Prog

/-!
# Proofs: the logic of programs that await

`Prog.run`, `Prog.asks`, `Prog.Safe` and `Prog.Wp` follow the structure of a program: one rule for
sequencing, one for zooming, one for asking, one for weakening.
-/

namespace Await

namespace Prog

variable {σ τ μ ε ρ α β γ : Type}

@[simp] theorem bind_done (f : α → Prog σ ε ρ β) (a : α) : bind f (done a) = f a := rfl

@[simp] theorem bind_await (f : α → Prog σ ε ρ β) (s : σ) (e : ε) (k : ρ → Prog σ ε ρ α) :
    bind f (await s e k) = await s e fun r => bind f (k r) := rfl

@[simp] theorem zoom_done (g : σ → τ) (a : α) : zoom g (done a : Prog σ ε ρ α) = done a := rfl

@[simp] theorem zoom_await (g : σ → τ) (s : σ) (e : ε) (k : ρ → Prog σ ε ρ α) :
    zoom g (await s e k) = await (g s) e fun r => zoom g (k r) := rfl

@[simp] theorem run_done (env : ε → ρ) (a : α) : run env (done a : Prog σ ε ρ α) = a := rfl

@[simp] theorem run_await (env : ε → ρ) (s : σ) (e : ε) (k : ρ → Prog σ ε ρ α) :
    run env (await s e k) = run env (k (env e)) := rfl

@[simp] theorem safe_done (J : σ → List (Event μ ε ρ) → Prop) (Q : α → List (Event μ ε ρ) → Prop)
    (a : α) (h : List (Event μ ε ρ)) : Safe J Q (done a) h ↔ Q a h := Iff.rfl

@[simp] theorem safe_await (J : σ → List (Event μ ε ρ) → Prop) (Q : α → List (Event μ ε ρ) → Prop)
    (s : σ) (e : ε) (k : ρ → Prog σ ε ρ α) (h : List (Event μ ε ρ)) :
    Safe J Q (await s e k) h ↔
      J s (h ++ [.call e]) ∧ ∀ r, Safe J Q (k r) (h ++ [.call e] ++ [.ret e r]) := Iff.rfl

/-- Sequencing is associative. -/
theorem bind_bind (f : α → Prog σ ε ρ β) (g : β → Prog σ ε ρ γ) (p : Prog σ ε ρ α) :
    bind g (bind f p) = bind (fun a => bind g (f a)) p := by
  induction p with
  | done a => rfl
  | await s e k ih => simp only [bind_await, ih]

/-- The result of a sequence is the result of its second part on the result of the first. -/
theorem run_bind (env : ε → ρ) (f : α → Prog σ ε ρ β) (p : Prog σ ε ρ α) :
    run env (bind f p) = run env (f (run env p)) := by
  induction p with
  | done a => rfl
  | await s e k ih => exact ih (env e)

/-- Zooming does not change the result. -/
theorem run_zoom (env : ε → ρ) (g : σ → τ) (p : Prog σ ε ρ α) :
    run env (zoom g p) = run env p := by
  induction p with
  | done a => rfl
  | await s e k ih => exact ih (env e)

@[simp] theorem asks_done (env : ε → ρ) (a : α) : asks env (done a : Prog σ ε ρ α) = [] := rfl

@[simp] theorem asks_await (env : ε → ρ) (s : σ) (e : ε) (k : ρ → Prog σ ε ρ α) :
    asks env (await s e k) = e :: asks env (k (env e)) := rfl

/-- A sequence asks for what its first part asks for, and then for what its second part does. -/
theorem asks_bind (env : ε → ρ) (f : α → Prog σ ε ρ β) (p : Prog σ ε ρ α) :
    asks env (bind f p) = asks env p ++ asks env (f (run env p)) := by
  induction p with
  | done a => rfl
  | await s e k ih => simp [ih]

theorem asks_zoom (env : ε → ρ) (g : σ → τ) (p : Prog σ ε ρ α) :
    asks env (zoom g p) = asks env p := by
  induction p with
  | done a => rfl
  | await s e k ih => simp [ih]

/-! ## Safety -/

section Safety

variable {J J' : σ → List (Event μ ε ρ) → Prop}

theorem safe_bind {Q : β → List (Event μ ε ρ) → Prop} (f : α → Prog σ ε ρ β) (p : Prog σ ε ρ α)
    (h : List (Event μ ε ρ)) :
    Safe J Q (bind f p) h ↔ Safe J (fun a h' => Safe J Q (f a) h') p h := by
  induction p generalizing h with
  | done a => rfl
  | await s e k ih => simp only [bind_await, safe_await, ih]

theorem safe_zoom {K : τ → List (Event μ ε ρ) → Prop} {Q : α → List (Event μ ε ρ) → Prop}
    (g : σ → τ) (p : Prog σ ε ρ α) (h : List (Event μ ε ρ)) :
    Safe K Q (zoom g p) h ↔ Safe (fun s => K (g s)) Q p h := by
  induction p generalizing h with
  | done a => rfl
  | await s e k ih => simp only [zoom_await, safe_await, ih]

/-- Weakening rule. -/
theorem Safe.mono {Q Q' : α → List (Event μ ε ρ) → Prop} {p : Prog σ ε ρ α}
    {h : List (Event μ ε ρ)} (hp : Safe J Q p h) (hJ : ∀ s h, J s h → J' s h)
    (hQ : ∀ a h, Q a h → Q' a h) : Safe J' Q' p h := by
  induction p generalizing h with
  | done a => exact hQ _ _ hp
  | await s e k ih => exact ⟨hJ _ _ hp.1, fun r => ih r (hp.2 r)⟩

/-- What holds of every state and of every result is kept by every program. -/
theorem safe_of_forall {Q : α → List (Event μ ε ρ) → Prop} (hJ : ∀ s h, J s h) (hQ : ∀ a h, Q a h)
    (p : Prog σ ε ρ α) (h : List (Event μ ε ρ)) : Safe J Q p h := by
  induction p generalizing h with
  | done a => exact hQ _ _
  | await s e k ih => exact ⟨hJ _ _, fun r => ih r _⟩

end Safety

/-! ## Worlds -/

section Worlds

variable {ω : Type} {exec : ε → ω → ρ → ω → Prop} {G : ε → ω → Prop}

theorem wp_bind {Q : β → ω → Prop} (f : α → Prog σ ε ρ β) (p : Prog σ ε ρ α) (w : ω) :
    Wp exec G Q (bind f p) w ↔ Wp exec G (fun a w' => Wp exec G Q (f a) w') p w := by
  induction p generalizing w with
  | done a => rfl
  | await s e k ih => simp only [bind_await, Wp, ih]

end Worlds

end Prog

namespace Async

section Safety

variable {σ τ μ ε ρ φ ψ α β : Type} {J : σ → List (Event μ ε ρ) → Prop} {s : σ}
  {h : List (Event μ ε ρ)}

/-- Sequencing rule. -/
theorem safe_bind {Q : Except φ β × σ → List (Event μ ε ρ) → Prop} (x : Async σ ε ρ φ α)
    (f : α → Async σ ε ρ φ β) : ((x >>= f) s).Safe J Q h ↔ (x s).Safe J (After J Q f) h := by
  refine (Prog.safe_bind _ _ _).trans (iff_of_eq ?_)
  congr 1
  funext a h'
  obtain ⟨r, s'⟩ := a
  cases r <;> rfl

theorem safe_mapFailure {Q : Except φ α × σ → List (Event μ ε ρ) → Prop} (g : ψ → φ)
    (x : Async σ ε ρ ψ α) :
    ((x.mapFailure g) s).Safe J Q h ↔ (x s).Safe J (fun a => Q (a.1.mapError g, a.2)) h :=
  Prog.safe_bind _ _ _

theorem safe_attempt {Q : Except φ (Except ψ α) × σ → List (Event μ ε ρ) → Prop}
    (x : Async σ ε ρ ψ α) :
    ((x.attempt : Async σ ε ρ φ (Except ψ α)) s).Safe J Q h ↔
      (x s).Safe J (fun a => Q (.ok a.1, a.2)) h := Prog.safe_bind _ _ _

theorem safe_update {Q : Except φ Unit × σ → List (Event μ ε ρ) → Prop} (f : σ → Except φ σ) :
    ((update f : Async σ ε ρ φ Unit) s).Safe J Q h ↔
      (∀ t, f s = .ok t → Q (.ok (), t) h) ∧ ∀ e, f s = .error e → Q (.error e, s) h := by
  unfold update
  cases f s with
  | ok t => simp
  | error e => simp

/-- Zooming rule: the larger state is looked at through `g`. -/
theorem safe_within {K : τ → List (Event μ ε ρ) → Prop}
    {Q : Except φ α × τ → List (Event μ ε ρ) → Prop} (g : σ → τ) (x : Async σ ε ρ φ α) (t : τ) :
    ((x.within g s) t).Safe K Q h ↔
      (x s).Safe (fun s => K (g s)) (fun a => Q (a.1, g a.2)) h :=
  (Prog.safe_bind _ _ _).trans (Prog.safe_zoom _ _ _)

/-! ## Keeping a property of the state -/

variable {I : σ → Prop}

theorem keeps_pure (a : α) : Keeps μ I (pure a : Async σ ε ρ φ α) := fun _ hs _ => hs

theorem keeps_get : Keeps μ I (get : Async σ ε ρ φ σ) := fun _ hs _ => hs

theorem keeps_lift (x : Except φ α) : Keeps μ I (lift x : Async σ ε ρ φ α) := fun _ hs _ => hs

theorem keeps_fail (e : φ) : Keeps μ I (fail e : Async σ ε ρ φ α) := fun _ hs _ => hs

theorem keeps_call (e : ε) : Keeps μ I (call e : Async σ ε ρ φ ρ) := fun _ hs _ =>
  ⟨hs, fun _ => hs⟩

theorem keeps_ensure (b : Bool) (e : φ) : Keeps μ I (ensure b e : Async σ ε ρ φ Unit) := by
  intro s hs h
  cases b with
  | true => exact hs
  | false => exact hs

theorem keeps_update {f : σ → Except φ σ} (hf : ∀ s t, I s → f s = .ok t → I t) :
    Keeps μ I (update f : Async σ ε ρ φ Unit) := by
  intro s hs h
  rw [safe_update]
  exact ⟨fun t ht => hf s t hs ht, fun e _ => hs⟩

theorem Keeps.bind {x : Async σ ε ρ φ α} {f : α → Async σ ε ρ φ β} (hx : Keeps μ I x)
    (hf : ∀ a, Keeps μ I (f a)) : Keeps μ I (x >>= f) := by
  intro s hs h
  rw [safe_bind]
  refine (hx s hs h).mono (fun _ _ hi => hi) fun a h' ha => ?_
  obtain ⟨r, s'⟩ := a
  cases r with
  | ok a => exact hf a s' ha h'
  | error e => exact ha

theorem Keeps.mapFailure {x : Async σ ε ρ ψ α} (hx : Keeps μ I x) (g : ψ → φ) :
    Keeps μ I (x.mapFailure g) := by
  intro s hs h
  rw [safe_mapFailure]
  exact hx s hs h

end Safety

variable {σ ε ρ φ ψ α β ω : Type} {exec : ε → ω → ρ → ω → Prop} {G : ε → ω → Prop} {s : σ} {w : ω}

/-- Sequencing rule. -/
theorem wp_bind {Q : Except φ β × σ → ω → Prop} (x : Async σ ε ρ φ α) (f : α → Async σ ε ρ φ β) :
    ((x >>= f) s).Wp exec G Q w ↔ (x s).Wp exec G (Next exec G Q f) w := by
  refine (Prog.wp_bind _ _ _).trans (iff_of_eq ?_)
  congr 1
  funext a w'
  obtain ⟨r, s'⟩ := a
  cases r <;> rfl

theorem wp_attempt {Q : Except φ (Except ψ α) × σ → ω → Prop} (x : Async σ ε ρ ψ α) :
    ((x.attempt : Async σ ε ρ φ (Except ψ α)) s).Wp exec G Q w ↔
      (x s).Wp exec G (fun a => Q (.ok a.1, a.2)) w := Prog.wp_bind _ _ _

/-- Asking rule: whatever the effect is answered. -/
theorem wp_ask {exec : ε → ω → Except φ α → ω → Prop} {Q : Except φ α × σ → ω → Prop} (e : ε) :
    (ask e s).Wp exec G Q w ↔ G e w ∧ ∀ r w', exec e w r w' → Q (r, s) w' := Iff.rfl

end Async

end Await
