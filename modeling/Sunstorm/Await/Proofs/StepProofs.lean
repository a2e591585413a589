import Sunstorm.Await.Proofs.ProcProofs

/-!
# Proofs: what one step does to the log and to the messages received

A step adds to the log and takes nothing away from it. The messages that a process has received
stay the same until it ends; then those it had not taken are lost.
-/

namespace Await

variable {σ μ ε ρ φ : Type}

/-! ## Messages in a log -/

@[simp] theorem recvs_nil : recvs ([] : List (Event μ ε ρ)) = [] := rfl

@[simp] theorem recvs_append (log log' : List (Event μ ε ρ)) :
    recvs (log ++ log') = recvs log ++ recvs log' := List.filterMap_append

@[simp] theorem recvs_recv (m : μ) (log : List (Event μ ε ρ)) :
    recvs (.recv m :: log) = m :: recvs log := rfl

@[simp] theorem recvs_call (e : ε) (log : List (Event μ ε ρ)) :
    recvs (.call e :: log) = recvs log := rfl

@[simp] theorem recvs_ret (e : ε) (r : ρ) (log : List (Event μ ε ρ)) :
    recvs (.ret e r :: log) = recvs log := rfl

@[simp] theorem mem_recvs {log : List (Event μ ε ρ)} {m : μ} : m ∈ recvs log ↔ .recv m ∈ log := by
  unfold recvs
  rw [List.mem_filterMap]
  constructor
  · rintro ⟨ev, hev, h⟩
    cases ev with
    | recv m' =>
      have heq : m' = m := by simpa using h
      exact heq ▸ hev
    | call e => exact absurd h (by simp)
    | ret e r => exact absurd h (by simp)
  · intro h
    exact ⟨.recv m, h, rfl⟩

namespace Proc

/-! ## A message arrives -/

theorem received_post (m : μ) {p : Proc σ μ ε ρ φ} (h : p.task.isHalted = false) :
    (p.post m).received = p.received ++ [m] := by
  obtain ⟨inbox, task, log⟩ := p
  cases task with
  | halted s why => exact absurd h (by simp [Task.isHalted])
  | _ => simp [post, received]

theorem post_halted (m : μ) {p : Proc σ μ ε ρ φ} (h : p.task.isHalted = true) : p.post m = p := by
  obtain ⟨inbox, task, log⟩ := p
  cases task with
  | halted s why => rfl
  | _ => exact absurd h (by simp [Task.isHalted])

theorem mem_received_post {m x : μ} {p : Proc σ μ ε ρ φ} (h : x ∈ (p.post m).received) :
    x ∈ p.received ∨ x = m := by
  cases hh : p.task.isHalted with
  | true =>
    rw [post_halted m hh] at h
    exact Or.inl h
  | false =>
    rw [received_post m hh, List.mem_append, List.mem_singleton] at h
    exact h

/-- Nothing happens any more to a process that has ended. -/
theorem run_halted {handle : μ → Async σ ε ρ φ Bool} {p p' : Proc σ μ ε ρ φ}
    (h : p.task.isHalted = true) {acts : List (Act μ ρ)} (hrun : p.run handle acts = some p') :
    p' = p := by
  induction acts with
  | nil => exact (Option.some.inj hrun).symm
  | cons a acts ih =>
    obtain ⟨s, why, ht⟩ : ∃ s why, p.task = .halted s why := by
      cases ht : p.task with
      | halted s why => exact ⟨s, why, rfl⟩
      | _ =>
        rw [ht] at h
        exact absurd h (by simp [Task.isHalted])
    unfold run at hrun
    cases a with
    | post m =>
      simp only [act, post_halted m h] at hrun
      exact ih hrun
    | take => exact absurd hrun (by simp [act, take, ht])
    | answer r => exact absurd hrun (by simp [act, answer, ht])
    | cancel => exact absurd hrun (by simp [act, cancel, ht])

/-! ## A handler goes on -/

theorem enter_received (p : Prog σ ε ρ (Except φ Bool × σ)) (inbox : List μ)
    (log : List (Event μ ε ρ)) :
    (enter p inbox log).received =
      recvs log ++ if (enter p inbox log).task.isHalted then [] else inbox := by
  unfold enter received
  split <;> simp [Task.isHalted]

/-- A handler that goes on asks for an effect, or is through. -/
theorem enter_cases (p : Prog σ ε ρ (Except φ Bool × σ)) (inbox : List μ)
    (log : List (Event μ ε ρ)) :
    ((enter p inbox log).task.isBusy = false ∧ (enter p inbox log).log = log) ∨
      ∃ s e k, (enter p inbox log).task = .busy s e k ∧
        (enter p inbox log).log = log ++ [.call e] := by
  unfold enter
  split
  · exact Or.inl ⟨rfl, rfl⟩
  · exact Or.inl ⟨rfl, rfl⟩
  · exact Or.inl ⟨rfl, rfl⟩
  · rename_i s e k
    exact Or.inr ⟨s, e, k, rfl, rfl⟩

/-- All that a handler adds to the log is the effect it asks for. -/
theorem enter_log (p : Prog σ ε ρ (Except φ Bool × σ)) (inbox : List μ)
    (log : List (Event μ ε ρ)) :
    (enter p inbox log).log = log ∨ ∃ e, (enter p inbox log).log = log ++ [.call e] := by
  rcases enter_cases p inbox log with ⟨-, hlog⟩ | ⟨s, e, k, -, hlog⟩
  · exact Or.inl hlog
  · exact Or.inr ⟨e, hlog⟩

theorem mem_enter_log {p : Prog σ ε ρ (Except φ Bool × σ)} {inbox : List μ}
    {log : List (Event μ ε ρ)} {ev : Event μ ε ρ} (hev : ∀ e, ev ≠ .call e)
    (h : ev ∈ (enter p inbox log).log) : ev ∈ log := by
  rcases enter_log p inbox log with heq | ⟨e, heq⟩
  · exact heq ▸ h
  · rw [heq, List.mem_append, List.mem_singleton] at h
    exact h.resolve_right (hev e)

theorem enter_not_cancelled (p : Prog σ ε ρ (Except φ Bool × σ)) (inbox : List μ)
    (log : List (Event μ ε ρ)) (s : σ) : (enter p inbox log).task ≠ .halted s .cancelled := by
  unfold enter
  split <;> simp

/-! ## A step -/

namespace Step

variable {handle : μ → Async σ ε ρ φ Bool} {p p' : Proc σ μ ε ρ φ}

theorem not_halted (h : Step handle p p') : p.task.isHalted = false := by
  cases h with
  | take h =>
    obtain ⟨s, m, rest, ht, -, -⟩ := take_cases h
    rw [ht]
    rfl
  | answer r h =>
    obtain ⟨s, e, k, ht, -⟩ := answer_cases h
    rw [ht]
    rfl
  | cancel h =>
    obtain ⟨s, -, ht, -⟩ := cancel_cases h
    exact ht

theorem log_grows (h : Step handle p p') : p.log <+: p'.log := by
  cases h with
  | take h =>
    obtain ⟨s, m, rest, -, -, rfl⟩ := take_cases h
    exact (List.prefix_append _ _).trans (enter_log_grows _ _ _)
  | answer r h =>
    obtain ⟨s, e, k, -, rfl⟩ := answer_cases h
    exact (List.prefix_append _ _).trans (enter_log_grows _ _ _)
  | cancel h =>
    obtain ⟨s, -, -, rfl⟩ := cancel_cases h
    exact List.prefix_refl _

/-- A step keeps what was received, unless the process ends with it. -/
theorem received (h : Step handle p p') :
    ∃ dropped, p.received = p'.received ++ dropped ∧
      (p'.task.isHalted = false → dropped = []) := by
  cases h with
  | take h =>
    obtain ⟨s, m, rest, -, hin, rfl⟩ := take_cases h
    have hold : p.received = recvs (p.log ++ [.recv m]) ++ rest := by
      simp [Proc.received, hin]
    rw [hold, enter_received]
    by_cases hh : (enter (handle m s) rest (p.log ++ [.recv m])).task.isHalted = true
    · exact ⟨rest, by simp [hh], fun hn => absurd (hh.symm.trans hn) (by simp)⟩
    · exact ⟨[], by simp [hh], fun _ => rfl⟩
  | answer r h =>
    obtain ⟨s, e, k, -, rfl⟩ := answer_cases h
    have hold : p.received = recvs (p.log ++ [.ret e r]) ++ p.inbox := by simp [Proc.received]
    rw [hold, enter_received]
    by_cases hh : (enter (k r) p.inbox (p.log ++ [.ret e r])).task.isHalted = true
    · exact ⟨p.inbox, by simp [hh], fun hn => absurd (hh.symm.trans hn) (by simp)⟩
    · exact ⟨[], by simp [hh], fun _ => rfl⟩
  | cancel h =>
    obtain ⟨s, -, -, rfl⟩ := cancel_cases h
    exact ⟨p.inbox, by simp [Proc.received], fun hn => absurd hn (by simp [Task.isHalted])⟩

end Step

/-! ## What came and what was received -/

section Got

variable {α : Type} {f : μ → Option α} {p p' : Proc σ μ ε ρ φ} {xs : List α}

theorem got_start (s : σ) : Got f (start s : Proc σ μ ε ρ φ) [] := ⟨[], rfl, fun _ => rfl⟩

theorem Got.post (h : Got f p xs) (m : μ) : Got f (p.post m) (xs ++ (f m).toList) := by
  obtain ⟨lost, rfl, hlost⟩ := h
  cases hh : p.task.isHalted with
  | true =>
    rw [post_halted m hh]
    exact ⟨lost ++ (f m).toList, List.append_assoc _ _ _, fun hn => absurd (hh.symm.trans hn) (by simp)⟩
  | false =>
    obtain rfl := hlost hh
    refine ⟨[], ?_, fun _ => rfl⟩
    rw [received_post m hh, List.filterMap_append]
    cases hm : f m <;> simp [hm]

theorem Got.step {handle : μ → Async σ ε ρ φ Bool} (h : Got f p xs) (hs : Step handle p p') :
    Got f p' xs := by
  obtain ⟨lost, rfl, hlost⟩ := h
  obtain ⟨dropped, hrec, hdrop⟩ := hs.received
  refine ⟨dropped.filterMap f ++ lost, ?_, fun hn => ?_⟩
  · rw [hrec, List.filterMap_append, List.append_assoc]
  · rw [hdrop hn, hlost hs.not_halted]
    rfl

theorem Got.mem (h : Got f p xs) {m : μ} (hm : m ∈ p.received) {x : α} (hx : f m = some x) :
    x ∈ xs := by
  obtain ⟨lost, rfl, -⟩ := h
  exact List.mem_append_left _ (List.mem_filterMap.mpr ⟨m, hm, hx⟩)

/-- What came was received, if the process goes on. -/
theorem Got.received (h : Got f p xs) (hn : p.task.isHalted = false) {x : α} (hx : x ∈ xs) :
    ∃ m ∈ p.received, f m = some x := by
  obtain ⟨lost, rfl, hlost⟩ := h
  rw [hlost hn, List.append_nil] at hx
  exact List.mem_filterMap.mp hx

theorem Got.sublist (h : Got f p xs) : List.Sublist (p.received.filterMap f) xs := by
  obtain ⟨lost, rfl, -⟩ := h
  exact List.sublist_append_left _ _

end Got

/-- The effect that a process awaits is the last thing in its log. -/
theorem Reach.awaiting_last {handle : μ → Async σ ε ρ φ Bool} {A : μ → Prop} {s₀ : σ}
    {p : Proc σ μ ε ρ φ} (hp : Reach handle A s₀ p) {s : σ} {e : ε}
    {k : ρ → Prog σ ε ρ (Except φ Bool × σ)} (ht : p.task = .busy s e k) :
    ∃ log, p.log = log ++ [.call e] := by
  have henter : ∀ (q : Prog σ ε ρ (Except φ Bool × σ)) (inbox : List μ)
      (log : List (Event μ ε ρ)), (enter q inbox log).task = .busy s e k →
      ∃ log', (enter q inbox log).log = log' ++ [.call e] := by
    intro q inbox log hq
    rcases enter_cases q inbox log with ⟨hbusy, -⟩ | ⟨s', e', k', htask, hlog⟩
    · rw [hq] at hbusy
      exact absurd hbusy (by simp [Task.isBusy])
    · rw [hq] at htask
      obtain ⟨-, rfl, -⟩ := Task.busy.inj htask
      exact ⟨log, hlog⟩
  induction hp with
  | start => exact absurd ht (by simp [Proc.start])
  | post m hm _ ih =>
    rw [post_task] at ht
    rw [post_log]
    exact ih ht
  | take _ h _ =>
    obtain ⟨s', m, rest, -, -, rfl⟩ := take_cases h
    exact henter _ _ _ ht
  | answer r _ h _ =>
    obtain ⟨s', e', k', -, rfl⟩ := answer_cases h
    exact henter _ _ _ ht
  | cancel _ h _ =>
    obtain ⟨s', -, -, rfl⟩ := cancel_cases h
    exact absurd ht (by simp)

/-- The effect that a process awaits was asked for. -/
theorem Reach.awaiting {handle : μ → Async σ ε ρ φ Bool} {A : μ → Prop} {s₀ : σ}
    {p : Proc σ μ ε ρ φ} (hp : Reach handle A s₀ p) {s : σ} {e : ε}
    {k : ρ → Prog σ ε ρ (Except φ Bool × σ)} (ht : p.task = .busy s e k) : .call e ∈ p.log := by
  obtain ⟨log, hlog⟩ := hp.awaiting_last ht
  rw [hlog]
  exact List.mem_append_right _ List.mem_cons_self

/-- Only admitted messages are taken. -/
theorem Reach.taken {handle : μ → Async σ ε ρ φ Bool} {A : μ → Prop} {s₀ : σ}
    {p : Proc σ μ ε ρ φ} (hp : Reach handle A s₀ p) {m : μ} (hm : .recv m ∈ p.log) : A m := by
  induction hp with
  | start => exact absurd hm List.not_mem_nil
  | post x hx _ ih =>
    rw [post_log] at hm
    exact ih hm
  | take hp h ih =>
    obtain ⟨s, x, rest, -, hin, rfl⟩ := take_cases h
    have hmem := mem_enter_log (fun e => by simp) hm
    rcases List.mem_append.mp hmem with hmem | hmem
    · exact ih hmem
    · obtain rfl := Event.recv.inj (List.mem_singleton.mp hmem)
      exact hp.admitted m (by rw [hin]; exact List.mem_cons_self)
  | answer r _ h ih =>
    obtain ⟨s, e, k, -, rfl⟩ := answer_cases h
    have hmem := mem_enter_log (fun e => by simp) hm
    rcases List.mem_append.mp hmem with hmem | hmem
    · exact ih hmem
    · exact absurd (List.mem_singleton.mp hmem) (by simp)
  | cancel _ h ih =>
    obtain ⟨s, -, -, rfl⟩ := cancel_cases h
    exact ih hm

/-- Fewer messages may arrive. -/
theorem Reach.mono {handle : μ → Async σ ε ρ φ Bool} {A B : μ → Prop} {s₀ : σ}
    {p : Proc σ μ ε ρ φ} (hAB : ∀ m, A m → B m) (hp : Reach handle A s₀ p) :
    Reach handle B s₀ p := by
  induction hp with
  | start => exact .start
  | post m hm _ ih => exact .post m (hAB m hm) ih
  | take _ h ih => exact .take ih h
  | answer r _ h ih => exact .answer r ih h
  | cancel _ h ih => exact .cancel ih h

end Proc

end Await
