import Sunstorm.Machine.Proofs.MachineProofs
import Sunstorm.Xactserver.Process

/-!
# Proofs: how a server comes to its end

The main thread goes on when Ctrl-C is pressed or `Manager::run` has ended, and for no other reason.
What it exits with is the outcome of the first thread, in the order of the joins, that has failed.
-/

namespace Sunstorm

open Machine

namespace Process

variable {s s' : Process} {a : Act}

/-! ## What a step can do -/

/-- What a step does to the threads. -/
def Moved (s s' : Process) : Prop :=
  (∃ p, s.parts p = .preparing ∧
    (s' = s.setPart p .running ∨ ∃ f, s' = s.setPart p (.ended false (.error f)))) ∨
  (∃ p r, s.parts p = .running ∧ (r = .ok () → s.cancelled = true) ∧ s' = s.finish p r) ∨
  (s.main = .waiting ∧
    s' = { s with cancelled := true, interrupted := true, main := .joining Part.all }) ∨
  (s.main = .waiting ∧ s.cancelled = true ∧ s' = { s with main := .joining Part.all }) ∨
  ∃ p rest ran r, s.main = .joining (p :: rest) ∧ s.parts p = .ended ran r ∧ s' = s.joined rest r

theorem moved_of_advance (h : s.advance a = some s') : Moved s s' := by
  cases a with
  | run p =>
    rw [advance] at h
    split at h
    · next hp => exact Or.inl ⟨p, hp, Or.inl (Option.some.inj h).symm⟩
    · exact absurd h (by simp)
  | fail p f =>
    rw [advance] at h
    split at h
    · next hp => exact Or.inl ⟨p, hp, Or.inr ⟨f, (Option.some.inj h).symm⟩⟩
    · next hp =>
      exact Or.inr (Or.inl ⟨p, .error f, hp, fun h => absurd h (by simp), (Option.some.inj h).symm⟩)
    · exact absurd h (by simp)
  | stop p =>
    rw [advance] at h
    split at h
    · next hp =>
      obtain ⟨hcancelled, heq⟩ := Option.ite_none_right_eq_some.mp h
      exact Or.inr (Or.inl ⟨p, .ok (), hp, fun _ => hcancelled, (Option.some.inj heq).symm⟩)
    · exact absurd h (by simp)
  | interrupt =>
    rw [advance] at h
    split at h
    · next hmain => exact Or.inr (Or.inr (Or.inl ⟨hmain, (Option.some.inj h).symm⟩))
    · exact absurd h (by simp)
  | notice =>
    rw [advance] at h
    split at h
    · next hmain =>
      obtain ⟨hcancelled, heq⟩ := Option.ite_none_right_eq_some.mp h
      exact Or.inr (Or.inr (Or.inr (Or.inl ⟨hmain, hcancelled, (Option.some.inj heq).symm⟩)))
    · exact absurd h (by simp)
  | join =>
    rw [advance] at h
    split at h
    · next p rest hmain =>
      split at h
      · next ran r hp =>
        exact Or.inr (Or.inr (Or.inr (Or.inr
          ⟨p, rest, ran, r, hmain, hp, (Option.some.inj h).symm⟩)))
      · exact absurd h (by simp)
    · exact absurd h (by simp)

/-- A process that has exited makes no step. -/
theorem moved_of_step (h : s.step a = some s') : (∀ r, s.main ≠ .exited r) ∧ Moved s s' := by
  rw [step] at h
  split at h
  · exact absurd h (by simp)
  · next hmain => exact ⟨hmain, moved_of_advance h⟩

/-! ## The invariant -/

/-- The thread has ended without failing. -/
def Fine (s : Process) (p : Part) : Prop := s.parts p = .ended true (.ok ())

/-- What the main thread has found when it exits with `r`. -/
def Accounted (s : Process) (r : Except Failure Unit) : Prop :=
  (r = .ok () ∧ ∀ p ∈ Part.all, s.Fine p) ∨
  ∃ before p after ran f, Part.all = before ++ p :: after ∧ (∀ q ∈ before, s.Fine q) ∧
    s.parts p = .ended ran (.error f) ∧ r = .error f.atJoin

/-- How the token, the threads and the main thread belong together. -/
structure Orderly (s : Process) : Prop where
  cancelled : s.cancelled = true ↔
    s.interrupted = true ∨ ∃ r, s.parts .manager = .ended true r
  woken : s.main ≠ .waiting → s.cancelled = true
  /-- A thread that did not run has not ended well. -/
  ran : ∀ p ran, s.parts p = .ended ran (.ok ()) → ran = true
  joining : ∀ rest, s.main = .joining rest →
    rest ≠ [] ∧ ∃ done, Part.all = done ++ rest ∧ ∀ p ∈ done, s.Fine p
  exited : ∀ r, s.main = .exited r → s.Accounted r

theorem Orderly.init : Orderly Process.init := by
  refine ⟨?_, fun h => absurd rfl h, fun p ran h => ?_, fun rest h => ?_, fun r h => ?_⟩
  · constructor
    · intro h
      exact absurd h (by simp [Process.init])
    · rintro (h | ⟨r, h⟩)
      · exact absurd h (by simp [Process.init])
      · exact absurd h (by simp [Process.init])
  · exact absurd h (by simp [Process.init])
  · exact absurd h (by simp [Process.init])
  · exact absurd h (by simp [Process.init])

/-- Threads that have ended stay where they are when another one moves. -/
theorem fine_setPart {p q : Part} {state : PartState} (hp : ∀ ran r, s.parts p ≠ .ended ran r)
    (h : s.Fine q) : (s.setPart p state).Fine q := by
  have hne : q ≠ p := by
    rintro rfl
    exact hp _ _ h
  show Function.update s.parts p state q = .ended true (.ok ())
  rw [Function.update_of_ne hne]
  exact h

/-- A thread that had not ended moves. The token is cancelled by the end of `Manager::run`. -/
theorem Orderly.setPart {p : Part} {state : PartState} {b : Bool} (h : Orderly s)
    (hp : ∀ ran r, s.parts p ≠ .ended ran r) (hmain : ∀ r, s.main ≠ .exited r)
    (hran : ∀ ran, state = .ended ran (.ok ()) → ran = true)
    (hb : b = true ↔ s.cancelled = true ∨ p = .manager ∧ ∃ r, state = .ended true r) :
    Orderly { s.setPart p state with cancelled := b } := by
  refine ⟨?_, fun hw => ?_, fun q ran hq => ?_, fun rest hrest => ?_, fun r hr => ?_⟩
  · show b = true ↔ s.interrupted = true ∨ ∃ r, Function.update s.parts p state .manager =
      .ended true r
    rw [hb, h.cancelled]
    by_cases hm : p = .manager
    · subst hm
      have hnot : ¬ ∃ r, s.parts .manager = .ended true r := fun ⟨r, hr⟩ => hp true r hr
      simp [hnot]
    · rw [Function.update_of_ne (Ne.symm hm)]
      simp [hm]
  · exact hb.mpr (Or.inl (h.woken hw))
  · by_cases hpq : q = p
    · subst hpq
      have hstate : state = .ended ran (.ok ()) := by simpa [Process.setPart] using hq
      exact hran ran hstate
    · exact h.ran q ran (by simpa [Process.setPart, Function.update_of_ne hpq] using hq)
  · obtain ⟨hne, done, hall, hdone⟩ := h.joining rest hrest
    exact ⟨hne, done, hall, fun q hq => fine_setPart hp (hdone q hq)⟩
  · exact absurd hr (hmain r)

/-- The main thread joins a thread that has ended. -/
theorem Orderly.joined {p : Part} {rest : List Part} {ran : Bool} {r : Except Failure Unit}
    (h : Orderly s) (hmain : s.main = .joining (p :: rest)) (hp : s.parts p = .ended ran r) :
    Orderly (s.joined rest r) := by
  have hcancelled : s.cancelled = true := h.woken (by rw [hmain]; simp)
  obtain ⟨-, done, hall, hdone⟩ := h.joining _ hmain
  cases r with
  | error f =>
    refine ⟨h.cancelled, fun _ => hcancelled, h.ran, fun rest' hrest => absurd hrest (by simp [Process.joined]),
      fun r hr => ?_⟩
    obtain rfl : .error f.atJoin = r := MainState.exited.inj hr
    exact Or.inr ⟨done, p, rest, ran, f, hall, hdone, hp, rfl⟩
  | ok u =>
    obtain rfl := h.ran p ran hp
    have hdone' : ∀ q ∈ done ++ [p], s.Fine q := by
      intro q hq
      rcases List.mem_append.mp hq with hq | hq
      · exact hdone q hq
      · rw [List.mem_singleton.mp hq]
        exact hp
    have hall' : Part.all = (done ++ [p]) ++ rest := by
      rw [hall, List.append_assoc]
      rfl
    refine ⟨h.cancelled, fun _ => hcancelled, h.ran, fun rest' hrest => ?_, fun r hr => ?_⟩
    · have heq : (if rest = [] then MainState.exited (.ok ()) else .joining rest) =
        .joining rest' := hrest
      split_ifs at heq with hnil
      · obtain rfl := MainState.joining.inj heq
        exact ⟨hnil, done ++ [p], hall', hdone'⟩
    · have heq : (if rest = [] then MainState.exited (.ok ()) else .joining rest) =
        .exited r := hr
      split_ifs at heq with hnil
      · obtain rfl := MainState.exited.inj heq
        rw [hnil, List.append_nil] at hall'
        exact Or.inl ⟨rfl, fun q hq => hdone' q (hall' ▸ hq)⟩

theorem Orderly.step (h : Orderly s) (hstep : s.step a = some s') : Orderly s' := by
  obtain ⟨hmain, hmoved⟩ := moved_of_step hstep
  rcases hmoved with ⟨p, hp, rfl | ⟨f, rfl⟩⟩ | ⟨p, r, hp, hr, rfl⟩ | ⟨hw, rfl⟩ |
    ⟨hw, hcancelled, rfl⟩ | ⟨p, rest, ran, r, hj, hp, rfl⟩
  · exact h.setPart (by simp [hp]) hmain (by simp) (by simp)
  · exact h.setPart (by simp [hp]) hmain (by simp) (by simp)
  · exact h.setPart (by simp [hp]) hmain (by simp) (by simp)
  · exact { h with
      cancelled := by simp
      woken := fun _ => rfl
      joining := fun rest hrest => by
        obtain rfl := MainState.joining.inj hrest
        exact ⟨by simp [Part.all], [], rfl, by simp⟩
      exited := fun r hr => absurd hr (by simp) }
  · exact { h with
      woken := fun _ => hcancelled
      joining := fun rest hrest => by
        obtain rfl := MainState.joining.inj hrest
        exact ⟨by simp [Part.all], [], rfl, by simp⟩
      exited := fun r hr => absurd hr (by simp) }
  · exact h.joined hj hp

/-- **What a server exits with.** The token is cancelled by Ctrl-C and by the end of `Manager::run`:
that another thread has failed does not end the server, and neither does a manager that could not be
started. Once the main thread has exited, either all threads have ended well, or what it exits with
comes from the first thread in the order of the joins that has failed. -/
theorem exit_accounted (s : Process) (hr : Reach Process.step (fun _ _ => True) init s) :
    (s.cancelled = true ↔ s.interrupted = true ∨ ∃ r, s.parts .manager = .ended true r) ∧
    (s.main ≠ .waiting → s.cancelled = true) ∧ ∀ r, s.main = .exited r → s.Accounted r := by
  have h : Orderly s := hr.invariant .init fun _ _ _ h _ hstep => h.step hstep
  exact ⟨h.cancelled, h.woken, h.exited⟩

/-- The manager cannot connect to PostgreSQL. The thread for HTTP is still running when the main
thread has seen that. -/
def refusedActs : List Act :=
  [.run .pgWatcher, .run .httpServer, .run .node, .run .manager,
    .fail .manager (.msg "connection refused"), .notice, .stop .node, .stop .pgWatcher, .join,
    .join, .join]

theorem exit_accounted_refused :
    ∃ s, run Process.step init refusedActs = some s ∧ s.interrupted = false ∧
      s.main = .exited (.error (.msg "connection refused")) ∧
      s.Accounted (.error (.msg "connection refused")) := by
  have hrun : (run Process.step init refusedActs).map (fun s => (s.interrupted, s.main)) =
      some (false, .exited (.error (.msg "connection refused"))) := rfl
  obtain ⟨s, hs, heq⟩ := Option.map_eq_some_iff.mp hrun
  obtain ⟨hinterrupted, hmain⟩ := Prod.mk.inj heq
  have hreach := reach_of_run .start (admitted_of_forall fun _ _ _ => trivial) hs
  exact ⟨s, hs, hinterrupted, hmain, (exit_accounted s hreach).2.2 _ hmain⟩

end Process

end Sunstorm
