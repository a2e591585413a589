import Mathlib.Data.List.Count
import Sunstorm.Experiment.Collector
import Sunstorm.Machine.Proofs.MachineProofs

/-!
# Proofs: the result collector

The count is right and no download is refused in the runs in which nothing raises and `join` does
not pass while a collection is still to be started. One run of the other kind loses a result, and
another one never ends.
-/

namespace Sunstorm

namespace ResultCollector

variable {s s' : ResultCollector} {i : Nat} {f : Collecting → Option Collecting}

/-- What is left of a collector when one of its collections goes on. -/
theorem move_cases (h : s.move i f = some s') :
    ∃ c state, c ∈ s.collections ∧ f c.state = some state ∧
      s' = { s with collections := s'.collections } ∧
      s'.running + c.state.running.toNat = s.running + state.running.toNat ∧
      ∀ x ∈ s'.collections, x ∈ s.collections ∨ x.state = state := by
  unfold move at h
  cases hc : s.collections[i]? with
  | none =>
    rw [hc] at h
    exact absurd h (by simp)
  | some c =>
    rw [hc] at h
    obtain ⟨state, hstate, rfl⟩ := Option.map_eq_some_iff.mp h
    obtain ⟨hi, hget⟩ := List.getElem?_eq_some_iff.mp hc
    have hmem : c ∈ s.collections := List.mem_of_getElem? hc
    refine ⟨c, state, hmem, hstate, rfl, ?_, fun x hx => ?_⟩
    · have hset : (s.collections.set i { c with state }).countP (fun c => c.state.running) =
          s.collections.countP (fun c => c.state.running) - c.state.running.toNat +
            state.running.toNat := by
        rw [List.countP_set hi, hget]
        cases c.state.running <;> cases state.running <;> rfl
      have hpos : c.state.running.toNat ≤ s.running := by
        cases hrun : c.state.running with
        | false => exact Nat.zero_le _
        | true => exact List.countP_pos_iff.mpr ⟨c, hmem, hrun⟩
      unfold running at hpos ⊢
      rw [hset]
      omega
    · rcases List.mem_or_eq_of_mem_set hx with hx | rfl
      · exact Or.inl hx
      · exact Or.inr rfl

/-- What is kept in an orderly run. -/
structure Kept (s : ResultCollector) : Prop where
  counted : s.inProgressCount = s.running
  unfailed : ∀ c ∈ s.collections, ∀ why, c.state ≠ .failed why
  awaited : s.joiner = .waiting → 0 < s.inProgressCount
  /-- The pool is shut down by `join` only. -/
  passed : s.shutdown = true → s.joiner = .joining ∨ s.joiner = .returned
  /-- Then every collection has ended. -/
  drained : s.shutdown = true → ∀ c ∈ s.collections, c.state = .ended

namespace Kept

theorem new (dryRun : Bool) : Kept (new dryRun) where
  counted := rfl
  unfailed := fun c hc => absurd hc List.not_mem_nil
  awaited := fun h => absurd h (by simp [ResultCollector.new])
  passed := fun h => absurd h (by simp [ResultCollector.new])
  drained := fun h => absurd h (by simp [ResultCollector.new])

theorem sound (h : Kept s) : Sound s where
  counted := h.counted
  awaited := by
    intro hwait
    have hpos := h.awaited hwait
    rw [h.counted] at hpos
    exact List.countP_pos_iff.mp (Int.natCast_pos.mp hpos)
  served := fun c hc => h.unfailed c hc .refused

/-- While the pool takes work, there is nothing to say about its end. -/
theorem of_open (hopen : s.shutdown = false) (hcount : s.inProgressCount = s.running)
    (hunfailed : ∀ c ∈ s.collections, ∀ why, c.state ≠ .failed why)
    (hawaited : s.joiner = .waiting → 0 < s.inProgressCount) : Kept s where
  counted := hcount
  unfailed := hunfailed
  awaited := hawaited
  passed := fun hs => absurd (hopen.symm.trans hs) (by simp)
  drained := fun hs => absurd (hopen.symm.trans hs) (by simp)

/-- While a collection goes on, the pool is not shut down. -/
theorem open_of_move (h : Kept s) (hm : s.move i f = some s') (hf : f .ended = none) :
    s.shutdown = false := by
  obtain ⟨c, state, hc, hstate, -⟩ := move_cases hm
  cases hshut : s.shutdown with
  | false => rfl
  | true =>
    rw [h.drained hshut c hc, hf] at hstate
    exact absurd hstate (by simp)

theorem unfailed_of_move (h : Kept s) (hm : s.move i f = some s')
    (hf : ∀ x y, f x = some y → ∀ why, y ≠ .failed why) :
    ∀ c ∈ s'.collections, ∀ why, c.state ≠ .failed why := by
  obtain ⟨c, state, -, hstate, -, -, hmem⟩ := move_cases hm
  intro x hx why
  rcases hmem x hx with hx | hx
  · exact h.unfailed x hx why
  · rw [hx]
    exact hf _ _ hstate why

/-- A collection goes on and neither starts nor ends. -/
theorem move (h : Kept s) (hm : s.move i f = some s') (hf : f .ended = none)
    (hrun : ∀ x y, f x = some y → x.running = true ∧ y.running = true) : Kept s' := by
  have hopen := h.open_of_move hm hf
  have hunfailed := h.unfailed_of_move hm fun x y hxy why hwhy => by
    have hy := (hrun x y hxy).2
    rw [hwhy] at hy
    exact absurd hy (by simp [Collecting.running])
  obtain ⟨c, state, -, hstate, hs', hcount, -⟩ := move_cases hm
  obtain ⟨hbefore, hafter⟩ := hrun _ _ hstate
  rw [hbefore, hafter] at hcount
  have hrunning : s'.running = s.running := Nat.add_right_cancel hcount
  refine of_open (by rw [hs']; exact hopen) ?_ hunfailed (by rw [hs']; exact h.awaited)
  rw [hrunning, ← h.counted, hs']

theorem start (h : Kept s) (hm : s.move i Collecting.start = some s') : Kept s'.countUp := by
  have hcases : ∀ x y, Collecting.start x = some y → x = .queued ∧ y = .listing := by
    intro x y hxy
    cases x <;> simp_all [Collecting.start]
  have hopen := h.open_of_move hm rfl
  have hunfailed := h.unfailed_of_move hm fun x y hxy why => by simp [(hcases x y hxy).2]
  obtain ⟨c, state, -, hstate, hs', hcount, -⟩ := move_cases hm
  obtain ⟨hbefore, rfl⟩ := hcases _ _ hstate
  rw [hbefore] at hcount
  have hrunning : s'.running = s.running + 1 := hcount
  have hcounted : s'.inProgressCount = s.running := by rw [hs']; exact h.counted
  refine of_open (by rw [countUp, hs']; exact hopen) ?_ hunfailed fun hwait => ?_
  · show s'.inProgressCount + 1 = (s'.running : Int)
    rw [hrunning, hcounted]
    rfl
  · show 0 < s'.inProgressCount + 1
    omega

theorem finish (h : Kept s) (hm : s.move i Collecting.finish = some s') : Kept s'.countDown := by
  have hcases : ∀ x y, Collecting.finish x = some y → x = .downloading [] 0 ∧ y = .ended := by
    intro x y hxy
    unfold Collecting.finish at hxy
    split at hxy
    · exact ⟨rfl, (Option.some.inj hxy).symm⟩
    · exact absurd hxy (by simp)
  have hopen := h.open_of_move hm rfl
  have hunfailed := h.unfailed_of_move hm fun x y hxy why => by simp [(hcases x y hxy).2]
  obtain ⟨c, state, -, hstate, hs', hcount, -⟩ := move_cases hm
  obtain ⟨hbefore, rfl⟩ := hcases _ _ hstate
  rw [hbefore] at hcount
  have hrunning : s'.running + 1 = s.running := hcount
  have hcounted : s'.inProgressCount = s.running := by rw [hs']; exact h.counted
  refine of_open (by rw [countDown, hs']; exact hopen) ?_ hunfailed fun hwait => ?_
  · show s'.inProgressCount - 1 = (s'.running : Int)
    omega
  · -- the one that waited was notified
    simp only [countDown] at hwait
    by_cases hw : s'.joiner = .waiting
    · rw [if_pos hw] at hwait
      exact absurd hwait (by simp)
    · rw [if_neg hw] at hwait
      exact absurd hwait hw

theorem open_of_joiner (h : Kept s) (hj : s.joiner ≠ .joining) (hj' : s.joiner ≠ .returned) :
    s.shutdown = false := by
  cases hshut : s.shutdown with
  | false => rfl
  | true => rcases h.passed hshut with heq | heq <;> contradiction

theorem submit (h : Kept s) (haway : s.joiner = .away) (tag : String) : Kept (s.submit tag) := by
  have hopen := h.open_of_joiner (by simp [haway]) (by simp [haway])
  unfold ResultCollector.submit
  by_cases hdry : s.dryRun = true
  · rw [if_pos hdry]
    exact h
  · rw [if_neg hdry]
    refine of_open hopen ?_ (fun c hc why => ?_) h.awaited
    · have hrunning : ({ s with collections := s.collections ++ [⟨tag, .queued⟩] } :
          ResultCollector).running = s.running := by
        simp [running, Collecting.running]
      rw [hrunning]
      exact h.counted
    · rcases List.mem_append.mp hc with hc | hc
      · exact h.unfailed c hc why
      · rw [List.mem_singleton.mp hc]
        simp

/-- `join` looks at the count. -/
theorem check (h : Kept s)
    (hstarted : 0 < s.inProgressCount ∨ ∀ c ∈ s.collections, c.state ≠ .queued)
    (hopen : s.shutdown = false) : Kept s.check := by
  unfold ResultCollector.check
  by_cases hpos : 0 < s.inProgressCount
  · rw [if_pos hpos]
    exact of_open hopen h.counted h.unfailed fun _ => hpos
  · rw [if_neg hpos]
    have hidle : ∀ c ∈ s.collections, c.state.running ≠ true := by
      have hzero : s.running = 0 := by
        have := h.counted
        omega
      exact List.countP_eq_zero.mp hzero
    refine ⟨h.counted, h.unfailed, fun hw => absurd hw (by simp), fun _ => Or.inl rfl,
      fun _ c hc => ?_⟩
    have hqueued := hstarted.resolve_left hpos c hc
    have hrun := hidle c hc
    cases hstate : c.state with
    | queued => exact absurd hstate hqueued
    | listing => exact absurd (by rw [hstate]; rfl) hrun
    | downloading regions pending => exact absurd (by rw [hstate]; rfl) hrun
    | ended => rfl
    | failed why => exact absurd hstate (h.unfailed c hc why)

/-- `join` looks at the count, first or again, while the pool takes work. -/
theorem check_of_joiner (h : Kept s) {j : Joiner} (hj : j ≠ .joining) (hj' : j ≠ .returned)
    (hstarted : 0 < s.inProgressCount ∨ ∀ c ∈ s.collections, c.state ≠ .queued)
    (hs : (if s.joiner = j then some s.check else none) = some s') : Kept s' := by
  by_cases heq : s.joiner = j
  · rw [if_pos heq] at hs
    obtain rfl := Option.some.inj hs
    exact h.check hstarted (h.open_of_joiner (heq ▸ hj) (heq ▸ hj'))
  · rw [if_neg heq] at hs
    exact absurd hs (by simp)

theorem step (h : Kept s) {a : Act} (ha : a.Orderly s) (hs : s.step a = some s') : Kept s' := by
  cases a with
  | submit tag =>
    simp only [ResultCollector.step] at hs
    by_cases haway : s.joiner = .away
    · rw [if_pos haway] at hs
      obtain rfl := Option.some.inj hs
      exact h.submit haway tag
    · rw [if_neg haway] at hs
      exact absurd hs (by simp)
  | start i =>
    obtain ⟨t, hm, rfl⟩ := Option.map_eq_some_iff.mp hs
    exact h.start hm
  | list i regions =>
    refine h.move hs rfl fun x y hxy => ?_
    cases x <;> simp_all [Collecting.list, Collecting.running]
    rw [← hxy]
  | download i =>
    have hopen := h.open_of_move hs rfl
    refine h.move hs rfl fun x y hxy => ?_
    unfold Collecting.download at hxy
    rw [hopen] at hxy
    split at hxy
    · exact ⟨rfl, by rw [← Option.some.inj hxy]; rfl⟩
    · exact absurd hxy (by simp)
  | downloaded i =>
    refine h.move hs rfl fun x y hxy => ?_
    unfold Collecting.downloaded at hxy
    split at hxy
    · exact ⟨rfl, by rw [← Option.some.inj hxy]; rfl⟩
    · exact absurd hxy (by simp)
  | finish i =>
    obtain ⟨t, hm, rfl⟩ := Option.map_eq_some_iff.mp hs
    exact h.finish hm
  | raise i => exact absurd ha (by simp [Act.Orderly])
  | join => exact h.check_of_joiner (by simp) (by simp) ha hs
  | wake => exact h.check_of_joiner (by simp) (by simp) ha hs
  | leave =>
    simp only [ResultCollector.step] at hs
    by_cases hleave : s.joiner = .joining ∧
        ∀ c ∈ s.collections, c.state ≠ .queued ∧ c.state.running = false
    · rw [if_pos hleave] at hs
      obtain rfl := Option.some.inj hs
      exact ⟨h.counted, h.unfailed, fun hw => absurd hw (by simp), fun _ => Or.inr rfl, h.drained⟩
    · rw [if_neg hleave] at hs
      exact absurd hs (by simp)

end Kept

/-- **The collector neither loses a result nor hangs** in the runs in which nothing raises and `join`
passes only when every collection has started. -/
theorem orderly_sound (dryRun : Bool) (hr : Machine.Reach step Act.Orderly (new dryRun) s) :
    Sound s :=
  (hr.invariant (Kept.new dryRun) fun _ _ _ h ha hs => h.step ha hs).sound

/-- The results of two benchmarks are collected; `join` waits for the second one. -/
def orderlyRun : List Act :=
  [.submit "a-1", .start 0, .submit "a-2", .list 0 ["a-1/r0", "a-1/r1"], .start 1, .download 0,
    .downloaded 0, .download 0, .downloaded 0, .finish 0, .join, .list 1 ["a-2/r0"], .download 1,
    .downloaded 1, .finish 1, .wake, .leave]

theorem orderly_sound_two :
    ∃ s, Machine.run step (new false) orderlyRun = some s ∧ s.joiner = .returned ∧ Sound s := by
  have hrun : (Machine.run step (new false) orderlyRun).map (fun s => decide (s.joiner = .returned)) =
      some true := by
    decide
  obtain ⟨s, hs, hreturned⟩ := Option.map_eq_some_iff.mp hrun
  exact ⟨s, hs, of_decide_eq_true hreturned,
    orderly_sound false (Machine.reach_of_run .start (by decide) hs)⟩

/-- The listing of a collection raises. -/
def raisingRun : List Act := [.submit "a-1", .start 0, .raise 0, .join]

/-- `join` passes before a collection has started. -/
def hastyRun : List Act := [.submit "a-1", .join, .start 0, .list 0 ["a-1/r0"], .download 0]

/-- After an exception `join` waits for ever, and a collection that starts late is refused its
downloads. -/
theorem collector_unsound :
    (∃ s, Machine.run step (new false) raisingRun = some s ∧ ¬ Sound s ∧ s.joiner = .waiting ∧
      ∀ c ∈ s.collections, c.state = .failed .other) ∧
    ∃ s, Machine.run step (new false) hastyRun = some s ∧ ¬ Sound s ∧
      ∀ c ∈ s.collections, c.state = .failed .refused := by
  constructor
  · refine ⟨⟨false, [⟨"a-1", .failed .other⟩], 1, false, .waiting⟩, by decide, fun h => ?_, rfl,
      by decide⟩
    exact absurd h.counted (by decide)
  · refine ⟨⟨false, [⟨"a-1", .failed .refused⟩], 1, true, .joining⟩, by decide, fun h => ?_,
      by decide⟩
    exact h.served _ List.mem_cons_self rfl

end ResultCollector

end Sunstorm
