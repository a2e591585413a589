import Sunstorm.Experiment.Proofs.ResumptionProofs

/-!
# Proofs: the database is loaded when it is due

The counter of the loop is `reload_every` less the executions since the database was loaded. So it
is 0 exactly when a load is due: at first, after an exception, and after `reload_every` executions.
-/

namespace Sunstorm

/-- The number of successful executions since the database was loaded, after one more event. There
is none before the first load, and none after an exception. -/
def RunEvent.after : Option Nat → RunEvent → Option Nat
  | k, .called _ => k
  | _, .loaded => some 0
  | k, .executed _ _ => k.map (· + 1)
  | _, .failed _ => none

/-- The number of successful executions since the database was loaded. -/
def executionsSince (events : List RunEvent) : Option Nat := events.foldl RunEvent.after none

theorem executionsSince_append (events : List RunEvent) (e : RunEvent) :
    executionsSince (events ++ [e]) = RunEvent.after (executionsSince events) e := by
  unfold executionsSince
  rw [List.foldl_append]
  rfl

namespace RunSession

variable {t : RunSession} {i : Nat} {x : BenchmarkItem}

/-- The counter belongs to the number of executions. -/
structure Counted (t : RunSession) : Prop where
  due : executionsSince t.events = none → t.reloadCounter = 0
  left : ∀ k, executionsSince t.events = some k → t.reloadCounter = t.reloadEvery - k

/-- Between two cases, as long as a load is not overdue. -/
structure Between (t : RunSession) : Prop extends t.Counted where
  pos : ∀ k, executionsSince t.events = some k → 0 < k
  le : ∀ k, executionsSince t.events = some k → 0 < t.reloadEvery → (k : Int) ≤ t.reloadEvery

/-- The database was loaded, and the next load is not due. -/
def Fresh (t : RunSession) : Prop :=
  ∃ k, executionsSince t.events = some k ∧ (0 < t.reloadEvery → (k : Int) < t.reloadEvery)

/-- A load is due. -/
def Due (t : RunSession) : Prop :=
  executionsSince t.events = none ∨
    ∃ k, executionsSince t.events = some k ∧ 0 < k ∧ (k : Int) = t.reloadEvery

/-- The session loads the database in time. -/
def InTime (t : RunSession) : Prop :=
  match t.stage with
  | .head | .asking _ _ | .saving _ _ => t.Between
  | .calling .execute _ _ => t.Counted ∧ t.Fresh
  | .calling _ _ _ => t.Due
  | .declined | .ended _ => True

/-- A call is no event that counts. -/
theorem since_call (t : RunSession) (op : BenchmarkOperation) (i : Nat) (x : BenchmarkItem) :
    executionsSince (t.call op i x).events = executionsSince t.events := executionsSince_append _ _

theorem inTime_begin (h : t.Between) (hload : t.args.skipCreateLoad = false) (i : Nat)
    (x : BenchmarkItem) : (t.begin i x).InTime := by
  unfold begin
  by_cases hzero : t.reloadCounter = 0
  · rw [if_pos ⟨hload, hzero⟩]
    have hdue : t.Due := by
      cases hk : executionsSince t.events with
      | none => exact Or.inl hk
      | some k =>
        have hleft := h.left k hk
        exact Or.inr ⟨k, hk, h.pos k hk, by omega⟩
    unfold InTime Due
    rw [since_call]
    exact hdue
  · rw [if_neg fun hall => hzero hall.2]
    obtain ⟨k, hk⟩ : ∃ k, executionsSince t.events = some k := by
      cases hk : executionsSince t.events with
      | none => exact absurd (h.due hk) hzero
      | some k => exact ⟨k, rfl⟩
    have hleft := h.left k hk
    refine ⟨⟨fun hnone => ?_, fun k' hk' => ?_⟩, k, ?_, fun hevery => ?_⟩
    · rw [since_call, hk] at hnone
      exact absurd hnone (by simp)
    · rw [since_call] at hk'
      exact h.left k' hk'
    · rw [since_call]
      exact hk
    · have hle := h.le k hk hevery
      show (k : Int) < t.reloadEvery
      omega

theorem inTime_reloaded (t : RunSession) (i : Nat) (x : BenchmarkItem) :
    (t.reloaded i x).InTime := by
  have hsince : executionsSince (t.reloaded i x).events = some 0 := by
    unfold reloaded
    rw [since_call, executionsSince_append]
    rfl
  refine ⟨⟨fun hnone => ?_, fun k hk => ?_⟩, 0, hsince, fun hevery => hevery⟩
  · rw [hsince] at hnone
    exact absurd hnone (by simp)
  · rw [hsince] at hk
    obtain rfl := Option.some.inj hk
    show t.reloadEvery = t.reloadEvery - 0
    omega

theorem inTime_succeed (h : t.Counted) (hfresh : t.Fresh) (result : BenchmarkResult) :
    (t.succeed i x result).InTime := by
  obtain ⟨k, hk, hlt⟩ := hfresh
  have hsince : executionsSince (t.succeed i x result).events = some (k + 1) := by
    unfold succeed
    rw [executionsSince_append, hk]
    rfl
  have hleft := h.left k hk
  refine ⟨⟨fun hnone => ?_, fun k' hk' => ?_⟩, fun k' hk' => ?_, fun k' hk' hevery => ?_⟩
  · rw [hsince] at hnone
    exact absurd hnone (by simp)
  · rw [hsince] at hk'
    obtain rfl := Option.some.inj hk'
    show t.reloadCounter - 1 = t.reloadEvery - ((k + 1 : Nat) : Int)
    omega
  · rw [hsince] at hk'
    obtain rfl := Option.some.inj hk'
    omega
  · rw [hsince] at hk'
    obtain rfl := Option.some.inj hk'
    have hlt' := hlt hevery
    show ((k + 1 : Nat) : Int) ≤ t.reloadEvery
    omega

theorem inTime_fail (t : RunSession) (i : Nat) (x : BenchmarkItem) : (t.fail i x).InTime := by
  have hsince : executionsSince (t.fail i x).events = none := executionsSince_append _ _
  refine ⟨⟨fun _ => rfl, fun k hk => ?_⟩, fun k hk => ?_, fun k hk _ => ?_⟩ <;>
  · rw [hsince] at hk
    exact absurd hk (by simp)

end RunSession

namespace Runner

variable {s s' : Runner}

/-- The loop looks at a case and changes the stage only, or starts to work on it. -/
theorem look_stage (t : RunSession) (i : Nat) (x : BenchmarkItem)
    (status : Option (Option ParameterValue)) :
    (∃ e, look t i x status = { t with stage := .ended (.error e) }) ∨
      look t i x status = { t with stage := .head } ∨
      look t i x status = { t with stage := .asking i x } ∨ look t i x status = t.begin i x := by
  cases status with
  | none => exact Or.inl ⟨_, rfl⟩
  | some value =>
    unfold look
    dsimp only
    by_cases hmem : value ∉ Progress.statuses.map fun text => some (ParameterValue.str text)
    · rw [if_pos hmem]
      exact Or.inl ⟨_, rfl⟩
    · rw [if_neg hmem]
      by_cases hdone : value = some (.str "done")
      · rw [if_pos hdone]
        exact Or.inr (Or.inl rfl)
      · rw [if_neg hdone]
        by_cases hask : t.args.interactive = true
        · rw [if_pos hask]
          exact Or.inr (Or.inr (Or.inl rfl))
        · rw [if_neg hask]
          exact Or.inr (Or.inr (Or.inr rfl))

theorem inTime_launch {exp : Experiment} {reloadEvery : Option Int} {args : RunArgs}
    {timestamp : String} {t : RunSession}
    (ht : (s.launch exp reloadEvery args timestamp).session = some t) : t.InTime := by
  have hstart : ∀ u : RunSession, u.events = [] → u.reloadCounter = 0 → u.Between := by
    intro u hevents hcounter
    have hnone : executionsSince u.events = none := by
      rw [hevents]
      rfl
    refine ⟨⟨fun _ => hcounter, fun k hk => ?_⟩, fun k hk => ?_, fun k hk _ => ?_⟩ <;>
    · rw [hnone] at hk
      exact absurd hk (by simp)
  unfold launch at ht
  dsimp only at ht
  by_cases hnew : args.new = true
  · rw [if_pos hnew] at ht
    rw [← Option.some.inj ht]
    exact hstart _ rfl rfl
  · rw [if_neg hnew] at ht
    cases hload : Progress.load { file := s.progress.file, progress := [] } with
    | ok progress =>
      rw [hload] at ht
      rw [← Option.some.inj ht]
      exact hstart _ rfl rfl
    | error e =>
      rw [hload] at ht
      rw [← Option.some.inj ht]
      trivial

theorem inTime_next {t u : RunSession} (h : t.Between) (hload : t.args.skipCreateLoad = false)
    (hu : (s.next t).session = some u) : u.InTime := by
  unfold next at hu
  cases hrest : t.rest with
  | nil =>
    rw [hrest] at hu
    rw [← Option.some.inj hu]
    trivial
  | cons x rest =>
    rw [hrest] at hu
    have hlook := Option.some.inj hu
    have hkept : RunSession.Between { t with rest } := ⟨⟨h.due, h.left⟩, h.pos, h.le⟩
    rcases look_stage { t with rest } (s.progress.getOrInsert x.metadata).2 x
      ((s.progress.getOrInsert x.metadata).1.progress[(s.progress.getOrInsert x.metadata).2]?.bind
        fun record => record.get? "status") with ⟨e, heq⟩ | heq | heq | heq
    · rw [← hlook, heq]
      trivial
    · rw [← hlook, heq]
      exact ⟨⟨h.due, h.left⟩, h.pos, h.le⟩
    · rw [← hlook, heq]
      exact ⟨⟨h.due, h.left⟩, h.pos, h.le⟩
    · rw [← hlook, heq]
      exact RunSession.inTime_begin hkept hload _ x

/-- The arguments of a session stay. -/
theorem args_of_next {t u : RunSession} (hu : (s.next t).session = some u) : u.args = t.args := by
  unfold next at hu
  cases hrest : t.rest with
  | nil =>
    rw [hrest] at hu
    rw [← Option.some.inj hu]
  | cons x rest =>
    rw [hrest] at hu
    have hlook := Option.some.inj hu
    rcases look_stage { t with rest } (s.progress.getOrInsert x.metadata).2 x
      ((s.progress.getOrInsert x.metadata).1.progress[(s.progress.getOrInsert x.metadata).2]?.bind
        fun record => record.get? "status") with ⟨e, heq⟩ | heq | heq | heq
    · rw [← hlook, heq]
    · rw [← hlook, heq]
    · rw [← hlook, heq]
    · obtain ⟨op, hop⟩ := RunSession.begin_cases { t with rest }
        (s.progress.getOrInsert x.metadata).2 x
      rw [← hlook, heq, hop]
      rfl

/-- Every session that loads the database does so in time. -/
def InTime (s : Runner) : Prop :=
  ∀ t, s.session = some t → t.args.skipCreateLoad = false → t.InTime

theorem InTime.step (h : s.InTime) {a : Act} (hs : s.step a = some s') : s'.InTime := by
  intro u hu hload
  cases moved_of_step hs with
  | launch exp reloadEvery args timestamp hnone h' =>
    rw [h'] at hu
    exact inTime_launch hu
  | next t ht hstage h' =>
    rw [h'] at hu
    rw [args_of_next hu] at hload
    have hbetween := h t ht hload
    unfold RunSession.InTime at hbetween
    rw [hstage] at hbetween
    exact inTime_next hbetween hload hu
  | confirmed t i x ht hstage h' =>
    rw [h'] at hu
    obtain ⟨op, hop⟩ := t.begin_cases i x
    have hargs : u.args = t.args := by
      rw [← Option.some.inj hu, hop]
      rfl
    rw [hargs] at hload
    have hbetween := h t ht hload
    unfold RunSession.InTime at hbetween
    rw [hstage] at hbetween
    rw [← Option.some.inj hu]
    exact RunSession.inTime_begin hbetween hload i x
  | declined t i x ht hstage h' =>
    rw [h'] at hu
    rw [← Option.some.inj hu]
    trivial
  | created t result i x ht hstage h' =>
    rw [h'] at hu
    have hargs : u.args = t.args := by
      rw [← Option.some.inj hu]
      rfl
    rw [hargs] at hload
    have hdue := h t ht hload
    unfold RunSession.InTime at hdue
    rw [hstage] at hdue
    rw [← Option.some.inj hu]
    unfold RunSession.InTime RunSession.Due
    rw [RunSession.since_call]
    exact hdue
  | loaded t result i x ht hstage h' =>
    rw [h'] at hu
    rw [← Option.some.inj hu]
    exact RunSession.inTime_reloaded t i x
  | executed t result i x ht hstage h' =>
    rw [h'] at hu
    have hargs : u.args = t.args := by
      rw [← Option.some.inj hu]
      rfl
    rw [hargs] at hload
    have hfresh := h t ht hload
    unfold RunSession.InTime at hfresh
    rw [hstage] at hfresh
    rw [← Option.some.inj hu]
    exact RunSession.inTime_succeed hfresh.1 hfresh.2 result
  | failed t i x ht hstage h' =>
    rw [h'] at hu
    rw [← Option.some.inj hu]
    exact RunSession.inTime_fail t i x
  | saved t i x ht hstage h' =>
    rw [h'] at hu
    have hargs : u.args = t.args := by
      rw [← Option.some.inj hu]
    rw [hargs] at hload
    have hbetween := h t ht hload
    unfold RunSession.InTime at hbetween
    rw [hstage] at hbetween
    rw [← Option.some.inj hu]
    exact ⟨⟨hbetween.due, hbetween.left⟩, hbetween.pos, hbetween.le⟩
  | killed h' =>
    rw [h'] at hu
    exact absurd hu (by simp)

/-- **The database is loaded when it is due, and only then.** In a session that does not skip it: a
case is executed only after the database was loaded, with no exception since then and, when
`reload_every` is positive, with fewer executions since then; the database is created and loaded
only before the first execution, after an exception, or after `reload_every` executions. -/
theorem loaded_in_time (s : Runner) (hr : Machine.Reach Runner.step (fun _ _ => True) init s)
    (t : RunSession) (ht : s.session = some t) (hload : t.args.skipCreateLoad = false)
    (op : BenchmarkOperation) (i : Nat) (x : BenchmarkItem) (hstage : t.stage = .calling op i x) :
    (op = .execute → ∃ k, executionsSince t.events = some k ∧
      (0 < t.reloadEvery → (k : Int) < t.reloadEvery)) ∧
    (op ≠ .execute → executionsSince t.events = none ∨
      ∃ k, executionsSince t.events = some k ∧ 0 < k ∧ (k : Int) = t.reloadEvery) := by
  have hall : s.InTime :=
    hr.invariant (fun t ht => absurd ht (by simp [init])) fun _ _ _ h _ hs => h.step hs
  have htime := hall t ht hload
  unfold RunSession.InTime at htime
  rw [hstage] at htime
  cases op with
  | execute => exact ⟨fun _ => htime.2, fun hne => absurd rfl hne⟩
  | create => exact ⟨fun heq => absurd heq (by simp), fun _ => htime⟩
  | load => exact ⟨fun heq => absurd heq (by simp), fun _ => htime⟩

set_option maxRecDepth 20000 in
theorem loaded_in_time_resumed :
    ∃ s t k, Machine.run Runner.step init (resumedRun.take 4) = some s ∧ s.session = some t ∧
      t.reloadEvery = 2 ∧ executionsSince t.events = some k ∧
      (0 < t.reloadEvery → (k : Int) < t.reloadEvery) := by
  have hrun : ((Machine.run Runner.step init (resumedRun.take 4)).bind Runner.session).map (fun t =>
      (t.args.skipCreateLoad, t.reloadEvery, t.stage.operation)) =
      some (false, 2, some .execute) := by decide
  obtain ⟨t, ht, heq⟩ := Option.map_eq_some_iff.mp hrun
  obtain ⟨s, hs, hst⟩ := Option.bind_eq_some_iff.mp ht
  obtain ⟨hload, heq⟩ := Prod.mk.inj heq
  obtain ⟨hevery, hstage⟩ := Prod.mk.inj heq
  obtain ⟨i, x, hcalling⟩ := RunStage.calling_of_operation hstage
  have hreach : Machine.Reach Runner.step (fun _ _ => True) init s :=
    Machine.reach_of_run .start (Machine.admitted_of_forall fun _ _ _ => trivial) hs
  obtain ⟨k, hk, hlt⟩ := (loaded_in_time s hreach t hst hload .execute i x hcalling).1 rfl
  exact ⟨s, t, k, hs, hst, hevery, hk, hlt⟩

end Runner

end Sunstorm
