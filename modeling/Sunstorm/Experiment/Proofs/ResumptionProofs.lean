import Sunstorm.Experiment.Proofs.RunnerProofs

/-!
# Proofs: an experiment is resumed where it was left

The records of the file are faithful to what was executed, and that is enough to know what a session
skips, and what it leaves behind.
-/

namespace Sunstorm

namespace RunStage

/-- The operation that is waited for. -/
def operation : RunStage → Option BenchmarkOperation
  | calling op _ _ => some op
  | _ => none

/-- The loop has come to its end. -/
def atEnd : RunStage → Bool
  | ended (.ok ()) => true
  | _ => false

variable {stage : RunStage}

theorem calling_of_operation {op : BenchmarkOperation} (h : stage.operation = some op) :
    ∃ i x, stage = calling op i x := by
  cases stage with
  | calling op' i x =>
    obtain rfl := Option.some.inj h
    exact ⟨i, x, rfl⟩
  | _ => exact absurd h (by simp [operation])

theorem ended_of_atEnd (h : stage.atEnd = true) : stage = ended (.ok ()) := by
  cases stage with
  | ended r =>
    cases r with
    | ok u => rfl
    | error e => exact absurd h (by simp [atEnd])
  | _ => exact absurd h (by simp [atEnd])

end RunStage

namespace Runner

variable {s : Runner}

/-- What `benchmark.main` returns in the runs below. -/
def sampleResult : BenchmarkResult := ⟨⟨"9.5", some (19 / 2)⟩, ⟨"9.0", some 9⟩⟩

/-- Two sessions of an experiment with two cases. The first one is interrupted in the second case,
and the second one has got there. -/
def resumedRun : List Act :=
  let exp : Experiment := {
    name := "small", dbtype := "postgres", benchmark := "ycsb", scalefactor := 1, time := 60
    rate := 10, isolation := "serializable", paramKeys := [.plain "hot"]
    paramValues := Dict.empty.setAll
      [("hot", .many [.plain (some (.int 1)), .plain (some (.int 2))])]
    replace := none }
  let args : RunArgs := {
    new := false, tagPrefix := some "", skipCreateLoad := false, sload := false, dryRun := false
    interactive := false, logsPerSec := 0, set := none }
  [.launch exp (some 2) args "t1", .next, .returned sampleResult, .returned sampleResult,
    .returned sampleResult, .saved, .next, .kill, .launch exp (some 2) args "t2", .next, .next]

/-- The second session goes on to its end. -/
def finishedRun : List Act :=
  resumedRun ++ [.returned sampleResult, .returned sampleResult, .returned sampleResult, .saved,
    .next]

set_option maxRecDepth 20000 in
theorem reach_of_finishedRun {as : List Act} (has : as <+: finishedRun)
    (hs : Machine.run Runner.step init as = some s) :
    Machine.Reach Runner.step (fun _ a => a.Ordinary ["hot"]) init s := by
  have hordinary : ∀ a ∈ finishedRun, a.Ordinary ["hot"] := by decide
  exact Machine.reach_of_run .start
    (Machine.admitted_of_forall fun _ a ha => hordinary a (has.subset ha)) hs

/-- What a session knows of the file: a session that goes on from it knows the saved successes, and a
success that is not saved yet is the one that is about to be. -/
def Known (s : Runner) : Prop :=
  ∀ t, s.session = some t → (t.args.new = false → ∀ m ∈ s.recorded, m ∈ t.succeeded) ∧
    ∀ m ∈ t.succeeded, m ∈ s.recorded ∨
      ∃ i x, t.stage = .saving i x ∧ m = metadataTexts x.metadata

/-- Outside of `saving` all successes are saved. -/
theorem Known.all (h : s.Known) {t : RunSession} (ht : s.session = some t)
    (hstage : ∀ i x, t.stage ≠ .saving i x) : ∀ m ∈ t.succeeded, m ∈ s.recorded := by
  intro m hm
  rcases (h t ht).2 m hm with hsaved | ⟨i, x, hsaving, -⟩
  · exact hsaved
  · exact absurd hsaving (hstage i x)

/-- A session goes on and executes nothing with success. -/
theorem Known.same (h : s.Known) {t : RunSession} (ht : s.session = some t)
    (hstage : ∀ i x, t.stage ≠ .saving i x) (u : RunSession) (hargs : u.args = t.args)
    (hsucceeded : u.succeeded = t.succeeded) {progress : Progress} :
    Known { s with progress, session := some u } := by
  intro v hv
  obtain rfl := Option.some.inj hv
  rw [hargs, hsucceeded]
  exact ⟨(h t ht).1, fun m hm => Or.inl (h.all ht hstage m hm)⟩

theorem Known.launch (s : Runner) (exp : Experiment) (reloadEvery : Option Int) (args : RunArgs)
    (timestamp : String) : (s.launch exp reloadEvery args timestamp).Known := by
  intro t ht
  unfold Runner.launch at ht ⊢
  dsimp only at ht ⊢
  by_cases hnew : args.new = true
  · rw [if_pos hnew] at ht ⊢
    obtain rfl := Option.some.inj ht
    exact ⟨fun hold => absurd (hnew.symm.trans hold) (by simp), fun m hm => absurd hm List.not_mem_nil⟩
  · rw [if_neg hnew] at ht ⊢
    cases hload : Progress.load { file := s.progress.file, progress := [] } with
    | ok progress =>
      rw [hload] at ht
      obtain rfl := Option.some.inj ht
      exact ⟨fun _ _ hm => hm, fun _ hm => Or.inl hm⟩
    | error e =>
      rw [hload] at ht
      obtain rfl := Option.some.inj ht
      exact ⟨fun _ _ hm => hm, fun _ hm => Or.inl hm⟩

theorem look_same (u : RunSession) (i : Nat) (x : BenchmarkItem)
    (status : Option (Option ParameterValue)) :
    (look u i x status).args = u.args ∧ (look u i x status).succeeded = u.succeeded := by
  obtain ⟨op, hop⟩ := u.begin_cases i x
  cases status with
  | none => exact ⟨rfl, rfl⟩
  | some status =>
    unfold look
    dsimp only
    rw [hop]
    split_ifs <;> exact ⟨rfl, rfl⟩

theorem Known.next (h : s.Known) {t : RunSession} (ht : s.session = some t)
    (hstage : t.stage = .head) : (s.next t).Known := by
  have hhead : ∀ i x, t.stage ≠ .saving i x := by simp [hstage]
  have hall := h.all ht hhead
  intro v hv
  unfold Runner.next at hv ⊢
  cases hrest : t.rest with
  | nil =>
    rw [hrest] at hv
    obtain rfl := Option.some.inj hv
    exact ⟨(h t ht).1, fun m hm => Or.inl (hall m hm)⟩
  | cons x rest =>
    rw [hrest] at hv
    dsimp only at hv ⊢
    obtain rfl := Option.some.inj hv
    obtain ⟨hargs, hsucceeded⟩ := look_same { t with rest } (s.progress.getOrInsert x.metadata).2 x
      ((s.progress.getOrInsert x.metadata).1.progress[(s.progress.getOrInsert x.metadata).2]?.bind
        fun record => record.get? "status")
    rw [hargs, hsucceeded]
    split_ifs with hfound
    · exact ⟨(h t ht).1, fun m hm => Or.inl (hall m hm)⟩
    · exact ⟨fun _ _ hm => hm, fun _ hm => Or.inl hm⟩

theorem Known.step {s' : Runner} (h : s.Known) {a : Act} (hs : s.step a = some s') : s'.Known := by
  cases moved_of_step hs with
  | launch exp reloadEvery args timestamp hnone h' =>
    rw [h']
    exact .launch s exp reloadEvery args timestamp
  | next t ht hstage h' =>
    rw [h']
    exact h.next ht hstage
  | confirmed t i x ht hstage h' =>
    obtain ⟨op, hop⟩ := t.begin_cases i x
    rw [h', hop]
    exact h.same ht (by simp [hstage]) (t.call op i x) rfl rfl
  | declined t i x ht hstage h' =>
    rw [h']
    exact h.same ht (by simp [hstage]) { t with stage := .declined } rfl rfl
  | created t result i x ht hstage h' =>
    rw [h']
    exact h.same ht (by simp [hstage]) (t.call .load i x) rfl rfl
  | loaded t result i x ht hstage h' =>
    rw [h']
    exact h.same ht (by simp [hstage]) (t.reloaded i x) rfl rfl
  | executed t result i x ht hstage h' =>
    rw [h']
    intro v hv
    obtain rfl := Option.some.inj hv
    refine ⟨fun hnew m hm => List.mem_append_left _ ((h t ht).1 hnew m hm), fun m hm => ?_⟩
    rcases List.mem_append.mp hm with hold | hown
    · exact Or.inl (h.all ht (by simp [hstage]) m hold)
    · exact Or.inr ⟨i, x, rfl, List.mem_singleton.mp hown⟩
  | failed t i x ht hstage h' =>
    have hbefore : ∀ j y, t.stage ≠ .saving j y := by
      rcases hstage with hstage | ⟨op, hstage⟩ <;> simp [hstage]
    rw [h']
    exact h.same ht hbefore (t.fail i x) rfl rfl
  | saved t i x ht hstage h' =>
    rw [h']
    intro v hv
    obtain rfl := Option.some.inj hv
    exact ⟨fun _ _ hm => hm, fun _ hm => Or.inl hm⟩
  | killed h' =>
    rw [h']
    exact fun t ht => absurd ht (by simp)

theorem Known.of_reach {ok : Runner → Act → Prop} (hr : Machine.Reach Runner.step ok init s) :
    s.Known :=
  hr.invariant (fun _ ht => absurd ht (by simp [init])) fun _ _ _ h _ hs => h.step hs

/-- **No case is executed again once its success was saved.** Through any number of sessions of an
experiment, which may end anywhere: the cases whose success is saved in the file are different from
each other, and so are those that a session under way knows of. Whenever it calls `benchmark.main` for
a case, that case is none of those that it has executed with success itself and, unless it was started
with `--new`, none of those in the file. All successes that it knows of are saved, but for the one
that it is just about to save. -/
theorem succeeded_once (params : List String) (hparams : ∀ k ∈ reservedKeys, k ∉ params)
    (s : Runner) (hr : Machine.Reach Runner.step (fun _ a => a.Ordinary params) init s) :
    (s.recorded.Pairwise fun m n => ∃ k, m.get? k ≠ n.get? k) ∧
    ∀ t, s.session = some t → (t.succeeded.Pairwise fun m n => ∃ k, m.get? k ≠ n.get? k) ∧
      (∀ op i x, t.stage = .calling op i x →
        ∀ m ∈ t.succeeded, ∃ k, m.get? k ≠ (metadataTexts x.metadata).get? k) ∧
      (t.args.new = false → ∀ m ∈ s.recorded, m ∈ t.succeeded) ∧
      ∀ m ∈ t.succeeded, m ∈ s.recorded ∨
        ∃ i x, t.stage = .saving i x ∧ m = metadataTexts x.metadata := by
  have h := Sound.of_reach hparams hr
  constructor
  · rcases h.file with ⟨-, hrecorded⟩ | ⟨P, -, -, hfaithful⟩
    · rw [hrecorded]
      exact .nil
    · exact hfaithful.once
  · intro t ht
    obtain ⟨hfaithful, hitems, hstaged⟩ := h.session t ht
    refine ⟨hfaithful.once, fun op i x hstage m hm => ?_, Known.of_reach hr t ht⟩
    rw [hstage] at hstaged
    obtain ⟨⟨r, hi, hcovers, hnot⟩, gone, heq, -⟩ := hstaged
    have hx : x.Sound _ := hitems x (by rw [heq]; simp)
    by_contra hsame
    refine hnot ((hfaithful.done_iff hx.texts (List.mem_of_getElem? hi) hcovers).mpr
      ⟨m, hm, fun k => ?_⟩)
    by_contra hne
    exact hsame ⟨k, hne⟩

set_option maxRecDepth 20000 in
theorem succeeded_once_resumed :
    ∃ s t i x, Machine.run Runner.step init resumedRun = some s ∧ s.session = some t ∧
      t.stage = .calling .create i x ∧ t.succeeded.length = 1 ∧
      ∀ m ∈ t.succeeded, ∃ k, m.get? k ≠ (metadataTexts x.metadata).get? k := by
  have hrun : ((Machine.run Runner.step init resumedRun).bind Runner.session).map (fun t =>
      (t.succeeded.length, t.stage.operation)) = some (1, some .create) := by decide
  obtain ⟨t, ht, heq⟩ := Option.map_eq_some_iff.mp hrun
  obtain ⟨s, hs, hst⟩ := Option.bind_eq_some_iff.mp ht
  obtain ⟨hlength, hstage⟩ := Prod.mk.inj heq
  obtain ⟨i, x, hcalling⟩ := RunStage.calling_of_operation hstage
  have hreach := reach_of_finishedRun (List.prefix_append _ _) hs
  exact ⟨s, t, i, x, hs, hst, hcalling, hlength,
    ((succeeded_once ["hot"] (by decide) s hreach).2 t hst).2.1 .create i x hcalling⟩

/-- **The progress file is true.** In every state that is reached, the file can be loaded; a record
in it says that its case is done if and only if the success of the case was saved, and every such
case has a record. -/
theorem file_truthful (params : List String) (hparams : ∀ k ∈ reservedKeys, k ∉ params) (s : Runner)
    (hr : Machine.Reach Runner.step (fun _ a => a.Ordinary params) init s) (text : List Char)
    (hfile : s.progress.file = some text) :
    ∃ Q, loadRecords text = .ok Q ∧
      (∀ q ∈ Q, q.Done ↔ ∃ m ∈ s.recorded, q.covers m = true) ∧
      ∀ m ∈ s.recorded, ∃ q ∈ Q, q.covers m = true := by
  rcases (Sound.of_reach hparams hr).file with ⟨hnone, -⟩ | ⟨P, hne, hsome, hfaithful⟩
  · rw [hnone] at hfile
    exact absurd hfile (by simp)
  · rw [hsome] at hfile
    obtain rfl := Option.some.inj hfile
    have hstored := hfaithful.stored
    exact ⟨stored P, load_of_saved hne hfaithful, hstored.truthful,
      fun m hm => (hstored.known m hm).2⟩

set_option maxRecDepth 20000 in
theorem file_truthful_resumed :
    ∃ s text Q, Machine.run Runner.step init resumedRun = some s ∧ s.progress.file = some text ∧
      loadRecords text = .ok Q ∧ ∀ q ∈ Q, q.Done ↔ ∃ m ∈ s.recorded, q.covers m = true := by
  have hrun : (Machine.run Runner.step init resumedRun).map (fun s => s.progress.file.isSome) =
      some true := by decide
  obtain ⟨s, hs, hsome⟩ := Option.map_eq_some_iff.mp hrun
  obtain ⟨text, htext⟩ := Option.isSome_iff_exists.mp hsome
  obtain ⟨Q, hload, htruthful, -⟩ :=
    file_truthful ["hot"] (by decide) s (reach_of_finishedRun (List.prefix_append _ _) hs) text
      htext
  exact ⟨s, text, Q, hs, htext, hload, htruthful⟩

/-- **A session that gets to its end has tried every case.** The file then has, for every case of
the experiment, a record that says that it is done or that it has failed. -/
theorem session_completes (params : List String) (hparams : ∀ k ∈ reservedKeys, k ∉ params)
    (s : Runner) (hr : Machine.Reach Runner.step (fun _ a => a.Ordinary params) init s)
    (t : RunSession) (ht : s.session = some t) (hended : t.stage = .ended (.ok ())) (x : BenchmarkItem)
    (hx : x ∈ t.items) :
    ∃ text Q q, s.progress.file = some text ∧ loadRecords text = .ok Q ∧ q ∈ Q ∧
      q.covers (metadataTexts x.metadata) = true ∧ q.Settled := by
  obtain ⟨hfaithful, hitems, hstaged⟩ := (Sound.of_reach hparams hr).session t ht
  rw [hended] at hstaged
  obtain ⟨hsaved, htried⟩ := hstaged
  obtain ⟨r, hmem, hcovers, hsettled⟩ := htried x hx
  have hne : s.progress.progress ≠ [] := List.ne_nil_of_mem hmem
  refine ⟨_, _, r.stored _ (nodup_fieldnames s.progress.progress), hsaved hne,
    load_of_saved hne hfaithful, List.mem_map.mpr ⟨r, hmem, rfl⟩, ?_, ?_⟩
  · exact (Record.covers_congr (hitems x hx).texts fun k hk =>
      hfaithful.get?_stored_of_key hmem hk).trans hcovers
  · unfold Record.Settled Record.Done
    rw [hfaithful.status_stored hmem]
    exact hsettled

set_option maxRecDepth 20000 in
theorem session_completes_finished :
    ∃ s t, Machine.run Runner.step init finishedRun = some s ∧ s.session = some t ∧
      t.items.length = 2 ∧ ∀ x ∈ t.items, ∃ text Q q, s.progress.file = some text ∧
        loadRecords text = .ok Q ∧ q ∈ Q ∧ q.covers (metadataTexts x.metadata) = true ∧
        q.Settled := by
  have hrun : ((Machine.run Runner.step init finishedRun).bind Runner.session).map (fun t =>
      (t.items.length, t.stage.atEnd)) = some (2, true) := by decide
  obtain ⟨t, ht, heq⟩ := Option.map_eq_some_iff.mp hrun
  obtain ⟨s, hs, hst⟩ := Option.bind_eq_some_iff.mp ht
  obtain ⟨hlength, hstage⟩ := Prod.mk.inj heq
  have hended := RunStage.ended_of_atEnd hstage
  have hreach := reach_of_finishedRun (List.prefix_refl _) hs
  exact ⟨s, t, hs, hst, hlength, fun x hx =>
    session_completes ["hot"] (by decide) s hreach t hst hended x hx⟩

end Runner

end Sunstorm
