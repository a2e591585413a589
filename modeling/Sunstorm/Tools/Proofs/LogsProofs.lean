import Mathlib.Data.List.Count
import Sunstorm.Machine.Proofs.MachineProofs
import Sunstorm.Regex.Proofs.RegexProofs
import Sunstorm.Sorting.Proofs.SortingProofs
import Sunstorm.Tools.Logs

/-!
# Proofs: the logs of a running benchmark

The main thread is woken up by the thread that ends last, so what it reports is complete. It sleeps
for ever when there is no log at all, or when one of the threads has raised.
-/

namespace Sunstorm

open Machine

namespace PrintLogs

variable {σ : Type} {callback : String → String → σ → σ} {s s' : PrintLogs σ} {a : Act}

/-! ## What a step can do -/

/-- What a thread can do. -/
theorem printLog_cases {i : Nat} {t : LogThread} {e : Event}
    (h : s.printLog callback i t e = some s') :
    (∃ decoded, t.state = .reading ∧
      s' = s.setThread i { t with state := .calling decoded, lines := t.lines ++ [decoded] }) ∨
    (∃ decoded, t.state = .calling decoded ∧
      s' = (s.setThread i { t with state := .reading }).callBack callback i t.logs.label decoded) ∨
    (t.state = .reading ∧ s' = (s.setThread i { t with state := .ended }).countDown) ∨
    (t.state = .reading ∧ s' = s.setThread i { t with state := .failed }) := by
  cases e with
  | line text =>
    obtain ⟨hstate, heq⟩ := Option.ite_none_right_eq_some.mp h
    exact Or.inl ⟨_, hstate, (Option.some.inj heq).symm⟩
  | call =>
    unfold printLog at h
    cases hstate : t.state with
    | calling decoded =>
      rw [hstate] at h
      exact Or.inr (Or.inl ⟨decoded, rfl, (Option.some.inj h).symm⟩)
    | _ =>
      rw [hstate] at h
      exact absurd h (by simp)
  | finish =>
    obtain ⟨hstate, heq⟩ := Option.ite_none_right_eq_some.mp h
    exact Or.inr (Or.inr (Or.inl ⟨hstate, (Option.some.inj heq).symm⟩))
  | raise =>
    obtain ⟨hstate, heq⟩ := Option.ite_none_right_eq_some.mp h
    exact Or.inr (Or.inr (Or.inr ⟨hstate, (Option.some.inj heq).symm⟩))

/-- What a step can do. -/
theorem step_cases (h : s.step callback a = some s') :
    (s.started < s.threads.length ∧ s.watching = .starting ∧
      s' = { s with started := s.started + 1 }) ∨
    (∃ i t e, i < s.started ∧ s.threads[i]? = some t ∧ s.printLog callback i t e = some s') ∨
    (s.watching = .starting ∧ s.started = s.threads.length ∧
      s' = { s with watching := .waiting }) ∨
    (s.watching = .waiting ∧ s.exitEvent = true ∧ s' = { s with watching := .returned }) := by
  cases a with
  | start =>
    obtain ⟨⟨hstarting, hlt⟩, heq⟩ := Option.ite_none_right_eq_some.mp h
    exact Or.inl ⟨hlt, hstarting, (Option.some.inj heq).symm⟩
  | thread i e =>
    cases ht : (s.threads.take s.started)[i]? with
    | none =>
      rw [step, ht] at h
      exact absurd h (by simp)
    | some t =>
      rw [step, ht] at h
      rw [List.getElem?_take] at ht
      obtain ⟨hi, hget⟩ := Option.ite_none_right_eq_some.mp ht
      exact Or.inr (Or.inl ⟨i, t, e, hi, hget, h⟩)
  | printed =>
    obtain ⟨⟨hstarting, hall, -⟩, heq⟩ := Option.ite_none_right_eq_some.mp h
    exact Or.inr (Or.inr (Or.inl ⟨hstarting, hall, (Option.some.inj heq).symm⟩))
  | wake =>
    obtain ⟨⟨hwaiting, hexit⟩, heq⟩ := Option.ite_none_right_eq_some.mp h
    exact Or.inr (Or.inr (Or.inr ⟨hwaiting, hexit, (Option.some.inj heq).symm⟩))

/-! ## The event -/

/-- The number of threads that have not counted themselves out. -/
def alive (s : PrintLogs σ) : Nat := s.threads.countP fun t => t.state ≠ .ended

theorem alive_eq_zero_iff : s.alive = 0 ↔ ∀ t ∈ s.threads, t.state = .ended := by
  rw [alive, List.countP_eq_zero]
  simp

theorem alive_setThread {i : Nat} {t : LogThread} (t' : LogThread) (ht : s.threads[i]? = some t)
    (hstate : t.state ≠ .ended) :
    (s.setThread i t').alive + 1 = s.alive + (if t'.state = .ended then 0 else 1) := by
  obtain ⟨hi, hget⟩ := List.getElem?_eq_some_iff.mp ht
  have hpos : 0 < s.alive := List.countP_pos_iff.mpr ⟨t, List.mem_of_getElem? ht, by simpa⟩
  have hset : (s.setThread i t').alive =
      s.alive - 1 + (if decide (t'.state ≠ .ended) = true then 1 else 0) := by
    unfold alive setThread
    rw [List.countP_set hi, hget, if_pos (by simpa using hstate)]
  rw [hset]
  by_cases hended : t'.state = .ended
  · simp [hended]
    omega
  · simp [hended]
    omega

/-- How the threads, their count and the main thread belong together. -/
structure Latched (s : PrintLogs σ) : Prop where
  counted : s.aliveThreads = s.alive
  bounded : s.started ≤ s.threads.length
  /-- A thread that was not started has not ended. -/
  fresh : ∀ i t, s.threads[i]? = some t → s.started ≤ i → t.state = .reading
  signalled : s.exitEvent = true ↔ s.threads ≠ [] ∧ s.alive = 0
  launched : s.watching ≠ .starting → s.started = s.threads.length
  returned : s.watching = .returned → s.exitEvent = true

theorem Latched.init (follow : Bool) (namedLogs : List NamedLogs) (shared : σ) :
    Latched (PrintLogs.init follow namedLogs shared) := by
  have halive : (PrintLogs.init follow namedLogs shared).alive = namedLogs.length := by
    simp [alive, PrintLogs.init, List.countP_map, Function.comp_def]
  refine ⟨by rw [halive]; rfl, Nat.zero_le _, fun i t ht _ => ?_, ?_, ?_, ?_⟩
  · obtain ⟨logs, -, rfl⟩ := List.mem_map.mp (List.mem_of_getElem? ht)
    rfl
  · rw [halive]
    constructor
    · intro h
      exact absurd h (by simp [PrintLogs.init])
    · rintro ⟨hne, hzero⟩
      rw [List.length_eq_zero_iff.mp hzero] at hne
      exact absurd rfl hne
  · intro h
    exact absurd rfl h
  · intro h
    exact absurd h (by simp [PrintLogs.init])

/-- A thread goes on. -/
theorem Latched.setThread {i : Nat} {t t' : LogThread} (h : Latched s) (hi : i < s.started)
    (ht : s.threads[i]? = some t) (hstate : t.state ≠ .ended) (hstate' : t'.state ≠ .ended) :
    Latched (s.setThread i t') := by
  have halive : (s.setThread i t').alive = s.alive := by
    have := alive_setThread t' ht hstate
    rw [if_neg hstate'] at this
    omega
  refine ⟨by rw [halive]; exact h.counted, by simpa [PrintLogs.setThread] using h.bounded,
    fun j u hu hj => ?_, ?_, fun hw => ?_, h.returned⟩
  · have hij : i ≠ j := by
      have : s.started ≤ j := hj
      omega
    exact h.fresh j u (by simpa [PrintLogs.setThread, List.getElem?_set_ne hij] using hu) hj
  · rw [halive]
    simpa [PrintLogs.setThread] using h.signalled
  · simpa [PrintLogs.setThread] using h.launched hw

/-- A thread counts itself out. -/
theorem Latched.finish {i : Nat} {t t' : LogThread} (h : Latched s) (hi : i < s.started)
    (ht : s.threads[i]? = some t) (hstate : t.state ≠ .ended) (hstate' : t'.state = .ended) :
    Latched (s.setThread i t').countDown := by
  have halive : (s.setThread i t').alive + 1 = s.alive := by
    have := alive_setThread t' ht hstate
    rwa [if_pos hstate'] at this
  have hexit : s.exitEvent = false := by
    rw [← Bool.not_eq_true, h.signalled, alive_eq_zero_iff]
    exact fun hall => hstate (hall.2 t (List.mem_of_getElem? ht))
  have hcounted : s.aliveThreads - 1 = (s.setThread i t').alive := by
    have := h.counted
    omega
  have hne : s.threads ≠ [] := List.ne_nil_of_mem (List.mem_of_getElem? ht)
  refine ⟨hcounted, by simpa [PrintLogs.setThread, countDown] using h.bounded,
    fun j u hu hj => ?_, ?_, fun hw => ?_, fun hw => ?_⟩
  · have hij : i ≠ j := by
      have : s.started ≤ j := hj
      omega
    exact h.fresh j u (by
      simpa [PrintLogs.setThread, countDown, List.getElem?_set_ne hij] using hu) hj
  · show (s.exitEvent || decide (s.aliveThreads - 1 = 0)) = true ↔
      s.threads.set i t' ≠ [] ∧ (s.setThread i t').alive = 0
    rw [hexit, Bool.false_or, decide_eq_true_iff, hcounted]
    simp [hne]
  · simpa [PrintLogs.setThread, countDown] using h.launched hw
  · have := h.returned hw
    rw [hexit] at this
    exact absurd this Bool.false_ne_true

theorem Latched.step (h : Latched s) (hstep : s.step callback a = some s') : Latched s' := by
  rcases step_cases hstep with ⟨hlt, hstarting, rfl⟩ | ⟨i, t, e, hi, ht, hmove⟩ |
    ⟨hstarting, hall, rfl⟩ | ⟨hwaiting, hexit, rfl⟩
  · exact { h with
      bounded := hlt
      fresh := fun j u hu hj => h.fresh j u hu (Nat.le_of_succ_le hj)
      launched := fun hw => absurd hstarting hw }
  · rcases printLog_cases hmove with ⟨decoded, hstate, rfl⟩ | ⟨decoded, hstate, rfl⟩ |
      ⟨hstate, rfl⟩ | ⟨hstate, rfl⟩
    · exact h.setThread hi ht (by simp [hstate]) (by simp)
    · have hmoved : Latched (s.setThread i { t with state := .reading }) :=
        h.setThread hi ht (by simp [hstate]) (by simp)
      exact { hmoved with }
    · exact h.finish hi ht (by simp [hstate]) rfl
    · exact h.setThread hi ht (by simp [hstate]) (by simp)
  · exact { h with
      launched := fun _ => hall
      returned := fun hw => absurd hw (by simp) }
  · exact { h with
      launched := fun _ => h.launched (by simp [hwaiting])
      returned := fun _ => hexit }

/-- A thread that has raised stays where it is. -/
theorem failed_step (hfailed : ∃ t ∈ s.threads, t.state = .failed)
    (hstep : s.step callback a = some s') : ∃ t ∈ s'.threads, t.state = .failed := by
  obtain ⟨u, hu, hstate⟩ := hfailed
  have hset : ∀ i t t', s.threads[i]? = some t → t.state ≠ .failed →
      u ∈ (s.setThread i t').threads := by
    intro i t t' ht hne
    obtain ⟨j, hj⟩ := List.mem_iff_getElem?.mp hu
    have hij : i ≠ j := by
      rintro rfl
      rw [ht] at hj
      exact hne (Option.some.inj hj ▸ hstate)
    refine List.mem_of_getElem? (i := j) ?_
    show (s.threads.set i t')[j]? = some u
    rw [List.getElem?_set_ne hij, hj]
  rcases step_cases hstep with ⟨-, -, rfl⟩ | ⟨i, t, e, -, ht, hmove⟩ | ⟨-, -, rfl⟩ | ⟨-, -, rfl⟩
  · exact ⟨u, hu, hstate⟩
  · rcases printLog_cases hmove with ⟨decoded, ht', rfl⟩ | ⟨decoded, ht', rfl⟩ |
      ⟨ht', rfl⟩ | ⟨ht', rfl⟩
    · exact ⟨u, hset i t _ ht (by simp [ht']), hstate⟩
    · exact ⟨u, hset i t _ ht (by simp [ht']), hstate⟩
    · exact ⟨u, hset i t _ ht (by simp [ht']), hstate⟩
    · exact ⟨u, hset i t _ ht (by simp [ht']), hstate⟩
  · exact ⟨u, hu, hstate⟩
  · exact ⟨u, hu, hstate⟩

theorem failed_of_reach (hfailed : ∃ t ∈ s.threads, t.state = .failed)
    (hr : Reach (step callback) (fun _ _ => True) s s') : ∃ t ∈ s'.threads, t.state = .failed := by
  induction hr with
  | start => exact hfailed
  | step a _ _ hstep ih => exact failed_step ih hstep

/-! ## The calls -/

/-- The calls of the callback belong to the lines that were read, and the shared state comes from
them. -/
structure Logged (callback : String → String → σ → σ) (namedLogs : List NamedLogs) (shared : σ)
    (s : PrintLogs σ) : Prop where
  named : s.threads.map LogThread.logs = namedLogs
  /-- Each thread hands its lines over in their order. -/
  ordered : ∀ i t, s.threads[i]? = some t →
    (s.calls.filter fun c => c.thread = i).map LogCall.log ++ t.state.pending = t.lines
  owned : ∀ c ∈ s.calls, ∃ t, s.threads[c.thread]? = some t ∧ c.name = t.logs.label
  folded : s.shared = s.calls.foldl (fun x c => callback c.name c.log x) shared

variable {namedLogs : List NamedLogs} {shared : σ}

theorem Logged.init (follow : Bool) :
    Logged callback namedLogs shared (PrintLogs.init follow namedLogs shared) := by
  refine ⟨?_, fun i t ht => ?_, fun c hc => ?_, rfl⟩
  · simp [PrintLogs.init, Function.comp_def]
  · obtain ⟨logs, -, rfl⟩ := List.mem_map.mp (List.mem_of_getElem? ht)
    rfl
  · exact absurd hc List.not_mem_nil

/-- The thread `i` keeps its logs when another one is put in its place. -/
theorem getElem?_setThread {i j : Nat} {t u : LogThread} (t' : LogThread)
    (ht : s.threads[i]? = some t) (hlogs : t'.logs = t.logs) (hu : s.threads[j]? = some u) :
    ∃ u', (s.setThread i t').threads[j]? = some u' ∧ u'.logs = u.logs := by
  obtain ⟨hi, -⟩ := List.getElem?_eq_some_iff.mp ht
  by_cases hij : i = j
  · subst hij
    rw [ht] at hu
    obtain rfl := Option.some.inj hu
    exact ⟨t', by simp [setThread, hi], hlogs⟩
  · exact ⟨u, by rw [setThread, List.getElem?_set_ne hij, hu], rfl⟩

theorem map_logs_setThread {i : Nat} {t : LogThread} (t' : LogThread)
    (ht : s.threads[i]? = some t) (hlogs : t'.logs = t.logs) :
    (s.setThread i t').threads.map LogThread.logs = s.threads.map LogThread.logs := by
  refine List.ext_getElem? fun j => ?_
  rw [List.getElem?_map, List.getElem?_map]
  cases hu : s.threads[j]? with
  | none => simp [setThread, List.getElem?_eq_none_iff.mp hu]
  | some u =>
    obtain ⟨u', hu', heq⟩ := getElem?_setThread t' ht hlogs hu
    rw [hu', Option.map_some, Option.map_some, heq]

/-- A thread goes on, without a call. -/
theorem Logged.setThread {i : Nat} {t t' : LogThread} (h : Logged callback namedLogs shared s)
    (ht : s.threads[i]? = some t) (hlogs : t'.logs = t.logs)
    (hlines : ∀ ls, ls ++ t.state.pending = t.lines → ls ++ t'.state.pending = t'.lines) :
    Logged callback namedLogs shared (s.setThread i t') := by
  obtain ⟨hi, -⟩ := List.getElem?_eq_some_iff.mp ht
  refine ⟨(map_logs_setThread t' ht hlogs).trans h.named, fun j u hu => ?_, fun c hc => ?_,
    h.folded⟩
  · by_cases hij : i = j
    · subst hij
      obtain rfl : t' = u := by simpa [PrintLogs.setThread, hi] using hu
      exact hlines _ (h.ordered i t ht)
    · exact h.ordered j u (by simpa [PrintLogs.setThread, List.getElem?_set_ne hij] using hu)
  · obtain ⟨u, hu, hname⟩ := h.owned c hc
    obtain ⟨u', hu', heq⟩ := getElem?_setThread t' ht hlogs hu
    exact ⟨u', hu', by rw [hname, heq]⟩

/-- The callback is called with the line that was read. -/
theorem Logged.callBack {i : Nat} {t : LogThread} {decoded : String}
    (h : Logged callback namedLogs shared s) (ht : s.threads[i]? = some t)
    (hstate : t.state = .calling decoded) :
    Logged callback namedLogs shared
      ((s.setThread i { t with state := .reading }).callBack callback i t.logs.label decoded) := by
  obtain ⟨hi, -⟩ := List.getElem?_eq_some_iff.mp ht
  have hnamed := map_logs_setThread { t with state := .reading } ht rfl
  refine ⟨hnamed.trans h.named, fun j u hu => ?_, fun c hc => ?_, ?_⟩
  · show ((s.calls ++ [(⟨i, t.logs.label, decoded⟩ : LogCall)]).filter fun c => c.thread = j).map
      LogCall.log ++ u.state.pending = u.lines
    rw [List.filter_append, List.map_append]
    by_cases hij : i = j
    · subst hij
      obtain rfl : { t with state := .reading } = u := by
        simpa [PrintLogs.setThread, PrintLogs.callBack, hi] using hu
      have hordered := h.ordered i t ht
      rw [hstate] at hordered
      simpa [Printing.pending] using hordered
    · have hu' : s.threads[j]? = some u := by
        simpa [PrintLogs.setThread, PrintLogs.callBack, List.getElem?_set_ne hij] using hu
      simpa [hij] using h.ordered j u hu'
  · rcases List.mem_append.mp hc with hc | hc
    · obtain ⟨u, hu, hname⟩ := h.owned c hc
      obtain ⟨u', hu', heq⟩ := getElem?_setThread { t with state := .reading } ht rfl hu
      exact ⟨u', hu', by rw [hname, heq]⟩
    · obtain rfl := List.mem_singleton.mp hc
      exact ⟨{ t with state := .reading }, by simp [PrintLogs.setThread, PrintLogs.callBack, hi], rfl⟩
  · show callback t.logs.label decoded s.shared =
      (s.calls ++ [(⟨i, t.logs.label, decoded⟩ : LogCall)]).foldl
        (fun x c => callback c.name c.log x) shared
    rw [h.folded, List.foldl_append]
    rfl

theorem Logged.step (h : Logged callback namedLogs shared s)
    (hstep : s.step callback a = some s') : Logged callback namedLogs shared s' := by
  rcases step_cases hstep with ⟨-, -, rfl⟩ | ⟨i, t, e, -, ht, hmove⟩ | ⟨-, -, rfl⟩ | ⟨-, -, rfl⟩
  · exact { h with }
  · rcases printLog_cases hmove with ⟨decoded, hstate, rfl⟩ | ⟨decoded, hstate, rfl⟩ |
      ⟨hstate, rfl⟩ | ⟨hstate, rfl⟩
    · refine h.setThread ht rfl fun ls hls => ?_
      rw [hstate] at hls
      rw [← hls]
      simp [Printing.pending]
    · exact h.callBack ht hstate
    · have hended : Logged callback namedLogs shared (s.setThread i { t with state := .ended }) :=
        h.setThread ht rfl fun ls hls => by simpa [hstate, Printing.pending] using hls
      exact { hended with }
    · exact h.setThread ht rfl fun ls hls => by simpa [hstate, Printing.pending] using hls
  · exact { h with }
  · exact { h with }

/-- When every thread is done, the calls are the lines of all logs, in some order. -/
theorem Logged.calls_perm (h : Logged callback namedLogs shared s)
    (hall : ∀ t ∈ s.threads, t.state = .ended) :
    (s.calls.map fun c => (c.name, c.log)).Perm
      (s.threads.flatMap fun t => t.lines.map fun line => (t.logs.label, line)) := by
  have hlt : ∀ c ∈ s.calls, c.thread < s.threads.length := by
    intro c hc
    obtain ⟨t, ht, -⟩ := h.owned c hc
    exact (List.getElem?_eq_some_iff.mp ht).1
  have hthread : ∀ i t, s.threads[i]? = some t →
      (s.calls.filter fun c => c.thread = i).map (fun c => (c.name, c.log)) =
        t.lines.map fun line => (t.logs.label, line) := by
    intro i t ht
    have hordered := h.ordered i t ht
    rw [hall t (List.mem_of_getElem? ht)] at hordered
    rw [show Printing.ended.pending = [] from rfl, List.append_nil] at hordered
    rw [← hordered, List.map_map]
    refine List.map_congr_left fun c hc => ?_
    obtain ⟨hmem, hi⟩ := List.mem_filter.mp hc
    obtain ⟨u, hu, hname⟩ := h.owned c hmem
    rw [of_decide_eq_true hi, ht] at hu
    obtain rfl := Option.some.inj hu
    rw [hname]
    rfl
  have hbuckets : (List.range s.threads.length).map
        (fun i => (s.calls.filter fun c => c.thread = i).map fun c => (c.name, c.log)) =
      s.threads.map fun t => t.lines.map fun line => (t.logs.label, line) := by
    refine List.ext_getElem (by simp) fun i hi hi' => ?_
    rw [List.getElem_map, List.getElem_map, List.getElem_range]
    exact hthread i _ (List.getElem?_eq_getElem _)
  have hperm := (Sorting.perm_buckets hlt).map fun c => (c.name, c.log)
  rw [List.map_flatMap, List.flatMap_def, hbuckets, ← List.flatMap_def] at hperm
  exact hperm

/-! ## The end -/

theorem Latched.of_reach {follow : Bool}
    (hr : Reach (PrintLogs.step callback) (fun _ _ => True)
      (PrintLogs.init follow namedLogs shared) s) :
    Latched s :=
  hr.invariant (.init follow namedLogs shared) fun _ _ _ h _ hstep => h.step hstep

theorem Logged.of_reach {follow : Bool}
    (hr : Reach (PrintLogs.step callback) (fun _ _ => True)
      (PrintLogs.init follow namedLogs shared) s) :
    Logged callback namedLogs shared s :=
  hr.invariant (.init follow) fun _ _ _ h _ hstep => h.step hstep

/-- **The event is set when all threads have ended, and only then.** So the main thread is woken up
as soon as every log is at its end. It sleeps for ever if there is no log, or if a thread has
raised. -/
theorem woken_by_last (follow : Bool) (namedLogs : List NamedLogs) (shared : σ)
    (callback : String → String → σ → σ) (s : PrintLogs σ)
    (hr : Reach (step callback) (fun _ _ => True) (PrintLogs.init follow namedLogs shared) s) :
    (s.exitEvent = true ↔ namedLogs ≠ [] ∧ ∀ t ∈ s.threads, t.state = .ended) ∧
    (s.watching = .returned → ∀ t ∈ s.threads, t.state = .ended) ∧
    (s.exitEvent = true → ∃ as s', run (step callback) s as = some s' ∧ s'.watching = .returned) ∧
    ((namedLogs = [] ∨ ∃ t ∈ s.threads, t.state = .failed) →
      ∀ s', Reach (step callback) (fun _ _ => True) s s' → s'.watching ≠ .returned) := by
  have hempty : ∀ u : PrintLogs σ, Logged callback namedLogs shared u →
      (u.threads = [] ↔ namedLogs = []) := by
    intro u hu
    rw [← hu.named, List.map_eq_nil_iff]
  have hlatched := Latched.of_reach hr
  have hexit : s.exitEvent = true ↔ namedLogs ≠ [] ∧ ∀ t ∈ s.threads, t.state = .ended := by
    rw [hlatched.signalled, alive_eq_zero_iff, Ne, hempty s (Logged.of_reach hr)]
  refine ⟨hexit, fun hreturned => (hexit.mp (hlatched.returned hreturned)).2, fun he => ?_,
    fun hnever s' hr' hreturned => ?_⟩
  · cases hw : s.watching with
    | starting =>
      have hstarted : s.started = s.threads.length := by
        by_contra hne
        have hlt : s.started < s.threads.length := lt_of_le_of_ne hlatched.bounded hne
        have hreading := hlatched.fresh _ _ (List.getElem?_eq_getElem hlt) le_rfl
        rw [(hexit.mp he).2 _ (List.getElem_mem hlt)] at hreading
        exact absurd hreading (by simp)
      have hover : s.threads.all LogThread.isOver = true := by
        rw [List.all_eq_true]
        intro t ht
        simp [LogThread.isOver, (hexit.mp he).2 t ht]
      refine ⟨[.printed, .wake], { s with watching := .returned }, ?_, rfl⟩
      simp [run, step, hw, hstarted, hover, he]
    | waiting =>
      refine ⟨[.wake], { s with watching := .returned }, ?_, rfl⟩
      simp [run, step, hw, he]
    | returned => exact ⟨[], s, rfl, hw⟩
  · have hr'' := hr.trans hr'
    have hset := (Latched.of_reach hr'').returned hreturned
    rw [(Latched.of_reach hr'').signalled, alive_eq_zero_iff, Ne,
      hempty s' (Logged.of_reach hr'')] at hset
    rcases hnever with hnil | hfailed
    · exact hset.1 hnil
    · obtain ⟨t, ht, hstate⟩ := failed_of_reach hfailed hr'
      rw [hset.2 t ht] at hstate
      exact absurd hstate (by simp)

/-- Two logs are read to their ends, and the main thread goes on. -/
def endedActs : List Act :=
  [.start, .start, .printed, .thread 1 .finish, .thread 0 (.line "done\n"), .thread 0 .call,
    .thread 0 .finish, .wake]

/-- One of two logs breaks off. -/
def brokenActs : List Act :=
  [.start, .start, .printed, .thread 1 .raise, .thread 0 (.line "done\n"), .thread 0 .call,
    .thread 0 .finish]

set_option maxRecDepth 20000 in
theorem woken_by_last_two :
    (∃ s, run (step fun _ _ n => n + 1) (init true [⟨"us", "load"⟩, ⟨"eu", "load"⟩] 0) endedActs =
        some s ∧ s.watching = .returned ∧ ∀ t ∈ s.threads, t.state = .ended) ∧
    ∃ s, run (step fun _ _ n => n + 1) (init true [⟨"us", "load"⟩, ⟨"eu", "load"⟩] 0) brokenActs =
        some s ∧
      ∀ s', Reach (step fun _ _ n => n + 1) (fun _ _ => True) s s' → s'.watching ≠ .returned := by
  have hended : (run (step fun _ _ n => n + 1) (init true [⟨"us", "load"⟩, ⟨"eu", "load"⟩] 0)
      endedActs).map PrintLogs.watching = some .returned := by decide
  have hbroken : (run (step fun _ _ n => n + 1) (init true [⟨"us", "load"⟩, ⟨"eu", "load"⟩] 0)
      brokenActs).map (fun s => s.threads.any fun t => t.state = .failed) = some true := by decide
  obtain ⟨s, hs, hreturned⟩ := Option.map_eq_some_iff.mp hended
  obtain ⟨u, hu, hfailed⟩ := Option.map_eq_some_iff.mp hbroken
  obtain ⟨t, ht, hstate⟩ := List.any_eq_true.mp hfailed
  have hreach := reach_of_run .start (admitted_of_forall fun _ _ _ => trivial) hs
  have hreach' := reach_of_run .start (admitted_of_forall fun _ _ _ => trivial) hu
  exact ⟨⟨s, hs, hreturned, (woken_by_last _ _ _ _ s hreach).2.1 hreturned⟩,
    u, hu, (woken_by_last _ _ _ _ u hreach').2.2.2 (Or.inr ⟨t, ht, of_decide_eq_true hstate⟩)⟩

end PrintLogs

end Sunstorm
