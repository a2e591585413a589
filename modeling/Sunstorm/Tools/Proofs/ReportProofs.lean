import Mathlib.Algebra.Ring.Int.Defs
import Mathlib.Data.List.Induction
import Sunstorm.Tools.Proofs.LogsProofs

/-!
# Proofs: what is reported of a benchmark

The figures of all threads are gathered in whatever order the threads get to them. When the main
thread reports, every matched line of every log is there once, and the report does not show the
order.
-/

namespace Sunstorm

open Machine Regex.Pattern

namespace Execute

variable {decimal : Char → Bool}

/-! ## The pattern -/

/-- The part of the pattern inside a group. -/
def digits (decimal : Char → Bool) : Regex.Pattern :=
  .alt (.seq (.many decimal) (.seq (.text ['.']) (.many decimal))) (.many decimal)

theorem describes_digits_iff {s : String} {gs : List (List Char)} :
    (digits decimal).Describes s.toList gs ↔ IsNumber decimal s ∧ gs = [] := by
  unfold digits IsNumber
  constructor
  · rintro (h | ⟨hw, hwhole, rfl⟩)
    · obtain ⟨whole, v, heq, hne, hwhole, h⟩ := describes_many_seq.mp h
      obtain ⟨places, rfl, hne', hplaces, rfl⟩ := describes_text_seq.mp h
      exact ⟨⟨whole, hne, hwhole, Or.inr ⟨places, hne', hplaces, heq⟩⟩, rfl⟩
    · exact ⟨⟨s.toList, hw, hwhole, Or.inl rfl⟩, rfl⟩
  · rintro ⟨⟨whole, hne, hwhole, heq | ⟨places, hne', hplaces, heq⟩⟩, rfl⟩
    · rw [heq]
      exact Or.inr ⟨hne, hwhole, rfl⟩
    · exact Or.inl (describes_many_seq.mpr ⟨whole, _, heq, hne, hwhole,
        describes_text_seq.mpr ⟨places, rfl, hne', hplaces, rfl⟩⟩)

theorem toList_resultText (results throughput goodput : String) :
    (resultText results throughput goodput).toList =
      "Rate limited reqs/s: Results(".toList ++ (results.toList ++ (") = ".toList ++
        (throughput.toList ++ (" requests/sec (throughput), ".toList ++ (goodput.toList ++
          " requests/sec (goodput)".toList))))) := by
  unfold resultText
  repeat rw [String.toList_append]
  repeat rw [List.append_assoc]

/-- What the pattern describes. -/
theorem describes_pattern {w : List Char} {gs : List (List Char)}
    (h : (pattern decimal).Describes w gs) :
    ∃ results throughput goodput, w = (resultText results throughput goodput).toList ∧
      gs = [throughput.toList, goodput.toList] ∧ results ≠ "" ∧ '\n' ∉ results.toList ∧
      IsNumber decimal throughput ∧ IsNumber decimal goodput := by
  obtain ⟨v₁, rfl, h₁⟩ := describes_text_seq.mp h
  obtain ⟨r, v₂, rfl, hr, hline, h₂⟩ := describes_many_seq.mp h₁
  obtain ⟨v₃, rfl, h₃⟩ := describes_text_seq.mp h₂
  obtain ⟨t, v₄, gs₁, gs₂, rfl, rfl, ht, h₄⟩ := describes_group_seq.mp h₃
  obtain ⟨v₅, rfl, h₅⟩ := describes_text_seq.mp h₄
  obtain ⟨g, v₆, gs₃, gs₄, rfl, rfl, hg, rfl, rfl⟩ := describes_group_seq.mp h₅
  have htext : ∀ cs : List Char, ∃ s : String, cs = s.toList :=
    fun cs => ⟨String.ofList cs, String.toList_ofList.symm⟩
  obtain ⟨results, rfl⟩ := htext r
  obtain ⟨throughput, rfl⟩ := htext t
  obtain ⟨goodput, rfl⟩ := htext g
  obtain ⟨htn, rfl⟩ := describes_digits_iff.mp ht
  obtain ⟨hgn, rfl⟩ := describes_digits_iff.mp hg
  refine ⟨results, throughput, goodput, (toList_resultText ..).symm, rfl, ?_, ?_, htn, hgn⟩
  · rwa [Ne, String.toList_eq_nil_iff] at hr
  · intro hmem
    exact absurd (hline _ hmem) (by simp)

theorem pattern_describes {results throughput goodput : String} (hne : results ≠ "")
    (hline : '\n' ∉ results.toList) (ht : IsNumber decimal throughput)
    (hg : IsNumber decimal goodput) :
    (pattern decimal).Describes (resultText results throughput goodput).toList
      [throughput.toList, goodput.toList] := by
  have hdigits : ∀ {s : String}, IsNumber decimal s → (digits decimal).Describes s.toList [] := by
    intro s hs
    exact describes_digits_iff.mpr ⟨hs, rfl⟩
  rw [toList_resultText]
  refine describes_text_seq.mpr ⟨_, rfl, describes_many_seq.mpr ⟨_, _, rfl, ?_, ?_,
    describes_text_seq.mpr ⟨_, rfl, describes_group_seq.mpr ⟨_, _, [], _, rfl, rfl, hdigits ht,
      describes_text_seq.mpr ⟨_, rfl, describes_group_seq.mpr ⟨_, _, [], [], rfl, rfl,
        hdigits hg, rfl, rfl⟩⟩⟩⟩⟩⟩
  · rwa [Ne, String.toList_eq_nil_iff]
  · intro c hc
    have : c ≠ '\n' := fun h => hline (h ▸ hc)
    simpa using this

theorem figures_eq_some_iff {log throughput goodput : String} :
    figures decimal log = some (throughput, goodput) ↔
      (pattern decimal).search log.toList = some [throughput.toList, goodput.toList] := by
  constructor
  · intro h
    unfold figures at h
    split at h
    · next t g hsearch =>
      obtain ⟨rfl, rfl⟩ := Prod.mk.inj (Option.some.inj h)
      rw [hsearch, String.toList_ofList, String.toList_ofList]
    · exact absurd h (by simp)
  · intro h
    rw [figures, h]
    simp

/-- What the search gives are figures of the line. -/
theorem result_of_search {log : String} {gs : List (List Char)}
    (h : (pattern decimal).search log.toList = some gs) :
    ∃ before results throughput goodput after,
      log = before ++ resultText results throughput goodput ++ after ∧
      gs = [throughput.toList, goodput.toList] ∧ results ≠ "" ∧ '\n' ∉ results.toList ∧
      IsNumber decimal throughput ∧ IsNumber decimal goodput := by
  obtain ⟨before, w, after, heq, hd⟩ := describes_of_search h
  obtain ⟨results, throughput, goodput, rfl, hgs, hrest⟩ := describes_pattern hd
  refine ⟨String.ofList before, results, throughput, goodput, String.ofList after, ?_, hgs, hrest⟩
  rw [← String.toList_inj, heq, String.toList_append, String.toList_append, String.toList_ofList,
    String.toList_ofList]

/-- **The figures of a line are those of a result in it.** A line has figures if and only if a result
stands somewhere in it, and the figures are then two numbers as they stand there. -/
theorem figures_found (decimal : Char → Bool) (log : String) :
    ((figures decimal log).isSome = true ↔
      ∃ before results throughput goodput after,
        log = before ++ resultText results throughput goodput ++ after ∧ results ≠ "" ∧
        '\n' ∉ results.toList ∧ IsNumber decimal throughput ∧ IsNumber decimal goodput) ∧
    ∀ throughput goodput, figures decimal log = some (throughput, goodput) →
      ∃ before results after,
        log = before ++ resultText results throughput goodput ++ after ∧ results ≠ "" ∧
        '\n' ∉ results.toList ∧ IsNumber decimal throughput ∧ IsNumber decimal goodput := by
  have hfound : ∀ throughput goodput, figures decimal log = some (throughput, goodput) →
      ∃ before results after,
        log = before ++ resultText results throughput goodput ++ after ∧ results ≠ "" ∧
        '\n' ∉ results.toList ∧ IsNumber decimal throughput ∧ IsNumber decimal goodput := by
    intro throughput goodput h
    obtain ⟨before, results, t, g, after, heq, hgs, hrest⟩ :=
      result_of_search (figures_eq_some_iff.mp h)
    obtain ⟨ht, hgs⟩ := List.cons.inj hgs
    obtain ⟨hg, -⟩ := List.cons.inj hgs
    rw [String.toList_inj.mp ht, String.toList_inj.mp hg]
    exact ⟨before, results, after, heq, hrest⟩
  refine ⟨⟨fun h => ?_, ?_⟩, hfound⟩
  · obtain ⟨⟨throughput, goodput⟩, h⟩ := Option.isSome_iff_exists.mp h
    obtain ⟨before, results, after, hrest⟩ := hfound throughput goodput h
    exact ⟨before, results, throughput, goodput, after, hrest⟩
  · rintro ⟨before, results, throughput, goodput, after, rfl, hne, hline, ht, hg⟩
    have hsome : ((pattern decimal).search
        (before ++ resultText results throughput goodput ++ after).toList).isSome = true := by
      rw [String.toList_append, String.toList_append]
      exact search_isSome (pattern_describes hne hline ht hg)
    obtain ⟨gs, hgs⟩ := Option.isSome_iff_exists.mp hsome
    obtain ⟨-, -, t, g, -, -, rfl, -⟩ := result_of_search hgs
    rw [figures_eq_some_iff.mpr hgs]
    rfl

/-! ## The report -/

variable {F : Type} [Zero F] [Add F] {float : String → F}

/-- What the calls of the callback leave behind. -/
theorem foldl_parseAndAdd (calls : List LogCall) :
    calls.foldl (fun x c => parseAndAdd decimal float c.name c.log x) Matched.init =
      { matchedLogs := (calls.filter fun c => (figures decimal c.log).isSome).map
          fun c => mark c.name c.log
        throughput := (calls.filterMap fun c => figures decimal c.log).foldl
          (fun x r => x + float r.1) 0
        goodput := (calls.filterMap fun c => figures decimal c.log).foldl
          (fun x r => x + float r.2) 0 } := by
  induction calls using List.reverseRecOn with
  | nil => rfl
  | append_singleton calls c ih =>
    rw [List.foldl_append, ih, List.foldl_cons, List.foldl_nil, parseAndAdd]
    cases h : figures decimal c.log with
    | none => simp [h]
    | some r => simp [h]

/-- **Nothing is missing in the report, and nothing is in it twice.** When the main thread goes on,
it reports the matched lines of all logs, sorted, and the sums run over the figures of all logs. In
which order the threads have come to them shows in nothing but the order of the summands. -/
theorem report_complete (decimal : Char → Bool) (float : String → F) (follow : Bool)
    (namedLogs : List NamedLogs) (s : PrintLogs (Matched F))
    (hr : Reach (PrintLogs.step (parseAndAdd decimal float)) (fun _ _ => True)
      (PrintLogs.init follow namedLogs Matched.init) s)
    (hreturned : s.watching = .returned) :
    s.shared.report =
      "\n".intercalate (Sorting.sortBy id (s.threads.flatMap (matchedLines decimal))) ∧
    ∃ summands : List (String × String), summands.Perm (s.threads.flatMap (results decimal)) ∧
      s.shared.throughput = summands.foldl (fun x r => x + float r.1) 0 ∧
      s.shared.goodput = summands.foldl (fun x r => x + float r.2) 0 := by
  have hlatched := PrintLogs.Latched.of_reach hr
  have hlogged := PrintLogs.Logged.of_reach hr
  have hall := PrintLogs.alive_eq_zero_iff.mp (hlatched.signalled.mp (hlatched.returned hreturned)).2
  have hperm := hlogged.calls_perm hall
  have hshared := hlogged.folded.trans (foldl_parseAndAdd s.calls)
  have hlines : ∀ t ∈ s.threads, ((t.lines.map fun line => (t.logs.label, line)).filter
      (fun x => (figures decimal x.2).isSome)).map (fun x => mark x.1 x.2) =
        matchedLines decimal t := by
    intro t _
    simp [matchedLines, List.filter_map, Function.comp_def]
  have hresults : ∀ t ∈ s.threads, (t.lines.map fun line => (t.logs.label, line)).filterMap
      (fun x => figures decimal x.2) = results decimal t := by
    intro t _
    simp [results, List.filterMap_map]
  have hmatched : s.shared.matchedLogs.Perm (s.threads.flatMap (matchedLines decimal)) := by
    have := (hperm.filter fun x => (figures decimal x.2).isSome).map fun x => mark x.1 x.2
    rw [List.filter_flatMap, List.map_flatMap, List.flatMap_congr hlines, List.filter_map,
      List.map_map] at this
    rw [hshared]
    exact this
  have hsummands : (s.calls.filterMap fun c => figures decimal c.log).Perm
      (s.threads.flatMap (results decimal)) := by
    have := hperm.filterMap fun x => figures decimal x.2
    rw [List.filterMap_map, List.filterMap_flatMap, List.flatMap_congr hresults] at this
    exact this
  refine ⟨?_, _, hsummands, ?_, ?_⟩
  · rw [Matched.report, Sorting.sortBy_id_congr hmatched]
  · rw [hshared]
  · rw [hshared]

/-- Two logs are read in turns, and the one that came second is matched first. -/
def sampleActs : List PrintLogs.Act :=
  [.start, .start, .thread 0 (.line ("> " ++ resultText "a" "12" "10" ++ "\n")),
    .thread 1 (.line (resultText "b" "7" "6" ++ "\n")), .printed, .thread 1 .call,
    .thread 0 .call, .thread 0 (.line "done\n"), .thread 0 .call, .thread 1 .finish,
    .thread 0 .finish, .wake]

/-- `float`, for numbers without decimal places. -/
def wholeNumber (s : String) : Int := s.toList.foldl (fun n c => 10 * n + (c.toNat - 48)) 0

set_option maxRecDepth 20000 in
theorem report_complete_sample :
    ∃ s, Machine.run (PrintLogs.step (parseAndAdd Char.isDigit wholeNumber))
        (PrintLogs.init true [⟨"us", "execute"⟩, ⟨"eu", "execute"⟩] Matched.init) sampleActs =
          some s ∧
      s.shared.throughput = 19 ∧ s.shared.matchedLogs.length = 2 ∧
      s.shared.report = "\n".intercalate
        (Sorting.sortBy id (s.threads.flatMap (matchedLines Char.isDigit))) := by
  have hrun : (Machine.run (PrintLogs.step (parseAndAdd Char.isDigit wholeNumber))
      (PrintLogs.init true [⟨"us", "execute"⟩, ⟨"eu", "execute"⟩] Matched.init) sampleActs).map
        (fun s => (s.watching, s.shared.throughput, s.shared.matchedLogs.length)) =
      some (.returned, 19, 2) := by
    decide +kernel
  obtain ⟨s, hs, heq⟩ := Option.map_eq_some_iff.mp hrun
  obtain ⟨hreturned, heq⟩ := Prod.mk.inj heq
  obtain ⟨hthroughput, hlength⟩ := Prod.mk.inj heq
  have hreach := reach_of_run .start (admitted_of_forall fun _ _ _ => trivial) hs
  exact ⟨s, hs, hthroughput, hlength,
    (report_complete Char.isDigit wholeNumber true _ s hreach hreturned).1⟩

end Execute

end Sunstorm
