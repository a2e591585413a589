import Sunstorm.Codec.Proofs.JoinProofs
import Sunstorm.Experiment.Proofs.ProgressProofs
import Sunstorm.Tools.Proofs.DeploymentProofs
import Sunstorm.Tools.RunBenchmark

/-!
# Proofs: running a benchmark

A setting with values per region is written as one text and read in every region. What is read is
what was written for the region.
-/

namespace Sunstorm

open Codec

variable {region key : String} {values : List (String × String)} {sets : List String}

/-! ## Reading a setting -/

theorem splitMarks_of_free {cs : List Char} (h : '!' ∉ cs) : splitMarks cs = [cs] := by
  induction cs with
  | nil => rfl
  | cons c cs ih =>
    have hcs : '!' ∉ cs := fun hmem => h (List.mem_cons_of_mem c hmem)
    cases cs with
    | nil => rfl
    | cons d cs =>
      have hd : d ≠ '!' := by
        rintro rfl
        exact hcs List.mem_cons_self
      rw [splitMarks, if_neg fun hmark => hd hmark.2, ih hcs]

/-- The text before the first mark. -/
theorem splitMarks_append {cs rest : List Char} (h : '!' ∉ cs) :
    splitMarks (cs ++ '=' :: '!' :: rest) = cs :: splitMarks rest := by
  induction cs with
  | nil =>
    rw [List.nil_append, splitMarks, if_pos ⟨rfl, rfl⟩]
  | cons c cs ih =>
    have hcs : '!' ∉ cs := fun hmem => h (List.mem_cons_of_mem c hmem)
    have hih := ih hcs
    cases cs with
    | nil =>
      rw [List.nil_append] at hih
      rw [List.cons_append, List.nil_append, splitMarks, if_neg (by simp), hih]
    | cons d cs =>
      have hd : d ≠ '!' := by
        rintro rfl
        exact hcs List.mem_cons_self
      rw [List.cons_append] at hih ⊢
      rw [List.cons_append, splitMarks, if_neg fun hmark => hd hmark.2, hih]

theorem regionValue_eq_ok {e : String × String} (h₁ : Unmarked e.1) (h₂ : Unmarked e.2) :
    regionValue region key (e.1 ++ ":" ++ e.2).toList =
      .ok (if strip e.1 = region then [key ++ "=" ++ strip e.2] else []) := by
  have hsplit : (e.1 ++ ":" ++ e.2).toList.splitOn ':' = [e.1.toList, e.2.toList] := by
    rw [String.toList_append, String.toList_append, List.append_assoc]
    show (e.1.toList ++ ':' :: e.2.toList).splitOn ':' = _
    rw [List.splitOn_append_cons_self, List.splitOn_eq_singleton h₁.1,
      List.splitOn_eq_singleton h₂.1]
    rfl
  rw [regionValue, hsplit]
  dsimp only
  rw [String.ofList_toList, String.ofList_toList]

/-- What is chosen from every element is chosen from the list. -/
theorem flatten_choose {α β : Type} (p : α → Prop) [DecidablePred p] (f : α → β) (l : List α) :
    (l.map fun a => if p a then [f a] else []).flatten = (l.filter fun a => p a).map f := by
  induction l with
  | nil => rfl
  | cons a l ih =>
    rw [List.map_cons, List.flatten_cons, ih]
    by_cases ha : p a <;> simp [ha]

/-- What a setting with values per region comes to in a region. -/
theorem helmSet_perRegionSetting (hkey : '!' ∉ key.toList) (hne : values ≠ [])
    (hvalues : ∀ e ∈ values, Unmarked e.1 ∧ Unmarked e.2) :
    helmSet region (perRegionSetting key values) =
      .ok ((valuesOf region values).map fun v => key ++ "=" ++ v) := by
  have hpiece : ∀ w ∈ values.map (fun e => e.1 ++ ":" ++ e.2), ';' ∉ w.toList ∧ '!' ∉ w.toList := by
    intro w hw
    obtain ⟨e, he, rfl⟩ := List.mem_map.mp hw
    obtain ⟨⟨-, hs₁, hm₁⟩, -, hs₂, hm₂⟩ := hvalues e he
    simp only [String.toList_append, List.mem_append, not_or]
    exact ⟨⟨⟨hs₁, by decide⟩, hs₂⟩, ⟨hm₁, by decide⟩, hm₂⟩
  have hwords : values.map (fun e => e.1 ++ ":" ++ e.2) ≠ [] := by
    rwa [ne_eq, List.map_eq_nil_iff]
  have hsplit := splitOn_join (c := ';') hwords
  rw [pieces_of_free fun w hw => (hpiece w hw).1] at hsplit
  have hfree := not_mem_join (c := ';') (d := '!') (by decide) fun w hw => (hpiece w hw).2
  have hmarks : splitMarks (perRegionSetting key values).toList =
      [key.toList, (";".intercalate (values.map fun e => e.1 ++ ":" ++ e.2)).toList] := by
    rw [perRegionSetting, String.toList_append, String.toList_append, List.append_assoc]
    show splitMarks (key.toList ++ '=' :: '!' :: _) = _
    rw [splitMarks_append hkey]
    exact congrArg _ (splitMarks_of_free hfree)
  have hsplit' : (";".intercalate (values.map fun e => e.1 ++ ":" ++ e.2)).toList.splitOn ';' =
      (values.map fun e => e.1 ++ ":" ++ e.2).map String.toList := hsplit
  have hread : ∀ e ∈ values, regionValue region key (e.1 ++ ":" ++ e.2).toList =
      .ok (if strip e.1 = region then [key ++ "=" ++ strip e.2] else []) := fun e he =>
    regionValue_eq_ok (hvalues e he).1 (hvalues e he).2
  rw [helmSet, hmarks]
  dsimp only
  rw [String.ofList_toList, hsplit', List.map_map, List.mapM_map]
  have hall := mapM_ok hread
  refine (congrArg (Except.map List.flatten) hall).trans ?_
  rw [Except.map, flatten_choose (fun e : String × String => strip e.1 = region), valuesOf,
    List.map_map]
  rfl

theorem helmSet_plain {s : String} (h : IsPlain s) : helmSet region s = .ok [s] := by
  rw [helmSet, h]

/-- What a setting comes to in a region. -/
def Setting.handed (region : String) : Setting → List String
  | plain text => [text]
  | perRegion key values => (valuesOf region values).map fun v => key ++ "=" ++ v

theorem helmSet_text {s : Setting} (h : s.WellFormed) :
    helmSet region s.text = .ok (s.handed region) := by
  cases s with
  | plain text => exact helmSet_plain h
  | perRegion key values => exact helmSet_perRegionSetting h.2.1 h.2.2.1 h.2.2.2

/-- The settings that an operation was given, and those that it has added. -/
theorem helmSets_eq_ok {settings : List Setting} {added : List String}
    (hsettings : ∀ s ∈ settings, s.WellFormed) (hadded : ∀ s ∈ added, IsPlain s) :
    helmSets region (settings.map Setting.text ++ added) =
      .ok (settings.flatMap (Setting.handed region) ++ added) := by
  have hgiven : (settings.map Setting.text).mapM (helmSet region) =
      .ok (settings.map (Setting.handed region)) := by
    rw [List.mapM_map]
    exact mapM_ok fun s hs => helmSet_text (hsettings s hs)
  have hown : added.mapM (helmSet region) = .ok (added.map fun s => [s]) :=
    mapM_ok fun s hs => helmSet_plain (hadded s hs)
  have hflatten : (added.map fun s => [s]).flatten = added := by
    rw [← List.flatMap_def]
    exact List.flatMap_singleton' added
  rw [helmSets, List.mapM_append, hgiven, hown]
  refine congrArg Except.ok ?_
  rw [List.flatten_append, hflatten, List.flatMap_def]

/-! ## The values of the keys -/

theorem ownValue_self (key value : String) : ownValue key (key ++ "=" ++ value) = some value := by
  have htext : (key ++ "=" ++ value).toList = (key.toList ++ ['=']) ++ value.toList := by
    rw [String.toList_append, String.toList_append]
    rfl
  have hlength : key.length + 1 = (key.toList ++ ['=']).length := by
    rw [List.length_append, String.length_toList]
    rfl
  rw [ownValue, htext, if_pos (List.isPrefixOf_iff_prefix.mpr (List.prefix_append _ _)), hlength,
    List.drop_left, String.ofList_toList]

theorem settingValue_none {key : String} (h : ∀ s ∈ sets, ownValue key s = none) :
    settingValue key sets = none := by
  induction sets with
  | nil => rfl
  | cons s sets ih =>
    rw [settingValue, ih fun x hx => h x (List.mem_cons_of_mem s hx), h s List.mem_cons_self]
    rfl

/-- The last of several values counts. -/
theorem settingValue_values (key : String) (vs : List String) :
    settingValue key (vs.map fun v => key ++ "=" ++ v) = vs.getLast? := by
  induction vs with
  | nil => rfl
  | cons v vs ih =>
    rw [List.map_cons, settingValue, ih, ownValue_self, List.getLast?_cons]
    cases vs.getLast? <;> rfl

/-- What is handed over of a setting gives the key its value in the region. -/
theorem settingValue_handed {s : Setting} (h : s.WellFormed) (hkey : '=' ∉ key.toList) :
    settingValue key (s.handed region) = s.valueIn region key := by
  cases s with
  | plain text => rfl
  | perRegion key' values =>
    unfold Setting.handed Setting.valueIn
    dsimp only
    split_ifs with heq
    · rw [heq]
      exact settingValue_values key _
    · refine settingValue_none fun x hx => ?_
      obtain ⟨v, -, rfl⟩ := List.mem_map.mp hx
      exact ownValue_of_ne (fun h' => heq h'.symm) hkey h.1 v

theorem settingValue_flatMap {settings : List Setting} (h : ∀ s ∈ settings, s.WellFormed)
    (hkey : '=' ∉ key.toList) :
    settingValue key (settings.flatMap (Setting.handed region)) = valueIn region key settings := by
  induction settings with
  | nil => rfl
  | cons s settings ih =>
    rw [List.flatMap_cons, settingValue_append, valueIn,
      ih fun s' hs' => h s' (List.mem_cons_of_mem s hs'),
      settingValue_handed (h s List.mem_cons_self) hkey]

/-! ## The operations -/

variable {config : MainConfig} {args : OperationArgs} {timestamp : String} {run : BenchmarkRun}

/-- Every operation puts its own settings after those that all of them have. -/
theorem exists_own (h : Benchmarked config args timestamp run) :
    ∃ own, run.sets = args.settings config.sortedNamespaces ++ own := by
  have hglobal : ∀ {own : List String}, run ∈ args.globalBenchmark config own →
      ∃ own, run.sets = args.settings config.sortedNamespaces ++ own := by
    intro own h
    unfold OperationArgs.globalBenchmark at h
    split_ifs at h
    · exact absurd h List.not_mem_nil
    · obtain rfl := List.mem_singleton.mp h
      exact ⟨_, List.append_assoc _ _ _⟩
  rcases h with h | h | h | ⟨runs, hruns, h⟩ | h
  · unfold Create.run at h
    split_ifs at h
    · exact absurd h List.not_mem_nil
    · exact hglobal h
  · unfold SLoad.run at h
    split_ifs at h
    · exact absurd h List.not_mem_nil
    · exact hglobal h
  · unfold Load.run at h
    split_ifs at h
    · exact absurd h List.not_mem_nil
    · obtain ⟨e, -, rfl⟩ := List.mem_map.mp h
      exact ⟨_, rfl⟩
  · unfold Execute.run Execute.benchmarks at hruns
    dsimp only at hruns
    split_ifs at hruns
    · rw [← Except.ok.inj hruns] at h
      exact absurd h List.not_mem_nil
    · rw [← Except.ok.inj hruns] at h
      obtain ⟨ns, -, rfl⟩ := List.mem_map.mp h
      exact ⟨_, rfl⟩
  · unfold Delete.run at h
    by_cases hlogs : args.logsOnly = true
    · rw [if_pos hlogs] at h
      exact absurd h List.not_mem_nil
    · rw [if_neg hlogs] at h
      rcases List.mem_append.mp h with h | h
      · split_ifs at h
        · exact absurd h List.not_mem_nil
        · obtain rfl := List.mem_singleton.mp h
          exact ⟨_, rfl⟩
      · obtain ⟨ns, -, hns⟩ := List.mem_flatMap.mp h
        rcases List.mem_pair.mp hns with rfl | rfl
        · exact ⟨_, rfl⟩
        · exact ⟨_, rfl⟩

/-- Every operation hands over what it was given, and then what it adds. -/
theorem sets_eq (h : Benchmarked config args timestamp run) :
    run.sets = args.set ++ run.added args := by
  obtain ⟨own, hown⟩ := exists_own h
  unfold BenchmarkRun.added
  rw [hown]
  unfold OperationArgs.settings
  simp only [List.append_assoc, List.drop_left]

/-- **Every region gets its own settings.** In every call of `run_benchmark`, every key that the
operation does not set itself has the value that the settings give it in the region of the call: the
last one that is meant for the region or for all of them, and none where there is none. What the
operation sets itself counts more. -/
theorem regions_get_their_own (config : MainConfig) (args : OperationArgs) (timestamp : String)
    (run : BenchmarkRun) (h : Benchmarked config args timestamp run) (settings : List Setting)
    (hset : args.set = settings.map Setting.text) (hsettings : ∀ s ∈ settings, s.WellFormed)
    (hadded : ∀ s ∈ run.added args, IsPlain s) (context : String) :
    ∃ sets calls, runBenchmark context run = .ok (.template run.ns sets run.dryRun :: calls) ∧
      ∀ key, '=' ∉ key.toList → settingValue key sets =
        (settingValue key (run.added args)).or (valueIn run.region key settings) := by
  have hread : helmSets run.region (settings.map Setting.text ++ run.added args) = _ :=
    helmSets_eq_ok hsettings hadded
  rw [← hset, ← sets_eq h] at hread
  refine ⟨settings.flatMap (Setting.handed run.region) ++ run.added args,
    if run.dryRun then []
    else if run.deleteOnly then [.delete run.ns context]
    else [.delete run.ns context, .apply run.ns context], ?_, fun key hkey => ?_⟩
  · rw [runBenchmark, hread]
    rfl
  · rw [settingValue_append, settingValue_flatMap hsettings hkey]

/-- Two regions load at different isolation levels, one of them with two terminals more. The value for
`loadall` comes to nothing. -/
def isolationSettings : List Setting :=
  [.plain "terminals=10",
    .perRegion "isolation" [("us-east-1", "TRANSACTION_SERIALIZABLE"),
      (" us-east-2", " TRANSACTION_REPEATABLE_READ")],
    .perRegion "terminals" [("us-east-1", "12")], .perRegion "loadall" [("us-east-2", "true")]]

def isolationArgs : OperationArgs := ⟨isolationSettings.map Setting.text, [], false, false⟩

set_option maxRecDepth 20000 in
theorem regions_get_their_own_isolation :
    ∃ run ∈ Load.run swapped isolationArgs, run.region = "us-east-2" ∧ ∃ sets calls,
      runBenchmark "kind" run = .ok (.template run.ns sets run.dryRun :: calls) ∧
      settingValue "isolation" sets = some "TRANSACTION_REPEATABLE_READ" ∧
      settingValue "terminals" sets = some "10" ∧ settingValue "loadall" sets = some "false" := by
  have hexists : ∃ run ∈ Load.run swapped isolationArgs, run.region = "us-east-2" ∧
      (∀ s ∈ run.added isolationArgs, IsPlain s) ∧
      settingValue "isolation" (run.added isolationArgs) = none ∧
      settingValue "terminals" (run.added isolationArgs) = none ∧
      settingValue "loadall" (run.added isolationArgs) = some "false" := by
    decide +kernel
  have hlast : valueIn "us-east-2" "isolation" isolationSettings =
        some "TRANSACTION_REPEATABLE_READ" ∧
      valueIn "us-east-2" "terminals" isolationSettings = some "10" := by
    decide
  obtain ⟨run, hrun, hregion, hadded, hisolation, hterminals, hloadall⟩ := hexists
  obtain ⟨sets, calls, hcalls, hvalues⟩ :=
    regions_get_their_own swapped isolationArgs "" run (Or.inr (Or.inr (Or.inl hrun)))
      isolationSettings rfl (by decide) hadded "kind"
  have hvalue₁ := hvalues "isolation" (by decide)
  have hvalue₂ := hvalues "terminals" (by decide)
  have hvalue₃ := hvalues "loadall" (by decide)
  rw [hisolation, hregion, hlast.1] at hvalue₁
  rw [hterminals, hregion, hlast.2] at hvalue₂
  rw [hloadall] at hvalue₃
  exact ⟨run, hrun, hregion, sets, calls, hcalls, hvalue₁, hvalue₂, hvalue₃⟩

end Sunstorm
