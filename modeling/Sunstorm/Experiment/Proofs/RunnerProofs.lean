import Sunstorm.Experiment.Proofs.FaithfulProofs
import Sunstorm.Experiment.Proofs.TagProofs
import Sunstorm.Experiment.Runner
import Sunstorm.Machine.Proofs.MachineProofs

/-!
# Proofs: sessions of the experiment runner

The sessions of one experiment share its parameters. The records are then faithful to what was
executed, in every session and in the file.
-/

namespace Sunstorm

/-! ## The cases of an experiment -/

/-- The keys of the metadata of an experiment with the parameters `params`. -/
def caseKeys (params : List String) : List String :=
  ["prefix", "benchmark", "scalefactor", "time", "rate", "isolation"] ++ params

namespace Experiment

variable {exp : Experiment} {tagPrefix tagSuffix : Option String}

theorem fst_presentValues {c : Combination} {l : List (String × NamedParameterValue)}
    {values : List (String × ParameterValue)} (h : presentValues c l = .ok values) :
    values.map Prod.fst = l.map Prod.fst := by
  induction l generalizing values with
  | nil =>
    obtain rfl := Except.ok.inj h
    rfl
  | cons e l ih =>
    obtain ⟨param, namedValue⟩ := e
    unfold presentValues at h
    cases hv : namedValue.value with
    | none =>
      rw [hv] at h
      exact absurd h (by simp)
    | some value =>
      rw [hv] at h
      obtain ⟨rest, hrest, hok⟩ := bind_eq_ok.mp h
      obtain rfl := Except.ok.inj hok
      rw [List.map_cons, List.map_cons, ih hrest]

/-- All cases of an experiment have the same keys. -/
theorem keys_metadata {x : BenchmarkItem} (h : x ∈ (exp.benchmarkArgs tagPrefix tagSuffix).1)
    (k : String) : k ∈ x.metadata.keys ↔ k ∈ caseKeys exp.keyFlags.keys := by
  obtain ⟨c, hc, hitem⟩ := mem_benchmarkArgs h
  obtain ⟨d, hd, hrest⟩ := bind_eq_ok.mp hitem
  obtain ⟨values, hvalues, hok⟩ := bind_eq_ok.mp hrest
  have hfst : values.map Prod.fst = exp.keyFlags.keys :=
    (fst_presentValues hvalues).trans ((keys_replaceValues hd).trans (chosen_of_mem hc).keys)
  have hbase : (exp.baseMetadata tagPrefix).keys =
      ["prefix", "benchmark", "scalefactor", "time", "rate", "isolation"] := rfl
  rw [← Except.ok.inj hok, Dict.mem_keys_setAll, hfst, hbase]
  exact List.mem_append.symm

end Experiment

/-- Everything in the case can be stored. -/
def BenchmarkItem.Storable (x : BenchmarkItem) : Prop :=
  (∀ e ∈ x.metadata.entries, Sunstorm.Storable e.1 ∧ Sunstorm.Storable e.2.toText) ∧
    Sunstorm.Storable x.tag

instance (x : BenchmarkItem) : Decidable x.Storable :=
  inferInstanceAs (Decidable ((∀ e ∈ x.metadata.entries,
    Sunstorm.Storable e.1 ∧ Sunstorm.Storable e.2.toText) ∧ Sunstorm.Storable x.tag))

namespace Runner

/-- The sessions are about an experiment with the parameters `params`, and what they put into
records can be stored. -/
def Act.Ordinary (params : List String) : Act → Prop
  | .launch exp _ args timestamp =>
    ((∀ k ∈ exp.keyFlags.keys, k ∈ params) ∧ ∀ k ∈ params, k ∈ exp.keyFlags.keys) ∧
      ∀ x ∈ (exp.benchmarkArgs args.tagPrefix (some timestamp)).1, x.Storable
  | .returned result => Storable result.throughput.text ∧ Storable result.goodput.text
  | _ => True

instance (params : List String) : (a : Act) → Decidable (a.Ordinary params)
  | .launch exp _ args timestamp => inferInstanceAs (Decidable
      (((∀ k ∈ exp.keyFlags.keys, k ∈ params) ∧ ∀ k ∈ params, k ∈ exp.keyFlags.keys) ∧
        ∀ x ∈ (exp.benchmarkArgs args.tagPrefix (some timestamp)).1, x.Storable))
  | .returned result =>
    inferInstanceAs (Decidable (Storable result.throughput.text ∧ Storable result.goodput.text))
  | .next => isTrue trivial
  | .confirm _ => isTrue trivial
  | .raised => isTrue trivial
  | .saved => isTrue trivial
  | .kill => isTrue trivial

end Runner

/-- What the cases of a session are like. -/
structure BenchmarkItem.Sound (K : String → Prop) (x : BenchmarkItem) : Prop where
  texts : CaseTexts K (metadataTexts x.metadata)
  tag : Sunstorm.Storable x.tag

theorem get?_metadataTexts {metadata : Dict String ParameterValue} {k v : String}
    (h : (metadataTexts metadata).get? k = some v) :
    ∃ w, metadata.get? k = some w ∧ v = w.toText := Dict.get?_map h

theorem BenchmarkItem.sound_of_mem {params : List String} {exp : Experiment}
    {tagPrefix tagSuffix : Option String} {x : BenchmarkItem}
    (hparams : (∀ k ∈ exp.keyFlags.keys, k ∈ params) ∧ ∀ k ∈ params, k ∈ exp.keyFlags.keys)
    (hx : x ∈ (exp.benchmarkArgs tagPrefix tagSuffix).1) (h : x.Storable) :
    x.Sound (· ∈ caseKeys params) := by
  refine ⟨⟨fun k => ?_, fun k v hv => ?_⟩, h.2⟩
  · unfold metadataTexts caseKeys
    rw [Dict.keys_map, Experiment.keys_metadata hx, caseKeys, List.mem_append, List.mem_append]
    exact or_congr_right ⟨hparams.1 k, hparams.2 k⟩
  · obtain ⟨w, hw, rfl⟩ := get?_metadataTexts hv
    exact h.1 (k, w) (Dict.get?_eq_some.mp hw)

/-! ## Updates -/

namespace Record

variable {K : String → Prop} {r : Record} {fields : List (String × ParameterValue)}

/-- The record with the fields set. -/
def updated (r : Record) (fields : List (String × ParameterValue)) : Record :=
  r.setAll (fields.map fun e => (e.1, some e.2))

theorem fst_fields : (fields.map fun e => (e.1, some e.2)).map Prod.fst = fields.map Prod.fst := by
  rw [List.map_map]
  rfl

theorem get?_updated {k : String} {v : ParameterValue} (hfields : (fields.map Prod.fst).Nodup)
    (h : (k, v) ∈ fields) : (r.updated fields).get? k = some (some v) :=
  Dict.get?_setAll_of_mem (by rw [fst_fields]; exact hfields) (List.mem_map.mpr ⟨(k, v), h, rfl⟩)

theorem get?_updated_of_not_mem {k : String} (h : k ∉ fields.map Prod.fst) :
    (r.updated fields).get? k = r.get? k :=
  Dict.get?_setAll_of_not_mem (by rw [fst_fields]; exact h)

/-- Setting reserved fields to values that can be stored. -/
theorem sound_updated (h : r.Sound K) (hfields : (fields.map Prod.fst).Nodup)
    (hK : ∀ k, K k → k ∉ fields.map Prod.fst)
    (hstorable : ∀ e ∈ fields, Sunstorm.Storable e.1 ∧ Sunstorm.Storable e.2.toText)
    (hstatus : ∀ v, ("status", v) ∈ fields → ∃ text ∈ Progress.statuses, v = .str text) :
    (r.updated fields).Sound K := by
  refine ⟨⟨fun k hk => ?_, fun k v hv => ?_⟩, fun k hk => ?_, ?_⟩
  · rcases Dict.mem_keys_setAll.mp hk with hk | hk
    · exact h.storable.keys k hk
    · rw [fst_fields] at hk
      obtain ⟨e, he, rfl⟩ := List.mem_map.mp hk
      exact (hstorable e he).1
  · by_cases hk : k ∈ fields.map Prod.fst
    · obtain ⟨e, he, rfl⟩ := List.mem_map.mp hk
      rw [get?_updated hfields he] at hv
      obtain rfl := Option.some.inj (Option.some.inj hv)
      exact (hstorable e he).2
    · rw [get?_updated_of_not_mem hk] at hv
      exact h.storable.values k v hv
  · rw [get?_updated_of_not_mem (hK k hk)]
    exact h.fields k hk
  · by_cases hk : "status" ∈ fields.map Prod.fst
    · obtain ⟨e, he, hname⟩ := List.mem_map.mp hk
      obtain ⟨name, v⟩ := e
      dsimp only at hname
      subst hname
      obtain ⟨text, htext, rfl⟩ := hstatus v he
      exact ⟨text, get?_updated hfields he, htext⟩
    · rw [get?_updated_of_not_mem hk]
      exact h.status

/-- The case was tried and is not pending any more. -/
def Settled (r : Record) : Prop := r.Done ∨ r.get? "status" = some (some (.str "error"))

end Record

theorem progress_update {self : Progress} {i : Nat} {r : Record} (h : self.progress[i]? = some r)
    (fields : List (String × ParameterValue)) :
    (self.update i fields).progress = self.progress.set i (r.updated fields) := by
  have : Inhabited Record := ⟨r⟩
  have hset := List.modify_eq_set (fun record : Record =>
    record.setAll (fields.map fun e => (e.1, some e.2))) i self.progress
  rw [h] at hset
  exact hset

/-! ## Sessions -/

variable {K : String → Prop} {p p' : Progress} {i : Nat} {x : BenchmarkItem}

namespace Progress

/-- The case has the record at the position `i`, which does not say that it is done. -/
def Open (p : Progress) (i : Nat) (x : BenchmarkItem) : Prop :=
  ∃ r, p.progress[i]? = some r ∧ r.covers (metadataTexts x.metadata) = true ∧ ¬r.Done

/-- Some record says that the case was tried. -/
def Tried (p : Progress) (x : BenchmarkItem) : Prop :=
  ∃ r ∈ p.progress, r.covers (metadataTexts x.metadata) = true ∧ r.Settled

/-- The file holds the records. -/
def Saved (p : Progress) : Prop := p.progress ≠ [] → p.file = some (saveRecords p.progress)

/-- Replacing a record by one about the same case that is settled or has the state it had. -/
theorem Tried.set {r r' : Record} (hi : p.progress[i]? = some r)
    (hp : p'.progress = p.progress.set i r') (hagree : ∀ k, K k → r'.get? k = r.get? k)
    (hsettled : r.Settled → r'.Settled) (hx : CaseTexts K (metadataTexts x.metadata))
    (h : p.Tried x) : p'.Tried x := by
  obtain ⟨q, hq, hcovers, hset⟩ := h
  obtain ⟨j, hj⟩ := List.mem_iff_getElem?.mp hq
  have hlength := (List.getElem?_eq_some_iff.mp hi).1
  by_cases hji : j = i
  · subst hji
    rw [hi] at hj
    obtain rfl := Option.some.inj hj
    refine ⟨r', ?_, (Record.covers_congr hx hagree).trans hcovers, hsettled hset⟩
    rw [hp]
    exact List.mem_of_getElem? (List.getElem?_set_self hlength)
  · refine ⟨q, ?_, hcovers, hset⟩
    rw [hp]
    exact List.mem_of_getElem? (i := j) (by rw [List.getElem?_set_ne (Ne.symm hji)]; exact hj)

theorem saved_save (p : Progress) : p.save.Saved := by
  unfold save Saved
  by_cases hp : p.progress = []
  · rw [if_pos hp]
    exact fun hne => absurd hp hne
  · rw [if_neg hp]
    exact fun _ => rfl

theorem progress_save (p : Progress) : p.save.progress = p.progress := by
  unfold save
  by_cases hp : p.progress = []
  · rw [if_pos hp]
  · rw [if_neg hp]

end Progress

/-- How far a session has come: the cases before the present one were tried. -/
def RunStage.Sound (p : Progress) (items rest : List BenchmarkItem) : RunStage → Prop
  | .head => p.Saved ∧ ∃ gone, items = gone ++ rest ∧ ∀ x ∈ gone, p.Tried x
  | .asking i x => p.Open i x ∧ ∃ gone, items = gone ++ x :: rest ∧ ∀ y ∈ gone, p.Tried y
  | .calling _ i x => p.Open i x ∧ ∃ gone, items = gone ++ x :: rest ∧ ∀ y ∈ gone, p.Tried y
  | .saving _ _ => p.progress ≠ [] ∧ ∃ gone, items = gone ++ rest ∧ ∀ x ∈ gone, p.Tried x
  | .ended (.ok ()) => p.Saved ∧ ∀ x ∈ items, p.Tried x
  | _ => True

/-- A session knows what was executed. -/
structure RunSession.Sound (K : String → Prop) (p : Progress) (s : RunSession) : Prop where
  faithful : Faithful K p.progress s.succeeded
  items : ∀ x ∈ s.items, x.Sound K
  stage : s.stage.Sound p s.items s.rest

namespace RunSession

variable {s : RunSession}

theorem begin_cases (s : RunSession) (i : Nat) (x : BenchmarkItem) :
    ∃ op, s.begin i x = s.call op i x := by
  unfold begin
  by_cases h : s.args.skipCreateLoad = false ∧ s.reloadCounter = 0
  · exact ⟨.create, if_pos h⟩
  · exact ⟨.execute, if_neg h⟩

theorem Sound.call (h : Faithful K p.progress s.succeeded) (hitems : ∀ x ∈ s.items, x.Sound K)
    (hopen : p.Open i x)
    (hgone : ∃ gone, s.items = gone ++ x :: s.rest ∧ ∀ y ∈ gone, p.Tried y)
    (op : BenchmarkOperation) : (s.call op i x).Sound K p := ⟨h, hitems, hopen, hgone⟩

theorem Sound.begin (h : Faithful K p.progress s.succeeded) (hitems : ∀ x ∈ s.items, x.Sound K)
    (hopen : p.Open i x)
    (hgone : ∃ gone, s.items = gone ++ x :: s.rest ∧ ∀ y ∈ gone, p.Tried y) :
    (s.begin i x).Sound K p := by
  obtain ⟨op, hop⟩ := s.begin_cases i x
  rw [hop]
  exact Sound.call h hitems hopen hgone op

/-- What the loop does when it has found the record of a case. -/
theorem look_cases {r : Record} (h : r.Sound K) (s : RunSession) (i : Nat) (x : BenchmarkItem) :
    Runner.look s i x (r.get? "status") =
      if r.Done then { s with stage := .head }
      else if s.args.interactive then { s with stage := .asking i x }
      else s.begin i x := by
  obtain ⟨text, hstatus, htext⟩ := h.status
  have hmem : some (ParameterValue.str text) ∈ Progress.statuses.map (fun t => some (.str t)) :=
    List.mem_map.mpr ⟨text, htext, rfl⟩
  have hdone : r.Done ↔ some (ParameterValue.str text) = some (.str "done") := by
    unfold Record.Done
    rw [hstatus, Option.some.injEq]
  unfold Runner.look
  rw [hstatus]
  dsimp only
  rw [if_neg (not_not_intro hmem)]
  by_cases hd : some (ParameterValue.str text) = some (.str "done")
  · rw [if_pos hd, if_pos (hdone.mpr hd)]
  · rw [if_neg hd, if_neg fun h => hd (hdone.mp h)]

end RunSession

theorem getOrInsert_cases (p : Progress) (x : BenchmarkItem) :
    (∃ i r, p.getOrInsert x.metadata = (p, i) ∧ p.progress[i]? = some r ∧
        r.covers (metadataTexts x.metadata) = true) ∨
      (∀ r ∈ p.progress, r.covers (metadataTexts x.metadata) = false) ∧
        p.getOrInsert x.metadata =
          ({ file := some (saveRecords (p.progress ++ [.pending (metadataTexts x.metadata)]))
             progress := p.progress ++ [.pending (metadataTexts x.metadata)] },
            p.progress.length) := by
  unfold Progress.getOrInsert
  dsimp only
  cases hfind : p.progress.findIdx? fun record => record.covers (metadataTexts x.metadata) with
  | some i =>
    obtain ⟨hi, hcovers, -⟩ := List.findIdx?_eq_some_iff_getElem.mp hfind
    exact Or.inl ⟨i, p.progress[i], rfl, List.getElem?_eq_getElem hi, hcovers⟩
  | none =>
    refine Or.inr ⟨List.findIdx?_eq_none_iff.mp hfind, ?_⟩
    unfold Progress.save
    dsimp only
    rw [if_neg (by simp)]

namespace Runner

variable {s s' : Runner} {t : RunSession}

/-! ## Steps -/

/-- What a step does. -/
inductive Moved (s s' : Runner) : Act → Prop where
  | launch (exp : Experiment) (reloadEvery : Option Int) (args : RunArgs) (timestamp : String)
    (hnone : s.session = none) (h : s' = s.launch exp reloadEvery args timestamp) :
    Moved s s' (.launch exp reloadEvery args timestamp)
  | next (t : RunSession) (ht : s.session = some t) (hstage : t.stage = .head) (h : s' = s.next t) :
    Moved s s' .next
  | confirmed (t : RunSession) (i : Nat) (x : BenchmarkItem) (ht : s.session = some t)
    (hstage : t.stage = .asking i x) (h : s' = { s with session := some (t.begin i x) }) :
    Moved s s' (.confirm true)
  | declined (t : RunSession) (i : Nat) (x : BenchmarkItem) (ht : s.session = some t)
    (hstage : t.stage = .asking i x)
    (h : s' = { s with session := some { t with stage := .declined } }) :
    Moved s s' (.confirm false)
  | created (t : RunSession) (result : BenchmarkResult) (i : Nat) (x : BenchmarkItem)
    (ht : s.session = some t) (hstage : t.stage = .calling .create i x)
    (h : s' = { s with session := some (t.call .load i x) }) : Moved s s' (.returned result)
  | loaded (t : RunSession) (result : BenchmarkResult) (i : Nat) (x : BenchmarkItem)
    (ht : s.session = some t) (hstage : t.stage = .calling .load i x)
    (h : s' = { s with
      progress := s.progress.update i [("reloaded", .bool true)]
      session := some (t.reloaded i x) }) : Moved s s' (.returned result)
  | executed (t : RunSession) (result : BenchmarkResult) (i : Nat) (x : BenchmarkItem)
    (ht : s.session = some t) (hstage : t.stage = .calling .execute i x)
    (h : s' = { s with
      progress := s.progress.update i
        [("throughput", .float result.throughput), ("goodput", .float result.goodput),
          ("tag", .str x.tag), ("status", .str "done")]
      session := some (t.succeed i x result) }) : Moved s s' (.returned result)
  | failed (t : RunSession) (i : Nat) (x : BenchmarkItem) (ht : s.session = some t)
    (hstage : t.stage = .asking i x ∨ ∃ op, t.stage = .calling op i x)
    (h : s' = { s with
      progress := s.progress.update i [("status", .str "error")]
      session := some (t.fail i x) }) : Moved s s' .raised
  | saved (t : RunSession) (i : Nat) (x : BenchmarkItem) (ht : s.session = some t)
    (hstage : t.stage = .saving i x)
    (h : s' = { progress := s.progress.save, recorded := t.succeeded
                session := some { t with stage := .head } }) : Moved s s' .saved
  | killed (h : s' = { s with session := none }) : Moved s s' .kill

/-- A session makes its steps where it is. -/
theorem session_of_step {a : Act} (hs : s.step a = some s')
    (ha : ∀ exp reloadEvery args timestamp, a ≠ .launch exp reloadEvery args timestamp)
    (hkill : a ≠ .kill) : ∃ t, s.session = some t := by
  cases hsession : s.session with
  | some t => exact ⟨t, rfl⟩
  | none =>
    cases a with
    | launch exp reloadEvery args timestamp => exact absurd rfl (ha _ _ _ _)
    | kill => exact absurd rfl hkill
    | _ => simp [step, hsession] at hs

theorem moved_of_step {a : Act} (hs : s.step a = some s') : Moved s s' a := by
  cases a with
  | launch exp reloadEvery args timestamp =>
    cases hsession : s.session with
    | some t => simp [step, hsession] at hs
    | none =>
      simp only [step, hsession] at hs
      exact .launch exp reloadEvery args timestamp hsession (Option.some.inj hs).symm
  | kill => exact .killed (Option.some.inj hs).symm
  | next =>
    obtain ⟨t, ht⟩ := session_of_step hs (by simp) (by simp)
    cases hstage : t.stage with
    | head =>
      simp only [step, ht, hstage] at hs
      exact .next t ht hstage (Option.some.inj hs).symm
    | _ => simp [step, ht, hstage] at hs
  | confirm yes =>
    obtain ⟨t, ht⟩ := session_of_step hs (by simp) (by simp)
    cases hstage : t.stage with
    | asking i x =>
      simp only [step, ht, hstage] at hs
      cases yes with
      | true => exact .confirmed t i x ht hstage (Option.some.inj hs).symm
      | false => exact .declined t i x ht hstage (Option.some.inj hs).symm
    | _ => simp [step, ht, hstage] at hs
  | returned result =>
    obtain ⟨t, ht⟩ := session_of_step hs (by simp) (by simp)
    cases hstage : t.stage with
    | calling op i x =>
      cases op with
      | create =>
        simp only [step, ht, hstage] at hs
        exact .created t result i x ht hstage (Option.some.inj hs).symm
      | load =>
        simp only [step, ht, hstage] at hs
        exact .loaded t result i x ht hstage (Option.some.inj hs).symm
      | execute =>
        simp only [step, ht, hstage] at hs
        exact .executed t result i x ht hstage (Option.some.inj hs).symm
    | _ => simp [step, ht, hstage] at hs
  | raised =>
    obtain ⟨t, ht⟩ := session_of_step hs (by simp) (by simp)
    cases hstage : t.stage with
    | asking i x =>
      simp only [step, ht, hstage] at hs
      exact .failed t i x ht (Or.inl hstage) (Option.some.inj hs).symm
    | calling op i x =>
      simp only [step, ht, hstage] at hs
      exact .failed t i x ht (Or.inr ⟨op, hstage⟩) (Option.some.inj hs).symm
    | _ => simp [step, ht, hstage] at hs
  | saved =>
    obtain ⟨t, ht⟩ := session_of_step hs (by simp) (by simp)
    cases hstage : t.stage with
    | saving i x =>
      simp only [step, ht, hstage] at hs
      exact .saved t i x ht hstage (Option.some.inj hs).symm
    | _ => simp [step, ht, hstage] at hs

/-! ## Soundness -/

/-- The file tells the cases `L` that were executed with success. -/
def FileSound (K : String → Prop) (file : Option (List Char)) (L : List (Dict String String)) :
    Prop :=
  file = none ∧ L = [] ∨ ∃ P, P ≠ [] ∧ file = some (saveRecords P) ∧ Faithful K P L

structure Sound (K : String → Prop) (s : Runner) : Prop where
  file : FileSound K s.progress.file s.recorded
  session : ∀ t, s.session = some t → t.Sound K s.progress

theorem sound_init : init.Sound K := ⟨Or.inl ⟨rfl, rfl⟩, fun _ h => absurd h (by simp [init])⟩

/-- What is loaded from a file that was saved. -/
theorem load_of_saved {P : List Record} {L : List (Dict String String)} (hne : P ≠ [])
    (h : Faithful K P L) : loadRecords (saveRecords P) = .ok (stored P) := by
  refine loadRecords_saveRecords (fun r hr => (h.sound r hr).storable) ?_
  obtain ⟨r, P', rfl⟩ := List.exists_cons_of_ne_nil hne
  obtain ⟨v, hv, -⟩ := (h.sound r List.mem_cons_self).status
  exact ⟨r, List.mem_cons_self, List.ne_nil_of_mem (Dict.mem_keys.mpr ⟨_, hv⟩)⟩

theorem Sound.launch {params : List String} (h : s.Sound (· ∈ caseKeys params)) {exp : Experiment}
    {reloadEvery : Option Int} {args : RunArgs} {timestamp : String}
    (ha : (Act.launch exp reloadEvery args timestamp).Ordinary params) :
    (s.launch exp reloadEvery args timestamp).Sound (· ∈ caseKeys params) := by
  have hitems : ∀ x ∈ (exp.benchmarkArgs args.tagPrefix (some timestamp)).1,
      x.Sound (· ∈ caseKeys params) := fun x hx =>
    BenchmarkItem.sound_of_mem ha.1 hx (ha.2 x hx)
  have hempty : ∀ file, Progress.Saved { file, progress := [] } := fun _ hne => absurd rfl hne
  have hstart : ∀ q : Progress, q.Saved →
      RunStage.Sound q (exp.benchmarkArgs args.tagPrefix (some timestamp)).1
        (exp.benchmarkArgs args.tagPrefix (some timestamp)).1 .head := fun q hq =>
    ⟨hq, [], rfl, fun _ hy => absurd hy List.not_mem_nil⟩
  unfold Runner.launch
  dsimp only
  by_cases hnew : args.new = true
  · rw [if_pos hnew]
    refine ⟨h.file, fun t ht => ?_⟩
    rw [← Option.some.inj ht]
    exact ⟨.nil, hitems, hstart _ (hempty _)⟩
  · rw [if_neg hnew]
    rcases h.file with ⟨hfile, hrecorded⟩ | ⟨P, hne, hfile, hfaithful⟩
    · have hload : Progress.load { file := s.progress.file, progress := [] } =
          .ok { file := none, progress := [] } := by
        unfold Progress.load
        rw [hfile]
      rw [hload]
      refine ⟨Or.inl ⟨rfl, hrecorded⟩, fun t ht => ?_⟩
      rw [← Option.some.inj ht]
      refine ⟨?_, hitems, hstart _ (hempty _)⟩
      dsimp only
      rw [hrecorded]
      exact .nil
    · have hload : Progress.load { file := s.progress.file, progress := [] } =
          .ok { file := some (saveRecords P), progress := stored P } := by
        unfold Progress.load
        rw [hfile]
        dsimp only
        rw [load_of_saved hne hfaithful]
        rfl
      rw [hload]
      refine ⟨Or.inr ⟨P, hne, rfl, hfaithful⟩, fun t ht => ?_⟩
      rw [← Option.some.inj ht]
      refine ⟨hfaithful.stored, hitems, hstart _ fun _ => ?_⟩
      exact congrArg some (saveRecords_stored hne).symm

/-- The head of the loop, when the record of the next case was found or added. -/
theorem sound_look {q : Progress} {r : Record} {rest : List BenchmarkItem}
    (hfaithful : Faithful K q.progress t.succeeded) (hitems : ∀ x ∈ t.items, x.Sound K)
    (hi : q.progress[i]? = some r) (hcovers : r.covers (metadataTexts x.metadata) = true)
    (hsaved : q.Saved) {gone : List BenchmarkItem} (heq : t.items = gone ++ x :: rest)
    (hgone : ∀ y ∈ gone, q.Tried y) :
    (look { t with rest } i x (r.get? "status")).Sound K q := by
  have hr := List.mem_of_getElem? hi
  rw [RunSession.look_cases (hfaithful.sound r hr)]
  by_cases hdone : r.Done
  · rw [if_pos hdone]
    refine ⟨hfaithful, hitems, hsaved, gone ++ [x], by rw [heq]; simp, fun y hy => ?_⟩
    rcases List.mem_append.mp hy with hy | hy
    · exact hgone y hy
    · rw [List.mem_singleton.mp hy]
      exact ⟨r, hr, hcovers, Or.inl hdone⟩
  · rw [if_neg hdone]
    by_cases hask : t.args.interactive = true
    · rw [if_pos hask]
      exact ⟨hfaithful, hitems, ⟨r, hi, hcovers, hdone⟩, gone, heq, hgone⟩
    · rw [if_neg hask]
      exact RunSession.Sound.begin hfaithful hitems ⟨r, hi, hcovers, hdone⟩ ⟨gone, heq, hgone⟩

theorem Sound.next (h : s.Sound K) (hK : ¬K "status") (ht : s.session = some t)
    (hstage : t.stage = .head) : (s.next t).Sound K := by
  obtain ⟨hfaithful, hitems, hhead⟩ := h.session t ht
  rw [hstage] at hhead
  obtain ⟨hsaved, gone, heq, hgone⟩ := hhead
  unfold Runner.next
  cases hrest : t.rest with
  | nil =>
    refine ⟨h.file, fun u hu => ?_⟩
    rw [← Option.some.inj hu]
    refine ⟨hfaithful, hitems, ?_⟩
    dsimp only
    cases t.ending with
    | some e => trivial
    | none =>
      refine ⟨hsaved, fun x hx => hgone x ?_⟩
      rw [heq, hrest, List.append_nil] at hx
      exact hx
  | cons x rest =>
    rw [hrest] at heq
    have hx : x.Sound K := hitems x (by rw [heq]; simp)
    dsimp only
    rcases getOrInsert_cases s.progress x with ⟨i, r, hfound, hi, hcovers⟩ | ⟨hnew, hadded⟩
    · have hlength := (List.getElem?_eq_some_iff.mp hi).1
      rw [hfound]
      dsimp only
      rw [if_pos hlength, hi]
      refine ⟨h.file, fun u hu => ?_⟩
      rw [← Option.some.inj hu]
      exact sound_look hfaithful hitems hi hcovers hsaved heq hgone
    · have hpushed := hfaithful.push hx.texts hK hnew
      have hi : (s.progress.progress ++ [Record.pending (metadataTexts x.metadata)])[
          s.progress.progress.length]? = some (.pending (metadataTexts x.metadata)) := by simp
      rw [hadded]
      dsimp only
      rw [if_neg (Nat.lt_irrefl _), hi]
      refine ⟨Or.inr ⟨_, by simp, rfl, hpushed⟩, fun u hu => ?_⟩
      rw [← Option.some.inj hu]
      refine sound_look hpushed hitems hi (Record.covers_pending _) (fun _ => rfl) heq
        fun y hy => ?_
      obtain ⟨r, hr, hcovers, hsettled⟩ := hgone y hy
      exact ⟨r, List.mem_append_left _ hr, hcovers, hsettled⟩

/-- The keys that the runner sets are not those of a case. -/
def Unreserved (K : String → Prop) : Prop := ∀ k ∈ reservedKeys, ¬K k

theorem Unreserved.not_mem (hK : Unreserved K) (fields : List (String × ParameterValue))
    (hfields : ∀ e ∈ fields, e.1 ∈ reservedKeys) : ∀ k, K k → k ∉ fields.map Prod.fst := by
  intro k hk hmem
  obtain ⟨e, he, rfl⟩ := List.mem_map.mp hmem
  exact hK e.1 (hfields e he) hk

/-- The database was loaded. -/
theorem Sound.reloaded (h : t.Sound K p) (hK : Unreserved K) {op : BenchmarkOperation}
    (hstage : t.stage = .calling op i x) :
    (t.reloaded i x).Sound K (p.update i [("reloaded", .bool true)]) := by
  obtain ⟨hfaithful, hitems, hcalling⟩ := h
  rw [hstage] at hcalling
  obtain ⟨⟨r, hi, hcovers, hnot⟩, gone, heq, hgone⟩ := hcalling
  have hprogress := progress_update hi [("reloaded", .bool true)]
  have hkeys := hK.not_mem [("reloaded", .bool true)] (by decide)
  have hagree : ∀ k, K k → (r.updated [("reloaded", .bool true)]).get? k = r.get? k := fun k hk =>
    Record.get?_updated_of_not_mem (hkeys k hk)
  have hstatus : (r.updated [("reloaded", .bool true)]).get? "status" = r.get? "status" :=
    Record.get?_updated_of_not_mem (by decide)
  have hsound : (r.updated [("reloaded", .bool true)]).Sound K :=
    Record.sound_updated (hfaithful.sound r (List.mem_of_getElem? hi)) (by decide) hkeys (by decide)
      fun v hv => absurd hv (by simp)
  have hdone : (r.updated [("reloaded", .bool true)]).Done ↔ r.Done := by
    unfold Record.Done
    rw [hstatus]
  have hx : x.Sound K := hitems x (by rw [heq]; simp)
  have hlength := (List.getElem?_eq_some_iff.mp hi).1
  refine ⟨?_, hitems, ⟨r.updated [("reloaded", .bool true)], ?_, ?_, fun hd => hnot (hdone.mp hd)⟩,
    gone, heq, fun y hy => ?_⟩
  · rw [hprogress]
    exact hfaithful.set hi hagree hsound hdone
  · rw [hprogress]
    exact List.getElem?_set_self hlength
  · exact (Record.covers_congr hx.texts hagree).trans hcovers
  · have hy' : y.Sound K := hitems y (by rw [heq]; simp [hy])
    refine (hgone y hy).set hi hprogress hagree (fun hs => ?_) hy'.texts
    unfold Record.Settled
    rw [hdone, hstatus]
    exact hs

/-- The case of the record was tried. -/
theorem sound_tried (hitems : ∀ x ∈ t.items, x.Sound K) (hp : p.progress[i]? = some r)
    {r' : Record} (hprogress : p'.progress = p.progress.set i r')
    (hcovers : r.covers (metadataTexts x.metadata) = true)
    (hagree : ∀ k, K k → r'.get? k = r.get? k) (hsettled : r'.Settled) {gone : List BenchmarkItem}
    (heq : t.items = gone ++ x :: t.rest) (hgone : ∀ y ∈ gone, p.Tried y) :
    RunStage.Sound p' t.items t.rest (.saving i x) := by
  have hx : x.Sound K := hitems x (by rw [heq]; simp)
  have hmem : r' ∈ p'.progress := by
    rw [hprogress]
    exact List.mem_of_getElem? (List.getElem?_set_self (List.getElem?_eq_some_iff.mp hp).1)
  refine ⟨List.ne_nil_of_mem hmem, gone ++ [x], by rw [heq]; simp, fun y hy => ?_⟩
  rcases List.mem_append.mp hy with hy | hy
  · exact (hgone y hy).set hp hprogress hagree (fun _ => hsettled)
      (hitems y (by rw [heq]; simp [hy])).texts
  · rw [List.mem_singleton.mp hy]
    exact ⟨r', hmem, (Record.covers_congr hx.texts hagree).trans hcovers, hsettled⟩

/-- The execution was successful. -/
theorem Sound.succeed (h : t.Sound K p) (hK : Unreserved K) {op : BenchmarkOperation}
    (hstage : t.stage = .calling op i x) {result : BenchmarkResult}
    (hresult : Storable result.throughput.text ∧ Storable result.goodput.text) :
    (t.succeed i x result).Sound K (p.update i
      [("throughput", .float result.throughput), ("goodput", .float result.goodput),
        ("tag", .str x.tag), ("status", .str "done")]) := by
  obtain ⟨hfaithful, hitems, hcalling⟩ := h
  rw [hstage] at hcalling
  obtain ⟨⟨r, hi, hcovers, hnot⟩, gone, heq, hgone⟩ := hcalling
  have hx : x.Sound K := hitems x (by rw [heq]; simp)
  have hprogress := progress_update hi
    [("throughput", .float result.throughput), ("goodput", .float result.goodput),
      ("tag", .str x.tag), ("status", .str "done")]
  generalize hf : [("throughput", ParameterValue.float result.throughput),
    ("goodput", .float result.goodput), ("tag", .str x.tag), ("status", .str "done")] = fields
    at hprogress ⊢
  have hnames : fields.map Prod.fst = ["throughput", "goodput", "tag", "status"] := by
    rw [← hf]
    rfl
  have hnodup : (fields.map Prod.fst).Nodup := by rw [hnames]; decide
  have hkeys : ∀ k, K k → k ∉ fields.map Prod.fst := by
    intro k hk hmem
    rw [hnames] at hmem
    have hreserved : ∀ k ∈ ["throughput", "goodput", "tag", "status"], k ∈ reservedKeys := by decide
    exact hK k (hreserved k hmem) hk
  have hstatus : ("status", ParameterValue.str "done") ∈ fields := by rw [← hf]; simp
  have hagree : ∀ k, K k → (r.updated fields).get? k = r.get? k := fun k hk =>
    Record.get?_updated_of_not_mem (hkeys k hk)
  have hstorable : ∀ e ∈ fields, Storable e.1 ∧ Storable e.2.toText := by
    intro e he
    rw [← hf] at he
    simp only [List.mem_cons, List.not_mem_nil, or_false] at he
    rcases he with rfl | rfl | rfl | rfl
    · exact ⟨(by decide : Storable "throughput"), hresult.1⟩
    · exact ⟨(by decide : Storable "goodput"), hresult.2⟩
    · exact ⟨(by decide : Storable "tag"), hx.tag⟩
    · exact ⟨by decide, by decide⟩
  have hsound : (r.updated fields).Sound K := by
    refine Record.sound_updated (hfaithful.sound r (List.mem_of_getElem? hi)) hnodup hkeys hstorable
      fun v hv => ⟨"done", by decide, ?_⟩
    rw [← hf] at hv
    simpa using hv
  have hdone : (r.updated fields).Done := Record.get?_updated hnodup hstatus
  refine ⟨?_, hitems, sound_tried hitems hi hprogress hcovers hagree (Or.inl hdone) heq hgone⟩
  rw [hprogress]
  exact hfaithful.succeed hi hagree hsound hnot hdone hx.texts hcovers

/-- An exception was caught. -/
theorem Sound.fail (h : t.Sound K p) (hK : Unreserved K) (hopen : p.Open i x)
    (hgone : ∃ gone, t.items = gone ++ x :: t.rest ∧ ∀ y ∈ gone, p.Tried y) :
    (t.fail i x).Sound K (p.update i [("status", .str "error")]) := by
  obtain ⟨hfaithful, hitems, -⟩ := h
  obtain ⟨r, hi, hcovers, hnot⟩ := hopen
  obtain ⟨gone, heq, hgone⟩ := hgone
  have hprogress := progress_update hi [("status", .str "error")]
  have hkeys := hK.not_mem [("status", .str "error")] (by decide)
  have hagree : ∀ k, K k → (r.updated [("status", .str "error")]).get? k = r.get? k := fun k hk =>
    Record.get?_updated_of_not_mem (hkeys k hk)
  have hstatus : (r.updated [("status", .str "error")]).get? "status" =
      some (some (.str "error")) :=
    Record.get?_updated (by decide) (List.mem_singleton_self _)
  have hsound : (r.updated [("status", .str "error")]).Sound K :=
    Record.sound_updated (hfaithful.sound r (List.mem_of_getElem? hi)) (by decide) hkeys (by decide)
      fun v hv => ⟨"error", by decide, by simpa using hv⟩
  have hdone : ¬(r.updated [("status", .str "error")]).Done := by
    unfold Record.Done
    rw [hstatus]
    decide
  refine ⟨?_, hitems, sound_tried hitems hi hprogress hcovers hagree (Or.inr hstatus) heq hgone⟩
  rw [hprogress]
  exact hfaithful.set hi hagree hsound ⟨fun hd => absurd hd hdone, fun hd => absurd hd hnot⟩

theorem Sound.saved (h : s.Sound K) (ht : s.session = some t) (hstage : t.stage = .saving i x) :
    Sound K { progress := s.progress.save, recorded := t.succeeded
              session := some { t with stage := .head } } := by
  obtain ⟨hfaithful, hitems, hsaving⟩ := h.session t ht
  rw [hstage] at hsaving
  obtain ⟨hne, gone, heq, hgone⟩ := hsaving
  have hfile : s.progress.save.file = some (saveRecords s.progress.progress) := by
    unfold Progress.save
    rw [if_neg hne]
  refine ⟨Or.inr ⟨_, hne, hfile, hfaithful⟩, fun u hu => ?_⟩
  rw [← Option.some.inj hu]
  refine ⟨?_, hitems, Progress.saved_save _, gone, heq, fun y hy => ?_⟩
  · rw [Progress.progress_save]
    exact hfaithful
  · obtain ⟨r, hr, hrest⟩ := hgone y hy
    refine ⟨r, ?_, hrest⟩
    rw [Progress.progress_save]
    exact hr

theorem unreserved_caseKeys {params : List String} (h : ∀ k ∈ reservedKeys, k ∉ params) :
    Unreserved (· ∈ caseKeys params) := by
  intro k hk hmem
  have hbase : ∀ k ∈ reservedKeys,
      k ∉ ["prefix", "benchmark", "scalefactor", "time", "rate", "isolation"] := by decide
  rcases List.mem_append.mp hmem with hmem | hmem
  · exact hbase k hk hmem
  · exact h k hk hmem

theorem Sound.step {params : List String} (h : s.Sound (· ∈ caseKeys params))
    (hK : Unreserved (· ∈ caseKeys params)) {a : Act} (ha : a.Ordinary params)
    (hs : s.step a = some s') : s'.Sound (· ∈ caseKeys params) := by
  have hsession : ∀ {u : RunSession} {q : Progress}, q.file = s.progress.file →
      u.Sound (· ∈ caseKeys params) q →
      Sound (· ∈ caseKeys params) { s with progress := q, session := some u } := by
    intro u q hq hu
    refine ⟨?_, fun v hv => Option.some.inj hv ▸ hu⟩
    dsimp only
    rw [hq]
    exact h.file
  cases moved_of_step hs with
  | launch exp reloadEvery args timestamp hnone h' =>
    rw [h']
    exact h.launch ha
  | next t ht hstage h' =>
    rw [h']
    exact h.next (hK "status" (by decide)) ht hstage
  | confirmed t i x ht hstage h' =>
    obtain ⟨hfaithful, hitems, hasking⟩ := h.session t ht
    rw [hstage] at hasking
    rw [h']
    exact hsession rfl (RunSession.Sound.begin hfaithful hitems hasking.1 hasking.2)
  | declined t i x ht hstage h' =>
    obtain ⟨hfaithful, hitems, -⟩ := h.session t ht
    rw [h']
    exact hsession rfl ⟨hfaithful, hitems, trivial⟩
  | created t result i x ht hstage h' =>
    obtain ⟨hfaithful, hitems, hcalling⟩ := h.session t ht
    rw [hstage] at hcalling
    rw [h']
    exact hsession rfl
      (RunSession.Sound.call hfaithful hitems hcalling.1 hcalling.2 .load)
  | loaded t result i x ht hstage h' =>
    rw [h']
    exact hsession rfl (Sound.reloaded (h.session t ht) hK hstage)
  | executed t result i x ht hstage h' =>
    rw [h']
    exact hsession rfl (Sound.succeed (h.session t ht) hK hstage ha)
  | failed t i x ht hstage h' =>
    have hsound := h.session t ht
    have hstaged := hsound.stage
    rw [h']
    rcases hstage with hstage | ⟨op, hstage⟩
    · rw [hstage] at hstaged
      exact hsession rfl (Sound.fail hsound hK hstaged.1 hstaged.2)
    · rw [hstage] at hstaged
      exact hsession rfl (Sound.fail hsound hK hstaged.1 hstaged.2)
  | saved t i x ht hstage h' =>
    rw [h']
    exact h.saved ht hstage
  | killed h' =>
    rw [h']
    exact ⟨h.file, fun t ht => absurd ht (by simp)⟩

theorem Sound.of_reach {params : List String} (hparams : ∀ k ∈ reservedKeys, k ∉ params)
    (hr : Machine.Reach Runner.step (fun _ a => a.Ordinary params) init s) :
    s.Sound (· ∈ caseKeys params) :=
  hr.invariant sound_init fun _ _ _ h ha hs => h.step (unreserved_caseKeys hparams) ha hs

end Runner

end Sunstorm
