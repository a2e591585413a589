import Sunstorm.Codec.Proofs.JoinProofs
import Sunstorm.Dict.Proofs.DictProofs
import Sunstorm.Experiment.BenchmarkArgs

/-!
# Proofs: the tags of an experiment

The tag of a parameter set holds the names of the parameters in the tag, and nothing else of it. So
it identifies the set if the names can be told apart in the tag and each of them stands for one
value.
-/

namespace Sunstorm

open Codec

variable {c d : Combination} {exp : Experiment} {tagPrefix tagSuffix : Option String}

/-! ## The rules keep the parameters -/

theorem keys_setValues {l : List (String × GivenValue)} (h : setValues c l = .ok d) :
    d.keys = c.keys := by
  induction l generalizing c with
  | nil =>
    obtain rfl := Except.ok.inj h
    rfl
  | cons e l ih =>
    obtain ⟨param, value⟩ := e
    simp only [setValues] at h
    by_cases hmem : param ∈ c.keys
    · rw [if_pos hmem] at h
      rw [ih h, Dict.keys_set_of_mem hmem]
    · rw [if_neg hmem] at h
      exact absurd h (by simp)

theorem bind_eq_ok {ε α β : Type} {x : Except ε α} {f : α → Except ε β} {b : β} :
    x >>= f = .ok b ↔ ∃ a, x = .ok a ∧ f a = .ok b := by
  cases x with
  | error e => simp [bind, Except.bind]
  | ok a => simp [bind, Except.bind]

theorem keys_replaceValues {rules : List Replace} (h : replaceValues c rules = .ok d) :
    d.keys = c.keys := by
  induction rules generalizing c with
  | nil =>
    obtain rfl := Except.ok.inj h
    rfl
  | cons rule rules ih =>
    obtain ⟨found, -, h⟩ := bind_eq_ok.mp h
    cases found with
    | false => exact ih h
    | true =>
      obtain ⟨c', hset, h⟩ := bind_eq_ok.mp h
      rw [ih h, keys_setValues hset]

namespace Experiment

/-! ## The combinations -/

/-- The combination gives each of the parameters `params` one of its values. -/
structure Chosen (exp : Experiment) (params : List String) (c : Combination) : Prop where
  keys : c.keys = params
  values : ∀ p v, c.get? p = some v → v ∈ (exp.namedParameters.get? p).getD []

theorem Chosen.set {params : List String} (h : exp.Chosen params c) {param : String}
    (hnew : param ∉ params) {v : NamedParameterValue}
    (hv : v ∈ (exp.namedParameters.get? param).getD []) :
    exp.Chosen (params ++ [param]) (c.set param v) := by
  have hnot : param ∉ c.keys := by rw [h.keys]; exact hnew
  constructor
  · rw [Dict.keys_set_of_not_mem hnot, h.keys]
  · intro p w hw
    have hmem := Dict.get?_eq_some.mp hw
    rw [Dict.entries_set_of_not_mem hnot, List.mem_append, List.mem_singleton] at hmem
    rcases hmem with hmem | heq
    · exact h.values p w (Dict.get?_eq_some.mpr hmem)
    · obtain ⟨rfl, rfl⟩ := Prod.mk.inj heq
      exact hv

theorem chosen_combine (done : List String) {params : List String} {combinations : List Combination}
    (hnodup : (done ++ params).Nodup) (h : ∀ x ∈ combinations, exp.Chosen done x)
    (hc : c ∈ exp.combine params combinations) : exp.Chosen (done ++ params) c := by
  induction params generalizing done combinations with
  | nil =>
    rw [List.append_nil]
    exact h c hc
  | cons param params ih =>
    have happend : done ++ param :: params = done ++ [param] ++ params := by simp
    rw [happend] at hnodup ⊢
    refine ih (done ++ [param]) hnodup (fun x hx => ?_) hc
    obtain ⟨x₀, hx₀, hx⟩ := List.mem_flatMap.mp hx
    obtain ⟨v, hv, rfl⟩ := List.mem_map.mp hx
    have hnew : param ∉ done := by
      have hdisjoint := (List.nodup_append.mp (List.nodup_append.mp hnodup).1).2.2
      exact fun hmem => hdisjoint param hmem param List.mem_cons_self rfl
    exact (h x₀ hx₀).set hnew hv

/-- Every combination gives every parameter one of its values. -/
theorem chosen_of_mem (hc : c ∈ exp.combinations) : exp.Chosen exp.keyFlags.keys c := by
  have hstart : ∀ x ∈ [(Dict.empty : Combination)], exp.Chosen [] x := by
    intro x hx
    obtain rfl := List.mem_singleton.mp hx
    exact ⟨rfl, fun p v hv => absurd (Dict.get?_eq_some.mp hv) List.not_mem_nil⟩
  exact chosen_combine [] exp.keyFlags.nodup hstart hc

/-! ## The items -/

theorem mem_yields {α β ε : Type} {f : α → Except ε β} {l : List α} {b : β}
    (h : b ∈ (yields f l).1) : ∃ a ∈ l, f a = .ok b := by
  induction l with
  | nil => exact absurd h List.not_mem_nil
  | cons a l ih =>
    unfold yields at h
    cases ha : f a with
    | error e =>
      rw [ha] at h
      exact absurd h List.not_mem_nil
    | ok b' =>
      rw [ha] at h
      rcases List.mem_cons.mp h with rfl | h
      · exact ⟨a, List.mem_cons_self, ha⟩
      · obtain ⟨a', hmem, ha'⟩ := ih h
        exact ⟨a', List.mem_cons_of_mem a hmem, ha'⟩

theorem item_cases {x : BenchmarkItem} (h : exp.item tagPrefix tagSuffix c = .ok x) :
    ∃ d, replaceValues c (exp.replace.getD []) = .ok d ∧ x.tag = exp.tag tagPrefix tagSuffix d := by
  obtain ⟨d, hd, h⟩ := bind_eq_ok.mp h
  obtain ⟨values, -, h⟩ := bind_eq_ok.mp h
  refine ⟨d, hd, ?_⟩
  rw [← Except.ok.inj h]

/-- Every item comes from a combination. -/
theorem mem_benchmarkArgs {x : BenchmarkItem} (h : x ∈ (exp.benchmarkArgs tagPrefix tagSuffix).1) :
    ∃ c ∈ exp.combinations, exp.item tagPrefix tagSuffix c = .ok x := by
  unfold benchmarkArgs at h
  by_cases hkeys : (∀ k ∈ exp.keyFlags.keys, k ∈ exp.paramValues.keys) ∧
      ∀ k ∈ exp.paramValues.keys, k ∈ exp.keyFlags.keys
  · rw [if_pos hkeys] at h
    exact mem_yields h
  · rw [if_neg hkeys] at h
    exact absurd h List.not_mem_nil

/-! ## The tags -/

/-- Tags are the same where the pieces of the names are. -/
theorem tag_eq_iff : exp.tag tagPrefix tagSuffix c = exp.tag tagPrefix tagSuffix d ↔
    pieces '-' (exp.tagNames c) = pieces '-' (exp.tagNames d) := by
  unfold tag
  rw [show "-" = String.singleton '-' from rfl, join_eq_iff (by simp) (by simp)]
  simp only [pieces_append, List.append_assoc, List.append_cancel_left_eq,
    List.append_cancel_right_eq]

/-- The parameters of the tag with their names in the combination. -/
def labels (exp : Experiment) (c : Combination) : List (String × String) :=
  (c.entries.filter fun e => e.1 ∈ exp.tagParams).map fun e => (e.1, e.2.name)

theorem labels_snd : (exp.labels c).map Prod.snd = exp.tagNames c := by
  unfold labels tagNames
  rw [List.map_map]
  rfl

theorem labels_fst : (exp.labels c).map Prod.fst = c.keys.filter (· ∈ exp.tagParams) := by
  unfold labels Dict.keys
  rw [List.map_map, List.filter_map]
  rfl

theorem mem_labels {p name : String} : (p, name) ∈ exp.labels c ↔
    p ∈ exp.tagParams ∧ ∃ v, c.get? p = some v ∧ v.name = name := by
  unfold labels
  rw [List.mem_map]
  constructor
  · rintro ⟨⟨p', v⟩, hmem, heq⟩
    obtain ⟨rfl, rfl⟩ := Prod.mk.inj heq
    obtain ⟨hentry, htag⟩ := List.mem_filter.mp hmem
    exact ⟨of_decide_eq_true htag, v, Dict.get?_eq_some.mpr hentry, rfl⟩
  · rintro ⟨htag, v, hv, rfl⟩
    exact ⟨(p, v), List.mem_filter.mpr ⟨Dict.get?_eq_some.mp hv, decide_eq_true htag⟩, rfl⟩

/-- What the rules make of a combination. -/
def replaced (exp : Experiment) (c : Combination) : Option Combination :=
  (replaceValues c (exp.replace.getD [])).toOption

theorem mem_replaced : d ∈ exp.replaced c ↔ replaceValues c (exp.replace.getD []) = .ok d := by
  unfold replaced
  cases replaceValues c (exp.replace.getD []) with
  | error e => simp [Except.toOption]
  | ok d' => simp [Except.toOption]

theorem keys_replaced (h : d ∈ exp.replaced c) : d.keys = c.keys :=
  keys_replaceValues (mem_replaced.mp h)

/-- The names that are left after the rules tell the combinations apart. -/
def NamesTell (exp : Experiment) : Prop :=
  ∀ c ∈ exp.combinations, ∀ c' ∈ exp.combinations, ∀ d ∈ exp.replaced c, ∀ d' ∈ exp.replaced c',
    exp.labels d = exp.labels d' → c = c'

/-- The names tell the combinations apart, in the tag as well. -/
structure NamesIdentify (exp : Experiment) : Prop where
  told : exp.NamesTell
  /-- All names of a parameter in the tag have the same number of hyphens, but for those of one
  parameter. -/
  separable : ∃ (p₀ : String) (hyphens : String → Nat), ∀ c ∈ exp.combinations,
    ∀ d ∈ exp.replaced c, ∀ p ∈ exp.tagParams, p ≠ p₀ → ∀ w ∈ d.get? p,
      w.name.toList.count '-' = hyphens p

theorem labels_count {p₀ : String} {hyphens : String → Nat} (h : ∀ p ∈ exp.tagParams, p ≠ p₀ →
    ∀ w ∈ d.get? p, w.name.toList.count '-' = hyphens p) :
    ∀ e ∈ exp.labels d, e.1 ≠ p₀ → e.2.toList.count '-' = hyphens e.1 := by
  intro e he hne
  obtain ⟨htag, w, hw, hname⟩ := mem_labels.mp he
  rw [← hname]
  exact h e.1 htag hne w hw

section Same

variable {c' d' : Combination}

/-- Under the same tag the parameters of the tag have the same names. -/
theorem NamesIdentify.labels_eq (h : exp.NamesIdentify) (hc : c ∈ exp.combinations)
    (hc' : c' ∈ exp.combinations) (hd : d ∈ exp.replaced c) (hd' : d' ∈ exp.replaced c')
    (htag : exp.tag tagPrefix tagSuffix d = exp.tag tagPrefix tagSuffix d') :
    exp.labels d = exp.labels d' := by
  obtain ⟨p₀, hyphens, hcount⟩ := h.separable
  have hkeys : (exp.labels d).map Prod.fst = (exp.labels d').map Prod.fst := by
    rw [labels_fst, labels_fst, keys_replaced hd, keys_replaced hd', (chosen_of_mem hc).keys,
      (chosen_of_mem hc').keys]
  have hnodup : ((exp.labels d).map Prod.fst).Nodup := by
    rw [labels_fst]
    exact d.nodup.filter _
  have hpieces := tag_eq_iff.mp htag
  rw [← labels_snd, ← labels_snd] at hpieces
  exact eq_of_pieces_eq p₀ hkeys hnodup (labels_count (hcount c hc d hd))
    (labels_count (hcount c' hc' d' hd')) hpieces

theorem mem_tagParams {p : String} {values : List NamedParameterValue}
    (h : exp.namedParameters.get? p = some values) (hmany : 1 < values.length) :
    p ∈ exp.tagParams := by
  obtain ⟨given, hgiven, rfl⟩ := Dict.get?_map h
  rw [List.length_map] at hmany
  exact List.mem_map.mpr ⟨(p, given), List.mem_filter.mpr
    ⟨Dict.get?_eq_some.mp hgiven, decide_eq_true (Or.inl hmany)⟩, rfl⟩

/-- The names tell the combinations apart when values of a parameter that have the same name are the
same, and the rules leave the names of the parameters with several values as they are. -/
theorem namesTell_of_kept
    (hdistinct : ∀ e ∈ exp.namedParameters.entries, ∀ v ∈ e.2, ∀ w ∈ e.2, v.name = w.name → v = w)
    (hkept : ∀ c ∈ exp.combinations, ∀ d ∈ exp.replaced c, ∀ e ∈ exp.namedParameters.entries,
      1 < e.2.length → ∀ v ∈ c.get? e.1, ∀ w ∈ d.get? e.1, w.name = v.name) : exp.NamesTell := by
  intro c hc c' hc' d hd d' hd' hlabels
  have hchosen := chosen_of_mem hc
  have hchosen' := chosen_of_mem hc'
  refine Dict.ext_get? (hchosen.keys.trans hchosen'.keys.symm) fun p hp => ?_
  have hp' : p ∈ c'.keys := by rwa [hchosen'.keys, ← hchosen.keys]
  obtain ⟨v, hv⟩ := Dict.mem_keys.mp hp
  obtain ⟨v', hv'⟩ := Dict.mem_keys.mp hp'
  rw [hv, hv']
  congr 1
  have hmem := hchosen.values p v hv
  have hmem' := hchosen'.values p v' hv'
  cases hvalues : exp.namedParameters.get? p with
  | none =>
    rw [hvalues] at hmem
    exact absurd hmem List.not_mem_nil
  | some values =>
    rw [hvalues] at hmem hmem'
    have hv_mem : v ∈ values := hmem
    have hv_mem' : v' ∈ values := hmem'
    have hentry := Dict.get?_eq_some.mp hvalues
    by_cases hmany : 1 < values.length
    · -- the names in the tag are those of the values
      obtain ⟨w, hw⟩ := Dict.mem_keys.mp (show p ∈ d.keys by rwa [keys_replaced hd])
      obtain ⟨w', hw'⟩ := Dict.mem_keys.mp (show p ∈ d'.keys by rwa [keys_replaced hd'])
      have hlabel : (p, w.name) ∈ exp.labels d' := by
        rw [← hlabels]
        exact mem_labels.mpr ⟨mem_tagParams hvalues hmany, w, hw, rfl⟩
      obtain ⟨-, u, hu, hname⟩ := mem_labels.mp hlabel
      obtain rfl := Option.some.inj (hw'.symm.trans hu)
      have hsame := hkept c hc d hd _ hentry hmany v hv w hw
      have hsame' := hkept c' hc' d' hd' _ hentry hmany v' hv' w' hw'
      exact hdistinct _ hentry v hv_mem v' hv_mem' (by rw [← hsame, ← hsame', hname])
    · -- there is only one value
      obtain ⟨u, rfl⟩ : ∃ u, values = [u] := by
        refine List.length_eq_one_iff.mp ?_
        have hpos := List.length_pos_of_mem hv_mem
        omega
      rw [List.mem_singleton.mp hv_mem, List.mem_singleton.mp hv_mem']

end Same

/-- **Result tags identify the parameter set**, if the names that go into them do, and can be told
apart between the hyphens. -/
theorem tags_identify (h : exp.NamesIdentify) :
    ∀ x ∈ (exp.benchmarkArgs tagPrefix tagSuffix).1,
      ∀ y ∈ (exp.benchmarkArgs tagPrefix tagSuffix).1, x.metadata ≠ y.metadata → x.tag ≠ y.tag := by
  intro x hx y hy hne htag
  obtain ⟨c, hc, hitem⟩ := mem_benchmarkArgs hx
  obtain ⟨c', hc', hitem'⟩ := mem_benchmarkArgs hy
  obtain ⟨d, hd, hxtag⟩ := item_cases hitem
  obtain ⟨d', hd', hytag⟩ := item_cases hitem'
  have hsame : exp.tag tagPrefix tagSuffix d = exp.tag tagPrefix tagSuffix d' := by
    rw [← hxtag, ← hytag, htag]
  have hlabels := h.labels_eq hc hc' (mem_replaced.mpr hd) (mem_replaced.mpr hd') hsame
  obtain rfl := h.told c hc c' hc' d (mem_replaced.mpr hd) d' (mem_replaced.mpr hd') hlabels
  obtain rfl := Except.ok.inj (hitem.symm.trans hitem')
  exact hne rfl

/-- Two items whose parameter `p` differs. -/
theorem exists_items {i j : Nat} (p : String)
    (hx : ((exp.benchmarkArgs tagPrefix tagSuffix).1[i]?).isSome = true)
    (hy : ((exp.benchmarkArgs tagPrefix tagSuffix).1[j]?).isSome = true)
    (hvalue : ((exp.benchmarkArgs tagPrefix tagSuffix).1[i]?).map (fun x => x.metadata.get? p) ≠
      ((exp.benchmarkArgs tagPrefix tagSuffix).1[j]?).map (fun x => x.metadata.get? p)) :
    ∃ x, (exp.benchmarkArgs tagPrefix tagSuffix).1[i]? = some x ∧
      ∃ y, (exp.benchmarkArgs tagPrefix tagSuffix).1[j]? = some y ∧ x.metadata ≠ y.metadata := by
  obtain ⟨x, hx⟩ := Option.isSome_iff_exists.mp hx
  obtain ⟨y, hy⟩ := Option.isSome_iff_exists.mp hy
  rw [hx, hy] at hvalue
  refine ⟨x, hx, y, hy, fun heq => hvalue ?_⟩
  rw [Option.map_some, Option.map_some, heq]

/-- `experiments/scalability-sunstorm.yaml`. -/
def scalability : Experiment where
  name := "scalability-sunstorm"
  dbtype := "sunstorm"
  benchmark := "hot"
  scalefactor := 1000
  time := 90
  rate := 50000
  isolation := "TRANSACTION_SERIALIZABLE"
  paramKeys := [.plain "regions", .keyed "hot.hot" (some true), .plain "hot.weights",
    .plain "hot.keyspertxn", .plain "hot.maxscancount", .plain "terminals"]
  paramValues := ⟨[
    ("regions", .many [.plain (some (.int 3)), .plain (some (.int 4)), .plain (some (.int 5)),
      .plain (some (.int 6))]),
    ("terminals", .one (.plain none)),
    ("hot.keyspertxn", .one (.plain (some (.int 8)))),
    ("hot.maxscancount", .one (.plain (some (.int 50)))),
    ("hot.hot", .many [.plain (some (.int 0)), .plain (some (.int 10000))]),
    ("hot.weights", .many [.named ⟨"F-mr0", some (.str "100000,0,0,0,0,0,0,0,0,0")⟩,
      .named ⟨"F-mr5", none⟩])], by decide⟩
  replace := some [
    ⟨.alternatives [[("hot.weights", .named "F-mr0")]], [("terminals", .plain (some (.int 64)))]⟩,
    ⟨.alternatives [[("regions", .plain (some (.int 3))), ("hot.weights", .named "F-mr5")]],
      [("terminals", .plain (some (.int 96))),
        ("hot.weights", .named ⟨"F-mr5", some (.str "95000,4292,707,0,0,0,0,0,0,0")⟩)]⟩,
    ⟨.alternatives [[("regions", .plain (some (.int 4))), ("hot.weights", .named "F-mr5")]],
      [("terminals", .plain (some (.int 96))),
        ("hot.weights", .named ⟨"F-mr5", some (.str "95000,4090,674,235,0,0,0,0,0,0")⟩)]⟩,
    ⟨.alternatives [[("regions", .plain (some (.int 5))), ("hot.weights", .named "F-mr5")]],
      [("terminals", .plain (some (.int 128))),
        ("hot.weights", .named ⟨"F-mr5", some (.str "95000,4001,659,229,108,0,0,0,0,0")⟩)]⟩,
    ⟨.alternatives [[("regions", .plain (some (.int 6))), ("hot.weights", .named "F-mr5")]],
      [("terminals", .plain (some (.int 128))),
        ("hot.weights", .named ⟨"F-mr5", some (.str "95000,3953,652,227,107,60,0,0,0,0")⟩)]⟩]

theorem tags_identify_scalability :
    ∃ x ∈ (scalability.benchmarkArgs none none).1, ∃ y ∈ (scalability.benchmarkArgs none none).1,
      x.metadata ≠ y.metadata ∧ x.tag ≠ y.tag := by
  obtain ⟨x, hx, y, hy, hne⟩ : ∃ x, (scalability.benchmarkArgs none none).1[0]? = some x ∧
      ∃ y, (scalability.benchmarkArgs none none).1[15]? = some y ∧ x.metadata ≠ y.metadata :=
    exists_items "terminals" (by decide) (by decide) (by decide)
  have hmem := List.mem_of_getElem? hx
  have hmem' := List.mem_of_getElem? hy
  exact ⟨x, hmem, y, hmem', hne,
    tags_identify ⟨namesTell_of_kept (by decide) (by decide), "hot.weights", fun _ => 0, by decide⟩
      x hmem y hmem' hne⟩

/-- Two different parameter sets have the same tag. -/
def Collides (exp : Experiment) : Prop :=
  ∃ x ∈ (exp.benchmarkArgs none none).1, ∃ y ∈ (exp.benchmarkArgs none none).1,
    x.metadata ≠ y.metadata ∧ x.tag = y.tag

theorem collides_of_items {i j : Nat} (p : String)
    (hx : ((exp.benchmarkArgs none none).1[i]?).isSome = true)
    (hy : ((exp.benchmarkArgs none none).1[j]?).isSome = true)
    (hvalue : ((exp.benchmarkArgs none none).1[i]?).map (fun x => x.metadata.get? p) ≠
      ((exp.benchmarkArgs none none).1[j]?).map (fun x => x.metadata.get? p))
    (htag : ((exp.benchmarkArgs none none).1[i]?).map BenchmarkItem.tag =
      ((exp.benchmarkArgs none none).1[j]?).map BenchmarkItem.tag) : exp.Collides := by
  obtain ⟨x, hx, y, hy, hne⟩ := exists_items p hx hy hvalue
  rw [hx, hy] at htag
  exact ⟨x, List.mem_of_getElem? hx, y, List.mem_of_getElem? hy, hne, Option.some.inj htag⟩

/-- An experiment with the parameters `p` and `q`. -/
def twoParams (p q : GivenValues) (replace : Option (List Replace)) : Experiment where
  name := "pq"
  dbtype := "sunstorm"
  benchmark := "hot"
  scalefactor := 1
  time := 10
  rate := 100
  isolation := "TRANSACTION_SERIALIZABLE"
  paramKeys := [.plain "p", .plain "q"]
  paramValues := ⟨[("p", p), ("q", q)], by simp⟩
  replace := replace

/-- The names of both parameters contain hyphens. -/
def hyphens : Experiment :=
  twoParams (.many [.named ⟨"a-b", some (.int 1)⟩, .named ⟨"a", some (.int 2)⟩])
    (.many [.named ⟨"c", some (.int 3)⟩, .named ⟨"b-c", some (.int 4)⟩]) none

/-- Two values have one name: a number and its text. -/
def namesakes : Experiment :=
  twoParams (.many [.plain (some (.int 1)), .plain (some (.str "1"))])
    (.one (.plain (some (.int 3)))) none

/-- A rule gives the values of `p` the same name, after another one has set `q` by them. -/
def renamed : Experiment :=
  twoParams (.many [.plain (some (.int 1)), .plain (some (.int 2))])
    (.one (.plain (some (.int 3))))
    (some [⟨.alternatives [[("p", .plain (some (.int 1)))]], [("q", .plain (some (.int 4)))]⟩,
      ⟨.alternatives [], [("p", .plain (some (.int 5)))]⟩])

/-- Tags collide where hyphens, names or rules let them. -/
theorem tags_collide : hyphens.Collides ∧ namesakes.Collides ∧ renamed.Collides := by
  refine ⟨?_, ?_, ?_⟩
  · exact collides_of_items "p" (i := 0) (j := 3) (by decide) (by decide) (by decide) (by decide)
  · exact collides_of_items "p" (i := 0) (j := 1) (by decide) (by decide) (by decide) (by decide)
  · exact collides_of_items "q" (i := 0) (j := 1) (by decide) (by decide) (by decide) (by decide)

end Experiment

end Sunstorm
