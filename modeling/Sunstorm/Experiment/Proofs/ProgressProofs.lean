import Sunstorm.Csv.Proofs.CsvProofs
import Sunstorm.Dict.Proofs.DictProofs
import Sunstorm.Experiment.Progress
import Sunstorm.Sorting.Proofs.SortingProofs

/-!
# Proofs: a progress file is loaded as it was saved

Every value comes back as its text, and a field that a record lacks as an empty one. So a record
stands for the same cases as before, and saving what was loaded does not change the file.
-/

namespace Sunstorm

/-- The text can be stored in a file: it has no carriage return and is not too long. -/
def Storable (text : String) : Prop := '\r' ∉ text.toList ∧ text.toList.length ≤ fieldSizeLimit

instance (text : String) : Decidable (Storable text) :=
  inferInstanceAs (Decidable ('\r' ∉ text.toList ∧ text.toList.length ≤ fieldSizeLimit))

namespace Record

variable {r : Record} {k : String}

theorem covers_iff {metadata : Dict String String} :
    r.covers metadata = true ↔
      ∀ k v, metadata.get? k = some v → r.get? k = some (some (.str v)) := by
  unfold covers
  rw [List.all_eq_true]
  constructor
  · intro h k v hv
    exact of_decide_eq_true (h (k, v) (Dict.get?_eq_some.mp hv))
  · intro h e he
    exact decide_eq_true (h e.1 e.2 (Dict.get?_eq_some.mpr he))

/-- All keys and values of the record can be stored. -/
structure Storable (r : Record) : Prop where
  keys : ∀ k ∈ r.keys, Sunstorm.Storable k
  values : ∀ k v, r.get? k = some (some v) → Sunstorm.Storable v.toText

theorem Storable.cell (h : r.Storable) (k : String) : Sunstorm.Storable (r.cell k) := by
  have hempty : Sunstorm.Storable "" := by decide
  unfold Record.cell
  cases hk : r.get? k with
  | none => exact hempty
  | some value =>
    cases value with
    | none => exact hempty
    | some v => exact h.values k v hk

theorem storable_of_entries
    (h : ∀ e ∈ r.entries, Sunstorm.Storable e.1 ∧ ∀ v ∈ e.2, Sunstorm.Storable v.toText) :
    r.Storable := by
  constructor
  · intro k hk
    obtain ⟨v, hv⟩ := Dict.mem_keys.mp hk
    exact (h (k, v) (Dict.get?_eq_some.mp hv)).1
  · intro k v hv
    exact (h (k, some v) (Dict.get?_eq_some.mp hv)).2 v rfl

theorem cell_of_get? {v : String} (h : r.get? k = some (some (.str v))) : r.cell k = v := by
  unfold cell
  rw [h]
  rfl

/-- The record as it comes back from a file with the columns `ks`. -/
def stored (ks : List String) (h : ks.Nodup) (r : Record) : Record :=
  ⟨ks.map fun k => (k, some (.str (r.cell k))), by
    rw [List.map_map]
    exact (List.map_id' ks).symm ▸ h⟩

theorem keys_stored {ks : List String} (h : ks.Nodup) : (r.stored ks h).keys = ks := by
  unfold stored Dict.keys
  rw [List.map_map]
  exact List.map_id' ks

theorem get?_stored {ks : List String} (h : ks.Nodup) (hk : k ∈ ks) :
    (r.stored ks h).get? k = some (some (.str (r.cell k))) :=
  Dict.get?_eq_some.mpr (List.mem_map.mpr ⟨k, hk, rfl⟩)

theorem get?_stored_of_not_mem {ks : List String} (h : ks.Nodup) (hk : k ∉ ks) :
    (r.stored ks h).get? k = none := by
  rw [Dict.get?_eq_none, keys_stored]
  exact hk

theorem cell_stored {ks : List String} (h : ks.Nodup) (hk : k ∈ ks) :
    (r.stored ks h).cell k = r.cell k := cell_of_get? (get?_stored h hk)

/-- A row that is as long as the header. -/
theorem ofRow_cells {ks : List String} (h : ks.Nodup) :
    ofRow ks (ks.map r.cell) = .ok (r.stored ks h) := by
  have hlength : ¬ks.length < (ks.map r.cell).length := by
    rw [List.length_map]
    omega
  have hsub : ks.length - (ks.map r.cell).length = 0 := by
    rw [List.length_map]
    omega
  have hzip : ks.zip ((ks.map r.cell).map fun text => some (ParameterValue.str text)) =
      ks.map fun k => (k, some (ParameterValue.str (r.cell k))) := by
    rw [List.map_map]
    have hpairs := List.zip_map' (l := ks) (f := id)
      (g := fun k => some (ParameterValue.str (r.cell k)))
    rw [List.map_id] at hpairs
    exact hpairs
  have hkeys : (ks.map fun k => (k, some (ParameterValue.str (r.cell k)))).map Prod.fst = ks := by
    rw [List.map_map]
    exact List.map_id' ks
  unfold ofRow
  rw [if_neg hlength, hsub, List.replicate_zero, List.append_nil, hzip]
  have hentries := Dict.entries_setAll (d := Dict.empty)
    (l := ks.map fun k => (k, some (ParameterValue.str (r.cell k))))
    (by rw [hkeys]; exact h)
  exact congrArg Except.ok (Dict.ext_entries hentries)

end Record

variable {P : List Record} {k : String}

/-! ## Columns -/

theorem mem_fieldnames : k ∈ fieldnames P ↔ ∃ r ∈ P, k ∈ r.keys := by
  unfold fieldnames
  rw [Sorting.mem_sortBy, List.mem_dedup, List.mem_flatMap]

theorem nodup_fieldnames (P : List Record) : (fieldnames P).Nodup :=
  Sorting.sortBy_perm.nodup_iff.mpr (List.nodup_dedup _)

theorem pairwise_fieldnames (P : List Record) : (fieldnames P).Pairwise (· ≤ ·) := by
  have hsorted := Sorting.pairwise_sortBy id (P.flatMap Dict.keys).dedup
  rw [List.map_id] at hsorted
  exact hsorted

/-- Records with the same keys have the same columns. -/
theorem fieldnames_congr {Q : List Record}
    (h : ∀ k, (∃ r ∈ P, k ∈ r.keys) ↔ ∃ r ∈ Q, k ∈ r.keys) : fieldnames P = fieldnames Q := by
  have hperm : (fieldnames P).Perm (fieldnames Q) :=
    (List.perm_ext_iff_of_nodup (nodup_fieldnames P) (nodup_fieldnames Q)).mpr fun k => by
      rw [mem_fieldnames, mem_fieldnames]
      exact h k
  exact hperm.eq_of_pairwise' (pairwise_fieldnames P) (pairwise_fieldnames Q)

/-! ## Loading -/

/-- The records as they come back from the file. -/
def stored (P : List Record) : List Record :=
  P.map (Record.stored (fieldnames P) (nodup_fieldnames P))

theorem mapM_ok {ε α β : Type} {f : α → Except ε β} {g : α → β} {l : List α}
    (h : ∀ a ∈ l, f a = .ok (g a)) : l.mapM f = .ok (l.map g) := by
  induction l with
  | nil => rfl
  | cons a l ih =>
    have hrest := ih fun b hb => h b (List.mem_cons_of_mem a hb)
    rw [List.mapM_cons, h a List.mem_cons_self, hrest]
    rfl

theorem readRecords_tableOf (h : ∃ r ∈ P, r.keys ≠ []) :
    readRecords (tableOf P) = .ok (stored P) := by
  have hcolumns : fieldnames P ≠ [] := by
    obtain ⟨r, hr, hkeys⟩ := h
    obtain ⟨k, ks, hk⟩ := List.exists_cons_of_ne_nil hkeys
    have hmem : k ∈ fieldnames P := mem_fieldnames.mpr ⟨r, hr, by rw [hk]; exact List.mem_cons_self⟩
    exact List.ne_nil_of_mem hmem
  have hfilter : (P.map fun r => (fieldnames P).map r.cell).filter (· ≠ []) =
      P.map fun r => (fieldnames P).map r.cell := by
    rw [List.filter_eq_self]
    intro row hrow
    obtain ⟨r, -, rfl⟩ := List.mem_map.mp hrow
    simpa using hcolumns
  have hrows : ∀ r ∈ P, Record.ofRow (fieldnames P) ((fieldnames P).map r.cell) =
      .ok (r.stored (fieldnames P) (nodup_fieldnames P)) := fun r _ => Record.ofRow_cells _
  unfold tableOf readRecords
  dsimp only
  rw [hfilter, List.mapM_map]
  exact mapM_ok hrows

/-- Everything that is written can be stored. -/
theorem storable_table (h : ∀ r ∈ P, r.Storable) :
    ∀ row ∈ tableOf P, ∀ text ∈ row, Storable text := by
  intro row hrow text htext
  rcases List.mem_cons.mp hrow with rfl | hrow
  · obtain ⟨r, hr, hk⟩ := mem_fieldnames.mp htext
    exact (h r hr).keys text hk
  · obtain ⟨r, hr, rfl⟩ := List.mem_map.mp hrow
    obtain ⟨k, -, rfl⟩ := List.mem_map.mp htext
    exact (h r hr).cell k

theorem loadRecords_saveRecords (h : ∀ r ∈ P, r.Storable) (hne : ∃ r ∈ P, r.keys ≠ []) :
    loadRecords (saveRecords P) = .ok (stored P) := by
  have hstorable : ∀ row ∈ (tableOf P).map (fun row => row.map String.toList),
      ∀ f ∈ row, '\r' ∉ f ∧ f.length ≤ fieldSizeLimit := by
    intro row hrow f hf
    obtain ⟨texts, htexts, rfl⟩ := List.mem_map.mp hrow
    obtain ⟨text, htext, rfl⟩ := List.mem_map.mp hf
    exact storable_table h texts htexts text htext
  have hparse : Csv.parse fieldSizeLimit (saveRecords P) =
      .ok ((tableOf P).map fun row => row.map String.toList) :=
    Csv.parse_render (fun row hrow f hf => (hstorable row hrow f hf).1)
      fun row hrow f hf => (hstorable row hrow f hf).2
  have hback : ((tableOf P).map fun row => row.map String.toList).map
      (fun row => row.map String.ofList) = tableOf P := by
    rw [List.map_map]
    refine (List.map_congr_left fun row _ => ?_).trans (List.map_id _)
    have hrow : (row.map String.toList).map String.ofList = row := by
      rw [List.map_map]
      exact (List.map_congr_left fun text _ => String.ofList_toList).trans (List.map_id row)
    exact hrow
  unfold loadRecords
  rw [hparse]
  dsimp only
  rw [hback]
  exact readRecords_tableOf hne

/-! ## Saving again -/

theorem fieldnames_stored (h : P ≠ []) : fieldnames (stored P) = fieldnames P := by
  refine fieldnames_congr fun k => ?_
  constructor
  · rintro ⟨r', hr', hk⟩
    obtain ⟨r, -, rfl⟩ := List.mem_map.mp hr'
    rw [Record.keys_stored] at hk
    exact mem_fieldnames.mp hk
  · intro hk
    obtain ⟨r, P', rfl⟩ := List.exists_cons_of_ne_nil h
    refine ⟨_, List.mem_cons_self, ?_⟩
    rw [Record.keys_stored]
    exact mem_fieldnames.mpr hk

theorem saveRecords_stored (h : P ≠ []) : saveRecords (stored P) = saveRecords P := by
  have hcells : ∀ r ∈ P,
      (fieldnames P).map (Record.stored (fieldnames P) (nodup_fieldnames P) r).cell =
        (fieldnames P).map r.cell :=
    fun r _ => List.map_congr_left fun k hk => Record.cell_stored _ hk
  unfold saveRecords tableOf
  rw [fieldnames_stored h]
  unfold stored
  rw [List.map_map]
  exact congrArg (fun rows => Csv.render
    ((fieldnames P :: rows).map fun row : List String => row.map String.toList))
    (List.map_congr_left hcells)

/-- **A progress file is loaded as it was saved.** The records come back in their order; each has a
field for every key that some record had, with the text of its value there or an empty text. Saving
them again gives the same file. -/
theorem progress_loads_back (P : List Record) (h : ∀ r ∈ P, r.Storable)
    (hne : ∃ r ∈ P, r.keys ≠ []) :
    ∃ Q, loadRecords (saveRecords P) = .ok Q ∧ Q.length = P.length ∧ saveRecords Q = saveRecords P ∧
      ∀ (i : Nat) (r q : Record), P[i]? = some r → Q[i]? = some q → ∀ k,
        q.get? k = if ∃ p ∈ P, k ∈ p.keys then some (some (.str (r.cell k))) else none := by
  have hsome : P ≠ [] := fun heq => by
    obtain ⟨r, hr, -⟩ := hne
    rw [heq] at hr
    exact absurd hr List.not_mem_nil
  refine ⟨stored P, loadRecords_saveRecords h hne, List.length_map _, saveRecords_stored hsome,
    fun i r q hr hq k => ?_⟩
  have hqr : q = r.stored (fieldnames P) (nodup_fieldnames P) := by
    unfold stored at hq
    rw [List.getElem?_map, hr] at hq
    exact (Option.some.inj hq).symm
  rw [hqr]
  by_cases hk : ∃ p ∈ P, k ∈ p.keys
  · rw [if_pos hk]
    exact Record.get?_stored _ (mem_fieldnames.mpr hk)
  · rw [if_neg hk]
    exact Record.get?_stored_of_not_mem _ fun hmem => hk (mem_fieldnames.mp hmem)

theorem progress_loads_back_done :
    ∃ Q, loadRecords (saveRecords [Dict.empty.setAll [("status", some (.str "done")),
        ("reloaded", some (.bool true)), ("name", some (.str "a,\"b\"\n"))]]) = .ok Q ∧
      Q.map (fun q => q.get? "reloaded") = [some (some (.str "True"))] := by
  obtain ⟨Q, hload, hlength, -, hget⟩ := progress_loads_back
    [Dict.empty.setAll [("status", some (.str "done")), ("reloaded", some (.bool true)),
      ("name", some (.str "a,\"b\"\n"))]]
    (fun r hr => Record.storable_of_entries (by
      rw [List.mem_singleton.mp hr]
      decide)) ⟨_, List.mem_singleton_self _, by decide⟩
  obtain ⟨q, rfl⟩ := List.length_eq_one_iff.mp hlength
  have hq := hget 0 _ q rfl rfl "reloaded"
  rw [if_pos ⟨_, List.mem_singleton_self _, by decide⟩] at hq
  refine ⟨[q], hload, ?_⟩
  rw [List.map_singleton, hq]
  decide

end Sunstorm
