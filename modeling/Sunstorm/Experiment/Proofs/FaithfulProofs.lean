import Sunstorm.Experiment.Proofs.ProgressProofs

/-!
# Proofs: records that tell what was executed

`K` admits the keys that the metadata of every case have. The records of a progress are faithful to
the cases that were executed with success when each of these has a record that says so, and no other
record does. Storing the records, adding one and updating one keeps that.
-/

namespace Sunstorm

/-- The keys that the runner sets in a record by itself. -/
def reservedKeys : List String := ["status", "reloaded", "throughput", "goodput", "tag"]

/-- The metadata of a case, as texts. -/
structure CaseTexts (K : String → Prop) (m : Dict String String) : Prop where
  keys : ∀ k, k ∈ m.keys ↔ K k
  storable : ∀ k v, m.get? k = some v → Storable k ∧ Storable v

/-- The record has a text for every key of a case, and one of the three states. -/
structure Record.Sound (K : String → Prop) (r : Record) : Prop where
  storable : r.Storable
  fields : ∀ k, K k → ∃ v, r.get? k = some (some (.str v))
  status : ∃ v, r.get? "status" = some (some (.str v)) ∧ v ∈ Progress.statuses

/-- The record says that its case is done. -/
def Record.Done (r : Record) : Prop := r.get? "status" = some (some (.str "done"))

instance (r : Record) : Decidable r.Done :=
  inferInstanceAs (Decidable (r.get? "status" = some (some (.str "done"))))

/-- The records `P` tell the cases `L` that were executed with success. -/
structure Faithful (K : String → Prop) (P : List Record) (L : List (Dict String String)) :
    Prop where
  sound : ∀ r ∈ P, r.Sound K
  /-- No two records are about the same case. -/
  apart : ∀ (i j : Nat) (r q : Record), P[i]? = some r → P[j]? = some q →
    (∀ k, K k → r.get? k = q.get? k) → i = j
  known : ∀ m ∈ L, CaseTexts K m ∧ ∃ r ∈ P, r.covers m = true
  truthful : ∀ r ∈ P, r.Done ↔ ∃ m ∈ L, r.covers m = true
  /-- No case was executed with success twice. -/
  once : L.Pairwise fun m n => ∃ k, m.get? k ≠ n.get? k

variable {K : String → Prop} {P : List Record} {L : List (Dict String String)}
  {m n : Dict String String} {r r' q : Record} {i j : Nat}

namespace Record

/-- What a record covers depends on the keys of a case only. -/
theorem covers_congr (hm : CaseTexts K m) (h : ∀ k, K k → r'.get? k = r.get? k) :
    r'.covers m = r.covers m := by
  have hkey : ∀ k v, m.get? k = some v → r'.get? k = r.get? k := fun k v hv =>
    h k ((hm.keys k).mp (Dict.mem_keys.mpr ⟨v, hv⟩))
  rw [Bool.eq_iff_iff, covers_iff, covers_iff]
  constructor
  · intro hcovers k v hv
    rw [← hkey k v hv]
    exact hcovers k v hv
  · intro hcovers k v hv
    rw [hkey k v hv]
    exact hcovers k v hv

/-- Records that cover the same case agree on its keys. -/
theorem agree_of_covers (hm : CaseTexts K m) (hr : r.covers m = true) (hq : q.covers m = true) :
    ∀ k, K k → r.get? k = q.get? k := by
  intro k hk
  obtain ⟨v, hv⟩ := Dict.mem_keys.mp ((hm.keys k).mpr hk)
  rw [covers_iff.mp hr k v hv, covers_iff.mp hq k v hv]

/-- Cases that the same record covers are the same. -/
theorem same_of_covers (hm : CaseTexts K m) (hn : CaseTexts K n) (hr : r.covers m = true)
    (hr' : r.covers n = true) (k : String) : m.get? k = n.get? k := by
  cases hv : m.get? k with
  | none =>
    have hk : ¬K k := fun hk => Dict.get?_eq_none.mp hv ((hm.keys k).mpr hk)
    exact (Dict.get?_eq_none.mpr fun hmem => hk ((hn.keys k).mp hmem)).symm
  | some v =>
    have hk : K k := (hm.keys k).mp (Dict.mem_keys.mpr ⟨v, hv⟩)
    obtain ⟨w, hw⟩ := Dict.mem_keys.mp ((hn.keys k).mpr hk)
    have hleft := covers_iff.mp hr k v hv
    have hright := covers_iff.mp hr' k w hw
    rw [hleft] at hright
    simp only [Option.some.injEq, ParameterValue.str.injEq] at hright
    rw [hw, hright]

/-! ## A new record -/

theorem fst_pending (m : Dict String String) :
    (m.entries.map fun e => (e.1, some (ParameterValue.str e.2))).map Prod.fst = m.keys := by
  rw [List.map_map]
  rfl

theorem get?_pending {k v : String} (h : m.get? k = some v) :
    (pending m).get? k = some (some (.str v)) := by
  refine Dict.get?_setAll_of_mem ?_ (List.mem_map.mpr ⟨(k, v), Dict.get?_eq_some.mp h, rfl⟩)
  rw [fst_pending]
  exact m.nodup

theorem get?_pending_of_not_mem {k : String} (h : k ∉ m.keys) :
    (pending m).get? k = (Dict.empty.setAll
      [("status", some (ParameterValue.str "pending")),
        ("reloaded", some (ParameterValue.bool false))]).get? k := by
  refine Dict.get?_setAll_of_not_mem ?_
  rw [fst_pending]
  exact h

theorem covers_pending (m : Dict String String) : (pending m).covers m = true :=
  covers_iff.mpr fun _ _ hv => get?_pending hv

theorem sound_pending (hm : CaseTexts K m) (hK : ¬K "status") : (pending m).Sound K := by
  have hstatus : (pending m).get? "status" = some (some (.str "pending")) :=
    get?_pending_of_not_mem fun hmem => hK ((hm.keys _).mp hmem)
  refine ⟨⟨fun k hk => ?_, fun k v hv => ?_⟩, fun k hk => ?_, "pending", hstatus, by decide⟩
  · by_cases hmem : k ∈ m.keys
    · obtain ⟨v, hv⟩ := Dict.mem_keys.mp hmem
      exact (hm.storable k v hv).1
    · obtain ⟨v, hv⟩ := Dict.mem_keys.mp hk
      rw [get?_pending_of_not_mem hmem] at hv
      have hkeys : ∀ k' ∈ (Dict.empty.setAll [("status", some (ParameterValue.str "pending")),
          ("reloaded", some (ParameterValue.bool false))]).keys, Sunstorm.Storable k' := by decide
      exact hkeys k (Dict.mem_keys.mpr ⟨v, hv⟩)
  · by_cases hmem : k ∈ m.keys
    · obtain ⟨w, hw⟩ := Dict.mem_keys.mp hmem
      rw [get?_pending hw] at hv
      obtain rfl := Option.some.inj (Option.some.inj hv)
      exact (hm.storable k w hw).2
    · rw [get?_pending_of_not_mem hmem] at hv
      have hvalues : ∀ e ∈ (Dict.empty.setAll [("status", some (ParameterValue.str "pending")),
          ("reloaded", some (ParameterValue.bool false))]).entries,
          ∀ w ∈ e.2, Sunstorm.Storable w.toText := by decide
      exact hvalues (k, some v) (Dict.get?_eq_some.mp hv) v rfl
  · obtain ⟨v, hv⟩ := Dict.mem_keys.mp ((hm.keys k).mpr hk)
    exact ⟨v, get?_pending hv⟩

theorem not_done_pending (hm : CaseTexts K m) (hK : ¬K "status") : ¬(pending m).Done := by
  have hstatus : (pending m).get? "status" = some (some (.str "pending")) :=
    get?_pending_of_not_mem fun hmem => hK ((hm.keys _).mp hmem)
  unfold Done
  rw [hstatus]
  decide

end Record

namespace Faithful

theorem nil : Faithful K [] [] :=
  ⟨fun r hr => absurd hr List.not_mem_nil, fun i j r q hr => absurd hr (by simp),
    fun m hm => absurd hm List.not_mem_nil, fun r hr => absurd hr List.not_mem_nil, .nil⟩

/-- A case has at most one record. -/
theorem unique (h : Faithful K P L) (hm : CaseTexts K m) (hi : P[i]? = some r) (hj : P[j]? = some q)
    (hr : r.covers m = true) (hq : q.covers m = true) : i = j :=
  h.apart i j r q hi hj (Record.agree_of_covers hm hr hq)

/-- A case is done if and only if the record that covers it says so. -/
theorem done_iff (h : Faithful K P L) (hm : CaseTexts K m) (hr : r ∈ P)
    (hcovers : r.covers m = true) :
    r.Done ↔ ∃ n ∈ L, ∀ k, n.get? k = m.get? k := by
  rw [h.truthful r hr]
  constructor
  · rintro ⟨n, hn, hrn⟩
    exact ⟨n, hn, Record.same_of_covers (h.known n hn).1 hm hrn hcovers⟩
  · rintro ⟨n, hn, hsame⟩
    refine ⟨n, hn, Record.covers_iff.mpr fun k v hv => ?_⟩
    rw [hsame k] at hv
    exact Record.covers_iff.mp hcovers k v hv

/-! ## Storing -/

theorem get?_stored_of_key (h : Faithful K P L) (hr : r ∈ P) {k : String} (hk : K k) :
    (r.stored (fieldnames P) (nodup_fieldnames P)).get? k = r.get? k := by
  obtain ⟨v, hv⟩ := (h.sound r hr).fields k hk
  have hmem : k ∈ fieldnames P := mem_fieldnames.mpr ⟨r, hr, Dict.mem_keys.mpr ⟨_, hv⟩⟩
  rw [Record.get?_stored _ hmem, Record.cell_of_get? hv, hv]

theorem status_stored (h : Faithful K P L) (hr : r ∈ P) :
    (r.stored (fieldnames P) (nodup_fieldnames P)).get? "status" = r.get? "status" := by
  obtain ⟨v, hv, -⟩ := (h.sound r hr).status
  have hmem : "status" ∈ fieldnames P := mem_fieldnames.mpr ⟨r, hr, Dict.mem_keys.mpr ⟨_, hv⟩⟩
  rw [Record.get?_stored _ hmem, Record.cell_of_get? hv, hv]

/-- The records that are loaded from the file tell the same. -/
theorem stored (h : Faithful K P L) : Faithful K (stored P) L := by
  have hcovers : ∀ r ∈ P, ∀ m, CaseTexts K m →
      (r.stored (fieldnames P) (nodup_fieldnames P)).covers m = r.covers m := fun r hr m hm =>
    Record.covers_congr hm fun k hk => h.get?_stored_of_key hr hk
  have hplace : ∀ (i : Nat) (q : Record), (Sunstorm.stored P)[i]? = some q →
      ∃ r, P[i]? = some r ∧ q = r.stored (fieldnames P) (nodup_fieldnames P) := by
    intro i q hq
    unfold Sunstorm.stored at hq
    rw [List.getElem?_map] at hq
    obtain ⟨r, hr, rfl⟩ := Option.map_eq_some_iff.mp hq
    exact ⟨r, hr, rfl⟩
  constructor
  · intro q hq
    obtain ⟨r, hr, rfl⟩ := List.mem_map.mp hq
    have hsound := h.sound r hr
    refine ⟨⟨fun k hk => ?_, fun k v hv => ?_⟩, fun k hk => ?_, ?_⟩
    · rw [Record.keys_stored] at hk
      obtain ⟨p, hp, hkp⟩ := mem_fieldnames.mp hk
      exact (h.sound p hp).storable.keys k hkp
    · have hmem : k ∈ fieldnames P := by
        rw [← Record.keys_stored (r := r) (nodup_fieldnames P)]
        exact Dict.mem_keys.mpr ⟨_, hv⟩
      rw [Record.get?_stored _ hmem] at hv
      obtain rfl := Option.some.inj (Option.some.inj hv)
      exact hsound.storable.cell k
    · rw [h.get?_stored_of_key hr hk]
      exact hsound.fields k hk
    · rw [h.status_stored hr]
      exact hsound.status
  · intro i j q q' hq hq' hagree
    obtain ⟨r, hr, rfl⟩ := hplace i q hq
    obtain ⟨r', hr', rfl⟩ := hplace j q' hq'
    refine h.apart i j r r' hr hr' fun k hk => ?_
    have hkey := hagree k hk
    rw [h.get?_stored_of_key (List.mem_of_getElem? hr) hk,
      h.get?_stored_of_key (List.mem_of_getElem? hr') hk] at hkey
    exact hkey
  · intro m hm
    obtain ⟨hcase, r, hr, hrm⟩ := h.known m hm
    exact ⟨hcase, _, List.mem_map.mpr ⟨r, hr, rfl⟩, (hcovers r hr m hcase).trans hrm⟩
  · intro q hq
    obtain ⟨r, hr, rfl⟩ := List.mem_map.mp hq
    unfold Record.Done
    rw [h.status_stored hr]
    refine (h.truthful r hr).trans (exists_congr fun m => and_congr_right fun hm => ?_)
    rw [hcovers r hr m (h.known m hm).1]
  · exact h.once

/-! ## Adding a record -/

theorem push (h : Faithful K P L) (hm : CaseTexts K m) (hK : ¬K "status")
    (hnew : ∀ r ∈ P, r.covers m = false) : Faithful K (P ++ [.pending m]) L := by
  have hdiffer : ∀ r ∈ P, ¬∀ k, K k → r.get? k = (Record.pending m).get? k := by
    intro r hr hagree
    have hcovers := Record.covers_congr hm hagree
    rw [Record.covers_pending, hnew r hr] at hcovers
    exact absurd hcovers (by simp)
  have hplace : ∀ (i : Nat) (r : Record), (P ++ [Record.pending m])[i]? = some r →
      P[i]? = some r ∨ i = P.length ∧ r = Record.pending m := by
    intro i r hr
    by_cases hi : i < P.length
    · rw [List.getElem?_append_left hi] at hr
      exact Or.inl hr
    · rw [List.getElem?_append_right (by omega)] at hr
      have hzero : i - P.length = 0 := by
        have hlt := (List.getElem?_eq_some_iff.mp hr).1
        rw [List.length_singleton] at hlt
        omega
      rw [hzero] at hr
      exact Or.inr ⟨by omega, (Option.some.inj hr).symm⟩
  constructor
  · intro r hr
    rcases List.mem_append.mp hr with hr | hr
    · exact h.sound r hr
    · rw [List.mem_singleton.mp hr]
      exact Record.sound_pending hm hK
  · intro i j r q hr hq hagree
    rcases hplace i r hr with hr | ⟨hi, rfl⟩
    · rcases hplace j q hq with hq | ⟨hj, rfl⟩
      · exact h.apart i j r q hr hq hagree
      · exact absurd hagree (hdiffer r (List.mem_of_getElem? hr))
    · rcases hplace j q hq with hq | ⟨hj, rfl⟩
      · exact absurd (fun k hk => (hagree k hk).symm) (hdiffer q (List.mem_of_getElem? hq))
      · exact hi.trans hj.symm
  · intro n hn
    obtain ⟨hcase, r, hr, hrn⟩ := h.known n hn
    exact ⟨hcase, r, List.mem_append_left _ hr, hrn⟩
  · intro r hr
    rcases List.mem_append.mp hr with hr | hr
    · exact h.truthful r hr
    · rw [List.mem_singleton.mp hr]
      refine ⟨fun hdone => absurd hdone (Record.not_done_pending hm hK), ?_⟩
      rintro ⟨n, hn, hcovers⟩
      obtain ⟨hcase, r, hr, hrn⟩ := h.known n hn
      exact absurd (Record.agree_of_covers hcase hrn hcovers) (hdiffer r hr)
  · exact h.once

/-! ## Updating a record -/

theorem place_set (hi : P[i]? = some r) {j : Nat} (hq : (P.set i r')[j]? = some q) :
    j = i ∧ q = r' ∨ j ≠ i ∧ P[j]? = some q := by
  by_cases hj : j = i
  · subst hj
    rw [List.getElem?_set_self (List.getElem?_eq_some_iff.mp hi).1] at hq
    exact Or.inl ⟨rfl, (Option.some.inj hq).symm⟩
  · rw [List.getElem?_set_ne (Ne.symm hj)] at hq
    exact Or.inr ⟨hj, hq⟩

/-- Replacing a record by one about the same case, which says what is true of the cases `L'`. -/
theorem replace (h : Faithful K P L) (hi : P[i]? = some r)
    (hagree : ∀ k, K k → r'.get? k = r.get? k)
    (hsound : r'.Sound K) {L' : List (Dict String String)}
    (hknown : ∀ m ∈ L', CaseTexts K m ∧ (m ∈ L ∨ r.covers m = true)) (hsub : ∀ m ∈ L, m ∈ L')
    (htruthful : r'.Done ↔ ∃ m ∈ L', r.covers m = true)
    (honce : L'.Pairwise fun m n => ∃ k, m.get? k ≠ n.get? k) : Faithful K (P.set i r') L' := by
  have hlength := (List.getElem?_eq_some_iff.mp hi).1
  have hself : r' ∈ P.set i r' := List.mem_of_getElem? (List.getElem?_set_self hlength)
  have hback : ∀ q ∈ P.set i r', q = r' ∨ ∃ j, j ≠ i ∧ P[j]? = some q := by
    intro q hq
    obtain ⟨j, hj⟩ := List.mem_iff_getElem?.mp hq
    rcases place_set hi hj with ⟨-, rfl⟩ | ⟨hne, hj⟩
    · exact Or.inl rfl
    · exact Or.inr ⟨j, hne, hj⟩
  constructor
  · intro q hq
    rcases hback q hq with rfl | ⟨j, -, hj⟩
    · exact hsound
    · exact h.sound q (List.mem_of_getElem? hj)
  · intro j l q p hq hp hsame
    rcases place_set hi hq with ⟨rfl, rfl⟩ | ⟨-, hq₁⟩
    · rcases place_set hi hp with ⟨rfl, rfl⟩ | ⟨-, hp₁⟩
      · rfl
      · exact h.apart j l r p hi hp₁ fun k hk => (hagree k hk).symm.trans (hsame k hk)
    · rcases place_set hi hp with ⟨rfl, rfl⟩ | ⟨-, hp₁⟩
      · exact h.apart j l q r hq₁ hi fun k hk => (hsame k hk).trans (hagree k hk)
      · exact h.apart j l q p hq₁ hp₁ hsame
  · intro m hm
    obtain ⟨hcase, hmem | hcovers⟩ := hknown m hm
    · obtain ⟨-, q, hq, hqm⟩ := h.known m hmem
      obtain ⟨j, hj⟩ := List.mem_iff_getElem?.mp hq
      by_cases hji : j = i
      · subst hji
        rw [hi] at hj
        obtain rfl := Option.some.inj hj
        exact ⟨hcase, r', hself, (Record.covers_congr hcase hagree).trans hqm⟩
      · refine ⟨hcase, q, List.mem_of_getElem? (i := j) ?_, hqm⟩
        rw [List.getElem?_set_ne (Ne.symm hji)]
        exact hj
    · exact ⟨hcase, r', hself, (Record.covers_congr hcase hagree).trans hcovers⟩
  · intro q hq
    rcases hback q hq with rfl | ⟨j, hne, hj⟩
    · refine htruthful.trans (exists_congr fun m => and_congr_right fun hm => ?_)
      rw [Record.covers_congr (hknown m hm).1 hagree]
    · rw [h.truthful q (List.mem_of_getElem? hj)]
      constructor
      · rintro ⟨m, hm, hqm⟩
        exact ⟨m, hsub m hm, hqm⟩
      · rintro ⟨m, hm, hqm⟩
        obtain ⟨hcase, hmem | hcovers⟩ := hknown m hm
        · exact ⟨m, hmem, hqm⟩
        · exact absurd (h.unique hcase hj hi hqm hcovers) hne
  · exact honce

/-- An update that does not change whether the case is done. -/
theorem set (h : Faithful K P L) (hi : P[i]? = some r) (hagree : ∀ k, K k → r'.get? k = r.get? k)
    (hsound : r'.Sound K) (hdone : r'.Done ↔ r.Done) : Faithful K (P.set i r') L :=
  h.replace hi hagree hsound (fun m hm => ⟨(h.known m hm).1, Or.inl hm⟩) (fun _ hm => hm)
    (hdone.trans (h.truthful r (List.mem_of_getElem? hi))) h.once

/-- The case of the record was executed with success. -/
theorem succeed (h : Faithful K P L) (hi : P[i]? = some r)
    (hagree : ∀ k, K k → r'.get? k = r.get? k)
    (hsound : r'.Sound K) (hnot : ¬r.Done) (hdone : r'.Done) (hm : CaseTexts K m)
    (hcovers : r.covers m = true) : Faithful K (P.set i r') (L ++ [m]) := by
  have hfresh : ∀ n ∈ L, ∃ k, n.get? k ≠ m.get? k := by
    intro n hn
    by_contra hsame
    refine hnot ((h.done_iff hm (List.mem_of_getElem? hi) hcovers).mpr ⟨n, hn, fun k => ?_⟩)
    by_contra hne
    exact hsame ⟨k, hne⟩
  refine h.replace hi hagree hsound (fun n hn => ?_) (fun n hn => List.mem_append_left _ hn)
    ⟨fun _ => ⟨m, List.mem_append_right _ (List.mem_singleton_self m), hcovers⟩, fun _ => hdone⟩ ?_
  · rcases List.mem_append.mp hn with hn | hn
    · exact ⟨(h.known n hn).1, Or.inl hn⟩
    · rw [List.mem_singleton.mp hn]
      exact ⟨hm, Or.inr hcovers⟩
  · refine List.pairwise_append.mpr ⟨h.once, List.pairwise_singleton _ _, fun n hn m' hm' => ?_⟩
    rw [List.mem_singleton.mp hm']
    exact hfresh n hn

end Faithful

end Sunstorm
