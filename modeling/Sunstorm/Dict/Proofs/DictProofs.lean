import Sunstorm.Dict.Dict

/-!
# Proofs: dictionaries
-/

namespace Dict

variable {κ α : Type} {d d' : Dict κ α} {k : κ} {v : α}

theorem ext_entries (h : d.entries = d'.entries) : d = d' := by
  cases d
  cases d'
  cases h
  rfl

theorem keys_map {β : Type} (f : κ → α → β) : (d.map f).keys = d.keys := by
  unfold keys map
  rw [List.map_map]
  rfl

variable [DecidableEq κ]

theorem get?_eq_some : d.get? k = some v ↔ (k, v) ∈ d.entries := by
  unfold get?
  constructor
  · intro h
    obtain ⟨e, hfind, rfl⟩ := Option.map_eq_some_iff.mp h
    have hk : e.1 = k := by simpa using List.find?_some hfind
    rw [← hk]
    exact List.mem_of_find?_eq_some hfind
  · intro h
    cases hfind : d.entries.find? (fun e => e.1 = k) with
    | none => exact absurd (List.find?_eq_none.mp hfind _ h) (by simp)
    | some e =>
      have hk : e.1 = k := by simpa using List.find?_some hfind
      have hmem := List.mem_of_find?_eq_some hfind
      have heq : e = (k, v) := List.inj_on_of_nodup_map d.nodup hmem h hk
      rw [heq]
      rfl

theorem get?_map {β : Type} {f : κ → α → β} {w : β} (h : (d.map f).get? k = some w) :
    ∃ v, d.get? k = some v ∧ w = f k v := by
  obtain ⟨⟨k', v⟩, hmem, heq⟩ := List.mem_map.mp (get?_eq_some.mp h)
  obtain ⟨rfl, rfl⟩ := Prod.mk.inj heq
  exact ⟨v, get?_eq_some.mpr hmem, rfl⟩

theorem mem_keys : k ∈ d.keys ↔ ∃ v, d.get? k = some v := by
  unfold keys
  rw [List.mem_map]
  constructor
  · rintro ⟨⟨k', v⟩, hmem, rfl⟩
    exact ⟨v, get?_eq_some.mpr hmem⟩
  · rintro ⟨v, hv⟩
    exact ⟨(k, v), get?_eq_some.mp hv, rfl⟩

/-- Dictionaries with the same keys in the same order and the same values are the same. -/
theorem ext_get? (hkeys : d.keys = d'.keys) (h : ∀ k ∈ d.keys, d.get? k = d'.get? k) : d = d' := by
  have hlen : d.entries.length = d'.entries.length := by
    have hlen := congrArg List.length hkeys
    unfold keys at hlen
    rwa [List.length_map, List.length_map] at hlen
  refine ext_entries (List.ext_getElem hlen fun i hi hi' => ?_)
  have hkey : d.entries[i].1 = d'.entries[i].1 := by
    have hget := List.getElem_of_eq hkeys (i := i) (by unfold keys; rwa [List.length_map])
    simpa [keys] using hget
  have hv : d.get? d.entries[i].1 = some d.entries[i].2 := get?_eq_some.mpr (List.getElem_mem hi)
  have hv' : d'.get? d'.entries[i].1 = some d'.entries[i].2 := get?_eq_some.mpr (List.getElem_mem hi')
  rw [h _ (mem_keys.mpr ⟨_, hv⟩), hkey, hv'] at hv
  exact Prod.ext hkey (Option.some.inj hv).symm

theorem keys_set_of_mem (h : k ∈ d.keys) : (d.set k v).keys = d.keys := by
  unfold set
  rw [dif_pos h]
  exact map_fst_overwrite k v d.entries

theorem entries_set_of_not_mem (h : k ∉ d.keys) : (d.set k v).entries = d.entries ++ [(k, v)] := by
  unfold set
  rw [dif_neg h]

theorem keys_set_of_not_mem (h : k ∉ d.keys) : (d.set k v).keys = d.keys ++ [k] := by
  unfold keys
  rw [entries_set_of_not_mem h, List.map_append]
  rfl

theorem mem_entries_set {e : κ × α} :
    e ∈ (d.set k v).entries ↔ e = (k, v) ∨ e ∈ d.entries ∧ e.1 ≠ k := by
  by_cases hk : k ∈ d.keys
  · unfold set
    rw [dif_pos hk]
    constructor
    · intro h
      obtain ⟨e', he', rfl⟩ := List.mem_map.mp h
      unfold overwrite
      by_cases heq : e'.1 = k
      · exact Or.inl (if_pos heq)
      · rw [if_neg heq]
        exact Or.inr ⟨he', heq⟩
    · rintro (rfl | ⟨he, hne⟩)
      · obtain ⟨w, hw⟩ := mem_keys.mp hk
        exact List.mem_map.mpr ⟨(k, w), get?_eq_some.mp hw, if_pos rfl⟩
      · exact List.mem_map.mpr ⟨e, he, if_neg hne⟩
  · rw [entries_set_of_not_mem hk, List.mem_append, List.mem_singleton, or_comm]
    refine or_congr_right ⟨fun he => ⟨he, ?_⟩, And.left⟩
    rintro rfl
    exact hk (List.mem_map.mpr ⟨e, he, rfl⟩)

/-- Setting several keys replaces their entries and keeps the others. -/
theorem mem_entries_setAll {l : List (κ × α)} (hl : (l.map Prod.fst).Nodup) {e : κ × α} :
    e ∈ (d.setAll l).entries ↔ e ∈ l ∨ e ∈ d.entries ∧ e.1 ∉ l.map Prod.fst := by
  induction l generalizing d with
  | nil => simp [setAll]
  | cons e' l ih =>
    obtain ⟨hnew, hl⟩ := List.nodup_cons.mp hl
    have hstep : d.setAll (e' :: l) = (d.set e'.1 e'.2).setAll l := rfl
    rw [hstep, ih hl, mem_entries_set, List.mem_cons, List.map_cons, List.mem_cons, not_or]
    constructor
    · rintro (h | ⟨rfl | ⟨h, hne⟩, hnot⟩)
      · exact Or.inl (Or.inr h)
      · exact Or.inl (Or.inl rfl)
      · exact Or.inr ⟨h, hne, hnot⟩
    · rintro ((rfl | h) | ⟨h, hne, hnot⟩)
      · exact Or.inr ⟨Or.inl rfl, hnew⟩
      · exact Or.inl h
      · exact Or.inr ⟨Or.inr ⟨h, hne⟩, hnot⟩

theorem get?_eq_none : d.get? k = none ↔ k ∉ d.keys := by
  rw [mem_keys, Option.eq_none_iff_forall_ne_some, not_exists]

theorem get?_set (k' : κ) : (d.set k v).get? k' = if k' = k then some v else d.get? k' := by
  by_cases hk : k' = k
  · rw [if_pos hk, get?_eq_some, mem_entries_set, hk]
    exact Or.inl rfl
  · rw [if_neg hk]
    ext w
    rw [get?_eq_some, get?_eq_some, mem_entries_set]
    constructor
    · rintro (heq | ⟨hmem, -⟩)
      · exact absurd (Prod.mk.inj heq).1 hk
      · exact hmem
    · exact fun hmem => Or.inr ⟨hmem, hk⟩

theorem get?_setAll_of_mem {l : List (κ × α)} (hl : (l.map Prod.fst).Nodup) (h : (k, v) ∈ l) :
    (d.setAll l).get? k = some v :=
  get?_eq_some.mpr ((mem_entries_setAll hl).mpr (Or.inl h))

theorem get?_setAll_of_not_mem {l : List (κ × α)} (h : k ∉ l.map Prod.fst) :
    (d.setAll l).get? k = d.get? k := by
  induction l generalizing d with
  | nil => rfl
  | cons e l ih =>
    rw [List.map_cons, List.mem_cons, not_or] at h
    have hstep : d.setAll (e :: l) = (d.set e.1 e.2).setAll l := rfl
    rw [hstep, ih h.2, get?_set, if_neg h.1]

theorem mem_keys_setAll {l : List (κ × α)} :
    k ∈ (d.setAll l).keys ↔ k ∈ d.keys ∨ k ∈ l.map Prod.fst := by
  induction l generalizing d with
  | nil => simp [setAll]
  | cons e l ih =>
    have hstep : d.setAll (e :: l) = (d.set e.1 e.2).setAll l := rfl
    have hset : k ∈ (d.set e.1 e.2).keys ↔ k = e.1 ∨ k ∈ d.keys := by
      rw [mem_keys, mem_keys, get?_set]
      by_cases hk : k = e.1
      · simp [hk]
      · simp [hk]
    rw [hstep, ih, hset, List.map_cons, List.mem_cons, or_assoc, or_left_comm]

/-- New keys are added at the end, in their order. -/
theorem entries_setAll {l : List (κ × α)} (h : (d.keys ++ l.map Prod.fst).Nodup) :
    (d.setAll l).entries = d.entries ++ l := by
  induction l generalizing d with
  | nil => simp [setAll]
  | cons e l ih =>
    have hnew : e.1 ∉ d.keys := fun hmem =>
      List.disjoint_of_nodup_append h hmem (by simp)
    have hkeys := keys_set_of_not_mem (v := e.2) hnew
    have hrest : ((d.set e.1 e.2).keys ++ l.map Prod.fst).Nodup := by
      rw [hkeys, List.append_assoc]
      exact h
    have hstep : d.setAll (e :: l) = (d.set e.1 e.2).setAll l := rfl
    rw [hstep, ih hrest, entries_set_of_not_mem hnew, List.append_assoc]
    rfl

end Dict
