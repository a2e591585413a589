import Sunstorm.Regex.Regex

/-!
# Proofs: the search finds what the expression describes

The engine enumerates exactly the beginnings that the expression describes, so the search succeeds
if and only if a part of the text is described, and what it gives are groups of such a part.
-/

namespace Regex

variable {p : Char → Bool} {cs t rest : List Char}

theorem mem_runs_iff {x : List Char × List Char} :
    x ∈ runs p cs ↔ cs = x.1 ++ x.2 ∧ x.1 ≠ [] ∧ ∀ c ∈ x.1, p c = true := by
  induction cs generalizing x with
  | nil =>
    constructor
    · intro h
      exact absurd h List.not_mem_nil
    · rintro ⟨h, hne, -⟩
      exact absurd (List.append_eq_nil_iff.mp h.symm).1 hne
  | cons c cs ih =>
    unfold runs
    split_ifs with hc
    · rw [List.mem_append, List.mem_map, List.mem_singleton]
      constructor
      · rintro (⟨y, hy, rfl⟩ | rfl)
        · obtain ⟨hcs, -, hall⟩ := ih.mp hy
          refine ⟨by rw [hcs, List.cons_append], List.cons_ne_nil _ _, fun d hd => ?_⟩
          rcases List.mem_cons.mp hd with rfl | hd
          · exact hc
          · exact hall d hd
        · refine ⟨rfl, List.cons_ne_nil _ _, fun d hd => ?_⟩
          rw [List.mem_singleton.mp hd]
          exact hc
      · obtain ⟨w, r⟩ := x
        rintro ⟨heq, hne, hall⟩
        cases w with
        | nil => exact absurd rfl hne
        | cons d w =>
          obtain ⟨rfl, heq⟩ := List.cons.inj heq
          cases w with
          | nil => exact Or.inr (by rw [heq]; rfl)
          | cons e w =>
            have hmem : (e :: w, r) ∈ runs p cs :=
              ih.mpr ⟨heq, List.cons_ne_nil _ _, fun x hx => hall x (List.mem_cons_of_mem _ hx)⟩
            exact Or.inl ⟨_, hmem, rfl⟩
    · constructor
      · intro h
        exact absurd h List.not_mem_nil
      · obtain ⟨w, r⟩ := x
        rintro ⟨heq, hne, hall⟩
        cases w with
        | nil => exact absurd rfl hne
        | cons d w =>
          obtain ⟨rfl, -⟩ := List.cons.inj heq
          exact absurd (hall c List.mem_cons_self) hc

theorem strip_eq_some_iff : strip t cs = some rest ↔ cs = t ++ rest := by
  induction t generalizing cs with
  | nil =>
    rw [strip, Option.some_inj]
    rfl
  | cons c t ih =>
    cases cs with
    | nil => simp [strip]
    | cons d cs =>
      rw [strip, List.cons_append, List.cons.injEq]
      split_ifs with h
      · rw [ih]
        exact ⟨fun heq => ⟨h.symm, heq⟩, fun heq => heq.2⟩
      · exact ⟨fun heq => absurd heq (by simp), fun heq => absurd heq.1.symm h⟩

namespace Pattern

/-! ## What expressions describe -/

section Describes

variable {a b : Pattern} {w : List Char} {gs : List (List Char)}

theorem describes_text_seq :
    (seq (text t) b).Describes w gs ↔ ∃ v, w = t ++ v ∧ b.Describes v gs := by
  constructor
  · rintro ⟨u, v, hs, ks, rfl, rfl, ⟨rfl, rfl⟩, hb⟩
    exact ⟨v, rfl, hb⟩
  · rintro ⟨v, rfl, hb⟩
    exact ⟨t, v, [], gs, rfl, rfl, ⟨rfl, rfl⟩, hb⟩

theorem describes_many_seq :
    (seq (many p) b).Describes w gs ↔
      ∃ u v, w = u ++ v ∧ u ≠ [] ∧ (∀ c ∈ u, p c = true) ∧ b.Describes v gs := by
  constructor
  · rintro ⟨u, v, hs, ks, rfl, rfl, ⟨hne, hall, rfl⟩, hb⟩
    exact ⟨u, v, rfl, hne, hall, hb⟩
  · rintro ⟨u, v, rfl, hne, hall, hb⟩
    exact ⟨u, v, [], gs, rfl, rfl, ⟨hne, hall, rfl⟩, hb⟩

theorem describes_group_seq :
    (seq (group a) b).Describes w gs ↔
      ∃ u v hs ks, w = u ++ v ∧ gs = u :: hs ++ ks ∧ a.Describes u hs ∧ b.Describes v ks := by
  constructor
  · rintro ⟨u, v, hs, ks, rfl, rfl, ⟨gs, rfl, ha⟩, hb⟩
    exact ⟨u, v, gs, ks, rfl, rfl, ha, hb⟩
  · rintro ⟨u, v, hs, ks, rfl, rfl, ha, hb⟩
    exact ⟨u, v, u :: hs, ks, rfl, rfl, ⟨hs, rfl, ha⟩, hb⟩

end Describes

/-! ## The search -/

/-- The matches at the beginning are the beginnings that the expression describes. -/
theorem mem_begins_iff {r : Pattern} {x : Match} :
    x ∈ r.begins cs ↔ cs = x.text ++ x.rest ∧ r.Describes x.text x.groups := by
  induction r generalizing cs x with
  | text t =>
    simp only [begins, List.mem_map, Option.mem_toList, strip_eq_some_iff]
    constructor
    · rintro ⟨rest, hcs, rfl⟩
      exact ⟨hcs, rfl, rfl⟩
    · rintro ⟨hcs, hw, hgs⟩
      refine ⟨x.rest, hw ▸ hcs, ?_⟩
      rw [← hw, ← hgs]
  | many p =>
    simp only [begins, List.mem_map, mem_runs_iff]
    constructor
    · rintro ⟨y, ⟨hcs, hne, hall⟩, rfl⟩
      exact ⟨hcs, hne, hall, rfl⟩
    · rintro ⟨hcs, hne, hall, hgs⟩
      refine ⟨(x.text, x.rest), ⟨hcs, hne, hall⟩, ?_⟩
      rw [← hgs]
  | seq a b iha ihb =>
    simp only [begins, List.mem_flatMap, List.mem_map, iha, ihb]
    constructor
    · rintro ⟨y, ⟨hcs, hy⟩, z, ⟨hrest, hz⟩, rfl⟩
      refine ⟨?_, y.text, z.text, y.groups, z.groups, rfl, rfl, hy, hz⟩
      rw [hcs, hrest, List.append_assoc]
    · rintro ⟨hcs, u, v, hs, ks, hw, hgs, ha, hb⟩
      refine ⟨⟨u, hs, v ++ x.rest⟩, ⟨?_, ha⟩, ⟨v, ks, x.rest⟩, ⟨rfl, hb⟩, ?_⟩
      · rw [hcs, hw, List.append_assoc]
      · rw [← hw, ← hgs]
  | alt a b iha ihb =>
    rw [begins, List.mem_append, iha, ihb, ← and_or_left]
    rfl
  | group a ih =>
    simp only [begins, List.mem_map, ih]
    constructor
    · rintro ⟨y, ⟨hcs, hy⟩, rfl⟩
      exact ⟨hcs, y.groups, rfl, hy⟩
    · rintro ⟨hcs, hs, hgs, ha⟩
      refine ⟨⟨x.text, hs, x.rest⟩, ⟨hcs, ha⟩, ?_⟩
      rw [← hgs]

/-- The search gives a match at the beginning, or what it gives for the rest of the text. -/
theorem search_cons {r : Pattern} {c : Char} {gs : List (List Char)}
    (h : r.search (c :: cs) = some gs) :
    (∃ x ∈ r.begins (c :: cs), x.groups = gs) ∨
      r.begins (c :: cs) = [] ∧ r.search cs = some gs := by
  unfold search at h
  cases hx : (r.begins (c :: cs)).head? with
  | some x =>
    rw [hx] at h
    exact Or.inl ⟨x, List.mem_of_head? hx, Option.some.inj h⟩
  | none =>
    rw [hx] at h
    exact Or.inr ⟨List.head?_eq_none_iff.mp hx, h⟩

/-- **What the search gives are the groups of a part of the text.** -/
theorem describes_of_search {r : Pattern} {gs : List (List Char)} (h : r.search cs = some gs) :
    ∃ before w after, cs = before ++ w ++ after ∧ r.Describes w gs := by
  induction cs with
  | nil =>
    obtain ⟨x, hx, rfl⟩ := Option.map_eq_some_iff.mp h
    obtain ⟨heq, hd⟩ := mem_begins_iff.mp (List.mem_of_head? hx)
    exact ⟨[], x.text, x.rest, heq, hd⟩
  | cons c cs ih =>
    rcases search_cons h with ⟨x, hx, rfl⟩ | ⟨-, h⟩
    · obtain ⟨heq, hd⟩ := mem_begins_iff.mp hx
      exact ⟨[], x.text, x.rest, heq, hd⟩
    · obtain ⟨before, w, after, rfl, hd⟩ := ih h
      exact ⟨c :: before, w, after, rfl, hd⟩

/-- The search finds a part of the text that is described, if there is one. -/
theorem search_isSome {r : Pattern} {before w after : List Char} {gs : List (List Char)}
    (hd : r.Describes w gs) : (r.search (before ++ w ++ after)).isSome = true := by
  have hmem : (⟨w, gs, after⟩ : Match) ∈ r.begins (w ++ after) := mem_begins_iff.mpr ⟨rfl, hd⟩
  have hsome : ∃ x, (r.begins (w ++ after)).head? = some x :=
    Option.isSome_iff_exists.mp (List.isSome_head?.mpr (List.ne_nil_of_mem hmem))
  induction before with
  | nil =>
    obtain ⟨x, hx⟩ := hsome
    rw [List.nil_append]
    cases hcs : w ++ after with
    | nil =>
      rw [hcs] at hx
      rw [search, hx]
      rfl
    | cons c cs =>
      rw [hcs] at hx
      rw [search, hx]
      rfl
  | cons c before ih =>
    rw [List.cons_append, List.cons_append]
    unfold search
    cases (r.begins (c :: (before ++ w ++ after))).head? with
    | some x => rfl
    | none => exact ih

end Pattern

end Regex
