import Mathlib.Data.List.Basic

/-!
# Proofs: words joined by a character

All that can be read off a text of joined words is its pieces between the joining characters. They
tell the words as long as it is known, for all words but one, how often they contain the character
themselves.
-/

namespace Codec

/-- The pieces of the words between the characters `c`. -/
def pieces (c : Char) (words : List String) : List (List Char) :=
  words.flatMap fun w => w.toList.splitOn c

variable {c : Char} {words words' : List String}

theorem pieces_append : pieces c (words ++ words') = pieces c words ++ pieces c words' :=
  List.flatMap_append

theorem pieces_cons (w : String) : pieces c (w :: words) = w.toList.splitOn c ++ pieces c words :=
  List.flatMap_cons

/-- Words without the character are their own pieces. -/
theorem pieces_of_free (h : ∀ w ∈ words, c ∉ w.toList) : pieces c words = words.map String.toList := by
  induction words with
  | nil => rfl
  | cons w words ih =>
    rw [pieces_cons, List.splitOn_eq_singleton (h w List.mem_cons_self),
      ih fun x hx => h x (List.mem_cons_of_mem w hx)]
    rfl

/-- The joined text is split into the pieces of the words. -/
theorem splitOn_join (h : words ≠ []) :
    ((String.singleton c).intercalate words).toList.splitOn c = pieces c words := by
  have hc : (String.singleton c).toList = [c] := by simp
  rw [String.toList_intercalate, hc]
  induction words with
  | nil => exact absurd rfl h
  | cons w words ih =>
    cases words with
    | nil => simp [pieces]
    | cons w' words =>
      rw [pieces_cons, ← ih (by simp), List.map_cons, List.map_cons, List.intercalate_cons_cons,
        List.append_assoc, List.singleton_append, List.splitOn_append_cons_self]

/-- Joining brings no other character in. -/
theorem not_mem_join {d : Char} (hd : d ≠ c) (h : ∀ w ∈ words, d ∉ w.toList) :
    d ∉ ((String.singleton c).intercalate words).toList := by
  have hc : (String.singleton c).toList = [c] := by simp
  rw [String.toList_intercalate, hc]
  induction words with
  | nil => exact List.not_mem_nil
  | cons w words ih =>
    have ih := ih fun x hx => h x (List.mem_cons_of_mem w hx)
    have hw := h w List.mem_cons_self
    cases words with
    | nil => simpa using hw
    | cons w' words =>
      rw [List.map_cons, List.map_cons, List.intercalate_cons_cons, List.mem_append,
        List.mem_append, List.mem_singleton]
      rintro ((hmem | hmem) | hmem)
      · exact hw hmem
      · exact hd hmem
      · exact ih hmem

/-- Joined texts are the same where the pieces of the words are. -/
theorem join_eq_iff (h : words ≠ []) (h' : words' ≠ []) :
    (String.singleton c).intercalate words = (String.singleton c).intercalate words' ↔
      pieces c words = pieces c words' := by
  constructor
  · intro heq
    rw [← splitOn_join h, heq, splitOn_join h']
  · intro heq
    rw [← splitOn_join h, ← splitOn_join h'] at heq
    have hjoin := congrArg (List.intercalate [c]) heq
    rw [List.intercalate_splitOn, List.intercalate_splitOn] at hjoin
    exact String.toList_injective hjoin

/-- A word with `n` of the characters has `n + 1` pieces. -/
theorem length_splitOn (cs : List Char) : (cs.splitOn c).length = cs.count c + 1 := by
  unfold List.splitOn
  induction cs with
  | nil => rfl
  | cons d cs ih =>
    rw [List.splitOnP_cons_eq_if_modifyHead, List.count_cons]
    split_ifs with hd
    · rw [List.length_cons, ih]
    · rw [List.length_modifyHead, ih, Nat.add_zero]

theorem splitOn_inj {w w' : String} (h : w.toList.splitOn c = w'.toList.splitOn c) : w = w' := by
  have hjoin := congrArg (List.intercalate [c]) h
  rw [List.intercalate_splitOn, List.intercalate_splitOn] at hjoin
  exact String.toList_injective hjoin

/-- Labelled words of which the label says how often they contain the character have as many pieces
as the labels say. -/
theorem length_pieces_eq {κ : Type} {count : κ → Nat} {l l' : List (κ × String)}
    (hkeys : l.map Prod.fst = l'.map Prod.fst) (hl : ∀ e ∈ l, e.2.toList.count c = count e.1)
    (hl' : ∀ e ∈ l', e.2.toList.count c = count e.1) :
    (pieces c (l.map Prod.snd)).length = (pieces c (l'.map Prod.snd)).length := by
  have hsum : ∀ {l : List (κ × String)}, (∀ e ∈ l, e.2.toList.count c = count e.1) →
      (pieces c (l.map Prod.snd)).length = ((l.map Prod.fst).map fun k => count k + 1).sum := by
    intro l hl
    induction l with
    | nil => rfl
    | cons e l ih =>
      rw [List.map_cons, pieces_cons, List.length_append, length_splitOn, hl e List.mem_cons_self,
        ih fun x hx => hl x (List.mem_cons_of_mem e hx)]
      rfl
  rw [hsum hl, hsum hl', hkeys]

/-- Labelled words are told by their pieces, if the label says how often the word contains the
character, but for one label. -/
theorem eq_of_pieces_eq {κ : Type} (k₀ : κ) {count : κ → Nat} {l l' : List (κ × String)}
    (hkeys : l.map Prod.fst = l'.map Prod.fst) (hnodup : (l.map Prod.fst).Nodup)
    (hl : ∀ e ∈ l, e.1 ≠ k₀ → e.2.toList.count c = count e.1)
    (hl' : ∀ e ∈ l', e.1 ≠ k₀ → e.2.toList.count c = count e.1)
    (h : pieces c (l.map Prod.snd) = pieces c (l'.map Prod.snd)) : l = l' := by
  induction l generalizing l' with
  | nil =>
    rw [List.map_nil, eq_comm, List.map_eq_nil_iff] at hkeys
    exact hkeys.symm
  | cons e l ih =>
    cases l' with
    | nil => exact absurd hkeys (by simp)
    | cons e' l' =>
      obtain ⟨k, w⟩ := e
      obtain ⟨k', w'⟩ := e'
      obtain ⟨hkk, hrest⟩ : k = k' ∧ l.map Prod.fst = l'.map Prod.fst := List.cons.inj hkeys
      subst hkk
      obtain ⟨hk, hnodup⟩ : k ∉ l.map Prod.fst ∧ (l.map Prod.fst).Nodup := List.nodup_cons.mp hnodup
      rw [List.map_cons, List.map_cons, pieces_cons, pieces_cons] at h
      obtain ⟨hw, hpieces⟩ : w.toList.splitOn c = w'.toList.splitOn c ∧
          pieces c (l.map Prod.snd) = pieces c (l'.map Prod.snd) := by
        by_cases hk₀ : k = k₀
        · -- the number of all other pieces is known, so this word has what is left
          have hother : ∀ e ∈ l, e.1 ≠ k₀ := fun e he heq =>
            hk (List.mem_map.mpr ⟨e, he, heq.trans hk₀.symm⟩)
          have hother' : ∀ e ∈ l', e.1 ≠ k₀ := fun e he heq =>
            hk (hrest ▸ List.mem_map.mpr ⟨e, he, heq.trans hk₀.symm⟩)
          exact List.append_inj' h (length_pieces_eq hrest
            (fun e he => hl e (List.mem_cons_of_mem _ he) (hother e he))
            fun e he => hl' e (List.mem_cons_of_mem _ he) (hother' e he))
        · refine List.append_inj h ?_
          rw [length_splitOn, length_splitOn, hl (k, w) List.mem_cons_self hk₀,
            hl' (k, w') List.mem_cons_self hk₀]
      rw [splitOn_inj hw, ih hrest hnodup (fun e he => hl e (List.mem_cons_of_mem _ he))
        (fun e he => hl' e (List.mem_cons_of_mem _ he)) hpieces]

end Codec
