import Sunstorm.Codec.Proofs.DecimalProofs
import Sunstorm.Sorting.Sorting

/-!
# Proofs: sorting by a key

The sorted list holds the same elements, and the keys go up in it. Keys that go up strictly are
therefore found in their places. Names that end in a number are compared as texts, so they are in
the order of their numbers as long as these have one digit.
-/

namespace Sorting

open Codec

variable {α κ : Type} [LinearOrder κ] {key : α → κ} {l : List α}

/-! ## Sorting -/

theorem sortBy_perm : (sortBy key l).Perm l := List.perm_insertionSort _ l

@[simp] theorem mem_sortBy {a : α} : a ∈ sortBy key l ↔ a ∈ l := sortBy_perm.mem_iff

@[simp] theorem length_sortBy : (sortBy key l).length = l.length := sortBy_perm.length_eq

theorem pairwise_sortBy (key : α → κ) (l : List α) :
    ((sortBy key l).map key).Pairwise (· ≤ ·) := by
  have : Std.Total fun a b : α => key a ≤ key b := ⟨fun a b => le_total (key a) (key b)⟩
  have : IsTrans α fun a b => key a ≤ key b := ⟨fun _ _ _ => le_trans⟩
  rw [List.pairwise_map]
  exact List.pairwise_insertionSort (fun a b => key a ≤ key b) l

/-- A later element has no smaller key. -/
theorem key_le_of_lt (key : α → κ) {i j : Nat} (hij : i < j) {a b : α}
    (ha : (sortBy key l)[i]? = some a) (hb : (sortBy key l)[j]? = some b) : key a ≤ key b := by
  obtain ⟨hi, rfl⟩ := List.getElem?_eq_some_iff.mp ha
  obtain ⟨hj, rfl⟩ := List.getElem?_eq_some_iff.mp hb
  have hle := List.pairwise_iff_getElem.mp (pairwise_sortBy key l) i j
    (by simpa using hi) (by simpa using hj) hij
  simpa using hle

/-- Keys that go up strictly are the sorted keys of every list that has these keys. -/
theorem map_sortBy_eq_iff {ks : List κ} (h : ks.Pairwise (· < ·)) :
    (sortBy key l).map key = ks ↔ (l.map key).Perm ks := by
  have hperm : ((sortBy key l).map key).Perm (l.map key) := sortBy_perm.map key
  constructor
  · rintro rfl
    exact hperm.symm
  · intro hks
    exact (hperm.trans hks).eq_of_pairwise' (pairwise_sortBy key l) (h.imp le_of_lt)

/-- The keys tell the places if and only if they are `f 0`, `f 1` and so on. -/
theorem key_eq_place_iff {f : Nat → κ} (hf : StrictMono f) :
    (∀ i a, (sortBy key l)[i]? = some a → key a = f i) ↔
      (l.map key).Perm ((List.range l.length).map f) := by
  have hsorted : ((List.range l.length).map f).Pairwise (· < ·) := by
    rw [List.pairwise_map]
    exact List.pairwise_lt_range.imp fun h => hf h
  rw [← map_sortBy_eq_iff hsorted]
  constructor
  · intro h
    refine List.ext_getElem (by simp) fun i hi hi' => ?_
    rw [List.getElem_map, List.getElem_map, List.getElem_range]
    exact h i _ (List.getElem?_eq_getElem _)
  · intro h i a ha
    have hget := congrArg (·[i]?) h
    simp only [List.getElem?_map, ha, Option.map_some] at hget
    obtain ⟨j, hj, hkey⟩ := Option.map_eq_some_iff.mp hget.symm
    obtain ⟨hi, rfl⟩ := List.getElem?_eq_some_iff.mp hj
    rw [← hkey, List.getElem_range]

/-- Lists with the same elements are sorted alike. -/
theorem sortBy_id_congr {l m : List κ} (h : l.Perm m) : sortBy id l = sortBy id m := by
  have hl := pairwise_sortBy id l
  have hm := pairwise_sortBy id m
  rw [List.map_id] at hl hm
  exact ((sortBy_perm.trans h).trans sortBy_perm.symm).eq_of_pairwise' hl hm

/-- A list has the elements of its buckets. -/
theorem perm_buckets {bucket : α → Nat} :
    ∀ {n : Nat} {l : List α}, (∀ a ∈ l, bucket a < n) →
      l.Perm ((List.range n).flatMap fun i => l.filter fun a => bucket a = i)
  | 0, [], _ => .nil
  | 0, a :: l, h => absurd (h a List.mem_cons_self) (Nat.not_lt_zero _)
  | n + 1, l, h => by
    have hlow : ∀ a ∈ l.filter fun a => bucket a < n, bucket a < n := by simp
    have ih := perm_buckets hlow
    have hbuckets : ∀ i ∈ List.range n,
        (l.filter fun a => bucket a < n).filter (fun a => bucket a = i) =
          l.filter fun a => bucket a = i := by
      intro i hi
      have hi := List.mem_range.mp hi
      rw [List.filter_filter]
      refine List.filter_congr fun a _ => ?_
      simp only [Bool.and_eq_left_iff_imp, decide_eq_true_eq]
      omega
    have htop : l.filter (fun a => !decide (bucket a < n)) = l.filter fun a => bucket a = n := by
      refine List.filter_congr fun a ha => ?_
      have := h a ha
      simp only [← decide_not, decide_eq_decide]
      omega
    rw [List.range_succ, List.flatMap_append, List.flatMap_singleton, ← htop,
      ← List.flatMap_congr hbuckets]
    exact (List.filter_append_perm _ l).symm.trans (ih.append_right _)

/-! ## Numbered names -/

variable {base : String} {m n : Nat}

theorem numbered_injective (base : String) : Function.Injective (numbered base) := by
  intro m n h
  exact toString_injective ((String.append_right_inj base).mp h)

/-- A name begins with a character that is no digit if the text before the number does. -/
theorem head?_numbered_iff {c : Char} (hc : c.isDigit = false) :
    (numbered base n).toList.head? = some c ↔ base.toList.head? = some c := by
  rw [numbered, String.toList_append, List.head?_append, Option.or_eq_some_iff]
  constructor
  · rintro (h | ⟨-, h⟩)
    · exact h
    · have hdigit := isDigit_of_mem_repr (List.mem_of_mem_head? h)
      rw [hc] at hdigit
      exact absurd hdigit Bool.false_ne_true
  · exact Or.inl

theorem append_lt_append_iff {a b c : List Char} : a ++ b < a ++ c ↔ b < c := by
  induction a with
  | nil => rfl
  | cons x a ih => rw [List.cons_append, List.cons_append, List.cons_lt_cons_self, ih]

/-- Numbered names are compared by the digits of their numbers. -/
theorem numbered_lt_iff :
    numbered base m < numbered base n ↔ Nat.toDigits 10 m < Nat.toDigits 10 n := by
  rw [String.lt_iff_toList_lt, numbered, numbered, String.toList_append, String.toList_append,
    Nat.toString_eq_repr, Nat.toString_eq_repr, Nat.toList_repr, Nat.toList_repr,
    append_lt_append_iff]

theorem toDigits_lt_of_lt : ∀ n < 10, ∀ m < n, Nat.toDigits 10 m < Nat.toDigits 10 n := by decide

theorem numbered_ten_lt_two : numbered base 10 < numbered base 2 := by
  rw [numbered_lt_iff]
  decide

/-- The names numbered below ten are in the order of their numbers. -/
theorem pairwise_numbered (base : String) (h : n ≤ 10) :
    ((List.range n).map (numbered base)).Pairwise (· < ·) := by
  rw [List.pairwise_map]
  refine List.pairwise_lt_range.imp_of_mem fun {i j} _ hj hij => ?_
  have hj := List.mem_range.mp hj
  exact numbered_lt_iff.mpr (toDigits_lt_of_lt j (by omega) i hij)

end Sorting
