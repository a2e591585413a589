import Mathlib.Data.List.TakeWhile

/-!
# Proofs: numbers are written in digits

A number can be read back from its digits, also where something follows that is no digit.
-/

namespace Codec

theorem isDigit_of_mem_repr {k : Nat} {c : Char} (h : c ∈ (Nat.repr k).toList) :
    c.isDigit = true := by
  rw [Nat.toList_repr] at h
  exact Nat.isDigit_of_mem_toDigits (by omega) (by omega) h

theorem repr_toList_inj {k l : Nat} (h : (Nat.repr k).toList = (Nat.repr l).toList) : k = l := by
  rw [Nat.toList_repr, Nat.toList_repr] at h
  have hk := Nat.ofDigitChars_ten_toDigits (n := k)
  rw [h, Nat.ofDigitChars_ten_toDigits] at hk
  exact hk.symm

theorem toString_injective : Function.Injective (toString : Nat → String) := by
  intro k l h
  exact repr_toList_inj (congrArg String.toList h)

/-- What precedes the first element without `q` can be read back. -/
theorem append_cons_inj {α : Type} (q : α → Bool) {xs ys xs' ys' : List α} {c : α}
    (hc : q c = false) (hxs : ∀ x ∈ xs, q x = true) (hys : ∀ y ∈ ys, q y = true)
    (h : xs ++ c :: xs' = ys ++ c :: ys') : xs = ys ∧ xs' = ys' := by
  have htake : ∀ (zs zs' : List α), (∀ z ∈ zs, q z = true) → (zs ++ c :: zs').takeWhile q = zs := by
    intro zs zs' hzs
    rw [List.takeWhile_append_of_pos hzs]
    simp [hc]
  have hfst : xs = ys := by rw [← htake xs xs' hxs, h, htake ys ys' hys]
  subst hfst
  have hsnd := List.append_cancel_left h
  exact ⟨rfl, (List.cons.inj hsnd).2⟩

end Codec
