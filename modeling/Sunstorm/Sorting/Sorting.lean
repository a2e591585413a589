import Mathlib.Data.List.Sort
import Mathlib.Data.String.Basic

/-!
# Sorting by a key, and names that end in a number
-/

namespace Sorting

/-- The elements in the order of their keys. Elements with the same key keep their order. -/
def sortBy {α κ : Type} [LinearOrder κ] (key : α → κ) (l : List α) : List α :=
  l.insertionSort fun a b => key a ≤ key b

/-- The name `base` with the number `n` written behind it. -/
def numbered (base : String) (n : Nat) : String := base ++ toString n

end Sorting
