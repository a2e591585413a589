import Mathlib.Data.List.Forall2

/-!
# Readers and the languages they read

A reader takes tokens from the front of a list and returns a value with the tokens left over, or
fails. `Reads p E` says that `p` reads exactly the words that the relation `E` allows for a value:
it is both soundness (what was read is a word of the value returned) and completeness (a word of a
value is read back as that value, whatever follows).

Numbers of a fixed width are read and written big-endian.
-/

namespace Codec

/-- A reader of tokens `τ` that fails with a `φ`. -/
def Reader (τ φ α : Type) : Type := List τ → Except φ (α × List τ)

namespace Reader

variable {τ φ α β : Type}

instance : Monad (Reader τ φ) where
  pure a := fun b => .ok (a, b)
  bind p f := fun b =>
    match p b with
    | .ok (a, rest) => f a rest
    | .error e => .error e

/-- Fail. -/
def fail (e : φ) : Reader τ φ α := fun _ => .error e

/-- Change the failure of `p` by `f`. -/
def mapFailure (f : φ → φ) (p : Reader τ φ α) : Reader τ φ α := fun b => (p b).mapError f

/-- Read `n` more values, each by the reader `p` gives for the values read so far. -/
def times (p : List α → Reader τ φ α) : Nat → List α → Reader τ φ (List α)
  | 0, acc => pure acc
  | n + 1, acc => do
    let a ← p acc
    times p n (acc ++ [a])

/-- Read values until no token is left; `stuck` is the failure when the fuel runs out first. -/
def untilEmpty (stuck : φ) (p : List α → Reader τ φ α) : Nat → List α → Reader τ φ (List α)
  | fuel, acc => fun b =>
    if b = [] then .ok (acc, [])
    else
      match fuel with
      | 0 => .error stuck
      | fuel + 1 =>
        match p acc b with
        | .ok (a, rest) => untilEmpty stuck p fuel (acc ++ [a]) rest
        | .error e => .error e

/-- Read exactly `n` tokens; `short` is the failure when there are fewer. -/
def exactly (short : φ) (n : Nat) : Reader τ φ (List τ) := fun b =>
  if n ≤ b.length then .ok (b.take n, b.drop n) else .error short

/-- Read the tokens before the first `stop`, and drop that one; `short` is the failure when there is
none. -/
def upTo [DecidableEq τ] (short : φ) (stop : τ) : Reader τ φ (List τ)
  | [] => .error short
  | t :: b =>
    if t = stop then .ok ([], b)
    else
      match upTo short stop b with
      | .ok (ts, rest) => .ok (t :: ts, rest)
      | .error e => .error e

/-- Read by `p` the form `f` of a value; `bad` is the failure when there is no such value. -/
def through (bad : φ) (f : α → Option β) (p : Reader τ φ α) : Reader τ φ β := do
  match f (← p) with
  | some y => pure y
  | none => fail bad

end Reader

/-- `p` reads exactly the words that `E` allows for the value it returns. -/
def Reads {τ φ α : Type} (p : Reader τ φ α) (E : α → List τ → Prop) : Prop :=
  ∀ b a rest, p b = .ok (a, rest) ↔ ∃ w, E a w ∧ b = w ++ rest

/-- Every failure of `p` satisfies `G`. -/
def FailsOnly {τ φ α : Type} (p : Reader τ φ α) (G : φ → Prop) : Prop :=
  ∀ b e, p b = .error e → G e

/-- `w` is made of one word of `E` for each of the values, in order. -/
def Words {τ α : Type} (E : α → List τ → Prop) (as : List α) (w : List τ) : Prop :=
  ∃ ws, List.Forall₂ E as ws ∧ w = ws.flatten

/-- The number that the bytes write big-endian. -/
def ofBe (bs : List UInt8) : Nat := bs.foldl (fun acc b => acc * 256 + b.toNat) 0

/-- The number `x` written big-endian in `n` bytes. -/
def toBe : Nat → Nat → List UInt8
  | 0, _ => []
  | n + 1, x => toBe n (x / 256) ++ [UInt8.ofNat x]

end Codec
