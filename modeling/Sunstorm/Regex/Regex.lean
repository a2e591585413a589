import Mathlib.Data.List.Basic

/-!
# Regular expressions with groups

Regular expressions as a backtracking engine searches for them: of the ways in which an expression
can match, the first one counts. Only single characters are repeated, and each group takes part in a
match at most once.
-/

namespace Regex

inductive Pattern where
  /-- Exactly this text. -/
  | text (t : List Char)
  /-- One or more characters of the class, as many as possible. -/
  | many (p : Char → Bool)
  | seq (a b : Pattern)
  /-- Preferably `a`. -/
  | alt (a b : Pattern)
  /-- What `a` matches is remembered. -/
  | group (a : Pattern)

/-- A match at the beginning of a text. -/
structure Match where
  text : List Char
  groups : List (List Char)
  /-- What comes after the match. -/
  rest : List Char
  deriving DecidableEq

/-- All splittings behind one or more characters of the class, the longest first. -/
def runs (p : Char → Bool) : List Char → List (List Char × List Char)
  | [] => []
  | c :: cs =>
    if p c then (runs p cs).map (fun x => (c :: x.1, x.2)) ++ [([c], cs)] else []

/-- The text behind `t`. -/
def strip : List Char → List Char → Option (List Char)
  | [], cs => some cs
  | c :: t, d :: cs => if c = d then strip t cs else none
  | _ :: _, [] => none

namespace Pattern

/-- All matches at the beginning of the text, the preferred ones first. -/
def begins : Pattern → List Char → List Match
  | text t, cs => (strip t cs).toList.map fun rest => ⟨t, [], rest⟩
  | many p, cs => (runs p cs).map fun x => ⟨x.1, [], x.2⟩
  | seq a b, cs =>
    (a.begins cs).flatMap fun x =>
      (b.begins x.rest).map fun y => ⟨x.text ++ y.text, x.groups ++ y.groups, y.rest⟩
  | alt a b, cs => a.begins cs ++ b.begins cs
  | group a, cs => (a.begins cs).map fun x => ⟨x.text, x.text :: x.groups, x.rest⟩

/-- The groups of the first match in the text. -/
def search (r : Pattern) : List Char → Option (List (List Char))
  | [] => (r.begins []).head?.map Match.groups
  | c :: cs =>
    match (r.begins (c :: cs)).head? with
    | some x => some x.groups
    | none => r.search cs

/-- The expression describes the text, with these groups in it. -/
def Describes : Pattern → List Char → List (List Char) → Prop
  | text t, w, gs => w = t ∧ gs = []
  | many p, w, gs => w ≠ [] ∧ (∀ c ∈ w, p c = true) ∧ gs = []
  | seq a b, w, gs =>
    ∃ u v hs ks, w = u ++ v ∧ gs = hs ++ ks ∧ a.Describes u hs ∧ b.Describes v ks
  | alt a b, w, gs => a.Describes w gs ∨ b.Describes w gs
  | group a, w, gs => ∃ hs, gs = w :: hs ∧ a.Describes w hs

end Pattern

end Regex
