import Mathlib.Data.List.Basic

/-!
# Programs that await

A sequential program that talks to its environment only where it awaits. A program of type
`Prog σ ε ρ α` either has returned, or shows a state of type `σ`, asks the environment for an
effect of type `ε` and goes on with the answer of type `ρ`. The state is shown because a task can
be looked at, or stopped for good, while it awaits and at no other point.

`Async σ ε ρ φ` is the monad of such programs over a state `σ` with failures `φ`: a failure ends
the program and keeps the state it had reached.
-/

namespace Await

/-- A program that shows states `σ`, asks for effects `ε`, is answered by `ρ` and returns an `α`. -/
inductive Prog (σ ε ρ α : Type) where
  /-- The program has returned. -/
  | done (a : α)
  /-- The program shows `s`, asks for `e` and goes on with `k`. -/
  | await (s : σ) (e : ε) (k : ρ → Prog σ ε ρ α)

/-- What a task has gone through: a message it took, an effect it asked for, an answer it got. -/
inductive Event (μ ε ρ : Type) where
  | recv (m : μ)
  | call (e : ε)
  | ret (e : ε) (r : ρ)
  deriving DecidableEq

namespace Prog

variable {σ τ μ ε ρ α β : Type}

/-- Sequencing. -/
def bind (f : α → Prog σ ε ρ β) : Prog σ ε ρ α → Prog σ ε ρ β
  | done a => f a
  | await s e k => await s e fun r => bind f (k r)

/-- The program seen from outside: it works on a component of a larger state. -/
def zoom (g : σ → τ) : Prog σ ε ρ α → Prog τ ε ρ α
  | done a => done a
  | await s e k => await (g s) e fun r => zoom g (k r)

/-- The result of the program when every effect is answered by `env`. -/
def run (env : ε → ρ) : Prog σ ε ρ α → α
  | done a => a
  | await _ e k => run env (k (env e))

/-- The effects the program asks for, in order, when every effect is answered by `env`. -/
def asks (env : ε → ρ) : Prog σ ε ρ α → List ε
  | done _ => []
  | await _ e k => e :: asks env (k (env e))

/-- Whatever the answers: every state shown at an await satisfies `J` and every result satisfies
`Q`, both together with the events up to that point. -/
def Safe (J : σ → List (Event μ ε ρ) → Prop) (Q : α → List (Event μ ε ρ) → Prop) :
    Prog σ ε ρ α → List (Event μ ε ρ) → Prop
  | done a, h => Q a h
  | await s e k, h => J s (h ++ [.call e]) ∧ ∀ r, Safe J Q (k r) (h ++ [.call e] ++ [.ret e r])

/-- The program works on a world `ω`, where `exec e w r w'` says that the effect `e` may be answered
by `r` and turn `w` into `w'`. Every effect that it asks for satisfies `G` at that moment, and what it
returns satisfies `Q` with the world it leaves. -/
def Wp {ω : Type} (exec : ε → ω → ρ → ω → Prop) (G : ε → ω → Prop) (Q : α → ω → Prop) :
    Prog σ ε ρ α → ω → Prop
  | done a, w => Q a w
  | await _ e k, w => G e w ∧ ∀ r w', exec e w r w' → Wp exec G Q (k r) w'

end Prog

/-- Programs over a state `σ` that may fail with a `φ`. -/
def Async (σ ε ρ φ α : Type) : Type := σ → Prog σ ε ρ (Except φ α × σ)

namespace Async

variable {σ τ ε ρ φ α β : Type}

instance : Monad (Async σ ε ρ φ) where
  pure a := fun s => .done (.ok a, s)
  bind x f := fun s => (x s).bind fun
    | (.ok a, s) => f a s
    | (.error e, s) => .done (.error e, s)

/-- The current state. -/
def get : Async σ ε ρ φ σ := fun s => .done (.ok s, s)

/-- Change the state. -/
def modify (f : σ → σ) : Async σ ε ρ φ Unit := fun s => .done (.ok (), f s)

/-- Fail, keeping the state. -/
def fail (e : φ) : Async σ ε ρ φ α := fun s => .done (.error e, s)

/-- Go on if `b` holds and fail with `e` otherwise. -/
def ensure (b : Bool) (e : φ) : Async σ ε ρ φ Unit := if b then pure () else fail e

/-- A computation that neither awaits nor changes the state. -/
def lift (x : Except φ α) : Async σ ε ρ φ α := fun s => .done (x, s)

/-- A computation that does not await, keeps the state when it fails and sets it otherwise. -/
def update (f : σ → Except φ σ) : Async σ ε ρ φ Unit := fun s =>
  match f s with
  | .ok s => .done (.ok (), s)
  | .error e => .done (.error e, s)

/-- Ask for the effect `e` and return the answer. -/
def call (e : ε) : Async σ ε ρ φ ρ := fun s => .await s e fun r => .done (.ok r, s)

/-- Ask for the effect `e` and go on with what it is answered, or fail as it says. -/
def ask (e : ε) : Async σ ε (Except φ α) φ α := fun s => .await s e fun r => .done (r, s)

/-- Run `x` and return its failure as a value. -/
def attempt {ψ : Type} (x : Async σ ε ρ ψ α) : Async σ ε ρ φ (Except ψ α) := fun s =>
  (x s).bind fun (r, s) => .done (.ok r, s)

/-- Run `x` and change its failure by `f`. -/
def mapFailure {ψ : Type} (f : ψ → φ) (x : Async σ ε ρ ψ α) : Async σ ε ρ φ α := fun s =>
  (x s).bind fun (r, s) => .done (r.mapError f, s)

/-- Run `x` from `s` on the component of a larger state that `g` puts in its place. -/
def within (g : σ → τ) (s : σ) (x : Async σ ε ρ φ α) : Async τ ε ρ φ α := fun _ =>
  ((x s).zoom g).bind fun (r, s) => .done (r, g s)

/-- What is to hold when a computation has ended, so that going on with `f` is safe. -/
def After {μ : Type} (J : σ → List (Event μ ε ρ) → Prop)
    (Q : Except φ β × σ → List (Event μ ε ρ) → Prop) (f : α → Async σ ε ρ φ β) :
    Except φ α × σ → List (Event μ ε ρ) → Prop
  | (.ok a, s), h => (f a s).Safe J Q h
  | (.error e, s), h => Q (.error e, s) h

/-- The computation keeps `I`: it holds wherever the computation awaits and where it ends, whatever
the answers. The events that are logged do not matter. -/
def Keeps (μ : Type) (I : σ → Prop) (x : Async σ ε ρ φ α) : Prop :=
  ∀ s, I s → ∀ h : List (Event μ ε ρ), (x s).Safe (fun s _ => I s) (fun a _ => I a.2) h

/-- What is to hold when a computation has ended, so that going on with `f` has the precondition it
needs for `Q`. -/
def Next {ω : Type} (exec : ε → ω → ρ → ω → Prop) (G : ε → ω → Prop) (Q : Except φ β × σ → ω → Prop)
    (f : α → Async σ ε ρ φ β) : Except φ α × σ → ω → Prop
  | (.ok a, s), w => (f a s).Wp exec G Q w
  | (.error e, s), w => Q (.error e, s) w

end Async

end Await
