import Sunstorm.Await.Prog

/-!
# Tasks that serve an inbox

A process owns a state and an inbox. It takes the messages of the inbox one after the other and
runs a handler on each. The handler answers whether the process is done; a handler that fails ends
the process as well, and so does a cancellation from outside. A process that has ended receives
nothing more.

Every process keeps a log of what it went through. No handler reads the log: it is there to state
properties of whole runs.
-/

namespace Await

variable {σ μ ε ρ φ : Type}

/-- The effects that were asked for, oldest first. -/
def calls (log : List (Event μ ε ρ)) : List ε :=
  log.filterMap fun
    | .call e => some e
    | _ => none

/-- The messages that were taken, oldest first. -/
def recvs (log : List (Event μ ε ρ)) : List μ :=
  log.filterMap fun
    | .recv m => some m
    | _ => none

/-- Why a process has ended. -/
inductive Halt (φ : Type) where
  /-- A handler said that the work is done. -/
  | finished
  /-- A handler failed. -/
  | failed (e : φ)
  /-- The process was stopped from outside. -/
  | cancelled
  deriving DecidableEq

/-- What a process is doing. -/
inductive Task (σ ε ρ φ : Type) where
  /-- Waiting for the next message. -/
  | idle (s : σ)
  /-- Inside a handler, waiting for the answer to `e`. -/
  | busy (s : σ) (e : ε) (k : ρ → Prog σ ε ρ (Except φ Bool × σ))
  /-- Ended. -/
  | halted (s : σ) (why : Halt φ)

/-- The state that the task shows. -/
def Task.state : Task σ ε ρ φ → σ
  | .idle s => s
  | .busy s _ _ => s
  | .halted s _ => s

/-- Whether the task has ended. -/
def Task.isHalted : Task σ ε ρ φ → Bool
  | .halted _ _ => true
  | _ => false

/-- Why the task has ended, if it has. -/
def Task.ended : Task σ ε ρ φ → Option (Halt φ)
  | .halted _ why => some why
  | _ => none

/-- Whether the task is inside a handler. -/
def Task.isBusy : Task σ ε ρ φ → Bool
  | .busy _ _ _ => true
  | _ => false

/-- A process: its inbox, its task, and the log of what it went through. -/
structure Proc (σ μ ε ρ φ : Type) where
  /-- The messages that arrived and were not taken yet. -/
  inbox : List μ
  /-- What the process is doing. -/
  task : Task σ ε ρ φ
  /-- What the process went through, oldest first. -/
  log : List (Event μ ε ρ)

namespace Proc

/-- A process before its first message. -/
def start (s : σ) : Proc σ μ ε ρ φ := ⟨[], .idle s, []⟩

/-- The process once its handler has come to `p`. An ended process drops its inbox. -/
def enter (p : Prog σ ε ρ (Except φ Bool × σ)) (inbox : List μ) (log : List (Event μ ε ρ)) :
    Proc σ μ ε ρ φ :=
  match p with
  | .done (.ok false, s) => ⟨inbox, .idle s, log⟩
  | .done (.ok true, s) => ⟨[], .halted s .finished, log⟩
  | .done (.error e, s) => ⟨[], .halted s (.failed e), log⟩
  | .await s e k => ⟨inbox, .busy s e k, log ++ [.call e]⟩

/-- A message arrives. It is lost when the process has ended. -/
def post (m : μ) (p : Proc σ μ ε ρ φ) : Proc σ μ ε ρ φ :=
  match p.task with
  | .halted _ _ => p
  | _ => { p with inbox := p.inbox ++ [m] }

/-- The process takes the next message of its inbox and starts its handler. -/
def take (handle : μ → Async σ ε ρ φ Bool) (p : Proc σ μ ε ρ φ) : Option (Proc σ μ ε ρ φ) :=
  match p.task, p.inbox with
  | .idle s, m :: rest => some (enter (handle m s) rest (p.log ++ [.recv m]))
  | _, _ => none

/-- The effect that the process waits for is answered by `r`. -/
def answer (r : ρ) (p : Proc σ μ ε ρ φ) : Option (Proc σ μ ε ρ φ) :=
  match p.task with
  | .busy _ e k => some (enter (k r) p.inbox (p.log ++ [.ret e r]))
  | _ => none

/-- The process is stopped. -/
def cancel (p : Proc σ μ ε ρ φ) : Option (Proc σ μ ε ρ φ) :=
  match p.task with
  | .idle s => some ⟨[], .halted s .cancelled, p.log⟩
  | .busy s _ _ => some ⟨[], .halted s .cancelled, p.log⟩
  | .halted _ _ => none

/-- What can happen to a process. -/
inductive Act (μ ρ : Type) where
  | post (m : μ)
  | take
  | answer (r : ρ)
  | cancel

/-- The process after `a`, if that is possible. -/
def act (handle : μ → Async σ ε ρ φ Bool) (p : Proc σ μ ε ρ φ) :
    Act μ ρ → Option (Proc σ μ ε ρ φ)
  | .post m => some (p.post m)
  | .take => p.take handle
  | .answer r => p.answer r
  | .cancel => p.cancel

/-- The process after a sequence of acts, if all of them are possible. -/
def run (handle : μ → Async σ ε ρ φ Bool) (p : Proc σ μ ε ρ φ) :
    List (Act μ ρ) → Option (Proc σ μ ε ρ φ)
  | [] => some p
  | a :: as =>
    match p.act handle a with
    | some p => run handle p as
    | none => none

/-- The messages that arrived and were not dropped, oldest first. -/
def received (p : Proc σ μ ε ρ φ) : List μ := recvs p.log ++ p.inbox

/-- Of all that came for the process, `xs`, it has received what came before it ended. Only the part
of a message that `f` gives counts. -/
def Got {α : Type} (f : μ → Option α) (p : Proc σ μ ε ρ φ) (xs : List α) : Prop :=
  ∃ lost, xs = p.received.filterMap f ++ lost ∧ (p.task.isHalted = false → lost = [])

/-- One step of the process on its own. -/
inductive Step (handle : μ → Async σ ε ρ φ Bool) (p p' : Proc σ μ ε ρ φ) : Prop where
  | take (h : p.take handle = some p')
  | answer (r : ρ) (h : p.answer r = some p')
  | cancel (h : p.cancel = some p')

/-- The processes that can come out of `s₀` when only messages that satisfy `A` arrive. -/
inductive Reach (handle : μ → Async σ ε ρ φ Bool) (A : μ → Prop) (s₀ : σ) :
    Proc σ μ ε ρ φ → Prop where
  | start : Reach handle A s₀ (start s₀)
  | post {p : Proc σ μ ε ρ φ} (m : μ) (hm : A m) (hp : Reach handle A s₀ p) :
      Reach handle A s₀ (p.post m)
  | take {p p' : Proc σ μ ε ρ φ} (hp : Reach handle A s₀ p) (h : p.take handle = some p') :
      Reach handle A s₀ p'
  | answer {p p' : Proc σ μ ε ρ φ} (r : ρ) (hp : Reach handle A s₀ p)
      (h : p.answer r = some p') : Reach handle A s₀ p'
  | cancel {p p' : Proc σ μ ε ρ φ} (hp : Reach handle A s₀ p) (h : p.cancel = some p') :
      Reach handle A s₀ p'

end Proc

/-- The loop of a process that gets `ms` and nothing else, when `env` answers every effect: the last
state, and why the process has ended, if it has. -/
def serve (handle : μ → Async σ ε ρ φ Bool) (env : ε → ρ) (s : σ) : List μ → σ × Option (Halt φ)
  | [] => (s, none)
  | m :: ms =>
    match (handle m s).run env with
    | (.ok false, s) => serve handle env s ms
    | (.ok true, s) => (s, some .finished)
    | (.error e, s) => (s, some (.failed e))

/-- What is to hold of a process and its log, by what the process is doing. -/
structure Contract (σ μ ε ρ φ : Type) where
  /-- Between two messages. -/
  idle : σ → List (Event μ ε ρ) → Prop
  /-- While an effect is awaited; the log ends with its call. -/
  busy : σ → List (Event μ ε ρ) → Prop
  /-- After the end. -/
  halted : σ → Halt φ → List (Event μ ε ρ) → Prop

namespace Contract

/-- What the result of a handler has to satisfy. -/
def result (C : Contract σ μ ε ρ φ) : Except φ Bool × σ → List (Event μ ε ρ) → Prop
  | (.ok false, s), h => C.idle s h
  | (.ok true, s), h => C.halted s .finished h
  | (.error e, s), h => C.halted s (.failed e) h

/-- The process keeps the contract, and goes on keeping it whatever it is answered. -/
def Kept (C : Contract σ μ ε ρ φ) (p : Proc σ μ ε ρ φ) : Prop :=
  match p.task with
  | .idle s => C.idle s p.log
  | .busy s e k => C.busy s p.log ∧ ∀ r, (k r).Safe C.busy C.result (p.log ++ [.ret e r])
  | .halted s why => C.halted s why p.log

/-- The contract holds at the start, is kept by every handler from one message to the next, and
covers a cancellation at any point. -/
structure Sound (C : Contract σ μ ε ρ φ) (handle : μ → Async σ ε ρ φ Bool) (A : μ → Prop)
    (s₀ : σ) : Prop where
  start : C.idle s₀ []
  handle : ∀ m s h, A m → C.idle s h →
    (handle m s).Safe C.busy C.result (h ++ [.recv m])
  cancel_idle : ∀ s h, C.idle s h → C.halted s .cancelled h
  cancel_busy : ∀ s h, C.busy s h → C.halted s .cancelled h

end Contract

end Await
