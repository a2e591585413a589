import Sunstorm.Machine.Machine
import Sunstorm.Xactserver.Messages
import Mathlib.Logic.Function.Basic

/-!
# The process of a server

`main` of `bin/xactserver.rs`, from the point where the threads are started. Four threads share a
cancellation token with the main thread, which waits for the token or for Ctrl-C and then joins the
threads one after the other. Of the four, only `Manager::run` has a guard that cancels the token
when it is dropped. Parsing of the arguments and starting of a thread are not modelled.
-/

namespace Sunstorm

/-- The threads, in the order in which they are joined. -/
inductive Part where
  | pgWatcher
  | node
  | manager
  | httpServer
  deriving DecidableEq

def Part.all : List Part := [.pgWatcher, .node, .manager, .httpServer]

/-- Where a thread is. -/
inductive PartState where
  /-- It builds its runtime, the one for HTTP binds its listener before that. -/
  | preparing
  /-- It looks at the token. -/
  | running
  /-- It has ended. `ran` says whether it got so far as to look at the token. -/
  | ended (ran : Bool) (r : Except Failure Unit)

/-- Where the main thread is. -/
inductive MainState where
  | waiting
  /-- The threads `rest` are still to be joined. -/
  | joining (rest : List Part)
  | exited (r : Except Failure Unit)

structure Process where
  parts : Part → PartState
  cancelled : Bool
  /-- Ctrl-C was pressed while the main thread was waiting. -/
  interrupted : Bool
  main : MainState

/-- What the main thread makes of a thread that has failed: it returns the error, and panics where
the thread has panicked. -/
def Failure.atJoin : Failure → Failure
  | .err e => .err e
  | .panic _ => .panic "called `Result::unwrap()` on an `Err` value: Any \x7b .. \x7d"

namespace Process

/-- All threads are started. -/
def init : Process :=
  { parts := fun _ => .preparing, cancelled := false, interrupted := false, main := .waiting }

inductive Act where
  /-- The thread gets to where it looks at the token. -/
  | run (p : Part)
  /-- The thread returns an error, or it panics. -/
  | fail (p : Part) (f : Failure)
  /-- The thread sees that the token is cancelled. -/
  | stop (p : Part)
  | interrupt
  /-- The main thread sees that the token is cancelled. -/
  | notice
  /-- The main thread joins the next thread. -/
  | join

/-- The thread is in the given state. -/
def setPart (self : Process) (p : Part) (state : PartState) : Process :=
  { self with parts := Function.update self.parts p state }

/-- The thread ends after it has run. With `Manager::run`, the guard is dropped. -/
def finish (self : Process) (p : Part) (r : Except Failure Unit) : Process :=
  { self.setPart p (.ended true r) with cancelled := self.cancelled || p = .manager }

/-- The main thread has joined a thread, `rest` are left. -/
def joined (self : Process) (rest : List Part) : Except Failure Unit → Process
  | .ok () => { self with main := if rest = [] then .exited (.ok ()) else .joining rest }
  | .error f => { self with main := .exited (.error f.atJoin) }

/-- One step of a process that has not exited. -/
def advance (self : Process) : Act → Option Process
  | .run p =>
    match self.parts p with
    | .preparing => some (self.setPart p .running)
    | _ => none
  | .fail p f =>
    match self.parts p with
    | .preparing => some (self.setPart p (.ended false (.error f)))
    | .running => some (self.finish p (.error f))
    | .ended _ _ => none
  | .stop p =>
    match self.parts p with
    | .running => if self.cancelled then some (self.finish p (.ok ())) else none
    | _ => none
  | .interrupt =>
    match self.main with
    | .waiting => some { self with cancelled := true, interrupted := true, main := .joining Part.all }
    | _ => none
  | .notice =>
    match self.main with
    | .waiting => if self.cancelled then some { self with main := .joining Part.all } else none
    | _ => none
  | .join =>
    match self.main with
    | .joining (p :: rest) =>
      match self.parts p with
      | .ended _ r => some (self.joined rest r)
      | _ => none
    | _ => none

/-- One step. When the main thread exits, the process ends. -/
def step (self : Process) (a : Act) : Option Process :=
  match self.main with
  | .exited _ => none
  | _ => self.advance a

end Process

end Sunstorm
