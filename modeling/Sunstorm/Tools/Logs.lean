import Sunstorm.Machine.Machine
import Sunstorm.Regex.Regex
import Sunstorm.Sorting.Sorting

/-!
# The logs of a running benchmark

`tools/utils.py`: `Kube.print_logs`, and what `Execute.log` of `tools/benchmark.py` does with it.
Every log is read by a thread of its own, which hands each line to a callback; the last thread to
end wakes the main thread up, which then reports what was matched. A call of the callback is one
step: what it does to the shared state is done under a lock. Printing is not modelled, and neither
is the limiter, which holds back lines that are printed and no calls.
-/

namespace Sunstorm

/-- `Kube.NamedLogs`. What comes from the stream is left to the steps. -/
structure NamedLogs where
  «namespace» : String
  name : String
  deriving DecidableEq

/-- What the lines of the log are marked with. -/
def NamedLogs.label (self : NamedLogs) : String := self.namespace ++ "|" ++ self.name

/-- `s.rstrip("\n")`. -/
def rstrip (s : String) : String :=
  String.ofList ((s.toList.reverse.dropWhile fun c => c = '\n').reverse)

/-- Where `print_log` stands. -/
inductive Printing where
  /-- It awaits the next line. -/
  | reading
  /-- It has a line for the callback. -/
  | calling (decoded : String)
  /-- It has counted itself out. -/
  | ended
  /-- The stream has raised, or a line was no UTF-8. -/
  | failed
  deriving DecidableEq

/-- The line that was read and not handed over. -/
def Printing.pending : Printing → List String
  | calling decoded => [decoded]
  | _ => []

/-- A thread of `print_logs`. -/
structure LogThread where
  logs : NamedLogs
  state : Printing
  /-- The lines that were read, oldest first. -/
  lines : List String
  deriving DecidableEq

/-- The thread has ended, one way or the other. -/
def LogThread.isOver (t : LogThread) : Bool := t.state = .ended || t.state = .failed

/-- A call of the callback. -/
structure LogCall where
  /-- The position of the thread. -/
  thread : Nat
  name : String
  log : String
  deriving DecidableEq

/-- Where the main thread is. -/
inductive Watching where
  /-- It starts the threads. -/
  | starting
  /-- `print_logs` has returned, it is inside `exit_event.wait`. -/
  | waiting
  /-- It has what the threads have gathered. -/
  | returned
  deriving DecidableEq

/-- A call of `Kube.print_logs`, with its threads and the state that the callback works on. -/
structure PrintLogs (σ : Type) where
  follow : Bool
  threads : List LogThread
  /-- The number of threads that were started. -/
  started : Nat
  aliveThreads : Int
  exitEvent : Bool
  watching : Watching
  shared : σ
  /-- The calls of the callback, oldest first. -/
  calls : List LogCall
  deriving DecidableEq

namespace PrintLogs

variable {σ : Type}

/-- `print_logs` is called. -/
def init (follow : Bool) (namedLogs : List NamedLogs) (shared : σ) : PrintLogs σ :=
  { follow, threads := namedLogs.map fun logs => ⟨logs, .reading, []⟩, started := 0
    aliveThreads := namedLogs.length, exitEvent := false, watching := .starting, shared
    calls := [] }

/-- What happens to a thread. -/
inductive Event where
  /-- The stream gives a line. -/
  | line (text : String)
  /-- The callback is called. -/
  | call
  /-- The stream is at its end. -/
  | finish
  | raise
  deriving DecidableEq

inductive Act where
  /-- The main thread starts the next thread. -/
  | start
  | thread (i : Nat) (e : Event)
  /-- `print_logs` returns. -/
  | printed
  /-- `exit_event.wait` returns. -/
  | wake
  deriving DecidableEq

/-- Put `t` in the place of the thread `i`. -/
def setThread (self : PrintLogs σ) (i : Nat) (t : LogThread) : PrintLogs σ :=
  { self with threads := self.threads.set i t }

/-- The end of `print_log`, when the lock was taken. -/
def countDown (self : PrintLogs σ) : PrintLogs σ :=
  { self with
    aliveThreads := self.aliveThreads - 1
    exitEvent := self.exitEvent || self.aliveThreads - 1 = 0 }

/-- The callback is called by the thread `i`. -/
def callBack (callback : String → String → σ → σ) (self : PrintLogs σ) (i : Nat)
    (name log : String) : PrintLogs σ :=
  { self with
    shared := callback name log self.shared
    calls := self.calls ++ [⟨i, name, log⟩] }

/-- A step of the thread `i`, which is `t`. -/
def printLog (callback : String → String → σ → σ) (self : PrintLogs σ) (i : Nat) (t : LogThread) :
    Event → Option (PrintLogs σ)
  | .line text =>
    if t.state = .reading then
      some (self.setThread i
        { t with state := .calling (rstrip text), lines := t.lines ++ [rstrip text] })
    else none
  | .call =>
    match t.state with
    | .calling decoded =>
      some ((self.setThread i { t with state := .reading }).callBack callback i t.logs.label
        decoded)
    | _ => none
  | .finish =>
    if t.state = .reading then some (self.setThread i { t with state := .ended }).countDown
    else none
  | .raise =>
    if t.state = .reading then some (self.setThread i { t with state := .failed }) else none

/-- One step. -/
def step (callback : String → String → σ → σ) (self : PrintLogs σ) : Act → Option (PrintLogs σ)
  | .start =>
    if self.watching = .starting ∧ self.started < self.threads.length then
      some { self with started := self.started + 1 }
    else none
  | .thread i e =>
    match (self.threads.take self.started)[i]? with
    | some t => self.printLog callback i t e
    | none => none
  | .printed =>
    if self.watching = .starting ∧ self.started = self.threads.length ∧
        (self.follow || self.threads.all LogThread.isOver) then
      some { self with watching := .waiting }
    else none
  | .wake =>
    if self.watching = .waiting ∧ self.exitEvent then some { self with watching := .returned }
    else none

end PrintLogs

/-! ## `Execute.log` -/

namespace Execute

/-- `(\d+\.\d+|\d+)`. Which characters are decimal digits is for `decimal` to say. -/
def number (decimal : Char → Bool) : Regex.Pattern :=
  .group (.alt (.seq (.many decimal) (.seq (.text ['.']) (.many decimal))) (.many decimal))

/-- `pattern`. -/
def pattern (decimal : Char → Bool) : Regex.Pattern :=
  .seq (.text "Rate limited reqs/s: Results(".toList) <|
  .seq (.many fun c => c ≠ '\n') <|
  .seq (.text ") = ".toList) <|
  .seq (number decimal) <|
  .seq (.text " requests/sec (throughput), ".toList) <|
  .seq (number decimal) <|
  .text " requests/sec (goodput)".toList

/-- The throughput and the goodput in the line, as they are written. -/
def figures (decimal : Char → Bool) (log : String) : Option (String × String) :=
  match (pattern decimal).search log.toList with
  | some [throughput, goodput] => some (String.ofList throughput, String.ofList goodput)
  | _ => none

/-- The text in which the figures are looked for. -/
def resultText (results throughput goodput : String) : String :=
  "Rate limited reqs/s: Results(" ++ results ++ ") = " ++ throughput ++
    " requests/sec (throughput), " ++ goodput ++ " requests/sec (goodput)"

/-- A number, with or without decimal places. -/
def IsNumber (decimal : Char → Bool) (s : String) : Prop :=
  ∃ whole, whole ≠ [] ∧ (∀ c ∈ whole, decimal c = true) ∧
    (s.toList = whole ∨
      ∃ places, places ≠ [] ∧ (∀ c ∈ places, decimal c = true) ∧ s.toList = whole ++ '.' :: places)

/-- What was matched so far. -/
structure Matched (F : Type) where
  matchedLogs : List String
  throughput : F
  goodput : F
  deriving DecidableEq

variable {F : Type} [Zero F] [Add F]

/-- Before the first line. -/
def Matched.init : Matched F := { matchedLogs := [], throughput := 0, goodput := 0 }

/-- A matched line, as it is reported. -/
def mark (name log : String) : String := "[" ++ name ++ "] " ++ log

/-- `parse_and_add`. -/
def parseAndAdd (decimal : Char → Bool) (float : String → F) (name log : String) (m : Matched F) :
    Matched F :=
  match figures decimal log with
  | some (throughput, goodput) =>
    { matchedLogs := m.matchedLogs ++ [mark name log]
      throughput := m.throughput + float throughput
      goodput := m.goodput + float goodput }
  | none => m

/-- What is logged at the end: all that was matched, sorted. -/
def Matched.report (m : Matched F) : String :=
  "\n".intercalate (Sorting.sortBy id m.matchedLogs)

/-- The matched lines of a log. -/
def matchedLines (decimal : Char → Bool) (t : LogThread) : List String :=
  (t.lines.filter fun line => (figures decimal line).isSome).map (mark t.logs.label)

/-- The figures in a log. -/
def results (decimal : Char → Bool) (t : LogThread) : List (String × String) :=
  t.lines.filterMap (figures decimal)

end Execute

end Sunstorm
