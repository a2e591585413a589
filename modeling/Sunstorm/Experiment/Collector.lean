import Sunstorm.Machine.Machine

/-!
# The result collector of the experiment runner

`tools/experiment.py`: `ResultCollector`. The main thread hands the tags of finished benchmarks to a
thread pool and joins it at the end; a worker collects the files of one tag and hands the download
of every region to the same pool. The pool has a free worker whenever there is work. Calls of
`LOG` and the files themselves are not modelled.
-/

namespace Sunstorm

/-- Why a collection was given up. -/
inductive Raised where
  /-- The pool takes no new work after `shutdown`. -/
  | refused
  /-- Any other exception, of the listing or of a download. -/
  | other
  deriving DecidableEq

/-- How far `_collect` has come. -/
inductive Collecting where
  /-- Handed to the pool. -/
  | queued
  /-- Counted; the regions are not listed yet. -/
  | listing
  /-- The downloads of `regions` are still to be handed to the pool; of those handed over, `pending`
  are not done. -/
  | downloading (regions : List String) (pending : Nat)
  /-- At the end, counted back. -/
  | ended
  /-- Ended by an exception. -/
  | failed (why : Raised)
  deriving DecidableEq

namespace Collecting

/-- Whether the collection has started and not ended. -/
def running : Collecting → Bool
  | listing => true
  | downloading _ _ => true
  | _ => false

def start : Collecting → Option Collecting
  | queued => some listing
  | _ => none

def list (regions : List String) : Collecting → Option Collecting
  | listing => some (downloading regions 0)
  | _ => none

/-- Hand the download of the next region over. -/
def download (shutdown : Bool) : Collecting → Option Collecting
  | downloading (_ :: regions) pending =>
    if shutdown then some (failed .refused) else some (downloading regions (pending + 1))
  | _ => none

/-- A download is done. -/
def downloaded : Collecting → Option Collecting
  | downloading regions (pending + 1) => some (downloading regions pending)
  | _ => none

def finish : Collecting → Option Collecting
  | downloading [] 0 => some ended
  | _ => none

/-- The listing raises, or a download whose result is awaited. -/
def raise : Collecting → Option Collecting
  | listing => some (failed .other)
  | downloading [] (_ + 1) => some (failed .other)
  | _ => none

end Collecting

/-- A call of `_collect`. -/
structure Collection where
  tag : String
  state : Collecting
  deriving DecidableEq

/-- Where the main thread is. -/
inductive Joiner where
  /-- `join` was not called. -/
  | away
  /-- Inside `wait`. -/
  | waiting
  /-- Woken, about to look at the count again. -/
  | notified
  /-- Inside `shutdown`, which waits for the workers. -/
  | joining
  /-- `join` has returned. -/
  | returned
  deriving DecidableEq

/-- `class ResultCollector`, with its pool and the main thread. -/
structure ResultCollector where
  dryRun : Bool
  collections : List Collection
  inProgressCount : Int
  shutdown : Bool
  joiner : Joiner
  deriving DecidableEq

namespace ResultCollector

/-- `ResultCollector.__init__`. -/
def new (dryRun : Bool) : ResultCollector :=
  { dryRun, collections := [], inProgressCount := 0, shutdown := false, joiner := .away }

/-- What can happen. -/
inductive Act where
  | submit (tag : String)
  /-- A worker starts the collection `i` and counts it. -/
  | start (i : Nat)
  /-- It has listed the regions. -/
  | list (i : Nat) (regions : List String)
  /-- It hands the download of its next region to the pool. -/
  | download (i : Nat)
  /-- One of its downloads is done. -/
  | downloaded (i : Nat)
  /-- It ends, counts itself back and notifies. -/
  | finish (i : Nat)
  /-- It raises. -/
  | raise (i : Nat)
  | join
  /-- The main thread wakes up inside `join`. -/
  | wake
  /-- `join` returns. -/
  | leave
  deriving DecidableEq

/-- Let the collection `i` go on as `f` says. -/
def move (self : ResultCollector) (i : Nat) (f : Collecting → Option Collecting) :
    Option ResultCollector :=
  match self.collections[i]? with
  | some c =>
    (f c.state).map fun state =>
      { self with collections := self.collections.set i { c with state } }
  | none => none

/-- `ResultCollector.submit`. -/
def submit (self : ResultCollector) (tag : String) : ResultCollector :=
  if self.dryRun then self
  else { self with collections := self.collections ++ [⟨tag, .queued⟩] }

/-- The loop of `ResultCollector.join`, when the lock was taken. -/
def check (self : ResultCollector) : ResultCollector :=
  if 0 < self.inProgressCount then { self with joiner := .waiting }
  else { self with shutdown := true, joiner := .joining }

/-- The count goes up, at the start of `_collect`. -/
def countUp (self : ResultCollector) : ResultCollector :=
  { self with inProgressCount := self.inProgressCount + 1 }

/-- The count goes down at the end of `_collect`, and the one that waits is notified. -/
def countDown (self : ResultCollector) : ResultCollector :=
  { self with
    inProgressCount := self.inProgressCount - 1
    joiner := if self.joiner = .waiting then .notified else self.joiner }

/-- One step. -/
def step (self : ResultCollector) : Act → Option ResultCollector
  | .submit tag => if self.joiner = .away then some (self.submit tag) else none
  | .start i => (self.move i Collecting.start).map countUp
  | .list i regions => self.move i (Collecting.list regions)
  | .download i => self.move i (Collecting.download self.shutdown)
  | .downloaded i => self.move i Collecting.downloaded
  | .finish i => (self.move i Collecting.finish).map countDown
  | .raise i => self.move i Collecting.raise
  | .join => if self.joiner = .away then some self.check else none
  | .wake => if self.joiner = .notified then some self.check else none
  | .leave =>
    if self.joiner = .joining ∧ ∀ c ∈ self.collections, c.state ≠ .queued ∧ c.state.running = false
    then some { self with joiner := .returned } else none

/-- The number of collections that have started and not ended. -/
def running (self : ResultCollector) : Nat := self.collections.countP fun c => c.state.running

/-- What the collector is to guarantee. -/
structure Sound (s : ResultCollector) : Prop where
  counted : s.inProgressCount = s.running
  /-- `join` waits only while a collection is running. -/
  awaited : s.joiner = .waiting → ∃ c ∈ s.collections, c.state.running = true
  /-- No collection was refused its downloads. -/
  served : ∀ c ∈ s.collections, c.state ≠ .failed .refused

/-- The act does not raise, and where it lets `join` pass, no collection is left to be started. -/
def Act.Orderly (self : ResultCollector) : Act → Prop
  | .raise _ => False
  | .join => 0 < self.inProgressCount ∨ ∀ c ∈ self.collections, c.state ≠ .queued
  | .wake => 0 < self.inProgressCount ∨ ∀ c ∈ self.collections, c.state ≠ .queued
  | _ => True

instance (self : ResultCollector) : (a : Act) → Decidable (a.Orderly self)
  | .raise _ => isFalse id
  | .join => inferInstanceAs
      (Decidable (0 < self.inProgressCount ∨ ∀ c ∈ self.collections, c.state ≠ .queued))
  | .wake => inferInstanceAs
      (Decidable (0 < self.inProgressCount ∨ ∀ c ∈ self.collections, c.state ≠ .queued))
  | .submit _ => isTrue trivial
  | .start _ => isTrue trivial
  | .list _ _ => isTrue trivial
  | .download _ => isTrue trivial
  | .downloaded _ => isTrue trivial
  | .finish _ => isTrue trivial
  | .leave => isTrue trivial

end ResultCollector

end Sunstorm
