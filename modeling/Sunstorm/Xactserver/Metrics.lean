import Sunstorm.Xactserver.Manager

/-!
# The counters of a node

`metrics.rs`: `STARTED_XACTS` and `FINISHED_XACTS`, read off what the state managers have measured.
The counters have the coordinator of a transaction as a label, `FINISHED_XACTS` also the reason of a
rollback; the other labels follow from the coordinator.
-/

namespace Sunstorm

namespace Measurement

/-- The measurement counts in `STARTED_XACTS` for the coordinator. -/
def starts (coordinator : NodeId) : Measurement → Bool
  | .started c => c = coordinator
  | .finished _ _ => false

/-- The measurement counts in `FINISHED_XACTS` for the coordinator, whatever the reason. -/
def finishes (coordinator : NodeId) : Measurement → Bool
  | .started _ => false
  | .finished c _ => c = coordinator

end Measurement

namespace XactStateManager

/-- How often `kind` was measured. -/
def count (self : XactStateManager) (kind : Measurement → Bool) : Nat := self.measured.countP kind

/-- Whether a measurement is running for the coordinator, as a number. -/
def running (self : XactStateManager) (coordinator : NodeId) : Nat :=
  if self.coordinatorId = some coordinator ∧ self.totalDurationTimer.isSome = true then 1 else 0

end XactStateManager

/-- What the state managers of the node have measured. -/
def Manager.measured (self : Manager) : List Measurement :=
  self.spawned.flatMap fun id =>
    (self.xactStateManagers id).elim [] fun p => p.task.state.measured

/-- How often `kind` was measured at the node. -/
def Manager.count (self : Manager) (kind : Measurement → Bool) : Nat := self.measured.countP kind

end Sunstorm
