import Mathlib.Data.List.Basic

/-!
# Bounded channels

A channel between tasks: first in, first out, and never more than `capacity` messages in it. Who
sends to a full channel waits, and so does who receives from an empty one.
-/

namespace Await

/-- A channel that holds at most `capacity` messages. -/
structure Channel (μ : Type) (capacity : Nat) where
  /-- The messages that were sent and not received yet, oldest first. -/
  messages : List μ
  bounded : messages.length ≤ capacity

namespace Channel

variable {μ : Type} {capacity : Nat}

/-- A new channel. -/
def empty : Channel μ capacity := ⟨[], Nat.zero_le _⟩

/-- Send `m`, if there is room for it. -/
def send (m : μ) (self : Channel μ capacity) : Option (Channel μ capacity) :=
  if h : self.messages.length < capacity then
    some ⟨self.messages ++ [m], by rw [List.length_append]; exact h⟩
  else none

/-- Receive the oldest message, if there is one. -/
def recv : Channel μ capacity → Option (μ × Channel μ capacity)
  | ⟨[], _⟩ => none
  | ⟨m :: rest, h⟩ => some (m, ⟨rest, Nat.le_of_succ_le h⟩)

variable {self self' : Channel μ capacity} {m : μ}

theorem send_messages (h : self.send m = some self') :
    self'.messages = self.messages ++ [m] := by
  obtain ⟨hroom, h⟩ := Option.dite_none_right_eq_some.mp h
  obtain rfl := Option.some.inj h
  rfl

theorem recv_messages (h : self.recv = some (m, self')) :
    self.messages = m :: self'.messages := by
  obtain ⟨messages, bounded⟩ := self
  cases messages with
  | nil => exact absurd h (by simp [recv])
  | cons m' rest =>
    obtain ⟨rfl, rfl⟩ := Prod.mk.inj (Option.some.inj h)
    rfl

end Channel

end Await
