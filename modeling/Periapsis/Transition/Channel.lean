import Mathlib.Data.List.Basic

/-!
# Bounded channels

A channel holds at most `capacity` items, in the order in which they were sent.  Sending
does not block: it fails when the channel is full.
-/

namespace Transition

@[ext]
structure Channel (α : Type*) (capacity : Nat) where
  items : List α
  length_le : items.length ≤ capacity

namespace Channel

variable {α : Type*} {capacity : Nat} {c d : Channel α capacity} {a : α}

def empty : Channel α capacity :=
  ⟨[], Nat.zero_le capacity⟩

def send (c : Channel α capacity) (a : α) : Option (Channel α capacity) :=
  if h : c.items.length < capacity then
    some ⟨c.items ++ [a], by simpa [Nat.succ_le_iff] using h⟩
  else none

def receive (c : Channel α capacity) : Option (α × Channel α capacity) :=
  match c with
  | ⟨[], _⟩ => none
  | ⟨a :: items, h⟩ => some (a, ⟨items, Nat.le_of_succ_le h⟩)

theorem send_eq_some :
  c.send a = some d ↔ c.items.length < capacity ∧ d.items = c.items ++ [a]
  := by
  unfold send
  split
  next hr =>
    rw [Option.some.injEq, Channel.ext_iff]
    simp [hr, eq_comm]
  next hf =>
    simp [hf]

theorem send_eq_none :
  c.send a = none ↔ c.items.length = capacity
  := by
  have hle := c.length_le
  unfold send
  split
  all_goals
    simp
    omega

theorem receive_eq_some :
  c.receive = some (a, d) ↔ c.items = a :: d.items
  := by
  obtain ⟨items, hle⟩ := c
  cases items with
  | nil => simp [receive]
  | cons b items => simp [receive, Channel.ext_iff]

end Channel

end Transition
