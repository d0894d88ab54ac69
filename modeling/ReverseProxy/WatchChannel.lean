/-
Watch channels.

A watch channel holds one value.  Every value that is sent gets the next
version; a receiver remembers the version that it has seen last and is told of
a change as long as that is not the current one.  What is sent while no
receiver is left is lost.

* `changed_isSome` — who is told of a change;
* `send_eq` — what is sent while a receiver is there gets the next version.
-/
import Mathlib.Data.Nat.Notation
import Mathlib.Logic.Basic

namespace Watch

structure Channel (α : Type) where
  value : α
  version : ℕ
  receivers : ℕ
  deriving DecidableEq

/-- A receiver, with the version that it has seen. -/
structure Receiver where
  seen : ℕ
  deriving DecidableEq

variable {α : Type}

/-- A new channel has one receiver. -/
def channel (init : α) : Channel α × Receiver := (⟨init, 0, 1⟩, ⟨0⟩)

def Channel.send (c : Channel α) (value : α) : Channel α :=
  if c.receivers = 0 then c else { c with value := value, version := c.version + 1 }

/-- A copy of a receiver has seen what the receiver has seen. -/
def Channel.cloneReceiver (c : Channel α) (r : Receiver) : Channel α × Receiver :=
  ({ c with receivers := c.receivers + 1 }, r)

def Channel.dropReceiver (c : Channel α) : Channel α := { c with receivers := c.receivers - 1 }

/-- `none` while there is nothing to be told.  Only a call that completes marks
the version as seen. -/
def Channel.changed (c : Channel α) (r : Receiver) : Option Receiver :=
  if r.seen = c.version then none else some ⟨c.version⟩

theorem Channel.changed_isSome {c : Channel α} {r : Receiver} :
    (c.changed r).isSome ↔ r.seen ≠ c.version := by
  rw [Channel.changed]
  split
  · next h => exact iff_of_false (by simp) (not_not.mpr h)
  · next h => exact iff_of_true rfl h

theorem Channel.send_eq {c : Channel α} (h : 0 < c.receivers) (value : α) :
    c.send value = ⟨value, c.version + 1, c.receivers⟩ := by
  rw [Channel.send, if_neg (Nat.ne_of_gt h)]

end Watch
