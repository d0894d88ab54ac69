/-
The drain at shutdown.

`drain_in_flight` returns as soon as it reads a count of zero.  A connection
task is on the count from its first poll on, not from its spawn.

* `guards_of_exited` — a count of zero means that no guard is held;
* `drained_iff` — a drain that returns zero leaves no connection behind exactly
  when every task that was spawned has been polled;
* `drained_early` — a connection that is cut off.
-/
import ReverseProxy.Connections

open Run

namespace Connections

theorem guards_eq_zero_iff (s : Server) :
    s.guards = 0 ↔ ∀ p ∈ s.tasks, p = .spawned ∨ p = .finished := by
  rw [Server.guards, List.countP_eq_zero]
  refine forall₂_congr fun p _ => ?_
  cases p with
  | spawned => simp [TaskPhase.holdsGuard]
  | finished => simp [TaskPhase.holdsGuard]
  | _ => simp [TaskPhase.holdsGuard]

/-- A count of zero is read where no guard is held, or 2⁶⁴ of them. -/
theorem guards_of_exited {maxConnections listeners : ℕ} {s : Server}
    (hinv : Inv maxConnections listeners s) (hexit : s.main = .exited 0) (hlt : s.guards < 2 ^ 64) :
    s.guards = 0 := by
  have hzero : (0 : UInt64) = UInt64.ofNat s.guards := (hinv.exited 0 hexit).trans hinv.guards
  have hnat := congrArg UInt64.toNat hzero
  rw [UInt64.toNat_ofNat_of_lt' hlt] at hnat
  exact hnat.symm

theorem openSockets_eq_zero {s : Server} (hended : ∀ p ∈ s.listeners, p = .ended)
    (hfinished : ∀ p ∈ s.tasks, p = .finished) : s.openSockets = 0 := by
  have hlisteners : s.listeners.countP ListenerPhase.holdsSocket = 0 :=
    List.countP_eq_zero.mpr fun p hp => by rw [hended p hp]; decide
  have htasks : s.tasks.countP TaskPhase.holdsSocket = 0 :=
    List.countP_eq_zero.mpr fun p hp => by rw [hfinished p hp]; decide
  rw [Server.openSockets, hlisteners, htasks]

/-- **The drain.**  When the listeners have ended and the drain returns zero,
every connection that was handed to a task has finished exactly when each of
these tasks had been polled, as only then they are on the counter; the counter
itself is right below 2⁶⁴. -/
theorem drained_iff (maxConnections listeners : ℕ) (es : List Event) (s : Server)
    (h : run step (Server.start maxConnections listeners) es = some s)
    (hended : ∀ p ∈ s.listeners, p = .ended) (hexit : s.main = .exited 0) :
    (∀ p ∈ s.tasks, p = .finished) ∧ s.openSockets = 0 ↔
      (∀ p ∈ s.tasks, p ≠ .spawned) ∧ s.guards < 2 ^ 64 := by
  constructor
  · rintro ⟨hfinished, -⟩
    have hguards : s.guards = 0 :=
      (guards_eq_zero_iff s).mpr fun p hp => Or.inr (hfinished p hp)
    refine ⟨fun p hp hspawned => ?_, by omega⟩
    exact absurd ((hfinished p hp).symm.trans hspawned) nofun
  · rintro ⟨hpolled, hlt⟩
    have hguards := (guards_eq_zero_iff s).mp (guards_of_exited (run_inv h) hexit hlt)
    have hfinished : ∀ p ∈ s.tasks, p = .finished := fun p hp =>
      (hguards p hp).resolve_left (hpolled p hp)
    exact ⟨hfinished, openSockets_eq_zero hended hfinished⟩

def shutdownSequence : List Event :=
  [.signal, .stop 0, .noticeShutdown, .join false, .joined, .drainCheck]

/-- One client is served before the shutdown. -/
def servedRun : List Event :=
  .accept 0 :: .acquire 0 :: .spawn 0 :: .firstPoll 0 :: .handshake 0 :: .close 0 false ::
    .dropPermit 0 :: .dropGuard 0 :: shutdownSequence

theorem drained_iff_served :
    ∃ s, run step (Server.start 1 1) servedRun = some s ∧
      s.main = .exited 0 ∧ (∀ p ∈ s.tasks, p = .finished) ∧ s.openSockets = 0 := by
  have hlast : (run step (Server.start 1 1) servedRun).map
      (fun s => (s.listeners, s.main, s.tasks)) = some ([.ended], .exited 0, [.finished]) := by
    decide +kernel
  obtain ⟨s, hrun, hs⟩ := Option.map_eq_some_iff.mp hlast
  simp only [Prod.mk.injEq] at hs
  obtain ⟨hlisteners, hexit, htasks⟩ := hs
  have hdrained := drained_iff 1 1 servedRun s hrun (by simp [hlisteners]) hexit
  refine ⟨s, hrun, hexit, hdrained.mpr ⟨by simp [htasks], ?_⟩⟩
  rw [Server.guards, htasks]
  decide

/-- The task of the client has been spawned, but not polled. -/
def unpolledRun : List Event := .accept 0 :: .acquire 0 :: .spawn 0 :: shutdownSequence

/-- The process exits with the connection open. -/
theorem drained_early :
    ∃ s, run step (Server.start 1 1) unpolledRun = some s ∧
      s.listeners = [.ended] ∧ s.main = .exited 0 ∧ s.tasks = [.spawned] ∧ s.openSockets = 1 := by
  have hlast : (run step (Server.start 1 1) unpolledRun).map
      (fun s => (s.listeners, s.main, s.tasks, s.openSockets))
        = some ([.ended], .exited 0, [.spawned], 1) := by decide +kernel
  obtain ⟨s, hrun, hs⟩ := Option.map_eq_some_iff.mp hlast
  simp only [Prod.mk.injEq] at hs
  exact ⟨s, hrun, hs⟩

end Connections
