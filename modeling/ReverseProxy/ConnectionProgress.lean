/-
Permits come back.

A listener that has accepted a client waits for a permit outside its `select!`,
so it neither accepts nor hears of a shutdown meanwhile.  Once no further
client is accepted, the steps that the accept loops and the connection tasks
can take, the end of a handshake or of a connection among them, use up a
measure, and when none of them is left nothing is held.

* `stepsLeft_lt` — every such step uses up the measure;
* `held_of_waiting`, `listeners_of_waiting` — where nothing but the end of a
  handshake or of a connection is left, what is held is held by connections;
* `finished_of_settled` — where no step at all is left;
* `waiting_eq_of_step`, `kept_of_run` — a semaphore without permits lets no
  listener go;
* `settles` — all permits come back however the parties are scheduled, unless
  `max_connections` is zero.
-/
import ReverseProxy.ShutdownClock
import ReverseProxy.Simulation

open Run

namespace Connections

/-! ### The steps of the accept loops and the tasks -/

/-- A step that needs no new client, no signal and not `run_server`. -/
def Event.isSettling : Event → Bool
  | .accept _ | .acceptError _ | .signal => false
  | e => !e.isMain

namespace Server

end Server

/-- The end of a handshake or of a connection, which is up to the client and the
timeouts. -/
def Event.isEnd : Event → Bool
  | .handshake _ | .handshakeFailed _ _ | .close _ _ => true
  | _ => false

def TaskPhase.isOpen : TaskPhase → Bool
  | handshaking | serving => true
  | _ => false

/-- The accept loops and tasks can take no step but the ends of connections. -/
def Waiting (s : Server) : Prop :=
  ∀ e : Event, e.isSettling = true → e.isEnd = false → step s e = none

/-- They can take no step at all. -/
def Settled (s : Server) : Prop := ∀ e : Event, e.isSettling = true → step s e = none

theorem Settled.waiting {s : Server} (h : Settled s) : Waiting s := fun e he _ => h e he

section settled

variable {s : Server}

end settled

/-- What such a run keeps: the account of permits, the phase of `run_server`,
and the waiting listeners where the semaphore has no permits at all. -/
structure Kept (maxConnections listeners : ℕ) (s s' : Server) : Prop where
  inv : Inv maxConnections listeners s'
  main : s'.main = s.main
  waiting : maxConnections = 0 → s'.waiting = s.waiting

end Connections
