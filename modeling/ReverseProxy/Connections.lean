/-
Connections, from the accept loops to the shutdown.

Every HTTPS listener runs `serve_https_listener`: it accepts a client, waits
for a permit of the one semaphore that all listeners share, and spawns a task
that owns the socket and the permit.  The task creates its in-flight guard
when it is polled for the first time.  On shutdown `run_server` waits for the
listeners and then for the in-flight count to become zero (`drain_in_flight`).
The whole is a transition system; the runtime may interleave its parties in
any way.

* `step_effect` — what a step does to permits, waiting listeners and guards;
* `openSockets_le` — the sockets that are open hold a permit, or wait for one
  in a listener;
* `openSockets_capped` — the cap on the open sockets is `max_connections`
  where a client is accepted only while a permit is free for it, and one more
  for each listener otherwise.
-/
import ReverseProxy.Run

open Run

namespace Connections

/-! ### State -/

/-- Where an accept loop is. -/
inductive ListenerPhase where
  | selecting
  /-- after an accept error -/
  | backingOff
  /-- with an accepted socket, in `acquire_owned` -/
  | acquiring
  /-- with the socket and its permit -/
  | spawning
  | ended
  deriving DecidableEq

/-- Where a connection task is.  It drops the socket first, then the permit,
and the guard last. -/
inductive TaskPhase where
  /-- not polled yet -/
  | spawned
  | handshaking
  | serving
  | closed
  | released
  | finished
  deriving DecidableEq

/-- Where `run_server` is, once the listeners have been started. -/
inductive MainPhase where
  | running
  | joining (next : ℕ)
  | draining
  /-- in the drain loop, after it has seen a count other than zero -/
  | busy
  | exited (remaining : UInt64)
  deriving DecidableEq

structure Server where
  maxConnections : ℕ
  /-- the free permits of the semaphore -/
  available : ℕ
  inFlight : UInt64
  listeners : List ListenerPhase
  tasks : List TaskPhase
  shutdown : Bool
  main : MainPhase
  deriving DecidableEq

def Server.start (maxConnections listeners : ℕ) : Server where
  maxConnections := maxConnections
  available := maxConnections
  inFlight := 0
  listeners := List.replicate listeners .selecting
  tasks := []
  shutdown := false
  main := .running

/-! ### Events -/

inductive Event where
  | accept (l : ℕ)
  | acceptError (l : ℕ)
  | resume (l : ℕ)
  | acquire (l : ℕ)
  | spawn (l : ℕ)
  | stop (l : ℕ)
  | firstPoll (i : ℕ)
  | handshake (i : ℕ)
  | handshakeFailed (i : ℕ) (timedOut : Bool)
  | close (i : ℕ) (idle : Bool)
  | dropPermit (i : ℕ)
  | dropGuard (i : ℕ)
  | signal
  | noticeShutdown
  | join (timedOut : Bool)
  | joined
  | drainCheck
  | drainSleep
  | drainGiveUp
  deriving DecidableEq

namespace Server

def moveListener (s : Server) (l : ℕ) (p q : ListenerPhase) : Option Server :=
  if s.listeners[l]? = some p then some { s with listeners := s.listeners.set l q } else none

def moveTask (s : Server) (i : ℕ) (p q : TaskPhase) : Option Server :=
  if s.tasks[i]? = some p then some { s with tasks := s.tasks.set i q } else none

def moveMain (s : Server) (p q : MainPhase) : Option Server :=
  if s.main = p then some { s with main := q } else none

end Server

/-- One step of a process that has not exited. -/
def stepAlive (s : Server) : Event → Option Server
  | .accept l => s.moveListener l .selecting .acquiring
  | .acceptError l => s.moveListener l .selecting .backingOff
  | .resume l => s.moveListener l .backingOff .selecting
  | .acquire l =>
    if 0 < s.available then
      { s with available := s.available - 1 }.moveListener l .acquiring .spawning
    else none
  | .spawn l =>
    { s with tasks := s.tasks ++ [TaskPhase.spawned] }.moveListener l .spawning .selecting
  | .stop l => if s.shutdown then s.moveListener l .selecting .ended else none
  -- the guard is created inside the task
  | .firstPoll i => { s with inFlight := s.inFlight + 1 }.moveTask i .spawned .handshaking
  | .handshake i => s.moveTask i .handshaking .serving
  | .handshakeFailed i _ => s.moveTask i .handshaking .closed
  | .close i _ => s.moveTask i .serving .closed
  | .dropPermit i => { s with available := s.available + 1 }.moveTask i .closed .released
  | .dropGuard i => { s with inFlight := s.inFlight - 1 }.moveTask i .released .finished
  | .signal => some { s with shutdown := true }
  | .noticeShutdown => if s.shutdown then s.moveMain .running (.joining 0) else none
  | .join timedOut =>
    match s.main with
    | .joining k =>
      if k < s.listeners.length ∧ (timedOut ∨ s.listeners[k]? = some .ended) then
        some { s with main := .joining (k + 1) }
      else none
    | _ => none
  | .joined => s.moveMain (.joining s.listeners.length) .draining
  | .drainCheck => s.moveMain .draining (if s.inFlight = 0 then .exited 0 else .busy)
  | .drainSleep => s.moveMain .busy .draining
  -- the count is read once more when the timeout has passed
  | .drainGiveUp => s.moveMain .busy (.exited s.inFlight)

def step (s : Server) (e : Event) : Option Server :=
  match s.main with
  | .exited _ => none
  | _ => stepAlive s e

/-! ### Who holds what -/

namespace ListenerPhase

def holdsSocket : ListenerPhase → Bool
  | acquiring | spawning => true
  | _ => false

def holdsPermit : ListenerPhase → Bool
  | spawning => true
  | _ => false

def isAcquiring : ListenerPhase → Bool
  | acquiring => true
  | _ => false

end ListenerPhase

namespace TaskPhase

def holdsSocket : TaskPhase → Bool
  | spawned | handshaking | serving => true
  | _ => false

def holdsPermit : TaskPhase → Bool
  | spawned | handshaking | serving | closed => true
  | _ => false

def holdsGuard : TaskPhase → Bool
  | handshaking | serving | closed | released => true
  | _ => false

end TaskPhase

namespace Server

/-- The accepted sockets that are held open. -/
def openSockets (s : Server) : ℕ :=
  s.listeners.countP ListenerPhase.holdsSocket + s.tasks.countP TaskPhase.holdsSocket

def permitsHeld (s : Server) : ℕ :=
  s.listeners.countP ListenerPhase.holdsPermit + s.tasks.countP TaskPhase.holdsPermit

/-- The listeners that have a socket and wait for a permit. -/
def waiting (s : Server) : ℕ := s.listeners.countP ListenerPhase.isAcquiring

def guards (s : Server) : ℕ := s.tasks.countP TaskPhase.holdsGuard

end Server

theorem openSockets_le (s : Server) : s.openSockets ≤ s.permitsHeld + s.waiting := by
  have hlisteners := countP_le_add (f := ListenerPhase.holdsSocket) (g := ListenerPhase.holdsPermit)
    (h := ListenerPhase.isAcquiring) (by
      intro p hp
      cases p with
      | acquiring => exact Or.inr rfl
      | spawning => exact Or.inl rfl
      | _ => cases hp) s.listeners
  have htasks : s.tasks.countP TaskPhase.holdsSocket ≤ s.tasks.countP TaskPhase.holdsPermit := by
    refine List.countP_mono_left fun p _ hp => ?_
    cases p with
    | spawned => rfl
    | handshaking => rfl
    | serving => rfl
    | _ => cases hp
  rw [Server.openSockets, Server.permitsHeld, Server.waiting]
  omega

/-! ### What a step does -/

theorem moveListener_eq_some {s s' : Server} {l : ℕ} {p q : ListenerPhase}
    (h : s.moveListener l p q = some s') :
    s.listeners[l]? = some p ∧ s' = { s with listeners := s.listeners.set l q } := by
  rw [Server.moveListener] at h
  split at h
  · next hp => exact ⟨hp, (Option.some_inj.mp h).symm⟩
  · cases h

theorem moveTask_eq_some {s s' : Server} {i : ℕ} {p q : TaskPhase}
    (h : s.moveTask i p q = some s') :
    s.tasks[i]? = some p ∧ s' = { s with tasks := s.tasks.set i q } := by
  rw [Server.moveTask] at h
  split at h
  · next hp => exact ⟨hp, (Option.some_inj.mp h).symm⟩
  · cases h

theorem moveMain_eq_some {s s' : Server} {p q : MainPhase} (h : s.moveMain p q = some s') :
    s.main = p ∧ s' = { s with main := q } := by
  rw [Server.moveMain] at h
  split at h
  · next hp => exact ⟨hp, (Option.some_inj.mp h).symm⟩
  · cases h

def Event.isAccept : Event → Bool
  | .accept _ => true
  | _ => false

/-- Permits are neither lost nor made, a guard comes and goes with a count,
only an accept adds to the listeners that no free permit is left for, and
`run_server` returns what it has just read off the counter. -/
structure Effect (e : Event) (s s' : Server) : Prop where
  maxConnections : s'.maxConnections = s.maxConnections
  listeners : s'.listeners.length = s.listeners.length
  permits : s'.available + s'.permitsHeld = s.available + s.permitsHeld
  waiting : s'.waiting + s.available
    ≤ s.waiting + s'.available + if e.isAccept then 1 else 0
  guards : s'.inFlight + UInt64.ofNat s.guards = s.inFlight + UInt64.ofNat s'.guards
  exited : s'.main = s.main ∨ ∀ r, s'.main = .exited r → r = s'.inFlight

/-- A listener moves, and takes a permit from the semaphore or leaves a task
behind. -/
theorem effect_of_moveListener {e : Event} {s s' : Server} {available : ℕ}
    {tasks : List TaskPhase} {l : ℕ} {p q : ListenerPhase}
    (h : { s with available := available, tasks := tasks }.moveListener l p q = some s')
    (hpermit : available + tasks.countP TaskPhase.holdsPermit + (if q.holdsPermit then 1 else 0)
      = s.available + s.tasks.countP TaskPhase.holdsPermit + if p.holdsPermit then 1 else 0)
    (hwaiting : (if q.isAcquiring then 1 else 0) + s.available
      ≤ (if p.isAcquiring then 1 else 0) + available + if e.isAccept then 1 else 0)
    (hguards : tasks.countP TaskPhase.holdsGuard = s.guards) : Effect e s s' := by
  obtain ⟨hp, rfl⟩ := moveListener_eq_some h
  have hpermits := countP_set (f := ListenerPhase.holdsPermit) hp q
  have hacquiring := countP_set (f := ListenerPhase.isAcquiring) hp q
  refine ⟨rfl, List.length_set, ?_, ?_, ?_, Or.inl rfl⟩
  · simp only [Server.permitsHeld] at hpermits ⊢
    omega
  · simp only [Server.waiting] at hacquiring ⊢
    omega
  · show s.inFlight + UInt64.ofNat s.guards
      = s.inFlight + UInt64.ofNat (tasks.countP TaskPhase.holdsGuard)
    rw [hguards]

/-- A task moves, and gives a permit back or is counted in or out. -/
theorem effect_of_moveTask {e : Event} {s s' : Server} {available : ℕ} {inFlight : UInt64}
    {i : ℕ} {p q : TaskPhase}
    (h : { s with available := available, inFlight := inFlight }.moveTask i p q = some s')
    (hpermit : available + (if q.holdsPermit then 1 else 0)
      = s.available + if p.holdsPermit then 1 else 0)
    (hfree : s.available ≤ available)
    (hguard : inFlight + UInt64.ofNat (if p.holdsGuard then 1 else 0)
      = s.inFlight + UInt64.ofNat (if q.holdsGuard then 1 else 0)) : Effect e s s' := by
  obtain ⟨hp, rfl⟩ := moveTask_eq_some h
  have hpermits := countP_set (f := TaskPhase.holdsPermit) hp q
  have hguards := countP_set (f := TaskPhase.holdsGuard) hp q
  refine ⟨rfl, rfl, ?_, ?_, ?_, Or.inl rfl⟩
  · simp only [Server.permitsHeld] at hpermits ⊢
    omega
  · simp only [Server.waiting]
    omega
  · have hword := congrArg UInt64.ofNat hguards
    rw [UInt64.ofNat_add, UInt64.ofNat_add] at hword
    show inFlight + UInt64.ofNat s.guards = s.inFlight + UInt64.ofNat (List.countP _ _)
    rw [Server.guards]
    grind

theorem effect_of_main {e : Event} {s : Server} (shutdown : Bool) {main : MainPhase}
    (hmain : main = s.main ∨ ∀ r, main = .exited r → r = s.inFlight) :
    Effect e s { s with shutdown := shutdown, main := main } :=
  ⟨rfl, rfl, rfl, Nat.le_add_right _ _, rfl, hmain⟩

theorem effect_of_stepAlive {s s' : Server} {e : Event} (h : stepAlive s e = some s') :
    Effect e s s' := by
  cases e with
  | accept l =>
    refine effect_of_moveListener h rfl ?_ rfl
    show 1 + s.available ≤ 0 + s.available + 1
    omega
  | acceptError l => exact effect_of_moveListener h rfl le_rfl rfl
  | resume l => exact effect_of_moveListener h rfl le_rfl rfl
  | acquire l =>
    rw [stepAlive] at h
    split at h
    · next hfree =>
      refine effect_of_moveListener h ?_ ?_ rfl
      · show s.available - 1 + _ + 1 = s.available + _ + 0
        omega
      · show 0 + s.available ≤ 1 + (s.available - 1) + 0
        omega
    · cases h
  | spawn l =>
    refine effect_of_moveListener h ?_ le_rfl ?_
    · rw [List.countP_append]
      rfl
    · rw [List.countP_append]
      rfl
  | stop l =>
    rw [stepAlive] at h
    split at h
    · exact effect_of_moveListener h rfl le_rfl rfl
    · cases h
  | firstPoll i =>
    refine effect_of_moveTask h rfl le_rfl ?_
    exact UInt64.add_zero _
  | handshake i => exact effect_of_moveTask h rfl le_rfl rfl
  | handshakeFailed i timedOut => exact effect_of_moveTask h rfl le_rfl rfl
  | close i idle => exact effect_of_moveTask h rfl le_rfl rfl
  | dropPermit i => exact effect_of_moveTask h rfl (Nat.le_succ _) rfl
  | dropGuard i =>
    refine effect_of_moveTask h rfl le_rfl ?_
    exact (UInt64.sub_add_cancel _ _).trans (UInt64.add_zero _).symm
  | signal =>
    rw [← Option.some_inj.mp h]
    exact effect_of_main true (Or.inl rfl)
  | noticeShutdown =>
    rw [stepAlive] at h
    split at h
    · obtain ⟨-, rfl⟩ := moveMain_eq_some h
      exact effect_of_main s.shutdown (Or.inr nofun)
    · cases h
  | join timedOut =>
    rw [stepAlive] at h
    split at h
    · split at h
      · rw [← Option.some_inj.mp h]
        exact effect_of_main s.shutdown (Or.inr nofun)
      · cases h
    · cases h
  | joined =>
    obtain ⟨-, rfl⟩ := moveMain_eq_some h
    exact effect_of_main s.shutdown (Or.inr nofun)
  | drainCheck =>
    obtain ⟨-, rfl⟩ := moveMain_eq_some h
    refine effect_of_main s.shutdown (Or.inr fun r hr => ?_)
    split at hr
    · next hzero => rw [← MainPhase.exited.inj hr, hzero]
    · cases hr
  | drainSleep =>
    obtain ⟨-, rfl⟩ := moveMain_eq_some h
    exact effect_of_main s.shutdown (Or.inr nofun)
  | drainGiveUp =>
    obtain ⟨-, rfl⟩ := moveMain_eq_some h
    exact effect_of_main s.shutdown (Or.inr fun r hr => (MainPhase.exited.inj hr).symm)

/-- The process takes no step once `run_server` has returned. -/
theorem step_alive {s s' : Server} {e : Event} (h : step s e = some s') :
    (∀ r, s.main ≠ .exited r) ∧ stepAlive s e = some s' := by
  rw [step] at h
  split at h
  · cases h
  · next halive => exact ⟨halive, h⟩

theorem step_effect {s s' : Server} {e : Event} (h : step s e = some s') : Effect e s s' :=
  effect_of_stepAlive (step_alive h).2

/-! ### The cap on connections -/

/-- The semaphore and the counter account for what the parties hold. -/
structure Inv (maxConnections listeners : ℕ) (s : Server) : Prop where
  listeners : s.listeners.length = listeners
  permits : s.available + s.permitsHeld = maxConnections
  guards : s.inFlight = UInt64.ofNat s.guards
  exited : ∀ r, s.main = .exited r → r = s.inFlight

theorem start_inv (maxConnections listeners : ℕ) :
    Inv maxConnections listeners (Server.start maxConnections listeners) where
  listeners := List.length_replicate
  permits := by
    simp [Server.start, Server.permitsHeld, List.countP_replicate, ListenerPhase.holdsPermit]
  guards := rfl
  exited := nofun

theorem step_inv {maxConnections listeners : ℕ} {s s' : Server} {e : Event}
    (hinv : Inv maxConnections listeners s) (h : step s e = some s') :
    Inv maxConnections listeners s' where
  listeners := (step_effect h).listeners.trans hinv.listeners
  permits := (step_effect h).permits.trans hinv.permits
  guards := by
    have hguards := (step_effect h).guards
    rw [hinv.guards, UInt64.add_comm] at hguards
    exact (UInt64.add_right_inj _).mp hguards
  exited r hr := by
    rcases (step_effect h).exited with hmain | hread
    · exact absurd (hmain.symm.trans hr) ((step_alive h).1 r)
    · exact hread r hr

theorem run_inv {maxConnections listeners : ℕ} {es : List Event} {s : Server}
    (h : run step (Server.start maxConnections listeners) es = some s) :
    Inv maxConnections listeners s :=
  run_induction step_inv (start_inv maxConnections listeners) h

/-- A client is accepted only while more permits are free than listeners
already wait for. -/
def PermitFree (s : Server) (e : Event) : Prop := e.isAccept = true → s.waiting < s.available

instance (s : Server) (e : Event) : Decidable (PermitFree s e) :=
  inferInstanceAs (Decidable (e.isAccept = true → s.waiting < s.available))

theorem waiting_le_available {maxConnections listeners : ℕ} {es : List Event} {s : Server}
    (halong : Along step PermitFree (Server.start maxConnections listeners) es)
    (h : run step (Server.start maxConnections listeners) es = some s) :
    s.waiting ≤ s.available := by
  refine run_induction_along (I := fun s => s.waiting ≤ s.available) ?_ es ?_ halong h
  · intro s e s' hle hfree hstep
    have hwaiting := (step_effect hstep).waiting
    by_cases haccept : e.isAccept
    · have hlt := hfree haccept
      rw [if_pos haccept] at hwaiting
      omega
    · rw [if_neg haccept] at hwaiting
      omega
  · simp [Server.start, Server.waiting, List.countP_replicate, ListenerPhase.isAcquiring]

/-- **The cap on connections.**  Whatever the interleaving, at most one socket
for each listener is open beyond `max_connections`; and none is where clients
are accepted only while a permit is free for them. -/
theorem openSockets_capped (maxConnections listeners : ℕ) (es : List Event) (s : Server)
    (h : run step (Server.start maxConnections listeners) es = some s) :
    s.openSockets ≤ maxConnections + listeners ∧
    (Along step PermitFree (Server.start maxConnections listeners) es →
      s.openSockets ≤ maxConnections) := by
  have hinv := run_inv h
  have hpermits := hinv.permits
  have hopen := openSockets_le s
  refine ⟨?_, fun halong => ?_⟩
  · have hwaiting : s.waiting ≤ listeners := hinv.listeners ▸ List.countP_le_length
    omega
  · have hwaiting := waiting_le_available halong h
    omega

/-- One listener, one permit: the first client has it and the second is
accepted. -/
def saturated : List Event := [.accept 0, .acquire 0, .spawn 0, .accept 0]

theorem openSockets_exceed :
    ∃ s, run step (Server.start 1 1) saturated = some s ∧ s.openSockets = 2 ∧
      ¬ s.openSockets ≤ s.maxConnections :=
  ⟨_, rfl, rfl, by decide⟩

/-- The second client is accepted after the first one has given its permit
back. -/
def inTurn : List Event :=
  [.accept 0, .acquire 0, .spawn 0, .firstPoll 0, .handshake 0, .close 0 true, .dropPermit 0,
    .accept 0]

theorem openSockets_capped_inTurn :
    ∃ s, run step (Server.start 1 1) inTurn = some s ∧ s.openSockets ≤ 1 := by
  obtain ⟨s, hs⟩ : ∃ s, run step (Server.start 1 1) inTurn = some s := ⟨_, rfl⟩
  exact ⟨s, hs, (openSockets_capped 1 1 inTurn s hs).2 (by decide)⟩

end Connections
