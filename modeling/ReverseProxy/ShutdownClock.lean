/-
How long a shutdown takes.

After the signal `run_server` waits for each listener in turn, for at most the
shutdown timeout each, and then lets `drain_in_flight` look at the count every
100 ms until the timeout has passed once more.  The transition system of
`Connections` gets a clock here.  The timers are those of the source; a task
that can run is run within `delay`, which stands for the scheduler.

* `main_of_step` — the part of `run_server` in a step;
* `latest`, `InTime` — how late `run_server` is polled next, phase by phase;
* `inTime_joining`, `inTime_draining`, `inTime_busy`, `inTime_exited` — the
  phases that it enters.
-/
import ReverseProxy.Connections
import Mathlib.Data.NNRat.Defs
import Mathlib.Tactic.Linarith
import Mathlib.Tactic.Positivity
import Mathlib.Tactic.Ring

open Run

namespace Connections

/-! ### The part of `run_server` -/

def Event.isMain : Event → Bool
  | .noticeShutdown | .join _ | .joined | .drainCheck | .drainSleep | .drainGiveUp => true
  | _ => false

/-- What a step does to the phase of `run_server`. -/
inductive MainMove (s s' : Server) : Event → Prop
  | notice (hflag : s.shutdown = true) (hmain : s.main = .running)
      (hnext : s'.main = .joining 0) : MainMove s s' .noticeShutdown
  | join {k : ℕ} {timedOut : Bool} (hmain : s.main = .joining k) (hk : k < s.listeners.length)
      (hnext : s'.main = .joining (k + 1)) : MainMove s s' (.join timedOut)
  | joined (hmain : s.main = .joining s.listeners.length) (hnext : s'.main = .draining) :
      MainMove s s' .joined
  | drained (hmain : s.main = .draining) (hnext : s'.main = .exited 0) : MainMove s s' .drainCheck
  | busy (hmain : s.main = .draining) (hnext : s'.main = .busy) : MainMove s s' .drainCheck
  | sleep (hmain : s.main = .busy) (hnext : s'.main = .draining) : MainMove s s' .drainSleep
  | giveUp (hmain : s.main = .busy) (hnext : s'.main = .exited s.inFlight) :
      MainMove s s' .drainGiveUp

/-- A step is one of `run_server`, the signal, or one of the others, which
leave `run_server` and the flag as they are. -/
inductive MainStep (s s' : Server) (e : Event) : Prop
  | main (hmove : MainMove s s' e) (hflag : s'.shutdown = s.shutdown)
  | signal (hevent : e = .signal) (hmain : s'.main = s.main) (hflag : s'.shutdown = true)
  | other (hevent : e.isMain = false) (hne : e ≠ .signal) (hmain : s'.main = s.main)
      (hflag : s'.shutdown = s.shutdown)

theorem mainStep_of_moveListener {s s₀ s' : Server} {e : Event} {l : ℕ} {p q : ListenerPhase}
    (h : s₀.moveListener l p q = some s') (hmain : s₀.main = s.main)
    (hflag : s₀.shutdown = s.shutdown) (hevent : e.isMain = false) (hne : e ≠ .signal) :
    MainStep s s' e := by
  obtain ⟨-, rfl⟩ := moveListener_eq_some h
  exact .other hevent hne hmain hflag

theorem mainStep_of_moveTask {s s₀ s' : Server} {e : Event} {i : ℕ} {p q : TaskPhase}
    (h : s₀.moveTask i p q = some s') (hmain : s₀.main = s.main)
    (hflag : s₀.shutdown = s.shutdown) (hevent : e.isMain = false) (hne : e ≠ .signal) :
    MainStep s s' e := by
  obtain ⟨-, rfl⟩ := moveTask_eq_some h
  exact .other hevent hne hmain hflag

theorem main_of_step {s s' : Server} {e : Event} (h : step s e = some s') : MainStep s s' e := by
  replace h := (step_alive h).2
  cases e with
  | accept l => exact mainStep_of_moveListener h rfl rfl rfl (by simp)
  | acceptError l => exact mainStep_of_moveListener h rfl rfl rfl (by simp)
  | resume l => exact mainStep_of_moveListener h rfl rfl rfl (by simp)
  | acquire l =>
    rw [stepAlive] at h
    split at h
    · exact mainStep_of_moveListener h rfl rfl rfl (by simp)
    · cases h
  | spawn l => exact mainStep_of_moveListener h rfl rfl rfl (by simp)
  | stop l =>
    rw [stepAlive] at h
    split at h
    · exact mainStep_of_moveListener h rfl rfl rfl (by simp)
    · cases h
  | firstPoll i => exact mainStep_of_moveTask h rfl rfl rfl (by simp)
  | handshake i => exact mainStep_of_moveTask h rfl rfl rfl (by simp)
  | handshakeFailed i timedOut => exact mainStep_of_moveTask h rfl rfl rfl (by simp)
  | close i idle => exact mainStep_of_moveTask h rfl rfl rfl (by simp)
  | dropPermit i => exact mainStep_of_moveTask h rfl rfl rfl (by simp)
  | dropGuard i => exact mainStep_of_moveTask h rfl rfl rfl (by simp)
  | signal =>
    obtain rfl := Option.some_inj.mp h
    exact .signal rfl rfl rfl
  | noticeShutdown =>
    rw [stepAlive] at h
    split at h
    · next hflag =>
      obtain ⟨hmain, rfl⟩ := moveMain_eq_some h
      exact .main (.notice hflag hmain rfl) rfl
    · cases h
  | join timedOut =>
    rw [stepAlive] at h
    split at h
    · next k hmain =>
      split at h
      · next hk =>
        obtain rfl := Option.some_inj.mp h
        exact .main (.join hmain hk.1 rfl) rfl
      · cases h
    · cases h
  | joined =>
    obtain ⟨hmain, rfl⟩ := moveMain_eq_some h
    exact .main (.joined hmain rfl) rfl
  | drainCheck =>
    obtain ⟨hmain, rfl⟩ := moveMain_eq_some h
    by_cases hzero : s.inFlight = 0
    · exact .main (.drained hmain (if_pos hzero)) rfl
    · exact .main (.busy hmain (if_neg hzero)) rfl
  | drainSleep =>
    obtain ⟨hmain, rfl⟩ := moveMain_eq_some h
    exact .main (.sleep hmain rfl) rfl
  | drainGiveUp =>
    obtain ⟨hmain, rfl⟩ := moveMain_eq_some h
    exact .main (.giveUp hmain rfl) rfl

end Connections

namespace ShutdownTime

open Connections (Server Event MainPhase MainMove MainStep)

/-! ### The clock -/

structure Clock where
  shutdownTimeoutSecs : UInt64
  /-- how long a task that can run waits for its turn -/
  delay : ℚ
  delay_nonneg : 0 ≤ delay

/-- `shutdown_timeout`, in seconds. -/
def Clock.timeout (c : Clock) : ℚ := c.shutdownTimeoutSecs.toNat

/-- The pause of the drain loop, in seconds. -/
def pollInterval : ℚ := 1 / 10

structure Timed where
  server : Server
  now : ℚ
  /-- `run_server` is polled by then, unless it waits for the signal -/
  due : Option ℚ
  /-- when its timer fires, if it has one -/
  timer : ℚ
  /-- when `drain_in_flight` was called -/
  drainStart : ℚ
  /-- in the drain loop, whether the timeout had passed when it looked -/
  elapsed : Option Bool
  signalledAt : Option ℚ

def Timed.start (maxConnections listeners : ℕ) : Timed where
  server := Server.start maxConnections listeners
  now := 0
  due := none
  timer := 0
  drainStart := 0
  elapsed := none
  signalledAt := none

inductive TimedEvent where
  | pass (d : ℚ)
  | act (e : Event)
  /-- `start.elapsed() >= timeout` in the drain loop -/
  | readElapsed
  deriving DecidableEq

section

variable (c : Clock)

namespace Timed

/-- `run_server` goes on when it gets its turn. -/
def ready (s : Timed) : Timed := { s with due := some (s.now + c.delay) }

/-- `run_server` waits, on a timer at the latest. -/
def sleep (s : Timed) (d : ℚ) : Timed :=
  { s with timer := s.now + d, due := some (s.now + d + c.delay) }

/-- How `run_server` waits in the phase that it has just entered. -/
def resume (s : Timed) : Timed :=
  match s.server.main with
  | .running => s
  | .joining k => if k < s.server.listeners.length then s.sleep c c.timeout else s.ready c
  | .draining => s.ready c
  | .busy => { s with elapsed := none }.ready c
  | .exited _ => { s with due := none }

/-- The events of `run_server` that wait for a timer, or for what it has read
off the clock. -/
def allows (s : Timed) : Event → Bool
  | .join true => s.timer ≤ s.now
  | .drainSleep => s.elapsed = some false ∧ s.timer ≤ s.now
  | .drainGiveUp => s.elapsed = some true
  | _ => true

def after (s : Timed) (server : Server) : Event → Timed
  | .signal =>
    if s.server.shutdown then { s with server := server }
    else { s with server := server, signalledAt := some s.now }.ready c
  | .joined => { s with server := server, drainStart := s.now }.resume c
  | .noticeShutdown | .join _ | .drainCheck | .drainSleep | .drainGiveUp =>
    { s with server := server }.resume c
  | _ => { s with server := server }

def hasExited (s : Timed) : Bool :=
  match s.server.main with
  | .exited _ => true
  | _ => false

end Timed

def step (s : Timed) : TimedEvent → Option Timed
  -- the scheduler does not let `run_server` wait beyond `due`
  | .pass d =>
    if s.hasExited = false ∧ 0 ≤ d ∧ ∀ due ∈ s.due, s.now + d ≤ due then
      some { s with now := s.now + d }
    else none
  | .act e =>
    if s.allows e then (Connections.step s.server e).map fun server => s.after c server e
    else none
  | .readElapsed =>
    if s.server.main = .busy ∧ s.elapsed = none then
      if c.timeout ≤ s.now - s.drainStart then some ({ s with elapsed := some true }.ready c)
      else some ({ s with elapsed := some false }.sleep c pollInterval)
    else none

/-! ### How late -/

/-- The drain begins by then. -/
def drainBy (listeners : ℕ) (t₀ : ℚ) : ℚ :=
  t₀ + c.delay + listeners * (c.timeout + c.delay) + c.delay

/-- `run_server` is polled next by then, or has exited. -/
def latest (listeners : ℕ) (t₀ : ℚ) (s : Timed) : ℚ :=
  match s.server.main with
  | .running => t₀ + c.delay
  | .joining k =>
    if k < listeners then t₀ + c.delay + (k + 1) * (c.timeout + c.delay) else drainBy c listeners t₀
  | .draining => s.drainStart + c.timeout + pollInterval + 2 * c.delay
  | .busy =>
    s.drainStart + c.timeout + pollInterval + (match s.elapsed with
      | some false => c.delay
      | none => 3 * c.delay
      | some true => 4 * c.delay)
  | .exited _ => s.drainStart + c.timeout + pollInterval + 4 * c.delay

/-! ### Once signalled -/

/-- `run_server` has set a timer. -/
def Timed.OnTimer (s : Timed) : Prop :=
  (∃ k, s.server.main = .joining k ∧ k < s.server.listeners.length) ∨
    s.server.main = .busy ∧ s.elapsed = some false

def InDrain (main : MainPhase) : Prop := main ≠ .running ∧ ∀ k, main ≠ .joining k

/-- The state of a process that was signalled at `t₀`. -/
structure InTime (listeners : ℕ) (t₀ : ℚ) (s : Timed) : Prop where
  drainStart : InDrain s.server.main → s.drainStart ≤ drainBy c listeners t₀
  now : s.now ≤ latest c listeners t₀ s
  due : s.hasExited = false → ∃ due, s.due = some due ∧ s.now ≤ due ∧
    due ≤ latest c listeners t₀ s ∧ (s.OnTimer → s.timer ≤ due)

variable {c} {listeners : ℕ} {t₀ : ℚ} {s : Timed}

theorem inTime_ready (hdrain : InDrain s.server.main → s.drainStart ≤ drainBy c listeners t₀)
    (hlate : s.now + c.delay ≤ latest c listeners t₀ s) (htimer : ¬ s.OnTimer) :
    InTime c listeners t₀ (s.ready c) := by
  have hnow : s.now ≤ s.now + c.delay := le_add_of_nonneg_right c.delay_nonneg
  exact ⟨hdrain, hnow.trans hlate, fun _ =>
    ⟨s.now + c.delay, rfl, hnow, hlate, fun h => absurd h htimer⟩⟩

theorem inTime_sleep {d : ℚ} (hd : 0 ≤ d)
    (hdrain : InDrain s.server.main → s.drainStart ≤ drainBy c listeners t₀)
    (hlate : s.now + d + c.delay ≤ latest c listeners t₀ s) :
    InTime c listeners t₀ (s.sleep c d) := by
  have htimer : s.now + d ≤ s.now + d + c.delay := le_add_of_nonneg_right c.delay_nonneg
  have hnow : s.now ≤ s.now + d + c.delay := (le_add_of_nonneg_right hd).trans htimer
  exact ⟨hdrain, hnow.trans hlate, fun _ =>
    ⟨s.now + d + c.delay, rfl, hnow, hlate, fun _ => htimer⟩⟩

theorem timeout_nonneg : 0 ≤ c.timeout := Nat.cast_nonneg _

theorem pollInterval_pos : 0 < pollInterval := by
  rw [pollInterval]
  norm_num

theorem not_inDrain_joining {k : ℕ} : ¬ InDrain (.joining k) := fun h => h.2 k rfl

/-- The wait for the listener `k`, or the end of these waits. -/
theorem inTime_joining {k : ℕ} (hmain : s.server.main = .joining k)
    (hlisteners : s.server.listeners.length = listeners) (hk : k ≤ listeners)
    (hnow : s.now ≤ t₀ + c.delay + k * (c.timeout + c.delay)) :
    InTime c listeners t₀ (s.resume c) := by
  have hdrain : InDrain s.server.main → s.drainStart ≤ drainBy c listeners t₀ := fun h =>
    absurd (hmain ▸ h) not_inDrain_joining
  rw [Timed.resume, hmain]
  dsimp only
  rw [hlisteners]
  split
  · next hlt =>
    refine inTime_sleep timeout_nonneg hdrain ?_
    rw [latest, hmain]
    dsimp only
    rw [if_pos hlt]
    linarith
  · next hlt =>
    obtain rfl : k = listeners := by omega
    refine inTime_ready hdrain ?_ ?_
    · rw [latest, hmain]
      dsimp only
      rw [if_neg hlt, drainBy]
      linarith
    · rintro (⟨k', hmain', hk'⟩ | ⟨hbusy, -⟩)
      · rw [hmain, MainPhase.joining.injEq] at hmain'
        omega
      · rw [hmain] at hbusy
        cases hbusy

/-- The next turn of the drain loop. -/
theorem inTime_draining (hmain : s.server.main = .draining)
    (hdrain : s.drainStart ≤ drainBy c listeners t₀)
    (hnow : s.now ≤ s.drainStart + c.timeout + pollInterval + c.delay) :
    InTime c listeners t₀ (s.resume c) := by
  rw [Timed.resume, hmain]
  refine inTime_ready (fun _ => hdrain) ?_ ?_
  · rw [latest, hmain]
    dsimp only
    linarith
  · rintro (⟨k, hmain', -⟩ | ⟨hbusy, -⟩)
    · rw [hmain] at hmain'
      cases hmain'
    · rw [hmain] at hbusy
      cases hbusy

theorem inTime_busy (hmain : s.server.main = .busy)
    (hdrain : s.drainStart ≤ drainBy c listeners t₀)
    (hnow : s.now ≤ s.drainStart + c.timeout + pollInterval + 2 * c.delay) :
    InTime c listeners t₀ (s.resume c) := by
  rw [Timed.resume, hmain]
  refine inTime_ready (s := { s with elapsed := none }) (fun _ => hdrain) ?_ ?_
  · rw [latest]
    dsimp only
    rw [hmain]
    dsimp only
    linarith
  · rintro (⟨k, hmain', -⟩ | ⟨-, helapsed⟩)
    · rw [hmain] at hmain'
      cases hmain'
    · cases helapsed

theorem inTime_exited {r : UInt64} (hmain : s.server.main = .exited r)
    (hdrain : s.drainStart ≤ drainBy c listeners t₀)
    (hnow : s.now ≤ s.drainStart + c.timeout + pollInterval + 4 * c.delay) :
    InTime c listeners t₀ (s.resume c) := by
  rw [Timed.resume, hmain]
  dsimp only
  refine ⟨fun _ => hdrain, ?_, fun halive => ?_⟩
  · rw [latest]
    dsimp only
    rw [hmain]
    exact hnow
  · rw [Timed.hasExited] at halive
    dsimp only at halive
    rw [hmain] at halive
    cases halive

/-! ### What a step leaves alone -/

@[simp] theorem resume_server (s : Timed) : (s.resume c).server = s.server := by
  rw [Timed.resume]
  split
  · rfl
  · split <;> rfl
  · rfl
  · rfl
  · rfl

@[simp] theorem resume_signalledAt (s : Timed) : (s.resume c).signalledAt = s.signalledAt := by
  rw [Timed.resume]
  split
  · rfl
  · split <;> rfl
  · rfl
  · rfl
  · rfl

theorem after_server (s : Timed) (server : Server) (e : Event) :
    (s.after c server e).server = server := by
  cases e with
  | signal =>
    rw [Timed.after]
    split <;> rfl
  | joined => exact resume_server _
  | noticeShutdown => exact resume_server _
  | join timedOut => exact resume_server _
  | drainCheck => exact resume_server _
  | drainSleep => exact resume_server _
  | drainGiveUp => exact resume_server _
  | _ => rfl

theorem after_signalledAt (s : Timed) (server : Server) {e : Event} (hne : e ≠ .signal) :
    (s.after c server e).signalledAt = s.signalledAt := by
  cases e with
  | signal => exact absurd rfl hne
  | joined => exact resume_signalledAt _
  | noticeShutdown => exact resume_signalledAt _
  | join timedOut => exact resume_signalledAt _
  | drainCheck => exact resume_signalledAt _
  | drainSleep => exact resume_signalledAt _
  | drainGiveUp => exact resume_signalledAt _
  | _ => rfl

theorem after_other (s : Timed) (server : Server) {e : Event} (hevent : e.isMain = false)
    (hne : e ≠ .signal) : s.after c server e = { s with server := server } := by
  cases e with
  | signal => exact absurd rfl hne
  | joined => cases hevent
  | noticeShutdown => cases hevent
  | join timedOut => cases hevent
  | drainCheck => cases hevent
  | drainSleep => cases hevent
  | drainGiveUp => cases hevent
  | _ => rfl

end

end ShutdownTime
