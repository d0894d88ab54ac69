/-
Signals.

The process catches four signals.  A handler notes in a slot of its own that a
signal has come; a thread takes the noted signals from their slots and sends
them into a channel of sixteen places, and waits while it is full; a task
receives them one by one and does what each asks for before it receives the
next.  The first termination signal ends the task, and with it the channel.

* `room_step` — the channel holds no more than its places;
* `signal_not_lost` — a signal is received after it was raised, although
  signals that come while one is noted are not counted;
* `shutdown_bounded` — at most sixteen signals are received once a termination
  signal is in the channel, and none after the shutdown.
-/
import ReverseProxy.Simulation

open Run

namespace Signals

/-! ### The parties -/

inductive Signal where
  | sigterm
  | sigint
  | sighup
  | sigusr1
  deriving DecidableEq

def Signal.isTermination : Signal → Bool
  | sigterm | sigint => true
  | _ => false

/-- Where the receiving task is. -/
inductive TaskPhase where
  | receiving
  | handling (sig : Signal)
  | ended
  deriving DecidableEq

/-- The places of the channel. -/
def capacity : ℕ := 16

structure Pipeline where
  /-- the slots of the signal handlers -/
  pending : Signal → Bool
  /-- what the thread is sending -/
  sending : Option Signal
  queue : List Signal
  threadRunning : Bool
  task : TaskPhase

def Pipeline.start : Pipeline where
  pending := fun _ => false
  sending := none
  queue := []
  threadRunning := true
  task := .receiving

inductive Event where
  | raise (sig : Signal)
  | take (sig : Signal)
  | send
  | sendFailed
  | recv (sig : Signal)
  /-- the handler of `SIGHUP` or `SIGUSR1` returns -/
  | handled
  /-- `trigger_shutdown`, and the loop is left -/
  | trigger
  deriving DecidableEq

def step (s : Pipeline) : Event → Option Pipeline
  | .raise sig => some { s with pending := Function.update s.pending sig true }
  | .take sig =>
    if s.threadRunning ∧ s.sending = none ∧ s.pending sig then
      some { s with pending := Function.update s.pending sig false, sending := some sig }
    else none
  | .send =>
    match s.sending with
    | some sig =>
      if s.task ≠ .ended ∧ s.queue.length < capacity then
        some { s with sending := none, queue := s.queue ++ [sig] }
      else none
    | none => none
  | .sendFailed =>
    -- the receiver is gone with the task
    if s.task = .ended ∧ s.sending ≠ none then
      some { s with sending := none, threadRunning := false }
    else none
  | .recv sig =>
    match s.queue with
    | first :: rest =>
      if s.task = .receiving ∧ first = sig then
        some { s with queue := rest, task := .handling sig }
      else none
    | [] => none
  | .handled =>
    match s.task with
    | .handling sig =>
      if sig.isTermination then none else some { s with task := .receiving }
    | _ => none
  | .trigger =>
    match s.task with
    | .handling sig =>
      if sig.isTermination then some { s with queue := [], task := .ended } else none
    | _ => none

/-! ### What a step does -/

/-- The steps, one by one. -/
inductive Move (s : Pipeline) : Event → Pipeline → Prop
  | raise (sig : Signal) :
    Move s (.raise sig) { s with pending := Function.update s.pending sig true }
  | take (sig : Signal) (hfree : s.sending = none) (h : s.pending sig = true) :
    Move s (.take sig)
      { s with pending := Function.update s.pending sig false, sending := some sig }
  | send (sig : Signal) (h : s.sending = some sig) (halive : s.task ≠ .ended)
    (hroom : s.queue.length < capacity) :
    Move s .send { s with sending := none, queue := s.queue ++ [sig] }
  | sendFailed (h : s.task = .ended) :
    Move s .sendFailed { s with sending := none, threadRunning := false }
  | recv (sig : Signal) (rest : List Signal) (hqueue : s.queue = sig :: rest)
    (htask : s.task = .receiving) :
    Move s (.recv sig) { s with queue := rest, task := .handling sig }
  | handled (sig : Signal) (htask : s.task = .handling sig) (h : sig.isTermination = false) :
    Move s .handled { s with task := .receiving }
  | trigger (sig : Signal) (htask : s.task = .handling sig) (h : sig.isTermination = true) :
    Move s .trigger { s with queue := [], task := .ended }

theorem move_of_step {s s' : Pipeline} {e : Event} (h : step s e = some s') : Move s e s' := by
  cases e with
  | raise sig =>
    obtain rfl := Option.some_inj.mp h
    exact .raise sig
  | take sig =>
    rw [step] at h
    split at h
    · next hguard =>
      obtain rfl := Option.some_inj.mp h
      exact .take sig hguard.2.1 hguard.2.2
    · cases h
  | send =>
    rw [step] at h
    split at h
    · next sig hsig =>
      split at h
      · next hguard =>
        obtain rfl := Option.some_inj.mp h
        exact .send sig hsig hguard.1 hguard.2
      · cases h
    · cases h
  | sendFailed =>
    rw [step] at h
    split at h
    · next hguard =>
      obtain rfl := Option.some_inj.mp h
      exact .sendFailed hguard.1
    · cases h
  | recv sig =>
    rw [step] at h
    split at h
    · next first rest hqueue =>
      split at h
      · next hguard =>
        obtain rfl := Option.some_inj.mp h
        exact .recv sig rest (hguard.2 ▸ hqueue) hguard.1
      · cases h
    · cases h
  | handled =>
    rw [step] at h
    split at h
    · next sig htask =>
      split at h
      · cases h
      · next hsig =>
        obtain rfl := Option.some_inj.mp h
        exact .handled sig htask (Bool.eq_false_iff.mpr hsig)
    · cases h
  | trigger =>
    rw [step] at h
    split at h
    · next sig htask =>
      split at h
      · next hsig =>
        obtain rfl := Option.some_inj.mp h
        exact .trigger sig htask hsig
      · cases h
    · cases h

/-- The channel has room for all that it holds. -/
theorem room_step {s s' : Pipeline} {e : Event} (h : s.queue.length ≤ capacity)
    (hstep : step s e = some s') : s'.queue.length ≤ capacity := by
  cases move_of_step hstep with
  | send sig hsig halive hroom =>
    rw [List.length_append]
    exact hroom
  | recv sig rest hqueue htask =>
    rw [hqueue] at h
    exact (Nat.le_succ _).trans h
  | trigger sig htask hsig => exact Nat.zero_le _
  | _ => exact h

/-! ### No signal is lost -/

/-- The signal has been raised and is on its way to the task. -/
def OnItsWay (sig : Signal) (s : Pipeline) : Prop :=
  s.pending sig = true ∨ s.sending = some sig ∨ sig ∈ s.queue

/-- Nothing is on its way, and the task waits for a signal. -/
structure AtRest (s : Pipeline) : Prop where
  pending : ∀ sig, s.pending sig = false
  sending : s.sending = none
  queue : s.queue = []
  task : s.task = .receiving

theorem AtRest.not_onItsWay {s : Pipeline} (h : AtRest s) (sig : Signal) : ¬ OnItsWay sig s := by
  rintro (hpending | hsending | hqueue)
  · rw [h.pending] at hpending
    cases hpending
  · rw [h.sending] at hsending
    cases hsending
  · rw [h.queue] at hqueue
    exact absurd hqueue List.not_mem_nil

/-- A signal stays on its way until it is received, or the task ends. -/
theorem onItsWay_step {sig : Signal} {s s' : Pipeline} {e : Event} (h : OnItsWay sig s)
    (hstep : step s e = some s') : e = .recv sig ∨ s'.task = .ended ∨ OnItsWay sig s' := by
  cases move_of_step hstep with
  | raise other =>
    right; right
    by_cases hsig : sig = other
    · exact Or.inl (by rw [hsig]; exact Function.update_self ..)
    · exact h.imp_left fun hpending => (Function.update_of_ne hsig ..).trans hpending
  | take other hfree hother =>
    right; right
    by_cases hsig : sig = other
    · exact Or.inr (Or.inl (by rw [hsig]))
    · rcases h with hpending | hsending | hqueue
      · exact Or.inl ((Function.update_of_ne hsig ..).trans hpending)
      · rw [hfree] at hsending
        cases hsending
      · exact Or.inr (Or.inr hqueue)
  | send other hother halive hroom =>
    right; right
    rcases h with hpending | hsending | hqueue
    · exact Or.inl hpending
    · rw [hother, Option.some_inj] at hsending
      exact Or.inr (Or.inr (by simp [hsending]))
    · exact Or.inr (Or.inr (List.mem_append_left _ hqueue))
  | sendFailed hended => exact Or.inr (Or.inl hended)
  | recv other rest hqueue htask =>
    by_cases hsig : sig = other
    · exact Or.inl (by rw [hsig])
    · right; right
      rcases h with hpending | hsending | hmem
      · exact Or.inl hpending
      · exact Or.inr (Or.inl hsending)
      · rw [hqueue, List.mem_cons] at hmem
        exact Or.inr (Or.inr (hmem.resolve_left hsig))
  | handled other htask hother => exact Or.inr (Or.inr h)
  | trigger other htask hother => exact Or.inr (Or.inl rfl)

/-- A task that has ended does not come back. -/
theorem ended_step {s s' : Pipeline} {e : Event} (h : s.task = .ended)
    (hstep : step s e = some s') :
    s'.task = .ended ∧ (∀ sig, e ≠ .recv sig) ∧ e ≠ .handled ∧ e ≠ .trigger := by
  cases move_of_step hstep with
  | recv sig rest hqueue htask => rw [h] at htask; cases htask
  | handled sig htask hsig => rw [h] at htask; cases htask
  | trigger sig htask hsig => rw [h] at htask; cases htask
  | _ => exact ⟨h, nofun, nofun, nofun⟩

/-- Only `handled` takes the task out of a handler that does not end it. -/
theorem handling_step {s s' : Pipeline} {e : Event} {sig : Signal}
    (h : s.task = .handling sig) (hsig : sig.isTermination = false) (he : e ≠ .handled)
    (hstep : step s e = some s') : s'.task = .handling sig := by
  cases move_of_step hstep with
  | recv other rest hqueue htask =>
    rw [h] at htask
    cases htask
  | handled other htask hother => exact absurd rfl he
  | trigger other htask hother =>
    rw [h] at htask
    cases htask
    rw [hsig] at hother
    cases hother
  | _ => exact h

/-- **No signal is lost.**  When a signal has been raised, in whatever state,
and everything has come to rest again, then the signal was received, and its
handler run, after it had been raised. -/
theorem signal_not_lost (s s' : Pipeline) (sig : Signal) (es : List Event)
    (h : run step s (.raise sig :: es) = some s') (hrest : AtRest s') : .recv sig ∈ es := by
  have hraised : OnItsWay sig { s with pending := Function.update s.pending sig true } :=
    Or.inl (Function.update_self ..)
  have hhistory := run_history (I := fun es s => .recv sig ∈ es ∨ s.task = .ended ∨ OnItsWay sig s)
    (Or.inr (Or.inr hraised)) ?_ es h
  · rcases hhistory with hrecv | hended | hway
    · exact hrecv
    · rw [hrest.task] at hended
      cases hended
    · exact absurd hway (hrest.not_onItsWay sig)
  · intro es t e t' _ ht hstep
    rcases ht with hrecv | hended | hway
    · exact Or.inl (List.mem_append_left _ hrecv)
    · exact Or.inr (Or.inl (ended_step hended hstep).1)
    · rcases onItsWay_step hway hstep with rfl | hrest
      · exact Or.inl (by simp)
      · exact Or.inr hrest

def handledOnce : List Event := [.take .sighup, .send, .recv .sighup, .handled]

/-- A second `SIGHUP` while the first one is on its way is not counted, but the
handler runs after it. -/
theorem signal_not_lost_twice :
    ∃ s s', run step Pipeline.start [.raise .sighup] = some s ∧
      run step s (.raise .sighup :: handledOnce) = some s' ∧ .recv .sighup ∈ handledOnce := by
  obtain ⟨s', hs'⟩ : ∃ s', run step { Pipeline.start with
      pending := Function.update Pipeline.start.pending .sighup true }
        (.raise .sighup :: handledOnce) = some s' := ⟨_, rfl⟩
  refine ⟨_, s', rfl, hs', signal_not_lost _ s' .sighup handledOnce hs' ?_⟩
  obtain rfl := Option.some_inj.mp hs'
  refine ⟨fun sig => ?_, rfl, rfl, rfl⟩
  cases sig <;> rfl

/-! ### The shutdown is near -/

def Event.isRecv : Event → Bool
  | .recv _ => true
  | _ => false

/-- A step of the receiving task. -/
def Event.isTask : Event → Bool
  | .recv _ => true
  | .handled => true
  | .trigger => true
  | _ => false

/-- At most `n` more signals are received: the task has ended or is about to,
or a termination signal is among the first `n` of the channel. -/
def Due (n : ℕ) (s : Pipeline) : Prop :=
  s.task = .ended ∨ (∃ sig, s.task = .handling sig ∧ sig.isTermination = true) ∨
    ∃ sig ∈ s.queue.take n, sig.isTermination = true

theorem due_step {n : ℕ} {s s' : Pipeline} {e : Event} (h : Due n s) (hstep : step s e = some s') :
    if e.isRecv then ∃ m, n = m + 1 ∧ Due m s' else Due n s' := by
  rcases h with hended | ⟨sig, htask, hsig⟩ | ⟨sig, hmem, hsig⟩
  · -- nothing is received any more
    obtain ⟨hended', hrecv, -⟩ := ended_step hended hstep
    cases e with
    | recv other => exact absurd rfl (hrecv other)
    | _ => exact Or.inl hended'
  · cases move_of_step hstep with
    | recv other rest hqueue hreceiving => rw [htask] at hreceiving; cases hreceiving
    | handled other hother hnot =>
      rw [htask, TaskPhase.handling.injEq] at hother
      rw [← hother, hsig] at hnot
      cases hnot
    | trigger other hother hterm => exact Or.inl rfl
    | _ => exact Or.inr (Or.inl ⟨sig, htask, hsig⟩)
  · cases move_of_step hstep with
    | send other hother halive hroom =>
      refine Or.inr (Or.inr ⟨sig, ?_, hsig⟩)
      rw [List.take_append]
      exact List.mem_append_left _ hmem
    | recv other rest hqueue hreceiving =>
      cases n with
      | zero => exact absurd hmem List.not_mem_nil
      | succ m =>
        refine ⟨m, rfl, ?_⟩
        rw [hqueue, List.take_succ_cons, List.mem_cons] at hmem
        rcases hmem with rfl | hmem
        · exact Or.inr (Or.inl ⟨sig, rfl, hsig⟩)
        · exact Or.inr (Or.inr ⟨sig, hmem, hsig⟩)
    | trigger other hother hterm => exact Or.inl rfl
    | _ => exact Or.inr (Or.inr ⟨sig, hmem, hsig⟩)

theorem recv_le_of_due (es : List Event) : ∀ {n : ℕ} {s s' : Pipeline}, Due n s →
    run step s es = some s' → es.countP Event.isRecv ≤ n := by
  induction es with
  | nil => exact fun _ _ => Nat.zero_le _
  | cons e es ih =>
    intro n s s' hdue h
    obtain ⟨t, ht, h⟩ := Option.bind_eq_some_iff.mp h
    have hnext := due_step hdue ht
    rw [List.countP_cons]
    split at hnext
    · next hrecv =>
      obtain ⟨m, rfl, hdue'⟩ := hnext
      have hrest := ih hdue' h
      rw [if_pos hrecv]
      omega
    · next hrecv =>
      have hrest := ih hnext h
      rw [if_neg hrecv]
      omega

theorem ended_run {es : List Event} {s : Pipeline} (h : run step Pipeline.start es = some s) :
    s.task = .ended ↔ .trigger ∈ es := by
  have hany := run_any (f := fun s => s.task = .ended) (p := fun e => e = .trigger) ?_ es h
  · rw [Bool.eq_iff_iff] at hany
    simpa [Pipeline.start] using hany
  · intro s e s' hstep
    cases move_of_step hstep with
    | recv sig rest hqueue htask => simp [htask]
    | handled sig htask hsig => simp [htask]
    | trigger sig htask hsig => simp
    | _ => simp

theorem no_task_after_ended (es : List Event) : ∀ {s s' : Pipeline}, s.task = .ended →
    run step s es = some s' → ∀ e ∈ es, e.isTask = false := by
  induction es with
  | nil => exact fun _ _ e he => absurd he List.not_mem_nil
  | cons e es ih =>
    intro s s' hended h
    obtain ⟨t, ht, h⟩ := Option.bind_eq_some_iff.mp h
    obtain ⟨hended', hrecv, hhandled, htrigger⟩ := ended_step hended ht
    refine List.forall_mem_cons.mpr ⟨?_, ih hended' h⟩
    cases e with
    | recv sig => exact absurd rfl (hrecv sig)
    | handled => exact absurd rfl hhandled
    | trigger => exact absurd rfl htrigger
    | _ => rfl

/-- **The shutdown is near.**  In every reachable state the channel holds at
most sixteen signals.  Once one of them asks for termination, no more than
sixteen are received in whatever follows, that one among them; and after the
shutdown has been triggered nothing is received or handled. -/
theorem shutdown_bounded (es es' : List Event) (s s' : Pipeline)
    (h : run step Pipeline.start es = some s) (h' : run step s es' = some s') :
    s.queue.length ≤ capacity ∧
    ((∃ sig ∈ s.queue, sig.isTermination = true) → es'.countP Event.isRecv ≤ capacity) ∧
    (.trigger ∈ es → ∀ e ∈ es', e.isTask = false) := by
  have hroom : s.queue.length ≤ capacity :=
    run_induction (I := fun s => s.queue.length ≤ capacity) room_step (Nat.zero_le _) h
  refine ⟨hroom, ?_, fun htrigger => no_task_after_ended es' ((ended_run h).mpr htrigger) h'⟩
  rintro ⟨sig, hmem, hsig⟩
  refine recv_le_of_due es' (Or.inr (Or.inr ⟨sig, ?_, hsig⟩)) h'
  rwa [List.take_of_length_le hroom]

def queuedTwo : List Event :=
  [.raise .sighup, .take .sighup, .send, .raise .sigterm, .take .sigterm, .send]

theorem shutdown_bounded_two :
    ∃ s s', run step Pipeline.start queuedTwo = some s ∧
      run step s [.recv .sighup, .handled, .recv .sigterm, .trigger] = some s' ∧
      [Event.recv .sighup, .handled, .recv .sigterm, .trigger].countP Event.isRecv ≤ capacity := by
  refine ⟨_, _, rfl, rfl, (shutdown_bounded queuedTwo
    [.recv .sighup, .handled, .recv .sigterm, .trigger] _ _ rfl rfl).2.1 ⟨.sigterm, ?_, rfl⟩⟩
  exact List.mem_cons_of_mem _ List.mem_cons_self

end Signals
