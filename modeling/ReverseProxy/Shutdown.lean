/-
How the shutdown reaches the tasks.

`trigger_shutdown` sets a flag and then sends on a watch channel; every task
that is to stop waits for a change on a copy of the receiver that
`GracefulShutdown` keeps and never reads.  Copies are made at any time, also
after the shutdown has been triggered: `SIGTERM` may come while the listeners
are still being bound.

* `inv_of_run` — the kept receiver has seen nothing, and keeps the channel open;
* `shutdown_not_lost` — a task that asks for a change is told of the shutdown
  exactly if it has been sent, however late the task has subscribed.
-/
import ReverseProxy.Simulation
import ReverseProxy.WatchChannel

open Run Watch

namespace Shutdown

/-! ### The handle -/

structure GracefulShutdown where
  shutdownTimeoutSecs : UInt64
  shutdownTx : Channel Bool
  shutdownRx : Receiver
  shutdownRequested : Bool

namespace GracefulShutdown

def new (shutdownTimeoutSecs : UInt64) : GracefulShutdown where
  shutdownTimeoutSecs := shutdownTimeoutSecs
  shutdownTx := (channel false).1
  shutdownRx := (channel false).2
  shutdownRequested := false

def isShutdownRequested (g : GracefulShutdown) : Bool := g.shutdownRequested

def subscribe (g : GracefulShutdown) : GracefulShutdown × Receiver :=
  let cloned := g.shutdownTx.cloneReceiver g.shutdownRx
  ({ g with shutdownTx := cloned.1 }, cloned.2)

/-- The first step of `trigger_shutdown`. -/
def storeRequested (g : GracefulShutdown) : GracefulShutdown := { g with shutdownRequested := true }

/-- The second one; that nobody listens is no error. -/
def sendShutdown (g : GracefulShutdown) : GracefulShutdown :=
  { g with shutdownTx := g.shutdownTx.send true }

def triggerShutdown (g : GracefulShutdown) : GracefulShutdown := g.storeRequested.sendShutdown

/-- A subscriber goes away. -/
def dropReceiver (g : GracefulShutdown) : GracefulShutdown :=
  { g with shutdownTx := g.shutdownTx.dropReceiver }

/-- A value has been sent. -/
def sent (g : GracefulShutdown) : Bool := g.shutdownTx.version ≠ 0

/-- The receiver that the handle keeps has never been asked for a change. -/
structure Kept (g : GracefulShutdown) : Prop where
  unseen : g.shutdownRx.seen = 0
  value : g.shutdownTx.value = g.sent
  requested : g.sent = true → g.shutdownRequested = true

theorem kept_new (secs : UInt64) : (new secs).Kept := ⟨rfl, rfl, nofun⟩

theorem Kept.subscribe {g : GracefulShutdown} (h : g.Kept) : g.subscribe.1.Kept :=
  ⟨h.unseen, h.value, h.requested⟩

theorem Kept.storeRequested {g : GracefulShutdown} (h : g.Kept) : g.storeRequested.Kept :=
  ⟨h.unseen, h.value, fun _ => rfl⟩

theorem Kept.dropReceiver {g : GracefulShutdown} (h : g.Kept) : g.dropReceiver.Kept :=
  ⟨h.unseen, h.value, h.requested⟩

theorem sent_dropReceiver (g : GracefulShutdown) : g.dropReceiver.sent = g.sent := rfl

theorem sent_sendShutdown {g : GracefulShutdown} (h : 0 < g.shutdownTx.receivers) :
    g.sendShutdown.sent = true := by
  rw [sent, sendShutdown, Channel.send_eq h]
  exact decide_eq_true (Nat.succ_ne_zero _)

theorem Kept.sendShutdown {g : GracefulShutdown} (h : g.Kept)
    (hopen : 0 < g.shutdownTx.receivers) (hrequested : g.shutdownRequested = true) :
    g.sendShutdown.Kept where
  unseen := h.unseen
  value := by
    rw [sent_sendShutdown hopen, GracefulShutdown.sendShutdown, Channel.send_eq hopen]
  requested := fun _ => hrequested

theorem receivers_sendShutdown (g : GracefulShutdown) :
    g.sendShutdown.shutdownTx.receivers = g.shutdownTx.receivers := by
  rw [GracefulShutdown.sendShutdown, Channel.send]
  split <;> rfl

/-- A receiver that has seen nothing is told exactly of what has been sent. -/
theorem changed_isSome_iff (g : GracefulShutdown) {r : Receiver} (hr : r.seen = 0) :
    (g.shutdownTx.changed r).isSome = true ↔ g.sent = true := by
  rw [Channel.changed_isSome, hr, sent, decide_eq_true_iff]
  exact ne_comm

end GracefulShutdown

/-! ### Any number of subscribers -/

/-- The handle, the calls of `trigger_shutdown` that are between their two
steps, and the subscribers; `none` is one that has gone away. -/
structure System where
  shutdown : GracefulShutdown
  triggering : ℕ
  subscribers : List (Option Receiver)

def System.start (secs : UInt64) : System := ⟨GracefulShutdown.new secs, 0, []⟩

inductive Event where
  | store
  | send
  | subscribe
  | changed (i : ℕ)
  | drop (i : ℕ)
  deriving DecidableEq

def step (s : System) : Event → Option System
  | .store => some { s with
      shutdown := s.shutdown.storeRequested
      triggering := s.triggering + 1 }
  | .send =>
    if s.triggering = 0 then none
    else some { s with shutdown := s.shutdown.sendShutdown, triggering := s.triggering - 1 }
  | .subscribe =>
    let r := s.shutdown.subscribe
    some { s with shutdown := r.1, subscribers := s.subscribers ++ [some r.2] }
  | .changed i =>
    match s.subscribers[i]? with
    | some (some rx) => (s.shutdown.shutdownTx.changed rx).map fun rx' =>
        { s with subscribers := s.subscribers.set i (some rx') }
    | _ => none
  | .drop i =>
    match s.subscribers[i]? with
    | some (some _) => some { s with
        shutdown := s.shutdown.dropReceiver
        subscribers := s.subscribers.set i none }
    | _ => none

/-- What holds after the events so far. -/
structure Inv (es : List Event) (s : System) : Prop where
  kept : s.shutdown.Kept
  receivers : s.shutdown.shutdownTx.receivers = 1 + s.subscribers.countP (·.isSome)
  triggering : 0 < s.triggering → s.shutdown.shutdownRequested = true
  sent : s.shutdown.sent = true ↔ .send ∈ es
  told : ∀ i, .changed i ∈ es → .send ∈ es ∧ i < s.subscribers.length
  untold : ∀ i rx, s.subscribers[i]? = some (some rx) → .changed i ∉ es → rx.seen = 0

theorem inv_start (secs : UInt64) : Inv [] (System.start secs) where
  kept := GracefulShutdown.kept_new secs
  receivers := rfl
  triggering := nofun
  sent := iff_of_false nofun List.not_mem_nil
  told := fun i hi => absurd hi List.not_mem_nil
  untold := fun i rx hi => by cases hi

theorem mem_concat_iff {e e' : Event} {es : List Event} (h : e ≠ e') :
    e ∈ es ++ [e'] ↔ e ∈ es := by
  rw [List.mem_append, List.mem_singleton, or_iff_left h]

/-- An event that touches neither the channel's version nor the receivers of
the subscribers that stay. -/
theorem Inv.quiet {es : List Event} {s s' : System} {e : Event} (h : Inv es s)
    (hsend : .send ≠ e) (hchanged : ∀ i, .changed i ≠ e) (hkept : s'.shutdown.Kept)
    (hreceivers : s'.shutdown.shutdownTx.receivers = 1 + s'.subscribers.countP (·.isSome))
    (htriggering : 0 < s'.triggering → s'.shutdown.shutdownRequested = true)
    (hsent : s'.shutdown.sent = s.shutdown.sent)
    (hlength : s.subscribers.length ≤ s'.subscribers.length)
    (hrx : ∀ (i : ℕ) (rx : Receiver), s'.subscribers[i]? = some (some rx) →
      s.subscribers[i]? = some (some rx) ∨ rx.seen = 0) : Inv (es ++ [e]) s' where
  kept := hkept
  receivers := hreceivers
  triggering := htriggering
  sent := by rw [hsent, mem_concat_iff hsend, h.sent]
  told := fun i hi => by
    rw [mem_concat_iff (hchanged i)] at hi
    rw [mem_concat_iff hsend]
    exact ⟨(h.told i hi).1, (h.told i hi).2.trans_le hlength⟩
  untold := fun i rx hi hnot => by
    rw [mem_concat_iff (hchanged i)] at hnot
    rcases hrx i rx hi with hold | hnew
    · exact h.untold i rx hold hnot
    · exact hnew

theorem send_inv {es : List Event} {s s' : System} (h : Inv es s)
    (hstep : step s .send = some s') : Inv (es ++ [.send]) s' := by
  rw [step] at hstep
  split at hstep
  · cases hstep
  · next hcalls =>
    obtain rfl := Option.some_inj.mp hstep
    -- the kept receiver is there to be sent to
    have hopen : 0 < s.shutdown.shutdownTx.receivers := by rw [h.receivers]; omega
    have hrequested := h.triggering (Nat.pos_of_ne_zero hcalls)
    refine ⟨h.kept.sendShutdown hopen hrequested, ?_, fun _ => hrequested, ?_, ?_, ?_⟩
    · exact (GracefulShutdown.receivers_sendShutdown _).trans h.receivers
    · exact iff_of_true (GracefulShutdown.sent_sendShutdown hopen) (by simp)
    · intro i hi
      have hold : .changed i ∈ es := (mem_concat_iff (by simp)).mp hi
      exact ⟨by simp, (h.told i hold).2⟩
    · intro i rx hi hnot
      exact h.untold i rx hi fun hmem => hnot (List.mem_append_left _ hmem)

theorem changed_inv {es : List Event} {s s' : System} {i : ℕ} (h : Inv es s)
    (hstep : step s (.changed i) = some s') : Inv (es ++ [.changed i]) s' := by
  rw [step] at hstep
  split at hstep
  · next rx hi =>
    obtain ⟨rx', hrx', rfl⟩ := Option.map_eq_some_iff.mp hstep
    have hlt : i < s.subscribers.length := (List.getElem?_eq_some_iff.mp hi).1
    have hsent : .send ∈ es := by
      by_cases htold : .changed i ∈ es
      · exact (h.told i htold).1
      · -- its receiver has seen nothing yet, so there is a version to see
        rw [← h.sent, ← s.shutdown.changed_isSome_iff (h.untold i rx hi htold), hrx']
        rfl
    refine ⟨h.kept, ?_, h.triggering, ?_, fun j hj => ?_, fun j r hj hnot => ?_⟩
    · have hcount := countP_set (f := (·.isSome)) hi (some rx')
      rw [h.receivers]
      simp only [Option.isSome_some, if_true] at hcount
      show _ = 1 + (s.subscribers.set i (some rx')).countP _
      omega
    · exact h.sent.trans (mem_concat_iff (by simp)).symm
    · rw [List.length_set]
      refine ⟨List.mem_append_left _ hsent, ?_⟩
      rcases List.mem_append.mp hj with hold | hnew
      · exact (h.told j hold).2
      · cases List.mem_singleton.mp hnew
        exact hlt
    · rcases getElem?_set_cases hj with ⟨-, hold⟩ | ⟨rfl, -⟩
      · exact h.untold j r hold fun hmem => hnot (List.mem_append_left _ hmem)
      · exact absurd (List.mem_append_right es (List.mem_singleton_self _)) hnot
  · cases hstep

theorem drop_inv {es : List Event} {s s' : System} {i : ℕ} (h : Inv es s)
    (hstep : step s (.drop i) = some s') : Inv (es ++ [.drop i]) s' := by
  rw [step] at hstep
  split at hstep
  · next rx hi =>
    obtain rfl := Option.some_inj.mp hstep
    refine h.quiet nofun nofun h.kept.dropReceiver ?_ h.triggering rfl ?_ fun j r hj => ?_
    · have hcount := countP_set (f := (·.isSome)) hi none
      simp only [Option.isSome_some, Option.isSome_none, if_true] at hcount
      show s.shutdown.shutdownTx.receivers - 1 = 1 + (s.subscribers.set i none).countP _
      rw [h.receivers]
      simp at hcount
      omega
    · rw [List.length_set]
    · rcases getElem?_set_cases hj with ⟨-, hold⟩ | ⟨-, hnone⟩
      · exact Or.inl hold
      · cases hnone
  · cases hstep

theorem step_inv {es : List Event} {s s' : System} {e : Event} (h : Inv es s)
    (hstep : step s e = some s') : Inv (es ++ [e]) s' := by
  cases e with
  | store =>
    obtain rfl := Option.some_inj.mp hstep
    exact h.quiet nofun nofun h.kept.storeRequested h.receivers (fun _ => rfl) rfl le_rfl
      fun i rx hi => Or.inl hi
  | send => exact send_inv h hstep
  | subscribe =>
    obtain rfl := Option.some_inj.mp hstep
    refine h.quiet nofun nofun h.kept.subscribe ?_ h.triggering rfl ?_ fun i rx hi => ?_
    · show s.shutdown.shutdownTx.receivers + 1 = _
      rw [h.receivers, List.countP_append]
      rfl
    · rw [List.length_append]
      exact Nat.le_add_right _ _
    · rcases getElem?_concat_cases hi with hold | hnew
      · exact Or.inl hold
      · exact Or.inr (Option.some_inj.mp hnew ▸ h.kept.unseen)
  | changed i => exact changed_inv h hstep
  | drop i => exact drop_inv h hstep

theorem inv_of_run {secs : UInt64} {es : List Event} {s : System}
    (h : run step (System.start secs) es = some s) : Inv es s :=
  run_history (inv_start secs) (fun _ hinv hstep => step_inv hinv hstep) es h

/-- **The shutdown is not lost.**  A subscriber that has not been told yet is
told now exactly if a trigger has been sent, whether it has subscribed before
or after that; nobody is told before; and by then the flag and the value are
set. -/
theorem shutdown_not_lost (secs : UInt64) (es : List Event) (s : System)
    (h : run step (System.start secs) es = some s) :
    (∀ i rx, s.subscribers[i]? = some (some rx) → .changed i ∉ es →
      ((step s (.changed i)).isSome ↔ .send ∈ es)) ∧
    (∀ i, .changed i ∈ es → .send ∈ es) ∧
    (.send ∈ es →
      s.shutdown.isShutdownRequested = true ∧ s.shutdown.shutdownTx.value = true) := by
  have hinv := inv_of_run h
  refine ⟨fun i rx hi hnot => ?_, fun i hi => (hinv.told i hi).1, fun hsend => ?_⟩
  · rw [← hinv.sent, ← s.shutdown.changed_isSome_iff (hinv.untold i rx hi hnot), step, hi]
    simp only [Option.isSome_map]
  · have hsent := hinv.sent.mpr hsend
    exact ⟨hinv.kept.requested hsent, hinv.kept.value.trans hsent⟩

/-- The second task subscribes after the shutdown, and is told all the same. -/
theorem shutdown_not_lost_late :
    ∃ s, run step (System.start 30) [.subscribe, .store, .send, .changed 0, .drop 0, .subscribe]
        = some s ∧ (step s (.changed 1)).isSome := by
  obtain ⟨s, hs⟩ : ∃ s, run step (System.start 30)
      [.subscribe, .store, .send, .changed 0, .drop 0, .subscribe] = some s := ⟨_, rfl⟩
  have htold := (shutdown_not_lost 30 _ s hs).1 1 ⟨0⟩ (by
    rw [← Option.some_inj.mp hs]; rfl) (by decide)
  exact ⟨s, hs, htold.mpr (by decide)⟩

end Shutdown
