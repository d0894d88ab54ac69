/-
The shutdown, as the accept loops and `run_server` see it.

`Connections` has one flag that the signal sets and that the accept loops and
`run_server` look at.  In the program each of them has a receiver of the watch
channel of `Shutdown`, made when it was started.

* `sameWatchers_of_stepAlive`, `unwatched_flag` — the steps that the receivers
  have no part in;
* `watchedAlive_inv` — who has been told so far;
* `run_view` — the server with the receivers and the server with the flag take
  the same steps.
-/
import ReverseProxy.Connections
import ReverseProxy.Shutdown

open Run Watch
open Connections (ListenerPhase MainPhase Server stepAlive)

namespace Shutdown

/-! ### The server with its receivers -/

/-- The server of `Connections`, whose own flag is not used here: every accept
loop has the receiver it was spawned with, and `run_server` one of its own. -/
structure Watched where
  server : Server
  shutdown : GracefulShutdown
  listenerRx : List Receiver
  mainRx : Receiver

def Watched.start (g : GracefulShutdown) (maxConnections listeners : ℕ) : Watched where
  server := Server.start maxConnections listeners
  shutdown := { g with shutdownTx :=
    { g.shutdownTx with receivers := g.shutdownTx.receivers + listeners + 1 } }
  listenerRx := List.replicate listeners g.shutdownRx
  mainRx := g.shutdownRx

/-- One step of a process that has not exited.  A loop that ends drops its
receiver; `run_server` keeps its own. -/
def watchedAlive (w : Watched) : Connections.Event → Option Watched
  | .signal => some { w with shutdown := w.shutdown.triggerShutdown }
  | .stop l => do
    let rx ← w.listenerRx[l]?
    let rx' ← w.shutdown.shutdownTx.changed rx
    let server ← w.server.moveListener l .selecting .ended
    return { w with
      server := server
      shutdown := w.shutdown.dropReceiver
      listenerRx := w.listenerRx.set l rx' }
  | .noticeShutdown => do
    let rx' ← w.shutdown.shutdownTx.changed w.mainRx
    let server ← w.server.moveMain .running (.joining 0)
    return { w with server := server, mainRx := rx' }
  | e => (stepAlive w.server e).map fun server => { w with server := server }

def watchedStep (w : Watched) (e : Connections.Event) : Option Watched :=
  match w.server.main with
  | .exited _ => none
  | _ => watchedAlive w e

/-- The same with one flag for all. -/
def Watched.view (w : Watched) : Server := { w.server with shutdown := w.shutdown.sent }

def isEnded (p : ListenerPhase) : Bool := p = .ended

/-- The events that the receivers have no part in. -/
def Unwatched : Connections.Event → Prop
  | .signal => False
  | .stop _ => False
  | .noticeShutdown => False
  | _ => True

section unwatched

variable {s s' : Server} {e : Connections.Event} (he : Unwatched e)

/-- Replacing an element by one that a function does not tell apart. -/
theorem map_set_of_eq {α β : Type} {f : α → β} {l : List α} {i : ℕ} {p q : α}
    (h : l[i]? = some p) (hf : f q = f p) : (l.set i q).map f = l.map f := by
  obtain ⟨hi, rfl⟩ := List.getElem?_eq_some_iff.mp h
  rw [List.map_set, hf, ← List.getElem_map f (h := by simpa using hi), List.set_getElem_self]

/-- The same accept loops have ended, and `run_server` has not returned to its
wait. -/
structure SameWatchers (s s' : Server) : Prop where
  ended : s'.listeners.map isEnded = s.listeners.map isEnded
  running : s'.main = .running → s.main = .running

theorem sameWatchers_moveListener {s₀ : Server} {l : ℕ} {p q : ListenerPhase}
    (h : s₀.moveListener l p q = some s') (hlisteners : s₀.listeners = s.listeners)
    (hmain : s₀.main = s.main) (hp : isEnded q = isEnded p) : SameWatchers s s' := by
  obtain ⟨hl, rfl⟩ := Connections.moveListener_eq_some h
  exact ⟨by rw [← hlisteners]; exact map_set_of_eq hl hp, fun hrun => hmain ▸ hrun⟩

theorem sameWatchers_moveTask {s₀ : Server} {i : ℕ} {p q : Connections.TaskPhase}
    (h : s₀.moveTask i p q = some s') (hlisteners : s₀.listeners = s.listeners)
    (hmain : s₀.main = s.main) : SameWatchers s s' := by
  obtain ⟨-, rfl⟩ := Connections.moveTask_eq_some h
  exact ⟨by rw [hlisteners], fun hrun => hmain ▸ hrun⟩

theorem sameWatchers_moveMain {p q : MainPhase} (h : s.moveMain p q = some s')
    (hq : q ≠ .running) : SameWatchers s s' := by
  obtain ⟨-, rfl⟩ := Connections.moveMain_eq_some h
  exact ⟨rfl, fun hrun => absurd hrun hq⟩

include he in
theorem sameWatchers_of_stepAlive (h : stepAlive s e = some s') : SameWatchers s s' := by
  cases e with
  | signal => exact he.elim
  | stop l => exact he.elim
  | noticeShutdown => exact he.elim
  | accept l => exact sameWatchers_moveListener h rfl rfl rfl
  | acceptError l => exact sameWatchers_moveListener h rfl rfl rfl
  | resume l => exact sameWatchers_moveListener h rfl rfl rfl
  | acquire l =>
    rw [stepAlive] at h
    split at h
    · exact sameWatchers_moveListener h rfl rfl rfl
    · cases h
  | spawn l => exact sameWatchers_moveListener h rfl rfl rfl
  | firstPoll i => exact sameWatchers_moveTask h rfl rfl
  | handshake i => exact sameWatchers_moveTask h rfl rfl
  | handshakeFailed i timedOut => exact sameWatchers_moveTask h rfl rfl
  | close i idle => exact sameWatchers_moveTask h rfl rfl
  | dropPermit i => exact sameWatchers_moveTask h rfl rfl
  | dropGuard i => exact sameWatchers_moveTask h rfl rfl
  | join timedOut =>
    rw [stepAlive] at h
    split at h
    · split at h
      · rw [← Option.some_inj.mp h]
        exact ⟨rfl, fun hrun => by cases hrun⟩
      · cases h
    · cases h
  | joined => exact sameWatchers_moveMain h (by simp)
  | drainCheck =>
    refine sameWatchers_moveMain h ?_
    split
    · simp
    · simp
  | drainSleep => exact sameWatchers_moveMain h (by simp)
  | drainGiveUp => exact sameWatchers_moveMain h (by simp)

include he in
/-- They do not look at the flag. -/
theorem unwatched_flag (b : Bool) : stepAlive { s with shutdown := b } e
    = (stepAlive s e).map fun s' => { s' with shutdown := b } := by
  cases e with
  | signal => exact he.elim
  | stop l => exact he.elim
  | noticeShutdown => exact he.elim
  | acquire l =>
    simp only [stepAlive, Server.moveListener]
    split
    · split <;> rfl
    · rfl
  | join timedOut =>
    simp only [stepAlive]
    split
    · split <;> rfl
    · rfl
  | _ =>
    simp only [stepAlive, Server.moveListener, Server.moveTask, Server.moveMain]
    split <;> rfl

end unwatched

/-- A loop that has not ended has not been told, and neither has `run_server`
while it waits; the handle's own receiver keeps the channel open. -/
structure WatchedInv (w : Watched) : Prop where
  length : w.listenerRx.length = w.server.listeners.length
  receivers : 2 + (w.server.listeners.map isEnded).countP (! ·)
    ≤ w.shutdown.shutdownTx.receivers
  listeners : ∀ l : ℕ, (w.server.listeners.map isEnded)[l]? = some false →
    ∃ rx : Receiver, w.listenerRx[l]? = some rx ∧ rx.seen = 0
  main : w.server.main = .running → w.mainRx.seen = 0

theorem watchedInv_start {g : GracefulShutdown} (hunseen : g.shutdownRx.seen = 0)
    (hopen : 0 < g.shutdownTx.receivers) (maxConnections listeners : ℕ) :
    WatchedInv (Watched.start g maxConnections listeners) where
  length := by simp [Watched.start, Server.start]
  receivers := by
    simp [Watched.start, Server.start, isEnded, List.countP_replicate]
    omega
  listeners := fun l hl => by
    refine ⟨g.shutdownRx, ?_, hunseen⟩
    have hlt : l < listeners := by
      simpa [Watched.start, Server.start] using (List.getElem?_eq_some_iff.mp hl).1
    simp [Watched.start, hlt]
  main := fun _ => hunseen

theorem watchedAlive_unwatched {w : Watched} {e : Connections.Event} (he : Unwatched e) :
    watchedAlive w e = (stepAlive w.server e).map fun server => { w with server := server } := by
  cases e with
  | signal => exact he.elim
  | stop l => exact he.elim
  | noticeShutdown => exact he.elim
  | _ => rfl

theorem WatchedInv.unwatched {w : Watched} {s' : Server} (h : WatchedInv w)
    (hsame : SameWatchers w.server s') : WatchedInv { w with server := s' } where
  length := by
    have hlength := congrArg List.length hsame.ended
    rw [List.length_map, List.length_map] at hlength
    exact h.length.trans hlength.symm
  receivers := by rw [hsame.ended]; exact h.receivers
  listeners := fun l hl => h.listeners l (hsame.ended ▸ hl)
  main := fun hrun => h.main (hsame.running hrun)

theorem WatchedInv.open {w : Watched} (h : WatchedInv w) : 0 < w.shutdown.shutdownTx.receivers := by
  have hreceivers := h.receivers
  omega

/-- A loop that may stop has its receiver, and is told if anything was sent. -/
theorem WatchedInv.selecting {w : Watched} (h : WatchedInv w) {l : ℕ}
    (hl : w.server.listeners[l]? = some .selecting) :
    ∃ rx : Receiver, w.listenerRx[l]? = some rx ∧
      ((w.shutdown.shutdownTx.changed rx).isSome = true ↔ w.shutdown.sent = true) := by
  obtain ⟨rx, hrx, hseen⟩ := h.listeners l (by rw [List.getElem?_map, hl]; rfl)
  exact ⟨rx, hrx, w.shutdown.changed_isSome_iff hseen⟩

theorem sent_triggerShutdown {g : GracefulShutdown} (h : 0 < g.shutdownTx.receivers) :
    g.triggerShutdown.sent = true := GracefulShutdown.sent_sendShutdown h

theorem receivers_triggerShutdown (g : GracefulShutdown) :
    g.triggerShutdown.shutdownTx.receivers = g.shutdownTx.receivers :=
  GracefulShutdown.receivers_sendShutdown _

/-- What `stop` takes and leaves. -/
theorem watchedAlive_stop {w w' : Watched} {l : ℕ} (h : watchedAlive w (.stop l) = some w') :
    ∃ rx rx' : Receiver, w.listenerRx[l]? = some rx ∧
      w.server.listeners[l]? = some .selecting ∧
      w' = { w with
        server := { w.server with listeners := w.server.listeners.set l .ended }
        shutdown := w.shutdown.dropReceiver
        listenerRx := w.listenerRx.set l rx' } := by
  obtain ⟨rx, hrx, h⟩ := Option.bind_eq_some_iff.mp h
  obtain ⟨rx', -, h⟩ := Option.bind_eq_some_iff.mp h
  obtain ⟨server, hserver, h⟩ := Option.bind_eq_some_iff.mp h
  obtain ⟨hselecting, rfl⟩ := Connections.moveListener_eq_some hserver
  exact ⟨rx, rx', hrx, hselecting, (Option.some_inj.mp h).symm⟩

theorem WatchedInv.stop {w : Watched} (h : WatchedInv w) {l : ℕ} (rx' : Receiver)
    (hl : w.server.listeners[l]? = some .selecting) :
    WatchedInv { w with
      server := { w.server with listeners := w.server.listeners.set l .ended }
      shutdown := w.shutdown.dropReceiver
      listenerRx := w.listenerRx.set l rx' } where
  length := by
    rw [List.length_set, List.length_set]
    exact h.length
  receivers := by
    have hmap : (w.server.listeners.map isEnded)[l]? = some false := by
      rw [List.getElem?_map, hl]; rfl
    have hcount := countP_set (f := (! ·)) hmap true
    simp only [Bool.not_false, Bool.not_true, if_true, Bool.false_eq_true, if_false] at hcount
    have hreceivers := h.receivers
    rw [List.map_set]
    show 2 + ((w.server.listeners.map isEnded).set l true).countP _
      ≤ w.shutdown.shutdownTx.receivers - 1
    omega
  listeners := fun j hj => by
    rw [List.map_set] at hj
    rcases getElem?_set_cases hj with ⟨hne, hold⟩ | ⟨-, hended⟩
    · obtain ⟨rx, hrx, hseen⟩ := h.listeners j hold
      exact ⟨rx, by rw [List.getElem?_set_ne (Ne.symm hne)]; exact hrx, hseen⟩
    · cases hended
  main := h.main

theorem watchedAlive_inv {w w' : Watched} {e : Connections.Event} (h : WatchedInv w)
    (hstep : watchedAlive w e = some w') : WatchedInv w' := by
  by_cases he : Unwatched e
  · rw [watchedAlive_unwatched he] at hstep
    obtain ⟨s', hs', rfl⟩ := Option.map_eq_some_iff.mp hstep
    exact h.unwatched (sameWatchers_of_stepAlive he hs')
  · cases e with
    | signal =>
      obtain rfl := Option.some_inj.mp hstep
      exact ⟨h.length, h.receivers.trans_eq (receivers_triggerShutdown _).symm, h.listeners,
        h.main⟩
    | stop l =>
      obtain ⟨-, rx', -, hl, rfl⟩ := watchedAlive_stop hstep
      exact h.stop rx' hl
    | noticeShutdown =>
      obtain ⟨rx', -, hstep⟩ := Option.bind_eq_some_iff.mp hstep
      obtain ⟨server, hserver, hstep⟩ := Option.bind_eq_some_iff.mp hstep
      obtain ⟨-, rfl⟩ := Connections.moveMain_eq_some hserver
      obtain rfl := Option.some_inj.mp hstep
      exact ⟨h.length, h.receivers, h.listeners, nofun⟩
    | _ => exact absurd trivial he

theorem watchedStep_eq {w w' : Watched} {e : Connections.Event} (h : watchedStep w e = some w') :
    watchedAlive w e = some w' := by
  rw [watchedStep] at h
  split at h
  · cases h
  · exact h

theorem view_watchedAlive {w : Watched} {e : Connections.Event} (h : WatchedInv w) :
    (watchedAlive w e).map Watched.view = stepAlive w.view e := by
  by_cases he : Unwatched e
  · rw [watchedAlive_unwatched he, Option.map_map]
    exact (unwatched_flag he w.shutdown.sent).symm
  · cases e with
    | signal =>
      show some (Watched.view _) = some _
      rw [Watched.view, sent_triggerShutdown h.open]
      rfl
    | stop l =>
      by_cases hl : w.server.listeners[l]? = some .selecting
      · -- the loop may stop, and does so if it is told
        obtain ⟨rx, hrx, htold⟩ := h.selecting hl
        cases hsent : w.shutdown.sent with
        | true =>
          obtain ⟨rx', hrx'⟩ := Option.isSome_iff_exists.mp (htold.mpr hsent)
          simp [watchedAlive, stepAlive, Watched.view, Server.moveListener, hl, hrx, hrx', hsent,
            GracefulShutdown.sent_dropReceiver]
        | false =>
          have hnot : w.shutdown.shutdownTx.changed rx = none := by
            rw [← Option.not_isSome_iff_eq_none, htold, hsent]
            exact Bool.false_ne_true
          simp [watchedAlive, stepAlive, Watched.view, hrx, hnot, hsent]
      · have hnone : watchedAlive w (.stop l) = none := by
          cases hw : watchedAlive w (.stop l) with
          | none => rfl
          | some w' => exact absurd (watchedAlive_stop hw).choose_spec.choose_spec.2.1 hl
        simp [hnone, stepAlive, Watched.view, Server.moveListener, hl]
    | noticeShutdown =>
      by_cases hmain : w.server.main = .running
      · have htold := w.shutdown.changed_isSome_iff (h.main hmain)
        cases hsent : w.shutdown.sent with
        | true =>
          obtain ⟨rx', hrx'⟩ := Option.isSome_iff_exists.mp (htold.mpr hsent)
          simp [watchedAlive, stepAlive, Watched.view, Server.moveMain, hmain, hrx', hsent]
        | false =>
          have hnot : w.shutdown.shutdownTx.changed w.mainRx = none := by
            rw [← Option.not_isSome_iff_eq_none, htold, hsent]
            exact Bool.false_ne_true
          simp [watchedAlive, stepAlive, Watched.view, hnot, hsent]
      · simp [watchedAlive, stepAlive, Watched.view, Server.moveMain, hmain]
    | _ => exact absurd trivial he

theorem view_watchedStep {w : Watched} {e : Connections.Event} (h : WatchedInv w) :
    (watchedStep w e).map Watched.view = Connections.step w.view e := by
  rw [watchedStep, Connections.step, ← view_watchedAlive h]
  show Option.map Watched.view _ = match w.server.main with
    | .exited _ => none
    | _ => _
  split <;> rfl

/-- **One flag for all.**  Whatever was triggered and subscribed before they
start, the accept loops and `run_server`, with receivers of their own, take
exactly the steps that they would take with one flag that the trigger sets. -/
theorem run_view (secs : UInt64) (history : List Event) (s : System)
    (h : run step (System.start secs) history = some s) (maxConnections listeners : ℕ)
    (es : List Connections.Event) :
    (run watchedStep (Watched.start s.shutdown maxConnections listeners) es).map Watched.view
      = run Connections.step
          { Server.start maxConnections listeners with shutdown := decide (.send ∈ history) }
          es := by
  have hinv := inv_of_run h
  have hopen : 0 < s.shutdown.shutdownTx.receivers := by rw [hinv.receivers]; omega
  have hflag : decide (.send ∈ history) = s.shutdown.sent := by
    rw [Bool.eq_iff_iff, decide_eq_true_iff]
    exact hinv.sent.symm
  rw [hflag]
  exact run_map (fun hinv hstep => watchedAlive_inv hinv (watchedStep_eq hstep))
    view_watchedStep es (watchedInv_start hinv.kept.unseen hopen maxConnections listeners)

/-- The signal comes before the one listener runs; it stops all the same. -/
theorem run_view_early :
    ∃ s, run step (System.start 30) [.store, .send] = some s ∧
      (run watchedStep (Watched.start s.shutdown 1 1) [.stop 0, .noticeShutdown]).map
          (fun w => (w.view.listeners, w.view.main)) = some ([.ended], .joining 0) := by
  obtain ⟨s, hs⟩ : ∃ s, run step (System.start 30) [.store, .send] = some s := ⟨_, rfl⟩
  refine ⟨s, hs, ?_⟩
  have hview := congrArg (Option.map fun v : Server => (v.listeners, v.main))
    (run_view 30 _ s hs 1 1 [.stop 0, .noticeShutdown])
  rw [Option.map_map] at hview
  refine Eq.trans hview ?_
  decide +kernel

end Shutdown
