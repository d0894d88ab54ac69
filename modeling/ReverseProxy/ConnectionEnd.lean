/-
What frees the slot of a connection.

A connection task holds its permit through the TLS handshake, which is cut off
by a timeout, and then until hyper is done with the connection or the idle
watchdog returns, whichever comes first.

* `acceptTlsWithTimeout`, `EndsAt` — the task, and when it gives the permit
  back;
* `stateAt_eq` — what the watchdog sees of the connection;
* `slot_freed` — a silent client loses its slot in bounded time, unless it has
  reset a request before the answer; then nothing but the end of the connection
  frees it.
-/
import ReverseProxy.Http
import ReverseProxy.IdleWatchdog

open Run Text Http IdleTracking

namespace ConnectionEnd

/-! ### The task -/

inductive AcceptTlsError where
  | handshake (e : Str)
  | timeout
  deriving DecidableEq

/-- `accept_tls_with_timeout`.  A handshake may also never come to an end. -/
def acceptTlsWithTimeout (handshakeTimeout : ℚ) (accept : Option (Timed (Except Str Unit))) :
    Timed (Except AcceptTlsError Unit) :=
  match accept.map (Http.timeout handshakeTimeout) with
  | some ⟨t, some (.ok ())⟩ => ⟨t, .ok ()⟩
  | some ⟨t, some (.error e)⟩ => ⟨t, .error (.handshake e)⟩
  | some ⟨t, none⟩ => ⟨t, .error .timeout⟩
  | none => ⟨handshakeTimeout, .error .timeout⟩

/-- What comes from the other side: the handshake, in seconds from its start,
the requests, and when hyper is done with the connection, if ever. -/
structure Client where
  accept : Option (Timed (Except Str Unit))
  events : List Event
  served : Option ℚ

/-- The idle state at an instant, of a connection that was set up at `begun`. -/
def Client.stateAt (client : Client) (begun t : ℚ) : IdleState :=
  ((run step (Connection.new begun) (client.events.filter (·.time ≤ t))).map (·.idle)).getD
    (IdleState.new begun)

/-- The task that starts at `start` ends at `T`: with the handshake if that
fails, or else when the first of hyper and the watchdog is done. -/
def EndsAt (handshakeTimeout idleTimeout start : ℚ) (client : Client) (T : ℚ) : Prop :=
  match acceptTlsWithTimeout handshakeTimeout client.accept with
  | ⟨d, .error _⟩ => T = start + d
  | ⟨d, .ok ()⟩ =>
    IsLeast {t | client.served = some t ∨
      ∃ fuel, idleWatchdog (client.stateAt (start + d)) idleTimeout fuel (start + d) = some t} T

theorem acceptTlsWithTimeout_le (handshakeTimeout : ℚ)
    (accept : Option (Timed (Except Str Unit))) :
    (acceptTlsWithTimeout handshakeTimeout accept).completesAt ≤ handshakeTimeout := by
  cases accept with
  | none => exact le_rfl
  | some accept =>
    have hle : (Http.timeout handshakeTimeout accept).completesAt ≤ handshakeTimeout := by
      rw [timeout_completesAt]
      exact min_le_right _ _
    rw [acceptTlsWithTimeout, Option.map_some]
    split
    · next heq => rw [Option.some_inj.mp heq] at hle; exact hle
    · next heq => rw [Option.some_inj.mp heq] at hle; exact hle
    · next heq => rw [Option.some_inj.mp heq] at hle; exact hle
    · next heq => cases heq

/-! ### What the watchdog sees -/

section watchdog

variable {client : Client} {begun : ℚ} {c : Connection}

theorem bounds_events (hafter : ∀ e ∈ client.events, begun ≤ e.time) :
    ∀ e ∈ client.events, e.time ∈ (⊤ : AddSubgroup ℚ) ∧ begun ≤ e.time :=
  fun e he => ⟨trivial, hafter e he⟩

variable (hafter : ∀ e ∈ client.events, begun ≤ e.time)
  (horder : (client.events.map Event.time).Pairwise (· ≤ ·))
  (hrun : run step (Connection.new begun) client.events = some c)

include hrun in
theorem stateAt_eq (t : ℚ) :
    client.stateAt begun t = (traceOf (bounds_events hafter) horder).stateAt t := by
  obtain ⟨c', hc', hstate⟩ := stateAt_traceOf (bounds_events hafter) horder hrun t
  rw [hstate, Client.stateAt, hc', Option.map_some, Option.getD_some]

/-- A request is called. -/
def isCall : Event → Bool
  | .call _ => true
  | _ => false

theorem length_requests {es : List Event} (h : run step (Connection.new begun) es = some c) :
    c.requests.length = es.countP isCall := by
  have hcount := run_count (f := fun c => c.requests.length) (p := isCall) ?_ es h
  · exact hcount.trans (Nat.zero_add _)
  · intro c e c' hstep
    cases e with
    | call now =>
      rw [← Option.some_inj.mp hstep, List.length_append]
      rfl
    | request i what now =>
      obtain ⟨p, r, hp, hadv, rfl⟩ := step_request hstep
      exact List.length_set

include horder hrun in
/-- Where the counter is zero, no request has been dropped before its answer. -/
theorem not_dropped_of_inFlight {t : ℚ} (hlength : client.events.length < 2 ^ 64)
    (hzero : (client.stateAt begun t).inFlight = 0) :
    ∀ e ∈ client.events, e.isDropFuture = true → t < e.time := by
  obtain ⟨rest, hrest⟩ := filter_time_isPrefix t client.events horder
  rw [← hrest, run_append] at hrun
  obtain ⟨c', hc', -⟩ := Option.bind_eq_some_iff.mp hrun
  rw [Client.stateAt, hc', Option.map_some, Option.getD_some, inFlight_run hc'] at hzero
  -- the count does not reach the width of the counter
  have hsmall : c'.live + (client.events.filter (·.time ≤ t)).countP Event.isDropFuture
      < 2 ^ 64 := by
    have hholds := countP_holds _ (run_inv hc').wellFormed
    rw [countP_isCancelled_run hc'] at hholds
    calc c'.live + (client.events.filter (·.time ≤ t)).countP Event.isDropFuture
        = c'.requests.countP Phase.holds := hholds.symm
      _ ≤ c'.requests.length := List.countP_le_length
      _ = (client.events.filter (·.time ≤ t)).countP isCall := length_requests hc'
      _ ≤ (client.events.filter (·.time ≤ t)).length := List.countP_le_length
      _ ≤ client.events.length := List.length_filter_le _ _
      _ < 2 ^ 64 := hlength
  have hnat := congrArg UInt64.toNat hzero
  rw [UInt64.toNat_ofNat_of_lt' hsmall] at hnat
  have hnone : (client.events.filter (·.time ≤ t)).countP Event.isDropFuture = 0 :=
    (Nat.add_eq_zero_iff.mp hnat).2
  intro e he hdrop
  refine not_le.mp fun hle => ?_
  have hmem : e ∈ client.events.filter (·.time ≤ t) :=
    List.mem_filter.mpr ⟨he, decide_eq_true hle⟩
  exact List.countP_eq_zero.mp hnone e hmem hdrop

include hrun in
/-- After the last event the state is that of the whole run. -/
theorem stateAt_of_le {t : ℚ} (hlast : ∀ e ∈ client.events, e.time ≤ t) :
    client.stateAt begun t = c.idle := by
  have hall : client.events.filter (·.time ≤ t) = client.events :=
    List.filter_eq_self.mpr fun e he => decide_eq_true (hlast e he)
  rw [Client.stateAt, hall, hrun, Option.map_some, Option.getD_some]

/-- What the watchdog returns is the first instant at which the connection is
expired. -/
theorem idleWatchdog_isLeast {tr : Trace ⊤ begun} {timeout T : ℚ} {fuel : ℕ} (hpos : 0 < timeout)
    (h : idleWatchdog tr.stateAt timeout fuel begun = some T) :
    IsLeast {t | begun ≤ t ∧ Expired tr timeout t} T := by
  have hmem : ∀ t : ℚ, t ∈ (⊤ : AddSubgroup ℚ) := AddSubgroup.mem_top
  obtain ⟨-, hT, hexpired, hfirst⟩ := idleWatchdog_first (hmem begun) (hmem timeout) hpos fuel
    (quiet_start hpos (hmem begun)) h
  exact ⟨⟨hT, hexpired⟩, fun t ht => not_lt.mp fun hlt => hfirst t ht.1 hlt ht.2⟩

theorem idleWatchdog_returns_by {tr : Trace ⊤ begun} {timeout T : ℚ} (hpos : 0 < timeout)
    (hT : begun ≤ T) (hexpired : Expired tr timeout T) :
    ∃ fuel T', idleWatchdog tr.stateAt timeout fuel begun = some T' ∧ T' ≤ T := by
  have hmem : ∀ t : ℚ, t ∈ (⊤ : AddSubgroup ℚ) := AddSubgroup.mem_top
  obtain ⟨n, hn⟩ := Archimedean.arch (T - begun + 1) hpos
  rw [nsmul_eq_mul] at hn
  obtain ⟨fuel, T', h⟩ := idleWatchdog_returns (hmem begun) (hmem timeout) hpos hT hexpired n
    (quiet_start hpos (hmem begun)) (by linarith)
  exact ⟨fuel, T', h, (idleWatchdog_isLeast hpos h).2 ⟨hT, hexpired⟩⟩

include hafter horder hrun in
/-- When all requests have been answered and none was dropped, the watchdog
returns within the timeout. -/
theorem watchdog_returns_by {idleTimeout last : ℚ} (hpos : 0 < idleTimeout)
    (hbegun : begun ≤ last) (hlast : ∀ e ∈ client.events, e.time ≤ last)
    (hdrop : ∀ e ∈ client.events, e.isDropFuture = false) (hlive : c.live = 0) :
    ∃ fuel T, idleWatchdog (client.stateAt begun) idleTimeout fuel begun = some T ∧
      T ≤ last + idleTimeout := by
  have hstate : client.stateAt begun = (traceOf (bounds_events hafter) horder).stateAt :=
    funext (stateAt_eq hafter horder hrun)
  have hzero : c.idle.inFlight = 0 := by
    have hnone : client.events.countP Event.isDropFuture = 0 :=
      List.countP_eq_zero.mpr fun e he => by rw [hdrop e he]; simp
    rw [inFlight_run hrun, hlive, hnone]
    rfl
  have hactive : c.idle.lastActivity ≤ last := by
    rw [← stateAt_of_le hrun hlast, hstate]
    exact (lastActivity_stateAt _ (AddSubgroup.mem_top _) hbegun).2.2
  rw [hstate]
  refine idleWatchdog_returns_by hpos (by linarith) ⟨?_, ?_⟩
  · rw [← hstate, stateAt_of_le hrun fun e he => (hlast e he).trans (by linarith)]
    exact hzero
  · rw [← hstate, stateAt_of_le hrun fun e he => (hlast e he).trans (by linarith)]
    linarith

end watchdog

/-! ### The slot -/

/-- The first of hyper and the watchdog, where the watchdog returns. -/
theorem exists_first (served : Option ℚ) {state : ℚ → IdleState} {timeout begun T : ℚ} {fuel : ℕ}
    (h : idleWatchdog state timeout fuel begun = some T)
    (hunique : ∀ fuel' T', idleWatchdog state timeout fuel' begun = some T' → T' = T) :
    ∃ T' ≤ T, IsLeast {t | served = some t ∨
      ∃ fuel, idleWatchdog state timeout fuel begun = some t} T' := by
  have hleast : ∀ T₀, (∀ t, served = some t → T₀ ≤ t) → T₀ ≤ T →
      T₀ ∈ lowerBounds {t | served = some t ∨
        ∃ fuel, idleWatchdog state timeout fuel begun = some t} := by
    rintro T₀ hserved hle t (ht | ⟨fuel', ht⟩)
    · exact hserved t ht
    · exact (hunique fuel' t ht).symm ▸ hle
  cases served with
  | none => exact ⟨T, le_rfl, Or.inr ⟨fuel, h⟩, hleast T (fun t ht => by cases ht) le_rfl⟩
  | some e =>
    rcases le_total e T with hle | hge
    · exact ⟨e, hle, Or.inl rfl, hleast e (fun t ht => (Option.some_inj.mp ht).le) hle⟩
    · refine ⟨T, le_rfl, Or.inr ⟨fuel, h⟩, hleast T (fun t ht => ?_) le_rfl⟩
      exact hge.trans (Option.some_inj.mp ht).le

/-- **What frees a slot.**  The handshake is over within its timeout.  A client
that has let all its requests run to an answer, and does nothing more after
`last`, from the end of the handshake on, loses its slot within the idle timeout
from then.  And the end of a task is always one of these: the handshake has
failed, hyper is done with the connection, or no request has been dropped so
far; so after a request that the client has reset before its answer, the
watchdog does not free the slot any more. -/
theorem slot_freed (handshakeTimeout idleTimeout start : ℚ) (hpos : 0 < idleTimeout)
    (client : Client) (c : Connection)
    (hafter : ∀ e ∈ client.events,
      start + (acceptTlsWithTimeout handshakeTimeout client.accept).completesAt ≤ e.time)
    (horder : (client.events.map Event.time).Pairwise (· ≤ ·))
    (hrun : run step (Connection.new
      (start + (acceptTlsWithTimeout handshakeTimeout client.accept).completesAt)) client.events
        = some c) :
    (acceptTlsWithTimeout handshakeTimeout client.accept).completesAt ≤ handshakeTimeout ∧
    ((∀ e ∈ client.events, e.isDropFuture = false) → c.live = 0 →
      ∀ last, start + (acceptTlsWithTimeout handshakeTimeout client.accept).completesAt ≤ last →
        (∀ e ∈ client.events, e.time ≤ last) →
        ∃ T, EndsAt handshakeTimeout idleTimeout start client T ∧ T ≤ last + idleTimeout) ∧
    (client.events.length < 2 ^ 64 →
      ∀ T, EndsAt handshakeTimeout idleTimeout start client T →
        (∃ e, (acceptTlsWithTimeout handshakeTimeout client.accept).value = .error e) ∨
        client.served = some T ∨
        ∀ e ∈ client.events, e.isDropFuture = true → T < e.time) := by
  refine ⟨acceptTlsWithTimeout_le handshakeTimeout client.accept, ?_⟩
  unfold EndsAt
  generalize acceptTlsWithTimeout handshakeTimeout client.accept = accepted at *
  obtain ⟨d, result⟩ := accepted
  have hstate := funext (stateAt_eq hafter horder hrun)
  cases result with
  | error e =>
    -- the task ends with the handshake
    refine ⟨fun _ _ last hlast _ => ⟨start + d, rfl, ?_⟩, fun _ _ _ => Or.inl ⟨e, rfl⟩⟩
    dsimp only at hlast
    linarith
  | ok u =>
    -- with whatever fuel, the watchdog returns at the first moment that has expired
    have hleast : ∀ fuel T,
        idleWatchdog (client.stateAt (start + d)) idleTimeout fuel (start + d) = some T →
          IsLeast {t | start + d ≤ t ∧
            Expired (traceOf (bounds_events hafter) horder) idleTimeout t} T := by
      intro fuel T h
      rw [hstate] at h
      exact idleWatchdog_isLeast hpos h
    constructor
    · intro hdrop hlive last hbegun hlast
      obtain ⟨fuel, T, h, hT⟩ :=
        watchdog_returns_by hafter horder hrun hpos hbegun hlast hdrop hlive
      obtain ⟨T', hle', hends⟩ := exists_first client.served h fun fuel' t ht =>
        (hleast fuel' t ht).unique (hleast fuel T h)
      exact ⟨T', hends, hle'.trans hT⟩
    · rintro hlength T ⟨hserved | ⟨fuel, h⟩, -⟩
      · exact Or.inr (Or.inl hserved)
      · refine Or.inr (Or.inr (not_dropped_of_inFlight horder hrun hlength ?_))
        rw [hstate]
        exact (hleast fuel T h).1.2.1

/-- One request that is answered, and one that is reset before that. -/
def answered : Client where
  accept := some ⟨2, .ok ()⟩
  events := [.call 3, .request 0 .resolveOk 5, .request 0 (.pollFrame .finished) 25,
    .request 0 .dropBody 26]
  served := none

def resetEarly : Client := { answered with events := [.call 3, .request 0 .dropFuture 4] }

/-- A handshake of two seconds and nothing else. -/
def silent : Client := { answered with events := [] }

theorem slot_freed_answered :
    (∃ T, EndsAt 10 10 0 answered T ∧ T ≤ 36) ∧ (∃ T, EndsAt 10 10 0 silent T ∧ T ≤ 12) ∧
      ∀ T, EndsAt 10 10 0 resetEarly T → T < 4 := by
  refine ⟨?_, ?_, ?_⟩
  · obtain ⟨c, hrun, hlive⟩ : ∃ c, run step (Connection.new
        (0 + (acceptTlsWithTimeout 10 answered.accept).completesAt)) answered.events = some c ∧
          c.live = 0 := ⟨_, rfl, rfl⟩
    obtain ⟨T, hends, hT⟩ := (slot_freed 10 10 0 (by norm_num) answered c (by decide +kernel)
      (by decide +kernel) hrun).2.1 (by decide) hlive 26 (by decide +kernel) (by decide +kernel)
    exact ⟨T, hends, hT.trans (by norm_num)⟩
  · obtain ⟨T, hends, hT⟩ := (slot_freed 10 10 0 (by norm_num) silent _ (by decide +kernel)
      (by decide +kernel) rfl).2.1 (by decide) rfl 2 (by decide +kernel) (by decide +kernel)
    exact ⟨T, hends, hT.trans (by norm_num)⟩
  · intro T hends
    obtain ⟨c, hrun⟩ : ∃ c, run step (Connection.new
        (0 + (acceptTlsWithTimeout 10 resetEarly.accept).completesAt)) resetEarly.events
          = some c := ⟨_, rfl⟩
    rcases (slot_freed 10 10 0 (by norm_num) resetEarly c (by decide +kernel) (by decide +kernel)
      hrun).2.2 (by decide) T hends with ⟨e, he⟩ | hserved | hdropped
    · cases he
    · cases hserved
    · exact hdropped (.request 0 .dropFuture 4) (by simp [resetEarly]) rfl

end ConnectionEnd
