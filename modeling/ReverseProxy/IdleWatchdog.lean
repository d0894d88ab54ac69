/-
The idle watchdog of a connection.

`idle_watchdog` sleeps, looks at the counter and at the time of the last
activity, and either returns, which closes the connection, or sleeps again.
Here every event and every look takes no time, and events come before a look at
the same instant.

* `not_expired_of_lt_wake` — the connection does not expire during a sleep;
* `add_timeout_le_of_rounds` — two rounds take at least the timeout;
* `watchdog_exact` — the watchdog returns at the first instant at which the
  connection is expired.
-/
import ReverseProxy.IdleTrace

namespace IdleTracking

/-! ### The loop -/

/-- `duration_since` saturates at zero. -/
def IdleState.idleFor (s : IdleState) (now : ℚ) : ℚ := (now - s.lastActivity) ⊔ 0

/-- How long to sleep, or that it is time to return. -/
def sleepDur (s : IdleState) (timeout now : ℚ) : Option ℚ :=
  let remaining := (timeout - s.idleFor now) ⊔ 0
  if 0 < s.inFlight then some timeout
  else if remaining ≠ 0 then some remaining
  else none

/-- One round of the loop ends at an instant, with a return or without. -/
inductive Round where
  | returned (t : ℚ)
  | again (t : ℚ)
  deriving DecidableEq

def watchdogRound (state : ℚ → IdleState) (timeout now : ℚ) : Round :=
  match sleepDur (state now) timeout now with
  | none => .returned now
  | some d =>
    -- the sleep wakes exactly `d` later
    if (state (now + d)).inFlight = 0 ∧ timeout ≤ (state (now + d)).idleFor (now + d) then
      .returned (now + d)
    else .again (now + d)

/-- The instant at which `idle_watchdog` returns, within so many rounds. -/
def idleWatchdog (state : ℚ → IdleState) (timeout : ℚ) : ℕ → ℚ → Option ℚ
  | 0, _ => none
  | fuel + 1, now =>
    match watchdogRound state timeout now with
    | .returned t => some t
    | .again t => idleWatchdog state timeout fuel t

/-- The instant at which the n-th round starts, if it does. -/
def roundStart (state : ℚ → IdleState) (timeout start : ℚ) : ℕ → Option ℚ
  | 0 => some start
  | n + 1 => (roundStart state timeout start n).bind fun now =>
    match watchdogRound state timeout now with
    | .returned _ => none
    | .again t => some t

/-! ### Expiry -/

section expiry

variable {clock : AddSubgroup ℚ} {start : ℚ} (tr : Trace clock start) (timeout : ℚ)

/-- No request is in flight and the last activity is long enough ago. -/
def Expired (t : ℚ) : Prop :=
  (tr.stateAt t).inFlight = 0 ∧ timeout ≤ t - (tr.stateAt t).lastActivity

/-- The connection has not been expired so far. -/
structure Quiet (now : ℚ) : Prop where
  mem : now ∈ clock
  started : start ≤ now
  notExpired : ∀ t, start ≤ t → t ≤ now → ¬ Expired tr timeout t

variable {tr timeout} (hstart : start ∈ clock) (htimeout : timeout ∈ clock) (hpos : 0 < timeout)

include hstart in
theorem idleFor_stateAt {t : ℚ} (ht : start ≤ t) :
    (tr.stateAt t).idleFor t = t - (tr.stateAt t).lastActivity := by
  have hlast := (lastActivity_stateAt tr hstart ht).2.2
  exact sup_eq_left.mpr (sub_nonneg.mpr hlast)

include hpos in
theorem quiet_start (hstart : start ∈ clock) : Quiet tr timeout start := by
  refine ⟨hstart, le_rfl, fun t hle hge => ?_⟩
  obtain rfl := le_antisymm hge hle
  rintro ⟨-, hlong⟩
  have hlast := (lastActivity_stateAt tr hstart le_rfl).2.1
  linarith

include hstart htimeout hpos in
/-- The sleep from a quiet instant: until the timeout has passed since then, or
since the last activity. -/
theorem sleepDur_of_quiet {now : ℚ} (h : Quiet tr timeout now) :
    ∃ d, sleepDur (tr.stateAt now) timeout now = some d ∧ 0 < d ∧ now + d ∈ clock ∧
      (0 < (tr.stateAt now).inFlight ∧ d = timeout ∨
        (tr.stateAt now).inFlight = 0 ∧ now + d = (tr.stateAt now).lastActivity + timeout) := by
  obtain ⟨hmem, -, -⟩ := lastActivity_stateAt tr hstart h.started
  rw [sleepDur, idleFor_stateAt hstart h.started]
  by_cases hflight : 0 < (tr.stateAt now).inFlight
  · rw [if_pos hflight]
    exact ⟨timeout, rfl, hpos, clock.add_mem h.mem htimeout, Or.inl ⟨hflight, rfl⟩⟩
  · -- with nothing in flight the timeout has not passed yet
    have hzero : (tr.stateAt now).inFlight = 0 := UInt64.not_lt.mp hflight |> UInt64.le_zero_iff.mp
    have hleft : 0 < timeout - (now - (tr.stateAt now).lastActivity) := by
      have hnot := h.notExpired now h.started le_rfl
      rw [Expired, not_and, not_le] at hnot
      have := hnot hzero
      linarith
    rw [if_neg hflight, sup_eq_left.mpr hleft.le, if_pos hleft.ne']
    have hwake : now + (timeout - (now - (tr.stateAt now).lastActivity))
        = (tr.stateAt now).lastActivity + timeout := by ring
    exact ⟨_, rfl, hleft, hwake ▸ clock.add_mem hmem htimeout, Or.inr ⟨hzero, hwake⟩⟩

include hstart in
/-- **No expiry during a sleep.**  If a request was in flight, its end is an
activity within the sleep; if none was, the sleep lasts as long as the last
activity allows. -/
theorem not_expired_of_lt_wake {now d t : ℚ} (h : Quiet tr timeout now)
    (hsleep : 0 < (tr.stateAt now).inFlight ∧ d = timeout ∨
      (tr.stateAt now).inFlight = 0 ∧ now + d = (tr.stateAt now).lastActivity + timeout)
    (hafter : now ≤ t) (hbefore : t < now + d) : ¬ Expired tr timeout t := by
  rintro ⟨hzero, hlong⟩
  rcases hsleep with ⟨hflight, rfl⟩ | ⟨-, hwake⟩
  · rcases changed_or_lastActivity_lt tr hafter with heq | hlt
    · rw [← heq, hzero] at hflight
      exact absurd hflight (by decide)
    · linarith
  · have := lastActivity_mono tr hstart h.started hafter
    linarith

/-- The round from a quiet instant. -/
structure RoundSpec (tr : Trace clock start) (timeout now : ℚ) (r : Round) : Prop where
  returned : ∀ t, r = .returned t → t ∈ clock ∧ start ≤ t ∧ Expired tr timeout t ∧
    ∀ t', start ≤ t' → t' < t → ¬ Expired tr timeout t'
  again : ∀ t, r = .again t → Quiet tr timeout t ∧ now < t ∧
    (0 < (tr.stateAt now).inFlight ∧ t = now + timeout ∨
      (tr.stateAt now).inFlight = 0 ∧ t = (tr.stateAt now).lastActivity + timeout)

include hstart htimeout hpos in
theorem watchdogRound_spec {now : ℚ} (h : Quiet tr timeout now) :
    RoundSpec tr timeout now (watchdogRound tr.stateAt timeout now) := by
  obtain ⟨d, hd, hdpos, hmem, hsleep⟩ := sleepDur_of_quiet hstart htimeout hpos h
  have hwake : start ≤ now + d := h.started.trans (by linarith)
  -- up to the end of the sleep the connection is not expired
  have hquiet : ∀ t, start ≤ t → t < now + d → ¬ Expired tr timeout t := by
    intro t ht hlt
    rcases le_total t now with hle | hge
    · exact h.notExpired t ht hle
    · exact not_expired_of_lt_wake hstart h hsleep hge hlt
  rw [watchdogRound, hd]
  simp only [idleFor_stateAt hstart hwake]
  split
  · next hexpired =>
    refine ⟨fun t ht => ?_, fun t ht => by cases ht⟩
    obtain rfl := Round.returned.inj ht
    exact ⟨hmem, hwake, hexpired, hquiet⟩
  · next hnot =>
    refine ⟨fun t ht => (by cases ht), fun t ht => ?_⟩
    obtain rfl := Round.again.inj ht
    refine ⟨⟨hmem, hwake, fun t ht hle => ?_⟩, by linarith, ?_⟩
    · rcases lt_or_eq_of_le hle with hlt | rfl
      · exact hquiet t ht hlt
      · exact hnot
    · rcases hsleep with ⟨hflight, rfl⟩ | hidle
      · exact Or.inl ⟨hflight, rfl⟩
      · exact Or.inr hidle

include hstart htimeout hpos in
/-- **Two rounds take at least the timeout.**  After a shorter sleep something
has happened since its start, or the connection would be expired. -/
theorem add_timeout_le_of_rounds {now t t' : ℚ} (h : Quiet tr timeout now)
    (hround : watchdogRound tr.stateAt timeout now = .again t)
    (hround' : watchdogRound tr.stateAt timeout t = .again t') : now + timeout ≤ t' := by
  obtain ⟨hquiet, hlt, hsleep⟩ := (watchdogRound_spec hstart htimeout hpos h).again t hround
  obtain ⟨-, hlt', hsleep'⟩ := (watchdogRound_spec hstart htimeout hpos hquiet).again t' hround'
  rcases hsleep with ⟨-, rfl⟩ | ⟨-, rfl⟩
  · exact hlt'.le
  · rcases hsleep' with ⟨-, rfl⟩ | ⟨hzero, rfl⟩
    · linarith
    · rcases changed_or_lastActivity_lt tr hlt.le with heq | hlt
      · -- nothing has happened, so the connection is expired at the wake-up
        refine absurd ⟨hzero, ?_⟩ (hquiet.notExpired _ hquiet.started le_rfl)
        rw [heq]
        linarith
      · linarith

include hstart htimeout hpos in
theorem idleWatchdog_first (fuel : ℕ) : ∀ {now T : ℚ}, Quiet tr timeout now →
    idleWatchdog tr.stateAt timeout fuel now = some T →
      T ∈ clock ∧ start ≤ T ∧ Expired tr timeout T ∧
        ∀ t, start ≤ t → t < T → ¬ Expired tr timeout t := by
  induction fuel with
  | zero =>
    intro now T _ h
    exact absurd h.symm (Option.some_ne_none T)
  | succ fuel ih =>
    intro now T hquiet h
    have hspec := watchdogRound_spec hstart htimeout hpos hquiet
    rw [idleWatchdog] at h
    cases hround : watchdogRound tr.stateAt timeout now with
    | returned t =>
      rw [hround] at h
      obtain rfl := Option.some_inj.mp h
      exact hspec.returned t hround
    | again t =>
      rw [hround] at h
      exact ih (hspec.again t hround).1 h

include hstart htimeout hpos in
/-- Rounds that go on pass every instant. -/
theorem idleWatchdog_returns {T : ℚ} (hT : start ≤ T) (hexpired : Expired tr timeout T) (n : ℕ) :
    ∀ {now : ℚ}, Quiet tr timeout now → T < now + n * timeout →
      ∃ fuel T', idleWatchdog tr.stateAt timeout fuel now = some T' := by
  induction n with
  | zero =>
    intro now hquiet hlt
    rw [Nat.cast_zero, zero_mul, add_zero] at hlt
    exact absurd hexpired (hquiet.notExpired T hT hlt.le)
  | succ n ih =>
    intro now hquiet hlt
    cases hround : watchdogRound tr.stateAt timeout now with
    | returned t => exact ⟨1, t, by rw [idleWatchdog, hround]⟩
    | again t =>
      obtain ⟨hquiet', -, -⟩ := (watchdogRound_spec hstart htimeout hpos hquiet).again t hround
      cases hround' : watchdogRound tr.stateAt timeout t with
      | returned t' => exact ⟨2, t', by simp only [idleWatchdog, hround, hround']⟩
      | again t' =>
        obtain ⟨hquiet'', -, -⟩ :=
          (watchdogRound_spec hstart htimeout hpos hquiet').again t' hround'
        have hgain := add_timeout_le_of_rounds hstart htimeout hpos hquiet hround hround'
        obtain ⟨fuel, T', h⟩ := ih hquiet'' (by push_cast at hlt; linarith)
        exact ⟨fuel + 2, T', by simp only [idleWatchdog, hround, hround', h]⟩

theorem roundStart_succ {state : ℚ → IdleState} {n : ℕ} {t : ℚ}
    (h : roundStart state timeout start (n + 1) = some t) :
    ∃ now, roundStart state timeout start n = some now ∧
      watchdogRound state timeout now = .again t := by
  obtain ⟨now, hnow, h⟩ := Option.bind_eq_some_iff.mp h
  refine ⟨now, hnow, ?_⟩
  cases hround : watchdogRound state timeout now with
  | returned t' => rw [hround] at h; cases h
  | again t' => rw [hround] at h; rw [Option.some_inj.mp h]

include hstart htimeout hpos in
theorem quiet_roundStart (n : ℕ) : ∀ {t : ℚ}, roundStart tr.stateAt timeout start n = some t →
    Quiet tr timeout t := by
  induction n with
  | zero =>
    intro t h
    exact Option.some_inj.mp h ▸ quiet_start hpos hstart
  | succ n ih =>
    intro t h
    obtain ⟨now, hnow, hround⟩ := roundStart_succ h
    exact ((watchdogRound_spec hstart htimeout hpos (ih hnow)).again t hround).1

include hstart htimeout hpos in
theorem le_roundStart (n : ℕ) : ∀ {t : ℚ}, roundStart tr.stateAt timeout start (2 * n) = some t →
    start + n * timeout ≤ t := by
  induction n with
  | zero =>
    intro t h
    rw [← Option.some_inj.mp h, Nat.cast_zero, zero_mul, add_zero]
  | succ n ih =>
    intro t h
    obtain ⟨t₁, h₁, hround₁⟩ := roundStart_succ h
    obtain ⟨t₀, h₀, hround₀⟩ := roundStart_succ h₁
    have hquiet := quiet_roundStart hstart htimeout hpos _ h₀
    have hgain := add_timeout_le_of_rounds hstart htimeout hpos hquiet hround₀ hround₁
    have hsofar := ih h₀
    push_cast
    linarith

end expiry

/-- **The watchdog is exact.**  Started with the connection, it returns at the
first instant of the clock at which the connection is expired, and if there is
none it does not return.  Each round lets time pass, and two of them at least
the timeout. -/
theorem watchdog_exact (clock : AddSubgroup ℚ) (start timeout : ℚ) (hstart : start ∈ clock)
    (htimeout : timeout ∈ clock) (hpos : 0 < timeout) (tr : Trace clock start) :
    (∀ T, (∃ fuel, idleWatchdog tr.stateAt timeout fuel start = some T) ↔
      IsLeast {t | t ∈ clock ∧ start ≤ t ∧ Expired tr timeout t} T) ∧
    ((∃ t ∈ clock, start ≤ t ∧ Expired tr timeout t) →
      ∃ fuel T, idleWatchdog tr.stateAt timeout fuel start = some T) ∧
    (∀ n t t', roundStart tr.stateAt timeout start n = some t →
      roundStart tr.stateAt timeout start (n + 1) = some t' → t < t') ∧
    ∀ n t, roundStart tr.stateAt timeout start (2 * n) = some t → start + n * timeout ≤ t := by
  have hquiet : Quiet tr timeout start := quiet_start hpos hstart
  have hreturns : ∀ t, start ≤ t → Expired tr timeout t →
      ∃ fuel T, idleWatchdog tr.stateAt timeout fuel start = some T := by
    intro t ht hexpired
    obtain ⟨n, hn⟩ := Archimedean.arch (t - start + 1) hpos
    rw [nsmul_eq_mul] at hn
    exact idleWatchdog_returns hstart htimeout hpos ht hexpired n hquiet (by linarith)
  have hfirst : ∀ fuel T, idleWatchdog tr.stateAt timeout fuel start = some T →
      IsLeast {t | t ∈ clock ∧ start ≤ t ∧ Expired tr timeout t} T := by
    intro fuel T h
    obtain ⟨hmem, hT, hexpired, hbefore⟩ := idleWatchdog_first hstart htimeout hpos fuel hquiet h
    refine ⟨⟨hmem, hT, hexpired⟩, ?_⟩
    rintro t ⟨-, ht, hexpired'⟩
    exact not_lt.mp fun hlt => hbefore t ht hlt hexpired'
  refine ⟨fun T => ⟨?_, ?_⟩, ?_, ?_, fun n t => le_roundStart hstart htimeout hpos n⟩
  · rintro ⟨fuel, h⟩
    exact hfirst fuel T h
  · -- the watchdog does return, and its instant is the first one too
    intro hleast
    obtain ⟨fuel, T', h⟩ := hreturns T hleast.1.2.1 hleast.1.2.2
    exact ⟨fuel, (hfirst fuel T' h).unique hleast ▸ h⟩
  · rintro ⟨t, -, ht, hexpired⟩
    exact hreturns t ht hexpired
  · intro n t t' ht ht'
    obtain ⟨now, hnow, hround⟩ := roundStart_succ ht'
    obtain rfl := Option.some_inj.mp (ht.symm.trans hnow)
    have hq := quiet_roundStart hstart htimeout hpos n ht
    exact ((watchdogRound_spec hstart htimeout hpos hq).again t' hround).2.1

/-- One request, from 3 to 25, with a frame at 15. -/
def longRun : List Event :=
  [.call 3, .request 0 .resolveOk 5, .request 0 (.pollFrame .data) 15,
    .request 0 (.pollFrame .finished) 25, .request 0 .dropBody 26]

theorem bounds_longRun : ∀ e ∈ longRun, e.time ∈ (⊤ : AddSubgroup ℚ) ∧ 0 ≤ e.time := by
  have hnonneg : ∀ e ∈ longRun, 0 ≤ e.time := by decide +kernel
  exact fun e he => ⟨trivial, hnonneg e he⟩

def longTrace : Trace ⊤ 0 := traceOf bounds_longRun (by decide +kernel)

/-- With a timeout of 10 the connection of this run is closed at 35. -/
theorem watchdog_exact_long :
    IsLeast {t | t ∈ (⊤ : AddSubgroup ℚ) ∧ 0 ≤ t ∧ Expired longTrace 10 t} 35 := by
  refine ((watchdog_exact ⊤ 0 10 trivial trivial (by norm_num) longTrace).1 35).mp ⟨4, ?_⟩
  decide +kernel

end IdleTracking
