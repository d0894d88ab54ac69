/-
The two races between the idle watchdog and the streams of its connection.

In the first the watchdog wakes up after a request is off the count and before
it has touched.  In the second it reads the time of the last activity at the top
of its loop, then a request is released, and then it reads the counter.

* `reaches_mid_release`, `reaches_mid_check` — the two runs, for every timeout;
* `watchdog_safe_iff` — the watchdog returns only after the timeout has passed
  without a request exactly when neither can happen;
* `closed_after_request` — a request that has just finished.
-/
import ReverseProxy.IdleInterleaving

open Run IdleTracking

namespace IdleRace

variable {timeout : ℚ} {s : System}

/-! ### Runs -/

/-- A run that the discipline allows, and where it ends. -/
def Reaches (timeout : ℚ) (d : Discipline) (s : System) (es : List (ℚ × Action)) (t : System) :
    Prop :=
  run (step timeout) s es = some t ∧ Along (step timeout) (Allowed d) s es

theorem reaches_nil (d : Discipline) (s : System) : Reaches timeout d s [] s := ⟨rfl, trivial⟩

theorem Reaches.cons {d : Discipline} {t u : System} {e : ℚ × Action} {es : List (ℚ × Action)}
    (hstep : step timeout s e = some t) (hallowed : Allowed d s e)
    (h : Reaches timeout d t es u) : Reaches timeout d s (e :: es) u :=
  ⟨by rw [run_cons, hstep, Option.bind_some, h.1], (along_cons hstep es).mpr ⟨hallowed, h.2⟩⟩

/-- A request is counted, and the watchdog finds it and falls asleep. -/
theorem reaches_asleep {d : Discipline} {es : List (ℚ × Action)} {u : System}
    (h : Reaches timeout d ⟨0, ⟨0, 1⟩, [.counted], .asleep (0 + timeout), some 0⟩ es u) :
    Reaches timeout d (System.new 0)
      ((0, .callTouch) :: (0, .fetchAdd 0) :: (0, .watchdog) :: (0, .watchdog) :: es) u := by
  refine Reaches.cons (t := ⟨0, ⟨0, 0⟩, [.touched], .top, none⟩) (if_pos le_rfl) ?_ ?_
  · simp [Allowed, System.new, Watchdog.midCheck]
  refine Reaches.cons (t := ⟨0, ⟨0, 1⟩, [.counted], .top, none⟩) (if_pos le_rfl) ?_ ?_
  · simp [Allowed, Watchdog.midCheck]
  refine Reaches.cons (t := ⟨0, ⟨0, 1⟩, [.counted],
    .sampled ((timeout - (⟨0, 1⟩ : IdleState).idleFor 0) ⊔ 0), some 0⟩) (if_pos le_rfl) ?_ ?_
  · simp [Allowed, Watchdog.midCheck]
  refine Reaches.cons (if_pos le_rfl) ?_ h
  simp [Allowed, Watchdog.midCheck]

theorem idleFor_of_nonneg {now : ℚ} {n : UInt64} (h : 0 ≤ now) :
    (⟨0, n⟩ : IdleState).idleFor now = now := by
  rw [IdleState.idleFor, sub_zero, sup_eq_left.mpr h]

/-- The watchdog wakes between the two steps of a release. -/
theorem reaches_mid_release (hpos : 0 < timeout) (checks : Bool) :
    Reaches timeout ⟨false, checks⟩ (System.new 0)
      [(0, .callTouch), (0, .fetchAdd 0), (0, .watchdog), (0, .watchdog),
        (2 * timeout, .fetchSub 0), (2 * timeout, .watchdog), (2 * timeout, .watchdog)]
      ⟨2 * timeout, ⟨0, 0⟩, [.uncounted], .returned (2 * timeout) (some (2 * timeout)),
        some (2 * timeout)⟩ := by
  have hlater : 0 ≤ 2 * timeout := by linarith
  have hwake : 0 + timeout ≤ 2 * timeout := by linarith
  have hlast : (1 : UInt64) - 1 = 0 := by decide
  have hidle : timeout ≤ (⟨0, 0⟩ : IdleState).idleFor (2 * timeout) := by
    rw [idleFor_of_nonneg hlater]
    linarith
  refine reaches_asleep ?_
  refine Reaches.cons (t := ⟨2 * timeout, ⟨0, 0⟩, [.uncounted], .asleep (0 + timeout),
    some (2 * timeout)⟩) ?_ ?_ ?_
  · rw [step, if_pos hlater]
    exact congrArg (fun n => some (System.mk (2 * timeout) ⟨0, n⟩ [.uncounted]
      (.asleep (0 + timeout)) (some (2 * timeout)))) hlast
  · simp [Allowed, Watchdog.midCheck]
  -- it reads the counter, which is zero, and then the time of the call
  refine Reaches.cons (t := ⟨2 * timeout, ⟨0, 0⟩, [.uncounted],
    .seenZero (2 * timeout) (some (2 * timeout)), some (2 * timeout)⟩) ?_ ?_ ?_
  · rw [step, if_pos le_rfl]
    exact congrArg (Option.map _) (if_pos hwake)
  · simp [Allowed, Watchdog.midCheck]
  refine Reaches.cons ?_ ?_ (reaches_nil _ _)
  · rw [step, if_pos le_rfl]
    exact congrArg (fun w => some (System.mk (2 * timeout) ⟨0, 0⟩ [.uncounted] w
      (some (2 * timeout)))) (if_pos hidle)
  · simp [Allowed, Watchdog.midCheck]

/-- A whole release between the two reads of the watchdog. -/
theorem reaches_mid_check (hpos : 0 < timeout) (releases : Bool) :
    Reaches timeout ⟨releases, false⟩ (System.new 0)
      [(0, .callTouch), (0, .fetchAdd 0), (0, .watchdog), (0, .watchdog), (2 * timeout, .watchdog),
        (2 * timeout, .watchdog), (2 * timeout, .fetchSub 0), (2 * timeout, .releaseTouch 0),
        (2 * timeout, .watchdog)]
      ⟨2 * timeout, ⟨2 * timeout, 0⟩, [.finished], .returned (2 * timeout) (some (2 * timeout)),
        some (2 * timeout)⟩ := by
  have hlater : 0 ≤ 2 * timeout := by linarith
  have hwake : 0 + timeout ≤ 2 * timeout := by linarith
  have hlast : (1 : UInt64) - 1 = 0 := by decide
  have hremaining : (timeout - (⟨0, 1⟩ : IdleState).idleFor (2 * timeout)) ⊔ 0 = 0 := by
    rw [idleFor_of_nonneg hlater]
    exact sup_eq_right.mpr (by linarith)
  refine reaches_asleep ?_
  refine Reaches.cons (t := ⟨2 * timeout, ⟨0, 1⟩, [.counted], .top, some (2 * timeout)⟩) ?_ ?_ ?_
  · rw [step, if_pos hlater]
    exact congrArg (Option.map _) (if_pos hwake)
  · simp [Allowed, Watchdog.midCheck]
  -- it reads the time of the call, and the counter after the release
  refine Reaches.cons (t := ⟨2 * timeout, ⟨0, 1⟩, [.counted], .sampled 0, some (2 * timeout)⟩)
    ?_ ?_ ?_
  · rw [step, if_pos le_rfl]
    exact congrArg (fun r => some (System.mk (2 * timeout) ⟨0, 1⟩ [.counted] (.sampled r)
      (some (2 * timeout)))) hremaining
  · simp [Allowed]
  refine Reaches.cons (t := ⟨2 * timeout, ⟨0, 0⟩, [.uncounted], .sampled 0, some (2 * timeout)⟩)
    ?_ ?_ ?_
  · rw [step, if_pos le_rfl]
    exact congrArg (fun n => some (System.mk (2 * timeout) ⟨0, n⟩ [.uncounted] (.sampled 0)
      (some (2 * timeout)))) hlast
  · simp [Allowed]
  refine Reaches.cons (t := ⟨2 * timeout, ⟨2 * timeout, 0⟩, [.finished], .sampled 0,
    some (2 * timeout)⟩) (if_pos le_rfl) ?_ ?_
  · simp [Allowed]
  refine Reaches.cons ?_ ?_ (reaches_nil _ _)
  · rw [step, if_pos le_rfl]
    rfl
  · simp [Allowed]

/-- **The watchdog and the streams.**  Whenever the watchdog has returned, no
request was counted in the timeout before the read that decided on it, in every
interleaving that a discipline allows: this is so exactly when the watchdog does
not read in the middle of a release, and nothing comes between its two reads.
HTTP/2 numbers the streams of a connection with 31 bits. -/
theorem watchdog_safe_iff (timeout : ℚ) (hpos : 0 < timeout) (d : Discipline) :
    (∀ (start : ℚ) (es : List (ℚ × Action)) (s : System),
      run (step timeout) (System.new start) es = some s →
      Along (step timeout) (Allowed d) (System.new start) es → s.streams.length < 2 ^ 31 →
      Safe timeout s) ↔
    d.wholeReleases = true ∧ d.wholeChecks = true := by
  obtain ⟨releases, checks⟩ := d
  constructor
  · intro h
    -- a return at `2 * timeout` with a request counted until then is not safe
    have hunsafe : ∀ s : System, s.watchdog = .returned (2 * timeout) (some (2 * timeout)) →
        ¬ Safe timeout s := by
      intro s hs hsafe
      have := hsafe _ _ hs
      linarith
    refine ⟨Bool.eq_true_of_not_eq_false ?_, Bool.eq_true_of_not_eq_false ?_⟩
    · rintro (rfl : releases = false)
      obtain ⟨hrun, halong⟩ := reaches_mid_release hpos checks
      exact hunsafe _ rfl (h 0 _ _ hrun halong (by norm_num))
    · rintro (rfl : checks = false)
      obtain ⟨hrun, halong⟩ := reaches_mid_check hpos releases
      exact hunsafe _ rfl (h 0 _ _ hrun halong (by norm_num))
  · rintro ⟨rfl, rfl⟩ start es s hrun halong hsmall
    exact (run_inv hpos hrun halong hsmall).safe

/-- A request that is released after the timeout, and a watchdog that finds the
connection idle for the timeout later. -/
def servedRun : List (ℚ × Action) :=
  [(0, .watchdog), (0, .watchdog), (4, .callTouch), (4, .fetchAdd 0), (10, .watchdog),
    (10, .watchdog), (10, .watchdog), (15, .fetchSub 0), (15, .releaseTouch 0), (20, .watchdog),
    (20, .watchdog), (20, .watchdog), (20, .watchdog), (25, .watchdog), (25, .watchdog)]

theorem watchdog_safe_served :
    ∃ s, run (step 10) (System.new 0) servedRun = some s ∧
      s.watchdog = .returned 25 (some 15) ∧ Safe 10 s := by
  have hrun : run (step 10) (System.new 0) servedRun
      = some ⟨25, ⟨15, 0⟩, [.finished], .returned 25 (some 15), some 15⟩ := by decide +kernel
  refine ⟨_, hrun, rfl, (watchdog_safe_iff 10 (by norm_num) ⟨true, true⟩).mpr ⟨rfl, rfl⟩ 0 servedRun
    _ hrun ?_ (by norm_num)⟩
  decide +kernel

/-- **A connection is closed right after a request.**  The request runs from 0
to 20.  At 20 it is off the count and has not touched yet when the watchdog
wakes up, finds nothing in flight and no activity for 20 seconds. -/
theorem closed_after_request :
    ∃ s, run (step 10) (System.new 0)
        [(0, .callTouch), (0, .fetchAdd 0), (0, .watchdog), (0, .watchdog), (20, .fetchSub 0),
          (20, .watchdog), (20, .watchdog)] = some s ∧
      s.watchdog = .returned 20 (some 20) ∧ ¬ Safe 10 s := by
  refine ⟨⟨20, ⟨0, 0⟩, [.uncounted], .returned 20 (some 20), some 20⟩, ?_, rfl, fun hsafe => ?_⟩
  · decide +kernel
  · have := hsafe 20 20 rfl
    norm_num at this

end IdleRace
