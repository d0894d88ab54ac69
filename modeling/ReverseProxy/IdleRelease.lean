/-
When a response is taken off the in-flight count.

An `IdleTrackingBody` gives its count up from three places: at the end of the
stream, at an error, and when it is dropped.  The flag `decremented` is there so
that only the first of them does.

* `released_run` — the flag tells whether one of them has happened;
* `inFlight_body` — what one event of a body does to the counter;
* `released_once` — each response is taken off exactly once and not too early,
  so the counter covers the requests that are still being answered.
-/
import ReverseProxy.IdleTracking

open Run

namespace IdleTracking

/-! ### The events of a body -/

def Happening.isBody : Happening → Bool
  | .pollFrame _ => true
  | .dropBody => true
  | _ => false

/-- The body ends, fails or is dropped. -/
def Happening.isEnd : Happening → Bool
  | .pollFrame .error => true
  | .pollFrame .finished => true
  | .dropBody => true
  | _ => false

def Event.isBody (i : ℕ) : Event → Bool
  | .request j h _ => j = i ∧ h.isBody
  | _ => false

def Event.isEnd (i : ℕ) : Event → Bool
  | .request j h _ => j = i ∧ h.isEnd
  | _ => false

/-- The response is off the count. -/
def Phase.released : Phase → Bool
  | .body b _ => b.decremented
  | .dropped => true
  | _ => false

def Connection.released (c : Connection) (i : ℕ) : Bool :=
  (c.requests[i]?).elim false Phase.released

theorem released_advance {s s' : IdleState} {now : ℚ} {p q : Phase} {h : Happening}
    (hadv : advance s now p h = some (s', q)) : q.released = (p.released || h.isEnd) := by
  cases p with
  | pending =>
    cases h with
    | pollFrame answer => cases hadv
    | dropBody => cases hadv
    | _ =>
      obtain ⟨-, rfl⟩ := Prod.mk.inj (Option.some_inj.mp hadv)
      rfl
  | body b ended =>
    cases h with
    | pollFrame answer =>
      cases answer <;>
      · obtain ⟨-, rfl⟩ := Prod.mk.inj (Option.some_inj.mp hadv)
        simp [Phase.released, Happening.isEnd, release]
    | dropBody =>
      obtain ⟨-, rfl⟩ := Prod.mk.inj (Option.some_inj.mp hadv)
      simp [Phase.released, Happening.isEnd]
    | _ => cases hadv
  | _ => cases hadv

theorem released_step {c c' : Connection} {e : Event} (i : ℕ) (hstep : step c e = some c') :
    c'.released i = (c.released i || e.isEnd i) := by
  cases e with
  | call now =>
    -- a new request is pending
    have hno : (Event.call now).isEnd i = false := rfl
    rw [← Option.some_inj.mp hstep, hno, Bool.or_false, Connection.released,
      Connection.released, List.getElem?_append]
    split
    · rfl
    · next hlen =>
      rw [List.getElem?_eq_none (not_lt.mp hlen)]
      cases hi : [Phase.pending][i - c.requests.length]? with
      | none => rfl
      | some p => rw [List.mem_singleton.mp (List.mem_of_getElem? hi)]; rfl
  | request j what now =>
    obtain ⟨p, ⟨s', q⟩, hp, hadv, rfl⟩ := step_request hstep
    rw [Connection.released, Connection.released]
    by_cases hij : j = i
    · subst hij
      have hlen := (List.getElem?_eq_some_iff.mp hp).1
      have hset : (c.requests.set j q)[j]? = some q := by
        rw [List.getElem?_set_self hlen]
      rw [hset, hp, Option.elim_some, Option.elim_some, released_advance hadv]
      simp [Event.isEnd]
    · have hset : (c.requests.set j q)[i]? = c.requests[i]? := List.getElem?_set_ne hij
      rw [hset]
      simp [Event.isEnd, hij]

theorem released_run {now : ℚ} {es : List Event} {c : Connection}
    (h : run step (Connection.new now) es = some c) (i : ℕ) :
    c.released i = es.any (Event.isEnd i) :=
  run_any (f := fun c => c.released i) (released_step i) es h

/-! ### The counter -/

/-- **One event of a body.** -/
theorem inFlight_body {c c' : Connection} {i : ℕ} {what : Happening} {now : ℚ}
    (hbody : what.isBody = true) (hstep : step c (.request i what now) = some c') :
    c'.idle.inFlight
      = c.idle.inFlight - if what.isEnd = true ∧ c.released i = false then 1 else 0 := by
  obtain ⟨p, ⟨s', q⟩, hp, hadv, rfl⟩ := step_request hstep
  have hreleased : c.released i = p.released := by rw [Connection.released, hp, Option.elim_some]
  rw [hreleased]
  cases p with
  | body b ended =>
    -- `release` looks at the flag
    have hrelease : (release c.idle b now).1.inFlight
        = c.idle.inFlight - if b.decremented = false then 1 else 0 := by
      rcases b with ⟨_ | _⟩
      · rfl
      · exact (UInt64.sub_zero _).symm
    cases what with
    | pollFrame answer =>
      cases answer <;>
      · obtain ⟨rfl, -⟩ := Prod.mk.inj (Option.some_inj.mp hadv)
        simp [Phase.released, Happening.isEnd, hrelease, IdleState.touch]
    | dropBody =>
      obtain ⟨rfl, -⟩ := Prod.mk.inj (Option.some_inj.mp hadv)
      simp [Phase.released, Happening.isEnd, hrelease]
    | _ => cases hbody
  | pending =>
    cases what with
    | pollFrame answer => cases hadv
    | dropBody => cases hadv
    | _ => cases hbody
  | _ => cases hadv

/-- How often events of the body of `i` change the counter in a run. -/
def decrements (i : ℕ) : Connection → List Event → ℕ
  | _, [] => 0
  | c, e :: es =>
    match step c e with
    | none => 0
    | some c' =>
      (if e.isBody i = true ∧ c'.idle.inFlight ≠ c.idle.inFlight then 1 else 0)
        + decrements i c' es

theorem changes_iff {c c' : Connection} {e : Event} (i : ℕ) (hstep : step c e = some c') :
    e.isBody i = true ∧ c'.idle.inFlight ≠ c.idle.inFlight ↔
      e.isEnd i = true ∧ c.released i = false := by
  cases e with
  | call now => simp [Event.isBody, Event.isEnd]
  | request j what now =>
    by_cases hj : j = i ∧ what.isBody = true
    · obtain ⟨rfl, hbody⟩ := hj
      rw [inFlight_body hbody hstep]
      by_cases hend : what.isEnd = true ∧ c.released j = false
      · simp [Event.isBody, Event.isEnd, hbody, hend]
      · simp only [if_neg hend, UInt64.sub_zero, ne_eq, not_true_eq_false, and_false, false_iff]
        simpa [Event.isEnd] using hend
    · -- an end is an event of the body
      have hends : what.isEnd = true → what.isBody = true := by
        cases what with
        | pollFrame answer => exact fun _ => rfl
        | dropBody => exact fun _ => rfl
        | _ => exact id
      have hno : ¬ (j = i ∧ what.isEnd = true) := fun h => hj ⟨h.1, hends h.2⟩
      simp [Event.isBody, Event.isEnd, hj, hno]

/-- Once an end has been seen, the counter is left alone. -/
theorem decrements_eq (i : ℕ) (es : List Event) : ∀ {c c' : Connection},
    run step c es = some c' →
      decrements i c es
        = if c.released i = false ∧ es.any (Event.isEnd i) = true then 1 else 0 := by
  induction es with
  | nil =>
    intro c c' _
    simp [decrements]
  | cons e es ih =>
    intro c c' h
    obtain ⟨t, ht, h⟩ := Option.bind_eq_some_iff.mp h
    simp only [decrements, ht, changes_iff i ht, ih h, released_step i ht, List.any_cons]
    by_cases hreleased : c.released i = true
    · simp [hreleased]
    · by_cases hend : e.isEnd i = true
      · simp [hreleased, hend]
      · simp [hreleased, hend]

/-- The requests that are on the count. -/
def Connection.counted (c : Connection) : ℕ := c.requests.countP Phase.holds

theorem live_le_counted {c : Connection} (h : Inv c) : c.live ≤ c.counted := by
  rw [Connection.counted, countP_holds _ h.wellFormed]
  exact Nat.le_add_right ..

/-- A step that takes one off finds one. -/
theorem counted_pos {c c' : Connection} {e : Event} (h : Inv c) (hstep : step c e = some c')
    (hfall : c'.idle.inFlight = c.idle.inFlight - 1) : 0 < c.counted := by
  cases e with
  | call now =>
    have hup : c'.idle.inFlight = c.idle.inFlight + 1 := by rw [← Option.some_inj.mp hstep]
    rw [hup] at hfall
    have htwo : (1 : UInt64) = -1 := by
      rw [UInt64.sub_eq_add_neg] at hfall
      exact UInt64.add_right_inj _ |>.mp hfall
    exact absurd htwo (by decide)
  | request i what now =>
    obtain ⟨p, ⟨s', q⟩, hp, hadv, rfl⟩ := step_request hstep
    obtain ⟨-, hholds⟩ := advance_holds (h.wellFormed p (List.mem_of_getElem? hp)) hadv
    rcases hholds with ⟨-, hsame⟩ | ⟨hold, -, -⟩
    · -- the counter of 64 bits does not stay the same when one is taken off
      have hone : c.idle.inFlight - 0 = c.idle.inFlight - 1 := by
        rw [UInt64.sub_zero]
        exact hsame.symm.trans hfall
      exact absurd (UInt64.sub_right_inj _ |>.mp hone) (by decide)
    · exact List.countP_pos_iff.mpr ⟨p, List.mem_of_getElem? hp, hold⟩

/-- **A response is released once.**  Of the events of a body exactly the first
that is an end, an error or a drop takes it off the count.  So the requests that
are on the count are at least the live ones, and none is taken off when there is
none; and the counter shows them as long as they are less than 2⁶⁴. -/
theorem released_once (now : ℚ) (es : List Event) (c : Connection)
    (h : run step (Connection.new now) es = some c) :
    (∀ i what t c', what.isBody = true → step c (.request i what t) = some c' →
      c'.idle.inFlight = c.idle.inFlight
        - if what.isEnd = true ∧ es.any (Event.isEnd i) = false then 1 else 0) ∧
    (∀ i, decrements i (Connection.new now) es = if es.any (Event.isEnd i) = true then 1 else 0) ∧
    (c.live ≤ c.counted ∧
      ∀ e c', step c e = some c' → c'.idle.inFlight = c.idle.inFlight - 1 → 0 < c.counted) ∧
    (c.counted < 2 ^ 64 → c.idle.inFlight.toNat = c.counted) := by
  have hinv := run_inv h
  refine ⟨?_, ?_, ⟨live_le_counted hinv, fun e c' => counted_pos hinv⟩, ?_⟩
  · intro i what t c' hbody hstep
    rw [inFlight_body hbody hstep, released_run h i]
  · intro i
    have hnew : (Connection.new now).released i = false := rfl
    rw [decrements_eq i es h, hnew]
    simp
  · intro hsmall
    rw [hinv.count, UInt64.toNat_ofNat']
    exact Nat.mod_eq_of_lt hsmall

/-- A body that is polled again after its end, then dropped, beside one that
fails. -/
def polledRun : List Event :=
  [.call 1, .call 2, .request 0 .resolveOk 3, .request 1 .resolveOk 3,
    .request 0 (.pollFrame .data) 4, .request 0 (.pollFrame .finished) 5,
    .request 0 (.pollFrame .finished) 6, .request 1 (.pollFrame .error) 6, .request 0 .dropBody 7]

theorem released_once_polled :
    decrements 0 (Connection.new 0) polledRun = 1 ∧
      decrements 1 (Connection.new 0) polledRun = 1 := by
  obtain ⟨c, hrun⟩ : ∃ c, run step (Connection.new 0) polledRun = some c := ⟨_, rfl⟩
  have honce := (released_once 0 polledRun c hrun).2.1
  exact ⟨(honce 0).trans rfl, (honce 1).trans rfl⟩

end IdleTracking
