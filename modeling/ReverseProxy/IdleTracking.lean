/-
The in-flight counter of a connection.

`IdleTrackingService` counts a request when it is called and takes it off the
count when the handler fails, or when the response body ends, fails or is
dropped; `idle_watchdog` closes the connection once the count is zero for long
enough.  A connection is a transition system: its events are the calls, what
becomes of the handler futures, and what hyper does with the response bodies.

* `step_inv`, `run_inv` — the count is the number of requests that hold one;
* `inFlight_le_live_iff` — it is at most the number of live requests exactly
  in the runs in which no pending handler future is dropped.
-/
import ReverseProxy.Run

open Run

namespace IdleTracking

/-! ### State -/

structure IdleState where
  lastActivity : ℚ
  inFlight : UInt64
  deriving DecidableEq

def IdleState.new (now : ℚ) : IdleState := ⟨now, 0⟩

def IdleState.touch (s : IdleState) (now : ℚ) : IdleState := { s with lastActivity := now }

/-- The part of `IdleTrackingBody` that is its own. -/
structure TrackedBody where
  decremented : Bool
  deriving DecidableEq

def TrackedBody.new : TrackedBody := ⟨false⟩

/-- Takes the response off the count, the first time. -/
def release (s : IdleState) (b : TrackedBody) (now : ℚ) : IdleState × TrackedBody :=
  (if b.decremented then s else { s with inFlight := s.inFlight - 1 }.touch now, ⟨true⟩)

/-- Where a request is.  `ended` records whether its body has ended or
failed. -/
inductive Phase where
  | pending
  | cancelled
  | failed
  | body (b : TrackedBody) (ended : Bool)
  | dropped
  deriving DecidableEq

structure Connection where
  idle : IdleState
  requests : List Phase
  deriving DecidableEq

def Connection.new (now : ℚ) : Connection := ⟨IdleState.new now, []⟩

/-! ### Events -/

/-- What the inner body answers to `poll_frame`. -/
inductive Poll where
  | pending
  | data
  | error
  | finished
  deriving DecidableEq

/-- What can happen to one request after its call. -/
inductive Happening where
  | resolveOk
  | resolveErr
  | dropFuture
  | pollFrame (answer : Poll)
  | dropBody
  deriving DecidableEq

inductive Event where
  | call (now : ℚ)
  | request (i : ℕ) (h : Happening) (now : ℚ)
  deriving DecidableEq

def pollFrame (s : IdleState) (b : TrackedBody) (ended : Bool) (answer : Poll) (now : ℚ) :
    IdleState × Phase :=
  match answer with
  | .pending => (s, .body b ended)
  | .data => (s.touch now, .body b ended)
  | .error => ((release s b now).1, .body (release s b now).2 true)
  | .finished => ((release s b now).1, .body (release s b now).2 true)

/-- One request; `none` when it is not in a phase for this. -/
def advance (s : IdleState) (now : ℚ) : Phase → Happening → Option (IdleState × Phase)
  | .pending, .resolveOk => some (s, .body TrackedBody.new false)
  | .pending, .resolveErr => some ({ s with inFlight := s.inFlight - 1 }.touch now, .failed)
  -- the async block is dropped at its await; no code of the service runs
  | .pending, .dropFuture => some (s, .cancelled)
  | .body b ended, .pollFrame answer => some (pollFrame s b ended answer now)
  | .body b _, .dropBody => some ((release s b now).1, .dropped)
  | _, _ => none

def step (c : Connection) : Event → Option Connection
  | .call now =>
    some ⟨{ c.idle.touch now with inFlight := c.idle.inFlight + 1 }, c.requests ++ [.pending]⟩
  | .request i h now => do
    let p ← c.requests[i]?
    let r ← advance c.idle now p h
    return ⟨r.1, c.requests.set i r.2⟩

/-- The handler is pending, or the body has not ended, failed or been
dropped. -/
def Phase.isLive : Phase → Bool
  | .pending => true
  | .body _ ended => !ended
  | _ => false

def Connection.live (c : Connection) : ℕ := c.requests.countP Phase.isLive

/-! ### Who holds a count -/

/-- The requests that were counted and not taken off the count. -/
def Phase.holds : Phase → Bool
  | .pending => true
  | .cancelled => true
  | .body b _ => !b.decremented
  | _ => false

def Phase.isCancelled : Phase → Bool
  | .cancelled => true
  | _ => false

/-- A body is off the count exactly when it has ended. -/
def Phase.WellFormed : Phase → Prop
  | .body b ended => b.decremented = ended
  | _ => True

/-- **The invariant.**  The counter is the number of requests that hold a
count, as a machine word. -/
structure Inv (c : Connection) : Prop where
  count : c.idle.inFlight = UInt64.ofNat (c.requests.countP Phase.holds)
  wellFormed : ∀ p ∈ c.requests, p.WellFormed

theorem wellFormed_set {ps : List Phase} (h : ∀ p ∈ ps, p.WellFormed) (i : ℕ) {q : Phase}
    (hq : q.WellFormed) : ∀ p ∈ ps.set i q, p.WellFormed := by
  intro p hp
  rcases List.mem_or_eq_of_mem_set hp with hp | rfl
  · exact h p hp
  · exact hq

/-- What happens to one request: it keeps its count and the counter is left
alone, or it gives its count up and the counter goes down by one. -/
theorem advance_holds {s s' : IdleState} {now : ℚ} {p q : Phase} {h : Happening}
    (hp : p.WellFormed) (hadv : advance s now p h = some (s', q)) :
    q.WellFormed ∧
    (q.holds = p.holds ∧ s'.inFlight = s.inFlight ∨
      p.holds = true ∧ q.holds = false ∧ s'.inFlight = s.inFlight - 1) := by
  -- a body that is released holds no count afterwards, whether or not it held one
  have hrelease : ∀ b : TrackedBody,
      false = (!b.decremented) ∧ (release s b now).1.inFlight = s.inFlight ∨
      (!b.decremented) = true ∧ false = false ∧
        (release s b now).1.inFlight = s.inFlight - 1 := by
    rintro ⟨_ | _⟩
    · exact Or.inr ⟨rfl, rfl, rfl⟩
    · exact Or.inl ⟨rfl, rfl⟩
  cases p with
  | pending =>
    cases h with
    | resolveOk =>
      obtain ⟨rfl, rfl⟩ := Prod.mk.inj (Option.some_inj.mp hadv)
      exact ⟨rfl, Or.inl ⟨rfl, rfl⟩⟩
    | resolveErr =>
      obtain ⟨rfl, rfl⟩ := Prod.mk.inj (Option.some_inj.mp hadv)
      exact ⟨trivial, Or.inr ⟨rfl, rfl, rfl⟩⟩
    | dropFuture =>
      -- the future goes away with its count
      obtain ⟨rfl, rfl⟩ := Prod.mk.inj (Option.some_inj.mp hadv)
      exact ⟨trivial, Or.inl ⟨rfl, rfl⟩⟩
    | pollFrame answer => cases hadv
    | dropBody => cases hadv
  | body b ended =>
    cases h with
    | pollFrame answer =>
      cases answer with
      | pending =>
        obtain ⟨rfl, rfl⟩ := Prod.mk.inj (Option.some_inj.mp hadv)
        exact ⟨hp, Or.inl ⟨rfl, rfl⟩⟩
      | data =>
        obtain ⟨rfl, rfl⟩ := Prod.mk.inj (Option.some_inj.mp hadv)
        exact ⟨hp, Or.inl ⟨rfl, rfl⟩⟩
      | error =>
        obtain ⟨rfl, rfl⟩ := Prod.mk.inj (Option.some_inj.mp hadv)
        exact ⟨rfl, hrelease b⟩
      | finished =>
        obtain ⟨rfl, rfl⟩ := Prod.mk.inj (Option.some_inj.mp hadv)
        exact ⟨rfl, hrelease b⟩
    | dropBody =>
      obtain ⟨rfl, rfl⟩ := Prod.mk.inj (Option.some_inj.mp hadv)
      exact ⟨trivial, hrelease b⟩
    | _ => cases hadv
  | _ => cases hadv

/-- Only a request whose handler is pending is cancelled, by dropping its
future. -/
theorem advance_isCancelled {s s' : IdleState} {now : ℚ} {p q : Phase} {h : Happening}
    (hadv : advance s now p h = some (s', q)) :
    p.isCancelled = false ∧ q.isCancelled = (h = .dropFuture : Bool) := by
  cases p with
  | pending =>
    cases h with
    | pollFrame answer => cases hadv
    | dropBody => cases hadv
    | _ =>
      obtain ⟨-, rfl⟩ := Prod.mk.inj (Option.some_inj.mp hadv)
      exact ⟨rfl, rfl⟩
  | body b ended =>
    cases h with
    | pollFrame answer =>
      cases answer <;>
      · obtain ⟨-, rfl⟩ := Prod.mk.inj (Option.some_inj.mp hadv)
        exact ⟨rfl, rfl⟩
    | dropBody =>
      obtain ⟨-, rfl⟩ := Prod.mk.inj (Option.some_inj.mp hadv)
      exact ⟨rfl, rfl⟩
    | _ => cases hadv
  | _ => cases hadv

theorem step_request {c c' : Connection} {i : ℕ} {h : Happening} {now : ℚ}
    (hstep : step c (.request i h now) = some c') :
    ∃ p r, c.requests[i]? = some p ∧ advance c.idle now p h = some r ∧
      c' = ⟨r.1, c.requests.set i r.2⟩ := by
  obtain ⟨p, hp, hstep⟩ := Option.bind_eq_some_iff.mp hstep
  obtain ⟨r, hr, hstep⟩ := Option.bind_eq_some_iff.mp hstep
  exact ⟨p, r, hp, hr, (Option.some_inj.mp hstep).symm⟩

theorem step_inv {c c' : Connection} {e : Event} (h : Inv c) (hstep : step c e = some c') :
    Inv c' := by
  cases e with
  | call now =>
    rw [← Option.some_inj.mp hstep]
    refine ⟨?_, ?_⟩
    · show c.idle.inFlight + 1 = _
      rw [h.count, List.countP_append, UInt64.ofNat_add]
      rfl
    · intro p hp
      rcases List.mem_append.mp hp with hp | hp
      · exact h.wellFormed p hp
      · rw [List.mem_singleton.mp hp]
        trivial
  | request i what now =>
    obtain ⟨p, ⟨s', q⟩, hp, hadv, rfl⟩ := step_request hstep
    obtain ⟨hq, hholds⟩ := advance_holds (h.wellFormed p (List.mem_of_getElem? hp)) hadv
    have hcount := countP_set (f := Phase.holds) hp q
    refine ⟨?_, wellFormed_set h.wellFormed i hq⟩
    rcases hholds with ⟨hsame, hidle⟩ | ⟨hold, hnew, hidle⟩
    · rw [hsame] at hcount
      rw [hidle, h.count, Nat.add_right_cancel hcount]
    · -- one holder less, and one less on the counter, modulo its width
      simp only [hold, hnew, if_true, Bool.false_eq_true, if_false, Nat.add_zero] at hcount
      rw [hidle, h.count, ← hcount, UInt64.ofNat_add]
      exact UInt64.add_sub_cancel _ 1

theorem run_inv {now : ℚ} {es : List Event} {c : Connection}
    (h : run step (Connection.new now) es = some c) : Inv c :=
  run_induction step_inv ⟨rfl, by simp [Connection.new]⟩ h

/-! ### The count and the live requests -/

/-- The holders are the live requests and the cancelled ones. -/
theorem countP_holds (ps : List Phase) (h : ∀ p ∈ ps, p.WellFormed) :
    ps.countP Phase.holds = ps.countP Phase.isLive + ps.countP Phase.isCancelled := by
  induction ps with
  | nil => rfl
  | cons p ps ih =>
    obtain ⟨hp, hps⟩ := List.forall_mem_cons.mp h
    have hone : (if p.holds then 1 else 0)
        = (if p.isLive then 1 else 0) + if p.isCancelled then 1 else 0 := by
      cases p with
      | body b ended =>
        have hended : b.decremented = ended := hp
        simp [Phase.holds, Phase.isLive, Phase.isCancelled, hended]
      | _ => rfl
    rw [List.countP_cons, List.countP_cons, List.countP_cons, ih hps]
    omega

/-- A handler future is dropped before it resolves. -/
def Event.isDropFuture : Event → Bool
  | .request _ .dropFuture _ => true
  | _ => false

theorem countP_isCancelled_step {c : Connection} {e : Event} {c' : Connection}
    (hstep : step c e = some c') :
    c'.requests.countP Phase.isCancelled
      = c.requests.countP Phase.isCancelled + if e.isDropFuture then 1 else 0 := by
  cases e with
  | call now =>
    rw [← Option.some_inj.mp hstep, List.countP_append]
    rfl
  | request i what now =>
    obtain ⟨p, ⟨s', q⟩, hp, hadv, rfl⟩ := step_request hstep
    obtain ⟨hold, hnew⟩ := advance_isCancelled hadv
    have hdrop : (Event.request i what now).isDropFuture = (what = .dropFuture : Bool) := by
      cases what <;> rfl
    have hcount := countP_set (f := Phase.isCancelled) hp q
    rw [hold, hnew, ← hdrop] at hcount
    exact hcount

theorem countP_isCancelled_run {now : ℚ} {es : List Event} {c : Connection}
    (h : run step (Connection.new now) es = some c) :
    c.requests.countP Phase.isCancelled = es.countP Event.isDropFuture := by
  have hcount := run_count (f := fun c => c.requests.countP Phase.isCancelled)
    countP_isCancelled_step es h
  exact hcount.trans (Nat.zero_add _)

/-- The counter after a run: the live requests, and one more for each handler
future that was dropped. -/
theorem inFlight_run {now : ℚ} {es : List Event} {c : Connection}
    (h : run step (Connection.new now) es = some c) :
    c.idle.inFlight = UInt64.ofNat (c.live + es.countP Event.isDropFuture) := by
  have hinv := run_inv h
  rw [hinv.count, countP_holds _ hinv.wellFormed, countP_isCancelled_run h]
  rfl

/-- **In-flight counts.**  As long as no pending handler future is dropped the
counter is at most the number of live requests, and zero when there is none;
and short of 2⁶⁴ requests these are the only runs in which it is. -/
theorem inFlight_le_live_iff (now : ℚ) (es : List Event) (c : Connection)
    (h : run step (Connection.new now) es = some c) :
    ((∀ e ∈ es, e.isDropFuture = false) →
      c.idle.inFlight.toNat ≤ c.live ∧ (c.live = 0 → c.idle.inFlight = 0)) ∧
    (c.requests.length < 2 ^ 64 →
      (c.idle.inFlight.toNat ≤ c.live ↔ ∀ e ∈ es, e.isDropFuture = false)) := by
  have hcount := inFlight_run h
  have hnone : es.countP Event.isDropFuture = 0 ↔ ∀ e ∈ es, e.isDropFuture = false := by
    rw [List.countP_eq_zero]
    simp only [Bool.not_eq_true]
  constructor
  · intro hdrop
    rw [hnone.mpr hdrop, Nat.add_zero] at hcount
    refine ⟨?_, fun hlive => by rw [hcount, hlive]; rfl⟩
    rw [hcount, UInt64.toNat_ofNat']
    exact Nat.mod_le _ _
  · intro hlength
    have hinv := run_inv h
    -- with fewer requests than the counter has values, it shows their number
    have hsmall : c.live + es.countP Event.isDropFuture < 2 ^ 64 := by
      have hholds := countP_holds _ hinv.wellFormed
      have hle : c.requests.countP Phase.holds ≤ c.requests.length := List.countP_le_length
      rw [countP_isCancelled_run h] at hholds
      exact lt_of_le_of_lt (hholds ▸ hle) hlength
    rw [hcount, UInt64.toNat_ofNat', Nat.mod_eq_of_lt hsmall, ← hnone]
    omega

/-- Two requests, one answered and read to its end, one failed. -/
def servedRun : List Event :=
  [.call 1, .call 2, .request 0 .resolveOk 3, .request 0 (.pollFrame .data) 4,
    .request 1 .resolveErr 5, .request 0 (.pollFrame .finished) 6, .request 0 .dropBody 7]

theorem inFlight_le_live_iff_served :
    ∃ c, run step (Connection.new 0) servedRun = some c ∧ c.live = 0 ∧ c.idle.inFlight = 0 := by
  obtain ⟨c, hrun, hlive⟩ : ∃ c, run step (Connection.new 0) servedRun = some c ∧ c.live = 0 :=
    ⟨_, rfl, rfl⟩
  exact ⟨c, hrun, hlive, ((inFlight_le_live_iff 0 servedRun c hrun).1 (by decide)).2 hlive⟩

/-- One request, reset before its handler has answered. -/
theorem inFlight_leaks :
    ∃ c, run step (Connection.new 0) [.call 1, .request 0 .dropFuture 2] = some c ∧
      c.live = 0 ∧ c.idle.inFlight = 1 ∧ ¬ c.idle.inFlight.toNat ≤ c.live :=
  ⟨_, rfl, rfl, rfl, by decide⟩

end IdleTracking
