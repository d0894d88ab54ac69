/-
The idle watchdog against streams that run at the same time.

The streams of an HTTP/2 connection and its watchdog are separate tasks.  They
share the counter and the time of the last activity, and change or read one of
them at a time: a call touches and then counts, a release takes the request off
the count and then touches, and the watchdog reads the two values one after the
other.  Here each of these is a step of its own, at a time of its own.

* `step`, `Allowed` — the steps, and which interleavings a discipline allows;
* `step_inv`, `run_inv` — what holds as long as the watchdog does not read in
  the middle of a release and nothing comes between its two reads;
* `idle_of_call`, `idle_of_release`, `watchdog_of_check` — without interleaving
  the steps make up the changes and the sleeps of `idleWatchdog`.
-/
import ReverseProxy.IdleWatchdog

open Run IdleTracking

namespace IdleRace

/-! ### Steps -/

/-- Where a stream is. -/
inductive Stream where
  | touched
  | counted
  | uncounted
  | finished
  deriving DecidableEq

/-- Where the watchdog is.  The read of the counter that decides on a return is
kept with its time, and with the last moment until which a request had been
counted by then. -/
inductive Watchdog where
  | top
  | sampled (remaining : ℚ)
  | asleep (wakeAt : ℚ)
  | seenZero (readAt : ℚ) (countedUntil : Option ℚ)
  | returned (readAt : ℚ) (countedUntil : Option ℚ)
  deriving DecidableEq

/-- The two shared values, the tasks, and as a record the last moment until
which a request has been counted. -/
structure System where
  now : ℚ
  idle : IdleState
  streams : List Stream
  watchdog : Watchdog
  countedUntil : Option ℚ
  deriving DecidableEq

def System.new (start : ℚ) : System where
  now := start
  idle := IdleState.new start
  streams := []
  watchdog := .top
  countedUntil := none

inductive Action where
  | callTouch
  | fetchAdd (i : ℕ)
  | frame (i : ℕ)
  | fetchSub (i : ℕ)
  | releaseTouch (i : ℕ)
  | watchdog
  deriving DecidableEq

/-- Time passes. -/
def System.advanceTo (s : System) (now : ℚ) : System :=
  { s with
    now := now
    countedUntil := if Stream.counted ∈ s.streams then some now else s.countedUntil }

/-- A stream makes one step, from one place in its code to another. -/
def System.move (s : System) (i : ℕ) (at' next : Stream) (idle : IdleState) : Option System :=
  if s.streams[i]? = some at' then some { s with idle := idle, streams := s.streams.set i next }
  else none

/-- The next step of `idle_watchdog`. -/
def watchdogStep (timeout : ℚ) (s : System) : Option Watchdog :=
  match s.watchdog with
  | .top => some (.sampled ((timeout - s.idle.idleFor s.now) ⊔ 0))
  | .sampled remaining =>
    some (if 0 < s.idle.inFlight then .asleep (s.now + timeout)
      else if remaining ≠ 0 then .asleep (s.now + remaining)
      else .returned s.now s.countedUntil)
  | .asleep wakeAt =>
    if wakeAt ≤ s.now then
      some (if s.idle.inFlight = 0 then .seenZero s.now s.countedUntil else .top)
    else none
  | .seenZero readAt countedUntil =>
    some (if timeout ≤ s.idle.idleFor s.now then .returned readAt countedUntil else .top)
  | .returned _ _ => none

def act (timeout : ℚ) (s : System) : Action → Option System
  | .callTouch => some { s with idle := s.idle.touch s.now, streams := s.streams ++ [.touched] }
  | .fetchAdd i => s.move i .touched .counted { s.idle with inFlight := s.idle.inFlight + 1 }
  | .frame i => s.move i .counted .counted (s.idle.touch s.now)
  | .fetchSub i => s.move i .counted .uncounted { s.idle with inFlight := s.idle.inFlight - 1 }
  | .releaseTouch i => s.move i .uncounted .finished (s.idle.touch s.now)
  | .watchdog => (watchdogStep timeout s).map fun w => { s with watchdog := w }

/-- A step at a time. -/
def step (timeout : ℚ) (s : System) (e : ℚ × Action) : Option System :=
  if s.now ≤ e.1 then act timeout (s.advanceTo e.1) e.2 else none

/-! ### Safety and scheduling -/

/-- If the watchdog has returned, no request was counted in the time before the
read that decided on it. -/
def Safe (timeout : ℚ) (s : System) : Prop :=
  ∀ readAt countedUntil, s.watchdog = .returned readAt (some countedUntil) →
    countedUntil + timeout ≤ readAt

def Watchdog.midCheck : Watchdog → Bool
  | .sampled _ => true
  | .seenZero _ _ => true
  | _ => false

/-- Which interleavings there are: whether the watchdog can read between the two
steps of a release, and whether anything can come between its own two reads. -/
structure Discipline where
  wholeReleases : Bool
  wholeChecks : Bool
  deriving DecidableEq

def Allowed (d : Discipline) (s : System) (e : ℚ × Action) : Prop :=
  (d.wholeReleases = true → e.2 = .watchdog → Stream.uncounted ∉ s.streams) ∧
  (d.wholeChecks = true → s.watchdog.midCheck = true → e = (s.now, .watchdog))

instance (d : Discipline) (s : System) (e : ℚ × Action) : Decidable (Allowed d s e) :=
  inferInstanceAs (Decidable (_ ∧ _))

/-! ### What holds with whole releases and checks -/

/-- **The invariant.**  Once no request is counted or about to be released, the
last activity is no earlier than the last moment at which one was counted.  In
the middle of a check nothing has changed since its first read. -/
structure Inv (timeout : ℚ) (s : System) : Prop where
  count : s.idle.inFlight = UInt64.ofNat (s.streams.countP (· = .counted))
  until_le : ∀ l, s.countedUntil = some l → l ≤ s.now
  covered : Stream.counted ∉ s.streams → Stream.uncounted ∉ s.streams →
    ∀ l, s.countedUntil = some l → l ≤ s.idle.lastActivity
  sampled : ∀ r, s.watchdog = .sampled r → r = (timeout - s.idle.idleFor s.now) ⊔ 0
  seenZero : ∀ r l, s.watchdog = .seenZero r l →
    r = s.now ∧ l = s.countedUntil ∧ Stream.counted ∉ s.streams ∧ Stream.uncounted ∉ s.streams
  safe : Safe timeout s

variable {timeout : ℚ} {s s' : System}

theorem inv_new (timeout start : ℚ) : Inv timeout (System.new start) where
  count := rfl
  until_le l h := by cases h
  covered _ _ l h := by cases h
  sampled r h := by cases h
  seenZero r l h := by cases h
  safe r l h := by cases h

/-- Fewer streams than the counter has values: it is zero when none is
counted. -/
theorem Inv.not_counted (h : Inv timeout s) (hsmall : s.streams.length < 2 ^ 31)
    (hzero : s.idle.inFlight = 0) : Stream.counted ∉ s.streams := by
  have hcount : s.streams.countP (· = .counted) < 2 ^ 64 :=
    lt_of_le_of_lt List.countP_le_length (hsmall.trans (by norm_num))
  rw [h.count, ← UInt64.toNat_inj, UInt64.toNat_ofNat', Nat.mod_eq_of_lt hcount] at hzero
  intro hmem
  have hpos : 0 < s.streams.countP (· = .counted) :=
    List.countP_pos_iff.mpr ⟨_, hmem, by simp⟩
  rw [hzero] at hpos
  exact absurd hpos (by decide)

/-- The watchdog returns when its two reads are of one moment. -/
theorem Inv.add_timeout_le (h : Inv timeout s) (hpos : 0 < timeout)
    (hcounted : Stream.counted ∉ s.streams) (huncounted : Stream.uncounted ∉ s.streams)
    (hidle : timeout ≤ s.idle.idleFor s.now) {l : ℚ} (hl : s.countedUntil = some l) :
    l + timeout ≤ s.now := by
  have hlast := h.covered hcounted huncounted l hl
  rcases le_sup_iff.mp hidle with hlong | hzero
  · linarith
  · exact absurd hpos (not_lt.mpr hzero)

/-- Nothing of the timeout is left when the watchdog looks at the counter. -/
theorem Inv.timeout_le_of_sampled (h : Inv timeout s) (hw : s.watchdog = .sampled 0) :
    timeout ≤ s.idle.idleFor s.now := by
  have hle := le_sup_left.trans_eq (h.sampled 0 hw).symm
  linarith

theorem countedUntil_advanceTo_of_not_mem (h : Stream.counted ∉ s.streams) (t : ℚ) :
    (s.advanceTo t).countedUntil = s.countedUntil := if_neg h

theorem advanceTo_inv (h : Inv timeout s) {t : ℚ} (ht : s.now ≤ t)
    (hmid : s.watchdog.midCheck = true → t = s.now) : Inv timeout (s.advanceTo t) := by
  refine ⟨h.count, ?_, ?_, ?_, ?_, h.safe⟩
  · intro l hl
    by_cases hcounted : Stream.counted ∈ s.streams
    · rw [System.advanceTo, if_pos hcounted, Option.some_inj] at hl
      exact hl.ge
    · rw [countedUntil_advanceTo_of_not_mem hcounted] at hl
      exact (h.until_le l hl).trans ht
  · intro hno huncounted l hl
    have hcounted : Stream.counted ∉ s.streams := hno
    rw [countedUntil_advanceTo_of_not_mem hcounted] at hl
    exact h.covered hcounted huncounted l hl
  · -- no time passes in the middle of a check
    intro r hr
    have hw : s.watchdog = .sampled r := hr
    obtain rfl := hmid (by rw [hw]; rfl)
    exact h.sampled r hw
  · intro r l hr
    have hw : s.watchdog = .seenZero r l := hr
    obtain rfl := hmid (by rw [hw]; rfl)
    obtain ⟨hnow, hl, hcounted, huncounted⟩ := h.seenZero r l hw
    exact ⟨hnow, hl.trans (countedUntil_advanceTo_of_not_mem hcounted _).symm, hcounted,
      huncounted⟩

/-- A step of a stream, outside a check.  It is an activity, or its request is
counted or about to be released afterwards. -/
theorem Inv.stream (h : Inv timeout s) (hmid : s.watchdog.midCheck = false) {idle : IdleState}
    {streams : List Stream}
    (hcount : idle.inFlight = UInt64.ofNat (streams.countP (· = .counted)))
    (hactive : idle.lastActivity = s.now ∨ Stream.counted ∈ streams ∨ Stream.uncounted ∈ streams) :
    Inv timeout { s with idle := idle, streams := streams } := by
  refine ⟨hcount, h.until_le, ?_, ?_, ?_, h.safe⟩
  · intro hcounted huncounted l hl
    rcases hactive with hnow | hmem | hmem
    · exact (h.until_le l hl).trans_eq hnow.symm
    · exact absurd hmem hcounted
    · exact absurd hmem huncounted
  · intro r hr
    have hw : s.watchdog = .sampled r := hr
    rw [hw] at hmid
    cases hmid
  · intro r l hr
    have hw : s.watchdog = .seenZero r l := hr
    rw [hw] at hmid
    cases hmid

theorem move_eq_some {i : ℕ} {place next : Stream} {idle : IdleState}
    (h : s.move i place next idle = some s') :
    s.streams[i]? = some place ∧ s' = { s with idle := idle, streams := s.streams.set i next } := by
  rw [System.move] at h
  split at h
  · next hi => exact ⟨hi, (Option.some_inj.mp h).symm⟩
  · cases h

theorem mem_set_of_getElem? {i : ℕ} {place : Stream} (h : s.streams[i]? = some place)
    (next : Stream) : next ∈ s.streams.set i next :=
  List.mem_set (List.getElem?_eq_some_iff.mp h).1 next

/-- A step of the watchdog: it reads while no release is under way. -/
theorem Inv.watchdog (h : Inv timeout s) (hpos : 0 < timeout)
    (hsmall : s.streams.length < 2 ^ 31) (huncounted : Stream.uncounted ∉ s.streams)
    {w : Watchdog} (hstep : watchdogStep timeout s = some w) :
    Inv timeout { s with watchdog := w } := by
  -- the other parts of the state do not change
  have hinv : (∀ r, w = .sampled r → r = (timeout - s.idle.idleFor s.now) ⊔ 0) →
      (∀ r l, w = .seenZero r l → r = s.now ∧ l = s.countedUntil ∧
        Stream.counted ∉ s.streams ∧ Stream.uncounted ∉ s.streams) →
      Safe timeout { s with watchdog := w } → Inv timeout { s with watchdog := w } :=
    fun hsampled hzero hsafe => ⟨h.count, h.until_le, h.covered, hsampled, hzero, hsafe⟩
  rw [watchdogStep] at hstep
  cases hw : s.watchdog with
  | top =>
    rw [hw] at hstep
    obtain rfl := Option.some_inj.mp hstep
    refine hinv (fun r hr => (Watchdog.sampled.inj hr).symm) (fun r l hr => ?_) fun r l hr => ?_
    · cases hr
    · cases hr
  | sampled remaining =>
    rw [hw] at hstep
    obtain rfl := Option.some_inj.mp hstep
    refine hinv (fun r hr => ?_) (fun r l hr => ?_) fun r l hr => ?_
    · split_ifs at hr
    · split_ifs at hr
    · -- a return: the sampled value is still the one of this moment
      simp only at hr
      split_ifs at hr with hflight hremaining
      obtain ⟨rfl, hl⟩ := Watchdog.returned.inj hr
      have hzero : s.idle.inFlight = 0 := UInt64.le_zero_iff.mp (UInt64.not_lt.mp hflight)
      obtain rfl : remaining = 0 := not_ne_iff.mp hremaining
      exact h.add_timeout_le hpos (h.not_counted hsmall hzero) huncounted
        (h.timeout_le_of_sampled hw) hl
  | asleep wakeAt =>
    rw [hw] at hstep
    simp only at hstep
    split at hstep
    · obtain rfl := Option.some_inj.mp hstep
      refine hinv (fun r hr => ?_) (fun r l hr => ?_) fun r l hr => ?_
      · split_ifs at hr
      · split_ifs at hr with hzero
        obtain ⟨rfl, rfl⟩ := Watchdog.seenZero.inj hr
        exact ⟨rfl, rfl, h.not_counted hsmall hzero, huncounted⟩
      · simp only at hr
        split_ifs at hr
    · cases hstep
  | seenZero readAt countedUntil =>
    rw [hw] at hstep
    obtain rfl := Option.some_inj.mp hstep
    obtain ⟨rfl, rfl, hcounted, -⟩ := h.seenZero readAt countedUntil hw
    refine hinv (fun r hr => ?_) (fun r l hr => ?_) fun r l hr => ?_
    · split_ifs at hr
    · split_ifs at hr
    · simp only at hr
      split_ifs at hr with hidle
      obtain ⟨rfl, hl⟩ := Watchdog.returned.inj hr
      exact h.add_timeout_le hpos hcounted huncounted hidle hl
  | returned readAt countedUntil =>
    rw [hw] at hstep
    cases hstep

/-- The steps of a stream, by the count that they leave. -/
theorem act_inv (h : Inv timeout s) (hpos : 0 < timeout) (hsmall : s.streams.length < 2 ^ 31)
    {a : Action} (huncounted : a = .watchdog → Stream.uncounted ∉ s.streams)
    (hmid : s.watchdog.midCheck = true → a = .watchdog) (hact : act timeout s a = some s') :
    Inv timeout s' := by
  have houtside : a ≠ .watchdog → s.watchdog.midCheck = false := fun ha =>
    Bool.eq_false_of_not_eq_true fun hcheck => ha (hmid hcheck)
  cases a with
  | callTouch =>
    rw [← Option.some_inj.mp hact]
    refine h.stream (houtside (by simp)) ?_ (Or.inl rfl)
    rw [List.countP_append]
    exact h.count
  | fetchAdd i =>
    obtain ⟨hi, rfl⟩ := move_eq_some hact
    have hset := countP_set (f := (· = Stream.counted)) hi .counted
    refine h.stream (houtside (by simp)) ?_ (Or.inr (Or.inl (mem_set_of_getElem? hi _)))
    simp only [reduceCtorEq, decide_false, Bool.false_eq_true, if_false, Nat.add_zero,
      decide_true, if_true] at hset
    rw [hset, UInt64.ofNat_add, ← h.count]
    rfl
  | frame i =>
    obtain ⟨hi, rfl⟩ := move_eq_some hact
    have hset := countP_set (f := (· = Stream.counted)) hi .counted
    refine h.stream (houtside (by simp)) ?_ (Or.inl rfl)
    rw [Nat.add_right_cancel hset]
    exact h.count
  | fetchSub i =>
    obtain ⟨hi, rfl⟩ := move_eq_some hact
    have hset := countP_set (f := (· = Stream.counted)) hi .uncounted
    refine h.stream (houtside (by simp)) ?_ (Or.inr (Or.inr (mem_set_of_getElem? hi _)))
    simp only [reduceCtorEq, decide_false, Bool.false_eq_true, if_false, Nat.add_zero,
      decide_true, if_true] at hset
    simp only
    rw [h.count, ← hset, UInt64.ofNat_add]
    exact UInt64.add_sub_cancel _ 1
  | releaseTouch i =>
    obtain ⟨hi, rfl⟩ := move_eq_some hact
    have hset := countP_set (f := (· = Stream.counted)) hi .finished
    refine h.stream (houtside (by simp)) ?_ (Or.inl rfl)
    simp only [reduceCtorEq, decide_false, Bool.false_eq_true, if_false, Nat.add_zero] at hset
    rw [hset]
    exact h.count
  | watchdog =>
    obtain ⟨w, hw, rfl⟩ := Option.map_eq_some_iff.mp hact
    exact h.watchdog hpos hsmall (huncounted rfl) hw

/-- Streams are not forgotten. -/
theorem length_streams_step {e : ℚ × Action} (hstep : step timeout s e = some s') :
    s.streams.length ≤ s'.streams.length := by
  rw [step] at hstep
  split at hstep
  · generalize ha : e.2 = a at hstep
    cases a with
    | callTouch =>
      rw [← Option.some_inj.mp hstep, List.length_append]
      exact Nat.le_add_right ..
    | watchdog =>
      obtain ⟨w, -, rfl⟩ := Option.map_eq_some_iff.mp hstep
      exact le_rfl
    | _ =>
      obtain ⟨-, rfl⟩ := move_eq_some hstep
      exact (List.length_set ..).ge
  · cases hstep

theorem step_inv (hpos : 0 < timeout) {e : ℚ × Action} (h : Inv timeout s)
    (hallowed : Allowed ⟨true, true⟩ s e) (hsmall : s.streams.length < 2 ^ 31)
    (hstep : step timeout s e = some s') : Inv timeout s' := by
  obtain ⟨hrelease, hcheck⟩ := hallowed
  rw [step] at hstep
  split at hstep
  · next ht =>
    have hadvanced := advanceTo_inv h ht fun hmid => by rw [hcheck rfl hmid]
    exact act_inv hadvanced hpos hsmall (hrelease rfl) (fun hmid => by rw [hcheck rfl hmid]) hstep
  · cases hstep

theorem run_inv (hpos : 0 < timeout) {start : ℚ} {es : List (ℚ × Action)}
    (hrun : run (step timeout) (System.new start) es = some s)
    (halong : Along (step timeout) (Allowed ⟨true, true⟩) (System.new start) es)
    (hsmall : s.streams.length < 2 ^ 31) : Inv timeout s := by
  refine run_induction_along (I := fun s => s.streams.length < 2 ^ 31 → Inv timeout s) ?_ es
    (fun _ => inv_new timeout start) halong hrun hsmall
  intro s e s' hinv hallowed hstep hsmall'
  have hsmall := lt_of_le_of_lt (length_streams_step hstep) hsmall'
  exact step_inv hpos (hinv hsmall) hallowed hsmall hstep

/-! ### Undisturbed calls, releases and checks -/

theorem step_eq_some {t : ℚ} {a : Action} (h : step timeout s (t, a) = some s') :
    act timeout (s.advanceTo t) a = some s' := by
  rw [step] at h
  split at h
  · exact h
  · cases h

theorem run_pair {t : ℚ} {a b : Action} (h : run (step timeout) s [(t, a), (t, b)] = some s') :
    ∃ m, act timeout (s.advanceTo t) a = some m ∧ act timeout (m.advanceTo t) b = some s' := by
  obtain ⟨m, hm, h⟩ := Option.bind_eq_some_iff.mp h
  obtain ⟨m', hm', h⟩ := Option.bind_eq_some_iff.mp h
  rw [← Option.some_inj.mp h]
  exact ⟨m, step_eq_some hm, step_eq_some hm'⟩

/-- The two steps of a call at one moment are a `start`. -/
theorem idle_of_call {t : ℚ} {i : ℕ}
    (h : run (step timeout) s [(t, .callTouch), (t, .fetchAdd i)] = some s') :
    s'.idle = Change.start.apply s.idle t := by
  obtain ⟨m, hm, h⟩ := run_pair h
  obtain ⟨-, rfl⟩ := move_eq_some h
  rw [← Option.some_inj.mp hm]
  rfl

/-- The two steps of a release at one moment are a `finish`. -/
theorem idle_of_release {t : ℚ} {i : ℕ}
    (h : run (step timeout) s [(t, .fetchSub i), (t, .releaseTouch i)] = some s') :
    s'.idle = Change.finish.apply s.idle t := by
  obtain ⟨m, hm, h⟩ := run_pair h
  obtain ⟨-, rfl⟩ := move_eq_some h
  obtain ⟨-, rfl⟩ := move_eq_some hm
  rfl

/-- The two reads of a round's start at one moment are those of `sleepDur`. -/
theorem watchdog_of_check {t : ℚ} (htop : s.watchdog = .top)
    (h : run (step timeout) s [(t, .watchdog), (t, .watchdog)] = some s') :
    s'.watchdog = (sleepDur s.idle timeout t).elim (.returned t (s.advanceTo t).countedUntil)
      fun d => .asleep (t + d) := by
  obtain ⟨m, hm, h⟩ := run_pair h
  obtain ⟨w, hw, rfl⟩ := Option.map_eq_some_iff.mp hm
  obtain ⟨w', hw', rfl⟩ := Option.map_eq_some_iff.mp h
  have hsampled : w = .sampled ((timeout - s.idle.idleFor t) ⊔ 0) := by
    rw [watchdogStep, show (s.advanceTo t).watchdog = .top from htop] at hw
    exact (Option.some_inj.mp hw).symm
  subst hsampled
  have hcounted : (System.advanceTo { s.advanceTo t with
      watchdog := .sampled ((timeout - s.idle.idleFor t) ⊔ 0) } t).countedUntil
        = (s.advanceTo t).countedUntil := by
    by_cases hmem : Stream.counted ∈ s.streams
    · simp only [System.advanceTo, if_pos hmem]
    · simp only [System.advanceTo, if_neg hmem]
  rw [← Option.some_inj.mp hw']
  simp only [hcounted]
  by_cases hflight : 0 < s.idle.inFlight
  · have hdur : sleepDur s.idle timeout t = some timeout := if_pos hflight
    rw [hdur]
    exact if_pos hflight
  · by_cases hremaining : (timeout - s.idle.idleFor t) ⊔ 0 ≠ 0
    · have hdur : sleepDur s.idle timeout t = some ((timeout - s.idle.idleFor t) ⊔ 0) :=
        (if_neg hflight).trans (if_pos hremaining)
      rw [hdur]
      exact (if_neg hflight).trans (if_pos hremaining)
    · have hdur : sleepDur s.idle timeout t = none :=
        (if_neg hflight).trans (if_neg hremaining)
      rw [hdur]
      exact (if_neg hflight).trans (if_neg hremaining)

end IdleRace
