/-
What the limiter remembers.

The eviction task of `start_eviction_task` sweeps once a minute and drops the
buckets that have not been used for 300 seconds.  It is the only thing that
keeps the map of buckets from growing with every client.

* `lastAccess_run` — the last access of a bucket is a call of the run, younger
  than every sweep allows to drop;
* `remembered_of_check` — a call that no sweep was too late for is remembered;
* `remembered_between` — the clients of the last 300 seconds are remembered,
  and only those of the last six minutes and the lateness of a sweep.
-/
import ReverseProxy.RateLimitEviction
import ReverseProxy.RateLimitPacing

open NetAddr Config

namespace RateLimit

def RateLimiter.containsIp (l : RateLimiter) (ip : IpAddr) : Bool :=
  (l.buckets (normalizeIp ip)).isSome

theorem inOrder_concat {es : List Event} {e : Event} (h : InOrder (es ++ [e])) :
    InOrder es ∧ ∀ t, e.time? = some t → ∀ t' ∈ es.filterMap Event.time?, t' ≤ t := by
  rw [InOrder, List.filterMap_append, List.pairwise_append] at h
  refine ⟨h.1, fun t ht t' ht' => h.2.2 t' ht' t ?_⟩
  rw [List.filterMap_cons_some ht]
  exact List.mem_cons_self

theorem time_mem {es : List Event} {e : Event} {t : ℚ} (he : e ∈ es) (ht : e.time? = some t) :
    t ∈ es.filterMap Event.time? :=
  List.mem_filterMap.mpr ⟨e, he, ht⟩

/-- All sweeps drop at the age of 300 seconds. -/
def SweepsAt300 (es : List Event) : Prop := ∀ now maxAge, .evict now maxAge ∈ es → maxAge = 300

theorem SweepsAt300.init {es : List Event} {e : Event} (h : SweepsAt300 (es ++ [e])) :
    SweepsAt300 es := fun now maxAge hmem => h now maxAge (List.mem_append_left _ hmem)

variable {config : RateLimitConfig} {k : IpAddr}

/-- Whatever is in the map was used after every moment at which a sweep would
have dropped it. -/
theorem lastAccess_run (es : List Event) : ∀ {b : TokenBucket}, InOrder es → SweepsAt300 es →
    (run (RateLimiter.new config) es).buckets k = some b →
      (∃ ip, .check b.lastAccess ip ∈ es ∧ normalizeIp ip = k) ∧
      ∀ now maxAge, .evict now maxAge ∈ es → now - 300 < b.lastAccess := by
  induction es using List.reverseRecOn with
  | nil =>
    intro b _ _ hb
    exact absurd hb.symm (Option.some_ne_none b)
  | append_singleton es e ih =>
    intro b hes hsweeps hb
    obtain ⟨hinit, hlast⟩ := inOrder_concat hes
    rw [run_concat] at hb
    -- a bucket that the last event leaves as it was
    have hearlier : (run (RateLimiter.new config) es).buckets k = some b →
        (∀ now maxAge, e = .evict now maxAge → now - 300 < b.lastAccess) →
        (∃ ip, .check b.lastAccess ip ∈ es ++ [e] ∧ normalizeIp ip = k) ∧
        ∀ now maxAge, .evict now maxAge ∈ es ++ [e] → now - 300 < b.lastAccess := by
      intro hb hevict
      obtain ⟨⟨ip, hmem, hk⟩, hold⟩ := ih hinit hsweeps.init hb
      refine ⟨⟨ip, List.mem_append_left _ hmem, hk⟩, fun now maxAge hmem => ?_⟩
      rcases List.mem_append.mp hmem with hmem | hmem
      · exact hold now maxAge hmem
      · exact hevict now maxAge (List.mem_singleton.mp hmem).symm
    cases e with
    | check now ip =>
      by_cases hk : k = normalizeIp ip
      · subst hk
        rw [step_buckets_check, Option.some_inj] at hb
        have hnow : b.lastAccess = now := by
          rw [← hb, bucketAfter, lastAccess_tryConsume]
        rw [hnow]
        refine ⟨⟨ip, List.mem_append_right _ List.mem_cons_self, rfl⟩, fun sweep maxAge hmem => ?_⟩
        rcases List.mem_append.mp hmem with hmem | hmem
        · have hle := hlast now rfl sweep (time_mem hmem rfl)
          linarith
        · cases List.mem_singleton.mp hmem
      · refine hearlier ?_ fun now' maxAge heq => by cases heq
        rw [← hb]
        exact (Function.update_of_ne hk ..).symm
    | evict now maxAge =>
      obtain ⟨hb, hkept⟩ := Option.filter_eq_some_iff.mp hb
      refine hearlier hb fun now' maxAge' heq => ?_
      obtain ⟨rfl, rfl⟩ := Event.evict.inj heq
      rw [← hsweeps now maxAge (List.mem_append_right _ List.mem_cons_self)]
      exact of_decide_eq_true hkept
    | reload config => exact hearlier hb fun now' maxAge heq => by cases heq

/-- A call stays in the map as long as no sweep finds it too old. -/
theorem remembered_of_check (es : List Event) : ∀ {now : ℚ} {ip : IpAddr}, InOrder es →
    SweepsAt300 es → .check now ip ∈ es → normalizeIp ip = k →
    (∀ sweep maxAge, .evict sweep maxAge ∈ es → sweep - 300 < now) →
      ∃ b, (run (RateLimiter.new config) es).buckets k = some b ∧ now ≤ b.lastAccess := by
  induction es using List.reverseRecOn with
  | nil =>
    intro now ip _ _ hmem
    exact absurd hmem List.not_mem_nil
  | append_singleton es e ih =>
    intro now ip hes hsweeps hmem hk hyoung
    obtain ⟨hinit, hlast⟩ := inOrder_concat hes
    have hyoung' : ∀ sweep maxAge, .evict sweep maxAge ∈ es → sweep - 300 < now :=
      fun sweep maxAge h => hyoung sweep maxAge (List.mem_append_left _ h)
    rw [run_concat]
    rcases List.mem_append.mp hmem with hbefore | hmem
    · obtain ⟨b, hb, hle⟩ := ih hinit hsweeps.init hbefore hk hyoung'
      cases e with
      | check now' ip' =>
        by_cases hk' : k = normalizeIp ip'
        · subst hk'
          refine ⟨_, step_buckets_check _ now' ip', ?_⟩
          rw [bucketAfter, lastAccess_tryConsume]
          exact hlast now' rfl now (time_mem hbefore rfl)
        · exact ⟨b, (Function.update_of_ne hk' ..).trans hb, hle⟩
      | evict sweep maxAge =>
        refine ⟨b, Option.filter_eq_some_iff.mpr ⟨hb, decide_eq_true ?_⟩, hle⟩
        have hsweep := hyoung sweep maxAge (List.mem_append_right _ List.mem_cons_self)
        rw [hsweeps sweep maxAge (List.mem_append_right _ List.mem_cons_self)]
        linarith
      | reload config' => exact ⟨b, hb, hle⟩
    · obtain rfl := List.mem_singleton.mp hmem
      subst hk
      refine ⟨_, step_buckets_check _ now ip, ?_⟩
      rw [bucketAfter, lastAccess_tryConsume]

/-- The eviction task at time `t`: it was started at `start`, ticks once a
minute, and has made each sweep at most `delay` after its tick. -/
structure Sweeping (start delay t : ℚ) (es : List Event) : Prop where
  age : SweepsAt300 es
  tick : ∀ i : ℕ, start + 60 * i + delay ≤ t → ∃ now, .evict now 300 ∈ es ∧ start + 60 * i ≤ now

/-- The last sweep is less than a minute and the lateness ago. -/
theorem Sweeping.last {start delay t : ℚ} {es : List Event} (h : Sweeping start delay t es)
    (hstart : start + delay ≤ t) : ∃ now, .evict now 300 ∈ es ∧ t - 60 - delay < now := by
  have hnonneg : 0 ≤ (t - start - delay) / 60 := div_nonneg (by linarith) (by norm_num)
  have hfloor := Nat.floor_le hnonneg
  have hlt := Nat.lt_floor_add_one ((t - start - delay) / 60)
  obtain ⟨now, hmem, hle⟩ := h.tick ⌊(t - start - delay) / 60⌋₊ (by linarith)
  exact ⟨now, hmem, by linarith⟩

/-- The call is later than `since`. -/
def Event.isCheckAfter (since : ℚ) : Event → Bool
  | .check now _ => since < now
  | _ => false

/-- The key that a call is counted under. -/
def Event.key? : Event → Option IpAddr
  | .check _ ip => some (normalizeIp ip)
  | _ => none

variable (config) in
/-- **What the limiter remembers.**  At time `t` of a run in time order, with
the eviction task at work, a client that called within the last 300 seconds has
its bucket, and a client that has a bucket called within the last 360 seconds
and the lateness of a sweep.  So there are at most as many buckets as calls in
that time. -/
theorem remembered_between (es : List Event) (hes : InOrder es) (start delay t : ℚ)
    (htimes : ∀ t' ∈ es.filterMap Event.time?, t' ≤ t) (hsweeping : Sweeping start delay t es)
    (hstart : start + delay ≤ t) :
    (∀ now ip, .check now ip ∈ es → t - 300 < now →
      (run (RateLimiter.new config) es).containsIp ip = true) ∧
    (∀ ip, (run (RateLimiter.new config) es).containsIp ip = true →
      ∃ now ip', .check now ip' ∈ es ∧ normalizeIp ip' = normalizeIp ip ∧
        t - 360 - delay < now) ∧
    {k | ((run (RateLimiter.new config) es).buckets k).isSome}.ncard
      ≤ es.countP (Event.isCheckAfter (t - 360 - delay)) := by
  have hrecent : ∀ k b, (run (RateLimiter.new config) es).buckets k = some b →
      ∃ now ip', .check now ip' ∈ es ∧ normalizeIp ip' = k ∧ t - 360 - delay < now := by
    intro k b hb
    obtain ⟨⟨ip', hmem, hk⟩, hsweeps⟩ := lastAccess_run es hes hsweeping.age hb
    obtain ⟨sweep, hsweep, hlate⟩ := hsweeping.last hstart
    have hkept := hsweeps sweep 300 hsweep
    exact ⟨b.lastAccess, ip', hmem, hk, by linarith⟩
  refine ⟨fun now ip hmem hnow => ?_, fun ip h => ?_, ?_⟩
  · have hyoung : ∀ sweep maxAge, .evict sweep maxAge ∈ es → sweep - 300 < now := by
      intro sweep maxAge hsweep
      have htime := htimes sweep (time_mem hsweep rfl)
      linarith
    obtain ⟨b, hb⟩ : ∃ b, (run (RateLimiter.new config) es).buckets (normalizeIp ip) = some b := by
      obtain ⟨b, hb, -⟩ := remembered_of_check es hes hsweeping.age hmem rfl hyoung
      exact ⟨b, hb⟩
    rw [RateLimiter.containsIp, hb]
    rfl
  · obtain ⟨b, hb⟩ := Option.isSome_iff_exists.mp h
    exact hrecent _ b hb
  · -- each bucket is named by one of the recent calls
    have hsub : {k | ((run (RateLimiter.new config) es).buckets k).isSome}
        ⊆ ((es.filter (Event.isCheckAfter (t - 360 - delay))).filterMap Event.key?).toFinset := by
      intro k hk
      obtain ⟨b, hb⟩ := Option.isSome_iff_exists.mp hk
      obtain ⟨now, ip', hmem, rfl, hnow⟩ := hrecent k b hb
      rw [Finset.mem_coe, List.mem_toFinset, List.mem_filterMap]
      exact ⟨.check now ip', List.mem_filter.mpr ⟨hmem, decide_eq_true hnow⟩, rfl⟩
    calc {k | ((run (RateLimiter.new config) es).buckets k).isSome}.ncard
        ≤ ((es.filter (Event.isCheckAfter (t - 360 - delay))).filterMap
            Event.key?).toFinset.card := by
          rw [← Set.ncard_coe_finset]
          exact Set.ncard_le_ncard hsub (Finset.finite_toSet _)
      _ ≤ ((es.filter (Event.isCheckAfter (t - 360 - delay))).filterMap Event.key?).length :=
          List.toFinset_card_le _
      _ ≤ (es.filter (Event.isCheckAfter (t - 360 - delay))).length := List.length_filterMap_le ..
      _ = es.countP (Event.isCheckAfter (t - 360 - delay)) := List.countP_eq_length_filter.symm

/-- Two clients that call 300 seconds apart, among the sweeps of 400 seconds. -/
def twoClients : List Event :=
  [.evict 0 300, .check 10 firstClient, .evict 60 300, .evict 120 300, .evict 180 300,
    .evict 240 300, .evict 300 300, .check 310 secondClient, .evict 360 300]

theorem sweeping_twoClients : Sweeping 0 0 400 twoClients where
  age now maxAge hmem := by
    simp only [twoClients, List.mem_cons, Event.evict.injEq, reduceCtorEq, List.not_mem_nil,
      false_or, or_false] at hmem
    rcases hmem with h | h | h | h | h | h | h <;> exact h.2
  tick i hi := by
    have hi' : i ≤ 6 := by
      have hcast : (i : ℚ) < 7 := by linarith
      have hlt : i < 7 := by exact_mod_cast hcast
      omega
    refine ⟨60 * i, ?_, by linarith⟩
    interval_cases i <;> decide +kernel

theorem remembered_between_two :
    (run (RateLimiter.new ⟨1, 1⟩) twoClients).containsIp secondClient = true ∧
    {k | ((run (RateLimiter.new ⟨1, 1⟩) twoClients).buckets k).isSome}.ncard ≤ 1 := by
  obtain ⟨hkept, -, hcount⟩ := remembered_between ⟨1, 1⟩ twoClients (by decide +kernel) 0 0 400
    (by decide +kernel) sweeping_twoClients (by norm_num)
  refine ⟨hkept 310 secondClient (by decide +kernel) (by norm_num), hcount.trans ?_⟩
  decide +kernel

end RateLimit
