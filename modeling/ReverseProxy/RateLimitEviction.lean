/-
Whether clients notice that stale buckets are evicted.

`run_server` starts a task that drops, once a minute, the buckets that have not
been used for 300 seconds.  A client whose bucket was dropped gets a full one,
whereas the bucket it had would have gained 300 seconds of tokens.

* `keyCall_of_idle` — when that is enough to fill it, the two are the same;
* `keyDecisions_calls` — then the machine of a key runs the same with and
  without the evictions;
* `evictions_unobserved_iff` — so this happens exactly when the burst is at most
  300 times the rate;
* `evictions_observed` — a client that gets more than its rate allows.
-/
import ReverseProxy.RateLimitIsolation
import ReverseProxy.Routing

open Text NetAddr Config Validation

namespace RateLimit

/-! ### A bucket that is dropped -/

theorem tryConsume_eq (b : TokenBucket) (now rate : ℚ) (max : UInt32) :
    b.tryConsume now rate max =
      if 1 ≤ (b.refill now rate max).tokens then
        (⟨(b.refill now rate max).tokens - 1, now, rate, max, now⟩, true)
      else (⟨(b.refill now rate max).tokens, now, rate, max, now⟩, false) := rfl

theorem lastAccess_tryConsume (b : TokenBucket) (now rate : ℚ) (max : UInt32) :
    (b.tryConsume now rate max).1.lastAccess = now := by
  rw [tryConsume_eq]
  split <;> rfl

theorem tokens_refill_new (now rate : ℚ) (max : UInt32) :
    ((TokenBucket.new now rate max).refill now rate max).tokens = max.toNat := by
  have hpast : (TokenBucket.new now rate max).lastRefill ≤ now := le_rfl
  rw [tokens_refill _ rate max hpast]
  simp [TokenBucket.new]

variable {c : RateLimitConfig}

/-- A call depends on the bucket through the tokens it is refilled to. -/
theorem keyCall_congr {b b' : TokenBucket} {now : ℚ}
    (h : (b.refill now c.requestsPerSecond.toNat c.burst).tokens
      = (b'.refill now c.requestsPerSecond.toNat c.burst).tokens) :
    keyCall (some b) now c = keyCall (some b') now c := by
  rw [keyCall, keyCall, Option.getD_some, Option.getD_some, tryConsume_eq, h, ← tryConsume_eq]

/-- After 300 seconds the bucket is as full as a new one. -/
theorem keyCall_of_idle (hburst : c.burst.toNat ≤ 300 * c.requestsPerSecond.toNat)
    {b : TokenBucket} {now : ℚ} (htokens : 0 ≤ b.tokens) (hidle : b.lastRefill + 300 ≤ now) :
    keyCall (some b) now c = keyCall none now c := by
  have hrefilled : (c.burst.toNat : ℚ)
      ≤ b.tokens + (now - b.lastRefill) * c.requestsPerSecond.toNat := by
    have hcast : (c.burst.toNat : ℚ) ≤ 300 * c.requestsPerSecond.toNat := by exact_mod_cast hburst
    have hrate : (0 : ℚ) ≤ c.requestsPerSecond.toNat := Nat.cast_nonneg _
    have hgain : (300 : ℚ) * c.requestsPerSecond.toNat
        ≤ (now - b.lastRefill) * c.requestsPerSecond.toNat :=
      mul_le_mul_of_nonneg_right (by linarith) hrate
    linarith
  have hnew : keyCall none now c
      = keyCall (some (TokenBucket.new now c.requestsPerSecond.toNat c.burst)) now c := rfl
  rw [hnew]
  apply keyCall_congr
  rw [tokens_refill_new, tokens_refill _ _ _ (by linarith), min_eq_right hrefilled]

/-! ### Two runs of a key -/

/-- Calls under one configuration and evictions at the age of 300 seconds. -/
def KeyEvent.Plain (c : RateLimitConfig) : KeyEvent → Prop
  | .call _ config => config = c
  | .evict _ maxAge => maxAge = 300

/-- The bucket in a run with the evictions, and in the one without them.  Where
the first has been dropped, the second has not been used for 300 seconds. -/
structure Twins (hs : List KeyEvent) (b b' : Option TokenBucket) : Prop where
  sound : ∀ bucket, b' = some bucket → 0 ≤ bucket.tokens ∧ bucket.lastAccess = bucket.lastRefill ∧
    ∀ e ∈ hs, bucket.lastRefill ≤ e.time
  kept : b = b' ∨
    b = none ∧ ∀ bucket, b' = some bucket → ∀ e ∈ hs, bucket.lastRefill + 300 ≤ e.time

variable {hs : List KeyEvent} {b b' : Option TokenBucket} {now : ℚ}

theorem Twins.tail {e : KeyEvent} (h : Twins (e :: hs) b b') : Twins hs b b' where
  sound bucket hb := ⟨(h.sound bucket hb).1, (h.sound bucket hb).2.1,
    fun e' he' => (h.sound bucket hb).2.2 e' (List.mem_cons_of_mem e he')⟩
  kept := h.kept.imp_right fun ⟨hnone, hidle⟩ =>
    ⟨hnone, fun bucket hb e' he' => hidle bucket hb e' (List.mem_cons_of_mem e he')⟩

theorem Twins.evict (h : Twins (.evict now 300 :: hs) b b') (hlater : ∀ e ∈ hs, now ≤ e.time) :
    Twins hs (b.filter fun b => now - 300 < b.lastAccess) b' := by
  refine ⟨h.tail.sound, ?_⟩
  rcases h.tail.kept with rfl | ⟨rfl, hidle⟩
  · cases b with
    | none => exact Or.inl rfl
    | some bucket =>
      by_cases hrecent : now - 300 < bucket.lastAccess
      · exact Or.inl (by simp [hrecent])
      · refine Or.inr ⟨by simpa using hrecent, ?_⟩
        rintro bucket' hb e he
        obtain rfl := Option.some_inj.mp hb
        have hsame := (h.sound bucket rfl).2.1
        have := hlater e he
        linarith
  · exact Or.inr ⟨rfl, hidle⟩

theorem Twins.keyCall_eq (hburst : c.burst.toNat ≤ 300 * c.requestsPerSecond.toNat)
    (h : Twins (.call now c :: hs) b b') : keyCall b now c = keyCall b' now c := by
  rcases h.kept with rfl | ⟨rfl, hidle⟩
  · rfl
  · cases b' with
    | none => rfl
    | some bucket =>
      exact (keyCall_of_idle hburst (h.sound bucket rfl).1
        (hidle bucket rfl _ List.mem_cons_self)).symm

theorem Twins.call (h : Twins (.call now c :: hs) b b') (hlater : ∀ e ∈ hs, now ≤ e.time) :
    Twins hs (some (keyCall b' now c).1) (some (keyCall b' now c).1) := by
  refine ⟨fun bucket hb => ?_, Or.inl rfl⟩
  obtain rfl := Option.some_inj.mp hb
  have hrate : (0 : ℚ) ≤ c.requestsPerSecond.toNat := Nat.cast_nonneg _
  refine ⟨?_, (lastAccess_tryConsume ..).trans (lastRefill_tryConsume ..).symm,
    fun e he => (lastRefill_tryConsume ..).trans_le (hlater e he)⟩
  cases b' with
  | none => exact (tokens_tryConsume _ c.burst le_rfl (Nat.cast_nonneg _) hrate).2
  | some bucket =>
    obtain ⟨htokens, -, hpast⟩ := h.sound bucket rfl
    exact (tokens_tryConsume _ c.burst (hpast _ List.mem_cons_self) htokens hrate).2

/-- With and without the evictions.  Each event keeps the two buckets twins. -/
theorem keyDecisions_calls (hburst : c.burst.toNat ≤ 300 * c.requestsPerSecond.toNat)
    (hs : List KeyEvent) : ∀ {b b' : Option TokenBucket}, Twins hs b b' →
      (hs.Pairwise fun e e' => e.time ≤ e'.time) → (∀ e ∈ hs, e.Plain c) →
      keyDecisions b hs = keyDecisions b' (hs.filter (·.isCall)) := by
  induction hs with
  | nil => exact fun _ _ _ => rfl
  | cons e hs ih =>
    intro b b' h htimes hplain
    have hlater := (List.pairwise_cons.mp htimes).1
    have hplain' : ∀ e' ∈ hs, e'.Plain c := fun e' he' => hplain e' (List.mem_cons_of_mem e he')
    have he : e.Plain c := hplain e List.mem_cons_self
    cases e with
    | call now config =>
      obtain rfl : config = c := he
      rw [List.filter_cons_of_pos rfl, keyDecisions, keyDecisions, h.keyCall_eq hburst,
        ih (h.call hlater) htimes.of_cons hplain']
    | evict now maxAge =>
      obtain rfl : maxAge = 300 := he
      rw [List.filter_cons_of_neg Bool.false_ne_true, keyDecisions]
      exact ih (h.evict hlater) htimes.of_cons hplain'

/-! ### Runs of the limiter -/

def Event.isCheck : Event → Bool
  | .check _ _ => true
  | _ => false

/-- The task ticks once a minute.  There is no reload. -/
def Scheduled (es : List Event) : Prop :=
  ∃ (start : ℚ) (n : ℕ),
    es.filter (!·.isCheck) = (List.range n).map fun i => .evict (start + 60 * i) 300

/-- Evictions at any time. -/
def Placed (es : List Event) : Prop :=
  ∀ e ∈ es, e.isCheck = true ∨ ∃ now, e = .evict now 300

theorem Scheduled.placed {es : List Event} (h : Scheduled es) : Placed es := by
  obtain ⟨start, n, h⟩ := h
  intro e he
  by_cases hcheck : e.isCheck
  · exact Or.inl hcheck
  · have hmem : e ∈ es.filter (!·.isCheck) := List.mem_filter.mpr ⟨he, by simp [hcheck]⟩
    rw [h, List.mem_map] at hmem
    obtain ⟨i, -, rfl⟩ := hmem
    exact Or.inr ⟨_, rfl⟩

/-- What a key sees of one event. -/
def keyEvent (k : IpAddr) (c : RateLimitConfig) : Event → Option KeyEvent
  | .check now ip => if normalizeIp ip = k then some (.call now c) else none
  | .evict now maxAge => some (.evict now maxAge)
  | .reload _ => none

theorem keyHistory_eq_filterMap (k : IpAddr) (c : RateLimitConfig) (es : List Event)
    (h : Placed es) : keyHistory k c es = es.filterMap (keyEvent k c) := by
  induction es with
  | nil => rfl
  | cons e es ih =>
    have hrest := ih fun e' he' => h e' (List.mem_cons_of_mem e he')
    cases e with
    | check now ip =>
      rw [keyHistory, List.filterMap_cons, hrest, keyEvent]
      split <;> rfl
    | evict now maxAge => rw [keyHistory, List.filterMap_cons, hrest, keyEvent]
    | reload config =>
      -- no reload is placed
      rcases h _ List.mem_cons_self with hcheck | ⟨now, hevict⟩
      · exact absurd hcheck Bool.false_ne_true
      · cases hevict

theorem keyHistory_checks (k : IpAddr) (c : RateLimitConfig) (es : List Event) (h : Placed es) :
    keyHistory k c (es.filter (·.isCheck)) = (keyHistory k c es).filter (·.isCall) := by
  have hchecks : Placed (es.filter (·.isCheck)) := fun e he => h e (List.mem_of_mem_filter he)
  rw [keyHistory_eq_filterMap k c _ h, keyHistory_eq_filterMap k c _ hchecks,
    List.filter_filterMap, List.filterMap_filter]
  congr 1
  funext e
  cases e with
  | check now ip =>
    have hcheck : (Event.check now ip).isCheck = true := rfl
    rw [keyEvent, if_pos hcheck]
    split <;> rfl
  | evict now maxAge => rfl
  | reload config => rfl

theorem decisions_new (k : IpAddr) (c : RateLimitConfig) (es : List Event) :
    decisions k (RateLimiter.new c) es = keyDecisions none (keyHistory k c es) :=
  decisions_eq k es (RateLimiter.new c)

theorem decisions_checks (hburst : c.burst.toNat ≤ 300 * c.requestsPerSecond.toNat) (k : IpAddr)
    {es : List Event} (hes : InOrder es) (h : Placed es) :
    decisions k (RateLimiter.new c) es
      = decisions k (RateLimiter.new c) (es.filter (·.isCheck)) := by
  have hplain : ∀ e ∈ keyHistory k c es, e.Plain c := by
    rw [keyHistory_eq_filterMap k c es h]
    intro e he
    obtain ⟨e', he', heq⟩ := List.mem_filterMap.mp he
    cases e' with
    | check now ip =>
      rw [keyEvent] at heq
      split at heq
      · exact Option.some_inj.mp heq ▸ rfl
      · exact absurd heq nofun
    | evict now maxAge =>
      obtain rfl := Option.some_inj.mp heq
      rcases h _ he' with hcheck | ⟨now', hevict⟩
      · exact absurd hcheck Bool.false_ne_true
      · exact (Event.evict.inj hevict).2
    | reload config => exact absurd heq nofun
  have htwins : Twins (keyHistory k c es) none none :=
    ⟨fun bucket hb => absurd hb (Option.some_ne_none bucket).symm, Or.inl rfl⟩
  rw [decisions_new, decisions_new, keyHistory_checks k c es h]
  exact keyDecisions_calls hburst _ htwins (pairwise_keyHistory hes k c) hplain

/-! ### A client that uses up its burst -/

/-- The bucket with this many tokens at this moment. -/
def bucketWith (c : RateLimitConfig) (now : ℚ) (tokens : ℕ) : TokenBucket :=
  ⟨tokens, now, c.requestsPerSecond.toNat, c.burst, now⟩

theorem tokens_refill_bucketWith {n : ℕ} (hn : n ≤ c.burst.toNat) (now : ℚ) :
    ((bucketWith c now n).refill now c.requestsPerSecond.toNat c.burst).tokens = n := by
  have hpast : (bucketWith c now n).lastRefill ≤ now := le_rfl
  have hcast : (n : ℚ) ≤ c.burst.toNat := by exact_mod_cast hn
  rw [tokens_refill _ _ _ hpast]
  simp [bucketWith, hcast]

theorem keyCall_bucketWith_succ {n : ℕ} (hn : n + 1 ≤ c.burst.toNat) (now : ℚ) :
    keyCall (some (bucketWith c now (n + 1))) now c = (bucketWith c now n, true) := by
  rw [keyCall, Option.getD_some, tryConsume_eq, tokens_refill_bucketWith hn, if_pos (by simp)]
  simp [bucketWith]

theorem keyCall_bucketWith_zero (now : ℚ) :
    (keyCall (some (bucketWith c now 0)) now c).2 = false := by
  rw [keyCall, Option.getD_some, tryConsume_eq, tokens_refill_bucketWith (Nat.zero_le _),
    if_neg (by simp)]

/-- As many calls as there are tokens are granted. -/
theorem keyDecisions_replicate (rest : List KeyEvent) (now : ℚ) (m : ℕ) : ∀ {n : ℕ},
    m ≤ n → n ≤ c.burst.toNat →
      keyDecisions (some (bucketWith c now n)) (List.replicate m (.call now c) ++ rest)
        = List.replicate m true ++ keyDecisions (some (bucketWith c now (n - m))) rest := by
  induction m with
  | zero => exact fun _ _ => rfl
  | succ m ih =>
    intro n hm hn
    obtain ⟨n, rfl⟩ : ∃ n', n = n' + 1 := ⟨n - 1, by omega⟩
    rw [List.replicate_succ, List.cons_append, keyDecisions, keyCall_bucketWith_succ hn,
      ih (by omega) (by omega), List.replicate_succ, List.cons_append, Nat.add_sub_add_right]

/-- A new bucket grants its burst. -/
theorem keyDecisions_none (rest : List KeyEvent) (now : ℚ) {m : ℕ} (hpos : 0 < m)
    (hm : m ≤ c.burst.toNat) :
    keyDecisions none (List.replicate m (.call now c) ++ rest)
      = List.replicate m true ++
          keyDecisions (some (bucketWith c now (c.burst.toNat - m))) rest := by
  obtain ⟨m, rfl⟩ : ∃ m', m = m' + 1 := ⟨m - 1, by omega⟩
  exact keyDecisions_replicate rest now (m + 1) hm le_rfl

/-- An empty bucket gains 300 seconds of tokens. -/
theorem keyDecisions_idle (hburst : 300 * c.requestsPerSecond.toNat ≤ c.burst.toNat)
    (rest : List KeyEvent) :
    keyDecisions (some (bucketWith c 0 0)) (.call 300 c :: rest)
      = keyDecisions (some (bucketWith c 300 (300 * c.requestsPerSecond.toNat)))
          (.call 300 c :: rest) := by
  have hpast : (bucketWith c 0 0).lastRefill ≤ 300 := by norm_num [bucketWith]
  have hcast : (300 * c.requestsPerSecond.toNat : ℚ) ≤ c.burst.toNat := by exact_mod_cast hburst
  have hcall : keyCall (some (bucketWith c 0 0)) 300 c
      = keyCall (some (bucketWith c 300 (300 * c.requestsPerSecond.toNat))) 300 c := by
    apply keyCall_congr
    rw [tokens_refill_bucketWith hburst, tokens_refill _ _ _ hpast]
    simp [bucketWith, hcast]
  rw [keyDecisions, keyDecisions, hcall]

/-- The next five minutes of the task, as events of either kind. -/
def ticks {ε : Type} (evict : ℚ → ℚ → ε) : List ε :=
  [evict 60 300, evict 120 300, evict 180 300, evict 240 300, evict 300 300]

/-- The client uses its burst at once and comes back after 300 seconds. -/
def burstRun (c : RateLimitConfig) : List Event :=
  .evict 0 300 :: (List.replicate c.burst.toNat (.check 0 firstClient) ++ (ticks .evict ++
    List.replicate (300 * c.requestsPerSecond.toNat + 1) (.check 300 firstClient)))

theorem inOrder_burstRun (c : RateLimitConfig) : InOrder (burstRun c) := by
  have hticks : (ticks fun now _ => now).Pairwise (· ≤ ·) := by decide +kernel
  have hbounds : ∀ t ∈ ticks fun now _ => now, 0 ≤ t ∧ t ≤ 300 := by decide +kernel
  have htimes : (burstRun c).filterMap Event.time? = 0 :: (List.replicate c.burst.toNat 0 ++
      ((ticks fun now _ => now) ++
        List.replicate (300 * c.requestsPerSecond.toNat + 1) 300)) := by
    simp [burstRun, ticks, Event.time?, List.filterMap_replicate]
  have hlater : ∀ t ∈ (ticks fun now _ => now) ++
      List.replicate (300 * c.requestsPerSecond.toNat + 1) 300, 0 ≤ t := by
    intro t ht
    rcases List.mem_append.mp ht with ht | ht
    · exact (hbounds t ht).1
    · rw [List.eq_of_mem_replicate ht]
      norm_num
  rw [InOrder, htimes]
  refine List.pairwise_cons.mpr ⟨?_, List.pairwise_append.mpr ⟨?_, List.pairwise_append.mpr
    ⟨hticks, ?_, ?_⟩, ?_⟩⟩
  · intro t ht
    rcases List.mem_append.mp ht with ht | ht
    · rw [List.eq_of_mem_replicate ht]
    · exact hlater t ht
  · exact List.pairwise_replicate.mpr (Or.inr le_rfl)
  · exact List.pairwise_replicate.mpr (Or.inr le_rfl)
  · intro t ht t' ht'
    rw [List.eq_of_mem_replicate ht']
    exact (hbounds t ht).2
  · intro t ht t' ht'
    rw [List.eq_of_mem_replicate ht]
    exact hlater t' ht'

theorem scheduled_burstRun (c : RateLimitConfig) : Scheduled (burstRun c) := by
  refine ⟨0, 6, ?_⟩
  have hticks : (List.range 6).map (fun i : ℕ => Event.evict (0 + 60 * i) 300)
      = [.evict 0 300, .evict 60 300, .evict 120 300, .evict 180 300, .evict 240 300,
          .evict 300 300] := by
    decide +kernel
  rw [hticks]
  simp [burstRun, ticks, Event.isCheck]

theorem keyHistory_burstRun (c : RateLimitConfig) :
    keyHistory firstClient c (burstRun c) =
      .evict 0 300 :: (List.replicate c.burst.toNat (.call 0 c) ++ (ticks .evict ++
        List.replicate (300 * c.requestsPerSecond.toNat + 1) (.call 300 c))) := by
  have hclient : normalizeIp firstClient = firstClient := rfl
  rw [keyHistory_eq_filterMap _ _ _ (scheduled_burstRun c).placed]
  simp [burstRun, ticks, keyEvent, hclient]

/-- The client that comes back finds a full bucket. -/
theorem keyDecisions_burstRun (hburst : 300 * c.requestsPerSecond.toNat < c.burst.toNat) :
    keyDecisions none (keyHistory firstClient c (burstRun c)) =
      List.replicate c.burst.toNat true ++
        List.replicate (300 * c.requestsPerSecond.toNat + 1) true := by
  have hkept : ∀ t < 300, (some (bucketWith c 0 0)).filter (fun b => t - 300 < b.lastAccess)
      = some (bucketWith c 0 0) := by
    intro t ht
    refine Option.filter_eq_some_iff.mpr ⟨rfl, decide_eq_true ?_⟩
    exact sub_neg.mpr ht
  have hticks : ∀ rest, keyDecisions (some (bucketWith c 0 0)) (ticks .evict ++ rest)
      = keyDecisions none rest := by
    intro rest
    simp only [ticks, List.cons_append, List.nil_append, keyDecisions]
    -- The fifth tick is the first one that finds the bucket old enough.
    rw [hkept 60 (by norm_num), hkept 120 (by norm_num), hkept 180 (by norm_num),
      hkept 240 (by norm_num), sub_self]
    rfl
  have hback := keyDecisions_none [] 300 (Nat.succ_pos _) (Nat.succ_le_of_lt hburst)
  rw [List.append_nil] at hback
  rw [keyHistory_burstRun, keyDecisions, Option.filter_none,
    keyDecisions_none _ 0 (by omega) le_rfl, Nat.sub_self, hticks, hback, keyDecisions,
    List.append_nil]

/-- Without the evictions it has what it gained in the meantime. -/
theorem keyDecisions_burstRun_calls (hburst : 300 * c.requestsPerSecond.toNat < c.burst.toNat) :
    keyDecisions none ((keyHistory firstClient c (burstRun c)).filter (·.isCall)) =
      List.replicate c.burst.toNat true ++
        (List.replicate (300 * c.requestsPerSecond.toNat) true ++ [false]) := by
  have hcalls : (keyHistory firstClient c (burstRun c)).filter (·.isCall)
      = List.replicate c.burst.toNat (.call 0 c) ++
          List.replicate (300 * c.requestsPerSecond.toNat + 1) (.call 300 c) := by
    rw [keyHistory_burstRun]
    simp [ticks, KeyEvent.isCall]
  rw [hcalls, keyDecisions_none _ 0 (by omega) le_rfl, Nat.sub_self, List.replicate_succ,
    keyDecisions_idle hburst.le, ← List.replicate_succ, List.replicate_succ',
    keyDecisions_replicate _ 300 _ le_rfl hburst.le, Nat.sub_self, keyDecisions,
    keyCall_bucketWith_zero, keyDecisions]

theorem decisions_burstRun_ne (hburst : 300 * c.requestsPerSecond.toNat < c.burst.toNat) :
    decisions firstClient (RateLimiter.new c) (burstRun c)
      ≠ decisions firstClient (RateLimiter.new c) ((burstRun c).filter (·.isCheck)) := by
  rw [decisions_new, decisions_new, keyHistory_checks _ c _ (scheduled_burstRun c).placed,
    keyDecisions_burstRun hburst, keyDecisions_burstRun_calls hburst, List.replicate_succ']
  intro heq
  have hlast := List.append_cancel_left (List.append_cancel_left heq)
  exact absurd hlast (by decide)

/-- **Evictions.**  With or without them every call returns the same exactly
when the burst is at most 300 times the rate, for evictions at any time as for
those of the task. -/
theorem evictions_unobserved_iff (c : RateLimitConfig) :
    ((∀ (k : IpAddr) (es : List Event), InOrder es → Placed es →
        decisions k (RateLimiter.new c) es
          = decisions k (RateLimiter.new c) (es.filter (·.isCheck))) ↔
      c.burst.toNat ≤ 300 * c.requestsPerSecond.toNat) ∧
    ((∀ (k : IpAddr) (es : List Event), InOrder es → Scheduled es →
        decisions k (RateLimiter.new c) es
          = decisions k (RateLimiter.new c) (es.filter (·.isCheck))) ↔
      c.burst.toNat ≤ 300 * c.requestsPerSecond.toNat) := by
  have hobserved : (∀ (k : IpAddr) (es : List Event), InOrder es → Scheduled es →
      decisions k (RateLimiter.new c) es
        = decisions k (RateLimiter.new c) (es.filter (·.isCheck))) →
      c.burst.toNat ≤ 300 * c.requestsPerSecond.toNat := by
    intro h
    by_contra hburst
    exact decisions_burstRun_ne (not_le.mp hburst)
      (h firstClient (burstRun c) (inOrder_burstRun c) (scheduled_burstRun c))
  refine ⟨⟨fun h => hobserved fun k es hes hscheduled => h k es hes hscheduled.placed,
    fun hburst k es hes hplaced => decisions_checks hburst k hes hplaced⟩, hobserved,
    fun hburst k es hes hscheduled => decisions_checks hburst k hes hscheduled.placed⟩

/-- One request a second with a burst of 1000. -/
def burstConfig : FullConfig :=
  { Routing.sampleConfig with rateLimit := { requestsPerSecond := 1, burst := 1000 } }

/-- It passes validation, and a client notices the evictions. -/
theorem evictions_observed : letI := asciiLowercase
    validate (fun _ => true) burstConfig.intoStaticAndDynamic.1
        burstConfig.intoStaticAndDynamic.2 false = .ok () ∧
      InOrder (burstRun burstConfig.rateLimit) ∧ Scheduled (burstRun burstConfig.rateLimit) ∧
      decisions firstClient (RateLimiter.new burstConfig.rateLimit)
          (burstRun burstConfig.rateLimit)
        ≠ decisions firstClient (RateLimiter.new burstConfig.rateLimit)
          ((burstRun burstConfig.rateLimit).filter (·.isCheck)) :=
  ⟨rfl, inOrder_burstRun _, scheduled_burstRun _, decisions_burstRun_ne (by decide)⟩

end RateLimit
