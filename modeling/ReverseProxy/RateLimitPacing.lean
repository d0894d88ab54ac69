/-
Clients that keep to the rate, and clients that poll while they are limited.

Both questions are about the tokens that a call finds: those of its bucket,
refilled up to the moment of the call.

* `tokensAt_later` — capped refills compose, so a moment in between at which
  nothing is taken makes no difference;
* `paced_iff` — a client that keeps to the rate is never limited exactly when
  the burst is not zero, which the validator does not ask for;
* `outcomes_of_thinned` — a call that is denied makes no difference to the calls
  after it.
-/
import ReverseProxy.RateLimitEviction
import ReverseProxy.Routing

open NetAddr Config Validation Text

namespace RateLimit

/-! ### The tokens a call finds -/

/-- The tokens under a key at a moment. -/
def RateLimiter.tokensAt (l : RateLimiter) (now : ℚ) (k : IpAddr) : ℚ :=
  ((l.bucketAt now k).refill now l.rate l.config.burst).tokens

/-- A call takes one token if it finds one. -/
theorem buckets_checkAndConsume (l : RateLimiter) (now : ℚ) (ip : IpAddr) :
    (l.checkAndConsume now ip).1.buckets = Function.update l.buckets (normalizeIp ip)
      (some ⟨l.tokensAt now (normalizeIp ip) - spent (l.checkAndConsume now ip).2, now, l.rate,
        l.config.burst, now⟩) := by
  rw [RateLimiter.checkAndConsume, RateLimiter.tokensAt, tryConsume_eq]
  split
  · rfl
  · rw [spent, if_neg Bool.false_ne_true, sub_zero]

theorem checkAndConsume_snd_iff (l : RateLimiter) (now : ℚ) (ip : IpAddr) :
    (l.checkAndConsume now ip).2 = true ↔ 1 ≤ l.tokensAt now (normalizeIp ip) := by
  rw [RateLimiter.checkAndConsume, RateLimiter.tokensAt, tryConsume_eq]
  split <;> simp_all

theorem tokensAt_of_none {l : RateLimiter} {k : IpAddr} (h : l.buckets k = none) (now : ℚ) :
    l.tokensAt now k = l.config.burst.toNat := by
  rw [RateLimiter.tokensAt, RateLimiter.bucketAt, h]
  exact tokens_refill_new ..

theorem tokensAt_of_some {l : RateLimiter} {k : IpAddr} {b : TokenBucket} (h : l.buckets k = some b)
    {now : ℚ} (hlast : b.lastRefill ≤ now) :
    l.tokensAt now k = min (b.tokens + (now - b.lastRefill) * l.rate) l.config.burst.toNat := by
  rw [RateLimiter.tokensAt, RateLimiter.bucketAt, h]
  exact tokens_refill b l.rate l.config.burst hlast

/-- **Capped refills compose.** -/
theorem tokensAt_later {l : RateLimiter} {k : IpAddr} {now later : ℚ}
    (hpast : ∀ b, l.buckets k = some b → b.lastRefill ≤ now) (hlater : now ≤ later) :
    min (l.tokensAt now k + (later - now) * l.rate) l.config.burst.toNat
      = l.tokensAt later k := by
  have hgain : 0 ≤ (later - now) * l.rate :=
    mul_nonneg (sub_nonneg.mpr hlater) (rate_nonneg l)
  cases hb : l.buckets k with
  | none =>
    rw [tokensAt_of_none hb, tokensAt_of_none hb]
    exact min_eq_right (by linarith)
  | some b =>
    have hlast := hpast b hb
    rw [tokensAt_of_some hb hlast, tokensAt_of_some hb (hlast.trans hlater), min_add, min_assoc,
      min_eq_right (by linarith : (l.config.burst.toNat : ℚ) ≤ _ + _)]
    congr 1
    ring

/-! ### Clients that keep to the rate -/

/-- The call comes at least a refill period after the earlier calls for its
key. -/
def Paced (c : RateLimitConfig) (es : List Event) (now : ℚ) (ip : IpAddr) : Prop :=
  ∀ t ip', .check t ip' ∈ es → normalizeIp ip' = normalizeIp ip →
    t + 1 / c.requestsPerSecond.toNat ≤ now

/-- No reload changes the configuration. -/
def Constant (c : RateLimitConfig) (es : List Event) : Prop :=
  ∀ config, .reload config ∈ es → config = c

theorem run_concat (l : RateLimiter) (es : List Event) (e : Event) :
    run l (es ++ [e]) = step (run l es) e := by
  rw [run, List.foldl_append]
  rfl

theorem config_run {c : RateLimitConfig} (es : List Event) : ∀ {l : RateLimiter}, l.config = c →
    Constant c es → (run l es).config = c := by
  induction es with
  | nil => exact fun hc _ => hc
  | cons e es ih =>
    intro l hc hconst
    refine ih ?_ fun config h => hconst config (List.mem_cons_of_mem e h)
    cases e with
    | check now ip => exact hc
    | evict now maxAge => exact hc
    | reload config => exact hconst config List.mem_cons_self

/-- A bucket was last refilled by a call for its key. -/
theorem check_mem_of_bucket (c : RateLimitConfig) (es : List Event) :
    ∀ {k : IpAddr} {b : TokenBucket}, (run (RateLimiter.new c) es).buckets k = some b →
      ∃ ip, .check b.lastRefill ip ∈ es ∧ normalizeIp ip = k := by
  induction es using List.reverseRecOn with
  | nil =>
    intro k b hb
    exact absurd hb.symm (Option.some_ne_none b)
  | append_singleton es e ih =>
    intro k b hb
    have hearlier : (run (RateLimiter.new c) es).buckets k = some b →
        ∃ ip, .check b.lastRefill ip ∈ es ++ [e] ∧ normalizeIp ip = k := by
      intro hb
      obtain ⟨ip, hmem, hk⟩ := ih hb
      exact ⟨ip, List.mem_append_left _ hmem, hk⟩
    rw [run_concat] at hb
    cases e with
    | check now ip =>
      by_cases hk : k = normalizeIp ip
      · subst hk
        rw [step_buckets_check, Option.some_inj] at hb
        rw [← hb, bucketAfter, lastRefill_tryConsume]
        exact ⟨ip, List.mem_append_right _ List.mem_cons_self, rfl⟩
      · refine hearlier ?_
        rw [← hb]
        exact (Function.update_of_ne hk ..).symm
    | evict now maxAge => exact hearlier (Option.filter_eq_some_iff.mp hb).1
    | reload config => exact hearlier hb

/-- In one refill period an empty bucket gains a token. -/
theorem one_le_tokensAt {c : RateLimitConfig} (hrate : c.requestsPerSecond ≠ 0)
    (hburst : 1 ≤ c.burst) {es : List Event} (hconst : Constant c es) {now : ℚ} {ip : IpAddr}
    (hmono : (checkTimes (es ++ [.check now ip])).Pairwise (· ≤ ·)) (hpaced : Paced c es now ip) :
    1 ≤ (run (RateLimiter.new c) es).tokensAt now (normalizeIp ip) := by
  have hsound := run_sound es (new_sound c (es ++ [.check now ip])) hmono
  have hconfig : (run (RateLimiter.new c) es).config = c := config_run es rfl hconst
  have hfull : (1 : ℚ) ≤ c.burst.toNat := by
    have hle : 1 ≤ c.burst.toNat := UInt32.le_iff_toNat_le.mp hburst
    exact_mod_cast hle
  cases hb : (run (RateLimiter.new c) es).buckets (normalizeIp ip) with
  | none =>
    rw [tokensAt_of_none hb, hconfig]
    exact hfull
  | some b =>
    obtain ⟨htokens, hlast⟩ := hsound _ b hb
    obtain ⟨ip', hmem, hkey⟩ := check_mem_of_bucket c es hb
    have hwait := hpaced _ ip' hmem hkey
    rw [tokensAt_of_some hb (hlast now List.mem_cons_self), RateLimiter.rate, hconfig]
    refine le_min ?_ hfull
    have hpos : (0 : ℚ) < c.requestsPerSecond.toNat := by
      rw [Nat.cast_pos, Nat.pos_iff_ne_zero]
      exact fun hzero => hrate (UInt32.toNat_inj.mp hzero)
    have hgain : 1 ≤ (now - b.lastRefill) * c.requestsPerSecond.toNat := by
      rw [← div_le_iff₀ hpos]
      linarith
    linarith

section pacing

variable [Lowercase]

/-- **Pacing.**  Under an accepted configuration that stays in force, every call
that comes a refill period after the one before it for its key, or that is the
first, is granted; whatever the calls before and the evictions were.  This takes
a burst of at least one. -/
theorem paced_iff (pathExists : Str → Bool) (staticConfig : StaticConfig)
    (dynamicConfig : DynamicConfig) (cli : Bool)
    (hvalid : validate pathExists staticConfig dynamicConfig cli = .ok ()) :
    (∀ (es : List Event) (now : ℚ) (ip : IpAddr), Constant dynamicConfig.rateLimit es →
      (checkTimes (es ++ [.check now ip])).Pairwise (· ≤ ·) →
      Paced dynamicConfig.rateLimit es now ip →
      ((run (RateLimiter.new dynamicConfig.rateLimit) es).checkAndConsume now ip).2 = true) ↔
    1 ≤ dynamicConfig.rateLimit.burst := by
  constructor
  · -- the very first call finds as many tokens as the burst
    intro h
    have hfirst := h [] 0 firstClient (fun config hmem => absurd hmem List.not_mem_nil)
      (List.pairwise_singleton ..) (fun t ip' hmem => absurd hmem List.not_mem_nil)
    rw [checkAndConsume_snd_iff, tokensAt_of_none rfl] at hfirst
    have hburst : 1 ≤ dynamicConfig.rateLimit.burst.toNat := by exact_mod_cast hfirst
    exact UInt32.le_iff_toNat_le.mpr hburst
  · intro hburst es now ip hconst hmono hpaced
    have hrate := requestsPerSecond_ne_zero_of_validate pathExists hvalid
    exact (checkAndConsume_snd_iff ..).mpr (one_le_tokensAt hrate hburst hconst hmono hpaced)

end pacing

/-- Ten requests a second: a burst is used up, and the next call a tenth of a
second later is granted. -/
theorem paced_sample : letI := asciiLowercase
    ((run (RateLimiter.new Routing.sampleConfig.intoStaticAndDynamic.2.rateLimit)
      (List.replicate 21 (.check 0 firstClient))).checkAndConsume (1 / 10) firstClient).2
        = true := by
  let _ := asciiLowercase
  refine (paced_iff (fun _ => true) Routing.sampleConfig.intoStaticAndDynamic.1
    Routing.sampleConfig.intoStaticAndDynamic.2 false Routing.validate_sampleConfig).mpr
    (by decide) _ _ _ ?_ ?_ ?_
  · intro config hmem
    exact absurd (List.eq_of_mem_replicate hmem) (by simp)
  · decide +kernel
  · intro t ip' hmem _
    obtain ⟨rfl, -⟩ := Event.check.inj (List.eq_of_mem_replicate hmem)
    have hrate : Routing.sampleConfig.intoStaticAndDynamic.2.rateLimit.requestsPerSecond.toNat
      = 10 := rfl
    rw [hrate]
    norm_num

def burstZero : FullConfig :=
  { Routing.sampleConfig with rateLimit := { requestsPerSecond := 10, burst := 0 } }

/-- The validator accepts a burst of zero, under which no call is granted. -/
theorem paced_denied : letI := asciiLowercase
    validate (fun _ => true) burstZero.intoStaticAndDynamic.1
      burstZero.intoStaticAndDynamic.2 false = .ok () ∧
    ((RateLimiter.new burstZero.intoStaticAndDynamic.2.rateLimit).checkAndConsume 0
      firstClient).2 = false := by
  exact ⟨rfl, by decide +kernel⟩

/-! ### Calls that are denied -/

/-- The calls of a run, each with what it returned. -/
def outcomes : RateLimiter → List (ℚ × IpAddr) → List ((ℚ × IpAddr) × Bool)
  | _, [] => []
  | l, call :: calls =>
    (call, (l.checkAndConsume call.1 call.2).2)
      :: outcomes (l.checkAndConsume call.1 call.2).1 calls

/-- Some of the denied calls have been left out. -/
inductive Thinned {α : Type} : List (α × Bool) → List (α × Bool) → Prop
  | nil : Thinned [] []
  | keep (r : α × Bool) {rs kept : List (α × Bool)} (h : Thinned rs kept) :
      Thinned (r :: rs) (r :: kept)
  | drop (a : α) {rs kept : List (α × Bool)} (h : Thinned rs kept) :
      Thinned ((a, false) :: rs) kept

/-- The calls at these times find the same tokens. -/
structure SameTokens (times : List ℚ) (l l' : RateLimiter) : Prop where
  config : l.config = l'.config
  past : ∀ k b, l.buckets k = some b → ∀ t ∈ times, b.lastRefill ≤ t
  tokens : ∀ k, ∀ t ∈ times, l.tokensAt t k = l'.tokensAt t k

theorem tokensAt_congr {l l' : RateLimiter} {k : IpAddr} (hconfig : l.config = l'.config)
    (hk : l.buckets k = l'.buckets k) (t : ℚ) : l.tokensAt t k = l'.tokensAt t k := by
  rw [RateLimiter.tokensAt, RateLimiter.tokensAt, RateLimiter.bucketAt, RateLimiter.bucketAt,
    RateLimiter.rate, RateLimiter.rate, hconfig, hk]

theorem tokensAt_checkAndConsume_of_ne (l : RateLimiter) (now t : ℚ) {ip k : IpAddr}
    (hk : k ≠ normalizeIp ip) : (l.checkAndConsume now ip).1.tokensAt t k = l.tokensAt t k := by
  have hconfig : (l.checkAndConsume now ip).1.config = l.config := rfl
  refine tokensAt_congr hconfig ?_ t
  rw [buckets_checkAndConsume, Function.update_of_ne hk]

theorem tokensAt_checkAndConsume (l : RateLimiter) {now t : ℚ} (ip : IpAddr) (ht : now ≤ t) :
    (l.checkAndConsume now ip).1.tokensAt t (normalizeIp ip)
      = min (l.tokensAt now (normalizeIp ip) - spent (l.checkAndConsume now ip).2
          + (t - now) * l.rate) l.config.burst.toNat := by
  have hb := congrFun (buckets_checkAndConsume l now ip) (normalizeIp ip)
  rw [Function.update_self] at hb
  exact tokensAt_of_some hb ht

variable {now : ℚ} {times : List ℚ} {l l' : RateLimiter}

/-- The buckets after a call were refilled no later than the calls still to
come. -/
theorem SameTokens.past_check (h : SameTokens (now :: times) l l') (hlater : ∀ t ∈ times, now ≤ t)
    (ip : IpAddr) {k : IpAddr} {b : TokenBucket}
    (hb : (l.checkAndConsume now ip).1.buckets k = some b) : ∀ t ∈ times, b.lastRefill ≤ t := by
  intro t ht
  rw [buckets_checkAndConsume] at hb
  by_cases hk : k = normalizeIp ip
  · subst hk
    rw [Function.update_self, Option.some_inj] at hb
    rw [← hb]
    exact hlater t ht
  · rw [Function.update_of_ne hk] at hb
    exact h.past k b hb t (List.mem_cons_of_mem now ht)

theorem SameTokens.result_eq (h : SameTokens (now :: times) l l') (ip : IpAddr) :
    (l.checkAndConsume now ip).2 = (l'.checkAndConsume now ip).2 := by
  rw [Bool.eq_iff_iff, checkAndConsume_snd_iff, checkAndConsume_snd_iff,
    h.tokens _ now List.mem_cons_self]

/-- A call that both runs make. -/
theorem SameTokens.keep (h : SameTokens (now :: times) l l') (hlater : ∀ t ∈ times, now ≤ t)
    (ip : IpAddr) :
    SameTokens times (l.checkAndConsume now ip).1 (l'.checkAndConsume now ip).1 := by
  refine ⟨h.config, fun k b hb => h.past_check hlater ip hb, fun k t ht => ?_⟩
  by_cases hk : k = normalizeIp ip
  · rw [hk, tokensAt_checkAndConsume l ip (hlater t ht),
      tokensAt_checkAndConsume l' ip (hlater t ht), h.result_eq, h.tokens _ now List.mem_cons_self,
      RateLimiter.rate, RateLimiter.rate, h.config]
  · rw [tokensAt_checkAndConsume_of_ne l now t hk, tokensAt_checkAndConsume_of_ne l' now t hk]
    exact h.tokens k t (List.mem_cons_of_mem now ht)

/-- A denied call that the second run does not make: it only refills. -/
theorem SameTokens.drop (h : SameTokens (now :: times) l l') (hlater : ∀ t ∈ times, now ≤ t)
    {ip : IpAddr} (hdenied : (l.checkAndConsume now ip).2 = false) :
    SameTokens times (l.checkAndConsume now ip).1 l' := by
  refine ⟨h.config, fun k b hb => h.past_check hlater ip hb, fun k t ht => ?_⟩
  rw [← h.tokens k t (List.mem_cons_of_mem now ht)]
  by_cases hk : k = normalizeIp ip
  · rw [hk, tokensAt_checkAndConsume l ip (hlater t ht), hdenied, spent,
      if_neg Bool.false_ne_true, sub_zero]
    exact tokensAt_later (fun b hb => h.past _ b hb now List.mem_cons_self) (hlater t ht)
  · exact tokensAt_checkAndConsume_of_ne l now t hk

/-- Two runs that find the same tokens.  The induction is on the calls of the
first, the second makes some of them. -/
theorem outcomes_of_sameTokens (calls : List (ℚ × IpAddr)) :
    ∀ {l l' : RateLimiter} {kept : List ((ℚ × IpAddr) × Bool)},
      SameTokens (calls.map Prod.fst) l l' → (calls.map Prod.fst).Pairwise (· ≤ ·) →
      Thinned (outcomes l calls) kept → outcomes l' (kept.map Prod.fst) = kept := by
  induction calls with
  | nil =>
    intro l l' kept _ _ hthin
    cases hthin
    rfl
  | cons call calls ih =>
    intro l l' kept h hmono hthin
    obtain ⟨hlater, hmono⟩ := List.pairwise_cons.mp hmono
    rw [outcomes] at hthin
    generalize hresult : (l.checkAndConsume call.1 call.2).2 = result at hthin
    cases hthin with
    | keep _ hthin =>
      rw [List.map_cons, outcomes, ← h.result_eq, hresult, ih (h.keep hlater call.2) hmono hthin]
    | drop _ hthin => exact ih (h.drop hlater hresult) hmono hthin

theorem checkTimes_map (calls : List (ℚ × IpAddr)) :
    checkTimes (calls.map fun call => .check call.1 call.2) = calls.map Prod.fst := by
  rw [checkTimes, List.filterMap_map]
  exact congrFun List.filterMap_eq_map calls

/-- **Denied calls are free.**  From any state that can be reached, leaving out
of a run any of the calls that were denied changes the result of no other
call. -/
theorem outcomes_of_thinned (initial : RateLimitConfig) (history : List Event)
    (calls : List (ℚ × IpAddr)) (kept : List ((ℚ × IpAddr) × Bool))
    (hmono : (checkTimes history ++ calls.map Prod.fst).Pairwise (· ≤ ·))
    (hthin : Thinned (outcomes (run (RateLimiter.new initial) history) calls) kept) :
    outcomes (run (RateLimiter.new initial) history) (kept.map Prod.fst) = kept := by
  have htimes : checkTimes (history ++ calls.map fun call => .check call.1 call.2)
      = checkTimes history ++ calls.map Prod.fst := by
    rw [← checkTimes_map]
    exact List.filterMap_append ..
  have hsound := run_sound history (new_sound initial _) (htimes ▸ hmono)
  rw [Sound, checkTimes_map] at hsound
  refine outcomes_of_sameTokens calls ⟨rfl, fun k b hb => (hsound k b hb).2, fun _ _ _ => rfl⟩ ?_
    hthin
  exact (List.pairwise_append.mp hmono).2.1

/-- A burst of one at one request a second: of three calls too early one is left
out, and the call after a full second is granted as before. -/
theorem outcomes_of_thinned_sample :
    outcomes (RateLimiter.new ⟨1, 1⟩)
        [(0, firstClient), (1 / 4, firstClient), (3 / 4, firstClient), (1, firstClient)]
      = [((0, firstClient), true), ((1 / 4, firstClient), false), ((3 / 4, firstClient), false),
          ((1, firstClient), true)] ∧
    outcomes (RateLimiter.new ⟨1, 1⟩) [(0, firstClient), (3 / 4, firstClient), (1, firstClient)]
      = [((0, firstClient), true), ((3 / 4, firstClient), false), ((1, firstClient), true)] := by
  have hfull : outcomes (RateLimiter.new ⟨1, 1⟩)
        [(0, firstClient), (1 / 4, firstClient), (3 / 4, firstClient), (1, firstClient)]
      = [((0, firstClient), true), ((1 / 4, firstClient), false), ((3 / 4, firstClient), false),
          ((1, firstClient), true)] := by
    decide +kernel
  refine ⟨hfull, outcomes_of_thinned ⟨1, 1⟩ []
    [(0, firstClient), (1 / 4, firstClient), (3 / 4, firstClient), (1, firstClient)]
    [((0, firstClient), true), ((3 / 4, firstClient), false), ((1, firstClient), true)]
    (by decide +kernel) ?_⟩
  exact hfull ▸ .keep _ (.drop _ (.keep _ (.keep _ .nil)))

end RateLimit
