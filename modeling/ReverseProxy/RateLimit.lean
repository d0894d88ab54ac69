/-
The token-bucket rate limiter.

Times and token counts are rationals where the source has `Instant` and `f64`.
One `check_and_consume` is one atomic step at one moment; evictions and
configuration reloads are steps of their own, so a run of the limiter is a
list of events.

* `tokens_tryConsume` — what one call does to the tokens;
* `step_sound`, `run_sound` — in every reachable state the buckets hold no
  negative tokens and were last refilled in the past;
* `grants_le_tokens` — the potential argument: what a bucket can still grant;
* `grants_le` — the token-bucket bound over a window.
-/
import ReverseProxy.Config
import ReverseProxy.NetAddr

open NetAddr Config

namespace RateLimit

/-! ### Buckets -/

structure TokenBucket where
  tokens : ℚ
  lastRefill : ℚ
  rate : ℚ
  max : UInt32
  lastAccess : ℚ
  deriving DecidableEq

def TokenBucket.new (now rate : ℚ) (max : UInt32) : TokenBucket where
  tokens := max.toNat
  lastRefill := now
  rate := rate
  max := max
  lastAccess := now

/-- `duration_since` saturates at zero. -/
def TokenBucket.refill (b : TokenBucket) (now rate : ℚ) (max : UInt32) : TokenBucket :=
  let elapsed := (now - b.lastRefill) ⊔ 0
  let tokens := min (b.tokens + elapsed * rate) max.toNat
  { b with
    tokens := if max < b.max then min tokens max.toNat else tokens
    lastRefill := now
    max := max
    rate := rate }

def TokenBucket.tryConsume (b : TokenBucket) (now rate : ℚ) (max : UInt32) : TokenBucket × Bool :=
  let refilled := { b.refill now rate max with lastAccess := now }
  if 1 ≤ refilled.tokens then ({ refilled with tokens := refilled.tokens - 1 }, true)
  else (refilled, false)

/-- The tokens after a refill; capping them twice makes no difference. -/
theorem tokens_refill (b : TokenBucket) {now : ℚ} (rate : ℚ) (max : UInt32)
    (h : b.lastRefill ≤ now) :
    (b.refill now rate max).tokens
      = min (b.tokens + (now - b.lastRefill) * rate) max.toNat := by
  have helapsed : (now - b.lastRefill) ⊔ 0 = now - b.lastRefill :=
    sup_eq_left.mpr (sub_nonneg.mpr h)
  simp only [TokenBucket.refill, helapsed]
  split
  · rw [min_assoc, min_self]
  · rfl

/-- One token as a number. -/
def spent (granted : Bool) : ℚ := if granted then 1 else 0

/-- **One call.**  The tokens of the refilled bucket are what is granted and
what is left, and never less than none is left. -/
theorem tokens_tryConsume (b : TokenBucket) {now rate : ℚ} (max : UInt32)
    (h : b.lastRefill ≤ now) (htokens : 0 ≤ b.tokens) (hrate : 0 ≤ rate) :
    (b.tryConsume now rate max).1.tokens + spent (b.tryConsume now rate max).2
        = min (b.tokens + (now - b.lastRefill) * rate) max.toNat ∧
      0 ≤ (b.tryConsume now rate max).1.tokens := by
  have hrefill := tokens_refill b rate max h
  have hnonneg : (0 : ℚ) ≤ min (b.tokens + (now - b.lastRefill) * rate) max.toNat := by
    have := mul_nonneg (sub_nonneg.mpr h) hrate
    exact le_min (by linarith) (Nat.cast_nonneg _)
  simp only [TokenBucket.tryConsume]
  split
  · next hone =>
    simp only at hone ⊢
    refine ⟨?_, by linarith⟩
    rw [spent, if_pos rfl, hrefill]
    ring
  · simp only
    refine ⟨?_, hrefill ▸ hnonneg⟩
    rw [spent, if_neg Bool.false_ne_true, add_zero, hrefill]

@[simp] theorem lastRefill_tryConsume (b : TokenBucket) (now rate : ℚ) (max : UInt32) :
    (b.tryConsume now rate max).1.lastRefill = now := by
  rw [TokenBucket.tryConsume]
  split <;> rfl

/-! ### The limiter -/

/-- An IPv6 client is known by its first four segments. -/
def normalizeIp : IpAddr → IpAddr
  | .v4 ip => .v4 ip
  | .v6 ip => .v6 ⟨ip.segments.take 4 ++ [0, 0, 0, 0], by simp [ip.length_segments]⟩

structure RateLimiter where
  buckets : IpAddr → Option TokenBucket
  config : RateLimitConfig

def RateLimiter.new (config : RateLimitConfig) : RateLimiter where
  buckets := fun _ => none
  config := config

def RateLimiter.rate (l : RateLimiter) : ℚ := l.config.requestsPerSecond.toNat

/-- The bucket that a call at `now` finds under a key, or makes there. -/
def RateLimiter.bucketAt (l : RateLimiter) (now : ℚ) (k : IpAddr) : TokenBucket :=
  match l.buckets k with
  | some bucket => bucket
  | none => TokenBucket.new now l.rate l.config.burst

def RateLimiter.checkAndConsume (l : RateLimiter) (now : ℚ) (ip : IpAddr) : RateLimiter × Bool :=
  let normalized := normalizeIp ip
  let result := (l.bucketAt now normalized).tryConsume now l.rate l.config.burst
  ({ l with buckets := Function.update l.buckets normalized (some result.1) }, result.2)

def RateLimiter.evictStale (l : RateLimiter) (now maxAge : ℚ) : RateLimiter :=
  { l with buckets := fun k => (l.buckets k).filter fun b => now - maxAge < b.lastAccess }

/-! ### Runs -/

inductive Event where
  | check (now : ℚ) (ip : IpAddr)
  | evict (now maxAge : ℚ)
  | reload (config : RateLimitConfig)
  deriving DecidableEq

def step (l : RateLimiter) : Event → RateLimiter
  | .check now ip => (l.checkAndConsume now ip).1
  | .evict now maxAge => l.evictStale now maxAge
  | .reload config => { l with config := config }

def run (l : RateLimiter) (es : List Event) : RateLimiter := es.foldl step l

def checkTime : Event → Option ℚ
  | .check now _ => some now
  | _ => none

/-- The times of the calls, in order. -/
def checkTimes (es : List Event) : List ℚ := es.filterMap checkTime

/-- A call for `k` at a time in the interval that is granted. -/
def Grants (k : IpAddr) (t₀ t₁ : ℚ) (l : RateLimiter) : Event → Prop
  | .check now ip => normalizeIp ip = k ∧ t₀ ≤ now ∧ now ≤ t₁ ∧ (l.checkAndConsume now ip).2
  | _ => False

instance (k : IpAddr) (t₀ t₁ : ℚ) (l : RateLimiter) : (e : Event) → Decidable (Grants k t₀ t₁ l e)
  | .check now ip => inferInstanceAs (Decidable (normalizeIp ip = k ∧ t₀ ≤ now ∧ now ≤ t₁ ∧
      (l.checkAndConsume now ip).2 = true))
  | .evict _ _ => inferInstanceAs (Decidable False)
  | .reload _ => inferInstanceAs (Decidable False)

/-- How many of the calls of a run are such. -/
def grants (k : IpAddr) (t₀ t₁ : ℚ) : RateLimiter → List Event → ℕ
  | _, [] => 0
  | l, e :: es => (if Grants k t₀ t₁ l e then 1 else 0) + grants k t₀ t₁ (step l e) es

/-- The configuration stays `c` and the bucket of `k`, once there, stays. -/
def Undisturbed (k : IpAddr) (c : RateLimitConfig) (l : RateLimiter) : Event → Prop
  | .check _ _ => True
  | .evict now maxAge => (l.buckets k).isSome → ((l.evictStale now maxAge).buckets k).isSome
  | .reload config => config = c

instance (k : IpAddr) (c : RateLimitConfig) (l : RateLimiter) :
    (e : Event) → Decidable (Undisturbed k c l e)
  | .check _ _ => inferInstanceAs (Decidable True)
  | .evict now maxAge => inferInstanceAs (Decidable ((l.buckets k).isSome →
      ((l.evictStale now maxAge).buckets k).isSome))
  | .reload config => inferInstanceAs (Decidable (config = c))

/-- A run without disturbance. -/
def Window (k : IpAddr) (c : RateLimitConfig) : RateLimiter → List Event → Prop
  | _, [] => True
  | l, e :: es => Undisturbed k c l e ∧ Window k c (step l e) es

instance Window.decidable (k : IpAddr) (c : RateLimitConfig) :
    (l : RateLimiter) → (es : List Event) → Decidable (Window k c l es)
  | _, [] => .isTrue trivial
  | l, e :: es =>
    have : Decidable (Window k c (step l e) es) := Window.decidable k c (step l e) es
    inferInstanceAs (Decidable (Undisturbed k c l e ∧ Window k c (step l e) es))

/-! ### What holds in every reachable state -/

/-- No bucket is in debt, and the calls still to come are later than its last
refill. -/
def Sound (l : RateLimiter) (es : List Event) : Prop :=
  ∀ k b, l.buckets k = some b → 0 ≤ b.tokens ∧ ∀ t ∈ checkTimes es, b.lastRefill ≤ t

theorem rate_nonneg (l : RateLimiter) : 0 ≤ l.rate := Nat.cast_nonneg _

/-- The bucket a call finds or makes is no newer than the call. -/
theorem bucketAt_sound {l : RateLimiter} {es : List Event} {now : ℚ} (h : Sound l es)
    (hnow : now ∈ checkTimes es) (k : IpAddr) :
    0 ≤ (l.bucketAt now k).tokens ∧ (l.bucketAt now k).lastRefill ≤ now := by
  rw [RateLimiter.bucketAt]
  split
  · next b hb => exact ⟨(h k b hb).1, (h k b hb).2 now hnow⟩
  · exact ⟨Nat.cast_nonneg _, le_rfl⟩

theorem step_sound {l : RateLimiter} {e : Event} {es : List Event} (h : Sound l (e :: es))
    (hmono : (checkTimes (e :: es)).Pairwise (· ≤ ·)) : Sound (step l e) es := by
  have hrest : ∀ t ∈ checkTimes es, t ∈ checkTimes (e :: es) := fun t ht =>
    (List.Sublist.filterMap _ (List.sublist_cons_self e es)).subset ht
  cases e with
  | check now ip =>
    intro k b hb
    simp only [step, RateLimiter.checkAndConsume] at hb
    by_cases hk : k = normalizeIp ip
    · -- the bucket of the call was refilled at this very moment
      subst hk
      rw [Function.update_self, Option.some_inj] at hb
      subst hb
      obtain ⟨htokens, hlast⟩ := bucketAt_sound h (List.mem_cons_self) (normalizeIp ip)
      refine ⟨(tokens_tryConsume _ _ hlast htokens (rate_nonneg l)).2, fun t ht => ?_⟩
      rw [lastRefill_tryConsume]
      exact (List.pairwise_cons.mp hmono).1 t ht
    · rw [Function.update_of_ne hk] at hb
      exact ⟨(h k b hb).1, fun t ht => (h k b hb).2 t (hrest t ht)⟩
  | evict now maxAge =>
    intro k b hb
    have hb' : l.buckets k = some b := (Option.filter_eq_some_iff.mp hb).1
    exact ⟨(h k b hb').1, fun t ht => (h k b hb').2 t (hrest t ht)⟩
  | reload config => exact fun k b hb => ⟨(h k b hb).1, fun t ht => (h k b hb).2 t (hrest t ht)⟩

theorem run_sound (history : List Event) : ∀ {l : RateLimiter} {es : List Event},
    Sound l (history ++ es) → (checkTimes (history ++ es)).Pairwise (· ≤ ·) →
      Sound (run l history) es := by
  induction history with
  | nil => exact fun h _ => h
  | cons e history ih =>
    intro l es h hmono
    refine ih (step_sound h hmono) ?_
    exact hmono.sublist (List.Sublist.filterMap _ (List.sublist_cons_self e _))

theorem new_sound (config : RateLimitConfig) (es : List Event) :
    Sound (RateLimiter.new config) es := by
  intro k b hb
  exact absurd hb (by simp [RateLimiter.new])

/-! ### Undisturbed steps -/

theorem step_config {k : IpAddr} {c : RateLimitConfig} {l : RateLimiter} {e : Event}
    (h : Undisturbed k c l e) (hc : l.config = c) : (step l e).config = c := by
  cases e with
  | check now ip => exact hc
  | evict now maxAge => exact hc
  | reload config => exact h

/-- Only a call for `k` itself touches its bucket. -/
theorem step_buckets {k : IpAddr} {c : RateLimitConfig} {l : RateLimiter} {e : Event}
    (h : Undisturbed k c l e) {b : TokenBucket} (hb : l.buckets k = some b)
    (he : ∀ now ip, e = .check now ip → normalizeIp ip ≠ k) : (step l e).buckets k = some b := by
  cases e with
  | check now ip =>
    simp only [step, RateLimiter.checkAndConsume]
    rw [Function.update_of_ne (he now ip rfl).symm, hb]
  | evict now maxAge =>
    obtain ⟨b', hb'⟩ := Option.isSome_iff_exists.mp (h (by rw [hb]; rfl))
    have hbb : l.buckets k = some b' := (Option.filter_eq_some_iff.mp hb').1
    rw [hb, Option.some_inj] at hbb
    rw [hbb]
    exact hb'
  | reload config => exact hb

theorem not_grants {k : IpAddr} {t₀ t₁ : ℚ} {l : RateLimiter} {e : Event}
    (he : ∀ now ip, e = .check now ip → normalizeIp ip = k → ¬ (t₀ ≤ now ∧ now ≤ t₁)) :
    ¬ Grants k t₀ t₁ l e := by
  cases e with
  | check now ip =>
    rintro ⟨hk, h₀, h₁, -⟩
    exact he now ip rfl hk ⟨h₀, h₁⟩
  | evict now maxAge => exact id
  | reload config => exact id

/-- Calls after the interval do not count. -/
theorem grants_eq_zero {k : IpAddr} {t₀ t₁ : ℚ} (es : List Event) : ∀ {l : RateLimiter},
    (∀ t ∈ checkTimes es, t₁ < t) → grants k t₀ t₁ l es = 0 := by
  induction es with
  | nil => exact fun _ => rfl
  | cons e es ih =>
    intro l hlate
    have hno : ¬ Grants k t₀ t₁ l e := by
      refine not_grants ?_
      rintro now ip rfl - ⟨-, h₁⟩
      exact absurd h₁ (not_le.mpr (hlate now List.mem_cons_self))
    rw [grants, if_neg hno, ih fun t ht => hlate t ?_]
    exact (List.Sublist.filterMap _ (List.sublist_cons_self e es)).subset ht

/-! ### The bound -/

section bound

variable {k : IpAddr} {c : RateLimitConfig} (t₀ t₁ : ℚ)

theorem pairwise_tail {e : Event} {es : List Event}
    (hmono : (checkTimes (e :: es)).Pairwise (· ≤ ·)) : (checkTimes es).Pairwise (· ≤ ·) :=
  hmono.sublist (List.Sublist.filterMap _ (List.sublist_cons_self e es))

/-- The bucket of `k` after a call for `k`. -/
def bucketAfter (l : RateLimiter) (now : ℚ) (k : IpAddr) : TokenBucket × Bool :=
  (l.bucketAt now k).tryConsume now l.rate l.config.burst

theorem step_buckets_check (l : RateLimiter) (now : ℚ) (ip : IpAddr) :
    (step l (.check now ip)).buckets (normalizeIp ip)
      = some (bucketAfter l now (normalizeIp ip)).1 :=
  Function.update_self ..

theorem grants_check_le (l : RateLimiter) (now : ℚ) (ip : IpAddr) (es : List Event) :
    (grants (normalizeIp ip) t₀ t₁ l (.check now ip :: es) : ℚ) ≤
      spent (bucketAfter l now (normalizeIp ip)).2
        + grants (normalizeIp ip) t₀ t₁ (step l (.check now ip)) es := by
  rw [grants]
  push_cast
  gcongr
  by_cases hg : Grants (normalizeIp ip) t₀ t₁ l (.check now ip)
  · have hgranted : (bucketAfter l now (normalizeIp ip)).2 = true := hg.2.2.2
    rw [if_pos hg, spent, if_pos hgranted]
  · rw [if_neg hg, spent]
    split <;> norm_num

theorem potential_nonneg {l : RateLimiter} {b : TokenBucket} {es : List Event}
    (hb : l.buckets k = some b) (hsound : Sound l es) (hlast : b.lastRefill ≤ t₁) :
    (0 : ℚ) ≤ b.tokens + c.requestsPerSecond.toNat * (t₁ - b.lastRefill) :=
  add_nonneg (hsound k b hb).1 (mul_nonneg (Nat.cast_nonneg _) (sub_nonneg.mpr hlast))

/-- **The potential of a bucket.**  Until `t₁` it grants no more than its
tokens and what is refilled.  Each call for `k` moves what has been refilled
since the last one into the tokens, and its grant out of them. -/
theorem grants_le_tokens (es : List Event) : ∀ {l : RateLimiter} {b : TokenBucket},
    l.buckets k = some b → Sound l es → (checkTimes es).Pairwise (· ≤ ·) → l.config = c →
    Window k c l es → b.lastRefill ≤ t₁ →
      (grants k t₀ t₁ l es : ℚ)
        ≤ b.tokens + c.requestsPerSecond.toNat * (t₁ - b.lastRefill) := by
  induction es with
  | nil =>
    intro l b hb hsound _ _ _ hlast
    rw [grants, Nat.cast_zero]
    exact potential_nonneg t₁ hb hsound hlast
  | cons e es ih =>
    rintro l b hb hsound hmono hc ⟨hundisturbed, hwindow⟩ hlast
    have hsound' := step_sound hsound hmono
    have hc' := step_config hundisturbed hc
    by_cases he : ∃ now ip, e = .check now ip ∧ normalizeIp ip = k
    · obtain ⟨now, ip, rfl, rfl⟩ := he
      by_cases hnow : now ≤ t₁
      · -- the tokens after the call pay for the rest of the window
        have hrest := ih (step_buckets_check l now ip) hsound' (pairwise_tail hmono) hc' hwindow
          (by rw [bucketAfter, lastRefill_tryConsume]; exact hnow)
        have hbucket : l.bucketAt now (normalizeIp ip) = b := by rw [RateLimiter.bucketAt, hb]
        obtain ⟨hb₀, hb₁⟩ := hsound _ b hb
        have htokens := (tokens_tryConsume b l.config.burst (hb₁ now List.mem_cons_self) hb₀
          (rate_nonneg l)).1
        rw [bucketAfter, lastRefill_tryConsume, hbucket] at hrest
        have hcount := grants_check_le t₀ t₁ l now ip es
        rw [bucketAfter, hbucket] at hcount
        have hmin := min_le_left (b.tokens + (now - b.lastRefill) * l.rate) l.config.burst.toNat
        have hrate : l.rate = c.requestsPerSecond.toNat := by rw [RateLimiter.rate, hc]
        rw [hrate] at hrest htokens hmin hcount
        calc (grants (normalizeIp ip) t₀ t₁ l (.check now ip :: es) : ℚ)
            ≤ b.tokens + (now - b.lastRefill) * c.requestsPerSecond.toNat
                + c.requestsPerSecond.toNat * (t₁ - now) := by linarith
          _ = b.tokens + c.requestsPerSecond.toNat * (t₁ - b.lastRefill) := by ring
      · -- this call and all later ones come too late to count
        have hlate : ∀ t ∈ checkTimes (.check now ip :: es), t₁ < t := by
          intro t ht
          rcases List.mem_cons.mp ht with rfl | ht
          · exact not_le.mp hnow
          · exact lt_of_lt_of_le (not_le.mp hnow) ((List.pairwise_cons.mp hmono).1 t ht)
        rw [grants_eq_zero _ hlate, Nat.cast_zero]
        exact potential_nonneg t₁ hb hsound hlast
    · -- the event does not touch the bucket
      have hother : ∀ now ip, e = .check now ip → normalizeIp ip ≠ k :=
        fun now ip heq hk => he ⟨now, ip, heq, hk⟩
      have hno : ¬ Grants k t₀ t₁ l e :=
        not_grants fun now ip heq hk _ => hother now ip heq hk
      rw [grants, if_neg hno, Nat.zero_add]
      exact ih (step_buckets hundisturbed hb hother) hsound' (pairwise_tail hmono) hc' hwindow hlast

/-- From any state: the first call that counts finds at most a full bucket. -/
theorem grants_le_burst {t₀ t₁ : ℚ} (ht : t₀ ≤ t₁) (es : List Event) : ∀ {l : RateLimiter},
    Sound l es → (checkTimes es).Pairwise (· ≤ ·) → l.config = c → Window k c l es →
      (grants k t₀ t₁ l es : ℚ)
        ≤ c.burst.toNat + c.requestsPerSecond.toNat * (t₁ - t₀) := by
  induction es with
  | nil =>
    intro l _ _ _ _
    rw [grants, Nat.cast_zero]
    exact add_nonneg (Nat.cast_nonneg _) (mul_nonneg (Nat.cast_nonneg _) (sub_nonneg.mpr ht))
  | cons e es ih =>
    rintro l hsound hmono hc ⟨hundisturbed, hwindow⟩
    have hsound' := step_sound hsound hmono
    have hc' := step_config hundisturbed hc
    by_cases he : ∃ now ip, e = .check now ip ∧ normalizeIp ip = k ∧ t₀ ≤ now ∧ now ≤ t₁
    · -- this call leaves at most the burst, and `now` is no earlier than `t₀`
      obtain ⟨now, ip, rfl, rfl, h₀, h₁⟩ := he
      obtain ⟨hb₀, hb₁⟩ := bucketAt_sound hsound List.mem_cons_self (normalizeIp ip)
      have htokens := (tokens_tryConsume _ l.config.burst hb₁ hb₀ (rate_nonneg l)).1
      have hrest := grants_le_tokens t₀ t₁ es (step_buckets_check l now ip) hsound'
        (pairwise_tail hmono) hc' hwindow (by rw [bucketAfter, lastRefill_tryConsume]; exact h₁)
      rw [bucketAfter, lastRefill_tryConsume] at hrest
      have hcount := grants_check_le t₀ t₁ l now ip es
      rw [bucketAfter] at hcount
      have hmin := min_le_right ((l.bucketAt now (normalizeIp ip)).tokens
        + (now - (l.bucketAt now (normalizeIp ip)).lastRefill) * l.rate) (l.config.burst.toNat : ℚ)
      have hlater : (c.requestsPerSecond.toNat : ℚ) * (t₁ - now)
          ≤ c.requestsPerSecond.toNat * (t₁ - t₀) := by gcongr
      rw [hc] at htokens hmin hrest hcount
      linarith
    · have hno : ¬ Grants k t₀ t₁ l e :=
        not_grants fun now ip heq hk hin => he ⟨now, ip, heq, hk, hin⟩
      rw [grants, if_neg hno, Nat.zero_add]
      exact ih hsound' (pairwise_tail hmono) hc' hwindow

end bound

/-- **The token-bucket bound.**  Whatever happened before, in a window in which
the configuration is constant and the bucket of `k` is not evicted, the calls
for `k` that are granted in `[t₀, t₁]` are at most the burst and what the rate
adds over the interval. -/
theorem grants_le (initial : RateLimitConfig) (history window : List Event) (k : IpAddr)
    (c : RateLimitConfig) (t₀ t₁ : ℚ) (ht : t₀ ≤ t₁)
    (hmono : (checkTimes (history ++ window)).Pairwise (· ≤ ·))
    (hconfig : (run (RateLimiter.new initial) history).config = c)
    (hwindow : Window k c (run (RateLimiter.new initial) history) window) :
    (grants k t₀ t₁ (run (RateLimiter.new initial) history) window : ℚ)
      ≤ c.burst.toNat + c.requestsPerSecond.toNat * (t₁ - t₀) := by
  refine grants_le_burst ht window ?_ ?_ hconfig hwindow
  · exact run_sound history (new_sound initial _) hmono
  · exact hmono.sublist (List.Sublist.filterMap _ (List.sublist_append_right history window))

/-- A burst of two at ten requests a second: three calls at one moment, with
one of another client between them. -/
theorem grants_le_two :
    (grants (.v4 ⟨192, 0, 2, 1⟩) 5 5 (run (RateLimiter.new ⟨1, 9⟩)
        [.check 0 (.v4 ⟨192, 0, 2, 1⟩), .reload ⟨10, 2⟩])
      [.check 5 (.v4 ⟨192, 0, 2, 1⟩), .check 5 (.v4 ⟨192, 0, 2, 2⟩), .evict 5 300,
        .check 5 (.v4 ⟨192, 0, 2, 1⟩), .check 5 (.v4 ⟨192, 0, 2, 1⟩)] : ℚ) ≤ 2 := by
  have hmono : List.Pairwise (· ≤ ·) [(0 : ℚ), 5, 5, 5, 5] := by simp
  have hbound := grants_le ⟨1, 9⟩ [.check 0 (.v4 ⟨192, 0, 2, 1⟩), .reload ⟨10, 2⟩]
    [.check 5 (.v4 ⟨192, 0, 2, 1⟩), .check 5 (.v4 ⟨192, 0, 2, 2⟩), .evict 5 300,
      .check 5 (.v4 ⟨192, 0, 2, 1⟩), .check 5 (.v4 ⟨192, 0, 2, 1⟩)]
    (.v4 ⟨192, 0, 2, 1⟩) ⟨10, 2⟩ 5 5 le_rfl hmono rfl
    ⟨trivial, trivial, fun _ => by decide +kernel, trivial, trivial, trivial⟩
  rw [sub_self, mul_zero, add_zero] at hbound
  exact hbound

end RateLimit
