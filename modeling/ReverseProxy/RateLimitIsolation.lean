/-
Clients of the rate limiter do not affect each other.

What happens to one bucket is a machine of its own, which sees the calls for its
key with the configuration they read, and the evictions.  The limiter is the
product of these machines.

* `normalizeIp_eq_iff` — which clients share a bucket;
* `decisions_eq` — the decisions for a key are those of its machine on what the
  key sees of the run;
* `keyHistory_eq` — two runs in time order show a key the same when its calls
  and the evictions are the same;
* `decisions_isolated` — isolation;
* `decisions_tied` — where a call and an eviction fall on one moment, their order
  decides.
-/
import ReverseProxy.RateLimit
import ReverseProxy.Run

open NetAddr Config

namespace RateLimit

/-! ### The machine of one key -/

/-- What a key sees: the calls for it, with the configuration in force, and the
evictions. -/
inductive KeyEvent where
  | call (now : ℚ) (config : RateLimitConfig)
  | evict (now maxAge : ℚ)
  deriving DecidableEq

def KeyEvent.time : KeyEvent → ℚ
  | .call now _ => now
  | .evict now _ => now

def KeyEvent.isCall : KeyEvent → Bool
  | .call _ _ => true
  | .evict _ _ => false

def keyHistory (k : IpAddr) : RateLimitConfig → List Event → List KeyEvent
  | _, [] => []
  | c, .check now ip :: es =>
    if normalizeIp ip = k then .call now c :: keyHistory k c es else keyHistory k c es
  | c, .evict now maxAge :: es => .evict now maxAge :: keyHistory k c es
  | _, .reload c :: es => keyHistory k c es

/-- A call on the bucket, if there is one, or on a new one. -/
def keyCall (b : Option TokenBucket) (now : ℚ) (c : RateLimitConfig) : TokenBucket × Bool :=
  (b.getD (TokenBucket.new now c.requestsPerSecond.toNat c.burst)).tryConsume now
    c.requestsPerSecond.toNat c.burst

def keyDecisions : Option TokenBucket → List KeyEvent → List Bool
  | _, [] => []
  | b, .call now c :: hs => (keyCall b now c).2 :: keyDecisions (some (keyCall b now c).1) hs
  | b, .evict now maxAge :: hs => keyDecisions (b.filter fun b => now - maxAge < b.lastAccess) hs

/-- What the calls for a key return in a run. -/
def decisions (k : IpAddr) : RateLimiter → List Event → List Bool
  | _, [] => []
  | l, .check now ip :: es =>
    if normalizeIp ip = k then
      (l.checkAndConsume now ip).2 :: decisions k (step l (.check now ip)) es
    else decisions k (step l (.check now ip)) es
  | l, e :: es => decisions k (step l e) es

theorem bucketAt_eq (l : RateLimiter) (now : ℚ) (k : IpAddr) :
    l.bucketAt now k = (l.buckets k).getD
      (TokenBucket.new now l.config.requestsPerSecond.toNat l.config.burst) := by
  rw [RateLimiter.bucketAt]
  split
  · next hb => rw [hb, Option.getD_some]
  · next hb => rw [hb, Option.getD_none, RateLimiter.rate]

theorem checkAndConsume_snd (l : RateLimiter) (now : ℚ) (ip : IpAddr) :
    (l.checkAndConsume now ip).2 = (keyCall (l.buckets (normalizeIp ip)) now l.config).2 := by
  rw [RateLimiter.checkAndConsume, bucketAt_eq, RateLimiter.rate, keyCall]

theorem buckets_step_check (l : RateLimiter) (now : ℚ) (ip : IpAddr) :
    (step l (.check now ip)).buckets = Function.update l.buckets (normalizeIp ip)
      (some (keyCall (l.buckets (normalizeIp ip)) now l.config).1) := by
  rw [step, RateLimiter.checkAndConsume, bucketAt_eq, RateLimiter.rate, keyCall]

/-- **The limiter is the product of its keys' machines.** -/
theorem decisions_eq (k : IpAddr) (es : List Event) : ∀ l : RateLimiter,
    decisions k l es = keyDecisions (l.buckets k) (keyHistory k l.config es) := by
  induction es with
  | nil => exact fun _ => rfl
  | cons e es ih =>
    intro l
    cases e with
    | check now ip =>
      have hconfig : (step l (.check now ip)).config = l.config := rfl
      rw [decisions, keyHistory, ih, buckets_step_check, hconfig]
      by_cases hk : normalizeIp ip = k
      · rw [if_pos hk, if_pos hk, keyDecisions, checkAndConsume_snd, hk, Function.update_self]
      · rw [if_neg hk, if_neg hk, Function.update_of_ne (Ne.symm hk)]
    | evict now maxAge => exact ih _
    | reload config => exact ih _

/-! ### What a key sees of a run -/

def Event.time? : Event → Option ℚ
  | .check now _ => some now
  | .evict now _ => some now
  | .reload _ => none

/-- The calls and evictions are in time order. -/
def InOrder (es : List Event) : Prop := (es.filterMap Event.time?).Pairwise (· ≤ ·)

instance (es : List Event) : Decidable (InOrder es) :=
  inferInstanceAs (Decidable (List.Pairwise _ _))

theorem times_keyHistory (k : IpAddr) (es : List Event) : ∀ c : RateLimitConfig,
    ((keyHistory k c es).map KeyEvent.time).Sublist (es.filterMap Event.time?) := by
  induction es with
  | nil => exact fun _ => List.Sublist.refl _
  | cons e es ih =>
    intro c
    cases e with
    | check now ip =>
      rw [keyHistory]
      by_cases hk : normalizeIp ip = k
      · rw [if_pos hk]
        exact (ih c).cons_cons now
      · rw [if_neg hk]
        exact (ih c).cons now
    | evict now maxAge => exact (ih c).cons_cons now
    | reload config => exact ih config

theorem pairwise_keyHistory {es : List Event} (h : InOrder es) (k : IpAddr) (c : RateLimitConfig) :
    (keyHistory k c es).Pairwise fun a b => a.time ≤ b.time :=
  List.pairwise_map.mp (h.sublist (times_keyHistory k es c))

/-- A key has the same calls in both, under the same configurations, and the
evictions are at the same times.  Times leave open what comes first where a call
and an eviction fall on one moment: there the order is the same too. -/
structure SameForKey (hs hs' : List KeyEvent) : Prop where
  calls : hs.filter (·.isCall) = hs'.filter (·.isCall)
  evictions : hs.filter (!·.isCall) = hs'.filter (!·.isCall)
  ties : ∀ e ∈ hs, ∀ e' ∈ hs, e.isCall = true → e'.isCall = false → e.time = e'.time →
    hs.filter (·.time = e.time) = hs'.filter (·.time = e.time)

/-- A moment at which only events of one kind happen is made of these. -/
theorem filter_time_eq {p : KeyEvent → Bool} {hs hs' : List KeyEvent} {t : ℚ}
    (hp : hs.filter p = hs'.filter p) (h : ∀ e ∈ hs, e.time = t → p e = true)
    (h' : ∀ e ∈ hs', e.time = t → p e = true) :
    hs.filter (·.time = t) = hs'.filter (·.time = t) := by
  have honly : ∀ l : List KeyEvent, (∀ e ∈ l, e.time = t → p e = true) →
      l.filter (·.time = t) = (l.filter p).filter (·.time = t) := by
    intro l hl
    rw [List.filter_filter]
    refine List.filter_congr fun e he => ?_
    by_cases ht : e.time = t
    · simp [ht, hl e he ht]
    · simp [ht]
  rw [honly hs h, honly hs' h', hp]

theorem SameForKey.filter_eq {hs hs' : List KeyEvent} (h : SameForKey hs hs') (t : ℚ) :
    hs.filter (·.time = t) = hs'.filter (·.time = t) := by
  -- The kinds of events at one moment are the same in both.
  have hcalls : ∀ e, e.isCall = true → (e ∈ hs ↔ e ∈ hs') := fun e he => by
    have hmem := congrArg (e ∈ ·) h.calls
    simpa [he] using hmem
  have hevictions : ∀ e, e.isCall = false → (e ∈ hs ↔ e ∈ hs') := fun e he => by
    have hmem := congrArg (e ∈ ·) h.evictions
    simpa [he] using hmem
  by_cases hcall : ∃ e ∈ hs, e.isCall = true ∧ e.time = t
  · by_cases hevict : ∃ e ∈ hs, e.isCall = false ∧ e.time = t
    · obtain ⟨e, he, hcall, rfl⟩ := hcall
      obtain ⟨e', he', hevict, ht⟩ := hevict
      exact h.ties e he e' he' hcall hevict ht.symm
    · have hall : ∀ e ∈ hs, e.time = t → e.isCall = true := fun e he ht => by
        by_contra hno
        exact hevict ⟨e, he, by simpa using hno, ht⟩
      refine filter_time_eq h.calls hall fun e he ht => ?_
      by_contra hno
      exact hevict ⟨e, (hevictions e (by simpa using hno)).mpr he, by simpa using hno, ht⟩
  · have hall : ∀ e ∈ hs, e.time = t → (!e.isCall) = true := fun e he ht => by
      by_contra hno
      exact hcall ⟨e, he, by simpa using hno, ht⟩
    refine filter_time_eq h.evictions hall fun e he ht => ?_
    by_contra hno
    exact hcall ⟨e, (hcalls e (by simpa using hno)).mpr he, by simpa using hno, ht⟩

theorem keyHistory_eq {k : IpAddr} {c c' : RateLimitConfig} {es es' : List Event}
    (hes : InOrder es) (hes' : InOrder es')
    (h : SameForKey (keyHistory k c es) (keyHistory k c' es')) :
    keyHistory k c es = keyHistory k c' es' :=
  Run.eq_of_filter_eq _ (pairwise_keyHistory hes k c) (pairwise_keyHistory hes' k c') h.filter_eq

/-! ### Clients -/

/-- One IPv4 address, or one IPv6 network of 64 bits. -/
def SameClient : IpAddr → IpAddr → Prop
  | .v4 a, .v4 b => a = b
  | .v6 a, .v6 b => a.segments.take 4 = b.segments.take 4
  | _, _ => False

theorem normalizeIp_eq_iff (a b : IpAddr) : normalizeIp a = normalizeIp b ↔ SameClient a b := by
  cases a with
  | v4 a =>
    cases b with
    | v4 b => simp [normalizeIp, SameClient]
    | v6 b => simp [normalizeIp, SameClient]
  | v6 a =>
    cases b with
    | v4 b => simp [normalizeIp, SameClient]
    | v6 b => simp [normalizeIp, SameClient]

/-- The events that are no calls of this client. -/
def notFrom (ip : IpAddr) : Event → Bool
  | .check _ ip' => ip' ≠ ip
  | _ => true

/-- A key sees nothing of the calls for another. -/
theorem keyHistory_filter {k : IpAddr} {ip : IpAddr} (hk : normalizeIp ip ≠ k) (es : List Event) :
    ∀ c : RateLimitConfig, keyHistory k c (es.filter (notFrom ip)) = keyHistory k c es := by
  induction es with
  | nil => exact fun _ => rfl
  | cons e es ih =>
    intro c
    cases e with
    | check now ip' =>
      by_cases hip : ip' = ip
      · rw [List.filter_cons_of_neg (by simp [notFrom, hip]), ih, keyHistory, hip, if_neg hk]
      · rw [List.filter_cons_of_pos (by simp [notFrom, hip]), keyHistory, keyHistory, ih]
    | evict now maxAge => exact congrArg (KeyEvent.evict now maxAge :: ·) (ih c)
    | reload config => exact ih config

/-- **Isolation.**  The decisions for a key depend on nothing but its own calls,
the configurations they read and the evictions, with the order of the two where
they fall on one moment.  And a client can make a difference to another one only
if both are one IPv4 address or in one /64. -/
theorem decisions_isolated :
    (∀ (k : IpAddr) (l l' : RateLimiter) (es es' : List Event), l.buckets k = l'.buckets k →
      InOrder es → InOrder es' →
      SameForKey (keyHistory k l.config es) (keyHistory k l'.config es') →
      decisions k l es = decisions k l' es') ∧
    ∀ (a b : IpAddr) (l : RateLimiter) (es es' : List Event),
      es.filter (notFrom b) = es'.filter (notFrom b) →
      decisions (normalizeIp a) l es ≠ decisions (normalizeIp a) l es' → SameClient a b := by
  constructor
  · intro k l l' es es' hbucket hes hes' hsame
    rw [decisions_eq, decisions_eq, hbucket, keyHistory_eq hes hes' hsame]
  · intro a b l es es' hrest hdiffer
    by_contra hclient
    have hk : normalizeIp b ≠ normalizeIp a := fun heq =>
      hclient ((normalizeIp_eq_iff a b).mp heq.symm)
    refine hdiffer ?_
    rw [decisions_eq, decisions_eq, ← keyHistory_filter hk es, hrest, keyHistory_filter hk es']

def firstClient : IpAddr := .v4 ⟨192, 0, 2, 1⟩
def secondClient : IpAddr := .v4 ⟨192, 0, 2, 2⟩

def firstHost : IpAddr := .v6 ⟨[0x2001, 0xdb8, 0, 0, 0, 0, 0, 1], rfl⟩
def secondHost : IpAddr := .v6 ⟨[0x2001, 0xdb8, 0, 0, 0, 0, 0, 2], rfl⟩

/-- The calls of another client are moved about; two hosts of one network. -/
theorem decisions_isolated_sample :
    decisions firstClient (RateLimiter.new ⟨10, 2⟩)
        [.check 0 firstClient, .check 1 secondClient, .evict 2 300, .check 3 firstClient]
      = decisions firstClient (RateLimiter.new ⟨10, 2⟩)
        [.check 0 firstClient, .evict 2 300, .check 3 firstClient, .check 3 secondClient] ∧
    SameClient firstHost secondHost := by
  constructor
  · refine decisions_isolated.1 firstClient _ _ _ _ rfl ?_ ?_ ⟨rfl, rfl, ?_⟩
    · decide +kernel
    · decide +kernel
    · decide +kernel
  · refine decisions_isolated.2 firstHost secondHost (RateLimiter.new ⟨1, 1⟩)
      [.check 0 secondHost, .check 0 firstHost] [.check 0 firstHost] rfl ?_
    decide +kernel

/-- The bucket is evicted before two calls of the same moment. -/
def evictedFirst : List Event :=
  [.check 0 firstClient, .check 0 firstClient, .evict 1 1, .check 1 firstClient,
    .check 1 firstClient]

/-- The bucket is evicted after them. -/
def evictedLast : List Event :=
  [.check 0 firstClient, .check 0 firstClient, .check 1 firstClient, .check 1 firstClient,
    .evict 1 1]

/-- The calls for the key agree, the evictions are at the same times, and the
decisions differ: an eviction that comes first hands out a full bucket. -/
theorem decisions_tied :
    InOrder evictedFirst ∧ InOrder evictedLast ∧
    (keyHistory firstClient ⟨1, 2⟩ evictedFirst).filter (·.isCall)
      = (keyHistory firstClient ⟨1, 2⟩ evictedLast).filter (·.isCall) ∧
    (keyHistory firstClient ⟨1, 2⟩ evictedFirst).filter (!·.isCall)
      = (keyHistory firstClient ⟨1, 2⟩ evictedLast).filter (!·.isCall) ∧
    decisions firstClient (RateLimiter.new ⟨1, 2⟩) evictedFirst = [true, true, true, true] ∧
    decisions firstClient (RateLimiter.new ⟨1, 2⟩) evictedLast = [true, true, true, false] := by
  decide +kernel

end RateLimit
