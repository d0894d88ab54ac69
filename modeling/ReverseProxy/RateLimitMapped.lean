/-
IPv4 clients behind a dual-stack socket.

A socket that is bound to an IPv6 address and accepts IPv4 connections too
reports their peers as IPv4-mapped addresses `::ffff:a.b.c.d`.  These are all in
the network `::/64`, which the limiter takes for one client.

* `normalizeIp_toIpv6Mapped` — the one key of all mapped addresses;
* `peerDecisions_filter` — calls that touch only other keys make no difference;
* `per_address_iff` — IPv4 clients are limited one by one as long as not both of
  them are reported as mapped addresses;
* `mapped_clients_share` — two clients of a dual-stack listener.
-/
import ReverseProxy.RateLimitIsolation

namespace NetAddr

/-- `Ipv4Addr::to_ipv6_mapped`. -/
def Ipv4Addr.toIpv6Mapped (v4 : Ipv4Addr) : Ipv6Addr where
  segments := 0 :: 0 :: 0 :: 0 :: 0 :: 0xffff :: v4.groups
  length_segments := rfl

/-- The two bytes of a group. -/
theorem bytes_ofNat (hi lo : UInt8) :
    UInt8.ofNat ((UInt16.ofNat (hi.toNat * 256 + lo.toNat)).toNat / 256) = hi ∧
      UInt8.ofNat (UInt16.ofNat (hi.toNat * 256 + lo.toNat)).toNat = lo := by
  have hhi := hi.toNat_lt
  have hlo := lo.toNat_lt
  constructor
  · apply UInt8.toNat_inj.mp
    rw [UInt8.toNat_ofNat', UInt16.toNat_ofNat']
    omega
  · apply UInt8.toNat_inj.mp
    rw [UInt8.toNat_ofNat', UInt16.toNat_ofNat']
    omega

theorem toIpv4Mapped_toIpv6Mapped (v4 : Ipv4Addr) : v4.toIpv6Mapped.toIpv4Mapped = some v4 := by
  obtain ⟨a, b, c, d⟩ := v4
  simp only [Ipv6Addr.toIpv4Mapped, Ipv4Addr.toIpv6Mapped, Ipv4Addr.groups, bytes_ofNat]

theorem toIpv6Mapped_inj {a b : Ipv4Addr} (h : a.toIpv6Mapped = b.toIpv6Mapped) : a = b := by
  rw [← Option.some_inj, ← toIpv4Mapped_toIpv6Mapped a, h, toIpv4Mapped_toIpv6Mapped]

end NetAddr

open NetAddr Config

namespace RateLimit

/-! ### Peers -/

/-- The address that a listener reports is one of the two forms of `a`. -/
def isPeer (a : Ipv4Addr) (ip : IpAddr) : Bool := ip = .v4 a ∨ ip = .v6 a.toIpv6Mapped

/-- What the requests of `a` get in a run. -/
def peerDecisions (a : Ipv4Addr) : RateLimiter → List Event → List Bool
  | _, [] => []
  | l, .check now ip :: es =>
    if isPeer a ip then
      (l.checkAndConsume now ip).2 :: peerDecisions a (step l (.check now ip)) es
    else peerDecisions a (step l (.check now ip)) es
  | l, e :: es => peerDecisions a (step l e) es

/-- The events that are no requests of `b`. -/
def notPeer (b : Ipv4Addr) : Event → Bool
  | .check _ ip => !isPeer b ip
  | _ => true

/-- Whether some listener reports `a` in the mapped form. -/
def ReportedAs (mapped : Bool) (a : Ipv4Addr) (es : List Event) : Prop :=
  mapped = false → ∀ now, .check now (.v6 a.toIpv6Mapped) ∉ es

/-- The key of all mapped addresses. -/
def mappedKey : IpAddr := .v6 ⟨List.replicate 8 0, List.length_replicate⟩

theorem normalizeIp_toIpv6Mapped (a : Ipv4Addr) : normalizeIp (.v6 a.toIpv6Mapped) = mappedKey :=
  rfl

/-- The keys under which the requests of a client are counted. -/
def PeerKey (mapped : Bool) (a : Ipv4Addr) (k : IpAddr) : Prop :=
  k = .v4 a ∨ mapped = true ∧ k = mappedKey

theorem ReportedAs.peerKey {mapped : Bool} {a : Ipv4Addr} {es : List Event}
    (h : ReportedAs mapped a es) {now : ℚ} {ip : IpAddr} (hmem : .check now ip ∈ es)
    (hpeer : isPeer a ip = true) : PeerKey mapped a (normalizeIp ip) := by
  rcases of_decide_eq_true hpeer with rfl | rfl
  · exact Or.inl rfl
  · refine Or.inr ⟨?_, normalizeIp_toIpv6Mapped a⟩
    by_contra hmapped
    exact h (Bool.eq_false_of_not_eq_true hmapped) now hmem

theorem PeerKey.disjoint {a b : Ipv4Addr} (hab : a ≠ b) {mappedA mappedB : Bool}
    (hmapped : ¬ (mappedA = true ∧ mappedB = true)) {k : IpAddr} (ha : PeerKey mappedA a k) :
    ¬ PeerKey mappedB b k := by
  rcases ha with rfl | ⟨hA, rfl⟩
  · rintro (heq | ⟨-, heq⟩)
    · exact hab (IpAddr.v4.inj heq)
    · cases heq
  · rintro (heq | ⟨hB, -⟩)
    · cases heq
    · exact hmapped ⟨hA, hB⟩

/-! ### Two runs that differ under some keys -/

/-- The limiters agree except under the keys in `S`. -/
structure AgreeOff (S : IpAddr → Prop) (l l' : RateLimiter) : Prop where
  config : l.config = l'.config
  buckets : ∀ k, ¬ S k → l.buckets k = l'.buckets k

variable {S : IpAddr → Prop} {l l' : RateLimiter}

theorem AgreeOff.result_eq (h : AgreeOff S l l') (now : ℚ) {ip : IpAddr}
    (hip : ¬ S (normalizeIp ip)) :
    (l.checkAndConsume now ip).2 = (l'.checkAndConsume now ip).2 := by
  rw [checkAndConsume_snd, checkAndConsume_snd, h.config, h.buckets _ hip]

theorem AgreeOff.check_left (h : AgreeOff S l l') (now : ℚ) {ip : IpAddr}
    (hip : S (normalizeIp ip)) : AgreeOff S (step l (.check now ip)) l' := by
  refine ⟨h.config, fun k hk => ?_⟩
  have hne : k ≠ normalizeIp ip := fun heq => hk (heq ▸ hip)
  rw [buckets_step_check, Function.update_of_ne hne, h.buckets k hk]

theorem AgreeOff.step (h : AgreeOff S l l') (e : Event) :
    AgreeOff S (step l e) (RateLimit.step l' e) := by
  cases e with
  | check now ip =>
    refine ⟨h.config, fun k hk => ?_⟩
    rw [buckets_step_check, buckets_step_check, h.config]
    by_cases heq : k = normalizeIp ip
    · rw [heq, Function.update_self, Function.update_self, h.buckets _ (heq ▸ hk)]
    · rw [Function.update_of_ne heq, Function.update_of_ne heq, h.buckets k hk]
  | evict now maxAge =>
    refine ⟨h.config, fun k hk => ?_⟩
    exact congrArg (Option.filter _) (h.buckets k hk)
  | reload config => exact ⟨rfl, h.buckets⟩

/-- Requests of `b` that are counted under the keys in `S` make no difference to
requests of `a` that are counted under others. -/
theorem peerDecisions_filter {a b : Ipv4Addr} (es : List Event) : ∀ {l l' : RateLimiter},
    AgreeOff S l l' →
    (∀ now ip, .check now ip ∈ es → isPeer b ip = true → S (normalizeIp ip)) →
    (∀ now ip, .check now ip ∈ es → isPeer a ip = true → ¬ S (normalizeIp ip)) →
      peerDecisions a l es = peerDecisions a l' (es.filter (notPeer b)) := by
  induction es with
  | nil => exact fun _ _ _ => rfl
  | cons e es ih =>
    intro l l' h hb ha
    have hb' := fun now ip hmem => hb now ip (List.mem_cons_of_mem e hmem)
    have ha' := fun now ip hmem => ha now ip (List.mem_cons_of_mem e hmem)
    cases e with
    | check now ip =>
      by_cases hpeer : isPeer b ip = true
      · -- a request of `b` is none of `a`: its key is in `S`
        have hS := hb now ip List.mem_cons_self hpeer
        have hno : ¬ isPeer a ip = true := fun hpa => ha now ip List.mem_cons_self hpa hS
        rw [List.filter_cons_of_neg (by simp [notPeer, hpeer]), peerDecisions, if_neg hno]
        exact ih (h.check_left now hS) hb' ha'
      · rw [List.filter_cons_of_pos (by simp [notPeer, hpeer]), peerDecisions, peerDecisions,
          ih (h.step _) hb' ha']
        by_cases hpa : isPeer a ip = true
        · rw [if_pos hpa, if_pos hpa, h.result_eq now (ha now ip List.mem_cons_self hpa)]
        · rw [if_neg hpa, if_neg hpa]
    | evict now maxAge => exact ih (h.step _) hb' ha'
    | reload config => exact ih (h.step _) hb' ha'

/-! ### Limits per address -/

theorem isPeer_mapped {a b : Ipv4Addr} : isPeer a (.v6 b.toIpv6Mapped) = decide (a = b) := by
  rw [isPeer, decide_eq_decide]
  constructor
  · rintro (heq | heq)
    · cases heq
    · exact (toIpv6Mapped_inj (IpAddr.v6.inj heq)).symm
  · rintro rfl
    exact Or.inr rfl

/-- **Limits per address.**  The requests of an IPv4 client get what they would
get without those of another one, in every run and under every configuration,
exactly when not both clients may be reported as mapped addresses. -/
theorem per_address_iff (a b : Ipv4Addr) (hab : a ≠ b) (mappedA mappedB : Bool) :
    (∀ (c : RateLimitConfig) (es : List Event), ReportedAs mappedA a es →
      ReportedAs mappedB b es → peerDecisions a (RateLimiter.new c) es
        = peerDecisions a (RateLimiter.new c) (es.filter (notPeer b))) ↔
    ¬ (mappedA = true ∧ mappedB = true) := by
  constructor
  · -- with a burst of one, a request of `b` takes the token of `a`
    rintro h ⟨rfl, rfl⟩
    have hba : isPeer b (.v6 a.toIpv6Mapped) = false := by
      rw [isPeer_mapped, decide_eq_false hab.symm]
    have hab' : isPeer a (.v6 b.toIpv6Mapped) = false := by
      rw [isPeer_mapped, decide_eq_false hab]
    have haa : isPeer a (.v6 a.toIpv6Mapped) = true := by rw [isPeer_mapped, decide_eq_true rfl]
    have hbb : isPeer b (.v6 b.toIpv6Mapped) = true := by rw [isPeer_mapped, decide_eq_true rfl]
    have hrun := h ⟨1, 1⟩ [.check 0 (.v6 b.toIpv6Mapped), .check 0 (.v6 a.toIpv6Mapped)]
      (fun hno => absurd hno (by simp)) (fun hno => absurd hno (by simp))
    rw [List.filter_cons_of_neg (by simp [notPeer, hbb]),
      List.filter_cons_of_pos (by simp [notPeer, hba]), List.filter_nil] at hrun
    simp only [peerDecisions, haa, hab', if_true, Bool.false_eq_true, if_false] at hrun
    rw [checkAndConsume_snd, checkAndConsume_snd, buckets_step_check, normalizeIp_toIpv6Mapped,
      normalizeIp_toIpv6Mapped, Function.update_self] at hrun
    have hgranted : (keyCall none 0 ⟨1, 1⟩).2 = true := by decide +kernel
    have hdenied : (keyCall (some (keyCall none 0 ⟨1, 1⟩).1) 0 ⟨1, 1⟩).2 = false := by
      decide +kernel
    have hsame := (List.cons.inj hrun).1
    exact absurd (hdenied.symm.trans (hsame.trans hgranted)) Bool.false_ne_true
  · intro hmapped c es hA hB
    refine peerDecisions_filter (S := PeerKey mappedB b) es ⟨rfl, fun _ _ => rfl⟩ ?_ ?_
    · exact fun now ip hmem hpeer => hB.peerKey hmem hpeer
    · exact fun now ip hmem hpeer => (hA.peerKey hmem hpeer).disjoint hab hmapped

def firstV4 : Ipv4Addr := ⟨192, 0, 2, 1⟩
def secondV4 : Ipv4Addr := ⟨192, 0, 2, 2⟩

/-- One client over a dual-stack listener, the other one over an IPv4 one. -/
theorem per_address_sample :
    peerDecisions firstV4 (RateLimiter.new ⟨1, 1⟩)
        [.check 0 (.v4 secondV4), .check 0 (.v6 firstV4.toIpv6Mapped)]
      = peerDecisions firstV4 (RateLimiter.new ⟨1, 1⟩)
        [.check 0 (.v6 firstV4.toIpv6Mapped)] := by
  refine (per_address_iff firstV4 secondV4 (by decide) true false).mpr (by simp) ⟨1, 1⟩
    [.check 0 (.v4 secondV4), .check 0 (.v6 firstV4.toIpv6Mapped)] ?_ ?_
  · exact fun hno => absurd hno (by simp)
  · intro _ now hmem
    rcases List.mem_cons.mp hmem with heq | hmem
    · cases heq
    · have hip := (Event.check.inj (List.mem_singleton.mp hmem)).2
      exact absurd (toIpv6Mapped_inj (IpAddr.v6.inj hip)) (by decide)

/-- Two clients of one dual-stack listener: the second one has used up the token
of the first. -/
theorem mapped_clients_share :
    peerDecisions firstV4 (RateLimiter.new ⟨1, 1⟩)
        [.check 0 (.v6 secondV4.toIpv6Mapped), .check 0 (.v6 firstV4.toIpv6Mapped)] = [false] ∧
    peerDecisions firstV4 (RateLimiter.new ⟨1, 1⟩)
        [.check 0 (.v6 firstV4.toIpv6Mapped)] = [true] ∧
    [.check 0 (.v6 secondV4.toIpv6Mapped), .check 0 (.v6 firstV4.toIpv6Mapped)].filter
        (notPeer secondV4) = [.check 0 (.v6 firstV4.toIpv6Mapped)] := by
  decide +kernel

end RateLimit
