/-
The log line of a denied request and the filter that reads it.

`rateLimitMiddleware` logs a line for every request that it denies, with the
Host value and the path as the client sent them; fail2ban searches the log for
`failregex` and bans the address that it captures.

* `matches_failregex` — the filter matches a line at its start just when the
  host and the path read as fields, and then captures the address of the
  client;
* `search_rateLimitLine` — what it finds otherwise is in the client's own text;
* `isField_loggedHost` — the Host values that read as a field;
* `logged_address_iff` — the requests whose line names the client, whoever
  sends them.
-/
import ReverseProxy.ForwardedHost
import ReverseProxy.Pattern
import ReverseProxy.RateLimit

open Text NetAddr Http Handler Pattern

namespace RateLimit

/-! ### The middleware -/

/-- The line that is logged for a denied request. -/
def rateLimitLine (ip : IpAddr) (host path : Str) : Str :=
  "RATE_LIMIT client_ip=".toList ++ ip.toText ++ " host=".toList ++ host ++ " path=".toList ++
    path ++ " status=429".toList

section middleware

variable {V β : Type} [HeaderValue V]

def tooManyRequests : Response V (Body β) where
  status := 429
  headers := [("content-type".toList, HeaderValue.fromStatic "text/plain; charset=utf-8".toList)]
  body := .text "Too Many Requests".toList

structure Handled (V β : Type) where
  limiter : RateLimiter
  response : Response V (Body β)
  log : Option Str

/-- The host of the log line. -/
def loggedHost (req : Request V β) : Str := (hostText req).getD "-".toList

def rateLimitMiddleware (limiter : RateLimiter) (now : ℚ) (connectInfo : Option SocketAddr)
    (next : Request V β → Response V (Body β)) (req : Request V β) : Handled V β :=
  match connectInfo with
  | none => ⟨limiter, tooManyRequests, none⟩
  | some peer =>
    let result := limiter.checkAndConsume now peer.ip
    if result.2 then ⟨result.1, next req, none⟩
    else ⟨result.1, tooManyRequests, some (rateLimitLine peer.ip (loggedHost req) req.uri.path)⟩

theorem rateLimitMiddleware_log (limiter : RateLimiter) (now : ℚ) (peer : SocketAddr)
    (next : Request V β → Response V (Body β)) (req : Request V β) :
    (rateLimitMiddleware limiter now (some peer) next req).log
      = if (limiter.checkAndConsume now peer.ip).2 then none
        else some (rateLimitLine peer.ip (loggedHost req) req.uri.path) := by
  simp only [rateLimitMiddleware]
  split <;> rfl

end middleware

/-! ### The filter -/

/-- The classes `\s` and `\d` of the regular expressions; only what they are on
visible ASCII characters, spaces and tabs is fixed. -/
structure CharClasses where
  isSpace : Char → Bool
  isDigit : Char → Bool
  isSpace_iff : ∀ c : Char, 32 ≤ c.toNat ∧ c.toNat ≤ 126 ∨ c = '\t' →
    (isSpace c ↔ c = ' ' ∨ c = '\t')
  isDigit_eq : ∀ c : Char, 32 ≤ c.toNat ∧ c.toNat ≤ 126 ∨ c = '\t' → isDigit c = c.isDigit

/-- The class `\S`. -/
def CharClasses.nonSpace (classes : CharClasses) (c : Char) : Bool := !classes.isSpace c

def asciiClasses : CharClasses where
  isSpace c := c = ' ' ∨ c = '\t' ∨ 10 ≤ c.toNat ∧ c.toNat ≤ 13
  isDigit := Char.isDigit
  isSpace_iff := by
    intro c hc
    rw [decide_eq_true_eq]
    refine ⟨?_, fun h => h.imp id Or.inl⟩
    rintro (h | h | h)
    · exact Or.inl h
    · exact Or.inr h
    · exact Or.inr (hc.resolve_left (by omega))
  isDigit_eq _ _ := rfl

def pathPieces (classes : CharClasses) : List (Piece Char IpAddr) :=
  [.run classes.nonSpace, .word " status=".toList, .run classes.isDigit]

def hostPieces (classes : CharClasses) : List (Piece Char IpAddr) :=
  .run classes.nonSpace :: .word " path=".toList :: pathPieces classes

/-- `RATE_LIMIT client_ip=<HOST> host=\S+ path=\S+ status=\d+`, where `<HOST>`
is the text of an IP address. -/
def failregex (classes : CharClasses) : List (Piece Char IpAddr) :=
  .word "RATE_LIMIT client_ip=".toList :: .group IpAddr.parse :: .word " host=".toList ::
    hostPieces classes

/-- The line after `host=`. -/
def recordTail (host path : Str) : Str :=
  host ++ ' ' :: ("path=".toList ++ (path ++ ' ' :: "status=429".toList))

section filter

variable (classes : CharClasses)

/-- What `\S+` matches. -/
def IsField (w : Str) : Prop := w ≠ [] ∧ ∀ c ∈ w, classes.nonSpace c

/-- The text begins with a field and a status. -/
def HasStatus (w : Str) : Prop :=
  ∃ b d t, w = b ++ (" status=".toList ++ d :: t) ∧ IsField classes b ∧ classes.isDigit d

/-- The host and the path are read as the rest of the record: as one field
each, or with a status inside one of them that ends the record early. -/
def ReadsAsRecord (host path : Str) : Prop :=
  IsField classes host ∧ (IsField classes path ∨ HasStatus classes path) ∨
  ∃ a v, host = a ++ (" path=".toList ++ v) ∧ IsField classes a ∧ HasStatus classes v

variable {classes}

theorem nonSpace_space : classes.nonSpace ' ' = false := by
  rw [CharClasses.nonSpace, (classes.isSpace_iff ' ' (by decide)).mpr (Or.inl rfl)]
  rfl

/-- The end of the record, when a space follows. -/
theorem matches_pathPieces {x z : Str} {ks : List IpAddr} :
    Matches (pathPieces classes) (x ++ ' ' :: z) ks ↔
      (IsField classes x ∧ (∃ d t, z = "status=".toList ++ d :: t ∧ classes.isDigit d) ∨
        HasStatus classes x) ∧ ks = [] := by
  have hdigit : classes.isDigit ' ' = false := classes.isDigit_eq ' ' (by decide)
  show Matches [.run classes.nonSpace, .word (' ' :: "status=".toList), .run classes.isDigit]
    _ _ ↔ _
  rw [matches_run_word nonSpace_space (by decide)]
  simp only [matches_run]
  constructor
  · rintro (⟨hx, t, rfl, ⟨d, t, rfl, hd⟩, hks⟩ | ⟨b, v, rfl, hb, ⟨d, t, heq, hd⟩, hks⟩)
    · exact ⟨Or.inl ⟨hx, d, t, rfl, hd⟩, hks⟩
    · refine ⟨Or.inr ?_, hks⟩
      cases v with
      | nil =>
        -- the next character is the space, which is no digit
        rw [← (List.cons.inj heq).1, hdigit] at hd
        cases hd
      | cons c v =>
        rw [← (List.cons.inj heq).1] at hd
        exact ⟨b, c, v, rfl, hb, hd⟩
  · rintro ⟨⟨hx, d, t, rfl, hd⟩ | ⟨b, d, t, rfl, hb, hd⟩, hks⟩
    · exact Or.inl ⟨hx, d :: t, rfl, ⟨d, t, rfl, hd⟩, hks⟩
    · exact Or.inr ⟨b, d :: t, rfl, hb, ⟨d, t ++ ' ' :: z, rfl, hd⟩, hks⟩

/-- The record after the address. -/
theorem matches_hostPieces {host path : Str} {ks : List IpAddr} :
    Matches (hostPieces classes) (recordTail host path) ks ↔
      ReadsAsRecord classes host path ∧ ks = [] := by
  have hdigit : classes.isDigit '4' = true := classes.isDigit_eq '4' (by decide)
  show Matches (.run classes.nonSpace :: .word (' ' :: "path=".toList) :: pathPieces classes)
    (host ++ ' ' :: ("path=".toList ++ (path ++ ' ' :: "status=429".toList))) _ ↔ _
  rw [matches_run_word nonSpace_space (by decide)]
  constructor
  · rintro (⟨hhost, t, heq, hmatch⟩ | ⟨a, v, rfl, ha, hmatch⟩)
    · rw [← List.append_cancel_left heq, matches_pathPieces] at hmatch
      obtain ⟨hpath, hks⟩ := hmatch
      exact ⟨Or.inl ⟨hhost, hpath.imp And.left id⟩, hks⟩
    · obtain ⟨⟨-, d, t, heq, -⟩ | hv, hks⟩ := matches_pathPieces.mp hmatch
      · -- the field after this one is the path, not the status
        cases heq
      · exact ⟨Or.inr ⟨a, v, rfl, ha, hv⟩, hks⟩
  · rintro ⟨⟨hhost, hpath⟩ | ⟨a, v, rfl, ha, hv⟩, hks⟩
    · refine Or.inl ⟨hhost, _, rfl, matches_pathPieces.mpr ⟨?_, hks⟩⟩
      exact hpath.imp (fun hfield => ⟨hfield, '4', "29".toList, rfl, hdigit⟩) id
    · exact Or.inr ⟨a, v, rfl, ha, matches_pathPieces.mpr ⟨Or.inr hv, hks⟩⟩

theorem rateLimitLine_eq (ip : IpAddr) (host path : Str) :
    rateLimitLine ip host path = "RATE_LIMIT client_ip=".toList ++ (ip.toText ++
      (' ' :: "host=".toList ++ recordTail host path)) := by
  have hhost : " host=".toList = ' ' :: "host=".toList := rfl
  have hpath : " path=".toList = ' ' :: "path=".toList := rfl
  have hstatus : " status=429".toList = ' ' :: "status=429".toList := rfl
  unfold rateLimitLine recordTail
  simp only [hhost, hpath, hstatus, List.append_assoc, List.cons_append]

theorem matches_failregex {ip : IpAddr} {host path : Str} {ks : List IpAddr} :
    Matches (failregex classes) (rateLimitLine ip host path) ks ↔
      ks = [ip] ∧ ReadsAsRecord classes host path := by
  have hread : ∀ {b k}, IpAddr.parse b = some k → ' ' ∉ b :=
    fun h => IpAddr.not_mem_of_parse (by decide) h
  have hgroup : ∀ {z}, Matches (.group IpAddr.parse :: .word (' ' :: "host=".toList) ::
      hostPieces classes) (ip.toText ++ (' ' :: "host=".toList ++ z)) ks ↔
        ∃ k ks', IpAddr.parse ip.toText = some k ∧ ks = k :: ks' ∧
          Matches (hostPieces classes) z ks' :=
    matches_group_word hread (hread (IpAddr.parse_toText ip))
  rw [rateLimitLine_eq]
  constructor
  · rintro ⟨t, heq, hmatch⟩
    rw [← List.append_cancel_left heq] at hmatch
    obtain ⟨k, ks', hk, rfl, hrest⟩ := hgroup.mp hmatch
    rw [IpAddr.parse_toText, Option.some_inj] at hk
    obtain ⟨hrecord, rfl⟩ := matches_hostPieces.mp hrest
    exact ⟨by rw [hk], hrecord⟩
  · rintro ⟨rfl, hrecord⟩
    refine ⟨_, rfl, hgroup.mpr ⟨ip, [], IpAddr.parse_toText ip, rfl, ?_⟩⟩
    exact matches_hostPieces.mpr ⟨hrecord, rfl⟩

theorem search_rateLimitLine_of_record {host path : Str} (h : ReadsAsRecord classes host path)
    (ip : IpAddr) : search (failregex classes) (rateLimitLine ip host path) = some [ip] :=
  search_eq_of_matches (matches_failregex.mpr ⟨rfl, h⟩) fun _ hks => (matches_failregex.mp hks).1

/-- What the filter finds in any other line does not depend on the client. -/
theorem search_rateLimitLine {host path : Str} (h : ¬ ReadsAsRecord classes host path)
    (ip : IpAddr) :
    search (failregex classes) (rateLimitLine ip host path)
      = search (failregex classes) (recordTail host path) := by
  have hstart : ∀ ks, ¬ Matches (failregex classes) (rateLimitLine ip host path) ks :=
    fun ks hks => h (matches_failregex.mp hks).2
  have hR : 'R' ∉ "ATE_LIMIT client_ip=".toList ++ (ip.toText ++ ' ' :: "host=".toList) := by
    have hip : 'R' ∉ ip.toText := IpAddr.not_mem_of_parse (by decide) (IpAddr.parse_toText ip)
    simp [hip]
  have hline : rateLimitLine ip host path = 'R' ::
      ("ATE_LIMIT client_ip=".toList ++ (ip.toText ++ ' ' :: "host=".toList) ++
        recordTail host path) := by
    have hword : "RATE_LIMIT client_ip=".toList = 'R' :: "ATE_LIMIT client_ip=".toList := rfl
    rw [rateLimitLine_eq, hword]
    simp only [List.append_assoc, List.cons_append]
  rw [hline] at hstart ⊢
  rw [search_cons hstart]
  exact search_append hR _

end filter

/-! ### The address that is banned -/

/-- A limiter that has just granted the only request it has for a client. -/
def exhausted (ip : IpAddr) : RateLimiter := run (RateLimiter.new ⟨1, 1⟩) [.check 0 ip]

theorem exhausted_denies (ip : IpAddr) : ((exhausted ip).checkAndConsume 0 ip).2 = false := by
  let rate := (RateLimiter.new ⟨1, 1⟩).rate
  have hbucket : (exhausted ip).buckets (normalizeIp ip)
      = some ((TokenBucket.new 0 rate 1).tryConsume 0 rate 1).1 := Function.update_self ..
  have hfound : (exhausted ip).bucketAt 0 (normalizeIp ip)
      = ((TokenBucket.new 0 rate 1).tryConsume 0 rate 1).1 := by
    rw [RateLimiter.bucketAt, hbucket]
  show (((exhausted ip).bucketAt 0 (normalizeIp ip)).tryConsume 0 rate 1).2 = false
  rw [hfound]
  decide +kernel

section logged

variable {V β : Type} [HeaderValue V]

theorem isVisible_loggedHost (req : Request V β) : IsVisibleAscii (loggedHost req) := by
  rw [loggedHost]
  rcases hhost : hostText req with _ | host
  · simp [IsVisibleAscii]
  · exact isVisible_of_hostText hhost

/-- Whatever the filter takes for white space, a logged host is a field unless
it is empty or holds a blank. -/
theorem isField_loggedHost (classes : CharClasses) (req : Request V β) :
    IsField classes (loggedHost req) ↔
      loggedHost req ≠ [] ∧ ' ' ∉ loggedHost req ∧ '\t' ∉ loggedHost req := by
  have hclass : ∀ c ∈ loggedHost req, classes.nonSpace c ↔ c ≠ ' ' ∧ c ≠ '\t' := by
    intro c hc
    have hspace := classes.isSpace_iff c (isVisible_loggedHost req c hc)
    rw [CharClasses.nonSpace, Bool.not_eq_true', ← not_or, ← hspace, Bool.not_eq_true]
  rw [IsField]
  refine and_congr_right fun _ => ⟨fun hall => ⟨fun hmem => ?_, fun hmem => ?_⟩, ?_⟩
  · exact ((hclass _ hmem).mp (hall _ hmem)).1 rfl
  · exact ((hclass _ hmem).mp (hall _ hmem)).2 rfl
  · rintro ⟨hblank, htab⟩ c hc
    refine (hclass c hc).mpr ⟨?_, ?_⟩
    · rintro rfl
      exact hblank hc
    · rintro rfl
      exact htab hc

/-- **Banning by log line.**  The filter captures the client's own address
from the line of a denied request, whoever sends the request, just when the
logged host and the path are read as the rest of the record. -/
theorem logged_address_iff (classes : CharClasses) (next : Request V β → Response V (Body β))
    (req : Request V β) :
    (∀ limiter now peer line,
      (rateLimitMiddleware limiter now (some peer) next req).log = some line →
      search (failregex classes) line = some [peer.ip]) ↔
    ReadsAsRecord classes (loggedHost req) req.uri.path := by
  constructor
  · intro hall
    by_contra hrecord
    have hfound : ∀ peer : SocketAddr, search (failregex classes)
        (recordTail (loggedHost req) req.uri.path) = some [peer.ip] := by
      intro peer
      rw [← search_rateLimitLine hrecord peer.ip]
      refine hall (exhausted peer.ip) 0 peer _ ?_
      rw [rateLimitMiddleware_log, exhausted_denies]
      rfl
    -- two clients would be found in one and the same text
    have htwo := (hfound (.v4 ⟨192, 0, 2, 1⟩ 0)).symm.trans (hfound (.v4 ⟨192, 0, 2, 2⟩ 0))
    exact absurd htwo (by decide)
  · intro hrecord limiter now peer line hlog
    rw [rateLimitMiddleware_log] at hlog
    split at hlog
    · cases hlog
    · rw [← Option.some_inj.mp hlog]
      exact search_rateLimitLine_of_record hrecord peer.ip

end logged

/-- A client that is denied has another address banned by a Host value that
holds a record, and is not seen at all with a blank in it. -/
theorem logged_address_forged : letI := textHeaderValue
    let peer : SocketAddr := .v4 ⟨192, 0, 2, 1⟩ 50000
    let next : Request Str Unit → Response Str (Body Unit) := fun _ => statusResponse 200
    (∃ line, (rateLimitMiddleware (exhausted peer.ip) 0 (some peer) next (requestWithHost
        "x RATE_LIMIT client_ip=203.0.113.7 host=x path=/ status=429".toList)).log = some line ∧
      search (failregex asciiClasses) line = some [.v4 ⟨203, 0, 113, 7⟩]) ∧
    ∃ line, (rateLimitMiddleware (exhausted peer.ip) 0 (some peer) next (requestWithHost
        "x y".toList)).log = some line ∧
      search (failregex asciiClasses) line = none := by
  let _ := textHeaderValue
  intro peer next
  have hlog : ∀ req : Request Str Unit,
      (rateLimitMiddleware (exhausted peer.ip) 0 (some peer) next req).log
        = some (rateLimitLine peer.ip (loggedHost req) req.uri.path) := by
    intro req
    rw [rateLimitMiddleware_log, exhausted_denies]
    rfl
  exact ⟨⟨_, hlog _, by decide +kernel⟩, _, hlog _, by decide +kernel⟩

end RateLimit
