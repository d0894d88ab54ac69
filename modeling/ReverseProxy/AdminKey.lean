/-
The admin key and its rotation.

`admin_auth_middleware` admits a request to `/admin` when the hash of its bearer
token is the stored one, and only then runs the handler; `rotate_key_handler`
draws a fresh key and stores its hash without another look at the stored one.
Any number of requests are on their way at a time, so the two steps of one
request are interleaved with those of the others.

* `step_inv` — an admitted request presented the key that was current when it
  was admitted;
* `replaced_by_current_iff` — every replacement is made with the current key
  exactly in the runs in which no rotation overtakes a request that rotates;
* `replaced_by_old` — two requests with one key.
-/
import ReverseProxy.Http
import ReverseProxy.Run

open Text Http Run

namespace AdminKey

/-! ### Requests -/

abbrev KeyHash := Vector UInt8 32

/-- `hex::encode`. -/
def hexEncode (bytes : Vector UInt8 32) : Str :=
  bytes.toList.flatMap fun b => [Nat.digitChar (b.toNat / 16), Nat.digitChar (b.toNat % 16)]

inductive Route where
  | reload
  | status
  | rotateKey
  deriving DecidableEq

/-- Where a request is.  One that has been admitted remembers how many keys had
been replaced by then. -/
inductive Phase where
  | unauthorized
  | admitted (route : Route) (token : Str) (replaced : ℕ)
  | answered
  | rotated (key : Str)
  | dropped
  deriving DecidableEq

/-- The stored hash and the requests.  The keys themselves are stored nowhere:
the current one and those before it, in order, are kept for the proofs. -/
structure Server where
  keyHash : KeyHash
  current : Str
  retired : List Str
  requests : List Phase

inductive Event (V : Type) where
  | arrive (route : Route) (headers : HeaderMap V)
  | respond (i : ℕ)
  | rotate (i : ℕ) (random : Vector UInt8 32)
  | drop (i : ℕ)

variable {V : Type} [HeaderValue V] (sha256 : Str → KeyHash)

def Server.start (key : Str) : Server := ⟨sha256 key, key, [], []⟩

/-- All the keys there have been. -/
def Server.keys (s : Server) : List Str := s.retired ++ [s.current]

def bearerToken (headers : HeaderMap V) : Option Str :=
  ((headers.get "authorization".toList).bind HeaderValue.toStr).bind fun h =>
    if "Bearer ".toList <+: h then some (h.drop 7) else none

/-- The token of a request that is let through. -/
def adminAuthMiddleware (keyHash : KeyHash) (headers : HeaderMap V) : Option Str :=
  (bearerToken headers).bind fun token => if keyHash = sha256 token then some token else none

/-- The store of `rotate_key_handler`. -/
def Server.storeKey (s : Server) (key : Str) : Server :=
  { s with keyHash := sha256 key, current := key, retired := s.retired ++ [s.current] }

def Server.setPhase (s : Server) (i : ℕ) (p : Phase) : Server :=
  { s with requests := s.requests.set i p }

def step (s : Server) : Event V → Option Server
  | .arrive route headers =>
    let phase := match adminAuthMiddleware sha256 s.keyHash headers with
      | some token => .admitted route token s.retired.length
      | none => .unauthorized
    some { s with requests := s.requests ++ [phase] }
  | .respond i =>
    match s.requests[i]? with
    | some (.admitted .reload _ _) => some (s.setPhase i .answered)
    | some (.admitted .status _ _) => some (s.setPhase i .answered)
    | _ => none
  | .rotate i random =>
    match s.requests[i]? with
    | some (.admitted .rotateKey _ _) =>
      some ((s.storeKey sha256 (hexEncode random)).setPhase i (.rotated (hexEncode random)))
    | _ => none
  | .drop i =>
    -- The client hangs up before the handler has run.
    match s.requests[i]? with
    | some (.admitted _ _ _) => some (s.setPhase i .dropped)
    | _ => none

/-- The request that replaces the key in this event: its token, and how many
keys had been replaced when it was admitted. -/
def Server.replacer (s : Server) : Event V → Option (Str × ℕ)
  | .rotate i _ =>
    match s.requests[i]? with
    | some (.admitted .rotateKey token replaced) => some (token, replaced)
    | _ => none
  | _ => none

/-! ### Invariant -/

/-- The texts in use are among the given ones, and a new key is one that has
not been used before. -/
def Fresh (texts : Set Str) (s : Server) : Event V → Prop
  | .arrive _ headers => ∀ token ∈ bearerToken headers, token ∈ texts
  | .rotate _ random => hexEncode random ∈ texts ∧ hexEncode random ∉ s.keys
  | _ => True

structure Inv (texts : Set Str) (s : Server) : Prop where
  keyHash : s.keyHash = sha256 s.current
  nodup : s.keys.Nodup
  used : ∀ key ∈ s.keys, key ∈ texts
  admitted : ∀ route token replaced,
    .admitted route token replaced ∈ s.requests → s.keys[replaced]? = some token

variable {sha256} {texts : Set Str}

theorem inv_start {key : Str} (hkey : key ∈ texts) :
    Inv sha256 texts (Server.start sha256 key) where
  keyHash := rfl
  nodup := List.nodup_singleton key
  used := by simp [Server.keys, Server.start, hkey]
  admitted := by simp [Server.start]

theorem Inv.getElem?_current {s : Server} : s.keys[s.retired.length]? = some s.current := by
  rw [Server.keys, List.getElem?_concat_length]

/-- A phase that is not `admitted` changes nothing for the others. -/
theorem Inv.setPhase {s : Server} (hinv : Inv sha256 texts s) (i : ℕ) {p : Phase}
    (hp : ∀ route token replaced, p ≠ .admitted route token replaced) :
    Inv sha256 texts (s.setPhase i p) where
  keyHash := hinv.keyHash
  nodup := hinv.nodup
  used := hinv.used
  admitted route token replaced hmem :=
    hinv.admitted route token replaced
      ((List.mem_or_eq_of_mem_set hmem).resolve_right fun heq => hp _ _ _ heq.symm)

theorem keys_storeKey (s : Server) (key : Str) :
    (s.storeKey sha256 key).keys = s.keys ++ [key] := rfl

/-- The numbers of the keys stay what they are. -/
theorem Inv.storeKey {s : Server} (hinv : Inv sha256 texts s) {key : Str} (hkey : key ∈ texts)
    (hfresh : key ∉ s.keys) : Inv sha256 texts (s.storeKey sha256 key) where
  keyHash := rfl
  nodup := by
    rw [keys_storeKey, ← List.concat_eq_append, List.nodup_concat]
    exact ⟨hfresh, hinv.nodup⟩
  used := by
    rw [keys_storeKey]
    intro k hk
    rcases List.mem_append.mp hk with hk | hk
    · exact hinv.used k hk
    · exact List.mem_singleton.mp hk ▸ hkey
  admitted route token replaced hmem := by
    have hget := hinv.admitted route token replaced hmem
    rw [keys_storeKey, List.getElem?_append_left (List.getElem?_eq_some_iff.mp hget).1, hget]

/-- The middleware lets through the current key and nothing else. -/
theorem Inv.adminAuthMiddleware_eq_some {s : Server} (hinj : Set.InjOn sha256 texts)
    (hinv : Inv sha256 texts s) {headers : HeaderMap V} {token : Str}
    (htexts : ∀ token ∈ bearerToken headers, token ∈ texts)
    (h : adminAuthMiddleware sha256 s.keyHash headers = some token) : token = s.current := by
  obtain ⟨t, ht, h⟩ := Option.bind_eq_some_iff.mp h
  split at h
  · next heq =>
    obtain rfl := Option.some_inj.mp h
    rw [hinv.keyHash] at heq
    refine hinj (htexts t ht) (hinv.used _ ?_) heq.symm
    exact List.mem_append_right _ (List.mem_singleton_self _)
  · exact absurd h nofun

theorem Inv.arrive {s : Server} (hinv : Inv sha256 texts s) {p : Phase}
    (hp : ∀ route token replaced, p = .admitted route token replaced →
      s.keys[replaced]? = some token) :
    Inv sha256 texts { s with requests := s.requests ++ [p] } where
  keyHash := hinv.keyHash
  nodup := hinv.nodup
  used := hinv.used
  admitted route token replaced hmem := by
    rcases List.mem_append.mp hmem with hmem | hmem
    · exact hinv.admitted route token replaced hmem
    · exact hp route token replaced (List.mem_singleton.mp hmem).symm

theorem step_inv (hinj : Set.InjOn sha256 texts) {s s' : Server} {e : Event V}
    (hinv : Inv sha256 texts s) (hfresh : Fresh texts s e) (h : step sha256 s e = some s') :
    Inv sha256 texts s' := by
  cases e with
  | arrive route headers =>
    obtain rfl := Option.some_inj.mp h
    refine hinv.arrive fun route' token replaced heq => ?_
    cases hauth : adminAuthMiddleware sha256 s.keyHash headers with
    | none =>
      rw [hauth] at heq
      exact absurd heq nofun
    | some t =>
      rw [hauth] at heq
      injection heq with _ htoken hreplaced
      rw [← htoken, ← hreplaced, hinv.adminAuthMiddleware_eq_some hinj hfresh hauth]
      exact Inv.getElem?_current
  | respond i =>
    rw [step] at h
    split at h
    · exact Option.some_inj.mp h ▸ hinv.setPhase i nofun
    · exact Option.some_inj.mp h ▸ hinv.setPhase i nofun
    · exact absurd h nofun
  | rotate i random =>
    rw [step] at h
    split at h
    · exact Option.some_inj.mp h ▸ (hinv.storeKey hfresh.1 hfresh.2).setPhase i nofun
    · exact absurd h nofun
  | drop i =>
    rw [step] at h
    split at h
    · exact Option.some_inj.mp h ▸ hinv.setPhase i nofun
    · exact absurd h nofun

/-! ### Replacements -/

variable (sha256) in
/-- The key is replaced by a request that presented the current one, and none
that was replaced before. -/
def ByCurrentKey (s : Server) (e : Event V) : Prop :=
  ∀ r ∈ s.replacer e, sha256 r.1 = s.keyHash ∧ r.1 ∉ s.retired

/-- No key has been replaced since the request that replaces it now was
admitted. -/
def NotOvertaken (s : Server) (e : Event V) : Prop :=
  ∀ r ∈ s.replacer e, r.2 = s.retired.length

omit [HeaderValue V] in
theorem getElem?_of_replacer {s : Server} (hinv : Inv sha256 texts s) {e : Event V} {r : Str × ℕ}
    (hr : s.replacer e = some r) : s.keys[r.2]? = some r.1 := by
  unfold Server.replacer at hr
  split at hr
  · split at hr
    · next hget =>
      obtain rfl := Option.some_inj.mp hr
      exact hinv.admitted _ _ _ (List.mem_of_getElem? hget)
    · exact absurd hr nofun
  · exact absurd hr nofun

omit [HeaderValue V] in
theorem byCurrentKey_iff (hinj : Set.InjOn sha256 texts) {s : Server} {e : Event V}
    (hinv : Inv sha256 texts s) : ByCurrentKey sha256 s e ↔ NotOvertaken s e := by
  refine forall₂_congr fun r hr => ?_
  have htoken := getElem?_of_replacer hinv hr
  constructor
  · rintro ⟨hhash, -⟩
    rw [hinv.keyHash] at hhash
    have hcurrent : r.1 = s.current :=
      hinj (hinv.used _ (List.mem_of_getElem? htoken))
        (hinv.used _ (List.mem_of_getElem? Inv.getElem?_current)) hhash
    -- The keys are distinct, so that the current one has one number only.
    have hlt : r.2 < s.keys.length := (List.getElem?_eq_some_iff.mp htoken).1
    rw [hcurrent, ← Inv.getElem?_current] at htoken
    exact (List.getElem?_inj hlt hinv.nodup).mp htoken
  · intro hlast
    rw [hlast, Inv.getElem?_current, Option.some_inj] at htoken
    refine ⟨htoken ▸ hinv.keyHash.symm, ?_⟩
    have hnodup := hinv.nodup
    rw [Server.keys, ← List.concat_eq_append, List.nodup_concat] at hnodup
    exact htoken ▸ hnodup.1

/-- **Revocation.**  Every replacement of the key in a run is made by a request
with the current key exactly when no such request has been overtaken by another
replacement between its authentication and its handler. -/
theorem replaced_by_current_iff (sha256 : Str → KeyHash) (texts : Set Str)
    (hinj : Set.InjOn sha256 texts) (key : Str) (hkey : key ∈ texts) (es : List (Event V))
    (hes : Along (step sha256) (Fresh texts) (Server.start sha256 key) es) :
    Along (step sha256) (ByCurrentKey sha256) (Server.start sha256 key) es ↔
      Along (step sha256) NotOvertaken (Server.start sha256 key) es :=
  along_congr (step_inv hinj) (fun hinv _ => byCurrentKey_iff hinj hinv) es (inv_start hkey) hes

/-! ### Two requests with one key -/

instance (s : Server) (e : Event V) : Decidable (ByCurrentKey sha256 s e) :=
  inferInstanceAs (Decidable (∀ r ∈ s.replacer e, _))

instance (s : Server) (e : Event V) : Decidable (NotOvertaken s e) :=
  inferInstanceAs (Decidable (∀ r ∈ s.replacer e, _))

instance [DecidablePred (· ∈ texts)] (s : Server) : ∀ e : Event V, Decidable (Fresh texts s e)
  | .arrive _ headers => inferInstanceAs (Decidable (∀ token ∈ bearerToken headers, token ∈ texts))
  | .respond _ => .isTrue trivial
  | .rotate _ random =>
    inferInstanceAs (Decidable (hexEncode random ∈ texts ∧ hexEncode random ∉ s.keys))
  | .drop _ => .isTrue trivial

/-- The first characters stand for the hash. -/
def sampleHash (text : Str) : KeyHash :=
  Vector.ofFn fun i => UInt8.ofNat (text.getD i ' ').toNat

def sampleKey : Str := "initial-key".toList

def firstRandom : Vector UInt8 32 := Vector.replicate 32 7
def secondRandom : Vector UInt8 32 := Vector.replicate 32 9

def sampleTexts : List Str := [sampleKey, hexEncode firstRandom, hexEncode secondRandom]

theorem injOn_sampleHash : Set.InjOn sampleHash {text | text ∈ sampleTexts} := by
  have hall : ∀ a ∈ sampleTexts, ∀ b ∈ sampleTexts, sampleHash a = sampleHash b → a = b := by
    decide +kernel
  exact fun a ha b hb => hall a ha b hb

def rotateWith (key : Str) : Event Str :=
  .arrive .rotateKey [("authorization".toList, "Bearer ".toList ++ key)]

/-- The second request presents the key that the first one was given. -/
def rotationsInTurn : List (Event Str) :=
  [rotateWith sampleKey, .rotate 0 firstRandom,
    rotateWith (hexEncode firstRandom), .rotate 1 secondRandom]

theorem replaced_by_current_iff_inTurn :
    letI := textHeaderValue
    (run (step sampleHash) (Server.start sampleHash sampleKey) rotationsInTurn).map (·.retired)
        = some [sampleKey, hexEncode firstRandom] ∧
      Along (step sampleHash) (ByCurrentKey sampleHash) (Server.start sampleHash sampleKey)
        rotationsInTurn := by
  refine ⟨by decide +kernel, ?_⟩
  refine (@replaced_by_current_iff Str textHeaderValue sampleHash {text | text ∈ sampleTexts}
    injOn_sampleHash sampleKey ?_ rotationsInTurn ?_).mpr ?_
  · exact List.mem_cons_self
  · decide +kernel
  · decide +kernel

/-- Both requests are admitted before either of them rotates. -/
def rotationsAtOnce : List (Event Str) :=
  [rotateWith sampleKey, rotateWith sampleKey, .rotate 0 firstRandom, .rotate 1 secondRandom]

/-- The second of the two requests presented the key that the first one has
replaced, and replaces the new one. -/
theorem replaced_by_old :
    letI := textHeaderValue
    Along (step sampleHash) (Fresh {text | text ∈ sampleTexts})
        (Server.start sampleHash sampleKey) rotationsAtOnce ∧
      (run (step sampleHash) (Server.start sampleHash sampleKey) rotationsAtOnce).map
          (fun s => (s.keyHash, s.retired))
        = some (sampleHash (hexEncode secondRandom), [sampleKey, hexEncode firstRandom]) ∧
      ¬ Along (step sampleHash) (ByCurrentKey sampleHash) (Server.start sampleHash sampleKey)
        rotationsAtOnce := by
  exact ⟨by decide +kernel, by decide +kernel, by decide +kernel⟩

end AdminKey
