/-
The admin key, from its file to a request.

* `loadAdminKey` — the key is the text of the file without the blanks around it;
* `keyHash_run` — after any run the stored hash is that of the last key;
* `isVisible_of_rotation` — the first rotation needs the key of the file;
* `key_opens_iff` — when the endpoints can be used at all.
-/
import ReverseProxy.AdminServer
import ReverseProxy.TokenList

open Run Text Config Http
open AdminKey (KeyHash hexEncode bearerToken adminAuthMiddleware)

namespace AdminServer

/-! ### The key file -/

/-- `char::is_whitespace`. -/
def isWhitespace (c : Char) : Bool :=
  let n := c.toNat
  (9 ≤ n && n ≤ 13) || n == 0x20 || n == 0x85 || n == 0xA0 || n == 0x1680 ||
    (0x2000 ≤ n && n ≤ 0x200A) || n == 0x2028 || n == 0x2029 || n == 0x202F || n == 0x205F ||
    n == 0x3000

inductive AdminKeyError where
  | notReadable (reason : Str)
  | emptyFile
  deriving DecidableEq

def AdminKeyError.toText : AdminKeyError → Str
  | notReadable reason => "admin key file is not readable: ".toList ++ reason
  | emptyFile => "admin key file is empty".toList

/-- `readToString` is what reading the file gives.  A file that cannot be read
disables the endpoints. -/
def loadAdminKey (sha256 : Str → KeyHash) (path : Str) (readToString : Except Str Str) :
    Except AdminKeyError (Option KeyHash) :=
  if path = [] then .ok none
  else
    match readToString with
    | .error _ => .ok none
    | .ok keyContent =>
      let keyTrimmed := TokenList.trim isWhitespace keyContent
      if keyTrimmed = [] then .error .emptyFile else .ok (some (sha256 keyTrimmed))

theorem loadAdminKey_eq_some {sha256 : Str → KeyHash} {path content : Str} {hash : KeyHash}
    (h : loadAdminKey sha256 path (.ok content) = .ok (some hash)) :
    hash = sha256 (TokenList.trim isWhitespace content) := by
  rw [loadAdminKey] at h
  split at h
  · cases h
  · dsimp only at h
    split at h
    · cases h
    · exact (Option.some_inj.mp (Except.ok.inj h)).symm

section

variable {V : Type} [HeaderValue V] [Lowercase] {sha256 : Str → KeyHash}
  {parse : Str → Except Str FullConfig}

/-! ### The current key -/

/-- The key that the last rotation gave out, or else the first one. -/
def lastKey (key : Str) (es : List (Event V)) : Str :=
  es.foldl (fun key e => match e with
    | .rotate _ random => hexEncode random
    | _ => key) key

def isRotation : Event V → Bool
  | .rotate _ _ => true
  | _ => false

omit [HeaderValue V] [Lowercase] in
theorem lastKey_concat (key : Str) (es : List (Event V)) (e : Event V) :
    lastKey key (es ++ [e]) = match e with
      | .rotate _ random => hexEncode random
      | _ => lastKey key es := by
  rw [lastKey, List.foldl_append]
  rfl

omit [HeaderValue V] [Lowercase] in
/-- Either there was no rotation or the key is one of the drawn ones. -/
theorem lastKey_cases (key : Str) (es : List (Event V)) :
    (∀ e ∈ es, isRotation e = false) ∧ lastKey key es = key ∨
      ∃ r random, .rotate r random ∈ es ∧ lastKey key es = hexEncode random := by
  induction es using List.reverseRecOn with
  | nil => exact Or.inl ⟨fun e he => absurd he List.not_mem_nil, rfl⟩
  | append_singleton es e ih =>
    rw [lastKey_concat]
    cases e with
    | rotate r random => exact Or.inr ⟨r, random, by simp, rfl⟩
    | _ =>
      rcases ih with ⟨hnone, hkey⟩ | ⟨r, random, hmem, hkey⟩
      · refine Or.inl ⟨fun e he => ?_, hkey⟩
        rcases List.mem_append.mp he with he | he
        · exact hnone e he
        · obtain rfl := List.mem_singleton.mp he
          rfl
      · exact Or.inr ⟨r, random, List.mem_append_left _ hmem, hkey⟩

theorem keyHash_run {key : Str} {reload : Reload.System} {es : List (Event V)} {s : System}
    (hrun : run (step sha256 parse) (System.start (sha256 key) reload) es = some s) :
    s.keyHash = sha256 (lastKey key es) := by
  refine run_history (I := fun (es : List (Event V)) s => s.keyHash = sha256 (lastKey key es))
    rfl ?_ es hrun
  intro es s e s' _ h hstep
  rw [lastKey_concat]
  cases move_of_step hstep with
  | rotate response hr => rfl
  | _ => exact h

/-! ### Keys that can be presented -/

omit [HeaderValue V] [Lowercase] in
theorem isVisible_hexEncode (bytes : Vector UInt8 32) : IsVisibleAscii (hexEncode bytes) := by
  have hdigit : ∀ n : Fin 16, 32 ≤ (Nat.digitChar n).toNat ∧ (Nat.digitChar n).toNat ≤ 126 := by
    decide
  intro c hc
  obtain ⟨b, -, hc⟩ := List.mem_flatMap.mp hc
  have hhigh : b.toNat / 16 < 16 := by have := b.toNat_lt; omega
  have hlow : b.toNat % 16 < 16 := Nat.mod_lt _ (by omega)
  rcases List.mem_cons.mp hc with rfl | hc
  · exact Or.inl (hdigit ⟨_, hhigh⟩)
  · obtain rfl := List.mem_singleton.mp hc
    exact Or.inl (hdigit ⟨_, hlow⟩)

omit [HeaderValue V] [Lowercase] in
theorem isVisible_of_all {s : Str}
    (h : (s.all fun c => 32 ≤ c.toNat && c.toNat ≤ 126) = true) : IsVisibleAscii s := by
  intro c hc
  have hvisible := List.all_eq_true.mp h c hc
  simp only [Bool.and_eq_true, decide_eq_true_eq] at hvisible
  exact Or.inl hvisible

omit [HeaderValue V] [Lowercase] in
theorem isVisible_bearer {key : Str} (h : IsVisibleAscii key) :
    IsVisibleAscii ("Bearer ".toList ++ key) := by
  intro c hc
  rcases List.mem_append.mp hc with hc | hc
  · exact isVisible_of_all (by decide) c hc
  · exact h c hc

omit [Lowercase] in
/-- A token that is let through is visible text with the stored hash. -/
theorem adminAuthMiddleware_eq_some {hash : KeyHash} {headers : HeaderMap V} {token : Str}
    (h : adminAuthMiddleware sha256 hash headers = some token) :
    bearerToken headers = some token ∧ IsVisibleAscii token ∧ hash = sha256 token := by
  obtain ⟨t, ht, h⟩ := Option.bind_eq_some_iff.mp h
  split at h
  · next heq =>
    obtain rfl := Option.some_inj.mp h
    refine ⟨ht, ?_, heq⟩
    obtain ⟨text, htext, hbearer⟩ := Option.bind_eq_some_iff.mp ht
    obtain ⟨v, -, htext⟩ := Option.bind_eq_some_iff.mp htext
    split at hbearer
    · obtain rfl := Option.some_inj.mp hbearer
      exact fun c hc => HeaderValue.isVisible_of_toStr htext c (List.mem_of_mem_drop hc)
    · cases hbearer
  · cases h

omit [Lowercase] in
/-- Every visible key can be presented. -/
theorem exists_header {key : Str} (h : IsVisibleAscii key) :
    ∃ headers : HeaderMap V, adminAuthMiddleware sha256 (sha256 key) headers = some key := by
  obtain ⟨v, -, hv⟩ := HeaderValue.toStr_fromStr (V := V) (isVisible_bearer h)
  have htoken : bearerToken [("authorization".toList, v)] = some key := by
    have hget : Multimap.get "authorization".toList [("authorization".toList, v)] = some v := rfl
    rw [bearerToken, hget, Option.bind_some, hv, Option.bind_some, if_pos (List.prefix_append _ _)]
    rfl
  refine ⟨[("authorization".toList, v)], ?_⟩
  rw [adminAuthMiddleware, htoken, Option.bind_some, if_pos rfl]

/-- The texts that a step brings in. -/
def InTexts (texts : Set Str) : Event V → Prop
  | .arrive _ _ headers => ∀ token ∈ bearerToken headers, token ∈ texts
  | .rotate _ random => hexEncode random ∈ texts
  | _ => True

omit [HeaderValue V] [Lowercase] in
theorem lastKey_mem {texts : Set Str} {key : Str} (hkey : key ∈ texts) [HeaderValue V]
    {es : List (Event V)} (hes : ∀ e ∈ es, InTexts texts e) : lastKey key es ∈ texts := by
  rcases lastKey_cases key es with ⟨-, heq⟩ | ⟨r, random, hmem, heq⟩
  · rw [heq]
    exact hkey
  · rw [heq]
    exact hes _ hmem

/-- The first rotation needs the key of the file. -/
theorem isVisible_of_rotation {texts : Set Str} (hinj : Set.InjOn sha256 texts) {key : Str}
    (hkey : key ∈ texts) {reload : Reload.System} {es : List (Event V)} {s : System}
    (hrun : run (step sha256 parse) (System.start (sha256 key) reload) es = some s)
    (hes : ∀ e ∈ es, InTexts texts e) (hrotation : ∃ e ∈ es, isRotation e = true) :
    IsVisibleAscii key := by
  refine run_history (I := fun (es : List (Event V)) _ =>
    (∀ e ∈ es, InTexts texts e) → (∃ e ∈ es, isRotation e = true) → IsVisibleAscii key)
    ?_ ?_ es hrun hes hrotation
  · rintro - ⟨e, he, -⟩
    exact absurd he List.not_mem_nil
  · intro es s e s' hrun ih hstep hes hrotation
    have hes' : ∀ e ∈ es, InTexts texts e := fun e he => hes e (List.mem_append_left _ he)
    by_cases hold : ∃ e ∈ es, isRotation e = true
    · exact ih hes' hold
    · -- this is the first one, and its request came while the key was the first
      obtain ⟨e', he', hrotates⟩ := hrotation
      have hlast : e' = e :=
        List.mem_singleton.mp ((List.mem_append.mp he').resolve_left fun h =>
          hold ⟨e', h, hrotates⟩)
      subst hlast
      cases move_of_step hstep with
      | rotate response hr =>
        obtain ⟨n, t, headers, token, hat, hevent, hauth⟩ := needs_run (fun _ => rfl) hrun _ _ hr
        obtain ⟨hbearer, hvisible, hhash⟩ := adminAuthMiddleware_eq_some hauth
        rw [keyHash_run hat.2] at hhash
        rcases lastKey_cases key (es.take n) with ⟨-, hfirst⟩ | ⟨r, random, hmem, -⟩
        · rw [hfirst] at hhash
          have htoken : token ∈ texts := hes' _ (List.mem_of_getElem? hevent) token hbearer
          exact hinj hkey htoken hhash ▸ hvisible
        · exact absurd ⟨_, List.mem_of_mem_take hmem, rfl⟩ hold
      | _ => cases hrotates

variable (sha256 parse) in
/-- **Whether the endpoints can be used.**  The file was read and its key is in
force.  Then after any run only the last key that was given out is let through;
and there is a request that is let through exactly if the text of the file,
without the blanks around it, can stand in a header at all. -/
theorem key_opens_iff (texts : Set Str) (hinj : Set.InjOn sha256 texts) (path content : Str)
    (hash : KeyHash) (hload : loadAdminKey sha256 path (.ok content) = .ok (some hash))
    (hkey : TokenList.trim isWhitespace content ∈ texts) (reload : Reload.System)
    (es : List (Event V)) (s : System)
    (hrun : run (step sha256 parse) (System.start hash reload) es = some s)
    (hes : ∀ e ∈ es, InTexts texts e) :
    (∀ (headers : HeaderMap V) (token : Str),
      adminAuthMiddleware sha256 s.keyHash headers = some token → token ∈ texts →
        token = lastKey (TokenList.trim isWhitespace content) es) ∧
    ((∃ headers : HeaderMap V, ∃ token ∈ texts,
        adminAuthMiddleware sha256 s.keyHash headers = some token) ↔
      IsVisibleAscii (TokenList.trim isWhitespace content)) := by
  rw [loadAdminKey_eq_some hload] at hrun
  generalize TokenList.trim isWhitespace content = key at hkey hrun
  have hhash := keyHash_run hrun
  have hlast : lastKey key es ∈ texts := lastKey_mem hkey hes
  have honly : ∀ (headers : HeaderMap V) (token : Str),
      adminAuthMiddleware sha256 s.keyHash headers = some token → token ∈ texts →
        token = lastKey key es := by
    intro headers token hauth htoken
    obtain ⟨-, -, heq⟩ := adminAuthMiddleware_eq_some hauth
    exact hinj htoken hlast (heq.symm.trans hhash)
  refine ⟨honly, ?_, fun hvisible => ?_⟩
  · rintro ⟨headers, token, htoken, hauth⟩
    rcases lastKey_cases key es with ⟨-, hfirst⟩ | ⟨r, random, hmem, -⟩
    · obtain ⟨-, hvisible, -⟩ := adminAuthMiddleware_eq_some hauth
      exact hfirst ▸ honly headers token hauth htoken ▸ hvisible
    · -- a rotation needs a request that the first key has let through
      exact isVisible_of_rotation hinj hkey hrun hes ⟨_, hmem, rfl⟩
  · have hvisible' : IsVisibleAscii (lastKey key es) := by
      rcases lastKey_cases key es with ⟨-, hfirst⟩ | ⟨r, random, -, hdrawn⟩
      · rw [hfirst]
        exact hvisible
      · rw [hdrawn]
        exact isVisible_hexEncode random
    obtain ⟨headers, hauth⟩ : ∃ headers : HeaderMap V,
        adminAuthMiddleware sha256 (sha256 (lastKey key es)) headers = some (lastKey key es) :=
      exists_header hvisible'
    exact ⟨headers, lastKey key es, hlast, hhash ▸ hauth⟩

end

open AdminKey (sampleHash sampleKey sampleTexts firstRandom injOn_sampleHash)

theorem key_opens_iff_rotation : letI := asciiLowercase; letI := textHeaderValue
    ∃ s : System, run (step sampleHash fun _ => .ok Routing.sampleConfig)
        (System.start (sampleHash sampleKey) sampleReload) oneRotation = some s ∧
      ∃ headers : HeaderMap Str, ∃ token ∈ sampleTexts,
        adminAuthMiddleware sampleHash s.keyHash headers = some token := by
  let _ := asciiLowercase
  let _ := textHeaderValue
  obtain ⟨s, hs⟩ : ∃ s, run (step sampleHash fun _ => .ok Routing.sampleConfig)
      (System.start (sampleHash sampleKey) sampleReload) oneRotation = some s := ⟨_, rfl⟩
  have htexts : ∀ e ∈ oneRotation, InTexts {text | text ∈ sampleTexts} e := by
    intro e he
    simp only [oneRotation, twoRequests, List.cons_append, List.nil_append, List.mem_cons,
      List.not_mem_nil, or_false] at he
    rcases he with rfl | rfl | rfl
    · show ∀ token ∈ bearerToken (bearer (hexEncode firstRandom)), token ∈ sampleTexts
      decide +kernel
    · show ∀ token ∈ bearerToken (bearer sampleKey), token ∈ sampleTexts
      decide +kernel
    · show hexEncode firstRandom ∈ sampleTexts
      decide +kernel
  have hvisible : IsVisibleAscii (TokenList.trim isWhitespace (sampleKey ++ ['\n'])) :=
    isVisible_of_all (by decide +kernel)
  refine ⟨s, hs, (key_opens_iff sampleHash (fun _ => .ok Routing.sampleConfig)
    {text | text ∈ sampleTexts} injOn_sampleHash ['/'] (sampleKey ++ ['\n']) (sampleHash sampleKey)
    ?_ ?_ sampleReload oneRotation s hs htexts).2.mpr hvisible⟩
  · decide +kernel
  · decide +kernel

end AdminServer
