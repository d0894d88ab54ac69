/-
The headers that a Connection header nominates.

RFC 7230 section 6.1 makes every header that a Connection value lists
connection-specific.  `removeHopByHop` goes by a fixed list of names and reads
no Connection value.

* `Nominated`, `nominated` — the names that the Connection values list;
* `Stripped` — no header with such a name is kept;
* `stripped_iff` — when a rewriting that deletes a fixed list of names has it;
* `nominated_stripped_iff` — at `removeHopByHop`, at the upstream request and at
  the response.
-/
import ReverseProxy.HeaderRewriting
import ReverseProxy.TokenList

open Text NetAddr Config Http TokenList

namespace Handler

variable {V β : Type}

/-! ### Nominated names -/

/-- A token of some Connection value is the name, in any letter case.  The
octets of a value are read by `raw`. -/
def Nominated (raw : V → Str) (headers : HeaderMap V) (name : Str) : Prop :=
  ∃ v ∈ Multimap.getAll "connection".toList headers,
    ∃ token, Lists (raw v) token ∧ token.map Char.toLower = name

def nominated (raw : V → Str) (headers : HeaderMap V) : List Str :=
  (Multimap.getAll "connection".toList headers).flatMap fun v =>
    (tokens (raw v)).map fun token => token.map Char.toLower

theorem mem_nominated_iff {raw : V → Str} {headers : HeaderMap V} {name : Str} :
    name ∈ nominated raw headers ↔ Nominated raw headers name := by
  simp only [nominated, Nominated, List.mem_flatMap, List.mem_map, mem_tokens_iff]

/-- No header that was nominated in `sent` is among those `kept`, apart from
those that the proxy writes itself. -/
def Stripped (raw : V → Str) (own : List Str) (sent kept : HeaderMap V) : Prop :=
  ∀ name, Nominated raw sent name → name ∉ own → Multimap.getAll name kept = []

/-- The headers that are nominated and present have names of the list. -/
def NominatesOnly (raw : V → Str) (names : List Str) (sent : HeaderMap V) : Prop :=
  ∀ name, Nominated raw sent name → Multimap.getAll name sent ≠ [] → name ∈ names

instance (raw : V → Str) (names : List Str) (sent : HeaderMap V) :
    Decidable (NominatesOnly raw names sent) :=
  decidable_of_iff ((nominated raw sent).all fun name =>
      (Multimap.getAll name sent).isEmpty || names.contains name) <| by
    simp only [List.all_eq_true, Bool.or_eq_true, List.isEmpty_iff, List.contains_iff_mem,
      mem_nominated_iff, NominatesOnly, or_iff_not_imp_left, ne_eq]

/-- A rewriting that deletes the names of a list and keeps all others is right
about the nominated headers just when the list has them. -/
theorem stripped_iff (raw : V → Str) {own removed : List Str} {sent kept : HeaderMap V}
    (hgone : ∀ name ∈ removed, Multimap.getAll name kept = [])
    (hkept : ∀ name, name ∉ removed → name ∉ own →
      Multimap.getAll name kept = Multimap.getAll name sent) :
    Stripped raw own sent kept ↔ NominatesOnly raw (removed ++ own) sent := by
  constructor
  · intro hstripped name hname hpresent
    rw [List.mem_append]
    by_contra hother
    obtain ⟨hremoved, hown⟩ := not_or.mp hother
    rw [← hkept name hremoved hown] at hpresent
    exact hpresent (hstripped name hname hown)
  · intro honly name hname hown
    by_cases hremoved : name ∈ removed
    · exact hgone name hremoved
    · by_contra hpresent
      rw [hkept name hremoved hown] at hpresent
      rcases List.mem_append.mp (honly name hname hpresent) with h | h
      · exact hremoved h
      · exact hown h

/-! ### The three places -/

/-- The names under which an upstream request has values of the proxy's own. -/
def ownNames : List Str := hostName :: injectedNames

theorem stripped_removeHopByHop_iff (raw : V → Str) (headers : HeaderMap V) :
    Stripped raw [] headers (removeHopByHop headers) ↔ NominatesOnly raw hopByHop headers := by
  rw [← List.append_nil hopByHop]
  refine stripped_iff raw (fun name hname => ?_) fun name hname _ => ?_
  · rw [removeHopByHop, Multimap.getAll_foldl_remove, if_pos hname]
  · rw [removeHopByHop, Multimap.getAll_foldl_remove, if_neg hname]

theorem stripped_of_prepare_iff [HeaderValue V] [Lowercase] (raw : V → Str)
    {parseUri : Str → Option Uri} {config : DynamicConfig} {remoteAddr : SocketAddr}
    {req : Request V β} {routed : Routed V β}
    (h : prepare parseUri config remoteAddr req = .ok routed) :
    Stripped raw ownNames req.headers routed.request.headers ↔
      NominatesOnly raw (hopByHop ++ ownNames) req.headers := by
  have hrewritten := rewritten_of_prepare h
  refine stripped_iff raw hrewritten.noHopByHop fun name hhop hown => ?_
  obtain ⟨hhost, hinj⟩ := not_or.mp (mt List.mem_cons.mpr hown)
  exact hrewritten.others name hinj hhop hhost

theorem stripped_forwardResponse_iff (raw : V → Str) (resp : Response V β) :
    Stripped raw [] resp.headers (forwardResponse resp).headers ↔
      NominatesOnly raw (hopByHop ++ ["server".toList]) resp.headers := by
  have hmem : ∀ name, name ∈ hopByHop ++ ["server".toList] ↔
      name ∈ hopByHop ∨ name = "server".toList := by
    intro name
    rw [List.mem_append, List.mem_singleton]
  rw [← List.append_nil (hopByHop ++ ["server".toList])]
  refine stripped_iff raw (fun name hname => ?_) fun name hname _ => ?_
  · rw [getAll_forwardResponse, if_pos ((hmem name).mp hname)]
  · rw [getAll_forwardResponse, if_neg (mt (hmem name).mpr hname)]

/-- **Nominated headers.**  `removeHopByHop` leaves no nominated header just when
those present are on its list; the request forwarded upstream has none but the
proxy's own, and the response to the client none, under the like condition on
the headers received. -/
theorem nominated_stripped_iff [HeaderValue V] [Lowercase] (raw : V → Str) :
    (∀ headers : HeaderMap V,
      Stripped raw [] headers (removeHopByHop headers) ↔ NominatesOnly raw hopByHop headers) ∧
    (∀ parseUri config remoteAddr (req : Request V β) routed,
      prepare parseUri config remoteAddr req = .ok routed →
      (Stripped raw ownNames req.headers routed.request.headers ↔
        NominatesOnly raw (hopByHop ++ ownNames) req.headers)) ∧
    ∀ remoteAddr (req : Request V β) routed t (resp : Response V β),
      Stripped raw [] resp.headers
          (answer remoteAddr req routed ⟨t, some (some (.ok resp))⟩).response.headers ↔
        NominatesOnly raw (hopByHop ++ ["server".toList]) resp.headers := by
  refine ⟨stripped_removeHopByHop_iff raw, fun parseUri config remoteAddr req routed h => ?_,
    fun remoteAddr req routed t resp => ?_⟩
  · exact stripped_of_prepare_iff raw h
  · exact stripped_forwardResponse_iff raw resp

/-- A request with a header of its own, nominated together with others. -/
def nominatingRequest (connection : Str) : Request Str Unit :=
  { requestWithHost "b.com".toList with
    headers := [(hostName, "b.com".toList), ("connection".toList, connection),
      ("te".toList, "trailers".toList), ("x-foo".toList, "1".toList)] }

theorem nominated_stripped_te : letI := asciiLowercase; letI := textHeaderValue
    ∃ routed, prepare (fun _ => some ⟨none, [], none⟩) twoSites samplePeer
        (nominatingRequest "Keep-Alive ,\tTE,, X-Real-IP".toList) = .ok routed ∧
      Nominated id (nominatingRequest "Keep-Alive ,\tTE,, X-Real-IP".toList).headers
        "te".toList ∧
      Stripped id ownNames (nominatingRequest "Keep-Alive ,\tTE,, X-Real-IP".toList).headers
        routed.request.headers := by
  let _ := asciiLowercase
  let _ := textHeaderValue
  obtain ⟨routed, hrouted⟩ : ∃ routed, prepare (fun _ => some ⟨none, [], none⟩) twoSites
      samplePeer (nominatingRequest "Keep-Alive ,\tTE,, X-Real-IP".toList) = .ok routed :=
    ⟨_, rfl⟩
  refine ⟨routed, hrouted, mem_nominated_iff.mp (by decide +kernel), ?_⟩
  refine ((nominated_stripped_iff id).2.1 _ _ _ _ routed hrouted).mpr ?_
  exact of_decide_eq_true (by decide +kernel)

/-- The nominated header reaches the upstream, and the client. -/
theorem nominated_forwarded : letI := asciiLowercase; letI := textHeaderValue
    ∃ routed, prepare (fun _ => some ⟨none, [], none⟩) twoSites samplePeer
        (nominatingRequest "close, X-Foo".toList) = .ok routed ∧
      Nominated id (nominatingRequest "close, X-Foo".toList).headers "x-foo".toList ∧
      Multimap.getAll "x-foo".toList routed.request.headers = ["1".toList] ∧
      ∀ t, Multimap.getAll "x-foo".toList
          (answer samplePeer (nominatingRequest "close, X-Foo".toList) routed ⟨t, some (some
            (.ok ⟨200, (nominatingRequest "close, X-Foo".toList).headers, ()⟩))⟩).response.headers
        = ["1".toList] := by
  let _ := asciiLowercase
  let _ := textHeaderValue
  refine ⟨_, rfl, mem_nominated_iff.mp (by decide +kernel), by decide +kernel, fun t => ?_⟩
  exact (getAll_forwardResponse _ _).trans (by decide +kernel)

end Handler
