/-
The fail2ban filter of the access log.

fail2ban searches the log for the records of answers 401 and 403 and bans the
address that it captures.  The filter begins with `.*`, so that of several
records in one line it takes the last.

* `matches_failregex4xx` — what the filter asks of a line;
* `cut_record` — where a record can stand in a text that is cut at a blank;
* `LastRecord.banned` — the last record of a line is the one that counts;
* `banned_of_record`, `banned_of_break` — with a record or a line break in its
  fields, the address does not depend on the client;
* `banned_iff_clean` — the lines by which every client is found.
-/
import ReverseProxy.NetAddrText
import ReverseProxy.Pattern

open Text AddrParser NetAddr Pattern

namespace AccessLog

/-! ### The filter -/

/-- A part of the expression that captures no address. -/
def silent (accepts : Str → Bool) : Piece (Option Char) (Option IpAddr) :=
  textGroup fun w => if accepts w then some none else none

/-- `.*` -/
def dotStar : Piece (Option Char) (Option IpAddr) := silent fun w => '\n' ∉ w

/-- `<HOST>`, the text of an IP address. -/
def hostGroup : Piece (Option Char) (Option IpAddr) :=
  textGroup fun w => (IpAddr.parse w).map some

def IsDenialCode (code : Str) : Prop := code = "401".toList ∨ code = "403".toList

instance (code : Str) : Decidable (IsDenialCode code) := inferInstanceAs (Decidable (_ ∨ _))

/-- `(401|403)` -/
def statusGroup : Piece (Option Char) (Option IpAddr) := silent fun w => IsDenialCode w

/-- `$`, the end of the line or a line break before it. -/
def lineEnd : List (Piece (Option Char) (Option IpAddr)) :=
  [silent fun w => w = [] ∨ w = ['\n'], textEnd]

/-- `prefix="REQUEST"` -/
def prefixWord : Str := "prefix=\"REQUEST\"".toList

def clientField : Str := "client_ip=".toList

/-- `prefix="REQUEST" client_ip=<HOST> .* status=(401|403) .*$` -/
def recordPieces : List (Piece (Option Char) (Option IpAddr)) :=
  textWord (prefixWord ++ ' ' :: clientField) :: hostGroup :: textWord " ".toList ::
    dotStar :: textWord " status=".toList :: statusGroup :: textWord " ".toList :: dotStar ::
    lineEnd

/-- The expression after its `^`. -/
def failregex4xx : List (Piece (Option Char) (Option IpAddr)) := dotStar :: recordPieces

/-- The address that is captured from a line; the expression is anchored at its
start. -/
def bannedAddress (line : Str) : Option IpAddr :=
  (atStart failregex4xx (marked line)).bind fun ks => ks.reduceOption.head?

theorem matches_silent {accepts : Str → Bool} {s : Str}
    {ps : List (Piece (Option Char) (Option IpAddr))} {ks : List (Option IpAddr)} :
    Matches (silent accepts :: ps) (marked s) ks ↔
      ∃ w s' ks', s = w ++ s' ∧ accepts w ∧ ks = none :: ks' ∧ Matches ps (marked s') ks' := by
  rw [silent, matches_textGroup]
  constructor
  · rintro ⟨w, s', k, ks', hs, hread, hks, hmatch⟩
    split at hread
    · next hw =>
      obtain rfl := Option.some_inj.mp hread
      exact ⟨w, s', ks', hs, hw, hks, hmatch⟩
    · exact absurd hread nofun
  · rintro ⟨w, s', ks', hs, hw, hks, hmatch⟩
    exact ⟨w, s', none, ks', hs, if_pos hw, hks, hmatch⟩

theorem matches_hostGroup {s : Str} {ps : List (Piece (Option Char) (Option IpAddr))}
    {ks : List (Option IpAddr)} :
    Matches (hostGroup :: ps) (marked s) ks ↔
      ∃ q s' ip ks', s = q ++ s' ∧ IpAddr.parse q = some ip ∧ ks = some ip :: ks' ∧
        Matches ps (marked s') ks' := by
  rw [hostGroup, matches_textGroup]
  constructor
  · rintro ⟨q, s', k, ks', hs, hread, hks, hmatch⟩
    obtain ⟨ip, hip, rfl⟩ := Option.map_eq_some_iff.mp hread
    exact ⟨q, s', ip, ks', hs, hip, hks, hmatch⟩
  · rintro ⟨q, s', ip, ks', hs, hip, hks, hmatch⟩
    exact ⟨q, s', some ip, ks', hs, by rw [hip, Option.map_some], hks, hmatch⟩

/-- What the expression asks of a line. -/
theorem matches_failregex4xx {line : Str} {ks : List (Option IpAddr)} :
    Matches failregex4xx (marked line) ks ↔
      ∃ a q b code d e ip,
        line = a ++ (prefixWord ++ ' ' :: clientField ++ (q ++ (" ".toList ++ (b ++
          (" status=".toList ++ (code ++ (" ".toList ++ (d ++ e)))))))) ∧
        '\n' ∉ a ∧ IpAddr.parse q = some ip ∧ '\n' ∉ b ∧ IsDenialCode code ∧ '\n' ∉ d ∧
        (e = [] ∨ e = ['\n']) ∧ ks = [none, some ip, none, none, none, none] := by
  constructor
  · intro h
    obtain ⟨a, s₁, ks₁, rfl, ha, rfl, h₁⟩ := matches_silent.mp h
    obtain ⟨s₂, rfl, h₂⟩ := matches_textWord.mp h₁
    obtain ⟨q, s₃, ip, ks₃, rfl, hq, rfl, h₃⟩ := matches_hostGroup.mp h₂
    obtain ⟨s₄, rfl, h₄⟩ := matches_textWord.mp h₃
    obtain ⟨b, s₅, ks₅, rfl, hb, rfl, h₅⟩ := matches_silent.mp h₄
    obtain ⟨s₆, rfl, h₆⟩ := matches_textWord.mp h₅
    obtain ⟨code, s₇, ks₇, rfl, hcode, rfl, h₇⟩ := matches_silent.mp h₆
    obtain ⟨s₈, rfl, h₈⟩ := matches_textWord.mp h₇
    obtain ⟨d, s₉, ks₉, rfl, hd, rfl, h₉⟩ := matches_silent.mp h₈
    obtain ⟨e, s, ks, rfl, he, rfl, hend⟩ := matches_silent.mp h₉
    obtain ⟨rfl, rfl⟩ := matches_textEnd.mp hend
    rw [decide_eq_true_eq] at ha hb hcode hd he
    exact ⟨a, q, b, code, d, e, ip, by rw [List.append_nil], ha, hq, hb, hcode, hd, he, rfl⟩
  · rintro ⟨a, q, b, code, d, e, ip, rfl, ha, hq, hb, hcode, hd, he, rfl⟩
    refine matches_silent.mpr ⟨a, _, _, rfl, decide_eq_true ha, rfl, ?_⟩
    refine matches_textWord.mpr ⟨_, rfl, matches_hostGroup.mpr ⟨q, _, ip, _, rfl, hq, rfl, ?_⟩⟩
    refine matches_textWord.mpr ⟨_, rfl, ?_⟩
    refine matches_silent.mpr ⟨b, _, _, rfl, decide_eq_true hb, rfl, ?_⟩
    refine matches_textWord.mpr ⟨_, rfl, ?_⟩
    refine matches_silent.mpr ⟨code, _, _, rfl, decide_eq_true hcode, rfl, ?_⟩
    refine matches_textWord.mpr ⟨_, rfl, ?_⟩
    refine matches_silent.mpr ⟨d, _, _, rfl, decide_eq_true hd, rfl, ?_⟩
    exact matches_silent.mpr ⟨e, [], _, (List.append_nil e).symm, decide_eq_true he, rfl,
      matches_textEnd.mpr ⟨rfl, rfl⟩⟩

/-! ### Records in a text -/

/-- The rest of a record: a status 401 or 403 stands in it. -/
def HasDenial (r : Str) : Prop :=
  ∃ b code d, r = b ++ ' ' :: ("status=".toList ++ (code ++ ' ' :: d)) ∧ IsDenialCode code

/-- A record from its first word on. -/
def recordAt (q r : Str) : Str := prefixWord ++ ' ' :: (clientField ++ q ++ ' ' :: r)

/-- The text holds the beginning of a record: the first word, the address and a
blank. -/
def Embeds (t : Str) : Prop := ∃ a q r ip, IpAddr.parse q = some ip ∧ t = a ++ recordAt q r

/-- A line without a break matches where a record with a denial begins. -/
theorem matches_iff_record {line : Str} (hline : '\n' ∉ line) {ks : List (Option IpAddr)} :
    Matches failregex4xx (marked line) ks ↔
      ∃ a q r ip, IpAddr.parse q = some ip ∧ line = a ++ recordAt q r ∧ HasDenial r ∧
        ks = [none, some ip, none, none, none, none] := by
  rw [matches_failregex4xx]
  constructor
  · rintro ⟨a, q, b, code, d, e, ip, hl, -, hq, -, hcode, -, -, hks⟩
    refine ⟨a, q, b ++ ' ' :: ("status=".toList ++ (code ++ ' ' :: (d ++ e))), ip, hq, ?_,
      ⟨b, code, d ++ e, rfl, hcode⟩, hks⟩
    rw [hl, recordAt]
    simp only [List.append_assoc, List.cons_append]
    rfl
  · rintro ⟨a, q, r, ip, hq, rfl, ⟨b, code, d, rfl, hcode⟩, hks⟩
    simp only [recordAt, List.mem_append, List.mem_cons, not_or] at hline
    obtain ⟨ha, -, -, -, -, hb, -, -, -, -, hd⟩ := hline
    refine ⟨a, q, b, code, d, [], ip, ?_, ha, hq, hb, hcode, hd, Or.inl rfl, hks⟩
    rw [recordAt]
    simp only [List.append_assoc, List.cons_append, List.append_nil]
    rfl

/-- Where a record stands in a text that is cut at a blank: after the cut, with
the cut after its first word, or with the cut after its address. -/
theorem cut_record {a q r x y : Str} {ip : IpAddr} (hq : IpAddr.parse q = some ip)
    (h : a ++ recordAt q r = x ++ ' ' :: y) :
    (∃ a', y = a' ++ recordAt q r) ∨ (x = a ++ prefixWord ∧ y = clientField ++ q ++ ' ' :: r) ∨
      ∃ r', x ++ [' '] = a ++ recordAt q r' ∧ r = r' ++ y := by
  have hblank : ' ' ∉ clientField ++ q := by
    rw [List.mem_append, not_or]
    exact ⟨by decide, IpAddr.not_mem_of_parse (by decide) hq⟩
  have hprefix : ' ' ∉ prefixWord := by decide
  rcases append_word_cons_eq hprefix h with ⟨a', -, hy⟩ | ⟨hx, hy⟩ | ⟨z, rfl, hz⟩
  · exact Or.inl ⟨a', hy⟩
  · exact Or.inr (Or.inl ⟨hx, hy⟩)
  · rcases append_word_cons_eq (a := []) hblank hz with ⟨a', ha', -⟩ | ⟨rfl, rfl⟩ | ⟨z', rfl, rfl⟩
    · exact absurd (List.append_eq_nil_iff.mp ha'.symm).2 (List.cons_ne_nil _ _)
    · exact Or.inr (Or.inr ⟨[], by simp [recordAt], rfl⟩)
    · exact Or.inr (Or.inr ⟨z' ++ [' '], by simp [recordAt], by simp⟩)

theorem recordAt_append (q r z : Str) : recordAt q r ++ z = recordAt q (r ++ z) := by
  simp [recordAt]

/-- No record without its quotation marks. -/
theorem quote_mem_recordAt (a q r : Str) : '"' ∈ a ++ recordAt q r :=
  List.mem_append_right a (List.mem_append_left _ (by decide))

/-- The name of a field is passed over. -/
theorem skip_name {name t a q r : Str} (hr : 'r' ∉ name) (hlast : name.getLast? ≠ some 'p')
    (h : name ++ t = a ++ recordAt q r) : ∃ a', t = a' ++ recordAt q r := by
  obtain ⟨z, hz⟩ : ∃ z, recordAt q r = 'p' :: 'r' :: z := ⟨_, rfl⟩
  rcases List.append_eq_append_iff.mp h with ⟨v, -, ht⟩ | ⟨v, rfl, hrec⟩
  · exact ⟨v, ht⟩
  · rcases v with _ | ⟨c, _ | ⟨d, v⟩⟩
    · exact ⟨[], hrec.symm⟩
    · rw [hz] at hrec
      obtain ⟨rfl, -⟩ := List.cons.inj hrec
      exact absurd (by simp) hlast
    · rw [hz] at hrec
      obtain ⟨rfl, -⟩ := List.cons.inj (List.cons.inj hrec).2
      exact absurd (by simp) hr

/-- A record in a text that begins with a field: it stands after the field, or
begins in its value. -/
theorem record_of_field {name value rest a q r : Str} {ip : IpAddr}
    (h : name ++ (value ++ ' ' :: rest) = a ++ recordAt q r) (hq : IpAddr.parse q = some ip)
    (hr : 'r' ∉ name) (hlast : name.getLast? ≠ some 'p') (hnext : ¬ clientField <+: rest) :
    (∃ a', rest = a' ++ recordAt q r) ∨
      ∃ a' r', value ++ [' '] = a' ++ recordAt q r' ∧ r = r' ++ rest := by
  obtain ⟨a', h'⟩ := skip_name hr hlast h
  rcases cut_record hq h'.symm with hafter | ⟨-, hrest⟩ | ⟨r', hvalue, hr'⟩
  · exact Or.inl hafter
  · exact absurd ⟨q ++ ' ' :: r, by rw [hrest, List.append_assoc]⟩ hnext
  · exact Or.inr ⟨a', r', hvalue, hr'⟩

/-! ### The fields of a record -/

/-- The line after the address. -/
def fields (host method path rest : Str) : Str :=
  "host=".toList ++ (host ++ ' ' :: ("method=".toList ++ (method ++ ' ' ::
    ("path=".toList ++ (path ++ ' ' :: rest)))))

theorem fields_eq (host method path : Str) :
    ∃ z, ∀ rest, fields host method path rest = z ++ ' ' :: rest := by
  refine ⟨"host=".toList ++ (host ++ ' ' :: ("method=".toList ++ (method ++ ' ' ::
    ("path=".toList ++ path)))), fun rest => ?_⟩
  unfold fields
  simp only [List.append_assoc, List.cons_append]

/-- What the rest of the line is like after the path. -/
structure Ending (rest : Str) : Prop where
  denial : ∀ z, HasDenial (z ++ ' ' :: rest)
  no_quote : '"' ∉ rest
  no_break : '\n' ∉ rest
  no_denial : ¬ HasDenial rest
  not_client : ¬ clientField <+: rest

theorem not_clientField {c : Char} (hc : c ≠ 'c') (t : Str) : ¬ clientField <+: c :: t := by
  rintro ⟨u, hu⟩
  exact hc (List.cons.inj hu).1.symm

theorem record_of_fields {host method path rest a q r : Str} {ip : IpAddr} (hrest : Ending rest)
    (hq : IpAddr.parse q = some ip) (h : fields host method path rest = a ++ recordAt q r) :
    Embeds (host ++ [' ']) ∨ Embeds (method ++ [' ']) ∨
      ∃ a' r', path ++ [' '] = a' ++ recordAt q r' ∧ r = r' ++ rest := by
  unfold fields at h
  rcases record_of_field h hq (by decide) (by decide) (not_clientField (by decide) _) with
    ⟨a₁, h₁⟩ | ⟨a₁, r₁, hhost, -⟩
  · rcases record_of_field h₁ hq (by decide) (by decide) (not_clientField (by decide) _) with
      ⟨a₂, h₂⟩ | ⟨a₂, r₂, hmethod, -⟩
    · rcases record_of_field h₂ hq (by decide) (by decide) hrest.not_client with
        ⟨a₃, h₃⟩ | hpath
      · exact absurd (h₃ ▸ quote_mem_recordAt a₃ q r) hrest.no_quote
      · exact Or.inr (Or.inr hpath)
    · exact Or.inr (Or.inl ⟨a₂, q, r₂, ip, hq, hmethod⟩)
  · exact Or.inl ⟨a₁, q, r₁, ip, hq, hhost⟩

/-- No field holds the beginning of a record.  The blank after the host or the
method may be the one that ends an address, the one after the path is not
followed by another status. -/
structure Clean (host method path : Str) : Prop where
  host_clean : ¬ Embeds (host ++ [' '])
  method_clean : ¬ Embeds (method ++ [' '])
  path_clean : ¬ Embeds path
  method_line : '\n' ∉ method
  path_line : '\n' ∉ path

/-- A record needs quotation marks. -/
theorem clean_of_no_quote {host method path : Str} (hhost : '"' ∉ host) (hmethod : '"' ∉ method)
    (hpath : '"' ∉ path) (hmethodLine : '\n' ∉ method) (hpathLine : '\n' ∉ path) :
    Clean host method path := by
  have hnone : ∀ {t : Str}, '"' ∉ t → ¬ Embeds t := by
    rintro t ht ⟨a, q, r, ip, -, rfl⟩
    exact ht (quote_mem_recordAt a q r)
  exact ⟨hnone (by simpa using hhost), hnone (by simpa using hmethod), hnone hpath, hmethodLine,
    hpathLine⟩

/-- In the fields of a clean line no record with a denial begins. -/
theorem not_hasDenial_of_clean {host method path rest a q r : Str} {ip : IpAddr}
    (hrest : Ending rest) (hclean : Clean host method path) (hq : IpAddr.parse q = some ip)
    (h : fields host method path rest = a ++ recordAt q r) : ¬ HasDenial r := by
  rcases record_of_fields hrest hq h with hhost | hmethod | ⟨a', r', hpath, rfl⟩
  · exact absurd hhost hclean.host_clean
  · exact absurd hmethod hclean.method_clean
  · rcases List.eq_nil_or_concat r' with rfl | ⟨r'', c, rfl⟩
    · exact hrest.no_denial
    · -- the blank after the path is not the one after the address
      have hcut : path ++ [' '] = (a' ++ recordAt q r'') ++ [c] := by
        rw [hpath, List.concat_eq_append, ← recordAt_append, List.append_assoc]
      exact absurd ⟨a', q, r'', ip, hq, (List.append_inj' hcut rfl).1⟩ hclean.path_clean

/-! ### The address that is banned -/

theorem break_mem_recordAt {q t : Str} {ip : IpAddr} (hq : IpAddr.parse q = some ip) :
    '\n' ∈ recordAt q t ↔ '\n' ∈ t := by
  have hword : '\n' ∉ prefixWord := by decide
  have hfield : '\n' ∉ clientField := by decide
  have hip : '\n' ∉ q := IpAddr.not_mem_of_parse (by decide) hq
  have hne : '\n' ≠ ' ' := by decide
  simp only [recordAt, List.mem_append, List.mem_cons, hword, hne, hfield, hip, false_or]

theorem break_mem_fields {host method path rest : Str} :
    '\n' ∈ fields host method path rest ↔
      '\n' ∈ host ∨ '\n' ∈ method ∨ '\n' ∈ path ∨ '\n' ∈ rest := by
  unfold fields
  simp

/-- After the address of a line: the status 401 or 403 and no other record that
has one. -/
structure LastRecord (t : Str) : Prop where
  no_break : '\n' ∉ t
  denial : HasDenial t
  not_client : ¬ clientField <+: t
  last : ∀ a q r ip, IpAddr.parse q = some ip → t = a ++ recordAt q r → ¬ HasDenial r

/-- The one record of such a line. -/
theorem LastRecord.eq_client {t a q r : Str} {client ip : IpAddr} (ht : LastRecord t)
    (hq : IpAddr.parse q = some ip) (h : recordAt client.toText t = a ++ recordAt q r)
    (hr : HasDenial r) : ip = client := by
  have hclient := IpAddr.parse_toText client
  rcases cut_record hq h.symm with ⟨a₁, h₁⟩ | ⟨-, h₁⟩ | ⟨r₁, h₁, -⟩
  · -- after the first word: in the address, or after it
    rw [List.append_assoc] at h₁
    rcases record_of_field h₁ hq (by decide) (by decide) ht.not_client with
      ⟨a₂, h₂⟩ | ⟨a₂, r₂, h₂, -⟩
    · exact absurd hr (ht.last a₂ q r ip hq h₂)
    · have hquote := quote_mem_recordAt a₂ q r₂
      rw [← h₂] at hquote
      rcases List.mem_append.mp hquote with hquote | hquote
      · exact absurd hquote (IpAddr.not_mem_of_parse (by decide) hclient)
      · exact absurd hquote (by decide)
  · -- the record itself
    rw [List.append_assoc, List.append_assoc, List.append_cancel_left_eq] at h₁
    obtain ⟨rfl, -⟩ := append_cons_inj_of_first (IpAddr.not_mem_of_parse (by decide) hclient)
      (IpAddr.not_mem_of_parse (by decide) hq) h₁
    exact Option.some_inj.mp (hq.symm.trans hclient)
  · have hlength := congrArg List.length h₁
    simp only [recordAt, List.length_append, List.length_cons, List.length_nil] at hlength
    omega

/-- What stands before the last record is of no importance. -/
theorem atStart_append {x t : Str} (hx : '\n' ∉ x) {ks : List (Option IpAddr)}
    (h : Matches failregex4xx (marked t) ks) :
    atStart failregex4xx (marked (x ++ t)) = atStart failregex4xx (marked t) := by
  refine atStart_textGroup_append (fun c hc w => ?_) h
  have hne : '\n' ≠ c := fun heq => hx (heq ▸ hc)
  simp only [List.mem_cons, hne, false_or]

/-- The last record is the one that counts, whatever stands before it. -/
theorem LastRecord.banned {t x : Str} (ht : LastRecord t) (hx : '\n' ∉ x) (client : IpAddr) :
    bannedAddress (x ++ recordAt client.toText t) = some client := by
  have hclient := IpAddr.parse_toText client
  have hline : '\n' ∉ recordAt client.toText t := by
    rw [break_mem_recordAt hclient]
    exact ht.no_break
  have hmatch := (matches_iff_record hline).mpr
    ⟨[], client.toText, t, client, hclient, rfl, ht.denial, rfl⟩
  obtain ⟨ks, hks⟩ := exists_atStart hmatch
  obtain ⟨a, q, r, ip, hq, hl, hr, rfl⟩ := (matches_iff_record hline).mp (matches_of_atStart hks)
  rw [bannedAddress, atStart_append hx hmatch, hks, Option.bind_some, ht.eq_client hq hl hr]
  rfl

theorem lastRecord_of_clean {host method path rest : Str} (hrest : Ending rest)
    (hclean : Clean host method path) (hhost : '\n' ∉ host) :
    LastRecord (fields host method path rest) where
  no_break := by
    simp only [break_mem_fields, not_or]
    exact ⟨hhost, hclean.method_line, hclean.path_line, hrest.no_break⟩
  denial := by
    obtain ⟨z, hz⟩ := fields_eq host method path
    exact hz rest ▸ hrest.denial z
  not_client := not_clientField (by decide) _
  last := fun _ _ _ _ hq h => not_hasDenial_of_clean hrest hclean hq h

/-- The record of a clean line is found. -/
theorem banned_of_clean {host method path rest : Str} (hrest : Ending rest)
    (hclean : Clean host method path) (hhost : '\n' ∉ host) (client : IpAddr) :
    bannedAddress (recordAt client.toText (fields host method path rest)) = some client :=
  (lastRecord_of_clean hrest hclean hhost).banned List.not_mem_nil client

/-- A record in the fields is found instead, whoever the client is. -/
theorem banned_of_record {t a q r : Str} {ip : IpAddr} (ht : '\n' ∉ t)
    (hq : IpAddr.parse q = some ip) (h : t = a ++ recordAt q r) (hr : HasDenial r)
    (client : IpAddr) : bannedAddress (recordAt client.toText t) = bannedAddress t := by
  have hline : recordAt client.toText t = recordAt client.toText [] ++ t := by
    rw [recordAt_append, List.nil_append]
  have hbreak : '\n' ∉ recordAt client.toText [] := by
    rw [break_mem_recordAt (IpAddr.parse_toText client)]
    exact List.not_mem_nil
  have hmatch := (matches_iff_record ht).mpr ⟨a, q, r, ip, hq, h, hr, rfl⟩
  rw [bannedAddress, hline, atStart_append hbreak hmatch, bannedAddress]

/-- A record in a field goes on to the status. -/
theorem record_of_embeds {host method path rest : Str} (hrest : Ending rest)
    (h : Embeds (host ++ [' ']) ∨ Embeds (method ++ [' ']) ∨ Embeds path) :
    ∃ a q r ip, IpAddr.parse q = some ip ∧ fields host method path rest = a ++ recordAt q r ∧
      HasDenial r := by
  have hgoes : ∀ before t z : Str, Embeds t →
      fields host method path rest = before ++ (t ++ (z ++ ' ' :: rest)) →
      ∃ a q r ip, IpAddr.parse q = some ip ∧ fields host method path rest = a ++ recordAt q r ∧
        HasDenial r := by
    rintro before t z ⟨a, q, r, ip, hq, rfl⟩ hfields
    refine ⟨before ++ a, q, r ++ (z ++ ' ' :: rest), ip, hq, ?_, ?_⟩
    · rw [hfields, ← recordAt_append]
      simp only [List.append_assoc]
    · rw [← List.append_assoc]
      exact hrest.denial _
  rcases h with hhost | hmethod | hpath
  · refine hgoes "host=".toList _
      ("method=".toList ++ (method ++ ' ' :: ("path=".toList ++ path))) hhost ?_
    unfold fields
    simp only [List.append_assoc, List.cons_append, List.nil_append]
  · refine hgoes ("host=".toList ++ (host ++ ' ' :: "method=".toList)) _
      ("path=".toList ++ path) hmethod ?_
    unfold fields
    simp only [List.append_assoc, List.cons_append, List.nil_append]
  · refine hgoes ("host=".toList ++ (host ++ ' ' :: ("method=".toList ++ (method ++ ' ' ::
      "path=".toList)))) _ [] hpath ?_
    unfold fields
    simp only [List.append_assoc, List.cons_append, List.nil_append]

/-- A line break inside the line hides it from the filter. -/
theorem banned_of_break {t : Str} (ht : '\n' ∈ t) (hlast : t.getLast? ≠ some '\n') :
    bannedAddress t = none := by
  rcases hks : atStart failregex4xx (marked t) with _ | ks
  · rw [bannedAddress, hks, Option.bind_none]
  · obtain ⟨a, q, b, code, d, e, ip, rfl, ha, hq, hb, hcode, hd, he, -⟩ :=
      matches_failregex4xx.mp (matches_of_atStart hks)
    rcases he with rfl | rfl
    · have hword : '\n' ∉ prefixWord := by decide
      have hfield : '\n' ∉ clientField := by decide
      have hip : '\n' ∉ q := IpAddr.not_mem_of_parse (by decide) hq
      have hcode' : '\n' ∉ code := by
        rcases hcode with rfl | rfl
        · decide
        · decide
      have hblank : '\n' ∉ " ".toList := by decide
      have hstatus : '\n' ∉ " status=".toList := by decide
      have hne : '\n' ≠ ' ' := by decide
      simp only [List.mem_append, List.mem_cons, List.not_mem_nil, ha, hword, hne, hfield, hip,
        hblank, hb, hstatus, hcode', hd, or_self] at ht
    · refine absurd ?_ hlast
      simp only [← List.append_assoc]
      exact List.getLast?_concat

/-- **The address of a line.**  Every client is found by its own line exactly
when no field holds the beginning of a record, and no method or path a line
break. -/
theorem banned_iff_clean {host method path rest : Str} (hrest : Ending rest)
    (hhost : '\n' ∉ host) :
    (∀ client : IpAddr,
      bannedAddress (recordAt client.toText (fields host method path rest)) = some client) ↔
      Clean host method path := by
  refine ⟨fun h => ?_, fun hclean => banned_of_clean hrest hclean hhost⟩
  let first : IpAddr := .v4 ⟨192, 0, 2, 1⟩
  let second : IpAddr := .v4 ⟨192, 0, 2, 2⟩
  have hline : '\n' ∉ fields host method path rest := by
    intro hbreak
    refine absurd (h first) ?_
    rw [banned_of_break ((break_mem_recordAt (IpAddr.parse_toText first)).mpr hbreak) ?_]
    · exact nofun
    · -- the line ends with its status
      obtain ⟨z, hz⟩ := fields_eq host method path
      rw [hz, ← List.nil_append (z ++ ' ' :: rest), ← recordAt_append, ← List.append_assoc,
        List.getLast?_append_cons]
      intro hlast
      rcases List.mem_cons.mp (List.mem_of_getLast? hlast) with hblank | hmem
      · exact absurd hblank (by decide)
      · exact hrest.no_break hmem
  have hnone : ¬ (Embeds (host ++ [' ']) ∨ Embeds (method ++ [' ']) ∨ Embeds path) := by
    -- a record in a field would be found for both clients
    intro hembeds
    obtain ⟨a, q, r, ip, hq, hfields, hr⟩ := record_of_embeds hrest hembeds
    have hfound := banned_of_record hline hq hfields hr
    have hsame : some first = some second := by
      rw [← h first, ← h second, hfound first, hfound second]
    exact absurd hsame (by decide)
  simp only [break_mem_fields, not_or] at hline hnone
  exact ⟨hnone.1, hnone.2.1, hnone.2.2, hline.2.1, hline.2.2.1⟩

end AccessLog
