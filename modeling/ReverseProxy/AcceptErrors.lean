/-
The log of failed accepts.

An error on accepting a connection comes back at once as long as its cause
lasts, so the lines about it are rationed: for each error text there is one at
once and then one every ten seconds at most, which tells how many calls there
have been in between.

* `log_cases` — what a call does, the only place where it is unfolded;
* `reportAll_entry`, `reportAll_lines` — the reporter seen from one text;
* `logAll_conserves`, `logAll_spaced` — nothing goes uncounted, and the lines
  keep their distance;
* `accept_errors_accounted` — the accounts of the reporter;
* `handleAll_eq` — of the accept loop only the transient errors are not
  reported.
-/
import ReverseProxy.Text

open Text

namespace AcceptErrors

/-! ### Errors -/

/-- The kinds that the accept loop tells apart. -/
inductive ErrorKind where
  | wouldBlock
  | interrupted
  | connectionAborted
  | other
  deriving DecidableEq, Repr

structure IoError where
  kind : ErrorKind
  rawOsError : Option ℤ
  text : Str
  deriving DecidableEq, Repr

def emfile : ℤ := 24
def enfile : ℤ := 23
def enobufs : ℤ := 105
def enomem : ℤ := 12

def isTransientAcceptError (e : IoError) : Bool :=
  e.kind == .wouldBlock || e.kind == .interrupted

def isResourceAcceptError (e : IoError) : Bool :=
  e.kind == .connectionAborted || e.rawOsError == some emfile || e.rawOsError == some enfile ||
    e.rawOsError == some enobufs || e.rawOsError == some enomem

/-! ### Reports -/

def acceptBackoffResourceMs : UInt64 := 1000
def acceptBackoffOtherMs : UInt64 := 100

/-- In seconds. -/
def acceptErrorSuppress : ℚ := 10

structure AcceptErrorReport where
  lastLog : Option ℚ
  suppressed : UInt64
  deriving DecidableEq

def AcceptErrorReport.new : AcceptErrorReport := ⟨none, 0⟩

/-- A call, with the moments at which the clock is read for the elapsed time,
the line is written if there is one, and the clock is read again. -/
structure Call where
  error : IoError
  elapsedAt : ℚ
  writtenAt : ℚ
  loggedAt : ℚ
  elapsedAt_le : elapsedAt ≤ writtenAt
  writtenAt_le : writtenAt ≤ loggedAt

/-- The two forms of the line. -/
inductive Message where
  | first (error : Str)
  | summary (error : Str) (suppressed backoffMs : UInt64)
  deriving DecidableEq, Repr

def Message.error : Message → Str
  | first error => error
  | summary error _ _ => error

def Message.suppressed : Message → ℕ
  | first _ => 0
  | summary _ suppressed _ => suppressed.toNat

structure Line where
  writtenAt : ℚ
  message : Message
  deriving DecidableEq

def AcceptErrorReport.log (r : AcceptErrorReport) (call : Call) :
    AcceptErrorReport × Option Line :=
  let suppressed := r.suppressed + 1
  let shouldEmit :=
    match r.lastLog with
    | none => true
    -- `elapsed` saturates at zero
    | some t => decide (acceptErrorSuppress ≤ (call.elapsedAt - t) ⊔ 0)
  if shouldEmit then
    let message :=
      if r.lastLog.isSome then
        Message.summary call.error.text (suppressed - 1) acceptBackoffResourceMs
      else Message.first call.error.text
    (⟨some call.loggedAt, 0⟩, some ⟨call.writtenAt, message⟩)
  else (⟨r.lastLog, suppressed⟩, none)

/-- `HashMap<String, AcceptErrorReport>`. -/
structure AcceptErrorReporter where
  reports : Str → Option AcceptErrorReport

def AcceptErrorReporter.new : AcceptErrorReporter := ⟨fun _ => none⟩

/-- `entry(key).or_insert_with(AcceptErrorReport::new)`. -/
def AcceptErrorReporter.entry (r : AcceptErrorReporter) (key : Str) : AcceptErrorReport :=
  (r.reports key).getD AcceptErrorReport.new

def AcceptErrorReporter.report (r : AcceptErrorReporter) (call : Call) :
    AcceptErrorReporter × Option Line :=
  let key := call.error.text
  let logged := (r.entry key).log call
  (⟨Function.update r.reports key (some logged.1)⟩, logged.2)

/-- A sequence of calls, and the lines they leave. -/
def AcceptErrorReporter.reportAll :
    AcceptErrorReporter → List Call → AcceptErrorReporter × List Line
  | r, [] => (r, [])
  | r, call :: calls =>
    (reportAll (r.report call).1 calls).map id ((r.report call).2.toList ++ ·)

/-! ### What a call does -/

theorem acceptErrorSuppress_pos : 0 < acceptErrorSuppress := by norm_num [acceptErrorSuppress]

/-- A call within ten seconds of the last line. -/
theorem log_of_recent {r : AcceptErrorReport} {call : Call} {t : ℚ} (hlast : r.lastLog = some t)
    (hshort : call.elapsedAt < t + acceptErrorSuppress) :
    r.log call = (⟨some t, r.suppressed + 1⟩, none) := by
  have hpos := acceptErrorSuppress_pos
  have hnot : ¬ acceptErrorSuppress ≤ (call.elapsedAt - t) ⊔ 0 := by
    rw [le_sup_iff]
    rintro (hle | hle)
    · linarith
    · linarith
  simp only [AcceptErrorReport.log, hlast, decide_eq_false hnot, Bool.false_eq_true, if_false]

/-- The first call, one after ten seconds, and one before. -/
theorem log_cases (r : AcceptErrorReport) (call : Call) :
    (r.lastLog = none ∧
      r.log call = (⟨some call.loggedAt, 0⟩, some ⟨call.writtenAt, .first call.error.text⟩)) ∨
    (∃ t, r.lastLog = some t ∧ t + acceptErrorSuppress ≤ call.elapsedAt ∧
      r.log call = (⟨some call.loggedAt, 0⟩, some ⟨call.writtenAt,
        .summary call.error.text r.suppressed acceptBackoffResourceMs⟩)) ∨
    ∃ t, r.lastLog = some t ∧ r.log call = (⟨some t, r.suppressed + 1⟩, none) := by
  obtain ⟨lastLog, suppressed⟩ := r
  cases lastLog with
  | none => exact Or.inl ⟨rfl, rfl⟩
  | some t =>
    right
    by_cases hlong : t + acceptErrorSuppress ≤ call.elapsedAt
    · left
      refine ⟨t, rfl, hlong, ?_⟩
      have hemit : acceptErrorSuppress ≤ (call.elapsedAt - t) ⊔ 0 :=
        le_sup_of_le_left (le_sub_iff_add_le'.mpr hlong)
      simp only [AcceptErrorReport.log, decide_eq_true hemit, if_true, Option.isSome_some]
      -- the call itself was counted before the decision
      rw [UInt64.add_sub_cancel]
    · exact Or.inr ⟨t, rfl, log_of_recent rfl (not_le.mp hlong)⟩

/-! ### One text -/

/-- The calls with one text. -/
def AcceptErrorReport.logAll : AcceptErrorReport → List Call → AcceptErrorReport × List Line
  | r, [] => (r, [])
  | r, call :: calls => (logAll (r.log call).1 calls).map id ((r.log call).2.toList ++ ·)

/-- The suppressed calls that the lines tell of. -/
def carried (lines : List Line) : ℕ := (lines.map fun line => line.message.suppressed).sum

theorem carried_append (ls ls' : List Line) : carried (ls ++ ls') = carried ls + carried ls' := by
  rw [carried, List.map_append, List.sum_append]
  rfl

theorem logAll_cons (r : AcceptErrorReport) (call : Call) (calls : List Call) :
    r.logAll (call :: calls) = (((r.log call).1.logAll calls).1,
      (r.log call).2.toList ++ ((r.log call).1.logAll calls).2) := rfl

/-- The number of suppressed calls starts at zero. -/
def AcceptErrorReport.Fresh (r : AcceptErrorReport) : Prop := r.lastLog = none → r.suppressed = 0

theorem lastLog_log (r : AcceptErrorReport) (call : Call) :
    ∃ t, (r.log call).1.lastLog = some t := by
  rcases log_cases r call with ⟨-, hlog⟩ | ⟨t, -, -, hlog⟩ | ⟨t, -, hlog⟩
  · exact ⟨call.loggedAt, by rw [hlog]⟩
  · exact ⟨call.loggedAt, by rw [hlog]⟩
  · exact ⟨t, by rw [hlog]⟩

theorem fresh_log (r : AcceptErrorReport) (call : Call) : (r.log call).1.Fresh := by
  intro hnone
  obtain ⟨t, ht⟩ := lastLog_log r call
  exact absurd (ht.symm.trans hnone) (Option.some_ne_none t)

/-- A call is in a line, or joins the suppressed ones; the counter has 64
bits. -/
theorem log_conserves {r : AcceptErrorReport} (hr : r.Fresh) (call : Call) :
    ∃ wraps, r.suppressed.toNat + 1 = (r.log call).2.toList.length
      + carried (r.log call).2.toList + (r.log call).1.suppressed.toNat + 2 ^ 64 * wraps := by
  rcases log_cases r call with ⟨hnone, hlog⟩ | ⟨t, -, -, hlog⟩ | ⟨t, -, hlog⟩
  · refine ⟨0, ?_⟩
    rw [hlog, hr hnone]
    rfl
  · refine ⟨0, ?_⟩
    rw [hlog]
    show r.suppressed.toNat + 1 = 1 + (r.suppressed.toNat + 0) + 0 + 2 ^ 64 * 0
    omega
  · rw [hlog]
    refine ⟨(r.suppressed.toNat + 1) / 2 ^ 64, ?_⟩
    show r.suppressed.toNat + 1 = 0 + 0 + (r.suppressed + 1).toNat + _
    have hadd : (r.suppressed + 1).toNat = (r.suppressed.toNat + 1) % 2 ^ 64 :=
      UInt64.toNat_add ..
    rw [hadd]
    omega

theorem logAll_conserves (calls : List Call) : ∀ {r : AcceptErrorReport}, r.Fresh →
    ∃ wraps, r.suppressed.toNat + calls.length = (r.logAll calls).2.length
      + carried (r.logAll calls).2 + (r.logAll calls).1.suppressed.toNat + 2 ^ 64 * wraps := by
  induction calls with
  | nil =>
    intro r _
    refine ⟨0, ?_⟩
    show r.suppressed.toNat + 0 = 0 + 0 + r.suppressed.toNat + 2 ^ 64 * 0
    omega
  | cons call calls ih =>
    intro r hr
    obtain ⟨m, hm⟩ := log_conserves hr call
    obtain ⟨n, hn⟩ := ih (fresh_log r call)
    refine ⟨m + n, ?_⟩
    rw [logAll_cons, List.length_cons, List.length_append, carried_append]
    simp only
    omega

/-- The lines keep their distance, from each other and from the one before. -/
theorem logAll_spaced (calls : List Call) : ∀ r : AcceptErrorReport,
    (∀ t, r.lastLog = some t → ∀ line ∈ (r.logAll calls).2,
      t + acceptErrorSuppress ≤ line.writtenAt) ∧
    (r.logAll calls).2.Pairwise fun a b => a.writtenAt + acceptErrorSuppress ≤ b.writtenAt := by
  induction calls with
  | nil =>
    intro r
    exact ⟨fun t _ line hline => absurd hline List.not_mem_nil, List.Pairwise.nil⟩
  | cons call calls ih =>
    intro r
    obtain ⟨hlater, hspaced⟩ := ih (r.log call).1
    have hpos := acceptErrorSuppress_pos
    have helapsed := call.elapsedAt_le
    have hwritten := call.writtenAt_le
    rw [logAll_cons]
    rcases log_cases r call with ⟨hnone, hlog⟩ | ⟨t, hlast, hlong, hlog⟩ | ⟨t, hlast, hlog⟩
    · rw [hlog] at hlater hspaced ⊢
      refine ⟨fun t ht => ?_, List.pairwise_cons.mpr ⟨fun line hline => ?_, hspaced⟩⟩
      · exact absurd (ht.symm.trans hnone) (Option.some_ne_none t)
      · have := hlater _ rfl line hline
        show call.writtenAt + _ ≤ _
        linarith
    · rw [hlog] at hlater hspaced ⊢
      refine ⟨fun t' ht line hline => ?_,
        List.pairwise_cons.mpr ⟨fun line hline => ?_, hspaced⟩⟩
      · obtain rfl : t = t' := Option.some_inj.mp (hlast.symm.trans ht)
        rcases List.mem_cons.mp hline with rfl | hline
        · show t + _ ≤ call.writtenAt
          linarith
        · have := hlater _ rfl line hline
          linarith
      · have := hlater _ rfl line hline
        show call.writtenAt + _ ≤ _
        linarith
    · rw [hlog] at hlater hspaced ⊢
      exact ⟨fun t' ht => hlater t' (by rw [← ht, hlast]), hspaced⟩

/-! ### The reporter -/

/-- The lines about one text. -/
def linesFor (text : Str) (lines : List Line) : List Line :=
  lines.filter fun line => line.message.error = text

def callsFor (text : Str) (calls : List Call) : List Call :=
  calls.filter fun call => call.error.text = text

theorem callsFor_cons (text : Str) (call : Call) (calls : List Call) :
    callsFor text (call :: calls)
      = if call.error.text = text then call :: callsFor text calls else callsFor text calls := by
  simp only [callsFor, List.filter_cons, decide_eq_true_eq]

theorem error_of_log {r : AcceptErrorReport} {call : Call} :
    ∀ line ∈ (r.log call).2.toList, line.message.error = call.error.text := by
  intro line hline
  rcases log_cases r call with ⟨-, hlog⟩ | ⟨t, -, -, hlog⟩ | ⟨t, -, hlog⟩
  · rw [hlog] at hline
    obtain rfl := List.mem_singleton.mp hline
    rfl
  · rw [hlog] at hline
    obtain rfl := List.mem_singleton.mp hline
    rfl
  · rw [hlog] at hline
    exact absurd hline List.not_mem_nil

theorem reportAll_cons (r : AcceptErrorReporter) (call : Call) (calls : List Call) :
    r.reportAll (call :: calls) = (((r.report call).1.reportAll calls).1,
      (r.report call).2.toList ++ ((r.report call).1.reportAll calls).2) := rfl

theorem entry_report (r : AcceptErrorReporter) (call : Call) (text : Str) :
    (r.report call).1.entry text
      = if call.error.text = text then ((r.entry text).log call).1 else r.entry text := by
  rw [AcceptErrorReporter.report, AcceptErrorReporter.entry]
  by_cases htext : call.error.text = text
  · subst htext
    rw [if_pos rfl]
    simp only [Function.update_self, Option.getD_some]
  · rw [if_neg htext]
    simp only [Function.update_of_ne (Ne.symm htext)]
    rfl

/-- Calls with other texts do not matter for the report of one. -/
theorem reportAll_entry (calls : List Call) (text : Str) : ∀ r : AcceptErrorReporter,
    (r.reportAll calls).1.entry text = ((r.entry text).logAll (callsFor text calls)).1 := by
  induction calls with
  | nil => exact fun r => rfl
  | cons call calls ih =>
    intro r
    rw [reportAll_cons]
    simp only
    rw [ih, entry_report, callsFor_cons]
    by_cases htext : call.error.text = text
    · rw [if_pos htext, if_pos htext, logAll_cons]
    · rw [if_neg htext, if_neg htext]

theorem reportAll_lines (calls : List Call) (text : Str) : ∀ r : AcceptErrorReporter,
    linesFor text (r.reportAll calls).2
      = ((r.entry text).logAll (callsFor text calls)).2 := by
  induction calls with
  | nil => exact fun r => rfl
  | cons call calls ih =>
    intro r
    have hreport : (r.report call).2 = ((r.entry call.error.text).log call).2 := rfl
    rw [reportAll_cons]
    simp only [linesFor, List.filter_append]
    rw [← linesFor, ← linesFor, ih, entry_report, hreport, callsFor_cons]
    by_cases htext : call.error.text = text
    · subst htext
      have hall : linesFor call.error.text ((r.entry call.error.text).log call).2.toList
          = ((r.entry call.error.text).log call).2.toList :=
        List.filter_eq_self.mpr fun line hline => decide_eq_true (error_of_log line hline)
      rw [if_pos rfl, if_pos rfl, logAll_cons, hall]
    · have hnone : linesFor text ((r.entry call.error.text).log call).2.toList = [] :=
        List.filter_eq_nil_iff.mpr fun line hline heq =>
          htext ((error_of_log line hline).symm.trans (of_decide_eq_true heq))
      rw [if_neg htext, if_neg htext, hnone, List.nil_append]

theorem countP_eq_length_callsFor (calls : List Call) (text : Str) :
    calls.countP (fun call => call.error.text = text) = (callsFor text calls).length :=
  List.countP_eq_length_filter

/-- **Accept errors are accounted for.**  For every error text the calls are those
that the lines about it stand for, those that they tell of, and those that are
still suppressed, up to the size of the counter.  The first call is written down
at once, and two lines are at least ten seconds apart. -/
theorem accept_errors_accounted (calls : List Call) (text : Str) :
    (calls.countP (fun call => call.error.text = text) ≡
      (linesFor text (AcceptErrorReporter.new.reportAll calls).2).length
        + carried (linesFor text (AcceptErrorReporter.new.reportAll calls).2)
        + ((AcceptErrorReporter.new.reportAll calls).1.entry text).suppressed.toNat
      [MOD 2 ^ 64]) ∧
    (calls.countP (fun call => call.error.text = text) < 2 ^ 64 →
      calls.countP (fun call => call.error.text = text)
        = (linesFor text (AcceptErrorReporter.new.reportAll calls).2).length
          + carried (linesFor text (AcceptErrorReporter.new.reportAll calls).2)
          + ((AcceptErrorReporter.new.reportAll calls).1.entry text).suppressed.toNat) ∧
    (∀ earlier call later, calls = earlier ++ call :: later → call.error.text = text →
      (∀ c ∈ earlier, c.error.text ≠ text) →
      ((AcceptErrorReporter.new.reportAll earlier).1.report call).2
        = some ⟨call.writtenAt, .first text⟩) ∧
    (linesFor text (AcceptErrorReporter.new.reportAll calls).2).Pairwise
      fun a b => a.writtenAt + 10 ≤ b.writtenAt := by
  have hnew : AcceptErrorReporter.new.entry text = AcceptErrorReport.new := rfl
  obtain ⟨wraps, hwraps⟩ := logAll_conserves (callsFor text calls) (r := .new) fun _ => rfl
  rw [countP_eq_length_callsFor, reportAll_lines, reportAll_entry, hnew]
  have hzero : AcceptErrorReport.new.suppressed.toNat = 0 := rfl
  rw [hzero, zero_add] at hwraps
  refine ⟨?_, fun hlt => ?_, ?_, (logAll_spaced _ _).2⟩
  · rw [hwraps]
    exact Nat.ModEq.symm (Nat.modEq_iff_dvd' (Nat.le_add_right ..) |>.mpr
      ⟨wraps, Nat.add_sub_cancel_left ..⟩)
  · omega
  · rintro earlier call later - rfl hother
    have hfilter : callsFor call.error.text earlier = [] := by
      rw [callsFor, List.filter_eq_nil_iff]
      exact fun c hc heq => hother c hc (of_decide_eq_true heq)
    rw [AcceptErrorReporter.report]
    simp only
    rw [reportAll_entry, hfilter]
    rfl

/-- A call on running out of file descriptors. -/
def sampleCall (moment : ℚ) : Call :=
  ⟨⟨.other, some emfile, "Too many open files (os error 24)".toList⟩, moment, moment, moment,
    le_refl moment, le_refl moment⟩

/-- Three lines: the first, the one that tells of the second call, and the one
that comes an hour later. -/
theorem accept_errors_accounted_sample :
    (([0, 1, 11, 3600].map sampleCall).countP
        fun call => call.error.text = (sampleCall 0).error.text) < 2 ^ 64 ∧
    ([0, 1, 11, 3600].map sampleCall).countP
        (fun call => call.error.text = (sampleCall 0).error.text)
      = (linesFor (sampleCall 0).error.text
          (AcceptErrorReporter.new.reportAll ([0, 1, 11, 3600].map sampleCall)).2).length
        + carried (linesFor (sampleCall 0).error.text
          (AcceptErrorReporter.new.reportAll ([0, 1, 11, 3600].map sampleCall)).2)
        + ((AcceptErrorReporter.new.reportAll ([0, 1, 11, 3600].map sampleCall)).1.entry
          (sampleCall 0).error.text).suppressed.toNat :=
  ⟨by decide, (accept_errors_accounted _ _).2.1 (by decide)⟩

/-- Calls at one moment only make the counter grow. -/
theorem logAll_replicate (n : ℕ) : ∀ r : AcceptErrorReport, r.lastLog = some 0 →
    r.logAll (List.replicate n (sampleCall 0))
      = (⟨some 0, r.suppressed + UInt64.ofNat n⟩, []) := by
  induction n with
  | zero =>
    intro r hlast
    have hzero : r.suppressed + UInt64.ofNat 0 = r.suppressed := UInt64.add_zero _
    rw [hzero, ← hlast]
    rfl
  | succ n ih =>
    intro r hlast
    have hlog : r.log (sampleCall 0) = (⟨some 0, r.suppressed + 1⟩, none) :=
      log_of_recent hlast (by rw [zero_add]; exact acceptErrorSuppress_pos)
    rw [List.replicate_succ, logAll_cons, hlog]
    simp only
    rw [ih _ rfl, UInt64.ofNat_add, UInt64.add_comm (UInt64.ofNat n), ← UInt64.add_assoc]
    rfl

/-- The first call leaves a line, and the others at that moment none. -/
theorem reportAll_replicate (n : ℕ) :
    linesFor (sampleCall 0).error.text (AcceptErrorReporter.new.reportAll
        (List.replicate (n + 1) (sampleCall 0))).2 = [⟨0, .first (sampleCall 0).error.text⟩] ∧
    ((AcceptErrorReporter.new.reportAll (List.replicate (n + 1) (sampleCall 0))).1.entry
      (sampleCall 0).error.text).suppressed = UInt64.ofNat n := by
  have hcalls : callsFor (sampleCall 0).error.text (List.replicate (n + 1) (sampleCall 0))
      = List.replicate (n + 1) (sampleCall 0) :=
    List.filter_eq_self.mpr fun c hc => decide_eq_true (by rw [List.eq_of_mem_replicate hc])
  have hlog : (AcceptErrorReporter.new.entry (sampleCall 0).error.text).log (sampleCall 0)
      = (⟨some 0, 0⟩, some ⟨0, .first (sampleCall 0).error.text⟩) := rfl
  rw [reportAll_lines, reportAll_entry, hcalls, List.replicate_succ, logAll_cons, hlog]
  simp only
  rw [logAll_replicate n _ rfl]
  exact ⟨rfl, UInt64.zero_add _⟩

/-- The counter has 64 bits: calls at one moment that fill it are not accounted
for. -/
theorem accept_errors_wrap :
    (List.replicate (2 ^ 64 + 1) (sampleCall 0)).Pairwise
      (fun a b => a.loggedAt ≤ b.elapsedAt) ∧
    (List.replicate (2 ^ 64 + 1) (sampleCall 0)).countP
        (fun call => call.error.text = (sampleCall 0).error.text) = 2 ^ 64 + 1 ∧
    (linesFor (sampleCall 0).error.text (AcceptErrorReporter.new.reportAll
        (List.replicate (2 ^ 64 + 1) (sampleCall 0))).2).length
      + carried (linesFor (sampleCall 0).error.text (AcceptErrorReporter.new.reportAll
        (List.replicate (2 ^ 64 + 1) (sampleCall 0))).2)
      + ((AcceptErrorReporter.new.reportAll (List.replicate (2 ^ 64 + 1) (sampleCall 0))).1.entry
        (sampleCall 0).error.text).suppressed.toNat = 1 := by
  obtain ⟨hlines, hpending⟩ := reportAll_replicate (2 ^ 64)
  refine ⟨List.pairwise_replicate.mpr (Or.inr (le_refl 0)), ?_, ?_⟩
  · rw [List.countP_replicate, if_pos (decide_eq_true rfl)]
  · rw [hlines, hpending]
    decide

/-! ### The accept loop -/

/-- What the accept loop does about an error: the report, and how long it
sleeps. -/
def handleAcceptError (r : AcceptErrorReporter) (call : Call) :
    AcceptErrorReporter × Option Line × Option UInt64 :=
  if isTransientAcceptError call.error then (r, none, none)
  else
    let reported := r.report call
    (reported.1, reported.2, some <|
      if isResourceAcceptError call.error then acceptBackoffResourceMs else acceptBackoffOtherMs)

def handleAll : AcceptErrorReporter → List Call → AcceptErrorReporter × List Line
  | r, [] => (r, [])
  | r, call :: calls =>
    (handleAll (handleAcceptError r call).1 calls).map id
      ((handleAcceptError r call).2.1.toList ++ ·)

theorem handleAll_eq (calls : List Call) : ∀ r : AcceptErrorReporter,
    handleAll r calls
      = r.reportAll (calls.filter fun call => !isTransientAcceptError call.error) := by
  induction calls with
  | nil => exact fun r => rfl
  | cons call calls ih =>
    intro r
    by_cases htransient : isTransientAcceptError call.error = true
    · rw [List.filter_cons_of_neg (by simp [htransient]), handleAll, handleAcceptError,
        if_pos htransient, ih]
      rfl
    · rw [List.filter_cons_of_pos (by simp [htransient]), handleAll, handleAcceptError,
        if_neg htransient, ih]
      rfl

end AcceptErrors
