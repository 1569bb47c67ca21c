import HttpsDnsProxy.Logging

/-!
# The journal of the log

`Journal` is what logging is for : the lines logged so far, and the lines to be read in the log,
from the level on. It has no buffers, no slots and no streams. A dump shows the latest lines of
all levels, and a fatal line is followed by a dump and ends the process.

A logger refines the journal (`Journals`, `Journals.step`). After any run, the stream holds the
lines of the journal and the recorder the latest ones. Something is left in the buffer of the
stream only below `LOG_WARNING`, while the process goes on, and as long as `SIGUSR2` is waited
for the timer that flushes it is active (`logging_journal`).
-/

namespace HttpsDnsProxy

/-! ## The journal -/

/-- What logging is for : the lines logged so far, those to be read in the log, whether
`SIGUSR2` is waited for and whether it has asked for a dump, and whether the process has
ended. -/
structure Journal where
  lines : List CString
  output : List CString
  watching : Bool
  dumpDue : Bool
  ended : Bool

namespace Journal

/-- Nothing has been logged. -/
def empty : Journal :=
  ⟨[], [], false, false, false⟩

variable (level : ℤ) (size : ℕ) (j : Journal)

/-- The latest lines are shown. -/
def dump : Journal :=
  { j with output := j.output ++ j.lines.rtake size }

/-- A line is logged. A fatal one is followed by the latest lines, and nothing else. -/
def log (sev : LogSeverity) (line : CString) : Journal :=
  if sev.value < level ∧ size = 0 then j
  else
    let j := { j with lines := j.lines ++ [line] }
    if sev.value < level then j
    else
      let j := { j with output := j.output ++ [line] }
      if sev = .fatal then { j.dump size with ended := true } else j

theorem ended_log {sev : LogSeverity} (hsev : sev ≠ .fatal) (line : CString) :
    (j.log level size sev line).ended = j.ended := by
  unfold log
  split_ifs <;> rfl

/-- `FLOG` : a fatal line, behind which the process ends in any case. -/
def flog (line : CString) : Journal :=
  { j.log level size .fatal line with ended := true }

/-- The dump that `SIGUSR2` asks for. -/
def requestedDump (sys : LogSystem) : Journal :=
  if size = 0 then j.log level size .info (logText sys .info disabledCall)
  else (j.log level size .info (logText sys .info dumpCall)).dump size

/-- What an event comes to. -/
def step (j : Journal) (e : LogEvent) : Journal :=
  if j.ended then j
  else
    match e with
    | .log sys severity call =>
      match LogSeverity.ofInt severity with
      | some sev => j.log level size sev (logText sys sev call)
      | none =>
        if severity < level ∧ size = 0 then j
        else j.flog level size (logText sys .fatal (unknownCall severity))
    | .flog sys call => j.flog level size (logText sys .fatal call)
    | .timer => j
    | .sigusr2 => if j.watching then { j with dumpDue := true } else j
    | .async sys =>
      if j.watching && j.dumpDue then
        ({ j with dumpDue := false } : Journal).requestedDump level size sys
      else j
    | .eventsInit sys sys' =>
      let j :=
        if level < LogSeverity.flushLevel.value then
          j.log level size .debug (logText sys .debug flushTimerCall)
        else j
      { j.log level size .debug (logText sys' .debug sigusr2Call) with watching := true }
    | .eventsCleanup => { j with watching := false }

end Journal

/-! ## The logger refines the journal -/

/-- The recorder holds the latest lines. Without a recorder there is nothing to hold. -/
def Records (size : ℕ) (lines : List CString) : Option RingBuffer → Prop
  | none => size = 0
  | some rb => 0 < size ∧ rb.Latest size (lines.map RingBuffer.stored)

namespace Records

variable {size : ℕ} {lines : List CString} {recorder : Option RingBuffer}

theorem isNone_iff (h : Records size lines recorder) : recorder.isNone = true ↔ size = 0 := by
  cases recorder with
  | none => exact iff_of_true rfl h
  | some rb => exact iff_of_false Bool.false_ne_true h.1.ne'

theorem pushBack (h : Records size lines recorder) (line : CString) :
    Records size (lines ++ [line]) (recorder.map fun rb => rb.ringBufferPushBack line true) := by
  cases recorder with
  | none => exact h
  | some rb =>
    have hpush : (rb.ringBufferPushBack line true).Latest size
        ((lines ++ [line]).map RingBuffer.stored) := by
      rw [RingBuffer.ringBufferPushBack_eq_push, List.map_append]
      exact h.2.push _
    exact ⟨h.1, hpush⟩

/-- A dump prints the latest lines. -/
theorem ringBufferDump {rb : RingBuffer} (h : Records size lines (some rb))
    (hlines : ∀ line ∈ lines, CStrings.nul ∉ line ∧ line.length < logLineSize) :
    ((rb.ringBufferDump rb.storage.length).getD []).map (·.getD "(null)".toList) =
      lines.rtake size := by
  rw [RingBuffer.ringBufferDump_eq rb le_rfl, h.2.entries_eq, CircularBuffer.rtake_map,
    Option.getD_some, List.map_map, List.map_map]
  have hself : ∀ line ∈ lines.rtake size,
      (((RingBuffer.stored line).map CStrings.text).getD "(null)".toList) = line := by
    intro line hline
    obtain ⟨hnul, hlength⟩ := hlines line (List.mem_of_mem_drop hline)
    rw [RingBuffer.text_stored hnul, Option.getD_some, RingBuffer.cut,
      List.take_of_length_le (hlength.le.trans (by decide))]
  exact (List.map_congr_left hself).trans (List.map_id _)

end Records

/-- The logger has done what the journal says. -/
structure Journals (level : ℤ) (size : ℕ) (s : Logger) (j : Journal) : Prop where
  stream : ∃ f, s.logfile = some f ∧ f.printed = unlines j.output ∧
    (LogSeverity.flushLevel.value ≤ level ∨ j.ended = true → f.buffered = [])
  loglevel : s.loglevel = level
  recorder : Records size j.lines s.flightRecorder
  lines : ∀ line ∈ j.lines, CStrings.nul ∉ line ∧ line.length < logLineSize
  ended : s.ended = if j.ended then some .exited else none
  closed : s.closed = []
  sigusr2 : s.sigusr2 = j.watching
  async : s.flightRecorderAsync = j.watching
  timer : j.watching = true → level < LogSeverity.flushLevel.value → s.loggingTimer = true
  asyncSent : s.asyncSent = j.dumpDue

namespace Journals

variable {level : ℤ} {size : ℕ} {s : Logger} {j : Journal} {sys sys' : LogSystem}
  {sev : LogSeverity} {call : LogCall}

theorem not_ended (h : Journals level size s j) (hj : j.ended = false) :
    s.ended.isSome = false := by
  rw [h.ended, hj]
  rfl

theorem ignores_iff (h : Journals level size s j) (severity : ℤ) :
    s.ignores severity = true ↔ severity < level ∧ size = 0 := by
  rw [Logger.ignores, decide_eq_true_iff, h.loglevel, h.recorder.isNone_iff]

/-- Lines that are printed, and flushed where they must be. -/
theorem print (h : Journals level size s j) {f f' : LogStream} (hf : s.logfile = some f)
    {lines : List CString} (hprinted : f'.printed = f.printed ++ unlines lines)
    (hbuffered : LogSeverity.flushLevel.value ≤ level ∨ j.ended = true → f'.buffered = []) :
    Journals level size { s with logfile := some f' } { j with output := j.output ++ lines } where
  stream := by
    obtain ⟨g, hg, hout, -⟩ := h.stream
    obtain rfl := Option.some.inj (hf.symm.trans hg)
    exact ⟨f', rfl, by rw [hprinted, hout, unlines_append], hbuffered⟩
  loglevel := h.loglevel
  recorder := h.recorder
  lines := h.lines
  ended := h.ended
  closed := h.closed
  sigusr2 := h.sigusr2
  async := h.async
  timer := h.timer
  asyncSent := h.asyncSent

theorem fflush (h : Journals level size s j) : Journals level size s.fflush j := by
  obtain ⟨f, hf, -, -⟩ := h.stream
  have hprinted : f.fflush.printed = f.printed ++ unlines [] := by simp [unlines]
  have hflushed := h.print hf hprinted fun _ => rfl
  rw [List.append_nil] at hflushed
  rw [Logger.fflush, hf]
  exact hflushed

theorem exit (h : Journals level size s j) :
    Journals level size s.exit { j with ended := true } := by
  obtain ⟨f, hf, hprinted, -⟩ := h.stream
  refine { h with stream := ⟨f.fflush, ?_, ?_, fun _ => rfl⟩, ended := rfl }
  · rw [Logger.exit, hf]
    rfl
  · rw [LogStream.printed_fflush, hprinted]

theorem record (h : Journals level size s j) (hsys : sys.Ordinary) {line : CString}
    (hline : CStrings.nul ∉ line ∧ line.length < logLineSize) :
    Journals level size (s.record sys line) { j with lines := j.lines ++ [line] } := by
  refine { h with recorder := ?_, lines := ?_ }
  · rw [Logger.record, hsys.malloc]
    exact h.recorder.pushBack line
  · intro line' hline'
    rcases List.mem_append.1 hline' with hold | hnew
    · exact h.lines line' hold
    · rwa [List.mem_singleton.1 hnew]

theorem dump (h : Journals level size s j) (sys : LogSystem) :
    Journals level size (s.ringBufferDump sys) (j.dump size) := by
  have hrecorder := h.recorder
  unfold Logger.ringBufferDump
  cases hrec : s.flightRecorder with
  | none =>
    rw [hrec] at hrecorder
    have hsize : size = 0 := hrecorder
    subst hsize
    simpa [Journal.dump] using h
  | some rb =>
    rw [hrec] at hrecorder
    have hdumped := hrecorder.ringBufferDump h.lines
    simp only
    split_ifs with hempty
    · -- nothing is printed, and there is nothing to print
      have hnone : j.lines.rtake size = [] := by
        rw [← hdumped, RingBuffer.ringBufferDump, if_pos hempty]
        rfl
      rw [Journal.dump, hnone, List.append_nil]
      exact h
    · obtain ⟨f, hf, -, -⟩ := h.stream
      have hprinted : (f.printLines (j.lines.rtake size)
          fun k => sys.early (k + 1)).fflush.printed =
            f.printed ++ unlines (j.lines.rtake size) := by simp
      rw [hdumped, hf, Option.map_some, ← hrec]
      exact h.print hf hprinted fun _ => rfl

/-- A line from the level on is printed. -/
theorem printLine (sys : LogSystem) (h : Journals level size s j) (hj : j.ended = false)
    (hsev : level ≤ sev.value) (line : CString) :
    Journals level size (s.printLine sys sev line)
      (if sev = .fatal then
        { ({ j with output := j.output ++ [line] } : Journal).dump size with ended := true }
      else { j with output := j.output ++ [line] }) := by
  obtain ⟨f, hf, -, hbuffered⟩ := h.stream
  have hline : (f.fprintf (line ++ ['\n']) (sys.early 0)).printed =
      f.printed ++ unlines [line] := by simp [unlines]
  -- what a line brings is in the buffer only if the level is below that of the flush
  have hprinted : Journals level size
      (if LogSeverity.flushLevel.value ≤ sev.value then
        ({ s with
          logfile := s.logfile.map fun f => f.fprintf (line ++ ['\n']) (sys.early 0) } :
            Logger).fflush
      else
        { s with logfile := s.logfile.map fun f => f.fprintf (line ++ ['\n']) (sys.early 0) })
      { j with output := j.output ++ [line] } := by
    rw [hf, Option.map_some]
    split_ifs with hflush
    · exact h.print hf ((LogStream.printed_fflush _).trans hline) fun _ => rfl
    · refine h.print hf hline fun hor => ?_
      rcases hor with hlevel | hended
      · exact (hflush (hlevel.trans hsev)).elim
      · rw [hj] at hended
        cases hended
  unfold Logger.printLine
  by_cases hfatal : sev = .fatal
  · rw [if_pos hfatal, if_pos hfatal]
    exact (hprinted.dump sys).exit
  · rw [if_neg hfatal, if_neg hfatal]
    exact hprinted

/-- `_log` of a line that is not ignored. -/
theorem logKnown (h : Journals level size s j) (hj : j.ended = false)
    (hnot : ¬(sev.value < level ∧ size = 0)) (hsys : sys.Ordinary) (hcall : call.Ordinary) :
    Journals level size (s.logKnown sys sev call)
      (j.log level size sev (logText sys sev call)) := by
  obtain ⟨f, hf, -, -⟩ := h.stream
  have hheader := length_logHeader_lt sev hsys hcall
  have hnul := nul_notMem_line sys sev hcall
  obtain ⟨htext, htake⟩ := logBuff_spec sys (hheader.trans (by decide)) hnul
  have hrecorded := h.record hsys (logText_ordinary sys sev hcall)
  have hloglevel : (s.record sys (logText sys sev call)).loglevel = level := hrecorded.loglevel
  have hwrite : s.logKnown sys sev call =
      if sev.value < level then s.record sys (logText sys sev call)
      else (s.record sys (logText sys sev call)).printLine sys sev (logText sys sev call) := by
    rw [Logger.logKnown, hf]
    simp only [Logger.writeLine, htake, htext, if_neg (Nat.not_le.2 hheader),
      if_neg (Nat.not_lt.2 hcall.length_message)]
    rw [← hloglevel]
    rfl
  rw [hwrite, Journal.log, if_neg hnot]
  split_ifs with hlow hfatal
  · exact hrecorded
  · have hdone := hrecorded.printLine sys hj (Int.not_lt.1 hlow) (logText sys sev call)
    rwa [if_pos hfatal] at hdone
  · have hdone := hrecorded.printLine sys hj (Int.not_lt.1 hlow) (logText sys sev call)
    rwa [if_neg hfatal] at hdone

theorem log (h : Journals level size s j) (hj : j.ended = false) (sev : LogSeverity)
    (hsys : sys.Ordinary) (hcall : call.Ordinary) :
    Journals level size (s.log sys sev.value call)
      (j.log level size sev (logText sys sev call)) := by
  unfold Logger.log
  by_cases hignored : s.ignores sev.value = true
  · rw [if_pos hignored, Journal.log, if_pos ((h.ignores_iff _).1 hignored)]
    exact h
  · rw [if_neg hignored, LogSeverity.ofInt_value]
    exact h.logKnown hj (fun hnot => hignored ((h.ignores_iff _).2 hnot)) hsys hcall

/-- `FLOG` ends the process also if its line is ignored. -/
theorem flog (h : Journals level size s j) (hj : j.ended = false) (hsys : sys.Ordinary)
    (hcall : call.Ordinary) :
    Journals level size (s.flog sys call) (j.flog level size (logText sys .fatal call)) := by
  have hlog := h.log hj .fatal hsys hcall
  have hflog : s.flog sys call =
      if (s.log sys LogSeverity.fatal.value call).ended.isSome then
        s.log sys LogSeverity.fatal.value call
      else (s.log sys LogSeverity.fatal.value call).exit := rfl
  rw [hflog, Journal.flog]
  by_cases hend : (j.log level size .fatal (logText sys .fatal call)).ended = true
  · have hended : (s.log sys LogSeverity.fatal.value call).ended.isSome = true := by
      rw [hlog.ended, if_pos hend]
      rfl
    rw [if_pos hended, ← hend]
    exact hlog
  · have hrunning := hlog.not_ended (by simpa using hend)
    rw [if_neg (by rw [hrunning]; exact Bool.false_ne_true)]
    exact hlog.exit

/-- The dump that `SIGUSR2` asks for. -/
theorem requestedDump (h : Journals level size s j) (hj : j.ended = false)
    (hsys : sys.Ordinary) :
    Journals level size (s.loggingFlightRecorderDump sys) (j.requestedDump level size sys) := by
  have hdisabledCall : disabledCall.Ordinary := LogCall.ordinary_loggingCall (by decide)
  have hdumpCall : dumpCall.Ordinary := LogCall.ordinary_loggingCall (by decide)
  have hdisabled := h.log hj .info hsys hdisabledCall
  have hdump := h.log hj .info hsys hdumpCall
  have hrecorder := h.recorder
  unfold Logger.loggingFlightRecorderDump Journal.requestedDump
  cases hrec : s.flightRecorder with
  | none =>
    rw [hrec] at hrecorder
    rw [if_pos (show size = 0 from hrecorder)]
    exact hdisabled
  | some rb =>
    rw [hrec] at hrecorder
    have hended : (j.log level size .info (logText sys .info dumpCall)).ended = false := by
      rw [j.ended_log level size (by decide), hj]
    rw [if_neg hrecorder.1.ne']
    simp only [hdump.not_ended hended]
    exact hdump.dump sys

theorem eventsInit (h : Journals level size s j) (hj : j.ended = false) (hsys : sys.Ordinary)
    (hsys' : sys'.Ordinary) :
    Journals level size (s.loggingEventsInit sys sys')
      { (if level < LogSeverity.flushLevel.value then
          j.log level size .debug (logText sys .debug flushTimerCall)
        else j).log level size .debug (logText sys' .debug sigusr2Call) with
          watching := true } := by
  have hflushTimer : flushTimerCall.Ordinary := LogCall.ordinary_loggingCall (by decide)
  have hsigusr2 : sigusr2Call.Ordinary := LogCall.ordinary_loggingCall (by decide)
  unfold Logger.loggingEventsInit
  rw [h.loglevel]
  by_cases hlow : level < LogSeverity.flushLevel.value
  · have htimer := h.log hj .debug hsys hflushTimer
    have hstarted : Journals level size
        { s.log sys LogSeverity.debug.value flushTimerCall with loggingTimer := true } _ :=
      { htimer with timer := fun _ _ => rfl }
    have hended : (j.log level size .debug (logText sys .debug flushTimerCall)).ended = false := by
      rw [j.ended_log level size (by decide), hj]
    have hdone := hstarted.log hended .debug hsys' hsigusr2
    have hactive : (({ s.log sys LogSeverity.debug.value flushTimerCall with
        loggingTimer := true } : Logger).log sys' LogSeverity.debug.value
          sigusr2Call).loggingTimer = true :=
      Logger.loggingTimer_log _ _ _ _
    rw [if_pos hlow, if_pos hlow]
    simp only [hstarted.not_ended hended, Bool.false_eq_true, if_false]
    exact { hdone with sigusr2 := rfl, async := rfl, timer := fun _ _ => hactive }
  · have hdone := h.log hj .debug hsys' hsigusr2
    rw [if_neg hlow, if_neg hlow]
    simp only [h.not_ended hj, Bool.false_eq_true, if_false]
    exact { hdone with sigusr2 := rfl, async := rfl, timer := fun _ h => (hlow h).elim }

end Journals

/-! ## Every run -/

/-- What is assumed of an event, with a severity that is an `int`. -/
def LogEvent.Ordinary : LogEvent → Prop
  | .log sys severity call => sys.Ordinary ∧ call.Ordinary ∧ severity.natAbs ≤ intMax + 1
  | .flog sys call => sys.Ordinary ∧ call.Ordinary
  | .async sys => sys.Ordinary
  | .eventsInit sys sys' => sys.Ordinary ∧ sys'.Ordinary
  | _ => True

theorem LogCall.ordinary_unknownCall {severity : ℤ} (h : severity.natAbs ≤ intMax + 1) :
    (unknownCall severity).Ordinary := by
  have hlength : (Nat.toDigits 10 severity.natAbs).length ≤ 10 :=
    Nat.toDigits_length 10 _ 10 (by decide) (h.trans_lt (by decide))
  have hdecimal : CStrings.nul ∉ decimal severity ∧ (decimal severity).length ≤ 11 := by
    unfold decimal
    split_ifs
    · rw [List.mem_cons, not_or, List.length_cons]
      exact ⟨⟨by decide, notMem_toDigits (by decide) _⟩, by omega⟩
    · exact ⟨notMem_toDigits (by decide) _, by omega⟩
  have htext : "Unknown log severity: ".toList.length = 22 := rfl
  refine LogCall.ordinary_loggingCall ⟨by decide, ?_, ?_⟩
  · rw [List.mem_append, not_or]
    exact ⟨by decide, hdecimal.1⟩
  · rw [List.length_append, htext, intMax]
    omega

namespace Journals

variable {level : ℤ} {size : ℕ} {s : Logger} {j : Journal}

/-- `_log` of any severity. -/
theorem logEvent (h : Journals level size s j) (hj : j.ended = false) {sys : LogSystem}
    {severity : ℤ} {call : LogCall} (he : (LogEvent.log sys severity call).Ordinary) :
    Journals level size (s.log sys severity call)
      (j.step level size (.log sys severity call)) := by
  obtain ⟨hsys, hcall, hint⟩ := he
  rw [Journal.step, if_neg (by rw [hj]; exact Bool.false_ne_true)]
  cases hsev : LogSeverity.ofInt severity with
  | some sev =>
    have hvalue : severity = sev.value := by
      unfold LogSeverity.ofInt at hsev
      split at hsev <;> first | (obtain rfl := Option.some.inj hsev; rfl) | cases hsev
    subst hvalue
    exact h.log hj sev hsys hcall
  | none =>
    unfold Logger.log
    by_cases hignored : s.ignores severity = true
    · rw [if_pos hignored, if_pos ((h.ignores_iff _).1 hignored)]
      exact h
    · rw [if_neg hignored, if_neg fun hnot => hignored ((h.ignores_iff _).2 hnot), hsev]
      exact h.flog hj hsys (LogCall.ordinary_unknownCall hint)

theorem step (h : Journals level size s j) {e : LogEvent} (he : e.Ordinary) :
    Journals level size (s.step e) (j.step level size e) := by
  unfold Logger.step
  by_cases hj : j.ended = true
  · have hended : s.ended.isSome = true := by
      rw [h.ended, if_pos hj]
      rfl
    rw [if_pos hended, Journal.step.eq_def, if_pos hj]
    exact h
  · have hj' : j.ended = false := by simpa using hj
    rw [if_neg (by rw [h.not_ended hj']; exact Bool.false_ne_true)]
    cases e with
    | log sys severity call => exact h.logEvent hj' he
    | flog sys call =>
      rw [Journal.step, if_neg hj]
      exact h.flog hj' he.1 he.2
    | timer =>
      rw [Journal.step, if_neg hj]
      dsimp only
      split_ifs
      · exact h.fflush
      · exact h
    | sigusr2 =>
      rw [Journal.step, if_neg hj]
      by_cases hwatching : j.watching = true
      · rw [if_pos hwatching]
        dsimp only
        rw [if_pos (h.sigusr2.trans hwatching)]
        exact { h with asyncSent := rfl }
      · rw [if_neg hwatching]
        dsimp only
        rw [if_neg (by rwa [h.sigusr2])]
        exact h
    | async sys =>
      have hdue : (s.flightRecorderAsync && s.asyncSent) = (j.watching && j.dumpDue) := by
        rw [h.async, h.asyncSent]
      rw [Journal.step, if_neg hj]
      by_cases hdump : (j.watching && j.dumpDue) = true
      · rw [if_pos hdump]
        dsimp only
        rw [if_pos (hdue.trans hdump)]
        exact requestedDump (j := { j with dumpDue := false }) { h with asyncSent := rfl } hj' he
      · rw [if_neg hdump]
        dsimp only
        rw [if_neg (by rwa [hdue])]
        exact h
    | eventsInit sys sys' =>
      rw [Journal.step, if_neg hj]
      exact h.eventsInit hj' he.1 he.2
    | eventsCleanup =>
      rw [Journal.step, if_neg hj]
      exact { h with sigusr2 := rfl, async := rfl, timer := fun hw => (Bool.false_ne_true hw).elim }

/-- The logger once it is initialized. -/
theorem loggingInit (level : ℤ) (size : ℕ) :
    Journals level size (Logger.initial.loggingInit true true true level size)
      Journal.empty where
  stream := ⟨⟨[], []⟩, rfl, rfl, fun _ => rfl⟩
  loglevel := rfl
  recorder := by
    have hinit : (Logger.initial.loggingInit true true true level size).flightRecorder =
        ringBufferInit size true true := rfl
    rw [hinit, ringBufferInit]
    by_cases hsize : size < 1
    · rw [dif_pos hsize]
      exact Nat.lt_one_iff.1 hsize
    · rw [dif_neg hsize]
      exact ⟨by omega, CircularBuffer.latest_fresh _ _⟩
  lines line hline := (List.not_mem_nil hline).elim
  ended := rfl
  closed := rfl
  sigusr2 := rfl
  async := rfl
  timer hw := (Bool.false_ne_true hw).elim
  asyncSent := rfl

theorem run (level : ℤ) (size : ℕ) :
    ∀ (es : List LogEvent), (∀ e ∈ es, e.Ordinary) →
      Journals level size
        (Runs.run Logger.step (Logger.initial.loggingInit true true true level size) es)
        (Runs.run (Journal.step level size) Journal.empty es) := by
  intro es
  induction es using List.reverseRecOn with
  | nil => exact fun _ => loggingInit level size
  | append_singleton es e ih =>
    intro hes
    rw [Runs.run_concat, Runs.run_concat]
    exact (ih fun e' he' => hes e' (List.mem_append_left _ he')).step (hes e (by simp))

end Journals

/-- After every run of calls and events, what was printed to the log is what the journal says,
and the process has ended exactly if the journal has. Something is in the buffer of the stream
only below `LOG_WARNING` and while the process goes on, and then the timer that flushes it is
active as long as the events are set up. Once logging is cleaned up, all is written. -/
theorem logging_journal (level : ℤ) (size : ℕ) (es : List LogEvent)
    (hes : ∀ e ∈ es, e.Ordinary) :
    let s := Runs.run Logger.step (Logger.initial.loggingInit true true true level size) es
    let j := Runs.run (Journal.step level size) Journal.empty es
    (∃ f, s.logfile = some f ∧ f.printed = unlines j.output ∧
        (f.buffered ≠ [] → level < LogSeverity.flushLevel.value ∧ s.ended = none ∧
          (j.watching = true → s.loggingTimer = true))) ∧
      s.ended = (if j.ended then some .exited else none) ∧
      s.loggingCleanup.closed = [⟨unlines j.output, []⟩] := by
  intro s j
  have h : Journals level size s j := Journals.run level size es hes
  obtain ⟨f, hf, hprinted, hbuffered⟩ := h.stream
  refine ⟨⟨f, hf, hprinted, fun hne => ?_⟩, h.ended, ?_⟩
  · have hlow : level < LogSeverity.flushLevel.value := by
      by_contra hnot
      exact hne (hbuffered (Or.inl (Int.not_lt.1 hnot)))
    have hj : j.ended ≠ true := fun hj => hne (hbuffered (Or.inr hj))
    exact ⟨hlow, by rw [h.ended, if_neg hj], fun hw => h.timer hw hlow⟩
  · have hclosed : s.loggingCleanup.closed = s.closed ++ (s.logfile.map LogStream.fflush).toList :=
      rfl
    rw [hclosed, h.closed, hf, ← hprinted]
    rfl

/-- A call of `_log` at a fixed time. -/
def fixedSystem : LogSystem where
  tvSec := 1700000000
  tvUsec := 5
  buff := List.replicate logLineSize 'x'
  length_buff := List.length_replicate
  malloc := true
  fdopen := true
  early := fun _ => 0

theorem ordinary_fixedSystem : fixedSystem.Ordinary :=
  ⟨by decide, by decide, rfl⟩

/-- A call in `main.c`. -/
def mainCall (line : ℕ) (message : String) : LogCall :=
  ⟨"main.c".toList, line, message.toList⟩

/-- Three lines are logged, and the recorder has room for two : the fatal one is printed, and
the dump behind it does not have the first line. -/
theorem logging_journal_fatal :
    ∃ f, (Runs.run Logger.step (Logger.initial.loggingInit true true true 3 2)
        [.log fixedSystem 0 (mainCall 7 "a"), .log fixedSystem 1 (mainCall 8 "b"),
          .flog fixedSystem (mainCall 9 "c")]).logfile = some f ∧
      f.printed = ("[F] 1700000000.000005 main.c:9 c\n" ++
        "[I] 1700000000.000005 main.c:8 b\n" ++ "[F] 1700000000.000005 main.c:9 c\n").toList := by
  have hcall : ∀ line message, line ≤ intMax → CStrings.nul ∉ message.toList →
      message.toList.length ≤ intMax → (mainCall line message).Ordinary :=
    fun _ _ hline hnul hlength => ⟨(by decide : CStrings.nul ∉ "main.c".toList),
      (by decide : "main.c".toList.length ≤ 900), hline, hnul, hlength⟩
  obtain ⟨⟨f, hf, hprinted, -⟩, -, -⟩ := logging_journal 3 2
    [.log fixedSystem 0 (mainCall 7 "a"), .log fixedSystem 1 (mainCall 8 "b"),
      .flog fixedSystem (mainCall 9 "c")] (by
    intro e he
    simp only [List.mem_cons, List.not_mem_nil, or_false] at he
    rcases he with rfl | rfl | rfl
    · exact ⟨ordinary_fixedSystem, hcall _ _ (by decide) (by decide) (by decide), by decide⟩
    · exact ⟨ordinary_fixedSystem, hcall _ _ (by decide) (by decide) (by decide), by decide⟩
    · exact ⟨ordinary_fixedSystem, hcall _ _ (by decide) (by decide) (by decide)⟩)
  refine ⟨f, hf, hprinted.trans ?_⟩
  decide

end HttpsDnsProxy
