import HttpsDnsProxy.RingBuffer
import Mathlib.Data.Nat.Digits.Defs

/-!
# Logging

`logging.c` writes the lines of the program to a stream of stdio, those from the chosen level
on, and keeps the latest lines of all levels in the flight recorder, to be dumped on `SIGUSR2`
and when the process ends with `FLOG`. `Logger` holds its static variables, `LogSystem` what a
call meets outside the program, and `Logger.step` handles a call or an event.

A line is put together in a buffer on the stack. It is the text of the call behind a header,
and one that is too long is cut, with a `$` at its end (`logText`, `logBuff_spec`).
-/

namespace HttpsDnsProxy

/-- `LOG_LINE_SIZE`. -/
def logLineSize : ℕ := 2048

/-- `INT_MAX`. -/
def intMax : ℕ := 2147483647

/-- `enum LogSeverity`, without `LOG_MAX`. -/
inductive LogSeverity where
  | debug
  | info
  | warning
  | error
  | stats
  | fatal
  deriving DecidableEq, Repr

namespace LogSeverity

/-- The number of a severity in the enumeration. -/
def value : LogSeverity → ℤ
  | debug => 0
  | info => 1
  | warning => 2
  | error => 3
  | stats => 4
  | fatal => 5

/-- `SeverityStr`. -/
def str : LogSeverity → CString
  | debug => "[D]".toList
  | info => "[I]".toList
  | warning => "[W]".toList
  | error => "[E]".toList
  | stats => "[S]".toList
  | fatal => "[F]".toList

/-- The severity of a number from 0 up to `LOG_MAX`. -/
def ofInt : ℤ → Option LogSeverity
  | 0 => some debug
  | 1 => some info
  | 2 => some warning
  | 3 => some error
  | 4 => some stats
  | 5 => some fatal
  | _ => none

/-- `LOG_FLUSH_LEVEL`. -/
def flushLevel : LogSeverity := warning

theorem ofInt_value (sev : LogSeverity) : ofInt sev.value = some sev := by
  cases sev <;> rfl

end LogSeverity

/-! ## Streams -/

/-- A stream of stdio : what has been written to its descriptor, and what is in its buffer. -/
structure LogStream where
  written : List Char
  buffered : List Char

namespace LogStream

/-- All that was printed to the stream. -/
def printed (f : LogStream) : List Char :=
  f.written ++ f.buffered

/-- `fprintf` of `text`. stdio writes `early` characters of its buffer on its own. -/
def fprintf (f : LogStream) (text : List Char) (early : ℕ) : LogStream where
  written := f.written ++ (f.buffered ++ text).take early
  buffered := (f.buffered ++ text).drop early

/-- `fflush` writes what is in the buffer. -/
def fflush (f : LogStream) : LogStream where
  written := f.written ++ f.buffered
  buffered := []

@[simp] theorem printed_fprintf (f : LogStream) (text : List Char) (early : ℕ) :
    (f.fprintf text early).printed = f.printed ++ text := by
  simp [printed, fprintf, List.append_assoc, List.take_append_drop]

@[simp] theorem printed_fflush (f : LogStream) : f.fflush.printed = f.printed := by
  simp [printed, fflush]

end LogStream

/-- The text of lines. -/
def unlines (lines : List CString) : List Char :=
  lines.flatMap (· ++ ['\n'])

theorem unlines_append (lines lines' : List CString) :
    unlines (lines ++ lines') = unlines lines ++ unlines lines' :=
  List.flatMap_append

theorem unlines_cons (line : CString) (lines : List CString) :
    unlines (line :: lines) = line ++ '\n' :: unlines lines := by
  simp [unlines]

/-- Lines printed one after the other, the `k`-th with `early k`. -/
def LogStream.printLines : LogStream → List CString → (ℕ → ℕ) → LogStream
  | f, [], _ => f
  | f, line :: lines, early =>
    (f.fprintf (line ++ ['\n']) (early 0)).printLines lines fun k => early (k + 1)

@[simp] theorem LogStream.printed_printLines :
    ∀ (lines : List CString) (f : LogStream) (early : ℕ → ℕ),
      (f.printLines lines early).printed = f.printed ++ unlines lines
  | [], f, _ => (List.append_nil _).symm
  | line :: lines, f, early => by
    rw [printLines, printed_printLines lines, printed_fprintf, unlines_cons]
    simp

/-! ## The text of a line -/

/-- What a call of `_log` is given : `message` is what `fmt` and its arguments come to. -/
structure LogCall where
  file : CString
  line : ℕ
  message : CString

/-- A number with its sign. -/
def decimal (n : ℤ) : CString :=
  if n < 0 then '-' :: Nat.toDigits 10 n.natAbs else Nat.toDigits 10 n.natAbs

/-- A call in `logging.c` itself. -/
def loggingCall (line : ℕ) (message : CString) : LogCall :=
  ⟨"logging.c".toList, line, message⟩

/-- The `ILOG` ahead of a dump of the flight recorder. -/
def dumpCall : LogCall := loggingCall 44 "Flight recorder dump".toList

/-- The `ILOG` in place of a dump when there is no flight recorder. -/
def disabledCall : LogCall := loggingCall 47 "Flight recorder is disabled".toList

/-- The `DLOG` of `logging_events_init` about the flush timer. -/
def flushTimerCall : LogCall := loggingCall 70 "starting periodic log flush timer".toList

/-- The `DLOG` of `logging_events_init` about `SIGUSR2`. -/
def sigusr2Call : LogCall := loggingCall 75 "starting SIGUSR2 handler".toList

/-- The `FLOG` of `_log` for a severity that is none. -/
def unknownCall (severity : ℤ) : LogCall :=
  loggingCall 125 ("Unknown log severity: ".toList ++ decimal severity)

/-- What a call of `_log` meets outside the program. -/
structure LogSystem where
  /-- `gettimeofday`. -/
  tvSec : ℕ
  tvUsec : ℕ
  /-- What is on the stack where `buff` is. -/
  buff : List Char
  length_buff : buff.length = logLineSize
  /-- `malloc` of `ring_buffer_push_back` succeeds. -/
  malloc : Bool
  /-- `fdopen` of the standard output succeeds. -/
  fdopen : Bool
  /-- How much stdio writes on its own at each `fprintf`. -/
  early : ℕ → ℕ

/-- A number, filled up on the left to `width` characters. -/
def padded (fill : Char) (width n : ℕ) : CString :=
  (Nat.toDigits 10 n).leftpad width fill

/-- What stands before the message in a line. -/
def logHeader (sys : LogSystem) (sev : LogSeverity) (call : LogCall) : CString :=
  sev.str ++ ' ' :: padded ' ' 8 sys.tvSec ++ '.' :: padded '0' 6 sys.tvUsec ++
    ' ' :: call.file ++ ':' :: Nat.toDigits 10 call.line ++ [' ']

/-- `buff` and `buff_pos` once the line is printed. -/
def logBuff (sys : LogSystem) (header message : CString) : List Char × ℕ :=
  let buff := CStrings.snprintf sys.buff 0 logLineSize header
  let buff := CStrings.snprintf buff header.length (logLineSize - header.length) message
  let buffPos := header.length + message.length
  if buffPos ≥ logLineSize then (buff.set (logLineSize - 2) '$', logLineSize - 1)
  else (buff, buffPos)

/-- A line that is too long is cut, with a `$` at its end. -/
def cutLine (line : CString) : CString :=
  if line.length < logLineSize then line else line.take (logLineSize - 2) ++ ['$']

/-- The line of a call. -/
def logText (sys : LogSystem) (sev : LogSeverity) (call : LogCall) : CString :=
  cutLine (logHeader sys sev call ++ call.message)

/-! ## The logger -/

/-- How a process ends. -/
inductive ProcessEnd where
  | exited
  | aborted
  deriving DecidableEq, Repr

/-- The static variables of `logging.c`, with the streams it has closed. -/
structure Logger where
  logfile : Option LogStream
  loglevel : ℤ
  flightRecorder : Option RingBuffer
  /-- The watchers that are active. -/
  loggingTimer : Bool
  sigusr2 : Bool
  flightRecorderAsync : Bool
  /-- `ev_async_send` was called, and the callback has not run yet. -/
  asyncSent : Bool
  closed : List LogStream
  ended : Option ProcessEnd

namespace Logger

/-- The variables as they are initialized. -/
def initial : Logger where
  logfile := none
  loglevel := LogSeverity.error.value
  flightRecorder := none
  loggingTimer := false
  sigusr2 := false
  flightRecorderAsync := false
  asyncSent := false
  closed := []
  ended := none

variable (s : Logger) (sys : LogSystem)

/-- `abort()`. -/
def abort : Logger :=
  { s with ended := some .aborted }

/-- `exit(1)`, which writes what is in the buffers. -/
def exit : Logger :=
  { s with logfile := s.logfile.map LogStream.fflush, ended := some .exited }

/-- `fflush(logfile)`. -/
def fflush : Logger :=
  { s with logfile := s.logfile.map LogStream.fflush }

/-- `ring_buffer_dump(flight_recorder, logfile)`. For a NULL pointer `fprintf` prints `(null)`.
An empty buffer is not flushed. -/
def ringBufferDump : Logger :=
  match s.flightRecorder with
  | none => s
  | some rb =>
    if rb.next = 0 ∧ ¬rb.full then s
    else
      let lines := ((rb.ringBufferDump rb.storage.length).getD []).map (·.getD "(null)".toList)
      { s with
        logfile := s.logfile.map fun f =>
          (f.printLines lines fun k => sys.early (k + 1)).fflush }

/-- `ring_buffer_push_back(flight_recorder, buff, buff_pos)`, if there is a recorder. -/
def record (data : List Char) : Logger :=
  { s with
    flightRecorder := s.flightRecorder.map fun rb => rb.ringBufferPushBack data sys.malloc }

/-- `_log` from the `fprintf` on. -/
def printLine (sev : LogSeverity) (line : CString) : Logger :=
  let s :=
    { s with logfile := s.logfile.map fun f => f.fprintf (line ++ ['\n']) (sys.early 0) }
  let s := if LogSeverity.flushLevel.value ≤ sev.value then s.fflush else s
  if sev = .fatal then (s.ringBufferDump sys).exit else s

/-- `_log` from `gettimeofday` on. -/
def writeLine (sev : LogSeverity) (call : LogCall) : Logger :=
  let header := logHeader sys sev call
  if header.length ≥ logLineSize / 2 then s.abort
  -- the length of the message does not fit in an `int`
  else if call.message.length > intMax then s.abort
  else
    let (buff, buffPos) := logBuff sys header call.message
    let s := s.record sys (buff.take buffPos)
    if sev.value < s.loglevel then s else s.printLine sys sev (CStrings.text buff)

/-- `_log` from the check of `logfile` on. -/
def logKnown (sev : LogSeverity) (call : LogCall) : Logger :=
  match s.logfile with
  | some _ => s.writeLine sys sev call
  | none =>
    if sys.fdopen then ({ s with logfile := some ⟨[], []⟩ } : Logger).writeLine sys sev call
    else s.abort

/-- The first check of `_log` : there is nothing to do. -/
def ignores (severity : ℤ) : Bool :=
  severity < s.loglevel ∧ s.flightRecorder.isNone

/-- `FLOG`. -/
def flog (call : LogCall) : Logger :=
  let s := if s.ignores LogSeverity.fatal.value then s else s.logKnown sys .fatal call
  if s.ended.isSome then s else s.exit

/-- `_log`. -/
def log (severity : ℤ) (call : LogCall) : Logger :=
  if s.ignores severity then s
  else
    match LogSeverity.ofInt severity with
    | some sev => s.logKnown sys sev call
    | none => s.flog sys (unknownCall severity)

/-- `logging_timer_cb`. -/
def loggingTimerCb : Logger :=
  s.fflush

/-- `logging_flight_recorder_dump`. -/
def loggingFlightRecorderDump : Logger :=
  match s.flightRecorder with
  | some _ =>
    let s := s.log sys LogSeverity.info.value dumpCall
    if s.ended.isSome then s else s.ringBufferDump sys
  | none => s.log sys LogSeverity.info.value disabledCall

/-- `logging_events_init`. -/
def loggingEventsInit (sys' : LogSystem) : Logger :=
  let s :=
    if s.loglevel < LogSeverity.flushLevel.value then
      { s.log sys LogSeverity.debug.value flushTimerCall with loggingTimer := true }
    else s
  if s.ended.isSome then s
  else
    { s.log sys' LogSeverity.debug.value sigusr2Call with
      flightRecorderAsync := true
      sigusr2 := true }

/-- `logging_events_cleanup`. -/
def loggingEventsCleanup : Logger :=
  { s with loggingTimer := false, sigusr2 := false, flightRecorderAsync := false }

/-- `fclose(logfile)`, if there is a stream. -/
def closeLogfile : Logger :=
  { s with
    logfile := none
    closed := s.closed ++ (s.logfile.map LogStream.fflush).toList }

/-- `logging_init`, given whether `fdopen` and the two calls of `calloc` succeed. -/
def loggingInit (fdopen callocBuffer callocStorage : Bool) (level : ℤ)
    (flightRecorderSize : ℕ) : Logger :=
  let s := s.closeLogfile
  if fdopen then
    { s with
      logfile := some ⟨[], []⟩
      loglevel := level
      flightRecorder := ringBufferInit flightRecorderSize callocBuffer callocStorage }
  else s

/-- `logging_cleanup`. -/
def loggingCleanup : Logger :=
  ({ s with flightRecorder := none } : Logger).closeLogfile

end Logger

/-- A call of `logging.c`, or an event of its watchers. -/
inductive LogEvent where
  | log (sys : LogSystem) (severity : ℤ) (call : LogCall)
  | flog (sys : LogSystem) (call : LogCall)
  | timer
  | sigusr2
  | async (sys : LogSystem)
  | eventsInit (sys sys' : LogSystem)
  | eventsCleanup

namespace Logger

/-- One event. libev calls a callback only while its watcher is active. -/
def step (s : Logger) (e : LogEvent) : Logger :=
  if s.ended.isSome then s
  else
    match e with
    | .log sys severity call => s.log sys severity call
    | .flog sys call => s.flog sys call
    | .timer => if s.loggingTimer then s.loggingTimerCb else s
    | .sigusr2 => if s.sigusr2 then { s with asyncSent := true } else s
    | .async sys =>
      if s.flightRecorderAsync && s.asyncSent then
        ({ s with asyncSent := false } : Logger).loggingFlightRecorderDump sys
      else s
    | .eventsInit sys sys' => s.loggingEventsInit sys sys'
    | .eventsCleanup => s.loggingEventsCleanup

end Logger

namespace Logger

variable (s : Logger) (sys : LogSystem)

@[simp] theorem loggingTimer_ringBufferDump :
    (s.ringBufferDump sys).loggingTimer = s.loggingTimer := by
  unfold ringBufferDump
  cases s.flightRecorder with
  | none => rfl
  | some rb =>
    dsimp only
    split_ifs <;> rfl

@[simp] theorem loggingTimer_printLine (sev : LogSeverity) (line : CString) :
    (s.printLine sys sev line).loggingTimer = s.loggingTimer := by
  unfold printLine
  dsimp only
  split_ifs <;> simp [exit, fflush]

@[simp] theorem loggingTimer_writeLine (sev : LogSeverity) (call : LogCall) :
    (s.writeLine sys sev call).loggingTimer = s.loggingTimer := by
  unfold writeLine
  dsimp only
  split_ifs <;> simp [abort, record]

/-- A line that is logged leaves the timer alone. -/
theorem loggingTimer_log (severity : ℤ) (call : LogCall) :
    (s.log sys severity call).loggingTimer = s.loggingTimer := by
  have hknown : ∀ sev call, (s.logKnown sys sev call).loggingTimer = s.loggingTimer := by
    intro sev call
    unfold logKnown
    split
    · exact s.loggingTimer_writeLine sys sev call
    · split_ifs <;> simp [abort]
  unfold log
  split_ifs with hignored
  · rfl
  · cases LogSeverity.ofInt severity with
    | some sev => exact hknown sev call
    | none =>
      dsimp only [flog]
      split_ifs <;> simp [exit, hknown]

end Logger

/-! ## Lines in their buffer -/

theorem notMem_toDigits {a : Char} (ha : a.isDigit = false) (n : ℕ) :
    a ∉ Nat.toDigits 10 n := by
  intro hmem
  rw [Nat.isDigit_of_mem_toDigits (by decide) (by decide) hmem] at ha
  cases ha

theorem notMem_padded {a fill : Char} (ha : a.isDigit = false) (hfill : a ≠ fill) (width n : ℕ) :
    a ∉ padded fill width n := by
  unfold padded List.leftpad
  rw [List.mem_append, not_or]
  exact ⟨fun h => hfill (List.eq_of_mem_replicate h), notMem_toDigits ha n⟩

/-- What can be in a header : digits, the severity, the file and what stands between them. -/
theorem notMem_logHeader {a : Char} {call : LogCall} (sys : LogSystem) (sev : LogSeverity)
    (ha : a.isDigit = false) (hbetween : a ∉ [' ', '.', ':']) (hsev : a ∉ sev.str)
    (hfile : a ∉ call.file) : a ∉ logHeader sys sev call := by
  have hzero : a ≠ '0' := by
    rintro rfl
    cases ha
  simp only [List.mem_cons, List.not_mem_nil, or_false, not_or] at hbetween
  obtain ⟨hblank, hdot, hcolon⟩ := hbetween
  simp [logHeader, hsev, hfile, hblank, hdot, hcolon, notMem_toDigits ha,
    notMem_padded ha hblank, notMem_padded ha hzero]

/-- What is assumed of a call : texts without NUL, a short name of the file, and numbers that
fit in their types. -/
structure LogCall.Ordinary (call : LogCall) : Prop where
  file : CStrings.nul ∉ call.file
  length_file : call.file.length ≤ 900
  line : call.line ≤ intMax
  message : CStrings.nul ∉ call.message
  length_message : call.message.length ≤ intMax

/-- A call in `logging.c` itself, of a short text. -/
theorem LogCall.ordinary_loggingCall {line : ℕ} {message : CString}
    (h : line ≤ intMax ∧ CStrings.nul ∉ message ∧ message.length ≤ intMax) :
    (loggingCall line message).Ordinary where
  file := (by decide : CStrings.nul ∉ "logging.c".toList)
  length_file := (by decide : "logging.c".toList.length ≤ 900)
  line := h.1
  message := h.2.1
  length_message := h.2.2

/-- The clock fits in its type, and `malloc` succeeds. -/
structure LogSystem.Ordinary (sys : LogSystem) : Prop where
  tvSec : sys.tvSec < 2 ^ 64
  tvUsec : sys.tvUsec < 2 ^ 64
  malloc : sys.malloc = true

theorem length_padded_le {width n : ℕ} (fill : Char) (hwidth : width ≤ 20) (hn : n < 2 ^ 64) :
    (padded fill width n).length ≤ 20 := by
  have hdigits : (Nat.toDigits 10 n).length ≤ 20 :=
    Nat.toDigits_length 10 n 20 (by decide) (hn.trans (by decide))
  unfold padded List.leftpad
  rw [List.length_append, List.length_replicate]
  omega

section Line

variable {sys : LogSystem} {sev : LogSeverity} {call : LogCall}

/-- The header takes up less than half of the buffer, so `_log` does not abort. -/
theorem length_logHeader_lt (sev : LogSeverity) (hsys : sys.Ordinary) (hcall : call.Ordinary) :
    (logHeader sys sev call).length < logLineSize / 2 := by
  have hsec := length_padded_le ' ' (by decide : 8 ≤ 20) hsys.tvSec
  have husec := length_padded_le '0' (by decide : 6 ≤ 20) hsys.tvUsec
  have hline : (Nat.toDigits 10 call.line).length ≤ 10 :=
    Nat.toDigits_length 10 _ 10 (by decide) (hcall.line.trans_lt (by decide))
  have hfile := hcall.length_file
  have hstr : sev.str.length = 3 := by cases sev <;> rfl
  unfold logLineSize
  simp only [logHeader, List.length_append, List.length_cons, List.length_nil]
  omega

theorem nul_notMem_line (sys : LogSystem) (sev : LogSeverity) (hcall : call.Ordinary) :
    CStrings.nul ∉ logHeader sys sev call ++ call.message := by
  have hsev : CStrings.nul ∉ sev.str := by cases sev <;> decide
  rw [List.mem_append, not_or]
  exact ⟨notMem_logHeader sys sev (by decide) (by decide) hsev hcall.file, hcall.message⟩

/-- The last character that was kept makes room for the `$`. -/
theorem set_cut {line : CString} (h : logLineSize ≤ line.length) :
    (line.take (logLineSize - 1) ++ [CStrings.nul]).set (logLineSize - 2) '$' =
      line.take (logLineSize - 2) ++ ['$'] ++ [CStrings.nul] := by
  have hkept : (line.take (logLineSize - 1)).length = logLineSize - 2 + 1 := by
    rw [List.length_take_of_le (by omega)]
    rfl
  rw [List.set_append_left _ _ (by omega), List.set_eq_take_append_cons_drop, if_pos (by omega),
    ← hkept, List.drop_length, List.take_take]
  rfl

/-- What `_log` has in its buffer is the line of the call, and `buff_pos` its length. -/
theorem logBuff_spec (sys : LogSystem) {header message : CString}
    (hheader : header.length < logLineSize) (hnul : CStrings.nul ∉ header ++ message) :
    CStrings.text (logBuff sys header message).1 = cutLine (header ++ message) ∧
      (logBuff sys header message).1.take (logBuff sys header message).2 =
        cutLine (header ++ message) := by
  have hbuff : logBuff sys header message =
      if (header ++ message).length ≥ logLineSize then
        ((CStrings.snprintf sys.buff 0 logLineSize (header ++ message)).set (logLineSize - 2) '$',
          logLineSize - 1)
      else
        (CStrings.snprintf sys.buff 0 logLineSize (header ++ message),
          (header ++ message).length) := by
    simp only [logBuff, CStrings.snprintf_snprintf _ hheader, List.length_append]
  rw [hbuff, cutLine]
  by_cases hfits : (header ++ message).length < logLineSize
  · rw [if_neg (Nat.not_le.2 hfits), if_pos hfits, CStrings.snprintf_eq hfits, List.take_zero,
      List.nil_append]
    exact ⟨CStrings.text_append_nul hnul _, List.take_left⟩
  · have hlong : logLineSize ≤ (header ++ message).length := Nat.not_lt.1 hfits
    have hcut : CStrings.nul ∉ (header ++ message).take (logLineSize - 2) ++ ['$'] := by
      rw [List.mem_append, not_or]
      exact ⟨fun h => hnul (List.mem_of_mem_take h), by decide⟩
    have hlength : ((header ++ message).take (logLineSize - 2) ++ ['$']).length =
        logLineSize - 1 := by
      rw [List.length_append, List.length_take_of_le (by omega)]
      rfl
    have hprinted : CStrings.snprintf sys.buff 0 logLineSize (header ++ message) =
        (header ++ message).take (logLineSize - 1) ++ [CStrings.nul] :=
      CStrings.snprintf_of_length_le sys.length_buff (Nat.le_of_succ_le hlong)
    rw [if_pos hlong, if_neg hfits, hprinted]
    simp only [set_cut hlong]
    exact ⟨CStrings.text_append_nul hcut [], by rw [← hlength, List.take_left]⟩

/-- A line has no NUL and fits in the buffer with its own. -/
theorem logText_ordinary (sys : LogSystem) (sev : LogSeverity) (hcall : call.Ordinary) :
    CStrings.nul ∉ logText sys sev call ∧ (logText sys sev call).length < logLineSize := by
  have hnul := nul_notMem_line sys sev hcall
  unfold logText cutLine
  split_ifs with hfits
  · exact ⟨hnul, hfits⟩
  · refine ⟨?_, ?_⟩
    · rw [List.mem_append, not_or]
      exact ⟨fun h => hnul (List.mem_of_mem_take h), by decide⟩
    · rw [List.length_append, List.length_take_of_le (by omega)]
      decide

end Line

end HttpsDnsProxy
