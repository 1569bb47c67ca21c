import HttpsDnsProxy.CStrings
import Mathlib.Algebra.Group.Nat.Defs
import Mathlib.Data.List.TakeWhile

/-!
# Logging what libcurl reports

libcurl hands `https_curl_debug` its messages and the headers of a transfer as bytes, and the
function logs them line by line, but for empty lines and the ones that start with "Expire". `start`
is where the current line starts. It is only reset when a line has been logged : once a line is
skipped because of its start, `start` stays there, and every line behind it is skipped for the same
reason.

The bytes are not terminated. `strncmp` may look behind them when it compares the start of the last
line, and `%.*s` stops at a NUL and takes the length of the line as an `int`.

* `debugLines_line`, `debugLines_last` : what the loop does up to the end of a line;
* `formatString_eq_iff` : when `%.*s` writes a line as it is;
* `debugLines_eq_iff` : the lines logged are the lines to log exactly if the loop skips and writes
  them right.

`curlDebug_iff` : the same of `https_curl_debug`.
-/

namespace HttpsDnsProxy

/-- `curl_infotype`. -/
inductive CurlInfotype where
  | text
  | headerIn
  | headerOut
  | dataIn
  | dataOut
  | sslDataIn
  | sslDataOut
  | other (type : ℕ)
  deriving DecidableEq, Repr

/-- What `https_curl_debug` logs : a line of text behind its prefix, a line of a hex dump, or the
number of a type it does not know. -/
inductive DebugLog where
  | line (linePrefix : CString) (text : List UInt8)
  | dump (linePrefix : CString) (offset : ℕ) (hex str : CString)
  | unhandled (type : ℕ)
  deriving DecidableEq, Repr

/-! ## The functions -/

/-- `%02x`. -/
def hexByte (b : UInt8) : CString :=
  [Nat.digitChar (b.toNat / 16), Nat.digitChar (b.toNat % 16)]

/-- `isprint` in the C locale. -/
def isPrint (b : UInt8) : Bool :=
  32 ≤ b.toNat && b.toNat ≤ 126

/-- `https_log_data` : a line for each 16 bytes, in hexadecimal and as characters. -/
def httpsLogData (linePrefix : CString) (data : List UInt8) : List DebugLog :=
  let width := 16
  (List.range ((data.length + width - 1) / width)).map fun j =>
    let bytes := (data.drop (j * width)).take width
    let hex := bytes.flatMap (fun b => hexByte b ++ [' ']) ++
      List.replicate (3 * (width - bytes.length)) ' '
    let str := bytes.map fun b => if isPrint b then Char.ofNat b.toNat else '.'
    .dump linePrefix (j * width) hex str

/-- CR and LF. -/
def isEol (b : UInt8) : Bool :=
  b = 13 || b = 10

/-- The bytes of "Expire". -/
def expire : List UInt8 :=
  [0x45, 0x78, 0x70, 0x69, 0x72, 0x65]

/-- The `int` that `%.*s` reads where a `ptrdiff_t` is passed, absent if it is negative. -/
def precision (len : ℕ) : Option ℕ :=
  if len % 2 ^ 32 < 2 ^ 31 then some (len % 2 ^ 32) else none

/-- `%.*s` of the bytes at a pointer. A negative precision is as good as none. -/
def formatString (prec : Option ℕ) (mem : List UInt8) : List UInt8 :=
  match prec with
  | some n => (mem.take n).takeWhile (· ≠ 0)
  | none => mem.takeWhile (· ≠ 0)

/-- The end of a line at `pos` : the line if it is logged, and `start` behind it. -/
def endLine (mem : List UInt8) (pos : ℕ) (start : Option ℕ) : List (List UInt8) × Option ℕ :=
  match start with
  | none => ([], none)
  | some s =>
    if pos - s > 0 ∧ ¬expire <+: mem.drop s then
      ([formatString (precision (pos - s)) (mem.drop s)], none)
    else ([], some s)

/-- The loop over the bytes, from `pos` on. `mem` holds the data and what lies behind it. -/
def debugLines (mem : List UInt8) : List UInt8 → ℕ → Option ℕ → List (List UInt8)
  | [], pos, start => (endLine mem pos start).1
  | c :: data, pos, start =>
    if isEol c then
      let (lines, start) := endLine mem pos start
      lines ++ debugLines mem data (pos + 1) start
    else debugLines mem data (pos + 1) (some (start.getD pos))

/-- The prefix of the lines, for the types that are logged by line. -/
def CurlInfotype.linePrefix : CurlInfotype → Option CString
  | .text => some "* ".toList
  | .headerOut => some "> ".toList
  | .headerIn => some "< ".toList
  | _ => none

/-- `https_curl_debug`, with the bytes `behind` the data in memory. -/
def httpsCurlDebug (type : CurlInfotype) (data behind : List UInt8) : List DebugLog :=
  match type with
  | .dataIn => httpsLogData "< ".toList data
  | .dataOut => httpsLogData "> ".toList data
  | .sslDataIn | .sslDataOut => []
  | .other type => [.unhandled type]
  | .text | .headerIn | .headerOut =>
    (debugLines (data ++ behind) data 0 none).map (.line (type.linePrefix.getD []))

/-! ## The lines -/

/-- The lines to log : the maximal runs of bytes other than CR and LF that are not empty and do not
start with "Expire". -/
def linesToLog (data : List UInt8) : List (List UInt8) :=
  (data.splitOnP isEol).filter fun r => r ≠ [] ∧ ¬expire <+: r

/-- `%.*s` writes the run `r` as it is, with `after` behind it. -/
def WrittenWhole (r after : List UInt8) : Prop :=
  0 ∉ r ∧ (r.length < 2 ^ 31 ∨
    2 ^ 31 ≤ r.length % 2 ^ 32 ∧ ∀ b ∈ after.head?, b = 0)

instance (r after : List UInt8) : Decidable (WrittenWhole r after) :=
  inferInstanceAs (Decidable (_ ∧ _))

/-- The condition on the bytes : none but empty runs and ones that start with "Expire" come behind
one that does, each other run is written as it is, and the bytes behind the data do not complete
its last run to one that starts with "Expire". -/
structure LinesKept (data behind : List UInt8) : Prop where
  skips : (data.splitOnP isEol).Pairwise fun r r' => expire <+: r → r' = [] ∨ expire <+: r'
  written : ∀ r ∈ (data.splitOnP isEol).dropLast, r ≠ [] → ¬expire <+: r →
    0 ∉ r ∧ r.length < 2 ^ 31
  last : ∀ r ∈ (data.splitOnP isEol).getLast?, r ≠ [] → ¬expire <+: r →
    WrittenWhole r behind ∧ ¬expire <+: r ++ behind

variable {mem data behind r : List UInt8} {pos : ℕ}

/-! ## Writing -/

theorem takeWhile_append_eq_iff (r after : List UInt8) :
    (r ++ after).takeWhile (· ≠ 0) = r ↔ 0 ∉ r ∧ ∀ b ∈ after.head?, b = 0 := by
  by_cases hr : 0 ∈ r
  · refine iff_of_false (fun h => ?_) fun h => h.1 hr
    rw [← h] at hr
    exact absurd (List.all_eq_true.1 List.all_takeWhile 0 hr) (by decide)
  · have hpos : ∀ b ∈ r, decide (b ≠ 0) = true := fun b hb =>
      decide_eq_true fun h => hr (h ▸ hb)
    rw [List.takeWhile_append_of_pos hpos, List.append_right_eq_self]
    cases after with
    | nil => simp [hr]
    | cons b after => by_cases hb : b = 0 <;> simp [hr, hb]

/-- `%.*s` writes a run as it is exactly if no byte of it is NUL and its length is an `int`. With a
length that is negative as an `int` it goes on to the next NUL. -/
theorem formatString_eq_iff (r after : List UInt8) :
    formatString (precision r.length) (r ++ after) = r ↔ WrittenWhole r after := by
  unfold precision WrittenWhole
  split_ifs with hprec
  · simp only [formatString]
    have hle : r.length % 2 ^ 32 ≤ r.length := Nat.mod_le _ _
    rw [List.take_append_of_le_length hle]
    rcases Nat.lt_or_ge r.length (2 ^ 31) with hlt | hge
    · rw [Nat.mod_eq_of_lt (by omega), List.take_length]
      have h := takeWhile_append_eq_iff r []
      rw [List.append_nil] at h
      rw [h]
      have hhead : ∀ b ∈ ([] : List UInt8).head?, b = 0 := by simp
      exact and_congr_right fun _ => iff_of_true hhead (Or.inl hlt)
    · refine iff_of_false (fun h => ?_) (by omega)
      -- fewer bytes are written than the run has
      have hlen := (List.takeWhile_prefix (l := r.take (r.length % 2 ^ 32)) (· ≠ 0)).length_le
      rw [h, List.length_take] at hlen
      omega
  · simp only [formatString]
    rw [takeWhile_append_eq_iff]
    have hge : ¬r.length < 2 ^ 31 := by
      intro hlt
      rw [Nat.mod_eq_of_lt (by omega)] at hprec
      exact hprec hlt
    simp only [hge, false_or, and_congr_right_iff]
    intro _
    exact (and_iff_right (Nat.le_of_not_lt hprec)).symm

/-- Behind a run that ends at a CR or LF nothing is written in its place. -/
theorem writtenWhole_cons_iff {c : UInt8} (hc : isEol c = true) (r after : List UInt8) :
    WrittenWhole r (c :: after) ↔ 0 ∉ r ∧ r.length < 2 ^ 31 := by
  have hne : c ≠ 0 := by
    rintro rfl
    exact absurd hc (by decide)
  simp [WrittenWhole, hne]

/-! ## The loop -/

theorem eol_notMem_expire {c : UInt8} (hc : isEol c = true) : c ∉ expire := by
  intro hmem
  have hall : expire.all (fun c => !isEol c) = true := by decide
  have hnot := List.all_eq_true.1 hall c hmem
  rw [hc] at hnot
  cases hnot

/-- Only the bytes of a line decide whether it starts with "Expire". -/
theorem expire_append_cons_iff {c : UInt8} (hc : isEol c = true) (r after : List UInt8) :
    expire <+: r ++ c :: after ↔ expire <+: r :=
  ⟨CStrings.isPrefix_of_append_cons (eol_notMem_expire hc),
    fun h => h.trans (List.prefix_append _ _)⟩

/-- A line that is skipped for its start is followed by nothing. -/
theorem debugLines_skipped {s : ℕ} (h : expire <+: mem.drop s) :
    ∀ (data : List UInt8) (pos : ℕ), debugLines mem data pos (some s) = []
  | [], pos => by simp [debugLines, endLine, h]
  | c :: data, pos => by
    have hrest := debugLines_skipped h data (pos + 1)
    cases hc : isEol c <;> simp [debugLines, endLine, h, hc, hrest]

theorem debugLines_scan (mem data : List UInt8) (s : ℕ) :
    ∀ (r : List UInt8) (pos : ℕ), (∀ c ∈ r, isEol c = false) →
      debugLines mem (r ++ data) pos (some s) = debugLines mem data (pos + r.length) (some s)
  | [], _, _ => rfl
  | c :: r, pos, hr => by
    have hc : isEol c = false := hr c (List.mem_cons_self ..)
    have hrest := debugLines_scan mem data s r (pos + 1) fun c hc =>
      hr c (List.mem_cons_of_mem _ hc)
    simp only [List.cons_append, debugLines, hc, Bool.false_eq_true, if_false, Option.getD_some,
      hrest, List.length_cons]
    rw [Nat.add_assoc, Nat.add_comm 1]

/-- A line starts at its first byte. -/
theorem debugLines_start (hne : r ≠ []) (hr : ∀ c ∈ r, isEol c = false) (mem data : List UInt8)
    (pos : ℕ) :
    debugLines mem (r ++ data) pos none = debugLines mem data (pos + r.length) (some pos) := by
  obtain ⟨c, r, rfl⟩ := List.exists_cons_of_ne_nil hne
  have hc : isEol c = false := hr c (List.mem_cons_self ..)
  rw [← debugLines_scan mem data pos (c :: r) pos hr]
  simp only [List.cons_append, debugLines, hc, Bool.false_eq_true, if_false, Option.getD_some,
    Option.getD_none]

theorem debugLines_empty {c : UInt8} (hc : isEol c = true) (mem data : List UInt8) (pos : ℕ) :
    debugLines mem (c :: data) pos none = debugLines mem data (pos + 1) none := by
  simp [debugLines, endLine, hc]

section Line

variable (hne : r ≠ []) (hr : ∀ c ∈ r, isEol c = false) {after : List UInt8}
  (hmem : mem.drop pos = r ++ after)

include hne hmem

/-- The end of a line that is logged. -/
theorem endLine_logged (hexpire : ¬expire <+: r ++ after) :
    endLine mem (pos + r.length) (some pos) =
      ([formatString (precision r.length) (r ++ after)], none) := by
  have hpos : r.length > 0 := List.length_pos_of_ne_nil hne
  simp only [endLine, Nat.add_sub_cancel_left, hmem]
  exact if_pos ⟨hpos, hexpire⟩

include hr

/-- Neither a line that starts with "Expire" is logged nor anything behind it. -/
theorem debugLines_expire (hexpire : expire <+: r ++ after) (data : List UInt8) :
    debugLines mem (r ++ data) pos none = [] := by
  rw [debugLines_start hne hr]
  exact debugLines_skipped (by rw [hmem]; exact hexpire) _ _

/-- Another line is logged, and the loop goes on behind it. -/
theorem debugLines_line (hexpire : ¬expire <+: r ++ after) {c : UInt8} (hc : isEol c = true)
    (data : List UInt8) :
    debugLines mem (r ++ c :: data) pos none =
      formatString (precision r.length) (r ++ after) ::
        debugLines mem data (pos + r.length + 1) none := by
  rw [debugLines_start hne hr, debugLines, if_pos hc, endLine_logged hne hmem hexpire]
  rfl

/-- The data may end without a CR or LF. -/
theorem debugLines_last (hexpire : ¬expire <+: r ++ after) :
    debugLines mem r pos none = [formatString (precision r.length) (r ++ after)] := by
  have hstart := debugLines_start hne hr mem [] pos
  rw [List.append_nil] at hstart
  rw [hstart, debugLines, endLine_logged hne hmem hexpire]

end Line

/-! ## All the lines -/

/-- Induction over the lines of the data, behind the start `r` of the first one. -/
theorem lines_induction {motive : List UInt8 → Prop}
    (last : ∀ r, (∀ c ∈ r, isEol c = false) → motive r)
    (line : ∀ r c data, (∀ c ∈ r, isEol c = false) → isEol c = true → motive data →
      motive (r ++ c :: data)) :
    ∀ data r : List UInt8, (∀ c ∈ r, isEol c = false) → motive (r ++ data)
  | [], r, hr => by
    rw [List.append_nil]
    exact last r hr
  | c :: data, r, hr => by
    cases hc : isEol c with
    | true => exact line r c data hr hc (lines_induction last line data [] (by simp))
    | false =>
      have hsnoc : ∀ c' ∈ r ++ [c], isEol c' = false := by
        simpa [or_imp, forall_and, hc] using hr
      have h := lines_induction last line data (r ++ [c]) hsnoc
      rwa [List.append_assoc, List.singleton_append] at h

theorem linesToLog_cons (hr : ∀ c ∈ r, isEol c = false) {c : UInt8} (hc : isEol c = true)
    (data : List UInt8) :
    linesToLog (r ++ c :: data) =
      if r ≠ [] ∧ ¬expire <+: r then r :: linesToLog data else linesToLog data := by
  unfold linesToLog
  rw [List.splitOnP_append_cons_of_forall_mem hr c hc, List.filter_cons]
  simp only [decide_eq_true_eq]

theorem linesToLog_last (hr : ∀ c ∈ r, isEol c = false) :
    linesToLog r = if r ≠ [] ∧ ¬expire <+: r then [r] else [] := by
  unfold linesToLog
  rw [List.splitOnP_eq_singleton hr, List.filter_cons, List.filter_nil]
  simp only [decide_eq_true_eq]

theorem linesToLog_eq_nil_iff :
    linesToLog data = [] ↔ ∀ r ∈ data.splitOnP isEol, r = [] ∨ expire <+: r := by
  simp [linesToLog, List.filter_eq_nil_iff, or_iff_not_imp_left]

/-- Without lines to log there is nothing to lose. -/
theorem LinesKept.of_none (h : ∀ r ∈ data.splitOnP isEol, r = [] ∨ expire <+: r)
    (behind : List UInt8) : LinesKept data behind where
  skips := List.pairwise_of_forall_mem_list fun _ _ r' hr' _ => h r' hr'
  written r hr hne hexpire := ((h r (List.dropLast_subset _ hr)).elim hne hexpire).elim
  last r hr hne hexpire := ((h r (List.mem_of_getLast? hr)).elim hne hexpire).elim

theorem linesKept_last_iff (hr : ∀ c ∈ r, isEol c = false) :
    LinesKept r behind ↔
      (r ≠ [] → ¬expire <+: r → WrittenWhole r behind ∧ ¬expire <+: r ++ behind) := by
  have hsplit : r.splitOnP isEol = [r] := List.splitOnP_eq_singleton hr
  refine ⟨fun h => h.last r (by rw [hsplit]; rfl), fun h => ⟨?_, ?_, ?_⟩⟩
  · rw [hsplit]
    exact List.pairwise_singleton _ _
  · rw [hsplit]
    simp
  · rw [hsplit]
    rintro r' ⟨⟩
    exact h

theorem linesKept_cons_iff (hr : ∀ c ∈ r, isEol c = false) {c : UInt8} (hc : isEol c = true) :
    LinesKept (r ++ c :: data) behind ↔
      (∀ r' ∈ data.splitOnP isEol, expire <+: r → r' = [] ∨ expire <+: r') ∧
        (r ≠ [] → ¬expire <+: r → 0 ∉ r ∧ r.length < 2 ^ 31) ∧ LinesKept data behind := by
  have hsplit : (r ++ c :: data).splitOnP isEol = r :: data.splitOnP isEol :=
    List.splitOnP_append_cons_of_forall_mem hr c hc data
  have hne : data.splitOnP isEol ≠ [] := List.splitOnP_ne_nil _ _
  have hlast : (r :: data.splitOnP isEol).getLast? = (data.splitOnP isEol).getLast? :=
    List.getLast?_cons_of_ne_nil hne
  have hdrop : (r :: data.splitOnP isEol).dropLast = r :: (data.splitOnP isEol).dropLast :=
    List.dropLast_cons_of_ne_nil hne
  constructor
  · rintro ⟨hskips, hwritten, hend⟩
    rw [hsplit, List.pairwise_cons] at hskips
    rw [hsplit, hdrop, List.forall_mem_cons] at hwritten
    rw [hsplit, hlast] at hend
    exact ⟨hskips.1, hwritten.1, hskips.2, hwritten.2, hend⟩
  · rintro ⟨hskips, hwritten, h⟩
    refine ⟨?_, ?_, ?_⟩
    · rw [hsplit, List.pairwise_cons]
      exact ⟨hskips, h.skips⟩
    · rw [hsplit, hdrop, List.forall_mem_cons]
      exact ⟨hwritten, h.written⟩
    · rw [hsplit, hlast]
      exact h.last

/-- The last line, if there is one. -/
theorem debugLines_eq_iff_last (hr : ∀ c ∈ r, isEol c = false) (hmem : mem.drop pos = r ++ behind) :
    debugLines mem r pos none = linesToLog r ↔ LinesKept r behind := by
  rw [linesKept_last_iff hr, linesToLog_last hr]
  by_cases hne : r = []
  · subst hne
    simp [debugLines, endLine]
  · by_cases hbehind : expire <+: r ++ behind
    · have hnone := debugLines_expire hne hr hmem hbehind []
      rw [List.append_nil] at hnone
      by_cases hexpire : expire <+: r <;> simp [hnone, hne, hbehind, hexpire]
    · have hexpire : ¬expire <+: r := fun h => hbehind (h.trans (List.prefix_append _ _))
      rw [debugLines_last hne hr hmem hbehind, if_pos ⟨hne, hexpire⟩, List.cons.injEq,
        formatString_eq_iff]
      simp [hne, hexpire, hbehind]

/-- The loop logs the lines to log exactly under the condition on the bytes. -/
theorem debugLines_eq_iff (behind data : List UInt8) :
    ∀ (mem : List UInt8) (pos : ℕ), mem.drop pos = data ++ behind →
      (debugLines mem data pos none = linesToLog data ↔ LinesKept data behind) := by
  refine lines_induction (motive := fun data => ∀ (mem : List UInt8) (pos : ℕ),
    mem.drop pos = data ++ behind →
      (debugLines mem data pos none = linesToLog data ↔ LinesKept data behind))
    (fun r hr mem pos hmem => debugLines_eq_iff_last hr hmem) ?_ data [] (by simp)
  intro r c data hr hc ih mem pos hmem
  rw [List.append_assoc, List.cons_append] at hmem
  have hrest : mem.drop (pos + r.length + 1) = data ++ behind := by
    rw [Nat.add_assoc, ← List.drop_drop, hmem, ← List.drop_drop, List.drop_left, List.drop_one,
      List.tail_cons]
  have hih := ih mem (pos + r.length + 1) hrest
  rw [linesKept_cons_iff hr hc, linesToLog_cons hr hc]
  by_cases hne : r = []
  · subst hne
    have hnil : ¬expire <+: [] := by decide
    rw [List.nil_append, debugLines_empty hc]
    simpa [hnil] using hih
  by_cases hexpire : expire <+: r
  · -- nothing is logged any more, so nothing may be to log
    have hnone := debugLines_expire hne hr hmem ((expire_append_cons_iff hc r _).2 hexpire)
      (c :: data)
    rw [hnone, if_neg fun h => h.2 hexpire, eq_comm, linesToLog_eq_nil_iff]
    exact ⟨fun h => ⟨fun r' hr' _ => h r' hr', fun _ h' => absurd hexpire h', .of_none h behind⟩,
      fun h r' hr' => h.1 r' hr' hexpire⟩
  · have hnot : ¬expire <+: r ++ c :: (data ++ behind) := fun h =>
      hexpire ((expire_append_cons_iff hc r _).1 h)
    rw [debugLines_line hne hr hmem hnot hc, if_pos ⟨hne, hexpire⟩, List.cons.injEq,
      formatString_eq_iff, writtenWhole_cons_iff hc, hih]
    simp [hne, hexpire]

/-- The lines that `https_curl_debug` hands to `_log`, for all text and header data, whatever lies
behind it in memory : they are the maximal runs of bytes other than CR and LF that are not empty and
do not start with "Expire", in order and once each, exactly under the condition on the bytes. How
much of a line then comes to the log is up to `_log`, which cuts it at `LOG_LINE_SIZE`. -/
theorem curlDebug_iff {type : CurlInfotype} {linePrefix : CString}
    (htype : type.linePrefix = some linePrefix) (data behind : List UInt8) :
    httpsCurlDebug type data behind = (linesToLog data).map (.line linePrefix) ↔
      LinesKept data behind := by
  have hlog : httpsCurlDebug type data behind =
      (debugLines (data ++ behind) data 0 none).map (.line linePrefix) := by
    cases type <;> cases htype <;> rfl
  have hinj : Function.Injective (DebugLog.line linePrefix) := fun a b h =>
    (DebugLog.line.inj h).2
  rw [hlog, (List.map_injective_iff.2 hinj).eq_iff]
  exact debugLines_eq_iff behind data (data ++ behind) 0 List.drop_zero

/-- The bytes of a text. -/
def asciiBytes (s : String) : List UInt8 :=
  s.toList.map fun c => UInt8.ofNat c.toNat

/-- Two lines of a message. -/
theorem curlDebug_two :
    httpsCurlDebug .text (asciiBytes "Trying\r\nConnected\n") [] =
      [.line "* ".toList (asciiBytes "Trying"), .line "* ".toList (asciiBytes "Connected")] := by
  have hlines : linesToLog (asciiBytes "Trying\r\nConnected\n") =
      [asciiBytes "Trying", asciiBytes "Connected"] := by decide +kernel
  have hkept : LinesKept (asciiBytes "Trying\r\nConnected\n") [] :=
    ⟨by decide +kernel, by decide +kernel, by decide +kernel⟩
  rw [(curlDebug_iff (show CurlInfotype.text.linePrefix = _ from rfl) _ []).2 hkept, hlines]
  rfl

/-- A line behind one that is skipped is lost. So is the start of "Expire" at the end of the data
with the rest of it behind, and a line with a NUL is cut off. -/
theorem curlDebug_loses :
    (linesToLog (asciiBytes "Expire in 200 ms\nConnected\n") = [asciiBytes "Connected"] ∧
        httpsCurlDebug .text (asciiBytes "Expire in 200 ms\nConnected\n") [] = []) ∧
      (linesToLog (asciiBytes "Exp") = [asciiBytes "Exp"] ∧
        httpsCurlDebug .text (asciiBytes "Exp") (asciiBytes "ire") = []) ∧
      (linesToLog [0x41, 0, 0x42] = [[0x41, 0, 0x42]] ∧
        httpsCurlDebug .text [0x41, 0, 0x42] [] = [.line "* ".toList [0x41]]) := by
  decide +kernel

end HttpsDnsProxy
