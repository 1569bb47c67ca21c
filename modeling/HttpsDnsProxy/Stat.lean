import Mathlib.Data.Nat.ModEq

/-!
# Statistics

`stat.c` counts requests, responses and connections, and prints and zeroes the counters
once per interval. The counters are 64 bits wide. What has been printed is kept, latest
last.

`Stat.total` sums a counter over all that has been printed and what has not. A call that counts
adds what it counts to the totals, modulo `2 ^ 64` (`Stat.total_count`), and printing changes
none (`Stat.total_statPrint`).
-/

namespace HttpsDnsProxy

/-- The counters of one transport : `requests`, `responses`, their sizes and the sum of the
query times, for TCP those with the prefix `tcp_`. -/
structure Traffic where
  requestsSize : ℕ
  responsesSize : ℕ
  requests : ℕ
  responses : ℕ
  queryTimesSum : ℕ
  deriving DecidableEq, Repr

/-- The counters of `stat_t`. -/
structure Counters where
  udp : Traffic
  tcp : Traffic
  connectionsOpened : ℕ
  connectionsClosed : ℕ
  connectionsReused : ℕ
  deriving DecidableEq, Repr

/-- `stat_t`, with the lines it has printed. -/
structure Stat where
  counters : Counters
  printed : List Counters
  statsTimer : Bool

/-- `reset_counters`. -/
def resetCounters : Counters where
  udp := ⟨0, 0, 0, 0, 0⟩
  tcp := ⟨0, 0, 0, 0, 0⟩
  connectionsOpened := 0
  connectionsClosed := 0
  connectionsReused := 0

/-- `stat_init` with an interval. -/
def statInit : Stat where
  counters := resetCounters
  printed := []
  statsTimer := true

/-- The transport's counters after a request of `reqLen` bytes. -/
def Traffic.request (t : Traffic) (reqLen : ℕ) : Traffic :=
  { t with
    requestsSize := (t.requestsSize + reqLen) % 2 ^ 64
    requests := (t.requests + 1) % 2 ^ 64 }

/-- The transport's counters after a response of `respLen` bytes. -/
def Traffic.response (t : Traffic) (respLen latencyMs : ℕ) : Traffic :=
  { t with
    responsesSize := (t.responsesSize + respLen) % 2 ^ 64
    responses := (t.responses + 1) % 2 ^ 64
    queryTimesSum := (t.queryTimesSum + latencyMs) % 2 ^ 64 }

namespace Counters

variable (c : Counters)

/-- `stat_request_begin`. -/
def statRequestBegin (reqLen : ℕ) (isTcp : Bool) : Counters :=
  if isTcp then { c with tcp := c.tcp.request reqLen } else { c with udp := c.udp.request reqLen }

/-- `stat_request_end`. The latency is in whole milliseconds. -/
def statRequestEnd (respLen latencyMs : ℕ) (isTcp : Bool) : Counters :=
  if respLen = 0 then c
  else if isTcp then { c with tcp := c.tcp.response respLen latencyMs }
  else { c with udp := c.udp.response respLen latencyMs }

/-- `stat_connection_opened`. -/
def statConnectionOpened : Counters :=
  { c with connectionsOpened := (c.connectionsOpened + 1) % 2 ^ 64 }

/-- `stat_connection_closed`. -/
def statConnectionClosed : Counters :=
  { c with connectionsClosed := (c.connectionsClosed + 1) % 2 ^ 64 }

/-- `stat_connection_reused`. -/
def statConnectionReused : Counters :=
  { c with connectionsReused := (c.connectionsReused + 1) % 2 ^ 64 }

end Counters

namespace Stat

variable (s : Stat)

/-- A change of the counters. -/
def count (f : Counters → Counters) : Stat :=
  { s with counters := f s.counters }

/-- `stat_print`. -/
def statPrint : Stat :=
  { s with counters := resetCounters, printed := s.printed ++ [s.counters] }

/-- `stat_stop`. -/
def statStop : Stat :=
  { s with statsTimer := false }

/-- `stat_cleanup` with an interval. -/
def statCleanup : Stat :=
  s.statPrint

end Stat

/-! ## Totals -/

/-- A counter of requests, responses or connections, of one transport where there are two. -/
inductive StatField where
  | requests (isTcp : Bool)
  | requestsSize (isTcp : Bool)
  | responses (isTcp : Bool)
  | responsesSize (isTcp : Bool)
  | connectionsOpened
  | connectionsClosed
  deriving DecidableEq, Repr

/-- A call of `stat.c` that counts. -/
inductive StatCall where
  | requestBegin (reqLen : ℕ) (isTcp : Bool)
  | requestEnd (respLen latencyMs : ℕ) (isTcp : Bool)
  | connectionOpened
  | connectionClosed
  | connectionReused
  deriving DecidableEq, Repr

/-- The counters after a call. -/
def StatCall.apply : StatCall → Counters → Counters
  | .requestBegin reqLen isTcp, c => c.statRequestBegin reqLen isTcp
  | .requestEnd respLen latencyMs isTcp, c => c.statRequestEnd respLen latencyMs isTcp
  | .connectionOpened, c => c.statConnectionOpened
  | .connectionClosed, c => c.statConnectionClosed
  | .connectionReused, c => c.statConnectionReused

/-- The counters of a transport. -/
def Counters.traffic (c : Counters) (isTcp : Bool) : Traffic :=
  if isTcp then c.tcp else c.udp

/-- The value of a counter. -/
def Counters.get (c : Counters) : StatField → ℕ
  | .requests isTcp => (c.traffic isTcp).requests
  | .requestsSize isTcp => (c.traffic isTcp).requestsSize
  | .responses isTcp => (c.traffic isTcp).responses
  | .responsesSize isTcp => (c.traffic isTcp).responsesSize
  | .connectionsOpened => c.connectionsOpened
  | .connectionsClosed => c.connectionsClosed

namespace StatField

/-- What a call adds to a counter. -/
def added : StatField → StatCall → ℕ
  | .requests isTcp, .requestBegin _ isTcp' => if isTcp' = isTcp then 1 else 0
  | .requestsSize isTcp, .requestBegin reqLen isTcp' => if isTcp' = isTcp then reqLen else 0
  | .responses isTcp, .requestEnd respLen _ isTcp' => if respLen ≠ 0 ∧ isTcp' = isTcp then 1 else 0
  | .responsesSize isTcp, .requestEnd respLen _ isTcp' => if isTcp' = isTcp then respLen else 0
  | .connectionsOpened, .connectionOpened => 1
  | .connectionsClosed, .connectionClosed => 1
  | _, _ => 0

/-- A counter grows by what is added, in 64 bits. -/
theorem get_apply (f : StatField) (call : StatCall) (c : Counters) :
    (call.apply c).get f ≡ c.get f + f.added call [MOD 2 ^ 64] := by
  cases call with
  | requestBegin reqLen isTcp =>
    cases f with
    | requests isTcp' | requestsSize isTcp' =>
      cases isTcp <;> cases isTcp' <;>
        simp [StatCall.apply, Counters.statRequestBegin, Counters.get, Counters.traffic,
          Traffic.request, added, Nat.ModEq]
    | responses isTcp' | responsesSize isTcp' =>
      cases isTcp <;> cases isTcp' <;> rfl
    | connectionsOpened | connectionsClosed => cases isTcp <;> rfl
  | requestEnd respLen latencyMs isTcp =>
    by_cases hlen : respLen = 0
    · cases f <;> simp [StatCall.apply, Counters.statRequestEnd, hlen, added, Nat.ModEq]
    · cases f with
      | responses isTcp' | responsesSize isTcp' =>
        cases isTcp <;> cases isTcp' <;>
          simp [StatCall.apply, Counters.statRequestEnd, Counters.get, Counters.traffic,
            Traffic.response, added, Nat.ModEq, hlen]
      | requests isTcp' | requestsSize isTcp' =>
        cases isTcp <;> cases isTcp' <;>
          simp [StatCall.apply, Counters.statRequestEnd, Counters.get, Counters.traffic,
            Traffic.response, added, Nat.ModEq, hlen]
      | connectionsOpened | connectionsClosed =>
        cases isTcp <;>
          simp [StatCall.apply, Counters.statRequestEnd, Counters.get, added, Nat.ModEq, hlen]
  | connectionOpened =>
    cases f with
    | connectionsOpened => exact Nat.mod_mod _ _
    | _ => rfl
  | connectionClosed =>
    cases f with
    | connectionsClosed => exact Nat.mod_mod _ _
    | _ => rfl
  | connectionReused => cases f <;> rfl

theorem get_resetCounters : ∀ f : StatField, resetCounters.get f = 0
  | .requests isTcp | .requestsSize isTcp | .responses isTcp | .responsesSize isTcp => by
    cases isTcp <;> rfl
  | .connectionsOpened | .connectionsClosed => rfl

end StatField

namespace Stat

variable (s : Stat) (f : StatField)

/-- The values printed and the current one, summed. -/
def total : ℕ :=
  (s.printed.map fun c => c.get f).sum + s.counters.get f

theorem total_statInit : statInit.total f = 0 := by
  simp [total, statInit, f.get_resetCounters]

/-- A call adds to the totals what it counts. -/
theorem total_count (call : StatCall) :
    (s.count call.apply).total f ≡ s.total f + f.added call [MOD 2 ^ 64] := by
  unfold total
  rw [Nat.add_assoc]
  exact (f.get_apply call s.counters).add_left _

/-- Printing loses nothing. -/
theorem total_statPrint : s.statPrint.total f = s.total f := by
  simp [total, statPrint, f.get_resetCounters]

end Stat

end HttpsDnsProxy
