import HttpsDnsProxy.Countdowns
import HttpsDnsProxy.ResetTimer

/-!
# When the reset timer expires

`https_client_init` sets the reset timer to `conn_loss_time`, and nothing sets it again. A
transfer that times out starts it with `ev_timer_start`, and the close of the last connection and
a reset of the client stop it with `ev_timer_stop`. What libev makes of this is a parameter here,
assumed to keep what is left of the time of a timer that is stopped (`Countdowns.Timer.Resumes`).
Then `conn_loss_time` is used up over the whole life of the client.

* `timeouts_lt_of_starts` : only a transfer that times out starts the timer;
* `recovered_resetTimer` : when the timer expires, every outstanding fetch is aborted.

`resetTimes` : the timer is due when the rest of `conn_loss_time` has gone by, of which the time
it ran before is taken away. So it does not expire before it has run for `conn_loss_time`
altogether, and once it has expired, the next timeout leads to a reset at once.
-/

namespace HttpsDnsProxy

variable {ρ ω τ : Type*}

/-- The end of a transfer that has timed out. -/
def HttpsEffect.isTimeout : HttpsEffect ρ → Bool
  | .ended _ .operationTimedout _ _ => true
  | _ => false

namespace HttpsClient

/-- The number of transfers that have timed out. -/
def timeouts (c : HttpsClient ρ) : ℕ :=
  c.effects.countP HttpsEffect.isTimeout

/-- Since there were `n` timeouts, the timer was not started without another. -/
structure StartedAfter (n : ℕ) (c : HttpsClient ρ) : Prop where
  le : n ≤ c.timeouts
  lt : c.resetTimer = true → n < c.timeouts

section StartedAfter

variable {n : ℕ} {c c' : HttpsClient ρ}

theorem StartedAfter.of_le (h : StartedAfter n c) (hle : c.timeouts ≤ c'.timeouts)
    (ht : c'.resetTimer = true → c.resetTimer = true) : StartedAfter n c' :=
  ⟨h.le.trans hle, fun hr => (h.lt (ht hr)).trans_le hle⟩

theorem timeouts_emit (c : HttpsClient ρ) (e : HttpsEffect ρ) : c.timeouts ≤ (c.emit e).timeouts :=
  (List.sublist_append_left _ _).countP_le

theorem StartedAfter.tally (h : StartedAfter n c) (e : HttpsEffect ρ) :
    StartedAfter n (c.tally e) := by
  unfold HttpsClient.tally
  split_ifs
  · exact h.of_le (c.timeouts_emit e) id
  · exact h

theorem kept_startedAfter : KeptBySockets (StartedAfter n : HttpsClient ρ → Prop) where
  opens _ _ h := by
    refine StartedAfter.tally ?_ _
    exact h.of_le le_rfl id
  closes _ _ htimer h := by
    refine StartedAfter.tally ?_ _
    exact h.of_le le_rfl fun hr => (htimer hr).1
  watches _ _ h := h.of_le le_rfl id
  timer _ _ h := h.of_le le_rfl id

theorem startedAfter_quietStep (hs : QuietStep c c') (h : StartedAfter n c) :
    StartedAfter n c' := by
  cases hs with
  | socket cb => exact kept_startedAfter.socketCallback h cb
  | frame hf ht => exact h.of_le (congrArg (List.countP _) hf.effects).ge ht
  | abort _ => exact h.of_le (c.timeouts_emit _) id

theorem startedAfter_transferCallbacks : ∀ (cbs : List TransferCallback) {c : HttpsClient ρ},
    StartedAfter n c → StartedAfter n (cbs.foldl transferCallback c)
  | [], _, h => h
  | .socket cb :: cbs, _, h =>
    startedAfter_transferCallbacks cbs (kept_startedAfter.socketCallback h cb)
  | .write _ _ _ :: cbs, _, h => startedAfter_transferCallbacks cbs (h.of_le le_rfl id)

/-- The end of a transfer starts the timer if it has timed out, and is counted then. -/
theorem startedAfter_finishFetch (h : StartedAfter n c) (prev : Option ℕ) (ctx : HttpsFetchCtx ρ)
    (result : CurlCode) (info : TransferInfo) :
    StartedAfter n (c.finishFetch prev ctx (some (result, info))) := by
  obtain ⟨-, -, -, hnone | ⟨code, info', es, hsome, -, heffects⟩⟩ :=
    c.finishFetch_spec prev ctx (some (result, info))
  · cases hnone.1
  cases hsome
  have htimer := (c.timer_finishFetch prev ctx result info).1
  have hcount : (c.emit (.ended ctx.block result info ctx.buf)).timeouts ≤
      (c.finishFetch prev ctx (some (result, info))).timeouts := by
    rw [timeouts, timeouts, heffects]
    refine List.Sublist.countP_le (List.Sublist.trans ?_ (List.sublist_append_left _ _))
    exact (List.sublist_append_left [_] es).append_left _
  by_cases ht : result = .operationTimedout
  · subst ht
    have hone : c.timeouts + 1 ≤
        (c.finishFetch prev ctx (some (.operationTimedout, info))).timeouts := by
      simpa [timeouts, emit, HttpsEffect.isTimeout] using hcount
    have hlt := (Nat.lt_succ_of_le h.le).trans_le hone
    exact ⟨hlt.le, fun _ => hlt⟩
  · refine h.of_le ((c.timeouts_emit _).trans hcount) fun hr => ?_
    rw [htimer] at hr
    simpa [ht] using hr

theorem startedAfter_step (lib : Libcurl) (h : StartedAfter n c) (e : HttpsEvent ρ) :
    StartedAfter n (c.step lib e) := by
  cases ha : c.acted lib e with
  | some p =>
    obtain ⟨c', msgs⟩ := p
    rw [step_of_acted lib ha]
    refine checkMultiInfo_keeps lib (fun _ _ => startedAfter_quietStep)
      (fun _ pre ctx _ result info _ h => startedAfter_finishFetch h _ ctx result info) msgs ?_
    exact of_acted (fun _ _ => startedAfter_quietStep) (fun _ _ => startedAfter_quietStep)
      (fun _ _ _ h => startedAfter_transferCallbacks _ (h.of_le le_rfl id)) ha h
  | none =>
    rcases quiet_step_of_not_acted lib ha with hq | ⟨postdata, resolv, id, data, -, hq⟩
    · exact hq.keeps (fun _ _ => startedAfter_quietStep) h
    · exact hq.keeps (fun _ _ => startedAfter_quietStep)
        (h.of_le (timeouts_emit _ _) fun hr => hr)

/-- An event that starts the timer has ended a transfer that timed out. -/
theorem timeouts_lt_of_starts (lib : Libcurl) {e : HttpsEvent ρ} (hoff : c.resetTimer = false)
    (hon : (c.step lib e).resetTimer = true) : c.timeouts < (c.step lib e).timeouts :=
  (startedAfter_step lib ⟨le_rfl, fun ht => by simp [hoff] at ht⟩ e).lt hon

end StartedAfter

/-- When the timer expires, every outstanding fetch is aborted, if libcurl plays its part. -/
theorem recovered_resetTimer (lib : Libcurl) {c : HttpsClient ρ} (hx : c.exited = false)
    (ht : c.resetTimer = true) (haccepted : c.ResetAccepted lib) :
    Recovered c (c.step lib .resetTimer) := by
  have hstep : c.step lib .resetTimer = c.resetTimerCb lib := by simp [step, hx, ht]
  have hx' : ({ c with resetTimer := false } : HttpsClient ρ).exited = false := hx
  have hreset := (httpsClientReset_recovered_iff lib hx').2 haccepted
  rw [hstep]
  exact ⟨hreset.exited, hreset.callbacks, hreset.fetches, hreset.curlm⟩

/-! ## The timer over a run -/

/-- The event is a call of `reset_timer_cb`. -/
def isResetTimer : HttpsEvent ρ → Bool
  | .resetTimer => true
  | _ => false

/-- The client with its reset timer. -/
def resetWatcher (lib : Libcurl) : Countdowns.Machine (HttpsClient ρ) (HttpsEvent ρ) where
  step := step lib
  active := resetTimer
  expires := isResetTimer

/-- `https_client_init`, at the time `now` : the reset timer is set and not started. -/
def clockedInit (lib : Libcurl) (stat : Bool) (T : Countdowns.Timer ω τ) (connLossTime now : τ) :
    Countdowns.Clocked (HttpsClient ρ) ω τ where
  state := httpsClientInit lib stat
  now := now
  watcher := T.init connLossTime

end HttpsClient

section Times

variable [AddCommGroup τ] [Preorder τ] [AddLeftMono τ]

/-- The reset timer over every run of the client at the times of its loop, with a libev whose
timers resume. While it runs, it is due when the rest of `conn_loss_time` has gone by, less all
the time it has run so far. Each time it expires it has run for `conn_loss_time` altogether, and
the outstanding fetches are aborted. An event that starts it again after that has ended a transfer
that timed out, and the timer is due at the time of this event already. -/
theorem resetTimes (lib : Libcurl) (stat : Bool) (T : Countdowns.Timer ω τ) (hT : T.Resumes)
    (connLossTime t₀ : τ) {es : List (Countdowns.Occurrence (HttpsEvent ρ) τ)}
    (hes : (HttpsClient.resetWatcher lib).TimelyRun T
      (HttpsClient.clockedInit lib stat T connLossTime t₀) es) :
    let m := HttpsClient.resetWatcher lib
    let start := HttpsClient.clockedInit lib stat T connLossTime t₀
    ((m.run T start es).state.resetTimer = true → T.due (m.run T start es).watcher =
      (m.run T start es).now + (connLossTime - m.ran T start es)) ∧
    ∀ before e after, es = before ++ e :: after → e.event = .resetTimer →
      connLossTime ≤ m.ran T start (before ++ [e]) ∧
      ((m.run T start before).state.exited = false →
        (m.run T start before).state.ResetAccepted lib →
        HttpsClient.Recovered (m.run T start before).state
          (m.run T start (before ++ [e])).state) ∧
      ∀ mid e' post, after = mid ++ e' :: post →
        let s := m.run T start (before ++ e :: mid)
        s.state.resetTimer = false → (m.tick T s e').state.resetTimer = true →
          s.state.timeouts < (m.tick T s e').state.timeouts ∧
          T.due (m.tick T s e').watcher ≤ e'.time := by
  intro m start
  have hactive : ∀ {fs}, m.TimelyRun T start fs →
      T.active (m.run T start fs).watcher = (m.run T start fs).state.resetTimer :=
    Countdowns.Machine.active_run (hT.active_init connLossTime)
  have hleft : T.left start.watcher start.now = connLossTime := Countdowns.Timer.left_init hT _
  refine ⟨fun ht => ?_, ?_⟩
  · rw [Countdowns.Machine.due_run hT ((hactive hes).trans ht), hleft]
  rintro before e after rfl he
  obtain ⟨hexpires, -⟩ := Countdowns.Machine.timelyRun_append.1 (List.append_cons .. ▸ hes)
  obtain ⟨hbefore, hlast⟩ := Countdowns.Machine.timelyRun_append.1 hexpires
  have hexpired : m.expires e.event = true := by rw [he]; rfl
  refine ⟨hleft ▸ Countdowns.Machine.left_le_ran hT hexpires hexpired, fun hx haccepted => ?_, ?_⟩
  · obtain ⟨hon, -⟩ := hlast.1.expired hexpired
    have hstep : (m.run T start (before ++ [e])).state =
        (m.run T start before).state.step lib .resetTimer := by
      rw [Countdowns.Machine.run_append, ← he]
      rfl
    rw [hstep]
    exact HttpsClient.recovered_resetTimer lib hx ((hactive hbefore).symm.trans hon) haccepted
  · rintro mid e' post rfl s hoff hon
    refine ⟨HttpsClient.timeouts_lt_of_starts lib hoff hon, ?_⟩
    -- the run as far as the event that starts the timer
    have hsplit : before ++ e :: (mid ++ e' :: post) =
        before ++ e :: (mid ++ [e']) ++ post := by simp
    have htick : m.tick T s e' = m.run T start (before ++ e :: (mid ++ [e'])) := by
      rw [← List.cons_append, ← List.append_assoc, Countdowns.Machine.run_append]
      rfl
    rw [hsplit] at hes
    obtain ⟨hstarted, -⟩ := Countdowns.Machine.timelyRun_append.1 hes
    have hdue := Countdowns.Machine.due_le_now hT hstarted hexpired
      ((hactive hstarted).trans (htick ▸ hon))
    rw [← htick] at hdue
    exact hdue

end Times

/-- libcurl opens a connection for each transfer, and closes one with the multi handle. -/
def keepingLibcurl : Libcurl where
  easySetopt _ := true
  multiSetopt _ := true
  addHandle _ := ⟨[.openSocket (some 5), .multiTimer 10000], .ok⟩
  removeHandle _ := ⟨[], .ok⟩
  socketAction _ := ⟨[], .ok⟩
  multiCleanup _ := [.closeSocket true]

/-- A timer that keeps the time at which it is due while it is active, and otherwise what is
left. -/
def countdown [AddCommGroup τ] : Countdowns.Timer (Bool × τ) τ where
  init after := (false, after)
  start w now := if w.1 then w else (true, now + w.2)
  stop w now := if w.1 then (false, w.2 - now) else w
  active := Prod.fst
  due := Prod.snd

theorem resumes_countdown [AddCommGroup τ] :
    (countdown : Countdowns.Timer (Bool × τ) τ).Resumes where
  active_init _ := rfl
  due_init _ _ := rfl
  active_start w now := by cases hw : w.1 <;> simp [countdown, hw]
  active_stop w now := by cases hw : w.1 <;> simp [countdown, hw]
  start_active w now hw := if_pos hw
  stop_inactive w now hw := if_neg (by simpa [countdown] using hw)
  due_later w now later hw := by
    have hw' : w.1 = false := hw
    simp only [countdown, hw', Bool.false_eq_true, if_false]
    abel
  due_restart w now hw := by
    have hw' : w.1 = true := hw
    simp [countdown, hw']

/-- A fetch times out after ten seconds, and after fifteen more the client is reset. Much later
one of two fetches times out. -/
def lostAgain : List (Countdowns.Occurrence (HttpsEvent Unit) ℤ) :=
  [⟨0, .fetch [] none 7 (), []⟩,
    ⟨10, .timer [.done 0 .operationTimedout ⟨none, none, none⟩], [true]⟩,
    ⟨25, .resetTimer, [false, false]⟩, ⟨90, .fetch [] none 8 (), []⟩, ⟨99, .fetch [] none 9 (), []⟩,
    ⟨100, .timer [.done 1 .operationTimedout ⟨none, none, none⟩], [true]⟩]

/-- The second timeout starts the timer with nothing left. The reset is due at once, and aborts
the fetch that was started a second before. -/
theorem resetTimes_lostAgain :
    let m := HttpsClient.resetWatcher keepingLibcurl
    let s := m.run countdown (HttpsClient.clockedInit keepingLibcurl false countdown 15 0) lostAgain
    s.state.resetTimer = true ∧ countdown.due s.watcher ≤ 100 ∧
      (s.state.step keepingLibcurl .resetTimer).callbacks =
        [(0, (), none), (1, (), none), (2, (), none)] := by
  intro m s
  have htimely : m.TimelyRun countdown
      (HttpsClient.clockedInit keepingLibcurl false countdown 15 0) lostAgain :=
    ⟨⟨by decide, (fun h => by cases h), by decide⟩, ⟨by decide, (fun h => by cases h), by decide⟩,
      ⟨by decide, fun _ => ⟨by decide, by decide⟩, by decide⟩,
      ⟨by decide, (fun h => by cases h), by decide⟩, ⟨by decide, (fun h => by cases h), by decide⟩,
      ⟨by decide, (fun h => by cases h), by decide⟩, trivial⟩
  obtain ⟨-, -, hagain⟩ := (resetTimes keepingLibcurl false countdown resumes_countdown 15 0
    htimely).2 (lostAgain.take 2) _ (lostAgain.drop 3) rfl rfl
  obtain ⟨-, hdue⟩ := hagain [⟨90, .fetch [] none 8 (), []⟩, ⟨99, .fetch [] none 9 (), []⟩] _ [] rfl
    (by decide) (by decide)
  exact ⟨by decide, hdue, by decide⟩

end HttpsDnsProxy
