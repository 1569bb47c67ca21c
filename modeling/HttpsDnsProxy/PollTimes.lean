import HttpsDnsProxy.PolledProxy
import HttpsDnsProxy.Timers
import Mathlib.Algebra.Order.Group.Nat

/-!
# When lookups are made

`ares_cb` sets the timer of the poller to the polling interval behind a lookup that has brought
addresses, and to five seconds behind any other. While a lookup is outstanding the timer runs too,
for the timeouts of c-ares.

`Calls` says what a call of c-ares can do to the poller, `step_cases` what an event can : it leaves
the poller waiting for the next lookup, or with one outstanding, or it ends one and sets the
timer. `Schedule` is what this comes to at the times of a clock.

`pollTimes` : with the proxy around the poller, no lookup is started before the time that the one
before it has set, and no socket is reported behind that time while none is outstanding.
-/

namespace HttpsDnsProxy

variable {ν : Type*}

namespace DnsPoller

/-! ## Calls of c-ares -/

/-- The time `ares_cb` sets the timer to : the polling interval if the lookup has brought
addresses, and otherwise five seconds. -/
def wait (d d' : DnsPoller ν) : ℕ :=
  if d'.polled.length = d.polled.length then 5000 else d.pollingInterval * 1000

/-- What c-ares can do with at most one lookup outstanding : end it, or neither end it nor touch
the timer. -/
inductive Calls (d d' : DnsPoller ν) : Prop where
  | nothing : d'.pollingInterval = d.pollingInterval → d'.lookups = d.lookups →
      d'.requestOngoing = d.requestOngoing → d'.timer = d.timer → d'.polled = d.polled → Calls d d'
  | ended : d'.pollingInterval = d.pollingInterval → d.lookups = 1 → d'.lookups = 0 →
      d'.requestOngoing = false → d'.timer = some (d.wait d') → Calls d d'

theorem calls_act {d : DnsPoller ν} (h : d.lookups ≤ 1) {a : AresAction ν} (ha : a.Alive) :
    Calls d (d.act a) := by
  cases a with
  | sockState fd read write =>
    obtain ⟨ioEvents, exited, heq⟩ := d.sockStateCb_eq fd read write
    rw [act, heq]
    split_ifs <;> exact .nothing rfl rfl rfl rfl rfl
  | callback result =>
    rw [act]
    split_ifs with hnone
    · exact .nothing rfl rfl rfl rfl rfl
    · have hone : d.lookups = 1 := by
        have hpos : d.lookups ≠ 0 := fun h0 => hnone (by simp [h0])
        omega
      obtain ⟨status, nodes⟩ := result
      have halive : status ≠ .edestruction := ha
      refine .ended ?_ hone ?_ ?_ ?_ <;> unfold aresCb
      all_goals
        cases status with
        | edestruction => exact absurd rfl halive
        | other code => simp [wait, hone]
        | success => rcases nodes with _ | _ | ⟨node, nodes⟩ <;> simp [wait, hone]

theorem Calls.trans {d d' d'' : DnsPoller ν} (h : Calls d d') (h' : Calls d' d'') :
    Calls d d'' := by
  cases h with
  | nothing hint hlook hreq htimer hpolled =>
    cases h' with
    | nothing hint' hlook' hreq' htimer' hpolled' =>
      exact .nothing (hint'.trans hint) (hlook'.trans hlook) (hreq'.trans hreq)
        (htimer'.trans htimer) (hpolled'.trans hpolled)
    | ended hint' hone hlook' hreq' htimer' =>
      refine .ended (hint'.trans hint) (hlook.symm.trans hone) hlook' hreq' ?_
      rw [htimer', wait, wait, hpolled, hint]
  | ended hint hone hlook hreq htimer =>
    cases h' with
    | nothing hint' hlook' hreq' htimer' hpolled' =>
      refine .ended (hint'.trans hint) hone (hlook'.trans hlook) (hreq'.trans hreq) ?_
      rw [htimer', htimer, wait, wait, hpolled']
    | ended _ hone' =>
      rw [hlook] at hone'
      cases hone'

theorem Calls.lookups_le {d d' : DnsPoller ν} (h : Calls d d') (hle : d.lookups ≤ 1) :
    d'.lookups ≤ 1 := by
  cases h with
  | nothing _ hlook => rwa [hlook]
  | ended _ _ hlook => omega

theorem calls_ares {actions : List (AresAction ν)} (ha : ∀ a ∈ actions, a.Alive)
    {d : DnsPoller ν} (h : d.lookups ≤ 1) : Calls d (d.ares actions) := by
  refine Runs.invariant_of_mem (P := fun d' => Calls d d')
    (fun d' a hmem hd' => hd'.trans (calls_act (hd'.lookups_le h) (ha a hmem)))
    (.nothing rfl rfl rfl rfl rfl)

/-- Nothing but the timer depends on the timer. -/
theorem act_withTimer (d : DnsPoller ν) (t : Option ℕ) (a : AresAction ν) :
    ∃ t', ({ d with timer := t } : DnsPoller ν).act a = { d.act a with timer := t' } := by
  cases a with
  | sockState fd read write =>
    have hsock : ({ d with timer := t } : DnsPoller ν).sockStateCb fd read write =
        { d.sockStateCb fd read write with timer := t } := by
      unfold sockStateCb
      dsimp only
      split_ifs
      · rfl
      · generalize SlotTable.reserve IoEvent.fd _ _ = reserved
        cases reserved <;> rfl
    refine ⟨t, ?_⟩
    rw [act, act, hsock]
    by_cases hexited : d.exited = true
    · rw [if_pos hexited, if_pos hexited]
    · rw [if_neg hexited, if_neg hexited]
  | callback result =>
    rw [act, act]
    by_cases hnone : (d.exited || decide (d.lookups = 0)) = true
    · exact ⟨t, by rw [if_pos hnone, if_pos hnone]⟩
    · rw [if_neg hnone, if_neg hnone]
      obtain ⟨status, nodes⟩ := result
      unfold aresCb
      cases status with
      | edestruction => exact ⟨t, by simp⟩
      | other code => exact ⟨some 5000, by simp⟩
      | success =>
        rcases nodes with _ | _ | ⟨node, nodes⟩
        · exact ⟨some 5000, by simp⟩
        · exact ⟨some 5000, by simp⟩
        · exact ⟨some (d.pollingInterval * 1000), by simp⟩

theorem ares_withTimer (t : Option ℕ) (actions : List (AresAction ν)) (d : DnsPoller ν) :
    ∃ t', ({ d with timer := t } : DnsPoller ν).ares actions =
      { d.ares actions with timer := t' } := by
  induction actions generalizing d t with
  | nil => exact ⟨t, rfl⟩
  | cons a actions ih =>
    obtain ⟨t', ht'⟩ := d.act_withTimer t a
    obtain ⟨t'', ht''⟩ := ih t' (d.act a)
    refine ⟨t'', ?_⟩
    simp only [ares, List.foldl_cons, ht'] at ht'' ⊢
    exact ht''

/-! ## Events -/

/-- The event is the expiry of the timer. -/
def isTimer : PollerEvent ν → Bool
  | .timer _ _ _ => true
  | _ => false

/-- The time the event sets the timer to, if it does. libev stops the timer before its callback,
so what it leaves there the callback has set. -/
def setsTimer (d : DnsPoller ν) (e : PollerEvent ν) : Option ℕ :=
  match e with
  | .timer _ _ _ => if d.exited then none else (d.step e).timer
  | e => (({ d with timer := none } : DnsPoller ν).step e).timer

/-- What an event can do : with no lookup outstanding leave the poller waiting, have one
outstanding, or end one. -/
inductive Moves (d : DnsPoller ν) (e : PollerEvent ν) (d' : DnsPoller ν) : Prop where
  | waits : d.requestOngoing = false → isTimer e = false → d'.requestOngoing = false →
      d.setsTimer e = none → Moves d e d'
  | asks : (d.requestOngoing = true ∨ isTimer e = true) → d'.requestOngoing = true → Moves d e d'
  | ended : (d.requestOngoing = true ∨ isTimer e = true) → d'.requestOngoing = false →
      d.setsTimer e = some (d.wait d') → Moves d e d'

/-- A call of c-ares from a socket, or at another time. -/
theorem moves_of_ares {d : DnsPoller ν} (h : Armed d) {actions : List (AresAction ν)}
    (ha : ∀ a ∈ actions, a.Alive) {e : PollerEvent ν} (he : isTimer e = false)
    (hset : d.setsTimer e = (({ d with timer := none } : DnsPoller ν).ares actions).timer) :
    Moves d e (d.ares actions) := by
  obtain ⟨t', ht'⟩ := ares_withTimer none actions d
  have hcalls := calls_ares ha (d := { d with timer := none }) h.le_one
  rw [ht'] at hcalls hset
  cases hcalls with
  | nothing hint hlook hreq htimer hpolled =>
    cases hongoing : d.requestOngoing with
    | false => exact .waits hongoing he (hreq.trans hongoing) (hset.trans htimer)
    | true => exact .asks (Or.inl hongoing) (hreq.trans hongoing)
  | ended hint hone hlook hreq htimer =>
    exact .ended (Or.inl (h.ongoing.2 hone)) hreq (hset.trans htimer)

/-- `timer_cb` with a lookup outstanding, or with the one that it has started. -/
theorem moves_of_timer {d : DnsPoller ν} (d₀ : DnsPoller ν) (hongoing : d₀.requestOngoing = true)
    (hlook : d₀.lookups ≤ 1) (hint : d₀.pollingInterval = d.pollingInterval)
    (hpolled : d₀.polled = d.polled) {actions : List (AresAction ν)}
    (ha : ∀ a ∈ actions, a.Alive) {e : PollerEvent ν} (he : isTimer e = true) (timeout : ℕ)
    {d' : DnsPoller ν}
    (hd' : d' = if (d₀.ares actions).requestOngoing then
      { d₀.ares actions with timer := some (getTimeout timeout) } else d₀.ares actions)
    (hset : d.setsTimer e = d'.timer) : Moves d e d' := by
  cases calls_ares ha hlook with
  | nothing _ _ hreq _ _ =>
    rw [hreq, hongoing, if_pos rfl] at hd'
    exact .asks (Or.inr he) (by rw [hd']; exact hreq.trans hongoing)
  | ended _ _ _ hreq htimer =>
    rw [hreq, if_neg Bool.false_ne_true] at hd'
    refine .ended (Or.inr he) (by rw [hd']; exact hreq) ?_
    rw [hset, hd', htimer, wait, wait, hpolled, hint]

theorem step_moves {d : DnsPoller ν} (h : Armed d) (hexited : d.exited = false)
    {e : PollerEvent ν} (he : e.Alive) : Moves d e (d.step e) := by
  cases e with
  | ares actions =>
    have hstep : d.step (.ares actions) = d.ares actions := by simp [step, hexited]
    rw [hstep]
    exact moves_of_ares h he rfl (by simp [setsTimer, step, hexited])
  | sock fd actions =>
    by_cases hw : (d.ioEvents.any fun w => w.fd = fd && w.active) = true
    · have hstep : d.step (.sock fd actions) = d.ares actions := by simp [step, hexited, hw]
      rw [hstep]
      exact moves_of_ares h he rfl (by simp [setsTimer, step, hexited, hw])
    · have hstep : d.step (.sock fd actions) = d.ares [] := by simp [step, hexited, hw, ares]
      rw [hstep]
      exact moves_of_ares h (by simp) rfl (by simp [setsTimer, step, hexited, hw, ares])
  | timer cancelled actions timeout =>
    have hset : d.setsTimer (.timer cancelled actions timeout) =
        (d.step (.timer cancelled actions timeout)).timer := by
      rw [setsTimer, if_neg (by simp [hexited])]
    have hstep : d.step (.timer cancelled actions timeout) =
        ({ d with timer := none } : DnsPoller ν).timerCb cancelled actions timeout := by
      simp [step, hexited, h.timer]
    cases hongoing : d.requestOngoing with
    | true =>
      refine moves_of_timer (d := d) { d with timer := none } hongoing h.le_one rfl rfl he.2 rfl
        timeout ?_ hset
      rw [hstep, timerCb]
      simp only [hongoing, if_true]
    | false =>
      have hzero : d.lookups = 0 := h.none_of_idle hongoing
      cases calls_ares he.1 (d := { d with timer := none }) h.le_one with
      | ended _ hone => exact absurd (hone.symm.trans hzero) (by decide)
      | nothing hint hlook _ _ hpolled =>
        refine moves_of_timer (d := d)
          { ({ d with timer := none } : DnsPoller ν).ares cancelled with
            requestOngoing := true
            lookups := (({ d with timer := none } : DnsPoller ν).ares cancelled).lookups + 1 }
          rfl ?_ hint hpolled he.2 rfl timeout ?_ hset
        · exact Nat.succ_le_succ (hlook.trans hzero).le
        · rw [hstep, timerCb]
          simp only [hongoing]
          rfl

end DnsPoller

/-! ## The poller in the proxy -/

namespace PolledProxy

variable (env : PolledEnvironment)

/-- The process goes on. -/
def alive (s : PolledProxy) : Bool :=
  !(s.crashed || !s.proxy.running || s.poller.exited)

/-- The proxy with the timer of its poller. libev reports the sockets it has polled, of the proxy
as well as of c-ares, behind the timers that are due. -/
def timers : Timers.Machine PolledProxy PolledEvent Unit ℕ where
  step := step env
  active s _ := s.poller.timer.isSome
  sets s e _ :=
    match e with
    | .poller e => if s.alive then s.poller.setsTimer e else none
    | .proxy _ => none
  expires
    | .poller (.timer _ _ _) => some ()
    | _ => none
  polled
    | .poller (.sock _ _) => true
    | .proxy (.accept _) => true
    | .proxy (.tcpRead _ _ _) => true
    | .proxy (.udp _) => true
    | .proxy (.sock _ _) => true
    | _ => false

/-- `main` before its first `ev_run`, at the time 0. `dns_poller_init` has set the timer to 0. -/
def clockedStart (opt : Options) (aresReady : Bool) (bootstrapDns : CString)
    (pollingInterval : ℕ) : Timers.Clocked PolledProxy Unit ℕ where
  state := start env opt aresReady bootstrapDns pollingInterval
  now := 0
  due _ := some 0

/-- The event ends a lookup, and the next one is to be made after the time `w`. -/
def Ends (w : ℕ) (s : PolledProxy) : PolledEvent → Prop
  | .poller e =>
    (s.poller.requestOngoing = true ∨ DnsPoller.isTimer e = true) ∧
      (s.poller.step e).requestOngoing = false ∧ w = s.poller.wait (s.poller.step e)
  | .proxy _ => False

/-- No lookup is ended by the destruction of c-ares in the event. -/
def AresAlive : PolledEvent → Prop
  | .poller e => e.Alive
  | .proxy _ => True

variable {env} {s : PolledProxy} {e : PolledEvent}

theorem step_of_dead (h : s.alive = false) : s.step env e = s := by
  rw [step.eq_def, if_pos (by simpa only [alive, Bool.not_eq_false'] using h)]

theorem alive_of_step (h : (s.step env e).alive = true) : s.alive = true := by
  by_contra hdead
  rw [step_of_dead (by simpa using hdead)] at h
  exact hdead h

theorem armed_step (h : s.poller.Armed) (he : AresAlive e) : (s.step env e).poller.Armed := by
  by_cases halive : s.alive = true
  · cases e with
    | poller e =>
      rw [poller_step_poller (by simpa [alive] using halive)]
      exact h.step he
    | proxy e =>
      rw [poller_step_proxy]
      exact h
  · rw [step_of_dead (by simpa using halive)]
    exact h

/-! ## The schedule -/

/-- What the lookups that have ended by now have set : with none outstanding the timer is due at
the time that the last of them has set, and with one outstanding all of these times are over. -/
structure Schedule (s : Timers.Clocked PolledProxy Unit ℕ) (ends : ℕ → ℕ → Prop) : Prop where
  armed : s.state.poller.Armed
  idle : s.state.poller.requestOngoing = false → ∃ d, s.due () = some d ∧
    (∀ t w, ends t w → t + w ≤ d) ∧
    ((∃ t w, ends t w ∧ d = t + w) ∨ ((∀ t w, ¬ends t w) ∧ d = 0))
  busy : s.state.poller.requestOngoing = true → ∀ t w, ends t w → t + w ≤ s.now

variable {c : Timers.Clocked PolledProxy Unit ℕ} {ends : ℕ → ℕ → Prop}

/-- Where a lookup is started or was outstanding, the times set before are over. -/
theorem Schedule.over (h : Schedule c ends) {t : ℕ} {e : PollerEvent AddrNode}
    (htimely : (timers env).Timely c (t, .poller e))
    (he : c.state.poller.requestOngoing = true ∨ DnsPoller.isTimer e = true) :
    ∀ t' w, ends t' w → t' + w ≤ t := by
  intro t' w hends
  cases hongoing : c.state.poller.requestOngoing with
  | true => exact (h.busy hongoing t' w hends).trans htimely.now_le
  | false =>
    obtain ⟨d, hdue, hle, -⟩ := h.idle hongoing
    have htimer : DnsPoller.isTimer e = true := he.resolve_left (by simp [hongoing])
    have hexpires : (timers env).expires (.poller e) = some () := by
      cases e with
      | timer => rfl
      | sock | ares => cases htimer
    obtain ⟨d', hdue', hd'⟩ := htimely.expired () hexpires
    obtain rfl := Option.some.inj (hdue.symm.trans hdue')
    exact (hle t' w hends).trans hd'

/-- An event that ends no lookup and leaves none outstanding. -/
theorem Schedule.waits (h : Schedule c ends) {c' : Timers.Clocked PolledProxy Unit ℕ}
    {ends' : ℕ → ℕ → Prop} (harmed : c'.state.poller.Armed)
    (hongoing : c'.state.poller.requestOngoing = c.state.poller.requestOngoing)
    (hdue : c.state.poller.requestOngoing = false → c'.due () = c.due ()) (hnow : c.now ≤ c'.now)
    (hends : ∀ t w, ends' t w ↔ ends t w) : Schedule c' ends' := by
  obtain rfl : ends' = ends := funext fun t => funext fun w => propext (hends t w)
  refine ⟨harmed, fun hidle => ?_, fun hbusy t w hend => ?_⟩
  · rw [hongoing] at hidle
    rw [hdue hidle]
    exact h.idle hidle
  · exact (h.busy (hongoing ▸ hbusy) t w hend).trans hnow

/-- One event keeps to the schedule. -/
theorem Schedule.tick (h : Schedule c ends) {t : ℕ} (he : AresAlive e)
    (htimely : (timers env).Timely c (t, e))
    (halive : ((timers env).tick c (t, e)).state.alive = true) :
    Schedule ((timers env).tick c (t, e))
      (fun t' w => ends t' w ∨ (t = t' ∧ Ends w c.state e)) := by
  have hbefore : c.state.alive = true := alive_of_step halive
  have harmed : ((timers env).tick c (t, e)).state.poller.Armed := armed_step h.armed he
  have hsame : (timers env).sets c.state e () = none →
      ((timers env).tick c (t, e)).due () = c.due () := by
    intro hset
    have hactive : (timers env).active ((timers env).step c.state e) () = true := harmed.timer
    rw [Timers.Machine.tick]
    simp only [hactive, hset, if_true]
    rfl
  cases e with
  | proxy e =>
    have hpoller : ((timers env).tick c (t, .proxy e)).state.poller = c.state.poller :=
      poller_step_proxy e
    exact h.waits harmed (by rw [hpoller]) (fun _ => hsame rfl) htimely.now_le
      (fun t' w => ⟨fun hor => hor.resolve_right fun hend => hend.2, Or.inl⟩)
  | poller e =>
    have hpoller : ((timers env).tick c (t, .poller e)).state.poller = c.state.poller.step e :=
      poller_step_poller (by simpa [alive] using hbefore) e
    have hsets : (timers env).sets c.state (.poller e) () = c.state.poller.setsTimer e :=
      if_pos hbefore
    have hexited : c.state.poller.exited = false := by
      simp only [alive, Bool.not_or, Bool.and_eq_true, Bool.not_eq_true'] at hbefore
      exact hbefore.2
    cases DnsPoller.step_moves h.armed hexited he with
    | waits hidle hnot hidle' hset =>
      refine h.waits harmed (by rw [hpoller, hidle, hidle']) (fun _ => hsame (hsets.trans hset))
        htimely.now_le fun t' w => ⟨fun hor => hor.resolve_right fun hend => ?_, Or.inl⟩
      rcases hend.2.1 with hend | hend
      · rw [hidle] at hend
        cases hend
      · rw [hnot] at hend
        cases hend
    | asks hor hbusy' =>
      refine ⟨harmed, fun hidle => ?_, fun _ t' w hends => ?_⟩
      · rw [hpoller, hbusy'] at hidle
        cases hidle
      · refine h.over htimely hor t' w (hends.resolve_right fun hend => ?_)
        have hended := hend.2.2.1
        rw [hbusy'] at hended
        cases hended
    | ended hor hidle' hset =>
      refine ⟨harmed, fun _ => ⟨t + c.state.poller.wait (c.state.poller.step e), ?_, ?_, ?_⟩,
        fun hbusy => ?_⟩
      · exact Timers.Machine.due_tick.2 ⟨harmed.timer, Or.inl ⟨_, hsets.trans hset, rfl⟩⟩
      · rintro t' w (hend | ⟨rfl, -, -, rfl⟩)
        · exact (h.over htimely hor t' w hend).trans (Nat.le_add_right _ _)
        · exact le_rfl
      · exact Or.inl ⟨t, _, Or.inr ⟨rfl, hor, hidle', rfl⟩, rfl⟩
      · rw [hpoller, hidle'] at hbusy
        cases hbusy

theorem schedule_run (opt : Options) (aresReady : Bool) (bootstrapDns : CString)
    (pollingInterval : ℕ) (es : List (ℕ × PolledEvent)) (hes : ∀ e ∈ es, AresAlive e.2)
    (htimely : (timers env).TimelyRun
      (clockedStart env opt aresReady bootstrapDns pollingInterval) es)
    (halive : ((timers env).run (clockedStart env opt aresReady bootstrapDns pollingInterval)
      es).state.alive = true) :
    Schedule ((timers env).run (clockedStart env opt aresReady bootstrapDns pollingInterval) es)
      (fun t w => (timers env).HappensAt (Ends w)
        (clockedStart env opt aresReady bootstrapDns pollingInterval) es t) := by
  induction es using List.reverseRecOn with
  | nil =>
    refine ⟨DnsPoller.armed_init aresReady bootstrapDns pollingInterval, fun _ => ?_, fun h => ?_⟩
    · exact ⟨0, rfl, fun t w h => (Timers.Machine.not_happensAt_nil h).elim,
        Or.inr ⟨fun t w => Timers.Machine.not_happensAt_nil, rfl⟩⟩
    · cases h
  | append_singleton es e ih =>
    obtain ⟨t, e⟩ := e
    obtain ⟨hrun, he⟩ := Timers.Machine.timelyRun_concat.1 htimely
    rw [Timers.Machine.run_concat] at halive ⊢
    have hbefore := ih (fun e' he' => hes e' (List.mem_append_left _ he')) hrun
      (alive_of_step halive)
    have htick := hbefore.tick (hes (t, e) (by simp)) he halive
    have hends : (fun t' w => (timers env).HappensAt (Ends w)
        (clockedStart env opt aresReady bootstrapDns pollingInterval) (es ++ [(t, e)]) t') = _ :=
      funext fun t' => funext fun w => propext Timers.Machine.happensAt_concat
    rw [hends]
    exact htick

/-- A lookup of the run ends at the time `t`, and the next one is to be made after `w`. -/
def LookupEndsAt (env : PolledEnvironment) (opt : Options) (aresReady : Bool)
    (bootstrapDns : CString) (pollingInterval : ℕ) (es : List (ℕ × PolledEvent)) (t w : ℕ) : Prop :=
  (timers env).HappensAt (Ends w) (clockedStart env opt aresReady bootstrapDns pollingInterval) es t

end PolledProxy

/-- The times of lookups, for every run of the proxy with its poller at the times of a clock, and
every event that comes next while the process goes on and no lookup is outstanding. A timer event
starts a lookup, and it does not come before any lookup so far has ended and the time that it has
set is over : the polling interval if it has brought addresses, otherwise five seconds. A socket,
of the proxy or of c-ares, is not reported behind that time of the last lookup. -/
theorem pollTimes (env : PolledEnvironment) (opt : Options) (aresReady : Bool)
    (bootstrapDns : CString) (pollingInterval : ℕ) (es : List (ℕ × PolledEvent)) (t : ℕ)
    (e : PolledEvent) (hes : ∀ e ∈ es, PolledProxy.AresAlive e.2)
    (htimely : (PolledProxy.timers env).TimelyRun
      (PolledProxy.clockedStart env opt aresReady bootstrapDns pollingInterval) (es ++ [(t, e)]))
    (halive : (PolledProxy.run env opt aresReady bootstrapDns pollingInterval
      (es.map Prod.snd)).alive = true)
    (hidle : (PolledProxy.run env opt aresReady bootstrapDns pollingInterval
      (es.map Prod.snd)).poller.requestOngoing = false) :
    let ends := PolledProxy.LookupEndsAt env opt aresReady bootstrapDns pollingInterval es
    (∀ cancelled actions timeout, e = .poller (.timer cancelled actions timeout) →
        ∀ t' w, ends t' w → t' + w ≤ t) ∧
      ((PolledProxy.timers env).polled e = true →
        (∃ t' w, ends t' w ∧ t ≤ t' + w) ∨ ((∀ t' w, ¬ends t' w) ∧ t = 0)) := by
  intro ends
  obtain ⟨hrun, he⟩ := Timers.Machine.timelyRun_concat.1 htimely
  have hstate : ((PolledProxy.timers env).run (PolledProxy.clockedStart env opt aresReady
      bootstrapDns pollingInterval) es).state =
      PolledProxy.run env opt aresReady bootstrapDns pollingInterval (es.map Prod.snd) :=
    Timers.Machine.state_run _ _
  have hschedule := PolledProxy.schedule_run opt aresReady bootstrapDns pollingInterval es hes
    hrun (by rw [hstate]; exact halive)
  constructor
  · rintro cancelled actions timeout rfl
    exact hschedule.over he (Or.inr rfl)
  · intro hpolled
    obtain ⟨d, hdue, -, hlast⟩ := hschedule.idle (by rw [hstate]; exact hidle)
    have hle : t ≤ d := he.behind hpolled () d hdue
    rcases hlast with ⟨t', w, hend, rfl⟩ | ⟨hnone, rfl⟩
    · exact Or.inl ⟨t', w, hend, hle⟩
    · exact Or.inr ⟨hnone, Nat.le_zero.1 hle⟩

/-- The first lookup fails after 30 ms. -/
def failedLookup : List (ℕ × PolledEvent) :=
  [(0, .poller (.timer [] [] 700)), (30, .poller (.ares [.callback ⟨.other 11, none⟩]))]

/-- The second one is made five seconds later. -/
theorem pollTimes_retry :
    let ends := PolledProxy.LookupEndsAt polledAnswering ⟨false, 0, 4, some ['d']⟩ true
      ['8'] 120 failedLookup
    ends 30 5000 ∧ ∀ t' w, ends t' w → t' + w ≤ 5030 := by
  have htimely : (PolledProxy.timers polledAnswering).TimelyRun
      (PolledProxy.clockedStart polledAnswering ⟨false, 0, 4, some ['d']⟩ true ['8'] 120)
      (failedLookup ++ [(5030, .poller (.timer [] [] 700))]) :=
    ⟨⟨le_rfl, fun _ _ => ⟨0, rfl, le_rfl⟩, fun h => by cases h⟩,
      ⟨Nat.zero_le _, (fun _ h => by cases h), fun h => by cases h⟩,
      ⟨by decide, fun _ _ => ⟨5030, rfl, le_rfl⟩, fun h => by cases h⟩, trivial⟩
  have halive : ∀ e ∈ failedLookup, PolledProxy.AresAlive e.2 := by
    simp [failedLookup, PolledProxy.AresAlive, PollerEvent.Alive, AresAction.Alive]
  refine ⟨⟨[(0, .poller (.timer [] [] 700))], _, [], rfl, Or.inl rfl, rfl, rfl⟩, ?_⟩
  exact (pollTimes polledAnswering ⟨false, 0, 4, some ['d']⟩ true ['8'] 120 failedLookup
    5030 _ halive htimely rfl rfl).1 [] [] 700 rfl

end HttpsDnsProxy
