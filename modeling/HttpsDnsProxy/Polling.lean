import HttpsDnsProxy.DnsPoller

/-!
# Polling over whole runs

`Armed` holds between events : the timer is active, and a request is ongoing exactly while one
lookup is outstanding. Inside `timer_cb` the timer is off, and whichever call ends the lookup,
`ares_cb` or the end of `timer_cb` sets it again (`Armed.timerCb`). So polling never stalls and
never starts a lookup over another (`polling_armed`).

The table of watchers has one slot for each nameserver, and the process ends once c-ares
waits for more sockets than that (`pollerSlots_iff`), say for a TCP socket beside a UDP one
(`pollerSlots_tcp`).
-/

namespace HttpsDnsProxy

variable {ν : Type*}

/-! ## The timer and the lookup -/

/-- c-ares does not say that it is being destroyed. -/
def AresAction.Alive : AresAction ν → Prop
  | .sockState _ _ _ => True
  | .callback result => result.status ≠ .edestruction

/-- No lookup is ended by the destruction of c-ares in the event. -/
def PollerEvent.Alive : PollerEvent ν → Prop
  | .timer cancelled actions _ => (∀ a ∈ cancelled, a.Alive) ∧ ∀ a ∈ actions, a.Alive
  | .sock _ actions => ∀ a ∈ actions, a.Alive
  | .ares actions => ∀ a ∈ actions, a.Alive

namespace DnsPoller

variable {d : DnsPoller ν}

/-- A request is ongoing exactly while one lookup is outstanding, and there is no other. -/
structure Single (d : DnsPoller ν) : Prop where
  le_one : d.lookups ≤ 1
  ongoing : d.requestOngoing = true ↔ d.lookups = 1

/-- Between events the timer is active as well. -/
structure Armed (d : DnsPoller ν) : Prop extends Single d where
  timer : d.timer.isSome

/-- Inside an event the timer is active, or a request is ongoing. -/
structure Pending (d : DnsPoller ν) : Prop extends Single d where
  timer : d.timer.isSome ∨ d.requestOngoing = true

theorem Single.none_of_idle (h : Single d) (hidle : d.requestOngoing = false) : d.lookups = 0 := by
  have hle := h.le_one
  have hne : d.lookups ≠ 1 := fun h1 => by
    rw [h.ongoing.2 h1] at hidle
    cases hidle
  omega

/-- `sock_state_cb` touches its table only. -/
theorem sockStateCb_eq (d : DnsPoller ν) (fd : ℕ) (read write : Bool) :
    ∃ ioEvents exited, d.sockStateCb fd read write =
      { d with ioEvents := ioEvents, exited := exited } := by
  unfold sockStateCb
  simp only
  split_ifs
  · exact ⟨_, d.exited, rfl⟩
  · split
    · exact ⟨_, true, rfl⟩
    · exact ⟨_, d.exited, rfl⟩

/-- `ares_cb` ends the request and sets the timer, unless c-ares is being destroyed. -/
theorem aresCb_spec (d : DnsPoller ν) (result : AresResult ν) :
    (d.aresCb result).requestOngoing = false ∧ (d.aresCb result).lookups = d.lookups ∧
      (d.aresCb result).ioEvents = d.ioEvents ∧
      (result.status ≠ .edestruction → (d.aresCb result).timer.isSome) ∧
      (result.status = .edestruction → (d.aresCb result).timer = d.timer) := by
  obtain ⟨status, nodes⟩ := result
  unfold aresCb
  cases status with
  | success => rcases nodes with _ | _ | ⟨node, nodes⟩ <;> simp
  | edestruction => simp
  | other code => simp

/-- An action of c-ares leaves the timer active, once it is. -/
theorem timer_act {a : AresAction ν} (ha : a.Alive) (h : d.timer.isSome) :
    (d.act a).timer.isSome := by
  cases a with
  | sockState fd read write =>
    obtain ⟨ioEvents, exited, heq⟩ := d.sockStateCb_eq fd read write
    rw [act, heq]
    split_ifs <;> exact h
  | callback result =>
    rw [act]
    split_ifs
    · exact h
    · exact (aresCb_spec _ result).2.2.2.1 ha

theorem timer_ares {actions : List (AresAction ν)} (ha : ∀ a ∈ actions, a.Alive)
    (h : d.timer.isSome) : (d.ares actions).timer.isSome :=
  Runs.invariant_of_mem (P := fun d : DnsPoller ν => d.timer.isSome)
    (fun _ a hmem h => timer_act (ha a hmem) h) h

/-- An action of c-ares ends the lookup and sets the timer, or changes neither. -/
theorem Pending.act (h : Pending d) {a : AresAction ν} (ha : a.Alive) : Pending (d.act a) := by
  cases a with
  | sockState fd read write =>
    obtain ⟨ioEvents, exited, heq⟩ := d.sockStateCb_eq fd read write
    rw [DnsPoller.act, heq]
    split_ifs
    · exact h
    · exact ⟨⟨h.le_one, h.ongoing⟩, h.timer⟩
  | callback result =>
    rw [DnsPoller.act]
    split_ifs with hnone
    · exact h
    · have hle := h.le_one
      have hpos : d.lookups ≠ 0 := fun h0 => hnone (by simp [h0])
      obtain ⟨hongoing, hlookups, -, htimer, -⟩ :=
        aresCb_spec { d with lookups := d.lookups - 1 } result
      have hzero :
          (({ d with lookups := d.lookups - 1 } : DnsPoller ν).aresCb result).lookups = 0 :=
        hlookups.trans (by simp only; omega)
      refine ⟨⟨hzero.le.trans (Nat.zero_le 1), ?_⟩, Or.inl (htimer ha)⟩
      rw [hongoing, hzero]
      simp

theorem Pending.ares (h : Pending d) {actions : List (AresAction ν)}
    (ha : ∀ a ∈ actions, a.Alive) : Pending (d.ares actions) :=
  Runs.invariant_of_mem (fun _ a hmem h => Pending.act h (ha a hmem)) h

/-- Without a lookup c-ares has nothing to end. -/
theorem ares_idle (h : d.lookups = 0) (actions : List (AresAction ν)) :
    (d.ares actions).lookups = 0 ∧ (d.ares actions).requestOngoing = d.requestOngoing := by
  refine Runs.invariant (P := fun d' : DnsPoller ν =>
    d'.lookups = 0 ∧ d'.requestOngoing = d.requestOngoing) (fun d' a h' => ?_) actions ⟨h, rfl⟩
  cases a with
  | sockState fd read write =>
    obtain ⟨ioEvents, exited, heq⟩ := d'.sockStateCb_eq fd read write
    rw [act, heq]
    split_ifs <;> exact h'
  | callback result =>
    rw [act, if_pos (by simp [h'.1])]
    exact h'

/-- The end of `timer_cb` sets the timer if `ares_cb` has not. -/
theorem Pending.rearm (h : Pending d) (t : ℕ) :
    Armed (if d.requestOngoing then { d with timer := some t } else d) := by
  split_ifs with hongoing
  · exact ⟨⟨h.le_one, h.ongoing⟩, rfl⟩
  · exact ⟨h.toSingle, h.timer.resolve_right hongoing⟩

/-- `timer_cb` starts a lookup if there is none, and leaves the timer active. -/
theorem Single.timerCb (h : Single d) {cancelled actions : List (AresAction ν)}
    (ha : ∀ a ∈ actions, a.Alive) (timeout : ℕ) :
    Armed (d.timerCb cancelled actions timeout) := by
  unfold DnsPoller.timerCb
  cases hongoing : d.requestOngoing with
  | true =>
    have hpending : Pending d := ⟨h, Or.inr hongoing⟩
    exact (hpending.ares ha).rearm _
  | false =>
    obtain ⟨hlookups, -⟩ := ares_idle (h.none_of_idle hongoing) cancelled
    refine Pending.rearm (Pending.ares ⟨⟨?_, ?_⟩, Or.inr rfl⟩ ha) _
    · simp [hlookups]
    · simp [hlookups]

/-- Every event leaves the poller armed. -/
theorem Armed.step (h : Armed d) {e : PollerEvent ν} (he : e.Alive) : Armed (d.step e) := by
  have hares : ∀ {actions : List (AresAction ν)}, (∀ a ∈ actions, a.Alive) →
      Armed (d.ares actions) := fun ha =>
    ⟨(Pending.ares ⟨h.toSingle, Or.inl h.timer⟩ ha).toSingle, timer_ares ha h.timer⟩
  unfold DnsPoller.step
  by_cases hexited : d.exited = true
  · rw [if_pos hexited]
    exact h
  rw [if_neg hexited]
  cases e with
  | timer cancelled actions timeout =>
    have hoff : Single { d with timer := none } := ⟨h.le_one, h.ongoing⟩
    simpa [h.timer] using hoff.timerCb he.2 timeout
  | sock fd actions =>
    simp only
    split_ifs
    · exact hares he
    · exact h
  | ares actions => exact hares he

theorem armed_init (aresReady : Bool) (bootstrapDns : CString) (pollingInterval : ℕ) :
    Armed (dnsPollerInit aresReady bootstrapDns pollingInterval : DnsPoller ν) :=
  ⟨⟨by simp [dnsPollerInit], by simp [dnsPollerInit]⟩, rfl⟩

end DnsPoller

/-- Polling never stalls. In every run of timer firings, socket events and callbacks of c-ares,
whenever they come, the timer is active between events and a request is ongoing exactly while
the one lookup there is is outstanding. At the end `ares_cb` does not set the timer, and
it is off. -/
theorem polling_armed (aresReady : Bool) (bootstrapDns : CString) (pollingInterval : ℕ)
    (es : List (PollerEvent ν)) (hes : ∀ e ∈ es, e.Alive) :
    let d : DnsPoller ν := Runs.run DnsPoller.step
      (dnsPollerInit aresReady bootstrapDns pollingInterval) es
    d.timer.isSome ∧ d.lookups ≤ 1 ∧ (d.requestOngoing = true ↔ d.lookups = 1) ∧
      (∀ nodes, (d.aresCb ⟨.edestruction, nodes⟩).timer = d.timer) ∧
      d.dnsPollerCleanup.timer = none := by
  intro d
  have h : d.Armed := Runs.invariant_of_mem (fun _ e he h => h.step (hes e he))
    (DnsPoller.armed_init aresReady bootstrapDns pollingInterval)
  exact ⟨h.timer, h.le_one, h.ongoing, fun nodes => (d.aresCb_spec _).2.2.2.2 rfl, rfl⟩

/-- A lookup is started, its timeouts are looked after once, and a socket event brings its
result. -/
theorem polling_armed_lookup :
    let d : DnsPoller ℕ := Runs.run DnsPoller.step (dnsPollerInit true "8.8.8.8".toList 120)
      [.timer [] [.sockState 5 true false] 700, .timer [] [] 700,
        .sock 5 [.callback ⟨.success, some [1]⟩]]
    d.polled = [[1]] ∧ d.timer = some 120000 ∧ d.lookups ≤ 1 ∧
      (d.requestOngoing = true ↔ d.lookups = 1) := by
  intro d
  have h := polling_armed (ν := ℕ) true "8.8.8.8".toList 120
    [.timer [] [.sockState 5 true false] 700, .timer [] [] 700,
      .sock 5 [.callback ⟨.success, some [1]⟩]]
    (by simp [PollerEvent.Alive, AresAction.Alive])
  exact ⟨rfl, rfl, h.2.1, h.2.2.1⟩

/-! ## The table of watchers -/

/-- A notification of c-ares : what a socket waits for. -/
structure SockState where
  fd : ℕ
  read : Bool
  write : Bool

/-- The socket is open and waits for something. -/
def SockState.wanted (n : SockState) : Bool :=
  n.read || n.write

/-- The sockets c-ares waits for behind a notification. -/
def noteLive (socks : Finset ℕ) (n : SockState) : Finset ℕ :=
  if n.wanted then insert n.fd socks else socks.erase n.fd

/-- The sockets c-ares waits for behind the notifications `ns`. -/
def live (ns : List SockState) : Finset ℕ :=
  Runs.run noteLive ∅ ns

/-- Each socket is the UDP or the TCP socket of one of so many servers. -/
def OfServers (servers : ℕ) (socks : Finset ℕ) : Prop :=
  ∃ own : ℕ → ℕ × Bool, Set.InjOn own socks ∧ ∀ fd ∈ socks, (own fd).1 < servers

namespace DnsPoller

variable {d : DnsPoller ν} {m : Interests} {slots : ℕ} {socks : Finset ℕ} {n : SockState}

/-- `sock_state_cb`, while the process is there. -/
def notify (d : DnsPoller ν) (n : SockState) : DnsPoller ν :=
  d.act (.sockState n.fd n.read n.write)

/-- The table has so many slots and holds exactly the sockets c-ares waits for. -/
structure Tracks (slots : ℕ) (socks : Finset ℕ) (d : DnsPoller ν) : Prop where
  exited : d.exited = false
  length : d.ioEvents.length = slots
  watches : ∃ m, Watches d.ioEvents m ∧ m.keys = socks

theorem Tracks.card_le (h : Tracks slots socks d) : socks.card ≤ slots := by
  obtain ⟨m, hm, rfl⟩ := h.watches
  exact h.length ▸ SlotTable.Represents.card_le hm

theorem Tracks.notify_eq (h : Tracks slots socks d) :
    d.notify n = d.sockStateCb n.fd n.read n.write := by
  rw [notify, act, h.exited]
  rfl

theorem exited_notify (h : d.exited = true) : d.notify n = d := by
  rw [notify, act, if_pos h]

/-- A socket that waits for nothing has no slot. -/
theorem Tracks.unwanted (h : Tracks slots socks d) (hfd : 0 < n.fd) (hn : n.wanted = false) :
    Tracks slots (noteLive socks n) (d.notify n) := by
  obtain ⟨m, hm, rfl⟩ := h.watches
  have hoff : (!n.read && !n.write) = true := by
    rw [← Bool.not_or]
    exact congrArg not hn
  rw [h.notify_eq, sockStateCb, if_pos hoff, noteLive, hn]
  refine ⟨h.exited, by simpa using h.length, m.erase n.fd, ?_, Finmap.keys_erase _ _⟩
  exact SlotTable.Represents.release hm clear_idle hfd.ne'

/-- A socket that waits for something has a slot, unless there are more such sockets than
slots. -/
theorem Tracks.wanted (h : Tracks slots socks d) (hfd : 0 < n.fd) (hn : n.wanted = true) :
    ((noteLive socks n).card ≤ slots ∧ Tracks slots (noteLive socks n) (d.notify n)) ∨
      (slots < (noteLive socks n).card ∧ (d.notify n).exited = true) := by
  obtain ⟨m, hm, rfl⟩ := h.watches
  have hon : ¬(!n.read && !n.write) = true := by
    rw [← Bool.not_or, show (n.read || n.write) = true from hn]
    decide
  have hstore := SlotTable.Represents.store hm clear_idle
    (w := { fd := n.fd, read := n.read, write := n.write, active := true })
    (b := (n.read, n.write)) rfl hfd.ne' ⟨rfl, rfl⟩
  have hle : m.keys.card ≤ slots := h.length ▸ SlotTable.Represents.card_le hm
  rw [h.length] at hstore
  rw [h.notify_eq, sockStateCb, if_neg hon, noteLive, hn, if_pos rfl]
  rcases hstore with ⟨hr, hput, -⟩ | ⟨t, hr, hput, hlen, ht⟩
  · exact Or.inr ⟨(SlotTable.put_eq_none hle).1 hput, by simp only [hr]⟩
  · simp only [hr]
    refine Or.inl ⟨?_, h.exited, hlen, _, ht, SlotTable.keys_insert _ _ _⟩
    refine Nat.le_of_not_lt fun hlt => ?_
    rw [(SlotTable.put_eq_none hle).2 hlt] at hput
    cases hput

/-- The process is there after some notifications exactly if there were never more sockets to
wait for than slots. -/
theorem Tracks.run {ns : List SockState} (hpos : ∀ n ∈ ns, 0 < n.fd)
    (h : Tracks slots socks d) : (Runs.run notify d ns).exited = false ↔
      ∀ pre, pre <+: ns → (Runs.run noteLive socks pre).card ≤ slots := by
  induction ns generalizing d socks with
  | nil =>
    refine ⟨fun _ pre hpre => ?_, fun _ => h.exited⟩
    rw [List.prefix_nil.1 hpre]
    exact h.card_le
  | cons n ns ih =>
    have hfd := hpos n (List.mem_cons_self ..)
    have hpos' : ∀ x ∈ ns, 0 < x.fd := fun x hx => hpos x (List.mem_cons_of_mem _ hx)
    -- the first notification is survived
    have hgo : Tracks slots (noteLive socks n) (d.notify n) →
        ((Runs.run notify d (n :: ns)).exited = false ↔
          ∀ pre, pre <+: n :: ns → (Runs.run noteLive socks pre).card ≤ slots) := by
      intro h'
      rw [Runs.run_cons, ih hpos' h']
      refine ⟨fun hall pre hpre => ?_, fun hall pre hpre => ?_⟩
      · rcases List.prefix_cons_iff.1 hpre with rfl | ⟨pre', rfl, hpre'⟩
        · exact h.card_le
        · exact hall pre' hpre'
      · exact hall (n :: pre) (List.cons_prefix_cons.2 ⟨rfl, hpre⟩)
    cases hn : n.wanted with
    | false => exact hgo (h.unwanted hfd hn)
    | true =>
      rcases h.wanted hfd hn with ⟨-, h'⟩ | ⟨hlt, hexited⟩
      · exact hgo h'
      · have hdead : (Runs.run notify (d.notify n) ns).exited = true :=
          Runs.invariant (P := fun d : DnsPoller ν => d.exited = true)
            (fun d' n' h' => by rw [exited_notify h', h']) ns hexited
        rw [Runs.run_cons, hdead]
        refine ⟨fun hfalse => (by cases hfalse), fun hall => ?_⟩
        have hone := hall [n] (List.prefix_append [n] ns)
        exact (Nat.not_lt.2 hone hlt).elim

end DnsPoller

/-- A poller just set up tracks nothing. -/
theorem tracks_init (bootstrapDns : CString) (pollingInterval : ℕ) :
    DnsPoller.Tracks (nameservers bootstrapDns) ∅
      (dnsPollerInit true bootstrapDns pollingInterval : DnsPoller ν) where
  exited := rfl
  length := List.length_replicate
  watches := by
    refine ⟨∅, SlotTable.Represents.empty fun w hw => ?_, rfl⟩
    rw [List.eq_of_mem_replicate hw]
    exact ⟨rfl, rfl⟩

/-- `sock_state_cb` finds a slot for every notification exactly if c-ares never waits for more
sockets than there are nameservers in the list. -/
theorem pollerSlots_iff (bootstrapDns : CString) (pollingInterval : ℕ) (ns : List SockState)
    (hpos : ∀ n ∈ ns, 0 < n.fd) :
    (Runs.run DnsPoller.notify
        (dnsPollerInit true bootstrapDns pollingInterval : DnsPoller ν) ns).exited = false ↔
      ∀ pre, pre <+: ns → (live pre).card ≤ nameservers bootstrapDns :=
  (tracks_init bootstrapDns pollingInterval).run hpos

/-- Two nameservers, with a UDP socket each. -/
theorem pollerSlots_udp :
    (Runs.run DnsPoller.notify
      (dnsPollerInit true "8.8.8.8,1.1.1.1".toList 120 : DnsPoller ℕ)
      [⟨5, true, false⟩, ⟨6, true, false⟩]).exited = false := by
  have hcard : ∀ pre ∈ [(⟨5, true, false⟩ : SockState), ⟨6, true, false⟩].inits,
      (live pre).card ≤ nameservers "8.8.8.8,1.1.1.1".toList := by decide
  exact (pollerSlots_iff _ _ _ (by simp)).2 fun pre hpre => hcard pre ((List.mem_inits _ _).2 hpre)

/-- One nameserver. Its answer over UDP is truncated, and c-ares asks again over TCP while the
UDP socket is open : the process ends. -/
theorem pollerSlots_tcp :
    (∀ pre, pre <+: [(⟨5, true, false⟩ : SockState), ⟨6, false, true⟩] → OfServers 1 (live pre)) ∧
      (Runs.run DnsPoller.notify (dnsPollerInit true "8.8.8.8".toList 120 : DnsPoller ℕ)
        [⟨5, true, false⟩, ⟨6, false, true⟩]).exited = true := by
  have hsub : ∀ pre ∈ [(⟨5, true, false⟩ : SockState), ⟨6, false, true⟩].inits,
      live pre ⊆ {5, 6} := by decide
  refine ⟨fun pre hpre => ⟨fun fd => (0, fd = 6), ?_, fun fd _ => Nat.zero_lt_one⟩, by decide⟩
  intro fd hfd fd' hfd' heq
  have h := hsub pre ((List.mem_inits _ _).2 hpre) hfd
  have h' := hsub pre ((List.mem_inits _ _).2 hpre) hfd'
  simp only [Finset.mem_insert, Finset.mem_singleton] at h h'
  simp only [Prod.mk.injEq, true_and, decide_eq_decide] at heq
  omega

end HttpsDnsProxy
