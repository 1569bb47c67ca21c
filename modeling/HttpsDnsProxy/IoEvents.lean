import HttpsDnsProxy.Fetches
import HttpsDnsProxy.SlotTable

/-!
# The watchers of the HTTPS client

`multi_sock_cb` keeps the `ev_io` watchers of libcurl's sockets in a table of
`HTTPS_SOCKET_LIMIT` slots. A call releases the slot of its socket and takes a free one again,
so the table is a `SlotTable` under the descriptors, and it holds the finite map from the
registered sockets to the events they wait for (`Watches`, `watches_multiSockCb`).

A call is refused only if its socket is new and every slot is taken. `opensocket_callback`
opens at most as many sockets as there are slots, so if libcurl registers only open sockets,
and none when it closes it, no call is refused (`Sockets.Within`, `ioEvents_refine`).
-/

namespace HttpsDnsProxy

/-! ## The table as a map -/

/-- A watcher stopped and released. -/
def IoEvent.clear (w : IoEvent) : IoEvent :=
  { w with active := false, fd := 0 }

/-- The events each registered socket waits for : reading and writing. -/
abbrev Interests := Finmap fun _ : ℕ => Bool × Bool

/-- The table of watchers holds `m` : the slots with a nonzero descriptor are the registered
sockets, one slot each, active and with the events of the socket. Free slots are inactive. -/
def Watches (t : List IoEvent) (m : Interests) : Prop :=
  SlotTable.Represents IoEvent.fd (fun w p => w.active = true ∧ (w.read, w.write) = p)
    (fun w => w.active = false) t m

/-- What `multi_sock_cb` is for : a socket is registered with its new events, or refused if
it is new and `HTTPS_SOCKET_LIMIT` sockets are registered. -/
def register (m : Interests) (sock : ℕ) (what : CurlPoll) : ℤ × Interests :=
  if what = .remove then (0, m.erase sock)
  else
    match SlotTable.put httpsSocketLimit sock (what.wantsRead, what.wantsWrite) m with
    | none => (-1, m)
    | some m => (0, m)

theorem clear_idle (w : IoEvent) : w.clear.fd = 0 ∧ w.clear.active = false := ⟨rfl, rfl⟩

namespace HttpsClient

variable {ρ : Type*} {c : HttpsClient ρ} {m : Interests} {sock : ℕ}

/-- The watcher that `multi_sock_cb` starts. -/
def watcher (sock : ℕ) (what : CurlPoll) : IoEvent :=
  { fd := sock, read := what.wantsRead, write := what.wantsWrite, active := true }

/-- `multi_sock_cb` releases a slot and reserves one. -/
theorem multiSockCb_eq (c : HttpsClient ρ) (sock : ℕ) (what : CurlPoll) :
    c.multiSockCb sock what =
      let t := SlotTable.release IoEvent.fd IoEvent.clear sock c.ioEvents
      if what = .remove then (0, { c with ioEvents := t })
      else
        match SlotTable.reserve IoEvent.fd (watcher sock what) t with
        | none => (-1, { c with ioEvents := t })
        | some t => (0, { c with ioEvents := t }) := by
  have hfind : ∀ t k, getIoEvent t k = SlotTable.find IoEvent.fd k t := fun _ _ => rfl
  have hclear : IoEvent.clear = fun w => { w with active := false, fd := 0 } := rfl
  unfold multiSockCb SlotTable.release SlotTable.reserve
  simp only [hfind, hclear]
  cases SlotTable.find IoEvent.fd sock c.ioEvents with
  | none => cases SlotTable.find IoEvent.fd 0 c.ioEvents <;> rfl
  | some i =>
    dsimp only
    generalize c.ioEvents.modify i _ = t
    cases SlotTable.find IoEvent.fd 0 t <;> rfl

/-- `multi_sock_cb` does to the table what `register` does to the map. -/
theorem watches_multiSockCb (h : Watches c.ioEvents m)
    (hlen : c.ioEvents.length = httpsSocketLimit) (hsock : 0 < sock) (what : CurlPoll) :
    (c.multiSockCb sock what).1 = (register m sock what).1 ∧
      Watches (c.multiSockCb sock what).2.ioEvents (register m sock what).2 ∧
      (c.multiSockCb sock what).2.ioEvents.length = httpsSocketLimit ∧
      ((c.multiSockCb sock what).1 = -1 → (c.multiSockCb sock what).2 = c) := by
  have hne : sock ≠ 0 := hsock.ne'
  rw [multiSockCb_eq, register]
  by_cases hwhat : what = .remove
  · simp only [if_pos hwhat]
    exact ⟨trivial, SlotTable.Represents.release h clear_idle hne, by simpa using hlen, by simp⟩
  · have hstore := SlotTable.Represents.store h clear_idle (w := watcher sock what) (k := sock)
      (b := (what.wantsRead, what.wantsWrite)) rfl hne ⟨rfl, rfl⟩
    rw [hlen] at hstore
    simp only [if_neg hwhat]
    rcases hstore with ⟨hr, hput, hsame⟩ | ⟨t', hr, hput, hlen', ht'⟩
    · simp only [hr, hput]
      exact ⟨trivial, hsame.symm ▸ h, by rwa [hsame], fun _ => by rw [hsame]⟩
    · simp only [hr, hput]
      exact ⟨trivial, ht', hlen', by simp⟩

/-- A call is refused exactly if its socket is new and every slot is taken. -/
theorem multiSockCb_eq_neg_one (h : Watches c.ioEvents m)
    (hlen : c.ioEvents.length = httpsSocketLimit) (hsock : 0 < sock) (what : CurlPoll) :
    (c.multiSockCb sock what).1 = -1 ↔
      what ≠ .remove ∧ sock ∉ m ∧ ∀ w ∈ c.ioEvents, w.fd ≠ 0 := by
  have hfull : (∀ w ∈ c.ioEvents, w.fd ≠ 0) ↔ ¬m.keys.card < httpsSocketLimit := by
    have hle : m.keys.card ≤ httpsSocketLimit := hlen ▸ SlotTable.Represents.card_le h
    rw [← SlotTable.length_used_eq, ← SlotTable.Represents.card_keys h, hlen]
    omega
  rw [(watches_multiSockCb h hlen hsock what).1, hfull, register, SlotTable.put]
  by_cases hwhat : what = .remove
  · simp [hwhat]
  · by_cases hput : sock ∈ m ∨ m.keys.card < httpsSocketLimit
    · simp only [if_neg hwhat, if_pos hput]
      simp only [ne_eq, hwhat, not_false_eq_true, true_and, ← not_or, hput, not_true_eq_false]
      decide
    · simp only [if_neg hwhat, if_neg hput]
      simpa [hwhat, not_or] using hput

end HttpsClient

/-! ## With the sockets libcurl opens -/

namespace HttpsClient

variable {ρ : Type*} (c : HttpsClient ρ)

@[simp] theorem ioEvents_tally (e : HttpsEffect ρ) : (c.tally e).ioEvents = c.ioEvents := by
  unfold tally
  split_ifs <;> rfl

@[simp] theorem connections_tally (e : HttpsEffect ρ) :
    (c.tally e).connections = c.connections := by
  unfold tally
  split_ifs <;> rfl

theorem ioEvents_opensocketCallback (sock : Option ℕ) :
    (c.opensocketCallback sock).ioEvents = c.ioEvents := by
  unfold opensocketCallback
  split_ifs
  · rfl
  · cases sock with
    | none => rfl
    | some fd => exact ioEvents_tally _ _

/-- A connection is counted for each socket opened within the limit. -/
theorem connections_opensocketCallback (sock : Option ℕ) :
    (c.opensocketCallback sock).connections = c.connections +
      if c.connections < httpsSocketLimit ∧ sock.isSome then 1 else 0 := by
  unfold opensocketCallback
  split_ifs with hfull hopen hopen
  · omega
  · omega
  · cases sock with
    | none => cases hopen.2
    | some fd => exact connections_tally _ _
  · cases sock with
    | none => exact (Int.add_zero _).symm
    | some fd => exact (hopen ⟨not_le.1 hfull, rfl⟩).elim

theorem ioEvents_closesocketCallback (closed : Bool) :
    (c.closesocketCallback closed).ioEvents = c.ioEvents := by
  unfold closesocketCallback
  split_ifs
  · rfl
  · rw [ioEvents_tally]
    split_ifs <;> rfl

/-- A connection is uncounted for each socket closed. -/
theorem connections_closesocketCallback (closed : Bool) :
    (c.closesocketCallback closed).connections = c.connections - if closed then 1 else 0 := by
  unfold closesocketCallback
  cases closed with
  | false => simp
  | true =>
    simp only [Bool.true_eq_false, if_false, connections_tally, if_true]
    split_ifs <;> rfl

theorem connections_multiSockCb (sock : ℕ) (what : CurlPoll) :
    (c.multiSockCb sock what).2.connections = c.connections := by
  unfold multiSockCb
  simp only
  split_ifs
  · rfl
  · split <;> rfl

end HttpsClient

theorem register_cases (m : Interests) (sock : ℕ) (what : CurlPoll) :
    (register m sock what).1 = 0 ∨ (register m sock what).1 = -1 := by
  unfold register
  split_ifs
  · exact Or.inl rfl
  · split
    · exact Or.inr rfl
    · exact Or.inl rfl

/-- A socket is registered with the events of its last call, unless that removed it or was
refused. -/
theorem lookup_register (m : Interests) (sock : ℕ) (what : CurlPoll) (sock' : ℕ) :
    (register m sock what).2.lookup sock' =
      if sock' = sock then
        if what = .remove ∨ (register m sock what).1 = -1 then none
        else some (what.wantsRead, what.wantsWrite)
      else m.lookup sock' := by
  unfold register SlotTable.put
  by_cases hwhat : what = .remove
  · rcases eq_or_ne sock' sock with rfl | hsock
    · simp [hwhat]
    · simp [hwhat, hsock, Finmap.lookup_erase_ne hsock]
  · by_cases hput : sock ∈ m ∨ m.keys.card < httpsSocketLimit
    · rcases eq_or_ne sock' sock with rfl | hsock
      · simp [hwhat, hput]
      · simp [hwhat, hput, hsock, Finmap.lookup_insert_of_ne m hsock]
    · have hnone : m.lookup sock = none := Finmap.lookup_eq_none.2 fun h => hput (Or.inl h)
      rcases eq_or_ne sock' sock with rfl | hsock
      · simp [hwhat, hput, hnone]
      · simp [hwhat, hput, hsock]

theorem keys_register {m : Interests} {sock : ℕ} {what : CurlPoll} {opened : Finset ℕ}
    (hsock : what ≠ .remove → sock ∈ opened) (h : m.keys ⊆ opened) :
    (register m sock what).2.keys ⊆ opened := by
  intro fd hfd
  unfold register SlotTable.put at hfd
  by_cases hwhat : what = .remove
  · rw [if_pos hwhat, Finmap.keys_erase] at hfd
    exact h (Finset.mem_of_mem_erase hfd)
  · rw [if_neg hwhat] at hfd
    split_ifs at hfd
    · rcases Finmap.mem_insert.1 (Finmap.mem_keys.1 hfd) with rfl | hmem
      · exact hsock hwhat
      · exact h (Finmap.mem_keys.2 hmem)
    · exact h hfd

/-- What libcurl does with sockets : it has one opened, or `socket` fails, it has one closed,
or `close` fails, and it tells what it waits for. -/
inductive SocketEvent where
  | opens (sock : Option ℕ)
  | closes (sock : ℕ) (closed : Bool)
  | polls (sock : ℕ) (what : CurlPoll)

/-- The client with the sockets that are open. -/
structure Sockets (ρ : Type*) where
  client : HttpsClient ρ
  opened : Finset ℕ

namespace Sockets

variable {ρ : Type*}

/-- The sockets open after an event. -/
def openedBy (s : Sockets ρ) : SocketEvent → Finset ℕ
  | .opens (some sock) =>
    if s.client.connections ≥ httpsSocketLimit then s.opened else insert sock s.opened
  | .opens none => s.opened
  | .closes sock closed => if closed then s.opened.erase sock else s.opened
  | .polls _ _ => s.opened

/-- The callback of an event. -/
def callback : SocketEvent → SocketCallback
  | .opens sock => .openSocket sock
  | .closes _ closed => .closeSocket closed
  | .polls sock what => .multiSock sock what

/-- One event : the client runs its callback. -/
def step (s : Sockets ρ) (e : SocketEvent) : Sockets ρ where
  client := s.client.socketCallback (callback e)
  opened := s.openedBy e

/-- What `multi_sock_cb` returns in an event. -/
def returned (s : Sockets ρ) : SocketEvent → List ℤ
  | .polls sock what => [(s.client.multiSockCb sock what).1]
  | _ => []

/-- libcurl registers only open sockets, and unregisters a socket before it closes it. -/
def Orderly (s : Sockets ρ) : SocketEvent → Prop
  | .opens _ => True
  | .closes sock _ => sock ∈ s.opened ∧ ∀ w ∈ s.client.ioEvents, w.fd ≠ sock
  | .polls sock what => 0 < sock ∧ (what ≠ .remove → sock ∈ s.opened)

/-- A new client. -/
def start (lib : Libcurl) (stat : Bool) : Sockets ρ where
  client := httpsClientInit lib stat
  opened := ∅

/-- The registered sockets are open, and the open ones are counted and within the limit. -/
structure Within (s : Sockets ρ) (m : Interests) : Prop where
  watches : Watches s.client.ioEvents m
  length : s.client.ioEvents.length = httpsSocketLimit
  registered : m.keys ⊆ s.opened
  counted : (s.opened.card : ℤ) ≤ s.client.connections
  limit : s.client.connections ≤ httpsSocketLimit

variable {s : Sockets ρ} {m : Interests}

/-- The two counts of `opensocket_callback` and `closesocket_callback` leave the table alone. -/
theorem Within.counts (h : s.Within m) {c : HttpsClient ρ} {opened : Finset ℕ}
    (hio : c.ioEvents = s.client.ioEvents) (hreg : m.keys ⊆ opened)
    (hcount : (opened.card : ℤ) ≤ c.connections) (hlimit : c.connections ≤ httpsSocketLimit) :
    Within ⟨c, opened⟩ m :=
  ⟨hio ▸ h.watches, hio ▸ h.length, hreg, hcount, hlimit⟩

theorem Within.opens (h : s.Within m) (sock : Option ℕ) : (s.step (.opens sock)).Within m := by
  refine h.counts (s.client.ioEvents_opensocketCallback sock) ?_ ?_ ?_
  · refine h.registered.trans ?_
    cases sock with
    | none => exact Finset.Subset.refl _
    | some fd =>
      rw [openedBy]
      split_ifs
      · exact Finset.Subset.refl _
      · exact Finset.subset_insert _ _
  · have hcounted := h.counted
    rw [callback, HttpsClient.socketCallback, s.client.connections_opensocketCallback]
    cases sock with
    | none => simpa [openedBy] using hcounted
    | some fd =>
      have hcard := Finset.card_insert_le fd s.opened
      by_cases hfull : s.client.connections ≥ httpsSocketLimit
      · simpa [openedBy, hfull, not_lt.2 hfull] using hcounted
      · simp only [openedBy, if_neg hfull, not_le.1 hfull, Option.isSome_some, and_self, if_true]
        omega
  · have hlimit := h.limit
    rw [callback, HttpsClient.socketCallback, s.client.connections_opensocketCallback]
    split_ifs <;> omega

theorem Within.closes (h : s.Within m) {sock : ℕ} {closed : Bool}
    (he : s.Orderly (.closes sock closed)) : (s.step (.closes sock closed)).Within m := by
  have hcounted := h.counted
  have hlimit := h.limit
  refine h.counts (s.client.ioEvents_closesocketCallback closed) ?_ ?_ ?_
  · rw [openedBy]
    split_ifs
    · -- a socket without a slot is not registered
      intro fd hfd
      refine Finset.mem_erase.2 ⟨?_, h.registered hfd⟩
      rintro rfl
      obtain ⟨-, w, hw, hfd'⟩ := SlotTable.mem_used.1 (h.watches.mem fd (Finmap.mem_keys.1 hfd))
      exact he.2 w hw hfd'
    · exact h.registered
  · rw [callback, HttpsClient.socketCallback, s.client.connections_closesocketCallback, openedBy]
    split_ifs
    · have hcard := Finset.card_erase_add_one he.1
      omega
    · omega
  · rw [callback, HttpsClient.socketCallback, s.client.connections_closesocketCallback]
    split_ifs <;> omega

/-- A call of `multi_sock_cb` is not refused. -/
theorem Within.polls (h : s.Within m) {sock : ℕ} {what : CurlPoll}
    (he : s.Orderly (.polls sock what)) : (s.client.multiSockCb sock what).1 = 0 ∧
      (s.step (.polls sock what)).Within (register m sock what).2 := by
  obtain ⟨hret, hwatches, hlen, -⟩ :=
    HttpsClient.watches_multiSockCb h.watches h.length he.1 what
  have hnot : (s.client.multiSockCb sock what).1 ≠ -1 := by
    rw [Ne, HttpsClient.multiSockCb_eq_neg_one h.watches h.length he.1]
    rintro ⟨hwhat, hnew, hfull⟩
    -- the socket is open and not registered, so there are fewer registered sockets than slots
    have hlt : m.keys.card < s.opened.card := by
      refine Finset.card_lt_card ⟨h.registered, fun hsub => hnew ?_⟩
      exact Finmap.mem_keys.1 (hsub (he.2 hwhat))
    have hcard : m.keys.card = httpsSocketLimit := by
      rw [SlotTable.Represents.card_keys h.watches, SlotTable.length_used_eq.2 hfull, h.length]
    have hcounted := h.counted
    have hlimit := h.limit
    omega
  rw [hret] at hnot ⊢
  refine ⟨(register_cases m sock what).resolve_right hnot, hwatches, hlen, ?_, ?_, ?_⟩
  · exact keys_register he.2 h.registered
  · rw [step, callback, HttpsClient.socketCallback, HttpsClient.connections_multiSockCb]
    exact h.counted
  · rw [step, callback, HttpsClient.socketCallback, HttpsClient.connections_multiSockCb]
    exact h.limit

/-- One event of an orderly libcurl. -/
theorem Within.step (h : s.Within m) {e : SocketEvent} (he : s.Orderly e) :
    (∃ m', (s.step e).Within m') ∧ ∀ r ∈ s.returned e, r = 0 := by
  cases e with
  | opens sock => exact ⟨⟨m, h.opens sock⟩, by simp [returned]⟩
  | closes sock closed => exact ⟨⟨m, h.closes he⟩, by simp [returned]⟩
  | polls sock what =>
    obtain ⟨hret, hstep⟩ := h.polls he
    exact ⟨⟨_, hstep⟩, by simpa [returned] using hret⟩

/-- Every run of an orderly libcurl. -/
theorem Within.run {es : List SocketEvent} (hes : Runs.Meets Sockets.step Orderly s es)
    (h : s.Within m) : ∀ r ∈ Runs.collect Sockets.step returned s es, r = 0 := by
  induction es generalizing s m with
  | nil => simp
  | cons e es ih =>
    obtain ⟨⟨m', h'⟩, hret⟩ := h.step hes.1
    intro r hr
    rcases List.mem_append.1 hr with hr | hr
    · exact hret r hr
    · exact ih hes.2 h' r hr

end Sockets

/-- A new client has no watchers. -/
theorem watches_httpsClientInit {ρ : Type*} (lib : Libcurl) (stat : Bool) :
    Watches (httpsClientInit lib stat : HttpsClient ρ).ioEvents ∅ :=
  SlotTable.Represents.empty fun w hw => by
    rw [List.eq_of_mem_replicate hw]
    exact ⟨rfl, rfl⟩

theorem Sockets.within_start {ρ : Type*} (lib : Libcurl) (stat : Bool) :
    (Sockets.start lib stat : Sockets ρ).Within ∅ where
  watches := watches_httpsClientInit lib stat
  length := rfl
  registered := Finset.empty_subset _
  counted := le_rfl
  limit := Int.natCast_nonneg httpsSocketLimit

/-- One call of `multi_sock_cb`. -/
def HttpsClient.poll {ρ : Type*} (c : HttpsClient ρ) (p : ℕ × CurlPoll) : HttpsClient ρ :=
  (c.multiSockCb p.1 p.2).2

/-- One call in terms of the map. -/
def Interests.poll (m : Interests) (p : ℕ × CurlPoll) : Interests :=
  (register m p.1 p.2).2

/-- Every sequence of calls keeps the table in step with the map. -/
theorem watches_run {ρ : Type*} {c : HttpsClient ρ} {m : Interests} {calls : List (ℕ × CurlPoll)}
    (hpos : ∀ p ∈ calls, 0 < p.1) (h : Watches c.ioEvents m)
    (hlen : c.ioEvents.length = httpsSocketLimit) :
    Watches (Runs.run HttpsClient.poll c calls).ioEvents (Runs.run Interests.poll m calls) ∧
      (Runs.run HttpsClient.poll c calls).ioEvents.length = httpsSocketLimit := by
  induction calls generalizing c m with
  | nil => exact ⟨h, hlen⟩
  | cons p calls ih =>
    obtain ⟨-, hwatches, hlen', -⟩ :=
      HttpsClient.watches_multiSockCb h hlen (hpos p (List.mem_cons_self ..)) p.2
    exact ih (fun q hq => hpos q (List.mem_cons_of_mem _ hq)) hwatches hlen'

/-- The table of watchers is the finite map of the registered sockets. After every sequence of
calls with positive descriptors it has one active slot for each socket whose last call
neither removed it nor was refused, with the events of that call, and free slots otherwise.
A call returns -1 exactly if its socket is new and all slots are taken, and then it changes
nothing. If libcurl registers only sockets it has open and unregisters them before they are
closed, no call returns -1. -/
theorem ioEvents_refine {ρ : Type*} (lib : Libcurl) (stat : Bool) :
    (∀ calls : List (ℕ × CurlPoll), (∀ p ∈ calls, 0 < p.1) →
      let c : HttpsClient ρ := Runs.run HttpsClient.poll (httpsClientInit lib stat) calls
      let m : Interests := Runs.run Interests.poll ∅ calls
      c.ioEvents.length = httpsSocketLimit ∧ Watches c.ioEvents m ∧
        ∀ sock what, 0 < sock →
          (c.multiSockCb sock what).1 = (register m sock what).1 ∧
          ((c.multiSockCb sock what).1 = -1 ↔
            what ≠ .remove ∧ sock ∉ m ∧ ∀ w ∈ c.ioEvents, w.fd ≠ 0) ∧
          ((c.multiSockCb sock what).1 = -1 → (c.multiSockCb sock what).2 = c) ∧
          ∀ sock', (m.poll (sock, what)).lookup sock' =
            if sock' = sock then
              if what = .remove ∨ (c.multiSockCb sock what).1 = -1 then none
              else some (what.wantsRead, what.wantsWrite)
            else m.lookup sock') ∧
      ∀ es, Runs.Meets Sockets.step Sockets.Orderly (Sockets.start lib stat : Sockets ρ) es →
        ∀ r ∈ Runs.collect Sockets.step Sockets.returned (Sockets.start lib stat : Sockets ρ) es,
          r = 0 := by
  refine ⟨fun calls hpos => ?_, fun es hes => (Sockets.within_start lib stat).run hes⟩
  intro c m
  obtain ⟨hwatches, hlen⟩ := watches_run hpos (watches_httpsClientInit (ρ := ρ) lib stat) rfl
  refine ⟨hlen, hwatches, fun sock what hsock => ?_⟩
  obtain ⟨hret, -, -, hsame⟩ := HttpsClient.watches_multiSockCb hwatches hlen hsock what
  refine ⟨hret, HttpsClient.multiSockCb_eq_neg_one hwatches hlen hsock what, hsame, fun sock' => ?_⟩
  rw [hret]
  exact lookup_register m sock what sock'

/-- A socket is opened, registered for reading, then for both, unregistered and closed. The
table has it in its first slot in between. -/
theorem ioEvents_refine_one :
    let c : HttpsClient Unit :=
      Runs.run HttpsClient.poll (httpsClientInit obligingLibcurl false) [(5, .input), (5, .both)]
    c.ioEvents.head? = some ⟨5, true, true, true⟩ ∧
      Watches c.ioEvents (Runs.run Interests.poll ∅ [(5, .input), (5, .both)]) ∧
      ∀ r ∈ Runs.collect Sockets.step Sockets.returned
        (Sockets.start obligingLibcurl false : Sockets Unit)
        [.opens (some 5), .polls 5 .input, .polls 5 .both, .polls 5 .remove, .closes 5 true],
        r = 0 := by
  intro c
  obtain ⟨hcalls, hrun⟩ := ioEvents_refine (ρ := Unit) obligingLibcurl false
  refine ⟨rfl, (hcalls _ (by decide)).2.1, hrun _ ⟨trivial, ?_, ?_, ?_, ?_, trivial⟩⟩
  · exact ⟨by decide, fun _ => by decide⟩
  · exact ⟨by decide, fun _ => by decide⟩
  · exact ⟨by decide, fun _ => by decide⟩
  · exact ⟨by decide, by decide⟩

end HttpsDnsProxy
