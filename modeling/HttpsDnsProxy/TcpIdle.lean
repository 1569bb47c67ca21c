import HttpsDnsProxy.TcpLoop
import HttpsDnsProxy.Timers
import Mathlib.Algebra.Order.Group.Nat

/-!
# Idle TCP connections

Each connection of the TCP server has a timer of `IDLE_TIMEOUT_S`. `accept_cb` starts it, `read_cb`
restarts it behind its loop if the loop has handed over a request, and `dns_server_tcp_respond`
does if the whole response has gone out. Bytes that complete no request leave it running.

`timers` is the server as a machine with timers. An event sets the timer of a connection if it
leaves it active even when it finds it stopped, so which events do is read off the server itself
(`setsTimer_iff`).

`tcpIdle` : whenever the loop reports a socket, each listed connection has got on in the last two
minutes, whatever its peer sends, and no timeout closes a connection that has.
-/

namespace HttpsDnsProxy

/-- `IDLE_TIMEOUT_S`, in milliseconds. -/
def idleTimeout : ℕ := 120 * 1000

namespace TcpClient

/-- The struct with its timer running or not. -/
def withTimer (t : Bool) (c : TcpClient) : TcpClient :=
  { c with timerWatcher := t }

variable (c : TcpClient) (t : Bool)

@[simp] theorem timerWatcher_withTimer : (c.withTimer t).timerWatcher = t := rfl

/-! Reading does not look at the timer. -/

theorem getDnsRequest_withTimer :
    (c.withTimer t).getDnsRequest =
      c.getDnsRequest.map fun p => (p.1, p.2.withTimer t) := by
  unfold getDnsRequest
  dsimp only
  rw [apply_ite (Option.map _)]
  rfl

theorem splitInput_withTimer : ∀ (n : ℕ) (c : TcpClient),
    (c.withTimer t).splitInput n =
      ((c.splitInput n).1, (c.splitInput n).2.1, (c.splitInput n).2.2.withTimer t)
  | 0, _ => rfl
  | n + 1, c => by
    cases hg : c.getDnsRequest with
    | none => simp [splitInput, getDnsRequest_withTimer, hg]
    | some p =>
      obtain ⟨req, c'⟩ := p
      simp only [splitInput, getDnsRequest_withTimer, hg, Option.map_some]
      split_ifs
      · rfl
      · rw [splitInput_withTimer n c']

/-- What an append comes to, with the timer running or not. -/
def Append.withTimer (t : Bool) : Append → Append
  | .tooLarge => .tooLarge
  | .fatal => .fatal
  | .appended c => .appended (c.withTimer t)

theorem appendInput_withTimer (r : Recv) :
    (c.withTimer t).appendInput r = (c.appendInput r).withTimer t := by
  unfold appendInput
  dsimp only
  rw [apply_ite (Append.withTimer t), apply_ite (Append.withTimer t),
    apply_ite (Append.withTimer t)]
  cases hg : growBuffer ((c.inputBufferUsed + r.data.length) % 2 ^ 32) 12 64 with
  | none | some size =>
    simp only [withTimer, hg]
    rfl

theorem readInput_withTimer (rounds : ℕ) (r : Recv) :
    (c.withTimer t).readInput rounds r =
      ((c.readInput rounds r).1, (c.readInput rounds r).2.1,
        (c.readInput rounds r).2.2.withTimer t) := by
  unfold readInput
  rw [appendInput_withTimer]
  cases c.appendInput r with
  | tooLarge | fatal => rfl
  | appended c' => exact splitInput_withTimer t rounds c'

end TcpClient

namespace DnsServerTcp

variable (d : DnsServerTcp) {block b : ℕ}

theorem find_timerAgain_ne (h : block ≠ b) : (d.timerAgain block).find b = d.find b := by
  rw [timerAgain, find_map _ (fun c => by split_ifs <;> rfl)]
  cases hf : d.find b with
  | none => rfl
  | some c => rw [Option.map_some, if_neg fun hc => h (hc.symm.trans (find_eq_some hf).2)]

theorem find_removeClient_ne (h : block ≠ b) : (d.removeClient block).find b = d.find b := by
  rw [find, clients_removeClient, find]
  induction d.clients with
  | nil => rfl
  | cons c cs ih =>
    by_cases hc : c.block = block
    · simp [hc, h]
    · rw [List.eraseP_cons_of_neg (by simpa using hc), List.find?_cons, List.find?_cons, ih]

/-- A call of `accept_cb` adds a client or does nothing, whatever the state of the server. -/
theorem acceptCb_cases (r : AcceptResult) :
    (∃ sock addr n, ∀ d : DnsServerTcp, d.acceptCb r = d.addClient sock addr n) ∨
      ∀ d : DnsServerTcp, d.acceptCb r = d := by
  cases r with
  | sock fd addr => exact Or.inl ⟨fd, addr, addr.length, fun _ => rfl⟩
  | error e stack =>
    by_cases he : e.wouldBlock = true
    · exact Or.inl ⟨-1, stack, sockaddrStorageSize, fun _ => if_pos he⟩
    · exact Or.inr fun _ => if_neg he

end DnsServerTcp

/-! ## The server as a machine with timers -/

namespace TcpRun

/-- The timer of the client at `b` is running. -/
def timerActive (s : TcpRun) (b : ℕ) : Bool :=
  (s.server.find b).any TcpClient.timerWatcher

/-- The run with the timer of the client at `b` stopped. -/
def stopTimer (b : ℕ) (s : TcpRun) : TcpRun :=
  { s with
    server :=
      { s.server with
        clients := s.server.clients.map fun c => if c.block = b then c.withTimer false else c } }

/-- The event calls `ev_timer_again` for the client at `b` : it leaves the timer active, and would
if it found it stopped. -/
def setsTimer (s : TcpRun) (e : TcpEvent) (b : ℕ) : Bool :=
  ((s.stopTimer b).step e).timerActive b

/-- The server with its timers, one for each client. libev reports the sockets it has polled behind
the timers that are due. A response is written when its transfer ends, which a timer of libcurl
can lead to as well. -/
def timers : Timers.Machine TcpRun TcpEvent ℕ ℕ where
  step := step
  active := timerActive
  sets s e b := if s.setsTimer e b then some idleTimeout else none
  expires
    | .timeout b => some b
    | _ => none
  polled
    | .accept _ => true
    | .read _ _ _ => true
    | _ => false

/-- The server just created, at the time 0. -/
def clockedStart (tcpClientLimit : ℕ) : Timers.Clocked TcpRun ℕ ℕ where
  state := start tcpClientLimit
  now := 0
  due _ := none

/-- The event gets the connection at `b` on : it is accepted, requests of it are handed over, or
a whole response is written to it. -/
inductive Progress (b : ℕ) (s : TcpRun) (e : TcpEvent) : Prop where
  | accepted : ¬s.server.Listed b → (s.step e).server.Listed b → Progress b s e
  | request (reqs : List (List UInt8)) : reqs ≠ [] →
      (s.step e).deliveredOn b = s.deliveredOn b ++ reqs → Progress b s e
  | response (resp : List UInt8) :
      wire b (s.step e).sent = wire b s.sent ++ Frames.frame resp → Progress b s e

variable {s : TcpRun} {e : TcpEvent} {b : ℕ}

/-- An event without anything for the connection. -/
theorem not_progress (hlisted : (s.step e).server.Listed b → s.server.Listed b)
    (hdelivered : (s.step e).deliveredOn b = s.deliveredOn b)
    (hwire : wire b (s.step e).sent = wire b s.sent) : ¬Progress b s e := by
  rintro (⟨hnot, h⟩ | ⟨reqs, hne, h⟩ | ⟨resp, h⟩)
  · exact hnot (hlisted h)
  · rw [hdelivered] at h
    exact hne (List.self_eq_append_right.1 h)
  · rw [hwire] at h
    have := congrArg List.length (List.self_eq_append_right.1 h)
    rw [Frames.length_frame, List.length_nil] at this
    omega

theorem not_progress_of_step_eq (h : s.step e = s) : ¬Progress b s e :=
  not_progress (by rw [h]; exact id) (by rw [h]) (by rw [h])

/-! ### The stopped timer -/

theorem listed_iff : s.server.Listed b ↔ (s.server.find b).isSome := by
  unfold DnsServerTcp.Listed DnsServerTcp.find
  rw [List.find?_isSome]
  simp [List.mem_map]

theorem find_stopTimer (b' : ℕ) : (s.stopTimer b).server.find b' =
    (s.server.find b').map fun c => if c.block = b then c.withTimer false else c :=
  DnsServerTcp.find_map _ (fun c => by split_ifs <;> rfl) b'

theorem find_stopTimer_self : (s.stopTimer b).server.find b =
    (s.server.find b).map (TcpClient.withTimer false) := by
  rw [find_stopTimer]
  cases hf : s.server.find b with
  | none => rfl
  | some c => rw [Option.map_some, if_pos (DnsServerTcp.find_eq_some hf).2, Option.map_some]

theorem timerActive_stopTimer : (s.stopTimer b).timerActive b = false := by
  rw [timerActive, find_stopTimer_self]
  cases s.server.find b <;> rfl

theorem blocks_stopTimer (h : Blocks s.server) : Blocks (s.stopTimer b).server := by
  have hblocks : (s.stopTimer b).server.clients.map TcpClient.block =
      s.server.clients.map TcpClient.block := by
    simp only [stopTimer, List.map_map]
    refine List.map_congr_left fun c _ => ?_
    simp only [Function.comp_apply]
    split_ifs <;> rfl
  exact h.of_sublist rfl (by rw [hblocks])

theorem reading_stopTimer (b' : ℕ) : (s.stopTimer b).reading b' =
    (s.reading b').map fun c => if c.block = b then c.withTimer false else c := by
  unfold reading
  rw [find_stopTimer]
  by_cases hh : s.halted = true
  · simp [stopTimer, hh]
  · have hh' : ¬(s.stopTimer b).halted = true := hh
    rw [if_neg hh, if_neg hh', Option.filter_map]
    congr 2
    funext c
    simp only [Function.comp_apply]
    split_ifs <;> rfl

/-! ### Which events set the timer -/

/-- What an event comes to that sets the timer of the connection at `b`. -/
def Sets (b : ℕ) (s : TcpRun) (e : TcpEvent) : Prop :=
  Progress b s e ∧ (s.step e).server.Listed b ∧ (s.step e).halted = false

theorem setsTimer_iff_of_find (hfind : ((s.stopTimer b).step e).server.find b =
    (s.stopTimer b).server.find b) (hnot : ¬Progress b s e) :
    s.setsTimer e b = true ↔ Sets b s e := by
  refine iff_of_false ?_ fun h => hnot h.1
  rw [setsTimer, timerActive, hfind, ← timerActive, timerActive_stopTimer]
  exact Bool.false_ne_true

theorem setsTimer_iff_of_removed (hstop : ((s.stopTimer b).step e).server.find b = none)
    (h : (s.step e).server.find b = none) : s.setsTimer e b = true ↔ Sets b s e := by
  refine iff_of_false ?_ fun hs => ?_
  · simp [setsTimer, timerActive, hstop]
  · have := listed_iff.1 hs.2.1
    rw [h] at this
    cases this

/-- An event that no callback takes up. -/
theorem setsTimer_iff_of_idle (hstop : (s.stopTimer b).step e = s.stopTimer b)
    (h : s.step e = s) : s.setsTimer e b = true ↔ Sets b s e :=
  setsTimer_iff_of_find (by rw [hstop]) (not_progress_of_step_eq h)

theorem find_addClient (d : DnsServerTcp) (sock : ℤ) (addr : SockAddr) (n : ℕ)
    (h : d.nextBlock ≠ b) : (d.addClient sock addr n).find b = d.find b := by
  simp [DnsServerTcp.find, DnsServerTcp.addClient, h]

theorem setsTimer_iff_of_add (hb : Blocks s.server) (hh : s.halted = false) {sock : ℤ}
    {addr : SockAddr} {n : ℕ}
    (hstop : (s.stopTimer b).step e =
      { s.stopTimer b with server := (s.stopTimer b).server.addClient sock addr n })
    (h : s.step e = { s with server := s.server.addClient sock addr n }) :
    s.setsTimer e b = true ↔ Sets b s e := by
  by_cases hnext : s.server.nextBlock = b
  · have hlisted : (s.step e).server.Listed b := by
      rw [h, ← hnext]
      exact List.mem_cons_self ..
    have hnew : ¬s.server.Listed b := by
      intro hl
      obtain ⟨c, hc, hblock⟩ := List.mem_map.1 hl
      exact absurd (hb.lt c hc) (by omega)
    have hnext' : (s.stopTimer b).server.nextBlock = b := hnext
    refine iff_of_true ?_ ⟨.accepted hnew hlisted, hlisted, by rw [h]; exact hh⟩
    rw [setsTimer, hstop, timerActive]
    simp [DnsServerTcp.find, DnsServerTcp.addClient, hnext']
  · refine setsTimer_iff_of_find (by rw [hstop]; exact find_addClient _ _ _ _ hnext) ?_
    refine not_progress (fun hl => ?_) (by rw [h]; rfl) (by rw [h])
    rw [h] at hl
    exact listed_iff.2 (by rw [← find_addClient _ sock addr n hnext]; exact listed_iff.1 hl)

theorem step_accept_watched (hh : s.halted = false) (hw : s.server.acceptWatcher = true)
    (r : AcceptResult) : s.step (.accept r) = { s with server := s.server.acceptCb r } := by
  simp [step, hh, hw]

theorem setsTimer_accept (hb : Blocks s.server) (hh : s.halted = false) (r : AcceptResult) :
    s.setsTimer (.accept r) b = true ↔ Sets b s (.accept r) := by
  by_cases hw : s.server.acceptWatcher = true
  · have hstep := step_accept_watched hh hw r
    have hstop := step_accept_watched (s := s.stopTimer b) hh hw r
    rcases DnsServerTcp.acceptCb_cases r with ⟨sock, addr, n, hadd⟩ | hsame
    · rw [hadd] at hstep hstop
      exact setsTimer_iff_of_add hb hh hstop hstep
    · rw [hsame] at hstep hstop
      exact setsTimer_iff_of_idle hstop hstep
  · have hw' : ¬(s.stopTimer b).server.acceptWatcher = true := hw
    exact setsTimer_iff_of_idle (by simp [step, hw']) (by simp [step, hw])

/-- A read of another connection leaves the client at `b` alone. -/
theorem find_readEvent_ne {block : ℕ} (h : block ≠ b) (s : TcpRun) (rounds : ℕ)
    (res : RecvResult) : (s.readEvent block rounds res).server.find b = s.server.find b := by
  have hkept : KeptByRead serverIn record block fun s' => s'.server.find b = s.server.find b :=
    { input := by
        intro s' c m n k hc hs'
        have hblock : (c.withInput m n k).block ≠ b :=
          fun hb => h ((DnsServerTcp.find_eq_some hc).2.symm.trans hb)
        exact (DnsServerTcp.find_update_ne hblock).trans hs'
      again := fun s' c _ hs' => (DnsServerTcp.find_timerAgain_ne _ h).trans hs'
      remove := fun s' c _ hs' => (DnsServerTcp.find_removeClient_ne _ h).trans hs'
      call := fun _ _ _ _ _ hs' => hs' }
  rw [server_readEvent]
  exact hkept.readCb rounds res rfl

/-- The loop leaves the timer running if it was, or if it ends with a request handed over. -/
theorem timer_splitRequests :
    ∀ (n : ℕ) (received : Bool) (s : TcpRun) (c : TcpClient), s.server.find b = some c →
      (c.splitInput n).1 ≠ .removed →
      ∃ c', (splitRequests serverIn record b n received s).2.server.find b = some c' ∧
        c'.timerWatcher = (c.timerWatcher ||
          (decide ((c.splitInput n).1 = .kept) && (received || !(c.splitInput n).2.1.isEmpty)))
  | 0, _, s, c, hf, _ => ⟨c, hf, by simp [TcpClient.splitInput]⟩
  | n + 1, received, s, c, hf, hne => by
    have hget : (serverIn.get s).find b = some c := hf
    cases hg : c.getDnsRequest with
    | none =>
      simp only [splitRequests, hget, hg, TcpClient.splitInput]
      cases received with
      | false => exact ⟨c, hf, by simp⟩
      | true => exact ⟨_, DnsServerTcp.find_timerAgain hf, by simp⟩
    | some p =>
      obtain ⟨req, c'⟩ := p
      obtain ⟨m, k, j, rfl⟩ := TcpClient.getDnsRequest_withInput hg
      by_cases hshort : req.length < dnsHeaderLength
      · simp [TcpClient.splitInput, hg, hshort] at hne
      · simp only [TcpClient.splitInput, hg, if_neg hshort] at hne
        obtain ⟨x, hx, htimer⟩ := timer_splitRequests n true
          (record { s with server := s.server.update (c.withInput m k j) } b c.raddr req)
          (c.withInput m k j) (DnsServerTcp.find_update hf (DnsServerTcp.find_eq_some hf).2) hne
        simp only [splitRequests, hget, hg, TcpClient.splitInput, if_neg hshort]
        exact ⟨x, hx, by simpa [TcpClient.withInput] using htimer⟩

/-- A read with data leaves the timer running if it was, or if it hands over a request and
returns. -/
theorem timer_readEvent {c : TcpClient} (hf : s.server.find b = some c) (rounds : ℕ) (r : Recv)
    (hne : (c.readInput rounds r).1 ≠ .removed) :
    (s.readEvent b rounds (.data r)).timerActive b = (c.timerWatcher ||
      (decide ((c.readInput rounds r).1 = .kept) && !(c.readInput rounds r).2.1.isEmpty)) := by
  have hget : (serverIn.get s).find b = some c := hf
  rw [timerActive, server_readEvent]
  rcases ha : c.appendInput r with _ | _ | c'
  · simp [TcpClient.readInput, ha] at hne
  · simp [readCb, hget, TcpClient.readInput, ha, hf]
  · obtain ⟨m, k, j, rfl⟩ := TcpClient.appendInput_withInput ha
    simp only [readCb, hget, TcpClient.readInput, ha] at hne ⊢
    obtain ⟨x, hx, htimer⟩ := timer_splitRequests rounds false
      { s with server := s.server.update (c.withInput m k j) } (c.withInput m k j)
      (DnsServerTcp.find_update hf (DnsServerTcp.find_eq_some hf).2) hne
    have hx' : (splitRequests serverIn record b rounds false (serverIn.set s
      ((serverIn.get s).update (c.withInput m k j)))).2.server.find b = some x := hx
    rw [hx', Option.any_some, htimer, Bool.false_or]
    rfl

theorem halted_readEvent (rounds : ℕ) (res : RecvResult)
    (h : (s.readEvent b rounds res).halted = false) :
    (readCb serverIn record b rounds res s).1 = .kept ∨
      (readCb serverIn record b rounds res s).1 = .removed := by
  unfold readEvent at h
  split at h
  · exact Or.inl (by simp_all)
  · exact Or.inr (by simp_all)
  · cases h

/-- Data from the connection sets its timer if it completes a request. -/
theorem setsTimer_data (hb : Blocks s.server) {c : TcpClient} (hr : s.reading b = some c)
    (rounds : ℕ) (r : Recv) :
    s.setsTimer (.read b rounds (.data r)) b = true ↔ Sets b s (.read b rounds (.data r)) := by
  obtain ⟨hh, hf, -⟩ := reading_eq_some hr
  have hby := readCb_data hb hf rounds r
  have hr' : (s.stopTimer b).reading b = some (c.withTimer false) := by
    rw [reading_stopTimer, hr, Option.map_some, if_pos (DnsServerTcp.find_eq_some hf).2]
  have hf' := (reading_eq_some hr').2.1
  have hstop := step_of_reading hr' rounds (.data r)
  have hstep := step_of_reading hr rounds (.data r)
  have hinput := c.readInput_withTimer false rounds r
  by_cases hrem : (c.readInput rounds r).1 = .removed
  · have hby' := readCb_data (blocks_stopTimer (b := b) hb) hf' rounds r
    refine setsTimer_iff_of_removed ?_ ?_
    · rw [hstop, server_readEvent]
      exact hby'.gone (by rw [hinput]; exact hrem)
    · rw [hstep, server_readEvent]
      exact hby.gone hrem
  · have htimer := timer_readEvent hf' rounds r (by rw [hinput]; exact hrem)
    rw [hinput] at htimer
    rw [setsTimer, hstop, htimer, TcpClient.timerWatcher_withTimer, Bool.false_or,
      Bool.and_eq_true, decide_eq_true_eq, Bool.not_eq_true', List.isEmpty_eq_false_iff]
    have hdel := deliveredOn_readEvent hb hf rounds r
    obtain ⟨t, ht⟩ := hby.stays hrem
    have hlisted : (s.readEvent b rounds (.data r)).server.Listed b :=
      listed_iff.2 (by rw [server_readEvent, ht]; rfl)
    constructor
    · rintro ⟨hkept, hreqs⟩
      refine ⟨.request _ hreqs (by rw [hstep]; exact hdel), by rw [hstep]; exact hlisted, ?_⟩
      rw [hstep, readEvent_of_kept _ _ _ _ (hby.result.trans hkept), hby.halted, hh]
    · rintro ⟨hprogress, -, hhalted⟩
      rw [hstep] at hhalted
      have hend := halted_readEvent rounds (.data r) hhalted
      rw [hby.result] at hend
      refine ⟨hend.resolve_right hrem, fun hnil => ?_⟩
      rw [hnil, List.append_nil] at hdel
      refine not_progress (fun _ => listed_iff.2 (by rw [hf]; rfl)) ?_ ?_ hprogress
      · rw [hstep, hdel]
      · rw [hstep, sent_readEvent]

/-- The end of the connection, or an error other than that there is nothing to read. -/
theorem readEvent_closed {c : TcpClient} (hf : s.server.find b = some c) {rounds : ℕ}
    {res : RecvResult}
    (h : res = .closed ∨ ∃ err : Errno, res = .error err ∧ err.wouldBlock = false) :
    s.readEvent b rounds res = { s with server := s.server.removeClient b } := by
  have hget : (serverIn.get s).find b = some c := hf
  rcases h with rfl | ⟨err, rfl, herr⟩
  · simp only [readEvent, readCb, hget]
    rfl
  · simp only [readEvent, readCb, hget, herr]
    rfl

theorem setsTimer_read (hb : Blocks s.server) (block rounds : ℕ) (res : RecvResult) :
    s.setsTimer (.read block rounds res) b = true ↔ Sets b s (.read block rounds res) := by
  cases hr : s.reading block with
  | none =>
    have hr' : (s.stopTimer b).reading block = none := by rw [reading_stopTimer, hr]; rfl
    exact setsTimer_iff_of_idle (step_of_not_reading hr' rounds res)
      (step_of_not_reading hr rounds res)
  | some c =>
    have hr' := reading_stopTimer (s := s) (b := b) block
    rw [hr, Option.map_some] at hr'
    have hstep := step_of_reading hr rounds res
    have hstop := step_of_reading hr' rounds res
    have hf := (reading_eq_some hr).2.1
    have hf' := (reading_eq_some hr').2.1
    by_cases hblock : block = b
    · subst hblock
      have hgone : (res = .closed ∨ ∃ err : Errno, res = .error err ∧ err.wouldBlock = false) →
          (s.setsTimer (.read block rounds res) block = true ↔
            Sets block s (.read block rounds res)) := by
        intro hclosed
        refine setsTimer_iff_of_removed ?_ ?_
        · rw [hstop, readEvent_closed hf' hclosed]
          exact (blocks_stopTimer hb).find_removeClient block
        · rw [hstep, readEvent_closed hf hclosed]
          exact hb.find_removeClient block
      cases res with
      | data r => exact setsTimer_data hb hr rounds r
      | closed => exact hgone (Or.inl rfl)
      | error err =>
        by_cases herr : err.wouldBlock = true
        · have hkept : ∀ {s : TcpRun} {c : TcpClient}, s.server.find block = some c →
              s.readEvent block rounds (.error err) = s := by
            intro s c hf
            have hget : (serverIn.get s).find block = some c := hf
            simp only [readEvent, readCb, hget, herr, if_true]
          exact setsTimer_iff_of_idle (hstop.trans (hkept hf')) (hstep.trans (hkept hf))
        · exact hgone (Or.inr ⟨err, rfl, by simpa using herr⟩)
    · refine setsTimer_iff_of_find (by rw [hstop, find_readEvent_ne hblock]) ?_
      refine not_progress (fun hl => ?_) ?_ ?_
      · rw [hstep] at hl
        have hsome := listed_iff.1 hl
        rw [find_readEvent_ne hblock] at hsome
        exact listed_iff.2 hsome
      · rw [hstep]
        exact (readEvent_other hblock hb rounds res).2
      · rw [hstep, sent_readEvent]

theorem step_timeout (s : TcpRun) (block : ℕ) : s.step (.timeout block) = s ∨
    s.step (.timeout block) = { s with server := s.server.removeClient block } := by
  by_cases hh : s.halted = true
  · exact Or.inl (by rw [step, if_pos hh])
  · rw [step, if_neg hh]
    by_cases hw : (s.server.find block).any TcpClient.timerWatcher = true
    · exact Or.inr (if_pos hw)
    · exact Or.inl (if_neg hw)

/-- The expiry of a timer sets none. -/
theorem setsTimer_timeout (block : ℕ) :
    s.setsTimer (.timeout block) b = true ↔ Sets b s (.timeout block) := by
  have hnot : ¬Progress b s (.timeout block) := by
    rcases s.step_timeout block with hstep | hstep
    · exact not_progress_of_step_eq hstep
    · refine not_progress (fun hl => ?_) (by rw [hstep]; rfl) (by rw [hstep])
      rw [hstep] at hl
      exact (Blocks.sublist_removeClient block).subset hl
  by_cases hblock : block = b
  · subst hblock
    have hoff : ((s.stopTimer block).server.find block).any TcpClient.timerWatcher = false :=
      timerActive_stopTimer
    exact setsTimer_iff_of_find (by simp [step, hoff]) hnot
  · refine setsTimer_iff_of_find ?_ hnot
    rcases (s.stopTimer b).step_timeout block with hstop | hstop
    · rw [hstop]
    · rw [hstop]
      exact DnsServerTcp.find_removeClient_ne _ hblock

theorem setsTimer_stop (hh : s.halted = false) :
    s.setsTimer .stop b = true ↔ Sets b s .stop := by
  have hgone : ∀ {s : TcpRun}, s.halted = false → (s.step .stop).server.find b = none := by
    intro s hh
    rw [DnsServerTcp.find_eq_none]
    intro c hc
    simp [step, hh, DnsServerTcp.clients_dnsServerTcpStop] at hc
  exact setsTimer_iff_of_removed (hgone (s := s.stopTimer b) hh) (hgone hh)

theorem lookup_stopTimer (raddr : SockAddr) : (s.stopTimer b).server.lookup raddr =
    (s.server.lookup raddr).map fun c => if c.block = b then c.withTimer false else c := by
  simp only [DnsServerTcp.lookup, stopTimer, List.find?_map]
  congr 2
  funext c
  simp only [Function.comp_apply]
  split_ifs <;> rfl

/-- A response is for the same client, whatever the timers. -/
theorem respond_stopTimer (raddr : SockAddr) (resp : List UInt8) (sends : ℕ → SendResult) :
    (s.server.dnsServerTcpRespond raddr resp sends = (s.server, []) ∧
        (s.stopTimer b).server.dnsServerTcpRespond raddr resp sends =
          ((s.stopTimer b).server, [])) ∨
      ∃ c, s.server.lookup raddr = some c ∧
        s.server.dnsServerTcpRespond raddr resp sends =
          s.server.respondTo c.block resp sends ∧
        (s.stopTimer b).server.dnsServerTcpRespond raddr resp sends =
          (s.stopTimer b).server.respondTo c.block resp sends := by
  unfold DnsServerTcp.dnsServerTcpRespond
  rw [lookup_stopTimer]
  split_ifs with hlen
  · exact Or.inl ⟨rfl, rfl⟩
  · cases hl : s.server.lookup raddr with
    | none => exact Or.inl ⟨rfl, rfl⟩
    | some c =>
      refine Or.inr ⟨c, rfl, rfl, ?_⟩
      have hblock : (if c.block = b then c.withTimer false else c).block = c.block := by
        split_ifs <;> rfl
      simp only [Option.map_some, hblock]

/-- A response restarts the timer of its client or removes it, whatever the server. -/
theorem respondTo_timer (block : ℕ) (resp : List UInt8) (sends : ℕ → SendResult) :
    (∀ d : DnsServerTcp, (d.respondTo block resp sends).1 = d.timerAgain block) ∨
      ∀ d : DnsServerTcp, (d.respondTo block resp sends).1 = d.removeClient block := by
  unfold DnsServerTcp.respondTo
  dsimp only
  split_ifs
  · exact Or.inr fun _ => rfl
  · exact Or.inl fun _ => rfl
  · exact Or.inr fun _ => rfl

theorem step_respond (hh : s.halted = false) (raddr : SockAddr) (resp : List UInt8)
    (sends : ℕ → SendResult) : s.step (.respond raddr resp sends) =
      { s with
        server := (s.server.dnsServerTcpRespond raddr resp sends).1
        sent := s.sent ++ (s.server.dnsServerTcpRespond raddr resp sends).2 } := by
  simp [step, hh]

/-- A response sets the timer of the connection if the whole of it is written there. -/
theorem setsTimer_respond (hb : Blocks s.server) (hh : s.halted = false) (raddr : SockAddr)
    (resp : List UInt8) (sends : ℕ → SendResult) :
    s.setsTimer (.respond raddr resp sends) b = true ↔ Sets b s (.respond raddr resp sends) := by
  have hstep := step_respond hh raddr resp sends
  have hstop := step_respond (s := s.stopTimer b) hh raddr resp sends
  rcases s.respond_stopTimer (b := b) raddr resp sends with ⟨hd, hd'⟩ | ⟨c, hl, hd, hd'⟩
  · rw [hd, List.append_nil] at hstep
    rw [hd', List.append_nil] at hstop
    exact setsTimer_iff_of_idle hstop hstep
  · rw [hd] at hstep
    rw [hd'] at hstop
    have hfind : s.server.find c.block = some c := hb.find_eq (DnsServerTcp.mem_of_lookup hl)
    by_cases hblock : c.block = b
    · rcases respondTo_timer c.block resp sends with htimer | hremove
      · -- the whole response is written, as the client stays
        have hwire : wire c.block (s.server.respondTo c.block resp sends).2 =
            Frames.frame resp := by
          rcases s.server.respondTo_spec c.block resp sends with ⟨hwire, -⟩ | ⟨-, hgone⟩
          · exact hwire
          · have hnone := hb.find_removeClient c.block
            rw [← hgone, htimer, DnsServerTcp.find_timerAgain hfind] at hnone
            cases hnone
        rw [htimer] at hstep hstop
        subst hblock
        refine iff_of_true ?_ ⟨.response resp ?_, ?_, ?_⟩
        · have hfind' : (s.stopTimer c.block).server.find c.block = some (c.withTimer false) := by
            rw [find_stopTimer_self, hfind, Option.map_some]
          rw [setsTimer, hstop, timerActive, DnsServerTcp.find_timerAgain hfind']
          rfl
        · rw [hstep, wire_append, hwire]
        · rw [hstep]
          exact listed_iff.2 (by rw [DnsServerTcp.find_timerAgain hfind]; rfl)
        · rw [hstep]
          exact hh
      · rw [hremove] at hstep hstop
        subst hblock
        refine setsTimer_iff_of_removed ?_ ?_
        · rw [hstop]
          exact (blocks_stopTimer hb).find_removeClient c.block
        · rw [hstep]
          exact hb.find_removeClient c.block
    · have hother : ∀ d : DnsServerTcp, (d.respondTo c.block resp sends).1.find b = d.find b := by
        intro d
        rcases respondTo_timer c.block resp sends with htimer | hremove
        · rw [htimer, DnsServerTcp.find_timerAgain_ne _ hblock]
        · rw [hremove, DnsServerTcp.find_removeClient_ne _ hblock]
      refine setsTimer_iff_of_find (by rw [hstop]; exact hother _) ?_
      refine not_progress (fun hlisted => ?_) (by rw [hstep]; rfl) ?_
      · rw [hstep] at hlisted
        have hsome := listed_iff.1 hlisted
        rw [hother] at hsome
        exact listed_iff.2 hsome
      · rw [hstep, wire_append, DnsServerTcp.wire_respondTo_ne hblock, List.append_nil]

/-- An event sets the timer of a connection exactly if it gets it on and leaves it listed. -/
theorem setsTimer_iff (hb : Blocks s.server) (e : TcpEvent) :
    s.setsTimer e b = true ↔ Sets b s e := by
  by_cases hh : s.halted = true
  · have hh' : (s.stopTimer b).halted = true := hh
    exact setsTimer_iff_of_idle (by simp [step, hh']) (by simp [step, hh])
  · have hh : s.halted = false := by simpa using hh
    cases e with
    | accept r => exact setsTimer_accept hb hh r
    | read block rounds res => exact setsTimer_read hb block rounds res
    | timeout block => exact setsTimer_timeout block
    | respond raddr resp sends => exact setsTimer_respond hb hh raddr resp sends
    | stop => exact setsTimer_stop hh

end TcpRun

/-! ## Runs -/

/-- Every listed client has its timer running. -/
def TimersOn (d : DnsServerTcp) : Prop :=
  ∀ c ∈ d.clients, c.timerWatcher = true

namespace TimersOn

theorem kept : KeptByServer TimersOn where
  input d block c m n k hc h := by
    intro x hx
    obtain ⟨y, hy, rfl⟩ := List.mem_map.1 hx
    split_ifs
    · exact h c (DnsServerTcp.find_eq_some hc).1
    · exact h y hy
  again d block c _ h := by
    intro x hx
    obtain ⟨y, hy, rfl⟩ := List.mem_map.1 hx
    split_ifs
    · rfl
    · exact h y hy
  remove d block c _ h := by
    intro x hx
    rw [DnsServerTcp.clients_removeClient] at hx
    exact h x (List.mem_of_mem_eraseP hx)

theorem acceptCb {d : DnsServerTcp} (h : TimersOn d) (r : AcceptResult) :
    TimersOn (d.acceptCb r) := by
  rcases DnsServerTcp.acceptCb_cases r with ⟨sock, addr, n, hadd⟩ | hsame
  · rw [hadd]
    intro c hc
    rcases List.mem_cons.1 hc with rfl | hc
    · rfl
    · exact h c hc
  · rw [hsame]
    exact h

theorem run (limit : ℕ) (es : List TcpEvent) : TimersOn (TcpRun.run limit es).server :=
  Runs.invariant (P := fun s : TcpRun => TimersOn s.server)
    (fun s e h => kept.step (fun _ h => h) (s.tcpStep e) (fun r _ _ => h.acceptCb r) h) es
    (fun c hc => by cases hc)

end TimersOn

namespace TcpRun

variable {s : TcpRun} {e : TcpEvent} {b : ℕ}

theorem timerActive_iff (h : TimersOn s.server) : s.timerActive b = true ↔ s.server.Listed b := by
  rw [listed_iff, timerActive]
  cases hf : s.server.find b with
  | none => simp
  | some c => simp [h c (DnsServerTcp.find_eq_some hf).1]

/-- A client that is not listed has no timer to stop. -/
theorem stopTimer_of_not_listed (h : ¬s.server.Listed b) : s.stopTimer b = s := by
  have hclients : (s.server.clients.map fun c => if c.block = b then c.withTimer false else c) =
      s.server.clients := by
    rw [List.map_congr_left (g := id), List.map_id]
    exact fun c hc => if_neg fun hblock => h (List.mem_map.2 ⟨c, hc, hblock⟩)
  rw [stopTimer, hclients]

/-- Only a connection that has been accepted gets on. -/
theorem Progress.lt_nextBlock (hb : Blocks s.server) (h : Progress b s e) :
    b < (s.step e).server.nextBlock := by
  have hstep := s.tcpStep e
  have hmono : s.server.nextBlock ≤ (s.step e).server.nextBlock := by
    rcases listed_step hstep with ⟨hnext, -⟩ | ⟨hnext, -⟩ <;> omega
  have hlt : ∀ {d : DnsServerTcp}, Blocks d → d.Listed b → b < d.nextBlock := by
    intro d hd hl
    obtain ⟨c, hc, rfl⟩ := List.mem_map.1 hl
    exact hd.lt c hc
  rcases h with ⟨-, hl⟩ | ⟨reqs, hne, hdel⟩ | ⟨resp, hwire⟩
  · exact hlt (hb.step hstep) hl
  · have hnot : (s.step e).deliveredOn b ≠ s.deliveredOn b := by
      rw [hdel]
      exact fun h => hne (List.self_eq_append_right.1 h.symm)
    rcases s.event_cases b e with ⟨rounds, r, c, rfl, hr, -⟩ | ⟨hsame, -⟩ | ⟨hdata, -⟩
    · exact (hlt hb (listed_iff.2 (by rw [(reading_eq_some hr).2.1]; rfl))).trans_le hmono
    · exact (hnot (by rw [hsame])).elim
    · exact (hnot (other_step hstep hb hdata).1).elim
  · have hnot : wire b (s.step e).sent ≠ wire b s.sent := by
      rw [hwire]
      intro h
      have := congrArg List.length (List.self_eq_append_right.1 h.symm)
      rw [Frames.length_frame, List.length_nil] at this
      omega
    rcases sent_step hstep with hsame | ⟨block, resp', sends, hl, -, hsent⟩
    · exact (hnot (by rw [hsame])).elim
    · by_cases hblock : block = b
      · exact (hlt hb (hblock ▸ hl)).trans_le hmono
      · refine (hnot ?_).elim
        rw [hsent, wire_append, DnsServerTcp.wire_respondTo_ne hblock, List.append_nil]

/-- A connection that is listed in the end, and was accepted before, was listed all the time. -/
theorem listed_of_run (hlt : b < s.server.nextBlock) (es : List TcpEvent)
    (h : (Runs.run step s es).server.Listed b) : s.server.Listed b := by
  induction es generalizing s with
  | nil => exact h
  | cons e es ih =>
    rcases listed_step (s.tcpStep e) with ⟨hnext, hlisted⟩ | ⟨hnext, -, hlisted⟩
    · exact hlisted b (ih (by omega) h)
    · exact (hlisted b (ih (by omega) h)).resolve_left (by omega)

theorem halted_run (h : s.halted = true) (es : List TcpEvent) :
    (Runs.run step s es).halted = true :=
  Runs.invariant (P := fun s : TcpRun => s.halted = true)
    (fun s e h => by rw [step.eq_def, if_pos h]; exact h) es h

/-- The run gets the connection at `b` on at the time `t`. -/
def ProgressAt (limit : ℕ) (es : List (ℕ × TcpEvent)) (b t : ℕ) : Prop :=
  timers.HappensAt (Progress b) (clockedStart limit) es t

theorem state_timers (limit : ℕ) (es : List (ℕ × TcpEvent)) :
    (timers.run (clockedStart limit) es).state = run limit (es.map Prod.snd) :=
  Timers.Machine.state_run _ _

/-- A timer that is running was running before, or the event has set it. -/
theorem timerActive_step (limit : ℕ) (es : List TcpEvent) (e : TcpEvent)
    (h : ((run limit es).step e).timerActive b = true) :
    (run limit es).timerActive b = true ∨ (run limit es).setsTimer e b = true := by
  by_cases hl : (run limit es).server.Listed b
  · exact Or.inl ((timerActive_iff (TimersOn.run limit es)).2 hl)
  · refine Or.inr ?_
    rw [setsTimer, stopTimer_of_not_listed hl]
    exact h

theorem sets_timers {r : ℕ} :
    timers.sets s e b = some r ↔ s.setsTimer e b = true ∧ r = idleTimeout := by
  simp only [timers]
  split_ifs with h
  · simp [h, eq_comm]
  · simp [h]

/-- The run sets the timer of a connection where it gets it on, up to the end while it is
listed. -/
theorem setAt_iff {limit : ℕ} {es : List (ℕ × TcpEvent)}
    (hlisted : (run limit (es.map Prod.snd)).server.Listed b)
    (hrunning : (run limit (es.map Prod.snd)).halted = false) {t r : ℕ} :
    timers.SetAt (clockedStart limit) es b t r ↔ ProgressAt limit es b t ∧ r = idleTimeout := by
  constructor
  · rintro ⟨before, e, after, hes, hset⟩
    obtain ⟨hset, hr⟩ := sets_timers.1 hset
    rw [state_timers] at hset
    refine ⟨⟨before, e, after, hes, ?_⟩, hr⟩
    rw [state_timers]
    exact ((setsTimer_iff (Blocks.run _ _) e).1 hset).1
  · rintro ⟨⟨before, e, after, rfl, hprogress⟩, hr⟩
    rw [state_timers] at hprogress
    have hblocks := Blocks.run limit (before.map Prod.snd)
    have hend : run limit ((before ++ (t, e) :: after).map Prod.snd) =
        Runs.run step ((run limit (before.map Prod.snd)).step e) (after.map Prod.snd) := by
      rw [List.map_append, run, Runs.run_append]
      rfl
    rw [hend] at hlisted hrunning
    refine ⟨before, e, after, rfl, sets_timers.2 ⟨?_, hr⟩⟩
    rw [state_timers]
    refine (setsTimer_iff hblocks e).2 ⟨hprogress, ?_, ?_⟩
    · exact listed_of_run (hprogress.lt_nextBlock hblocks) _ hlisted
    · by_contra hhalted
      rw [halted_run (by simpa using hhalted)] at hrunning
      cases hrunning

/-- An active timer was active before, or has been set. -/
theorem active_timers (limit : ℕ) (es : List (ℕ × TcpEvent)) (e : ℕ × TcpEvent)
    (h : timers.active (timers.run (clockedStart limit) (es ++ [e])).state b = true) :
    timers.active (timers.run (clockedStart limit) es).state b = true ∨
      (timers.sets (timers.run (clockedStart limit) es).state e.2 b).isSome := by
  rw [state_timers, List.map_append, List.map_singleton, run, Runs.run_concat] at h
  rw [state_timers]
  rcases timerActive_step limit _ _ h with h | h
  · exact Or.inl h
  · exact Or.inr (by simp [timers, h])

end TcpRun

/-- The idle timeout, for every run of the server at the times of a clock, every connection listed
behind it and every event that comes next at the time `t`. If the event is a connection to accept
or data to read, on whichever socket, the connection has been accepted, has completed a request
or has been sent a whole response in the last two minutes. If it is the timeout of the connection
it closes it, and none of these was less than two minutes ago. -/
theorem tcpIdle (limit : ℕ) (es : List (ℕ × TcpEvent)) (t : ℕ) (e : TcpEvent)
    (htimely : TcpRun.timers.TimelyRun (TcpRun.clockedStart limit) (es ++ [(t, e)])) {b : ℕ}
    (hlisted : (TcpRun.run limit (es.map Prod.snd)).server.Listed b)
    (hrunning : (TcpRun.run limit (es.map Prod.snd)).halted = false) :
    ((∃ r, e = .accept r) ∨ (∃ block rounds res, e = .read block rounds res) →
        ∃ t', TcpRun.ProgressAt limit es b t' ∧ t ≤ t' + idleTimeout) ∧
      (e = .timeout b →
        ¬((TcpRun.run limit (es.map Prod.snd)).step e).server.Listed b ∧
          ∀ t', TcpRun.ProgressAt limit es b t' → t' + idleTimeout ≤ t) := by
  have hactive : (TcpRun.run limit (es.map Prod.snd)).timerActive b = true :=
    (TcpRun.timerActive_iff (TimersOn.run _ _)).2 hlisted
  constructor
  · intro he
    have hpolled : TcpRun.timers.polled e = true := by
      rcases he with ⟨r, rfl⟩ | ⟨block, rounds, res, rfl⟩ <;> rfl
    obtain ⟨t', r, hset, hle⟩ := Timers.Machine.setAt_of_polled
      (fun es e => TcpRun.active_timers limit es e) rfl rfl htimely hpolled
      (by rw [TcpRun.state_timers]; exact hactive)
    obtain ⟨hprogress, rfl⟩ := (TcpRun.setAt_iff hlisted hrunning).1 hset
    exact ⟨t', hprogress, hle⟩
  · rintro rfl
    constructor
    · have hstep : (TcpRun.run limit (es.map Prod.snd)).step (.timeout b) =
          { TcpRun.run limit (es.map Prod.snd) with
            server := (TcpRun.run limit (es.map Prod.snd)).server.removeClient b } := by
        rw [TcpRun.step, if_neg (by simp [hrunning])]
        exact if_pos hactive
      rw [hstep]
      exact (Blocks.run limit _).not_listed_removeClient hlisted
    · intro t' hprogress
      refine Timers.Machine.le_of_expires rfl htimely rfl (fun t r h => ?_)
        ((TcpRun.setAt_iff hlisted hrunning).2 ⟨hprogress, rfl⟩)
      exact ((TcpRun.setAt_iff hlisted hrunning).1 h).2

/-- A peer that connects and sends two bytes a minute later : the connection is closed two minutes
after it was accepted. -/
theorem tcpIdle_two_bytes :
    TcpRun.timers.TimelyRun (TcpRun.clockedStart 20) ([(0, .accept (.sock 7 [])),
        (60000, .read 0 1 (.data lengthRead))] ++ [(120000, .timeout 0)]) ∧
      ¬((TcpRun.run 20 [.accept (.sock 7 []), .read 0 1 (.data lengthRead)]).step
        (.timeout 0)).server.Listed 0 := by
  have htimely : TcpRun.timers.TimelyRun (TcpRun.clockedStart 20) ([(0, .accept (.sock 7 [])),
      (60000, .read 0 1 (.data lengthRead))] ++ [(120000, .timeout 0)]) := by
    refine ⟨⟨le_rfl, (fun k hk => by cases hk), fun _ k d hd => by cases hd⟩,
      ⟨Nat.zero_le _, (fun k hk => by cases hk), fun _ k d hd => ?_⟩,
      ⟨by decide, (fun k hk => ?_), fun hp => by cases hp⟩, trivial⟩
    · -- the only timer that is set is due two minutes after the start
      obtain ⟨-, ⟨r, hset, rfl⟩ | ⟨-, hstart⟩⟩ := Timers.Machine.due_tick.1 hd
      · obtain ⟨-, rfl⟩ := TcpRun.sets_timers.1 hset
        decide
      · cases hstart
    · obtain rfl := Option.some.inj hk
      exact ⟨120000, rfl, le_rfl⟩
  exact ⟨htimely, ((tcpIdle 20 _ 120000 (.timeout 0) htimely (TcpRun.listed_iff.2 rfl) rfl).2
    rfl).1⟩

end HttpsDnsProxy
