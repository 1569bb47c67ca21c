import HttpsDnsProxy.Runs
import HttpsDnsProxy.TcpRead
import HttpsDnsProxy.TcpRespond

/-!
# Runs of the TCP server

`TcpRun` is the server with what it has handed to `d->cb` (`delivered`) and done to its
sockets (`sent`), and `TcpRun.step` handles one event : a connection to accept, data or
an error to read, an idle timeout, a response to write, `dns_server_tcp_stop`. libev calls
a callback only while its watcher is active, so an event whose watcher is not does
nothing. The callback records the request and leaves the server alone. A run is halted
once a callback does not return.

`TcpStep` says what one event can do, and `KeptByServer` is the rule for what the
server's own changes keep.
-/

namespace HttpsDnsProxy

/-- A TCP server with what it has done so far. -/
structure TcpRun where
  server : DnsServerTcp
  /-- The requests handed to `d->cb`, each with the block of the connection it came in on. -/
  delivered : List (ℕ × List UInt8)
  sent : List TcpAction
  /-- A callback has not returned, or the process has ended. -/
  halted : Bool

/-- What the event loop can report to the server. -/
inductive TcpEvent where
  | accept (r : AcceptResult)
  | read (block rounds : ℕ) (res : RecvResult)
  | timeout (block : ℕ)
  | respond (raddr : SockAddr) (resp : List UInt8) (sends : ℕ → SendResult)
  | stop

namespace TcpRun

/-- The server inside the run. -/
def serverIn : ServerIn TcpRun where
  get := TcpRun.server
  set s d := { s with server := d }
  get_set _ _ := rfl
  set_get _ := rfl
  set_set _ _ _ := rfl

/-- A `d->cb` that keeps the request. -/
def record (s : TcpRun) (block : ℕ) (_raddr : SockAddr) (dnsReq : List UInt8) : TcpRun :=
  { s with delivered := s.delivered ++ [(block, dnsReq)] }

/-- `read_cb` as an event : the run is halted unless the callback returns. -/
def readEvent (s : TcpRun) (block rounds : ℕ) (res : RecvResult) : TcpRun :=
  match readCb serverIn record block rounds res s with
  | (.kept, s) => s
  | (.removed, s) => s
  | (_, s) => { s with halted := true }

/-- One event. -/
def step (s : TcpRun) (e : TcpEvent) : TcpRun :=
  if s.halted then s
  else
    match e with
    | .accept r =>
      if s.server.acceptWatcher then { s with server := s.server.acceptCb r } else s
    | .read block rounds res =>
      if (s.server.find block).any TcpClient.readWatcher then s.readEvent block rounds res else s
    | .timeout block =>
      if (s.server.find block).any TcpClient.timerWatcher then
        { s with server := s.server.timerCb block }
      else s
    | .respond raddr resp sends =>
      let (d, acts) := s.server.dnsServerTcpRespond raddr resp sends
      { s with server := d, sent := s.sent ++ acts }
    | .stop => { s with server := s.server.dnsServerTcpStop }

/-- A server just created. -/
def start (tcpClientLimit : ℕ) : TcpRun where
  server := dnsServerTcpCreate tcpClientLimit
  delivered := []
  sent := []
  halted := false

/-- The run of the events `es` from a server just created. -/
def run (tcpClientLimit : ℕ) (es : List TcpEvent) : TcpRun :=
  Runs.run step (start tcpClientLimit) es

end TcpRun

/-! ## What one event can do -/

/-- What an event does : nothing, or what its callback does, with its watcher active. -/
inductive TcpStep (s : TcpRun) : TcpEvent → TcpRun → Prop where
  | idle (e : TcpEvent) : TcpStep s e s
  | accept (r : AcceptResult) : s.server.acceptWatcher = true →
      TcpStep s (.accept r) { s with server := s.server.acceptCb r }
  | read (block rounds : ℕ) (res : RecvResult) (c : TcpClient) : s.server.find block = some c →
      TcpStep s (.read block rounds res) (s.readEvent block rounds res)
  | timeout (block : ℕ) (c : TcpClient) : s.server.find block = some c →
      TcpStep s (.timeout block) { s with server := s.server.removeClient block }
  | respond (raddr : SockAddr) (resp : List UInt8) (sends : ℕ → SendResult) :
      TcpStep s (.respond raddr resp sends)
        { s with
          server := (s.server.dnsServerTcpRespond raddr resp sends).1
          sent := s.sent ++ (s.server.dnsServerTcpRespond raddr resp sends).2 }
  | stop : s.halted = false →
      TcpStep s .stop { s with server := s.server.dnsServerTcpStop }

theorem TcpRun.tcpStep (s : TcpRun) (e : TcpEvent) : TcpStep s e (s.step e) := by
  unfold TcpRun.step
  by_cases hh : s.halted = true
  · rw [if_pos hh]
    exact .idle e
  rw [if_neg hh]
  cases e with
  | accept r =>
    by_cases hw : s.server.acceptWatcher = true
    · simpa [hw] using TcpStep.accept r hw
    · simpa [hw] using TcpStep.idle (.accept r)
  | read block rounds res =>
    by_cases hw : (s.server.find block).any TcpClient.readWatcher = true
    · obtain ⟨c, hc, -⟩ := (Option.any_eq_true _ _).1 hw
      simpa [hw] using TcpStep.read block rounds res c hc
    · simpa [hw] using TcpStep.idle (.read block rounds res)
  | timeout block =>
    by_cases hw : (s.server.find block).any TcpClient.timerWatcher = true
    · obtain ⟨c, hc, -⟩ := (Option.any_eq_true _ _).1 hw
      simpa [hw, DnsServerTcp.timerCb] using TcpStep.timeout block c hc
    · simpa [hw] using TcpStep.idle (.timeout block)
  | respond raddr resp sends => exact TcpStep.respond raddr resp sends
  | stop => exact TcpStep.stop (by simpa using hh)

/-- A property of the server that restarting the timer of a listed client and removing one
keep. -/
structure KeptByRemoval (P : DnsServerTcp → Prop) : Prop where
  again : ∀ d block c, d.find block = some c → P d → P (d.timerAgain block)
  remove : ∀ d block c, d.find block = some c → P d → P (d.removeClient block)

/-- A property of the server that every change to a listed client keeps. -/
structure KeptByServer (P : DnsServerTcp → Prop) : Prop extends KeptByRemoval P where
  input : ∀ d block c m n k, d.find block = some c → P d → P (d.update (c.withInput m n k))

namespace TcpRun

variable (s : TcpRun) (block rounds : ℕ) (res : RecvResult)

theorem server_readEvent :
    (s.readEvent block rounds res).server =
      (readCb serverIn record block rounds res s).2.server := by
  unfold readEvent
  split <;> simp_all

theorem delivered_readEvent :
    (s.readEvent block rounds res).delivered =
      (readCb serverIn record block rounds res s).2.delivered := by
  unfold readEvent
  split <;> simp_all

theorem readEvent_of_kept (h : (readCb serverIn record block rounds res s).1 = .kept) :
    s.readEvent block rounds res = (readCb serverIn record block rounds res s).2 := by
  unfold readEvent
  split <;> simp_all

/-- Reading writes nothing. -/
theorem sent_readEvent : (s.readEvent block rounds res).sent = s.sent := by
  have hkept : KeptByRead serverIn record block fun s' => s'.sent = s.sent :=
    { input := fun _ _ _ _ _ _ h => h
      again := fun _ _ _ h => h
      remove := fun _ _ _ h => h
      call := fun _ _ _ _ _ h => h }
  have hres := hkept.readCb rounds res (s := s) rfl
  unfold readEvent
  split <;> simp_all

end TcpRun

theorem KeptByServer.readEvent {P : DnsServerTcp → Prop} (hP : KeptByServer P) (s : TcpRun)
    (block rounds : ℕ) (res : RecvResult) (h : P s.server) :
    P (s.readEvent block rounds res).server := by
  have hkept : KeptByRead TcpRun.serverIn TcpRun.record block fun s => P s.server :=
    { input := fun s c m n k => hP.input s.server block c m n k
      again := fun s c => hP.again s.server block c
      remove := fun s c => hP.remove s.server block c
      call := fun _ _ _ _ _ h => h }
  rw [TcpRun.server_readEvent]
  exact hkept.readCb rounds res h

namespace KeptByRemoval

variable {P : DnsServerTcp → Prop}

theorem respond (hP : KeptByRemoval P) (d : DnsServerTcp) (raddr : SockAddr) (resp : List UInt8)
    (sends : ℕ → SendResult) (h : P d) : P (d.dnsServerTcpRespond raddr resp sends).1 := by
  rcases d.dnsServerTcpRespond_cases raddr resp sends with hd | ⟨c, hl, hd⟩
  · rw [hd]
    exact h
  · obtain ⟨c', hc'⟩ : ∃ c', d.find c.block = some c' := by
      cases hf : d.find c.block with
      | some c' => exact ⟨c', rfl⟩
      | none => exact (DnsServerTcp.find_eq_none.1 hf c (DnsServerTcp.mem_of_lookup hl) rfl).elim
    rw [hd]
    rcases DnsServerTcp.respondTo_spec c.block resp sends with ⟨-, hd⟩ | ⟨-, hd⟩
    · rw [hd]
      exact hP.again d _ c' hc' h
    · rw [hd]
      exact hP.remove d _ c' hc' h

theorem removeClients (hP : KeptByRemoval P) :
    ∀ (n : ℕ) (d : DnsServerTcp), P d → P (DnsServerTcp.removeClients n d)
  | 0, _, h => h
  | n + 1, d, h => by
    unfold DnsServerTcp.removeClients
    cases hc : d.clients with
    | nil => exact h
    | cons c cs =>
      refine removeClients hP n _ (hP.remove d c.block c ?_ h)
      simp [DnsServerTcp.find, hc]

end KeptByRemoval

/-- An event keeps what the server's own changes keep, if accepting a connection and switching
the accept watcher off do. -/
theorem KeptByServer.step {P : DnsServerTcp → Prop} (hP : KeptByServer P)
    (hoff : ∀ d : DnsServerTcp, P d → P { d with acceptWatcher := false }) {s s' : TcpRun}
    {e : TcpEvent} (hs : TcpStep s e s')
    (haccept : ∀ r, e = .accept r → s.server.acceptWatcher = true → P (s.server.acceptCb r))
    (h : P s.server) : P s'.server := by
  cases hs with
  | idle => exact h
  | accept r hw => exact haccept r rfl hw
  | read block rounds res c _ => exact hP.readEvent s block rounds res h
  | timeout block c hc => exact hP.remove _ block c hc h
  | respond raddr resp sends => exact hP.respond _ raddr resp sends h
  | stop _ => exact hoff _ (hP.removeClients s.server.clients.length s.server h)

/-! ## Blocks -/

/-- The list is newest first, and every block in it has been allocated. -/
structure Blocks (d : DnsServerTcp) : Prop where
  newest : (d.clients.map TcpClient.block).Pairwise (· > ·)
  lt : ∀ c ∈ d.clients, c.block < d.nextBlock

namespace Blocks

variable {d : DnsServerTcp}

theorem nodup (h : Blocks d) : (d.clients.map TcpClient.block).Nodup :=
  h.newest.imp fun hgt => Nat.ne_of_gt hgt

/-- The shape of the list depends on its blocks only. -/
theorem of_sublist {d' : DnsServerTcp} (h : Blocks d) (hnext : d'.nextBlock = d.nextBlock)
    (hsub : (d'.clients.map TcpClient.block).Sublist (d.clients.map TcpClient.block)) :
    Blocks d' := by
  refine ⟨h.newest.sublist hsub, fun c hc => ?_⟩
  obtain ⟨c', hc', hb⟩ := List.mem_map.1 (hsub.subset (List.mem_map_of_mem hc))
  rw [hnext, ← hb]
  exact h.lt c' hc'

theorem sublist_removeClient (block : ℕ) :
    ((d.removeClient block).clients.map TcpClient.block).Sublist
      (d.clients.map TcpClient.block) := by
  rw [DnsServerTcp.clients_removeClient]
  exact List.eraseP_sublist.map _

theorem kept : KeptByServer Blocks where
  input d block c m n k _ h :=
    h.of_sublist rfl (by rw [DnsServerTcp.map_block_update])
  again d block c _ h := h.of_sublist rfl (by rw [DnsServerTcp.map_block_timerAgain])
  remove d block c _ h := h.of_sublist rfl (sublist_removeClient block)

theorem addClient (h : Blocks d) (sock : ℤ) (addr : SockAddr) (n : ℕ) :
    Blocks (d.addClient sock addr n) := by
  refine ⟨List.pairwise_cons.2 ⟨?_, h.newest⟩, ?_⟩
  · intro b hb
    obtain ⟨c, hc, rfl⟩ := List.mem_map.1 hb
    exact h.lt c hc
  · intro c hc
    rcases List.mem_cons.1 hc with rfl | hc
    · exact Nat.lt_succ_self _
    · exact Nat.lt_succ_of_lt (h.lt c hc)

theorem acceptCb (h : Blocks d) (r : AcceptResult) : Blocks (d.acceptCb r) := by
  cases r with
  | sock fd addr => exact h.addClient _ _ _
  | error e stack =>
    rw [DnsServerTcp.acceptCb]
    split_ifs
    · exact h.addClient _ _ _
    · exact h

theorem step {s s' : TcpRun} {e : TcpEvent} (hs : TcpStep s e s') (h : Blocks s.server) :
    Blocks s'.server :=
  kept.step (fun _ h => ⟨h.newest, h.lt⟩) hs (fun r _ _ => h.acceptCb r) h

/-- In every run the client list is newest first. -/
theorem run (limit : ℕ) (es : List TcpEvent) : Blocks (TcpRun.run limit es).server :=
  Runs.invariant (P := fun s : TcpRun => Blocks s.server) (fun s e => step (s.tcpStep e)) es
    ⟨List.Pairwise.nil, by simp [TcpRun.start, dnsServerTcpCreate]⟩

/-- A listed client is found at its block. -/
theorem find_eq (h : Blocks d) {c : TcpClient} (hc : c ∈ d.clients) : d.find c.block = some c := by
  cases hf : d.find c.block with
  | none => exact (DnsServerTcp.find_eq_none.1 hf c hc rfl).elim
  | some c' =>
    obtain ⟨hc', hb⟩ := DnsServerTcp.find_eq_some hf
    exact congrArg some (List.inj_on_of_nodup_map h.nodup hc' hc hb)

/-- `remove_client` takes the client out of its place. -/
theorem removeClient_eq (h : Blocks d) {c : TcpClient} (hc : c ∈ d.clients) :
    ∃ pre post, d.clients = pre ++ c :: post ∧
      (d.removeClient c.block).clients = pre ++ post := by
  obtain ⟨pre, post, hsplit⟩ := List.append_of_mem hc
  refine ⟨pre, post, hsplit, ?_⟩
  have hpre : ∀ x ∈ pre, ¬(x.block = c.block) := by
    have hnd := h.nodup
    rw [hsplit, List.map_append, List.nodup_append] at hnd
    exact fun x hx => hnd.2.2 _ (List.mem_map_of_mem hx) _ (by simp)
  rw [DnsServerTcp.clients_removeClient, hsplit, List.eraseP_append_right _ (by simpa using hpre)]
  simp

end Blocks

/-! ## What one event does to the list and to the sockets -/

/-- The connection at `block` is in the client list. -/
def DnsServerTcp.Listed (d : DnsServerTcp) (block : ℕ) : Prop :=
  block ∈ d.clients.map TcpClient.block

/-- The server's own changes allocate no struct and list no connection. -/
theorem kept_listed (next : ℕ) (blocks : List ℕ) :
    KeptByServer fun d => d.nextBlock = next ∧ d.clients.map TcpClient.block ⊆ blocks where
  input d block c m n k _ h := ⟨h.1, by rw [DnsServerTcp.map_block_update]; exact h.2⟩
  again d block c _ h := ⟨h.1, by rw [DnsServerTcp.map_block_timerAgain]; exact h.2⟩
  remove d block c _ h := ⟨h.1, fun _ hb => h.2 ((Blocks.sublist_removeClient block).subset hb)⟩

/-- An event lists no connection, or the one it accepts, and then nothing is sent. -/
theorem listed_step {s s' : TcpRun} {e : TcpEvent} (hs : TcpStep s e s') :
    (s'.server.nextBlock = s.server.nextBlock ∧
        ∀ b, s'.server.Listed b → s.server.Listed b) ∨
      (s'.server.nextBlock = s.server.nextBlock + 1 ∧ s'.sent = s.sent ∧
        ∀ b, s'.server.Listed b → b = s.server.nextBlock ∨ s.server.Listed b) := by
  have hkept := kept_listed s.server.nextBlock (s.server.clients.map TcpClient.block)
  have hadd : ∀ (sock : ℤ) (addr : SockAddr) (n b : ℕ), (s.server.addClient sock addr n).Listed b →
      b = s.server.nextBlock ∨ s.server.Listed b := by
    intro sock addr n b hb
    simpa [DnsServerTcp.Listed, DnsServerTcp.addClient] using hb
  have hplain : (∀ r, e ≠ .accept r) →
      s'.server.nextBlock = s.server.nextBlock ∧ ∀ b, s'.server.Listed b → s.server.Listed b := by
    intro he
    obtain ⟨hnext, hsub⟩ := hkept.step (fun _ h => h) hs (fun r hr => (he r hr).elim)
      ⟨rfl, fun _ h => h⟩
    exact ⟨hnext, fun _ hb => hsub hb⟩
  cases hs with
  | idle => exact Or.inl ⟨rfl, fun _ h => h⟩
  | accept r _ =>
    cases r with
    | sock fd addr => exact Or.inr ⟨rfl, rfl, hadd _ _ _⟩
    | error e stack =>
      rw [DnsServerTcp.acceptCb]
      split_ifs
      · exact Or.inr ⟨rfl, rfl, hadd _ _ _⟩
      · exact Or.inl ⟨rfl, fun _ h => h⟩
  | read | timeout | respond | stop => exact Or.inl (hplain fun _ => by simp)

/-- An event sends nothing, or one response to a listed client. -/
theorem sent_step {s s' : TcpRun} {e : TcpEvent} (hs : TcpStep s e s') :
    s'.sent = s.sent ∨ ∃ block resp sends, s.server.Listed block ∧
      s'.server = (s.server.respondTo block resp sends).1 ∧
      s'.sent = s.sent ++ (s.server.respondTo block resp sends).2 := by
  cases hs with
  | idle | accept | timeout | stop => exact Or.inl rfl
  | read block rounds res c _ => exact Or.inl (s.sent_readEvent block rounds res)
  | respond raddr resp sends =>
    rcases s.server.dnsServerTcpRespond_cases raddr resp sends with hd | ⟨c, hl, hd⟩
    · exact Or.inl (by simp [hd])
    · refine Or.inr ⟨c.block, resp, sends, ?_, by rw [hd], by rw [hd]⟩
      exact List.mem_map_of_mem (DnsServerTcp.mem_of_lookup hl)

/-- In a list without repeated blocks a removed connection is gone. -/
theorem Blocks.not_listed_removeClient {d : DnsServerTcp} (h : Blocks d) {block : ℕ}
    (hb : d.Listed block) : ¬(d.removeClient block).Listed block := by
  obtain ⟨c, hc, rfl⟩ := List.mem_map.1 hb
  obtain ⟨pre, post, hd, hr⟩ := h.removeClient_eq hc
  have hnd := h.nodup
  rw [hd, List.map_append, List.map_cons, List.nodup_middle, List.nodup_cons] at hnd
  unfold DnsServerTcp.Listed
  rw [hr, List.map_append]
  exact hnd.1

theorem Blocks.find_removeClient {d : DnsServerTcp} (h : Blocks d) (block : ℕ) :
    (d.removeClient block).find block = none := by
  rw [DnsServerTcp.find_eq_none]
  rintro c hc rfl
  have hb : (d.removeClient c.block).Listed c.block := List.mem_map_of_mem hc
  exact h.not_listed_removeClient (Blocks.sublist_removeClient c.block |>.subset hb) hb

end HttpsDnsProxy
