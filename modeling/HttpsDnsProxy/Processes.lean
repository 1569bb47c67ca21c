import HttpsDnsProxy.ProxyRuns

/-!
# The process

`main` runs the event loop twice : until a signal breaks it, and again until nothing is left in
it. Between the two it stops the poller and the servers (`Proxy.stop`), so no request comes in
any more while the transfers under way go on and are answered. Behind the second loop it closes
down (`Proxy.cleanUp`).

* `kept_served`, `closed_stop` : a TCP server that is stopped, or was never created, waits for
  nothing;
* `kept_stopped` : that stays so in the second loop;
* `KeptByProxy.drain` : the rule for the second loop, where no connection is accepted and no
  address list is polled;
* `KeptByProxy.process` : the rule for the whole process, from the first loop on.
-/

namespace HttpsDnsProxy

open HttpsClient (HttpsStep Steps)

/-- A TCP server with nothing to wait for. -/
structure DnsServerTcp.Closed (d : DnsServerTcp) : Prop where
  acceptWatcher : d.acceptWatcher = false
  clients : d.clients = []

theorem DnsServerTcp.Closed.find_ne {d : DnsServerTcp} (h : d.Closed) {block : ℕ} {c : TcpClient} :
    d.find block ≠ some c := by
  simp [DnsServerTcp.find, h.clients]

namespace Proxy

variable {env : Environment} {opt : Options} {s : Proxy} {c : HttpsClient Request}

theorem kept_closed : KeptByServer DnsServerTcp.Closed where
  again _ _ _ hc h := (h.find_ne hc).elim
  remove _ _ _ hc h := (h.find_ne hc).elim
  input _ _ _ _ _ _ hc h := (h.find_ne hc).elim

theorem ClientChange.closed {s' : Proxy} (h : ClientChange env s c s') (hclosed : s.tcp.Closed) :
    s'.tcp.Closed := by
  cases h with
  | quiet | dead => exact hclosed
  | finish _ _ _ _ _ _ _ hreply _ => exact hreply.keep kept_closed hclosed

/-! ## The first loop -/

/-- A TCP server that was not created has nothing to wait for. -/
structure Served (s : Proxy) : Prop where
  fetches : s.https.Fetches
  absent : s.hasTcp = false → s.tcp.Closed

theorem served_client (hstep : HttpsStep s.https c) (h : Served s) : Served (s.advance env c) := by
  refine ⟨h.fetches.step hstep, fun habsent => (clientChange hstep h.fetches).closed ?_⟩
  exact h.absent ((sameApp_advance env s c).hasTcp ▸ habsent)

theorem kept_served (env : Environment) : KeptByProxy env Served where
  server _ _ hchange h :=
    ⟨h.fetches, fun habsent => hchange.keep kept_closed (h.absent habsent)⟩
  client _ _ hstep h := served_client hstep h
  request s isTcp origin raddr dnsReq hrun _ _ _ h := by
    obtain ⟨stat, heq⟩ := s.takeRequest_eq env hrun isTcp origin raddr dnsReq
    rw [heq]
    exact ⟨h.fetches.start _ _ _ _, h.absent⟩
  print _ h := ⟨h.fetches, h.absent⟩
  halt _ h := ⟨h.fetches, h.absent⟩

theorem served_newResolv (addrList : CString) (h : Served s) :
    Served (s.newResolv env addrList) := by
  refine keep_newResolv (fun _ _ => served_client) addrList ?_
  rw [replaceResolv, freeResolv_eq]
  exact ⟨h.fetches, h.absent⟩

theorem Served.accept (h : Served s) {r : AcceptResult} (haccept : s.tcp.acceptWatcher = true) :
    Served { s with tcp := s.tcp.acceptCb r } := by
  refine ⟨h.fetches, fun habsent => ?_⟩
  rw [(h.absent habsent).acceptWatcher] at haccept
  cases haccept

theorem served_start (env : Environment) (opt : Options) : Served (start env opt) := by
  refine ⟨.httpsClientInit env.lib opt.statsInterval, fun habsent => ?_⟩
  have hlimit : ¬opt.tcpClientLimit > 0 := by simpa [start] using habsent
  simp only [start, if_neg hlimit]
  exact ⟨rfl, rfl⟩

theorem served_run (env : Environment) (opt : Options) (es : List ProxyEvent) :
    Served (run env opt es) :=
  Runs.invariant (fun _ e h => (kept_served env).step e (fun _ _ haccept h => h.accept haccept)
    (fun addrList _ _ _ => served_newResolv addrList) h) es (served_start env opt)

/-! ## The second loop -/

theorem stop_eq (s : Proxy) : ∃ tcp stat, s.stop =
    { s with
      dnsPoller := false
      dnsServer := false
      trace := s.trace ++ s.resolv.toList.map fun r => .released (.resolv r.block)
      tcp := tcp
      stat := stat } := by
  unfold stop
  simp only [freeResolv_eq]
  split_ifs <;> exact ⟨_, _, rfl⟩

theorem closed_stop (h : Served s) : s.stop.tcp.Closed := by
  cases htcp : s.hasTcp with
  | false => simpa [stop, freeResolv_eq, htcp] using h.absent htcp
  | true =>
    have hstop : s.stop.tcp = s.tcp.dnsServerTcpStop := by simp [stop, freeResolv_eq, htcp]
    rw [hstop]
    exact ⟨rfl, DnsServerTcp.clients_dnsServerTcpStop⟩

/-- The second loop : nothing new comes in. -/
structure Stopped (s : Proxy) : Prop where
  fetches : s.https.Fetches
  dnsPoller : s.dnsPoller = false
  dnsServer : s.dnsServer = false
  closed : s.tcp.Closed

theorem stopped_stop (h : Served s) : Stopped s.stop := by
  have hclosed := closed_stop h
  obtain ⟨tcp, stat, heq⟩ := s.stop_eq
  rw [heq] at hclosed ⊢
  exact ⟨h.fetches, rfl, rfl, hclosed⟩

theorem stopped_client (hstep : HttpsStep s.https c) (h : Stopped s) :
    Stopped (s.advance env c) := by
  have hsame : SameApp s (s.advance env c) := sameApp_advance env s c
  exact ⟨h.fetches.step hstep, hsame.dnsPoller.trans h.dnsPoller, hsame.dnsServer.trans h.dnsServer,
    (clientChange hstep h.fetches).closed h.closed⟩

/-- No request arrives : the servers are stopped. -/
theorem Stopped.not_arrives (h : Stopped s) {isTcp : Bool} {origin : Option ℕ} {raddr : SockAddr} :
    ¬Arrives s isTcp origin raddr := by
  intro harrives
  cases harrives with
  | udp _ hserver =>
    rw [h.dnsServer] at hserver
    cases hserver
  | tcp hc => exact h.closed.find_ne hc

theorem kept_stopped (env : Environment) : KeptByProxy env Stopped where
  server _ _ hchange h := ⟨h.fetches, h.dnsPoller, h.dnsServer, hchange.keep kept_closed h.closed⟩
  client _ _ hstep h := stopped_client hstep h
  request _ _ _ _ _ _ _ harrives _ h := (h.not_arrives harrives).elim
  print _ h := ⟨h.fetches, h.dnsPoller, h.dnsServer, h.closed⟩
  halt _ h := ⟨h.fetches, h.dnsPoller, h.dnsServer, h.closed⟩

/-- What every change keeps, an event of the second loop keeps : no connection is accepted and
no address list is polled. -/
theorem KeptByProxy.step_of_stopped {P : Proxy → Prop} (hP : KeptByProxy env P) (e : ProxyEvent)
    (hstopped : Stopped s) (h : P s) : P (s.step env e) := by
  refine hP.step e (fun _ _ haccept => ?_) (fun _ _ _ hpoller => ?_) h
  · rw [hstopped.closed.acceptWatcher] at haccept
    cases haccept
  · rw [hstopped.dnsPoller] at hpoller
    cases hpoller

/-- What every change keeps, the second loop keeps. -/
theorem KeptByProxy.drain {P : Proxy → Prop} (hP : KeptByProxy env P) (drain : List ProxyEvent)
    (hstopped : Stopped s) (h : P s) : P (Runs.run (Proxy.step env) s drain) := by
  have hboth : Stopped (Runs.run (Proxy.step env) s drain) ∧
      P (Runs.run (Proxy.step env) s drain) :=
    Runs.invariant (P := fun s => Stopped s ∧ P s)
      (fun _ e h => ⟨(kept_stopped env).step_of_stopped e h.1 h.1, hP.step_of_stopped e h.1 h.2⟩)
      drain ⟨hstopped, h⟩
  exact hboth.2

/-! ## Closing down -/

theorem releaseServers_eq (s : Proxy) : ∃ os, s.releaseServers = { s with trace := s.trace ++ os } ∧
    ∀ o ∈ os, o = .released .dnsServer ∨ o = .released .dnsServerTcp := by
  unfold releaseServers
  simp only
  split_ifs
  · exact ⟨[.released .dnsServer, .released .dnsServerTcp], by simp [note], by simp⟩
  · exact ⟨[.released .dnsServer], rfl, by simp⟩

/-- Closing down keeps what steps of the client keep, if it is kept when the servers are released
and when the statistics are printed for the last time. -/
theorem keep_cleanUp {P : Proxy → Prop}
    (hclient : ∀ s c, HttpsStep s.https c → P s → P (s.advance env c))
    (hservers : P s → P s.releaseServers)
    (hstat : ∀ s, P s → P { s with stat := s.stat.map Stat.statCleanup }) (h : P s) :
    P (s.cleanUp env) := by
  unfold cleanUp
  split_ifs
  · exact h
  · exact hstat _ (keep_steps hclient (HttpsClient.steps_httpsClientCleanup env.lib _)
      (hservers h))

/-- What the first loop leaves and what every change, the stop and closing down keep, the process
has in all its states. -/
theorem KeptByProxy.process {P : Proxy → Prop} (hP : KeptByProxy env P) {es : List ProxyEvent}
    (hs : ProcessState env opt es s) (hrun : P (run env opt es)) (hstop : ∀ s, P s → P s.stop)
    (hservers : ∀ s, P s → P s.releaseServers)
    (hstat : ∀ s, P s → P { s with stat := s.stat.map Stat.statCleanup }) : P s := by
  have hdrain : ∀ drain, P (Runs.run (Proxy.step env) (run env opt es).stop drain) :=
    fun drain => hP.drain drain (stopped_stop (served_run env opt es)) (hstop _ hrun)
  cases hs with
  | loop => exact hrun
  | drain drain => exact hdrain drain
  | done drain => exact keep_cleanUp hP.client (hservers _) hstat (hdrain drain)

end Proxy

end HttpsDnsProxy
