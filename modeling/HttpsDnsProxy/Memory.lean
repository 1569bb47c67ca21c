import HttpsDnsProxy.Lifecycle

/-!
# Memory

What `main.c` allocates : the two blocks of a request, the resolver lists, the servers. Each is
released at one place of several, by a callback, by `dns_poll_cb` or behind the loop, and
`releasedOnce` says that all of them together release every block exactly once by the end of
`main`, and release nothing that was not allocated.

The blocks of a request follow from its life (`Lives`). For the resolver lists `Lists` counts
the releases of every list that `curl_slist_append` has given, but for the one in use.
-/

namespace HttpsDnsProxy

open HttpsClient (HttpsStep)

/-- What has been allocated : the blocks of the requests accepted, the resolver lists that
`curl_slist_append` gave, the UDP server, and the TCP server if there is one. -/
def Proxy.allocated (env : Environment) (s : Proxy) : Object → Bool
  | .resolv k => k < s.nextSlist && env.slistAppend k
  | .dnsReq n | .request n => s.trace.any (Observation.accepts n)
  | .dnsServer => true
  | .dnsServerTcp => s.hasTcp

/-! ## The blocks of a request -/

/-- How often a request in the phase has been accepted. -/
def Phase.accepts : Phase → ℕ
  | .unseen => 0
  | _ => 1

/-- How often `dns_req` of a request in the phase has been released. -/
def Phase.freesDnsReq : Phase → ℕ
  | .emptied | .closed => 1
  | _ => 0

/-- How often a request in the phase has been released itself. -/
def Phase.freesRequest : Phase → ℕ
  | .closed => 1
  | _ => 0

/-- The phases count what is seen of their request. -/
theorem Phase.counts_next {env : Environment} {a n : ℕ} {p q : Phase} {o : Observation}
    (ho : o.owner = some n) (h : p.next env a o = some q) :
    q.accepts = p.accepts + (if o.accepts n then 1 else 0) ∧
      q.freesDnsReq = p.freesDnsReq + (if o == .released (.dnsReq n) then 1 else 0) ∧
      q.freesRequest = p.freesRequest + (if o == .released (.request n) then 1 else 0) := by
  unfold Phase.next at h
  split at h
  case h_1 | h_6 | h_7 =>
    split_ifs at h
    obtain rfl := Option.some.inj h
    simp_all [Phase.accepts, Phase.freesDnsReq, Phase.freesRequest, Observation.accepts,
      Observation.owner]
  case h_11 => cases h
  all_goals
    obtain rfl := Option.some.inj h
    simp_all [Phase.accepts, Phase.freesDnsReq, Phase.freesRequest, Observation.accepts,
      Observation.owner]

namespace Lives

variable {env : Environment} {a n : ℕ} {t : List Observation} {p : Phase}

theorem countP_accepts (h : Lives env a n t p) :
    t.countP (Observation.accepts n) = p.accepts := by
  have hcount := h.countP_eq (μ := Phase.accepts) (fun o ho p q hn => (p.counts_next ho hn).1)
    fun o ho => by cases o <;> simp_all [Observation.accepts, Observation.owner]
  simpa [Phase.accepts] using hcount.symm

theorem count_dnsReq (h : Lives env a n t p) :
    t.count (.released (.dnsReq n)) = p.freesDnsReq := by
  have hcount := h.countP_eq (μ := Phase.freesDnsReq)
    (fun o ho p q hn => (p.counts_next ho hn).2.1)
    fun o ho => by rw [eq_of_beq ho, Observation.owner]
  simpa [List.count, Phase.freesDnsReq] using hcount.symm

theorem count_request (h : Lives env a n t p) :
    t.count (.released (.request n)) = p.freesRequest := by
  have hcount := h.countP_eq (μ := Phase.freesRequest)
    (fun o ho p q hn => (p.counts_next ho hn).2.2)
    fun o ho => by rw [eq_of_beq ho, Observation.owner]
  simpa [List.count, Phase.freesRequest] using hcount.symm

end Lives

/-! ## Resolver lists -/

namespace Proxy

variable {env : Environment} {s : Proxy} {c : HttpsClient Request} {a : ℕ} {live : Option ℕ}

/-- Steps of the client show nothing new that is not of a fetch. -/
theorem count_steps (env : Environment) (hf : s.https.Fetches)
    (hsteps : HttpsClient.Steps s.https c) {o : Observation} (ho : ∀ n, o.ofFetch n = false) :
    (s.advance env c).trace.count o = s.trace.count o := by
  obtain ⟨os, hos, hof⟩ := ofFetch_steps env hf hsteps
  rw [hos, List.count_append, Nat.add_eq_left, List.count_eq_zero]
  intro hmem
  obtain ⟨n, hn⟩ := hof o hmem
  rw [ho] at hn
  cases hn

/-- Every list that `curl_slist_append` has given is released once, but for the one that is
`live`, and nothing else is. -/
structure Lists (env : Environment) (live : Option ℕ) (s : Proxy) : Prop where
  fetches : s.https.Fetches
  count : ∀ k, s.trace.count (.released (.resolv k)) =
    if k < s.nextSlist ∧ env.slistAppend k = true ∧ live ≠ some k then 1 else 0

theorem lists_client (hstep : HttpsStep s.https c) (h : Lists env live s) :
    Lists env live (s.advance env c) := by
  refine ⟨h.fetches.step hstep, fun k => ?_⟩
  rw [count_steps env h.fetches (.one hstep) (fun _ => rfl), (sameApp_advance env s c).nextSlist]
  exact h.count k

/-- What changes neither the resolver list nor its poller keeps the account. -/
theorem kept_lists (env : Environment) (live : Option ℕ) : KeptByProxy env (Lists env live) where
  server _ _ _ h := ⟨h.fetches, h.count⟩
  client _ _ hstep h := lists_client hstep h
  request s isTcp origin raddr dnsReq hrun _ _ _ h := by
    obtain ⟨stat, heq⟩ := s.takeRequest_eq env hrun isTcp origin raddr dnsReq
    rw [heq]
    exact ⟨h.fetches.start _ _ _ _, fun k => by simpa [List.count_append] using h.count k⟩
  print _ h := ⟨h.fetches, h.count⟩
  halt _ h := ⟨h.fetches, h.count⟩

/-- The list in use is the one that is live. -/
structure Listing (env : Environment) (s : Proxy) : Prop where
  lists : Lists env (s.resolv.map SList.block) s
  current : ∀ r, s.resolv = some r → r.block < s.nextSlist ∧ env.slistAppend r.block = true

theorem listing_client (hstep : HttpsStep s.https c) (h : Listing env s) :
    Listing env (s.advance env c) := by
  have hsame := sameApp_advance env s c
  refine ⟨?_, ?_⟩
  · rw [hsame.resolv]
    exact lists_client hstep h.lists
  · rw [hsame.resolv, hsame.nextSlist]
    exact h.current

theorem kept_listing (env : Environment) : KeptByProxy env (Listing env) where
  server s d hd h := ⟨(kept_lists env _).server s d hd h.lists, h.current⟩
  client _ _ hstep h := listing_client hstep h
  request s isTcp origin raddr dnsReq hrun hboot harrives hlen h := by
    have hlists := (kept_lists env _).request s isTcp origin raddr dnsReq hrun hboot harrives hlen
      h.lists
    obtain ⟨stat, heq⟩ := s.takeRequest_eq env hrun isTcp origin raddr dnsReq
    rw [heq] at hlists ⊢
    exact ⟨hlists, h.current⟩
  print s h := ⟨(kept_lists env _).print s h.lists, h.current⟩
  halt s h := ⟨(kept_lists env _).halt s h.lists, h.current⟩

/-- Releasing the list in use completes the account. -/
theorem Listing.freed (h : Listing env s) (k : ℕ) :
    List.count (.released (.resolv k))
        (s.trace ++ s.resolv.toList.map fun r => Observation.released (.resolv r.block)) =
      if k < s.nextSlist ∧ env.slistAppend k = true then 1 else 0 := by
  rw [List.count_append, h.lists.count k]
  cases hr : s.resolv with
  | none => simp
  | some r =>
    obtain ⟨hlt, happend⟩ := h.current r hr
    by_cases hk : r.block = k
    · subst hk
      simp [hlt, happend]
    · simp [hk]

/-- A new list takes the place of the old one. -/
theorem listing_replaceResolv (addrList : CString) (h : Listing env s) :
    Listing env (s.replaceResolv env addrList) := by
  have hfreed := h.freed
  rw [replaceResolv, freeResolv_eq]
  refine ⟨⟨h.lists.fetches, fun k => ?_⟩, fun r hr => ?_⟩
  · rw [hfreed]
    simp only
    by_cases happend : env.slistAppend s.nextSlist = true
    · rw [if_pos happend]
      simp only [Option.map_some, ne_eq, Option.some.injEq]
      refine if_congr ⟨fun hk => ⟨by omega, hk.2, by omega⟩, fun hk => ⟨by omega, hk.2.1⟩⟩ rfl rfl
    · rw [if_neg happend]
      refine if_congr ⟨fun hk => ⟨by omega, hk.2, by simp⟩, fun hk => ⟨?_, hk.2.1⟩⟩ rfl rfl
      have hne : k ≠ s.nextSlist := by
        rintro rfl
        exact happend hk.2.1
      omega
  · simp only at hr
    split_ifs at hr with happend
    obtain rfl := Option.some.inj hr
    exact ⟨Nat.lt_succ_self _, happend⟩

theorem listing_run (env : Environment) (opt : Options) (es : List ProxyEvent) :
    Listing env (run env opt es) :=
  Runs.invariant (fun _ e h => (kept_listing env).step e
    (fun _ _ _ h => ⟨⟨h.lists.fetches, h.lists.count⟩, h.current⟩)
    (fun addrList _ _ _ h => keep_newResolv (fun _ _ => listing_client) addrList
      (listing_replaceResolv addrList h)) h) es
    ⟨⟨.httpsClientInit env.lib opt.statsInterval, fun k => by simp [start]⟩,
      fun r hr => by cases hr⟩

/-! ## To the end of `main` -/

/-- The second loop : all lists are released, and the servers are there. -/
structure Winding (env : Environment) (s : Proxy) : Prop where
  lists : Lists env none s
  serving : Serving s
  stopped : Stopped s

theorem winding_client (hstep : HttpsStep s.https c) (h : Winding env s) :
    Winding env (s.advance env c) :=
  ⟨lists_client hstep h.lists, serving_client hstep h.serving, stopped_client hstep h.stopped⟩

theorem kept_winding (env : Environment) : KeptByProxy env (Winding env) where
  server s d hd h := ⟨(kept_lists env _).server s d hd h.lists,
    (kept_serving env).server s d hd h.serving, (kept_stopped env).server s d hd h.stopped⟩
  client _ _ hstep h := winding_client hstep h
  request _ _ _ _ _ _ _ harrives _ h := (h.stopped.not_arrives harrives).elim
  print s h := ⟨(kept_lists env _).print s h.lists, (kept_serving env).print s h.serving,
    (kept_stopped env).print s h.stopped⟩
  halt s h := ⟨(kept_lists env _).halt s h.lists, (kept_serving env).halt s h.serving,
    (kept_stopped env).halt s h.stopped⟩

theorem winding_stop (h : Listing env s) (hserving : Serving s) : Winding env s.stop := by
  have hfreed := h.freed
  have hstopped := stopped_stop hserving.served
  obtain ⟨tcp, stat, heq⟩ := s.stop_eq
  rw [heq] at hstopped ⊢
  exact ⟨⟨h.lists.fetches, fun k => by simpa using hfreed k⟩,
    ⟨⟨hserving.served.fetches, fun _ => hstopped.closed⟩,
      fun hmem => hserving.live.1 (by simpa using hmem),
      fun hmem => hserving.live.2 (by simpa using hmem)⟩, hstopped⟩

theorem winding_events (drain : List ProxyEvent) (h : Winding env s) :
    Winding env (Runs.run (step env) s drain) :=
  (kept_winding env).drain drain h.stopped h

/-- What releasing the servers shows. -/
def serversReleased (hasTcp : Bool) : List Observation :=
  .released .dnsServer :: if hasTcp then [.released .dnsServerTcp] else []

theorem releaseServers_trace (s : Proxy) :
    s.releaseServers = { s with trace := s.trace ++ serversReleased s.hasTcp } := by
  unfold releaseServers serversReleased
  cases htcp : s.hasTcp <;> simp [note, htcp]

/-- Closing down shows the servers released, and otherwise only what is of a fetch. -/
theorem count_cleanUp (hf : s.https.Fetches) (hrun : s.running = true) {o : Observation}
    (ho : ∀ n, o.ofFetch n = false) :
    (s.cleanUp env).trace.count o = s.trace.count o + (serversReleased s.hasTcp).count o := by
  unfold cleanUp
  rw [if_neg (by simp [hrun]), releaseServers_trace]
  have hcount := count_steps env
    (s := { s with trace := s.trace ++ serversReleased s.hasTcp }) hf
    (HttpsClient.steps_httpsClientCleanup env.lib s.https) ho
  rw [List.count_append] at hcount
  exact hcount

theorem sameApp_cleanUp (env : Environment) (s : Proxy) : SameApp s (s.cleanUp env) := by
  unfold cleanUp
  split_ifs
  · exact ⟨rfl, rfl, rfl, rfl, rfl, rfl, rfl, rfl⟩
  · rw [releaseServers_trace]
    obtain ⟨h1, h2, h3, h4, h5, h6, h7, h8⟩ :=
      sameApp_advance env { s with trace := s.trace ++ serversReleased s.hasTcp }
        (s.https.httpsClientCleanup env.lib)
    exact ⟨h1, h2, h3, h4, h5, h6, h7, h8⟩

/-- Steps of the client leave a closed TCP server closed. -/
theorem closed_steps (env : Environment) (hsteps : HttpsClient.Steps s.https c)
    (h : s.https.Fetches ∧ s.tcp.Closed) :
    (s.advance env c).https.Fetches ∧ (s.advance env c).tcp.Closed :=
  keep_steps (P := fun s' => s'.https.Fetches ∧ s'.tcp.Closed)
    (fun _ _ hstep h => ⟨h.1.step hstep, (clientChange hstep h.1).closed h.2⟩) hsteps h

theorem closed_cleanUp (h : Winding env s) : (s.cleanUp env).tcp.Closed := by
  unfold cleanUp
  split_ifs
  · exact h.stopped.closed
  · rw [releaseServers_trace]
    exact (closed_steps env (s := { s with trace := s.trace ++ serversReleased s.hasTcp })
      (HttpsClient.steps_httpsClientCleanup env.lib s.https) ⟨h.lists.fetches, h.stopped.closed⟩).2

/-- A process that comes to the end of `main` was running before it closed down. -/
theorem running_of_cleanUp (h : (s.cleanUp env).running = true) : s.running = true := by
  by_contra hrun
  have hrun' : s.running = false := by simpa using hrun
  rw [cleanUp, if_pos hrun', hrun'] at h
  cases h

/-- The blocks of a request are released once if it was accepted. -/
theorem count_request_teardown (h : Living env a s) {drain : List ProxyEvent}
    (hrun : (s.teardown env drain).running = true) (n : ℕ) :
    (s.teardown env drain).trace.count (.released (.dnsReq n)) =
        (if (s.teardown env drain).trace.any (Observation.accepts n) then 1 else 0) ∧
      (s.teardown env drain).trace.count (.released (.request n)) =
        if (s.teardown env drain).trace.any (Observation.accepts n) then 1 else 0 := by
  have hlife := lives_teardown h hrun n
  have haccepts := hlife.countP_accepts
  rw [hlife.count_dnsReq, hlife.count_request]
  by_cases hlt : n < (s.teardown env drain).https.nextBlock
  · rw [if_pos hlt, show Phase.closed.accepts = 1 from rfl] at haccepts
    have hany : (s.teardown env drain).trace.any (Observation.accepts n) = true := by
      have hpos : 0 < (s.teardown env drain).trace.countP (Observation.accepts n) := by omega
      simpa using List.countP_pos_iff.1 hpos
    simp [hlt, hany, Phase.freesDnsReq, Phase.freesRequest]
  · rw [if_neg hlt, Phase.accepts] at haccepts
    have hany : (s.teardown env drain).trace.any (Observation.accepts n) = false := by
      simpa using List.countP_eq_zero.1 haccepts
    simp [hlt, hany, Phase.freesDnsReq, Phase.freesRequest]

namespace Winding

/-- Every list that was allocated is released once. -/
theorem count_resolv (h : Winding env s) (hrun : s.running = true) (k : ℕ) :
    (s.cleanUp env).trace.count (.released (.resolv k)) =
      if (s.cleanUp env).allocated env (.resolv k) then 1 else 0 := by
  have hservers : (serversReleased s.hasTcp).count (.released (.resolv k)) = 0 := by
    cases s.hasTcp <;> rfl
  rw [count_cleanUp h.lists.fetches hrun (fun _ => rfl), h.lists.count, hservers]
  simp [allocated, (s.sameApp_cleanUp env).nextSlist]

theorem count_dnsServer (h : Winding env s) (hrun : s.running = true) :
    (s.cleanUp env).trace.count (.released .dnsServer) = 1 := by
  have hservers : (serversReleased s.hasTcp).count (.released .dnsServer) = 1 := by
    cases s.hasTcp <;> rfl
  rw [count_cleanUp h.lists.fetches hrun (fun _ => rfl), hservers,
    List.count_eq_zero.2 h.serving.live.1]

theorem count_dnsServerTcp (h : Winding env s) (hrun : s.running = true) :
    (s.cleanUp env).trace.count (.released .dnsServerTcp) =
      if (s.cleanUp env).hasTcp then 1 else 0 := by
  have hservers : (serversReleased s.hasTcp).count (.released .dnsServerTcp) =
      if s.hasTcp then 1 else 0 := by
    cases s.hasTcp <;> rfl
  rw [count_cleanUp h.lists.fetches hrun (fun _ => rfl), hservers,
    List.count_eq_zero.2 h.serving.live.2, (s.sameApp_cleanUp env).hasTcp, Nat.zero_add]

end Winding

end Proxy

/-- Nothing leaks and nothing is released twice. For every run up to the break of the loop and
every way the second loop goes, once `main` has come to its end there is no fetch and no TCP
client left, everything `main.c` has allocated is released exactly once, and nothing that was
not allocated is released. -/
theorem releasedOnce (env : Environment) (opt : Options) (es drain : List ProxyEvent)
    (hrun : ((Proxy.run env opt es).teardown env drain).running = true) :
    let ended := (Proxy.run env opt es).teardown env drain
    ended.https.fetches = [] ∧ ended.tcp.clients = [] ∧
      ∀ o, ended.trace.count (.released o) = if ended.allocated env o then 1 else 0 := by
  intro ended
  have hwinding : Proxy.Winding env (Runs.run (Proxy.step env) (Proxy.run env opt es).stop drain) :=
    Proxy.winding_events drain
      (Proxy.winding_stop (Proxy.listing_run env opt es) (Proxy.serving_run env opt es))
  have hrunning := Proxy.running_of_cleanUp hrun
  have hrequest := Proxy.count_request_teardown (Proxy.living_run env opt es) hrun
  refine ⟨Proxy.fetches_teardown hrun, (Proxy.closed_cleanUp hwinding).clients, fun o => ?_⟩
  cases o with
  | resolv k => exact hwinding.count_resolv hrunning k
  | dnsReq n => exact (hrequest n).1
  | request n => exact (hrequest n).2
  | dnsServer => exact hwinding.count_dnsServer hrunning
  | dnsServerTcp => exact hwinding.count_dnsServerTcp hrunning

/-- The addresses of the resolver change, a request is answered and another one is in flight
when the loop is broken. -/
theorem releasedOnce_two_lists :
    let s := Proxy.run (answering headerOnly) ⟨false, 2, 4, some "dns.google".toList⟩
      [.poll "8.8.8.8".toList, .udp (.datagram headerOnly [10, 0, 0, 1]),
        .timer [.done 0 .ok goodInfo], .poll "8.8.4.4".toList,
        .udp (.datagram headerOnly [10, 0, 0, 2])]
    (s.teardown (answering headerOnly) []).trace.count (.released (.resolv 1)) = 1 :=
  (releasedOnce (answering headerOnly) ⟨false, 2, 4, some "dns.google".toList⟩ _ [] rfl).2.2
    (.resolv 1)

end HttpsDnsProxy
