import HttpsDnsProxy.Relay

/-!
# Routing replies to TCP connections

A request from a TCP connection remembers the peer's address, and its response is written to
the first listed connection with that address. That is the connection the request came in on
as long as no connection is accepted from an address that a listed connection or a request in
flight has (`tcpRouted`). A peer that closes and connects again from the same port gets the
responses meant for its old connection (`tcpRouted_reconnect`).
-/

namespace HttpsDnsProxy

open HttpsClient (HttpsStep)

/-- An observation, if it is a reply over TCP, writes only to the connection its request came
in on, and if that is gone to none. -/
def Routed (before : List Observation) : Observation → Prop
  | .tcpReply n _ clients acts => ∃ origin source dnsReq,
      before.filter (Observation.accepts n) = [.accepted n true (some origin) source dnsReq] ∧
      (∀ block, block ≠ origin → wire block acts = []) ∧ (origin ∉ clients → acts = [])
  | _ => True

/-- What `accept` gives : a peer with an address of the socket's family that no listed
connection and no TCP request in flight has, or a failure that adds no connection. -/
def FreshPeer (s : Proxy) : AcceptResult → Prop
  | .sock _ addr => addr.length = s.addrlen ∧ (∀ c ∈ s.tcp.clients, c.raddr ≠ addr) ∧
      ∀ p ∈ s.https.listed, p.2.isTcp = true → p.2.raddr ≠ addr
  | .error e _ => e.wouldBlock = false

/-- Every connection accepted is from a fresh peer. -/
def FreshPeers (s : Proxy) : ProxyEvent → Prop
  | .accept r => FreshPeer s r
  | _ => True

theorem routed_of_isPlain (t : List Observation) (o : Observation) (ho : o.isPlain = true) :
    Routed t o := by
  cases o with
  | started | ended | callback | released => trivial
  | accepted | udpReply | tcpReply => cases ho

/-! ## The listed connections -/

/-- The connection a struct is for, with its peer's address. -/
def TcpClient.peer (c : TcpClient) : ℕ × SockAddr × ℕ :=
  (c.block, c.raddr, c.addrLen)

/-- The server's own changes add no connection. -/
theorem kept_peers (peers : List (ℕ × SockAddr × ℕ)) :
    KeptByServer fun d => Blocks d ∧ (d.clients.map TcpClient.peer).Sublist peers where
  input d block c m n k hc h := by
    refine ⟨Blocks.kept.input d block c m n k hc h.1, ?_⟩
    have hmap : (d.update (c.withInput m n k)).clients.map TcpClient.peer =
        d.clients.map TcpClient.peer := by
      simp only [DnsServerTcp.update, List.map_map]
      refine List.map_congr_left fun c' hc' => ?_
      simp only [Function.comp_apply]
      split_ifs with hb
      · -- blocks are not repeated, so this is the struct that was found
        have hfind := h.1.find_eq hc'
        rw [hb.trans (DnsServerTcp.find_eq_some hc).2, hc] at hfind
        rw [← Option.some.inj hfind]
        rfl
      · rfl
    rw [hmap]
    exact h.2
  again d block c hc h := by
    refine ⟨Blocks.kept.again d block c hc h.1, ?_⟩
    have hmap : (d.timerAgain block).clients.map TcpClient.peer =
        d.clients.map TcpClient.peer := by
      simp only [DnsServerTcp.timerAgain, List.map_map]
      refine List.map_congr_left fun c' _ => ?_
      simp only [Function.comp_apply]
      split_ifs <;> rfl
    rw [hmap]
    exact h.2
  remove d block c hc h := by
    refine ⟨Blocks.kept.remove d block c hc h.1, ?_⟩
    rw [DnsServerTcp.clients_removeClient]
    exact (List.eraseP_sublist.map _).trans h.2

/-- The listed connections are from different peers, with addresses of `a` bytes. -/
structure Peers (a : ℕ) (d : DnsServerTcp) : Prop where
  blocks : Blocks d
  length : ∀ c ∈ d.clients, c.addrLen = a ∧ c.raddr.length = a
  distinct : (d.clients.map TcpClient.raddr).Nodup

theorem mem_of_peers {d d' : DnsServerTcp}
    (h : (d'.clients.map TcpClient.peer).Sublist (d.clients.map TcpClient.peer)) {c : TcpClient}
    (hc : c ∈ d'.clients) : ∃ c' ∈ d.clients, c'.peer = c.peer := by
  obtain ⟨c', hc', heq⟩ := List.mem_map.1 (h.subset (List.mem_map_of_mem hc))
  exact ⟨c', hc', heq⟩

namespace Peers

variable {a : ℕ} {d : DnsServerTcp}

theorem shrink {d' : DnsServerTcp} (h : Peers a d) (hb : Blocks d')
    (hsub : (d'.clients.map TcpClient.peer).Sublist (d.clients.map TcpClient.peer)) :
    Peers a d' where
  blocks := hb
  length c hc := by
    obtain ⟨c', hc', heq⟩ := mem_of_peers hsub hc
    obtain ⟨-, hraddr, hlen⟩ :
        c'.block = c.block ∧ c'.raddr = c.raddr ∧ c'.addrLen = c.addrLen := by
      simpa [TcpClient.peer] using heq
    rw [← hraddr, ← hlen]
    exact h.length c' hc'
  distinct := by
    have hmap := hsub.map fun p : ℕ × SockAddr × ℕ => p.2.1
    rw [List.map_map, List.map_map] at hmap
    exact h.distinct.sublist hmap

/-- The lookup compares whole addresses. -/
theorem raddr_of_lookup (h : Peers a d) {raddr : SockAddr} (hraddr : raddr.length = a)
    {c : TcpClient} (hc : d.lookup raddr = some c) : c ∈ d.clients ∧ c.raddr = raddr := by
  have hmem := DnsServerTcp.mem_of_lookup hc
  have hsame : sameSockAddr raddr c.raddr c.addrLen = true := by
    simpa using List.find?_some hc
  obtain ⟨hlen, hclen⟩ := h.length c hmem
  rw [hlen, sameSockAddr, sockBytes_eq hraddr, sockBytes_eq hclen] at hsame
  exact ⟨hmem, (of_decide_eq_true hsame).symm⟩

/-- A connection from a fresh peer. -/
theorem accept (h : Peers a d) {fd : ℕ} {addr : SockAddr} (hlen : addr.length = a)
    (hfresh : ∀ c ∈ d.clients, c.raddr ≠ addr) : Peers a (d.acceptCb (.sock fd addr)) where
  blocks := h.blocks.acceptCb _
  length c hc := by
    rcases List.mem_cons.1 hc with rfl | hc
    · exact ⟨hlen, by simp [hlen]⟩
    · exact h.length c hc
  distinct := by
    refine List.nodup_cons.2 ⟨fun hmem => ?_, h.distinct⟩
    obtain ⟨c, hc, heq⟩ := List.mem_map.1 hmem
    exact hfresh c hc (heq.trans (sockBytes_eq rfl))

end Peers

/-! ## The way home -/

/-- Of the connections listed, only the one a request came in on has the address the request
remembers. -/
def Home (d : DnsServerTcp) (listed : List (ℕ × Request)) (t : List Observation) : Prop :=
  ∀ p ∈ listed, ∀ isTcp origin source dnsReq,
    .accepted p.1 isTcp (some origin) source dnsReq ∈ t →
      ∀ c ∈ d.clients, c.raddr = p.2.raddr → c.block = origin

theorem Home.shrink {d d' : DnsServerTcp} {l l' : List (ℕ × Request)} {t t' : List Observation}
    (h : Home d l t)
    (hsub : (d'.clients.map TcpClient.peer).Sublist (d.clients.map TcpClient.peer))
    (hl : l' ⊆ l)
    (ht : ∀ n isTcp origin source dnsReq, .accepted n isTcp origin source dnsReq ∈ t' →
      .accepted n isTcp origin source dnsReq ∈ t) : Home d' l' t' := by
  intro p hp isTcp origin source dnsReq hacc c hc hraddr
  obtain ⟨c', hc', heq⟩ := mem_of_peers hsub hc
  obtain ⟨hblock, hraddr', -⟩ :
      c'.block = c.block ∧ c'.raddr = c.raddr ∧ c'.addrLen = c.addrLen := by
    simpa [TcpClient.peer] using heq
  rw [← hblock]
  exact h p (hl hp) isTcp origin source dnsReq (ht _ _ _ _ _ hacc) c' hc' (hraddr'.trans hraddr)

namespace Proxy

variable {env : Environment} {s : Proxy} {a : ℕ} {c : HttpsClient Request}

/-- Requests find their way home, and every reply so far has. -/
structure Routes (a : ℕ) (s : Proxy) : Prop where
  ledgers : Ledgers a s
  peers : Peers a s.tcp
  home : Home s.tcp s.https.listed s.trace
  routed : Runs.Always Routed s.trace

/-- The reply of a finished fetch finds its way home. -/
theorem routed_reply (h : Routes a s) {pre post : List (HttpsFetchCtx Request)}
    {ctx : HttpsFetchCtx Request} {ends replies : List Observation} {buf : Option (List UInt8)}
    {d : DnsServerTcp} (hsplit : s.https.fetches = pre ++ ctx :: post) (hends : Ends ctx ends buf)
    (hreply : Reply env s ctx.block ctx.cbData buf replies d) :
    ∀ o ∈ replies, Routed (s.trace ++ (ends ++ [.callback ctx.block])) o := by
  have hkey : ctx.key ∈ s.https.listed := List.mem_map_of_mem (by simp [hsplit])
  obtain ⟨origin, source, hown⟩ := h.ledgers.2.owned ctx.key hkey
  have hown' := hown.notes _ hends.isPlain
  intro o ho
  cases hreply with
  | none => cases ho
  | udp =>
    rw [List.mem_singleton.1 ho]
    trivial
  | @tcp body sends htcp hlen htxId =>
    rw [List.mem_singleton.1 ho]
    obtain ⟨block, rfl⟩ : ∃ block, origin = some block := by
      simpa [HttpsFetchCtx.key, htcp, Option.isSome_iff_exists] using hown.origin_isSome
    have hacc : .accepted ctx.block ctx.cbData.isTcp (some block) source ctx.cbData.dnsReq ∈
        s.trace := List.mem_of_mem_filter (hown.accepted ▸ List.mem_singleton_self _)
    have hraddr : ctx.cbData.raddr.length = a := by
      have heq : ctx.cbData.raddr = sockBytes source a := hown.raddr
      rw [heq, length_sockBytes]
    -- only the connection the request came in on can be looked up
    have hlookup : ∀ c, s.tcp.lookup ctx.cbData.raddr = some c →
        c ∈ s.tcp.clients ∧ c.block = block := fun c hc =>
      have hc' := h.peers.raddr_of_lookup hraddr hc
      ⟨hc'.1, h.home ctx.key hkey _ _ _ _ hacc c hc'.1 hc'.2⟩
    refine ⟨block, source, ctx.cbData.dnsReq, by simpa [HttpsFetchCtx.key, htcp] using
      hown'.accepted, fun b hb => ?_, fun hgone => ?_⟩
    · rcases s.tcp.dnsServerTcpRespond_cases ctx.cbData.raddr body sends with hd | ⟨c, hc, hd⟩
      · rw [hd]
        rfl
      · rw [hd, (hlookup c hc).2]
        exact DnsServerTcp.wire_respondTo_ne hb.symm _ _
    · rcases s.tcp.dnsServerTcpRespond_cases ctx.cbData.raddr body sends with hd | ⟨c, hc, hd⟩
      · rw [hd]
      · exact (hgone ((hlookup c hc).2 ▸ List.mem_map_of_mem (hlookup c hc).1)).elim

theorem routes_client (hstep : HttpsStep s.https c) (h : Routes a s) :
    Routes a (s.advance env c) := by
  have hledgers : Ledgers a (s.advance env c) := ledgers_client hstep h.ledgers
  have hrouted : Runs.Always Routed (s.advance env c).trace :=
    always_client routed_of_isPlain h.ledgers.2.fetches hstep h.routed (routed_reply h)
  have hchange : ClientChange env s c (s.advance env c) := clientChange hstep h.ledgers.2.fetches
  generalize s.advance env c = s' at hledgers hrouted hchange
  have hacc : ∀ n isTcp origin source dnsReq, .accepted n isTcp origin source dnsReq ∈ s'.trace →
      .accepted n isTcp origin source dnsReq ∈ s.trace :=
    fun _ _ _ _ _ => hchange.mem_of_not_ofFetch (fun _ => rfl)
  cases hchange with
  | quiet stat hlisted _ =>
    have hlisted' : c.listed ⊆ s.https.listed := by simp [hlisted]
    exact ⟨hledgers, h.peers, h.home.shrink (.refl _) hlisted' hacc, hrouted⟩
  | dead _ hlisted _ => exact ⟨hledgers, h.peers, h.home.shrink (.refl _) hlisted hacc, hrouted⟩
  | finish stat halted hsplit hfetches _ _ _ hreply _ =>
    have hsub : c.listed ⊆ s.https.listed :=
      (HttpsClient.listed_sublist_of_unlink hsplit hfetches).subset
    obtain ⟨hblocks, hpeers⟩ := hreply.keep (kept_peers (s.tcp.clients.map TcpClient.peer))
      ⟨h.peers.blocks, .refl _⟩
    exact ⟨hledgers, h.peers.shrink hblocks hpeers, h.home.shrink hpeers hsub hacc, hrouted⟩

/-- A new request is the only one with its number, and its connection the only one with its
address. -/
theorem home_request (h : Routes a s) {isTcp : Bool} {origin : Option ℕ} {raddr : SockAddr}
    (harrives : Arrives s isTcp origin raddr) (dnsReq : List UInt8) :
    Home s.tcp ((s.https.nextBlock, s.newRequest isTcp raddr dnsReq) :: s.https.listed)
      (s.trace ++ [.accepted s.https.nextBlock isTcp origin raddr dnsReq] ++
        [.started s.https.nextBlock s.resolv]) := by
  obtain ⟨rfl, hledger⟩ := h.ledgers
  intro p hp isTcp' block source dnsReq' hacc c hc hraddr
  simp only [List.mem_append, List.mem_singleton, reduceCtorEq, or_false,
    Observation.accepted.injEq] at hacc
  rcases List.mem_cons.1 hp with rfl | hp
  · rcases hacc with hold | ⟨-, -, hnew, -, -⟩
    · refine (Nat.lt_irrefl s.https.nextBlock (hledger.accepted_lt _ ?_)).elim
      exact List.ne_nil_of_mem (List.mem_filter.2 ⟨hold, by simp [Observation.accepts]⟩)
    · cases harrives with
      | udp => cases hnew
      | @tcp block' c' hc' =>
        obtain ⟨hmem, hblock⟩ := DnsServerTcp.find_eq_some hc'
        have heq : c.raddr = c'.raddr := hraddr.trans (sockBytes_eq (h.peers.length c' hmem).2)
        rw [List.inj_on_of_nodup_map h.peers.distinct hc hmem heq, hblock, ← Option.some.inj hnew]
  · obtain ⟨origin', source', hown⟩ := hledger.owned p hp
    have hlt : p.1 < s.https.nextBlock := hledger.accepted_lt p.1 (by simp [hown.accepted])
    rcases hacc with hold | ⟨hnew, -⟩
    · exact h.home p hp _ _ _ _ hold c hc hraddr
    · exact (Nat.ne_of_lt hlt hnew).elim

/-- The proxy keeps routing, as long as peers are fresh. -/
theorem kept_routes (env : Environment) (a : ℕ) : KeptByProxy env (Routes a) where
  server s d hd h := by
    obtain ⟨hblocks, hpeers⟩ := hd.keep (kept_peers (s.tcp.clients.map TcpClient.peer))
      ⟨h.peers.blocks, .refl _⟩
    exact ⟨h.ledgers, h.peers.shrink hblocks hpeers,
      h.home.shrink hpeers (List.Subset.refl _) fun _ _ _ _ _ h => h, h.routed⟩
  client _ _ hstep h := routes_client hstep h
  request s isTcp origin raddr dnsReq hrun hboot harrives hlen h := by
    have hledgers := (kept_ledgers env a).request s _ _ _ _ hrun hboot harrives hlen h.ledgers
    obtain ⟨stat, heq⟩ := s.takeRequest_eq env hrun isTcp origin raddr dnsReq
    rw [heq] at hledgers ⊢
    exact ⟨hledgers, h.peers, home_request h harrives dnsReq,
      Runs.always_concat.2 ⟨Runs.always_concat.2 ⟨h.routed, trivial⟩, trivial⟩⟩
  print _ h := ⟨h.ledgers, h.peers, h.home, h.routed⟩
  halt _ h := ⟨h.ledgers, h.peers, h.home, h.routed⟩

/-- Nothing is sent and no request arrives in what is only released. -/
theorem Routes.plains {os : List Observation} (h : Routes a s)
    (hos : ∀ o ∈ os, o.isPlain = true) : Routes a { s with trace := s.trace ++ os } := by
  refine ⟨⟨h.ledgers.1, h.ledgers.2.plains os hos⟩, h.peers,
    h.home.shrink (.refl _) (List.Subset.refl _) fun n isTcp origin source dnsReq hmem => ?_,
    always_plains routed_of_isPlain hos h.routed⟩
  refine (List.mem_append.1 hmem).resolve_right fun hnew => ?_
  cases hos _ hnew

theorem routes_replaceResolv (addrList : CString) (h : Routes a s) :
    Routes a (s.replaceResolv env addrList) := by
  obtain ⟨hledgers, hpeers, hhome, hrouted⟩ := h.plains (isPlain_freeResolv s.resolv)
  rw [replaceResolv, freeResolv_eq]
  exact ⟨hledgers, hpeers, hhome, hrouted⟩

theorem routes_newResolv (addrList : CString) (h : Routes a s) :
    Routes a (s.newResolv env addrList) :=
  keep_newResolv (fun _ _ => routes_client) addrList (routes_replaceResolv addrList h)

/-- A fresh peer has no requests in flight. -/
theorem routes_accept (h : Routes a s) {r : AcceptResult} (hr : FreshPeer s r) :
    Routes a { s with tcp := s.tcp.acceptCb r } := by
  cases r with
  | error e stack =>
    have hnone : s.tcp.acceptCb (.error e stack) = s.tcp := by
      rw [DnsServerTcp.acceptCb, hr, if_neg (by simp)]
    rw [hnone]
    exact h
  | sock fd addr =>
    obtain ⟨hlen, hclients, hflight⟩ := hr
    refine ⟨h.ledgers, h.peers.accept (hlen.trans h.ledgers.1) hclients, ?_, h.routed⟩
    intro p hp isTcp origin source dnsReq hacc c hc hraddr
    rcases List.mem_cons.1 hc with rfl | hc
    · obtain ⟨origin', source', hown⟩ := h.ledgers.2.owned p hp
      have hmem : Observation.accepted p.1 isTcp (some origin) source dnsReq ∈
          s.trace.filter (Observation.accepts p.1) :=
        List.mem_filter.2 ⟨hacc, by simp [Observation.accepts]⟩
      rw [hown.accepted, List.mem_singleton, Observation.accepted.injEq] at hmem
      have htcp : p.2.isTcp = true := by
        rw [← hown.origin_isSome, ← hmem.2.2.1]
        rfl
      exact (hflight p hp htcp (hraddr.symm.trans (sockBytes_eq rfl))).elim
    · exact h.home p hp _ _ _ _ hacc c hc hraddr

theorem routes_start (env : Environment) (opt : Options) : Routes opt.addrlen (start env opt) := by
  have hclients : (start env opt).tcp.clients = [] := by
    unfold start
    simp only
    split_ifs <;> rfl
  refine ⟨ledgers_start env opt, ⟨⟨?_, ?_⟩, ?_, ?_⟩, fun p hp => (List.not_mem_nil hp).elim,
    Runs.always_nil⟩ <;> simp [hclients]

theorem routes_run (env : Environment) (opt : Options) (es : List ProxyEvent)
    (hes : Runs.Meets (step env) FreshPeers (start env opt) es) :
    Routes opt.addrlen (run env opt es) :=
  Runs.invariant_of_meets
    (fun s e he h => (kept_routes env opt.addrlen).step e
      (fun r hr _ h => routes_accept h (hr ▸ he : FreshPeers s (.accept r)))
      (fun addrList _ _ _ => routes_newResolv addrList) h)
    hes (routes_start env opt)

theorem routes_stop (s : Proxy) (h : Routes a s) : Routes a s.stop := by
  obtain ⟨hledgers, hpeers, hhome, hrouted⟩ := h.plains (isPlain_freeResolv s.resolv)
  have hclients : s.tcp.dnsServerTcpStop.clients = [] := DnsServerTcp.clients_dnsServerTcpStop
  have hblocks : Blocks s.tcp.dnsServerTcpStop := ⟨by simp [hclients], by simp [hclients]⟩
  have hnone : (s.tcp.dnsServerTcpStop.clients.map TcpClient.peer).Sublist
      (s.tcp.clients.map TcpClient.peer) := by simp [hclients]
  unfold stop
  simp only [freeResolv_eq]
  split_ifs
  · exact ⟨hledgers, hpeers.shrink hblocks hnone,
      hhome.shrink hnone (List.Subset.refl _) fun _ _ _ _ _ hmem => hmem, hrouted⟩
  · exact ⟨hledgers, hpeers, hhome, hrouted⟩

theorem routes_releaseServers (s : Proxy) (h : Routes a s) : Routes a s.releaseServers := by
  obtain ⟨os, heq, hos⟩ := s.releaseServers_eq
  rw [heq]
  exact h.plains (isPlain_releaseServers hos)

end Proxy

/-- If each connection is accepted from a fresh peer, then in every state of the process each
response over TCP was written only to the connection its request came in on, and if that was
gone to none. -/
theorem tcpRouted (env : Environment) (opt : Options) (es : List ProxyEvent)
    (hes : Runs.Meets (Proxy.step env) FreshPeers (Proxy.start env opt) es) (s : Proxy)
    (hs : Proxy.ProcessState env opt es s) : Runs.Always Routed s.trace := by
  have hroutes : Proxy.Routes opt.addrlen s :=
    (Proxy.kept_routes env opt.addrlen).process hs (Proxy.routes_run env opt es hes)
      Proxy.routes_stop Proxy.routes_releaseServers
      fun _ h => ⟨h.ledgers, h.peers, h.home, h.routed⟩
  exact hroutes.routed

/-- A read of one whole request. -/
def oneRequest : Recv where
  data := Frames.frame headerOnly
  data_ne := by decide
  length_le := by decide
  fresh := fun _ => 0

/-- libcurl brings a header for the first two transfers. -/
def answeringTwo : Environment :=
  { answering headerOnly with
    lib :=
      { (answering headerOnly).lib with
        socketAction := fun _ => ⟨[.write 0 headerOnly true, .write 1 headerOnly true], .ok⟩ } }

/-- Two requests on one connection : the first is answered, and the stop closes the connection
before the transfer of the second ends. -/
def askedTwice : List ProxyEvent :=
  [.accept (.sock 5 [10, 0, 0, 1]), .tcpRead 0 2 (.data oneRequest),
    .timer [.done 0 .ok goodInfo], .tcpRead 0 2 (.data oneRequest)]

theorem tcpRouted_one :
    let s := (Proxy.run answeringTwo ⟨false, 2, 4, none⟩ askedTwice).teardown answeringTwo
      [.timer [.done 1 .ok goodInfo]]
    .tcpReply 0 headerOnly [0] [.response 0 headerOnly, .send 0 [0, 12], .send 0 headerOnly] ∈
        s.trace ∧
      .tcpReply 1 headerOnly [] [] ∈ s.trace ∧ Runs.Always Routed s.trace := by
  have hfresh : Runs.Meets (Proxy.step answeringTwo) FreshPeers
      (Proxy.start answeringTwo ⟨false, 2, 4, none⟩) askedTwice := by
    refine ⟨⟨rfl, ?_, ?_⟩, trivial, trivial, trivial, trivial⟩
    · exact fun _ hc => (List.not_mem_nil hc).elim
    · exact fun _ hp => (List.not_mem_nil hp).elim
  exact ⟨by decide, by decide, tcpRouted _ _ _ hfresh _ (.done _)⟩

/-- A peer asks, closes its connection, connects again from the same address, and gets the
response to its old connection on the new one. -/
theorem tcpRouted_reconnect :
    ¬Runs.Always Routed (Proxy.run (answering headerOnly) ⟨false, 2, 4, none⟩
      [.accept (.sock 5 [10, 0, 0, 1]), .tcpRead 0 2 (.data oneRequest), .tcpRead 0 1 .closed,
        .accept (.sock 6 [10, 0, 0, 1]), .timer [.done 0 .ok goodInfo]]).trace := by
  have htrace : (Proxy.run (answering headerOnly) ⟨false, 2, 4, none⟩
      [.accept (.sock 5 [10, 0, 0, 1]), .tcpRead 0 2 (.data oneRequest), .tcpRead 0 1 .closed,
        .accept (.sock 6 [10, 0, 0, 1]), .timer [.done 0 .ok goodInfo]]).trace =
      [.accepted 0 true (some 0) [10, 0, 0, 1] headerOnly, .started 0 none,
        .ended 0 .ok goodInfo (some headerOnly), .callback 0] ++
      .tcpReply 0 headerOnly [1] [.response 1 headerOnly, .send 1 [0, 12], .send 1 headerOnly] ::
      [.released (.dnsReq 0), .released (.request 0)] := by
    decide
  intro h
  obtain ⟨origin, source, dnsReq, hacc, hwire, -⟩ := h _ _ _ htrace
  have horigin : origin = 0 := by
    simp [Observation.accepts] at hacc
    exact hacc.1.symm
  exact absurd (hwire 1 (by simp [horigin])) (by decide)

end HttpsDnsProxy
