import HttpsDnsProxy.Routing

/-!
# Delivering responses to TCP connections

A response passes three checks of its size on its way to a TCP connection : `write_buffer`
takes up to 65535 bytes of a body, `https_resp_cb` wants at least a DNS header, and
`dns_server_tcp_respond` refuses what is longer than `tcpDnsMaxPayload`, which is 65533. With
sends that take all they are offered, a response that has passed the first two is written as
one frame to the connection of its request exactly if it passes the third and the lookup of
the peer's address finds that connection (`responseDelivered_iff`). The two longest bodies a
frame can hold are dropped without a trace (`responseDelivered_almostLongest`).
-/

namespace HttpsDnsProxy

open Bytes
open HttpsClient (HttpsStep Steps)

/-! ## Sends that take everything -/

/-- Every `send` takes all the bytes it is offered. -/
def TakesAll (sends : ℕ → SendResult) : Prop :=
  ∀ i, ∃ n, 65535 ≤ n ∧ sends i = .sent n

theorem sendBody_of_takesAll {sends : ℕ → SendResult} (hsends : TakesAll sends) (block n : ℕ)
    {resp : List UInt8} (hlen : resp.length ≤ 65535) :
    sendBody block resp (n + 1) sends 0 = (some resp.length, [.send block resp]) := by
  obtain ⟨k, hk, hsent⟩ := hsends 0
  have htake : resp.take k = resp := List.take_of_length_le (hlen.trans hk)
  simp [sendBody, hsent, htake]

namespace DnsServerTcp

variable (d : DnsServerTcp)

theorem wire_respondTo_of_takesAll {sends : ℕ → SendResult} (hsends : TakesAll sends)
    (block : ℕ) {resp : List UInt8} (hlen : resp.length ≤ 65535) :
    wire block (d.respondTo block resp sends).2 = Frames.frame resp := by
  obtain ⟨k, hk, hsent⟩ := hsends 0
  have hsize : (sends 0).taken (toBe16 resp.length) = toBe16 resp.length := by
    rw [hsent]
    refine List.take_of_length_le ?_
    rw [length_toBe16]
    omega
  have hbody := sendBody_of_takesAll (fun i => hsends (i + 1)) block 49 hlen
  simp [respondTo, hsize, hbody, Frames.frame]

/-- Where a response goes : to the connection that is looked up, unless it is too long. -/
theorem wire_dnsServerTcpRespond_iff {sends : ℕ → SendResult} (hsends : TakesAll sends)
    (raddr : SockAddr) {resp : List UInt8} (hlen : dnsHeaderLength ≤ resp.length) (b : ℕ) :
    wire b (d.dnsServerTcpRespond raddr resp sends).2 = Frames.frame resp ↔
      resp.length ≤ tcpDnsMaxPayload ∧ (d.lookup raddr).map TcpClient.block = some b := by
  have hne : Frames.frame resp ≠ [] := by
    refine List.ne_nil_of_length_pos ?_
    rw [Frames.length_frame]
    omega
  unfold dnsServerTcpRespond
  by_cases hsize : resp.length ≤ tcpDnsMaxPayload
  · rw [if_neg (by omega)]
    cases hlookup : d.lookup raddr with
    | none => simpa [hlookup] using hne.symm
    | some c =>
      by_cases hb : c.block = b
      · subst hb
        have hlen' : resp.length ≤ 65535 := hsize.trans (by decide)
        simp [d.wire_respondTo_of_takesAll hsends c.block hlen', hsize]
      · simpa [wire_respondTo_ne hb, hb] using hne.symm
  · rw [if_pos (by omega)]
    simpa [hsize] using hne.symm

end DnsServerTcp

/-! ## What a connection receives -/

/-- The bytes an observation writes to the connection at `b`. -/
def Observation.wireTo (b : ℕ) : Observation → List UInt8
  | .tcpReply _ _ _ acts => wire b acts
  | _ => []

/-- The bytes written to the connection at `b` so far. -/
def received (b : ℕ) (t : List Observation) : List UInt8 :=
  t.flatMap (Observation.wireTo b)

namespace Proxy

variable {env : Environment} {s : Proxy}

/-- The callback of a TCP request gives a body that passes its checks to the TCP server. -/
theorem received_httpsRespCb (env : Environment) {s : Proxy} (hrun : s.halted = false) (n : ℕ)
    {req : Request} {body : List UInt8} (htcp : req.isTcp = true)
    (hlen : dnsHeaderLength ≤ body.length)
    (hid : req.txId = be16 (body.getD 0 0) (body.getD 1 0)) (b : ℕ) :
    ∃ t, received b (s.httpsRespCb env n req (some body)).trace = received b s.trace ++
      wire b (s.tcp.dnsServerTcpRespond req.raddr body (env.sends t)).2 := by
  have hlen' : ¬body.length < dnsHeaderLength := by omega
  refine ⟨(s.note (.callback n)).trace.length, ?_⟩
  cases hstat : req.stat <;>
    simp [httpsRespCb, respond, hlen', hid, htcp, hstat, tcpRespond, note, count, hrun, received,
      Observation.wireTo]

/-- `https_fetch_ctx_cleanup` of a fetch in the list whose transfer has ended, behind
`curl_multi_remove_handle`. -/
def finished (env : Environment) (s : Proxy) (pre : List (HttpsFetchCtx Request))
    (ctx : HttpsFetchCtx Request) (result : CurlCode) (info : TransferInfo) : Proxy :=
  s.advance env
    (s.https.finishFetch (pre.getLast?.map HttpsFetchCtx.block) ctx (some (result, info)))

/-- A transfer that ended well has its callback run with the body. -/
theorem received_finished (env : Environment) {s : Proxy} (hrun : s.halted = false)
    (pre : List (HttpsFetchCtx Request)) {ctx : HttpsFetchCtx Request} {result : CurlCode}
    {info : TransferInfo} {body : List UInt8} (hfaulty : faultyResponse result info = false)
    (hbuf : ctx.buf = some body) (htcp : ctx.cbData.isTcp = true)
    (hlen : dnsHeaderLength ≤ body.length)
    (hid : ctx.cbData.txId = be16 (body.getD 0 0) (body.getD 1 0)) (b : ℕ) :
    ∃ t, received b (s.finished env pre ctx result info).trace = received b s.trace ++
      wire b (s.tcp.dnsServerTcpRespond ctx.cbData.raddr body (env.sends t)).2 := by
  obtain ⟨-, -, -, ⟨hnone, -⟩ | ⟨code, info', es, hsome, hconn, heffects⟩⟩ :=
    s.https.finishFetch_spec (pre.getLast?.map HttpsFetchCtx.block) ctx (some (result, info))
  · cases hnone
  · obtain ⟨rfl, rfl⟩ : result = code ∧ info = info' := by simpa using hsome
    rw [hfaulty, if_neg Bool.false_ne_true, hbuf, List.append_assoc] at heffects
    -- the transfer's end and the counters come first, and leave the server alone
    obtain ⟨stat, hstat⟩ := foldl_connection env es
      (s.note (.ended ctx.block result info (some body))) hconn
    let s' : Proxy := { s.note (.ended ctx.block result info (some body)) with stat := stat }
    have hbefore :
        (.ended ctx.block result info (some body) :: es).foldl (carryOut env) s = s' := by
      have hended : s.carryOut env (.ended ctx.block result info (some body)) =
          s.note (.ended ctx.block result info (some body)) := if_neg (by simp [hrun])
      rw [List.foldl_cons, hended, hstat]
    have hcall : (s.finished env pre ctx result info).trace =
        (s'.httpsRespCb env ctx.block ctx.cbData (some body)).trace := by
      have hcarry : s'.carryOut env (.call ctx.block ctx.cbData (some body)) =
          s'.httpsRespCb env ctx.block ctx.cbData (some body) := if_neg (by simp [s', note, hrun])
      rw [finished, advance_eq heffects, List.foldl_append, hbefore, List.foldl_cons,
        List.foldl_nil, hcarry]
      rfl
    have hnote : received b s'.trace = received b s.trace := by
      simp [s', note, received, Observation.wireTo]
    obtain ⟨t, ht⟩ := received_httpsRespCb env (s := s') hrun ctx.block htcp hlen hid b
    exact ⟨t, by rw [hcall, ht, hnote]; rfl⟩

/-! ## Requests that wait for their response -/

/-- A state that the proxy comes to : after some events, and within the next one after any
steps of the HTTPS client. -/
def Reached (env : Environment) (opt : Options) (s : Proxy) : Prop :=
  ∃ es c, Steps (run env opt es).https c ∧ s = (run env opt es).advance env c

theorem Reached.ledgers {opt : Options} (h : Reached env opt s) : Ledgers opt.addrlen s := by
  obtain ⟨es, c, hsteps, rfl⟩ := h
  exact keep_steps (fun _ _ => ledgers_client) hsteps (ledgers_run env opt es)

/-- A fetch in the list, behind those of `pre`, is for a request that the connection at `b` has
made. The connection is still open, the transfer has ended well, and its body passes the
checks of `write_buffer` and of `https_resp_cb`. -/
structure Awaits (s : Proxy) (b : ℕ) (pre : List (HttpsFetchCtx Request))
    (ctx : HttpsFetchCtx Request) (result : CurlCode) (info : TransferInfo)
    (body : List UInt8) : Prop where
  running : s.running = true
  fetch : pre ++ [ctx] <+: s.https.fetches
  accepted : ∃ source, .accepted ctx.block true (some b) source ctx.cbData.dnsReq ∈ s.trace
  still_open : s.tcp.Listed b
  not_faulty : faultyResponse result info = false
  buf : ctx.buf = some body
  written : body.length ≤ dohMaxResponseSize
  header : dnsHeaderLength ≤ body.length
  txId : ctx.cbData.txId = be16 (body.getD 0 0) (body.getD 1 0)

/-- A request of a TCP connection remembers that it is one. -/
theorem Awaits.isTcp {opt : Options} {b : ℕ} {pre : List (HttpsFetchCtx Request)}
    {ctx : HttpsFetchCtx Request} {result : CurlCode} {info : TransferInfo} {body : List UInt8}
    (h : Awaits s b pre ctx result info body) (hs : Reached env opt s) :
    ctx.cbData.isTcp = true := by
  have hmem : ctx ∈ s.https.fetches := h.fetch.subset (by simp)
  obtain ⟨origin, source, hown⟩ := hs.ledgers.2.owned ctx.key (List.mem_map_of_mem hmem)
  obtain ⟨source', hacc⟩ := h.accepted
  have hfilter : Observation.accepted ctx.block true (some b) source' ctx.cbData.dnsReq ∈
      s.trace.filter (Observation.accepts ctx.key.1) :=
    List.mem_filter.2 ⟨hacc, by simp [Observation.accepts, HttpsFetchCtx.key]⟩
  rw [hown.accepted, List.mem_singleton, Observation.accepted.injEq] at hfilter
  exact hfilter.2.1.symm

end Proxy

/-- In every state the proxy comes to, with sends that take all they are offered : when the
transfer of a TCP request is finished, exactly the length and the body are written to the
request's connection if and only if the body is at most 65533 bytes long and that connection
is the first one listed with the address the request remembers. -/
theorem responseDelivered_iff (env : Environment) (hsends : ∀ t, TakesAll (env.sends t))
    (opt : Options) (s : Proxy) (hs : Proxy.Reached env opt s) (b : ℕ)
    (pre : List (HttpsFetchCtx Request)) (ctx : HttpsFetchCtx Request) (result : CurlCode)
    (info : TransferInfo) (body : List UInt8) (h : s.Awaits b pre ctx result info body) :
    received b (s.finished env pre ctx result info).trace =
        received b s.trace ++ (toBe16 body.length ++ body) ↔
      body.length ≤ tcpDnsMaxPayload ∧
        (s.tcp.lookup ctx.cbData.raddr).map TcpClient.block = some b := by
  have hrun : s.halted = false := by
    have hrunning := h.running
    unfold Proxy.running at hrunning
    simp_all
  obtain ⟨t, ht⟩ := Proxy.received_finished env hrun pre h.not_faulty h.buf (h.isTcp hs) h.header
    h.txId b
  rw [ht, List.append_cancel_left_eq]
  exact s.tcp.wire_dnsServerTcpRespond_iff (hsends t) ctx.cbData.raddr h.header b

/-- One request from a TCP connection. -/
def asked (body : List UInt8) : Proxy :=
  Proxy.run (answering body) ⟨false, 2, 4, none⟩
    [.accept (.sock 5 [10, 0, 0, 1]), .tcpRead 0 2 (.data oneRequest)]

/-- The transfer of that request has brought `body`. -/
def fetched (body : List UInt8) : Proxy :=
  (asked body).advance (answering body) ((asked body).https.transferCallback (.write 0 body true))

/-- The fetch of that request. -/
def askedCtx (buf : Option (List UInt8)) : HttpsFetchCtx Request where
  block := 0
  curl := 0
  id := 0xABCD
  cbData := ⟨true, headerOnly, false, 0xABCD, [10, 0, 0, 1]⟩
  buf := buf
  resolve := none
  postfields := headerOnly

theorem reached_fetched (body : List UInt8) :
    Proxy.Reached (answering body) ⟨false, 2, 4, none⟩ (fetched body) :=
  ⟨_, _, .single (.callback (.write 0 body true)), rfl⟩

theorem fetches_fetched {body : List UInt8} (hlen : body.length ≤ dohMaxResponseSize)
    (h : (asked body).https.fetches = [askedCtx none]) :
    (fetched body).https.fetches = [askedCtx (some body)] := by
  have hfits : ¬body.length > dohMaxResponseSize := by omega
  simp [fetched, HttpsClient.transferCallback, h, HttpsFetchCtx.writeBuffer, askedCtx, hfits]

theorem takesAll_answering (body : List UInt8) (t : ℕ) : TakesAll ((answering body).sends t) :=
  fun _ => ⟨65535, le_rfl, rfl⟩

/-- A response of a header only arrives. -/
theorem responseDelivered_header :
    received 0 ((fetched headerOnly).finished (answering headerOnly) []
        (askedCtx (some headerOnly)) .ok goodInfo).trace = toBe16 12 ++ headerOnly := by
  have hfetches : (fetched headerOnly).https.fetches = [askedCtx (some headerOnly)] :=
    fetches_fetched (by decide) (by decide +kernel)
  have hiff := responseDelivered_iff (answering headerOnly) (takesAll_answering headerOnly) _ _
    (reached_fetched headerOnly) 0 [] (askedCtx (some headerOnly)) .ok goodInfo headerOnly
    { running := by decide +kernel
      fetch := by rw [hfetches]; exact List.prefix_refl _
      accepted := ⟨[10, 0, 0, 1], by decide +kernel⟩
      still_open :=
        (by decide +kernel : 0 ∈ (fetched headerOnly).tcp.clients.map TcpClient.block)
      not_faulty := by decide
      buf := rfl
      written := by decide
      header := by decide
      txId := by decide }
  exact hiff.2 ⟨by decide, by decide +kernel⟩

/-- A message of 65534 bytes. -/
def almostLongest : List UInt8 := headerOnly ++ List.replicate 65522 0

theorem length_almostLongest : almostLongest.length = 65534 := by
  rw [almostLongest, List.length_append, List.length_replicate]
  rfl

/-- A response of 65534 bytes passes the checks of `write_buffer` and `https_resp_cb`, and not
a byte of it is written. -/
theorem responseDelivered_almostLongest :
    Proxy.Reached (answering almostLongest) ⟨false, 2, 4, none⟩ (fetched almostLongest) ∧
      (fetched almostLongest).Awaits 0 [] (askedCtx (some almostLongest)) .ok goodInfo
        almostLongest ∧
      received 0 ((fetched almostLongest).finished (answering almostLongest) []
          (askedCtx (some almostLongest)) .ok goodInfo).trace =
        received 0 (fetched almostLongest).trace ∧
      received 0 (fetched almostLongest).trace ≠ received 0 (fetched almostLongest).trace ++
        (toBe16 almostLongest.length ++ almostLongest) := by
  have hlen : almostLongest.length ≤ dohMaxResponseSize := by
    rw [length_almostLongest]
    decide
  have hheader : dnsHeaderLength ≤ almostLongest.length := by
    rw [length_almostLongest]
    decide
  have htoo : almostLongest.length > tcpDnsMaxPayload := by
    rw [length_almostLongest]
    decide
  have hfetches : (fetched almostLongest).https.fetches = [askedCtx (some almostLongest)] :=
    fetches_fetched hlen (by decide +kernel)
  have hawaits : (fetched almostLongest).Awaits 0 [] (askedCtx (some almostLongest)) .ok goodInfo
      almostLongest :=
    { running := by decide +kernel
      fetch := by rw [hfetches]; exact List.prefix_refl _
      accepted := ⟨[10, 0, 0, 1], by decide +kernel⟩
      still_open :=
        (by decide +kernel : 0 ∈ (fetched almostLongest).tcp.clients.map TcpClient.block)
      not_faulty := by decide
      buf := rfl
      written := hlen
      header := hheader
      txId := rfl }
  obtain ⟨t, ht⟩ := Proxy.received_finished (answering almostLongest)
    (by decide +kernel : (fetched almostLongest).halted = false) [] hawaits.not_faulty hawaits.buf
    rfl hheader hawaits.txId 0
  refine ⟨reached_fetched _, hawaits, ?_, ?_⟩
  · rw [ht, DnsServerTcp.dnsServerTcpRespond, if_pos (Or.inr htoo), wire_nil, List.append_nil]
  · rw [ne_comm, Ne, List.append_right_eq_self]
    exact List.cons_ne_nil _ _

end HttpsDnsProxy
