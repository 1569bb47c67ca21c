import HttpsDnsProxy.TcpDelivery
import HttpsDnsProxy.TcpProxied

/-!
# Sessions on TCP connections

What a peer sees of the proxy on one TCP connection. The bytes it sends are frames of requests,
and the proxy accepts them in their order. The bytes it receives are frames of responses, in
the order the transfers end, each for one request it has made on this very connection, with the
request's id, and no two for the same request. If the last frame is not whole, the connection
is closed behind it (`tcpSession`).

The framing of both directions is that of the server on its own, which the server in the proxy
refines (`Mirrored`). That a response goes to the connection of its request is because peers
have different addresses (`Proxy.Routes`).
-/

namespace HttpsDnsProxy

open HttpsClient (HttpsStep)

/-! ## Responses taken up on a connection -/

/-- The number and the message of a response that is taken up on the connection at `b`. -/
def Observation.answersOn (b : ℕ) : Observation → Option (ℕ × List UInt8)
  | .tcpReply n resp _ acts => if attempted b acts = [] then none else some (n, resp)
  | _ => none

theorem Observation.eq_of_answersOn {b : ℕ} {o : Observation} {p : ℕ × List UInt8}
    (h : o.answersOn b = some p) :
    ∃ clients acts, o = .tcpReply p.1 p.2 clients acts ∧ attempted b acts ≠ [] := by
  cases o with
  | tcpReply n resp clients acts =>
    rw [answersOn] at h
    split_ifs at h with hnone
    obtain rfl := Option.some.inj h
    exact ⟨clients, acts, rfl, hnone⟩
  | accepted | started | ended | callback | udpReply | released => cases h

/-- The request accepted from the connection at `b`. -/
def Observation.askedOn (b : ℕ) (o : Observation) : Option (List UInt8) :=
  o.fromTcp.bind fun p => if p.1 = b then some p.2 else none

/-- An observation, if it is a reply over TCP, is the first to its request, has its id, and is
taken up on no other connection than that of the request. -/
def Homed (before : List Observation) : Observation → Prop
  | .tcpReply n resp _ acts => ∃ origin source dnsReq,
      .accepted n true (some origin) source dnsReq ∈ before ∧
      before.filter (Observation.replies n) = [] ∧ resp.take 2 = dnsReq.take 2 ∧
      ∀ b, attempted b acts = [] ∨ b = origin ∧ attempted b acts = [resp]
  | _ => True

theorem homed_of_isPlain (t : List Observation) (o : Observation) (ho : o.isPlain = true) :
    Homed t o := by
  cases o with
  | started | ended | callback | released => trivial
  | accepted | udpReply | tcpReply => cases ho

namespace Proxy

variable {env : Environment} {s : Proxy} {a : ℕ} {c : HttpsClient Request}

/-- The lookup for a request in flight finds the connection it came in on, or none. -/
theorem Routes.block_of_lookup (h : Routes a s) {p : ℕ × Request} (hp : p ∈ s.https.listed)
    {block : ℕ} {source : SockAddr} (hown : Owned a s.trace p (some block) source)
    {client : TcpClient} (hlookup : s.tcp.lookup p.2.raddr = some client) :
    client.block = block := by
  have hacc : .accepted p.1 p.2.isTcp (some block) source p.2.dnsReq ∈ s.trace :=
    List.mem_of_mem_filter (hown.accepted ▸ List.mem_singleton_self _)
  have hlen : p.2.raddr.length = a := by rw [hown.raddr, length_sockBytes]
  obtain ⟨hmem, hraddr⟩ := h.peers.raddr_of_lookup hlen hlookup
  exact h.home p hp _ _ _ _ hacc client hmem hraddr

theorem homed_reply (h : Routes a s) {pre post : List (HttpsFetchCtx Request)}
    {ctx : HttpsFetchCtx Request} {ends replies : List Observation} {buf : Option (List UInt8)}
    {d : DnsServerTcp} (hsplit : s.https.fetches = pre ++ ctx :: post) (hends : Ends ctx ends buf)
    (hreply : Reply env s ctx.block ctx.cbData buf replies d) :
    ∀ o ∈ replies, Homed (s.trace ++ (ends ++ [.callback ctx.block])) o := by
  have hkey : ctx.key ∈ s.https.listed := List.mem_map_of_mem (by simp [hsplit])
  obtain ⟨origin, source, hown⟩ := h.ledgers.2.owned ctx.key hkey
  have hown' := hown.notes _ hends.isPlain
  intro o ho
  cases hreply with
  | none => cases ho
  | udp =>
    rw [List.mem_singleton.1 ho]
    trivial
  | @tcp body sends htcp hlen htxId =>
    rw [List.mem_singleton.1 ho]
    obtain ⟨block, rfl⟩ : ∃ block, origin = some block := by
      simpa [HttpsFetchCtx.key, htcp, Option.isSome_iff_exists] using hown.origin_isSome
    refine ⟨block, source, ctx.cbData.dnsReq, ?_, hown'.unreplied, ?_, fun b => ?_⟩
    · refine List.mem_of_mem_filter (p := Observation.accepts ctx.key.1) ?_
      rw [hown'.accepted]
      simp [HttpsFetchCtx.key, htcp]
    · have hreq : dnsHeaderLength ≤ ctx.cbData.dnsReq.length := hown.length_le
      unfold dnsHeaderLength at hlen hreq
      rw [← be16_eq_iff (by omega) (by omega), ← htxId]
      exact hown.txId
    · rcases s.tcp.dnsServerTcpRespond_cases ctx.cbData.raddr body sends with hd | ⟨client, hl, hd⟩
      · exact Or.inl (by rw [hd]; rfl)
      · rw [hd, DnsServerTcp.attempted_respondTo, h.block_of_lookup hkey hown hl]
        by_cases hb : block = b
        · exact Or.inr ⟨hb.symm, if_pos hb⟩
        · exact Or.inl (if_neg hb)

/-- Requests find their way home, and every reply so far is the first to its request and taken
up at home. -/
structure Homes (a : ℕ) (s : Proxy) : Prop where
  routes : Routes a s
  homed : Runs.Always Homed s.trace

theorem homes_client (hstep : HttpsStep s.https c) (h : Homes a s) :
    Homes a (s.advance env c) :=
  ⟨routes_client hstep h.routes, always_client homed_of_isPlain h.routes.ledgers.2.fetches hstep
    h.homed (homed_reply h.routes)⟩

theorem kept_homes (env : Environment) (a : ℕ) : KeptByProxy env (Homes a) where
  server s d hd h := ⟨(kept_routes env a).server s d hd h.routes, h.homed⟩
  client _ _ hstep h := homes_client hstep h
  request s isTcp origin raddr dnsReq hrun hboot harrives hlen h := by
    have hroutes := (kept_routes env a).request s _ _ _ _ hrun hboot harrives hlen h.routes
    obtain ⟨stat, heq⟩ := s.takeRequest_eq env hrun isTcp origin raddr dnsReq
    rw [heq] at hroutes ⊢
    exact ⟨hroutes, Runs.always_concat.2 ⟨Runs.always_concat.2 ⟨h.homed, trivial⟩, trivial⟩⟩
  print s h := ⟨(kept_routes env a).print s h.routes, h.homed⟩
  halt s h := ⟨(kept_routes env a).halt s h.routes, h.homed⟩

theorem homes_newResolv (addrList : CString) (h : Homes a s) :
    Homes a (s.newResolv env addrList) := by
  refine keep_newResolv (fun _ _ => homes_client) addrList ?_
  exact ⟨routes_replaceResolv addrList h.routes,
    always_replaceResolv homed_of_isPlain addrList h.homed⟩

theorem homes_run (env : Environment) (opt : Options) {es : List ProxyEvent}
    (hes : Runs.Meets (step env) FreshPeers (start env opt) es) :
    Homes opt.addrlen (run env opt es) :=
  Runs.invariant_of_meets
    (fun s e he h => (kept_homes env opt.addrlen).step e
      (fun r hr _ h => ⟨routes_accept h.routes (hr ▸ he : FreshPeers s (.accept r)), h.homed⟩)
      (fun addrList _ _ _ => homes_newResolv addrList) h)
    hes ⟨routes_start env opt, Runs.always_nil⟩

end Proxy

/-! ## What the trace says of a connection -/

section Trace

variable {t : List Observation} (b : ℕ)

theorem received_eq_wire (t : List Observation) :
    received b t = wire b (t.flatMap Observation.acts) := by
  induction t with
  | nil => rfl
  | cons o t ih =>
    rw [List.flatMap_cons, wire_append, ← ih, received, received, List.flatMap_cons]
    cases o <;> rfl

/-- The responses taken up on a connection are those of its answers. -/
theorem attempted_eq_answers (h : Runs.Always Homed t) :
    attempted b (t.flatMap Observation.acts) =
      (t.filterMap (Observation.answersOn b)).map Prod.snd := by
  induction t using List.reverseRecOn with
  | nil => rfl
  | append_singleton t o ih =>
    obtain ⟨ht, ho⟩ := Runs.always_concat.1 h
    rw [List.flatMap_append, attempted_append, ih ht, List.filterMap_append, List.map_append]
    congr 1
    cases o with
    | tcpReply n resp clients acts =>
      obtain ⟨origin, source, dnsReq, -, -, -, hacts⟩ := ho
      rcases hacts b with hnone | ⟨-, hone⟩
      · simp [Observation.acts, Observation.answersOn, hnone]
      · simp [Observation.acts, Observation.answersOn, hone]
    | accepted | started | ended | callback | udpReply | released => rfl

/-- The answers on a connection are to different requests. -/
theorem nodup_answers (h : Runs.Always Homed t) :
    ((t.filterMap (Observation.answersOn b)).map Prod.fst).Nodup := by
  induction t using List.reverseRecOn with
  | nil => exact List.nodup_nil
  | append_singleton t o ih =>
    obtain ⟨ht, ho⟩ := Runs.always_concat.1 h
    cases hans : o.answersOn b with
    | none => simpa [hans] using ih ht
    | some p =>
      have hnew : p.1 ∉ (t.filterMap (Observation.answersOn b)).map Prod.fst := by
        intro hmem
        obtain ⟨q, hq, hqp⟩ := List.mem_map.1 hmem
        obtain ⟨o', ho', hans'⟩ := List.mem_filterMap.1 hq
        obtain ⟨clients, acts, rfl, -⟩ := Observation.eq_of_answersOn hans
        obtain ⟨clients', acts', rfl, -⟩ := Observation.eq_of_answersOn hans'
        obtain ⟨origin, source, dnsReq, -, hfirst, -, -⟩ := ho
        -- an answer to the same request is a reply before the first one
        have hreplied := List.filter_eq_nil_iff.1 hfirst _ ho'
        exact hreplied (by simp [Observation.replies, hqp])
      simpa [hans] using (ih ht).concat hnew

/-- An answer on a connection is to a request made on it. -/
theorem asked_of_answers (h : Runs.Always Homed t) {p : ℕ × List UInt8}
    (hp : p ∈ t.filterMap (Observation.answersOn b)) :
    ∃ source dnsReq, .accepted p.1 true (some b) source dnsReq ∈ t ∧
      p.2.take 2 = dnsReq.take 2 := by
  obtain ⟨o, ho, hans⟩ := List.mem_filterMap.1 hp
  obtain ⟨before, after, rfl⟩ := List.append_of_mem ho
  obtain ⟨clients, acts, rfl, hsome⟩ := Observation.eq_of_answersOn hans
  obtain ⟨origin, source, dnsReq, hacc, -, hid, hacts⟩ := h before _ after rfl
  rcases hacts b with hnone | ⟨rfl, -⟩
  · exact (hsome hnone).elim
  · exact ⟨source, dnsReq, List.mem_append_left _ hacc, hid⟩

end Trace

/-- The requests accepted from a connection, out of those accepted from all of them. -/
theorem filterMap_askedOn (b : ℕ) (t : List Observation) :
    t.filterMap (Observation.askedOn b) = (t.filterMap Observation.fromTcp).filterMap
      fun p => if p.1 = b then some p.2 else none := by
  rw [List.filterMap_filterMap]
  rfl

/-- A session on a TCP connection. In every run in which connections are accepted from fresh
peers and each length that is come upon on the connection fits, the requests accepted from the
connection are frames of the bytes received from it, in their order, and without the poller, as
long as the process goes on, the first frames. The bytes written to it are the frames of its
answers, but perhaps for a part of the last one. The answers are to different requests that
were accepted from this connection, and have their ids. -/
theorem tcpSession (env : Environment) (opt : Options) (hlimit : 0 < opt.tcpClientLimit)
    (es : List ProxyEvent) (b : ℕ)
    (hfresh : Runs.Meets (Proxy.step env) FreshPeers (Proxy.start env opt) es)
    (hfit : Runs.Meets (Proxy.step env) (Proxy.LengthsFit b) (Proxy.start env opt) es) :
    let s := Proxy.run env opt es
    let asked := s.trace.filterMap (Observation.askedOn b)
    let answers := s.trace.filterMap (Observation.answersOn b)
    let frames := Frames.frames (Proxy.receivedFrom env opt b es)
    asked.Sublist frames ∧ (opt.hostname = none → s.running = true → asked <+: frames) ∧
      Frames.stream (answers.map Prod.snd).dropLast <+: received b s.trace ∧
      received b s.trace <+: Frames.stream (answers.map Prod.snd) ∧
      (answers.map Prod.fst).Nodup ∧
      ∀ p ∈ answers, ∃ source dnsReq, .accepted p.1 true (some b) source dnsReq ∈ s.trace ∧
        p.2.take 2 = dnsReq.take 2 := by
  intro s asked answers frames
  obtain ⟨fs, h⟩ := Mirrored.run env hlimit es
  have hhomed := (Proxy.homes_run env opt hfresh).homed
  have hframed := Framed.run opt.tcpClientLimit fs b
  have hdecoded := (Decoded.init opt.tcpClientLimit b).run fs (h.fit b hfit)
  have hdelivered : (TcpRun.run opt.tcpClientLimit fs).deliveredOn b <+: frames := by
    have hprefix' := hdecoded.isPrefix_delivered
    rw [List.nil_append, h.received] at hprefix'
    exact hprefix'
  refine ⟨?_, fun hnone hrun => ?_, ?_, ?_, nodup_answers b hhomed,
    fun p => asked_of_answers b hhomed⟩
  · refine List.Sublist.trans ?_ hdelivered.sublist
    have hsub := h.mirrors.accepted.filterMap fun p => if p.1 = b then some p.2 else none
    rwa [← filterMap_askedOn] at hsub
  · have hpoller : s.usingDnsPoller = false := by
      rw [(Proxy.configured_run env opt es).usingDnsPoller, hnone]
      rfl
    have hall := h.mirrors.all hpoller hrun
    have hasked : asked = (TcpRun.run opt.tcpClientLimit fs).deliveredOn b := by
      rw [TcpRun.deliveredOn, ← hall, ← filterMap_askedOn]
    rw [hasked]
    exact hdelivered
  · have hstarted := hframed.started
    rwa [h.mirrors.sent, attempted_eq_answers b hhomed, ← received_eq_wire] at hstarted
  · have hwithin := hframed.within
    rwa [h.mirrors.sent, attempted_eq_answers b hhomed, ← received_eq_wire] at hwithin

/-- Two peers connect, and the second one asks and is answered. -/
theorem tcpSession_second :
    let s := Proxy.run (answering headerOnly) ⟨false, 2, 4, none⟩
      [.accept (.sock 5 [10, 0, 0, 1]), .accept (.sock 6 [10, 0, 0, 2]),
        .tcpRead 1 2 (.data oneRequest), .timer [.done 0 .ok goodInfo]]
    s.trace.filterMap (Observation.answersOn 1) = [(0, headerOnly)] ∧
      received 1 s.trace <+: Frames.stream [headerOnly] := by
  have hanswers : (Proxy.run (answering headerOnly) ⟨false, 2, 4, none⟩
      [.accept (.sock 5 [10, 0, 0, 1]), .accept (.sock 6 [10, 0, 0, 2]),
        .tcpRead 1 2 (.data oneRequest), .timer [.done 0 .ok goodInfo]]).trace.filterMap
      (Observation.answersOn 1) = [(0, headerOnly)] := by decide
  have hfits : ∀ (e : ProxyEvent) (s : Proxy), (∀ c ∈ e.toTcp.elim [] (s.tcpAlone.callsOn 1),
      c.reqSize ≤ tcpDnsMaxPayload) → Proxy.LengthsFit 1 s e := by
    intro e s hcalls f hf
    rwa [Option.mem_def.1 hf, Option.elim_some] at hcalls
  obtain ⟨-, -, -, hwithin, -, -⟩ := tcpSession (answering headerOnly) ⟨false, 2, 4, none⟩
    (by decide) [.accept (.sock 5 [10, 0, 0, 1]), .accept (.sock 6 [10, 0, 0, 2]),
      .tcpRead 1 2 (.data oneRequest), .timer [.done 0 .ok goodInfo]] 1
    ⟨⟨rfl, by decide, by decide⟩, ⟨rfl, by decide, by decide⟩, trivial, trivial, trivial⟩
    ⟨hfits _ _ (by decide), hfits _ _ (by decide), hfits _ _ (by decide), hfits _ _ (by decide),
      trivial⟩
  rw [hanswers] at hwithin
  exact ⟨hanswers, hwithin⟩

end HttpsDnsProxy
