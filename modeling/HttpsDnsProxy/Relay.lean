import HttpsDnsProxy.Requests

/-!
# Relaying

Every reply the proxy puts on a DNS socket belongs to one request accepted before, goes back
the way the request came, has its id, and is made once, for a transfer of the request's own
that ended well (`relaySafe`). This is so in both loops of `main` : the transfers under way when
the servers are stopped are answered in the second one.
-/

namespace HttpsDnsProxy

open Bytes
open HttpsClient (HttpsStep)

/-- The transfer of the request `n` ended well, with status 200, the content type of DNS
messages and `body`, long enough for a DNS header. -/
def Succeeded (before : List Observation) (n : ℕ) (body : List UInt8) : Prop :=
  ∃ info contentType, .ended n .ok info (some body) ∈ before ∧ info.responseCode = some 200 ∧
    info.contentType = some (some contentType) ∧ dohContentType <+: contentType ∧
    dnsHeaderLength ≤ body.length

/-- The transfer of the request `n` ended with `body`, long enough for a DNS header, and the
client did not find it faulty. -/
def Passed (before : List Observation) (n : ℕ) (body : List UInt8) : Prop :=
  ∃ result info, .ended n result info (some body) ∈ before ∧ faultyResponse result info = false ∧
    dnsHeaderLength ≤ body.length

/-- An observation, if it is a reply, is to exactly one request accepted before and to which
there is no reply yet. It goes out on the request's transport, for UDP to the address the
request came from and for TCP as a frame, with the request's id, and the request's transfer
has ended as `ok` says. -/
def Relayed (ok : List Observation → ℕ → List UInt8 → Prop) (addrlen : ℕ)
    (before : List Observation) : Observation → Prop
  | .udpReply n dest datagram => ∃ source dnsReq body,
      before.filter (Observation.accepts n) = [.accepted n false none source dnsReq] ∧
      before.filter (Observation.replies n) = [] ∧ datagram.take 2 = dnsReq.take 2 ∧
      dest = sockBytes source addrlen ∧ ok before n body
  | .tcpReply n resp _ acts => ∃ origin source dnsReq,
      before.filter (Observation.accepts n) = [.accepted n true (some origin) source dnsReq] ∧
      before.filter (Observation.replies n) = [] ∧ resp.take 2 = dnsReq.take 2 ∧
      (∀ block, wire block acts <+: Frames.frame resp) ∧ ok before n resp
  | _ => True

theorem relayed_of_isPlain {ok : List Observation → ℕ → List UInt8 → Prop} {addrlen : ℕ}
    (t : List Observation) (o : Observation) (ho : o.isPlain = true) :
    Relayed ok addrlen t o := by
  cases o with
  | started | ended | callback | released => trivial
  | accepted | udpReply | tcpReply => cases ho

namespace Proxy

/-- A body that reaches the callback is that of a transfer that was not faulty. -/
theorem Ends.passed {ctx : HttpsFetchCtx Request} {ends : List Observation} {body : List UInt8}
    (h : Ends ctx ends (some body)) (hlen : dnsHeaderLength ≤ body.length)
    {before : List Observation} (hbefore : ends ⊆ before) : Passed before ctx.block body := by
  generalize hbuf : some body = buf at h
  cases h with
  | aborted => cases hbuf
  | done result info =>
    split_ifs at hbuf with hfaulty
    · rw [← hbuf] at hbefore
      exact ⟨result, info, hbefore (List.mem_singleton_self _), by simpa using hfaulty, hlen⟩

variable {env : Environment} {s : Proxy}

/-- A reply is relayed if its fetch is owned. -/
theorem relayed_reply (hares : env.ares.KeepsId) {t : List Observation}
    {ctx : HttpsFetchCtx Request} {ends replies : List Observation} {buf : Option (List UInt8)}
    {d : DnsServerTcp} {origin : Option ℕ} {source : SockAddr}
    (howned : Owned s.addrlen t ctx.key origin source) (hends : Ends ctx ends buf)
    (hsub : ends ⊆ t) (hreply : Reply env s ctx.block ctx.cbData buf replies d) :
    ∀ o ∈ replies, Relayed Passed s.addrlen t o := by
  have hid : ∀ body : List UInt8, dnsHeaderLength ≤ body.length →
      ctx.cbData.txId = be16 (body.getD 0 0) (body.getD 1 0) →
      body.take 2 = ctx.cbData.dnsReq.take 2 := by
    intro body hlen htxId
    have hreq : dnsHeaderLength ≤ ctx.cbData.dnsReq.length := howned.length_le
    unfold dnsHeaderLength at hlen hreq
    rw [take_two_eq body (by omega), take_two_eq ctx.cbData.dnsReq (by omega), ← htxId]
    exact congrArg toBe16 howned.txId
  have horigin := howned.origin_isSome
  intro o ho
  cases hreply with
  | none => cases ho
  | udp hudp hlen htxId hd =>
    rw [List.mem_singleton.1 ho]
    obtain rfl : origin = none := by simpa [HttpsFetchCtx.key, hudp] using horigin
    refine ⟨source, ctx.cbData.dnsReq, _, ?_, howned.unreplied, ?_, ?_, hends.passed hlen hsub⟩
    · simpa [HttpsFetchCtx.key, hudp] using howned.accepted
    · rw [take_two_dnsServerRespond hares hd, hid _ hlen htxId]
    · have hraddr : ctx.cbData.raddr = sockBytes source s.addrlen := howned.raddr
      rw [hraddr, sockBytes_sockBytes]
  | tcp sends htcp hlen htxId =>
    rw [List.mem_singleton.1 ho]
    obtain ⟨block, rfl⟩ : ∃ block, origin = some block := by
      simpa [HttpsFetchCtx.key, htcp, Option.isSome_iff_exists] using horigin
    refine ⟨block, source, ctx.cbData.dnsReq, ?_, howned.unreplied, hid _ hlen htxId,
      fun b => DnsServerTcp.wire_dnsServerTcpRespond _ _ sends b, hends.passed hlen hsub⟩
    simpa [HttpsFetchCtx.key, htcp] using howned.accepted

/-- The ledger is right and every reply so far is relayed. -/
def Relays (a : ℕ) (s : Proxy) : Prop :=
  Ledgers a s ∧ Runs.Always (Relayed Passed a) s.trace

theorem relays_client (hares : env.ares.KeepsId) {a : ℕ} {s : Proxy} {c : HttpsClient Request}
    (hstep : HttpsStep s.https c) (h : Relays a s) : Relays a (s.advance env c) := by
  refine ⟨ledgers_client hstep h.1, ?_⟩
  obtain ⟨⟨rfl, hledger⟩, halways⟩ := h
  refine always_client relayed_of_isPlain hledger.fetches hstep halways ?_
  intro pre post ctx ends replies buf d hsplit hends hreply
  obtain ⟨origin, source, howned⟩ := hends.owned hledger hsplit
  exact relayed_reply hares howned hends (by simp) hreply

/-- The proxy keeps relaying. -/
theorem kept_relays (hares : env.ares.KeepsId) (a : ℕ) : KeptByProxy env (Relays a) where
  server s d hd h := ⟨(kept_ledgers env a).server s d hd h.1, h.2⟩
  client _ _ hstep h := relays_client hares hstep h
  request s isTcp origin raddr dnsReq hrun hboot harrives hlen h := by
    refine ⟨(kept_ledgers env a).request s _ _ _ _ hrun hboot harrives hlen h.1, ?_⟩
    obtain ⟨stat, heq⟩ := s.takeRequest_eq env hrun isTcp origin raddr dnsReq
    rw [heq]
    exact Runs.always_concat.2 ⟨Runs.always_concat.2 ⟨h.2, trivial⟩, trivial⟩
  print _ h := h
  halt _ h := h

theorem relays_newResolv (hares : env.ares.KeepsId) {a : ℕ} (addrList : CString)
    (h : Relays a s) : Relays a (s.newResolv env addrList) := by
  refine keep_newResolv (fun _ _ => relays_client hares) addrList ?_
  exact ⟨ledgers_replaceResolv addrList h.1, always_replaceResolv relayed_of_isPlain addrList h.2⟩

theorem relays_run (hares : env.ares.KeepsId) (opt : Options) (es : List ProxyEvent) :
    Relays opt.addrlen (run env opt es) :=
  Runs.invariant (fun _ e h => (kept_relays hares opt.addrlen).step e (fun _ _ _ h => h)
    (fun addrList _ _ _ => relays_newResolv hares addrList) h) es
    ⟨ledgers_start env opt, Runs.always_nil⟩

/-- Nothing is sent in what is only released. -/
theorem Relays.plains {a : ℕ} {os : List Observation} (h : Relays a s)
    (hos : ∀ o ∈ os, o.isPlain = true) : Relays a { s with trace := s.trace ++ os } :=
  ⟨⟨h.1.1, h.1.2.plains os hos⟩, always_plains relayed_of_isPlain hos h.2⟩

theorem relays_stop {a : ℕ} (s : Proxy) (h : Relays a s) : Relays a s.stop := by
  obtain ⟨tcp, stat, heq⟩ := s.stop_eq
  rw [heq]
  exact h.plains (isPlain_freeResolv s.resolv)

theorem relays_releaseServers {a : ℕ} (s : Proxy) (h : Relays a s) : Relays a s.releaseServers := by
  obtain ⟨os, heq, hos⟩ := s.releaseServers_eq
  rw [heq]
  exact h.plains (isPlain_releaseServers hos)

theorem ProcessState.relays {opt : Options} {es : List ProxyEvent} (hs : ProcessState env opt es s)
    (hares : env.ares.KeepsId) : Relays opt.addrlen s :=
  (kept_relays hares opt.addrlen).process hs (relays_run hares opt es) relays_stop
    relays_releaseServers fun _ h => h

end Proxy

/-- Every reply is relayed. In every state of the process in which `curl_easy_getinfo` has
succeeded, with a c-ares that keeps the message id, each reply put on a DNS socket is to exactly
one request accepted before, and the first to it. It has the request's id and goes out on the
request's transport, for UDP to the address the request came from, and the request's transfer
ended well with status 200, the content type of DNS messages and a body of at least a DNS
header. -/
theorem relaySafe (env : Environment) (hares : env.ares.KeepsId) (opt : Options)
    (es : List ProxyEvent) (s : Proxy) (hs : Proxy.ProcessState env opt es s)
    (hinfo : ∀ n result info body, .ended n result info body ∈ s.trace →
      info.responseCode.isSome = true ∧ info.contentType.isSome = true) :
    Runs.Always (Relayed Succeeded opt.addrlen) s.trace := by
  have hrelay := (hs.relays hares).2
  intro before o after htrace
  have hpassed : ∀ n body, Passed before n body → Succeeded before n body := by
    rintro n body ⟨result, info, hended, hfaulty, hlen⟩
    obtain ⟨rfl, hcode, htype⟩ := of_faultyResponse hfaulty
    have hmem : .ended n .ok info (some body) ∈ s.trace := by
      rw [htrace]
      exact List.mem_append_left _ hended
    obtain ⟨contentType, hsome⟩ := Option.isSome_iff_exists.1 (hinfo n _ info _ hmem).2
    obtain ⟨t, rfl, ht⟩ := htype contentType hsome
    exact ⟨info, t, hended, hcode, hsome, ht, hlen⟩
  have hrel := hrelay before o after htrace
  cases o with
  | udpReply n dest datagram =>
    obtain ⟨source, dnsReq, body, hacc, hunreplied, hid, hdest, hok⟩ := hrel
    exact ⟨source, dnsReq, body, hacc, hunreplied, hid, hdest, hpassed n body hok⟩
  | tcpReply n resp clients acts =>
    obtain ⟨origin, source, dnsReq, hacc, hunreplied, hid, hwire, hok⟩ := hrel
    exact ⟨origin, source, dnsReq, hacc, hunreplied, hid, hwire, hpassed n resp hok⟩
  | accepted | started | ended | callback | released => trivial

/-- An environment in which every call succeeds : libcurl sets a timer for a new transfer and
brings `body` for the first one when it expires. c-ares parses nothing. -/
def answering (body : List UInt8) : Environment where
  lib :=
    { easySetopt := fun _ => true
      multiSetopt := fun _ => true
      addHandle := fun _ => ⟨[.multiTimer 0], .ok⟩
      removeHandle := fun _ => ⟨[], .ok⟩
      socketAction := fun _ => ⟨[.write 0 body true], .ok⟩
      multiCleanup := fun _ => [] }
  ares :=
    { parse := fun _ => none
      write := fun _ _ => none
      rrDel := fun _ => true }
  aresRounds := 0
  sends := fun _ _ => .sent 65535
  slistAppend := fun _ => true
  latency := fun _ => 0

/-- A transfer that ended as it should. -/
def goodInfo : TransferInfo where
  responseCode := some 200
  contentType := some (some dohContentType)
  numConnects := some 1

/-- A message of a header only. -/
def headerOnly : List UInt8 := [0xAB, 0xCD, 1, 0, 0, 1, 0, 0, 0, 0, 0, 0]

/-- Two UDP requests are under way when a signal breaks the loop. In the second loop the transfer
of the first ends well and that of the other with another status. -/
def answeredLate : Proxy :=
  (Proxy.run (answering headerOnly) ⟨false, 0, 4, none⟩
    [.udp (.datagram headerOnly [10, 0, 0, 1]), .udp (.datagram headerOnly [10, 0, 0, 2])]).teardown
    (answering headerOnly)
    [.timer [.done 0 .ok goodInfo, .done 1 .ok { goodInfo with responseCode := some 503 }]]

/-- The first is answered. -/
theorem relaySafe_udp :
    .udpReply 0 [10, 0, 0, 1] headerOnly ∈ answeredLate.trace ∧
      Runs.Always (Relayed Succeeded 4) answeredLate.trace := by
  have htrace : answeredLate.trace =
      [.accepted 0 false none [10, 0, 0, 1] headerOnly, .started 0 none,
        .accepted 1 false none [10, 0, 0, 2] headerOnly, .started 1 none,
        .ended 0 .ok goodInfo (some headerOnly), .callback 0,
        .udpReply 0 [10, 0, 0, 1] headerOnly, .released (.dnsReq 0), .released (.request 0),
        .ended 1 .ok { goodInfo with responseCode := some 503 } none, .callback 1,
        .released (.dnsReq 1), .released (.request 1), .released .dnsServer] := by
    decide
  refine ⟨by rw [htrace]; simp,
    relaySafe (answering headerOnly) ⟨?_, ?_⟩ ⟨false, 0, 4, none⟩ _ _ (.done _) ?_⟩
  · intro msg dnsrec h
    cases h
  · intro n dnsrec msg h
    cases h
  · intro n result info body h
    rw [htrace] at h
    simp only [List.mem_cons, List.not_mem_nil, or_false, reduceCtorEq, false_or,
      Observation.ended.injEq] at h
    rcases h with h | h <;> rw [h.2.2.1] <;> exact ⟨rfl, rfl⟩

end HttpsDnsProxy
