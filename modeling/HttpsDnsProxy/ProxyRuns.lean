import HttpsDnsProxy.Main

/-!
# Runs of the proxy

What an event does to the proxy comes down to a few kinds of change : a change to a listed
TCP client, a step of the HTTPS client with its effects carried out, a request taken on, a
new resolver list. `KeptByProxy` is the rule for what they keep, and `KeptByProxy.step` says
that every event keeps it too, given it is kept when a connection is accepted and when a poll
brings new addresses.
-/

namespace HttpsDnsProxy

open Bytes
open HttpsClient (HttpsStep Steps)

/-! ## Effects of the client -/

namespace HttpsClient

variable {ρ : Type*} {c c' : HttpsClient ρ}

/-- A step only adds effects. -/
theorem HttpsStep.effects (h : HttpsStep c c') : c.effects <+: c'.effects := by
  cases h with
  | callback cb =>
    obtain ⟨es, hes, -⟩ := c.effects_transferCallback cb
    exact ⟨es, hes.symm⟩
  | frame hf => rw [hf.effects]
  | finish result _ =>
    rcases (c.finishFetch_spec _ _ result).2.2.2 with ⟨-, he⟩ | ⟨code, info, es, -, -, he⟩
    · exact ⟨_, he.symm⟩
    · rw [he, List.append_assoc]
      exact List.prefix_append _ _

theorem Steps.effects (h : Steps c c') : c.effects <+: c'.effects := by
  induction h with
  | refl => exact List.prefix_refl _
  | tail _ hs ih => exact ih.trans hs.effects

end HttpsClient

namespace Proxy

variable {env : Environment} {s : Proxy}

/-! ## Carrying effects out -/

/-- The proxy with another client. -/
def withHttps (s : Proxy) (c : HttpsClient Request) : Proxy :=
  { s with https := c }

theorem respond_withHttps (c : HttpsClient Request) (n : ℕ) (req : Request) :
    ∀ buf : Option (List UInt8),
      (s.withHttps c).respond env n req buf = (s.respond env n req buf).withHttps c
  | none => rfl
  | some buf => by
    have hudp : (s.withHttps c).udpRespond env n req buf =
        (s.udpRespond env n req buf).withHttps c := by
      unfold udpRespond
      cases dnsServerRespond env.ares env.aresRounds req.dnsReq buf <;> rfl
    simp only [respond, hudp]
    split_ifs <;> rfl

/-- The response callback neither reads nor changes the client. -/
theorem httpsRespCb_withHttps (c : HttpsClient Request) (n : ℕ) (req : Request)
    (buf : Option (List UInt8)) :
    (s.withHttps c).httpsRespCb env n req buf = (s.httpsRespCb env n req buf).withHttps c := by
  have hrespond : ((s.withHttps c).note (.callback n)).respond env n req buf =
      ((s.note (.callback n)).respond env n req buf).withHttps c :=
    respond_withHttps (s := s.note (.callback n)) c n req buf
  unfold httpsRespCb
  simp only [hrespond]
  have hhalted : (((s.note (.callback n)).respond env n req buf).withHttps c).halted =
      ((s.note (.callback n)).respond env n req buf).halted := rfl
  rw [hhalted]
  split_ifs <;> rfl

theorem carryOut_withHttps (c : HttpsClient Request) (e : HttpsEffect Request) :
    (s.withHttps c).carryOut env e = (s.carryOut env e).withHttps c := by
  have hhalted : (s.withHttps c).halted = s.halted := rfl
  unfold carryOut
  rw [hhalted]
  split_ifs
  · rfl
  · cases e with
    | call n req buf => exact httpsRespCb_withHttps c n req buf
    | started | ended | connectionOpened | connectionClosed | connectionReused => rfl

theorem foldl_carryOut_withHttps (c : HttpsClient Request) :
    ∀ (es : List (HttpsEffect Request)) (s : Proxy),
      es.foldl (carryOut env) (s.withHttps c) = (es.foldl (carryOut env) s).withHttps c
  | [], _ => rfl
  | e :: es, s => by
    rw [List.foldl_cons, List.foldl_cons, carryOut_withHttps]
    exact foldl_carryOut_withHttps c es _

/-- What a response callback sends : nothing, or its body by the transport of the request. -/
inductive Reply (env : Environment) (s : Proxy) (n : ℕ) (req : Request) :
    Option (List UInt8) → List Observation → DnsServerTcp → Prop where
  | none (buf : Option (List UInt8)) : Reply env s n req buf [] s.tcp
  | udp {body datagram : List UInt8} : req.isTcp = false → dnsHeaderLength ≤ body.length →
      req.txId = be16 (body.getD 0 0) (body.getD 1 0) →
      dnsServerRespond env.ares env.aresRounds req.dnsReq body = .sendto datagram →
      Reply env s n req (some body)
        [.udpReply n (sockBytes req.raddr s.addrlen) datagram] s.tcp
  | tcp {body : List UInt8} (sends : ℕ → SendResult) : req.isTcp = true →
      dnsHeaderLength ≤ body.length → req.txId = be16 (body.getD 0 0) (body.getD 1 0) →
      Reply env s n req (some body)
        [.tcpReply n body (s.tcp.clients.map TcpClient.block)
          (s.tcp.dnsServerTcpRespond req.raddr body sends).2]
        (s.tcp.dnsServerTcpRespond req.raddr body sends).1

/-- Replies depend on the servers only. -/
theorem Reply.congr {s' : Proxy} {n : ℕ} {req : Request} {buf : Option (List UInt8)}
    {replies : List Observation} {d : DnsServerTcp} (h : Reply env s n req buf replies d)
    (htcp : s'.tcp = s.tcp) (haddrlen : s'.addrlen = s.addrlen) :
    Reply env s' n req buf replies d := by
  cases h with
  | none => rw [← htcp]; exact .none buf
  | udp hudp hlen hid hd => rw [← htcp, ← haddrlen]; exact .udp hudp hlen hid hd
  | tcp sends hreq hlen hid => rw [← htcp]; exact .tcp sends hreq hlen hid

/-- A response callback replies, and leaves the rest of the proxy as it is, but for the
statistics. -/
def Answered (env : Environment) (s : Proxy) (n : ℕ) (req : Request) (buf : Option (List UInt8))
    (s' : Proxy) : Prop :=
  ∃ replies d stat halted, Reply env s n req buf replies d ∧
    s' = { s with trace := s.trace ++ replies, tcp := d, stat := stat, halted := halted }

theorem Answered.count {n : ℕ} {req : Request} {buf : Option (List UInt8)} {s' : Proxy}
    (h : Answered env s n req buf s') (f : Counters → Counters) :
    Answered env s n req buf (s'.count f) := by
  obtain ⟨replies, d, stat, halted, hreply, rfl⟩ := h
  exact ⟨replies, d, _, halted, hreply, rfl⟩

theorem Answered.none (n : ℕ) (req : Request) (buf : Option (List UInt8)) (halted : Bool) :
    Answered env s n req buf { s with halted := halted } :=
  ⟨[], s.tcp, s.stat, halted, .none buf, by simp⟩

theorem answered_udpRespond {n : ℕ} {req : Request} {body : List UInt8}
    (hudp : req.isTcp = false) (hlen : dnsHeaderLength ≤ body.length)
    (hid : req.txId = be16 (body.getD 0 0) (body.getD 1 0)) :
    Answered env s n req (some body) (s.udpRespond env n req body) := by
  unfold udpRespond
  cases hd : dnsServerRespond env.ares env.aresRounds req.dnsReq body with
  | dropped => exact .none n req _ s.halted
  | sendto datagram => exact ⟨_, s.tcp, s.stat, s.halted, .udp hudp hlen hid hd, rfl⟩
  | looping => exact .none n req _ true

theorem answered_respond (env : Environment) (s : Proxy) (n : ℕ) (req : Request) :
    ∀ buf : Option (List UInt8), Answered env s n req buf (s.respond env n req buf)
  | none => .none n req _ s.halted
  | some body => by
    unfold respond
    by_cases hlen : body.length < dnsHeaderLength
    · simpa only [if_pos hlen] using Answered.none n req _ s.halted
    by_cases hid : req.txId ≠ be16 (body.getD 0 0) (body.getD 1 0)
    · simpa only [if_neg hlen, if_pos hid] using Answered.none n req _ s.halted
    have hsent : Answered env s n req (some body)
        (if req.isTcp then s.tcpRespond env n req body else s.udpRespond env n req body) := by
      split_ifs with htcp
      · exact ⟨_, _, s.stat, s.halted,
          .tcp (env.sends s.trace.length) htcp (Nat.le_of_not_lt hlen) (not_not.1 hid), rfl⟩
      · exact answered_udpRespond (by simpa using htcp) (Nat.le_of_not_lt hlen) (not_not.1 hid)
    simp only [if_neg hlen, if_neg hid]
    by_cases hstat : req.stat = true
    · simpa only [if_pos hstat] using hsent.count _
    · simpa only [if_neg hstat] using hsent

/-- What a response callback does to the proxy : it replies, and releases the request unless
it does not return. -/
theorem httpsRespCb_spec (env : Environment) (s : Proxy) (n : ℕ) (req : Request)
    (buf : Option (List UInt8)) :
    ∃ replies d stat halted freed, Reply env s n req buf replies d ∧
      (freed = [] ∨ freed = [.released (.dnsReq n), .released (.request n)]) ∧
      s.httpsRespCb env n req buf =
        { s with
          trace := s.trace ++ .callback n :: (replies ++ freed)
          tcp := d, stat := stat, halted := halted } := by
  obtain ⟨replies, d, stat, halted, hreply, heq⟩ :=
    answered_respond env (s.note (.callback n)) n req buf
  have hreply' : Reply env s n req buf replies d := hreply.congr rfl rfl
  unfold httpsRespCb
  simp only [heq]
  cases halted with
  | true => exact ⟨replies, d, stat, true, [], hreply', Or.inl rfl, by simp [note]⟩
  | false => exact ⟨replies, d, stat, false, _, hreply', Or.inr rfl, by simp [note]⟩

/-- The parts that only `main` and `dns_poll_cb` write. -/
structure SameApp (s s' : Proxy) : Prop where
  resolv : s'.resolv = s.resolv
  nextSlist : s'.nextSlist = s.nextSlist
  usingDnsPoller : s'.usingDnsPoller = s.usingDnsPoller
  dnsPoller : s'.dnsPoller = s.dnsPoller
  hostname : s'.hostname = s.hostname
  addrlen : s'.addrlen = s.addrlen
  dnsServer : s'.dnsServer = s.dnsServer
  hasTcp : s'.hasTcp = s.hasTcp

theorem SameApp.trans {s' s'' : Proxy} (h : SameApp s s') (h' : SameApp s' s'') :
    SameApp s s'' :=
  ⟨h'.resolv.trans h.resolv, h'.nextSlist.trans h.nextSlist,
    h'.usingDnsPoller.trans h.usingDnsPoller, h'.dnsPoller.trans h.dnsPoller,
    h'.hostname.trans h.hostname, h'.addrlen.trans h.addrlen, h'.dnsServer.trans h.dnsServer,
    h'.hasTcp.trans h.hasTcp⟩

theorem sameApp_carryOut (env : Environment) (s : Proxy) (e : HttpsEffect Request) :
    SameApp s (s.carryOut env e) := by
  unfold carryOut
  split_ifs
  · exact ⟨rfl, rfl, rfl, rfl, rfl, rfl, rfl, rfl⟩
  · cases e with
    | call n req buf =>
      obtain ⟨replies, d, stat, halted, freed, -, -, heq⟩ := httpsRespCb_spec env s n req buf
      simp only [heq]
      exact ⟨rfl, rfl, rfl, rfl, rfl, rfl, rfl, rfl⟩
    | started | ended | connectionOpened | connectionClosed | connectionReused =>
      exact ⟨rfl, rfl, rfl, rfl, rfl, rfl, rfl, rfl⟩

theorem sameApp_foldl (env : Environment) :
    ∀ (es : List (HttpsEffect Request)) (s : Proxy), SameApp s (es.foldl (carryOut env) s)
  | [], _ => ⟨rfl, rfl, rfl, rfl, rfl, rfl, rfl, rfl⟩
  | e :: es, s => (sameApp_carryOut env s e).trans (sameApp_foldl env es _)

/-! ## Advancing -/

theorem sameApp_advance (env : Environment) (s : Proxy) (c : HttpsClient Request) :
    SameApp s (s.advance env c) := by
  obtain ⟨h1, h2, h3, h4, h5, h6, h7, h8⟩ :=
    sameApp_foldl env (c.effects.drop s.https.effects.length) s
  exact ⟨h1, h2, h3, h4, h5, h6, h7, h8⟩

/-- The new effects are carried out. -/
theorem advance_eq {c : HttpsClient Request} {es : List (HttpsEffect Request)}
    (h : c.effects = s.https.effects ++ es) :
    s.advance env c = (es.foldl (carryOut env) s).withHttps c := by
  unfold advance
  rw [h, List.drop_left]
  rfl

@[simp] theorem https_advance (c : HttpsClient Request) : (s.advance env c).https = c := rfl

theorem advance_self : s.advance env s.https = s := by
  have h : s.https.effects = s.https.effects ++ [] := (List.append_nil _).symm
  rw [advance_eq h]
  rfl

/-- Advancing twice is advancing once. -/
theorem advance_advance {c c' : HttpsClient Request} (h : s.https.effects <+: c.effects)
    (h' : c.effects <+: c'.effects) : (s.advance env c).advance env c' = s.advance env c' := by
  obtain ⟨es, hes⟩ := h
  obtain ⟨es', hes'⟩ := h'
  have hall : c'.effects = s.https.effects ++ (es ++ es') := by
    rw [← hes', ← hes, List.append_assoc]
  have hnext : c'.effects = (s.advance env c).https.effects ++ es' := hes'.symm
  rw [advance_eq hall, advance_eq hnext, advance_eq hes.symm, foldl_carryOut_withHttps,
    List.foldl_append]
  rfl

/-- What advancing by one step keeps, advancing by any number keeps. -/
theorem keep_steps {P : Proxy → Prop}
    (hP : ∀ s c, HttpsStep s.https c → P s → P (s.advance env c))
    {c : HttpsClient Request} (hsteps : Steps s.https c) (h : P s) : P (s.advance env c) := by
  induction hsteps with
  | refl =>
    rw [advance_self]
    exact h
  | tail hsteps hstep ih =>
    rw [← advance_advance (Steps.effects hsteps) hstep.effects]
    exact hP _ _ hstep ih

/-- Counting a connection changes nothing but the statistics. -/
theorem carryOut_connection (env : Environment) (s : Proxy) {e : HttpsEffect Request}
    (he : e.isConnection = true) : ∃ stat, s.carryOut env e = { s with stat := stat } := by
  unfold carryOut
  split_ifs
  · exact ⟨s.stat, rfl⟩
  · cases e with
    | connectionOpened | connectionClosed | connectionReused => exact ⟨_, rfl⟩
    | started | ended | call => cases he

theorem foldl_connection (env : Environment) :
    ∀ (es : List (HttpsEffect Request)) (s : Proxy), (∀ e ∈ es, e.isConnection = true) →
      ∃ stat, es.foldl (carryOut env) s = { s with stat := stat }
  | [], s, _ => ⟨s.stat, rfl⟩
  | e :: es, s, h => by
    obtain ⟨stat, hstat⟩ := carryOut_connection env s (h e (List.mem_cons_self ..))
    obtain ⟨stat', hstat'⟩ := foldl_connection env es (s.carryOut env e)
      fun e' he' => h e' (List.mem_cons_of_mem _ he')
    exact ⟨stat', by rw [List.foldl_cons, hstat', hstat]⟩

theorem foldl_halted (h : s.halted = true) :
    ∀ es : List (HttpsEffect Request), es.foldl (carryOut env) s = s
  | [] => rfl
  | e :: es => by
    have he : s.carryOut env e = s := by simp [carryOut, h]
    rw [List.foldl_cons, he, foldl_halted h es]

/-- How the transfer of `ctx` has ended, and the buffer its callback gets for it : none if it
was aborted or its response is faulty. -/
inductive Ends (ctx : HttpsFetchCtx Request) :
    List Observation → Option (List UInt8) → Prop where
  | aborted : Ends ctx [] none
  | done (result : CurlCode) (info : TransferInfo) :
      Ends ctx [.ended ctx.block result info ctx.buf]
        (if faultyResponse result info then none else ctx.buf)

/-- What one step of the client comes to. -/
inductive ClientChange (env : Environment) (s : Proxy) (c : HttpsClient Request) :
    Proxy → Prop where
  /-- Nothing happens to the fetches. -/
  | quiet (stat : Option Stat) : c.listed = s.https.listed → c.nextBlock = s.https.nextBlock →
      ClientChange env s c { s with https := c, stat := stat }
  /-- The process does not go on. -/
  | dead : s.halted = true → c.listed ⊆ s.https.listed → c.nextBlock = s.https.nextBlock →
      ClientChange env s c { s with https := c }
  /-- A fetch is finished. -/
  | finish {pre post : List (HttpsFetchCtx Request)} {ctx : HttpsFetchCtx Request}
      {ends replies freed : List Observation} {buf : Option (List UInt8)} {d : DnsServerTcp}
      (stat : Option Stat) (halted : Bool) :
      s.https.fetches = pre ++ ctx :: post → c.fetches = pre ++ post →
      c.nextBlock = s.https.nextBlock → s.halted = false → Ends ctx ends buf →
      Reply env s ctx.block ctx.cbData buf replies d →
      (freed = [] ∨ freed = [.released (.dnsReq ctx.block), .released (.request ctx.block)]) →
      ClientChange env s c
        { s with
          https := c
          trace := s.trace ++ (ends ++ .callback ctx.block :: (replies ++ freed))
          tcp := d
          stat := stat
          halted := halted }

/-- The callback of a finished fetch, behind what is known of its transfer. -/
theorem advance_finish {c : HttpsClient Request} {pre post : List (HttpsFetchCtx Request)}
    {ctx : HttpsFetchCtx Request} (hsplit : s.https.fetches = pre ++ ctx :: post)
    (hfetches : c.fetches = pre ++ post) (hnext : c.nextBlock = s.https.nextBlock)
    {es : List (HttpsEffect Request)} {ends : List Observation} {buf : Option (List UInt8)}
    (heffects : c.effects = s.https.effects ++ (es ++ [.call ctx.block ctx.cbData buf]))
    (hends : Ends ctx ends buf)
    (hes : ∃ stat, s.halted = false →
      es.foldl (carryOut env) s = { s with trace := s.trace ++ ends, stat := stat }) :
    ClientChange env s c (s.advance env c) := by
  rw [advance_eq heffects]
  cases hh : s.halted with
  | true =>
    rw [foldl_halted hh]
    exact .dead hh (HttpsClient.listed_sublist_of_unlink hsplit hfetches).subset hnext
  | false =>
    obtain ⟨stat, hes⟩ := hes
    rw [List.foldl_append, hes hh]
    obtain ⟨replies, d, stat', halted, freed, hreply, hfreed, hcb⟩ :=
      httpsRespCb_spec env { s with trace := s.trace ++ ends, stat := stat }
        ctx.block ctx.cbData buf
    have hcarry : ({ s with trace := s.trace ++ ends, stat := stat } : Proxy).carryOut env
        (.call ctx.block ctx.cbData buf) = _ := (if_neg (by simp [hh])).trans hcb
    have hfinish := ClientChange.finish (c := c) stat' halted hsplit hfetches hnext hh hends
      (hreply.congr rfl rfl) hfreed
    simpa [hcarry, withHttps] using hfinish

/-- What one step of the client does to the proxy. -/
theorem clientChange {c : HttpsClient Request} (h : HttpsStep s.https c)
    (hfetches : s.https.Fetches) : ClientChange env s c (s.advance env c) := by
  cases h with
  | callback cb =>
    obtain ⟨es, hes, hconn⟩ := s.https.effects_transferCallback cb
    obtain ⟨stat, hstat⟩ := foldl_connection env es s hconn
    rw [advance_eq hes, hstat]
    exact .quiet stat (s.https.listed_transferCallback cb) (s.https.nextBlock_transferCallback cb)
  | frame hf =>
    have hes : c.effects = s.https.effects ++ [] := hf.effects.trans (List.append_nil _).symm
    rw [advance_eq hes]
    exact .quiet s.stat (congrArg (List.map _) hf.fetches) hf.nextBlock
  | @finish pre post ctx result hsplit =>
    have hpost := hfetches.fetches_finishFetch hsplit result
    obtain ⟨-, hnext, -, heffects⟩ :=
      s.https.finishFetch_spec (pre.getLast?.map HttpsFetchCtx.block) ctx result
    rcases heffects with ⟨-, he⟩ | ⟨code, info, es, -, hconn, he⟩
    · have he' : (s.https.finishFetch (pre.getLast?.map HttpsFetchCtx.block) ctx result).effects =
          s.https.effects ++ ([] ++ [.call ctx.block ctx.cbData none]) := he
      exact advance_finish hsplit hpost hnext he' .aborted ⟨s.stat, fun _ => by simp⟩
    · have he' : (s.https.finishFetch (pre.getLast?.map HttpsFetchCtx.block) ctx result).effects =
          s.https.effects ++ ((.ended ctx.block code info ctx.buf :: es) ++
            [.call ctx.block ctx.cbData (if faultyResponse code info then none else ctx.buf)]) := by
        rw [he]
        simp
      obtain ⟨stat, hstat⟩ := foldl_connection env es
        (s.note (.ended ctx.block code info ctx.buf)) hconn
      refine advance_finish hsplit hpost hnext he' (.done code info) ⟨stat, fun hh => ?_⟩
      have hnote : s.carryOut env (.ended ctx.block code info ctx.buf) =
          s.note (.ended ctx.block code info ctx.buf) := if_neg (by simp [hh])
      rw [List.foldl_cons, hnote, hstat]
      rfl

/-! ## What an event can do -/

/-- A change to a listed TCP client : its input buffer is written, its timer restarted, or
it is removed. -/
inductive ServerChange (d : DnsServerTcp) : DnsServerTcp → Prop where
  | input {block : ℕ} {c : TcpClient} (m : Mem) (size used : ℕ) : d.find block = some c →
      ServerChange d (d.update (c.withInput m size used))
  | again {block : ℕ} {c : TcpClient} : d.find block = some c →
      ServerChange d (d.timerAgain block)
  | remove {block : ℕ} {c : TcpClient} : d.find block = some c →
      ServerChange d (d.removeClient block)

/-- What the changes of a listed client keep. -/
theorem ServerChange.keep {P : DnsServerTcp → Prop} (hP : KeptByServer P) {d d' : DnsServerTcp}
    (h : ServerChange d d') (hd : P d) : P d' := by
  cases h with
  | input m size used hc => exact hP.input d _ _ m size used hc hd
  | again hc => exact hP.again d _ _ hc hd
  | remove hc => exact hP.remove d _ _ hc hd

/-- What the changes of a listed client keep, a reply keeps. -/
theorem Reply.keep {P : DnsServerTcp → Prop} (hP : KeptByServer P) {n : ℕ} {req : Request}
    {buf : Option (List UInt8)} {replies : List Observation} {d : DnsServerTcp}
    (h : Reply env s n req buf replies d) (hs : P s.tcp) : P d := by
  cases h with
  | none | udp => exact hs
  | tcp sends _ _ _ => exact hP.respond s.tcp _ _ sends hs

/-- Where a request comes from : a UDP peer while the server listens, or a listed TCP
client. -/
inductive Arrives (s : Proxy) : Bool → Option ℕ → SockAddr → Prop where
  | udp (raddr : SockAddr) : s.dnsServer = true → Arrives s false none raddr
  | tcp {block : ℕ} {c : TcpClient} : s.tcp.find block = some c →
      Arrives s true (some block) c.raddr

/-- `dns_server_cb` up to the point where the new fetch is in the list. -/
def takeRequest (env : Environment) (s : Proxy) (isTcp : Bool) (origin : Option ℕ)
    (raddr : SockAddr) (dnsReq : List UInt8) : Proxy :=
  let req := s.newRequest isTcp raddr dnsReq
  let s := s.acceptRequest isTcp origin raddr dnsReq
  s.advance env (s.https.startFetch dnsReq s.resolv req.txId req)

/-- A request taken on is in the trace and in the client's list, and counted. -/
theorem takeRequest_counted (env : Environment) (hrun : s.running = true) (isTcp : Bool)
    (origin : Option ℕ) (raddr : SockAddr) (dnsReq : List UInt8) :
    s.takeRequest env isTcp origin raddr dnsReq =
      { s with
        https := s.https.startFetch dnsReq s.resolv (s.newRequest isTcp raddr dnsReq).txId
          (s.newRequest isTcp raddr dnsReq)
        trace := s.trace ++ [.accepted s.https.nextBlock isTcp origin raddr dnsReq] ++
          [.started s.https.nextBlock s.resolv]
        stat := (s.count fun c => c.statRequestBegin dnsReq.length isTcp).stat } := by
  have hhalted : s.halted = false := by
    unfold running at hrun
    simp_all
  let req := s.newRequest isTcp raddr dnsReq
  have heffects : (s.https.startFetch dnsReq s.resolv req.txId req).effects =
      (s.acceptRequest isTcp origin raddr dnsReq).https.effects ++
        [.started (s.https.newCtx dnsReq s.resolv req.txId req)] := rfl
  have hadvance : s.takeRequest env isTcp origin raddr dnsReq = _ := advance_eq heffects
  rw [hadvance, List.foldl_cons, List.foldl_nil, carryOut, if_neg]
  · rfl
  · simpa [acceptRequest, note, count] using hhalted

theorem takeRequest_eq (env : Environment) (hrun : s.running = true) (isTcp : Bool)
    (origin : Option ℕ) (raddr : SockAddr) (dnsReq : List UInt8) :
    ∃ stat, s.takeRequest env isTcp origin raddr dnsReq =
      { s with
        https := s.https.startFetch dnsReq s.resolv (s.newRequest isTcp raddr dnsReq).txId
          (s.newRequest isTcp raddr dnsReq)
        trace := s.trace ++ [.accepted s.https.nextBlock isTcp origin raddr dnsReq] ++
          [.started s.https.nextBlock s.resolv]
        stat := stat } :=
  ⟨_, s.takeRequest_counted env hrun isTcp origin raddr dnsReq⟩

/-- A request taken on is fetched. -/
theorem dnsServerCb_eq {isTcp : Bool} {origin : Option ℕ} {raddr : SockAddr}
    {dnsReq : List UInt8} (hrun : s.running = true)
    (hboot : ¬(s.usingDnsPoller = true ∧ s.resolv = none)) :
    s.dnsServerCb env isTcp origin raddr dnsReq =
      (s.takeRequest env isTcp origin raddr dnsReq).advance env
        ((s.takeRequest env isTcp origin raddr dnsReq).https.addFetch env.lib) := by
  unfold dnsServerCb
  rw [if_neg (by simp [hrun]), if_neg hboot]
  refine (advance_advance ?_ (Steps.effects (HttpsClient.steps_addFetch env.lib _))).symm
  exact List.prefix_append _ _

/-- A property that every change of the proxy keeps, but for accepting a connection and
replacing the resolver list. The statistics change as they are counted and printed. -/
structure KeptByProxy (env : Environment) (P : Proxy → Prop) : Prop where
  server : ∀ s d, ServerChange s.tcp d → P s → P { s with tcp := d }
  client : ∀ s c, HttpsStep s.https c → P s → P (s.advance env c)
  request : ∀ s isTcp origin raddr dnsReq, s.running = true →
    ¬(s.usingDnsPoller = true ∧ s.resolv = none) → Arrives s isTcp origin raddr →
    dnsHeaderLength ≤ dnsReq.length → P s → P (s.takeRequest env isTcp origin raddr dnsReq)
  print : ∀ s, P s → P { s with
    stat := s.stat.map fun stat => if stat.statsTimer then stat.statPrint else stat }
  halt : ∀ s, P s → P { s with halted := true }

/-- Releasing the resolver list is all that is seen of it. -/
theorem freeResolv_eq (s : Proxy) : s.freeResolv =
    { s with trace := s.trace ++ s.resolv.toList.map fun r => .released (.resolv r.block) } := by
  obtain ⟨https, resolv, nextSlist, stat, poller, dnsPoller, hostname, addrlen, dnsServer, tcp,
    hasTcp, trace, halted⟩ := s
  cases resolv <;> simp [freeResolv, note]

theorem https_replaceResolv (addrList : CString) :
    (s.replaceResolv env addrList).https = s.https := by
  rw [replaceResolv, freeResolv_eq]

theorem trace_replaceResolv (addrList : CString) : (s.replaceResolv env addrList).trace =
    s.trace ++ s.resolv.toList.map fun r => .released (.resolv r.block) := by
  rw [replaceResolv, freeResolv_eq]

/-- `dns_poll_cb` from `curl_slist_free_all` on. -/
def newResolv (env : Environment) (s : Proxy) (addrList : CString) : Proxy :=
  (s.replaceResolv env addrList).advance env (s.https.httpsClientReset env.lib)

theorem dnsPollCb_eq (addrList : CString) : s.dnsPollCb env addrList =
    if s.hostname.length > 254 then { s with halted := true }
    else if s.keepsResolv addrList then s
    else s.newResolv env addrList := by
  unfold dnsPollCb newResolv
  simp only [https_replaceResolv]

/-- A reset for a new resolver list keeps what its steps and the change of the list keep. -/
theorem keep_newResolv {P : Proxy → Prop}
    (hclient : ∀ s c, HttpsStep s.https c → P s → P (s.advance env c)) (addrList : CString)
    (h : P (s.replaceResolv env addrList)) : P (s.newResolv env addrList) := by
  have hsteps : Steps (s.replaceResolv env addrList).https (s.https.httpsClientReset env.lib) := by
    rw [https_replaceResolv]
    exact s.https.steps_httpsClientReset env.lib
  exact keep_steps hclient hsteps h

namespace KeptByProxy

variable {P : Proxy → Prop}

theorem dnsServerCb (hP : KeptByProxy env P) {isTcp : Bool} {origin : Option ℕ} {raddr : SockAddr}
    {dnsReq : List UInt8} (harrives : Arrives s isTcp origin raddr)
    (hlen : dnsHeaderLength ≤ dnsReq.length) (h : P s) :
    P (s.dnsServerCb env isTcp origin raddr dnsReq) := by
  by_cases hrun : s.running = true
  · by_cases hboot : s.usingDnsPoller = true ∧ s.resolv = none
    · simpa [Proxy.dnsServerCb, hrun, hboot] using h
    · rw [dnsServerCb_eq hrun hboot]
      exact keep_steps hP.client (HttpsClient.steps_addFetch env.lib _)
        (hP.request s isTcp origin raddr dnsReq hrun hboot harrives hlen h)
  · simpa [Proxy.dnsServerCb, hrun] using h

/-- Reads keep the property. -/
theorem readEvent (hP : KeptByProxy env P) (block rounds : ℕ) (res : RecvResult) (h : P s) :
    P (s.readEvent env block rounds res) := by
  have hkept : KeptByRead tcpIn (tcpCb env) block P :=
    { input := fun s c m n k hc => hP.server s _ (.input m n k hc)
      again := fun s c hc => hP.server s _ (.again hc)
      remove := fun s c hc => hP.server s _ (.remove hc)
      call := fun s c req hc hlen h => hP.dnsServerCb (.tcp hc) hlen h }
  have hread := hkept.readCb rounds res h
  unfold Proxy.readEvent
  split <;> simp_all [hP.halt]

/-- Every event keeps the property, if accepting a connection and replacing the resolver list
do. -/
theorem step (hP : KeptByProxy env P) (e : ProxyEvent)
    (haccept : ∀ r, e = .accept r → s.tcp.acceptWatcher = true → P s →
      P { s with tcp := s.tcp.acceptCb r })
    (hpoll : ∀ addrList, e = .poll addrList → s.running = true → s.dnsPoller = true → P s →
      P (s.newResolv env addrList)) (h : P s) : P (s.step env e) := by
  unfold Proxy.step
  by_cases hrun : s.running = false
  · rw [if_pos hrun]
    exact h
  rw [if_neg hrun]
  have hrun' : s.running = true := by simpa using hrun
  cases e with
  | accept r =>
    simp only
    split_ifs with hwatcher
    · exact haccept r rfl hwatcher h
    · exact h
  | tcpRead block rounds res =>
    simp only
    split_ifs
    · exact hP.readEvent block rounds res h
    · exact h
  | tcpTimeout block =>
    simp only
    split_ifs with hw
    · obtain ⟨c, hc, -⟩ := (Option.any_eq_true _ _).1 hw
      exact hP.server s _ (.remove hc) h
    · exact h
  | udp r =>
    simp only
    split_ifs with hserver
    · split
      · exact h
      next raddr dnsReq hr =>
        exact hP.dnsServerCb (.udp raddr hserver) (length_of_watcherCb hr) h
    · exact h
  | sock fd msgs => exact keep_steps hP.client (s.https.steps_step env.lib _ (by simp)) h
  | timer msgs => exact keep_steps hP.client (s.https.steps_step env.lib _ (by simp)) h
  | resetTimer => exact keep_steps hP.client (s.https.steps_step env.lib _ (by simp)) h
  | poll addrList =>
    simp only
    split_ifs with hpoller
    · rw [dnsPollCb_eq]
      split_ifs
      · exact hP.halt s h
      · exact h
      · exact hpoll addrList rfl hrun' hpoller h
    · exact h
  | statTimer => exact hP.print s h

end KeptByProxy

/-! ## What the options fix -/

/-- The proxy is as the options say. -/
structure Configured (opt : Options) (s : Proxy) : Prop where
  usingDnsPoller : s.usingDnsPoller = opt.hostname.isSome
  hostname : s.hostname = opt.hostname.getD []
  dnsPoller : s.dnsPoller = opt.hostname.isSome

theorem Configured.of_sameApp {opt : Options} {s' : Proxy} (h : Configured opt s)
    (hs : SameApp s s') : Configured opt s' :=
  ⟨hs.usingDnsPoller.trans h.usingDnsPoller, hs.hostname.trans h.hostname,
    hs.dnsPoller.trans h.dnsPoller⟩

theorem kept_configured (env : Environment) (opt : Options) :
    KeptByProxy env (Configured opt) where
  server _ _ _ h := ⟨h.1, h.2, h.3⟩
  client s c _ h := h.of_sameApp (sameApp_advance env s c)
  request s isTcp origin raddr dnsReq hrun _ _ _ h := by
    obtain ⟨stat, heq⟩ := s.takeRequest_eq env hrun isTcp origin raddr dnsReq
    rw [heq]
    exact ⟨h.1, h.2, h.3⟩
  print _ h := ⟨h.1, h.2, h.3⟩
  halt _ h := ⟨h.1, h.2, h.3⟩

theorem configured_newResolv {opt : Options} (addrList : CString) (h : Configured opt s) :
    Configured opt (s.newResolv env addrList) := by
  refine Configured.of_sameApp ?_ (sameApp_advance env _ _)
  rw [replaceResolv, freeResolv_eq]
  exact ⟨h.1, h.2, h.3⟩

theorem configured_step {opt : Options} (e : ProxyEvent) (h : Configured opt s) :
    Configured opt (s.step env e) :=
  (kept_configured env opt).step e (fun _ _ _ h => ⟨h.1, h.2, h.3⟩)
    (fun addrList _ _ _ => configured_newResolv addrList) h

theorem configured_start (env : Environment) (opt : Options) : Configured opt (start env opt) :=
  ⟨rfl, rfl, rfl⟩

/-- The options fix this for the whole run. -/
theorem configured_run (env : Environment) (opt : Options) (es : List ProxyEvent) :
    Configured opt (run env opt es) :=
  Runs.invariant (fun _ e => configured_step e) es (configured_start env opt)

end Proxy

end HttpsDnsProxy
