import HttpsDnsProxy.CStrings
import HttpsDnsProxy.DnsServer
import HttpsDnsProxy.Fetches
import HttpsDnsProxy.Stat
import HttpsDnsProxy.TcpRuns

/-!
# The proxy

`main.c` ties the servers to the HTTPS client. `dnsServerCb` makes a `request_t` of a
request from either server and starts a fetch for it, `httpsRespCb` is the fetch's callback
and sends the response back the way the request came, and `dnsPollCb` pins the resolver's
addresses and resets the client when they change.

`Proxy` is `app_state_t` with the parts it points to, and `Proxy.step` one event of the
loop in `main`. The `trace` says what an observer of the process would see, in order : the
requests accepted, the fetches started and ended, the callbacks, the replies given to the
sockets and the memory released. A request has the number of its fetch.

The effects of the client are carried out when its function returns (`advance`).
-/

namespace HttpsDnsProxy

open Bytes

/-- `request_t`. -/
structure Request where
  isTcp : Bool
  dnsReq : List UInt8
  /-- `stat` is not NULL. -/
  stat : Bool
  /-- `uint16_t`. -/
  txId : ℕ
  raddr : SockAddr
  deriving DecidableEq, Repr

/-- What `main` releases or hands to a callback that does. -/
inductive Object where
  | resolv (block : ℕ)
  | dnsReq (n : ℕ)
  | request (n : ℕ)
  | dnsServer
  | dnsServerTcp
  deriving DecidableEq, Repr

/-- What an observer of the process sees. `origin` is the block of the TCP connection a
request came in on, `clients` are the blocks of the connections there are. -/
inductive Observation where
  | accepted (n : ℕ) (isTcp : Bool) (origin : Option ℕ) (source : SockAddr) (dnsReq : List UInt8)
  | started (n : ℕ) (resolve : Option SList)
  | ended (n : ℕ) (result : CurlCode) (info : TransferInfo) (body : Option (List UInt8))
  | callback (n : ℕ)
  | udpReply (n : ℕ) (dest : SockAddr) (datagram : List UInt8)
  | tcpReply (n : ℕ) (resp : List UInt8) (clients : List ℕ) (acts : List TcpAction)
  | released (o : Object)
  deriving DecidableEq, Repr

/-- What the proxy depends on outside its own code. `sends` gives the outcomes of `send` for
a response, `slistAppend` whether `curl_slist_append` succeeds, `latency` the milliseconds a
request has taken : each for the length of the trace at that time, or the number of the
call. `aresRounds` is how long the retrying loops of c-ares deletions are followed. -/
structure Environment where
  lib : Libcurl
  ares : Ares
  aresRounds : ℕ
  sends : ℕ → ℕ → SendResult
  slistAppend : ℕ → Bool
  latency : ℕ → ℕ

/-- `app_state_t` with the servers, the client and the statistics it points to. -/
structure Proxy where
  https : HttpsClient Request
  resolv : Option SList
  /-- The number of the next `curl_slist_append`. -/
  nextSlist : ℕ
  stat : Option Stat
  usingDnsPoller : Bool
  /-- The poller is active : it is initialised and not cleaned up. -/
  dnsPoller : Bool
  hostname : CString
  addrlen : ℕ
  /-- The watcher of the UDP server. -/
  dnsServer : Bool
  tcp : DnsServerTcp
  /-- `dns_server_tcp` is not NULL. -/
  hasTcp : Bool
  trace : List Observation
  /-- A callback has not returned, or the process has ended. -/
  halted : Bool

/-- The string `":443:"`. -/
def port443 : CString := ":443:".toList

/-- `POLLER_ADDR_LIST_SIZE`. -/
def pollerAddrListSize : ℕ := 1024

/-- The loop of `addr_list_reduced` from `pos` on. Each round drops at least one character,
so as many rounds as there are characters, and one more, are enough. -/
def addrListReducedFrom (fullList : CString) : ℕ → CString → Bool
  | 0, _ => false
  | _ + 1, [] => false
  | n + 1, pos =>
    let ipLen := (CStrings.strchr pos ',').getD pos.length
    if ipLen ≥ 50 then true
    else
      match CStrings.strstr (pos.take ipLen) fullList with
      | none => true
      | some matchBegin =>
        if ¬(matchBegin = 0 ∨ fullList[matchBegin - 1]? = some ',') ∨
            ¬(fullList[matchBegin + ipLen]? = some ',' ∨ fullList[matchBegin + ipLen]? = none) then
          true
        else addrListReducedFrom fullList n (pos.drop (ipLen + 1))

/-- `addr_list_reduced`. -/
def addrListReduced (fullList list : CString) : Bool :=
  addrListReducedFrom fullList (list.length + 1) list

namespace Proxy

variable (env : Environment) (s : Proxy)

/-- The process is there and waits for events. -/
def running : Bool :=
  !s.halted && !s.https.exited

/-- One more observation. -/
def note (o : Observation) : Proxy :=
  { s with trace := s.trace ++ [o] }

/-- A change of the counters. -/
def count (f : Counters → Counters) : Proxy :=
  { s with stat := s.stat.map fun stat => stat.count f }

/-- The TCP server inside the proxy. -/
def tcpIn : ServerIn Proxy where
  get := Proxy.tcp
  set s d := { s with tcp := d }
  get_set _ _ := rfl
  set_get _ := rfl
  set_set _ _ _ := rfl

/-! ## The callback of a fetch -/

/-- `https_resp_cb` calling `dns_server_tcp_respond`. -/
def tcpRespond (n : ℕ) (req : Request) (buf : List UInt8) : Proxy :=
  let (d, acts) := s.tcp.dnsServerTcpRespond req.raddr buf (env.sends s.trace.length)
  ({ s with tcp := d } : Proxy).note (.tcpReply n buf (s.tcp.clients.map TcpClient.block) acts)

/-- `https_resp_cb` calling `dns_server_respond`. -/
def udpRespond (n : ℕ) (req : Request) (buf : List UInt8) : Proxy :=
  match dnsServerRespond env.ares env.aresRounds req.dnsReq buf with
  | .dropped => s
  | .sendto datagram => s.note (.udpReply n (sockBytes req.raddr s.addrlen) datagram)
  | .looping => { s with halted := true }

/-- `https_resp_cb` up to its `free` calls. -/
def respond (n : ℕ) (req : Request) : Option (List UInt8) → Proxy
  | none => s
  | some buf =>
    if buf.length < dnsHeaderLength then s
    else if req.txId ≠ be16 (buf.getD 0 0) (buf.getD 1 0) then s
    else
      let s := if req.isTcp then s.tcpRespond env n req buf else s.udpRespond env n req buf
      if req.stat then
        s.count fun c => c.statRequestEnd buf.length (env.latency s.trace.length) req.isTcp
      else s

/-- `https_resp_cb`. -/
def httpsRespCb (n : ℕ) (req : Request) (buf : Option (List UInt8)) : Proxy :=
  let s := (s.note (.callback n)).respond env n req buf
  if s.halted then s
  else (s.note (.released (.dnsReq n))).note (.released (.request n))

/-- One effect of the client. -/
def carryOut (e : HttpsEffect Request) : Proxy :=
  if s.halted then s
  else
    match e with
    | .started ctx => s.note (.started ctx.block ctx.resolve)
    | .ended n result info body => s.note (.ended n result info body)
    | .call n req buf => s.httpsRespCb env n req buf
    | .connectionOpened => s.count Counters.statConnectionOpened
    | .connectionClosed => s.count Counters.statConnectionClosed
    | .connectionReused => s.count Counters.statConnectionReused

/-- A function of the client has left it as `c` : its new effects are carried out. -/
def advance (c : HttpsClient Request) : Proxy :=
  { (c.effects.drop s.https.effects.length).foldl (carryOut env) s with https := c }

/-! ## The callbacks of the servers and of the poller -/

/-- The `request_t` that `dns_server_cb` makes. -/
def newRequest (isTcp : Bool) (raddr : SockAddr) (dnsReq : List UInt8) : Request where
  isTcp := isTcp
  dnsReq := dnsReq
  stat := s.stat.isSome
  txId := be16 (dnsReq.getD 0 0) (dnsReq.getD 1 0)
  raddr := sockBytes raddr s.addrlen

/-- `dns_server_cb` up to `https_client_fetch` : the request is accepted and counted. -/
def acceptRequest (isTcp : Bool) (origin : Option ℕ) (raddr : SockAddr) (dnsReq : List UInt8) :
    Proxy :=
  let s := s.note (.accepted s.https.nextBlock isTcp origin raddr dnsReq)
  s.count fun c => c.statRequestBegin dnsReq.length isTcp

/-- `dns_server_cb`. Nothing calls it once the process has ended. -/
def dnsServerCb (isTcp : Bool) (origin : Option ℕ) (raddr : SockAddr) (dnsReq : List UInt8) :
    Proxy :=
  if s.running = false then s
  else if s.usingDnsPoller ∧ s.resolv = none then s
  else
    let req := s.newRequest isTcp raddr dnsReq
    let s := s.acceptRequest isTcp origin raddr dnsReq
    s.advance env (s.https.httpsClientFetch env.lib dnsReq s.resolv req.txId req)

/-- The buffer of `dns_poll_cb` with the entry for `addrList` in it. -/
def resolvBuffer (hostname addrList : CString) : List Char :=
  let size := 255 + port443.length + pollerAddrListSize
  let buf := List.replicate size CStrings.nul
  let start := hostname ++ port443
  let ipStart := start.length
  let buf := CStrings.snprintf buf 0 (size - 1) start
  CStrings.snprintf buf ipStart (size - 1 - ipStart) addrList

/-- `dns_poll_cb` keeps its list : all addresses in it are still there. -/
def keepsResolv (addrList : CString) : Bool :=
  match s.resolv with
  | none => false
  | some resolv =>
    match CStrings.strstr port443 resolv.data with
    | none => false
    | some k => !addrListReduced addrList (resolv.data.drop (k + port443.length))

/-- `curl_slist_free_all(app->resolv)`. -/
def freeResolv : Proxy :=
  match s.resolv with
  | none => s
  | some resolv => s.note (.released (.resolv resolv.block))

/-- `dns_poll_cb` putting a new list in `app->resolv`. -/
def replaceResolv (addrList : CString) : Proxy :=
  { s.freeResolv with
    resolv :=
      if env.slistAppend s.nextSlist then
        some ⟨s.nextSlist, CStrings.text (resolvBuffer s.hostname addrList)⟩
      else none
    nextSlist := s.nextSlist + 1 }

/-- `dns_poll_cb`. -/
def dnsPollCb (addrList : CString) : Proxy :=
  if s.hostname.length > 254 then { s with halted := true }
  else if s.keepsResolv addrList then s
  else
    let s := s.replaceResolv env addrList
    s.advance env (s.https.httpsClientReset env.lib)

end Proxy

/-! ## Events -/

/-- What the event loop can report. -/
inductive ProxyEvent where
  | accept (r : AcceptResult)
  | tcpRead (block rounds : ℕ) (res : RecvResult)
  | tcpTimeout (block : ℕ)
  | udp (r : RecvfromResult)
  | sock (fd : ℕ) (msgs : List CurlMsg)
  | timer (msgs : List CurlMsg)
  | resetTimer
  | poll (addrList : CString)
  | statTimer

namespace Proxy

variable (env : Environment) (s : Proxy)

/-- `d->cb` of the TCP server. -/
def tcpCb (s : Proxy) (block : ℕ) (raddr : SockAddr) (dnsReq : List UInt8) : Proxy :=
  s.dnsServerCb env true (some block) raddr dnsReq

/-- `read_cb` as an event : the run is halted unless the callback returns. -/
def readEvent (block rounds : ℕ) (res : RecvResult) : Proxy :=
  match readCb tcpIn (tcpCb env) block rounds res s with
  | (.kept, s) => s
  | (.removed, s) => s
  | (_, s) => { s with halted := true }

/-- One event. libev calls a callback only while its watcher is active. -/
def step (e : ProxyEvent) : Proxy :=
  if s.running = false then s
  else
    match e with
    | .accept r => if s.tcp.acceptWatcher then { s with tcp := s.tcp.acceptCb r } else s
    | .tcpRead block rounds res =>
      if (s.tcp.find block).any TcpClient.readWatcher then s.readEvent env block rounds res else s
    | .tcpTimeout block =>
      if (s.tcp.find block).any TcpClient.timerWatcher then { s with tcp := s.tcp.timerCb block }
      else s
    | .udp r =>
      if s.dnsServer then
        match watcherCb r with
        | none => s
        | some (raddr, dnsReq) => s.dnsServerCb env false none raddr dnsReq
      else s
    | .sock fd msgs => s.advance env (s.https.step env.lib (.sock fd msgs))
    | .timer msgs => s.advance env (s.https.step env.lib (.timer msgs))
    | .resetTimer => s.advance env (s.https.step env.lib .resetTimer)
    | .poll addrList => if s.dnsPoller then s.dnsPollCb env addrList else s
    | .statTimer =>
      { s with stat := s.stat.map fun stat => if stat.statsTimer then stat.statPrint else stat }

end Proxy

/-- The options `main` reads : whether there is an interval for the statistics, the limit of
TCP clients, the length of the listen address and the hostname in the resolver's URL, absent
if the poller is not used. -/
structure Options where
  statsInterval : Bool
  tcpClientLimit : ℕ
  addrlen : ℕ
  hostname : Option CString

namespace Proxy

variable (env : Environment)

/-- `main` before its first `ev_run`. -/
def start (opt : Options) : Proxy where
  https := httpsClientInit env.lib opt.statsInterval
  resolv := none
  nextSlist := 0
  stat := if opt.statsInterval then some statInit else none
  usingDnsPoller := opt.hostname.isSome
  dnsPoller := opt.hostname.isSome
  hostname := opt.hostname.getD []
  addrlen := opt.addrlen
  dnsServer := true
  tcp :=
    if opt.tcpClientLimit > 0 then dnsServerTcpCreate opt.tcpClientLimit
    else { dnsServerTcpCreate 0 with acceptWatcher := false }
  hasTcp := opt.tcpClientLimit > 0
  trace := []
  halted := false

/-- The run of the events `es` in the first `ev_run`. -/
def run (opt : Options) (es : List ProxyEvent) : Proxy :=
  Runs.run (step env) (start env opt) es

/-- `main` between the two `ev_run` calls. -/
def stop (s : Proxy) : Proxy :=
  let s := { s with dnsPoller := false }
  let s := s.freeResolv
  let s := { s with dnsServer := false }
  let s := if s.hasTcp then { s with tcp := s.tcp.dnsServerTcpStop } else s
  { s with stat := s.stat.map Stat.statStop }

/-- `dns_server_cleanup`, then `dns_server_tcp_cleanup` and `free` of the TCP server. -/
def releaseServers (s : Proxy) : Proxy :=
  let s := s.note (.released .dnsServer)
  if s.hasTcp then s.note (.released .dnsServerTcp) else s

/-- `main` behind the second `ev_run`. -/
def cleanUp (s : Proxy) : Proxy :=
  if s.running = false then s
  else
    let s := s.releaseServers
    let s := s.advance env (s.https.httpsClientCleanup env.lib)
    { s with stat := s.stat.map Stat.statCleanup }

/-- `main` from the end of its first `ev_run` on. The second one handles the events
`drain`. -/
def teardown (s : Proxy) (drain : List ProxyEvent) : Proxy :=
  (Runs.run (step env) s.stop drain).cleanUp env

/-- The states of a process that handles the events `es` in its first loop : in that loop, in
its second loop and when it is closed down. -/
inductive ProcessState (opt : Options) (es : List ProxyEvent) : Proxy → Prop where
  | loop : ProcessState opt es (run env opt es)
  | drain (drain : List ProxyEvent) :
      ProcessState opt es (Runs.run (step env) (run env opt es).stop drain)
  | done (drain : List ProxyEvent) : ProcessState opt es ((run env opt es).teardown env drain)

end Proxy

end HttpsDnsProxy
