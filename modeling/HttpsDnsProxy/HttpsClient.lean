import HttpsDnsProxy.CStrings
import HttpsDnsProxy.LinkedLists

/-!
# The HTTPS client

`https_client.c` keeps the transfers in flight in a singly linked list, newest first, and
drives them through libcurl. A fetch is put at the head of the list, and it is taken out of
its place when its transfer is done, or from the head when the client is reset or closed
down. Whichever way, `httpsFetchCtxCleanup` runs its callback.

libcurl is a parameter (`Libcurl`) : for each call, counted over the run, what it returns
and which of the callbacks registered with it run inside it. What the client does outside
itself is its `effects` : the fetches started, the transfers ended, the response callbacks
and the connection counters of the statistics, in order. A response callback does not
touch the client, so carrying the effects out after the client's own function returns
comes to the same.

A `struct https_fetch_ctx` and its easy handle are numbered by the `calloc` of the struct.
Numbers are not reused.
-/

namespace HttpsDnsProxy

/-- `HTTPS_SOCKET_LIMIT`. -/
def httpsSocketLimit : ℕ := 12

/-- `DOH_MAX_RESPONSE_SIZE`. -/
def dohMaxResponseSize : ℕ := 65535

/-- `DOH_CONTENT_TYPE`. -/
def dohContentType : CString := "application/dns-message".toList

/-! ## libcurl -/

/-- `CURLcode`, as far as the client tells values apart. -/
inductive CurlCode where
  | ok
  | writeError
  | operationTimedout
  | other (code : ℕ)
  deriving DecidableEq, Repr

/-- `CURLMcode`, as far as the client tells values apart. -/
inductive CurlMCode where
  | ok
  | abortedByCallback
  | other (code : ℕ)
  deriving DecidableEq, Repr

/-- The `what` of a socket callback : `CURL_POLL_NONE` to `CURL_POLL_REMOVE`. -/
inductive CurlPoll where
  | none
  | input
  | output
  | both
  | remove
  deriving DecidableEq, Repr

/-- `what & CURL_POLL_IN`. -/
def CurlPoll.wantsRead (what : CurlPoll) : Bool :=
  what = .input || what = .both

/-- `what & CURL_POLL_OUT`. -/
def CurlPoll.wantsWrite (what : CurlPoll) : Bool :=
  what = .output || what = .both

/-- A `struct curl_slist` of one node, identified by its allocation. -/
structure SList where
  block : ℕ
  data : CString
  deriving DecidableEq, Repr

/-- A callback about sockets and timers that libcurl runs, with the outcome of the system
call in it : the socket that `socket` gives, whether `close` succeeds. -/
inductive SocketCallback where
  | openSocket (sock : Option ℕ)
  | closeSocket (closed : Bool)
  | multiSock (sock : ℕ) (what : CurlPoll)
  | multiTimer (timeoutMs : ℤ)
  deriving DecidableEq, Repr

/-- A callback that libcurl runs while transfers make progress. `write` is a piece of the
body for the transfer of an easy handle, with whether its `realloc` succeeds. -/
inductive TransferCallback where
  | socket (cb : SocketCallback)
  | write (curl : ℕ) (chunk : List UInt8) (realloc : Bool)
  deriving DecidableEq, Repr

/-- What a call on the multi handle does : the callbacks in it and the code it returns. -/
structure MultiCall where
  callbacks : List SocketCallback
  code : CurlMCode

/-- What `curl_multi_socket_action` does. -/
structure SocketAction where
  callbacks : List TransferCallback
  code : CurlMCode

/-- libcurl as the client sees it. Each function is of the number of the call. The two
`setopt` functions say whether every option of a new handle is accepted. -/
structure Libcurl where
  easySetopt : ℕ → Bool
  multiSetopt : ℕ → Bool
  addHandle : ℕ → MultiCall
  removeHandle : ℕ → MultiCall
  socketAction : ℕ → SocketAction
  multiCleanup : ℕ → List SocketCallback

/-- What `curl_easy_getinfo` gives for a finished transfer. A value is absent where the call
fails, and the content type may also be a NULL pointer. -/
structure TransferInfo where
  responseCode : Option ℕ
  contentType : Option (Option CString)
  numConnects : Option ℕ
  deriving DecidableEq, Repr

/-- A message that `curl_multi_info_read` returns. -/
inductive CurlMsg where
  | done (easyHandle : ℕ) (result : CurlCode) (info : TransferInfo)
  | other
  deriving DecidableEq, Repr

/-! ## The state -/

/-- `struct https_fetch_ctx`, with the options of its handle that point to memory of the
caller. -/
structure HttpsFetchCtx (ρ : Type*) where
  block : ℕ
  curl : ℕ
  /-- `uint16_t`. -/
  id : ℕ
  cbData : ρ
  /-- The buffer, absent while it is NULL. `buflen` is its length. -/
  buf : Option (List UInt8)
  /-- `CURLOPT_RESOLVE`. -/
  resolve : Option SList
  /-- `CURLOPT_POSTFIELDS`. -/
  postfields : List UInt8
  deriving DecidableEq

/-- An `ev_io` of the client : its descriptor, 0 in a free slot, and the events it waits
for. -/
structure IoEvent where
  fd : ℕ
  read : Bool
  write : Bool
  active : Bool
  deriving DecidableEq, Repr

/-- What the client does outside itself. -/
inductive HttpsEffect (ρ : Type*) where
  | started (ctx : HttpsFetchCtx ρ)
  | ended (block : ℕ) (result : CurlCode) (info : TransferInfo) (body : Option (List UInt8))
  | call (block : ℕ) (data : ρ) (buf : Option (List UInt8))
  | connectionOpened
  | connectionClosed
  | connectionReused

/-- `https_client_t`, with the libcurl calls it has made and its effects. -/
structure HttpsClient (ρ : Type*) where
  curlm : ℕ
  headerList : List CString
  fetches : List (HttpsFetchCtx ρ)
  /-- The timeout the timer is set to, if it is active. -/
  timer : Option ℕ
  ioEvents : List IoEvent
  connections : ℤ
  /-- `stat` is not NULL. -/
  stat : Bool
  resetTimer : Bool
  nextBlock : ℕ
  calls : ℕ
  /-- The process has ended (`FLOG`). -/
  exited : Bool
  effects : List (HttpsEffect ρ)

variable {ρ : Type*}

/-! ## Callbacks of libcurl -/

/-- `write_buffer` : the size it returns, with the context after it. -/
def HttpsFetchCtx.writeBuffer (ctx : HttpsFetchCtx ρ) (chunk : List UInt8) (realloc : Bool) :
    ℕ × HttpsFetchCtx ρ :=
  let buf := ctx.buf.getD []
  if buf.length + chunk.length > dohMaxResponseSize then (0, ctx)
  else if realloc = false then (0, ctx)
  else (chunk.length, { ctx with buf := some (buf ++ chunk) })

/-- The verdict of `https_fetch_ctx_process_response`. A failed lookup of the content type
does not make the response faulty. -/
def faultyResponse (result : CurlCode) (info : TransferInfo) : Bool :=
  let faulty : Bool := result ≠ .ok
  let faulty :=
    match info.responseCode with
    | none => true
    | some code => if code ≠ 200 then true else faulty
  if faulty then true
  else
    match info.contentType with
    | none => false
    | some none => true
    | some (some contentType) => !dohContentType.isPrefixOf contentType

/-- A response that is not faulty : the transfer ended well, with status 200 and the content
type of DNS messages, if it could be looked up. -/
theorem of_faultyResponse {result : CurlCode} {info : TransferInfo}
    (h : faultyResponse result info = false) :
    result = .ok ∧ info.responseCode = some 200 ∧
      ∀ contentType, info.contentType = some contentType →
        ∃ t, contentType = some t ∧ dohContentType <+: t := by
  unfold faultyResponse at h
  cases hcode : info.responseCode with
  | none => simp [hcode] at h
  | some code =>
    by_cases h200 : code = 200 <;> by_cases hok : result = .ok <;> simp [hcode, h200, hok] at h
    refine ⟨hok, by rw [h200], fun contentType htype => ?_⟩
    cases contentType with
    | none => simp [htype] at h
    | some t => exact ⟨t, rfl, by simpa [htype] using h⟩

/-- `get_io_event` : the first slot with the descriptor. -/
def getIoEvent (ioEvents : List IoEvent) (sock : ℕ) : Option ℕ :=
  ioEvents.findIdx? fun w => w.fd = sock

namespace HttpsClient

variable (c : HttpsClient ρ)

/-- The client with one more effect. -/
def emit (e : HttpsEffect ρ) : HttpsClient ρ :=
  { c with effects := c.effects ++ [e] }

/-- `if (client->stat)`, an effect on the connection counters. -/
def tally (e : HttpsEffect ρ) : HttpsClient ρ :=
  if c.stat then c.emit e else c

/-- `opensocket_callback`. -/
def opensocketCallback (sock : Option ℕ) : HttpsClient ρ :=
  if c.connections ≥ httpsSocketLimit then c
  else
    match sock with
    | none => c
    | some _ =>
      ({ c with connections := c.connections + 1 } : HttpsClient ρ).tally .connectionOpened

/-- `closesocket_callback`. -/
def closesocketCallback (closed : Bool) : HttpsClient ρ :=
  if closed = false then c
  else
    let c := { c with connections := c.connections - 1 }
    let c := if c.connections ≤ 0 ∧ c.resetTimer then { c with resetTimer := false } else c
    c.tally .connectionClosed

/-- `multi_sock_cb` : what it returns, with the client after it. -/
def multiSockCb (sock : ℕ) (what : CurlPoll) : ℤ × HttpsClient ρ :=
  let ioEvents :=
    match getIoEvent c.ioEvents sock with
    | some i => c.ioEvents.modify i fun w => { w with active := false, fd := 0 }
    | none => c.ioEvents
  if what = .remove then (0, { c with ioEvents := ioEvents })
  else
    match getIoEvent ioEvents 0 with
    | none => (-1, { c with ioEvents := ioEvents })
    | some i =>
      let w : IoEvent :=
        { fd := sock, read := what.wantsRead, write := what.wantsWrite, active := true }
      (0, { c with ioEvents := ioEvents.set i w })

/-- `multi_timer_cb`. -/
def multiTimerCb (timeoutMs : ℤ) : HttpsClient ρ :=
  { c with timer := if timeoutMs ≥ 0 then some timeoutMs.toNat else none }

/-- One callback about sockets and timers. -/
def socketCallback : SocketCallback → HttpsClient ρ
  | .openSocket sock => c.opensocketCallback sock
  | .closeSocket closed => c.closesocketCallback closed
  | .multiSock sock what => (c.multiSockCb sock what).2
  | .multiTimer timeoutMs => c.multiTimerCb timeoutMs

/-- One callback of a transfer. -/
def transferCallback : TransferCallback → HttpsClient ρ
  | .socket cb => c.socketCallback cb
  | .write curl chunk realloc =>
    { c with fetches := c.fetches.map fun ctx =>
        if ctx.curl = curl then (ctx.writeBuffer chunk realloc).2 else ctx }

/-- A call on the multi handle. -/
def multiCall (call : MultiCall) : CurlMCode × HttpsClient ρ :=
  (call.code, call.callbacks.foldl socketCallback { c with calls := c.calls + 1 })

/-! ## The client's functions -/

variable (lib : Libcurl)

/-- `https_fetch_ctx_process_response` : whether the response is faulty, with the client
after it. -/
def httpsFetchCtxProcessResponse (result : CurlCode) (info : TransferInfo) :
    Bool × HttpsClient ρ :=
  let c := if result = .operationTimedout ∧ c.resetTimer = false then
    { c with resetTimer := true } else c
  (faultyResponse result info,
    if info.numConnects = some 0 then c.tally .connectionReused else c)

/-- `https_fetch_ctx_cleanup` behind `curl_multi_remove_handle`. -/
def finishFetch (prev : Option ℕ) (ctx : HttpsFetchCtx ρ)
    (result : Option (CurlCode × TransferInfo)) : HttpsClient ρ :=
  let (dropReply, c) :=
    match result with
    | none => (true, c)
    | some (result, info) =>
      (c.emit (.ended ctx.block result info ctx.buf)).httpsFetchCtxProcessResponse result info
  let c := c.emit (.call ctx.block ctx.cbData (if dropReply then none else ctx.buf))
  { c with fetches := LinkedLists.unlinkPrev HttpsFetchCtx.block prev ctx.block c.fetches }

/-- `https_fetch_ctx_cleanup` of `ctx`, whose predecessor is `prev`. The result is absent for
a request that is aborted (`curl_result_code` is -1). -/
def httpsFetchCtxCleanup (prev : Option ℕ) (ctx : HttpsFetchCtx ρ)
    (result : Option (CurlCode × TransferInfo)) : HttpsClient ρ :=
  let (code, c) := c.multiCall (lib.removeHandle c.calls)
  if code ≠ .ok then { c with exited := true } else c.finishFetch prev ctx result

/-- `check_multi_info`, on the messages that are there to read. -/
def checkMultiInfo : List CurlMsg → HttpsClient ρ → HttpsClient ρ
  | [], c => c
  | msg :: msgs, c =>
    if c.exited then c
    else
      match msg with
      | .other => checkMultiInfo msgs c
      | .done easyHandle result info =>
        match LinkedLists.findPrev HttpsFetchCtx.block (fun ctx => ctx.curl = easyHandle) none
            c.fetches with
        | none => checkMultiInfo msgs c
        | some (prev, ctx) =>
          checkMultiInfo msgs (c.httpsFetchCtxCleanup lib prev ctx (some (result, info)))

/-- `while (c->fetches) https_fetch_ctx_cleanup(c, NULL, c->fetches, -1);`, at most `n`
times. -/
def dropFetches : ℕ → HttpsClient ρ → HttpsClient ρ
  | 0, c => c
  | n + 1, c =>
    if c.exited then c
    else
      match c.fetches with
      | [] => c
      | ctx :: _ => dropFetches n (c.httpsFetchCtxCleanup lib none ctx none)

/-- `curl_multi_cleanup`. -/
def curlMultiCleanup : HttpsClient ρ :=
  (lib.multiCleanup c.calls).foldl socketCallback { c with calls := c.calls + 1 }

/-- `https_client_cleanup`. -/
def httpsClientCleanup : HttpsClient ρ :=
  let c := dropFetches lib c.fetches.length c
  if c.exited then c
  else
    let c := { c with headerList := [] }
    { c.curlMultiCleanup lib with resetTimer := false }

/-- `https_client_multi_init`. -/
def httpsClientMultiInit (headerList : List CString) : HttpsClient ρ :=
  { c with
    curlm := c.curlm + 1
    headerList := headerList
    calls := c.calls + 1
    exited := c.exited || !lib.multiSetopt c.calls }

/-- `https_client_reset`. -/
def httpsClientReset : HttpsClient ρ :=
  let headerList := c.headerList
  let c := { c with headerList := [] }
  let c := c.httpsClientCleanup lib
  if c.exited then c else c.httpsClientMultiInit lib headerList

/-- The struct that `https_client_fetch` makes. -/
def newCtx (postdata : List UInt8) (resolv : Option SList) (id : ℕ) (data : ρ) :
    HttpsFetchCtx ρ where
  block := c.nextBlock
  curl := c.nextBlock
  id := id
  cbData := data
  buf := none
  resolve := resolv
  postfields := postdata

/-- `https_fetch_ctx_init` before the options : the struct is at the head of the list. -/
def startFetch (postdata : List UInt8) (resolv : Option SList) (id : ℕ) (data : ρ) :
    HttpsClient ρ :=
  let ctx := c.newCtx postdata resolv id data
  ({ c with fetches := ctx :: c.fetches, nextBlock := c.nextBlock + 1 } : HttpsClient ρ).emit
    (.started ctx)

/-- `https_fetch_ctx_init` from the options on. -/
def addFetch : HttpsClient ρ :=
  if lib.easySetopt c.calls = false then { c with exited := true }
  else
    let (code, c) := c.multiCall (lib.addHandle c.calls)
    match code with
    | .ok => c
    | .abortedByCallback => c.httpsClientReset lib
    | .other _ =>
      match c.fetches with
      | [] => c
      | head :: _ => c.httpsFetchCtxCleanup lib none head none

/-- `https_client_fetch`, with `https_fetch_ctx_init`. -/
def httpsClientFetch (postdata : List UInt8) (resolv : Option SList) (id : ℕ) (data : ρ) :
    HttpsClient ρ :=
  (c.startFetch postdata resolv id data).addFetch lib

/-- `curl_multi_socket_action`. -/
def curlMultiSocketAction : CurlMCode × HttpsClient ρ :=
  let action := lib.socketAction c.calls
  (action.code, action.callbacks.foldl transferCallback { c with calls := c.calls + 1 })

/-- `sock_cb`. Behind the `FLOG` it does not go on. -/
def sockCb (msgs : List CurlMsg) : HttpsClient ρ :=
  let (code, c) := c.curlMultiSocketAction lib
  if code = .ok then checkMultiInfo lib msgs c else { c with exited := true }

/-- `timer_cb`. The timer has stopped by itself. -/
def timerCb (msgs : List CurlMsg) : HttpsClient ρ :=
  let c := { c with timer := none }
  let (_, c) := c.curlMultiSocketAction lib
  checkMultiInfo lib msgs c

/-- `reset_timer_cb`. The timer has stopped by itself. -/
def resetTimerCb : HttpsClient ρ :=
  ({ c with resetTimer := false } : HttpsClient ρ).httpsClientReset lib

end HttpsClient

/-- `https_client_init`. -/
def httpsClientInit (lib : Libcurl) (stat : Bool) : HttpsClient ρ :=
  ({ curlm := 0
     headerList := []
     fetches := []
     timer := none
     ioEvents := List.replicate httpsSocketLimit
       { fd := 0, read := false, write := false, active := false }
     connections := 0
     stat := stat
     resetTimer := false
     nextBlock := 0
     calls := 0
     exited := false
     effects := [] } : HttpsClient ρ).httpsClientMultiInit lib
    ["Accept: application/dns-message".toList, "Content-Type: application/dns-message".toList]

/-! ## What libcurl's callbacks leave alone -/

/-- An effect on the connection counters. -/
def HttpsEffect.isConnection : HttpsEffect ρ → Bool
  | .connectionOpened | .connectionClosed | .connectionReused => true
  | _ => false

/-- Only the buffer of a context changes while its transfer makes progress. -/
theorem HttpsFetchCtx.writeBuffer_eq (ctx : HttpsFetchCtx ρ) (chunk : List UInt8)
    (realloc : Bool) : ∃ buf, (ctx.writeBuffer chunk realloc).2 = { ctx with buf := buf } := by
  unfold writeBuffer
  simp only
  split_ifs
  · exact ⟨ctx.buf, rfl⟩
  · exact ⟨ctx.buf, rfl⟩
  · exact ⟨_, rfl⟩

namespace HttpsClient

variable (c : HttpsClient ρ)

@[simp] theorem fetches_emit (e : HttpsEffect ρ) : (c.emit e).fetches = c.fetches := rfl

@[simp] theorem nextBlock_emit (e : HttpsEffect ρ) : (c.emit e).nextBlock = c.nextBlock := rfl

@[simp] theorem effects_emit (e : HttpsEffect ρ) : (c.emit e).effects = c.effects ++ [e] := rfl

/-- The transfers are left alone, and connections are counted at most. -/
structure SocketFrame (c c' : HttpsClient ρ) : Prop where
  fetches : c'.fetches = c.fetches
  nextBlock : c'.nextBlock = c.nextBlock
  exited : c'.exited = c.exited
  effects : ∃ es, c'.effects = c.effects ++ es ∧ ∀ e ∈ es, e.isConnection = true

variable {c}

theorem SocketFrame.of_eq {c' : HttpsClient ρ} (hf : c'.fetches = c.fetches)
    (hn : c'.nextBlock = c.nextBlock) (hx : c'.exited = c.exited) (he : c'.effects = c.effects) :
    SocketFrame c c' :=
  ⟨hf, hn, hx, [], by rw [he, List.append_nil], by simp⟩

theorem SocketFrame.trans {c' c'' : HttpsClient ρ} (h : SocketFrame c c')
    (h' : SocketFrame c' c'') : SocketFrame c c'' := by
  obtain ⟨es, hes, hconn⟩ := h.effects
  obtain ⟨es', hes', hconn'⟩ := h'.effects
  refine ⟨h'.fetches.trans h.fetches, h'.nextBlock.trans h.nextBlock, h'.exited.trans h.exited,
    es ++ es', by rw [hes', hes, List.append_assoc], fun e he => ?_⟩
  rcases List.mem_append.1 he with he | he
  · exact hconn e he
  · exact hconn' e he

variable (c)

theorem socketFrame_tally (e : HttpsEffect ρ) (he : e.isConnection = true) :
    SocketFrame c (c.tally e) := by
  unfold tally
  split_ifs
  · exact ⟨rfl, rfl, rfl, [e], rfl, by simpa using he⟩
  · exact .of_eq rfl rfl rfl rfl

/-- A property that the callbacks about sockets and timers keep : a connection is opened within
the limit, or closed, and with the last one the reset timer stops, or the watchers or the timer
are set. -/
structure KeptBySockets (P : HttpsClient ρ → Prop) : Prop where
  opens : ∀ c : HttpsClient ρ, c.connections < httpsSocketLimit → P c →
    P (({ c with connections := c.connections + 1 } : HttpsClient ρ).tally .connectionOpened)
  closes : ∀ (c : HttpsClient ρ) resetTimer,
    (resetTimer = true → c.resetTimer = true ∧ 0 < c.connections - 1) → P c →
    P (({ c with connections := c.connections - 1, resetTimer := resetTimer } :
      HttpsClient ρ).tally .connectionClosed)
  watches : ∀ (c : HttpsClient ρ) ioEvents, P c → P { c with ioEvents := ioEvents }
  timer : ∀ (c : HttpsClient ρ) timer, P c → P { c with timer := timer }

variable {c} in
theorem KeptBySockets.socketCallback {P : HttpsClient ρ → Prop} (hP : KeptBySockets P)
    (h : P c) : ∀ cb : SocketCallback, P (c.socketCallback cb)
  | .openSocket sock => by
    simp only [HttpsClient.socketCallback, opensocketCallback]
    split_ifs with hfull
    · exact h
    · cases sock with
      | none => exact h
      | some fd => exact hP.opens c (Int.not_le.1 hfull) h
  | .closeSocket closed => by
    simp only [HttpsClient.socketCallback, closesocketCallback]
    split_ifs with hclosed hlast
    · exact h
    · exact hP.closes c false (fun ht => by cases ht) h
    · refine hP.closes c c.resetTimer (fun ht => ⟨ht, ?_⟩) h
      exact Int.not_le.1 fun hle => hlast ⟨hle, ht⟩
  | .multiSock sock what => by
    simp only [HttpsClient.socketCallback, multiSockCb]
    split_ifs
    · exact hP.watches c _ h
    · split <;> exact hP.watches c _ h
  | .multiTimer _ => hP.timer c _ h

theorem kept_socketFrame : KeptBySockets (SocketFrame c) where
  opens c' _ h := by
    refine SocketFrame.trans ?_ (socketFrame_tally _ _ rfl)
    exact h.trans (.of_eq rfl rfl rfl rfl)
  closes c' _ _ h := by
    refine SocketFrame.trans ?_ (socketFrame_tally _ _ rfl)
    exact h.trans (.of_eq rfl rfl rfl rfl)
  watches _ _ h := h.trans (.of_eq rfl rfl rfl rfl)
  timer _ _ h := h.trans (.of_eq rfl rfl rfl rfl)

theorem socketFrame_socketCallback (cb : SocketCallback) : SocketFrame c (c.socketCallback cb) :=
  c.kept_socketFrame.socketCallback (.of_eq rfl rfl rfl rfl) cb

theorem socketFrame_foldl : ∀ (cbs : List SocketCallback) (c : HttpsClient ρ),
    SocketFrame c (cbs.foldl socketCallback c)
  | [], _ => .of_eq rfl rfl rfl rfl
  | cb :: cbs, c => (c.socketFrame_socketCallback cb).trans (socketFrame_foldl cbs _)

theorem socketFrame_multiCall (call : MultiCall) : SocketFrame c (c.multiCall call).2 := by
  have h : SocketFrame c { c with calls := c.calls + 1 } := .of_eq rfl rfl rfl rfl
  exact h.trans (socketFrame_foldl call.callbacks _)

variable {c} in
/-- What starting the reset timer and counting a reused connection keep, processing a response
keeps. -/
theorem keep_httpsFetchCtxProcessResponse {P : HttpsClient ρ → Prop}
    (htimer : P { c with resetTimer := true })
    (hreused : ∀ c : HttpsClient ρ, P c → P (c.tally .connectionReused)) (h : P c)
    (result : CurlCode) (info : TransferInfo) :
    P (c.httpsFetchCtxProcessResponse result info).2 := by
  unfold httpsFetchCtxProcessResponse
  simp only
  split_ifs
  · exact hreused _ htimer
  · exact hreused _ h
  · exact htimer
  · exact h

theorem socketFrame_httpsFetchCtxProcessResponse (result : CurlCode) (info : TransferInfo) :
    SocketFrame c (c.httpsFetchCtxProcessResponse result info).2 :=
  keep_httpsFetchCtxProcessResponse (.of_eq rfl rfl rfl rfl)
    (fun _ h => h.trans (socketFrame_tally _ _ rfl)) (.of_eq rfl rfl rfl rfl) result info

/-- What finishing a fetch comes to : its struct is unlinked and its callback has run, with
the body if the transfer ended well. -/
theorem finishFetch_spec (prev : Option ℕ) (ctx : HttpsFetchCtx ρ)
    (result : Option (CurlCode × TransferInfo)) :
    (c.finishFetch prev ctx result).fetches =
        LinkedLists.unlinkPrev HttpsFetchCtx.block prev ctx.block c.fetches ∧
      (c.finishFetch prev ctx result).nextBlock = c.nextBlock ∧
      (c.finishFetch prev ctx result).exited = c.exited ∧
      ((result = none ∧ (c.finishFetch prev ctx result).effects =
          c.effects ++ [.call ctx.block ctx.cbData none]) ∨
        ∃ code info es, result = some (code, info) ∧ (∀ e ∈ es, e.isConnection = true) ∧
          (c.finishFetch prev ctx result).effects =
            c.effects ++ .ended ctx.block code info ctx.buf :: es ++
            [.call ctx.block ctx.cbData (if faultyResponse code info then none else ctx.buf)]) := by
  cases result with
  | none => exact ⟨rfl, rfl, rfl, Or.inl ⟨rfl, rfl⟩⟩
  | some p =>
    obtain ⟨code, info⟩ := p
    have hframe := (c.emit
      (.ended ctx.block code info ctx.buf)).socketFrame_httpsFetchCtxProcessResponse code info
    obtain ⟨es, hes, hconn⟩ := hframe.effects
    refine ⟨?_, hframe.nextBlock, hframe.exited, Or.inr ⟨code, info, es, rfl, hconn, ?_⟩⟩
    · exact congrArg (LinkedLists.unlinkPrev HttpsFetchCtx.block prev ctx.block) hframe.fetches
    · refine (congrArg (· ++ _) hes).trans ?_
      simp

end HttpsClient

end HttpsDnsProxy
