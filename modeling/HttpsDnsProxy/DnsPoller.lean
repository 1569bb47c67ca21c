import HttpsDnsProxy.IoEvents

/-!
# The bootstrap poller

`dns_poller.c` looks the resolver's host up with c-ares, again and again. A one-shot timer
starts a lookup or has c-ares look after its timeouts, the sockets of c-ares have watchers in
a table of slots, and `ares_cb` ends a lookup and sets the timer for the next one.

What c-ares does inside a call is a list of actions : it tells what its sockets wait for
(`sock_state_cb`), and it ends lookups (`ares_cb`). It ends a lookup once, so it runs
`ares_cb` only while a lookup is outstanding, and `lookups` counts those. Times are in
milliseconds.
-/

namespace HttpsDnsProxy

/-- The status of a lookup, as far as `ares_cb` tells values apart. -/
inductive AresStatus where
  | success
  | edestruction
  | other (code : ℕ)
  deriving DecidableEq, Repr

/-- What c-ares passes to `ares_cb` : a status, and the result unless it is NULL, with its
address nodes. -/
structure AresResult (ν : Type*) where
  status : AresStatus
  nodes : Option (List ν)

/-- What c-ares does inside a call. -/
inductive AresAction (ν : Type*) where
  | sockState (fd : ℕ) (read write : Bool)
  | callback (result : AresResult ν)

/-- `dns_poller_t`, with the lookups c-ares has not ended yet and the results given to
`d->cb`. -/
structure DnsPoller (ν : Type*) where
  pollingInterval : ℕ
  requestOngoing : Bool
  /-- The time the timer is set to, if it is active. -/
  timer : Option ℕ
  ioEvents : List IoEvent
  lookups : ℕ
  polled : List (List ν)
  /-- The process has ended (`FLOG`). -/
  exited : Bool

/-- The number of nameservers `dns_poller_init` counts. -/
def nameservers (bootstrapDns : CString) : ℕ :=
  1 + bootstrapDns.count ','

namespace DnsPoller

variable {ν : Type*} (d : DnsPoller ν)

/-- `sock_state_cb`. -/
def sockStateCb (fd : ℕ) (read write : Bool) : DnsPoller ν :=
  let ioEvents := SlotTable.release IoEvent.fd IoEvent.clear fd d.ioEvents
  if !read && !write then { d with ioEvents := ioEvents }
  else
    let w : IoEvent := { fd := fd, read := read, write := write, active := true }
    match SlotTable.reserve IoEvent.fd w ioEvents with
    | none => { d with ioEvents := ioEvents, exited := true }
    | some ioEvents => { d with ioEvents := ioEvents }

/-- `ares_cb`. -/
def aresCb (result : AresResult ν) : DnsPoller ν :=
  let d := { d with requestOngoing := false }
  let (interval, d) :=
    match result.status, result.nodes with
    | .success, some (node :: nodes) =>
      (d.pollingInterval * 1000, { d with polled := d.polled ++ [node :: nodes] })
    | _, _ => (5000, d)
  if result.status ≠ .edestruction then { d with timer := some interval } else d

/-- One action of c-ares. -/
def act : AresAction ν → DnsPoller ν
  | .sockState fd read write => if d.exited then d else d.sockStateCb fd read write
  | .callback result =>
    if d.exited || d.lookups = 0 then d
    else ({ d with lookups := d.lookups - 1 } : DnsPoller ν).aresCb result

/-- A call of c-ares. -/
def ares (actions : List (AresAction ν)) : DnsPoller ν :=
  actions.foldl act d

/-- `get_timeout`, for what `ares_timeout` gives. -/
def getTimeout (timeout : ℕ) : ℕ :=
  if timeout > 100 then timeout else 100

/-- `timer_cb`, with what c-ares does in `ares_cancel` and in the call behind it. -/
def timerCb (cancelled actions : List (AresAction ν)) (timeout : ℕ) : DnsPoller ν :=
  let d :=
    if d.requestOngoing then d.ares actions
    else
      let d := d.ares cancelled
      let d := { d with requestOngoing := true, lookups := d.lookups + 1 }
      d.ares actions
  if d.requestOngoing then { d with timer := some (getTimeout timeout) } else d

/-- `dns_poller_cleanup` : c-ares ends the lookups it has left, then the timer is stopped. -/
def dnsPollerCleanup : DnsPoller ν :=
  let d := d.ares (List.replicate d.lookups (.callback ⟨.edestruction, none⟩))
  { d with timer := none }

end DnsPoller

/-- `dns_poller_init`. The process ends in it unless c-ares can be set up. -/
def dnsPollerInit {ν : Type*} (aresReady : Bool) (bootstrapDns : CString) (pollingInterval : ℕ) :
    DnsPoller ν where
  pollingInterval := pollingInterval
  requestOngoing := false
  timer := some 0
  ioEvents := List.replicate (nameservers bootstrapDns)
    { fd := 0, read := false, write := false, active := false }
  lookups := 0
  polled := []
  exited := !aresReady

/-! ## Events -/

/-- What happens to the poller : its timer fires, a socket of c-ares is ready, or c-ares runs
its callbacks at another time. -/
inductive PollerEvent (ν : Type*) where
  | timer (cancelled actions : List (AresAction ν)) (timeout : ℕ)
  | sock (fd : ℕ) (actions : List (AresAction ν))
  | ares (actions : List (AresAction ν))

namespace DnsPoller

variable {ν : Type*}

/-- One event. libev calls a callback only while its watcher is active, and a one-shot timer
stops before its callback. -/
def step (d : DnsPoller ν) (e : PollerEvent ν) : DnsPoller ν :=
  if d.exited then d
  else
    match e with
    | .timer cancelled actions timeout =>
      if d.timer.isSome then
        ({ d with timer := none } : DnsPoller ν).timerCb cancelled actions timeout
      else d
    | .sock fd actions =>
      if d.ioEvents.any fun w => w.fd = fd && w.active then d.ares actions else d
    | .ares actions => d.ares actions

end DnsPoller

end HttpsDnsProxy
