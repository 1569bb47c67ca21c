import HttpsDnsProxy.Bytes
import HttpsDnsProxy.LinkedLists

/-!
# The TCP server and its client table

`dns_server_tcp.c` keeps the accepted connections in a singly linked list, newest first,
with a count, and suspends its accept watcher while the count is at the limit. This file
has the state and the functions that change the table : `acceptCb`, `removeClient`,
`timerCb`, `dnsServerTcpCreate` and `dnsServerTcpStop`.

A `struct tcp_client_s` is identified by its block, the number of its `calloc`. Blocks
are not reused, so a block also names the connection the struct was made for. Unsigned
counters wrap at their C width. A watcher is `true` while libev has it active.
-/

namespace HttpsDnsProxy

open Bytes

/-- `DNS_HEADER_LENGTH`. -/
def dnsHeaderLength : ℕ := 12

/-- `DNS_SIZE_LIMIT`. -/
def dnsSizeLimit : ℕ := 512

/-- `DNS_REQUEST_BUFFER_SIZE`. -/
def dnsRequestBufferSize : ℕ := 4096

/-- `TCP_DNS_MAX_PAYLOAD`, that is `UINT16_MAX - sizeof(uint16_t)`. -/
def tcpDnsMaxPayload : ℕ := 65533

/-- `errno` after a failed socket call, as far as the callers tell values apart. -/
inductive Errno where
  | eagain
  | ewouldblock
  | econnreset
  | other (code : ℕ)
  deriving DecidableEq, Repr

/-- `errno == EAGAIN || errno == EWOULDBLOCK`. -/
def Errno.wouldBlock (e : Errno) : Bool :=
  e = .eagain || e = .ewouldblock

/-- The bytes of a socket address. A `sockaddr_storage` holds zeros behind them. -/
abbrev SockAddr := List UInt8

/-- The first `n` bytes of a `sockaddr_storage`. -/
def sockBytes (a : SockAddr) (n : ℕ) : List UInt8 :=
  (List.range n).map fun i => a.getD i 0

@[simp] theorem length_sockBytes (a : SockAddr) (n : ℕ) : (sockBytes a n).length = n := by
  simp [sockBytes]

/-- An address of the right length is copied as it is. -/
theorem sockBytes_eq {a : SockAddr} {n : ℕ} (h : a.length = n) : sockBytes a n = a := by
  refine List.ext_getElem (by simp [h]) fun i hi hi' => ?_
  simp [sockBytes, List.getD, hi']

/-- Copying an address once or twice is the same. -/
theorem sockBytes_sockBytes (a : SockAddr) (n : ℕ) : sockBytes (sockBytes a n) n = sockBytes a n :=
  sockBytes_eq (length_sockBytes a n)

/-- `memcmp(a, b, n) == 0`. -/
def sameSockAddr (a b : SockAddr) (n : ℕ) : Bool :=
  sockBytes a n = sockBytes b n

/-- `struct tcp_client_s`. -/
structure TcpClient where
  /-- The `calloc` that made the struct. -/
  block : ℕ
  /-- `uint64_t`. -/
  id : ℕ
  sock : ℤ
  raddr : SockAddr
  addrLen : ℕ
  inputBuffer : Mem
  /-- `uint32_t`. -/
  inputBufferSize : ℕ
  /-- `uint32_t`. -/
  inputBufferUsed : ℕ
  readWatcher : Bool
  timerWatcher : Bool

/-- `struct dns_server_tcp_s`, with the number of the next `calloc`. -/
structure DnsServerTcp where
  acceptWatcher : Bool
  /-- `uint64_t`. -/
  clientId : ℕ
  /-- `uint16_t`. -/
  clientCount : ℕ
  /-- `uint16_t`. -/
  clientLimit : ℕ
  /-- The linked list, from its head. -/
  clients : List TcpClient
  nextBlock : ℕ

/-- What `accept` gave : a socket with the peer's address, or an error, and then the
address variable holds what was on the stack. -/
inductive AcceptResult where
  | sock (fd : ℕ) (addr : SockAddr)
  | error (e : Errno) (stack : SockAddr)

/-- `sizeof(struct sockaddr_storage)`. -/
def sockaddrStorageSize : ℕ := 128

namespace DnsServerTcp

variable (d : DnsServerTcp)

/-- The struct at `block`, if it is in the list. -/
def find (block : ℕ) : Option TcpClient :=
  d.clients.find? fun c => c.block = block

/-- The server after the struct at `client.block` is written. -/
def update (client : TcpClient) : DnsServerTcp :=
  { d with clients := d.clients.map fun c => if c.block = client.block then client else c }

/-- `ev_timer_again(d->loop, &client->timer_watcher)`. -/
def timerAgain (block : ℕ) : DnsServerTcp :=
  { d with clients := d.clients.map fun c =>
      if c.block = block then { c with timerWatcher := true } else c }

/-- `remove_client`. The struct's watchers go with it. -/
def removeClient (block : ℕ) : DnsServerTcp :=
  { d with
    acceptWatcher := if d.clientCount = d.clientLimit then true else d.acceptWatcher
    clientCount := wrapSub (2 ^ 16) d.clientCount 1
    clients := LinkedLists.unlink TcpClient.block block d.clients }

/-- `accept_cb` from `d->client_id++` on : a client for the descriptor `sock`. -/
def addClient (sock : ℤ) (clientAddr : SockAddr) (clientAddrLen : ℕ) : DnsServerTcp :=
  let clientId := (d.clientId + 1) % 2 ^ 64
  let clientCount := (d.clientCount + 1) % 2 ^ 16
  { d with
    acceptWatcher := if clientCount = d.clientLimit then false else d.acceptWatcher
    clientId := clientId
    clientCount := clientCount
    clients :=
      { block := d.nextBlock
        id := clientId
        sock := sock
        raddr := sockBytes clientAddr clientAddrLen
        addrLen := clientAddrLen
        inputBuffer := fun _ => 0
        inputBufferSize := 0
        inputBufferUsed := 0
        readWatcher := true
        timerWatcher := true } :: d.clients
    nextBlock := d.nextBlock + 1 }

/-- `accept_cb`. An `EAGAIN` or `EWOULDBLOCK` passes the error check with the descriptor
`-1` and the address length `accept` was given. -/
def acceptCb : AcceptResult → DnsServerTcp
  | .sock fd addr => d.addClient fd addr addr.length
  | .error e stack => if e.wouldBlock then d.addClient (-1) stack sockaddrStorageSize else d

/-- `timer_cb` of the client at `block`. -/
def timerCb (block : ℕ) : DnsServerTcp :=
  d.removeClient block

/-- `while (d->clients) remove_client(d->clients);`, at most `n` times. -/
def removeClients : ℕ → DnsServerTcp → DnsServerTcp
  | 0, d => d
  | n + 1, d =>
    match d.clients with
    | [] => d
    | client :: _ => removeClients n (d.removeClient client.block)

/-- `dns_server_tcp_stop`. -/
def dnsServerTcpStop : DnsServerTcp :=
  { removeClients d.clients.length d with acceptWatcher := false }

end DnsServerTcp

/-- `dns_server_tcp_create`. -/
def dnsServerTcpCreate (tcpClientLimit : ℕ) : DnsServerTcp where
  acceptWatcher := true
  clientId := 0
  clientCount := 0
  clientLimit := tcpClientLimit
  clients := []
  nextBlock := 0

/-! ## What each function does to the list -/

namespace DnsServerTcp

variable {d : DnsServerTcp}

theorem find_eq_some {block : ℕ} {c : TcpClient} (h : d.find block = some c) :
    c ∈ d.clients ∧ c.block = block :=
  ⟨List.mem_of_find?_eq_some h, by simpa using List.find?_some h⟩

theorem find_eq_none {block : ℕ} : d.find block = none ↔ ∀ c ∈ d.clients, c.block ≠ block := by
  simp [find]

/-- `remove_client` takes exactly the client out and keeps the order of the others. -/
theorem clients_removeClient (block : ℕ) :
    (d.removeClient block).clients = d.clients.eraseP fun c => c.block = block :=
  LinkedLists.unlink_eq_eraseP block d.clients

theorem clients_removeClient_head {c : TcpClient} {cs : List TcpClient} (h : d.clients = c :: cs) :
    (d.removeClient c.block).clients = cs := by
  rw [clients_removeClient, h]
  simp

/-- The loop of `dns_server_tcp_stop` ends with an empty list. -/
theorem clients_removeClients :
    ∀ (n : ℕ) (d : DnsServerTcp), d.clients.length ≤ n → (removeClients n d).clients = []
  | 0, d, h => by simpa [removeClients] using h
  | n + 1, d, h => by
    cases hc : d.clients with
    | nil => simp [removeClients, hc]
    | cons c cs =>
      have hlen : (d.removeClient c.block).clients.length ≤ n := by
        rw [clients_removeClient_head hc]
        simpa [hc] using h
      simpa [removeClients, hc] using clients_removeClients n _ hlen

theorem clients_dnsServerTcpStop : d.dnsServerTcpStop.clients = [] :=
  clients_removeClients _ d le_rfl

theorem map_block_update (client : TcpClient) :
    (d.update client).clients.map TcpClient.block = d.clients.map TcpClient.block := by
  simp only [update, List.map_map]
  refine List.map_congr_left fun c _ => ?_
  simp only [Function.comp_apply]
  split_ifs with h
  · exact h.symm
  · rfl

theorem map_block_timerAgain (block : ℕ) :
    (d.timerAgain block).clients.map TcpClient.block = d.clients.map TcpClient.block := by
  simp only [timerAgain, List.map_map]
  refine List.map_congr_left fun c _ => ?_
  simp only [Function.comp_apply]
  split_ifs <;> rfl

theorem find_map (f : TcpClient → TcpClient) (hf : ∀ c, (f c).block = c.block) (block : ℕ) :
    ({ d with clients := d.clients.map f } : DnsServerTcp).find block = (d.find block).map f := by
  simp only [find, List.find?_map]
  congr 2
  funext c
  simp [hf]

/-- A written struct is read back. -/
theorem find_update {block : ℕ} {c client : TcpClient} (h : d.find block = some c)
    (hb : client.block = block) : (d.update client).find block = some client := by
  have hf : ∀ c : TcpClient, (if c.block = client.block then client else c).block = c.block := by
    intro c
    split_ifs with hc
    · exact hc.symm
    · rfl
  rw [update, find_map _ hf, h, Option.map_some, if_pos ((find_eq_some h).2.trans hb.symm)]

theorem find_timerAgain {block : ℕ} {c : TcpClient} (h : d.find block = some c) :
    (d.timerAgain block).find block = some { c with timerWatcher := true } := by
  rw [timerAgain, find_map _ (fun c => by split_ifs <;> rfl), h, Option.map_some,
    if_pos (find_eq_some h).2]

/-- Writing another struct changes nothing at `block`. -/
theorem find_update_ne {block : ℕ} {client : TcpClient} (hb : client.block ≠ block) :
    (d.update client).find block = d.find block := by
  have hf : ∀ c : TcpClient, (if c.block = client.block then client else c).block = c.block := by
    intro c
    split_ifs with hc
    · exact hc.symm
    · rfl
  rw [update, find_map _ hf]
  cases h : d.find block with
  | none => rfl
  | some c => rw [Option.map_some, if_neg fun hc => hb (hc.symm.trans (find_eq_some h).2)]

end DnsServerTcp

end HttpsDnsProxy
