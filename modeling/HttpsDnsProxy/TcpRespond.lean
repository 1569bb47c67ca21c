import HttpsDnsProxy.DnsServerTcp
import HttpsDnsProxy.Frames

/-!
# Writing responses to TCP connections

`dnsServerTcpRespond` looks the client up by the peer's address, sends the length of the
response and then the response, in at most fifty attempts. What it does to the socket is
a list of actions : the response it takes up, each `send` with the bytes the kernel took,
and the delays between attempts. The outcomes of the `send` calls are a sequence, the
first for the length.

`wire` is what a connection has received and `attempted` the responses taken up on it.
One response either goes out as one whole frame and the client stays, or the client is
removed (`DnsServerTcp.respondTo_spec`).
-/

namespace HttpsDnsProxy

open Bytes

/-- The outcomes of `send` : the kernel takes at most `n` of the bytes, or an error. -/
inductive SendResult where
  | sent (n : ℕ)
  | error (e : Errno)
  deriving DecidableEq, Repr

/-- The bytes the kernel takes of those offered. -/
def SendResult.taken : SendResult → List UInt8 → List UInt8
  | .sent n, bytes => bytes.take n
  | .error _, _ => []

theorem SendResult.isPrefix_taken : ∀ (r : SendResult) (bytes : List UInt8), r.taken bytes <+: bytes
  | .sent n, bytes => List.take_prefix n bytes
  | .error _, _ => List.nil_prefix

/-- What `dns_server_tcp_respond` does to the socket of the client at `block`. -/
inductive TcpAction where
  | response (block : ℕ) (resp : List UInt8)
  | send (block : ℕ) (written : List UInt8)
  | usleep
  deriving DecidableEq, Repr

/-- The loop that sends the response from `sent` on, with `n` attempts left : the bytes
sent when it is left, or none after a hard error. -/
def sendBody (block : ℕ) (resp : List UInt8) :
    ℕ → (ℕ → SendResult) → ℕ → Option ℕ × List TcpAction
  | 0, _, sent => (some sent, [])
  | n + 1, sends, sent =>
    match sends 0 with
    | .error e =>
      if e.wouldBlock then
        let (res, acts) := sendBody block resp n (fun i => sends (i + 1)) sent
        (res, .send block [] :: acts)
      else (none, [.send block []])
    | .sent k =>
      let written := (resp.drop sent).take k
      let sent := sent + written.length
      if sent = resp.length then (some sent, [.send block written])
      else
        let (res, acts) := sendBody block resp n (fun i => sends (i + 1)) sent
        (res, .send block written :: .usleep :: acts)

namespace DnsServerTcp

variable (d : DnsServerTcp)

/-- The first listed client whose address agrees with `raddr`. -/
def lookup (raddr : SockAddr) : Option TcpClient :=
  d.clients.find? fun cur => sameSockAddr raddr cur.raddr cur.addrLen

/-- `dns_server_tcp_respond` from the lookup on, for the client it found. -/
def respondTo (block : ℕ) (resp : List UInt8) (sends : ℕ → SendResult) :
    DnsServerTcp × List TcpAction :=
  let respSize := toBe16 resp.length
  let written := (sends 0).taken respSize
  if written.length ≠ 2 then (d.removeClient block, [.response block resp, .send block written])
  else
    let (sent, acts) := sendBody block resp 50 (fun i => sends (i + 1)) 0
    (if sent = some resp.length then d.timerAgain block else d.removeClient block,
      .response block resp :: .send block written :: acts)

/-- `dns_server_tcp_respond`. -/
def dnsServerTcpRespond (raddr : SockAddr) (resp : List UInt8) (sends : ℕ → SendResult) :
    DnsServerTcp × List TcpAction :=
  if resp.length < dnsHeaderLength ∨ resp.length > tcpDnsMaxPayload then (d, [])
  else
    match d.lookup raddr with
    | none => (d, [])
    | some client => d.respondTo client.block resp sends

end DnsServerTcp

/-! ## What a connection has received -/

/-- The bytes written to the connection at `block`. -/
def wire (block : ℕ) (acts : List TcpAction) : List UInt8 :=
  acts.flatMap fun
    | .send b written => if b = block then written else []
    | _ => []

/-- The responses taken up on the connection at `block`. -/
def attempted (block : ℕ) (acts : List TcpAction) : List (List UInt8) :=
  acts.filterMap fun
    | .response b resp => if b = block then some resp else none
    | _ => none

@[simp] theorem wire_nil (block : ℕ) : wire block [] = [] := rfl

@[simp] theorem wire_append (block : ℕ) (as bs : List TcpAction) :
    wire block (as ++ bs) = wire block as ++ wire block bs := by
  simp [wire]

@[simp] theorem wire_send (block b : ℕ) (w : List UInt8) (as : List TcpAction) :
    wire block (.send b w :: as) = (if b = block then w else []) ++ wire block as := rfl

@[simp] theorem wire_usleep (block : ℕ) (as : List TcpAction) :
    wire block (.usleep :: as) = wire block as := rfl

@[simp] theorem wire_response (block b : ℕ) (r : List UInt8) (as : List TcpAction) :
    wire block (.response b r :: as) = wire block as := rfl

@[simp] theorem attempted_nil (block : ℕ) : attempted block [] = [] := rfl

@[simp] theorem attempted_append (block : ℕ) (as bs : List TcpAction) :
    attempted block (as ++ bs) = attempted block as ++ attempted block bs := by
  simp [attempted]

@[simp] theorem attempted_send (block b : ℕ) (w : List UInt8) (as : List TcpAction) :
    attempted block (.send b w :: as) = attempted block as := rfl

@[simp] theorem attempted_usleep (block : ℕ) (as : List TcpAction) :
    attempted block (.usleep :: as) = attempted block as := rfl

@[simp] theorem attempted_response (block b : ℕ) (r : List UInt8) (as : List TcpAction) :
    attempted block (.response b r :: as) =
      (if b = block then [r] else []) ++ attempted block as := by
  by_cases h : b = block <;> simp [attempted, h]

/-! ## One response -/

/-- The loop takes up no response. -/
theorem attempted_sendBody (block b : ℕ) (resp : List UInt8) :
    ∀ (n : ℕ) (sends : ℕ → SendResult) (sent : ℕ),
      attempted b (sendBody block resp n sends sent).2 = []
  | 0, _, _ => rfl
  | n + 1, sends, sent => by
    unfold sendBody
    cases sends 0 with
    | error e =>
      simp only
      split_ifs
      · simpa using attempted_sendBody block b resp n _ sent
      · rfl
    | sent k =>
      simp only
      split_ifs
      · rfl
      · simpa using attempted_sendBody block b resp n _ _

/-- The loop writes to its own client only. -/
theorem wire_sendBody_ne {block b : ℕ} (h : block ≠ b) (resp : List UInt8) :
    ∀ (n : ℕ) (sends : ℕ → SendResult) (sent : ℕ), wire b (sendBody block resp n sends sent).2 = []
  | 0, _, _ => rfl
  | n + 1, sends, sent => by
    unfold sendBody
    cases sends 0 with
    | error e =>
      simp only
      split_ifs
      · simpa using wire_sendBody_ne h resp n _ sent
      · simp
    | sent k =>
      simp only
      split_ifs
      · simp [h]
      · simpa [h] using wire_sendBody_ne h resp n _ _

theorem drop_eq_take_append (resp : List UInt8) (sent k : ℕ) :
    resp.drop sent = (resp.drop sent).take k ++
      resp.drop (sent + ((resp.drop sent).take k).length) := by
  rw [← List.drop_drop, List.length_take]
  conv_lhs => rw [← List.take_append_drop k (resp.drop sent)]
  rcases Nat.le_total k (resp.drop sent).length with h | h
  · rw [Nat.min_eq_left h]
  · rw [Nat.min_eq_right h, List.drop_eq_nil_of_le h, List.drop_length]

/-- The loop writes a piece of the response from `sent` on, and counts it. -/
theorem wire_sendBody (block : ℕ) (resp : List UInt8) :
    ∀ (n : ℕ) (sends : ℕ → SendResult) (sent : ℕ), sent ≤ resp.length →
      wire block (sendBody block resp n sends sent).2 <+: resp.drop sent ∧
        ∀ total, (sendBody block resp n sends sent).1 = some total →
          total = sent + (wire block (sendBody block resp n sends sent).2).length
  | 0, _, sent, _ => by simp [sendBody]
  | n + 1, sends, sent, hle => by
    unfold sendBody
    cases sends 0 with
    | error e =>
      simp only
      split_ifs
      · simpa using wire_sendBody block resp n _ sent hle
      · simp
    | sent k =>
      simp only
      split_ifs with hdone
      · refine ⟨by simpa using List.take_prefix k (resp.drop sent), ?_⟩
        rintro total ⟨⟩
        simp
      · have hlen : sent + ((resp.drop sent).take k).length ≤ resp.length := by
          simp only [List.length_take, List.length_drop]
          omega
        obtain ⟨hpre, htotal⟩ := wire_sendBody block resp n (fun i => sends (i + 1)) _ hlen
        refine ⟨?_, fun total ht => ?_⟩
        · have happ := (List.prefix_append_right_inj ((resp.drop sent).take k)).2 hpre
          rw [← drop_eq_take_append] at happ
          simpa only [wire_send, wire_usleep, if_true] using happ
        · rw [htotal total ht]
          simp
          omega

namespace DnsServerTcp

variable {d : DnsServerTcp}

/-- A response is dropped without a trace, or taken up on a listed client. -/
theorem dnsServerTcpRespond_cases (raddr : SockAddr) (resp : List UInt8) (sends : ℕ → SendResult) :
    d.dnsServerTcpRespond raddr resp sends = (d, []) ∨
      ∃ c, d.lookup raddr = some c ∧
        d.dnsServerTcpRespond raddr resp sends = d.respondTo c.block resp sends := by
  unfold dnsServerTcpRespond
  split_ifs
  · exact Or.inl rfl
  · cases d.lookup raddr with
    | none => exact Or.inl rfl
    | some c => exact Or.inr ⟨c, rfl, rfl⟩

theorem mem_of_lookup {raddr : SockAddr} {c : TcpClient} (h : d.lookup raddr = some c) :
    c ∈ d.clients :=
  List.mem_of_find?_eq_some h

theorem attempted_respondTo (block b : ℕ) (resp : List UInt8) (sends : ℕ → SendResult) :
    attempted b (d.respondTo block resp sends).2 = if block = b then [resp] else [] := by
  unfold respondTo
  simp only
  split_ifs <;> simp_all [attempted_sendBody]

/-- A response is taken up if its length is within the bounds, on the client that the lookup
finds. -/
theorem attempted_dnsServerTcpRespond (raddr : SockAddr) (resp : List UInt8)
    (sends : ℕ → SendResult) (b : ℕ) :
    attempted b (d.dnsServerTcpRespond raddr resp sends).2 =
      if dnsHeaderLength ≤ resp.length ∧ resp.length ≤ tcpDnsMaxPayload ∧
        (d.lookup raddr).map TcpClient.block = some b then [resp] else [] := by
  unfold dnsServerTcpRespond
  by_cases hlen : resp.length < dnsHeaderLength ∨ resp.length > tcpDnsMaxPayload
  · rw [if_pos hlen, if_neg (by omega), attempted_nil]
  · rw [if_neg hlen]
    have hlow : dnsHeaderLength ≤ resp.length := by omega
    have hhigh : resp.length ≤ tcpDnsMaxPayload := by omega
    cases d.lookup raddr with
    | none => simp
    | some c => simp [attempted_respondTo, hlow, hhigh]

theorem wire_respondTo_ne {block b : ℕ} (h : block ≠ b) (resp : List UInt8)
    (sends : ℕ → SendResult) : wire b (d.respondTo block resp sends).2 = [] := by
  unfold respondTo
  simp only
  split_ifs <;> simp [h, wire_sendBody_ne h]

/-- A response goes out as one whole frame and its client stays, or part of the frame
goes out and its client is removed. -/
theorem respondTo_spec (block : ℕ) (resp : List UInt8) (sends : ℕ → SendResult) :
    (wire block (d.respondTo block resp sends).2 = Frames.frame resp ∧
        (d.respondTo block resp sends).1 = d.timerAgain block) ∨
      (wire block (d.respondTo block resp sends).2 <+: Frames.frame resp ∧
        (d.respondTo block resp sends).1 = d.removeClient block) := by
  obtain ⟨hpre, htotal⟩ := wire_sendBody block resp 50 (fun i => sends (i + 1)) 0 (Nat.zero_le _)
  have htaken := (sends 0).isPrefix_taken (toBe16 resp.length)
  unfold respondTo
  simp only
  split_ifs with hlen hsent
  · exact Or.inr ⟨by simpa [Frames.frame] using htaken.trans (List.prefix_append _ _), rfl⟩
  · refine Or.inl ⟨?_, rfl⟩
    have hall : wire block (sendBody block resp 50 (fun i => sends (i + 1)) 0).2 = resp := by
      refine List.IsPrefix.eq_of_length (by simpa using hpre) ?_
      have := htotal _ hsent
      omega
    have hsize : (sends 0).taken (toBe16 resp.length) = toBe16 resp.length :=
      htaken.eq_of_length (by simpa using hlen)
    simp [Frames.frame, hall, hsize]
  · have hsize : (sends 0).taken (toBe16 resp.length) = toBe16 resp.length :=
      htaken.eq_of_length (by simpa using hlen)
    refine Or.inr ⟨?_, rfl⟩
    simpa [Frames.frame, hsize] using hpre

/-- Whatever a connection receives of a response is of its frame. -/
theorem wire_dnsServerTcpRespond (raddr : SockAddr) (resp : List UInt8) (sends : ℕ → SendResult)
    (b : ℕ) : wire b (d.dnsServerTcpRespond raddr resp sends).2 <+: Frames.frame resp := by
  rcases d.dnsServerTcpRespond_cases raddr resp sends with hd | ⟨c, -, hd⟩
  · rw [hd]
    exact List.nil_prefix
  · rw [hd]
    by_cases hb : c.block = b
    · subst hb
      rcases d.respondTo_spec c.block resp sends with ⟨hwire, -⟩ | ⟨hwire, -⟩
      · rw [hwire]
      · exact hwire
    · rw [wire_respondTo_ne hb]
      exact List.nil_prefix

end DnsServerTcp

end HttpsDnsProxy
