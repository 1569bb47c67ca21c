import HttpsDnsProxy.DnsServerTcp

/-!
# Reading requests off a TCP connection

`readCb` appends what `recv` gave to the client's input buffer and splits the buffered
bytes into requests (`splitRequests`), each taken out by `getDnsRequest` and handed to
`d->cb`. The callback runs inside the loop on the whole state around the server
(`ServerIn`), so it may change the server too, and the loop looks its client up again
each time round.

The frame length is computed in 16 bits, as in the source : `2 + req_size` wraps for the
two largest lengths. The loop is bounded by a number of rounds, and `ReadEnd.looping` is
the loop still running after them.
-/

namespace HttpsDnsProxy

open Bytes

/-- The TCP server as a part of a larger state. -/
structure ServerIn (σ : Type*) where
  get : σ → DnsServerTcp
  set : σ → DnsServerTcp → σ
  get_set : ∀ s d, get (set s d) = d
  set_get : ∀ s, set s (get s) = s
  set_set : ∀ s d d', set (set s d) d' = set s d'

/-- Data that `recv` gave, at least one byte and at most the buffer passed to it. `fresh`
is what a `realloc` for this read finds behind the old input buffer. -/
structure Recv where
  data : List UInt8
  data_ne : data ≠ []
  length_le : data.length ≤ dnsRequestBufferSize
  fresh : Mem

/-- The outcomes of `recv`. -/
inductive RecvResult where
  | data (r : Recv)
  | closed
  | error (e : Errno)

/-- How `read_cb` ends : it returns with the client in place or removed, its loop is still
running, the process has ended (`FLOG`), or the client was freed under it. -/
inductive ReadEnd where
  | kept
  | removed
  | looping
  | fatal
  | freed
  deriving DecidableEq, Repr

/-! ## The functions -/

namespace TcpClient

variable (client : TcpClient)

/-- The length the two bytes at the start of the input buffer give. They are read
whether or not they have been received. -/
def reqSize : ℕ :=
  be16 (client.inputBuffer 0) (client.inputBuffer 1)

/-- `get_dns_request` : the request taken out, with the client after it. -/
def getDnsRequest : Option (List UInt8 × TcpClient) :=
  let dataSize := (2 + client.reqSize) % 2 ^ 16
  if dataSize > client.inputBufferUsed then none
  else
    let dnsReq := client.inputBuffer.read 2 client.reqSize
    let used := wrapSub (2 ^ 32) client.inputBufferUsed dataSize
    some (dnsReq,
      { client with
        inputBuffer := client.inputBuffer.move 0 dataSize used
        inputBufferUsed := used })

/-- The doubling loop that sizes the input buffer, from `size`. It has no result if the
process ends in it. Twelve rounds are enough : after ten doublings of 64 the size is over
the limit. -/
def growBuffer (neededSpace : ℕ) : ℕ → ℕ → Option ℕ
  | 0, _ => none
  | n + 1, size =>
    if size < neededSpace then
      if size > tcpDnsMaxPayload then none else growBuffer neededSpace n (size * 2 % 2 ^ 32)
    else some size

/-- What appending a read to the input buffer comes to. -/
inductive Append where
  | tooLarge
  | fatal
  | appended (client : TcpClient)

/-- The part of `read_cb` that appends the data to the input buffer. -/
def appendInput (r : Recv) : Append :=
  let len := r.data.length
  if len > 65535 ∨ client.inputBufferUsed > wrapSub (2 ^ 32) 65535 len then .tooLarge
  else
    let freeSpace := wrapSub (2 ^ 32) client.inputBufferSize client.inputBufferUsed
    let neededSpace := (client.inputBufferUsed + len) % 2 ^ 32
    if neededSpace > tcpDnsMaxPayload then .tooLarge
    else if freeSpace < len then
      match growBuffer neededSpace 12 64 with
      | none => .fatal
      | some size =>
        let buffer := client.inputBuffer.realloc client.inputBufferSize size r.fresh
        .appended { client with
          inputBuffer := buffer.write client.inputBufferUsed r.data
          inputBufferSize := size
          inputBufferUsed := neededSpace }
    else
      .appended { client with
        inputBuffer := client.inputBuffer.write client.inputBufferUsed r.data
        inputBufferUsed := neededSpace }

end TcpClient

section ReadCb

variable {σ : Type*} (L : ServerIn σ) (cb : σ → ℕ → SockAddr → List UInt8 → σ)

/-- The loop `while (get_dns_request(...))` of the client at `block`, for a number of
rounds. The callback gets the block too, which the source does not pass. -/
def splitRequests (block : ℕ) : ℕ → Bool → σ → ReadEnd × σ
  | 0, _, s => (.looping, s)
  | n + 1, requestReceived, s =>
    match (L.get s).find block with
    | none => (.freed, s)
    | some client =>
      match client.getDnsRequest with
      | none =>
        (.kept, if requestReceived then L.set s ((L.get s).timerAgain block) else s)
      | some (dnsReq, client') =>
        let s := L.set s ((L.get s).update client')
        if dnsReq.length < dnsHeaderLength then
          (.removed, L.set s ((L.get s).removeClient block))
        else splitRequests block n true (cb s block client.raddr dnsReq)

/-- `read_cb` of the client at `block`, with its loop cut off after `rounds` rounds. -/
def readCb (block rounds : ℕ) (res : RecvResult) (s : σ) : ReadEnd × σ :=
  match (L.get s).find block with
  | none => (.freed, s)
  | some client =>
    match res with
    | .closed => (.removed, L.set s ((L.get s).removeClient block))
    | .error e =>
      if e.wouldBlock then (.kept, s) else (.removed, L.set s ((L.get s).removeClient block))
    | .data r =>
      match client.appendInput r with
      | .tooLarge => (.removed, L.set s ((L.get s).removeClient block))
      | .fatal => (.fatal, s)
      | .appended client' =>
        splitRequests L cb block rounds false (L.set s ((L.get s).update client'))

end ReadCb

/-! ## What a read can change -/

namespace TcpClient

/-- The struct with another input buffer. -/
def withInput (c : TcpClient) (buffer : Mem) (size used : ℕ) : TcpClient :=
  { c with inputBuffer := buffer, inputBufferSize := size, inputBufferUsed := used }

theorem getDnsRequest_withInput {c c' : TcpClient} {req : List UInt8}
    (h : c.getDnsRequest = some (req, c')) : ∃ m n k, c' = c.withInput m n k := by
  unfold getDnsRequest at h
  simp only at h
  split_ifs at h
  obtain ⟨-, rfl⟩ := Prod.mk.inj (Option.some.inj h)
  exact ⟨_, _, _, rfl⟩

theorem appendInput_withInput {c c' : TcpClient} {r : Recv} (h : c.appendInput r = .appended c') :
    ∃ m n k, c' = c.withInput m n k := by
  unfold appendInput at h
  simp only at h
  split_ifs at h
  · split at h
    · cases h
    · obtain rfl := Append.appended.inj h
      exact ⟨_, _, _, rfl⟩
  · obtain rfl := Append.appended.inj h
    exact ⟨_, _, _, rfl⟩

end TcpClient

/-- A client with its input written is found in its place. -/
theorem DnsServerTcp.find_withInput {d : DnsServerTcp} {block : ℕ} {c : TcpClient}
    (h : d.find block = some c) (m : Mem) (n k : ℕ) :
    (d.update (c.withInput m n k)).find block = some (c.withInput m n k) :=
  find_update h (find_eq_some h).2

section Rule

variable {σ : Type*} {L : ServerIn σ} {cb : σ → ℕ → SockAddr → List UInt8 → σ} {block : ℕ}

/-- What a read of the client at `block` keeps : anything kept by writing the input
buffer of that client, restarting its timer, removing it and calling back with a request
that is long enough. -/
structure KeptByRead (L : ServerIn σ) (cb : σ → ℕ → SockAddr → List UInt8 → σ) (block : ℕ)
    (P : σ → Prop) : Prop where
  input : ∀ s c m n k, (L.get s).find block = some c → P s →
    P (L.set s ((L.get s).update (c.withInput m n k)))
  again : ∀ s c, (L.get s).find block = some c → P s → P (L.set s ((L.get s).timerAgain block))
  remove : ∀ s c, (L.get s).find block = some c → P s → P (L.set s ((L.get s).removeClient block))
  call : ∀ s c req, (L.get s).find block = some c → dnsHeaderLength ≤ req.length → P s →
    P (cb s block c.raddr req)

theorem KeptByRead.splitRequests {P : σ → Prop} (hP : KeptByRead L cb block P) :
    ∀ (n : ℕ) (received : Bool) (s : σ), P s → P (splitRequests L cb block n received s).2
  | 0, _, _, h => h
  | n + 1, received, s, h => by
    unfold HttpsDnsProxy.splitRequests
    cases hf : (L.get s).find block with
    | none => exact h
    | some c =>
      simp only
      cases hg : c.getDnsRequest with
      | none =>
        cases received with
        | false => exact h
        | true => exact hP.again s c hf h
      | some p =>
        obtain ⟨req, c'⟩ := p
        obtain ⟨m, k, j, rfl⟩ := TcpClient.getDnsRequest_withInput hg
        have hin := hP.input s c m k j hf h
        have hfind : (L.get (L.set s ((L.get s).update (c.withInput m k j)))).find block =
            some (c.withInput m k j) := by
          rw [L.get_set, DnsServerTcp.find_withInput hf]
        simp only
        split_ifs with hshort
        · exact hP.remove _ _ hfind hin
        · have hcall := hP.call _ (c.withInput m k j) req hfind (Nat.le_of_not_lt hshort) hin
          exact KeptByRead.splitRequests hP n true _ hcall

/-- Reads keep what their parts keep. -/
theorem KeptByRead.readCb {P : σ → Prop} (hP : KeptByRead L cb block P) (rounds : ℕ)
    (res : RecvResult) {s : σ} (h : P s) : P (readCb L cb block rounds res s).2 := by
  unfold HttpsDnsProxy.readCb
  cases hf : (L.get s).find block with
  | none => exact h
  | some c =>
    cases res with
    | closed => exact hP.remove s c hf h
    | error e =>
      simp only
      split_ifs
      · exact h
      · exact hP.remove s c hf h
    | data r =>
      simp only
      cases ha : c.appendInput r with
      | tooLarge => exact hP.remove s c hf h
      | fatal => exact h
      | appended c' =>
        obtain ⟨m, k, j, rfl⟩ := TcpClient.appendInput_withInput ha
        exact hP.splitRequests rounds false _ (hP.input s c m k j hf h)

/-- A callback that leaves the server alone leaves the client of the loop in its place. -/
theorem splitRequests_ne_freed (hcb : ∀ s raddr req, L.get (cb s block raddr req) = L.get s) :
    ∀ (n : ℕ) (received : Bool) {s : σ}, ((L.get s).find block).isSome →
      (splitRequests L cb block n received s).1 ≠ .freed
  | 0, _, _, _ => by simp [splitRequests]
  | n + 1, received, s, h => by
    obtain ⟨c, hf⟩ := Option.isSome_iff_exists.1 h
    unfold splitRequests
    cases hg : c.getDnsRequest with
    | none => simp [hf, hg]
    | some p =>
      obtain ⟨req, c'⟩ := p
      obtain ⟨m, k, j, rfl⟩ := TcpClient.getDnsRequest_withInput hg
      simp only [hf, hg]
      split_ifs
      · simp
      · refine splitRequests_ne_freed hcb n true ?_
        rw [hcb, L.get_set, DnsServerTcp.find_withInput hf, Option.isSome_some]

theorem readCb_ne_freed (hcb : ∀ s raddr req, L.get (cb s block raddr req) = L.get s)
    (rounds : ℕ) (res : RecvResult) {s : σ} (h : ((L.get s).find block).isSome) :
    (readCb L cb block rounds res s).1 ≠ .freed := by
  obtain ⟨c, hf⟩ := Option.isSome_iff_exists.1 h
  unfold readCb
  simp only [hf]
  cases res with
  | closed => simp
  | error e =>
    simp only
    split_ifs <;> simp
  | data r =>
    simp only
    cases ha : c.appendInput r with
    | tooLarge => simp
    | fatal => simp
    | appended c' =>
      obtain ⟨m, k, j, rfl⟩ := TcpClient.appendInput_withInput ha
      refine splitRequests_ne_freed hcb rounds false ?_
      rw [L.get_set, DnsServerTcp.find_withInput hf, Option.isSome_some]

end Rule

/-! ## What one step does to the buffer -/

namespace TcpClient

variable {c : TcpClient}

/-- The bytes received and not taken out yet. -/
def unread (c : TcpClient) : List UInt8 :=
  c.inputBuffer.read 0 c.inputBufferUsed

@[simp] theorem length_unread (c : TcpClient) : c.unread.length = c.inputBufferUsed := by
  simp [unread]

theorem reqSize_lt (c : TcpClient) : c.reqSize < 65536 :=
  be16_lt _ _

/-- The bounds of the input buffer that every read keeps. -/
structure Bounded (c : TcpClient) : Prop where
  used_le_size : c.inputBufferUsed ≤ c.inputBufferSize
  used_le : c.inputBufferUsed ≤ tcpDnsMaxPayload
  size_eq : c.inputBufferSize = 0 ∨ ∃ k ≤ 10, c.inputBufferSize = 64 * 2 ^ k

theorem Bounded.used_lt (h : c.Bounded) : c.inputBufferUsed < 65534 := by
  have := h.used_le
  unfold tcpDnsMaxPayload at this
  omega

theorem Bounded.size_lt (h : c.Bounded) : c.inputBufferSize < 2 ^ 32 := by
  rcases h.size_eq with h | ⟨k, hk, h⟩
  · omega
  · have : 2 ^ k ≤ 2 ^ 10 := Nat.pow_le_pow_right (by omega) hk
    omega

theorem Bounded.withTimer (h : c.Bounded) (t : Bool) : ({ c with timerWatcher := t }).Bounded :=
  ⟨h.used_le_size, h.used_le, h.size_eq⟩

/-- `input_buffer_used` never underflows : what is taken out was counted. -/
theorem used_of_getDnsRequest (hc : c.Bounded) {req : List UInt8} {c' : TcpClient}
    (h : c.getDnsRequest = some (req, c')) :
    req = c.inputBuffer.read 2 c.reqSize ∧ (2 + c.reqSize) % 2 ^ 16 ≤ c.inputBufferUsed ∧
      c' = { c with
        inputBuffer := c.inputBuffer.move 0 ((2 + c.reqSize) % 2 ^ 16)
          (c.inputBufferUsed - (2 + c.reqSize) % 2 ^ 16)
        inputBufferUsed := c.inputBufferUsed - (2 + c.reqSize) % 2 ^ 16 } := by
  unfold getDnsRequest at h
  simp only at h
  split_ifs at h with hle
  have hle' := Nat.le_of_not_lt hle
  have hlt := hc.used_lt
  rw [wrapSub_of_le hle' (by omega)] at h
  obtain ⟨rfl, rfl⟩ := Prod.mk.inj (Option.some.inj h)
  exact ⟨rfl, hle', rfl⟩

theorem bounded_of_getDnsRequest (hc : c.Bounded) {req : List UInt8} {c' : TcpClient}
    (h : c.getDnsRequest = some (req, c')) : c'.Bounded := by
  obtain ⟨-, -, rfl⟩ := used_of_getDnsRequest hc h
  have h1 := hc.used_le_size
  have h2 := hc.used_le
  exact ⟨by simp only; omega, by simp only; omega, hc.size_eq⟩

/-- From `64 * 2 ^ k` the doubling loop ends at a power with room for what is needed,
and its fatal exit is not taken. -/
theorem growBuffer_from {needed : ℕ} (h : needed ≤ tcpDnsMaxPayload) :
    ∀ (n k : ℕ), k ≤ 10 → 12 ≤ n + k →
      ∃ j ≤ 10, growBuffer needed n (64 * 2 ^ k) = some (64 * 2 ^ j) ∧ needed ≤ 64 * 2 ^ j
  | 0, k, hk, hn => by omega
  | n + 1, k, hk, hn => by
    unfold tcpDnsMaxPayload at h
    have hpow : 2 ^ k ≤ 2 ^ 10 := Nat.pow_le_pow_right (by omega) hk
    rcases Nat.lt_or_ge (64 * 2 ^ k) needed with hlt | hge
    · have hk' : k ≠ 10 := by
        rintro rfl
        omega
      have hnext : 64 * 2 ^ k * 2 % 2 ^ 32 = 64 * 2 ^ (k + 1) := by
        rw [Nat.mod_eq_of_lt (by omega), Nat.pow_succ, Nat.mul_assoc]
      obtain ⟨j, hj, hgrow, hle⟩ := growBuffer_from h n (k + 1) (by omega) (by omega)
      refine ⟨j, hj, ?_, hle⟩
      rw [growBuffer, if_pos hlt, if_neg (by unfold tcpDnsMaxPayload; omega), hnext, hgrow]
    · exact ⟨k, hk, by rw [growBuffer, if_neg (by omega)], hge⟩

/-- The doubling reaches a size for every needed space up to the limit. -/
theorem growBuffer_eq {needed : ℕ} (h : needed ≤ tcpDnsMaxPayload) :
    ∃ j ≤ 10, growBuffer needed 12 64 = some (64 * 2 ^ j) ∧ needed ≤ 64 * 2 ^ j :=
  growBuffer_from h 12 0 (by omega) (by omega)

/-- A read that keeps the buffered bytes within the limit is appended to them. -/
theorem appendInput_eq (hc : c.Bounded) (r : Recv)
    (hle : c.inputBufferUsed + r.data.length ≤ tcpDnsMaxPayload) :
    ∃ c', c.appendInput r = .appended c' ∧ c'.Bounded ∧ c'.unread = c.unread ++ r.data ∧
      c'.inputBufferUsed = c.inputBufferUsed + r.data.length ∧ c'.block = c.block ∧
      c'.raddr = c.raddr := by
  have hsize := hc.used_le_size
  have hlt := hc.used_lt
  have hdata := r.length_le
  have hmax := hle
  unfold tcpDnsMaxPayload at hmax
  unfold dnsRequestBufferSize at hdata
  have hneeded : (c.inputBufferUsed + r.data.length) % 2 ^ 32 =
      c.inputBufferUsed + r.data.length := Nat.mod_eq_of_lt (by omega)
  have hcheck : ¬(r.data.length > 65535 ∨
      c.inputBufferUsed > wrapSub (2 ^ 32) 65535 r.data.length) := by
    rw [wrapSub_of_le (by omega) (by omega)]
    omega
  obtain ⟨j, hj, hgrow, hroom⟩ := growBuffer_eq hle
  unfold appendInput
  simp only [hneeded, if_neg hcheck, if_neg (Nat.not_lt.2 hle), hgrow,
    wrapSub_of_le hsize hc.size_lt]
  split_ifs with hfree
  · refine ⟨_, rfl, ⟨hroom, hle, Or.inr ⟨j, hj, rfl⟩⟩, ?_, rfl, rfl, rfl⟩
    simp only [unread, Mem.read_write_append]
    rw [Mem.read_realloc _ _ (by omega)]
  · refine ⟨_, rfl, ⟨?_, hle, hc.size_eq⟩, ?_, rfl, rfl, rfl⟩
    · simp only
      omega
    · simp only [unread, Mem.read_write_append]

/-- A read that would pass the limit is refused. -/
theorem appendInput_tooLarge (hc : c.Bounded) (r : Recv)
    (hgt : tcpDnsMaxPayload < c.inputBufferUsed + r.data.length) :
    c.appendInput r = .tooLarge := by
  have hlt := hc.used_lt
  have hdata := r.length_le
  unfold dnsRequestBufferSize at hdata
  have hneeded : (c.inputBufferUsed + r.data.length) % 2 ^ 32 =
      c.inputBufferUsed + r.data.length := Nat.mod_eq_of_lt (by omega)
  unfold appendInput
  simp only [hneeded, if_pos hgt]
  split_ifs <;> rfl

end TcpClient

end HttpsDnsProxy
