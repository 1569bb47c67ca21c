import HttpsDnsProxy.TcpRuns

/-!
# One connection's input

`splitRequests` works on the whole server. What it does to one connection is a function of
that connection's buffer alone : `splitInput` is the loop on a single client, `readInput` a
read with data, and `readCb_data` says that the server's read does just this to the client
it is for. `calls` and `readCalls` are the clients on which they call `get_dns_request`, and
`readCb_comesTo` says that the server's read comes to each of these calls.

On the buffer, a length of at most `TCP_DNS_MAX_PAYLOAD` is handled as a frame should be
(`splitInput_sound`). A larger one wraps : the loop hands over a request longer than
everything that is buffered (`splitInput_overrun`).
-/

namespace HttpsDnsProxy

open Bytes

namespace TcpClient

/-- The loop of `read_cb` on its own client : how it ends, the requests it hands over, and
the client after it. -/
def splitInput : ℕ → TcpClient → ReadEnd × List (List UInt8) × TcpClient
  | 0, c => (.looping, [], c)
  | n + 1, c =>
    match c.getDnsRequest with
    | none => (.kept, [], c)
    | some (req, c') =>
      if req.length < dnsHeaderLength then (.removed, [], c')
      else
        let (res, reqs, c'') := splitInput n c'
        (res, req :: reqs, c'')

/-- The client each time the loop calls `get_dns_request`. -/
def calls : ℕ → TcpClient → List TcpClient
  | 0, _ => []
  | n + 1, c =>
    c :: match c.getDnsRequest with
      | none => []
      | some (req, c') => if req.length < dnsHeaderLength then [] else calls n c'

/-- A read with data, on its own client. -/
def readInput (c : TcpClient) (rounds : ℕ) (r : Recv) : ReadEnd × List (List UInt8) × TcpClient :=
  match c.appendInput r with
  | .tooLarge => (.removed, [], c)
  | .fatal => (.fatal, [], c)
  | .appended c' => splitInput rounds c'

/-- The client each time a read with data calls `get_dns_request`. -/
def readCalls (c : TcpClient) (rounds : ℕ) (r : Recv) : List TcpClient :=
  match c.appendInput r with
  | .appended c' => calls rounds c'
  | _ => []

variable {c c' : TcpClient} {req : List UInt8}

/-- The length is that of the first two bytes buffered, once both are there. -/
theorem reqSize_of_unread {hi lo : UInt8} {t : List UInt8} (h : c.unread = hi :: lo :: t) :
    c.reqSize = be16 hi lo := by
  have hlen : c.inputBufferUsed = 2 + t.length := by
    rw [← length_unread, h, List.length_cons, List.length_cons]
    omega
  rw [unread, hlen, Mem.read_two_add, List.cons.injEq, List.cons.injEq] at h
  rw [reqSize, h.1, h.2.1]

/-- The two bytes of a length, read into an empty buffer. -/
theorem appendInput_length (hc : c.Bounded) (hempty : c.unread = []) {r : Recv} {hi lo : UInt8}
    (hdata : r.data = [hi, lo]) :
    ∃ c', c.appendInput r = .appended c' ∧ c'.reqSize = be16 hi lo ∧ c'.inputBufferUsed = 2 := by
  have hused : c.inputBufferUsed = 0 := by rw [← length_unread, hempty, List.length_nil]
  obtain ⟨c', ha, -, hunread, hused', -⟩ :=
    appendInput_eq hc r (by simp [hused, hdata, tcpDnsMaxPayload])
  rw [hempty, hdata, List.nil_append] at hunread
  rw [hused, hdata] at hused'
  exact ⟨c', ha, reqSize_of_unread hunread, hused'⟩

/-- The loop changes the input buffer only. -/
theorem splitInput_withInput :
    ∀ (n : ℕ) (c : TcpClient), ∃ m k j, (c.splitInput n).2.2 = c.withInput m k j
  | 0, c => ⟨c.inputBuffer, c.inputBufferSize, c.inputBufferUsed, rfl⟩
  | n + 1, c => by
    cases hg : c.getDnsRequest with
    | none =>
      refine ⟨c.inputBuffer, c.inputBufferSize, c.inputBufferUsed, ?_⟩
      simp [splitInput, hg, withInput]
    | some p =>
      obtain ⟨req, c'⟩ := p
      obtain ⟨m, k, j, rfl⟩ := getDnsRequest_withInput hg
      by_cases hshort : req.length < dnsHeaderLength
      · exact ⟨m, k, j, by simp [splitInput, hg, hshort]⟩
      · obtain ⟨m', k', j', h⟩ := splitInput_withInput n (c.withInput m k j)
        refine ⟨m', k', j', ?_⟩
        simp only [splitInput, hg, if_neg hshort]
        exact h

theorem readInput_withInput (c : TcpClient) (rounds : ℕ) (r : Recv) :
    ∃ m k j, (c.readInput rounds r).2.2 = c.withInput m k j := by
  unfold readInput
  cases ha : c.appendInput r with
  | tooLarge | fatal => exact ⟨c.inputBuffer, c.inputBufferSize, c.inputBufferUsed, rfl⟩
  | appended c' =>
    obtain ⟨m, k, j, rfl⟩ := appendInput_withInput ha
    obtain ⟨m', k', j', h⟩ := splitInput_withInput rounds (c.withInput m k j)
    exact ⟨m', k', j', h⟩

/-- A read into a buffer within its bounds either is too much for it, or is appended and split. -/
theorem readInput_cases (hc : c.Bounded) (rounds : ℕ) (r : Recv) :
    (c.readInput rounds r = (.removed, [], c) ∧ c.readCalls rounds r = []) ∨
      ∃ c' : TcpClient, c'.Bounded ∧ c'.unread = c.unread ++ r.data ∧
        c'.inputBufferUsed = c.inputBufferUsed + r.data.length ∧
        c.readInput rounds r = c'.splitInput rounds ∧ c.readCalls rounds r = c'.calls rounds := by
  rcases Nat.lt_or_ge tcpDnsMaxPayload (c.inputBufferUsed + r.data.length) with hgt | hle
  · have ha := appendInput_tooLarge hc r hgt
    exact Or.inl ⟨by simp only [readInput, ha], by simp only [readCalls, ha]⟩
  · obtain ⟨c', ha, hbound, hunread, hused, -⟩ := appendInput_eq hc r hle
    exact Or.inr ⟨c', hbound, hunread, hused, by simp only [readInput, ha],
      by simp only [readCalls, ha]⟩

/-! ## Taking one request out -/

/-- A length within the limit is read as it stands : the request is the payload of the frame
the buffer starts with. -/
theorem unread_of_getDnsRequest (hc : c.Bounded) (hfit : c.reqSize ≤ tcpDnsMaxPayload)
    (h : c.getDnsRequest = some (req, c')) :
    req.length = c.reqSize ∧ c.unread = Frames.frame req ++ c'.unread ∧
      (c'.inputBufferUsed = 0 → c'.reqSize = c.reqSize) := by
  obtain ⟨rfl, hle, rfl⟩ := used_of_getDnsRequest hc h
  unfold tcpDnsMaxPayload at hfit
  rw [Nat.mod_eq_of_lt (by omega)] at hle ⊢
  refine ⟨Mem.length_read _ _ _, ?_, fun h0 => ?_⟩
  · obtain ⟨k, hk⟩ := Nat.exists_eq_add_of_le hle
    simp only [unread, hk, Nat.add_sub_cancel_left, Mem.read_move, Mem.read_add _ 0 (2 + _),
      Mem.read_two_add, Nat.zero_add, Frames.frame, Mem.length_read, reqSize, toBe16_be16]
    rfl
  · have hmove : ∀ i, c.inputBuffer.move 0 (2 + c.reqSize) (c.inputBufferUsed - (2 + c.reqSize)) i =
        c.inputBuffer i := fun i => Mem.move_of_ge _ _ (by simp only at h0; omega)
    exact congrArg₂ be16 (hmove 0) (hmove 1)

/-- A request that is not taken out has not arrived. -/
theorem used_lt_of_getDnsRequest_none (hfit : c.reqSize ≤ tcpDnsMaxPayload)
    (h : c.getDnsRequest = none) : c.inputBufferUsed < 2 + c.reqSize := by
  unfold tcpDnsMaxPayload at hfit
  unfold getDnsRequest at h
  simp only at h
  split_ifs at h with hlt
  omega

/-- A length over the limit wraps, and a request of that length is taken out of whatever
is buffered. -/
theorem getDnsRequest_of_wraps (hwrap : tcpDnsMaxPayload < c.reqSize)
    (hpos : 0 < c.inputBufferUsed) :
    ∃ c', c.getDnsRequest = some (c.inputBuffer.read 2 c.reqSize, c') := by
  have hlt := c.reqSize_lt
  unfold tcpDnsMaxPayload at hwrap
  unfold getDnsRequest
  simp only
  rw [if_neg (by omega)]
  exact ⟨_, rfl⟩

/-! ## The loop -/

/-- While every length is within the limit, the loop takes frames off the buffer and stops
with the rest of it. -/
theorem splitInput_sound :
    ∀ (n : ℕ) (c : TcpClient), c.Bounded → (∀ x ∈ c.calls n, x.reqSize ≤ tcpDnsMaxPayload) →
      (∀ p ∈ (c.splitInput n).2.1, p.length < 65536) ∧
        Frames.stream (c.splitInput n).2.1 <+: c.unread ∧
        ((c.splitInput n).1 ≠ .removed → (c.splitInput n).2.2.Bounded ∧
          c.unread = Frames.stream (c.splitInput n).2.1 ++ (c.splitInput n).2.2.unread)
  | 0, c, hc, _ => by simp [splitInput, hc]
  | n + 1, c, hc, hfit => by
    have hfit0 : c.reqSize ≤ tcpDnsMaxPayload := hfit c (by simp [calls])
    cases hg : c.getDnsRequest with
    | none => simp [splitInput, hg, hc]
    | some p =>
      obtain ⟨req, c'⟩ := p
      obtain ⟨hlen, hunread, -⟩ := unread_of_getDnsRequest hc hfit0 hg
      by_cases hshort : req.length < dnsHeaderLength
      · simp [splitInput, hg, hshort]
      · have hcalls : ∀ x ∈ c'.calls n, x.reqSize ≤ tcpDnsMaxPayload := fun x hx =>
          hfit x (by simp [calls, hg, hshort, hx])
        obtain ⟨hall, hpre, hrest⟩ :=
          splitInput_sound n c' (bounded_of_getDnsRequest hc hg) hcalls
        have hlt := c.reqSize_lt
        simp only [splitInput, hg, if_neg hshort, Frames.stream_cons]
        refine ⟨?_, ?_, fun hne => ⟨(hrest hne).1, ?_⟩⟩
        · rintro p (_ | ⟨_, hp⟩)
          · omega
          · exact hall p hp
        · rw [hunread]
          exact (List.prefix_append_right_inj _).2 hpre
        · rw [hunread, List.append_assoc, ← (hrest hne).2]

/-- If a length over the limit comes up, the requests handed over stop being the frames of
the buffer : after some of them follows one that is longer than all the bytes left. -/
theorem splitInput_overrun :
    ∀ (n : ℕ) (c : TcpClient), c.Bounded →
      (0 < c.inputBufferUsed ∨ c.reqSize ≤ tcpDnsMaxPayload) →
      (∃ x ∈ c.calls n, tcpDnsMaxPayload < x.reqSize) →
      ∃ ps q more t, (c.splitInput n).2.1 = ps ++ q :: more ∧ c.unread = Frames.stream ps ++ t ∧
        (∀ p ∈ ps, p.length < 65536) ∧ t.length < q.length
  | 0, c, _, _, hx => by simp [calls] at hx
  | n + 1, c, hc, hpos, hx => by
    by_cases hfit : c.reqSize ≤ tcpDnsMaxPayload
    · cases hg : c.getDnsRequest with
      | none =>
        obtain ⟨x, hx, hgt⟩ := hx
        obtain rfl : x = c := by simpa [calls, hg] using hx
        omega
      | some p =>
        obtain ⟨req, c'⟩ := p
        obtain ⟨hlen, hunread, hstale⟩ := unread_of_getDnsRequest hc hfit hg
        obtain ⟨x, hx, hgt⟩ := hx
        have hne : x ≠ c := by
          rintro rfl
          omega
        by_cases hshort : req.length < dnsHeaderLength
        · simp [calls, hg, hshort, hne] at hx
        · have hx' : x ∈ c'.calls n := by simpa [calls, hg, hshort, hne] using hx
          have hpos' : 0 < c'.inputBufferUsed ∨ c'.reqSize ≤ tcpDnsMaxPayload := by
            rcases Nat.eq_zero_or_pos c'.inputBufferUsed with h0 | h0
            · exact Or.inr (by rw [hstale h0]; exact hfit)
            · exact Or.inl h0
          obtain ⟨ps, q, more, t, hreqs, ht, hps, hlt⟩ :=
            splitInput_overrun n c' (bounded_of_getDnsRequest hc hg) hpos' ⟨x, hx', hgt⟩
          refine ⟨req :: ps, q, more, t, ?_, ?_, ?_, hlt⟩
          · simp [splitInput, hg, hshort, hreqs]
          · rw [hunread, ht, Frames.stream_cons, List.append_assoc]
          · have := c.reqSize_lt
            rintro p (_ | ⟨_, hp⟩)
            · omega
            · exact hps p hp
    · have hwrap : tcpDnsMaxPayload < c.reqSize := Nat.lt_of_not_le hfit
      obtain ⟨c', hg⟩ := getDnsRequest_of_wraps hwrap (hpos.resolve_right hfit)
      have hused := hc.used_lt
      have hlong : ¬(c.inputBuffer.read 2 c.reqSize).length < dnsHeaderLength := by
        simp only [Mem.length_read]
        unfold dnsHeaderLength
        unfold tcpDnsMaxPayload at hwrap
        omega
      refine ⟨[], c.inputBuffer.read 2 c.reqSize, (c'.splitInput n).2.1, c.unread, ?_, rfl,
        by simp, ?_⟩
      · simp only [splitInput, hg, if_neg hlong]
        rfl
      · simp only [length_unread, Mem.length_read]
        unfold tcpDnsMaxPayload at hwrap
        omega

/-- What a read of the connection alone does, while every length is within the limit. -/
theorem readInput_sound (hc : c.Bounded) (rounds : ℕ) (r : Recv)
    (hfit : ∀ x ∈ c.readCalls rounds r, x.reqSize ≤ tcpDnsMaxPayload) :
    (∀ p ∈ (c.readInput rounds r).2.1, p.length < 65536) ∧
      Frames.stream (c.readInput rounds r).2.1 <+: c.unread ++ r.data ∧
      ((c.readInput rounds r).1 ≠ .removed → (c.readInput rounds r).2.2.Bounded ∧
        c.unread ++ r.data =
          Frames.stream (c.readInput rounds r).2.1 ++ (c.readInput rounds r).2.2.unread) := by
  rcases readInput_cases hc rounds r with ⟨hread, -⟩ | ⟨c', hbound, hunread, -, hread, hcalls⟩
  · simp [hread]
  · rw [hcalls] at hfit
    rw [hread, ← hunread]
    exact splitInput_sound rounds c' hbound hfit

/-- A read that comes upon a length over the limit. -/
theorem readInput_overrun (hc : c.Bounded) (rounds : ℕ) (r : Recv)
    (hx : ∃ x ∈ c.readCalls rounds r, tcpDnsMaxPayload < x.reqSize) :
    ∃ ps q more t, (c.readInput rounds r).2.1 = ps ++ q :: more ∧
      c.unread ++ r.data = Frames.stream ps ++ t ∧ (∀ p ∈ ps, p.length < 65536) ∧
      t.length < q.length := by
  rcases readInput_cases hc rounds r with ⟨-, hcalls⟩ | ⟨c', hbound, hunread, hused, hread, hcalls⟩
  · simp [hcalls] at hx
  · have hpos : 0 < r.data.length := List.length_pos_iff.2 r.data_ne
    rw [hcalls] at hx
    rw [hread, ← hunread]
    exact splitInput_overrun rounds c' hbound (Or.inl (by omega)) hx

end TcpClient

/-! ## The server's read is the connection's -/

/-- The requests handed over that came in on the connection at `b`. -/
def TcpRun.deliveredOn (b : ℕ) (s : TcpRun) : List (List UInt8) :=
  s.delivered.filterMap fun p => if p.1 = b then some p.2 else none

theorem TcpRun.deliveredOn_record (b block : ℕ) (s : TcpRun) (raddr : SockAddr)
    (req : List UInt8) :
    (s.record block raddr req).deliveredOn b =
      s.deliveredOn b ++ if block = b then [req] else [] := by
  by_cases h : block = b <;> simp [deliveredOn, record, h]

/-- The outcome of a read of the connection at `b` on the server, against its outcome on
the connection alone. -/
structure ReadBy (b : ℕ) (s : TcpRun) (r : ReadEnd × List (List UInt8) × TcpClient)
    (o : ReadEnd × TcpRun) : Prop where
  result : o.1 = r.1
  halted : o.2.halted = s.halted
  delivered : o.2.deliveredOn b = s.deliveredOn b ++ r.2.1
  gone : r.1 = .removed → o.2.server.find b = none
  stays : r.1 ≠ .removed → ∃ t, o.2.server.find b = some { r.2.2 with timerWatcher := t }

theorem splitRequests_readBy (b : ℕ) :
    ∀ (n : ℕ) (received : Bool) (s : TcpRun) (c : TcpClient), Blocks s.server →
      s.server.find b = some c →
      ReadBy b s (c.splitInput n) (splitRequests TcpRun.serverIn TcpRun.record b n received s)
  | 0, _, s, c, _, hf =>
    ⟨rfl, rfl, (List.append_nil _).symm, (fun h => by cases h), fun _ => ⟨c.timerWatcher, hf⟩⟩
  | n + 1, received, s, c, hb, hf => by
    have hget : (TcpRun.serverIn.get s).find b = some c := hf
    cases hg : c.getDnsRequest with
    | none =>
      simp only [splitRequests, hget, hg, TcpClient.splitInput]
      refine ⟨rfl, ?_, ?_, (fun h => by cases h), fun _ => ?_⟩
      · split_ifs <;> rfl
      · split_ifs <;> exact (List.append_nil _).symm
      · split_ifs
        · exact ⟨true, DnsServerTcp.find_timerAgain hf⟩
        · exact ⟨c.timerWatcher, hf⟩
    | some p =>
      obtain ⟨req, c'⟩ := p
      obtain ⟨m, k, j, rfl⟩ := TcpClient.getDnsRequest_withInput hg
      have hb' : Blocks (s.server.update (c.withInput m k j)) := Blocks.kept.input _ b c m k j hf hb
      have hf' : (s.server.update (c.withInput m k j)).find b = some (c.withInput m k j) :=
        DnsServerTcp.find_update hf (DnsServerTcp.find_eq_some hf).2
      by_cases hshort : req.length < dnsHeaderLength
      · simp only [splitRequests, hget, hg, TcpClient.splitInput, if_pos hshort]
        exact ⟨rfl, rfl, (List.append_nil _).symm, fun _ => hb'.find_removeClient b,
          fun h => (h rfl).elim⟩
      · have ih := splitRequests_readBy b n true
          (TcpRun.record { s with server := s.server.update (c.withInput m k j) } b c.raddr req)
          (c.withInput m k j) hb' hf'
        simp only [splitRequests, hget, hg, TcpClient.splitInput, if_neg hshort]
        refine ⟨ih.result, ih.halted, ?_, ih.gone, ih.stays⟩
        refine ih.delivered.trans ?_
        rw [TcpRun.deliveredOn_record, if_pos rfl, List.append_assoc]
        rfl

/-- A read with data does to its client what it would do to it alone. -/
theorem readCb_data {b : ℕ} {s : TcpRun} {c : TcpClient} (hb : Blocks s.server)
    (hf : s.server.find b = some c) (rounds : ℕ) (r : Recv) :
    ReadBy b s (c.readInput rounds r)
      (readCb TcpRun.serverIn TcpRun.record b rounds (.data r) s) := by
  have hget : (TcpRun.serverIn.get s).find b = some c := hf
  simp only [readCb, hget, TcpClient.readInput]
  cases ha : c.appendInput r with
  | tooLarge =>
    exact ⟨rfl, rfl, (List.append_nil _).symm, fun _ => hb.find_removeClient b,
      fun h => (h rfl).elim⟩
  | fatal => exact ⟨rfl, rfl, (List.append_nil _).symm, (fun h => by cases h), fun _ => ⟨_, hf⟩⟩
  | appended c' =>
    obtain ⟨m, k, j, rfl⟩ := TcpClient.appendInput_withInput ha
    have hs := splitRequests_readBy b rounds false
      { s with server := s.server.update (c.withInput m k j) } (c.withInput m k j)
      (Blocks.kept.input _ b c m k j hf hb)
      (DnsServerTcp.find_update hf (DnsServerTcp.find_eq_some hf).2)
    exact ⟨hs.result, hs.halted, hs.delivered, hs.gone, hs.stays⟩

/-! ## The calls are the server's -/

/-- A loop with the outcome `o` comes to a call of `get_dns_request` on the client `x`, listed at
`b`, with a number of rounds left. -/
def ComesTo (b : ℕ) (o : ReadEnd × TcpRun) (rounds : ℕ) (x : TcpClient) : Prop :=
  ∃ received s, s.server.find b = some x ∧
    o = splitRequests TcpRun.serverIn TcpRun.record b rounds received s

theorem splitRequests_comesTo (b : ℕ) :
    ∀ (n : ℕ) (received : Bool) (s : TcpRun) (c : TcpClient), Blocks s.server →
      s.server.find b = some c → ∀ k x, (c.calls n)[k]? = some x →
      ComesTo b (splitRequests TcpRun.serverIn TcpRun.record b n received s) (n - k) x
  | 0, _, _, _, _, _, k, x, hx => by simp [TcpClient.calls] at hx
  | n + 1, received, s, c, hb, hf, 0, x, hx => by
    obtain rfl : c = x := by simpa [TcpClient.calls] using hx
    exact ⟨received, s, hf, rfl⟩
  | n + 1, received, s, c, hb, hf, k + 1, x, hx => by
    have hget : (TcpRun.serverIn.get s).find b = some c := hf
    cases hg : c.getDnsRequest with
    | none => simp [TcpClient.calls, hg] at hx
    | some p =>
      obtain ⟨req, c'⟩ := p
      by_cases hshort : req.length < dnsHeaderLength
      · simp [TcpClient.calls, hg, hshort] at hx
      · have hx' : (c'.calls n)[k]? = some x := by
          simpa [TcpClient.calls, hg, hshort] using hx
        obtain ⟨m, j, i, rfl⟩ := TcpClient.getDnsRequest_withInput hg
        have hnext := splitRequests_comesTo b n true
          (TcpRun.record { s with server := s.server.update (c.withInput m j i) } b c.raddr req)
          (c.withInput m j i) (Blocks.kept.input _ b c m j i hf hb)
          (DnsServerTcp.find_update hf (DnsServerTcp.find_eq_some hf).2) k x hx'
        simp only [splitRequests, hget, hg, if_neg hshort, Nat.add_sub_add_right]
        exact hnext

/-- A read with data comes to each of its calls. -/
theorem readCb_comesTo {b : ℕ} {s : TcpRun} {c : TcpClient} (hb : Blocks s.server)
    (hf : s.server.find b = some c) {rounds k : ℕ} {r : Recv} {x : TcpClient}
    (hx : (c.readCalls rounds r)[k]? = some x) :
    ComesTo b (readCb TcpRun.serverIn TcpRun.record b rounds (.data r) s) (rounds - k) x := by
  have hget : (TcpRun.serverIn.get s).find b = some c := hf
  cases ha : c.appendInput r with
  | tooLarge | fatal => simp [TcpClient.readCalls, ha] at hx
  | appended c' =>
    have hx' : (c'.calls rounds)[k]? = some x := by simpa [TcpClient.readCalls, ha] using hx
    obtain ⟨m, j, i, rfl⟩ := TcpClient.appendInput_withInput ha
    simp only [readCb, hget, ha]
    exact splitRequests_comesTo b rounds false
      { s with server := s.server.update (c.withInput m j i) } (c.withInput m j i)
      (Blocks.kept.input _ b c m j i hf hb)
      (DnsServerTcp.find_update hf (DnsServerTcp.find_eq_some hf).2) k x hx'

end HttpsDnsProxy
