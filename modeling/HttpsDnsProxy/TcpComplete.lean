import HttpsDnsProxy.TcpFraming

/-!
# Every complete request is handed over

A payload is `Admissible` if it has a DNS header and the buffer can hold its frame. In a stream
of such frames a length can be misread only while its first byte is the last one buffered : the
second is then left from the frame before (`TcpClient.Follows`), or what the allocator left
there. `Unmistaken` says that this does not make it wrap. If it holds and the read leaves the
buffer within its limit, the loop takes out every complete frame (`readInput_complete`), and
`Paced` is what such reads keep of a whole run.

A payload is `Ordinary` if it is short enough that what may be buffered of its frame leaves
room for another read. Then both conditions always hold, and over a whole run the connection
stays and its requests are the complete frames (`framingComplete`).
-/

namespace HttpsDnsProxy

open Bytes

/-- A payload with a DNS header whose frame fits the buffer. -/
def Admissible (p : List UInt8) : Prop :=
  dnsHeaderLength ≤ p.length ∧ 2 + p.length ≤ tcpDnsMaxPayload

/-- A payload with a DNS header whose frame fits the buffer next to a whole read. -/
def Ordinary (p : List UInt8) : Prop :=
  dnsHeaderLength ≤ p.length ∧ p.length ≤ 61436

theorem Ordinary.admissible {p : List UInt8} (h : Ordinary p) : Admissible p := by
  refine ⟨h.1, ?_⟩
  have hle := h.2
  unfold tcpDnsMaxPayload
  omega

/-- `u` is what has arrived of the frames of `rest`, and it is less than the first of them. -/
structure Pending (rest : List (List UInt8)) (u : List UInt8) : Prop where
  arrived : u <+: Frames.stream rest
  short : ∀ p rest', rest = p :: rest' → u.length < 2 + p.length

/-- With `n` bytes buffered of the frames of `qs`, which follow those of `before`, no length
wraps. If they end with the first byte of a length, either that byte is not 0xFF or the second
byte of the length before is less than 0xFE. -/
def Unmistaken (before qs : List (List UInt8)) (n : ℕ) : Prop :=
  ∀ pre p post, qs = pre ++ p :: post → n = (Frames.stream pre).length + 1 →
    p.length < 65280 ∨ ∃ q ∈ (before ++ pre).getLast?, q.length % 256 < 254

theorem Unmistaken.tail {before qs : List (List UInt8)} {q : List UInt8} {n : ℕ}
    (h : Unmistaken before (q :: qs) (2 + q.length + n)) : Unmistaken (before ++ [q]) qs n := by
  rintro pre p post rfl rfl
  rw [List.append_assoc]
  refine h (q :: pre) p post rfl ?_
  rw [Frames.stream_cons, List.length_append, Frames.length_frame]
  omega

theorem unmistaken_of_ordinary {before qs : List (List UInt8)} (h : ∀ q ∈ qs, Ordinary q) (n : ℕ) :
    Unmistaken before qs n := by
  rintro pre p post rfl -
  have hle := (h p (by simp)).2
  exact Or.inl (by omega)

namespace TcpClient

variable {c c' : TcpClient} {req : List UInt8}

/-- While at most one byte is buffered, the second one is left from the length of the last
request that was taken out. -/
def Follows (c : TcpClient) (before : List (List UInt8)) : Prop :=
  ∀ q ∈ before.getLast?, c.inputBufferUsed ≤ 1 →
    c.inputBuffer 1 = UInt8.ofNat q.length ∧ 2 ≤ c.inputBufferSize

theorem inputBuffer_zero {hi : UInt8} {t : List UInt8} (h : c.unread = hi :: t) :
    c.inputBuffer 0 = hi := by
  have hlen : c.inputBufferUsed = 1 + t.length := by
    rw [← length_unread, h, List.length_cons]
    omega
  rw [unread, hlen, Mem.read_add] at h
  exact (List.cons.inj h).1

/-- A request taken out leaves its length at the start of the buffer, but for what is moved
there. -/
theorem follows_of_getDnsRequest (hc : c.Bounded) (hfit : c.reqSize ≤ tcpDnsMaxPayload)
    (h : c.getDnsRequest = some (req, c')) (before : List (List UInt8)) :
    c'.Follows (before ++ [req]) := by
  obtain ⟨hreq, hle, rfl⟩ := used_of_getDnsRequest hc h
  have hsize := hc.used_le_size
  unfold tcpDnsMaxPayload at hfit
  rw [Nat.mod_eq_of_lt (by omega)] at hle ⊢
  intro q hq hused
  obtain rfl : q = req := by simpa using hq.symm
  have hlow : UInt8.ofNat c.reqSize = c.inputBuffer 1 := by
    have hbytes := toBe16_be16 (c.inputBuffer 0) (c.inputBuffer 1)
    exact (List.cons.inj (List.cons.inj hbytes).2).1
  refine ⟨?_, by simp only; omega⟩
  rw [hreq, Mem.length_read, hlow]
  exact Mem.move_of_ge _ _ hused

/-- A read of one byte into an empty buffer leaves the second byte alone. -/
theorem follows_of_appendInput {r : Recv} (ha : c.appendInput r = .appended c')
    (hbound : c'.Bounded) (hused : c'.inputBufferUsed = c.inputBufferUsed + r.data.length)
    {before : List (List UInt8)} (h : c.Follows before) : c'.Follows before := by
  intro q hq hle
  have hpos : 0 < r.data.length := List.length_pos_iff.2 r.data_ne
  have hzero : c.inputBufferUsed = 0 := by omega
  obtain ⟨hbyte, hsize⟩ := h q hq (by omega)
  have hsize' : 2 ≤ c'.inputBufferSize := by
    have hle' := hbound.used_le_size
    rcases hbound.size_eq with hs | ⟨k, -, hs⟩
    · omega
    · have hpow : 0 < 2 ^ k := Nat.two_pow_pos k
      omega
  refine ⟨?_, hsize'⟩
  have hwrite : ∀ m : Mem, m.write c.inputBufferUsed r.data 1 = m 1 := fun m =>
    Mem.write_of_ge _ _ _ (by omega)
  rw [← hbyte]
  unfold appendInput at ha
  simp only at ha
  split_ifs at ha
  · split at ha
    · cases ha
    · next size _ =>
      obtain rfl := Append.appended.inj ha
      exact (hwrite _).trans (if_pos (by simp only at hsize'; omega))
  · obtain rfl := Append.appended.inj ha
    exact hwrite _

/-- In a stream of admissible frames every length is within the limit, and it is that of the
next frame once both of its bytes have arrived. -/
theorem reqSize_of_admissible {before qs : List (List UInt8)} (hqs : ∀ q ∈ qs, Admissible q)
    (hpos : 0 < c.inputBufferUsed ∨ c.reqSize ≤ tcpDnsMaxPayload) (hfol : c.Follows before)
    (hlone : Unmistaken before qs c.inputBufferUsed) (h : c.unread <+: Frames.stream qs) :
    c.reqSize ≤ tcpDnsMaxPayload ∧
      (2 ≤ c.inputBufferUsed → ∃ q qs', qs = q :: qs' ∧ c.reqSize = q.length) := by
  have hlen := c.length_unread
  cases qs with
  | nil =>
    rw [Frames.stream_nil, List.prefix_nil] at h
    rw [h, List.length_nil] at hlen
    exact ⟨hpos.resolve_left (by omega), fun h2 => by omega⟩
  | cons q qs =>
    have hmax := (hqs q (by simp)).2
    unfold tcpDnsMaxPayload at hmax
    have hq : q.length < 65536 := by omega
    have hstream : Frames.stream (q :: qs) =
        UInt8.ofNat (q.length / 256) :: UInt8.ofNat q.length :: (q ++ Frames.stream qs) := rfl
    rw [hstream] at h
    match hu : c.unread, h with
    | [], _ =>
      rw [hu, List.length_nil] at hlen
      exact ⟨hpos.resolve_left (by omega), fun h2 => by omega⟩
    | [hi], h =>
      rw [hu, List.length_singleton] at hlen
      obtain rfl : hi = UInt8.ofNat (q.length / 256) := (List.cons_prefix_cons.1 h).1
      refine ⟨?_, fun h2 => by omega⟩
      have hlo := (c.inputBuffer 1).toNat_lt
      rw [reqSize, inputBuffer_zero hu, be16, UInt8.toNat_ofNat']
      unfold tcpDnsMaxPayload
      -- the second byte is not there yet : it is left from the frame before
      rcases hlone [] q qs rfl (by rw [← hlen]; rfl) with hsmall | ⟨q', hq', hlow⟩
      · omega
      · rw [List.append_nil] at hq'
        obtain ⟨hbyte, -⟩ := hfol q' hq' (by omega)
        rw [hbyte, UInt8.toNat_ofNat']
        omega
    | hi :: lo :: t, h =>
      obtain ⟨rfl, htail⟩ := List.cons_prefix_cons.1 h
      obtain ⟨rfl, -⟩ := List.cons_prefix_cons.1 htail
      have hsize : c.reqSize = q.length := (reqSize_of_unread hu).trans (be16_toBe16 hq)
      refine ⟨?_, fun _ => ⟨q, qs, rfl, hsize⟩⟩
      rw [hsize]
      unfold tcpDnsMaxPayload
      omega

/-- A request taken out of a stream of admissible frames is the first of them. -/
theorem getDnsRequest_of_admissible {before qs : List (List UInt8)} (hc : c.Bounded)
    (hqs : ∀ q ∈ qs, Admissible q) (hpos : 0 < c.inputBufferUsed ∨ c.reqSize ≤ tcpDnsMaxPayload)
    (hfol : c.Follows before) (hlone : Unmistaken before qs c.inputBufferUsed)
    (h : c.unread <+: Frames.stream qs) (hg : c.getDnsRequest = some (req, c')) :
    ∃ qs', qs = req :: qs' ∧ c.unread = Frames.frame req ++ c'.unread ∧
      c'.unread <+: Frames.stream qs' ∧
      (0 < c'.inputBufferUsed ∨ c'.reqSize ≤ tcpDnsMaxPayload) ∧ c'.Follows (before ++ [req]) := by
  obtain ⟨hfit, hnext⟩ := reqSize_of_admissible hqs hpos hfol hlone h
  obtain ⟨hlen, hunread, hstale⟩ := unread_of_getDnsRequest hc hfit hg
  have hused : c.inputBufferUsed = 2 + req.length + c'.inputBufferUsed := by
    rw [← length_unread, hunread, List.length_append, Frames.length_frame, length_unread]
  obtain ⟨q, qs', rfl, hq⟩ := hnext (by omega)
  rw [hunread, Frames.stream_cons] at h
  have hframe : Frames.frame req = Frames.frame q := by
    have hpre : Frames.frame req <+: Frames.frame q ++ Frames.stream qs' :=
      (List.prefix_append _ _).trans h
    refine List.IsPrefix.eq_of_length (List.prefix_of_prefix_length_le hpre
      (List.prefix_append _ _) ?_) ?_ <;> simp [hlen, hq]
  have hreq : req = q := (List.append_inj hframe rfl).2
  subst hreq
  refine ⟨qs', rfl, hunread, (List.prefix_append_right_inj _).1 h, ?_,
    follows_of_getDnsRequest hc hfit hg before⟩
  rcases Nat.eq_zero_or_pos c'.inputBufferUsed with h0 | h0
  · exact Or.inr (by rw [hstale h0]; exact hfit)
  · exact Or.inl h0

/-- With enough rounds the loop takes out every complete frame of a stream of admissible ones
and leaves the rest. -/
theorem splitInput_complete :
    ∀ (n : ℕ) (c : TcpClient) (before qs : List (List UInt8)), c.Bounded →
      (0 < c.inputBufferUsed ∨ c.reqSize ≤ tcpDnsMaxPayload) → c.inputBufferUsed < n →
      (∀ q ∈ qs, Admissible q) → c.Follows before → Unmistaken before qs c.inputBufferUsed →
      c.unread <+: Frames.stream qs →
      ∃ done rest c', c.splitInput n = (.kept, done, c') ∧ qs = done ++ rest ∧ c'.Bounded ∧
        c.unread = Frames.stream done ++ c'.unread ∧ Pending rest c'.unread ∧
        c'.Follows (before ++ done)
  | 0, _, _, _, _, _, hn, _, _, _, _ => by omega
  | n + 1, c, before, qs, hc, hpos, hn, hqs, hfol, hlone, h => by
    cases hg : c.getDnsRequest with
    | none =>
      obtain ⟨hfit, hnext⟩ := reqSize_of_admissible hqs hpos hfol hlone h
      have hlt := used_lt_of_getDnsRequest_none hfit hg
      refine ⟨[], qs, c, by simp [splitInput, hg], rfl, hc, rfl, ⟨h, ?_⟩, ?_⟩
      · rintro p rest' rfl
        rw [length_unread]
        rcases Nat.lt_or_ge c.inputBufferUsed 2 with h2 | h2
        · omega
        · obtain ⟨q, qs', heq, hq⟩ := hnext h2
          obtain ⟨rfl, -⟩ := List.cons.inj heq
          omega
      · rw [List.append_nil]
        exact hfol
    | some p =>
      obtain ⟨req, c'⟩ := p
      obtain ⟨qs', rfl, hunread, hpre, hpos', hfol'⟩ :=
        getDnsRequest_of_admissible hc hqs hpos hfol hlone h hg
      have hlong : ¬req.length < dnsHeaderLength := Nat.not_lt.2 (hqs req (by simp)).1
      have hused : c.inputBufferUsed = 2 + req.length + c'.inputBufferUsed := by
        rw [← length_unread, hunread, List.length_append, Frames.length_frame, length_unread]
      rw [hused] at hlone
      obtain ⟨done, rest, c'', hsplit, rfl, hc'', hunread', hpend, hfol''⟩ :=
        splitInput_complete n c' (before ++ [req]) qs' (bounded_of_getDnsRequest hc hg) hpos'
          (by omega) (fun q hq => hqs q (by simp [hq])) hfol' hlone.tail hpre
      refine ⟨req :: done, rest, c'', by simp [splitInput, hg, hlong, hsplit], rfl, hc'', ?_,
        hpend, ?_⟩
      · rw [hunread, hunread', Frames.stream_cons, List.append_assoc]
      · rwa [List.append_assoc] at hfol''

/-- A read of admissible frames that leaves the buffer within its limit and no length to be
misread. -/
theorem readInput_complete {before qs : List (List UInt8)} (hc : c.Bounded)
    (hqs : ∀ q ∈ qs, Admissible q) (hfol : c.Follows before) {rounds : ℕ}
    (hrounds : 65536 ≤ rounds) (r : Recv)
    (hroom : c.inputBufferUsed + r.data.length ≤ tcpDnsMaxPayload)
    (hlone : Unmistaken before qs (c.inputBufferUsed + r.data.length))
    (h : c.unread ++ r.data <+: Frames.stream qs) :
    ∃ done rest c', c.readInput rounds r = (.kept, done, c') ∧ qs = done ++ rest ∧ c'.Bounded ∧
      c.unread ++ r.data = Frames.stream done ++ c'.unread ∧ Pending rest c'.unread ∧
      c'.Follows (before ++ done) := by
  have hpos : 0 < r.data.length := List.length_pos_iff.2 r.data_ne
  obtain ⟨c', ha, hbound, hunread, hused, -⟩ := appendInput_eq hc r hroom
  have hfol' := follows_of_appendInput ha hbound hused hfol
  unfold readInput
  simp only [ha]
  rw [← hunread] at h ⊢
  rw [← hused] at hlone hroom
  unfold tcpDnsMaxPayload at hroom
  exact splitInput_complete rounds c' before qs hbound (Or.inl (by omega)) (by omega) hqs hfol'
    hlone h

/-- Behind what is pending of ordinary frames there is room for every read. -/
theorem room_of_ordinary {qs : List (List UInt8)} (hqs : ∀ q ∈ qs, Ordinary q)
    (hpend : Pending qs c.unread) (r : Recv) :
    c.inputBufferUsed + r.data.length ≤ tcpDnsMaxPayload := by
  have hdata := r.length_le
  unfold dnsRequestBufferSize at hdata
  unfold tcpDnsMaxPayload
  rw [← length_unread]
  cases qs with
  | nil =>
    have hnil : c.unread = [] := List.prefix_nil.1 hpend.arrived
    rw [hnil, List.length_nil]
    omega
  | cons q qs =>
    have hlt := hpend.short q qs rfl
    have hq := (hqs q (by simp)).2
    omega

end TcpClient

/-! ## Whole runs -/

/-- Of the frames of `qs` the connection at `b` has sent `received`. Its requests are those
of them that are complete, and while it is listed its buffer holds what has come of the next. -/
structure Served (b : ℕ) (qs : List (List UInt8)) (received : List UInt8) (s : TcpRun) : Prop where
  blocks : Blocks s.server
  fresh : s.server.nextBlock ≤ b → received = [] ∧ s.deliveredOn b = []
  split : ∃ rest u, qs = s.deliveredOn b ++ rest ∧
    received = Frames.stream (s.deliveredOn b) ++ u ∧ Pending rest u ∧
    ∀ c, s.server.find b = some c → c.Bounded ∧ c.unread = u

namespace Served

variable {b : ℕ} {qs : List (List UInt8)} {received : List UInt8} {s s' : TcpRun} {e : TcpEvent}

theorem other (h : Served b qs received s) (hs : TcpStep s e s') (hne : ¬e.IsData b) :
    Served b qs received s' := by
  obtain ⟨hdel, hinput⟩ := other_step hs h.blocks hne
  obtain ⟨rest, u, hqs, hrec, hpend, hc⟩ := h.split
  refine ⟨h.blocks.step hs, fun hge => ?_, rest, u, by rw [hdel]; exact hqs,
    by rw [hdel]; exact hrec, hpend, fun c hf => ?_⟩
  · rw [hdel]
    rcases listed_step hs with ⟨hnext, -⟩ | ⟨hnext, -⟩ <;> exact h.fresh (by omega)
  · rcases hinput with hsame | ⟨rfl, hnew⟩
    · obtain ⟨c', t, hc', rfl⟩ := hsame c hf
      exact ⟨(hc c' hc').1.withTimer t, (hc c' hc').2⟩
    · obtain ⟨hr, -⟩ := h.fresh le_rfl
      obtain ⟨hbound, hunread⟩ := hnew c hf
      rw [hr] at hrec
      exact ⟨hbound, by rw [hunread, (List.append_eq_nil_iff.1 hrec.symm).2]⟩

/-- Once `received` is all of the frames `pre` and a proper part of the next, the requests are
`pre`. -/
theorem eq_of_received {pre post : List (List UInt8)} {p t : List UInt8}
    (h : Served b (pre ++ p :: post) (Frames.stream pre ++ t) s) (ht : t <+: Frames.frame p)
    (hne : t ≠ Frames.frame p) :
    s.deliveredOn b = pre ∧ ∀ c, s.server.find b = some c → c.unread = t := by
  obtain ⟨rest, u, hqs, hrec, hpend, hc⟩ := h.split
  have hpre : s.deliveredOn b = pre := by
    rcases List.append_eq_append_iff.1 hqs with ⟨as, hd, hq⟩ | ⟨bs, hp, hr⟩
    · -- a request more than `pre` would be the whole of `p`
      cases as with
      | nil => rw [hd, List.append_nil]
      | cons a as =>
        obtain ⟨rfl, -⟩ := List.cons.inj hq
        rw [hd, Frames.stream_append, List.append_assoc, List.append_cancel_left_eq,
          Frames.stream_cons, List.append_assoc] at hrec
        refine (hne (ht.eq_of_length_le ?_)).elim
        rw [hrec, List.length_append]
        exact Nat.le_add_right _ _
    · -- a request less would leave a whole frame in the buffer
      cases bs with
      | nil => rw [hp, List.append_nil]
      | cons p' bs =>
        have hlt := hpend.short p' (bs ++ p :: post) hr
        rw [hp, Frames.stream_append, List.append_assoc, List.append_cancel_left_eq,
          Frames.stream_cons] at hrec
        rw [← hrec] at hlt
        simp only [List.length_append, Frames.length_frame] at hlt
        omega
  rw [hpre, List.append_cancel_left_eq] at hrec
  exact ⟨hpre, fun c hf => (hc c hf).2.trans hrec.symm⟩

end Served

/-- Data that a read of the connection at `b` takes up with the client in place. -/
theorem step_of_kept {b : ℕ} {s : TcpRun} {c c' : TcpClient} (hb : Blocks s.server)
    (hr : s.reading b = some c) {rounds : ℕ} {r : Recv} {done : List (List UInt8)}
    (hread : c.readInput rounds r = (.kept, done, c')) :
    (s.step (.read b rounds (.data r))).deliveredOn b = s.deliveredOn b ++ done ∧
      ∃ t, (s.step (.read b rounds (.data r))).reading b = some { c' with timerWatcher := t } := by
  obtain ⟨hh, hf, hw⟩ := TcpRun.reading_eq_some hr
  have hby := readCb_data hb hf rounds r
  have hwatch : c'.readWatcher = true := by
    obtain ⟨m, k, j, hin⟩ := c.readInput_withInput rounds r
    rw [hread] at hin
    rw [show c' = c.withInput m k j from hin]
    exact hw
  rw [hread] at hby
  obtain ⟨t, ht⟩ := hby.stays (by simp)
  rw [TcpRun.step_of_reading hr, TcpRun.readEvent_of_kept _ _ _ _ hby.result]
  refine ⟨hby.delivered, t, ?_⟩
  rw [TcpRun.reading, hby.halted, hh, ht]
  simp [hwatch]

/-- The connection is served, and its buffer is as the last request has left it. -/
structure Paced (b : ℕ) (qs : List (List UInt8)) (received : List UInt8) (s : TcpRun) : Prop
    extends Served b qs received s where
  follows : ∀ c, s.server.find b = some c → c.Follows (s.deliveredOn b)

namespace Paced

variable {b : ℕ} {qs : List (List UInt8)} {received : List UInt8} {s s' : TcpRun} {e : TcpEvent}

theorem other (h : Paced b qs received s) (hs : TcpStep s e s') (hne : ¬e.IsData b) :
    Paced b qs received s' := by
  refine ⟨h.toServed.other hs hne, fun c hf => ?_⟩
  obtain ⟨hdel, hinput⟩ := other_step hs h.blocks hne
  rw [hdel]
  rcases hinput with hsame | ⟨rfl, -⟩
  · obtain ⟨c', t, hc', rfl⟩ := hsame c hf
    exact h.follows c' hc'
  · rw [(h.fresh le_rfl).2]
    exact fun q hq => (Option.not_mem_none q hq).elim

/-- Data from `b` that leaves the buffer within its limit and no length to be misread :
`read_cb` returns with the client in place. -/
theorem data (h : Paced b qs received s) (hqs : ∀ q ∈ qs, Admissible q) {c : TcpClient}
    (hr : s.reading b = some c) {rounds : ℕ} (hrounds : 65536 ≤ rounds) (r : Recv)
    (hroom : c.inputBufferUsed + r.data.length ≤ tcpDnsMaxPayload)
    (hlone : ∀ rest, qs = s.deliveredOn b ++ rest →
      Unmistaken (s.deliveredOn b) rest (c.inputBufferUsed + r.data.length))
    (hle : received ++ r.data <+: Frames.stream qs) :
    Paced b qs (received ++ r.data) (s.step (.read b rounds (.data r))) ∧
      ∃ c', (s.step (.read b rounds (.data r))).reading b = some c' := by
  obtain ⟨-, hf, -⟩ := TcpRun.reading_eq_some hr
  obtain ⟨rest, u, hsplit, hrec, -, hc⟩ := h.split
  obtain ⟨hbound, rfl⟩ := hc c hf
  have hrest : c.unread ++ r.data <+: Frames.stream rest := by
    rw [hrec, List.append_assoc, hsplit, Frames.stream_append] at hle
    exact (List.prefix_append_right_inj _).1 hle
  obtain ⟨done, rest', c', hread, rfl, hbound', hunread, hpend', hfol'⟩ :=
    TcpClient.readInput_complete hbound (fun q hq => hqs q (by rw [hsplit]; simp [hq]))
      (h.follows c hf) hrounds r hroom (hlone rest hsplit) hrest
  obtain ⟨hdel, t, hreading⟩ := step_of_kept h.blocks hr hread
  obtain ⟨-, hf', -⟩ := TcpRun.reading_eq_some hreading
  have hs := s.tcpStep (.read b rounds (.data r))
  refine ⟨⟨⟨h.blocks.step hs, fun hge => ?_, rest', c'.unread, ?_, ?_, hpend', fun x hx => ?_⟩,
    fun x hx => ?_⟩, _, hreading⟩
  · have hlt := h.blocks.lt c (DnsServerTcp.find_eq_some hf).1
    have hb := (DnsServerTcp.find_eq_some hf).2
    rcases listed_step hs with ⟨hnext, -⟩ | ⟨hnext, -⟩ <;> omega
  · rw [hdel, hsplit, List.append_assoc]
  · rw [hdel, Frames.stream_append, List.append_assoc, ← hunread, hrec, List.append_assoc]
  · obtain rfl := Option.some.inj (hf'.symm.trans hx)
    exact ⟨hbound'.withTimer t, rfl⟩
  · obtain rfl := Option.some.inj (hf'.symm.trans hx)
    rw [hdel]
    exact hfol'

/-- Data from `b`, of ordinary frames. -/
theorem data_of_ordinary (h : Paced b qs received s) (hord : ∀ q ∈ qs, Ordinary q) {c : TcpClient}
    (hr : s.reading b = some c) {rounds : ℕ} (hrounds : 65536 ≤ rounds) (r : Recv)
    (hle : received ++ r.data <+: Frames.stream qs) :
    Paced b qs (received ++ r.data) (s.step (.read b rounds (.data r))) ∧
      ∃ c', (s.step (.read b rounds (.data r))).reading b = some c' := by
  obtain ⟨rest, u, hsplit, -, hpend, hc⟩ := h.split
  obtain ⟨-, rfl⟩ := hc c (TcpRun.reading_eq_some hr).2.1
  refine h.data (fun q hq => (hord q hq).admissible) hr hrounds r ?_ ?_ hle
  · exact TcpClient.room_of_ordinary (fun q hq => hord q (by rw [hsplit]; simp [hq])) hpend r
  · rintro rest' rfl
    exact unmistaken_of_ordinary (fun q hq => hord q (List.mem_append_right _ hq)) _

/-- One event, with enough rounds for the loop if it brings data from `b`. -/
theorem step (h : Paced b qs received s) (hord : ∀ q ∈ qs, Ordinary q) (e : TcpEvent)
    (he : ∀ n r, e = .read b n (.data r) → 65536 ≤ n)
    (hle : received ++ s.recvOn b e <+: Frames.stream qs) :
    Paced b qs (received ++ s.recvOn b e) (s.step e) := by
  rcases s.event_cases b e with ⟨rounds, r, c, rfl, hr, hrecv⟩ | ⟨hstep, hrecv⟩ | ⟨hdata, hrecv⟩
  · rw [hrecv] at hle ⊢
    exact (h.data_of_ordinary hord hr (he rounds r rfl) r hle).1
  · rw [hstep, hrecv, List.append_nil]
    exact h
  · rw [hrecv, List.append_nil]
    exact h.other (s.tcpStep e) hdata

theorem run (hord : ∀ q ∈ qs, Ordinary q) :
    ∀ {s : TcpRun} {received : List UInt8} (es : List TcpEvent), Paced b qs received s →
      (∀ n r, .read b n (.data r) ∈ es → 65536 ≤ n) →
      received ++ TcpRun.receivedOn b s es <+: Frames.stream qs →
      Paced b qs (received ++ TcpRun.receivedOn b s es) (Runs.run TcpRun.step s es)
  | s, received, [], h, _, _ => by simpa [TcpRun.receivedOn] using h
  | s, received, e :: es, h, hes, hle => by
    rw [TcpRun.receivedOn, ← List.append_assoc] at hle ⊢
    have he := h.step hord e (fun n r hr => hes n r (by simp [hr]))
      ((List.prefix_append _ _).trans hle)
    exact run hord es he (fun n r hr => hes n r (by simp [hr])) hle

theorem init (limit b : ℕ) (qs : List (List UInt8)) :
    Paced b qs [] (TcpRun.start limit) where
  blocks := Blocks.run limit []
  fresh := fun _ => ⟨rfl, rfl⟩
  split := by
    refine ⟨qs, [], rfl, rfl, ⟨List.nil_prefix, fun p rest' _ => ?_⟩, fun _ hc => nomatch hc⟩
    rw [List.length_nil]
    omega
  follows := fun _ hc => nomatch hc

end Paced

/-- Completeness of TCP framing, for every run and connection. If the bytes received from the
connection are the frames `ps` and a proper part of one more, all of ordinary payloads, then
the requests handed over are exactly `ps`, the buffer of the connection, while it is listed,
holds exactly that part, and every read of its data has returned with the client in place. -/
theorem framingComplete (limit : ℕ) (es : List TcpEvent) (b : ℕ) (ps : List (List UInt8))
    (q t : List UInt8) (hps : ∀ p ∈ ps, Ordinary p) (hq : Ordinary q)
    (ht : t <+: Frames.frame q) (hne : t ≠ Frames.frame q)
    (hrounds : ∀ n r, .read b n (.data r) ∈ es → 65536 ≤ n)
    (hrec : TcpRun.receivedOn b (TcpRun.start limit) es = Frames.stream ps ++ t) :
    let s := TcpRun.run limit es
    s.deliveredOn b = ps ∧ (∀ c, s.server.find b = some c → c.unread = t) ∧
      ∀ pre n r post, es = pre ++ .read b n (.data r) :: post →
        ((TcpRun.run limit pre).reading b).isSome →
        ((TcpRun.run limit (pre ++ [.read b n (.data r)])).reading b).isSome := by
  intro s
  have hord : ∀ p ∈ ps ++ [q], Ordinary p := by
    intro p hp
    rcases List.mem_append.1 hp with hp | hp
    · exact hps p hp
    · exact List.mem_singleton.1 hp ▸ hq
  have hle : TcpRun.receivedOn b (TcpRun.start limit) es <+: Frames.stream (ps ++ [q]) := by
    rw [hrec, Frames.stream_concat]
    exact (List.prefix_append_right_inj _).2 ht
  have hpaced := (Paced.init limit b (ps ++ [q])).run hord es hrounds hle
  rw [List.nil_append, hrec] at hpaced
  obtain ⟨hdel, hunread⟩ := hpaced.eq_of_received ht hne
  refine ⟨hdel, hunread, ?_⟩
  rintro pre n r post rfl hsome
  obtain ⟨c, hc⟩ := Option.isSome_iff_exists.1 hsome
  have hpart : TcpRun.receivedOn b (TcpRun.start limit) (pre ++ [.read b n (.data r)]) <+:
      Frames.stream (ps ++ [q]) := by
    rw [← List.singleton_append, ← List.append_assoc, TcpRun.receivedOn_append] at hle
    exact (List.prefix_append _ _).trans hle
  rw [TcpRun.receivedOn_concat] at hpart
  have hpre := (Paced.init limit b (ps ++ [q])).run hord pre
    (fun n r hr => hrounds n r (by simp [hr])) ((List.prefix_append _ _).trans hpart)
  have hrecv : (Runs.run TcpRun.step (TcpRun.start limit) pre).recvOn b (.read b n (.data r)) =
      r.data := by
    rw [TcpRun.run] at hc
    simp [TcpRun.recvOn, hc]
  rw [hrecv] at hpart
  obtain ⟨-, c', hc'⟩ := hpre.data_of_ordinary hord hc (hrounds n r (by simp)) r hpart
  rw [TcpRun.run, Runs.run_concat, hc']
  rfl

/-- Three requests. -/
def threeRequests : List (List UInt8) :=
  [List.replicate 12 1, List.replicate 13 2, List.replicate 12 3]

theorem ordinary_threeRequests : ∀ p ∈ threeRequests, Ordinary p := by
  simp [threeRequests, Ordinary, dnsHeaderLength]

/-- A read of the first request and of one byte of the length of the second. -/
def firstRead : Recv where
  data := Frames.frame (List.replicate 12 1) ++ [0]
  data_ne := by decide
  length_le := by decide
  fresh := fun _ => 0

/-- A read of the rest of the second request, of the third, and of the start of a fourth. -/
def secondRead : Recv where
  data := 13 :: (List.replicate 13 2 ++ (Frames.frame (List.replicate 12 3) ++ [0, 20, 4]))
  data_ne := by decide
  length_le := by decide
  fresh := fun _ => 0

/-- The requests are handed over, and the buffer is left with the start of the fourth. -/
theorem framingComplete_three :
    let es : List TcpEvent := [.accept (.sock 7 []), .read 0 65536 (.data firstRead),
      .read 0 65536 (.data secondRead)]
    (TcpRun.run 20 es).deliveredOn 0 = threeRequests ∧
      ∃ c, (TcpRun.run 20 es).server.find 0 = some c ∧ c.unread = [0, 20, 4] := by
  intro es
  have hfourth : [0, 20, 4] <+: Frames.frame (List.replicate 20 4) := by decide
  have hrounds : ∀ n r, .read 0 n (.data r) ∈ es → 65536 ≤ n := by
    intro n r hmem
    simp only [es, List.mem_cons, List.not_mem_nil, or_false, reduceCtorEq, false_or,
      TcpEvent.read.injEq] at hmem
    rcases hmem with h | h <;> exact h.2.1.ge
  obtain ⟨hdelivered, hunread, hkept⟩ := framingComplete 20 es 0 threeRequests
    (List.replicate 20 4) [0, 20, 4] ordinary_threeRequests ⟨by decide, by decide⟩ hfourth
    (by decide) hrounds (by decide +kernel)
  have hstays : ((TcpRun.run 20 es).reading 0).isSome :=
    hkept [.accept (.sock 7 []), .read 0 65536 (.data firstRead)] 65536 secondRead [] rfl
      (by decide +kernel)
  obtain ⟨c, hc⟩ := Option.isSome_iff_exists.1 hstays
  have hfind := (TcpRun.reading_eq_some hc).2.1
  exact ⟨hdelivered, c, hfind, hunread c hfind⟩

end HttpsDnsProxy
