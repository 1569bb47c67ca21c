import HttpsDnsProxy.TcpComplete

/-!
# Segmentation of a TCP stream

What a connection is served should not depend on how its bytes are cut into reads. It does in
two ways. `read_cb` checks the size of what is buffered with all of a new read, before it takes
complete requests out, so a large request is refused if enough of the next ones share a read
with its last byte. And a read that ends with the first byte of a length leaves the second one
to what is in the buffer from before, where it can make the length wrap.

`Segmentable` says of a stream that neither can happen, whatever the reads. Over such a stream
every cut serves all requests (`Paced.serve`), and of every other one there is a cut that does
(`Paced.serve_headed`) and a cut that does not. So the runs over all cuts agree exactly if the
stream is segmentable (`segmentation_iff`).
-/

namespace HttpsDnsProxy

open Bytes

/-- The bytes of a sequence of reads. -/
def Recv.bytes (rs : List Recv) : List UInt8 :=
  rs.flatMap Recv.data

/-- However the frames of `ps` are cut into reads, a read that completes one of them fits the
buffer, and no length wraps while only its first byte is there. -/
structure Segmentable (ps : List (List UInt8)) : Prop where
  room : ∀ pre p post, ps = pre ++ p :: post →
    2 + p.length + min 4095 (Frames.stream post).length ≤ tcpDnsMaxPayload
  lone : ∀ pre p post, ps = pre ++ p :: post →
    p.length < 65280 ∨ ∃ q ∈ pre.getLast?, q.length % 256 < 254

namespace TcpRun

/-- The run after the connection at `b` has read `rs`. -/
def afterReads (b rounds : ℕ) (s : TcpRun) (rs : List Recv) : TcpRun :=
  Runs.run step s (rs.map fun r => .read b rounds (.data r))

/-- Two runs have done the same for the connection at `b` : they keep it or have removed it,
`read_cb` has returned or not, and the requests handed over are the same. -/
structure SameServing (b : ℕ) (s s' : TcpRun) : Prop where
  kept : (s.server.find b).isSome = (s'.server.find b).isSome
  halted : s.halted = s'.halted
  delivered : s.deliveredOn b = s'.deliveredOn b

variable {b rounds : ℕ} {s : TcpRun}

theorem afterReads_cons (r : Recv) (rs : List Recv) :
    s.afterReads b rounds (r :: rs) =
      (s.step (.read b rounds (.data r))).afterReads b rounds rs := rfl

theorem afterReads_append (rs rs' : List Recv) :
    s.afterReads b rounds (rs ++ rs') = (s.afterReads b rounds rs).afterReads b rounds rs' := by
  rw [afterReads, List.map_append, Runs.run_append]
  rfl

/-- Nothing more happens to a connection that is gone. -/
theorem afterReads_of_gone (h : s.server.find b = none) :
    ∀ rs : List Recv, s.afterReads b rounds rs = s
  | [] => rfl
  | r :: rs => by
    have hr : s.reading b = none := by
      unfold reading
      split_ifs
      · rfl
      · rw [h, Option.filter_none]
    rw [afterReads_cons, step_of_not_reading hr, afterReads_of_gone h rs]

/-- Requests that are handed over stay so. -/
theorem isPrefix_deliveredOn_step (hb : Blocks s.server) (r : Recv) :
    s.deliveredOn b <+: (s.step (.read b rounds (.data r))).deliveredOn b := by
  cases hr : s.reading b with
  | none => rw [step_of_not_reading hr]
  | some c =>
    obtain ⟨-, hf, -⟩ := reading_eq_some hr
    rw [step_of_reading hr, deliveredOn_readEvent hb hf]
    exact List.prefix_append _ _

theorem isPrefix_deliveredOn_afterReads :
    ∀ {s : TcpRun}, Blocks s.server → ∀ rs : List Recv,
      s.deliveredOn b <+: (s.afterReads b rounds rs).deliveredOn b
  | _, _, [] => List.prefix_refl _
  | s, hb, r :: rs =>
    (isPrefix_deliveredOn_step hb r).trans
      (isPrefix_deliveredOn_afterReads (hb.step (s.tcpStep (.read b rounds (.data r)))) rs)

end TcpRun

/-! ## A length that is misread -/

namespace TcpClient

variable {c c' : TcpClient}

/-- If 0xFF is all that is buffered and the byte behind it makes a length that wraps, the loop
hands over a request that no frame can hold. -/
theorem exists_long_of_lone (hu : c.unread = [0xFF]) (hlow : 254 ≤ (c.inputBuffer 1).toNat)
    (n : ℕ) : ∃ q ∈ (c.splitInput (n + 1)).2.1, tcpDnsMaxPayload < q.length := by
  have hused : c.inputBufferUsed = 1 := by rw [← length_unread, hu, List.length_singleton]
  have hwrap : tcpDnsMaxPayload < c.reqSize := by
    have hhigh : (0xFF : UInt8).toNat = 255 := rfl
    rw [reqSize, inputBuffer_zero hu, be16, hhigh]
    unfold tcpDnsMaxPayload
    omega
  obtain ⟨c', hg⟩ := getDnsRequest_of_wraps hwrap (by omega)
  have hlong : ¬(c.inputBuffer.read 2 c.reqSize).length < dnsHeaderLength := by
    rw [Mem.length_read]
    unfold dnsHeaderLength
    unfold tcpDnsMaxPayload at hwrap
    omega
  refine ⟨c.inputBuffer.read 2 c.reqSize, ?_, by rwa [Mem.length_read]⟩
  simp only [splitInput, hg, if_neg hlong]
  exact List.mem_cons_self ..

/-- The first read of a connection finds in the buffer what the allocator left there. -/
theorem inputBuffer_of_appendInput (hsize : c.inputBufferSize = 0) (hused : c.inputBufferUsed = 0)
    {r : Recv} (ha : c.appendInput r = .appended c') {i : ℕ} (hi : r.data.length ≤ i) :
    c'.inputBuffer i = r.fresh i := by
  have hpos : 0 < r.data.length := List.length_pos_iff.2 r.data_ne
  have hfree : wrapSub (2 ^ 32) 0 0 < r.data.length := hpos
  unfold appendInput at ha
  simp only [hsize, hused, if_pos hfree] at ha
  split_ifs at ha
  split at ha
  · cases ha
  · obtain rfl := Append.appended.inj ha
    have hwrite : ∀ m : Mem, m.write 0 r.data i = m i := fun m =>
      Mem.write_of_ge _ _ _ (by omega)
    exact (hwrite _).trans (if_neg (by omega))

end TcpClient

/-! ## One read -/

/-- Bytes that are still within the frame of `p` leave no length to be misread, once there are
two of them. -/
theorem unmistaken_within {before post : List (List UInt8)} {p : List UInt8} {n : ℕ} (h2 : 2 ≤ n)
    (hn : n ≤ 2 + p.length) : Unmistaken before (p :: post) n := by
  intro pre p' post' hsplit heq
  cases pre with
  | nil =>
    rw [Frames.stream_nil, List.length_nil] at heq
    omega
  | cons q pre =>
    obtain ⟨rfl, -⟩ := List.cons.inj hsplit
    rw [Frames.stream_cons, List.length_append, Frames.length_frame] at heq
    omega

/-- The first byte of the length of `p` on its own. -/
theorem unmistaken_one {before post : List (List UInt8)} {p : List UInt8}
    (h : p.length < 65280 ∨ ∃ q ∈ before.getLast?, q.length % 256 < 254) :
    Unmistaken before (p :: post) 1 := by
  intro pre p' post' hsplit heq
  cases pre with
  | nil =>
    obtain ⟨rfl, -⟩ := List.cons.inj hsplit
    rwa [List.append_nil]
  | cons q pre =>
    rw [Frames.stream_cons, List.length_append, Frames.length_frame] at heq
    omega

namespace Paced

open TcpRun (afterReads)

variable {b : ℕ} {ps pre post : List (List UInt8)} {p t received : List UInt8} {s : TcpRun}
  {c : TcpClient} {rounds : ℕ}

/-- All requests have been handed over once all bytes are received. -/
theorem deliveredOn_eq (h : Paced b ps (Frames.stream ps) s) : s.deliveredOn b = ps := by
  obtain ⟨rest, u, hsplit, hrec, hpend, -⟩ := h.split
  cases rest with
  | nil => rw [hsplit, List.append_nil]
  | cons p rest =>
    have hlt := hpend.short p rest rfl
    rw [hsplit, Frames.stream_append, List.append_cancel_left_eq, Frames.stream_cons] at hrec
    rw [← hrec, List.length_append, Frames.length_frame] at hlt
    omega

/-- What is buffered within the frame of `p`. -/
theorem reading_within (h : Paced b (pre ++ p :: post) (Frames.stream pre ++ t) s)
    (ht : t <+: Frames.frame p) (hne : t ≠ Frames.frame p) (hr : s.reading b = some c) :
    s.deliveredOn b = pre ∧ c.unread = t ∧ c.inputBufferUsed = t.length := by
  obtain ⟨hdel, hunread⟩ := h.eq_of_received ht hne
  have hu := hunread c (TcpRun.reading_eq_some hr).2.1
  exact ⟨hdel, hu, by rw [← TcpClient.length_unread, hu]⟩

/-- A read within one frame that leaves two bytes of it or more. -/
theorem within (h : Paced b (pre ++ p :: post) (Frames.stream pre ++ t) s)
    (hadm : ∀ q ∈ pre ++ p :: post, Admissible q) (hr : s.reading b = some c)
    (hrounds : 65536 ≤ rounds) (r : Recv) (ht : t ++ r.data <+: Frames.frame p)
    (h2 : 2 ≤ (t ++ r.data).length) :
    Paced b (pre ++ p :: post) (Frames.stream pre ++ (t ++ r.data))
        (s.step (.read b rounds (.data r))) ∧
      ∃ c', (s.step (.read b rounds (.data r))).reading b = some c' := by
  have hmax := (hadm p (by simp)).2
  have hlen := ht.length_le
  rw [Frames.length_frame] at hlen
  rw [List.length_append] at hlen h2
  have hpos : 0 < r.data.length := List.length_pos_iff.2 r.data_ne
  have hne : t ≠ Frames.frame p := by
    rintro rfl
    rw [Frames.length_frame] at hlen
    omega
  obtain ⟨hdel, -, hused⟩ := h.reading_within ((List.prefix_append _ _).trans ht) hne hr
  rw [← List.append_assoc]
  refine h.data hadm hr hrounds r (by omega) ?_ ?_
  · intro rest hsplit
    rw [hdel, List.append_cancel_left_eq] at hsplit
    rw [← hsplit, hused]
    exact unmistaken_within h2 hlen
  · rw [List.append_assoc, Frames.stream_append, Frames.stream_cons]
    exact (List.prefix_append_right_inj _).2 (ht.trans (List.prefix_append _ _))

/-- A read that does not fit the buffer : the connection is removed. -/
theorem gone_of_no_room (h : Paced b ps received s) (hr : s.reading b = some c) (rounds : ℕ)
    {r : Recv} (hgt : tcpDnsMaxPayload < c.inputBufferUsed + r.data.length) :
    (s.step (.read b rounds (.data r))).server.find b = none := by
  obtain ⟨-, hf, -⟩ := TcpRun.reading_eq_some hr
  obtain ⟨rest, u, -, -, -, hc⟩ := h.split
  have hread : c.readInput rounds r = (.removed, [], c) := by
    simp [TcpClient.readInput, TcpClient.appendInput_tooLarge (hc c hf).1 r hgt]
  rw [TcpRun.step_of_reading hr, TcpRun.server_readEvent]
  exact (readCb_data h.blocks hf rounds r).gone (by rw [hread])

/-- A read of a lone first byte of a length that wraps with what is in the buffer behind it : a
request is handed over that no frame can hold. -/
theorem exists_long_of_misread (h : Paced b (pre ++ p :: post) (Frames.stream pre) s)
    (hr : s.reading b = some c) (hrounds : 65536 ≤ rounds) {r : Recv}
    (hdata : r.data = [UInt8.ofNat (p.length / 256)]) (hfresh : r.fresh 1 = 0xFF)
    (hsize : pre = [] → c.inputBufferSize = 0) (hp : Admissible p) (hlarge : 65280 ≤ p.length)
    (hlast : ∀ q ∈ pre.getLast?, 254 ≤ q.length % 256) :
    ∃ q ∈ (s.step (.read b rounds (.data r))).deliveredOn b, tcpDnsMaxPayload < q.length := by
  obtain ⟨-, hf, -⟩ := TcpRun.reading_eq_some hr
  obtain ⟨hdel, hunread, hused⟩ := reading_within (t := []) (by rwa [List.append_nil])
    List.nil_prefix (List.cons_ne_nil _ _).symm hr
  have hhigh : UInt8.ofNat (p.length / 256) = 0xFF := by
    have hmax := hp.2
    unfold tcpDnsMaxPayload at hmax
    have hdiv : p.length / 256 = 255 := by omega
    rw [hdiv]
    rfl
  rw [hhigh] at hdata
  have hlen : r.data.length = 1 := by rw [hdata, List.length_singleton]
  rw [List.length_nil] at hused
  have hbound : c.Bounded := by
    obtain ⟨rest, u, -, -, -, hc⟩ := h.split
    exact (hc c hf).1
  obtain ⟨c', ha, hbound', hunread', hused', -⟩ := TcpClient.appendInput_eq hbound r (by
    rw [hused, hlen]
    decide)
  rw [hunread, hdata, List.nil_append] at hunread'
  have hlow : 254 ≤ (c'.inputBuffer 1).toNat := by
    cases hl : pre.getLast? with
    | none =>
      rw [TcpClient.inputBuffer_of_appendInput (hsize (List.getLast?_eq_none_iff.1 hl)) hused ha
        hlen.le, hfresh]
      decide
    | some q =>
      have hfol := TcpClient.follows_of_appendInput ha hbound' hused' (h.follows c hf)
      rw [hdel] at hfol
      obtain ⟨hbyte, -⟩ := hfol q hl (by omega)
      rw [hbyte, UInt8.toNat_ofNat']
      exact hlast q hl
  obtain ⟨n, rfl⟩ : ∃ n, rounds = n + 1 := ⟨rounds - 1, by omega⟩
  obtain ⟨q, hq, hlong⟩ := TcpClient.exists_long_of_lone hunread' hlow n
  refine ⟨q, ?_, hlong⟩
  have hread : c.readInput (n + 1) r = c'.splitInput (n + 1) := by
    unfold TcpClient.readInput
    rw [ha]
  rw [TcpRun.step_of_reading hr, TcpRun.deliveredOn_readEvent h.blocks hf, hread]
  exact List.mem_append_right _ hq

/-! ## Every cut of a segmentable stream -/

/-- A read of a segmentable stream. -/
theorem data_of_segmentable (h : Paced b ps received s) (hadm : ∀ p ∈ ps, Admissible p)
    (hseg : Segmentable ps) (hr : s.reading b = some c) (hrounds : 65536 ≤ rounds) (r : Recv)
    (hle : received ++ r.data <+: Frames.stream ps) :
    Paced b ps (received ++ r.data) (s.step (.read b rounds (.data r))) ∧
      ∃ c', (s.step (.read b rounds (.data r))).reading b = some c' := by
  obtain ⟨-, hf, -⟩ := TcpRun.reading_eq_some hr
  obtain ⟨rest, u, hsplit, hrec, hpend, hc⟩ := h.split
  obtain ⟨-, rfl⟩ := hc c hf
  refine h.data hadm hr hrounds r ?_ ?_ hle
  · have hdata := r.length_le
    have hpos : 0 < r.data.length := List.length_pos_iff.2 r.data_ne
    unfold dnsRequestBufferSize at hdata
    have hfits := hle.length_le
    rw [hrec, hsplit, Frames.stream_append, List.length_append, List.length_append,
      List.length_append, TcpClient.length_unread] at hfits
    cases rest with
    | nil =>
      rw [Frames.stream_nil, List.length_nil] at hfits
      omega
    | cons p post =>
      have hroom := hseg.room _ p post hsplit
      have hlt := hpend.short p post rfl
      rw [TcpClient.length_unread] at hlt
      rw [Frames.stream_cons, List.length_append, Frames.length_frame] at hfits
      omega
  · intro rest' hsplit' pre p post hpre _
    refine hseg.lone (s.deliveredOn b ++ pre) p post ?_
    rw [hsplit', hpre, List.append_assoc]

/-- Every cut of a segmentable stream is served. -/
theorem serve (hadm : ∀ p ∈ ps, Admissible p) (hseg : Segmentable ps) (hrounds : 65536 ≤ rounds) :
    ∀ (rs : List Recv) {received : List UInt8} {s : TcpRun} {c : TcpClient},
      Paced b ps received s → s.reading b = some c →
      received ++ Recv.bytes rs <+: Frames.stream ps →
      Paced b ps (received ++ Recv.bytes rs) (s.afterReads b rounds rs) ∧
        ∃ c', (s.afterReads b rounds rs).reading b = some c'
  | [], _, _, c, h, hr, _ => by
    rw [Recv.bytes, List.flatMap_nil, List.append_nil]
    exact ⟨h, c, hr⟩
  | r :: rs, received, s, c, h, hr, hle => by
    have hbytes : received ++ Recv.bytes (r :: rs) = received ++ r.data ++ Recv.bytes rs := by
      rw [List.append_assoc]
      rfl
    rw [hbytes] at hle ⊢
    obtain ⟨h', c', hr'⟩ := h.data_of_segmentable hadm hseg hr hrounds r
      ((List.prefix_append _ _).trans hle)
    exact serve hadm hseg hrounds rs h' hr' hle

end Paced

/-! ## Cuts of any stream -/

namespace Recv

/-- A read of `x` and of what follows it, as far as a read goes. The memory behind is 0xFF. -/
def chunk (x : UInt8) (t : List UInt8) : Recv where
  data := x :: t.take 4095
  data_ne := List.cons_ne_nil _ _
  length_le := by
    rw [List.length_cons, List.length_take]
    unfold dnsRequestBufferSize
    omega
  fresh := fun _ => 0xFF

/-- A read for each byte. -/
def singles (bs : List UInt8) : List Recv :=
  bs.map fun x => .chunk x []

/-- A read of the length of `p`. -/
def lengthOf (p : List UInt8) : Recv :=
  .chunk (UInt8.ofNat (p.length / 256)) [UInt8.ofNat p.length]

/-- The length of each frame in one read, and a read for each byte of its payload. -/
def headed (ps : List (List UInt8)) : List Recv :=
  ps.flatMap fun p => lengthOf p :: singles p

/-- A read for each byte of `bs`, then one with as much as a read can hold of `x :: t`, and then
a read for each byte left. -/
def joined (bs : List UInt8) (x : UInt8) (t : List UInt8) : List Recv :=
  singles bs ++ .chunk x t :: singles (t.drop 4095)

@[simp] theorem bytes_cons (r : Recv) (rs : List Recv) : bytes (r :: rs) = r.data ++ bytes rs := rfl

@[simp] theorem bytes_append (rs rs' : List Recv) : bytes (rs ++ rs') = bytes rs ++ bytes rs' :=
  List.flatMap_append

@[simp] theorem bytes_singles : ∀ bs : List UInt8, bytes (singles bs) = bs
  | [] => rfl
  | x :: bs => congrArg (x :: ·) (bytes_singles bs)

@[simp] theorem singles_append (bs bs' : List UInt8) :
    singles (bs ++ bs') = singles bs ++ singles bs' :=
  List.map_append

theorem bytes_headed : ∀ ps : List (List UInt8), bytes (headed ps) = Frames.stream ps
  | [] => rfl
  | p :: ps => by
    have hcons : headed (p :: ps) = lengthOf p :: (singles p ++ headed ps) := rfl
    rw [hcons, bytes_cons, bytes_append, bytes_singles, bytes_headed ps, Frames.stream_cons,
      ← List.append_assoc]
    rfl

theorem bytes_joined (bs : List UInt8) (x : UInt8) (t : List UInt8) :
    bytes (joined bs x t) = bs ++ x :: t := by
  rw [joined, bytes_append, bytes_singles, bytes_cons, bytes_singles]
  change bs ++ (x :: t.take 4095 ++ t.drop 4095) = _
  rw [List.cons_append, List.take_append_drop]

end Recv

namespace Paced

variable {b : ℕ} {ps pre post : List (List UInt8)} {p : List UInt8} {rounds : ℕ}

/-- Byte by byte to the end of a frame whose length is there. -/
theorem serve_payload (hadm : ∀ q ∈ pre ++ p :: post, Admissible q) (hrounds : 65536 ≤ rounds) :
    ∀ (u : List UInt8) {t : List UInt8} {s : TcpRun} {c : TcpClient},
      Paced b (pre ++ p :: post) (Frames.stream pre ++ t) s → s.reading b = some c →
      t ++ u = Frames.frame p → 2 ≤ t.length →
      Paced b (pre ++ p :: post) (Frames.stream pre ++ Frames.frame p)
          (s.afterReads b rounds (Recv.singles u)) ∧
        ∃ c', (s.afterReads b rounds (Recv.singles u)).reading b = some c'
  | [], t, s, c, h, hr, ht, _ => by
    rw [List.append_nil] at ht
    exact ⟨ht ▸ h, c, hr⟩
  | x :: u, t, s, c, h, hr, ht, h2 => by
    have ht' : t ++ [x] ++ u = Frames.frame p := by rw [← ht, List.append_assoc]; rfl
    obtain ⟨h', c', hr'⟩ := h.within hadm hr hrounds (.chunk x []) ⟨u, ht'⟩
      (h2.trans (by rw [List.length_append]; exact Nat.le_add_right _ _))
    exact serve_payload hadm hrounds u h' hr' ht'
      (h2.trans (by rw [List.length_append]; exact Nat.le_add_right _ _))

/-- With the length of each frame in one read and then byte by byte, every stream of admissible
frames is served. -/
theorem serve_headed (hrounds : 65536 ≤ rounds) :
    ∀ (post : List (List UInt8)) {pre : List (List UInt8)} {s : TcpRun} {c : TcpClient},
      Paced b (pre ++ post) (Frames.stream pre) s → s.reading b = some c →
      (∀ q ∈ pre ++ post, Admissible q) →
      Paced b (pre ++ post) (Frames.stream (pre ++ post))
          (s.afterReads b rounds (Recv.headed post)) ∧
        ∃ c', (s.afterReads b rounds (Recv.headed post)).reading b = some c'
  | [], pre, s, c, h, hr, _ => by
    rw [List.append_nil] at h ⊢
    exact ⟨h, c, hr⟩
  | p :: post, pre, s, c, h, hr, hadm => by
    have hlength : [] ++ (Recv.lengthOf p).data ++ p = Frames.frame p := rfl
    have hstart : Paced b (pre ++ p :: post) (Frames.stream pre ++ []) s := by
      rw [List.append_nil]
      exact h
    obtain ⟨h', c', hr'⟩ := hstart.within hadm hr hrounds (Recv.lengthOf p) ⟨p, hlength⟩ le_rfl
    obtain ⟨h'', c'', hr''⟩ := serve_payload hadm hrounds p h' hr' hlength le_rfl
    have hsplit : pre ++ p :: post = pre ++ [p] ++ post := by rw [List.append_assoc]; rfl
    rw [← Frames.stream_concat] at h''
    rw [hsplit] at h'' hadm ⊢
    obtain ⟨hend, c₃, hr₃⟩ := serve_headed hrounds post h'' hr'' hadm
    have hreads : s.afterReads b rounds (Recv.headed (p :: post)) =
        ((s.step (.read b rounds (.data (Recv.lengthOf p)))).afterReads b rounds
          (Recv.singles p)).afterReads b rounds (Recv.headed post) := by
      rw [← TcpRun.afterReads_append]
      rfl
    rw [hreads]
    exact ⟨hend, c₃, hr₃⟩

/-! ## Cuts that go wrong -/

/-- If a read of the first byte of a length makes `read_cb` hand over no request that is too
long, the length does not wrap there. -/
theorem lone_of_short {s : TcpRun} {c : TcpClient}
    (h : Paced b (pre ++ p :: post) (Frames.stream pre) s) (hr : s.reading b = some c)
    (hrounds : 65536 ≤ rounds) (hsize : pre = [] → c.inputBufferSize = 0) (hp : Admissible p)
    (hshort : ∀ q ∈ (s.step (.read b rounds (.data
      (.chunk (UInt8.ofNat (p.length / 256)) [])))).deliveredOn b, q.length ≤ tcpDnsMaxPayload) :
    p.length < 65280 ∨ ∃ q ∈ pre.getLast?, q.length % 256 < 254 := by
  by_contra hbad
  rw [not_or, not_lt, not_exists] at hbad
  obtain ⟨q, hq, hlong⟩ := h.exists_long_of_misread hr hrounds
    (r := .chunk (UInt8.ofNat (p.length / 256)) []) rfl rfl hsize hp hbad.1
    (fun q hq => not_lt.1 fun hlow => hbad.2 q ⟨hq, hlow⟩)
  exact absurd (hshort q hq) (not_le.2 hlong)

/-- One byte, if it does not make `read_cb` hand over a request that is too long. -/
theorem single {received : List UInt8} {s : TcpRun} {c : TcpClient} {x : UInt8}
    (h : Paced b ps received s) (hadm : ∀ p ∈ ps, Admissible p) (hr : s.reading b = some c)
    (hrounds : 65536 ≤ rounds) (hnew : received = [] → c.inputBufferSize = 0)
    (hle : received ++ [x] <+: Frames.stream ps)
    (hshort : ∀ q ∈ (s.step (.read b rounds (.data (.chunk x [])))).deliveredOn b,
      q.length ≤ tcpDnsMaxPayload) :
    Paced b ps (received ++ [x]) (s.step (.read b rounds (.data (.chunk x [])))) ∧
      ∃ c', (s.step (.read b rounds (.data (.chunk x [])))).reading b = some c' := by
  obtain ⟨rest, u, hsplit, hrec, hpend, hc⟩ := h.split
  obtain ⟨-, rfl⟩ := hc c (TcpRun.reading_eq_some hr).2.1
  have hnext : c.unread ++ [x] <+: Frames.stream rest := by
    rw [hrec, List.append_assoc, hsplit, Frames.stream_append] at hle
    exact (List.prefix_append_right_inj _).1 hle
  cases rest with
  | nil => exact absurd (List.prefix_nil.1 hnext) (by simp)
  | cons p post =>
    have hp := hadm p (by rw [hsplit]; simp)
    have hlt := hpend.short p post rfl
    have hmax := hp.2
    rw [TcpClient.length_unread] at hlt
    have hroom : c.inputBufferUsed + (Recv.chunk x []).data.length ≤ tcpDnsMaxPayload :=
      (Nat.succ_le_of_lt hlt).trans hmax
    refine h.data hadm hr hrounds (.chunk x []) hroom (fun rest' hsplit' => ?_) hle
    obtain rfl : p :: post = rest' := List.append_cancel_left (hsplit.symm.trans hsplit')
    rcases Nat.eq_zero_or_pos c.inputBufferUsed with hzero | hpos
    · -- the byte is the first one of a length
      have hempty : c.unread = [] := List.length_eq_zero_iff.1 (by rw [c.length_unread, hzero])
      rw [hempty, List.append_nil] at hrec
      obtain rfl : x = UInt8.ofNat (p.length / 256) := by
        rw [hempty] at hnext
        exact (List.cons_prefix_cons.1 hnext).1
      rw [hsplit, hrec] at h
      rw [hzero]
      exact unmistaken_one (h.lone_of_short hr hrounds
        (fun hnil => hnew (by rw [hrec, hnil]; rfl)) hp hshort)
    · exact unmistaken_within (Nat.succ_le_succ hpos) (Nat.succ_le_of_lt hlt)

/-- Bytes one by one, if no request that is too long is handed over by the end. -/
theorem singles (hadm : ∀ p ∈ ps, Admissible p) (hrounds : 65536 ≤ rounds) (rs : List Recv) :
    ∀ (xs : List UInt8) {received : List UInt8} {s : TcpRun} {c : TcpClient},
      Paced b ps received s → s.reading b = some c → (received = [] → c.inputBufferSize = 0) →
      received ++ xs <+: Frames.stream ps →
      (∀ q ∈ (s.afterReads b rounds (Recv.singles xs ++ rs)).deliveredOn b,
        q.length ≤ tcpDnsMaxPayload) →
      Paced b ps (received ++ xs) (s.afterReads b rounds (Recv.singles xs)) ∧
        ∃ c', (s.afterReads b rounds (Recv.singles xs)).reading b = some c' ∧
          (received ++ xs = [] → c'.inputBufferSize = 0)
  | [], received, s, c, h, hr, hnew, _, _ => by
    rw [List.append_nil]
    exact ⟨h, c, hr, hnew⟩
  | x :: xs, received, s, c, h, hr, hnew, hle, hshort => by
    have hbytes : received ++ x :: xs = received ++ [x] ++ xs := by rw [List.append_assoc]; rfl
    rw [hbytes] at hle ⊢
    have hblocks := h.blocks.step (s.tcpStep (.read b rounds (.data (.chunk x []))))
    obtain ⟨h', c', hr'⟩ := h.single hadm hr hrounds hnew ((List.prefix_append _ _).trans hle)
      fun q hq => hshort q ((TcpRun.isPrefix_deliveredOn_afterReads hblocks _).subset hq)
    exact singles hadm hrounds rs xs h' hr' (fun hnil => absurd hnil (by simp)) hle hshort

variable {s : TcpRun} {c : TcpClient}

/-- A stream that is served byte by byte has no length that wraps while only its first byte is
there. -/
theorem lone_of_singles (h : Paced b (pre ++ p :: post) [] s)
    (hadm : ∀ q ∈ pre ++ p :: post, Admissible q) (hrounds : 65536 ≤ rounds)
    (hr : s.reading b = some c) (hsize : c.inputBufferSize = 0)
    (hdel : (s.afterReads b rounds
      (Recv.singles (Frames.stream (pre ++ p :: post)))).deliveredOn b = pre ++ p :: post) :
    p.length < 65280 ∨ ∃ q ∈ pre.getLast?, q.length % 256 < 254 := by
  have hshort : ∀ q ∈ pre ++ p :: post, q.length ≤ tcpDnsMaxPayload := fun q hq =>
    (Nat.le_add_left _ _).trans (hadm q hq).2
  have hreads : Recv.singles (Frames.stream (pre ++ p :: post)) =
      Recv.singles (Frames.stream pre) ++ .chunk (UInt8.ofNat (p.length / 256)) [] ::
        Recv.singles (UInt8.ofNat p.length :: (p ++ Frames.stream post)) := by
    rw [Frames.stream_append, Recv.singles_append]
    rfl
  rw [hreads] at hdel
  obtain ⟨h', c', hr', hnew⟩ := singles hadm hrounds _ (Frames.stream pre) h hr (fun _ => hsize)
    (by rw [List.nil_append, Frames.stream_append]; exact List.prefix_append _ _)
    (by rw [hdel]; exact hshort)
  rw [List.nil_append] at h' hnew
  rw [TcpRun.afterReads_append, TcpRun.afterReads_cons] at hdel
  have hblocks := h'.blocks.step (TcpRun.tcpStep _
    (.read b rounds (.data (.chunk (UInt8.ofNat (p.length / 256)) []))))
  refine h'.lone_of_short hr' hrounds (fun hnil => hnew (by rw [hnil]; rfl)) (hadm p (by simp))
    fun q hq => hshort q ?_
  rw [← hdel]
  exact (TcpRun.isPrefix_deliveredOn_afterReads hblocks _).subset hq

/-- A stream that is served with the last byte of a frame and the next frames in one read has
room for them in the buffer. -/
theorem room_of_joined (h : Paced b (pre ++ p :: post) [] s)
    (hadm : ∀ q ∈ pre ++ p :: post, Admissible q) (hrounds : 65536 ≤ rounds)
    (hr : s.reading b = some c) (hsize : c.inputBufferSize = 0) {t : List UInt8} {x : UInt8}
    (hframe : Frames.frame p = t ++ [x])
    (hkept : ((s.afterReads b rounds (Recv.joined (Frames.stream pre ++ t) x
      (Frames.stream post))).server.find b).isSome = true)
    (hdel : (s.afterReads b rounds (Recv.joined (Frames.stream pre ++ t) x
      (Frames.stream post))).deliveredOn b = pre ++ p :: post) :
    2 + p.length + min 4095 (Frames.stream post).length ≤ tcpDnsMaxPayload := by
  have hle : [] ++ (Frames.stream pre ++ t) <+: Frames.stream (pre ++ p :: post) := by
    rw [List.nil_append, Frames.stream_append, Frames.stream_cons, hframe, List.append_assoc t]
    exact (List.prefix_append_right_inj _).2 (List.prefix_append _ _)
  obtain ⟨h', c', hr', -⟩ := singles hadm hrounds _ (Frames.stream pre ++ t) h hr
    (fun _ => hsize) hle
    (by
      rw [Recv.joined] at hdel
      rw [hdel]
      exact fun q hq => (Nat.le_add_left _ _).trans (hadm q hq).2)
  have hne : t ≠ Frames.frame p := by
    rw [hframe]
    exact fun heq => by simpa using congrArg List.length heq
  obtain ⟨-, -, hused⟩ := h'.reading_within ⟨[x], hframe.symm⟩ hne hr'
  have hlen : 2 + p.length = t.length + 1 := by
    rw [← Frames.length_frame, hframe, List.length_append, List.length_singleton]
  by_contra hgt
  have hgone := h'.gone_of_no_room hr' rounds (r := .chunk x (Frames.stream post)) (by
    simp only [Recv.chunk, List.length_cons, List.length_take]
    omega)
  rw [Recv.joined, TcpRun.afterReads_append, TcpRun.afterReads_cons,
    TcpRun.afterReads_of_gone hgone, hgone] at hkept
  cases hkept

/-- A stream that is served whatever the reads is segmentable. -/
theorem segmentable (h : Paced b ps [] s) (hadm : ∀ q ∈ ps, Admissible q)
    (hrounds : 65536 ≤ rounds) (hr : s.reading b = some c) (hsize : c.inputBufferSize = 0)
    (hserved : ∀ rs, Recv.bytes rs = Frames.stream ps →
      ((s.afterReads b rounds rs).server.find b).isSome = true ∧
        (s.afterReads b rounds rs).deliveredOn b = ps) : Segmentable ps where
  room := by
    rintro pre p post rfl
    obtain ⟨t, x, hframe⟩ : ∃ t x, Frames.frame p = t ++ [x] := by
      rcases List.eq_nil_or_concat (Frames.frame p) with hnil | ⟨t, x, hx⟩
      · exact absurd hnil (List.cons_ne_nil _ _)
      · exact ⟨t, x, by rw [hx, List.concat_eq_append]⟩
    obtain ⟨hkept, hdel⟩ := hserved
      (Recv.joined (Frames.stream pre ++ t) x (Frames.stream post)) (by
        rw [Recv.bytes_joined, Frames.stream_append, Frames.stream_cons, hframe, List.append_assoc,
          List.append_assoc]
        rfl)
    exact h.room_of_joined hadm hrounds hr hsize hframe hkept hdel
  lone := by
    rintro pre p post rfl
    exact h.lone_of_singles hadm hrounds hr hsize (hserved _ (Recv.bytes_singles _)).2

end Paced

/-! ## Two cuts of one stream -/

/-- No request is handed over for a connection that is yet to come. -/
theorem deliveredOn_of_fresh (limit : ℕ) (es : List TcpEvent) {b : ℕ}
    (hb : (TcpRun.run limit es).server.nextBlock ≤ b) :
    (TcpRun.run limit es).deliveredOn b = [] := by
  have hinv : Blocks (TcpRun.run limit es).server ∧
      ((TcpRun.run limit es).server.nextBlock ≤ b → (TcpRun.run limit es).deliveredOn b = []) := by
    refine Runs.invariant (P := fun s : TcpRun => Blocks s.server ∧
      (s.server.nextBlock ≤ b → s.deliveredOn b = [])) (fun s e h => ?_) es
      ⟨Blocks.run limit [], fun _ => rfl⟩
    have hs := s.tcpStep e
    refine ⟨h.1.step hs, fun hge => ?_⟩
    have hge' : s.server.nextBlock ≤ b := by
      rcases listed_step hs with ⟨hnext, -⟩ | ⟨hnext, -⟩ <;> omega
    rcases s.event_cases b e with ⟨rounds, r, c, rfl, hr, -⟩ | ⟨hstep, -⟩ | ⟨hdata, -⟩
    · obtain ⟨hmem, hblock⟩ := DnsServerTcp.find_eq_some (TcpRun.reading_eq_some hr).2.1
      have hlt := h.1.lt c hmem
      omega
    · rw [hstep]
      exact h.2 hge'
    · rw [(other_step hs h.1 hdata).1]
      exact h.2 hge'
  exact hinv.2 hb

/-- The connection that `accept_cb` has just made a struct for. -/
theorem paced_accept {limit : ℕ} {es : List TcpEvent} (hh : (TcpRun.run limit es).halted = false)
    (hw : (TcpRun.run limit es).server.acceptWatcher = true) (fd : ℕ) (addr : SockAddr)
    (ps : List (List UInt8)) :
    Paced (TcpRun.run limit es).server.nextBlock ps []
        (TcpRun.run limit (es ++ [.accept (.sock fd addr)])) ∧
      ∃ c, (TcpRun.run limit (es ++ [.accept (.sock fd addr)])).reading
        (TcpRun.run limit es).server.nextBlock = some c ∧ c.inputBufferSize = 0 := by
  have hblocks : Blocks (TcpRun.run limit (es ++ [.accept (.sock fd addr)])).server :=
    Blocks.run limit _
  have hstep : TcpRun.run limit (es ++ [.accept (.sock fd addr)]) =
      { TcpRun.run limit es with
        server := (TcpRun.run limit es).server.addClient fd addr addr.length } := by
    rw [TcpRun.run, Runs.run_concat, ← TcpRun.run, TcpRun.step, if_neg (by simp [hh])]
    simp [hw, DnsServerTcp.acceptCb]
  have hdel : (TcpRun.run limit (es ++ [.accept (.sock fd addr)])).deliveredOn
      (TcpRun.run limit es).server.nextBlock = [] := by
    rw [hstep]
    exact deliveredOn_of_fresh limit es le_rfl
  have hfind : ∃ c, (TcpRun.run limit (es ++ [.accept (.sock fd addr)])).server.find
      (TcpRun.run limit es).server.nextBlock = some c ∧ c.readWatcher = true ∧
      c.inputBufferSize = 0 ∧ c.inputBufferUsed = 0 := by
    rw [hstep]
    exact ⟨_, List.find?_cons_of_pos (by simp), rfl, rfl, rfl⟩
  obtain ⟨c, hc, hwatch, hsize, hused⟩ := hfind
  have hunread : c.unread = [] := List.length_eq_zero_iff.1 (by rw [c.length_unread, hused])
  refine ⟨⟨⟨hblocks, fun _ => ⟨rfl, hdel⟩, ps, [], by rw [hdel]; rfl, by rw [hdel]; rfl,
    ⟨List.nil_prefix, fun p rest _ => ?_⟩, fun c' hc' => ?_⟩, fun c' _ q hq => ?_⟩, c, ?_, hsize⟩
  · rw [List.length_nil]
    omega
  · obtain rfl := Option.some.inj (hc.symm.trans hc')
    exact ⟨⟨by omega, by rw [hused]; exact Nat.zero_le _, Or.inl hsize⟩, hunread⟩
  · rw [hdel] at hq
    exact (Option.not_mem_none q hq).elim
  · have hhalted : (TcpRun.run limit (es ++ [.accept (.sock fd addr)])).halted = false := by
      rw [hstep]
      exact hh
    rw [TcpRun.reading, if_neg (by simp [hhalted]), hc]
    simp [hwatch]

/-- A stream that is served leaves the connection in place and all requests handed over. -/
theorem Paced.outcome {b : ℕ} {ps : List (List UInt8)} {s : TcpRun} {c : TcpClient}
    (h : Paced b ps (Frames.stream ps) s) (hr : s.reading b = some c) :
    (s.server.find b).isSome = true ∧ s.halted = false ∧ s.deliveredOn b = ps := by
  obtain ⟨hh, hf, -⟩ := TcpRun.reading_eq_some hr
  exact ⟨by rw [hf]; rfl, hh, h.deliveredOn_eq⟩

/-- After every run, for a connection just accepted and a stream of frames, each with a DNS
header and at most `TCP_DNS_MAX_PAYLOAD` bytes long : the connection is kept, the callbacks
return and the requests are handed over alike for all ways to cut the stream into reads, and
for anything in the memory that is allocated for it, exactly if the stream is segmentable. -/
theorem segmentation_iff (limit : ℕ) (es : List TcpEvent)
    (hh : (TcpRun.run limit es).halted = false)
    (hw : (TcpRun.run limit es).server.acceptWatcher = true) (fd : ℕ) (addr : SockAddr)
    (rounds : ℕ) (hrounds : 65536 ≤ rounds) (ps : List (List UInt8))
    (hps : ∀ p ∈ ps, Admissible p) :
    let b := (TcpRun.run limit es).server.nextBlock
    let s := TcpRun.run limit (es ++ [.accept (.sock fd addr)])
    (∀ rs rs' : List Recv, Recv.bytes rs = Frames.stream ps → Recv.bytes rs' = Frames.stream ps →
        (s.afterReads b rounds rs).SameServing b (s.afterReads b rounds rs')) ↔
      Segmentable ps := by
  intro b s
  obtain ⟨h, c, hr, hsize⟩ := paced_accept hh hw fd addr ps
  constructor
  · intro hsame
    have hstart : Paced b ([] ++ ps) (Frames.stream []) s := h
    obtain ⟨hgood, c', hr'⟩ := Paced.serve_headed hrounds ps hstart hr hps
    obtain ⟨hkept, -, hdel⟩ := hgood.outcome hr'
    refine h.segmentable hps hrounds hr hsize fun rs hrs => ?_
    have hs := hsame rs (Recv.headed ps) hrs (Recv.bytes_headed ps)
    exact ⟨hs.kept.trans hkept, hs.delivered.trans hdel⟩
  · intro hseg
    have hserved : ∀ rs, Recv.bytes rs = Frames.stream ps →
        ((s.afterReads b rounds rs).server.find b).isSome = true ∧
          (s.afterReads b rounds rs).halted = false ∧
          (s.afterReads b rounds rs).deliveredOn b = ps := by
      intro rs hrs
      obtain ⟨hend, c', hr'⟩ := Paced.serve hps hseg hrounds rs h hr (by rw [hrs]; rfl)
      rw [hrs] at hend
      exact hend.outcome hr'
    intro rs rs' hrs hrs'
    obtain ⟨hkept, hhalted, hdel⟩ := hserved rs hrs
    obtain ⟨hkept', hhalted', hdel'⟩ := hserved rs' hrs'
    exact ⟨hkept.trans hkept'.symm, hhalted.trans hhalted'.symm, hdel.trans hdel'.symm⟩

/-- Ordinary requests leave room for whatever comes with them. -/
theorem segmentable_of_ordinary {ps : List (List UInt8)} (h : ∀ p ∈ ps, Ordinary p) :
    Segmentable ps := by
  have hle : ∀ pre p post, ps = pre ++ p :: post → p.length ≤ 61436 :=
    fun pre p post heq => (h p (by simp [heq])).2
  refine ⟨fun pre p post heq => ?_, fun pre p post heq => Or.inl ?_⟩
  · have hp := hle pre p post heq
    unfold tcpDnsMaxPayload
    omega
  · have hp := hle pre p post heq
    omega

/-- Three requests, cut inside the length of the second and byte by byte. -/
theorem segmentation_three :
    let s := TcpRun.run 20 [.accept (.sock 7 [])]
    (TcpRun.afterReads 0 65536 s [.chunk 0 (12 :: (List.replicate 12 1 ++ [0])),
        .chunk 13 (List.replicate 13 2 ++ Frames.frame (List.replicate 12 3))]).SameServing 0
      (TcpRun.afterReads 0 65536 s (Recv.singles (Frames.stream threeRequests))) :=
  (segmentation_iff 20 [] rfl rfl 7 [] 65536 le_rfl threeRequests
    fun p hp => (ordinary_threeRequests p hp).admissible).2
    (segmentable_of_ordinary ordinary_threeRequests) _ _ (by decide) (Recv.bytes_singles _)

/-- The largest payload a frame of `TCP_DNS_MAX_PAYLOAD` bytes holds, and a bare header. -/
def largeThenSmall : List (List UInt8) :=
  [List.replicate 65531 0, List.replicate 12 0]

/-- Cut one way the stream is served, and if the last byte of the large request comes with the
small one, the connection is removed. -/
theorem segmentation_large :
    (∀ p ∈ largeThenSmall, Admissible p) ∧
      Recv.bytes (Recv.headed largeThenSmall) = Frames.stream largeThenSmall ∧
      Recv.bytes (Recv.joined (toBe16 65531 ++ List.replicate 65530 0) 0
        (Frames.frame (List.replicate 12 0))) = Frames.stream largeThenSmall ∧
      ¬(TcpRun.afterReads 0 65536 (TcpRun.run 20 [.accept (.sock 7 [])])
          (Recv.headed largeThenSmall)).SameServing 0
        (TcpRun.afterReads 0 65536 (TcpRun.run 20 [.accept (.sock 7 [])])
          (Recv.joined (toBe16 65531 ++ List.replicate 65530 0) 0
            (Frames.frame (List.replicate 12 0)))) := by
  have hadm : ∀ p ∈ largeThenSmall, Admissible p := by
    intro p hp
    rcases List.mem_pair.1 hp with rfl | rfl <;>
      exact ⟨by rw [List.length_replicate]; decide, by rw [List.length_replicate]; decide⟩
  have hframe : Frames.frame (List.replicate 65531 (0 : UInt8)) =
      toBe16 65531 ++ List.replicate 65530 0 ++ [0] := by
    rw [Frames.frame, List.length_replicate, List.append_assoc, ← List.replicate_succ']
  have hbytes : Recv.bytes (Recv.joined (toBe16 65531 ++ List.replicate 65530 0) 0
      (Frames.frame (List.replicate 12 0))) = Frames.stream largeThenSmall := by
    rw [Recv.bytes_joined, largeThenSmall, Frames.stream_cons, hframe, List.append_assoc _ [0]]
    rfl
  refine ⟨hadm, Recv.bytes_headed _, hbytes, fun hsame => ?_⟩
  have hhalted : (TcpRun.run 20 []).halted = false := rfl
  have hwatch : (TcpRun.run 20 []).server.acceptWatcher = true := rfl
  obtain ⟨h, c, hr, hsize⟩ := paced_accept hhalted hwatch 7 [] largeThenSmall
  have hstart : Paced 0 ([] ++ largeThenSmall) (Frames.stream [])
      (TcpRun.run 20 [.accept (.sock 7 [])]) := h
  obtain ⟨hgood, c', hr'⟩ := Paced.serve_headed (le_refl 65536) largeThenSmall hstart hr hadm
  obtain ⟨hkept, -, hdel⟩ := hgood.outcome hr'
  have hfirst : Paced 0 ([] ++ List.replicate 65531 0 :: [List.replicate 12 0]) []
      (TcpRun.run 20 [.accept (.sock 7 [])]) := h
  have hroom : 2 + (List.replicate 65531 (0 : UInt8)).length +
      min 4095 (Frames.stream [List.replicate 12 (0 : UInt8)]).length ≤ tcpDnsMaxPayload :=
    hfirst.room_of_joined hadm le_rfl hr hsize hframe (hsame.kept.symm.trans hkept)
      (hsame.delivered.symm.trans hdel)
  rw [List.length_replicate] at hroom
  exact absurd hroom (by decide)

end HttpsDnsProxy
