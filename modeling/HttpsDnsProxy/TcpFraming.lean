import HttpsDnsProxy.TcpSplit

/-!
# Requests of a TCP connection over whole runs

`receivedOn` is what a run has received from a connection, in whatever pieces and between
whatever other events, and `deliveredOn` the requests handed over for it. `Decoded` relates
the two : the requests are the first frames of the bytes, and the buffer holds the rest.

An event keeps this as long as each length that `get_dns_request` comes upon is at most
`TCP_DNS_MAX_PAYLOAD` (`Decoded.step`), and the first that is larger breaks it
(`Decoded.overrun`) : `2 + req_size` is computed in 16 bits. So the framing of a run is sound
exactly if its lengths fit (`framingSound_iff`), and two bytes are enough to break it
(`framing_wraps`).
-/

namespace HttpsDnsProxy

namespace TcpRun

/-- The client whose `read_cb` is called when the socket at `b` is readable. -/
def reading (b : ℕ) (s : TcpRun) : Option TcpClient :=
  if s.halted then none else (s.server.find b).filter TcpClient.readWatcher

/-- The bytes an event receives from the connection at `b`. -/
def recvOn (b : ℕ) (s : TcpRun) : TcpEvent → List UInt8
  | .read block _ (.data r) => if block = b ∧ (s.reading b).isSome then r.data else []
  | _ => []

/-- The bytes a run receives from the connection at `b`. -/
def receivedOn (b : ℕ) : TcpRun → List TcpEvent → List UInt8
  | _, [] => []
  | s, e :: es => s.recvOn b e ++ receivedOn b (s.step e) es

/-- The client at `b` each time an event calls `get_dns_request` for it. -/
def callsOn (b : ℕ) (s : TcpRun) : TcpEvent → List TcpClient
  | .read block rounds (.data r) =>
    if block = b then
      match s.reading b with
      | some c => c.readCalls rounds r
      | none => []
    else []
  | _ => []

theorem receivedOn_append (b : ℕ) (fs : List TcpEvent) :
    ∀ (s : TcpRun) (es : List TcpEvent),
      receivedOn b s (es ++ fs) = receivedOn b s es ++ receivedOn b (Runs.run step s es) fs
  | _, [] => rfl
  | s, e :: es => by
    simp only [List.cons_append, receivedOn, receivedOn_append b fs (s.step e) es, Runs.run_cons,
      List.append_assoc]

theorem receivedOn_concat (b : ℕ) (e : TcpEvent) (s : TcpRun) (es : List TcpEvent) :
    receivedOn b s (es ++ [e]) = receivedOn b s es ++ (Runs.run step s es).recvOn b e := by
  rw [receivedOn_append, receivedOn, receivedOn, List.append_nil]

theorem reading_eq_some {b : ℕ} {s : TcpRun} {c : TcpClient} (h : s.reading b = some c) :
    s.halted = false ∧ s.server.find b = some c ∧ c.readWatcher = true := by
  unfold reading at h
  split_ifs at h with hh
  rw [Option.filter_eq_some_iff] at h
  exact ⟨by simpa using hh, h.1, h.2⟩

theorem step_of_reading {b : ℕ} {s : TcpRun} {c : TcpClient} (h : s.reading b = some c)
    (rounds : ℕ) (res : RecvResult) : s.step (.read b rounds res) = s.readEvent b rounds res := by
  obtain ⟨hh, hf, hw⟩ := reading_eq_some h
  simp [step, hh, hf, hw]

/-- What data read from a connection adds to its requests. -/
theorem deliveredOn_readEvent {b : ℕ} {s : TcpRun} {c : TcpClient} (hb : Blocks s.server)
    (hc : s.server.find b = some c) (rounds : ℕ) (r : Recv) :
    (s.readEvent b rounds (.data r)).deliveredOn b =
      s.deliveredOn b ++ (c.readInput rounds r).2.1 := by
  rw [deliveredOn, delivered_readEvent]
  exact (readCb_data hb hc rounds r).delivered

theorem step_of_not_reading {b : ℕ} {s : TcpRun} (h : s.reading b = none) (rounds : ℕ)
    (res : RecvResult) : s.step (.read b rounds res) = s := by
  unfold reading at h
  split_ifs at h with hh
  · simp [step, hh]
  · have hw : (s.server.find b).any TcpClient.readWatcher = false := by
      cases hf : s.server.find b with
      | none => rfl
      | some c => simpa [hf] using h
    simp [step, hw]

end TcpRun

/-- Every length that the event comes upon at `b` is at most `TCP_DNS_MAX_PAYLOAD`. -/
def TcpRun.LengthsFit (b : ℕ) (s : TcpRun) (e : TcpEvent) : Prop :=
  ∀ c ∈ s.callsOn b e, c.reqSize ≤ tcpDnsMaxPayload

/-! ## What the other events do to a connection -/

/-- The client at `b` is gone, or has the input it had. -/
def SameInput (b : ℕ) (d d' : DnsServerTcp) : Prop :=
  ∀ c', d'.find b = some c' → ∃ c t, d.find b = some c ∧ c' = { c with timerWatcher := t }

theorem SameInput.refl (b : ℕ) (d : DnsServerTcp) : SameInput b d d :=
  fun c' h => ⟨c', c'.timerWatcher, h, rfl⟩

theorem SameInput.of_find {b : ℕ} {d d' d'' : DnsServerTcp} (h : SameInput b d d')
    (hf : ∀ c, d''.find b = some c → d'.find b = some c) : SameInput b d d'' :=
  fun c' hc' => h c' (hf c' hc')

theorem SameInput.kept (b : ℕ) (d : DnsServerTcp) :
    KeptByRemoval fun d' => Blocks d' ∧ SameInput b d d' where
  again d' block c hc h := by
    refine ⟨Blocks.kept.again d' block c hc h.1, fun c' hc' => ?_⟩
    rw [DnsServerTcp.timerAgain, DnsServerTcp.find_map _ fun c => by split_ifs <;> rfl,
      Option.map_eq_some_iff] at hc'
    obtain ⟨x, hx, rfl⟩ := hc'
    obtain ⟨y, t, hy, rfl⟩ := h.2 x hx
    split_ifs
    · exact ⟨y, true, hy, rfl⟩
    · exact ⟨y, t, hy, rfl⟩
  remove d' block c hc h := by
    refine ⟨Blocks.kept.remove d' block c hc h.1, h.2.of_find fun c' hc' => ?_⟩
    obtain ⟨hmem, rfl⟩ := DnsServerTcp.find_eq_some hc'
    rw [DnsServerTcp.clients_removeClient] at hmem
    exact h.1.find_eq (List.mem_of_mem_eraseP hmem)

/-- A read of another connection leaves the input at `b` and its requests alone. -/
theorem readEvent_other {b block : ℕ} (hne : block ≠ b) {s : TcpRun} (hb : Blocks s.server)
    (rounds : ℕ) (res : RecvResult) :
    SameInput b s.server (s.readEvent block rounds res).server ∧
      (s.readEvent block rounds res).deliveredOn b = s.deliveredOn b := by
  have hkept : KeptByRead TcpRun.serverIn TcpRun.record block fun s' =>
      (Blocks s'.server ∧ SameInput b s.server s'.server) ∧ s'.deliveredOn b = s.deliveredOn b :=
    { input := by
        intro s' c m n k hc h
        refine ⟨⟨Blocks.kept.input _ block c m n k hc h.1.1, h.1.2.of_find fun c' hc' => ?_⟩, h.2⟩
        have hblock : (c.withInput m n k).block ≠ b :=
          fun hb => hne ((DnsServerTcp.find_eq_some hc).2.symm.trans hb)
        exact (DnsServerTcp.find_update_ne hblock).symm.trans hc'
      again := fun s' c hc h => ⟨(SameInput.kept b s.server).again _ block c hc h.1, h.2⟩
      remove := fun s' c hc h => ⟨(SameInput.kept b s.server).remove _ block c hc h.1, h.2⟩
      call := by
        intro s' c req _ _ h
        refine ⟨h.1, ?_⟩
        rw [TcpRun.deliveredOn_record, if_neg hne, List.append_nil]
        exact h.2 }
  have hres := hkept.readCb rounds res (s := s) ⟨⟨hb, SameInput.refl b _⟩, rfl⟩
  rw [TcpRun.server_readEvent, TcpRun.deliveredOn, TcpRun.delivered_readEvent]
  exact ⟨hres.1.2, hres.2⟩

/-- Data read from the connection at `b`. -/
def TcpEvent.IsData (b : ℕ) : TcpEvent → Prop
  | .read block _ (.data _) => block = b
  | _ => False

theorem TcpRun.recvOn_of_not_isData {b : ℕ} {s : TcpRun} :
    ∀ {e : TcpEvent}, ¬e.IsData b → s.recvOn b e = []
  | .read _ _ (.data _), h => if_neg fun hb => h hb.1
  | .read _ _ .closed, _ | .read _ _ (.error _), _ => rfl
  | .accept _, _ | .timeout _, _ | .respond _ _ _, _ | .stop, _ => rfl

/-- An event as the connection at `b` sees it : data that a read takes up, data that no watcher
waits for, or no data of `b`. -/
theorem TcpRun.event_cases (b : ℕ) (s : TcpRun) (e : TcpEvent) :
    (∃ rounds r c, e = .read b rounds (.data r) ∧ s.reading b = some c ∧ s.recvOn b e = r.data) ∨
      (s.step e = s ∧ s.recvOn b e = []) ∨ (¬e.IsData b ∧ s.recvOn b e = []) := by
  by_cases hdata : e.IsData b
  · match e, hdata with
    | .read _ rounds (.data r), rfl =>
      cases hr : s.reading b with
      | none => exact Or.inr (Or.inl ⟨step_of_not_reading hr rounds _, by simp [recvOn, hr]⟩)
      | some c => exact Or.inl ⟨rounds, r, c, rfl, rfl, by simp [recvOn, hr]⟩
  · exact Or.inr (Or.inr ⟨hdata, recvOn_of_not_isData hdata⟩)

/-- The struct a connection starts with has an empty buffer. -/
theorem addClient_input (d : DnsServerTcp) (sock : ℤ) (addr : SockAddr) (n b : ℕ) :
    SameInput b d (d.addClient sock addr n) ∨
      (b = d.nextBlock ∧ ∀ c, (d.addClient sock addr n).find b = some c →
        c.Bounded ∧ c.unread = []) := by
  by_cases h : d.nextBlock = b
  · refine Or.inr ⟨h.symm, fun c hc => ?_⟩
    simp only [DnsServerTcp.find, DnsServerTcp.addClient, List.find?_cons, h, decide_true,
      Option.some.injEq] at hc
    obtain rfl := hc
    exact ⟨⟨le_rfl, Nat.zero_le _, Or.inl rfl⟩, rfl⟩
  · refine Or.inl ((SameInput.refl b d).of_find fun c hc => ?_)
    simpa [DnsServerTcp.find, DnsServerTcp.addClient, h] using hc

/-- An event that brings no data from `b` hands over none of its requests and leaves its
input as it was, or is the one that accepts it. -/
theorem other_step {s s' : TcpRun} {e : TcpEvent} {b : ℕ} (hs : TcpStep s e s')
    (hb : Blocks s.server) (hne : ¬e.IsData b) :
    s'.deliveredOn b = s.deliveredOn b ∧
      (SameInput b s.server s'.server ∨ (b = s.server.nextBlock ∧
        ∀ c, s'.server.find b = some c → c.Bounded ∧ c.unread = [])) := by
  have h0 : Blocks s.server ∧ SameInput b s.server s.server := ⟨hb, SameInput.refl b _⟩
  have hkept := SameInput.kept b s.server
  cases hs with
  | idle => exact ⟨rfl, Or.inl h0.2⟩
  | accept r _ =>
    cases r with
    | sock fd addr => exact ⟨rfl, addClient_input _ _ _ _ b⟩
    | error e stack =>
      rw [DnsServerTcp.acceptCb]
      split_ifs
      · exact ⟨rfl, addClient_input _ _ _ _ b⟩
      · exact ⟨rfl, Or.inl h0.2⟩
  | read block rounds res c hc =>
    by_cases hblock : block = b
    · subst hblock
      have hget : (TcpRun.serverIn.get s).find block = some c := hc
      have hrem := (hkept.remove _ block c hc h0).2
      cases res with
      | data r => exact (hne rfl).elim
      | closed =>
        simp only [TcpRun.readEvent, readCb, hget]
        exact ⟨rfl, Or.inl hrem⟩
      | error e =>
        by_cases he : e.wouldBlock = true
        · simp only [TcpRun.readEvent, readCb, hget, if_pos he]
          exact ⟨trivial, Or.inl h0.2⟩
        · simp only [TcpRun.readEvent, readCb, hget, if_neg he]
          exact ⟨rfl, Or.inl hrem⟩
    · obtain ⟨hsame, hdel⟩ := readEvent_other hblock hb rounds res
      exact ⟨hdel, Or.inl hsame⟩
  | timeout block c hc => exact ⟨rfl, Or.inl (hkept.remove _ block c hc h0).2⟩
  | respond raddr resp sends => exact ⟨rfl, Or.inl (hkept.respond _ raddr resp sends h0).2⟩
  | stop _ => exact ⟨rfl, Or.inl (hkept.removeClients s.server.clients.length _ h0).2⟩

/-! ## Decoding -/

/-- The requests of the connection at `b` are the frames `received` starts with, and while
it is listed its buffer holds the rest. -/
structure Decoded (b : ℕ) (received : List UInt8) (s : TcpRun) : Prop where
  blocks : Blocks s.server
  fresh : s.server.nextBlock ≤ b → received = [] ∧ s.deliveredOn b = []
  short : ∀ p ∈ s.deliveredOn b, p.length < 65536
  begins : Frames.stream (s.deliveredOn b) <+: received
  input : ∀ c, s.server.find b = some c → c.Bounded ∧
    received = Frames.stream (s.deliveredOn b) ++ c.unread

namespace Decoded

variable {b : ℕ} {received : List UInt8} {s s' : TcpRun} {e : TcpEvent}

/-- The requests so far are the first frames of what was received. -/
theorem isPrefix_delivered (h : Decoded b received s) :
    s.deliveredOn b <+: Frames.frames received := by
  obtain ⟨t, ht⟩ := h.begins
  rw [← ht, Frames.frames_stream_append h.short]
  exact List.prefix_append _ _

theorem other (h : Decoded b received s) (hs : TcpStep s e s') (hne : ¬e.IsData b) :
    Decoded b received s' := by
  obtain ⟨hdel, hinput⟩ := other_step hs h.blocks hne
  refine ⟨h.blocks.step hs, fun hge => ?_, by rw [hdel]; exact h.short,
    by rw [hdel]; exact h.begins, fun c hc => ?_⟩
  · rw [hdel]
    rcases listed_step hs with ⟨hnext, -⟩ | ⟨hnext, -⟩ <;> exact h.fresh (by omega)
  · rw [hdel]
    rcases hinput with hsame | ⟨rfl, hnew⟩
    · obtain ⟨c', t, hc', rfl⟩ := hsame c hc
      exact ⟨(h.input c' hc').1.withTimer t, (h.input c' hc').2⟩
    · obtain ⟨hr, hd⟩ := h.fresh le_rfl
      obtain ⟨hbound, hunread⟩ := hnew c hc
      exact ⟨hbound, by rw [hr, hd, hunread]; rfl⟩

/-- Data from `b`, with every length within the limit. -/
theorem data (h : Decoded b received s) {c : TcpClient} (hc : s.server.find b = some c)
    (rounds : ℕ) (r : Recv) (hfit : ∀ x ∈ c.readCalls rounds r, x.reqSize ≤ tcpDnsMaxPayload) :
    Decoded b (received ++ r.data) (s.readEvent b rounds (.data r)) := by
  obtain ⟨hbound, hrec⟩ := h.input c hc
  obtain ⟨hshort, hpre, hrest⟩ := TcpClient.readInput_sound hbound rounds r hfit
  have hby := readCb_data h.blocks hc rounds r
  have hserver := s.server_readEvent b rounds (.data r)
  have hlt := h.blocks.lt c (DnsServerTcp.find_eq_some hc).1
  have hdel := TcpRun.deliveredOn_readEvent h.blocks hc rounds r
  have hstep : TcpStep s (.read b rounds (.data r)) (s.readEvent b rounds (.data r)) :=
    .read b rounds (.data r) c hc
  refine ⟨h.blocks.step hstep, fun hge => ?_, ?_, ?_, fun c' hc' => ?_⟩
  · rcases listed_step hstep with ⟨hnext, -⟩ | ⟨hnext, -⟩ <;>
      · have := (DnsServerTcp.find_eq_some hc).2
        omega
  · rw [hdel]
    intro p hp
    rcases List.mem_append.1 hp with hp | hp
    · exact h.short p hp
    · exact hshort p hp
  · rw [hdel, Frames.stream_append, hrec, List.append_assoc]
    exact (List.prefix_append_right_inj _).2 hpre
  · rw [hserver] at hc'
    by_cases hrem : (c.readInput rounds r).1 = .removed
    · rw [hby.gone hrem] at hc'
      cases hc'
    · obtain ⟨t, ht⟩ := hby.stays hrem
      obtain rfl := Option.some.inj (ht.symm.trans hc')
      obtain ⟨hbound', hunread⟩ := hrest hrem
      refine ⟨hbound'.withTimer t, ?_⟩
      rw [hdel, Frames.stream_append, hrec, List.append_assoc, List.append_assoc, hunread]
      rfl

/-- One event keeps the connection decoded, if every length it comes upon is within the
limit. -/
theorem step (h : Decoded b received s) (e : TcpEvent) (hfit : s.LengthsFit b e) :
    Decoded b (received ++ s.recvOn b e) (s.step e) := by
  rcases s.event_cases b e with ⟨rounds, r, c, rfl, hr, hrecv⟩ | ⟨hstep, hrecv⟩ | ⟨hdata, hrecv⟩
  · obtain ⟨-, hc, -⟩ := TcpRun.reading_eq_some hr
    rw [hrecv, TcpRun.step_of_reading hr]
    simp only [TcpRun.LengthsFit, TcpRun.callsOn, hr, if_true] at hfit
    exact h.data hc rounds r hfit
  · rw [hstep, hrecv, List.append_nil]
    exact h
  · rw [hrecv, List.append_nil]
    exact h.other (s.tcpStep e) hdata

theorem run :
    ∀ {s : TcpRun} {received : List UInt8} (es : List TcpEvent), Decoded b received s →
      Runs.Meets TcpRun.step (TcpRun.LengthsFit b) s es →
      Decoded b (received ++ TcpRun.receivedOn b s es) (Runs.run TcpRun.step s es)
  | s, received, [], h, _ => by simpa [TcpRun.receivedOn] using h
  | s, received, e :: es, h, hes => by
    have hrun := run es (h.step e hes.1) hes.2
    rw [List.append_assoc] at hrun
    exact hrun

/-- An event that comes upon a length over the limit hands over a request that is no frame
of what was received. -/
theorem overrun (h : Decoded b received s) (e : TcpEvent) (hfit : ¬s.LengthsFit b e) :
    ¬(s.step e).deliveredOn b <+: Frames.frames (received ++ s.recvOn b e) := by
  obtain ⟨x, hx, hgt⟩ : ∃ x ∈ s.callsOn b e, tcpDnsMaxPayload < x.reqSize := by
    simpa [TcpRun.LengthsFit] using hfit
  match e, hx with
  | .read block rounds (.data r), hx =>
    simp only [TcpRun.callsOn] at hx
    obtain rfl : block = b := by
      by_contra hblock
      simp [hblock] at hx
    simp only [if_true] at hx
    cases hr : s.reading block with
    | none => simp [hr] at hx
    | some c =>
      simp only [hr] at hx
      obtain ⟨-, hc, -⟩ := TcpRun.reading_eq_some hr
      obtain ⟨hbound, hrec⟩ := h.input c hc
      obtain ⟨ps, q, more, t, hreqs, ht, hps, hlt⟩ :=
        TcpClient.readInput_overrun hbound rounds r ⟨x, hx, hgt⟩
      have hdel : (s.step (.read block rounds (.data r))).deliveredOn block =
          s.deliveredOn block ++ ps ++ q :: more := by
        rw [TcpRun.step_of_reading hr, TcpRun.deliveredOn_readEvent h.blocks hc, hreqs,
          List.append_assoc]
      have hframes : Frames.frames (received ++ s.recvOn block (.read block rounds (.data r))) =
          s.deliveredOn block ++ ps ++ Frames.frames t := by
        have hshort : ∀ p ∈ s.deliveredOn block ++ ps, p.length < 65536 := by
          intro p hp
          rcases List.mem_append.1 hp with hp | hp
          · exact h.short p hp
          · exact hps p hp
        rw [← Frames.frames_stream_append hshort, Frames.stream_append, List.append_assoc, ← ht,
          ← List.append_assoc, ← hrec]
        simp [TcpRun.recvOn, hr]
      rw [hdel, hframes, List.prefix_append_right_inj]
      intro hpre
      have hq := Frames.length_add_two_le_of_mem_frames (hpre.subset (List.mem_cons_self))
      omega

theorem init (limit b : ℕ) : Decoded b [] (TcpRun.start limit) where
  blocks := Blocks.run limit []
  fresh := fun _ => ⟨rfl, rfl⟩
  short := fun _ hp => (List.not_mem_nil hp).elim
  begins := List.nil_prefix
  input := fun _ hc => nomatch hc

end Decoded

/-- The first length over the limit breaks the framing. -/
theorem not_isPrefix_delivered {limit b : ℕ} {es : List TcpEvent} {e : TcpEvent}
    (hes : Runs.Meets TcpRun.step (TcpRun.LengthsFit b) (TcpRun.start limit) es)
    (he : ¬(TcpRun.run limit es).LengthsFit b e) :
    ¬(TcpRun.run limit (es ++ [e])).deliveredOn b <+:
      Frames.frames (TcpRun.receivedOn b (TcpRun.start limit) (es ++ [e])) := by
  rw [TcpRun.run, Runs.run_concat, TcpRun.receivedOn_concat]
  exact ((Decoded.init limit b).run es hes).overrun e he

/-- Soundness of TCP framing, for every run and connection : after every part of the run the
requests handed over are the first frames of the bytes received so far, exactly if every
length that `get_dns_request` comes upon, on each of its calls, is at most
`TCP_DNS_MAX_PAYLOAD`. -/
theorem framingSound_iff (limit : ℕ) (es : List TcpEvent) (b : ℕ) :
    (∀ es', es' <+: es → (TcpRun.run limit es').deliveredOn b <+:
        Frames.frames (TcpRun.receivedOn b (TcpRun.start limit) es')) ↔
      Runs.Meets TcpRun.step (TcpRun.LengthsFit b) (TcpRun.start limit) es := by
  constructor
  · intro h
    by_contra hnot
    obtain ⟨pre, e, post, rfl, hpre, hbad⟩ := Runs.exists_of_not_meets hnot
    exact not_isPrefix_delivered hpre hbad (h (pre ++ [e]) ⟨post, by simp⟩)
  · rintro hmeets es' ⟨post, rfl⟩
    exact ((Decoded.init limit b).run es' hmeets.of_append).isPrefix_delivered

/-- A read of the two bytes of the length 65534, into a buffer of zeros. -/
def wrappingRead : Recv where
  data := [0xFF, 0xFE]
  data_ne := by decide
  length_le := by decide
  fresh := fun _ => 0

/-- After these two bytes a request is handed over, and no frame has been received. -/
theorem framing_wraps :
    ¬(TcpRun.run 20 [.accept (.sock 7 []), .read 0 1 (.data wrappingRead)]).deliveredOn 0 <+:
      Frames.frames (TcpRun.receivedOn 0 (TcpRun.start 20)
        [.accept (.sock 7 []), .read 0 1 (.data wrappingRead)]) := by
  have hmeets : Runs.Meets TcpRun.step (TcpRun.LengthsFit 0) (TcpRun.start 20)
      [.accept (.sock 7 [])] := ⟨fun _ hc => (List.not_mem_nil hc).elim, trivial⟩
  have hover : ¬(TcpRun.run 20 [.accept (.sock 7 [])]).LengthsFit 0
      (.read 0 1 (.data wrappingRead)) := by
    intro hfit
    obtain ⟨c, hr⟩ : ∃ c, (TcpRun.run 20 [.accept (.sock 7 [])]).reading 0 = some c := ⟨_, rfl⟩
    obtain ⟨hbound, hrec⟩ := ((Decoded.init 20 0).run _ hmeets).input c
      (TcpRun.reading_eq_some hr).2.1
    have hempty : c.unread = [] := (List.append_eq_nil_iff.1 hrec.symm).2
    obtain ⟨c', ha, hsize, -⟩ := TcpClient.appendInput_length hbound hempty
      (show wrappingRead.data = [0xFF, 0xFE] from rfl)
    have hle : c'.reqSize ≤ tcpDnsMaxPayload := by
      refine hfit c' ?_
      simp [TcpRun.callsOn, hr, TcpClient.readCalls, ha, TcpClient.calls]
    rw [hsize] at hle
    exact absurd hle (by decide)
  have hnot := not_isPrefix_delivered hmeets hover
  rwa [List.singleton_append] at hnot

end HttpsDnsProxy
