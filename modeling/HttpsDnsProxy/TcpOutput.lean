import HttpsDnsProxy.TcpTable

/-!
# What a TCP connection receives

A response goes out in two `send` calls or more, any of which may take less than it was
offered. `Framed` is what holds of one connection in every run : while it is listed it has
received the whole frames of the responses taken up on it, and once it is not, all of them
but perhaps a part of the last one. The responses taken up on a connection are those of the
`dns_server_tcp_respond` calls whose lookup finds it (`attempted_run`). A connection that has
left the list is never written to again (`quiet_run`), so a frame sent in part stays the last
thing the peer sees (`outputFraming`).
-/

namespace HttpsDnsProxy

/-! ## The responses for a connection -/

namespace TcpRun

/-- The response that an event is to send on the connection at `b` : that of a call of
`dns_server_tcp_respond` with a length within the bounds, whose lookup finds the connection. -/
def respondsOn (b : ℕ) (s : TcpRun) : TcpEvent → List (List UInt8)
  | .respond raddr resp _ =>
    if s.halted = false ∧ dnsHeaderLength ≤ resp.length ∧ resp.length ≤ tcpDnsMaxPayload ∧
        (s.server.lookup raddr).map TcpClient.block = some b then [resp]
    else []
  | _ => []

/-- The responses that a run is to send on the connection at `b`. -/
def respondedOn (limit b : ℕ) (es : List TcpEvent) : List (List UInt8) :=
  Runs.collect step (respondsOn b) (start limit) es

/-- An event takes up the response that it is to send, and no other. -/
theorem attempted_step (b : ℕ) (s : TcpRun) (e : TcpEvent) :
    attempted b (s.step e).sent = attempted b s.sent ++ s.respondsOn b e := by
  by_cases hh : s.halted = true
  · have hnone : s.respondsOn b e = [] := by cases e <;> simp [respondsOn, hh]
    rw [hnone, List.append_nil, step.eq_def, if_pos hh]
  rw [step.eq_def, if_neg hh]
  cases e with
  | accept | timeout =>
    simp only [respondsOn, List.append_nil]
    split_ifs <;> rfl
  | read block rounds res =>
    simp only [respondsOn, List.append_nil]
    split_ifs
    · rw [sent_readEvent]
    · rfl
  | stop => simp only [respondsOn, List.append_nil]
  | respond raddr resp sends =>
    simp only [attempted_append, respondsOn]
    rw [DnsServerTcp.attempted_dnsServerTcpRespond]
    simp [hh]

theorem attempted_run (limit b : ℕ) (es : List TcpEvent) :
    attempted b (run limit es).sent = respondedOn limit b es := by
  induction es using List.reverseRecOn with
  | nil => rfl
  | append_singleton es e ih =>
    rw [run, Runs.run_concat, attempted_step, respondedOn, Runs.collect_concat]
    exact congrArg (· ++ _) ih

end TcpRun

/-! ## Whole frames while listed -/

/-- What the connection at `b` has received, against the responses taken up on it. -/
structure Framed (b : ℕ) (s : TcpRun) : Prop where
  blocks : Blocks s.server
  fresh : s.server.nextBlock ≤ b → attempted b s.sent = [] ∧ wire b s.sent = []
  listed : s.server.Listed b → wire b s.sent = Frames.stream (attempted b s.sent)
  started : Frames.stream (attempted b s.sent).dropLast <+: wire b s.sent
  within : wire b s.sent <+: Frames.stream (attempted b s.sent)

namespace Framed

variable {s s' : TcpRun} {e : TcpEvent} {b : ℕ}

/-- An event that leaves the output of `b` alone keeps it framed. -/
theorem of_same (h : Framed b s) (hs : TcpStep s e s')
    (ha : attempted b s'.sent = attempted b s.sent) (hw : wire b s'.sent = wire b s.sent) :
    Framed b s' where
  blocks := h.blocks.step hs
  fresh := by
    intro hb
    rw [ha, hw]
    rcases listed_step hs with ⟨hnext, -⟩ | ⟨hnext, -⟩ <;> exact h.fresh (by omega)
  listed := by
    intro hb
    rw [ha, hw]
    rcases listed_step hs with ⟨-, hl⟩ | ⟨-, -, hl⟩
    · exact h.listed (hl b hb)
    · rcases hl b hb with rfl | hb
      · obtain ⟨ha, hw⟩ := h.fresh le_rfl
        rw [ha, hw, Frames.stream_nil]
      · exact h.listed hb
  started := by rw [ha, hw]; exact h.started
  within := by rw [ha, hw]; exact h.within

/-- A response taken up on `b` itself : its frame follows the earlier ones, whole if the
connection stays. -/
theorem respondTo (h : Framed b s) (hs : TcpStep s e s') {resp : List UInt8}
    {sends : ℕ → SendResult} (hb : s.server.Listed b)
    (hd : s'.server = (s.server.respondTo b resp sends).1)
    (hsent : s'.sent = s.sent ++ (s.server.respondTo b resp sends).2) : Framed b s' := by
  have hlt : b < s.server.nextBlock := by
    obtain ⟨c, hc, rfl⟩ := List.mem_map.1 hb
    exact h.blocks.lt c hc
  have hnext : s.server.nextBlock ≤ s'.server.nextBlock := by
    rcases listed_step hs with ⟨hnext, -⟩ | ⟨hnext, -⟩ <;> omega
  have ha : attempted b s'.sent = attempted b s.sent ++ [resp] := by
    rw [hsent, attempted_append, DnsServerTcp.attempted_respondTo, if_pos rfl]
  have hw : wire b s'.sent =
      Frames.stream (attempted b s.sent) ++ wire b (s.server.respondTo b resp sends).2 := by
    rw [hsent, wire_append, h.listed hb]
  refine ⟨h.blocks.step hs, fun hge => by omega, ?_, ?_, ?_⟩
  · intro hb'
    rcases DnsServerTcp.respondTo_spec (d := s.server) b resp sends with ⟨hwire, -⟩ | ⟨-, hrem⟩
    · rw [ha, hw, hwire, Frames.stream_concat]
    · rw [hd, hrem] at hb'
      exact (h.blocks.not_listed_removeClient hb hb').elim
  · rw [ha, hw, List.dropLast_concat]
    exact List.prefix_append _ _
  · rw [ha, hw, Frames.stream_concat]
    refine (List.prefix_append_right_inj _).2 ?_
    rcases DnsServerTcp.respondTo_spec (d := s.server) b resp sends with ⟨hwire, -⟩ | ⟨hpre, -⟩
    · exact hwire ▸ List.prefix_refl _
    · exact hpre

theorem step (hs : TcpStep s e s') (h : Framed b s) : Framed b s' := by
  rcases sent_step hs with hsent | ⟨block, resp, sends, hb, hd, hsent⟩
  · exact h.of_same hs (by rw [hsent]) (by rw [hsent])
  · by_cases hne : block = b
    · subst hne
      exact h.respondTo hs hb hd hsent
    · refine h.of_same hs ?_ ?_
      · rw [hsent, attempted_append, DnsServerTcp.attempted_respondTo, if_neg hne, List.append_nil]
      · rw [hsent, wire_append, DnsServerTcp.wire_respondTo_ne hne, List.append_nil]

/-- In every run every connection is framed. -/
theorem run (limit : ℕ) (es : List TcpEvent) (b : ℕ) : Framed b (TcpRun.run limit es) :=
  Runs.invariant (P := Framed b) (fun s e => step (s.tcpStep e)) es
    { blocks := Blocks.run limit []
      fresh := fun _ => ⟨rfl, rfl⟩
      listed := fun _ => rfl
      started := List.nil_prefix
      within := List.nil_prefix }

end Framed

/-! ## Silence once removed -/

/-- The connection at `b` has left the list, with these responses taken up on it and these
bytes received. -/
structure Quiet (b : ℕ) (responses : List (List UInt8)) (bytes : List UInt8) (s : TcpRun) :
    Prop where
  old : b < s.server.nextBlock
  gone : ¬s.server.Listed b
  attempted : attempted b s.sent = responses
  wire : wire b s.sent = bytes

theorem Quiet.step {s s' : TcpRun} {e : TcpEvent} {b : ℕ} {responses : List (List UInt8)}
    {bytes : List UInt8} (hs : TcpStep s e s') (h : Quiet b responses bytes s) :
    Quiet b responses bytes s' := by
  have hsame : HttpsDnsProxy.attempted b s'.sent = HttpsDnsProxy.attempted b s.sent ∧
      HttpsDnsProxy.wire b s'.sent = HttpsDnsProxy.wire b s.sent := by
    rcases sent_step hs with hsent | ⟨block, resp, sends, hb, -, hsent⟩
    · rw [hsent]
      exact ⟨rfl, rfl⟩
    · have hne : block ≠ b := by
        rintro rfl
        exact h.gone hb
      rw [hsent, attempted_append, wire_append, DnsServerTcp.attempted_respondTo, if_neg hne,
        DnsServerTcp.wire_respondTo_ne hne]
      exact ⟨List.append_nil _, List.append_nil _⟩
  have hold := h.old
  refine ⟨?_, fun hb => ?_, hsame.1.trans h.attempted, hsame.2.trans h.wire⟩
  · rcases listed_step hs with ⟨hnext, -⟩ | ⟨hnext, -⟩ <;> omega
  · rcases listed_step hs with ⟨-, hl⟩ | ⟨-, -, hl⟩
    · exact h.gone (hl b hb)
    · rcases hl b hb with rfl | hb
      · omega
      · exact h.gone hb

/-- A connection that has left the list is never written to again. -/
theorem quiet_run {b : ℕ} {responses : List (List UInt8)} {bytes : List UInt8} {s : TcpRun}
    (h : Quiet b responses bytes s) (es : List TcpEvent) :
    Quiet b responses bytes (Runs.run TcpRun.step s es) :=
  Runs.invariant (P := Quiet b responses bytes) (fun s e => Quiet.step (s.tcpStep e)) es h

/-- Output framing, for every run, every connection and every outcome of each `send`. While
the connection is listed, it has received exactly the frames of the responses for it, in order.
In any case it has received all of them but perhaps a part of the last. If that one went out in
part only, the connection is not listed, and whatever follows, no response is taken up on it and
no byte written to it. -/
theorem outputFraming (limit : ℕ) (es : List TcpEvent) (b : ℕ) :
    let s := TcpRun.run limit es
    let received := wire b s.sent
    let responses := TcpRun.respondedOn limit b es
    (s.server.Listed b → received = Frames.stream responses) ∧
      Frames.stream responses.dropLast <+: received ∧ received <+: Frames.stream responses ∧
      (received ≠ Frames.stream responses → ∀ fs : List TcpEvent,
        let s' := TcpRun.run limit (es ++ fs)
        ¬s'.server.Listed b ∧ TcpRun.respondedOn limit b (es ++ fs) = responses ∧
          wire b s'.sent = received) := by
  intro s received responses
  have h : Framed b s := Framed.run limit es b
  have hresponses : attempted b s.sent = responses := TcpRun.attempted_run limit b es
  refine ⟨hresponses ▸ h.listed, hresponses ▸ h.started, hresponses ▸ h.within,
    fun hpart fs => ?_⟩
  have hq : Quiet b responses received s :=
    { old := by
        by_contra hge
        obtain ⟨ha, hw⟩ := h.fresh (Nat.le_of_not_lt hge)
        exact hpart (by simp [received, ← hresponses, ha, hw])
      gone := fun hb => hpart (hresponses ▸ h.listed hb)
      attempted := hresponses
      wire := rfl }
  have hq' := quiet_run hq fs
  rw [show Runs.run TcpRun.step s fs = TcpRun.run limit (es ++ fs) from
    (Runs.run_append _ _ _ _).symm] at hq'
  exact ⟨hq'.gone, (TcpRun.attempted_run limit b _).symm.trans hq'.attempted, hq'.wire⟩

end HttpsDnsProxy
