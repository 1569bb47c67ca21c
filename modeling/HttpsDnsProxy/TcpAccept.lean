import HttpsDnsProxy.TcpRuns

/-!
# Accepted connections over whole runs

`accept_cb` reports a failed `accept` and returns, unless the error is `EAGAIN` or
`EWOULDBLOCK` : then it goes on and lists a client for the descriptor `-1`. This file keeps
the books of the client list : the descriptors the handled accepts returned
(`acceptedSocks`) and the connections taken out of the list (`removals`).

While every failed accept is reported, the books balance (`AcceptLedger`) : the client at block
`k` holds the descriptor of the `k`-th accept, and the listed clients are the accepted ones
without the removed ones. A run keeps them exactly if no accept it handles would have
blocked (`acceptsAccounted_iff`).
-/

namespace HttpsDnsProxy

namespace TcpRun

/-- libev calls `accept_cb`. -/
def accepting (s : TcpRun) : Bool :=
  !s.halted && s.server.acceptWatcher

/-- The descriptor a handled `accept` returned. -/
def acceptedBy (s : TcpRun) : TcpEvent → List ℕ
  | .accept (.sock fd _) => if s.accepting then [fd] else []
  | _ => []

/-- The connections an event takes out of the list. -/
def removedBy (s : TcpRun) (e : TcpEvent) : List ℕ :=
  (s.server.clients.map TcpClient.block).filter
    fun b => b ∉ (s.step e).server.clients.map TcpClient.block

/-- The descriptors of the successful accepts of a run, oldest first. -/
def acceptedSocks (limit : ℕ) (es : List TcpEvent) : List ℕ :=
  Runs.collect step acceptedBy (start limit) es

/-- The connections taken out of the list in a run. -/
def removals (limit : ℕ) (es : List TcpEvent) : List ℕ :=
  Runs.collect step removedBy (start limit) es

/-- If the event is a handled `accept` that fails, its error is not one of a socket that
would block. -/
def FailureReported (s : TcpRun) (e : TcpEvent) : Prop :=
  ∀ err stack, e = .accept (.error err stack) → s.accepting = true → err.wouldBlock = false

theorem step_accept (s : TcpRun) (r : AcceptResult) :
    s.step (.accept r) =
      if s.accepting then { s with server := s.server.acceptCb r } else s := by
  cases hh : s.halted <;> simp [step, accepting, hh]

theorem step_accept_idle {s : TcpRun} (hw : s.accepting = false) (r : AcceptResult) :
    s.step (.accept r) = s := by
  rw [step_accept, hw, if_neg (by simp)]

/-- A failure that is reported changes nothing. -/
theorem step_accept_error {s : TcpRun} {err : Errno} {stack : SockAddr}
    (h : s.FailureReported (.accept (.error err stack))) :
    s.step (.accept (.error err stack)) = s := by
  rw [step_accept]
  split_ifs with hw
  · rw [DnsServerTcp.acceptCb, h err stack rfl hw, if_neg (by simp)]
  · rfl

end TcpRun

/-- A failed accept changes nothing, each listed client holds the descriptor of its own
accept, and the listed clients are the accepted ones less the removed ones. -/
structure AcceptsAccounted (limit : ℕ) (es : List TcpEvent) : Prop where
  failed : ∀ pre err stack, pre ++ [.accept (.error err stack)] <+: es →
    (TcpRun.run limit (pre ++ [.accept (.error err stack)])).server =
      (TcpRun.run limit pre).server
  socks : ∀ pre, pre <+: es → ∀ c ∈ (TcpRun.run limit pre).server.clients,
    ∃ fd : ℕ, (TcpRun.acceptedSocks limit pre)[c.block]? = some fd ∧ c.sock = fd
  count : ∀ pre, pre <+: es →
    (TcpRun.run limit pre).server.clients.length + (TcpRun.removals limit pre).length =
      (TcpRun.acceptedSocks limit pre).length

/-! ## The books balance -/

/-- The client list against the accepted descriptors and the removed connections. -/
structure AcceptLedger (accepted removed : List ℕ) (d : DnsServerTcp) : Prop where
  blocks : Blocks d
  nextBlock : d.nextBlock = accepted.length
  socks : ∀ c ∈ d.clients, ∃ fd : ℕ, accepted[c.block]? = some fd ∧ c.sock = fd
  count : d.clients.length + removed.length = accepted.length

/-- The clients still listed and the ones taken out are the clients there were. -/
theorem length_filter_not_mem {l l' : List ℕ} (hl : l.Nodup) (hl' : l'.Nodup) (hsub : l' ⊆ l) :
    l'.length + (l.filter fun b => b ∉ l').length = l.length := by
  have hperm : l'.Perm (l.filter fun b => b ∈ l') := by
    rw [List.perm_ext_iff_of_nodup hl' (hl.filter _)]
    intro b
    simpa using fun hb => hsub hb
  rw [hperm.length_eq, ← List.countP_eq_length_filter, ← List.countP_eq_length_filter,
    List.length_eq_countP_add_countP (fun b => decide (b ∈ l')) ]
  simp

namespace AcceptLedger

variable {accepted removed : List ℕ} {s : TcpRun} {e : TcpEvent}

/-- What the server's own changes keep of the books. -/
theorem kept_socks (accepted : List ℕ) : KeptByServer fun d =>
    ∀ c ∈ d.clients, ∃ fd : ℕ, accepted[c.block]? = some fd ∧ c.sock = fd where
  input d block c m n k hc h := by
    intro x hx
    obtain ⟨x', hx', rfl⟩ := List.mem_map.1 hx
    split_ifs with hb
    · exact h c (DnsServerTcp.find_eq_some hc).1
    · exact h x' hx'
  again d block c _ h := by
    intro x hx
    obtain ⟨x', hx', rfl⟩ := List.mem_map.1 hx
    split_ifs with hb
    · exact h x' hx'
    · exact h x' hx'
  remove d block c _ h := by
    intro x hx
    rw [DnsServerTcp.clients_removeClient] at hx
    exact h x (List.eraseP_sublist.subset hx)

/-- An event that is not an accept only takes clients out. -/
theorem other (h : AcceptLedger accepted removed s.server) (he : ∀ r, e ≠ .accept r) :
    AcceptLedger accepted (removed ++ s.removedBy e) (s.step e).server := by
  have hs := s.tcpStep e
  have hblocks := h.blocks.step hs
  obtain ⟨hnext, hsub⟩ := (kept_listed s.server.nextBlock
    (s.server.clients.map TcpClient.block)).step (fun _ h => h) hs (fun r hr => (he r hr).elim)
    ⟨rfl, fun _ h => h⟩
  have hlen := length_filter_not_mem h.blocks.nodup hblocks.nodup hsub
  rw [List.length_map, List.length_map] at hlen
  exact {
    blocks := hblocks
    nextBlock := hnext.trans h.nextBlock
    socks := (kept_socks accepted).step (fun _ h => h) hs (fun r hr => (he r hr).elim) h.socks
    count := by
      have hcount := h.count
      rw [List.length_append, TcpRun.removedBy]
      omega }

/-- A successful accept lists one client, with its descriptor. -/
theorem accept (h : AcceptLedger accepted removed s.server) (fd : ℕ) (addr : SockAddr) :
    AcceptLedger (accepted ++ [fd]) removed (s.server.acceptCb (.sock fd addr)) where
  blocks := h.blocks.acceptCb _
  nextBlock := by
    rw [List.length_append, ← h.nextBlock]
    rfl
  socks := by
    intro c hc
    rcases List.mem_cons.1 hc with rfl | hc
    · refine ⟨fd, ?_, rfl⟩
      show (accepted ++ [fd])[s.server.nextBlock]? = some fd
      rw [h.nextBlock, List.getElem?_concat_length]
    · obtain ⟨fd', hfd, hsock⟩ := h.socks c hc
      refine ⟨fd', ?_, hsock⟩
      rw [List.getElem?_append_left (List.getElem?_eq_some_iff.1 hfd).1, hfd]
  count := by
    have hcount := h.count
    show (s.server.clients.length + 1) + removed.length = (accepted ++ [fd]).length
    rw [List.length_append, List.length_singleton]
    omega

/-- An event that lists every connection listed before takes none out. -/
theorem removedBy_eq_nil
    (h : s.server.clients.map TcpClient.block ⊆ (s.step e).server.clients.map TcpClient.block) :
    s.removedBy e = [] := by
  simp only [TcpRun.removedBy, List.filter_eq_nil_iff, decide_eq_true_eq, not_not]
  exact fun b hb => h hb

/-- An accept that changes nothing keeps the books. -/
theorem same (h : AcceptLedger accepted removed s.server) (hs : s.step e = s)
    (hnone : s.acceptedBy e = []) :
    AcceptLedger (accepted ++ s.acceptedBy e) (removed ++ s.removedBy e) (s.step e).server := by
  have hstay : s.removedBy e = [] := removedBy_eq_nil (by rw [hs]; exact fun _ h => h)
  rw [hnone, hstay, hs, List.append_nil, List.append_nil]
  exact h

theorem step (h : AcceptLedger accepted removed s.server) (he : s.FailureReported e) :
    AcceptLedger (accepted ++ s.acceptedBy e) (removed ++ s.removedBy e) (s.step e).server := by
  cases e with
  | accept r =>
    cases r with
    | error err stack => exact h.same (TcpRun.step_accept_error he) rfl
    | sock fd addr =>
      cases hw : s.accepting with
      | false => exact h.same (TcpRun.step_accept_idle hw _) (by simp [TcpRun.acceptedBy, hw])
      | true =>
        have hs : s.step (.accept (.sock fd addr)) =
            { s with server := s.server.acceptCb (.sock fd addr) } := by
          rw [TcpRun.step_accept, hw, if_pos rfl]
        have hone : s.acceptedBy (.accept (.sock fd addr)) = [fd] := by
          simp [TcpRun.acceptedBy, hw]
        rw [removedBy_eq_nil (by rw [hs]; exact List.subset_cons_self _ _), hone, hs,
          List.append_nil]
        exact h.accept fd addr
  | read | timeout | respond | stop =>
    rw [TcpRun.acceptedBy, List.append_nil]
    · exact h.other (by simp)
    · simp

/-- The books balance after every run that reports its failed accepts. -/
theorem run {limit : ℕ} {es : List TcpEvent}
    (hes : Runs.Meets TcpRun.step TcpRun.FailureReported (TcpRun.start limit) es) :
    AcceptLedger (TcpRun.acceptedSocks limit es) (TcpRun.removals limit es)
      (TcpRun.run limit es).server := by
  induction es using List.reverseRecOn with
  | nil =>
    exact {
      blocks := Blocks.run limit []
      nextBlock := rfl
      socks := fun c hc => (List.not_mem_nil hc).elim
      count := rfl }
  | append_singleton es e ih =>
    obtain ⟨hes, he⟩ := Runs.meets_append.1 hes
    rw [TcpRun.acceptedSocks, TcpRun.removals, Runs.collect_concat, Runs.collect_concat,
      TcpRun.run, Runs.run_concat]
    exact (ih hes).step he.1

end AcceptLedger

/-- A handled accept that would have blocked lists a client. -/
theorem server_step_of_wouldBlock {s : TcpRun} {err : Errno} {stack : SockAddr}
    (hw : s.accepting = true) (herr : err.wouldBlock = true) :
    (s.step (.accept (.error err stack))).server ≠ s.server := by
  intro h
  have hnext := congrArg DnsServerTcp.nextBlock h
  rw [TcpRun.step_accept, hw, if_pos rfl] at hnext
  simp [DnsServerTcp.acceptCb, herr, DnsServerTcp.addClient] at hnext

/-- The books of a run balance exactly if no accept it handles fails with `EAGAIN` or
`EWOULDBLOCK`. -/
theorem acceptsAccounted_iff (limit : ℕ) (es : List TcpEvent) :
    AcceptsAccounted limit es ↔
      Runs.Meets TcpRun.step TcpRun.FailureReported (TcpRun.start limit) es := by
  constructor
  · intro h
    by_contra hnot
    obtain ⟨pre, e, post, rfl, -, hbad⟩ := Runs.exists_of_not_meets hnot
    obtain ⟨err, stack, rfl, hw, herr⟩ : ∃ err stack, e = .accept (.error err stack) ∧
        (TcpRun.run limit pre).accepting = true ∧ err.wouldBlock = true := by
      simpa [TcpRun.FailureReported, TcpRun.run] using hbad
    have hsame := h.failed pre err stack ⟨post, by simp⟩
    rw [TcpRun.run, Runs.run_concat] at hsame
    exact server_step_of_wouldBlock hw herr hsame
  · intro hes
    have hpre : ∀ {pre}, pre <+: es →
        Runs.Meets TcpRun.step TcpRun.FailureReported (TcpRun.start limit) pre := by
      rintro pre ⟨post, rfl⟩
      exact hes.of_append
    refine ⟨fun pre err stack h => ?_, fun pre h => (AcceptLedger.run (hpre h)).socks,
      fun pre h => (AcceptLedger.run (hpre h)).count⟩
    rw [TcpRun.run, Runs.run_concat,
      TcpRun.step_accept_error (Runs.meets_append.1 (hpre h)).2.1]
    rfl

/-- A connection reset before it is accepted : the listening socket is readable, and `accept`
gives `EAGAIN`. The server lists a client with the descriptor `-1`. -/
theorem acceptsAccounted_spurious :
    ¬AcceptsAccounted 20 [.accept (.error .eagain [])] ∧
      ((TcpRun.run 20 [.accept (.error .eagain [])]).server.clients.map TcpClient.sock = [-1]) ∧
      (TcpRun.run 20 [.accept (.error .eagain [])]).server.clientCount = 1 := by
  refine ⟨fun h => ?_, rfl, rfl⟩
  exact absurd (h.count _ List.prefix_rfl) (by decide)

end HttpsDnsProxy
