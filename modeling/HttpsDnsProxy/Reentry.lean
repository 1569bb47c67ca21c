import HttpsDnsProxy.Routing

/-!
# The callback inside a read

`read_cb` hands each request to `dns_server_cb` in the middle of its loop. That starts a
fetch, and if libcurl does not take the new handle, the fetch is dropped or the whole client
is reset, so response callbacks of any connection's requests run before the loop goes on.

None of them has a response to give (`HttpsClient.aborts_addFetch`), so nothing is sent and
the TCP server is left as it is (`Proxy.silent_dnsServerCb`). The client being read is still
there whenever the loop goes on (`noReentrantRemoval`).
-/

namespace HttpsDnsProxy

/-! ## Fetches aborted -/

/-- An effect of closing down : a callback without a response, or a connection counted. -/
def HttpsEffect.isAbort {ρ : Type*} : HttpsEffect ρ → Bool
  | .call _ _ none => true
  | e => e.isConnection

theorem HttpsEffect.eq_of_isAbort {ρ : Type*} {e : HttpsEffect ρ} (h : e.isAbort = true) :
    e.isConnection = true ∨ ∃ n data, e = .call n data none := by
  cases e with
  | connectionOpened | connectionClosed | connectionReused => exact Or.inl rfl
  | started | ended => cases h
  | call n data buf =>
    cases buf with
    | some body => cases h
    | none => exact Or.inr ⟨n, data, rfl⟩

namespace HttpsClient

/-- All that happens is that fetches are aborted. -/
def Aborts {ρ : Type*} (c c' : HttpsClient ρ) : Prop :=
  ∃ es, c'.effects = c.effects ++ es ∧ ∀ e ∈ es, e.isAbort = true

section Aborts

variable {ρ : Type*} {c c' c'' : HttpsClient ρ}

theorem Aborts.of_eq (h : c'.effects = c.effects) : Aborts c c' :=
  ⟨[], by simpa using h, by simp⟩

theorem Aborts.trans (h : Aborts c c') (h' : Aborts c' c'') : Aborts c c'' := by
  obtain ⟨es, hes, habort⟩ := h
  obtain ⟨es', hes', habort'⟩ := h'
  refine ⟨es ++ es', by rw [hes', hes, List.append_assoc], fun e he => ?_⟩
  exact (List.mem_append.1 he).elim (habort e) (habort' e)

theorem SocketFrame.aborts (h : SocketFrame c c') : Aborts c c' := by
  obtain ⟨es, hes, hconn⟩ := h.effects
  refine ⟨es, hes, fun e he => ?_⟩
  have hc := hconn e he
  cases e with
  | connectionOpened | connectionClosed | connectionReused => rfl
  | started | ended | call => cases hc

theorem QuietStep.aborts (h : QuietStep c c') : Aborts c c' := by
  cases h with
  | socket cb => exact (c.socketFrame_socketCallback cb).aborts
  | frame hf _ => exact .of_eq hf.effects
  | abort _ => exact ⟨[.call _ _ none], rfl, by simp [HttpsEffect.isAbort]⟩

theorem Quiet.aborts (h : Quiet c c') : Aborts c c' :=
  h.keeps (fun _ _ hs ha => ha.trans hs.aborts) (.of_eq rfl)

/-- A new fetch that libcurl does not take, and the others that go with it, are aborted. -/
theorem aborts_addFetch (lib : Libcurl) : Aborts c (c.addFetch lib) :=
  (c.quiet_addFetch lib).aborts

end Aborts

end HttpsClient

/-! ## Nothing is sent -/

/-- It is a reply on a DNS socket. -/
def Observation.isReply : Observation → Bool
  | .udpReply .. | .tcpReply .. => true
  | _ => false

namespace Proxy

variable {env : Environment} {s s' s'' : Proxy}

/-- Nothing is sent on a DNS socket. -/
def NoReply (s s' : Proxy) : Prop :=
  ∃ os, s'.trace = s.trace ++ os ∧ ∀ o ∈ os, o.isReply = false

theorem NoReply.of_eq (h : s'.trace = s.trace) : NoReply s s' :=
  ⟨[], by simpa using h, by simp⟩

theorem NoReply.trans (h : NoReply s s') (h' : NoReply s' s'') : NoReply s s'' := by
  obtain ⟨os, hos, hno⟩ := h
  obtain ⟨os', hos', hno'⟩ := h'
  refine ⟨os ++ os', by rw [hos', hos, List.append_assoc], fun o ho => ?_⟩
  exact (List.mem_append.1 ho).elim (hno o) (hno' o)

/-- Nothing is sent on a DNS socket, and the TCP server with its clients and their input
buffers is left as it is. -/
structure Silent (s s' : Proxy) : Prop where
  tcp : s'.tcp = s.tcp
  noReply : NoReply s s'

theorem Silent.trans (h : Silent s s') (h' : Silent s' s'') : Silent s s'' :=
  ⟨h'.tcp.trans h.tcp, h.noReply.trans h'.noReply⟩

/-- The callback of an aborted fetch releases its request. -/
theorem carryOut_abort (env : Environment) (s : Proxy) {e : HttpsEffect Request}
    (he : e.isAbort = true) :
    ∃ os stat, s.carryOut env e = { s with trace := s.trace ++ os, stat := stat } ∧
      (os = [] ∨ ∃ n, os = [.callback n, .released (.dnsReq n), .released (.request n)]) := by
  rcases HttpsEffect.eq_of_isAbort he with hconn | ⟨n, req, rfl⟩
  · obtain ⟨stat, hstat⟩ := carryOut_connection env s hconn
    exact ⟨[], stat, by rw [hstat, List.append_nil], Or.inl rfl⟩
  · unfold carryOut
    split_ifs with hh
    · exact ⟨[], s.stat, by rw [List.append_nil], Or.inl rfl⟩
    · refine ⟨_, s.stat, ?_, Or.inr ⟨n, rfl⟩⟩
      simp [httpsRespCb, respond, note, hh]

theorem silent_aborts (env : Environment) :
    ∀ (es : List (HttpsEffect Request)) (s : Proxy), (∀ e ∈ es, e.isAbort = true) →
      Silent s (es.foldl (carryOut env) s)
  | [], _, _ => ⟨rfl, .of_eq rfl⟩
  | e :: es, s, hes => by
    obtain ⟨os, stat, heq, hos⟩ := carryOut_abort env s (hes e (List.mem_cons_self ..))
    have hone : Silent s (s.carryOut env e) := by
      rw [heq]
      refine ⟨rfl, os, rfl, ?_⟩
      rcases hos with rfl | ⟨n, rfl⟩
      · simp
      · simp [Observation.isReply]
    exact hone.trans (silent_aborts env es _ fun e' he' => hes e' (List.mem_cons_of_mem _ he'))

/-- Aborting fetches is silent. -/
theorem silent_advance {c : HttpsClient Request} (h : HttpsClient.Aborts s.https c) :
    Silent s (s.advance env c) := by
  obtain ⟨es, hes, habort⟩ := h
  rw [advance_eq hes]
  have hfold := silent_aborts env es s habort
  exact ⟨hfold.tcp, hfold.noReply⟩

/-- `dns_server_cb` is silent, whatever libcurl does. -/
theorem silent_dnsServerCb (env : Environment) (s : Proxy) (isTcp : Bool) (origin : Option ℕ)
    (raddr : SockAddr) (dnsReq : List UInt8) :
    Silent s (s.dnsServerCb env isTcp origin raddr dnsReq) := by
  by_cases hrun : s.running = true
  · by_cases hboot : s.usingDnsPoller = true ∧ s.resolv = none
    · simpa [dnsServerCb, hrun, hboot] using Silent.mk rfl (NoReply.of_eq rfl)
    · rw [dnsServerCb_eq hrun hboot]
      have htake : Silent s (s.takeRequest env isTcp origin raddr dnsReq) := by
        obtain ⟨stat, heq⟩ := s.takeRequest_eq env hrun isTcp origin raddr dnsReq
        rw [heq]
        exact ⟨rfl, _, List.append_assoc _ _ _, by simp [Observation.isReply]⟩
      exact htake.trans (silent_advance (HttpsClient.aborts_addFetch env.lib))
  · simpa [dnsServerCb, hrun] using Silent.mk rfl (NoReply.of_eq rfl)

/-- A whole `read_cb` sends nothing. -/
theorem noReply_readCb (env : Environment) (s : Proxy) (block rounds : ℕ) (res : RecvResult) :
    NoReply s (readCb tcpIn (tcpCb env) block rounds res s).2 := by
  have hkept : KeptByRead tcpIn (tcpCb env) block (NoReply s) :=
    { input := fun _ _ _ _ _ _ h => h.trans (.of_eq rfl)
      again := fun _ _ _ h => h.trans (.of_eq rfl)
      remove := fun _ _ _ h => h.trans (.of_eq rfl)
      call := fun t c req _ _ h =>
        h.trans (silent_dnsServerCb env t true (some block) c.raddr req).noReply }
  exact hkept.readCb rounds res (.of_eq rfl)

end Proxy

/-- No callback inside a read removes the client it is for. Whatever the proxy's state, the
request and the answers of libcurl, `dns_server_cb` sends nothing on a DNS socket and leaves
the TCP server as it is. So a `read_cb` that starts with its client in the list finds it there
each time its loop goes on, and sends nothing. -/
theorem noReentrantRemoval (env : Environment) (s : Proxy) :
    (∀ isTcp origin raddr dnsReq, s.Silent (s.dnsServerCb env isTcp origin raddr dnsReq)) ∧
      ∀ block rounds res, s.NoReply (readCb Proxy.tcpIn (Proxy.tcpCb env) block rounds res s).2 ∧
        ((s.tcp.find block).isSome →
          (readCb Proxy.tcpIn (Proxy.tcpCb env) block rounds res s).1 ≠ .freed) := by
  refine ⟨s.silent_dnsServerCb env, fun block rounds res => ?_⟩
  refine ⟨s.noReply_readCb env block rounds res, fun hfind => ?_⟩
  refine readCb_ne_freed (fun t raddr dnsReq => ?_) rounds res hfind
  exact (t.silent_dnsServerCb env true (some block) raddr dnsReq).tcp

/-- An environment in which libcurl takes the first handle and aborts on the others. -/
def refusing : Environment :=
  { answering headerOnly with
    lib := { (answering headerOnly).lib with
      addHandle := fun n => if n = 1 then ⟨[.multiTimer 0], .ok⟩ else ⟨[], .abortedByCallback⟩ } }

/-- A connection with one request in flight sends a second one. libcurl aborts, the client is
reset and both callbacks run inside the read. -/
theorem noReentrantRemoval_reset :
    let s := Proxy.run refusing ⟨false, 2, 4, none⟩
      [.accept (.sock 5 [10, 0, 0, 1]), .tcpRead 0 2 (.data oneRequest)]
    (readCb Proxy.tcpIn (Proxy.tcpCb refusing) 0 2 (.data oneRequest) s).2.trace = s.trace ++
        [.accepted 1 true (some 0) [10, 0, 0, 1] headerOnly, .started 1 none,
          .callback 1, .released (.dnsReq 1), .released (.request 1),
          .callback 0, .released (.dnsReq 0), .released (.request 0)] ∧
      (readCb Proxy.tcpIn (Proxy.tcpCb refusing) 0 2 (.data oneRequest) s).1 ≠ .freed := by
  intro s
  exact ⟨by decide, ((noReentrantRemoval refusing s).2 0 2 (.data oneRequest)).2 (by decide)⟩

end HttpsDnsProxy
