import HttpsDnsProxy.Pinning
import HttpsDnsProxy.Reentry

/-!
# Shutting down

When a signal breaks the loop, `main` releases the resolver list and stops the servers
(`Proxy.stop`), runs the loop again until nothing is left in it, releases the servers and
closes the client down (`Proxy.cleanUp`). Transfers go on in the second loop, and libcurl
reads the resolver list of a transfer until its handle is removed.

`shutdown_iff` : everything a fetch was given outlives the fetch exactly if there is no
resolver list or no fetch left when the loop is broken.
-/

namespace HttpsDnsProxy

open HttpsClient (HttpsStep Steps)

/-- An observation, if it releases what a fetch was given, comes behind the fetch's callback,
and what a new fetch is given or a reply uses has not been released. -/
def InOrder (before : List Observation) : Observation → Prop
  | .started _ (some resolv) => .released (.resolv resolv.block) ∉ before
  | .released (.resolv block) => ∀ n resolv, .started n (some resolv) ∈ before →
      resolv.block = block → .callback n ∈ before
  | .released (.dnsReq n) => .callback n ∈ before
  | .released (.request n) => .callback n ∈ before
  | .udpReply _ _ _ => .released .dnsServer ∉ before
  | .tcpReply _ _ _ _ => .released .dnsServerTcp ∉ before
  | _ => True

/-- All of the trace `u` behind `t` is in order. -/
def InOrderSince (t u : List Observation) : Prop :=
  Runs.Always (fun before o => t <+: before → InOrder before o) u

/-- All of a teardown is in order. -/
def ShutsDown (env : Environment) (s : Proxy) (drain : List ProxyEvent) : Prop :=
  InOrderSince s.trace (s.teardown env drain).trace

theorem InOrderSince.concat {t u : List Observation} {o : Observation} (h : InOrderSince t u)
    (ho : InOrder u o) : InOrderSince t (u ++ [o]) :=
  Runs.always_concat.2 ⟨h, fun _ => ho⟩

/-! ## Callbacks run and to come -/

namespace HttpsClient

/-- A listed fetch has a number that was given out. -/
theorem Fetches.listed_lt {ρ : Type*} {c : HttpsClient ρ} (h : Fetches c) {p : ℕ × ρ}
    (hp : p ∈ c.listed) : p.1 < c.nextBlock :=
  h.lt p (h.perm.subset (List.mem_append_left _ hp))

end HttpsClient

namespace Proxy

variable {env : Environment} {s : Proxy} {c : HttpsClient Request}

/-- A fetch started is in the list or its callback has run, and not both. -/
structure Accounted (s : Proxy) : Prop where
  fetches : s.https.Fetches
  callback_lt : ∀ n, .callback n ∈ s.trace → n < s.https.nextBlock
  pending : ∀ p ∈ s.https.listed, .callback p.1 ∉ s.trace
  called : s.halted = false → ∀ n resolve, .started n resolve ∈ s.trace →
    (∃ p ∈ s.https.listed, p.1 = n) ∨ .callback n ∈ s.trace

theorem accounted_client (hstep : HttpsStep s.https c) (h : Accounted s) :
    Accounted (s.advance env c) := by
  have hf : c.Fetches := h.fetches.step hstep
  have hchange : ClientChange env s c (s.advance env c) := clientChange hstep h.fetches
  generalize s.advance env c = s' at hchange
  have hstarted : ∀ n resolve, .started n resolve ∈ s'.trace → .started n resolve ∈ s.trace :=
    fun _ _ => hchange.mem_of_not_ofFetch (fun _ => rfl)
  cases hchange with
  | quiet stat hlisted hnext =>
    refine ⟨hf, fun n hn => hnext ▸ h.callback_lt n hn, ?_, ?_⟩
    · rw [hlisted]
      exact h.pending
    · rw [hlisted]
      exact h.called
  | dead hhalted hlisted hnext =>
    refine ⟨hf, fun n hn => hnext ▸ h.callback_lt n hn, fun p hp => h.pending p (hlisted hp), ?_⟩
    intro halive
    rw [hhalted] at halive
    cases halive
  | @finish pre post ctx ends replies freed buf d stat halted hsplit hfetches hnext halive hends
      hreply hfreed =>
    have hlisted := HttpsClient.listed_split hsplit
    have hlisted' := HttpsClient.listed_append hfetches
    have hsub : c.listed ⊆ s.https.listed :=
      (HttpsClient.listed_sublist_of_unlink hsplit hfetches).subset
    have hcallback : ∀ n, .callback n ∈
        s.trace ++ (ends ++ .callback ctx.block :: (replies ++ freed)) →
        .callback n ∈ s.trace ∨ n = ctx.block := fun n hn =>
      (List.mem_append.1 hn).imp id fun hnew => by
        simpa [Observation.ofFetch] using ofFetch_finish hends hreply hfreed _ hnew
    refine ⟨hf, fun n hn => ?_, fun p hp hmem => ?_, fun _ n resolve hn => ?_⟩
    · rw [hnext]
      rcases hcallback n hn with hn | rfl
      · exact h.callback_lt n hn
      · exact h.fetches.listed_lt (p := ctx.key) (by simp [hlisted])
    · rcases hcallback p.1 hmem with hmem | heq
      · exact h.pending p (hsub hp) hmem
      · exact ne_of_finish h.fetches hsplit hfetches p hp heq
    · rcases h.called halive n resolve (hstarted n resolve hn) with ⟨p, hp, rfl⟩ | hcalled
      · rw [hlisted, List.mem_append, List.mem_cons, ← or_assoc, or_comm (b := p = ctx.key),
          or_assoc, ← List.mem_append, ← hlisted'] at hp
        rcases hp with rfl | hp
        · exact Or.inr (by simp [HttpsFetchCtx.key])
        · exact Or.inl ⟨p, hp, rfl⟩
      · exact Or.inr (List.mem_append_left _ hcalled)

/-- The proxy keeps the account. -/
theorem kept_accounted (env : Environment) : KeptByProxy env Accounted where
  server _ _ _ h := ⟨h.fetches, h.callback_lt, h.pending, h.called⟩
  client _ _ hstep h := accounted_client hstep h
  request s isTcp origin raddr dnsReq hrun _ _ _ h := by
    obtain ⟨stat, heq⟩ := s.takeRequest_eq env hrun isTcp origin raddr dnsReq
    rw [heq]
    have hcallback : ∀ n, .callback n ∈ s.trace ++
        [.accepted s.https.nextBlock isTcp origin raddr dnsReq] ++
        [.started s.https.nextBlock s.resolv] → .callback n ∈ s.trace := by
      intro n hn
      simpa using hn
    refine ⟨h.fetches.start _ _ _ _,
      fun n hn => Nat.lt_succ_of_lt (h.callback_lt n (hcallback n hn)),
      fun p hp hmem => ?_, fun hhalted n resolve hn => ?_⟩
    · rcases List.mem_cons.1 hp with rfl | hp
      · exact Nat.lt_irrefl _ (h.callback_lt _ (hcallback _ hmem))
      · exact h.pending p hp (hcallback _ hmem)
    · simp only [List.mem_append, List.mem_singleton, reduceCtorEq, or_false,
        Observation.started.injEq] at hn
      rcases hn with hn | ⟨rfl, -⟩
      · rcases h.called hhalted n resolve hn with ⟨p, hp, hpn⟩ | hcalled
        · exact Or.inl ⟨p, List.mem_cons_of_mem _ hp, hpn⟩
        · exact Or.inr (List.mem_append_left _ (List.mem_append_left _ hcalled))
      · exact Or.inl ⟨_, List.mem_cons_self .., rfl⟩
  print _ h := ⟨h.fetches, h.callback_lt, h.pending, h.called⟩
  halt _ h := ⟨h.fetches, h.callback_lt, h.pending, fun hh => by cases hh⟩

theorem accounted_newResolv (addrList : CString) (h : Accounted s) :
    Accounted (s.newResolv env addrList) := by
  refine keep_newResolv (fun _ _ => accounted_client) addrList ?_
  rw [replaceResolv, freeResolv_eq]
  exact ⟨h.fetches, fun n hn => h.callback_lt n (by simpa using hn),
    fun p hp hmem => h.pending p hp (by simpa using hmem),
    fun hhalted n resolve hn =>
      (h.called hhalted n resolve (by simpa using hn)).imp id fun hc => List.mem_append_left _ hc⟩

theorem accounted_run (env : Environment) (opt : Options) (es : List ProxyEvent) :
    Accounted (run env opt es) :=
  Runs.invariant (fun _ e h => (kept_accounted env).step e
    (fun _ _ _ h => ⟨h.fetches, h.callback_lt, h.pending, h.called⟩)
    (fun addrList _ _ _ => accounted_newResolv addrList) h) es
    ⟨.httpsClientInit env.lib opt.statsInterval, fun _ hn => (List.not_mem_nil hn).elim,
      fun _ hp => (List.not_mem_nil hp).elim, fun _ _ _ hn => (List.not_mem_nil hn).elim⟩

/-! ## The servers -/

/-- The servers have not been released. -/
def ServersLive (t : List Observation) : Prop :=
  .released .dnsServer ∉ t ∧ .released .dnsServerTcp ∉ t

theorem ClientChange.serversLive {s' : Proxy} (h : ClientChange env s c s')
    (hlive : ServersLive s.trace) : ServersLive s'.trace :=
  ⟨fun hmem => hlive.1 (h.mem_of_not_ofFetch (fun _ => rfl) hmem),
    fun hmem => hlive.2 (h.mem_of_not_ofFetch (fun _ => rfl) hmem)⟩

theorem serversLive_request (hlive : ServersLive s.trace) (n : ℕ) (isTcp : Bool)
    (origin : Option ℕ) (raddr : SockAddr) (dnsReq : List UInt8) (resolv : Option SList) :
    ServersLive (s.trace ++ [.accepted n isTcp origin raddr dnsReq] ++ [.started n resolv]) :=
  ⟨fun hmem => hlive.1 (by simpa using hmem), fun hmem => hlive.2 (by simpa using hmem)⟩

/-- The servers are there, and a TCP server that was not created has no clients. -/
structure Serving (s : Proxy) : Prop where
  served : Served s
  live : ServersLive s.trace

theorem serving_client (hstep : HttpsStep s.https c) (h : Serving s) :
    Serving (s.advance env c) :=
  ⟨served_client hstep h.served, (clientChange hstep h.served.fetches).serversLive h.live⟩

theorem kept_serving (env : Environment) : KeptByProxy env Serving where
  server s d hchange h := ⟨(kept_served env).server s d hchange h.served, h.live⟩
  client _ _ hstep h := serving_client hstep h
  request s isTcp origin raddr dnsReq hrun hboot harrives hlen h := by
    have hserved := (kept_served env).request s isTcp origin raddr dnsReq hrun hboot harrives hlen
      h.served
    obtain ⟨stat, heq⟩ := s.takeRequest_eq env hrun isTcp origin raddr dnsReq
    rw [heq] at hserved ⊢
    exact ⟨hserved, serversLive_request h.live ..⟩
  print s h := ⟨(kept_served env).print s h.served, h.live⟩
  halt s h := ⟨(kept_served env).halt s h.served, h.live⟩

theorem serving_newResolv (addrList : CString) (h : Serving s) :
    Serving (s.newResolv env addrList) := by
  refine keep_newResolv (fun _ _ => serving_client) addrList ?_
  rw [replaceResolv, freeResolv_eq]
  exact ⟨⟨h.served.fetches, h.served.absent⟩, fun hmem => h.live.1 (by simpa using hmem),
    fun hmem => h.live.2 (by simpa using hmem)⟩

theorem serving_run (env : Environment) (opt : Options) (es : List ProxyEvent) :
    Serving (run env opt es) :=
  Runs.invariant (fun _ e h => (kept_serving env).step e
    (fun _ _ haccept h => ⟨h.served.accept haccept, h.live⟩)
    (fun addrList _ _ _ => serving_newResolv addrList) h) es
    ⟨served_start env opt, List.not_mem_nil, List.not_mem_nil⟩

/-! ## The trace of a teardown -/

/-- The trace goes on from `t`. -/
structure Grown (t : List Observation) (s : Proxy) : Prop where
  fetches : s.https.Fetches
  isPrefix : t <+: s.trace

theorem grown_client {t : List Observation} (hstep : HttpsStep s.https c) (h : Grown t s) :
    Grown t (s.advance env c) :=
  ⟨h.fetches.step hstep, h.isPrefix.trans (clientChange hstep h.fetches).isPrefix_trace⟩

theorem kept_grown (env : Environment) (t : List Observation) : KeptByProxy env (Grown t) where
  server _ _ _ h := ⟨h.fetches, h.isPrefix⟩
  client _ _ hstep h := grown_client hstep h
  request s isTcp origin raddr dnsReq hrun _ _ _ h := by
    obtain ⟨stat, heq⟩ := s.takeRequest_eq env hrun isTcp origin raddr dnsReq
    rw [heq]
    refine ⟨h.fetches.start _ _ _ _, h.isPrefix.trans ?_⟩
    rw [List.append_assoc]
    exact List.prefix_append _ _
  print _ h := ⟨h.fetches, h.isPrefix⟩
  halt _ h := ⟨h.fetches, h.isPrefix⟩

theorem grown_newResolv {t : List Observation} (addrList : CString) (h : Grown t s) :
    Grown t (s.newResolv env addrList) := by
  refine keep_newResolv (fun _ _ => grown_client) addrList ?_
  rw [replaceResolv, freeResolv_eq]
  exact ⟨h.fetches, h.isPrefix.trans (List.prefix_append _ _)⟩

theorem grown_loop (env : Environment) {t : List Observation} (es : List ProxyEvent)
    (h : Grown t s) : Grown t (Runs.run (step env) s es) :=
  Runs.invariant (fun _ e h => (kept_grown env t).step e (fun _ _ _ h => ⟨h.fetches, h.isPrefix⟩)
    (fun addrList _ _ _ => grown_newResolv addrList) h) es h

theorem grown_releaseServers {t : List Observation} (h : Grown t s) : Grown t s.releaseServers := by
  obtain ⟨os, heq, -⟩ := s.releaseServers_eq
  rw [heq]
  exact ⟨h.fetches, h.isPrefix.trans (List.prefix_append _ _)⟩

/-- Nothing of the trace is lost in a teardown. -/
theorem grown_teardown (env : Environment) {t : List Observation} (drain : List ProxyEvent)
    (h : Grown t s.stop) : t <+: (s.teardown env drain).trace :=
  (keep_cleanUp (kept_grown env t).client grown_releaseServers
    (fun _ h => ⟨h.fetches, h.isPrefix⟩) (grown_loop env drain h)).isPrefix

/-! ## Draining -/

/-- The second loop : nothing new comes in, the servers are there, and all that came behind
`t` is in order. -/
structure Draining (t : List Observation) (s : Proxy) : Prop where
  stopped : Stopped s
  live : ServersLive s.trace
  inOrder : InOrderSince t s.trace

/-- What is released behind a callback is in order. -/
theorem inOrder_freed {t u freed : List Observation} {n : ℕ}
    (h : InOrderSince t u) (hcallback : .callback n ∈ u)
    (hfreed : freed = [] ∨ freed = [.released (.dnsReq n), .released (.request n)]) :
    InOrderSince t (u ++ freed) := by
  rcases hfreed with rfl | rfl
  · simpa using h
  · have hreq : InOrder u (.released (.dnsReq n)) := hcallback
    have hrequest : InOrder (u ++ [.released (.dnsReq n)]) (.released (.request n)) :=
      List.mem_append_left _ hcallback
    have hboth := (h.concat hreq).concat hrequest
    rwa [List.append_assoc] at hboth

theorem draining_client {t : List Observation} (hstep : HttpsStep s.https c) (h : Draining t s) :
    Draining t (s.advance env c) := by
  have hstopped : Stopped (s.advance env c) := stopped_client hstep h.stopped
  have hchange : ClientChange env s c (s.advance env c) := clientChange hstep h.stopped.fetches
  generalize s.advance env c = s' at hstopped hchange
  have hlive : ServersLive s'.trace := hchange.serversLive h.live
  refine ⟨hstopped, hlive, ?_⟩
  cases hchange with
  | quiet | dead => exact h.inOrder
  | @finish pre post ctx ends replies freed buf d stat halted _ _ _ _ hends hreply hfreed =>
    -- the transfer has ended and the callback is entered
    have hentered : InOrderSince t (s.trace ++ (ends ++ [.callback ctx.block])) := by
      cases hends with
      | aborted => exact h.inOrder.concat trivial
      | done result info =>
        rw [← List.append_assoc]
        exact InOrderSince.concat (h.inOrder.concat trivial) trivial
    have hthere : ServersLive (s.trace ++ (ends ++ [.callback ctx.block])) := by
      refine ⟨fun hmem => hlive.1 ?_, fun hmem => hlive.2 ?_⟩ <;>
      · simp only [List.mem_append, List.mem_cons] at hmem ⊢
        tauto
    have hreplied : InOrderSince t (s.trace ++ (ends ++ [.callback ctx.block]) ++ replies) := by
      cases hreply with
      | none => simpa using hentered
      | udp => exact hentered.concat hthere.1
      | tcp => exact hentered.concat hthere.2
    simpa using inOrder_freed hreplied (by simp) hfreed

theorem kept_draining (env : Environment) (t : List Observation) :
    KeptByProxy env (Draining t) where
  server s d hchange h := ⟨(kept_stopped env).server s d hchange h.stopped, h.live, h.inOrder⟩
  client _ _ hstep h := draining_client hstep h
  request _ _ _ _ _ _ _ harrives _ h := (h.stopped.not_arrives harrives).elim
  print s h := ⟨(kept_stopped env).print s h.stopped, h.live, h.inOrder⟩
  halt s h := ⟨(kept_stopped env).halt s h.stopped, h.live, h.inOrder⟩

/-- The second loop is in order. -/
theorem draining_run {t : List Observation} (drain : List ProxyEvent) (h : Draining t s) :
    Draining t (Runs.run (step env) s drain) :=
  (kept_draining env t).drain drain h.stopped h

/-- Aborting fetches is in order, with or without the servers. -/
theorem inOrder_aborts {t : List Observation} :
    ∀ (es : List (HttpsEffect Request)) (s : Proxy), (∀ e ∈ es, e.isAbort = true) →
      InOrderSince t s.trace → InOrderSince t (es.foldl (carryOut env) s).trace
  | [], _, _, h => h
  | e :: es, s, hes, h => by
    refine inOrder_aborts es _ (fun e' he' => hes e' (List.mem_cons_of_mem _ he')) ?_
    obtain ⟨os, stat, heq, hos⟩ := carryOut_abort env s (hes e (List.mem_cons_self ..))
    rw [heq]
    rcases hos with rfl | ⟨n, rfl⟩
    · simpa using h
    · have hcallback : InOrder s.trace (.callback n) := trivial
      simpa using inOrder_freed (h.concat hcallback) (by simp) (Or.inr rfl)

/-- Closing down is in order. -/
theorem inOrder_cleanUp {t : List Observation} (h : Draining t s) :
    InOrderSince t (s.cleanUp env).trace := by
  unfold cleanUp
  by_cases hrun : s.running = false
  · rw [if_pos hrun]
    exact h.inOrder
  · rw [if_neg hrun]
    obtain ⟨os, heq, hos⟩ := s.releaseServers_eq
    have hreleased : InOrderSince t s.releaseServers.trace := by
      rw [heq]
      refine Runs.keep_append (P := InOrderSince t) (fun u o ho hu => hu.concat ?_) os s.trace hos
        h.inOrder
      rcases ho with rfl | rfl <;> trivial
    obtain ⟨es, hes, haborts⟩ := (s.releaseServers.https.quiet_httpsClientCleanup env.lib).aborts
    have hadvance : (s.releaseServers.advance env
        (s.releaseServers.https.httpsClientCleanup env.lib)) = _ := advance_eq hes
    simp only [hadvance]
    exact inOrder_aborts es _ haborts hreleased

/-! ## The break -/

/-- If a fetch is left at the break, its resolver list is released before its callback. -/
theorem shutsDown_only_if {drain : List ProxyEvent} (hrun : s.running = true) (hpinned : Pinned s)
    (haccounted : Accounted s) (h : ShutsDown env s drain) :
    s.resolv = none ∨ s.https.fetches = [] := by
  cases hresolv : s.resolv with
  | none => exact Or.inl rfl
  | some r =>
    refine Or.inr (List.eq_nil_iff_forall_not_mem.2 fun ctx hctx => ?_)
    have hpin : (ctx.block, ctx.resolve) ∈ s.https.pins :=
      List.mem_map_of_mem (f := fun ctx => (ctx.block, ctx.resolve)) hctx
    have hcurrent : ctx.resolve = some r := (hpinned.current hrun _ hpin).trans hresolv
    have hstarted : .started ctx.block (some r) ∈ s.trace :=
      hcurrent ▸ hpinned.bootstrapped.listed _ hpin
    obtain ⟨tcp, stat, hstop⟩ := s.stop_eq
    have hgrown : Grown (s.trace ++ [.released (.resolv r.block)]) s.stop := by
      rw [hstop, hresolv]
      exact ⟨haccounted.fetches, List.prefix_refl _⟩
    obtain ⟨after, hafter⟩ := grown_teardown env drain hgrown
    have horder := h s.trace (.released (.resolv r.block)) after
      (by rw [← hafter, List.append_assoc]; rfl) (List.prefix_refl _)
    exact haccounted.pending ctx.key (List.mem_map_of_mem hctx) (horder _ r hstarted rfl)

/-- With no resolver list or no fetch left at the break, the stop is in order. -/
theorem draining_stop (hrun : s.running = true) (haccounted : Accounted s) (hserving : Serving s)
    (h : s.resolv = none ∨ s.https.fetches = []) : Draining s.trace s.stop := by
  have hhalted : s.halted = false := by
    simp only [running, Bool.and_eq_true, Bool.not_eq_true'] at hrun
    exact hrun.1
  have hbefore : InOrderSince s.trace s.trace := by
    intro before o after htrace hpre
    have hlen := hpre.length_le
    rw [htrace, List.length_append, List.length_cons] at hlen
    omega
  have hstopped : InOrderSince s.trace
      (s.trace ++ s.resolv.toList.map fun r => .released (.resolv r.block)) := by
    cases hresolv : s.resolv with
    | none => simpa using hbefore
    | some r =>
      have hempty : s.https.fetches = [] := h.resolve_left (by simp [hresolv])
      refine hbefore.concat fun n resolv hstarted _ => ?_
      rcases haccounted.called hhalted n _ hstarted with ⟨p, hp, -⟩ | hcalled
      · simp [HttpsClient.listed, hempty] at hp
      · exact hcalled
  have hservers : Stopped s.stop := stopped_stop hserving.served
  obtain ⟨tcp, stat, hstop⟩ := s.stop_eq
  rw [hstop] at hservers ⊢
  exact ⟨hservers, ⟨fun hmem => hserving.live.1 (by simpa using hmem),
    fun hmem => hserving.live.2 (by simpa using hmem)⟩, hstopped⟩

end Proxy

/-- Shutting down in order. For every run up to the break of the loop and every way the second
loop goes, everything a fetch was given stays unreleased until its callback has run, and no
callback uses a server that is released, exactly if there is no resolver list or no fetch left
at the break. -/
theorem shutdown_iff (env : Environment) (opt : Options) (es drain : List ProxyEvent)
    (hrun : (Proxy.run env opt es).running = true) :
    ShutsDown env (Proxy.run env opt es) drain ↔
      (Proxy.run env opt es).resolv = none ∨ (Proxy.run env opt es).https.fetches = [] := by
  have haccounted := Proxy.accounted_run env opt es
  refine ⟨Proxy.shutsDown_only_if hrun (Proxy.pinned_run env opt es) haccounted, fun h => ?_⟩
  exact Proxy.inOrder_cleanUp (Proxy.draining_run drain (Proxy.draining_stop hrun haccounted
    (Proxy.serving_run env opt es) h))

/-- One request is answered in the second loop, without a resolver list. -/
theorem shutdown_drained :
    ShutsDown (answering headerOnly) (Proxy.run (answering headerOnly) ⟨false, 0, 4, none⟩
      [.udp (.datagram headerOnly [10, 0, 0, 1])]) [.timer [.done 0 .ok goodInfo]] :=
  (shutdown_iff (answering headerOnly) ⟨false, 0, 4, none⟩ _ _ rfl).2 (Or.inl rfl)

/-- A request is in flight with a resolver list when the loop is broken, and the list is
released before the second loop. -/
theorem shutdown_in_flight :
    ¬ShutsDown (answering headerOnly) (Proxy.run (answering headerOnly)
      ⟨false, 0, 4, some "dns.google".toList⟩
      [.poll "8.8.8.8".toList, .udp (.datagram headerOnly [10, 0, 0, 1])])
      [.timer [.done 0 .ok goodInfo]] := by
  intro h
  have hleft := Proxy.shutsDown_only_if rfl (Proxy.pinned_run _ _ _) (Proxy.accounted_run _ _ _) h
  rcases hleft with hresolv | hfetches
  · exact Option.some_ne_none _ hresolv
  · exact List.cons_ne_nil _ _ hfetches

end HttpsDnsProxy
