import HttpsDnsProxy.Relay

/-!
# Pinned resolver lists

With the poller in use, a fetch is started with the resolver list that `app->resolv` points
to, and never without one. A new list replaces the old one together with a reset of the
client, so between events every fetch in the list was started with the current one
(`resolvPinned`).
-/

namespace HttpsDnsProxy

open HttpsClient (HttpsStep Steps)

namespace Proxy

variable {env : Environment} {s : Proxy} {c : HttpsClient Request}

/-! ## What is kept of a proxy that goes on -/

/-- A proxy that is running after a step of the client was running before it. -/
theorem running_of_advance (hstep : HttpsStep s.https c) (h : (s.advance env c).running = true) :
    s.running = true := by
  unfold running at h ⊢
  have hhalted : s.halted = false := by
    by_contra hh
    have hdead : (s.advance env c).halted = true := by
      unfold advance
      rw [foldl_halted (by simpa using hh)]
      simpa using hh
    simp [hdead] at h
  have hexited : s.https.exited = false := by
    by_contra hx
    have hdead : c.exited = true := hstep.exited (by simpa using hx)
    simp [hdead] at h
  simp [hhalted, hexited]

theorem ClientChange.isPrefix_trace {s' : Proxy} (h : ClientChange env s c s') :
    s.trace <+: s'.trace := by
  cases h with
  | quiet | dead => exact List.prefix_refl _
  | finish => exact List.prefix_append _ _

/-! ## Starting fetches -/

/-- Fetches are listed with the resolver lists they were started with, and with the poller in
use no fetch was started without one. -/
structure Bootstrapped (s : Proxy) : Prop where
  fetches : s.https.Fetches
  listed : ∀ p ∈ s.https.pins, .started p.1 p.2 ∈ s.trace
  started : s.usingDnsPoller = true → ∀ n resolve, .started n resolve ∈ s.trace → resolve ≠ none

theorem bootstrapped_client (hstep : HttpsStep s.https c) (h : Bootstrapped s) :
    Bootstrapped (s.advance env c) where
  fetches := h.fetches.step hstep
  listed p hp :=
    (clientChange hstep h.fetches).isPrefix_trace.subset
      (h.listed p (h.fetches.pins_step hstep hp))
  started husing n resolve hmem :=
    h.started ((sameApp_advance env s c).usingDnsPoller ▸ husing) n resolve
      ((clientChange hstep h.fetches).mem_of_not_ofFetch (fun _ => rfl) hmem)

theorem bootstrapped_newResolv (addrList : CString) (h : Bootstrapped s) :
    Bootstrapped (s.newResolv env addrList) := by
  refine keep_newResolv (fun _ _ => bootstrapped_client) addrList ?_
  rw [replaceResolv, freeResolv_eq]
  refine ⟨h.fetches, fun p hp => List.mem_append_left _ (h.listed p hp),
    fun husing n resolve hmem => h.started husing n resolve ?_⟩
  simpa using hmem

theorem bootstrapped_request (h : Bootstrapped s) (hrun : s.running = true)
    (hboot : ¬(s.usingDnsPoller = true ∧ s.resolv = none)) (isTcp : Bool) (origin : Option ℕ)
    (raddr : SockAddr) (dnsReq : List UInt8) :
    Bootstrapped (s.takeRequest env isTcp origin raddr dnsReq) := by
  obtain ⟨stat, heq⟩ := s.takeRequest_eq env hrun isTcp origin raddr dnsReq
  rw [heq]
  refine ⟨h.fetches.start _ _ _ _, fun p hp => ?_, fun husing n resolve hmem => ?_⟩
  · rcases List.mem_cons.1 hp with rfl | hp
    · exact List.mem_append_right _ (List.mem_singleton_self _)
    · exact List.mem_append_left _ (List.mem_append_left _ (h.listed p hp))
  · simp only [List.mem_append, List.mem_singleton, reduceCtorEq, or_false,
      Observation.started.injEq] at hmem
    rcases hmem with hmem | ⟨-, rfl⟩
    · exact h.started husing n resolve hmem
    · exact fun hnone => hboot ⟨husing, hnone⟩

/-! ## The current list -/

/-- While the proxy goes on, the fetches in the list were started with the current resolver
list. -/
structure Pinned (s : Proxy) : Prop where
  bootstrapped : Bootstrapped s
  current : s.running = true → ∀ p ∈ s.https.pins, p.2 = s.resolv

/-- The proxy keeps fetches pinned. -/
theorem kept_pinned (env : Environment) : KeptByProxy env Pinned where
  server _ _ _ h := ⟨⟨h.1.1, h.1.2, h.1.3⟩, h.current⟩
  client s c hstep h := by
    refine ⟨bootstrapped_client hstep h.bootstrapped, fun hrun p hp => ?_⟩
    rw [(sameApp_advance env s c).resolv]
    exact h.current (running_of_advance hstep hrun) p
      (h.bootstrapped.fetches.pins_step hstep hp)
  request s isTcp origin raddr dnsReq hrun hboot _ _ h := by
    refine ⟨bootstrapped_request h.bootstrapped hrun hboot isTcp origin raddr dnsReq, ?_⟩
    obtain ⟨stat, heq⟩ := s.takeRequest_eq env hrun isTcp origin raddr dnsReq
    rw [heq]
    intro _ p hp
    rcases List.mem_cons.1 hp with rfl | hp
    · rfl
    · exact h.current hrun p hp
  print _ h := ⟨⟨h.1.1, h.1.2, h.1.3⟩, h.current⟩
  halt _ h := ⟨⟨h.1.1, h.1.2, h.1.3⟩, fun hrun => by simp [running] at hrun⟩

/-- A new resolver list comes with a reset, which leaves no fetch behind. -/
theorem pinned_newResolv (addrList : CString) (hrun : s.running = true) (h : Pinned s) :
    Pinned (s.newResolv env addrList) := by
  refine ⟨bootstrapped_newResolv addrList h.bootstrapped, fun hrun' p hp => ?_⟩
  have hbefore : s.https.exited = false := by
    unfold running at hrun
    simp_all
  have hafter : (s.https.httpsClientReset env.lib).exited = false := by
    unfold running at hrun'
    simpa [newResolv] using (Bool.and_eq_true_iff.1 hrun').2
  have hempty := HttpsClient.fetches_httpsClientReset env.lib hbefore hafter
  simp [newResolv, HttpsClient.pins, hempty] at hp

theorem pinned_run (env : Environment) (opt : Options) (es : List ProxyEvent) :
    Pinned (run env opt es) :=
  Runs.invariant (fun _ e h => (kept_pinned env).step e
    (fun _ _ _ h => ⟨⟨h.1.1, h.1.2, h.1.3⟩, h.current⟩)
    (fun addrList _ hrun _ => pinned_newResolv addrList hrun) h) es
    ⟨⟨.httpsClientInit env.lib opt.statsInterval, fun _ hp => (List.not_mem_nil hp).elim,
      fun _ _ _ hmem => (List.not_mem_nil hmem).elim⟩, fun _ _ hp => (List.not_mem_nil hp).elim⟩

/-! ## Before the first poll -/

/-- The poller is in use and has brought nothing yet. -/
structure Unpolled (s : Proxy) : Prop where
  fetches : s.https.Fetches
  usingDnsPoller : s.usingDnsPoller = true
  resolv : s.resolv = none
  started : ∀ n resolve, .started n resolve ∉ s.trace

/-- Without a resolver list no request is taken on. -/
theorem kept_unpolled (env : Environment) : KeptByProxy env Unpolled where
  server _ _ _ h := ⟨h.fetches, h.usingDnsPoller, h.resolv, h.started⟩
  client s c hstep h :=
    ⟨h.fetches.step hstep, (sameApp_advance env s c).usingDnsPoller.trans h.usingDnsPoller,
      (sameApp_advance env s c).resolv.trans h.resolv, fun n resolve hmem =>
      h.started n resolve ((clientChange hstep h.fetches).mem_of_not_ofFetch (fun _ => rfl) hmem)⟩
  request _ _ _ _ _ _ hboot _ _ h := (hboot ⟨h.usingDnsPoller, h.resolv⟩).elim
  print _ h := ⟨h.fetches, h.usingDnsPoller, h.resolv, h.started⟩
  halt _ h := ⟨h.fetches, h.usingDnsPoller, h.resolv, h.started⟩

theorem unpolled_run (env : Environment) {opt : Options} (hopt : opt.hostname.isSome = true)
    {es : List ProxyEvent} (hes : ∀ addrList, .poll addrList ∉ es) : Unpolled (run env opt es) := by
  refine Runs.invariant_of_mem (fun s e he h => (kept_unpolled env).step e
    (fun _ _ _ h => ⟨h.fetches, h.usingDnsPoller, h.resolv, h.started⟩) ?_ h)
    ⟨.httpsClientInit env.lib opt.statsInterval, hopt, rfl,
      fun _ _ hmem => (List.not_mem_nil hmem).elim⟩
  rintro addrList rfl
  exact (hes addrList he).elim

end Proxy

/-- With the poller in use, no fetch runs on a stale or missing resolver list. In every run,
every fetch was started with a list, and between events each fetch still in the client's list
was started with the one `app->resolv` points to now. Before the first poll result no fetch
is started. -/
theorem resolvPinned (env : Environment) (opt : Options) (hopt : opt.hostname.isSome = true)
    (es : List ProxyEvent) :
    let s := Proxy.run env opt es
    (∀ n resolve, .started n resolve ∈ s.trace → resolve ≠ none) ∧
      (s.running = true → ∀ ctx ∈ s.https.fetches,
        ctx.resolve = s.resolv ∧ .started ctx.block s.resolv ∈ s.trace) ∧
      ((∀ addrList, .poll addrList ∉ es) → ∀ n resolve, .started n resolve ∉ s.trace) := by
  intro s
  have hpinned : Proxy.Pinned s := Proxy.pinned_run env opt es
  have husing : s.usingDnsPoller = true :=
    (Proxy.configured_run env opt es).usingDnsPoller.trans hopt
  refine ⟨hpinned.bootstrapped.started husing, fun hrun ctx hctx => ?_,
    fun hes => (Proxy.unpolled_run env hopt hes).started⟩
  have hpin : (ctx.block, ctx.resolve) ∈ s.https.pins :=
    List.mem_map_of_mem (f := fun ctx => (ctx.block, ctx.resolve)) hctx
  have hcurrent : ctx.resolve = s.resolv := hpinned.current hrun _ hpin
  have hstarted : .started ctx.block ctx.resolve ∈ s.trace := hpinned.bootstrapped.listed _ hpin
  exact ⟨hcurrent, hcurrent ▸ hstarted⟩

/-- A poll brings an address, and a request starts a fetch pinned to it. -/
theorem resolvPinned_poll :
    let s := Proxy.run (answering headerOnly) ⟨false, 0, 4, some ['d']⟩
      [.poll ['1'], .udp (.datagram headerOnly [10, 0, 0, 1])]
    s.https.fetches.length = 1 ∧ ∀ ctx ∈ s.https.fetches,
      ctx.resolve = s.resolv ∧ .started ctx.block s.resolv ∈ s.trace :=
  ⟨rfl, (resolvPinned (answering headerOnly) ⟨false, 0, 4, some ['d']⟩ rfl _).2.1 rfl⟩

end HttpsDnsProxy
