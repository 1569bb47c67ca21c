import HttpsDnsProxy.AddrListing
import HttpsDnsProxy.Pinning
import HttpsDnsProxy.Polling

/-!
# The proxy with its poller

`main` sets the bootstrap poller up with `dns_poll_cb`. A lookup that c-ares ends goes through
`ares_cb` and `get_addr_listing` to `dns_poll_cb`, which pins the addresses and resets the client,
while the servers take requests and the client works on its transfers. `PolledProxy` is the two
side by side, with what the poller hands to the proxy.

The proxy in it runs as one that gets the lists of the poller's lookups as polls
(`Follows`), so

* its entry has addresses of the list polled last only (`Proxy.latest_run`);
* the list has texts of the lookup only (`pollResult_spec`).

`pinnedToLatest` : between events, every request in flight is pinned to addresses that the latest
successful lookup has brought, and without one none has been started.
-/

namespace HttpsDnsProxy

/-! ## The two side by side -/

/-- What the proxy with its poller meets outside : what the proxy alone does, and
`ares_inet_ntop`. -/
structure PolledEnvironment extends Environment where
  inetNtop : InetNtop

/-- The list that `ares_cb` passes on for a lookup, unless it is NULL. -/
def pollResult (ntop : InetNtop) (nodes : List AddrNode) : Option CString :=
  match getAddrListing ntop nodes with
  | some (_, some buf) => some (CStrings.text buf)
  | _ => none

/-- A proxy with a poller. -/
structure PolledProxy where
  poller : DnsPoller AddrNode
  proxy : Proxy
  /-- `dns_poll_cb` was called with NULL for the list : what `snprintf` does with it is undefined,
  and the run is not followed any further. -/
  crashed : Bool

/-- What the event loop can report : something to the poller, or to the rest of the proxy. -/
inductive PolledEvent where
  | poller (e : PollerEvent AddrNode)
  | proxy (e : ProxyEvent)

namespace PolledProxy

variable (env : PolledEnvironment)

/-- `d->cb(d->hostname, d->cb_data, get_addr_listing(result->nodes))`. -/
def deliver (s : PolledProxy) (nodes : List AddrNode) : PolledProxy :=
  if s.crashed then s
  else
    match pollResult env.inetNtop nodes with
    | none => { s with crashed := true }
    | some addrList => { s with proxy := s.proxy.step env.toEnvironment (.poll addrList) }

/-- One event. A poll has no event of its own here : it is what an event of the poller leads to.
`dns_poll_cb` does not touch the poller, so what it is called with is handed over when the poller
is done. -/
def step (s : PolledProxy) (e : PolledEvent) : PolledProxy :=
  if s.crashed || !s.proxy.running || s.poller.exited then s
  else
    match e with
    | .proxy (.poll _) => s
    | .proxy e => { s with proxy := s.proxy.step env.toEnvironment e }
    | .poller e =>
      let poller := s.poller.step e
      (poller.polled.drop s.poller.polled.length).foldl (deliver env) { s with poller := poller }

/-- `main` before its first `ev_run`, with a poller. -/
def start (opt : Options) (aresReady : Bool) (bootstrapDns : CString) (pollingInterval : ℕ) :
    PolledProxy where
  poller := dnsPollerInit aresReady bootstrapDns pollingInterval
  proxy := Proxy.start env.toEnvironment opt
  crashed := false

/-- The run of the events `es` in the first `ev_run`. -/
def run (opt : Options) (aresReady : Bool) (bootstrapDns : CString) (pollingInterval : ℕ)
    (es : List PolledEvent) : PolledProxy :=
  Runs.run (step env) (start env opt aresReady bootstrapDns pollingInterval) es

end PolledProxy

/-! ## The lists -/

/-- A lookup with an IPv4 or IPv6 address gives a list of texts of such addresses. -/
theorem pollResult_spec {ntop : InetNtop} (hntop : ntop.Writes) {nodes : List AddrNode}
    (h : addrTexts nodes ≠ []) :
    ∃ kept, kept ≠ [] ∧ kept <+: addrTexts nodes ∧ pollResult ntop nodes = some (commaList kept) ∧
      IsAddrList (commaList kept) := by
  obtain ⟨how, kept, rest, -, hlongest, -, hloop⟩ := listNodes_start hntop nodes
  have hkept : kept ≠ [] := fun hnil => h (hlongest.eq_nil_iff.1 hnil)
  have heq := getAddrListing_eq hloop
  rw [if_neg hkept] at heq
  have htext := hlongest.text_eq rest
  refine ⟨kept, hkept, hlongest.isPrefix, by simp only [pollResult, heq, htext], ?_⟩
  rw [← htext]
  exact isAddrList_getAddrListing hntop heq

namespace DnsPoller

variable {ν : Type*}

theorem polled_aresCb (d : DnsPoller ν) (result : AresResult ν) :
    d.polled <+: (d.aresCb result).polled := by
  obtain ⟨status, nodes⟩ := result
  unfold aresCb
  cases status with
  | success => rcases nodes with _ | _ | ⟨node, nodes⟩ <;> simp
  | edestruction | other => simp

theorem polled_ares (d : DnsPoller ν) (actions : List (AresAction ν)) :
    d.polled <+: (d.ares actions).polled := by
  refine Runs.invariant (P := fun d' : DnsPoller ν => d.polled <+: d'.polled)
    (fun d' a h => h.trans ?_) actions (List.prefix_refl _)
  cases a with
  | sockState fd read write =>
    obtain ⟨ioEvents, exited, heq⟩ := d'.sockStateCb_eq fd read write
    rw [act, heq]
    split_ifs <;> exact List.prefix_refl _
  | callback result =>
    rw [act]
    split_ifs
    · exact List.prefix_refl _
    · exact polled_aresCb { d' with lookups := d'.lookups - 1 } result

theorem polled_timerCb (d : DnsPoller ν) (cancelled actions : List (AresAction ν)) (timeout : ℕ) :
    d.polled <+: (d.timerCb cancelled actions timeout).polled := by
  have hpolled : d.polled <+: (if d.requestOngoing then d.ares actions
      else ({ d.ares cancelled with
        requestOngoing := true
        lookups := (d.ares cancelled).lookups + 1 } : DnsPoller ν).ares actions).polled := by
    split_ifs
    · exact d.polled_ares actions
    · exact (d.polled_ares cancelled).trans (polled_ares { d.ares cancelled with
        requestOngoing := true, lookups := (d.ares cancelled).lookups + 1 } actions)
  unfold timerCb
  dsimp only
  split_ifs at hpolled ⊢ <;> exact hpolled

/-- Results are added only. -/
theorem polled_step (d : DnsPoller ν) (e : PollerEvent ν) : d.polled <+: (d.step e).polled := by
  cases e with
  | timer cancelled actions timeout =>
    rw [step]
    split_ifs
    · exact List.prefix_refl _
    · exact polled_timerCb { d with timer := none } cancelled actions timeout
    · exact List.prefix_refl _
  | sock fd actions =>
    rw [step]
    split_ifs
    · exact List.prefix_refl _
    · exact d.polled_ares actions
    · exact List.prefix_refl _
  | ares actions =>
    rw [step]
    split_ifs
    · exact List.prefix_refl _
    · exact d.polled_ares actions

end DnsPoller

namespace Proxy

variable {env : Environment}

/-- The list of a poll. -/
def pollOf : ProxyEvent → Option CString
  | .poll addrList => some addrList
  | _ => none

theorem pollOf_eq_some {e : ProxyEvent} {l : CString} : pollOf e = some l ↔ e = .poll l := by
  cases e <;> simp [pollOf]

theorem running_of_step {s : Proxy} {e : ProxyEvent} (h : (s.step env e).running = true) :
    s.running = true := by
  by_contra hrun
  rw [Proxy.step.eq_def, if_pos (by simpa using hrun)] at h
  exact hrun h

/-- Nothing but a poll changes the entry. -/
theorem resolv_step {s : Proxy} {e : ProxyEvent} (h : pollOf e = none) :
    (s.step env e).resolv = s.resolv := by
  have hkept : KeptByProxy env fun s' => s'.resolv = s.resolv :=
    { server := fun _ _ _ h => h
      client := fun s' c _ h => (sameApp_advance env s' c).resolv.trans h
      request := by
        intro s' isTcp origin raddr dnsReq hrun _ _ _ h
        obtain ⟨stat, heq⟩ := s'.takeRequest_eq env hrun isTcp origin raddr dnsReq
        rw [heq]
        exact h
      print := fun _ h => h
      halt := fun _ h => h }
  refine hkept.step e (fun _ _ _ h => h) (fun addrList he => ?_) rfl
  rw [he] at h
  cases h

/-- The entry is that of the list polled last, or of one all of whose addresses are in it. -/
def Latest (hostname : CString) (s : Proxy) : Option CString → Prop
  | none => s.resolv = none
  | some addrList => ∃ resolv l, s.resolv = some resolv ∧ resolv.data = resolvEntry hostname l ∧
      IsAddrList l ∧ ∀ ip ∈ l.splitOn ',', ip ∈ addrList.splitOn ','

theorem Latest.of_resolv {hostname : CString} {s s' : Proxy} (h : s'.resolv = s.resolv) :
    ∀ {last : Option CString}, Latest hostname s last → Latest hostname s' last
  | none, hs => h.trans hs
  | some _, hs => by
    obtain ⟨resolv, l, hresolv, hl⟩ := hs
    exact ⟨resolv, l, h.trans hresolv, hl⟩

/-- In every run the entry is up to date with the last poll. -/
theorem latest_run (happend : ∀ n, env.slistAppend n = true) {opt : Options} {hostname : CString}
    (hopt : opt.hostname = some hostname) (hhost : IsHostname hostname) (es : List ProxyEvent)
    (hpolls : ∀ l, .poll l ∈ es → IsAddrList l) (hrun : (run env opt es).running = true) :
    Latest hostname (run env opt es) (es.filterMap pollOf).getLast? := by
  induction es using List.reverseRecOn with
  | nil => rfl
  | append_singleton es e ih =>
    have hbefore : ∀ l, .poll l ∈ es → IsAddrList l := fun l hl =>
      hpolls l (List.mem_append_left _ hl)
    have hstep : run env opt (es ++ [e]) = (run env opt es).step env e := Runs.run_concat _ _ _ _
    rw [hstep] at hrun ⊢
    rw [List.filterMap_append]
    cases hpoll : pollOf e with
    | none =>
      rw [List.filterMap_cons_none hpoll, List.filterMap_nil, List.append_nil]
      exact (ih hbefore (running_of_step hrun)).of_resolv (resolv_step hpoll)
    | some addrList =>
      rw [List.filterMap_cons_some hpoll, List.filterMap_nil, List.getLast?_concat]
      obtain rfl := pollOf_eq_some.1 hpoll
      have hname : opt.hostname.getD [] = hostname := by rw [hopt, Option.getD_some]
      have hentered : Entered hostname (fun l => .poll l ∈ es) (run env opt es) :=
        hname ▸ entered_run env opt (hname.symm ▸ hhost) hbefore
      have hpoller : (run env opt es).dnsPoller = true := by
        rw [(configured_run env opt es).dnsPoller, hopt, Option.isSome_some]
      have hcb : (run env opt es).step env (.poll addrList) =
          (run env opt es).dnsPollCb env addrList := by
        rw [Proxy.step, if_neg (by rw [running_of_step hrun]; decide)]
        exact if_pos hpoller
      rw [hcb]
      have hlist := hpolls addrList (by simp)
      obtain ⟨⟨resolv, l, hresolv, hdata, hl, hmem⟩, -⟩ :=
        dnsPollCb_spec happend hhost hbefore hentered hlist
      refine ⟨resolv, l, hresolv, hdata, ?_, hmem⟩
      rcases hl with hl | rfl
      · exact hbefore l hl
      · exact hlist

end Proxy

/-! ## The proxy in the two -/

namespace PolledProxy

variable {env : PolledEnvironment} {opt : Options} {s : PolledProxy}

/-- The proxy has run as one that got the lists of the lookups `polled` as polls, unless one of
them had no list. -/
inductive Follows (env : PolledEnvironment) (opt : Options) (polled : List (List AddrNode))
    (s : PolledProxy) : Prop where
  | runs (es : List ProxyEvent) : s.crashed = false → s.proxy = Proxy.run env.toEnvironment opt es →
      (es.filterMap Proxy.pollOf).map some = polled.map (pollResult env.inetNtop) →
      Follows env opt polled s
  | crashed (nodes : List AddrNode) : s.crashed = true → nodes ∈ polled →
      pollResult env.inetNtop nodes = none → Follows env opt polled s

theorem Follows.deliver {polled : List (List AddrNode)} (h : Follows env opt polled s)
    (nodes : List AddrNode) : Follows env opt (polled ++ [nodes]) (s.deliver env nodes) := by
  cases h with
  | crashed nodes' hcrashed hmem hnone =>
    rw [PolledProxy.deliver, if_pos hcrashed]
    exact .crashed nodes' hcrashed (List.mem_append_left _ hmem) hnone
  | runs es hcrashed hproxy hpolls =>
    rw [PolledProxy.deliver, if_neg (by simp [hcrashed])]
    cases hresult : pollResult env.inetNtop nodes with
    | none => exact .crashed nodes rfl (by simp) hresult
    | some addrList =>
      refine .runs (es ++ [.poll addrList]) hcrashed ?_ ?_
      · exact (congrArg (Proxy.step env.toEnvironment · (.poll addrList)) hproxy).trans
          (Runs.run_concat _ _ _ _).symm
      · simp [Proxy.pollOf, hpolls, hresult]

theorem Follows.foldl_deliver (new : List (List AddrNode)) {polled : List (List AddrNode)}
    (h : Follows env opt polled s) :
    Follows env opt (polled ++ new) (new.foldl (PolledProxy.deliver env) s) := by
  induction new generalizing s polled with
  | nil => rwa [List.append_nil]
  | cons nodes new ih =>
    have hrest := ih (h.deliver nodes)
    rwa [List.append_assoc] at hrest

theorem poller_foldl_deliver (new : List (List AddrNode)) :
    (new.foldl (deliver env) s).poller = s.poller := by
  induction new generalizing s with
  | nil => rfl
  | cons nodes new ih =>
    refine ih.trans ?_
    unfold deliver
    split_ifs
    · rfl
    · split <;> rfl

theorem poller_step_poller (h : (s.crashed || !s.proxy.running || s.poller.exited) = false)
    (e : PollerEvent AddrNode) : (s.step env (.poller e)).poller = s.poller.step e := by
  rw [step, if_neg (by simp [h]), poller_foldl_deliver]

theorem poller_step_proxy (e : ProxyEvent) : (s.step env (.proxy e)).poller = s.poller := by
  by_cases hdead : (s.crashed || !s.proxy.running || s.poller.exited) = true
  · rw [step.eq_def, if_pos hdead]
  · rw [step.eq_def, if_neg hdead]
    cases e <;> rfl

theorem Follows.of_poller {polled : List (List AddrNode)} (h : Follows env opt polled s)
    (poller : DnsPoller AddrNode) : Follows env opt polled { s with poller := poller } := by
  cases h with
  | crashed nodes hcrashed hmem hnone => exact .crashed nodes hcrashed hmem hnone
  | runs es hcrashed hproxy hpolls => exact .runs es hcrashed hproxy hpolls

/-- Nothing but an event of the poller leads to a poll. -/
theorem Follows.proxy {polled : List (List AddrNode)} (h : Follows env opt polled s)
    {e : ProxyEvent} (he : Proxy.pollOf e = none) :
    Follows env opt polled { s with proxy := s.proxy.step env.toEnvironment e } := by
  cases h with
  | crashed nodes hcrashed hmem hnone => exact .crashed nodes hcrashed hmem hnone
  | runs es hcrashed hproxy hpolls =>
    refine .runs (es ++ [e]) hcrashed ?_ ?_
    · exact (congrArg (Proxy.step env.toEnvironment · e) hproxy).trans
        (Runs.run_concat _ _ _ _).symm
    · simpa [he] using hpolls

/-- One event of either side. -/
theorem Follows.step (h : Follows env opt s.poller.polled s) (e : PolledEvent) :
    Follows env opt (s.step env e).poller.polled (s.step env e) := by
  by_cases hdead : (s.crashed || !s.proxy.running || s.poller.exited) = true
  · rw [PolledProxy.step.eq_def, if_pos hdead]
    exact h
  · cases e with
    | poller e =>
      rw [poller_step_poller (by simpa using hdead), PolledProxy.step, if_neg hdead]
      have hnew := (h.of_poller (s.poller.step e)).foldl_deliver
        ((s.poller.step e).polled.drop s.poller.polled.length)
      rwa [List.prefix_iff_eq_append.1 (s.poller.polled_step e)] at hnew
    | proxy e =>
      cases e with
      | poll addrList =>
        rw [PolledProxy.step, if_neg hdead]
        exact h
      | accept | tcpRead | tcpTimeout | udp | sock | timer | resetTimer | statTimer =>
        rw [PolledProxy.step, if_neg hdead]
        · exact h.proxy rfl
        · rintro addrList ⟨⟩

theorem follows_run (env : PolledEnvironment) (opt : Options) (aresReady : Bool)
    (bootstrapDns : CString) (pollingInterval : ℕ) (es : List PolledEvent) :
    Follows env opt (run env opt aresReady bootstrapDns pollingInterval es).poller.polled
      (run env opt aresReady bootstrapDns pollingInterval es) :=
  Runs.invariant (P := fun s : PolledProxy => Follows env opt s.poller.polled s)
    (fun _ e h => h.step e) es (.runs [] rfl rfl rfl)

end PolledProxy

/-- The pinned addresses are those of the latest lookup, for every run of the proxy with its poller
in which each lookup that succeeds brings an IPv4 or IPv6 address, with what is assumed of
`ares_inet_ntop`. `dns_poll_cb` always gets a list. Before the first such lookup there is no entry
and no transfer has been started. Behind it, while the process runs, the entry has texts of the
addresses of the last one only, at least one, and each transfer in flight was started with this
entry. -/
theorem pinnedToLatest (env : PolledEnvironment) (hntop : env.inetNtop.Writes)
    (happend : ∀ n, env.slistAppend n = true) (opt : Options) {hostname : CString}
    (hopt : opt.hostname = some hostname) (hhost : IsHostname hostname) (aresReady : Bool)
    (bootstrapDns : CString) (pollingInterval : ℕ) (es : List PolledEvent)
    (hnodes : ∀ nodes ∈ (PolledProxy.run env opt aresReady bootstrapDns pollingInterval
      es).poller.polled, addrTexts nodes ≠ []) :
    let s := PolledProxy.run env opt aresReady bootstrapDns pollingInterval es
    s.crashed = false ∧
      (s.poller.polled = [] →
        s.proxy.resolv = none ∧ ∀ n resolve, .started n resolve ∉ s.proxy.trace) ∧
      ∀ nodes, s.proxy.running = true → s.poller.polled.getLast? = some nodes →
        ∃ resolv ips, s.proxy.resolv = some resolv ∧
          resolv.data = hostname ++ ":443:".toList ++ commaList ips ∧ ips ≠ [] ∧
          (∀ ip ∈ ips, ip ∈ addrTexts nodes) ∧
          ∀ ctx ∈ s.proxy.https.fetches, ctx.resolve = some resolv := by
  intro s
  obtain ⟨pes, hcrashed, hproxy, hpolls⟩ : ∃ pes, s.crashed = false ∧
      s.proxy = Proxy.run env.toEnvironment opt pes ∧
      (pes.filterMap Proxy.pollOf).map some = s.poller.polled.map (pollResult env.inetNtop) := by
    cases PolledProxy.follows_run env opt aresReady bootstrapDns pollingInterval es with
    | runs pes hcrashed hproxy hpolls => exact ⟨pes, hcrashed, hproxy, hpolls⟩
    | crashed nodes _ hmem hnone =>
      obtain ⟨kept, -, -, hsome, -⟩ := pollResult_spec hntop (hnodes nodes hmem)
      rw [hnone] at hsome
      cases hsome
  have hlists : ∀ l, .poll l ∈ pes → IsAddrList l := by
    intro l hl
    have hmem : some l ∈ s.poller.polled.map (pollResult env.inetNtop) := by
      rw [← hpolls]
      exact List.mem_map_of_mem (List.mem_filterMap.2 ⟨_, hl, rfl⟩)
    obtain ⟨nodes, hmem, hresult⟩ := List.mem_map.1 hmem
    obtain ⟨kept, -, -, hsome, hlist⟩ := pollResult_spec hntop (hnodes nodes hmem)
    obtain rfl := Option.some.inj (hsome.symm.trans hresult)
    exact hlist
  have hlast : (pes.filterMap Proxy.pollOf).getLast?.map some =
      s.poller.polled.getLast?.map (pollResult env.inetNtop) := by
    rw [← List.getLast?_map, hpolls, List.getLast?_map]
  have hnone : s.poller.polled = [] → ∀ l, .poll l ∉ pes := by
    intro hempty l hl
    rw [hempty, List.map_nil, List.map_eq_nil_iff, List.filterMap_eq_nil_iff] at hpolls
    cases hpolls _ hl
  have hlatest := Proxy.latest_run happend hopt hhost pes hlists
  have husing : opt.hostname.isSome = true := by rw [hopt, Option.isSome_some]
  rw [hproxy]
  refine ⟨hcrashed, fun hempty => ?_, fun nodes hrun hnodesLast => ?_⟩
  · have hunpolled := Proxy.unpolled_run env.toEnvironment husing (hnone hempty)
    exact ⟨hunpolled.resolv, hunpolled.started⟩
  have hmem : nodes ∈ s.poller.polled := List.mem_of_getLast? hnodesLast
  obtain ⟨kept, hkept, hprefix, hresult, -⟩ := pollResult_spec hntop (hnodes nodes hmem)
  rw [hnodesLast, Option.map_some, hresult, Option.map_eq_some_iff] at hlast
  obtain ⟨l, hl, hsome⟩ := hlast
  obtain rfl := Option.some.inj hsome
  have hcurrent := hlatest hrun
  rw [hl] at hcurrent
  obtain ⟨resolv, old, hresolv, hdata, hold, hsub⟩ := hcurrent
  rw [splitOn_commaList hkept hprefix] at hsub
  refine ⟨resolv, old.splitOn ',', hresolv, ?_, ?_, fun ip hip => hprefix.subset (hsub ip hip),
    fun ctx hctx => ?_⟩
  · rw [hdata, resolvEntry, commaList, List.intercalate_splitOn]
    rfl
  · exact List.splitOn_ne_nil _ _
  · have hpin : (ctx.block, ctx.resolve) ∈ (Proxy.run env.toEnvironment opt pes).https.pins :=
      List.mem_map_of_mem (f := fun ctx => (ctx.block, ctx.resolve)) hctx
    exact ((Proxy.pinned_run env.toEnvironment opt pes).current hrun _ hpin).trans hresolv

/-- An environment with answers, and an `ares_inet_ntop` that writes texts. -/
def polledAnswering : PolledEnvironment :=
  { answering headerOnly with inetNtop := aresInetNtop }

/-- A lookup that brings an address, and a request behind it. -/
def lookupThenRequest : List PolledEvent :=
  [.poller (.timer [] [] 100),
    .poller (.ares [.callback ⟨.success, some [.inet broadcastAddr]⟩]),
    .proxy (.udp (.datagram headerOnly [10, 0, 0, 1]))]

theorem polled_lookupThenRequest (opt : Options) :
    (PolledProxy.run polledAnswering opt true ['8'] 120 lookupThenRequest).poller.polled =
      [[.inet broadcastAddr]] := by
  simp only [lookupThenRequest, PolledProxy.run, Runs.run_cons, Runs.run_nil,
    PolledProxy.poller_step_proxy]
  rw [PolledProxy.poller_step_poller rfl]
  rfl

/-- The request starts a transfer pinned to the address. -/
theorem pinnedToLatest_one :
    let s := PolledProxy.run polledAnswering ⟨false, 0, 4, some ['d']⟩ true ['8'] 120
      lookupThenRequest
    s.proxy.https.fetches.length = 1 ∧ ∃ resolv ips, s.proxy.resolv = some resolv ∧
      resolv.data = ['d'] ++ ":443:".toList ++ commaList ips ∧ ips ≠ [] ∧
      (∀ ip ∈ ips, ip ∈ addrTexts [.inet broadcastAddr]) ∧
      ∀ ctx ∈ s.proxy.https.fetches, ctx.resolve = some resolv := by
  have hpolled := polled_lookupThenRequest ⟨false, 0, 4, some ['d']⟩
  refine ⟨by decide +kernel, (pinnedToLatest polledAnswering writes_aresInetNtop (fun _ => rfl)
    ⟨false, 0, 4, some ['d']⟩ rfl ⟨by decide, by decide, by decide⟩ true ['8'] 120
    lookupThenRequest fun nodes hmem => ?_).2.2 _ (by decide +kernel) (by rw [hpolled]; rfl)⟩
  rw [hpolled, List.mem_singleton] at hmem
  rw [hmem]
  simp [addrTexts, AddrNode.addr]

end HttpsDnsProxy
