import HttpsDnsProxy.Counting
import HttpsDnsProxy.Shutdown

/-!
# Statistics over whole runs

What `stat.c` prints, summed up, is what has happened. `Tallied` compares the totals of the
counters with what the trace and the effects of the client give : each step of the client and
each request keeps it, and printing changes no total. A response belongs to a fetch that has left
the list, so with the listed fetches there are no more responses than requests.

`statistics_conserved` draws the conclusion for the whole life of the process.
-/

namespace HttpsDnsProxy

open HttpsClient (HttpsStep Steps)

namespace Proxy

variable {env : Environment} {s : Proxy} {c : HttpsClient Request} {f : StatField}

/-! ## The totals in every state -/

/-- The totals of the counters are what the trace and the effects of the client give, unless a
callback has not returned, and there is a request for every response and every fetch in the
list. -/
structure Tallied (s : Proxy) : Prop where
  enabled : s.stat.isSome = true
  listed : ∀ p ∈ s.https.listed, p.2.stat = true
  ended_lt : ∀ n result info body, .ended n result info body ∈ s.trace → n < s.https.nextBlock
  totals : s.halted = false → ∀ f : StatField,
    s.total f ≡ f.expected s.trace s.https.effects [MOD 2 ^ 64]
  pending : ∀ isTcp, (responsesIn isTcp s.trace).length +
    s.https.listed.countP (fun p => p.2.isTcp == isTcp) ≤ (requestsIn isTcp s.trace).length

namespace Tallied

/-- Nothing is counted, and nothing is to be counted. -/
theorem idle {s' : Proxy} (h : Tallied s) {os : List Observation}
    (hos : ∀ o ∈ os, o.isIdle = true) (htrace : s'.trace = s.trace ++ os)
    (hhttps : s'.https = s.https) (hsome : s'.stat.isSome = true)
    (htotal : ∀ f, s'.total f = s.total f) (hhalted : s'.halted = false → s.halted = false) :
    Tallied s' where
  enabled := hsome
  listed := hhttps ▸ h.listed
  ended_lt n result info body hmem := by
    rw [htrace] at hmem
    rw [hhttps]
    rcases List.mem_append.1 hmem with hmem | hmem
    · exact h.ended_lt n result info body hmem
    · cases hos _ hmem
  totals hrun f := by
    rw [htotal, htrace, hhttps, StatField.expected_idle hos]
    exact h.totals (hhalted hrun) f
  pending isTcp := by
    rw [htrace, hhttps, requestsIn_idle hos, responsesIn_idle hos]
    exact h.pending isTcp

/-- Once a callback does not return, the client alone goes on. -/
theorem dead (h : Tallied s) (hhalted : s.halted = true) (hlisted : c.listed.Sublist s.https.listed)
    (hnext : c.nextBlock = s.https.nextBlock) : Tallied (s.withHttps c) where
  enabled := h.enabled
  listed p hp := h.listed p (hlisted.subset hp)
  ended_lt n result info body hmem := by
    have hlt := h.ended_lt n result info body hmem
    rwa [← hnext] at hlt
  totals hrun := by
    have hh : s.halted = false := hrun
    rw [hhalted] at hh
    cases hh
  pending isTcp := (Nat.add_le_add_left hlisted.countP_le _).trans (h.pending isTcp)

/-- Connections are opened and closed. -/
theorem quiet (h : Tallied s) (hlisted : c.listed = s.https.listed)
    (hnext : c.nextBlock = s.https.nextBlock) {es : List (HttpsEffect Request)}
    (hes : c.effects = s.https.effects ++ es) (hconn : ∀ e ∈ es, e.isConnection = true) :
    Tallied (s.advance env c) := by
  rw [advance_eq hes]
  -- effects are carried out only as long as the process goes on
  cases hh : s.halted with
  | true =>
    rw [foldl_halted hh]
    exact h.dead hh (by rw [hlisted]) hnext
  | false =>
    obtain ⟨stat, hfold, hsome, htotal⟩ := total_connections env es s hconn hh h.enabled
    rw [hfold]
    refine ⟨hsome, fun p hp => h.listed p (hlisted ▸ hp), ?_, fun _ f => ?_, ?_⟩
    · intro n result info body hmem
      have hlt := h.ended_lt n result info body hmem
      rwa [← hnext] at hlt
    · have htotals := h.totals hh f
      refine (htotal f).trans ((htotals.add_right _).trans ?_)
      show _ ≡ f.expected s.trace c.effects [MOD 2 ^ 64]
      cases hf : f.isTraffic with
      | true =>
        rw [StatField.sum_connection hf hconn, Nat.add_zero,
          StatField.expected_congr_effects hf s.trace s.https.effects c.effects]
      | false => rw [hes, StatField.expected_effects hf s.trace s.trace]
    · intro isTcp
      have hpending := h.pending isTcp
      rwa [← hlisted] at hpending

/-- The effects of finishing a fetch before its callback : the end of the transfer, if it was
not aborted, and connections. -/
theorem before_call (env : Environment) (h : Tallied s) (hrun : s.halted = false) (prev : Option ℕ)
    (ctx : HttpsFetchCtx Request) (result : Option (CurlCode × TransferInfo)) :
    ∃ es ends buf stat, Ends ctx ends buf ∧
      (s.https.finishFetch prev ctx result).effects =
        s.https.effects ++ (es ++ [.call ctx.block ctx.cbData buf]) ∧
      es.foldl (carryOut env) s = { s with trace := s.trace ++ ends, stat := stat } ∧
      stat.isSome = true ∧
      (∀ f : StatField, ({ s with stat := stat } : Proxy).total f ≡
        s.total f + (es.map f.addedBy).sum [MOD 2 ^ 64]) ∧
      ∀ f : StatField, f.isTraffic = true → (es.map f.addedBy).sum = 0 := by
  rcases (s.https.finishFetch_spec prev ctx result).2.2.2 with
    ⟨-, he⟩ | ⟨code, info, es, -, hconn, he⟩
  · exact ⟨[], [], none, s.stat, .aborted, he, by simp, h.enabled, fun _ => rfl, fun _ _ => rfl⟩
  · obtain ⟨stat, hfold, hsome, htotal⟩ := total_connections env es
      (s.note (.ended ctx.block code info ctx.buf)) hconn hrun h.enabled
    refine ⟨.ended ctx.block code info ctx.buf :: es, _, _, stat, .done code info, ?_, ?_, hsome,
      fun f => ?_, fun f hf => ?_⟩
    · rw [he]
      simp
    · have hnote : s.carryOut env (.ended ctx.block code info ctx.buf) =
          s.note (.ended ctx.block code info ctx.buf) := if_neg (by simp [hrun])
      rw [List.foldl_cons, hnote, hfold]
      rfl
    · rw [List.map_cons, List.sum_cons, StatField.addedBy_ended, Nat.zero_add]
      exact htotal f
    · rw [List.map_cons, List.sum_cons, StatField.addedBy_ended, Nat.zero_add,
        StatField.sum_connection hf hconn]

/-- What finishing a fetch adds to the trace, to the effects of the client and to the totals. -/
theorem finished (env : Environment) (h : Tallied s) (hrun : s.halted = false) (prev : Option ℕ)
    (ctx : HttpsFetchCtx Request) (result : Option (CurlCode × TransferInfo)) :
    ∃ es ends os buf, Ends ctx ends buf ∧ (∀ o ∈ os, o.isIdle = true) ∧
      (s.https.finishFetch prev ctx result).effects = s.https.effects ++ es ∧
      (s.advance env (s.https.finishFetch prev ctx result)).trace = s.trace ++ ends ++ os ∧
      (s.advance env (s.https.finishFetch prev ctx result)).stat.isSome = true ∧
      (∀ f : StatField, (s.advance env (s.https.finishFetch prev ctx result)).total f ≡
        s.total f + (es.map f.addedBy).sum [MOD 2 ^ 64]) ∧
      ∀ f : StatField, f.isTraffic = true →
        (es.map f.addedBy).sum = f.addedBy (.call ctx.block ctx.cbData buf) := by
  obtain ⟨es, ends, buf, stat, hends, hes, hfold, hsome, htotal, htraffic⟩ :=
    h.before_call env hrun prev ctx result
  -- the callback is the last effect, so only there can the process get stuck
  let s₁ : Proxy := { s with trace := s.trace ++ ends, stat := stat }
  let call : HttpsEffect Request := .call ctx.block ctx.cbData buf
  have hadvance : s.advance env (s.https.finishFetch prev ctx result) =
      (s₁.carryOut env call).withHttps (s.https.finishFetch prev ctx result) := by
    rw [advance_eq hes, List.foldl_append, hfold]
    rfl
  obtain ⟨os, hos, htrace⟩ := trace_call env s₁ ctx.block ctx.cbData buf
  obtain ⟨hsome', htotal'⟩ := total_carryOut env (s := s₁) hrun hsome call
  have hsum : ∀ f : StatField, ((es ++ [call]).map f.addedBy).sum =
      (es.map f.addedBy).sum + f.addedBy call := fun f => by simp
  refine ⟨es ++ [call], ends, os, buf, hends, hos, hes, ?_, ?_, fun f => ?_, fun f hf => ?_⟩
  · rw [hadvance]
    exact htrace
  · rw [hadvance]
    exact hsome'
  · rw [hadvance, hsum, ← Nat.add_assoc]
    exact (htotal' f).trans ((htotal f).add_right _)
  · rw [hsum, htraffic f hf, Nat.zero_add]

end Tallied

/-- A fetch is finished. -/
theorem Tallied.finish {a : ℕ} (h : Tallied s) (hl : Ledger a s.https s.trace)
    {pre post : List (HttpsFetchCtx Request)} {ctx : HttpsFetchCtx Request}
    (hsplit : s.https.fetches = pre ++ ctx :: post) (result : Option (CurlCode × TransferInfo)) :
    Tallied (s.advance env
      (s.https.finishFetch (pre.getLast?.map HttpsFetchCtx.block) ctx result)) := by
  have hfetches := hl.fetches.fetches_finishFetch hsplit result
  have hnext := (s.https.finishFetch_spec (pre.getLast?.map HttpsFetchCtx.block) ctx result).2.1
  have heffects := (HttpsStep.finish result hsplit).effects
  generalize hc : s.https.finishFetch (pre.getLast?.map HttpsFetchCtx.block) ctx result = c at *
  have hlisted := HttpsClient.listed_split hsplit
  have hlisted' := HttpsClient.listed_append hfetches
  have hsub := HttpsClient.listed_sublist_of_unlink hsplit hfetches
  cases hh : s.halted with
  | true =>
    obtain ⟨es, hes⟩ := heffects
    rw [advance_eq hes.symm, foldl_halted hh]
    exact h.dead hh hsub hnext
  | false =>
    have hmem : ctx.key ∈ s.https.listed := by simp [hlisted]
    obtain ⟨origin, source, hown⟩ := hl.owned ctx.key hmem
    obtain ⟨es, ends, os, buf, hends, hos, hes, htrace, hsome, htotal, hcall⟩ :=
      h.finished env hh (pre.getLast?.map HttpsFetchCtx.block) ctx result
    rw [hc] at hes htrace hsome htotal
    refine ⟨hsome, fun p hp => h.listed p (hsub.subset hp), ?_, fun _ f => ?_, fun isTcp => ?_⟩
    · intro n code info body hended
      rw [htrace, List.mem_append, List.mem_append] at hended
      rw [https_advance, hnext]
      rcases hended with (hended | hended) | hended
      · exact h.ended_lt n code info body hended
      · rw [hends.block_of_mem hended]
        exact hl.fetches.listed_lt hmem
      · cases hos _ hended
    · refine (htotal f).trans (((h.totals hh f).add_right _).trans ?_)
      rw [htrace, StatField.expected_idle hos, https_advance]
      cases hf : f.isTraffic with
      | true =>
        rw [hends.expected hown (h.listed ctx.key hmem) hf, hcall f hf,
          StatField.expected_congr_effects hf s.trace s.https.effects c.effects]
      | false => rw [hes, StatField.expected_effects hf s.trace]
    -- the fetch leaves the list, which makes room for its response
    · rw [htrace, requestsIn_idle hos, responsesIn_idle hos, hends.requestsIn]
      have hpending := h.pending isTcp
      have hle := hends.responses_le hown isTcp
      have hcount : s.https.listed.countP (fun p => p.2.isTcp == isTcp) =
          c.listed.countP (fun p => p.2.isTcp == isTcp) +
            if ctx.cbData.isTcp == isTcp then 1 else 0 := by
        rw [hlisted, hlisted', List.countP_append, List.countP_cons, List.countP_append,
          ← Nat.add_assoc]
        rfl
      rw [https_advance]
      omega

/-- A step of the client. -/
theorem Tallied.client {a : ℕ} (h : Tallied s) (hl : Ledger a s.https s.trace)
    (hstep : HttpsStep s.https c) : Tallied (s.advance env c) := by
  cases hstep with
  | callback cb =>
    obtain ⟨es, hes, hconn⟩ := s.https.effects_transferCallback cb
    exact h.quiet (s.https.listed_transferCallback cb) (s.https.nextBlock_transferCallback cb)
      hes hconn
  | frame hf =>
    exact h.quiet (congrArg (List.map _) hf.fetches) hf.nextBlock
      (hf.effects.trans (List.append_nil _).symm) (by simp)
  | finish result hsplit => exact h.finish hl hsplit result

/-- A request taken on is counted. -/
theorem Tallied.request (h : Tallied s) (hrun : s.running = true) (isTcp : Bool)
    (origin : Option ℕ) (raddr : SockAddr) (dnsReq : List UInt8) :
    Tallied (s.takeRequest env isTcp origin raddr dnsReq) := by
  have heq := s.takeRequest_counted env hrun isTcp origin raddr dnsReq
  have hsome : (s.takeRequest env isTcp origin raddr dnsReq).stat.isSome = true := by
    rw [heq]
    exact (isSome_count _).trans h.enabled
  have htotal : ∀ f : StatField, (s.takeRequest env isTcp origin raddr dnsReq).total f ≡
      s.total f + f.added (.requestBegin dnsReq.length isTcp) [MOD 2 ^ 64] := by
    intro f
    rw [heq]
    exact total_count h.enabled (.requestBegin dnsReq.length isTcp)
  have hidle : ∀ o ∈ [Observation.started s.https.nextBlock s.resolv], o.isIdle = true := by
    simp [Observation.isIdle]
  rw [heq] at hsome htotal ⊢
  refine ⟨hsome, ?_, ?_, fun hh f => ?_, fun isTcp' => ?_⟩
  · intro p hp
    rcases List.mem_cons.1 hp with rfl | hp
    · exact h.enabled
    · exact h.listed p hp
  · intro n result info body hmem
    have hold : .ended n result info body ∈ s.trace := by simpa using hmem
    exact Nat.lt_succ_of_lt (h.ended_lt n result info body hold)
  · refine (htotal f).trans (((h.totals hh f).add_right _).trans ?_)
    simp only
    rw [StatField.expected_idle hidle, StatField.expected_accepted h.ended_lt]
    refine Nat.ModEq.add_right _ ?_
    cases htraffic : f.isTraffic with
    | true => rw [StatField.expected_congr_effects htraffic]
    | false =>
      have heffects := StatField.expected_effects htraffic s.trace s.trace s.https.effects
        [.started (s.https.newCtx dnsReq s.resolv (s.newRequest isTcp raddr dnsReq).txId
          (s.newRequest isTcp raddr dnsReq))]
      exact (congrArg (· % 2 ^ 64) heffects).symm
  · simp only
    rw [requestsIn_idle hidle, responsesIn_idle hidle, responsesIn_accepted isTcp h.ended_lt]
    have hpending := h.pending isTcp'
    have hlisted : (s.https.startFetch dnsReq s.resolv (s.newRequest isTcp raddr dnsReq).txId
        (s.newRequest isTcp raddr dnsReq)).listed.countP (fun p => p.2.isTcp == isTcp') =
        s.https.listed.countP (fun p => p.2.isTcp == isTcp') +
          if isTcp == isTcp' then 1 else 0 := List.countP_cons
    have hrequests : (requestsIn isTcp'
        (s.trace ++ [.accepted s.https.nextBlock isTcp origin raddr dnsReq])).length =
        (requestsIn isTcp' s.trace).length + if isTcp == isTcp' then 1 else 0 := by
      by_cases htcp : isTcp = isTcp' <;> simp [requestsIn, Observation.request, htcp]
    omega

/-- The ledger, the totals and the connections. -/
structure Counted (a : ℕ) (s : Proxy) : Prop where
  ledgers : Ledgers a s
  tallied : Tallied s
  balanced : s.https.Balanced

variable {a : ℕ}

theorem counted_client (hstep : HttpsStep s.https c) (h : Counted a s) :
    Counted a (s.advance env c) :=
  ⟨ledgers_client hstep h.ledgers, h.tallied.client h.ledgers.2 hstep, h.balanced.step hstep⟩

/-- Nothing that is counted happens. -/
theorem Counted.idle {s' : Proxy} (h : Counted a s) {os : List Observation}
    (hos : ∀ o ∈ os, ∃ b, o = .released b) (htrace : s'.trace = s.trace ++ os)
    (hhttps : s'.https = s.https) (haddrlen : s'.addrlen = s.addrlen)
    (hsome : s'.stat.isSome = true) (htotal : ∀ f, s'.total f = s.total f)
    (hhalted : s'.halted = false → s.halted = false) : Counted a s' where
  ledgers := by
    refine ⟨haddrlen.trans h.ledgers.1, ?_⟩
    rw [htrace, hhttps]
    refine h.ledgers.2.plains os fun o ho => ?_
    obtain ⟨b, rfl⟩ := hos o ho
    rfl
  tallied := by
    refine h.tallied.idle (fun o ho => ?_) htrace hhttps hsome htotal hhalted
    obtain ⟨b, rfl⟩ := hos o ho
    rfl
  balanced := hhttps ▸ h.balanced

/-- Only the statistics change, and their totals do not. -/
theorem Counted.stat (h : Counted a s) (g : Stat → Stat)
    (hg : ∀ (stat : Stat) (f : StatField), (g stat).total f = stat.total f) :
    Counted a { s with stat := s.stat.map g } := by
  refine h.idle (by simp) (List.append_nil _).symm rfl rfl
    (Option.isSome_map.trans h.tallied.enabled) (fun f => ?_) id
  cases hstat : s.stat with
  | none => simp [total, hstat]
  | some stat => simp [total, hstat, hg]

theorem Counted.server (h : Counted a s) (d : DnsServerTcp) : Counted a { s with tcp := d } :=
  h.idle (by simp) (List.append_nil _).symm rfl rfl h.tallied.enabled (fun _ => rfl) id

/-- The proxy keeps count. -/
theorem kept_counted (env : Environment) (a : ℕ) : KeptByProxy env (Counted a) where
  server _ d _ h := h.server d
  client _ _ hstep h := counted_client hstep h
  request s isTcp origin raddr dnsReq hrun hboot harrives hlen h :=
    { ledgers := (kept_ledgers env a).request s isTcp origin raddr dnsReq hrun hboot harrives hlen
        h.ledgers
      tallied := h.tallied.request hrun isTcp origin raddr dnsReq
      balanced := by
        rw [s.takeRequest_counted env hrun isTcp origin raddr dnsReq]
        exact h.balanced.start dnsReq s.resolv _ _ }
  print s h := h.stat _ fun stat f => by
    split_ifs
    · exact stat.total_statPrint f
    · rfl
  halt _ h := h.idle (by simp) (List.append_nil _).symm rfl rfl h.tallied.enabled
    (fun _ => rfl) fun hh => by cases hh

/-- Releasing the resolver list is not counted. -/
theorem Counted.freed (h : Counted a s) {s' : Proxy}
    (htrace : s'.trace = s.trace ++ s.resolv.toList.map fun r => .released (.resolv r.block))
    (hhttps : s'.https = s.https) (haddrlen : s'.addrlen = s.addrlen) (hstat : s'.stat = s.stat)
    (hhalted : s'.halted = s.halted) : Counted a s' := by
  refine h.idle (fun o ho => ?_) htrace hhttps haddrlen (hstat ▸ h.tallied.enabled)
    (fun f => by rw [total, hstat]; rfl) fun hh => hhalted.symm.trans hh
  obtain ⟨r, -, rfl⟩ := List.mem_map.1 ho
  exact ⟨_, rfl⟩

theorem counted_newResolv (addrList : CString) (h : Counted a s) :
    Counted a (s.newResolv env addrList) := by
  refine keep_newResolv (fun _ _ => counted_client) addrList ?_
  rw [replaceResolv, freeResolv_eq]
  exact h.freed rfl rfl rfl rfl rfl

theorem counted_start (env : Environment) {opt : Options} (hstat : opt.statsInterval = true) :
    Counted opt.addrlen (start env opt) := by
  have htotal : ∀ f, (start env opt).total f = 0 := fun f => by
    simp [total, start, hstat, Stat.total_statInit]
  refine ⟨ledgers_start env opt, ⟨by simp [start, hstat], ?_, ?_, fun _ f => ?_, ?_⟩,
    ⟨hstat, rfl, (by decide : (0 : ℤ) ≤ httpsSocketLimit)⟩⟩
  · intro p hp
    exact (List.not_mem_nil hp).elim
  · intro n result info body hmem
    exact (List.not_mem_nil hmem).elim
  · rw [htotal]
    cases f <;> rfl
  · intro isTcp
    exact Nat.le_refl 0

theorem counted_stop (s : Proxy) (h : Counted a s) : Counted a s.stop := by
  unfold stop
  simp only [freeResolv_eq]
  refine Counted.stat ?_ Stat.statStop fun _ _ => rfl
  split_ifs <;> exact h.freed rfl rfl rfl rfl rfl

/-- Releasing the servers is not counted. -/
theorem counted_releaseServers (s : Proxy) (h : Counted a s) : Counted a s.releaseServers := by
  obtain ⟨os, heq, hos⟩ := s.releaseServers_eq
  rw [heq]
  refine h.idle (fun o ho => ?_) rfl rfl rfl h.tallied.enabled (fun _ => rfl) id
  rcases hos o ho with rfl | rfl <;> exact ⟨_, rfl⟩

theorem counted_run (env : Environment) {opt : Options} (hstat : opt.statsInterval = true)
    (es : List ProxyEvent) : Counted opt.addrlen (run env opt es) :=
  Runs.invariant (fun _ e h => (kept_counted env _).step e (fun _ _ _ h => h.server _)
    (fun addrList _ _ _ => counted_newResolv addrList) h) es (counted_start env hstat)

/-- Closing down aborts the fetches left, closes connections and prints. -/
theorem ProcessState.counted {opt : Options} {es : List ProxyEvent}
    (hs : ProcessState env opt es s) (hstat : opt.statsInterval = true) : Counted opt.addrlen s :=
  (kept_counted env _).process hs (counted_run env hstat es) counted_stop counted_releaseServers
    fun _ h => h.stat Stat.statCleanup fun stat f => stat.total_statPrint f

end Proxy

/-- Statistics neither lose nor count twice. With statistics, in every state of the process, what
was printed and what is counted so far add up, modulo `2 ^ 64`, to the number and the sizes of
the requests handed to `https_client_fetch` and of the responses to them, for each transport, and
to the connections opened and closed, unless the process hangs in a callback. There are no more
responses than requests. `client->connections` is what was opened and not closed, at most
`HTTPS_SOCKET_LIMIT`, and not negative if libcurl closes only what it has opened. -/
theorem statistics_conserved (env : Environment) (opt : Options)
    (hstat : opt.statsInterval = true) (es : List ProxyEvent) (s : Proxy)
    (hs : Proxy.ProcessState env opt es s)
    (hcloses : s.https.ClosesOpened) :
    ∃ stat, s.stat = some stat ∧
      (s.halted = false → ∀ f : StatField,
        stat.total f ≡ f.expected s.trace s.https.effects [MOD 2 ^ 64]) ∧
      (∀ isTcp, (responsesIn isTcp s.trace).length ≤ (requestsIn isTcp s.trace).length) ∧
      s.https.connections = s.https.opened - s.https.closed ∧
      0 ≤ s.https.connections ∧ s.https.connections ≤ httpsSocketLimit := by
  obtain ⟨-, htallied, hbalanced⟩ := hs.counted hstat
  obtain ⟨stat, hsome⟩ := Option.isSome_iff_exists.1 htallied.enabled
  refine ⟨stat, hsome, fun hrun f => ?_, fun isTcp => ?_, hbalanced.balance,
    hbalanced.nonneg hcloses, hbalanced.limit⟩
  · have htotal := htallied.totals hrun f
    rwa [Proxy.total, hsome] at htotal
  · exact (Nat.le_add_right _ _).trans (htallied.pending isTcp)

/-- libcurl opens a connection for each transfer and closes one in the end. -/
def connecting : Environment :=
  { answering headerOnly with
    lib :=
      { (answering headerOnly).lib with
        addHandle := fun _ => ⟨[.openSocket (some 7), .multiTimer 0], .ok⟩
        multiCleanup := fun _ => [.closeSocket true] } }

/-- A request is answered, the counters are printed, and the process is closed down. -/
def countedOnce : Proxy :=
  (Proxy.run connecting ⟨true, 0, 4, none⟩ [.udp (.datagram headerOnly [10, 0, 0, 1]),
    .timer [.done 0 .ok goodInfo], .statTimer]).teardown connecting []

theorem effects_countedOnce : countedOnce.https.effects =
    [.started ⟨0, 0, 0xABCD, ⟨false, headerOnly, true, 0xABCD, [10, 0, 0, 1]⟩, none, none,
        headerOnly⟩, .connectionOpened, .ended 0 .ok goodInfo (some headerOnly),
      .call 0 ⟨false, headerOnly, true, 0xABCD, [10, 0, 0, 1]⟩ (some headerOnly),
      .connectionClosed] := rfl

theorem closed_countedOnce {j : ℕ} {e : HttpsEffect Request}
    (he : countedOnce.https.effects[j]? = some e) (hclosed : e.isClosed = true) : j = 4 := by
  rw [effects_countedOnce] at he
  rcases j with _ | _ | _ | _ | _ | j
  · cases he; cases hclosed
  · cases he; cases hclosed
  · cases he; cases hclosed
  · cases he; cases hclosed
  · rfl
  · cases he

theorem closesOpened_countedOnce : countedOnce.https.ClosesOpened := by
  refine ⟨fun _ => 1, fun j e he hclosed => ⟨?_, .connectionOpened, rfl, rfl⟩, ?_⟩
  · rw [closed_countedOnce he hclosed]
    decide
  · intro i j e e' he hclosed he' hclosed' _
    rw [closed_countedOnce he hclosed, closed_countedOnce he' hclosed']

/-- One request, one response of the same size, one connection. -/
theorem statistics_conserved_once :
    ∃ stat, countedOnce.stat = some stat ∧ stat.printed.length = 2 ∧
      stat.total (.requests false) ≡ 1 [MOD 2 ^ 64] ∧
      stat.total (.responsesSize false) ≡ 12 [MOD 2 ^ 64] ∧
      stat.total .connectionsOpened ≡ 1 [MOD 2 ^ 64] ∧
      stat.total .connectionsClosed ≡ 1 [MOD 2 ^ 64] ∧ countedOnce.https.connections = 0 := by
  obtain ⟨stat, hsome, htotals, -, hconnections, -, -⟩ :=
    statistics_conserved connecting ⟨true, 0, 4, none⟩ rfl _ countedOnce (.done _)
      closesOpened_countedOnce
  have hprinted : countedOnce.stat.map (fun stat => stat.printed.length) = some 2 := by
    decide +kernel
  have hall : ∀ f, stat.total f ≡ f.expected countedOnce.trace countedOnce.https.effects
      [MOD 2 ^ 64] := htotals rfl
  rw [hsome] at hprinted
  refine ⟨stat, hsome, Option.some.inj hprinted, ?_, ?_, ?_, ?_, hconnections⟩
  · exact hall (.requests false)
  · exact hall (.responsesSize false)
  · exact hall .connectionsOpened
  · exact hall .connectionsClosed

end HttpsDnsProxy
