import HttpsDnsProxy.Processes

/-!
# Requests and their fetches

A request accepted by the proxy has one fetch, and its callback replies to it at most once.
`Ledger` joins the fetches in the client's list with the trace : each listed fetch belongs to
one accepted request, holds that request's data, and has no reply yet. The proxy keeps it
(`Proxy.kept_ledgers`), and when a callback runs the owner of its fetch is known
(`Proxy.Ends.owned`).
-/

namespace HttpsDnsProxy

open Bytes
open HttpsClient (HttpsStep)

/-! ## Arrivals and replies -/

namespace Observation

/-- It is the arrival of the request `n`. -/
def accepts (n : ℕ) : Observation → Bool
  | .accepted m _ _ _ _ => m = n
  | _ => false

/-- It is a reply to the request `n`. -/
def replies (n : ℕ) : Observation → Bool
  | .udpReply m _ _ => m = n
  | .tcpReply m _ _ _ => m = n
  | _ => false

/-- It is neither an arrival nor a reply. -/
def isPlain : Observation → Bool
  | .accepted .. | .udpReply .. | .tcpReply .. => false
  | _ => true

/-- It belongs to finishing the fetch `n`. -/
def ofFetch (n : ℕ) : Observation → Bool
  | .ended m _ _ _ | .callback m | .udpReply m _ _ | .tcpReply m _ _ _ => m = n
  | .released (.dnsReq m) | .released (.request m) => m = n
  | _ => false

theorem accepts_of_isPlain {o : Observation} (h : o.isPlain = true) (n : ℕ) :
    o.accepts n = false := by
  cases o <;> first | rfl | cases h

theorem replies_of_isPlain {o : Observation} (h : o.isPlain = true) (n : ℕ) :
    o.replies n = false := by
  cases o <;> first | rfl | cases h

end Observation

/-- The request `p` with the number of its fetch was accepted once, from `source`, and has no
reply yet. -/
structure Owned (addrlen : ℕ) (t : List Observation) (p : ℕ × Request) (origin : Option ℕ)
    (source : SockAddr) : Prop where
  accepted : t.filter (Observation.accepts p.1) =
    [.accepted p.1 p.2.isTcp origin source p.2.dnsReq]
  unreplied : t.filter (Observation.replies p.1) = []
  origin_isSome : origin.isSome = p.2.isTcp
  raddr : p.2.raddr = sockBytes source addrlen
  txId : p.2.txId = be16 (p.2.dnsReq.getD 0 0) (p.2.dnsReq.getD 1 0)
  length_le : dnsHeaderLength ≤ p.2.dnsReq.length

/-- The client's list against the trace. -/
structure Ledger (addrlen : ℕ) (c : HttpsClient Request) (t : List Observation) : Prop where
  fetches : c.Fetches
  accepted_lt : ∀ n, t.filter (Observation.accepts n) ≠ [] → n < c.nextBlock
  replied_lt : ∀ n, t.filter (Observation.replies n) ≠ [] → n < c.nextBlock
  owned : ∀ p ∈ c.listed, ∃ origin source, Owned addrlen t p origin source

/-! ## Growing the trace -/

section Trace

variable {addrlen : ℕ} {c c' : HttpsClient Request} {t : List Observation} {p : ℕ × Request}
  {origin : Option ℕ} {source : SockAddr} {o : Observation}

theorem Owned.note (h : Owned addrlen t p origin source) (ha : o.accepts p.1 = false)
    (hr : o.replies p.1 = false) : Owned addrlen (t ++ [o]) p origin source :=
  { h with
    accepted := by simpa [List.filter_append, ha] using h.accepted
    unreplied := by simpa [List.filter_append, hr] using h.unreplied }

theorem Owned.notes (h : Owned addrlen t p origin source) (os : List Observation)
    (hos : ∀ o ∈ os, o.isPlain = true) : Owned addrlen (t ++ os) p origin source :=
  Runs.keep_append (P := fun t => Owned addrlen t p origin source)
    (fun _ o ho h => h.note (o.accepts_of_isPlain ho p.1) (o.replies_of_isPlain ho p.1)) os t hos h

namespace Ledger

theorem plain (h : Ledger addrlen c t) (ho : o.isPlain = true) : Ledger addrlen c (t ++ [o]) where
  fetches := h.fetches
  accepted_lt n hn :=
    h.accepted_lt n (by simpa [List.filter_append, o.accepts_of_isPlain ho n] using hn)
  replied_lt n hn :=
    h.replied_lt n (by simpa [List.filter_append, o.replies_of_isPlain ho n] using hn)
  owned p hp := by
    obtain ⟨origin, source, hown⟩ := h.owned p hp
    exact ⟨origin, source, hown.note (o.accepts_of_isPlain ho _) (o.replies_of_isPlain ho _)⟩

theorem plains (h : Ledger addrlen c t) (os : List Observation)
    (hos : ∀ o ∈ os, o.isPlain = true) : Ledger addrlen c (t ++ os) :=
  Runs.keep_append (fun _ _ ho h => h.plain ho) os t hos h

/-- Fewer fetches in the list. -/
theorem shrink (h : Ledger addrlen c t) (hf : c'.Fetches) (hl : c'.listed ⊆ c.listed)
    (hn : c'.nextBlock = c.nextBlock) : Ledger addrlen c' t where
  fetches := hf
  accepted_lt n hne := by rw [hn]; exact h.accepted_lt n hne
  replied_lt n hne := by rw [hn]; exact h.replied_lt n hne
  owned p hp := h.owned p (hl hp)

/-- A reply to a request whose fetch has left the list. -/
theorem reply {n : ℕ} (h : Ledger addrlen c t) (hne : ∀ p ∈ c.listed, p.1 ≠ n)
    (hlt : n < c.nextBlock) (ha : ∀ m, o.accepts m = false)
    (hr : ∀ m, m ≠ n → o.replies m = false) : Ledger addrlen c (t ++ [o]) where
  fetches := h.fetches
  accepted_lt m hm := h.accepted_lt m (by simpa [List.filter_append, ha m] using hm)
  replied_lt m hm := by
    by_cases hmn : m = n
    · exact hmn ▸ hlt
    · exact h.replied_lt m (by simpa [List.filter_append, hr m hmn] using hm)
  owned p hp := by
    obtain ⟨origin, source, hown⟩ := h.owned p hp
    exact ⟨origin, source, hown.note (ha _) (hr _ (hne p hp))⟩

/-- A new request is accepted, and its fetch is put in the list. -/
theorem accept (h : Ledger addrlen c t) {req : Request} {origin : Option ℕ} {source : SockAddr}
    (resolv : Option SList) (id : ℕ) (horigin : origin.isSome = req.isTcp)
    (hraddr : req.raddr = sockBytes source addrlen)
    (htxId : req.txId = be16 (req.dnsReq.getD 0 0) (req.dnsReq.getD 1 0))
    (hlen : dnsHeaderLength ≤ req.dnsReq.length) :
    Ledger addrlen (c.startFetch req.dnsReq resolv id req)
      (t ++ [.accepted c.nextBlock req.isTcp origin source req.dnsReq]) where
  fetches := h.fetches.start req.dnsReq resolv id req
  accepted_lt n hn := by
    by_cases ht : t.filter (Observation.accepts n) = []
    · have heq : c.nextBlock = n := by
        simpa [List.filter_append, ht, Observation.accepts] using hn
      exact heq ▸ Nat.lt_succ_self _
    · exact Nat.lt_succ_of_lt (h.accepted_lt n ht)
  replied_lt n hn :=
    Nat.lt_succ_of_lt (h.replied_lt n (by simpa [List.filter_append, Observation.replies] using hn))
  owned p hp := by
    have hnone : t.filter (Observation.accepts c.nextBlock) = [] :=
      not_not.1 fun hne => Nat.lt_irrefl _ (h.accepted_lt _ hne)
    have hnone' : t.filter (Observation.replies c.nextBlock) = [] :=
      not_not.1 fun hne => Nat.lt_irrefl _ (h.replied_lt _ hne)
    rcases List.mem_cons.1 hp with rfl | hp
    · refine ⟨origin, source, ⟨?_, ?_, horigin, hraddr, htxId, hlen⟩⟩
      · have hfilter : (t ++ [Observation.accepted c.nextBlock req.isTcp origin source
            req.dnsReq]).filter (Observation.accepts c.nextBlock) =
            [.accepted c.nextBlock req.isTcp origin source req.dnsReq] := by
          simp [List.filter_append, hnone, Observation.accepts]
        exact hfilter
      · have hfilter : (t ++ [Observation.accepted c.nextBlock req.isTcp origin source
            req.dnsReq]).filter (Observation.replies c.nextBlock) = [] := by
          simp [List.filter_append, hnone', Observation.replies]
        exact hfilter
    · obtain ⟨origin', source', hown⟩ := h.owned p hp
      have hlt : p.1 < c.nextBlock := h.accepted_lt p.1 (by simp [hown.accepted])
      refine ⟨origin', source', hown.note ?_ rfl⟩
      simp [Observation.accepts, Nat.ne_of_gt hlt]

end Ledger

end Trace

/-! ## Finishing a fetch -/

namespace Proxy

theorem Ends.isPlain {ctx : HttpsFetchCtx Request} {ends : List Observation}
    {buf : Option (List UInt8)} (h : Ends ctx ends buf) :
    ∀ o ∈ ends ++ [.callback ctx.block], o.isPlain = true := by
  cases h with
  | aborted => simp [Observation.isPlain]
  | done result info => simp [Observation.isPlain]

variable {env : Environment} {s : Proxy} {a : ℕ} {c : HttpsClient Request}
  {t : List Observation} {pre post : List (HttpsFetchCtx Request)} {ctx : HttpsFetchCtx Request}
  {ends replies freed : List Observation} {buf : Option (List UInt8)} {d : DnsServerTcp}

/-- The owner of a fetch at the time its callback runs. -/
theorem Ends.owned (hends : Ends ctx ends buf) (h : Ledger a s.https t)
    (hsplit : s.https.fetches = pre ++ ctx :: post) :
    ∃ origin source, Owned a (t ++ (ends ++ [.callback ctx.block])) ctx.key origin source := by
  have hmem : ctx.key ∈ s.https.listed := List.mem_map_of_mem (by simp [hsplit])
  obtain ⟨origin, source, hown⟩ := h.owned ctx.key hmem
  exact ⟨origin, source, hown.notes _ hends.isPlain⟩

/-- A finished fetch is the only one with its number. -/
theorem ne_of_finish (h : s.https.Fetches) (hsplit : s.https.fetches = pre ++ ctx :: post)
    (hfetches : c.fetches = pre ++ post) : ∀ p ∈ c.listed, p.1 ≠ ctx.block := by
  have hnodup := h.block_nodup
  rw [hsplit, List.map_append, List.map_cons, List.nodup_middle, List.nodup_cons,
    ← List.map_append, ← hfetches] at hnodup
  intro p hp heq
  obtain ⟨ctx', hctx', rfl⟩ := List.mem_map.1 hp
  exact hnodup.1 (heq ▸ List.mem_map_of_mem hctx')

theorem isPlain_freed {n : ℕ}
    (h : freed = [] ∨ freed = [.released (.dnsReq n), .released (.request n)]) :
    ∀ o ∈ freed, o.isPlain = true := by
  rcases h with rfl | rfl <;> simp [Observation.isPlain]

/-- All that finishing a fetch adds to the trace belongs to it. -/
theorem ofFetch_finish {req : Request} (hends : Ends ctx ends buf)
    (hreply : Reply env s ctx.block req buf replies d)
    (hfreed : freed = [] ∨
      freed = [.released (.dnsReq ctx.block), .released (.request ctx.block)]) :
    ∀ o ∈ ends ++ .callback ctx.block :: (replies ++ freed), o.ofFetch ctx.block = true := by
  intro o ho
  rw [List.mem_append, List.mem_cons, List.mem_append] at ho
  rcases ho with ho | rfl | ho | ho
  · cases hends with
    | aborted => cases ho
    | done => simp [List.mem_singleton.1 ho, Observation.ofFetch]
  · simp [Observation.ofFetch]
  · cases hreply with
    | none => cases ho
    | udp | tcp => simp [List.mem_singleton.1 ho, Observation.ofFetch]
  · rcases hfreed with rfl | rfl
    · cases ho
    · rcases List.mem_pair.1 ho with rfl | rfl <;> simp [Observation.ofFetch]

/-- A step of the client only adds observations of the fetch it finishes. -/
theorem ClientChange.mem_of_not_ofFetch {s' : Proxy} (h : ClientChange env s c s')
    {o : Observation} (ho : ∀ n, o.ofFetch n = false) (hmem : o ∈ s'.trace) : o ∈ s.trace := by
  cases h with
  | quiet | dead => exact hmem
  | finish stat halted _ _ _ _ hends hreply hfreed =>
    refine (List.mem_append.1 hmem).resolve_right fun hmem => ?_
    have hnew := ofFetch_finish hends hreply hfreed o hmem
    rw [ho] at hnew
    cases hnew

/-- What holds of plain observations goes on to hold when they come behind the trace. -/
theorem always_plains {J : List Observation → Observation → Prop}
    (hplain : ∀ t o, o.isPlain = true → J t o) {t os : List Observation}
    (hos : ∀ o ∈ os, o.isPlain = true) (h : Runs.Always J t) : Runs.Always J (t ++ os) :=
  Runs.keep_append (fun t o ho h => Runs.always_concat.2 ⟨h, hplain t o ho⟩) os t hos h

/-- A judgement of the trace that only replies can fail survives a step of the client if it
survives the replies in it. -/
theorem always_client {J : List Observation → Observation → Prop}
    (hplain : ∀ t o, o.isPlain = true → J t o) (hf : s.https.Fetches)
    (hstep : HttpsStep s.https c) (h : Runs.Always J s.trace)
    (hreplies : ∀ {pre post : List (HttpsFetchCtx Request)} {ctx : HttpsFetchCtx Request}
      {ends replies : List Observation} {buf : Option (List UInt8)} {d : DnsServerTcp},
      s.https.fetches = pre ++ ctx :: post → Ends ctx ends buf →
      Reply env s ctx.block ctx.cbData buf replies d →
      ∀ o ∈ replies, J (s.trace ++ (ends ++ [.callback ctx.block])) o) :
    Runs.Always J (s.advance env c).trace := by
  have hchange : ClientChange env s c (s.advance env c) := clientChange hstep hf
  generalize s.advance env c = s' at hchange
  cases hchange with
  | quiet | dead => exact h
  | @finish pre post ctx ends replies freed buf d stat halted hsplit _ _ _ hends hreply hfreed =>
    have hended := always_plains hplain hends.isPlain h
    have hone := hreplies hsplit hends hreply
    have hreplied : Runs.Always J (s.trace ++ (ends ++ [.callback ctx.block]) ++ replies) := by
      cases hreply with
      | none => simpa using hended
      | udp | tcp => exact Runs.always_concat.2 ⟨hended, hone _ (List.mem_singleton_self _)⟩
    simpa using always_plains hplain (isPlain_freed hfreed) hreplied

/-- The ledger, of the proxy. -/
def Ledgers (a : ℕ) (s : Proxy) : Prop :=
  s.addrlen = a ∧ Ledger a s.https s.trace

/-- A step of the client keeps the ledger. -/
theorem ledgers_client (hstep : HttpsStep s.https c) (hs : Ledgers a s) :
    Ledgers a (s.advance env c) := by
  refine ⟨(sameApp_advance env s c).addrlen.trans hs.1, ?_⟩
  have h := hs.2
  have hf : c.Fetches := h.fetches.step hstep
  have hchange : ClientChange env s c (s.advance env c) := clientChange hstep h.fetches
  generalize s.advance env c = s' at hchange
  cases hchange with
  | quiet stat hlisted hnext => exact h.shrink hf (by simp [hlisted]) hnext
  | dead _ hlisted hnext => exact h.shrink hf hlisted hnext
  | @finish pre post ctx ends replies freed buf d stat halted hsplit hfetches hnext _ hends hreply
      hfreed =>
    have hmem : ctx.key ∈ s.https.listed := List.mem_map_of_mem (by simp [hsplit])
    obtain ⟨origin, source, hown⟩ := h.owned ctx.key hmem
    have hlt : ctx.block < c.nextBlock := by
      rw [hnext]
      refine h.accepted_lt ctx.block ?_
      have haccepted := hown.accepted
      simp [HttpsFetchCtx.key] at haccepted
      simp [haccepted]
    have hsub : c.listed ⊆ s.https.listed :=
      (HttpsClient.listed_sublist_of_unlink hsplit hfetches).subset
    have hended := (h.shrink hf hsub hnext).plains _ hends.isPlain
    have hreplied : Ledger a c (s.trace ++ (ends ++ [.callback ctx.block]) ++ replies) := by
      have hne := ne_of_finish h.fetches hsplit hfetches
      cases hreply with
      | none => simpa using hended
      | udp | tcp =>
        exact hended.reply hne hlt (fun _ => rfl) fun m hm => by simp [Observation.replies, hm.symm]
    simpa using hreplied.plains freed (isPlain_freed hfreed)

theorem isPlain_freeResolv (resolv : Option SList) :
    ∀ o ∈ resolv.toList.map fun r => Observation.released (.resolv r.block), o.isPlain = true := by
  intro o ho
  obtain ⟨r, -, rfl⟩ := List.mem_map.1 ho
  rfl

theorem ledgers_replaceResolv (addrList : CString) (h : Ledgers a s) :
    Ledgers a (s.replaceResolv env addrList) := by
  rw [replaceResolv, freeResolv_eq]
  exact ⟨h.1, h.2.plains _ (isPlain_freeResolv s.resolv)⟩

theorem isPlain_releaseServers {os : List Observation}
    (hos : ∀ o ∈ os, o = .released .dnsServer ∨ o = .released .dnsServerTcp) :
    ∀ o ∈ os, o.isPlain = true := by
  intro o ho
  rcases hos o ho with rfl | rfl <;> rfl

theorem always_replaceResolv {J : List Observation → Observation → Prop}
    (hplain : ∀ t o, o.isPlain = true → J t o) (addrList : CString) (h : Runs.Always J s.trace) :
    Runs.Always J (s.replaceResolv env addrList).trace := by
  rw [trace_replaceResolv]
  exact always_plains hplain (isPlain_freeResolv s.resolv) h

/-- The proxy keeps the ledger. -/
theorem kept_ledgers (env : Environment) (a : ℕ) : KeptByProxy env (Ledgers a) where
  server _ _ _ h := h
  client _ _ hstep h := ledgers_client hstep h
  request s isTcp origin raddr dnsReq hrun _ harrives hlen h := by
    obtain ⟨rfl, h⟩ := h
    obtain ⟨stat, heq⟩ := s.takeRequest_eq env hrun isTcp origin raddr dnsReq
    have horigin : origin.isSome = isTcp := by cases harrives <;> rfl
    have haccept : Ledger s.addrlen (s.https.startFetch dnsReq s.resolv
        (s.newRequest isTcp raddr dnsReq).txId (s.newRequest isTcp raddr dnsReq))
        (s.trace ++ [.accepted s.https.nextBlock isTcp origin raddr dnsReq]) :=
      h.accept s.resolv (s.newRequest isTcp raddr dnsReq).txId horigin rfl rfl hlen
    rw [heq]
    exact ⟨rfl, haccept.plain rfl⟩
  print _ h := h
  halt _ h := h

theorem ledgers_newResolv (addrList : CString) (h : Ledgers a s) :
    Ledgers a (s.newResolv env addrList) :=
  keep_newResolv (fun _ _ => ledgers_client) addrList (ledgers_replaceResolv addrList h)

theorem ledgers_start (env : Environment) (opt : Options) :
    Ledgers opt.addrlen (start env opt) :=
  ⟨rfl, { fetches := .httpsClientInit env.lib opt.statsInterval
          accepted_lt := fun _ hn => absurd rfl hn
          replied_lt := fun _ hn => absurd rfl hn
          owned := fun _ hp => (List.not_mem_nil hp).elim }⟩

/-- The ledger is right in every run. -/
theorem ledgers_run (env : Environment) (opt : Options) (es : List ProxyEvent) :
    Ledgers opt.addrlen (run env opt es) :=
  Runs.invariant (fun _ e h => (kept_ledgers env opt.addrlen).step e (fun _ _ _ h => h)
    (fun addrList _ _ _ => ledgers_newResolv addrList) h) es (ledgers_start env opt)

end Proxy

end HttpsDnsProxy
