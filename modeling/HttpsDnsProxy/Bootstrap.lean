import HttpsDnsProxy.Relay

/-!
# The bootstrap addresses

`dns_poll_cb` keeps the addresses of the resolver in `app->resolv`, as one text
`hostname:443:list`. When a poll brings a list in which an address of the old one is missing,
it stores the new list and resets the client.

`resolvCurrent` : after every poll the entry is the whole text for a delivered list, all of
its addresses are in the list of this poll, and the client is reset exactly if the entry is
replaced.
-/

namespace HttpsDnsProxy

/-- A host name `dns_poll_cb` takes, without the character that ends it in an entry. -/
structure IsHostname (hostname : CString) : Prop where
  length_le : hostname.length ≤ 254
  colon : ':' ∉ hostname
  nul : CStrings.nul ∉ hostname

/-- A list of addresses as `get_addr_listing` makes it. -/
structure IsAddrList (addrList : CString) : Prop where
  length_le : addrList.length ≤ 1022
  nul : CStrings.nul ∉ addrList
  ne_nil : ∀ ip ∈ addrList.splitOn ',', ip ≠ []

/-- The entry for a list. -/
def resolvEntry (hostname addrList : CString) : CString :=
  hostname ++ port443 ++ addrList

/-! ## `addr_list_reduced` -/

/-- A round that finds nothing missing : its address is an element of the full list. -/
theorem mem_of_round {fullList pos : CString} {n ipLen : ℕ} (hpos : pos ≠ [])
    (hipLen : (CStrings.strchr pos ',').getD pos.length = ipLen)
    (hlen : (pos.take ipLen).length = ipLen) (hcomma : ',' ∉ pos.take ipLen)
    (h : addrListReducedFrom fullList (n + 1) pos = false) :
    pos.take ipLen ∈ fullList.splitOn ',' ∧
      addrListReducedFrom fullList n (pos.drop (ipLen + 1)) = false := by
  rw [addrListReducedFrom.eq_3 _ _ _ hpos] at h
  simp only [hipLen] at h
  split_ifs at h
  cases hstr : CStrings.strstr (pos.take ipLen) fullList with
  | none => simp [hstr] at h
  | some k =>
    simp only [hstr] at h
    split_ifs at h with hbounds
    obtain ⟨hbegin, hend⟩ := not_or.1 hbounds
    rw [← hlen] at hend
    exact ⟨CStrings.mem_splitOn_of_strstr hcomma hstr (not_not.1 hbegin) (not_not.1 hend), h⟩

/-- If the loop finds nothing missing, all elements are elements of the full list. -/
theorem mem_of_addrListReducedFrom {fullList : CString} :
    ∀ (n : ℕ) {pos : CString}, pos.length < n → (∀ ip ∈ pos.splitOn ',', ip ≠ []) →
      addrListReducedFrom fullList n pos = false →
      ∀ ip ∈ pos.splitOn ',', ip ∈ fullList.splitOn ',' := by
  intro n
  induction n with
  | zero => exact fun hn => by omega
  | succ n ih =>
    intro pos hn hne h
    have hpos : pos ≠ [] := by
      rintro rfl
      exact hne [] (by simp) rfl
    cases hchr : CStrings.strchr pos ',' with
    | none =>
      -- the last address
      have hcomma : ',' ∉ pos := CStrings.strchr_eq_none hchr
      have hround := mem_of_round hpos (by rw [hchr, Option.getD_none]) (by simp)
        (by simpa using hcomma) h
      rw [List.splitOn_eq_singleton hcomma]
      simpa using hround.1
    | some k =>
      obtain ⟨heq, hcomma, hlen⟩ := CStrings.strchr_eq_some hchr
      obtain ⟨hmem, hrest⟩ := mem_of_round hpos (by rw [hchr, Option.getD_some]) hlen hcomma h
      have hsplit : pos.splitOn ',' = pos.take k :: (pos.drop (k + 1)).splitOn ',' :=
        (congrArg _ heq).trans (List.splitOn_append_cons_self_of_not_mem hcomma _)
      rw [hsplit] at hne ⊢
      refine List.forall_mem_cons.2 ⟨hmem, ih ?_ (List.forall_mem_cons.1 hne).2 hrest⟩
      have hpos' : 0 < pos.length := List.length_pos_of_ne_nil hpos
      rw [List.length_drop]
      omega

theorem mem_of_addrListReduced {fullList list : CString}
    (hne : ∀ ip ∈ list.splitOn ',', ip ≠ []) (h : addrListReduced fullList list = false) :
    ∀ ip ∈ list.splitOn ',', ip ∈ fullList.splitOn ',' :=
  mem_of_addrListReducedFrom _ (Nat.lt_succ_self _) hne h

/-! ## The entry -/

/-- The buffer has room for the start of the entry. -/
theorem take_resolvStart {hostname : CString} (h : hostname.length ≤ 254) :
    (CStrings.snprintf (List.replicate (255 + 5 + 1024) CStrings.nul) 0 (255 + 5 + 1024 - 1)
      (hostname ++ port443)).take (hostname.length + 5) = hostname ++ port443 := by
  have hstart : (hostname ++ port443).length = hostname.length + 5 := List.length_append
  rw [CStrings.snprintf_eq (by omega), List.take_zero, List.nil_append, ← hstart, List.take_left]

theorem nul_notMem_resolvStart {hostname : CString} (h : CStrings.nul ∉ hostname) :
    CStrings.nul ∉ hostname ++ port443 := by
  rw [List.mem_append, not_or]
  exact ⟨h, by decide⟩

/-- The buffer has room for the whole entry. -/
theorem text_resolvBuffer {hostname addrList : CString} (hhost : IsHostname hostname)
    (hlist : IsAddrList addrList) :
    CStrings.text (Proxy.resolvBuffer hostname addrList) = resolvEntry hostname addrList := by
  have hport : port443.length = 5 := rfl
  have hstart : (hostname ++ port443).length = hostname.length + 5 := List.length_append
  have htake := take_resolvStart hhost.length_le
  have hhostLen := hhost.length_le
  have hlistLen := hlist.length_le
  unfold Proxy.resolvBuffer
  simp only [hport, hstart, pollerAddrListSize]
  rw [CStrings.text_snprintf (by omega) (by rw [htake]; exact nul_notMem_resolvStart hhost.nul)
    hlist.nul, htake]
  rfl

/-- Whatever the list is, the entry starts with the host name and the port. -/
theorem isPrefix_text_resolvBuffer {hostname : CString} (hlen : hostname.length ≤ 254)
    (hnul : CStrings.nul ∉ hostname) (addrList : CString) :
    hostname ++ port443 <+: CStrings.text (Proxy.resolvBuffer hostname addrList) := by
  have hport : port443.length = 5 := rfl
  have hstart : (hostname ++ port443).length = hostname.length + 5 := List.length_append
  have htake := take_resolvStart hlen
  unfold Proxy.resolvBuffer
  simp only [hport, hstart, pollerAddrListSize]
  have hbuf := CStrings.isPrefix_text_snprintf (by rw [htake]; exact nul_notMem_resolvStart hnul)
    (255 + 5 + 1024 - 1 - (hostname.length + 5)) addrList
  rwa [htake] at hbuf

/-- The old list is found behind the first `":443:"`. -/
theorem strstr_resolvEntry {hostname : CString} (hhost : IsHostname hostname)
    (addrList : CString) :
    CStrings.strstr port443 (resolvEntry hostname addrList) = some hostname.length :=
  CStrings.strstr_append hhost.colon

namespace Proxy

variable {env : Environment} {s : Proxy}

/-! ## Polls -/

/-- `app->resolv` is the entry of a list that was delivered. -/
structure Entered (hostname : CString) (delivered : CString → Prop) (s : Proxy) : Prop where
  hostname_eq : s.hostname = hostname
  block_lt : ∀ resolv, s.resolv = some resolv → resolv.block < s.nextSlist
  entry : ∀ resolv, s.resolv = some resolv →
    ∃ addrList, delivered addrList ∧ resolv.data = resolvEntry hostname addrList

section Entered

variable {hostname : CString} {delivered : CString → Prop}

theorem Entered.of_sameApp {s' : Proxy} (h : Entered hostname delivered s) (hs : SameApp s s') :
    Entered hostname delivered s' :=
  ⟨hs.hostname.trans h.hostname_eq, hs.resolv ▸ hs.nextSlist ▸ h.block_lt, hs.resolv ▸ h.entry⟩

theorem kept_entered (env : Environment) (hostname : CString) (delivered : CString → Prop) :
    KeptByProxy env (Entered hostname delivered) where
  server _ _ _ h := ⟨h.hostname_eq, h.block_lt, h.entry⟩
  client s c _ h := h.of_sameApp (sameApp_advance env s c)
  request s isTcp origin raddr dnsReq hrun _ _ _ h := by
    obtain ⟨stat, heq⟩ := s.takeRequest_eq env hrun isTcp origin raddr dnsReq
    rw [heq]
    exact ⟨h.hostname_eq, h.block_lt, h.entry⟩
  print _ h := ⟨h.hostname_eq, h.block_lt, h.entry⟩
  halt _ h := ⟨h.hostname_eq, h.block_lt, h.entry⟩

/-- The new list, if there is memory for it. -/
theorem resolv_newResolv (env : Environment) (hhost : IsHostname s.hostname) {addrList : CString}
    (hlist : IsAddrList addrList) :
    (s.newResolv env addrList).resolv =
      if env.slistAppend s.nextSlist then
        some ⟨s.nextSlist, resolvEntry s.hostname addrList⟩ else none := by
  have hsame : (s.newResolv env addrList).resolv = (s.replaceResolv env addrList).resolv :=
    (sameApp_advance env _ _).resolv
  rw [hsame, replaceResolv, text_resolvBuffer hhost hlist]

theorem entered_newResolv (hhost : IsHostname hostname) {addrList : CString}
    (hlist : IsAddrList addrList) (hdelivered : delivered addrList)
    (h : Entered hostname delivered s) : Entered hostname delivered (s.newResolv env addrList) := by
  obtain rfl := h.hostname_eq
  have hresolv := resolv_newResolv env hhost hlist
  have hnext : (s.newResolv env addrList).nextSlist = s.nextSlist + 1 :=
    (sameApp_advance env _ _).nextSlist
  have hhostname : (s.newResolv env addrList).hostname = s.hostname := by
    refine (sameApp_advance env _ _).hostname.trans ?_
    rw [replaceResolv, freeResolv_eq]
  refine ⟨hhostname, fun resolv hr => ?_, fun resolv hr => ?_⟩
  all_goals
    rw [hresolv] at hr
    split_ifs at hr
    obtain rfl := Option.some.inj hr
  · rw [hnext]
    exact Nat.lt_succ_self _
  · exact ⟨addrList, hdelivered, rfl⟩

/-- In every run the entry is one of a list delivered in it. -/
theorem entered_run (env : Environment) (opt : Options) (hhost : IsHostname (opt.hostname.getD []))
    {es : List ProxyEvent} (hpolls : ∀ addrList, .poll addrList ∈ es → IsAddrList addrList) :
    Entered (opt.hostname.getD []) (fun addrList => .poll addrList ∈ es) (run env opt es) := by
  refine Runs.invariant_of_mem (fun s e he h => (kept_entered env _ _).step e
    (fun _ _ _ h => ⟨h.hostname_eq, h.block_lt, h.entry⟩) ?_ h)
    ⟨rfl, fun _ hr => (Option.some_ne_none _ hr.symm).elim,
      fun _ hr => (Option.some_ne_none _ hr.symm).elim⟩
  rintro addrList rfl _ _ h
  exact entered_newResolv hhost (hpolls addrList he) he h

/-- The list is kept only if all its addresses are still delivered. -/
theorem mem_of_keepsResolv (hhost : IsHostname hostname) {old addrList : CString} {resolv : SList}
    (hresolv : s.resolv = some resolv) (hdata : resolv.data = resolvEntry hostname old)
    (hold : IsAddrList old) (hkeeps : s.keepsResolv addrList = true) :
    ∀ ip ∈ old.splitOn ',', ip ∈ addrList.splitOn ',' := by
  have hdrop : (resolvEntry hostname old).drop (hostname.length + port443.length) = old := by
    rw [resolvEntry, ← List.length_append, List.drop_left]
  simp only [keepsResolv, hresolv, hdata, strstr_resolvEntry hhost, hdrop,
    Bool.not_eq_true'] at hkeeps
  exact mem_of_addrListReduced hold.ne_nil hkeeps

/-- One poll : the entry is current, and the client is reset if and only if the entry is
replaced. -/
theorem dnsPollCb_spec (happend : ∀ n, env.slistAppend n = true) (hhost : IsHostname hostname)
    (hlists : ∀ l, delivered l → IsAddrList l) (h : Entered hostname delivered s)
    {addrList : CString} (hlist : IsAddrList addrList) :
    (∃ resolv l, (s.dnsPollCb env addrList).resolv = some resolv ∧
      resolv.data = resolvEntry hostname l ∧ (delivered l ∨ l = addrList) ∧
      ∀ ip ∈ l.splitOn ',', ip ∈ addrList.splitOn ',') ∧
    (s.dnsPollCb env addrList = s ∨ (s.dnsPollCb env addrList).resolv ≠ s.resolv ∧
      (s.dnsPollCb env addrList).https = s.https.httpsClientReset env.lib) := by
  obtain rfl := h.hostname_eq
  rw [dnsPollCb_eq, if_neg (Nat.not_lt.2 hhost.length_le)]
  by_cases hkeeps : s.keepsResolv addrList = true
  · rw [if_pos hkeeps]
    cases hresolv : s.resolv with
    | none => simp [keepsResolv, hresolv] at hkeeps
    | some resolv =>
      obtain ⟨l, hl, hdata⟩ := h.entry resolv hresolv
      refine ⟨⟨resolv, l, rfl, hdata, Or.inl hl, ?_⟩, Or.inl rfl⟩
      exact mem_of_keepsResolv hhost hresolv hdata (hlists l hl) hkeeps
  · rw [if_neg hkeeps]
    have hresolv : (s.newResolv env addrList).resolv =
        some ⟨s.nextSlist, resolvEntry s.hostname addrList⟩ := by
      rw [resolv_newResolv env hhost hlist, if_pos (happend _)]
    refine ⟨⟨_, addrList, hresolv, rfl, Or.inr rfl, fun _ hip => hip⟩,
      Or.inr ⟨fun hsame => ?_, rfl⟩⟩
    exact Nat.lt_irrefl _ (h.block_lt _ (hsame ▸ hresolv))

end Entered

end Proxy

/-- The pinned addresses are current. For every run with polls that brought lists of addresses,
and one more of them, `app->resolv` has the whole entry for one of the delivered lists, each of
its addresses is in the list delivered last, and either nothing has changed or the entry is a
new one and the client is reset. -/
theorem resolvCurrent (env : Environment) (happend : ∀ n, env.slistAppend n = true)
    (opt : Options) {hostname : CString} (hopt : opt.hostname = some hostname)
    (hhost : IsHostname hostname) (es : List ProxyEvent) (addrList : CString)
    (hpolls : ∀ l, .poll l ∈ es ++ [.poll addrList] → IsAddrList l)
    (hrun : (Proxy.run env opt es).running = true) :
    let s := Proxy.run env opt es
    let s' := Proxy.run env opt (es ++ [.poll addrList])
    (∃ resolv l, s'.resolv = some resolv ∧ resolv.data = hostname ++ ":443:".toList ++ l ∧
      .poll l ∈ es ++ [.poll addrList] ∧ ∀ ip ∈ l.splitOn ',', ip ∈ addrList.splitOn ',') ∧
    (s' = s ∨ s'.resolv ≠ s.resolv ∧ s'.https = s.https.httpsClientReset env.lib) := by
  intro s s'
  have hconf : Proxy.Configured opt s := Proxy.configured_run env opt es
  have hname : opt.hostname.getD [] = hostname := by rw [hopt, Option.getD_some]
  have hpoller : s.dnsPoller = true := by rw [hconf.dnsPoller, hopt, Option.isSome_some]
  have hbefore : ∀ l, .poll l ∈ es → IsAddrList l := fun l hl =>
    hpolls l (List.mem_append_left _ hl)
  have hentered : Proxy.Entered hostname (fun l => .poll l ∈ es) s :=
    hname ▸ Proxy.entered_run env opt (hname.symm ▸ hhost) hbefore
  have hlast : s' = s.dnsPollCb env addrList := by
    have hstep : s' = s.step env (.poll addrList) := Runs.run_concat _ _ _ _
    rw [hstep, Proxy.step, if_neg (by simp [s, hrun])]
    exact if_pos hpoller
  rw [hlast]
  obtain ⟨⟨resolv, l, hresolv, hdata, hl, hmem⟩, hreset⟩ :=
    Proxy.dnsPollCb_spec happend hhost hbefore hentered (hpolls addrList (by simp))
  refine ⟨⟨resolv, l, hresolv, hdata, ?_, hmem⟩, hreset⟩
  rcases hl with hl | rfl
  · exact List.mem_append_left _ hl
  · exact List.mem_append_right _ (List.mem_singleton_self _)

/-- A second poll brings one address more. -/
theorem resolvCurrent_more :
    let opt : Options := ⟨false, 0, 4, some "dns.google".toList⟩
    let s := Proxy.run (answering headerOnly) opt [.poll "8.8.8.8".toList]
    let s' := Proxy.run (answering headerOnly) opt
      ([.poll "8.8.8.8".toList] ++ [.poll "8.8.4.4,8.8.8.8".toList])
    (∃ resolv l, s'.resolv = some resolv ∧
      resolv.data = "dns.google".toList ++ ":443:".toList ++ l ∧
      .poll l ∈ [ProxyEvent.poll "8.8.8.8".toList] ++ [.poll "8.8.4.4,8.8.8.8".toList] ∧
      ∀ ip ∈ l.splitOn ',', ip ∈ "8.8.4.4,8.8.8.8".toList.splitOn ',') ∧
    (s' = s ∨ s'.resolv ≠ s.resolv ∧
      s'.https = s.https.httpsClientReset (answering headerOnly).lib) := by
  refine resolvCurrent (answering headerOnly) (fun _ => rfl) _ rfl
    ⟨by decide, by decide, by decide⟩ _ _ (fun l hl => ?_) rfl
  simp only [List.cons_append, List.nil_append, List.mem_cons, ProxyEvent.poll.injEq,
    List.not_mem_nil, or_false] at hl
  rcases hl with rfl | rfl
  · exact ⟨by decide, by decide, by decide⟩
  · exact ⟨by decide, by decide, by decide⟩

end HttpsDnsProxy
