import HttpsDnsProxy.Bootstrap
import HttpsDnsProxy.Pinning

/-!
# The resolver's URL

`main` takes the host out of the resolver's URL and polls its addresses, `dns_poll_cb` pins
them with the port 443, and libcurl gets the URL as it is. libcurl uses a pinned entry if it
has the host and the port of the URL, and the system's resolver otherwise.

`systemResolverUnused_iff` : every fetch finds an entry for its URL exactly if the host fits
the buffer of `main` and the port is 443.
-/

namespace HttpsDnsProxy

/-! ## `main` before its loop -/

/-- What `curl_url_get` gives for a URL : its host, in brackets if it is an IPv6 address, and
its port, if there is one. -/
structure UrlParts where
  host : CString
  port : Option ℕ
  deriving DecidableEq, Repr

/-- The parsers `main` uses : libcurl's for URLs, which may reject one, and `inet_pton` for IPv4
addresses. -/
structure UrlParser where
  parse : CString → Option UrlParts
  isIpv4Address : CString → Bool

/-- A host is a string. -/
def UrlParser.GivesStrings (curl : UrlParser) : Prop :=
  ∀ url parts, curl.parse url = some parts → CStrings.nul ∉ parts.host

/-- `options_parse_args` accepts the URL. -/
def acceptsResolverUrl (resolverUrl : CString) : Bool :=
  "https://".toList.isPrefixOf resolverUrl

/-- `hostname_from_url`, with a buffer of `hostnameLen` bytes. -/
def hostnameFromUrl (curl : UrlParser) (urlIn : CString) (hostnameLen : ℕ) : Option CString :=
  match curl.parse urlIn with
  | none => none
  | some parts =>
    let host := parts.host
    if hostnameLen > 0 ∧ host.length < hostnameLen ∧ host.head? ≠ some '[' ∧
        host.getLast? ≠ some ']' ∧ curl.isIpv4Address host = false then
      some (host.take (hostnameLen - 1))
    else none

/-- `proxy_supports_name_resolution`. -/
def proxySupportsNameResolution : Option CString → Bool
  | none => false
  | some proxy =>
    ["http:".toList, "https:".toList, "socks4a:".toList, "socks5h:".toList].any fun ptype =>
      (proxy.take ptype.length).map Char.toLower = ptype

/-- The host `main` has polled, if any. -/
def polledHostname (curl : UrlParser) (resolverUrl : CString) (curlProxy : Option CString) :
    Option CString :=
  if proxySupportsNameResolution curlProxy then none else hostnameFromUrl curl resolverUrl 255

/-! ## Entries for a URL -/

/-- The host is an IP address. -/
def UrlParser.IsLiteral (curl : UrlParser) (host : CString) : Prop :=
  host.head? = some '[' ∨ host.getLast? = some ']' ∨ curl.isIpv4Address host = true

/-- The port of an `https` URL. -/
def UrlParts.portNumber (parts : UrlParts) : ℕ :=
  parts.port.getD 443

/-- libcurl uses the entry for the URL : it has the same host and the same port. -/
def Names (parts : UrlParts) (entry : CString) : Prop :=
  parts.host ++ ':' :: Nat.toDigits 10 parts.portNumber ++ [':'] <+: entry

/-- The URL is one the options accept and libcurl parses, with a host name that no proxy looks
up. -/
structure NeedsBootstrap (curl : UrlParser) (resolverUrl : CString) (curlProxy : Option CString)
    (parts : UrlParts) : Prop where
  accepted : acceptsResolverUrl resolverUrl = true
  parsed : curl.parse resolverUrl = some parts
  name : ¬curl.IsLiteral parts.host
  noProxy : proxySupportsNameResolution curlProxy = false

/-- libcurl never asks the system's resolver : in every run the poller is in use, and the entry
in `app->resolv` and the ones fetches are started with are for the URL. -/
def SystemResolverUnused (curl : UrlParser) (resolverUrl : CString) (curlProxy : Option CString)
    (parts : UrlParts) : Prop :=
  ∀ env opt es, opt.hostname = polledHostname curl resolverUrl curlProxy →
    let s := Proxy.run env opt es
    s.usingDnsPoller = true ∧ (∀ resolv, s.resolv = some resolv → Names parts resolv.data) ∧
      ∀ n resolve, .started n resolve ∈ s.trace →
        ∃ resolv, resolve = some resolv ∧ Names parts resolv.data

/-- A host name is polled if it fits the buffer. -/
theorem NeedsBootstrap.polledHostname_eq {curl : UrlParser} {resolverUrl : CString}
    {curlProxy : Option CString} {parts : UrlParts}
    (h : NeedsBootstrap curl resolverUrl curlProxy parts) :
    polledHostname curl resolverUrl curlProxy =
      if parts.host.length ≤ 254 then some parts.host else none := by
  obtain ⟨hopen, hclose, hipv4⟩ : parts.host.head? ≠ some '[' ∧ parts.host.getLast? ≠ some ']' ∧
      curl.isIpv4Address parts.host = false := by
    simpa [UrlParser.IsLiteral, not_or] using h.name
  rw [polledHostname, h.noProxy, if_neg (by simp), hostnameFromUrl, h.parsed]
  by_cases hlen : parts.host.length ≤ 254
  · have hfits : parts.host.length < 255 := by omega
    simp only [hopen, hclose, hipv4, hfits, hlen, ne_eq, not_false_eq_true, and_self, gt_iff_lt,
      Nat.zero_lt_succ, if_true]
    rw [List.take_of_length_le (by omega)]
  · have hfits : ¬parts.host.length < 255 := by omega
    simp [hfits, hlen]

/-- What stands before the first separator is determined by the text. -/
theorem takeWhile_of_isPrefix {c : Char} {s t : CString} (hc : c ∉ s) (h : s ++ [c] <+: t) :
    t.takeWhile (· ≠ c) = s := by
  obtain ⟨rest, rfl⟩ := h
  rw [List.append_assoc, List.takeWhile_append_of_pos]
  · simp
  · intro a ha
    have hne : a ≠ c := by
      rintro rfl
      exact hc ha
    simpa using hne

theorem colon_notMem_toDigits (n : ℕ) : ':' ∉ Nat.toDigits 10 n := fun h =>
  absurd (Nat.isDigit_of_mem_toDigits (by decide) (by decide) h) (by decide)

/-- An entry with the port 443 is for a URL with the port 443. -/
theorem names_iff {parts : UrlParts} {entry : CString} (hentry : parts.host ++ port443 <+: entry) :
    Names parts entry ↔ parts.portNumber = 443 := by
  have hport : port443 = ':' :: Nat.toDigits 10 443 ++ [':'] := by decide
  rw [hport, List.cons_append] at hentry
  refine ⟨fun hnames => ?_, fun heq => ?_⟩
  · obtain ⟨rest, rfl⟩ := hentry
    rw [Names, List.append_assoc, List.append_assoc, List.prefix_append_right_inj,
      List.cons_append, List.cons_append, List.cons_prefix_cons] at hnames
    have hdigits : Nat.toDigits 10 443 ++ [':'] <+: Nat.toDigits 10 443 ++ [':'] ++ rest :=
      List.prefix_append _ _
    have h := takeWhile_of_isPrefix (colon_notMem_toDigits _) hnames.2
    rw [takeWhile_of_isPrefix (colon_notMem_toDigits _) hdigits] at h
    have hvalue := congrArg (fun cs => Nat.ofDigitChars 10 cs 0) h
    rw [Nat.ofDigitChars_ten_toDigits, Nat.ofDigitChars_ten_toDigits] at hvalue
    exact hvalue.symm
  · rw [Names, heq, List.append_assoc]
    exact hentry

/-! ## Every run -/

namespace Proxy

variable {env : Environment} {s : Proxy} {ok : CString → Prop}

/-- The entries in use and to come are `ok`. -/
structure Named (ok : CString → Prop) (s : Proxy) : Prop where
  fetches : s.https.Fetches
  coming : ∀ addrList, ok (CStrings.text (resolvBuffer s.hostname addrList))
  resolv : ∀ resolv, s.resolv = some resolv → ok resolv.data
  started : ∀ n resolv, .started n (some resolv) ∈ s.trace → ok resolv.data

theorem named_client {c : HttpsClient Request} (hstep : HttpsClient.HttpsStep s.https c)
    (h : Named ok s) : Named ok (s.advance env c) where
  fetches := h.fetches.step hstep
  coming := by
    rw [(sameApp_advance env s c).hostname]
    exact h.coming
  resolv := by
    rw [(sameApp_advance env s c).resolv]
    exact h.resolv
  started n resolv hmem :=
    h.started n resolv ((clientChange hstep h.fetches).mem_of_not_ofFetch (fun _ => rfl) hmem)

theorem kept_named (env : Environment) (ok : CString → Prop) : KeptByProxy env (Named ok) where
  server _ _ _ h := ⟨h.fetches, h.coming, h.resolv, h.started⟩
  client _ _ hstep h := named_client hstep h
  request s isTcp origin raddr dnsReq hrun _ _ _ h := by
    obtain ⟨stat, heq⟩ := s.takeRequest_eq env hrun isTcp origin raddr dnsReq
    rw [heq]
    refine ⟨h.fetches.start _ _ _ _, h.coming, h.resolv, fun n resolv hmem => ?_⟩
    simp only [List.mem_append, List.mem_singleton, reduceCtorEq, or_false,
      Observation.started.injEq] at hmem
    rcases hmem with hmem | ⟨-, hresolv⟩
    · exact h.started n resolv hmem
    · exact h.resolv resolv hresolv.symm
  print _ h := ⟨h.fetches, h.coming, h.resolv, h.started⟩
  halt _ h := ⟨h.fetches, h.coming, h.resolv, h.started⟩

theorem named_newResolv (addrList : CString) (h : Named ok s) :
    Named ok (s.newResolv env addrList) := by
  refine keep_newResolv (fun _ _ => named_client) addrList ?_
  rw [replaceResolv, freeResolv_eq]
  refine ⟨h.fetches, h.coming, fun resolv hr => ?_, fun n resolv hmem => ?_⟩
  · simp only at hr
    split_ifs at hr
    rw [← Option.some.inj hr]
    exact h.coming addrList
  · exact h.started n resolv (by simpa using hmem)

theorem named_run (env : Environment) (opt : Options)
    (hok : ∀ addrList, ok (CStrings.text (resolvBuffer (opt.hostname.getD []) addrList)))
    (es : List ProxyEvent) : Named ok (run env opt es) :=
  Runs.invariant (fun _ e h => (kept_named env ok).step e
    (fun _ _ _ h => ⟨h.fetches, h.coming, h.resolv, h.started⟩)
    (fun addrList _ _ _ => named_newResolv addrList) h) es
    ⟨.httpsClientInit env.lib opt.statsInterval, hok, fun _ hr => (by cases hr),
      fun _ _ hmem => (List.not_mem_nil hmem).elim⟩

end Proxy

/-- The first poll installs an entry. -/
theorem resolv_poll (opt : Options) {hostname : CString} (hopt : opt.hostname = some hostname)
    (hlen : hostname.length ≤ 254) (addrList : CString) :
    ∃ resolv, (Proxy.run (answering headerOnly) opt [.poll addrList]).resolv = some resolv ∧
      resolv.data = CStrings.text (Proxy.resolvBuffer hostname addrList) := by
  let s := Proxy.start (answering headerOnly) opt
  have hhost : s.hostname = hostname := by
    show opt.hostname.getD [] = hostname
    rw [hopt, Option.getD_some]
  have hpoller : s.dnsPoller = true := by
    show opt.hostname.isSome = true
    rw [hopt, Option.isSome_some]
  have hrun : Proxy.run (answering headerOnly) opt [.poll addrList] =
      s.newResolv (answering headerOnly) addrList := by
    have hstep : Proxy.run (answering headerOnly) opt [.poll addrList] =
        if s.dnsPoller then s.dnsPollCb (answering headerOnly) addrList else s := rfl
    rw [hstep, if_pos hpoller, Proxy.dnsPollCb_eq, hhost, if_neg (Nat.not_lt.2 hlen)]
    rfl
  have hsame : (s.newResolv (answering headerOnly) addrList).resolv =
      (s.replaceResolv (answering headerOnly) addrList).resolv :=
    (Proxy.sameApp_advance _ _ _).resolv
  refine ⟨⟨0, CStrings.text (Proxy.resolvBuffer hostname addrList)⟩, ?_, rfl⟩
  rw [hrun, hsame, Proxy.replaceResolv, hhost]
  rfl

section

variable {curl : UrlParser} {resolverUrl : CString} {curlProxy : Option CString}
  {parts : UrlParts}

/-- Without polling or with another port libcurl asks the system's resolver. -/
theorem NeedsBootstrap.of_unused (h : NeedsBootstrap curl resolverUrl curlProxy parts)
    (hnul : CStrings.nul ∉ parts.host)
    (hunused : SystemResolverUnused curl resolverUrl curlProxy parts) :
    parts.host.length ≤ 254 ∧ parts.portNumber = 443 := by
  have hhost := h.polledHostname_eq
  have hopt := hunused (answering headerOnly)
    ⟨false, 0, 4, polledHostname curl resolverUrl curlProxy⟩
  have hlen : parts.host.length ≤ 254 := by
    by_contra hlong
    have husing : (polledHostname curl resolverUrl curlProxy).isSome = true := (hopt [] rfl).1
    rw [hhost, if_neg hlong] at husing
    cases husing
  rw [if_pos hlen] at hhost
  obtain ⟨resolv, hresolv, hdata⟩ := resolv_poll
    ⟨false, 0, 4, polledHostname curl resolverUrl curlProxy⟩ hhost hlen []
  have hnames := (hopt [.poll []] rfl).2.1 resolv hresolv
  rw [hdata] at hnames
  exact ⟨hlen, (names_iff (isPrefix_text_resolvBuffer hlen hnul [])).1 hnames⟩

/-- A host that fits, on the port 443, is polled and pinned in every run. -/
theorem NeedsBootstrap.unused (h : NeedsBootstrap curl resolverUrl curlProxy parts)
    (hnul : CStrings.nul ∉ parts.host) (hlen : parts.host.length ≤ 254)
    (hport : parts.portNumber = 443) :
    SystemResolverUnused curl resolverUrl curlProxy parts := by
  intro env opt es hopt s
  rw [h.polledHostname_eq, if_pos hlen] at hopt
  have hok : ∀ addrList, Names parts
      (CStrings.text (Proxy.resolvBuffer (opt.hostname.getD []) addrList)) := fun addrList => by
    rw [hopt, Option.getD_some]
    exact (names_iff (isPrefix_text_resolvBuffer hlen hnul addrList)).2 hport
  have hnamed : Proxy.Named (Names parts) s := Proxy.named_run env opt hok es
  have hsome : opt.hostname.isSome = true := by rw [hopt, Option.isSome_some]
  have husing : s.usingDnsPoller = true :=
    (Proxy.configured_run env opt es).usingDnsPoller.trans hsome
  refine ⟨husing, hnamed.resolv, fun n resolve hmem => ?_⟩
  cases resolve with
  | none =>
    have hpinned : Proxy.Pinned s := Proxy.pinned_run env opt es
    exact (hpinned.bootstrapped.started husing n none hmem rfl).elim
  | some resolv => exact ⟨resolv, rfl, hnamed.started n resolv hmem⟩

end

/-- libcurl never asks the system's resolver exactly if the host has at most 254 characters and
the port of the URL is 443. -/
theorem systemResolverUnused_iff (curl : UrlParser) (hcurl : curl.GivesStrings)
    (resolverUrl : CString) (curlProxy : Option CString) (parts : UrlParts)
    (h : NeedsBootstrap curl resolverUrl curlProxy parts) :
    SystemResolverUnused curl resolverUrl curlProxy parts ↔
      parts.host.length ≤ 254 ∧ parts.portNumber = 443 := by
  have hnul : CStrings.nul ∉ parts.host := hcurl _ _ h.parsed
  exact ⟨h.of_unused hnul, fun hok => h.unused hnul hok.1 hok.2⟩

/-- A parser for URLs of a host and perhaps a port, behind `https://`. -/
def plainParser : UrlParser where
  parse url :=
    let rest := url.drop 8
    let host := rest.takeWhile fun c => c ≠ ':' && c ≠ '/' && c ≠ CStrings.nul
    let port :=
      match rest.drop host.length with
      | ':' :: port => some (Nat.ofDigitChars 10 (port.takeWhile Char.isDigit) 0)
      | _ => none
    some ⟨host, port⟩
  isIpv4Address host := host.all fun c => c.isDigit || c = '.'

theorem plainParser_givesStrings : plainParser.GivesStrings := by
  intro url parts h hmem
  rw [← Option.some.inj h] at hmem
  have hc := List.all_eq_true.1 List.all_takeWhile _ hmem
  simp at hc

/-- The default URL. -/
theorem systemResolverUnused_google :
    SystemResolverUnused plainParser "https://dns.google/dns-query".toList none
      ⟨"dns.google".toList, none⟩ := by
  refine (systemResolverUnused_iff plainParser plainParser_givesStrings _ _ _ ⟨?_, ?_, ?_, ?_⟩).2
    ⟨by decide, rfl⟩
  · decide
  · decide
  · unfold UrlParser.IsLiteral
    decide
  · rfl

/-- A URL with another port : the entry is for 443, and libcurl does not use it. -/
theorem systemResolverUnused_port :
    NeedsBootstrap plainParser "https://dns.example:8443/dns-query".toList none
        ⟨"dns.example".toList, some 8443⟩ ∧
      ¬SystemResolverUnused plainParser "https://dns.example:8443/dns-query".toList none
        ⟨"dns.example".toList, some 8443⟩ := by
  have h : NeedsBootstrap plainParser "https://dns.example:8443/dns-query".toList none
      ⟨"dns.example".toList, some 8443⟩ := by
    refine ⟨by decide, by decide, ?_, rfl⟩
    unfold UrlParser.IsLiteral
    decide
  refine ⟨h, fun hunused => ?_⟩
  exact absurd (h.of_unused (by decide) hunused).2 (by decide)

end HttpsDnsProxy
