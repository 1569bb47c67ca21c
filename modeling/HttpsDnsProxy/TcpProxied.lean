import HttpsDnsProxy.Lifecycle
import HttpsDnsProxy.TcpComplete
import HttpsDnsProxy.TcpOutput

/-!
# The TCP server in the proxy

`TcpRun` is the TCP server on its own, with a callback that only records. In the proxy the
callback is `dns_server_cb`, in the middle of `read_cb` it changes the client and may run the
callbacks of other requests, and responses come whenever a transfer ends.

Still the server in the proxy is the server on its own : for every run of the proxy there is a
run of the server, with the same connections, reads and timeouts in the same order and with
responses between them, that leaves the server in the same state, sends the same bytes and
hands over all requests the proxy accepts from connections (`tcpServer_refines`). What holds
of all runs of the server thus holds of it in the proxy.
-/

namespace HttpsDnsProxy

open HttpsClient (HttpsStep Steps)

/-! ## Reading in two states -/

section Corresponds

variable {σ τ : Type*} (L : ServerIn σ) (M : ServerIn τ) (cb : σ → ℕ → SockAddr → List UInt8 → σ)
  (cb' : τ → ℕ → SockAddr → List UInt8 → τ)

/-- States with the same server, which stay related when it is written and when the callbacks
run. -/
structure Corresponds (R : σ → τ → Prop) : Prop where
  get : ∀ s t, R s t → M.get t = L.get s
  set : ∀ s t d, R s t → R (L.set s d) (M.set t d)
  call : ∀ s t block raddr dnsReq, R s t → R (cb s block raddr dnsReq) (cb' t block raddr dnsReq)

variable {L M cb cb'} {R : σ → τ → Prop} (hR : Corresponds L M cb cb' R) (block : ℕ)

include hR

/-- The loops of a read in related states end alike, in related states. -/
theorem Corresponds.splitRequests :
    ∀ (n : ℕ) (received : Bool) (s : σ) (t : τ), R s t →
      (splitRequests M cb' block n received t).1 = (splitRequests L cb block n received s).1 ∧
        R (splitRequests L cb block n received s).2 (splitRequests M cb' block n received t).2
  | 0, _, _, _, h => ⟨rfl, h⟩
  | n + 1, received, s, t, h => by
    unfold HttpsDnsProxy.splitRequests
    rw [hR.get s t h]
    cases (L.get s).find block with
    | none => exact ⟨rfl, h⟩
    | some client =>
      simp only
      cases client.getDnsRequest with
      | none =>
        cases received with
        | false => exact ⟨rfl, h⟩
        | true => exact ⟨rfl, hR.set s t _ h⟩
      | some p =>
        obtain ⟨dnsReq, client'⟩ := p
        simp only [M.get_set, L.get_set]
        have hset := hR.set s t ((L.get s).update client') h
        split_ifs
        · exact ⟨rfl, hR.set _ _ _ hset⟩
        · exact Corresponds.splitRequests n true _ _ (hR.call _ _ block client.raddr dnsReq hset)

/-- So do whole reads. -/
theorem Corresponds.readCb (rounds : ℕ) (res : RecvResult) {s : σ} {t : τ} (h : R s t) :
    (readCb M cb' block rounds res t).1 = (readCb L cb block rounds res s).1 ∧
      R (readCb L cb block rounds res s).2 (readCb M cb' block rounds res t).2 := by
  unfold HttpsDnsProxy.readCb
  rw [hR.get s t h]
  cases (L.get s).find block with
  | none => exact ⟨rfl, h⟩
  | some client =>
    cases res with
    | closed => exact ⟨rfl, hR.set s t _ h⟩
    | error e =>
      simp only
      split_ifs
      · exact ⟨rfl, h⟩
      · exact ⟨rfl, hR.set s t _ h⟩
    | data r =>
      simp only
      cases client.appendInput r with
      | tooLarge => exact ⟨rfl, hR.set s t _ h⟩
      | fatal => exact ⟨rfl, h⟩
      | appended client' => exact hR.splitRequests block rounds false _ _ (hR.set s t _ h)

end Corresponds

/-! ## The server of a proxy and its mirror -/

/-- What an observation does to the sockets of TCP connections. -/
def Observation.acts : Observation → List TcpAction
  | .tcpReply _ _ _ acts => acts
  | _ => []

/-- The request an observation accepts from a connection, with the block of the connection. -/
def Observation.fromTcp : Observation → Option (ℕ × List UInt8)
  | .accepted _ _ (some block) _ dnsReq => some (block, dnsReq)
  | _ => none

theorem Observation.acts_of_isReply {o : Observation} (h : o.isReply = false) : o.acts = [] := by
  cases o with
  | tcpReply => cases h
  | _ => rfl

theorem Observation.fromTcp_of_ofFetch {o : Observation} {n : ℕ} (h : o.ofFetch n = true) :
    o.fromTcp = none := by
  cases o with
  | accepted => cases h
  | _ => rfl

/-- It comes from a connection, and not from the proxy. -/
def TcpEvent.isInput : TcpEvent → Bool
  | .accept _ | .read _ _ _ | .timeout _ => true
  | .respond _ _ _ | .stop => false

/-- The run `r` of the server on its own is where the proxy's server is. -/
structure Mirrors (s : Proxy) (r : TcpRun) : Prop where
  server : r.server = s.tcp
  sent : r.sent = s.trace.flatMap Observation.acts
  accepted : (s.trace.filterMap Observation.fromTcp).Sublist r.delivered
  all : s.usingDnsPoller = false → s.running = true →
    s.trace.filterMap Observation.fromTcp = r.delivered
  halted : r.halted = true → s.halted = true

namespace Mirrors

variable {env : Environment} {s s' : Proxy} {r : TcpRun} {c : HttpsClient Request}

/-- A proxy with the same TCP server that has shown neither a reply nor a request. -/
theorem of_same (h : Mirrors s r) (htcp : s'.tcp = s.tcp)
    (hsent : s'.trace.flatMap Observation.acts = s.trace.flatMap Observation.acts)
    (haccepted : s'.trace.filterMap Observation.fromTcp = s.trace.filterMap Observation.fromTcp)
    (husing : s'.usingDnsPoller = s.usingDnsPoller)
    (hrunning : s'.running = true → s.running = true)
    (hhalted : s.halted = true → s'.halted = true) : Mirrors s' r where
  server := h.server.trans htcp.symm
  sent := h.sent.trans hsent.symm
  accepted := haccepted ▸ h.accepted
  all hu hr := haccepted.trans (h.all (husing ▸ hu) (hrunning hr))
  halted hr := hhalted (h.halted hr)

/-- The server answers the reply of a finished fetch, and nothing else. -/
theorem reply (h : Mirrors s r) (hs : s.halted = false) {n : ℕ} {req : Request}
    {buf : Option (List UInt8)} {replies : List Observation} {d : DnsServerTcp}
    (hreply : Proxy.Reply env s n req buf replies d) :
    ∃ fs : List TcpEvent, (∀ f ∈ fs, f.isInput = false) ∧
      (Runs.run TcpRun.step r fs).server = d ∧
      (Runs.run TcpRun.step r fs).sent = r.sent ++ replies.flatMap Observation.acts ∧
      (Runs.run TcpRun.step r fs).delivered = r.delivered ∧
      (Runs.run TcpRun.step r fs).halted = r.halted := by
  have hr : r.halted = false := by
    by_contra hne
    rw [h.halted (by simpa using hne)] at hs
    cases hs
  cases hreply with
  | none => exact ⟨[], by simp, h.server, by simp, rfl, rfl⟩
  | udp => exact ⟨[], by simp, h.server, by simp [Observation.acts], rfl, rfl⟩
  | @tcp body sends =>
    refine ⟨[.respond req.raddr body sends], by simp [TcpEvent.isInput], ?_⟩
    simp [TcpRun.step, hr, h.server, Observation.acts]

/-- A step of the client is mirrored by responses. -/
theorem client (env : Environment) (hstep : HttpsStep s.https c) (hf : s.https.Fetches)
    (h : Mirrors s r) :
    ∃ fs : List TcpEvent, (∀ f ∈ fs, f.isInput = false) ∧
      Mirrors (s.advance env c) (Runs.run TcpRun.step r fs) := by
  have hrunning : (s.advance env c).running = true → s.running = true :=
    Proxy.running_of_advance hstep
  have hchange : Proxy.ClientChange env s c (s.advance env c) := Proxy.clientChange hstep hf
  generalize s.advance env c = s' at hrunning hchange
  cases hchange with
  | quiet | dead => exact ⟨[], by simp, h.of_same rfl rfl rfl rfl hrunning id⟩
  | @finish pre post ctx ends replies freed buf d stat halted hsplit hfetches hnext hs hends hreply
      hfreed =>
    obtain ⟨fs, hfs, hserver, hsent, hdelivered, hhalted⟩ := h.reply hs hreply
    have hof := Proxy.ofFetch_finish hends hreply hfreed
    have hnew : (ends ++ .callback ctx.block :: (replies ++ freed)).filterMap
        Observation.fromTcp = [] :=
      List.filterMap_eq_nil_iff.2 fun o ho => Observation.fromTcp_of_ofFetch (hof o ho)
    have hacts : (ends ++ .callback ctx.block :: (replies ++ freed)).flatMap Observation.acts =
        replies.flatMap Observation.acts := by
      have hends' : ends.flatMap Observation.acts = [] := by cases hends <;> rfl
      have hfreed' : freed.flatMap Observation.acts = [] := by rcases hfreed with rfl | rfl <;> rfl
      simp [hends', hfreed', Observation.acts]
    refine ⟨fs, hfs, hserver, ?_, ?_, fun hu hr => ?_, fun hr => ?_⟩
    · rw [hsent, h.sent, List.flatMap_append, hacts]
    · rw [hdelivered, List.filterMap_append, hnew, List.append_nil]
      exact h.accepted
    · rw [hdelivered, List.filterMap_append, hnew, List.append_nil]
      exact h.all hu (hrunning hr)
    · rw [hhalted] at hr
      rw [h.halted hr] at hs
      cases hs

theorem steps (hsteps : Steps s.https c) (hf : s.https.Fetches) (h : Mirrors s r) :
    ∃ fs : List TcpEvent, (∀ f ∈ fs, f.isInput = false) ∧
      Mirrors (s.advance env c) (Runs.run TcpRun.step r fs) := by
  suffices h : (s.advance env c).https.Fetches ∧ ∃ fs : List TcpEvent,
      (∀ f ∈ fs, f.isInput = false) ∧ Mirrors (s.advance env c) (Runs.run TcpRun.step r fs) from
    h.2
  refine Proxy.keep_steps (P := fun s' => s'.https.Fetches ∧
    ∃ fs : List TcpEvent, (∀ f ∈ fs, f.isInput = false) ∧ Mirrors s' (Runs.run TcpRun.step r fs))
    ?_ hsteps ⟨hf, [], by simp, h⟩
  rintro s' c' hstep ⟨hf', fs, hfs, hm⟩
  obtain ⟨fs', hfs', hm'⟩ := hm.client env hstep hf'
  refine ⟨hf'.step hstep, fs ++ fs', fun f hmem => ?_, by rwa [Runs.run_append]⟩
  exact (List.mem_append.1 hmem).elim (hfs f) (hfs' f)

end Mirrors

/-! ## Requests -/

/-- What `dns_server_cb` shows : the request, if it is accepted, and what is of a fetch. -/
theorem Proxy.dnsServerCb_shows (env : Environment) {s : Proxy} (hf : s.https.Fetches)
    (isTcp : Bool) (origin : Option ℕ) (raddr : SockAddr) (dnsReq : List UInt8) :
    let s' := s.dnsServerCb env isTcp origin raddr dnsReq
    s'.https.Fetches ∧ s'.usingDnsPoller = s.usingDnsPoller ∧
      s'.trace.filterMap Observation.fromTcp = s.trace.filterMap Observation.fromTcp ++
        if s.running = true ∧ ¬(s.usingDnsPoller = true ∧ s.resolv = none) then
          (origin.map fun block => (block, dnsReq)).toList
        else [] := by
  intro s'
  by_cases hrun : s.running = true
  · by_cases hboot : s.usingDnsPoller = true ∧ s.resolv = none
    · have hs' : s' = s := by simp [s', dnsServerCb, hrun, hboot]
      rw [hs', if_neg fun h => h.2 hboot, List.append_nil]
      exact ⟨hf, rfl, rfl⟩
    · have hs' : s' = _ := dnsServerCb_eq hrun hboot
      obtain ⟨stat, htake⟩ := s.takeRequest_eq env hrun isTcp origin raddr dnsReq
      have hf' : (s.takeRequest env isTcp origin raddr dnsReq).https.Fetches := by
        rw [htake]
        exact hf.start _ _ _ _
      have hsteps := HttpsClient.steps_addFetch env.lib
        (s.takeRequest env isTcp origin raddr dnsReq).https
      obtain ⟨os, hos, hof⟩ := ofFetch_steps env hf' hsteps
      have hnone : os.filterMap Observation.fromTcp = [] := by
        refine List.filterMap_eq_nil_iff.2 fun o ho => ?_
        obtain ⟨n, hn⟩ := hof o ho
        exact Observation.fromTcp_of_ofFetch hn
      rw [hs', if_pos ⟨hrun, hboot⟩]
      refine ⟨hf'.steps hsteps, ?_, ?_⟩
      · rw [(sameApp_advance env _ _).usingDnsPoller, htake]
      · rw [hos, List.filterMap_append, hnone, List.append_nil, htake]
        cases origin <;> simp [Observation.fromTcp]
  · have hs' : s' = s := by simp [s', dnsServerCb, hrun]
    rw [hs', if_neg fun h => hrun h.1, List.append_nil]
    exact ⟨hf, rfl, rfl⟩

namespace Mirrors

variable {env : Environment} {s s' : Proxy} {r : TcpRun} {c : HttpsClient Request}

theorem flatMap_acts_dnsServerCb (env : Environment) (s : Proxy) (isTcp : Bool)
    (origin : Option ℕ) (raddr : SockAddr) (dnsReq : List UInt8) :
    (s.dnsServerCb env isTcp origin raddr dnsReq).trace.flatMap Observation.acts =
      s.trace.flatMap Observation.acts := by
  obtain ⟨os, hos, hno⟩ := (s.silent_dnsServerCb env isTcp origin raddr dnsReq).noReply
  rw [hos, List.flatMap_append, List.append_right_eq_self, List.flatMap_eq_nil_iff]
  exact fun o ho => Observation.acts_of_isReply (hno o ho)

/-- A process that goes on behind `dns_server_cb` was going on before it, and one that had come to
its end has. -/
theorem running_dnsServerCb (env : Environment) (s : Proxy) (isTcp : Bool) (origin : Option ℕ)
    (raddr : SockAddr) (dnsReq : List UInt8) :
    ((s.dnsServerCb env isTcp origin raddr dnsReq).running = true → s.running = true) ∧
      (s.halted = true → (s.dnsServerCb env isTcp origin raddr dnsReq).halted = true) := by
  by_cases hrun : s.running = true
  · refine ⟨fun _ => hrun, fun hh => ?_⟩
    simp [Proxy.running, hh] at hrun
  · have heq : s.dnsServerCb env isTcp origin raddr dnsReq = s := by
      simp [Proxy.dnsServerCb, hrun]
    rw [heq]
    exact ⟨id, id⟩

/-- A request from UDP leaves the mirror alone. -/
theorem udp (hf : s.https.Fetches) (h : Mirrors s r) (raddr : SockAddr) (dnsReq : List UInt8) :
    Mirrors (s.dnsServerCb env false none raddr dnsReq) r := by
  obtain ⟨-, husing, haccepted⟩ := Proxy.dnsServerCb_shows env hf false none raddr dnsReq
  obtain ⟨hrunning, hhalted⟩ := running_dnsServerCb env s false none raddr dnsReq
  refine h.of_same (s.silent_dnsServerCb env false none raddr dnsReq).tcp
    (flatMap_acts_dnsServerCb env s ..) ?_ husing hrunning hhalted
  rw [haccepted, Option.map_none, Option.toList_none, ite_self, List.append_nil]

/-- A request from a connection is recorded by the mirror. -/
theorem record (hf : s.https.Fetches) (h : Mirrors s r) (block : ℕ) (raddr : SockAddr)
    (dnsReq : List UInt8) :
    Mirrors (s.tcpCb env block raddr dnsReq) (r.record block raddr dnsReq) := by
  obtain ⟨-, husing, haccepted⟩ := Proxy.dnsServerCb_shows env hf true (some block) raddr dnsReq
  obtain ⟨hrunning, hhalted⟩ := running_dnsServerCb env s true (some block) raddr dnsReq
  refine ⟨?_, ?_, ?_, fun hu hr => ?_, fun hr => hhalted (h.halted hr)⟩
  · exact h.server.trans (s.silent_dnsServerCb env true (some block) raddr dnsReq).tcp.symm
  · exact h.sent.trans (flatMap_acts_dnsServerCb env s ..).symm
  · rw [Proxy.tcpCb, haccepted]
    split_ifs
    · exact h.accepted.append (.refl _)
    · exact h.accepted.append (List.nil_sublist _)
  · have hu' : s.usingDnsPoller = false := husing ▸ hu
    rw [Proxy.tcpCb, haccepted, if_pos ⟨hrunning hr, by simp [hu']⟩, h.all hu' (hrunning hr)]
    rfl

/-- The server is written. -/
theorem write (h : Mirrors s r) (d : DnsServerTcp) :
    Mirrors { s with tcp := d } { r with server := d } :=
  ⟨rfl, h.sent, h.accepted, h.all, h.halted⟩

/-- Reads of the two go alike. -/
theorem corresponds (env : Environment) :
    Corresponds Proxy.tcpIn TcpRun.serverIn (Proxy.tcpCb env) TcpRun.record
      fun s r => s.https.Fetches ∧ Mirrors s r where
  get _ _ h := h.2.server
  set _ _ d h := ⟨h.1, h.2.write d⟩
  call _ _ block raddr dnsReq h :=
    ⟨(Proxy.dnsServerCb_shows env h.1 true (some block) raddr dnsReq).1,
      h.2.record h.1 block raddr dnsReq⟩

/-- A callback that does not return. -/
theorem halt (h : Mirrors s r) : Mirrors { s with halted := true } { r with halted := true } :=
  ⟨h.server, h.sent, h.accepted, fun _ hr => by simp [Proxy.running] at hr, fun _ => rfl⟩

theorem readEvent (hf : s.https.Fetches) (h : Mirrors s r) (block rounds : ℕ) (res : RecvResult) :
    Mirrors (s.readEvent env block rounds res) (r.readEvent block rounds res) := by
  obtain ⟨hend, -, hread⟩ := (corresponds env).readCb block rounds res ⟨hf, h⟩
  unfold Proxy.readEvent TcpRun.readEvent
  generalize readCb Proxy.tcpIn (Proxy.tcpCb env) block rounds res s = o at hend hread
  generalize readCb TcpRun.serverIn TcpRun.record block rounds res r = o' at hend hread
  obtain ⟨e, t⟩ := o
  obtain ⟨e', t'⟩ := o'
  obtain rfl : e' = e := hend
  cases e' with
  | kept | removed => exact hread
  | looping | fatal | freed => exact hread.halt

end Mirrors

/-! ## Events -/

/-- The event as the server on its own has it, if it comes from a TCP connection. -/
def ProxyEvent.toTcp : ProxyEvent → Option TcpEvent
  | .accept r => some (.accept r)
  | .tcpRead block rounds res => some (.read block rounds res)
  | .tcpTimeout block => some (.timeout block)
  | _ => none

/-- The events of the server on its own for an event of the proxy : the same event if it comes
from a connection, and otherwise responses. -/
inductive Follows (s : Proxy) (e : ProxyEvent) : List TcpEvent → Prop where
  | ended : s.running = false → Follows s e []
  | input {f : TcpEvent} : s.running = true → e.toTcp = some f → Follows s e [f]
  | own {fs : List TcpEvent} : s.running = true → e.toTcp = none → (∀ f ∈ fs, f.isInput = false) →
      Follows s e fs

namespace Mirrors

variable {env : Environment} {s : Proxy} {r : TcpRun}

theorem newResolv (hf : s.https.Fetches) (h : Mirrors s r) (addrList : CString) :
    ∃ fs : List TcpEvent, (∀ f ∈ fs, f.isInput = false) ∧
      Mirrors (s.newResolv env addrList) (Runs.run TcpRun.step r fs) := by
  have hreplaced : Mirrors (s.replaceResolv env addrList) r := by
    have hacts : (s.resolv.toList.map fun r => Observation.released (.resolv r.block)).flatMap
        Observation.acts = [] := by
      cases s.resolv <;> rfl
    have hfrom : (s.resolv.toList.map fun r => Observation.released (.resolv r.block)).filterMap
        Observation.fromTcp = [] := by
      cases s.resolv <;> rfl
    rw [Proxy.replaceResolv, Proxy.freeResolv_eq]
    refine h.of_same rfl ?_ ?_ rfl id id
    · rw [List.flatMap_append, hacts, List.append_nil]
    · rw [List.filterMap_append, hfrom, List.append_nil]
  refine hreplaced.steps ?_ (by rwa [Proxy.https_replaceResolv])
  rw [Proxy.https_replaceResolv]
  exact s.https.steps_httpsClientReset env.lib

/-- The mirror goes on while the proxy does. -/
theorem not_halted (h : Mirrors s r) (hrun : s.running = true) : r.halted = false := by
  by_contra hne
  have hh := h.halted (by simpa using hne)
  simp [Proxy.running, hh] at hrun

/-- An event from a connection happens to both. -/
theorem input (hf : s.https.Fetches) (h : Mirrors s r) (hrun : s.running = true) {e : ProxyEvent}
    {f : TcpEvent} (he : e.toTcp = some f) : Mirrors (s.step env e) (r.step f) := by
  have hr := h.not_halted hrun
  unfold Proxy.step TcpRun.step
  rw [if_neg (by simp [hrun]), if_neg (by simp [hr])]
  cases e with
  | accept a =>
    obtain rfl := Option.some.inj he
    simp only [h.server]
    split_ifs
    · exact h.write _
    · exact h
  | tcpRead block rounds res =>
    obtain rfl := Option.some.inj he
    simp only [h.server]
    split_ifs
    · exact h.readEvent hf block rounds res
    · exact h
  | tcpTimeout block =>
    obtain rfl := Option.some.inj he
    simp only [h.server]
    split_ifs
    · exact h.write _
    · exact h
  | udp | sock | timer | resetTimer | poll | statTimer => cases he

/-- Any other event is followed by responses. -/
theorem own (env : Environment) (hf : s.https.Fetches) (h : Mirrors s r) {e : ProxyEvent}
    (he : e.toTcp = none) :
    ∃ fs : List TcpEvent, (∀ f ∈ fs, f.isInput = false) ∧
      Mirrors (s.step env e) (Runs.run TcpRun.step r fs) := by
  have hsame : ∃ fs : List TcpEvent, (∀ f ∈ fs, f.isInput = false) ∧
      Mirrors s (Runs.run TcpRun.step r fs) := ⟨[], by simp, h⟩
  unfold Proxy.step
  by_cases hrun : s.running = false
  · rw [if_pos hrun]
    exact hsame
  rw [if_neg hrun]
  cases e with
  | accept | tcpRead | tcpTimeout => cases he
  | udp res =>
    simp only
    split_ifs
    · split
      · exact hsame
      · exact ⟨[], by simp, h.udp hf _ _⟩
    · exact hsame
  | sock fd msgs => exact h.steps (s.https.steps_step env.lib (.sock fd msgs) (by simp)) hf
  | timer msgs => exact h.steps (s.https.steps_step env.lib (.timer msgs) (by simp)) hf
  | resetTimer => exact h.steps (s.https.steps_step env.lib .resetTimer (by simp)) hf
  | poll addrList =>
    simp only
    split_ifs
    · rw [Proxy.dnsPollCb_eq]
      split_ifs
      · exact ⟨[], by simp, h.of_same rfl rfl rfl rfl (fun hr => by simp [Proxy.running] at hr)
          fun _ => rfl⟩
      · exact hsame
      · exact h.newResolv hf addrList
    · exact hsame
  | statTimer => exact ⟨[], by simp, h.of_same rfl rfl rfl rfl id id⟩

/-- Every event of the proxy is followed. -/
theorem step (env : Environment) (hf : s.https.Fetches) (h : Mirrors s r) (e : ProxyEvent) :
    ∃ fs, Follows s e fs ∧ Mirrors (s.step env e) (Runs.run TcpRun.step r fs) := by
  by_cases hrun : s.running = true
  · cases he : e.toTcp with
    | some f => exact ⟨[f], .input hrun he, h.input hf hrun he⟩
    | none =>
      obtain ⟨fs, hfs, hm⟩ := h.own env hf he
      exact ⟨fs, .own hrun he hfs, hm⟩
  · have hrun' : s.running = false := by simpa using hrun
    have hstep : s.step env e = s := by simp [Proxy.step, hrun']
    exact ⟨[], .ended hrun', by rwa [hstep]⟩

end Mirrors

/-! ## Runs -/

namespace Proxy

/-- The server on its own where that of the proxy is. -/
def tcpAlone (s : Proxy) : TcpRun :=
  ⟨s.tcp, [], [], !s.running⟩

/-- The bytes an event of the proxy receives from the connection at `b`. -/
def recvOn (b : ℕ) (s : Proxy) (e : ProxyEvent) : List UInt8 :=
  e.toTcp.elim [] (s.tcpAlone.recvOn b)

/-- Every length that the event comes upon at `b` is at most `TCP_DNS_MAX_PAYLOAD`. -/
def LengthsFit (b : ℕ) (s : Proxy) (e : ProxyEvent) : Prop :=
  ∀ f ∈ e.toTcp, s.tcpAlone.LengthsFit b f

variable (env : Environment) (opt : Options)

/-- The bytes a run of the proxy receives from the connection at `b`. -/
def receivedFrom (b : ℕ) (es : List ProxyEvent) : List UInt8 :=
  Runs.collect (step env) (recvOn b) (start env opt) es

end Proxy

/-- What is read depends on the server and on whether the process goes on. -/
theorem TcpRun.reading_congr {r r' : TcpRun} (hserver : r.server = r'.server)
    (hhalted : r.halted = r'.halted) (b : ℕ) : r.reading b = r'.reading b := by
  rw [reading, reading, hserver, hhalted]

theorem TcpRun.recvOn_congr {r r' : TcpRun} (h : ∀ b, r.reading b = r'.reading b) (b : ℕ)
    (f : TcpEvent) : r.recvOn b f = r'.recvOn b f := by
  cases f with
  | read block rounds res => cases res <;> simp [recvOn, h]
  | accept | timeout | respond | stop => rfl

theorem TcpRun.callsOn_congr {r r' : TcpRun} (h : ∀ b, r.reading b = r'.reading b) (b : ℕ)
    (f : TcpEvent) : r.callsOn b f = r'.callsOn b f := by
  cases f with
  | read block rounds res => cases res <;> simp [callsOn, h]
  | accept | timeout | respond | stop => rfl

/-- Responses receive nothing. -/
theorem TcpRun.receivedOn_own (b : ℕ) :
    ∀ (r : TcpRun) (fs : List TcpEvent), (∀ f ∈ fs, f.isInput = false) → receivedOn b r fs = []
  | _, [], _ => rfl
  | r, f :: fs, h => by
    have hf : r.recvOn b f = [] := by
      have hinput := h f (List.mem_cons_self ..)
      cases f with
      | accept | read | timeout => cases hinput
      | respond | stop => rfl
    rw [receivedOn, hf, receivedOn_own b _ fs fun f' hf' => h f' (List.mem_cons_of_mem _ hf'),
      List.append_nil]

theorem TcpRun.lengthsFit_own (b : ℕ) :
    ∀ (r : TcpRun) (fs : List TcpEvent), (∀ f ∈ fs, f.isInput = false) →
      Runs.Meets step (LengthsFit b) r fs
  | _, [], _ => trivial
  | r, f :: fs, h => by
    refine ⟨fun c hc => ?_, lengthsFit_own b _ fs fun f' hf' => h f' (List.mem_cons_of_mem _ hf')⟩
    have hinput := h f (List.mem_cons_self ..)
    cases f with
    | accept | read | timeout => cases hinput
    | respond | stop => cases hc

namespace Follows

variable {s : Proxy} {e : ProxyEvent} {fs : List TcpEvent} {r : TcpRun}

/-- The server on its own reads what the server in the proxy reads. -/
theorem reading_eq (h : Mirrors s r) (hrun : s.running = true) (b : ℕ) :
    r.reading b = s.tcpAlone.reading b :=
  TcpRun.reading_congr h.server (by simp [h.not_halted hrun, Proxy.tcpAlone, hrun]) b

theorem receivedOn (hfs : Follows s e fs) (h : Mirrors s r) (b : ℕ) :
    TcpRun.receivedOn b r fs = s.recvOn b e := by
  cases hfs with
  | ended hrun =>
    have hnone : ∀ f, s.tcpAlone.recvOn b f = [] := by
      intro f
      cases f with
      | read block rounds res =>
        cases res <;> simp [TcpRun.recvOn, TcpRun.reading, Proxy.tcpAlone, hrun]
      | accept | timeout | respond | stop => rfl
    cases he : e.toTcp <;> simp [TcpRun.receivedOn, Proxy.recvOn, he, hnone]
  | input hrun he =>
    simp [TcpRun.receivedOn, Proxy.recvOn, he, TcpRun.recvOn_congr (reading_eq h hrun)]
  | own hrun he hown => simp [TcpRun.receivedOn_own b r fs hown, Proxy.recvOn, he]

theorem lengthsFit (hfs : Follows s e fs) (h : Mirrors s r) {b : ℕ} (hfit : s.LengthsFit b e) :
    Runs.Meets TcpRun.step (TcpRun.LengthsFit b) r fs := by
  cases hfs with
  | ended => trivial
  | input hrun he =>
    refine ⟨?_, trivial⟩
    rw [TcpRun.LengthsFit, TcpRun.callsOn_congr (reading_eq h hrun)]
    exact hfit _ he
  | own hrun he hown => exact TcpRun.lengthsFit_own b r fs hown

/-- The events from connections are the same ones, as long as the proxy goes on. -/
theorem inputs (hfs : Follows s e fs) :
    (s.running = true → fs.filter TcpEvent.isInput = e.toTcp.toList) ∧
      (s.running = false → fs = []) := by
  cases hfs with
  | ended hrun => exact ⟨fun h => by simp [hrun] at h, fun _ => rfl⟩
  | @input f hrun he =>
    have hinput : f.isInput = true := by
      cases e <;> simp_all [ProxyEvent.toTcp] <;> subst he <;> rfl
    exact ⟨fun _ => by simp [he, hinput], fun h => by simp [hrun] at h⟩
  | own hrun he hown =>
    refine ⟨fun _ => ?_, fun h => by simp [hrun] at h⟩
    rw [he, Option.toList_none, List.filter_eq_nil_iff]
    intro f hf
    simp [hown f hf]

end Follows

/-- The run `fs` of the server on its own for the run `es` of the proxy. -/
structure Mirrored (env : Environment) (opt : Options) (es : List ProxyEvent)
    (fs : List TcpEvent) : Prop where
  mirrors : Mirrors (Proxy.run env opt es) (TcpRun.run opt.tcpClientLimit fs)
  within : fs.filter TcpEvent.isInput <+: es.filterMap ProxyEvent.toTcp
  inputs : (Proxy.run env opt es).running = true →
    fs.filter TcpEvent.isInput = es.filterMap ProxyEvent.toTcp
  received : ∀ b, TcpRun.receivedOn b (TcpRun.start opt.tcpClientLimit) fs =
    Proxy.receivedFrom env opt b es
  fit : ∀ b, Runs.Meets (Proxy.step env) (Proxy.LengthsFit b) (Proxy.start env opt) es →
    Runs.Meets TcpRun.step (TcpRun.LengthsFit b) (TcpRun.start opt.tcpClientLimit) fs

namespace Mirrored

variable {env : Environment} {opt : Options} {es : List ProxyEvent} {fs : List TcpEvent}

theorem start (env : Environment) (hlimit : 0 < opt.tcpClientLimit) : Mirrored env opt [] [] where
  mirrors :=
    { server := by
        show dnsServerTcpCreate opt.tcpClientLimit = (Proxy.start env opt).tcp
        simp [Proxy.start, hlimit]
      sent := rfl
      accepted := .refl _
      all := fun _ _ => rfl
      halted := fun h => by cases h }
  within := List.prefix_refl _
  inputs _ := rfl
  received _ := rfl
  fit _ _ := trivial

/-- One more event. -/
theorem concat (h : Mirrored env opt es fs) (e : ProxyEvent) :
    ∃ fs', Mirrored env opt (es ++ [e]) (fs ++ fs') := by
  obtain ⟨fs', hfollows, hm⟩ := h.mirrors.step env (Proxy.living_run env opt es).fetches e
  have hrun : Proxy.run env opt (es ++ [e]) = (Proxy.run env opt es).step env e :=
    Runs.run_concat _ _ _ _
  have hrun' : TcpRun.run opt.tcpClientLimit (fs ++ fs') =
      Runs.run TcpRun.step (TcpRun.run opt.tcpClientLimit fs) fs' := Runs.run_append _ _ _ _
  have hinputs : (Proxy.run env opt es).running = true →
      (fs ++ fs').filter TcpEvent.isInput = (es ++ [e]).filterMap ProxyEvent.toTcp := by
    intro hr
    rw [List.filter_append, h.inputs hr, hfollows.inputs.1 hr, List.filterMap_append]
    cases he : e.toTcp <;> simp [he]
  refine ⟨fs', ⟨by rwa [hrun, hrun'], ?_, fun hr => hinputs ?_, fun b => ?_, fun b hfit => ?_⟩⟩
  · by_cases hr : (Proxy.run env opt es).running = true
    · exact hinputs hr ▸ List.prefix_refl _
    · rw [hfollows.inputs.2 (by simpa using hr), List.append_nil, List.filterMap_append]
      exact h.within.trans (List.prefix_append _ _)
  · by_contra hr'
    have hsame : (Proxy.run env opt es).step env e = Proxy.run env opt es :=
      if_pos (by simpa using hr')
    rw [hrun, hsame] at hr
    exact hr' hr
  · have hreceived := hfollows.receivedOn h.mirrors b
    rw [TcpRun.receivedOn_append, h.received, Proxy.receivedFrom, Proxy.receivedFrom,
      Runs.collect_concat]
    exact congrArg _ hreceived
  · obtain ⟨hes, he, -⟩ := Runs.meets_append.1 hfit
    exact Runs.meets_append.2 ⟨h.fit b hes, hfollows.lengthsFit h.mirrors he⟩

/-- Every run of the proxy with a TCP server has a run of the server for it. -/
theorem run (env : Environment) (hlimit : 0 < opt.tcpClientLimit) (es : List ProxyEvent) :
    ∃ fs, Mirrored env opt es fs := by
  induction es using List.reverseRecOn with
  | nil => exact ⟨[], start env hlimit⟩
  | append_singleton es e ih =>
    obtain ⟨fs, h⟩ := ih
    obtain ⟨fs', h'⟩ := h.concat e
    exact ⟨fs ++ fs', h'⟩

end Mirrored

/-- The TCP server in the proxy refines the server on its own. For every run of the proxy there
is a run of the server whose events from connections are those of the proxy, up to where the
process ends, in their order, and otherwise responses. It leaves the server in the same state,
with its clients, their buffers and its watchers, it does the same to the sockets, and it hands
over all requests the proxy accepts from connections, in their order. Without the poller it
hands over no others. -/
theorem tcpServer_refines (env : Environment) (opt : Options) (hlimit : 0 < opt.tcpClientLimit)
    (es : List ProxyEvent) :
    ∃ fs : List TcpEvent,
      let s := Proxy.run env opt es
      let r := TcpRun.run opt.tcpClientLimit fs
      fs.filter TcpEvent.isInput <+: es.filterMap ProxyEvent.toTcp ∧
        (s.running = true → fs.filter TcpEvent.isInput = es.filterMap ProxyEvent.toTcp) ∧
        r.server = s.tcp ∧ r.sent = s.trace.flatMap Observation.acts ∧
        (s.trace.filterMap Observation.fromTcp).Sublist r.delivered ∧
        (opt.hostname = none → s.running = true →
          s.trace.filterMap Observation.fromTcp = r.delivered) := by
  obtain ⟨fs, h⟩ := Mirrored.run env hlimit es
  refine ⟨fs, h.within, h.inputs, h.mirrors.server, h.mirrors.sent, h.mirrors.accepted,
    fun hnone hrun => h.mirrors.all ?_ hrun⟩
  rw [(Proxy.configured_run env opt es).usingDnsPoller, hnone]
  rfl

/-- A request read from a connection and answered. -/
theorem tcpServer_refines_one :
    ∃ fs : List TcpEvent,
      let s := Proxy.run (answering headerOnly) ⟨false, 2, 4, none⟩
        [.accept (.sock 5 [10, 0, 0, 1]), .tcpRead 0 2 (.data oneRequest),
          .timer [.done 0 .ok goodInfo]]
      (TcpRun.run 2 fs).server = s.tcp ∧
        s.trace.filterMap Observation.fromTcp = (TcpRun.run 2 fs).delivered := by
  obtain ⟨fs, -, -, hserver, -, -, hall⟩ := tcpServer_refines (answering headerOnly)
    ⟨false, 2, 4, none⟩ (by decide) [.accept (.sock 5 [10, 0, 0, 1]),
      .tcpRead 0 2 (.data oneRequest), .timer [.done 0 .ok goodInfo]]
  exact ⟨fs, hserver, hall rfl (by decide)⟩

end HttpsDnsProxy
