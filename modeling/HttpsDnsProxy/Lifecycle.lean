import HttpsDnsProxy.Monitors
import HttpsDnsProxy.Shutdown

/-!
# The life of a request

`Phase.next` is the life of one request as a monitor : it is accepted, its fetch is started,
its transfer ends or is aborted, its callback runs, gives out exactly what is due
(`Question.due`), and releases the two blocks of the request. Requests are independent of each
other : the monitor of a request reads only the observations of its own number.

Every run of the proxy is allowed by the monitors of all requests, whatever the order of their
events, and the client's list tells the phases : a request without a number has not been seen,
one in the list is in flight, all others are closed (`Proxy.Living`). When `main` has come to
its end, every request accepted is closed (`requestLives`).
-/

namespace HttpsDnsProxy

open Bytes
open HttpsClient (HttpsStep)

/-! ## What is due -/

/-- A request as it was accepted. -/
structure Question where
  isTcp : Bool
  origin : Option ℕ
  source : SockAddr
  dnsReq : List UInt8
  deriving DecidableEq, Repr

/-- What the callback of a request has to do : nothing, to give a datagram to `sendto` or a
message to the TCP server, or it does not return. -/
inductive Due where
  | nothing
  | udp (dest : SockAddr) (datagram : List UInt8)
  | tcp (resp : List UInt8)
  | stuck
  deriving DecidableEq, Repr

/-- What is due to the question once its transfer has left `buf` : nothing without a message
that has its id. -/
def Question.due (env : Environment) (addrlen : ℕ) (q : Question) : Option (List UInt8) → Due
  | none => .nothing
  | some body =>
    if body.length < dnsHeaderLength ∨ body.take 2 ≠ q.dnsReq.take 2 then .nothing
    else if q.isTcp then .tcp body
    else
      match dnsServerRespond env.ares env.aresRounds q.dnsReq body with
      | .dropped => .nothing
      | .sendto datagram => .udp (sockBytes q.source addrlen) datagram
      | .looping => .stuck

/-! ## The monitor -/

/-- Where a request is in its life. -/
inductive Phase where
  | unseen
  | accepted (q : Question)
  | inFlight (q : Question)
  | ended (q : Question) (buf : Option (List UInt8))
  | called (due : Due)
  | replied
  | emptied
  | closed
  deriving DecidableEq, Repr

/-- The phase behind an observation of the request. -/
def Phase.next (env : Environment) (addrlen : ℕ) : Phase → Observation → Option Phase
  | .unseen, .accepted _ isTcp origin source dnsReq =>
    if dnsHeaderLength ≤ dnsReq.length then some (.accepted ⟨isTcp, origin, source, dnsReq⟩)
    else none
  | .accepted q, .started _ _ => some (.inFlight q)
  | .inFlight q, .ended _ result info body =>
    some (.ended q (if faultyResponse result info then none else body))
  -- the transfer was aborted
  | .inFlight q, .callback _ => some (.called (q.due env addrlen none))
  | .ended q buf, .callback _ => some (.called (q.due env addrlen buf))
  | .called (.udp dest datagram), .udpReply _ dest' datagram' =>
    if dest' = dest ∧ datagram' = datagram then some .replied else none
  | .called (.tcp resp), .tcpReply _ resp' _ _ => if resp' = resp then some .replied else none
  | .called .nothing, .released (.dnsReq _) => some .emptied
  | .replied, .released (.dnsReq _) => some .emptied
  | .emptied, .released (.request _) => some .closed
  | _, _ => none

/-- The request an observation is of. -/
def Observation.owner : Observation → Option ℕ
  | .accepted n _ _ _ _ | .started n _ | .ended n _ _ _ | .callback n => some n
  | .udpReply n _ _ | .tcpReply n _ _ _ => some n
  | .released (.dnsReq n) | .released (.request n) => some n
  | .released _ => none

/-- The observations of the request `n` are those of a request, and it is in the phase `p`
behind them. -/
def Lives (env : Environment) (addrlen n : ℕ) (t : List Observation) (p : Phase) : Prop :=
  Monitors.Life (Phase.next env addrlen) Observation.owner .unseen n t p

/-! ## The callback -/

/-- The question a `request_t` was made of. -/
structure Question.Asks (addrlen : ℕ) (q : Question) (req : Request) : Prop where
  isTcp : req.isTcp = q.isTcp
  dnsReq : req.dnsReq = q.dnsReq
  raddr : req.raddr = sockBytes q.source addrlen
  txId : req.txId = be16 (q.dnsReq.getD 0 0) (q.dnsReq.getD 1 0)
  length_le : dnsHeaderLength ≤ q.dnsReq.length

/-- What the callback of the request `n` gives out for what is due, and whether it hangs. -/
inductive Gives (n : ℕ) : Due → List Observation → Bool → Prop where
  | nothing : Gives n .nothing [] false
  | udp (dest : SockAddr) (datagram : List UInt8) :
      Gives n (.udp dest datagram) [.udpReply n dest datagram] false
  | tcp (resp : List UInt8) (clients : List ℕ) (acts : List TcpAction) :
      Gives n (.tcp resp) [.tcpReply n resp clients acts] false
  | stuck : Gives n .stuck [] true

/-- Ids agree if the first two bytes do. -/
theorem be16_eq_iff {a b : List UInt8} (ha : 2 ≤ a.length) (hb : 2 ≤ b.length) :
    be16 (a.getD 0 0) (a.getD 1 0) = be16 (b.getD 0 0) (b.getD 1 0) ↔ a.take 2 = b.take 2 := by
  rw [take_two_eq a ha, take_two_eq b hb]
  refine ⟨congrArg toBe16, fun h => ?_⟩
  rw [toBe16_be16, toBe16_be16] at h
  obtain ⟨h0, h1⟩ : a.getD 0 0 = b.getD 0 0 ∧ a.getD 1 0 = b.getD 1 0 := by simpa using h
  rw [h0, h1]

namespace Proxy

variable {env : Environment} {s : Proxy} {c : HttpsClient Request} {a : ℕ}

/-- The proxy has given out what is due to the request `n`, and is otherwise as it was, but
for the statistics. -/
def Gave (s : Proxy) (n : ℕ) (due : Due) (s' : Proxy) : Prop :=
  ∃ replies d stat halted, Gives n due replies halted ∧
    s' = { s with trace := s.trace ++ replies, tcp := d, stat := stat, halted := halted }

theorem Gave.nothing (hs : s.halted = false) (n : ℕ) : Gave s n .nothing s :=
  ⟨[], s.tcp, s.stat, false, .nothing, by simp [← hs]⟩

theorem Gave.count {n : ℕ} {due : Due} {s' : Proxy} (h : Gave s n due s')
    (f : Counters → Counters) : Gave s n due (s'.count f) := by
  obtain ⟨replies, d, stat, halted, hgives, rfl⟩ := h
  exact ⟨replies, d, _, halted, hgives, rfl⟩

theorem gave_udpRespond (hs : s.halted = false) (n : ℕ) {q : Question} {req : Request}
    (hq : q.Asks s.addrlen req) (htcp : q.isTcp = false) {body : List UInt8}
    (hlen : ¬body.length < dnsHeaderLength) (hsame : body.take 2 = q.dnsReq.take 2) :
    Gave s n (q.due env s.addrlen (some body)) (s.udpRespond env n req body) := by
  unfold udpRespond
  rw [hq.dnsReq, hq.raddr, sockBytes_sockBytes]
  cases hres : dnsServerRespond env.ares env.aresRounds q.dnsReq body with
  | dropped => simpa [Question.due, hlen, hsame, htcp, hres] using Gave.nothing hs n
  | sendto datagram =>
    have hdue : q.due env s.addrlen (some body) = .udp (sockBytes q.source s.addrlen) datagram := by
      simp [Question.due, hlen, hsame, htcp, hres]
    rw [hdue]
    exact ⟨_, s.tcp, s.stat, false, .udp _ _, by simp [note, ← hs]⟩
  | looping =>
    have hdue : q.due env s.addrlen (some body) = .stuck := by
      simp [Question.due, hlen, hsame, htcp, hres]
    rw [hdue]
    exact ⟨[], s.tcp, s.stat, true, .stuck, by simp⟩

theorem gave_tcpRespond (hs : s.halted = false) (n : ℕ) {q : Question} (req : Request)
    (htcp : q.isTcp = true) {body : List UInt8} (hlen : ¬body.length < dnsHeaderLength)
    (hsame : body.take 2 = q.dnsReq.take 2) :
    Gave s n (q.due env s.addrlen (some body)) (s.tcpRespond env n req body) := by
  have hdue : q.due env s.addrlen (some body) = .tcp body := by
    simp [Question.due, hlen, hsame, htcp]
  rw [hdue]
  exact ⟨_, _, s.stat, false, .tcp body _ _, by rw [← hs]; rfl⟩

/-- The callback gives out what is due. -/
theorem gave_respond (env : Environment) (hs : s.halted = false) (n : ℕ) {q : Question}
    {req : Request} (hq : q.Asks s.addrlen req) :
    ∀ buf : Option (List UInt8), Gave s n (q.due env s.addrlen buf) (s.respond env n req buf)
  | none => .nothing hs n
  | some body => by
    unfold respond
    by_cases hlen : body.length < dnsHeaderLength
    · simpa [Question.due, hlen] using Gave.nothing hs n
    have hid : req.txId = be16 (body.getD 0 0) (body.getD 1 0) ↔
        body.take 2 = q.dnsReq.take 2 := by
      have hreq := hq.length_le
      unfold dnsHeaderLength at hlen hreq
      rw [hq.txId, be16_eq_iff (by omega) (by omega), eq_comm]
    by_cases hsame : body.take 2 = q.dnsReq.take 2
    · have hgave : Gave s n (q.due env s.addrlen (some body))
          (if req.isTcp then s.tcpRespond env n req body else s.udpRespond env n req body) := by
        rw [hq.isTcp]
        split_ifs with htcp
        · exact gave_tcpRespond hs n req htcp hlen hsame
        · exact gave_udpRespond hs n hq (by simpa using htcp) hlen hsame
      simp only [if_neg hlen, if_neg (not_not.2 (hid.2 hsame))]
      by_cases hstat : req.stat = true
      · simpa only [if_pos hstat] using hgave.count _
      · simpa only [if_neg hstat] using hgave
    · have hdue : q.due env s.addrlen (some body) = .nothing := by simp [Question.due, hsame]
      simpa only [hdue, if_neg hlen, if_pos (mt hid.1 hsame)] using Gave.nothing hs n

/-- What is seen of a callback that gives out `replies` : it releases its request, unless it
hangs. -/
def calling (n : ℕ) (replies : List Observation) (halted : Bool) : List Observation :=
  .callback n :: (replies ++
    if halted then [] else [.released (.dnsReq n), .released (.request n)])

/-- The callback of a request gives out what is due and releases the request, unless it
hangs. -/
theorem httpsRespCb_gives (env : Environment) (hs : s.halted = false) (n : ℕ) {q : Question}
    {req : Request} (hq : q.Asks s.addrlen req) (buf : Option (List UInt8)) :
    ∃ replies d stat halted, Gives n (q.due env s.addrlen buf) replies halted ∧
      s.httpsRespCb env n req buf =
        { s with
          trace := s.trace ++ calling n replies halted
          tcp := d, stat := stat, halted := halted } := by
  obtain ⟨replies, d, stat, halted, hgives, heq⟩ :=
    gave_respond env (s := s.note (.callback n)) hs n hq buf
  refine ⟨replies, d, stat, halted, hgives, ?_⟩
  unfold httpsRespCb
  simp only [heq]
  cases halted <;> simp [note, calling]

/-- Finishing a fetch : its transfer has ended and its callback runs. -/
theorem advance_finishFetch (env : Environment) (hs : s.halted = false) (prev : Option ℕ)
    (ctx : HttpsFetchCtx Request) (result : Option (CurlCode × TransferInfo)) :
    ∃ ends buf stat, Ends ctx ends buf ∧
      s.advance env (s.https.finishFetch prev ctx result) =
        (({ s with trace := s.trace ++ ends, stat := stat } : Proxy).httpsRespCb env ctx.block
          ctx.cbData buf).withHttps (s.https.finishFetch prev ctx result) := by
  have hcall : ∀ (s' : Proxy) (buf : Option (List UInt8)), s'.halted = false →
      s'.carryOut env (.call ctx.block ctx.cbData buf) =
        s'.httpsRespCb env ctx.block ctx.cbData buf := fun s' buf hs' => if_neg (by simp [hs'])
  obtain ⟨-, -, -, ⟨-, he⟩ | ⟨code, info, es, -, hconn, he⟩⟩ :=
    s.https.finishFetch_spec prev ctx result
  · refine ⟨[], none, s.stat, .aborted, ?_⟩
    rw [advance_eq he, List.foldl_cons, List.foldl_nil, hcall s none hs]
    simp
  · obtain ⟨stat, hstat⟩ :=
      foldl_connection env es (s.note (.ended ctx.block code info ctx.buf)) hconn
    have hended : (.ended ctx.block code info ctx.buf :: es).foldl (carryOut env) s =
        { s with trace := s.trace ++ [.ended ctx.block code info ctx.buf], stat := stat } := by
      have hnote : s.carryOut env (.ended ctx.block code info ctx.buf) =
          s.note (.ended ctx.block code info ctx.buf) := if_neg (by simp [hs])
      rw [List.foldl_cons, hnote, hstat]
      rfl
    refine ⟨_, _, stat, .done code info, ?_⟩
    rw [List.append_assoc] at he
    rw [advance_eq he, List.foldl_append, hended, List.foldl_cons, List.foldl_nil]
    exact congrArg (withHttps · _) (hcall _ _ hs)

/-- Steps of the client show only what is of a fetch. -/
theorem ofFetch_steps (env : Environment) (hf : s.https.Fetches)
    (hsteps : HttpsClient.Steps s.https c) :
    ∃ os, (s.advance env c).trace = s.trace ++ os ∧ ∀ o ∈ os, ∃ n, o.ofFetch n = true := by
  suffices h : (s.advance env c).https.Fetches ∧
      ∃ os, (s.advance env c).trace = s.trace ++ os ∧ ∀ o ∈ os, ∃ n, o.ofFetch n = true from h.2
  refine keep_steps (P := fun s' => s'.https.Fetches ∧
    ∃ os, s'.trace = s.trace ++ os ∧ ∀ o ∈ os, ∃ n, o.ofFetch n = true) ?_ hsteps
    ⟨hf, [], by simp, by simp⟩
  · rintro s' c' hstep ⟨hf', os, hos, hof⟩
    refine ⟨hf'.step hstep, ?_⟩
    have hchange : ClientChange env s' c' (s'.advance env c') := clientChange hstep hf'
    generalize s'.advance env c' = s'' at hchange
    cases hchange with
    | quiet | dead => exact ⟨os, hos, hof⟩
    | finish stat halted _ _ _ _ hends hreply hfreed =>
      have hnew := ofFetch_finish hends hreply hfreed
      refine ⟨_, by rw [hos, List.append_assoc], fun o ho => ?_⟩
      rcases List.mem_append.1 ho with ho | ho
      · exact hof o ho
      · exact ⟨_, hnew o ho⟩

/-! ## All requests of a run -/

/-- Every request is somewhere in its life, and the client's list says where. -/
structure Living (env : Environment) (a : ℕ) (s : Proxy) : Prop where
  addrlen : s.addrlen = a
  fetches : s.https.Fetches
  unseen : ∀ n, s.https.nextBlock ≤ n → Lives env a n s.trace .unseen
  inFlight : ∀ p ∈ s.https.listed, ∃ q : Question, q.Asks a p.2 ∧
    Lives env a p.1 s.trace (.inFlight q)
  closed : ∀ n < s.https.nextBlock, (∀ p ∈ s.https.listed, p.1 ≠ n) →
    ∃ phase, Lives env a n s.trace phase ∧ (s.halted = false → phase = .closed)

/-- Observations that are of no request change nothing. -/
theorem Living.notes (h : Living env a s) {os : List Observation}
    (hos : ∀ o ∈ os, o.owner = none) : Living env a { s with trace := s.trace ++ os } := by
  have hothers : ∀ n, ∀ o ∈ os, o.owner ≠ some n := fun n o ho => by simp [hos o ho]
  refine ⟨h.addrlen, h.fetches, fun n hn => (h.unseen n hn).others (hothers n), fun p hp => ?_,
    fun n hn hne => ?_⟩
  · obtain ⟨q, hq, hlife⟩ := h.inFlight p hp
    exact ⟨q, hq, hlife.others (hothers p.1)⟩
  · obtain ⟨phase, hlife, hphase⟩ := h.closed n hn hne
    exact ⟨phase, hlife.others (hothers n), hphase⟩

/-- A step that does nothing to the fetches. -/
theorem Living.quiet (h : Living env a s) (hf : c.Fetches) (hlisted : c.listed = s.https.listed)
    (hnext : c.nextBlock = s.https.nextBlock) (stat : Option Stat) :
    Living env a { s with https := c, stat := stat } := by
  refine ⟨h.addrlen, hf, ?_, ?_, ?_⟩
  · rw [hnext]
    exact h.unseen
  · rw [hlisted]
    exact h.inFlight
  · rw [hnext, hlisted]
    exact h.closed

/-- The life of a request in flight goes on to its end, or to where its callback hangs. -/
theorem follow_finish {q : Question} {ctx : HttpsFetchCtx Request} {ends replies : List Observation}
    {buf : Option (List UInt8)} {halted : Bool} (hends : Ends ctx ends buf)
    (hgives : Gives ctx.block (q.due env a buf) replies halted) :
    Monitors.follow (Phase.next env a) (.inFlight q) (ends ++ calling ctx.block replies halted) =
      some (if halted then .called .stuck else .closed) := by
  have hcalled : Monitors.follow (Phase.next env a) (.inFlight q) (ends ++ [.callback ctx.block]) =
      some (.called (q.due env a buf)) := by
    cases hends <;> rfl
  have hrest : Monitors.follow (Phase.next env a) (.called (q.due env a buf))
      (replies ++ if halted then [] else
        [.released (.dnsReq ctx.block), .released (.request ctx.block)]) =
        some (if halted then .called .stuck else .closed) := by
    generalize q.due env a buf = due at hgives
    cases hgives with
    | nothing | stuck => rfl
    | udp | tcp => simp [Monitors.follow_cons, Phase.next]
  rw [calling, ← List.singleton_append, ← List.append_assoc, Monitors.follow_append, hcalled]
  exact hrest

/-- All that finishing a fetch shows is of its request. -/
theorem owner_finish {ctx : HttpsFetchCtx Request} {ends replies : List Observation}
    {buf : Option (List UInt8)} {due : Due} {halted : Bool} (hends : Ends ctx ends buf)
    (hgives : Gives ctx.block due replies halted) :
    ∀ o ∈ ends ++ calling ctx.block replies halted, o.owner = some ctx.block := by
  intro o ho
  rw [calling, List.mem_append, List.mem_cons, List.mem_append] at ho
  rcases ho with ho | rfl | ho | ho
  · cases hends with
    | aborted => cases ho
    | done => rw [List.mem_singleton.1 ho, Observation.owner]
  · rfl
  · cases hgives with
    | nothing | stuck => cases ho
    | udp | tcp => rw [List.mem_singleton.1 ho, Observation.owner]
  · cases halted with
    | true => cases ho
    | false => rcases List.mem_pair.1 ho with rfl | rfl <;> rfl

/-- Finishing a fetch ends the life of its request and leaves the others alone. -/
theorem Living.finish (h : Living env a s) (hs : s.halted = false)
    {pre post : List (HttpsFetchCtx Request)} {ctx : HttpsFetchCtx Request}
    (hsplit : s.https.fetches = pre ++ ctx :: post) (hf : c.Fetches)
    (hfetches : c.fetches = pre ++ post) (hnext : c.nextBlock = s.https.nextBlock)
    {ends : List Observation} {buf : Option (List UInt8)} (hends : Ends ctx ends buf)
    (stat : Option Stat) :
    Living env a ((({ s with trace := s.trace ++ ends, stat := stat } : Proxy).httpsRespCb env
      ctx.block ctx.cbData buf).withHttps c) := by
  have hlisted := HttpsClient.listed_split hsplit
  have hlisted' := HttpsClient.listed_append hfetches
  have hsub : c.listed ⊆ s.https.listed :=
    (HttpsClient.listed_sublist_of_unlink hsplit hfetches).subset
  obtain ⟨q, hq, hlife⟩ := h.inFlight ctx.key (by simp [hlisted])
  obtain ⟨replies, d, stat', halted, hgives, heq⟩ := httpsRespCb_gives env
    (s := { s with trace := s.trace ++ ends, stat := stat }) hs ctx.block
    (h.addrlen.symm ▸ hq : q.Asks s.addrlen ctx.cbData) buf
  have hrequest := owner_finish hends hgives
  have hend := hlife.own hrequest (follow_finish hends (h.addrlen ▸ hgives))
  generalize hos : ends ++ calling ctx.block replies halted = os at hrequest hend
  have hothers : ∀ n phase, n ≠ ctx.block → Lives env a n s.trace phase →
      Lives env a n (s.trace ++ os) phase := fun n phase hn hl =>
    hl.others fun o ho heq => hn (Option.some.inj (heq.symm.trans (hrequest o ho)))
  rw [heq]
  simp only [List.append_assoc, hos, withHttps]
  refine ⟨h.addrlen, hf, fun n hn => ?_, fun p hp => ?_, fun n hn hne => ?_⟩
  · have hlt : ctx.block < s.https.nextBlock :=
      h.fetches.listed_lt (p := ctx.key) (by simp [hlisted])
    rw [hnext] at hn
    exact hothers n _ (by omega) (h.unseen n hn)
  · obtain ⟨q', hq', hlife'⟩ := h.inFlight p (hsub hp)
    exact ⟨q', hq', hothers p.1 _ (ne_of_finish h.fetches hsplit hfetches p hp) hlife'⟩
  · by_cases hctx : n = ctx.block
    · subst hctx
      exact ⟨_, hend, fun hh => by simp only at hh; rw [hh]; rfl⟩
    · have hnot : ∀ p ∈ s.https.listed, p.1 ≠ n := by
        intro p hp
        rw [hlisted, List.mem_append, List.mem_cons, ← or_assoc, or_comm (b := p = ctx.key),
          or_assoc, ← List.mem_append, ← hlisted'] at hp
        rcases hp with rfl | hp
        · exact fun heq => hctx heq.symm
        · exact hne p hp
      rw [hnext] at hn
      obtain ⟨phase, hl, hphase⟩ := h.closed n hn hnot
      exact ⟨phase, hothers n phase hctx hl, fun _ => hphase hs⟩

/-- A step of a process that does not go on. -/
theorem Living.dead (h : Living env a s) (hs : s.halted = true) (hf : c.Fetches)
    (hsub : c.listed ⊆ s.https.listed) (hnext : c.nextBlock = s.https.nextBlock) :
    Living env a (s.withHttps c) := by
  refine ⟨h.addrlen, hf, fun n hn => h.unseen n (hnext ▸ hn), fun p hp => h.inFlight p (hsub hp),
    fun n hn _ => ?_⟩
  by_cases hlisted : ∀ p ∈ s.https.listed, p.1 ≠ n
  · exact h.closed n (hnext ▸ hn) hlisted
  · push Not at hlisted
    obtain ⟨p, hp, rfl⟩ := hlisted
    obtain ⟨q, -, hlife⟩ := h.inFlight p hp
    exact ⟨_, hlife, fun hh => by rw [withHttps, hs] at hh; cases hh⟩

theorem living_client (hstep : HttpsStep s.https c) (h : Living env a s) :
    Living env a (s.advance env c) := by
  have hf : c.Fetches := h.fetches.step hstep
  cases hstep with
  | callback cb =>
    obtain ⟨es, hes, hconn⟩ := s.https.effects_transferCallback cb
    obtain ⟨stat, hstat⟩ := foldl_connection env es s hconn
    rw [advance_eq hes, hstat]
    exact h.quiet hf (s.https.listed_transferCallback cb) (s.https.nextBlock_transferCallback cb)
      stat
  | frame hframe =>
    rw [advance_eq (hframe.effects.trans (List.append_nil _).symm)]
    exact h.quiet hf (congrArg (List.map _) hframe.fetches) hframe.nextBlock s.stat
  | @finish pre post ctx result hsplit =>
    have hfetches := h.fetches.fetches_finishFetch hsplit result
    have hnext := (s.https.finishFetch_spec (pre.getLast?.map HttpsFetchCtx.block) ctx result).2.1
    by_cases hs : s.halted = true
    · have hsub := (HttpsClient.listed_sublist_of_unlink hsplit hfetches).subset
      unfold advance
      rw [foldl_halted hs]
      exact h.dead hs hf hsub hnext
    · have hs' : s.halted = false := by simpa using hs
      obtain ⟨ends, buf, stat, hends, heq⟩ := advance_finishFetch env hs'
        (pre.getLast?.map HttpsFetchCtx.block) ctx result
      rw [heq]
      exact h.finish hs' hsplit hf hfetches hnext hends stat

/-- A request taken on is in flight. -/
theorem Living.request (h : Living env a s) (hrun : s.running = true) {isTcp : Bool}
    (origin : Option ℕ) (raddr : SockAddr) {dnsReq : List UInt8}
    (hlen : dnsHeaderLength ≤ dnsReq.length) :
    Living env a (s.takeRequest env isTcp origin raddr dnsReq) := by
  obtain ⟨rfl⟩ := h.addrlen
  obtain ⟨stat, heq⟩ := s.takeRequest_eq env hrun isTcp origin raddr dnsReq
  rw [heq, List.append_assoc]
  have hothers : ∀ n phase, n ≠ s.https.nextBlock → Lives env s.addrlen n s.trace phase →
      Lives env s.addrlen n (s.trace ++ ([.accepted s.https.nextBlock isTcp origin raddr dnsReq] ++
        [.started s.https.nextBlock s.resolv])) phase := by
    intro n phase hn hl
    refine hl.others fun o ho => ?_
    rcases List.mem_pair.1 ho with rfl | rfl <;> simpa [Observation.owner] using hn.symm
  refine ⟨rfl, h.fetches.start _ _ _ _, fun n hn => ?_, fun p hp => ?_, fun n hn hne => ?_⟩
  · have hn' : s.https.nextBlock + 1 ≤ n := hn
    exact hothers n _ (by omega) (h.unseen n (by omega))
  · rcases List.mem_cons.1 hp with rfl | hp
    · refine ⟨⟨isTcp, origin, raddr, dnsReq⟩, ⟨rfl, rfl, rfl, rfl, hlen⟩, ?_⟩
      refine (h.unseen _ le_rfl).own (fun o ho => ?_) ?_
      · rcases List.mem_pair.1 ho with rfl | rfl <;> rfl
      · simp [Monitors.follow_cons, Phase.next, hlen]
    · obtain ⟨q, hq, hlife⟩ := h.inFlight p hp
      exact ⟨q, hq, hothers p.1 _ (Nat.ne_of_lt (h.fetches.listed_lt hp)) hlife⟩
  · have hne' : n ≠ s.https.nextBlock := fun heq => hne _ (List.mem_cons_self ..) heq.symm
    have hn' : n < s.https.nextBlock + 1 := hn
    obtain ⟨phase, hlife, hphase⟩ := h.closed n (by omega)
      fun p hp => hne p (List.mem_cons_of_mem _ hp)
    exact ⟨phase, hothers n phase hne' hlife, hphase⟩

/-- The proxy keeps its requests living. -/
theorem kept_living (env : Environment) (a : ℕ) : KeptByProxy env (Living env a) where
  server _ _ _ h := ⟨h.addrlen, h.fetches, h.unseen, h.inFlight, h.closed⟩
  client _ _ hstep h := living_client hstep h
  request _ _ origin raddr _ hrun _ _ hlen h := h.request hrun origin raddr hlen
  print _ h := ⟨h.addrlen, h.fetches, h.unseen, h.inFlight, h.closed⟩
  halt _ h := by
    refine ⟨h.addrlen, h.fetches, h.unseen, h.inFlight, fun n hn hne => ?_⟩
    obtain ⟨phase, hlife, -⟩ := h.closed n hn hne
    exact ⟨phase, hlife, fun hh => by cases hh⟩

theorem owner_freeResolv (resolv : Option SList) :
    ∀ o ∈ resolv.toList.map fun r => Observation.released (.resolv r.block), o.owner = none := by
  intro o ho
  obtain ⟨r, -, rfl⟩ := List.mem_map.1 ho
  rfl

theorem living_newResolv (addrList : CString) (h : Living env a s) :
    Living env a (s.newResolv env addrList) := by
  refine keep_newResolv (fun _ _ => living_client) addrList ?_
  have hfreed := h.notes (owner_freeResolv s.resolv)
  rw [replaceResolv, freeResolv_eq]
  exact ⟨hfreed.addrlen, hfreed.fetches, hfreed.unseen, hfreed.inFlight, hfreed.closed⟩

theorem living_events (es : List ProxyEvent) (h : Living env a s) :
    Living env a (Runs.run (step env) s es) :=
  Runs.invariant (fun _ e h => (kept_living env a).step e
    (fun _ _ _ h => ⟨h.addrlen, h.fetches, h.unseen, h.inFlight, h.closed⟩)
    (fun addrList _ _ _ => living_newResolv addrList) h) es h

theorem living_start (env : Environment) (opt : Options) :
    Living env opt.addrlen (start env opt) where
  addrlen := rfl
  fetches := .httpsClientInit env.lib opt.statsInterval
  unseen _ _ := .nil
  inFlight _ hp := (List.not_mem_nil hp).elim
  closed n hn := absurd hn (Nat.not_lt_zero n)

theorem living_run (env : Environment) (opt : Options) (es : List ProxyEvent) :
    Living env opt.addrlen (run env opt es) :=
  living_events es (living_start env opt)

/-! ## To the end of `main` -/

theorem living_stop (h : Living env a s) : Living env a s.stop := by
  have hfreed := h.notes (owner_freeResolv s.resolv)
  obtain ⟨tcp, stat, heq⟩ := s.stop_eq
  rw [heq]
  exact ⟨hfreed.addrlen, hfreed.fetches, hfreed.unseen, hfreed.inFlight, hfreed.closed⟩

theorem living_releaseServers (h : Living env a s) : Living env a s.releaseServers := by
  obtain ⟨os, heq, hos⟩ := s.releaseServers_eq
  rw [heq]
  refine h.notes fun o ho => ?_
  rcases hos o ho with rfl | rfl <;> rfl

theorem living_cleanUp (h : Living env a s) : Living env a (s.cleanUp env) :=
  keep_cleanUp (kept_living env a).client living_releaseServers
    (fun _ h => ⟨h.addrlen, h.fetches, h.unseen, h.inFlight, h.closed⟩) h

theorem living_teardown (h : Living env a s) (drain : List ProxyEvent) :
    Living env a (s.teardown env drain) :=
  living_cleanUp (living_events drain (living_stop h))

/-- A process that comes to the end of `main` has no fetch left. -/
theorem fetches_teardown {drain : List ProxyEvent} (h : (s.teardown env drain).running = true) :
    (s.teardown env drain).https.fetches = [] := by
  unfold teardown cleanUp at h ⊢
  generalize Runs.run (step env) s.stop drain = s' at h ⊢
  by_cases hrun : s'.running = false
  · rw [if_pos hrun] at h
    rw [hrun] at h
    cases h
  · rw [if_neg hrun] at h ⊢
    have hexited : s'.releaseServers.https.exited = false := by
      obtain ⟨os, heq, -⟩ := s'.releaseServers_eq
      rw [heq]
      simp only [running, Bool.and_eq_false_iff] at hrun
      simp_all
    rcases HttpsClient.httpsClientCleanup_spec env.lib hexited with ⟨hfetches, -⟩ | hrefused
    · exact hfetches
    · have hexit : (s'.releaseServers.https.httpsClientCleanup env.lib).exited = true := hrefused.1
      simp [running, hexit] at h

/-- The client's list tells the phase of every request. -/
theorem Living.phase (h : Living env a s) (n : ℕ) :
    ∃ phase, Lives env a n s.trace phase ∧ (s.https.nextBlock ≤ n → phase = .unseen) ∧
      ((∃ p ∈ s.https.listed, p.1 = n) → ∃ q, phase = .inFlight q) ∧
      (n < s.https.nextBlock → (¬∃ p ∈ s.https.listed, p.1 = n) → s.halted = false →
        phase = .closed) := by
  by_cases hlisted : ∃ p ∈ s.https.listed, p.1 = n
  · obtain ⟨p, hp, rfl⟩ := hlisted
    obtain ⟨q, -, hlife⟩ := h.inFlight p hp
    have hlt := h.fetches.listed_lt hp
    exact ⟨_, hlife, fun hge => absurd hlt (Nat.not_lt.2 hge), fun _ => ⟨q, rfl⟩,
      fun _ hnot => absurd ⟨p, hp, rfl⟩ hnot⟩
  · rcases Nat.lt_or_ge n s.https.nextBlock with hlt | hge
    · obtain ⟨phase, hlife, hphase⟩ := h.closed n hlt fun p hp heq => hlisted ⟨p, hp, heq⟩
      exact ⟨phase, hlife, fun hge => absurd hlt (Nat.not_lt.2 hge), fun hin => absurd hin hlisted,
        fun _ _ => hphase⟩
    · exact ⟨_, h.unseen n hge, fun _ => rfl, fun hin => absurd hin hlisted,
        fun hlt => absurd hlt (Nat.not_lt.2 hge)⟩

/-- At the end of `main` every request is closed. -/
theorem lives_teardown (h : Living env a s) {drain : List ProxyEvent}
    (hrun : (s.teardown env drain).running = true) (n : ℕ) :
    Lives env a n (s.teardown env drain).trace
      (if n < (s.teardown env drain).https.nextBlock then .closed else .unseen) := by
  obtain ⟨phase, hlife, hunseen, -, hclosed⟩ := (living_teardown h drain).phase n
  have hempty := fetches_teardown hrun
  have hhalted : (s.teardown env drain).halted = false := by
    simp only [running, Bool.and_eq_true, Bool.not_eq_true'] at hrun
    exact hrun.1
  split_ifs with hlt
  · rw [← hclosed hlt (by simp [HttpsClient.listed, hempty]) hhalted]
    exact hlife
  · rw [← hunseen (Nat.le_of_not_lt hlt)]
    exact hlife

end Proxy

/-- Every run of the proxy is, for every request, the life of a request. Up to the break of the
loop a request that has no number yet has not been seen, one whose fetch is in the client's
list is in flight, and if no callback hangs every other one is closed. When `main` has come to
its end, all requests that were accepted are closed. -/
theorem requestLives (env : Environment) (opt : Options) (es drain : List ProxyEvent) (n : ℕ) :
    let s := Proxy.run env opt es
    let ended := s.teardown env drain
    (∃ phase, Lives env opt.addrlen n s.trace phase ∧
        (s.https.nextBlock ≤ n → phase = .unseen) ∧
        ((∃ p ∈ s.https.listed, p.1 = n) → ∃ q, phase = .inFlight q) ∧
        (n < s.https.nextBlock → (¬∃ p ∈ s.https.listed, p.1 = n) → s.halted = false →
          phase = .closed)) ∧
      (ended.running = true → Lives env opt.addrlen n ended.trace
        (if n < ended.https.nextBlock then .closed else .unseen)) :=
  ⟨(Proxy.living_run env opt es).phase n,
    fun hrun => Proxy.lives_teardown (Proxy.living_run env opt es) hrun n⟩

/-- Two requests, one answered before the loop is broken and one aborted behind it. -/
theorem requestLives_two :
    let s := Proxy.run (answering headerOnly) ⟨false, 0, 4, none⟩
      [.udp (.datagram headerOnly [10, 0, 0, 1]), .udp (.datagram headerOnly [10, 0, 0, 2]),
        .timer [.done 0 .ok goodInfo]]
    Lives (answering headerOnly) 4 1 (s.teardown (answering headerOnly) []).trace .closed :=
  (requestLives (answering headerOnly) ⟨false, 0, 4, none⟩
    [.udp (.datagram headerOnly [10, 0, 0, 1]), .udp (.datagram headerOnly [10, 0, 0, 2]),
      .timer [.done 0 .ok goodInfo]] [] 1).2 rfl

end HttpsDnsProxy
