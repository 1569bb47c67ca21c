import HttpsDnsProxy.Connections
import HttpsDnsProxy.Requests
import Mathlib.Algebra.BigOperators.Group.List.Basic

/-!
# What is counted

`requestsIn` and `responsesIn` read the requests handed to `https_client_fetch` and the responses
worth passing on off a trace, and the effects of the client tell the connections. So
`StatField.expected` says what a counter is to come to.

The counters change as requests are taken on and effects of the client are carried out.
`StatField.addedBy` says by how much, and `Proxy.total_carryOut` that this is added to the
totals. For the callback of a fetch it is what the end of its transfer adds to what is expected
(`StatField.expected_ended`).
-/

namespace HttpsDnsProxy

open Bytes

/-! ## What is to be counted -/

namespace Observation

/-- The request handed to `https_client_fetch`, if it came by the transport. -/
def request (isTcp : Bool) : Observation → Option (List UInt8)
  | .accepted _ isTcp' _ _ dnsReq => if isTcp' = isTcp then some dnsReq else none
  | _ => none

/-- It is the arrival of the request `n` by the transport, with the identifier of `body`. -/
def asks (isTcp : Bool) (n : ℕ) (body : List UInt8) : Observation → Bool
  | .accepted m isTcp' _ _ dnsReq =>
    m = n ∧ isTcp' = isTcp ∧
      be16 (dnsReq.getD 0 0) (dnsReq.getD 1 0) = be16 (body.getD 0 0) (body.getD 1 0)
  | _ => false

/-- The response of a transfer that was not faulty, if it has a header and is for a request of
the transport in `t` with its identifier. -/
def response (isTcp : Bool) (t : List Observation) : Observation → Option (List UInt8)
  | .ended n result info (some body) =>
    if faultyResponse result info = false ∧ dnsHeaderLength ≤ body.length ∧
        t.any (asks isTcp n body) = true then some body else none
  | _ => none

/-- It is neither the arrival of a request nor the end of a transfer. -/
def isIdle : Observation → Bool
  | .accepted .. | .ended .. => false
  | _ => true

end Observation

/-- The requests that came by the transport. -/
def requestsIn (isTcp : Bool) (t : List Observation) : List (List UInt8) :=
  t.filterMap (Observation.request isTcp)

/-- The responses to them. -/
def responsesIn (isTcp : Bool) (t : List Observation) : List (List UInt8) :=
  t.filterMap (Observation.response isTcp t)

namespace StatField

/-- It is not about connections. -/
def isTraffic : StatField → Bool
  | .connectionsOpened | .connectionsClosed => false
  | _ => true

/-- What the trace `t` and the effects `es` of the client give for a counter. -/
def expected (t : List Observation) (es : List (HttpsEffect Request)) : StatField → ℕ
  | .requests isTcp => (requestsIn isTcp t).length
  | .requestsSize isTcp => ((requestsIn isTcp t).map List.length).sum
  | .responses isTcp => (responsesIn isTcp t).length
  | .responsesSize isTcp => ((responsesIn isTcp t).map List.length).sum
  | .connectionsOpened => es.countP HttpsEffect.isOpened
  | .connectionsClosed => es.countP HttpsEffect.isClosed

/-- What an effect of the client adds to a counter. -/
def addedBy (f : StatField) : HttpsEffect Request → ℕ
  | .call _ req (some body) =>
    if dnsHeaderLength ≤ body.length ∧ req.txId = be16 (body.getD 0 0) (body.getD 1 0) ∧
        req.stat = true then
      f.added (.requestEnd body.length 0 req.isTcp)
    else 0
  | .connectionOpened => f.added .connectionOpened
  | .connectionClosed => f.added .connectionClosed
  | _ => 0

@[simp] theorem addedBy_ended (f : StatField) (n : ℕ) (result : CurlCode) (info : TransferInfo)
    (body : Option (List UInt8)) : f.addedBy (.ended n result info body) = 0 := rfl

/-- Only a callback adds to the counters of a transport. -/
theorem addedBy_connection {f : StatField} (hf : f.isTraffic = true) {e : HttpsEffect Request}
    (he : e.isConnection = true) : f.addedBy e = 0 := by
  cases e with
  | connectionOpened | connectionClosed | connectionReused => cases f <;> first | rfl | cases hf
  | started | ended | call => cases he

theorem sum_connection {f : StatField} (hf : f.isTraffic = true)
    {es : List (HttpsEffect Request)} (hes : ∀ e ∈ es, e.isConnection = true) :
    (es.map f.addedBy).sum = 0 := by
  refine List.sum_eq_zero fun n hn => ?_
  obtain ⟨e, he, rfl⟩ := List.mem_map.1 hn
  exact addedBy_connection hf (hes e he)

/-- The counters of connections follow the effects. -/
theorem expected_eq_sum {f : StatField} (hf : f.isTraffic = false) (t : List Observation) :
    ∀ es : List (HttpsEffect Request), f.expected t es = (es.map f.addedBy).sum
  | [] => by cases f <;> first | rfl | cases hf
  | e :: es => by
    have hcons : f.expected t (e :: es) = f.expected t es + f.addedBy e := by
      cases f with
      | connectionsOpened | connectionsClosed =>
        rw [expected, List.countP_cons]
        cases e with
        | call n req buf => cases buf <;> simp [HttpsEffect.isOpened, HttpsEffect.isClosed,
            expected, addedBy, added]
        | _ => rfl
      | requests | requestsSize | responses | responsesSize => cases hf
    rw [hcons, expected_eq_sum hf t es, List.map_cons, List.sum_cons, Nat.add_comm]

theorem expected_effects {f : StatField} (hf : f.isTraffic = false) (t t' : List Observation)
    (es es' : List (HttpsEffect Request)) :
    f.expected t' (es ++ es') = f.expected t es + (es'.map f.addedBy).sum := by
  rw [expected_eq_sum hf, expected_eq_sum hf, List.map_append, List.sum_append]

theorem expected_congr_effects {f : StatField} (hf : f.isTraffic = true) (t : List Observation)
    (es es' : List (HttpsEffect Request)) : f.expected t es = f.expected t es' := by
  cases f <;> first | rfl | cases hf

end StatField

/-! ## Growing the trace -/

section Trace

variable {isTcp : Bool} {t os : List Observation} {n : ℕ}

theorem any_asks_append (hos : ∀ o ∈ os, ∀ n, o.accepts n = false) (n : ℕ) (body : List UInt8) :
    (t ++ os).any (Observation.asks isTcp n body) = t.any (Observation.asks isTcp n body) := by
  have hnone : os.any (Observation.asks isTcp n body) = false := by
    refine List.any_eq_false.2 fun o ho => ?_
    have h := hos o ho
    cases o <;> simp [Observation.asks, Observation.accepts] at h ⊢
  rw [List.any_append, hnone, Bool.or_false]

/-- Where no request arrives, the responses known stay as they are. -/
theorem responsesIn_append (hos : ∀ o ∈ os, ∀ n, o.accepts n = false) :
    responsesIn isTcp (t ++ os) =
      responsesIn isTcp t ++ os.filterMap (Observation.response isTcp t) := by
  have hresponse : Observation.response isTcp (t ++ os) = Observation.response isTcp t := by
    funext o
    cases o with
    | ended n result info body =>
      cases body with
      | none => rfl
      | some body => simp only [Observation.response, any_asks_append hos]
    | _ => rfl
  rw [responsesIn, hresponse, List.filterMap_append]
  rfl

theorem responsesIn_ended (n : ℕ) (result : CurlCode) (info : TransferInfo)
    (buf : Option (List UInt8)) :
    responsesIn isTcp (t ++ [.ended n result info buf]) = responsesIn isTcp t ++
      (Observation.response isTcp t (.ended n result info buf)).toList := by
  rw [responsesIn_append (by simp [Observation.accepts])]
  cases h : Observation.response isTcp t (.ended n result info buf) <;> simp [h]

/-- A new request is not the one a response known is for. -/
theorem responsesIn_accepted {origin : Option ℕ} {raddr : SockAddr} {dnsReq : List UInt8}
    (isTcp' : Bool) (hn : ∀ m result info body, .ended m result info body ∈ t → m < n) :
    responsesIn isTcp (t ++ [.accepted n isTcp' origin raddr dnsReq]) = responsesIn isTcp t := by
  have hresponse : ∀ o ∈ t, o.response isTcp (t ++ [.accepted n isTcp' origin raddr dnsReq]) =
      o.response isTcp t := by
    intro o ho
    cases o with
    | ended m result info body =>
      have hne : n ≠ m := Nat.ne_of_gt (hn m result info body ho)
      cases body with
      | none => rfl
      | some body => simp [Observation.response, Observation.asks, hne]
    | _ => rfl
  rw [responsesIn, List.filterMap_append, List.filterMap_congr hresponse]
  exact List.append_nil _

theorem accepts_of_isIdle {o : Observation} (h : o.isIdle = true) (n : ℕ) :
    o.accepts n = false := by
  cases o <;> first | rfl | cases h

theorem requestsIn_idle (hos : ∀ o ∈ os, o.isIdle = true) :
    requestsIn isTcp (t ++ os) = requestsIn isTcp t := by
  have hnone : os.filterMap (Observation.request isTcp) = [] := by
    refine List.filterMap_eq_nil_iff.2 fun o ho => ?_
    have h := hos o ho
    cases o <;> first | rfl | cases h
  rw [requestsIn, List.filterMap_append, hnone, List.append_nil]
  rfl

theorem responsesIn_idle (hos : ∀ o ∈ os, o.isIdle = true) :
    responsesIn isTcp (t ++ os) = responsesIn isTcp t := by
  have hnone : os.filterMap (Observation.response isTcp t) = [] := by
    refine List.filterMap_eq_nil_iff.2 fun o ho => ?_
    have h := hos o ho
    cases o <;> first | rfl | cases h
  rw [responsesIn_append fun o ho => accepts_of_isIdle (hos o ho), hnone, List.append_nil]

/-- The owner of a fetch is the only request its response can be for. -/
theorem Owned.any_asks {a : ℕ} {p : ℕ × Request} {origin : Option ℕ} {source : SockAddr}
    (h : Owned a t p origin source) (isTcp : Bool) (body : List UInt8) :
    t.any (Observation.asks isTcp p.1 body) = true ↔
      p.2.isTcp = isTcp ∧ p.2.txId = be16 (body.getD 0 0) (body.getD 1 0) := by
  have hfilter : t.any (Observation.asks isTcp p.1 body) =
      (t.filter (Observation.accepts p.1)).any (Observation.asks isTcp p.1 body) := by
    rw [List.any_filter]
    congr 1
    funext o
    cases o <;> simp [Observation.asks, Observation.accepts]
  rw [hfilter, h.accepted, h.txId]
  simp [Observation.asks]

end Trace

namespace StatField

variable {f : StatField} {t os : List Observation} {es : List (HttpsEffect Request)} {n : ℕ}

theorem expected_idle (hos : ∀ o ∈ os, o.isIdle = true) :
    f.expected (t ++ os) es = f.expected t es := by
  cases f <;> simp only [expected, requestsIn_idle hos, responsesIn_idle hos]

/-- A request that arrives is to be counted. -/
theorem expected_accepted {isTcp : Bool} {origin : Option ℕ} {raddr : SockAddr}
    {dnsReq : List UInt8} (hn : ∀ m result info body, .ended m result info body ∈ t → m < n) :
    f.expected (t ++ [.accepted n isTcp origin raddr dnsReq]) es =
      f.expected t es + f.added (.requestBegin dnsReq.length isTcp) := by
  cases f with
  | requests isTcp' | requestsSize isTcp' =>
    by_cases hby : isTcp = isTcp' <;>
      simp [expected, requestsIn, Observation.request, added, hby]
  | responses isTcp' | responsesSize isTcp' =>
    simp only [expected, responsesIn_accepted isTcp hn, added, Nat.add_zero]
  | connectionsOpened | connectionsClosed => rfl

/-- The end of a transfer is to be counted as its callback counts it. -/
theorem expected_ended {a : ℕ} {p : ℕ × Request} {origin : Option ℕ} {source : SockAddr}
    (h : Owned a t p origin source) (hstat : p.2.stat = true) (result : CurlCode)
    (info : TransferInfo) (buf : Option (List UInt8)) (hf : f.isTraffic = true) :
    f.expected (t ++ [.ended p.1 result info buf]) es = f.expected t es +
      f.addedBy (.call p.1 p.2 (if faultyResponse result info then none else buf)) := by
  cases f with
  | requests isTcp' | requestsSize isTcp' =>
    have hrequests : requestsIn isTcp' (t ++ [.ended p.1 result info buf]) =
        requestsIn isTcp' t := List.filterMap_append.trans (List.append_nil _)
    cases faultyResponse result info <;> cases buf <;>
      simp [expected, hrequests, addedBy, added]
  | responses isTcp' | responsesSize isTcp' =>
    simp only [expected, responsesIn_ended]
    cases hfaulty : faultyResponse result info with
    | true => cases buf <;> simp [Observation.response, addedBy, hfaulty]
    | false =>
      cases buf with
      | none => simp [Observation.response, addedBy]
      | some body =>
        by_cases hlen : dnsHeaderLength ≤ body.length
        · have hne : body ≠ [] := by
            rintro rfl
            cases hlen
          by_cases hid : p.2.txId = be16 (body.getD 0 0) (body.getD 1 0) <;>
            by_cases htcp : p.2.isTcp = isTcp' <;>
            simp_all [Observation.response, addedBy, added, h.any_asks]
        · simp [Observation.response, addedBy, hlen]
  | connectionsOpened | connectionsClosed => cases hf

end StatField

/-! ## What the proxy counts -/

namespace Proxy

variable {env : Environment} {s : Proxy} {c : HttpsClient Request} {f : StatField}

/-- The total of a counter, 0 without statistics. -/
def total (s : Proxy) (f : StatField) : ℕ :=
  (s.stat.map fun stat => stat.total f).getD 0

theorem isSome_count (g : Counters → Counters) : (s.count g).stat.isSome = s.stat.isSome :=
  Option.isSome_map

theorem total_count (h : s.stat.isSome = true) (call : StatCall) :
    (s.count call.apply).total f ≡ s.total f + f.added call [MOD 2 ^ 64] := by
  obtain ⟨stat, hstat⟩ := Option.isSome_iff_exists.1 h
  simpa [total, count, hstat] using stat.total_count f call

theorem stat_udpRespond (n : ℕ) (req : Request) (body : List UInt8) :
    (s.udpRespond env n req body).stat = s.stat := by
  unfold udpRespond
  cases dnsServerRespond env.ares env.aresRounds req.dnsReq body <;> rfl

/-- A response callback counts a response with a header and the identifier of its request. -/
theorem stat_respond (env : Environment) (s : Proxy) (n : ℕ) (req : Request) (body : List UInt8) :
    ∃ latencyMs, (s.respond env n req (some body)).stat =
      if dnsHeaderLength ≤ body.length ∧ req.txId = be16 (body.getD 0 0) (body.getD 1 0) ∧
          req.stat = true then
        (s.count (StatCall.requestEnd body.length latencyMs req.isTcp).apply).stat
      else s.stat := by
  simp only [respond]
  by_cases hlen : body.length < dnsHeaderLength
  · exact ⟨0, by rw [if_pos hlen, if_neg fun h => Nat.not_lt.2 h.1 hlen]⟩
  by_cases hid : req.txId ≠ be16 (body.getD 0 0) (body.getD 1 0)
  · exact ⟨0, by rw [if_neg hlen, if_pos hid, if_neg fun h => hid h.2.1]⟩
  have hsent : (if req.isTcp then s.tcpRespond env n req body
      else s.udpRespond env n req body).stat = s.stat := by
    split_ifs
    · rfl
    · exact stat_udpRespond n req body
  by_cases hstat : req.stat = true
  · have hcounted := And.intro (Nat.not_lt.1 hlen) (And.intro (not_not.1 hid) hstat)
    simp only [if_neg hlen, if_neg hid, if_pos hstat, if_pos hcounted, count, hsent]
    exact ⟨_, rfl⟩
  · have hskip : ¬(dnsHeaderLength ≤ body.length ∧
        req.txId = be16 (body.getD 0 0) (body.getD 1 0) ∧ req.stat = true) := fun h => hstat h.2.2
    exact ⟨0, by simp only [if_neg hlen, if_neg hid, if_neg hstat, if_neg hskip, hsent]⟩

theorem stat_httpsRespCb (n : ℕ) (req : Request) (buf : Option (List UInt8)) :
    (s.httpsRespCb env n req buf).stat = ((s.note (.callback n)).respond env n req buf).stat := by
  unfold httpsRespCb
  simp only
  split_ifs <;> rfl

/-- What carrying out an effect counts : nothing, or what one call counts. -/
theorem stat_carryOut (env : Environment) (hrun : s.halted = false) (e : HttpsEffect Request) :
    ((s.carryOut env e).stat = s.stat ∧ ∀ f : StatField, f.addedBy e = 0) ∨
      ∃ call : StatCall, (s.carryOut env e).stat = (s.count call.apply).stat ∧
        ∀ f : StatField, f.addedBy e = f.added call := by
  unfold carryOut
  rw [if_neg (by simp [hrun])]
  cases e with
  | started | ended => exact Or.inl ⟨rfl, fun _ => rfl⟩
  | connectionOpened => exact Or.inr ⟨.connectionOpened, rfl, fun _ => rfl⟩
  | connectionClosed => exact Or.inr ⟨.connectionClosed, rfl, fun _ => rfl⟩
  | connectionReused => exact Or.inr ⟨.connectionReused, rfl, fun f => by cases f <;> rfl⟩
  | call n req buf =>
    simp only [stat_httpsRespCb]
    cases buf with
    | none => exact Or.inl ⟨rfl, fun _ => rfl⟩
    | some body =>
      obtain ⟨latencyMs, hstat⟩ := stat_respond env (s.note (.callback n)) n req body
      rw [hstat]
      split_ifs with h
      · refine Or.inr ⟨.requestEnd body.length latencyMs req.isTcp, rfl, fun f => ?_⟩
        rw [StatField.addedBy, if_pos h]
        cases f <;> rfl
      · exact Or.inl ⟨rfl, fun f => if_neg h⟩

/-- Carrying out an effect adds to the totals what the effect counts. -/
theorem total_carryOut (env : Environment) (hrun : s.halted = false) (h : s.stat.isSome = true)
    (e : HttpsEffect Request) : (s.carryOut env e).stat.isSome = true ∧
      ∀ f : StatField, (s.carryOut env e).total f ≡ s.total f + f.addedBy e [MOD 2 ^ 64] := by
  rcases stat_carryOut env hrun e with ⟨hstat, hadded⟩ | ⟨call, hstat, hadded⟩
  · refine ⟨by rw [hstat]; exact h, fun f => ?_⟩
    rw [total, hstat, hadded]
    rfl
  · refine ⟨by rw [hstat, isSome_count]; exact h, fun f => ?_⟩
    rw [total, hstat, hadded]
    exact total_count h call

/-- Counting connections adds them to the totals. -/
theorem total_connections (env : Environment) :
    ∀ (es : List (HttpsEffect Request)) (s : Proxy), (∀ e ∈ es, e.isConnection = true) →
      s.halted = false → s.stat.isSome = true →
      ∃ stat, es.foldl (carryOut env) s = { s with stat := stat } ∧ stat.isSome = true ∧
        ∀ f : StatField, ({ s with stat := stat } : Proxy).total f ≡
          s.total f + (es.map f.addedBy).sum [MOD 2 ^ 64]
  | [], s, _, _, h => ⟨s.stat, rfl, h, fun _ => rfl⟩
  | e :: es, s, hes, hrun, h => by
    obtain ⟨stat, hone⟩ := carryOut_connection env s (hes e (List.mem_cons_self ..))
    obtain ⟨hsome, htotal⟩ := total_carryOut env hrun h e
    rw [hone] at hsome htotal
    obtain ⟨stat', hrest, hsome', htotal'⟩ := total_connections env es { s with stat := stat }
      (fun e' he' => hes e' (List.mem_cons_of_mem _ he')) hrun hsome
    refine ⟨stat', by rw [List.foldl_cons, hone, hrest], hsome', fun f => ?_⟩
    rw [List.map_cons, List.sum_cons, ← Nat.add_assoc]
    exact (htotal' f).trans ((htotal f).add_right _)

/-- A callback adds nothing to the trace that is to be counted. -/
theorem trace_call (env : Environment) (s : Proxy) (n : ℕ) (req : Request)
    (buf : Option (List UInt8)) : ∃ os, (∀ o ∈ os, o.isIdle = true) ∧
      (s.carryOut env (.call n req buf)).trace = s.trace ++ os := by
  unfold carryOut
  split_ifs
  · exact ⟨[], by simp, (List.append_nil _).symm⟩
  · obtain ⟨replies, d, stat, halted, freed, hreply, hfreed, heq⟩ :=
      httpsRespCb_spec env s n req buf
    refine ⟨.callback n :: (replies ++ freed), fun o ho => ?_, by simp only [heq]⟩
    rw [List.mem_cons, List.mem_append] at ho
    rcases ho with rfl | ho | ho
    · rfl
    · cases hreply with
      | none => cases ho
      | udp | tcp => rw [List.mem_singleton.1 ho]; rfl
    · rcases hfreed with rfl | rfl
      · cases ho
      · rcases List.mem_pair.1 ho with rfl | rfl <;> rfl

/-! ## The end of a fetch -/

namespace Ends

variable {ctx : HttpsFetchCtx Request} {ends t : List Observation} {buf : Option (List UInt8)}
  {a : ℕ} {origin : Option ℕ} {source : SockAddr}

/-- What the end of a fetch is to be counted for is what its callback counts. -/
theorem expected (hends : Ends ctx ends buf) (hown : Owned a t ctx.key origin source)
    (hstat : ctx.cbData.stat = true) (hf : f.isTraffic = true) (es : List (HttpsEffect Request)) :
    f.expected (t ++ ends) es = f.expected t es +
      f.addedBy (.call ctx.block ctx.cbData buf) := by
  cases hends with
  | aborted => rw [List.append_nil]; rfl
  | done result info => exact StatField.expected_ended hown hstat result info ctx.buf hf

theorem block_of_mem (hends : Ends ctx ends buf) {n : ℕ} {result : CurlCode} {info : TransferInfo}
    {body : Option (List UInt8)} (h : .ended n result info body ∈ ends) : n = ctx.block := by
  cases hends with
  | aborted => cases h
  | done => exact (Observation.ended.inj (List.mem_singleton.1 h)).1

/-- It brings one response at most, to the transport of its request. -/
theorem responses_le (hends : Ends ctx ends buf) (hown : Owned a t ctx.key origin source)
    (isTcp : Bool) : (responsesIn isTcp (t ++ ends)).length ≤
      (responsesIn isTcp t).length + if ctx.cbData.isTcp == isTcp then 1 else 0 := by
  cases hends with
  | aborted => simp
  | done result info =>
    rw [responsesIn_ended, List.length_append]
    refine Nat.add_le_add_left ?_ _
    cases hbuf : ctx.buf with
    | none => simp [Observation.response]
    | some body =>
      have hasks := hown.any_asks isTcp body
      by_cases htcp : ctx.cbData.isTcp = isTcp
      · simp only [htcp, beq_self_eq_true, if_true]
        exact Option.length_toList_le
      · have hnone : t.any (Observation.asks isTcp ctx.block body) = false := by
          rw [← Bool.not_eq_true]
          exact fun hany => htcp (hasks.1 hany).1
        simp [Observation.response, hnone]

theorem requestsIn (hends : Ends ctx ends buf) (t : List Observation) (isTcp : Bool) :
    requestsIn isTcp (t ++ ends) = HttpsDnsProxy.requestsIn isTcp t := by
  cases hends with
  | aborted => rw [List.append_nil]
  | done => exact List.filterMap_append.trans (List.append_nil _)

end Ends

end Proxy

end HttpsDnsProxy
