import HttpsDnsProxy.Recovery

/-!
# Response bodies

libcurl brings the body of a response in pieces, over any number of events, and `write_buffer`
appends them until `DOH_MAX_RESPONSE_SIZE`. A piece that does not fit is refused and the pieces
before it stay in the buffer; libcurl then ends the transfer with `CURLE_WRITE_ERROR`, and
`https_fetch_ctx_process_response` calls the response faulty.

`chunks` are the pieces that a run has passed to `write_buffer` for a fetch, and `outcome` is how
its transfer has ended.

* `refused_iff` : a piece is refused exactly if the whole body is too long;
* `bodies_run` : the buffer of a fetch is made of its pieces, and its callback gets the buffer or
  NULL by the outcome.

`bodies_iff` : the callback gets the whole body or NULL, as the outcome says, unless the content
type of a response could not be looked up. That lookup failing does not count as a fault.
-/

namespace HttpsDnsProxy

variable {ρ : Type*}

/-! ## Pieces -/

/-- A piece of a body, with whether its `realloc` succeeds. -/
abbrev Chunk := List UInt8 × Bool

/-- `write_buffer` on the buffer alone : the size it returns and the buffer after it. -/
def writeChunk (buf : Option (List UInt8)) (p : Chunk) : ℕ × Option (List UInt8) :=
  if (buf.getD []).length + p.1.length > dohMaxResponseSize then (0, buf)
  else if p.2 = false then (0, buf)
  else (p.1.length, some (buf.getD [] ++ p.1))

/-- The buffer after some pieces. -/
def bufferOf (buf : Option (List UInt8)) (ps : List Chunk) : Option (List UInt8) :=
  ps.foldl (fun buf p => (writeChunk buf p).2) buf

/-- `write_buffer` returns another size than that of the piece for some piece. -/
def refused : Option (List UInt8) → List Chunk → Bool
  | _, [] => false
  | buf, p :: ps => (writeChunk buf p).1 ≠ p.1.length || refused (writeChunk buf p).2 ps

/-- The body that the pieces are of. -/
def bodyOf (ps : List Chunk) : List UInt8 :=
  (ps.map Prod.fst).flatten

theorem writeBuffer_eq_writeChunk (ctx : HttpsFetchCtx ρ) (chunk : List UInt8) (realloc : Bool) :
    ctx.writeBuffer chunk realloc = ((writeChunk ctx.buf (chunk, realloc)).1,
      { ctx with buf := (writeChunk ctx.buf (chunk, realloc)).2 }) := by
  unfold HttpsFetchCtx.writeBuffer writeChunk
  simp only
  split_ifs <;> rfl

theorem bufferOf_cons (buf : Option (List UInt8)) (p : Chunk) (ps : List Chunk) :
    bufferOf buf (p :: ps) = bufferOf (writeChunk buf p).2 ps := rfl

theorem bufferOf_append (buf : Option (List UInt8)) (ps qs : List Chunk) :
    bufferOf buf (ps ++ qs) = bufferOf (bufferOf buf ps) qs :=
  List.foldl_append

/-- The buffer never holds more than `DOH_MAX_RESPONSE_SIZE` bytes. -/
theorem length_bufferOf_le : ∀ (ps : List Chunk) {buf : Option (List UInt8)},
    (buf.getD []).length ≤ dohMaxResponseSize →
    ((bufferOf buf ps).getD []).length ≤ dohMaxResponseSize
  | [], _, h => h
  | p :: ps, buf, h => by
    rw [bufferOf_cons]
    refine length_bufferOf_le ps ?_
    unfold writeChunk
    split_ifs with hlong
    · exact h
    · exact h
    · simpa using Nat.le_of_not_lt hlong

/-- A piece is refused exactly if they are too long together, and if none is, all are in the
buffer. -/
theorem refused_iff : ∀ (ps : List Chunk) {buf : Option (List UInt8)},
    (∀ p ∈ ps, p.2 = true) → (buf.getD []).length ≤ dohMaxResponseSize →
    (refused buf ps = true ↔ dohMaxResponseSize < (buf.getD []).length + (bodyOf ps).length) ∧
      (refused buf ps = false → (bufferOf buf ps).getD [] = buf.getD [] ++ bodyOf ps)
  | [], buf, _, h => by simp [refused, bufferOf, bodyOf, h]
  | p :: ps, buf, halloc, h => by
    have hp : p.2 = true := halloc p List.mem_cons_self
    have hbody : bodyOf (p :: ps) = p.1 ++ bodyOf ps := by simp [bodyOf]
    rw [hbody, List.length_append]
    by_cases hlong : (buf.getD []).length + p.1.length > dohMaxResponseSize
    · have hwrite : writeChunk buf p = (0, buf) := if_pos hlong
      have hne : (0 : ℕ) ≠ p.1.length := by omega
      have hrefused : refused buf (p :: ps) = true := by simp [refused, hwrite, hne]
      refine ⟨iff_of_true hrefused (by omega), fun hf => ?_⟩
      rw [hrefused] at hf
      cases hf
    · have hwrite : writeChunk buf p = (p.1.length, some (buf.getD [] ++ p.1)) := by
        rw [writeChunk, if_neg hlong, if_neg (by simp [hp])]
      have hrefused : refused buf (p :: ps) = refused (some (buf.getD [] ++ p.1)) ps := by
        simp [refused, hwrite]
      have hnext : ((some (buf.getD [] ++ p.1)).getD []).length ≤ dohMaxResponseSize := by
        simpa using Nat.le_of_not_lt hlong
      obtain ⟨hiff, hall⟩ := refused_iff ps (fun q hq => halloc q (List.mem_cons_of_mem _ hq)) hnext
      rw [hrefused, bufferOf_cons, hwrite]
      simp only [Option.getD_some, List.length_append, Nat.add_assoc] at hiff hall
      refine ⟨hiff, fun hf => ?_⟩
      rw [hall hf, List.append_assoc]

/-- A buffer that pieces were written to is not NULL. -/
theorem bufferOf_isSome : ∀ (ps : List Chunk) {buf : Option (List UInt8)}, buf.isSome →
    (bufferOf buf ps).isSome
  | [], _, h => h
  | p :: ps, buf, h => by
    rw [bufferOf_cons]
    refine bufferOf_isSome ps ?_
    unfold writeChunk
    split_ifs
    · exact h
    · exact h
    · rfl

/-- Without a refusal the buffer is NULL only if there was no piece. -/
theorem bufferOf_eq_none_iff {ps : List Chunk} (halloc : ∀ p ∈ ps, p.2 = true)
    (hrefused : refused none ps = false) : bufferOf none ps = none ↔ ps = [] := by
  cases ps with
  | nil => simp [bufferOf]
  | cons p ps =>
    have hp : p.2 = true := halloc p List.mem_cons_self
    have hfits : ¬((none : Option (List UInt8)).getD []).length + p.1.length >
        dohMaxResponseSize := by
      intro hlong
      have hwrite : writeChunk none p = (0, none) := if_pos hlong
      have hne : (0 : ℕ) ≠ p.1.length := by
        simp only [Option.getD_none, List.length_nil, Nat.zero_add] at hlong
        omega
      simp [refused, hwrite, hne] at hrefused
    have hwrite : (writeChunk none p).2.isSome := by
      rw [writeChunk, if_neg hfits, if_neg (by simp [hp])]
      rfl
    have hsome := bufferOf_isSome ps hwrite
    refine iff_of_false (fun hnone => ?_) (List.cons_ne_nil _ _)
    rw [bufferOf_cons] at hnone
    rw [hnone] at hsome
    cases hsome

/-! ## Outcomes -/

/-- The result and the information of the transfer of `b`, if an effect says that it has ended. -/
def HttpsEffect.outcome (b : ℕ) : HttpsEffect ρ → Option (CurlCode × TransferInfo)
  | .ended block result info _ => if block = b then some (result, info) else none
  | _ => none

theorem HttpsEffect.outcome_connection (b : ℕ) :
    ∀ e : HttpsEffect ρ, e.isConnection = true → e.outcome b = none
  | .connectionOpened, _ | .connectionClosed, _ | .connectionReused, _ => rfl

/-- What the callback gets for the pieces of a body : NULL for a request that is aborted or whose
response is faulty. -/
def receivedBody : Option (CurlCode × TransferInfo) → List Chunk → Option (List UInt8)
  | none, _ => none
  | some (result, info), ps => if faultyResponse result info then none else bufferOf none ps

/-- A response is not faulty if the transfer has ended well, with status 200 and the content type
of DNS messages, or one that could not be looked up. -/
theorem faultyResponse_eq_false_iff {result : CurlCode} {info : TransferInfo} :
    faultyResponse result info = false ↔
      result = .ok ∧ info.responseCode = some 200 ∧
        (info.contentType = none ∨
          ∃ t, info.contentType = some (some t) ∧ dohContentType <+: t) := by
  constructor
  · intro h
    obtain ⟨hok, hcode, htype⟩ := of_faultyResponse h
    refine ⟨hok, hcode, ?_⟩
    cases hc : info.contentType with
    | none => exact Or.inl rfl
    | some contentType =>
      obtain ⟨t, rfl, ht⟩ := htype contentType hc
      exact Or.inr ⟨t, rfl, ht⟩
  · rintro ⟨rfl, hcode, htype | ⟨t, htype, ht⟩⟩
    · simp [faultyResponse, hcode, htype]
    · simpa [faultyResponse, hcode, htype] using ht

namespace HttpsClient

/-- How the transfer of `b` has ended, if it has. -/
def outcome (c : HttpsClient ρ) (b : ℕ) : Option (CurlCode × TransferInfo) :=
  c.effects.findSome? (HttpsEffect.outcome b)

/-- The blocks of the fetches in the list. -/
def blocks (c : HttpsClient ρ) : List ℕ :=
  c.fetches.map HttpsFetchCtx.block

end HttpsClient

/-- The piece that a callback passes to `write_buffer` for the handle `b`. -/
def TransferCallback.chunk (b : ℕ) : TransferCallback → Option Chunk
  | .write curl chunk realloc => if curl = b then some (chunk, realloc) else none
  | .socket _ => none

/-- The pieces that an event brings for the fetch `b`, if it is in the list. -/
def HttpsClient.chunksIn (lib : Libcurl) (b : ℕ) (c : HttpsClient ρ) (e : HttpsEvent ρ) :
    List Chunk :=
  if (c.acted lib e).isSome ∧ b ∈ c.blocks then
    (lib.socketAction c.calls).callbacks.filterMap (TransferCallback.chunk b)
  else []

/-- The pieces that a run brings for the fetch `b`. -/
def HttpsClient.chunks (lib : Libcurl) (stat : Bool) (es : List (HttpsEvent ρ)) (b : ℕ) :
    List Chunk :=
  Runs.collect (step lib) (chunksIn lib b) (httpsClientInit lib stat) es

/-! ## The buffers over a run -/

namespace HttpsClient

/-- The buffers are made of the pieces `hist`, and each callback that has run has got the buffer or
NULL. -/
structure Bodied (hist : ℕ → List Chunk) (c : HttpsClient ρ) : Prop where
  account : Fetches c
  curl : ∀ ctx ∈ c.fetches, ctx.curl = ctx.block
  buf : ∀ ctx ∈ c.fetches, ctx.buf = bufferOf none (hist ctx.block)
  fresh : ∀ b, c.nextBlock ≤ b → hist b = []
  ended : ∀ b, c.outcome b ≠ none → b ∈ c.called.map Prod.fst
  calls : ∀ b data buf, .call b data buf ∈ c.effects → buf = receivedBody (c.outcome b) (hist b)

theorem Fetches.block_notMem_called {c : HttpsClient ρ} (h : Fetches c) {b : ℕ}
    (hb : b ∈ c.blocks) : b ∉ c.called.map Prod.fst := by
  have hnodup := (h.perm.map Prod.fst).nodup_iff.2 h.nodup
  rw [List.map_append, listed, List.map_map] at hnodup
  exact fun hc => List.disjoint_of_nodup_append hnodup hb hc

/-- The blocks to come are not in the list. -/
theorem Fetches.notMem_blocks {c : HttpsClient ρ} (h : Fetches c) {b : ℕ} (hb : c.nextBlock ≤ b) :
    b ∉ c.blocks := by
  intro hmem
  obtain ⟨ctx, hctx, rfl⟩ := List.mem_map.1 hmem
  have hlisted : ctx.key ∈ c.listed := List.mem_map_of_mem hctx
  have hlt := h.lt ctx.key (h.perm.subset (List.mem_append_left _ hlisted))
  exact Nat.not_lt.2 hb hlt

theorem blocks_transferCallback (c : HttpsClient ρ) (cb : TransferCallback) :
    (c.transferCallback cb).blocks = c.blocks := by
  have hlisted := congrArg (List.map Prod.fst) (c.listed_transferCallback cb)
  rw [listed, listed, List.map_map, List.map_map] at hlisted
  exact hlisted

theorem mem_called_of_mem {c : HttpsClient ρ} {b : ℕ} {data : ρ} {buf : Option (List UInt8)}
    (h : .call b data buf ∈ c.effects) : b ∈ c.called.map Prod.fst :=
  List.mem_map.2 ⟨(b, data), List.mem_filterMap.2 ⟨_, h, rfl⟩, rfl⟩

theorem outcome_of_effects {c c' : HttpsClient ρ} {es : List (HttpsEffect ρ)}
    (h : c'.effects = c.effects ++ es) (b : ℕ) :
    c'.outcome b = (c.outcome b).or (es.findSome? (HttpsEffect.outcome b)) := by
  rw [outcome, h, List.findSome?_append]
  rfl

theorem findSome?_outcome_connection {es : List (HttpsEffect ρ)}
    (hconn : ∀ e ∈ es, e.isConnection = true) (b : ℕ) :
    es.findSome? (HttpsEffect.outcome b) = none :=
  List.findSome?_eq_none_iff.2 fun e he => HttpsEffect.outcome_connection b e (hconn e he)

/-- What the end of a fetch adds : how its transfer has ended, if it has, and one callback. -/
theorem finishFetch_effects (c : HttpsClient ρ) (prev : Option ℕ) (ctx : HttpsFetchCtx ρ)
    (result : Option (CurlCode × TransferInfo)) {ps : List Chunk}
    (hbuf : ctx.buf = bufferOf none ps) :
    ∃ es, (c.finishFetch prev ctx result).effects = c.effects ++ es ∧
      (∀ b, es.findSome? (HttpsEffect.outcome b) = if ctx.block = b then result else none) ∧
      ∀ b data buf, .call b data buf ∈ es ↔
        b = ctx.block ∧ data = ctx.cbData ∧ buf = receivedBody result ps := by
  rcases (c.finishFetch_spec prev ctx result).2.2.2 with
    ⟨rfl, he⟩ | ⟨code, info, es, rfl, hconn, he⟩
  · exact ⟨_, he, fun b => by simp [HttpsEffect.outcome], fun b data buf => by simp [receivedBody]⟩
  · refine ⟨_, by rw [he, List.append_assoc], fun b => ?_, fun b data buf => ?_⟩
    · by_cases hb : ctx.block = b
      · simp [HttpsEffect.outcome, hb]
      · simp [HttpsEffect.outcome, hb, findSome?_outcome_connection hconn]
    · have hes : .call b data buf ∉ es := fun hmem => by cases hconn _ hmem
      simp [receivedBody, hbuf, hes]

namespace Bodied

variable {hist : ℕ → List Chunk} {c c' : HttpsClient ρ}

theorem congr (h : Bodied hist c) {hist' : ℕ → List Chunk} (heq : ∀ b, hist b = hist' b) :
    Bodied hist' c :=
  funext heq ▸ h

/-- What leaves the transfers alone keeps the account of the bodies. -/
theorem of_frame (h : Bodied hist c) (hacc : Fetches c') (hf : c'.fetches = c.fetches)
    (hn : c'.nextBlock = c.nextBlock)
    (he : ∃ es, c'.effects = c.effects ++ es ∧ ∀ e ∈ es, e.isConnection = true) :
    Bodied hist c' := by
  obtain ⟨es, hes, hconn⟩ := he
  have hout : ∀ b, c'.outcome b = c.outcome b := fun b => by
    rw [outcome_of_effects hes, findSome?_outcome_connection hconn, Option.or_none]
  have hcalled : c'.called = c.called := by
    simp [called, hes, filterMap_connection HttpsEffect.runs_connection hconn]
  refine ⟨hacc, hf ▸ h.curl, hf ▸ h.buf, hn ▸ h.fresh, fun b hb => ?_, fun b data buf hb => ?_⟩
  · rw [hcalled]
    exact h.ended b (hout b ▸ hb)
  · rw [hout]
    rw [hes] at hb
    refine h.calls b data buf ((List.mem_append.1 hb).resolve_right fun hb => ?_)
    cases hconn _ hb

/-- The end of a fetch : its callback gets what `receivedBody` says. -/
theorem finish (h : Bodied hist c) {pre post : List (HttpsFetchCtx ρ)} {ctx : HttpsFetchCtx ρ}
    (hsplit : c.fetches = pre ++ ctx :: post) (result : Option (CurlCode × TransferInfo)) :
    Bodied hist (c.finishFetch (pre.getLast?.map HttpsFetchCtx.block) ctx result) := by
  have hctx : ctx ∈ c.fetches := by simp [hsplit]
  have hblock : ctx.block ∉ c.called.map Prod.fst :=
    h.account.block_notMem_called (List.mem_map_of_mem hctx)
  have hnone : c.outcome ctx.block = none := by
    by_contra hne
    exact hblock (h.ended _ hne)
  have hsub : ∀ x ∈ pre ++ post, x ∈ c.fetches := by
    intro x hx
    rw [hsplit]
    exact ((List.sublist_cons_self ctx post).append_left pre).subset hx
  have hfetches := h.account.fetches_finishFetch hsplit result
  have hacc := h.account.finish hsplit result
  obtain ⟨-, hnext, -, -⟩ := c.finishFetch_spec (pre.getLast?.map HttpsFetchCtx.block) ctx result
  obtain ⟨es, hes, hout, hcall⟩ := c.finishFetch_effects (pre.getLast?.map HttpsFetchCtx.block) ctx
    result (h.buf ctx hctx)
  generalize c.finishFetch (pre.getLast?.map HttpsFetchCtx.block) ctx result = c' at *
  refine ⟨hacc, ?_, ?_, hnext ▸ h.fresh, fun b hb => ?_, fun b data buf hb => ?_⟩
  · rw [hfetches]
    exact fun x hx => h.curl x (hsub x hx)
  · rw [hfetches]
    exact fun x hx => h.buf x (hsub x hx)
  · by_cases hbx : ctx.block = b
    · have hmem : .call b ctx.cbData (receivedBody result (hist ctx.block)) ∈ c'.effects := by
        rw [hes]
        exact List.mem_append_right _ ((hcall _ _ _).2 ⟨hbx.symm, rfl, rfl⟩)
      exact mem_called_of_mem hmem
    · rw [outcome_of_effects hes, hout, if_neg hbx, Option.or_none] at hb
      have hold := h.ended b hb
      rw [called, hes, List.filterMap_append, List.map_append]
      exact List.mem_append_left _ hold
  · rw [outcome_of_effects hes, hout]
    rw [hes] at hb
    rcases List.mem_append.1 hb with hb | hb
    · have hne : ctx.block ≠ b := fun heq => hblock (heq ▸ mem_called_of_mem hb)
      rw [if_neg hne, Option.or_none]
      exact h.calls b data buf hb
    · obtain ⟨rfl, -, hbuf⟩ := (hcall b data buf).1 hb
      rw [hnone, if_pos rfl, Option.none_or]
      exact hbuf

theorem quietStep (hs : QuietStep c c') (h : Bodied hist c) : Bodied hist c' := by
  have hacc := h.account.step hs.httpsStep
  cases hs with
  | socket cb =>
    have hframe := c.socketFrame_socketCallback cb
    exact h.of_frame hacc hframe.fetches hframe.nextBlock hframe.effects
  | frame hf _ =>
    exact h.of_frame hacc hf.fetches hf.nextBlock ⟨[], by rw [hf.effects, List.append_nil], by simp⟩
  | abort hsplit => exact h.finish hsplit none

theorem start (h : Bodied hist c) (postdata : List UInt8) (resolv : Option SList) (id : ℕ)
    (data : ρ) : Bodied hist (c.startFetch postdata resolv id data) := by
  have hes : (c.startFetch postdata resolv id data).effects =
      c.effects ++ [.started (c.newCtx postdata resolv id data)] := rfl
  have hout : ∀ b, (c.startFetch postdata resolv id data).outcome b = c.outcome b := fun b => by
    rw [outcome_of_effects hes]
    exact Option.or_none
  have hcalled : (c.startFetch postdata resolv id data).called = c.called := by
    simp [called, hes, HttpsEffect.runs]
  refine ⟨h.account.start postdata resolv id data, ?_, ?_, fun b hb => ?_, fun b hb => ?_,
    fun b data' buf hb => ?_⟩
  · rintro ctx (_ | ⟨_, hctx⟩)
    · rfl
    · exact h.curl ctx hctx
  · rintro ctx (_ | ⟨_, hctx⟩)
    · simp [newCtx, h.fresh c.nextBlock le_rfl, bufferOf]
    · exact h.buf ctx hctx
  · exact h.fresh b (Nat.le_of_succ_le hb)
  · rw [hcalled]
    exact h.ended b (hout b ▸ hb)
  · rw [hout]
    rw [hes] at hb
    refine h.calls b data' buf ((List.mem_append.1 hb).resolve_right fun hb => ?_)
    cases List.mem_singleton.1 hb

/-- A callback of a transfer appends its piece to the buffer of the fetch it is for. -/
theorem transferCallback (h : Bodied hist c) (cb : TransferCallback) :
    Bodied (fun b => hist b ++ if b ∈ c.blocks then (cb.chunk b).toList else [])
      (c.transferCallback cb) := by
  have hacc := h.account.callback cb
  cases cb with
  | socket cb =>
    have hframe := c.socketFrame_socketCallback cb
    have hhist : (fun b => hist b ++ if b ∈ c.blocks then
        (TransferCallback.chunk b (.socket cb)).toList else []) = hist := by
      funext b
      simp [TransferCallback.chunk]
    rw [hhist]
    exact h.of_frame hacc hframe.fetches hframe.nextBlock hframe.effects
  | write curl chunk realloc =>
    have hlisted : ∀ {b}, b ∉ c.blocks → (hist b ++ if b ∈ c.blocks then
        (TransferCallback.chunk b (.write curl chunk realloc)).toList else []) = hist b :=
      fun hb => by rw [if_neg hb, List.append_nil]
    refine ⟨hacc, fun x hx => ?_, fun x hx => ?_, fun b hb => ?_, h.ended, fun b data buf hb => ?_⟩
    · obtain ⟨ctx, hctx, rfl⟩ := List.mem_map.1 hx
      rw [writeBuffer_eq_writeChunk]
      split_ifs <;> exact h.curl ctx hctx
    · obtain ⟨ctx, hctx, rfl⟩ := List.mem_map.1 hx
      have hmem : ctx.block ∈ c.blocks := List.mem_map_of_mem hctx
      have hbuf := h.buf ctx hctx
      rw [writeBuffer_eq_writeChunk, h.curl ctx hctx]
      by_cases heq : ctx.block = curl
      · obtain rfl := heq
        rw [if_pos rfl]
        simp only [if_pos hmem, TransferCallback.chunk, if_true, Option.toList_some,
          bufferOf_append, ← hbuf]
        rfl
      · rw [if_neg heq, if_pos hmem, TransferCallback.chunk, if_neg (Ne.symm heq)]
        simpa using hbuf
    · rw [hlisted (h.account.notMem_blocks hb)]
      exact h.fresh b hb
    · rw [hlisted fun hmem => h.account.block_notMem_called hmem (mem_called_of_mem hb)]
      exact h.calls b data buf hb

theorem transferCallbacks : ∀ (cbs : List TransferCallback) {hist : ℕ → List Chunk}
    {c : HttpsClient ρ}, Bodied hist c →
    Bodied (fun b => hist b ++ if b ∈ c.blocks then
      cbs.filterMap (TransferCallback.chunk b) else []) (cbs.foldl HttpsClient.transferCallback c)
  | [], hist, c, h => by simpa using h
  | cb :: cbs, hist, c, h => by
    have hall := transferCallbacks cbs (h.transferCallback cb)
    rw [blocks_transferCallback] at hall
    refine hall.congr fun b => ?_
    by_cases hb : b ∈ c.blocks
    · rw [if_pos hb, if_pos hb, if_pos hb, List.append_assoc]
      cases hchunk : cb.chunk b <;> simp [hchunk]
    · simp [hb]

/-- One event. -/
theorem event (lib : Libcurl) (h : Bodied hist c) (e : HttpsEvent ρ) :
    Bodied (fun b => hist b ++ chunksIn lib b c e) (c.step lib e) := by
  cases ha : c.acted lib e with
  | some p =>
    obtain ⟨c', msgs⟩ := p
    rw [step_of_acted lib ha]
    refine checkMultiInfo_keeps lib (fun _ _ => quietStep)
      (fun _ _ _ _ _ _ hsplit hb => hb.finish hsplit _) msgs ?_
    refine of_acted (fun _ _ => quietStep) (fun _ _ => quietStep)
      (fun c₀ hcalls hsame hb => ?_) ha h
    have hblocks : c₀.blocks = c.blocks := congrArg (List.map _) hsame.fetches
    have hcount : Bodied hist { c₀ with calls := c₀.calls + 1 } :=
      (c₀.quiet_calls _).keeps (fun _ _ => quietStep) hb
    refine (transferCallbacks (lib.socketAction c₀.calls).callbacks hcount).congr fun b => ?_
    rw [chunksIn, ha, hcalls, ← hblocks]
    simp [blocks]
  | none =>
    have hhist : (fun b => hist b ++ chunksIn lib b c e) = hist := by
      funext b
      simp [chunksIn, ha]
    rw [hhist]
    rcases quiet_step_of_not_acted lib ha with hq | ⟨postdata, resolv, id, data, -, hq⟩
    · exact hq.keeps (fun _ _ => quietStep) h
    · exact hq.keeps (fun _ _ => quietStep) (h.start postdata resolv id data)

end Bodied

/-- The buffers over a run. -/
theorem bodies_run (lib : Libcurl) (stat : Bool) (es : List (HttpsEvent ρ)) :
    Bodied (chunks lib stat es) (run lib stat es) := by
  induction es using List.reverseRecOn with
  | nil =>
    exact ⟨.httpsClientInit lib stat, fun _ hctx => (List.not_mem_nil hctx).elim,
      fun _ hctx => (List.not_mem_nil hctx).elim, fun _ _ => rfl, fun _ hb => (hb rfl).elim,
      fun _ _ _ hb => (List.not_mem_nil hb).elim⟩
  | append_singleton es e ih =>
    rw [run, Runs.run_concat]
    refine (ih.event lib e).congr fun b => ?_
    exact (Runs.collect_concat (step lib) (chunksIn lib b) _ es e).symm

end HttpsClient

/-! ## The body that a callback gets -/

/-- The transfer has ended well, with status 200 and the content type of DNS messages. -/
def goodOutcome : Option (CurlCode × TransferInfo) → Bool
  | some (.ok, ⟨some 200, some (some contentType), _⟩) => dohContentType.isPrefixOf contentType
  | _ => false

/-- What a callback should get for a body, however it came in. -/
def expected (body : List UInt8) (o : Option (CurlCode × TransferInfo)) : Option (List UInt8) :=
  if body.length ≤ dohMaxResponseSize ∧ goodOutcome o = true then some body else none

/-- A callback gets the bytes it should, with their number, and NULL where it should get none. -/
structure Whole (body : List UInt8) (o : Option (CurlCode × TransferInfo))
    (buf : Option (List UInt8)) : Prop where
  bytes : buf.getD [] = (expected body o).getD []
  null : expected body o = none → buf = none
  length_le : (buf.getD []).length ≤ dohMaxResponseSize

/-- libcurl ends a transfer with `CURLE_WRITE_ERROR` if a piece of it was refused. -/
def EndsRefused (ps : List Chunk) (o : Option (CurlCode × TransferInfo)) : Prop :=
  refused none ps = true → ∀ result info, o = some (result, info) → result = .writeError

/-- A body that would be relayed comes with a content type that could not be looked up. -/
def TypeUnknown (ps : List Chunk) (o : Option (CurlCode × TransferInfo)) : Prop :=
  ps ≠ [] ∧ (bodyOf ps).length ≤ dohMaxResponseSize ∧
    ∃ info, o = some (.ok, info) ∧ info.responseCode = some 200 ∧ info.contentType = none

theorem goodOutcome_iff {o : Option (CurlCode × TransferInfo)} :
    goodOutcome o = true ↔ ∃ info t, o = some (.ok, info) ∧ info.responseCode = some 200 ∧
      info.contentType = some (some t) ∧ dohContentType <+: t := by
  constructor
  · intro h
    unfold goodOutcome at h
    split at h
    · next t n => exact ⟨_, t, rfl, rfl, rfl, by simpa using h⟩
    · cases h
  · rintro ⟨⟨code, contentType, n⟩, t, rfl, rfl, rfl, ht⟩
    simpa [goodOutcome] using ht

/-- The callback of a request that is aborted, or whose response is faulty. -/
theorem whole_none {body : List UInt8} {o : Option (CurlCode × TransferInfo)}
    (h : goodOutcome o = false) : Whole body o none := by
  have hexp : expected body o = none := if_neg fun hgood => by simp [h] at hgood
  exact ⟨by rw [hexp], fun _ => rfl, Nat.zero_le _⟩

theorem goodOutcome_of_faulty {result : CurlCode} {info : TransferInfo}
    (h : faultyResponse result info = true) : goodOutcome (some (result, info)) = false := by
  rw [Bool.eq_false_iff]
  intro hgood
  obtain ⟨info', t, ho, hcode, htype, ht⟩ := goodOutcome_iff.1 hgood
  obtain ⟨rfl, rfl⟩ := Prod.mk.inj (Option.some.inj ho)
  rw [faultyResponse_eq_false_iff.2 ⟨rfl, hcode, Or.inr ⟨t, htype, ht⟩⟩] at h
  cases h

theorem not_typeUnknown_of_faulty {result : CurlCode} {info : TransferInfo} {ps : List Chunk}
    (h : faultyResponse result info = true) : ¬TypeUnknown ps (some (result, info)) := by
  rintro ⟨-, -, info', ho, hcode, htype⟩
  obtain ⟨rfl, rfl⟩ := Prod.mk.inj (Option.some.inj ho)
  rw [faultyResponse_eq_false_iff.2 ⟨rfl, hcode, Or.inl htype⟩] at h
  cases h

/-- With the content type unknown the callback should get NULL, and does so only if there was no
piece. -/
theorem whole_iff_of_unknown {info : TransferInfo} {ps : List Chunk}
    (halloc : ∀ p ∈ ps, p.2 = true) (hrefused : refused none ps = false)
    (htype : info.contentType = none) :
    Whole (bodyOf ps) (some (.ok, info)) (bufferOf none ps) ↔ ps = [] := by
  have hgood : goodOutcome (some (.ok, info)) = false := by
    rw [Bool.eq_false_iff]
    intro hgood
    obtain ⟨info', t, ho, -, htype', -⟩ := goodOutcome_iff.1 hgood
    obtain ⟨-, rfl⟩ := Prod.mk.inj (Option.some.inj ho)
    rw [htype] at htype'
    cases htype'
  rw [← bufferOf_eq_none_iff halloc hrefused]
  refine ⟨fun h => h.null (if_neg fun hg => ?_), fun h => ?_⟩
  · rw [hgood] at hg
    cases hg.2
  · rw [h]
    exact whole_none hgood

/-- If the response is not faulty no piece was refused, as a refusal would have ended the transfer
with another result, and the buffer is the body. -/
theorem bufferOf_of_passed {ps : List Chunk} {result : CurlCode} {info : TransferInfo}
    (halloc : ∀ p ∈ ps, p.2 = true) (hends : EndsRefused ps (some (result, info)))
    (hpassed : faultyResponse result info = false) :
    refused none ps = false ∧ (bodyOf ps).length ≤ dohMaxResponseSize ∧
      (bufferOf none ps).getD [] = bodyOf ps := by
  obtain ⟨rfl, -, -⟩ := faultyResponse_eq_false_iff.1 hpassed
  have hrefused : refused none ps = false := by
    rw [Bool.eq_false_iff]
    intro hr
    cases hends hr _ _ rfl
  have hempty : ((none : Option (List UInt8)).getD []).length ≤ dohMaxResponseSize :=
    Nat.zero_le _
  obtain ⟨hiff, hall⟩ := refused_iff ps halloc hempty
  rw [hrefused] at hiff
  exact ⟨hrefused, by simpa using hiff, hall hrefused⟩

/-- The bytes that a callback gets depend on the body and the outcome only. -/
theorem bytes_received {ps : List Chunk} {o : Option (CurlCode × TransferInfo)}
    (halloc : ∀ p ∈ ps, p.2 = true) (hends : EndsRefused ps o) :
    (receivedBody o ps).getD [] =
      if o.all (fun p => faultyResponse p.1 p.2) then [] else bodyOf ps := by
  cases o with
  | none => rfl
  | some p =>
    obtain ⟨result, info⟩ := p
    cases hfaulty : faultyResponse result info with
    | true => simp [receivedBody, hfaulty]
    | false => simp [receivedBody, hfaulty, (bufferOf_of_passed halloc hends hfaulty).2.2]

/-- The pieces of a body decide together what its callback gets : it is right unless the content
type is unknown. -/
theorem whole_received_iff {ps : List Chunk} {o : Option (CurlCode × TransferInfo)}
    (halloc : ∀ p ∈ ps, p.2 = true) (hends : EndsRefused ps o) :
    Whole (bodyOf ps) o (receivedBody o ps) ↔ ¬TypeUnknown ps o := by
  cases o with
  | none =>
    refine iff_of_true (whole_none rfl) ?_
    rintro ⟨-, -, info, ho, -⟩
    cases ho
  | some p =>
    obtain ⟨result, info⟩ := p
    cases hfaulty : faultyResponse result info with
    | true =>
      have hrec : receivedBody (some (result, info)) ps = none := by simp [receivedBody, hfaulty]
      rw [hrec]
      exact iff_of_true (whole_none (goodOutcome_of_faulty hfaulty))
        (not_typeUnknown_of_faulty hfaulty)
    | false =>
      obtain ⟨rfl, hcode, htype⟩ := faultyResponse_eq_false_iff.1 hfaulty
      have hrec : receivedBody (some (.ok, info)) ps = bufferOf none ps := by
        simp [receivedBody, hfaulty]
      obtain ⟨hrefused, hfits, hbytes⟩ := bufferOf_of_passed halloc hends hfaulty
      rw [hrec]
      rcases htype with htype | ⟨t, htype, ht⟩
      · rw [whole_iff_of_unknown halloc hrefused htype]
        refine ⟨fun hps h => h.1 hps, fun h => ?_⟩
        by_contra hps
        exact h ⟨hps, hfits, info, rfl, hcode, htype⟩
      · have hexp : expected (bodyOf ps) (some (.ok, info)) = some (bodyOf ps) :=
          if_pos ⟨hfits, goodOutcome_iff.2 ⟨info, t, rfl, hcode, htype, ht⟩⟩
        refine iff_of_true ⟨by rw [hexp, hbytes]; rfl, fun hnone => ?_, by rwa [hbytes]⟩ ?_
        · rw [hexp] at hnone
          cases hnone
        · rintro ⟨-, -, info', ho, -, htype'⟩
          obtain ⟨-, rfl⟩ := Prod.mk.inj (Option.some.inj ho)
          rw [htype] at htype'
          cases htype'

/-- The callback of the fetch `b` has run with `buf`, the allocations for its pieces succeed, and
libcurl ends its transfer with `CURLE_WRITE_ERROR` when a piece is refused. -/
structure Completed (lib : Libcurl) (stat : Bool) (es : List (HttpsEvent ρ)) (b : ℕ)
    (buf : Option (List UInt8)) : Prop where
  called : ∃ data, .call b data buf ∈ (HttpsClient.run lib stat es).effects
  allocs : ∀ p ∈ HttpsClient.chunks lib stat es b, p.2 = true
  ends : EndsRefused (HttpsClient.chunks lib stat es b) ((HttpsClient.run lib stat es).outcome b)

theorem Completed.eq_received {lib : Libcurl} {stat : Bool} {es : List (HttpsEvent ρ)} {b : ℕ}
    {buf : Option (List UInt8)} (h : Completed lib stat es b buf) :
    buf = receivedBody ((HttpsClient.run lib stat es).outcome b)
      (HttpsClient.chunks lib stat es b) := by
  obtain ⟨data, hcall⟩ := h.called
  exact (HttpsClient.bodies_run lib stat es).calls b data buf hcall

/-- Response bodies are independent of chunking, in every run of the client. No buffer ever holds
more than `DOH_MAX_RESPONSE_SIZE` bytes. The callback of a fetch gets what the body as a whole and
the outcome call for, exactly unless the content type of a body that would be relayed could not be
looked up. In any case it gets the same bytes as that of any other transfer of the same body with
the same outcome. -/
theorem bodies_iff (lib : Libcurl) (stat : Bool) (es : List (HttpsEvent ρ)) :
    let c := HttpsClient.run lib stat es
    (∀ ctx ∈ c.fetches, (ctx.buf.getD []).length ≤ dohMaxResponseSize) ∧
      ∀ b buf, Completed lib stat es b buf →
        let ps := HttpsClient.chunks lib stat es b
        (Whole (bodyOf ps) (c.outcome b) buf ↔ ¬TypeUnknown ps (c.outcome b)) ∧
          ∀ lib' stat' (es' : List (HttpsEvent ρ)) b' buf', Completed lib' stat' es' b' buf' →
            bodyOf (HttpsClient.chunks lib' stat' es' b') = bodyOf ps →
            (HttpsClient.run lib' stat' es').outcome b' = c.outcome b →
            buf'.getD [] = buf.getD [] := by
  intro c
  refine ⟨fun ctx hctx => ?_, fun b buf h => ⟨?_, fun lib' stat' es' b' buf' h' hbody ho => ?_⟩⟩
  · rw [(HttpsClient.bodies_run lib stat es).buf ctx hctx]
    exact length_bufferOf_le _ (Nat.zero_le _)
  · rw [h.eq_received]
    exact whole_received_iff h.allocs h.ends
  · rw [h'.eq_received, h.eq_received, bytes_received h'.allocs h'.ends,
      bytes_received h.allocs h.ends, hbody, ho]

/-- libcurl brings the body of the first transfer in two pieces when its timer expires. -/
def twoPieces : Libcurl where
  easySetopt _ := true
  multiSetopt _ := true
  addHandle _ := ⟨[.multiTimer 0], .ok⟩
  removeHandle _ := ⟨[], .ok⟩
  socketAction _ := ⟨[.write 0 [1, 2] true, .write 0 [3] true], .ok⟩
  multiCleanup _ := []

/-- A fetch whose transfer ends well with the given content type. -/
def twoPiecesRun (contentType : Option (Option CString)) : List (HttpsEvent Unit) :=
  [.fetch [] none 7 (), .timer [.done 0 .ok ⟨some 200, contentType, some 1⟩]]

theorem bodies_two :
    Whole [1, 2, 3]
      ((HttpsClient.run twoPieces false (twoPiecesRun (some (some dohContentType)))).outcome 0)
      (some [1, 2, 3]) := by
  have hps : HttpsClient.chunks twoPieces false (twoPiecesRun (some (some dohContentType))) 0 =
      [([1, 2], true), ([3], true)] := by decide
  have hcompleted : Completed twoPieces false (twoPiecesRun (some (some dohContentType))) 0
      (some [1, 2, 3]) := by
    refine ⟨⟨(), List.mem_of_getElem? (i := 2) rfl⟩, ?_, ?_⟩
    · rw [hps]
      decide
    · rw [hps]
      exact fun hr => absurd hr (by decide)
  have h := ((bodies_iff twoPieces false (twoPiecesRun (some (some dohContentType)))).2 0 _
    hcompleted).1
  rw [hps] at h
  refine h.2 ?_
  rintro ⟨-, -, info, ho, -, htype⟩
  have hinfo : _ = info := (Prod.mk.inj (Option.some.inj ho)).2
  rw [← hinfo] at htype
  cases htype

/-- The content type cannot be looked up : the callback gets the body all the same. -/
theorem bodies_untyped :
    let c := HttpsClient.run twoPieces false (twoPiecesRun none)
    HttpsClient.chunks twoPieces false (twoPiecesRun none) 0 = [([1, 2], true), ([3], true)] ∧
      c.outcome 0 = some (.ok, ⟨some 200, none, some 1⟩) ∧
      c.callbacks = [(0, (), some [1, 2, 3])] ∧
      ¬Whole [1, 2, 3] (c.outcome 0) (some [1, 2, 3]) := by
  refine ⟨by decide, by decide, by decide, fun h => ?_⟩
  cases h.null (by decide)

end HttpsDnsProxy
