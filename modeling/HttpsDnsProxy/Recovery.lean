import HttpsDnsProxy.Fetches

/-!
# Recovery from an aborted multi handle

If `multi_sock_cb` finds no free watcher it returns -1, and the call of libcurl it runs in reports
`CURLM_ABORTED_BY_CALLBACK`. The client calls libcurl so in three places, and means to reset
itself then. `https_fetch_ctx_init` does. In `sock_cb` the reset stands behind a `FLOG`, which
ends the process, and `timer_cb` logs the code and goes on.

* `dropFetches_drops` : the loop of `https_client_cleanup` runs the callback of each fetch, in
  the order of the list;
* `httpsClientReset_recovered_iff` : a reset recovers the client exactly if libcurl lets go of
  each handle and accepts the options of the new one.

`recovered_iff` : of the three places only the first recovers.
-/

namespace HttpsDnsProxy

variable {ρ : Type*}

/-- The callback an effect runs, with its body. -/
def HttpsEffect.callback : HttpsEffect ρ → Option (ℕ × ρ × Option (List UInt8))
  | .call block data buf => some (block, data, buf)
  | _ => none

theorem HttpsEffect.callback_connection :
    ∀ e : HttpsEffect ρ, e.isConnection = true → e.callback = none
  | .connectionOpened, _ | .connectionClosed, _ | .connectionReused, _ => rfl

/-- The callback of a fetch that is aborted. -/
def HttpsFetchCtx.aborted (ctx : HttpsFetchCtx ρ) : ℕ × ρ × Option (List UInt8) :=
  (ctx.block, ctx.cbData, none)

namespace HttpsClient

/-- The callbacks run so far, with their bodies. -/
def callbacks (c : HttpsClient ρ) : List (ℕ × ρ × Option (List UInt8)) :=
  c.effects.filterMap HttpsEffect.callback

/-! ## The multi handle -/

/-- The multi handle stays in place, and libcurl is not called. -/
structure SameHandle (c c' : HttpsClient ρ) : Prop where
  curlm : c'.curlm = c.curlm
  calls : c'.calls = c.calls

theorem SameHandle.trans {c c' c'' : HttpsClient ρ} (h : SameHandle c c')
    (h' : SameHandle c' c'') : SameHandle c c'' :=
  ⟨h'.curlm.trans h.curlm, h'.calls.trans h.calls⟩

theorem SameHandle.tally {c c' : HttpsClient ρ} (h : SameHandle c c') (e : HttpsEffect ρ) :
    SameHandle c (c'.tally e) := by
  unfold HttpsClient.tally
  split_ifs
  · exact ⟨h.curlm, h.calls⟩
  · exact h

section SameHandle

variable (c : HttpsClient ρ)

theorem kept_sameHandle : KeptBySockets (SameHandle c) where
  opens _ _ h := by
    refine SameHandle.tally ?_ _
    exact ⟨h.curlm, h.calls⟩
  closes _ _ _ h := by
    refine SameHandle.tally ?_ _
    exact ⟨h.curlm, h.calls⟩
  watches _ _ h := ⟨h.curlm, h.calls⟩
  timer _ _ h := ⟨h.curlm, h.calls⟩

theorem sameHandle_socketCallback (cb : SocketCallback) : SameHandle c (c.socketCallback cb) :=
  c.kept_sameHandle.socketCallback ⟨rfl, rfl⟩ cb

theorem sameHandle_transferCallback : ∀ cb : TransferCallback, SameHandle c (c.transferCallback cb)
  | .socket cb => c.sameHandle_socketCallback cb
  | .write _ _ _ => ⟨rfl, rfl⟩

theorem sameHandle_socketCallbacks : ∀ (cbs : List SocketCallback) (c : HttpsClient ρ),
    SameHandle c (cbs.foldl socketCallback c)
  | [], _ => ⟨rfl, rfl⟩
  | cb :: cbs, c => (c.sameHandle_socketCallback cb).trans (sameHandle_socketCallbacks cbs _)

theorem sameHandle_transferCallbacks : ∀ (cbs : List TransferCallback) (c : HttpsClient ρ),
    SameHandle c (cbs.foldl transferCallback c)
  | [], _ => ⟨rfl, rfl⟩
  | cb :: cbs, c => (c.sameHandle_transferCallback cb).trans (sameHandle_transferCallbacks cbs _)

theorem sameHandle_httpsFetchCtxProcessResponse (result : CurlCode) (info : TransferInfo) :
    SameHandle c (c.httpsFetchCtxProcessResponse result info).2 :=
  keep_httpsFetchCtxProcessResponse ⟨rfl, rfl⟩ (fun _ h => h.tally _) ⟨rfl, rfl⟩ result info

theorem sameHandle_finishFetch (prev : Option ℕ) (ctx : HttpsFetchCtx ρ)
    (result : Option (CurlCode × TransferInfo)) : SameHandle c (c.finishFetch prev ctx result) := by
  cases result with
  | none => exact ⟨rfl, rfl⟩
  | some p =>
    obtain ⟨code, info⟩ := p
    have hresp := sameHandle_httpsFetchCtxProcessResponse
      (c.emit (.ended ctx.block code info ctx.buf)) code info
    exact ⟨hresp.curlm, hresp.calls⟩

theorem curlm_httpsFetchCtxCleanup (lib : Libcurl) (prev : Option ℕ) (ctx : HttpsFetchCtx ρ)
    (result : Option (CurlCode × TransferInfo)) :
    (c.httpsFetchCtxCleanup lib prev ctx result).curlm = c.curlm := by
  have hcall := (sameHandle_socketCallbacks (lib.removeHandle c.calls).callbacks
    { c with calls := c.calls + 1 }).curlm
  unfold httpsFetchCtxCleanup
  simp only
  split_ifs
  · exact hcall
  · exact (sameHandle_finishFetch _ prev ctx result).curlm.trans hcall

/-- Completion messages leave the multi handle in place. -/
theorem curlm_checkMultiInfo (lib : Libcurl) : ∀ (msgs : List CurlMsg) (c : HttpsClient ρ),
    (checkMultiInfo lib msgs c).curlm = c.curlm
  | [], _ => rfl
  | msg :: msgs, c => by
    unfold checkMultiInfo
    split_ifs
    · rfl
    · cases msg with
      | other => exact curlm_checkMultiInfo lib msgs c
      | done easyHandle result info =>
        simp only
        split
        · exact curlm_checkMultiInfo lib msgs c
        · exact (curlm_checkMultiInfo lib msgs _).trans (c.curlm_httpsFetchCtxCleanup lib _ _ _)

end SameHandle

/-! ## Dropping the fetches -/

/-- The fetches `dropped` are taken off the list and their callbacks run, in order. -/
structure Drops (c c' : HttpsClient ρ) (dropped : List (HttpsFetchCtx ρ)) : Prop where
  fetches : c.fetches = dropped ++ c'.fetches
  callbacks : c'.callbacks = c.callbacks ++ dropped.map HttpsFetchCtx.aborted
  curlm : c'.curlm = c.curlm
  calls : c'.calls = c.calls + dropped.length
  exited : c'.exited = c.exited

theorem callbacks_of_socketFrame {c c' : HttpsClient ρ} (h : SocketFrame c c') :
    c'.callbacks = c.callbacks := by
  obtain ⟨es, hes, hconn⟩ := h.effects
  rw [callbacks, hes, List.filterMap_append,
    filterMap_connection HttpsEffect.callback_connection hconn, List.append_nil]
  rfl

variable (lib : Libcurl) {c : HttpsClient ρ}

/-- The head of the list is dropped if libcurl lets go of its handle. -/
theorem httpsFetchCtxCleanup_drops {ctx : HttpsFetchCtx ρ} {rest : List (HttpsFetchCtx ρ)}
    (h : c.fetches = ctx :: rest) (hok : (lib.removeHandle c.calls).code = .ok) :
    Drops c (c.httpsFetchCtxCleanup lib none ctx none) [ctx] := by
  have hframe := c.socketFrame_multiCall (lib.removeHandle c.calls)
  have hhandle : SameHandle { c with calls := c.calls + 1 }
      (c.multiCall (lib.removeHandle c.calls)).2 := sameHandle_socketCallbacks _ _
  have hcode : (c.multiCall (lib.removeHandle c.calls)).1 = .ok := hok
  unfold httpsFetchCtxCleanup
  generalize c.multiCall (lib.removeHandle c.calls) = p at *
  obtain ⟨code, c'⟩ := p
  simp only at hcode hframe hhandle ⊢
  rw [if_neg (not_not.2 hcode)]
  have hrest : (c'.finishFetch none ctx none).fetches = rest := by
    rw [(c'.finishFetch_spec none ctx none).1, hframe.fetches, h]
    have hpre : ∀ x ∈ ([] : List (HttpsFetchCtx ρ)), x.block ≠ ctx.block := by simp
    exact LinkedLists.after_append hpre
  refine ⟨by rw [hrest, h]; rfl, ?_, hhandle.curlm, hhandle.calls, hframe.exited⟩
  rw [← callbacks_of_socketFrame hframe]
  simp [finishFetch, callbacks, HttpsEffect.callback, HttpsFetchCtx.aborted]

theorem Drops.trans {c' c'' : HttpsClient ρ} {xs ys : List (HttpsFetchCtx ρ)} (h : Drops c c' xs)
    (h' : Drops c' c'' ys) : Drops c c'' (xs ++ ys) where
  fetches := by rw [h.fetches, h'.fetches, List.append_assoc]
  callbacks := by rw [h'.callbacks, h.callbacks, List.map_append, List.append_assoc]
  curlm := h'.curlm.trans h.curlm
  calls := by rw [h'.calls, h.calls, List.length_append, Nat.add_assoc]
  exited := h'.exited.trans h.exited

theorem Drops.tail {c' : HttpsClient ρ} {ctx : HttpsFetchCtx ρ} {rest : List (HttpsFetchCtx ρ)}
    (h : Drops c c' [ctx]) (hf : c.fetches = ctx :: rest) : c'.fetches = rest := by
  have heq := h.fetches
  rw [hf] at heq
  exact (List.cons.inj heq).2.symm

/-- The loop drops all fetches if libcurl lets go of all handles. -/
theorem dropFetches_drops :
    ∀ (n : ℕ) {c : HttpsClient ρ}, c.fetches.length ≤ n → c.exited = false →
      (∀ i < c.fetches.length, (lib.removeHandle (c.calls + i)).code = .ok) →
      Drops c (dropFetches lib n c) c.fetches ∧ (dropFetches lib n c).fetches = []
  | 0, c, hn, _, _ => by
    have hf : c.fetches = [] := List.length_eq_zero_iff.1 (Nat.le_zero.1 hn)
    rw [hf]
    exact ⟨⟨rfl, by simp [dropFetches], rfl, rfl, rfl⟩, hf⟩
  | n + 1, c, hn, hx, hok => by
    cases hf : c.fetches with
    | nil =>
      have hdrop : dropFetches lib (n + 1) c = c := by simp [dropFetches, hf]
      rw [hdrop]
      exact ⟨⟨rfl, by simp, rfl, rfl, rfl⟩, hf⟩
    | cons ctx rest =>
      rw [hf, List.length_cons] at hn hok
      have hhead := httpsFetchCtxCleanup_drops lib hf (hok 0 (Nat.succ_pos _))
      have hfetches := hhead.tail hf
      rw [dropFetches_cons lib hf hx]
      generalize c.httpsFetchCtxCleanup lib none ctx none = c' at hhead hfetches
      have hok' : ∀ i < c'.fetches.length, (lib.removeHandle (c'.calls + i)).code = .ok := by
        intro i hi
        rw [hfetches] at hi
        rw [hhead.calls, List.length_singleton, Nat.add_assoc, Nat.add_comm 1]
        exact hok (i + 1) (Nat.succ_lt_succ hi)
      obtain ⟨hdrops, hempty⟩ :=
        dropFetches_drops n (by rw [hfetches]; omega) (hhead.exited.trans hx) hok'
      rw [hfetches] at hdrops
      exact ⟨hhead.trans hdrops, hempty⟩

/-- A handle that libcurl does not let go of ends the process. -/
theorem httpsFetchCtxCleanup_exited (ctx : HttpsFetchCtx ρ)
    (hbad : (lib.removeHandle c.calls).code ≠ .ok) :
    (c.httpsFetchCtxCleanup lib none ctx none).exited = true := by
  have hcode : (c.multiCall (lib.removeHandle c.calls)).1 ≠ .ok := hbad
  unfold httpsFetchCtxCleanup
  simp only
  rw [if_pos hcode]

theorem dropFetches_exited :
    ∀ (n : ℕ) {c : HttpsClient ρ}, c.fetches.length ≤ n → c.exited = false →
      ∀ i < c.fetches.length, (lib.removeHandle (c.calls + i)).code ≠ .ok →
        (dropFetches lib n c).exited = true
  | 0, c, hn, _, i, hi, _ => absurd (Nat.lt_of_lt_of_le hi hn) (Nat.not_lt_zero i)
  | n + 1, c, hn, hx, i, hi, hbad => by
    cases hf : c.fetches with
    | nil => simp [hf] at hi
    | cons ctx rest =>
      rw [hf, List.length_cons] at hn hi
      rw [dropFetches_cons lib hf hx]
      by_cases hhead : (lib.removeHandle c.calls).code = .ok
      · have hdrops := httpsFetchCtxCleanup_drops lib hf hhead
        have hfetches := hdrops.tail hf
        cases i with
        | zero => exact absurd hhead hbad
        | succ i =>
          refine dropFetches_exited n (by rw [hfetches]; omega) (hdrops.exited.trans hx) i
            (by rw [hfetches]; omega) ?_
          rw [hdrops.calls, List.length_singleton, Nat.add_assoc, Nat.add_comm 1]
          exact hbad
      · have hexit := httpsFetchCtxCleanup_exited lib ctx hhead
        rw [dropFetches_of_exited lib hexit, hexit]

/-! ## The reset -/

/-- `https_client_cleanup` drops all fetches if libcurl lets go of all handles. -/
theorem httpsClientCleanup_drops (hx : c.exited = false)
    (hok : ∀ i < c.fetches.length, (lib.removeHandle (c.calls + i)).code = .ok) :
    let c' := c.httpsClientCleanup lib
    c'.exited = false ∧ c'.callbacks = c.callbacks ++ c.fetches.map HttpsFetchCtx.aborted ∧
      c'.fetches = [] ∧ c'.curlm = c.curlm ∧ c'.calls = c.calls + c.fetches.length + 1 := by
  obtain ⟨hdrops, hempty⟩ := dropFetches_drops lib c.fetches.length le_rfl hx hok
  unfold httpsClientCleanup
  generalize dropFetches lib c.fetches.length c = c' at hdrops hempty
  have hx' : c'.exited = false := hdrops.exited.trans hx
  have hframe := socketFrame_foldl (lib.multiCleanup c'.calls)
    { c' with headerList := [], calls := c'.calls + 1 }
  have hhandle := sameHandle_socketCallbacks (lib.multiCleanup c'.calls)
    { c' with headerList := [], calls := c'.calls + 1 }
  simp only
  rw [if_neg (by simp [hx'])]
  refine ⟨hframe.exited.trans hx', ?_, hframe.fetches.trans hempty,
    hhandle.curlm.trans hdrops.curlm, ?_⟩
  · exact (callbacks_of_socketFrame hframe).trans hdrops.callbacks
  · refine hhandle.calls.trans ?_
    simp only
    rw [hdrops.calls]

theorem httpsClientCleanup_exited (hx : c.exited = false)
    (hbad : ¬∀ i < c.fetches.length, (lib.removeHandle (c.calls + i)).code = .ok) :
    (c.httpsClientCleanup lib).exited = true := by
  obtain ⟨i, hi, hbad⟩ : ∃ i < c.fetches.length, (lib.removeHandle (c.calls + i)).code ≠ .ok := by
    simpa using hbad
  have hexit := dropFetches_exited lib c.fetches.length le_rfl hx i hi hbad
  unfold httpsClientCleanup
  simp only
  rw [if_pos hexit, hexit]

/-- The client is recovered : the process is there, the callback of each fetch that was
outstanding has run once, without a body, no fetch is left and the multi handle is a new one. -/
structure Recovered (c c' : HttpsClient ρ) : Prop where
  exited : c'.exited = false
  callbacks : c'.callbacks = c.callbacks ++ c.fetches.map HttpsFetchCtx.aborted
  fetches : c'.fetches = []
  curlm : c'.curlm = c.curlm + 1

/-- libcurl lets go of the handles a reset removes, and accepts the options of the new multi
handle. -/
def ResetAccepted (c : HttpsClient ρ) : Prop :=
  (∀ i < c.fetches.length, (lib.removeHandle (c.calls + i)).code = .ok) ∧
    lib.multiSetopt (c.calls + c.fetches.length + 1) = true

/-- A reset recovers the client exactly if libcurl plays its part. -/
theorem httpsClientReset_recovered_iff (hx : c.exited = false) :
    Recovered c (c.httpsClientReset lib) ↔ c.ResetAccepted lib := by
  have hx' : ({ c with headerList := [] } : HttpsClient ρ).exited = false := hx
  by_cases hok : ∀ i < c.fetches.length, (lib.removeHandle (c.calls + i)).code = .ok
  · obtain ⟨hexited, hcalled, hempty, hcurlm, hcalls⟩ := httpsClientCleanup_drops lib hx' hok
    unfold httpsClientReset
    simp only
    generalize ({ c with headerList := [] } : HttpsClient ρ).httpsClientCleanup lib = c' at *
    rw [if_neg (by simp [hexited])]
    have hsetopt : (c'.exited || !lib.multiSetopt c'.calls) = false ↔
        lib.multiSetopt (c.calls + c.fetches.length + 1) = true := by
      simp [hexited, hcalls]
    exact ⟨fun h => ⟨hok, hsetopt.1 h.exited⟩,
      fun h => ⟨hsetopt.2 h.2, hcalled, hempty, congrArg (· + 1) hcurlm⟩⟩
  · refine iff_of_false (fun h => ?_) fun h => hok h.1
    have hexit : (({ c with headerList := [] } : HttpsClient ρ).httpsClientCleanup lib).exited =
        true := httpsClientCleanup_exited lib hx' hok
    have hfalse := h.exited
    unfold httpsClientReset at hfalse
    simp only [hexit, if_true] at hfalse
    cases hfalse

end HttpsClient

/-! ## The three places -/

/-- A call of libcurl in which `multi_sock_cb` may run : `curl_multi_add_handle` for a new fetch,
and `curl_multi_socket_action` for a socket or for a timeout, with the messages to read behind
it. -/
inductive MultiSite (ρ : Type*) where
  | fetch (postdata : List UInt8) (resolv : Option SList) (id : ℕ) (data : ρ)
  | sock (msgs : List CurlMsg)
  | timer (msgs : List CurlMsg)

namespace MultiSite

/-- The client when it calls libcurl. -/
def client (c : HttpsClient ρ) : MultiSite ρ → HttpsClient ρ
  | .fetch postdata resolv id data => c.startFetch postdata resolv id data
  | .sock _ | .timer _ => c

/-- The call is made and reports `CURLM_ABORTED_BY_CALLBACK`. -/
def Aborted (lib : Libcurl) (c : HttpsClient ρ) : MultiSite ρ → Prop
  | .fetch _ _ _ _ =>
    lib.easySetopt c.calls = true ∧ (lib.addHandle c.calls).code = .abortedByCallback
  | .sock _ | .timer _ => (lib.socketAction c.calls).code = .abortedByCallback

/-- The client behind the function. -/
def after (lib : Libcurl) (c : HttpsClient ρ) : MultiSite ρ → HttpsClient ρ
  | .fetch postdata resolv id data => c.httpsClientFetch lib postdata resolv id data
  | .sock msgs => c.sockCb lib msgs
  | .timer msgs => c.timerCb lib msgs

end MultiSite

namespace HttpsClient

variable (lib : Libcurl) {c : HttpsClient ρ}

/-- `sock_cb` ends the process. -/
theorem sockCb_exited (h : (lib.socketAction c.calls).code = .abortedByCallback)
    (msgs : List CurlMsg) : (c.sockCb lib msgs).exited = true := by
  have hcode : (c.curlMultiSocketAction lib).1 ≠ .ok := by
    rw [show (c.curlMultiSocketAction lib).1 = .abortedByCallback from h]
    decide
  unfold sockCb
  simp only
  rw [if_neg hcode]

/-- `timer_cb` goes on with the multi handle it has. -/
theorem curlm_timerCb (c : HttpsClient ρ) (msgs : List CurlMsg) :
    (c.timerCb lib msgs).curlm = c.curlm :=
  (curlm_checkMultiInfo lib msgs _).trans (sameHandle_transferCallbacks _ _).curlm

/-- `https_fetch_ctx_init` resets the client. -/
theorem addFetch_recovered_iff (hx : c.exited = false) (hopt : lib.easySetopt c.calls = true)
    (hcode : (lib.addHandle c.calls).code = .abortedByCallback) :
    Recovered c (c.addFetch lib) ↔
      (∀ i < c.fetches.length, (lib.removeHandle (c.calls + 1 + i)).code = .ok) ∧
        lib.multiSetopt (c.calls + 1 + c.fetches.length + 1) = true := by
  have hframe := c.socketFrame_multiCall (lib.addHandle c.calls)
  have hhandle : SameHandle { c with calls := c.calls + 1 }
      (c.multiCall (lib.addHandle c.calls)).2 := sameHandle_socketCallbacks _ _
  have hres : c.addFetch lib = (c.multiCall (lib.addHandle c.calls)).2.httpsClientReset lib := by
    have hcode' : (c.multiCall (lib.addHandle c.calls)).1 = .abortedByCallback := hcode
    unfold addFetch
    simp only [hopt, hcode']
    rfl
  rw [hres]
  generalize (c.multiCall (lib.addHandle c.calls)).2 = c' at hframe hhandle
  have hreset := httpsClientReset_recovered_iff lib (hframe.exited.trans hx)
  rw [ResetAccepted, hframe.fetches, hhandle.calls] at hreset
  rw [← hreset]
  have hcallbacks := callbacks_of_socketFrame hframe
  constructor
  · intro h
    exact ⟨h.exited, by rw [hcallbacks, hframe.fetches]; exact h.callbacks, h.fetches,
      h.curlm.trans (congrArg (· + 1) hhandle.curlm.symm)⟩
  · intro h
    have hh := h.callbacks
    rw [hcallbacks, hframe.fetches] at hh
    exact ⟨h.exited, hh, h.fetches, h.curlm.trans (congrArg (· + 1) hhandle.curlm)⟩

end HttpsClient

/-- Recovery from an aborted multi handle, for every client and every place that may come upon
it : the client is recovered exactly if the call was `curl_multi_add_handle`, and libcurl lets go
of the handles of all fetches and accepts the options of the new multi handle. -/
theorem recovered_iff (lib : Libcurl) {c : HttpsClient ρ} (hx : c.exited = false)
    (site : MultiSite ρ) (h : site.Aborted lib c) :
    HttpsClient.Recovered (site.client c) (site.after lib c) ↔
      (∃ postdata resolv id data, site = .fetch postdata resolv id data) ∧
        (∀ i < c.fetches.length + 1, (lib.removeHandle (c.calls + 1 + i)).code = .ok) ∧
        lib.multiSetopt (c.calls + 1 + (c.fetches.length + 1) + 1) = true := by
  cases site with
  | fetch postdata resolv id data =>
    have hfetch := HttpsClient.addFetch_recovered_iff lib
      (show (c.startFetch postdata resolv id data).exited = false from hx) h.1 h.2
    refine hfetch.trans ⟨fun h => ⟨⟨postdata, resolv, id, data, rfl⟩, h⟩, fun h => h.2⟩
  | sock msgs =>
    refine iff_of_false (fun hrec => ?_) (fun hcond => ?_)
    · have hexit := HttpsClient.sockCb_exited lib h msgs
      have hfalse : (c.sockCb lib msgs).exited = false := hrec.exited
      rw [hexit] at hfalse
      cases hfalse
    · obtain ⟨⟨_, _, _, _, hsite⟩, -⟩ := hcond
      cases hsite
  | timer msgs =>
    refine iff_of_false (fun hrec => ?_) (fun hcond => ?_)
    · have hcurlm : (c.timerCb lib msgs).curlm = c.curlm + 1 := hrec.curlm
      rw [HttpsClient.curlm_timerCb] at hcurlm
      omega
    · obtain ⟨⟨_, _, _, _, hsite⟩, -⟩ := hcond
      cases hsite

/-- libcurl sets the timeout of a new handle, and at the timeout opens its socket. From the next
call on it asks for a watcher more than there are, and reports that the callback has failed. -/
def exhaustedLibcurl : Libcurl where
  easySetopt _ := true
  multiSetopt _ := true
  addHandle n :=
    if n = 1 then ⟨[.multiTimer 0], .ok⟩
    else ⟨(List.range 13).map fun i => .multiSock (i + 7) .input, .abortedByCallback⟩
  removeHandle _ := ⟨[], .ok⟩
  socketAction n :=
    if n = 2 then
      ⟨[.socket (.openSocket (some 7)), .socket (.multiSock 7 .output),
        .socket (.multiTimer 5000)], .ok⟩
    else ⟨(List.range 13).map fun i => .socket (.multiSock (i + 7) .input), .abortedByCallback⟩
  multiCleanup _ := []

/-- A client with one fetch, on the socket 7. -/
def fetching : HttpsClient Unit :=
  HttpsClient.run exhaustedLibcurl false [.fetch [] none 7 (), .timer []]

/-- A second fetch comes upon it : both fetches are aborted and the client is reset. -/
theorem recovered_fetch :
    fetching.exited = false ∧ HttpsClient.Recovered (fetching.startFetch [] none 8 ())
      (fetching.httpsClientFetch exhaustedLibcurl [] none 8 ()) := by
  refine ⟨by decide, ?_⟩
  exact (recovered_iff exhaustedLibcurl (by decide) (.fetch [] none 8 ()) ⟨rfl, by decide⟩).2
    ⟨⟨_, _, _, _, rfl⟩, fun _ _ => rfl, rfl⟩

/-- The socket becomes ready and its watcher comes upon it : the process ends. The timer runs out
and `timer_cb` does : the fetch stays where it is, on the same multi handle. -/
theorem recovered_sock_timer :
    let sock := fetching.step exhaustedLibcurl (.sock 7 [])
    let timer := fetching.step exhaustedLibcurl (.timer [])
    fetching.exited = false ∧ fetching.listed = [(0, ())] ∧
      (∃ w ∈ fetching.ioEvents, w.fd = 7 ∧ w.active = true) ∧
      MultiSite.Aborted exhaustedLibcurl fetching (.sock []) ∧
      sock = fetching.sockCb exhaustedLibcurl [] ∧ sock.exited = true ∧
      ¬HttpsClient.Recovered fetching sock ∧
      fetching.timer = some 5000 ∧
      MultiSite.Aborted exhaustedLibcurl fetching (.timer []) ∧
      timer = fetching.timerCb exhaustedLibcurl [] ∧ timer.exited = false ∧
      timer.listed = [(0, ())] ∧ timer.callbacks = [] ∧
      ¬HttpsClient.Recovered fetching timer := by
  have hsock : fetching.step exhaustedLibcurl (.sock 7 []) =
      fetching.sockCb exhaustedLibcurl [] := by
    rw [HttpsClient.step, if_neg (by decide)]
    exact if_pos (by decide)
  have htimer : fetching.step exhaustedLibcurl (.timer []) =
      fetching.timerCb exhaustedLibcurl [] := by
    rw [HttpsClient.step, if_neg (by decide)]
    exact if_pos (by decide)
  have haborted : (exhaustedLibcurl.socketAction fetching.calls).code = .abortedByCallback := by
    decide
  have hexited := HttpsClient.sockCb_exited exhaustedLibcurl haborted []
  rw [hsock, htimer]
  refine ⟨by decide, by decide, by decide, haborted, rfl, hexited, fun h => ?_, by decide,
    haborted, rfl, by decide +kernel, by decide +kernel, by decide +kernel, fun h => ?_⟩
  · rw [h.exited] at hexited
    cases hexited
  · have hcurlm := h.curlm
    rw [HttpsClient.curlm_timerCb] at hcurlm
    omega

end HttpsDnsProxy
