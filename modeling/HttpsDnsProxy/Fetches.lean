import HttpsDnsProxy.HttpsClient
import HttpsDnsProxy.Runs
import Mathlib.Logic.Relation
import Mathlib.Data.List.Perm.Basic

/-!
# Fetches over whole runs

`HttpsStep` lists what the client does to the transfers it has : run a callback of libcurl,
change a field that has nothing to do with them, finish one. Each function of the client is
a sequence of such steps (`Steps`), after the start of a new one in `https_client_fetch`. So
what the steps and the start keep, the client keeps. The functions that bring no response are
sequences of `QuietStep`s.

`Fetches` is such an invariant : the fetches in the list and those whose callback has run
are together the fetches started, each once. `fetchOnce` draws the conclusion for runs.
-/

namespace HttpsDnsProxy

variable {ρ : Type*}

namespace HttpsClient

/-! ## What the client can do -/

/-- The transfers, their sockets and the effects are left alone. -/
structure SameTransfers (c c' : HttpsClient ρ) : Prop where
  fetches : c'.fetches = c.fetches
  nextBlock : c'.nextBlock = c.nextBlock
  effects : c'.effects = c.effects
  connections : c'.connections = c.connections
  ioEvents : c'.ioEvents = c.ioEvents
  stat : c'.stat = c.stat
  exited : c.exited = true → c'.exited = true

/-- One thing the client does. -/
inductive HttpsStep (c : HttpsClient ρ) : HttpsClient ρ → Prop where
  | callback (cb : TransferCallback) : HttpsStep c (c.transferCallback cb)
  | frame {c' : HttpsClient ρ} : SameTransfers c c' → HttpsStep c c'
  | finish {pre post : List (HttpsFetchCtx ρ)} {ctx : HttpsFetchCtx ρ}
      (result : Option (CurlCode × TransferInfo)) : c.fetches = pre ++ ctx :: post →
      HttpsStep c (c.finishFetch (pre.getLast?.map HttpsFetchCtx.block) ctx result)

/-- The process does not come back. -/
theorem HttpsStep.exited {c c' : HttpsClient ρ} (h : HttpsStep c c') (hx : c.exited = true) :
    c'.exited = true := by
  cases h with
  | callback cb =>
    cases cb with
    | socket cb => exact (c.socketFrame_socketCallback cb).exited.trans hx
    | write => exact hx
  | frame hf => exact hf.exited hx
  | finish result _ => exact (c.finishFetch_spec _ _ result).2.2.1.trans hx

/-- Any number of steps. -/
def Steps : HttpsClient ρ → HttpsClient ρ → Prop :=
  Relation.ReflTransGen HttpsStep

/-- What every step keeps, any number of them keeps. -/
theorem Steps.keeps {P : HttpsClient ρ → Prop} (hP : ∀ c c', HttpsStep c c' → P c → P c')
    {c c' : HttpsClient ρ} (h : Steps c c') (hc : P c) : P c' := by
  induction h with
  | refl => exact hc
  | tail _ hs ih => exact hP _ _ hs ih

namespace Steps

theorem refl (c : HttpsClient ρ) : Steps c c :=
  Relation.ReflTransGen.refl

theorem trans {c c' c'' : HttpsClient ρ} (h : Steps c c') (h' : Steps c' c'') : Steps c c'' :=
  Relation.ReflTransGen.trans h h'

theorem one {c c' : HttpsClient ρ} (h : HttpsStep c c') : Steps c c' :=
  Relation.ReflTransGen.single h

theorem of_same {c c' : HttpsClient ρ} (h : SameTransfers c c') : Steps c c' :=
  one (.frame h)

end Steps

/-! ## Steps that bring no response -/

/-- One thing the client does outside the progress and the end of transfers : run a callback of
libcurl about sockets, change a field that has nothing to do with the transfers, other than to
start the reset timer, or abort a fetch. -/
inductive QuietStep (c : HttpsClient ρ) : HttpsClient ρ → Prop where
  | socket (cb : SocketCallback) : QuietStep c (c.socketCallback cb)
  | frame {c' : HttpsClient ρ} : SameTransfers c c' →
      (c'.resetTimer = true → c.resetTimer = true) → QuietStep c c'
  | abort {pre post : List (HttpsFetchCtx ρ)} {ctx : HttpsFetchCtx ρ} :
      c.fetches = pre ++ ctx :: post →
      QuietStep c (c.finishFetch (pre.getLast?.map HttpsFetchCtx.block) ctx none)

theorem QuietStep.httpsStep {c c' : HttpsClient ρ} (h : QuietStep c c') : HttpsStep c c' := by
  cases h with
  | socket cb => exact .callback (.socket cb)
  | frame hf _ => exact .frame hf
  | abort hsplit => exact .finish none hsplit

/-- Any number of such steps. -/
def Quiet : HttpsClient ρ → HttpsClient ρ → Prop :=
  Relation.ReflTransGen QuietStep

namespace Quiet

theorem refl (c : HttpsClient ρ) : Quiet c c :=
  Relation.ReflTransGen.refl

theorem trans {c c' c'' : HttpsClient ρ} (h : Quiet c c') (h' : Quiet c' c'') : Quiet c c'' :=
  Relation.ReflTransGen.trans h h'

theorem one {c c' : HttpsClient ρ} (h : QuietStep c c') : Quiet c c' :=
  Relation.ReflTransGen.single h

theorem of_same {c c' : HttpsClient ρ} (h : SameTransfers c c')
    (ht : c'.resetTimer = true → c.resetTimer = true) : Quiet c c' :=
  one (.frame h ht)

theorem steps {c c' : HttpsClient ρ} (h : Quiet c c') : Steps c c' := by
  induction h with
  | refl => exact .refl c
  | tail _ hs ih => exact ih.trans (.one hs.httpsStep)

/-- What every quiet step keeps, any number of them keeps. -/
theorem keeps {P : HttpsClient ρ → Prop} (hP : ∀ c c', QuietStep c c' → P c → P c')
    {c c' : HttpsClient ρ} (h : Quiet c c') (hc : P c) : P c' := by
  induction h with
  | refl => exact hc
  | tail _ hs ih => exact hP _ _ hs ih

end Quiet

section QuietFunctions

variable (lib : Libcurl) (c : HttpsClient ρ)

theorem quiet_socketCallbacks : ∀ (cbs : List SocketCallback) (c : HttpsClient ρ),
    Quiet c (cbs.foldl socketCallback c)
  | [], c => .refl c
  | cb :: cbs, _ => (Quiet.one (.socket cb)).trans (quiet_socketCallbacks cbs _)

theorem quiet_calls (n : ℕ) : Quiet c { c with calls := n } :=
  .of_same ⟨rfl, rfl, rfl, rfl, rfl, rfl, id⟩ id

theorem quiet_headerList (l : List CString) : Quiet c { c with headerList := l } :=
  .of_same ⟨rfl, rfl, rfl, rfl, rfl, rfl, id⟩ id

theorem quiet_stopResetTimer : Quiet c { c with resetTimer := false } :=
  .of_same ⟨rfl, rfl, rfl, rfl, rfl, rfl, id⟩ fun h => by cases h

theorem quiet_exit : Quiet c { c with exited := true } :=
  .of_same ⟨rfl, rfl, rfl, rfl, rfl, rfl, fun _ => rfl⟩ id

theorem quiet_httpsClientMultiInit (l : List CString) : Quiet c (c.httpsClientMultiInit lib l) :=
  .of_same ⟨rfl, rfl, rfl, rfl, rfl, rfl, fun h => by simp [httpsClientMultiInit, h]⟩ id

theorem quiet_multiCall (call : MultiCall) : Quiet c (c.multiCall call).2 :=
  (c.quiet_calls _).trans (quiet_socketCallbacks call.callbacks _)

theorem quiet_curlMultiCleanup : Quiet c (c.curlMultiCleanup lib) :=
  (c.quiet_calls _).trans (quiet_socketCallbacks (lib.multiCleanup c.calls) _)

/-- The head of the list is aborted. -/
theorem quiet_httpsFetchCtxCleanup {ctx : HttpsFetchCtx ρ} {rest : List (HttpsFetchCtx ρ)}
    (h : c.fetches = ctx :: rest) : Quiet c (c.httpsFetchCtxCleanup lib none ctx none) := by
  have hcall := c.quiet_multiCall (lib.removeHandle c.calls)
  have hsplit : (c.multiCall (lib.removeHandle c.calls)).2.fetches = [] ++ ctx :: rest :=
    (c.socketFrame_multiCall _).fetches.trans h
  unfold httpsFetchCtxCleanup
  simp only
  split_ifs
  · exact hcall.trans (quiet_exit _)
  · exact hcall.trans (.one (.abort hsplit))

theorem quiet_dropFetches : ∀ (n : ℕ) (c : HttpsClient ρ), Quiet c (dropFetches lib n c)
  | 0, c => .refl c
  | n + 1, c => by
    unfold dropFetches
    split_ifs
    · exact .refl c
    · cases hf : c.fetches with
      | nil => exact .refl c
      | cons ctx rest =>
        exact (c.quiet_httpsFetchCtxCleanup lib hf).trans (quiet_dropFetches n _)

theorem quiet_httpsClientCleanup : Quiet c (c.httpsClientCleanup lib) := by
  have hdrop := quiet_dropFetches lib c.fetches.length c
  unfold httpsClientCleanup
  generalize dropFetches lib c.fetches.length c = c' at hdrop
  have hmulti := quiet_curlMultiCleanup lib { c' with headerList := [] }
  simp only
  split_ifs
  · exact hdrop
  · exact hdrop.trans ((c'.quiet_headerList []).trans (hmulti.trans (quiet_stopResetTimer _)))

theorem quiet_httpsClientReset : Quiet c (c.httpsClientReset lib) := by
  have hall : Quiet c (({ c with headerList := [] } : HttpsClient ρ).httpsClientCleanup lib) :=
    (c.quiet_headerList []).trans (quiet_httpsClientCleanup lib _)
  unfold httpsClientReset
  simp only
  split_ifs
  · exact hall
  · exact hall.trans (quiet_httpsClientMultiInit lib _ _)

theorem quiet_addFetch : Quiet c (c.addFetch lib) := by
  unfold addFetch
  split_ifs
  · exact c.quiet_exit
  · have hcall := c.quiet_multiCall (lib.addHandle c.calls)
    simp only
    generalize c.multiCall (lib.addHandle c.calls) = p at hcall
    obtain ⟨code, c'⟩ := p
    cases code with
    | ok => exact hcall
    | abortedByCallback => exact hcall.trans (c'.quiet_httpsClientReset lib)
    | other n =>
      cases hf : c'.fetches with
      | nil => simpa [hf] using hcall
      | cons head rest => exact hcall.trans (c'.quiet_httpsFetchCtxCleanup lib hf)

theorem quiet_resetTimerCb : Quiet c (c.resetTimerCb lib) :=
  c.quiet_stopResetTimer.trans (quiet_httpsClientReset lib _)

end QuietFunctions

/-! ## Each function is a sequence of steps -/

section Functions

variable (lib : Libcurl) (c : HttpsClient ρ)

theorem steps_transferCallbacks : ∀ (cbs : List TransferCallback) (c : HttpsClient ρ),
    Steps c (cbs.foldl transferCallback c)
  | [], c => .refl c
  | cb :: cbs, _ => (Steps.one (.callback cb)).trans (steps_transferCallbacks cbs _)

theorem steps_exit : Steps c { c with exited := true } :=
  c.quiet_exit.steps

theorem steps_curlMultiSocketAction : Steps c (c.curlMultiSocketAction lib).2 :=
  (c.quiet_calls _).steps.trans (steps_transferCallbacks (lib.socketAction c.calls).callbacks _)

theorem steps_httpsFetchCtxCleanup {pre post : List (HttpsFetchCtx ρ)} {ctx : HttpsFetchCtx ρ}
    (h : c.fetches = pre ++ ctx :: post) (result : Option (CurlCode × TransferInfo)) :
    Steps c (c.httpsFetchCtxCleanup lib (pre.getLast?.map HttpsFetchCtx.block) ctx result) := by
  have hcall := (c.quiet_multiCall (lib.removeHandle c.calls)).steps
  unfold httpsFetchCtxCleanup
  simp only
  split_ifs
  · exact hcall.trans (steps_exit _)
  · exact hcall.trans (.one (.finish result ((c.socketFrame_multiCall _).fetches.trans h)))

theorem steps_checkMultiInfo : ∀ (msgs : List CurlMsg) (c : HttpsClient ρ),
    Steps c (checkMultiInfo lib msgs c)
  | [], c => .refl c
  | msg :: msgs, c => by
    unfold checkMultiInfo
    split_ifs
    · exact .refl c
    · cases msg with
      | other => exact steps_checkMultiInfo msgs c
      | done easyHandle result info =>
        simp only
        split
        · exact steps_checkMultiInfo msgs c
        · next prev ctx hfind =>
          obtain ⟨pre, post, hsplit, -, -, hprev⟩ := LinkedLists.findPrev_eq_some hfind
          rw [Option.or_none] at hprev
          rw [hprev]
          exact (c.steps_httpsFetchCtxCleanup lib hsplit _).trans (steps_checkMultiInfo msgs _)

/-- What quiet steps and the ends of transfers keep, reading the messages keeps. -/
theorem checkMultiInfo_keeps {P : HttpsClient ρ → Prop} (hP : ∀ c c', QuietStep c c' → P c → P c')
    (hfinish : ∀ (c : HttpsClient ρ) pre ctx post result info, c.fetches = pre ++ ctx :: post →
      P c → P (c.finishFetch (pre.getLast?.map HttpsFetchCtx.block) ctx (some (result, info)))) :
    ∀ (msgs : List CurlMsg) {c : HttpsClient ρ}, P c → P (checkMultiInfo lib msgs c)
  | [], _, h => h
  | msg :: msgs, c, h => by
    unfold checkMultiInfo
    split_ifs
    · exact h
    · cases msg with
      | other => exact checkMultiInfo_keeps hP hfinish msgs h
      | done easyHandle result info =>
        simp only
        split
        · exact checkMultiInfo_keeps hP hfinish msgs h
        · next prev ctx hfind =>
          obtain ⟨pre, post, hsplit, -, -, hprev⟩ := LinkedLists.findPrev_eq_some hfind
          rw [Option.or_none] at hprev
          have hcall := (c.quiet_multiCall (lib.removeHandle c.calls)).keeps hP h
          have hsplit' := (c.socketFrame_multiCall (lib.removeHandle c.calls)).fetches.trans hsplit
          refine checkMultiInfo_keeps hP hfinish msgs ?_
          unfold httpsFetchCtxCleanup
          simp only
          split_ifs
          · exact (quiet_exit _).keeps hP hcall
          · rw [hprev]
            exact hfinish _ pre ctx post result info hsplit' hcall

theorem steps_httpsClientCleanup : Steps c (c.httpsClientCleanup lib) :=
  (c.quiet_httpsClientCleanup lib).steps

theorem steps_httpsClientReset : Steps c (c.httpsClientReset lib) :=
  (c.quiet_httpsClientReset lib).steps

theorem steps_addFetch : Steps c (c.addFetch lib) :=
  (c.quiet_addFetch lib).steps

theorem steps_sockCb (msgs : List CurlMsg) : Steps c (c.sockCb lib msgs) := by
  have hact := c.steps_curlMultiSocketAction lib
  unfold sockCb
  simp only
  split_ifs
  · exact hact.trans (steps_checkMultiInfo lib msgs _)
  · exact hact.trans (steps_exit _)

theorem steps_timerCb (msgs : List CurlMsg) : Steps c (c.timerCb lib msgs) := by
  have htimer : Steps c { c with timer := none } := .of_same ⟨rfl, rfl, rfl, rfl, rfl, rfl, id⟩
  exact htimer.trans ((steps_curlMultiSocketAction lib _).trans (steps_checkMultiInfo lib msgs _))

theorem steps_resetTimerCb : Steps c (c.resetTimerCb lib) :=
  (c.quiet_resetTimerCb lib).steps

end Functions

/-! ## Started, called, listed -/

end HttpsClient

/-- A fetch with the data of its callback. -/
def HttpsFetchCtx.key (ctx : HttpsFetchCtx ρ) : ℕ × ρ :=
  (ctx.block, ctx.cbData)

/-- The fetch an effect starts. -/
def HttpsEffect.starts : HttpsEffect ρ → Option (ℕ × ρ)
  | .started ctx => some ctx.key
  | _ => none

/-- The fetch whose callback an effect runs. -/
def HttpsEffect.runs : HttpsEffect ρ → Option (ℕ × ρ)
  | .call block data _ => some (block, data)
  | _ => none

theorem filterMap_connection {α : Type*} {f : HttpsEffect ρ → Option α} {es : List (HttpsEffect ρ)}
    (hf : ∀ e : HttpsEffect ρ, e.isConnection = true → f e = none)
    (hes : ∀ e ∈ es, e.isConnection = true) : es.filterMap f = [] :=
  List.filterMap_eq_nil_iff.2 fun e he => hf e (hes e he)

theorem HttpsEffect.starts_connection : ∀ e : HttpsEffect ρ, e.isConnection = true → e.starts = none
  | .connectionOpened, _ | .connectionClosed, _ | .connectionReused, _ => rfl

theorem HttpsEffect.runs_connection : ∀ e : HttpsEffect ρ, e.isConnection = true → e.runs = none
  | .connectionOpened, _ | .connectionClosed, _ | .connectionReused, _ => rfl

namespace HttpsClient

/-- The fetches started so far. -/
def started (c : HttpsClient ρ) : List (ℕ × ρ) :=
  c.effects.filterMap HttpsEffect.starts

/-- The fetches whose callback has run so far. -/
def called (c : HttpsClient ρ) : List (ℕ × ρ) :=
  c.effects.filterMap HttpsEffect.runs

/-- The fetches in the list. -/
def listed (c : HttpsClient ρ) : List (ℕ × ρ) :=
  c.fetches.map HttpsFetchCtx.key

theorem listed_split {c : HttpsClient ρ} {pre post : List (HttpsFetchCtx ρ)}
    {ctx : HttpsFetchCtx ρ} (h : c.fetches = pre ++ ctx :: post) :
    c.listed = pre.map HttpsFetchCtx.key ++ ctx.key :: post.map HttpsFetchCtx.key := by
  rw [listed, h, List.map_append, List.map_cons]

theorem listed_append {c : HttpsClient ρ} {pre post : List (HttpsFetchCtx ρ)}
    (h : c.fetches = pre ++ post) :
    c.listed = pre.map HttpsFetchCtx.key ++ post.map HttpsFetchCtx.key := by
  rw [listed, h, List.map_append]

/-- A fetch that is unlinked leaves the others in the list. -/
theorem listed_sublist_of_unlink {c c' : HttpsClient ρ} {pre post : List (HttpsFetchCtx ρ)}
    {ctx : HttpsFetchCtx ρ} (h : c.fetches = pre ++ ctx :: post) (h' : c'.fetches = pre ++ post) :
    c'.listed.Sublist c.listed := by
  rw [listed_split h, listed_append h']
  exact (List.sublist_cons_self _ _).append_left _

/-- A callback of libcurl leaves the list as it is, but for the buffers. -/
theorem listed_transferCallback (c : HttpsClient ρ) :
    ∀ cb : TransferCallback, (c.transferCallback cb).listed = c.listed
  | .socket cb => congrArg (List.map _) (c.socketFrame_socketCallback cb).fetches
  | .write curl chunk realloc => by
    simp only [listed, transferCallback, List.map_map]
    refine List.map_congr_left fun ctx _ => ?_
    simp only [Function.comp_apply]
    split_ifs
    · obtain ⟨buf, hbuf⟩ := ctx.writeBuffer_eq chunk realloc
      rw [hbuf]
      rfl
    · rfl

/-- A callback of libcurl starts no fetch. -/
theorem nextBlock_transferCallback (c : HttpsClient ρ) :
    ∀ cb : TransferCallback, (c.transferCallback cb).nextBlock = c.nextBlock
  | .socket cb => (c.socketFrame_socketCallback cb).nextBlock
  | .write _ _ _ => rfl

/-- A callback of libcurl counts connections at most. -/
theorem effects_transferCallback (c : HttpsClient ρ) :
    ∀ cb : TransferCallback, ∃ es, (c.transferCallback cb).effects = c.effects ++ es ∧
      ∀ e ∈ es, e.isConnection = true
  | .socket cb => (c.socketFrame_socketCallback cb).effects
  | .write _ _ _ => ⟨[], by simp [transferCallback], by simp⟩

/-- The fetches in the list, with the resolver lists they were started with. -/
def pins (c : HttpsClient ρ) : List (ℕ × Option SList) :=
  c.fetches.map fun ctx => (ctx.block, ctx.resolve)

theorem pins_transferCallback (c : HttpsClient ρ) :
    ∀ cb : TransferCallback, (c.transferCallback cb).pins = c.pins
  | .socket cb => congrArg (List.map _) (c.socketFrame_socketCallback cb).fetches
  | .write curl chunk realloc => by
    simp only [pins, transferCallback, List.map_map]
    refine List.map_congr_left fun ctx _ => ?_
    simp only [Function.comp_apply]
    split_ifs
    · obtain ⟨buf, hbuf⟩ := ctx.writeBuffer_eq chunk realloc
      rw [hbuf]
    · rfl

/-- The fetches in the list and those whose callback has run are together the fetches
started, and none was started twice. -/
structure Fetches (c : HttpsClient ρ) : Prop where
  lt : ∀ p ∈ c.started, p.1 < c.nextBlock
  nodup : (c.started.map Prod.fst).Nodup
  perm : (c.listed ++ c.called).Perm c.started

namespace Fetches

variable {c c' : HttpsClient ρ}

theorem of_eq (h : Fetches c) (hn : c'.nextBlock = c.nextBlock) (hs : c'.started = c.started)
    (hl : c'.listed = c.listed) (hc : c'.called = c.called) : Fetches c' :=
  ⟨by rw [hs, hn]; exact h.lt, by rw [hs]; exact h.nodup, by rw [hs, hl, hc]; exact h.perm⟩

theorem block_nodup (h : Fetches c) : (c.fetches.map HttpsFetchCtx.block).Nodup := by
  have hperm := (h.perm.map Prod.fst).nodup_iff.2 h.nodup
  rw [List.map_append, listed, List.map_map] at hperm
  exact hperm.of_append_left

theorem callback (h : Fetches c) (cb : TransferCallback) : Fetches (c.transferCallback cb) := by
  obtain ⟨es, hes, hconn⟩ := c.effects_transferCallback cb
  refine h.of_eq (c.nextBlock_transferCallback cb) ?_ (c.listed_transferCallback cb) ?_
  · simp [started, hes, filterMap_connection HttpsEffect.starts_connection hconn]
  · simp [called, hes, filterMap_connection HttpsEffect.runs_connection hconn]

/-- Finishing a fetch takes exactly it out of the list. -/
theorem fetches_finishFetch (h : Fetches c) {pre post : List (HttpsFetchCtx ρ)}
    {ctx : HttpsFetchCtx ρ} (hsplit : c.fetches = pre ++ ctx :: post)
    (result : Option (CurlCode × TransferInfo)) :
    (c.finishFetch (pre.getLast?.map HttpsFetchCtx.block) ctx result).fetches = pre ++ post := by
  have hnodup := h.block_nodup
  rw [hsplit] at hnodup
  rw [(c.finishFetch_spec _ ctx result).1, hsplit, LinkedLists.unlinkPrev_append hnodup]

theorem start (h : Fetches c) (postdata : List UInt8) (resolv : Option SList) (id : ℕ) (data : ρ) :
    Fetches (c.startFetch postdata resolv id data) := by
  have hstarted : (c.startFetch postdata resolv id data).started =
      c.started ++ [(c.nextBlock, data)] := by
    simp [started, startFetch, newCtx, HttpsEffect.starts, HttpsFetchCtx.key]
  have hcalled : (c.startFetch postdata resolv id data).called = c.called := by
    simp [called, startFetch, HttpsEffect.runs]
  have hlisted : (c.startFetch postdata resolv id data).listed =
      (c.nextBlock, data) :: c.listed := rfl
  refine ⟨?_, ?_, ?_⟩
  · rw [hstarted]
    intro p hp
    rcases List.mem_append.1 hp with hp | hp
    · exact Nat.lt_succ_of_lt (h.lt p hp)
    · rw [List.mem_singleton.1 hp]
      exact Nat.lt_succ_self _
  · rw [hstarted, List.map_append, List.nodup_append]
    refine ⟨h.nodup, List.nodup_singleton _, ?_⟩
    intro n hn m hm
    obtain ⟨p, hp, rfl⟩ := List.mem_map.1 hn
    rw [List.mem_singleton.1 hm]
    exact Nat.ne_of_lt (h.lt p hp)
  · rw [hstarted, hcalled, hlisted, List.cons_append]
    exact (h.perm.cons _).trans (List.perm_append_singleton _ _).symm

theorem finish (h : Fetches c) {pre post : List (HttpsFetchCtx ρ)} {ctx : HttpsFetchCtx ρ}
    (hsplit : c.fetches = pre ++ ctx :: post) (result : Option (CurlCode × TransferInfo)) :
    Fetches (c.finishFetch (pre.getLast?.map HttpsFetchCtx.block) ctx result) := by
  have hfetches := h.fetches_finishFetch hsplit result
  obtain ⟨-, hnext, -, heffects⟩ :=
    c.finishFetch_spec (pre.getLast?.map HttpsFetchCtx.block) ctx result
  have hlists : (c.finishFetch (pre.getLast?.map HttpsFetchCtx.block) ctx result).started =
        c.started ∧
      (c.finishFetch (pre.getLast?.map HttpsFetchCtx.block) ctx result).called =
        c.called ++ [ctx.key] := by
    rcases heffects with ⟨-, he⟩ | ⟨code, info, es, -, hconn, he⟩
    · simp [started, called, he, HttpsEffect.starts, HttpsEffect.runs, HttpsFetchCtx.key]
    · have hs : (HttpsEffect.ended ctx.block code info ctx.buf :: es).filterMap
          HttpsEffect.starts = [] := by
        rw [List.filterMap_cons_none rfl]
        exact filterMap_connection HttpsEffect.starts_connection hconn
      have hr : (HttpsEffect.ended ctx.block code info ctx.buf :: es).filterMap
          HttpsEffect.runs = [] := by
        rw [List.filterMap_cons_none rfl]
        exact filterMap_connection HttpsEffect.runs_connection hconn
      simp only [started, called, he, List.filterMap_append, hs, hr, List.append_nil]
      exact ⟨List.append_nil _, rfl⟩
  refine ⟨by rw [hlists.1, hnext]; exact h.lt, by rw [hlists.1]; exact h.nodup, ?_⟩
  have hperm := h.perm
  rw [listed, hsplit, List.map_append, List.map_cons, List.append_assoc, List.cons_append] at hperm
  rw [hlists.1, hlists.2, listed, hfetches, List.map_append, List.append_assoc,
    ← List.append_assoc _ _ [ctx.key]]
  refine List.Perm.trans ?_ hperm
  exact (List.perm_append_singleton _ _).append_left _

/-- Every step of the client keeps the account. -/
theorem step (hs : HttpsStep c c') (h : Fetches c) : Fetches c' := by
  cases hs with
  | callback cb => exact h.callback cb
  | frame hf =>
    exact h.of_eq hf.nextBlock (congrArg (List.filterMap _) hf.effects)
      (congrArg (List.map _) hf.fetches) (congrArg (List.filterMap _) hf.effects)
  | finish result hsplit => exact h.finish hsplit result

/-- Any number of steps keeps the account. -/
theorem steps (hs : Steps c c') (h : Fetches c) : Fetches c' :=
  hs.keeps (fun _ _ hs h => h.step hs) h

/-- A step lists no fetch, and does not change what the listed ones were started with. -/
theorem pins_step (hs : HttpsStep c c') (h : Fetches c) : c'.pins ⊆ c.pins := by
  cases hs with
  | callback cb => simp [pins_transferCallback]
  | frame hf => simp [pins, hf.fetches]
  | finish result hsplit =>
    rw [pins, pins, h.fetches_finishFetch hsplit, hsplit]
    exact List.map_subset _ (by simp)

theorem httpsClientInit (lib : Libcurl) (stat : Bool) :
    Fetches (HttpsDnsProxy.httpsClientInit lib stat : HttpsClient ρ) :=
  ⟨fun _ hp => (List.not_mem_nil hp).elim, List.nodup_nil, List.Perm.refl _⟩

theorem called_nodup (h : Fetches c) : c.called.Nodup :=
  ((h.perm.nodup_iff.2 h.nodup.of_map)).of_append_right

theorem listed_nodup (h : Fetches c) : c.listed.Nodup :=
  ((h.perm.nodup_iff.2 h.nodup.of_map)).of_append_left

/-- The list holds exactly the fetches started whose callback has not run. -/
theorem mem_listed_iff (h : Fetches c) (p : ℕ × ρ) :
    p ∈ c.listed ↔ p ∈ c.started ∧ p ∉ c.called := by
  have hdisj := List.disjoint_of_nodup_append (h.perm.nodup_iff.2 h.nodup.of_map)
  rw [← h.perm.mem_iff, List.mem_append]
  exact ⟨fun hp => ⟨Or.inl hp, fun hc => hdisj hp hc⟩, fun hp => hp.1.resolve_right hp.2⟩

end Fetches

/-! ## Closing down -/

/-- The process has ended because libcurl did not let go of a handle. -/
def Refused (lib : Libcurl) (c : HttpsClient ρ) : Prop :=
  c.exited = true ∧ ∃ n, (lib.removeHandle n).code ≠ .ok

/-- If libcurl lets go of the handle, the head of the list is unlinked. -/
theorem httpsFetchCtxCleanup_head (lib : Libcurl) {c : HttpsClient ρ} {ctx : HttpsFetchCtx ρ}
    {rest : List (HttpsFetchCtx ρ)} (h : c.fetches = ctx :: rest) :
    ((c.httpsFetchCtxCleanup lib none ctx none).fetches = rest ∧
        (c.httpsFetchCtxCleanup lib none ctx none).exited = c.exited) ∨
      Refused lib (c.httpsFetchCtxCleanup lib none ctx none) := by
  have hframe := c.socketFrame_multiCall (lib.removeHandle c.calls)
  obtain ⟨hfetches, -, hexited, -⟩ :=
    (c.multiCall (lib.removeHandle c.calls)).2.finishFetch_spec none ctx none
  unfold httpsFetchCtxCleanup
  simp only
  split_ifs with hcode
  · exact Or.inr ⟨rfl, c.calls, hcode⟩
  · refine Or.inl ⟨?_, hexited.trans hframe.exited⟩
    rw [hfetches, hframe.fetches, h]
    have hpre : ∀ x ∈ ([] : List (HttpsFetchCtx ρ)), x.block ≠ ctx.block := by simp
    exact LinkedLists.after_append hpre

theorem dropFetches_cons (lib : Libcurl) {c : HttpsClient ρ} {ctx : HttpsFetchCtx ρ}
    {rest : List (HttpsFetchCtx ρ)} (h : c.fetches = ctx :: rest) (hx : c.exited = false) (n : ℕ) :
    dropFetches lib (n + 1) c = dropFetches lib n (c.httpsFetchCtxCleanup lib none ctx none) := by
  simp [dropFetches, h, hx]

theorem dropFetches_of_exited (lib : Libcurl) {c : HttpsClient ρ} (hx : c.exited = true) (n : ℕ) :
    dropFetches lib n c = c := by
  cases n <;> simp [dropFetches, hx]

theorem dropFetches_spec (lib : Libcurl) :
    ∀ (n : ℕ) (c : HttpsClient ρ), c.fetches.length ≤ n → c.exited = false →
      ((dropFetches lib n c).fetches = [] ∧ (dropFetches lib n c).exited = false) ∨
        Refused lib (dropFetches lib n c)
  | 0, c, hn, hx => Or.inl ⟨List.length_eq_zero_iff.1 (Nat.le_zero.1 hn), hx⟩
  | n + 1, c, hn, hx => by
    cases hf : c.fetches with
    | nil => exact Or.inl (by simp [dropFetches, hf, hx])
    | cons ctx rest =>
      rw [dropFetches_cons lib hf hx]
      rcases httpsFetchCtxCleanup_head lib hf with ⟨hfetches, hexited⟩ | hrefused
      · refine dropFetches_spec lib n _ ?_ (hexited.trans hx)
        rw [hfetches]
        simpa [hf] using hn
      · rw [dropFetches_of_exited lib hrefused.1]
        exact Or.inr hrefused

/-- `https_client_cleanup` returns with no fetch left, unless libcurl does not let go of a
handle. -/
theorem httpsClientCleanup_spec (lib : Libcurl) {c : HttpsClient ρ} (hx : c.exited = false) :
    ((c.httpsClientCleanup lib).fetches = [] ∧ (c.httpsClientCleanup lib).exited = false) ∨
      Refused lib (c.httpsClientCleanup lib) := by
  have hdrop := dropFetches_spec lib c.fetches.length c le_rfl hx
  unfold httpsClientCleanup
  generalize dropFetches lib c.fetches.length c = c' at hdrop
  rcases hdrop with ⟨hfetches, hexited⟩ | hrefused
  · have hframe := socketFrame_foldl (lib.multiCleanup c'.calls)
      { c' with headerList := [], calls := c'.calls + 1 }
    simp only
    rw [if_neg (by simp [hexited])]
    exact Or.inl ⟨hframe.fetches.trans hfetches, hframe.exited.trans hexited⟩
  · simp only
    rw [if_pos hrefused.1]
    exact Or.inr hrefused

/-- `https_client_reset` leaves no fetch behind, if it returns. -/
theorem fetches_httpsClientReset (lib : Libcurl) {c : HttpsClient ρ} (hx : c.exited = false)
    (hreturns : (c.httpsClientReset lib).exited = false) :
    (c.httpsClientReset lib).fetches = [] := by
  have hx' : ({ c with headerList := [] } : HttpsClient ρ).exited = false := hx
  have hclean := httpsClientCleanup_spec lib hx'
  unfold httpsClientReset at hreturns ⊢
  simp only at hreturns ⊢
  generalize ({ c with headerList := [] } : HttpsClient ρ).httpsClientCleanup lib = c' at *
  rcases hclean with ⟨hfetches, hexited⟩ | hrefused
  · rw [if_neg (by simp [hexited])]
    exact hfetches
  · rw [if_pos hrefused.1, hrefused.1] at hreturns
    cases hreturns

end HttpsClient

/-! ## Runs -/

/-- What drives the client : a request to fetch, a socket ready for it or a timeout, with the
messages libcurl then has, the reset timer, and a reset for a new resolver address. -/
inductive HttpsEvent (ρ : Type*) where
  | fetch (postdata : List UInt8) (resolv : Option SList) (id : ℕ) (data : ρ)
  | sock (fd : ℕ) (msgs : List CurlMsg)
  | timer (msgs : List CurlMsg)
  | resetTimer
  | reset

namespace HttpsClient

/-- One event. libev calls a callback only while its watcher is active. -/
def step (lib : Libcurl) (c : HttpsClient ρ) (e : HttpsEvent ρ) : HttpsClient ρ :=
  if c.exited then c
  else
    match e with
    | .fetch postdata resolv id data => c.httpsClientFetch lib postdata resolv id data
    | .sock fd msgs =>
      if c.ioEvents.any fun w => w.fd = fd && w.active then c.sockCb lib msgs else c
    | .timer msgs => if c.timer.isSome then c.timerCb lib msgs else c
    | .resetTimer => if c.resetTimer then c.resetTimerCb lib else c
    | .reset => c.httpsClientReset lib

/-- The run of the events `es` from a client just initialised. -/
def run (lib : Libcurl) (stat : Bool) (es : List (HttpsEvent ρ)) : HttpsClient ρ :=
  Runs.run (step lib) (httpsClientInit lib stat) es

/-- Every event but the start of a fetch is a sequence of steps. -/
theorem steps_step (lib : Libcurl) (c : HttpsClient ρ) (e : HttpsEvent ρ)
    (he : ∀ postdata resolv id data, e ≠ .fetch postdata resolv id data) :
    Steps c (c.step lib e) := by
  unfold step
  by_cases hx : c.exited = true
  · rw [if_pos hx]
    exact .refl c
  rw [if_neg hx]
  cases e with
  | fetch postdata resolv id data => exact (he postdata resolv id data rfl).elim
  | sock fd msgs =>
    simp only
    split_ifs
    · exact c.steps_sockCb lib msgs
    · exact .refl c
  | timer msgs =>
    simp only
    split_ifs
    · exact c.steps_timerCb lib msgs
    · exact .refl c
  | resetTimer =>
    simp only
    split_ifs
    · exact c.steps_resetTimerCb lib
    · exact .refl c
  | reset => exact c.steps_httpsClientReset lib

/-- `sock_cb` as far as the call of `curl_multi_socket_action` : the process ends if it fails. -/
def sockAction (lib : Libcurl) (c : HttpsClient ρ) : HttpsClient ρ :=
  if (c.curlMultiSocketAction lib).1 = .ok then (c.curlMultiSocketAction lib).2
  else { (c.curlMultiSocketAction lib).2 with exited := true }

/-- `timer_cb` as far as the call of `curl_multi_socket_action`. -/
def timerAction (lib : Libcurl) (c : HttpsClient ρ) : HttpsClient ρ :=
  (({ c with timer := none } : HttpsClient ρ).curlMultiSocketAction lib).2

/-- The client behind the call of `curl_multi_socket_action`, if the event makes one, with the
messages that are read then. -/
def acted (lib : Libcurl) (c : HttpsClient ρ) :
    HttpsEvent ρ → Option (HttpsClient ρ × List CurlMsg)
  | .sock fd msgs =>
    if c.exited = false ∧ (c.ioEvents.any fun w => w.fd = fd && w.active) = true then
      some (c.sockAction lib, msgs)
    else none
  | .timer msgs =>
    if c.exited = false ∧ c.timer.isSome = true then some (c.timerAction lib, msgs) else none
  | _ => none

theorem checkMultiInfo_of_exited (lib : Libcurl) {c : HttpsClient ρ} (hx : c.exited = true)
    (msgs : List CurlMsg) : checkMultiInfo lib msgs c = c := by
  cases msgs <;> simp [checkMultiInfo, hx]

theorem sockCb_eq (lib : Libcurl) (c : HttpsClient ρ) (msgs : List CurlMsg) :
    c.sockCb lib msgs = checkMultiInfo lib msgs (c.sockAction lib) := by
  unfold sockCb sockAction
  generalize c.curlMultiSocketAction lib = p
  obtain ⟨code, c'⟩ := p
  simp only
  split_ifs
  · rfl
  · rw [checkMultiInfo_of_exited lib rfl]

/-- The rest of such an event is reading the messages. -/
theorem step_of_acted (lib : Libcurl) {c c' : HttpsClient ρ} {e : HttpsEvent ρ}
    {msgs : List CurlMsg} (h : c.acted lib e = some (c', msgs)) :
    c.step lib e = checkMultiInfo lib msgs c' := by
  cases e with
  | fetch | resetTimer | reset => cases h
  | sock fd msgs =>
    rw [acted] at h
    split_ifs at h with hact
    cases h
    rw [step, if_neg (by simp [hact.1])]
    simp only [hact.2, if_true, sockCb_eq]
  | timer msgs =>
    rw [acted] at h
    split_ifs at h with hact
    cases h
    rw [step, if_neg (by simp [hact.1])]
    simp only [hact.2, if_true]
    rfl

/-- What quiet steps and the call keep holds behind the call. -/
theorem of_acted {lib : Libcurl} {P Q : HttpsClient ρ → Prop} {c c' : HttpsClient ρ}
    (hP : ∀ c c', QuietStep c c' → P c → P c') (hQ : ∀ c c', QuietStep c c' → Q c → Q c')
    (hcall : ∀ c₀ : HttpsClient ρ, c₀.calls = c.calls → SameTransfers c c₀ → P c₀ →
      Q (c₀.curlMultiSocketAction lib).2)
    {e : HttpsEvent ρ} {msgs : List CurlMsg} (h : c.acted lib e = some (c', msgs)) (hc : P c) :
    Q c' := by
  cases e with
  | fetch | resetTimer | reset => cases h
  | sock fd msgs =>
    rw [acted] at h
    split_ifs at h
    cases h
    have hact := hcall c rfl ⟨rfl, rfl, rfl, rfl, rfl, rfl, id⟩ hc
    unfold sockAction
    split_ifs
    · exact hact
    · exact (quiet_exit _).keeps hQ hact
  | timer msgs =>
    rw [acted] at h
    split_ifs at h
    cases h
    have hsame : SameTransfers c { c with timer := none } := ⟨rfl, rfl, rfl, rfl, rfl, rfl, id⟩
    exact hcall _ rfl hsame ((Quiet.of_same hsame id).keeps hP hc)

/-- Any other event is quiet, after the start of a fetch. -/
theorem quiet_step_of_not_acted (lib : Libcurl) {c : HttpsClient ρ} {e : HttpsEvent ρ}
    (h : c.acted lib e = none) :
    Quiet c (c.step lib e) ∨ ∃ postdata resolv id data, e = .fetch postdata resolv id data ∧
      Quiet (c.startFetch postdata resolv id data) (c.step lib e) := by
  unfold step
  by_cases hx : c.exited = true
  · rw [if_pos hx]
    exact Or.inl (.refl c)
  rw [if_neg hx]
  cases e with
  | fetch postdata resolv id data =>
    exact Or.inr ⟨postdata, resolv, id, data, rfl, quiet_addFetch lib _⟩
  | sock fd msgs =>
    have hact : ¬(c.ioEvents.any fun w => w.fd = fd && w.active) = true := fun hany => by
      simp [acted, hx, hany] at h
    simp only [hact]
    exact Or.inl (.refl c)
  | timer msgs =>
    have hact : ¬c.timer.isSome = true := fun hsome => by simp [acted, hx, hsome] at h
    simp only [hact]
    exact Or.inl (.refl c)
  | resetTimer =>
    simp only
    split_ifs
    · exact Or.inl (c.quiet_resetTimerCb lib)
    · exact Or.inl (.refl c)
  | reset => exact Or.inl (c.quiet_httpsClientReset lib)

/-- Every event keeps the account. -/
theorem Fetches.event (lib : Libcurl) {c : HttpsClient ρ} (h : Fetches c) (e : HttpsEvent ρ) :
    Fetches (c.step lib e) := by
  cases e with
  | fetch postdata resolv id data =>
    unfold HttpsClient.step
    by_cases hx : c.exited = true
    · rw [if_pos hx]
      exact h
    · rw [if_neg hx]
      exact (h.start postdata resolv id data).steps (steps_addFetch lib _)
  | sock fd msgs => exact h.steps (c.steps_step lib _ (by simp))
  | timer msgs => exact h.steps (c.steps_step lib _ (by simp))
  | resetTimer => exact h.steps (c.steps_step lib _ (by simp))
  | reset => exact h.steps (c.steps_step lib _ (by simp))

theorem Fetches.run (lib : Libcurl) (stat : Bool) (es : List (HttpsEvent ρ)) :
    Fetches (HttpsClient.run lib stat es) :=
  Runs.invariant (fun _ e h => h.event lib e) es (.httpsClientInit lib stat)

end HttpsClient

/-- Every fetch completes exactly once, whatever libcurl does, as long as it lets go of a
handle it is told to remove. In every run the list holds, each once, the fetches started
whose callback has not run, and no callback runs twice. If the process is still there,
`https_client_cleanup` returns with the list empty and the callbacks of all fetches ever
started run. -/
theorem fetchOnce (lib : Libcurl) (hremove : ∀ n, (lib.removeHandle n).code = .ok) (stat : Bool)
    (es : List (HttpsEvent ρ)) :
    let c := HttpsClient.run lib stat es
    c.listed.Nodup ∧ (∀ p, p ∈ c.listed ↔ p ∈ c.started ∧ p ∉ c.called) ∧
      (c.started.map Prod.fst).Nodup ∧ c.called.Nodup ∧ (∀ p ∈ c.called, p ∈ c.started) ∧
      (c.exited = false →
        let c' := c.httpsClientCleanup lib
        c'.exited = false ∧ c'.fetches = [] ∧ c'.called.Perm c'.started) := by
  intro c
  have h : HttpsClient.Fetches c := HttpsClient.Fetches.run lib stat es
  refine ⟨h.listed_nodup, h.mem_listed_iff, h.nodup, h.called_nodup,
    fun p hp => h.perm.subset (List.mem_append_right _ hp), fun hx => ?_⟩
  have h' := h.steps (c.steps_httpsClientCleanup lib)
  obtain ⟨hfetches, hexited⟩ := (HttpsClient.httpsClientCleanup_spec lib hx).resolve_right
    fun ⟨_, n, hn⟩ => hn (hremove n)
  have hperm := h'.perm
  rw [HttpsClient.listed, hfetches] at hperm
  exact ⟨hexited, hfetches, hperm⟩

/-- A libcurl that accepts everything and runs no callback. -/
def obligingLibcurl : Libcurl where
  easySetopt _ := true
  multiSetopt _ := true
  addHandle _ := ⟨[], .ok⟩
  removeHandle _ := ⟨[], .ok⟩
  socketAction _ := ⟨[], .ok⟩
  multiCleanup _ := []

/-- One fetch, then `https_client_cleanup`. -/
theorem fetchOnce_one :
    ((HttpsClient.run obligingLibcurl false [.fetch [] none 7 ()]).httpsClientCleanup
      obligingLibcurl).called = [(0, ())] := by
  have h := (fetchOnce obligingLibcurl (fun _ => rfl) false [.fetch [] none 7 ()]).2.2.2.2.2 rfl
  exact List.perm_singleton.1 h.2.2

end HttpsDnsProxy
