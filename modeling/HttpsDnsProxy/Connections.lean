import HttpsDnsProxy.Fetches

/-!
# Connections of the HTTPS client

`opensocket_callback` and `closesocket_callback` count the connections there are in
`client->connections`, and tell the statistics about each. `Balanced` compares the two : the
count is the number of connections opened less those closed, and every step of the client keeps
it so. If libcurl closes only what it has opened (`ClosesOpened`), the count is not negative.
-/

namespace HttpsDnsProxy

variable {ρ : Type*}

/-- A connection is opened. -/
def HttpsEffect.isOpened : HttpsEffect ρ → Bool
  | .connectionOpened => true
  | _ => false

/-- A connection is closed. -/
def HttpsEffect.isClosed : HttpsEffect ρ → Bool
  | .connectionClosed => true
  | _ => false

namespace HttpsClient

variable {c c' : HttpsClient ρ}

/-- The number of connections opened, if there are statistics. -/
def opened (c : HttpsClient ρ) : ℕ :=
  c.effects.countP HttpsEffect.isOpened

/-- The number of connections closed, if there are statistics. -/
def closed (c : HttpsClient ρ) : ℕ :=
  c.effects.countP HttpsEffect.isClosed

/-- libcurl closes only sockets it has opened, each once. -/
def ClosesOpened (c : HttpsClient ρ) : Prop :=
  Runs.Matched HttpsEffect.isOpened HttpsEffect.isClosed c.effects

/-- There are statistics, and `client->connections` is what was opened and not closed. -/
structure Balanced (c : HttpsClient ρ) : Prop where
  stat : c.stat = true
  balance : c.connections = c.opened - c.closed
  limit : c.connections ≤ httpsSocketLimit

theorem tally_of_stat {e : HttpsEffect ρ} (h : c.stat = true) : c.tally e = c.emit e :=
  if_pos h

namespace Balanced

theorem of_eq (h : Balanced c) (hs : c'.stat = c.stat) (hn : c'.connections = c.connections)
    (ho : c'.opened = c.opened) (hc : c'.closed = c.closed) : Balanced c' :=
  ⟨hs.trans h.stat, by rw [hn, ho, hc]; exact h.balance, hn ▸ h.limit⟩

/-- An effect that is not about connections. -/
theorem emit (h : Balanced c) {e : HttpsEffect ρ} (ho : e.isOpened = false)
    (hc : e.isClosed = false) : Balanced (c.emit e) :=
  h.of_eq rfl rfl (by simp [opened, ho]) (by simp [closed, hc])

/-- A connection is opened and counted. -/
theorem opens (h : Balanced c) (hroom : c.connections < httpsSocketLimit) :
    Balanced (({ c with connections := c.connections + 1 } : HttpsClient ρ).tally
      .connectionOpened) := by
  rw [tally_of_stat (by exact h.stat)]
  refine ⟨h.stat, ?_, Int.add_one_le_of_lt hroom⟩
  have hbalance := h.balance
  simp only [opened, closed, effects_emit, List.countP_append] at hbalance ⊢
  simp [HttpsClient.emit, HttpsEffect.isOpened, HttpsEffect.isClosed, hbalance]
  omega

/-- A connection is closed and counted, whatever happens to the reset timer. -/
theorem closes (h : Balanced c) (resetTimer : Bool) :
    Balanced (({ c with connections := c.connections - 1, resetTimer := resetTimer } :
      HttpsClient ρ).tally .connectionClosed) := by
  rw [tally_of_stat (by exact h.stat)]
  refine ⟨h.stat, ?_, Int.le_trans (Int.sub_le_self _ (by decide)) h.limit⟩
  have hbalance := h.balance
  simp only [opened, closed, effects_emit, List.countP_append] at hbalance ⊢
  simp [HttpsClient.emit, HttpsEffect.isOpened, HttpsEffect.isClosed, hbalance]
  omega

theorem kept : KeptBySockets (Balanced : HttpsClient ρ → Prop) where
  opens _ hroom h := h.opens hroom
  closes _ resetTimer _ h := h.closes resetTimer
  watches _ _ h := h.of_eq rfl rfl rfl rfl
  timer _ _ h := h.of_eq rfl rfl rfl rfl

theorem transferCallback (h : Balanced c) :
    ∀ cb : TransferCallback, Balanced (c.transferCallback cb)
  | .socket cb => kept.socketCallback h cb
  | .write _ _ _ => h.of_eq rfl rfl rfl rfl

theorem httpsFetchCtxProcessResponse (h : Balanced c) (result : CurlCode) (info : TransferInfo) :
    Balanced (c.httpsFetchCtxProcessResponse result info).2 := by
  refine keep_httpsFetchCtxProcessResponse (h.of_eq rfl rfl rfl rfl) (fun c' h' => ?_) h result info
  rw [tally_of_stat h'.stat]
  exact h'.emit rfl rfl

theorem finishFetch (h : Balanced c) (prev : Option ℕ) (ctx : HttpsFetchCtx ρ)
    (result : Option (CurlCode × TransferInfo)) : Balanced (c.finishFetch prev ctx result) := by
  cases result with
  | none => exact (h.emit (e := .call ctx.block ctx.cbData none) rfl rfl).of_eq rfl rfl rfl rfl
  | some p =>
    obtain ⟨result, info⟩ := p
    have hended := h.emit (e := .ended ctx.block result info ctx.buf) rfl rfl
    have hcall := (hended.httpsFetchCtxProcessResponse result info).emit
      (e := .call ctx.block ctx.cbData (if faultyResponse result info then none else ctx.buf))
      rfl rfl
    exact hcall.of_eq rfl rfl rfl rfl

theorem start (h : Balanced c) (postdata : List UInt8) (resolv : Option SList) (id : ℕ)
    (data : ρ) : Balanced (c.startFetch postdata resolv id data) :=
  (h.emit (e := .started (c.newCtx postdata resolv id data)) rfl rfl).of_eq rfl rfl rfl rfl

/-- A step of the client counts the connections it opens and closes. -/
theorem step (h : Balanced c) (hstep : HttpsStep c c') : Balanced c' := by
  cases hstep with
  | callback cb => exact h.transferCallback cb
  | frame hf =>
    exact h.of_eq hf.stat hf.connections (by rw [opened, hf.effects]; rfl)
      (by rw [closed, hf.effects]; rfl)
  | finish result _ => exact h.finishFetch _ _ result

theorem nonneg (h : Balanced c) (hcloses : ClosesOpened c) : 0 ≤ c.connections := by
  have hle : c.closed ≤ c.opened := hcloses.countP_le
  rw [h.balance]
  omega

end Balanced

end HttpsClient

end HttpsDnsProxy
