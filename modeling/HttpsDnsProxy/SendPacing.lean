import HttpsDnsProxy.TcpRuns

/-!
# The delays between attempts to send

The loop of `dns_server_tcp_respond` makes up to fifty attempts to send a response, for a client
that is slow to take it. Between two attempts it should sleep for `RESEND_DELAY_US`, and so give
the client some 25 ms. The delay stands at the end of the loop's body, and an attempt that finds
the socket full (`EAGAIN`, `EWOULDBLOCK`) goes on with the next one before it.

* `sendBody_full`, `sendBody_part`, `sendBody_whole` : what one attempt comes to;
* `sendBody_spaced` : attempts that take part of the response are followed by a delay;
* `notFull_of_spaced` : an attempt that finds the socket full is not.

`graceTime_iff` : the client gets its time exactly if the socket is not full at any attempt but the
last, after attempts that each took a part.
-/

namespace HttpsDnsProxy

/-- The action is a call of `send`. -/
def TcpAction.isSend : TcpAction → Bool
  | .send _ _ => true
  | _ => false

/-- Between one `send` and the next there is one delay, and nothing else. -/
def Spaced (acts : List TcpAction) : Prop :=
  ∀ before mid after b w b' w', acts = before ++ .send b w :: (mid ++ .send b' w' :: after) →
    (∀ a ∈ mid, a.isSend = false) → mid = [.usleep]

/-- The loop that sends the response `resp` gives its client time : there is a delay between any
two attempts, and before the loop gives up there are 49 of them. -/
structure GraceTime (block : ℕ) (resp : List UInt8) (sends : ℕ → SendResult) : Prop where
  spaced : Spaced (sendBody block resp 50 sends 0).2
  timeout : ∀ sent, (sendBody block resp 50 sends 0).1 = some sent → sent ≠ resp.length →
    49 ≤ (sendBody block resp 50 sends 0).2.count .usleep

/-- The bytes the first `n` attempts would take, of a response that has as many. -/
def accepted (sends : ℕ → SendResult) : ℕ → ℕ
  | 0 => 0
  | n + 1 =>
    accepted sends n +
      match sends n with
      | .sent k => k
      | .error _ => 0

/-- None of the `n` attempts left, from `sent` on, but the last finds the socket full after
attempts that each took a part of the response and left a part. -/
def NotFull (resp : List UInt8) (n : ℕ) (sends : ℕ → SendResult) (sent : ℕ) : Prop :=
  ∀ i, i + 1 < n →
    (∀ j < i, ∃ k, sends j = .sent k ∧ sent + accepted sends (j + 1) < resp.length) →
    ∀ e, sends i = .error e → e.wouldBlock = false

variable {block n sent : ℕ} {resp : List UInt8} {sends : ℕ → SendResult}

/-! ## Lists of actions -/

theorem spaced_nil : Spaced [] := by
  intro before mid after b w b' w' h
  simp at h

theorem spaced_send (b : ℕ) (w : List UInt8) : Spaced [.send b w] := by
  intro before mid after b₁ w₁ b₂ w₂ h
  have hlen := congrArg List.length h
  simp only [List.length_append, List.length_cons, List.length_nil] at hlen
  omega

/-- A delay in front of what starts with a `send`. -/
theorem Spaced.delayed {b : ℕ} {w : List UInt8} {acts : List TcpAction} (h : Spaced acts)
    (hstart : ∀ a, acts.head? = some a → a.isSend = true) :
    Spaced (.send b w :: .usleep :: acts) := by
  intro before mid after b₁ w₁ b₂ w₂ heq hmid
  match before with
  | [] =>
    rw [List.nil_append, List.cons.injEq] at heq
    match mid with
    | [] => simp at heq
    | [a] =>
      rw [List.singleton_append, List.cons.injEq] at heq
      rw [← heq.2.1]
    | a :: a' :: mid =>
      -- the `send` behind the delay would stand between the two
      rw [List.cons_append, List.cons_append, List.cons.injEq] at heq
      have hsend : a'.isSend = true := hstart a' (by rw [heq.2.2]; rfl)
      rw [hmid a' (by simp)] at hsend
      cases hsend
  | [a] => simp at heq
  | a :: a' :: before =>
    rw [List.cons_append, List.cons_append, List.cons.injEq, List.cons.injEq] at heq
    exact h before mid after b₁ w₁ b₂ w₂ heq.2.2 hmid

theorem Spaced.of_cons {a : TcpAction} {acts : List TcpAction} (h : Spaced (a :: acts)) :
    Spaced acts := by
  intro before mid after b w b' w' heq
  exact h (a :: before) mid after b w b' w' (by rw [heq, List.cons_append])

/-- Two `send`s in a row. -/
theorem not_spaced_send_send (b b' : ℕ) (w w' : List UInt8) (acts : List TcpAction) :
    ¬Spaced (.send b w :: .send b' w' :: acts) := by
  intro h
  have hmid := h [] [] acts b w b' w' rfl (by simp)
  cases hmid

/-! ## One attempt -/

/-- The socket is full. -/
theorem sendBody_full {e : Errno} (h : sends 0 = .error e) (hfull : e.wouldBlock = true)
    (block : ℕ) (resp : List UInt8) (n sent : ℕ) :
    sendBody block resp (n + 1) sends sent =
      ((sendBody block resp n (fun i => sends (i + 1)) sent).1,
        .send block [] :: (sendBody block resp n (fun i => sends (i + 1)) sent).2) := by
  rw [sendBody, h]
  simp only [if_pos hfull]

/-- Another error ends the loop. -/
theorem sendBody_error {e : Errno} (h : sends 0 = .error e) (hfull : e.wouldBlock = false)
    (block : ℕ) (resp : List UInt8) (n sent : ℕ) :
    sendBody block resp (n + 1) sends sent = (none, [.send block []]) := by
  rw [sendBody, h]
  simp [hfull]

/-- A part is taken and a part is left. -/
theorem sendBody_part {k : ℕ} (h : sends 0 = .sent k) (hpart : sent + k < resp.length)
    (block n : ℕ) :
    sendBody block resp (n + 1) sends sent =
      ((sendBody block resp n (fun i => sends (i + 1)) (sent + k)).1,
        .send block ((resp.drop sent).take k) :: .usleep ::
          (sendBody block resp n (fun i => sends (i + 1)) (sent + k)).2) := by
  have hlen : ((resp.drop sent).take k).length = k := by
    rw [List.length_take, List.length_drop]
    omega
  rw [sendBody, h]
  simp only [hlen, if_neg (Nat.ne_of_lt hpart)]

/-- What is left is taken. -/
theorem sendBody_whole {k : ℕ} (h : sends 0 = .sent k) (hsent : sent ≤ resp.length)
    (hwhole : resp.length ≤ sent + k) (block n : ℕ) :
    sendBody block resp (n + 1) sends sent =
      (some resp.length, [.send block ((resp.drop sent).take k)]) := by
  have hlen : sent + ((resp.drop sent).take k).length = resp.length := by
    rw [List.length_take, List.length_drop]
    omega
  rw [sendBody, h]
  simp only [hlen, if_true]

/-- The loop starts with an attempt. -/
theorem sendBody_starts (block : ℕ) (resp : List UInt8) (n : ℕ) (sends : ℕ → SendResult)
    (sent : ℕ) :
    ∃ w acts, (sendBody block resp (n + 1) sends sent).2 = .send block w :: acts := by
  unfold sendBody
  cases sends 0 with
  | error e =>
    simp only
    split_ifs <;> exact ⟨_, _, rfl⟩
  | sent k =>
    simp only
    split_ifs <;> exact ⟨_, _, rfl⟩

theorem isSend_of_head?_sendBody (block : ℕ) (resp : List UInt8) (n : ℕ) (sends : ℕ → SendResult)
    (sent : ℕ) :
    ∀ a, (sendBody block resp n sends sent).2.head? = some a → a.isSend = true := by
  intro a ha
  cases n with
  | zero => cases ha
  | succ n =>
    obtain ⟨w, acts, hacts⟩ := sendBody_starts block resp n sends sent
    rw [hacts] at ha
    rw [← Option.some.inj ha]
    rfl

/-! ## The loop -/

theorem accepted_succ (sends : ℕ → SendResult) {k : ℕ} (h : sends 0 = .sent k) :
    ∀ n, accepted sends (n + 1) = k + accepted (fun i => sends (i + 1)) n
  | 0 => by simp [accepted, h]
  | n + 1 => by rw [accepted, accepted_succ sends h n, accepted, Nat.add_assoc]

/-- The condition on the attempts behind one that took a part. -/
theorem notFull_succ_iff {k : ℕ} (h : sends 0 = .sent k) (hpart : sent + k < resp.length) :
    NotFull resp (n + 1) sends sent ↔ NotFull resp n (fun i => sends (i + 1)) (sent + k) := by
  have hshift : ∀ j, sent + accepted sends (j + 1) =
      sent + k + accepted (fun i => sends (i + 1)) j := fun j => by
    rw [accepted_succ sends h, Nat.add_assoc]
  refine ⟨fun hfull i hi hbefore e he => ?_, fun hfull i hi hbefore e he => ?_⟩
  · refine hfull (i + 1) (by omega) (fun j hj => ?_) e he
    cases j with
    | zero => exact ⟨k, h, by rw [hshift]; exact hpart⟩
    | succ j =>
      obtain ⟨k', hk', hlt⟩ := hbefore j (by omega)
      exact ⟨k', hk', by rw [hshift]; exact hlt⟩
  · cases i with
    | zero => rw [h] at he; cases he
    | succ i =>
      refine hfull i (by omega) (fun j hj => ?_) e he
      obtain ⟨k', hk', hlt⟩ := hbefore (j + 1) (by omega)
      exact ⟨k', hk', by rw [← hshift]; exact hlt⟩

/-- With a socket that is full at the last attempt only, there is a delay after each of the
others, and the loop gives up after all of them. -/
theorem sendBody_spaced (block : ℕ) :
    ∀ (n : ℕ) (sends : ℕ → SendResult) (sent : ℕ), sent ≤ resp.length →
      NotFull resp n sends sent →
      Spaced (sendBody block resp n sends sent).2 ∧
        ∀ total, (sendBody block resp n sends sent).1 = some total → total ≠ resp.length →
          n ≤ (sendBody block resp n sends sent).2.count .usleep + 1
  | 0, _, _, _, _ => ⟨spaced_nil, fun _ _ _ => Nat.zero_le _⟩
  | n + 1, sends, sent, hsent, hfull => by
    cases hs : sends 0 with
    | error e =>
      cases hwould : e.wouldBlock with
      | false =>
        rw [sendBody_error hs hwould]
        exact ⟨spaced_send _ _, fun _ h => by cases h⟩
      | true =>
        -- only the last attempt may find the socket full
        obtain rfl : n = 0 := by
          by_contra hn
          have hnot := hfull 0 (by omega) (fun _ hj => absurd hj (Nat.not_lt_zero _)) e hs
          rw [hwould] at hnot
          cases hnot
        rw [sendBody_full hs hwould]
        exact ⟨spaced_send _ _, fun _ _ _ => Nat.le_add_left _ _⟩
    | sent k =>
      rcases Nat.lt_or_ge (sent + k) resp.length with hpart | hwhole
      · obtain ⟨hspaced, hcount⟩ := sendBody_spaced block n _ (sent + k) hpart.le
          ((notFull_succ_iff hs hpart).1 hfull)
        rw [sendBody_part hs hpart]
        refine ⟨hspaced.delayed (isSend_of_head?_sendBody _ _ _ _ _), fun total htotal hne => ?_⟩
        have hle := hcount total htotal hne
        simp only [List.count_cons]
        simp
        omega
      · rw [sendBody_whole hs hsent hwhole]
        exact ⟨spaced_send _ _, fun total htotal hne => absurd (Option.some.inj htotal).symm hne⟩

/-- An attempt that finds the socket full is followed by the next one at once. -/
theorem notFull_of_spaced (block : ℕ) :
    ∀ (n : ℕ) (sends : ℕ → SendResult) (sent : ℕ),
      Spaced (sendBody block resp n sends sent).2 → NotFull resp n sends sent
  | 0, _, _, _ => fun i hi => absurd hi (Nat.not_lt_zero _)
  | n + 1, sends, sent, hspaced => by
    cases hs : sends 0 with
    | error e =>
      intro i hi hbefore e' he'
      have hi0 : i = 0 := by
        by_contra hne
        obtain ⟨k, hk, -⟩ := hbefore 0 (Nat.pos_of_ne_zero hne)
        rw [hs] at hk
        cases hk
      subst hi0
      obtain rfl : e = e' := SendResult.error.inj (hs.symm.trans he')
      by_contra hwould
      rw [Bool.not_eq_false] at hwould
      obtain ⟨n, rfl⟩ : ∃ n', n = n' + 1 := ⟨n - 1, by omega⟩
      obtain ⟨w, acts, hacts⟩ := sendBody_starts block resp n (fun i => sends (i + 1)) sent
      rw [sendBody_full hs hwould, hacts] at hspaced
      exact not_spaced_send_send _ _ _ _ _ hspaced
    | sent k =>
      rcases Nat.lt_or_ge (sent + k) resp.length with hpart | hwhole
      · rw [sendBody_part hs hpart] at hspaced
        exact (notFull_succ_iff hs hpart).2
          (notFull_of_spaced block n _ (sent + k) hspaced.of_cons.of_cons)
      · -- the first attempt is the last
        intro i hi hbefore e he
        cases i with
        | zero => rw [hs] at he; cases he
        | succ i =>
          obtain ⟨k', hk', hlt⟩ := hbefore 0 (Nat.succ_pos _)
          obtain rfl : k = k' := SendResult.sent.inj (hs.symm.trans hk')
          rw [accepted_succ sends hs, accepted] at hlt
          omega

/-- The grace time of a slow client, for every response and all outcomes of the `send` calls of
the loop : any two attempts have a delay between them, and the client is given up after at least
49 of them, exactly if none of the first 49 attempts finds the socket full after attempts that
each took a part of the response and left a part. -/
theorem graceTime_iff (block : ℕ) (resp : List UInt8) (sends : ℕ → SendResult) :
    GraceTime block resp sends ↔
      ∀ i < 49, (∀ j < i, ∃ k, sends j = .sent k ∧ accepted sends (j + 1) < resp.length) →
        ∀ e, sends i = .error e → e.wouldBlock = false := by
  have hnotFull : NotFull resp 50 sends 0 ↔
      ∀ i < 49, (∀ j < i, ∃ k, sends j = .sent k ∧ accepted sends (j + 1) < resp.length) →
        ∀ e, sends i = .error e → e.wouldBlock = false := by
    simp only [NotFull, Nat.zero_add, show ∀ i, i + 1 < 50 ↔ i < 49 by omega]
  rw [← hnotFull]
  refine ⟨fun h => notFull_of_spaced block 50 sends 0 h.spaced, fun h => ?_⟩
  obtain ⟨hspaced, hcount⟩ := sendBody_spaced block 50 sends 0 (Nat.zero_le _) h
  refine ⟨hspaced, fun sent hsent hne => ?_⟩
  have hle := hcount sent hsent hne
  omega

/-- The kernel takes the length of the response and then has no room left. -/
def fullAfterLength : ℕ → SendResult
  | 0 => .sent 2
  | _ + 1 => .error .eagain

/-- A socket that is full for the response : the fifty attempts follow each other without a delay,
and the client is removed. -/
theorem graceTime_full :
    ¬GraceTime 0 (List.replicate 12 0) (fun i => fullAfterLength (i + 1)) ∧
      (let s := TcpRun.run 20
        [.accept (.sock 7 []), .respond [] (List.replicate 12 0) fullAfterLength]
      s.server.clients = [] ∧ s.sent.count (.send 0 []) = 50 ∧ .usleep ∉ s.sent) := by
  refine ⟨fun h => ?_, by decide +kernel⟩
  have hcount := h.timeout 0 (by decide +kernel) (by decide)
  exact absurd hcount (by decide +kernel)

end HttpsDnsProxy
