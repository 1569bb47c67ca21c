import HttpsDnsProxy.UdpTruncation

/-!
# What fits in a datagram

`dns_server_respond` truncates a response that is longer than the limit, and a response of exactly
that length is sent. `truncate_dns_response` encodes the message again and deletes answers unless
the encoding is shorter than the limit, so that one of exactly that length loses answers too.

Of the rounds of the loop over the answers, round 0 encodes all the answers, and round `i + 1` as
many of the first as `i` halvings leave of the estimate (`answersAt`).

* `fitAnswers_eq_getLast` : the message is the one written in the last round;
* `fitAnswers_agree_iff` : answers are deleted for want of room only, exactly if no round that the
  loop comes to encodes answers in just as many bytes as the limit.

`agreesOnFit_iff` : the two functions agree on what fits, exactly under this condition.
-/

namespace HttpsDnsProxy

/-- A round deletes answers only if the message it wrote is larger than the limit, and a message
of exactly the limit is the last one written. -/
structure RoundsAgree (sizeLimit : ℕ) (rounds : List FitRound) : Prop where
  removes : ∀ r ∈ rounds, r.left ≠ r.dnsrec.answers → sizeLimit < r.newResp.length
  ends : ∀ before r after, rounds = before ++ r :: after → r.newResp.length = sizeLimit → after = []

/-- The answers in round `i`, if the loop comes to it. -/
def answersAt (answers : List AresRr) (answersToKeep : ℕ) : ℕ → List AresRr
  | 0 => answers
  | i + 1 => answers.take (answersToKeep / 2 ^ i)

/-- What round `i` from the call `g` on encodes. -/
def encodingAt (ares : Ares) (dnsrec : AresRecord) (answersToKeep g i : ℕ) :
    Option (List UInt8) :=
  ares.write (g + i) { dnsrec with answers := answersAt dnsrec.answers answersToKeep i }

/-- A round encodes in just as many bytes as the limit only if it has no answers, or an earlier
one encodes in fewer bytes. -/
def NeverExact (ares : Ares) (sizeLimit : ℕ) (dnsrec : AresRecord) (answersToKeep g : ℕ) : Prop :=
  ∀ i msg, encodingAt ares dnsrec answersToKeep g i = some msg → msg.length = sizeLimit →
    answersAt dnsrec.answers answersToKeep i = [] ∨
      ∃ j < i, ∃ msg', encodingAt ares dnsrec answersToKeep g j = some msg' ∧
        msg'.length < sizeLimit

variable {ares : Ares} {sizeLimit g : ℕ} {dnsrec : AresRecord} {newResp : List UInt8}

/-! ## One round -/

theorem fitAnswers_rounds_ne_nil (hwrites : ∀ n dnsrec, (ares.write n dnsrec).isSome) (n g k : ℕ)
    (dnsrec : AresRecord) (answers keep : ℕ) :
    (fitAnswers ares sizeLimit (n + 1) g k dnsrec answers keep).2 ≠ [] := by
  obtain ⟨newResp, hwrite⟩ := Option.isSome_iff_exists.1 (hwrites g dnsrec)
  unfold fitAnswers
  simp only [hwrite]
  split_ifs <;> simp

theorem roundsAgree_singleton {r : FitRound} (h : r.left = r.dnsrec.answers) :
    RoundsAgree sizeLimit [r] where
  removes r' hr' hne := absurd (List.mem_singleton.1 hr' ▸ h) hne
  ends before r' after heq _ := by
    have hlen := congrArg List.length heq
    rw [List.length_append, List.length_singleton, List.length_cons] at hlen
    exact List.length_eq_zero_iff.1 (by omega)

/-- A round that is not the last. -/
theorem roundsAgree_cons_iff {r : FitRound} {rounds : List FitRound} (hne : rounds ≠ [])
    (hge : sizeLimit ≤ r.newResp.length) :
    RoundsAgree sizeLimit (r :: rounds) ↔
      r.newResp.length ≠ sizeLimit ∧ RoundsAgree sizeLimit rounds := by
  refine ⟨fun h => ⟨fun hexact => hne (h.ends [] r rounds rfl hexact), ?_, ?_⟩, ?_⟩
  · exact fun r' hr' => h.removes r' (List.mem_cons_of_mem _ hr')
  · exact fun before r' after heq => h.ends (r :: before) r' after (by rw [heq, List.cons_append])
  · rintro ⟨hexact, h⟩
    refine ⟨fun r' hr' hleft => ?_, fun before r' after heq hlen => ?_⟩
    · rcases List.mem_cons.1 hr' with rfl | hr'
      · omega
      · exact h.removes r' hr' hleft
    · cases before with
      | nil =>
        rw [List.nil_append, List.cons.injEq] at heq
        exact absurd (heq.1 ▸ hlen) hexact
      | cons a before =>
        rw [List.cons_append, List.cons.injEq] at heq
        exact h.ends before r' after heq.2 hlen

/-! ## The encodings -/

theorem answersAt_succ (answers : List AresRr) (keep i : ℕ) :
    answersAt answers keep (i + 1) = answersAt (answers.take keep) (keep / 2) i := by
  cases i with
  | zero => simp [answersAt]
  | succ i =>
    have hle : keep / 2 / 2 ^ i ≤ keep := (Nat.div_le_self _ _).trans (Nat.div_le_self _ _)
    rw [answersAt, answersAt, List.take_take, Nat.min_eq_left hle, Nat.div_div_eq_div_mul,
      Nat.pow_succ']

theorem encodingAt_zero (keep : ℕ) : encodingAt ares dnsrec keep g 0 = ares.write g dnsrec := rfl

theorem encodingAt_succ (keep i : ℕ) :
    encodingAt ares dnsrec keep g (i + 1) =
      encodingAt ares { dnsrec with answers := dnsrec.answers.take keep } (keep / 2) (g + 1) i := by
  unfold encodingAt
  rw [answersAt_succ, show g + (i + 1) = g + 1 + i by omega]

theorem answersAt_nil (keep : ℕ) : ∀ i, answersAt [] keep i = []
  | 0 => rfl
  | _ + 1 => List.take_nil

theorem neverExact_break (hwrite : ares.write g dnsrec = some newResp)
    (hdone : newResp.length < sizeLimit ∨ dnsrec.answers = []) (keep : ℕ) :
    NeverExact ares sizeLimit dnsrec keep g := by
  intro i msg hmsg hlen
  rcases hdone with hlt | hnil
  · cases i with
    | zero =>
      rw [encodingAt_zero, hwrite] at hmsg
      rw [Option.some.inj hmsg] at hlt
      omega
    | succ i => exact Or.inr ⟨0, Nat.succ_pos _, newResp, hwrite, hlt⟩
  · rw [hnil, answersAt_nil]
    exact Or.inl rfl

theorem neverExact_next_iff (hwrite : ares.write g dnsrec = some newResp)
    (hdone : ¬(newResp.length < sizeLimit ∨ dnsrec.answers = [])) (keep : ℕ) :
    NeverExact ares sizeLimit dnsrec keep g ↔
      newResp.length ≠ sizeLimit ∧
        NeverExact ares sizeLimit { dnsrec with answers := dnsrec.answers.take keep } (keep / 2)
          (g + 1) := by
  obtain ⟨hge, hne⟩ := not_or.1 hdone
  refine ⟨fun h => ⟨fun hexact => ?_, fun i msg hmsg hlen => ?_⟩, ?_⟩
  · rcases h 0 newResp hwrite hexact with hnil | ⟨j, hj, -⟩
    · exact hne hnil
    · exact absurd hj (Nat.not_lt_zero _)
  · rw [← encodingAt_succ] at hmsg
    rcases h (i + 1) msg hmsg hlen with hnil | ⟨j, hj, msg', hmsg', hlt⟩
    · rw [answersAt_succ] at hnil
      exact Or.inl hnil
    · -- the encoding of this round is not the shorter one
      cases j with
      | zero =>
        rw [encodingAt_zero, hwrite] at hmsg'
        exact absurd (Option.some.inj hmsg' ▸ hlt) hge
      | succ j =>
        rw [encodingAt_succ] at hmsg'
        exact Or.inr ⟨j, by omega, msg', hmsg', hlt⟩
  · rintro ⟨hexact, h⟩ i msg hmsg hlen
    cases i with
    | zero =>
      rw [encodingAt_zero, hwrite] at hmsg
      exact absurd (Option.some.inj hmsg ▸ hlen) hexact
    | succ i =>
      rw [encodingAt_succ] at hmsg
      rcases h i msg hmsg hlen with hnil | ⟨j, hj, msg', hmsg', hlt⟩
      · rw [answersAt_succ]
        exact Or.inl hnil
      · rw [← encodingAt_succ] at hmsg'
        exact Or.inr ⟨j + 1, by omega, msg', hmsg', hlt⟩

/-! ## The loop -/

section Loop

variable (hdel : ∀ k, ares.rrDel k = true) (hwrites : ∀ n dnsrec, (ares.write n dnsrec).isSome)

include hdel hwrites

/-- The message is that of the last round. -/
theorem fitAnswers_eq_getLast (sizeLimit : ℕ) (dnsrec : AresRecord) {j n g k keep : ℕ}
    (hkeep : keep < 2 ^ j) (hn : j + 2 ≤ n) :
    (fitAnswers ares sizeLimit n g k dnsrec dnsrec.answers.length keep).1 =
      (fitAnswers ares sizeLimit n g k dnsrec dnsrec.answers.length keep).2.getLast?.map
        FitRound.newResp := by
  refine fitAnswers_induction hwrites sizeLimit (motive := fun n g k dnsrec keep =>
    (fitAnswers ares sizeLimit n g k dnsrec dnsrec.answers.length keep).1 =
      (fitAnswers ares sizeLimit n g k dnsrec dnsrec.answers.length keep).2.getLast?.map
        FitRound.newResp) ?_ ?_ j hkeep hn
  · intro n g k dnsrec keep newResp hwrite hdone
    rw [fitAnswers_break hwrite hdone]
    rfl
  · intro n g k dnsrec keep newResp hwrite hdone ih
    rw [fitAnswers_next hdel hwrite hdone, Prod.map_fst, Prod.map_snd,
      List.getLast?_cons_of_ne_nil (fitAnswers_rounds_ne_nil hwrites _ _ _ _ _ _)]
    exact ih

/-- The rounds delete answers for want of room only, exactly if none of them has just as many bytes
as the limit. -/
theorem fitAnswers_agree_iff (sizeLimit : ℕ) (dnsrec : AresRecord) {j n g k keep : ℕ}
    (hkeep : keep < 2 ^ j) (hn : j + 2 ≤ n) :
    RoundsAgree sizeLimit (fitAnswers ares sizeLimit n g k dnsrec dnsrec.answers.length keep).2 ↔
      NeverExact ares sizeLimit dnsrec keep g := by
  refine fitAnswers_induction hwrites sizeLimit (motive := fun n g k dnsrec keep =>
    (RoundsAgree sizeLimit (fitAnswers ares sizeLimit n g k dnsrec dnsrec.answers.length keep).2 ↔
      NeverExact ares sizeLimit dnsrec keep g)) ?_ ?_ j hkeep hn
  · intro n g k dnsrec keep newResp hwrite hdone
    rw [fitAnswers_break hwrite hdone]
    exact iff_of_true (roundsAgree_singleton rfl) (neverExact_break hwrite hdone keep)
  · intro n g k dnsrec keep newResp hwrite hdone ih
    have hge : sizeLimit ≤ newResp.length := Nat.le_of_not_lt (not_or.1 hdone).1
    rw [fitAnswers_next hdel hwrite hdone, neverExact_next_iff hwrite hdone, Prod.map_snd,
      roundsAgree_cons_iff (fitAnswers_rounds_ne_nil hwrites _ _ _ _ _ _) hge]
    exact and_congr_right fun _ => ih

end Loop

/-! ## Truncation -/

/-- The record without the sections that truncation deletes first. -/
def AresRecord.onlyAnswers (dnsrec : AresRecord) : AresRecord :=
  { dnsrec with authority := [], additional := [] }

/-- The rounds of `truncate_dns_response`, for a response that parses to `dnsrec`. -/
def truncationRounds (ares : Ares) (buf : List UInt8) (sizeLimit : ℕ) (dnsrec : AresRecord) :
    List FitRound :=
  (fitAnswers ares sizeLimit 255 0 (dnsrec.additional.length + dnsrec.authority.length)
    dnsrec.onlyAnswers dnsrec.answers.length
    (answersToKeep sizeLimit dnsrec.answers.length buf.length)).2

/-- Truncation agrees with `dns_server_respond` on what fits : a round deletes answers only if its
message is larger than the limit, and a message of exactly the limit is the last one written and
is sent, for every request with that limit. -/
structure AgreesOnFit (ares : Ares) (buf : List UInt8) (sizeLimit : ℕ) (dnsrec : AresRecord) :
    Prop where
  removes : ∀ r ∈ truncationRounds ares buf sizeLimit dnsrec, r.left ≠ r.dnsrec.answers →
    sizeLimit < r.newResp.length
  sent : ∀ before r after, truncationRounds ares buf sizeLimit dnsrec = before ++ r :: after →
    r.newResp.length = sizeLimit → after = [] ∧
      ∀ dnsReq, getEdnsUdpSize ares dnsReq = sizeLimit → sizeLimit < buf.length →
        ∃ n, ∀ rounds, n ≤ rounds →
          dnsServerRespond ares rounds dnsReq buf = .sendto (setTruncated r.newResp)

theorem dnsServerRespond_of_long {dnsReq buf : List UInt8}
    (hlong : getEdnsUdpSize ares dnsReq < buf.length) {rounds : ℕ} {msg : List UInt8}
    (h : truncateDnsResponse ares rounds buf (getEdnsUdpSize ares dnsReq) = some msg) :
    dnsServerRespond ares rounds dnsReq buf = .sendto msg := by
  have hmin : dnsSizeLimit < buf.length :=
    Nat.lt_of_le_of_lt (getEdnsUdpSize_eq dnsReq ▸ le_max_left _ _) hlong
  have hheader : ¬buf.length < dnsHeaderLength :=
    Nat.not_lt.2 (le_trans (by decide : dnsHeaderLength ≤ dnsSizeLimit) hmin.le)
  unfold dnsServerRespond
  simp only [if_neg hheader, if_pos hmin, if_pos hlong, h]

section Agree

variable (hdel : ∀ k, ares.rrDel k = true) (hwrites : ∀ n dnsrec, (ares.write n dnsrec).isSome)
  {buf : List UInt8} {dnsrec : AresRecord} (hparse : ares.parse (setTruncated buf) = some dnsrec)

include hdel hwrites hparse

/-- Truncation leaves the message of the last round, if it is shorter than the response. -/
theorem truncateDnsResponse_of_getLast {sizeLimit : ℕ} {r : FitRound}
    (hlast : (truncationRounds ares buf sizeLimit dnsrec).getLast? = some r)
    (hlt : r.newResp.length < buf.length) {rounds : ℕ}
    (hrounds : dnsrec.additional.length + dnsrec.authority.length ≤ rounds) :
    truncateDnsResponse ares rounds buf sizeLimit = some (setTruncated r.newResp) := by
  have hfit := (fitAnswers_eq_getLast (g := 0)
    (k := dnsrec.additional.length + dnsrec.authority.length) hdel hwrites sizeLimit
    dnsrec.onlyAnswers (answersToKeep_lt sizeLimit dnsrec.answers.length buf.length)
    (show 64 + 2 ≤ 255 by decide)).trans (congrArg (Option.map FitRound.newResp) hlast)
  rw [truncateDnsResponse_eq hparse (fun k _ => hdel k) hrounds]
  unfold AresRecord.onlyAnswers at hfit
  simp only [hfit, Option.map_some, if_pos hlt]

/-- Truncation and the check before it agree on what fits, for every response that parses, every
limit and every c-ares that deletes and writes what it is asked to : answers are deleted only if the
message with them is larger than the limit, and a message of exactly the limit is sent, exactly if
none of the encodings, with all the answers and then with as many as the halvings of the estimate
leave, has just as many bytes as the limit, unless it is without answers or behind a shorter one. -/
theorem agreesOnFit_iff (sizeLimit : ℕ) :
    AgreesOnFit ares buf sizeLimit dnsrec ↔
      NeverExact ares sizeLimit dnsrec.onlyAnswers
        (answersToKeep sizeLimit dnsrec.answers.length buf.length) 0 := by
  have hkeep := answersToKeep_lt sizeLimit dnsrec.answers.length buf.length
  have hagree : RoundsAgree sizeLimit (truncationRounds ares buf sizeLimit dnsrec) ↔ _ :=
    fitAnswers_agree_iff hdel hwrites sizeLimit dnsrec.onlyAnswers hkeep
      (show 64 + 2 ≤ 255 by decide)
  rw [← hagree]
  refine ⟨fun h => ⟨h.removes, fun before r after heq hlen => (h.sent before r after heq hlen).1⟩,
    fun h => ⟨h.removes, fun before r after heq hlen => ?_⟩⟩
  obtain rfl : after = [] := h.ends before r after heq hlen
  refine ⟨rfl, fun dnsReq hlimit hlong =>
    ⟨dnsrec.additional.length + dnsrec.authority.length, fun rounds hrounds => ?_⟩⟩
  have hlast : (truncationRounds ares buf sizeLimit dnsrec).getLast? = some r := by
    rw [heq, List.getLast?_append]
    rfl
  subst hlimit
  exact dnsServerRespond_of_long hlong
    (truncateDnsResponse_of_getLast hdel hwrites hparse hlast (hlen ▸ hlong) hrounds)

end Agree

/-- The encodings of 40 answers and then of 29, which fit, do not have 512 bytes. -/
theorem agreesOnFit_forty :
    AgreesOnFit wireAres fortyAddresses 512 (addressRecord 0x8380 40 (some 1232)) := by
  refine (agreesOnFit_iff works_wireAres.deletes works_wireAres.writes
    parse_fortyAddresses 512).2 ?_
  intro i msg hmsg hlen
  rcases i with _ | _ | i
  · rw [← Option.some.inj hmsg] at hlen
    exact absurd hlen (by decide +kernel)
  · rw [← Option.some.inj hmsg] at hlen
    exact absurd hlen (by decide +kernel)
  · exact Or.inr ⟨1, by omega, _, rfl, by decide +kernel⟩

/-- A response with 30 addresses and an OPT record has 523 bytes, and 512 without the OPT record.
That is the limit of a request without one, and yet the response loses two addresses. -/
theorem agreesOnFit_exact :
    let buf := addressMessage 0x8180 30 (some 1232)
    let dnsReq := addressMessage 0x0100 0 none
    ∃ dnsrec, wireAres.parse (setTruncated buf) = some dnsrec ∧ buf.length = 523 ∧
      getEdnsUdpSize wireAres dnsReq = 512 ∧
      ((truncationRounds wireAres buf 512 dnsrec).map fun r =>
        (r.newResp.length, r.dnsrec.answers.length, r.left.length)) =
          [(512, 30, 28), (480, 28, 28)] ∧
      dnsServerRespond wireAres 1 dnsReq buf = .sendto (addressMessage 0x8380 28 none) ∧
      ¬AgreesOnFit wireAres buf 512 dnsrec := by
  refine ⟨addressRecord 0x8380 30 (some 1232), by decide +kernel, by decide +kernel,
    by decide +kernel, by decide +kernel, by decide +kernel, fun h => ?_⟩
  exact absurd h.removes (by decide +kernel)

end HttpsDnsProxy
