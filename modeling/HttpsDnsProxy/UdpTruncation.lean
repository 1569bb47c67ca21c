import HttpsDnsProxy.UdpSize

/-!
# What is left of a truncated response

`truncate_dns_response` estimates how many answers fit, deletes the others from the end and
halves the estimate until the message is short enough or has no answers. If c-ares deletes what
exists and writes what it has parsed, the guard of 255 rounds plays no part.

* `removeAnswers_eq` : deleting from the end leaves an initial segment;
* `fitAnswers_induction` : two rounds more than the estimate has binary digits are enough, and a
  `size_t` has 64.

`truncationFits` : the message is written for the same record with some of the first answers, and
it is shorter than the limit or has no answers.
-/

namespace HttpsDnsProxy

/-- c-ares deletes the records that exist and writes the record, with a header. -/
structure Ares.Works (ares : Ares) : Prop where
  deletes : ∀ k, ares.rrDel k = true
  writes : ∀ n dnsrec, (ares.write n dnsrec).isSome
  header : ares.WritesHeader

variable {ares : Ares}

/-! ## The loop over the answers -/

/-- Deleting from the end leaves the first answers. -/
theorem removeAnswers_eq (hdel : ∀ k, ares.rrDel k = true) (keep : ℕ) :
    ∀ (answers : ℕ) {k : ℕ} {rrs : List AresRr}, rrs.length = answers →
      (removeAnswers ares keep k answers rrs).2 = rrs.take keep
  | 0, _, rrs, hlen => by
    rw [List.length_eq_zero_iff.1 hlen, List.take_nil]
    rfl
  | answers + 1, k, rrs, hlen => by
    rw [removeAnswers]
    by_cases hgt : answers + 1 > keep
    · have herase : rrs.eraseIdx answers = rrs.take answers := by
        rw [List.eraseIdx_eq_take_drop_succ, List.drop_eq_nil_of_le (by omega), List.append_nil]
      have hlen' : (rrs.take answers).length = answers := by
        rw [List.length_take]
        omega
      rw [if_pos hgt, if_pos (hdel k), herase, removeAnswers_eq hdel keep answers hlen',
        List.take_take, Nat.min_eq_left (by omega)]
    · rw [if_neg hgt, List.take_of_length_le (by omega)]

/-- A round that writes a message that is short enough, or has no answers to delete. -/
theorem fitAnswers_break {sizeLimit g : ℕ} {dnsrec : AresRecord} {newResp : List UInt8}
    (hwrite : ares.write g dnsrec = some newResp)
    (hdone : newResp.length < sizeLimit ∨ dnsrec.answers = []) (n k keep : ℕ) :
    fitAnswers ares sizeLimit (n + 1) g k dnsrec dnsrec.answers.length keep =
      (some newResp, [⟨dnsrec, newResp, dnsrec.answers⟩]) := by
  rw [← List.length_eq_zero_iff] at hdone
  unfold fitAnswers
  simp only [hwrite, if_pos hdone]

/-- Any other round keeps the first answers, as many as estimated, and halves the estimate. -/
theorem fitAnswers_next (hdel : ∀ k, ares.rrDel k = true) {sizeLimit g : ℕ} {dnsrec : AresRecord}
    {newResp : List UInt8} (hwrite : ares.write g dnsrec = some newResp)
    (hdone : ¬(newResp.length < sizeLimit ∨ dnsrec.answers = [])) (n k keep : ℕ) :
    fitAnswers ares sizeLimit (n + 1) g k dnsrec dnsrec.answers.length keep =
      (fitAnswers ares sizeLimit n (g + 1)
        (removeAnswers ares keep k dnsrec.answers.length dnsrec.answers).1
        { dnsrec with answers := dnsrec.answers.take keep }
        (dnsrec.answers.take keep).length (keep / 2)).map id
          (⟨dnsrec, newResp, dnsrec.answers.take keep⟩ :: ·) := by
  rw [← List.length_eq_zero_iff] at hdone
  rw [fitAnswers]
  simp only [hwrite, if_neg hdone, removeAnswers_eq hdel keep _ rfl]
  rfl

/-- Induction over the loop, with `n` rounds left, from the call `g` and the deletion `k` on. With
an estimate below `2 ^ j` the loop leaves by a break within `j + 2` rounds : what holds of such a
round, and of any other one if it holds of the next, holds of the loop. -/
theorem fitAnswers_induction (hwrites : ∀ n dnsrec, (ares.write n dnsrec).isSome) (sizeLimit : ℕ)
    {motive : ℕ → ℕ → ℕ → AresRecord → ℕ → Prop}
    (hbreak : ∀ n g k dnsrec keep newResp, ares.write g dnsrec = some newResp →
      newResp.length < sizeLimit ∨ dnsrec.answers = [] → motive (n + 1) g k dnsrec keep)
    (hnext : ∀ n g k dnsrec keep newResp, ares.write g dnsrec = some newResp →
      ¬(newResp.length < sizeLimit ∨ dnsrec.answers = []) →
      motive (n + 1) (g + 1) (removeAnswers ares keep k dnsrec.answers.length dnsrec.answers).1
        { dnsrec with answers := dnsrec.answers.take keep } (keep / 2) →
      motive (n + 2) g k dnsrec keep) :
    ∀ (j : ℕ) {n g k : ℕ} {dnsrec : AresRecord} {keep : ℕ}, keep < 2 ^ j → j + 2 ≤ n →
      motive n g k dnsrec keep
  | j, n, g, k, dnsrec, keep, hkeep, hn => by
    obtain ⟨n, rfl⟩ : ∃ n', n = n' + 2 := ⟨n - 2, by omega⟩
    obtain ⟨newResp, hwrite⟩ := Option.isSome_iff_exists.1 (hwrites g dnsrec)
    by_cases hdone : newResp.length < sizeLimit ∨ dnsrec.answers = []
    · exact hbreak (n + 1) g k dnsrec keep newResp hwrite hdone
    · refine hnext n g k dnsrec keep newResp hwrite hdone ?_
      cases j with
      | zero =>
        -- nothing is to be kept, so that the next round is the last
        obtain rfl : keep = 0 := by omega
        obtain ⟨newResp', hwrite'⟩ :=
          Option.isSome_iff_exists.1 (hwrites (g + 1) { dnsrec with answers := [] })
        exact hbreak n (g + 1) _ _ 0 newResp' hwrite' (Or.inr rfl)
      | succ j =>
        have hhalf : keep / 2 < 2 ^ j := by
          rw [Nat.pow_succ] at hkeep
          omega
        exact fitAnswers_induction hwrites sizeLimit hbreak hnext j hhalf (by omega)

/-- The loop has written some of the first answers, which fit or are none. -/
theorem fitAnswers_fits (hares : ares.Works) (sizeLimit : ℕ) (dnsrec : AresRecord)
    {j n g k keep : ℕ} (hkeep : keep < 2 ^ j) (hn : j + 2 ≤ n) :
    ∃ m rrs newResp, rrs <+: dnsrec.answers ∧
      (fitAnswers ares sizeLimit n g k dnsrec dnsrec.answers.length keep).1 = some newResp ∧
      ares.write m { dnsrec with answers := rrs } = some newResp ∧
      (newResp.length < sizeLimit ∨ rrs = []) := by
  refine fitAnswers_induction hares.writes sizeLimit (motive := fun n g k dnsrec keep =>
    ∃ m rrs newResp, rrs <+: dnsrec.answers ∧
      (fitAnswers ares sizeLimit n g k dnsrec dnsrec.answers.length keep).1 = some newResp ∧
      ares.write m { dnsrec with answers := rrs } = some newResp ∧
      (newResp.length < sizeLimit ∨ rrs = [])) ?_ ?_ j hkeep hn
  · intro n g k dnsrec keep newResp hwrite hdone
    exact ⟨g, dnsrec.answers, newResp, List.prefix_refl _,
      congrArg Prod.fst (fitAnswers_break hwrite hdone n k keep), hwrite, hdone⟩
  · rintro n g k dnsrec keep newResp hwrite hdone ⟨m, rrs, newResp', hrrs, hfit, hwrite', hshort⟩
    refine ⟨m, rrs, newResp', hrrs.trans (List.take_prefix _ _), ?_, hwrite', hshort⟩
    rw [fitAnswers_next hares.deletes hwrite hdone]
    exact hfit

/-! ## Truncation -/

/-- The result of UDP truncation, for every response longer than the limit that c-ares parses :
the loop over the answers leaves by a break, not by its guard, and when the buffer is replaced,
the new message is written for the same id and question with some of the first answers and no
other records, has the TC bit set, is shorter than the response, and is shorter than the limit or
has no answers. -/
theorem truncationFits (hares : ares.Works) {buf : List UInt8} {sizeLimit : ℕ}
    (hmin : 512 ≤ sizeLimit) (hlong : sizeLimit < buf.length) {dnsrec : AresRecord}
    (hparse : ares.parse (setTruncated buf) = some dnsrec) :
    ∃ m rrs newResp, rrs <+: dnsrec.answers ∧
      (fitAnswers ares sizeLimit 255 0 (dnsrec.additional.length + dnsrec.authority.length)
          { dnsrec with authority := [], additional := [] } dnsrec.answers.length
          (answersToKeep sizeLimit dnsrec.answers.length buf.length)).1 = some newResp ∧
      ares.write m { dnsrec with answers := rrs, authority := [], additional := [] } =
        some newResp ∧
      (newResp.length < sizeLimit ∨ rrs = []) ∧
      ∀ rounds, dnsrec.additional.length + dnsrec.authority.length ≤ rounds →
        truncateDnsResponse ares rounds buf sizeLimit =
            some (setTruncated (if newResp.length < buf.length then newResp else buf)) ∧
          Truncated (setTruncated (if newResp.length < buf.length then newResp else buf)) := by
  have hkeep := answersToKeep_lt sizeLimit dnsrec.answers.length buf.length
  obtain ⟨m, rrs, newResp, hrrs, hfit, hwrite, hshort⟩ :=
    fitAnswers_fits hares sizeLimit { dnsrec with authority := [], additional := [] } hkeep
      (show 64 + 2 ≤ 255 by decide)
  refine ⟨m, rrs, newResp, hrrs, hfit, hwrite, hshort, fun rounds hrounds => ⟨?_, ?_⟩⟩
  · rw [truncateDnsResponse_eq hparse (fun k _ => hares.deletes k) hrounds, hfit]
  · have hheader : dnsHeaderLength ≤ newResp.length := hares.header _ _ _ hwrite
    have hbuf : dnsHeaderLength ≤ buf.length := by
      unfold dnsHeaderLength
      omega
    refine truncated_setTruncated ?_
    split_ifs
    · exact hheader
    · exact hbuf

theorem works_wireAres : wireAres.Works :=
  ⟨fun _ => rfl, fun _ _ => rfl, writesHeader_wireAres⟩

/-- A response with 40 addresses and an OPT record, in 683 bytes. -/
def fortyAddresses : List UInt8 :=
  addressMessage 0x8180 40 (some 1232)

theorem parse_fortyAddresses :
    wireAres.parse (setTruncated fortyAddresses) = some (addressRecord 0x8380 40 (some 1232)) := by
  decide +kernel

/-- Of 40 addresses the first 29 fit in 512 bytes. -/
theorem truncationFits_forty :
    fortyAddresses.length = 683 ∧
      truncateDnsResponse wireAres 1 fortyAddresses 512 = some (addressMessage 0x8380 29 none) ∧
      (addressMessage 0x8380 29 none).length = 496 ∧ Truncated (addressMessage 0x8380 29 none) := by
  have hlength : fortyAddresses.length = 683 := by decide +kernel
  have hcut : truncateDnsResponse wireAres 1 fortyAddresses 512 =
      some (addressMessage 0x8380 29 none) := by decide +kernel
  obtain ⟨-, -, newResp, -, -, -, -, hres⟩ :=
    truncationFits works_wireAres le_rfl (by rw [hlength]; decide) parse_fortyAddresses
  obtain ⟨heq, htruncated⟩ := hres 1 (by decide)
  rw [← Option.some.inj (hcut.symm.trans heq)] at htruncated
  exact ⟨hlength, hcut, by decide +kernel, htruncated⟩

end HttpsDnsProxy
