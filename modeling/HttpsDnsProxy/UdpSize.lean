import HttpsDnsProxy.DnsServer

/-!
# The size of a UDP response

A response that is larger than the request allows is marked as truncated, whichever way
truncation ends : c-ares does not parse it, cannot write it again, writes it no smaller, or
answers cannot be deleted. What is sent is never longer than the response
(`udpSizeNegotiated`).

The two loops over the additional and authority records end if their deletions succeed
(`removeRecords_eq`), and then a datagram is sent.
-/

namespace HttpsDnsProxy

open Bytes

/-- The UDP size of the first OPT record among the additional records of a request, 0 if
there is none or the request does not parse. -/
def ednsUdpSize (ares : Ares) (dnsReq : List UInt8) : ℕ :=
  ((ares.parse dnsReq).bind fun dnsrec => dnsrec.additional.findSome? AresRr.optUdpSize).getD 0

/-- The TC bit of a message is set. -/
def Truncated (msg : List UInt8) : Prop :=
  ∃ b, msg[2]? = some b ∧ b &&& 2 = 2

/-- What c-ares writes has a DNS header. -/
def Ares.WritesHeader (ares : Ares) : Prop :=
  ∀ n dnsrec msg, ares.write n dnsrec = some msg → dnsHeaderLength ≤ msg.length

/-- The records of the additional and the authority section of a response can be deleted. -/
def Ares.DeletesSections (ares : Ares) (dnsResp : List UInt8) : Prop :=
  ∀ dnsrec, ares.parse (setTruncated dnsResp) = some dnsrec →
    ∀ k < dnsrec.additional.length + dnsrec.authority.length, ares.rrDel k = true

variable {ares : Ares}

theorem getEdnsUdpSize_eq (dnsReq : List UInt8) :
    getEdnsUdpSize ares dnsReq = max dnsSizeLimit (ednsUdpSize ares dnsReq) := by
  unfold getEdnsUdpSize ednsUdpSize
  cases ares.parse dnsReq with
  | none => rfl
  | some dnsrec =>
    simp only [Option.bind_some]
    split_ifs with hlt
    · exact (max_eq_left hlt.le).symm
    · exact (max_eq_right (Nat.le_of_not_lt hlt)).symm

/-! ## Truncated messages -/

@[simp] theorem length_setTruncated (buf : List UInt8) : (setTruncated buf).length = buf.length :=
  List.length_modify ..

theorem truncated_setTruncated {buf : List UInt8} (h : dnsHeaderLength ≤ buf.length) :
    Truncated (setTruncated buf) := by
  have hlt : 2 < buf.length := Nat.lt_of_lt_of_le (by decide) h
  refine ⟨buf[2] ||| 2, ?_, ?_⟩
  · simp [setTruncated, List.getElem?_eq_getElem hlt]
  · refine UInt8.eq_of_toBitVec_eq ?_
    ext i hi
    rw [UInt8.toBitVec_and, UInt8.toBitVec_or, BitVec.getElem_and, BitVec.getElem_or]
    cases (UInt8.toBitVec 2)[i] <;> simp

/-- Truncation sets the TC bit and makes nothing longer. -/
theorem truncated_truncateDnsResponse (hwrites : ares.WritesHeader) {rounds sizeLimit : ℕ}
    {buf msg : List UInt8} (hlen : dnsHeaderLength ≤ buf.length)
    (h : truncateDnsResponse ares rounds buf sizeLimit = some msg) :
    Truncated msg ∧ msg.length ≤ buf.length := by
  rcases truncateDnsResponse_eq_some h with rfl | ⟨dnsrec, m, rrs, newResp, -, hwrite, hlt, rfl⟩
  · exact ⟨truncated_setTruncated hlen, (length_setTruncated buf).le⟩
  · refine ⟨truncated_setTruncated (hwrites _ _ _ hwrite), ?_⟩
    rw [length_setTruncated]
    exact hlt.le

/-! ## Truncation ends -/

/-- The loop over a section ends after one round for each record if the deletions succeed. -/
theorem removeRecords_eq :
    ∀ {n k : ℕ} {rrs : List AresRr}, rrs.length ≤ n →
      (∀ i < rrs.length, ares.rrDel (k + i) = true) →
      removeRecords ares n k rrs = some (k + rrs.length, [])
  | 0, _, [], _, _ => rfl
  | _ + 1, _, [], _, _ => rfl
  | n + 1, k, rr :: rrs, hn, hdel => by
    have hk : ares.rrDel k = true := hdel 0 (Nat.succ_pos _)
    rw [removeRecords, if_pos hk, removeRecords_eq (Nat.le_of_succ_le_succ hn), List.length_cons,
      Nat.add_assoc, Nat.add_comm 1]
    intro i hi
    rw [Nat.add_assoc, Nat.add_comm 1]
    exact hdel (i + 1) (Nat.succ_lt_succ hi)

/-- The first estimate of how many answers fit. -/
def answersToKeep (sizeLimit answers oldSize : ℕ) : ℕ :=
  let answersToKeep := wrapSub (2 ^ 64) sizeLimit dnsHeaderLength * answers % 2 ^ 64 / oldSize
  if answersToKeep > 0 then answersToKeep else 1

/-- The estimate is a `size_t`. -/
theorem answersToKeep_lt (sizeLimit answers oldSize : ℕ) :
    answersToKeep sizeLimit answers oldSize < 2 ^ 64 := by
  have hmod : wrapSub (2 ^ 64) sizeLimit dnsHeaderLength * answers % 2 ^ 64 < 2 ^ 64 :=
    Nat.mod_lt _ (by decide)
  unfold answersToKeep
  simp only
  split_ifs
  · exact Nat.lt_of_le_of_lt (Nat.div_le_self _ _) hmod
  · decide

/-- If the two sections can be deleted, truncation comes to the answers. -/
theorem truncateDnsResponse_eq {buf : List UInt8} {dnsrec : AresRecord}
    (hparse : ares.parse (setTruncated buf) = some dnsrec)
    (hdel : ∀ k < dnsrec.additional.length + dnsrec.authority.length, ares.rrDel k = true)
    {rounds : ℕ} (hrounds : dnsrec.additional.length + dnsrec.authority.length ≤ rounds)
    (sizeLimit : ℕ) :
    truncateDnsResponse ares rounds buf sizeLimit = some (setTruncated
      (match (fitAnswers ares sizeLimit 255 0
          (dnsrec.additional.length + dnsrec.authority.length)
          { dnsrec with authority := [], additional := [] } dnsrec.answers.length
          (answersToKeep sizeLimit dnsrec.answers.length buf.length)).1 with
        | none => buf
        | some newResp => if newResp.length < buf.length then newResp else buf)) := by
  have hadd : removeRecords ares rounds 0 dnsrec.additional =
      some (0 + dnsrec.additional.length, []) :=
    removeRecords_eq (by omega) fun i hi => hdel _ (by omega)
  have hauth : removeRecords ares rounds (0 + dnsrec.additional.length) dnsrec.authority =
      some (0 + dnsrec.additional.length + dnsrec.authority.length, []) :=
    removeRecords_eq (by omega) fun i hi => hdel _ (by omega)
  rw [Nat.zero_add] at hadd hauth
  unfold truncateDnsResponse answersToKeep
  simp only [hparse, hadd, hauth]
  generalize (fitAnswers ares sizeLimit 255 0 _ _ _ _).1 = res
  cases res with
  | none => rfl
  | some newResp =>
    simp only
    split_ifs <;> rfl

theorem truncateDnsResponse_isSome {buf : List UInt8} (hdel : ares.DeletesSections buf) :
    ∃ n, ∀ rounds, n ≤ rounds → ∀ sizeLimit,
      (truncateDnsResponse ares rounds buf sizeLimit).isSome := by
  cases hparse : ares.parse (setTruncated buf) with
  | none => exact ⟨0, fun rounds _ sizeLimit => by simp [truncateDnsResponse, hparse]⟩
  | some dnsrec =>
    refine ⟨dnsrec.additional.length + dnsrec.authority.length, fun rounds hn sizeLimit => ?_⟩
    rw [truncateDnsResponse_eq hparse (hdel dnsrec hparse) hn sizeLimit, Option.isSome_some]

/-! ## The datagram -/

/-- The size of UDP responses is negotiated. For every request and every response with a DNS
header, whatever c-ares makes of them : a datagram given to `sendto` is no longer than the
response, and it is the response itself, within the larger of 512 and the UDP size of the
request's first OPT record, or has the TC bit set. One is given to `sendto` if the additional
and authority records of the response can be deleted. -/
theorem udpSizeNegotiated (ares : Ares) (hwrites : ares.WritesHeader) (dnsReq dnsResp : List UInt8)
    (hlen : dnsHeaderLength ≤ dnsResp.length) :
    (∀ rounds datagram, dnsServerRespond ares rounds dnsReq dnsResp = .sendto datagram →
        datagram.length ≤ dnsResp.length ∧
          ((datagram = dnsResp ∧ dnsResp.length ≤ max dnsSizeLimit (ednsUdpSize ares dnsReq)) ∨
            Truncated datagram)) ∧
      (ares.DeletesSections dnsResp →
        ∃ n, ∀ rounds, n ≤ rounds →
          ∃ datagram, dnsServerRespond ares rounds dnsReq dnsResp = .sendto datagram) := by
  refine ⟨fun rounds datagram h => ?_, fun hdel => ?_⟩
  · rcases dnsServerRespond_eq_sendto h with ⟨rfl, hfits⟩ | htrunc
    · refine ⟨le_rfl, Or.inl ⟨rfl, ?_⟩⟩
      rw [getEdnsUdpSize_eq] at hfits
      exact hfits.elim (fun h => h.trans (le_max_left _ _)) id
    · obtain ⟨hbit, hle⟩ := truncated_truncateDnsResponse hwrites hlen htrunc
      exact ⟨hle, Or.inr hbit⟩
  · obtain ⟨n, hn⟩ := truncateDnsResponse_isSome hdel
    refine ⟨n, fun rounds hrounds => ?_⟩
    obtain ⟨msg, hmsg⟩ :=
      Option.isSome_iff_exists.1 (hn rounds hrounds (getEdnsUdpSize ares dnsReq))
    unfold dnsServerRespond
    simp only [if_neg (Nat.not_lt.2 hlen), hmsg]
    split_ifs
    · exact ⟨msg, rfl⟩
    · exact ⟨dnsResp, rfl⟩
    · exact ⟨dnsResp, rfl⟩

/-! ## Messages on the wire -/

/-- The length of the name at the start of `bs` : labels up to the root or to a pointer. -/
def nameLength : ℕ → List UInt8 → Option ℕ
  | 0, _ | _ + 1, [] => none
  | n + 1, len :: bs =>
    if len = 0 then some 1
    else if 192 ≤ len then some 2
    else (nameLength n (bs.drop len.toNat)).map (· + (1 + len.toNat))

/-- Take a resource record off `bs`. Type 41 is OPT, with the UDP size in place of the class. -/
def takeRr (bs : List UInt8) : Option (AresRr × List UInt8) :=
  (nameLength bs.length bs).bind fun name =>
    let fixed := (bs.drop name).take 10
    let size := name + 10 + be16 (fixed.getD 8 0) (fixed.getD 9 0)
    let udpSize :=
      if be16 (fixed.getD 0 0) (fixed.getD 1 0) = 41 then
        some (be16 (fixed.getD 2 0) (fixed.getD 3 0))
      else none
    if bs.length < size then none else some (⟨udpSize, bs.take size⟩, bs.drop size)

/-- Take a number of resource records off `bs`. -/
def takeRrs : ℕ → List UInt8 → Option (List AresRr × List UInt8)
  | 0, bs => some ([], bs)
  | n + 1, bs => (takeRr bs).bind fun p => (takeRrs n p.2).map fun q => (p.1 :: q.1, q.2)

/-- Parse a message with one question. -/
def parseMessage (msg : List UInt8) : Option AresRecord :=
  if msg.length < dnsHeaderLength ∨ be16 (msg.getD 4 0) (msg.getD 5 0) ≠ 1 then none
  else
    let body := msg.drop dnsHeaderLength
    (nameLength body.length body).bind fun name =>
    (takeRrs (be16 (msg.getD 6 0) (msg.getD 7 0)) (body.drop (name + 4))).bind fun answers =>
    (takeRrs (be16 (msg.getD 8 0) (msg.getD 9 0)) answers.2).bind fun authority =>
    (takeRrs (be16 (msg.getD 10 0) (msg.getD 11 0)) authority.2).map fun additional =>
      { id := be16 (msg.getD 0 0) (msg.getD 1 0)
        flags := be16 (msg.getD 2 0) (msg.getD 3 0)
        question := body.take (name + 4)
        answers := answers.1
        authority := authority.1
        additional := additional.1 }

/-- Write a message with one question. -/
def writeMessage (dnsrec : AresRecord) : List UInt8 :=
  toBe16 dnsrec.id ++ toBe16 dnsrec.flags ++ toBe16 1 ++ toBe16 dnsrec.answers.length ++
    toBe16 dnsrec.authority.length ++ toBe16 dnsrec.additional.length ++
    (dnsrec.question ++
      (dnsrec.answers ++ dnsrec.authority ++ dnsrec.additional).flatMap AresRr.data)

/-- A c-ares that writes the records of a message as it has read them. Pointers to the name in the
question stay right. -/
def wireAres : Ares where
  parse := parseMessage
  write _ dnsrec := some (writeMessage dnsrec)
  rrDel _ := true

theorem length_writeMessage (dnsrec : AresRecord) :
    (writeMessage dnsrec).length = dnsHeaderLength + (dnsrec.question ++
      (dnsrec.answers ++ dnsrec.authority ++ dnsrec.additional).flatMap AresRr.data).length := by
  rw [writeMessage, List.length_append]
  rfl

theorem writesHeader_wireAres : wireAres.WritesHeader := by
  intro n dnsrec msg h
  rw [← Option.some.inj h, length_writeMessage]
  exact Nat.le_add_right _ _

/-- A message about the addresses of `dns-over-https` : a number of answers of 16 bytes each, and an
OPT record if there is a UDP size. -/
def addressRecord (flags answers : ℕ) (udpSize : Option ℕ) : AresRecord where
  id := 0xABCD
  flags := flags
  question :=
    [14, 100, 110, 115, 45, 111, 118, 101, 114, 45, 104, 116, 116, 112, 115, 0, 0, 1, 0, 1]
  answers := (List.range answers).map fun i =>
    ⟨none, [0xC0, 12, 0, 1, 0, 1, 0, 0, 1, 44, 0, 4, 192, 0, 2, UInt8.ofNat i]⟩
  authority := []
  additional := udpSize.toList.map fun size =>
    ⟨some size, [0, 0, 41] ++ toBe16 size ++ [0, 0, 0, 0, 0, 0]⟩

/-- The bytes of such a message. -/
def addressMessage (flags answers : ℕ) (udpSize : Option ℕ) : List UInt8 :=
  writeMessage (addressRecord flags answers udpSize)

/-- A response with 80 addresses in 1323 bytes, to a request that allows 1232, is cut down to one
with 73 of them and the TC bit. -/
theorem udpSizeNegotiated_opt :
    ednsUdpSize wireAres (addressMessage 0x0100 0 (some 1232)) = 1232 ∧
      (addressMessage 0x8180 80 (some 1232)).length = 1323 ∧
      ∃ datagram, dnsServerRespond wireAres 1 (addressMessage 0x0100 0 (some 1232))
          (addressMessage 0x8180 80 (some 1232)) = .sendto datagram ∧
        datagram = addressMessage 0x8380 73 none ∧ datagram.length = 1200 ∧
        Truncated datagram := by
  have hlength : (addressMessage 0x8180 80 (some 1232)).length = 1323 := by decide +kernel
  have hlen : dnsHeaderLength ≤ (addressMessage 0x8180 80 (some 1232)).length := by
    rw [hlength]
    decide
  have hsent : dnsServerRespond wireAres 1 (addressMessage 0x0100 0 (some 1232))
      (addressMessage 0x8180 80 (some 1232)) = .sendto (addressMessage 0x8380 73 none) := by
    decide +kernel
  have hshort : (addressMessage 0x8380 73 none).length = 1200 := by decide +kernel
  obtain ⟨-, hcases⟩ := (udpSizeNegotiated wireAres writesHeader_wireAres _ _ hlen).1 1 _ hsent
  refine ⟨by decide +kernel, hlength, _, hsent, rfl, hshort, ?_⟩
  rcases hcases with ⟨heq, -⟩ | htruncated
  · rw [heq, hlength] at hshort
    cases hshort
  · exact htruncated

end HttpsDnsProxy
