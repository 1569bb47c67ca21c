import HttpsDnsProxy.DnsServerTcp

/-!
# The UDP server

`dns_server.c` takes one datagram as one request (`watcherCb`) and sends one datagram back
(`dnsServerRespond`). A response that does not fit the size the request allows is
truncated : `truncateDnsResponse` sets the TC flag, parses the message with c-ares, drops
the authority and additional records and then answers from the end until the message fits
or no answer is left.

c-ares is a parameter (`Ares`) : what it parses a message to, what it writes for a record,
and which deletions succeed. The two loops that drop all records of a section retry a
failed deletion without a limit, so they are followed for a number of rounds.

What truncation leaves is the response with its flag set, or a shorter message written for
the same record (`truncateDnsResponse_eq_some`). If c-ares keeps the message id, so does
`dnsServerRespond` (`take_two_dnsServerRespond`).
-/

namespace HttpsDnsProxy

open Bytes

/-! ## Requests -/

/-- The outcomes of `recvfrom` : an error, or a datagram with the address it came from. With
`MSG_TRUNC` the length of the datagram is known even if it does not fit the buffer. -/
inductive RecvfromResult where
  | error (e : Errno)
  | datagram (bytes : List UInt8) (raddr : SockAddr)

/-- `watcher_cb` : the request it hands to `d->cb`, with the address it came from. -/
def watcherCb : RecvfromResult → Option (SockAddr × List UInt8)
  | .error _ => none
  | .datagram bytes raddr =>
    if bytes.length > dnsRequestBufferSize then none
    else if bytes.length < dnsHeaderLength then none
    else some (raddr, bytes)

theorem length_of_watcherCb {r : RecvfromResult} {raddr : SockAddr} {dnsReq : List UInt8}
    (h : watcherCb r = some (raddr, dnsReq)) : dnsHeaderLength ≤ dnsReq.length := by
  cases r with
  | error e => cases h
  | datagram bytes addr =>
    rw [watcherCb] at h
    split_ifs at h with hlong hshort
    obtain ⟨rfl, rfl⟩ := Prod.mk.inj (Option.some.inj h)
    exact Nat.le_of_not_lt hshort

/-! ## c-ares -/

/-- `ares_dns_rr_t` : the UDP size of an OPT record, absent for other types, and the rest. -/
structure AresRr where
  optUdpSize : Option ℕ
  data : List UInt8
  deriving DecidableEq, Repr

/-- `ares_dns_record_t`. -/
structure AresRecord where
  id : ℕ
  flags : ℕ
  question : List UInt8
  answers : List AresRr
  authority : List AresRr
  additional : List AresRr
  deriving DecidableEq, Repr

/-- c-ares as the server sees it. Writing and deleting are functions of the number of the
call too. -/
structure Ares where
  parse : List UInt8 → Option AresRecord
  write : ℕ → AresRecord → Option (List UInt8)
  rrDel : ℕ → Bool

/-- c-ares parses and writes the message id as it is. -/
structure Ares.KeepsId (ares : Ares) : Prop where
  parse : ∀ msg dnsrec, ares.parse msg = some dnsrec → toBe16 dnsrec.id = msg.take 2
  write : ∀ n dnsrec msg, ares.write n dnsrec = some msg → msg.take 2 = toBe16 dnsrec.id

/-! ## Responses -/

section Respond

variable (ares : Ares)

/-- `get_edns_udp_size` : the size of the first OPT record among the additional ones, and
at least `DNS_SIZE_LIMIT`. -/
def getEdnsUdpSize (dnsReq : List UInt8) : ℕ :=
  match ares.parse dnsReq with
  | none => dnsSizeLimit
  | some dnsrec =>
    let udpSize := (dnsrec.additional.findSome? AresRr.optUdpSize).getD 0
    if udpSize < dnsSizeLimit then dnsSizeLimit else udpSize

/-- `buf[2] |= 0x02`. -/
def setTruncated (buf : List UInt8) : List UInt8 :=
  buf.modify 2 fun b => b ||| 2

/-- The loop that deletes the first record of a section while there is one, for a number of
rounds from the deletion `k` on : the number of deletions then with the records left, or none if
it is still running. -/
def removeRecords : ℕ → ℕ → List AresRr → Option (ℕ × List AresRr)
  | _, k, [] => some (k, [])
  | 0, _, _ :: _ => none
  | n + 1, k, rr :: rrs => removeRecords n (k + 1) (if ares.rrDel k then rrs else rr :: rrs)

/-- The loop `while (answers > answers_to_keep)`, from the deletion `k` on : the number of
deletions then, with the answers left. -/
def removeAnswers (answersToKeep : ℕ) : ℕ → ℕ → List AresRr → ℕ × List AresRr
  | k, 0, rrs => (k, rrs)
  | k, answers + 1, rrs =>
    if answers + 1 > answersToKeep then
      if ares.rrDel k then removeAnswers answersToKeep (k + 1) answers (rrs.eraseIdx answers)
      else (k + 1, rrs)
    else (k, rrs)

/-- A round of the loop over `g` that writes a message : the record it is written for, the
message, and the answers that the round leaves. -/
structure FitRound where
  dnsrec : AresRecord
  newResp : List UInt8
  left : List AresRr
  deriving DecidableEq, Repr

/-- The loop over `g` with `n` rounds left, from the deletion `k` on : `new_resp` behind it, and
the rounds it has made. -/
def fitAnswers (sizeLimit : ℕ) :
    ℕ → ℕ → ℕ → AresRecord → ℕ → ℕ → Option (List UInt8) × List FitRound
  | 0, _, _, _, _, _ => (none, [])
  | n + 1, g, k, dnsrec, answers, answersToKeep =>
    match ares.write g dnsrec with
    | none => (none, [])
    | some newResp =>
      if newResp.length < sizeLimit ∨ answers = 0 then
        (some newResp, [⟨dnsrec, newResp, dnsrec.answers⟩])
      else
        let (k, rrs) := removeAnswers ares answersToKeep k answers dnsrec.answers
        let (res, rounds) := fitAnswers sizeLimit n (g + 1) k { dnsrec with answers := rrs }
          rrs.length (answersToKeep / 2)
        (res, ⟨dnsrec, newResp, rrs⟩ :: rounds)

/-- `truncate_dns_response`, its loops over the authority and additional records cut off
after `rounds` rounds : the message left in the buffer. -/
def truncateDnsResponse (rounds : ℕ) (buf : List UInt8) (sizeLimit : ℕ) : Option (List UInt8) :=
  let oldSize := buf.length
  let buf := setTruncated buf
  match ares.parse buf with
  | none => some buf
  | some dnsrec =>
    match removeRecords ares rounds 0 dnsrec.additional with
    | none => none
    | some (k, additional) =>
      let dnsrec := { dnsrec with additional := additional }
      match removeRecords ares rounds k dnsrec.authority with
      | none => none
      | some (k, authority) =>
        let dnsrec := { dnsrec with authority := authority }
        let answers := dnsrec.answers.length
        let answersToKeep :=
          wrapSub (2 ^ 64) sizeLimit dnsHeaderLength * answers % 2 ^ 64 / oldSize
        let answersToKeep := if answersToKeep > 0 then answersToKeep else 1
        match (fitAnswers ares sizeLimit 255 0 k dnsrec answers answersToKeep).1 with
        | none => some buf
        | some newResp => if newResp.length < oldSize then some (setTruncated newResp) else some buf

/-- How `dns_server_respond` ends : without `sendto`, with a datagram given to it, or not
yet. -/
inductive UdpRespond where
  | dropped
  | sendto (datagram : List UInt8)
  | looping
  deriving DecidableEq, Repr

/-- `dns_server_respond`. -/
def dnsServerRespond (rounds : ℕ) (dnsReq dnsResp : List UInt8) : UdpRespond :=
  if dnsResp.length < dnsHeaderLength then .dropped
  else if dnsResp.length > dnsSizeLimit then
    let udpSize := getEdnsUdpSize ares dnsReq
    if dnsResp.length > udpSize then
      match truncateDnsResponse ares rounds dnsResp udpSize with
      | none => .looping
      | some dnsResp => .sendto dnsResp
    else .sendto dnsResp
  else .sendto dnsResp

end Respond

/-! ## What truncation leaves -/

section Truncate

variable {ares : Ares}

/-- The loop over a section ends when it is empty. -/
theorem removeRecords_eq_some :
    ∀ {n k : ℕ} {rrs : List AresRr} {p : ℕ × List AresRr},
      removeRecords ares n k rrs = some p → p.2 = []
  | 0, _, [], _, h | _ + 1, _, [], _, h => by
    cases h
    rfl
  | 0, _, _ :: _, _, h => by cases h
  | n + 1, k, rr :: rrs, _, h => by
    rw [removeRecords] at h
    exact removeRecords_eq_some h

/-- The loop that fits the answers ends with a message written for the record, whichever
answers are left of it. -/
theorem fitAnswers_eq_some (sizeLimit : ℕ) :
    ∀ {n g k : ℕ} {dnsrec : AresRecord} {answers keep : ℕ} {msg : List UInt8},
      (fitAnswers ares sizeLimit n g k dnsrec answers keep).1 = some msg →
        ∃ m rrs, ares.write m { dnsrec with answers := rrs } = some msg
  | 0, _, _, _, _, _, _, h => by cases h
  | n + 1, g, k, dnsrec, answers, keep, msg, h => by
    unfold fitAnswers at h
    cases hw : ares.write g dnsrec with
    | none => simp [hw] at h
    | some newResp =>
      simp only [hw] at h
      split_ifs at h
      · exact ⟨g, dnsrec.answers, by rw [← Option.some.inj h, ← hw]⟩
      · obtain ⟨m, rrs, hm⟩ := fitAnswers_eq_some sizeLimit h
        exact ⟨m, rrs, hm⟩

/-- Truncation leaves the response with its flag set, or a shorter message written for the
record it parses to, without authority and additional records. -/
theorem truncateDnsResponse_eq_some {rounds sizeLimit : ℕ} {buf msg : List UInt8}
    (h : truncateDnsResponse ares rounds buf sizeLimit = some msg) :
    msg = setTruncated buf ∨
      ∃ dnsrec m rrs newResp, ares.parse (setTruncated buf) = some dnsrec ∧
        ares.write m { dnsrec with answers := rrs, authority := [], additional := [] } =
          some newResp ∧
        newResp.length < buf.length ∧ msg = setTruncated newResp := by
  unfold truncateDnsResponse at h
  simp only at h
  split at h
  · exact Or.inl (Option.some.inj h).symm
  next dnsrec hparse =>
  split at h
  · cases h
  next k additional hadditional =>
  split at h
  · cases h
  next k' authority hauthority =>
  obtain rfl : additional = [] := removeRecords_eq_some hadditional
  obtain rfl : authority = [] := removeRecords_eq_some hauthority
  split at h
  · exact Or.inl (Option.some.inj h).symm
  next newResp hfit =>
  split_ifs at h with hlt
  · obtain ⟨m, rrs, hwrite⟩ := fitAnswers_eq_some sizeLimit hfit
    exact Or.inr ⟨dnsrec, m, rrs, newResp, hparse, hwrite, hlt, (Option.some.inj h).symm⟩
  · exact Or.inl (Option.some.inj h).symm

/-- The datagram is the response, if it is small enough, or what truncation leaves of it. -/
theorem dnsServerRespond_eq_sendto {rounds : ℕ} {dnsReq dnsResp datagram : List UInt8}
    (h : dnsServerRespond ares rounds dnsReq dnsResp = .sendto datagram) :
    (datagram = dnsResp ∧
        (dnsResp.length ≤ dnsSizeLimit ∨ dnsResp.length ≤ getEdnsUdpSize ares dnsReq)) ∨
      truncateDnsResponse ares rounds dnsResp (getEdnsUdpSize ares dnsReq) = some datagram := by
  unfold dnsServerRespond at h
  simp only at h
  split_ifs at h with hshort hsmall hfits
  · split at h
    · cases h
    next msg htrunc =>
    rw [← UdpRespond.sendto.inj h]
    exact Or.inr htrunc
  · exact Or.inl ⟨(UdpRespond.sendto.inj h).symm, Or.inr (Nat.le_of_not_lt hfits)⟩
  · exact Or.inl ⟨(UdpRespond.sendto.inj h).symm, Or.inl (Nat.le_of_not_lt hsmall)⟩

end Truncate

/-! ## The message id -/

theorem take_two_setTruncated (buf : List UInt8) : (setTruncated buf).take 2 = buf.take 2 := by
  rcases buf with _ | ⟨a, _ | ⟨b, _ | ⟨c, rest⟩⟩⟩ <;> rfl

section KeepsId

variable {ares : Ares} (hares : ares.KeepsId)

include hares

/-- Truncation keeps the id. -/
theorem take_two_truncateDnsResponse {rounds sizeLimit : ℕ} {buf msg : List UInt8}
    (h : truncateDnsResponse ares rounds buf sizeLimit = some msg) : msg.take 2 = buf.take 2 := by
  rcases truncateDnsResponse_eq_some h with rfl | ⟨dnsrec, m, rrs, newResp, hparse, hwrite, -, rfl⟩
  · exact take_two_setTruncated buf
  · rw [take_two_setTruncated, hares.write _ _ _ hwrite]
    have hid := hares.parse _ _ hparse
    rw [take_two_setTruncated] at hid
    exact hid

/-- The datagram has the id of the response. -/
theorem take_two_dnsServerRespond {rounds : ℕ} {dnsReq dnsResp datagram : List UInt8}
    (h : dnsServerRespond ares rounds dnsReq dnsResp = .sendto datagram) :
    datagram.take 2 = dnsResp.take 2 := by
  rcases dnsServerRespond_eq_sendto h with ⟨rfl, -⟩ | htrunc
  · rfl
  · exact take_two_truncateDnsResponse hares htrunc

end KeepsId

end HttpsDnsProxy
