import HttpsDnsProxy.TcpLoop

/-!
# The input buffer of a connection

`read_cb` grows the input buffer by starting again at 64 and doubling, and writes what `recv`
gave behind the bytes in use. The sizes are unsigned, so a bound that failed once would wrap.

* `appendInput_target` : an append writes into the buffer that was there, or into what `realloc`
  made of it, larger, when the bytes do not fit;
* `appended_of_appendInput` : it writes behind the bytes in use and nowhere else, and that is
  within the size allocated;
* `appendInput_ne_fatal` : the doubling reaches the size that is needed before its fatal exit.

`inputBuffer_bounded` : all of this for every connection, whatever was read.
-/

namespace HttpsDnsProxy

open Bytes

namespace TcpClient

variable {c c' : TcpClient} {r : Recv}

/-- A read that is appended has not passed the limit. -/
theorem le_of_appendInput (hc : c.Bounded) (h : c.appendInput r = .appended c') :
    c.inputBufferUsed + r.data.length ≤ tcpDnsMaxPayload := by
  by_contra hgt
  rw [appendInput_tooLarge hc r (Nat.lt_of_not_le hgt)] at h
  cases h

theorem appendInput_ne_fatal (hc : c.Bounded) (r : Recv) : c.appendInput r ≠ .fatal := by
  rcases Nat.lt_or_ge tcpDnsMaxPayload (c.inputBufferUsed + r.data.length) with hgt | hle
  · rw [appendInput_tooLarge hc r hgt]
    simp
  · obtain ⟨c', ha, -⟩ := appendInput_eq hc r hle
    rw [ha]
    simp

/-- What an append leaves is within the bounds, with the bytes read counted. -/
theorem bounded_of_appendInput (hc : c.Bounded) (h : c.appendInput r = .appended c') :
    c'.Bounded ∧ c'.inputBufferUsed = c.inputBufferUsed + r.data.length := by
  obtain ⟨c'', ha, hbound, -, hused, -⟩ := appendInput_eq hc r (le_of_appendInput hc h)
  obtain rfl : c'' = c' := Append.appended.inj (ha.symm.trans h)
  exact ⟨hbound, hused⟩

/-- The block a read is written into : the input buffer as it is, or what a `realloc` to a larger
size leaves of it. -/
inductive Target (c c' : TcpClient) (r : Recv) : Mem → Prop where
  | kept : c'.inputBufferSize = c.inputBufferSize → Target c c' r c.inputBuffer
  | grown : c.inputBufferSize < c'.inputBufferSize →
      Target c c' r (c.inputBuffer.realloc c.inputBufferSize c'.inputBufferSize r.fresh)

theorem Target.size_le {buffer : Mem} (h : Target c c' r buffer) :
    c.inputBufferSize ≤ c'.inputBufferSize := by
  cases h with
  | kept heq => exact heq.ge
  | grown hlt => exact hlt.le

/-- The buffer grows only if the bytes do not fit, and then they fit. -/
theorem appendInput_target (hc : c.Bounded) (h : c.appendInput r = .appended c') :
    ∃ buffer, Target c c' r buffer ∧ c'.inputBuffer = buffer.write c.inputBufferUsed r.data := by
  obtain ⟨hbound, hused⟩ := bounded_of_appendInput hc h
  have hfits := hbound.used_le_size
  unfold appendInput at h
  simp only [wrapSub_of_le hc.used_le_size hc.size_lt] at h
  split_ifs at h with hlarge hmax hfree
  · split at h
    · cases h
    · obtain rfl := Append.appended.inj h
      exact ⟨_, .grown (by omega), rfl⟩
  · obtain rfl := Append.appended.inj h
    exact ⟨_, .kept rfl, rfl⟩

/-- The append of `r` to the input buffer of `c` leaves `c'` : the bytes read stand behind those
in use, in the block `buffer`, of which no other byte is written, and are inside the size
allocated. -/
structure Appended (c c' : TcpClient) (r : Recv) (buffer : Mem) : Prop where
  target : Target c c' r buffer
  write : c'.inputBuffer = buffer.write c.inputBufferUsed r.data
  only : ∀ i, c'.inputBuffer i ≠ buffer i →
    c.inputBufferUsed ≤ i ∧ i < c.inputBufferUsed + r.data.length
  used : c'.inputBufferUsed = c.inputBufferUsed + r.data.length
  inside : c.inputBufferUsed + r.data.length ≤ c'.inputBufferSize

theorem appended_of_appendInput (hc : c.Bounded) (h : c.appendInput r = .appended c') :
    ∃ buffer, Appended c c' r buffer := by
  obtain ⟨hbound, hused⟩ := bounded_of_appendInput hc h
  obtain ⟨buffer, htarget, hwrite⟩ := appendInput_target hc h
  refine ⟨buffer, htarget, hwrite, fun i hi => ?_, hused, hused ▸ hbound.used_le_size⟩
  rw [hwrite] at hi
  constructor
  · by_contra hlt
    exact hi (buffer.write_of_lt _ _ (Nat.lt_of_not_le hlt))
  · by_contra hge
    exact hi (buffer.write_of_ge _ _ (Nat.le_of_not_lt hge))

/-- The split loop has no fatal exit. -/
theorem splitInput_ne_fatal : ∀ (n : ℕ) (c : TcpClient), (c.splitInput n).1 ≠ .fatal
  | 0, _ => by simp [splitInput]
  | n + 1, c => by
    cases hg : c.getDnsRequest with
    | none => simp [splitInput, hg]
    | some p =>
      obtain ⟨req, c'⟩ := p
      simp only [splitInput, hg]
      split_ifs
      · simp
      · exact splitInput_ne_fatal n c'

theorem readInput_ne_fatal (hc : c.Bounded) (rounds : ℕ) (r : Recv) :
    (c.readInput rounds r).1 ≠ .fatal := by
  rcases readInput_cases hc rounds r with ⟨hread, -⟩ | ⟨c', -, -, -, hread, -⟩
  · simp [hread]
  · rw [hread]
    exact splitInput_ne_fatal rounds c'

end TcpClient

/-- One read of `r` on the connection `c` : the append does not end the process, writes the bytes
read behind those in use and nowhere else, inside the size allocated, and does not make the buffer
smaller, and each call of `get_dns_request` behind it finds the buffer within its bounds, takes no
more than the bytes in use and leaves the bounds in place. -/
structure InputKept (c : TcpClient) (r : Recv) : Prop where
  notFatal : c.appendInput r ≠ .fatal
  append : ∀ c', c.appendInput r = .appended c' →
    c'.Bounded ∧ c.inputBufferSize ≤ c'.inputBufferSize ∧ ∃ buffer, c.Appended c' r buffer
  split : ∀ n, ∀ x ∈ c.readCalls n r, x.Bounded ∧
    ∀ req x', x.getDnsRequest = some (req, x') →
      x'.Bounded ∧ x'.inputBufferUsed + (2 + x.reqSize) % 2 ^ 16 = x.inputBufferUsed

theorem TcpClient.Bounded.inputKept {c : TcpClient} (hc : c.Bounded) (r : Recv) :
    InputKept c r where
  notFatal := appendInput_ne_fatal hc r
  append c' h := by
    obtain ⟨buffer, happended⟩ := appended_of_appendInput hc h
    exact ⟨(bounded_of_appendInput hc h).1, happended.target.size_le, buffer, happended⟩
  split n x hx := by
    have hbound : x.Bounded := bounded_of_mem_readCalls hc hx
    refine ⟨hbound, fun req x' hg => ⟨bounded_of_getDnsRequest hbound hg, ?_⟩⟩
    obtain ⟨-, hle, rfl⟩ := used_of_getDnsRequest hbound hg
    exact Nat.sub_add_cancel hle

/-- The representation of the input buffer, for every run of the server, every connection there
is after it and every chunk that it reads then : `input_buffer_used` is at most
`input_buffer_size` and at most `TCP_DNS_MAX_PAYLOAD`, `input_buffer_size` is 0 or 64 doubled at
most ten times, a read keeps this at each of its steps, at each call of `get_dns_request` that
`read_cb` comes to, and `read_cb` does not end the process. -/
theorem inputBuffer_bounded (limit : ℕ) (es : List TcpEvent) {b : ℕ} {c : TcpClient}
    (hc : (TcpRun.run limit es).server.find b = some c) :
    c.Bounded ∧ ∀ r, InputKept c r ∧ ∀ rounds,
      let o := readCb TcpRun.serverIn TcpRun.record b rounds (.data r) (TcpRun.run limit es)
      o.1 ≠ .fatal ∧ ∀ k x, (c.readCalls rounds r)[k]? = some x → ComesTo b o (rounds - k) x := by
  have hrun := boundedAt_run limit b es
  have hbound : c.Bounded := hrun.bounded c hc
  refine ⟨hbound, fun r => ⟨hbound.inputKept r, fun rounds => ⟨?_, fun k x hx => ?_⟩⟩⟩
  · rw [(readCb_data hrun.blocks hc rounds r).result]
    exact TcpClient.readInput_ne_fatal hbound rounds r
  · exact readCb_comesTo hrun.blocks hc hx

/-- A connection that has read the two bytes of a length : the buffer has its first size. -/
theorem inputBuffer_bounded_length :
    ∃ c, (TcpRun.run 20 [.accept (.sock 7 []), .read 0 1 (.data lengthRead)]).server.find 0 =
        some c ∧
      c.inputBufferSize = 64 ∧ c.inputBufferUsed = 2 ∧ c.Bounded ∧ InputKept c lengthRead := by
  have hfind : (TcpRun.run 20 [.accept (.sock 7 []), .read 0 1 (.data lengthRead)]).server.find 0 =
      some _ := rfl
  obtain ⟨hbound, hread⟩ := inputBuffer_bounded 20 _ hfind
  exact ⟨_, hfind, rfl, rfl, hbound, (hread lengthRead).1⟩

end HttpsDnsProxy
