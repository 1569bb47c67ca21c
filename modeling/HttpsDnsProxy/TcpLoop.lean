import HttpsDnsProxy.TcpFraming

/-!
# The end of the split loop

`while (get_dns_request(...))` has to end on every input, as it hands over a request in each
round. `input_buffer_used` is the measure : a request takes its own bytes and the two of its
length off it.

* `boundedAt_run` : the input buffer of every connection is within its bounds, whatever was read;
* `splitInput_ends` : with lengths within `TCP_DNS_MAX_PAYLOAD` the loop ends before it has made
  as many rounds as there are bytes;
* `splitInput_stalls` : on the length 65534 it never does, as `2 + req_size` is 0 in 16 bits.

`splitLoop_iff` : the loop takes off what it should, and ends, exactly if the lengths fit.
-/

namespace HttpsDnsProxy

open Bytes

namespace TcpClient

variable {c c' : TcpClient} {req : List UInt8}

/-! ## Bounds -/

theorem bounded_splitInput : ∀ (n : ℕ) {c : TcpClient}, c.Bounded → (c.splitInput n).2.2.Bounded
  | 0, _, hc => hc
  | n + 1, c, hc => by
    cases hg : c.getDnsRequest with
    | none => simpa [splitInput, hg] using hc
    | some p =>
      obtain ⟨req, c'⟩ := p
      have hc' : c'.Bounded := bounded_of_getDnsRequest hc hg
      simp only [splitInput, hg]
      split_ifs
      · exact hc'
      · exact bounded_splitInput n hc'

theorem bounded_readInput (hc : c.Bounded) (rounds : ℕ) (r : Recv) :
    (c.readInput rounds r).2.2.Bounded := by
  rcases readInput_cases hc rounds r with ⟨hread, -⟩ | ⟨c', hbound, -, -, hread, -⟩
  · rw [hread]
    exact hc
  · rw [hread]
    exact bounded_splitInput rounds hbound

/-! ## The loop -/

/-- A request within the limit takes its bytes and its length off the buffer. -/
theorem used_eq_of_getDnsRequest (hc : c.Bounded) (hfit : c.reqSize ≤ tcpDnsMaxPayload)
    (h : c.getDnsRequest = some (req, c')) :
    c.inputBufferUsed = 2 + req.length + c'.inputBufferUsed := by
  obtain ⟨-, hunread, -⟩ := unread_of_getDnsRequest hc hfit h
  rw [← length_unread, hunread, List.length_append, Frames.length_frame, length_unread]

/-- The loop ends : each round leaves fewer bytes. -/
theorem splitInput_ends :
    ∀ (n : ℕ) {c : TcpClient}, c.Bounded → (∀ x ∈ c.calls n, x.reqSize ≤ tcpDnsMaxPayload) →
      c.inputBufferUsed < n → (c.splitInput n).1 ≠ .looping
  | 0, _, _, _, hlt => absurd hlt (Nat.not_lt_zero _)
  | n + 1, c, hc, hfit, hlt => by
    cases hg : c.getDnsRequest with
    | none => simp [splitInput, hg]
    | some p =>
      obtain ⟨req, c'⟩ := p
      have hused := used_eq_of_getDnsRequest hc (hfit c (by simp [calls])) hg
      simp only [splitInput, hg]
      split_ifs with hshort
      · simp
      · refine splitInput_ends n (bounded_of_getDnsRequest hc hg) (fun x hx => ?_) (by omega)
        exact hfit x (by simp [calls, hg, hshort, hx])

/-- A call is the first one, or one of those behind it. -/
theorem mem_calls {n : ℕ} {x : TcpClient} (hx : x ∈ c.calls n) :
    x = c ∨ ∃ req c' m, c.getDnsRequest = some (req, c') ∧ m < n ∧ x ∈ c'.calls m := by
  cases n with
  | zero => simp [calls] at hx
  | succ n =>
    rw [calls, List.mem_cons] at hx
    refine hx.imp_right fun hx => ?_
    cases hg : c.getDnsRequest with
    | none => simp [hg] at hx
    | some p =>
      obtain ⟨req, c'⟩ := p
      simp only [hg] at hx
      split_ifs at hx
      · simp at hx
      · exact ⟨req, c', n, rfl, Nat.lt_succ_self n, hx⟩

/-- Each client that the loop comes upon is within its bounds. -/
theorem bounded_of_mem_calls (n : ℕ) {c x : TcpClient} (hc : c.Bounded) (hx : x ∈ c.calls n) :
    x.Bounded := by
  induction n using Nat.strong_induction_on generalizing c with
  | _ n ih =>
    rcases mem_calls hx with rfl | ⟨req, c', m, hg, hm, hx⟩
    · exact hc
    · exact ih m hm (bounded_of_getDnsRequest hc hg) hx

/-- Over a buffer of frames within the limit, every length that the loop comes upon is that of a
frame, and behind the last one that of the last. -/
theorem reqSize_le_of_mem_calls (ps : List (List UInt8))
    (hps : ∀ p ∈ ps, p.length ≤ tcpDnsMaxPayload) {n : ℕ} {c x : TcpClient} (hc : c.Bounded)
    (hunread : c.unread = Frames.stream ps) (hstale : ps = [] → c.reqSize ≤ tcpDnsMaxPayload)
    (hx : x ∈ c.calls n) : x.reqSize ≤ tcpDnsMaxPayload := by
  induction ps generalizing n c with
  | nil =>
    rcases mem_calls hx with rfl | ⟨req, c', m, hg, -, -⟩
    · exact hstale rfl
    · -- nothing is buffered
      have hused : c.inputBufferUsed = 0 := by rw [← length_unread, hunread]; rfl
      have htaken := used_eq_of_getDnsRequest hc (hstale rfl) hg
      omega
  | cons p ps ih =>
    have hp : p.length ≤ tcpDnsMaxPayload := hps p (List.mem_cons_self ..)
    have hsize : c.reqSize = p.length := by
      rw [reqSize_of_unread hunread, be16_toBe16 (by unfold tcpDnsMaxPayload at hp; omega)]
    rcases mem_calls hx with rfl | ⟨req, c', m, hg, -, hx⟩
    · exact hsize ▸ hp
    · obtain ⟨hlen, hsplit, hlast⟩ := unread_of_getDnsRequest hc (hsize ▸ hp) hg
      have hframe : (Frames.frame p).length = (Frames.frame req).length := by
        rw [Frames.length_frame, Frames.length_frame, hlen, hsize]
      have hrest : Frames.stream ps = c'.unread :=
        (List.append_inj (hunread.symm.trans hsplit) hframe).2
      refine ih (fun q hq => hps q (List.mem_cons_of_mem _ hq)) (bounded_of_getDnsRequest hc hg)
        hrest.symm (fun hnil => ?_) hx
      have hused : c'.inputBufferUsed = 0 := by rw [← length_unread, ← hrest, hnil]; rfl
      rw [hlast hused, hsize]
      exact hp

/-- A round on the length 65534 takes nothing off the buffer. -/
theorem getDnsRequest_stalls (hsize : c.reqSize = 65534) (hused : c.inputBufferUsed < 2 ^ 32) :
    c.getDnsRequest = some (c.inputBuffer.read 2 65534, c) := by
  unfold getDnsRequest
  simp only [hsize]
  rw [if_neg (by omega), wrapSub_of_le (by omega) hused]
  simp [Mem.move_self]

/-- On the length 65534 the loop never ends. -/
theorem splitInput_stalls (hsize : c.reqSize = 65534) (hused : c.inputBufferUsed < 2 ^ 32) :
    ∀ n : ℕ, (c.splitInput n).1 = .looping
  | 0 => rfl
  | n + 1 => by
    have hlong : ¬(c.inputBuffer.read 2 65534).length < dnsHeaderLength := by
      rw [Mem.length_read]
      decide
    simp only [splitInput, getDnsRequest_stalls hsize hused, if_neg hlong]
    exact splitInput_stalls hsize hused n

end TcpClient

/-! ## Runs -/

/-- The input buffer at `b` is within its bounds. -/
structure BoundedAt (b : ℕ) (s : TcpRun) : Prop where
  blocks : Blocks s.server
  bounded : ∀ c, s.server.find b = some c → c.Bounded

theorem boundedAt_step {b : ℕ} {s : TcpRun} (e : TcpEvent) (h : BoundedAt b s) :
    BoundedAt b (s.step e) := by
  refine ⟨h.blocks.step (s.tcpStep e), fun c hc => ?_⟩
  rcases s.event_cases b e with ⟨rounds, r, c₀, rfl, hr, -⟩ | ⟨hstep, -⟩ | ⟨hdata, -⟩
  · obtain ⟨-, hc₀, -⟩ := TcpRun.reading_eq_some hr
    have hby := readCb_data h.blocks hc₀ rounds r
    rw [TcpRun.step_of_reading hr, TcpRun.server_readEvent] at hc
    by_cases hrem : (c₀.readInput rounds r).1 = .removed
    · rw [hby.gone hrem] at hc
      cases hc
    · obtain ⟨t, ht⟩ := hby.stays hrem
      obtain rfl := Option.some.inj (ht.symm.trans hc)
      exact (TcpClient.bounded_readInput (h.bounded c₀ hc₀) rounds r).withTimer t
  · rw [hstep] at hc
    exact h.bounded c hc
  · rcases (other_step (s.tcpStep e) h.blocks hdata).2 with hsame | ⟨-, hnew⟩
    · obtain ⟨c₀, t, hc₀, rfl⟩ := hsame c hc
      exact (h.bounded c₀ hc₀).withTimer t
    · exact (hnew c hc).1

theorem boundedAt_run (limit b : ℕ) (es : List TcpEvent) : BoundedAt b (TcpRun.run limit es) :=
  Runs.invariant (fun _ e h => boundedAt_step e h) es
    ⟨Blocks.run limit [], fun _ hc => by cases hc⟩

/-- The split loop, when the connection at `b` reads `r` : the calls of `get_dns_request` are those
that `read_cb` comes to, each request taken out takes its bytes and the two of its length off the
buffer, the loop ends, and no byte is handed over twice. -/
structure SplitsOnce (b : ℕ) (s : TcpRun) (c : TcpClient) (r : Recv) : Prop where
  calls : ∀ n k x, (c.readCalls n r)[k]? = some x →
    ComesTo b (readCb TcpRun.serverIn TcpRun.record b n (.data r) s) (n - k) x
  consumes : ∀ n, ∀ x ∈ c.readCalls n r, ∀ req x', x.getDnsRequest = some (req, x') →
    req.length = x.reqSize ∧ x.inputBufferUsed = 2 + x.reqSize + x'.inputBufferUsed
  ends : ∃ n, ∀ rounds, n ≤ rounds →
    (readCb TcpRun.serverIn TcpRun.record b rounds (.data r) s).1 ≠ .looping
  once : ∀ rounds, Frames.stream (c.readInput rounds r).2.1 <+: c.unread ++ r.data

/-- What the loop works on is within its bounds. -/
theorem TcpClient.bounded_of_mem_readCalls {c x : TcpClient} (hc : c.Bounded) {n : ℕ} {r : Recv}
    (hx : x ∈ c.readCalls n r) : x.Bounded := by
  rcases readInput_cases hc n r with ⟨-, hcalls⟩ | ⟨c', hbound, -, -, -, hcalls⟩
  · simp [hcalls] at hx
  · rw [hcalls] at hx
    exact bounded_of_mem_calls n hbound hx

/-- A read of lengths within the limit ends. -/
theorem TcpClient.readInput_ends {c : TcpClient} (hc : c.Bounded) {r : Recv} {rounds : ℕ}
    (hfit : ∀ x ∈ c.readCalls rounds r, x.reqSize ≤ tcpDnsMaxPayload)
    (hrounds : c.inputBufferUsed + r.data.length < rounds) :
    (c.readInput rounds r).1 ≠ .looping := by
  rcases readInput_cases hc rounds r with ⟨hread, -⟩ | ⟨c', hbound, -, hused, hread, hcalls⟩
  · simp [hread]
  · rw [hcalls] at hfit
    rw [hread]
    exact splitInput_ends rounds hbound hfit (by omega)

theorem splitsOnce_of_fit {b : ℕ} {s : TcpRun} {c : TcpClient} (hb : Blocks s.server)
    (hf : s.server.find b = some c) (hc : c.Bounded) {r : Recv}
    (hfit : ∀ n, ∀ x ∈ c.readCalls n r, x.reqSize ≤ tcpDnsMaxPayload) : SplitsOnce b s c r where
  calls _ _ _ hx := readCb_comesTo hb hf hx
  consumes n x hx req x' hg := by
    have hbound : x.Bounded := TcpClient.bounded_of_mem_readCalls hc hx
    have hlen := (TcpClient.unread_of_getDnsRequest hbound (hfit n x hx) hg).1
    have hused := TcpClient.used_eq_of_getDnsRequest hbound (hfit n x hx) hg
    exact ⟨hlen, hlen ▸ hused⟩
  ends := by
    refine ⟨c.inputBufferUsed + r.data.length + 1, fun rounds hrounds => ?_⟩
    rw [(readCb_data hb hf rounds r).result]
    exact TcpClient.readInput_ends hc (hfit rounds) hrounds
  once rounds := (TcpClient.readInput_sound hc rounds r (hfit rounds)).2.1

/-- Termination of the split loop, for every state that a run reaches, every connection that is
read and every chunk it reads : a request takes exactly its bytes and its length off the buffer
and the loop ends, exactly if every length that `get_dns_request` comes upon is at most
`TCP_DNS_MAX_PAYLOAD`. -/
theorem splitLoop_iff (limit : ℕ) (es : List TcpEvent) {b : ℕ} {c : TcpClient}
    (hc : (TcpRun.run limit es).reading b = some c) (r : Recv) :
    SplitsOnce b (TcpRun.run limit es) c r ↔
      ∀ n, ∀ x ∈ c.readCalls n r, x.reqSize ≤ tcpDnsMaxPayload := by
  obtain ⟨-, hf, -⟩ := TcpRun.reading_eq_some hc
  have hrun := boundedAt_run limit b es
  have hbound := hrun.bounded c hf
  refine ⟨fun h n x hx => ?_, splitsOnce_of_fit hrun.blocks hf hbound⟩
  by_contra hgt
  obtain ⟨ps, q, more, t, hreqs, ht, -, hlt⟩ :=
    TcpClient.readInput_overrun hbound n r ⟨x, hx, Nat.lt_of_not_le hgt⟩
  -- the request after `ps` would have to be in the bytes that are left
  have honce := h.once n
  rw [hreqs, ht, Frames.stream_append, List.prefix_append_right_inj, Frames.stream_cons] at honce
  have hlen := honce.length_le
  rw [List.length_append, Frames.length_frame] at hlen
  omega

/-- A read of the two bytes of the length 12. -/
def lengthRead : Recv where
  data := [0, 12]
  data_ne := by decide
  length_le := by decide
  fresh := fun _ => 0

/-- The client of a connection that has just been accepted. -/
theorem reading_accepted :
    ∃ c, (TcpRun.run 20 [.accept (.sock 7 [])]).reading 0 = some c ∧ c.Bounded ∧ c.unread = [] :=
  ⟨_, rfl, ⟨le_rfl, Nat.zero_le _, Or.inl rfl⟩, rfl⟩

/-- A read of two requests at once. -/
def pipelinedRead : Recv where
  data := Frames.frame (List.replicate 12 1) ++ Frames.frame (List.replicate 13 2)
  data_ne := by decide
  length_le := by decide
  fresh := fun _ => 0

/-- Both are handed over, by two calls, and a third finds nothing. -/
theorem splitLoop_pipelined :
    ∃ c, (TcpRun.run 20 [.accept (.sock 7 [])]).reading 0 = some c ∧
      (c.readCalls 5 pipelinedRead).map TcpClient.inputBufferUsed = [29, 15, 0] ∧
      (c.readInput 5 pipelinedRead).2.1 = [List.replicate 12 1, List.replicate 13 2] ∧
      SplitsOnce 0 (TcpRun.run 20 [.accept (.sock 7 [])]) c pipelinedRead := by
  have hr : (TcpRun.run 20 [.accept (.sock 7 [])]).reading 0 = some _ := rfl
  have hbound := (boundedAt_run 20 0 [.accept (.sock 7 [])]).bounded _
    (TcpRun.reading_eq_some hr).2.1
  refine ⟨_, hr, by decide +kernel, by decide +kernel,
    (splitLoop_iff 20 _ hr pipelinedRead).2 fun n x hx => ?_⟩
  rcases TcpClient.readInput_cases hbound n pipelinedRead with ⟨-, hcalls⟩ |
    ⟨c', hbound', hunread, -, -, hcalls⟩
  · rw [hcalls] at hx
    exact absurd hx List.not_mem_nil
  · rw [hcalls] at hx
    exact TcpClient.reqSize_le_of_mem_calls [List.replicate 12 1, List.replicate 13 2]
      (by decide) hbound' hunread (by simp) hx

/-- The two bytes of the length 65534 on a new connection : nothing is ever taken off the buffer,
and the loop does not end in any number of rounds. -/
theorem splitLoop_endless :
    ∃ c, (TcpRun.run 20 [.accept (.sock 7 [])]).reading 0 = some c ∧
      (∀ rounds, (readCb TcpRun.serverIn TcpRun.record 0 rounds (.data wrappingRead)
        (TcpRun.run 20 [.accept (.sock 7 [])])).1 = .looping) ∧
      ¬SplitsOnce 0 (TcpRun.run 20 [.accept (.sock 7 [])]) c wrappingRead := by
  obtain ⟨c, hr, hbound, hempty⟩ := reading_accepted
  obtain ⟨c', ha, hsize, hused⟩ := TcpClient.appendInput_length hbound hempty
    (show wrappingRead.data = [0xFF, 0xFE] from rfl)
  have hlooping : ∀ rounds, (readCb TcpRun.serverIn TcpRun.record 0 rounds (.data wrappingRead)
      (TcpRun.run 20 [.accept (.sock 7 [])])).1 = .looping := by
    intro rounds
    rw [(readCb_data (Blocks.run 20 _) (TcpRun.reading_eq_some hr).2.1 rounds wrappingRead).result,
      TcpClient.readInput, ha]
    exact TcpClient.splitInput_stalls (hsize.trans (by decide)) (by omega) rounds
  refine ⟨c, hr, hlooping, fun h => ?_⟩
  obtain ⟨n, hn⟩ := h.ends
  exact hn n le_rfl (hlooping n)

end HttpsDnsProxy
