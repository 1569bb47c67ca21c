import HttpsDnsProxy.CStrings
import HttpsDnsProxy.CircularBuffers
import HttpsDnsProxy.Runs

/-!
# The flight recorder

`ring_buffer.c` keeps the latest log lines in memory, for a dump on request. Its buffer is a
`CircularBuffer` of pointers to strings (`RingBuffer`), NULL before a slot is used. A push cuts
the line to `maxLogEntrySize` characters and stores a copy of it. A dump prints the strings from
the oldest on.

`ringBuffer_latest` : after any pushes and dumps, a dump prints the latest lines pushed, as
many as there are slots for, in the order they were pushed. `ringBuffer_losesNothing_iff` : with
pushes that cannot allocate, nothing is lost exactly if the buffer is not full yet at each of
them.
-/

namespace HttpsDnsProxy

/-- `MAX_LOG_ENTRY_SIZE`. -/
def maxLogEntrySize : ℕ := 8192

/-- `struct ring_buffer` : `size` is the number of slots of `storage`, a slot is a NULL pointer
or points to the characters of an entry with their NUL. -/
abbrev RingBuffer := CircularBuffer (Option (List Char))

/-- `ring_buffer_init`, given whether its two calls of `calloc` succeed. -/
def ringBufferInit (size : ℕ) (callocBuffer callocStorage : Bool) : Option RingBuffer :=
  if h : size < 1 then none
  else if !callocBuffer then none
  else if !callocStorage then none
  else some (CircularBuffer.fresh size (by omega) none)

namespace RingBuffer

/-- `ring_buffer_dump` : what `fprintf` is given for each line it prints, `none` for a NULL
pointer. The loop is given up after `rounds` slots. -/
def ringBufferDump (rb : RingBuffer) (rounds : ℕ) : Option (List (Option CString)) :=
  if rb.next = 0 ∧ ¬rb.full then some []
  else (rb.walk rounds (if rb.full then rb.next else 0)).map (·.map (·.map CStrings.text))

/-- `ring_buffer_push_back`, given whether `malloc` succeeds. The slot's old entry is released
before that. -/
def ringBufferPushBack (rb : RingBuffer) (data : List Char) (malloc : Bool) : RingBuffer :=
  let size := if data.length > maxLogEntrySize then maxLogEntrySize else data.length
  if malloc then
    (rb.overwrite (some (data.take size ++ [CStrings.nul]))).advance
  else rb.overwrite none

end RingBuffer

/-- A call on the flight recorder. -/
inductive RingEvent
  | pushBack (data : List Char) (malloc : Bool)
  | dump

namespace RingEvent

/-- What the call pushes. -/
def data : RingEvent → List (List Char)
  | pushBack data _ => [data]
  | dump => []

/-- The call pushes a string, if it pushes, and `malloc` succeeds. -/
def PushesString : RingEvent → Prop
  | pushBack data malloc => CStrings.nul ∉ data ∧ malloc = true
  | dump => True

instance : DecidablePred PushesString
  | pushBack data malloc => inferInstanceAs (Decidable (CStrings.nul ∉ data ∧ malloc = true))
  | dump => inferInstanceAs (Decidable True)

end RingEvent

namespace RingBuffer

/-- The buffer after a call : a dump only reads it. -/
def step (rb : RingBuffer) : RingEvent → RingBuffer
  | .pushBack data malloc => rb.ringBufferPushBack data malloc
  | .dump => rb

/-- The lines that calls push, oldest first. -/
def pushed (es : List RingEvent) : List (List Char) :=
  es.flatMap RingEvent.data

/-! ## What is stored -/

/-- The characters a push copies. -/
def cut (data : List Char) : CString :=
  data.take maxLogEntrySize

/-- What the slot of a pushed line holds. -/
def stored (data : List Char) : Option (List Char) :=
  some (cut data ++ [CStrings.nul])

theorem ringBufferPushBack_eq_push (rb : RingBuffer) (data : List Char) :
    rb.ringBufferPushBack data true = rb.push (stored data) := by
  have hcut : data.take (if data.length > maxLogEntrySize then maxLogEntrySize else data.length) =
      cut data := by
    unfold cut
    split
    · rfl
    · rw [List.take_length, List.take_of_length_le (by omega)]
  simp only [ringBufferPushBack, hcut, if_true]
  rfl

theorem text_stored {data : List Char} (h : CStrings.nul ∉ data) :
    (stored data).map CStrings.text = some (cut data) := by
  have hcut : ∀ c ∈ cut data, c ≠ CStrings.nul := fun c hc hnul =>
    h (hnul ▸ List.mem_of_mem_take hc)
  rw [stored, Option.map_some, CStrings.text, List.takeWhile_append_of_pos (by simpa using hcut)]
  simp

theorem nul_notMem_of_mem_pushed {es : List RingEvent} (hes : ∀ e ∈ es, e.PushesString)
    {data : List Char} (h : data ∈ pushed es) : CStrings.nul ∉ data := by
  obtain ⟨e, he, hdata⟩ := List.mem_flatMap.1 h
  cases e with
  | pushBack data' malloc =>
    obtain rfl := List.mem_singleton.1 hdata
    exact (hes _ he).1
  | dump => exact absurd hdata List.not_mem_nil

/-! ## The latest lines -/

/-- A call adds what it pushes to the history. -/
theorem latest_step {rb : RingBuffer} {size : ℕ} {history : List (List Char)} {e : RingEvent}
    (he : e.PushesString) (h : rb.Latest size (history.map stored)) :
    (rb.step e).Latest size ((history ++ e.data).map stored) := by
  cases e with
  | pushBack data malloc =>
    obtain ⟨-, rfl⟩ := he
    rw [step, ringBufferPushBack_eq_push, List.map_append]
    exact h.push _
  | dump =>
    rw [RingEvent.data, List.append_nil]
    exact h

/-- The slots in use hold the latest lines pushed. -/
theorem latest_run {rb : RingBuffer} {size : ℕ} (h : rb.Latest size []) (es : List RingEvent)
    (hes : ∀ e ∈ es, e.PushesString) :
    (Runs.run step rb es).Latest size ((pushed es).map stored) := by
  induction es using List.reverseRecOn with
  | nil => exact h
  | append_singleton es e ih =>
    have hpushed : pushed (es ++ [e]) = pushed es ++ e.data := by simp [pushed]
    rw [Runs.run_concat, hpushed]
    exact latest_step (hes e (by simp)) (ih fun e' he' => hes e' (List.mem_append_left _ he'))

/-- A dump prints what the slots in use hold, also if none is. -/
theorem ringBufferDump_eq (rb : RingBuffer) {rounds : ℕ} (hrounds : rb.storage.length ≤ rounds) :
    rb.ringBufferDump rounds = some (rb.entries.map (·.map CStrings.text)) := by
  unfold ringBufferDump
  split
  case isTrue hempty =>
    have hfull : rb.full = false := by simpa using hempty.2
    rw [CircularBuffer.entries, hfull, hempty.1]
    rfl
  case isFalse hne =>
    have hused : rb.full = true ∨ 0 < rb.next := by
      by_contra hnot
      rw [not_or, Nat.pos_iff_ne_zero, not_not] at hnot
      exact hne ⟨hnot.2, hnot.1⟩
    have hwalk := rb.walk_start hused hrounds
    rw [CircularBuffer.start] at hwalk
    rw [hwalk]
    rfl

/-- For every size and every calls on the buffer that push strings and can allocate, a dump
ends after at most `size` lines, prints the latest lines pushed in the order of the pushes, each
cut to its first 8192 characters, and leaves the buffer as it is. -/
theorem ringBuffer_latest (size : ℕ) (hsize : 1 ≤ size) :
    ∃ rb, ringBufferInit size true true = some rb ∧
      ∀ es : List RingEvent, (∀ e ∈ es, e.PushesString) →
        let latest := (pushed es).rtake size
        latest.length = min (pushed es).length size ∧
        (∀ rounds, size ≤ rounds →
          (Runs.run step rb es).ringBufferDump rounds =
            some (latest.map fun data => some (cut data))) ∧
        (Runs.run step rb es).step .dump = Runs.run step rb es := by
  refine ⟨CircularBuffer.fresh size hsize none, dif_neg (by omega), fun es hes => ⟨?_, ?_, rfl⟩⟩
  · exact CircularBuffer.length_rtake _ _
  · intro rounds hrounds
    have hlatest : (Runs.run step (CircularBuffer.fresh size hsize none) es).Latest size
        ((pushed es).map stored) := latest_run (CircularBuffer.latest_fresh hsize none) es hes
    rw [ringBufferDump_eq _ (hlatest.length_storage.trans_le hrounds), hlatest.entries_eq,
      CircularBuffer.rtake_map, List.map_map]
    congr 1
    refine List.map_congr_left fun data hdata => text_stored ?_
    exact nul_notMem_of_mem_pushed hes (List.mem_of_mem_drop hdata)

/-- Three pushes on two slots with a dump between them : the first line is gone. -/
theorem ringBuffer_latest_two :
    ∃ rb, ringBufferInit 2 true true = some rb ∧
      (Runs.run step rb [.pushBack ['a'] true, .pushBack ['b'] true, .dump,
        .pushBack ['c'] true]).ringBufferDump 2 = some [some ['b'], some ['c']] := by
  obtain ⟨rb, hinit, hlatest⟩ := ringBuffer_latest 2 (by decide)
  obtain ⟨-, hdump, -⟩ := hlatest [.pushBack ['a'] true, .pushBack ['b'] true, .dump,
    .pushBack ['c'] true] (by decide)
  exact ⟨rb, hinit, hdump 2 le_rfl⟩

/-! ## Pushes that cannot allocate -/

/-- A push that cannot allocate finds slots that have not been used yet. -/
def FailsUnfilled (rb : RingBuffer) : RingEvent → Prop
  | .pushBack _ malloc => malloc = false → rb.full = false
  | .dump => True

/-- In the calls `es`, a push that cannot allocate does not change what a dump prints, and a dump
never comes to a slot without an entry. -/
structure LosesNothing (size : ℕ) (rb : RingBuffer) (es : List RingEvent) : Prop where
  failed : ∀ pre data, pre ++ [.pushBack data false] <+: es → ∀ rounds, size ≤ rounds →
    (Runs.run step rb (pre ++ [.pushBack data false])).ringBufferDump rounds =
      (Runs.run step rb pre).ringBufferDump rounds
  entries : ∀ pre, pre <+: es → ∀ rounds, size ≤ rounds →
    ∃ lines, (Runs.run step rb pre).ringBufferDump rounds = some lines ∧ none ∉ lines

/-- The buffer has `size` slots, and those in use hold an entry. -/
structure Filled (size : ℕ) (rb : RingBuffer) : Prop where
  length_storage : rb.storage.length = size
  entries : none ∉ rb.entries

theorem Filled.dump {size rounds : ℕ} {rb : RingBuffer} (h : Filled size rb)
    (hrounds : size ≤ rounds) :
    ∃ lines, rb.ringBufferDump rounds = some lines ∧ none ∉ lines := by
  refine ⟨_, ringBufferDump_eq rb (h.length_storage.trans_le hrounds), fun hmem => ?_⟩
  obtain ⟨entry, hentry, hnone⟩ := List.mem_map.1 hmem
  rw [Option.map_eq_none_iff] at hnone
  exact h.entries (hnone ▸ hentry)

/-- A push that cannot allocate leaves the entries in use alone, before the buffer is full. -/
theorem entries_of_failsUnfilled {rb : RingBuffer} {data : List Char}
    (h : rb.FailsUnfilled (.pushBack data false)) :
    (rb.step (.pushBack data false)).entries = rb.entries :=
  CircularBuffer.entries_overwrite (h rfl) none

theorem Filled.step {size : ℕ} {rb : RingBuffer} {e : RingEvent} (he : rb.FailsUnfilled e)
    (h : Filled size rb) : Filled size (rb.step e) := by
  cases e with
  | dump => exact h
  | pushBack data malloc =>
    cases malloc with
    | false =>
      exact ⟨List.length_set.trans h.length_storage, by
        rw [entries_of_failsUnfilled he]; exact h.entries⟩
    | true =>
      have hpush : rb.step (.pushBack data true) = rb.push (stored data) :=
        ringBufferPushBack_eq_push rb data
      rw [hpush]
      refine ⟨(CircularBuffer.length_push rb _).trans h.length_storage, fun hmem => ?_⟩
      rw [CircularBuffer.entries_push] at hmem
      rcases List.mem_append.1 (List.mem_of_mem_drop hmem) with hold | hnew
      · exact h.entries hold
      · cases List.mem_singleton.1 hnew

/-- A push that cannot allocate once the buffer is full : a dump comes to the empty slot. -/
theorem none_mem_dump {size rounds : ℕ} {rb : RingBuffer} (h : Filled size rb)
    (hrounds : size ≤ rounds) (hfull : rb.full = true) (data : List Char) :
    ∃ lines, (rb.step (.pushBack data false)).ringBufferDump rounds = some lines ∧
      none ∈ lines := by
  have hlen : (rb.step (.pushBack data false)).storage.length ≤ rounds :=
    (List.length_set.trans h.length_storage).trans_le hrounds
  exact ⟨_, ringBufferDump_eq _ hlen,
    List.mem_map.2 ⟨none, CircularBuffer.mem_entries_overwrite hfull none, rfl⟩⟩

/-- For every size and every calls on the buffer, of which any pushes cannot allocate : such a
push loses nothing, and every slot a dump comes to holds an entry, exactly if each of them finds
the buffer not full yet. The slot's old entry is released before the new one is allocated. -/
theorem ringBuffer_losesNothing_iff (size : ℕ) (hsize : 1 ≤ size) :
    ∃ rb, ringBufferInit size true true = some rb ∧
      ∀ es : List RingEvent,
        LosesNothing size rb es ↔ Runs.Meets step FailsUnfilled rb es := by
  refine ⟨CircularBuffer.fresh size hsize none, dif_neg (by omega), fun es => ?_⟩
  have hfresh : Filled size (CircularBuffer.fresh size hsize none) :=
    ⟨List.length_replicate, List.not_mem_nil⟩
  constructor
  · intro h
    by_contra hnot
    obtain ⟨pre, e, post, rfl, hpre, hbad⟩ := Runs.exists_of_not_meets hnot
    have hfilled := Runs.invariant_of_meets (fun _ _ he h => Filled.step he h) hpre hfresh
    cases e with
    | dump => exact hbad trivial
    | pushBack data malloc =>
      obtain ⟨rfl, hfull⟩ : malloc = false ∧ (Runs.run step _ pre).full = true := by
        simpa [FailsUnfilled] using hbad
      obtain ⟨lines, hdump, hnone⟩ := none_mem_dump hfilled le_rfl hfull data
      obtain ⟨lines', hdump', hlines⟩ :=
        h.entries (pre ++ [.pushBack data false]) ⟨post, by simp⟩ size le_rfl
      rw [Runs.run_concat, hdump] at hdump'
      exact hlines (Option.some.inj hdump' ▸ hnone)
  · intro hes
    have hfilled : ∀ {pre}, pre <+: es →
        Filled size (Runs.run step (CircularBuffer.fresh size hsize none) pre) := by
      rintro pre ⟨post, rfl⟩
      exact Runs.invariant_of_meets (fun _ _ he h => Filled.step he h) hes.of_append hfresh
    refine ⟨fun pre data h rounds hrounds => ?_, fun pre h rounds hrounds =>
      (hfilled h).dump hrounds⟩
    have hfails : (Runs.run step (CircularBuffer.fresh size hsize none) pre).FailsUnfilled
        (.pushBack data false) := by
      obtain ⟨post, rfl⟩ := h
      exact (Runs.meets_append.1 hes.of_append).2.1
    have hpre := hfilled ((List.prefix_append _ _).trans h)
    rw [ringBufferDump_eq _ ((hfilled h).length_storage.trans_le hrounds),
      ringBufferDump_eq _ (hpre.length_storage.trans_le hrounds), Runs.run_concat,
      entries_of_failsUnfilled hfails]

/-- Of two slots, one is used when an allocation fails. -/
theorem ringBuffer_losesNothing_early :
    ∃ rb, ringBufferInit 2 true true = some rb ∧
      LosesNothing 2 rb [.pushBack ['a'] true, .pushBack ['b'] false, .pushBack ['c'] true] := by
  obtain ⟨rb, hinit, hiff⟩ := ringBuffer_losesNothing_iff 2 (by decide)
  obtain rfl := Option.some.inj hinit
  refine ⟨_, rfl, (hiff _).2 ⟨?_, ?_, ?_, trivial⟩⟩
  · exact fun h => by cases h
  · exact fun _ => rfl
  · exact fun h => by cases h

/-- Two pushes fill two slots. The third one cannot allocate, and the oldest line is gone : a
dump prints a NULL pointer in its place. -/
theorem ringBuffer_losesNothing_full :
    ∃ rb, ringBufferInit 2 true true = some rb ∧
      ¬LosesNothing 2 rb [.pushBack ['a'] true, .pushBack ['b'] true, .pushBack ['c'] false] ∧
      (Runs.run step rb [.pushBack ['a'] true, .pushBack ['b'] true]).ringBufferDump 2 =
        some [some ['a'], some ['b']] ∧
      (Runs.run step rb [.pushBack ['a'] true, .pushBack ['b'] true,
        .pushBack ['c'] false]).ringBufferDump 2 = some [none, some ['b']] := by
  refine ⟨_, rfl, fun h => ?_, rfl, rfl⟩
  have hdump := h.failed [.pushBack ['a'] true, .pushBack ['b'] true] ['c'] List.prefix_rfl 2 le_rfl
  exact absurd hdump (by decide)

end RingBuffer

end HttpsDnsProxy
