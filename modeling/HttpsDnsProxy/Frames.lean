import HttpsDnsProxy.Bytes

/-!
# Length-prefixed frames

A frame is a payload behind its 16-bit length in network order (`frame`). `nextFrame`
takes one complete frame off a stream and `frames` decodes a stream into the payloads of
its complete frames.

Decoding is incremental : after a known sequence of frames it starts afresh
(`frames_stream_append`).
-/

namespace Frames

open Bytes

/-- The bytes of one frame. -/
def frame (p : List UInt8) : List UInt8 :=
  toBe16 p.length ++ p

/-- The bytes of a sequence of frames. -/
def stream (ps : List (List UInt8)) : List UInt8 :=
  ps.flatMap frame

/-- The payload of the first complete frame of a stream, with what follows it. -/
def nextFrame : List UInt8 → Option (List UInt8 × List UInt8)
  | hi :: lo :: s =>
    if be16 hi lo ≤ s.length then some (s.take (be16 hi lo), s.drop (be16 hi lo)) else none
  | _ => none

@[simp] theorem length_frame (p : List UInt8) : (frame p).length = 2 + p.length := by
  simp [frame]

@[simp] theorem stream_nil : stream [] = [] := rfl

@[simp] theorem stream_cons (p : List UInt8) (ps : List (List UInt8)) :
    stream (p :: ps) = frame p ++ stream ps := rfl

theorem stream_append (ps qs : List (List UInt8)) : stream (ps ++ qs) = stream ps ++ stream qs := by
  simp [stream]

theorem stream_concat (ps : List (List UInt8)) (p : List UInt8) :
    stream (ps ++ [p]) = stream ps ++ frame p := by
  simp [stream_append]

/-- A frame taken off a stream is the frame the stream starts with. -/
theorem eq_of_nextFrame {s p t : List UInt8} (h : nextFrame s = some (p, t)) :
    s = frame p ++ t ∧ p.length < 65536 := by
  match s, h with
  | hi :: lo :: s, h =>
    simp only [nextFrame] at h
    split_ifs at h with hle
    obtain ⟨rfl, rfl⟩ := Prod.mk.inj (Option.some.inj h)
    have hlen : (s.take (be16 hi lo)).length = be16 hi lo := List.length_take_of_le hle
    refine ⟨?_, hlen.trans_lt (be16_lt hi lo)⟩
    rw [frame, hlen, toBe16_be16]
    simp

/-- A complete frame is taken off whatever follows it. -/
theorem nextFrame_frame {p : List UInt8} (hp : p.length < 65536) (t : List UInt8) :
    nextFrame (frame p ++ t) = some (p, t) := by
  simp [frame, toBe16, nextFrame, be16_toBe16 hp]

theorem length_lt_of_nextFrame {s p t : List UInt8} (h : nextFrame s = some (p, t)) :
    t.length < s.length := by
  obtain ⟨rfl, -⟩ := eq_of_nextFrame h
  simp only [List.length_append, length_frame]
  omega

/-- The payloads of the complete frames of a stream, in order. -/
def frames (s : List UInt8) : List (List UInt8) :=
  match _h : nextFrame s with
  | none => []
  | some (p, t) => p :: frames t
termination_by s.length
decreasing_by exact length_lt_of_nextFrame _h

theorem frames_of_none {s : List UInt8} (h : nextFrame s = none) : frames s = [] := by
  unfold frames
  split
  · rfl
  · next heq => simp [h] at heq

theorem frames_of_some {s p t : List UInt8} (h : nextFrame s = some (p, t)) :
    frames s = p :: frames t := by
  rw [frames]
  split
  · next heq => simp [h] at heq
  · next heq =>
    obtain ⟨rfl, rfl⟩ := Prod.mk.inj (Option.some.inj (heq.symm.trans h))
    rfl

/-- After a sequence of frames, decoding goes on with what follows it. -/
theorem frames_stream_append :
    ∀ {ps : List (List UInt8)}, (∀ p ∈ ps, p.length < 65536) → ∀ t : List UInt8,
      frames (stream ps ++ t) = ps ++ frames t
  | [], _, _ => rfl
  | p :: ps, h, t => by
    rw [stream_cons, List.append_assoc, frames_of_some (nextFrame_frame (h p (by simp)) _),
      frames_stream_append (fun q hq => h q (by simp [hq])) t, List.cons_append]

/-- A stream starts with the frames it decodes into. -/
theorem isPrefix_stream_frames (s : List UInt8) : stream (frames s) <+: s := by
  induction s using frames.induct with
  | case1 s h => simp [frames_of_none h]
  | case2 s p t h ih =>
    obtain ⟨u, hu⟩ := ih
    refine ⟨u, ?_⟩
    rw [frames_of_some h, stream_cons, List.append_assoc, hu]
    exact (eq_of_nextFrame h).1.symm

/-- A decoded payload is shorter than the stream it comes from. -/
theorem length_add_two_le_of_mem_frames {s p : List UInt8} (hp : p ∈ frames s) :
    2 + p.length ≤ s.length := by
  obtain ⟨u, hu⟩ := isPrefix_stream_frames s
  obtain ⟨pre, post, hsplit⟩ := List.append_of_mem hp
  have hlen := congrArg List.length hu
  simp only [hsplit, stream_append, stream_cons, List.length_append, length_frame] at hlen
  omega

end Frames
