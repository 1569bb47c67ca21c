import Mathlib.Data.List.DropRight
import Mathlib.Tactic.Common

/-!
# Circular buffers

A ring is an array whose slots are used one after the other, from the first again once the
last one is used. `next` is the slot to use next and `full` says that the slots have all been
used. `overwrite` stores in that slot and `advance` moves on, `push` is one after the other.
`walk` is a loop that reads slot after slot until it comes to `next`, at most `rounds` of them.

`entries` are the values in use, oldest first. A push adds one at the end and keeps the latest
(`entries_push`). A ring that holds the latest of a history (`Latest`) does so after a push
(`Latest.push`), and `walk` reads its entries (`walk_start`).
-/

/-- A buffer of a fixed number of slots, used in a circle. -/
structure CircularBuffer (α : Type*) where
  storage : List α
  next : ℕ
  full : Bool
  next_lt : next < storage.length

namespace CircularBuffer

variable {α : Type*}

/-- A ring that is not in use yet. -/
def fresh (size : ℕ) (h : 0 < size) (x : α) : CircularBuffer α where
  storage := List.replicate size x
  next := 0
  full := false
  next_lt := by
    rw [List.length_replicate]
    exact h

/-- The slot after `i`. -/
def succ (r : CircularBuffer α) (i : ℕ) : ℕ :=
  if i + 1 = r.storage.length then 0 else i + 1

theorem succ_lt (r : CircularBuffer α) {i : ℕ} (hi : i < r.storage.length) :
    r.succ i < r.storage.length := by
  unfold succ
  split <;> omega

/-- `storage[next] = x`. -/
def overwrite (r : CircularBuffer α) (x : α) : CircularBuffer α where
  storage := r.storage.set r.next x
  next := r.next
  full := r.full
  next_lt := by
    rw [List.length_set]
    exact r.next_lt

/-- The next slot is used : the last one fills the ring. -/
def advance (r : CircularBuffer α) : CircularBuffer α where
  storage := r.storage
  next := r.succ r.next
  full := r.full || r.next + 1 = r.storage.length
  next_lt := r.succ_lt r.next_lt

/-- An element takes the next slot, in place of the oldest one if the ring is full. -/
def push (r : CircularBuffer α) (x : α) : CircularBuffer α :=
  (r.overwrite x).advance

/-- The slots from `current` on, until `next`. `none` if `rounds` slots are not enough. -/
def walk (r : CircularBuffer α) : (rounds current : ℕ) → Option (List α)
  | 0, _ => none
  | rounds + 1, current =>
    r.storage[current]?.bind fun x =>
      if r.succ current = r.next then some [x]
      else (r.walk rounds (r.succ current)).map (x :: ·)

/-- The oldest slot in use. -/
def start (r : CircularBuffer α) : ℕ :=
  if r.full then r.next else 0

/-- The values in use, oldest first. -/
def entries (r : CircularBuffer α) : List α :=
  if r.full then r.storage.drop r.next ++ r.storage.take r.next else r.storage.take r.next

/-! ## The end of a list -/

theorem rtake_of_length_le {n : ℕ} {l : List α} (h : l.length ≤ n) : l.rtake n = l := by
  rw [List.rtake, Nat.sub_eq_zero_of_le h, List.drop_zero]

theorem rtake_cons_of_length_eq {n : ℕ} {l : List α} (x : α) (h : l.length = n) :
    (x :: l).rtake n = l := by
  rw [List.rtake, List.length_cons, h, Nat.add_sub_cancel_left, List.drop_succ_cons, List.drop_zero]

theorem rtake_rtake_of_le {m n : ℕ} (h : m ≤ n) (l : List α) : (l.rtake n).rtake m = l.rtake m := by
  rw [List.rtake, List.rtake, List.rtake, List.drop_drop, List.length_drop]
  congr 1
  omega

/-- What is left out of the history does not come back. -/
theorem rtake_rtake_concat (l : List α) (x : α) :
    ∀ n : ℕ, (l.rtake n ++ [x]).rtake n = (l ++ [x]).rtake n
  | 0 => by rw [List.rtake_zero, List.rtake_zero]
  | n + 1 => by
    rw [List.rtake_concat_succ, List.rtake_concat_succ, rtake_rtake_of_le n.le_succ]

theorem length_rtake (n : ℕ) (l : List α) : (l.rtake n).length = min l.length n := by
  rw [List.rtake, List.length_drop]
  omega

theorem rtake_map {β : Type*} (f : α → β) (n : ℕ) (l : List α) :
    (l.map f).rtake n = (l.rtake n).map f := by
  rw [List.rtake, List.rtake, List.length_map, List.map_drop]

/-! ## Pushing -/

@[simp] theorem length_push (r : CircularBuffer α) (x : α) :
    (r.push x).storage.length = r.storage.length :=
  List.length_set

theorem take_overwrite (r : CircularBuffer α) (x : α) :
    (r.overwrite x).storage.take (r.next + 1) = r.storage.take r.next ++ [x] := by
  have hlt : r.next < (r.storage.set r.next x).length := (r.overwrite x).next_lt
  change (r.storage.set r.next x).take (r.next + 1) = _
  rw [List.take_succ_eq_append_getElem hlt, List.take_set_of_le le_rfl, List.getElem_set_self]

theorem drop_overwrite (r : CircularBuffer α) (x : α) :
    (r.overwrite x).storage.drop (r.next + 1) = r.storage.drop (r.next + 1) :=
  List.drop_set_of_lt (Nat.lt_succ_self _)

/-- After the next slot is used, it holds the newest value. -/
theorem entries_advance (r : CircularBuffer α) :
    r.advance.entries =
      if r.full then r.storage.drop (r.next + 1) ++ r.storage.take (r.next + 1)
      else r.storage.take (r.next + 1) := by
  by_cases hend : r.next + 1 = r.storage.length
  -- The slot was the last one : the ring goes on at slot 0, full from now on.
  · simp [advance, entries, succ, hend]
  · simp [advance, entries, succ, hend]

/-- A push adds the value at the end, and the oldest one makes room if the ring is full. -/
theorem entries_push (r : CircularBuffer α) (x : α) :
    (r.push x).entries = (r.entries ++ [x]).rtake r.storage.length := by
  have hlt : r.next < r.storage.length := r.next_lt
  have hafter : (r.push x).entries =
      if r.full then r.storage.drop (r.next + 1) ++ (r.storage.take r.next ++ [x])
      else r.storage.take r.next ++ [x] := by
    rw [← take_overwrite, ← drop_overwrite r x]
    exact entries_advance (r.overwrite x)
  rw [hafter, entries]
  cases r.full with
  | false =>
    refine (rtake_of_length_le ?_).symm
    rw [if_neg Bool.false_ne_true, List.length_append, List.length_take, List.length_singleton]
    omega
  | true =>
    rw [if_pos rfl, if_pos rfl, List.drop_eq_getElem_cons hlt, List.cons_append, List.cons_append,
      List.append_assoc, rtake_cons_of_length_eq]
    rw [List.length_append, List.length_append, List.length_take, List.length_drop,
      List.length_singleton]
    omega

/-! ## Overwriting -/

/-- Before the ring is full, the next slot is not in use. -/
theorem entries_overwrite {r : CircularBuffer α} (h : r.full = false) (x : α) :
    (r.overwrite x).entries = r.entries := by
  have htake : (r.storage.set r.next x).take r.next = r.storage.take r.next :=
    List.take_set_of_le le_rfl
  unfold entries
  rw [h, if_neg Bool.false_ne_true]
  exact (if_neg (by rw [overwrite, h]; exact Bool.false_ne_true)).trans htake

/-- In a full ring the next slot holds the oldest value. -/
theorem mem_entries_overwrite {r : CircularBuffer α} (h : r.full = true) (x : α) :
    x ∈ (r.overwrite x).entries := by
  have hlt : r.next < (r.storage.set r.next x).length := (r.overwrite x).next_lt
  have hentries : (r.overwrite x).entries =
      (r.storage.set r.next x).drop r.next ++ (r.storage.set r.next x).take r.next := if_pos h
  rw [hentries, List.drop_eq_getElem_cons hlt, List.getElem_set_self]
  exact List.mem_cons_self ..

/-! ## Reading -/

theorem walk_succ (r : CircularBuffer α) {current : ℕ} (h : current < r.storage.length)
    (rounds : ℕ) :
    r.walk (rounds + 1) current =
      if r.succ current = r.next then some [r.storage.get ⟨current, h⟩]
      else (r.walk rounds (r.succ current)).map (r.storage.get ⟨current, h⟩ :: ·) := by
  rw [walk, List.getElem?_eq_getElem h]
  rfl

/-- From a slot before `next` the loop reads up to it. -/
theorem walk_of_lt (r : CircularBuffer α) :
    ∀ {rounds current : ℕ}, current < r.next → r.next ≤ current + rounds →
      r.walk rounds current = some ((r.storage.take r.next).drop current)
  | 0, _, hlt, hrounds => absurd hrounds (by omega)
  | rounds + 1, current, hlt, hrounds => by
    have hnext : r.next < r.storage.length := r.next_lt
    have hlt' : current < (r.storage.take r.next).length := by
      rw [List.length_take]
      omega
    have hsucc : r.succ current = current + 1 := if_neg (by omega)
    have hhead : (r.storage.take r.next).drop current =
        r.storage.get ⟨current, hlt.trans hnext⟩ :: (r.storage.take r.next).drop (current + 1) := by
      rw [List.drop_eq_getElem_cons hlt', List.getElem_take]
      rfl
    rw [walk_succ r (hlt.trans hnext), hsucc, hhead]
    split
    · rw [List.drop_of_length_le]
      rw [List.length_take]
      omega
    · rw [walk_of_lt r (by omega) (by omega)]
      rfl

/-- From `next` or a slot behind it the loop reads to the last slot and on from the first. -/
theorem walk_of_le (r : CircularBuffer α) :
    ∀ {rounds current : ℕ}, r.next ≤ current → current < r.storage.length →
      r.storage.length + r.next ≤ current + rounds →
      r.walk rounds current = some (r.storage.drop current ++ r.storage.take r.next)
  | 0, _, _, hlt, hrounds => absurd hrounds (by omega)
  | rounds + 1, current, hle, hlt, hrounds => by
    rw [walk_succ r hlt, List.drop_eq_getElem_cons hlt, List.cons_append]
    by_cases hend : current + 1 = r.storage.length
    · have hsucc : r.succ current = 0 := if_pos hend
      rw [hsucc, hend, List.drop_length, List.nil_append]
      split
      case isTrue hnext =>
        rw [← hnext, List.take_zero]
        rfl
      case isFalse hnext =>
        rw [walk_of_lt r (by omega) (by omega), List.drop_zero]
        rfl
    · have hsucc : r.succ current = current + 1 := if_neg hend
      rw [hsucc, if_neg (by omega), walk_of_le r (by omega) (by omega) (by omega)]
      rfl

/-- As many rounds as there are slots read the values in use. -/
theorem walk_start (r : CircularBuffer α) (h : r.full = true ∨ 0 < r.next) {rounds : ℕ}
    (hrounds : r.storage.length ≤ rounds) : r.walk rounds r.start = some r.entries := by
  have hlt : r.next < r.storage.length := r.next_lt
  cases hfull : r.full with
  | true =>
    rw [start, entries, hfull, if_pos rfl, if_pos rfl]
    exact r.walk_of_le le_rfl hlt (by omega)
  | false =>
    have hpos : 0 < r.next := h.resolve_left (by rw [hfull]; exact Bool.false_ne_true)
    have hwalk := r.walk_of_lt hpos (by omega : r.next ≤ 0 + rounds)
    rw [List.drop_zero] at hwalk
    rw [start, entries, hfull, if_neg Bool.false_ne_true, if_neg Bool.false_ne_true, hwalk]

/-! ## The latest of a history -/

/-- The ring has `size` slots and holds the latest values of `history`. -/
structure Latest (r : CircularBuffer α) (size : ℕ) (history : List α) : Prop where
  length_storage : r.storage.length = size
  entries_eq : r.entries = history.rtake size

theorem latest_fresh {size : ℕ} (h : 0 < size) (x : α) : (fresh size h x).Latest size [] where
  length_storage := List.length_replicate
  entries_eq := by rw [List.rtake_nil]; rfl

theorem Latest.push {r : CircularBuffer α} {size : ℕ} {history : List α} (h : r.Latest size history)
    (x : α) : (r.push x).Latest size (history ++ [x]) where
  length_storage := by rw [length_push, h.length_storage]
  entries_eq := by rw [entries_push, h.length_storage, h.entries_eq, rtake_rtake_concat]

end CircularBuffer
