import Mathlib.Algebra.Group.Nat.Defs
import Mathlib.Data.List.Basic
import Mathlib.Data.List.Infix
import Mathlib.Tactic.Common

/-!
# Bytes in memory and fixed-width counters

`Mem` is what a C pointer sees : a byte at every offset, whether or not the program has
written there. `Mem.read` is the block a `memcpy` reads, `Mem.write` what it leaves
behind, `Mem.move` a `memmove` and `Mem.realloc` a `realloc` that keeps the old block
and finds anything behind it. `Mem.read_write_append` is the fact buffers are filled
with : appending at offset `n` after `n` known bytes.

`be16` reads two bytes in network order and `toBe16` writes them. `wrapSub` is unsigned
subtraction at a given width.
-/

namespace Bytes

/-- The bytes behind a pointer. -/
abbrev Mem := ℕ → UInt8

namespace Mem

/-- The `n` bytes at offset `off`. -/
def read (m : Mem) (off n : ℕ) : List UInt8 :=
  (List.range n).map fun i => m (off + i)

/-- The memory after `bs` is stored at offset `off`. -/
def write (m : Mem) (off : ℕ) (bs : List UInt8) : Mem := fun i =>
  if off ≤ i then bs[i - off]?.getD (m i) else m i

/-- `memmove` of `n` bytes from `src` to `dst`. -/
def move (m : Mem) (dst src n : ℕ) : Mem :=
  m.write dst (m.read src n)

/-- `realloc` of a block of `old` bytes to `new` bytes : the common part is kept, behind
it is whatever `fresh` holds. -/
def realloc (m : Mem) (old new : ℕ) (fresh : Mem) : Mem := fun i =>
  if i < min old new then m i else fresh i

@[simp] theorem length_read (m : Mem) (off n : ℕ) : (m.read off n).length = n := by
  simp [read]

@[simp] theorem getElem_read (m : Mem) (off n i : ℕ) (h : i < (m.read off n).length) :
    (m.read off n)[i] = m (off + i) := by
  simp [read]

theorem read_congr {m m' : Mem} {off off' n : ℕ} (h : ∀ i < n, m (off + i) = m' (off' + i)) :
    m.read off n = m'.read off' n :=
  List.ext_getElem (by simp) fun i hi _ => by
    simpa using h i (by simpa using hi)

theorem read_add (m : Mem) (off a b : ℕ) :
    m.read off (a + b) = m.read off a ++ m.read (off + a) b := by
  refine List.ext_getElem (by simp) fun i hi _ => ?_
  rcases Nat.lt_or_ge i a with h | h
  · simp [List.getElem_append_left, h]
  · have hoff : off + a + (i - a) = off + i := by omega
    simp [List.getElem_append_right, h, hoff]

theorem read_two_add (m : Mem) (n : ℕ) : m.read 0 (2 + n) = m 0 :: m 1 :: m.read 2 n := by
  rw [read_add]
  rfl

theorem write_of_lt (m : Mem) (off : ℕ) (bs : List UInt8) {i : ℕ} (h : i < off) :
    m.write off bs i = m i := by
  simp [write, Nat.not_le.2 h]

theorem write_of_ge (m : Mem) (off : ℕ) (bs : List UInt8) {i : ℕ} (h : off + bs.length ≤ i) :
    m.write off bs i = m i := by
  have hnone : bs[i - off]? = none := List.getElem?_eq_none (by omega)
  simp [write, hnone]

theorem write_add (m : Mem) (off : ℕ) (bs : List UInt8) {i : ℕ} (h : i < bs.length) :
    m.write off bs (off + i) = bs[i] := by
  simp [write, h]

/-- What is stored is read back. -/
theorem read_write_self (m : Mem) (off : ℕ) (bs : List UInt8) :
    (m.write off bs).read off bs.length = bs :=
  List.ext_getElem (by simp) fun i _ hi => by
    simp [write_add m off bs hi]

/-- Storing `bs` behind the first `n` bytes appends it to them. -/
theorem read_write_append (m : Mem) (n : ℕ) (bs : List UInt8) :
    (m.write n bs).read 0 (n + bs.length) = m.read 0 n ++ bs := by
  rw [read_add, Nat.zero_add, read_write_self]
  refine congrArg (· ++ bs) (read_congr fun i hi => ?_)
  exact write_of_lt _ _ _ (by simpa using hi)

/-- After a move to the front, the front holds what was at `src`. -/
theorem read_move (m : Mem) (src n : ℕ) : (m.move 0 src n).read 0 n = m.read src n := by
  have h := read_write_self m 0 (m.read src n)
  rwa [length_read] at h

theorem move_of_ge (m : Mem) (src : ℕ) {n i : ℕ} (h : n ≤ i) : m.move 0 src n i = m i :=
  write_of_ge _ _ _ (by simpa using h)

/-- A move in place. -/
theorem move_self (m : Mem) (n : ℕ) : m.move 0 0 n = m := by
  funext i
  rcases Nat.lt_or_ge i n with hlt | hge
  · have hi : i < (m.read 0 n).length := by simpa using hlt
    have hwrite := write_add m 0 (m.read 0 n) hi
    rw [Nat.zero_add] at hwrite
    rw [move, hwrite]
    simp
  · exact move_of_ge m 0 hge

/-- Growing a block keeps the bytes in use. -/
theorem read_realloc (m fresh : Mem) {old new n : ℕ} (h : n ≤ min old new) :
    (m.realloc old new fresh).read 0 n = m.read 0 n :=
  read_congr fun i hi => if_pos (by omega)

end Mem

/-! ## Network order -/

/-- Two bytes in network order : `ntohs` of the 16-bit word they form. -/
def be16 (hi lo : UInt8) : ℕ :=
  hi.toNat * 256 + lo.toNat

/-- `htons` : the two bytes of a 16-bit number, high byte first. -/
def toBe16 (n : ℕ) : List UInt8 :=
  [UInt8.ofNat (n / 256), UInt8.ofNat n]

theorem be16_lt (hi lo : UInt8) : be16 hi lo < 65536 := by
  have h := hi.toNat_lt
  have l := lo.toNat_lt
  unfold be16
  omega

theorem be16_toBe16 {n : ℕ} (h : n < 65536) : be16 (UInt8.ofNat (n / 256)) (UInt8.ofNat n) = n := by
  simp only [be16, UInt8.toNat_ofNat']
  omega

theorem toBe16_be16 (hi lo : UInt8) : toBe16 (be16 hi lo) = [hi, lo] := by
  have h := hi.toNat_lt
  have l := lo.toNat_lt
  simp only [toBe16, be16, List.cons.injEq, and_true]
  constructor <;> apply UInt8.toNat_inj.1 <;> simp only [UInt8.toNat_ofNat'] <;> omega

/-- The number at the start of a block gives its first two bytes back. -/
theorem take_two_eq (bs : List UInt8) (h : 2 ≤ bs.length) :
    bs.take 2 = toBe16 (be16 (bs.getD 0 0) (bs.getD 1 0)) := by
  match bs, h with
  | _ :: _ :: _, _ => rw [toBe16_be16]; rfl

@[simp] theorem length_toBe16 (n : ℕ) : (toBe16 n).length = 2 := rfl

/-! ## Unsigned arithmetic -/

/-- Unsigned subtraction modulo `M`. -/
def wrapSub (M a b : ℕ) : ℕ :=
  (a + M - b) % M

theorem wrapSub_of_le {M a b : ℕ} (h : b ≤ a) (ha : a < M) : wrapSub M a b = a - b := by
  unfold wrapSub
  rw [show a + M - b = a - b + M by omega, Nat.add_mod_right, Nat.mod_eq_of_lt (by omega)]

end Bytes
