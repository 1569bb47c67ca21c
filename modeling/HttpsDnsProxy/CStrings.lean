import Mathlib.Data.List.Basic
import Mathlib.Data.List.Infix
import Mathlib.Tactic.Common

/-!
# C strings

A C string is its characters before the NUL. `strchr` and `strstr` give the offset of what
they find. A character buffer is a list of characters, NULs included : `snprintf` stores a
text in it, cut off to the size it is given, `store` what fits in it as it is, and `text` reads
the string at its start.
-/

/-- The characters of a C string before its NUL. -/
abbrev CString := List Char

namespace CStrings

/-- The character that ends a string. -/
def nul : Char := Char.ofNat 0

/-- The offset of the first `c` in `s`. -/
def strchr (s : CString) (c : Char) : Option ℕ :=
  s.findIdx? (· = c)

/-- The offset of the first occurrence of `needle`. -/
def strstr (needle : CString) : CString → Option ℕ
  | [] => if needle.isPrefixOf [] then some 0 else none
  | c :: s => if needle.isPrefixOf (c :: s) then some 0 else (strstr needle s).map (· + 1)

/-- The string at the start of a buffer. -/
def text (buf : List Char) : CString :=
  buf.takeWhile (· ≠ nul)

/-- `snprintf` of `s` at offset `off` of a buffer : at most `size` characters with the NUL. -/
def snprintf (buf : List Char) (off : ℕ) : ℕ → CString → List Char
  | 0, _ => buf
  | size + 1, s =>
    let stored := s.take size ++ [nul]
    buf.take off ++ stored ++ buf.drop (off + stored.length)

/-- Characters stored at offset `off` of a buffer. `none` if they do not fit in it. -/
def store (buf : List Char) (off : ℕ) (s : List Char) : Option (List Char) :=
  if off + s.length ≤ buf.length then some (buf.take off ++ s ++ buf.drop (off + s.length))
  else none

/-! ## Searching -/

theorem strchr_eq_none {s : CString} {c : Char} (h : strchr s c = none) : c ∉ s := by
  intro hmem
  have hnone : ∀ a ∈ s, ¬a = c := by simpa [strchr] using h
  exact hnone c hmem rfl

/-- What `strchr` finds is the first one. -/
theorem strchr_eq_some {s : CString} {c : Char} {k : ℕ} (h : strchr s c = some k) :
    s = s.take k ++ c :: s.drop (k + 1) ∧ c ∉ s.take k ∧ (s.take k).length = k := by
  obtain ⟨hk, hc, hbefore⟩ := List.findIdx?_eq_some_iff_getElem.1 h
  refine ⟨?_, fun hmem => ?_, List.length_take_of_le hk.le⟩
  · have hget : s[k] = c := by simpa using hc
    rw [← hget, ← List.drop_eq_getElem_cons hk, List.take_append_drop]
  · obtain ⟨i, hi, hget⟩ := List.mem_take_iff_getElem.1 hmem
    exact absurd (hbefore i (by omega)) (by simpa using hget)

theorem strchr_of_notMem {c : Char} {s : CString} (h : c ∉ s) : strchr s c = none := by
  rw [strchr, List.findIdx?_eq_none_iff]
  intro a ha
  simpa using fun heq : a = c => h (heq ▸ ha)

/-- `strchr` skips a text without the character. -/
theorem strchr_append_cons {c : Char} {s : CString} (h : c ∉ s) (t : CString) :
    strchr (s ++ c :: t) c = some s.length := by
  have hs : s.findIdx? (· = c) = none := strchr_of_notMem h
  rw [strchr, List.findIdx?_append, hs, List.findIdx?_cons]
  simp

/-- What `strstr` finds is there. -/
theorem strstr_eq_some {needle : CString} :
    ∀ {hay : CString} {k : ℕ}, strstr needle hay = some k →
      ∃ before after, hay = before ++ needle ++ after ∧ before.length = k
  | [], k, h => by
    unfold strstr at h
    split_ifs at h with hp
    obtain ⟨after, hafter⟩ := List.isPrefixOf_iff_prefix.1 hp
    exact ⟨[], after, by simpa using hafter.symm, Option.some.inj h⟩
  | c :: hay, k, h => by
    unfold strstr at h
    split_ifs at h with hp
    · obtain ⟨after, hafter⟩ := List.isPrefixOf_iff_prefix.1 hp
      exact ⟨[], after, by simpa using hafter.symm, Option.some.inj h⟩
    · obtain ⟨k', hk', rfl⟩ := Option.map_eq_some_iff.1 h
      obtain ⟨before, after, rfl, rfl⟩ := strstr_eq_some hk'
      exact ⟨c :: before, after, rfl, rfl⟩

/-- A text that does not have the first character of the needle is skipped. -/
theorem strstr_append {c : Char} {needle after : CString} :
    ∀ {before : CString}, c ∉ before →
      strstr (c :: needle) (before ++ c :: needle ++ after) = some before.length
  | [], _ => by
    simp [strstr]
  | a :: before, h => by
    have hne : ¬(c :: needle).isPrefixOf (a :: (before ++ c :: needle ++ after)) = true := by
      simp only [List.isPrefixOf_cons_cons, Bool.and_eq_true, beq_iff_eq, not_and]
      exact fun heq => (h (heq ▸ List.mem_cons_self ..)).elim
    have hrest : strstr (c :: needle) (before ++ c :: needle ++ after) = some before.length :=
      strstr_append fun hmem => h (List.mem_cons_of_mem _ hmem)
    simp only [List.cons_append] at hne hrest ⊢
    rw [strstr, if_neg hne, hrest]
    rfl

/-- `strstr` finds nothing that is not there. -/
theorem strstr_eq_none {needle : CString} :
    ∀ {hay : CString}, ¬needle <:+: hay → strstr needle hay = none
  | [], h => by
    have hp : ¬needle.isPrefixOf [] = true := fun hp =>
      h (List.isPrefixOf_iff_prefix.1 hp).isInfix
    rw [strstr, if_neg hp]
  | c :: hay, h => by
    rw [List.infix_cons_iff, not_or] at h
    have hp : ¬needle.isPrefixOf (c :: hay) = true := fun hp =>
      h.1 (List.isPrefixOf_iff_prefix.1 hp)
    rw [strstr, if_neg hp, strstr_eq_none h.2]
    rfl

/-- `strstr` finds what is there. -/
theorem exists_strstr {needle hay : CString} (h : needle <:+: hay) :
    ∃ k, strstr needle hay = some k := by
  induction hay with
  | nil =>
    rw [List.infix_nil] at h
    exact ⟨0, by rw [h]; rfl⟩
  | cons c hay ih =>
    unfold strstr
    split_ifs with hp
    · exact ⟨0, rfl⟩
    · rcases List.infix_cons_iff.1 h with hprefix | htail
      · exact absurd (List.isPrefixOf_iff_prefix.2 hprefix) hp
      · obtain ⟨k, hk⟩ := ih htail
        exact ⟨k + 1, by rw [hk]; rfl⟩

/-- What follows does not change what is found before it. -/
theorem strstr_append_of_eq_some {needle : CString} (after : CString) :
    ∀ {hay : CString} {k : ℕ}, strstr needle hay = some k → strstr needle (hay ++ after) = some k
  | [], k, h => by
    unfold strstr at h
    split_ifs at h with hp
    obtain rfl : needle = [] := List.prefix_nil.1 (List.isPrefixOf_iff_prefix.1 hp)
    rw [← h]
    cases after <;> rfl
  | c :: hay, k, h => by
    unfold strstr at h
    split_ifs at h with hp
    · have hp' : needle.isPrefixOf (c :: (hay ++ after)) = true :=
        List.isPrefixOf_iff_prefix.2
          ((List.isPrefixOf_iff_prefix.1 hp).trans (List.prefix_append (c :: hay) after))
      rw [List.cons_append, strstr, if_pos hp', h]
    · obtain ⟨k', hk', rfl⟩ := Option.map_eq_some_iff.1 h
      -- an earlier occurrence would end within `hay`, where the one found does
      have hp' : ¬needle.isPrefixOf (c :: (hay ++ after)) = true := by
        intro hp'
        obtain ⟨before, rest, hsplit, -⟩ := strstr_eq_some hk'
        have hlen : needle.length ≤ (c :: hay).length := by
          rw [hsplit, List.length_cons, List.length_append, List.length_append]
          omega
        exact hp (List.isPrefixOf_iff_prefix.2 (List.prefix_of_prefix_length_le
          (List.isPrefixOf_iff_prefix.1 hp') (List.prefix_append (c :: hay) after) hlen))
      rw [List.cons_append, strstr, if_neg hp', strstr_append_of_eq_some after hk']
      rfl

/-- A text without `c` that starts before a `c` ends before it. -/
theorem isPrefix_of_append_cons {α : Type*} {c : α} {s before after : List α} (hs : c ∉ s)
    (h : s <+: before ++ c :: after) : s <+: before := by
  rcases Nat.lt_or_ge before.length s.length with hlt | hle
  · have hbefore : before ++ [c] <+: s := by
      refine List.prefix_of_prefix_length_le ⟨after, by simp⟩ h ?_
      rw [List.length_append, List.length_singleton]
      exact hlt
    exact absurd (hbefore.subset (by simp)) hs
  · exact List.prefix_of_prefix_length_le h (List.prefix_append _ _) hle

/-- A part that does not have the needle is skipped, with the separator behind it. -/
theorem strstr_append_cons {c : Char} {needle after : CString} (hc : c ∉ needle) :
    ∀ {before : CString}, ¬needle <:+: before →
      strstr needle (before ++ c :: after) =
        (strstr needle after).map (· + (before.length + 1))
  | [], h => by
    have hp : ¬needle.isPrefixOf (c :: after) = true := by
      intro hp
      have hprefix : needle <+: [] ++ c :: after := List.isPrefixOf_iff_prefix.1 hp
      exact h (isPrefix_of_append_cons hc hprefix).isInfix
    rw [List.nil_append, strstr, if_neg hp]
    rfl
  | a :: before, h => by
    rw [List.infix_cons_iff, not_or] at h
    have hp : ¬needle.isPrefixOf (a :: (before ++ c :: after)) = true := by
      intro hp
      have hprefix : needle <+: (a :: before) ++ c :: after := List.isPrefixOf_iff_prefix.1 hp
      exact h.1 (isPrefix_of_append_cons hc hprefix)
    rw [List.cons_append, strstr, if_neg hp, strstr_append_cons hc h.2, Option.map_map]
    rfl

/-! ## Separated lists -/

theorem mem_splitOn_append {c : Char} {s after : CString} (hs : c ∉ s)
    (hafter : after = [] ∨ ∃ t, after = c :: t) : s ∈ (s ++ after).splitOn c := by
  rcases hafter with rfl | ⟨t, rfl⟩
  · rw [List.append_nil, List.splitOn_eq_singleton hs]
    exact List.mem_singleton_self s
  · rw [List.splitOn_append_cons_self_of_not_mem hs]
    exact List.mem_cons_self ..

/-- What stands between two separators, or one and an end, is an element. -/
theorem mem_splitOn_of_bounded {c : Char} {before s after : CString} (hs : c ∉ s)
    (hbefore : before = [] ∨ ∃ t, before = t ++ [c]) (hafter : after = [] ∨ ∃ t, after = c :: t) :
    s ∈ (before ++ s ++ after).splitOn c := by
  have hmem : s ∈ (s ++ after).splitOn c := mem_splitOn_append hs hafter
  rcases hbefore with rfl | ⟨t, rfl⟩
  · exact hmem
  · rw [List.append_assoc, List.append_assoc, List.singleton_append,
      List.splitOn_append_cons_self]
    exact List.mem_append_right _ hmem

/-- An occurrence with a separator or an end on either side is an element. -/
theorem mem_splitOn_of_strstr {c : Char} {s full : CString} {k : ℕ} (hs : c ∉ s)
    (hk : strstr s full = some k) (hbegin : k = 0 ∨ full[k - 1]? = some c)
    (hend : full[k + s.length]? = some c ∨ full[k + s.length]? = none) :
    s ∈ full.splitOn c := by
  obtain ⟨before, after, rfl, rfl⟩ := strstr_eq_some hk
  refine mem_splitOn_of_bounded hs ?_ ?_
  · rcases List.eq_nil_or_concat before with rfl | ⟨t, a, rfl⟩
    · exact Or.inl rfl
    · refine Or.inr ⟨t, ?_⟩
      have ha : a = c := by simpa [List.append_assoc] using hbegin
      rw [ha, List.concat_eq_append]
  · cases after with
    | nil => exact Or.inl rfl
    | cons a t =>
      refine Or.inr ⟨t, ?_⟩
      have ha : a = c := by simpa [List.append_assoc] using hend
      rw [ha]

/-! ## Storing -/

theorem store_append {before rest s : List Char} (h : s.length ≤ rest.length) :
    store (before ++ rest) before.length s = some (before ++ (s ++ rest.drop s.length)) := by
  rw [store, if_pos (by rw [List.length_append]; omega), List.take_left, List.append_assoc,
    List.drop_append, List.drop_of_length_le (Nat.le_add_right _ _), Nat.add_sub_cancel_left,
    List.nil_append]

theorem text_append_nul {s : CString} (h : nul ∉ s) (rest : List Char) :
    text (s ++ nul :: rest) = s := by
  have hs : ∀ a ∈ s, a ≠ nul := fun a ha heq => h (heq ▸ ha)
  rw [text, List.takeWhile_append_of_pos (by simpa using hs)]
  simp

/-! ## Printing -/

theorem snprintf_eq {buf : List Char} {off size : ℕ} {s : CString} (hsize : s.length < size) :
    snprintf buf off size s =
      buf.take off ++ s ++ nul :: buf.drop (off + s.length + 1) := by
  obtain ⟨size, rfl⟩ := Nat.exists_eq_add_one_of_ne_zero (Nat.ne_zero_of_lt hsize)
  have hstored : s.take size = s := List.take_of_length_le (Nat.le_of_lt_succ hsize)
  simp [snprintf, hstored, Nat.add_assoc]

/-- A text printed behind another one, in what is left of the buffer. -/
theorem snprintf_snprintf (buf : List Char) {size : ℕ} {s : CString} (hsize : s.length < size)
    (t : CString) :
    snprintf (snprintf buf 0 size s) s.length (size - s.length) t =
      snprintf buf 0 size (s ++ t) := by
  obtain ⟨k, rfl⟩ := Nat.exists_eq_add_of_lt hsize
  have hfirst : snprintf buf 0 (s.length + k + 1) s =
      s ++ nul :: buf.drop (s.length + 1) := by
    rw [snprintf_eq hsize, List.take_zero, List.nil_append, Nat.zero_add]
  have hleft : s.length + k + 1 - s.length = k + 1 := by omega
  have htake : (s ++ t).take (s.length + k) = s ++ t.take k :=
    List.take_length_add_append k
  rw [hfirst, hleft, snprintf, snprintf, htake, List.take_left, List.take_zero]
  simp [List.drop_append, Nat.add_assoc, Nat.add_comm 1]

/-- A text that does not fit is cut, and fills the buffer. -/
theorem snprintf_of_length_le {buf : List Char} {size : ℕ} {s : CString}
    (hbuf : buf.length = size + 1) (hsize : size ≤ s.length) :
    snprintf buf 0 (size + 1) s = s.take size ++ [nul] := by
  rw [snprintf, List.drop_of_length_le]
  · simp
  · simp only [List.length_append, List.length_take, List.length_cons, List.length_nil]
    omega

/-- A text that fits is stored as it is. -/
theorem text_snprintf {buf : List Char} {off size : ℕ} {s : CString} (hsize : s.length < size)
    (hbuf : nul ∉ buf.take off) (hs : nul ∉ s) :
    text (snprintf buf off size s) = buf.take off ++ s := by
  rw [snprintf_eq hsize, text, List.takeWhile_append_of_pos]
  · simp
  · intro a ha
    have hne : a ≠ nul := by
      rintro rfl
      exact (List.mem_append.1 ha).elim hbuf hs
    simpa using hne

/-- What stands before the offset is kept. -/
theorem isPrefix_text_snprintf {buf : List Char} {off : ℕ} (hbuf : nul ∉ buf.take off) (size : ℕ)
    (s : CString) : buf.take off <+: text (snprintf buf off size s) := by
  have htext : ∀ rest, text (buf.take off ++ rest) = buf.take off ++ text rest := fun rest =>
    List.takeWhile_append_of_pos fun a ha => by
      have hne : a ≠ nul := by
        rintro rfl
        exact hbuf ha
      simpa using hne
  cases size with
  | zero =>
    rw [snprintf, ← List.take_append_drop off buf, htext, List.take_append_drop]
    exact List.prefix_append _ _
  | succ size =>
    rw [snprintf, List.append_assoc, htext]
    exact List.prefix_append _ _

end CStrings
