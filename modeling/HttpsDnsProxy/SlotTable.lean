import Mathlib.Data.Finmap

/-!
# Slot tables

A table of a fixed number of slots holds values under nonzero keys, and a slot with the key 0
is free. A value is stored by releasing the slot with its key, if there is one, and putting it
into the first free slot, so it may change its place.

`Represents` relates a table to the finite map of the keys in use. Releasing a slot erases its
key (`Represents.release`). Storing a value inserts its key, and fails exactly if the key is
new and the map has as many keys as the table has slots (`Represents.store`).
-/

namespace SlotTable

variable {σ β : Type*} (key : σ → ℕ)

/-- The first slot with the key `k`. -/
def find (k : ℕ) (t : List σ) : Option ℕ :=
  t.findIdx? fun w => key w = k

/-- The table with the slot of the key `k` cleared, if there is one. -/
def release (clear : σ → σ) (k : ℕ) (t : List σ) : List σ :=
  match find key k t with
  | some i => t.modify i clear
  | none => t

/-- The table with `w` in its first free slot. -/
def reserve (w : σ) (t : List σ) : Option (List σ) :=
  (find key 0 t).map fun i => t.set i w

/-- The keys in use. -/
def used (t : List σ) : List ℕ :=
  (t.map key).filter (· ≠ 0)

/-- The finite map with a value under `k`, if `k` has one already or there are fewer than
`limit` keys. -/
def put (limit k : ℕ) (b : β) (m : Finmap fun _ : ℕ => β) : Option (Finmap fun _ : ℕ => β) :=
  if k ∈ m ∨ m.keys.card < limit then some (m.insert k b) else none

theorem insert_erase (m : Finmap fun _ : ℕ => β) (k : ℕ) (b : β) :
    (m.erase k).insert k b = m.insert k b := by
  refine Finmap.ext_lookup fun k' => ?_
  by_cases h : k' = k
  · rw [h, Finmap.lookup_insert, Finmap.lookup_insert]
  · rw [Finmap.lookup_insert_of_ne _ h, Finmap.lookup_insert_of_ne _ h, Finmap.lookup_erase_ne h]

theorem keys_insert (m : Finmap fun _ : ℕ => β) (k : ℕ) (b : β) :
    (m.insert k b).keys = insert k m.keys := by
  ext k'
  rw [Finmap.mem_keys, Finmap.mem_insert, Finset.mem_insert, Finmap.mem_keys]

/-- A key is refused if there would be too many. -/
theorem put_eq_none {limit k : ℕ} {b : β} {m : Finmap fun _ : ℕ => β}
    (hle : m.keys.card ≤ limit) : put limit k b m = none ↔ limit < (insert k m.keys).card := by
  rw [put]
  by_cases hk : k ∈ m.keys
  · simpa [Finmap.mem_keys.1 hk, Finset.insert_eq_of_mem hk] using hle
  · rw [Finset.card_insert_of_notMem hk, Nat.lt_succ_iff]
    simp [mt Finmap.mem_keys.2 hk]

variable {key}

/-! ## Searching -/

theorem find_eq_none {k : ℕ} {t : List σ} : find key k t = none ↔ ∀ w ∈ t, key w ≠ k := by
  simp [find, List.findIdx?_eq_none_iff]

/-- The slot found is a place in the table. -/
theorem find_eq_some {k i : ℕ} {t : List σ} (h : find key k t = some i) :
    ∃ pre w post, t = pre ++ w :: post ∧ pre.length = i ∧ key w = k := by
  obtain ⟨hi, hk, -⟩ := List.findIdx?_eq_some_iff_getElem.1 h
  refine ⟨t.take i, t[i], t.drop (i + 1), ?_, ?_, by simpa using hk⟩
  · rw [List.getElem_cons_drop, List.take_append_drop]
  · rw [List.length_take, Nat.min_eq_left hi.le]

/-- Releasing changes nothing if the key is not there, and clears a slot with it otherwise. -/
theorem release_cases (key : σ → ℕ) (clear : σ → σ) (k : ℕ) (t : List σ) :
    ((∀ w ∈ t, key w ≠ k) ∧ release key clear k t = t) ∨
      ∃ pre w post, t = pre ++ w :: post ∧ key w = k ∧
        release key clear k t = pre ++ clear w :: post := by
  unfold release
  cases h : find key k t with
  | none => exact Or.inl ⟨find_eq_none.1 h, rfl⟩
  | some i =>
    obtain ⟨pre, w, post, rfl, rfl, hk⟩ := find_eq_some h
    refine Or.inr ⟨pre, w, post, rfl, hk, ?_⟩
    simp [List.modify_eq_take_cons_drop]

theorem reserve_eq_none {w : σ} {t : List σ} :
    reserve key w t = none ↔ ∀ x ∈ t, key x ≠ 0 := by
  rw [reserve, Option.map_eq_none_iff, find_eq_none]

/-- Reserving puts the value in the place of a free slot. -/
theorem reserve_eq_some {w : σ} {t t' : List σ} (h : reserve key w t = some t') :
    ∃ pre x post, t = pre ++ x :: post ∧ key x = 0 ∧ t' = pre ++ w :: post := by
  obtain ⟨i, hi, rfl⟩ := Option.map_eq_some_iff.1 h
  obtain ⟨pre, x, post, rfl, rfl, hk⟩ := find_eq_some hi
  exact ⟨pre, x, post, rfl, hk, by simp⟩

@[simp] theorem length_release (clear : σ → σ) (k : ℕ) (t : List σ) :
    (release key clear k t).length = t.length := by
  rcases release_cases key clear k t with ⟨-, h⟩ | ⟨pre, w, post, rfl, -, h⟩
  · rw [h]
  · simp [h]

theorem length_reserve {w : σ} {t t' : List σ} (h : reserve key w t = some t') :
    t'.length = t.length := by
  obtain ⟨pre, x, post, rfl, -, rfl⟩ := reserve_eq_some h
  simp

/-! ## Keys in use -/

theorem used_append (t t' : List σ) : used key (t ++ t') = used key t ++ used key t' := by
  simp [used]

theorem used_cons_of_ne {w : σ} (h : key w ≠ 0) (t : List σ) :
    used key (w :: t) = key w :: used key t := by
  simp [used, h]

theorem used_cons_of_eq {w : σ} (h : key w = 0) (t : List σ) : used key (w :: t) = used key t := by
  simp [used, h]

theorem mem_used {k : ℕ} {t : List σ} : k ∈ used key t ↔ k ≠ 0 ∧ ∃ w ∈ t, key w = k := by
  simp only [used, List.mem_filter, List.mem_map, decide_eq_true_eq, and_comm]

/-- All slots are in use exactly if there are as many keys as slots. -/
theorem length_used_eq {t : List σ} : (used key t).length = t.length ↔ ∀ w ∈ t, key w ≠ 0 := by
  have h : (used key t).length = (t.map key).length ↔ ∀ k ∈ t.map key, k ≠ 0 := by
    rw [used, List.length_filter_eq_length_iff]
    simp
  simpa using h

theorem length_used_le (t : List σ) : (used key t).length ≤ t.length := by
  simpa [used] using List.length_filter_le (· ≠ 0) (t.map key)

/-! ## The finite map -/

/-- The table holds the finite map `m` : each slot in use has a key of its own, with the value
the map has there, as `busy` says, and the other slots are `idle`. -/
structure Represents (key : σ → ℕ) (busy : σ → β → Prop) (idle : σ → Prop) (t : List σ)
    (m : Finmap fun _ : ℕ => β) : Prop where
  nodup : (used key t).Nodup
  value : ∀ w ∈ t, key w ≠ 0 → ∃ b, m.lookup (key w) = some b ∧ busy w b
  free : ∀ w ∈ t, key w = 0 → idle w
  mem : ∀ k ∈ m, k ∈ used key t

namespace Represents

variable {busy : σ → β → Prop} {idle : σ → Prop} {t : List σ} {m : Finmap fun _ : ℕ => β}

theorem mem_iff (h : Represents key busy idle t m) {k : ℕ} : k ∈ m ↔ k ∈ used key t := by
  refine ⟨h.mem k, fun hk => ?_⟩
  obtain ⟨hne, w, hw, rfl⟩ := mem_used.1 hk
  obtain ⟨b, hb, -⟩ := h.value w hw hne
  exact Finmap.mem_of_lookup_eq_some hb

/-- There are as many keys in the map as in the table. -/
theorem card_keys (h : Represents key busy idle t m) : m.keys.card = (used key t).length := by
  have hkeys : m.keys = (used key t).toFinset := by
    ext k
    rw [Finmap.mem_keys, h.mem_iff, List.mem_toFinset]
  rw [hkeys, List.toFinset_card_of_nodup h.nodup]

/-- A table of free slots holds the empty map. -/
theorem empty (hfree : ∀ w ∈ t, key w = 0 ∧ idle w) :
    Represents key busy idle t (∅ : Finmap fun _ : ℕ => β) where
  nodup := by
    have hnil : used key t = [] := by
      refine List.eq_nil_iff_forall_not_mem.2 fun k hk => ?_
      obtain ⟨hne, w, hw, rfl⟩ := mem_used.1 hk
      exact hne (hfree w hw).1
    rw [hnil]
    exact List.nodup_nil
  value w hw hne := (hne (hfree w hw).1).elim
  free w hw _ := (hfree w hw).2
  mem k hk := (Finmap.notMem_empty hk).elim

/-- Releasing a slot erases its key. -/
theorem release (h : Represents key busy idle t m) {clear : σ → σ}
    (hclear : ∀ w, key (clear w) = 0 ∧ idle (clear w)) {k : ℕ} (hk : k ≠ 0) :
    Represents key busy idle (release key clear k t) (m.erase k) := by
  rcases release_cases key clear k t with ⟨hnot, hr⟩ | ⟨pre, w, post, rfl, rfl, hr⟩
  · rw [hr]
    refine ⟨h.nodup, fun w hw hne => ?_, h.free, fun k' hk' => h.mem k' (Finmap.mem_erase.1 hk').2⟩
    obtain ⟨b, hb, hbusy⟩ := h.value w hw hne
    exact ⟨b, by rw [Finmap.lookup_erase_ne (hnot w hw), hb], hbusy⟩
  · have hused := h.nodup
    rw [used_append, used_cons_of_ne hk, List.nodup_middle, List.nodup_cons, ← used_append] at hused
    have hother : ∀ x ∈ pre ++ post, key x ≠ 0 → key x ≠ key w := fun x hx hne heq =>
      hused.1 (mem_used.2 ⟨hk, x, hx, heq⟩)
    have hin : ∀ x ∈ pre ++ post, x ∈ pre ++ w :: post := fun x hx => by
      simp only [List.mem_append, List.mem_cons] at hx ⊢
      tauto
    have hcases : ∀ x ∈ pre ++ clear w :: post, x = clear w ∨ x ∈ pre ++ post := fun x hx => by
      simp only [List.mem_append, List.mem_cons] at hx ⊢
      tauto
    have hkeys : used key (pre ++ clear w :: post) = used key (pre ++ post) := by
      rw [used_append, used_cons_of_eq (hclear w).1, ← used_append]
    rw [hr]
    refine ⟨by rw [hkeys]; exact hused.2, fun x hx hne => ?_, fun x hx hz => ?_, fun k hk' => ?_⟩
    · rcases hcases x hx with rfl | hx
      · exact (hne (hclear w).1).elim
      · obtain ⟨b, hb, hbusy⟩ := h.value x (hin x hx) hne
        exact ⟨b, by rw [Finmap.lookup_erase_ne (hother x hx hne), hb], hbusy⟩
    · rcases hcases x hx with rfl | hx
      · exact (hclear w).2
      · exact h.free x (hin x hx) hz
    · obtain ⟨hne, hmem⟩ := Finmap.mem_erase.1 hk'
      have hold := h.mem k hmem
      rw [used_append, used_cons_of_ne hk] at hold
      rw [hkeys, used_append]
      simp only [List.mem_append, List.mem_cons] at hold ⊢
      tauto

/-- Reserving a slot inserts its key. -/
theorem reserve (h : Represents key busy idle t m) {w : σ} {b : β} (hk : key w ≠ 0)
    (hnew : key w ∉ m) (hbusy : busy w b) {t' : List σ} (hr : reserve key w t = some t') :
    Represents key busy idle t' (m.insert (key w) b) := by
  obtain ⟨pre, x, post, rfl, hx, rfl⟩ := reserve_eq_some hr
  have hold : used key (pre ++ x :: post) = used key (pre ++ post) := by
    rw [used_append, used_cons_of_eq hx, ← used_append]
  have hkeys : (used key (pre ++ w :: post)).Perm (key w :: used key (pre ++ post)) := by
    rw [used_append, used_cons_of_ne hk, used_append]
    exact List.perm_middle
  have hfresh : key w ∉ used key (pre ++ post) := by
    rwa [← hold, ← h.mem_iff]
  have hcases : ∀ y ∈ pre ++ w :: post, y = w ∨ y ∈ pre ++ post := fun y hy => by
    simp only [List.mem_append, List.mem_cons] at hy ⊢
    tauto
  have hin : ∀ y ∈ pre ++ post, y ∈ pre ++ x :: post := fun y hy => by
    simp only [List.mem_append, List.mem_cons] at hy ⊢
    tauto
  refine ⟨?_, fun y hy hne => ?_, fun y hy hz => ?_, fun k hk' => ?_⟩
  · rw [hkeys.nodup_iff, List.nodup_cons, ← hold]
    exact ⟨hold ▸ hfresh, h.nodup⟩
  · rcases hcases y hy with rfl | hy
    · exact ⟨b, Finmap.lookup_insert m, hbusy⟩
    · obtain ⟨b', hb', hbusy'⟩ := h.value y (hin y hy) hne
      have hneq : key y ≠ key w := fun heq => hfresh (heq ▸ mem_used.2 ⟨hne, y, hy, rfl⟩)
      exact ⟨b', by rw [Finmap.lookup_insert_of_ne m hneq, hb'], hbusy'⟩
  · rcases hcases y hy with rfl | hy
    · exact (hk hz).elim
    · exact h.free y (hin y hy) hz
  · rw [hkeys.mem_iff, List.mem_cons, ← hold]
    rcases Finmap.mem_insert.1 hk' with rfl | hmem
    · exact Or.inl rfl
    · exact Or.inr (h.mem k hmem)

theorem reserve_eq_none_iff (h : Represents key busy idle t m) {w : σ} :
    SlotTable.reserve key w t = none ↔ m.keys.card = t.length := by
  rw [reserve_eq_none, h.card_keys, length_used_eq]

theorem card_le (h : Represents key busy idle t m) : m.keys.card ≤ t.length :=
  h.card_keys.trans_le (length_used_le t)

/-- Storing a value is `put` on the map. If it fails the table has not changed. -/
theorem store (h : Represents key busy idle t m) {clear : σ → σ}
    (hclear : ∀ w, key (clear w) = 0 ∧ idle (clear w)) {w : σ} {k : ℕ} {b : β} (hw : key w = k)
    (hk : k ≠ 0) (hbusy : busy w b) :
    (SlotTable.reserve key w (SlotTable.release key clear k t) = none ∧
        put t.length k b m = none ∧ SlotTable.release key clear k t = t) ∨
      ∃ t', SlotTable.reserve key w (SlotTable.release key clear k t) = some t' ∧
        put t.length k b m = some (m.insert k b) ∧ t'.length = t.length ∧
        Represents key busy idle t' (m.insert k b) := by
  subst hw
  have hrel := h.release hclear hk
  have hmem : key w ∈ m.keys ↔ key w ∈ m := Finmap.mem_keys
  have hcard := h.card_le
  have hfull := hrel.reserve_eq_none_iff (w := w)
  rw [length_release, Finmap.keys_erase] at hfull
  cases hr : SlotTable.reserve key w (SlotTable.release key clear (key w) t) with
  | none =>
    have hcount := hfull.1 hr
    have hnot : key w ∉ m := by
      intro hin
      have := Finset.card_erase_lt_of_mem (hmem.2 hin)
      omega
    rw [Finset.erase_eq_of_notMem (mt hmem.1 hnot)] at hcount
    refine Or.inl ⟨rfl, if_neg (by simp [hnot, hcount]), ?_⟩
    rcases release_cases key clear (key w) t with ⟨-, h'⟩ | ⟨pre, x, post, ht, hx, -⟩
    · exact h'
    · exact (hnot (h.mem_iff.2 (mem_used.2 ⟨hk, x, by rw [ht]; simp, hx⟩))).elim
  | some t' =>
    have hput : key w ∈ m ∨ m.keys.card < t.length := by
      by_contra hnot
      rw [not_or] at hnot
      rw [Finset.erase_eq_of_notMem (mt hmem.1 hnot.1), hr] at hfull
      have hcount := hfull.2 (by omega)
      cases hcount
    have hins := hrel.reserve hk Finmap.notMem_erase_self hbusy hr
    rw [insert_erase] at hins
    exact Or.inr ⟨t', rfl, if_pos hput, (length_reserve hr).trans (length_release _ _ _), hins⟩

end Represents

end SlotTable
