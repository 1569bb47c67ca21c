import Mathlib.Data.List.Basic
import Mathlib.Data.List.Nodup
import Mathlib.Tactic.Common

/-!
# Unlinking from a singly linked list

A linked list is the list of its nodes in link order, each with its address. A node is
unlinked in one of two ways : by walking from the head to the node before it (`unlink`),
or through a predecessor the search for it has kept (`findPrev`, `unlinkPrev`). Both
remove exactly that node and keep the order of the others (`unlink_eq_eraseP`,
`unlinkPrev_append`).
-/

namespace LinkedLists

variable {α : Type*} (addr : α → ℕ)

/-- Walk to the node whose successor is at `p` and link it past that successor. -/
def unlinkNext (p : ℕ) : List α → List α
  | cur :: next :: rest =>
    if addr next = p then cur :: rest else cur :: unlinkNext p (next :: rest)
  | nodes => nodes

/-- Unlink the node at `p` : move the head past it, or walk to it. -/
def unlink (p : ℕ) : List α → List α
  | [] => []
  | head :: rest => if addr head = p then rest else unlinkNext addr p (head :: rest)

/-- What the link of the node at `p` leads to. -/
def after (p : ℕ) (nodes : List α) : List α :=
  (nodes.dropWhile fun x => addr x ≠ p).tail

/-- The nodes from the head to the one at `p`. -/
def upTo (p : ℕ) (nodes : List α) : List α :=
  nodes.takeWhile (fun x => addr x ≠ p) ++ (nodes.find? fun x => addr x = p).toList

/-- Unlink the node at `p` given its predecessor : `prev->next`, or the head if there is
none, becomes what `p` leads to. -/
def unlinkPrev (prev : Option ℕ) (p : ℕ) (nodes : List α) : List α :=
  match prev with
  | none => after addr p nodes
  | some q => upTo addr q nodes ++ after addr p nodes

/-- Search from the head, keeping the address of the node before the current one. -/
def findPrev (found : α → Bool) : Option ℕ → List α → Option (Option ℕ × α)
  | _, [] => none
  | prev, cur :: rest =>
    if found cur then some (prev, cur) else findPrev found (some (addr cur)) rest

variable {addr}

theorem unlinkNext_cons (p : ℕ) (cur : α) (rest : List α) :
    unlinkNext addr p (cur :: rest) = cur :: rest.eraseP fun x => addr x = p := by
  induction rest generalizing cur with
  | nil => rfl
  | cons next rest ih =>
    by_cases h : addr next = p
    · simp [unlinkNext, h]
    · simp [unlinkNext, h, ih]

/-- Walking removes the first node at `p` and nothing else. -/
theorem unlink_eq_eraseP (p : ℕ) (nodes : List α) :
    unlink addr p nodes = nodes.eraseP fun x => addr x = p := by
  cases nodes with
  | nil => rfl
  | cons head rest =>
    by_cases h : addr head = p
    · simp [unlink, h]
    · simp [unlink, h, unlinkNext_cons]

theorem after_append {pre post : List α} {x : α} (h : ∀ y ∈ pre, addr y ≠ addr x) :
    after addr (addr x) (pre ++ x :: post) = post := by
  unfold after
  rw [List.dropWhile_append_of_pos (by simpa using h), List.dropWhile_cons_of_neg (by simp),
    List.tail_cons]

theorem upTo_append {pre post : List α} {x : α} (h : ∀ y ∈ pre, addr y ≠ addr x) :
    upTo addr (addr x) (pre ++ x :: post) = pre ++ [x] := by
  have hnone : pre.find? (fun y => addr y = addr x) = none := by simpa using h
  unfold upTo
  rw [List.takeWhile_append_of_pos (by simpa using h), List.find?_append, hnone]
  simp

/-- Through the predecessor of a node, exactly that node is removed. -/
theorem unlinkPrev_append {pre post : List α} {x : α} (h : ((pre ++ x :: post).map addr).Nodup) :
    unlinkPrev addr (pre.getLast?.map addr) (addr x) (pre ++ x :: post) = pre ++ post := by
  have hx : ∀ y ∈ pre, addr y ≠ addr x := by
    rw [List.map_append, List.nodup_append] at h
    exact fun y hy => h.2.2 _ (List.mem_map_of_mem hy) _ (by simp)
  rcases List.eq_nil_or_concat' pre with rfl | ⟨pre, q, rfl⟩
  · exact after_append hx
  · have hq : ∀ y ∈ pre, addr y ≠ addr q := by
      rw [List.append_assoc, List.map_append, List.nodup_append] at h
      exact fun y hy => h.2.2 _ (List.mem_map_of_mem hy) _ (by simp)
    simp only [List.getLast?_concat, Option.map_some, unlinkPrev, after_append hx]
    rw [List.append_assoc, List.singleton_append, upTo_append hq]

/-- What the search finds : the first node that matches, with its predecessor. -/
theorem findPrev_eq_some {found : α → Bool} {prev prev' : Option ℕ} {nodes : List α} {x : α}
    (h : findPrev addr found prev nodes = some (prev', x)) :
    ∃ pre post, nodes = pre ++ x :: post ∧ (∀ y ∈ pre, found y = false) ∧ found x = true ∧
      prev' = (pre.getLast?.map addr).or prev := by
  induction nodes generalizing prev with
  | nil => simp [findPrev] at h
  | cons cur rest ih =>
    by_cases hf : found cur = true
    · simp only [findPrev, hf, if_true, Option.some.injEq, Prod.mk.injEq] at h
      obtain ⟨rfl, rfl⟩ := h
      exact ⟨[], rest, rfl, by simp, hf, by simp⟩
    · simp only [findPrev, hf, if_false, Bool.false_eq_true] at h
      obtain ⟨pre, post, rfl, hpre, hx, hprev⟩ := ih h
      refine ⟨cur :: pre, post, rfl, ?_, hx, ?_⟩
      · simpa [hf] using hpre
      · rw [hprev]
        cases hl : pre.getLast? with
        | none => simp [List.getLast?_eq_none_iff.1 hl]
        | some q => simp [List.getLast?_cons, hl]

end LinkedLists
