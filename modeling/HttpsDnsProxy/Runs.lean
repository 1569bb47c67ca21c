import Mathlib.Data.List.Basic
import Mathlib.Data.List.Induction
import Mathlib.Data.List.Nodup
import Mathlib.Data.List.Perm.Subperm
import Mathlib.Tactic.Common

/-!
# Runs of an event loop

An event loop is a state and a step for each event. `run` handles a list of events in
order. An invariant of the step is one of every run (`invariant`), also if only the events
of the run keep it (`invariant_of_mem`) or only the steps that meet a condition on the state
before them (`Meets`, `invariant_of_meets`). A run that does not meet a condition has a first
step that breaks it (`exists_of_not_meets`). `collect` is the list of what the steps of a
run give out.

A trace is a list of observations, oldest first. `Always` says that each observation has a
property relative to the trace before it, `Matched` that each observation of one kind has a
partner of another before it.
-/

namespace Runs

variable {σ ε : Type*} (step : σ → ε → σ)

/-- The state after the events `es`. -/
def run (s : σ) (es : List ε) : σ :=
  es.foldl step s

/-- Every step of the run meets `ok`, on the state before it and its event. -/
def Meets (ok : σ → ε → Prop) : σ → List ε → Prop
  | _, [] => True
  | s, e :: es => ok s e ∧ Meets ok (step s e) es

@[simp] theorem run_nil (s : σ) : run step s [] = s := rfl

@[simp] theorem run_cons (s : σ) (e : ε) (es : List ε) :
    run step s (e :: es) = run step (step s e) es := rfl

theorem run_append (s : σ) (es fs : List ε) :
    run step s (es ++ fs) = run step (run step s es) fs :=
  List.foldl_append

theorem run_concat (s : σ) (es : List ε) (e : ε) :
    run step s (es ++ [e]) = step (run step s es) e := by
  rw [run_append, run_cons, run_nil]

variable {step}

/-- What holds at the start and is kept by every step holds after every run. -/
theorem invariant {P : σ → Prop} (hstep : ∀ s e, P s → P (step s e)) :
    ∀ {s : σ} (es : List ε), P s → P (run step s es)
  | _, [], h => h
  | _, e :: es, h => invariant hstep es (hstep _ e h)

/-- What the events of a run keep, the run keeps. -/
theorem invariant_of_mem {P : σ → Prop} {s : σ} {es : List ε}
    (hstep : ∀ t, ∀ e ∈ es, P t → P (step t e)) (h : P s) : P (run step s es) := by
  induction es generalizing s with
  | nil => exact h
  | cons e es ih =>
    exact ih (fun t e' he' => hstep t e' (List.mem_cons_of_mem e he'))
      (hstep s e (List.mem_cons_self ..) h)

/-- An invariant of the steps that meet a condition holds after every run of them. -/
theorem invariant_of_meets {ok : σ → ε → Prop} {P : σ → Prop}
    (hstep : ∀ s e, ok s e → P s → P (step s e)) {s : σ} {es : List ε}
    (hes : Meets step ok s es) (h : P s) : P (run step s es) := by
  induction es generalizing s with
  | nil => exact h
  | cons e es ih => exact ih hes.2 (hstep s e hes.1 h)

theorem meets_append {ok : σ → ε → Prop} :
    ∀ {s : σ} {es fs : List ε},
      Meets step ok s (es ++ fs) ↔ Meets step ok s es ∧ Meets step ok (run step s es) fs
  | _, [], _ => ⟨fun h => ⟨trivial, h⟩, fun h => h.2⟩
  | s, e :: es, _ => by
    rw [List.cons_append, Meets, meets_append, Meets, run_cons, and_assoc]

theorem Meets.of_append {ok : σ → ε → Prop} {s : σ} {es fs : List ε}
    (h : Meets step ok s (es ++ fs)) : Meets step ok s es :=
  (meets_append.1 h).1

/-- A run that does not meet a condition has a first step that breaks it. -/
theorem exists_of_not_meets {ok : σ → ε → Prop} :
    ∀ {s : σ} {es : List ε}, ¬Meets step ok s es →
      ∃ pre e post, es = pre ++ e :: post ∧ Meets step ok s pre ∧ ¬ok (run step s pre) e
  | _, [], h => (h trivial).elim
  | s, e :: es, h => by
    by_cases he : ok s e
    · obtain ⟨pre, e', post, rfl, hpre, hnot⟩ := exists_of_not_meets fun hes => h ⟨he, hes⟩
      exact ⟨e :: pre, e', post, rfl, ⟨he, hpre⟩, hnot⟩
    · exact ⟨[], e, es, rfl, trivial, he⟩

/-! ## What a run collects -/

section Collect

variable (step) {α : Type*} (out : σ → ε → List α)

/-- What the steps of a run give out, each from the state before it and its event. -/
def collect : σ → List ε → List α
  | _, [] => []
  | s, e :: es => out s e ++ collect (step s e) es

@[simp] theorem collect_nil (s : σ) : collect step out s [] = [] := rfl

theorem collect_append (s : σ) (es fs : List ε) :
    collect step out s (es ++ fs) =
      collect step out s es ++ collect step out (run step s es) fs := by
  induction es generalizing s with
  | nil => rfl
  | cons e es ih => rw [List.cons_append, collect, collect, ih, List.append_assoc, run_cons]

theorem collect_concat (s : σ) (es : List ε) (e : ε) :
    collect step out s (es ++ [e]) = collect step out s es ++ out (run step s es) e := by
  rw [collect_append, collect, collect_nil, List.append_nil]

end Collect

/-! ## Traces -/

section Traces

variable {α : Type*} {J : List α → α → Prop}

/-- Every observation of the trace `t` meets `J`, relative to the trace before it. -/
def Always (J : List α → α → Prop) (t : List α) : Prop :=
  ∀ before o after, t = before ++ o :: after → J before o

theorem always_nil : Always J [] := fun before o after h => by simp at h

theorem always_concat {t : List α} {o : α} : Always J (t ++ [o]) ↔ Always J t ∧ J t o := by
  refine ⟨fun h => ⟨fun before o' after ht => ?_, h t o [] rfl⟩, fun h before o' after ht => ?_⟩
  · exact h before o' (after ++ [o]) (by rw [ht, List.append_assoc, List.cons_append])
  · rcases List.eq_nil_or_concat after with rfl | ⟨after, last, rfl⟩
    · obtain ⟨rfl, hlast⟩ := List.append_inj' ht rfl
      rw [← (List.cons.inj hlast).1]
      exact h.2
    · rw [List.concat_eq_append, ← List.cons_append, ← List.append_assoc] at ht
      exact h.1 before o' after (List.append_inj' ht rfl).1

/-- What each of some observations keeps when it is added, all of them keep. -/
theorem keep_append {P : List α → Prop} {plain : α → Prop}
    (hP : ∀ t o, plain o → P t → P (t ++ [o])) :
    ∀ (os t : List α), (∀ o ∈ os, plain o) → P t → P (t ++ os)
  | [], t, _, h => by simpa using h
  | o :: os, t, hos, h => by
    have hrest := keep_append hP os (t ++ [o]) (fun o' ho' => hos o' (List.mem_cons_of_mem _ ho'))
      (hP t o (hos o (List.mem_cons_self ..)) h)
    rwa [List.append_assoc] at hrest

/-- Each observation of the trace `t` with `q` has a partner with `p` before it, and no two of
them have the same. -/
def Matched (p q : α → Bool) (t : List α) : Prop :=
  ∃ partner : ℕ → ℕ,
    (∀ j y, t[j]? = some y → q y = true →
      partner j < j ∧ ∃ x, t[partner j]? = some x ∧ p x = true) ∧
    ∀ i j x y, t[i]? = some x → q x = true → t[j]? = some y → q y = true →
      partner i = partner j → i = j

theorem mem_findIdxs {p : α → Bool} {t : List α} {i : ℕ} :
    i ∈ t.findIdxs p ↔ ∃ x, t[i]? = some x ∧ p x = true := by
  rw [List.mem_findIdxs_iff_exists_getElem_pos]
  constructor
  · rintro ⟨hi, hp⟩
    exact ⟨t[i], List.getElem?_eq_getElem hi, hp⟩
  · rintro ⟨x, hx, hp⟩
    obtain ⟨hi, rfl⟩ := List.getElem?_eq_some_iff.1 hx
    exact ⟨hi, hp⟩

/-- There are no more observations with `q` than partners for them. -/
theorem Matched.countP_le {p q : α → Bool} {t : List α} (h : Matched p q t) :
    t.countP q ≤ t.countP p := by
  obtain ⟨partner, hpartner, hinj⟩ := h
  have hnodup : ((t.findIdxs q).map partner).Nodup := by
    refine List.Nodup.map_on (fun i hi j hj heq => ?_) List.nodup_findIdxs
    obtain ⟨x, hx, hqx⟩ := mem_findIdxs.1 hi
    obtain ⟨y, hy, hqy⟩ := mem_findIdxs.1 hj
    exact hinj i j x y hx hqx hy hqy heq
  have hsub : (t.findIdxs q).map partner ⊆ t.findIdxs p := by
    intro i hi
    obtain ⟨j, hj, rfl⟩ := List.mem_map.1 hi
    obtain ⟨y, hy, hqy⟩ := mem_findIdxs.1 hj
    exact mem_findIdxs.2 (hpartner j y hy hqy).2
  simpa using (List.Nodup.subperm hnodup hsub).length_le

end Traces

end Runs
