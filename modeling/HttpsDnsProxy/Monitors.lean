import Mathlib.Data.List.Basic
import Mathlib.Tactic.Common

/-!
# Monitors

A monitor reads a trace, one observation at a time. It has a phase, and `next` gives the phase
behind an observation, or none if the observation is not allowed in that phase. `follow` is the
phase behind a whole trace, if all of it is allowed.

In a system of many parties each observation has a key, the party it belongs to. `Life` says
that the observations of one party, taken out of the trace, are allowed and lead to a phase.
Observations of other parties change nothing (`Life.others`), those of the party itself are
followed from the phase reached (`Life.own`). What the phases count of a trace is there as
often as they say (`Life.countP_eq`).
-/

namespace Monitors

variable {φ α κ : Type*} (next : φ → α → Option φ)

/-- The phase behind the observations, if all of them are allowed. -/
def follow : φ → List α → Option φ
  | p, [] => some p
  | p, o :: t => (next p o).bind fun q => follow q t

@[simp] theorem follow_nil (p : φ) : follow next p [] = some p := rfl

theorem follow_cons (p : φ) (o : α) (t : List α) :
    follow next p (o :: t) = (next p o).bind fun q => follow next q t := rfl

theorem follow_append (p : φ) (t u : List α) :
    follow next p (t ++ u) = (follow next p t).bind fun q => follow next q u := by
  induction t generalizing p with
  | nil => rfl
  | cons o t ih => simp only [List.cons_append, follow_cons, ih, Option.bind_assoc]

/-- What an allowed observation adds to a measure of the phase, the trace adds as often as it
has the observation. -/
theorem countP_of_follow {next : φ → α → Option φ} {μ : φ → ℕ} {c : α → Bool} :
    ∀ {p q : φ} {t : List α},
      (∀ o ∈ t, ∀ p q, next p o = some q → μ q = μ p + if c o then 1 else 0) →
      follow next p t = some q → μ q = μ p + t.countP c
  | p, q, [], _, hf => by
    obtain rfl : p = q := Option.some.inj hf
    rfl
  | p, q, o :: t, h, hf => by
    rw [follow_cons] at hf
    obtain ⟨r, hr, hrest⟩ := Option.bind_eq_some_iff.1 hf
    rw [countP_of_follow (fun o' ho' => h o' (List.mem_cons_of_mem o ho')) hrest,
      h o (List.mem_cons_self ..) p r hr, List.countP_cons]
    omega

/-! ## Many parties -/

section Parties

variable [DecidableEq κ] (key : α → Option κ) (start : φ)

/-- The observations of the party `k`. -/
def own (k : κ) (t : List α) : List α :=
  t.filter fun o => key o = some k

/-- The observations of the party `k` are allowed, and it is in the phase `p` behind them. -/
def Life (k : κ) (t : List α) (p : φ) : Prop :=
  follow next start (own key k t) = some p

variable {next key start} {k : κ} {t u : List α} {p q : φ}

theorem Life.nil : Life next key start k [] start := rfl

/-- Observations of the party itself are followed from where it is. -/
theorem Life.own (h : Life next key start k t p) (hu : ∀ o ∈ u, key o = some k)
    (hf : follow next p u = some q) : Life next key start k (t ++ u) q := by
  have hown : Monitors.own key k u = u := List.filter_eq_self.2 (by simpa using hu)
  unfold Life at h ⊢
  rw [Monitors.own, List.filter_append, ← Monitors.own, ← Monitors.own, hown, follow_append, h]
  exact hf

/-- Observations of others change nothing. -/
theorem Life.others (h : Life next key start k t p) (hu : ∀ o ∈ u, key o ≠ some k) :
    Life next key start k (t ++ u) p := by
  have hown : Monitors.own key k u = [] := List.filter_eq_nil_iff.2 (by simpa using hu)
  unfold Life at h ⊢
  rw [Monitors.own, List.filter_append, ← Monitors.own, ← Monitors.own, hown, List.append_nil]
  exact h

/-- A trace holds what the phases of a party count of it. -/
theorem Life.countP_eq {μ : φ → ℕ} {c : α → Bool}
    (hμ : ∀ o, key o = some k → ∀ p q, next p o = some q → μ q = μ p + if c o then 1 else 0)
    (hc : ∀ o, c o = true → key o = some k) (h : Life next key start k t p) :
    μ p = μ start + t.countP c := by
  have hcount : (Monitors.own key k t).countP c = t.countP c := by
    rw [Monitors.own, List.countP_filter]
    refine List.countP_congr fun o _ => ?_
    by_cases ho : c o = true
    · simp [ho, hc o ho]
    · simp [ho]
  rw [← hcount]
  refine countP_of_follow (fun o ho => hμ o ?_) h
  simpa using List.of_mem_filter ho

end Parties

end Monitors
