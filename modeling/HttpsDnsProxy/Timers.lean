import HttpsDnsProxy.Runs
import Mathlib.Algebra.Order.Monoid.Unbundled.Basic

/-!
# Timers of an event loop

An event loop has timers beside its events. A timer is set to expire after some time, set again
or stopped, and its expiry is an event of its own. `Machine` is a machine without a clock that
says which timers are active and which ones an event sets. `tick` runs it at the times of a
clock, with the time each active timer is due. `HappensAt` says at which times a run does something,
and `SetAt` when it sets a timer.

What the loop promises of one event is `Timely` : the clock does not go back, a timer expires only
when it is due, and an event that the loop has polled for is handled behind the timers that were
due before it. Events that are not polled for, such as what the expiry of another timer leads to,
may come while a timer is overdue.

In a timely run a timer is due at the time that it has been set for last (`due_run`), so

* a polled event finds an active timer set no longer ago than it was set for (`setAt_of_polled`);
* a timer that expires was set at least that long ago, each time (`le_of_expires`).
-/

namespace Timers

variable {σ ε κ τ : Type*}

/-- A machine with timers. -/
structure Machine (σ ε κ τ : Type*) where
  step : σ → ε → σ
  active : σ → κ → Bool
  /-- The time that a timer is set for, if the event sets it. -/
  sets : σ → ε → κ → Option τ
  /-- The timer whose expiry the event is. -/
  expires : ε → Option κ
  polled : ε → Bool

/-- A state with the time, and the times at which the active timers are due. -/
structure Clocked (σ κ τ : Type*) where
  state : σ
  now : τ
  due : κ → Option τ

namespace Machine

section Clock

variable [Add τ] (m : Machine σ ε κ τ)

/-- An event at its time. -/
def tick (s : Clocked σ κ τ) (e : τ × ε) : Clocked σ κ τ where
  state := m.step s.state e.2
  now := e.1
  due k :=
    if m.active (m.step s.state e.2) k then ((m.sets s.state e.2 k).map (e.1 + ·)).or (s.due k)
    else none

/-- The events at their times. -/
def run (s : Clocked σ κ τ) (es : List (τ × ε)) : Clocked σ κ τ :=
  Runs.run m.tick s es

/-- An event of the run from `s` at the time `t` meets `p`, on the state before it. -/
def HappensAt (p : σ → ε → Prop) (s : Clocked σ κ τ) (es : List (τ × ε)) (t : τ) : Prop :=
  ∃ before e after, es = before ++ (t, e) :: after ∧ p (m.run s before).state e

/-- The run from `s` sets the timer `k` for the time `r` at the time `t`. -/
def SetAt (s : Clocked σ κ τ) (es : List (τ × ε)) (k : κ) (t r : τ) : Prop :=
  m.HappensAt (fun s e => m.sets s e k = some r) s es t

variable {m} {p : σ → ε → Prop} {s : Clocked σ κ τ} {es : List (τ × ε)} {e : τ × ε} {k : κ}
  {d t r : τ}

theorem run_concat (es : List (τ × ε)) (e : τ × ε) :
    m.run s (es ++ [e]) = m.tick (m.run s es) e :=
  Runs.run_concat m.tick s es e

/-- The clock changes nothing about the states. -/
theorem state_run (s : Clocked σ κ τ) (es : List (τ × ε)) :
    (m.run s es).state = Runs.run m.step s.state (es.map Prod.snd) := by
  induction es generalizing s with
  | nil => rfl
  | cons e es ih => exact ih (m.tick s e)

theorem due_tick : (m.tick s e).due k = some d ↔ m.active (m.step s.state e.2) k = true ∧
    ((∃ r, m.sets s.state e.2 k = some r ∧ d = e.1 + r) ∨
      (m.sets s.state e.2 k = none ∧ s.due k = some d)) := by
  unfold tick
  by_cases ha : m.active (m.step s.state e.2) k = true
  · cases hs : m.sets s.state e.2 k with
    | none => simp [ha, hs]
    | some r => simp [ha, hs, eq_comm]
  · simp [ha]

theorem not_happensAt_nil : ¬m.HappensAt p s [] t := by
  rintro ⟨before, e, after, hes, -⟩
  simp at hes

theorem happensAt_concat : m.HappensAt p s (es ++ [e]) t ↔
    m.HappensAt p s es t ∨ (e.1 = t ∧ p (m.run s es).state e.2) := by
  constructor
  · rintro ⟨before, e', after, hes, hp⟩
    rcases List.eq_nil_or_concat after with rfl | ⟨after, last, rfl⟩
    · obtain ⟨rfl, hlast⟩ := List.append_inj' hes rfl
      obtain rfl := (List.cons.inj hlast).1
      exact Or.inr ⟨rfl, hp⟩
    · rw [List.concat_eq_append, ← List.cons_append, ← List.append_assoc] at hes
      exact Or.inl ⟨before, e', after, (List.append_inj' hes rfl).1, hp⟩
  · rintro (⟨before, e', after, rfl, hp⟩ | ⟨rfl, hp⟩)
    · exact ⟨before, e', after ++ [e], by simp, hp⟩
    · exact ⟨es, e.2, [], rfl, hp⟩

/-- If every event that makes a timer active sets it, an active timer is due at some time. -/
theorem isSome_due (hactive : ∀ es e, m.active (m.run s (es ++ [e])).state k = true →
      m.active (m.run s es).state k = true ∨ (m.sets (m.run s es).state e.2 k).isSome)
    (hstart : m.active s.state k = true → (s.due k).isSome) (es : List (τ × ε))
    (h : m.active (m.run s es).state k = true) : ((m.run s es).due k).isSome := by
  induction es using List.reverseRecOn with
  | nil => exact hstart h
  | append_singleton es e ih =>
    have hcases := hactive es e h
    rw [run_concat] at h ⊢
    have hact : m.active (m.step (m.run s es).state e.2) k = true := h
    rcases hset : m.sets (m.run s es).state e.2 k with _ | r
    · rcases hcases with hold | hnew
      · simpa [tick, hact, hset] using ih hold
      · rw [hset] at hnew
        cases hnew
    · simp [tick, hact, hset]

end Clock

/-! ## Timely runs -/

section Timely

variable [Add τ] [Preorder τ] (m : Machine σ ε κ τ)

/-- What the loop promises of an event. -/
structure Timely (s : Clocked σ κ τ) (e : τ × ε) : Prop where
  now_le : s.now ≤ e.1
  expired : ∀ k, m.expires e.2 = some k → ∃ d, s.due k = some d ∧ d ≤ e.1
  behind : m.polled e.2 = true → ∀ k d, s.due k = some d → e.1 ≤ d

/-- Every event of the run is timely. -/
def TimelyRun (s : Clocked σ κ τ) (es : List (τ × ε)) : Prop :=
  Runs.Meets m.tick m.Timely s es

variable {m} {s : Clocked σ κ τ} {es : List (τ × ε)} {e : τ × ε} {k : κ} {d t r : τ}

theorem timelyRun_concat :
    m.TimelyRun s (es ++ [e]) ↔ m.TimelyRun s es ∧ m.Timely (m.run s es) e := by
  unfold TimelyRun
  rw [Runs.meets_append]
  simp [Runs.Meets, run]

/-- Timers are not set in the future. -/
theorem le_now_of_setAt (hes : m.TimelyRun s es) (h : m.SetAt s es k t r) :
    t ≤ (m.run s es).now := by
  induction es using List.reverseRecOn with
  | nil => exact (not_happensAt_nil h).elim
  | append_singleton es e ih =>
    rw [timelyRun_concat] at hes
    rw [run_concat]
    rcases happensAt_concat.1 h with h | ⟨rfl, -⟩
    · exact (ih hes.1 h).trans hes.2.now_le
    · exact le_rfl

/-- A timer is due at the time it was due at the start, or at the one it has been set for
last. -/
theorem due_run (hes : m.TimelyRun s es) (h : (m.run s es).due k = some d) :
    s.due k = some d ∨
      ∃ t r, m.SetAt s es k t r ∧ d = t + r ∧ ∀ t' r', m.SetAt s es k t' r' → t' ≤ t := by
  induction es using List.reverseRecOn with
  | nil => exact Or.inl h
  | append_singleton es e ih =>
    rw [timelyRun_concat] at hes
    rw [run_concat, due_tick] at h
    obtain ⟨-, ⟨r, hset, rfl⟩ | ⟨hset, hdue⟩⟩ := h
    · refine Or.inr ⟨e.1, r, happensAt_concat.2 (Or.inr ⟨rfl, hset⟩), rfl, fun t' r' h' => ?_⟩
      rcases happensAt_concat.1 h' with h' | ⟨rfl, -⟩
      · exact (le_now_of_setAt hes.1 h').trans hes.2.now_le
      · exact le_rfl
    · -- the event leaves the timer alone, so what was set last is so still
      rcases ih hes.1 hdue with hstart | ⟨t, r, hat, hd, hlast⟩
      · exact Or.inl hstart
      · refine Or.inr ⟨t, r, happensAt_concat.2 (Or.inl hat), hd, fun t' r' h' => ?_⟩
        rcases happensAt_concat.1 h' with h' | ⟨-, h'⟩
        · exact hlast t' r' h'
        · rw [hset] at h'
          cases h'

/-- When a polled event is handled, an active timer was set no longer ago than it was set for,
if no timer was active at the start. -/
theorem setAt_of_polled (hactive : ∀ es e, m.active (m.run s (es ++ [e])).state k = true →
      m.active (m.run s es).state k = true ∨ (m.sets (m.run s es).state e.2 k).isSome)
    (hstart : m.active s.state k = false) (hnone : s.due k = none)
    (hes : m.TimelyRun s (es ++ [e])) (hpolled : m.polled e.2 = true)
    (h : m.active (m.run s es).state k = true) :
    ∃ t r, m.SetAt s es k t r ∧ e.1 ≤ t + r := by
  obtain ⟨hrun, he⟩ := timelyRun_concat.1 hes
  have hsome := isSome_due hactive (fun hk => by simp [hstart] at hk) es h
  obtain ⟨d, hd⟩ := Option.isSome_iff_exists.1 hsome
  have hle : e.1 ≤ d := he.behind hpolled k d hd
  rcases due_run hrun hd with hdue | ⟨t, r, hat, rfl, -⟩
  · rw [hnone] at hdue
    cases hdue
  · exact ⟨t, r, hat, hle⟩

/-- A timer that is always set for the time `r` expires that long after each time it was set. -/
theorem le_of_expires [AddRightMono τ] (hnone : s.due k = none)
    (hes : m.TimelyRun s (es ++ [e])) (hexpires : m.expires e.2 = some k)
    (hfixed : ∀ t r', m.SetAt s es k t r' → r' = r) (h : m.SetAt s es k t r) :
    t + r ≤ e.1 := by
  obtain ⟨hrun, he⟩ := timelyRun_concat.1 hes
  obtain ⟨d, hd, hle⟩ := he.expired k hexpires
  rcases due_run hrun hd with hdue | ⟨t₀, r₀, hat, rfl, hlast⟩
  · rw [hnone] at hdue
    cases hdue
  · obtain rfl := hfixed t₀ r₀ hat
    exact (add_le_add_left (hlast t _ h) _).trans hle

end Timely

end Machine

end Timers
