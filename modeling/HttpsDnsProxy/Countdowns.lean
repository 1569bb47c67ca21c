import HttpsDnsProxy.Runs
import Mathlib.Algebra.Order.Group.Unbundled.Basic
import Mathlib.Tactic.Abel

/-!
# Timers that go on where they were stopped

`Timer` is what an event loop offers for timers that do not repeat, with `ω` for the struct it
keeps of one. Nothing is said of how it does this. `Timer.Resumes` is what is assumed of it : a
timer that is stopped and started goes on where it was, so it keeps what is left of its time.

`Machine` is a machine without a clock that says when the timer is active, and `tick` runs it at
the times of a clock. Within an event the time of the loop stands still, and whatever starts and
stops the event makes, at one time they change nothing about what is left (`left_calls`). `ran` is
the time for which the timer has been active.

* `left_run` : what is left is what was left at the start, less the time it has been active;
* `left_le_ran` : the timer does not expire before it has been active for that time;
* `due_le_now` : once it has expired, an active timer is due already.
-/

namespace Countdowns

variable {σ ε ω τ : Type*}

/-- The timers of an event loop : setting one up for a time, starting and stopping it at a time of
the loop, whether it is active, and when an active one is due. -/
structure Timer (ω τ : Type*) where
  init : τ → ω
  start : ω → τ → ω
  stop : ω → τ → ω
  active : ω → Bool
  due : ω → τ

namespace Timer

/-- What is assumed of the timers. -/
structure Resumes [AddCommGroup τ] (T : Timer ω τ) : Prop where
  /-- A timer that is set up is not active. -/
  active_init : ∀ after, T.active (T.init after) = false
  /-- Started, it is due when the time it was set up for is over. -/
  due_init : ∀ after now, T.due (T.start (T.init after) now) = now + after
  active_start : ∀ w now, T.active (T.start w now) = true
  active_stop : ∀ w now, T.active (T.stop w now) = false
  /-- Starting an active timer does nothing. -/
  start_active : ∀ w now, T.active w = true → T.start w now = w
  /-- Stopping a timer that is not active does nothing. -/
  stop_inactive : ∀ w now, T.active w = false → T.stop w now = w
  /-- A timer that is not active does not run : started later, it is due later. -/
  due_later : ∀ w now later, T.active w = false →
    T.due (T.start w later) = T.due (T.start w now) + (later - now)
  /-- Stopped and started again at one time, an active timer is due as before. -/
  due_restart : ∀ w now, T.active w = true → T.due (T.start (T.stop w now) now) = T.due w

variable (T : Timer ω τ) (w : ω) (now : τ)

/-- Start or stop the timer. -/
def set (active : Bool) : ω :=
  if active then T.start w now else T.stop w now

/-- Starts and stops, in order. -/
def calls (cs : List Bool) : ω :=
  cs.foldl (fun w active => T.set w now active) w

variable [AddCommGroup τ]

/-- What is left of its time. -/
def left : τ :=
  T.due (T.start w now) - now

variable {T w now}

theorem left_of_active (hT : T.Resumes) (h : T.active w = true) : T.left w now = T.due w - now := by
  rw [left, hT.start_active w now h]

/-- Starting and stopping take nothing away. -/
theorem left_set (hT : T.Resumes) (active : Bool) :
    T.left (T.set w now active) now = T.left w now := by
  cases active with
  | true =>
    rw [set, if_pos rfl, left, hT.start_active _ now (hT.active_start w now)]
    rfl
  | false =>
    rw [set, if_neg (by simp)]
    cases h : T.active w with
    | true => rw [left, hT.due_restart w now h, left_of_active hT h]
    | false => rw [hT.stop_inactive w now h]

theorem left_calls (hT : T.Resumes) (cs : List Bool) :
    T.left (T.calls w now cs) now = T.left w now := by
  induction cs generalizing w with
  | nil => rfl
  | cons active cs ih => exact ih.trans (left_set hT active)

/-- The time goes by while the timer is active. -/
theorem left_later (hT : T.Resumes) (w : ω) (now later : τ) :
    T.left w later = T.left w now - if T.active w then later - now else 0 := by
  cases h : T.active w with
  | true =>
    rw [left_of_active hT h, left_of_active hT h, if_pos rfl]
    abel
  | false =>
    rw [left, left, hT.due_later w now later h, if_neg (by simp)]
    abel

theorem left_init (hT : T.Resumes) (after : τ) : T.left (T.init after) now = after := by
  rw [left, hT.due_init, add_sub_cancel_left]

theorem due_of_active (hT : T.Resumes) (h : T.active w = true) (now : τ) :
    T.due w = now + T.left w now := by
  rw [left_of_active hT h, add_sub_cancel]

end Timer

/-- A machine with a timer. -/
structure Machine (σ ε : Type*) where
  step : σ → ε → σ
  active : σ → Bool
  /-- The event is the expiry of the timer. -/
  expires : ε → Bool

/-- A state with the time and the timer. -/
structure Clocked (σ ω τ : Type*) where
  state : σ
  now : τ
  watcher : ω

/-- An event at its time, with the starts and stops of the timer that it makes. -/
structure Occurrence (ε τ : Type*) where
  time : τ
  event : ε
  calls : List Bool

namespace Machine

section Clock

variable (m : Machine σ ε) (T : Timer ω τ)

/-- An event at its time. -/
def tick (s : Clocked σ ω τ) (e : Occurrence ε τ) : Clocked σ ω τ where
  state := m.step s.state e.event
  now := e.time
  watcher := T.calls s.watcher e.time e.calls

/-- The events at their times. -/
def run (s : Clocked σ ω τ) (es : List (Occurrence ε τ)) : Clocked σ ω τ :=
  Runs.run (m.tick T) s es

variable {m T} in
theorem run_append {s : Clocked σ ω τ} (es fs : List (Occurrence ε τ)) :
    m.run T s (es ++ fs) = m.run T (m.run T s es) fs :=
  Runs.run_append (m.tick T) s es fs

variable [AddCommGroup τ]

/-- The time for which the timer is active in a run, as far as the last event. -/
def ran (s : Clocked σ ω τ) : List (Occurrence ε τ) → τ
  | [] => 0
  | e :: es => (if T.active s.watcher then e.time - s.now else 0) + ran (m.tick T s e) es

variable {m T} {s : Clocked σ ω τ} {es : List (Occurrence ε τ)}

theorem ran_append (s : Clocked σ ω τ) (es fs : List (Occurrence ε τ)) :
    m.ran T s (es ++ fs) = m.ran T s es + m.ran T (m.run T s es) fs := by
  induction es generalizing s with
  | nil => exact (zero_add _).symm
  | cons e es ih =>
    rw [List.cons_append, ran, ran, ih, add_assoc]
    rfl

/-- What is left is what was left at the start, less the time the timer was active. -/
theorem left_run (hT : T.Resumes) (s : Clocked σ ω τ) (es : List (Occurrence ε τ)) :
    T.left (m.run T s es).watcher (m.run T s es).now = T.left s.watcher s.now - m.ran T s es := by
  induction es generalizing s with
  | nil => exact (sub_zero _).symm
  | cons e es ih =>
    have htick : T.left (m.tick T s e).watcher (m.tick T s e).now =
        T.left s.watcher s.now - if T.active s.watcher then e.time - s.now else 0 :=
      (Timer.left_calls hT e.calls).trans (Timer.left_later hT s.watcher s.now e.time)
    calc T.left (m.run T (m.tick T s e) es).watcher (m.run T (m.tick T s e) es).now
        = T.left (m.tick T s e).watcher (m.tick T s e).now - m.ran T (m.tick T s e) es :=
          ih (m.tick T s e)
      _ = T.left s.watcher s.now - m.ran T s (e :: es) := by rw [htick, sub_sub]; rfl

/-- An active timer is due when the rest of its time has gone by. -/
theorem due_run (hT : T.Resumes) (h : T.active (m.run T s es).watcher = true) :
    T.due (m.run T s es).watcher =
      (m.run T s es).now + (T.left s.watcher s.now - m.ran T s es) := by
  rw [Timer.due_of_active hT h (m.run T s es).now, left_run hT]

end Clock

/-! ## Timely runs -/

section Timely

variable [Preorder τ] (m : Machine σ ε) (T : Timer ω τ)

/-- What the loop promises of an event : the clock does not go back, and the timer expires only
when it is due. The event starts and stops the timer as the machine says. -/
structure Timely (s : Clocked σ ω τ) (e : Occurrence ε τ) : Prop where
  now_le : s.now ≤ e.time
  expired : m.expires e.event = true → T.active s.watcher = true ∧ T.due s.watcher ≤ e.time
  calls : T.active (T.calls s.watcher e.time e.calls) = m.active (m.step s.state e.event)

/-- Every event of the run is timely. -/
def TimelyRun (s : Clocked σ ω τ) (es : List (Occurrence ε τ)) : Prop :=
  Runs.Meets (m.tick T) (m.Timely T) s es

variable {m T} {s : Clocked σ ω τ} {es fs : List (Occurrence ε τ)} {e : Occurrence ε τ}

theorem timelyRun_append :
    m.TimelyRun T s (es ++ fs) ↔ m.TimelyRun T s es ∧ m.TimelyRun T (m.run T s es) fs :=
  Runs.meets_append

/-- The timer is active when the machine says so. -/
theorem active_run (h : T.active s.watcher = m.active s.state) (hes : m.TimelyRun T s es) :
    T.active (m.run T s es).watcher = m.active (m.run T s es).state :=
  Runs.invariant_of_meets (P := fun s : Clocked σ ω τ => T.active s.watcher = m.active s.state)
    (fun _ _ he _ => he.calls) hes h

variable [AddCommGroup τ] [AddLeftMono τ]

theorem ran_nonneg : ∀ {es : List (Occurrence ε τ)} {s : Clocked σ ω τ},
    m.TimelyRun T s es → 0 ≤ m.ran T s es
  | [], _, _ => le_rfl
  | e :: es, s, h => by
    have hrest : 0 ≤ m.ran T (m.tick T s e) es := ran_nonneg h.2
    rw [ran]
    split_ifs
    · exact add_nonneg (sub_nonneg.2 h.1.now_le) hrest
    · rwa [zero_add]

/-- A timer that expires has been active for the time that was left at the start. -/
theorem left_le_ran (hT : T.Resumes) (h : m.TimelyRun T s (es ++ [e]))
    (he : m.expires e.event = true) : T.left s.watcher s.now ≤ m.ran T s (es ++ [e]) := by
  obtain ⟨hactive, hdue⟩ := (timelyRun_append.1 h).2.1.expired he
  have hlast : m.ran T (m.run T s es) [e] = e.time - (m.run T s es).now := by
    simp [ran, hactive]
  rw [due_run hT hactive] at hdue
  rw [ran_append, hlast]
  exact sub_le_iff_le_add'.1 (le_sub_iff_add_le'.2 hdue)

/-- A timer that has expired is due at once when it is started again. -/
theorem due_le_now (hT : T.Resumes) (h : m.TimelyRun T s (es ++ e :: fs))
    (he : m.expires e.event = true)
    (hactive : T.active (m.run T s (es ++ e :: fs)).watcher = true) :
    T.due (m.run T s (es ++ e :: fs)).watcher ≤ (m.run T s (es ++ e :: fs)).now := by
  rw [due_run hT hactive]
  rw [List.append_cons] at h ⊢
  obtain ⟨hexpired, hrest⟩ := timelyRun_append.1 h
  have hran : T.left s.watcher s.now ≤ m.ran T s (es ++ [e] ++ fs) := by
    rw [ran_append]
    exact le_add_of_le_of_nonneg (left_le_ran hT hexpired he) (ran_nonneg hrest)
  exact add_le_of_nonpos_right (sub_nonpos.2 hran)

end Timely

end Machine

end Countdowns
