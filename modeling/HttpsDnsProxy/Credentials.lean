import HttpsDnsProxy.Runs

/-!
# The ids of a process

A process has a real, an effective and a saved user id, three group ids and supplementary groups.
With the effective user id 0 it may set all of them and bind any port. Without it, `setuid` and
`setgid` only choose the effective id among the real and the saved one (`permits`, `call`).

A process without an id of root does not get one back (`Unprivileged.run`), and does not bind a
port below 1024 (`Unprivileged.not_mayBind`).
-/

namespace Posix

/-- The ids of a process. -/
structure Credentials where
  ruid : ℕ
  euid : ℕ
  suid : ℕ
  rgid : ℕ
  egid : ℕ
  sgid : ℕ
  groups : List ℕ
  deriving DecidableEq, Repr

/-- A call that sets ids. -/
inductive IdCall where
  | setgroups (groups : List ℕ)
  | setgid (gid : ℕ)
  | setuid (uid : ℕ)
  deriving DecidableEq, Repr

namespace Credentials

variable (c : Credentials)

/-- Whether the process may make the call. -/
def permits : IdCall → Bool
  | .setgroups _ => c.euid = 0
  | .setgid gid => c.euid = 0 ∨ gid = c.rgid ∨ gid = c.sgid
  | .setuid uid => c.euid = 0 ∨ uid = c.ruid ∨ uid = c.suid

/-- The ids after a call that succeeds. -/
def call : IdCall → Credentials
  | .setgroups groups => { c with groups := groups }
  | .setgid gid =>
    if c.euid = 0 then { c with rgid := gid, egid := gid, sgid := gid } else { c with egid := gid }
  | .setuid uid =>
    if c.euid = 0 then { c with ruid := uid, euid := uid, suid := uid } else { c with euid := uid }

/-- Whether the process may bind a socket to the port. The system chooses one for port 0. -/
def mayBind (port : ℕ) : Bool :=
  port = 0 ∨ 1024 ≤ port ∨ c.euid = 0

/-- All ids are those of root. -/
structure Root : Prop where
  ruid : c.ruid = 0
  euid : c.euid = 0
  suid : c.suid = 0
  rgid : c.rgid = 0
  egid : c.egid = 0
  sgid : c.sgid = 0

/-- No id is one of root. -/
structure Unprivileged : Prop where
  ruid : c.ruid ≠ 0
  euid : c.euid ≠ 0
  suid : c.suid ≠ 0
  rgid : c.rgid ≠ 0
  egid : c.egid ≠ 0
  sgid : c.sgid ≠ 0
  groups : 0 ∉ c.groups

namespace Unprivileged

variable {c}

/-- Without an id of root no permitted call gets one. -/
theorem call (h : Unprivileged c) {e : IdCall} (he : c.permits e = true) :
    Unprivileged (c.call e) := by
  cases e with
  | setgroups groups => simp [permits, h.euid] at he
  | setgid gid =>
    have hgid : gid = c.rgid ∨ gid = c.sgid := by simpa [permits, h.euid] using he
    have hne : gid ≠ 0 := by
      rcases hgid with rfl | rfl
      · exact h.rgid
      · exact h.sgid
    rw [Credentials.call, if_neg h.euid]
    exact { h with egid := hne }
  | setuid uid =>
    have huid : uid = c.ruid ∨ uid = c.suid := by simpa [permits, h.euid] using he
    have hne : uid ≠ 0 := by
      rcases huid with rfl | rfl
      · exact h.ruid
      · exact h.suid
    rw [Credentials.call, if_neg h.euid]
    exact { h with euid := hne }

theorem run (h : Unprivileged c) {es : List IdCall}
    (hes : Runs.Meets Credentials.call (fun c e => c.permits e = true) c es) :
    Unprivileged (Runs.run Credentials.call c es) :=
  Runs.invariant_of_meets (fun _ _ he h => h.call he) hes h

theorem not_mayBind (h : Unprivileged c) {port : ℕ} (hpos : 0 < port) (hlow : port < 1024) :
    c.mayBind port = false := by
  simp [mayBind, h.euid]
  omega

end Unprivileged

end Credentials

end Posix
