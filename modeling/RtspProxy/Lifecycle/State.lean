import Mathlib.Data.List.Basic

/-!
# The stream's state machine

`Stream.transition` and `Stream.unsafeSetState`: the seven states, the table of the
transitions that are allowed, and the two readiness channels that the transitions close
and renew.

A channel that only signals is a number; `closed` has the numbers of the closed ones.
`Core` is the part of a `Stream` that the transitions read and write; the time and byte
counts that entering `Playing` resets are not part of it.
-/

namespace RtspProxy.Lifecycle

/-- `StreamState`. -/
inductive StreamState where
  /-- `StateDisconnected`. -/
  | disconnected
  /-- `StateConnecting`. -/
  | connecting
  /-- `StateReady`, which nothing enters. -/
  | ready
  /-- `StatePlaying`. -/
  | playing
  /-- `StateReconnecting`. -/
  | reconnecting
  /-- `StateStopping`. -/
  | stopping
  /-- `StateDestroyed`. -/
  | destroyed
  deriving DecidableEq, Repr

/-- `StreamState.String`. -/
def StreamState.string : StreamState → String
  | .disconnected => "Disconnected"
  | .connecting => "Connecting"
  | .ready => "Ready"
  | .playing => "Playing"
  | .reconnecting => "Reconnecting"
  | .stopping => "Stopping"
  | .destroyed => "Destroyed"

/-- The states in which the connect loop returns: `st == StateStopping || st == StateDestroyed`. -/
def StreamState.isStop : StreamState → Bool
  | .stopping | .destroyed => true
  | _ => false

/-- The state and the signal channels of a stream. -/
structure Core where
  state : StreamState
  readyCh : ℕ
  sdpReadyCh : ℕ
  /-- The channels closed so far. -/
  closed : List ℕ
  /-- The next channel that `make` returns. -/
  nextCh : ℕ
  deriving DecidableEq, Repr

/-- The state and channels of `NewStream`. -/
def newCore : Core := ⟨.disconnected, 0, 1, [], 2⟩

/-- Close a channel unless it is closed already: `select { case <-ch: default: close(ch) }`. -/
def Core.closeCh (c : Core) (ch : ℕ) : Core :=
  if ch ∈ c.closed then c else { c with closed := ch :: c.closed }

/-- Both channels closed, as when old waiters are released. -/
def Core.closeBoth (c : Core) : Core := (c.closeCh c.readyCh).closeCh c.sdpReadyCh

/-- `make(chan struct{})` for both channels. -/
def Core.renew (c : Core) : Core :=
  { c with readyCh := c.nextCh, sdpReadyCh := c.nextCh + 1, nextCh := c.nextCh + 2 }

/-- `Stream.unsafeSetState`. -/
def Core.unsafeSetState (c : Core) (target : StreamState) : Core :=
  if c.state = .destroyed then c
  else if c.state = target then c
  else
    -- a new connection attempt: release the old waiters
    let c := if (c.state = .disconnected ∨ c.state = .reconnecting) ∧ target = .connecting
      then c.closeBoth.renew else c
    let c := if target = .playing then c.closeCh c.readyCh else c
    let c := { c with state := target }
    if target = .destroyed then c.closeBoth else c

/-- The table of `Stream.transition`. -/
def valid : StreamState → StreamState → Bool
  | .disconnected, target => target == .connecting || target == .destroyed
  | .connecting, target =>
    target == .playing || target == .reconnecting || target == .stopping || target == .destroyed || target == .connecting
  | .playing, target => target == .reconnecting || target == .stopping || target == .destroyed || target == .playing
  | .reconnecting, target =>
    target == .playing || target == .disconnected || target == .stopping || target == .destroyed ||
      target == .connecting || target == .reconnecting
  | .stopping, target => target == .disconnected || target == .destroyed || target == .stopping
  | .ready, _ | .destroyed, _ => false

/-- `Stream.transition`: the new state, or the error. -/
def Core.transition (c : Core) (target : StreamState) : Except String Core :=
  if c.state = .destroyed then .error "stream is destroyed"
  else if valid c.state target then .ok (c.unsafeSetState target)
  else .error ("invalid state transition: " ++ c.state.string ++ " -> " ++ target.string)

/-- `s.transition(to)` with the error ignored. -/
def Core.attempt (c : Core) (target : StreamState) : Core :=
  match c.transition target with
  | .ok c' => c'
  | .error _ => c

/-- The SDP-ready step of `doConnectSequence`. -/
def Core.sdpReady (c : Core) : Core := c.closeCh c.sdpReadyCh

/-! ### What the operations do to the state -/

@[simp] theorem closeCh_state (c : Core) (ch : ℕ) : (c.closeCh ch).state = c.state := by
  unfold Core.closeCh; split <;> rfl

@[simp] theorem closeBoth_state (c : Core) : c.closeBoth.state = c.state := by simp [Core.closeBoth]

@[simp] theorem renew_state (c : Core) : c.renew.state = c.state := rfl

@[simp] theorem sdpReady_state (c : Core) : c.sdpReady.state = c.state := closeCh_state _ _

/-- Setting a state sets it, unless the stream is destroyed. -/
theorem unsafeSetState_state (c : Core) (target : StreamState) :
    (c.unsafeSetState target).state = if c.state = .destroyed then .destroyed else target := by
  unfold Core.unsafeSetState
  by_cases hd : c.state = .destroyed
  · simp [hd]
  · by_cases he : c.state = target
    · simp [he]
    · simp only [if_neg hd, if_neg he]
      split <;> simp

/-- A transition succeeds exactly along the table. -/
theorem transition_ok_iff {c c' : Core} {target : StreamState} :
    c.transition target = .ok c' ↔ valid c.state target = true ∧ c' = c.unsafeSetState target := by
  unfold Core.transition
  by_cases hd : c.state = .destroyed
  · simp [hd, valid]
  · cases hv : valid c.state target
    · simp [hd]
    · simp [hd, eq_comm]

/-- After a transition that succeeds the stream is in the state asked for. -/
theorem transition_state {c c' : Core} {target : StreamState} (h : c.transition target = .ok c') :
    c'.state = target := by
  obtain ⟨hv, rfl⟩ := transition_ok_iff.mp h
  rw [unsafeSetState_state, if_neg]
  intro hd
  simp [hd, valid] at hv

/-- What a transition with its error ignored does to the state. -/
theorem attempt_state (c : Core) (target : StreamState) :
    (c.attempt target).state = if valid c.state target then target else c.state := by
  unfold Core.attempt
  cases h : c.transition target with
  | ok c' =>
    have hv := (transition_ok_iff.mp h).1
    simp [transition_state h, hv]
  | error e =>
    cases hv : valid c.state target
    · simp
    · rw [transition_ok_iff.mpr ⟨hv, rfl⟩] at h
      cases h

/-- A transition that is not allowed changes nothing. -/
theorem attempt_of_not_valid {c : Core} {target : StreamState} (hv : ¬ valid c.state target = true) :
    c.attempt target = c := by
  unfold Core.attempt
  cases h : c.transition target with
  | ok c' => exact absurd (transition_ok_iff.mp h).1 hv
  | error e => rfl

end RtspProxy.Lifecycle
