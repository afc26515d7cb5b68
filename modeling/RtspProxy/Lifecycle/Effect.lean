import RtspProxy.Lifecycle.System

/-!
# What a step does to a stream

The results about the readiness channels, the idle timer and DESCRIBE look only at the state, the
channels and the clients of a stream. This module says once what a step of one of its goroutines can
do to these.

* `StreamEffect` — the effects; `effect_of_step` — every step has one of them.
-/

namespace RtspProxy.Lifecycle

/-- The loop is about to begin a connection attempt. -/
def LoopPc.connects : LoopPc → Bool
  | .check st => !st.isStop
  | _ => false

/-- The step begins a connection attempt, if the table allows it. -/
def Sys.connects (s : Sys) : Act → Bool
  | .start => s.core.state = .disconnected
  | .loop .next => s.loop.any LoopPc.connects
  | _ => false

/-- What a step can do to the state, the channels and the clients. -/
inductive StreamEffect (s : Sys) (a : Act) : Core → List ℕ → Prop
  /-- Nothing. -/
  | same : StreamEffect s a s.core s.clients
  /-- It begins a connection attempt. -/
  | connect : s.connects a = true → StreamEffect s a (s.core.attempt .connecting) s.clients
  /-- It tries to enter another state. -/
  | enter {target : StreamState} : target ≠ .connecting → StreamEffect s a (s.core.attempt target) s.clients
  /-- The SDP is there. -/
  | sdp : a = .loop .sdp → StreamEffect s a s.core.sdpReady s.clients
  /-- A client is registered. -/
  | add {client : ℕ} : a = .addClient client → StreamEffect s a s.core (client :: s.clients)
  /-- A client is gone. -/
  | remove (client : ℕ) : StreamEffect s a s.core (s.clients.filter (· != client))
  /-- `Destroy` takes the clients. -/
  | clear : StreamEffect s a s.core []

/-! ### The goroutines -/

/-- A transition that succeeds, as one with its error ignored. -/
theorem attempt_of_ok {c c' : Core} {target : StreamState} (h : c.transition target = .ok c') :
    c.attempt target = c' := by
  rw [Core.attempt, h]

variable {s s' : Sys} {a : Act}

theorem enterConnecting_effect {st : StreamState} (hpc : s.loop = some (.check st)) :
    StreamEffect s (.loop .next) (s.enterConnecting st).core (s.enterConnecting st).clients := by
  unfold Sys.enterConnecting
  split_ifs with hst
  · exact .same
  · cases ht : s.core.transition .connecting with
    | error e => exact .same
    | ok c =>
      rw [← attempt_of_ok ht]
      apply StreamEffect.connect
      simp [Sys.connects, hpc, LoopPc.connects, hst]

theorem enterPlaying_effect : StreamEffect s a s.enterPlaying.core s.enterPlaying.clients := by
  unfold Sys.enterPlaying
  cases ht : s.core.transition .playing with
  | error e => exact .same
  | ok c =>
    rw [← attempt_of_ok ht]
    exact .enter (by simp)

theorem afterRead_effect (st : StreamState) (err : Bool) :
    StreamEffect s a (s.afterRead st err).core (s.afterRead st err).clients := by
  unfold Sys.afterRead
  split_ifs
  · exact .enter (by simp)
  · exact .enter (by simp)
  · exact .enter (by simp)

theorem replaceRemote_effect (resolved : Bool) :
    StreamEffect s a (s.replaceRemote resolved).core (s.replaceRemote resolved).clients := by
  unfold Sys.replaceRemote
  dsimp only
  split <;> exact .same

theorem dialRemote_effect (r : ℕ) (ok : Bool) :
    StreamEffect s a (s.dialRemote r ok).core (s.dialRemote r ok).clients := by
  unfold Sys.dialRemote
  dsimp only
  split <;> exact .same

theorem stepLoop_effect {pc : LoopPc} {o : LoopChoice} (hpc : s.loop = some pc) (h : s.stepLoop pc o = some s') :
    StreamEffect s (.loop o) s'.core s'.clients := by
  unfold Sys.stepLoop at h
  split at h
  case h_3 => cases h; exact enterConnecting_effect hpc
  case h_4 => cases h; exact replaceRemote_effect _
  case h_5 => cases h; exact dialRemote_effect _ _
  case h_8 => cases h; exact .sdp rfl
  case h_13 => cases h; exact enterPlaying_effect
  case h_16 => cases h; exact afterRead_effect _ _
  case h_20 => cases h; exact .enter (by simp)
  case h_21 => cases h; exact .enter (by simp)
  case h_25 => cases h
  all_goals first
    | cases h; exact .same
    | split at h <;> cases h <;> exact .same

theorem stepCloser_effect {i : ℕ} {o : SendOutcome} (h : s.stepCloser i o = some s') :
    StreamEffect s a s'.core s'.clients := by
  unfold Sys.stepCloser at h
  split at h
  · cases h
  · rename_i k _
    split at h
    case h_2 =>
      -- `Destroy` takes the clients, `Stop` does not
      cases hd : k.destroys <;> simp only [hd, Sys.takeSessions] at h <;> split at h <;> cases h
      · exact .same
      · exact .same
      · exact .clear
      · exact .clear
    case h_8 =>
      cases h
      split
      · exact .same
      · exact .enter (by simp)
    all_goals cases h
    all_goals exact .same

theorem start_effect : StreamEffect s .start s.start.core s.start.clients := by
  unfold Sys.start Sys.startConnectLoop
  by_cases hd : s.core.state = .disconnected
  · have hv : s.core.unsafeSetState .connecting = s.core.attempt .connecting :=
      (attempt_of_ok (transition_ok_iff.mpr ⟨by rw [hd]; rfl, rfl⟩)).symm
    rw [if_neg (not_not.mpr hd), hv]
    split <;> exact .connect (by simp [Sys.connects, hd])
  · rw [if_pos hd]
    exact .same

theorem addClient_effect (client : ℕ) :
    StreamEffect s (.addClient client) (s.addClient client).core (s.addClient client).clients := by
  unfold Sys.addClient Sys.startConnectLoop
  split_ifs
  · exact .same
  · exact .add rfl
  · exact .add rfl
  · exact .add rfl

theorem stop_effect : StreamEffect s a s.stop.core s.stop.clients := by
  unfold Sys.stop
  cases ht : s.core.transition .stopping with
  | error e => exact .same
  | ok c =>
    rw [← attempt_of_ok ht]
    exact .enter (by simp)

/-- **What a step does to the state, the channels and the clients.** -/
theorem effect_of_step (h : s.step a = some s') : StreamEffect s a s'.core s'.clients := by
  unfold Sys.step at h
  split_ifs at h
  cases a with
  | start => cases h; exact start_effect
  | addClient client => cases h; exact addClient_effect client
  | removeClient client => cases h; exact .remove client
  | stop => cases h; exact stop_effect
  | destroy => cases h; exact .enter (by simp)
  | shutdown => cases h; exact .same
  | loop o =>
    obtain ⟨pc, hpc, h⟩ := Option.bind_eq_some_iff.mp h
    exact stepLoop_effect hpc h
  | reader o =>
    obtain ⟨pc, hpc, h⟩ := Option.bind_eq_some_iff.mp h
    obtain ⟨pc', n, b, rfl, -⟩ := stepReader_spec hpc h
    exact .same
  | closer i o => exact stepCloser_effect h
  | keepAlive i o =>
    obtain ⟨n, -, rfl⟩ := Option.map_eq_some_iff.mp h
    exact .same

end RtspProxy.Lifecycle
