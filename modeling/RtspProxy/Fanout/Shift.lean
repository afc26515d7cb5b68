import RtspProxy.Fanout.Ownership

/-!
# What the goroutines do to sessions and clients

The readers, the sessions and the writers move packets. Of what a client's handler sees of them,
they change little: a session gives up its client, and a `writeChan` is closed.

## What is proved

* `shift_of_step` — what a step of a goroutine other than the handlers does to sessions and
  clients: nothing, but for an eviction, a `close`, or a panic.
-/

namespace RtspProxy.Fanout

open Theory Wire

variable {cfg : Config} {s t : Fan}

/-- The steps of goroutines other than the handlers. -/
def Act.isOther : Act → Bool
  | .loop _ _ | .dispatch _ _ _ | .dispatching _ _ | .run _ _ | .writer _ _ | .close _ | .cancel => true
  | _ => false

/-- A session that will not send to its client any more. -/
def RunPc.spent : RunPc → Bool
  | .waitWriter | .drain | .drainPut _ | .exited => true
  | _ => false

/-- Which clients have sessions, and which channels are closed, stays as it is; a session that is
spent stays so. -/
structure Fan.Still (s t : Fan) : Prop where
  /-- The clients of the streams. -/
  sessionOf : t.sessionOf = s.sessionOf
  /-- There is no new session. -/
  next : t.nextSession = s.nextSession
  /-- No client is being removed that was not. -/
  removing : ∀ r, (t.streams r).removing = (s.streams r).removing
  /-- A session stays that of its stream. -/
  stream : ∀ k, (t.sessions k).stream = (s.sessions k).stream
  /-- A session stays that of its client, and is not stopped. -/
  session : ∀ k, (t.sessions k).client = (s.sessions k).client ∧ (t.sessions k).active = (s.sessions k).active ∧
    (t.sessions k).quit = (s.sessions k).quit
  /-- Spent sessions stay so. -/
  spent : ∀ k, (s.sessions k).pc.spent = true → (t.sessions k).pc.spent = true
  /-- No client is destroyed. -/
  client : ∀ c, (t.clients c).destroyed = (s.clients c).destroyed ∧ (t.clients c).closed = (s.clients c).closed ∧
    (t.clients c).closing = (s.clients c).closing
  /-- A server that is cancelled stays so. -/
  done : s.done = true → t.done = true
  /-- The program does not panic. -/
  panicked : t.panicked = s.panicked

theorem Fan.Still.refl (s : Fan) : s.Still s :=
  ⟨rfl, rfl, fun _ => rfl, fun _ => rfl, fun _ => ⟨rfl, rfl, rfl⟩, fun _ h => h, fun _ => ⟨rfl, rfl, rfl⟩, id, rfl⟩

theorem Fan.Still.trans {u : Fan} (h₁ : s.Still t) (h₂ : t.Still u) : s.Still u where
  sessionOf := h₂.sessionOf.trans h₁.sessionOf
  next := h₂.next.trans h₁.next
  removing r := (h₂.removing r).trans (h₁.removing r)
  stream k := (h₂.stream k).trans (h₁.stream k)
  session k := by
    rw [(h₂.session k).1, (h₂.session k).2.1, (h₂.session k).2.2]
    exact h₁.session k
  spent k h := h₂.spent k (h₁.spent k h)
  client c := by
    rw [(h₂.client c).1, (h₂.client c).2.1, (h₂.client c).2.2]
    exact h₁.client c
  done h := h₂.done (h₁.done h)
  panicked := h₂.panicked.trans h₁.panicked

theorem still_of_eq (hs : t.streams = s.streams) (hss : t.sessions = s.sessions) (hc : t.clients = s.clients)
    (hn : t.nextSession = s.nextSession) (hd : s.done = true → t.done = true) (hp : t.panicked = s.panicked) :
    s.Still t := by
  refine ⟨?_, hn, fun r => by rw [hs], fun k => by rw [hss], fun k => ?_, fun k => ?_, fun c => ?_, hd, hp⟩
  · unfold Fan.sessionOf
    rw [hs]
  · rw [hss]
    exact ⟨rfl, rfl, rfl⟩
  · rw [hss]
    exact id
  · rw [hc]
    exact ⟨rfl, rfl, rfl⟩

theorem still_setStream {r : ℕ} {f : Stream → Stream}
    (hf : (f (s.streams r)).registered = (s.streams r).registered)
    (hr : (f (s.streams r)).removing = (s.streams r).removing) : s.Still (s.setStream r f) := by
  refine ⟨sessionOf_setStream hf, rfl, fun r' => ?_, fun _ => rfl, fun _ => ⟨rfl, rfl, rfl⟩, fun _ h => h,
    fun _ => ⟨rfl, rfl, rfl⟩, id, rfl⟩
  by_cases hrr : r' = r <;> simp [Fan.setStream, hrr, hr]

theorem still_setSession {k : ℕ} {f : Session → Session} (hs : (f (s.sessions k)).stream = (s.sessions k).stream)
    (hf : (f (s.sessions k)).client = (s.sessions k).client ∧ (f (s.sessions k)).active = (s.sessions k).active ∧
      (f (s.sessions k)).quit = (s.sessions k).quit)
    (hpc : (s.sessions k).pc.spent = true → (f (s.sessions k)).pc.spent = true) : s.Still (s.setSession k f) := by
  refine ⟨rfl, rfl, fun _ => rfl, fun k' => ?_, fun k' => ?_, fun k' => ?_, fun _ => ⟨rfl, rfl, rfl⟩, id, rfl⟩
  · by_cases hk : k' = k <;> simp [Fan.setSession, hk, hs]
  · by_cases hk : k' = k
    · subst hk
      simpa [Fan.setSession] using hf
    · simp [Fan.setSession, hk]
  · by_cases hk : k' = k
    · subst hk
      simpa [Fan.setSession] using hpc
    · simp [Fan.setSession, hk]

theorem still_setClient {c : ℕ} {f : Client → Client}
    (hf : (f (s.clients c)).destroyed = (s.clients c).destroyed ∧ (f (s.clients c)).closed = (s.clients c).closed ∧
      (f (s.clients c)).closing = (s.clients c).closing) : s.Still (s.setClient c f) := by
  refine ⟨rfl, rfl, fun _ => rfl, fun _ => rfl, fun _ => ⟨rfl, rfl, rfl⟩, fun _ h => h, fun c' => ?_, id, rfl⟩
  by_cases hc : c' = c
  · subst hc
    simpa [Fan.setClient] using hf
  · simp [Fan.setClient, hc]

theorem still_mapChannel (s : Fan) (r c : ℕ) (upstreamChan clientChan : ℤ) :
    s.Still (s.mapChannel r c upstreamChan clientChan) := by
  unfold Fan.mapChannel
  split
  · exact still_setSession rfl ⟨rfl, rfl, rfl⟩ id
  · exact .refl _

/-- What goroutines other than the handlers do to sessions and clients. -/
inductive Fan.Shift (s : Fan) : Fan → Prop
  /-- They go on. -/
  | still {t : Fan} (h : s.Still t) : Shift s t
  /-- A session destroys its client. -/
  | evict (k : ℕ) (hpc : (s.sessions k).pc = .destroy) (hd : (s.clients (s.sessions k).client).destroyed = false) :
      Shift s ((s.setClient (s.sessions k).client Client.destroy).runAt k .waitWriter)
  /-- A `writeChan` is closed. -/
  | close (c : ℕ) (hc : (s.clients c).closing ≠ 0) (ho : (s.clients c).closed = false) :
      Shift s (s.setClient c fun cl => { cl with closed := true, closing := cl.closing - 1 })
  /-- A session sends to a closed `writeChan`. -/
  | badSend (k : ℕ) (x : Slice) (hpc : (s.sessions k).pc = .forward x)
      (ho : (s.clients (s.sessions k).client).closed = true) : Shift s { s with panicked := true }
  /-- A closed `writeChan` is closed. -/
  | badClose (c : ℕ) (hc : (s.clients c).closing ≠ 0) (ho : (s.clients c).closed = true) :
      Shift s { s with panicked := true }
  /-- A buffer is too small. -/
  | badSlice (r : ℕ) (packet : Bytes) (u : Target) (buf : ℕ) (targets : List Target)
      (hl : (s.streams r).loop = .reading (.got packet u buf targets)) (hlt : (s.heap buf).length < packet.length) :
      Shift s { s with panicked := true }

theorem still_stepLoop {r : ℕ} {o : LoopInput} (h : s.stepLoop r o = some t) : s.Still t := by
  unfold Fan.stepLoop at h
  split at h <;> cases h
  · exact still_setStream rfl rfl
  · exact .refl s
  · exact still_setStream rfl rfl
  · exact still_setStream rfl rfl
  · exact still_setStream rfl rfl

theorem shift_stepDispatch {r : ℕ} {o : Option ℕ} (h : s.stepDispatch cfg r o = some t) : s.Shift t := by
  unfold Fan.stepDispatch at h
  split at h
  case h_1 => cases h; exact .still (still_setStream rfl rfl)
  case h_2 =>
    obtain ⟨⟨g, buf⟩, hg, rfl⟩ := Option.map_eq_some_iff.mp h
    have hget : s.Still g := by
      cases o with
      | none => cases hg; exact still_of_eq rfl rfl rfl rfl id rfl
      | some b =>
        obtain ⟨-, ⟨⟩⟩ := Option.ite_none_right_eq_some.mp hg
        exact still_of_eq rfl rfl rfl rfl id rfl
    exact .still (hget.trans (still_setStream rfl rfl))
  case h_3 packet u buf targets hl =>
    split at h <;> cases h
    case isTrue hlt => exact .badSlice r packet u buf targets hl hlt
    case isFalse =>
      have hfill : s.Still (s.setBuf buf (clientPacket packet u.clientChannel ++ (s.heap buf).drop packet.length)) :=
        still_of_eq rfl rfl rfl rfl id rfl
      exact .still (hfill.trans (still_setStream rfl rfl))
  case h_4 =>
    split at h <;> cases h
    · exact .still ((still_setSession rfl ⟨rfl, rfl, rfl⟩ id).trans (still_setStream rfl rfl))
    · exact .still (still_setStream rfl rfl)
  case h_5 packet buf targets hl =>
    cases h
    have hput : s.Still (s.setPool (buf :: s.pool)) := still_of_eq rfl rfl rfl rfl id rfl
    exact .still (hput.trans (still_setStream rfl rfl))
  case h_6 => cases h

/-- The goroutine of a session goes on to a point that is not before the one it is at. -/
theorem still_runAt {k : ℕ} {pc : RunPc} (h : (s.sessions k).pc.spent = true → pc.spent = true) :
    s.Still (s.runAt k pc) := still_setSession rfl ⟨rfl, rfl, rfl⟩ h

theorem still_release (x : Slice) : s.Still (s.release cfg x) := still_of_eq rfl rfl rfl rfl id rfl

theorem shift_stepRun {k : ℕ} {o : RunInput} (h : s.stepRun cfg k o = some t) : s.Shift t := by
  unfold Fan.stepRun at h
  dsimp only at h
  split at h
  case h_1 hpc => -- select, quit
    split at h <;> cases h
    exact .still (still_runAt fun _ => rfl)
  case h_2 hpc => -- select, done
    split at h <;> cases h
    exact .still (still_runAt fun _ => rfl)
  case h_3 hpc => -- select, packet
    split at h <;> cases h
    exact .still (still_setSession rfl ⟨rfl, rfl, rfl⟩ (by simp [hpc, RunPc.spent]))
  case h_4 x hpc => -- forward, sent
    split at h
    case isTrue ho => cases h; exact .badSend k x hpc ho
    case isFalse =>
      split at h <;> cases h
      refine .still ((still_setClient ⟨rfl, rfl, rfl⟩).trans (still_runAt ?_))
      simp [Fan.setClient, hpc, RunPc.spent]
  case h_5 hpc => -- forward, timeout
    cases h
    exact .still (still_runAt (by simp [hpc, RunPc.spent]))
  case h_6 x hpc => -- slow
    cases h
    refine .still ((still_release x).trans (still_runAt ?_))
    simp [Fan.release, Fan.setPool, hpc, RunPc.spent]
  case h_7 hpc => -- destroy
    split at h <;> cases h
    · exact .still (still_runAt fun _ => rfl)
    case isFalse hd => exact .evict k hpc (by simpa using hd)
  case h_8 => -- waitWriter
    split at h <;> cases h
    exact .still (still_runAt fun _ => rfl)
  case h_9 => -- drain
    split at h <;> cases h
    · exact .still (still_runAt fun _ => rfl)
    · exact .still (still_setSession rfl ⟨rfl, rfl, rfl⟩ fun _ => rfl)
  case h_10 x hpc => -- drainPut
    cases h
    exact .still ((still_release x).trans (still_runAt fun _ => rfl))
  case h_11 => cases h

theorem still_stepWriter {c : ℕ} {o : WriterInput} (h : s.stepWriter cfg c o = some t) : s.Still t := by
  unfold Fan.stepWriter at h
  dsimp only at h
  split at h
  case h_1 => split at h <;> cases h; exact still_setClient ⟨rfl, rfl, rfl⟩
  case h_2 =>
    split at h
    · split at h <;> cases h; exact still_setClient ⟨rfl, rfl, rfl⟩
    · cases h; exact still_setClient ⟨rfl, rfl, rfl⟩
  case h_3 => cases h; exact still_setClient ⟨rfl, rfl, rfl⟩
  case h_4 x ok hpc => cases h; exact (still_release x).trans (still_setClient ⟨rfl, rfl, rfl⟩)
  case h_5 =>
    split at h
    · split at h <;> cases h; exact still_setClient ⟨rfl, rfl, rfl⟩
    · cases h; exact still_setClient ⟨rfl, rfl, rfl⟩
  case h_6 x hpc => cases h; exact (still_release x).trans (still_setClient ⟨rfl, rfl, rfl⟩)
  case h_7 => cases h

/-- **What a step of another goroutine does to sessions and clients.** -/
theorem shift_of_step {a : Act} (ha : a.isOther = true) (h : s.step cfg a = some t) : s.Shift t := by
  obtain ⟨-, h⟩ := Option.ite_none_left_eq_some.mp h
  cases a with
  | loop r o => exact .still (still_stepLoop h)
  | dispatch r f targets =>
    obtain ⟨-, ⟨⟩⟩ := Option.ite_none_right_eq_some.mp h
    exact .still (still_setStream rfl rfl)
  | dispatching r o => exact shift_stepDispatch h
  | run k o => exact shift_stepRun h
  | writer c o => exact .still (still_stepWriter h)
  | close c =>
    obtain ⟨hc, h⟩ := Option.ite_none_left_eq_some.mp h
    split at h
    case isTrue ho => cases h; exact .badClose c hc ho
    case isFalse ho => cases h; exact .close c hc (by simpa using ho)
  | cancel => cases h; exact .still (still_of_eq rfl rfl rfl rfl (fun _ => rfl) rfl)
  | addClient | mapChannel | removeClient | stopped | destroy => cases ha

/-! ### Closing once -/

/-- Who closes `writeChan`: the one goroutine that has set `destroyed`, once. -/
structure Client.Once (cl : Client) : Prop where
  /-- What is closed was destroyed. -/
  destroyed : cl.closed = true → cl.destroyed = true
  /-- One goroutine is about to close it, or none. -/
  closing : cl.closing = if cl.destroyed ∧ cl.closed = false then 1 else 0

theorem Client.Once.destroy {cl : Client} (h : cl.Once) : cl.destroy.Once := by
  unfold Client.destroy
  split
  · exact h
  case isFalse hd =>
    have hopen : cl.closed = false := by
      by_contra hcl
      exact hd (h.destroyed (by simpa using hcl))
    have hnone := h.closing
    rw [if_neg (fun hc => hd hc.1)] at hnone
    refine ⟨fun _ => rfl, ?_⟩
    simp [hopen, hnone]

@[simp] theorem Client.destroyed_destroy (cl : Client) : cl.destroy.destroyed = true := by
  unfold Client.destroy
  split
  case isTrue h => exact h
  case isFalse => rfl

/-- A `writeChan` is closed by the goroutine that was about to. -/
theorem Client.Once.close {cl : Client} (h : cl.Once) (hc : cl.closing ≠ 0) :
    Client.Once { cl with closed := true, closing := cl.closing - 1 } := by
  have hone := h.closing
  split at hone
  case isTrue hd => exact ⟨fun _ => hd.1, by simp [hone]⟩
  case isFalse => exact absurd hone hc

theorem once_update (h : ∀ c, (s.clients c).Once) {c c' : ℕ} {cl : Client} (hcl : cl.Once) :
    (Function.update s.clients c' cl c).Once := by
  by_cases hc : c = c'
  · rw [hc, Function.update_self]
    exact hcl
  · rw [Function.update_of_ne hc]
    exact h c

/-- **Each `writeChan` is closed once**, whatever the goroutines do. -/
theorem once_of_shift (h : ∀ c, (s.clients c).Once) (hs : s.Shift t) (c : ℕ) : (t.clients c).Once := by
  cases hs with
  | still hs =>
    obtain ⟨hd, hcl, hcg⟩ := hs.client c
    constructor
    · rw [hd, hcl]
      exact (h c).destroyed
    · rw [hd, hcl, hcg]
      exact (h c).closing
  | evict k hpc hd => exact once_update h (h _).destroy
  | close c' hc ho => exact once_update h ((h c').close hc)
  | badSend | badClose | badSlice => exact h c

theorem clients_addClient (r c : ℕ) : (s.addClient r c).clients = s.clients := by
  unfold Fan.addClient
  split <;> rfl

theorem clients_removeClient (r c : ℕ) : (s.removeClient r c).clients = s.clients := by
  unfold Fan.removeClient
  split
  · split
    · split <;> rfl
    · rfl
  · rfl

theorem once_of_step (h : ∀ c, (s.clients c).Once) {a : Act} (hs : s.step cfg a = some t) (c : ℕ) :
    (t.clients c).Once := by
  by_cases ha : a.isOther = true
  · exact once_of_shift h (shift_of_step ha hs) c
  · obtain ⟨-, hs⟩ := Option.ite_none_left_eq_some.mp hs
    cases a with
    | addClient r c' =>
      obtain ⟨-, ⟨⟩⟩ := Option.ite_none_right_eq_some.mp hs
      exact clients_addClient (s := s) r c' ▸ h c
    | mapChannel r c' upstreamChan clientChan =>
      obtain ⟨-, ⟨⟩⟩ := Option.ite_none_right_eq_some.mp hs
      exact once_of_shift h (.still (still_mapChannel s r c' upstreamChan clientChan)) c
    | removeClient r c' =>
      obtain ⟨-, ⟨⟩⟩ := Option.ite_none_right_eq_some.mp hs
      exact clients_removeClient (s := s) r c' ▸ h c
    | stopped r =>
      obtain ⟨c', -, hs⟩ := Option.bind_eq_some_iff.mp hs
      obtain ⟨k, -, hs⟩ := Option.bind_eq_some_iff.mp hs
      obtain ⟨-, ⟨⟩⟩ := Option.ite_none_right_eq_some.mp hs
      exact h c
    | destroy c' =>
      cases hs
      exact once_update h (h c').destroy
    | _ => exact absurd rfl ha

end RtspProxy.Fanout
