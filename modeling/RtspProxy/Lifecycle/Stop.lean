import RtspProxy.Lifecycle.System

/-!
# Stops that do not last

`Stop` leaves the stream `Disconnected`, but the connect loop only recognises `Stopping`
and `Destroyed`. A loop that does not look at the state while `Stop` passes through
`Stopping` goes on as before: from its backoff it enters `Connecting` and dials
(`stop_then_dial`). A handshake or a keep-alive in progress dials too, since
`SendRequest` connects a remote that has no connection.

## What is proved

* `Settled` — the goroutines that are left when `Stop` is about to return will neither
  connect nor send: the loop is leaving, the reader has ended, the keep-alives are gone and
  no other `Stop` has requests to send.
* `stop_final` — if the stream is settled when a `Stop` ends, then it stays `Disconnected`
  and nobody dials, in every continuation without `Start`, `AddClient` and `Destroy`.
-/

namespace RtspProxy.Lifecycle

open RtspProxy.Theory

/-- With the stream `Disconnected`, the loop returns from here without connecting. -/
def LoopPc.leaves (clients : List ℕ) : LoopPc → Bool
  | .play => true
  | .failing | .countClients => clients.isEmpty
  | pc => pc.past

/-- A call of `Stop` that has nothing more to send. -/
def Closer.late (k : Closer) : Bool :=
  !k.destroys && match k.pc with
    | .stopSessions _ | .finish => true
    | _ => false

/-- Nobody is left who would connect or send. -/
structure Settled (s : Sys) : Prop where
  /-- The loop is gone or leaves. -/
  loop : ∀ pc ∈ s.loop, pc.leaves s.clients = true
  /-- The reader is gone or has ended. -/
  reader : ∀ pc ∈ s.reader, pc = .done true ∨ pc = .done false
  /-- The keep-alives are gone or have returned. -/
  keepAlives : ∀ k ∈ s.net.keepAlives, k.pc = .exiting
  /-- No `Stop` has a request to send. -/
  closers : ∀ k ∈ s.closers, k.late = true

/-- Calls that ask for the stream or destroy it. -/
def Act.isDemand : Act → Bool
  | .start | .addClient _ | .destroy => true
  | _ => false

/-- A settled stream that is `Disconnected`, with `n` dials so far. -/
structure Quiet (n : ℕ) (s : Sys) : Prop extends Settled s where
  /-- The stream is `Disconnected`. -/
  state : s.core.state = .disconnected
  /-- The number of dials. -/
  dials : s.net.dials = n

/-! ### What the goroutines of a settled stream do -/

variable {n : ℕ} {s s' : Sys}

/-- The loop moves from one leaving place to another. -/
theorem Quiet.goto (h : Quiet n s) {pc : LoopPc} (hl : pc.leaves s.clients = true) :
    Quiet n (s.goto pc) := by
  refine ⟨⟨?_, h.reader, h.keepAlives, h.closers⟩, h.state, h.dials⟩
  intro pc' hpc'
  cases hpc'
  exact hl

theorem Quiet.takeReader (h : Quiet n s) : Quiet n { s with reader := none } :=
  ⟨⟨h.loop, by simp, h.keepAlives, h.closers⟩, h.state, h.dials⟩

/-- Setting the state `Disconnected` again changes nothing. -/
theorem Quiet.attempt (h : Quiet n s) {target : StreamState} (hv : valid .disconnected target = false) :
    s.setCore (s.core.attempt target) = s := by
  rw [attempt_of_not_valid (by rw [h.state, hv]; simp)]
  unfold Sys.setCore
  rw [if_pos h.state]

/-- **The loop's step** on a settled stream. -/
theorem Quiet.stepLoop (h : Quiet n s) {pc : LoopPc} (hpc : s.loop = some pc) {o : LoopChoice}
    (hs : s.stepLoop pc o = some s') : Quiet n s' := by
  have hl := h.loop pc hpc
  cases pc <;> simp only [LoopPc.leaves, LoopPc.past, Bool.false_eq_true] at hl
  case check st =>
    cases o <;> simp only [Sys.stepLoop, Sys.enterConnecting, hl, if_true, Option.some.injEq,
      reduceCtorEq] at hs
    subst hs
    exact h.goto rfl
  case play =>
    cases o <;> simp only [Sys.stepLoop, Option.some.injEq, reduceCtorEq] at hs
    subst hs
    unfold Sys.enterPlaying
    cases ht : s.core.transition .playing with
    | ok c =>
      have hv := (transition_ok_iff.mp ht).1
      rw [h.state] at hv
      cases hv
    | error e => exact h.goto rfl
  case readDone err =>
    cases o <;> simp only [Sys.stepLoop, Option.some.injEq, reduceCtorEq] at hs
    subst hs
    refine h.goto ?_
    simp only [LoopPc.leaves, LoopPc.past, hl, Bool.or_true]
  case ended st err =>
    cases o <;> simp only [Sys.stepLoop, Option.some.injEq, reduceCtorEq] at hs
    subst hs
    unfold Sys.afterRead
    split_ifs with h₁ h₂
    · rw [h.attempt rfl]
      exact h.goto rfl
    · simp [h₁, h₂] at hl
    · rw [h.attempt rfl]
      exact h.goto rfl
  case draining =>
    cases o <;> simp only [Sys.stepLoop, reduceCtorEq] at hs
    split at hs <;> cases hs
    exact h.takeReader.goto rfl
  case failing =>
    cases o <;> simp only [Sys.stepLoop, reduceCtorEq] at hs
    split at hs <;> cases hs
    exact h.takeReader.goto hl
  case countClients =>
    cases o <;> simp only [Sys.stepLoop, hl, if_true, Option.some.injEq, reduceCtorEq] at hs
    subst hs
    exact h.goto rfl
  case giveUp =>
    cases o <;> simp only [Sys.stepLoop, Option.some.injEq, reduceCtorEq] at hs
    subst hs
    rw [h.attempt rfl]
    exact h.goto rfl
  case returning =>
    cases o <;> simp only [Sys.stepLoop, Option.some.injEq, reduceCtorEq] at hs
    subst hs
    exact ⟨⟨by simp, h.reader, h.keepAlives, h.closers⟩, h.state, h.dials⟩

/-- The reader of a settled stream does nothing. -/
theorem Quiet.stepReader (h : Quiet n s) {pc : ReaderPc} (hpc : s.reader = some pc) {o : ReaderChoice} :
    s.stepReader pc o = none := by
  rcases h.reader pc hpc with rfl | rfl <;> cases o <;> rfl

/-- Stopping a session neither dials nor starts a keep-alive. -/
theorem sessionStop_net (m : Net) (obj : ℕ) :
    (m.sessionStop obj).dials = m.dials ∧ (m.sessionStop obj).keepAlives = m.keepAlives := by
  unfold Net.sessionStop
  split <;> exact ⟨rfl, rfl⟩

/-- **A step of `Stop`** on a settled stream. -/
theorem Quiet.stepCloser (h : Quiet n s) {i : ℕ} {o : SendOutcome} (hs : s.stepCloser i o = some s') :
    Quiet n s' := by
  unfold Sys.stepCloser at hs
  split at hs
  · cases hs
  · rename_i k hget
    have hk := h.closers k (List.mem_of_getElem? hget)
    have hd : k.destroys = false := by
      simp only [Closer.late, Bool.and_eq_true] at hk
      simpa using hk.1
    have hset : ∀ pc, Closer.late { k with pc := pc } = true →
        ∀ k' ∈ s.closers.set i { k with pc := pc }, k'.late = true := by
      intro pc hpc k' hk'
      rcases List.mem_or_eq_of_mem_set hk' with hk' | rfl
      · exact h.closers k' hk'
      · exact hpc
    split at hs
    case h_6 =>
      cases hs
      exact ⟨⟨h.loop, h.reader, h.keepAlives, hset _ (by simp [Closer.late, hd])⟩, h.state, h.dials⟩
    case h_7 obj objs _ =>
      cases hs
      obtain ⟨hn, hka⟩ := sessionStop_net s.net obj
      refine ⟨⟨h.loop, h.reader, ?_, hset _ (by simp [Closer.late, hd])⟩, h.state, hn.trans h.dials⟩
      exact fun k' hk' => h.keepAlives k' (hka ▸ hk')
    case h_8 =>
      simp only [hd] at hs
      cases hs
      have hq : Quiet n { s with closers := s.closers.eraseIdx i } :=
        ⟨⟨h.loop, h.reader, h.keepAlives, fun k' hk' => h.closers k' (List.mem_of_mem_eraseIdx hk')⟩,
          h.state, h.dials⟩
      have hsame := hq.attempt (show valid .disconnected .disconnected = false from rfl)
      exact hsame.symm ▸ hq
    all_goals simp [Closer.late, *] at hk

/-- A keep-alive that has returned only clears its session's flag. -/
theorem Quiet.stepKeepAlive (h : Quiet n s) {i : ℕ} {o : KeepAliveChoice} {m : Net}
    (hs : s.net.stepKeepAlive s.cancelled i o = some m) : Quiet n { s with net := m } := by
  unfold Net.stepKeepAlive at hs
  split at hs
  · cases hs
  · rename_i k hget
    have hk := h.keepAlives k (List.mem_of_getElem? hget)
    cases o <;> simp only [hk, Option.some.injEq, reduceCtorEq] at hs
    subst hs
    exact ⟨⟨h.loop, h.reader, fun k' hk' => h.keepAlives k' (List.mem_of_mem_eraseIdx hk'), h.closers⟩,
      h.state, h.dials⟩

/-! ### Runs -/

theorem LoopPc.leaves_filter {clients : List ℕ} {pc : LoopPc} (h : pc.leaves clients = true) (p : ℕ → Bool) :
    pc.leaves (clients.filter p) = true := by
  cases pc <;> simp_all [LoopPc.leaves]

/-- **One step** without demand keeps a stream quiet. -/
theorem Quiet.step (h : Quiet n s) {a : Act} (ha : a.isDemand = false) (hs : s.step a = some s') :
    Quiet n s' := by
  unfold Sys.step at hs
  split_ifs at hs
  cases a with
  | start => cases ha
  | addClient client => cases ha
  | destroy => cases ha
  | removeClient client =>
    cases hs
    exact ⟨⟨fun pc hpc => LoopPc.leaves_filter (h.loop pc hpc) _, h.reader, h.keepAlives, h.closers⟩, h.state, h.dials⟩
  | stop =>
    cases hs
    unfold Sys.stop
    cases ht : s.core.transition .stopping with
    | error e => exact h
    | ok c =>
      have hv := (transition_ok_iff.mp ht).1
      rw [h.state] at hv
      cases hv
  | shutdown =>
    cases hs
    exact ⟨⟨h.loop, h.reader, h.keepAlives, h.closers⟩, h.state, h.dials⟩
  | loop o =>
    obtain ⟨pc, hpc, hs⟩ := Option.bind_eq_some_iff.mp hs
    exact h.stepLoop hpc hs
  | reader o =>
    obtain ⟨pc, hpc, hs⟩ := Option.bind_eq_some_iff.mp hs
    rw [h.stepReader hpc] at hs
    cases hs
  | closer i o => exact h.stepCloser hs
  | keepAlive i o =>
    obtain ⟨m, hm, rfl⟩ := Option.map_eq_some_iff.mp hs
    exact h.stepKeepAlive hm

/-- The last step of a `Stop` on a settled stream leaves it quiet. -/
theorem quiet_of_finish {i : ℕ} {o : SendOutcome} (hset : Settled s)
    (hend : s.closers[i]? = some ⟨false, .finish⟩)
    (hd : (s.core.attempt .disconnected).state = .disconnected)
    (hs : s.step (.closer i o) = some s') : Quiet s.net.dials s' := by
  unfold Sys.step at hs
  split_ifs at hs
  simp only [Sys.stepCloser, hend] at hs
  cases hs
  refine ⟨⟨hset.loop, hset.reader, hset.keepAlives, ?_⟩, hd, rfl⟩
  exact fun k hk => hset.closers k (List.mem_of_mem_eraseIdx hk)

/-- **A stop that lasts.** In every run in which a `Stop` ends, leaves the stream
`Disconnected` and finds it settled, the stream is still `Disconnected` and the camera was
not dialled again after any further steps, as long as nobody calls `Start`, `AddClient` or
`Destroy`. -/
theorem stop_final (before after : List Act) (i : ℕ) (o : SendOutcome) (s t : Sys)
    (hs : exec Sys.step newSys before = some s)
    (ht : exec Sys.step newSys (before ++ .closer i o :: after) = some t)
    (hend : s.closers[i]? = some ⟨false, .finish⟩)
    (hd : (s.core.attempt .disconnected).state = .disconnected) (hset : Settled s)
    (hafter : ∀ a ∈ after, a.isDemand = false) :
    t.core.state = .disconnected ∧ t.net.dials = s.net.dials := by
  obtain ⟨s₀, hs₀, ht⟩ := exec_append.mp ht
  rw [hs] at hs₀
  cases hs₀
  obtain ⟨s₁, hs₁, ht⟩ := exec_cons_eq_some.mp ht
  -- the last step of `Stop` makes the stream quiet, and every further step keeps it so
  have hq : Quiet s.net.dials t := by
    have hall : AllSteps Sys.step (fun _ a => a.isDemand = false) s₁ after :=
      allSteps_of_forall hafter
    exact exec_invariant (fun _ _ _ h ha hs => Quiet.step h ha hs) after s₁ t
      (quiet_of_finish hset hend hd hs₁) hall ht
  exact ⟨hq.state, hq.dials⟩

/-- A `Stop` of a stream whose handshake has succeeded, up to its last step: it sends a TEARDOWN for the one
session, closes the connection, at which the reader ends, and stops the keep-alive. -/
def stopAtPlay : List Act :=
  [.addClient 0, .loop .next, .loop .next, .loop .next, .loop (.made true), .loop (.dialed true), .loop .next,
    .reader .next, .reader .next, .loop (.sent .ok), .reader (.message true), .reader (.setup 5), .loop (.sent .ok),
    .reader (.message true), .reader (.play 5), .reader .next, .loop .succeeded, .stop, .closer 0 .ok, .closer 0 .ok,
    .closer 0 .ok, .closer 0 .ok, .reader .fails, .closer 0 .ok, .keepAlive 0 .quit, .closer 0 .ok]

/-- The goroutines end: the loop finds that it cannot enter `Playing`. -/
def afterStopAtPlay : List Act := [.loop .next, .loop .next, .keepAlive 0 .exit, .loop .next, .stop]

theorem exec_stopAtPlay : ∃ s, exec Sys.step newSys stopAtPlay = some s ∧ s.net.remote = some 0 ∧
    s.loop = some .play ∧ s.reader = some (.done true) ∧ s.net.keepAlives = [⟨0, 0, .exiting⟩] ∧
    s.closers = [⟨false, .finish⟩] ∧ (s.core.attempt .disconnected).state = .disconnected := by
  have hrun : (exec Sys.step newSys stopAtPlay).any (fun s => decide (s.net.remote = some 0 ∧
      s.loop = some .play ∧ s.reader = some (.done true) ∧ s.net.keepAlives = [⟨0, 0, .exiting⟩] ∧
      s.closers = [⟨false, .finish⟩] ∧ (s.core.attempt .disconnected).state = .disconnected)) = true := by
    decide +kernel
  obtain ⟨s, hs, hall⟩ := (Option.any_eq_true _ _).mp hrun
  exact ⟨s, hs, of_decide_eq_true hall⟩

/-- After such a `Stop` the stream stays `Disconnected`, with a remote there, and the loop, the reader and the
keep-alive not yet gone. -/
theorem stop_final_atPlay :
    ∃ s t, exec Sys.step newSys stopAtPlay = some s ∧ s.loop = some .play ∧ s.reader = some (.done true) ∧
      s.net.remote = some 0 ∧ exec Sys.step newSys (stopAtPlay ++ .closer 0 .ok :: afterStopAtPlay) = some t ∧
      Settled s ∧ t.core.state = .disconnected ∧ t.net.dials = s.net.dials := by
  obtain ⟨s, hs, hremote, hloop, hreader, hkeep, hclosers, hd⟩ := exec_stopAtPlay
  have hrun : (exec Sys.step newSys (stopAtPlay ++ .closer 0 .ok :: afterStopAtPlay)).isSome = true := by
    decide +kernel
  obtain ⟨t, ht⟩ := Option.isSome_iff_exists.mp hrun
  have hset : Settled s := by
    refine ⟨?_, ?_, ?_, ?_⟩
    · rw [hloop]
      rintro pc ⟨⟩
      rfl
    · rw [hreader]
      rintro pc ⟨⟩
      exact .inl rfl
    · rw [hkeep]
      simp
    · rw [hclosers]
      decide
  have hfinal := stop_final stopAtPlay afterStopAtPlay 0 .ok s t hs ht (by rw [hclosers]; rfl) hd hset (by decide)
  exact ⟨s, t, hs, hloop, hreader, hremote, ht, hset, hfinal⟩

/-- A `Stop` of a stream whose loop is in its backoff after a failed dial. -/
def stopInBackoff : List Act :=
  [.addClient 0, .loop .next, .loop .next, .loop .next, .loop (.made true), .loop (.dialed false),
    .loop .next, .loop .next, .stop, .closer 0 .ok, .closer 0 .ok, .closer 0 .ok, .closer 0 .ok,
    .closer 0 .ok]

/-- **A stop that does not last**: `Stop` has returned and the stream is `Disconnected`. Then
the loop wakes up, enters `Connecting` and dials, though nobody has asked for the stream. -/
theorem stop_then_dial :
    (exec Sys.step newSys stopInBackoff).map (fun s => (s.closers, s.core.state, s.net.dials)) =
      some ([], .disconnected, 1) ∧
    (exec Sys.step newSys (stopInBackoff ++
        [.loop .next, .loop .next, .loop .next, .loop .next, .loop (.made true),
          .loop (.dialed true)])).map
      (fun t => (t.core.state, t.net.dials)) = some (.connecting, 2) := by
  decide

end RtspProxy.Lifecycle
