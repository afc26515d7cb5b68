import RtspProxy.Lifecycle.State

/-!
# The connect loop on its own

`Stream.connectLoop` with nobody interfering: no `Stop`, no `Destroy`, no cancelled
context. What happens then depends on the outcomes of the calls the loop makes and on the
number of registered clients it counts after a failure; an `Attempt` has these for one
time round the loop.

Every way out of the loop sets the state with `s.transition(StateDisconnected)` and
ignores the error. After a failed attempt the stream is `Connecting`, after a reader that
ended without an error it is `Playing`, and neither may become `Disconnected`
(`TestStreamStateTransitions` checks the first of the two). So the loop leaves the stream
in a state in which `Start` and `AddClient` start nothing: `connectLoop_disconnected_iff`.
-/

namespace RtspProxy.Lifecycle

/-- The outcome of `doConnectSequence`. -/
inductive Handshake where
  /-- It failed before the SDP was there. -/
  | failedBeforeSdp
  /-- It failed after the SDP was there. -/
  | failedAfterSdp
  /-- It succeeded. -/
  | ok
  deriving DecidableEq, Repr

/-- The outcomes of one time round the connect loop. -/
structure Attempt where
  /-- `NewRemote` returned a remote. -/
  newRemote : Bool
  /-- `remote.Dial()` succeeded. -/
  dial : Bool
  /-- The outcome of `doConnectSequence`. -/
  handshake : Handshake
  /-- `readLoop` returned an error. -/
  readErr : Bool
  /-- `len(s.clients)` as counted after a failure. -/
  numClients : ℕ
  deriving DecidableEq, Repr

/-- Where the connect loop is after some attempts. -/
inductive LoopEnd where
  /-- It goes round again. -/
  | running (c : Core)
  | returned (c : Core)
  deriving DecidableEq, Repr

/-- After a failed dial or handshake: give up if nobody is there, else try again. -/
def afterFailure (c : Core) (numClients : ℕ) : LoopEnd :=
  if numClients = 0 then .returned (c.attempt .disconnected) else .running (c.attempt .reconnecting)

/-- After `doConnectSequence` succeeded: play until the reader ends. -/
def afterHandshake (c : Core) (readErr : Bool) : LoopEnd :=
  match c.transition .playing with
  | .error _ => .returned c
  | .ok c =>
    if c.state.isStop then .returned (c.attempt .disconnected)
    else if readErr then .running (c.attempt .reconnecting)
    else .returned (c.attempt .disconnected)

/-- Once round the loop of `Stream.connectLoop`. -/
def loopBody (c : Core) (a : Attempt) : LoopEnd :=
  if c.state.isStop then .returned c
  else match c.transition .connecting with
    | .error _ => .returned c
    | .ok c =>
      if !a.newRemote then .returned (c.attempt .disconnected)
      else if a.dial then
        match a.handshake with
        | .ok => afterHandshake c.sdpReady a.readErr
        | .failedAfterSdp => afterFailure c.sdpReady a.numClients
        | .failedBeforeSdp => afterFailure c a.numClients
      else afterFailure c a.numClients

/-- `Stream.connectLoop` through the given attempts. -/
def connectLoop : Core → List Attempt → LoopEnd
  | c, [] => .running c
  | c, a :: as =>
    match loopBody c a with
    | .running c' => connectLoop c' as
    | .returned c' => .returned c'

/-- An attempt that ends the loop: no remote, a failure with no client registered, or a
reader that ended without an error. -/
def Attempt.Ends (a : Attempt) : Prop :=
  a.newRemote = false ∨
  (a.dial = false ∨ a.handshake ≠ .ok) ∧ a.numClients = 0 ∨
  a.dial = true ∧ a.handshake = .ok ∧ a.readErr = false

instance : DecidablePred Attempt.Ends := fun _ => inferInstanceAs (Decidable (_ ∨ _ ∨ _))

/-- The states in which the loop goes round. -/
def StreamState.Loops (st : StreamState) : Prop :=
  st = .disconnected ∨ st = .connecting ∨ st = .reconnecting

/-! ### One time round -/

theorem afterFailure_spec {c : Core} (hc : c.state = .connecting) (n : ℕ) :
    (n = 0 ∧ ∃ c', afterFailure c n = .returned c' ∧ c'.state = .connecting) ∨
    (n ≠ 0 ∧ ∃ c', afterFailure c n = .running c' ∧ c'.state = .reconnecting) := by
  unfold afterFailure
  by_cases hn : n = 0
  · left
    refine ⟨hn, _, if_pos hn, ?_⟩
    rw [attempt_state, hc]
    rfl
  · right
    refine ⟨hn, _, if_neg hn, ?_⟩
    rw [attempt_state, hc]
    rfl

theorem afterHandshake_spec {c : Core} (hc : c.state = .connecting) (e : Bool) :
    (e = false ∧ ∃ c', afterHandshake c e = .returned c' ∧ c'.state = .playing) ∨
    (e = true ∧ ∃ c', afterHandshake c e = .running c' ∧ c'.state = .reconnecting) := by
  have hv : valid c.state .playing = true := by rw [hc]; rfl
  have ht : c.transition .playing = .ok (c.unsafeSetState .playing) :=
    transition_ok_iff.mpr ⟨hv, rfl⟩
  have hs : (c.unsafeSetState .playing).state = .playing := transition_state ht
  unfold afterHandshake
  rw [ht]
  simp only [hs, StreamState.isStop, Bool.false_eq_true, if_false]
  cases e
  · left
    refine ⟨rfl, _, if_neg (by simp), ?_⟩
    rw [attempt_state, hs]
    rfl
  · right
    refine ⟨rfl, _, if_pos rfl, ?_⟩
    rw [attempt_state, hs]
    rfl

/-- **Once round**: an attempt that ends the loop leaves the stream `Connecting` or
`Playing`; after any other the stream is `Reconnecting` and the loop goes on. -/
theorem loopBody_spec {c : Core} (hc : c.state.Loops) (a : Attempt) :
    (a.Ends ∧ ∃ c', loopBody c a = .returned c' ∧ (c'.state = .connecting ∨ c'.state = .playing)) ∨
    (¬ a.Ends ∧ ∃ c', loopBody c a = .running c' ∧ c'.state.Loops) := by
  have hstop : c.state.isStop = false := by rcases hc with h | h | h <;> rw [h] <;> rfl
  have hv : valid c.state .connecting = true := by rcases hc with h | h | h <;> rw [h] <;> rfl
  have ht : c.transition .connecting = .ok (c.unsafeSetState .connecting) :=
    transition_ok_iff.mpr ⟨hv, rfl⟩
  have hs : (c.unsafeSetState .connecting).state = .connecting := transition_state ht
  have hsdp : (c.unsafeSetState .connecting).sdpReady.state = .connecting := by simp [hs]
  obtain ⟨nr, d, hk, re, n⟩ := a
  simp only [loopBody, hstop, Bool.false_eq_true, if_false, ht, Attempt.Ends]
  have hfail : ∀ c₁ : Core, c₁.state = .connecting →
      (n = 0 ∧ ∃ c', afterFailure c₁ n = .returned c' ∧ (c'.state = .connecting ∨ c'.state = .playing)) ∨
      (n ≠ 0 ∧ ∃ c', afterFailure c₁ n = .running c' ∧ c'.state.Loops) := by
    intro c₁ h₁
    rcases afterFailure_spec h₁ n with ⟨hn, c', he, hc'⟩ | ⟨hn, c', he, hc'⟩
    · exact .inl ⟨hn, c', he, .inl hc'⟩
    · exact .inr ⟨hn, c', he, .inr (.inr hc')⟩
  cases nr with
  | false =>
    left
    refine ⟨.inl rfl, _, rfl, .inl ?_⟩
    rw [attempt_state, hs]
    rfl
  | true =>
    cases d with
    | false =>
      rcases hfail _ hs with ⟨hn, h⟩ | ⟨hn, h⟩
      · exact .inl ⟨by simp [hn], by simpa using h⟩
      · exact .inr ⟨by simp [hn], by simpa using h⟩
    | true =>
      cases hk with
      | ok =>
        rcases afterHandshake_spec hsdp re with ⟨hr, c', he, hc'⟩ | ⟨hr, c', he, hc'⟩
        · exact .inl ⟨by simp [hr], c', by simpa using he, .inr hc'⟩
        · exact .inr ⟨by simp [hr], c', by simpa using he, .inr (.inr hc')⟩
      | failedBeforeSdp =>
        rcases hfail _ hs with ⟨hn, h⟩ | ⟨hn, h⟩
        · exact .inl ⟨by simp [hn], by simpa using h⟩
        · exact .inr ⟨by simp [hn], by simpa using h⟩
      | failedAfterSdp =>
        rcases hfail _ hsdp with ⟨hn, h⟩ | ⟨hn, h⟩
        · exact .inl ⟨by simp [hn], by simpa using h⟩
        · exact .inr ⟨by simp [hn], by simpa using h⟩

/-! ### The whole loop -/

/-- The loop returns exactly when an attempt ends it, and then the stream is `Connecting`
or `Playing`. -/
theorem connectLoop_spec : ∀ (as : List Attempt) (c : Core), c.state.Loops →
    ((∃ a ∈ as, a.Ends) ∧
      ∃ c', connectLoop c as = .returned c' ∧ (c'.state = .connecting ∨ c'.state = .playing)) ∨
    ((∀ a ∈ as, ¬ a.Ends) ∧ ∃ c', connectLoop c as = .running c') := by
  intro as
  induction as with
  | nil => intro c _; exact .inr ⟨by simp, c, rfl⟩
  | cons a as ih =>
    intro c hc
    rcases loopBody_spec hc a with ⟨ha, c', he, hc'⟩ | ⟨ha, c', he, hc'⟩
    · exact .inl ⟨⟨a, List.mem_cons_self .., ha⟩, c', by simp [connectLoop, he], hc'⟩
    · have hstep : connectLoop c (a :: as) = connectLoop c' as := by simp [connectLoop, he]
      rw [hstep]
      rcases ih c' hc' with ⟨⟨b, hb, hbe⟩, h⟩ | ⟨hall, h⟩
      · exact .inl ⟨⟨b, List.mem_cons_of_mem _ hb, hbe⟩, h⟩
      · exact .inr ⟨List.forall_mem_cons.mpr ⟨ha, hall⟩, h⟩

/-- **The connect loop never hands the stream back.** It is started while the stream is
`Disconnected` (`AddClient`) or `Connecting` (`Start`). That the stream is `Disconnected`
whenever the loop returns holds exactly when no attempt ends the loop, that is, when the
loop does not return. -/
theorem connectLoop_disconnected_iff (c : Core)
    (hc : c.state = .disconnected ∨ c.state = .connecting) (as : List Attempt) :
    (∀ c', connectLoop c as = .returned c' → c'.state = .disconnected) ↔ ∀ a ∈ as, ¬ a.Ends := by
  have hl : c.state.Loops := hc.elim .inl (fun h => .inr (.inl h))
  rcases connectLoop_spec as c hl with ⟨⟨a, ha, hend⟩, c', he, hst⟩ | ⟨hall, c', he⟩
  · constructor
    · intro h
      have := h c' he
      rcases hst with hst | hst <;> rw [hst] at this <;> cases this
    · intro h
      exact absurd hend (h a ha)
  · refine ⟨fun _ => hall, fun _ c'' h => ?_⟩
    rw [he] at h
    cases h

/-- A stream with a client that is lost, seen by the loop: two attempts, the first with the
client still there. -/
theorem connectLoop_disconnected_iff_running :
    (newCore.state = .disconnected ∨ newCore.state = .connecting) ∧
    ∀ c', connectLoop newCore [⟨true, false, .ok, true, 1⟩, ⟨true, true, .ok, true, 0⟩] = .returned c' →
      c'.state = .disconnected :=
  ⟨.inl rfl, (connectLoop_disconnected_iff newCore (.inl rfl) _).mpr (by decide)⟩

/-- **A dead stream**: `Start`, then a dial that fails with no client registered. The loop
returns, and the stream stays `Connecting`. -/
theorem connectLoop_dead_after_dial :
    connectLoop (newCore.unsafeSetState .connecting) [⟨true, false, .ok, true, 0⟩] =
      .returned (newCore.unsafeSetState .connecting) ∧
    (newCore.unsafeSetState .connecting).state ≠ .disconnected := by
  decide

end RtspProxy.Lifecycle
