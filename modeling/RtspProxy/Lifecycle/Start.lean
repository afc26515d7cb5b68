import RtspProxy.Lifecycle.System

/-!
# Starts that are lost

`Start` and `AddClient` rely on the connect loop: if `loopStarted` is set they start none.
But a loop that has already decided to return clears the flag only at its very end. A call
that comes in between finds the stream `Disconnected` and the flag set, and then there is
nobody left to connect (`start_lost`).

## What is proved

* `LoopPc.comesRound` — the places from which the loop comes to `transition(StateConnecting)`.
* `NoLostStart` — a stream that is `Connecting`, or `Disconnected` with a client added
  since, has a loop that is still to look.
* `noLostStart_of_timely` — this holds in every state of every run in which each `Start`
  and `AddClient` that finds the stream `Disconnected` finds the loop gone or not yet past
  its last look, and the loop does not give up a stream that is `Connecting`.
-/

namespace RtspProxy.Lifecycle

open RtspProxy.Theory

/-- From here the loop comes to `transition(StateConnecting)` if the stream stays
`Disconnected` with a client. -/
def LoopPc.comesRound : LoopPc → Bool
  | .top | .readState | .playing | .failing | .countClients | .retry | .sleeping => true
  | .check st => !st.isStop
  | .readDone err => err
  | .ended st err => !st.isStop && err
  | _ => false

/-- A stream that somebody has asked to connect has a loop that is still to look at its
state. -/
structure NoLostStart (s : Sys) : Prop where
  /-- The stream is `Connecting`. -/
  connecting : s.core.state = .connecting → ∃ pc, s.loop = some pc ∧ pc.past = false
  /-- The stream is `Disconnected` and a client was added since it is. -/
  waiting : s.core.state = .disconnected → s.waiting ≠ [] →
    ∃ pc, s.loop = some pc ∧ pc.comesRound = true

/-- The loop's next step gives the stream up: `NewRemote` fails, or an attempt has failed and
no client is there. -/
def Sys.GivesUp (s : Sys) (o : LoopChoice) : Prop :=
  o = .made false ∨ s.loop = some .countClients ∧ s.clients = []

/-- The steps that lose no start: no call comes while the loop is past its last look, the
loop does not give up while the stream is `Connecting`, and nobody cancels the context. -/
def Timely (s : Sys) : Act → Prop
  | .start => s.core.state = .disconnected → ∀ pc ∈ s.loop, pc.past = false
  | .addClient client =>
    client ∉ s.clients → s.core.state = .disconnected → ∀ pc ∈ s.loop, pc.comesRound = true
  | .loop o => s.core.state = .connecting → ¬ s.GivesUp o
  | .destroy | .shutdown => False
  | _ => True

instance (s : Sys) : DecidablePred s.GivesUp := fun _ => inferInstanceAs (Decidable (_ ∨ _))

instance (s : Sys) : DecidablePred (Timely s) := fun a =>
  match a with
  | .start => inferInstanceAs (Decidable (_ → ∀ pc ∈ s.loop, pc.past = false))
  | .addClient _ => inferInstanceAs (Decidable (_ → _ → ∀ pc ∈ s.loop, pc.comesRound = true))
  | .loop o => inferInstanceAs (Decidable (_ → ¬ s.GivesUp o))
  | .destroy | .shutdown => isFalse id
  | .removeClient _ | .stop | .reader _ | .closer _ _ | .keepAlive _ _ => isTrue trivial

/-! ### The invariant -/

/-- What a run of timely steps keeps. -/
structure StartInv (s : Sys) : Prop extends NoLostStart s where
  /-- The flag says whether there is a loop. -/
  flag : s.loopStarted = s.loop.isSome
  /-- Nobody has cancelled the context, or is about to. -/
  live : s.cancelled = false ∧ ∀ k ∈ s.closers, k.IsStop
  /-- The reader ends without an error only when the loop has cancelled it. -/
  reader : s.reader = some (.done false) → s.readCancelled = true
  /-- Clients wait only in `Disconnected`. -/
  idle : s.core.state ≠ .disconnected → s.waiting = []
  /-- A client that waits is registered. -/
  registered : ∀ c ∈ s.waiting, c ∈ s.clients

theorem startInv_newSys : StartInv newSys where
  connecting h := by cases h
  waiting _ h := absurd rfl h
  flag := rfl
  live := ⟨rfl, by simp [newSys]⟩
  reader h := by cases h
  idle _ := rfl
  registered := by simp [newSys]

/-- A step that changes the upstream side only. -/
theorem StartInv.setNet {s : Sys} (h : StartInv s) (n : Net) : StartInv { s with net := n } :=
  ⟨⟨h.connecting, h.waiting⟩, h.flag, h.live, h.reader, h.idle, h.registered⟩

/-- The state and the loop move together: it is enough to look at the new place. -/
theorem StartInv.move {s : Sys} (h : StartInv s) {pc : LoopPc} (hpc : s.loop = some pc) (c : Core)
    (pc' : LoopPc) (hr : s.reader ≠ some (.done false))
    (h₁ : c.state = .connecting → pc'.past = false)
    (h₂ : c.state = .disconnected → s.waiting ≠ [] → pc'.comesRound = true) :
    StartInv ((s.setCore c).goto pc') where
  connecting hc := ⟨pc', rfl, h₁ hc⟩
  waiting hd hw := by
    refine ⟨pc', rfl, h₂ hd ?_⟩
    have hd' : c.state = .disconnected := hd
    simpa [Sys.goto, Sys.setCore, hd'] using hw
  flag := by
    have hf := h.flag
    rw [hpc] at hf
    exact hf
  live := h.live
  reader hc := absurd hc hr
  idle hn := if_neg hn
  registered := by
    intro x hx
    simp only [Sys.goto, Sys.setCore] at hx
    split_ifs at hx with hd
    · exact h.registered x hx
    · cases hx

/-- Setting the state and channels that are there changes nothing. -/
theorem StartInv.setCore_core {s : Sys} (h : StartInv s) : s.setCore s.core = s := by
  unfold Sys.setCore
  split_ifs with hd
  · rfl
  · rw [← h.idle hd]

theorem StartInv.goto {s : Sys} (h : StartInv s) {pc : LoopPc} (hpc : s.loop = some pc)
    (pc' : LoopPc) (hr : s.reader ≠ some (.done false))
    (h₁ : s.core.state = .connecting → pc'.past = false)
    (h₂ : s.core.state = .disconnected → s.waiting ≠ [] → pc'.comesRound = true) :
    StartInv (s.goto pc') := by
  have := h.move hpc s.core pc' hr h₁ h₂
  rwa [h.setCore_core] at this

/-- A state set outside the loop, with the loop where it is. -/
theorem StartInv.setCore {s : Sys} (h : StartInv s) (c : Core) (h₁ : c.state ≠ .connecting)
    (h₂ : c.state = .disconnected → s.core.state = .disconnected ∨ s.waiting = []) :
    StartInv (s.setCore c) where
  connecting hc := absurd hc h₁
  waiting hd hw := by
    have hd' : c.state = .disconnected := hd
    simp only [Sys.setCore, hd', if_true] at hw
    rcases h₂ hd' with hs | he
    · exact h.waiting hs hw
    · exact absurd he hw
  flag := h.flag
  live := h.live
  reader := h.reader
  idle hn := if_neg hn
  registered := by
    intro x hx
    simp only [Sys.setCore] at hx
    split_ifs at hx with hd
    · exact h.registered x hx
    · cases hx

/-! ### The loop's steps -/

theorem StartInv.takeReader {s : Sys} (h : StartInv s) : StartInv { s with reader := none } :=
  ⟨⟨h.connecting, h.waiting⟩, h.flag, h.live, (fun hr => by cases hr), h.idle, h.registered⟩

/-- The loop is past its last look only when the stream is not `Connecting`. -/
theorem StartInv.not_connecting {s : Sys} (h : StartInv s) {pc : LoopPc} (hpc : s.loop = some pc)
    (hp : pc.past = true) : s.core.state ≠ .connecting := by
  intro hc
  obtain ⟨pc', hpc', hp'⟩ := h.connecting hc
  rw [hpc] at hpc'
  cases hpc'
  rw [hp] at hp'
  cases hp'

/-- A loop that does not come round has nobody waiting. -/
theorem StartInv.not_waiting {s : Sys} (h : StartInv s) {pc : LoopPc} (hpc : s.loop = some pc)
    (hp : pc.comesRound = false) (hd : s.core.state = .disconnected) : s.waiting = [] := by
  by_contra hw
  obtain ⟨pc', hpc', hp'⟩ := h.waiting hd hw
  rw [hpc] at hpc'
  cases hpc'
  rw [hp] at hp'
  cases hp'

/-- The loop goes on where nobody waits for it. -/
theorem StartInv.goOn {s : Sys} (h : StartInv s) {pc : LoopPc} (hpc : s.loop = some pc)
    (hcr : pc.comesRound = false) (pc' : LoopPc) (hr : s.reader ≠ some (.done false))
    (h₁ : s.core.state = .connecting → pc'.past = false) : StartInv (s.goto pc') :=
  h.goto hpc pc' hr h₁ fun hd hw => absurd (h.not_waiting hpc hcr hd) hw

/-- `transition(StateConnecting)`, after the check for a stop. -/
theorem StartInv.enterConnecting {s : Sys} (h : StartInv s) {st : StreamState}
    (hpc : s.loop = some (.check st)) (hr : s.reader ≠ some (.done false)) :
    StartInv (s.enterConnecting st) := by
  unfold Sys.enterConnecting
  by_cases hst : st.isStop = true
  · rw [if_pos hst]
    exact h.goOn hpc (by simp [LoopPc.comesRound, hst]) _ hr
      fun hc => absurd hc (h.not_connecting hpc hst)
  · rw [if_neg hst]
    cases ht : s.core.transition .connecting with
    | ok c =>
      have hc := transition_state ht
      exact h.move hpc c _ hr (fun _ => rfl) fun hd => by rw [hc] at hd; cases hd
    | error e =>
      have hv : ¬ valid s.core.state .connecting = true := fun hv => by
        rw [transition_ok_iff.mpr ⟨hv, rfl⟩] at ht
        cases ht
      refine h.goto hpc _ hr (fun hc => ?_) fun hd => ?_
      · exact absurd (by rw [hc]; rfl) hv
      · exact absurd (by rw [hd]; rfl) hv

theorem StartInv.enterPlaying {s : Sys} (h : StartInv s) (hpc : s.loop = some .play)
    (hr : s.reader ≠ some (.done false)) : StartInv s.enterPlaying := by
  unfold Sys.enterPlaying
  cases ht : s.core.transition .playing with
  | ok c =>
    have hc := transition_state ht
    exact h.move hpc c _ hr (fun hc' => by rw [hc] at hc'; cases hc')
      fun hd => by rw [hc] at hd; cases hd
  | error e =>
    refine h.goOn hpc rfl _ hr fun hc => ?_
    have hv : valid s.core.state .playing = true := by rw [hc]; rfl
    rw [transition_ok_iff.mpr ⟨hv, rfl⟩] at ht
    cases ht

/-- The loop tries to enter `Reconnecting` and goes to sleep. -/
theorem StartInv.reconnect {s : Sys} (h : StartInv s) {pc : LoopPc} (hpc : s.loop = some pc)
    (hr : s.reader ≠ some (.done false)) :
    StartInv ((s.setCore (s.core.attempt .reconnecting)).goto .sleeping) :=
  h.move hpc _ _ hr (fun _ => rfl) fun _ _ => rfl

/-- The loop tries to enter `Disconnected` and returns; it was past its last look, and
nobody waits for it. -/
theorem StartInv.disconnect {s : Sys} (h : StartInv s) {pc : LoopPc} (hpc : s.loop = some pc)
    (hr : s.reader ≠ some (.done false)) (hp : pc.past = true) (hcr : pc.comesRound = false) :
    StartInv ((s.setCore (s.core.attempt .disconnected)).goto .returning) := by
  have hn := h.not_connecting hpc hp
  refine h.move hpc _ _ hr (fun hc => ?_) fun _ hw => ?_
  · rw [attempt_state] at hc
    split_ifs at hc
    exact absurd hc hn
  · by_cases hd : s.core.state = .disconnected
    · exact absurd (h.not_waiting hpc hcr hd) hw
    · exact absurd (h.idle hd) hw

/-- The loop takes the error of a reader that ended. -/
theorem StartInv.afterRead {s : Sys} (h : StartInv s) {st : StreamState} {err : Bool}
    (hpc : s.loop = some (.ended st err)) (hr : s.reader ≠ some (.done false)) :
    StartInv (s.afterRead st err) := by
  unfold Sys.afterRead
  by_cases hst : st.isStop = true
  · rw [if_pos hst]
    exact h.disconnect hpc hr (by simp [LoopPc.past, hst]) (by simp [LoopPc.comesRound, hst])
  · rw [if_neg hst]
    cases err
    · exact h.disconnect hpc hr (by simp [LoopPc.past]) (by simp [LoopPc.comesRound])
    · exact h.reconnect hpc hr

/-- The loop replaces the remote, and gives up if the host does not resolve. -/
theorem StartInv.replaceRemote {s : Sys} (h : StartInv s) (hpc : s.loop = some .newRemote)
    (hr : s.reader ≠ some (.done false)) {resolved : Bool}
    (ht : s.core.state = .connecting → ¬ s.GivesUp (.made resolved)) : StartInv (s.replaceRemote resolved) := by
  unfold Sys.replaceRemote
  have hgo : ∀ n pc', (s.core.state = .connecting → pc'.past = false) →
      StartInv ({ s with net := n }.goto pc') := fun n pc' => (h.setNet n).goOn hpc rfl pc' hr
  cases resolved with
  | true => exact hgo _ _ fun _ => rfl
  | false => exact hgo _ _ fun hc => absurd (.inl rfl) (ht hc)

/-- The loop dials, and starts the reader if it gets a connection. -/
theorem StartInv.dialRemote {s : Sys} (h : StartInv s) {r : ℕ} (hpc : s.loop = some (.dial r))
    (hr : s.reader ≠ some (.done false)) (ok : Bool) : StartInv (s.dialRemote r ok) := by
  unfold Sys.dialRemote
  dsimp only
  split
  · refine StartInv.goOn (s := { s with net := _, reader := some .start }) ?_ hpc rfl _ (by simp) fun _ => rfl
    exact ⟨⟨h.connecting, h.waiting⟩, h.flag, h.live, (fun hr => by cases hr), h.idle, h.registered⟩
  · exact (h.setNet (s.net.dialLocked r ok).1).goto hpc .countClients hr (fun _ => rfl) fun _ _ => rfl

theorem StartInv.handshake {s s' : Sys} (h : StartInv s) {r : ℕ} (hpc : s.loop = some (.handshake r))
    (hr : s.reader ≠ some (.done false)) {o : LoopChoice} (hs : s.stepLoop (.handshake r) o = some s') :
    StartInv s' := by
  have hgo : ∀ n pc', pc'.past = false → StartInv ({ s with net := n }.goto pc') := fun n pc' hp =>
    (h.setNet n).goOn hpc rfl pc' hr fun _ => hp
  cases o <;> simp only [Sys.stepLoop, Option.some.injEq, reduceCtorEq] at hs
  case sent o =>
    subst hs
    exact hgo _ _ (by split_ifs <;> rfl)
  case sdp =>
    subst hs
    refine ⟨⟨fun hc => h.connecting ?_, fun hd => h.waiting ?_⟩, h.flag, h.live, h.reader,
      fun hn => h.idle ?_, h.registered⟩
    · simpa using hc
    · simpa using hd
    · simpa using hn
  case found id =>
    split at hs <;> cases hs
    exact hgo s.net _ rfl
  case failed => subst hs; exact hgo s.net _ rfl
  case succeeded => subst hs; exact hgo s.net _ rfl

/-- The loop reads the state after its reader has ended. -/
theorem StartInv.readDone {s : Sys} (h : StartInv s) {err : Bool} (hpc : s.loop = some (.readDone err))
    (hr : s.reader ≠ some (.done false)) : StartInv (s.goto (.ended s.core.state err)) := by
  refine h.goto hpc _ hr (fun hc => ?_) fun hd hw => ?_
  · obtain ⟨pc', hpc', hp⟩ := h.connecting hc
    rw [hpc] at hpc'
    cases hpc'
    rw [hc]
    simpa [LoopPc.past, StreamState.isStop] using hp
  · obtain ⟨pc', hpc', hp⟩ := h.waiting hd hw
    rw [hpc] at hpc'
    cases hpc'
    rw [hd]
    simpa [LoopPc.comesRound, StreamState.isStop] using hp

/-- The loop counts the clients after a failure. -/
theorem StartInv.countClients {s : Sys} (h : StartInv s) (hpc : s.loop = some .countClients)
    (hr : s.reader ≠ some (.done false)) (ht : s.core.state = .connecting → s.clients.isEmpty = false) :
    StartInv (s.goto (if s.clients.isEmpty then .giveUp else .retry)) := by
  refine h.goto hpc _ hr (fun hc => ?_) fun hd hw => ?_
  · rw [ht hc]
    rfl
  · -- who waits is registered, so the loop tries again
    obtain ⟨x, hx⟩ := List.exists_mem_of_ne_nil _ hw
    have hx' := h.registered x hx
    rw [if_neg]
    · rfl
    · intro he
      simp only [List.isEmpty_iff] at he
      rw [he] at hx'
      cases hx'

/-- **One step of the loop.** -/
theorem StartInv.stepLoop {s s' : Sys} (h : StartInv s) {pc : LoopPc} (hpc : s.loop = some pc)
    {o : LoopChoice} (ht : Timely s (.loop o)) (hs : s.stepLoop pc o = some s') : StartInv s' := by
  -- only a loop that waits for the reader after cancelling it has a reader that ended so
  have hr : pc ≠ .draining → pc ≠ .failing → s.reader ≠ some (.done false) := by
    intro h₁ h₂ hd
    have := h.reader hd
    simp [Sys.readCancelled, hpc, h₁, h₂] at this
  have hcalm := h.live.1
  cases pc with
  | top =>
    cases o <;> simp only [Sys.stepLoop, hcalm, Option.some.injEq, reduceCtorEq] at hs
    subst hs
    exact h.goto hpc _ (hr (by simp) (by simp)) (fun _ => rfl) fun _ _ => rfl
  | readState =>
    cases o <;> simp only [Sys.stepLoop, Option.some.injEq, reduceCtorEq] at hs
    subst hs
    refine h.goto hpc _ (hr (by simp) (by simp)) (fun hc => ?_) fun hd _ => ?_
    · rw [hc]; rfl
    · rw [hd]; rfl
  | check st =>
    cases o <;> simp only [Sys.stepLoop, Option.some.injEq, reduceCtorEq] at hs
    subst hs
    exact h.enterConnecting hpc (hr (by simp) (by simp))
  | newRemote =>
    cases o <;> simp only [Sys.stepLoop, Option.some.injEq, reduceCtorEq] at hs
    subst hs
    exact h.replaceRemote hpc (hr (by simp) (by simp)) ht
  | dial r =>
    cases o <;> simp only [Sys.stepLoop, Option.some.injEq, reduceCtorEq] at hs
    subst hs
    exact h.dialRemote hpc (hr (by simp) (by simp)) _
  | connect =>
    cases o <;> simp only [Sys.stepLoop, reduceCtorEq] at hs
    split at hs <;> cases hs
    · exact ⟨⟨h.connecting, h.waiting⟩, h.flag, h.live, h.reader, h.idle, h.registered⟩
    · exact h.goOn hpc rfl (.handshake _) (hr (by simp) (by simp)) fun _ => rfl
  | handshake r => exact h.handshake hpc (hr (by simp) (by simp)) hs
  | starting r obj =>
    cases o <;> simp only [Sys.stepLoop, Option.some.injEq, reduceCtorEq] at hs
    subst hs
    exact (h.setNet (s.net.startUpstream obj)).goOn hpc rfl (.handshake r) (hr (by simp) (by simp)) fun _ => rfl
  | play =>
    cases o <;> simp only [Sys.stepLoop, Option.some.injEq, reduceCtorEq] at hs
    subst hs
    exact h.enterPlaying hpc (hr (by simp) (by simp))
  | playing =>
    cases o <;> simp only [Sys.stepLoop, reduceCtorEq] at hs
    split at hs <;> cases hs
    rename_i err herr
    cases err with
    | true => exact h.takeReader.goto hpc _ (by simp) (fun _ => rfl) fun _ _ => rfl
    | false => exact absurd herr (hr (by simp) (by simp))
  | readDone err =>
    cases o <;> simp only [Sys.stepLoop, Option.some.injEq, reduceCtorEq] at hs
    subst hs
    exact h.readDone hpc (hr (by simp) (by simp))
  | ended st err =>
    cases o <;> simp only [Sys.stepLoop, Option.some.injEq, reduceCtorEq] at hs
    subst hs
    exact h.afterRead hpc (hr (by simp) (by simp))
  | draining =>
    cases o <;> simp only [Sys.stepLoop, reduceCtorEq] at hs
    split at hs <;> cases hs
    exact h.takeReader.goOn hpc rfl _ (by simp) fun hc => absurd hc (h.not_connecting hpc rfl)
  | failing =>
    cases o <;> simp only [Sys.stepLoop, reduceCtorEq] at hs
    split at hs <;> cases hs
    exact h.takeReader.goto hpc _ (by simp) (fun _ => rfl) fun _ _ => rfl
  | countClients =>
    cases o <;> simp only [Sys.stepLoop, Option.some.injEq, reduceCtorEq] at hs
    subst hs
    refine h.countClients hpc (hr (by simp) (by simp)) fun hc => ?_
    by_contra he
    exact ht hc (.inr ⟨hpc, by simpa using he⟩)
  | retry =>
    cases o <;> simp only [Sys.stepLoop, Option.some.injEq, reduceCtorEq] at hs
    subst hs
    exact h.reconnect hpc (hr (by simp) (by simp))
  | giveUp =>
    cases o <;> simp only [Sys.stepLoop, Option.some.injEq, reduceCtorEq] at hs
    subst hs
    exact h.disconnect hpc (hr (by simp) (by simp)) rfl rfl
  | sleeping =>
    cases o <;> simp only [Sys.stepLoop, hcalm, Option.some.injEq, reduceCtorEq, if_false,
      Bool.false_eq_true] at hs
    subst hs
    exact h.goto hpc _ (hr (by simp) (by simp)) (fun _ => rfl) fun _ _ => rfl
  | returning =>
    cases o <;> simp only [Sys.stepLoop, Option.some.injEq, reduceCtorEq] at hs
    subst hs
    refine ⟨⟨fun hc => absurd hc (h.not_connecting hpc rfl), fun hd hw => ?_⟩, rfl, h.live,
      fun hd => absurd hd (hr (by simp) (by simp)), h.idle, h.registered⟩
    exact absurd (h.not_waiting hpc rfl hd) hw

/-! ### Calls from outside -/

/-- After `startConnectLoop` there is a loop: the old one, or a new one at its head. -/
theorem StartInv.loop_after {s : Sys} (hf : s.loopStarted = s.loop.isSome) :
    s.startConnectLoop.loopStarted = s.startConnectLoop.loop.isSome ∧
    ∃ pc, s.startConnectLoop.loop = some pc ∧ (pc ∈ s.loop ∨ pc = .top) := by
  unfold Sys.startConnectLoop
  split_ifs with hl
  · refine ⟨hf, ?_⟩
    rw [hf, Option.isSome_iff_exists] at hl
    obtain ⟨pc, hpc⟩ := hl
    exact ⟨pc, hpc, .inl hpc⟩
  · exact ⟨rfl, .top, rfl, .inr rfl⟩

/-- Starting the loop changes nothing else; a reader that was cancelled has its loop. -/
theorem StartInv.startConnectLoop_rest {s : Sys} (hf : s.loopStarted = s.loop.isSome)
    (hr : s.reader = some (.done false) → s.readCancelled = true) :
    s.startConnectLoop = { s with loopStarted := s.startConnectLoop.loopStarted,
                                  loop := s.startConnectLoop.loop } ∧
    (s.startConnectLoop.reader = some (.done false) → s.startConnectLoop.readCancelled = true) := by
  unfold Sys.startConnectLoop
  split_ifs with hl
  · exact ⟨rfl, hr⟩
  · refine ⟨rfl, fun hd => ?_⟩
    have hn : s.loop = none := by simpa [hf] using hl
    have := hr hd
    simp [Sys.readCancelled, hn] at this

theorem StartInv.start {s : Sys} (h : StartInv s) (ht : Timely s .start) : StartInv s.start := by
  unfold Sys.start
  split_ifs with hd
  · exact h
  · have hd : s.core.state = .disconnected := by simpa using hd
    have hc : (s.core.unsafeSetState .connecting).state = .connecting := by
      simp [unsafeSetState_state, hd]
    have hw : (s.setCore (s.core.unsafeSetState .connecting)).waiting = [] := by
      simp [Sys.setCore, hc]
    obtain ⟨hf, pc, hpc, hfrom⟩ :=
      StartInv.loop_after (s := s.setCore (s.core.unsafeSetState .connecting)) h.flag
    obtain ⟨hrest, hr⟩ :=
      StartInv.startConnectLoop_rest (s := s.setCore (s.core.unsafeSetState .connecting)) h.flag h.reader
    refine ⟨⟨fun _ => ⟨pc, hpc, ?_⟩, fun _ hw' => ?_⟩, hf, ?_, hr, fun _ => ?_, fun x hx => ?_⟩
    · rcases hfrom with hfrom | rfl
      · exact ht hd pc hfrom
      · rfl
    · rw [hrest] at hw'
      exact absurd hw hw'
    · rw [hrest]
      exact h.live
    · rw [hrest]
      exact hw
    · rw [hrest] at hx
      rw [show _ = [] from hw] at hx
      cases hx

theorem StartInv.addClient {s : Sys} (h : StartInv s) {client : ℕ}
    (ht : Timely s (.addClient client)) : StartInv (s.addClient client) := by
  unfold Sys.addClient
  split_ifs with hm hd
  · exact h
  · set s₁ : Sys := { s with clients := client :: s.clients, waiting := client :: s.waiting } with hs₁
    obtain ⟨hf, pc, hpc, hfrom⟩ := StartInv.loop_after (s := s₁) h.flag
    obtain ⟨hrest, hr⟩ := StartInv.startConnectLoop_rest (s := s₁) h.flag h.reader
    refine ⟨⟨fun hc => ?_, fun _ _ => ⟨pc, hpc, ?_⟩⟩, hf, ?_, hr, fun hn => ?_, ?_⟩
    · rw [hrest] at hc
      rw [show s₁.core.state = .disconnected from hd] at hc
      cases hc
    · rcases hfrom with hfrom | rfl
      · exact ht hm hd pc hfrom
      · rfl
    · rw [hrest]
      exact h.live
    · rw [hrest] at hn
      exact absurd hd hn
    · rw [hrest]
      intro x hx
      rcases List.mem_cons.mp hx with rfl | hx
      · exact List.mem_cons_self
      · exact List.mem_cons_of_mem _ (h.registered x hx)
  · exact ⟨⟨h.connecting, h.waiting⟩, h.flag, h.live, h.reader, h.idle,
      fun x hx => List.mem_cons_of_mem _ (h.registered x hx)⟩

theorem StartInv.removeClient {s : Sys} (h : StartInv s) (client : ℕ) :
    StartInv (s.removeClient client) := by
  refine ⟨⟨h.connecting, fun hd hw => h.waiting hd fun he => hw ?_⟩, h.flag, h.live, h.reader,
    fun hn => ?_, fun x hx => ?_⟩
  · simp [Sys.removeClient, he]
  · simp [Sys.removeClient, h.idle hn]
  · simp only [Sys.removeClient, List.mem_filter] at hx ⊢
    exact ⟨h.registered x hx.1, hx.2⟩

theorem StartInv.stop {s : Sys} (h : StartInv s) : StartInv s.stop := by
  unfold Sys.stop
  cases ht : s.core.transition .stopping with
  | error e => exact h
  | ok c =>
    have hc := transition_state ht
    have h' := h.setCore c (by simp [hc]) (by simp [hc])
    refine ⟨⟨h'.connecting, h'.waiting⟩, h'.flag, ⟨h'.live.1, ?_⟩, h'.reader, h'.idle, h'.registered⟩
    intro k hk
    rcases List.mem_append.mp hk with hk | hk
    · exact h'.live.2 k hk
    · cases List.mem_singleton.mp hk
      exact ⟨rfl, by simp⟩

/-! ### Runs -/

/-- **One timely step.** -/
theorem StartInv.step {s s' : Sys} {a : Act} (h : StartInv s) (ht : Timely s a)
    (hs : s.step a = some s') : StartInv s' := by
  cases a with
  | keepAlive i o =>
    obtain ⟨n, rfl⟩ := step_keepAlive hs
    exact h.setNet n
  | destroy => exact ht.elim
  | shutdown => exact ht.elim
  | loop o =>
    unfold Sys.step at hs
    split_ifs at hs
    obtain ⟨pc, hpc, hs⟩ := Option.bind_eq_some_iff.mp hs
    exact h.stepLoop hpc ht hs
  | reader o =>
    unfold Sys.step at hs
    split_ifs at hs
    obtain ⟨pc, hpc, hs⟩ := Option.bind_eq_some_iff.mp hs
    obtain ⟨pc', n, b, rfl, hd⟩ := stepReader_spec hpc hs
    refine ⟨⟨h.connecting, h.waiting⟩, h.flag, h.live, fun hr => ?_, h.idle, h.registered⟩
    cases hr
    rcases hd rfl with hc | hc
    · rw [h.live.1] at hc
      cases hc
    · exact hc
  | closer i o =>
    unfold Sys.step at hs
    split_ifs at hs
    obtain ⟨n, cs, hcs, rfl | rfl⟩ := stepCloser_spec h.live.2 hs
    · exact ⟨⟨h.connecting, h.waiting⟩, h.flag, ⟨h.live.1, hcs⟩, h.reader, h.idle, h.registered⟩
    · by_cases hv : valid s.core.state .disconnected = true
      · -- the stream becomes `Disconnected`, from a state in which nobody waits
        have hst : (s.core.attempt .disconnected).state = .disconnected := by
          rw [attempt_state, if_pos hv]
        have hw : s.waiting = [] := h.idle fun hd => by
          rw [hd] at hv
          cases hv
        have h' := h.setCore (s.core.attempt .disconnected) (by simp [hst]) fun _ => .inr hw
        exact ⟨⟨h'.connecting, h'.waiting⟩, h'.flag, ⟨h'.live.1, hcs⟩, h'.reader, h'.idle, h'.registered⟩
      · rw [attempt_of_not_valid hv, h.setCore_core]
        exact ⟨⟨h.connecting, h.waiting⟩, h.flag, ⟨h.live.1, hcs⟩, h.reader, h.idle, h.registered⟩
  | _ =>
    unfold Sys.step at hs
    split_ifs at hs
    cases hs
    first
      | exact h.start ht
      | exact h.addClient ht
      | exact h.removeClient _
      | exact h.stop

/-- **No start is lost in a timely run**: whatever the order in which calls, the loop, the
reader and the keep-alives take their steps, a stream that somebody has asked to connect has
a loop that is still to look at its state. -/
theorem noLostStart_of_timely (as : List Act) (t : Sys) (hc : AllSteps Sys.step Timely newSys as)
    (h : exec Sys.step newSys as = some t) : NoLostStart t :=
  (exec_invariant (fun _ _ _ hi ht hs => StartInv.step hi ht hs) as newSys t startInv_newSys hc h).toNoLostStart

/-- `Stop` takes effect while the loop is about to read the state. -/
def stopRun : List Act :=
  [.start, .loop .next, .stop, .loop .next, .loop .next, .closer 0 .ok, .closer 0 .ok, .closer 0 .ok]

/-- A run with a `Stop` in which the second `Start` comes after the loop is gone. -/
theorem noLostStart_of_timely_after_stop :
    AllSteps Sys.step Timely newSys (stopRun ++ [.loop .next, .start]) ∧
    ∃ t, exec Sys.step newSys (stopRun ++ [.loop .next, .start]) = some t ∧ NoLostStart t :=
  ⟨by decide, _, rfl, noLostStart_of_timely (stopRun ++ [.loop .next, .start]) _ (by decide) rfl⟩

/-- **A start is lost**: the same run with the second `Start` just before the loop clears
`loopStarted`. The stream is `Connecting` and no connect loop is left. -/
theorem start_lost :
    ∃ t, exec Sys.step newSys (stopRun ++ [.start, .loop .next]) = some t ∧
      t.core.state = .connecting ∧ t.loop = none ∧ t.loopStarted = false ∧ ¬ NoLostStart t := by
  refine ⟨_, rfl, rfl, rfl, rfl, fun h => ?_⟩
  obtain ⟨pc, hpc, -⟩ := h.connecting rfl
  cases hpc

end RtspProxy.Lifecycle
