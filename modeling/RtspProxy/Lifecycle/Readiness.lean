import RtspProxy.Lifecycle.Effect

/-!
# The readiness channels

Clients wait for a stream on the two channels that `ReadyCh` and `SDPReadyCh` return. The channels are
closed and renewed in five places: when a connection attempt begins (the old waiters are released), when
the stream enters `Playing`, when it is destroyed, and when the SDP is there; `Start` enters `Connecting`
without asking the table.

## The model

`CoreEffect` says what entering a state does to the channels. A `ReadyOp` is one of the operations of a
stream that touch the state or the channels, and `Readiness` has, with the state and the channels, those
that were ever handed out. `closed` gets a channel each time one is closed, so that a channel closed
twice would be there twice.

## What is proved

* `Core.Good` — what holds of the channels, and `Core.Follows` — what no operation undoes.
* `readiness` — no channel is closed twice, a channel handed out is the current one or closed, the
  channels are closed and open as the state says, the state moves along the table, and `Destroyed` stays.
* `core_good_of_run` — the same channels in every run of the whole stream.
-/

namespace RtspProxy.Lifecycle

open Theory

/-! ### What entering a state does -/

/-- The effects of an attempt to enter a state. -/
inductive CoreEffect (c : Core) : StreamState → Core → Prop
  /-- The table does not allow it, or the stream is there already. -/
  | same {target : StreamState} : CoreEffect c target c
  /-- A new connection attempt: the old waiters are released and the channels renewed. -/
  | supersede : c.state = .disconnected ∨ c.state = .reconnecting →
      CoreEffect c .connecting { c.closeBoth.renew with state := .connecting }
  /-- The stream plays. -/
  | play : valid c.state .playing = true → CoreEffect c .playing { c.closeCh c.readyCh with state := .playing }
  /-- The stream is destroyed. -/
  | destroy : valid c.state .destroyed = true → CoreEffect c .destroyed { c.closeBoth with state := .destroyed }
  /-- Another state, which does not touch the channels. -/
  | move {target : StreamState} : valid c.state target = true → target ≠ .connecting → target ≠ .playing →
      target ≠ .destroyed → CoreEffect c target { c with state := target }

variable {c c' : Core} {target : StreamState}

@[simp] theorem closeCh_readyCh (c : Core) (ch : ℕ) : (c.closeCh ch).readyCh = c.readyCh := by
  unfold Core.closeCh; split <;> rfl

@[simp] theorem closeCh_sdpReadyCh (c : Core) (ch : ℕ) : (c.closeCh ch).sdpReadyCh = c.sdpReadyCh := by
  unfold Core.closeCh; split <;> rfl

@[simp] theorem closeCh_nextCh (c : Core) (ch : ℕ) : (c.closeCh ch).nextCh = c.nextCh := by
  unfold Core.closeCh; split <;> rfl

@[simp] theorem mem_closeCh (c : Core) (ch x : ℕ) : x ∈ (c.closeCh ch).closed ↔ x = ch ∨ x ∈ c.closed := by
  unfold Core.closeCh
  split_ifs with h
  · constructor
    · exact .inr
    · rintro (rfl | hx)
      · exact h
      · exact hx
  · exact List.mem_cons

theorem closeCh_nodup (h : c.closed.Nodup) (ch : ℕ) : (c.closeCh ch).closed.Nodup := by
  unfold Core.closeCh
  split_ifs with hch
  · exact h
  · exact List.nodup_cons.mpr ⟨hch, h⟩

theorem closeCh_setState (c : Core) (ch : ℕ) (st : StreamState) :
    Core.closeCh { c with state := st } ch = { c.closeCh ch with state := st } := by
  unfold Core.closeCh
  split_ifs <;> rfl

theorem closeBoth_setState (c : Core) (st : StreamState) :
    Core.closeBoth { c with state := st } = { c.closeBoth with state := st } := by
  show Core.closeCh (Core.closeCh { c with state := st } c.readyCh) c.sdpReadyCh = _
  rw [closeCh_setState c, closeCh_setState (c.closeCh c.readyCh)]
  rfl

theorem unsafeSetState_effect (h : valid c.state target = true) : CoreEffect c target (c.unsafeSetState target) := by
  have hd : c.state ≠ .destroyed := by
    intro hd
    rw [hd] at h
    cases h
  unfold Core.unsafeSetState
  rw [if_neg hd]
  by_cases he : c.state = target
  · rw [if_pos he]
    exact .same
  · rw [if_neg he]
    cases target with
    | connecting =>
      have hfrom : c.state = .disconnected ∨ c.state = .reconnecting := by
        cases hst : c.state <;> simp [hst, valid] at h he ⊢
      simpa [hfrom] using CoreEffect.supersede hfrom
    | playing => simpa using CoreEffect.play h
    | destroyed =>
      simp only [reduceCtorEq, and_false, if_false, if_true, closeBoth_setState]
      exact .destroy h
    | disconnected => simpa using CoreEffect.move h (by simp) (by simp) (by simp)
    | ready => simpa using CoreEffect.move h (by simp) (by simp) (by simp)
    | reconnecting => simpa using CoreEffect.move h (by simp) (by simp) (by simp)
    | stopping => simpa using CoreEffect.move h (by simp) (by simp) (by simp)

theorem attempt_effect (c : Core) (target : StreamState) : CoreEffect c target (c.attempt target) := by
  by_cases h : valid c.state target = true
  · rw [attempt_of_ok (transition_ok_iff.mpr ⟨h, rfl⟩)]
    exact unsafeSetState_effect h
  · rw [attempt_of_not_valid h]
    exact .same

/-- `Start`, as far as the state and the channels go. -/
def Core.start (c : Core) : Core := if c.state ≠ .disconnected then c else c.unsafeSetState .connecting

theorem start_coreEffect (c : Core) : CoreEffect c .connecting c.start := by
  unfold Core.start
  split_ifs with hd
  · exact .same
  · apply unsafeSetState_effect
    rw [not_not.mp hd]
    rfl

/-! ### What holds of the channels -/

/-- What holds of the channels, whatever the state. -/
structure Core.Sound (c : Core) : Prop where
  /-- No channel was closed twice. -/
  once : c.closed.Nodup
  /-- The channels there are were made. -/
  fresh : ∀ ch, ch = c.readyCh ∨ ch = c.sdpReadyCh ∨ ch ∈ c.closed → ch < c.nextCh
  /-- The two channels are two. -/
  apart : c.sdpReadyCh ≠ c.readyCh

/-- What holds of the state and the channels. -/
structure Core.Good (c : Core) : Prop extends c.Sound where
  /-- In `Playing` the stream is ready. -/
  playing : c.state = .playing → c.readyCh ∈ c.closed
  /-- In `Connecting` it is not. -/
  connecting : c.state = .connecting → c.readyCh ∉ c.closed
  /-- In `Destroyed` nobody waits. -/
  destroyed : c.state = .destroyed → c.readyCh ∈ c.closed ∧ c.sdpReadyCh ∈ c.closed

/-- What no operation undoes. -/
structure Core.Follows (c c' : Core) : Prop where
  /-- A closed channel stays closed. -/
  closed : ∀ ch ∈ c.closed, ch ∈ c'.closed
  /-- A `readyCh` that is replaced is closed. -/
  ready : c'.readyCh = c.readyCh ∨ c.readyCh ∈ c'.closed
  /-- A `sdpReadyCh` that is replaced is closed. -/
  sdp : c'.sdpReadyCh = c.sdpReadyCh ∨ c.sdpReadyCh ∈ c'.closed
  /-- The state moves along the table. -/
  state : c'.state ≠ c.state → valid c.state c'.state = true

theorem Core.Follows.refl (c : Core) : c.Follows c := ⟨fun _ h => h, .inl rfl, .inl rfl, fun h => absurd rfl h⟩

theorem Core.Follows.destroyed (h : c.Follows c') (hc : c.state = .destroyed) : c'.state = .destroyed := by
  by_contra hne
  have hv := h.state (by rw [hc]; exact hne)
  rw [hc] at hv
  cases hv

theorem newCore_good : newCore.Good := by
  refine ⟨⟨?_, ?_, ?_⟩, ?_, ?_, ?_⟩ <;> simp [newCore]

theorem Core.Sound.setState (h : c.Sound) (st : StreamState) : Core.Sound { c with state := st } :=
  ⟨h.once, h.fresh, h.apart⟩

theorem Core.Sound.closeCh (h : c.Sound) {ch : ℕ} (hch : ch = c.readyCh ∨ ch = c.sdpReadyCh) :
    (c.closeCh ch).Sound := by
  refine ⟨closeCh_nodup h.once ch, ?_, by simpa using h.apart⟩
  intro x hx
  simp only [closeCh_readyCh, closeCh_sdpReadyCh, mem_closeCh, closeCh_nextCh] at hx ⊢
  apply h.fresh
  rcases hx with hx | hx | rfl | hx
  · exact .inl hx
  · exact .inr (.inl hx)
  · exact hch.imp_right .inl
  · exact .inr (.inr hx)

theorem Core.Sound.closeBoth (h : c.Sound) : c.closeBoth.Sound :=
  (h.closeCh (.inl rfl)).closeCh (.inr (closeCh_sdpReadyCh c _).symm)

theorem Core.Sound.renew (h : c.Sound) : c.renew.Sound := by
  refine ⟨h.once, ?_, Nat.succ_ne_self _⟩
  intro x hx
  show x < c.nextCh + 2
  rcases hx with rfl | rfl | hx
  · exact Nat.lt_add_of_pos_right Nat.two_pos
  · exact Nat.lt_succ_self _
  · have := h.fresh x (.inr (.inr hx))
    omega

theorem CoreEffect.follows (h : CoreEffect c target c') : c.Follows c' := by
  cases h with
  | same => exact .refl c
  | supersede hfrom =>
    refine ⟨fun ch hch => ?_, .inr ?_, .inr ?_, fun _ => ?_⟩
    · simp [Core.renew, Core.closeBoth, hch]
    · simp [Core.renew, Core.closeBoth]
    · simp [Core.renew, Core.closeBoth]
    · rcases hfrom with h | h <;> rw [h] <;> rfl
  | play hv => exact ⟨fun ch hch => by simp [hch], .inl (by simp), .inl (by simp), fun _ => hv⟩
  | destroy hv =>
    exact ⟨fun ch hch => by simp [Core.closeBoth, hch], .inl (by simp [Core.closeBoth]),
      .inl (by simp [Core.closeBoth]), fun _ => hv⟩
  | move hv => exact ⟨fun _ h => h, .inl rfl, .inl rfl, fun _ => hv⟩

theorem CoreEffect.good (h : CoreEffect c target c') (hc : c.Good) : c'.Good := by
  cases h with
  | same => exact hc
  | supersede hfrom =>
    refine ⟨hc.closeBoth.renew.setState _, by simp, ?_, by simp⟩
    intro _ hmem
    exact Nat.lt_irrefl _ (hc.closeBoth.fresh _ (.inr (.inr hmem)))
  | play hv => exact ⟨(hc.closeCh (.inl rfl)).setState _, by simp, by simp, by simp⟩
  | destroy hv => exact ⟨hc.closeBoth.setState _, by simp, by simp, by simp [Core.closeBoth]⟩
  | move hv h₁ h₂ h₃ =>
    exact ⟨hc.setState _, fun h => absurd h h₂, fun h => absurd h h₁, fun h => absurd h h₃⟩

/-- Another attempt to enter a state than that of a new connection keeps the channel for the SDP. -/
theorem CoreEffect.sdpReadyCh_eq (h : CoreEffect c target c') : c'.sdpReadyCh = c.sdpReadyCh ∨
    target = .connecting ∧ (c.state = .disconnected ∨ c.state = .reconnecting) := by
  cases h with
  | same => exact .inl rfl
  | supersede hfrom => exact .inr ⟨rfl, hfrom⟩
  | play _ => exact .inl (by simp)
  | destroy _ => exact .inl (by simp [Core.closeBoth])
  | move => exact .inl rfl

/-- No attempt to enter a state leaves a current channel for the SDP that it has closed, except to destroy
the stream. -/
theorem CoreEffect.sdpReadyCh_closed (h : CoreEffect c target c') (hc : c.Good) (hclosed : c'.sdpReadyCh ∈ c'.closed) :
    c'.state = .destroyed ∨ c.sdpReadyCh ∈ c.closed := by
  cases h with
  | same => exact .inr hclosed
  | supersede hfrom =>
    have hold : c.nextCh + 1 = c.sdpReadyCh ∨ c.nextCh + 1 = c.readyCh ∨ c.nextCh + 1 ∈ c.closed := by
      simpa [Core.renew, Core.closeBoth] using hclosed
    have := hc.fresh (c.nextCh + 1) (by tauto)
    omega
  | play _ => exact .inr (by simpa [hc.apart] using hclosed)
  | destroy _ => exact .inl rfl
  | move => exact .inr hclosed

theorem sdpReady_follows (c : Core) : c.Follows c.sdpReady :=
  ⟨fun ch hch => by simp [Core.sdpReady, hch], .inl (by simp [Core.sdpReady]), .inl (by simp [Core.sdpReady]),
    fun h => absurd (sdpReady_state c) h⟩

theorem Core.Good.sdpReady (hc : c.Good) : c.sdpReady.Good := by
  refine ⟨hc.closeCh (.inr rfl), ?_, ?_, ?_⟩
  · intro h
    simp [Core.sdpReady, hc.playing (by simpa using h)]
  · intro h
    simp [Core.sdpReady, hc.connecting (by simpa using h), hc.apart.symm]
  · intro h
    simp [Core.sdpReady, (hc.destroyed (by simpa using h)).1]

/-! ### Runs of the operations -/

/-- An operation that touches the state or the channels, or hands out a channel. -/
inductive ReadyOp where
  | transition (target : StreamState)
  | start
  /-- The SDP-ready step of `doConnectSequence`. -/
  | sdpReady
  | destroy
  | readyCh
  | sdpReadyCh
  deriving DecidableEq, Repr

/-- A stream's state and channels, and the channels handed out. -/
structure Readiness where
  /-- The state and the channels. -/
  core : Core
  /-- What `ReadyCh` has returned. -/
  readyGiven : List ℕ
  /-- What `SDPReadyCh` has returned. -/
  sdpGiven : List ℕ
  deriving DecidableEq, Repr

/-- `NewStream`. -/
def newReadiness : Readiness := ⟨newCore, [], []⟩

/-- An operation. -/
def Readiness.apply (s : Readiness) : ReadyOp → Readiness
  | .transition target => { s with core := s.core.attempt target }
  | .start => { s with core := s.core.start }
  | .sdpReady => { s with core := s.core.sdpReady }
  | .destroy => { s with core := s.core.attempt .destroyed }
  | .readyCh => { s with readyGiven := s.core.readyCh :: s.readyGiven }
  | .sdpReadyCh => { s with sdpGiven := s.core.sdpReadyCh :: s.sdpGiven }

/-- The stream after some operations. -/
def Readiness.run (s : Readiness) (ops : List ReadyOp) : Readiness := ops.foldl Readiness.apply s

/-- The channels are as their users expect. -/
structure Readiness.Ok (s : Readiness) : Prop extends s.core.Good where
  /-- A channel that `ReadyCh` has returned is the current one or closed. -/
  readyKept : ∀ ch ∈ s.readyGiven, ch = s.core.readyCh ∨ ch ∈ s.core.closed
  /-- A channel that `SDPReadyCh` has returned is the current one or closed. -/
  sdpKept : ∀ ch ∈ s.sdpGiven, ch = s.core.sdpReadyCh ∨ ch ∈ s.core.closed

variable {s : Readiness}

/-- An operation changes the state and the channels as `Follows` says, and keeps them good. -/
theorem apply_core (s : Readiness) (op : ReadyOp) : s.core.Follows (s.apply op).core ∧
    (s.core.Good → (s.apply op).core.Good) := by
  cases op with
  | transition target => exact ⟨(attempt_effect _ _).follows, (attempt_effect _ _).good⟩
  | start => exact ⟨(start_coreEffect _).follows, (start_coreEffect _).good⟩
  | sdpReady => exact ⟨sdpReady_follows _, Core.Good.sdpReady⟩
  | destroy => exact ⟨(attempt_effect _ _).follows, (attempt_effect _ _).good⟩
  | readyCh => exact ⟨.refl _, id⟩
  | sdpReadyCh => exact ⟨.refl _, id⟩

/-- Only `ReadyCh` and `SDPReadyCh` hand out channels, each the current one. -/
theorem mem_given_apply (s : Readiness) (op : ReadyOp) :
    (∀ ch ∈ (s.apply op).readyGiven, ch ∈ s.readyGiven ∨ ch = (s.apply op).core.readyCh) ∧
      ∀ ch ∈ (s.apply op).sdpGiven, ch ∈ s.sdpGiven ∨ ch = (s.apply op).core.sdpReadyCh := by
  cases op with
  | readyCh =>
    refine ⟨fun ch hch => ?_, fun ch hch => .inl hch⟩
    exact (List.mem_cons.mp hch).symm
  | sdpReadyCh =>
    refine ⟨fun ch hch => .inl hch, fun ch hch => ?_⟩
    exact (List.mem_cons.mp hch).symm
  | _ => exact ⟨fun ch hch => .inl hch, fun ch hch => .inl hch⟩

/-- **One operation** keeps the channels as their users expect. -/
theorem Readiness.Ok.apply (h : s.Ok) (op : ReadyOp) : (s.apply op).Ok := by
  obtain ⟨hfollows, hgood⟩ := apply_core s op
  obtain ⟨hready, hsdp⟩ := mem_given_apply s op
  refine ⟨hgood h.toGood, fun ch hch => ?_, fun ch hch => ?_⟩
  · rcases hready ch hch with hold | hnew
    · rcases h.readyKept ch hold with rfl | hclosed
      · exact hfollows.ready.imp_left Eq.symm
      · exact .inr (hfollows.closed ch hclosed)
    · exact .inl hnew
  · rcases hsdp ch hch with hold | hnew
    · rcases h.sdpKept ch hold with rfl | hclosed
      · exact hfollows.sdp.imp_left Eq.symm
      · exact .inr (hfollows.closed ch hclosed)
    · exact .inl hnew

theorem newReadiness_ok : newReadiness.Ok :=
  ⟨newCore_good, by simp [newReadiness], by simp [newReadiness]⟩

/-- What one operation keeps, a run of them keeps. -/
theorem Readiness.run_invariant {P : Readiness → Prop} (hP : ∀ s op, P s → P (s.apply op)) (ops : List ReadyOp) :
    ∀ s, P s → P (s.run ops) := by
  induction ops with
  | nil => exact fun _ h => h
  | cons op ops ih => exact fun s h => ih (s.apply op) (hP s op h)

/-- **The readiness channels**, after any operations: no channel was closed twice; a channel handed out
is the current one or closed; `readyCh` is closed in `Playing` and open in `Connecting`; both are closed
in `Destroyed`; a further operation changes the state along the table only; and no further operations
bring the stream out of `Destroyed`. -/
theorem readiness (ops : List ReadyOp) :
    let s := newReadiness.run ops
    s.core.closed.Nodup ∧
      (∀ ch ∈ s.readyGiven, ch = s.core.readyCh ∨ ch ∈ s.core.closed) ∧
      (∀ ch ∈ s.sdpGiven, ch = s.core.sdpReadyCh ∨ ch ∈ s.core.closed) ∧
      (s.core.state = .playing → s.core.readyCh ∈ s.core.closed) ∧
      (s.core.state = .connecting → s.core.readyCh ∉ s.core.closed) ∧
      (s.core.state = .destroyed → s.core.readyCh ∈ s.core.closed ∧ s.core.sdpReadyCh ∈ s.core.closed) ∧
      (∀ op, (s.apply op).core.state ≠ s.core.state → valid s.core.state (s.apply op).core.state = true) ∧
      ∀ more, s.core.state = .destroyed → (s.run more).core.state = .destroyed := by
  intro s
  have h : s.Ok := Readiness.run_invariant (fun _ op h => h.apply op) ops newReadiness newReadiness_ok
  refine ⟨h.once, h.readyKept, h.sdpKept, h.playing, h.connecting, h.destroyed, ?_, ?_⟩
  · intro op
    exact (apply_core s op).1.state
  · intro more hd
    refine Readiness.run_invariant (P := fun s => s.core.state = .destroyed) ?_ more s hd
    exact fun s op => (apply_core s op).1.destroyed

/-- A waiter from the first attempt is released when the second begins, and the stream's own channels
are open again. -/
example : (newReadiness.run [.start, .readyCh, .transition .reconnecting, .transition .connecting]) =
    ⟨⟨.connecting, 4, 5, [3, 2, 1, 0], 6⟩, [2], []⟩ := by decide

/-! ### Runs of the stream -/

/-- What a step of the stream's goroutines does to the state and the channels. -/
theorem StreamEffect.core {s : Sys} {a : Act} {clients : List ℕ} (h : StreamEffect s a c' clients) :
    c' = s.core.sdpReady ∧ a = .loop .sdp ∨ ∃ target, CoreEffect s.core target c' ∧
      (target = .connecting → s.connects a = true) := by
  cases h with
  | same => exact .inr ⟨.stopping, .same, by simp⟩
  | connect hc => exact .inr ⟨.connecting, attempt_effect _ _, fun _ => hc⟩
  | enter hne => exact .inr ⟨_, attempt_effect _ _, fun h => absurd h hne⟩
  | sdp ha => exact .inl ⟨rfl, ha⟩
  | add _ => exact .inr ⟨.stopping, .same, by simp⟩
  | remove _ => exact .inr ⟨.stopping, .same, by simp⟩
  | clear => exact .inr ⟨.stopping, .same, by simp⟩

/-- **One step of the stream** keeps the channels good. -/
theorem core_good_of_step {s s' : Sys} {a : Act} (hs : s.core.Good) (h : s.step a = some s') : s'.core.Good := by
  rcases (effect_of_step h).core with ⟨hc, -⟩ | ⟨target, hc, -⟩
  · rw [hc]
    exact hs.sdpReady
  · exact hc.good hs

/-- **The channels are good** in every run of the stream's goroutines. -/
theorem core_good_of_run (as : List Act) (s : Sys) (h : exec Sys.step newSys as = some s) : s.core.Good := by
  refine exec_invariant (I := fun s => s.core.Good) (C := fun _ _ => True) ?_ as newSys s newCore_good ?_ h
  · exact fun s a s' hs _ hstep => core_good_of_step hs hstep
  · exact allSteps_of_forall (P := fun _ => True) fun _ _ => trivial

end RtspProxy.Lifecycle
