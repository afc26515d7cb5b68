import RtspProxy.Lifecycle.Effect

/-!
# The idle timer

A stream without clients is stopped after `IdleTimeout`. `Start` and `RemoveClient` set the timer when no
client is there, `AddClient` and `Destroy` stop it. The timer's function looks at the clients under the
lock, gives the lock up, and then calls `Stop`: what it has seen may be out of date by then, and stopping
the timer does not bring back a function that is running.

## The model

`Idle` is a stream with its goroutines (`Sys`), its timer, and the calls of the timer's function up to the
transition that `Stop` begins with; what `Stop` does then is a part of `Sys`, as is a `Stop` that somebody
else calls. Time is left out: a timer that is set may fire at any time.

## What is proved

* `idleStop_of_undisturbed` — in every run in which no client is registered between the look of the
  timer's function and its `Stop`, no client is registered when such a `Stop` enters `Stopping`.
* `idleStop_takes_client` — a client registered in between loses its stream.
-/

namespace RtspProxy.Lifecycle

open Theory

/-- Where a call of the timer's function is. -/
inductive CallbackPc where
  /-- The timer has fired, and it is about to look at the stream. -/
  | look
  /-- It has seen no client, and is about to call `Stop`. -/
  | stop
  deriving DecidableEq, Repr

/-- A stream with its idle timer. -/
structure Idle where
  /-- The stream and its goroutines. -/
  sys : Sys
  /-- `idleTimer`, as whether it is set, unless nil. -/
  timer : Option Bool
  /-- The calls of the timer's function. -/
  callbacks : List CallbackPc
  /-- The clients that were registered at each transition to `Stopping` by such a call; no step reads
  this. -/
  stops : List (List ℕ)
  deriving DecidableEq, Repr

/-- `NewStream`. -/
def newIdle : Idle := ⟨newSys, none, [], []⟩

/-- `resetIdleTimer`: a timer that is there is set again, else one is made. -/
def resetIdleTimer (_ : Option Bool) : Option Bool := some true

/-- `stopIdleTimer`. -/
def stopIdleTimer (timer : Option Bool) : Option Bool := timer.map fun _ => false

/-- The timer after a step of the stream. -/
def Idle.timerAfter (s : Idle) : Act → Option Bool
  | .start =>
    if s.sys.core.state = .disconnected ∧ s.sys.clients = [] then resetIdleTimer s.timer else s.timer
  | .addClient _ => stopIdleTimer s.timer
  | .removeClient client =>
    if (s.sys.removeClient client).clients = [] ∧ s.sys.core.state ≠ .destroyed then resetIdleTimer s.timer
    else s.timer
  | .closer i _ => if s.sys.closers[i]? = some ⟨true, .take⟩ then stopIdleTimer s.timer else s.timer
  | _ => s.timer

/-- The actions. -/
inductive IdleAct where
  /-- A step of the stream. -/
  | stream (a : Act)
  /-- The timer fires. -/
  | fire
  /-- The `i`-th call of the timer's function looks at the stream. -/
  | look (i : ℕ)
  /-- The `i`-th call of the timer's function calls `Stop`, up to its transition. -/
  | stop (i : ℕ)
  deriving DecidableEq, Repr

/-- The timer's function looks at the stream. -/
def Idle.look (s : Idle) (i : ℕ) : Idle :=
  if s.sys.clients = [] ∧ s.sys.core.state ≠ .destroyed then { s with callbacks := s.callbacks.set i .stop }
  else { s with callbacks := s.callbacks.eraseIdx i }

/-- The timer's function calls `Stop`. -/
def Idle.stop (s : Idle) (i : ℕ) : Idle :=
  { s with
    sys := s.sys.stop
    callbacks := s.callbacks.eraseIdx i
    stops := match s.sys.core.transition .stopping with
      | .ok _ => s.sys.clients :: s.stops
      | .error _ => s.stops }

/-- One step. -/
def Idle.step (s : Idle) (a : IdleAct) : Option Idle :=
  if s.sys.crashed then none
  else match a with
    | .stream a => (s.sys.step a).map fun sys => { s with sys := sys, timer := s.timerAfter a }
    | .fire =>
      if s.timer = some true then some { s with timer := some false, callbacks := s.callbacks ++ [.look] } else none
    | .look i => if s.callbacks[i]? = some .look then some (s.look i) else none
    | .stop i => if s.callbacks[i]? = some .stop then some (s.stop i) else none

/-- No client is registered while a call of the timer's function is between its look and its `Stop`. -/
def Undisturbed (s : Idle) : IdleAct → Prop
  | .stream (.addClient _) => CallbackPc.stop ∉ s.callbacks
  | _ => True

instance (s : Idle) : DecidablePred (Undisturbed s) := fun a =>
  match a with
  | .stream (.addClient _) => inferInstanceAs (Decidable (CallbackPc.stop ∉ s.callbacks))
  | .stream .start | .stream (.removeClient _) | .stream .stop | .stream .destroy | .stream .shutdown
  | .stream (.loop _) | .stream (.reader _) | .stream (.closer _ _) | .stream (.keepAlive _ _) | .fire | .look _
  | .stop _ => isTrue trivial

/-! ### The invariant -/

/-- What a run of undisturbed steps keeps. -/
structure IdleInv (s : Idle) : Prop where
  /-- While a call of the timer's function is about to stop the stream, no client is there. -/
  alone : CallbackPc.stop ∈ s.callbacks → s.sys.clients = []
  /-- No client was there when the stream was stopped. -/
  stops : ∀ clients ∈ s.stops, clients = []

variable {s t : Idle} {a : IdleAct}

theorem StreamEffect.clients_nil {s : Sys} {a : Act} {c : Core} {clients : List ℕ}
    (h : StreamEffect s a c clients) (hadd : ∀ client, a ≠ .addClient client) (hs : s.clients = []) :
    clients = [] := by
  cases h with
  | add ha => exact absurd ha (hadd _)
  | remove client => rw [hs]; rfl
  | clear => rfl
  | same => exact hs
  | connect _ => exact hs
  | enter _ => exact hs
  | sdp _ => exact hs

theorem stop_clients (s : Sys) : s.stop.clients = s.clients := by
  unfold Sys.stop
  split <;> rfl

theorem IdleInv.stream (hs : IdleInv s) {a : Act} (hc : Undisturbed s (.stream a)) {sys : Sys}
    (h : s.sys.step a = some sys) : IdleInv { s with sys := sys, timer := s.timerAfter a } := by
  refine ⟨fun hstop => ?_, hs.stops⟩
  apply (effect_of_step h).clients_nil
  · rintro client rfl
    exact hc hstop
  · exact hs.alone hstop

/-- The timer's function goes on to `Stop` only when it sees no client. -/
theorem IdleInv.look (hs : IdleInv s) (i : ℕ) : IdleInv (s.look i) := by
  unfold Idle.look
  split_ifs with h
  · exact ⟨fun _ => h.1, hs.stops⟩
  · exact ⟨fun hstop => hs.alone (List.mem_of_mem_eraseIdx hstop), hs.stops⟩

theorem IdleInv.stop (hs : IdleInv s) {i : ℕ} (hi : s.callbacks[i]? = some .stop) : IdleInv (s.stop i) := by
  have hnil := hs.alone (List.mem_of_getElem? hi)
  constructor
  · intro _
    rw [Idle.stop, stop_clients]
    exact hnil
  · intro clients hmem
    simp only [Idle.stop] at hmem
    split at hmem
    · rcases List.mem_cons.mp hmem with rfl | hmem
      · exact hnil
      · exact hs.stops clients hmem
    · exact hs.stops clients hmem

/-- **One step** that is undisturbed. -/
theorem IdleInv.step (hs : IdleInv s) (hc : Undisturbed s a) (h : s.step a = some t) : IdleInv t := by
  unfold Idle.step at h
  obtain ⟨-, h⟩ := Option.ite_none_left_eq_some.mp h
  cases a with
  | stream a =>
    obtain ⟨sys, hstep, rfl⟩ := Option.map_eq_some_iff.mp h
    exact hs.stream hc hstep
  | fire =>
    obtain ⟨-, h⟩ := Option.ite_none_right_eq_some.mp h
    cases h
    refine ⟨fun hstop => hs.alone ?_, hs.stops⟩
    simpa using hstop
  | look i =>
    obtain ⟨-, h⟩ := Option.ite_none_right_eq_some.mp h
    cases h
    exact hs.look i
  | stop i =>
    obtain ⟨hi, h⟩ := Option.ite_none_right_eq_some.mp h
    cases h
    exact hs.stop hi

/-- **An idle stop takes no client's stream**, in every run in which no client is registered between the
look of the timer's function and its `Stop`: at each transition to `Stopping` that the function made, no
client was registered. -/
theorem idleStop_of_undisturbed (as : List IdleAct) (s : Idle) (hrun : exec Idle.step newIdle as = some s)
    (hcond : AllSteps Idle.step Undisturbed newIdle as) : ∀ clients ∈ s.stops, clients = [] := by
  have hs : IdleInv s := by
    refine exec_invariant (I := IdleInv) ?_ as newIdle s ⟨by simp [newIdle], by simp [newIdle]⟩ hcond hrun
    intro s a t hs hc h
    exact hs.step hc h
  exact hs.stops

/-- A stream that is started, used, left and stopped. -/
def leftAlone : List IdleAct :=
  [.stream .start, .stream (.addClient 0), .stream (.removeClient 0), .fire, .look 0, .stop 0]

/-- The function stops the stream, once, and no client is there. -/
theorem idleStop_leftAlone : ∃ s, exec Idle.step newIdle leftAlone = some s ∧ s.sys.core.state = .stopping ∧
    s.stops.length = 1 ∧ ∀ clients ∈ s.stops, clients = [] :=
  ⟨_, rfl, rfl, rfl, idleStop_of_undisturbed leftAlone _ rfl (by decide)⟩

/-- The timer fires, and a client is registered before `Stop`. -/
def clientInBetween : List IdleAct := [.stream .start, .fire, .look 0, .stream (.addClient 0), .stop 0]

/-- **An idle stop takes a client's stream**: the function has seen no client, but one is registered when
`Stop` enters `Stopping`. -/
theorem idleStop_takes_client : (exec Idle.step newIdle clientInBetween).map
    (fun s => (s.sys.core.state, s.sys.clients, s.stops)) = some (.stopping, [0], [[0]]) := by
  decide

end RtspProxy.Lifecycle
