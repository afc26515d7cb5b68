import RtspProxy.Upstream.Remote

/-!
# The keep-alive of a session

`Session.StartUpstream` starts a goroutine that sends GET_PARAMETER now and then, and
`Session.Stop` ends it by closing its `quit` channel. The flag `started` is to say whether there is
such a goroutine. `StartUpstream` sets it and `Stop` clears it, both under `mu`; a goroutine that
ends clears it too, without `mu`, and does not ask whose flag it is by then.

So a goroutine that ends late clears the flag of a later one, which `Stop` then leaves alone, and
beside which `StartUpstream` starts another (`flag_of_another`).

## The model

A step is one operation on `started`, on `quit` or on `mu`; the operations between a `Lock` and
its `Unlock` are steps of their own, since a goroutine may clear the flag in between. Each
`quit` channel belongs to one goroutine and has its number; the goroutine starts some time after
its channel was made, in a step of its own.
The stream's context is not cancelled and the remote is there, so a goroutine ends only when its
channel is closed. What it does on a tick changes nothing here.

## What is proved

* `closed_once` — no channel is closed twice, in any run.
* `owned_of_prompt` — **if each `StartUpstream` that starts a goroutine finds those that were told to
  stop gone, at most one goroutine has an open channel, and none has after a `Stop`.**
* `flag_of_another` — otherwise two have, and one after a `Stop`.
-/

namespace RtspProxy.Upstream

open Theory

/-- Where a keep-alive goroutine is. -/
inductive KeepAlivePc where
  /-- Its channel is made; it is not started yet. -/
  | pending
  /-- In its loop. -/
  | running
  /-- It has found its channel closed, and is about to clear `started`. -/
  | exiting
  /-- Ended. -/
  | exited
  deriving DecidableEq, Repr

/-- A keep-alive goroutine and its `quit` channel. -/
structure Goroutine where
  /-- How often the channel was closed. -/
  closed : ℕ
  /-- Where it is. -/
  pc : KeepAlivePc
  deriving DecidableEq, Repr

/-- Where a call of `StartUpstream` or `Stop` is. -/
inductive OwnerPc where
  /-- `StartUpstream`, about to lock `mu`. -/
  | startLock
  /-- About to swap `started`. -/
  | startSwap
  /-- About to make a channel, and to unlock `mu`. -/
  | startMake
  /-- `Stop`, about to lock `mu`. -/
  | stopLock
  /-- About to swap `started`. -/
  | stopSwap
  /-- About to close the channel, and to unlock `mu`. -/
  | stopClose
  | returned
  deriving DecidableEq, Repr

/-- A session's keep-alive, with the goroutines and calls there have been. -/
structure KeepAlive where
  started : Bool
  quit : Option ℕ
  /-- The call that has locked `mu`. -/
  mu : Option ℕ
  goroutines : List Goroutine
  calls : List OwnerPc
  /-- A `Stop` has returned, and no `StartUpstream` has swapped `started` since (a record). -/
  stopped : Bool
  deriving DecidableEq, Repr

/-- `NewSession`. -/
def newKeepAlive : KeepAlive := ⟨false, none, none, [], [], false⟩

/-- The actions. -/
inductive KeepAliveAct where
  /-- `StartUpstream` is called. -/
  | start
  /-- `Stop` is called. -/
  | stop
  /-- A call goes on. -/
  | call (i : ℕ)
  /-- A goroutine goes on. -/
  | goroutine (g : ℕ)
  deriving DecidableEq, Repr

/-- A call goes on to `pc`. -/
def KeepAlive.callAt (s : KeepAlive) (i : ℕ) (pc : OwnerPc) : KeepAlive := { s with calls := s.calls.set i pc }

/-- A goroutine goes on to `pc`. -/
def KeepAlive.goroutineAt (s : KeepAlive) (g : ℕ) (pc : KeepAlivePc) : KeepAlive :=
  { s with goroutines := s.goroutines.modify g fun x => { x with pc := pc } }

/-- `close(session.quit)` and `session.quit = nil`, unless it is nil. -/
def KeepAlive.closeQuit (s : KeepAlive) : KeepAlive :=
  match s.quit with
  | some q => { s with
      quit := none
      goroutines := s.goroutines.modify q fun x => { x with closed := x.closed + 1 } }
  | none => s

/-- A step of a call. -/
def KeepAlive.stepCall (s : KeepAlive) (i : ℕ) : OwnerPc → Option KeepAlive
  | .startLock => if s.mu = none then some { s.callAt i .startSwap with mu := some i } else none
  | .startSwap =>
    if s.started then some { s.callAt i .returned with mu := none, stopped := false }
    else some { s.callAt i .startMake with started := true, stopped := false }
  | .startMake =>
    some { s.callAt i .returned with
      quit := some s.goroutines.length, mu := none, goroutines := s.goroutines ++ [⟨0, .pending⟩] }
  | .stopLock => if s.mu = none then some { s.callAt i .stopSwap with mu := some i } else none
  | .stopSwap =>
    if s.started then some { s.callAt i .stopClose with started := false }
    else some { s.callAt i .returned with mu := none, stopped := true }
  | .stopClose => some { (s.closeQuit).callAt i .returned with mu := none, stopped := true }
  | .returned => none

/-- A step of a goroutine: `go`, then `<-quit`, then the deferred `session.started.Store(false)`. -/
def KeepAlive.stepGoroutine (s : KeepAlive) (g : ℕ) (x : Goroutine) : Option KeepAlive :=
  match x.pc with
  | .pending => some (s.goroutineAt g .running)
  | .running => if x.closed = 0 then none else some (s.goroutineAt g .exiting)
  | .exiting => some { s.goroutineAt g .exited with started := false }
  | .exited => none

/-- One step. -/
def KeepAlive.step (s : KeepAlive) : KeepAliveAct → Option KeepAlive
  | .start => some { s with calls := s.calls ++ [.startLock] }
  | .stop => some { s with calls := s.calls ++ [.stopLock] }
  | .call i => s.calls[i]?.bind (s.stepCall i)
  | .goroutine g => s.goroutines[g]?.bind (s.stepGoroutine g)

/-- The channel of a goroutine is open. -/
def KeepAlive.IsOpen (s : KeepAlive) (q : ℕ) : Prop := ∃ x, s.goroutines[q]? = some x ∧ x.closed = 0

/-! ### The steps -/

/-- The effects of the steps on the goroutines, their channels and the flag. -/
inductive KeepAlive.Effect (s : KeepAlive) : KeepAliveAct → KeepAlive → Prop
  /-- A call is made. -/
  | called (a : KeepAliveAct) (pc : OwnerPc) (hpc : pc = .startLock ∨ pc = .stopLock) :
      Effect s a { s with calls := s.calls ++ [pc] }
  /-- `mu` is locked. -/
  | lock {i : ℕ} (pc : OwnerPc) (hi : i < s.calls.length) (hmu : s.mu = none)
      (hpc : pc = .startSwap ∨ pc = .stopSwap) :
      Effect s (.call i) { s.callAt i pc with mu := some i }
  /-- `StartUpstream` finds the flag set. -/
  | idle {i : ℕ} (hpc : s.calls[i]? = some .startSwap) (hs : s.started = true) :
      Effect s (.call i) { s.callAt i .returned with mu := none, stopped := false }
  /-- `StartUpstream` sets the flag. -/
  | claim {i : ℕ} (hpc : s.calls[i]? = some .startSwap) (hs : s.started = false) :
      Effect s (.call i) { s.callAt i .startMake with started := true, stopped := false }
  /-- It makes a channel. -/
  | make {i : ℕ} (hpc : s.calls[i]? = some .startMake) :
      Effect s (.call i) { s.callAt i .returned with
        quit := some s.goroutines.length, mu := none, goroutines := s.goroutines ++ [⟨0, .pending⟩] }
  /-- `Stop` finds the flag cleared. -/
  | spare {i : ℕ} (hpc : s.calls[i]? = some .stopSwap) (hs : s.started = false) :
      Effect s (.call i) { s.callAt i .returned with mu := none, stopped := true }
  /-- `Stop` clears the flag. -/
  | clear {i : ℕ} (hpc : s.calls[i]? = some .stopSwap) (hs : s.started = true) :
      Effect s (.call i) { s.callAt i .stopClose with started := false }
  /-- It closes the channel. -/
  | close {i : ℕ} (hpc : s.calls[i]? = some .stopClose) :
      Effect s (.call i) { (s.closeQuit).callAt i .returned with mu := none, stopped := true }
  /-- A goroutine starts. -/
  | launch {g : ℕ} {x : Goroutine} (hx : s.goroutines[g]? = some x) (hpc : x.pc = .pending) :
      Effect s (.goroutine g) (s.goroutineAt g .running)
  /-- It finds its channel closed. -/
  | leave {g : ℕ} {x : Goroutine} (hx : s.goroutines[g]? = some x) (hpc : x.pc = .running) (hc : x.closed ≠ 0) :
      Effect s (.goroutine g) (s.goroutineAt g .exiting)
  /-- It clears the flag. -/
  | forget {g : ℕ} {x : Goroutine} (hx : s.goroutines[g]? = some x) (hpc : x.pc = .exiting) :
      Effect s (.goroutine g) { s.goroutineAt g .exited with started := false }

theorem effect_of_step {s t : KeepAlive} {a : KeepAliveAct} (h : s.step a = some t) : s.Effect a t := by
  cases a with
  | start => cases h; exact .called _ _ (.inl rfl)
  | stop => cases h; exact .called _ _ (.inr rfl)
  | call i =>
    obtain ⟨pc, hpc, h⟩ := Option.bind_eq_some_iff.mp h
    cases pc with
    | startLock =>
      obtain ⟨hmu, ⟨⟩⟩ := Option.ite_none_right_eq_some.mp h
      exact .lock _ (List.getElem?_eq_some_iff.mp hpc).1 hmu (.inl rfl)
    | stopLock =>
      obtain ⟨hmu, ⟨⟩⟩ := Option.ite_none_right_eq_some.mp h
      exact .lock _ (List.getElem?_eq_some_iff.mp hpc).1 hmu (.inr rfl)
    | startSwap =>
      simp only [KeepAlive.stepCall] at h
      split at h
      case isTrue hs => cases h; exact .idle hpc hs
      case isFalse hs => cases h; exact .claim hpc (by simpa using hs)
    | stopSwap =>
      simp only [KeepAlive.stepCall] at h
      split at h
      case isTrue hs => cases h; exact .clear hpc hs
      case isFalse hs => cases h; exact .spare hpc (by simpa using hs)
    | startMake => cases h; exact .make hpc
    | stopClose => cases h; exact .close hpc
    | returned => cases h
  | goroutine g =>
    obtain ⟨x, hx, h⟩ := Option.bind_eq_some_iff.mp h
    unfold KeepAlive.stepGoroutine at h
    split at h
    case h_1 hpc => cases h; exact .launch hx hpc
    case h_2 hpc =>
      obtain ⟨hc, ⟨⟩⟩ := Option.ite_none_left_eq_some.mp h
      exact .leave hx hpc hc
    case h_3 hpc => cases h; exact .forget hx hpc
    case h_4 => cases h

section

variable {s t : KeepAlive}

/-- Which channels are open is a matter of the goroutines. -/
theorem isOpen_congr {q : ℕ} (h : t.goroutines = s.goroutines) : t.IsOpen q ↔ s.IsOpen q := by
  unfold KeepAlive.IsOpen
  rw [h]

/-- A goroutine that goes on keeps its channel. -/
theorem isOpen_goroutineAt {g q : ℕ} {pc : KeepAlivePc} : (s.goroutineAt g pc).IsOpen q ↔ s.IsOpen q := by
  constructor
  · rintro ⟨x, hx, hc⟩
    obtain ⟨y, hy, ⟨-, rfl⟩ | ⟨-, rfl⟩⟩ := of_getElem?_modify hx
    · exact ⟨y, hy, hc⟩
    · exact ⟨x, hy, hc⟩
  · rintro ⟨x, hx, hc⟩
    refine ⟨_, by rw [KeepAlive.goroutineAt, List.getElem?_modify, hx]; rfl, ?_⟩
    dsimp only
    split <;> exact hc

theorem isOpen_append {q : ℕ} (h : t.goroutines = s.goroutines ++ [⟨0, .pending⟩]) :
    t.IsOpen q ↔ s.IsOpen q ∨ q = s.goroutines.length := by
  unfold KeepAlive.IsOpen
  rw [h]
  constructor
  · rintro ⟨x, hx, hc⟩
    rcases of_getElem?_concat hx with hx | ⟨hq, -⟩
    · exact .inl ⟨x, hx, hc⟩
    · exact .inr hq
  · rintro (⟨x, hx, hc⟩ | rfl)
    · exact ⟨x, List.getElem?_append_left (List.getElem?_eq_some_iff.mp hx).1 ▸ hx, hc⟩
    · exact ⟨_, List.getElem?_concat_length, rfl⟩

/-- The channel that is closed is not open any more. -/
theorem isOpen_closeQuit {q : ℕ} : s.closeQuit.IsOpen q ↔ s.IsOpen q ∧ s.quit ≠ some q := by
  unfold KeepAlive.closeQuit
  split
  case h_2 hq => simp [hq]
  case h_1 q' hq =>
    simp only [hq, ne_eq, Option.some.injEq]
    constructor
    · rintro ⟨x, hx, hc⟩
      obtain ⟨y, hy, ⟨-, rfl⟩ | ⟨hne, rfl⟩⟩ := of_getElem?_modify hx
      · cases hc
      · exact ⟨⟨x, hy, hc⟩, hne⟩
    · rintro ⟨⟨x, hx, hc⟩, hne⟩
      exact ⟨x, by rw [List.getElem?_modify_ne _ _ hne]; exact hx, hc⟩

@[simp] theorem quit_closeQuit : s.closeQuit.quit = none := by
  unfold KeepAlive.closeQuit
  split
  · rfl
  case h_2 hq => exact hq

@[simp] theorem started_closeQuit : s.closeQuit.started = s.started := by
  unfold KeepAlive.closeQuit
  split <;> rfl

@[simp] theorem calls_closeQuit : s.closeQuit.calls = s.calls := by
  unfold KeepAlive.closeQuit
  split <;> rfl

/-- A flag that is clear, when it says whether there is a channel. -/
theorem quit_eq_none (h : s.started = s.quit.isSome) (hs : s.started = false) : s.quit = none := by
  cases hq : s.quit with
  | none => rfl
  | some q => simp [hq, hs] at h

/-! ### Closing once -/

/-- What keeps a channel from being closed twice. -/
structure KeepAlive.Once (s : KeepAlive) : Prop where
  /-- The channel in `quit` is open. -/
  quit : ∀ q, s.quit = some q → s.IsOpen q
  /-- No channel was closed twice. -/
  once : ∀ x ∈ s.goroutines, x.closed ≤ 1

theorem mem_goroutineAt {g : ℕ} {pc : KeepAlivePc} {x : Goroutine} (h : x ∈ (s.goroutineAt g pc).goroutines) :
    x ∈ s.goroutines ∨ ∃ y, s.goroutines[g]? = some y ∧ x = { y with pc := pc } := by
  obtain ⟨j, hj⟩ := List.mem_iff_getElem?.mp h
  obtain ⟨y, hy, ⟨rfl, rfl⟩ | ⟨-, rfl⟩⟩ := of_getElem?_modify hj
  · exact .inr ⟨y, hy, rfl⟩
  · exact .inl (List.mem_iff_getElem?.mpr ⟨j, hy⟩)

theorem mem_closeQuit {x : Goroutine} (h : x ∈ s.closeQuit.goroutines) :
    x ∈ s.goroutines ∨ ∃ q y, s.quit = some q ∧ s.goroutines[q]? = some y ∧ x = { y with closed := y.closed + 1 } := by
  unfold KeepAlive.closeQuit at h
  split at h
  case h_2 => exact .inl h
  case h_1 q hq =>
    obtain ⟨j, hj⟩ := List.mem_iff_getElem?.mp h
    obtain ⟨y, hy, ⟨rfl, rfl⟩ | ⟨-, rfl⟩⟩ := of_getElem?_modify hj
    · exact .inr ⟨q, y, hq, hy, rfl⟩
    · exact .inl (List.mem_iff_getElem?.mpr ⟨j, hy⟩)

theorem KeepAlive.Once.step (h : s.Once) {a : KeepAliveAct} (hs : s.step a = some t) : t.Once := by
  cases effect_of_step hs with
  | called | lock | idle | claim | spare | clear => exact ⟨h.quit, h.once⟩
  | make =>
    refine ⟨fun q hq => (isOpen_append rfl).mpr (.inr (Option.some.inj hq).symm), fun x hx => ?_⟩
    rcases List.mem_append.mp hx with hx | hx
    · exact h.once x hx
    · rw [List.mem_singleton.mp hx]
      exact Nat.zero_le _
  | launch | leave | forget =>
    refine ⟨fun q hq => isOpen_goroutineAt.mpr (h.quit q hq), fun x hx => ?_⟩
    rcases mem_goroutineAt hx with hx | ⟨y, hy, rfl⟩
    · exact h.once x hx
    · exact h.once y (List.mem_of_getElem? hy)
  | close =>
    refine ⟨fun q hq => (nomatch quit_closeQuit.symm.trans hq), fun x hx => ?_⟩
    rcases mem_closeQuit hx with hx | ⟨q, y, hq, hy, rfl⟩
    · exact h.once x hx
    · obtain ⟨z, hz, hopen⟩ := h.quit q hq
      obtain rfl : y = z := Option.some.inj (hy.symm.trans hz)
      exact Nat.le_of_eq (congrArg (· + 1) hopen)

/-- **No `quit` channel is closed twice**, in any run. -/
theorem closed_once {as : List KeepAliveAct} (h : exec KeepAlive.step newKeepAlive as = some t) :
    ∀ x ∈ t.goroutines, x.closed ≤ 1 :=
  (exec_invariant (I := KeepAlive.Once) (C := fun _ _ => True) (fun _ _ _ hs _ hstep => hs.step hstep) as newKeepAlive t
    ⟨nofun, nofun⟩ (allSteps_of_forall fun _ _ => trivial) h).once

/-! ### Whose flag it is -/

/-- A `StartUpstream` that starts a goroutine finds those that were told to stop gone. -/
def PromptStart (s : KeepAlive) : KeepAliveAct → Prop
  | .call i => s.calls[i]? = some .startSwap → s.started = false →
      ∀ x ∈ s.goroutines, x.closed ≠ 0 → x.pc = .exited
  | _ => True

instance (s : KeepAlive) : DecidablePred (PromptStart s)
  | .call _ => inferInstanceAs (Decidable (_ → _ → _))
  | .start | .stop | .goroutine _ => isTrue trivial

/-- A call that has locked `mu`. -/
def OwnerPc.critical : OwnerPc → Bool
  | .startSwap | .startMake | .stopSwap | .stopClose => true
  | _ => false

/-- What a call knows of the flag that has locked `mu`. -/
def OwnerPc.Flag (s : KeepAlive) : OwnerPc → Prop
  | .startMake => s.started = true ∧ s.quit = none ∧ s.stopped = false
  | .stopClose => s.started = false
  | _ => s.started = s.quit.isSome

/-- Who has locked `mu`, and what it knows of the flag. -/
structure KeepAlive.Locked (s : KeepAlive) : Prop where
  /-- The call that has locked `mu`. -/
  holder : ∀ i, s.mu = some i ↔ ∃ pc : OwnerPc, s.calls[i]? = some pc ∧ pc.critical = true
  /-- What it knows. -/
  flag : ∀ (i : ℕ) (pc : OwnerPc), s.calls[i]? = some pc → pc.critical = true → pc.Flag s
  /-- While `mu` is free, the flag says whether there is a channel. -/
  free : s.mu = none → s.started = s.quit.isSome

/-- What holds in every state of a run that is prompt. -/
structure KeepAlive.Inv (s : KeepAlive) : Prop where
  /-- Who has locked `mu`. -/
  locked : s.Locked
  /-- The open channel is the one in `quit`. -/
  quit : ∀ q, s.IsOpen q ↔ s.quit = some q
  /-- While a goroutine is still to clear the flag, it is clear. -/
  leaving : ∀ x ∈ s.goroutines, x.closed ≠ 0 → x.pc = .exited ∨ s.started = false
  /-- A goroutine leaves only when its channel is closed. -/
  left : ∀ x ∈ s.goroutines, x.pc = .exiting ∨ x.pc = .exited → x.closed ≠ 0
  /-- After a `Stop` there is no channel. -/
  stopped : s.stopped = true → s.quit = none

theorem inv_newKeepAlive : newKeepAlive.Inv where
  locked := ⟨fun _ => ⟨nofun, nofun⟩, nofun, fun _ => rfl⟩
  quit _ := ⟨nofun, nofun⟩
  leaving := nofun
  left := nofun
  stopped _ := rfl

/-- A call that has locked `mu`, or that finds it free, goes on. -/
theorem KeepAlive.Locked.call (h : s.Locked) {i : ℕ} {pc : OwnerPc} (hi : i < s.calls.length)
    (hmu : s.mu = none ∨ s.mu = some i) (ht : t.calls = s.calls.set i pc)
    (hpc : t.mu = if pc.critical then some i else none) (hflag : pc.Flag t) : t.Locked := by
  have hother : ∀ j (pc' : OwnerPc), j ≠ i → s.calls[j]? = some pc' → pc'.critical = true → False := by
    intro j pc' hj hc hcrit
    have := (h.holder j).mpr ⟨pc', hc, hcrit⟩
    rcases hmu with hmu | hmu <;> simp_all
  refine ⟨fun j => ?_, fun j pc' hc hcrit => ?_, fun hnone => ?_⟩
  · by_cases hj : j = i
    · subst hj
      simp [hpc, ht, List.getElem?_set_self hi]
    · rw [ht, List.getElem?_set_ne (Ne.symm hj), hpc]
      refine ⟨fun h' => ?_, fun ⟨pc', hc, hcrit⟩ => (hother j pc' hj hc hcrit).elim⟩
      split at h'
      · exact absurd (Option.some.inj h').symm hj
      · cases h'
  · rw [ht] at hc
    by_cases hj : j = i
    · subst hj
      rw [List.getElem?_set_self hi] at hc
      exact Option.some.inj hc ▸ hflag
    · rw [List.getElem?_set_ne (Ne.symm hj)] at hc
      exact (hother j pc' hj hc hcrit).elim
  · cases pc <;> simp_all [OwnerPc.critical, OwnerPc.Flag]

theorem KeepAlive.Locked.goroutine (h : s.Locked) (hc : t.calls = s.calls) (hmu : t.mu = s.mu)
    (hs : t.started = s.started) (hq : t.quit = s.quit) (hst : t.stopped = s.stopped) : t.Locked where
  holder i := by rw [hc, hmu]; exact h.holder i
  flag i pc hpc hcrit := by
    have := h.flag i pc (hc ▸ hpc) hcrit
    cases pc <;> simpa only [OwnerPc.Flag, hs, hq, hst] using this
  free hnone := by rw [hs, hq]; exact h.free (hmu ▸ hnone)

theorem KeepAlive.Locked.called (h : s.Locked) {pc : OwnerPc} (hpc : pc = .startLock ∨ pc = .stopLock) :
    KeepAlive.Locked { s with calls := s.calls ++ [pc] } := by
  have hold : ∀ (i : ℕ) (pc' : OwnerPc), pc'.critical = true →
      ((s.calls ++ [pc])[i]? = some pc' ↔ s.calls[i]? = some pc') := by
    intro i pc' hcrit
    refine ⟨fun hi => ?_, fun hi => ?_⟩
    · rcases of_getElem?_concat hi with hi | ⟨-, rfl⟩
      · exact hi
      · rcases hpc with rfl | rfl <;> cases hcrit
    · rw [List.getElem?_append_left (List.getElem?_eq_some_iff.mp hi).1]
      exact hi
  refine ⟨fun i => (h.holder i).trans (exists_congr fun pc' => ?_), fun i pc' hi hcrit => ?_, h.free⟩
  · exact and_congr_left fun hcrit => (hold i pc' hcrit).symm
  · have := h.flag i pc' ((hold i pc' hcrit).mp hi) hcrit
    cases pc' <;> exact this

/-- A step of a goroutine whose channel is closed when it leaves. -/
theorem KeepAlive.Inv.goroutineAt (h : s.Inv) {g : ℕ} {pc : KeepAlivePc} {x : Goroutine}
    (hx : s.goroutines[g]? = some x) (hl : t.Locked)
    (ht : t.goroutines = (s.goroutineAt g pc).goroutines) (hs : t.started = s.started)
    (hq : t.quit = s.quit) (hst : t.stopped = s.stopped) (hne : x.pc ≠ .exited)
    (hpc : pc = .exiting ∨ pc = .exited → x.closed ≠ 0) : t.Inv where
  locked := hl
  quit q := by
    rw [hq, isOpen_congr ht, isOpen_goroutineAt]
    exact h.quit q
  leaving y hy hc := by
    rw [ht] at hy
    rw [hs]
    rcases mem_goroutineAt hy with hy | ⟨z, hz, rfl⟩
    · exact h.leaving y hy hc
    · obtain rfl : z = x := Option.some.inj (hz.symm.trans hx)
      exact .inr ((h.leaving z (List.mem_of_getElem? hz) hc).resolve_left hne)
  left y hy hpc' := by
    rw [ht] at hy
    rcases mem_goroutineAt hy with hy | ⟨z, hz, rfl⟩
    · exact h.left y hy hpc'
    · obtain rfl : z = x := Option.some.inj (hz.symm.trans hx)
      exact hpc hpc'
  stopped := by
    rw [hst, hq]
    exact h.stopped

theorem KeepAlive.Inv.locked_set (h : s.Inv) {i : ℕ} {pc₀ pc : OwnerPc} (hi : s.calls[i]? = some pc₀)
    (hcrit : pc₀.critical = true) (ht : t.calls = s.calls.set i pc)
    (hmu : s.mu = some i → t.mu = if pc.critical then some i else none) (hflag : pc.Flag t) : t.Locked :=
  have hlock : s.mu = some i := (h.locked.holder i).mpr ⟨pc₀, hi, hcrit⟩
  h.locked.call (List.getElem?_eq_some_iff.mp hi).1 (.inr hlock) ht (hmu hlock) hflag

theorem KeepAlive.Inv.step (h : s.Inv) {a : KeepAliveAct} (hp : PromptStart s a) (hstep : s.step a = some t) : t.Inv := by
  cases effect_of_step hstep with
  | called _ pc hpc => exact ⟨h.locked.called hpc, h.quit, h.leaving, h.left, h.stopped⟩
  | lock pc hi hmu hpc =>
    refine ⟨h.locked.call hi (.inl hmu) rfl ?_ ?_, h.quit, h.leaving, h.left, h.stopped⟩
    · rcases hpc with rfl | rfl <;> rfl
    · rcases hpc with rfl | rfl <;> exact h.locked.free hmu
  | idle hpc =>
    refine ⟨h.locked_set hpc rfl rfl (fun _ => rfl) ?_, h.quit, h.leaving, h.left, nofun⟩
    exact h.locked.flag _ _ hpc rfl
  | claim hpc hs =>
    have hquit : s.quit = none := quit_eq_none (h.locked.flag _ _ hpc rfl) hs
    refine ⟨h.locked_set hpc rfl rfl (fun hmu => hmu) ⟨rfl, hquit, rfl⟩, h.quit, ?_, h.left, nofun⟩
    exact fun x hx hc => .inl (hp hpc hs x hx hc)
  | make hpc =>
    obtain ⟨hstart, hquit, hstop⟩ := h.locked.flag _ _ hpc rfl
    refine ⟨h.locked_set hpc rfl rfl (fun _ => rfl) hstart, fun q => ?_, fun x hx hc => ?_, fun x hx hl => ?_,
      fun hst => ?_⟩
    · rw [isOpen_append rfl, h.quit q, hquit]
      simp [eq_comm]
    · rcases List.mem_append.mp hx with hx | hx
      · exact h.leaving x hx hc
      · rw [List.mem_singleton.mp hx] at hc
        exact absurd rfl hc
    · rcases List.mem_append.mp hx with hx | hx
      · exact h.left x hx hl
      · rw [List.mem_singleton.mp hx] at hl
        rcases hl with hl | hl <;> cases hl
    · exact absurd (hst.symm.trans hstop) (by decide)
  | spare hpc hs =>
    have hflag : s.started = s.quit.isSome := h.locked.flag _ _ hpc rfl
    exact ⟨h.locked_set hpc rfl rfl (fun _ => rfl) hflag, h.quit, h.leaving, h.left, fun _ => quit_eq_none hflag hs⟩
  | clear hpc hs =>
    exact ⟨h.locked_set hpc rfl rfl (fun hmu => hmu) rfl, h.quit, fun _ _ _ => .inr rfl, h.left, h.stopped⟩
  | @close i hpc =>
    have hs : s.started = false := h.locked.flag _ _ hpc rfl
    have hs' : s.closeQuit.started = false := started_closeQuit.trans hs
    have hfree : OwnerPc.returned.Flag s.closeQuit := hs'.trans (congrArg Option.isSome quit_closeQuit).symm
    have hcalls : s.closeQuit.calls.set i .returned = s.calls.set i .returned := by rw [calls_closeQuit]
    refine ⟨h.locked_set hpc rfl hcalls (fun _ => rfl) hfree, fun q => ?_,
      fun x _ _ => .inr hs', fun x hx hl => ?_, fun _ => quit_closeQuit⟩
    · refine (isOpen_closeQuit.trans ?_).trans (iff_of_eq (congrArg (· = some q) quit_closeQuit)).symm
      rw [h.quit q]
      simp
    · rcases mem_closeQuit hx with hx | ⟨q, y, -, hy, rfl⟩
      · exact h.left x hx hl
      · exact Nat.succ_ne_zero _
  | launch hx hpc =>
    exact h.goroutineAt hx (h.locked.goroutine rfl rfl rfl rfl rfl) rfl rfl rfl rfl (by simp [hpc]) (by simp)
  | leave hx hpc hc =>
    exact h.goroutineAt hx (h.locked.goroutine rfl rfl rfl rfl rfl) rfl rfl rfl rfl (by simp [hpc]) fun _ => hc
  | @forget g x hx hpc =>
    have hc : x.closed ≠ 0 := h.left x (List.mem_of_getElem? hx) (.inl hpc)
    have hs : s.started = false := (h.leaving x (List.mem_of_getElem? hx) hc).resolve_left (by simp [hpc])
    exact h.goroutineAt hx (h.locked.goroutine rfl rfl hs.symm rfl rfl) rfl hs.symm rfl rfl (by simp [hpc]) fun _ => hc

/-- **If each `StartUpstream` that starts a goroutine finds those that were told to stop gone, then in
every state at most one goroutine has an open channel, none has after a `Stop` with no later
`StartUpstream`, and no channel was closed twice.** -/
theorem owned_of_prompt (as : List KeepAliveAct) (t : KeepAlive) (hp : AllSteps KeepAlive.step PromptStart newKeepAlive as)
    (h : exec KeepAlive.step newKeepAlive as = some t) :
    (∀ g g', t.IsOpen g → t.IsOpen g' → g = g') ∧ (t.stopped = true → ∀ x ∈ t.goroutines, x.closed ≠ 0) ∧
      ∀ x ∈ t.goroutines, x.closed ≤ 1 := by
  have hinv : t.Inv :=
    exec_invariant (fun _ _ _ hs hp' hstep => hs.step hp' hstep) as newKeepAlive t inv_newKeepAlive hp h
  refine ⟨fun g g' hg hg' => ?_, fun hst x hx hc => ?_, closed_once h⟩
  · exact Option.some.inj (((hinv.quit g).mp hg).symm.trans ((hinv.quit g').mp hg'))
  · obtain ⟨q, hq⟩ := List.mem_iff_getElem?.mp hx
    have := (hinv.quit q).mp ⟨x, hq, hc⟩
    rw [hinv.stopped hst] at this
    cases this

end

/-- A `StartUpstream` from its call to its end: the number of the call. -/
def startRun (i : ℕ) : List KeepAliveAct := [.start, .call i, .call i, .call i]

/-- A `Stop` that closes a channel. -/
def stopRun (i : ℕ) : List KeepAliveAct := [.stop, .call i, .call i, .call i]

/-- A goroutine ends before the next `StartUpstream`. -/
def promptRun : List KeepAliveAct :=
  List.flatten [startRun 0, [.goroutine 0], stopRun 1, [.goroutine 0, .goroutine 0], startRun 2, [.goroutine 1],
    stopRun 3]

theorem owned_of_prompt_twice : ∃ t, exec KeepAlive.step newKeepAlive promptRun = some t ∧
    t.goroutines.length = 2 ∧ t.stopped = true ∧ ∀ x ∈ t.goroutines, x.closed ≠ 0 := by
  have hrun : (exec KeepAlive.step newKeepAlive promptRun).any
      (fun t => decide (t.goroutines.length = 2 ∧ t.stopped = true)) = true := by decide +kernel
  obtain ⟨t, ht, hlast⟩ := (Option.any_eq_true _ _).mp hrun
  obtain ⟨hlen, hst⟩ := of_decide_eq_true hlast
  exact ⟨t, ht, hlen, hst, (owned_of_prompt promptRun t (by decide +kernel) ht).2.1 hst⟩

/-- The first goroutine ends after the second was started, and clears its flag; the `Stop` that
follows returns at once. -/
def lateRun : List KeepAliveAct :=
  List.flatten [startRun 0, [.goroutine 0], stopRun 1, startRun 2, [.goroutine 1, .goroutine 0, .goroutine 0],
    [.stop, .call 3, .call 3]]

/-- **A `Stop` leaves the later goroutine's channel open, and the next `StartUpstream` starts another
beside it.** -/
theorem flag_of_another :
    (∃ t, exec KeepAlive.step newKeepAlive lateRun = some t ∧ t.stopped = true ∧ t.IsOpen 1) ∧
      ∃ t, exec KeepAlive.step newKeepAlive (lateRun ++ startRun 4) = some t ∧ t.IsOpen 1 ∧ t.IsOpen 2 := by
  have hstop : (exec KeepAlive.step newKeepAlive lateRun).any (fun t =>
      decide (t.stopped = true ∧ t.goroutines[1]? = some ⟨0, .running⟩)) = true := by decide +kernel
  have hstart : (exec KeepAlive.step newKeepAlive (lateRun ++ startRun 4)).any (fun t =>
      decide (t.goroutines[1]? = some ⟨0, .running⟩ ∧ t.goroutines[2]? = some ⟨0, .pending⟩)) = true := by
    decide +kernel
  obtain ⟨t, ht, hlast⟩ := (Option.any_eq_true _ _).mp hstop
  obtain ⟨t', ht', hlast'⟩ := (Option.any_eq_true _ _).mp hstart
  obtain ⟨hst, h1⟩ := of_decide_eq_true hlast
  obtain ⟨h1', h2'⟩ := of_decide_eq_true hlast'
  exact ⟨⟨t, ht, hst, _, h1, rfl⟩, t', ht', ⟨_, h1', rfl⟩, _, h2', rfl⟩

end RtspProxy.Upstream
