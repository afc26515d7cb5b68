import RtspProxy.Lifecycle.System

/-!
# A nil remote

`Destroy` sets `s.remote` to nil under the lock. Two goroutines read the field again, without the
lock, far from where they first had it: `doConnectSequence`, after `connectLoop` has made the remote
and dialled, and `readLoop`, for each message in its buffer. A method of a nil remote is called
there, and the process ends (`destroy_crashes`).

## The model

`Buffered` is a stream with what `readLoop` has in its buffer. The loop looks at its context, handles
what is complete in the buffer, item by item and without looking again, and reads more. Each step is
one of the stream or none (`sys_of_step`).

## What is proved

* `Clear` — the moments at which `Destroy` may take the remote: the connect loop is not on its way from
  `NewRemote` to `doConnectSequence`, and the reader has no response left in its buffer.
* `no_crash_of_clear` — a stream whose `Destroy` calls keep to them never crashes.
-/

namespace RtspProxy.Lifecycle

open Theory

/-! ### The reader and its buffer -/

/-- A complete item in the buffer of `readLoop`. -/
inductive Item where
  /-- An interleaved packet, for `dispatch`. -/
  | packet
  /-- A message, for `HandleUpstreamResponse`; it parses as a response or not. -/
  | message (parses : Bool)
  deriving DecidableEq, Repr

/-- Where `readLoop` is in its loop. -/
inductive Phase where
  /-- About to look at the context. -/
  | check
  /-- It handles what is in the buffer. -/
  | items
  /-- In `conn.Read`. -/
  | read
  deriving DecidableEq, Repr

/-- A stream, with the buffer of its reader. -/
structure Buffered where
  /-- The stream. -/
  sys : Sys
  /-- Where the reader is in its loop. -/
  phase : Phase
  /-- The complete items in its buffer. -/
  buffer : List Item
  deriving DecidableEq, Repr

/-- `NewStream`. -/
def newBuffered : Buffered := ⟨newSys, .check, []⟩

/-- The actions. -/
inductive BufAct where
  /-- A step of the stream other than those of the reader in its loop. -/
  | sys (a : Act)
  /-- The reader's next step in its loop. -/
  | pass
  /-- `conn.Read` returns; these items are complete now. -/
  | data (items : List Item)
  /-- `conn.Read` returns an error. -/
  | fails
  deriving DecidableEq, Repr

/-- The reader's next step in its loop. -/
def Buffered.pass (b : Buffered) : Option Buffered :=
  match b.phase, b.buffer with
  | .check, _ =>
    if b.sys.cancelled || b.sys.readCancelled then (b.sys.step (.reader .ctxDone)).map fun s => { b with sys := s }
    else some { b with phase := .items }
  | .items, [] => some { b with phase := .read }
  | .items, .packet :: rest => some { b with buffer := rest }
  | .items, .message parses :: rest =>
    (b.sys.step (.reader (.message parses))).map fun s => { b with sys := s, buffer := rest }
  | .read, _ => none

/-- One step. -/
def Buffered.step (b : Buffered) (a : BufAct) : Option Buffered :=
  if b.sys.crashed then none
  else match a with
    | .sys a =>
      match a, b.sys.reader with
      | .reader _, some .reading => none
      | .reader o, some (.conn _) => (b.sys.step (.reader o)).map fun s => ⟨s, .check, []⟩
      | a, _ => (b.sys.step a).map fun s => { b with sys := s }
    | .pass => if b.sys.reader = some .reading then b.pass else none
    | .data items =>
      if b.sys.reader = some .reading ∧ b.phase = .read then some { b with phase := .check, buffer := items } else none
    | .fails =>
      if b.sys.reader = some .reading ∧ b.phase = .read then
        (b.sys.step (.reader .fails)).map fun s => { b with sys := s }
      else none

/-- **Each step is one of the stream, or none.** -/
theorem sys_of_step {b b' : Buffered} {a : BufAct} (h : b.step a = some b') :
    b'.sys = b.sys ∨ ∃ a', b.sys.step a' = some b'.sys := by
  have hmap {a' : Act} {f : Sys → Buffered} (hf : ∀ s, (f s).sys = s) (hs : (b.sys.step a').map f = some b') :
      ∃ a', b.sys.step a' = some b'.sys := by
    obtain ⟨s, hstep, rfl⟩ := Option.map_eq_some_iff.mp hs
    exact ⟨a', by rw [hstep, hf]⟩
  unfold Buffered.step at h
  obtain ⟨-, h⟩ := Option.ite_none_left_eq_some.mp h
  cases a with
  | sys a =>
    dsimp only at h
    split at h
    · cases h
    · exact .inr (hmap (fun _ => rfl) h)
    · exact .inr (hmap (fun _ => rfl) h)
  | pass =>
    obtain ⟨-, h⟩ := Option.ite_none_right_eq_some.mp h
    unfold Buffered.pass at h
    split at h
    case h_1 =>
      split_ifs at h
      · exact .inr (hmap (fun _ => rfl) h)
      · cases h
        exact .inl rfl
    case h_2 | h_3 =>
      cases h
      exact .inl rfl
    case h_4 => exact .inr (hmap (fun _ => rfl) h)
    case h_5 => cases h
  | data items =>
    obtain ⟨-, ⟨⟩⟩ := Option.ite_none_right_eq_some.mp h
    exact .inl rfl
  | fails =>
    obtain ⟨-, h⟩ := Option.ite_none_right_eq_some.mp h
    exact .inr (hmap (fun _ => rfl) h)

/-! ### When `Destroy` may take the remote -/

/-- The loop will use `s.remote` without a look at it. -/
def LoopPc.needsRemote : LoopPc → Bool
  | .dial _ | .connect => true
  | _ => false

/-- The reader is handling a response. -/
def ReaderPc.inItem : ReaderPc → Bool
  | .handling _ | .starting _ => true
  | _ => false

/-- The reader will handle a response before it looks at its context. -/
def Buffered.pending (b : Buffered) : Bool :=
  b.sys.reader.any (fun pc => pc.inItem || pc = .reading && b.phase = .items) && b.buffer.contains (.message true)

/-- `Destroy` takes the remote only when neither will use it. -/
def Clear (b : Buffered) : BufAct → Prop
  | .sys (.closer i _) => ∀ k ∈ b.sys.closers[i]?, k.destroys = true → k.pc = .take →
      (∀ pc ∈ b.sys.loop, pc.needsRemote = false) ∧ b.pending = false
  | _ => True

instance (b : Buffered) : DecidablePred (Clear b) := fun a =>
  match a with
  | .sys (.closer _ _) => inferInstanceAs (Decidable (∀ k ∈ _, _ → _ → _ ∧ _))
  | .sys .start | .sys (.addClient _) | .sys (.removeClient _) | .sys .stop | .sys .destroy | .sys .shutdown
  | .sys (.loop _) | .sys (.reader _) | .sys (.keepAlive _ _) | .pass | .data _ | .fails => isTrue trivial

/-! ### What such steps keep -/

/-- The loop waits for the reader, or will. -/
def LoopPc.hasReader : LoopPc → Bool
  | .connect | .handshake _ | .starting _ _ | .play | .playing | .draining | .failing => true
  | _ => false

/-- The reader has a connection. -/
def ReaderPc.reads : ReaderPc → Bool
  | .conn _ | .reading | .handling _ | .starting _ => true
  | .start | .done _ => false

/-- What clear steps keep. -/
structure Guarded (b : Buffered) : Prop where
  /-- It has not crashed. -/
  crashed : b.sys.crashed = false
  /-- `loopStarted` is set while the loop is there. -/
  flag : b.sys.loopStarted = b.sys.loop.isSome
  /-- There is a reader only while the loop waits for it. -/
  reader : b.sys.reader.isSome = true → ∃ pc, b.sys.loop = some pc ∧ pc.hasReader = true
  /-- While it handles a response the reader is in its buffer. -/
  phase : ∀ pc ∈ b.sys.reader, pc.inItem = true → b.phase = .items
  /-- `Destroy` has cancelled the context before it takes the remote. -/
  taking : ∀ k ∈ b.sys.closers, k.destroys = true → k.pc = .take → b.sys.cancelled = true
  /-- The loop does not need a remote that is nil. -/
  loop : b.sys.net.remote = none → ∀ pc ∈ b.sys.loop, pc.needsRemote = false
  /-- Nor does the reader. -/
  reading : b.sys.net.remote = none → ∀ pc ∈ b.sys.reader, pc.reads = true → b.sys.cancelled = true ∧ b.pending = false

theorem guarded_newBuffered : Guarded newBuffered := by
  refine ⟨rfl, rfl, ?_, ?_, ?_, ?_, ?_⟩ <;> simp [newBuffered, newSys]

variable {b b' : Buffered} {s s' : Sys}

/-- The reader's place alone decides what it will do with the remote. -/
theorem pending_congr (hreader : s.reader = b.sys.reader) : Buffered.pending { b with sys := s } = b.pending := by
  simp only [Buffered.pending, hreader]

theorem pending_of_buffer (h : b.buffer.contains (.message true) = false) : b.pending = false := by
  simp only [Buffered.pending, h, Bool.and_false]

theorem buffer_of_pending {pc : ReaderPc} (hpc : b.sys.reader = some pc)
    (hin : pc.inItem = true ∨ pc = .reading ∧ b.phase = .items) (h : b.pending = false) :
    b.buffer.contains (.message true) = false := by
  rcases hin with hin | ⟨rfl, hitems⟩
  · simpa [Buffered.pending, hpc, hin] using h
  · simpa [Buffered.pending, hpc, hitems] using h

/-- A step that leaves the loop, the reader and the remote as they are. -/
theorem Guarded.same (h : Guarded b) (hcrashed : s.crashed = b.sys.crashed) (hflag : s.loopStarted = b.sys.loopStarted)
    (hloop : s.loop = b.sys.loop) (hreader : s.reader = b.sys.reader) (hremote : s.net.remote = b.sys.net.remote)
    (hcancelled : b.sys.cancelled = true → s.cancelled = true)
    (htaking : ∀ k ∈ s.closers, k.destroys = true → k.pc = .take → s.cancelled = true) :
    Guarded { b with sys := s } where
  crashed := hcrashed.trans h.crashed
  flag := by rw [hflag, hloop, h.flag]
  reader := by
    rw [hreader, hloop]
    exact h.reader
  phase := by
    rw [hreader]
    exact h.phase
  taking := htaking
  loop := by
    rw [hremote, hloop]
    exact h.loop
  reading := by
    rw [hremote, hreader, pending_congr hreader]
    exact fun hnone pc hpc hreads => (h.reading hnone pc hpc hreads).imp_left hcancelled

/-! ### The connect loop -/

section
variable (n : Net) (r obj : ℕ)

theorem remote_dialLocked (ok : Bool) : (n.dialLocked r ok).1.remote = n.remote := by
  unfold Net.dialLocked
  split_ifs <;> rfl

theorem remote_sendRequest (o : SendOutcome) : (n.sendRequest r o).1.remote = n.remote := by
  unfold Net.sendRequest
  dsimp only
  split_ifs <;> simp [Net.setConn, remote_dialLocked]

theorem remote_startUpstream : (n.startUpstream obj).remote = n.remote := by
  unfold Net.startUpstream
  split <;> rfl

theorem remote_sessionStop : (n.sessionStop obj).remote = n.remote := by
  unfold Net.sessionStop
  split <;> rfl

theorem remote_lookupSession (id : ℕ) : (n.lookupSession id).1.remote = n.remote := by
  unfold Net.lookupSession
  split <;> rfl

end

/-- What a step of the loop does to its place, the reader and the remote. -/
inductive Sys.LoopMove (s : Sys) (pc : LoopPc) (s' : Sys) : Prop
  /-- It replaces the remote. -/
  | replace (hpc : pc = .newRemote) (hr : s'.reader = s.reader)
      (hl : s'.loop = some .giveUp ∨ s'.net.remote ≠ none ∧ ∃ r, s'.loop = some (.dial r))
  /-- It has dialled, and starts the reader. -/
  | dial (r : ℕ) (hpc : pc = .dial r) (hr : s'.reader = some .start) (hl : s'.loop = some .connect)
      (hremote : s'.net.remote = s.net.remote)
  /-- It goes on. -/
  | move (pc' : LoopPc) (hl : s'.loop = some pc') (hneeds : pc'.needsRemote = false)
      (hr : s'.reader = none ∨ s'.reader = s.reader ∧ (pc.hasReader = true → pc'.hasReader = true))
      (hremote : s'.net.remote = s.net.remote)
  | gone (hpc : pc = .returning) (hl : s'.loop = none) (hr : s'.reader = s.reader) (hremote : s'.net.remote = s.net.remote)

/-- The rest of the stream after a step of the loop. -/
structure Sys.Rest (s s' : Sys) : Prop where
  /-- It has not crashed. -/
  crashed : s'.crashed = s.crashed
  /-- The context is the same. -/
  cancelled : s'.cancelled = s.cancelled
  /-- So are the calls of `Stop` and `Destroy`. -/
  closers : s'.closers = s.closers
  /-- The flag goes with the loop. -/
  flag : s.loopStarted = true → s'.loopStarted = s'.loop.isSome

/-- **A step of the loop**: it calls a method of a nil remote, or moves. -/
theorem stepLoop_move {pc : LoopPc} {o : LoopChoice} (hpc : s.loop = some pc) (h : s.stepLoop pc o = some s') :
    pc = .connect ∧ s.net.remote = none ∨ s.LoopMove pc s' ∧ s.Rest s' := by
  have hgo {s' : Sys} {pc' : LoopPc} (hl : s'.loop = some pc') (hneeds : pc'.needsRemote = false)
      (hr : s'.reader = none ∨ s'.reader = s.reader ∧ (pc.hasReader = true → pc'.hasReader = true))
      (hremote : s'.net.remote = s.net.remote) (hcrashed : s'.crashed = s.crashed)
      (hcancelled : s'.cancelled = s.cancelled) (hclosers : s'.closers = s.closers)
      (hflag : s'.loopStarted = s.loopStarted) : s.LoopMove pc s' ∧ s.Rest s' :=
    ⟨.move pc' hl hneeds hr hremote, hcrashed, hcancelled, hclosers, fun hs => by rw [hflag, hs, hl]; rfl⟩
  unfold Sys.stepLoop at h
  split at h
  case h_1 =>
    cases h
    split_ifs <;> exact .inr (hgo rfl rfl (.inr ⟨rfl, nofun⟩) rfl rfl rfl rfl rfl)
  case h_3 =>
    cases h
    unfold Sys.enterConnecting
    split_ifs
    · exact .inr (hgo rfl rfl (.inr ⟨rfl, nofun⟩) rfl rfl rfl rfl rfl)
    · split <;> exact .inr (hgo rfl rfl (.inr ⟨rfl, nofun⟩) rfl rfl rfl rfl rfl)
  case h_4 resolved =>
    cases h
    unfold Sys.replaceRemote
    dsimp only
    split
    · exact .inr ⟨.replace rfl rfl (.inl rfl), rfl, rfl, rfl, fun hs => hs⟩
    case h_2 r hr =>
      exact .inr ⟨.replace rfl rfl (.inr ⟨by simp [Sys.goto, hr], r, rfl⟩), rfl, rfl, rfl, fun hs => hs⟩
  case h_5 r ok =>
    cases h
    unfold Sys.dialRemote
    dsimp only
    split_ifs
    · exact .inr ⟨.dial r rfl rfl rfl (remote_dialLocked ..), rfl, rfl, rfl, fun hs => hs⟩
    · exact .inr (hgo rfl rfl (.inr ⟨rfl, nofun⟩) (remote_dialLocked ..) rfl rfl rfl rfl)
  case h_6 =>
    split at h
    case h_1 hnone => exact .inl ⟨rfl, hnone⟩
    case h_2 r hr =>
      cases h
      exact .inr (hgo rfl rfl (.inr ⟨rfl, fun _ => rfl⟩) rfl rfl rfl rfl rfl)
  case h_7 r o =>
    cases h
    split_ifs <;> exact .inr (hgo rfl rfl (.inr ⟨rfl, fun _ => rfl⟩) (remote_sendRequest ..) rfl rfl rfl rfl)
  case h_9 =>
    split at h
    · cases h
    · cases h
      exact .inr (hgo rfl rfl (.inr ⟨rfl, fun _ => rfl⟩) rfl rfl rfl rfl rfl)
  case h_10 =>
    cases h
    exact .inr (hgo rfl rfl (.inr ⟨rfl, fun _ => rfl⟩) (remote_startUpstream ..) rfl rfl rfl rfl)
  case h_8 r =>
    cases h
    exact .inr (hgo hpc rfl (.inr ⟨rfl, fun _ => rfl⟩) rfl rfl rfl rfl rfl)
  case h_13 =>
    cases h
    unfold Sys.enterPlaying
    split <;> exact .inr (hgo rfl rfl (.inr ⟨rfl, fun _ => rfl⟩) rfl rfl rfl rfl rfl)
  case h_16 =>
    cases h
    unfold Sys.afterRead
    split_ifs <;> exact .inr (hgo rfl rfl (.inr ⟨rfl, nofun⟩) rfl rfl rfl rfl rfl)
  case h_14 | h_17 | h_18 =>
    split at h
    · cases h
      exact .inr (hgo rfl rfl (.inl rfl) rfl rfl rfl rfl rfl)
    · cases h
  case h_19 =>
    cases h
    split_ifs <;> exact .inr (hgo rfl rfl (.inr ⟨rfl, nofun⟩) rfl rfl rfl rfl rfl)
  case h_23 =>
    split_ifs at h
    cases h
    exact .inr (hgo rfl rfl (.inr ⟨rfl, nofun⟩) rfl rfl rfl rfl rfl)
  case h_24 =>
    cases h
    exact .inr ⟨.gone rfl rfl rfl rfl, rfl, rfl, rfl, fun _ => rfl⟩
  case h_25 => cases h
  case h_11 | h_12 =>
    cases h
    exact .inr (hgo rfl rfl (.inr ⟨rfl, fun _ => rfl⟩) rfl rfl rfl rfl rfl)
  all_goals
    cases h
    exact .inr (hgo rfl rfl (.inr ⟨rfl, nofun⟩) rfl rfl rfl rfl rfl)

/-- **The connect loop** keeps to it. -/
theorem Guarded.stepLoop (h : Guarded b) {pc : LoopPc} {o : LoopChoice} (hpc : b.sys.loop = some pc)
    (hs : b.sys.stepLoop pc o = some s) : Guarded { b with sys := s } := by
  rcases stepLoop_move hpc hs with ⟨rfl, hnone⟩ | ⟨hmove, hrest⟩
  · exact absurd (h.loop hnone _ hpc) (by simp [LoopPc.needsRemote])
  · have hstarted : b.sys.loopStarted = true := by rw [h.flag, hpc]; rfl
    have htaking : ∀ k ∈ s.closers, k.destroys = true → k.pc = .take → s.cancelled = true := by
      rw [hrest.closers, hrest.cancelled]
      exact h.taking
    have hwaits (hsome : b.sys.reader.isSome = true) : pc.hasReader = true := by
      obtain ⟨pc', hpc', hhas⟩ := h.reader hsome
      rwa [Option.some.inj (hpc.symm.trans hpc')]
    have hidle (hno : pc.hasReader = false) : b.sys.reader = none := by
      by_contra hsome
      exact Bool.false_ne_true (hno.symm.trans (hwaits (Option.isSome_iff_ne_none.mpr hsome)))
    have hnoReader (hr : s.reader = none) (hl : s.net.remote = none → ∀ pc ∈ s.loop, pc.needsRemote = false) :
        Guarded { b with sys := s } :=
      ⟨hrest.crashed.trans h.crashed, hrest.flag hstarted, by simp [hr], by simp [hr], htaking, hl, by simp [hr]⟩
    cases hmove with
    | replace hnew hr hl =>
      have hnone := hidle (by rw [hnew]; rfl)
      refine hnoReader (hr.trans hnone) fun hremote pc' hpc' => ?_
      rcases hl with hl | ⟨hsome, -⟩
      · rw [hl] at hpc'
        cases hpc'
        rfl
      · exact absurd hremote hsome
    | dial r hdial hr hl hremote =>
      have hsome : s.net.remote ≠ none := by
        rw [hremote]
        intro hnone
        have := h.loop hnone _ hpc
        rw [hdial] at this
        cases this
      refine ⟨hrest.crashed.trans h.crashed, hrest.flag hstarted, fun _ => ⟨.connect, hl, rfl⟩, ?_, htaking,
        fun hnone => absurd hnone hsome, fun hnone => absurd hnone hsome⟩
      rintro pc' hpc' hin
      rw [hr] at hpc'
      cases hpc'
      cases hin
    | move pc' hl hneeds hr hremote =>
      rcases hr with hr | ⟨hr, hhas⟩
      · refine hnoReader hr fun _ pc'' hpc'' => ?_
        rw [hl] at hpc''
        cases hpc''
        exact hneeds
      · refine ⟨hrest.crashed.trans h.crashed, hrest.flag hstarted, fun hsome => ⟨pc', hl, hhas (hwaits (hr ▸ hsome))⟩, ?_,
          htaking, fun _ pc'' hpc'' => ?_, ?_⟩
        · rw [hr]
          exact h.phase
        · rw [hl] at hpc''
          cases hpc''
          exact hneeds
        · rw [hremote, hr, hrest.cancelled, pending_congr hr]
          exact h.reading
    | gone hret hl hr hremote =>
      have hnone := hidle (by rw [hret]; rfl)
      exact hnoReader (hr.trans hnone) (by simp [hl])

/-! ### `Stop` and `Destroy` -/

/-- A caller goes on, and is not about to take the remote. -/
theorem Guarded.taking_set (h : Guarded b) (i : ℕ) {k : Closer} (hk : k.pc ≠ .take) :
    ∀ k' ∈ b.sys.closers.set i k, k'.destroys = true → k'.pc = .take → b.sys.cancelled = true := by
  intro k' hk' hd htake
  rcases List.mem_or_eq_of_mem_set hk' with hold | rfl
  · exact h.taking k' hold hd htake
  · exact absurd htake hk

/-- `Destroy` takes the remote at a moment that is clear. -/
theorem Guarded.take (h : Guarded b) {i : ℕ} {k : Closer} (hget : b.sys.closers[i]? = some k) (hd : k.destroys = true)
    (htake : k.pc = .take) (hclear : (∀ pc ∈ b.sys.loop, pc.needsRemote = false) ∧ b.pending = false) {pc : ClosePc}
    (hpc : pc ≠ .take) : Guarded { b with sys := (b.sys.takeSessions true).closerAt i k pc } where
  crashed := h.crashed
  flag := h.flag
  reader := h.reader
  phase := h.phase
  taking := h.taking_set i hpc
  loop _ := hclear.1
  reading _ _ _ _ := ⟨h.taking k (List.mem_of_getElem? hget) hd htake, hclear.2⟩

/-- **`Stop` and `Destroy`** keep to it. -/
theorem Guarded.stepCloser (h : Guarded b) {i : ℕ} {o : SendOutcome} (hclear : Clear b (.sys (.closer i o)))
    (hs : b.sys.stepCloser i o = some s) : Guarded { b with sys := s } := by
  unfold Sys.stepCloser at hs
  split at hs
  · cases hs
  case h_2 k hget =>
    have hgo {n : Net} {pc : ClosePc} (hn : n.remote = b.sys.net.remote) (hpc : pc ≠ .take) :
        Guarded { b with sys := { b.sys with net := n }.closerAt i k pc } :=
      h.same rfl rfl rfl rfl hn id (h.taking_set i hpc)
    split at hs
    case h_1 hpc =>
      cases hs
      exact h.same rfl rfl rfl rfl rfl (fun _ => rfl) fun _ _ _ _ => rfl
    case h_2 hpc =>
      cases hd : k.destroys with
      | true =>
        rw [hd] at hs
        split at hs <;> cases hs <;> exact h.take hget hd hpc (hclear k hget hd hpc) (by simp)
      | false =>
        rw [hd] at hs
        split at hs <;> cases hs <;> exact hgo rfl (by simp)
    case h_3 | h_6 =>
      cases hs
      exact hgo rfl (by simp)
    case h_4 =>
      cases hs
      exact hgo (remote_sendRequest ..) (by simp)
    case h_5 =>
      cases hs
      exact hgo rfl (by simp)
    case h_7 =>
      cases hs
      exact hgo (remote_sessionStop ..) (by simp)
    case h_8 =>
      cases hs
      have htaking : ∀ k' ∈ b.sys.closers.eraseIdx i, k'.destroys = true → k'.pc = .take → b.sys.cancelled = true :=
        fun k' hk' => h.taking k' (List.mem_of_mem_eraseIdx hk')
      split <;> exact h.same rfl rfl rfl rfl rfl id htaking

/-! ### Keep-alives and callers -/

theorem remote_stepKeepAlive {n m : Net} {cancelled : Bool} {i : ℕ} {o : KeepAliveChoice}
    (h : n.stepKeepAlive cancelled i o = some m) : m.remote = n.remote := by
  unfold Net.stepKeepAlive at h
  split at h
  · cases h
  · split at h
    case h_3 =>
      split_ifs at h <;> cases h <;> exact remote_sendRequest ..
    case h_1 => split at h <;> cases h <;> rfl
    case h_2 | h_5 => split_ifs at h <;> cases h <;> rfl
    case h_7 => cases h
    all_goals
      cases h
      rfl

theorem Guarded.startConnectLoop (h : Guarded b) : Guarded { b with sys := b.sys.startConnectLoop } := by
  unfold Sys.startConnectLoop
  split_ifs with hstarted
  · exact h
  · have hnone : b.sys.loop = none := by
      rw [← Option.not_isSome_iff_eq_none, ← h.flag]
      exact hstarted
    have hreader : b.sys.reader = none := by
      by_contra hsome
      obtain ⟨pc, hpc, -⟩ := h.reader (Option.isSome_iff_ne_none.mpr hsome)
      rw [hnone] at hpc
      cases hpc
    refine ⟨h.crashed, rfl, by simp [hreader], h.phase, h.taking, ?_, h.reading⟩
    rintro - _ ⟨⟩
    rfl

/-- **The calls and the goroutines other than the reader.** -/
theorem Guarded.stepOther (h : Guarded b) {a : Act} (ha : ∀ o, a ≠ .reader o) (hclear : Clear b (.sys a))
    (hs : b.sys.step a = some s) : Guarded { b with sys := s } := by
  unfold Sys.step at hs
  rw [if_neg (by simp [h.crashed])] at hs
  cases a with
  | start =>
    cases hs
    unfold Sys.start
    split_ifs
    · exact h
    · have hcore : Guarded { b with sys := b.sys.setCore (b.sys.core.unsafeSetState .connecting) } :=
        h.same rfl rfl rfl rfl rfl id h.taking
      exact hcore.startConnectLoop
  | addClient client =>
    cases hs
    unfold Sys.addClient
    split_ifs
    · exact h
    · have hclients : Guarded { b with sys := { b.sys with clients := client :: b.sys.clients, waiting := client :: b.sys.waiting } } :=
        h.same rfl rfl rfl rfl rfl id h.taking
      exact hclients.startConnectLoop
    · exact h.same rfl rfl rfl rfl rfl id h.taking
  | removeClient client =>
    cases hs
    exact h.same rfl rfl rfl rfl rfl id h.taking
  | stop =>
    cases hs
    unfold Sys.stop
    split
    · exact h
    · refine h.same rfl rfl rfl rfl rfl id fun k hk hd htake => ?_
      rcases List.mem_append.mp hk with hk | hk
      · exact h.taking k hk hd htake
      · rw [List.mem_singleton.mp hk] at hd
        cases hd
  | destroy =>
    cases hs
    refine h.same rfl rfl rfl rfl rfl id fun k hk hd htake => ?_
    rcases List.mem_append.mp hk with hk | hk
    · exact h.taking k hk hd htake
    · rw [List.mem_singleton.mp hk] at htake
      cases htake
  | shutdown =>
    cases hs
    exact h.same rfl rfl rfl rfl rfl (fun _ => rfl) fun _ _ _ _ => rfl
  | loop o =>
    obtain ⟨pc, hpc, hs⟩ := Option.bind_eq_some_iff.mp hs
    exact h.stepLoop hpc hs
  | reader o => exact absurd rfl (ha o)
  | closer i o => exact h.stepCloser hclear hs
  | keepAlive i o =>
    obtain ⟨n, hn, rfl⟩ := Option.map_eq_some_iff.mp hs
    exact h.same rfl rfl rfl rfl (remote_stepKeepAlive hn) id h.taking

/-! ### The reader -/

theorem Guarded.readerAt (h : Guarded b) (hsome : b.sys.reader.isSome = true) {pc : ReaderPc} {n : Net} {phase : Phase}
    {buffer : List Item} (hn : n.remote = b.sys.net.remote) (hphase : pc.inItem = true → phase = .items)
    (hreading : b.sys.net.remote = none → pc.reads = true → b.sys.cancelled = true ∧
      Buffered.pending ⟨{ b.sys with reader := some pc, net := n }, phase, buffer⟩ = false) :
    Guarded ⟨{ b.sys with reader := some pc, net := n }, phase, buffer⟩ := by
  refine ⟨h.crashed, h.flag, fun _ => h.reader hsome, ?_, h.taking, fun hnone => h.loop (hn ▸ hnone), ?_⟩
  · rintro _ ⟨⟩ hin
    exact hphase hin
  · rintro hnone _ ⟨⟩ hreads
    exact hreading (hn ▸ hnone) hreads

theorem step_reader {pc : ReaderPc} (hcrashed : s.crashed = false) (hpc : s.reader = some pc) (o : ReaderChoice) :
    s.step (.reader o) = s.stepReader pc o := by
  simp [Sys.step, hcrashed, hpc]

/-- The reader's steps before and within a response. -/
theorem Guarded.stepReader (h : Guarded b) {pc : ReaderPc} {o : ReaderChoice} (hpc : b.sys.reader = some pc)
    (hnot : pc ≠ .reading) (hconn : ∀ r, pc ≠ .conn r) (hs : b.sys.stepReader pc o = some s) : Guarded { b with sys := s } := by
  have hsome : b.sys.reader.isSome = true := by rw [hpc]; rfl
  have hback {pc' : ReaderPc} {n : Net} (hin : pc.inItem = true) (hn : n.remote = b.sys.net.remote)
      (hpc' : pc' = .reading ∨ pc'.inItem = true) : Guarded { b with sys := { b.sys with reader := some pc', net := n } } := by
    have hitems := h.phase pc hpc hin
    have hreads : pc.reads = true := by cases pc <;> first | rfl | cases hin
    refine h.readerAt hsome hn (fun _ => hitems) fun hnone _ => ?_
    obtain ⟨hcancelled, hpending⟩ := h.reading hnone pc hpc hreads
    have hbuffer := buffer_of_pending hpc (.inl hin) hpending
    exact ⟨hcancelled, pending_of_buffer hbuffer⟩
  unfold Sys.stepReader at hs
  split at hs
  case h_1 =>
    split at hs
    · cases hs
      exact h.readerAt hsome rfl nofun nofun
    case h_2 r hr =>
      cases hs
      exact h.readerAt hsome rfl nofun fun hnone => absurd (hr.symm.trans hnone) (by simp)
  case h_2 r => exact absurd rfl (hconn r)
  case h_3 | h_4 | h_5 => exact absurd rfl hnot
  case h_6 r =>
    cases hs
    exact hback rfl rfl (.inl rfl)
  case h_7 r id =>
    cases hs
    exact hback rfl (remote_lookupSession ..) (.inl rfl)
  case h_8 r id =>
    cases hs
    exact hback rfl (remote_lookupSession ..) (.inr rfl)
  case h_9 obj =>
    cases hs
    exact hback rfl (remote_startUpstream ..) (.inl rfl)
  case h_10 r o =>
    cases hs
    exact hback rfl (remote_sendRequest ..) (.inl rfl)
  case h_11 => cases hs

theorem Guarded.inLoop (h : Guarded b) (hpc : b.sys.reader = some .reading) {phase : Phase} {buffer : List Item}
    (hbuffer : b.sys.net.remote = none → phase = .items → buffer.contains (.message true) = false) :
    Guarded ⟨b.sys, phase, buffer⟩ := by
  have hself : b.sys = { b.sys with reader := some .reading, net := b.sys.net } := by rw [← hpc]
  rw [hself]
  refine h.readerAt (by rw [hpc]; rfl) rfl nofun fun hnone _ => ⟨(h.reading hnone _ hpc rfl).1, ?_⟩
  by_cases hitems : phase = .items
  · exact pending_of_buffer (hbuffer hnone hitems)
  · simp [Buffered.pending, hitems, ReaderPc.inItem]

theorem Guarded.pass (h : Guarded b) (hpc : b.sys.reader = some .reading) (hs : b.pass = some b') : Guarded b' := by
  have hsome : b.sys.reader.isSome = true := by rw [hpc]; rfl
  have hreading := fun hnone => h.reading hnone _ hpc rfl
  unfold Buffered.pass at hs
  split at hs
  case h_1 hphase =>
    split_ifs at hs with hdone
    · obtain ⟨s, hstep, rfl⟩ := Option.map_eq_some_iff.mp hs
      rw [step_reader h.crashed hpc] at hstep
      obtain ⟨-, ⟨⟩⟩ := Option.ite_none_right_eq_some.mp hstep
      exact h.readerAt hsome rfl nofun nofun
    · cases hs
      refine h.inLoop hpc fun hnone _ => ?_
      simp [(hreading hnone).1] at hdone
  case h_2 =>
    cases hs
    exact h.inLoop hpc nofun
  case h_3 rest hphase hbuffer =>
    cases hs
    refine h.inLoop hpc fun hnone _ => ?_
    have := buffer_of_pending hpc (.inr ⟨rfl, hphase⟩) (hreading hnone).2
    simpa [hbuffer] using this
  case h_4 parses rest hphase hbuffer =>
    obtain ⟨s, hs, rfl⟩ := Option.map_eq_some_iff.mp hs
    rw [step_reader h.crashed hpc] at hs
    have hclean (hnone : b.sys.net.remote = none) : parses = false ∧ rest.contains (.message true) = false := by
      have := buffer_of_pending hpc (.inr ⟨rfl, hphase⟩) (hreading hnone).2
      simpa [hbuffer] using this
    simp only [Sys.stepReader] at hs
    split_ifs at hs with hparses
    · split at hs
      case h_1 hnone =>
        rw [(hclean hnone).1] at hparses
        cases hparses
      case h_2 r hr =>
        cases hs
        exact h.readerAt hsome rfl (fun _ => hphase) fun hnone => absurd (hr.symm.trans hnone) (by simp)
    · cases hs
      exact h.inLoop hpc fun hnone _ => (hclean hnone).2
  case h_5 => cases hs

/-- **One clear step.** -/
theorem Guarded.step (h : Guarded b) {a : BufAct} (hclear : Clear b a) (hs : b.step a = some b') : Guarded b' := by
  unfold Buffered.step at hs
  rw [if_neg (by simp [h.crashed])] at hs
  cases a with
  | sys a =>
    by_cases ha : ∃ o, a = .reader o
    · obtain ⟨o, rfl⟩ := ha
      cases hpc : b.sys.reader with
      | none => simp [hpc, Sys.step] at hs
      | some pc =>
        have hsome : b.sys.reader.isSome = true := by rw [hpc]; rfl
        cases pc with
        | reading => simp [hpc] at hs
        | conn r =>
          simp only [hpc, step_reader h.crashed hpc, Option.map_eq_some_iff] at hs
          obtain ⟨s, hstep, rfl⟩ := hs
          cases o <;> cases hstep
          refine h.readerAt hsome rfl (by split_ifs <;> exact nofun) fun hnone _ => ⟨?_, pending_of_buffer rfl⟩
          exact (h.reading hnone _ hpc rfl).1
        | _ =>
          simp only [hpc, step_reader h.crashed hpc, Option.map_eq_some_iff] at hs
          obtain ⟨s, hstep, rfl⟩ := hs
          exact h.stepReader hpc nofun nofun hstep
    · have hother : (b.sys.step a).map (fun s => { b with sys := s }) = some b' := by
        cases a with
        | reader o => exact absurd ⟨o, rfl⟩ ha
        | _ => exact hs
      obtain ⟨s, hstep, rfl⟩ := Option.map_eq_some_iff.mp hother
      exact h.stepOther (fun o ho => ha ⟨o, ho⟩) hclear hstep
  | pass =>
    obtain ⟨hpc, hs⟩ := Option.ite_none_right_eq_some.mp hs
    exact h.pass hpc hs
  | data items =>
    obtain ⟨⟨hpc, hphase⟩, ⟨⟩⟩ := Option.ite_none_right_eq_some.mp hs
    exact h.inLoop hpc nofun
  | fails =>
    obtain ⟨⟨hpc, hphase⟩, hs⟩ := Option.ite_none_right_eq_some.mp hs
    obtain ⟨s, hstep, rfl⟩ := Option.map_eq_some_iff.mp hs
    rw [step_reader h.crashed hpc] at hstep
    cases hstep
    exact h.readerAt (by rw [hpc]; rfl) rfl nofun nofun

/-- **`Destroy` does not crash the running loops** as long as it takes the remote at moments that are
clear, whatever the interleaving. -/
theorem no_crash_of_clear (as : List BufAct) (t : Buffered) (hclear : AllSteps Buffered.step Clear newBuffered as)
    (hexec : exec Buffered.step newBuffered as = some t) : t.sys.crashed = false :=
  (exec_invariant (fun _ _ _ hI hC hs => Guarded.step hI hC hs) as _ t guarded_newBuffered hclear hexec).crashed

/-- A stream connects; the reader is in its loop. -/
def connected : List BufAct :=
  [.sys .start, .sys (.loop .next), .sys (.loop .next), .sys (.loop .next), .sys (.loop (.made true)),
    .sys (.loop (.dialed true)), .sys (.reader .next), .sys (.reader .next), .pass, .pass]

/-- `Destroy` comes as far as taking the remote. -/
def destroys : List BufAct := [.sys .destroy, .sys (.closer 0 .ok), .sys (.closer 0 .ok)]

/-- The camera has answered, the reader waits for more, and the stream plays when it is destroyed; the
reader ends. -/
def destroyedPlaying : List BufAct :=
  connected ++ [.sys (.loop .next), .data [.message true, .packet], .pass, .pass, .sys (.reader .handled), .pass, .pass,
    .sys (.loop .succeeded), .sys (.loop .next)] ++ destroys ++ [.data [.message true], .pass]

theorem no_crash_of_clear_playing :
    AllSteps Buffered.step Clear newBuffered destroyedPlaying ∧
    ∃ t, exec Buffered.step newBuffered destroyedPlaying = some t ∧ t.sys.net.remote = none ∧
      t.sys.reader = some (.done false) ∧ t.sys.crashed = false := by
  have hclear : AllSteps Buffered.step Clear newBuffered destroyedPlaying := by decide +kernel
  have hrun : (exec Buffered.step newBuffered destroyedPlaying).any (fun t =>
      t.sys.net.remote.isNone && t.sys.reader == some (.done false)) = true := by decide +kernel
  obtain ⟨t, ht, hboth⟩ := (Option.any_eq_true _ _).mp hrun
  simp only [Bool.and_eq_true, beq_iff_eq, Option.isNone_iff_eq_none] at hboth
  exact ⟨hclear, t, ht, hboth.1, hboth.2, no_crash_of_clear _ t hclear ht⟩

/-- **`Destroy` crashes the running loops**: before `doConnectSequence` reads `s.remote`, and between two
responses in the reader's buffer. -/
theorem destroy_crashes :
    (∃ t, exec Buffered.step newBuffered (connected ++ destroys ++ [.sys (.loop .next)]) = some t ∧
      t.sys.net.remote = none ∧ t.sys.crashed = true) ∧
    ∃ t, exec Buffered.step newBuffered (connected ++ [.sys (.loop .next), .data [.message true, .message true], .pass, .pass] ++
        destroys ++ [.sys (.reader .handled), .pass]) = some t ∧
      t.sys.net.remote = none ∧ t.sys.crashed = true := by
  have hloop : (exec Buffered.step newBuffered (connected ++ destroys ++ [.sys (.loop .next)])).any (fun t =>
      t.sys.net.remote.isNone && t.sys.crashed) = true := by decide +kernel
  have hreader : (exec Buffered.step newBuffered (connected ++ [.sys (.loop .next), .data [.message true, .message true], .pass,
      .pass] ++ destroys ++ [.sys (.reader .handled), .pass])).any (fun t =>
        t.sys.net.remote.isNone && t.sys.crashed) = true := by decide +kernel
  obtain ⟨t, ht, hboth⟩ := (Option.any_eq_true _ _).mp hloop
  obtain ⟨t', ht', hboth'⟩ := (Option.any_eq_true _ _).mp hreader
  simp only [Bool.and_eq_true, Option.isNone_iff_eq_none] at hboth hboth'
  exact ⟨⟨t, ht, hboth⟩, t', ht', hboth'⟩

end RtspProxy.Lifecycle
