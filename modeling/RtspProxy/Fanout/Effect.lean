import RtspProxy.Fanout.Model
import Mathlib.Logic.Relation

/-!
# What a step does to the packets

A packet is in the hands of a reader, then of a session, then of a client's writer. The steps
of `Fan.step` come down to a few effects on what each of them holds: a session or a client goes
on with what it has, a slice is handed over, a buffer goes back to the pool, a client comes or
goes.

## What is proved

* `effects_of_step` — each step of the server is a sequence of effects; so what each effect keeps,
  each step keeps (`invariant_of_step`).
-/

namespace RtspProxy.Fanout

open Theory Wire Relation

variable {cfg : Config} {s t : Fan}

/-! ### What is held -/

/-- The packet a session is forwarding. -/
def RunPc.hand : RunPc → List Slice
  | .forward x => [x]
  | _ => []

/-- The buffer a session's goroutine has. -/
def RunPc.bufs : RunPc → List ℕ
  | .forward x | .slow x | .drainPut x => [x.buf]
  | _ => []

/-- What a session may still send to its client. -/
def Session.line (cs : Session) : List Slice := cs.pc.hand ++ cs.queue

/-- The buffers of a session. -/
def Session.bufs (cs : Session) : List ℕ := cs.pc.bufs ++ cs.queue.map Slice.buf

/-- The slice a writer is about to write. -/
def WriterPc.hand : WriterPc → List Slice
  | .write x => [x]
  | _ => []

/-- The buffer a writer has. -/
def WriterPc.bufs : WriterPc → List ℕ
  | .write x | .put x _ | .drainPut x => [x.buf]
  | _ => []

/-- What a client's writer may still write. -/
def Client.line (cl : Client) : List Slice := cl.pc.hand ++ cl.writeChan

/-- The buffers of a client. -/
def Client.bufs (cl : Client) : List ℕ := cl.pc.bufs ++ cl.writeChan.map Slice.buf

/-- The buffer a reader has. -/
def LoopPc.bufs : LoopPc → List ℕ
  | .reading (.got _ _ buf _) | .reading (.push _ _ buf _) | .reading (.refused _ buf _) => [buf]
  | _ => []

/-- The targets a reader has not pushed to yet. -/
def LoopPc.targets : LoopPc → List Target
  | .reading (.next _ targets) | .reading (.refused _ _ targets) => targets
  | .reading (.got _ t _ targets) | .reading (.push _ t _ targets) => t :: targets
  | _ => []

/-- `connectLoop` is not in the middle of a dispatch. -/
def LoopPc.Quiet : LoopPc → Prop
  | .off | .connecting | .reading .idle => True
  | _ => False

/-- Outside of `dispatch` a reader has no buffer. -/
theorem LoopPc.Quiet.bufs {l : LoopPc} (h : l.Quiet) : l.bufs = [] := by
  rcases l with _ | _ | (_ | _ | _ | _ | _) <;> first | rfl | exact absurd h id

/-- Outside of `dispatch` a reader has no targets. -/
theorem LoopPc.Quiet.targets {l : LoopPc} (h : l.Quiet) : l.targets = [] := by
  rcases l with _ | _ | (_ | _ | _ | _ | _) <;> first | rfl | exact absurd h id

/-! ### Effects -/

/-- A session goes on with what it has: it may give up the packet in its hand, but not the
buffer. -/
structure Session.Move (cs cs' : Session) : Prop where
  /-- It stays the session of its stream. -/
  stream : cs'.stream = cs.stream
  /-- It stays the session of its client. -/
  client : cs'.client = cs.client
  /-- It is not stopped. -/
  active : cs'.active = cs.active
  /-- Its goroutine does not start again. -/
  exited : cs.pc = .exited → cs'.pc = .exited
  /-- It sends no more than it had to send. -/
  line : cs'.line.Sublist cs.line

/-- What a step can do. -/
inductive Effect (cfg : Config) (s : Fan) : Fan → Prop
  /-- The server is cancelled, or panics. -/
  | flags (done panicked : Bool) : Effect cfg s { s with done := done, panicked := panicked }
  /-- `connectLoop` goes on outside of `dispatch`. -/
  | loop (r : ℕ) (l : LoopPc) (h : l.Quiet) : Effect cfg s (s.setLoop r l)
  /-- A reader selects the targets of a frame. -/
  | dispatch (r : ℕ) (f : Frame) (targets : List Target) (hl : (s.streams r).loop = .reading .idle)
      (hlen : f.encode.length ≤ cfg.bufferSize) (ht : targets.Perm (s.targets r f.channel.toNat)) :
      Effect cfg s (s.setStream r fun st =>
        { st with
          loop := .reading (.next f.encode targets)
          history := st.history ++ [⟨f, s.mapped r f.channel.toNat⟩] })
  /-- It gets a buffer that was used before. -/
  | take (r : ℕ) {packet : Bytes} {t : Target} {targets : List Target} (buf : ℕ)
      (hl : (s.streams r).loop = .reading (.next packet (t :: targets))) (hb : buf ∈ s.pool) :
      Effect cfg s ((s.setPool (s.pool.erase buf)).setLoop r (.reading (.got packet t buf targets)))
  /-- It gets a new buffer. -/
  | make (r : ℕ) {packet : Bytes} {t : Target} {targets : List Target}
      (hl : (s.streams r).loop = .reading (.next packet (t :: targets))) :
      Effect cfg s ((s.newBuf cfg).setLoop r (.reading (.got packet t s.nextBuf targets)))
  /-- It fills its buffer. -/
  | fill (r : ℕ) {packet : Bytes} {t : Target} {buf : ℕ} {targets : List Target}
      (hl : (s.streams r).loop = .reading (.got packet t buf targets)) :
      Effect cfg s
        ((s.setBuf buf (clientPacket packet t.clientChannel ++ (s.heap buf).drop packet.length)).setLoop r
          (.reading (.push packet t buf targets)))
  /-- It hands the buffer to the target's session. -/
  | push (r : ℕ) {packet : Bytes} {t : Target} {buf : ℕ} {targets : List Target}
      (hl : (s.streams r).loop = .reading (.push packet t buf targets)) :
      Effect cfg s ((s.setSession t.session fun cs =>
        { cs with queue := cs.queue ++ [⟨r, buf, packet.length⟩] }).setLoop r (.reading (.next packet targets)))
  /-- The session has no room. -/
  | refuse (r : ℕ) {packet : Bytes} {t : Target} {buf : ℕ} {targets : List Target}
      (hl : (s.streams r).loop = .reading (.push packet t buf targets)) :
      Effect cfg s (s.setLoop r (.reading (.refused packet buf targets)))
  /-- It gives the buffer back. -/
  | putBack (r : ℕ) {packet : Bytes} {buf : ℕ} {targets : List Target}
      (hl : (s.streams r).loop = .reading (.refused packet buf targets)) :
      Effect cfg s ((s.setPool (buf :: s.pool)).setLoop r (.reading (.next packet targets)))
  /-- A client gets a session. -/
  | register (r c : ℕ) (hs : s.sessionOf r c = none) : Effect cfg s (s.register r c)
  /-- A client's session is told to stop. -/
  | stop (r c : ℕ) {k : ℕ} (hs : s.sessionOf r c = some k) (hr : (s.streams r).removing = none) :
      Effect cfg s ((s.setSession k fun cs => { cs with active := false, quit := true }).setStream r fun st =>
        { st with removing := some c })
  /-- A client's session is deleted: it has ended, or had been stopped before. -/
  | forget (r c : ℕ) {k : ℕ} (hs : s.sessionOf r c = some k)
      (hr : (s.streams r).removing = some c ∧ (s.sessions k).pc = .exited ∨
        (s.streams r).removing = none ∧ (s.sessions k).active = false) : Effect cfg s (s.forget r c)
  /-- A session goes on with what it has. -/
  | session (k : ℕ) (f : Session → Session) (h : (s.sessions k).Move (f (s.sessions k)))
      (hb : (f (s.sessions k)).bufs = (s.sessions k).bufs) : Effect cfg s (s.setSession k f)
  /-- A session gives a buffer back. -/
  | sessionPut (k : ℕ) (x : Slice) (f : Session → Session) (h : (s.sessions k).Move (f (s.sessions k)))
      (hb : (s.sessions k).bufs = x.buf :: (f (s.sessions k)).bufs) :
      Effect cfg s ((s.release cfg x).setSession k f)
  /-- A session hands its packet to the client. -/
  | send (k : ℕ) {x : Slice} (hpc : (s.sessions k).pc = .forward x) :
      Effect cfg s ((s.setClient (s.sessions k).client fun cl =>
        { cl with writeChan := cl.writeChan ++ [x] }).runAt k .select)
  /-- A client goes on with what it has. -/
  | client (c : ℕ) (f : Client → Client) (hb : (f (s.clients c)).bufs = (s.clients c).bufs)
      (hl : (f (s.clients c)).line.Sublist (s.clients c).line)
      (hw : (f (s.clients c)).written = (s.clients c).written) : Effect cfg s (s.setClient c f)
  /-- A writer writes. -/
  | write (c : ℕ) (ok : Bool) {x : Slice} (hpc : (s.clients c).pc = .write x) :
      Effect cfg s (s.setClient c fun cl =>
        { cl with written := cl.written ++ [⟨x.stream, s.content x⟩], pc := .put x ok })
  /-- A writer gives a buffer back. -/
  | clientPut (c : ℕ) (x : Slice) (f : Client → Client)
      (hb : (s.clients c).bufs = x.buf :: (f (s.clients c)).bufs)
      (hl : (f (s.clients c)).line.Sublist (s.clients c).line)
      (hw : (f (s.clients c)).written = (s.clients c).written) :
      Effect cfg s ((s.release cfg x).setClient c f)

/-! ### Steps are effects -/

theorem effect_runAt {k : ℕ} {pc pc' : RunPc} (hpc : (s.sessions k).pc = pc) (hx : pc ≠ .exited)
    (hb : pc'.bufs = pc.bufs) (hh : pc'.hand.Sublist pc.hand) : Effect cfg s (s.runAt k pc') := by
  subst hpc
  apply Effect.session
  · exact ⟨rfl, rfl, rfl, fun h => absurd h hx, hh.append_right _⟩
  · simp [Session.bufs, hb]

theorem effect_writerAt {c : ℕ} {pc pc' : WriterPc} (hpc : (s.clients c).pc = pc) (hb : pc'.bufs = pc.bufs)
    (hh : pc'.hand = pc.hand) : Effect cfg s (s.writerAt c pc') := by
  subst hpc
  apply Effect.client
  · simp [Client.bufs, hb]
  · simp [Client.line, hh]
  · rfl

@[simp] theorem Client.pc_destroy (cl : Client) : cl.destroy.pc = cl.pc := by
  unfold Client.destroy
  split <;> rfl

@[simp] theorem Client.writeChan_destroy (cl : Client) : cl.destroy.writeChan = cl.writeChan := by
  unfold Client.destroy
  split <;> rfl

@[simp] theorem Client.written_destroy (cl : Client) : cl.destroy.written = cl.written := by
  unfold Client.destroy
  split <;> rfl

theorem effect_destroy (c : ℕ) : Effect cfg s (s.setClient c Client.destroy) := by
  refine .client c _ ?_ ?_ (Client.written_destroy _)
  · simp [Client.bufs]
  · simp [Client.line]

theorem effects_stepLoop {r : ℕ} {o : LoopInput} (h : s.stepLoop r o = some t) :
    ReflTransGen (Effect cfg) s t := by
  unfold Fan.stepLoop at h
  split at h <;> cases h
  · exact .single (.loop r _ trivial)
  · exact .refl
  · exact .single (.loop r _ trivial)
  · exact .single (.loop r _ trivial)
  · exact .single (.loop r _ trivial)

theorem effects_dispatch {r : ℕ} {f : Frame} {targets : List Target} (h : s.dispatch cfg r f targets = some t) :
    ReflTransGen (Effect cfg) s t := by
  unfold Fan.dispatch at h
  split at h
  case isTrue hc =>
    cases h
    exact .single (.dispatch r f targets hc.1 hc.2.2.1 hc.2.2.2)
  case isFalse => cases h

theorem effects_stepDispatch {r : ℕ} {o : Option ℕ} (h : s.stepDispatch cfg r o = some t) :
    ReflTransGen (Effect cfg) s t := by
  unfold Fan.stepDispatch at h
  split at h
  case h_1 => cases h; exact .single (.loop r _ trivial)
  case h_2 packet t targets hl =>
    cases o with
    | none => cases h; exact .single (.make r hl)
    | some buf =>
      unfold Fan.getBuf at h
      dsimp only at h
      split at h
      case isTrue hb => cases h; exact .single (.take r buf hl hb)
      case isFalse => cases h
  case h_3 packet t buf targets hl =>
    split at h <;> cases h
    · exact .single (.flags s.done true)
    · exact .single (.fill r hl)
  case h_4 packet t buf targets hl =>
    split at h <;> cases h
    · exact .single (.push r hl)
    · exact .single (.refuse r hl)
  case h_5 packet buf targets hl => cases h; exact .single (.putBack r hl)
  case h_6 => cases h

theorem effects_addClient {r c : ℕ} : ReflTransGen (Effect cfg) s (s.addClient r c) := by
  unfold Fan.addClient
  split
  · exact .refl
  case h_2 hs => exact .single (.register r c hs)

theorem effects_mapChannel {r c : ℕ} {upstreamChan clientChan : ℤ} :
    ReflTransGen (Effect cfg) s (s.mapChannel r c upstreamChan clientChan) := by
  unfold Fan.mapChannel
  split
  · exact .single (.session _ _ ⟨rfl, rfl, rfl, id, .refl _⟩ rfl)
  · exact .refl

theorem effects_removeClient {r c : ℕ} (hr : (s.streams r).removing = none) :
    ReflTransGen (Effect cfg) s (s.removeClient r c) := by
  unfold Fan.removeClient
  split
  case h_1 k hs =>
    split
    · split
      · exact .single (.flags s.done true)
      · exact .single (.stop r c hs hr)
    case isFalse ha => exact .single (.forget r c hs (.inr ⟨hr, by simpa using ha⟩))
  · exact .refl

theorem effects_stopped {r : ℕ} (h : s.stopped r = some t) : ReflTransGen (Effect cfg) s t := by
  obtain ⟨c, hc, h⟩ := Option.bind_eq_some_iff.mp h
  obtain ⟨k, hs, h⟩ := Option.bind_eq_some_iff.mp h
  split at h
  case isTrue hpc => cases h; exact .single (.forget r c hs (.inl ⟨hc, hpc⟩))
  case isFalse => cases h

theorem effects_stepRun {k : ℕ} {o : RunInput} (h : s.stepRun cfg k o = some t) :
    ReflTransGen (Effect cfg) s t := by
  unfold Fan.stepRun at h
  dsimp only at h
  split at h
  case h_1 hpc => -- select, quit
    split at h <;> cases h
    exact .single (effect_runAt hpc nofun rfl (.refl _))
  case h_2 hpc => -- select, done
    split at h <;> cases h
    exact .single (effect_runAt hpc nofun rfl (.refl _))
  case h_3 hpc => -- select, packet
    split at h
    · cases h
    case h_2 x q hq =>
      cases h
      refine .single (.session k _ ⟨rfl, rfl, rfl, fun hx => ?_, ?_⟩ ?_)
      · simp [hpc] at hx
      · simp [Session.line, RunPc.hand, hpc, hq]
      · simp [Session.bufs, RunPc.bufs, hpc, hq]
  case h_4 x hpc => -- forward, sent
    split at h
    · cases h; exact .single (.flags s.done true)
    · split at h <;> cases h
      exact .single (.send k hpc)
  case h_5 x hpc => -- forward, timeout
    cases h
    exact .single (effect_runAt hpc nofun rfl (List.nil_sublist _))
  case h_6 x hpc => -- slow
    cases h
    refine .single (.sessionPut k x _ ⟨rfl, rfl, rfl, fun hx => ?_, ?_⟩ ?_)
    · simp [hpc] at hx
    · simp [Session.line, RunPc.hand, hpc]
    · simp [Session.bufs, RunPc.bufs, hpc]
  case h_7 hpc => -- destroy
    split at h <;> cases h
    · exact .single (effect_runAt hpc nofun rfl (.refl _))
    · exact .tail (.single (effect_destroy _)) (effect_runAt (s := s.setClient _ _) hpc nofun rfl (.refl _))
  case h_8 hpc => -- waitWriter
    split at h <;> cases h
    exact .single (effect_runAt hpc nofun rfl (.refl _))
  case h_9 hpc => -- drain
    split at h
    · cases h; exact .single (effect_runAt hpc nofun rfl (.refl _))
    case h_2 x q hq =>
      cases h
      refine .single (.session k _ ⟨rfl, rfl, rfl, fun hx => ?_, ?_⟩ ?_)
      · simp [hpc] at hx
      · simp [Session.line, RunPc.hand, hpc, hq]
      · simp [Session.bufs, RunPc.bufs, hpc, hq]
  case h_10 x hpc => -- drainPut
    cases h
    refine .single (.sessionPut k x _ ⟨rfl, rfl, rfl, fun hx => ?_, ?_⟩ ?_)
    · simp [hpc] at hx
    · simp [Session.line, RunPc.hand, hpc]
    · simp [Session.bufs, RunPc.bufs, hpc]
  case h_11 => cases h

theorem effects_stepWriter {c : ℕ} {o : WriterInput} (h : s.stepWriter cfg c o = some t) :
    ReflTransGen (Effect cfg) s t := by
  unfold Fan.stepWriter at h
  dsimp only at h
  split at h
  case h_1 hpc => -- loop, done
    split at h <;> cases h
    exact .single (effect_writerAt hpc rfl rfl)
  case h_2 hpc => -- loop, data
    split at h
    · split at h <;> cases h
      exact .single (effect_writerAt hpc rfl rfl)
    case h_2 x q hq =>
      cases h
      refine .single (.client c _ ?_ ?_ rfl)
      · simp [Client.bufs, WriterPc.bufs, hpc, hq]
      · simp [Client.line, WriterPc.hand, hpc, hq]
  case h_3 x ok hpc => cases h; exact .single (.write c ok hpc)
  case h_4 x ok hpc => -- put
    cases h
    refine .single (.clientPut c x _ ?_ ?_ rfl)
    · cases ok <;> simp [Client.bufs, WriterPc.bufs, hpc]
    · cases ok <;> simp [Client.line, WriterPc.hand, hpc]
  case h_5 hpc => -- drain
    split at h
    · split at h <;> cases h
      exact .single (effect_writerAt hpc rfl rfl)
    case h_2 x q hq =>
      cases h
      refine .single (.client c _ ?_ ?_ rfl)
      · simp [Client.bufs, WriterPc.bufs, hpc, hq]
      · simp [Client.line, WriterPc.hand, hpc, hq]
  case h_6 x hpc => -- drainPut
    cases h
    refine .single (.clientPut c x _ ?_ ?_ rfl)
    · simp [Client.bufs, WriterPc.bufs, hpc]
    · simp [Client.line, WriterPc.hand, hpc]
  case h_7 => cases h

theorem effects_close {c : ℕ} (h : s.close c = some t) : ReflTransGen (Effect cfg) s t := by
  unfold Fan.close at h
  split at h
  · cases h
  · split at h <;> cases h
    · exact .single (.flags s.done true)
    · exact .single (.client c _ rfl (.refl _) rfl)

/-- **Each step of the server is a sequence of effects.** -/
theorem effects_of_step {a : Act} (h : s.step cfg a = some t) : ReflTransGen (Effect cfg) s t := by
  unfold Fan.step at h
  split at h
  · cases h
  cases a with
  | loop r o => exact effects_stepLoop h
  | dispatch r f targets => exact effects_dispatch h
  | dispatching r o => exact effects_stepDispatch h
  | addClient r c =>
    obtain ⟨-, ⟨⟩⟩ := Option.ite_none_right_eq_some.mp h
    exact effects_addClient
  | mapChannel r c upstreamChan clientChan =>
    obtain ⟨-, ⟨⟩⟩ := Option.ite_none_right_eq_some.mp h
    exact effects_mapChannel
  | removeClient r c =>
    obtain ⟨hr, ⟨⟩⟩ := Option.ite_none_right_eq_some.mp h
    exact effects_removeClient hr
  | stopped r => exact effects_stopped h
  | run k o => exact effects_stepRun h
  | writer c o => exact effects_stepWriter h
  | destroy c => cases h; exact .single (effect_destroy c)
  | close c => exact effects_close h
  | cancel => cases h; exact .single (.flags true s.panicked)

theorem invariant_of_step {I : Fan → Prop} (hI : ∀ {s t : Fan}, I s → Effect cfg s t → I t) (h : I s) {a : Act}
    (hs : s.step cfg a = some t) : I t := by
  have hall := effects_of_step hs
  clear hs
  induction hall with
  | refl => exact h
  | tail _ he ih => exact hI ih he

end RtspProxy.Fanout
