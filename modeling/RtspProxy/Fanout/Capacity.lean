import RtspProxy.Fanout.Pool
import RtspProxy.Fanout.Shift
import RtspProxy.Fanout.Order

/-!
# What there is to do for a client

Between a reader and a client's connection there are three queues of a fixed capacity: what
`dispatch` has yet to push, the session's queue, and `writeChan`. A session's goroutine and a writer
take from one of them at a time, and end when they are told to.

## The model

`Client.work`, `Session.work` and `LoopPc.pending` weigh what is left to do for a client's
goroutines: what is queued, where the goroutines are, and what a reader that has taken its
snapshot before may still push.

## What is proved

* `runStep_of_stepRun`, `writerStep_of_stepWriter`, `clients_of_close` — a step of a session's goroutine,
  of a writer and of who closes a `writeChan` does some of the work.
* `readStep_of_stepDispatch` — a reader adds none: it pushes what it was about to push.
* `Fan.Tight.step` — **the queues stay within their capacities**, a frame is pushed to a session once, and
  a writer ends with its channel closed and empty.
-/

namespace RtspProxy.Fanout

open Theory Wire

variable {cfg : Config} {s t : Fan}

/-! ### What is left to do -/

/-- The steps to the end of a session's goroutine, and what the packet in its hand may cost. -/
def RunPc.work : RunPc → ℕ
  | .select => 5
  | .forward _ => 9
  | .slow _ => 4
  | .destroy => 3
  | .waitWriter => 2
  | .drain => 1
  | .drainPut _ => 2
  | .exited => 0

/-- A packet of the queue is taken, sent, received, written, and its buffer returned. -/
def Session.work (cs : Session) : ℕ := cs.pc.work + 5 * cs.queue.length

/-- The steps to the end of a writer. -/
def WriterPc.work : WriterPc → ℕ
  | .loop => 2
  | .write _ => 4
  | .put _ _ => 3
  | .drain => 1
  | .drainPut _ => 2
  | .exited => 0

/-- A packet of `writeChan` is received, written, and its buffer returned; and `writeChan` is closed. -/
def Client.work (cl : Client) : ℕ := cl.pc.work + 3 * cl.writeChan.length + (!cl.closed).toNat

/-- How often a reader will push to a session before its `dispatch` is over. -/
def LoopPc.pending (k : ℕ) (l : LoopPc) : ℕ := l.targets.countP fun u => u.session = k

/-- What is left to do for the goroutines of a client of a stream. -/
def Fan.work (s : Fan) (r c : ℕ) : ℕ :=
  ((s.sessionOf r c).elim 0 fun k => (s.sessions k).work + 5 * (s.streams r).loop.pending k) + (s.clients c).work

theorem RunPc.work_le (pc : RunPc) : pc.work ≤ 9 := by
  cases pc <;> simp [RunPc.work]

theorem WriterPc.work_le (pc : WriterPc) : pc.work ≤ 4 := by
  cases pc <;> simp [WriterPc.work]

@[simp] theorem Client.closed_destroy (cl : Client) : cl.destroy.closed = cl.closed := by
  unfold Client.destroy
  split <;> rfl

/-! ### A step of a session's goroutine -/

/-- What a step of a session's goroutine does to the session and its client. -/
structure Hop (cs cs' : Session) (cl cl' : Client) : Prop where
  /-- The goroutine has not ended. -/
  live : cs.pc ≠ .exited
  /-- The session stays that of its client and stream, and is not told to stop. -/
  same : cs'.stream = cs.stream ∧ cs'.client = cs.client ∧ cs'.quit = cs.quit
  /-- It puts nothing into its queue. -/
  queue : cs'.queue.length ≤ cs.queue.length
  /-- The writer is where it was, and its channel is not closed. -/
  writer : cl'.pc = cl.pc ∧ cl'.closed = cl.closed
  /-- Some of the work is done. -/
  work : cs'.work + cl'.work < cs.work + cl.work
  /-- It sends if there is room. -/
  room : cl'.writeChan.length ≤ max cl.writeChan.length writeChanSize
  /-- It does not send on a closed channel. -/
  shut : cl.closed = true → cl'.writeChan = cl.writeChan
  /-- It goes to wait for the writer when it has destroyed the client. -/
  destroyed : cl'.destroyed = true ↔ cl.destroyed = true ∨ cs'.pc = .waitWriter
  /-- It has waited until the writer has ended. -/
  waited : cs.pc = .waitWriter → cl.pc = .exited

/-- What a step of a session's goroutine does. -/
structure Fan.RunStep (s : Fan) (k : ℕ) (t : Fan) : Prop where
  /-- The streams are as they were. -/
  streams : t.streams = s.streams
  /-- So are the other sessions. -/
  session : ∀ k', k' ≠ k → t.sessions k' = s.sessions k'
  /-- So are the other clients. -/
  client : ∀ c, c ≠ (s.sessions k).client → t.clients c = s.clients c
  /-- Its session and its client. -/
  hop : Hop (s.sessions k) (t.sessions k) (s.clients (s.sessions k).client) (t.clients (s.sessions k).client)

theorem runStep_of_update {k : ℕ} {cs : Session} {cl : Client} (hs : t.streams = s.streams)
    (hss : t.sessions = Function.update s.sessions k cs)
    (hc : t.clients = Function.update s.clients (s.sessions k).client cl)
    (hop : Hop (s.sessions k) cs (s.clients (s.sessions k).client) cl) : s.RunStep k t := by
  refine ⟨hs, fun k' hk => ?_, fun c' hc' => ?_, ?_⟩
  · rw [hss, Function.update_of_ne hk]
  · rw [hc, Function.update_of_ne hc']
  · rw [hss, hc, Function.update_self, Function.update_self]
    exact hop

theorem runStep_of_session {k : ℕ} {cs : Session} (hs : t.streams = s.streams)
    (hss : t.sessions = Function.update s.sessions k cs) (hc : t.clients = s.clients)
    (hlive : (s.sessions k).pc ≠ .exited)
    (hsame : cs.stream = (s.sessions k).stream ∧ cs.client = (s.sessions k).client ∧ cs.quit = (s.sessions k).quit)
    (hq : cs.queue.length ≤ (s.sessions k).queue.length) (hwork : cs.work < (s.sessions k).work)
    (hpc : cs.pc ≠ .waitWriter)
    (hwaited : (s.sessions k).pc = .waitWriter → (s.clients (s.sessions k).client).pc = .exited) : s.RunStep k t := by
  refine runStep_of_update hs hss (hc.trans (Function.update_eq_self _ _).symm) ⟨hlive, hsame, hq, ⟨rfl, rfl⟩, ?_, ?_,
    fun _ => rfl, ?_, hwaited⟩
  · exact Nat.add_lt_add_right hwork _
  · exact Nat.le_max_left ..
  · simp [hpc]

theorem runStep_goOn {k : ℕ} {pc : RunPc} (hs : t.streams = s.streams)
    (hss : t.sessions = Function.update s.sessions k { s.sessions k with pc := pc }) (hc : t.clients = s.clients)
    (hwork : pc.work < (s.sessions k).pc.work) (hpc : pc ≠ .waitWriter)
    (hwaited : (s.sessions k).pc = .waitWriter → (s.clients (s.sessions k).client).pc = .exited) : s.RunStep k t := by
  refine runStep_of_session hs hss hc (fun hx => ?_) ⟨rfl, rfl, rfl⟩ (Nat.le_refl _) ?_ hpc hwaited
  · rw [hx] at hwork
    exact absurd hwork (Nat.not_lt_zero _)
  · exact Nat.add_lt_add_right hwork _

/-- **A step of `ClientSession.run`**, unless it sends on a closed channel. -/
theorem runStep_of_stepRun {k : ℕ} {o : RunInput} (h : s.stepRun cfg k o = some t) (hp : t.panicked = false) :
    s.RunStep k t := by
  unfold Fan.stepRun at h
  dsimp only at h
  split at h
  case h_1 hpc | h_2 hpc => -- select: told to stop
    obtain ⟨-, ⟨⟩⟩ := Option.ite_none_right_eq_some.mp h
    exact runStep_goOn rfl rfl rfl (by simp [RunPc.work, hpc]) (by simp) (by simp [hpc])
  case h_3 hpc => -- select: a packet
    split at h
    · cases h
    case h_2 x q hq =>
      cases h
      refine runStep_of_session rfl rfl rfl (by simp [hpc]) ⟨rfl, rfl, rfl⟩ (by simp [hq]) ?_ (by simp) (by simp [hpc])
      simp only [Session.work, RunPc.work, hpc, hq, List.length_cons]
      omega
  case h_4 x hpc => -- forward: it sends
    split at h
    · cases h
      cases hp
    case isFalse hopen =>
      obtain ⟨hroom, ⟨⟩⟩ := Option.ite_none_right_eq_some.mp h
      refine runStep_of_update rfl rfl rfl ⟨by simp [hpc], ⟨rfl, rfl, rfl⟩, Nat.le_refl _, ⟨rfl, rfl⟩, ?_, ?_,
        fun hcl => absurd hcl hopen, by simp, by simp [hpc]⟩
      · simp only [Session.work, Client.work, RunPc.work, hpc, Fan.setClient, List.length_append, List.length_singleton]
        omega
      · simp only [List.length_append, List.length_singleton]
        omega
  case h_5 x hpc | h_6 x hpc => -- the client is slow
    cases h
    exact runStep_goOn rfl rfl rfl (by simp [RunPc.work, hpc]) (by simp) (by simp [hpc])
  case h_7 hpc => -- destroy
    split at h
    · cases h
      exact runStep_goOn rfl rfl rfl (by simp [RunPc.work, hpc]) (by simp) (by simp [hpc])
    · cases h
      refine runStep_of_update rfl rfl rfl ⟨by simp [hpc], ⟨rfl, rfl, rfl⟩, Nat.le_refl _, ⟨by simp, by simp⟩, ?_, ?_,
        by simp, by simp, by simp [hpc]⟩
      · simp [Session.work, Client.work, RunPc.work, hpc, Fan.setClient]
      · rw [Client.writeChan_destroy]
        exact Nat.le_max_left ..
  case h_8 hpc => -- waitWriter
    obtain ⟨hw, ⟨⟩⟩ := Option.ite_none_right_eq_some.mp h
    exact runStep_goOn rfl rfl rfl (by simp [RunPc.work, hpc]) (by simp) fun _ => hw
  case h_9 hpc => -- drain
    split at h
    · cases h
      exact runStep_goOn rfl rfl rfl (by simp [RunPc.work, hpc]) (by simp) (by simp [hpc])
    case h_2 x q hq =>
      cases h
      refine runStep_of_session rfl rfl rfl (by simp [hpc]) ⟨rfl, rfl, rfl⟩ (by simp [hq]) ?_ (by simp) (by simp [hpc])
      simp only [Session.work, RunPc.work, hpc, hq, List.length_cons]
      omega
  case h_10 x hpc => -- drainPut
    cases h
    exact runStep_goOn rfl rfl rfl (by simp [RunPc.work, hpc]) (by simp) (by simp [hpc])
  case h_11 => cases h

/-! ### A step of a writer -/

/-- What a step of a writer does. -/
structure Fan.WriterStep (s : Fan) (c : ℕ) (t : Fan) : Prop where
  /-- The streams are as they were. -/
  streams : t.streams = s.streams
  /-- So are the sessions. -/
  sessions : t.sessions = s.sessions
  /-- So are the other clients. -/
  client : ∀ c', c' ≠ c → t.clients c' = s.clients c'
  /-- The writer has not ended. -/
  live : (s.clients c).pc ≠ .exited
  /-- The client is not destroyed, and its channel not closed. -/
  same : (t.clients c).destroyed = (s.clients c).destroyed ∧ (t.clients c).closed = (s.clients c).closed
  /-- It sends nothing to itself. -/
  room : (t.clients c).writeChan.length ≤ (s.clients c).writeChan.length
  /-- Some of the work is done. -/
  work : (t.clients c).work < (s.clients c).work
  /-- It ends when its channel is closed and empty. -/
  ended : (t.clients c).pc = .exited → (t.clients c).closed = true ∧ (t.clients c).writeChan = []

theorem writerStep_of_update {c : ℕ} {cl : Client} (hs : t.streams = s.streams) (hss : t.sessions = s.sessions)
    (hc : t.clients = Function.update s.clients c cl) (hlive : (s.clients c).pc ≠ .exited)
    (hsame : cl.destroyed = (s.clients c).destroyed ∧ cl.closed = (s.clients c).closed)
    (hroom : cl.writeChan.length ≤ (s.clients c).writeChan.length) (hwork : cl.work < (s.clients c).work)
    (hended : cl.pc = .exited → cl.closed = true ∧ cl.writeChan = []) : s.WriterStep c t := by
  have hself : t.clients c = cl := by rw [hc, Function.update_self]
  refine ⟨hs, hss, fun c' hc' => ?_, hlive, hself ▸ hsame, hself ▸ hroom, hself ▸ hwork, hself ▸ hended⟩
  rw [hc, Function.update_of_ne hc']

/-- **A step of `Client.writer`.** -/
theorem writerStep_of_stepWriter {c : ℕ} {o : WriterInput} (h : s.stepWriter cfg c o = some t) :
    s.WriterStep c t := by
  unfold Fan.stepWriter at h
  dsimp only at h
  split at h
  case h_1 hpc => -- loop: the server is shutting down
    obtain ⟨-, ⟨⟩⟩ := Option.ite_none_right_eq_some.mp h
    exact writerStep_of_update rfl rfl rfl (by simp [hpc]) ⟨rfl, rfl⟩ (Nat.le_refl _)
      (by simp [Client.work, WriterPc.work, hpc]) (by simp)
  case h_2 hpc => -- loop: data
    split at h
    · obtain ⟨-, ⟨⟩⟩ := Option.ite_none_right_eq_some.mp h
      exact writerStep_of_update rfl rfl rfl (by simp [hpc]) ⟨rfl, rfl⟩ (Nat.le_refl _)
        (by simp [Client.work, WriterPc.work, hpc]) (by simp)
    case h_2 x q hq =>
      cases h
      refine writerStep_of_update rfl rfl rfl (by simp [hpc]) ⟨rfl, rfl⟩ (by simp [hq]) ?_ (by simp)
      simp only [Client.work, WriterPc.work, hpc, hq, List.length_cons]
      omega
  case h_3 x ok hpc => -- a write returns
    cases h
    exact writerStep_of_update rfl rfl rfl (by simp [hpc]) ⟨rfl, rfl⟩ (Nat.le_refl _)
      (by simp [Client.work, WriterPc.work, hpc]) (by simp)
  case h_4 x ok hpc => -- put
    cases h
    refine writerStep_of_update rfl rfl rfl (by simp [hpc]) ⟨rfl, rfl⟩ (Nat.le_refl _) ?_ ?_
    · cases ok <;> simp [Client.work, WriterPc.work, hpc, Fan.release, Fan.setPool]
    · cases ok <;> simp
  case h_5 hpc => -- drain
    split at h
    case h_1 hq =>
      obtain ⟨hcl, ⟨⟩⟩ := Option.ite_none_right_eq_some.mp h
      exact writerStep_of_update rfl rfl rfl (by simp [hpc]) ⟨rfl, rfl⟩ (Nat.le_refl _)
        (by simp [Client.work, WriterPc.work, hpc]) fun _ => ⟨hcl, hq⟩
    case h_2 x q hq =>
      cases h
      refine writerStep_of_update rfl rfl rfl (by simp [hpc]) ⟨rfl, rfl⟩ (by simp [hq]) ?_ (by simp)
      simp only [Client.work, WriterPc.work, hpc, hq, List.length_cons]
      omega
  case h_6 x hpc => -- drainPut
    cases h
    exact writerStep_of_update rfl rfl rfl (by simp [hpc]) ⟨rfl, rfl⟩ (Nat.le_refl _)
      (by simp [Client.work, WriterPc.work, hpc, Fan.release, Fan.setPool]) (by simp)
  case h_7 => cases h

/-- A step of a goroutine that closes a `writeChan`. -/
theorem clients_of_close {c : ℕ} (h : s.close c = some t) (hp : t.panicked = false) :
    t.streams = s.streams ∧ t.sessions = s.sessions ∧ (s.clients c).closed = false ∧
      t.clients = Function.update s.clients c
        { s.clients c with closed := true, closing := (s.clients c).closing - 1 } := by
  obtain ⟨-, h⟩ := Option.ite_none_left_eq_some.mp h
  split at h <;> cases h
  · cases hp
  case isFalse hopen => exact ⟨rfl, rfl, by simpa using hopen, rfl⟩

/-! ### A step of a reader -/

/-- What a step of a reader does. -/
structure Fan.ReadStep (cfg : Config) (s : Fan) (r : ℕ) (t : Fan) : Prop where
  /-- The clients are as they were. -/
  clients : t.clients = s.clients
  /-- So are the other streams. -/
  stream : ∀ r', r' ≠ r → t.streams r' = s.streams r'
  /-- The stream keeps its clients. -/
  same : (t.streams r).registered = (s.streams r).registered ∧ (t.streams r).removing = (s.streams r).removing
  /-- The goroutines of the sessions are where they were. -/
  session : ∀ k, (t.sessions k).stream = (s.sessions k).stream ∧ (t.sessions k).client = (s.sessions k).client ∧
    (t.sessions k).quit = (s.sessions k).quit ∧ (t.sessions k).pc = (s.sessions k).pc
  /-- A session that is not one of its targets gets nothing. -/
  other : ∀ k, (∀ u ∈ (s.streams r).loop.targets, u.session ≠ k) → (t.sessions k).queue = (s.sessions k).queue
  /-- A session gets what the reader was about to push. -/
  due : ∀ k, (t.sessions k).queue.length + (t.streams r).loop.pending k ≤
    (s.sessions k).queue.length + (s.streams r).loop.pending k
  /-- A session gets a packet if there is room. -/
  room : ∀ k, (t.sessions k).queue.length ≤ max (s.sessions k).queue.length cfg.packetQueueSize
  /-- The reader gets no new targets. -/
  pending : ∀ k, (t.streams r).loop.pending k ≤ (s.streams r).loop.pending k

/-- The reader goes on with targets that it has. -/
theorem readStep_setLoop {r : ℕ} {l : LoopPc} {g : Fan} (hs : g.streams = s.streams) (hss : g.sessions = s.sessions)
    (hc : g.clients = s.clients) (hl : l.targets.Sublist (s.streams r).loop.targets) :
    s.ReadStep cfg r (g.setLoop r l) := by
  have hpend (k : ℕ) : ((g.setLoop r l).streams r).loop.pending k ≤ (s.streams r).loop.pending k := by
    rw [loop_setLoop]
    exact hl.countP_le
  have hsess (k : ℕ) : (g.setLoop r l).sessions k = s.sessions k := congrFun hss k
  refine ⟨hc, fun r' hr => ?_, ?_, fun k => ?_, fun k _ => ?_, fun k => ?_, fun k => ?_, hpend⟩
  · exact (Function.update_of_ne hr _ _).trans (congrFun hs r')
  · simp [Fan.setLoop, Fan.setStream, hs]
  · rw [hsess]
    exact ⟨rfl, rfl, rfl, rfl⟩
  · rw [hsess]
  · rw [hsess]
    exact Nat.add_le_add_left (hpend k) _
  · rw [hsess]
    exact Nat.le_max_left ..

/-- `connectLoop` goes on outside of `dispatch`. -/
theorem setLoop_of_stepLoop {r : ℕ} {o : LoopInput} (h : s.stepLoop r o = some t) :
    t = s ∨ ∃ l : LoopPc, l.Quiet ∧ t = s.setLoop r l := by
  unfold Fan.stepLoop at h
  split at h <;> cases h
  case h_2 => exact .inl rfl
  all_goals
    refine .inr ⟨_, ?_, rfl⟩
    trivial

/-- **A step of `dispatch`** after its critical section. -/
theorem readStep_of_stepDispatch {r : ℕ} {o : Option ℕ} (h : s.stepDispatch cfg r o = some t)
    (hp : t.panicked = false) : s.ReadStep cfg r t := by
  unfold Fan.stepDispatch at h
  split at h
  case h_1 packet hl => -- no more targets
    cases h
    exact readStep_setLoop rfl rfl rfl (List.nil_sublist _)
  case h_2 packet u targets hl => -- it gets a buffer
    obtain ⟨⟨g, buf⟩, hg, rfl⟩ := Option.map_eq_some_iff.mp h
    have hframe : g.streams = s.streams ∧ g.sessions = s.sessions ∧ g.clients = s.clients := by
      cases o with
      | none => cases hg; exact ⟨rfl, rfl, rfl⟩
      | some b =>
        obtain ⟨-, ⟨⟩⟩ := Option.ite_none_right_eq_some.mp hg
        exact ⟨rfl, rfl, rfl⟩
    exact readStep_setLoop hframe.1 hframe.2.1 hframe.2.2 (by simp [hl, LoopPc.targets])
  case h_3 packet u buf targets hl => -- it fills the buffer
    split at h <;> cases h
    · cases hp
    · exact readStep_setLoop rfl rfl rfl (by simp [hl, LoopPc.targets])
  case h_4 packet u buf targets hl => -- it pushes
    split at h <;> cases h
    case isTrue hroom =>
      have hnext : LoopPc.targets (.reading (.next packet targets)) = targets := rfl
      have htargets : (s.streams r).loop.targets = u :: targets := by rw [hl]; rfl
      refine ⟨rfl, fun r' hr => Function.update_of_ne hr _ _, ?_, fun k => ?_, fun k hk => ?_, fun k => ?_, fun k => ?_,
        fun k => ?_⟩
      · simp [Fan.setLoop, Fan.setStream, Fan.setSession]
      · by_cases hk : k = u.session <;> simp [Fan.setLoop, Fan.setStream, Fan.setSession, hk]
      · have hne : k ≠ u.session := fun he => hk u (by simp [htargets]) he.symm
        simp [Fan.setLoop, Fan.setStream, Fan.setSession, hne]
      · rw [loop_setLoop, LoopPc.pending, LoopPc.pending, hnext, htargets, List.countP_cons]
        by_cases hk : k = u.session
        · simp [Fan.setLoop, Fan.setStream, Fan.setSession, hk]
          omega
        · simp [Fan.setLoop, Fan.setStream, Fan.setSession, hk, Ne.symm hk]
      · by_cases hk : k = u.session
        · simp only [Fan.setLoop, Fan.setStream, Fan.setSession, hk, Function.update_self, List.length_append,
            List.length_singleton]
          omega
        · simp only [Fan.setLoop, Fan.setStream, Fan.setSession, Function.update_of_ne hk]
          exact Nat.le_max_left ..
      · rw [loop_setLoop, LoopPc.pending, LoopPc.pending, hnext, htargets]
        exact (List.sublist_cons_self u targets).countP_le
    case isFalse => exact readStep_setLoop rfl rfl rfl (by simp [hl, LoopPc.targets])
  case h_5 packet buf targets hl => -- it returns the buffer
    cases h
    exact readStep_setLoop rfl rfl rfl (by simp [hl, LoopPc.targets])
  case h_6 => cases h

/-! ### The capacities -/

/-- What holds of the queues and goroutines in every state. -/
structure Fan.Tight (cfg : Config) (s : Fan) : Prop where
  /-- A session's queue is within its capacity. -/
  queue : ∀ k, (s.sessions k).queue.length ≤ cfg.packetQueueSize
  /-- So is a `writeChan`. -/
  writeChan : ∀ c, (s.clients c).writeChan.length ≤ writeChanSize
  /-- A frame is pushed to a session once. -/
  pending : ∀ r k, (s.streams r).loop.pending k ≤ 1
  /-- A session waits for the writer of a client that it has destroyed. -/
  evicted : ∀ k, (s.sessions k).pc = .waitWriter → (s.clients (s.sessions k).client).destroyed = true
  /-- `RemoveClient` waits for a session that it has told to stop. -/
  removing : ∀ r c, (s.streams r).removing = some c → ∃ k, s.sessionOf r c = some k ∧ (s.sessions k).quit = true
  /-- A writer ends when its channel is closed and empty. -/
  ended : ∀ c, (s.clients c).pc = .exited → (s.clients c).closed = true ∧ (s.clients c).writeChan = []

theorem tight_newFan : newFan.Tight cfg :=
  ⟨fun _ => Nat.zero_le _, fun _ => Nat.zero_le _, fun _ _ => Nat.zero_le _, nofun, nofun, nofun⟩

/-- The clients that are removed, as far as the streams and sessions have changed. -/
theorem Fan.Tight.removing_of (h : s.Tight cfg) (hof : t.sessionOf = s.sessionOf)
    (hrem : ∀ r, (t.streams r).removing = (s.streams r).removing)
    (hquit : ∀ k, (s.sessions k).quit = true → (t.sessions k).quit = true) (r c : ℕ)
    (hr : (t.streams r).removing = some c) : ∃ k, t.sessionOf r c = some k ∧ (t.sessions k).quit = true := by
  obtain ⟨k, hk, hq⟩ := h.removing r c (hrem r ▸ hr)
  exact ⟨k, hof ▸ hk, hquit k hq⟩

theorem Fan.Tight.read (h : s.Tight cfg) {r : ℕ} (hs : s.ReadStep cfg r t) : t.Tight cfg := by
  have hreg (r' : ℕ) : (t.streams r').registered = (s.streams r').registered ∧
      (t.streams r').removing = (s.streams r').removing := by
    by_cases hr : r' = r
    · exact hr ▸ hs.same
    · rw [hs.stream r' hr]
      exact ⟨rfl, rfl⟩
  refine ⟨fun k => Nat.le_trans (hs.room k) (Nat.max_le.mpr ⟨h.queue k, Nat.le_refl _⟩), hs.clients ▸ h.writeChan,
    fun r' k => ?_, fun k hk => ?_, ?_, hs.clients ▸ h.ended⟩
  · by_cases hr : r' = r
    · subst hr
      exact Nat.le_trans (hs.pending k) (h.pending r' k)
    · rw [hs.stream r' hr]
      exact h.pending r' k
  · obtain ⟨-, hc, -, hpc⟩ := hs.session k
    rw [hs.clients, hc]
    exact h.evicted k (hpc ▸ hk)
  · refine h.removing_of ?_ (fun r' => (hreg r').2) fun k hk => (hs.session k).2.2.1.trans hk
    funext r' c
    unfold Fan.sessionOf
    rw [(hreg r').1]

theorem Fan.Tight.run (h : s.Tight cfg) {k : ℕ} (hs : s.RunStep k t) : t.Tight cfg := by
  have hop := hs.hop
  have hsess {P : Session → Prop} (hk : P (t.sessions k)) (hP : ∀ k', P (s.sessions k')) (k' : ℕ) :
      P (t.sessions k') := by
    by_cases hkk : k' = k
    · exact hkk ▸ hk
    · exact hs.session k' hkk ▸ hP k'
  have hcl {P : Client → Prop} (hc : P (t.clients (s.sessions k).client)) (hP : ∀ c, P (s.clients c)) (c : ℕ) :
      P (t.clients c) := by
    by_cases hcc : c = (s.sessions k).client
    · exact hcc ▸ hc
    · exact hs.client c hcc ▸ hP c
  refine ⟨hsess (P := fun cs => cs.queue.length ≤ cfg.packetQueueSize) (Nat.le_trans hop.queue (h.queue k)) h.queue,
    hcl (P := fun cl => cl.writeChan.length ≤ writeChanSize) (Nat.le_trans hop.room ?_) h.writeChan,
    hs.streams ▸ h.pending, fun k' hk' => ?_, ?_,
    hcl (P := fun cl => cl.pc = .exited → cl.closed = true ∧ cl.writeChan = []) (fun hx => ?_) h.ended⟩
  · exact Nat.max_le.mpr ⟨h.writeChan _, Nat.le_refl _⟩
  · have hmono (c : ℕ) (hd : (s.clients c).destroyed = true) : (t.clients c).destroyed = true := by
      by_cases hcc : c = (s.sessions k).client
      · subst hcc
        exact hop.destroyed.mpr (.inl hd)
      · rw [hs.client c hcc]
        exact hd
    by_cases hkk : k' = k
    · subst hkk
      rw [hop.same.2.1]
      exact hop.destroyed.mpr (.inr hk')
    · rw [hs.session k' hkk] at hk' ⊢
      exact hmono _ (h.evicted k' hk')
  · refine h.removing_of ?_ (fun r => by rw [hs.streams]) fun k' hq => ?_
    · unfold Fan.sessionOf
      rw [hs.streams]
    · by_cases hkk : k' = k
      · subst hkk
        exact hop.same.2.2.trans hq
      · rw [hs.session k' hkk]
        exact hq
  · obtain ⟨hclosed, hnil⟩ := h.ended _ (hop.writer.1 ▸ hx)
    exact ⟨hop.writer.2.trans hclosed, (hop.shut hclosed).trans hnil⟩

/-- A client changes: its writer goes on, it is destroyed, or its `writeChan` is closed. -/
theorem Fan.Tight.client (h : s.Tight cfg) {c : ℕ} (hs : t.streams = s.streams) (hss : t.sessions = s.sessions)
    (hother : ∀ c', c' ≠ c → t.clients c' = s.clients c')
    (hroom : (t.clients c).writeChan.length ≤ (s.clients c).writeChan.length)
    (hd : (s.clients c).destroyed = true → (t.clients c).destroyed = true)
    (hended : (t.clients c).pc = .exited → (t.clients c).closed = true ∧ (t.clients c).writeChan = []) :
    t.Tight cfg := by
  have hof : t.sessionOf = s.sessionOf := by
    unfold Fan.sessionOf
    rw [hs]
  refine ⟨hss ▸ h.queue, fun c' => ?_, hs ▸ h.pending, fun k hk => ?_, ?_, fun c' => ?_⟩
  · by_cases hc : c' = c
    · subst hc
      exact Nat.le_trans hroom (h.writeChan c')
    · rw [hother c' hc]
      exact h.writeChan c'
  · rw [hss] at hk ⊢
    by_cases hc : (s.sessions k).client = c
    · rw [hc]
      exact hd (hc ▸ h.evicted k hk)
    · rw [hother _ hc]
      exact h.evicted k hk
  · exact h.removing_of hof (fun r => by rw [hs]) fun k hq => by rwa [hss]
  · by_cases hc : c' = c
    · subst hc
      exact hended
    · rw [hother c' hc]
      exact h.ended c'

/-- `dispatch` has one target for each session. -/
theorem countP_targets_le (h : s.Registered) {r : ℕ} {channel : ℤ} {targets : List Target}
    (ht : targets.Perm (s.targets r channel)) (k : ℕ) : targets.countP (fun u => u.session = k) ≤ 1 := by
  by_cases hk : ∃ u ∈ targets, u.session = k
  · obtain ⟨u, hu, rfl⟩ := hk
    obtain ⟨⟨c, k⟩, he, hm⟩ := List.mem_filterMap.mp (ht.subset hu)
    obtain ⟨ch, -, rfl⟩ := Option.map_eq_some_iff.mp hm
    have hpush : toPush [] targets k = (((s.sessions k).channels channel).map (clientPacket [])).toList :=
      toPush_targets h (AList.mem_lookup_iff.mpr he) ht
    have hone := congrArg List.length hpush
    rw [toPush, List.length_map, ← List.countP_eq_length_filter] at hone
    rw [hone]
    cases (s.sessions k).channels channel <;> simp
  · have hzero : targets.countP (fun u => u.session = k) = 0 :=
      List.countP_eq_zero.mpr fun u hu hk' => hk ⟨u, hu, by simpa using hk'⟩
    omega

/-- The clients of a stream, or the sessions' channels, change. -/
theorem Fan.Tight.stop (h : s.Tight cfg) {r c k : ℕ} (hk : s.sessionOf r c = some k) :
    ((s.setSession k fun cs => { cs with active := false, quit := true }).setStream r fun st =>
      { st with removing := some c }).Tight cfg := by
  set t := Fan.setStream _ r _ with ht
  have hsess (k' : ℕ) : (t.sessions k').queue = (s.sessions k').queue ∧ (t.sessions k').pc = (s.sessions k').pc ∧
      (t.sessions k').client = (s.sessions k').client := by
    by_cases hkk : k' = k <;> simp [ht, Fan.setStream, Fan.setSession, hkk]
  have hof : t.sessionOf = s.sessionOf := sessionOf_setStream rfl
  refine ⟨fun k' => ?_, h.writeChan, fun r' k' => ?_, fun k' hk' => ?_, fun r' c' hr' => ?_, h.ended⟩
  · rw [(hsess k').1]
    exact h.queue k'
  · by_cases hr : r' = r <;> simpa [ht, Fan.setStream, Fan.setSession, hr] using h.pending _ k'
  · rw [(hsess k').2.2]
    exact h.evicted k' ((hsess k').2.1 ▸ hk')
  · rw [hof]
    by_cases hr : r' = r
    · subst hr
      obtain rfl : c' = c := by simpa [ht, Fan.setStream, eq_comm] using hr'
      exact ⟨k, hk, by simp [ht, Fan.setStream, Fan.setSession]⟩
    · obtain ⟨k', hk', hq⟩ := h.removing r' c' (by simpa [ht, Fan.setStream, Fan.setSession, hr] using hr')
      refine ⟨k', hk', ?_⟩
      by_cases hkk : k' = k <;> simp [ht, Fan.setStream, Fan.setSession, hkk, hq]

theorem Fan.Tight.forget (h : s.Tight cfg) (r c : ℕ) : (s.forget r c).Tight cfg := by
  refine ⟨h.queue, h.writeChan, fun r' k => ?_, h.evicted, fun r' c' hr' => ?_, h.ended⟩
  · rw [loop_forget]
    exact h.pending r' k
  · by_cases hrr : r' = r
    · simp [Fan.forget, Fan.setStream, hrr] at hr'
    · rw [sessionOf_forget, if_neg fun hc => hrr hc.1]
      exact h.removing r' c' (by simpa [Fan.forget, Fan.setStream, hrr] using hr')

theorem Fan.Tight.register (h : s.Tight cfg) (hreg : s.Registered) {r c : ℕ} (hnone : (s.streams r).removing = none) :
    (s.register r c).Tight cfg := by
  refine ⟨fun k => ?_, h.writeChan, fun r' k => ?_, fun k => ?_, fun r' c' hr' => ?_, h.ended⟩
  · rw [sessions_register]
    split
    · exact Nat.zero_le _
    · exact h.queue k
  · rw [loop_register]
    exact h.pending r' k
  · rw [sessions_register]
    split
    · nofun
    · exact h.evicted k
  · rw [removing_register] at hr'
    obtain ⟨k, hk, hq⟩ := h.removing r' c' hr'
    have hrr : r' ≠ r := by
      rintro rfl
      rw [hnone] at hr'
      cases hr'
    refine ⟨k, ?_, ?_⟩
    · rw [sessionOf_register, if_neg fun hc => hrr hc.1]
      exact hk
    · rw [sessions_register, if_neg (Nat.ne_of_lt (hreg.entry hk).1)]
      exact hq

/-- `MapChannel` changes the channels of a session. -/
theorem Fan.Tight.mapChannel (h : s.Tight cfg) (r c : ℕ) (upstreamChan clientChan : ℤ) :
    (s.mapChannel r c upstreamChan clientChan).Tight cfg := by
  unfold Fan.mapChannel
  split
  case h_2 => exact h
  case h_1 k hk =>
    set t := s.setSession k _ with ht
    have hsess (k' : ℕ) : (t.sessions k').queue = (s.sessions k').queue ∧ (t.sessions k').pc = (s.sessions k').pc ∧
        (t.sessions k').client = (s.sessions k').client ∧ (t.sessions k').quit = (s.sessions k').quit := by
      by_cases hkk : k' = k <;> simp [ht, Fan.setSession, hkk]
    refine ⟨fun k' => ?_, h.writeChan, h.pending, fun k' hk' => ?_, ?_, h.ended⟩
    · rw [(hsess k').1]
      exact h.queue k'
    · rw [(hsess k').2.2.1]
      exact h.evicted k' ((hsess k').2.1 ▸ hk')
    · exact h.removing_of rfl (fun _ => rfl) fun k' hq => (hsess k').2.2.2.trans hq

/-- **One step.** -/
theorem Fan.Tight.step (h : s.Tight cfg) (hreg : s.Registered) {a : Act} (hs : s.step cfg a = some t)
    (hp : t.panicked = false) : t.Tight cfg := by
  obtain ⟨-, hs⟩ := Option.ite_none_left_eq_some.mp hs
  cases a with
  | loop r o =>
    obtain rfl | ⟨l, hl, rfl⟩ := setLoop_of_stepLoop hs
    · exact h
    · exact h.read (readStep_setLoop rfl rfl rfl (by simp [hl.targets]))
  | dispatch r f targets =>
    obtain ⟨⟨hl, -, -, ht⟩, ⟨⟩⟩ := Option.ite_none_right_eq_some.mp hs
    refine ⟨h.queue, h.writeChan, fun r' k => ?_, h.evicted, ?_, h.ended⟩
    · by_cases hr : r' = r
      · simpa [Fan.setStream, hr, LoopPc.pending, LoopPc.targets] using countP_targets_le hreg ht k
      · simpa [Fan.setStream, hr] using h.pending r' k
    · refine h.removing_of (sessionOf_setStream rfl) (fun r' => ?_) fun _ => id
      by_cases hr : r' = r <;> simp [Fan.setStream, hr]
  | dispatching r o => exact h.read (readStep_of_stepDispatch hs hp)
  | addClient r c =>
    obtain ⟨hnone, ⟨⟩⟩ := Option.ite_none_right_eq_some.mp hs
    unfold Fan.addClient
    split
    · exact h
    · exact h.register hreg hnone
  | mapChannel r c upstreamChan clientChan =>
    obtain ⟨-, ⟨⟩⟩ := Option.ite_none_right_eq_some.mp hs
    exact h.mapChannel r c upstreamChan clientChan
  | removeClient r c =>
    obtain ⟨-, ⟨⟩⟩ := Option.ite_none_right_eq_some.mp hs
    unfold Fan.removeClient at hp ⊢
    split
    case h_2 => exact h
    case h_1 k hk =>
      split
      case isFalse => exact h.forget r c
      case isTrue ha =>
        simp only [hk, if_pos ha] at hp
        split
        case isTrue hq =>
          rw [if_pos hq] at hp
          cases hp
        case isFalse => exact h.stop hk
  | stopped r =>
    obtain ⟨c, -, hs⟩ := Option.bind_eq_some_iff.mp hs
    obtain ⟨k, -, hs⟩ := Option.bind_eq_some_iff.mp hs
    obtain ⟨-, ⟨⟩⟩ := Option.ite_none_right_eq_some.mp hs
    exact h.forget r c
  | run k o => exact h.run (runStep_of_stepRun hs hp)
  | writer c o =>
    have hw := writerStep_of_stepWriter hs
    exact h.client hw.streams hw.sessions hw.client hw.room (fun hd => hw.same.1.trans hd) hw.ended
  | destroy c =>
    cases hs
    refine h.client (c := c) rfl rfl (fun c' hc => Function.update_of_ne hc _ _) ?_ ?_ ?_
    · simp [Fan.setClient]
    · simp [Fan.setClient]
    · simpa [Fan.setClient] using h.ended c
  | close c =>
    obtain ⟨hstreams, hsess, -, hcl⟩ := clients_of_close hs hp
    refine h.client (c := c) hstreams hsess (fun c' hc => by rw [hcl, Function.update_of_ne hc]) ?_ ?_ ?_
    · simp [hcl]
    · simp [hcl]
    · simpa [hcl] using fun hx => (h.ended c hx).2
  | cancel =>
    cases hs
    exact ⟨h.queue, h.writeChan, h.pending, h.evicted, h.removing, h.ended⟩

end RtspProxy.Fanout
