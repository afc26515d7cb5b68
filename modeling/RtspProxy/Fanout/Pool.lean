import RtspProxy.Fanout.Ownership

/-!
# The packet pool

A buffer of `packetPool` passes from `dispatch` through a session's queue, the session's
goroutine and the client's `writeChan` to the client's writer. It comes back to the pool at one
of five places: after a push that failed, from a slow client, from the two drain loops, and after
the write.

## The model

To the steps of `Fan.step` come the ones by which `Stream.Destroy` ends sessions: it takes all
clients from a stream (`detach`), and calls `Stop` for each of their sessions. Here a session may
be stopped at any time, and a stream lose its clients at any time. `Logged` records the calls of
`packetPool.Get` and `packetPool.Put`.

## What is proved

* `dispatch_of_pass` — what the reader takes from its buffer can be dispatched.
* `Fan.Sized.effect` — all buffers keep the capacity `BufferSize`.
* `calls_of_step` — the pool is a free list: what is put is out.
* `buffers_owned` — **a buffer is in one place at most, is not put twice without a `Get` in
  between, and is as large as `BufferSize`, which is enough for every packet.**
-/

namespace RtspProxy.Fanout

open Theory Wire Relation

variable {cfg : Config} {s t : Fan}

/-! ### Stopping sessions -/

/-- `ClientSession.Stop`, up to its wait for the goroutine. -/
def Fan.stop (s : Fan) (k : ℕ) : Fan :=
  if (s.sessions k).active then
    -- closing a closed channel panics
    if (s.sessions k).quit then { s with panicked := true }
    else s.setSession k fun cs => { cs with active := false, quit := true }
  else s

/-- The critical section of `Stream.Destroy`, which takes the clients. -/
def Fan.detach (s : Fan) (r : ℕ) : Fan := s.setStream r fun st => { st with registered := ∅ }

/-- The actions, with those of `Stream.Destroy`. -/
inductive AnyAct where
  /-- A step of the server. -/
  | act (a : Act)
  /-- `Stop` of a session. -/
  | stop (k : ℕ)
  /-- The clients are taken from a stream. -/
  | detach (r : ℕ)

/-- One step of the server, or of a `Destroy`. -/
def Fan.anyStep (cfg : Config) (s : Fan) : AnyAct → Option Fan
  | .act a => s.step cfg a
  | .stop k => if s.panicked then none else some (s.stop k)
  | .detach r => if s.panicked ∨ (s.streams r).removing ≠ none then none else some (s.detach r)

/-! ### The calls of the pool -/

/-- The `Put` of a slice's buffer, if it passes the test. -/
def Fan.putCalls (cfg : Config) (s : Fan) (x : Slice) : List (Call ℕ) :=
  if s.returnable cfg x then [.put x.buf] else []

/-- The calls of the pool that an action makes. -/
def Fan.calls (cfg : Config) (s : Fan) : AnyAct → List (Call ℕ)
  | .act (.dispatching r o) =>
    match (s.streams r).loop with
    | .reading (.next _ (_ :: _)) => [.get (o.getD s.nextBuf)]
    | .reading (.refused _ buf _) => [.put buf]
    | _ => []
  | .act (.run k .next) =>
    match (s.sessions k).pc with
    | .slow x | .drainPut x => s.putCalls cfg x
    | _ => []
  | .act (.writer c .next) =>
    match (s.clients c).pc with
    | .put x _ | .drainPut x => s.putCalls cfg x
    | _ => []
  | _ => []

/-- A server with the calls of its pool. -/
structure Logged where
  /-- The server. -/
  fan : Fan
  /-- The calls. -/
  log : List (Call ℕ)

/-- Before its first frame. -/
def newLogged : Logged := ⟨newFan, []⟩

/-- One step. -/
def Logged.step (cfg : Config) (s : Logged) (a : AnyAct) : Option Logged :=
  (s.fan.anyStep cfg a).map fun t => ⟨t, s.log ++ s.fan.calls cfg a⟩

/-! ### Where a buffer is -/

/-- Who can have a buffer. -/
inductive Holder where
  | pool
  /-- The queue of a session. -/
  | queue (k : ℕ)
  /-- The `writeChan` of a client. -/
  | writeChan (c : ℕ)
  /-- The reader of a stream, in `dispatch`. -/
  | reader (r : ℕ)
  /-- The goroutine of a session. -/
  | run (k : ℕ)
  /-- The writer of a client. -/
  | writer (c : ℕ)
  deriving DecidableEq, Repr

/-- The buffers it has. -/
def Fan.has (s : Fan) : Holder → List ℕ
  | .pool => s.pool
  | .queue k => (s.sessions k).queue.map Slice.buf
  | .writeChan c => (s.clients c).writeChan.map Slice.buf
  | .reader r => (s.streams r).loop.bufs
  | .run k => (s.sessions k).pc.bufs
  | .writer c => (s.clients c).pc.bufs

/-- The place it is part of. -/
def Holder.place : Holder → Place
  | .pool => .pool
  | .queue k | .run k => .session k
  | .writeChan c | .writer c => .client c
  | .reader r => .reader r

/-- A session's queue and its goroutine do not share a buffer, nor do a `writeChan` and its writer. -/
theorem Fan.Owned.has (h : s.Owned) : Theory.Owned (· < s.nextBuf) s.has := by
  have hsession (k) := List.disjoint_of_nodup_append (h.nodup (.session k))
  have hclient (c) := List.disjoint_of_nodup_append (h.nodup (.client c))
  refine Theory.Owned.split h Holder.place (fun p => ?_) fun {p q b} hpq hp hq => ?_
  · cases p with
    | pool | reader r => exact .refl _
    | queue k | writeChan c => exact List.sublist_append_right _ _
    | run k | writer c => exact List.sublist_append_left _ _
  · cases p <;> cases q <;> cases hpq <;> first | rfl | skip
    · exact absurd hp (hsession _ hq)
    · exact absurd hp (hclient _ hq)
    · exact absurd hq (hsession _ hp)
    · exact absurd hq (hclient _ hp)

/-! ### Capacities -/

/-- The packet that is being dispatched. -/
def LoopPc.packet : LoopPc → Bytes
  | .reading (.next packet _) | .reading (.got packet _ _ _) | .reading (.push packet _ _ _)
  | .reading (.refused packet _ _) => packet
  | _ => []

theorem LoopPc.Quiet.packet {l : LoopPc} (h : l.Quiet) : l.packet = [] := by
  rcases l with _ | _ | (_ | _ | _ | _ | _) <;> first | rfl | exact absurd h id

/-- All buffers have the capacity `BufferSize`, and all packets fit. -/
structure Fan.Sized (cfg : Config) (s : Fan) : Prop where
  /-- The buffers. -/
  heap : ∀ b < s.nextBuf, (s.heap b).length = cfg.bufferSize
  packet : ∀ r, (s.streams r).loop.packet.length ≤ cfg.bufferSize

theorem sized_newFan : newFan.Sized cfg := ⟨nofun, fun _ => Nat.zero_le _⟩

theorem Fan.Sized.of_eq (h : s.Sized cfg) (hs : t.streams = s.streams) (hheap : t.heap = s.heap)
    (hn : t.nextBuf = s.nextBuf) : t.Sized cfg := by
  obtain ⟨streams, _, _, _, heap, nextBuf, _, _, _⟩ := t
  subst hs hheap hn
  exact ⟨h.heap, h.packet⟩

theorem Fan.Sized.setStream (h : s.Sized cfg) {r : ℕ} {f : Stream → Stream}
    (hp : (f (s.streams r)).loop.packet.length ≤ cfg.bufferSize) : (s.setStream r f).Sized cfg := by
  refine ⟨h.heap, fun r' => ?_⟩
  by_cases hr : r' = r
  · subst hr
    simpa [Fan.setStream] using hp
  · simpa [Fan.setStream, hr] using h.packet r'

theorem Fan.Sized.setLoop (h : s.Sized cfg) {r : ℕ} {l : LoopPc} (hp : l.packet = (s.streams r).loop.packet) :
    (s.setLoop r l).Sized cfg := h.setStream (hp ▸ h.packet r)

/-- The frame of a packet has a channel byte to set. -/
theorem length_clientPacket (packet : Bytes) (clientChannel : ℤ) :
    (clientPacket packet clientChannel).length = packet.length := List.length_set

theorem Fan.Sized.fill (h : s.Sized cfg) {buf : ℕ} {packet : Bytes} {clientChannel : ℤ}
    (hp : packet.length ≤ cfg.bufferSize) :
    (s.setBuf buf (clientPacket packet clientChannel ++ (s.heap buf).drop packet.length)).Sized cfg := by
  refine ⟨fun b hb => ?_, h.packet⟩
  by_cases hbuf : b = buf
  · subst hbuf
    have hlen := h.heap b hb
    simp only [Fan.setBuf, Function.update_self, List.length_append, length_clientPacket, List.length_drop, hlen]
    omega
  · simpa [Fan.setBuf, hbuf] using h.heap b hb

theorem Fan.Sized.newBuf (h : s.Sized cfg) : (s.newBuf cfg).Sized cfg := by
  refine ⟨fun b hb => ?_, h.packet⟩
  rcases Nat.lt_succ_iff_lt_or_eq.mp hb with hb | rfl
  · simpa [Fan.newBuf, Fan.setBuf, Nat.ne_of_lt hb] using h.heap b hb
  · simp [Fan.newBuf, Fan.setBuf]

/-- **Buffers keep their capacity, whatever is done.** -/
theorem Fan.Sized.effect (h : s.Sized cfg) (he : Effect cfg s t) : t.Sized cfg := by
  have hpool (pool : List ℕ) : (s.setPool pool).Sized cfg := h.of_eq rfl rfl rfl
  cases he with
  | flags done panicked => exact h.of_eq rfl rfl rfl
  | loop r l hl => exact h.setStream (by simp [hl.packet])
  | dispatch r f targets hl hlen ht => exact h.setStream hlen
  | take r buf hl hb =>
    refine (hpool _).setLoop ?_
    simp [Fan.setPool, hl, LoopPc.packet]
  | make r hl => exact h.newBuf.setLoop (by simp [Fan.newBuf, Fan.setBuf, hl, LoopPc.packet])
  | fill r hl =>
    have hp := h.packet r
    rw [hl] at hp
    exact (h.fill hp).setLoop (by simp [Fan.setBuf, hl, LoopPc.packet])
  | push r hl =>
    refine Fan.Sized.setLoop (s := s.setSession _ _) (h.of_eq rfl rfl rfl) ?_
    simp [Fan.setSession, hl, LoopPc.packet]
  | refuse r hl => exact h.setLoop (by simp [hl, LoopPc.packet])
  | putBack r hl =>
    refine (hpool _).setLoop ?_
    simp [Fan.setPool, hl, LoopPc.packet]
  | register r c hs =>
    refine ⟨h.heap, fun r' => ?_⟩
    rw [loop_register]
    exact h.packet r'
  | stop r c hs hr =>
    refine Fan.Sized.setStream (s := s.setSession _ _) (h.of_eq rfl rfl rfl) ?_
    exact h.packet r
  | forget r c hs hr => exact h.setStream (h.packet r)
  | session k f hm hb => exact h.of_eq rfl rfl rfl
  | sessionPut k x f hm hb => exact h.of_eq rfl rfl rfl
  | send k hpc => exact h.of_eq rfl rfl rfl
  | client c f hb hl hw => exact h.of_eq rfl rfl rfl
  | write c ok hpc => exact h.of_eq rfl rfl rfl
  | clientPut c x f hb hl hw => exact h.of_eq rfl rfl rfl

/-- **What the reader takes from its buffer can be dispatched**: it is a frame, and no longer than
the buffer, of `BufferSize` bytes. -/
theorem dispatch_of_pass {buffer bytes : Bytes} {channel n r : ℕ}
    (h : processPass buffer = .item (.packet channel bytes) n) (hbuf : buffer.length ≤ cfg.bufferSize)
    (hl : (s.streams r).loop = .reading .idle) (hr : (s.streams r).removing = none) :
    ∃ f : Frame, f.encode = bytes ∧ f.channel.toNat = channel ∧
      (s.dispatch cfg r f (s.targets r channel)).isSome = true := by
  obtain ⟨f, rfl, rfl, hlen⟩ := exists_frame_of_packet h
  refine ⟨f, rfl, rfl, ?_⟩
  rw [Fan.dispatch, if_pos ⟨hl, hr, Nat.le_trans hlen hbuf, .refl _⟩]
  rfl

/-! ### The pool is a free list -/

theorem Fan.Owned.not_mem_pool (h : s.Owned) {p : Place} {b : ℕ} (hb : b ∈ s.held p) (hp : p ≠ .pool) :
    b ∉ s.pool := fun hpool => hp (h.unique hb (q := .pool) hpool)

/-- A buffer that is out is put back, or dropped. -/
theorem calls_release {x : Slice} (hx : x.buf ∉ s.pool) :
    exec Call.step s.pool (s.putCalls cfg x) = some (s.release cfg x).pool := by
  unfold Fan.putCalls Fan.release
  split
  · simp [exec, Call.step, hx, Fan.setPool]
  · rfl

/-- `dispatch` gets buffers, and puts back those it could not push. -/
theorem calls_stepDispatch (h : s.Owned) {r : ℕ} {o : Option ℕ} (hs : s.stepDispatch cfg r o = some t) :
    exec Call.step s.pool (s.calls cfg (.act (.dispatching r o))) = some t.pool := by
  unfold Fan.stepDispatch at hs
  unfold Fan.calls
  split at hs
  case h_1 hl => cases hs; simp only [hl]; rfl
  case h_2 packet u targets hl =>
    simp only [hl]
    obtain ⟨⟨g, buf⟩, hg, rfl⟩ := Option.map_eq_some_iff.mp hs
    cases o with
    | none =>
      cases hg
      have hnew : s.nextBuf ∉ s.pool := fun hb => Nat.lt_irrefl _ (h.known (p := .pool) hb)
      show some (s.pool.erase s.nextBuf) = some s.pool
      rw [List.erase_of_not_mem hnew]
    | some b =>
      obtain ⟨hb, ⟨⟩⟩ := Option.ite_none_right_eq_some.mp hg
      rfl
  case h_3 hl =>
    simp only [hl]
    split at hs <;> cases hs <;> rfl
  case h_4 hl =>
    simp only [hl]
    split at hs <;> cases hs <;> rfl
  case h_5 packet buf targets hl =>
    cases hs
    simp only [hl]
    have hout : buf ∉ s.pool := h.not_mem_pool (p := .reader r) (by simp [Fan.held, hl, LoopPc.bufs]) nofun
    simp [exec, Call.step, hout, Fan.setPool, Fan.setLoop, Fan.setStream]
  case h_6 => cases hs

theorem calls_stepRun (h : s.Owned) {k : ℕ} {o : RunInput} (hs : s.stepRun cfg k o = some t) :
    exec Call.step s.pool (s.calls cfg (.act (.run k o))) = some t.pool := by
  have hout {x : Slice} (hx : x.buf ∈ (s.sessions k).pc.bufs) : x.buf ∉ s.pool :=
    h.not_mem_pool (p := .session k) (List.mem_append_left _ hx) nofun
  unfold Fan.stepRun at hs
  dsimp only at hs
  split at hs
  case h_1 => split at hs <;> cases hs; rfl
  case h_2 => split at hs <;> cases hs; rfl
  case h_3 => split at hs <;> cases hs; rfl
  case h_4 =>
    split at hs
    · cases hs; rfl
    · split at hs <;> cases hs; rfl
  case h_5 => cases hs; rfl
  case h_6 x hpc => -- slow
    cases hs
    simp only [Fan.calls, hpc]
    exact calls_release (hout (by simp [hpc, RunPc.bufs]))
  case h_7 hpc =>
    simp only [Fan.calls, hpc]
    split at hs <;> cases hs <;> rfl
  case h_8 hpc =>
    simp only [Fan.calls, hpc]
    split at hs <;> cases hs; rfl
  case h_9 hpc =>
    simp only [Fan.calls, hpc]
    split at hs <;> cases hs <;> rfl
  case h_10 x hpc => -- drainPut
    cases hs
    simp only [Fan.calls, hpc]
    exact calls_release (hout (by simp [hpc, RunPc.bufs]))
  case h_11 => cases hs

/-- A writer puts back what it has written or drained. -/
theorem calls_stepWriter (h : s.Owned) {c : ℕ} {o : WriterInput} (hs : s.stepWriter cfg c o = some t) :
    exec Call.step s.pool (s.calls cfg (.act (.writer c o))) = some t.pool := by
  have hout {x : Slice} (hx : x.buf ∈ (s.clients c).pc.bufs) : x.buf ∉ s.pool :=
    h.not_mem_pool (p := .client c) (List.mem_append_left _ hx) nofun
  unfold Fan.stepWriter at hs
  dsimp only at hs
  split at hs
  case h_1 => split at hs <;> cases hs; rfl
  case h_2 =>
    split at hs
    · split at hs <;> cases hs; rfl
    · cases hs; rfl
  case h_3 => cases hs; rfl
  case h_4 x ok hpc => -- put
    cases hs
    simp only [Fan.calls, hpc]
    exact calls_release (hout (by simp [hpc, WriterPc.bufs]))
  case h_5 hpc =>
    simp only [Fan.calls, hpc]
    split at hs
    · split at hs <;> cases hs; rfl
    · cases hs; rfl
  case h_6 x hpc => -- drainPut
    cases hs
    simp only [Fan.calls, hpc]
    exact calls_release (hout (by simp [hpc, WriterPc.bufs]))
  case h_7 => cases hs

/-- The critical sections of `mu` and the other steps do not use the pool. -/
theorem pool_removeClient (r c : ℕ) : (s.removeClient r c).pool = s.pool := by
  unfold Fan.removeClient
  split
  · split
    · split <;> rfl
    · rfl
  · rfl

/-- **The pool is a free list**: each step calls it as one. -/
theorem calls_of_step (h : s.Owned) {a : AnyAct} (hs : s.anyStep cfg a = some t) :
    exec Call.step s.pool (s.calls cfg a) = some t.pool := by
  cases a with
  | stop k =>
    obtain ⟨-, ⟨⟩⟩ := Option.ite_none_left_eq_some.mp hs
    show some s.pool = some (s.stop k).pool
    unfold Fan.stop
    split
    · split <;> rfl
    · rfl
  | detach r =>
    obtain ⟨-, ⟨⟩⟩ := Option.ite_none_left_eq_some.mp hs
    rfl
  | act a =>
    obtain ⟨-, hs⟩ := Option.ite_none_left_eq_some.mp hs
    cases a with
    | loop r o =>
      unfold Fan.stepLoop at hs
      dsimp only at hs
      split at hs <;> cases hs <;> rfl
    | dispatch r f targets =>
      obtain ⟨-, ⟨⟩⟩ := Option.ite_none_right_eq_some.mp hs
      rfl
    | dispatching r o => exact calls_stepDispatch h hs
    | addClient r c =>
      obtain ⟨-, ⟨⟩⟩ := Option.ite_none_right_eq_some.mp hs
      unfold Fan.addClient
      split <;> rfl
    | mapChannel r c upstreamChan clientChan =>
      obtain ⟨-, ⟨⟩⟩ := Option.ite_none_right_eq_some.mp hs
      unfold Fan.mapChannel
      split <;> rfl
    | removeClient r c =>
      obtain ⟨-, ⟨⟩⟩ := Option.ite_none_right_eq_some.mp hs
      exact congrArg some (pool_removeClient r c).symm
    | stopped r =>
      obtain ⟨c, -, hs⟩ := Option.bind_eq_some_iff.mp hs
      obtain ⟨k, -, hs⟩ := Option.bind_eq_some_iff.mp hs
      obtain ⟨-, ⟨⟩⟩ := Option.ite_none_right_eq_some.mp hs
      rfl
    | run k o => exact calls_stepRun h hs
    | writer c o => exact calls_stepWriter h hs
    | destroy c => cases hs; rfl
    | close c =>
      obtain ⟨-, hs⟩ := Option.ite_none_left_eq_some.mp hs
      split at hs <;> cases hs <;> rfl
    | cancel => cases hs; rfl

theorem calls_eq (cfg : Config) (s : Fan) (a : AnyAct) : s.calls cfg a = [] ∨ ∃ call, s.calls cfg a = [call] := by
  have hput (x : Slice) : s.putCalls cfg x = [] ∨ ∃ call, s.putCalls cfg x = [call] := by
    unfold Fan.putCalls
    split
    · exact .inr ⟨_, rfl⟩
    · exact .inl rfl
  unfold Fan.calls
  split
  · split
    · exact .inr ⟨_, rfl⟩
    · exact .inr ⟨_, rfl⟩
    · exact .inl rfl
  · split
    · exact hput _
    · exact hput _
    · exact .inl rfl
  · split
    · exact hput _
    · exact hput _
    · exact .inl rfl
  · exact .inl rfl

theorem mem_pool_of_put (h : s.Owned) {a : AnyAct} (hs : s.anyStep cfg a = some t) {b : ℕ}
    (hb : .put b ∈ s.calls cfg a) : b ∈ t.pool := by
  have hcalls := calls_of_step h hs
  rcases calls_eq cfg s a with hnil | ⟨call, hone⟩
  · simp [hnil] at hb
  · rw [hone, List.mem_singleton] at hb
    rw [hone, ← hb, exec_cons_eq_some] at hcalls
    obtain ⟨pool, hput, hnil⟩ := hcalls
    obtain ⟨-, ⟨⟩⟩ := Option.ite_none_left_eq_some.mp hput
    rw [← Option.some.inj hnil]
    exact List.mem_cons_self ..

/-! ### Whole runs -/

theorem nextBuf_le_of_effect (he : Effect cfg s t) : s.nextBuf ≤ t.nextBuf := by
  cases he with
  | make r hl => exact Nat.le_succ _
  | _ => exact Nat.le_refl _

/-- A session that is stopped keeps its buffers. -/
theorem Fan.Owned.stop (h : s.Owned) (k : ℕ) : (s.stop k).Owned := by
  unfold Fan.stop
  split
  · split
    · exact h
    · show Theory.Owned _ (s.setSession k _).held
      rw [held_setSession]
      exact Theory.Owned.shrink h (.refl _)
  · exact h

theorem Fan.Sized.stop (h : s.Sized cfg) (k : ℕ) : (s.stop k).Sized cfg := by
  unfold Fan.stop
  split
  · split <;> exact h.of_eq rfl rfl rfl
  · exact h

theorem nextBuf_stop (k : ℕ) : (s.stop k).nextBuf = s.nextBuf := by
  unfold Fan.stop
  split
  · split <;> rfl
  · rfl

/-- Whether a stream has clients says nothing about its reader. -/
theorem Fan.Owned.detach (h : s.Owned) (r : ℕ) : (s.detach r).Owned := by
  show Theory.Owned _ (s.setStream r _).held
  rw [held_setStream]
  exact Theory.Owned.shrink h (.refl _)

theorem Fan.Owned.anyStep (h : s.Owned) (hsize : s.Sized cfg) {a : AnyAct} (hs : s.anyStep cfg a = some t) :
    t.Owned ∧ t.Sized cfg ∧ s.nextBuf ≤ t.nextBuf := by
  cases a with
  | stop k =>
    obtain ⟨-, ⟨⟩⟩ := Option.ite_none_left_eq_some.mp hs
    exact ⟨h.stop k, hsize.stop k, Nat.le_of_eq (nextBuf_stop k).symm⟩
  | detach r =>
    obtain ⟨-, ⟨⟩⟩ := Option.ite_none_left_eq_some.mp hs
    exact ⟨h.detach r, hsize.setStream (hsize.packet r), Nat.le_refl _⟩
  | act a =>
    refine ⟨h.step hs, invariant_of_step Fan.Sized.effect hsize hs, ?_⟩
    exact invariant_of_step (fun hle he => Nat.le_trans hle (nextBuf_le_of_effect he)) (Nat.le_refl _) hs

/-- What holds in every state: buffers have one owner and one capacity, and the pool is what its
calls have made it. -/
structure Logged.Inv (cfg : Config) (s : Logged) : Prop where
  /-- Each buffer is in one place. -/
  owned : s.fan.Owned
  /-- Each buffer has the capacity. -/
  sized : s.fan.Sized cfg
  /-- The pool is a free list. -/
  pool : exec Call.step [] s.log = some s.fan.pool
  /-- The buffers put were made by the pool. -/
  known : ∀ b, .put b ∈ s.log → b < s.fan.nextBuf

theorem inv_newLogged : newLogged.Inv cfg := ⟨owned_newFan, sized_newFan, rfl, nofun⟩

theorem Logged.Inv.step {s t : Logged} (h : s.Inv cfg) {a : AnyAct} (hs : s.step cfg a = some t) : t.Inv cfg := by
  obtain ⟨fan, hfan, rfl⟩ := Option.map_eq_some_iff.mp hs
  obtain ⟨howned, hsized, hle⟩ := h.owned.anyStep h.sized hfan
  refine ⟨howned, hsized, exec_append.mpr ⟨_, h.pool, calls_of_step h.owned hfan⟩, fun b hb => ?_⟩
  rcases List.mem_append.mp hb with hb | hb
  · exact Nat.lt_of_lt_of_le (h.known b hb) hle
  · exact howned.known (p := .pool) (mem_pool_of_put h.owned hfan hb)

/-- **A packet buffer has one owner**: the pool, the queue of one session, one `writeChan`, or one
goroutine, and is there once. Between two `Put`s of it there is a `Get`. Buffers put have the
capacity `BufferSize`, as have those in the pool, and a buffer that `dispatch` gets is large
enough for its packet. Clients come and go, and sessions are stopped, at any time. -/
theorem buffers_owned (cfg : Config) {as : List AnyAct} {t : Logged}
    (h : exec (Logged.step cfg) newLogged as = some t) :
    ((∀ p, (t.fan.has p).Nodup) ∧ ∀ p q b, b ∈ t.fan.has p → b ∈ t.fan.has q → p = q) ∧
      (∀ b before between after, t.log = before ++ .put b :: between ++ .put b :: after → .get b ∈ between) ∧
      (∀ b, .put b ∈ t.log ∨ b ∈ t.fan.pool → (t.fan.heap b).length = cfg.bufferSize) ∧
      ∀ r packet u buf targets, (t.fan.streams r).loop = .reading (.got packet u buf targets) →
        packet.length ≤ (t.fan.heap buf).length := by
  have hinv : t.Inv cfg :=
    exec_invariant (C := fun _ _ => True) (fun s a s' hs _ hstep => hs.step hstep) as newLogged t inv_newLogged
      (allSteps_of_forall fun _ _ => trivial) h
  have hhas := hinv.owned.has
  refine ⟨⟨hhas.nodup, fun p q b => hhas.unique⟩, fun b before between after hlog => ?_, fun b hb => ?_,
    fun r packet u buf targets hl => ?_⟩
  · have hpool := hinv.pool
    rw [hlog] at hpool
    exact get_between_puts hpool
  · exact hinv.sized.heap b (hb.elim (hinv.known b) (hinv.owned.known (p := .pool)))
  · have hbuf : buf < t.fan.nextBuf := hinv.owned.known (p := .reader r) (by simp [Fan.held, hl, LoopPc.bufs])
    have hp := hinv.sized.packet r
    rw [hl] at hp
    rw [hinv.sized.heap buf hbuf]
    exact hp

/-- Two clients get a frame. The first is slow, and gives up its packet. The second has no room for the
next frame, and its session is stopped. -/
def slowAndStopped : List AnyAct :=
  [.addClient 0 0, .mapChannel 0 0 0 2, .addClient 0 1, .mapChannel 0 1 0 4, .loop 0 .start, .loop 0 .dialed,
    .dispatch 0 ⟨0, [7], seven_fits⟩ [⟨0, 2⟩, ⟨1, 4⟩], .dispatching 0 none, .dispatching 0 none, .dispatching 0 none,
    .dispatching 0 none, .dispatching 0 none, .dispatching 0 none, .dispatching 0 none, .run 0 .packet,
    .run 0 .timeout, .run 0 .next, .dispatch 0 ⟨0, [8], eight_fits⟩ [⟨0, 2⟩, ⟨1, 4⟩], .dispatching 0 (some 0),
    .dispatching 0 none, .dispatching 0 none, .dispatching 0 none, .dispatching 0 none, .dispatching 0 none,
    .dispatching 0 none].map .act ++ [.stop 1] ++ [.run 1 .quit, .run 1 .next, .run 1 .next].map .act

theorem buffers_owned_slowAndStopped :
    ∃ t, exec (Logged.step ⟨16, 1⟩) newLogged slowAndStopped = some t ∧
      t.log = [.get 0, .get 1, .put 0, .get 0, .get 2, .put 2, .put 1] ∧ t.fan.has (.queue 0) = [0] ∧
      ∀ p q b, b ∈ t.fan.has p → b ∈ t.fan.has q → p = q := by
  have hrun : (exec (Logged.step ⟨16, 1⟩) newLogged slowAndStopped).any (fun t =>
      t.log = [.get 0, .get 1, .put 0, .get 0, .get 2, .put 2, .put 1] ∧ t.fan.has (.queue 0) = [0]) = true := by
    decide +kernel
  obtain ⟨t, ht, hlog⟩ := (Option.any_eq_true _ _).mp hrun
  obtain ⟨hlog, hqueue⟩ := of_decide_eq_true hlog
  exact ⟨t, ht, hlog, hqueue, (buffers_owned ⟨16, 1⟩ ht).1.2⟩

end RtspProxy.Fanout
