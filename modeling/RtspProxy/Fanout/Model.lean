import RtspProxy.Wire.ReadLoop
import RtspProxy.Theory.Run
import Mathlib.Data.List.AList

/-!
# From the cameras to the clients

The reader of a stream calls `dispatch` for each frame of its camera: for every client that
has mapped the frame's channel, a copy goes into a pooled buffer and into the queue of the
client's session. `ClientSession.run` takes it from there to the client's `writeChan`, and
`Client.writer` writes it to the client's connection and returns the buffer to the pool.

## The model

`Fan` has the streams, sessions and clients by number, each with the point its goroutine has
reached, and the buffers with the pool they share. A client may be registered with several
streams. A step is one critical section of a stream's `mu`, one channel operation, one use of
the pool or one access to a buffer.

* `RemoveClient` holds `mu` while it waits for the session's goroutine to end (`removing`); no
  other critical section of this `mu` can be entered meanwhile.
* `connectLoop` starts a reader for each connection, and receives from `readDone` on every path
  before it goes on. So the reader is part of the loop's state (`LoopPc.reading`). Reconnects are
  further rounds of the loop, and `loopStarted` keeps a second loop from starting.
* The bytes of a buffer are all of its capacity. A slice expression beyond it panics.

`history`, `written` and `Slice.stream` only record what happens.
-/

namespace RtspProxy.Fanout

open Theory Wire

/-- The limits of `GlobalConfig`. -/
structure Config where
  bufferSize : ℕ
  packetQueueSize : ℕ
  deriving DecidableEq, Repr

/-- A slice of a pooled buffer, from its start. -/
structure Slice where
  /-- The stream whose frame it was filled with. -/
  stream : ℕ
  /-- The buffer. -/
  buf : ℕ
  /-- The length. -/
  len : ℕ
  deriving DecidableEq, Repr

/-- `clientPacket`: the packet with the client's channel as its second byte. -/
def clientPacket (packet : Bytes) (clientChannel : ℤ) : Bytes :=
  packet.set 1 (clientChannel % 256).toNat.toUInt8

/-! ### Sessions -/

/-- Where `ClientSession.run` is. -/
inductive RunPc where
  /-- In the select of its loop. -/
  | select
  /-- In the select that forwards a packet. -/
  | forward (packet : Slice)
  /-- The client is slow; about to return the packet to the pool. -/
  | slow (packet : Slice)
  /-- About to call `client.Destroy`. -/
  | destroy
  /-- In `client.Destroy`, waiting for the writer. -/
  | waitWriter
  /-- Draining its queue. -/
  | drain
  /-- It has drained a packet; about to return it to the pool. -/
  | drainPut (packet : Slice)
  /-- Ended. -/
  | exited
  deriving DecidableEq, Repr

/-- A `ClientSession`. -/
structure Session where
  stream : ℕ
  client : ℕ
  channels : ℤ → Option ℤ
  queue : List Slice
  active : Bool
  /-- `quit` is closed. -/
  quit : Bool
  /-- Its goroutine. -/
  pc : RunPc

/-- `NewClientSession`, and `Start`. -/
def newClientSession (stream client : ℕ) : Session := ⟨stream, client, fun _ => none, [], true, false, .select⟩

/-- A session that is not there yet. -/
def noSession : Session := ⟨0, 0, fun _ => none, [], false, false, .exited⟩

/-! ### Clients -/

/-- Where `Client.writer` is. -/
inductive WriterPc where
  /-- In the select of its loop. -/
  | loop
  /-- About to write. -/
  | write (data : Slice)
  /-- It has written, and is about to return the buffer. -/
  | put (data : Slice) (ok : Bool)
  /-- Draining `writeChan`. -/
  | drain
  /-- It has drained a packet; about to return it to the pool. -/
  | drainPut (data : Slice)
  /-- Ended. -/
  | exited
  deriving DecidableEq, Repr

/-- What a writer has passed to its connection at once. -/
structure Written where
  /-- The stream it came from. -/
  stream : ℕ
  /-- The bytes. -/
  data : Bytes
  deriving DecidableEq, Repr

/-- A `Client`. -/
structure Client where
  writeChan : List Slice
  closed : Bool
  destroyed : Bool
  /-- The goroutines in `Destroy` that are about to close `writeChan`. -/
  closing : ℕ
  /-- Its writer. -/
  pc : WriterPc
  /-- What the writer has passed to the connection. -/
  written : List Written

/-- `NewClient`. -/
def newClient : Client := ⟨[], false, false, 0, .loop, []⟩

/-- The capacity of `writeChan`. -/
def writeChanSize : ℕ := 200

/-! ### Streams -/

/-- A `targetSnapshot`. -/
structure Target where
  /-- `cs`. -/
  session : ℕ
  clientChannel : ℤ
  deriving DecidableEq, Repr

/-- Where a reader is in `dispatch`. -/
inductive DispatchPc where
  /-- Not in it. -/
  | idle
  /-- At the head of the loop over the targets. -/
  | next (packet : Bytes) (targets : List Target)
  /-- It has got a buffer for a target. -/
  | got (packet : Bytes) (t : Target) (buf : ℕ) (targets : List Target)
  /-- It has filled the buffer, and is about to push. -/
  | push (packet : Bytes) (t : Target) (buf : ℕ) (targets : List Target)
  /-- The queue was full; about to return the buffer. -/
  | refused (packet : Bytes) (buf : ℕ) (targets : List Target)
  deriving DecidableEq, Repr

/-- Where `connectLoop` is, with its reader. -/
inductive LoopPc where
  /-- It does not run. -/
  | off
  /-- It has no reader. -/
  | connecting
  /-- It has started a reader, and has not received from `readDone` yet. -/
  | reading (reader : DispatchPc)
  deriving DecidableEq, Repr

/-- A frame that was dispatched, and the channel to which each registered client had mapped its
channel then. -/
structure Dispatched where
  frame : Frame
  /-- The mappings. -/
  mapped : ℕ → Option ℤ

/-- A `Stream`. -/
structure Stream where
  /-- `clients`: the registered clients, with their sessions. -/
  registered : AList fun _ : ℕ => ℕ
  /-- The client whose removal holds `mu`. -/
  removing : Option ℕ
  /-- Its `connectLoop`. -/
  loop : LoopPc
  /-- The frames dispatched. -/
  history : List Dispatched

/-- `NewStream`. -/
def newStream : Stream := ⟨∅, none, .off, []⟩

/-! ### The state -/

/-- The streams, sessions and clients of a server. -/
structure Fan where
  streams : ℕ → Stream
  sessions : ℕ → Session
  /-- The number of sessions made. -/
  nextSession : ℕ
  clients : ℕ → Client
  /-- The buffers. -/
  heap : ℕ → Bytes
  /-- The number of buffers made. -/
  nextBuf : ℕ
  /-- `packetPool`. -/
  pool : List ℕ
  /-- `Server.ctx` is done. -/
  done : Bool
  /-- The program has panicked. -/
  panicked : Bool

/-- A server before its first frame. -/
def newFan : Fan :=
  { streams := fun _ => newStream, sessions := fun _ => noSession, nextSession := 0
    clients := fun _ => newClient, heap := fun _ => [], nextBuf := 0, pool := [], done := false
    panicked := false }

/-- The session of a client that is registered with a stream. -/
def Fan.sessionOf (s : Fan) (r c : ℕ) : Option ℕ := (s.streams r).registered.lookup c

/-- The channel to which a client of a stream maps an upstream channel. -/
def Fan.mapped (s : Fan) (r : ℕ) (channel : ℤ) (c : ℕ) : Option ℤ :=
  (s.sessionOf r c).bind fun k => (s.sessions k).channels channel

/-- What a stream has dispatched for a client: the frames whose channel the client had mapped,
each with the client's channel. -/
def Fan.selected (s : Fan) (r c : ℕ) : List Bytes :=
  (s.streams r).history.filterMap fun d => (d.mapped c).map (clientPacket d.frame.encode)

/-- The bytes of a slice. -/
def Fan.content (s : Fan) (x : Slice) : Bytes := (s.heap x.buf).take x.len

/-- A stream changes. -/
def Fan.setStream (s : Fan) (r : ℕ) (f : Stream → Stream) : Fan :=
  { s with streams := Function.update s.streams r (f (s.streams r)) }

/-- `connectLoop` or its reader moves on. -/
def Fan.setLoop (s : Fan) (r : ℕ) (l : LoopPc) : Fan := s.setStream r fun st => { st with loop := l }

/-- A session changes. -/
def Fan.setSession (s : Fan) (k : ℕ) (f : Session → Session) : Fan :=
  { s with sessions := Function.update s.sessions k (f (s.sessions k)) }

/-- A client changes. -/
def Fan.setClient (s : Fan) (c : ℕ) (f : Client → Client) : Fan :=
  { s with clients := Function.update s.clients c (f (s.clients c)) }

/-- The pool changes. -/
def Fan.setPool (s : Fan) (pool : List ℕ) : Fan := { s with pool := pool }

/-- The bytes of a buffer change. -/
def Fan.setBuf (s : Fan) (buf : ℕ) (bytes : Bytes) : Fan :=
  { s with heap := Function.update s.heap buf bytes }

/-! ### The pool -/

/-- The test before `packetPool.Put`: `len(data) > 0 && data[0] == '$' && cap(data) == BufferSize`. -/
def Fan.returnable (cfg : Config) (s : Fan) (x : Slice) : Bool :=
  (s.content x).head? = some 36 && (s.heap x.buf).length = cfg.bufferSize

/-- `packetPool.Put` of a slice's buffer, if it passes the test. -/
def Fan.release (cfg : Config) (s : Fan) (x : Slice) : Fan :=
  s.setPool (if s.returnable cfg x then x.buf :: s.pool else s.pool)

/-- `New` of `packetPool`. -/
def Fan.newBuf (cfg : Config) (s : Fan) : Fan :=
  { s.setBuf s.nextBuf (List.replicate cfg.bufferSize 0) with nextBuf := s.nextBuf + 1 }

/-- `packetPool.Get`: a buffer of the pool, or a new one. -/
def Fan.getBuf (cfg : Config) (s : Fan) : Option ℕ → Option (Fan × ℕ)
  | some buf => if buf ∈ s.pool then some (s.setPool (s.pool.erase buf), buf) else none
  | none => some (s.newBuf cfg, s.nextBuf)

/-! ### Steps of `connectLoop` and its reader -/

/-- What `connectLoop` does next. -/
inductive LoopInput where
  /-- `startConnectLoop`. -/
  | start
  /-- It has dialed, and starts a reader. -/
  | dialed
  /-- It receives from `readDone`. -/
  | readDone
  /-- It returns. -/
  | leave
  deriving DecidableEq, Repr

/-- A step of `connectLoop`. The reader returns outside of `dispatch`. -/
def Fan.stepLoop (s : Fan) (r : ℕ) (o : LoopInput) : Option Fan :=
  match (s.streams r).loop, o with
  | .off, .start => some (s.setLoop r .connecting)
  | _, .start => some s
  | .connecting, .dialed => some (s.setLoop r (.reading .idle))
  | .reading .idle, .readDone => some (s.setLoop r .connecting)
  | .connecting, .leave => some (s.setLoop r .off)
  | _, _ => none

/-- The targets of a channel. -/
def Fan.targets (s : Fan) (r : ℕ) (channel : ℤ) : List Target :=
  (s.streams r).registered.entries.filterMap fun e =>
    ((s.sessions e.2).channels channel).map fun clientChannel => ⟨e.2, clientChannel⟩

/-- The critical section of `dispatch`. The map `clients` is read in any order. The packet was
in the reader's buffer, of `BufferSize` bytes. -/
def Fan.dispatch (cfg : Config) (s : Fan) (r : ℕ) (f : Frame) (targets : List Target) : Option Fan :=
  if (s.streams r).loop = .reading .idle ∧ (s.streams r).removing = none ∧
      f.encode.length ≤ cfg.bufferSize ∧ targets.Perm (s.targets r f.channel.toNat) then
    some (s.setStream r fun st =>
      { st with
        loop := .reading (.next f.encode targets)
        history := st.history ++ [⟨f, s.mapped r f.channel.toNat⟩] })
  else none

/-- The next step of `dispatch`; the input says what the pool gives. -/
def Fan.stepDispatch (cfg : Config) (s : Fan) (r : ℕ) (o : Option ℕ) : Option Fan :=
  match (s.streams r).loop with
  | .reading (.next _ []) => some (s.setLoop r (.reading .idle))
  | .reading (.next packet (t :: targets)) =>
    (s.getBuf cfg o).map fun g => g.1.setLoop r (.reading (.got packet t g.2 targets))
  | .reading (.got packet t buf targets) =>
    -- `buf[:len(packet)]` panics beyond the capacity
    if (s.heap buf).length < packet.length then some { s with panicked := true }
    else some ((s.setBuf buf (clientPacket packet t.clientChannel ++ (s.heap buf).drop packet.length)).setLoop r
      (.reading (.push packet t buf targets)))
  | .reading (.push packet t buf targets) =>
    if (s.sessions t.session).queue.length < cfg.packetQueueSize then
      some ((s.setSession t.session fun cs =>
        { cs with queue := cs.queue ++ [⟨r, buf, packet.length⟩] }).setLoop r (.reading (.next packet targets)))
    else some (s.setLoop r (.reading (.refused packet buf targets)))
  | .reading (.refused packet buf targets) =>
    some ((s.setPool (buf :: s.pool)).setLoop r (.reading (.next packet targets)))
  | _ => none

/-! ### Critical sections of `mu` -/

/-- A client gets a new session, which is started. -/
def Fan.register (s : Fan) (r c : ℕ) : Fan :=
  (({ s with nextSession := s.nextSession + 1 }).setSession s.nextSession fun _ =>
    newClientSession r c).setStream r fun st => { st with registered := st.registered.insert c s.nextSession }

/-- `AddClient`. -/
def Fan.addClient (s : Fan) (r c : ℕ) : Fan :=
  match s.sessionOf r c with
  | some _ => s
  | none => s.register r c

/-- `MapChannel`. -/
def Fan.mapChannel (s : Fan) (r c : ℕ) (upstreamChan clientChan : ℤ) : Fan :=
  match s.sessionOf r c with
  | some k => s.setSession k fun cs =>
      { cs with channels := Function.update cs.channels upstreamChan (some clientChan) }
  | none => s

/-- The `delete` of `RemoveClient`, which then unlocks `mu`. -/
def Fan.forget (s : Fan) (r c : ℕ) : Fan :=
  s.setStream r fun st => { st with registered := st.registered.erase c, removing := none }

/-- `RemoveClient`, up to the wait of `Stop` for the session's goroutine. -/
def Fan.removeClient (s : Fan) (r c : ℕ) : Fan :=
  match s.sessionOf r c with
  | some k =>
    if (s.sessions k).active then
      -- closing a closed channel panics
      if (s.sessions k).quit then { s with panicked := true }
      else (s.setSession k fun cs => { cs with active := false, quit := true }).setStream r fun st =>
        { st with removing := some c }
    else s.forget r c
  | none => s

/-- The rest of `RemoveClient`, once the goroutine has ended. -/
def Fan.stopped (s : Fan) (r : ℕ) : Option Fan :=
  (s.streams r).removing.bind fun c => (s.sessionOf r c).bind fun k =>
    if (s.sessions k).pc = .exited then some (s.forget r c) else none

/-! ### Steps of the sessions' and clients' goroutines -/

/-- `Client.Destroy`: who sets `destroyed` goes on to close `writeChan`. -/
def Client.destroy (cl : Client) : Client :=
  if cl.destroyed then cl else { cl with destroyed := true, closing := cl.closing + 1 }

/-- The `close` of `Client.Destroy`. -/
def Fan.close (s : Fan) (c : ℕ) : Option Fan :=
  if (s.clients c).closing = 0 then none
  else if (s.clients c).closed then some { s with panicked := true }
  else some (s.setClient c fun cl => { cl with closed := true, closing := cl.closing - 1 })

/-- What `ClientSession.run` meets. -/
inductive RunInput where
  /-- The next step, where there is only one. -/
  | next
  /-- `quit` is closed. -/
  | quit
  /-- The server's context is done. -/
  | done
  /-- A packet is in the queue. -/
  | packet
  /-- The packet goes into `writeChan`. -/
  | sent
  /-- 100 milliseconds are over. -/
  | timeout
  deriving DecidableEq, Repr

/-- `ClientSession.run` moves on. -/
def Fan.runAt (s : Fan) (k : ℕ) (pc : RunPc) : Fan := s.setSession k fun cs => { cs with pc := pc }

/-- A step of `ClientSession.run`. -/
def Fan.stepRun (cfg : Config) (s : Fan) (k : ℕ) (o : RunInput) : Option Fan :=
  let cs := s.sessions k
  let cl := s.clients cs.client
  match cs.pc, o with
  | .select, .quit => if cs.quit then some (s.runAt k .drain) else none
  | .select, .done => if s.done then some (s.runAt k .drain) else none
  | .select, .packet =>
    match cs.queue with
    | [] => none
    | x :: q => some (s.setSession k fun cs => { cs with queue := q, pc := .forward x })
  | .forward x, .sent =>
    -- a send on a closed channel panics
    if cl.closed then some { s with panicked := true }
    else if cl.writeChan.length < writeChanSize then
      some ((s.setClient cs.client fun cl => { cl with writeChan := cl.writeChan ++ [x] }).runAt k .select)
    else none
  | .forward x, .timeout => some (s.runAt k (.slow x))
  | .slow x, .next => some ((s.release cfg x).runAt k .destroy)
  | .destroy, .next =>
    if cl.destroyed then some (s.runAt k .drain)
    else some ((s.setClient cs.client Client.destroy).runAt k .waitWriter)
  | .waitWriter, .next => if cl.pc = .exited then some (s.runAt k .drain) else none
  | .drain, .next =>
    match cs.queue with
    | [] => some (s.runAt k .exited)
    | x :: q => some (s.setSession k fun cs => { cs with queue := q, pc := .drainPut x })
  | .drainPut x, .next => some ((s.release cfg x).runAt k .drain)
  | _, _ => none

/-- What `Client.writer` meets. -/
inductive WriterInput where
  /-- The next step, where there is only one. -/
  | next
  /-- The server's context is done. -/
  | done
  /-- `writeChan` has data, or is closed. -/
  | data
  /-- The write returns. -/
  | wrote (ok : Bool)
  deriving DecidableEq, Repr

/-- `Client.writer` moves on. -/
def Fan.writerAt (s : Fan) (c : ℕ) (pc : WriterPc) : Fan := s.setClient c fun cl => { cl with pc := pc }

/-- A step of `Client.writer`. -/
def Fan.stepWriter (cfg : Config) (s : Fan) (c : ℕ) (o : WriterInput) : Option Fan :=
  let cl := s.clients c
  match cl.pc, o with
  | .loop, .done => if s.done then some (s.writerAt c .drain) else none
  | .loop, .data =>
    match cl.writeChan with
    | [] => if cl.closed then some (s.writerAt c .drain) else none
    | x :: q => some (s.setClient c fun cl => { cl with writeChan := q, pc := .write x })
  | .write x, .wrote ok =>
    some (s.setClient c fun cl =>
      { cl with written := cl.written ++ [⟨x.stream, s.content x⟩], pc := .put x ok })
  | .put x ok, .next => some ((s.release cfg x).writerAt c (if ok then .loop else .drain))
  | .drain, .next =>
    match cl.writeChan with
    | [] => if cl.closed then some (s.writerAt c .exited) else none
    | x :: q => some (s.setClient c fun cl => { cl with writeChan := q, pc := .drainPut x })
  | .drainPut x, .next => some ((s.release cfg x).writerAt c .drain)
  | _, _ => none

/-! ### The system -/

/-- The actions. -/
inductive Act where
  /-- A step of a stream's `connectLoop`. -/
  | loop (r : ℕ) (o : LoopInput)
  /-- The critical section of `dispatch`. -/
  | dispatch (r : ℕ) (f : Frame) (targets : List Target)
  /-- The next step of `dispatch`. -/
  | dispatching (r : ℕ) (o : Option ℕ)
  | addClient (r c : ℕ)
  | mapChannel (r c : ℕ) (upstreamChan clientChan : ℤ)
  /-- `RemoveClient` starts. -/
  | removeClient (r c : ℕ)
  /-- `RemoveClient` ends. -/
  | stopped (r : ℕ)
  /-- A step of a session's goroutine. -/
  | run (k : ℕ) (o : RunInput)
  /-- A step of a client's writer. -/
  | writer (c : ℕ) (o : WriterInput)
  /-- The client's handler calls `Destroy`. -/
  | destroy (c : ℕ)
  /-- A goroutine in `Destroy` closes `writeChan`. -/
  | close (c : ℕ)
  /-- The server's context is cancelled. -/
  | cancel

/-- One step of the server. -/
def Fan.step (cfg : Config) (s : Fan) (a : Act) : Option Fan :=
  if s.panicked then none
  else match a with
    | .loop r o => s.stepLoop r o
    | .dispatch r f targets => s.dispatch cfg r f targets
    | .dispatching r o => s.stepDispatch cfg r o
    | .addClient r c => if (s.streams r).removing = none then some (s.addClient r c) else none
    | .mapChannel r c upstreamChan clientChan =>
      if (s.streams r).removing = none then some (s.mapChannel r c upstreamChan clientChan) else none
    | .removeClient r c => if (s.streams r).removing = none then some (s.removeClient r c) else none
    | .stopped r => s.stopped r
    | .run k o => s.stepRun cfg k o
    | .writer c o => s.stepWriter cfg c o
    | .destroy c => some (s.setClient c Client.destroy)
    | .close c => s.close c
    | .cancel => some { s with done := true }

/-- A payload of one byte fits a frame: for the frames of a run. -/
theorem seven_fits : ([7] : Bytes).length < 2 ^ 16 := by decide

theorem eight_fits : ([8] : Bytes).length < 2 ^ 16 := by decide

end RtspProxy.Fanout
