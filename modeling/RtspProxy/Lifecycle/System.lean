import RtspProxy.Lifecycle.State
import RtspProxy.Theory.Run

/-!
# The goroutines of one stream

A stream is driven by several goroutines at once: the connect loop, the reader that it
starts for each connection, one keep-alive goroutine for each upstream session, and any
number of callers in `Start`, `AddClient`, `RemoveClient`, `Stop` and `Destroy`.

## The model

`Sys` has the fields of `Stream` that these goroutines share and, for each goroutine, the
point it has reached. A step (`Sys.step`) is what one goroutine does between two points at
which another may come in: one critical section of `s.mu` or `connMutex`, one operation on
an atomic flag, or one receive. An action names the goroutine and the outcome of the call
it makes; a run is any list of actions.

* `Net` is the upstream side: the remotes made so far, whether each has a connection, the
  sessions and their keep-alive goroutines, and the number of dials.
* The requests themselves (queue, CSeq, authentication) are left out here: what matters is
  that `SendRequest` dials when the remote has no connection.
* `crashed` is set by the step that calls a method of a nil remote.
-/

namespace RtspProxy.Lifecycle

/-! ### Remotes, sessions and keep-alives -/

/-- What becomes of a call of `SendRequest`. -/
inductive SendOutcome where
  /-- The request is written. -/
  | ok
  /-- `dialLocked` fails. -/
  | dialFails
  /-- `conn.Write` fails. -/
  | writeFails
  deriving DecidableEq, Repr

/-- The parts of a `Session` that start and stop its keep-alive. -/
structure SessionObj where
  started : Bool
  /-- `quit`, unless nil. -/
  quit : Option ℕ
  deriving DecidableEq, Repr

/-- Where a keep-alive goroutine is. -/
inductive KeepAlivePc where
  | select
  /-- About to call `SendRequest` on remote `r`, in round `attempt` of `SendRequestSync`. -/
  | sending (r attempt : ℕ)
  /-- In `GetResponse`, in round `attempt` of `SendRequestSync`. -/
  | waiting (r attempt : ℕ)
  /-- Returned; `started` is still to be cleared. -/
  | exiting
  deriving DecidableEq, Repr

/-- A keep-alive goroutine. -/
structure KeepAlive where
  /-- Its session. -/
  obj : ℕ
  /-- The quit channel it listens on. -/
  quit : ℕ
  /-- Where it is. -/
  pc : KeepAlivePc
  deriving DecidableEq, Repr

/-- The upstream side of a stream. -/
structure Net where
  /-- `s.remote`, as a number of a remote, unless nil. -/
  remote : Option ℕ
  /-- For each remote made so far, whether `RemoteConn` is non-nil. -/
  conns : List Bool
  /-- `s.sessions`: session id and session. -/
  sessions : List (ℕ × ℕ)
  /-- The sessions made so far. -/
  objs : List SessionObj
  /-- The quit channels closed so far. -/
  closedQuits : List ℕ
  /-- The next quit channel. -/
  nextQuit : ℕ
  /-- The keep-alive goroutines. -/
  keepAlives : List KeepAlive
  /-- `s.server.ctx` is done. -/
  serverDone : Bool
  /-- How often the camera was dialled. -/
  dials : ℕ
  deriving DecidableEq, Repr

/-- The connection of remote `r` set or cleared. -/
def Net.setConn (n : Net) (r : ℕ) (b : Bool) : Net := { n with conns := n.conns.set r b }

/-- `Remote.dialLocked` on remote `r`, and whether it succeeded. -/
def Net.dialLocked (n : Net) (r : ℕ) (ok : Bool) : Net × Bool :=
  if n.serverDone then (n, false)
  else if ok then ({ n with dials := n.dials + 1 }.setConn r true, true)
  else ({ n with dials := n.dials + 1 }, false)

/-- `Remote.SendRequest` on remote `r`, and whether it succeeded. -/
def Net.sendRequest (n : Net) (r : ℕ) (o : SendOutcome) : Net × Bool :=
  let d := if n.conns[r]? = some true then (n, true) else n.dialLocked r (o != .dialFails)
  if d.2 then
    if o = .writeFails then (d.1.setConn r false, false) else (d.1, true)
  else d

/-- `NewRemote`, and the `Disconnect` of the old remote before it. -/
def Net.newRemote (n : Net) (resolved : Bool) : Net :=
  let n := match n.remote with
    | some r => n.setConn r false
    | none => n
  if resolved then { n with remote := some n.conns.length, conns := n.conns ++ [false] }
  else { n with remote := none }

/-- `Stream.LookupSession`. -/
def Net.lookupSession (n : Net) (id : ℕ) : Net × ℕ :=
  match n.sessions.lookup id with
  | some obj => (n, obj)
  | none =>
    ({ n with sessions := n.sessions ++ [(id, n.objs.length)], objs := n.objs ++ [⟨false, none⟩] },
      n.objs.length)

/-- `Session.StartUpstream`. -/
def Net.startUpstream (n : Net) (obj : ℕ) : Net :=
  match n.objs[obj]? with
  | some ⟨false, _⟩ =>
    { n with objs := n.objs.set obj ⟨true, some n.nextQuit⟩,
             keepAlives := n.keepAlives ++ [⟨obj, n.nextQuit, .select⟩],
             nextQuit := n.nextQuit + 1 }
  | _ => n

/-- `Session.Stop`. -/
def Net.sessionStop (n : Net) (obj : ℕ) : Net :=
  match n.objs[obj]? with
  | some ⟨true, some q⟩ =>
    { n with objs := n.objs.set obj ⟨false, none⟩, closedQuits := q :: n.closedQuits }
  | some ⟨true, none⟩ => { n with objs := n.objs.set obj ⟨false, none⟩ }
  | _ => n

/-- What a keep-alive goroutine does next. -/
inductive KeepAliveChoice where
  /-- The ticker fires. -/
  | tick
  /-- The quit channel is closed, or the stream's context done. -/
  | quit
  /-- `SendRequest` returns. -/
  | sent (o : SendOutcome)
  /-- `GetResponse` returns an answer, or the context is done. -/
  | answered
  /-- `GetResponse` times out. -/
  | timeout
  /-- The deferred `session.started.Store(false)`. -/
  | exit
  deriving DecidableEq, Repr

/-- Keep-alive `i` goes on to `pc`. -/
def Net.keepAliveAt (n : Net) (i : ℕ) (k : KeepAlive) (pc : KeepAlivePc) : Net :=
  { n with keepAlives := n.keepAlives.set i { k with pc := pc } }

/-- Keep-alive `i` is gone: `defer session.started.Store(false)`. -/
def Net.keepAliveExit (n : Net) (i : ℕ) (k : KeepAlive) : Net :=
  { n with keepAlives := n.keepAlives.eraseIdx i,
           objs := n.objs.modify k.obj fun o => { o with started := false } }

/-- A step of keep-alive goroutine `i`. -/
def Net.stepKeepAlive (n : Net) (cancelled : Bool) (i : ℕ) (o : KeepAliveChoice) : Option Net :=
  match n.keepAlives[i]? with
  | none => none
  | some k =>
    match k.pc, o with
    | .select, .tick =>
      match n.remote with
      | none => some (n.keepAliveAt i k .exiting)
      | some r => some (n.keepAliveAt i k (.sending r 0))
    | .select, .quit =>
      if k.quit ∈ n.closedQuits ∨ cancelled then some (n.keepAliveAt i k .exiting) else none
    | .sending r attempt, .sent o =>
      if (n.sendRequest r o).2 then some ((n.sendRequest r o).1.keepAliveAt i k (.waiting r attempt))
      else some ((n.sendRequest r o).1.keepAliveAt i k .select)
    | .waiting _ _, .answered => some (n.keepAliveAt i k .select)
    | .waiting r attempt, .timeout =>
      if attempt = 0 then some (n.keepAliveAt i k (.sending r 1)) else some (n.keepAliveAt i k .select)
    | .exiting, .exit => some (n.keepAliveExit i k)
    | _, _ => none

/-! ### The goroutines of the stream -/

/-- Where the connect loop is. -/
inductive LoopPc where
  /-- At the head of the loop. -/
  | top
  /-- About to read the state. -/
  | readState
  /-- It has read the state `st`, and is about to return or to enter `Connecting`. -/
  | check (st : StreamState)
  /-- About to replace the remote. -/
  | newRemote
  /-- About to dial with remote `r`. -/
  | dial (r : ℕ)
  /-- It has started the reader, and is about to call `doConnectSequence`. -/
  | connect
  /-- In `doConnectSequence` with remote `r`. -/
  | handshake (r : ℕ)
  /-- In `PlayUpstream` with remote `r`, about to start the keep-alive of a session. -/
  | starting (r obj : ℕ)
  /-- About to enter `Playing`. -/
  | play
  /-- Waiting for the reader to end. -/
  | playing
  /-- The reader has ended, with or without an error. -/
  | readDone (err : Bool)
  /-- After the reader's end it has read the state `st`. -/
  | ended (st : StreamState) (err : Bool)
  /-- Waiting for the reader, to return. -/
  | draining
  /-- The handshake failed; waiting for the reader. -/
  | failing
  /-- About to count the clients after a failure. -/
  | countClients
  /-- About to enter `Reconnecting`. -/
  | retry
  /-- About to enter `Disconnected` and return. -/
  | giveUp
  /-- In its backoff. -/
  | sleeping
  /-- Returned from `connectLoop`; `loopStarted` is still set. -/
  | returning
  deriving DecidableEq, Repr

/-- The loop returns from here whatever the state becomes. -/
def LoopPc.past : LoopPc → Bool
  | .check st => st.isStop
  | .readDone err => !err
  | .ended st err => st.isStop || !err
  | .draining | .giveUp | .returning => true
  | _ => false

/-- Where the reader is. -/
inductive ReaderPc where
  /-- About to read `s.remote`. -/
  | start
  /-- About to read the connection of remote `r`. -/
  | conn (r : ℕ)
  /-- In its loop. -/
  | reading
  /-- In `HandleUpstreamResponse` of remote `r`. -/
  | handling (r : ℕ)
  /-- In `handlePlay`, about to start the keep-alive of a session. -/
  | starting (obj : ℕ)
  /-- Returned, with or without an error; the result is in `readDone`. -/
  | done (err : Bool)
  deriving DecidableEq, Repr

/-- Where a call of `Stop` or `Destroy` is. -/
inductive ClosePc where
  /-- About to cancel the stream's context (`Destroy`). -/
  | cancel
  /-- About to take the remote and the sessions. -/
  | take
  /-- With `left` TEARDOWN requests to send on remote `r`. -/
  | teardown (r left : ℕ) (objs : List ℕ)
  /-- About to disconnect remote `r`. -/
  | disconnect (r : ℕ) (objs : List ℕ)
  /-- With these sessions to stop. -/
  | stopSessions (objs : List ℕ)
  /-- About to enter `Disconnected` (`Stop`) or to return (`Destroy`). -/
  | finish
  deriving DecidableEq, Repr

/-- A call of `Stop` or `Destroy`. -/
structure Closer where
  /-- A call of `Destroy`. -/
  destroys : Bool
  /-- Where it is. -/
  pc : ClosePc
  deriving DecidableEq, Repr

/-- A stream and its goroutines. -/
structure Sys where
  /-- The state and the signal channels. -/
  core : Core
  /-- The registered clients. -/
  clients : List ℕ
  /-- The registered clients added since the stream last became `Disconnected`, while it is;
  no step reads this. -/
  waiting : List ℕ
  loopStarted : Bool
  /-- The connect loop, if its goroutine is there. -/
  loop : Option LoopPc
  /-- The reader, from its start until the loop has taken its result. -/
  reader : Option ReaderPc
  /-- The calls of `Stop` and `Destroy` that have not returned. -/
  closers : List Closer
  /-- `s.ctx` is done. -/
  cancelled : Bool
  /-- A method of a nil remote was called. -/
  crashed : Bool
  /-- The upstream side. -/
  net : Net
  deriving DecidableEq, Repr

/-- `NewStream`. -/
def newSys : Sys :=
  ⟨newCore, [], [], false, none, none, [], false, false, ⟨none, [], [], [], [], 0, [], false, 0⟩⟩

/-- The new state and channels; nobody waits in another state than `Disconnected`. -/
def Sys.setCore (s : Sys) (c : Core) : Sys :=
  { s with core := c, waiting := if c.state = .disconnected then s.waiting else [] }

/-- The loop goes on to `pc`. -/
def Sys.goto (s : Sys) (pc : LoopPc) : Sys := { s with loop := some pc }

/-- `Stream.startConnectLoop`. -/
def Sys.startConnectLoop (s : Sys) : Sys :=
  if s.loopStarted then s else { s with loopStarted := true, loop := some .top }

/-- `Stream.Start`. -/
def Sys.start (s : Sys) : Sys :=
  if s.core.state ≠ .disconnected then s
  else (s.setCore (s.core.unsafeSetState .connecting)).startConnectLoop

/-- `Stream.AddClient`. -/
def Sys.addClient (s : Sys) (client : ℕ) : Sys :=
  if client ∈ s.clients then s
  else if s.core.state = .disconnected then
    { s with clients := client :: s.clients, waiting := client :: s.waiting }.startConnectLoop
  else { s with clients := client :: s.clients }

/-- `Stream.RemoveClient`. -/
def Sys.removeClient (s : Sys) (client : ℕ) : Sys :=
  { s with clients := s.clients.filter (· != client), waiting := s.waiting.filter (· != client) }

/-- The first step of `Stream.Stop`. -/
def Sys.stop (s : Sys) : Sys :=
  match s.core.transition .stopping with
  | .error _ => s
  | .ok c => { s.setCore c with closers := s.closers ++ [⟨false, .take⟩] }

/-- The first step of `Stream.Destroy`. -/
def Sys.destroy (s : Sys) : Sys :=
  { s.setCore (s.core.attempt .destroyed) with closers := s.closers ++ [⟨true, .cancel⟩] }

/-- What the connect loop does next. -/
inductive LoopChoice where
  /-- The next step, where there is only one. -/
  | next
  /-- `NewRemote` returns, with the address resolved or nil. -/
  | made (resolved : Bool)
  /-- `remote.Dial()` returns. -/
  | dialed (ok : Bool)
  /-- `SendRequest` returns, within `doConnectSequence`. -/
  | sent (o : SendOutcome)
  /-- The SDP is there. -/
  | sdp
  /-- `PlayUpstream` has its answer and finds the session `id`. -/
  | found (id : ℕ)
  /-- `doConnectSequence` returns an error. -/
  | failed
  /-- `doConnectSequence` returns nil. -/
  | succeeded
  /-- The context is done. -/
  | ctxDone
  deriving DecidableEq, Repr

/-- After the reader's end, with the state `st` read: `Disconnected` and return, or
`Reconnecting` and the backoff. -/
def Sys.afterRead (s : Sys) (st : StreamState) (err : Bool) : Sys :=
  if st.isStop then (s.setCore (s.core.attempt .disconnected)).goto .returning
  else if err then (s.setCore (s.core.attempt .reconnecting)).goto .sleeping
  else (s.setCore (s.core.attempt .disconnected)).goto .returning

/-- The state read was `st`: return, or enter `Connecting` and go on. -/
def Sys.enterConnecting (s : Sys) (st : StreamState) : Sys :=
  if st.isStop then s.goto .returning
  else match s.core.transition .connecting with
    | .error _ => s.goto .returning
    | .ok c => (s.setCore c).goto .newRemote

/-- After the handshake: enter `Playing`, or return once the reader has ended. -/
def Sys.enterPlaying (s : Sys) : Sys :=
  match s.core.transition .playing with
  | .error _ => s.goto .draining
  | .ok c => (s.setCore c).goto .playing

/-- `s.remote` replaced by the loop. -/
def Sys.replaceRemote (s : Sys) (resolved : Bool) : Sys :=
  let n := s.net.newRemote resolved
  match n.remote with
  | none => { s with net := n }.goto .giveUp
  | some r => { s with net := n }.goto (.dial r)

/-- `remote.Dial()`, and the start of the reader if it succeeds. -/
def Sys.dialRemote (s : Sys) (r : ℕ) (ok : Bool) : Sys :=
  let d := s.net.dialLocked r ok
  if d.2 then { s with net := d.1, reader := some .start }.goto .connect
  else { s with net := d.1 }.goto .countClients

/-- A step of the connect loop at `pc`. -/
def Sys.stepLoop (s : Sys) : LoopPc → LoopChoice → Option Sys
  | .top, .next => some (s.goto (if s.cancelled then .returning else .readState))
  | .readState, .next => some (s.goto (.check s.core.state))
  | .check st, .next => some (s.enterConnecting st)
  | .newRemote, .made resolved => some (s.replaceRemote resolved)
  | .dial r, .dialed ok => some (s.dialRemote r ok)
  | .connect, .next =>
    match s.net.remote with
    | none => some { s with crashed := true }
    | some r => some (s.goto (.handshake r))
  | .handshake r, .sent o =>
    let d := s.net.sendRequest r o
    some ({ s with net := d.1 }.goto (if d.2 then .handshake r else .failing))
  | .handshake _, .sdp => some { s with core := s.core.sdpReady }
  | .handshake r, .found id =>
    match s.net.sessions.lookup id with
    | none => none
    | some obj => some (s.goto (.starting r obj))
  | .starting r obj, .next => some ({ s with net := s.net.startUpstream obj }.goto (.handshake r))
  | .handshake _, .failed => some (s.goto .failing)
  | .handshake _, .succeeded => some (s.goto .play)
  | .play, .next => some s.enterPlaying
  | .playing, .next =>
    match s.reader with
    | some (.done err) => some ({ s with reader := none }.goto (.readDone err))
    | _ => none
  | .readDone err, .next => some (s.goto (.ended s.core.state err))
  | .ended st err, .next => some (s.afterRead st err)
  | .draining, .next =>
    match s.reader with
    | some (.done _) => some ({ s with reader := none }.goto .returning)
    | _ => none
  | .failing, .next =>
    match s.reader with
    | some (.done _) => some ({ s with reader := none }.goto .countClients)
    | _ => none
  | .countClients, .next => some (s.goto (if s.clients.isEmpty then .giveUp else .retry))
  | .retry, .next => some ((s.setCore (s.core.attempt .reconnecting)).goto .sleeping)
  | .giveUp, .next => some ((s.setCore (s.core.attempt .disconnected)).goto .returning)
  | .sleeping, .next => some (s.goto .top)
  | .sleeping, .ctxDone => if s.cancelled then some (s.goto .returning) else none
  | .returning, .next => some { s with loopStarted := false, loop := none }
  | _, _ => none

/-- What the reader does next. -/
inductive ReaderChoice where
  /-- The next step, where there is only one. -/
  | next
  /-- A message is complete; it parses as a response or not. -/
  | message (parses : Bool)
  /-- The connection fails. -/
  | fails
  /-- The context is done. -/
  | ctxDone
  /-- The response is handled without effect on the connection and the sessions. -/
  | handled
  /-- `handleSetup` for session `id`. -/
  | setup (id : ℕ)
  /-- `handlePlay` for session `id`, up to its `StartUpstream`. -/
  | play (id : ℕ)
  /-- A 401: the request is sent again. -/
  | resent (o : SendOutcome)
  deriving DecidableEq, Repr

/-- The loop has called `readCancel()` and waits for the reader. -/
def Sys.readCancelled (s : Sys) : Bool := s.loop = some .draining || s.loop = some .failing

/-- A step of the reader at `pc`. -/
def Sys.stepReader (s : Sys) : ReaderPc → ReaderChoice → Option Sys
  | .start, .next =>
    match s.net.remote with
    | none => some { s with reader := some (.done true) }
    | some r => some { s with reader := some (.conn r) }
  | .conn r, .next =>
    some { s with reader := some (if s.net.conns[r]? = some true then .reading else .done true) }
  | .reading, .message parses =>
    if parses then
      match s.net.remote with
      | none => some { s with crashed := true }
      | some r => some { s with reader := some (.handling r) }
    else some s
  | .reading, .fails => some { s with reader := some (.done true) }
  | .reading, .ctxDone =>
    if s.cancelled || s.readCancelled then some { s with reader := some (.done false) } else none
  | .handling _, .handled => some { s with reader := some .reading }
  | .handling _, .setup id => some { s with reader := some .reading, net := (s.net.lookupSession id).1 }
  | .handling _, .play id =>
    some { s with reader := some (.starting (s.net.lookupSession id).2),
                  net := (s.net.lookupSession id).1 }
  | .starting obj, .next => some { s with reader := some .reading, net := s.net.startUpstream obj }
  | .handling r, .resent o => some { s with reader := some .reading, net := (s.net.sendRequest r o).1 }
  | _, _ => none

/-- Closing call `i` goes on to `pc`. -/
def Sys.closerAt (s : Sys) (i : ℕ) (k : Closer) (pc : ClosePc) : Sys :=
  { s with closers := s.closers.set i { k with pc := pc } }

/-- The remote and the sessions taken out of the stream; `Destroy` also takes the clients. -/
def Sys.takeSessions (s : Sys) (destroys : Bool) : Sys :=
  if destroys then
    { s with clients := [], waiting := [], net := { s.net with remote := none, sessions := [] } }
  else { s with net := { s.net with sessions := [] } }

/-- A step of closing call `i`. -/
def Sys.stepCloser (s : Sys) (i : ℕ) (o : SendOutcome) : Option Sys :=
  match s.closers[i]? with
  | none => none
  | some k =>
    match k.pc with
    | .cancel => some ({ s with cancelled := true }.closerAt i k .take)
    | .take =>
      let objs := s.net.sessions.map Prod.snd
      match s.net.remote with
      | some r => some ((s.takeSessions k.destroys).closerAt i k (.teardown r objs.length objs))
      | none => some ((s.takeSessions k.destroys).closerAt i k (.stopSessions objs))
    | .teardown r 0 objs => some (s.closerAt i k (.disconnect r objs))
    | .teardown r (left + 1) objs =>
      some ({ s with net := (s.net.sendRequest r o).1 }.closerAt i k (.teardown r left objs))
    | .disconnect r objs =>
      some ({ s with net := s.net.setConn r false }.closerAt i k (.stopSessions objs))
    | .stopSessions [] => some (s.closerAt i k .finish)
    | .stopSessions (obj :: objs) =>
      some ({ s with net := s.net.sessionStop obj }.closerAt i k (.stopSessions objs))
    | .finish =>
      let s := { s with closers := s.closers.eraseIdx i }
      some (if k.destroys then s else s.setCore (s.core.attempt .disconnected))

/-- The actions: calls from outside, and steps of the goroutines. -/
inductive Act where
  /-- A call of `Start`. -/
  | start
  /-- A call of `AddClient`. -/
  | addClient (client : ℕ)
  /-- A call of `RemoveClient`. -/
  | removeClient (client : ℕ)
  /-- `Stop` is called. -/
  | stop
  /-- `Destroy` is called. -/
  | destroy
  /-- The server's context is cancelled, and the stream's with it. -/
  | shutdown
  /-- The connect loop's step. -/
  | loop (o : LoopChoice)
  /-- The reader's step. -/
  | reader (o : ReaderChoice)
  /-- A step of the `i`-th closing call. -/
  | closer (i : ℕ) (o : SendOutcome)
  /-- A step of the `i`-th keep-alive. -/
  | keepAlive (i : ℕ) (o : KeepAliveChoice)
  deriving DecidableEq, Repr

/-- One step of a stream and its goroutines. -/
def Sys.step (s : Sys) (a : Act) : Option Sys :=
  if s.crashed then none
  else match a with
    | .start => some s.start
    | .addClient client => some (s.addClient client)
    | .removeClient client => some (s.removeClient client)
    | .stop => some s.stop
    | .destroy => some s.destroy
    | .shutdown => some { s with cancelled := true, net := { s.net with serverDone := true } }
    | .loop o => s.loop.bind fun pc => s.stepLoop pc o
    | .reader o => s.reader.bind fun pc => s.stepReader pc o
    | .closer i o => s.stepCloser i o
    | .keepAlive i o => (s.net.stepKeepAlive s.cancelled i o).map fun n => { s with net := n }

/-! ### What a step of the other goroutines does to the stream -/

/-- The reader changes its own place and the upstream side, or crashes. It ends without an
error only when a context is done. -/
theorem stepReader_spec {s s' : Sys} {pc : ReaderPc} {o : ReaderChoice} (hr : s.reader = some pc)
    (h : s.stepReader pc o = some s') :
    ∃ pc' n b, s' = { s with reader := some pc', net := n, crashed := b } ∧
      (pc' = .done false → s.cancelled = true ∨ s.readCancelled = true) := by
  unfold Sys.stepReader at h
  split at h
  case h_5 =>
    -- the context is done
    split_ifs at h with hc
    cases h
    exact ⟨.done false, s.net, s.crashed, rfl, fun _ => by simpa using hc⟩
  case h_3 =>
    split_ifs at h with hp
    · split at h <;> cases h
      · exact ⟨.reading, s.net, true, by rw [← hr], by simp⟩
      · exact ⟨_, s.net, s.crashed, rfl, by simp⟩
    · cases h
      exact ⟨.reading, s.net, s.crashed, by rw [← hr], by simp⟩
  case h_1 => split at h <;> cases h <;> exact ⟨_, s.net, s.crashed, rfl, by simp⟩
  case h_2 =>
    cases h
    exact ⟨_, s.net, s.crashed, rfl, by split_ifs <;> simp⟩
  all_goals cases h
  all_goals exact ⟨_, _, s.crashed, rfl, by simp⟩

/-- A call of `Stop` that is past its first step. -/
def Closer.IsStop (k : Closer) : Prop := k.destroys = false ∧ k.pc ≠ .cancel

/-- A call of `Stop` changes its own place and the upstream side, and at its end the state. -/
theorem stepCloser_spec {s s' : Sys} {i : ℕ} {o : SendOutcome} (hk : ∀ k ∈ s.closers, k.IsStop)
    (h : s.stepCloser i o = some s') :
    ∃ n cs, (∀ k ∈ cs, k.IsStop) ∧ (s' = { s with closers := cs, net := n } ∨
      s' = { s.setCore (s.core.attempt .disconnected) with closers := cs, net := n }) := by
  unfold Sys.stepCloser at h
  split at h
  · cases h
  · rename_i k hget
    obtain ⟨hd, hc⟩ := hk k (List.mem_of_getElem? hget)
    have hset : ∀ pc, pc ≠ .cancel → ∀ k' ∈ s.closers.set i { k with pc := pc }, k'.IsStop := by
      intro pc hpc k' hk'
      rcases List.mem_or_eq_of_mem_set hk' with hk' | rfl
      · exact hk k' hk'
      · exact ⟨hd, hpc⟩
    split at h
    case h_1 => exact absurd ‹k.pc = _› hc
    case h_2 =>
      simp only [hd, Sys.takeSessions] at h
      split at h <;> cases h <;> exact ⟨_, _, hset _ (by simp), .inl rfl⟩
    case h_8 =>
      simp only [hd] at h
      cases h
      exact ⟨s.net, _, fun k' hk' => hk k' (List.mem_of_mem_eraseIdx hk'), .inr rfl⟩
    all_goals cases h
    all_goals exact ⟨_, _, hset _ (by simp), .inl rfl⟩

/-- A keep-alive changes the upstream side only. -/
theorem step_keepAlive {s s' : Sys} {i : ℕ} {o : KeepAliveChoice}
    (h : s.step (.keepAlive i o) = some s') : ∃ n, s' = { s with net := n } := by
  unfold Sys.step at h
  split_ifs at h
  obtain ⟨n, -, rfl⟩ := Option.map_eq_some_iff.mp h
  exact ⟨n, rfl⟩

end RtspProxy.Lifecycle
