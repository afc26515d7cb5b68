import RtspProxy.Fanout.Pool
import RtspProxy.Fanout.Shift
import RtspProxy.Downstream.Client
import RtspProxy.Downstream.StreamManager

/-!
# The handlers of the clients

Each client has a goroutine in `incomingRequestHandler`, which reads its requests: SETUP registers
the client with a stream, TEARDOWN takes it off, and when the handler returns it takes the client
off its current stream and destroys it. `Server.Shutdown` cancels the context, waits for all
handlers, and then destroys the streams.

## The model

`Server` drives a `Fan` by the handlers: a handler's step is a step of the `Fan`, or is the
handler's own.

* A request is what a `Read` returned, so it comes only while the connection is not closed. It is
  resolved to a target by `Client.resolve`, and the target to a stream by `StreamManager.getStream`;
  this stream becomes the client's `currentStream`.
* A transport that `handleSetup` finds was made from an answer of the camera. So SETUP comes to
  `AddClient` only for a stream with a host: the dialer refuses an empty address.
* `Stream.Destroy` runs only after all handlers have returned, and no client is accepted then.

## What is proved

* `anyStep_of_step` — a step of the server is a step of the `Fan`, or leaves it alone.
-/

namespace RtspProxy.Fanout

open Theory Wire

/-! ### Handlers -/

/-- Where `incomingRequestHandler` is. -/
inductive HandlerPc where
  /-- The client has not connected. -/
  | absent
  /-- In its read loop. -/
  | reading
  /-- In `handleSetup`, before `AddClient`. -/
  | setup (r : ℕ)
  /-- In `handleSetup`, after `AddClient`, with the channels to map. -/
  | mapping (r : ℕ) (channels : List (ℤ × ℤ))
  /-- In `handleTeardown`, before `RemoveClient`. -/
  | teardown (r : ℕ)
  /-- In `RemoveClient` of `handleTeardown`, waiting for the session. -/
  | tearing (r : ℕ)
  /-- In the deferred function, before `RemoveClient`. -/
  | leaving
  /-- In `RemoveClient` of the deferred function, waiting for the session. -/
  | removing (r : ℕ)
  /-- Before `Destroy`. -/
  | destroying
  /-- In `Destroy`, after it has set `destroyed`. -/
  | waiting
  | returned
  deriving DecidableEq, Repr

/-- The handler of a client. -/
structure Handler where
  /-- Where it is. -/
  pc : HandlerPc
  /-- The client's target. -/
  client : Downstream.Client
  /-- `currentStream`. -/
  current : Option ℕ
  deriving DecidableEq, Repr

/-- The handler of a client that has not connected. -/
def noHandler : Handler := ⟨.absent, Downstream.newClient [] [], none⟩

/-- The arguments of a client's `LookupStream`. -/
def target (client : Downstream.Client) : Downstream.Target :=
  ⟨client.host, client.username, client.password, client.basePath⟩

/-- The method that a request calls, as far as it is about sessions. -/
def methodPc (request : Request) (r : ℕ) : HandlerPc :=
  if request.method = ascii "SETUP" then .setup r
  else if request.method = ascii "TEARDOWN" then .teardown r
  else .reading

/-! ### The server -/

/-- A server with its clients' handlers. -/
structure Server where
  /-- The streams, sessions and clients. -/
  fan : Fan
  /-- `streamManager`. -/
  manager : Downstream.StreamManager
  handlers : ℕ → Handler
  /-- The number of clients accepted. -/
  accepted : ℕ
  /-- `Shutdown` has waited for the handlers. -/
  shutdown : Bool
  /-- The sessions that `Stream.Destroy` has yet to stop. -/
  stopping : List ℕ
  /-- The session it waits for. -/
  awaiting : Option ℕ

/-- A server before its first client. -/
def newServer : Server := ⟨newFan, Downstream.newStreamManager, fun _ => noHandler, 0, false, [], none⟩

/-- A handler goes on. -/
def Server.goto (s : Server) (c : ℕ) (fan : Fan) (pc : HandlerPc) : Server :=
  { s with fan := fan, handlers := Function.update s.handlers c { s.handlers c with pc := pc } }

/-- A stream of the manager that has a host. -/
def Server.dialable (s : Server) (r : ℕ) : Bool :=
  s.manager.entries.entries.any fun e => e.2.1 = r && e.2.2.host ≠ []

/-- A request arrives. -/
def Server.request (s : Server) (c : ℕ) (request : Request) : Option Server :=
  -- `Read` fails on a closed connection
  if (s.handlers c).pc ≠ .reading ∨ (s.fan.clients c).destroyed then none
  else match (s.handlers c).client.resolve request with
    -- a request about the proxy itself is answered, and the handler returns
    | none => some (s.goto c s.fan .leaving)
    | some (client, request) =>
      let stream := s.manager.getStream (target client)
      some { s with
        manager := stream.2
        handlers := Function.update s.handlers c ⟨methodPc request stream.1.1, client, some stream.1.1⟩ }

/-- What a handler meets. -/
inductive HandlerInput where
  /-- The next step, where there is only one. -/
  | next
  /-- SETUP is refused. -/
  | refuse
  /-- SETUP is accepted: the channels that it maps. -/
  | accept (channels : List (ℤ × ℤ))
  /-- The handler returns: `Read` fails, a request cannot be parsed, or the context is done. -/
  | leave
  deriving DecidableEq, Repr

/-- A step of a handler after a request was read. -/
def Server.stepHandler (cfg : Config) (s : Server) (c : ℕ) (o : HandlerInput) : Option Server :=
  match (s.handlers c).pc, o with
  | .reading, .leave => some (s.goto c s.fan .leaving)
  | .setup _, .refuse => some (s.goto c s.fan .reading)
  | .setup r, .accept channels =>
    if s.dialable r ∧ channels.length ≤ 2 then
      (s.fan.step cfg (.addClient r c)).map fun fan => s.goto c fan (.mapping r channels)
    else none
  | .mapping _ [], .next => some (s.goto c s.fan .reading)
  | .mapping r ((upstreamChan, clientChan) :: channels), .next =>
    (s.fan.step cfg (.mapChannel r c upstreamChan clientChan)).map fun fan => s.goto c fan (.mapping r channels)
  | .teardown r, .next =>
    (s.fan.step cfg (.removeClient r c)).map fun fan =>
      s.goto c fan (if (fan.streams r).removing = some c then .tearing r else .reading)
  | .tearing r, .next =>
    if (s.fan.streams r).removing = some c then
      (s.fan.step cfg (.stopped r)).map fun fan => s.goto c fan .reading
    else none
  | .leaving, .next =>
    match (s.handlers c).current with
    | none => some (s.goto c s.fan .destroying)
    | some r =>
      (s.fan.step cfg (.removeClient r c)).map fun fan =>
        s.goto c fan (if (fan.streams r).removing = some c then .removing r else .destroying)
  | .removing r, .next =>
    if (s.fan.streams r).removing = some c then
      (s.fan.step cfg (.stopped r)).map fun fan => s.goto c fan .destroying
    else none
  | .destroying, .next =>
    (s.fan.step cfg (.destroy c)).map fun fan =>
      s.goto c fan (if (s.fan.clients c).destroyed then .returned else .waiting)
  | .waiting, .next => if (s.fan.clients c).pc = .exited then some (s.goto c s.fan .returned) else none
  | _, _ => none

/-- The actions of a server. -/
inductive ServerAct where
  /-- A step of a goroutine other than the handlers. -/
  | other (a : Act)
  /-- A client is accepted. -/
  | accept
  /-- A client's handler reads a request. -/
  | request (c : ℕ) (request : Request)
  /-- A client's handler goes on. -/
  | handler (c : ℕ) (o : HandlerInput)
  /-- `Shutdown` has waited for the handlers. -/
  | shutdown
  /-- `Stream.Destroy` takes the clients of a stream. -/
  | detach (r : ℕ)
  /-- It stops the next session. -/
  | stop
  /-- The session has ended. -/
  | stopped

/-- One step of the server. -/
def Server.step (cfg : Config) (s : Server) : ServerAct → Option Server
  | .other (.loop r .dialed) =>
    if s.dialable r then (s.fan.step cfg (.loop r .dialed)).map fun fan => { s with fan := fan } else none
  | .other a => if a.isOther then (s.fan.step cfg a).map fun fan => { s with fan := fan } else none
  | .accept =>
    if s.fan.panicked ∨ s.shutdown then none
    else some { s with
      handlers := Function.update s.handlers s.accepted ⟨.reading, Downstream.newClient [] [], none⟩
      accepted := s.accepted + 1 }
  | .request c request => if s.fan.panicked then none else s.request c request
  | .handler c o => if s.fan.panicked then none else s.stepHandler cfg c o
  | .shutdown =>
    if s.fan.panicked = false ∧ s.fan.done ∧ ∀ c < s.accepted, (s.handlers c).pc = .returned then
      some { s with shutdown := true }
    else none
  | .detach r =>
    if s.shutdown ∧ s.stopping = [] ∧ s.awaiting = none then
      (s.fan.anyStep cfg (.detach r)).map fun fan =>
        { s with fan := fan, stopping := (s.fan.streams r).registered.entries.map fun e => e.2 }
    else none
  | .stop =>
    match s.stopping, s.awaiting with
    | k :: rest, none =>
      (s.fan.anyStep cfg (.stop k)).map fun fan =>
        { s with fan := fan, stopping := rest, awaiting := if (s.fan.sessions k).active then some k else none }
    | _, _ => none
  | .stopped =>
    match s.awaiting with
    | some k =>
      if s.fan.panicked = false ∧ (s.fan.sessions k).pc = .exited then some { s with awaiting := none } else none
    | none => none

/-! ### A step of the server is a step of the `Fan` -/

variable {cfg : Config}

theorem fan_of_request {s t : Server} {c : ℕ} {request : Request} (h : s.request c request = some t) :
    t.fan = s.fan := by
  obtain ⟨-, h⟩ := Option.ite_none_left_eq_some.mp h
  split at h <;> cases h <;> rfl

theorem step_of_stepHandler {s t : Server} {c : ℕ} {o : HandlerInput} (h : s.stepHandler cfg c o = some t) :
    t.fan = s.fan ∨ ∃ a, s.fan.step cfg a = some t.fan := by
  have hgoto {a : Act} {pc : Fan → HandlerPc}
      (h : ((s.fan.step cfg a).map fun fan => s.goto c fan (pc fan)) = some t) : ∃ a, s.fan.step cfg a = some t.fan := by
    obtain ⟨fan, hfan, rfl⟩ := Option.map_eq_some_iff.mp h
    exact ⟨a, hfan⟩
  unfold Server.stepHandler at h
  split at h
  case h_1 | h_2 | h_4 => cases h; exact .inl rfl
  case h_3 =>
    obtain ⟨-, h⟩ := Option.ite_none_right_eq_some.mp h
    exact .inr (hgoto h)
  case h_5 | h_6 | h_10 => exact .inr (hgoto h)
  case h_7 | h_9 =>
    obtain ⟨-, h⟩ := Option.ite_none_right_eq_some.mp h
    exact .inr (hgoto h)
  case h_8 =>
    split at h
    · cases h; exact .inl rfl
    · exact .inr (hgoto h)
  case h_11 =>
    obtain ⟨-, ⟨⟩⟩ := Option.ite_none_right_eq_some.mp h
    exact .inl rfl
  case h_12 => cases h

/-- **A step of the server is a step of the `Fan`, or leaves it alone.** -/
theorem anyStep_of_step {s t : Server} {a : ServerAct} (h : s.step cfg a = some t) :
    t.fan = s.fan ∨ ∃ b, s.fan.anyStep cfg b = some t.fan := by
  unfold Server.step at h
  split at h
  case h_1 r => -- a camera is dialed
    obtain ⟨-, h⟩ := Option.ite_none_right_eq_some.mp h
    obtain ⟨fan, hfan, rfl⟩ := Option.map_eq_some_iff.mp h
    exact .inr ⟨.act (.loop r .dialed), hfan⟩
  case h_2 a _ => -- other
    obtain ⟨-, h⟩ := Option.ite_none_right_eq_some.mp h
    obtain ⟨fan, hfan, rfl⟩ := Option.map_eq_some_iff.mp h
    exact .inr ⟨.act a, hfan⟩
  case h_3 => -- accept
    obtain ⟨-, ⟨⟩⟩ := Option.ite_none_left_eq_some.mp h
    exact .inl rfl
  case h_4 => -- request
    obtain ⟨-, h⟩ := Option.ite_none_left_eq_some.mp h
    exact .inl (fan_of_request h)
  case h_5 => -- handler
    obtain ⟨-, h⟩ := Option.ite_none_left_eq_some.mp h
    exact (step_of_stepHandler h).imp_right fun ⟨a, ha⟩ => ⟨.act a, ha⟩
  case h_6 => -- shutdown
    obtain ⟨-, ⟨⟩⟩ := Option.ite_none_right_eq_some.mp h
    exact .inl rfl
  case h_7 => -- detach
    obtain ⟨-, h⟩ := Option.ite_none_right_eq_some.mp h
    obtain ⟨fan, hfan, rfl⟩ := Option.map_eq_some_iff.mp h
    exact .inr ⟨_, hfan⟩
  case h_8 => -- stop
    split at h
    · obtain ⟨fan, hfan, rfl⟩ := Option.map_eq_some_iff.mp h
      exact .inr ⟨_, hfan⟩
    · cases h
  case h_9 => -- stopped
    split at h
    · obtain ⟨-, ⟨⟩⟩ := Option.ite_none_right_eq_some.mp h
      exact .inl rfl
    · cases h

end RtspProxy.Fanout
