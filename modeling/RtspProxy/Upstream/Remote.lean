import RtspProxy.Upstream.Digest
import RtspProxy.Theory.Run

/-!
# Requests to the camera

A `Remote` is used by several goroutines: each caller of `SendRequestSync` puts its request
at the end of the queue, writes it and waits; the reader hands each response to
`HandleUpstreamResponse`, which takes the request at the front of the queue to be the one
that is answered.

## The model

`Remote` has the fields of the source's `Remote` and, for each call of `SendRequestSync` and
for the reader, the point it has reached. A step is one critical section of `connMutex` or
one operation outside it that others can see: a channel operation, or a change of
`request.Attempts`. Each call has a request of its own, so a call and its request have one
number. A queue element has a number of its own too: `HandleUpstreamResponse` removes the
element it has seen, not the request.

Three fields only record what happens: `wire` has every request written, `answered` counts
the responses received on the reader's connection, and `last401` is the last 401 response
that was acted on.
-/

namespace RtspProxy.Upstream

open Theory Wire

/-! ### Requests, channels and calls -/

/-- The parts of a `Request` that sending it uses. -/
structure Request where
  method : Bytes
  /-- `GetURL().String()`. -/
  url : Bytes
  headers : Headers
  attempts : ℕ
  /-- The one channel of `Subscriptions`. -/
  sub : Option ℕ
  deriving DecidableEq, Repr

/-- The requests that the proxy sends, with the values of their headers. -/
inductive RequestKind where
  /-- `GetOptions`. -/
  | options
  /-- `GetSDP`. -/
  | describe
  /-- `SetupUpstream`. -/
  | setup (transport : Bytes)
  /-- `PlayUpstream`. -/
  | play (session : Bytes)
  /-- The keep-alive of a session. -/
  | getParameter (session : Bytes)
  /-- `SendTeardown`. -/
  | teardown (session : Bytes)
  deriving DecidableEq, Repr

/-- `NewRequest`, and the headers that its callers set. -/
def newRequest (kind : RequestKind) (url : Bytes) : Request :=
  match kind with
  | .options => ⟨ascii "OPTIONS", url, [], 0, none⟩
  | .describe => ⟨ascii "DESCRIBE", url, [], 0, none⟩
  | .setup transport => ⟨ascii "SETUP", url, [(ascii "Transport", transport)], 0, none⟩
  | .play session =>
    ⟨ascii "PLAY", url, [(ascii "Session", session), (ascii "Range", ascii "npt=0.000-")], 0, none⟩
  | .getParameter session => ⟨ascii "GET_PARAMETER", url, [(ascii "Session", session)], 0, none⟩
  | .teardown session => ⟨ascii "TEARDOWN", url, [(ascii "Session", session)], 0, none⟩

/-- What `HandleUpstreamResponse` reports, or `GetResponse` returns. -/
inductive Status where
  | ok
  | unauthorized
  /-- `fmt.Sprintf("error %d: %s", response.Code, response.Status)`. -/
  | error (code : ℤ) (text : Bytes)
  | timeout
  deriving DecidableEq, Repr

/-- What `SendRequestSync` returns. -/
inductive SyncResult where
  /-- `nil`. -/
  | ok
  /-- `errors.New(result)`. -/
  | failed (status : Status)
  /-- The error of `SendRequest`. -/
  | notSent
  /-- `errors.New("stream destroyed, request aborted")`. -/
  | aborted
  deriving DecidableEq, Repr

/-- The channel of an `Ipc`, with room for one value. -/
structure Chan where
  /-- The value in it. -/
  val : Option Status
  closed : Bool
  deriving DecidableEq, Repr

/-- Where a call of `SendRequestSync` is. -/
inductive CallPc where
  /-- About to make its channel. -/
  | subscribe
  /-- About to queue the request. -/
  | enqueue
  /-- About to call `SendRequest`. -/
  | send
  /-- `SendRequest` failed; about to take the request out of the queue. -/
  | unqueue
  /-- In `GetResponse`. -/
  | wait
  /-- It has timed out; about to take the request out of the queue. -/
  | expire
  /-- About to set `Attempts` to zero and try again. -/
  | reset
  | returned (r : SyncResult)
  deriving DecidableEq, Repr

/-- A call of `SendRequestSync`. -/
structure Call where
  request : Request
  /-- The round it is in. -/
  attempt : ℕ
  /-- Where it is. -/
  pc : CallPc
  deriving DecidableEq, Repr

/-- What the reader has still to do with a response. -/
inductive Stage where
  /-- It has found the request, and is about to look at the code. -/
  | judge
  /-- About to call `handleAuthenticationFailure` with this value. -/
  | auth (paramsStr : Bytes)
  /-- About to count the attempt. -/
  | bump
  /-- About to send the request again. -/
  | resend
  /-- About to remove the queue element and report this status. -/
  | finalize (status : Status)
  /-- It has removed the element and is about to report this status. -/
  | notify (status : Status)
  deriving DecidableEq, Repr

/-- Where the reader is. -/
inductive ReaderPc where
  /-- Waiting for a response. -/
  | idle
  /-- In `HandleUpstreamResponse` of the text `recv`, a response taken to answer the request
  of a call, which stood in the queue as element `el`. -/
  | handling (recv : Bytes) (response : Response) (el call : ℕ) (stage : Stage)
  deriving DecidableEq, Repr

/-- A request written to a connection. -/
structure Written where
  /-- The call it belongs to. -/
  call : ℕ
  /-- The number of the connection. -/
  conn : ℕ
  /-- Its `CSeq`. -/
  cseq : ℕ
  headers : Headers
  /-- `conn.Write` succeeded. -/
  sent : Bool
  /-- The last 401 response acted on before. -/
  challenge : Option Bytes
  deriving DecidableEq, Repr

/-- A remote and the goroutines that use it. -/
structure Remote where
  /-- `RemoteConn` is non-nil. -/
  connected : Bool
  /-- The number of the last connection made. -/
  conn : ℕ
  currentCSeq : ℕ
  /-- `requests`: elements, and the calls whose requests they hold. -/
  requests : List (ℕ × ℕ)
  /-- The next element. -/
  nextEl : ℕ
  digest : Digest
  /-- The calls of `SendRequestSync`. -/
  calls : List Call
  /-- The channels made. -/
  chans : List Chan
  reader : ReaderPc
  /-- The connection that the reader reads, once it has started. -/
  readerConn : Option ℕ
  /-- `stream.ctx` is done. -/
  cancelled : Bool
  /-- `Server.ctx` is done. -/
  serverDone : Bool
  /-- The requests written. -/
  wire : List Written
  /-- The number of responses received on the reader's connection. -/
  answered : ℕ
  /-- The last 401 response acted on. -/
  last401 : Option Bytes
  deriving DecidableEq, Repr

/-- `NewRemote`, with the stream's user name and password. -/
def newRemote (username password : Bytes) : Remote :=
  { connected := false, conn := 0, currentCSeq := 0, requests := [], nextEl := 0
    digest := if username = [] then ⟨[], [], [], [], [], [], [], 0⟩
      else ⟨[], [], username, password, [], [], [], 0⟩
    calls := [], chans := [], reader := .idle, readerConn := none, cancelled := false
    serverDone := false, wire := [], answered := 0, last401 := none }

/-! ### Connecting and sending -/

/-- `Disconnect` and `disconnectLocked`. -/
def Remote.disconnect (s : Remote) : Remote :=
  if s.connected then
    { s with connected := false, digest := s.digest.clearNonce, requests := [], currentCSeq := 0 }
  else s

/-- A new connection. -/
def Remote.dialed (s : Remote) : Remote := { s with connected := true, conn := s.conn + 1, currentCSeq := 0 }

/-- `Remote.dialLocked`, and whether it succeeded. -/
def Remote.dialLocked (s : Remote) (ok : Bool) : Remote × Bool :=
  if s.serverDone || !ok then (s, false) else (s.dialed, true)

/-- What the network and the random source do in a call of `SendRequest`. -/
structure SendInput where
  /-- A dial succeeds. -/
  dialOk : Bool
  /-- The write succeeds. -/
  writeOk : Bool
  /-- What `randomCnonce` returns. -/
  cnonce : Bytes
  deriving DecidableEq, Repr

/-- Nothing fails. -/
def fine : SendInput := ⟨true, true, ascii "c0ffee"⟩

/-- Change the request of a call. -/
def Remote.setRequest (s : Remote) (i : ℕ) (f : Request → Request) : Remote :=
  { s with calls := s.calls.modify i fun c => { c with request := f c.request } }

/-- The headers of a request that is about to be written. -/
def Request.prepare (r : Request) (cseq : ℕ) (auth : Option Bytes) : Headers :=
  let headers := r.headers.set (ascii "CSeq") (itoa cseq)
  match auth with
  | some value => headers.set (ascii "Authorization") value
  | none => headers

/-- The request of call `i` gets its headers and is written. -/
def Remote.wrote (s : Remote) (i : ℕ) (request : Request) (o : SendInput) : Remote :=
  let cseq := s.currentCSeq + 1
  let auth := s.digest.createAuthenticatorStr request.method request.url o.cnonce
  let headers := request.prepare cseq auth.2
  { s.setRequest i fun r => { r with headers := headers } with
    currentCSeq := cseq, digest := auth.1
    wire := s.wire ++ [⟨i, s.conn, cseq, headers, o.writeOk, s.last401⟩] }

/-- `SendRequest` of the request of call `i` on an open connection, and whether it succeeded. -/
def Remote.write (s : Remote) (i : ℕ) (request : Request) (o : SendInput) : Remote × Bool :=
  if o.writeOk then (s.wrote i request o, true) else ((s.wrote i request o).disconnect, false)

/-- `Remote.SendRequest` of the request of call `i`, and whether it succeeded. -/
def Remote.sendRequest (s : Remote) (i : ℕ) (request : Request) (o : SendInput) : Remote × Bool :=
  if s.connected then s.write i request o
  else if (s.dialLocked o.dialOk).2 then (s.dialLocked o.dialOk).1.write i request o
  else s.dialLocked o.dialOk

/-! ### Callers -/

/-- What a caller meets. -/
inductive CallInput where
  /-- The next step, where there is only one. -/
  | next
  /-- The network, for a step that sends. -/
  | sent (o : SendInput)
  /-- A value is in the channel. -/
  | value
  /-- The ten seconds are over. -/
  | timeout
  /-- The context is done. -/
  | done
  deriving DecidableEq, Repr

/-- Call `i` goes on to `pc`. -/
def Remote.callAt (s : Remote) (i : ℕ) (pc : CallPc) : Remote :=
  { s with calls := s.calls.modify i fun c => { c with pc := pc } }

/-- The first queue element with the request of call `i` removed. -/
def Remote.unqueue (s : Remote) (i : ℕ) : Remote :=
  { s with requests := s.requests.eraseP fun e => e.2 == i }

/-- `GetResponse` closes its channel. -/
def Remote.closeChan (s : Remote) (ch : Option ℕ) : Remote :=
  match ch with
  | some ch => { s with chans := s.chans.modify ch fun c => { c with closed := true } }
  | none => s

/-- The value in a channel. -/
def Remote.chanVal (s : Remote) (ch : Option ℕ) : Option Status :=
  ch.bind fun ch => (s.chans[ch]?).bind Chan.val

/-- What `SendRequestSync` does with the result of `GetResponse`, unless the context is done. -/
def CallPc.ofStatus : Status → CallPc
  | .timeout => .expire
  | .ok => .returned .ok
  | status => .returned (.failed status)

/-- The timeout branch of `SendRequestSync`: the request leaves the queue; in the first round
the nonce is cleared and there is another try. -/
def Remote.expire (s : Remote) (i : ℕ) (attempt : ℕ) : Remote :=
  if attempt = 0 then
    { s.unqueue i with digest := s.digest.clearNonce }.callAt i .reset
  else (s.unqueue i).callAt i (.returned (.failed .timeout))

/-- A new channel for the request of call `i`. -/
def Remote.subscribe (s : Remote) (i : ℕ) : Remote :=
  { s with
    chans := s.chans ++ [⟨none, false⟩]
    calls := s.calls.modify i fun c => { c with request := { c.request with sub := some s.chans.length } } }

/-- The request of call `i` at the end of the queue. -/
def Remote.enqueue (s : Remote) (i : ℕ) : Remote :=
  { s with requests := s.requests ++ [(s.nextEl, i)], nextEl := s.nextEl + 1 }

/-- Call `i` starts its second round. -/
def Remote.retry (s : Remote) (i : ℕ) : Remote :=
  { s with calls := s.calls.modify i fun c =>
      { request := { c.request with attempts := 0 }, attempt := 1, pc := .subscribe } }

/-- A step of call `i`. -/
def Remote.stepCall (s : Remote) (i : ℕ) (o : CallInput) : Option Remote :=
  match s.calls[i]? with
  | none => none
  | some c =>
    match c.pc, o with
    | .subscribe, .next => some ((s.subscribe i).callAt i .enqueue)
    | .enqueue, .next => some ((s.enqueue i).callAt i .send)
    | .send, .sent o =>
      let r := s.sendRequest i c.request o
      some (r.1.callAt i (if r.2 then .wait else .unqueue))
    | .unqueue, .next => some ((s.unqueue i).callAt i (.returned .notSent))
    | .wait, .value =>
      match s.chanVal c.request.sub with
      | none => none
      | some status =>
        some ((s.closeChan c.request.sub).callAt i
          (if s.cancelled then .returned .aborted else .ofStatus status))
    | .wait, .timeout =>
      some ((s.closeChan c.request.sub).callAt i (if s.cancelled then .returned .aborted else .expire))
    | .wait, .done =>
      if s.cancelled then some ((s.closeChan c.request.sub).callAt i (.returned .aborted)) else none
    | .expire, .next => some (s.expire i c.attempt)
    | .reset, .next => some (s.retry i)
    | _, _ => none

/-! ### The reader -/

/-- The reader goes on to `stage`. -/
def Remote.stageAt (s : Remote) (recv : Bytes) (response : Response) (el call : ℕ) (stage : Stage) : Remote :=
  { s with reader := .handling recv response el call stage }

/-- The first part of `HandleUpstreamResponse`: the response is taken to answer the request at
the front of the queue. -/
def Remote.receive (s : Remote) (recv : Bytes) : Remote :=
  match newResponseFromBuffer recv, s.requests with
  | .ok response, (el, call) :: _ => s.stageAt recv response el call .judge
  | _, _ => s

/-- The status of a response that is not followed by another try, with `request.Attempts` read. -/
def verdict (response : Response) (attempts : ℕ) : Status :=
  if response.code = 401 ∧ attempts = 0 then
    if headerGet response.headers (ascii "WWW-Authenticate") = [] then .ok else .unauthorized
  else if 400 ≤ response.code then .error response.code response.status
  else .ok

/-- A 401 response is recorded. -/
def Remote.noted (s : Remote) (recv : Bytes) (response : Response) : Remote :=
  if response.code = 401 then { s with last401 := some recv } else s

theorem noted_eq (s : Remote) (recv : Bytes) (response : Response) : s.noted recv response =
    { s with last401 := if response.code = 401 then some recv else s.last401 } := by
  unfold Remote.noted
  split_ifs <;> rfl

/-- A look at the code of a response that is not followed by another try. -/
def Remote.judge (s : Remote) (recv : Bytes) (response : Response) (el call attempts : ℕ) : Remote :=
  (s.noted recv response).stageAt recv response el call (.finalize (verdict response attempts))

/-- The status is reported: a non-blocking send, and none on a closed channel. -/
def Remote.report (s : Remote) (ch : Option ℕ) (status : Status) : Remote :=
  match ch with
  | none => s
  | some ch =>
    { s with chans := s.chans.modify ch fun c =>
        if c.closed || c.val.isSome then c else { c with val := some status } }

/-- A step of the reader within `HandleUpstreamResponse`. -/
def Remote.stepReader (s : Remote) (o : SendInput) : Option Remote :=
  match s.reader with
  | .idle => none
  | .handling recv response el call stage =>
    match s.calls[call]? with
    | none => none
    | some c =>
      match stage with
      | .judge =>
        -- a 401 with a challenge and credentials to answer it goes to `handleAuthenticationFailure`
        let paramsStr := headerGet response.headers (ascii "WWW-Authenticate")
        if response.code = 401 ∧ c.request.attempts = 0 ∧ paramsStr ≠ [] ∧ s.digest.hasCredentials then
          some (s.stageAt recv response el call (.auth paramsStr))
        else some (s.judge recv response el call c.request.attempts)
      | .auth paramsStr =>
        let r := s.digest.handleAuthenticationFailure paramsStr
        let s := { s with digest := r.1, last401 := some recv }
        some (s.stageAt recv response el call (if r.2 then .bump else .finalize .unauthorized))
      | .bump =>
        some ((s.setRequest call fun r => { r with attempts := r.attempts + 1 }).stageAt
          recv response el call .resend)
      | .resend => some { (s.sendRequest call c.request o).1 with reader := .idle }
      | .finalize status =>
        if s.requests.any (fun e => e.1 == el) then
          some ({ s with requests := s.requests.eraseP fun e => e.1 == el }.stageAt
            recv response el call (.notify status))
        else some { s with reader := .idle }
      | .notify status => some { s.report c.request.sub status with reader := .idle }

/-! ### The system -/

/-- The actions. -/
inductive Act where
  /-- `Remote.Dial` returns. -/
  | dial (ok : Bool)
  /-- `readLoop` starts to read the connection. -/
  | attach
  /-- `Remote.Disconnect`. -/
  | disconnect
  /-- The stream's context is cancelled. -/
  | cancel
  /-- The server's context is cancelled, and the stream's with it. -/
  | shutdown
  /-- `SendRequestSync` is called with a new request. -/
  | call (kind : RequestKind) (url : Bytes)
  /-- `SendTeardown`: a request is written and not queued. -/
  | teardown (session url : Bytes) (o : SendInput)
  /-- A step of call `i`. -/
  | caller (i : ℕ) (o : CallInput)
  /-- The reader has received a whole message. -/
  | recv (recv : Bytes)
  /-- The reader's next step. -/
  | reader (o : SendInput)
  deriving DecidableEq, Repr

/-- One step of a remote and the goroutines that use it. -/
def Remote.step (s : Remote) : Act → Option Remote
  | .dial ok => some (s.dialLocked ok).1
  | .attach =>
    if s.connected ∧ s.reader = .idle then some { s with readerConn := some s.conn, answered := 0 } else none
  | .disconnect => some s.disconnect
  | .cancel => some { s with cancelled := true }
  | .shutdown => some { s with cancelled := true, serverDone := true }
  | .call kind url => some { s with calls := s.calls ++ [Call.mk (newRequest kind url) 0 .subscribe] }
  | .teardown session url o =>
    let request := newRequest (.teardown session) url
    some ({ s with calls := s.calls ++ [Call.mk request 0 (.returned .ok)] }.sendRequest s.calls.length request o).1
  | .caller i o => s.stepCall i o
  | .recv recv =>
    if s.reader = .idle ∧ s.readerConn.isSome then
      some { s.receive recv with answered := s.answered + 1 }
    else none
  | .reader o => s.stepReader o

/-! ### What the steps do -/

/-- **The steps of a call.** -/
inductive Remote.CallStep (s : Remote) (i : ℕ) (c : Call) : CallInput → Remote → Prop
  /-- It makes its channel. -/
  | subscribe : c.pc = .subscribe → CallStep s i c .next ((s.subscribe i).callAt i .enqueue)
  /-- It queues the request. -/
  | enqueue : c.pc = .enqueue → CallStep s i c .next ((s.enqueue i).callAt i .send)
  /-- It sends the request. -/
  | send (o : SendInput) : c.pc = .send →
      CallStep s i c (.sent o) ((s.sendRequest i c.request o).1.callAt i
        (if (s.sendRequest i c.request o).2 then .wait else .unqueue))
  /-- It takes a request that was not sent out of the queue. -/
  | unqueue : c.pc = .unqueue → CallStep s i c .next ((s.unqueue i).callAt i (.returned .notSent))
  /-- It finds a value in its channel. -/
  | value (status : Status) : c.pc = .wait → s.chanVal c.request.sub = some status →
      CallStep s i c .value ((s.closeChan c.request.sub).callAt i
        (if s.cancelled then .returned .aborted else .ofStatus status))
  /-- It times out. -/
  | timeout : c.pc = .wait → CallStep s i c .timeout
      ((s.closeChan c.request.sub).callAt i (if s.cancelled then .returned .aborted else .expire))
  /-- The context is done. -/
  | done : c.pc = .wait → s.cancelled = true →
      CallStep s i c .done ((s.closeChan c.request.sub).callAt i (.returned .aborted))
  /-- It takes a request that timed out from the queue. -/
  | expire : c.pc = .expire → CallStep s i c .next (s.expire i c.attempt)
  /-- It goes into its second round. -/
  | reset : c.pc = .reset → CallStep s i c .next (s.retry i)

theorem stepCall_cases {s t : Remote} {i : ℕ} {o : CallInput} (h : s.stepCall i o = some t) :
    ∃ c, s.calls[i]? = some c ∧ s.CallStep i c o t := by
  unfold Remote.stepCall at h
  cases hget : s.calls[i]? with
  | none =>
    rw [hget] at h
    cases h
  | some c =>
    refine ⟨c, rfl, ?_⟩
    rw [hget] at h
    cases hpc : c.pc <;> cases o <;> simp only [hpc, reduceCtorEq, Option.some.injEq] at h
    case subscribe.next => exact h ▸ .subscribe hpc
    case enqueue.next => exact h ▸ .enqueue hpc
    case send.sent o => exact h ▸ .send o hpc
    case unqueue.next => exact h ▸ .unqueue hpc
    case wait.value =>
      cases hv : s.chanVal c.request.sub with
      | none =>
        rw [hv] at h
        cases h
      | some status =>
        rw [hv] at h
        cases h
        exact .value status hpc hv
    case wait.timeout => exact h ▸ .timeout hpc
    case wait.done =>
      split_ifs at h with hc
      cases h
      exact .done hpc hc
    case expire.next => exact h ▸ .expire hpc
    case reset.next => exact h ▸ .reset hpc

/-- **The steps of the reader** within `HandleUpstreamResponse`. -/
inductive Remote.ReaderStep (s : Remote) (o : SendInput) (recv : Bytes) (response : Response)
    (el call : ℕ) (c : Call) : Stage → Remote → Prop
  /-- A 401 whose challenge is taken up. -/
  | challenge : response.code = 401 → c.request.attempts = 0 →
      headerGet response.headers (ascii "WWW-Authenticate") ≠ [] → s.digest.hasCredentials = true →
      ReaderStep s o recv response el call c .judge
        (s.stageAt recv response el call (.auth (headerGet response.headers (ascii "WWW-Authenticate"))))
  /-- Any other response. -/
  | judge : ¬ (response.code = 401 ∧ c.request.attempts = 0 ∧
        headerGet response.headers (ascii "WWW-Authenticate") ≠ [] ∧ s.digest.hasCredentials = true) →
      ReaderStep s o recv response el call c .judge (s.judge recv response el call c.request.attempts)
  /-- The challenge goes into the digest. -/
  | auth (paramsStr : Bytes) : ReaderStep s o recv response el call c (.auth paramsStr)
      ({ s with
        digest := (s.digest.handleAuthenticationFailure paramsStr).1
        last401 := some recv }.stageAt recv response el call
          (if (s.digest.handleAuthenticationFailure paramsStr).2 then .bump else .finalize .unauthorized))
  /-- The attempt is counted. -/
  | bump : ReaderStep s o recv response el call c .bump
      ((s.setRequest call fun r => { r with attempts := r.attempts + 1 }).stageAt recv response el call .resend)
  /-- The request is sent again. -/
  | resend : ReaderStep s o recv response el call c .resend
      { (s.sendRequest call c.request o).1 with reader := .idle }
  /-- The queue element is removed. -/
  | finalize (status : Status) : s.requests.any (fun e => e.1 == el) = true →
      ReaderStep s o recv response el call c (.finalize status)
        ({ s with requests := s.requests.eraseP fun e => e.1 == el }.stageAt recv response el call (.notify status))
  /-- The queue element is gone. -/
  | gone (status : Status) : s.requests.any (fun e => e.1 == el) = false →
      ReaderStep s o recv response el call c (.finalize status) { s with reader := .idle }
  /-- The status is reported. -/
  | notify (status : Status) : ReaderStep s o recv response el call c (.notify status)
      { s.report c.request.sub status with reader := .idle }

theorem stepReader_cases {s t : Remote} {o : SendInput} (h : s.stepReader o = some t) :
    ∃ recv response el call stage c, s.reader = .handling recv response el call stage ∧
      s.calls[call]? = some c ∧ s.ReaderStep o recv response el call c stage t := by
  unfold Remote.stepReader at h
  split at h
  · cases h
  · rename_i recv response el call stage hr
    cases hget : s.calls[call]? with
    | none =>
      rw [hget] at h
      cases h
    | some c =>
      refine ⟨recv, response, el, call, stage, c, hr, hget, ?_⟩
      rw [hget] at h
      cases stage with
      | judge =>
        simp only at h
        split_ifs at h with hc
        · cases h
          exact .challenge hc.1 hc.2.1 hc.2.2.1 hc.2.2.2
        · cases h
          exact .judge hc
      | auth paramsStr =>
        cases h
        exact .auth paramsStr
      | bump =>
        cases h
        exact .bump
      | resend =>
        cases h
        exact .resend
      | finalize status =>
        simp only at h
        split_ifs at h with hany
        · cases h
          exact .finalize status hany
        · cases h
          exact .gone status (Bool.eq_false_iff.mpr hany)
      | notify status =>
        cases h
        exact .notify status

/-- An element of a list changed at one place. -/
theorem of_getElem?_modify {α : Type} {l : List α} {f : α → α} {i j : ℕ} {x : α}
    (h : (l.modify i f)[j]? = some x) : ∃ y, l[j]? = some y ∧ (i = j ∧ x = f y ∨ i ≠ j ∧ x = y) := by
  rw [List.getElem?_modify] at h
  split_ifs at h with hij
  · obtain ⟨y, hy, rfl⟩ := Option.map_eq_some_iff.mp h
    exact ⟨y, hy, .inl ⟨hij, rfl⟩⟩
  · exact ⟨x, by simpa using h, .inr ⟨hij, rfl⟩⟩

theorem forall_mem_modify {α : Type} {l : List α} {f : α → α} {i : ℕ} {P : α → Prop} (h : ∀ x ∈ l, P x)
    (hf : ∀ x, l[i]? = some x → P (f x)) : ∀ x ∈ l.modify i f, P x := by
  intro x hx
  obtain ⟨j, hj⟩ := List.mem_iff_getElem?.mp hx
  obtain ⟨y, hy, ⟨rfl, rfl⟩ | ⟨-, rfl⟩⟩ := of_getElem?_modify hj
  · exact hf y hy
  · exact h x (List.mem_of_getElem? hy)

/-- An element of a list with one more at the end. -/
theorem of_getElem?_concat {α : Type} {l : List α} {j : ℕ} {x y : α} (h : (l ++ [x])[j]? = some y) :
    l[j]? = some y ∨ j = l.length ∧ y = x := by
  by_cases hlt : j < l.length
  · rw [List.getElem?_append_left hlt] at h
    exact .inl h
  · have hj : j = l.length := by
      have := (List.getElem?_eq_some_iff.mp h).1
      rw [List.length_append, List.length_singleton] at this
      omega
    subst hj
    rw [List.getElem?_concat_length] at h
    cases h
    exact .inr ⟨rfl, rfl⟩

theorem closeChan_eq (s : Remote) (ch : Option ℕ) :
    s.closeChan ch = { s with chans := (s.closeChan ch).chans } := by
  cases ch <;> rfl

theorem report_eq (s : Remote) (ch : Option ℕ) (status : Status) :
    s.report ch status = { s with chans := (s.report ch status).chans } := by
  cases ch <;> rfl

/-- A channel that is closed keeps its value. -/
theorem chanVal_closeChan (s : Remote) (ch ch' : Option ℕ) : (s.closeChan ch).chanVal ch' = s.chanVal ch' := by
  cases ch with
  | none => rfl
  | some ch =>
    cases ch' with
    | none => rfl
    | some k =>
      simp only [Remote.chanVal, Remote.closeChan, Option.bind_some, List.getElem?_modify]
      by_cases hk : ch = k
      · subst hk
        cases s.chans[ch]? <;> simp
      · simp [hk]

/-- **The outcomes of `SendRequest`**: no connection can be made; or the request is written
to the connection there is or to a new one, and if that fails the connection is closed. -/
theorem sendRequest_cases (s : Remote) (i : ℕ) (request : Request) (o : SendInput) :
    (s.connected = false ∧ s.sendRequest i request o = (s, false)) ∨
    ∃ s₁, (s.connected = true ∧ s₁ = s ∨
        s.connected = false ∧ (s.serverDone || !o.dialOk) = false ∧ s₁ = s.dialed) ∧
      (o.writeOk = true ∧ s.sendRequest i request o = (s₁.wrote i request o, true) ∨
        o.writeOk = false ∧ s.sendRequest i request o = ((s₁.wrote i request o).disconnect, false)) := by
  have hwrite : ∀ s₁ : Remote, o.writeOk = true ∧ s₁.write i request o = (s₁.wrote i request o, true) ∨
      o.writeOk = false ∧ s₁.write i request o = ((s₁.wrote i request o).disconnect, false) := by
    intro s₁
    cases hw : o.writeOk with
    | true => exact .inl ⟨rfl, by simp [Remote.write, hw]⟩
    | false => exact .inr ⟨rfl, by simp [Remote.write, hw]⟩
  unfold Remote.sendRequest
  cases hc : s.connected with
  | true => exact .inr ⟨s, .inl ⟨rfl, rfl⟩, hwrite s⟩
  | false =>
    by_cases hd : (s.serverDone || !o.dialOk) = true
    · exact .inl ⟨rfl, by simp [Remote.dialLocked, hd]⟩
    · refine .inr ⟨s.dialed, .inr ⟨rfl, ?_, rfl⟩, ?_⟩
      · exact Bool.eq_false_iff.mpr hd
      · simpa [Remote.dialLocked, hd] using hwrite s.dialed

end RtspProxy.Upstream
