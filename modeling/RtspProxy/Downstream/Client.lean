import RtspProxy.Wire.Request
import RtspProxy.Wire.ReadLoop
import RtspProxy.Upstream.Session

/-!
# A client's connection

`Client.incomingRequestHandler` reads requests and interleaved frames from a client, answers
the requests and hands the frames on.

## The model

`Conn` is the handler between two calls of `Read`: what is buffered, which of its three read
loops it is in, the client's target, and, as a record, the requests it has handled with their
replies and the frames it has extracted. A step is what one `Read` returns, and all the
handler does until the next one. A `Read` never returns more than the free part of the
buffer.

What the handlers of the methods find out from the stream and the clock is a `StreamView`.
Their effects on the stream (they start it, add the client to it, map channels) do not show
in the replies and are not part of this model.
-/

namespace RtspProxy.Downstream

open Theory Wire

/-! ### The client's target -/

/-- The fields of a `Client` that the replies depend on. -/
structure Client where
  localAddr : Bytes
  remoteAddr : Bytes
  host : Bytes
  basePath : Bytes
  username : Bytes
  password : Bytes
  deriving DecidableEq, Repr

/-- `NewClient`. -/
def newClient (localAddr remoteAddr : Bytes) : Client := ⟨localAddr, remoteAddr, [], [], [], []⟩

/-- The host and the path named by a URL path of the form `/rtsp/host/path`. -/
def pathTarget (path : Bytes) : Option (Bytes × Bytes) :=
  let trimmedPath := if path.head? = some 47 then path.drop 1 else path
  match cut 47 trimmedPath with
  | (first, some rest) =>
    if first = ascii "rtsp" then
      match cut 47 rest with
      | (host, some rest) => some (host, 47 :: rest)
      | (host, none) => some (host, [47])
    else none
  | (_, none) => none

/-- An OPTIONS request about the proxy itself. -/
def isProbe (request : Request) : Bool :=
  request.method == ascii "OPTIONS" &&
    (request.url.path == ascii "*" || request.url.path == ascii "/" || request.url.path == [])

/-- User name and password taken from a host of the form `user:password@host`. -/
def Client.login (c : Client) (host : Bytes) : Client :=
  match cut 64 host with
  | (auth, some host) =>
    match cut 58 auth with
    | (username, some password) => { c with host := host, username := username, password := password }
    | (_, none) => { c with host := host }
  | (_, none) => { c with host := host }

/-- The resolution of the client's target by its first request: the client, and the request
with its path; `none` if the request is about the proxy itself. -/
def Client.resolve (c : Client) (request : Request) : Option (Client × Request) :=
  if c.host ≠ [] then some (c, request)
  else
    let c := { c with username := request.url.username, password := request.url.password }
    match pathTarget request.url.path with
    | some (host, path) =>
      some ({ c.login host with basePath := path }, { request with url := { request.url with path := path } })
    | none =>
      if isProbe request then none
      else some ({ c.login request.url.host with basePath := request.url.path }, request)

/-! ### Replies -/

/-- How a wait for the stream ends. -/
inductive Wait where
  /-- The server shuts down. -/
  | shutdown
  /-- The channel is closed. -/
  | ready
  /-- Ten seconds are over. -/
  | timeout
  deriving DecidableEq, Repr

/-- What the handler of a request finds out from the stream and the clock. -/
structure StreamView where
  /-- `GetOptions()`, read the second time. -/
  options : Bytes
  server : Bytes
  path : Bytes
  /-- `GetSDP()`. -/
  sdp : Bytes
  /-- The wait for `SDPReadyCh`. -/
  sdpWait : Wait
  /-- The wait for `ReadyCh`. -/
  readyWait : Wait
  /-- The state is `StateDestroyed` after the wait. -/
  destroyed : Bool
  /-- The state is `StatePlaying` after the wait. -/
  playing : Bool
  /-- The transports of the stream's sessions, in the order of the search, each with the session's id. -/
  transports : List (Bytes × Upstream.Transport)
  deriving DecidableEq, Repr

/-- `NewResponse`. -/
def newResponse (code : ℤ) (status : String) : Response := ⟨ascii status, ascii "RTSP/1.0", code, [], []⟩

/-- `response.Headers[key] = value`. -/
def withHeader (response : Response) (key : String) (value : Bytes) : Response :=
  { response with headers := response.headers.set (ascii key) value }

/-- `responseNotFound`. -/
def responseNotFound : Response := newResponse 404 "Stream Not Found"

/-- `responseBadRequest`. -/
def responseBadRequest : Response := newResponse 400 "Bad Request"

/-- `responseUnsupportedTransport`. -/
def responseUnsupportedTransport : Response :=
  withHeader (withHeader (newResponse 461 "Unsupported Transport")
    "Transport" (ascii "RTP/AVP/TCP;unicast;interleaved=0-1")) "Supported" (ascii "RTP/AVP/TCP")

/-- The methods that the proxy knows. -/
def publicMethods : Bytes := ascii "OPTIONS, DESCRIBE, SETUP, PLAY, TEARDOWN, GET_PARAMETER"

/-- `handleOptions`. -/
def handleOptions (view : StreamView) : Response :=
  let opts := if view.options ≠ [] then view.options else publicMethods
  withHeader (withHeader (newResponse 200 "OK") "Public" opts) "Server" view.server

/-- The address of the proxy that a reply shows. -/
def shownIP (localAddr : Bytes) : Bytes := if localAddr = ascii "0.0.0.0" then ascii "127.0.0.1" else localAddr

/-- The SDP of a reply. -/
def rewriteSDP (client : Client) (sdp : Bytes) : Bytes :=
  replaceAll (ascii "0.0.0.0") (shownIP client.localAddr) sdp

/-- The reply of `handleDescribe` once there is an SDP. -/
def describeReply (client : Client) (view : StreamView) : Response :=
  let rewrittenSDP := rewriteSDP client view.sdp
  let response := withHeader (withHeader (newResponse 200 "OK")
    "Content-Type" (ascii "application/sdp")) "Server" view.server
  { withHeader response "Content-Length" (itoa rewrittenSDP.length) with body := rewrittenSDP }

/-- `handleDescribe`. -/
def handleDescribe (client : Client) (view : StreamView) : Response :=
  match view.sdpWait with
  | .shutdown => responseBadRequest
  | .ready => if view.destroyed then responseNotFound else describeReply client view
  | .timeout => if view.sdp = [] then responseBadRequest else describeReply client view

/-- The length of a match of `;?(destination|source)=[^;]+` at the front. -/
def matchAddress (s : Bytes) : Option ℕ :=
  let semicolon := if s.head? = some 59 then 1 else 0
  let s := s.drop semicolon
  let value (name : Bytes) : Option ℕ :=
    let n := ((s.drop name.length).takeWhile (· != 59)).length
    if name <+: s ∧ 0 < n then some (semicolon + name.length + n) else none
  (value (ascii "destination=")).or (value (ascii "source="))

/-- The reply of `handleSetup` once the upstream transport is found. -/
def setupReply (client : Client) (view : StreamView) (transport session : Bytes) (upstream : Upstream.Transport) :
    Response :=
  let proxyIP := shownIP client.localAddr
  let cleanTransport := replaceMatches matchAddress [] 0 transport
  let response := withHeader (newResponse 200 "OK") "Transport"
    (cleanTransport ++ ascii ";ssrc=" ++ upstream.ssrc ++ ascii ";destination=" ++ client.remoteAddr ++
      ascii ";source=" ++ proxyIP)
  let response := withHeader response "Cache-Control" (ascii "must-revalidate")
  withHeader (withHeader response "Session" (session ++ ascii ";timeout=60")) "Server" view.server

/-- `LookupTransport`. -/
def lookupTransport (view : StreamView) (substreamName protocol comType : Bytes) :
    Option (Bytes × Upstream.Transport) :=
  view.transports.find? fun t => t.2.is substreamName protocol comType

/-- `handleSetup`. -/
def handleSetup (client : Client) (view : StreamView) (request : Request) : Response :=
  let substreamName := Upstream.splitFile request.url.path
  let transport := headerGet request.headers (ascii "Transport")
  let (protocol, comType, _) := Upstream.parseTransport transport
  let found :=
    match lookupTransport view substreamName protocol comType with
    | none => responseBadRequest
    | some (session, upstream) => setupReply client view transport session upstream
  match view.readyWait with
  | .shutdown => responseBadRequest
  | .ready => if view.destroyed then responseNotFound else found
  | .timeout => if view.playing then found else responseBadRequest

/-- `handlePlay`. -/
def handlePlay (client : Client) (view : StreamView) (request : Request) : Response :=
  let proxyIP := shownIP client.localAddr
  let response := withHeader (newResponse 200 "OK") "Range" (headerGet request.headers (ascii "Range"))
  let response := withHeader response "Session" (headerGet request.headers (ascii "Session"))
  withHeader (withHeader response "Server" view.server) "RTP-Info"
    (ascii "url=rtsp://" ++ proxyIP ++ view.path ++ ascii ";seq=0;rtptime=0")

/-- The reply of `handleTeardown` and `handleGetParameter`. -/
def sessionReply (view : StreamView) (request : Request) : Response :=
  withHeader (withHeader (newResponse 200 "OK") "Session" (headerGet request.headers (ascii "Session")))
    "Server" view.server

/-- `handleTeardown`. -/
def handleTeardown (view : StreamView) (request : Request) : Response := sessionReply view request

/-- `handleGetParameter`. -/
def handleGetParameter (view : StreamView) (request : Request) : Response := sessionReply view request

/-- A transport that is RTP over UDP. -/
def isUDP (transport : Bytes) : Bool :=
  transport != [] && (index (ascii "RTP/AVP") transport).isSome &&
    (index (ascii "RTP/AVP/TCP") transport).isNone

/-- The switch over the methods. -/
def dispatchMethod (client : Client) (view : StreamView) (request : Request) : Response :=
  if request.method = ascii "OPTIONS" then handleOptions view
  else if request.method = ascii "DESCRIBE" then handleDescribe client view
  else if request.method = ascii "SETUP" then
    if isUDP (headerGet request.headers (ascii "Transport")) then responseUnsupportedTransport
    else handleSetup client view request
  else if request.method = ascii "PLAY" then handlePlay client view request
  else if request.method = ascii "TEARDOWN" then handleTeardown view request
  else if request.method = ascii "GET_PARAMETER" then handleGetParameter view request
  else responseBadRequest

/-- The headers that every reply gets. -/
def finishReply (response : Response) (request : Request) : Response :=
  let response := withHeader response "Via" (ascii "RTSP-Proxy")
  let cseq := headerGet request.headers (ascii "CSeq")
  let response := if cseq ≠ [] then withHeader response "CSeq" cseq else response
  if (response.headers.find (ascii "Server")).getD [] = [] then
    withHeader response "Server" (ascii "RTSP-Proxy/1.0")
  else response

/-- The reply to an OPTIONS request about the proxy itself. -/
def probeReply (request : Request) : Response :=
  withHeader (withHeader (withHeader (newResponse 200 "OK") "Public" publicMethods)
    "Server" (ascii "RTSP-Proxy/1.0")) "CSeq" (headerGet request.headers (ascii "CSeq"))

/-! ### The handler -/

/-- `rtspBufferSize`. -/
def rtspBufferSize : ℕ := 65536

/-- Which `Read` the handler is waiting in. -/
inductive ReadPc where
  /-- That at the top of the loop. -/
  | top
  /-- That for the header of a frame. -/
  | header
  /-- That for the data of a frame, with its channel and its length. -/
  | data (tcpChannel : UInt8) (streamDataLength : ℕ)
  /-- None: it has returned. -/
  | returned
  deriving DecidableEq, Repr

/-- What the handler does. -/
inductive Event where
  /-- It handles a request, and writes a reply. -/
  | request (text : Bytes) (reply : Response)
  /-- It extracts a frame. -/
  | frame (tcpChannel : UInt8) (data : Bytes)
  deriving DecidableEq, Repr

/-- The handler. -/
structure Conn where
  client : Client
  /-- `buffer[:length]`. -/
  buffer : Bytes
  /-- Where it is. -/
  pc : ReadPc
  /-- What it has done. -/
  events : List Event
  deriving DecidableEq, Repr

/-- A new connection. -/
def newConn (localAddr remoteAddr : Bytes) : Conn := ⟨newClient localAddr remoteAddr, [], .top, []⟩

/-- How a `Read` ends. -/
inductive Arrival where
  /-- It returns bytes. If they complete a request, that finds the stream like this. -/
  | bytes (bs : Bytes) (view : StreamView)
  /-- It times out. -/
  | timeout
  /-- It fails, or the server shuts down. -/
  | closed
  deriving DecidableEq, Repr

section
variable (parse : Bytes → Option URL)

/-- The whole buffer is taken for a request. -/
def Conn.request (s : Conn) (view : StreamView) : Conn :=
  let reqStr := s.buffer
  let s := { s with buffer := [] }
  match newRequestFromBuffer parse reqStr with
  | .error _ => { s with pc := .returned }
  | .ok request =>
    match s.client.resolve request with
    | none => { s with pc := .returned, events := s.events ++ [.request reqStr (probeReply request)] }
    | some (client, request) =>
      let reply := finishReply (dispatchMethod client view request) request
      { s with client := client, pc := .top, events := s.events ++ [.request reqStr reply] }

/-- The data of a frame is read, and then extracted. -/
def Conn.readData (s : Conn) (tcpChannel : UInt8) (streamDataLength : ℕ) : Conn :=
  if s.buffer.length - 4 < streamDataLength then { s with pc := .data tcpChannel streamDataLength }
  else
    { s with
      buffer := s.buffer.drop (4 + streamDataLength)
      pc := .top
      events := s.events ++ [.frame tcpChannel ((s.buffer.drop 4).take streamDataLength)] }

/-- The header of a frame is read. -/
def Conn.readHeader (s : Conn) : Conn :=
  match s.buffer with
  | _ :: tcpChannel :: hi :: lo :: _ => s.readData tcpChannel (pktLen hi lo)
  | _ => { s with pc := .header }

/-- What the handler does with the bytes that a `Read` returns. -/
def Conn.received (s : Conn) (bs : Bytes) (view : StreamView) : Conn :=
  let s := { s with buffer := s.buffer ++ bs }
  match s.pc with
  | .top => if s.buffer.head? = some 36 then s.readHeader else s.request parse view
  | .header => s.readHeader
  | .data tcpChannel streamDataLength => s.readData tcpChannel streamDataLength
  | .returned => s

/-- One step of `Client.incomingRequestHandler`. After it has returned nothing is read. -/
def Conn.step (s : Conn) (a : Arrival) : Option Conn :=
  if s.pc = .returned then some s
  else match a with
    | .bytes bs view =>
      if 0 < bs.length ∧ bs.length ≤ rtspBufferSize - s.buffer.length then some (s.received parse bs view)
      else none
    | .timeout => some s
    | .closed => some { s with pc := .returned }

end

/-! ### The `CSeq` of a reply -/

/-- No key is `CSeq`, in any case. -/
def NoCSeq (headers : Headers) : Prop := ∀ kv ∈ headers, toLower kv.1 ≠ ascii "cseq"

theorem noCSeq_set {headers : Headers} (h : NoCSeq headers) {key : Bytes} (hk : toLower key ≠ ascii "cseq")
    (value : Bytes) : NoCSeq (headers.set key value) := by
  intro kv hkv
  unfold Headers.set at hkv
  split_ifs at hkv
  · obtain ⟨kv', hkv', rfl⟩ := List.mem_map.mp hkv
    split_ifs
    · exact hk
    · exact h kv' hkv'
  · rcases List.mem_append.mp hkv with hkv | hkv
    · exact h kv hkv
    · rw [List.mem_singleton.mp hkv]
      exact hk

theorem noCSeq_find {headers : Headers} (h : NoCSeq headers) {key : Bytes} (hk : toLower key = ascii "cseq") :
    headers.find key = none := by
  unfold Headers.find
  rw [List.find?_eq_none.mpr]
  · rfl
  · intro kv hkv heq
    exact h kv hkv (beq_iff_eq.mp heq ▸ hk)

theorem headerGet_of_noCSeq {headers : Headers} (h : NoCSeq headers) : headerGet headers (ascii "CSeq") = [] := by
  unfold headerGet
  rw [noCSeq_find h (by decide), noCSeq_find h (by decide), List.find?_eq_none.mpr]
  · rfl
  · intro kv hkv heq
    exact h kv hkv (beq_iff_eq.mp heq)

theorem headerGet_of_find {headers : Headers} {key value : Bytes} (h : headers.find key = some value) :
    headerGet headers key = value := by
  unfold headerGet
  rw [h]

theorem noCSeq_newResponse (code : ℤ) (status : String) : NoCSeq (newResponse code status).headers :=
  fun _ h => absurd h List.not_mem_nil

theorem noCSeq_withHeader {response : Response} (h : NoCSeq response.headers) {key : String}
    (hk : toLower (ascii key) ≠ ascii "cseq") (value : Bytes) : NoCSeq (withHeader response key value).headers :=
  noCSeq_set h hk value

theorem noCSeq_describe (client : Client) (view : StreamView) : NoCSeq (handleDescribe client view).headers := by
  have hreply : NoCSeq (describeReply client view).headers := by
    unfold describeReply
    dsimp only
    refine noCSeq_withHeader (noCSeq_withHeader (noCSeq_withHeader ?_ ?_ _) ?_ _) ?_ _
    · exact noCSeq_newResponse 200 "OK"
    all_goals decide
  unfold handleDescribe
  split
  · exact noCSeq_newResponse 400 "Bad Request"
  · split_ifs
    · exact noCSeq_newResponse 404 "Stream Not Found"
    · exact hreply
  · split_ifs
    · exact noCSeq_newResponse 400 "Bad Request"
    · exact hreply

theorem noCSeq_setup (client : Client) (view : StreamView) (request : Request) :
    NoCSeq (handleSetup client view request).headers := by
  have hreply : ∀ transport session upstream, NoCSeq (setupReply client view transport session upstream).headers := by
    intro transport session upstream
    refine noCSeq_withHeader (noCSeq_withHeader (noCSeq_withHeader (noCSeq_withHeader ?_ ?_ _) ?_ _) ?_ _) ?_ _
    · exact noCSeq_newResponse 200 "OK"
    all_goals decide
  have hbad : NoCSeq responseBadRequest.headers := noCSeq_newResponse 400 "Bad Request"
  unfold handleSetup
  dsimp only
  split
  · exact hbad
  · split_ifs
    · exact noCSeq_newResponse 404 "Stream Not Found"
    · split
      · exact hbad
      · exact hreply _ _ _
  · split_ifs
    · split
      · exact hbad
      · exact hreply _ _ _
    · exact hbad

theorem noCSeq_dispatchMethod (client : Client) (view : StreamView) (request : Request) :
    NoCSeq (dispatchMethod client view request).headers := by
  have hsession : NoCSeq (sessionReply view request).headers := by
    refine noCSeq_withHeader (noCSeq_withHeader (noCSeq_newResponse 200 "OK") ?_ _) ?_ _ <;> decide
  unfold dispatchMethod
  split_ifs
  · refine noCSeq_withHeader (noCSeq_withHeader (noCSeq_newResponse 200 "OK") ?_ _) ?_ _ <;> decide
  · exact noCSeq_describe client view
  · refine noCSeq_withHeader (noCSeq_withHeader (noCSeq_newResponse 461 "Unsupported Transport") ?_ _) ?_ _ <;>
      decide
  · exact noCSeq_setup client view request
  · refine noCSeq_withHeader (noCSeq_withHeader (noCSeq_withHeader (noCSeq_withHeader
      (noCSeq_newResponse 200 "OK") ?_ _) ?_ _) ?_ _) ?_ _ <;> decide
  · exact hsession
  · exact hsession
  · exact noCSeq_newResponse 400 "Bad Request"

/-- **A reply has the `CSeq` of its request.** -/
theorem finishReply_cseq (response : Response) (request : Request) (h : NoCSeq response.headers) :
    headerGet (finishReply response request).headers (ascii "CSeq") = headerGet request.headers (ascii "CSeq") := by
  have hvia : NoCSeq (withHeader response "Via" (ascii "RTSP-Proxy")).headers :=
    noCSeq_withHeader h (by decide) _
  unfold finishReply
  dsimp only
  by_cases hc : headerGet request.headers (ascii "CSeq") = []
  · rw [if_neg (not_not.mpr hc), hc]
    split_ifs
    · exact headerGet_of_noCSeq (noCSeq_withHeader hvia (by decide) _)
    · exact headerGet_of_noCSeq hvia
  · rw [if_pos hc]
    split_ifs
    · refine headerGet_of_find ?_
      rw [withHeader, Headers.find_set, if_neg (by decide), withHeader, Headers.find_set, if_pos rfl]
    · refine headerGet_of_find ?_
      rw [withHeader, Headers.find_set, if_pos rfl]

theorem probeReply_cseq (request : Request) :
    headerGet (probeReply request).headers (ascii "CSeq") = headerGet request.headers (ascii "CSeq") := by
  refine headerGet_of_find ?_
  rw [probeReply, withHeader, Headers.find_set, if_pos rfl]

/-- Resolving the target leaves the headers of the request. -/
theorem resolve_headers {c c' : Client} {request request' : Request} (h : c.resolve request = some (c', request')) :
    request'.headers = request.headers := by
  unfold Client.resolve at h
  by_cases hhost : c.host = []
  · rw [if_neg (not_not.mpr hhost)] at h
    dsimp only at h
    split at h
    · cases h
      rfl
    · split_ifs at h
      cases h
      rfl
  · rw [if_pos hhost] at h
    cases h
    rfl

end RtspProxy.Downstream
