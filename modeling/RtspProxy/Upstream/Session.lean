import Mathlib.Data.List.AList
import RtspProxy.Upstream.Remote

/-!
# The camera's sessions

`Stream.doConnectSequence` asks the camera for its options and its SDP, sets up each track of
the SDP, and starts to play. The answers to SETUP leave their mark in `stream.sessions`: a
session for each session id, and in it a transport for each track. `SetupUpstream` and
`LookupTransport` look for a transport in all of them.

## The model

`stream.sessions` is an `AList` from session ids to sessions. A `range` over it visits the ids in
any order, which is an input. Each transport carries, as a record, the number of the connection
whose SETUP response made it.

What the camera does in one connect sequence is an `Env`: for each request the responses that
are handed to the method's handler while `SendRequestSync` waits (none, if the request is
refused, or answered with a 401 that names no way to log in), and whether it returns without an
error. Which response belongs to which request is the subject of `Pairing`. `url.Parse` is a
parameter: the path of a URL, if the text is one. Where the code uses the URL that it returns
with an error, which is `nil`, it panics (`Outcome.crashed`).

`Substream.Seq` and `RTPTime`, which `handlePlay` sets, are read nowhere and left out.
-/

namespace RtspProxy.Upstream

open Theory Wire

/-! ### Paths -/

/-- The file of `filepath.Split`: what follows the last slash. -/
def splitFile (path : Bytes) : Bytes := (path.reverse.takeWhile (· != 47)).reverse

/-- `strings.TrimRight(s, "/")`. -/
def trimRightSlash (s : Bytes) : Bytes := (s.reverse.dropWhile (· == 47)).reverse

/-- `strings.TrimLeft(s, "/")`. -/
def trimLeftSlash (s : Bytes) : Bytes := s.dropWhile (· == 47)

/-- `filepath.Base`. -/
def fileBase (path : Bytes) : Bytes :=
  if path = [] then ascii "."
  else if trimRightSlash path = [] then ascii "/"
  else splitFile (trimRightSlash path)

/-! ### The tracks of an SDP -/

/-- `strings.TrimPrefix`. -/
def trimPrefix (p s : Bytes) : Bytes := if p <+: s then s.drop p.length else s

/-- The lines of an SDP. -/
def sdpLines (sdp : Bytes) : List Bytes := (sdp.splitOn 10).map trimSpace

/-- The session-level control: the last one before the first media section that is not `*`. -/
def sessionControl (lines : List Bytes) : Bytes :=
  (lines.takeWhile fun line => ¬ ascii "m=" <+: line).foldl (fun baseURL line =>
    if ascii "a=control:" <+: line ∧ trimPrefix (ascii "a=control:") line ≠ ascii "*" then
      trimPrefix (ascii "a=control:") line
    else baseURL) []

/-- The track that a media-level control stands for. -/
def resolveControl (baseURL control : Bytes) : Bytes :=
  if ascii "rtsp://" <+: control then control
  else if baseURL ≠ [] ∧ ascii "rtsp://" <+: baseURL then
    trimRightSlash baseURL ++ [47] ++ trimLeftSlash control
  else control

/-- The controls of the media sections, in order. -/
def mediaControls (lines : List Bytes) : List Bytes :=
  ((lines.dropWhile fun line => ¬ ascii "m=" <+: line).filter fun line =>
    ascii "a=control:" <+: line ∧ trimPrefix (ascii "a=control:") line ≠ ascii "*").map
      (trimPrefix (ascii "a=control:"))

/-- `Stream.parseTracks`. -/
def parseTracks (sdp : Bytes) : List Bytes :=
  let lines := sdpLines sdp
  let tracks := (mediaControls lines).map (resolveControl (sessionControl lines))
  if tracks = [] then [[]] else tracks

example : parseTracks (ascii
      "v=0\r\na=control:rtsp://cam/live/\r\nm=video\r\na=control:track1\r\nm=audio\r\na=control:/track2") =
    [ascii "rtsp://cam/live/track1", ascii "rtsp://cam/live/track2"] := by decide +kernel

theorem parseTracks_ne_nil (sdp : Bytes) : parseTracks sdp ≠ [] := by
  rw [parseTracks]
  split_ifs with h
  · simp
  · exact h

/-! ### Sessions and their transports -/

/-- `Transport`. -/
structure Transport where
  substreamName : Bytes
  protocol : Bytes
  comType : Bytes
  ssrc : Bytes
  /-- `Channel` of `Substreams[0]` and `Substreams[1]`. -/
  channels : Option ℤ × Option ℤ
  /-- The connection whose SETUP response made it (a record). -/
  conn : ℕ
  deriving DecidableEq, Repr

/-- `Session`: what is kept under a session id. -/
structure Session where
  timeout : ℤ
  transports : List Transport
  deriving DecidableEq, Repr

/-- `stream.sessions`. -/
abbrev Sessions := AList fun _ : Bytes => Session

/-- `Stream.LookupSession`: the session of the id, which is there afterwards. -/
def Sessions.lookupSession (ss : Sessions) (id : Bytes) : Session × Sessions :=
  match ss.lookup id with
  | some session => (session, ss)
  | none => (⟨60, []⟩, ss.insert id ⟨60, []⟩)

/-- `key=value` as it stands in the parameters of a header. -/
def param (element : Bytes) : Option (Bytes × Bytes) :=
  match cut 61 element with
  | (key, some value) => some (key, value)
  | (_, none) => none

/-- The parameters of a header, as a map: the last of a key counts. -/
def paramMap (elements : List Bytes) (key : Bytes) : Option Bytes :=
  (elements.filterMap param).foldl (fun found kv => if kv.1 = key then some kv.2 else found) none

theorem paramMap_eq_find (elements : List Bytes) (key : Bytes) :
    paramMap elements key = ((elements.filterMap param).reverse.find? fun kv => kv.1 = key).map Prod.snd := by
  suffices hfold : ∀ (entries : List (Bytes × Bytes)) (found : Option Bytes),
      entries.foldl (fun found kv => if kv.1 = key then some kv.2 else found) found =
        ((entries.reverse.find? fun kv => kv.1 = key).map Prod.snd).or found by
    rw [paramMap, hfold, Option.or_none]
  intro entries
  induction entries with
  | nil => exact fun _ => rfl
  | cons kv entries ih =>
    intro found
    rw [List.foldl_cons, ih, List.reverse_cons, List.find?_append]
    by_cases hkey : kv.1 = key <;> cases entries.reverse.find? (fun kv => decide (kv.1 = key)) <;> simp [hkey]

/-- `Remote.parseTransport`. -/
def parseTransport (transportStr : Bytes) : Bytes × Bytes × (Bytes → Option Bytes) :=
  if transportStr = [] then ([], [], fun _ => none)
  else
    let transportParts := transportStr.splitOn 59
    (transportParts.headD [], (transportParts.getD 1 (ascii "unicast")), paramMap (transportParts.drop 2))

/-- The session id in the `Session` header of a response. -/
def sessionID (response : Response) : Bytes :=
  ((headerGet response.headers (ascii "Session")).splitOn 59).headD []

/-- What a SETUP response says of the transport: the SSRC and the channels. -/
def Transport.assign (params : Bytes → Option Bytes) (t : Transport) : Transport :=
  let channels :=
    match params (ascii "interleaved") with
    | none => t.channels
    | some interleaved =>
      let parts := interleaved.splitOn 45
      (some (atoi (parts.headD [])).1,
        match parts[1]? with
        | some ch2 => some (atoi ch2).1
        | none => t.channels.2)
  { t with ssrc := (params (ascii "ssrc")).getD [], channels := channels }

/-- `Session.LookupTransport`: is this the transport? -/
def Transport.is (substreamName protocol comType : Bytes) (t : Transport) : Bool :=
  t.substreamName == substreamName && t.protocol == protocol && t.comType == comType

/-- `Session.LookupTransport`, and what `handleSetup` does with the transport it returns. -/
def Session.setTransport (session : Session) (substreamName protocol comType : Bytes) (conn : ℕ)
    (f : Transport → Transport) : List Transport :=
  match session.transports.findIdx? (Transport.is substreamName protocol comType) with
  | some i => session.transports.modify i f
  | none => session.transports ++ [f ⟨substreamName, protocol, comType, [], (none, none), conn⟩]

/-- The timeout among the parameters of a `Session` header: the last one counts, also if it is no
number. -/
def sessionTimeout (response : Response) (timeout : ℤ) : ℤ :=
  match paramMap (((headerGet response.headers (ascii "Session")).splitOn 59).drop 1) (ascii "timeout") with
  | some value => (atoi value).1
  | none => timeout

/-- `Remote.handleSetup`, for a request of the URL path `path` on the connection `conn`. -/
def handleSetup (conn : ℕ) (path : Bytes) (ss : Sessions) (response : Response) : Sessions :=
  let substreamName := splitFile path
  let (protocol, comType, params) := parseTransport (headerGet response.headers (ascii "Transport"))
  let (session, ss) := ss.lookupSession (sessionID response)
  ss.insert (sessionID response)
    { timeout := sessionTimeout response session.timeout,
      transports := session.setTransport substreamName protocol comType conn (Transport.assign params) }

/-- `Remote.LookupTransport`, when the `range` visits the sessions in this order. -/
def Sessions.lookupTransport (ss : Sessions) (order : List Bytes) (substreamName protocol comType : Bytes) :
    Option Transport :=
  order.findSome? fun id => (ss.lookup id).bind fun session =>
    session.transports.find? (Transport.is substreamName protocol comType)

/-! ### The connect sequence -/

/-- The fields of a `Stream` that the connect sequence works with. -/
structure StreamRec where
  path : Bytes
  options : Bytes
  server : Bytes
  sdp : Bytes
  sessions : Sessions

/-- One `SendRequestSync`: the responses handed to the method's handler meanwhile, and whether it
returns without an error. -/
structure Exchange where
  /-- The responses handled. -/
  handled : List Response
  /-- No error is returned. -/
  ok : Bool
  deriving DecidableEq, Repr

/-- What happens in one connect sequence that the code does not decide. -/
structure Env where
  /-- The number of the connection. -/
  conn : ℕ
  /-- The answer to OPTIONS. -/
  options : Exchange
  /-- The answer to DESCRIBE. -/
  describe : Exchange
  /-- The answer to the `i`-th SETUP, given its headers. -/
  setup : ℕ → Headers → Exchange
  /-- The answer to PLAY. -/
  play : Exchange
  /-- The order in which the `i`-th `SetupUpstream` visits the sessions. -/
  order : ℕ → List Bytes → List Bytes
  /-- It visits each once. -/
  order_perm : ∀ i ids, (order i ids).Perm ids

/-- Why a track could not be set up. -/
inductive SetupError where
  /-- `SETUP failed for track`. -/
  | failed (track : Bytes)
  /-- A nil URL was used. -/
  | crashed
  deriving DecidableEq, Repr

/-- How a connect sequence ends. -/
inductive Outcome where
  /-- It sent PLAY for this session, and succeeded. -/
  | played (session : Bytes)
  | optionsFailed
  | describeFailed
  /-- A track could not be set up. -/
  | notSetUp (e : SetupError)
  | playFailed
  /-- A nil URL was used. -/
  | crashed
  deriving DecidableEq, Repr

/-- `Remote.handleOptions`. -/
def StreamRec.handleOptions (st : StreamRec) (response : Response) : StreamRec :=
  { st with options := headerGet response.headers (ascii "Public"),
            server := headerGet response.headers (ascii "Server") }

/-- `Remote.handleDescribe`. -/
def StreamRec.handleDescribe (st : StreamRec) (response : Response) : StreamRec := { st with sdp := response.body }

/-- `Remote.GetOptions`: it asks only if it does not know. -/
def StreamRec.getOptions (st : StreamRec) (env : Env) : StreamRec × Bool :=
  if st.options = [] then (env.options.handled.foldl StreamRec.handleOptions st, env.options.ok) else (st, true)

/-- `Remote.GetSDP`: it asks only if it has none. -/
def StreamRec.getSDP (st : StreamRec) (env : Env) : StreamRec × Bool :=
  if st.sdp = [] then (env.describe.handled.foldl StreamRec.handleDescribe st, env.describe.ok) else (st, true)

section

variable (parse : Bytes → Option Bytes)

/-- The path that `SetupUpstream` asks for. -/
def setupPath (streamPath track : Bytes) : Option Bytes :=
  if track = [] ∨ track = ascii "*" then some streamPath
  else if ascii "rtsp://" <+: track then parse track
  else some (trimRightSlash streamPath ++ [47] ++ trimLeftSlash track)

/-- `RTP/AVP/TCP;unicast;interleaved=2i-2i+1`. -/
def setupTransport (i : ℕ) : Bytes :=
  ascii "RTP/AVP/TCP;unicast;interleaved=" ++ itoa (i * 2) ++ [45] ++ itoa (i * 2 + 1)

/-- The transport that `SetupUpstream` takes for the track's. -/
def isTrack (streamPath track : Bytes) (t : Transport) : Bool :=
  t.substreamName == track || (track == [] && t.substreamName == fileBase streamPath) ||
    (track != [] && (t.substreamName == fileBase track || t.substreamName == track))

/-- The search of `SetupUpstream`: the SSRC and the session of the first transport that it takes for the
track's. -/
def Sessions.findTransport (ss : Sessions) (order : List Bytes) (streamPath track : Bytes) : Option (Bytes × Bytes) :=
  order.findSome? fun id => (ss.lookup id).bind fun session =>
    (session.transports.find? (isTrack streamPath track)).map fun t => (t.ssrc, id)

/-- The sessions after the `i`-th SETUP, of the URL path `path`, is answered. -/
def setupAnswered (env : Env) (i : ℕ) (path : Bytes) (ss : Sessions) : Sessions :=
  (env.setup i (newRequest (.setup (setupTransport i)) path).headers).handled.foldl (handleSetup env.conn path) ss

/-- `Remote.SetupUpstream` for the `i`-th track: the SSRC and the session it returns. -/
def setupUpstreamSsrc (env : Env) (streamPath : Bytes) (i : ℕ) (track : Bytes) (ss : Sessions) :
    Sessions × Except SetupError (Bytes × Bytes) :=
  match setupPath parse streamPath track with
  | none => (ss, .error .crashed)
  | some path =>
    let ss := setupAnswered env i path ss
    if (env.setup i (newRequest (.setup (setupTransport i)) path).headers).ok then
      match ss.findTransport (env.order i ss.keys) streamPath track with
      | some found => (ss, .ok found)
      | none => (ss, .error (.failed track))
    else (ss, .error (.failed track))

/-- What the SETUP loop takes of it: the session. (The SSRC is only logged.) -/
def setupUpstream (env : Env) (streamPath : Bytes) (i : ℕ) (track : Bytes) (ss : Sessions) :
    Sessions × Except SetupError Bytes :=
  ((setupUpstreamSsrc parse env streamPath i track ss).1,
    (setupUpstreamSsrc parse env streamPath i track ss).2.map Prod.snd)

/-- The SETUP loop, from the `i`-th track on, with the session id it has so far. -/
def setupLoop (env : Env) (streamPath : Bytes) : ℕ → List Bytes → Bytes → Sessions → Sessions × Except SetupError Bytes
  | _, [], id, ss => (ss, .ok id)
  | i, track :: tracks, _, ss =>
    match setupUpstream parse env streamPath i track ss with
    | (ss, .ok id) => setupLoop env streamPath (i + 1) tracks id ss
    | (ss, .error e) => (ss, .error e)

/-- The URLs in the `RTP-Info` of a response are URLs. -/
def rtpInfoOk (response : Response) : Bool :=
  let rtpInfo := headerGet response.headers (ascii "RTP-Info")
  rtpInfo == [] || (rtpInfo.splitOn 44).all fun rtp =>
    (parse ((paramMap (rtp.splitOn 59) (ascii "url")).getD [])).isSome

/-- `Remote.handlePlay` for the session `id`. -/
def handlePlay (id : Bytes) (ss : Sessions) (response : Response) : Option Sessions :=
  if rtpInfoOk parse response then some (ss.lookupSession id).2 else none

/-- `Remote.PlayUpstream`. -/
def playUpstream (env : Env) (id : Bytes) (ss : Sessions) : Sessions × Outcome :=
  match env.play.handled.foldlM (handlePlay parse id) ss with
  | none => (ss, .crashed)
  | some ss => (ss, if env.play.ok then .played id else .playFailed)

/-- `Stream.doConnectSequence`. -/
def doConnectSequence (st : StreamRec) (env : Env) : StreamRec × Outcome :=
  match st.getOptions env with
  | (st, false) => (st, .optionsFailed)
  | (st, true) =>
    match st.getSDP env with
    | (st, false) => (st, .describeFailed)
    | (st, true) =>
      match setupLoop parse env st.path 0 (parseTracks st.sdp) [] st.sessions with
      | (ss, .error e) => ({ st with sessions := ss }, .notSetUp e)
      | (ss, .ok id) =>
        match playUpstream parse env id ss with
        | (ss, outcome) => ({ st with sessions := ss }, outcome)

/-! ### The session alone -/

/-- The session of the first transport that `SetupUpstream` takes for the track's. -/
def Sessions.findTrack (ss : Sessions) (order : List Bytes) (streamPath track : Bytes) : Option Bytes :=
  (ss.findTransport order streamPath track).map Prod.snd

theorem findTrack_eq (ss : Sessions) (order : List Bytes) (streamPath track : Bytes) :
    ss.findTrack order streamPath track = order.find? fun id =>
      ((ss.lookup id).bind fun session => session.transports.find? (isTrack streamPath track)).isSome := by
  unfold Sessions.findTrack Sessions.findTransport
  induction order with
  | nil => rfl
  | cons id order ih =>
    rw [List.find?_cons, List.findSome?_cons, ← ih]
    cases ss.lookup id with
    | none => rfl
    | some session => cases hf : session.transports.find? (isTrack streamPath track) <;> simp [hf]

theorem setupUpstream_eq (env : Env) (streamPath : Bytes) (i : ℕ) (track : Bytes) (ss : Sessions) :
    setupUpstream parse env streamPath i track ss =
      match setupPath parse streamPath track with
      | none => (ss, .error .crashed)
      | some path =>
        if (env.setup i (newRequest (.setup (setupTransport i)) path).headers).ok then
          match (setupAnswered env i path ss).findTrack (env.order i (setupAnswered env i path ss).keys) streamPath
              track with
          | some id => (setupAnswered env i path ss, .ok id)
          | none => (setupAnswered env i path ss, .error (.failed track))
        else (setupAnswered env i path ss, .error (.failed track)) := by
  unfold setupUpstream setupUpstreamSsrc Sessions.findTrack
  cases setupPath parse streamPath track with
  | none => rfl
  | some path =>
    dsimp only
    split_ifs
    · generalize setupAnswered env i path ss = ss'
      cases ss'.findTransport (env.order i ss'.keys) streamPath track <;> rfl
    · rfl

end

end RtspProxy.Upstream
