import RtspProxy.Upstream.Reconnect
import RtspProxy.Theory.Split
import RtspProxy.Wire.Request

/-!
# What a camera's metadata can do to the connect sequence

The connect sequence takes apart what the camera sends: the controls of its SDP, and the `Transport`,
`Session` and `RTP-Info` headers of its responses. `Session` describes what it does with them. Here the
same functions are written with every index, slice and use of a URL checked, as Go checks them: where
the index is out of range, or the URL that `url.Parse` returned with an error is nil, the program
panics (`Fault`).

No index is ever out of range (`no_index_fault`). But the error of `url.Parse` is ignored twice: an
absolute control that is no URL gives `SendRequest` a request without one, and an `RTP-Info` with a bad
`url` is dereferenced by `handlePlay` (`crashes_on_bad_url`).

## The model

`parse` is `url.Parse`. The connection is open when a request is sent: with a closed one that cannot be
opened again `SendRequest` returns an error before it looks at the URL.

## What is proved

* `handleSetupChecked_eq`, `handlePlayChecked_eq`, `setupUpstreamChecked_eq` — each function does what
  `Session` says, and faults only on a nil URL.
* `doConnectSequenceChecked_eq` — so does the connect sequence.
* `no_fault_of_parsed` — **if every absolute track of the SDP and every `url` in the `RTP-Info` of a PLAY
  response is a URL, no step faults.**
-/

namespace RtspProxy.Upstream

open Theory Wire

/-! ### Checked operations -/

/-- Why the program panics. -/
inductive Fault where
  /-- A nil URL is dereferenced. -/
  | nilURL
  /-- An index or a slice is out of range. -/
  | index
  deriving DecidableEq, Repr

section
variable {α : Type}

/-- `xs[i]`. -/
def getAt (xs : List α) (i : ℕ) : Except Fault α :=
  match xs[i]? with
  | some x => .ok x
  | none => .error .index

/-- `xs[i:]`. -/
def sliceFrom (xs : List α) (i : ℕ) : Except Fault (List α) := if i ≤ xs.length then .ok (xs.drop i) else .error .index

/-- The elements that a loop over `xs[i:]` visits, if it is entered only with `len(xs) > i`. -/
def restFrom (xs : List α) (i : ℕ) : Except Fault (List α) := if i < xs.length then sliceFrom xs i else .ok []

@[simp] theorem getAt_zero (x : α) (xs : List α) : getAt (x :: xs) 0 = .ok x := rfl

@[simp] theorem getAt_one (x y : α) (xs : List α) : getAt (x :: y :: xs) 1 = .ok y := rfl

@[simp] theorem ok_bind {β : Type} (x : α) (f : α → Except Fault β) : (Except.ok x >>= f) = f x := rfl

theorem restFrom_eq (xs : List α) (i : ℕ) : restFrom xs i = .ok (xs.drop i) := by
  unfold restFrom sliceFrom
  split_ifs with h h'
  · rfl
  · exact absurd h.le h'
  · rw [List.drop_eq_nil_of_le (not_lt.mp h)]

/-- `*url`: what is there, if the URL is not nil. -/
def deref : Option α → Except Fault α
  | some x => .ok x
  | none => .error .nilURL

/-- A result, or the panic if it is one that only a nil URL leads to. -/
def orFault (crashed : α → Bool) (x : α) : Except Fault α := bif crashed x then .error .nilURL else .ok x

end

/-- `strings.SplitN(element, "=", 2)`. -/
def splitPair (element : Bytes) : List Bytes :=
  match cut 61 element with
  | (key, some value) => [key, value]
  | (key, none) => [key]

/-- One parameter of a header, put into a map. -/
def putParam (params : Bytes → Option Bytes) (element : Bytes) : Except Fault (Bytes → Option Bytes) :=
  let kv := splitPair element
  if kv.length = 2 then do
    let key ← getAt kv 0
    let value ← getAt kv 1
    return Function.update params key (some value)
  else return params

/-- The parameters of a header. -/
def paramMapChecked (elements : List Bytes) : Except Fault (Bytes → Option Bytes) :=
  elements.foldlM putParam fun _ => none

/-- `Remote.parseTransport`. -/
def parseTransportChecked (transportStr : Bytes) : Except Fault (Bytes × Bytes × (Bytes → Option Bytes)) :=
  if transportStr = [] then .ok ([], [], fun _ => none)
  else do
    let transportParts := transportStr.splitOn 59
    let protocol ← getAt transportParts 0
    let comType ← if 1 < transportParts.length then getAt transportParts 1 else pure (ascii "unicast")
    let elements ← restFrom transportParts 2
    let params ← paramMapChecked elements
    return (protocol, comType, params)

/-- What `Remote.handleSetup` assigns to the transport. -/
def assignChecked (params : Bytes → Option Bytes) : Except Fault (Transport → Transport) :=
  let ssrc := (params (ascii "ssrc")).getD []
  match params (ascii "interleaved") with
  | none => .ok fun t => { t with ssrc := ssrc }
  | some interleaved => do
    let channels := interleaved.splitOn 45
    let ch1 ← getAt channels 0
    if 1 < channels.length then do
      let ch2 ← getAt channels 1
      return fun t => { t with ssrc := ssrc, channels := (some (atoi ch1).1, some (atoi ch2).1) }
    else return fun t => { t with ssrc := ssrc, channels := (some (atoi ch1).1, t.channels.2) }

/-- One parameter of a `Session` header. -/
def setTimeout (timeout : ℤ) (element : Bytes) : Except Fault ℤ :=
  let kv := splitPair element
  if kv.length = 2 then do
    let key ← getAt kv 0
    if key = ascii "timeout" then do
      let value ← getAt kv 1
      return (atoi value).1
    else return timeout
  else return timeout

theorem putParam_eq (params : Bytes → Option Bytes) (element : Bytes) :
    putParam params element = .ok (match param element with
      | some kv => Function.update params kv.1 (some kv.2)
      | none => params) := by
  unfold putParam splitPair param
  cases hc : cut 61 element with
  | mk key value => cases value <;> rfl

theorem paramMapChecked_eq (elements : List Bytes) : paramMapChecked elements = .ok (paramMap elements) := by
  have hfold : ∀ (elements : List Bytes) (params : Bytes → Option Bytes),
      elements.foldlM putParam params = .ok fun key => (elements.filterMap param).foldl
        (fun found kv => if kv.1 = key then some kv.2 else found) (params key) := by
    intro elements
    induction elements with
    | nil => exact fun _ => rfl
    | cons element elements ih =>
      intro params
      rw [List.foldlM_cons, putParam_eq, ok_bind, ih]
      cases hp : param element with
      | none => simp [hp]
      | some kv => simp [hp, Function.update_apply, eq_comm]
  exact hfold elements fun _ => none

theorem parseTransportChecked_eq (transportStr : Bytes) :
    parseTransportChecked transportStr = .ok (parseTransport transportStr) := by
  unfold parseTransportChecked parseTransport
  split_ifs with h
  · rfl
  · match hs : transportStr.splitOn 59 with
    | [] => exact absurd hs (splitOn_ne_nil 59 transportStr)
    | [protocol] => simp [paramMapChecked_eq, restFrom_eq, pure, Except.pure]
    | protocol :: comType :: elements => simp [paramMapChecked_eq, restFrom_eq, pure, Except.pure]

theorem assignChecked_eq (params : Bytes → Option Bytes) : assignChecked params = .ok (Transport.assign params) := by
  unfold assignChecked Transport.assign
  cases params (ascii "interleaved") with
  | none => rfl
  | some interleaved =>
    match hs : interleaved.splitOn 45 with
    | [] => exact absurd hs (splitOn_ne_nil 45 interleaved)
    | [ch1] => simp [hs, pure, Except.pure]
    | ch1 :: ch2 :: _ => simp [hs, pure, Except.pure]

theorem setTimeout_eq (timeout : ℤ) (element : Bytes) :
    setTimeout timeout element = .ok (match param element with
      | some kv => if kv.1 = ascii "timeout" then (atoi kv.2).1 else timeout
      | none => timeout) := by
  unfold setTimeout splitPair param
  cases cut 61 element with
  | mk key value =>
    cases value with
    | none => rfl
    | some value =>
      by_cases hk : key = ascii "timeout"
      · simp [hk, pure, Except.pure]
      · simp [hk, pure, Except.pure]

theorem foldlM_setTimeout (elements : List Bytes) (timeout : ℤ) :
    elements.foldlM setTimeout timeout = .ok (match paramMap elements (ascii "timeout") with
      | some value => (atoi value).1
      | none => timeout) := by
  have hfold : ∀ (elements : List Bytes) (found : Option Bytes),
      elements.foldlM setTimeout (match found with | some value => (atoi value).1 | none => timeout) =
        .ok (match (elements.filterMap param).foldl
            (fun found kv => if kv.1 = ascii "timeout" then some kv.2 else found) found with
          | some value => (atoi value).1
          | none => timeout) := by
    intro elements
    induction elements with
    | nil => exact fun _ => rfl
    | cons element elements ih =>
      intro found
      rw [List.foldlM_cons, setTimeout_eq, ok_bind]
      cases hp : param element with
      | none =>
        rw [List.filterMap_cons_none hp]
        exact ih found
      | some kv =>
        rw [List.filterMap_cons_some hp, List.foldl_cons]
        by_cases hk : kv.1 = ascii "timeout"
        · simpa only [if_pos hk] using ih (some kv.2)
        · simpa only [if_neg hk] using ih found
  exact hfold elements none

/-! ### The handlers -/

/-- `Remote.handleSetup` for a request of this URL on the connection `conn`. -/
def handleSetupChecked (conn : ℕ) (url : Option URL) (ss : Sessions) (response : Response) : Except Fault Sessions := do
  let url ← deref url
  let substreamName := splitFile url.path
  let (protocol, comType, params) ← parseTransportChecked (headerGet response.headers (ascii "Transport"))
  let sessionParams := (headerGet response.headers (ascii "Session")).splitOn 59
  let id ← getAt sessionParams 0
  let (session, ss) := ss.lookupSession id
  let assign ← assignChecked params
  let transports := session.setTransport substreamName protocol comType conn assign
  let elements ← restFrom sessionParams 1
  let timeout ← elements.foldlM setTimeout session.timeout
  return ss.insert id { timeout := timeout, transports := transports }

/-- With a URL, `handleSetup` does what the model says, whatever the response. -/
theorem handleSetupChecked_eq (conn : ℕ) (url : URL) (ss : Sessions) (response : Response) :
    handleSetupChecked conn (some url) ss response = .ok (handleSetup conn url.path ss response) := by
  have hid : ∀ s : Bytes, getAt (s.splitOn 59) 0 = .ok ((s.splitOn 59).headD []) := by
    intro s
    cases hs : s.splitOn 59 with
    | nil => exact absurd hs (splitOn_ne_nil 59 s)
    | cons id rest => rfl
  unfold handleSetupChecked
  rw [deref, ok_bind, parseTransportChecked_eq, ok_bind]
  simp only [hid, restFrom_eq, ok_bind, assignChecked_eq, foldlM_setTimeout]
  rfl

section
variable (parse : Bytes → Option URL)

/-- The paths that `url.Parse` finds. -/
def pathOf (s : Bytes) : Option Bytes := (parse s).map URL.path

/-- One element of an `RTP-Info` header. -/
def rtpChecked (rtp : Bytes) : Except Fault Unit := do
  let params ← paramMapChecked (rtp.splitOn 59)
  let url ← deref (parse ((params (ascii "url")).getD []))
  let _substreamName := splitFile url.path
  return ()

/-- `Remote.handlePlay` for the session `id`. -/
def handlePlayChecked (id : Bytes) (ss : Sessions) (response : Response) : Except Fault Sessions :=
  let rtpInfo := headerGet response.headers (ascii "RTP-Info")
  let ss := (ss.lookupSession id).2
  if rtpInfo = [] then .ok ss
  else do
    forM (rtpInfo.splitOn 44) (rtpChecked parse)
    return ss

/-- The texts that an `RTP-Info` header gives as URLs. -/
def rtpURLs (response : Response) : List Bytes :=
  let rtpInfo := headerGet response.headers (ascii "RTP-Info")
  if rtpInfo = [] then []
  else (rtpInfo.splitOn 44).map fun rtp => (paramMap (rtp.splitOn 59) (ascii "url")).getD []

variable {parse}

theorem rtpChecked_eq (rtp : Bytes) : rtpChecked parse rtp =
    deref ((pathOf parse ((paramMap (rtp.splitOn 59) (ascii "url")).getD [])).map fun _ => ()) := by
  rw [rtpChecked, paramMapChecked_eq, ok_bind, pathOf]
  cases parse ((paramMap (rtp.splitOn 59) (ascii "url")).getD []) <;> rfl

theorem forM_rtpChecked (rtps : List Bytes) : forM rtps (rtpChecked parse) =
    if rtps.all fun rtp => (pathOf parse ((paramMap (rtp.splitOn 59) (ascii "url")).getD [])).isSome then .ok ()
    else .error .nilURL := by
  induction rtps with
  | nil => rfl
  | cons rtp rtps ih =>
    rw [List.forM_cons, ih, rtpChecked_eq]
    cases h : pathOf parse ((paramMap (rtp.splitOn 59) (ascii "url")).getD []) with
    | none => simp [h, deref, bind, Except.bind]
    | some path => simp [h, deref]

theorem handlePlayChecked_eq (id : Bytes) (ss : Sessions) (response : Response) :
    handlePlayChecked parse id ss response = deref (handlePlay (pathOf parse) id ss response) := by
  unfold handlePlayChecked handlePlay
  by_cases h : headerGet response.headers (ascii "RTP-Info") = []
  · simp [rtpInfoOk, h, deref]
  · have hok : rtpInfoOk (pathOf parse) response = (((headerGet response.headers (ascii "RTP-Info")).splitOn 44).all
        fun rtp => (pathOf parse ((paramMap (rtp.splitOn 59) (ascii "url")).getD [])).isSome) := by
      simp [rtpInfoOk, h]
    simp only [if_neg h, forM_rtpChecked, ← hok]
    split_ifs with hall
    · rfl
    · rfl

theorem rtpInfoOk_iff (response : Response) :
    rtpInfoOk (pathOf parse) response = true ↔ ∀ url ∈ rtpURLs response, parse url ≠ none := by
  unfold rtpInfoOk rtpURLs
  by_cases h : headerGet response.headers (ascii "RTP-Info") = []
  · simp [h]
  · simp [h, pathOf, Option.isSome_iff_ne_none]

end

/-! ### Sending a request -/

/-- `Request.GetURL`. -/
def getURL (url : URL) : URL :=
  let host := url.host.splitOn 58
  { url with username := [], password := [],
             host := if host[1]? = some (ascii "554") then host.headD [] else url.host }

/-- `Request.GetURL`. -/
def getURLChecked (url : Option URL) : Except Fault URL := do
  let url ← deref url
  let url := { url with username := [], password := [] }
  let host := url.host.splitOn 58
  if 1 < host.length then do
    let port ← getAt host 1
    if port = ascii "554" then do
      let name ← getAt host 0
      return { url with host := name }
    else return url
  else return url

theorem getURLChecked_eq (url : URL) : getURLChecked (some url) = .ok (getURL url) := by
  unfold getURLChecked getURL
  match hs : url.host.splitOn 58 with
  | [] => exact absurd hs (splitOn_ne_nil 58 url.host)
  | [name] => simp [deref, hs, pure, Except.pure]
  | name :: port :: _ =>
    by_cases hp : port = ascii "554"
    · simp [deref, hs, hp, pure, Except.pure]
    · simp [deref, hs, hp, pure, Except.pure]

/-! ### The connect sequence -/

section
variable (parse : Bytes → Option URL) (host : Bytes)

/-- The URL of a path at the camera. -/
def cameraURL (path : Bytes) : URL := ⟨[], [], host, path⟩

/-- The URL that `SetupUpstream` asks for. -/
def setupURL (streamPath track : Bytes) : Option URL :=
  if track = [] ∨ track = ascii "*" then some (cameraURL host streamPath)
  else if ascii "rtsp://" <+: track then parse track
  else some (cameraURL host (trimRightSlash streamPath ++ [47] ++ trimLeftSlash track))

/-- What `SetupUpstream` returns once the request is answered. -/
def setupFound (env : Env) (streamPath : Bytes) (i : ℕ) (track : Bytes) (ok : Bool) (ss : Sessions) :
    Sessions × Except SetupError Bytes :=
  if ok then
    match ss.findTrack (env.order i ss.keys) streamPath track with
    | some id => (ss, .ok id)
    | none => (ss, .error (.failed track))
  else (ss, .error (.failed track))

/-- A track was not set up because a nil URL was used. -/
def setupCrashed : Sessions × Except SetupError Bytes → Bool
  | (_, .error .crashed) => true
  | _ => false

/-- A connect sequence ended because a nil URL was used. -/
def Outcome.isCrash : Outcome → Bool
  | .crashed => true
  | .notSetUp .crashed => true
  | _ => false

/-- `Remote.SetupUpstream` for the `i`-th track. -/
def setupUpstreamChecked (env : Env) (streamPath : Bytes) (i : ℕ) (track : Bytes) (ss : Sessions) :
    Except Fault (Sessions × Except SetupError Bytes) := do
  let url := setupURL parse host streamPath track
  let sent ← getURLChecked url
  let exchange := env.setup i (newRequest (.setup (setupTransport i)) sent.path).headers
  let ss ← exchange.handled.foldlM (handleSetupChecked env.conn url) ss
  return setupFound env streamPath i track exchange.ok ss

/-- The SETUP loop, from the `i`-th track on, with the session id it has so far. -/
def setupLoopChecked (env : Env) (streamPath : Bytes) :
    ℕ → List Bytes → Bytes → Sessions → Except Fault (Sessions × Except SetupError Bytes)
  | _, [], id, ss => .ok (ss, .ok id)
  | i, track :: tracks, _, ss => do
    match ← setupUpstreamChecked parse host env streamPath i track ss with
    | (ss, .ok id) => setupLoopChecked env streamPath (i + 1) tracks id ss
    | (ss, .error e) => return (ss, .error e)

/-- `Remote.PlayUpstream`. -/
def playUpstreamChecked (env : Env) (path id : Bytes) (ss : Sessions) : Except Fault (Sessions × Outcome) := do
  let _sent ← getURLChecked (some (cameraURL host path))
  let ss ← env.play.handled.foldlM (handlePlayChecked parse id) ss
  return (ss, if env.play.ok then .played id else .playFailed)

/-- `Remote.GetOptions`. -/
def getOptionsChecked (st : StreamRec) (env : Env) : Except Fault (StreamRec × Bool) :=
  if st.options = [] then do
    let _sent ← getURLChecked (some (cameraURL host st.path))
    return (env.options.handled.foldl StreamRec.handleOptions st, env.options.ok)
  else .ok (st, true)

/-- `Remote.GetSDP`. -/
def getSDPChecked (st : StreamRec) (env : Env) : Except Fault (StreamRec × Bool) :=
  if st.sdp = [] then do
    let _sent ← getURLChecked (some (cameraURL host st.path))
    return (env.describe.handled.foldl StreamRec.handleDescribe st, env.describe.ok)
  else .ok (st, true)

/-- `Stream.doConnectSequence`. -/
def doConnectSequenceChecked (st : StreamRec) (env : Env) : Except Fault (StreamRec × Outcome) := do
  match ← getOptionsChecked host st env with
  | (st, false) => return (st, .optionsFailed)
  | (st, true) =>
    match ← getSDPChecked host st env with
    | (st, false) => return (st, .describeFailed)
    | (st, true) =>
      match ← setupLoopChecked parse host env st.path 0 (parseTracks st.sdp) [] st.sessions with
      | (ss, .error e) => return ({ st with sessions := ss }, .notSetUp e)
      | (ss, .ok id) =>
        let (ss, outcome) ← playUpstreamChecked parse host env st.path id ss
        return ({ st with sessions := ss }, outcome)

variable {parse host}

theorem map_path_setupURL (streamPath track : Bytes) :
    (setupURL parse host streamPath track).map URL.path = setupPath (pathOf parse) streamPath track := by
  unfold setupURL setupPath
  split_ifs <;> rfl

theorem foldlM_handleSetupChecked (conn : ℕ) (url : URL) (handled : List Response) (ss : Sessions) :
    handled.foldlM (handleSetupChecked conn (some url)) ss = .ok (handled.foldl (handleSetup conn url.path) ss) := by
  induction handled generalizing ss with
  | nil => rfl
  | cons response handled ih => rw [List.foldlM_cons, handleSetupChecked_eq, ok_bind, ih, List.foldl_cons]

theorem setupFound_not_crashed (env : Env) (streamPath : Bytes) (i : ℕ) (track : Bytes) (ok : Bool) (ss : Sessions) :
    setupCrashed (setupFound env streamPath i track ok ss) = false := by
  unfold setupFound
  split_ifs
  · cases ss.findTrack (env.order i ss.keys) streamPath track <;> rfl
  · rfl

variable (host) in
theorem setupUpstream_crashed (env : Env) (streamPath : Bytes) (i : ℕ) (track : Bytes) (ss : Sessions) :
    setupCrashed (setupUpstream (pathOf parse) env streamPath i track ss) =
      (setupURL parse host streamPath track).isNone := by
  rw [setupUpstream_eq]
  rw [← map_path_setupURL]
  cases setupURL parse host streamPath track with
  | none => rfl
  | some url => exact setupFound_not_crashed env streamPath i track _ _

/-- `SetupUpstream` does what the model says. -/
theorem setupUpstreamChecked_eq (env : Env) (streamPath : Bytes) (i : ℕ) (track : Bytes) (ss : Sessions) :
    setupUpstreamChecked parse host env streamPath i track ss =
      orFault setupCrashed (setupUpstream (pathOf parse) env streamPath i track ss) := by
  rw [orFault, setupUpstream_crashed host]
  rw [setupUpstream_eq]
  unfold setupUpstreamChecked
  rw [← map_path_setupURL]
  cases setupURL parse host streamPath track with
  | none => rfl
  | some url =>
    simp only [getURLChecked_eq, ok_bind, foldlM_handleSetupChecked]
    rfl

theorem setupLoopChecked_eq (env : Env) (streamPath : Bytes) (tracks : List Bytes) (i : ℕ) (id : Bytes)
    (ss : Sessions) :
    setupLoopChecked parse host env streamPath i tracks id ss =
      orFault setupCrashed (setupLoop (pathOf parse) env streamPath i tracks id ss) := by
  induction tracks generalizing i id ss with
  | nil => rfl
  | cons track tracks ih =>
    rw [setupLoopChecked, setupUpstreamChecked_eq, setupLoop]
    rcases setupUpstream (pathOf parse) env streamPath i track ss with ⟨ss', e | id'⟩
    · cases e <;> rfl
    · exact ih (i + 1) id' ss'

theorem foldlM_handlePlayChecked (id : Bytes) (handled : List Response) (ss : Sessions) :
    handled.foldlM (handlePlayChecked parse id) ss = deref (handled.foldlM (handlePlay (pathOf parse) id) ss) := by
  induction handled generalizing ss with
  | nil => rfl
  | cons response handled ih =>
    rw [List.foldlM_cons, List.foldlM_cons, handlePlayChecked_eq]
    cases handlePlay (pathOf parse) id ss response with
    | none => rfl
    | some ss' => exact ih ss'

theorem playUpstreamChecked_eq (env : Env) (path id : Bytes) (ss : Sessions) :
    playUpstreamChecked parse host env path id ss =
      orFault (fun r => r.2.isCrash) (playUpstream (pathOf parse) env id ss) := by
  unfold playUpstreamChecked playUpstream
  rw [getURLChecked_eq, ok_bind, foldlM_handlePlayChecked]
  cases env.play.handled.foldlM (handlePlay (pathOf parse) id) ss with
  | none => rfl
  | some ss' => cases env.play.ok <;> rfl

theorem getOptionsChecked_eq (st : StreamRec) (env : Env) :
    getOptionsChecked host st env = .ok (st.getOptions env) := by
  unfold getOptionsChecked StreamRec.getOptions
  split_ifs
  · rw [getURLChecked_eq]
    rfl
  · rfl

theorem getSDPChecked_eq (st : StreamRec) (env : Env) : getSDPChecked host st env = .ok (st.getSDP env) := by
  unfold getSDPChecked StreamRec.getSDP
  split_ifs
  · rw [getURLChecked_eq]
    rfl
  · rfl

/-- The connect sequence does what the model says. -/
theorem doConnectSequenceChecked_eq (st : StreamRec) (env : Env) :
    doConnectSequenceChecked parse host st env =
      orFault (fun r => r.2.isCrash) (doConnectSequence (pathOf parse) st env) := by
  unfold doConnectSequenceChecked doConnectSequence
  rw [getOptionsChecked_eq, ok_bind]
  rcases st.getOptions env with ⟨st, _ | _⟩
  · rfl
  · simp only [getSDPChecked_eq, ok_bind, setupLoopChecked_eq]
    rcases st.getSDP env with ⟨st, _ | _⟩
    · rfl
    · dsimp only
      rcases setupLoop (pathOf parse) env st.path 0 (parseTracks st.sdp) [] st.sessions with ⟨ss, e | id⟩
      · cases e <;> rfl
      · simp only [orFault, setupCrashed, cond_false, ok_bind, playUpstreamChecked_eq]
        obtain ⟨ss, outcome⟩ := playUpstream (pathOf parse) env id ss
        cases h : outcome.isCrash <;> simp

/-! ### When nothing faults -/

theorem orFault_ne_index {α : Type} (crashed : α → Bool) (x : α) : orFault crashed x ≠ .error .index := by
  unfold orFault
  cases crashed x <;> simp

/-- No index is out of range, whatever the camera sends. -/
theorem no_index_fault (parse : Bytes → Option URL) (host : Bytes) (st : StreamRec) (env : Env) :
    doConnectSequenceChecked parse host st env ≠ .error .index := by
  rw [doConnectSequenceChecked_eq]
  exact orFault_ne_index _ _

theorem exists_orFault_iff {α : Type} {crashed : α → Bool} {x : α} :
    (∃ r, orFault crashed x = .ok r) ↔ crashed x = false := by
  unfold orFault
  cases crashed x <;> simp

/-- The URL of a SETUP is nil only if it is an absolute control that is no URL. -/
theorem setupURL_eq_none_iff {streamPath track : Bytes} :
    setupURL parse host streamPath track = none ↔ ascii "rtsp://" <+: track ∧ parse track = none := by
  unfold setupURL
  split_ifs with h h'
  · refine iff_of_false (by simp) fun hp => ?_
    rcases h with rfl | rfl
    · exact absurd hp.1 (by decide)
    · exact absurd hp.1 (by decide)
  · exact (and_iff_right h').symm
  · exact iff_of_false (by simp) fun hp => h' hp.1

/-- No track of a loop without an absolute control that is no URL crashes it. -/
theorem setupLoop_not_crashed (env : Env) (streamPath : Bytes) (tracks : List Bytes)
    (h : ∀ track ∈ tracks, ascii "rtsp://" <+: track → parse track ≠ none) (i : ℕ) (id : Bytes) (ss : Sessions) :
    setupCrashed (setupLoop (pathOf parse) env streamPath i tracks id ss) = false := by
  induction tracks generalizing i id ss with
  | nil => rfl
  | cons track tracks ih =>
    obtain ⟨htrack, htracks⟩ := List.forall_mem_cons.mp h
    have hup : setupCrashed (setupUpstream (pathOf parse) env streamPath i track ss) = false := by
      rw [setupUpstream_crashed [], Option.isNone_eq_false_iff, Option.isSome_iff_ne_none]
      exact fun hnone => htrack (setupURL_eq_none_iff.mp hnone).1 (setupURL_eq_none_iff.mp hnone).2
    rw [setupLoop]
    rcases hresult : setupUpstream (pathOf parse) env streamPath i track ss with ⟨ss', e | id'⟩
    · rwa [hresult] at hup
    · exact ih htracks (i + 1) id' ss'

theorem foldlM_handlePlay_ne_none {id : Bytes} {handled : List Response}
    (h : ∀ response ∈ handled, ∀ url ∈ rtpURLs response, parse url ≠ none) (ss : Sessions) :
    handled.foldlM (handlePlay (pathOf parse) id) ss ≠ none := by
  induction handled generalizing ss with
  | nil => exact Option.some_ne_none ss
  | cons response handled ih =>
    obtain ⟨hresponse, hhandled⟩ := List.forall_mem_cons.mp h
    rw [List.foldlM_cons, handlePlay, if_pos ((rtpInfoOk_iff response).mpr hresponse)]
    exact ih hhandled _

theorem playUpstream_not_crashed {env : Env}
    (h : ∀ response ∈ env.play.handled, ∀ url ∈ rtpURLs response, parse url ≠ none) (id : Bytes) (ss : Sessions) :
    (playUpstream (pathOf parse) env id ss).2.isCrash = false := by
  unfold playUpstream
  cases hp : env.play.handled.foldlM (handlePlay (pathOf parse) id) ss with
  | none => exact absurd hp (foldlM_handlePlay_ne_none h ss)
  | some ss' => cases env.play.ok <;> rfl

theorem doConnectSequence_not_crashed {st : StreamRec} {env : Env}
    (hsdp : ∀ track ∈ parseTracks (sdpFor st env), ascii "rtsp://" <+: track → parse track ≠ none)
    (hplay : ∀ response ∈ env.play.handled, ∀ url ∈ rtpURLs response, parse url ≠ none) :
    (doConnectSequence (pathOf parse) st env).2.isCrash = false := by
  obtain ⟨o, v, ho⟩ := getOptions_eq st env
  have hoptions : st.getOptions env = ({ st with options := o, server := v }, (st.getOptions env).2) := Prod.ext ho rfl
  rw [doConnectSequence, hoptions]
  cases (st.getOptions env).2 with
  | false => rfl
  | true =>
    dsimp only
    have hs := getSDP_eq { st with options := o, server := v } env
    have hdescribe : ({ st with options := o, server := v } : StreamRec).getSDP env =
        ({ st with options := o, server := v, sdp := sdpFor st env },
          (({ st with options := o, server := v } : StreamRec).getSDP env).2) := Prod.ext hs rfl
    rw [hdescribe]
    cases (({ st with options := o, server := v } : StreamRec).getSDP env).2 with
    | false => rfl
    | true =>
      dsimp only
      have hloop := setupLoop_not_crashed env st.path _ hsdp 0 [] st.sessions
      rcases hresult : setupLoop (pathOf parse) env st.path 0 (parseTracks (sdpFor st env)) [] st.sessions with
        ⟨ss, e | id⟩
      · rw [hresult] at hloop
        cases e with
        | crashed => exact hloop
        | failed track => rfl
      · exact playUpstream_not_crashed hplay id ss

end

/-- **A connect sequence does not fault if every absolute track of its SDP is a URL, and every `url` in
the `RTP-Info` of a PLAY response. Step by step that is exact: a SETUP is safe exactly when its track is
a URL, if absolute, and a PLAY response exactly when every `url` is one; a SETUP response always is.** -/
theorem no_fault_of_parsed (parse : Bytes → Option URL) (host : Bytes) :
    (∀ st env, (∀ track ∈ parseTracks (sdpFor st env), ascii "rtsp://" <+: track → parse track ≠ none) →
      (∀ response ∈ env.play.handled, ∀ url ∈ rtpURLs response, parse url ≠ none) →
      ∃ r, doConnectSequenceChecked parse host st env = .ok r) ∧
    (∀ env streamPath i track ss, (∃ r, setupUpstreamChecked parse host env streamPath i track ss = .ok r) ↔
      (ascii "rtsp://" <+: track → parse track ≠ none)) ∧
    (∀ id ss response, (∃ ss', handlePlayChecked parse id ss response = .ok ss') ↔
      ∀ url ∈ rtpURLs response, parse url ≠ none) ∧
    ∀ conn url ss response, ∃ ss', handleSetupChecked conn (some url) ss response = .ok ss' := by
  refine ⟨fun st env hsdp hplay => ?_, fun env streamPath i track ss => ?_, fun id ss response => ?_,
    fun conn url ss response => ?_⟩
  · rw [doConnectSequenceChecked_eq, exists_orFault_iff]
    exact doConnectSequence_not_crashed hsdp hplay
  · rw [setupUpstreamChecked_eq, exists_orFault_iff, setupUpstream_crashed host, Option.isNone_eq_false_iff,
      Option.isSome_iff_ne_none, ne_eq, setupURL_eq_none_iff, not_and]
  · rw [handlePlayChecked_eq, ← rtpInfoOk_iff, handlePlay]
    cases rtpInfoOk (pathOf parse) response <;> simp [deref]
  · exact ⟨_, handleSetupChecked_eq conn url ss response⟩

/-- `url.Parse` as far as the texts below need it: it refuses a percent sign that no two hex digits
follow. -/
def parseSample (s : Bytes) : Option URL :=
  if 37 ∈ s then none else some (cameraURL (ascii "cam") (ascii "/live/track1"))

/-- A camera that answers PLAY with this response. -/
def playEnv (sdp : Bytes) (response : Response) : Env :=
  { plainEnv 1 true sdp (fun _ => ascii "AAA") with play := ⟨[response], true⟩ }

/-- A PLAY response with an `RTP-Info`. -/
def playText (url : String) : Bytes := ascii "RTSP/1.0 200 OK\r\nRTP-Info: url=" ++ ascii url ++ ascii ";seq=1\r\n\r\n"

/-- The response to it. -/
def playResponse (url : String) : Response :=
  ⟨ascii "OK", ascii "RTSP/1.0", 200, [(ascii "Rtp-Info", ascii "url=" ++ ascii url ++ ascii ";seq=1")], []⟩

/-- An absolute track and an `RTP-Info` that are URLs. -/
theorem no_fault_of_parsed_track1 :
    ∃ r, doConnectSequenceChecked parseSample (ascii "cam") freshStream
      (playEnv (ascii "m=video\na=control:rtsp://cam/live/track1") (playResponse "rtsp://cam/live/track1")) = .ok r :=
  (no_fault_of_parsed parseSample (ascii "cam")).1 _ _ (by decide +kernel) (by decide +kernel)

/-- An absolute control that is no URL panics in `GetURL`, and an `RTP-Info` with a `url` that is none in
`handlePlay`. -/
theorem crashes_on_bad_url :
    doConnectSequenceChecked parseSample (ascii "cam") freshStream
      (plainEnv 1 true (ascii "m=video\na=control:rtsp://%zz") fun _ => ascii "AAA") = .error .nilURL ∧
    newResponseFromBuffer (playText "rtsp://%zz") = .ok (playResponse "rtsp://%zz") ∧
    doConnectSequenceChecked parseSample (ascii "cam") freshStream
      (playEnv (ascii "m=video\na=control:track1") (playResponse "rtsp://%zz")) = .error .nilURL := by
  refine ⟨?_, by decide +kernel, ?_⟩
  · have hcrash : (doConnectSequence (pathOf parseSample) freshStream
        (plainEnv 1 true (ascii "m=video\na=control:rtsp://%zz") fun _ => ascii "AAA")).2.isCrash = true := by
      decide +kernel
    rw [doConnectSequenceChecked_eq, orFault, hcrash, cond_true]
  · have hcrash : (doConnectSequence (pathOf parseSample) freshStream
        (playEnv (ascii "m=video\na=control:track1") (playResponse "rtsp://%zz"))).2.isCrash = true := by
      decide +kernel
    rw [doConnectSequenceChecked_eq, orFault, hcrash, cond_true]

end RtspProxy.Upstream
