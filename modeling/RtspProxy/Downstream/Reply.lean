import RtspProxy.Downstream.Client
import RtspProxy.Wire.Framed

/-!
# The replies to a client

A client's connection carries the replies of the request handler and the frames of the writer, each of them
written by one `Write`. Most of what is in a reply is not the proxy's own: options, server and session come
from the camera, the range, the session and the `CSeq` from the request, the path from the URL.

## The model

The handler is `Conn`, with the stream as its requests find it. A header map is written in any order. What
the reader of the replies does is what the proxy itself does with the replies of a camera: `readLoop` cuts
messages and frames out of the stream, `NewResponseFromBuffer` parses the messages. So this is about one
proxy behind another as well.

## What is proved

* `Legible` — a status of the proxy, the proxy's keys, each once, values of one line, and a body of the
  declared length.
* `legible_of_run` — every reply of every run is legible, if the texts of the stream (its path among them, in
  which `%0D%0A` stands decoded) and the two addresses are of one line.
* `reply_read` — **every reply is read as it was meant**, in whatever order its headers are written.
* `downstream_read` — **replies and frames, in any order and cut in any way, are found and read**, if besides
  each of them fits the reader's buffer and no text in a reply contains `content-length:`.
-/

namespace RtspProxy.Downstream

open Theory Wire

/-! ### Legible replies -/

/-- The keys of the replies, without the one that says how long the body is. -/
@[simp] def plainKeys : List Bytes :=
  [ascii "Public", ascii "Server", ascii "Content-Type", ascii "Transport", ascii "Supported",
    ascii "Cache-Control", ascii "Session", ascii "Range", ascii "RTP-Info", ascii "Via", ascii "CSeq"]

/-- The keys of the replies. -/
def replyKeys : List Bytes := ascii "Content-Length" :: plainKeys

theorem ne_length_of_plain : ∀ key ∈ plainKeys, key ≠ ascii "Content-Length" := by decide

/-- The codes of the replies and their texts. -/
@[simp] def replyStatuses : List (ℤ × Bytes) :=
  [(200, ascii "OK"), (400, ascii "Bad Request"), (404, ascii "Stream Not Found"),
    (461, ascii "Unsupported Transport")]

/-- A reply that can be read. -/
structure Legible (r : Response) : Prop where
  /-- The protocol's version. -/
  version : r.protocolVersion = ascii "RTSP/1.0"
  /-- One of the proxy's codes. -/
  status : (r.code, r.status) ∈ replyStatuses
  /-- The proxy's keys. -/
  key : ∀ kv ∈ r.headers, kv.1 ∈ replyKeys
  /-- Each key once. -/
  nodup : (r.headers.map Prod.fst).Nodup
  /-- Values of one line. -/
  value : ∀ kv ∈ r.headers, OneLine kv.2
  /-- The body is as long as the headers say. -/
  length : r.body.length < 2 ^ 63 ∧ (r.body = [] ∧ (∀ kv ∈ r.headers, kv.1 ≠ ascii "Content-Length") ∨
    lengthHeader r.body.length ∈ r.headers)

theorem mem_set_of_ne {headers : Headers} {key value : Bytes} {kv : Bytes × Bytes} (h : kv ∈ headers)
    (hne : kv.1 ≠ key) : kv ∈ headers.set key value := by
  unfold Headers.set
  split_ifs
  · exact List.mem_map.mpr ⟨kv, h, by simp [hne]⟩
  · exact List.mem_append_left _ h

variable {r : Response}

theorem legible_newResponse {code : ℤ} {status : String} (h : (code, ascii status) ∈ replyStatuses) :
    Legible (newResponse code status) :=
  ⟨rfl, h, by simp [newResponse], by simp [newResponse], by simp [newResponse],
    by simp [newResponse], .inl ⟨rfl, by simp [newResponse]⟩⟩

theorem legible_ok : Legible (newResponse 200 "OK") := legible_newResponse (by simp)

theorem legible_badRequest : Legible responseBadRequest := legible_newResponse (by simp)

theorem legible_notFound : Legible responseNotFound := legible_newResponse (by simp)

theorem Legible.withHeader (h : Legible r) {key : String} {value : Bytes} (hkey : ascii key ∈ plainKeys)
    (hvalue : OneLine value) : Legible (withHeader r key value) := by
  have hlength := ne_length_of_plain _ hkey
  refine ⟨h.version, h.status, fun kv hkv => ?_, nodup_keys_set h.nodup _ _, fun kv hkv => ?_, h.length.1, ?_⟩
  · rcases mem_of_mem_set hkv with hkv | rfl
    · exact h.key kv hkv
    · exact List.mem_cons_of_mem _ hkey
  · rcases mem_of_mem_set hkv with hkv | rfl
    · exact h.value kv hkv
    · exact hvalue
  · rcases h.length.2 with ⟨hbody, hnone⟩ | hmem
    · refine .inl ⟨hbody, fun kv hkv => ?_⟩
      rcases mem_of_mem_set hkv with hkv | rfl
      · exact hnone kv hkv
      · exact hlength
    · exact .inr (mem_set_of_ne hmem hlength.symm)

theorem Legible.withBody (h : Legible r) {body : Bytes} (hlt : body.length < 2 ^ 63) :
    Legible { Downstream.withHeader r "Content-Length" (itoa body.length) with body := body } := by
  refine ⟨h.version, h.status, fun kv hkv => ?_, nodup_keys_set h.nodup _ _, fun kv hkv => ?_, hlt, .inr ?_⟩
  · rcases mem_of_mem_set hkv with hkv | rfl
    · exact h.key kv hkv
    · exact List.mem_cons_self
  · rcases mem_of_mem_set hkv with hkv | rfl
    · exact h.value kv hkv
    · exact oneLine_itoa _
  · apply mem_of_find
    rw [Downstream.withHeader, Headers.find_set, if_pos rfl]

/-! ### What the handlers reply -/

/-- The stream's texts are of one line, and its SDP fits a string. -/
structure StreamView.Plain (localAddr : Bytes) (view : StreamView) : Prop where
  /-- `GetOptions()`. -/
  options : OneLine view.options
  server : OneLine view.server
  path : OneLine view.path
  transports : ∀ t ∈ view.transports, OneLine t.2.ssrc ∧ OneLine t.1
  sdp : (replaceAll (ascii "0.0.0.0") (shownIP localAddr) view.sdp).length < 2 ^ 63

/-- What is left of a text of one line is of one line. -/
theorem mem_replaceMatches {m : Bytes → Option ℕ} {k : ℕ} {s : Bytes} {c : UInt8}
    (h : c ∈ replaceMatches m [] k s) : c ∈ s := by
  fun_induction replaceMatches m [] k s with
  | case1 => exact h
  | case2 k b s ih => exact List.mem_cons_of_mem _ (ih h)
  | case3 b s n _ ih => exact List.mem_cons_of_mem _ (ih (by simpa using h))
  | case4 b s _ ih =>
    rcases List.mem_cons.mp h with rfl | h
    · exact List.mem_cons_self
    · exact List.mem_cons_of_mem _ (ih h)

theorem oneLine_publicMethods : OneLine publicMethods := by decide +kernel

section
variable {client : Client} {view : StreamView} {request : Request} (hview : view.Plain client.localAddr)
  (hlocal : OneLine client.localAddr) (hremote : OneLine client.remoteAddr)
  (hrequest : ∀ key, Normal (headerGet request.headers key))

include hlocal in
theorem oneLine_shownIP : OneLine (shownIP client.localAddr) := by
  unfold shownIP
  split_ifs
  · decide
  · exact hlocal

include hview in
theorem legible_describe : Legible (handleDescribe client view) := by
  have hreply : Legible (describeReply client view) :=
    ((legible_ok.withHeader (by simp) (by decide)).withHeader (by simp) hview.server).withBody hview.sdp
  unfold handleDescribe
  split
  · exact legible_badRequest
  · split_ifs
    · exact legible_notFound
    · exact hreply
  · split_ifs
    · exact legible_badRequest
    · exact hreply

include hview hlocal hremote hrequest in
theorem legible_setup : Legible (handleSetup client view request) := by
  have hreply : ∀ upstream ∈ view.transports,
      Legible (setupReply client view (headerGet request.headers (ascii "Transport")) upstream.1 upstream.2) := by
    intro upstream hup
    obtain ⟨hssrc, hsession⟩ := hview.transports upstream hup
    have hclean : OneLine (replaceMatches matchAddress [] 0 (headerGet request.headers (ascii "Transport"))) :=
      fun c hc => (hrequest _).oneLine c (mem_replaceMatches hc)
    refine (((legible_ok.withHeader (by simp) ?_).withHeader (by simp) (by decide)).withHeader (by simp) ?_).withHeader
      (by simp) hview.server
    · simp only [oneLine_append]
      exact ⟨⟨⟨⟨⟨⟨hclean, by decide⟩, hssrc⟩, by decide⟩, hremote⟩, by decide⟩, oneLine_shownIP hlocal⟩
    · exact oneLine_append.mpr ⟨hsession, by decide⟩
  unfold handleSetup
  dsimp only
  split
  · exact legible_badRequest
  · split_ifs
    · exact legible_notFound
    · split
      · exact legible_badRequest
      · rename_i session upstream hfind
        exact hreply (session, upstream) (List.mem_of_find?_eq_some hfind)
  · split_ifs
    · split
      · exact legible_badRequest
      · rename_i session upstream hfind
        exact hreply (session, upstream) (List.mem_of_find?_eq_some hfind)
    · exact legible_badRequest

include hview hlocal hremote hrequest in
/-- **Every handler's reply is legible.** -/
theorem legible_dispatchMethod : Legible (dispatchMethod client view request) := by
  have hsession : Legible (sessionReply view request) :=
    (legible_ok.withHeader (by simp) (hrequest _).oneLine).withHeader (by simp) hview.server
  unfold dispatchMethod
  split_ifs
  · refine (legible_ok.withHeader (by simp) ?_).withHeader (by simp) hview.server
    split_ifs
    · exact hview.options
    · exact oneLine_publicMethods
  · exact legible_describe hview
  · exact ((legible_newResponse (by simp)).withHeader (by simp) (by decide)).withHeader (by simp) (by decide)
  · exact legible_setup hview hlocal hremote hrequest
  · refine (((legible_ok.withHeader (by simp) (hrequest _).oneLine).withHeader (by simp)
      (hrequest _).oneLine).withHeader (by simp) hview.server).withHeader (by simp) ?_
    simp only [oneLine_append]
    exact ⟨⟨⟨by decide, oneLine_shownIP hlocal⟩, hview.path⟩, by decide⟩
  · exact hsession
  · exact hsession
  · exact legible_badRequest

include hrequest in
theorem Legible.finish (h : Legible r) : Legible (finishReply r request) := by
  have hvia : Legible (Downstream.withHeader r "Via" (ascii "RTSP-Proxy")) := h.withHeader (by simp) (by decide)
  unfold finishReply
  dsimp only
  split_ifs
  · exact (hvia.withHeader (by simp) (hrequest _).oneLine).withHeader (by simp) (by decide)
  · exact hvia.withHeader (by simp) (hrequest _).oneLine
  · exact hvia.withHeader (by simp) (by decide)
  · exact hvia

include hrequest in
theorem legible_probeReply : Legible (probeReply request) :=
  ((legible_ok.withHeader (by simp) oneLine_publicMethods).withHeader (by simp) (by decide)).withHeader (by simp)
    (hrequest _).oneLine

end

/-! ### Every reply of a run -/

/-- The address and the peer of a client do not change. -/
theorem resolve_addr {c c' : Client} {request request' : Request} (h : c.resolve request = some (c', request')) :
    c'.localAddr = c.localAddr ∧ c'.remoteAddr = c.remoteAddr := by
  have hlogin : ∀ (c : Client) (host : Bytes),
      (c.login host).localAddr = c.localAddr ∧ (c.login host).remoteAddr = c.remoteAddr := by
    intro c host
    unfold Client.login
    split
    · split <;> exact ⟨rfl, rfl⟩
    · exact ⟨rfl, rfl⟩
  unfold Client.resolve at h
  by_cases hhost : c.host = []
  · rw [if_neg (not_not.mpr hhost)] at h
    dsimp only at h
    split at h
    · cases h
      exact hlogin _ _
    · split_ifs at h
      cases h
      exact hlogin _ _
  · rw [if_pos hhost] at h
    cases h
    exact ⟨rfl, rfl⟩

section
variable {parse : Bytes → Option URL} {localAddr remoteAddr : Bytes}

/-- The header values of a request are in normal form. -/
theorem normal_request {text : Bytes} {request : Request} (h : newRequestFromBuffer parse text = .ok request)
    (key : Bytes) : Normal (headerGet request.headers key) := by
  obtain ⟨command, headers, rest, -, hloop, rfl⟩ := parseRequest_ok h
  exact normal_headerGet (normal_headerLoop hloop (by simp)) key

/-- The reply is legible and has the `CSeq` of the request in the text. -/
def RepliesTo (parse : Bytes → Option URL) (text : Bytes) (reply : Response) : Prop :=
  ∃ request, newRequestFromBuffer parse text = .ok request ∧ Legible reply ∧
    headerGet reply.headers (ascii "CSeq") = headerGet request.headers (ascii "CSeq")

/-- What every run keeps. -/
structure Conn.Answered (parse : Bytes → Option URL) (localAddr remoteAddr : Bytes) (s : Conn) : Prop where
  /-- The addresses. -/
  addr : s.client.localAddr = localAddr ∧ s.client.remoteAddr = remoteAddr
  replies : ∀ text reply, .request text reply ∈ s.events → RepliesTo parse text reply

/-- The views that the requests of an arrival meet are plain. -/
def Arrival.Plain (localAddr : Bytes) : Arrival → Prop
  | .bytes _ view => view.Plain localAddr
  | _ => True

variable {s : Conn}

theorem Conn.Answered.readHeader (hs : s.Answered parse localAddr remoteAddr) :
    s.readHeader.Answered parse localAddr remoteAddr := by
  unfold Conn.readHeader
  split
  · unfold Conn.readData
    split_ifs
    · exact ⟨hs.addr, hs.replies⟩
    · exact ⟨hs.addr, by simpa using hs.replies⟩
  · exact ⟨hs.addr, hs.replies⟩

theorem Conn.Answered.readData (hs : s.Answered parse localAddr remoteAddr) (tcpChannel : UInt8) (n : ℕ) :
    (s.readData tcpChannel n).Answered parse localAddr remoteAddr := by
  unfold Conn.readData
  split_ifs
  · exact ⟨hs.addr, hs.replies⟩
  · exact ⟨hs.addr, by simpa using hs.replies⟩

theorem Conn.Answered.request (hs : s.Answered parse localAddr remoteAddr) (hlocal : OneLine localAddr)
    (hremote : OneLine remoteAddr) {view : StreamView} (hview : view.Plain localAddr) :
    (s.request parse view).Answered parse localAddr remoteAddr := by
  unfold Conn.request
  dsimp only
  cases hparse : newRequestFromBuffer parse s.buffer with
  | error e => exact ⟨hs.addr, hs.replies⟩
  | ok request =>
    have hnormal := normal_request hparse
    have hjoin : ∀ {reply : Response}, RepliesTo parse s.buffer reply → ∀ text reply',
        .request text reply' ∈ s.events ++ [.request s.buffer reply] → RepliesTo parse text reply' := by
      intro reply hreply text reply' hmem
      rcases List.mem_append.mp hmem with hmem | hmem
      · exact hs.replies text reply' hmem
      · cases List.mem_singleton.mp hmem
        exact hreply
    simp only
    cases hresolve : s.client.resolve request with
    | none => exact ⟨hs.addr, hjoin ⟨request, hparse, legible_probeReply hnormal, probeReply_cseq request⟩⟩
    | some target =>
      obtain ⟨client, request'⟩ := target
      have hheaders := resolve_headers hresolve
      obtain ⟨hl, hr⟩ := resolve_addr hresolve
      rw [hs.addr.1] at hl
      rw [hs.addr.2] at hr
      have hnormal' : ∀ key, Normal (headerGet request'.headers key) := fun key => hheaders ▸ hnormal key
      refine ⟨⟨hl, hr⟩, hjoin ⟨request, hparse, ?_, ?_⟩⟩
      · exact Legible.finish hnormal' (legible_dispatchMethod (hl ▸ hview) (hl ▸ hlocal) (hr ▸ hremote) hnormal')
      · rw [finishReply_cseq _ _ (noCSeq_dispatchMethod client view request'), hheaders]

theorem Conn.Answered.step (hlocal : OneLine localAddr) (hremote : OneLine remoteAddr) {a : Arrival} {s' : Conn}
    (hs : s.Answered parse localAddr remoteAddr) (ha : a.Plain localAddr) (h : s.step parse a = some s') :
    s'.Answered parse localAddr remoteAddr := by
  unfold Conn.step at h
  split_ifs at h with hret
  · cases h
    exact hs
  · cases a with
    | bytes bs view =>
      simp only at h
      split_ifs at h
      cases h
      have hs₁ : ({ s with buffer := s.buffer ++ bs } : Conn).Answered parse localAddr remoteAddr :=
        ⟨hs.addr, hs.replies⟩
      unfold Conn.received
      dsimp only
      split
      · split_ifs
        · exact hs₁.readHeader
        · exact hs₁.request hlocal hremote ha
      · exact hs₁.readHeader
      · exact hs₁.readData _ _
      · exact hs₁
    | timeout =>
      cases h
      exact hs
    | closed =>
      cases h
      exact ⟨hs.addr, hs.replies⟩

/-- **Every reply of every run is legible**, and has the `CSeq` of its request. -/
theorem legible_of_run (hlocal : OneLine localAddr) (hremote : OneLine remoteAddr) {as : List Arrival}
    (hviews : ∀ a ∈ as, a.Plain localAddr)
    (hrun : exec (Conn.step parse) (newConn localAddr remoteAddr) as = some s) :
    ∀ text reply, .request text reply ∈ s.events → RepliesTo parse text reply := by
  have hs : s.Answered parse localAddr remoteAddr :=
    exec_invariant (C := fun _ a => a.Plain localAddr) (fun _ _ _ hs ha hstep => hs.step hlocal hremote ha hstep) as _ s
      ⟨⟨rfl, rfl⟩, by simp [newConn]⟩ (allSteps_of_forall hviews) hrun
  exact hs.replies

end

/-! ### Reading a reply -/

theorem replyKeys_ok : ∀ key ∈ replyKeys, IsAscii key ∧ 58 ∉ key ∧ OneLine key ∧ trimSpace key = key := by
  decide +kernel

theorem nodup_fold_replyKeys : (replyKeys.map fold).Nodup := by decide +kernel

/-- The status line of a reply. -/
def replyLine (p : ℤ × Bytes) : Bytes := ascii "RTSP/1.0" ++ 32 :: (formatInt p.1 ++ 32 :: p.2)

theorem replyLine_ok : ∀ p ∈ replyStatuses, OneLine (replyLine p) ∧
    parseStatus (replyLine p) = .ok ⟨p.2, ascii "RTSP/1.0", p.1, [], []⟩ ∧ replyLine p ≠ [] ∧
    (replyLine p).head? ≠ some 36 ∧ names (replyLine p) = false := by
  decide +kernel

namespace Legible

theorem reorder (h : Legible r) {order : Headers} (hp : order.Perm r.headers) :
    Legible { r with headers := order } := by
  refine ⟨h.version, h.status, fun kv hkv => h.key kv (hp.mem_iff.mp hkv), (hp.map _).nodup_iff.mpr h.nodup,
    fun kv hkv => h.value kv (hp.mem_iff.mp hkv), h.length.1, ?_⟩
  rcases h.length.2 with ⟨hbody, hnone⟩ | hmem
  · exact .inl ⟨hbody, fun kv hkv => hnone kv (hp.mem_iff.mp hkv)⟩
  · exact .inr (hp.mem_iff.mpr hmem)

theorem statusLine_eq (h : Legible r) : r.statusLine = replyLine (r.code, r.status) := by
  rw [Response.statusLine, h.version]
  rfl

theorem sendable (h : Legible r) : ∀ kv ∈ r.headers, Sendable kv := fun kv hkv => by
  obtain ⟨-, hcolon, hline, -⟩ := replyKeys_ok kv.1 (h.key kv hkv)
  exact ⟨hcolon, hline, h.value kv hkv⟩

theorem trimmed (h : Legible r) {kv : Bytes × Bytes} (hkv : kv ∈ r.headers) : trimSpace kv.1 = kv.1 :=
  (replyKeys_ok kv.1 (h.key kv hkv)).2.2.2

/-- The keys differ in any case, also as they are read. -/
theorem distinct_received (h : Legible r) : Distinct (r.headers.map Wire.received) := by
  have hfold : (r.headers.map Wire.received).map (fun kv => fold kv.1) = (r.headers.map Prod.fst).map fold := by
    rw [List.map_map, List.map_map]
    exact List.map_congr_left fun kv hkv => fold_canonicalHeaderKey (h.trimmed hkv)
  have hinj := List.inj_on_of_nodup_map nodup_fold_replyKeys
  have hkeys : ∀ key ∈ r.headers.map Prod.fst, key ∈ replyKeys := fun key hkey => by
    obtain ⟨kv, hkv, rfl⟩ := List.mem_map.mp hkey
    exact h.key kv hkv
  rw [Distinct, hfold]
  exact h.nodup.map_on fun x hx y hy heq => hinj (hkeys x hx) (hkeys y hy) heq

/-- A header is found in what was read under any spelling of its key, in whatever order a map is visited. -/
theorem headerGet_received (h : Legible r) {seen : Headers} (hseen : seen.Perm (r.headers.map Wire.received))
    {kv : Bytes × Bytes} (hkv : kv ∈ r.headers) {key : Bytes} (hkey : fold key = fold kv.1) :
    headerGet seen key = (Wire.received kv).2 := by
  have hcanon := fold_canonicalHeaderKey (h.trimmed hkv)
  refine headerGet_eq ((hseen.map _).nodup_iff.mpr h.distinct_received) (fun e he => ?_)
    (hseen.mem_iff.mpr (List.mem_map_of_mem hkv)) (trimSpace_eq_self_of_fold hcanon (h.trimmed hkv))
    (hkey.trans hcanon.symm)
  obtain ⟨e, hmem, rfl⟩ := List.mem_map.mp (hseen.mem_iff.mp he)
  have hascii := (replyKeys_ok e.1 (h.key e hmem)).1
  exact isAscii_fold.mp (fold_canonicalHeaderKey (h.trimmed hmem) ▸ isAscii_fold.mpr hascii)

theorem takeBody_received (h : Legible r) : takeBody (r.headers.map Wire.received) r.body = r.body := by
  rcases h.length.2 with ⟨hbody, -⟩ | hmem
  · simp [takeBody, hbody]
  · have hget : headerGet (r.headers.map Wire.received) (ascii "Content-Length") =
        (Wire.received (lengthHeader r.body.length)).2 := h.headerGet_received (List.Perm.refl _) hmem rfl
    rw [received_normal (normal_itoa _)] at hget
    rw [takeBody, hget]
    simp only [lengthHeader, atoi_itoa h.length.1]
    split_ifs with hpos
    · exact (List.length_eq_zero_iff.mp (by omega)).symm
    · rw [Int.toNat_natCast, List.take_length]

/-- **A legible reply is read as it was written.** -/
theorem read (h : Legible r) : newResponseFromBuffer r.string =
    .ok ⟨r.status, r.protocolVersion, r.code, r.headers.map Wire.received, r.body⟩ := by
  obtain ⟨hline, hparse, -⟩ := replyLine_ok _ h.status
  rw [← h.statusLine_eq] at hline hparse
  have hkeys : (r.headers.map fun kv => canonicalHeaderKey kv.1).Nodup := by
    refine List.Nodup.of_map fold ?_
    simpa [Distinct, Wire.received, Function.comp_def] using h.distinct_received
  rw [newResponseFromBuffer_string hline (by rw [hparse, h.version]) h.sendable hkeys, h.takeBody_received]

/-- **It is framed as it was written**, if no value names a length. -/
theorem framed (h : Legible r) (hnames : ∀ kv ∈ r.headers, names kv.2 = false) :
    ∃ m : RtspMessage, m.encode = r.string := by
  obtain ⟨hline, -, hne, hdollar, hname⟩ := replyLine_ok _ h.status
  rw [← h.statusLine_eq] at hline hne hdollar hname
  have hunnamed : ∀ kv ∈ r.headers, kv.1 ≠ ascii "Content-Length" → Unnamed kv := fun kv hkv hkey => by
    have hplain : ∀ key ∈ replyKeys, key ≠ ascii "Content-Length" → names (key ++ [58]) = false := by
      decide +kernel
    exact ⟨hplain kv.1 (h.key kv hkv) hkey, hnames kv hkv⟩
  refine exists_rtspMessage hline hne hdollar hname h.sendable ?_
  rcases h.length.2 with ⟨hbody, hnone⟩ | hmem
  · exact .inl ⟨by rw [hbody]; rfl, fun kv hkv => hunnamed kv hkv (hnone kv hkv)⟩
  · obtain ⟨before, after, heq⟩ := List.append_of_mem hmem
    refine .inr ⟨h.length.1, before, after, heq, fun kv hkv => ?_⟩
    have hnodup := h.nodup
    rw [heq, List.map_append, List.map_cons] at hnodup
    refine hunnamed kv (heq ▸ List.mem_append_left _ hkv) fun hkey => ?_
    exact (List.nodup_append.mp hnodup).2.2 kv.1 (List.mem_map_of_mem hkv) _ List.mem_cons_self hkey

end Legible

/-! ### The replies of a run -/

/-- The `CSeq` of a reply that has been read. -/
theorem Legible.headerGet_cseq (h : Legible r) {seen : Headers} (hseen : seen.Perm (r.headers.map Wire.received))
    (hnormal : Normal (headerGet r.headers (ascii "CSeq"))) :
    headerGet seen (ascii "CSeq") = headerGet r.headers (ascii "CSeq") := by
  have hascii : ∀ kv ∈ r.headers, IsAscii kv.1 := fun kv hkv => (replyKeys_ok kv.1 (h.key kv hkv)).1
  by_cases hex : ∃ kv ∈ r.headers, fold (ascii "CSeq") = fold kv.1
  · obtain ⟨kv, hkv, hkey⟩ := hex
    have hdistinct : Distinct r.headers := by
      have := h.distinct_received
      rw [Distinct, List.map_map] at this
      rw [Distinct, ← List.map_congr_left fun kv hkv => fold_canonicalHeaderKey (h.trimmed hkv)]
      exact this
    have hwritten : headerGet r.headers (ascii "CSeq") = kv.2 := headerGet_eq hdistinct hascii hkv (h.trimmed hkv) hkey
    rw [hwritten] at hnormal ⊢
    rw [h.headerGet_received hseen hkv hkey, received_normal hnormal]
  · push Not at hex
    rw [headerGet_eq_nil hascii (by decide) (by decide) hex]
    refine headerGet_eq_nil (fun e he => ?_) (by decide) (by decide) fun e he => ?_
    all_goals obtain ⟨kv, hkv, rfl⟩ := List.mem_map.mp (hseen.mem_iff.mp he)
    all_goals have hfold := fold_canonicalHeaderKey (h.trimmed hkv)
    · exact isAscii_fold.mp (hfold ▸ isAscii_fold.mpr (hascii kv hkv))
    · exact fun heq => hex kv hkv (heq.trans hfold)

section
variable (parse : Bytes → Option URL) (localAddr remoteAddr : Bytes) (hlocal : OneLine localAddr)
  (hremote : OneLine remoteAddr) (as : List Arrival) (hviews : ∀ a ∈ as, a.Plain localAddr) (s : Conn)
  (hrun : exec (Conn.step parse) (newConn localAddr remoteAddr) as = some s)

include hlocal hremote hviews hrun in
/-- **Every reply is read as it was meant.** Whatever a client sends and however it is cut, each reply that the
handler writes, with its headers in any order, is a response: it is parsed to the code, the status and the
body that the handler gave it, it has the `CSeq` of the request, and every header is found under any spelling
of its key, its value in normal form. -/
theorem reply_read (text : Bytes) (reply : Response) (hmem : .request text reply ∈ s.events) (order : Headers)
    (hp : order.Perm reply.headers) :
    ∃ request r', newRequestFromBuffer parse text = .ok request ∧
      newResponseFromBuffer ({ reply with headers := order } : Response).string = .ok r' ∧
      r'.code = reply.code ∧ r'.status = reply.status ∧ r'.body = reply.body ∧
      ∀ seen : Headers, seen.Perm r'.headers →
        headerGet seen (ascii "CSeq") = headerGet request.headers (ascii "CSeq") ∧
        ∀ kv ∈ reply.headers, ∀ key, fold key = fold kv.1 → headerGet seen key = (Wire.received kv).2 := by
  obtain ⟨request, hparse, hlegible, hcseq⟩ := legible_of_run hlocal hremote hviews hrun text reply hmem
  refine ⟨request, _, hparse, (hlegible.reorder hp).read, rfl, rfl, rfl, fun seen hseen => ?_⟩
  have hseen' : seen.Perm (reply.headers.map Wire.received) := hseen.trans (hp.map _)
  refine ⟨?_, fun kv hkv key hkey => hlegible.headerGet_received hseen' hkv hkey⟩
  rw [hlegible.headerGet_cseq hseen' (hcseq ▸ normal_request hparse _), hcseq]

end

/-- A client asks for the description of a stream. -/
def describeCall : Bytes := ascii "DESCRIBE rtsp://cam/1 RTSP/1.0\r\nCSeq: 7\r\n\r\n"

/-- The stream has one. -/
def describedView : StreamView :=
  ⟨[], ascii "Camera", ascii "/1", ascii "v=0\r\no=- 1 1 IN IP4 0.0.0.0\r\n", .ready, .ready, false, true, []⟩

/-- Every URL is that of the stream. -/
def toCam (_ : Bytes) : Option URL := some ⟨[], [], ascii "cam", ascii "/1"⟩

/-- What the handler replies. -/
def describedReply : Response :=
  finishReply (describeReply (newClient (ascii "10.0.0.1") (ascii "10.0.0.2")) describedView)
    ⟨ascii "DESCRIBE", ascii "rtsp://cam/1", ⟨[], [], ascii "cam", ascii "/1"⟩, ascii "RTSP/1.0",
      [(ascii "Cseq", ascii "7")]⟩

theorem exec_described :
    ∃ s, exec (Conn.step toCam) (newConn (ascii "10.0.0.1") (ascii "10.0.0.2"))
        [.bytes describeCall describedView] = some s ∧ s.events = [.request describeCall describedReply] :=
  ⟨_, rfl, by decide +kernel⟩

theorem plain_described : describedView.Plain (ascii "10.0.0.1") :=
  ⟨by decide, by decide, by decide, by decide, by decide⟩

/-- The reply with the SDP is read, with its headers in the opposite order. -/
theorem reply_read_describe : ∃ r', newResponseFromBuffer
      ({ describedReply with headers := describedReply.headers.reverse } : Response).string = .ok r' ∧
    r'.code = 200 ∧ r'.body = ascii "v=0\r\no=- 1 1 IN IP4 10.0.0.1\r\n" := by
  obtain ⟨s, hrun, hevents⟩ := exec_described
  obtain ⟨request, r', -, hread, hcode, -, hbody, -⟩ := reply_read toCam (ascii "10.0.0.1") (ascii "10.0.0.2")
    (by decide) (by decide) [.bytes describeCall describedView]
    (List.forall_mem_singleton.mpr plain_described) s hrun describeCall describedReply
    (hevents ▸ List.mem_singleton_self _) describedReply.headers.reverse (List.reverse_perm _)
  exact ⟨r', hread, hcode, hbody.trans (by decide)⟩

/-! ### Replies and frames -/

/-- What is written to a client. -/
inductive Downward where
  | reply (r : Response)
  | frame (f : Frame)

/-- The bytes of one `Write`. -/
def Downward.bytes : Downward → Bytes
  | .reply r => r.string
  | .frame f => f.encode

/-- What a reader makes of it. -/
def Downward.item : Downward → Item
  | .reply r => .message r.string
  | .frame f => .packet f.channel.toNat f.encode

section
variable (parse : Bytes → Option URL) (localAddr remoteAddr : Bytes) (hlocal : OneLine localAddr)
  (hremote : OneLine remoteAddr) (as : List Arrival) (hviews : ∀ a ∈ as, a.Plain localAddr) (s : Conn)
  (hrun : exec (Conn.step parse) (newConn localAddr remoteAddr) as = some s)

include hlocal hremote hviews hrun in
/-- **Replies and frames are found and read.** Let the texts that the replies take over from the stream (options,
server, path, SSRCs, session ids) and the addresses be of one line, let no header value contain
`content-length:`, and let each reply and each frame fit the reader's buffer. However the replies of a run,
their headers in any order, and frames are then mixed on the connection and cut into reads, a reader that frames
as `readLoop` does finds each reply and each frame, in order, each once, and parses each reply to its code,
status and body. -/
theorem downstream_read (outs : List Downward)
    (houts : ∀ r, .reply r ∈ outs → ∃ text reply order, .request text reply ∈ s.events ∧
      order.Perm reply.headers ∧ r = { reply with headers := order } ∧ ∀ kv ∈ order, names kv.2 = false)
    (B : ℕ) (hB : 0 < B) (hint : B < 2 ^ 63) (hfit : ∀ o ∈ outs, o.bytes.length ≤ B) (is : List (Input UInt8))
    (hr : ∀ i ∈ is, i.IsRead) (hs : Theory.received is = outs.flatMap Downward.bytes) (hf : Fits B is) :
    readLoop B is = some (outs.map fun o => .item o.item, .waiting []) ∧
    ∀ r, .reply r ∈ outs → ∃ r', newResponseFromBuffer r.string = .ok r' ∧ r'.code = r.code ∧
      r'.status = r.status ∧ r'.body = r.body := by
  have hlegible : ∀ r, .reply r ∈ outs → Legible r ∧ ∀ kv ∈ r.headers, names kv.2 = false := by
    intro r hmem
    obtain ⟨text, reply, order, hevent, hp, rfl, hnames⟩ := houts r hmem
    obtain ⟨-, -, hlegible, -⟩ := legible_of_run hlocal hremote hviews hrun text reply hevent
    exact ⟨hlegible.reorder hp, hnames⟩
  constructor
  · -- each of them is found in its own bytes
    have hpass : ∀ o ∈ outs, processPass o.bytes = .item o.item o.bytes.length := by
      intro o ho
      cases o with
      | reply r =>
        obtain ⟨m, hm⟩ := (hlegible r ho).1.framed (hlegible r ho).2
        have hlt : m.encode.length < 2 ^ 63 := hm ▸ lt_of_le_of_lt (hfit _ ho) hint
        have hfound := processPass_message m hlt
        rwa [hm] at hfound
      | frame f => exact processPass_frame f
    exact Framer.read_items (F := upstream) hB hr hf (fun o ho => ⟨hpass o ho, hfit o ho⟩) .nil
      (by rw [hs, List.append_nil])
  · intro r hmem
    exact ⟨_, (hlegible r hmem).1.read, rfl, rfl, rfl⟩

end

theorem two_fits : ([7, 8] : Bytes).length < 2 ^ 16 := by decide

/-- A frame, the reply with the SDP, and a frame. -/
def framesAndReply : List Downward :=
  [.frame ⟨0, [7, 8], two_fits⟩, .reply describedReply, .frame ⟨1, [7, 8], two_fits⟩]

/-- They are found in what is written. -/
theorem downstream_read_describe : readLoop 512 [.data (framesAndReply.flatMap Downward.bytes)] =
    some (framesAndReply.map fun o => .item o.item, .waiting []) := by
  obtain ⟨s, hrun, hevents⟩ := exec_described
  have houts : ∀ r, .reply r ∈ framesAndReply → ∃ text reply order, .request text reply ∈ s.events ∧
      order.Perm reply.headers ∧ r = { reply with headers := order } ∧ ∀ kv ∈ order, names kv.2 = false := by
    intro r hr
    simp only [framesAndReply, List.mem_cons, reduceCtorEq, Downward.reply.injEq, List.not_mem_nil, or_false,
      false_or] at hr
    subst hr
    exact ⟨describeCall, describedReply, describedReply.headers, hevents ▸ List.mem_singleton_self _, .refl _,
      rfl, by decide⟩
  exact (downstream_read toCam (ascii "10.0.0.1") (ascii "10.0.0.2") (by decide) (by decide)
    [.bytes describeCall describedView] (List.forall_mem_singleton.mpr plain_described) s hrun framesAndReply houts
    512 (by decide) (by decide) (by decide) _ (by decide) (by simp [Theory.received, Input.bytes])
    (by decide +kernel)).1

end RtspProxy.Downstream
