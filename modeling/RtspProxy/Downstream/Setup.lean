import RtspProxy.Downstream.Client
import RtspProxy.Upstream.Transports
import RtspProxy.Fanout.BackChannel

/-!
# A client's SETUP

`Client.handleSetup` looks for the transport that the camera's answer to SETUP has left under the same
words, registers the client with the stream, and maps the transport's channels to those that the
client asks for. The reply repeats the client's `Transport` header.

The channels of the transport are read without asking whether the camera has named any; if it has
not, the handler dereferences nil (`setup_reads_no_substream`).

## The model

`setupClient` is `handleSetup` with its effects; `none` means that it panics. The camera's transports are
those that its SETUP responses have left, and the sessions are searched in any order.

## What is proved

* `reply_of_setupClient` — the reply is that of `handleSetup`.
* `setup_safe_iff` — **a client's SETUP is answered, for every order of the search, exactly when the
  camera has named as many channels for each transport that fits as the client asks for.**
-/

namespace RtspProxy.Downstream

open Theory Wire Fanout
open Upstream (Sessions Recorded recordAll Key splitFile)

/-! ### The handler with its effects -/

/-- What a SETUP finds of the stream and the clock. -/
structure SetupView where
  /-- The stream. -/
  view : StreamView
  /-- `remote` is there. -/
  remote : Bool
  /-- The order in which the sessions are searched. -/
  order : List Bytes

/-- `Stream.LookupTransport`: the transport, with its session. -/
def SetupView.find (v : SetupView) (ss : Sessions) (substreamName protocol comType : Bytes) :
    Option (Bytes × Upstream.Transport) :=
  if v.remote then v.order.findSome? fun id =>
    (ss.transport ⟨id, substreamName, protocol, comType⟩).map fun t => (id, t)
  else none

/-- The calls of `MapChannel`. Where a substream is not there, its `Channel` is read through nil. -/
def mapCalls (clientInterleaved : Bytes) (upstream : Upstream.Transport) : Option (List (ℤ × ℤ)) :=
  if clientInterleaved = [] then some []
  else
    let channels := clientInterleaved.splitOn 45
    let ch1 := (atoi (channels.headD [])).1
    upstream.channels.1.bind fun u₁ =>
      match channels[1]? with
      | none => some [(u₁, ch1)]
      | some second => upstream.channels.2.map fun u₂ => [(u₁, ch1), (u₂, (atoi second).1)]

/-- The protocol word, the delivery word and the parameters of the `Transport` header. -/
def transportOf (request : Request) : Bytes × Bytes × (Bytes → Option Bytes) :=
  Upstream.parseTransport (headerGet request.headers (ascii "Transport"))

/-- `params["interleaved"]`. -/
def interleavedOf (request : Request) : Bytes := ((transportOf request).2.2 (ascii "interleaved")).getD []

/-- The words under which the transport is looked for, in a session. -/
def keyOf (request : Request) (id : Bytes) : Key :=
  ⟨id, splitFile request.url.path, (transportOf request).1, (transportOf request).2.1⟩

/-- `Client.handleSetup` of the client `k` once the stream is ready. -/
def setupReady (clients : Clients) (k : ℕ) (client : Client) (v : SetupView) (ss : Sessions) (request : Request) :
    Option (Response × Clients) :=
  match v.find ss (splitFile request.url.path) (transportOf request).1 (transportOf request).2.1 with
  | none => some (responseBadRequest, clients)
  | some (id, upstream) =>
    (mapCalls (interleavedOf request) upstream).map fun calls =>
      (setupReply client v.view (headerGet request.headers (ascii "Transport")) id upstream,
        calls.foldl (fun clients c => mapChannel clients k c.1 c.2) (addClient clients k))

/-- `Client.handleSetup` of the client `k`: the reply, and the clients of the stream. -/
def setupClient (clients : Clients) (k : ℕ) (client : Client) (v : SetupView) (ss : Sessions) (request : Request) :
    Option (Response × Clients) :=
  match v.view.readyWait with
  | .shutdown => some (responseBadRequest, clients)
  | .ready =>
    if v.view.destroyed then some (responseNotFound, clients) else setupReady clients k client v ss request
  | .timeout =>
    if v.view.playing then setupReady clients k client v ss request else some (responseBadRequest, clients)

/-! ### Its reply -/

/-- The transports in the order of the search. -/
def SetupView.transports (v : SetupView) (ss : Sessions) : List (Bytes × Upstream.Transport) :=
  if v.remote then v.order.flatMap fun id =>
    (((ss.lookup id).map Upstream.Session.transports).getD []).map (Prod.mk id)
  else []

theorem lookupTransport_eq (v : SetupView) (ss : Sessions) (substreamName protocol comType : Bytes) :
    lookupTransport { v.view with transports := v.transports ss } substreamName protocol comType =
      v.find ss substreamName protocol comType := by
  unfold lookupTransport SetupView.transports SetupView.find
  split_ifs
  · dsimp only
    induction v.order with
    | nil => rfl
    | cons id order ih =>
      rw [List.flatMap_cons, List.find?_append, ih, List.find?_map, List.findSome?_cons]
      unfold Sessions.transport
      cases ss.lookup id with
      | none => rfl
      | some session =>
        have hsame : (fun t : Bytes × Upstream.Transport => t.2.is substreamName protocol comType) ∘ Prod.mk id =
            Key.is ⟨id, substreamName, protocol, comType⟩ := rfl
        rw [hsame]
        cases hf : session.transports.find? (Key.is ⟨id, substreamName, protocol, comType⟩) <;> simp [hf]
  · rfl

/-- **The reply is that of `Client.handleSetup`.** -/
theorem reply_of_setupClient {clients clients' : Clients} {k : ℕ} {client : Client} {v : SetupView} {ss : Sessions}
    {request : Request} {reply : Response} (h : setupClient clients k client v ss request = some (reply, clients')) :
    reply = handleSetup client { v.view with transports := v.transports ss } request := by
  have hready : ∀ {reply clients'}, setupReady clients k client v ss request = some (reply, clients') →
      (lookupTransport { v.view with transports := v.transports ss } (splitFile request.url.path)
          (transportOf request).1 (transportOf request).2.1 = none → reply = responseBadRequest) ∧
        ∀ x, lookupTransport { v.view with transports := v.transports ss } (splitFile request.url.path)
          (transportOf request).1 (transportOf request).2.1 = some x →
            reply = setupReply client { v.view with transports := v.transports ss }
              (headerGet request.headers (ascii "Transport")) x.1 x.2 := by
    intro reply clients' h
    rw [lookupTransport_eq]
    unfold setupReady at h
    cases hf : v.find ss (splitFile request.url.path) (transportOf request).1 (transportOf request).2.1 with
    | none =>
      rw [hf] at h
      cases h
      exact ⟨fun _ => rfl, by simp⟩
    | some x =>
      rw [hf] at h
      obtain ⟨calls, -, hc⟩ := Option.map_eq_some_iff.mp h
      cases hc
      refine ⟨by simp, fun x hu => ?_⟩
      cases hu
      rfl
  unfold handleSetup
  dsimp only
  unfold setupClient at h
  cases hw : v.view.readyWait with
  | shutdown =>
    simp only [hw] at h
    cases h
    rfl
  | ready =>
    simp only [hw] at h
    dsimp only
    split_ifs at h ⊢
    · cases h
      rfl
    · split
      case h_1 hnone => exact (hready h).1 hnone
      case h_2 session upstream hsome => exact (hready h).2 (session, upstream) hsome
  | timeout =>
    simp only [hw] at h
    dsimp only
    split_ifs at h ⊢
    · split
      case h_1 hnone => exact (hready h).1 hnone
      case h_2 session upstream hsome => exact (hready h).2 (session, upstream) hsome
    · cases h
      rfl

/-! ### No substream is missing -/

/-- The channels of a transport suffice for what the client asks for. -/
theorem isSome_mapCalls (interleaved : Bytes) (t : Upstream.Transport) :
    (mapCalls interleaved t).isSome = true ↔
      interleaved = [] ∨ t.channels.1.isSome = true ∧ (45 ∈ interleaved → t.channels.2.isSome = true) := by
  unfold mapCalls
  split_ifs with hnil
  · simp [hnil]
  · rw [← isSome_splitOn_one]
    cases t.channels.1 with
    | none => simp [hnil]
    | some u =>
      cases hs : (interleaved.splitOn 45)[1]? <;> simp [hnil, hs]

/-- The camera has named as many channels for each transport that fits as the client asks for. -/
def Covered (rs : List Recorded) (request : Request) : Prop :=
  interleavedOf request = [] ∨ ∀ id, (∃ r ∈ rs, r.key = keyOf request id) →
    (∃ r ∈ rs, r.key = keyOf request id ∧ r.interleaved.isSome = true) ∧
      (45 ∈ interleavedOf request → ∃ r ∈ rs, r.key = keyOf request id ∧ ∃ v, r.interleaved = some v ∧ 45 ∈ v)

/-- The transport that is found is one under the request's words. -/
theorem transport_of_find {v : SetupView} {ss : Sessions} {request : Request} {id : Bytes} {t : Upstream.Transport}
    (h : v.find ss (splitFile request.url.path) (transportOf request).1 (transportOf request).2.1 = some (id, t)) :
    ss.transport (keyOf request id) = some t := by
  unfold SetupView.find at h
  obtain ⟨-, h⟩ := Option.ite_none_right_eq_some.mp h
  obtain ⟨id', -, hid⟩ := List.exists_of_findSome?_eq_some h
  obtain ⟨t', ht, he⟩ := Option.map_eq_some_iff.mp hid
  cases he
  exact ht

/-- The handler gets to the channels of the transport that it finds, if at all. -/
theorem isSome_setupClient {clients : Clients} {k : ℕ} {client : Client} {v : SetupView} {ss : Sessions}
    {request : Request}
    (h : ∀ id t, ss.transport (keyOf request id) = some t → (mapCalls (interleavedOf request) t).isSome = true) :
    (setupClient clients k client v ss request).isSome = true := by
  have hready : (setupReady clients k client v ss request).isSome = true := by
    unfold setupReady
    cases hf : v.find ss (splitFile request.url.path) (transportOf request).1 (transportOf request).2.1 with
    | none => rfl
    | some x =>
      obtain ⟨id, t⟩ := x
      simpa using h id t (transport_of_find hf)
  unfold setupClient
  split
  · rfl
  · split_ifs
    · rfl
    · exact hready
  · split_ifs
    · exact hready
    · rfl

/-- A stream that is ready, and searches this session first. -/
def readyView (order : List Bytes) : SetupView :=
  ⟨⟨[], [], [], [], .ready, .ready, false, true, []⟩, true, order⟩

theorem setupClient_readyView {clients : Clients} {k : ℕ} {client : Client} {ss : Sessions} {request : Request}
    {id : Bytes} {order : List Bytes} {t : Upstream.Transport} (ht : ss.transport (keyOf request id) = some t)
    (h : (setupClient clients k client (readyView (id :: order)) ss request).isSome = true) :
    (mapCalls (interleavedOf request) t).isSome = true := by
  have hf : (readyView (id :: order)).find ss (splitFile request.url.path) (transportOf request).1
      (transportOf request).2.1 = some (id, t) := by
    have ht' : ss.transport ⟨id, splitFile request.url.path, (transportOf request).1, (transportOf request).2.1⟩ =
      some t := ht
    rw [SetupView.find, readyView, if_pos rfl, List.findSome?_cons, ht']
    rfl
  have hready : setupClient clients k client (readyView (id :: order)) ss request =
      setupReady clients k client (readyView (id :: order)) ss request := rfl
  rw [hready, setupReady, hf] at h
  simpa using h

/-- **A client's SETUP is answered without reading a substream that is not there, whatever the order of
the search, exactly when the camera has named as many channels for each transport that fits as the
client asks for**: for all SETUP responses of the camera and every request. -/
theorem setup_safe_iff (rs : List Recorded) (request : Request) :
    (∀ (clients : Clients) (k : ℕ) (client : Client) (v : SetupView), v.order.Perm (recordAll rs).keys →
      (setupClient clients k client v (recordAll rs) request).isSome = true) ↔ Covered rs request := by
  have hcalls : ∀ {id t}, (recordAll rs).transport (keyOf request id) = some t →
      ((mapCalls (interleavedOf request) t).isSome = true ↔ interleavedOf request = [] ∨
        (∃ r ∈ rs, r.key = keyOf request id ∧ r.interleaved.isSome = true) ∧ (45 ∈ interleavedOf request →
          ∃ r ∈ rs, r.key = keyOf request id ∧ ∃ v, r.interleaved = some v ∧ 45 ∈ v)) := by
    intro id t ht
    rw [isSome_mapCalls, Upstream.isSome_channels_fst rs ht, Upstream.isSome_channels_snd rs ht]
  constructor
  · intro h
    by_cases hnil : interleavedOf request = []
    · exact .inl hnil
    · refine .inr fun id hid => ?_
      obtain ⟨t, ht⟩ := Option.isSome_iff_exists.mp ((Upstream.isSome_transport rs _).mpr hid)
      have hkey : id ∈ (recordAll rs).keys := by
        obtain ⟨session, hs, -⟩ := Option.bind_eq_some_iff.mp ht
        exact AList.mem_keys.mp (AList.lookup_isSome.mp (Option.isSome_iff_exists.mpr ⟨session, hs⟩))
      have hsafe := h ∅ 0 (newClient [] []) (readyView (id :: (recordAll rs).keys.erase id))
        (List.perm_cons_erase hkey).symm
      exact ((hcalls ht).mp (setupClient_readyView ht hsafe)).resolve_left hnil
  · rintro hcov clients k client v -
    refine isSome_setupClient fun id t ht => (hcalls ht).mpr (hcov.imp_right fun h => h id ?_)
    exact (Upstream.isSome_transport rs _).mp (by rw [ht]; rfl)

/-- A camera's answer to the SETUP of a track, with this `Transport` header. -/
def cameraSetup (track transport : String) : Recorded :=
  ⟨0, ascii "/live/" ++ ascii track,
    ⟨ascii "OK", ascii "RTSP/1.0", 200, [(ascii "Session", ascii "7"), (ascii "Transport", ascii transport)], []⟩⟩

/-- A client's SETUP of a track, with this `Transport` header. -/
def clientSetup (track transport : String) : Request :=
  ⟨ascii "SETUP", ascii "rtsp://proxy/live/" ++ ascii track, ⟨[], [], ascii "cam", ascii "/live/" ++ ascii track⟩,
    ascii "RTSP/1.0", [(ascii "Transport", ascii transport)]⟩

/-- **The camera names no channel, or one, and the client asks for two: the handler panics.** -/
theorem setup_reads_no_substream :
    setupClient ∅ 0 (newClient [] []) (readyView (recordAll [cameraSetup "track1" "RTP/AVP/TCP;unicast"]).keys)
        (recordAll [cameraSetup "track1" "RTP/AVP/TCP;unicast"])
        (clientSetup "track1" "RTP/AVP/TCP;unicast;interleaved=0-1") = none ∧
      setupClient ∅ 0 (newClient [] [])
        (readyView (recordAll [cameraSetup "track1" "RTP/AVP/TCP;unicast;interleaved=0"]).keys)
        (recordAll [cameraSetup "track1" "RTP/AVP/TCP;unicast;interleaved=0"])
        (clientSetup "track1" "RTP/AVP/TCP;unicast;interleaved=0-1") = none := by
  constructor <;> rfl

end RtspProxy.Downstream
