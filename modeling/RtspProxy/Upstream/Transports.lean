import Mathlib.Data.List.Induction
import Mathlib.Data.List.TakeWhile
import RtspProxy.Upstream.Session
import RtspProxy.Theory.Registry
import RtspProxy.Theory.Split

/-!
# The transports that SETUP responses leave

A SETUP response is recorded by `Remote.handleSetup` under four words: its session id, the last
segment of the path that was asked for, and the protocol and delivery words of its `Transport`
header. `Session.LookupTransport` finds the transport with these words again or makes it.

`SetupUpstream` then looks for the transport of the track it has asked for, not under the path of the
request but under words that it takes from the SDP's control attribute. Where the attribute ends in
a slash, or is a URL whose path ends otherwise than its text, it does not find what it has just set up
(`not_found_again`).

## What is proved

* `transport_handleSetup` — what one response does to the transport under given words.
* `isSome_transport`, `isSome_channels_fst`, `isSome_channels_snd` — the transport and its two
  substreams after any number of responses.
* `setupUpstream_finds_iff` — **`SetupUpstream` finds the transport that it has set up, with its SSRC and
  session, exactly when a relative control does not end in a slash, and the path of an absolute one
  ends like its text.**
-/

namespace RtspProxy.Upstream

open Theory Wire

/-! ### The transport under given words -/

/-- What a transport is found by. -/
structure Key where
  /-- The session id. -/
  session : Bytes
  substreamName : Bytes
  protocol : Bytes
  comType : Bytes
  deriving DecidableEq, Repr

/-- The transport has the words. -/
def Key.is (x : Key) : Transport → Bool := Transport.is x.substreamName x.protocol x.comType

/-- The transport under given words. -/
def Sessions.transport (ss : Sessions) (x : Key) : Option Transport :=
  (ss.lookup x.session).bind fun session => session.transports.find? x.is

/-- A transport as `NewTransport` makes it. -/
def newTransport (x : Key) (conn : ℕ) : Transport := ⟨x.substreamName, x.protocol, x.comType, [], (none, none), conn⟩

/-- A SETUP response as it is recorded: the connection, the path of the request, and the response. -/
structure Recorded where
  /-- The connection. -/
  conn : ℕ
  /-- The path of the request's URL. -/
  path : Bytes
  response : Response
  deriving DecidableEq, Repr

/-- The protocol word, the delivery word and the parameters of its `Transport` header. -/
def Recorded.transport (r : Recorded) : Bytes × Bytes × (Bytes → Option Bytes) :=
  parseTransport (headerGet r.response.headers (ascii "Transport"))

/-- The words under which it is recorded. -/
def Recorded.key (r : Recorded) : Key := ⟨sessionID r.response, splitFile r.path, r.transport.1, r.transport.2.1⟩

/-- Its `interleaved` parameter. -/
def Recorded.interleaved (r : Recorded) : Option Bytes := r.transport.2.2 (ascii "interleaved")

/-- It is recorded. -/
def Recorded.record (ss : Sessions) (r : Recorded) : Sessions := handleSetup r.conn r.path ss r.response

theorem is_assign (x : Key) (params : Bytes → Option Bytes) (t : Transport) : x.is (t.assign params) = x.is t := rfl

theorem is_newTransport (x : Key) (conn : ℕ) : x.is (newTransport x conn) = true := by
  simp [Key.is, Transport.is, newTransport]

theorem Key.eq_of_is {x y : Key} {t : Transport} (hs : x.session = y.session) (hx : x.is t = true)
    (hy : y.is t = true) : x = y := by
  obtain ⟨s, n, p, c⟩ := x
  obtain ⟨s', n', p', c'⟩ := y
  simp only [Key.is, Transport.is, Bool.and_eq_true, beq_iff_eq] at hs hx hy
  rw [hs, ← hx.1.1, ← hx.1.2, ← hx.2, hy.1.1, hy.1.2, hy.2]

theorem transports_lookupSession (ss : Sessions) (id : Bytes) :
    (ss.lookupSession id).1.transports = ((ss.lookup id).map Session.transports).getD [] := by
  unfold Sessions.lookupSession
  cases ss.lookup id <;> rfl

theorem lookup_lookupSession_ne (ss : Sessions) {id id' : Bytes} (h : id' ≠ id) :
    (ss.lookupSession id).2.lookup id' = ss.lookup id' := by
  unfold Sessions.lookupSession
  cases ss.lookup id with
  | none => exact AList.lookup_insert_ne h
  | some session => rfl

/-- The search in the session that `LookupSession` returns. -/
theorem find?_lookupSession (ss : Sessions) (x : Key) :
    (ss.lookupSession x.session).1.transports.find? x.is = ss.transport x := by
  rw [transports_lookupSession, Sessions.transport]
  cases ss.lookup x.session <;> rfl

/-- What one SETUP response does to the sessions. -/
theorem lookup_record (ss : Sessions) (r : Recorded) (id : Bytes) :
    (r.record ss).lookup id =
      if id = r.key.session then
        some ⟨sessionTimeout r.response (ss.lookupSession r.key.session).1.timeout,
          upsert r.key.is (Transport.assign r.transport.2.2) (newTransport r.key r.conn)
            (ss.lookupSession r.key.session).1.transports⟩
      else ss.lookup id := by
  split_ifs with hid
  · rw [hid]
    exact AList.lookup_insert _
  · exact (AList.lookup_insert_ne hid).trans (lookup_lookupSession_ne ss hid)

/-- **What one SETUP response does to the transport under given words.** -/
theorem transport_handleSetup (ss : Sessions) (r : Recorded) (x : Key) :
    (r.record ss).transport x =
      if x = r.key then some (((ss.transport x).getD (newTransport x r.conn)).assign r.transport.2.2)
      else ss.transport x := by
  rw [Sessions.transport, lookup_record]
  by_cases hx : x = r.key
  · subst hx
    rw [if_pos rfl, if_pos rfl, Option.bind_some, find?_upsert_self (is_assign _ _) (is_newTransport _ _),
      find?_lookupSession]
  · rw [if_neg hx]
    split_ifs with hid
    · have hne : ∀ t, r.key.is t = true → x.is t = false := fun t ht =>
        Bool.eq_false_iff.mpr fun ht' => hx (Key.eq_of_is hid ht' ht)
      rw [Option.bind_some, find?_upsert_ne (is_assign _ _) hne (is_newTransport _ _), ← hid, find?_lookupSession]
    · rfl

/-! ### After any number of responses -/

/-- The sessions after these responses, on a stream that had none. -/
def recordAll (rs : List Recorded) : Sessions := rs.foldl Recorded.record ∅

theorem recordAll_concat (rs : List Recorded) (r : Recorded) : recordAll (rs ++ [r]) = r.record (recordAll rs) := by
  rw [recordAll, List.foldl_append]
  rfl

section
variable (r : Recorded) (t : Transport)

theorem isSome_assign_fst :
    (t.assign r.transport.2.2).channels.1.isSome = true ↔ t.channels.1.isSome = true ∨ r.interleaved.isSome = true := by
  unfold Transport.assign Recorded.interleaved
  cases r.transport.2.2 (ascii "interleaved") <;> simp

theorem isSome_assign_snd :
    (t.assign r.transport.2.2).channels.2.isSome = true ↔
      t.channels.2.isSome = true ∨ ∃ v, r.interleaved = some v ∧ 45 ∈ v := by
  unfold Transport.assign Recorded.interleaved
  cases r.transport.2.2 (ascii "interleaved") with
  | none => simp
  | some v =>
    simp only [Option.some.injEq, exists_eq_left']
    rw [← isSome_splitOn_one 45 v]
    cases (v.splitOn 45)[1]? <;> simp

end

/-- There is a transport if a response was recorded for it. -/
theorem isSome_transport (rs : List Recorded) (x : Key) :
    ((recordAll rs).transport x).isSome = true ↔ ∃ r ∈ rs, r.key = x := by
  induction rs using List.reverseRecOn with
  | nil => simp [recordAll, Sessions.transport]
  | append_singleton rs r ih =>
    rw [recordAll_concat, transport_handleSetup]
    split_ifs with hx
    · simp [hx]
    · rw [ih]
      simp [eq_comm, hx]

/-- What one more response says of the substreams of a transport. -/
theorem transport_concat {rs : List Recorded} {r : Recorded} {x : Key} {t : Transport}
    (h : (recordAll (rs ++ [r])).transport x = some t) :
    (r.key ≠ x ∧ (recordAll rs).transport x = some t) ∨
      r.key = x ∧ t = (((recordAll rs).transport x).getD (newTransport x r.conn)).assign r.transport.2.2 := by
  rw [recordAll_concat, transport_handleSetup] at h
  split_ifs at h with hx
  · exact .inr ⟨hx.symm, (Option.some.inj h).symm⟩
  · exact .inl ⟨Ne.symm hx, h⟩

/-- What responses make of a transport, and never undo, is there if one of them made it. -/
theorem made_iff (made : Transport → Prop) (makes : Recorded → Prop)
    (hassign : ∀ t r, made (t.assign (Recorded.transport r).2.2) ↔ made t ∨ makes r)
    (hnew : ∀ x conn, ¬ made (newTransport x conn)) (rs : List Recorded) {x : Key} {t : Transport}
    (h : (recordAll rs).transport x = some t) : made t ↔ ∃ r ∈ rs, r.key = x ∧ makes r := by
  induction rs using List.reverseRecOn generalizing t with
  | nil => cases h
  | append_singleton rs r ih =>
    simp only [List.mem_append, List.mem_singleton, or_and_right, exists_or, exists_eq_left]
    rcases transport_concat h with ⟨hx, h⟩ | ⟨hx, rfl⟩
    · rw [ih h]
      simp [hx]
    · rw [hassign]
      have hold : made (((recordAll rs).transport x).getD (newTransport x r.conn)) ↔ ∃ r ∈ rs, r.key = x ∧ makes r := by
        cases ht : (recordAll rs).transport x with
        | some t => exact ih ht
        | none =>
          have hnone : ¬ ∃ r ∈ rs, r.key = x := by
            rw [← isSome_transport, ht]
            exact Bool.false_ne_true
          exact iff_of_false (hnew x r.conn) fun ⟨r, hr, hk, _⟩ => hnone ⟨r, hr, hk⟩
      rw [hold]
      simp [hx]

theorem isSome_channels_fst (rs : List Recorded) {x : Key} {t : Transport} (h : (recordAll rs).transport x = some t) :
    t.channels.1.isSome = true ↔ ∃ r ∈ rs, r.key = x ∧ r.interleaved.isSome = true :=
  made_iff (fun t => t.channels.1.isSome = true) (fun r => r.interleaved.isSome = true)
    (fun t r => isSome_assign_fst r t) (fun _ _ => Bool.false_ne_true) rs h

theorem isSome_channels_snd (rs : List Recorded) {x : Key} {t : Transport} (h : (recordAll rs).transport x = some t) :
    t.channels.2.isSome = true ↔ ∃ r ∈ rs, r.key = x ∧ ∃ v, r.interleaved = some v ∧ 45 ∈ v :=
  made_iff (fun t => t.channels.2.isSome = true) (fun r => ∃ v, r.interleaved = some v ∧ 45 ∈ v)
    (fun t r => isSome_assign_snd r t) (fun _ _ => Bool.false_ne_true) rs h

/-! ### Last segments -/

theorem slash_not_mem_splitFile (s : Bytes) : 47 ∉ splitFile s := by
  intro h
  have := List.mem_takeWhile_imp (List.mem_reverse.mp h)
  simp at this

/-- What stands before a slash does not matter. -/
theorem splitFile_append_slash (s s' : Bytes) : splitFile (s ++ 47 :: s') = splitFile s' := by
  rw [splitFile, splitFile, List.reverse_append, List.reverse_cons, List.append_assoc]
  congr 1
  by_cases h : ∀ c ∈ s'.reverse, (c != 47) = true
  · rw [List.takeWhile_append_of_pos h, List.takeWhile_eq_self_iff.mpr h]
    simp
  · rw [List.takeWhile_append, if_neg]
    intro hlen
    exact h (List.takeWhile_eq_self_iff.mp ((List.takeWhile_prefix _).eq_of_length hlen))

theorem splitFile_of_last_slash {s : Bytes} (h : s.getLast? = some 47) : splitFile s = [] := by
  obtain ⟨l, rfl⟩ := List.getLast?_eq_some_iff.mp h
  exact splitFile_append_slash l []

theorem trimRightSlash_of_last {s : Bytes} (h : s.getLast? ≠ some 47) : trimRightSlash s = s := by
  rcases List.eq_nil_or_concat' s with rfl | ⟨l, c, rfl⟩
  · rfl
  · have hc : c ≠ 47 := fun hc => h (by simp [hc])
    rw [trimRightSlash, List.reverse_append, List.reverse_singleton, List.singleton_append,
      List.dropWhile_cons_of_neg (by simpa using hc)]
    simp

theorem last_trimRightSlash (s : Bytes) : (trimRightSlash s).getLast? ≠ some 47 := by
  rw [trimRightSlash, List.getLast?_reverse]
  intro h
  have := List.head?_dropWhile_not (· == 47) s.reverse
  rw [h] at this
  cases this

theorem splitFile_trimLeftSlash (s : Bytes) : splitFile (trimLeftSlash s) = splitFile s := by
  induction s with
  | nil => rfl
  | cons c s ih =>
    by_cases hc : c = 47
    · subst hc
      rw [trimLeftSlash, List.dropWhile_cons_of_pos (by decide)]
      exact ih.trans (splitFile_append_slash [] s).symm
    · rw [trimLeftSlash, List.dropWhile_cons_of_neg (by simpa using hc)]

/-- `filepath.Base` of a text that does not end in a slash. -/
theorem fileBase_of_last {s : Bytes} (hs : s ≠ []) (h : s.getLast? ≠ some 47) : fileBase s = splitFile s := by
  rw [fileBase, if_neg hs, trimRightSlash_of_last h, if_neg hs]

/-- The last segment of a text that ends otherwise. -/
theorem splitFile_ne_nil {s : Bytes} (hs : s ≠ []) (h : s.getLast? ≠ some 47) : splitFile s ≠ [] := by
  obtain ⟨l, c, rfl⟩ := (List.eq_nil_or_concat' s).resolve_left hs
  have hc : c ≠ 47 := fun hc => h (by simp [hc])
  rw [splitFile, List.reverse_append, List.reverse_singleton, List.singleton_append,
    List.takeWhile_cons_of_pos (by simpa using hc)]
  simp

theorem fileBase_ne_nil (s : Bytes) : fileBase s ≠ [] := by
  unfold fileBase
  split_ifs with _ ht
  · decide
  · decide
  · exact splitFile_ne_nil ht (last_trimRightSlash s)

/-! ### Finding the track again -/

/-- The transport of a relative control that does not end in a slash, and of an absolute one whose URL's
path ends like its text. -/
def FoundAgain (track path : Bytes) : Prop :=
  if ascii "rtsp://" <+: track then splitFile path = fileBase track else track.getLast? ≠ some 47

instance (track path : Bytes) : Decidable (FoundAgain track path) :=
  inferInstanceAs (Decidable (if ascii "rtsp://" <+: track then splitFile path = fileBase track
    else track.getLast? ≠ some 47))

/-- A media-level control is never a wildcard. -/
theorem star_not_mem_parseTracks (sdp : Bytes) : ascii "*" ∉ parseTracks sdp := by
  intro h
  unfold parseTracks at h
  dsimp only at h
  split_ifs at h with hnil
  · exact absurd (List.mem_singleton.mp h) (by decide)
  · obtain ⟨control, hc, hstar⟩ := List.mem_map.mp h
    obtain ⟨line, hline, rfl⟩ := List.mem_map.mp hc
    have hne := (of_decide_eq_true (List.mem_filter.mp hline).2).2
    unfold resolveControl at hstar
    split_ifs at hstar
    · exact hne hstar
    · have hmem : (47 : UInt8) ∈ ascii "*" := hstar ▸ by simp
      exact absurd hmem (by decide)
    · exact hne hstar

/-- **When `SetupUpstream` takes the transport that it has set up for the track's.** -/
theorem isTrack_iff {parse : Bytes → Option Bytes} {streamPath track path : Bytes} {t : Transport}
    (hstar : track ≠ ascii "*") (hpath : setupPath parse streamPath track = some path)
    (ht : t.substreamName = splitFile path) : isTrack streamPath track t = true ↔ FoundAgain track path := by
  have hcases : isTrack streamPath track t = true ↔
      splitFile path = track ∨ (track = [] ∧ splitFile path = fileBase streamPath) ∨
        track ≠ [] ∧ splitFile path = fileBase track := by
    simp only [isTrack, ht, Bool.or_eq_true, Bool.and_eq_true, beq_iff_eq, bne_iff_ne]
    tauto
  rw [hcases]
  unfold setupPath at hpath
  unfold FoundAgain
  by_cases hnil : track = []
  · -- the stream's own path is asked for, and its last segment is looked for
    subst hnil
    obtain rfl : streamPath = path := by simpa using hpath
    rw [if_neg (by decide)]
    refine iff_of_true ?_ (by decide)
    by_cases hlast : streamPath = [] ∨ streamPath.getLast? = some 47
    · rcases hlast with rfl | hlast
      · exact .inl rfl
      · exact .inl (splitFile_of_last_slash hlast)
    · obtain ⟨hne, hlast⟩ := not_or.mp hlast
      exact .inr (.inl ⟨rfl, (fileBase_of_last hne hlast).symm⟩)
  · rw [if_neg (by simp [hnil, hstar])] at hpath
    by_cases habs : ascii "rtsp://" <+: track
    · rw [if_pos habs]
      have hslash : (47 : UInt8) ∈ track := habs.subset (by decide)
      have hne : splitFile path ≠ track := fun h => slash_not_mem_splitFile path (h.symm ▸ hslash)
      simp [hnil, hne]
    · rw [if_neg habs, Option.some.injEq] at hpath
      have hfile : splitFile path = splitFile track := by
        rw [← hpath, List.append_assoc, List.singleton_append, splitFile_append_slash, splitFile_trimLeftSlash]
      rw [if_neg habs, hfile]
      by_cases hlast : track.getLast? = some 47
      · -- the segment is empty, and neither word is
        simp [hlast, splitFile_of_last_slash hlast, hnil, Ne.symm hnil, (fileBase_ne_nil track).symm]
      · exact iff_of_true (.inr (.inr ⟨hnil, (fileBase_of_last hnil hlast).symm⟩)) hlast

/-- The SSRC that a SETUP response names. -/
def ssrcOf (response : Response) : Bytes :=
  ((parseTransport (headerGet response.headers (ascii "Transport"))).2.2 (ascii "ssrc")).getD []

/-- The first SETUP response makes one session with one transport. -/
theorem handleSetup_empty (conn : ℕ) (path : Bytes) (response : Response) :
    (handleSetup conn path ∅ response).keys = [sessionID response] ∧
      ∃ session t, (handleSetup conn path ∅ response).lookup (sessionID response) = some session ∧
        session.transports = [t] ∧ t.substreamName = splitFile path ∧ t.ssrc = ssrcOf response := by
  refine ⟨?_, _, _, AList.lookup_insert _, rfl, rfl, rfl⟩
  rw [handleSetup]
  simp [Sessions.lookupSession]

/-- **`SetupUpstream` returns the SSRC and the session of the response to its SETUP exactly when the track's
control can be found again**: for every track of every SDP, every stream path, and a stream without
sessions. -/
theorem setupUpstream_finds_iff (parse : Bytes → Option Bytes) (sdp streamPath track path : Bytes) (env : Env) (i : ℕ)
    (response : Response) (htrack : track ∈ parseTracks sdp) (hpath : setupPath parse streamPath track = some path)
    (henv : env.setup i (newRequest (.setup (setupTransport i)) path).headers = ⟨[response], true⟩) :
    (setupUpstreamSsrc parse env streamPath i track ∅).2 = .ok (ssrcOf response, sessionID response) ↔
      FoundAgain track path := by
  have hstar : track ≠ ascii "*" := fun h => star_not_mem_parseTracks sdp (h ▸ htrack)
  have hss : setupAnswered env i path ∅ = handleSetup env.conn path ∅ response := by
    rw [setupAnswered, henv]
    rfl
  obtain ⟨hkeys, session, t, hlookup, hts, hname, hssrc⟩ := handleSetup_empty env.conn path response
  have horder : env.order i [sessionID response] = [sessionID response] :=
    List.perm_singleton.mp (env.order_perm i _)
  rw [← isTrack_iff hstar hpath hname]
  simp only [setupUpstreamSsrc, hpath, hss, henv, hkeys, horder, Sessions.findTransport, List.findSome?_cons, hlookup,
    Option.bind_some, hts, List.find?_cons, if_true]
  cases isTrack streamPath track t <;> simp [hssrc]

/-- A camera's answer to SETUP. -/
def setupOK : Response :=
  ⟨ascii "OK", ascii "RTSP/1.0", 200,
    [(ascii "Session", ascii "7;timeout=30"), (ascii "Transport", ascii "RTP/AVP/TCP;unicast;interleaved=0-1;ssrc=AB")],
    []⟩

/-- A camera that gives every SETUP this answer. -/
def setupOKEnv : Env :=
  ⟨0, ⟨[], true⟩, ⟨[], true⟩, fun _ _ => ⟨[setupOK], true⟩, ⟨[], true⟩, fun _ ids => ids, fun _ _ => .refl _⟩

/-- An SDP with one track. -/
def oneControl (control : String) : Bytes := ascii "v=0\r\nm=video 0 RTP/AVP 96\r\na=control:" ++ ascii control

theorem setupUpstream_finds_track1 :
    (setupUpstreamSsrc (fun _ => none) setupOKEnv (ascii "/live") 0 (ascii "track1") ∅).2 =
      .ok (ascii "AB", ascii "7") :=
  (setupUpstream_finds_iff (fun _ => none) (oneControl "track1") (ascii "/live") (ascii "track1") (ascii "/live/track1")
    setupOKEnv 0 setupOK (by decide +kernel) (by decide) rfl).mpr (by decide)

/-- **A control that ends in a slash, and a URL with a query: what was set up is not found.** -/
theorem not_found_again :
    (parseTracks (oneControl "track1/") = [ascii "track1/"] ∧
        setupPath (fun _ => none) (ascii "/live") (ascii "track1/") = some (ascii "/live/track1/") ∧
        (setupUpstreamSsrc (fun _ => none) setupOKEnv (ascii "/live") 0 (ascii "track1/") ∅).2 =
          .error (.failed (ascii "track1/"))) ∧
      parseTracks (oneControl "rtsp://cam/live/track?id=1") = [ascii "rtsp://cam/live/track?id=1"] ∧
        (setupUpstreamSsrc (fun _ => some (ascii "/live/track")) setupOKEnv (ascii "/live") 0
          (ascii "rtsp://cam/live/track?id=1") ∅).2 = .error (.failed (ascii "rtsp://cam/live/track?id=1")) := by
  refine ⟨⟨by decide +kernel, by decide +kernel, ?_⟩, by decide +kernel, ?_⟩
  · rfl
  · rfl

end RtspProxy.Upstream
