import Mathlib.Data.List.Induction
import RtspProxy.Upstream.Session

/-!
# Which session a reconnect plays

The sessions of a stream outlive the connection they were made on: `connectLoop` connects again
without clearing `stream.sessions`, which only `Stop` and `Destroy` do. And `SetupUpstream` sends
no `Session` header, also not for the second track.

## The model

`idents ss id` are the transports of the session `id`, each as the three names by which
`LookupTransport` knows it and the connection that made it. A SETUP response changes nothing
else about them: it leaves those there are, and may add one to the session it names
(`Grows`).

## What is proved

* `doConnectSequence_grows`, `played_found` — what a connect sequence does to the transports, and
  that the session it plays has one.
* `reconnect_current_iff` — whatever came before: a connect sequence plays the session of its
  connection, and leaves only transports of its connection to be found, exactly when no
  transport was left when it began.
* `one_session_iff` — with a camera that makes a new session for each SETUP that names none, a
  stream has one session for all tracks exactly when the SDP has one track.
-/

namespace RtspProxy.Upstream

open Theory Wire

/-! ### Transports by name -/

/-- What identifies a transport, and the connection that made it. -/
structure Ident where
  substreamName : Bytes
  protocol : Bytes
  comType : Bytes
  /-- The connection. -/
  conn : ℕ

/-- The identity of a transport. -/
def Transport.ident (t : Transport) : Ident := ⟨t.substreamName, t.protocol, t.comType, t.conn⟩

/-- The transports of the session `id`. -/
def idents (ss : Sessions) (id : Bytes) : List Ident :=
  ((ss.lookup id).map fun session => session.transports.map Transport.ident).getD []

theorem mem_idents {ss : Sessions} {id : Bytes} {x : Ident} :
    x ∈ idents ss id ↔ ∃ session, ss.lookup id = some session ∧ ∃ t ∈ session.transports, t.ident = x := by
  rw [idents]
  cases ss.lookup id with
  | none => simp
  | some session => simp

theorem idents_insert (ss : Sessions) (id : Bytes) (session : Session) (id' : Bytes) :
    idents (ss.insert id session) id' =
      if id' = id then session.transports.map Transport.ident else idents ss id' := by
  split_ifs with h
  · rw [idents, h, AList.lookup_insert]
    rfl
  · rw [idents, AList.lookup_insert_ne h, idents]

theorem mem_lookupSession (ss : Sessions) (id id' : Bytes) : id' ∈ (ss.lookupSession id).2 ↔ id' = id ∨ id' ∈ ss := by
  rw [Sessions.lookupSession]
  cases h : ss.lookup id with
  | none => exact AList.mem_insert ss
  | some session =>
    have hid : id ∈ ss := AList.lookup_isSome.mp (by rw [h]; rfl)
    constructor
    · exact .inr
    · rintro (rfl | h')
      · exact hid
      · exact h'

theorem idents_lookupSession (ss : Sessions) (id : Bytes) : idents (ss.lookupSession id).2 = idents ss := by
  funext id'
  rw [Sessions.lookupSession]
  cases h : ss.lookup id with
  | some session => rfl
  | none =>
    rw [idents_insert]
    split_ifs with hid
    · rw [hid, idents, h]
      rfl
    · rfl

/-- What the session found has, the sessions had. -/
theorem idents_of_lookupSession (ss : Sessions) (id : Bytes) :
    (ss.lookupSession id).1.transports.map Transport.ident = idents ss id := by
  rw [Sessions.lookupSession, idents]
  cases ss.lookup id <;> rfl

/-- A response assigns a transport its SSRC and channels, not another identity. -/
theorem ident_assign (params : Bytes → Option Bytes) (t : Transport) : (t.assign params).ident = t.ident := rfl

theorem map_modify {α β : Type} {g : α → β} {f : α → α} (h : ∀ a, g (f a) = g a) (l : List α) (i : ℕ) :
    (l.modify i f).map g = l.map g := by
  induction l generalizing i with
  | nil => simp
  | cons a l ih =>
    cases i with
    | zero => simp [h]
    | succ i => simp [ih]

/-- A SETUP response leaves the transports of its session as they are, or adds one. -/
theorem ident_setTransport (session : Session) (n p c : Bytes) (conn : ℕ) (params : Bytes → Option Bytes) :
    ((session.setTransport n p c conn (Transport.assign params)).map Transport.ident =
        session.transports.map Transport.ident ∧ ∃ x ∈ session.transports.map Transport.ident, x.substreamName = n) ∨
    (session.setTransport n p c conn (Transport.assign params)).map Transport.ident =
      session.transports.map Transport.ident ++ [⟨n, p, c, conn⟩] := by
  rw [Session.setTransport]
  cases h : session.transports.findIdx? (Transport.is n p c) with
  | some i =>
    left
    refine ⟨map_modify (ident_assign params) _ i, ?_⟩
    obtain ⟨hi, his, -⟩ := List.findIdx?_eq_some_iff_getElem.mp h
    simp only [Transport.is, Bool.and_eq_true, beq_iff_eq] at his
    exact ⟨_, List.mem_map_of_mem (List.getElem_mem hi), his.1.1⟩
  | none =>
    right
    rw [List.map_append]
    rfl

/-! ### What a connect sequence does to the transports -/

/-- From the sessions `ss` to `ss'`: nothing is lost, and new transports are of the connection
`conn` and in sessions that satisfy `C`. -/
structure Grows (conn : ℕ) (C : Bytes → Prop) (ss ss' : Sessions) : Prop where
  /-- No session is lost. -/
  mem : ∀ {id}, id ∈ ss → id ∈ ss'
  /-- No transport is lost. -/
  keeps : ∀ {id x}, x ∈ idents ss id → x ∈ idents ss' id
  /-- A new transport is of the connection. -/
  adds : ∀ {id x}, x ∈ idents ss' id → x ∈ idents ss id ∨ C id ∧ x.conn = conn

variable {conn : ℕ} {C : Bytes → Prop} {ss ss' ss'' : Sessions}

theorem Grows.refl : Grows conn C ss ss := ⟨id, id, .inl⟩

theorem Grows.trans (h : Grows conn C ss ss') (h' : Grows conn C ss' ss'') : Grows conn C ss ss'' := by
  refine ⟨fun hid => h'.mem (h.mem hid), fun hx => h'.keeps (h.keeps hx), fun hx => ?_⟩
  rcases h'.adds hx with hx | hx
  · exact h.adds hx
  · exact .inr hx

/-- Something done to the sessions again and again, each time growing them. -/
theorem Grows.foldl {β : Type} {f : Sessions → β → Sessions} {l : List β}
    (h : ∀ b ∈ l, ∀ ss, Grows conn C ss (f ss b)) (ss : Sessions) : Grows conn C ss (l.foldl f ss) := by
  induction l generalizing ss with
  | nil => exact .refl
  | cons b l ih =>
    obtain ⟨hb, hl⟩ := List.forall_mem_cons.mp h
    exact (hb ss).trans (ih hl _)

theorem handleSetup_spec (conn : ℕ) (path : Bytes) (ss : Sessions) (response : Response) :
    (∀ id, id ∈ handleSetup conn path ss response ↔ id = sessionID response ∨ id ∈ ss) ∧
    (∀ id, id ≠ sessionID response → idents (handleSetup conn path ss response) id = idents ss id) ∧
    ((idents (handleSetup conn path ss response) (sessionID response) = idents ss (sessionID response) ∧
        ∃ x ∈ idents ss (sessionID response), x.substreamName = splitFile path) ∨
      ∃ p c, idents (handleSetup conn path ss response) (sessionID response) =
        idents ss (sessionID response) ++ [⟨splitFile path, p, c, conn⟩]) := by
  rw [handleSetup]
  refine ⟨fun id => ?_, fun id hid => ?_, ?_⟩
  · rw [AList.mem_insert, mem_lookupSession]
    tauto
  · rw [idents_insert, if_neg hid, idents_lookupSession]
  · rw [idents_insert, if_pos rfl, ← idents_of_lookupSession]
    rcases ident_setTransport (ss.lookupSession (sessionID response)).1 (splitFile path) _ _ conn _ with h | h
    · exact .inl h
    · exact .inr ⟨_, _, h⟩

/-- A SETUP response adds at most a transport of its connection to its session. -/
theorem handleSetup_grows {path : Bytes} {response : Response} (hC : C (sessionID response)) (ss : Sessions) :
    Grows conn C ss (handleSetup conn path ss response) := by
  obtain ⟨hmem, hother, hsame⟩ := handleSetup_spec conn path ss response
  refine ⟨fun hid => (hmem _).mpr (.inr hid), fun {id x} hx => ?_, fun {id x} hx => ?_⟩
  · by_cases hid : id = sessionID response
    · subst hid
      rcases hsame with ⟨h, -⟩ | ⟨p, c, h⟩
      · rwa [h]
      · rw [h]
        exact List.mem_append_left _ hx
    · rwa [hother id hid]
  · by_cases hid : id = sessionID response
    · subst hid
      rcases hsame with ⟨h, -⟩ | ⟨p, c, h⟩
      · exact .inl (h ▸ hx)
      · rw [h] at hx
        rcases List.mem_append.mp hx with hx | hx
        · exact .inl hx
        · obtain rfl := List.mem_singleton.mp hx
          exact .inr ⟨hC, rfl⟩
    · exact .inl (hother id hid ▸ hx)

/-- Every SETUP response of the environment names a session that satisfies `C`. -/
def Env.Answers (env : Env) (C : Bytes → Prop) : Prop :=
  ∀ i headers, ∀ response ∈ (env.setup i headers).handled, C (sessionID response)

variable {parse : Bytes → Option Bytes} {env : Env} {streamPath track id : Bytes}

theorem setupAnswered_grows (hC : env.Answers C) (i : ℕ) (path : Bytes) (ss : Sessions) :
    Grows env.conn C ss (setupAnswered env i path ss) :=
  Grows.foldl (fun response hr => handleSetup_grows (hC i _ response hr)) ss

/-- The session that the search of `SetupUpstream` finds has a transport. -/
theorem findTrack_found {order : List Bytes} (h : ss.findTrack order streamPath track = some id) :
    id ∈ order ∧ ∃ x, x ∈ idents ss id := by
  rw [findTrack_eq] at h
  refine ⟨List.mem_of_find?_eq_some h, ?_⟩
  have hfound := List.find?_some h
  obtain ⟨t, ht⟩ := Option.isSome_iff_exists.mp hfound
  obtain ⟨session, hs, ht⟩ := Option.bind_eq_some_iff.mp ht
  exact ⟨t.ident, mem_idents.mpr ⟨session, hs, t, List.mem_of_find?_eq_some ht, rfl⟩⟩

/-- What `SetupUpstream` does: it does not know the path, or the request is answered; and when it
succeeds, it has found the session it returns. -/
theorem setupUpstream_cases (parse : Bytes → Option Bytes) (env : Env) (streamPath : Bytes) (i : ℕ) (track : Bytes)
    (ss : Sessions) : setupUpstream parse env streamPath i track ss = (ss, .error .crashed) ∨
      ∃ path, setupPath parse streamPath track = some path ∧
        ((∃ e, setupUpstream parse env streamPath i track ss = (setupAnswered env i path ss, .error e)) ∨
        ∃ id, setupUpstream parse env streamPath i track ss = (setupAnswered env i path ss, .ok id) ∧
          (env.setup i (newRequest (.setup (setupTransport i)) path).headers).ok = true ∧
          id ∈ setupAnswered env i path ss ∧ ∃ x, x ∈ idents (setupAnswered env i path ss) id) := by
  rw [setupUpstream_eq]
  cases hpath : setupPath parse streamPath track with
  | none => exact .inl rfl
  | some path =>
    refine .inr ⟨path, rfl, ?_⟩
    simp only
    split_ifs with hok
    · split
      · rename_i id hfind
        obtain ⟨hid, hx⟩ := findTrack_found hfind
        exact .inr ⟨id, rfl, hok, (env.order_perm _ _).mem_iff.mp hid, hx⟩
      · exact .inl ⟨_, rfl⟩
    · exact .inl ⟨_, rfl⟩

/-- The SETUP loop adds at most transports of its connection. -/
theorem setupLoop_grows (hC : env.Answers C) : ∀ (tracks : List Bytes) (i : ℕ) (id : Bytes) (ss : Sessions),
    Grows env.conn C ss (setupLoop parse env streamPath i tracks id ss).1 := by
  intro tracks
  induction tracks with
  | nil => exact fun i id ss => .refl
  | cons track tracks ih =>
    intro i id ss
    rw [setupLoop]
    obtain h | ⟨path, -, ⟨e, h⟩ | ⟨id', h, -⟩⟩ := setupUpstream_cases parse env streamPath i track ss
    · rw [h]
      exact .refl
    · rw [h]
      exact setupAnswered_grows hC i path ss
    · rw [h]
      exact (setupAnswered_grows hC i path ss).trans (ih (i + 1) id' _)

/-- When the SETUP loop succeeds, the session it returns is there and has a transport. -/
theorem setupLoop_found : ∀ (tracks : List Bytes) (i : ℕ) (id₀ : Bytes) (ss : Sessions), tracks ≠ [] →
    setupLoop parse env streamPath i tracks id₀ ss = (ss', .ok id) → id ∈ ss' ∧ ∃ x, x ∈ idents ss' id := by
  intro tracks
  induction tracks with
  | nil => exact fun i id₀ ss hne _ => absurd rfl hne
  | cons track tracks ih =>
    intro i id₀ ss _ hloop
    rw [setupLoop] at hloop
    obtain h | ⟨path, -, ⟨e, h⟩ | ⟨id', h, -, hmem, hx⟩⟩ := setupUpstream_cases parse env streamPath i track ss
    · rw [h] at hloop
      cases hloop
    · rw [h] at hloop
      cases hloop
    · rw [h] at hloop
      cases tracks with
      | nil =>
        simp only [setupLoop, Prod.mk.injEq, Except.ok.injEq] at hloop
        obtain ⟨rfl, rfl⟩ := hloop
        exact ⟨hmem, hx⟩
      | cons track' tracks => exact ih (i + 1) id' _ (by simp) hloop

/-- A session that is there is looked up, not made. -/
theorem lookupSession_of_mem (h : id ∈ ss) : (ss.lookupSession id).2 = ss := by
  obtain ⟨session, hs⟩ := Option.isSome_iff_exists.mp (AList.lookup_isSome.mpr h)
  rw [Sessions.lookupSession, hs]

/-- PLAY of a session that is there changes no session. -/
theorem playUpstream_sessions (h : id ∈ ss) : (playUpstream parse env id ss).1 = ss := by
  have hfold : ∀ l : List Response, l.foldlM (handlePlay parse id) ss = some ss ∨
      l.foldlM (handlePlay parse id) ss = none := by
    intro l
    induction l with
    | nil => exact .inl rfl
    | cons response l ih =>
      rw [List.foldlM_cons, handlePlay, lookupSession_of_mem h]
      split_ifs
      · exact ih
      · exact .inr rfl
  rw [playUpstream]
  rcases hfold env.play.handled with h | h <;> rw [h]

theorem foldl_handleOptions (l : List Response) (st : StreamRec) :
    ∃ o v, l.foldl StreamRec.handleOptions st = { st with options := o, server := v } := by
  induction l generalizing st with
  | nil => exact ⟨_, _, rfl⟩
  | cons response l ih =>
    obtain ⟨o, v, h⟩ := ih (st.handleOptions response)
    exact ⟨o, v, h⟩

theorem foldl_handleDescribe (l : List Response) (st : StreamRec) :
    l.foldl StreamRec.handleDescribe st = { st with sdp := l.foldl (fun _ response => response.body) st.sdp } := by
  induction l generalizing st with
  | nil => rfl
  | cons response l ih => exact ih (st.handleDescribe response)

theorem getOptions_eq (st : StreamRec) (env : Env) :
    ∃ o v, (st.getOptions env).1 = { st with options := o, server := v } := by
  rw [StreamRec.getOptions]
  split_ifs
  · exact foldl_handleOptions _ st
  · exact ⟨_, _, rfl⟩

/-- The SDP that a connect sequence works with: the one it has, or the one it is sent. -/
def sdpFor (st : StreamRec) (env : Env) : Bytes :=
  if st.sdp = [] then env.describe.handled.foldl (fun _ response => response.body) st.sdp else st.sdp

theorem getSDP_eq (st : StreamRec) (env : Env) : (st.getSDP env).1 = { st with sdp := sdpFor st env } := by
  rw [StreamRec.getSDP, sdpFor]
  split_ifs
  · exact foldl_handleDescribe _ st
  · rfl

/-- How a connect sequence can end, as far as the sessions show it. -/
inductive Connects (parse : Bytes → Option Bytes) (st : StreamRec) (env : Env) : StreamRec × Outcome → Prop
  /-- Before any SETUP. -/
  | early {r : StreamRec × Outcome} : r.1.sessions = st.sessions → (∀ id, r.2 ≠ .played id) → Connects parse st env r
  /-- In the SETUP loop. -/
  | notSetUp {r : StreamRec × Outcome} {e : SetupError} :
      setupLoop parse env st.path 0 (parseTracks (sdpFor st env)) [] st.sessions = (r.1.sessions, .error e) →
        (∀ id, r.2 ≠ .played id) → Connects parse st env r
  /-- After it, with PLAY for the session it returned. -/
  | setUp {r : StreamRec × Outcome} {id : Bytes} :
      setupLoop parse env st.path 0 (parseTracks (sdpFor st env)) [] st.sessions = (r.1.sessions, .ok id) →
        (∀ id', r.2 = .played id' → id' = id) → Connects parse st env r

theorem connects (parse : Bytes → Option Bytes) (st : StreamRec) (env : Env) :
    Connects parse st env (doConnectSequence parse st env) := by
  obtain ⟨o, v, ho⟩ := getOptions_eq st env
  have h₁ : st.getOptions env = ({ st with options := o, server := v }, (st.getOptions env).2) := Prod.ext ho rfl
  rw [doConnectSequence, h₁]
  cases (st.getOptions env).2 with
  | false => exact .early rfl (by simp)
  | true =>
    generalize hst : ({ st with options := o, server := v } : StreamRec) = st₁
    have hs : (st₁.getSDP env).1 = { st₁ with sdp := sdpFor st env } := by
      rw [getSDP_eq, ← hst]
      rfl
    have h₂ : st₁.getSDP env = ({ st₁ with sdp := sdpFor st env }, (st₁.getSDP env).2) := Prod.ext hs rfl
    simp only
    rw [h₂]
    cases (st₁.getSDP env).2 with
    | false => exact .early (by rw [← hst]) (by simp)
    | true =>
      subst hst
      simp only
      cases hloop : setupLoop parse env st.path 0 (parseTracks (sdpFor st env)) [] st.sessions with
      | mk ss result =>
        cases result with
        | error e => exact .notSetUp hloop (by simp)
        | ok id =>
          obtain ⟨hid, -⟩ := setupLoop_found _ _ _ _ (parseTracks_ne_nil _) hloop
          refine .setUp (?_ : _ = (_, Except.ok id)) ?_
          · simp only [playUpstream_sessions hid]
            exact hloop
          · intro id' h
            simp only [playUpstream] at h
            split at h
            · cases h
            · split_ifs at h
              cases h
              rfl

/-- A connect sequence adds at most transports of its connection. -/
theorem doConnectSequence_grows (parse : Bytes → Option Bytes) (hC : env.Answers C) (st : StreamRec) :
    Grows env.conn C st.sessions (doConnectSequence parse st env).1.sessions := by
  have hloop : Grows env.conn C st.sessions
      (setupLoop parse env st.path 0 (parseTracks (sdpFor st env)) [] st.sessions).1 := setupLoop_grows hC ..
  cases connects parse st env with
  | early h _ =>
    rw [h]
    exact .refl
  | notSetUp h _ => rwa [h] at hloop
  | setUp h _ => rwa [h] at hloop

/-- The session that a connect sequence plays was returned by its SETUP loop. -/
theorem played_found {st : StreamRec} (h : (doConnectSequence parse st env).2 = .played id) :
    setupLoop parse env st.path 0 (parseTracks (sdpFor st env)) [] st.sessions =
      ((doConnectSequence parse st env).1.sessions, .ok id) := by
  cases connects parse st env with
  | early _ hno => exact absurd h (hno id)
  | notSetUp _ hno => exact absurd h (hno id)
  | setUp hloop hid =>
    rw [hid id h]
    exact hloop

/-! ### Reconnecting -/

/-- One connection: what happens on it, and the session id of its SETUP responses. -/
structure Connection where
  /-- What happens in its connect sequence. -/
  env : Env
  /-- The session id of its SETUP responses. -/
  session : Bytes
  /-- They all carry it. -/
  same : env.Answers (· = session)

/-- One connect sequence after the other. -/
def connectAll (parse : Bytes → Option Bytes) (st : StreamRec) (cs : List Connection) : StreamRec :=
  cs.foldl (fun st c => (doConnectSequence parse st c.env).1) st

/-- A transport comes from one of the connections, and is in its session. -/
theorem connectAll_idents {st : StreamRec} (h₀ : st.sessions = ∅) (cs : List Connection) {x : Ident}
    (hx : x ∈ idents (connectAll parse st cs).sessions id) : ∃ c ∈ cs, c.session = id ∧ c.env.conn = x.conn := by
  -- from the last connection back: it made the transport, or the transport was there before it
  induction cs using List.reverseRecOn with
  | nil =>
    rw [connectAll, List.foldl_nil, h₀] at hx
    simp [idents] at hx
  | append_singleton cs c ih =>
    rw [connectAll, List.foldl_append, ← connectAll] at hx
    rcases (doConnectSequence_grows parse c.same (connectAll parse st cs)).adds hx with hx | ⟨hid, hconn⟩
    · obtain ⟨c', hc', h⟩ := ih hx
      exact ⟨c', List.mem_append_left _ hc', h⟩
    · exact ⟨c, List.mem_append_right _ (List.mem_singleton_self c), hid.symm, hconn.symm⟩

/-- What `LookupTransport` returns is a transport of a session. -/
theorem lookupTransport_found {order : List Bytes} {n p c : Bytes} {t : Transport}
    (h : ss.lookupTransport order n p c = some t) : ∃ id, t.ident ∈ idents ss id := by
  obtain ⟨_, id, _, -, h, -⟩ := List.findSome?_eq_some_iff.mp h
  obtain ⟨session, hs, ht⟩ := Option.bind_eq_some_iff.mp h
  exact ⟨id, mem_idents.mpr ⟨session, hs, t, List.mem_of_find?_eq_some ht, rfl⟩⟩

/-- When the session of a transport is visited first, its name finds a transport of the session. -/
theorem lookupTransport_first {x : Ident} (hx : x ∈ idents ss id) (order : List Bytes) :
    ∃ t, ss.lookupTransport (id :: order) x.substreamName x.protocol x.comType = some t ∧ t.ident ∈ idents ss id := by
  obtain ⟨session, hs, t, ht, rfl⟩ := mem_idents.mp hx
  have hfind : (session.transports.find? (Transport.is t.substreamName t.protocol t.comType)).isSome = true := by
    rw [List.find?_isSome]
    exact ⟨t, ht, by simp [Transport.is]⟩
  obtain ⟨t', ht'⟩ := Option.isSome_iff_exists.mp hfind
  refine ⟨t', ?_, mem_idents.mpr ⟨session, hs, t', List.mem_of_find?_eq_some ht', rfl⟩⟩
  rw [Sessions.lookupTransport, List.findSome?_cons]
  simp only [hs, Option.bind_some, Transport.ident, ht']

/-- **Reconnecting, and when it uses only the current session**: after any number of earlier
connections since the sessions were last cleared, a connect sequence that succeeds has sent PLAY
for the session of its own connection, and leaves `LookupTransport`, in whatever order it visits
the sessions, only transports of its own connection to return, exactly when no session had a
transport left when it began. -/
theorem reconnect_current_iff (parse : Bytes → Option Bytes) (st : StreamRec) (h₀ : st.sessions = ∅)
    (earlier : List Connection) (last : Connection) (hids : ((earlier ++ [last]).map fun c => c.session).Nodup)
    (hconns : ((earlier ++ [last]).map fun c => c.env.conn).Nodup) (id : Bytes)
    (h : (doConnectSequence parse (connectAll parse st earlier) last.env).2 = .played id) :
    (id = last.session ∧ ∀ order : List Bytes,
      order.Perm (doConnectSequence parse (connectAll parse st earlier) last.env).1.sessions.keys →
      ∀ n p c t, (doConnectSequence parse (connectAll parse st earlier) last.env).1.sessions.lookupTransport order n p c
        = some t → t.conn = last.env.conn) ↔
    ∀ id session, (connectAll parse st earlier).sessions.lookup id = some session → session.transports = [] := by
  have hgrows := doConnectSequence_grows parse last.same (connectAll parse st earlier)
  have hsessions : ∀ c ∈ earlier, c.session ≠ last.session := by
    intro c hc heq
    rw [List.map_append, List.nodup_append] at hids
    exact hids.2.2 _ (List.mem_map_of_mem hc) _ (by simp) heq
  have hconn : ∀ c ∈ earlier, c.env.conn ≠ last.env.conn := by
    intro c hc heq
    rw [List.map_append, List.nodup_append] at hconns
    exact hconns.2.2 _ (List.mem_map_of_mem hc) _ (by simp) heq
  constructor
  · rintro ⟨-, hfound⟩ id' session hs
    by_contra hne
    obtain ⟨t, ht⟩ := List.exists_mem_of_ne_nil _ hne
    have hx : t.ident ∈ idents (connectAll parse st earlier).sessions id' := mem_idents.mpr ⟨session, hs, t, ht, rfl⟩
    obtain ⟨c, hc, hcs, -⟩ := connectAll_idents h₀ earlier hx
    have hx' := hgrows.keeps hx
    have hkey : id' ∈ (doConnectSequence parse (connectAll parse st earlier) last.env).1.sessions.keys := by
      obtain ⟨session', hs', -⟩ := mem_idents.mp hx'
      exact AList.lookup_isSome.mp (by rw [hs']; rfl)
    obtain ⟨t', hlook, ht'⟩ := lookupTransport_first hx' (List.erase _ id')
    have hcur := hfound _ (List.perm_cons_erase hkey).symm _ _ _ t' hlook
    rcases hgrows.adds ht' with hold | ⟨hid, -⟩
    · obtain ⟨c', hc', -, hcc⟩ := connectAll_idents h₀ earlier hold
      exact hconn c' hc' (hcc.trans hcur)
    · exact hsessions c hc (hcs.trans hid)
  · intro hnone
    have hempty : ∀ id' x, x ∉ idents (connectAll parse st earlier).sessions id' := by
      intro id' x hx
      obtain ⟨session, hs, t, ht, -⟩ := mem_idents.mp hx
      rw [hnone id' session hs] at ht
      cases ht
    constructor
    · obtain ⟨-, x, hx⟩ := setupLoop_found _ _ _ _ (parseTracks_ne_nil _) (played_found h)
      rcases hgrows.adds hx with hold | ⟨hid, -⟩
      · exact absurd hold (hempty _ _)
      · exact hid
    · intro order _ n p c t hlook
      obtain ⟨id', hx⟩ := lookupTransport_found hlook
      rcases hgrows.adds hx with hold | ⟨-, hc⟩
      · exact absurd hold (hempty _ _)
      · exact hc

/-- The answer to a SETUP that names a session. -/
def setupResponse (session : Bytes) : Response :=
  ⟨ascii "OK", ascii "RTSP/1.0", 200, [(ascii "Session", session), (ascii "Transport", setupTransport 0)], []⟩

theorem sessionID_setupResponse {session : Bytes} (h : 59 ∉ session) : sessionID (setupResponse session) = session := by
  have hget : headerGet (setupResponse session).headers (ascii "Session") = session := rfl
  rw [sessionID, hget, List.splitOn_eq_singleton h]
  rfl

/-- A camera with one SDP that answers the `i`-th SETUP, if it names no session, with the session
`session i`; the stream's sessions are visited from the oldest to the newest. -/
def plainEnv (conn : ℕ) (online : Bool) (sdp : Bytes) (session : ℕ → Bytes) : Env where
  conn := conn
  options := ⟨[], online⟩
  describe := ⟨[⟨ascii "OK", ascii "RTSP/1.0", 200, [], sdp⟩], online⟩
  setup i headers := ⟨[setupResponse (session i)], online && (headers.find (ascii "Session")).isNone⟩
  play := ⟨[], online⟩
  order _ ids := ids.reverse
  order_perm _ ids := ids.reverse_perm

/-- A connection of such a camera, with the SDP of one track. -/
def plainConnection (conn : ℕ) (online : Bool) (session : Bytes) (h : 59 ∉ session) : Connection where
  env := plainEnv conn online (ascii "v=0\nm=video\na=control:track1") fun _ => session
  session := session
  same i headers response hr := by
    obtain rfl := List.mem_singleton.mp hr
    exact sessionID_setupResponse h

/-- A stream with no sessions. -/
def freshStream : StreamRec := ⟨ascii "/live", [], [], [], ∅⟩

/-- The first connection fails before any SETUP, the second plays its own session. -/
theorem reconnect_current_after_refused :
    let earlier := [plainConnection 0 false (ascii "AAA") (by decide)]
    let last := plainConnection 1 true (ascii "BBB") (by decide)
    (doConnectSequence some (connectAll some freshStream earlier) last.env).2 = .played (ascii "BBB") ∧
      ascii "BBB" = last.session := by
  intro earlier last
  have h : (doConnectSequence some (connectAll some freshStream earlier) last.env).2 = .played (ascii "BBB") := by
    decide +kernel
  have hiff := reconnect_current_iff some freshStream rfl earlier last (by decide +kernel) (by decide +kernel) _ h
  refine ⟨h, (hiff.mpr ?_).1⟩
  intro id session hs
  rw [show (connectAll some freshStream earlier).sessions = ∅ from rfl] at hs
  simp at hs

/-- After a connection that played the session `AAA`, the next one is given the session `BBB` and
sends PLAY for `AAA`. -/
theorem reconnect_plays_stale_session :
    let first := plainConnection 0 true (ascii "AAA") (by decide)
    let second := plainConnection 1 true (ascii "BBB") (by decide)
    (doConnectSequence some (connectAll some freshStream [first]) second.env).2 = .played (ascii "AAA") := by
  decide +kernel

/-! ### One session for all tracks -/

/-- A camera that answers a SETUP that names a session with that session, and any other with a new
one: the `i`-th with `fresh i`. -/
def Env.MakesSessions (env : Env) (fresh : ℕ → Bytes) : Prop :=
  ∀ i headers, (env.setup i headers).ok = true → ∃ response, (env.setup i headers).handled = [response] ∧
    sessionID response = (headers.find (ascii "Session")).getD (fresh i)

/-- The stream has one session, which has a transport for every track. -/
def OneSession (parse : Bytes → Option Bytes) (streamPath : Bytes) (tracks : List Bytes) (ss : Sessions)
    (id : Bytes) : Prop :=
  ss.keys = [id] ∧ ∀ track ∈ tracks, ∃ path, setupPath parse streamPath track = some path ∧
    ∃ x ∈ idents ss id, x.substreamName = splitFile path

theorem setup_names_no_session (transport path : Bytes) :
    (newRequest (.setup transport) path).headers.find (ascii "Session") = none := by
  have hne : (ascii "Transport" == ascii "Session") = false := by decide
  simp [newRequest, Headers.find, hne]

variable {fresh : ℕ → Bytes}

/-- A SETUP that succeeds was answered with a new session. -/
theorem setupAnswered_fresh (hcam : env.MakesSessions fresh) {i : ℕ} {path : Bytes}
    (hok : (env.setup i (newRequest (.setup (setupTransport i)) path).headers).ok = true) (ss : Sessions) :
    ∃ response, sessionID response = fresh i ∧ setupAnswered env i path ss = handleSetup env.conn path ss response := by
  obtain ⟨response, hr, hid⟩ := hcam i _ hok
  rw [setup_names_no_session] at hid
  refine ⟨response, hid, ?_⟩
  rw [setupAnswered, hr]
  rfl

/-- When the SETUP loop succeeds, the new session of each track is there. -/
theorem setupLoop_fresh (hcam : env.MakesSessions fresh) :
    ∀ (tracks : List Bytes) (i : ℕ) (id₀ : Bytes) (ss : Sessions),
    setupLoop parse env streamPath i tracks id₀ ss = (ss', .ok id) → ∀ j < tracks.length, fresh (i + j) ∈ ss' := by
  intro tracks
  induction tracks with
  | nil => exact fun i id₀ ss _ j hj => absurd hj (Nat.not_lt_zero j)
  | cons track tracks ih =>
    intro i id₀ ss hloop j hj
    rw [setupLoop] at hloop
    obtain h | ⟨path, -, ⟨e, h⟩ | ⟨id', h, hok, -⟩⟩ := setupUpstream_cases parse env streamPath i track ss
    · rw [h] at hloop
      cases hloop
    · rw [h] at hloop
      cases hloop
    · rw [h] at hloop
      cases j with
      | zero =>
        have hgrows : Grows env.conn (fun _ => True) (setupAnswered env i path ss)
            (setupLoop parse env streamPath (i + 1) tracks id' (setupAnswered env i path ss)).1 :=
          setupLoop_grows (fun _ _ _ _ => trivial) ..
        simp only at hloop
        rw [hloop] at hgrows
        apply hgrows.mem
        obtain ⟨response, hid, hss⟩ := setupAnswered_fresh hcam hok ss
        rw [hss, (handleSetup_spec ..).1]
        exact .inl hid.symm
      | succ j =>
        have := ih (i + 1) id' _ hloop j (by simpa using hj)
        rwa [Nat.add_right_comm] at this

/-- **One session for all tracks, and when there is**: with a camera that makes a new session for
each SETUP that names none, on a stream without sessions, a connect sequence that succeeds leaves
one session, with the transports of all tracks and named in PLAY, exactly when the SDP has one
track. -/
theorem one_session_iff (parse : Bytes → Option Bytes) (st : StreamRec) (h₀ : st.sessions = ∅) (env : Env)
    (fresh : ℕ → Bytes) (hinj : Function.Injective fresh) (hcam : env.MakesSessions fresh) (id : Bytes)
    (h : (doConnectSequence parse st env).2 = .played id) :
    OneSession parse st.path (parseTracks (sdpFor st env)) (doConnectSequence parse st env).1.sessions id ↔
      (parseTracks (sdpFor st env)).length = 1 := by
  have hloop := played_found h
  generalize (doConnectSequence parse st env).1.sessions = final at hloop ⊢
  have hne := parseTracks_ne_nil (sdpFor st env)
  generalize parseTracks (sdpFor st env) = tracks at hloop hne ⊢
  constructor
  · rintro ⟨hkeys, -⟩
    have hfresh := setupLoop_fresh hcam tracks 0 [] st.sessions hloop
    have hpos := List.length_pos_iff.mpr hne
    by_contra hlen
    have h₁ : fresh (0 + 0) ∈ final.keys := hfresh 0 hpos
    have h₂ : fresh (0 + 1) ∈ final.keys := hfresh 1 (by omega)
    rw [hkeys, List.mem_singleton] at h₁ h₂
    have := hinj (h₁.trans h₂.symm)
    omega
  · intro hlen
    obtain ⟨track, rfl⟩ := List.length_eq_one_iff.mp hlen
    rw [setupLoop, h₀] at hloop
    obtain hs | ⟨path, hpath, ⟨e, hs⟩ | ⟨id', hs, hok, hmem, -⟩⟩ := setupUpstream_cases parse env st.path 0 track ∅
    · rw [hs] at hloop
      cases hloop
    · rw [hs] at hloop
      cases hloop
    · rw [hs] at hloop
      simp only [setupLoop, Prod.mk.injEq, Except.ok.injEq] at hloop
      obtain ⟨rfl, rfl⟩ := hloop
      obtain ⟨response, -, hss⟩ := setupAnswered_fresh hcam hok ∅
      rw [hss] at hmem ⊢
      obtain ⟨hmem', -, hsame⟩ := handleSetup_spec env.conn path ∅ response
      have hid : id' = sessionID response := by simpa using (hmem' id').mp hmem
      subst hid
      constructor
      · apply List.perm_singleton.mp
        refine (List.perm_ext_iff_of_nodup (AList.keys_nodup _) (List.nodup_singleton _)).mpr ?_
        intro id
        rw [List.mem_singleton, ← AList.mem_keys]
        simpa using hmem' id
      · intro track' ht
        obtain rfl := List.mem_singleton.mp ht
        refine ⟨path, hpath, ?_⟩
        rcases hsame with ⟨-, x, hx, -⟩ | ⟨p, c, hx⟩
        · simp [idents] at hx
        · rw [hx]
          exact ⟨_, List.mem_append_right _ (List.mem_singleton_self _), rfl⟩

/-- Session ids that are all different: `A`, `AA`, `AAA`, … -/
def counted (i : ℕ) : Bytes := List.replicate (i + 1) 65

theorem counted_injective : Function.Injective counted := by
  intro i j h
  have := congrArg List.length h
  simpa [counted] using this

theorem plainEnv_makesSessions (conn : ℕ) (online : Bool) (sdp : Bytes) :
    (plainEnv conn online sdp counted).MakesSessions counted := by
  intro i headers hok
  refine ⟨_, rfl, ?_⟩
  rw [sessionID_setupResponse (by simp [counted])]
  simp only [plainEnv, Bool.and_eq_true, Option.isNone_iff_eq_none] at hok
  rw [hok.2]
  rfl

/-- A camera with a video track. -/
theorem one_session_video :
    let env := plainEnv 0 true (ascii "v=0\nm=video\na=control:track1") counted
    (doConnectSequence some freshStream env).2 = .played (ascii "A") ∧
      OneSession some (ascii "/live") [ascii "track1"] (doConnectSequence some freshStream env).1.sessions
        (ascii "A") := by
  intro env
  have h : (doConnectSequence some freshStream env).2 = .played (ascii "A") := by decide +kernel
  have htracks : parseTracks (sdpFor freshStream env) = [ascii "track1"] := by decide +kernel
  have := one_session_iff some freshStream rfl env counted counted_injective (plainEnv_makesSessions 0 true _) _ h
  rw [htracks] at this
  exact ⟨h, this.mpr rfl⟩

/-- A camera with a video and an audio track: two sessions, of which PLAY names the second. -/
theorem two_sessions_video_audio :
    let env := plainEnv 0 true (ascii "v=0\nm=video\na=control:track1\nm=audio\na=control:track2") counted
    env.MakesSessions counted ∧ (doConnectSequence some freshStream env).1.sessions.keys = [ascii "AA", ascii "A"] ∧
      (doConnectSequence some freshStream env).2 = .played (ascii "AA") :=
  ⟨plainEnv_makesSessions 0 true _, by decide +kernel⟩

end RtspProxy.Upstream
