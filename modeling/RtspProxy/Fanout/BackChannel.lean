import RtspProxy.Fanout.Ownership

/-!
# From the clients to the cameras

A client may send interleaved frames itself, mostly RTCP reports. `Client.incomingRequestHandler`
looks for the upstream channel that the client has mapped to the frame's channel, and passes the
frame on with `Remote.SendBinary`. Where it finds none, it keeps the frame's own channel.

So a frame on a channel that the client has not set up reaches the camera, on the channel with the
same number; so does any frame of a client that is not registered (`forwards_unmapped`).

## The model

`Clients` is `Stream.clients`, as `MapChannel`, `AddClient` and `RemoveClient` build it, with the
channels of each session. A `range` over a session's channels visits them in any order: `range` is
that order, and the results are for every one. The remote may be nil, or without a connection.

## What is proved

* `Agrees.addClient`, `Agrees.mapChannel`, `Agrees.forget` — the channels are those that `dispatch`
  uses.
* `upstreamChannel_of_maps`, `upstreamChannel_of_not_maps` — the search, for every order.
* `inverse_iff` — **the way back inverts the channel map exactly when the stream has a connection
  just in case the client maps the channel.**
* `forwards_unmapped` — otherwise a frame goes to a channel the client does not map.
-/

namespace RtspProxy.Fanout

open Theory Wire

/-! ### The channels of the clients -/

/-- `channels` of a `ClientSession`: the client's channel by upstream channel. -/
abbrev Channels := AList fun _ : ℤ => ℤ

/-- `clients` of a stream: the channels of each registered client. -/
abbrev Clients := AList fun _ : ℕ => Channels

/-- `AddClient`. -/
def addClient (clients : Clients) (client : ℕ) : Clients :=
  match clients.lookup client with
  | some _ => clients
  | none => clients.insert client ∅

/-- `MapChannel`. -/
def mapChannel (clients : Clients) (client : ℕ) (upstreamChan clientChan : ℤ) : Clients :=
  match clients.lookup client with
  | some channels => clients.insert client (channels.insert upstreamChan clientChan)
  | none => clients

/-- `RemoveClient`. -/
def removeClient (clients : Clients) (client : ℕ) : Clients := clients.erase client

/-- A change of `clients`. -/
inductive Registration where
  /-- `AddClient`. -/
  | add (client : ℕ)
  /-- `MapChannel`. -/
  | map (client : ℕ) (upstreamChan clientChan : ℤ)
  /-- `RemoveClient`. -/
  | remove (client : ℕ)
  deriving DecidableEq, Repr

/-- One change. -/
def Registration.apply (clients : Clients) : Registration → Clients
  | .add client => addClient clients client
  | .map client upstreamChan clientChan => mapChannel clients client upstreamChan clientChan
  | .remove client => removeClient clients client

/-- The clients after a sequence of changes. -/
def registered (changes : List Registration) : Clients := changes.foldl Registration.apply ∅

/-- The channel to which a client maps an upstream channel. -/
def channelOf (clients : Clients) (client : ℕ) (upstreamChan : ℤ) : Option ℤ :=
  (clients.lookup client).bind fun channels => channels.lookup upstreamChan

theorem lookup_addClient (clients : Clients) (c c' : ℕ) :
    (addClient clients c).lookup c' =
      if c' = c then some ((clients.lookup c).getD ∅) else clients.lookup c' := by
  unfold addClient
  cases h : clients.lookup c with
  | some channels =>
    dsimp only
    split_ifs with hc
    · rw [hc, h]
      rfl
    · rfl
  | none =>
    dsimp only
    split_ifs with hc
    · rw [hc, AList.lookup_insert]
      rfl
    · exact AList.lookup_insert_ne hc

theorem lookup_mapChannel (clients : Clients) (c c' : ℕ) (u v : ℤ) :
    (mapChannel clients c u v).lookup c' =
      if c' = c then (clients.lookup c).map (AList.insert u v) else clients.lookup c' := by
  unfold mapChannel
  cases h : clients.lookup c with
  | some channels =>
    dsimp only
    split_ifs with hc
    · rw [hc, AList.lookup_insert]
      rfl
    · exact AList.lookup_insert_ne hc
  | none =>
    dsimp only
    split_ifs with hc
    · rw [hc, h]
      rfl
    · rfl

theorem lookup_removeClient (clients : Clients) (c c' : ℕ) :
    (removeClient clients c).lookup c' = if c' = c then none else clients.lookup c' := by
  unfold removeClient
  split_ifs with hc
  · rw [hc]
    exact AList.lookup_erase c clients
  · exact AList.lookup_erase_ne hc

/-! ### The channels that `dispatch` uses -/

/-- The channels of a client that is registered with a stream. -/
def Fan.channels (s : Fan) (r c : ℕ) : Option (ℤ → Option ℤ) := (s.sessionOf r c).map fun k => (s.sessions k).channels

/-- A stream of the fan-out has these clients, with these channels. -/
def Agrees (s : Fan) (r : ℕ) (clients : Clients) : Prop :=
  ∀ c, s.channels r c = (clients.lookup c).map fun channels u => channels.lookup u

theorem agrees_newFan (r : ℕ) : Agrees newFan r ∅ := fun _ => rfl

section
variable {s : Fan} {r : ℕ} {clients : Clients}

/-- `dispatch` sends the frames of a channel where `channelOf` says. -/
theorem Agrees.mapped (h : Agrees s r clients) (c : ℕ) (u : ℤ) : s.mapped r u c = channelOf clients c u := by
  have hc := h c
  unfold Fan.mapped channelOf
  unfold Fan.channels at hc
  cases hs : s.sessionOf r c <;> cases hl : clients.lookup c <;> rw [hs, hl] at hc
  · rfl
  · cases hc
  · cases hc
  · exact congrFun (Option.some.inj hc) u

/-- The two have a client that is registered, or not. -/
theorem Agrees.none_iff (h : Agrees s r clients) (c : ℕ) : s.sessionOf r c = none ↔ clients.lookup c = none := by
  have hc := h c
  unfold Fan.channels at hc
  cases hs : s.sessionOf r c <;> cases hl : clients.lookup c <;> simp [hs, hl] at hc ⊢

theorem channels_register (h : s.Registered) (c c' : ℕ) :
    (s.register r c).channels r c' = if c' = c then some fun _ => none else s.channels r c' := by
  unfold Fan.channels
  rw [sessionOf_register]
  by_cases hc : c' = c
  · rw [if_pos ⟨rfl, hc⟩, if_pos hc, Option.map_some, sessions_register, if_pos rfl]
    rfl
  · rw [if_neg fun h' => hc h'.2, if_neg hc]
    refine Option.map_congr fun k hk => ?_
    rw [sessions_register, if_neg (Nat.ne_of_lt (h.entry hk).1)]

theorem channels_mapChannel (h : s.Registered) (c c' : ℕ) (u v : ℤ) :
    (s.mapChannel r c u v).channels r c' =
      if c' = c then (s.channels r c).map fun channels => Function.update channels u (some v)
      else s.channels r c' := by
  unfold Fan.mapChannel
  cases hs : s.sessionOf r c with
  | none =>
    split_ifs with hc
    · simp [hc, Fan.channels, hs]
    · rfl
  | some k =>
    split_ifs with hc
    · subst hc
      have hs' : (s.streams r).registered.lookup c' = some k := hs
      simp [Fan.channels, Fan.sessionOf, Fan.setSession, hs']
    · -- no two clients share a session
      refine Option.map_congr fun k' hk' => ?_
      have hne : k' ≠ k := fun he => hc ((h.entry (he ▸ hk')).2.2.symm.trans (h.entry hs).2.2)
      simp [Fan.setSession, hne]

theorem channels_forget (c c' : ℕ) :
    (s.forget r c).channels r c' = if c' = c then none else s.channels r c' := by
  unfold Fan.channels
  rw [sessionOf_forget]
  by_cases hc : c' = c
  · rw [if_pos ⟨rfl, hc⟩, if_pos hc]
    rfl
  · rw [if_neg fun h' => hc h'.2, if_neg hc]
    rfl

/-- **`AddClient` registers the same client.** -/
theorem Agrees.addClient (h : Agrees s r clients) (hreg : s.Registered) (c : ℕ) :
    Agrees (s.addClient r c) r (Fanout.addClient clients c) := by
  unfold Fan.addClient Fanout.addClient
  cases hs : s.sessionOf r c with
  | some k =>
    have hsome : clients.lookup c ≠ none := fun hl => by simp [(h.none_iff c).mpr hl] at hs
    obtain ⟨channels, hl⟩ := Option.ne_none_iff_exists'.mp hsome
    rw [hl]
    exact h
  | none =>
    rw [(h.none_iff c).mp hs]
    intro c'
    dsimp only
    rw [channels_register hreg]
    split_ifs with hc
    · rw [hc, AList.lookup_insert]
      rfl
    · rw [AList.lookup_insert_ne hc]
      exact h c'

/-- **`MapChannel` maps the same channel.** -/
theorem Agrees.mapChannel (h : Agrees s r clients) (hreg : s.Registered) (c : ℕ) (u v : ℤ) :
    Agrees (s.mapChannel r c u v) r (Fanout.mapChannel clients c u v) := by
  intro c'
  rw [channels_mapChannel hreg, lookup_mapChannel]
  split_ifs with hc
  · rw [h c, Option.map_map, Option.map_map]
    refine Option.map_congr fun channels _ => funext fun u' => ?_
    by_cases hu : u' = u
    · simp [hu]
    · simp [hu]
  · exact h c'

/-- **`RemoveClient` forgets the same client.** -/
theorem Agrees.forget (h : Agrees s r clients) (c : ℕ) : Agrees (s.forget r c) r (removeClient clients c) := by
  intro c'
  rw [channels_forget, lookup_removeClient]
  split_ifs
  · rfl
  · exact h c'

end

/-! ### The way back -/

/-- A stream, as the handler of a client's frame finds it. -/
structure BackStream where
  /-- `remote`; if it is there, whether it has a `RemoteConn`. -/
  remote : Option Bool
  clients : Clients

/-- The search for the upstream channel, over the channels in the order of the `range`. -/
def upstreamChannel (channels : List (Σ _ : ℤ, ℤ)) (tcpChannel : ℤ) : ℤ :=
  match channels.find? fun e => e.2 = tcpChannel with
  | some e => e.1
  | none => tcpChannel

/-- What `SendBinary` writes. -/
def sendBinary (channel : ℤ) (data : Bytes) : Bytes :=
  36 :: (channel % 256).toNat.toUInt8 :: (data.length / 256).toUInt8 :: (data.length % 256).toUInt8 :: data

/-- A `range` over a map visits its entries in some order. -/
def IsRange (range : Channels → List (Σ _ : ℤ, ℤ)) : Prop := ∀ channels, (range channels).Perm channels.entries

/-- The upstream channel to which a client's frame is forwarded by `SendBinary`. -/
def forward (range : Channels → List (Σ _ : ℤ, ℤ)) (currentStream : Option BackStream) (client : ℕ)
    (tcpChannel : UInt8) : Option ℤ :=
  match currentStream with
  | none => none
  | some stream =>
    match stream.remote with
    | none => none
    | some connected =>
      let channel :=
        match stream.clients.lookup client with
        | some channels => upstreamChannel (range channels) tcpChannel.toNat
        | none => tcpChannel.toNat
      if connected then some channel else none

/-- What is written is a frame with the client's data. -/
theorem sendBinary_eq_encode (channel : ℤ) (f : Frame) (h : f.channel = (channel % 256).toNat.toUInt8) :
    sendBinary channel f.payload = f.encode := by
  rw [Frame.encode, h]
  rfl

/-- The client is registered, and maps the upstream channel to this channel. -/
def Maps (currentStream : Option BackStream) (client : ℕ) (u : ℤ) (tcpChannel : UInt8) : Prop :=
  ∃ stream ∈ currentStream, channelOf stream.clients client u = some (tcpChannel.toNat : ℤ)

/-- The client maps no two upstream channels to one channel. -/
def DistinctChannels (clients : Clients) (client : ℕ) : Prop :=
  ∀ u u' v, channelOf clients client u = some v → channelOf clients client u' = some v → u = u'

section
variable {channels : Channels} {order : List (Σ _ : ℤ, ℤ)} {u v : ℤ}

/-- The search finds the upstream channel, if it is the only one. -/
theorem upstreamChannel_of_maps (ho : order.Perm channels.entries) (h : channels.lookup u = some v)
    (hone : ∀ u', channels.lookup u' = some v → u' = u) : upstreamChannel order v = u := by
  unfold upstreamChannel
  have hmem : (⟨u, v⟩ : Σ _ : ℤ, ℤ) ∈ order := ho.mem_iff.mpr (AList.mem_lookup_iff.mp h)
  cases hf : order.find? fun e => e.2 = v with
  | none => exact absurd (List.find?_eq_none.mp hf _ hmem) (by simp)
  | some e =>
    obtain ⟨u', v'⟩ := e
    obtain rfl : v' = v := by simpa using List.find?_some hf
    exact hone u' (AList.mem_lookup_iff.mpr (ho.mem_iff.mp (List.mem_of_find?_eq_some hf)))

theorem upstreamChannel_of_not_maps (ho : order.Perm channels.entries) (h : ∀ u, channels.lookup u ≠ some v) :
    upstreamChannel order v = v := by
  unfold upstreamChannel
  rw [List.find?_eq_none.mpr fun e he => ?_]
  intro hv
  exact h e.1 (AList.mem_lookup_iff.mpr (of_decide_eq_true hv ▸ ho.mem_iff.mp he))

end

/-- The way back inverts the channel map: a frame is forwarded to an upstream channel exactly if the
client is registered and maps that to the frame's channel, and a frame on a channel that the client
does not map is not forwarded. -/
def Inverse (range : Channels → List (Σ _ : ℤ, ℤ)) (currentStream : Option BackStream) (client : ℕ)
    (tcpChannel : UInt8) : Prop :=
  (∀ u, forward range currentStream client tcpChannel = some u ↔ Maps currentStream client u tcpChannel) ∧
    ((∀ u, ¬ Maps currentStream client u tcpChannel) → forward range currentStream client tcpChannel = none)

/-- Before its first request a client has no stream, and nothing is forwarded. -/
theorem inverse_none (range : Channels → List (Σ _ : ℤ, ℤ)) (client : ℕ) (tcpChannel : UInt8) :
    Inverse range none client tcpChannel :=
  ⟨fun _ => ⟨nofun, nofun⟩, fun _ => rfl⟩

section
variable {range : Channels → List (Σ _ : ℤ, ℤ)} {stream : BackStream} {client : ℕ} {tcpChannel : UInt8}

theorem forward_of_offline (h : stream.remote ≠ some true) : forward range (some stream) client tcpChannel = none := by
  match hr : stream.remote with
  | none => simp only [forward, hr]
  | some false => simp [forward, hr]
  | some true => exact absurd hr h

/-- With a connection a frame on a mapped channel goes to the upstream channel. -/
theorem forward_of_maps (hrange : IsRange range) (hr : stream.remote = some true)
    (hd : DistinctChannels stream.clients client) {u : ℤ} (hu : Maps (some stream) client u tcpChannel) :
    forward range (some stream) client tcpChannel = some u := by
  obtain ⟨_, ⟨⟩, hu⟩ := hu
  obtain ⟨channels, hl, hu'⟩ := Option.bind_eq_some_iff.mp hu
  have hone : ∀ u', channels.lookup u' = some (tcpChannel.toNat : ℤ) → u' = u := fun u' hu'' =>
    hd u' u _ (Option.bind_eq_some_iff.mpr ⟨channels, hl, hu''⟩) hu
  simp only [forward, hr, hl, if_true, upstreamChannel_of_maps (hrange channels) hu' hone]

/-- With a connection a frame on any other channel goes to the channel with its number. -/
theorem forward_of_not_maps (hrange : IsRange range) (hr : stream.remote = some true)
    (hu : ∀ u, ¬ Maps (some stream) client u tcpChannel) :
    forward range (some stream) client tcpChannel = some (tcpChannel.toNat : ℤ) := by
  cases hl : stream.clients.lookup client with
  | none => simp only [forward, hr, hl, if_true]
  | some channels =>
    have hnone : ∀ u, channels.lookup u ≠ some (tcpChannel.toNat : ℤ) := fun u hu' =>
      hu u ⟨stream, rfl, Option.bind_eq_some_iff.mpr ⟨channels, hl, hu'⟩⟩
    simp only [forward, hr, hl, if_true, upstreamChannel_of_not_maps (hrange channels) hnone]

end

/-- **The way back inverts the channel map exactly when the stream has a connection just in case the
client maps the frame's channel**: for all clients registered, all their channels, every order of
the `range` and every frame. -/
theorem inverse_iff (range : Channels → List (Σ _ : ℤ, ℤ)) (changes : List Registration) (remote : Option Bool)
    (client : ℕ) (tcpChannel : UInt8) (hrange : IsRange range) (hd : DistinctChannels (registered changes) client) :
    Inverse range (some ⟨remote, registered changes⟩) client tcpChannel ↔
      (remote = some true ↔ ∃ u, Maps (some ⟨remote, registered changes⟩) client u tcpChannel) := by
  by_cases hr : remote = some true
  · by_cases hu : ∃ u, Maps (some ⟨remote, registered changes⟩) client u tcpChannel
    · refine iff_of_true ⟨fun u => ⟨fun hf => ?_, forward_of_maps hrange hr hd⟩, fun hn => ?_⟩ (iff_of_true hr hu)
      · obtain ⟨u', hu'⟩ := hu
        rw [forward_of_maps hrange hr hd hu'] at hf
        exact Option.some.inj hf ▸ hu'
      · exact absurd hu (not_exists.mpr hn)
    · refine iff_of_false (fun h => ?_) (fun h => hu (h.mp hr))
      have hn := h.2 (not_exists.mp hu)
      rw [forward_of_not_maps hrange hr (not_exists.mp hu)] at hn
      cases hn
  · have hnone : forward range (some ⟨remote, registered changes⟩) client tcpChannel = none := forward_of_offline hr
    by_cases hu : ∃ u, Maps (some ⟨remote, registered changes⟩) client u tcpChannel
    · refine iff_of_false (fun h => ?_) (fun h => hr (h.mpr hu))
      obtain ⟨u, hu⟩ := hu
      have := (h.1 u).mpr hu
      rw [hnone] at this
      cases this
    · refine iff_of_true ⟨fun u => ⟨fun h => ?_, fun h => absurd ⟨u, h⟩ hu⟩, fun _ => hnone⟩ (iff_of_false hr hu)
      rw [hnone] at h
      cases h

/-- A client that has set one track up. -/
def oneTrack : List Registration := [.add 0, .map 0 2 0, .map 0 3 1]

theorem channelOf_oneTrack (u : ℤ) :
    channelOf (registered oneTrack) 0 u = if u = 3 then some 1 else if u = 2 then some 0 else none := by
  have h : (registered oneTrack).lookup 0 = some (AList.insert 3 1 (AList.insert 2 0 ∅)) := by rfl
  rw [channelOf, h, Option.bind_some]
  split_ifs with h3 h2
  · rw [h3, AList.lookup_insert]
  · rw [AList.lookup_insert_ne h3, h2, AList.lookup_insert]
  · rw [AList.lookup_insert_ne h3, AList.lookup_insert_ne h2, AList.lookup_empty]

theorem inverse_iff_oneTrack : Inverse AList.entries (some ⟨some true, registered oneTrack⟩) 0 1 := by
  have hmaps : Maps (some ⟨some true, registered oneTrack⟩) 0 3 1 := ⟨_, rfl, by decide⟩
  have hd : DistinctChannels (registered oneTrack) 0 := by
    intro u u' v hu hu'
    rw [channelOf_oneTrack] at hu hu'
    split_ifs at hu hu' <;> simp_all <;> omega
  exact (inverse_iff AList.entries oneTrack (some true) 0 1 (fun _ => .refl _) hd).mpr
    ⟨fun _ => ⟨3, hmaps⟩, fun _ => rfl⟩

/-- **A frame on a channel that the client has not set up is forwarded to the channel with its number,
and so is a frame of a client that has left.** -/
theorem forwards_unmapped :
    (forward AList.entries (some ⟨some true, registered oneTrack⟩) 0 5 = some 5 ∧
        ∀ u, ¬ Maps (some ⟨some true, registered oneTrack⟩) 0 u 5) ∧
      forward AList.entries (some ⟨some true, registered (oneTrack ++ [.remove 0])⟩) 0 1 = some 1 ∧
        ∀ u, ¬ Maps (some ⟨some true, registered (oneTrack ++ [.remove 0])⟩) 0 u 1 := by
  refine ⟨⟨by decide, fun u hu => ?_⟩, by decide, fun u hu => ?_⟩
  · obtain ⟨_, ⟨⟩, hu⟩ := hu
    rw [channelOf_oneTrack] at hu
    split_ifs at hu <;> simp at hu
  · obtain ⟨_, ⟨⟩, hu⟩ := hu
    cases hu

end RtspProxy.Fanout
