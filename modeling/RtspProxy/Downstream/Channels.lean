import RtspProxy.Downstream.Setup

/-!
# What the reply to a SETUP says about channels

The reply to a client's SETUP repeats the client's `Transport` header without the addresses in it. The
channels on which the client then gets its frames are what `Atoi` makes of the header's last
`interleaved` parameter, in one byte each. The header may have none, or one channel, or numbers that a
byte cannot hold; the reply is 200 all the same (`reply_without_channels`).

## The model

`Hub` is a stream with its clients and its camera's transports. A step is a client's SETUP, a client
that leaves, or a SETUP response of the camera. `dispatchTo` is what `dispatch` sends to one client.

## What is proved

* `mem_splitOn_clean` — what the removal of the addresses leaves in a header.
* `setupClient_cases` — what a SETUP has done.
* `Settled.step` — what keeps a client's channels, in every step.
* `truthful_of_undisturbed` — **a reply that names two decimal channels below 256 tells the truth, as long
  as no other track gets one of the upstream channels and the camera does not change them.**
-/

namespace RtspProxy.Downstream

open Theory Wire Fanout
open Upstream (Sessions Recorded recordAll Key splitFile)

/-! ### The `Transport` header of the reply -/

/-- The length of a match of `name[^;]+` behind a semicolon or not. -/
def addressValue (semicolon : ℕ) (s name : Bytes) : Option ℕ :=
  let n := ((s.drop name.length).takeWhile (· != 59)).length
  if name <+: s ∧ 0 < n then some (semicolon + name.length + n) else none

/-- One, if the text begins with a semicolon. -/
def leading (s : Bytes) : ℕ := if s.head? = some 59 then 1 else 0

theorem matchAddress_eq (s : Bytes) :
    matchAddress s = (addressValue (leading s) (s.drop (leading s)) (ascii "destination=")).or
      (addressValue (leading s) (s.drop (leading s)) (ascii "source=")) := rfl

theorem addressValue_append (k : ℕ) (s s' : Bytes) {name : Bytes} (h : 59 ∉ name) :
    addressValue k (s ++ 59 :: s') name = addressValue k s name := by
  unfold addressValue
  dsimp only
  by_cases hp : name <+: s
  · have hlen : (((s ++ 59 :: s').drop name.length).takeWhile (· != 59)).length =
        ((s.drop name.length).takeWhile (· != 59)).length := by
      rw [List.drop_append_of_le_length hp.length_le, takeWhile_append_stop]
    rw [hlen]
    simp only [isPrefix_append_iff h]
  · rw [if_neg fun hn => hp ((isPrefix_append_iff h).mp hn.1), if_neg fun hn => hp hn.1]

theorem leading_append {s : Bytes} (hs : s ≠ []) (s' : Bytes) : leading (s ++ s') = leading s := by
  unfold leading
  rw [List.head?_append_of_ne_nil _ hs]

theorem leading_le {s : Bytes} (hs : s ≠ []) : leading s ≤ s.length := by
  unfold leading
  have := List.length_pos_of_ne_nil hs
  split_ifs <;> omega

theorem matchAddress_append (s' : Bytes) {s : Bytes} (hs : s ≠ []) : matchAddress (s ++ 59 :: s') = matchAddress s := by
  rw [matchAddress_eq, matchAddress_eq, leading_append hs, List.drop_append_of_le_length (leading_le hs),
    addressValue_append _ _ _ (by decide), addressValue_append _ _ _ (by decide)]

/-- What a match is: a name, which has an `s`, and something up to the next semicolon. -/
theorem of_matchAddress {s : Bytes} {n : ℕ} (h : matchAddress s = some n) :
    ∃ name : Bytes, 115 ∈ name ∧ 59 ∉ name ∧ name <+: s.drop (leading s) ∧
      0 < (((s.drop (leading s)).drop name.length).takeWhile (· != 59)).length ∧
      n = leading s + name.length + (((s.drop (leading s)).drop name.length).takeWhile (· != 59)).length := by
  have hvalue : ∀ name : Bytes, addressValue (leading s) (s.drop (leading s)) name = some n →
      name <+: s.drop (leading s) ∧
        0 < (((s.drop (leading s)).drop name.length).takeWhile (· != 59)).length ∧
        n = leading s + name.length + (((s.drop (leading s)).drop name.length).takeWhile (· != 59)).length := by
    intro name h
    obtain ⟨⟨hp, hpos⟩, h⟩ := Option.ite_none_right_eq_some.mp h
    exact ⟨hp, hpos, (Option.some.inj h).symm⟩
  rw [matchAddress_eq, Option.or_eq_some_iff] at h
  rcases h with h | ⟨-, h⟩
  · exact ⟨ascii "destination=", by decide, by decide, hvalue _ h⟩
  · exact ⟨ascii "source=", by decide, by decide, hvalue _ h⟩

theorem matchAddress_pos {s : Bytes} {n : ℕ} (h : matchAddress s = some n) : 0 < n := by
  obtain ⟨name, -, -, -, hpos, rfl⟩ := of_matchAddress h
  omega

theorem matchAddress_le {s : Bytes} {n : ℕ} (h : matchAddress s = some n) : n ≤ s.length := by
  obtain ⟨name, -, -, hp, hpos, rfl⟩ := of_matchAddress h
  have hle := (List.takeWhile_prefix (l := (s.drop (leading s)).drop name.length) (· != (59 : UInt8))).length_le
  rw [List.length_drop, List.length_drop] at hle
  omega

/-- A match ends before a semicolon, or where the text ends. -/
theorem drop_of_matchAddress {s : Bytes} {n : ℕ} (h : matchAddress s = some n) :
    s.drop n = [] ∨ ∃ l, s.drop n = 59 :: l := by
  obtain ⟨name, -, -, -, -, rfl⟩ := of_matchAddress h
  rw [← List.drop_drop, ← List.drop_drop]
  exact drop_takeWhile 59 _

/-- A text without an `s` has no match at its front, also when it is followed by a semicolon. -/
theorem matchAddress_none {part : Bytes} (h115 : 115 ∉ part) {s post : Bytes} (hs : s.drop (leading s) = part ++ post)
    (hpost : post = [] ∨ ∃ l, post = 59 :: l) : matchAddress s = none := by
  by_contra h
  obtain ⟨n, hn⟩ := Option.ne_none_iff_exists'.mp h
  obtain ⟨name, hmem, h59, hp, -⟩ := of_matchAddress hn
  rw [hs] at hp
  have hp' : name <+: part := by
    rcases hpost with rfl | ⟨l, rfl⟩
    · rwa [List.append_nil] at hp
    · exact (isPrefix_append_iff h59).mp hp
  exact h115 (hp'.subset hmem)

/-- A text without an `s` and without a semicolon is left as it is. -/
theorem replaceMatches_of_no_s {s : Bytes} (h59 : 59 ∉ s) (h115 : 115 ∉ s) :
    replaceMatches matchAddress [] 0 s = s := by
  refine replaceMatches_eq_self fun l l' hs _ => ?_
  have hsub : l' ⊆ s := hs ▸ List.subset_append_right l l'
  have hk : leading l' = 0 := if_neg fun h => h59 (hsub (List.mem_of_head? h))
  exact matchAddress_none (fun h => h115 (hsub h)) (by rw [hk, List.append_nil]; rfl) (.inl rfl)

/-- What is left from a semicolon on begins with one, if anything is left. -/
theorem clean_semicolon (s : Bytes) :
    replaceMatches matchAddress [] 0 (59 :: s) = [] ∨ ∃ l, replaceMatches matchAddress [] 0 (59 :: s) = 59 :: l := by
  induction hn : s.length using Nat.strong_induction_on generalizing s with
  | _ n ih =>
    rw [replaceMatches]
    cases hm : matchAddress (59 :: s) with
    | none => exact .inr ⟨_, rfl⟩
    | some k =>
      dsimp only
      rw [List.nil_append, replaceMatches_skip]
      obtain ⟨k, rfl⟩ := Nat.exists_eq_succ_of_ne_zero (Nat.ne_of_gt (matchAddress_pos hm))
      rw [Nat.succ_sub_one]
      rcases drop_of_matchAddress hm with hd | ⟨l, hd⟩
      · exact .inl (by rw [show s.drop k = [] from hd]; rfl)
      · have hd' : s.drop k = 59 :: l := hd
        rw [hd']
        refine ih _ ?_ l rfl
        have := congrArg List.length hd'
        rw [List.length_drop, List.length_cons] at this
        omega

/-- **A parameter without an `s` is left in the header** by the removal of the addresses. -/
theorem mem_splitOn_clean {s part : Bytes} (h : part ∈ s.splitOn 59) (h115 : 115 ∉ part) :
    part ∈ (replaceMatches matchAddress [] 0 s).splitOn 59 := by
  obtain ⟨h59, pre, post, rfl, hpre, hpost⟩ := mem_splitOn_iff.mp h
  have happend (s s' : Bytes) : replaceMatches matchAddress [] 0 (s ++ 59 :: s') =
      replaceMatches matchAddress [] 0 s ++ replaceMatches matchAddress [] 0 (59 :: s') :=
    replaceMatches_append (fun _ hs => matchAddress_append s' hs) (fun _ _ => matchAddress_le) s 0 (Nat.zero_le _)
  have htail : ∃ post', replaceMatches matchAddress [] 0 (part ++ post) = part ++ post' ∧
      (post' = [] ∨ ∃ l, post' = 59 :: l) := by
    rcases hpost with rfl | ⟨l, rfl⟩
    · exact ⟨[], by rw [List.append_nil, replaceMatches_of_no_s h59 h115], .inl rfl⟩
    · exact ⟨_, by rw [happend, replaceMatches_of_no_s h59 h115], clean_semicolon l⟩
  obtain ⟨post', hclean, hpost'⟩ := htail
  rcases hpre with rfl | ⟨l, rfl⟩
  · rw [List.nil_append, hclean]
    exact mem_splitOn_iff.mpr ⟨h59, [], post', rfl, .inl rfl, hpost'⟩
  · have hnone : matchAddress (59 :: (part ++ post)) = none := matchAddress_none h115 rfl hpost
    rw [List.append_assoc, List.singleton_append, happend, replaceMatches, hnone]
    dsimp only
    rw [hclean]
    exact mem_splitOn_iff.mpr
      ⟨h59, replaceMatches matchAddress [] 0 l ++ [59], post', by simp, .inr ⟨_, rfl⟩, hpost'⟩

/-! ### What the reply says -/

/-- A decimal number. -/
structure Decimal (s : Bytes) (n : ℕ) : Prop where
  /-- There are digits only. -/
  digits : ∀ c ∈ s, isDigit c = true
  /-- They are read as the number. -/
  value : atoi s = ((n : ℤ), none)

/-- The parameter that names two channels. -/
def interleavedParam (A B : Bytes) : Bytes := ascii "interleaved=" ++ (A ++ 45 :: B)

/-- A `Transport` header contains an `interleaved` parameter `a-b`. -/
def HasInterleaved (transport : Bytes) (a b : ℕ) : Prop :=
  ∃ A B, Decimal A a ∧ Decimal B b ∧ interleavedParam A B ∈ transport.splitOn 59

/-- The client asks for two channels, in decimal, that fit a byte. -/
def AsksFor (request : Request) (a b : ℕ) : Prop :=
  ∃ A B, Decimal A a ∧ Decimal B b ∧ a < 256 ∧ b < 256 ∧
    (transportOf request).2.2 (ascii "interleaved") = some (A ++ 45 :: B)

/-- A byte that is no digit is not in a number. -/
theorem Decimal.not_mem {s : Bytes} {n : ℕ} (h : Decimal s n) {c : UInt8} (hc : isDigit c = false) : c ∉ s :=
  fun hs => by simp [h.digits c hs] at hc

theorem not_mem_interleavedParam {A B : Bytes} {a b : ℕ} (hA : Decimal A a) (hB : Decimal B b) {c : UInt8}
    (hc : isDigit c = false) (h : c ∉ ascii "interleaved=-") : c ∉ interleavedParam A B := by
  have hA := hA.not_mem hc
  have hB := hB.not_mem hc
  have hi : c ∉ ascii "interleaved=" := fun hi => h (List.mem_append_left (ascii "-") hi)
  have hd : c ≠ 45 := fun hd => h (hd ▸ by decide)
  simp [interleavedParam, hA, hB, hi, hd]

/-- A parameter in a header's map stands in the header. -/
theorem exists_of_paramMap {elements : List Bytes} {key value : Bytes}
    (h : Upstream.paramMap elements key = some value) : key ++ 61 :: value ∈ elements := by
  rw [Upstream.paramMap_eq_find] at h
  obtain ⟨kv, hfind, rfl⟩ := Option.map_eq_some_iff.mp h
  obtain rfl : kv.1 = key := by simpa using List.find?_some hfind
  obtain ⟨element, hmem, hparam⟩ := List.mem_filterMap.mp (List.mem_reverse.mp (List.mem_of_find?_eq_some hfind))
  unfold Upstream.param at hparam
  split at hparam
  case h_1 hcut =>
    cases hparam
    exact (eq_of_cut hcut).1 ▸ hmem
  case h_2 => cases hparam

/-- The parameter that the client's channels are taken from stands in its header. -/
theorem mem_splitOn_of_asks {request : Request} {v : Bytes}
    (h : (transportOf request).2.2 (ascii "interleaved") = some v) :
    ascii "interleaved" ++ 61 :: v ∈ (headerGet request.headers (ascii "Transport")).splitOn 59 := by
  unfold transportOf Upstream.parseTransport at h
  split_ifs at h
  exact List.mem_of_mem_drop (exists_of_paramMap h)

theorem transport_setupReply (client : Client) (view : StreamView) (transport session : Bytes)
    (upstream : Upstream.Transport) :
    headerGet (setupReply client view transport session upstream).headers (ascii "Transport") =
      replaceMatches matchAddress [] 0 transport ++ ascii ";ssrc=" ++ upstream.ssrc ++ ascii ";destination=" ++
        client.remoteAddr ++ ascii ";source=" ++ shownIP client.localAddr := by
  refine headerGet_of_find ?_
  unfold setupReply
  dsimp only
  rw [withHeader, Headers.find_set, if_neg (by decide), withHeader, Headers.find_set, if_neg (by decide), withHeader,
    Headers.find_set, if_neg (by decide), withHeader, Headers.find_set, if_pos rfl]

/-- **The reply names the channels that the client asks for.** -/
theorem hasInterleaved_setupReply {request : Request} {a b : ℕ} (h : AsksFor request a b) (client : Client)
    (view : StreamView) (session : Bytes) (upstream : Upstream.Transport) :
    HasInterleaved (headerGet (setupReply client view (headerGet request.headers (ascii "Transport")) session
      upstream).headers (ascii "Transport")) a b := by
  obtain ⟨A, B, hA, hB, -, -, hv⟩ := h
  refine ⟨A, B, hA, hB, ?_⟩
  have hmem : interleavedParam A B ∈ (headerGet request.headers (ascii "Transport")).splitOn 59 :=
    mem_splitOn_of_asks hv
  have hclean := mem_splitOn_clean hmem (not_mem_interleavedParam hA hB (by decide) (by decide))
  rw [transport_setupReply]
  simp only [List.append_assoc]
  have hsemi : ascii ";ssrc=" = 59 :: ascii "ssrc=" := by decide
  rw [hsemi, List.cons_append, splitOn_append_cons]
  exact List.mem_append_left _ hclean

/-- The calls of `MapChannel` for two channels. -/
theorem mapCalls_of_asks {request : Request} {a b : ℕ} (h : AsksFor request a b) {t : Upstream.Transport} {u₁ u₂ : ℤ}
    (ht : t.channels = (some u₁, some u₂)) :
    mapCalls (interleavedOf request) t = some [(u₁, (a : ℤ)), (u₂, (b : ℤ))] := by
  obtain ⟨A, B, hA, hB, -, -, hv⟩ := h
  have hi : interleavedOf request = A ++ 45 :: B := by rw [interleavedOf, hv, Option.getD_some]
  have hsplit : (A ++ 45 :: B).splitOn 45 = [A, B] := by
    rw [splitOn_append (hA.not_mem (by decide)), splitOn_of_not_mem (hB.not_mem (by decide))]
  rw [hi, mapCalls, if_neg (by simp), ht]
  dsimp only
  rw [hsplit]
  simp [hA.value, hB.value]

/-- **What a SETUP has done**: nothing, if it was not answered with 200; otherwise it has found a
transport, registered the client and mapped the transport's channels. -/
theorem setupClient_cases {clients clients' : Clients} {k : ℕ} {client : Client} {v : SetupView} {ss : Sessions}
    {request : Request} {reply : Response} (h : setupClient clients k client v ss request = some (reply, clients')) :
    (reply.code ≠ 200 ∧ clients' = clients) ∨
      ∃ id t calls,
        v.find ss (splitFile request.url.path) (transportOf request).1 (transportOf request).2.1 = some (id, t) ∧
        mapCalls (interleavedOf request) t = some calls ∧
        reply = setupReply client v.view (headerGet request.headers (ascii "Transport")) id t ∧
        clients' = calls.foldl (fun clients c => mapChannel clients k c.1 c.2) (addClient clients k) := by
  have hcases : reply.code ≠ 200 ∧ clients' = clients ∨
      setupReady clients k client v ss request = some (reply, clients') := by
    unfold setupClient at h
    split at h
    · cases h
      exact .inl ⟨by decide, rfl⟩
    · split_ifs at h
      · cases h
        exact .inl ⟨by decide, rfl⟩
      · exact .inr h
    · split_ifs at h
      · exact .inr h
      · cases h
        exact .inl ⟨by decide, rfl⟩
  refine hcases.elim .inl fun hready => ?_
  unfold setupReady at hready
  split at hready
  case h_1 =>
    cases hready
    exact .inl ⟨by decide, rfl⟩
  case h_2 id t hf =>
    obtain ⟨calls, hcalls, hx⟩ := Option.map_eq_some_iff.mp hready
    cases hx
    exact .inr ⟨id, t, calls, hf, hcalls, rfl, rfl⟩

/-! ### The hub -/

/-- A stream's clients and its camera's transports. -/
structure Hub where
  clients : Clients
  sessions : Sessions

/-- What happens to them. -/
inductive HubAct where
  /-- A client's SETUP is handled. -/
  | setup (k : ℕ) (client : Client) (v : SetupView) (request : Request)
  /-- A client's TEARDOWN is handled, or its connection ends. -/
  | leave (k : ℕ)
  /-- A SETUP response of the camera is recorded. -/
  | camera (r : Recorded)

/-- One step. -/
def Hub.step (s : Hub) : HubAct → Option Hub
  | .setup k client v request =>
    (setupClient s.clients k client v s.sessions request).map fun x => { s with clients := x.2 }
  | .leave k => some { s with clients := removeClient s.clients k }
  | .camera r => some { s with sessions := r.record s.sessions }

/-- What `dispatch` sends to a client for a frame. -/
def dispatchTo (clients : Clients) (k : ℕ) (f : Frame) : Option Bytes :=
  (channelOf clients k f.channel.toNat).map (clientPacket f.encode)

theorem dispatchTo_eq {fan : Fan} {r : ℕ} {clients : Clients} (h : Agrees fan r clients) (k : ℕ) (f : Frame) :
    dispatchTo clients k f = (fan.mapped r f.channel.toNat k).map (clientPacket f.encode) := by
  rw [dispatchTo, h.mapped]

/-- **The truth about channels**: what is sent to the client for a frame on the transport's first channel
has the channel byte `a`, and for one on its second, `b`. -/
def Truthful (k : ℕ) (x : Key) (a b : ℕ) (s : Hub) : Prop :=
  ∀ t, s.sessions.transport x = some t → ∀ f packet, dispatchTo s.clients k f = some packet →
    (t.channels.1 = some (f.channel.toNat : ℤ) → packet[1]?.map UInt8.toNat = some a) ∧
      (t.channels.2 = some (f.channel.toNat : ℤ) → packet[1]?.map UInt8.toNat = some b)

/-- The channels that a SETUP response names. -/
def channelsNamed (r : Recorded) : List ℤ :=
  match r.interleaved with
  | none => []
  | some interleaved => ((interleaved.splitOn 45).take 2).map fun s => (atoi s).1

/-- A step that leaves the channels of the client `k` alone, to which the transport `x` with the channels
`u₁` and `u₂` was set up: the client does not set the same track up again nor leave; and the camera
does not change the channels, nor name one of them for another track. -/
def Undisturbed (k : ℕ) (x : Key) (u₁ u₂ : ℤ) (_ : Hub) : HubAct → Prop
  | .setup k' _ _ request => k' = k → splitFile request.url.path ≠ x.substreamName
  | .leave k' => k' ≠ k
  | .camera r => (r.key = x → channelsNamed r <+: [u₁, u₂]) ∧
      (r.key.substreamName ≠ x.substreamName → u₁ ∉ channelsNamed r ∧ u₂ ∉ channelsNamed r)

/-- No other track has one of the channels. -/
def SetApart (ss : Sessions) (x : Key) (u₁ u₂ : ℤ) : Prop :=
  ∀ y t, y.substreamName ≠ x.substreamName → ss.transport y = some t →
    ∀ u, t.channels.1 = some u ∨ t.channels.2 = some u → u ≠ u₁ ∧ u ≠ u₂

/-- What keeps the channels of a client. -/
structure Settled (k : ℕ) (x : Key) (u₁ u₂ : ℤ) (a b : ℕ) (s : Hub) : Prop where
  /-- The client maps the first channel. -/
  fst : channelOf s.clients k u₁ = some (a : ℤ)
  /-- The client maps the second. -/
  snd : channelOf s.clients k u₂ = some (b : ℤ)
  /-- They are the transport's. -/
  own : ∃ t, s.sessions.transport x = some t ∧ t.channels = (some u₁, some u₂)
  /-- No other track has one of them. -/
  apart : SetApart s.sessions x u₁ u₂

section
variable {k : ℕ} {x : Key} {u₁ u₂ : ℤ} {a b : ℕ} {s t : Hub}

theorem channelOf_addClient (clients : Clients) (k k' : ℕ) (u : ℤ) :
    channelOf (addClient clients k) k' u = channelOf clients k' u := by
  unfold channelOf
  rw [lookup_addClient]
  split_ifs with hk
  · subst hk
    cases clients.lookup k' <;> rfl
  · rfl

/-- `MapChannel` leaves the other clients, and the client's other channels. -/
theorem channelOf_mapChannel_ne {clients : Clients} {k k' : ℕ} {u u' v : ℤ} (h : k' = k → u' ≠ u) :
    channelOf (mapChannel clients k u v) k' u' = channelOf clients k' u' := by
  unfold channelOf
  rw [lookup_mapChannel]
  split_ifs with hk
  · subst hk
    cases clients.lookup k' with
    | none => rfl
    | some channels => exact AList.lookup_insert_ne (h rfl)
  · rfl

/-- `MapChannel` maps the channel of a client that is registered. -/
theorem channelOf_mapChannel {clients : Clients} {k : ℕ} (h : clients.lookup k ≠ none) (u v : ℤ) :
    channelOf (mapChannel clients k u v) k u = some v := by
  obtain ⟨channels, hc⟩ := Option.ne_none_iff_exists'.mp h
  unfold channelOf
  rw [lookup_mapChannel, if_pos rfl, hc]
  exact AList.lookup_insert channels

/-- Calls of `MapChannel` for another client, or for other channels. -/
theorem channelOf_foldl {k k' : ℕ} {u : ℤ} {calls : List (ℤ × ℤ)} (h : ∀ c ∈ calls, k' = k → u ≠ c.1)
    (clients : Clients) :
    channelOf (calls.foldl (fun clients c => mapChannel clients k c.1 c.2) clients) k' u = channelOf clients k' u := by
  induction calls generalizing clients with
  | nil => rfl
  | cons c calls ih =>
    obtain ⟨hc, hcs⟩ := List.forall_mem_cons.mp h
    rw [List.foldl_cons, ih hcs, channelOf_mapChannel_ne hc]

/-- The upstream channels that are mapped are the transport's. -/
theorem channels_of_mapCalls {interleaved : Bytes} {t : Upstream.Transport} {calls : List (ℤ × ℤ)}
    (h : mapCalls interleaved t = some calls) {c : ℤ × ℤ} (hc : c ∈ calls) :
    t.channels.1 = some c.1 ∨ t.channels.2 = some c.1 := by
  unfold mapCalls at h
  split_ifs at h
  · cases h
    cases hc
  · obtain ⟨u₁, hu₁, h⟩ := Option.bind_eq_some_iff.mp h
    split at h
    · cases h
      rw [List.mem_singleton.mp hc]
      exact .inl hu₁
    · obtain ⟨u₂, hu₂, h⟩ := Option.map_eq_some_iff.mp h
      cases h
      rcases List.mem_cons.mp hc with rfl | hc
      · exact .inl hu₁
      · rw [List.mem_singleton.mp hc]
        exact .inr hu₂

/-- A SETUP of another client, or of another track. -/
theorem Settled.setup (h : Settled k x u₁ u₂ a b s) {k' : ℕ} {client : Client} {v : SetupView} {request : Request}
    {reply : Response} {clients' : Clients} (hk : k' = k → splitFile request.url.path ≠ x.substreamName)
    (hs : setupClient s.clients k' client v s.sessions request = some (reply, clients')) :
    Settled k x u₁ u₂ a b { s with clients := clients' } := by
  rcases setupClient_cases hs with ⟨-, rfl⟩ | ⟨id, t, calls, hf, hcalls, -, rfl⟩
  · exact h
  · have hapart : ∀ c ∈ calls, k = k' → c.1 ≠ u₁ ∧ c.1 ≠ u₂ := fun c hc hkk =>
      h.apart (keyOf request id) t (hk hkk.symm) (transport_of_find hf) c.1 (channels_of_mapCalls hcalls hc)
    refine ⟨?_, ?_, h.own, h.apart⟩
    · rw [channelOf_foldl (fun c hc hkk => (hapart c hc hkk).1.symm), channelOf_addClient]
      exact h.fst
    · rw [channelOf_foldl (fun c hc hkk => (hapart c hc hkk).2.symm), channelOf_addClient]
      exact h.snd

theorem Settled.leave (h : Settled k x u₁ u₂ a b s) {k' : ℕ} (hk : k' ≠ k) :
    Settled k x u₁ u₂ a b { s with clients := removeClient s.clients k' } := by
  have hkeep (u : ℤ) : channelOf (removeClient s.clients k') k u = channelOf s.clients k u := by
    unfold channelOf
    rw [lookup_removeClient, if_neg hk.symm]
  exact ⟨(hkeep u₁).trans h.fst, (hkeep u₂).trans h.snd, h.own, h.apart⟩

/-- The channels of a transport after a response. -/
theorem channels_assign (r : Recorded) (t : Upstream.Transport) :
    (t.assign r.transport.2.2).channels =
      ((channelsNamed r)[0]?.or t.channels.1, (channelsNamed r)[1]?.or t.channels.2) := by
  unfold Upstream.Transport.assign channelsNamed Recorded.interleaved
  cases r.transport.2.2 (ascii "interleaved") with
  | none => rfl
  | some v =>
    match hs : v.splitOn 45 with
    | [] => exact absurd hs (splitOn_ne_nil 45 v)
    | [_] => simp [hs]
    | _ :: _ :: _ => simp [hs]

/-- A SETUP response that leaves the channels. -/
theorem Settled.camera (h : Settled k x u₁ u₂ a b s) {r : Recorded} (hr : r.key = x → channelsNamed r <+: [u₁, u₂])
    (hother : r.key.substreamName ≠ x.substreamName → u₁ ∉ channelsNamed r ∧ u₂ ∉ channelsNamed r) :
    Settled k x u₁ u₂ a b { s with sessions := r.record s.sessions } := by
  refine ⟨h.fst, h.snd, ?_, fun y t hy ht u hu => ?_⟩
  · obtain ⟨t, ht, hch⟩ := h.own
    dsimp only
    rw [Upstream.transport_handleSetup, ht]
    split_ifs with hx
    · refine ⟨_, rfl, ?_⟩
      rw [Option.getD_some, channels_assign, hch]
      have hp := hr hx.symm
      match hn : channelsNamed r with
      | [] => rfl
      | [u] =>
        rw [hn] at hp
        obtain ⟨rfl, -⟩ := List.cons_prefix_cons.mp hp
        rfl
      | u :: u' :: us =>
        rw [hn] at hp
        obtain ⟨rfl, hp₂⟩ := List.cons_prefix_cons.mp hp
        obtain ⟨rfl, -⟩ := List.cons_prefix_cons.mp hp₂
        rfl
    · exact ⟨t, rfl, hch⟩
  · dsimp only at ht
    rw [Upstream.transport_handleSetup] at ht
    split_ifs at ht with hyr
    · obtain ⟨hn₁, hn₂⟩ := hother (hyr ▸ hy)
      have hold : ∀ u, ((s.sessions.transport y).getD (Upstream.newTransport y r.conn)).channels.1 = some u ∨
          ((s.sessions.transport y).getD (Upstream.newTransport y r.conn)).channels.2 = some u → u ≠ u₁ ∧ u ≠ u₂ := by
        cases ho : s.sessions.transport y with
        | none => exact fun u hu => by rcases hu with hu | hu <;> cases hu
        | some t => exact h.apart y t hy ho
      have hnamed : ∀ i, (channelsNamed r)[i]? = some u → u ≠ u₁ ∧ u ≠ u₂ := fun i hi =>
        ⟨fun he => hn₁ (he ▸ List.mem_of_getElem? hi), fun he => hn₂ (he ▸ List.mem_of_getElem? hi)⟩
      rw [← Option.some.inj ht, channels_assign] at hu
      simp only [Option.or_eq_some_iff] at hu
      rcases hu with (hu | ⟨-, hu⟩) | (hu | ⟨-, hu⟩)
      · exact hnamed 0 hu
      · exact hold u (.inl hu)
      · exact hnamed 1 hu
      · exact hold u (.inr hu)
    · exact h.apart y t hy ht u hu

theorem Settled.step (h : Settled k x u₁ u₂ a b s) {act : HubAct} (hc : Undisturbed k x u₁ u₂ s act)
    (hs : s.step act = some t) : Settled k x u₁ u₂ a b t := by
  cases act with
  | setup k' client v request =>
    obtain ⟨⟨reply, clients'⟩, hx, rfl⟩ := Option.map_eq_some_iff.mp hs
    exact h.setup hc hx
  | leave k' =>
    cases hs
    exact h.leave hc
  | camera r =>
    cases hs
    exact h.camera hc.1 hc.2

theorem getElem?_clientPacket (f : Frame) {v : ℕ} (hv : v < 256) :
    (clientPacket f.encode (v : ℤ))[1]?.map UInt8.toNat = some v := by
  have hbyte : ((v : ℤ) % 256).toNat.toUInt8.toNat = v := by
    rw [Int.emod_eq_of_lt (by omega) (by omega), Int.toNat_natCast]
    exact Nat.mod_eq_of_lt hv
  simp [clientPacket, Frame.encode, hbyte]

theorem Settled.truthful (h : Settled k x u₁ u₂ a b s) (ha : a < 256) (hb : b < 256) : Truthful k x a b s := by
  intro t ht f packet hp
  obtain ⟨t', ht', hch⟩ := h.own
  obtain rfl : t' = t := Option.some.inj (ht'.symm.trans ht)
  obtain ⟨v, hv, rfl⟩ := Option.map_eq_some_iff.mp hp
  rw [hch]
  constructor
  · intro hu
    rw [← Option.some.inj hu, h.fst] at hv
    rw [← Option.some.inj hv]
    exact getElem?_clientPacket f ha
  · intro hu
    rw [← Option.some.inj hu, h.snd] at hv
    rw [← Option.some.inj hv]
    exact getElem?_clientPacket f hb

end

/-- **A 200 to SETUP tells the truth about channels**, if the client asks for two channels in decimal that
fit a byte, the two upstream channels differ, no other track has one of them, and the camera's later
responses leave this so. -/
theorem truthful_of_undisturbed (s : Hub) (k : ℕ) (client : Client) (v : SetupView) (request : Request)
    (reply : Response) (clients' : Clients) (id : Bytes) (t : Upstream.Transport) (u₁ u₂ : ℤ) (a b : ℕ)
    (hsetup : setupClient s.clients k client v s.sessions request = some (reply, clients')) (hcode : reply.code = 200)
    (hfind : v.find s.sessions (splitFile request.url.path) (transportOf request).1 (transportOf request).2.1 =
      some (id, t)) (hch : t.channels = (some u₁, some u₂))
    (hasks : AsksFor request a b) (hne : u₁ ≠ u₂) (hapart : SetApart s.sessions (keyOf request id) u₁ u₂) :
    HasInterleaved (headerGet reply.headers (ascii "Transport")) a b ∧
      ∀ acts s', AllSteps Hub.step (Undisturbed k (keyOf request id) u₁ u₂) { s with clients := clients' } acts →
        exec Hub.step { s with clients := clients' } acts = some s' → Truthful k (keyOf request id) a b s' := by
  have hlt : a < 256 ∧ b < 256 := by
    obtain ⟨-, -, -, -, ha, hb, -⟩ := hasks
    exact ⟨ha, hb⟩
  obtain ⟨id', t', calls, hfind', hcalls, rfl, rfl⟩ := (setupClient_cases hsetup).resolve_left fun h => h.1 hcode
  cases hfind.symm.trans hfind'
  rw [mapCalls_of_asks hasks hch, Option.some.injEq] at hcalls
  subst hcalls
  refine ⟨hasInterleaved_setupReply hasks client v.view _ _, fun acts s' hsteps hexec => ?_⟩
  have hadd : (addClient s.clients k).lookup k ≠ none := by
    rw [lookup_addClient, if_pos rfl]
    exact Option.some_ne_none _
  have hmap : (mapChannel (addClient s.clients k) k u₁ a).lookup k ≠ none := by
    rw [lookup_mapChannel, if_pos rfl, ne_eq, Option.map_eq_none_iff]
    exact hadd
  have hstart : Settled k (keyOf request id) u₁ u₂ a b
      { s with clients := mapChannel (mapChannel (addClient s.clients k) k u₁ a) k u₂ b } :=
    ⟨(channelOf_mapChannel_ne fun _ => hne).trans (channelOf_mapChannel hadd u₁ a), channelOf_mapChannel hmap u₂ b,
      ⟨t, transport_of_find hfind, hch⟩, hapart⟩
  have hend : Settled k (keyOf request id) u₁ u₂ a b s' :=
    exec_invariant (fun _ _ _ hs hc hstep => Settled.step hs hc hstep) acts _ s' hstart hsteps hexec
  exact hend.truthful hlt.1 hlt.2

/-- A stream whose camera has set one track up, on the channels 2 and 3. -/
def oneTrackHub : Hub := ⟨∅, recordAll [cameraSetup "track1" "RTP/AVP/TCP;unicast;interleaved=2-3"]⟩

/-- The track's transport. -/
def track1 : Upstream.Transport := ⟨ascii "track1", ascii "RTP/AVP/TCP", ascii "unicast", [], (some 2, some 3), 0⟩

/-- The SETUP of this track with this `Transport` header, by a client of the stream. -/
def setupTrack1 (transport : String) : Option (Response × Clients) :=
  setupClient oneTrackHub.clients 0 (newClient [] []) (readyView [ascii "7"]) oneTrackHub.sessions
    (clientSetup "track1" transport)

theorem setApart_oneTrackHub (request : Request) (h : splitFile request.url.path = ascii "track1") (id : Bytes) :
    SetApart oneTrackHub.sessions (keyOf request id) 2 3 := by
  intro y t hy ht
  have hrec : oneTrackHub.sessions = (cameraSetup "track1" "RTP/AVP/TCP;unicast;interleaved=2-3").record ∅ := rfl
  rw [hrec, Upstream.transport_handleSetup] at ht
  split_ifs at ht with hyk
  · exact absurd (hyk ▸ h.symm) hy
  · cases ht

theorem truthful_of_undisturbed_oneTrack :
    ∃ reply clients', setupTrack1 "RTP/AVP/TCP;unicast;interleaved=4-5" = some (reply, clients') ∧
      HasInterleaved (headerGet reply.headers (ascii "Transport")) 4 5 ∧
      Truthful 0 (keyOf (clientSetup "track1" "RTP/AVP/TCP;unicast;interleaved=4-5") (ascii "7")) 4 5
        ⟨removeClient clients' 1, oneTrackHub.sessions⟩ := by
  have hrun : (setupTrack1 "RTP/AVP/TCP;unicast;interleaved=4-5").any (fun x => decide (x.1.code = 200)) = true := by
    decide +kernel
  obtain ⟨⟨reply, clients'⟩, hsetup, hcode⟩ := (Option.any_eq_true _ _).mp hrun
  have h := truthful_of_undisturbed oneTrackHub 0 (newClient [] []) (readyView [ascii "7"])
    (clientSetup "track1" "RTP/AVP/TCP;unicast;interleaved=4-5") reply clients' (ascii "7") track1 2 3 4 5 hsetup
    (of_decide_eq_true hcode) (by decide +kernel) rfl
    ⟨ascii "4", ascii "5", ⟨by decide, by decide⟩, ⟨by decide, by decide⟩, by decide, by decide, by decide +kernel⟩
    (by decide) (setApart_oneTrackHub _ (by decide) _)
  exact ⟨reply, clients', hsetup, h.1, h.2 [.leave 1] _ ⟨Nat.one_ne_zero, trivial⟩ rfl⟩

/-- **A header without channels, and one with channels that no byte holds, are answered with 200: the one
reply names no channels, the other names 256 while the frames come on channel 0.** -/
theorem reply_without_channels :
    (∃ reply clients', setupTrack1 "RTP/AVP/TCP;unicast" = some (reply, clients') ∧ reply.code = 200 ∧
        ∀ a b, ¬ HasInterleaved (headerGet reply.headers (ascii "Transport")) a b) ∧
      ∃ reply clients' packet, setupTrack1 "RTP/AVP/TCP;unicast;interleaved=256-257" = some (reply, clients') ∧
        reply.code = 200 ∧
        ascii "interleaved=256-257" ∈ (headerGet reply.headers (ascii "Transport")).splitOn 59 ∧
        dispatchTo clients' 0 ⟨2, [7], by decide⟩ = some packet ∧ packet[1]? = some 0 := by
  constructor
  · have hrun : (setupTrack1 "RTP/AVP/TCP;unicast").any (fun x => decide (x.1.code = 200 ∧
        ∀ part ∈ (headerGet x.1.headers (ascii "Transport")).splitOn 59, ¬ ascii "interleaved=" <+: part)) = true := by
      decide +kernel
    obtain ⟨⟨reply, clients'⟩, hsetup, hlast⟩ := (Option.any_eq_true _ _).mp hrun
    obtain ⟨hcode, hnone⟩ := of_decide_eq_true hlast
    exact ⟨reply, clients', hsetup, hcode, fun a b ⟨_, _, _, _, hmem⟩ => hnone _ hmem (List.prefix_append _ _)⟩
  · have hrun : (setupTrack1 "RTP/AVP/TCP;unicast;interleaved=256-257").any (fun x => decide (x.1.code = 200 ∧
        ascii "interleaved=256-257" ∈ (headerGet x.1.headers (ascii "Transport")).splitOn 59 ∧
        dispatchTo x.2 0 ⟨2, [7], by decide⟩ = some [36, 0, 0, 1, 7])) = true := by
      decide +kernel
    obtain ⟨⟨reply, clients'⟩, hsetup, hlast⟩ := (Option.any_eq_true _ _).mp hrun
    obtain ⟨hcode, hmem, hd⟩ := of_decide_eq_true hlast
    exact ⟨reply, clients', [36, 0, 0, 1, 7], hsetup, hcode, hmem, hd, rfl⟩

end RtspProxy.Downstream
