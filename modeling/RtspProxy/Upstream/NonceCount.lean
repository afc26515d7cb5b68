import RtspProxy.Upstream.Effect
import Mathlib.Data.List.ReduceOption
import Mathlib.Logic.Function.Basic

/-!
# Nonce counts

With `qop=auth` each request says how many requests have been sent with the camera's nonce, and
a camera may take a repeated pair of nonce and count for a replay. The count is `Digest.Nc`. It
is set to zero with every Digest challenge, also with one that repeats the nonce in use
(`nonceCount_repeated`).

## The model

`Stamped` is a remote with a record of the nonce and the count that each request carries, and
that each request written has carried. A request keeps its `Authorization` header, and so its
stamp, when it is written again while the digest has no realm.

## What is proved

* `Carries` — the record says what stands in the headers.
* `Fresh` — the steps that keep counts apart: a challenge with `qop=auth` is taken up only with a
  nonce that no request has carried, and no request is written with the stamp it had before.
* `nonceCounts_of_fresh` — in every run of such steps no two requests carry the same nonce and
  count, as long as there are fewer than 2³² of them.
-/

namespace RtspProxy.Upstream

open Theory Wire

/-! ### Stamps -/

/-- The nonce and the count of a request with `qop=auth`. -/
structure Stamp where
  nonce : Bytes
  nc : ℕ
  deriving DecidableEq, Repr

/-- Requests are answered with a count. -/
def Digest.counts (d : Digest) : Bool := d.answers && d.nonce != [] && equalFold d.qop (ascii "auth")

/-- The stamp of a request that is written with this digest and had the stamp `old` before. -/
def Digest.stamp (d : Digest) (old : Option Stamp) : Option Stamp :=
  if d.answers = false then old
  else if d.counts then some ⟨d.nonce, (d.nc + 1) % 2 ^ 32⟩
  else none

/-- The `Authorization` in the headers has this stamp, or none. -/
def Carries (headers : Headers) : Option Stamp → Prop
  | some stamp => ∃ (d : Digest) (url response cnonce : Bytes), d.nonce = stamp.nonce ∧
      equalFold d.qop (ascii "auth") = true ∧
      headers.find (ascii "Authorization") = some (d.digestHeader url response (hex32 stamp.nc) cnonce)
  | none => headers.find (ascii "Authorization") = none ∨
      (∃ d : Digest, headers.find (ascii "Authorization") = some d.basicHeader) ∨
      ∃ (d : Digest) (url response : Bytes), equalFold d.qop (ascii "auth") = false ∧
        headers.find (ascii "Authorization") = some (d.digestHeader url response [] [])

theorem Carries.congr {headers headers' : Headers} {stamp : Option Stamp} (h : Carries headers stamp)
    (hfind : headers'.find (ascii "Authorization") = headers.find (ascii "Authorization")) : Carries headers' stamp := by
  cases stamp <;> simpa only [Carries, hfind] using h

/-- The headers of a request that is written: its `Authorization`, if there is one to set, or the
one it had. -/
theorem prepare_find (r : Request) (cseq : ℕ) (auth : Option Bytes) :
    (r.prepare cseq auth).find (ascii "Authorization") = auth.or (r.headers.find (ascii "Authorization")) := by
  have hne : ascii "Authorization" ≠ ascii "CSeq" := by decide
  cases auth <;> simp [Request.prepare, Headers.find_set, hne]

section
variable {d : Digest} (method url cnonce : Bytes)

theorem answers_iff : d.answers = true ↔ ¬ (d.realm = [] ∨ d.hasCredentials = false) := by
  simp [Digest.answers]

theorem createAuthenticatorStr_none (h : d.answers = false) : d.createAuthenticatorStr method url cnonce = (d, none) := by
  have hno : d.realm = [] ∨ d.hasCredentials = false := by
    by_contra hno
    exact Bool.false_ne_true (h.symm.trans (answers_iff.mpr hno))
  rw [Digest.createAuthenticatorStr, if_pos hno]

theorem createAuthenticatorStr_basic (h : d.answers = true) (hnonce : d.nonce = []) :
    d.createAuthenticatorStr method url cnonce = (d, some d.basicHeader) := by
  rw [Digest.createAuthenticatorStr, if_neg (answers_iff.mp h), if_neg (by simp [hnonce])]

theorem createAuthenticatorStr_nonce (h : d.answers = true) (hnonce : d.nonce ≠ [])
    (hqop : equalFold d.qop (ascii "auth") = false) :
    ∃ response, d.createAuthenticatorStr method url cnonce = (d, some (d.digestHeader url response [] [])) := by
  refine ⟨(d.computeResponse method url cnonce).2.1, ?_⟩
  rw [Digest.createAuthenticatorStr, if_neg (answers_iff.mp h), if_pos hnonce]
  simp [Digest.computeResponse, hqop]

theorem createAuthenticatorStr_count (h : d.counts = true) :
    ∃ response, d.createAuthenticatorStr method url cnonce = ({ d with nc := (d.nc + 1) % 2 ^ 32 },
      some (Digest.digestHeader { d with nc := (d.nc + 1) % 2 ^ 32 } url response (hex32 ((d.nc + 1) % 2 ^ 32)) cnonce)) := by
  simp only [Digest.counts, Bool.and_eq_true, bne_iff_ne] at h
  obtain ⟨⟨hans, hnonce⟩, hqop⟩ := h
  refine ⟨(d.computeResponse method url cnonce).2.1, ?_⟩
  rw [Digest.createAuthenticatorStr, if_neg (answers_iff.mp hans), if_pos hnonce]
  simp [Digest.computeResponse, hqop]

end

/-- **The stamp of a request that is written** is the one in its headers, and the digest counts it. -/
theorem prepare_stamp {d : Digest} {r : Request} {old : Option Stamp} (h : Carries r.headers old) (cseq : ℕ)
    (cnonce : Bytes) :
    Carries (r.prepare cseq (d.createAuthenticatorStr r.method r.url cnonce).2) (d.stamp old) ∧
      (d.createAuthenticatorStr r.method r.url cnonce).1 =
        if d.counts then { d with nc := (d.nc + 1) % 2 ^ 32 } else d := by
  cases hans : d.answers with
  | false =>
    have hcounts : d.counts = false := by simp [Digest.counts, hans]
    rw [createAuthenticatorStr_none _ _ _ hans, Digest.stamp, if_pos hans]
    exact ⟨h.congr (prepare_find r cseq none), by simp [hcounts]⟩
  | true =>
    cases hcounts : d.counts with
    | true =>
      obtain ⟨response, hauth⟩ := createAuthenticatorStr_count r.method r.url cnonce hcounts
      have hqop : equalFold d.qop (ascii "auth") = true := by
        simp only [Digest.counts, Bool.and_eq_true] at hcounts
        exact hcounts.2
      rw [hauth, Digest.stamp, if_neg (by simp [hans]), if_pos hcounts]
      exact ⟨⟨_, _, _, _, rfl, hqop, prepare_find r cseq _⟩, rfl⟩
    | false =>
      rw [Digest.stamp, if_neg (by simp [hans]), if_neg (by simp [hcounts])]
      by_cases hnonce : d.nonce = []
      · rw [createAuthenticatorStr_basic _ _ _ hans hnonce]
        exact ⟨.inr (.inl ⟨d, prepare_find r cseq _⟩), rfl⟩
      · have hqop : equalFold d.qop (ascii "auth") = false := by simpa [Digest.counts, hans, hnonce] using hcounts
        obtain ⟨response, hauth⟩ := createAuthenticatorStr_nonce r.method r.url cnonce hans hnonce hqop
        rw [hauth]
        exact ⟨.inr (.inr ⟨d, _, _, hqop, prepare_find r cseq _⟩), rfl⟩

/-! ### The system -/

/-- A remote, with the stamp of each call's request and of each request written. -/
structure Stamped where
  remote : Remote
  /-- The stamp that the request of a call carries. -/
  carried : ℕ → Option Stamp
  /-- The stamps of the requests written. -/
  stamps : List (Option Stamp)

/-- `NewRemote`. -/
def newStamped (username password : Bytes) : Stamped := ⟨newRemote username password, fun _ => none, []⟩

/-- A step of the remote, and the stamp of the request it writes. -/
def Stamped.step (s : Stamped) (a : Act) : Option Stamped :=
  (s.remote.step a).map fun t =>
    match t.wire.drop s.remote.wire.length with
    | [] => { s with remote := t }
    | w :: _ =>
      ⟨t, Function.update s.carried w.call (s.remote.digest.stamp (s.carried w.call)),
        s.stamps ++ [s.remote.digest.stamp (s.carried w.call)]⟩

/-! ### The steps that are safe -/

/-- A Digest challenge that will be answered with a count has a nonce that no request has carried. -/
def Stamped.NewNonce (s : Stamped) (paramsStr : Bytes) : Prop :=
  let c := parseWWWAuthenticate paramsStr
  c.isDigest = true → c.realm ≠ [] → c.nonce ≠ [] → equalFold c.qop (ascii "auth") = true →
    ∀ stamp ∈ s.stamps.reduceOption, stamp.nonce ≠ c.nonce

/-- The steps of the reader that keep counts apart. -/
def Stamped.FreshReader (s : Stamped) : ReaderPc → Prop
  | .handling _ _ _ _ (.auth paramsStr) => s.NewNonce paramsStr
  | _ => True

/-- A challenge that is taken up has a new nonce. -/
def Stamped.FreshAct (s : Stamped) : Act → Prop
  | .reader _ => s.FreshReader s.remote.reader
  | _ => True

/-- A challenge that is taken up has a new nonce, and a request with a stamp is not written while
the digest has no realm. -/
def Fresh (s : Stamped) (a : Act) : Prop :=
  s.FreshAct a ∧ ∀ i ∈ s.remote.sends a, s.remote.digest.answers = false → s.carried i = none

instance (s : Stamped) (paramsStr : Bytes) : Decidable (s.NewNonce paramsStr) :=
  inferInstanceAs (Decidable (_ → _ → _ → _ → ∀ _ ∈ _, _))

instance (s : Stamped) : DecidablePred s.FreshReader := fun pc =>
  match pc with
  | .handling _ _ _ _ (.auth paramsStr) => inferInstanceAs (Decidable (s.NewNonce paramsStr))
  | .handling _ _ _ _ .judge | .handling _ _ _ _ .bump | .handling _ _ _ _ .resend
  | .handling _ _ _ _ (.finalize _) | .handling _ _ _ _ (.notify _) | .idle => isTrue trivial

instance (s : Stamped) : DecidablePred s.FreshAct := fun a =>
  match a with
  | .reader _ => inferInstanceAs (Decidable (s.FreshReader s.remote.reader))
  | .dial _ | .attach | .disconnect | .cancel | .shutdown | .call _ _ | .teardown _ _ _ | .caller _ _ | .recv _ =>
    isTrue trivial

instance (s : Stamped) (a : Act) : Decidable (Fresh s a) := inferInstanceAs (Decidable (_ ∧ ∀ _ ∈ _, _))

/-! ### The invariant -/

/-- What fresh steps keep. -/
structure Counted (s : Stamped) : Prop where
  /-- Each request written has its place in the record. -/
  wire : ∀ (k : ℕ) (w : Written), s.remote.wire[k]? = some w → ∃ stamp, s.stamps[k]? = some stamp ∧ Carries w.headers stamp
  /-- There are no others. -/
  length : s.stamps.length = s.remote.wire.length
  /-- The record says what the requests carry. -/
  heads : ∀ (i : ℕ) (h : Head), s.remote.heads[i]? = some h → Carries h.headers (s.carried i)
  /-- There is none for requests to come. -/
  above : ∀ i, s.remote.heads.length ≤ i → s.carried i = none
  /-- The count is not above the number of requests. -/
  nc : s.remote.digest.nc ≤ s.stamps.length
  /-- No request has a higher count for the nonce in use. -/
  current : s.remote.digest.counts = true → ∀ stamp, some stamp ∈ s.stamps →
    stamp.nonce = s.remote.digest.nonce → stamp.nc ≤ s.remote.digest.nc
  /-- A count has 32 bits. -/
  small : ∀ stamp, some stamp ∈ s.stamps → stamp.nc < 2 ^ 32
  /-- No stamp is used twice. -/
  once : ∀ (i j : ℕ) (stamp : Stamp), s.stamps[i]? = some (some stamp) → s.stamps[j]? = some (some stamp) → i = j

theorem counted_newStamped (username password : Bytes) : Counted (newStamped username password) := by
  have hnc : (newRemote username password).digest.nc = 0 := by
    unfold newRemote
    dsimp only
    split_ifs <;> rfl
  refine ⟨?_, rfl, ?_, fun _ _ => rfl, Nat.le_of_eq hnc, ?_, ?_, ?_⟩ <;> simp [newStamped, newRemote, Remote.heads]

theorem stamped_step {s t : Stamped} {a : Act} (h : s.step a = some t) : s.remote.step a = some t.remote ∧
    (t.remote.wire = s.remote.wire → t.carried = s.carried ∧ t.stamps = s.stamps) ∧
    ∀ w, t.remote.wire = s.remote.wire ++ [w] →
      t.carried = Function.update s.carried w.call (s.remote.digest.stamp (s.carried w.call)) ∧
      t.stamps = s.stamps ++ [s.remote.digest.stamp (s.carried w.call)] := by
  obtain ⟨r, hr, rfl⟩ := Option.map_eq_some_iff.mp h
  refine ⟨?_, ?_, ?_⟩
  · split <;> exact hr
  · intro hw
    split at hw <;> simp_all
  · intro w hw
    split at hw
    case h_1 hdrop =>
      rw [show r.wire = s.remote.wire ++ [w] from hw] at hdrop
      simp at hdrop
    case h_2 hdrop =>
      rw [show r.wire = s.remote.wire ++ [w] from hw] at hdrop
      simp_all

theorem carries_makes {a : Act} {h : Head} (hm : h ∈ a.makes) : Carries h.headers none := by
  have hnew (kind : RequestKind) (url : Bytes) : Carries (newRequest kind url).head.headers none := by
    left
    cases kind <;> simp [newRequest, Request.head, Headers.find] <;> decide
  cases a <;> simp only [Act.makes, Option.mem_def, reduceCtorEq, Option.some.injEq] at hm <;> rw [← hm] <;> exact hnew _ _

variable {s t : Stamped} {a : Act}

theorem Counted.heads_makes (h : Counted s) {i : ℕ} {e : Head} (he : (s.remote.heads ++ a.makes.toList)[i]? = some e) :
    Carries e.headers (s.carried i) := by
  by_cases hlt : i < s.remote.heads.length
  · rw [List.getElem?_append_left hlt] at he
    exact h.heads i e he
  · rw [h.above i (by omega)]
    rw [List.getElem?_append_right (by omega)] at he
    exact carries_makes (by simpa using List.mem_of_getElem? he)

theorem Counted.quiet (h : Counted s) (hw : t.remote.wire = s.remote.wire) (hc : t.carried = s.carried)
    (hst : t.stamps = s.stamps) (hh : t.remote.heads = s.remote.heads ++ a.makes.toList)
    (hnc : t.remote.digest.nc ≤ s.stamps.length)
    (hcur : t.remote.digest.counts = true → ∀ stamp, some stamp ∈ s.stamps →
      stamp.nonce = t.remote.digest.nonce → stamp.nc ≤ t.remote.digest.nc) : Counted t := by
  refine ⟨?_, ?_, ?_, ?_, ?_, ?_, ?_, ?_⟩
  · rw [hw, hst]
    exact h.wire
  · rw [hw, hst]
    exact h.length
  · rw [hh, hc]
    exact fun i e he => h.heads_makes he
  · rw [hh, hc]
    intro i hi
    exact h.above i (by simp at hi; omega)
  · rw [hst]
    exact hnc
  · rw [hst]
    exact hcur
  · rw [hst]
    exact h.small
  · rw [hst]
    exact h.once

theorem Counted.auth (h : Counted s) {paramsStr : Bytes} (hnew : s.NewNonce paramsStr) :
    (s.remote.digest.handleAuthenticationFailure paramsStr).1.nc ≤ s.stamps.length ∧
    ((s.remote.digest.handleAuthenticationFailure paramsStr).1.counts = true → ∀ stamp, some stamp ∈ s.stamps →
      stamp.nonce = (s.remote.digest.handleAuthenticationFailure paramsStr).1.nonce →
        stamp.nc ≤ (s.remote.digest.handleAuthenticationFailure paramsStr).1.nc) := by
  unfold Digest.handleAuthenticationFailure
  dsimp only
  split_ifs with hno hdigest hrealm
  · exact ⟨h.nc, h.current⟩
  · -- no request has carried the nonce
    refine ⟨Nat.zero_le _, fun hcounts stamp hmem hnonce => ?_⟩
    simp only [Digest.counts, Digest.answers, Bool.and_eq_true, bne_iff_ne] at hcounts
    exact absurd hnonce (hnew hdigest hcounts.1.1.1 hcounts.1.2 hcounts.2 stamp
      (List.reduceOption_mem_iff.mpr hmem))
  · exact ⟨h.nc, fun hcounts => by simp [Digest.counts] at hcounts⟩
  · exact ⟨h.nc, h.current⟩

theorem counts_clearNonce (d : Digest) : d.clearNonce.counts = false := by simp [Digest.counts, Digest.clearNonce]

/-- **The next count** has not been used. -/
theorem Counted.next (h : Counted s) {old : Option Stamp} (hold : s.remote.digest.answers = false → old = none)
    (hfew : s.stamps.length + 1 < 2 ^ 32) {stamp : Stamp} (hstamp : s.remote.digest.stamp old = some stamp) :
    s.remote.digest.counts = true ∧ stamp = ⟨s.remote.digest.nonce, s.remote.digest.nc + 1⟩ ∧
      some stamp ∉ s.stamps := by
  have hnc := h.nc
  rw [Digest.stamp] at hstamp
  split_ifs at hstamp with hans hcounts
  · rw [hold hans] at hstamp
    cases hstamp
  · rw [Nat.mod_eq_of_lt (by omega)] at hstamp
    obtain rfl := Option.some.inj hstamp
    refine ⟨hcounts, rfl, fun hmem => ?_⟩
    exact absurd (h.current hcounts _ hmem rfl) (Nat.not_succ_le_self _)

theorem Counted.counted (h : Counted s) (hfew : s.stamps.length + 1 < 2 ^ 32) (writeOk : Bool) {d : Digest}
    (hd : d = if s.remote.digest.counts then { s.remote.digest with nc := (s.remote.digest.nc + 1) % 2 ^ 32 }
      else s.remote.digest) :
    (if writeOk then d else d.clearNonce).nc ≤ s.stamps.length + 1 ∧
      ((if writeOk then d else d.clearNonce).counts = true → s.remote.digest.counts = true ∧
        (if writeOk then d else d.clearNonce).nonce = s.remote.digest.nonce ∧
        (if writeOk then d else d.clearNonce).nc = s.remote.digest.nc + 1) := by
  have hnc := h.nc
  cases writeOk with
  | false => exact ⟨Nat.zero_le _, fun hcounts => by simp [counts_clearNonce] at hcounts⟩
  | true =>
    simp only [if_true, hd]
    split_ifs with hcounts
    · rw [Nat.mod_eq_of_lt (by omega)]
      exact ⟨by simp; omega, fun _ => ⟨hcounts, rfl, rfl⟩⟩
    · exact ⟨by omega, fun hc => absurd hc hcounts⟩

/-- Once there are fewer than 2³² requests, **a fresh step** keeps the counts apart. -/
theorem Counted.step (h : Counted s) (hfresh : Fresh s a) (hs : s.step a = some t)
    (hfew : t.remote.wire.length < 2 ^ 32) : Counted t := by
  obtain ⟨hr, hsame, hwrote⟩ := stamped_step hs
  cases change_of_step hr with
  | plain hd hh hw =>
    obtain ⟨hc, hst⟩ := hsame hw
    rcases hd with hd | hd
    · exact h.quiet hw hc hst hh (hd ▸ h.nc) (hd ▸ h.current)
    · refine h.quiet hw hc hst hh (hd ▸ Nat.zero_le _) ?_
      rw [hd, counts_clearNonce]
      simp
  | auth o ha recv response el call paramsStr hrd hd hh hw =>
    obtain ⟨hc, hst⟩ := hsame hw
    subst ha
    have hnew : s.NewNonce paramsStr := by
      have hok := hfresh.1
      simp only [Stamped.FreshAct, hrd] at hok
      exact hok
    obtain ⟨hnc, hcur⟩ := h.auth hnew
    exact h.quiet (a := .reader o) hw hc hst (by simpa [Act.makes] using hh) (hd ▸ hnc) (hd ▸ hcur)
  | write i request o conn cseq auth hi hsends ho hauth hd hh hw =>
    obtain ⟨hc, hst⟩ := hwrote _ hw
    have hold : s.remote.digest.answers = false → s.carried i = none := hfresh.2 i hsends
    have hlen : s.stamps.length + 1 < 2 ^ 32 := by
      rw [hw, List.length_append, List.length_singleton, ← h.length] at hfew
      exact hfew
    obtain ⟨hcarries, hdig⟩ := prepare_stamp (d := s.remote.digest) (h.heads_makes hi) cseq o.cnonce
    rw [← hauth] at hcarries hdig
    have hnext {stamp : Stamp} (hstamp : s.remote.digest.stamp (s.carried i) = some stamp) := h.next hold hlen hstamp
    generalize s.remote.digest.stamp (s.carried i) = new at hc hst hcarries hnext
    have hlt := (List.getElem?_eq_some_iff.mp hi).1
    have hnew : t.remote.digest.nc ≤ s.stamps.length + 1 ∧ (t.remote.digest.counts = true →
        s.remote.digest.counts = true ∧ t.remote.digest.nonce = s.remote.digest.nonce ∧
        t.remote.digest.nc = s.remote.digest.nc + 1) := by
      rw [hd]
      exact h.counted hlen o.writeOk hdig
    refine ⟨?_, ?_, ?_, ?_, ?_, ?_, ?_, ?_⟩
    · rw [hw, hst]
      intro k w hk
      rcases of_getElem?_concat hk with hk | ⟨rfl, rfl⟩
      · obtain ⟨stamp, hstamp, hcar⟩ := h.wire k w hk
        exact ⟨stamp, getElem?_append_of_some hstamp, hcar⟩
      · exact ⟨new, by rw [← h.length, List.getElem?_concat_length], hcarries⟩
    · rw [hw, hst, List.length_append, List.length_append, h.length]
      rfl
    · rw [hh, hc]
      intro j e he
      by_cases hij : i = j
      · subst hij
        rw [List.getElem?_set_self hlt] at he
        rw [Function.update_self, ← Option.some.inj he]
        exact hcarries
      · rw [List.getElem?_set_ne hij] at he
        rw [Function.update_of_ne (Ne.symm hij)]
        exact h.heads_makes he
    · rw [hh, hc]
      intro j hj
      rw [List.length_set, List.length_append] at hj
      rw [Function.update_of_ne (by rintro rfl; rw [List.length_append] at hlt; omega)]
      exact h.above j (by omega)
    · rw [hst, List.length_append]
      exact hnew.1
    · rw [hst]
      intro hcounts stamp hmem hnonce
      obtain ⟨hcounts', hsame, hnc⟩ := hnew.2 hcounts
      rcases List.mem_append.mp hmem with hmem | hmem
      · have := h.current hcounts' stamp hmem (hnonce.trans hsame)
        omega
      · obtain ⟨-, rfl, -⟩ := hnext (List.mem_singleton.mp hmem).symm
        exact Nat.le_of_eq hnc.symm
    · rw [hst]
      intro stamp hmem
      rcases List.mem_append.mp hmem with hmem | hmem
      · exact h.small stamp hmem
      · obtain ⟨-, rfl, -⟩ := hnext (List.mem_singleton.mp hmem).symm
        have hnc := h.nc
        dsimp only
        omega
    · rw [hst]
      intro j k stamp hj hk
      rcases of_getElem?_concat hj with hj' | ⟨rfl, hj'⟩
      · rcases of_getElem?_concat hk with hk' | ⟨rfl, hk'⟩
        · exact h.once j k stamp hj' hk'
        · exact absurd (List.mem_of_getElem? hj') (hnext hk'.symm).2.2
      · rcases of_getElem?_concat hk with hk' | ⟨rfl, hk'⟩
        · exact absurd (List.mem_of_getElem? hk') (hnext hj'.symm).2.2
        · rfl

theorem wire_length_step {r r' : Remote} {a : Act} (h : r.step a = some r') : r.wire.length ≤ r'.wire.length := by
  cases change_of_step h with
  | plain _ _ hw => rw [hw]
  | auth _ _ _ _ _ _ _ _ _ _ hw => rw [hw]
  | write _ _ _ _ _ _ _ _ _ _ _ _ hw => simp [hw]

/-- **Nonce counts are not used twice** in a run of fresh steps with fewer than 2³² requests:
whatever the camera's challenges, the timeouts and the disconnects, and however the callers' steps
interleave, no two requests with `qop=auth` carry the same nonce and count, as numbers or in the
digits in which they are written. -/
theorem nonceCounts_of_fresh (username password : Bytes) (as : List Act) (t : Stamped)
    (hfresh : AllSteps Stamped.step Fresh (newStamped username password) as)
    (hexec : exec Stamped.step (newStamped username password) as = some t) (hfew : t.remote.wire.length < 2 ^ 32) :
    (∀ (k : ℕ) (w : Written), t.remote.wire[k]? = some w → ∃ stamp, t.stamps[k]? = some stamp ∧ Carries w.headers stamp) ∧
    (∀ (i j : ℕ) (stamp : Stamp), t.stamps[i]? = some (some stamp) → t.stamps[j]? = some (some stamp) → i = j) ∧
    ∀ (i j : ℕ) (stamp stamp' : Stamp), t.stamps[i]? = some (some stamp) → t.stamps[j]? = some (some stamp') →
      stamp.nonce = stamp'.nonce → hex32 stamp.nc = hex32 stamp'.nc → i = j := by
  have hall : t.remote.wire.length < 2 ^ 32 → Counted t := by
    refine exec_invariant (I := fun s => s.remote.wire.length < 2 ^ 32 → Counted s) (fun s a s' hI hC hs hlt => ?_)
      as _ t (fun _ => counted_newStamped username password) hfresh hexec
    have hgrow := wire_length_step (stamped_step hs).1
    exact (hI (by omega)).step hC hs hlt
  obtain ⟨hwire, hsmall, honce⟩ := And.intro (hall hfew).wire (And.intro (hall hfew).small (hall hfew).once)
  refine ⟨hwire, honce, fun i j stamp stamp' hi hj hnonce htext => ?_⟩
  have hnc := hex32_inj (hsmall stamp (List.mem_of_getElem? hi)) (hsmall stamp' (List.mem_of_getElem? hj)) htext
  have hstamp : stamp = stamp' := by
    cases stamp
    cases stamp'
    exact congrArg₂ Stamp.mk hnonce hnc
  exact honce i j stamp hi (hstamp ▸ hj)

/-- A camera asks for Digest with `qop=auth` and this nonce. -/
def countChallenge (nonce : String) : Bytes :=
  ascii ("RTSP/1.0 401 Unauthorized\r\nWWW-Authenticate: Digest realm=\"cam\", nonce=\"" ++ nonce ++ "\", qop=\"auth\"\r\n\r\n")

/-- An OPTIONS request is challenged, sent again and answered; the next one is sent with the nonce
in use, challenged, and sent again. -/
def challengedTwice (nonce nonce' : String) : List Act :=
  [.dial true, .attach, .call .options (ascii "rtsp://cam/"), .caller 0 .next, .caller 0 .next, .caller 0 (.sent fine),
    .recv (countChallenge nonce), .reader fine, .reader fine, .reader fine, .reader fine,
    .recv (ascii "RTSP/1.0 200 OK\r\n\r\n"), .reader fine, .reader fine, .reader fine, .caller 0 .value,
    .call .options (ascii "rtsp://cam/"), .caller 1 .next, .caller 1 .next, .caller 1 (.sent fine),
    .recv (countChallenge nonce'), .reader fine, .reader fine, .reader fine, .reader fine]

/-- With two nonces the counts start again, and the pairs differ. -/
theorem nonceCounts_of_fresh_twoNonces :
    AllSteps Stamped.step Fresh (newStamped (ascii "u") (ascii "p")) (challengedTwice "1a2b" "3c4d") ∧
    ∃ t, exec Stamped.step (newStamped (ascii "u") (ascii "p")) (challengedTwice "1a2b" "3c4d") = some t ∧
      t.stamps = [none, some ⟨ascii "1a2b", 1⟩, some ⟨ascii "1a2b", 2⟩, some ⟨ascii "3c4d", 1⟩] ∧
      ∀ (i j : ℕ) (stamp : Stamp), t.stamps[i]? = some (some stamp) → t.stamps[j]? = some (some stamp) → i = j := by
  have hfresh : AllSteps Stamped.step Fresh (newStamped (ascii "u") (ascii "p")) (challengedTwice "1a2b" "3c4d") := by
    decide +kernel
  have hrun : (exec Stamped.step (newStamped (ascii "u") (ascii "p")) (challengedTwice "1a2b" "3c4d")).any (fun t =>
      t.stamps == [none, some ⟨ascii "1a2b", 1⟩, some ⟨ascii "1a2b", 2⟩, some ⟨ascii "3c4d", 1⟩] &&
        t.remote.wire.length == 4) = true := by decide +kernel
  obtain ⟨t, ht, hboth⟩ := (Option.any_eq_true _ _).mp hrun
  simp only [Bool.and_eq_true, beq_iff_eq] at hboth
  exact ⟨hfresh, t, ht, hboth.1, (nonceCounts_of_fresh _ _ _ t hfresh ht (by omega)).2.1⟩

/-- A parameter in the `Authorization` of a request. -/
def Written.param (w : Written) (name : String) : Bytes :=
  extractParam (ascii name) ((w.headers.find (ascii "Authorization")).getD [])

/-- **A count is used twice**: the second challenge repeats the nonce, and the count starts again. -/
theorem nonceCount_repeated :
    ∃ t w w', exec Stamped.step (newStamped (ascii "u") (ascii "p")) (challengedTwice "1a2b" "1a2b") = some t ∧
      t.remote.wire[1]? = some w ∧ t.remote.wire[3]? = some w' ∧
      t.stamps[1]? = some (some ⟨ascii "1a2b", 1⟩) ∧ t.stamps[3]? = some (some ⟨ascii "1a2b", 1⟩) ∧
      (w.param "nonce", w.param "qop", w.param "nc") = (ascii "1a2b", ascii "auth", ascii "00000001") ∧
      (w'.param "nonce", w'.param "qop", w'.param "nc") = (ascii "1a2b", ascii "auth", ascii "00000001") := by
  have hrun : (exec Stamped.step (newStamped (ascii "u") (ascii "p")) (challengedTwice "1a2b" "1a2b")).any (fun t =>
      t.remote.wire[1]?.any (fun w => (w.param "nonce", w.param "qop", w.param "nc") ==
        (ascii "1a2b", ascii "auth", ascii "00000001")) &&
      t.remote.wire[3]?.any (fun w => (w.param "nonce", w.param "qop", w.param "nc") ==
        (ascii "1a2b", ascii "auth", ascii "00000001")) &&
      t.stamps[1]? == some (some ⟨ascii "1a2b", 1⟩) && t.stamps[3]? == some (some ⟨ascii "1a2b", 1⟩)) = true := by
    decide +kernel
  obtain ⟨t, ht, hall⟩ := (Option.any_eq_true _ _).mp hrun
  simp only [Bool.and_eq_true, beq_iff_eq, Option.any_eq_true] at hall
  obtain ⟨⟨⟨⟨w, hw, hparams⟩, w', hw', hparams'⟩, hstamp⟩, hstamp'⟩ := hall
  exact ⟨t, w, w', ht, hw, hw', hstamp, hstamp', hparams, hparams'⟩

end RtspProxy.Upstream
