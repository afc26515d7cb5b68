import RtspProxy.Upstream.NonceCount
import RtspProxy.Upstream.Downgrade
import Mathlib.Data.List.Induction

/-!
# Where an Authorization comes from

The user name and the password of a stream are for its camera alone, and only if it asks for them. They are
in the `Digest` of the remote from the start; what a request says of them goes into its `Authorization`
header, which it keeps when it is sent again.

## The model

The runs are those of `Upstream.Remote`. A message `Challenges` if it is a 401 response with a
`WWW-Authenticate` header. A digest is `Set` by a challenge if it has its realm, and its nonce with all that
goes with it, unless the nonce was cleared since.

## What is proved

* `reader_of_other`, `reading_of_step` — the reader handles what it was given.
* `Solicited.step` — what every step keeps.
* `authorization_solicited` — **every `Authorization` that is written is for the method and the URL of its request,
  with the stream's own user name and password, and answers a 401 that the reader was given before, with
  its realm and, if it names a nonce, its nonce.**
-/

namespace RtspProxy.Upstream

open Theory Wire

/-! ### Challenges and answers -/

/-- The message is a 401 response with this challenge. -/
def Challenges (recv : Bytes) (c : Challenge) : Prop :=
  ∃ response, newResponseFromBuffer recv = .ok response ∧ response.code = 401 ∧
    c = parseWWWAuthenticate (headerGet response.headers (ascii "WWW-Authenticate"))

/-- The digest is as the challenge has set it, up to the nonce count; or its nonce was cleared. -/
structure Digest.SetBy (d : Digest) (c : Challenge) : Prop where
  realm : d.realm = c.realm
  /-- The nonce, and what goes with it. -/
  nonce : d.nonce ≠ [] → c.isDigest = true ∧ d.nonce = c.nonce ∧ d.qop = c.qop ∧ d.opaqueText = c.opaqueText ∧
    d.algorithm = c.algorithm

/-- The digest was set by a message of the run. -/
def SetIn (as : List Act) (d : Digest) : Prop := ∃ recv c, .recv recv ∈ as ∧ Challenges recv c ∧ d.SetBy c

/-- The value is what `createAuthenticatorStr` makes for this method and URL from a digest with these
credentials that was set in the run. -/
def AnswersIn (as : List Act) (username password method url value : Bytes) : Prop :=
  ∃ d cnonce, SetIn as d ∧ d.realm ≠ [] ∧ d.username = username ∧ d.password = password ∧
    (d.createAuthenticatorStr method url cnonce).2 = some value

section
variable {d : Digest} {c : Challenge}

theorem Digest.SetBy.clearNonce (h : d.SetBy c) : d.clearNonce.SetBy c := ⟨h.realm, fun hne => absurd rfl hne⟩

theorem Digest.SetBy.count (h : d.SetBy c) (nc : ℕ) : Digest.SetBy { d with nc := nc } c := ⟨h.realm, h.nonce⟩

/-- What `handleAuthenticationFailure` does: nothing, or it sets the digest. -/
theorem handleAuthenticationFailure_cases (d : Digest) (paramsStr : Bytes) :
    (d.handleAuthenticationFailure paramsStr).1 = d ∨
      (d.handleAuthenticationFailure paramsStr).1.SetBy (parseWWWAuthenticate paramsStr) := by
  unfold Digest.handleAuthenticationFailure
  dsimp only
  split_ifs with hnone hdigest hrealm
  · exact .inl rfl
  · exact .inr ⟨rfl, fun _ => ⟨hdigest, rfl, rfl, rfl, rfl⟩⟩
  · exact .inr ⟨rfl, fun hne => absurd rfl hne⟩
  · exact .inl rfl

theorem credentials_handleAuthenticationFailure (d : Digest) (paramsStr : Bytes) :
    (d.handleAuthenticationFailure paramsStr).1.username = d.username ∧
      (d.handleAuthenticationFailure paramsStr).1.password = d.password := by
  unfold Digest.handleAuthenticationFailure
  dsimp only
  split_ifs <;> exact ⟨rfl, rfl⟩

/-- There is a value only with a realm and credentials. -/
theorem answers_of_createAuthenticatorStr {method url cnonce value : Bytes}
    (h : (d.createAuthenticatorStr method url cnonce).2 = some value) : d.realm ≠ [] ∧ d.hasCredentials = true := by
  have hans : d.answers = true := by
    by_contra hno
    rw [createAuthenticatorStr_none method url cnonce (by simpa using hno)] at h
    cases h
  simpa [Digest.answers] using hans

/-- The credentials of a digest that has any are those that `NewRemote` was given. -/
theorem credentials_of_newRemote {username password : Bytes} (hc : d.hasCredentials = true)
    (hu : d.username = (newRemote username password).digest.username)
    (hp : d.password = (newRemote username password).digest.password) :
    d.username = username ∧ d.password = password := by
  have hne : d.username ≠ [] := by
    simp only [Digest.hasCredentials, Bool.and_eq_true, bne_iff_ne] at hc
    exact hc.1
  unfold newRemote at hu hp
  dsimp only at hu hp
  split_ifs at hu hp
  · exact absurd hu hne
  · exact ⟨hu, hp⟩

end

theorem SetIn.mono {as : List Act} {d : Digest} (h : SetIn as d) (bs : List Act) : SetIn (as ++ bs) d := by
  obtain ⟨recv, c, hrecv, hrest⟩ := h
  exact ⟨recv, c, List.mem_append_left _ hrecv, hrest⟩

theorem AnswersIn.mono {as : List Act} {username password method url value : Bytes}
    (h : AnswersIn as username password method url value) (bs : List Act) :
    AnswersIn (as ++ bs) username password method url value := by
  obtain ⟨d, cnonce, hset, hrest⟩ := h
  exact ⟨d, cnonce, hset.mono bs, hrest⟩

/-! ### The reader -/

variable {s t : Remote} {a : Act}

/-- Only a message and its own steps move the reader. -/
theorem reader_of_other (h : s.step a = some t) (hrecv : ∀ recv, a ≠ .recv recv) (hreader : ∀ o, a ≠ .reader o) :
    t.reader = s.reader := by
  cases a with
  | recv recv => exact absurd rfl (hrecv recv)
  | reader o => exact absurd rfl (hreader o)
  | caller i o => exact reader_stepCall h
  | teardown session url o =>
    obtain rfl := Option.some.inj h
    exact sendRequest_reader _ _ _ o
  | disconnect =>
    cases h
    unfold Remote.disconnect
    split_ifs <;> rfl
  | dial ok =>
    cases h
    unfold Remote.dialLocked
    split_ifs <;> rfl
  | attach =>
    obtain ⟨-, ⟨⟩⟩ := Option.ite_none_right_eq_some.mp h
    rfl
  | call | cancel | shutdown =>
    cases h
    rfl

/-- The message that the reader handles was given in the run; and it takes up a challenge of a 401 only. -/
def Reading (as : List Act) (s : Remote) : Prop :=
  ∀ recv response el call stage, s.reader = .handling recv response el call stage →
    .recv recv ∈ as ∧ newResponseFromBuffer recv = .ok response ∧
      ∀ paramsStr, stage = .auth paramsStr → response.code = 401 ∧
        paramsStr = headerGet response.headers (ascii "WWW-Authenticate")

/-- **The reader handles what it was given.** -/
theorem reading_of_step {as : List Act} (hr : Reading as s) (h : s.step a = some t) : Reading (as ++ [a]) t := by
  intro recv response el call stage ht
  have hold (hs : s.reader = .handling recv response el call stage) :
      .recv recv ∈ as ++ [a] ∧ newResponseFromBuffer recv = .ok response ∧
        ∀ paramsStr, stage = .auth paramsStr → response.code = 401 ∧
          paramsStr = headerGet response.headers (ascii "WWW-Authenticate") := by
    obtain ⟨hmem, hrest⟩ := hr recv response el call stage hs
    exact ⟨List.mem_append_left _ hmem, hrest⟩
  by_cases hrecv : ∃ m, a = .recv m
  · obtain ⟨m, rfl⟩ := hrecv
    obtain ⟨-, ⟨⟩⟩ := Option.ite_none_right_eq_some.mp h
    replace ht : (s.receive m).reader = .handling recv response el call stage := ht
    unfold Remote.receive at ht
    split at ht
    case h_1 response' el' call' _ hparse _ =>
      cases ht
      exact ⟨by simp, hparse, fun _ hp => by cases hp⟩
    case h_2 => exact hold ht
  · by_cases hreader : ∃ o, a = .reader o
    · obtain ⟨o, rfl⟩ := hreader
      obtain ⟨recv', response', el', call', stage', c, hs, -, hstep⟩ := stepReader_cases h
      obtain ⟨hmem, hparse, -⟩ := hr _ _ _ _ _ hs
      have hmem' : Act.recv recv' ∈ as ++ [Act.reader o] := List.mem_append_left _ hmem
      cases hstep with
      | challenge hcode =>
        cases ht
        exact ⟨hmem', hparse, fun _ hp => ⟨hcode, (Stage.auth.inj hp).symm⟩⟩
      | judge =>
        cases ht
        exact ⟨hmem', hparse, fun _ hp => by cases hp⟩
      | auth paramsStr =>
        cases ht
        refine ⟨hmem', hparse, fun _ hp => ?_⟩
        split_ifs at hp
      | bump =>
        cases ht
        exact ⟨hmem', hparse, fun _ hp => by cases hp⟩
      | finalize =>
        cases ht
        exact ⟨hmem', hparse, fun _ hp => by cases hp⟩
      | resend => cases ht
      | gone => cases ht
      | notify => cases ht
    · exact hold ((reader_of_other h (fun m hm => hrecv ⟨m, hm⟩) fun o ho => hreader ⟨o, ho⟩) ▸ ht)

/-! ### The invariant -/

/-- What holds after every run. -/
structure Solicited (username password : Bytes) (as : List Act) (s : Remote) : Prop where
  /-- The credentials stay. -/
  credentials : s.digest.username = (newRemote username password).digest.username ∧
    s.digest.password = (newRemote username password).digest.password
  /-- A realm comes from a challenge. -/
  digest : s.digest.realm ≠ [] → SetIn as s.digest
  /-- The reader. -/
  reading : Reading as s
  /-- What the requests carry answers a challenge. -/
  heads : ∀ h ∈ s.heads, ∀ value, h.headers.find (ascii "Authorization") = some value →
    AnswersIn as username password h.method h.url value
  /-- What was written answers a challenge. -/
  wire : ∀ w ∈ s.wire, ∀ value, w.headers.find (ascii "Authorization") = some value →
    ∃ h, s.heads[w.call]? = some h ∧ AnswersIn as username password h.method h.url value

variable {username password : Bytes} {as : List Act}

theorem solicited_newRemote (username password : Bytes) :
    Solicited username password [] (newRemote username password) where
  credentials := ⟨rfl, rfl⟩
  digest h := by
    have hrealm : (newRemote username password).digest.realm = [] := by
      unfold newRemote
      dsimp only
      split_ifs <;> rfl
    exact absurd hrealm h
  reading _ _ _ _ _ h := by cases h
  heads h hh := by simp [newRemote, Remote.heads] at hh
  wire w hw := by simp [newRemote] at hw

theorem find_makes {h : Head} (hm : h ∈ a.makes) : h.headers.find (ascii "Authorization") = none := by
  have hnew (kind : RequestKind) (url : Bytes) :
      (newRequest kind url).head.headers.find (ascii "Authorization") = none := by
    cases kind <;> simp [newRequest, Request.head, Headers.find] <;> decide
  cases a with
  | call kind url =>
    cases hm
    exact hnew kind url
  | teardown session url o =>
    cases hm
    exact hnew (.teardown session) url
  | _ => cases hm

/-- The requests, with the one that a step makes. -/
theorem Solicited.heads_makes (h : Solicited username password as s) {e : Head} (he : e ∈ s.heads ++ a.makes.toList)
    {value : Bytes} (hv : e.headers.find (ascii "Authorization") = some value) :
    AnswersIn as username password e.method e.url value := by
  rcases List.mem_append.mp he with hold | hnew
  · exact h.heads e hold value hv
  · rw [find_makes (Option.mem_toList.mp hnew)] at hv
    cases hv

/-- A request that is written: its new value, or the one that it had. -/
theorem Solicited.prepared (h : Solicited username password as s) {request : Request} {i cseq : ℕ}
    {cnonce value : Bytes} (hi : (s.heads ++ a.makes.toList)[i]? = some request.head)
    (hv : (request.prepare cseq (s.digest.createAuthenticatorStr request.method request.url cnonce).2).find
      (ascii "Authorization") = some value) :
    AnswersIn as username password request.method request.url value := by
  rw [prepare_find, Option.or_eq_some_iff] at hv
  rcases hv with hnew | ⟨-, hold⟩
  · obtain ⟨hrealm, hc⟩ := answers_of_createAuthenticatorStr hnew
    obtain ⟨hu, hp⟩ := credentials_of_newRemote hc h.credentials.1 h.credentials.2
    exact ⟨s.digest, cnonce, h.digest hrealm, hrealm, hu, hp, hnew⟩
  · exact h.heads_makes (List.mem_of_getElem? hi) hold

/-- **One step.** -/
theorem Solicited.step (h : Solicited username password as s) (hs : s.step a = some t) :
    Solicited username password (as ++ [a]) t := by
  have hreading := reading_of_step h.reading hs
  cases change_of_step hs with
  | plain hd hh hw =>
    refine ⟨?_, fun hrealm => ?_, hreading, fun e he value hv => ?_, fun w hmem value hv => ?_⟩
    · rcases hd with hd | hd <;> rw [hd] <;> exact h.credentials
    · rcases hd with hd | hd <;> rw [hd] at hrealm ⊢
      · exact (h.digest hrealm).mono _
      · obtain ⟨recv, c, hrecv, hc, hset⟩ := h.digest hrealm
        exact ⟨recv, c, List.mem_append_left _ hrecv, hc, hset.clearNonce⟩
    · exact (h.heads_makes (hh ▸ he) hv).mono _
    · obtain ⟨e, he, hans⟩ := h.wire w (hw ▸ hmem) value hv
      exact ⟨e, by rw [hh]; exact getElem?_append_of_some he, hans.mono _⟩
  | auth o ha recv response el call paramsStr hr hd hh hw =>
    obtain ⟨hrecv, hparse, hauth⟩ := h.reading recv response el call _ hr
    obtain ⟨hcode, rfl⟩ := hauth paramsStr rfl
    refine ⟨?_, fun hrealm => ?_, hreading, fun e he value hv => ?_, fun w hmem value hv => ?_⟩
    · obtain ⟨hu, hp⟩ := credentials_handleAuthenticationFailure s.digest
        (headerGet response.headers (ascii "WWW-Authenticate"))
      rw [hd]
      exact ⟨hu.trans h.credentials.1, hp.trans h.credentials.2⟩
    · rw [hd] at hrealm ⊢
      rcases handleAuthenticationFailure_cases s.digest (headerGet response.headers (ascii "WWW-Authenticate")) with
        hsame | hset
      · rw [hsame] at hrealm ⊢
        exact (h.digest hrealm).mono _
      · exact ⟨recv, _, List.mem_append_left _ hrecv, ⟨response, hparse, hcode, rfl⟩, hset⟩
    · exact (h.heads e (hh ▸ he) value hv).mono _
    · obtain ⟨e, he, hans⟩ := h.wire w (hw ▸ hmem) value hv
      exact ⟨e, by rw [hh]; exact he, hans.mono _⟩
  | write i request o conn cseq auth hi hsends ho hauth hd hh hw =>
    subst hauth
    obtain ⟨nc, hnc⟩ := createAuthenticatorStr_digest s.digest request.method request.url o.cnonce
    set auth := s.digest.createAuthenticatorStr request.method request.url o.cnonce with hauth
    have hlt : i < (s.heads ++ a.makes.toList).length := (List.getElem?_eq_some_iff.mp hi).1
    have hnow : t.heads[i]? = some ⟨request.method, request.url, request.prepare cseq auth.2⟩ := by
      rw [hh, List.getElem?_set_self hlt]
    have hkeep {j : ℕ} {e : Head} (he : s.heads[j]? = some e) :
        ∃ e', t.heads[j]? = some e' ∧ e'.method = e.method ∧ e'.url = e.url := by
      have he' : (s.heads ++ a.makes.toList)[j]? = some e := getElem?_append_of_some he
      by_cases hij : i = j
      · subst hij
        obtain rfl : request.head = e := Option.some.inj (hi.symm.trans he')
        exact ⟨_, hnow, rfl, rfl⟩
      · exact ⟨e, by rw [hh, List.getElem?_set_ne hij]; exact he', rfl, rfl⟩
    refine ⟨?_, fun hrealm => ?_, hreading, fun e he value hv => ?_, fun w hmem value hv => ?_⟩
    · rw [hd, hnc]
      split_ifs <;> exact h.credentials
    · rw [hd, hnc] at hrealm ⊢
      have hset : SetIn as s.digest := h.digest (by split_ifs at hrealm <;> exact hrealm)
      obtain ⟨recv, c, hrecv, hc, hset⟩ := hset
      refine ⟨recv, c, List.mem_append_left _ hrecv, hc, ?_⟩
      split_ifs
      · exact hset.count nc
      · exact (hset.count nc).clearNonce
    · rw [hh] at he
      rcases List.mem_or_eq_of_mem_set he with hold | rfl
      · exact (h.heads_makes hold hv).mono _
      · exact (h.prepared hi hv).mono _
    · rw [hw] at hmem
      rcases List.mem_append.mp hmem with hold | hnew
      · obtain ⟨e, he, hans⟩ := h.wire w hold value hv
        obtain ⟨e', he', hmethod, hurl⟩ := hkeep he
        exact ⟨e', he', by rw [hmethod, hurl]; exact hans.mono _⟩
      · obtain rfl := List.mem_singleton.mp hnew
        exact ⟨_, hnow, (h.prepared hi hv).mono _⟩

theorem solicited_of_run (username password : Bytes) (as : List Act) {s : Remote}
    (h : exec Remote.step (newRemote username password) as = some s) : Solicited username password as s := by
  induction as using List.reverseRecOn generalizing s with
  | nil =>
    cases h
    exact solicited_newRemote username password
  | append_singleton as a ih =>
    obtain ⟨s', hs', h⟩ := exec_append.mp h
    obtain ⟨t, hstep, h⟩ := exec_cons_eq_some.mp h
    cases h
    exact (ih hs').step hstep

/-- **Credentials are sent only to a camera that has asked for them.** In every run of a remote, its callers, its
reader and its camera, a request that has been written with an `Authorization` has one that was made for its
own method and URL, with the user name and the password of the stream, for a 401 response that the reader
was given before: with the realm of the challenge, which is not empty, and, where it names a nonce, with the
nonce, the qop, the opaque text and the algorithm of this challenge. -/
theorem authorization_solicited (username password : Bytes) (as : List Act) (s : Remote)
    (h : exec Remote.step (newRemote username password) as = some s) {w : Written} (hw : w ∈ s.wire) {value : Bytes}
    (hv : w.headers.find (ascii "Authorization") = some value) :
    ∃ (head : Head) (recv : Bytes) (c : Challenge) (d : Digest) (cnonce : Bytes),
      s.heads[w.call]? = some head ∧ .recv recv ∈ as ∧ Challenges recv c ∧ c.realm ≠ [] ∧ d.SetBy c ∧
      d.username = username ∧ d.password = password ∧
      (d.createAuthenticatorStr head.method head.url cnonce).2 = some value := by
  obtain ⟨head, hhead, d, cnonce, ⟨recv, c, hrecv, hc, hset⟩, hrealm, hu, hp, hvalue⟩ :=
    (solicited_of_run username password as h).wire w hw value hv
  exact ⟨head, recv, c, d, cnonce, hhead, hrecv, hc, hset.realm ▸ hrealm, hset, hu, hp, hvalue⟩

/-- A camera asks for Digest, and the request is sent again. -/
def askedForDigest : List Act := challenged "Digest realm=\"cam\", nonce=\"1a2b\""

theorem authorization_solicited_digest :
    ∃ s, exec Remote.step (newRemote (ascii "u") (ascii "p")) askedForDigest = some s ∧
      ∃ w ∈ s.wire, ∃ value, w.headers.find (ascii "Authorization") = some value ∧
        ∃ recv c, .recv recv ∈ askedForDigest ∧ Challenges recv c ∧ c.realm ≠ [] := by
  have hrun : (exec Remote.step (newRemote (ascii "u") (ascii "p")) askedForDigest).any (fun s =>
      s.wire.any fun w => (w.headers.find (ascii "Authorization")).isSome) = true := by decide +kernel
  obtain ⟨s, hs, hany⟩ := (Option.any_eq_true _ _).mp hrun
  obtain ⟨w, hw, hsome⟩ := List.any_eq_true.mp hany
  obtain ⟨value, hv⟩ := Option.isSome_iff_exists.mp hsome
  obtain ⟨-, recv, c, -, -, -, hrecv, hc, hrealm, -⟩ := authorization_solicited _ _ _ s hs hw hv
  exact ⟨s, hs, w, hw, value, hv, recv, c, hrecv, hc, hrealm⟩

end RtspProxy.Upstream
