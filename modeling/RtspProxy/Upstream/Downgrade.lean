import RtspProxy.Upstream.Remote

/-!
# Passwords in clear

A camera that asks for Digest should never be sent the password in clear. But a timeout,
a disconnect and a failed write clear the nonce and keep the realm, and a remote with a
realm and no nonce answers with `Basic` (`basic_after_digest`).

## What is proved

* `NoDowngrade` — a request written with `Authorization: Basic` was written after a 401
  response that offered no Digest.
* `Guarded` — the steps that keep this: the nonce is not cleared while the last 401
  response offered Digest, and a 401 response that offers Digest is either taken up in full
  (its last `WWW-Authenticate` line offers Digest, with a nonce and a realm) or comes when
  Basic is not in use.
* `noDowngrade_of_guarded` — every run of guarded steps keeps `NoDowngrade`, whatever the
  camera answers and however the callers' steps interleave.
-/

namespace RtspProxy.Upstream

open Theory Wire

/-! ### What a 401 response offers, and what a request carries -/

/-- The header lines of a message, as long as they can be read. -/
def headerFields : ℕ → Bytes → List (Bytes × Bytes)
  | 0, _ => []
  | k + 1, next =>
    let (next, thisLine) := sharedLineSplit next
    if thisLine = [] then []
    else match sharedParseHeader thisLine with
      | .error _ => []
      | .ok field => field :: headerFields k next

/-- Some `WWW-Authenticate` line of the message offers Digest. -/
def offersDigest (recv : Bytes) : Bool :=
  let next := (sharedLineSplit recv).1
  (headerFields next.length next).any fun field =>
    toLower field.1 == toLower (ascii "WWW-Authenticate") && (search matchDigest field.2).isSome

/-- The headers have `Authorization: Basic`. -/
def carriesBasic (headers : Headers) : Bool :=
  match headers.find (ascii "Authorization") with
  | some value => isBasic value
  | none => false

/-- **No downgrade**: every request written with the password in clear was written when the
last 401 response acted on offered no Digest. -/
def NoDowngrade (s : Remote) : Prop :=
  ∀ w ∈ s.wire, carriesBasic w.headers = true → ∃ recv, w.challenge = some recv ∧ offersDigest recv = false

/-! ### The steps that are safe -/

/-- Clearing the nonce does not bring Basic into use against a camera that offered Digest. -/
def Remote.MayClear (s : Remote) : Prop := s.last401.any offersDigest = true → s.digest.answers = false

/-- The request is written, and the write fails. -/
def Remote.failsWrite (s : Remote) (o : SendInput) : Bool :=
  (s.connected || !(s.serverDone || !o.dialOk)) && !o.writeOk

/-- A 401 response whose challenge is not looked at comes when Basic is not in use. -/
def Remote.MayIgnore (s : Remote) (recv : Bytes) (response : Response) (attempts : ℕ) : Prop :=
  response.code = 401 → offersDigest recv = true → s.digest.usesBasic = true →
    attempts = 0 ∧ headerGet response.headers (ascii "WWW-Authenticate") ≠ []

/-- The challenge taken from a response that offers Digest is a Digest challenge with a nonce,
and no Digest challenge takes the realm away. -/
def Remote.MayAccept (s : Remote) (recv paramsStr : Bytes) : Prop :=
  let c := parseWWWAuthenticate paramsStr
  (offersDigest recv = true → c.isDigest = true ∧ (c.nonce ≠ [] ∨ c.realm = [])) ∧
  (c.isDigest = true → c.realm ≠ [] ∨ s.digest.realm = [])

/-- The steps of the reader that are safe. -/
def Remote.SafeReader (s : Remote) (o : SendInput) : ReaderPc → Prop
  | .handling recv response _ call .judge =>
    ∀ c ∈ s.calls[call]?, s.MayIgnore recv response c.request.attempts
  | .handling recv _ _ _ (.auth paramsStr) => s.MayAccept recv paramsStr
  | .handling _ _ _ _ .resend => s.failsWrite o = true → s.MayClear
  | .handling _ _ _ _ .bump | .handling _ _ _ _ (.finalize _) | .handling _ _ _ _ (.notify _) | .idle => True

/-- A caller's write fails. -/
def CallInput.failsWrite (s : Remote) : CallInput → Bool
  | .sent o => s.failsWrite o
  | _ => false

/-- The steps of a call that are safe. -/
def Call.Safe (c : Call) (s : Remote) (o : CallInput) : Prop :=
  (c.pc = .send → o.failsWrite s = true → s.MayClear) ∧ (c.pc = .expire → c.attempt = 0 → s.MayClear)

/-- The steps that are safe. -/
def Guarded (s : Remote) : Act → Prop
  | .disconnect => s.connected = true → s.MayClear
  | .teardown _ _ o => s.failsWrite o = true → s.MayClear
  | .caller i o => ∀ c ∈ s.calls[i]?, c.Safe s o
  | .reader o => s.SafeReader o s.reader
  | _ => True

instance (s : Remote) : Decidable s.MayClear := inferInstanceAs (Decidable (_ → _))

instance (s : Remote) (recv : Bytes) (response : Response) (attempts : ℕ) :
    Decidable (s.MayIgnore recv response attempts) := inferInstanceAs (Decidable (_ → _ → _ → _ ∧ _))

instance (s : Remote) (recv paramsStr : Bytes) : Decidable (s.MayAccept recv paramsStr) :=
  inferInstanceAs (Decidable ((_ → _ ∧ (_ ∨ _)) ∧ (_ → _ ∨ _)))

instance (s : Remote) (o : SendInput) : DecidablePred (s.SafeReader o) := fun pc =>
  match pc with
  | .handling recv response _ call .judge =>
    inferInstanceAs (Decidable (∀ c ∈ s.calls[call]?, s.MayIgnore recv response c.request.attempts))
  | .handling recv _ _ _ (.auth paramsStr) => inferInstanceAs (Decidable (s.MayAccept recv paramsStr))
  | .handling _ _ _ _ .resend => inferInstanceAs (Decidable (_ → s.MayClear))
  | .handling _ _ _ _ .bump | .handling _ _ _ _ (.finalize _) | .handling _ _ _ _ (.notify _) | .idle =>
    isTrue trivial

instance (c : Call) (s : Remote) (o : CallInput) : Decidable (c.Safe s o) :=
  inferInstanceAs (Decidable ((_ → _ → s.MayClear) ∧ (_ → _ → s.MayClear)))

instance (s : Remote) : DecidablePred (Guarded s) := fun a =>
  match a with
  | .disconnect => inferInstanceAs (Decidable (_ → s.MayClear))
  | .teardown _ _ _ => inferInstanceAs (Decidable (_ → s.MayClear))
  | .caller i o => inferInstanceAs (Decidable (∀ c ∈ s.calls[i]?, c.Safe s o))
  | .reader o => inferInstanceAs (Decidable (s.SafeReader o s.reader))
  | .dial _ | .attach | .cancel | .shutdown | .call _ _ | .recv _ => isTrue trivial

/-! ### The invariant -/

/-- What guarded steps keep. -/
structure Clear (s : Remote) : Prop where
  /-- Basic is in use only after a response that offered no Digest. -/
  basic : s.digest.usesBasic = true → ∃ recv, s.last401 = some recv ∧ offersDigest recv = false
  /-- A realm comes from a 401 response. -/
  realm : s.digest.realm ≠ [] → s.last401.isSome = true
  /-- A request with the password in clear gets a new header when it is sent again. -/
  requests : ∀ (i : ℕ) (c : Call), s.calls[i]? = some c → carriesBasic c.request.headers = true → s.digest.answers = true
  /-- No downgrade so far. -/
  wire : NoDowngrade s

theorem newRequest_not_basic (kind : RequestKind) (url : Bytes) :
    carriesBasic (newRequest kind url).headers = false := by
  cases kind <;> rfl

theorem clear_newRemote (username password : Bytes) : Clear (newRemote username password) := by
  have hrealm : (newRemote username password).digest.realm = [] := by
    unfold newRemote
    dsimp only
    split_ifs <;> rfl
  refine ⟨fun h => ?_, fun h => absurd hrealm h, fun i c h => ?_, fun w hw => ?_⟩
  · simp [Digest.usesBasic, Digest.answers, hrealm] at h
  · simp [newRemote] at h
  · simp [newRemote] at hw

variable {s t : Remote}

/-- A step that leaves the digest, the last 401 response and the wire as they are. -/
theorem Clear.frame (h : Clear s) (hd : t.digest = s.digest) (hl : t.last401 = s.last401)
    (hw : t.wire = s.wire)
    (hc : ∀ (i : ℕ) (c : Call), t.calls[i]? = some c → carriesBasic c.request.headers = true →
      ∃ (j : ℕ) (c' : Call), s.calls[j]? = some c' ∧ carriesBasic c'.request.headers = true) : Clear t := by
  refine ⟨?_, ?_, ?_, ?_⟩
  · rw [hd, hl]
    exact h.basic
  · rw [hd, hl]
    exact h.realm
  · intro i c hi hb
    obtain ⟨j, c', hj, hb'⟩ := hc i c hi hb
    rw [hd]
    exact h.requests j c' hj hb'
  · unfold NoDowngrade
    rw [hw]
    exact h.wire

/-- A change of a call that keeps the headers of its request. -/
theorem Clear.modifyCall (h : Clear s) (i : ℕ) (f : Call → Call)
    (hf : ∀ c, (f c).request.headers = c.request.headers) : Clear { s with calls := s.calls.modify i f } := by
  refine h.frame rfl rfl rfl fun j c hj hb => ?_
  obtain ⟨c', hc', ⟨-, he⟩ | ⟨-, he⟩⟩ := of_getElem?_modify hj
  · exact ⟨j, c', hc', by rw [← hf c', ← he]; exact hb⟩
  · exact ⟨j, c', hc', he ▸ hb⟩

theorem Clear.callAt (h : Clear s) (i : ℕ) (pc : CallPc) : Clear (s.callAt i pc) :=
  h.modifyCall i (fun c => { c with pc := pc }) fun _ => rfl

theorem Clear.newCall (h : Clear s) (c : Call) (hc : carriesBasic c.request.headers = false) :
    Clear { s with calls := s.calls ++ [c] } := by
  refine h.frame rfl rfl rfl fun j c' hj hb => ?_
  rcases List.mem_append.mp (List.mem_of_getElem? hj) with hm | hm
  · obtain ⟨k, hk⟩ := List.mem_iff_getElem?.mp hm
    exact ⟨k, c', hk, hb⟩
  · cases List.mem_singleton.mp hm
    rw [hc] at hb
    cases hb

theorem Clear.queue (h : Clear s) (requests : List (ℕ × ℕ)) (n : ℕ) :
    Clear { s with requests := requests, nextEl := n } :=
  h.frame rfl rfl rfl fun i c hi hb => ⟨i, c, hi, hb⟩

theorem Clear.setChans (h : Clear s) (chans : List Chan) : Clear { s with chans := chans } :=
  h.frame rfl rfl rfl fun i c hi hb => ⟨i, c, hi, hb⟩

theorem Clear.setReader (h : Clear s) (pc : ReaderPc) : Clear { s with reader := pc } :=
  h.frame rfl rfl rfl fun i c hi hb => ⟨i, c, hi, hb⟩

theorem Clear.subscribe (h : Clear s) (i : ℕ) : Clear (s.subscribe i) :=
  (h.setChans (s.chans ++ [Chan.mk none false])).modifyCall i
    (fun c => { c with request := { c.request with sub := some s.chans.length } }) fun _ => rfl

theorem Clear.retry (h : Clear s) (i : ℕ) : Clear (s.retry i) :=
  h.modifyCall i (fun c => { request := { c.request with attempts := 0 }, attempt := 1, pc := .subscribe })
    fun _ => rfl

theorem Clear.closeChan (h : Clear s) (ch : Option ℕ) : Clear (s.closeChan ch) := by
  cases ch with
  | none => exact h
  | some ch => exact h.setChans _

theorem Clear.report (h : Clear s) (ch : Option ℕ) (status : Status) : Clear (s.report ch status) := by
  cases ch with
  | none => exact h
  | some ch => exact h.setChans _

theorem Clear.clearNonce (h : Clear s) (hm : s.MayClear) : Clear { s with digest := s.digest.clearNonce } := by
  refine ⟨fun hb => ?_, h.realm, h.requests, h.wire⟩
  have ha : s.digest.answers = true := by
    rw [← clearNonce_answers]
    exact Digest.answers_of_usesBasic hb
  -- the realm comes from a 401 response, which did not offer Digest
  have hr : s.digest.realm ≠ [] := by
    intro he
    simp [Digest.answers, he] at ha
  obtain ⟨recv, hrecv⟩ := Option.isSome_iff_exists.mp (h.realm hr)
  refine ⟨recv, hrecv, ?_⟩
  by_contra hoff
  have := hm (by simpa [hrecv] using hoff)
  rw [ha] at this
  cases this

theorem Clear.disconnect (h : Clear s) (hm : s.connected = true → s.MayClear) : Clear s.disconnect := by
  unfold Remote.disconnect
  split_ifs with hc
  · exact (h.clearNonce (hm hc)).frame rfl rfl rfl fun i c hi hb => ⟨i, c, hi, hb⟩
  · exact h

/-- The headers of a request that is written have the password in clear only if Basic is in
use, or if they are not changed and had it before. -/
theorem carriesBasic_prepare {d : Digest} {r : Request} {cseq : ℕ} {cnonce : Bytes}
    (hb : carriesBasic (r.prepare cseq (d.createAuthenticatorStr r.method r.url cnonce).2) = true) :
    d.usesBasic = true ∨ d.answers = false ∧ carriesBasic r.headers = true := by
  have hv := createAuthenticatorStr_value d r.method r.url cnonce
  have hne : ascii "Authorization" ≠ ascii "CSeq" := by decide
  cases ha : (d.createAuthenticatorStr r.method r.url cnonce).2 with
  | some value =>
    rw [ha] at hv hb
    simp only [Request.prepare, carriesBasic, Headers.find_set, if_true] at hb
    exact .inl (hv hb)
  | none =>
    rw [ha] at hv hb
    simp only [Request.prepare, carriesBasic, Headers.find_set, if_neg hne] at hb
    exact .inr ⟨hv, hb⟩

/-- **A write** is safe: its headers come from the digest in use. -/
theorem Clear.wrote (h : Clear s) {i : ℕ} {request : Request} (o : SendInput)
    (hr : carriesBasic request.headers = true → s.digest.answers = true) :
    Clear (s.wrote i request o) := by
  obtain ⟨nc, hnc⟩ := createAuthenticatorStr_digest s.digest request.method request.url o.cnonce
  have hdig : (s.wrote i request o).digest = { s.digest with nc := nc } := hnc
  have hbasic : ∀ cseq, carriesBasic (request.prepare cseq
      (s.digest.createAuthenticatorStr request.method request.url o.cnonce).2) = true →
      s.digest.usesBasic = true := by
    intro cseq hb
    rcases carriesBasic_prepare hb with hu | ⟨hn, hc⟩
    · exact hu
    · rw [hr hc] at hn
      cases hn
  refine ⟨fun hb => ?_, fun hn => ?_, fun j c hj hb => ?_, fun w hw hb => ?_⟩
  · rw [hdig] at hb
    exact h.basic hb
  · rw [hdig] at hn
    exact h.realm hn
  · rw [hdig]
    obtain ⟨c', hc', ⟨-, rfl⟩ | ⟨-, rfl⟩⟩ := of_getElem?_modify hj
    · exact Digest.answers_of_usesBasic (hbasic _ hb)
    · exact h.requests j c hc' hb
  · rcases List.mem_append.mp hw with hw | hw
    · exact h.wire w hw hb
    · cases List.mem_singleton.mp hw
      exact h.basic (hbasic _ hb)

/-- **`SendRequest`** is safe unless a failed write brings Basic into use. -/
theorem Clear.sendRequest (h : Clear s) {i : ℕ} {request : Request} {o : SendInput}
    (hr : carriesBasic request.headers = true → s.digest.answers = true)
    (hm : s.failsWrite o = true → s.MayClear) : Clear (s.sendRequest i request o).1 := by
  rcases sendRequest_cases s i request o with ⟨-, he⟩ | ⟨s₁, hs₁, hout⟩
  · rw [he]
    exact h
  · have h₁ : Clear s₁ ∧ s₁.digest = s.digest ∧ s₁.last401 = s.last401 := by
      rcases hs₁ with ⟨-, rfl⟩ | ⟨-, -, rfl⟩
      · exact ⟨h, rfl, rfl⟩
      · exact ⟨h.frame rfl rfl rfl fun i c hi hb => ⟨i, c, hi, hb⟩, rfl, rfl⟩
    obtain ⟨hcl, hd, hl⟩ := h₁
    have hw : Clear (s₁.wrote i request o) := hcl.wrote o (by rw [hd]; exact hr)
    rcases hout with ⟨-, he⟩ | ⟨hf, he⟩
    · rw [he]
      exact hw
    · rw [he]
      refine hw.disconnect fun _ hoff => ?_
      have hfail : s.failsWrite o = true := by
        rcases hs₁ with ⟨hc, -⟩ | ⟨-, hdial, -⟩
        · simp [Remote.failsWrite, hc, hf]
        · simp only [Remote.failsWrite, hdial, hf, Bool.not_false, Bool.or_true, Bool.and_self]
      obtain ⟨nc, hnc⟩ := createAuthenticatorStr_digest s₁.digest request.method request.url o.cnonce
      have hdig : (s₁.wrote i request o).digest = { s₁.digest with nc := nc } := hnc
      rw [hdig, hd]
      exact hm hfail (by rw [← hl]; exact hoff)

/-! ### The steps -/

/-- **A safe step of a call.** -/
theorem Clear.stepCall (h : Clear s) {i : ℕ} {o : CallInput} (hsafe : ∀ c ∈ s.calls[i]?, c.Safe s o)
    (hs : s.stepCall i o = some t) : Clear t := by
  obtain ⟨c, hget, hstep⟩ := stepCall_cases hs
  have hsafe := hsafe c hget
  cases hstep with
  | subscribe hpc => exact (h.subscribe i).callAt i _
  | enqueue hpc => exact (h.queue (s.requests ++ [(s.nextEl, i)]) (s.nextEl + 1)).callAt i _
  | send o hpc =>
    exact (h.sendRequest (h.requests i c hget) (hsafe.1 hpc)).callAt i _
  | unqueue hpc => exact (h.queue (s.unqueue i).requests s.nextEl).callAt i _
  | value status hpc hv => exact (h.closeChan _).callAt i _
  | timeout hpc => exact (h.closeChan _).callAt i _
  | done hpc hc => exact (h.closeChan _).callAt i _
  | expire hpc =>
    unfold Remote.expire
    split_ifs with ha
    · exact ((h.clearNonce (hsafe.2 hpc ha)).queue (s.unqueue i).requests s.nextEl).callAt i _
    · exact (h.queue (s.unqueue i).requests s.nextEl).callAt i _
  | reset hpc => exact h.retry i

theorem Clear.auth (h : Clear s) {recv paramsStr : Bytes} (hm : s.MayAccept recv paramsStr) :
    Clear { s with digest := (s.digest.handleAuthenticationFailure paramsStr).1, last401 := some recv } := by
  have hsame : ∀ {d : Digest}, (d.usesBasic = true → offersDigest recv = false) →
      (s.digest.answers = true → d.answers = true) → Clear { s with digest := d, last401 := some recv } :=
    fun hb ha => ⟨fun hu => ⟨recv, rfl, hb hu⟩, fun _ => rfl, fun i c hi hc => ha (h.requests i c hi hc),
      h.wire⟩
  obtain ⟨hoffer, hrealm⟩ := hm
  unfold Digest.handleAuthenticationFailure
  dsimp only
  split_ifs with h₁ h₂ h₃
  · -- nothing to parse, or nobody to answer
    refine hsame (fun hu => ?_) id
    rcases h₁ with rfl | hc
    · by_contra ho
      exact absurd (hoffer (by simpa using ho)).1 (by simp [parseWWWAuthenticate])
    · simp [Digest.usesBasic, Digest.answers, hc] at hu
  · -- a Digest challenge
    refine hsame (fun hu => ?_) fun ha => ?_
    · by_contra ho
      rcases (hoffer (by simpa using ho)).2 with hn | hr
      · simp [Digest.usesBasic, hn] at hu
      · simp [Digest.usesBasic, Digest.answers, hr] at hu
    · simp only [Digest.answers, Bool.and_eq_true, bne_iff_ne] at ha ⊢
      exact ⟨(hrealm h₂).resolve_right ha.1, ha.2⟩
  · -- a Basic challenge
    refine hsame (fun _ => ?_) fun ha => ?_
    · by_contra ho
      exact h₂ (hoffer (by simpa using ho)).1
    · simp only [Digest.answers, Bool.and_eq_true, bne_iff_ne] at ha ⊢
      exact ⟨h₃, ha.2⟩
  · refine hsame (fun _ => ?_) id
    by_contra ho
    exact h₂ (hoffer (by simpa using ho)).1

/-- A 401 response whose challenge may be ignored. -/
theorem Clear.ignore (h : Clear s) {recv : Bytes} (hm : s.digest.usesBasic = true → offersDigest recv = false) :
    Clear { s with last401 := some recv } :=
  ⟨fun hu => ⟨recv, rfl, hm hu⟩, fun _ => rfl, h.requests, h.wire⟩

/-- A look at the code of a response that goes no further. -/
theorem Clear.judge (h : Clear s) {recv : Bytes} {response : Response} {attempts : ℕ} (el call : ℕ)
    (hm : response.code = 401 → s.digest.usesBasic = true → offersDigest recv = false) :
    Clear (s.judge recv response el call attempts) := by
  have h' : Clear (s.noted recv response) := by
    unfold Remote.noted
    split_ifs with hc
    · exact h.ignore (hm hc)
    · exact h
  exact h'.setReader _

/-- **A safe step of the reader.** -/
theorem Clear.stepReader (h : Clear s) {o : SendInput} (hsafe : s.SafeReader o s.reader)
    (hs : s.stepReader o = some t) : Clear t := by
  obtain ⟨recv, response, el, call, stage, c, hr, hget, hstep⟩ := stepReader_cases hs
  rw [hr] at hsafe
  cases hstep with
  | challenge h₁ h₂ h₃ h₄ => exact h.setReader _
  | judge hn =>
    refine h.judge el call fun hc hu => ?_
    by_contra ho
    obtain ⟨ha, hw⟩ := hsafe c hget hc (by simpa using ho) hu
    have hcred : s.digest.hasCredentials = true := by
      have := Digest.answers_of_usesBasic hu
      simp only [Digest.answers, Bool.and_eq_true] at this
      exact this.2
    exact hn ⟨hc, ha, hw, hcred⟩
  | auth paramsStr => exact (h.auth hsafe).setReader _
  | bump =>
    have h' := h.modifyCall call
      (fun c => { c with request := { c.request with attempts := c.request.attempts + 1 } }) fun _ => rfl
    exact h'.setReader _
  | resend => exact (h.sendRequest (h.requests call c hget) hsafe).setReader _
  | finalize status hany =>
    exact (h.queue (s.requests.eraseP fun e => e.1 == el) s.nextEl).setReader _
  | gone status hany => exact h.setReader _
  | notify status => exact (h.report _ _).setReader _

/-- **One guarded step.** -/
theorem Clear.step (h : Clear s) {a : Act} (hg : Guarded s a) (hs : s.step a = some t) : Clear t := by
  cases a with
  | caller i o => exact h.stepCall hg hs
  | reader o => exact h.stepReader hg hs
  | disconnect =>
    cases hs
    exact h.disconnect hg
  | teardown session url o =>
    cases hs
    have h' : Clear { s with calls := s.calls ++ [⟨newRequest (.teardown session) url, 0, .returned .ok⟩] } :=
      h.newCall _ (newRequest_not_basic _ _)
    exact h'.sendRequest (fun hb => by rw [newRequest_not_basic] at hb; cases hb) hg
  | call kind url =>
    cases hs
    exact h.newCall _ (newRequest_not_basic kind url)
  | dial ok =>
    cases hs
    unfold Remote.dialLocked
    split_ifs
    · exact h
    · exact h.frame rfl rfl rfl fun i c hi hb => ⟨i, c, hi, hb⟩
  | attach =>
    simp only [Remote.step] at hs
    split_ifs at hs
    cases hs
    exact h.frame rfl rfl rfl fun i c hi hb => ⟨i, c, hi, hb⟩
  | recv recv =>
    simp only [Remote.step] at hs
    split_ifs at hs
    cases hs
    unfold Remote.receive
    split
    · exact h.frame rfl rfl rfl fun i c hi hb => ⟨i, c, hi, hb⟩
    · exact h.frame rfl rfl rfl fun i c hi hb => ⟨i, c, hi, hb⟩
  | cancel =>
    cases hs
    exact h.frame rfl rfl rfl fun i c hi hb => ⟨i, c, hi, hb⟩
  | shutdown =>
    cases hs
    exact h.frame rfl rfl rfl fun i c hi hb => ⟨i, c, hi, hb⟩

/-- **No downgrade in a guarded run.** Whatever the requests, the 401 responses, the timeouts,
the write errors, the disconnects and the order of the goroutines' steps: if every step is
guarded, a request carries `Authorization: Basic` only if the last 401 response acted on
before it was written offered no Digest. -/
theorem noDowngrade_of_guarded (username password : Bytes) (as : List Act) (t : Remote)
    (hg : AllSteps Remote.step Guarded (newRemote username password) as)
    (h : exec Remote.step (newRemote username password) as = some t) : NoDowngrade t :=
  (exec_invariant (fun _ _ _ hc hg hs => Clear.step hc hg hs) as _ t
    (clear_newRemote username password) hg h).wire

/-! ### Two runs -/

/-- An OPTIONS request is sent, challenged with `value`, and sent again with an
`Authorization`. -/
def challenged (value : String) : List Act :=
  [.dial true, .attach, .call .options (ascii "rtsp://cam/"), .caller 0 .next, .caller 0 .next,
    .caller 0 (.sent fine),
    .recv (ascii ("RTSP/1.0 401 Unauthorized\r\nCSeq: 1\r\nWWW-Authenticate: " ++ value ++ "\r\n\r\n")),
    .reader fine, .reader fine, .reader fine, .reader fine]

/-- A camera that asks for Basic gets it, also after a timeout. -/
theorem noDowngrade_of_guarded_basic :
    AllSteps Remote.step Guarded (newRemote (ascii "u") (ascii "p"))
      (challenged "Basic realm=\"cam\"" ++ [.caller 0 .timeout, .caller 0 .next]) ∧
    ∃ t, exec Remote.step (newRemote (ascii "u") (ascii "p"))
      (challenged "Basic realm=\"cam\"" ++ [.caller 0 .timeout, .caller 0 .next]) = some t ∧
      NoDowngrade t := by
  have hg : AllSteps Remote.step Guarded (newRemote (ascii "u") (ascii "p"))
      (challenged "Basic realm=\"cam\"" ++ [.caller 0 .timeout, .caller 0 .next]) := by decide +kernel
  have hs : (exec Remote.step (newRemote (ascii "u") (ascii "p"))
      (challenged "Basic realm=\"cam\"" ++ [.caller 0 .timeout, .caller 0 .next])).isSome = true := by
    decide +kernel
  obtain ⟨t, ht⟩ := Option.isSome_iff_exists.mp hs
  exact ⟨hg, t, ht, noDowngrade_of_guarded _ _ _ t hg ht⟩

/-- **Basic after Digest**: the camera asks for Digest and gets it. The answer does not come in
time, so the nonce is cleared and the request is sent once more, now with the password in
clear. -/
theorem basic_after_digest :
    ∃ t, exec Remote.step (newRemote (ascii "u") (ascii "p"))
      (challenged "Digest realm=\"cam\", nonce=\"1a2b\"" ++
        [.caller 0 .timeout, .caller 0 .next, .caller 0 .next, .caller 0 .next, .caller 0 .next,
          .caller 0 (.sent fine)]) = some t ∧ ¬ NoDowngrade t := by
  have hs : (exec Remote.step (newRemote (ascii "u") (ascii "p"))
      (challenged "Digest realm=\"cam\", nonce=\"1a2b\"" ++
        [.caller 0 .timeout, .caller 0 .next, .caller 0 .next, .caller 0 .next, .caller 0 .next,
          .caller 0 (.sent fine)])).any (fun t => t.wire.any fun w =>
            carriesBasic w.headers && w.challenge.any offersDigest) = true := by
    decide +kernel
  obtain ⟨t, ht, hw⟩ := (Option.any_eq_true _ _).mp hs
  refine ⟨t, ht, fun hno => ?_⟩
  obtain ⟨w, hw, hb⟩ := List.any_eq_true.mp hw
  obtain ⟨hbasic, hoff⟩ := Bool.and_eq_true_iff.mp hb
  obtain ⟨recv, hrecv, hno⟩ := hno w hw hbasic
  rw [hrecv, Option.any_some, hno] at hoff
  cases hoff

end RtspProxy.Upstream
