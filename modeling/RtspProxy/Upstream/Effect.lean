import RtspProxy.Upstream.Remote

/-!
# What a step does to the requests and the digest

Of all the steps of a remote and the goroutines that use it, three kinds matter for what is
written to the camera: a request is made, a challenge goes into the digest, a request is written.

## What is proved

* `sendRequest_sent` — what `SendRequest` changes.
* `change_of_step` — each step is one of the three kinds, or leaves the requests and the wire as
  they are and clears at most the nonce.
* `reader_of_step` — other steps than the reader's give it at most a response to look at.
* `mem_requests_of_step` — only a call queues its request.
* `readerOk_step` — the reader handles the response it has read, and the challenge in it.
-/

namespace RtspProxy.Upstream

open Theory Wire

/-! ### Sending -/

/-- What `SendRequest` changes: nothing, if there is no connection; else the digest, the headers
of the request and the wire. -/
inductive Remote.Sent (s : Remote) (i : ℕ) (request : Request) (o : SendInput) (t : Remote) : Prop
  /-- No connection could be made. -/
  | unsent (h : t = s)
  /-- The request was written. -/
  | sent (conn cseq : ℕ) (auth : Digest × Option Bytes)
      (hauth : auth = s.digest.createAuthenticatorStr request.method request.url o.cnonce)
      (hd : t.digest = if o.writeOk then auth.1 else auth.1.clearNonce)
      (hc : t.calls = s.calls.modify i fun c =>
        { c with request := { c.request with headers := request.prepare cseq auth.2 } })
      (hw : t.wire = s.wire ++ [⟨i, conn, cseq, request.prepare cseq auth.2, o.writeOk, s.last401⟩])
      (hchans : t.chans = s.chans) (hreader : t.reader = s.reader)

theorem sendRequest_sent (s : Remote) (i : ℕ) (request : Request) (o : SendInput) :
    s.Sent i request o (s.sendRequest i request o).1 := by
  rcases sendRequest_cases s i request o with ⟨-, he⟩ | ⟨s₁, hs₁, hout⟩
  · rw [he]
    exact .unsent rfl
  · -- a new connection changes nothing of this
    have hsame : s₁.connected = true ∧ s₁.digest = s.digest ∧ s₁.calls = s.calls ∧ s₁.wire = s.wire ∧
        s₁.chans = s.chans ∧ s₁.reader = s.reader ∧ s₁.last401 = s.last401 := by
      rcases hs₁ with ⟨hc, rfl⟩ | ⟨-, -, rfl⟩
      · exact ⟨hc, rfl, rfl, rfl, rfl, rfl, rfl⟩
      · exact ⟨rfl, rfl, rfl, rfl, rfl, rfl, rfl⟩
    obtain ⟨hconn, hd, hc, hw, hchans, hreader, hlast⟩ := hsame
    rcases hout with ⟨hok, he⟩ | ⟨hok, he⟩
    · rw [he]
      refine .sent s₁.conn (s₁.currentCSeq + 1) _ rfl ?_ ?_ ?_ hchans hreader
      all_goals simp [Remote.wrote, Remote.setRequest, hok, hd, hc, hw, hlast]
    · rw [he]
      have hdisc : (s₁.wrote i request o).connected = true := hconn
      refine .sent s₁.conn (s₁.currentCSeq + 1) _ rfl ?_ ?_ ?_ ?_ ?_
      all_goals simp [Remote.disconnect, hdisc]
      all_goals simp [Remote.wrote, Remote.setRequest, hok, hd, hc, hw, hlast, hchans, hreader]

/-! ### Heads -/

/-- The part of a request that is written. -/
structure Head where
  method : Bytes
  /-- `GetURL().String()`. -/
  url : Bytes
  headers : Headers
  deriving DecidableEq, Repr

/-- The part of a request that is written. -/
def Request.head (r : Request) : Head := ⟨r.method, r.url, r.headers⟩

/-- What would be written of each call's request. -/
def Remote.heads (s : Remote) : List Head := s.calls.map fun c => c.request.head

/-- The request that an action makes. -/
def Act.makes : Act → Option Head
  | .call kind url => some (newRequest kind url).head
  | .teardown session url _ => some (newRequest (.teardown session) url).head
  | _ => none

/-- What a `SendRequest` of the action meets. -/
def Act.input : Act → Option SendInput
  | .teardown _ _ o | .caller _ (.sent o) | .reader o => some o
  | _ => none

/-- The call whose request an action sends, if it sends one. -/
def Remote.sends (s : Remote) : Act → Option ℕ
  | .teardown _ _ _ => some s.calls.length
  | .caller i (.sent _) => some i
  | .reader _ =>
    match s.reader with
    | .handling _ _ _ call .resend => some call
    | _ => none
  | _ => none

/-- An element of a list stays where it is when more follow. -/
theorem getElem?_append_of_some {α : Type} {l r : List α} {i : ℕ} {x : α} (h : l[i]? = some x) :
    (l ++ r)[i]? = some x := by
  rw [List.getElem?_append_left (List.getElem?_eq_some_iff.mp h).1, h]

/-- A change of a call that keeps its request. -/
theorem heads_modify {calls : List Call} {f : Call → Call} (hf : ∀ c, (f c).request.head = c.request.head) (i : ℕ) :
    (calls.modify i f).map (fun c => c.request.head) = calls.map fun c => c.request.head := by
  apply List.ext_getElem?
  intro j
  simp only [List.getElem?_map, List.getElem?_modify]
  split_ifs
  · cases calls[j]? <;> simp [hf]
  · simp

theorem heads_callAt (s : Remote) (i : ℕ) (pc : CallPc) : (s.callAt i pc).heads = s.heads :=
  heads_modify (f := fun c => { c with pc := pc }) (fun _ => rfl) i

theorem heads_subscribe (s : Remote) (i : ℕ) : (s.subscribe i).heads = s.heads :=
  heads_modify (f := fun c => { c with request := { c.request with sub := some s.chans.length } }) (fun _ => rfl) i

theorem heads_retry (s : Remote) (i : ℕ) : (s.retry i).heads = s.heads :=
  heads_modify (f := fun c => { request := { c.request with attempts := 0 }, attempt := 1, pc := .subscribe })
    (fun _ => rfl) i

/-- The headers of a call's request are changed. -/
theorem heads_setHeaders {calls : List Call} {i : ℕ} {c : Call} (hc : calls[i]? = some c) (headers : Headers) :
    (calls.modify i fun c => { c with request := { c.request with headers := headers } }).map (fun c => c.request.head) =
      (calls.map fun c => c.request.head).set i ⟨c.request.method, c.request.url, headers⟩ := by
  apply List.ext_getElem?
  intro j
  simp only [List.getElem?_map, List.getElem?_modify, List.getElem?_set, List.length_map]
  by_cases hij : i = j
  · subst hij
    obtain ⟨hlt, rfl⟩ := List.getElem?_eq_some_iff.mp hc
    simp [hlt, Request.head]
  · simp [hij]

/-- **What a step does** to the digest, the requests and the wire. -/
inductive Remote.Change (a : Act) (s t : Remote) : Prop
  /-- It writes nothing and takes up no challenge. -/
  | plain (hd : t.digest = s.digest ∨ t.digest = s.digest.clearNonce) (hh : t.heads = s.heads ++ a.makes.toList)
      (hw : t.wire = s.wire)
  /-- It takes up a challenge. -/
  | auth (o : SendInput) (ha : a = .reader o) (recv : Bytes) (response : Response) (el call : ℕ) (paramsStr : Bytes)
      (hr : s.reader = .handling recv response el call (.auth paramsStr))
      (hd : t.digest = (s.digest.handleAuthenticationFailure paramsStr).1) (hh : t.heads = s.heads) (hw : t.wire = s.wire)
  /-- It writes a request. -/
  | write (i : ℕ) (request : Request) (o : SendInput) (conn cseq : ℕ) (auth : Digest × Option Bytes)
      (hi : (s.heads ++ a.makes.toList)[i]? = some request.head) (hsends : s.sends a = some i) (ho : a.input = some o)
      (hauth : auth = s.digest.createAuthenticatorStr request.method request.url o.cnonce)
      (hd : t.digest = if o.writeOk then auth.1 else auth.1.clearNonce)
      (hh : t.heads = (s.heads ++ a.makes.toList).set i ⟨request.method, request.url, request.prepare cseq auth.2⟩)
      (hw : t.wire = s.wire ++ [⟨i, conn, cseq, request.prepare cseq auth.2, o.writeOk, s.last401⟩])

variable {s t : Remote} {a : Act}

/-- A step that calls `SendRequest`: `s₁` is the state before the call and `t` the one after. -/
theorem Remote.Sent.change {s₁ t' : Remote} {i : ℕ} {c : Call} {o : SendInput} (hs : s₁.Sent i c.request o t)
    (hi : s₁.calls[i]? = some c) (hsends : s.sends a = some i) (ho : a.input = some o) (hd : s₁.digest = s.digest) (hw : s₁.wire = s.wire)
    (hl : s₁.last401 = s.last401) (hh : s₁.heads = s.heads ++ a.makes.toList) (hd' : t'.digest = t.digest)
    (hw' : t'.wire = t.wire) (hh' : t'.heads = t.heads) : s.Change a t' := by
  cases hs with
  | unsent h =>
    subst h
    exact .plain (.inl (hd'.trans hd)) (hh'.trans hh) (hw'.trans hw)
  | sent conn cseq auth hauth hdig hcalls hwire =>
    refine .write i c.request o conn cseq auth ?_ hsends ho (hd ▸ hauth) (hd'.trans hdig) ?_ ?_
    · rw [← hh, Remote.heads, List.getElem?_map, hi]
      rfl
    · rw [hh', ← hh, Remote.heads, hcalls, heads_setHeaders hi]
      rfl
    · rw [hw', hwire, hw, hl]

theorem change_of_stepCall {i : ℕ} {o : CallInput} (h : s.stepCall i o = some t) : s.Change (.caller i o) t := by
  obtain ⟨c, hget, hstep⟩ := stepCall_cases h
  have hquiet {t : Remote} (hd : t.digest = s.digest ∨ t.digest = s.digest.clearNonce) (hw : t.wire = s.wire)
      (hh : t.heads = s.heads) : s.Change (.caller i o) t := .plain hd (by simpa [Act.makes] using hh) hw
  cases hstep with
  | subscribe hpc =>
    exact hquiet (.inl rfl) rfl ((heads_callAt _ i _).trans (heads_subscribe s i))
  | enqueue hpc => exact hquiet (.inl rfl) rfl (heads_callAt _ i _)
  | send o hpc =>
    exact (sendRequest_sent s i c.request o).change hget rfl rfl rfl rfl rfl (by simp [Act.makes]) rfl rfl
      (heads_callAt _ i _)
  | unqueue hpc => exact hquiet (.inl rfl) rfl (heads_callAt _ i _)
  | value status hpc hv =>
    rw [closeChan_eq]
    exact hquiet (.inl rfl) rfl (heads_callAt _ i _)
  | timeout hpc =>
    rw [closeChan_eq]
    exact hquiet (.inl rfl) rfl (heads_callAt _ i _)
  | done hpc hc =>
    rw [closeChan_eq]
    exact hquiet (.inl rfl) rfl (heads_callAt _ i _)
  | expire hpc =>
    unfold Remote.expire
    split_ifs
    · exact hquiet (.inr rfl) rfl (heads_callAt _ i _)
    · exact hquiet (.inl rfl) rfl (heads_callAt _ i _)
  | reset hpc => exact hquiet (.inl rfl) rfl (heads_retry s i)

theorem change_of_stepReader {o : SendInput} (h : s.stepReader o = some t) : s.Change (.reader o) t := by
  obtain ⟨recv, response, el, call, stage, c, hr, hget, hstep⟩ := stepReader_cases h
  have hquiet {t : Remote} (hd : t.digest = s.digest) (hw : t.wire = s.wire)
      (hh : t.heads = s.heads) : s.Change (.reader o) t := .plain (.inl hd) (by simpa [Act.makes] using hh) hw
  cases hstep with
  | challenge => exact hquiet rfl rfl rfl
  | judge =>
    rw [Remote.judge, noted_eq]
    exact hquiet rfl rfl rfl
  | auth paramsStr => exact .auth o rfl recv response el call paramsStr hr rfl rfl rfl
  | bump =>
    exact hquiet rfl rfl (heads_modify (f := fun c =>
      { c with request := { c.request with attempts := c.request.attempts + 1 } }) (fun _ => rfl) call)
  | resend =>
    exact (sendRequest_sent s call c.request o).change hget (by simp [Remote.sends, hr]) rfl rfl rfl rfl (by simp [Act.makes])
      rfl rfl rfl
  | finalize status hany => exact hquiet rfl rfl rfl
  | gone status hany => exact hquiet rfl rfl rfl
  | notify status =>
    rw [report_eq]
    exact hquiet rfl rfl rfl

/-- **Each step** makes a request, takes up a challenge, writes a request, or does nothing of the
kind. -/
theorem change_of_step (h : s.step a = some t) : s.Change a t := by
  have hquiet {t : Remote} (hm : a.makes = none) (hd : t.digest = s.digest ∨ t.digest = s.digest.clearNonce)
      (hw : t.wire = s.wire) (hc : t.calls = s.calls) : s.Change a t :=
    .plain hd (by simp [Remote.heads, hm, hc]) hw
  cases a with
  | caller i o => exact change_of_stepCall h
  | reader o => exact change_of_stepReader h
  | call kind url =>
    cases h
    exact .plain (.inl rfl) (by simp [Remote.heads, Act.makes]) rfl
  | teardown session url o =>
    obtain rfl := Option.some.inj h
    have hsent := sendRequest_sent { s with calls := s.calls ++ [⟨newRequest (.teardown session) url, 0, .returned .ok⟩] }
      s.calls.length (newRequest (.teardown session) url) o
    refine Remote.Sent.change (c := ⟨newRequest (.teardown session) url, 0, .returned .ok⟩) hsent
      List.getElem?_concat_length rfl rfl rfl rfl rfl ?_ rfl rfl rfl
    simp [Remote.heads, Act.makes]
  | disconnect =>
    cases h
    unfold Remote.disconnect
    split_ifs
    · exact hquiet rfl (.inr rfl) rfl rfl
    · exact hquiet rfl (.inl rfl) rfl rfl
  | dial ok =>
    cases h
    unfold Remote.dialLocked
    split_ifs <;> exact hquiet rfl (.inl rfl) rfl rfl
  | attach =>
    simp only [Remote.step] at h
    split_ifs at h
    cases h
    exact hquiet rfl (.inl rfl) rfl rfl
  | recv recv =>
    simp only [Remote.step] at h
    split_ifs at h
    cases h
    unfold Remote.receive
    split <;> exact hquiet rfl (.inl rfl) rfl rfl
  | cancel =>
    cases h
    exact hquiet rfl (.inl rfl) rfl rfl
  | shutdown =>
    cases h
    exact hquiet rfl (.inl rfl) rfl rfl

/-! ### The queue -/

theorem mem_disconnect {e : ℕ × ℕ} (h : e ∈ s.disconnect.requests) : e ∈ s.requests := by
  unfold Remote.disconnect at h
  split_ifs at h
  · cases h
  · exact h

theorem mem_sendRequest {i : ℕ} {request : Request} {o : SendInput} {e : ℕ × ℕ}
    (h : e ∈ (s.sendRequest i request o).1.requests) : e ∈ s.requests := by
  rcases sendRequest_cases s i request o with ⟨-, he⟩ | ⟨s₁, hs₁, hout⟩
  · rwa [he] at h
  · have hsame : s₁.requests = s.requests := by
      rcases hs₁ with ⟨-, rfl⟩ | ⟨-, -, rfl⟩ <;> rfl
    rw [← hsame]
    rcases hout with ⟨-, he⟩ | ⟨-, he⟩
    · rwa [he] at h
    · rw [he] at h
      exact mem_disconnect (s := s₁.wrote i request o) h

/-- **Only a call queues its request.** -/
theorem mem_requests_of_step {e : ℕ × ℕ} (h : s.step a = some t) (he : e ∈ t.requests) :
    e ∈ s.requests ∨ ∃ o c, a = .caller e.2 o ∧ s.calls[e.2]? = some c := by
  cases a with
  | caller i o =>
    obtain ⟨c, hget, hstep⟩ := stepCall_cases h
    cases hstep with
    | enqueue hpc =>
      rcases List.mem_append.mp he with he | he
      · exact .inl he
      · rw [List.mem_singleton.mp he]
        exact .inr ⟨.next, c, rfl, hget⟩
    | send o hpc => exact .inl (mem_sendRequest he)
    | unqueue hpc => exact .inl (List.mem_of_mem_eraseP he)
    | value | timeout | done =>
      rw [closeChan_eq] at he
      exact .inl he
    | expire hpc =>
      unfold Remote.expire at he
      split_ifs at he <;> exact .inl (List.mem_of_mem_eraseP he)
    | subscribe | reset => exact .inl he
  | reader o =>
    obtain ⟨recv, response, el, call, stage, c, hr, -, hstep⟩ := stepReader_cases h
    cases hstep with
    | judge =>
      rw [Remote.judge, noted_eq] at he
      exact .inl he
    | resend => exact .inl (mem_sendRequest he)
    | finalize => exact .inl (List.mem_of_mem_eraseP he)
    | notify =>
      rw [report_eq] at he
      exact .inl he
    | challenge | auth | bump | gone => exact .inl he
  | teardown session url o =>
    obtain rfl := Option.some.inj h
    have hold := mem_sendRequest he
    exact .inl hold
  | disconnect =>
    cases h
    exact .inl (mem_disconnect he)
  | dial ok =>
    cases h
    unfold Remote.dialLocked at he
    split_ifs at he <;> exact .inl he
  | attach =>
    obtain ⟨-, ⟨⟩⟩ := Option.ite_none_right_eq_some.mp h
    exact .inl he
  | recv recv =>
    obtain ⟨-, ⟨⟩⟩ := Option.ite_none_right_eq_some.mp h
    unfold Remote.receive at he
    split at he <;> exact .inl he
  | call | cancel | shutdown =>
    cases h
    exact .inl he

/-! ### The reader -/

/-- The reader handles the response it has read, and the challenge in it. -/
def ReaderPc.Ok : ReaderPc → Prop
  | .idle => True
  | .handling recv response _ _ stage => newResponseFromBuffer recv = .ok response ∧
      ∀ paramsStr, stage = .auth paramsStr → paramsStr = headerGet response.headers (ascii "WWW-Authenticate")

theorem sendRequest_reader (s : Remote) (i : ℕ) (request : Request) (o : SendInput) :
    (s.sendRequest i request o).1.reader = s.reader := by
  cases sendRequest_sent s i request o with
  | unsent h => rw [h]
  | sent _ _ _ _ _ _ _ _ hreader => exact hreader

theorem reader_stepCall {i : ℕ} {o : CallInput} (h : s.stepCall i o = some t) : t.reader = s.reader := by
  obtain ⟨c, -, hstep⟩ := stepCall_cases h
  cases hstep with
  | send o => exact sendRequest_reader s i c.request o
  | value | timeout | done =>
    rw [closeChan_eq]
    rfl
  | expire =>
    unfold Remote.expire
    split_ifs <;> rfl
  | _ => rfl

/-- Other steps than its own leave the reader alone, or give it a response. -/
theorem reader_of_step (h : s.step a = some t) (ha : ∀ o, a ≠ .reader o) : t.reader = s.reader ∨
    ∃ recv response el call, newResponseFromBuffer recv = .ok response ∧ (el, call) ∈ s.requests ∧
      t.reader = .handling recv response el call .judge := by
  cases a with
  | reader o => exact absurd rfl (ha o)
  | caller i o => exact .inl (reader_stepCall h)
  | recv recv =>
    obtain ⟨-, ⟨⟩⟩ := Option.ite_none_right_eq_some.mp h
    unfold Remote.receive
    split
    case h_1 response el call _ hparse hfront => exact .inr ⟨recv, response, el, call, hparse, by simp [hfront], rfl⟩
    case h_2 => exact .inl rfl
  | teardown session url o =>
    obtain rfl := Option.some.inj h
    exact .inl (sendRequest_reader _ _ _ o)
  | disconnect =>
    cases h
    unfold Remote.disconnect
    split_ifs <;> exact .inl rfl
  | dial ok =>
    cases h
    unfold Remote.dialLocked
    split_ifs <;> exact .inl rfl
  | attach =>
    obtain ⟨-, ⟨⟩⟩ := Option.ite_none_right_eq_some.mp h
    exact .inl rfl
  | call | cancel | shutdown =>
    cases h
    exact .inl rfl

/-- **The reader stays with its response.** -/
theorem readerOk_step (hok : s.reader.Ok) (h : s.step a = some t) : t.reader.Ok := by
  by_cases ha : ∃ o, a = .reader o
  · obtain ⟨o, rfl⟩ := ha
    obtain ⟨recv, response, el, call, stage, c, hr, -, hstep⟩ := stepReader_cases h
    rw [hr] at hok
    cases hstep with
    | challenge => exact ⟨hok.1, fun p hp => (Stage.auth.inj hp).symm⟩
    | judge => exact ⟨hok.1, fun p hp => by cases hp⟩
    | auth paramsStr =>
      refine ⟨hok.1, fun p hp => ?_⟩
      split_ifs at hp
    | bump => exact ⟨hok.1, fun p hp => by cases hp⟩
    | finalize => exact ⟨hok.1, fun p hp => by cases hp⟩
    | resend => trivial
    | gone => trivial
    | notify => trivial
  · rcases reader_of_step h fun o ho => ha ⟨o, ho⟩ with hsame | ⟨recv, response, el, call, hparse, -, hr⟩
    · rw [hsame]
      exact hok
    · rw [hr]
      exact ⟨hparse, fun p hp => by cases hp⟩

end RtspProxy.Upstream
