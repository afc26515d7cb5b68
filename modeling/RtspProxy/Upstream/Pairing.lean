import RtspProxy.Upstream.Remote

/-!
# Which request a response answers

`HandleUpstreamResponse` takes every response to answer the request at the front of the
queue. With a camera that answers each request once and in order this is right as long as
the queue and the camera agree on what is still to be answered. They disagree after a
timeout: the request leaves the queue, or goes in again for another try, while its answer is
still to come. When that answer comes late and a request is queued, it is taken for the
answer to that request (`late_answer`).

## What is proved

* `Paired` — the response being handled has the `CSeq` last written for the request that it
  is taken to answer.
* `OneCaller` — one caller at a time, and a camera that answers in order.
* `Prompt` — a response that finds a request queued finds that request written, and is the
  only answer the camera owes on this connection; and a request that has timed out does not
  leave the queue in the middle of the handling of a response to it.
* `paired_of_prompt` — with one caller, every run of prompt steps keeps `Paired`, through
  timeouts, second tries, 401 retries, disconnects, write errors and redials.
-/

namespace RtspProxy.Upstream

open Theory Wire

/-- The requests written to the reader's connection and not yet answered. -/
def Remote.unanswered (s : Remote) : List Written :=
  (s.wire.filter fun w => s.readerConn == some w.conn && w.sent).drop s.answered

/-- The last request written for a call. -/
def Remote.lastWrite (s : Remote) (i : ℕ) : Option Written := (s.wire.filter fun w => w.call == i).getLast?

/-- **Pairing**: a response that is being handled as the answer to a request carries the `CSeq`
last written for that request. -/
def Paired (s : Remote) : Prop :=
  ∀ recv response el i stage, s.reader = .handling recv response el i stage →
    ∃ w, s.lastWrite i = some w ∧ headerGet response.headers (ascii "CSeq") = itoa w.cseq

/-- The response being handled has another `CSeq`. -/
def Remote.mispaired (s : Remote) : Bool :=
  match s.reader with
  | .handling _ response _ i _ =>
    (s.lastWrite i).all fun w => headerGet response.headers (ascii "CSeq") != itoa w.cseq
  | .idle => false

theorem not_paired_of_mispaired {s : Remote} (h : s.mispaired = true) : ¬ Paired s := by
  intro hpair
  unfold Remote.mispaired at h
  split at h
  · rename_i recv response el i stage hread
    obtain ⟨w, hw, hc⟩ := hpair recv response el i stage hread
    simp [hw, hc] at h
  · cases h

/-! ### Assumption and condition -/

/-- The camera answers in order: the response has the `CSeq` of the first request that is not
yet answered. -/
def Remote.cameraAnswers (s : Remote) (recv : Bytes) : Bool :=
  match s.unanswered, newResponseFromBuffer recv with
  | w :: _, .ok response => headerGet response.headers (ascii "CSeq") == itoa w.cseq
  | _, _ => false

/-- The call has returned. -/
def Call.isReturned (c : Call) : Bool :=
  match c.pc with
  | .returned _ => true
  | _ => false

/-- One caller at a time on a stream that is not cancelled, and a camera that answers in
order. -/
def OneCaller (s : Remote) : Act → Prop
  | .call _ _ => ∀ c ∈ s.calls, c.isReturned = true
  | .recv recv => s.cameraAnswers recv = true
  | .teardown _ _ _ | .cancel | .shutdown => False
  | _ => True

/-- The camera owes one answer on the connection in use, and the queued requests are written. -/
def Remote.OwesOne (s : Remote) : Prop :=
  s.connected = true ∧ s.readerConn = some s.conn ∧ s.unanswered.length = 1 ∧
  ∀ e ∈ s.requests, ∀ c ∈ s.calls[e.2]?, c.pc = .wait ∨ c.pc = .expire

/-- The reader is handling a response to the request of call `i`. -/
def Remote.handles (s : Remote) (i : ℕ) : Bool :=
  match s.reader with
  | .handling _ _ _ call _ => call == i
  | .idle => false

/-- No late answers: a response that finds a request queued is the one answer owed, and a
request does not time out while a response to it is being handled. -/
def Prompt (s : Remote) : Act → Prop
  | .recv _ => s.requests ≠ [] → s.OwesOne
  | .caller i _ => ∀ c ∈ s.calls[i]?, c.pc = .expire → s.handles i = false
  | _ => True

/-! ### The invariant -/

/-- The connections of the requests written. -/
structure WireInv (s : Remote) : Prop where
  /-- None is later than the current one. -/
  le : ∀ w ∈ s.wire, w.conn ≤ s.conn
  /-- None is later than that of the last request. -/
  last : ∀ w, s.wire.getLast? = some w → ∀ x ∈ s.wire, x.conn ≤ w.conn
  /-- A connection on which a write failed is not in use. -/
  unsent : ∀ w ∈ s.wire, w.sent = false → w.conn < s.conn ∨ s.connected = false

/-- The last request written is that of call `i`. -/
def Remote.LastIs (s : Remote) (i : ℕ) (w : Written) : Prop := s.wire.getLast? = some w ∧ w.call = i

/-- What holds while call `i` waits for its answer, or has timed out. -/
structure Waiting (s : Remote) (i : ℕ) (c : Call) : Prop where
  /-- At most its own request is queued. -/
  queued : s.requests = [] ∨ ∃ el, s.requests = [(el, i)]
  /-- If it is, then it was the last one written. -/
  written : s.requests ≠ [] → ∃ w, s.LastIs i w
  /-- Once there is a value for the call, the reader is done with it. -/
  value : s.chanVal c.request.sub ≠ none → s.requests = [] ∧ s.reader = .idle
  /-- The reader is idle, or handles the answer to what was last written. -/
  reader : ∀ recv response el j stage, s.reader = .handling recv response el j stage →
    j = i ∧ (∃ w, s.LastIs i w ∧ headerGet response.headers (ascii "CSeq") = itoa w.cseq) ∧
    (s.requests = [] ∨ s.requests = [(el, i)]) ∧ (∀ status, stage = .notify status → s.requests = [])

/-- What holds while call `i` is at its place. -/
def Phase (s : Remote) (i : ℕ) (c : Call) : Prop :=
  match c.pc with
  | .subscribe | .reset => s.requests = [] ∧ s.reader = .idle
  | .enqueue => s.requests = [] ∧ s.reader = .idle ∧ s.chanVal c.request.sub = none
  | .send | .unqueue =>
    (s.requests = [] ∨ ∃ el, s.requests = [(el, i)]) ∧ s.reader = .idle ∧ s.chanVal c.request.sub = none
  | .wait | .expire => Waiting s i c
  | .returned _ => False

/-- All calls but `i` have returned. -/
def Remote.OthersReturned (s : Remote) (i : ℕ) : Prop :=
  ∀ (j : ℕ) (c : Call), s.calls[j]? = some c → j ≠ i → c.isReturned = true

/-- What prompt steps with one caller keep. -/
structure PairInv (s : Remote) : Prop where
  /-- The connections. -/
  wire : WireInv s
  /-- The stream is not cancelled. -/
  live : s.cancelled = false
  /-- Nobody is calling, or one call is at its place. -/
  phase : ((∀ c ∈ s.calls, c.isReturned = true) ∧ s.requests = [] ∧ s.reader = .idle) ∨
    ∃ i c, s.calls[i]? = some c ∧ s.OthersReturned i ∧ Phase s i c

theorem pairInv_newRemote (username password : Bytes) : PairInv (newRemote username password) := by
  refine ⟨⟨?_, ?_, ?_⟩, rfl, .inl ⟨?_, rfl, rfl⟩⟩ <;> simp [newRemote]

/-- The last element that passes a test is the last element, if that passes. -/
theorem getLast?_filter {α : Type} {l : List α} {p : α → Bool} {x : α} (h : l.getLast? = some x)
    (hp : p x = true) : (l.filter p).getLast? = some x := by
  obtain ⟨ys, rfl⟩ := List.getLast?_eq_some_iff.mp h
  simp [List.filter_append, hp]

theorem PairInv.paired {s : Remote} (h : PairInv s) : Paired s := by
  intro recv response el i stage hr
  rcases h.phase with ⟨-, -, hidle⟩ | ⟨j, c, -, -, hph⟩
  · rw [hidle] at hr
    cases hr
  · unfold Phase at hph
    split at hph
    case h_6 | h_7 =>
      obtain ⟨rfl, ⟨w, ⟨hw, hi⟩, hcseq⟩, -⟩ := hph.reader recv response el i stage hr
      exact ⟨w, getLast?_filter hw (by simp [hi]), hcseq⟩
    all_goals simp_all

/-! ### Sending -/

section
variable {s t : Remote} {i : ℕ} {c : Call}

theorem WireInv.dialed (h : WireInv s) : WireInv s.dialed := by
  refine ⟨fun w hw => ?_, h.last, fun w hw _ => .inl ?_⟩
  · have := h.le w hw
    simp only [Remote.dialed]
    omega
  · have := h.le w hw
    simp only [Remote.dialed]
    omega

theorem WireInv.disconnect (h : WireInv s) (hs : ∀ w ∈ s.wire, w.conn ≤ s.conn) : WireInv s.disconnect := by
  unfold Remote.disconnect
  split_ifs
  · exact ⟨hs, h.last, fun _ _ _ => .inr rfl⟩
  · exact h

/-- A request is written to the current connection; if that fails the connection is closed. -/
theorem WireInv.wrote (h : WireInv s) (i : ℕ) (request : Request) (o : SendInput) :
    (∀ w ∈ (s.wrote i request o).wire, w.conn ≤ s.conn) ∧
    (∀ w, (s.wrote i request o).wire.getLast? = some w → ∀ x ∈ (s.wrote i request o).wire, x.conn ≤ w.conn) ∧
    ∃ w, (s.wrote i request o).LastIs i w := by
  have hle : ∀ w ∈ (s.wrote i request o).wire, w.conn ≤ s.conn := by
    intro w hw
    rcases List.mem_append.mp hw with hw | hw
    · exact h.le w hw
    · cases List.mem_singleton.mp hw
      exact Nat.le_refl _
  refine ⟨hle, fun w hw x hx => ?_, ?_⟩
  · simp only [Remote.wrote, List.getLast?_append, List.getLast?_singleton, Option.some_or,
      Option.some.injEq] at hw
    rw [← hw]
    exact hle x hx
  · exact ⟨_, List.getLast?_concat .., rfl⟩

/-- What `SendRequest` does to the things that pairing depends on. -/
structure SendSpec (s t : Remote) (i : ℕ) (ok : Bool) : Prop where
  /-- The connections. -/
  wire : WireInv t
  /-- The reader stays. -/
  reader : t.reader = s.reader
  /-- The channels stay. -/
  chans : t.chans = s.chans
  /-- The context stays. -/
  cancelled : t.cancelled = s.cancelled
  /-- Only the headers of the request change. -/
  calls : t.calls = s.calls ∨
    ∃ headers, t.calls = s.calls.modify i fun c => { c with request := { c.request with headers := headers } }
  /-- The queue stays, or is emptied with the connection. -/
  requests : t.requests = s.requests ∨ ok = false ∧ t.requests = []
  /-- The request is the last one written, unless nothing was. -/
  last : (∃ w, t.LastIs i w) ∨ ok = false ∧ t = s

theorem sendRequest_spec (h : WireInv s) (i : ℕ) (request : Request) (o : SendInput) :
    SendSpec s (s.sendRequest i request o).1 i (s.sendRequest i request o).2 := by
  rcases sendRequest_cases s i request o with ⟨-, he⟩ | ⟨s₁, hs₁, hout⟩
  · rw [he]
    exact ⟨h, rfl, rfl, rfl, .inl rfl, .inl rfl, .inr ⟨rfl, rfl⟩⟩
  · have h₁ : WireInv s₁ ∧ s₁.connected = true ∧ s₁.reader = s.reader ∧ s₁.chans = s.chans ∧
        s₁.cancelled = s.cancelled ∧ s₁.calls = s.calls ∧ s₁.requests = s.requests := by
      rcases hs₁ with ⟨hc, rfl⟩ | ⟨-, -, rfl⟩
      · exact ⟨h, hc, rfl, rfl, rfl, rfl, rfl⟩
      · exact ⟨h.dialed, rfl, rfl, rfl, rfl, rfl, rfl⟩
    obtain ⟨hw, hc, hr, hch, hca, hcalls, hreq⟩ := h₁
    obtain ⟨hle, hlast, hmine⟩ := hw.wrote i request o
    have hconn : (s₁.wrote i request o).connected = true := hc
    have hmod : ∃ headers, (s₁.wrote i request o).calls =
        s.calls.modify i fun c => { c with request := { c.request with headers := headers } } :=
      ⟨_, by rw [← hcalls]; rfl⟩
    rcases hout with ⟨hok, he⟩ | ⟨hok, he⟩
    · rw [he]
      refine ⟨⟨hle, hlast, fun w hw' hun => ?_⟩, hr, hch, hca, .inr hmod, .inl hreq, .inl hmine⟩
      rcases List.mem_append.mp hw' with hw' | hw'
      · exact hw.unsent w hw' hun
      · cases List.mem_singleton.mp hw'
        rw [hok] at hun
        cases hun
    · rw [he]
      have hd : (s₁.wrote i request o).disconnect = { s₁.wrote i request o with
          connected := false, digest := (s₁.wrote i request o).digest.clearNonce, requests := []
          currentCSeq := 0 } := by
        unfold Remote.disconnect
        rw [if_pos hconn]
      rw [hd]
      exact ⟨⟨hle, hlast, fun _ _ _ => .inr rfl⟩, hr, hch, hca, .inr hmod, .inr ⟨rfl, rfl⟩, .inl hmine⟩

/-! ### One call at its place -/

theorem Remote.OthersReturned.modify (h : s.OthersReturned i) {f : Call → Call}
    (ht : t.calls = s.calls.modify i f) : t.OthersReturned i := by
  intro j c hj hne
  rw [ht] at hj
  obtain ⟨y, hy, ⟨he, -⟩ | ⟨-, rfl⟩⟩ := of_getElem?_modify hj
  · exact absurd he.symm hne
  · exact h j c hy hne

theorem getElem?_modify_of {α : Type} {l : List α} {f : α → α} {i : ℕ} {x : α} (h : l[i]? = some x) :
    (l.modify i f)[i]? = some (f x) := by
  rw [List.getElem?_modify_eq, h]
  rfl

/-- A call that has not returned is the one that is at its place. -/
theorem PairInv.focus (h : PairInv s) (hget : s.calls[i]? = some c) (ha : c.isReturned = false) :
    s.OthersReturned i ∧ Phase s i c := by
  rcases h.phase with ⟨hall, -, -⟩ | ⟨j, c', hj, ho, hph⟩
  · rw [hall c (List.mem_of_getElem? hget)] at ha
    cases ha
  · by_cases hij : i = j
    · subst hij
      rw [hget] at hj
      cases hj
      exact ⟨ho, hph⟩
    · rw [ho i c hget hij] at ha
      cases ha

/-- The response being handled is for the call that waits. -/
theorem PairInv.handling (h : PairInv s) {recv : Bytes} {response : Response} {el : ℕ} {stage : Stage}
    (hr : s.reader = .handling recv response el i stage) :
    ∃ c, s.calls[i]? = some c ∧ s.OthersReturned i ∧ (c.pc = .wait ∨ c.pc = .expire) ∧ Waiting s i c := by
  rcases h.phase with ⟨-, -, hidle⟩ | ⟨j, c, hj, ho, hph⟩
  · rw [hidle] at hr
    cases hr
  · unfold Phase at hph
    split at hph
    case h_6 hpc =>
      obtain ⟨rfl, -⟩ := hph.reader recv response el i stage hr
      exact ⟨c, hj, ho, .inl hpc, hph⟩
    case h_7 hpc =>
      obtain ⟨rfl, -⟩ := hph.reader recv response el i stage hr
      exact ⟨c, hj, ho, .inr hpc, hph⟩
    all_goals simp_all

theorem PairInv.placed (hw : WireInv t) (hl : t.cancelled = false) (hget : t.calls[i]? = some c)
    (ho : t.OthersReturned i) (hph : Phase t i c) : PairInv t :=
  ⟨hw, hl, .inr ⟨i, c, hget, ho, hph⟩⟩

/-- Call `i` has returned, and left nothing behind. -/
theorem PairInv.returned (hw : WireInv t) (hl : t.cancelled = false) (hget : t.calls[i]? = some c)
    (ho : t.OthersReturned i) (hc : c.isReturned = true) (hq : t.requests = []) (hr : t.reader = .idle) :
    PairInv t := by
  refine ⟨hw, hl, .inl ⟨fun c' hc' => ?_, hq, hr⟩⟩
  obtain ⟨j, hj⟩ := List.mem_iff_getElem?.mp hc'
  by_cases hij : j = i
  · subst hij
    rw [hget] at hj
    cases hj
    exact hc
  · exact ho j c' hj hij

/-! ### The steps of the caller -/

/-- The fields that the wire invariant is about stay. -/
theorem WireInv.congr (h : WireInv s) (hw : t.wire = s.wire) (hc : t.conn = s.conn)
    (ho : t.connected = s.connected) : WireInv t := by
  refine ⟨?_, ?_, ?_⟩ <;> rw [hw]
  · rw [hc]
    exact h.le
  · exact h.last
  · rw [hc, ho]
    exact h.unsent

/-- A queue with at most the request of call `i`, without that request. -/
theorem unqueue_eq_nil (hq : s.requests = [] ∨ ∃ el, s.requests = [(el, i)]) : (s.unqueue i).requests = [] := by
  rcases hq with hq | ⟨el, hq⟩ <;> simp [Remote.unqueue, hq]

/-- The wait of a call carries over to a state that looks the same to it. -/
theorem Waiting.congr {c' : Call} (h : Waiting s i c) (hq : t.requests = s.requests) (hw : t.wire = s.wire)
    (hr : t.reader = s.reader) (hv : t.chanVal c'.request.sub = s.chanVal c.request.sub) : Waiting t i c' := by
  refine ⟨?_, ?_, ?_, ?_⟩
  · rw [hq]
    exact h.queued
  · rw [hq]
    intro hne
    obtain ⟨w, hl, hi⟩ := h.written hne
    exact ⟨w, by rw [hw]; exact hl, hi⟩
  · rw [hq, hr, hv]
    exact h.value
  · intro recv response el j stage hh
    rw [hr] at hh
    obtain ⟨hj, ⟨w, ⟨hl, hi⟩, hc⟩, hs, hn⟩ := h.reader recv response el j stage hh
    rw [hq]
    exact ⟨hj, ⟨w, ⟨by rw [hw]; exact hl, hi⟩, hc⟩, hs, hn⟩

/-- Sending leaves the call where it is, on the channel it has. -/
theorem SendSpec.call {ok : Bool} (h : SendSpec s t i ok) (hget : s.calls[i]? = some c) :
    ∃ c', t.calls[i]? = some c' ∧ c'.request.sub = c.request.sub ∧ c'.pc = c.pc := by
  rcases h.calls with he | ⟨headers, he⟩
  · exact ⟨c, by rw [he]; exact hget, rfl, rfl⟩
  · refine ⟨{ c with request := { c.request with headers := headers } }, ?_, rfl, rfl⟩
    rw [he]
    exact getElem?_modify_of hget

theorem SendSpec.others {ok : Bool} (h : SendSpec s t i ok) (ho : s.OthersReturned i) : t.OthersReturned i := by
  rcases h.calls with he | ⟨headers, he⟩
  · intro j c hj
    rw [he] at hj
    exact ho j c hj
  · exact ho.modify he

theorem SendSpec.chanVal {ok : Bool} (h : SendSpec s t i ok) (ch : Option ℕ) : t.chanVal ch = s.chanVal ch := by
  unfold Remote.chanVal
  rw [h.chans]

/-- A call that waits while the reader does not handle its answer has an idle reader. -/
theorem Waiting.idle (h : Waiting s i c) (hn : s.handles i = false) : s.reader = .idle := by
  cases hr : s.reader with
  | idle => rfl
  | handling recv response el j stage =>
    obtain ⟨rfl, -⟩ := h.reader recv response el j stage hr
    simp [Remote.handles, hr] at hn

/-- The call has timed out, and has closed its channel. -/
theorem PairInv.timedOut (h : PairInv s) (hget : s.calls[i]? = some c) (ho : s.OthersReturned i)
    (hwait : Waiting s i c) : PairInv ((s.closeChan c.request.sub).callAt i .expire) := by
  have hval := chanVal_closeChan s c.request.sub c.request.sub
  rw [closeChan_eq] at hval ⊢
  have hwait' : Waiting ({ s with chans := (s.closeChan c.request.sub).chans }.callAt i .expire) i
      { c with pc := .expire } := hwait.congr rfl rfl rfl hval
  exact PairInv.placed (i := i) (h.wire.congr rfl rfl rfl) h.live (getElem?_modify_of hget) (ho.modify rfl) hwait'

theorem PairInv.send (h : PairInv s) (hget : s.calls[i]? = some c) (ho : s.OthersReturned i)
    (hq : s.requests = [] ∨ ∃ el, s.requests = [(el, i)]) (hidle : s.reader = .idle)
    (hv : s.chanVal c.request.sub = none) (o : SendInput) :
    PairInv ((s.sendRequest i c.request o).1.callAt i
      (if (s.sendRequest i c.request o).2 then .wait else .unqueue)) := by
  have hsend := sendRequest_spec h.wire i c.request o
  obtain ⟨c', hc', hsub, -⟩ := hsend.call hget
  have hlive' := hsend.cancelled.trans h.live
  have hidle' := hsend.reader.trans hidle
  have hv' := (hsend.chanVal c'.request.sub).trans (hsub ▸ hv)
  cases hok : (s.sendRequest i c.request o).2 with
  | true =>
    rw [hok] at hsend
    have hq' := hsend.requests.resolve_right (by simp)
    have hlast := hsend.last.resolve_right (by simp)
    refine PairInv.placed (i := i) (hsend.wire.congr rfl rfl rfl) hlive' (getElem?_modify_of hc')
      ((hsend.others ho).modify rfl) ⟨?_, fun _ => hlast, fun hne => absurd hv' hne, ?_⟩
    · rw [← hq'] at hq
      exact hq
    · intro recv response el j stage hr
      cases hidle'.symm.trans hr
  | false =>
    refine PairInv.placed (i := i) (hsend.wire.congr rfl rfl rfl) hlive' (getElem?_modify_of hc')
      ((hsend.others ho).modify rfl) ⟨?_, hidle', hv'⟩
    rcases hsend.requests with he | ⟨-, he⟩
    · rw [← he] at hq
      exact hq
    · exact .inl he

/-- **A step of the caller.** -/
theorem PairInv.stepCall (h : PairInv s) {o : CallInput}
    (hp : ∀ c ∈ s.calls[i]?, c.pc = .expire → s.handles i = false) (hs : s.stepCall i o = some t) :
    PairInv t := by
  obtain ⟨c, hget, hstep⟩ := stepCall_cases hs
  have hp := hp c hget
  have hlive := h.live
  cases hstep with
  | subscribe hpc =>
    obtain ⟨ho, hph⟩ := h.focus hget (by simp [Call.isReturned, hpc])
    simp only [Phase, hpc] at hph
    refine PairInv.placed (i := i) (h.wire.congr rfl rfl rfl) hlive
      (getElem?_modify_of (getElem?_modify_of hget)) ?_ ⟨hph.1, hph.2, ?_⟩
    · exact (ho.modify (t := s.subscribe i) rfl).modify rfl
    · -- the new channel is empty
      simp [Remote.chanVal, Remote.subscribe, Remote.callAt]
  | enqueue hpc =>
    obtain ⟨ho, hph⟩ := h.focus hget (by simp [Call.isReturned, hpc])
    simp only [Phase, hpc] at hph
    refine PairInv.placed (i := i) (h.wire.congr rfl rfl rfl) hlive (getElem?_modify_of hget) (ho.modify rfl)
      ⟨.inr ⟨s.nextEl, ?_⟩, hph.2.1, hph.2.2⟩
    simp [Remote.callAt, Remote.enqueue, hph.1]
  | send o hpc =>
    obtain ⟨ho, hph⟩ := h.focus hget (by simp [Call.isReturned, hpc])
    simp only [Phase, hpc] at hph
    exact h.send hget ho hph.1 hph.2.1 hph.2.2 o
  | unqueue hpc =>
    obtain ⟨ho, hph⟩ := h.focus hget (by simp [Call.isReturned, hpc])
    simp only [Phase, hpc] at hph
    exact PairInv.returned (i := i) (h.wire.congr rfl rfl rfl) hlive (getElem?_modify_of hget) (ho.modify rfl)
      rfl (unqueue_eq_nil hph.1) hph.2.1
  | value status hpc hval =>
    obtain ⟨ho, hph⟩ := h.focus hget (by simp [Call.isReturned, hpc])
    simp only [Phase, hpc] at hph
    obtain ⟨hq, hidle⟩ := hph.value (by simp [hval])
    simp only [hlive, Bool.false_eq_true, if_false]
    cases status with
    | timeout => exact h.timedOut hget ho hph
    | _ =>
      rw [closeChan_eq]
      exact PairInv.returned (i := i) (h.wire.congr rfl rfl rfl) hlive (getElem?_modify_of hget)
        (ho.modify rfl) rfl hq hidle
  | timeout hpc =>
    obtain ⟨ho, hph⟩ := h.focus hget (by simp [Call.isReturned, hpc])
    simp only [Phase, hpc] at hph
    simp only [hlive, Bool.false_eq_true, if_false]
    exact h.timedOut hget ho hph
  | done hpc hc =>
    rw [hlive] at hc
    cases hc
  | expire hpc =>
    obtain ⟨ho, hph⟩ := h.focus hget (by simp [Call.isReturned, hpc])
    simp only [Phase, hpc] at hph
    have hidle := hph.idle (hp hpc)
    have hq := unqueue_eq_nil hph.queued
    unfold Remote.expire
    split_ifs
    · exact PairInv.placed (i := i) (h.wire.congr rfl rfl rfl) hlive (getElem?_modify_of hget) (ho.modify rfl)
        ⟨hq, hidle⟩
    · exact PairInv.returned (i := i) (h.wire.congr rfl rfl rfl) hlive (getElem?_modify_of hget)
        (ho.modify rfl) rfl hq hidle
  | reset hpc =>
    obtain ⟨ho, hph⟩ := h.focus hget (by simp [Call.isReturned, hpc])
    simp only [Phase, hpc] at hph
    exact PairInv.placed (i := i) (h.wire.congr rfl rfl rfl) hlive (getElem?_modify_of hget) (ho.modify rfl) hph

/-! ### The steps of the reader -/

/-- A call waits before and after it has timed out. -/
theorem phase_of_waiting (hpc : c.pc = .wait ∨ c.pc = .expire) (h : Waiting s i c) : Phase s i c := by
  unfold Phase
  rcases hpc with hpc | hpc <;> rw [hpc] <;> exact h

/-- While a response to the call is being handled there is no value for it. -/
theorem Waiting.no_value (h : Waiting s i c) {recv : Bytes} {response : Response} {el j : ℕ} {stage : Stage}
    (hr : s.reader = .handling recv response el j stage) : s.chanVal c.request.sub = none := by
  by_contra hne
  have := (h.value hne).2
  rw [hr] at this
  cases this

/-- The reader goes on with the same response. -/
theorem Waiting.stageAt (h : Waiting s i c) {recv : Bytes} {response : Response} {el : ℕ} {stage stage' : Stage}
    {c' : Call} (hr : s.reader = .handling recv response el i stage)
    (hr' : t.reader = .handling recv response el i stage')
    (hq : t.requests = s.requests ∨ t.requests = []) (hn : ∀ status, stage' = .notify status → t.requests = [])
    (hw : t.wire = s.wire) (hv : t.chanVal c'.request.sub = s.chanVal c.request.sub) : Waiting t i c' := by
  obtain ⟨-, ⟨w, ⟨hl, hi⟩, hcseq⟩, hs, -⟩ := h.reader recv response el i stage hr
  have hlast : t.LastIs i w := ⟨by rw [hw]; exact hl, hi⟩
  have hq' : t.requests = [] ∨ t.requests = [(el, i)] := by
    rcases hq with hq | hq
    · rw [hq]
      exact hs
    · exact .inl hq
  refine ⟨hq'.imp_right fun h => ⟨el, h⟩, fun _ => ⟨w, hlast⟩, fun hne => ?_, ?_⟩
  · rw [hv, h.no_value hr] at hne
    exact absurd rfl hne
  · intro recv₁ response₁ el₁ j₁ stage₁ hr₁
    cases hr'.symm.trans hr₁
    exact ⟨rfl, ⟨w, hlast, hcseq⟩, hq', hn⟩

/-- The reader has let go of the response, with the queue empty. -/
theorem Waiting.letGo {c' : Call} (hr : t.reader = .idle) (hq : t.requests = []) : Waiting t i c' := by
  refine ⟨.inl hq, fun hne => absurd hq hne, fun _ => ⟨hq, hr⟩, ?_⟩
  intro recv response el j stage hh
  cases hr.symm.trans hh

/-- **A step of the reader.** -/
theorem PairInv.stepReader (h : PairInv s) {o : SendInput} (hs : s.stepReader o = some t) : PairInv t := by
  obtain ⟨recv, response, el, i, stage, c, hr, hget, hstep⟩ := stepReader_cases hs
  obtain ⟨c₀, hget₀, ho, hpc, hwait⟩ := h.handling hr
  rw [hget] at hget₀
  cases hget₀
  have hlive := h.live
  obtain ⟨-, -, hsame, hnote⟩ := hwait.reader recv response el i stage hr
  cases hstep with
  | challenge h₁ h₂ h₃ h₄ =>
    exact PairInv.placed (i := i) (h.wire.congr rfl rfl rfl) hlive hget ho
      (phase_of_waiting hpc (hwait.stageAt hr rfl (.inl rfl) (by simp) rfl rfl))
  | judge hn =>
    rw [Remote.judge, noted_eq]
    exact PairInv.placed (i := i) (h.wire.congr rfl rfl rfl) hlive hget ho
      (phase_of_waiting hpc (hwait.stageAt hr rfl (.inl rfl) (by simp) rfl rfl))
  | auth paramsStr =>
    refine PairInv.placed (i := i) (h.wire.congr rfl rfl rfl) hlive hget ho
      (phase_of_waiting hpc (hwait.stageAt hr rfl (.inl rfl) ?_ rfl rfl))
    intro status hst
    split_ifs at hst
  | bump =>
    exact PairInv.placed (i := i) (h.wire.congr rfl rfl rfl) hlive (getElem?_modify_of hget) (ho.modify rfl)
      (phase_of_waiting hpc (hwait.stageAt hr rfl (.inl rfl) (by simp) rfl rfl))
  | resend =>
    have hsend := sendRequest_spec h.wire i c.request o
    obtain ⟨c', hc', hsub, hpc'⟩ := hsend.call hget
    have hnone : (s.sendRequest i c.request o).1.chanVal c'.request.sub = none := by
      rw [hsend.chanVal, hsub]
      exact hwait.no_value hr
    rw [← hpc'] at hpc
    refine PairInv.placed (i := i) (hsend.wire.congr rfl rfl rfl) (hsend.cancelled.trans hlive) hc'
      (hsend.others ho) (phase_of_waiting hpc ⟨?_, fun hne => ?_, fun hne => absurd hnone hne, ?_⟩)
    · rcases hsend.requests with he | ⟨-, he⟩
      · rw [he]
        exact hwait.queued
      · exact .inl he
    · rcases hsend.last with hl | ⟨-, he⟩
      · exact hl
      · rw [he] at hne ⊢
        exact hwait.written hne
    · intro recv₁ response₁ el₁ j₁ stage₁ hr₁
      cases hr₁
  | finalize status hany =>
    have hq : (s.requests.eraseP fun e => e.1 == el) = [] := by
      rcases hsame with he | he <;> simp [he]
    exact PairInv.placed (i := i) (h.wire.congr rfl rfl rfl) hlive hget ho
      (phase_of_waiting hpc (hwait.stageAt hr rfl (.inr hq) (fun _ _ => hq) rfl rfl))
  | gone status hany =>
    have hq : s.requests = [] := by
      rcases hsame with he | he
      · exact he
      · simp [he] at hany
    exact PairInv.placed (i := i) (h.wire.congr rfl rfl rfl) hlive hget ho
      (phase_of_waiting hpc (Waiting.letGo rfl hq))
  | notify status =>
    have hq : s.requests = [] := hnote status rfl
    rw [report_eq]
    exact PairInv.placed (i := i) (h.wire.congr rfl rfl rfl) hlive hget ho
      (phase_of_waiting hpc (Waiting.letGo rfl hq))

/-! ### The other steps -/

/-- A step that leaves the wire, the reader and the channels, and may empty the queue. -/
theorem Phase.congr (h : Phase s i c) (hq : t.requests = s.requests ∨ t.requests = [])
    (hw : t.wire = s.wire) (hr : t.reader = s.reader) (hc : t.chans = s.chans) : Phase t i c := by
  have hv : t.chanVal c.request.sub = s.chanVal c.request.sub := by simp only [Remote.chanVal, hc]
  have hnil : s.requests = [] → t.requests = [] := fun he => hq.elim (fun h => h.trans he) id
  have hone : (s.requests = [] ∨ ∃ el, s.requests = [(el, i)]) → t.requests = [] ∨ ∃ el, t.requests = [(el, i)] := by
    intro h'
    rcases hq with hq | hq
    · rw [hq]
      exact h'
    · exact .inl hq
  have hwait : Waiting s i c → Waiting t i c := by
    intro h'
    refine ⟨hone h'.queued, fun hne => ?_, fun hne => ?_, ?_⟩
    · obtain ⟨w, hl, hi⟩ := h'.written fun he => hne (hnil he)
      exact ⟨w, by rw [hw]; exact hl, hi⟩
    · rw [hv] at hne
      exact ⟨hnil (h'.value hne).1, hr.trans (h'.value hne).2⟩
    · intro recv response el j stage hh
      rw [hr] at hh
      obtain ⟨hj, ⟨w, ⟨hl, hi⟩, hcseq⟩, hs, hn⟩ := h'.reader recv response el j stage hh
      refine ⟨hj, ⟨w, ⟨by rw [hw]; exact hl, hi⟩, hcseq⟩, ?_, fun status hst => hnil (hn status hst)⟩
      rcases hq with hq | hq
      · rw [hq]
        exact hs
      · exact .inl hq
  cases hpc : c.pc <;> simp only [Phase, hpc] at h ⊢
  case subscribe | reset => exact ⟨hnil h.1, hr.trans h.2⟩
  case enqueue => exact ⟨hnil h.1, hr.trans h.2.1, hv.trans h.2.2⟩
  case send | unqueue => exact ⟨hone h.1, hr.trans h.2.1, hv.trans h.2.2⟩
  case wait | expire => exact hwait h

theorem PairInv.congr (h : PairInv s) (hwire : WireInv t) (hl : t.cancelled = s.cancelled)
    (hq : t.requests = s.requests ∨ t.requests = []) (hw : t.wire = s.wire) (hr : t.reader = s.reader)
    (hc : t.chans = s.chans) (hcalls : t.calls = s.calls) : PairInv t := by
  refine ⟨hwire, hl.trans h.live, ?_⟩
  rcases h.phase with ⟨hall, he, hidle⟩ | ⟨i, c, hi, ho, hph⟩
  · refine .inl ⟨by rw [hcalls]; exact hall, ?_, hr.trans hidle⟩
    exact hq.elim (fun h => h.trans he) id
  · refine .inr ⟨i, c, by rw [hcalls]; exact hi, ?_, hph.congr hq hw hr hc⟩
    unfold Remote.OthersReturned
    rw [hcalls]
    exact ho

/-- A new call, when the others have returned. -/
theorem PairInv.call (h : PairInv s) (hone : ∀ c ∈ s.calls, c.isReturned = true) (request : Request) :
    PairInv { s with calls := s.calls ++ [⟨request, 0, .subscribe⟩] } := by
  have hempty : s.requests = [] ∧ s.reader = .idle := by
    rcases h.phase with ⟨-, he, hidle⟩ | ⟨i, c, hi, -, hph⟩
    · exact ⟨he, hidle⟩
    · have hret := hone c (List.mem_of_getElem? hi)
      unfold Call.isReturned at hret
      unfold Phase at hph
      split at hph <;> simp_all
  refine PairInv.placed (i := s.calls.length) (c := ⟨request, 0, .subscribe⟩) (h.wire.congr rfl rfl rfl) h.live
    (by simp) ?_ hempty
  intro j c hj hne
  rcases of_getElem?_concat hj with hj | ⟨rfl, -⟩
  · exact hone c (List.mem_of_getElem? hj)
  · exact absurd rfl hne

/-- If the queued requests are written then the call at its place waits for its answer. -/
theorem PairInv.waits (h : PairInv s) {el : ℕ} {es : List (ℕ × ℕ)} (hq : s.requests = (el, i) :: es)
    (hpcs : ∀ e ∈ s.requests, ∀ c ∈ s.calls[e.2]?, c.pc = .wait ∨ c.pc = .expire) :
    ∃ c, s.calls[i]? = some c ∧ s.OthersReturned i ∧ (c.pc = .wait ∨ c.pc = .expire) ∧ Waiting s i c ∧
      s.requests = [(el, i)] := by
  have hpcs := hpcs (el, i) (by simp [hq])
  rcases h.phase with ⟨-, he, -⟩ | ⟨j, c, hj, ho, hph⟩
  · cases hq.symm.trans he
  · have hqj : s.requests = [(el, i)] ∧ i = j ∧ (c.pc = .wait ∨ c.pc = .expire → Waiting s j c) := by
      have hone : (s.requests = [] ∨ ∃ el, s.requests = [(el, j)]) → s.requests = [(el, i)] ∧ i = j := by
        rintro (he | ⟨el', he⟩)
        · cases hq.symm.trans he
        · cases hq.symm.trans he
          exact ⟨he, rfl⟩
      cases hpc : c.pc <;> simp only [Phase, hpc] at hph
      case subscribe | reset | enqueue => cases hq.symm.trans hph.1
      case send | unqueue => exact ⟨(hone hph.1).1, (hone hph.1).2, by simp⟩
      case wait | expire => exact ⟨(hone hph.queued).1, (hone hph.queued).2, fun _ => hph⟩
    obtain ⟨hq', rfl, hwait⟩ := hqj
    exact ⟨c, hj, ho, hpcs c hj, hwait (hpcs c hj), hq'⟩

/-- If the camera owes one answer then that is for the last request written. -/
theorem WireInv.owed (h : WireInv s) (hconn : s.connected = true) (hrc : s.readerConn = some s.conn)
    {w w' : Written} (hun : s.unanswered = [w']) (hlast : s.wire.getLast? = some w) : w = w' := by
  obtain ⟨hmem, hw'⟩ : w' ∈ s.wire ∧ (s.readerConn == some w'.conn && w'.sent) = true := by
    have : w' ∈ s.unanswered := by simp [hun]
    exact List.mem_filter.mp (List.mem_of_mem_drop this)
  have hwm : w ∈ s.wire := List.mem_of_getLast? hlast
  have hc : w.conn = s.conn := by
    have h₁ := h.last w hlast w' hmem
    have h₂ := h.le w hwm
    rw [hrc] at hw'
    simp only [Bool.and_eq_true, beq_iff_eq, Option.some.injEq] at hw'
    omega
  have hsent : w.sent = true := by
    by_contra hs
    rcases h.unsent w hwm (Bool.eq_false_iff.mpr hs) with hlt | hf
    · omega
    · rw [hconn] at hf
      cases hf
  have hfl := getLast?_filter (p := fun w => s.readerConn == some w.conn && w.sent) hlast
    (by simp [hrc, hc, hsent])
  have hdl : s.unanswered.getLast? = some w := by
    unfold Remote.unanswered at hun ⊢
    rw [List.getLast?_drop, if_neg, hfl]
    intro hlen
    rw [List.drop_eq_nil_of_le hlen] at hun
    cases hun
  rw [hun] at hdl
  cases hdl
  rfl

/-- **A response arrives.** If a request is queued, then it was the last one written and the
response is the answer to that. -/
theorem PairInv.recv (h : PairInv s) {recv : Bytes} (hcam : s.cameraAnswers recv = true)
    (hp : s.requests ≠ [] → s.OwesOne) : PairInv { s.receive recv with answered := s.answered + 1 } := by
  unfold Remote.cameraAnswers at hcam
  split at hcam
  · rename_i w ws response hun hparse
    cases hq : s.requests with
    | nil =>
      have hrecv : s.receive recv = s := by
        unfold Remote.receive
        rw [hparse, hq]
      rw [hrecv]
      exact h.congr (h.wire.congr rfl rfl rfl) rfl (.inl rfl) rfl rfl rfl rfl
    | cons e es =>
      obtain ⟨el, i⟩ := e
      obtain ⟨hconn, hrc, hlen, hpcs⟩ := hp (by simp [hq])
      obtain ⟨c, hget, ho, hpc, hwait, hq'⟩ := h.waits hq hpcs
      obtain ⟨w', hl, hi⟩ := hwait.written (by simp [hq])
      have hws : ws = [] := by simpa [hun] using hlen
      cases h.wire.owed hconn hrc (hws ▸ hun) hl
      have hrecv : s.receive recv = s.stageAt recv response el i .judge := by
        unfold Remote.receive
        rw [hparse, hq]
      rw [hrecv]
      refine PairInv.placed (i := i) (h.wire.congr rfl rfl rfl) h.live hget ho
        (phase_of_waiting hpc ⟨hwait.queued, hwait.written, fun hne => ?_, ?_⟩)
      · cases hq.symm.trans (hwait.value hne).1
      · intro recv₁ response₁ el₁ j₁ stage₁ hr
        cases hr
        exact ⟨rfl, ⟨w, ⟨hl, hi⟩, eq_of_beq hcam⟩, .inr hq', by simp⟩
  · cases hcam

/-- **One step.** -/
theorem PairInv.step (h : PairInv s) {a : Act} (hone : OneCaller s a) (hp : Prompt s a)
    (hs : s.step a = some t) : PairInv t := by
  cases a with
  | dial ok =>
    cases hs
    unfold Remote.dialLocked
    split_ifs
    · exact h
    · exact h.congr h.wire.dialed rfl (.inl rfl) rfl rfl rfl rfl
  | attach =>
    simp only [Remote.step] at hs
    split_ifs at hs
    cases hs
    exact h.congr (h.wire.congr rfl rfl rfl) rfl (.inl rfl) rfl rfl rfl rfl
  | disconnect =>
    cases hs
    have hw := h.wire.disconnect h.wire.le
    unfold Remote.disconnect at hw ⊢
    split_ifs at hw ⊢
    · exact h.congr hw rfl (.inr rfl) rfl rfl rfl rfl
    · exact h
  | cancel => exact hone.elim
  | shutdown => exact hone.elim
  | call kind url =>
    cases hs
    exact h.call hone (newRequest kind url)
  | teardown session url o => exact hone.elim
  | caller i o => exact h.stepCall hp hs
  | recv recv =>
    simp only [Remote.step] at hs
    split_ifs at hs
    cases hs
    exact h.recv hone hp
  | reader o => exact h.stepReader hs

end

/-! ### The result -/

/-- **Pairing in a prompt run.** One caller issues any requests, with any timeouts, 401
retries, disconnects, write errors and redials, to a camera that answers in order. If every
step is prompt, then in every state reached the response that is being handled is the answer
to what was last written for the request that it is taken to answer. -/
theorem paired_of_prompt (username password : Bytes) (as : List Act) (t : Remote)
    (hone : AllSteps Remote.step OneCaller (newRemote username password) as)
    (hp : AllSteps Remote.step Prompt (newRemote username password) as)
    (h : exec Remote.step (newRemote username password) as = some t) : Paired t :=
  (exec_invariant (C := fun s a => OneCaller s a ∧ Prompt s a)
    (fun _ _ _ hi hc hs => PairInv.step hi hc.1 hc.2 hs) as _ t
    (pairInv_newRemote username password) (hone.and hp) h).paired

instance (s : Remote) : DecidablePred (OneCaller s) := fun a =>
  match a with
  | .call _ _ => inferInstanceAs (Decidable (∀ c ∈ s.calls, _))
  | .recv _ => inferInstanceAs (Decidable (_ = true))
  | .teardown _ _ _ | .cancel | .shutdown => isFalse id
  | .dial _ | .attach | .disconnect | .caller _ _ | .reader _ => isTrue trivial

instance (s : Remote) : Decidable s.OwesOne :=
  inferInstanceAs (Decidable (_ ∧ _ ∧ _ ∧ ∀ e ∈ s.requests, ∀ c ∈ s.calls[e.2]?, c.pc = .wait ∨ c.pc = .expire))

instance (s : Remote) : DecidablePred (Prompt s) := fun a =>
  match a with
  | .recv _ => inferInstanceAs (Decidable (_ → s.OwesOne))
  | .caller i _ => inferInstanceAs (Decidable (∀ c ∈ s.calls[i]?, _ → s.handles i = false))
  | .call _ _ | .teardown _ _ _ | .cancel | .shutdown | .dial _ | .attach | .disconnect | .reader _ =>
    isTrue trivial

/-! ### Two runs -/

/-- A call is made and its request is written. -/
def calls (i : ℕ) (kind : RequestKind) : List Act :=
  [.call kind (ascii "rtsp://cam/"), .caller i .next, .caller i .next, .caller i (.sent fine)]

/-- The request of a call times out and is written once more. -/
def triesAgain (i : ℕ) : List Act :=
  [.caller i .timeout, .caller i .next, .caller i .next, .caller i .next, .caller i .next, .caller i (.sent fine)]

/-- The answer `RTSP/1.0 200 OK` to a request. -/
def okAnswer (cseq : String) : Act := .recv (ascii ("RTSP/1.0 200 OK\r\nCSeq: " ++ cseq ++ "\r\n\r\n"))

/-- The answer comes while the request waits for its second try, and the next answer in time. -/
def inTime : List Act :=
  [.dial true, .attach] ++ calls 0 .options ++ [.caller 0 .timeout, .caller 0 .next, okAnswer "1"] ++
    [.caller 0 .next, .caller 0 .next, .caller 0 .next, .caller 0 (.sent fine), okAnswer "2"]

theorem paired_of_prompt_inTime :
    AllSteps Remote.step OneCaller (newRemote [] []) inTime ∧
    AllSteps Remote.step Prompt (newRemote [] []) inTime ∧
    ∃ t, exec Remote.step (newRemote [] []) inTime = some t ∧ t.reader ≠ .idle ∧ Paired t := by
  have hone : AllSteps Remote.step OneCaller (newRemote [] []) inTime := by decide +kernel
  have hp : AllSteps Remote.step Prompt (newRemote [] []) inTime := by decide +kernel
  have hs : (exec Remote.step (newRemote [] []) inTime).any (fun t => t.reader != .idle) = true := by
    decide +kernel
  obtain ⟨t, ht, hr⟩ := (Option.any_eq_true _ _).mp hs
  exact ⟨hone, hp, t, ht, bne_iff_ne.mp hr, paired_of_prompt [] [] inTime t hone hp ht⟩

/-- OPTIONS times out and is written again, as number 2. The late answer to number 1 is taken
for the answer to that, and OPTIONS returns. DESCRIBE is written, as number 3. The answer to
number 2 is taken for the answer to DESCRIBE. -/
def late : List Act :=
  [.dial true, .attach] ++ calls 0 .options ++ triesAgain 0 ++
    [okAnswer "1", .reader fine, .reader fine, .reader fine, .caller 0 .value] ++
    calls 1 .describe ++ [okAnswer "2"]

/-- **A late answer** goes to another request. -/
theorem late_answer :
    AllSteps Remote.step OneCaller (newRemote [] []) late ∧
    ∃ t, exec Remote.step (newRemote [] []) late = some t ∧ ¬ Paired t := by
  have hs : (exec Remote.step (newRemote [] []) late).any Remote.mispaired = true := by decide +kernel
  obtain ⟨t, ht, hr⟩ := (Option.any_eq_true _ _).mp hs
  exact ⟨by decide +kernel, t, ht, not_paired_of_mispaired hr⟩

end RtspProxy.Upstream
