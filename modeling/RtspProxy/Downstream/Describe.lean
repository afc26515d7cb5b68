import RtspProxy.Lifecycle.Readiness
import RtspProxy.Upstream.Remote
import RtspProxy.Downstream.Client

/-!
# DESCRIBE

`handleDescribe` starts the stream, waits until the channel that `SDPReadyCh` returned is closed, and
answers with the stream's SDP. The channel is closed when the SDP is stored, but also when another
connection attempt begins; and what is stored is whatever the response to the proxy's own DESCRIBE had as
its body.

## The model

`DescribeSys` is a stream with its goroutines (`Sys`), the SDP, where `GetSDP` is in the connect sequence,
what the reader has to report of a response to DESCRIBE, and any number of calls of `handleDescribe`. A
response is handled when the reader takes it for the answer to a DESCRIBE; whether the camera meant it so
is not looked at here. Time is left out: the ten seconds may be over at any time. `sent` only records the
bodies of the successful responses.

## What is proved

* `reply_of_run` — the replies are those of `handleDescribe`, for some view of the stream.
* `describe_of_orderly` — in every run in which the camera answers DESCRIBE with an SDP or an error, and no
  connection attempt begins while a client waits for the SDP of the one before, a reply with the code 200
  has the SDP of a successful response, and the other replies are errors.
* `describe_empty` — a client that waits while its stream is stopped and started again is told that an empty
  text is the SDP.
-/

namespace RtspProxy.Downstream

open Theory Wire Lifecycle

/-! ### Calls of `handleDescribe` -/

/-- Where a call of `handleDescribe` is. -/
inductive DescribePc where
  /-- About to call `Start`. -/
  | start
  /-- About to call `SDPReadyCh`. -/
  | subscribe
  /-- In the `select`, with this channel. -/
  | wait (ch : ℕ)
  /-- The channel is closed, and it is about to look at the state. -/
  | ready
  /-- The time is over, and it is about to look at the SDP. -/
  | timedOut
  /-- About to read the SDP for the reply. -/
  | reply
  /-- Returned. -/
  | replied (response : Response)
  deriving DecidableEq, Repr

/-- A call of `handleDescribe`. -/
structure DescribeCall where
  client : Client
  /-- Where it is. -/
  pc : DescribePc
  deriving DecidableEq, Repr

/-- What a call does next. -/
inductive DescribeChoice where
  /-- The next step, where there is only one. -/
  | next
  /-- The `select` goes on. -/
  | wake (w : Wait)
  /-- The reply, with what else the handler finds out. -/
  | answer (view : StreamView)
  deriving DecidableEq, Repr

/-- Where `GetSDP` is in the connect sequence. -/
inductive SDPPc where
  /-- Not yet called. -/
  | before
  /-- It has sent DESCRIBE. -/
  | asking
  /-- About to read the SDP. -/
  | reading
  /-- Returned. -/
  | got (sdp : Bytes)
  /-- The SDP is stored. -/
  | after
  deriving DecidableEq, Repr

/-- A stream and the clients that ask for its SDP. -/
structure DescribeSys where
  /-- The stream and its goroutines. -/
  sys : Sys
  sdp : Bytes
  /-- Where `GetSDP` is. -/
  sdpPc : SDPPc
  /-- What the reader has to report of a response to DESCRIBE that it handles. -/
  status : Option Upstream.Status
  /-- The calls of `handleDescribe`. -/
  calls : List DescribeCall
  /-- The bodies of the successful responses to DESCRIBE; no step reads this. -/
  sent : List Bytes
  deriving DecidableEq, Repr

/-- `NewStream`. -/
def newDescribeSys : DescribeSys := ⟨newSys, [], .before, none, [], []⟩

/-- Call `i` goes on to `pc`. -/
def DescribeSys.callAt (s : DescribeSys) (i : ℕ) (k : DescribeCall) (pc : DescribePc) : DescribeSys :=
  { s with calls := s.calls.set i { k with pc := pc } }

/-- A step of call `i`. -/
def DescribeSys.stepCall (s : DescribeSys) (i : ℕ) (k : DescribeCall) : DescribePc → DescribeChoice → Option DescribeSys
  | .start, .next => (s.sys.step .start).map fun sys => { s with sys := sys }.callAt i k .subscribe
  | .subscribe, .next => some (s.callAt i k (.wait s.sys.core.sdpReadyCh))
  | .wait _, .wake .shutdown =>
    if s.sys.net.serverDone then some (s.callAt i k (.replied responseBadRequest)) else none
  | .wait ch, .wake .ready => if ch ∈ s.sys.core.closed then some (s.callAt i k .ready) else none
  | .wait _, .wake .timeout => some (s.callAt i k .timedOut)
  | .ready, .next =>
    some (s.callAt i k (if s.sys.core.state = .destroyed then .replied responseNotFound else .reply))
  | .timedOut, .next => some (s.callAt i k (if s.sdp = [] then .replied responseBadRequest else .reply))
  | .reply, .answer view => some (s.callAt i k (.replied (describeReply k.client { view with sdp := s.sdp })))
  | _, _ => none

/-! ### The connect sequence and the reader -/

/-- The loop is in `doConnectSequence`. -/
def inSequence : LoopPc → Bool
  | .handshake _ | .starting _ _ => true
  | _ => false

/-- A response is handed to `handleDescribe` of the remote, with `request.Attempts` read. -/
def isHandled (response : Response) (attempts : ℕ) : Bool :=
  !(response.code = 401 && attempts = 0) && response.code < 400

/-- A response with a code that means success. -/
def isSuccess (response : Response) : Bool := 200 ≤ response.code && response.code < 300

/-- `HandleUpstreamResponse`, up to its report. -/
def DescribeSys.handle (s : DescribeSys) (response : Response) (attempts : ℕ) : DescribeSys :=
  { s with
    sdp := if isHandled response attempts then response.body else s.sdp
    status := some (Upstream.verdict response attempts)
    sent := if isSuccess response then response.body :: s.sent else s.sent }

/-- After a step of the stream: `GetSDP` begins anew with the next connect sequence. -/
def DescribeSys.setSys (s : DescribeSys) (sys : Sys) : DescribeSys :=
  { s with sys := sys, sdpPc := if sys.loop.any inSequence then s.sdpPc else .before }

/-- The steps of the stream that are no part of the DESCRIBE exchange. -/
def DescribeSys.other (s : DescribeSys) : Act → Bool
  | .loop .sdp => false
  | .reader _ => s.status.isNone
  | _ => true

/-- The actions. -/
inductive DescribeAct where
  /-- Another step of the stream. -/
  | stream (a : Act)
  /-- `GetSDP` looks whether there is an SDP, and asks the camera if there is none. -/
  | getSDP
  /-- `GetSDP` returns. -/
  | returnSDP
  /-- The SDP-ready step. -/
  | sdpReady
  /-- The reader handles a response to DESCRIBE. -/
  | received (response : Response) (attempts : ℕ)
  /-- The reader reports its status. -/
  | report
  /-- `handleDescribe` is called. -/
  | describe (client : Client)
  /-- A step of call `i`. -/
  | call (i : ℕ) (o : DescribeChoice)
  deriving DecidableEq, Repr

/-- The SDP-ready step, once `GetSDP` has returned. -/
def DescribeSys.storeSDP (s : DescribeSys) : Option DescribeSys :=
  match s.sdpPc with
  | .got sdp => (s.sys.step (.loop .sdp)).map fun sys => { s with sys := sys, sdp := sdp, sdpPc := .after }
  | _ => none

/-- The reader reports a status: `SendRequestSync` goes on if it is `"ok"`. -/
def DescribeSys.report (s : DescribeSys) (status : Upstream.Status) : Option DescribeSys :=
  (s.sys.step (.reader .handled)).map fun sys =>
    { s with sys := sys, status := none,
             sdpPc := if status = .ok ∧ s.sdpPc = .asking then .reading else s.sdpPc }

/-- One step. -/
def DescribeSys.step (s : DescribeSys) (a : DescribeAct) : Option DescribeSys :=
  if s.sys.crashed then none
  else match a with
    | .stream a => if s.other a then (s.sys.step a).map s.setSys else none
    | .getSDP =>
      if s.sys.loop.any inSequence ∧ s.sdpPc = .before then
        some { s with sdpPc := if s.sdp = [] then .asking else .reading }
      else none
    | .returnSDP => if s.sdpPc = .reading then some { s with sdpPc := .got s.sdp } else none
    | .sdpReady => s.storeSDP
    | .received response attempts =>
      match s.sys.reader, s.status with
      | some (.handling _), none => some (s.handle response attempts)
      | _, _ => none
    | .report => s.status.bind s.report
    | .describe client => some { s with calls := s.calls ++ [⟨client, .start⟩] }
    | .call i o => (s.calls[i]?).bind fun k => s.stepCall i k k.pc o

/-! ### The replies are those of the handler -/

/-- What a step of a call does to the calls. A reply is one that `handleDescribe` gives. -/
theorem stepCall_calls {s t : DescribeSys} {i : ℕ} {k : DescribeCall} {pc : DescribePc} {o : DescribeChoice}
    (h : s.stepCall i k pc o = some t) : ∃ pc', t.calls = s.calls.set i { k with pc := pc' } ∧
      ∀ response, pc' = .replied response → ∃ view, response = handleDescribe k.client view := by
  unfold DescribeSys.stepCall at h
  split at h
  case h_1 =>
    obtain ⟨sys, -, rfl⟩ := Option.map_eq_some_iff.mp h
    exact ⟨.subscribe, rfl, by simp⟩
  case h_2 =>
    cases h
    exact ⟨_, rfl, by simp⟩
  case h_3 =>
    obtain ⟨-, h⟩ := Option.ite_none_right_eq_some.mp h
    cases h
    refine ⟨_, rfl, ?_⟩
    rintro _ ⟨⟩
    exact ⟨⟨[], [], [], [], .shutdown, .ready, false, false, []⟩, rfl⟩
  case h_4 =>
    obtain ⟨-, h⟩ := Option.ite_none_right_eq_some.mp h
    cases h
    exact ⟨_, rfl, by simp⟩
  case h_5 =>
    cases h
    exact ⟨_, rfl, by simp⟩
  case h_6 =>
    cases h
    refine ⟨_, rfl, ?_⟩
    intro response hpc
    split_ifs at hpc
    cases hpc
    exact ⟨⟨[], [], [], [], .ready, .ready, true, false, []⟩, rfl⟩
  case h_7 =>
    cases h
    refine ⟨_, rfl, ?_⟩
    intro response hpc
    split_ifs at hpc
    cases hpc
    exact ⟨⟨[], [], [], [], .timeout, .ready, false, false, []⟩, rfl⟩
  case h_8 view =>
    cases h
    refine ⟨_, rfl, ?_⟩
    rintro _ ⟨⟩
    exact ⟨{ view with sdp := s.sdp, sdpWait := .ready, destroyed := false }, rfl⟩
  case h_9 => cases h

/-- The SDP-ready step is possible once `GetSDP` has returned. -/
theorem storeSDP_eq_some {s t : DescribeSys} (h : s.storeSDP = some t) : ∃ sdp sys, s.sdpPc = .got sdp ∧
    s.sys.step (.loop .sdp) = some sys ∧ t = { s with sys := sys, sdp := sdp, sdpPc := .after } := by
  unfold DescribeSys.storeSDP at h
  split at h
  · rename_i sdp hgot
    obtain ⟨sys, hstep, rfl⟩ := Option.map_eq_some_iff.mp h
    exact ⟨sdp, sys, hgot, hstep, rfl⟩
  · cases h

theorem step_calls {s t : DescribeSys} {a : DescribeAct} (h : s.step a = some t) : t.calls = s.calls ∨
    (∃ client, t.calls = s.calls ++ [⟨client, .start⟩]) ∨
      ∃ (i : ℕ) (k : DescribeCall) (pc : DescribePc), t.calls = s.calls.set i { k with pc := pc } ∧
        ∀ response, pc = .replied response → ∃ view, response = handleDescribe k.client view := by
  unfold DescribeSys.step at h
  obtain ⟨-, h⟩ := Option.ite_none_left_eq_some.mp h
  cases a with
  | stream a =>
    obtain ⟨-, h⟩ := Option.ite_none_right_eq_some.mp h
    obtain ⟨sys, -, rfl⟩ := Option.map_eq_some_iff.mp h
    exact .inl rfl
  | getSDP =>
    obtain ⟨-, h⟩ := Option.ite_none_right_eq_some.mp h
    cases h
    exact .inl rfl
  | returnSDP =>
    obtain ⟨-, h⟩ := Option.ite_none_right_eq_some.mp h
    cases h
    exact .inl rfl
  | sdpReady =>
    obtain ⟨sdp, sys, -, -, rfl⟩ := storeSDP_eq_some h
    exact .inl rfl
  | received response attempts =>
    dsimp only at h
    split at h
    · cases h
      exact .inl rfl
    · cases h
  | report =>
    obtain ⟨status, -, h⟩ := Option.bind_eq_some_iff.mp h
    obtain ⟨sys, -, rfl⟩ := Option.map_eq_some_iff.mp h
    exact .inl rfl
  | describe client =>
    cases h
    exact .inr (.inl ⟨client, rfl⟩)
  | call i o =>
    obtain ⟨k, -, h⟩ := Option.bind_eq_some_iff.mp h
    exact .inr (.inr ⟨i, k, stepCall_calls h⟩)

/-- **Every reply is one of the handler's**, for some view of the stream. -/
theorem reply_of_run (as : List DescribeAct) (s : DescribeSys)
    (hrun : exec DescribeSys.step newDescribeSys as = some s) :
    ∀ k ∈ s.calls, ∀ response, k.pc = .replied response → ∃ view, response = handleDescribe k.client view := by
  refine exec_invariant (C := fun _ _ => True) (I := fun s => ∀ k ∈ s.calls, ∀ response, k.pc = .replied response →
    ∃ view, response = handleDescribe k.client view) ?_ as newDescribeSys s (by simp [newDescribeSys]) ?_ hrun
  · intro s a t hs _ h k hk
    rcases step_calls h with heq | ⟨client, heq⟩ | ⟨i, k', pc, heq, hreply⟩ <;> rw [heq] at hk
    · exact hs k hk
    · rcases List.mem_append.mp hk with hk | hk
      · exact hs k hk
      · rw [List.mem_singleton.mp hk]
        simp
    · rcases List.mem_or_eq_of_mem_set hk with hk | rfl
      · exact hs k hk
      · exact hreply
  · exact allSteps_of_forall (P := fun _ => True) fun _ _ => trivial

/-! ### When the replies are right -/

/-- A reply that is an error, or has the SDP of a successful response. -/
def RealReply (sent : List Bytes) (client : Client) (response : Response) : Prop :=
  400 ≤ response.code ∨ response.code = 200 ∧ ∃ sdp ∈ sent, sdp ≠ [] ∧ response.body = rewriteSDP client sdp

/-- The step begins a connection attempt. -/
def DescribeSys.connects (s : DescribeSys) : DescribeAct → Bool
  | .stream a => s.sys.connects a
  | .call i _ => (s.calls[i]?).any (fun k => k.pc = .start) && s.sys.connects .start
  | _ => false

/-- A client waits, with no SDP there, on a channel that the next connection attempt closes. -/
def DescribeSys.Waits (s : DescribeSys) : Prop :=
  (s.sys.core.state = .disconnected ∨ s.sys.core.state = .reconnecting) ∧ s.sdp = [] ∧
    ∃ k ∈ s.calls, k.pc = .wait s.sys.core.sdpReadyCh

instance (s : DescribeSys) : Decidable s.Waits := inferInstanceAs (Decidable (_ ∧ _ ∧ _))

/-- A response to DESCRIBE that is taken for a success is one, and has an SDP. -/
def DescribeAct.Honest : DescribeAct → Prop
  | .received response attempts =>
    Upstream.verdict response attempts = .ok → isSuccess response = true ∧ response.body ≠ []
  | _ => True

instance : DecidablePred DescribeAct.Honest := fun a =>
  match a with
  | .received _ _ => inferInstanceAs (Decidable (_ → _))
  | .stream _ | .getSDP | .returnSDP | .sdpReady | .report | .describe _ | .call _ _ => isTrue trivial

/-- No connection attempt begins while a client waits for the SDP of the one before, and the camera
answers DESCRIBE with an SDP or an error. -/
def Orderly (s : DescribeSys) (a : DescribeAct) : Prop := (s.connects a = true → ¬ s.Waits) ∧ a.Honest

instance (s : DescribeSys) : DecidablePred (Orderly s) := fun _ => inferInstanceAs (Decidable (_ ∧ _))

/-! ### The invariant -/

/-- Nobody needs to wait for an SDP any more. -/
def DescribeSys.Served (s : DescribeSys) : Prop := s.sdp ≠ [] ∨ s.sys.core.state = .destroyed

/-- What holds of a call where it is. -/
def DescribePc.Right (s : DescribeSys) (client : Client) : DescribePc → Prop
  | .start | .subscribe | .timedOut => True
  | .wait ch => ch = s.sys.core.sdpReadyCh ∨ s.Served
  | .ready => s.Served
  | .reply => s.sdp ≠ []
  | .replied response => RealReply s.sent client response

/-- What a run of orderly steps keeps. -/
structure DescribeInv (s : DescribeSys) : Prop where
  /-- The channels are good. -/
  good : s.sys.core.Good
  /-- The SDP was sent. -/
  sdp : s.sdp ≠ [] → s.sdp ∈ s.sent
  /-- What was sent is an SDP. -/
  sent : ∀ sdp ∈ s.sent, sdp ≠ []
  /-- Before it returns, `GetSDP` has an SDP to read. -/
  reading : s.sdpPc = .reading → s.sdp ≠ []
  /-- What `GetSDP` has returned was sent. -/
  got : ∀ sdp, s.sdpPc = .got sdp → sdp ∈ s.sent
  /-- The reader reports a success only with an SDP. -/
  status : s.status = some .ok → s.sdp ≠ []
  /-- The current channel is closed only when nobody needs to wait. -/
  current : s.sys.core.sdpReadyCh ∈ s.sys.core.closed → s.Served
  calls : ∀ k ∈ s.calls, k.pc.Right s k.client

variable {s t : DescribeSys}

theorem newDescribeSys_inv : DescribeInv newDescribeSys := by
  refine ⟨newCore_good, ?_, ?_, ?_, ?_, ?_, ?_, ?_⟩ <;> simp [newDescribeSys, newSys, newCore]

/-- What a call has to know of a change elsewhere. -/
theorem DescribePc.Right.mono {client : Client} {pc : DescribePc} (h : pc.Right s client)
    (hwait : pc = .wait s.sys.core.sdpReadyCh → s.sys.core.sdpReadyCh = t.sys.core.sdpReadyCh ∨ t.Served)
    (hserved : s.Served → t.Served) (hsdp : s.sdp ≠ [] → t.sdp ≠ []) (hsent : ∀ sdp ∈ s.sent, sdp ∈ t.sent) :
    pc.Right t client := by
  cases pc with
  | start => trivial
  | subscribe => trivial
  | timedOut => trivial
  | wait ch =>
    rcases h with rfl | h
    · exact hwait rfl
    · exact .inr (hserved h)
  | ready => exact hserved h
  | reply => exact hsdp h
  | replied response =>
    refine Or.imp_right (And.imp_right ?_) h
    rintro ⟨sdp, hmem, hbody⟩
    exact ⟨sdp, hsent sdp hmem, hbody⟩

/-- **A step of the stream** that is no part of the DESCRIBE exchange. -/
theorem DescribeInv.sysStep (hs : DescribeInv s) {a : Act} {sys : Sys} (h : s.sys.step a = some sys)
    (ha : a ≠ .loop .sdp) (hw : s.sys.connects a = true → ¬ s.Waits) : DescribeInv { s with sys := sys } := by
  rcases (effect_of_step h).core with ⟨-, hsdp⟩ | ⟨target, hc, htarget⟩
  · exact absurd hsdp ha
  have hserved : s.Served → DescribeSys.Served { s with sys := sys } := Or.imp_right hc.follows.destroyed
  refine ⟨hc.good hs.good, hs.sdp, hs.sent, hs.reading, hs.got, hs.status, ?_, ?_⟩
  · intro hclosed
    rcases hc.sdpReadyCh_closed hs.good hclosed with hd | hold
    · exact .inr hd
    · exact hserved (hs.current hold)
  · intro k hk
    refine (hs.calls k hk).mono ?_ hserved id fun _ h => h
    intro hpc
    rcases hc.sdpReadyCh_eq with heq | ⟨hconn, hfrom⟩
    · exact .inl heq.symm
    · -- the attempt closes the channel: then there is an SDP
      refine .inr (.inl fun hnil => hw (htarget hconn) ⟨hfrom, hnil, k, hk, hpc⟩)

theorem DescribeInv.before (hs : DescribeInv s) : DescribeInv { s with sdpPc := .before } :=
  { hs with reading := by simp, got := by simp }

theorem DescribeInv.callAt (hs : DescribeInv s) (i : ℕ) (k : DescribeCall) {pc : DescribePc}
    (hpc : pc.Right s k.client) : DescribeInv (s.callAt i k pc) := by
  refine { hs with calls := ?_ }
  intro k' hk'
  rcases List.mem_or_eq_of_mem_set hk' with hk' | rfl
  · exact hs.calls k' hk'
  · exact hpc

/-- **A step of a call.** -/
theorem DescribeInv.stepCall (hs : DescribeInv s) {i : ℕ} {k : DescribeCall} {pc : DescribePc}
    (hright : pc.Right s k.client) {o : DescribeChoice}
    (hw : pc = .start → s.sys.connects .start = true → ¬ s.Waits) (h : s.stepCall i k pc o = some t) :
    DescribeInv t := by
  unfold DescribeSys.stepCall at h
  split at h
  case h_1 =>
    obtain ⟨sys, hstep, rfl⟩ := Option.map_eq_some_iff.mp h
    apply DescribeInv.callAt (hs.sysStep hstep (by simp) (hw rfl))
    trivial
  case h_2 =>
    cases h
    exact hs.callAt i k (.inl rfl)
  case h_3 =>
    obtain ⟨-, h⟩ := Option.ite_none_right_eq_some.mp h
    cases h
    exact hs.callAt i k (.inl (by decide))
  case h_4 ch =>
    -- the channel is closed: it is the current one, or nobody needs to wait
    obtain ⟨hclosed, h⟩ := Option.ite_none_right_eq_some.mp h
    cases h
    apply hs.callAt
    rcases hright with rfl | hserved
    · exact hs.current hclosed
    · exact hserved
  case h_5 =>
    cases h
    apply hs.callAt
    trivial
  case h_6 =>
    cases h
    apply hs.callAt
    split_ifs with hd
    · exact .inl (by decide)
    · exact hright.resolve_right hd
  case h_7 =>
    cases h
    apply hs.callAt
    split_ifs with hnil
    · exact .inl (by decide)
    · exact hnil
  case h_8 view =>
    cases h
    apply hs.callAt
    exact .inr ⟨rfl, s.sdp, hs.sdp hright, hright, rfl⟩
  case h_9 => cases h

/-! ### The SDP -/

theorem isHandled_of_isSuccess {response : Response} (h : isSuccess response = true) (attempts : ℕ) :
    isHandled response attempts = true := by
  simp only [isSuccess, Bool.and_eq_true, decide_eq_true_eq] at h
  simp only [isHandled, Bool.and_eq_true, Bool.not_eq_true', Bool.and_eq_false_iff, decide_eq_false_iff_not,
    decide_eq_true_eq]
  exact ⟨.inl (by omega), by omega⟩

/-- What is handed to the handler is reported as a success. -/
theorem verdict_of_isHandled {response : Response} {attempts : ℕ} (h : isHandled response attempts = true) :
    Upstream.verdict response attempts = .ok := by
  simp only [isHandled, Bool.and_eq_true, Bool.not_eq_true', Bool.and_eq_false_iff, decide_eq_false_iff_not,
    decide_eq_true_eq] at h
  rw [Upstream.verdict, if_neg, if_neg]
  · omega
  · tauto

/-- Once there is an SDP, nobody waits for one. -/
theorem DescribeInv.served (hs : DescribeInv s) (hgood : t.sys.core.Good) (hsdp : t.sdp ∈ t.sent)
    (hsent : ∀ sdp ∈ t.sent, sdp ≠ []) (hmono : ∀ sdp ∈ s.sent, sdp ∈ t.sent)
    (hgot : ∀ sdp, t.sdpPc = .got sdp → sdp ∈ t.sent) (hcalls : t.calls = s.calls) : DescribeInv t := by
  have hne := hsent t.sdp hsdp
  have hserved : t.Served := .inl hne
  refine ⟨hgood, fun _ => hsdp, hsent, fun _ => hne, hgot, fun _ => hne, fun _ => hserved, ?_⟩
  intro k hk
  rw [hcalls] at hk
  exact (hs.calls k hk).mono (fun _ => .inr hserved) (fun _ => hserved) (fun _ => hne) hmono

/-- **The reader handles a response to DESCRIBE.** -/
theorem DescribeInv.handle (hs : DescribeInv s) {response : Response} {attempts : ℕ}
    (hhonest : Upstream.verdict response attempts = .ok → isSuccess response = true ∧ response.body ≠ []) :
    DescribeInv (s.handle response attempts) := by
  by_cases hsuccess : isSuccess response = true
  · have hhandled := isHandled_of_isSuccess hsuccess attempts
    obtain ⟨-, hbody⟩ := hhonest (verdict_of_isHandled hhandled)
    have heq : s.handle response attempts =
        { s with
          sdp := response.body
          status := some (Upstream.verdict response attempts)
          sent := response.body :: s.sent } := by
      rw [DescribeSys.handle, if_pos hhandled, if_pos hsuccess]
    rw [heq]
    refine hs.served hs.good List.mem_cons_self ?_ (fun sdp h => List.mem_cons_of_mem _ h) ?_ rfl
    · intro sdp hmem
      rcases List.mem_cons.mp hmem with rfl | hmem
      · exact hbody
      · exact hs.sent sdp hmem
    · exact fun sdp hgot => List.mem_cons_of_mem _ (hs.got sdp hgot)
  · -- neither handled nor reported as a success
    have hverdict : Upstream.verdict response attempts ≠ .ok := fun h => hsuccess (hhonest h).1
    have hhandled : ¬ isHandled response attempts = true := fun h => hverdict (verdict_of_isHandled h)
    have heq : s.handle response attempts = { s with status := some (Upstream.verdict response attempts) } := by
      rw [DescribeSys.handle, if_neg hhandled, if_neg hsuccess]
    rw [heq]
    exact { hs with status := fun h => absurd (Option.some.inj h) hverdict }

/-- **The SDP-ready step.** -/
theorem DescribeInv.storeSDP (hs : DescribeInv s) (h : s.storeSDP = some t) : DescribeInv t := by
  obtain ⟨sdp, sys, hgot, hstep, rfl⟩ := storeSDP_eq_some h
  exact hs.served (core_good_of_step hs.good hstep) (hs.got sdp hgot) hs.sent (fun _ h => h) (by simp) rfl

theorem DescribeInv.report (hs : DescribeInv s) {status : Upstream.Status} (hstatus : s.status = some status)
    (h : s.report status = some t) : DescribeInv t := by
  obtain ⟨sys, hstep, rfl⟩ := Option.map_eq_some_iff.mp h
  have hsys := hs.sysStep hstep (by simp) (by simp [Sys.connects])
  refine { hsys with status := by simp, reading := ?_, got := ?_ }
  · intro hpc
    dsimp only at hpc
    split_ifs at hpc with hok
    · exact hs.status (by rw [hstatus, hok.1])
    · exact hs.reading hpc
  · intro sdp hpc
    dsimp only at hpc
    split_ifs at hpc
    exact hs.got sdp hpc

/-! ### Runs -/

/-- **One step** that is orderly. -/
theorem DescribeInv.step (hs : DescribeInv s) {a : DescribeAct} (hc : Orderly s a) (h : s.step a = some t) :
    DescribeInv t := by
  unfold DescribeSys.step at h
  obtain ⟨-, h⟩ := Option.ite_none_left_eq_some.mp h
  obtain ⟨hw, hhonest⟩ := hc
  cases a with
  | stream a =>
    obtain ⟨hother, h⟩ := Option.ite_none_right_eq_some.mp h
    obtain ⟨sys, hstep, rfl⟩ := Option.map_eq_some_iff.mp h
    have ha : a ≠ .loop .sdp := by
      rintro rfl
      cases hother
    have hsys := hs.sysStep hstep ha hw
    unfold DescribeSys.setSys
    split_ifs
    · exact hsys
    · exact hsys.before
  | getSDP =>
    obtain ⟨-, h⟩ := Option.ite_none_right_eq_some.mp h
    cases h
    refine { hs with reading := ?_, got := ?_ }
    · intro hpc
      dsimp only at hpc
      split_ifs at hpc with hnil
      exact hnil
    · intro sdp hpc
      dsimp only at hpc
      split_ifs at hpc
  | returnSDP =>
    obtain ⟨hpc, h⟩ := Option.ite_none_right_eq_some.mp h
    cases h
    refine { hs with reading := by simp, got := ?_ }
    rintro sdp ⟨⟩
    exact hs.sdp (hs.reading hpc)
  | sdpReady => exact hs.storeSDP h
  | received response attempts =>
    dsimp only at h
    split at h
    · cases h
      exact hs.handle hhonest
    · cases h
  | report =>
    obtain ⟨status, hstatus, h⟩ := Option.bind_eq_some_iff.mp h
    exact hs.report hstatus h
  | describe client =>
    cases h
    refine { hs with calls := ?_ }
    intro k hk
    rcases List.mem_append.mp hk with hk | hk
    · exact hs.calls k hk
    · rw [List.mem_singleton.mp hk]
      trivial
  | call i o =>
    obtain ⟨k, hk, h⟩ := Option.bind_eq_some_iff.mp h
    refine hs.stepCall (hs.calls k (List.mem_of_getElem? hk)) ?_ h
    intro hpc hconnects
    apply hw
    simp [DescribeSys.connects, hk, hpc, hconnects]

/-- **DESCRIBE answers 200 only with a real SDP**, in every run in which no connection attempt begins while
a client waits for the SDP of the one before, and the camera answers DESCRIBE with an SDP or an error: every
other reply is an error. -/
theorem describe_of_orderly (as : List DescribeAct) (s : DescribeSys)
    (hrun : exec DescribeSys.step newDescribeSys as = some s)
    (hcond : AllSteps DescribeSys.step Orderly newDescribeSys as) :
    ∀ k ∈ s.calls, ∀ response, k.pc = .replied response → RealReply s.sent k.client response := by
  have hs : DescribeInv s := by
    refine exec_invariant (I := DescribeInv) ?_ as newDescribeSys s newDescribeSys_inv hcond hrun
    intro s a t hs hc h
    exact hs.step hc h
  intro k hk response hpc
  have hright := hs.calls k hk
  rw [hpc] at hright
  exact hright

/-- A client. -/
def plainClient : Client := newClient (ascii "10.0.0.1") (ascii "10.0.0.9")

/-- What the handler finds out for the other headers. -/
def plainView : StreamView := ⟨[], ascii "camera", ascii "/live", [], .ready, .ready, false, false, []⟩

/-- A call that has told the client this SDP. -/
def told (sdp : Bytes) : DescribeCall :=
  ⟨plainClient, .replied (describeReply plainClient { plainView with sdp := sdp })⟩

/-- The loop from its start to the connect sequence, with the reader reading. -/
def toSequence : List DescribeAct :=
  [.stream (.loop .next), .stream (.loop .next), .stream (.loop .next), .stream (.loop (.made true)),
    .stream (.loop (.dialed true)), .stream (.loop .next), .stream (.reader .next), .stream (.reader .next)]

/-- A client asks, the camera answers, and the client is told. -/
def describeOnce : List DescribeAct :=
  [.describe plainClient, .call 0 .next, .call 0 .next] ++ toSequence ++
    [.getSDP, .stream (.loop (.sent .ok)), .stream (.reader (.message true)),
      .received ⟨ascii "OK", ascii "RTSP/1.0", 200, [], ascii "c=IN IP4 0.0.0.0"⟩ 0, .report, .returnSDP, .sdpReady,
      .call 0 (.wake .ready), .call 0 .next, .call 0 (.answer plainView)]

/-- The client gets the camera's SDP with the proxy's address. -/
theorem describe_once : ∃ s response, exec DescribeSys.step newDescribeSys describeOnce = some s ∧
    ⟨plainClient, .replied response⟩ ∈ s.calls ∧ response.body = ascii "c=IN IP4 10.0.0.1" ∧
    RealReply s.sent plainClient response := by
  have hrun : (exec DescribeSys.step newDescribeSys describeOnce).any
      (fun s => told (ascii "c=IN IP4 0.0.0.0") ∈ s.calls) = true := by decide +kernel
  obtain ⟨s, hrun, hs⟩ := (Option.any_eq_true _ _).mp hrun
  have hk := of_decide_eq_true hs
  refine ⟨s, _, hrun, hk, by decide +kernel, ?_⟩
  exact describe_of_orderly describeOnce s hrun (by decide +kernel) _ hk _ rfl

/-- The camera is silent. A client's time is over; the next one waits when the idle timer stops the stream,
and a third one starts it again. -/
def stoppedAndStarted : List DescribeAct :=
  [.describe plainClient, .call 0 .next, .call 0 .next] ++ toSequence ++
    [.stream (.loop (.sent .ok)), .call 0 (.wake .timeout), .call 0 .next,
      .describe plainClient, .call 1 .next, .call 1 .next,
      .stream .stop, .stream (.closer 0 .ok), .stream (.closer 0 .ok), .stream (.closer 0 .ok),
      .stream (.closer 0 .ok), .stream (.closer 0 .ok),
      .describe plainClient, .call 2 .next,
      .call 1 (.wake .ready), .call 1 .next, .call 1 (.answer plainView)]

/-- **A 200 without an SDP**: the third client's `Start` closes the channel that the second one waits on, and
the second is told that an empty text is the SDP. The camera has sent none. -/
theorem describe_empty : ∃ s response, exec DescribeSys.step newDescribeSys stoppedAndStarted = some s ∧ s.sent = [] ∧
    ⟨plainClient, .replied response⟩ ∈ s.calls ∧ response.code = 200 ∧ response.body = [] := by
  have hrun : (exec DescribeSys.step newDescribeSys stoppedAndStarted).any
      (fun s => s.sent = [] ∧ told [] ∈ s.calls) = true := by decide +kernel
  obtain ⟨s, hrun, hs⟩ := (Option.any_eq_true _ _).mp hrun
  obtain ⟨hsent, hk⟩ := of_decide_eq_true hs
  exact ⟨s, _, hrun, hsent, hk, rfl, rfl⟩

end RtspProxy.Downstream
