import RtspProxy.Upstream.Effect
import Mathlib.Logic.Function.Basic

/-!
# Success

`SendRequestSync` returns nil when `HandleUpstreamResponse` reports `"ok"` for its request. That
is what it reports unless some branch says otherwise, and the branch for a first 401 response
without a `WWW-Authenticate` does not (`ok_after_401`).

## The model

`Answered` is a remote with a record: which calls are calls of `SendRequestSync`, and for each
channel the response whose status was put into it.

## What is proved

* `Named` — the steps of the reader that report what the camera said: a first 401 response has a
  `WWW-Authenticate`.
* `success_of_named` — in every run of such steps, a call that returns nil was completed by a
  response with a code below 400.
-/

namespace RtspProxy.Upstream

open Theory Wire

/-! ### The system -/

/-- A remote, with a record of its calls and of what completed them. -/
structure Answered where
  remote : Remote
  /-- The calls of `SendRequestSync`. -/
  sync : List ℕ
  /-- The response whose status was put into a channel. -/
  completed : ℕ → Option Response

/-- `NewRemote`. -/
def newAnswered (username password : Bytes) : Answered := ⟨newRemote username password, [], fun _ => none⟩

/-- The channel has room for a status. -/
def Remote.hasRoom (s : Remote) (ch : ℕ) : Bool := (s.chans[ch]?).any fun c => !c.closed && c.val.isNone

/-- The channel that an action puts a status into, and the response it reports. -/
def Remote.completes (s : Remote) : Act → Option (ℕ × Response)
  | .reader _ =>
    match s.reader with
    | .handling _ response _ call (.notify _) =>
      (s.calls[call]?).bind fun c => c.request.sub.bind fun ch => if s.hasRoom ch then some (ch, response) else none
    | _ => none
  | _ => none

/-- A step of the remote, recorded. -/
def Answered.step (s : Answered) (a : Act) : Option Answered :=
  (s.remote.step a).map fun t =>
    { remote := t
      sync := match a with
        | .call _ _ => s.sync ++ [s.remote.calls.length]
        | _ => s.sync
      completed := match s.remote.completes a with
        | some (ch, response) => Function.update s.completed ch (some response)
        | none => s.completed }

/-- **Success means success**: a call of `SendRequestSync` that has returned nil was completed by a
response with a code below 400. -/
def Success (s : Answered) : Prop :=
  ∀ i ∈ s.sync, ∀ c, s.remote.calls[i]? = some c → c.pc = .returned .ok →
    ∃ ch response, c.request.sub = some ch ∧ s.completed ch = some response ∧ response.code < 400

/-! ### The steps that are safe -/

/-- A 401 response to a request that was not tried again has a `WWW-Authenticate`. -/
def Remote.NamedReader (s : Remote) : ReaderPc → Prop
  | .handling _ response _ call .judge => ∀ c ∈ s.calls[call]?, response.code = 401 →
      c.request.attempts = 0 → headerGet response.headers (ascii "WWW-Authenticate") ≠ []
  | _ => True

/-- The steps at which this matters are the reader's. -/
def Named (s : Answered) : Act → Prop
  | .reader _ => s.remote.NamedReader s.remote.reader
  | _ => True

instance (s : Remote) : DecidablePred s.NamedReader := fun pc =>
  match pc with
  | .handling _ _ _ _ .judge => inferInstanceAs (Decidable (∀ c ∈ _, _ → _ → _))
  | .handling _ _ _ _ (.auth _) | .handling _ _ _ _ .bump | .handling _ _ _ _ .resend
  | .handling _ _ _ _ (.finalize _) | .handling _ _ _ _ (.notify _) | .idle => isTrue trivial

instance (s : Answered) : DecidablePred (Named s) := fun a =>
  match a with
  | .reader _ => inferInstanceAs (Decidable (s.remote.NamedReader s.remote.reader))
  | .dial _ | .attach | .disconnect | .cancel | .shutdown | .call _ _ | .teardown _ _ _ | .caller _ _ | .recv _ =>
    isTrue trivial

/-! ### The invariant -/

/-- What the reader is about to report as ok is ok. -/
def ReaderPc.Truthful : ReaderPc → Prop
  | .handling _ response _ _ (.finalize .ok) | .handling _ response _ _ (.notify .ok) => response.code < 400
  | _ => True

/-- What named steps keep. -/
structure Truthful (s : Answered) : Prop where
  /-- The reader reports as ok what is ok. -/
  reader : s.remote.reader.Truthful
  /-- So do the channels. -/
  chans : ∀ ch, s.remote.chanVal (some ch) = some .ok → ∃ response, s.completed ch = some response ∧ response.code < 400
  /-- A channel that was completed has a value. -/
  full : ∀ ch, (s.completed ch).isSome = true → (s.remote.chanVal (some ch)).isSome = true
  /-- The calls recorded have been made. -/
  sync : ∀ i ∈ s.sync, i < s.remote.calls.length
  /-- Success so far. -/
  success : Success s

theorem truthful_newAnswered (username password : Bytes) : Truthful (newAnswered username password) := by
  refine ⟨trivial, ?_, ?_, ?_, ?_⟩ <;> simp [newAnswered, newRemote, Remote.chanVal, Success]

/-! ### Steps that report nothing -/

/-- A step that puts nothing into a channel, and after which a call has returned nil only if it had
before, if ok is in its channel, or if it is new. -/
structure Unreported (s t : Remote) : Prop where
  /-- The channels have their values. -/
  chans : ∀ ch, t.chanVal ch = s.chanVal ch
  /-- The calls are there. -/
  length : s.calls.length ≤ t.calls.length
  /-- The calls that have returned nil. -/
  returns : ∀ (i : ℕ) (c : Call), t.calls[i]? = some c → c.pc = .returned .ok →
    (∃ c', s.calls[i]? = some c' ∧ c'.pc = .returned .ok ∧ c'.request.sub = c.request.sub) ∨
      s.chanVal c.request.sub = some .ok ∨ s.calls.length ≤ i

section
variable {s t : Remote} {a : Act}

theorem chanVal_congr (h : t.chans = s.chans) (ch : Option ℕ) : t.chanVal ch = s.chanVal ch := by
  simp only [Remote.chanVal, h]

theorem unreported_of_calls (hch : ∀ ch, t.chanVal ch = s.chanVal ch) (h : t.calls = s.calls) : Unreported s t :=
  ⟨hch, by rw [h], fun _ c hc hpc => .inl ⟨c, h ▸ hc, hpc, rfl⟩⟩

/-- A change of one call that makes it return nil only if it had. -/
theorem unreported_modify {i : ℕ} {f : Call → Call} (hch : ∀ ch, t.chanVal ch = s.chanVal ch)
    (h : t.calls = s.calls.modify i f)
    (hf : ∀ c, s.calls[i]? = some c → (f c).pc = .returned .ok →
      c.pc = .returned .ok ∧ c.request.sub = (f c).request.sub) : Unreported s t := by
  refine ⟨hch, by rw [h, List.length_modify], fun j c hc hpc => ?_⟩
  rw [h] at hc
  obtain ⟨c', hc', ⟨rfl, rfl⟩ | ⟨-, rfl⟩⟩ := of_getElem?_modify hc
  · obtain ⟨hpc', hsub⟩ := hf c' hc' hpc
    exact .inl ⟨c', hc', hpc', hsub⟩
  · exact .inl ⟨c, hc', hpc, rfl⟩

/-- A call goes on, and returns nil only with ok in its channel. -/
theorem Unreported.callAt {i : ℕ} {pc : CallPc} (h : Unreported s t)
    (hpc : pc = .returned .ok → ∀ c, t.calls[i]? = some c → s.chanVal c.request.sub = some .ok) :
    Unreported s (t.callAt i pc) := by
  refine ⟨h.chans, by simpa [Remote.callAt] using h.length, fun j c hc hret => ?_⟩
  obtain ⟨c', hc', ⟨rfl, rfl⟩ | ⟨-, rfl⟩⟩ := of_getElem?_modify hc
  · exact .inr (.inl (hpc hret c' hc'))
  · exact h.returns j c hc' hret

theorem unreported_sendRequest (s : Remote) (i : ℕ) (request : Request) (o : SendInput) :
    Unreported s (s.sendRequest i request o).1 := by
  cases sendRequest_sent s i request o with
  | unsent h => exact unreported_of_calls (by simp [h]) (by rw [h])
  | sent _ _ _ _ _ hc _ hchans => exact unreported_modify (chanVal_congr hchans) hc fun c _ hpc => ⟨hpc, rfl⟩

theorem unreported_closeChan (s : Remote) (ch : Option ℕ) : Unreported s (s.closeChan ch) :=
  unreported_of_calls (chanVal_closeChan s ch) (by rw [closeChan_eq])

theorem chanVal_subscribe (s : Remote) (i : ℕ) (ch : Option ℕ) : (s.subscribe i).chanVal ch = s.chanVal ch := by
  cases ch with
  | none => rfl
  | some ch =>
    simp only [Remote.chanVal, Remote.subscribe, Option.bind_some]
    by_cases hlt : ch < s.chans.length
    · rw [List.getElem?_append_left hlt]
    · rw [List.getElem?_append_right (by omega), List.getElem?_eq_none (by omega : s.chans.length ≤ ch)]
      cases ch - s.chans.length <;> rfl

/-- **A caller's step** puts nothing into a channel, and returns nil only with ok in its own. -/
theorem unreported_stepCall {i : ℕ} {o : CallInput} (h : s.stepCall i o = some t) : Unreported s t := by
  obtain ⟨c, hget, hstep⟩ := stepCall_cases h
  have heq {c' : Call} (hc' : s.calls[i]? = some c') : c' = c := Option.some.inj (hc'.symm.trans hget)
  have hgo {r : Remote} {pc : CallPc} (hch : r.chans = s.chans) (hr : r.calls = s.calls) (hpc : pc ≠ .returned .ok) :
      Unreported s (r.callAt i pc) := (unreported_of_calls (chanVal_congr hch) hr).callAt fun hret => absurd hret hpc
  cases hstep with
  | subscribe hpc =>
    refine Unreported.callAt (unreported_modify (chanVal_subscribe s i) rfl fun c' hc' hret => ?_) (by rintro ⟨⟩)
    exact absurd ((heq hc' ▸ hpc).symm.trans hret) (by simp)
  | enqueue hpc => exact hgo rfl rfl nofun
  | send o hpc =>
    refine (unreported_sendRequest s i c.request o).callAt fun hret => ?_
    split_ifs at hret
  | unqueue hpc => exact hgo rfl rfl nofun
  | value status hpc hv =>
    refine (unreported_closeChan s _).callAt fun hret c' hc' => ?_
    rw [closeChan_eq] at hc'
    rw [heq hc', hv]
    split_ifs at hret
    · cases hret
    · cases status <;> first | rfl | cases hret
  | timeout hpc =>
    refine (unreported_closeChan s _).callAt fun hret => ?_
    split_ifs at hret
    cases hret
  | done hpc hc => exact (unreported_closeChan s _).callAt nofun
  | expire hpc =>
    unfold Remote.expire
    split_ifs
    · exact hgo rfl rfl nofun
    · exact hgo rfl rfl nofun
  | reset hpc => exact unreported_modify (fun _ => rfl) rfl fun c' _ hret => absurd hret (by simp)

theorem unreported_step (h : s.step a = some t) (hcall : ∀ kind url, a ≠ .call kind url)
    (hreader : ∀ o, a ≠ .reader o) : Unreported s t := by
  cases a with
  | caller i o => exact unreported_stepCall h
  | reader o => exact absurd rfl (hreader o)
  | call kind url => exact absurd rfl (hcall kind url)
  | teardown session url o =>
    obtain rfl := Option.some.inj h
    have hsend := unreported_sendRequest { s with calls := s.calls ++ [⟨newRequest (.teardown session) url, 0, .returned .ok⟩] }
      s.calls.length (newRequest (.teardown session) url) o
    refine ⟨hsend.chans, ?_, fun i c hc hpc => ?_⟩
    · have := hsend.length
      rw [List.length_append] at this
      omega
    · rcases hsend.returns i c hc hpc with ⟨c', hc', hpc', hsub⟩ | hok | hnew
      · rcases of_getElem?_concat hc' with hold | ⟨rfl, -⟩
        · exact .inl ⟨c', hold, hpc', hsub⟩
        · exact .inr (.inr (Nat.le_refl _))
      · exact .inr (.inl hok)
      · rw [List.length_append] at hnew
        exact .inr (.inr (by omega))
  | disconnect =>
    cases h
    unfold Remote.disconnect
    split_ifs <;> exact unreported_of_calls (fun _ => rfl) rfl
  | dial ok =>
    cases h
    unfold Remote.dialLocked
    split_ifs <;> exact unreported_of_calls (fun _ => rfl) rfl
  | attach =>
    obtain ⟨-, ⟨⟩⟩ := Option.ite_none_right_eq_some.mp h
    exact unreported_of_calls (fun _ => rfl) rfl
  | recv recv =>
    obtain ⟨-, ⟨⟩⟩ := Option.ite_none_right_eq_some.mp h
    unfold Remote.receive
    split <;> exact unreported_of_calls (fun _ => rfl) rfl
  | cancel =>
    cases h
    exact unreported_of_calls (fun _ => rfl) rfl
  | shutdown =>
    cases h
    exact unreported_of_calls (fun _ => rfl) rfl

end

/-! ### What named steps keep -/

variable {s t : Answered} {a : Act} {r : Remote}

theorem Truthful.unreported (h : Truthful s) (hreader : r.reader.Truthful) (hquiet : Unreported s.remote r) :
    Truthful { s with remote := r } := by
  refine ⟨hreader, fun ch hch => h.chans ch (hquiet.chans _ ▸ hch), fun ch hch => hquiet.chans _ ▸ h.full ch hch,
    fun i hi => Nat.lt_of_lt_of_le (h.sync i hi) hquiet.length, fun i hi c hc hpc => ?_⟩
  rcases hquiet.returns i c hc hpc with ⟨c', hc', hpc', hsub⟩ | hok | hnew
  · exact hsub ▸ h.success i hi c' hc' hpc'
  · obtain ⟨ch, hsub, -⟩ := Option.bind_eq_some_iff.mp hok
    obtain ⟨response, hcompleted, hcode⟩ := h.chans ch (hsub ▸ hok)
    exact ⟨ch, response, hsub, hcompleted, hcode⟩
  · exact absurd (h.sync i hi) (by omega)

theorem Truthful.call (h : Truthful s) (c : Call) (hc : c.pc = .subscribe) :
    Truthful { s with remote := { s.remote with calls := s.remote.calls ++ [c] }, sync := s.sync ++ [s.remote.calls.length] } := by
  refine ⟨h.reader, h.chans, h.full, fun i hi => ?_, fun i hi c' hc' hpc => ?_⟩
  · rw [List.length_append, List.length_singleton]
    rcases List.mem_append.mp hi with hi | hi
    · exact Nat.lt_succ_of_lt (h.sync i hi)
    · rw [List.mem_singleton.mp hi]
      exact Nat.lt_succ_self _
  · rcases of_getElem?_concat hc' with hold | ⟨rfl, rfl⟩
    · rcases List.mem_append.mp hi with hi | hi
      · exact h.success i hi c' hold hpc
      · exact absurd (List.getElem?_eq_some_iff.mp hold).1 (by rw [List.mem_singleton.mp hi]; omega)
    · exact absurd (hc.symm.trans hpc) (by simp)

/-- What a named response is judged to be is ok only if it is. -/
theorem verdict_ok {response : Response} {attempts : ℕ}
    (hnamed : response.code = 401 → attempts = 0 → headerGet response.headers (ascii "WWW-Authenticate") ≠ [])
    (h : verdict response attempts = .ok) : response.code < 400 := by
  unfold verdict at h
  split_ifs at h with hfirst hempty hcode
  · exact absurd hempty (hnamed hfirst.1 hfirst.2)
  · omega

theorem chanVal_of_hasRoom {ch : ℕ} (h : r.hasRoom ch = true) : r.chanVal (some ch) = none := by
  obtain ⟨c, hc, hroom⟩ := (Option.any_eq_true _ _).mp h
  simp only [Bool.and_eq_true, Option.isNone_iff_eq_none] at hroom
  simp [Remote.chanVal, hc, hroom.2]

/-- The values of the channels after a report. -/
theorem chanVal_report (r : Remote) (ch ch' : ℕ) (status : Status) : (r.report (some ch) status).chanVal (some ch') =
    if ch' = ch ∧ r.hasRoom ch = true then some status else r.chanVal (some ch') := by
  simp only [Remote.chanVal, Remote.report, Remote.hasRoom, Option.bind_some, List.getElem?_modify]
  by_cases hch : ch' = ch
  · subst hch
    obtain hget | ⟨c, hget⟩ := Option.eq_none_or_eq_some r.chans[ch']?
    · simp [hget]
    · cases hclosed : c.closed <;> cases hval : c.val <;> simp [hget, hclosed, hval]
  · simp [hch, Ne.symm hch]

/-- A report to a channel that has no room, or to none. -/
theorem unreported_report {sub : Option ℕ} (hroom : ∀ ch ∈ sub, r.hasRoom ch = false) (status : Status) :
    Unreported r { r.report sub status with reader := .idle } := by
  refine unreported_of_calls (fun ch' => ?_) (by rw [report_eq])
  cases sub with
  | none => rfl
  | some ch =>
    cases ch' with
    | none => rfl
    | some ch' =>
      refine (chanVal_report r ch ch' status).trans (if_neg ?_)
      simp [hroom ch rfl]

/-- A status is put into a channel that has room. -/
theorem Truthful.notify (h : Truthful s) {response : Response} {status : Status} (hcode : status = .ok → response.code < 400)
    {ch : ℕ} (hroom : s.remote.hasRoom ch = true) (hreader : t.remote.reader = .idle)
    (hcalls : t.remote.calls = s.remote.calls) (hsync : t.sync = s.sync)
    (hval : ∀ ch', t.remote.chanVal (some ch') = if ch' = ch then some status else s.remote.chanVal (some ch'))
    (hcomp : ∀ ch', t.completed ch' = if ch' = ch then some response else s.completed ch') : Truthful t := by
  have hempty : s.completed ch = none := by
    by_contra hsome
    have := h.full ch (Option.isSome_iff_ne_none.mpr hsome)
    rw [chanVal_of_hasRoom hroom] at this
    cases this
  refine ⟨by rw [hreader]; trivial, fun ch' hok => ?_, fun ch' hsome => ?_, by rw [hsync, hcalls]; exact h.sync,
    fun i hi c hc hpc => ?_⟩
  · rw [hval] at hok
    rw [hcomp]
    split_ifs at hok ⊢
    · exact ⟨response, rfl, hcode (Option.some.inj hok)⟩
    · exact h.chans ch' hok
  · rw [hcomp] at hsome
    rw [hval]
    split_ifs at hsome ⊢
    · rfl
    · exact h.full ch' hsome
  · obtain ⟨ch', response', hsub, hcompleted, hcode'⟩ := h.success i (hsync ▸ hi) c (hcalls ▸ hc) hpc
    refine ⟨ch', response', hsub, ?_, hcode'⟩
    rw [hcomp, if_neg, hcompleted]
    rintro rfl
    rw [hempty] at hcompleted
    cases hcompleted

/-- **A step of the reader** reports nothing, or puts a status into a channel that has room. -/
theorem report_of_stepReader {s r : Remote} {o : SendInput} (hI : s.reader.Truthful) (hnamed : s.NamedReader s.reader)
    (h : s.stepReader o = some r) :
    s.completes (.reader o) = none ∧ r.reader.Truthful ∧ Unreported s r ∨
    ∃ ch response status, s.completes (.reader o) = some (ch, response) ∧ (status = .ok → response.code < 400) ∧
      s.hasRoom ch = true ∧ r = { s.report (some ch) status with reader := .idle } := by
  obtain ⟨recv, response, el, call, stage, c, hreader, hget, hstep⟩ := stepReader_cases h
  rw [hreader] at hI hnamed
  have hcompletes (hstage : ∀ status, stage ≠ .notify status) : s.completes (.reader o) = none := by
    cases stage <;> simp_all [Remote.completes]
  cases hstep with
  | challenge => exact .inl ⟨hcompletes (by simp), trivial, unreported_of_calls (fun _ => rfl) rfl⟩
  | judge hother =>
    rw [Remote.judge, noted_eq]
    refine .inl ⟨hcompletes (by simp), ?_, unreported_of_calls (fun _ => rfl) rfl⟩
    cases hv : verdict response c.request.attempts with
    | ok => exact verdict_ok (hnamed c hget) hv
    | _ => trivial
  | auth paramsStr =>
    refine .inl ⟨hcompletes (by simp), ?_, unreported_of_calls (fun _ => rfl) rfl⟩
    split_ifs <;> trivial
  | bump => exact .inl ⟨hcompletes (by simp), trivial, unreported_modify (fun _ => rfl) rfl fun c _ hpc => ⟨hpc, rfl⟩⟩
  | resend =>
    have hsend := unreported_sendRequest s call c.request o
    exact .inl ⟨hcompletes (by simp), trivial, hsend.chans, hsend.length, hsend.returns⟩
  | finalize status hany =>
    refine .inl ⟨hcompletes (by simp), ?_, unreported_of_calls (fun _ => rfl) rfl⟩
    cases status <;> exact hI
  | gone status hany => exact .inl ⟨hcompletes (by simp), trivial, unreported_of_calls (fun _ => rfl) rfl⟩
  | notify status =>
    have hnotify : s.completes (.reader o) =
        c.request.sub.bind fun ch => if s.hasRoom ch then some (ch, response) else none := by
      simp [Remote.completes, hreader, hget]
    by_cases hroom : ∃ ch, c.request.sub = some ch ∧ s.hasRoom ch = true
    · obtain ⟨ch, hsub, hroom⟩ := hroom
      refine .inr ⟨ch, response, status, by simp [hnotify, hsub, hroom], ?_, hroom, by rw [hsub]⟩
      rintro rfl
      exact hI
    · have hfull : ∀ ch ∈ c.request.sub, s.hasRoom ch = false := fun ch hch =>
        Bool.eq_false_iff.mpr fun hch' => hroom ⟨ch, hch, hch'⟩
      refine .inl ⟨?_, trivial, unreported_report hfull status⟩
      cases hsub : c.request.sub with
      | none => simp [hnotify, hsub]
      | some ch => simp [hnotify, hsub, hfull ch hsub]

/-- **One named step.** -/
theorem Truthful.step (h : Truthful s) (hnamed : Named s a) (hs : s.step a = some t) : Truthful t := by
  obtain ⟨r, hr, rfl⟩ := Option.map_eq_some_iff.mp hs
  by_cases hreader : ∃ o, a = .reader o
  · obtain ⟨o, rfl⟩ := hreader
    rcases report_of_stepReader h.reader hnamed hr with ⟨hnone, htruth, hquiet⟩ | ⟨ch, response, status, hsome, hcode, hroom, rfl⟩
    · rw [hnone]
      exact h.unreported htruth hquiet
    · rw [hsome]
      refine h.notify hcode hroom rfl (by rw [report_eq]) rfl (fun ch' => ?_) (fun ch' => ?_)
      · refine (chanVal_report s.remote ch ch' status).trans ?_
        simp [hroom]
      · exact Function.update_apply ..
  · have hnone : s.remote.completes a = none := by cases a <;> simp_all [Remote.completes]
    rw [hnone]
    by_cases hcall : ∃ kind url, a = .call kind url
    · obtain ⟨kind, url, rfl⟩ := hcall
      cases hr
      exact h.call _ rfl
    · have hquiet := unreported_step hr (fun kind url ha => hcall ⟨kind, url, ha⟩) fun o ha => hreader ⟨o, ha⟩
      have htruth : r.reader.Truthful := by
        rcases reader_of_step hr fun o ha => hreader ⟨o, ha⟩ with hsame | ⟨recv, response, el, call, -, -, hjudge⟩
        · rw [hsame]
          exact h.reader
        · rw [hjudge]
          trivial
      cases a with
      | call kind url => exact absurd ⟨kind, url, rfl⟩ hcall
      | _ => exact h.unreported htruth hquiet

/-- **Success means success** in a run of named steps: whatever the camera answers and whenever a
call times out, a call that returns nil was completed by a response with a code below 400. -/
theorem success_of_named (username password : Bytes) (as : List Act) (t : Answered)
    (hnamed : AllSteps Answered.step Named (newAnswered username password) as)
    (hexec : exec Answered.step (newAnswered username password) as = some t) : Success t :=
  (exec_invariant (fun _ _ _ hI hC hs => Truthful.step hI hC hs) as _ t (truthful_newAnswered username password) hnamed
    hexec).success

/-- An OPTIONS request is sent and answered, and the caller has its status. -/
def answeredWith (recv : String) : List Act :=
  [.dial true, .attach, .call .options (ascii "rtsp://cam/"), .caller 0 .next, .caller 0 .next, .caller 0 (.sent fine),
    .recv (ascii recv), .reader fine, .reader fine, .reader fine, .caller 0 .value]

/-- The call has returned nil. -/
def Answered.succeeded (s : Answered) (i : ℕ) : Bool := i ∈ s.sync ∧ (s.remote.calls[i]?).any fun c => c.pc == .returned .ok

/-- It is refused with a challenge, sent again, and answered. -/
def answeredAgain : List Act :=
  [.dial true, .attach, .call .options (ascii "rtsp://cam/"), .caller 0 .next, .caller 0 .next, .caller 0 (.sent fine),
    .recv (ascii "RTSP/1.0 401 Unauthorized\r\nWWW-Authenticate: Basic realm=\"cam\"\r\n\r\n"), .reader fine,
    .reader fine, .reader fine, .reader fine, .recv (ascii "RTSP/1.0 200 OK\r\n\r\n"), .reader fine, .reader fine,
    .reader fine, .caller 0 .value]

theorem success_of_named_again :
    AllSteps Answered.step Named (newAnswered (ascii "u") (ascii "p")) answeredAgain ∧
    ∃ t, exec Answered.step (newAnswered (ascii "u") (ascii "p")) answeredAgain = some t ∧
      t.remote.wire.length = 2 ∧ t.succeeded 0 = true ∧ Success t := by
  have hnamed : AllSteps Answered.step Named (newAnswered (ascii "u") (ascii "p")) answeredAgain := by decide +kernel
  have hrun : (exec Answered.step (newAnswered (ascii "u") (ascii "p")) answeredAgain).any
      (fun t => decide (t.remote.wire.length = 2 ∧ t.succeeded 0 = true)) = true := by decide +kernel
  obtain ⟨t, ht, hall⟩ := (Option.any_eq_true _ _).mp hrun
  obtain ⟨hwire, hok⟩ := of_decide_eq_true hall
  exact ⟨hnamed, t, ht, hwire, hok, success_of_named _ _ _ t hnamed ht⟩

/-- **A call that fails returns nil**: the camera refuses the request with a 401 response that has
no `WWW-Authenticate`, and `SendRequestSync` returns nil. -/
theorem ok_after_401 :
    ∃ t ch response, exec Answered.step (newAnswered (ascii "u") (ascii "p"))
        (answeredWith "RTSP/1.0 401 Unauthorized\r\n\r\n") = some t ∧
      t.succeeded 0 = true ∧ (t.remote.calls[0]?).map (fun c => c.request.sub) = some (some ch) ∧
      t.completed ch = some response ∧ response.code = 401 := by
  have hrun : (exec Answered.step (newAnswered (ascii "u") (ascii "p"))
      (answeredWith "RTSP/1.0 401 Unauthorized\r\n\r\n")).any (fun t => t.succeeded 0 &&
        (t.remote.calls[0]?).map (fun c => c.request.sub) == some (some 0) &&
        (t.completed 0).any fun response => response.code == 401) = true := by decide +kernel
  obtain ⟨t, ht, hall⟩ := (Option.any_eq_true _ _).mp hrun
  simp only [Bool.and_eq_true, beq_iff_eq, Option.any_eq_true] at hall
  obtain ⟨⟨hok, hsub⟩, response, hcompleted, hcode⟩ := hall
  exact ⟨t, 0, response, ht, hok, hsub, hcompleted, hcode⟩

end RtspProxy.Upstream
