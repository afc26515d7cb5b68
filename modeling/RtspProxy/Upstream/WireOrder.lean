import RtspProxy.Upstream.Pairing
import RtspProxy.Theory.Queue

/-!
# The order of the queue and the order of the wire

`SendRequestSync` queues its request and writes it in two critical sections. Between the two
another caller can queue a request of its own and write it first (`overtaken`): the queue has
the requests in one order and the camera sees them in the other, so each caller gets the
answer to the other's request.

## What is proved

* `InOrder` — each request is written once, and the queued requests that are written stand in
  the queue in the order in which they were written.
* `Quiet` — the connection stays open, without timeouts, 401 responses and write errors.
* `InTurn` — a queued request is written when it is the first in the queue that is not.
* `inOrder_of_inTurn` — with any number of callers, in every quiet run in which requests are
  written in turn the queue is in order and, if the camera answers in order, each caller gets
  its own response.
-/

namespace RtspProxy.Upstream

open Theory Wire

/-! ### The property -/

/-- The calls whose requests are queued. -/
def Remote.queued (s : Remote) : List ℕ := s.requests.map Prod.snd

/-- The calls whose requests are written, in the order of the writes. -/
def Remote.written (s : Remote) : List ℕ := s.wire.map Written.call

/-- **Order**: each request is written once, and the queued ones that are written stand in the
order of the writes. -/
def InOrder (s : Remote) : Prop :=
  s.written.Nodup ∧ (s.queued.filter (· ∈ s.written)).Sublist s.written

/-- A remote with an open connection that the reader reads. -/
def opened (username password : Bytes) : Remote :=
  { (newRemote username password).dialed with readerConn := some 1 }

/-- Dialing a new remote and starting a reader gives such a remote. -/
theorem exec_opened (username password : Bytes) :
    exec Remote.step (newRemote username password) [.dial true, .attach] = some (opened username password) := rfl

/-! ### Assumptions and condition -/

/-- The text is a 401 response. -/
def unauthorized (recv : Bytes) : Bool :=
  match newResponseFromBuffer recv with
  | .ok response => response.code == 401
  | .error _ => false

/-- The connection stays as it is, no request times out, there is no 401 and no write error. -/
def Quiet : Act → Prop
  | .call _ _ | .reader _ | .caller _ .next | .caller _ .value | .caller _ .done | .cancel | .shutdown => True
  | .caller _ (.sent o) => o.writeOk = true
  | .recv recv => unauthorized recv = false
  | _ => False

/-- The camera answers what it receives, in order. -/
def Answering (s : Remote) : Act → Prop
  | .recv recv => s.cameraAnswers recv = true
  | _ => True

/-- A queued request is written when it is the first in the queue that is not. -/
def InTurn (s : Remote) : Act → Prop
  | .caller i (.sent _) => i ∈ s.queued → s.queued.find? (fun j => j ∉ s.written) = some i
  | _ => True

/-! ### The invariant -/

/-- How far a call has come. -/
def CallPc.rank : CallPc → ℕ
  | .subscribe => 0
  | .enqueue => 1
  | .send => 2
  | .wait | .returned _ | .unqueue | .expire | .reset => 3

/-- Call `i` has come this far. -/
def Remote.Reached (s : Remote) (n i : ℕ) : Prop := ∃ c, s.calls[i]? = some c ∧ n ≤ c.pc.rank

/-- Where the reader is in a quiet run, with element `el` and call `i`: it holds the front of
the queue until it reports. -/
def Remote.AtStage (s : Remote) (el i : ℕ) : Stage → Prop
  | .judge => ∃ rest, s.requests = (el, i) :: rest
  | .finalize status => status ≠ .timeout ∧ ∃ rest, s.requests = (el, i) :: rest
  | .notify status => status ≠ .timeout
  | .auth _ | .bump | .resend => False

/-- What quiet steps keep, if requests are written in turn. -/
structure OrderInv (s : Remote) : Prop where
  /-- The connection is open. -/
  connected : s.connected = true
  /-- No call has failed or timed out. -/
  calls : ∀ c ∈ s.calls, c.pc ≠ .unqueue ∧ c.pc ≠ .expire ∧ c.pc ≠ .reset
  /-- No channel holds a timeout. -/
  values : ∀ ch ∈ s.chans, ch.val ≠ some .timeout
  /-- A call whose request is queued has queued it. -/
  queued : ∀ i ∈ s.queued, s.Reached 2 i
  /-- A call whose request is written has written it. -/
  written : ∀ i ∈ s.written, s.Reached 3 i
  /-- Each request is queued once. -/
  once : s.queued.Nodup
  /-- Each request is written once. -/
  nodup : s.written.Nodup
  reader : ∀ recv response el i stage, s.reader = .handling recv response el i stage →
    response.code ≠ 401 ∧ s.AtStage el i stage
  /-- The written requests are at the front of the queue, in order. -/
  split : ∃ done, Split done s.queued s.written ∧ done.Sublist s.written

/-- The number of responses whose requests have left the queue. -/
def Remote.released (s : Remote) : ℕ :=
  match s.reader with
  | .idle | .handling _ _ _ _ (.notify _) => s.answered
  | .handling _ _ _ _ _ => s.answered - 1

/-- What quiet steps keep, if besides the camera answers in order. -/
structure Fifo (s : Remote) : Prop where
  /-- The reader reads the connection. -/
  conn : s.readerConn = some s.conn
  /-- All requests went to it. -/
  sent : ∀ w ∈ s.wire, w.conn = s.conn ∧ w.sent = true
  /-- Nothing is answered that is not written. -/
  count : s.answered ≤ s.wire.length
  /-- A request about to be written is queued. -/
  sending : ∀ (i : ℕ) (c : Call), s.calls[i]? = some c → c.pc = .send → i ∈ s.queued
  /-- The written requests in the queue are those whose response is not dealt with. -/
  split : Split (s.written.drop s.released) s.queued s.written
  /-- The response being handled is that to the request. -/
  reader : ∀ recv response el i stage, s.reader = .handling recv response el i stage → 0 < s.answered ∧
    ∃ w ∈ s.wire, w.call = i ∧ headerGet response.headers (ascii "CSeq") = itoa w.cseq

theorem orderInv_opened (username password : Bytes) : OrderInv (opened username password) := by
  refine ⟨rfl, ?_, ?_, ?_, ?_, ?_, ?_, ?_, [], ?_, ?_⟩
  case refine_8 => exact split_nil
  all_goals simp [opened, newRemote, Remote.dialed, Remote.queued, Remote.written]

theorem fifo_opened (username password : Bytes) : Fifo (opened username password) := by
  refine ⟨rfl, ?_, ?_, ?_, split_nil, ?_⟩ <;> simp [opened, newRemote, Remote.dialed]

/-! ### What the invariant gives -/

section
variable {s t : Remote} {i : ℕ} {c : Call}

theorem OrderInv.inOrder (h : OrderInv s) : InOrder s := by
  obtain ⟨done, hs, hd⟩ := h.split
  refine ⟨h.nodup, ?_⟩
  rw [hs.filter_eq]
  exact hd

/-- A request that is written once is the last one written for its call. -/
theorem lastWrite_of_nodup (h : s.written.Nodup) {w : Written} (hw : w ∈ s.wire) : s.lastWrite w.call = some w := by
  have hone : ∀ l : List Written, (l.map Written.call).Nodup → w ∈ l → l.filter (fun x => x.call == w.call) = [w] := by
    intro l hl hm
    induction l with
    | nil => cases hm
    | cons x l ih =>
      obtain ⟨hx, hl⟩ := List.nodup_cons.mp hl
      by_cases hxw : x.call = w.call
      · have hnot : w ∉ l := fun hm' => hx (hxw ▸ List.mem_map_of_mem hm')
        obtain rfl := (List.mem_cons.mp hm).resolve_right hnot
        rw [List.filter_cons_of_pos (by simp), List.filter_eq_nil_iff.mpr]
        intro y hy hyw
        exact hx (beq_iff_eq.mp hyw ▸ List.mem_map_of_mem hy)
      · rw [List.filter_cons_of_neg (by simpa using hxw)]
        refine ih hl ((List.mem_cons.mp hm).resolve_left ?_)
        rintro rfl
        exact hxw rfl
  unfold Remote.lastWrite
  rw [hone s.wire h hw]
  rfl

theorem Fifo.paired (h : Fifo s) (hn : s.written.Nodup) : Paired s := by
  intro recv response el i stage hr
  obtain ⟨-, w, hw, rfl, hc⟩ := h.reader recv response el i stage hr
  exact ⟨w, lastWrite_of_nodup hn hw, hc⟩

/-! ### Calls move on -/

/-- No call goes back. -/
def Advances (s t : Remote) : Prop := ∀ n i, s.Reached n i → t.Reached n i

theorem advances_of_calls (ht : t.calls = s.calls) : Advances s t := by
  rintro n j ⟨c, hj, hn⟩
  exact ⟨c, by rw [ht]; exact hj, hn⟩

theorem advances_modify {f : Call → Call} (hget : s.calls[i]? = some c) (ht : t.calls = s.calls.modify i f)
    (hr : c.pc.rank ≤ (f c).pc.rank) : Advances s t := by
  rintro n j ⟨c', hj, hn⟩
  by_cases hij : i = j
  · subst hij
    cases hget.symm.trans hj
    exact ⟨f c, by rw [ht]; exact getElem?_modify_of hget, le_trans hn hr⟩
  · exact ⟨c', by simp [ht, hij, hj], hn⟩

/-- A call that is about to write has not written. -/
theorem OrderInv.not_written (h : OrderInv s) (hget : s.calls[i]? = some c) (hlt : c.pc.rank < 3) :
    i ∉ s.written := by
  intro hm
  obtain ⟨c', hc', hn⟩ := h.written i hm
  cases hget.symm.trans hc'
  omega

theorem OrderInv.not_queued (h : OrderInv s) (hget : s.calls[i]? = some c) (hlt : c.pc.rank < 2) :
    i ∉ s.queued := by
  intro hm
  obtain ⟨c', hc', hn⟩ := h.queued i hm
  cases hget.symm.trans hc'
  omega

/-! ### The steps keep the order -/

/-- The front of the queue stays when something is put at its end. -/
theorem Remote.AtStage.append {el : ℕ} {stage : Stage} (h : s.AtStage el i stage) (l : List (ℕ × ℕ))
    (hq : t.requests = s.requests ++ l) : t.AtStage el i stage := by
  have hfront : (∃ rest, s.requests = (el, i) :: rest) → ∃ rest, t.requests = (el, i) :: rest := by
    rintro ⟨rest, hrest⟩
    exact ⟨rest ++ l, by rw [hq, hrest, List.cons_append]⟩
  cases stage with
  | judge => exact hfront h
  | finalize status => exact ⟨h.1, hfront h.2⟩
  | notify status => exact h
  | auth _ | bump | resend => exact h

/-- A step that leaves the queue and the wire. -/
theorem OrderInv.keep (h : OrderInv s) (ho : t.connected = s.connected) (hq : t.requests = s.requests)
    (hw : t.wire = s.wire) (ha : Advances s t)
    (hcalls : ∀ c ∈ t.calls, c.pc ≠ .unqueue ∧ c.pc ≠ .expire ∧ c.pc ≠ .reset)
    (hvals : ∀ ch ∈ t.chans, ch.val ≠ some .timeout)
    (hr : ∀ recv response el i stage, t.reader = .handling recv response el i stage →
      response.code ≠ 401 ∧ t.AtStage el i stage) : OrderInv t := by
  have hqueued : t.queued = s.queued := congrArg (List.map Prod.snd) hq
  have hwritten : t.written = s.written := congrArg (List.map Written.call) hw
  refine ⟨ho.trans h.connected, hcalls, hvals, ?_, ?_, hqueued ▸ h.once, hwritten ▸ h.nodup, hr, ?_⟩
  · intro i hi
    exact ha 2 i (h.queued i (hqueued ▸ hi))
  · intro i hi
    exact ha 3 i (h.written i (hwritten ▸ hi))
  · rw [hqueued, hwritten]
    exact h.split

theorem OrderInv.congr (h : OrderInv s) (ho : t.connected = s.connected) (hq : t.requests = s.requests)
    (hw : t.wire = s.wire) (hr : t.reader = s.reader) (ha : Advances s t)
    (hcalls : ∀ c ∈ t.calls, c.pc ≠ .unqueue ∧ c.pc ≠ .expire ∧ c.pc ≠ .reset)
    (hvals : ∀ ch ∈ t.chans, ch.val ≠ some .timeout) : OrderInv t := by
  refine h.keep ho hq hw ha hcalls hvals fun recv response el i stage hh => ?_
  obtain ⟨hcode, hst⟩ := h.reader recv response el i stage (hr ▸ hh)
  exact ⟨hcode, hst.append [] (by rw [hq, List.append_nil])⟩

/-- On an open connection a write that succeeds does just that. -/
theorem sendRequest_of_ok (ho : s.connected = true) {o : SendInput} (hok : o.writeOk = true)
    (request : Request) : s.sendRequest i request o = (s.wrote i request o, true) := by
  simp [Remote.sendRequest, Remote.write, ho, hok]

theorem wrote_calls (s : Remote) (i : ℕ) (request : Request) (o : SendInput) :
    ∃ headers, ((s.wrote i request o).callAt i .wait).calls =
      s.calls.modify i fun c => ⟨{ c.request with headers := headers }, c.attempt, .wait⟩ := by
  refine ⟨request.prepare (s.currentCSeq + 1)
    (s.digest.createAuthenticatorStr request.method request.url o.cnonce).2, ?_⟩
  simp [Remote.callAt, Remote.wrote, Remote.setRequest, List.modify_modify_eq, Function.comp_def]

theorem wrote_written (s : Remote) (i : ℕ) (request : Request) (o : SendInput) :
    ((s.wrote i request o).callAt i .wait).written = s.written ++ [i] := by
  simp [Remote.written, Remote.callAt, Remote.wrote]

/-- A call that finds a value returns: the value is not a timeout. -/
theorem OrderInv.returns (h : OrderInv s) {ch : Option ℕ} {status : Status} (hv : s.chanVal ch = some status) :
    ∃ r, (if s.cancelled = true then CallPc.returned .aborted else .ofStatus status) = .returned r := by
  obtain ⟨k, -, hk⟩ := Option.bind_eq_some_iff.mp hv
  obtain ⟨x, hx, hval⟩ := Option.bind_eq_some_iff.mp hk
  split_ifs
  · exact ⟨_, rfl⟩
  · cases status with
    | timeout => exact absurd hval (h.values x (List.mem_of_getElem? hx))
    | _ => exact ⟨_, rfl⟩

theorem closeChan_values (h : ∀ ch ∈ s.chans, ch.val ≠ some .timeout) (sub : Option ℕ) :
    ∀ ch ∈ (s.closeChan sub).chans, ch.val ≠ some .timeout := by
  cases sub with
  | none => exact h
  | some k => exact forall_mem_modify h fun ch hch => h ch (List.mem_of_getElem? hch)

theorem OrderInv.enqueue (h : OrderInv s) (hget : s.calls[i]? = some c) (hpc : c.pc = .enqueue) :
    OrderInv ((s.enqueue i).callAt i .send) := by
  have ha : Advances s ((s.enqueue i).callAt i .send) :=
    advances_modify hget rfl (by simp [hpc, CallPc.rank])
  have hqueued : ((s.enqueue i).callAt i .send).queued = s.queued ++ [i] := by
    simp [Remote.queued, Remote.callAt, Remote.enqueue]
  have hnot := h.not_queued hget (by simp [hpc, CallPc.rank])
  obtain ⟨done, hsplit, hdone⟩ := h.split
  refine ⟨h.connected, forall_mem_modify h.calls (by simp), h.values, ?_, fun j hj => ha 3 j (h.written j hj), ?_,
    h.nodup, ?_, done, ?_, hdone⟩
  · intro j hj
    rw [hqueued] at hj
    rcases List.mem_append.mp hj with hj | hj
    · exact ha 2 j (h.queued j hj)
    · rw [List.mem_singleton.mp hj]
      exact ⟨_, getElem?_modify_of hget, by simp [CallPc.rank]⟩
  · rw [hqueued]
    exact h.once.append (List.nodup_singleton i) (List.disjoint_singleton.mpr hnot)
  · intro recv response el j stage hh
    obtain ⟨hcode, hst⟩ := h.reader recv response el j stage hh
    exact ⟨hcode, hst.append [(s.nextEl, i)] rfl⟩
  · rw [hqueued]
    exact hsplit.enqueue (h.not_written hget (by simp [hpc, CallPc.rank]))

theorem OrderInv.send (h : OrderInv s) (hget : s.calls[i]? = some c) (hpc : c.pc = .send)
    (hturn : i ∈ s.queued → s.queued.find? (fun j => j ∉ s.written) = some i) (o : SendInput) :
    OrderInv ((s.wrote i c.request o).callAt i .wait) := by
  obtain ⟨headers, hcalls⟩ := wrote_calls s i c.request o
  have hnot := h.not_written hget (by simp [hpc, CallPc.rank])
  have ha := advances_modify hget hcalls (by simp [hpc, CallPc.rank])
  refine ⟨h.connected, ?_, h.values, fun j hj => ha 2 j (h.queued j hj), ?_, h.once, ?_, ?_, ?_⟩
  · rw [hcalls]
    exact forall_mem_modify h.calls (by simp)
  · intro j hj
    rw [wrote_written] at hj
    rcases List.mem_append.mp hj with hj | hj
    · exact ha 3 j (h.written j hj)
    · rw [List.mem_singleton.mp hj]
      exact ⟨_, by rw [hcalls]; exact getElem?_modify_of hget, by simp [CallPc.rank]⟩
  · rw [wrote_written]
    exact h.nodup.append (List.nodup_singleton i) (List.disjoint_singleton.mpr hnot)
  · intro recv response el j stage hh
    obtain ⟨hcode, hst⟩ := h.reader recv response el j stage hh
    exact ⟨hcode, hst.append [] (List.append_nil _).symm⟩
  · obtain ⟨done, hsplit, hdone⟩ := h.split
    rw [wrote_written]
    by_cases hq : i ∈ s.queued
    · exact ⟨done ++ [i], hsplit.record h.once (hturn hq), hdone.append (List.Sublist.refl _)⟩
    · exact ⟨done, hsplit.record_of_not_mem hq, hdone.trans (List.sublist_append_left _ _)⟩

/-- **A step of a caller.** -/
theorem OrderInv.stepCall (h : OrderInv s) {o : CallInput} (hquiet : Quiet (.caller i o))
    (hturn : InTurn s (.caller i o)) (hs : s.stepCall i o = some t) : OrderInv t := by
  obtain ⟨c, hget, hstep⟩ := stepCall_cases hs
  obtain ⟨hun, hex, hre⟩ := h.calls c (List.mem_of_getElem? hget)
  cases hstep with
  | subscribe hpc =>
    have hcalls : ((s.subscribe i).callAt i .enqueue).calls = s.calls.modify i fun c =>
        ⟨{ c.request with sub := some s.chans.length }, c.attempt, .enqueue⟩ := by
      simp [Remote.callAt, Remote.subscribe, List.modify_modify_eq, Function.comp_def]
    refine h.congr rfl rfl rfl rfl (advances_modify hget hcalls (by simp [hpc, CallPc.rank])) ?_ ?_
    · rw [hcalls]
      exact forall_mem_modify h.calls (by simp)
    · intro ch hch
      rcases List.mem_append.mp hch with hch | hch
      · exact h.values ch hch
      · rw [List.mem_singleton.mp hch]
        simp
  | enqueue hpc => exact h.enqueue hget hpc
  | send o hpc =>
    rw [sendRequest_of_ok h.connected hquiet, if_pos rfl]
    exact h.send hget hpc hturn o
  | unqueue hpc => exact absurd hpc hun
  | value status hpc hval =>
    obtain ⟨r, hr⟩ := h.returns hval
    have hvals := closeChan_values h.values c.request.sub
    rw [hr, closeChan_eq]
    exact h.congr rfl rfl rfl rfl (advances_modify hget rfl (by simp [hpc, CallPc.rank]))
      (forall_mem_modify h.calls (by simp)) hvals
  | timeout hpc => exact hquiet.elim
  | done hpc hc =>
    have hvals := closeChan_values h.values c.request.sub
    rw [closeChan_eq]
    exact h.congr rfl rfl rfl rfl (advances_modify hget rfl (by simp [hpc, CallPc.rank]))
      (forall_mem_modify h.calls (by simp)) hvals
  | expire hpc => exact absurd hpc hex
  | reset hpc => exact absurd hpc hre

theorem OrderInv.call (h : OrderInv s) (request : Request) :
    OrderInv { s with calls := s.calls ++ [⟨request, 0, .subscribe⟩] } := by
  refine h.congr rfl rfl rfl rfl ?_ ?_ h.values
  · rintro n j ⟨c, hj, hn⟩
    exact ⟨c, by rw [List.getElem?_append_left (List.getElem?_eq_some_iff.mp hj).1]; exact hj, hn⟩
  · intro c hc
    rcases List.mem_append.mp hc with hc | hc
    · exact h.calls c hc
    · rw [List.mem_singleton.mp hc]
      simp

/-- **A response arrives** and is taken to answer the front of the queue, or is dropped. -/
theorem receive_cases (s : Remote) (recv : Bytes) :
    s.receive recv = s ∨ ∃ response el i rest, newResponseFromBuffer recv = .ok response ∧
      s.requests = (el, i) :: rest ∧ s.receive recv = s.stageAt recv response el i .judge := by
  unfold Remote.receive
  split
  · rename_i response el i rest hparse hq
    exact .inr ⟨response, el, i, rest, hparse, hq, rfl⟩
  · exact .inl rfl

theorem OrderInv.recv (h : OrderInv s) {recv : Bytes} (hquiet : unauthorized recv = false) :
    OrderInv { s.receive recv with answered := s.answered + 1 } := by
  rcases receive_cases s recv with he | ⟨response, el, i, rest, hparse, hq, he⟩
  · rw [he]
    exact h.congr rfl rfl rfl rfl (advances_of_calls rfl) h.calls h.values
  · rw [he]
    refine h.keep rfl rfl rfl (advances_of_calls rfl) h.calls h.values ?_
    intro recv₁ response₁ el₁ i₁ stage₁ hr
    cases hr
    refine ⟨fun hcode => ?_, rest, hq⟩
    simp [unauthorized, hparse, hcode] at hquiet

theorem verdict_ne_timeout (response : Response) (attempts : ℕ) : verdict response attempts ≠ .timeout := by
  unfold verdict
  split_ifs <;> simp

theorem report_values (h : ∀ ch ∈ s.chans, ch.val ≠ some .timeout) (sub : Option ℕ) {status : Status}
    (hst : status ≠ .timeout) : ∀ ch ∈ (s.report sub status).chans, ch.val ≠ some .timeout := by
  cases sub with
  | none => exact h
  | some k =>
    refine forall_mem_modify h fun ch hch => ?_
    split_ifs
    · exact h ch (List.mem_of_getElem? hch)
    · simpa using hst

/-- **The steps of the reader** when the response is not a 401: it looks at the code, takes
the front of the queue, and reports. -/
theorem OrderInv.reader_cases (h : OrderInv s) {o : SendInput} (hs : s.stepReader o = some t) :
    ∃ recv response el i, response.code ≠ 401 ∧
      ((∃ status rest, status ≠ .timeout ∧ s.requests = (el, i) :: rest ∧
          s.reader = .handling recv response el i .judge ∧
          t = s.stageAt recv response el i (.finalize status)) ∨
        (∃ status rest, status ≠ .timeout ∧ s.requests = (el, i) :: rest ∧
          s.reader = .handling recv response el i (.finalize status) ∧
          t = { s with requests := rest }.stageAt recv response el i (.notify status)) ∨
        ∃ status sub, status ≠ .timeout ∧ s.reader = .handling recv response el i (.notify status) ∧
          t = { s.report sub status with reader := .idle }) := by
  obtain ⟨recv, response, el, i, stage, c, hr, hget, hstep⟩ := stepReader_cases hs
  obtain ⟨hcode, hst⟩ := h.reader recv response el i stage hr
  refine ⟨recv, response, el, i, hcode, ?_⟩
  cases hstep with
  | challenge h₁ => exact absurd h₁ hcode
  | judge hn =>
    obtain ⟨rest, hq⟩ := hst
    refine .inl ⟨verdict response c.request.attempts, rest, verdict_ne_timeout _ _, hq, hr, ?_⟩
    simp [Remote.judge, Remote.noted, hcode]
  | auth paramsStr => exact hst.elim
  | bump => exact hst.elim
  | resend => exact hst.elim
  | finalize status hany =>
    obtain ⟨hne, rest, hq⟩ := hst
    exact .inr (.inl ⟨status, rest, hne, hq, hr, by simp [hq]⟩)
  | gone status hany =>
    obtain ⟨-, rest, hq⟩ := hst
    simp [hq] at hany
  | notify status => exact .inr (.inr ⟨status, c.request.sub, hst, hr, rfl⟩)

/-- **A step of the reader.** -/
theorem OrderInv.stepReader (h : OrderInv s) {o : SendInput} (hs : s.stepReader o = some t) : OrderInv t := by
  obtain ⟨recv, response, el, i, hcode, hcase⟩ := h.reader_cases hs
  rcases hcase with ⟨status, rest, hne, hq, -, rfl⟩ | ⟨status, rest, hne, hq, -, rfl⟩ | ⟨status, sub, hne, -, rfl⟩
  · refine h.keep rfl rfl rfl (advances_of_calls rfl) h.calls h.values ?_
    intro recv₁ response₁ el₁ i₁ stage₁ hr
    cases hr
    exact ⟨hcode, hne, rest, hq⟩
  · have hqueued : s.queued = i :: rest.map Prod.snd := by simp [Remote.queued, hq]
    obtain ⟨done, hsplit, hdone⟩ := h.split
    rw [hqueued] at hsplit
    refine ⟨h.connected, h.calls, h.values, ?_, h.written, ?_, h.nodup, ?_, done.tail, hsplit.dequeue,
      (List.tail_sublist _).trans hdone⟩
    · intro j hj
      exact h.queued j (by rw [hqueued]; exact List.mem_cons_of_mem _ hj)
    · have := h.once
      rw [hqueued] at this
      exact (List.nodup_cons.mp this).2
    · intro recv₁ response₁ el₁ i₁ stage₁ hr
      cases hr
      exact ⟨hcode, hne⟩
  · have hvals := report_values h.values sub hne
    rw [report_eq]
    refine h.keep rfl rfl rfl (advances_of_calls rfl) h.calls hvals ?_
    intro recv₁ response₁ el₁ i₁ stage₁ hr
    cases hr

/-- **One step** keeps the order. -/
theorem OrderInv.step (h : OrderInv s) {a : Act} (hquiet : Quiet a) (hturn : InTurn s a)
    (hs : s.step a = some t) : OrderInv t := by
  cases a with
  | call kind url =>
    cases hs
    exact h.call (newRequest kind url)
  | caller i o => exact h.stepCall hquiet hturn hs
  | recv recv =>
    simp only [Remote.step] at hs
    split_ifs at hs
    cases hs
    exact h.recv hquiet
  | reader o => exact h.stepReader hs
  | cancel | shutdown =>
    cases hs
    exact h.congr rfl rfl rfl rfl (advances_of_calls rfl) h.calls h.values
  | _ => exact hquiet.elim

/-! ### The steps keep the pairing -/

/-- A step that leaves the queue, the wire and the reader. -/
theorem Fifo.congr (h : Fifo s) (hrc : t.readerConn = s.readerConn) (hconn : t.conn = s.conn)
    (hw : t.wire = s.wire) (han : t.answered = s.answered) (hq : t.requests = s.requests)
    (hr : t.reader = s.reader)
    (hsend : ∀ (i : ℕ) (c : Call), t.calls[i]? = some c → c.pc = .send → i ∈ t.queued) : Fifo t := by
  have hqueued : t.queued = s.queued := congrArg (List.map Prod.snd) hq
  have hwritten : t.written = s.written := congrArg (List.map Written.call) hw
  have hrel : t.released = s.released := by simp only [Remote.released, hr, han]
  refine ⟨by rw [hrc, hconn]; exact h.conn, ?_, by rw [han, hw]; exact h.count, hsend, ?_, ?_⟩
  · rw [hw, hconn]
    exact h.sent
  · rw [hrel, hqueued, hwritten]
    exact h.split
  · rw [hr, han, hw]
    exact h.reader

/-- A call moves to a place where it is not about to write. -/
theorem Fifo.sending_modify (h : Fifo s) {f : Call → Call} (ht : t.calls = s.calls.modify i f)
    (hf : ∀ c, (f c).pc ≠ .send) (hq : ∀ j ∈ s.queued, j ∈ t.queued) :
    ∀ (j : ℕ) (c : Call), t.calls[j]? = some c → c.pc = .send → j ∈ t.queued := by
  intro j c hj hpc
  rw [ht] at hj
  obtain ⟨y, hy, ⟨-, rfl⟩ | ⟨-, rfl⟩⟩ := of_getElem?_modify hj
  · exact absurd hpc (hf y)
  · exact hq j (h.sending j c hy hpc)

theorem Fifo.released_le (h : Fifo s) : s.released ≤ s.written.length := by
  have hc := h.count
  unfold Remote.released Remote.written
  rw [List.length_map]
  split <;> omega

/-- **A step of a caller.** -/
theorem Fifo.stepCall (h : Fifo s) (hinv : OrderInv s) {o : CallInput} (hquiet : Quiet (.caller i o))
    (hturn : InTurn s (.caller i o)) (hs : s.stepCall i o = some t) : Fifo t := by
  obtain ⟨c, hget, hstep⟩ := stepCall_cases hs
  obtain ⟨hun, hex, hre⟩ := hinv.calls c (List.mem_of_getElem? hget)
  cases hstep with
  | subscribe hpc =>
    refine h.congr rfl rfl rfl rfl rfl rfl (h.sending_modify (i := i)
      (f := fun c => ⟨{ c.request with sub := some s.chans.length }, c.attempt, .enqueue⟩) ?_ (by simp) fun _ hj => hj)
    simp [Remote.callAt, Remote.subscribe, List.modify_modify_eq, Function.comp_def]
  | enqueue hpc =>
    have hqueued : ((s.enqueue i).callAt i .send).queued = s.queued ++ [i] := by
      simp [Remote.queued, Remote.callAt, Remote.enqueue]
    refine ⟨h.conn, h.sent, h.count, ?_, ?_, h.reader⟩
    · intro j c' hj hpc'
      rw [hqueued]
      obtain ⟨y, hy, ⟨rfl, -⟩ | ⟨-, rfl⟩⟩ := of_getElem?_modify hj
      · simp
      · exact List.mem_append_left _ (h.sending j c' hy hpc')
    · rw [hqueued]
      exact h.split.enqueue (hinv.not_written hget (by simp [hpc, CallPc.rank]))
  | send o hpc =>
    rw [sendRequest_of_ok hinv.connected hquiet, if_pos rfl]
    obtain ⟨headers, hcalls⟩ := wrote_calls s i c.request o
    have hmem := h.sending i c hget hpc
    have hrel := h.released_le
    refine ⟨h.conn, ?_, ?_, h.sending_modify hcalls (by simp) fun _ hj => hj, ?_, ?_⟩
    · intro w hw
      rcases List.mem_append.mp hw with hw | hw
      · exact h.sent w hw
      · rw [List.mem_singleton.mp hw]
        exact ⟨rfl, hquiet⟩
    · have := h.count
      simp only [Remote.callAt, Remote.wrote, Remote.setRequest, List.length_append, List.length_singleton]
      omega
    · rw [wrote_written]
      have hdrop : (s.written ++ [i]).drop s.released = s.written.drop s.released ++ [i] :=
        List.drop_append_of_le_length hrel
      have := h.split.record hinv.once (hturn hmem)
      rw [← hdrop] at this
      exact this
    · intro recv response el j stage hr
      obtain ⟨hpos, w, hw, hi, hc⟩ := h.reader recv response el j stage hr
      exact ⟨hpos, w, List.mem_append_left _ hw, hi, hc⟩
  | unqueue hpc => exact absurd hpc hun
  | value status hpc hval =>
    obtain ⟨r, hr⟩ := hinv.returns hval
    rw [hr, closeChan_eq]
    exact h.congr rfl rfl rfl rfl rfl rfl
      (h.sending_modify (f := fun c => { c with pc := .returned r }) rfl (by simp) fun _ hj => hj)
  | timeout hpc => exact hquiet.elim
  | done hpc hc =>
    rw [closeChan_eq]
    exact h.congr rfl rfl rfl rfl rfl rfl
      (h.sending_modify (f := fun c => { c with pc := .returned .aborted }) rfl (by simp) fun _ hj => hj)
  | expire hpc => exact absurd hpc hex
  | reset hpc => exact absurd hpc hre

/-- **The answer arrives** to the request at the front of the queue. -/
theorem Fifo.recv (h : Fifo s) {recv : Bytes} (hidle : s.reader = .idle) (hcam : s.cameraAnswers recv = true) :
    Fifo { s.receive recv with answered := s.answered + 1 } := by
  have hun : s.unanswered = s.wire.drop s.answered := by
    unfold Remote.unanswered
    rw [List.filter_eq_self.mpr]
    intro w hw
    simp [h.conn, h.sent w hw]
  have hrel : s.released = s.answered := by simp only [Remote.released, hidle]
  unfold Remote.cameraAnswers at hcam
  split at hcam
  · rename_i w ws response hw hparse
    rw [hun] at hw
    have hlt : s.answered < s.wire.length := by
      by_contra hge
      rw [List.drop_eq_nil_of_le (by omega)] at hw
      cases hw
    have hmem : w ∈ s.wire := List.mem_of_mem_drop (hw ▸ List.mem_cons_self)
    have hfront : s.written.drop s.answered = w.call :: ws.map Written.call := by
      rw [Remote.written, ← List.map_drop, hw]
      rfl
    obtain ⟨rest, hq, -⟩ := h.split.rest
    rw [hrel, hfront] at hq
    obtain ⟨⟨el, i⟩, es, he, hi, -⟩ := List.map_eq_cons_iff.mp hq
    cases hi
    have hrecv : s.receive recv = s.stageAt recv response el w.call .judge := by
      unfold Remote.receive
      rw [hparse, he]
    rw [hrecv]
    refine ⟨h.conn, h.sent, hlt, h.sending, ?_, ?_⟩
    · have := h.split
      rw [hrel] at this
      exact this
    · intro recv₁ response₁ el₁ i₁ stage₁ hr
      cases hr
      exact ⟨Nat.succ_pos _, w, hmem, rfl, eq_of_beq hcam⟩
  · cases hcam

/-- **A step of the reader.** -/
theorem Fifo.stepReader (h : Fifo s) (hinv : OrderInv s) {o : SendInput} (hs : s.stepReader o = some t) :
    Fifo t := by
  obtain ⟨recv, response, el, i, hcode, hcase⟩ := hinv.reader_cases hs
  rcases hcase with ⟨status, rest, hne, hq, hr, rfl⟩ | ⟨status, rest, hne, hq, hr, rfl⟩ | ⟨status, sub, hne, hr, rfl⟩
  · obtain ⟨hpos, hw⟩ := h.reader _ _ _ _ _ hr
    refine ⟨h.conn, h.sent, h.count, h.sending, ?_, ?_⟩
    · have hrel : s.released = s.answered - 1 := by simp only [Remote.released, hr]
      have hsplit := h.split
      rw [hrel] at hsplit
      exact hsplit
    · intro recv₁ response₁ el₁ i₁ stage₁ hr₁
      cases hr₁
      exact ⟨hpos, hw⟩
  · obtain ⟨hpos, w, hw, rfl, hc⟩ := h.reader _ _ _ _ _ hr
    have hrel : s.released = s.answered - 1 := by simp only [Remote.released, hr]
    have hqueued : s.queued = w.call :: rest.map Prod.snd := by simp [Remote.queued, hq]
    refine ⟨h.conn, h.sent, h.count, ?_, ?_, ?_⟩
    · intro j c hj hpc
      have hmem := h.sending j c hj hpc
      rw [hqueued] at hmem
      refine (List.mem_cons.mp hmem).resolve_left fun he => ?_
      exact hinv.not_written hj (by simp [hpc, CallPc.rank]) (he ▸ List.mem_map_of_mem hw)
    · have hsplit := h.split
      rw [hqueued, hrel] at hsplit
      have hdrop : (s.written.drop (s.answered - 1)).tail = s.written.drop s.answered := by
        rw [List.tail_drop, Nat.sub_add_cancel hpos]
      exact hdrop ▸ hsplit.dequeue
    · intro recv₁ response₁ el₁ i₁ stage₁ hr₁
      cases hr₁
      exact ⟨hpos, w, hw, rfl, hc⟩
  · have hrel : s.released = s.answered := by simp only [Remote.released, hr]
    rw [report_eq]
    refine ⟨h.conn, h.sent, h.count, h.sending, hrel ▸ h.split, ?_⟩
    intro recv₁ response₁ el₁ i₁ stage₁ hr₁
    cases hr₁

/-- **One step** keeps the pairing, if the camera answers in order. -/
theorem Fifo.step (h : Fifo s) (hinv : OrderInv s) {a : Act} (hquiet : Quiet a) (hturn : InTurn s a)
    (hcam : Answering s a) (hs : s.step a = some t) : Fifo t := by
  cases a with
  | call kind url =>
    cases hs
    refine h.congr rfl rfl rfl rfl rfl rfl fun j c hj hpc => ?_
    rcases of_getElem?_concat hj with hj | ⟨-, rfl⟩
    · exact h.sending j c hj hpc
    · cases hpc
  | caller i o => exact h.stepCall hinv hquiet hturn hs
  | recv recv =>
    simp only [Remote.step] at hs
    split_ifs at hs with hidle
    cases hs
    exact h.recv hidle.1 hcam
  | reader o => exact h.stepReader hinv hs
  | cancel | shutdown =>
    cases hs
    exact h.congr rfl rfl rfl rfl rfl rfl h.sending
  | _ => exact hquiet.elim

end

/-! ### The result -/

/-- **Queue order is wire order when requests are written in turn.** Any number of callers use
an open connection, without timeouts, 401 responses and write errors, in any order of their
steps; the remote may be cancelled meanwhile. If every queued request is written in its turn, then
in every state reached the queued requests that are written stand in the order of the writes; and if
the camera answers in order, each response is handled as the answer to the request that it answers. -/
theorem inOrder_of_inTurn (username password : Bytes) (as : List Act) (t : Remote)
    (hquiet : ∀ a ∈ as, Quiet a)
    (hturn : AllSteps Remote.step InTurn (opened username password) as)
    (h : exec Remote.step (opened username password) as = some t) :
    InOrder t ∧ (AllSteps Remote.step Answering (opened username password) as → Paired t) := by
  have hq : AllSteps Remote.step (fun _ => Quiet) (opened username password) as := allSteps_of_forall hquiet
  have hC := hq.and hturn
  have hinv : OrderInv t := exec_invariant (fun _ _ _ hi hc hs => OrderInv.step hi hc.1 hc.2 hs) as _ t
    (orderInv_opened username password) hC h
  refine ⟨hinv.inOrder, fun hans => ?_⟩
  have hboth := exec_invariant (I := fun s => OrderInv s ∧ Fifo s)
    (fun _ _ _ hi hc hs => ⟨hi.1.step hc.1.1 hc.1.2 hs, hi.2.step hi.1 hc.1.1 hc.1.2 hc.2 hs⟩) as _ t
    ⟨orderInv_opened username password, fifo_opened username password⟩ (hC.and hans) h
  exact hboth.2.paired hinv.nodup

instance : DecidablePred Quiet := fun a =>
  match a with
  | .call _ _ | .reader _ | .caller _ .next | .caller _ .value | .caller _ .done | .cancel | .shutdown => isTrue trivial
  | .caller _ (.sent _) => inferInstanceAs (Decidable (_ = true))
  | .recv _ => inferInstanceAs (Decidable (_ = false))
  | .caller _ .timeout | .dial _ | .attach | .disconnect | .teardown _ _ _ => isFalse id

instance (s : Remote) : DecidablePred (Answering s) := fun a =>
  match a with
  | .recv _ => inferInstanceAs (Decidable (_ = true))
  | .call _ _ | .teardown _ _ _ | .cancel | .shutdown | .dial _ | .attach | .disconnect | .reader _
  | .caller _ _ => isTrue trivial

instance (s : Remote) : DecidablePred (InTurn s) := fun a =>
  match a with
  | .caller i (.sent _) => inferInstanceAs (Decidable (_ → _ = some i))
  | .caller _ .next | .caller _ .value | .caller _ .timeout | .caller _ .done | .call _ _
  | .teardown _ _ _ | .cancel | .shutdown | .dial _ | .attach | .disconnect | .reader _ | .recv _ =>
    isTrue trivial

/-! ### Two runs -/

/-- Two callers queue their requests, and write them in this order; then the camera answers the
first. -/
def twoCallers (first second : ℕ) : List Act :=
  [.call .options (ascii "rtsp://cam/"), .call (.getParameter (ascii "1")) (ascii "rtsp://cam/"),
    .caller 0 .next, .caller 0 .next, .caller 1 .next, .caller 1 .next,
    .caller first (.sent fine), .caller second (.sent fine), okAnswer "1"]

theorem inOrder_of_inTurn_twoCallers :
    AllSteps Remote.step InTurn (opened [] []) (twoCallers 0 1) ∧
    ∃ t, exec Remote.step (opened [] []) (twoCallers 0 1) = some t ∧ InOrder t ∧ Paired t := by
  have hquiet : ∀ a ∈ twoCallers 0 1, Quiet a := by decide +kernel
  have hturn : AllSteps Remote.step InTurn (opened [] []) (twoCallers 0 1) := by decide +kernel
  have hans : AllSteps Remote.step Answering (opened [] []) (twoCallers 0 1) := by decide +kernel
  have hs : (exec Remote.step (opened [] []) (twoCallers 0 1)).isSome = true := by decide +kernel
  obtain ⟨t, ht⟩ := Option.isSome_iff_exists.mp hs
  obtain ⟨hin, hpair⟩ := inOrder_of_inTurn [] [] (twoCallers 0 1) t hquiet hturn ht
  exact ⟨hturn, t, ht, hin, hpair hans⟩

instance : DecidablePred InOrder := fun _ => inferInstanceAs (Decidable (_ ∧ _))

/-- **Overtaken**: the caller that queued its request second writes it first, and the answer to
it is taken for the answer to the other. -/
theorem overtaken :
    (∀ a ∈ twoCallers 1 0, Quiet a) ∧ AllSteps Remote.step Answering (opened [] []) (twoCallers 1 0) ∧
    ∃ t, exec Remote.step (opened [] []) (twoCallers 1 0) = some t ∧ ¬ InOrder t ∧ ¬ Paired t := by
  have hs : (exec Remote.step (opened [] []) (twoCallers 1 0)).any (fun t =>
      !decide (InOrder t) && t.mispaired) = true := by
    decide +kernel
  obtain ⟨t, ht, hr⟩ := (Option.any_eq_true _ _).mp hs
  obtain ⟨hno, hr⟩ := Bool.and_eq_true_iff.mp hr
  exact ⟨by decide +kernel, by decide +kernel, t, ht, by simpa using hno, not_paired_of_mispaired hr⟩

end RtspProxy.Upstream
