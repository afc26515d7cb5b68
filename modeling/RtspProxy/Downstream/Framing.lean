import RtspProxy.Downstream.Client

/-!
# What a client sends and what is handled

A client sends requests and interleaved frames; TCP cuts the bytes into reads as it likes.
`incomingRequestHandler` collects a frame from as many reads as it takes, but it takes
whatever a `Read` has left in the buffer for one whole request. A request that comes in two
pieces ends the connection (`request_in_two_reads`), the second of two requests in one read is
lost, and what follows a frame in the same read is looked at only after another read.

## What is proved

* `Handled` — the handler has handled exactly the requests sent, each once and in order, each
  reply has the `CSeq` of its request, it has extracted exactly the frames sent, and waits for
  nothing more.
* `WellCut` — how the reads must cut what is sent: each request takes exactly one read, which
  ends where the request ends; a frame takes reads, one at least, until it is complete; and
  nothing follows an OPTIONS request about the proxy itself.
* `handled_iff_wellCut` — the handler does what it should exactly on those.
-/

namespace RtspProxy.Downstream

open Theory Wire

/-! ### What a client sends -/

section
variable (parse : Bytes → Option URL)

/-- A complete request: a request line, headers and a blank line. -/
structure RtspRequest where
  text : Bytes
  /-- What it is parsed to. -/
  request : Request
  /-- It is well formed. -/
  parsed : newRequestFromBuffer parse text = .ok request
  /-- It does not look like a frame. -/
  not_dollar : text.head? ≠ some 36
  /-- The first blank line ends it. -/
  blank : index crlfcrlf text = some (text.length - 4)
  /-- It fits the buffer. -/
  fits : text.length ≤ rtspBufferSize

/-- A message of a client. -/
inductive Message where
  | request (m : RtspRequest parse)
  /-- An interleaved frame that fits the buffer. -/
  | frame (f : Frame) (h : f.encode.length ≤ rtspBufferSize)

variable {parse}

theorem RtspRequest.text_ne_nil (m : RtspRequest parse) : m.text ≠ [] := by
  intro h
  have := index_le m.blank
  rw [h] at this
  simp [crlfcrlf] at this

/-- The message on the wire. -/
def Message.encode : Message parse → Bytes
  | .request m => m.text
  | .frame f _ => f.encode

/-- The handler has done what the message asks for. -/
def Answers : Message parse → Event → Prop
  | .request m, .request text reply =>
    text = m.text ∧ headerGet reply.headers (ascii "CSeq") = headerGet m.request.headers (ascii "CSeq")
  | .frame f _, .frame tcpChannel data => tcpChannel = f.channel ∧ data = f.payload
  | .request _, .frame _ _ | .frame _ _, .request _ _ => False

/-- **Exact handling**: what the handler has done is what the messages ask for, one by one, and
it waits for nothing more. -/
structure Handled (sent : List (Message parse)) (s : Conn) : Prop where
  /-- One event for each message, in order. -/
  events : List.Forall₂ Answers sent s.events
  /-- No bytes are left. -/
  buffer : s.buffer = []
  /-- It is not in the middle of a frame. -/
  idle : s.pc = .top ∨ s.pc = .returned

/-! ### How it is read -/

/-- The bytes that a `Read` returns. -/
def Arrival.content : Arrival → Bytes
  | .bytes bs _ => bs
  | .timeout | .closed => []

/-- The lengths of what the reads return. -/
def reads : List Arrival → List ℕ
  | [] => []
  | .bytes bs _ :: as => bs.length :: reads as
  | .timeout :: as | .closed :: as => reads as

/-- **The cut that the handler needs**, with `n` bytes in the buffer when it goes on to the next
message, and the lengths of the reads to come. -/
def WellCut : Client → List (Message parse) → ℕ → List ℕ → Prop
  | _, [], _, _ => True
  | _, _ :: _, _, [] => False
  | client, .request m :: sent, n, r :: rs =>
    n + r = m.text.length ∧
      match client.resolve m.request with
      | some (client, _) => WellCut client sent 0 rs
      | none => sent.isEmpty = true
  | client, .frame f h :: sent, n, r :: rs =>
    if n + r < f.encode.length then WellCut client (.frame f h :: sent) (n + r) rs
    else WellCut client sent (n + r - f.encode.length) rs

/-! ### Reading a frame -/

theorem readData_part {s : Conn} {f : Frame} (hlen : s.buffer.length < f.encode.length) (h₄ : 4 ≤ s.buffer.length) :
    s.readData f.channel f.payload.length = { s with pc := .data f.channel f.payload.length } := by
  simp only [Frame.encode, List.length_cons] at hlen
  rw [Conn.readData, if_pos (by omega)]

theorem readData_whole {s : Conn} {f : Frame} {rest : Bytes} (hb : s.buffer = f.encode ++ rest) :
    s.readData f.channel f.payload.length =
      { s with buffer := rest, pc := .top, events := s.events ++ [.frame f.channel f.payload] } := by
  have hnot : ¬ s.buffer.length - 4 < f.payload.length := by
    rw [hb]
    simp only [Frame.encode, List.length_append, List.length_cons]
    omega
  have hdrop : s.buffer.drop (4 + f.payload.length) = rest := by
    rw [hb]
    exact List.drop_left' (by simp [Frame.encode]; omega)
  have htake : (s.buffer.drop 4).take f.payload.length = f.payload := by
    rw [hb]
    simp [Frame.encode]
  rw [Conn.readData, if_neg hnot, hdrop, htake]

theorem readHeader_part {s : Conn} {f : Frame} (hp : s.buffer <+: f.encode) (hlen : s.buffer.length < f.encode.length) :
    ∃ pc, s.readHeader = { s with pc := pc } ∧
      (pc = .header ∨ pc = .data f.channel f.payload.length ∧ 4 ≤ s.buffer.length) := by
  obtain ⟨r, hr⟩ := hp
  obtain ⟨client, buffer, pc, events⟩ := s
  match buffer with
  | [] | [_] | [_, _] | [_, _, _] => exact ⟨.header, rfl, .inl rfl⟩
  | a :: b :: c :: d :: p =>
    simp only [Frame.encode, List.cons_append, List.cons.injEq] at hr
    obtain ⟨-, rfl, rfl, rfl, -⟩ := hr
    refine ⟨_, ?_, .inr ⟨rfl, by simp⟩⟩
    rw [← readData_part hlen (by simp)]
    simp only [Conn.readHeader, pktLen_encode f.fits]

theorem readHeader_whole {s : Conn} {f : Frame} {rest : Bytes} (hb : s.buffer = f.encode ++ rest) :
    s.readHeader =
      { s with buffer := rest, pc := .top, events := s.events ++ [.frame f.channel f.payload] } := by
  rw [← readData_whole hb]
  unfold Conn.readHeader
  simp only [hb, Frame.encode, List.cons_append, pktLen_encode f.fits]

/-- The handler is in the middle of this frame. -/
def Conn.InFrame (s : Conn) (f : Frame) : Prop :=
  s.buffer <+: f.encode ∧ s.buffer.length < f.encode.length ∧
    (s.pc = .header ∨ s.pc = .data f.channel f.payload.length ∧ 4 ≤ s.buffer.length)

/-- The handler goes on to these messages, or is in the middle of the first. -/
def Conn.Ready (s : Conn) : List (Message parse) → Prop
  | .frame f _ :: _ => s.pc = .top ∨ s.InFrame f
  | _ => s.pc = .top

theorem ready_of_top {s : Conn} (h : s.pc = .top) {sent : List (Message parse)} : s.Ready sent := by
  cases sent with
  | nil => exact h
  | cons m sent =>
    cases m with
    | request m => exact h
    | frame f hf => exact .inl h

theorem Conn.Ready.not_returned {s : Conn} {sent : List (Message parse)} (h : s.Ready sent) : s.pc ≠ .returned := by
  have htop : s.pc = .top → s.pc ≠ .returned := by
    intro h
    rw [h]
    simp
  match sent, h with
  | [], h | .request _ :: _, h => exact htop h
  | .frame _ _ :: _, .inl h => exact htop h
  | .frame _ _ :: _, .inr ⟨_, _, .inl h⟩ => simp [h]
  | .frame _ _ :: _, .inr ⟨_, _, .inr ⟨h, _⟩⟩ => simp [h]

theorem received_part {s : Conn} {f : Frame} (hs : s.pc = .top ∨ s.InFrame f) {bs : Bytes} (hbs : bs ≠ [])
    (hp : s.buffer ++ bs <+: f.encode) (hlen : (s.buffer ++ bs).length < f.encode.length) (view : StreamView) :
    ∃ pc, s.received parse bs view = { s with buffer := s.buffer ++ bs, pc := pc } ∧
      ({ s with buffer := s.buffer ++ bs, pc := pc } : Conn).InFrame f := by
  have hheader : ∃ pc, ({ s with buffer := s.buffer ++ bs } : Conn).readHeader =
      { s with buffer := s.buffer ++ bs, pc := pc } ∧
      (pc = .header ∨ pc = .data f.channel f.payload.length ∧ 4 ≤ (s.buffer ++ bs).length) :=
    readHeader_part hp hlen
  have hhead : (s.buffer ++ bs).head? = some 36 := by
    obtain ⟨r, hr⟩ := hp
    have hne : s.buffer ++ bs ≠ [] := by simp [hbs]
    obtain ⟨a, as, has⟩ := List.exists_cons_of_ne_nil hne
    rw [has, Frame.encode, List.cons_append, List.cons.injEq] at hr
    rw [has, hr.1]
    rfl
  obtain ⟨pc, he, hpc⟩ := hheader
  rcases hs with htop | ⟨-, -, hh | ⟨hd, h₄⟩⟩
  · exact ⟨pc, by simp only [Conn.received, htop, hhead, if_true]; exact he, hp, hlen, hpc⟩
  · exact ⟨pc, by simp only [Conn.received, hh]; exact he, hp, hlen, hpc⟩
  · have h₄' : 4 ≤ (s.buffer ++ bs).length := by
      rw [List.length_append]
      omega
    refine ⟨.data f.channel f.payload.length, ?_, hp, hlen, .inr ⟨rfl, h₄'⟩⟩
    simp only [Conn.received, hd]
    exact readData_part hlen h₄'

/-- The rest of a frame is read, and perhaps more. -/
theorem received_whole {s : Conn} {f : Frame} (hs : s.pc = .top ∨ s.InFrame f) {bs rest : Bytes}
    (hb : s.buffer ++ bs = f.encode ++ rest) (view : StreamView) :
    s.received parse bs view =
      { s with buffer := rest, pc := .top, events := s.events ++ [.frame f.channel f.payload] } := by
  have hheader : ({ s with buffer := s.buffer ++ bs } : Conn).readHeader =
      { s with buffer := rest, pc := .top, events := s.events ++ [.frame f.channel f.payload] } :=
    readHeader_whole hb
  rcases hs with htop | ⟨-, -, hh | ⟨hd, -⟩⟩
  · have hhead : (s.buffer ++ bs).head? = some 36 := by
      rw [hb]
      rfl
    simp only [Conn.received, htop, hhead, if_true]
    exact hheader
  · simp only [Conn.received, hh]
    exact hheader
  · simp only [Conn.received, hd]
    exact readData_whole (s := { s with buffer := s.buffer ++ bs }) hb

/-! ### Reading a request -/

/-- A request that is read whole is handled, and the reply has its `CSeq`. -/
theorem received_request {s : Conn} (htop : s.pc = .top) (m : RtspRequest parse) {bs : Bytes}
    (hb : s.buffer ++ bs = m.text) (view : StreamView) :
    ∃ e, Answers (.request m) e ∧ s.received parse bs view =
      match s.client.resolve m.request with
      | some (client, _) => { s with client := client, buffer := [], pc := .top, events := s.events ++ [e] }
      | none => { s with buffer := [], pc := .returned, events := s.events ++ [e] } := by
  simp only [Conn.received, htop, hb, if_neg m.not_dollar, Conn.request, m.parsed]
  cases hres : s.client.resolve m.request with
  | none => exact ⟨.request m.text (probeReply m.request), ⟨rfl, probeReply_cseq m.request⟩, rfl⟩
  | some cr =>
    obtain ⟨client, request⟩ := cr
    refine ⟨.request m.text (finishReply (dispatchMethod client view request) request), ⟨rfl, ?_⟩, rfl⟩
    rw [finishReply_cseq _ _ (noCSeq_dispatchMethod client view request), resolve_headers hres]

/-- Whatever is taken for a request, either the handler returns or it handles that text. -/
theorem request_events (s : Conn) (view : StreamView) :
    ((s.request parse view).pc = .returned ∧ (s.request parse view).events = s.events) ∨
    ∃ reply, (s.request parse view).events = s.events ++ [.request s.buffer reply] := by
  unfold Conn.request
  dsimp only
  split
  · exact .inl ⟨rfl, rfl⟩
  · split
    · exact .inr ⟨_, rfl⟩
    · exact .inr ⟨_, rfl⟩

theorem received_text {s : Conn} (htop : s.pc = .top) {bs : Bytes} (hhead : (s.buffer ++ bs).head? ≠ some 36)
    (view : StreamView) :
    ((s.received parse bs view).pc = .returned ∧ (s.received parse bs view).events = s.events) ∨
    ∃ reply, (s.received parse bs view).events = s.events ++ [.request (s.buffer ++ bs) reply] := by
  simp only [Conn.received, htop, if_neg hhead]
  exact @request_events parse { s with buffer := s.buffer ++ bs } view

/-! ### Runs -/

/-- A handler that has returned does nothing more. -/
theorem exec_returned {s t : Conn} (hs : s.pc = .returned) {as : List Arrival}
    (h : exec (Conn.step parse) s as = some t) : t = s := by
  induction as with
  | nil => exact (Option.some.inj h).symm
  | cons a as ih =>
    obtain ⟨s', hstep, h⟩ := exec_cons_eq_some.mp h
    unfold Conn.step at hstep
    rw [if_pos hs] at hstep
    cases hstep
    exact ih h

theorem readData_events (s : Conn) (tcpChannel : UInt8) (n : ℕ) : s.events <+: (s.readData tcpChannel n).events := by
  unfold Conn.readData
  split_ifs
  · exact List.prefix_refl _
  · exact List.prefix_append _ _

theorem readHeader_events (s : Conn) : s.events <+: s.readHeader.events := by
  unfold Conn.readHeader
  split
  · exact readData_events s _ _
  · exact List.prefix_refl _

theorem received_events (s : Conn) (bs : Bytes) (view : StreamView) :
    s.events <+: (s.received parse bs view).events := by
  unfold Conn.received
  dsimp only
  split
  · split_ifs
    · exact readHeader_events { s with buffer := s.buffer ++ bs }
    · rcases @request_events parse { s with buffer := s.buffer ++ bs } view with ⟨-, he⟩ | ⟨reply, he⟩
      · exact ⟨[], (List.append_nil _).trans he.symm⟩
      · rw [he]
        exact List.prefix_append s.events _
  · exact readHeader_events { s with buffer := s.buffer ++ bs }
  · exact readData_events { s with buffer := s.buffer ++ bs } _ _
  · exact List.prefix_refl _

theorem exec_events {s t : Conn} {as : List Arrival} (h : exec (Conn.step parse) s as = some t) :
    s.events <+: t.events := by
  have htrue : AllSteps (Conn.step parse) (fun _ _ => True) s as := allSteps_of_forall fun _ _ => trivial
  refine exec_invariant (I := fun t => s.events <+: t.events) ?_ as s t (List.prefix_refl _) htrue h
  intro s₁ a s₂ hs₁ _ hstep
  refine hs₁.trans ?_
  unfold Conn.step at hstep
  split_ifs at hstep
  · cases hstep
    exact List.prefix_refl _
  · cases a with
    | bytes bs view =>
      dsimp only at hstep
      split_ifs at hstep
      cases hstep
      exact received_events s₁ bs view
    | timeout =>
      cases hstep
      exact List.prefix_refl _
    | closed =>
      cases hstep
      exact List.prefix_refl _

/-- From `s` on these messages are handled, and nothing else. -/
def HandledFrom (s : Conn) (sent : List (Message parse)) (t : Conn) : Prop :=
  ∃ evs, t.events = s.events ++ evs ∧ List.Forall₂ Answers sent evs ∧ t.buffer = [] ∧
    (t.pc = .top ∨ t.pc = .returned)

theorem handledFrom_cons {s u t : Conn} {m : Message parse} {sent : List (Message parse)} {e : Event}
    (ht : u.events <+: t.events) (he : u.events = s.events ++ [e]) :
    HandledFrom s (m :: sent) t ↔ Answers m e ∧ HandledFrom u sent t := by
  constructor
  · rintro ⟨evs, hevs, hall, hdone⟩
    obtain ⟨more, hmore⟩ := ht
    rw [he, hevs, List.append_assoc, List.append_cancel_left_eq] at hmore
    subst hmore
    cases hall with
    | cons hme hall => exact ⟨hme, more, by rw [hevs, he, List.append_assoc], hall, hdone⟩
  · rintro ⟨hme, evs, hevs, hall, hdone⟩
    exact ⟨e :: evs, by rw [hevs, he, List.append_assoc]; rfl, .cons hme hall, hdone⟩

theorem handledFrom_of_events {s t : Conn} {sent : List (Message parse)} (he : t.events = s.events) :
    HandledFrom s sent t ↔ sent = [] ∧ t.buffer = [] ∧ (t.pc = .top ∨ t.pc = .returned) := by
  constructor
  · rintro ⟨evs, hevs, hall, hdone⟩
    rw [he, List.self_eq_append_right] at hevs
    subst hevs
    cases hall
    exact ⟨rfl, hdone⟩
  · rintro ⟨rfl, hdone⟩
    exact ⟨[], by rw [he, List.append_nil], .nil, hdone⟩

/-- The next message is a request: it must end with the read. -/
theorem handledFrom_request {s t : Conn} {m : RtspRequest parse} {sent : List (Message parse)} {bs rest more : Bytes}
    {view : StreamView} {as : List Arrival} {rs : List ℕ} (htop : s.pc = .top) (hbs : bs ≠ [])
    (hbytes : s.buffer ++ bs ++ rest = m.text ++ more)
    (h : exec (Conn.step parse) (s.received parse bs view) as = some t)
    (next : ∀ s' : Conn, s'.pc = .top → s'.buffer = [] → rest = more → exec (Conn.step parse) s' as = some t →
      (HandledFrom s' sent t ↔ WellCut s'.client sent 0 rs)) :
    HandledFrom s (.request m :: sent) t ↔ WellCut s.client (.request m :: sent) s.buffer.length (bs.length :: rs) := by
  by_cases hlen : s.buffer.length + bs.length = m.text.length
  · -- the whole request, and nothing else
    obtain ⟨htext, hrest⟩ := List.append_inj hbytes (by rw [List.length_append]; exact hlen)
    obtain ⟨e, hme, hreq⟩ := received_request htop m htext view
    rw [hreq] at h
    simp only [WellCut, hlen, true_and]
    cases hres : s.client.resolve m.request with
    | none =>
      rw [hres] at h
      have ht := exec_events h
      cases exec_returned rfl h
      rw [handledFrom_cons ht rfl, handledFrom_of_events rfl]
      simp [hme]
    | some cr =>
      rw [hres] at h
      rw [handledFrom_cons (exec_events h) rfl, next _ rfl rfl hrest h]
      simp [hme]
  · -- something else is taken for a request
    have hhead : (s.buffer ++ bs).head? ≠ some 36 := by
      have hne : s.buffer ++ bs ≠ [] := by simp [hbs]
      have htext : m.text ≠ [] := m.text_ne_nil
      have := congrArg List.head? hbytes
      rw [List.head?_append_of_ne_nil _ hne, List.head?_append_of_ne_nil _ htext] at this
      rw [this]
      exact m.not_dollar
    simp only [WellCut, hlen, false_and, iff_false]
    have ht := exec_events h
    rcases @received_text parse s htop bs hhead view with ⟨hret, he⟩ | ⟨reply, he⟩
    · cases exec_returned hret h
      rw [handledFrom_of_events he]
      simp
    · rw [handledFrom_cons ht he]
      rintro ⟨⟨htext, -⟩, -⟩
      rw [← htext, List.length_append] at hlen
      exact hlen rfl

/-- The next message is a frame: it takes this read, and perhaps more. -/
theorem handledFrom_frame {s t : Conn} {f : Frame} {hf : f.encode.length ≤ rtspBufferSize}
    {sent : List (Message parse)} {bs rest more : Bytes} {view : StreamView} {as : List Arrival} {rs : List ℕ}
    (hs : s.pc = .top ∨ s.InFrame f) (hbs : bs ≠ []) (hbytes : s.buffer ++ bs ++ rest = f.encode ++ more)
    (h : exec (Conn.step parse) (s.received parse bs view) as = some t)
    (again : ∀ s' : Conn, s'.InFrame f → s'.buffer = s.buffer ++ bs → exec (Conn.step parse) s' as = some t →
      (HandledFrom s' (.frame f hf :: sent) t ↔ WellCut s'.client (.frame f hf :: sent) s'.buffer.length rs))
    (next : ∀ s' : Conn, s'.pc = .top → s'.buffer ++ rest = more → exec (Conn.step parse) s' as = some t →
      (HandledFrom s' sent t ↔ WellCut s'.client sent s'.buffer.length rs)) :
    HandledFrom s (.frame f hf :: sent) t ↔
      WellCut s.client (.frame f hf :: sent) s.buffer.length (bs.length :: rs) := by
  by_cases hlen : s.buffer.length + bs.length < f.encode.length
  · have hlen' : (s.buffer ++ bs).length < f.encode.length := by
      rw [List.length_append]
      exact hlen
    have hp : s.buffer ++ bs <+: f.encode :=
      List.prefix_of_prefix_length_le ⟨rest, hbytes⟩ (List.prefix_append _ _) (Nat.le_of_lt hlen')
    obtain ⟨pc, he, hin⟩ := @received_part parse s f hs bs hbs hp hlen' view
    rw [he] at h
    have := again _ hin rfl h
    simp only [WellCut, hlen, if_true]
    rw [← List.length_append]
    exact this
  · have hp : f.encode <+: s.buffer ++ bs :=
      List.prefix_of_prefix_length_le (List.prefix_append _ _) ⟨rest, hbytes⟩ (by rw [List.length_append]; omega)
    obtain ⟨r, hr⟩ := hp
    rw [received_whole hs hr.symm] at h
    have hmore : r ++ rest = more := by
      rw [← hr, List.append_assoc] at hbytes
      exact List.append_cancel_left hbytes
    have hrlen : s.buffer.length + bs.length - f.encode.length = r.length := by
      have := congrArg List.length hr
      simp only [List.length_append] at this
      omega
    simp only [WellCut, hlen, if_false]
    rw [handledFrom_cons (exec_events h) rfl, hrlen, next _ rfl hmore h]
    exact ⟨fun h => h.2, fun h => ⟨⟨rfl, rfl⟩, h⟩⟩

/-- **Every run**: the messages are handled if and only if they are well cut. -/
theorem handledFrom_iff {t : Conn} (as : List Arrival) : ∀ (s : Conn) (sent : List (Message parse)), s.Ready sent →
    s.buffer ++ as.flatMap Arrival.content = sent.flatMap Message.encode → (∀ a ∈ as, a ≠ .closed) →
    exec (Conn.step parse) s as = some t →
    (HandledFrom s sent t ↔ WellCut s.client sent s.buffer.length (reads as)) := by
  -- induction on the reads; each takes the handler to the next message, or further into a frame
  induction as with
  | nil =>
    intro s sent hready hbytes _ h
    cases h
    rw [handledFrom_of_events rfl]
    cases sent with
    | nil =>
      simp only [List.flatMap_nil, List.append_nil] at hbytes
      simp only [WellCut, iff_true]
      exact ⟨trivial, hbytes, .inl hready⟩
    | cons m sent => simp [WellCut, reads]
  | cons a as ih =>
    intro s sent hready hbytes hopen h
    obtain ⟨s', hstep, h⟩ := exec_cons_eq_some.mp h
    obtain ⟨ha, hrest⟩ := List.forall_mem_cons.mp hopen
    have hpc := hready.not_returned
    unfold Conn.step at hstep
    rw [if_neg hpc] at hstep
    cases a with
    | closed => exact absurd rfl ha
    | timeout =>
      cases hstep
      exact ih s sent hready hbytes hrest h
    | bytes bs view =>
      dsimp only at hstep
      split_ifs at hstep with hfit
      cases hstep
      have hbs : bs ≠ [] := List.ne_nil_of_length_pos hfit.1
      rw [List.flatMap_cons, ← List.append_assoc] at hbytes
      simp only [Arrival.content] at hbytes
      cases sent with
      | nil => simp [hbs] at hbytes
      | cons m sent =>
        rw [List.flatMap_cons] at hbytes
        cases m with
        | request m =>
          refine handledFrom_request hready hbs hbytes h fun s' htop hb hmore h' => ?_
          have := ih s' sent (ready_of_top htop) (by rw [hb, hmore]; rfl) hrest h'
          rw [hb] at this
          exact this
        | frame f hf =>
          refine handledFrom_frame hready hbs hbytes h (fun s' hin hb h' => ?_) fun s' htop hmore h' => ?_
          · exact ih s' _ (.inr hin) (by rw [hb]; exact hbytes) hrest h'
          · exact ih s' sent (ready_of_top htop) hmore hrest h'

/-- **Exact handling means well-cut reads.** A client sends any messages, and the reads return
them in any pieces. The handler handles exactly the requests, each once and in order, with one
reply each that has the `CSeq` of the request, extracts exactly the frames, and waits for
nothing more, if and only if the pieces are well cut. -/
theorem handled_iff_wellCut (localAddr remoteAddr : Bytes) (sent : List (Message parse)) (as : List Arrival) (t : Conn)
    (hbytes : as.flatMap Arrival.content = sent.flatMap Message.encode) (hopen : ∀ a ∈ as, a ≠ .closed)
    (h : exec (Conn.step parse) (newConn localAddr remoteAddr) as = some t) :
    Handled sent t ↔ WellCut (newClient localAddr remoteAddr) sent 0 (reads as) := by
  have hiff := handledFrom_iff as (newConn localAddr remoteAddr) sent (ready_of_top rfl) hbytes hopen h
  refine Iff.trans ⟨?_, ?_⟩ hiff
  · rintro ⟨hevents, hbuffer, hidle⟩
    exact ⟨t.events, rfl, hevents, hbuffer, hidle⟩
  · rintro ⟨evs, hevs, hall, hbuffer, hidle⟩
    refine ⟨?_, hbuffer, hidle⟩
    rw [hevs]
    exact hall

instance decidableWellCut : ∀ (client : Client) (sent : List (Message parse)) (n : ℕ) (rs : List ℕ),
    Decidable (WellCut client sent n rs)
  | _, [], _, [] | _, [], _, _ :: _ => isTrue trivial
  | _, .request _ :: _, _, [] | _, .frame _ _ :: _, _, [] => isFalse id
  | client, .request m :: sent, _, _ :: rs =>
    have : Decidable (match client.resolve m.request with
        | some (client, _) => WellCut client sent 0 rs
        | none => sent.isEmpty = true) :=
      match client.resolve m.request with
      | some (client, _) => decidableWellCut client sent 0 rs
      | none => inferInstanceAs (Decidable (_ = true))
    inferInstanceAs (Decidable (_ ∧ _))
  | client, .frame f h :: sent, n, r :: rs =>
    have := decidableWellCut client (.frame f h :: sent) (n + r) rs
    have := decidableWellCut client sent (n + r - f.encode.length) rs
    inferInstanceAs (Decidable (if n + r < f.encode.length then WellCut client (.frame f h :: sent) (n + r) rs
      else WellCut client sent (n + r - f.encode.length) rs))

end

/-! ### Two connections -/

/-- `url.Parse` of `rtsp://host/path`. -/
def splitURL (s : Bytes) : Option URL :=
  if ascii "rtsp://" <+: s then
    match cut 47 (s.drop 7) with
    | (host, some path) => some ⟨[], [], host, 47 :: path⟩
    | (host, none) => some ⟨[], [], host, []⟩
  else none

/-- An OPTIONS request with this `CSeq`. -/
def optionsText (cseq : String) : Bytes :=
  ascii ("OPTIONS rtsp://proxy/rtsp/cam/1 RTSP/1.0\r\nCSeq: " ++ cseq ++ "\r\n\r\n")

/-- What it is parsed to. -/
def optionsRequest (cseq : String) : Request :=
  ⟨ascii "OPTIONS", ascii "rtsp://proxy/rtsp/cam/1", ⟨[], [], ascii "cam", ascii "/1"⟩, ascii "RTSP/1.0",
    [(ascii "Cseq", ascii cseq)]⟩

/-- OPTIONS, number 1. -/
def options1 : RtspRequest splitURL where
  text := optionsText "1"
  request := optionsRequest "1"
  parsed := by decide +kernel
  not_dollar := by decide
  blank := by decide +kernel
  fits := by decide

/-- A frame on channel 1. -/
def rtcp : Frame := ⟨1, [128, 201], by decide⟩

/-- A stream that is playing. -/
def playing : StreamView := ⟨[], [], ascii "/1", ascii "v=0", .ready, .ready, false, true, []⟩

/-- A frame in two reads, the second of which has the beginning of the request that follows. -/
def frameThenRequest : List Arrival :=
  [.bytes [36, 1, 0] playing, .timeout, .bytes ([2, 128, 201] ++ (optionsText "1").take 9) playing,
    .bytes ((optionsText "1").drop 9) playing]

theorem handled_iff_wellCut_frameThenRequest :
    ∃ t, exec (Conn.step splitURL) (newConn [] []) frameThenRequest = some t ∧
      Handled [.frame rtcp (by decide), .request options1] t := by
  have hs : (exec (Conn.step splitURL) (newConn [] []) frameThenRequest).isSome = true := by decide +kernel
  obtain ⟨t, ht⟩ := Option.isSome_iff_exists.mp hs
  exact ⟨t, ht, (handled_iff_wellCut [] [] _ frameThenRequest t (by decide +kernel) (by decide +kernel) ht).mpr
    (by decide +kernel)⟩

/-- The request, cut in the middle of a header. -/
def twoReads : List Arrival :=
  [.bytes ((optionsText "1").take 45) playing, .bytes ((optionsText "1").drop 45) playing]

/-- **A request in two reads**: the first part is taken for a request, its last line is no
header, and the connection is closed. -/
theorem request_in_two_reads :
    twoReads.flatMap Arrival.content = [Message.request options1].flatMap Message.encode ∧
    ∃ t, exec (Conn.step splitURL) (newConn [] []) twoReads = some t ∧ ¬ Handled [.request options1] t := by
  have hs : (exec (Conn.step splitURL) (newConn [] []) twoReads).any (fun t => t.events.isEmpty) = true := by
    decide +kernel
  obtain ⟨t, ht, he⟩ := (Option.any_eq_true _ _).mp hs
  refine ⟨by decide +kernel, t, ht, fun hh => ?_⟩
  have := hh.events
  rw [List.isEmpty_iff.mp he] at this
  cases this

end RtspProxy.Downstream
