import RtspProxy.Downstream.Client

/-!
# Reading a client's frame into the buffer

`incomingRequestHandler` reads a client's interleaved frame into a buffer of 65536 bytes. It calls
`Read` with the free part of the buffer until the header and then the data are there, copies the
data out, and moves what follows to the front.

A frame of 65533 bytes or more does not fit together with its header. The buffer is then full before
the frame is complete; a `Read` into no bytes returns none and no error, at once, and the loop goes
on calling it (`spins`).

## The model

`FrameBuf` is the buffer with all its cells, those behind `length` included. Indexing and slicing are
checked. A `Read` with room returns one byte at least and no more than there is room for, or times
out; one without room returns nothing. `arrived` records what has arrived.

## What is proved

* `matches_readHeader`, `matches_received` — this is what `Conn` does with its list of bytes.
* `FrameRead.Inv.exec` — what the loops have read, in every run.
* `readsFrame_iff` — **the loops read into a non-empty slice each time, end when the frame has
  arrived, and slice and copy in range, exactly for the frames that fit the buffer with their
  header.**
-/

namespace RtspProxy.Downstream

open Theory Wire

/-! ### The buffer -/

/-- `buffer` and `length`. -/
structure FrameBuf where
  /-- `buffer`. -/
  cells : Bytes
  length : ℕ
  /-- It is made with `rtspBufferSize`. -/
  size : cells.length = rtspBufferSize
  /-- `length` counts its bytes. -/
  fits : length ≤ rtspBufferSize

/-- `buffer[:length]`. -/
def FrameBuf.view (b : FrameBuf) : Bytes := b.cells.take b.length

/-- The length of `buffer[length:]`. -/
def FrameBuf.room (b : FrameBuf) : ℕ := rtspBufferSize - b.length

/-- `buffer[lo:hi]`. -/
def FrameBuf.slice (b : FrameBuf) (lo hi : ℕ) : Option Bytes :=
  if lo ≤ hi ∧ hi ≤ b.cells.length then some ((b.cells.take hi).drop lo) else none

@[simp] theorem FrameBuf.length_view (b : FrameBuf) : b.view.length = b.length := by
  rw [FrameBuf.view, List.length_take, b.size]
  exact Nat.min_eq_left b.fits

/-- A `Read` into `buffer[length:]` that returns these bytes, and `length += recvLen`. -/
def FrameBuf.fill (b : FrameBuf) (bs : Bytes) (h : bs.length ≤ b.room) : FrameBuf where
  cells := b.view ++ (bs ++ b.cells.drop (b.length + bs.length))
  length := b.length + bs.length
  size := by
    have := b.size
    have := b.fits
    simp only [FrameBuf.room] at h
    simp only [List.length_append, FrameBuf.length_view, List.length_drop]
    omega
  fits := by
    have := b.fits
    simp only [FrameBuf.room] at h
    omega

/-- `length = copy(buffer, src)`. -/
def FrameBuf.copyFront (b : FrameBuf) (src : Bytes) : FrameBuf where
  cells := src.take rtspBufferSize ++ b.cells.drop src.length
  length := min src.length rtspBufferSize
  size := by
    have := b.size
    simp only [List.length_append, List.length_take, List.length_drop]
    omega
  fits := Nat.min_le_right _ _

@[simp] theorem FrameBuf.view_fill (b : FrameBuf) (bs : Bytes) (h : bs.length ≤ b.room) :
    (b.fill bs h).view = b.view ++ bs := by
  rw [FrameBuf.view, FrameBuf.fill]
  dsimp only
  rw [← List.append_assoc, List.take_left']
  simp

theorem FrameBuf.view_copyFront (b : FrameBuf) {src : Bytes} (h : src.length ≤ rtspBufferSize) :
    (b.copyFront src).view = src := by
  rw [FrameBuf.view, FrameBuf.copyFront]
  dsimp only
  rw [List.take_of_length_le h, Nat.min_eq_left h, List.take_left]

theorem FrameBuf.slice_eq (b : FrameBuf) {lo hi : ℕ} (h : lo ≤ hi) (hl : hi ≤ b.length) :
    b.slice lo hi = some ((b.view.drop lo).take (hi - lo)) := by
  have := b.fits
  rw [FrameBuf.slice, if_pos ⟨h, by rw [b.size]; omega⟩, FrameBuf.view, List.drop_take, List.drop_take, List.take_take]
  congr 2
  omega

/-! ### The loops -/

/-- Where the handler is. -/
inductive FramePc where
  /-- In the loop for the header. -/
  | header
  /-- In the loop for the data. -/
  | data (tcpChannel : UInt8) (streamDataLength : ℕ)
  /-- It has extracted the frame. -/
  | extracted (tcpChannel : UInt8) (dataBuffer : Bytes)
  | returned
  /-- It has panicked: an index or a slice was out of range. -/
  | panicked
  deriving DecidableEq, Repr

/-- It is about to call `Read`. -/
def FramePc.reads : FramePc → Bool
  | .header | .data _ _ => true
  | .extracted _ _ | .returned | .panicked => false

/-- The handler in its branch for frames. -/
structure FrameRead where
  /-- The buffer. -/
  buf : FrameBuf
  /-- Where it is. -/
  pc : FramePc
  /-- The bytes that have arrived, from the frame's first on (a record). -/
  arrived : Bytes

/-- The condition of the loop for the data, and what follows the loop. -/
def FrameRead.readData (s : FrameRead) (tcpChannel : UInt8) (streamDataLength : ℕ) : FrameRead :=
  if s.buf.length - 4 < streamDataLength then { s with pc := .data tcpChannel streamDataLength }
  else
    match s.buf.slice 4 (4 + streamDataLength), s.buf.slice (4 + streamDataLength) s.buf.length with
    | some dataBuffer, some rest => { s with buf := s.buf.copyFront rest, pc := .extracted tcpChannel dataBuffer }
    | _, _ => { s with pc := .panicked }

/-- The condition of the loop for the header, and what follows the loop. -/
def FrameRead.readHeader (s : FrameRead) : FrameRead :=
  if s.buf.length < 4 then { s with pc := .header }
  else
    match s.buf.cells[1]?, s.buf.cells[2]?, s.buf.cells[3]? with
    | some tcpChannel, some hi, some lo => s.readData tcpChannel (pktLen hi lo)
    | _, _, _ => { s with pc := .panicked }

/-- The branch is entered with `buffer[0] == '$'`. -/
def enterFrame (b : FrameBuf) : FrameRead := FrameRead.readHeader ⟨b, .header, b.view⟩

/-- How a `Read` ends, or the loop. -/
inductive ReadInput where
  /-- It returns bytes. -/
  | bytes (bs : Bytes)
  /-- It times out. -/
  | timeout
  /-- It fails, or the server shuts down. -/
  | closed
  deriving DecidableEq, Repr

/-- What a loop does with the bytes that a `Read` returns. -/
def FrameRead.received (s : FrameRead) (bs : Bytes) (h : bs.length ≤ s.buf.room) : FrameRead :=
  let s := { s with buf := s.buf.fill bs h, arrived := s.arrived ++ bs }
  match s.pc with
  | .header => s.readHeader
  | .data tcpChannel streamDataLength => s.readData tcpChannel streamDataLength
  | _ => s

/-- One step of the loops. -/
def FrameRead.step (s : FrameRead) (o : ReadInput) : Option FrameRead :=
  if s.pc.reads then
    match o with
    | .bytes bs =>
      if h : bs.length ≤ s.buf.room then
        if bs = [] ↔ s.buf.room = 0 then some (s.received bs h) else none
      else none
    | .timeout => if s.buf.room = 0 then none else some s
    | .closed => some { s with pc := .returned }
  else none

/-! ### What `Conn` does -/

/-- The handler is where `Conn` is, which had done these things when the frame began. -/
def Matches (s : FrameRead) (c : Conn) (events : List Event) : Prop :=
  match s.pc with
  | .header => c.pc = .header ∧ c.buffer = s.buf.view ∧ c.events = events
  | .data tcpChannel streamDataLength =>
    c.pc = .data tcpChannel streamDataLength ∧ c.buffer = s.buf.view ∧ c.events = events ∧ 4 ≤ s.buf.length
  | .extracted tcpChannel dataBuffer =>
    c.pc = .top ∧ c.buffer = s.buf.view ∧ c.events = events ++ [.frame tcpChannel dataBuffer]
  | .returned => c.pc = .returned
  | .panicked => False

section
variable {s t : FrameRead} {c : Conn}

/-- What follows the frame, and what the data are. -/
theorem slices_eq (b : FrameBuf) {n : ℕ} (h : ¬ b.length - 4 < n) (h₄ : 4 ≤ b.length) :
    b.slice 4 (4 + n) = some ((b.view.drop 4).take n) ∧ b.slice (4 + n) b.length = some (b.view.drop (4 + n)) := by
  refine ⟨?_, ?_⟩
  · rw [b.slice_eq (by omega) (by omega)]
    congr 2
    omega
  · rw [b.slice_eq (by omega) (by omega), List.take_of_length_le]
    simp

/-- The loop for the data, when the header is there. -/
theorem readData_eq (h₄ : 4 ≤ s.buf.length) (tcpChannel : UInt8) (n : ℕ) :
    s.readData tcpChannel n =
      if s.buf.length - 4 < n then { s with pc := .data tcpChannel n }
      else { s with
        buf := s.buf.copyFront (s.buf.view.drop (4 + n))
        pc := .extracted tcpChannel ((s.buf.view.drop 4).take n) } := by
  unfold FrameRead.readData
  split_ifs with h
  · rfl
  · rw [(slices_eq s.buf h h₄).1, (slices_eq s.buf h h₄).2]

theorem header_cases (bs : Bytes) :
    bs.length < 4 ∨ ∃ d tcpChannel hi lo rest, bs = d :: tcpChannel :: hi :: lo :: rest := by
  match bs with
  | [] | [_] | [_, _] | [_, _, _] => exact .inl (by simp)
  | d :: tcpChannel :: hi :: lo :: rest => exact .inr ⟨d, tcpChannel, hi, lo, rest, rfl⟩

/-- The loop for the header, when it is there. -/
theorem readHeader_eq {d tcpChannel hi lo : UInt8} {rest : Bytes}
    (hv : s.buf.view = d :: tcpChannel :: hi :: lo :: rest) :
    s.readHeader = s.readData tcpChannel (pktLen hi lo) := by
  have hlen : s.buf.length = rest.length + 4 := by rw [← s.buf.length_view, hv]; rfl
  have hcell : ∀ i, i < 4 → s.buf.cells[i]? = s.buf.view[i]? := by
    intro i hi'
    rw [FrameBuf.view, List.getElem?_take_of_lt (by omega)]
  unfold FrameRead.readHeader
  rw [if_neg (by omega), hcell 1 (by decide), hcell 2 (by decide), hcell 3 (by decide), hv]
  rfl

theorem matches_readData (hv : c.buffer = s.buf.view) (h₄ : 4 ≤ s.buf.length) (tcpChannel : UInt8) (n : ℕ) :
    Matches (s.readData tcpChannel n) (c.readData tcpChannel n) c.events := by
  have hlen : c.buffer.length = s.buf.length := by rw [hv, s.buf.length_view]
  rw [readData_eq h₄, Conn.readData, hlen]
  split_ifs
  · exact ⟨rfl, hv, rfl, h₄⟩
  · refine ⟨rfl, ?_, ?_⟩
    · refine (congrArg (List.drop _) hv).trans (FrameBuf.view_copyFront _ ?_).symm
      have := s.buf.fits
      simp only [List.length_drop, FrameBuf.length_view]
      omega
    · rw [hv]

/-- **The loops do with the buffer what `Conn` does with its list of bytes**, from the frame's first
bytes on, -/
theorem matches_readHeader (hv : c.buffer = s.buf.view) : Matches s.readHeader c.readHeader c.events := by
  rcases header_cases s.buf.view with hlt | ⟨d, tcpChannel, hi, lo, rest, hm⟩
  · have hc : c.readHeader = { c with pc := .header } := by
      unfold Conn.readHeader
      split
      case h_1 hb =>
        rw [← hv, hb] at hlt
        simp only [List.length_cons] at hlt
        omega
      case h_2 => rfl
    rw [hc, FrameRead.readHeader, if_pos (s.buf.length_view ▸ hlt)]
    exact ⟨rfl, hv, rfl⟩
  · have hc : c.readHeader = c.readData tcpChannel (pktLen hi lo) := by
      unfold Conn.readHeader
      rw [hv, hm]
    rw [hc, readHeader_eq hm]
    refine matches_readData hv ?_ _ _
    rw [← s.buf.length_view, hm]
    simp

theorem matches_received (parse : Bytes → Option URL) {events : List Event} (hm : Matches s c events)
    (hr : s.pc.reads = true) (bs : Bytes) (h : bs.length ≤ s.buf.room) (view : StreamView) :
    Matches (s.received bs h) (c.received parse bs view) events := by
  unfold Matches at hm
  unfold FrameRead.received Conn.received
  dsimp only
  split at hm
  case h_1 hpc =>
    obtain ⟨hc, hv, rfl⟩ := hm
    rw [hpc, hc]
    exact matches_readHeader (c := { c with buffer := c.buffer ++ bs }) (by rw [hv]; exact (s.buf.view_fill bs h).symm)
  case h_2 hpc =>
    obtain ⟨hc, hv, rfl, h₄⟩ := hm
    rw [hpc, hc]
    exact matches_readData (c := { c with buffer := c.buffer ++ bs }) (by rw [hv]; exact (s.buf.view_fill bs h).symm)
      (Nat.le_add_right_of_le h₄) _ _
  case h_3 hpc | h_4 hpc | h_5 hpc =>
    rw [hpc] at hr
    cases hr

end

/-! ### What the loops have read -/

/-- The length of a frame's data, by its header. -/
def declared : Bytes → Option ℕ
  | _ :: _ :: hi :: lo :: _ => some (pktLen hi lo)
  | _ => none

/-- What has been read, by where the handler is. -/
def FrameRead.Inv (s : FrameRead) : Prop :=
  match s.pc with
  | .header => s.buf.view = s.arrived ∧ s.arrived.length < 4
  | .data _ n => s.buf.view = s.arrived ∧ declared s.arrived = some n ∧ s.arrived.length < 4 + n
  | .extracted _ _ => ∃ n, declared s.arrived = some n ∧ 4 + n ≤ s.arrived.length
  | .returned => True
  | .panicked => False

section
variable {s t : FrameRead}

theorem declared_append {bs bs' : Bytes} {n : ℕ} (h : declared bs = some n) : declared (bs ++ bs') = some n := by
  match bs with
  | [] | [_] | [_, _] | [_, _, _] => cases h
  | _ :: _ :: _ :: _ :: _ => exact h

theorem length_of_declared {bs : Bytes} {n : ℕ} (h : declared bs = some n) : 4 ≤ bs.length := by
  match bs with
  | [] | [_] | [_, _] | [_, _, _] => cases h
  | _ :: _ :: _ :: _ :: _ => simp

theorem inv_readData (hv : s.buf.view = s.arrived) {n : ℕ} (hd : declared s.arrived = some n) (tcpChannel : UInt8) :
    (s.readData tcpChannel n).Inv := by
  have hlen : s.buf.length = s.arrived.length := by rw [← hv, s.buf.length_view]
  have h₄ := length_of_declared hd
  rw [readData_eq (by omega)]
  split_ifs
  · exact ⟨hv, hd, show s.arrived.length < 4 + n by omega⟩
  · exact ⟨n, hd, show 4 + n ≤ s.arrived.length by omega⟩

theorem inv_readHeader (hv : s.buf.view = s.arrived) : s.readHeader.Inv := by
  rcases header_cases s.buf.view with hlt | ⟨d, tcpChannel, hi, lo, rest, hm⟩
  · rw [FrameRead.readHeader, if_pos (s.buf.length_view ▸ hlt)]
    exact ⟨hv, hv ▸ hlt⟩
  · rw [readHeader_eq hm]
    exact inv_readData hv (by rw [← hv, hm]; rfl) _

theorem FrameRead.Inv.received (h : s.Inv) (hr : s.pc.reads = true) (bs : Bytes) (hb : bs.length ≤ s.buf.room) :
    (s.received bs hb).Inv := by
  unfold FrameRead.Inv at h
  unfold FrameRead.received
  dsimp only
  split at h
  case h_1 hpc =>
    rw [hpc]
    exact inv_readHeader ((s.buf.view_fill bs hb).trans (congrArg (· ++ bs) h.1))
  case h_2 hpc =>
    rw [hpc]
    exact inv_readData ((s.buf.view_fill bs hb).trans (congrArg (· ++ bs) h.1)) (declared_append h.2.1) _
  case h_3 hpc | h_4 hpc | h_5 hpc =>
    rw [hpc] at hr
    cases hr

theorem FrameRead.Inv.step (h : s.Inv) {o : ReadInput} (hs : s.step o = some t) : t.Inv := by
  obtain ⟨hr, hs⟩ := Option.ite_none_right_eq_some.mp hs
  cases o with
  | bytes bs =>
    dsimp only at hs
    split at hs
    case isTrue hb =>
      obtain ⟨-, ⟨⟩⟩ := Option.ite_none_right_eq_some.mp hs
      exact h.received hr bs hb
    case isFalse => cases hs
  | timeout =>
    obtain ⟨-, ⟨⟩⟩ := Option.ite_none_left_eq_some.mp hs
    exact h
  | closed =>
    cases hs
    trivial

/-- **What the loops have read, in every run.** -/
theorem FrameRead.Inv.exec (b : FrameBuf) (os : List ReadInput)
    (h : Theory.exec FrameRead.step (enterFrame b) os = some t) : t.Inv :=
  exec_invariant (C := fun _ _ => True) (fun _ _ _ hs _ hstep => hs.step hstep) os (enterFrame b) t
    (inv_readHeader rfl) (allSteps_of_forall fun _ _ => trivial) h

end

/-! ### Which frames are read -/

/-- **Frame reading**: of a frame with this header, whatever is buffered already and however the rest
arrives, each `Read` of the loops gets a non-empty slice of the buffer, the loops end once the
frame has arrived, and no index or slice is out of range. -/
def ReadsFrame (tcpChannel hi lo : UInt8) : Prop :=
  ∀ (b : FrameBuf) (os : List ReadInput) (t : FrameRead), b.view.head? = some 36 →
    exec FrameRead.step (enterFrame b) os = some t → (∃ rest, t.arrived <+: [36, tcpChannel, hi, lo] ++ rest) →
    (t.pc.reads = true → 0 < t.buf.room) ∧
      (4 + pktLen hi lo ≤ t.arrived.length → t.pc.reads = false) ∧ t.pc ≠ .panicked

section
variable {tcpChannel hi lo : UInt8}

/-- What has arrived of the frame declares its length. -/
theorem declared_of_prefix {bs rest : Bytes} {n : ℕ} (h : bs <+: [36, tcpChannel, hi, lo] ++ rest)
    (hd : declared bs = some n) : n = pktLen hi lo := by
  obtain ⟨l, hl⟩ := h
  have : declared (bs ++ l) = some n := declared_append hd
  rw [hl] at this
  exact (Option.some.inj this).symm

theorem readsFrame_of_fits (h : 4 + pktLen hi lo ≤ rtspBufferSize) : ReadsFrame tcpChannel hi lo := by
  intro b os t _ hexec ⟨rest, hrest⟩
  have hinv := FrameRead.Inv.exec b os hexec
  unfold FrameRead.Inv at hinv
  split at hinv
  case h_1 hpc =>
    have hlen : t.buf.length = t.arrived.length := by rw [← hinv.1, t.buf.length_view]
    refine ⟨fun _ => ?_, fun hle => ?_, by simp [hpc]⟩
    · unfold FrameBuf.room rtspBufferSize
      omega
    · omega
  case h_2 n hpc =>
    obtain ⟨hv, hd, hlt⟩ := hinv
    obtain rfl := declared_of_prefix hrest hd
    have hlen : t.buf.length = t.arrived.length := by rw [← hv, t.buf.length_view]
    refine ⟨fun _ => ?_, fun hle => absurd hlt (by omega), by simp [hpc]⟩
    unfold FrameBuf.room
    omega
  case h_3 hpc | h_4 hpc => simp [hpc, FramePc.reads]
  case h_5 => cases hinv

/-- A `Read` after which the frame is still not complete. -/
theorem step_data {s : FrameRead} {n : ℕ} (hpc : s.pc = .data tcpChannel n) {bs : Bytes} (hb : bs.length ≤ s.buf.room)
    (hn : bs = [] ↔ s.buf.room = 0) (hlt : s.buf.length + bs.length - 4 < n) :
    s.step (.bytes bs) = some { s with buf := s.buf.fill bs hb, arrived := s.arrived ++ bs } := by
  have hrec : s.received bs hb = { s with buf := s.buf.fill bs hb, arrived := s.arrived ++ bs } := by
    unfold FrameRead.received
    rw [hpc]
    exact if_pos hlt
  have hreads : s.pc.reads = true := by rw [hpc]; rfl
  unfold FrameRead.step
  rw [if_pos hreads]
  dsimp only
  rw [dif_pos hb, if_pos hn, hrec]

/-- A `Read` into no bytes leaves the buffer. -/
theorem FrameBuf.fill_nil (b : FrameBuf) (h : ([] : Bytes).length ≤ b.room) : b.fill [] h = b := by
  obtain ⟨cells, length, size, fits⟩ := b
  simp [FrameBuf.fill, FrameBuf.view]

/-- A buffer that holds a header. -/
def headerBuf (tcpChannel hi lo : UInt8) : FrameBuf where
  cells := [36, tcpChannel, hi, lo] ++ List.replicate (rtspBufferSize - 4) 0
  length := 4
  size := by
    rw [List.length_append, List.length_replicate]
    exact Nat.add_sub_of_le (show 4 ≤ rtspBufferSize by decide)
  fits := by decide

theorem view_headerBuf (tcpChannel hi lo : UInt8) : (headerBuf tcpChannel hi lo).view = [36, tcpChannel, hi, lo] := rfl

theorem enterFrame_headerBuf (h : 0 < pktLen hi lo) :
    enterFrame (headerBuf tcpChannel hi lo) =
      ⟨headerBuf tcpChannel hi lo, .data tcpChannel (pktLen hi lo), [36, tcpChannel, hi, lo]⟩ := by
  unfold enterFrame
  rw [readHeader_eq (view_headerBuf tcpChannel hi lo)]
  exact if_pos h

/-- The rest of the buffer is filled by one `Read`. -/
def fillRest : ReadInput := .bytes (List.replicate (rtspBufferSize - 4) 0)

/-- The buffer is full before the frame is complete. -/
structure Full (tcpChannel hi lo : UInt8) (t : FrameRead) : Prop where
  /-- The frame is not complete. -/
  pc : t.pc = .data tcpChannel (pktLen hi lo)
  /-- The buffer is full. -/
  length : t.buf.length = rtspBufferSize
  /-- What has arrived is of the frame. -/
  arrived : t.arrived = [36, tcpChannel, hi, lo] ++ List.replicate (rtspBufferSize - 4) 0

theorem Full.room {t : FrameRead} (h : Full tcpChannel hi lo t) : t.buf.room = 0 := by
  rw [FrameBuf.room, h.length, Nat.sub_self]

/-- A frame that does not fit fills the buffer. -/
theorem full_of_not_fits (h : rtspBufferSize < 4 + pktLen hi lo) :
    ∃ t, exec FrameRead.step (enterFrame (headerBuf tcpChannel hi lo)) [fillRest] = some t ∧
      Full tcpChannel hi lo t := by
  have hsize : 4 < rtspBufferSize := by decide
  have hroom : (headerBuf tcpChannel hi lo).room = rtspBufferSize - 4 := rfl
  rw [enterFrame_headerBuf (by omega)]
  refine ⟨_, exec_cons_eq_some.mpr ⟨_, step_data rfl ?_ ?_ ?_, rfl⟩, ⟨rfl, ?_, rfl⟩⟩
  · rw [List.length_replicate, hroom]
  · rw [hroom, List.replicate_eq_nil_iff]
  · show 4 + (List.replicate (rtspBufferSize - 4) (0 : UInt8)).length - 4 < _
    rw [List.length_replicate]
    omega
  · show 4 + (List.replicate (rtspBufferSize - 4) (0 : UInt8)).length = _
    rw [List.length_replicate]
    omega

/-- A `Read` into a full buffer changes nothing. -/
theorem step_full {t : FrameRead} (h : Full tcpChannel hi lo t) (hlt : rtspBufferSize < 4 + pktLen hi lo) :
    t.step (.bytes []) = some t := by
  have hnone : ([] : Bytes).length ≤ t.buf.room := Nat.zero_le _
  have hstep := step_data h.pc hnone (iff_of_true rfl h.room)
    (by rw [h.length]; exact Nat.sub_lt_left_of_lt_add (by decide) hlt)
  rw [FrameBuf.fill_nil, List.append_nil] at hstep
  exact hstep

end

/-- **Exactly the frames that fit the buffer with their header are read.** -/
theorem readsFrame_iff (tcpChannel hi lo : UInt8) :
    ReadsFrame tcpChannel hi lo ↔ 4 + pktLen hi lo ≤ rtspBufferSize := by
  refine ⟨fun h => ?_, readsFrame_of_fits⟩
  by_contra hlt
  obtain ⟨t, hexec, hfull⟩ := full_of_not_fits (Nat.lt_of_not_le hlt)
  have hrest : t.arrived <+: [36, tcpChannel, hi, lo] ++ List.replicate (rtspBufferSize - 4) 0 :=
    hfull.arrived ▸ List.prefix_rfl
  have hroom := (h _ _ t rfl hexec ⟨_, hrest⟩).1 (by rw [hfull.pc]; rfl)
  rw [hfull.room] at hroom
  exact Nat.lt_irrefl 0 hroom

/-- **A frame of 65533 bytes fills the buffer; then the loop reads into no bytes again and again.** -/
theorem spins : pktLen 255 253 = 65533 ∧
    ∃ t, exec FrameRead.step (enterFrame (headerBuf 0 255 253)) [fillRest] = some t ∧
      t.pc.reads = true ∧ t.buf.room = 0 ∧ ∀ n, exec FrameRead.step t (List.replicate n (.bytes [])) = some t := by
  have hlen : rtspBufferSize < 4 + pktLen 255 253 := by decide
  obtain ⟨t, hexec, hfull⟩ := full_of_not_fits hlen
  refine ⟨rfl, t, hexec, by rw [hfull.pc]; rfl, hfull.room, fun n => ?_⟩
  induction n with
  | zero => rfl
  | succ n ih => exact exec_cons_eq_some.mpr ⟨t, step_full hfull hlen, ih⟩

end RtspProxy.Downstream
