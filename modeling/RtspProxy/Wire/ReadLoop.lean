import RtspProxy.Theory.Framer
import RtspProxy.Wire.Message

/-!
# The upstream reader

`Stream.readLoop` demultiplexes what the camera sends on one connection: interleaved
frames (`$`, a channel byte, a 16-bit length, the payload), which go to `dispatch`, and
RTSP messages (a header block, a blank line, a body of the declared length), which go to
`HandleUpstreamResponse`.

## The model

`processPass` is one pass of the inner loop, on the bytes `buffer[:length]`. It is a
`Framer`, so the reader around it is `Framer.read`: process what is buffered, clear the
buffer if it is full, read more. An `Input` is what `conn.Read` returns — bytes, a timeout
(`again`), another error (`stop`) — or the context's end seen at the top of the loop
(`cancel`).

Integers are 64 bits wide and `totalMsgLen` may wrap around. A negative one makes the slice
expression panic (`Fault.sliceOutOfRange`); at zero the loop consumes nothing and goes
round for ever (`Fault.spin`).

## What is proved

* `readLoop_chunking` — what the reader emits and where it ends depends only on the
  bytes the camera sent, not on how they were cut into reads.
* `readLoop_delivers` — items that fit the buffer are delivered exactly, in order, each
  once, and nothing is left over or discarded.
-/

namespace RtspProxy.Wire

open Theory

/-- What the reader hands on. -/
inductive Item where
  /-- `s.dispatch(channel, packet)`. -/
  | packet (channel : ℕ) (bytes : Bytes)
  /-- `s.remote.HandleUpstreamResponse(msg)`. -/
  | message (msg : Bytes)
  deriving DecidableEq, Repr

/-- Why the reader cannot go on. -/
inductive Fault where
  /-- `buffer[:totalMsgLen]` with a negative bound: a run-time panic. -/
  | sliceOutOfRange
  /-- `totalMsgLen` is zero: the loop goes round and consumes nothing. -/
  | spin
  deriving DecidableEq, Repr

/-- `(int(buffer[2]) << 8) | int(buffer[3])`. -/
def pktLen (hi lo : UInt8) : ℕ := hi.toNat * 256 + lo.toNat

/-- `eol + 4 + contentLength`, in 64 bits. -/
def totalMsgLen (buffer : Bytes) (eol : ℕ) : ℤ :=
  wrap64 (eol + 4 + sharedParseContentLength (buffer.take eol))

/-- The branch for an interleaved frame: `buffer[0] == '$'`. -/
def framePass (buffer : Bytes) : Pass Item Fault :=
  match buffer with
  | _ :: channel :: hi :: lo :: _ =>
    if buffer.length < 4 + pktLen hi lo then .more
    else .item (.packet channel.toNat (buffer.take (4 + pktLen hi lo))) (4 + pktLen hi lo)
  | _ => .more

/-- The branch for an RTSP message. -/
def messagePass (buffer : Bytes) : Pass Item Fault :=
  match index crlfcrlf buffer with
  | none => .more
  | some eol =>
    if (buffer.length : ℤ) < totalMsgLen buffer eol then .more
    else if totalMsgLen buffer eol < 0 then .fault .sliceOutOfRange
    else if totalMsgLen buffer eol = 0 then .fault .spin
    else .item (.message (buffer.take (totalMsgLen buffer eol).toNat)) (totalMsgLen buffer eol).toNat

/-- One pass of the processing loop of `Stream.readLoop`. -/
def processPass (buffer : Bytes) : Pass Item Fault :=
  if buffer.head? = some 36 then framePass buffer else messagePass buffer

/-! ### A pass obeys the framer's laws -/

theorem framePass_bounds {b : Bytes} {i : Item} {n : ℕ} (h : framePass b = .item i n) :
    0 < n ∧ n ≤ b.length := by
  unfold framePass at h
  split at h
  · split_ifs at h with hlt
    simp only [Pass.item.injEq] at h
    omega
  · simp at h

theorem messagePass_bounds {b : Bytes} {i : Item} {n : ℕ} (h : messagePass b = .item i n) :
    0 < n ∧ n ≤ b.length := by
  unfold messagePass at h
  split at h
  · simp at h
  · split_ifs at h with hlt hneg hzero
    simp only [Pass.item.injEq] at h
    omega

theorem framePass_ext {b : Bytes} (h : framePass b ≠ .more) (c : Bytes) :
    framePass (b ++ c) = framePass b := by
  match b with
  | a :: ch :: hi :: lo :: r =>
    simp only [framePass, List.cons_append] at h ⊢
    split_ifs at h with hlt
    · exact absurd rfl h
    · have hle : 4 + pktLen hi lo ≤ (a :: ch :: hi :: lo :: r).length := Nat.le_of_not_lt hlt
      rw [if_neg (by simp at hle ⊢; omega), if_neg hlt]
      congr 2
      rw [← List.cons_append, ← List.cons_append, ← List.cons_append, ← List.cons_append,
        List.take_append_of_le_length hle]
  | [] | [_] | [_, _] | [_, _, _] => exact absurd rfl h

theorem messagePass_ext {b : Bytes} (h : messagePass b ≠ .more) (c : Bytes) :
    messagePass (b ++ c) = messagePass b := by
  unfold messagePass at h ⊢
  cases hi : index crlfcrlf b with
  | none => simp [hi] at h
  | some eol =>
    have hle := index_le hi
    have htot : totalMsgLen (b ++ c) eol = totalMsgLen b eol := by
      rw [totalMsgLen, totalMsgLen, List.take_append_of_le_length (by omega)]
    simp only [hi, index_append hi c, htot] at h ⊢
    split_ifs at h with hlt hneg hzero
    · exact absurd rfl h
    · rw [if_neg (by simp; omega), if_neg hlt, if_pos hneg, if_pos hneg]
    · rw [if_neg (by simp; omega), if_neg hlt, if_neg hneg, if_neg hneg, if_pos hzero, if_pos hzero]
    · rw [if_neg (by simp; omega), if_neg hlt, if_neg hneg, if_neg hneg, if_neg hzero, if_neg hzero]
      congr 2
      rw [List.take_append_of_le_length (by omega)]

theorem processPass_nil : processPass [] = .more := by decide

theorem processPass_bounds {b : Bytes} {i : Item} {n : ℕ} (h : processPass b = .item i n) :
    0 < n ∧ n ≤ b.length := by
  unfold processPass at h
  split_ifs at h
  · exact framePass_bounds h
  · exact messagePass_bounds h

theorem processPass_ext {b : Bytes} (h : processPass b ≠ .more) (c : Bytes) :
    processPass (b ++ c) = processPass b := by
  cases b with
  | nil => exact absurd processPass_nil h
  | cons a b =>
    unfold processPass at h ⊢
    by_cases ha : (a :: b).head? = some 36
    · rw [if_pos ha] at h ⊢
      rw [if_pos (by simpa using ha)]
      exact framePass_ext h c
    · rw [if_neg ha] at h ⊢
      rw [if_neg (by simpa using ha)]
      exact messagePass_ext h c

/-- **The upstream framer**: one pass of the processing loop. -/
def upstream : Framer UInt8 Item Fault where
  pass := processPass
  bounds := processPass_bounds
  ext := processPass_ext

/-- `Stream.readLoop` with `GlobalConfig.BufferSize = B`: what it emits and where it ends,
given what `conn.Read` returns. -/
def readLoop (B : ℕ) (is : List (Input UInt8)) : Option (Out UInt8 Item Fault) := upstream.read B is []

/-- Reads that `conn.Read(buffer[length:])` can return: none is empty, each fits the free
space. -/
abbrev Fits (B : ℕ) (is : List (Input UInt8)) : Prop := upstream.Fits B is []

/-- **Chunking independence.** Whatever bytes the camera sends, two ways of cutting them
into reads that fit the free space (with timeouts anywhere between them) make the reader
emit the same packets, messages and discards, and end with the same unconsumed bytes. -/
theorem readLoop_chunking (B : ℕ) (hB : 0 < B) (is₁ is₂ : List (Input UInt8))
    (hr₁ : ∀ i ∈ is₁, i.IsRead) (hr₂ : ∀ i ∈ is₂, i.IsRead) (hs : received is₁ = received is₂)
    (hf₁ : Fits B is₁) (hf₂ : Fits B is₂) :
    ∃ o, readLoop B is₁ = some o ∧ readLoop B is₂ = some o :=
  Framer.read_chunking hB hr₁ hr₂ hs hf₁ hf₂

/-- A frame with an empty payload and a message that does not fit, in two ways. -/
theorem readLoop_chunking_small :
    Fits 4 [.data [36, 0, 0, 0], .data [79, 75], .again, .data [13, 10], .data [33]] ∧
    ∃ o, readLoop 4 [.data [36, 0, 0, 0], .data [79, 75], .again, .data [13, 10], .data [33]] = some o ∧
      readLoop 4 [.data [36, 0], .data [0, 0], .data [79, 75, 13, 10], .data [33]] = some o :=
  ⟨by decide, readLoop_chunking 4 (by decide) _ _ (by decide) (by decide) rfl (by decide) (by decide)⟩

/-! ### What the camera sends -/

/-- An interleaved frame: its payload's length fits the 16-bit field. -/
structure Frame where
  /-- The channel byte. -/
  channel : UInt8
  payload : Bytes
  /-- Its length fits 16 bits. -/
  fits : payload.length < 2 ^ 16

/-- The frame on the wire: `$`, the channel, the length (big-endian), the payload. -/
def Frame.encode (f : Frame) : Bytes :=
  36 :: f.channel :: (f.payload.length / 256).toUInt8 :: (f.payload.length % 256).toUInt8 :: f.payload

/-- An RTSP message: a header block with its first blank line at its end, and a body of
the length it declares. -/
structure RtspMessage where
  /-- The header block, without the blank line. -/
  head : Bytes
  body : Bytes
  /-- There is a header block. -/
  head_ne_nil : head ≠ []
  /-- It does not look like a frame. -/
  not_dollar : head.head? ≠ some 36
  /-- The first blank line ends the header block. -/
  blank : index crlfcrlf (head ++ crlfcrlf) = some head.length
  /-- The declared length is the body's. -/
  declared : sharedParseContentLength head = body.length

/-- The message on the wire. -/
def RtspMessage.encode (m : RtspMessage) : Bytes := m.head ++ crlfcrlf ++ m.body

/-- What the camera sends: frames and messages, in any mix. -/
inductive Sent where
  | frame (f : Frame)
  | message (m : RtspMessage)

/-- The bytes sent. -/
def Sent.encode : Sent → Bytes
  | .frame f => f.encode
  | .message m => m.encode

/-- What the reader must hand on: the whole frame with its channel, or the whole message. -/
def Sent.item : Sent → Item
  | .frame f => .packet f.channel.toNat f.encode
  | .message m => .message m.encode

theorem pktLen_encode {n : ℕ} (h : n < 2 ^ 16) :
    pktLen (n / 256).toUInt8 (n % 256).toUInt8 = n := by
  simp only [pktLen, Nat.toUInt8, UInt8.toNat_ofNat']
  omega

theorem processPass_frame (f : Frame) :
    processPass f.encode = .item (.packet f.channel.toNat f.encode) f.encode.length := by
  have hlen : f.encode.length = 4 + f.payload.length := by simp [Frame.encode]; omega
  have htake : f.encode.take (4 + f.payload.length) = f.encode := by
    rw [← hlen, List.take_length]
  rw [processPass, if_pos (show f.encode.head? = some 36 from rfl), hlen]
  simp only [Frame.encode, framePass, pktLen_encode f.fits] at htake ⊢
  rw [if_neg (by simp; omega), htake]

/-- What is recognised as a packet is a whole frame of the buffer. -/
theorem exists_frame_of_packet {buffer bytes : Bytes} {channel n : ℕ}
    (h : processPass buffer = .item (.packet channel bytes) n) :
    ∃ f : Frame, f.encode = bytes ∧ f.channel.toNat = channel ∧ bytes.length ≤ buffer.length := by
  unfold processPass at h
  split_ifs at h with hhead
  · unfold framePass at h
    split at h
    case h_2 => cases h
    case h_1 a ch hi lo rest =>
      obtain rfl : a = 36 := by simpa using hhead
      split_ifs at h with hlt
      simp only [Pass.item.injEq, Item.packet.injEq] at h
      obtain ⟨⟨rfl, rfl⟩, -⟩ := h
      have hlen : pktLen hi lo ≤ rest.length := by
        simp only [List.length_cons] at hlt
        omega
      have htake : (rest.take (pktLen hi lo)).length = pktLen hi lo := List.length_take_of_le hlen
      have hi₁ := hi.toNat_lt
      have lo₁ := lo.toNat_lt
      have hbytes : (pktLen hi lo / 256).toUInt8 = hi ∧ (pktLen hi lo % 256).toUInt8 = lo := by
        constructor <;> (apply UInt8.toNat_inj.mp; simp only [pktLen, Nat.toUInt8, UInt8.toNat_ofNat']; omega)
      refine ⟨⟨ch, rest.take (pktLen hi lo), ?_⟩, ?_, rfl, List.length_take_le' _ _⟩
      · rw [htake, pktLen]
        omega
      · simp only [Frame.encode, htake, hbytes.1, hbytes.2, Nat.add_comm 4, List.take_succ_cons]
  · unfold messagePass at h
    split at h
    · cases h
    · split_ifs at h
      simp only [Pass.item.injEq, reduceCtorEq, false_and] at h

theorem processPass_message (m : RtspMessage) (h : m.encode.length < 2 ^ 63) :
    processPass m.encode = .item (.message m.encode) m.encode.length := by
  have hlen : m.encode.length = m.head.length + 4 + m.body.length := by
    simp [RtspMessage.encode, crlfcrlf]; omega
  have hhead : m.encode.head? ≠ some 36 := by
    obtain ⟨a, as, has⟩ := List.exists_cons_of_ne_nil m.head_ne_nil
    have := m.not_dollar
    rw [has] at this
    simpa [RtspMessage.encode, has] using this
  have hidx : index crlfcrlf m.encode = some m.head.length := index_append m.blank m.body
  have htake : m.encode.take m.head.length = m.head := by
    rw [RtspMessage.encode, List.append_assoc, List.take_left]
  have htot : totalMsgLen m.encode m.head.length = m.encode.length := by
    rw [totalMsgLen, htake, m.declared, hlen]
    rw [wrap64_of_lt (by omega) (by omega)]
    push_cast
    rfl
  rw [processPass, if_neg hhead, messagePass, hidx]
  simp only [htot, Int.toNat_natCast, List.take_length]
  rw [if_neg (by omega), if_neg (by omega), if_neg (by omega)]

theorem Sent.four_le (x : Sent) : 4 ≤ x.encode.length := by
  cases x with
  | frame f => simp [Sent.encode, Frame.encode]
  | message m => simp [Sent.encode, RtspMessage.encode, crlfcrlf]; omega

theorem processPass_sent (x : Sent) (h : x.encode.length < 2 ^ 63) :
    processPass x.encode = .item x.item x.encode.length := by
  cases x with
  | frame f => exact processPass_frame f
  | message m => exact processPass_message m h

/-- **Exact delivery.** Items that fit the buffer, sent one after the other and cut into
reads in any way, are handed on exactly: every frame whole and under its channel, every
message whole, in the order sent, each once; no buffer is discarded and nothing is left
over. (A buffer's size is an `int`. A buffer of size zero, which no item fits, counts as
full before anything is read.) -/
theorem readLoop_delivers (B : ℕ) (hint : B < 2 ^ 63) (sent : List Sent) (h₀ : 0 < B ∨ sent ≠ [])
    (hfit : ∀ x ∈ sent, x.encode.length ≤ B) (is : List (Input UInt8)) (hr : ∀ i ∈ is, i.IsRead)
    (hs : received is = sent.flatMap Sent.encode) (hf : Fits B is) :
    readLoop B is = some (sent.map fun x => .item x.item, .waiting []) := by
  have hB : 0 < B := by
    refine h₀.elim id fun hne => ?_
    obtain ⟨x, hx⟩ := List.exists_mem_of_ne_nil _ hne
    have h₄ := x.four_le
    have hle := hfit x hx
    omega
  refine Framer.read_items (F := upstream) hB hr hf (fun x hx => ?_) .nil (by rw [hs, List.append_nil])
  exact ⟨processPass_sent x (lt_of_le_of_lt (hfit x hx) hint), hfit x hx⟩

/-- A frame whose payload looks like a frame, and a message. -/
def frameAndMessage : List Sent :=
  [.frame ⟨1, [36, 0], by decide⟩, .message ⟨[79, 75], [], by decide, by decide, by decide, by decide⟩]

/-- The two delivered, from reads that cut both. -/
theorem readLoop_delivers_frameAndMessage :
    readLoop 16 [.data [36, 1, 0], .data [2, 36, 0, 79, 75], .again, .data [13, 10, 13, 10]] =
      some (frameAndMessage.map fun x => .item x.item, .waiting []) :=
  readLoop_delivers 16 (by decide) frameAndMessage (.inr (by simp [frameAndMessage])) (by decide)
    [.data [36, 1, 0], .data [2, 36, 0, 79, 75], .again, .data [13, 10, 13, 10]]
    (by decide) (by decide) (by decide)

end RtspProxy.Wire
