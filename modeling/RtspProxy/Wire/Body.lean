import RtspProxy.Wire.Response
import RtspProxy.Wire.Limits

/-!
# The body of a response, as the framer and the parser see it

Where a message ends in the camera's stream, `Stream.readLoop` decides: the header block ends at
the first `\r\n\r\n`, and the body has as many bytes as the first text `content-length:`
anywhere in the block is followed by. `NewResponseFromBuffer` then reads the message again, in
another way: a line ends with `\r\n`, `\r` or `\n`, the header lines end at the first empty one,
and the body has as many bytes as the last header line of the key `Content-Length` says, if its
value is a number.

## The model

`headerLines` are the lines the parser finds in a text up to the first empty one, and what
follows it. For a header block that the framer has cut out, `leftover` is the part of it that
the parser takes for the start of the body, and `parserLength` the length the parser reads.

## What is proved

* `newResponseFromBuffer_body` — what the body of the parsed response is made of.
* `body_agrees_iff` — the parsed body is the body exactly when `BodyAgrees` holds of the header
  block and the body.
-/

namespace RtspProxy.Wire

open Theory

/-! ### The lines of a text -/

/-- The lines of a text up to the first empty one, and what follows it. -/
def headerLines : ℕ → Bytes → List Bytes × Bytes
  | 0, next => ([], next)
  | k + 1, next =>
    if (sharedLineSplit next).2 = [] then ([], (sharedLineSplit next).1)
    else ((sharedLineSplit next).2 :: (headerLines k (sharedLineSplit next).1).1,
      (headerLines k (sharedLineSplit next).1).2)

/-- `headers[key] = value` for a header line. -/
def setLine (headers : Headers) (line : Bytes) : Headers :=
  match sharedParseHeader line with
  | .ok (key, value) => headers.set key value
  | .error _ => headers

/-- **The header loop sets the header lines one after the other**, and each of them is one. -/
theorem headerLoop_ok {k : ℕ} {next rest : Bytes} {headers headers' : Headers}
    (h : headerLoop k next headers = .ok (headers', rest)) :
    headers' = (headerLines k next).1.foldl setLine headers ∧ rest = (headerLines k next).2 ∧
      ∀ line ∈ (headerLines k next).1, ∃ kv, sharedParseHeader line = .ok kv := by
  induction k generalizing next headers with
  | zero =>
    simp only [headerLoop, Except.ok.injEq, Prod.mk.injEq] at h
    exact ⟨h.1.symm, h.2.symm, by simp [headerLines]⟩
  | succ k ih =>
    rw [headerLoop] at h
    rw [headerLines]
    simp only at h
    split_ifs at h ⊢ with hline
    · simp only [Except.ok.injEq, Prod.mk.injEq] at h
      exact ⟨h.1.symm, h.2.symm, by simp⟩
    · cases hp : sharedParseHeader (sharedLineSplit next).2 with
      | error e => simp [hp] at h
      | ok kv =>
        obtain ⟨key, value⟩ := kv
        simp only [hp] at h
        obtain ⟨hh, hr, hlines⟩ := ih h
        refine ⟨?_, hr, List.forall_mem_cons.mpr ⟨⟨_, hp⟩, hlines⟩⟩
        rw [List.foldl_cons, hh]
        simp only [setLine, hp]

/-! ### Lines of a header block with a body behind it -/

/-- A line that ends within a text ends there whatever follows. (The text ends with `\n`, so its
last byte is not a `\r` that a `\n` might follow.) -/
theorem sharedLineSplit_append {s : Bytes} (h : s.getLast? = some 10) (t : Bytes) :
    sharedLineSplit (s ++ t) = ((sharedLineSplit s).1 ++ t, (sharedLineSplit s).2) := by
  fun_induction sharedLineSplit s with
  | case1 => simp at h
  | case2 rest => rfl
  | case3 c cs hne hc =>
    cases cs with
    | nil =>
      simp only [List.getLast?_singleton, Option.some.injEq] at h
      subst h
      rfl
    | cons d ds =>
      rw [List.cons_append, List.cons_append, sharedLineSplit, if_pos hc]
      rintro rest rfl heq
      obtain ⟨rfl, -⟩ := List.cons.inj heq
      exact hne ds rfl rfl
  | case4 c cs hne hc ih =>
    cases cs with
    | nil =>
      simp only [List.getLast?_singleton, Option.some.injEq] at h
      exact absurd (.inr h) hc
    | cons d ds =>
      rw [List.getLast?_cons_cons] at h
      have := ih h
      rw [List.cons_append, sharedLineSplit, if_neg hc, this]
      rintro rest rfl
      exact absurd (.inl rfl) hc

/-- A text that ends with a line end and an empty line, or is an empty line. -/
def EndsBlank (s : Bytes) : Prop := s = crlf ∨ ∃ u, s = u ++ 10 :: crlf

theorem EndsBlank.getLast {s : Bytes} (h : EndsBlank s) : s.getLast? = some 10 := by
  rcases h with rfl | ⟨u, rfl⟩
  · rfl
  · simp [crlf]

/-- Behind the first line of such a text, such a text is left. -/
theorem endsBlank_split (u : Bytes) : EndsBlank (sharedLineSplit (u ++ 10 :: crlf)).1 := by
  induction u with
  | nil => exact .inl rfl
  | cons c u ih =>
    rw [List.cons_append]
    by_cases hc : c = 13 ∨ c = 10
    · -- an empty line, which ends with one byte or two
      by_cases hcr : c = 13 ∧ (u ++ 10 :: crlf).head? = some 10
      · obtain ⟨rfl, hu⟩ := hcr
        cases u with
        | nil => exact .inl rfl
        | cons d u =>
          simp only [List.cons_append, List.head?_cons, Option.some.injEq] at hu
          subst hu
          exact .inr ⟨u, rfl⟩
      · rw [sharedLineSplit, if_pos hc]
        · exact .inr ⟨u, rfl⟩
        · rintro rest rfl heq
          exact hcr ⟨rfl, by rw [heq]; rfl⟩
    · rw [sharedLineSplit, if_neg hc]
      · exact ih
      · rintro rest rfl
        exact absurd (.inl rfl) hc

/-- The header lines of a text that ends with an empty line are the same with anything behind
it. -/
theorem headerLines_append {k m : ℕ} {s : Bytes} (hs : EndsBlank s) (hk : s.length ≤ k) (hm : s.length ≤ m)
    (t : Bytes) : headerLines k (s ++ t) = ((headerLines m s).1, (headerLines m s).2 ++ t) := by
  have hne : s ≠ [] := by
    rintro rfl
    simpa using hs.getLast
  induction k generalizing m s with
  | zero => exact absurd (List.length_eq_zero_iff.mp (Nat.le_zero.mp hk)) hne
  | succ k ih =>
    have hlt := sharedLineSplit_length hne
    obtain ⟨m, rfl⟩ : ∃ m', m = m' + 1 := Nat.exists_eq_succ_of_ne_zero (by omega)
    rw [headerLines, headerLines, sharedLineSplit_append hs.getLast]
    by_cases hline : (sharedLineSplit s).2 = []
    · rw [if_pos hline, if_pos hline]
    · rw [if_neg hline, if_neg hline]
      have hrest : EndsBlank (sharedLineSplit s).1 := by
        rcases hs with rfl | ⟨u, rfl⟩
        · exact absurd rfl hline
        · exact endsBlank_split u
      have hne' : (sharedLineSplit s).1 ≠ [] := by
        intro h
        have := hrest.getLast
        rw [h] at this
        simp at this
      rw [ih hrest (by omega) (m := m) (by omega) hne']

/-! ### What the parser makes of a message -/

/-- What the parser reads of a header block with its blank line, behind the status line. -/
def parserView (head : Bytes) : List Bytes × Bytes :=
  headerLines (sharedLineSplit (head ++ crlfcrlf)).1.length (sharedLineSplit (head ++ crlfcrlf)).1

/-- The part of the block that the parser takes for the start of the body. -/
def leftover (head : Bytes) : Bytes := (parserView head).2

/-- The length that the parser reads: of the value its header lines give to `Content-Length`. -/
def parserLength (head : Bytes) : ℤ :=
  (atoi (headerGet ((parserView head).1.foldl setLine []) (ascii "Content-Length"))).1

/-- **The body of the parsed response**: as many bytes as the parser reads from the block, of
what the parser has left of the block and the body. -/
theorem newResponseFromBuffer_body {head body : Bytes} {r : Response}
    (h : newResponseFromBuffer (head ++ crlfcrlf ++ body) = .ok r) :
    r.body = if parserLength head ≤ 0 then [] else (leftover head ++ body).take (parserLength head).toNat := by
  have hblank : head ++ crlfcrlf = (head ++ [13]) ++ 10 :: crlf := by simp [crlf, crlfcrlf]
  have hrest : EndsBlank (sharedLineSplit (head ++ crlfcrlf)).1 := hblank ▸ endsBlank_split _
  have hlast : (head ++ crlfcrlf).getLast? = some 10 := by simp [crlfcrlf]
  rw [newResponseFromBuffer, if_neg (by simp [crlfcrlf])] at h
  obtain ⟨status, headers, rest, -, hloop, rfl⟩ := parseResponse_ok h
  rw [sharedLineSplit_append hlast] at hloop
  obtain ⟨hh, hr, -⟩ := headerLoop_ok hloop
  rw [headerLines_append hrest (by simp) le_rfl] at hh hr
  rw [hh, hr]
  rfl

/-! ### When the two agree -/

/-- The parser finds the blank line where the framer does, and reads a length that is not less
than the framer's (or there is no body); or it finds an empty line earlier, and either there is
no body and it reads no length, or it reads the same length and the body happens to repeat what
the parser has left of the block. -/
def BodyAgrees (head body : Bytes) : Prop :=
  (leftover head = [] ∧ (body = [] ∨ body.length ≤ parserLength head)) ∨
  (leftover head ≠ [] ∧ (body = [] ∧ parserLength head ≤ 0 ∨
    body ≠ [] ∧ body.length = parserLength head ∧ body <+: leftover head ++ body))

/-- As many bytes as `m` of a text that ends with the body are the body, for `m` positive. -/
theorem take_eq_body_iff {left body : Bytes} {m : ℕ} (hm : 0 < m) : (left ++ body).take m = body ↔
    (left = [] ∧ body.length ≤ m) ∨ (left ≠ [] ∧ body ≠ [] ∧ body.length = m ∧ body <+: left ++ body) := by
  by_cases hl : left = []
  · subst hl
    simp [List.take_eq_self_iff]
  · have hpos : 0 < left.length := List.length_pos_iff.mpr hl
    constructor
    · intro h
      have hlen := congrArg List.length h
      rw [List.length_take, List.length_append] at hlen
      have hpre : (left ++ body).take m <+: left ++ body := List.take_prefix m _
      rw [h] at hpre
      refine .inr ⟨hl, ?_, by omega, hpre⟩
      rintro rfl
      simp only [List.length_nil] at hlen
      omega
    · rintro (⟨h, -⟩ | ⟨-, -, rfl, hpre⟩)
      · exact absurd h hl
      · exact (List.prefix_iff_eq_take.mp hpre).symm

/-- A parsed body is the body exactly when the parser and the framer agree. -/
theorem parsed_body_iff {head body : Bytes} {r : Response}
    (h : newResponseFromBuffer (head ++ crlfcrlf ++ body) = .ok r) : r.body = body ↔ BodyAgrees head body := by
  rw [newResponseFromBuffer_body h, BodyAgrees]
  by_cases hm : parserLength head ≤ 0
  · -- the parser takes no body
    rw [if_pos hm]
    constructor
    · intro hb
      by_cases hl : leftover head = []
      · exact .inl ⟨hl, .inl hb.symm⟩
      · exact .inr ⟨hl, .inl ⟨hb.symm, hm⟩⟩
    · have hempty : (body.length : ℤ) ≤ parserLength head → body = [] := by
        intro hle
        exact List.length_eq_zero_iff.mp (by omega)
      rintro (⟨-, hb | hle⟩ | ⟨-, ⟨hb, -⟩ | ⟨-, heq, -⟩⟩)
      · exact hb.symm
      · exact (hempty hle).symm
      · exact hb.symm
      · exact (hempty (Int.le_of_eq heq)).symm
  · obtain ⟨m, hpm⟩ : ∃ m : ℕ, parserLength head = m := ⟨(parserLength head).toNat, by omega⟩
    rw [if_neg hm, hpm, Int.toNat_natCast, take_eq_body_iff (by omega)]
    have hbody : body = [] → body.length ≤ m := by
      rintro rfl
      simp
    have hm' : ¬ (m : ℤ) ≤ 0 := hpm ▸ hm
    simp only [Int.ofNat_le, Int.natCast_inj, hm', and_false, false_or, or_iff_right_of_imp hbody]

/-- A message that the reader cuts out of its buffer is a header block, the blank line and as many
bytes as the block declares. -/
theorem processPass_cut {buffer msg : Bytes} {eol k : ℕ} (hint : buffer.length < 2 ^ 63)
    (hidx : index crlfcrlf buffer = some eol) (hn : 0 ≤ sharedParseContentLength (buffer.take eol))
    (hcut : processPass buffer = .item (.message msg) k) :
    ∃ n : ℕ, sharedParseContentLength (buffer.take eol) = n ∧ eol + 4 + n ≤ buffer.length ∧
      msg = buffer.take (eol + 4 + n) := by
  have hle : eol + 4 ≤ buffer.length := index_le hidx
  obtain ⟨n, hdecl⟩ := Int.eq_ofNat_of_zero_le hn
  have hhead : buffer.head? ≠ some 36 := by
    intro hd
    rw [processPass, if_pos hd] at hcut
    unfold framePass at hcut
    split at hcut
    · split_ifs at hcut
      cases hcut
    · cases hcut
  rw [processPass, if_neg hhead, messagePass, hidx] at hcut
  simp only at hcut
  split_ifs at hcut with hmore hneg hzero
  -- the length is positive, so the sum has not wrapped around
  have htot : totalMsgLen buffer eol = eol + 4 + n := by
    by_cases hlt : eol + 4 + sharedParseContentLength (buffer.take eol) < 2 ^ 63
    · rw [totalMsgLen_of_lt (by omega) hlt, hdecl]
    · have := totalMsgLen_nonpos (by omega) (fun h => hlt h.2)
      omega
  simp only [Pass.item.injEq, Item.message.injEq] at hcut
  refine ⟨n, hdecl, by omega, ?_⟩
  rw [← hcut.1, htot]
  rfl

/-- **Framer and parser, and when they agree on the body**: for every message that the reader
cuts out of its buffer and the parser accepts, the parsed body is what follows the first blank
line exactly when `BodyAgrees` holds of the header block and what follows it. -/
theorem body_agrees_iff (buffer msg : Bytes) (eol k : ℕ) (r : Response) (hint : buffer.length < 2 ^ 63)
    (hidx : index crlfcrlf buffer = some eol) (hn : 0 ≤ sharedParseContentLength (buffer.take eol))
    (hcut : processPass buffer = .item (.message msg) k) (hr : newResponseFromBuffer msg = .ok r) :
    r.body = msg.drop (eol + 4) ↔ BodyAgrees (msg.take eol) (msg.drop (eol + 4)) := by
  obtain ⟨n, -, hle, rfl⟩ := processPass_cut hint hidx hn hcut
  have hlen : (buffer.take eol).length = eol := List.length_take_of_le (by omega)
  have hblock : buffer.take (eol + 4) = buffer.take eol ++ crlfcrlf := by
    have hsplit := congrArg (List.take (eol + 4)) (index_split hidx)
    rwa [List.take_left' (by simp [hlen, crlfcrlf])] at hsplit
  have hmsg : buffer.take (eol + 4 + n) = buffer.take eol ++ crlfcrlf ++ (buffer.drop (eol + 4)).take n := by
    rw [← hblock, List.take_add]
  have hdrop : (buffer.take (eol + 4 + n)).drop (eol + 4) = (buffer.drop (eol + 4)).take n := by
    rw [hmsg, List.drop_left' (by simp [hlen, crlfcrlf])]
  have htake : (buffer.take (eol + 4 + n)).take eol = buffer.take eol := by
    rw [List.take_take, Nat.min_eq_left (by omega)]
  rw [hdrop, htake]
  exact parsed_body_iff (hmsg ▸ hr)

/-- A response with two bytes of body. -/
theorem body_agrees_ok :
    let buffer := ascii "RTSP/1.0 200 OK\r\nContent-Length: 2\r\n\r\nok$"
    processPass buffer = .item (.message (buffer.take 40)) 40 ∧
      ((ascii "ok" : Bytes) = (buffer.take 40).drop 38 ↔
        BodyAgrees ((buffer.take 40).take 34) ((buffer.take 40).drop 38)) := by
  intro buffer
  have hcut : processPass buffer = .item (.message (buffer.take 40)) 40 := by decide +kernel
  exact ⟨hcut, body_agrees_iff buffer (buffer.take 40) 34 40
    ⟨ascii "OK", ascii "RTSP/1.0", 200, [(ascii "Content-Length", ascii "2")], ascii "ok"⟩
    (by decide +kernel) (by decide +kernel) (by decide +kernel) hcut (by decide +kernel)⟩

/-- A blank after the number: the framer trims it and cuts out five bytes of body, for the parser
the value is no number and there is no body. -/
theorem body_lost_after_blank :
    let buffer := ascii "RTSP/1.0 200 OK\r\nContent-Length: 5 \r\n\r\nhello"
    index crlfcrlf buffer = some 35 ∧ sharedParseContentLength (buffer.take 35) = 5 ∧
      processPass buffer = .item (.message buffer) buffer.length ∧ buffer.drop (35 + 4) = ascii "hello" ∧
      (newResponseFromBuffer buffer).map (fun r => r.body) = .ok [] := by
  decide +kernel

end RtspProxy.Wire
