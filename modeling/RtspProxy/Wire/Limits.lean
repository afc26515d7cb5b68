import Mathlib.Data.List.Infix
import RtspProxy.Theory.Looks
import RtspProxy.Wire.ReadLoop

/-!
# Where the upstream reader goes wrong

The camera decides what `Stream.readLoop` has to deal with. Two things it may send make the
reader fail: a header block that declares a length which is negative, or so large that the
length of the message is no `int`; and an item that is larger than the buffer.

## The model

`Framer.looks` are the passes of the processing loop: the position in the camera's stream at
which `buffer` starts, and `buffer[:length]`. The reader takes that position for the start of
an item.

## What is proved

* `readLoop_survives_iff` — the reader never panics, and never goes round without consuming
  anything, exactly when no header block it looks at declares a length out of range.
* `readLoop_boundaries_iff` — the reader takes nothing inside an item for an item, and hands on
  only what was sent, exactly when no more than a buffer arrives of any item that is larger.
-/

namespace RtspProxy.Wire

open Theory

/-! ### Declared lengths -/

/-- If a message's header block is buffered, the length it declares makes the message at least
one byte long and of a length that is an `int`. -/
def DeclaresInRange (buffer : Bytes) : Prop :=
  buffer.head? ≠ some 36 → ∀ eol, index crlfcrlf buffer = some eol →
    0 < eol + 4 + sharedParseContentLength (buffer.take eol) ∧
      eol + 4 + sharedParseContentLength (buffer.take eol) < 2 ^ 63

/-- With a declared length in range, the length of the message is what it should be. -/
theorem totalMsgLen_of_lt {b : Bytes} {eol : ℕ} (h₀ : 0 < eol + 4 + sharedParseContentLength (b.take eol))
    (h₁ : eol + 4 + sharedParseContentLength (b.take eol) < 2 ^ 63) :
    totalMsgLen b eol = eol + 4 + sharedParseContentLength (b.take eol) :=
  wrap64_of_lt (by omega) h₁

/-- With a declared length out of range, the length of the message is zero or negative. -/
theorem totalMsgLen_nonpos {b : Bytes} {eol : ℕ} (heol : eol + 4 < 2 ^ 63)
    (h : ¬ (0 < eol + 4 + sharedParseContentLength (b.take eol) ∧
      eol + 4 + sharedParseContentLength (b.take eol) < 2 ^ 63)) : totalMsgLen b eol ≤ 0 := by
  obtain ⟨hlo, hhi⟩ := sharedParseContentLength_bounds (b.take eol)
  rw [totalMsgLen]
  by_cases hbig : (2 : ℤ) ^ 63 ≤ eol + 4 + sharedParseContentLength (b.take eol)
  · have := wrap64_neg hbig (by omega)
    omega
  · rw [wrap64_of_lt (by omega) (by omega)]
    omega

theorem framePass_ne_fault (b : Bytes) (f : Fault) : framePass b ≠ .fault f := by
  unfold framePass
  split
  · split_ifs <;> simp
  · simp

/-- **A pass fails exactly on a header block that declares a length out of range.** -/
theorem processPass_fault_iff {b : Bytes} (hb : b.length < 2 ^ 63) :
    (∃ f, processPass b = .fault f) ↔ ¬ DeclaresInRange b := by
  rw [processPass]
  by_cases hd : b.head? = some 36
  · rw [if_pos hd]
    constructor
    · rintro ⟨f, h⟩
      exact absurd h (framePass_ne_fault b f)
    · intro h
      exact absurd (fun hne => absurd hd hne) h
  rw [if_neg hd, messagePass]
  cases hidx : index crlfcrlf b with
  | none => simp [DeclaresInRange, hidx]
  | some eol =>
    have hle := index_le hidx
    have heol : eol + 4 ≤ b.length := hle
    have hiff : ¬ DeclaresInRange b ↔ ¬ (0 < eol + 4 + sharedParseContentLength (b.take eol) ∧
        eol + 4 + sharedParseContentLength (b.take eol) < 2 ^ 63) := by
      simp [DeclaresInRange, hd, hidx]
    rw [hiff]
    constructor
    · rintro ⟨f, h⟩ ⟨h₀, h₁⟩
      simp only [totalMsgLen_of_lt h₀ h₁] at h
      split_ifs at h
      · omega
      · omega
    · intro h
      have hnp := totalMsgLen_nonpos (by omega) h
      simp only
      rw [if_neg (by omega)]
      split_ifs with hneg hzero
      · exact ⟨_, rfl⟩
      · exact ⟨_, rfl⟩
      · omega

/-- **The reader survives, and when it does not**: whatever the camera sends, however it is cut
into reads, the reader gets through it without a slice expression out of range and without a
pass that consumes nothing exactly when every header block it looks at declares a length in
range. -/
theorem readLoop_survives_iff (B : ℕ) (hB : 4096 ≤ B) (hint : B < 2 ^ 63) (is : List (Input UInt8)) (hf : Fits B is) :
    (∃ o, readLoop B is = some o ∧ ∀ f, o.2 ≠ .fault f) ↔ ∀ l ∈ upstream.looks B is 0 [], DeclaresInRange l.2 := by
  obtain ⟨o, ho⟩ := Option.isSome_iff_exists.mp ((upstream.fits_iff is []).mp hf)
  have hfault := Framer.read_fault_iff (F := upstream) is 0 [] o ho
  have hlook : ∀ l ∈ upstream.looks B is 0 [], (∃ f, upstream.pass l.2 = .fault f) ↔ ¬ DeclaresInRange l.2 := by
    intro l hl
    obtain ⟨-, -, -, -, -, hle⟩ :=
      Framer.reaches_of_look (F := upstream) (B := B) (by omega) is 0 [] o (Nat.zero_le _) ho l hl
    exact processPass_fault_iff (by omega)
  constructor
  · rintro ⟨o', ho', hno⟩ l hl
    rw [readLoop, ho, Option.some.injEq] at ho'
    subst ho'
    by_contra hbad
    obtain ⟨f, hfo⟩ := hfault.mpr ⟨l, hl, (hlook l hl).mpr hbad⟩
    exact hno f hfo
  · intro h
    refine ⟨o, ho, fun f hfo => ?_⟩
    obtain ⟨l, hl, hbad⟩ := hfault.mp ⟨f, hfo⟩
    exact (hlook l hl).mp hbad (h l hl)

/-- A response in two reads. -/
theorem readLoop_survives_response :
    Fits 4096 [.data (ascii "RTSP/1.0 200 OK\r\nContent-Len"), .data (ascii "gth: 2\r\n\r\nok")] ∧
    ((∃ o, readLoop 4096 [.data (ascii "RTSP/1.0 200 OK\r\nContent-Len"), .data (ascii "gth: 2\r\n\r\nok")] = some o ∧
        ∀ f, o.2 ≠ .fault f) ↔
      ∀ l ∈ upstream.looks 4096 [.data (ascii "RTSP/1.0 200 OK\r\nContent-Len"), .data (ascii "gth: 2\r\n\r\nok")] 0 [],
        DeclaresInRange l.2) :=
  ⟨by decide +kernel, readLoop_survives_iff 4096 (by decide) (by decide) _ (by decide +kernel)⟩

/-- A negative length makes the reader panic, one that comes out at zero makes it go round for
ever, and so large a length that the sum wraps around makes it panic again. -/
theorem readLoop_declared_out_of_range :
    readLoop 4096 [.data (ascii "RTSP/1.0 200 OK\r\nContent-Length: -99\r\n\r\n")] =
      some ([], .fault .sliceOutOfRange) ∧
    readLoop 4096 [.data (ascii "RTSP/1.0 200 OK\r\nContent-Length: -40\r\n\r\n")] = some ([], .fault .spin) ∧
    readLoop 4096 [.data (ascii "RTSP/1.0 200 OK\r\nContent-Length: 9223372036854775807\r\n\r\n")] =
      some ([], .fault .sliceOutOfRange) := by
  refine ⟨by decide +kernel, by decide +kernel, by decide +kernel⟩

/-! ### Items larger than the buffer -/

/-- A message whose length is no `int`, with a header block that fits the buffer: the reader
panics when it has the header block. -/
def Sent.Overflows (B : ℕ) : Sent → Prop
  | .frame _ => False
  | .message m => 2 ^ 63 ≤ m.encode.length ∧ m.head.length + 4 ≤ B

theorem Sent.Overflows.le {B : ℕ} {x : Sent} (h : x.Overflows B) : 2 ^ 63 ≤ x.encode.length := by
  cases x with
  | frame f => exact absurd h id
  | message m => exact h.1

/-- Of the first `n` bytes of what was sent, more than `B` belong to an item larger than `B` that
the reader gets to. -/
def Overrun (B : ℕ) (sent : List Sent) (n : ℕ) : Prop :=
  ∃ pre x post, sent = pre ++ x :: post ∧ (∀ y ∈ pre, ¬ y.Overflows B) ∧ ¬ x.Overflows B ∧
    B < x.encode.length ∧ (pre.flatMap Sent.encode).length + B < n

/-- The position `q` is where an item starts, or where the last one ends. -/
def Boundary (sent : List Sent) (q : ℕ) : Prop := ∃ pre, pre <+: sent ∧ q = (pre.flatMap Sent.encode).length

theorem overrun_cons {B : ℕ} {x : Sent} {rest : List Sent} {n : ℕ} : Overrun B (x :: rest) n ↔
    ¬ x.Overflows B ∧ (B < x.encode.length ∧ B < n ∨ Overrun B rest (n - x.encode.length)) := by
  constructor
  · rintro ⟨pre, y, post, hsent, hpre, hy, hbig, hn⟩
    cases pre with
    | nil =>
      obtain ⟨rfl, rfl⟩ := List.cons.inj hsent
      exact ⟨hy, .inl ⟨hbig, by simpa using hn⟩⟩
    | cons z pre =>
      obtain ⟨rfl, rfl⟩ := List.cons.inj hsent
      obtain ⟨hz, hpre⟩ := List.forall_mem_cons.mp hpre
      rw [List.flatMap_cons, List.length_append] at hn
      exact ⟨hz, .inr ⟨pre, y, post, rfl, hpre, hy, hbig, by omega⟩⟩
  · rintro ⟨hx, ⟨hbig, hn⟩ | ⟨pre, y, post, rfl, hpre, hy, hbig, hn⟩⟩
    · exact ⟨[], x, rest, rfl, by simp, hx, hbig, by simpa using hn⟩
    · refine ⟨x :: pre, y, post, rfl, List.forall_mem_cons.mpr ⟨hx, hpre⟩, hy, hbig, ?_⟩
      rw [List.flatMap_cons, List.length_append]
      omega

theorem boundary_cons {x : Sent} {rest : List Sent} {q : ℕ} : Boundary (x :: rest) q ↔
    q = 0 ∨ ∃ q', q = x.encode.length + q' ∧ Boundary rest q' := by
  constructor
  · rintro ⟨pre, hpre, rfl⟩
    rcases List.prefix_cons_iff.mp hpre with rfl | ⟨pre, rfl, hrest⟩
    · exact .inl rfl
    · exact .inr ⟨_, by rw [List.flatMap_cons, List.length_append], pre, hrest, rfl⟩
  · rintro (rfl | ⟨q', rfl, pre, hpre, rfl⟩)
    · exact ⟨[], List.nil_prefix, rfl⟩
    · exact ⟨x :: pre, List.prefix_cons_iff.mpr (.inr ⟨pre, rfl, hpre⟩), by rw [List.flatMap_cons, List.length_append]⟩

/-- The reader finds no blank line as long as it has only a part of the header block. -/
theorem processPass_part_of_head (m : RtspMessage) {v rest : Bytes} (hv : v <+: m.encode ++ rest)
    (hlen : v.length < m.head.length + 4) : processPass v = .more := by
  obtain ⟨w, hw⟩ := hv
  have hhead : v.head? ≠ some 36 := by
    intro h
    obtain ⟨a, as, has⟩ := List.exists_cons_of_ne_nil m.head_ne_nil
    cases v with
    | nil => simp at h
    | cons c cs =>
      have := m.not_dollar
      simp only [RtspMessage.encode, has, List.cons_append, List.cons.injEq] at hw
      simp_all
  rw [processPass, if_neg hhead, messagePass]
  cases hidx : index crlfcrlf v with
  | none => rfl
  | some n =>
    -- the first blank line of `v` would be the first one of the message
    have hn := index_append hidx w
    rw [hw, RtspMessage.encode, List.append_assoc, index_append m.blank (m.body ++ rest), Option.some.injEq] at hn
    have := index_le hidx
    simp only [crlfcrlf, List.length_cons, List.length_nil] at this
    omega

/-- With the header block of a message whose length is no `int`, the reader panics. -/
theorem processPass_overflow (m : RtspMessage) {v rest : Bytes} (hv : v <+: m.encode ++ rest)
    (hlen : m.head.length + 4 ≤ v.length) (hbig : 2 ^ 63 ≤ m.encode.length) (hint : v.length < 2 ^ 63) :
    ∃ f, processPass v = .fault f := by
  have hblock : m.head ++ crlfcrlf <+: v := by
    refine List.prefix_of_prefix_length_le ⟨m.body ++ rest, ?_⟩ hv (by simpa [crlfcrlf] using hlen)
    rw [RtspMessage.encode]
    simp
  obtain ⟨u, rfl⟩ := hblock
  have htot : m.encode.length = m.head.length + 4 + m.body.length := by
    simp [RtspMessage.encode, crlfcrlf]
    omega
  rw [processPass_fault_iff hint]
  intro h
  have hhead : (m.head ++ crlfcrlf ++ u).head? ≠ some 36 := by
    obtain ⟨a, as, has⟩ := List.exists_cons_of_ne_nil m.head_ne_nil
    have := m.not_dollar
    simpa [has] using this
  obtain ⟨-, hlt⟩ := h hhead m.head.length (index_append m.blank u)
  rw [List.append_assoc, List.take_left, m.declared] at hlt
  omega

/-- **What a pass finds at the start of an item**: the item, if it is all there; nothing yet, if
only a part is; or it cannot go on. -/
theorem processPass_boundary {B : ℕ} (hint : B < 2 ^ 63) (x : Sent) {v rest : Bytes} (hv : v <+: x.encode ++ rest)
    (hB : v.length ≤ B) :
    (x.encode.length ≤ v.length ∧ processPass v = .item x.item x.encode.length) ∨
    (v.length < x.encode.length ∧ processPass v = .more ∧ (x.Overflows B → v.length < B)) ∨
    (x.Overflows B ∧ ∃ f, processPass v = .fault f) := by
  by_cases hall : x.encode.length ≤ v.length
  · left
    obtain ⟨u, rfl⟩ : x.encode <+: v := List.prefix_of_prefix_length_le ⟨rest, rfl⟩ hv hall
    have hx := processPass_sent x (by omega)
    exact ⟨hall, by rw [processPass_ext (by simp [hx]), hx]⟩
  by_cases hlt : x.encode.length < 2 ^ 63
  · -- what a part decides, the whole item decides, and that takes more bytes than the part has
    right; left
    obtain ⟨u, hu⟩ : v <+: x.encode := List.prefix_of_prefix_length_le hv ⟨rest, rfl⟩ (by omega)
    refine ⟨by omega, ?_, fun ho => ?_⟩
    · by_contra hmore
      have hx := processPass_ext hmore u
      rw [hu, processPass_sent x hlt] at hx
      have := (processPass_bounds hx.symm).2
      omega
    · have := ho.le
      omega
  · right
    cases x with
    | frame f =>
      have := f.fits
      simp only [Sent.encode, Frame.encode, List.length_cons] at hlt
      omega
    | message m =>
      simp only [Sent.encode] at hv hall hlt
      by_cases hblock : m.head.length + 4 ≤ v.length
      · exact .inr ⟨⟨by omega, by omega⟩, processPass_overflow m hv hblock (by omega) (by omega)⟩
      · refine .inl ⟨by simp only [Sent.encode]; omega, processPass_part_of_head m hv (by omega), fun ho => ?_⟩
        have := ho.2
        omega

/-- The rest of what was sent, behind the first item. -/
theorem prefix_rest {x : Sent} {rest : List Sent} {t : Bytes} (ht : t <+: (x :: rest).flatMap Sent.encode) :
    t.drop x.encode.length <+: rest.flatMap Sent.encode := by
  have := List.IsPrefix.drop ht x.encode.length
  rwa [List.flatMap_cons, List.drop_left] at this

/-- **The reader stays on the boundaries** as long as nothing overruns the buffer. -/
theorem boundary_of_reaches {B : ℕ} (hint : B < 2 ^ 63) {t : Bytes} {q : ℕ} (h : upstream.Reaches B t q) :
    ∀ sent : List Sent, t <+: sent.flatMap Sent.encode → ¬ Overrun B sent t.length → q < t.length →
      Boundary sent q := by
  induction h with
  | here => exact fun sent _ _ _ => ⟨[], List.nil_prefix, rfl⟩
  | @item t i n q hp hq ih =>
    intro sent ht hno hlt
    change processPass (t.take B) = .item i n at hp
    cases sent with
    | nil =>
      obtain rfl := List.prefix_nil.mp ht
      simp at hlt
    | cons x rest =>
      have hv : t.take B <+: x.encode ++ rest.flatMap Sent.encode := (List.take_prefix B t).trans ht
      have htake : (t.take B).length ≤ B := List.length_take_le ..
      obtain ⟨hle, hx⟩ | ⟨-, hx, -⟩ | ⟨-, f, hx⟩ := processPass_boundary hint x hv htake
      · -- it is the item that was sent, and the reader goes on behind it
        rw [hp] at hx
        cases hx
        have hxo : ¬ x.Overflows B := by
          intro ho
          have := ho.le
          omega
        rw [boundary_cons]
        refine .inr ⟨q, rfl, ih rest (prefix_rest ht) ?_ ?_⟩
        · intro ho
          rw [List.length_drop] at ho
          exact hno (overrun_cons.mpr ⟨hxo, .inr ho⟩)
        · rw [List.length_drop]
          omega
      · rw [hp] at hx
        cases hx
      · rw [hp] at hx
        cases hx
  | @full t q hp hle hq ih =>
    intro sent ht hno hlt
    change processPass (t.take B) = .more at hp
    exfalso
    cases sent with
    | nil =>
      obtain rfl := List.prefix_nil.mp ht
      simp at hlt
    | cons x rest =>
      have hv : t.take B <+: x.encode ++ rest.flatMap Sent.encode := (List.take_prefix B t).trans ht
      have htake : (t.take B).length = B := List.length_take_of_le hle
      obtain ⟨-, hx⟩ | ⟨hbig, -, hxo⟩ | ⟨-, f, hx⟩ := processPass_boundary hint x hv htake.le
      · rw [hp] at hx
        cases hx
      · -- a buffer full of the item, and more to come
        have hxo : ¬ x.Overflows B := by
          intro ho
          have := hxo ho
          omega
        exact hno (overrun_cons.mpr ⟨hxo, .inl ⟨by omega, by omega⟩⟩)
      · rw [hp] at hx
        cases hx

/-- **When an item overruns the buffer, the reader comes to a position inside it.** -/
theorem reaches_inside {B : ℕ} (hB : 0 < B) (hint : B < 2 ^ 63) : ∀ (sent : List Sent) (t : Bytes),
    t <+: sent.flatMap Sent.encode → Overrun B sent t.length →
      ∃ q, upstream.Reaches B t q ∧ q < t.length ∧ ¬ Boundary sent q := by
  intro sent
  induction sent with
  | nil =>
    rintro t - ⟨pre, x, post, h, -⟩
    simp at h
  | cons x rest ih =>
    intro t ht hover
    obtain ⟨hxo, hover⟩ := overrun_cons.mp hover
    have hv : t.take B <+: x.encode ++ rest.flatMap Sent.encode := (List.take_prefix B t).trans ht
    have hlt : B < t.length := by
      rcases hover with ⟨-, h⟩ | ⟨_, _, _, -, -, -, -, h⟩ <;> omega
    have htake : (t.take B).length = B := List.length_take_of_le hlt.le
    obtain ⟨hle, hx⟩ | ⟨hbig, hx, -⟩ | ⟨ho, -⟩ := processPass_boundary hint x hv htake.le
    · -- the first item fits: the one that overruns comes later
      rcases hover with ⟨hbig, -⟩ | hover
      · omega
      obtain ⟨q, hq, hql, hqb⟩ := ih (t.drop x.encode.length) (prefix_rest ht) (by rwa [List.length_drop])
      rw [List.length_drop] at hql
      refine ⟨x.encode.length + q, .item hx hq, by omega, ?_⟩
      rw [boundary_cons]
      rintro (h | ⟨q', h, hb⟩)
      · have := x.four_le
        omega
      · rw [Nat.add_left_cancel h] at hqb
        exact hqb hb
    · -- the buffer is thrown away in the middle of the first item
      refine ⟨B + 0, .full hx hlt.le .here, by omega, ?_⟩
      rw [boundary_cons]
      rintro (h | ⟨q', h, -⟩) <;> omega
    · exact absurd ho hxo

/-- **No phantom items, and when there are**: of what was sent, the reader hands on only items,
and it takes no position inside an item for the start of one, exactly when no item larger than
the buffer overruns it. -/
theorem readLoop_boundaries_iff (B : ℕ) (hB : 0 < B) (hint : B < 2 ^ 63) (sent : List Sent) (is : List (Input UInt8))
    (hr : ∀ i ∈ is, i.IsRead) (hs : received is <+: sent.flatMap Sent.encode) (hf : Fits B is) :
    (∃ o, readLoop B is = some o ∧ (∀ i, .item i ∈ o.1 → ∃ x ∈ sent, x.item = i) ∧
      ∀ l ∈ upstream.looks B is 0 [], Boundary sent l.1) ↔ ¬ Overrun B sent (received is).length := by
  obtain ⟨o, ho⟩ := Option.isSome_iff_exists.mp ((upstream.fits_iff is []).mp hf)
  have hat := Framer.reaches_of_look (F := upstream) hB is 0 [] o (Nat.zero_le _) ho
  rw [List.nil_append] at hat
  constructor
  · rintro ⟨-, -, -, hlooks⟩ hover
    obtain ⟨q, hq, hlt, hnb⟩ := reaches_inside hB hint sent _ hs hover
    obtain ⟨v, hv⟩ := Framer.exists_look_of_reaches (F := upstream) hB is 0 [] o (Nat.zero_le _) hr ho q hq hlt
    rw [Nat.zero_add] at hv
    exact hnb (hlooks _ hv)
  · intro hno
    have hlooks : ∀ l ∈ upstream.looks B is 0 [], Boundary sent l.1 := by
      intro l hl
      obtain ⟨q, hlq, hq, hne, hpre, -⟩ := hat l hl
      have hlt : q < (received is).length := by
        by_contra hge
        rw [List.drop_eq_nil_of_le (by omega), List.prefix_nil] at hpre
        exact hne hpre
      rw [hlq, Nat.zero_add]
      exact boundary_of_reaches hint hq sent hs hno hlt
    refine ⟨o, ho, fun i hi => ?_, hlooks⟩
    obtain ⟨l, hl, n, hfound⟩ := Framer.exists_look_of_item (F := upstream) hB is 0 [] o (Nat.zero_le _) hr ho hi
    obtain ⟨q, hlq, -, hne, hpre, hle⟩ := hat l hl
    obtain ⟨before, ⟨post, rfl⟩, hpos⟩ := hlooks l hl
    have hq : q = (before.flatMap Sent.encode).length := by omega
    have hv : l.2 <+: post.flatMap Sent.encode := by
      have := List.IsPrefix.drop hs q
      rw [hq, List.flatMap_append, List.drop_left] at this
      exact (hq ▸ hpre).trans this
    cases post with
    | nil => exact absurd (List.prefix_nil.mp hv) hne
    | cons x post =>
      obtain ⟨-, hx⟩ | ⟨-, hx, -⟩ | ⟨-, f, hx⟩ := processPass_boundary hint x hv hle
      · rw [show processPass l.2 = .item i n from hfound] at hx
        cases hx
        exact ⟨x, by simp, rfl⟩
      · rw [show processPass l.2 = .item i n from hfound] at hx
        cases hx
      · rw [show processPass l.2 = .item i n from hfound] at hx
        cases hx

/-- A frame and a message within the default buffer. -/
theorem readLoop_boundaries_frameAndMessage :
    Fits 65536 [.data [36, 1, 0], .data [2, 36, 0, 79, 75], .again, .data [13, 10]] ∧
    ((∃ o, readLoop 65536 [.data [36, 1, 0], .data [2, 36, 0, 79, 75], .again, .data [13, 10]] = some o ∧
        (∀ i, .item i ∈ o.1 → ∃ x ∈ frameAndMessage, x.item = i) ∧
        ∀ l ∈ upstream.looks 65536 [.data [36, 1, 0], .data [2, 36, 0, 79, 75], .again, .data [13, 10]] 0 [],
          Boundary frameAndMessage l.1) ↔ ¬ Overrun 65536 frameAndMessage 10) :=
  ⟨by decide +kernel, readLoop_boundaries_iff 65536 (by decide) (by decide) frameAndMessage
    [.data [36, 1, 0], .data [2, 36, 0, 79, 75], .again, .data [13, 10]] (by decide) (by decide) (by decide +kernel)⟩

/-- The stream of a frame that ends, behind a whole buffer, with `$`, `0`, `0`, and of one that
follows: the reader throws the buffer away and takes the end of the frame for the start of
another. -/
theorem read_tail_of_frame (f : Frame) {start tail : Bytes} (hf : f.encode = start ++ [36, 0, 0])
    (hlen : start.length = 65536) (hfit : ([36, 0, 0] ++ tail : Bytes).length ≤ 65536) :
    readLoop 65536 [.data start, .data ([36, 0, 0] ++ tail)] =
      some (Out.after [.full] (upstream.settle 65536 ([36, 0, 0] ++ tail))) := by
  have hpass : processPass start = .more := by
    have hv : start <+: (Sent.frame f).encode ++ [] := ⟨[36, 0, 0], by rw [List.append_nil]; exact hf.symm⟩
    obtain ⟨hle, -⟩ | ⟨-, h, -⟩ | ⟨ho, -⟩ := processPass_boundary (B := 65536) (by decide) (.frame f) hv (by omega)
    · rw [Sent.encode, hf, List.length_append, List.length_cons] at hle
      omega
    · exact h
    · exact absurd ho id
  have hne : start ≠ [] := by
    rintro rfl
    simp at hlen
  have hsettle : upstream.settle 65536 start = ([.full], .waiting []) := by
    rw [Framer.settle_of_more upstream hne hpass, if_pos hlen]
  have hnil : upstream.settle 65536 [] = ([], .waiting []) := by decide
  simp only [readLoop, Framer.read, hnil, Out.andThen, List.nil_append, hsettle, List.length_nil, Nat.zero_add]
  rw [if_pos ⟨hne, by omega⟩, if_pos ⟨by simp, hfit⟩]
  rfl

/-- A frame ends with the end of its payload. -/
theorem encode_split (channel : UInt8) (z e : Bytes) (h : (z ++ e).length < 2 ^ 16) :
    ∃ start, (Frame.mk channel (z ++ e) h).encode = start ++ e ∧ start.length = 4 + z.length :=
  ⟨36 :: channel :: _ :: _ :: z, rfl, by simp only [List.length_cons]; omega⟩

/-- A frame with the largest payload there is. -/
def largestFrame : Frame :=
  ⟨0, List.replicate 65532 0 ++ [36, 0, 0], by rw [List.length_append, List.length_replicate]; decide⟩

/-- A frame of forty bytes. -/
def shortFrame : Frame := ⟨0, List.replicate 36 0, by decide⟩

/-- With the default buffer size, two frames: the first is thrown away but for its last three
bytes, which with the start of the second are handed on as a packet that was never sent. -/
theorem readLoop_phantom_packet :
    ∃ is : List (Input UInt8), received is = [Sent.frame largestFrame, Sent.frame shortFrame].flatMap Sent.encode ∧
      Fits 65536 is ∧ ∃ o, readLoop 65536 is = some o ∧ ∃ i, .item i ∈ o.1 ∧
        ∀ x ∈ [Sent.frame largestFrame, Sent.frame shortFrame], x.item ≠ i := by
  obtain ⟨start, hf, hlen⟩ := encode_split 0 (List.replicate 65532 0) [36, 0, 0] largestFrame.fits
  rw [List.length_replicate] at hlen
  change largestFrame.encode = _ at hf
  have hfits : ([36, 0, 0] ++ shortFrame.encode).length ≤ 65536 := by decide
  have hread := read_tail_of_frame largestFrame hf hlen hfits
  have htail : upstream.settle 65536 ([36, 0, 0] ++ shortFrame.encode) =
      ([.item (.packet 0 ([36, 0, 0, 36, 0, 0, 36] ++ List.replicate 33 0))], .waiting [0, 0, 0]) := by
    decide +kernel
  rw [htail] at hread
  refine ⟨_, ?_, (upstream.fits_iff _ []).mpr (Option.isSome_iff_exists.mpr ⟨_, hread⟩), _, hread, _,
    List.mem_cons_of_mem _ (List.mem_singleton_self _), ?_⟩
  · rw [List.flatMap_cons, Sent.encode, hf]
    simp [Sent.encode]
  · intro x hx heq
    simp only [List.mem_cons, List.not_mem_nil, or_false] at hx
    rcases hx with rfl | rfl
    · -- it is shorter than the largest frame
      simp only [Sent.item, Item.packet.injEq, hf] at heq
      have := congrArg List.length heq.2
      rw [List.length_append, hlen] at this
      simp at this
    · exact absurd heq (by decide)

end RtspProxy.Wire
