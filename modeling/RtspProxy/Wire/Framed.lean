import RtspProxy.Wire.ReadLoop
import RtspProxy.Wire.Text

/-!
# The text of a message, as a framer sees it

A framer cuts a message out of a stream without parsing it: at the first empty line, and as many bytes
behind it as the first `content-length:` in the block says. That text is looked for anywhere, in values too,
so a message is framed as it was written only if no text in front of its own `Content-Length` names one.

## The model

`names s` says that `content-length:` occurs in `s`, in any case; a text is `Inert` if it does not and has no
line end. `headText` is the block in front of the empty line.

## What is proved

* `sharedParseContentLength_headText` — the length that is found is that of the `Content-Length` header, or
  zero if there is none.
* `exists_rtspMessage` — the text of a message is one that `readLoop` finds as it was written.
* `newResponseFromBuffer_string` — a response of one line for each header is read as it was written, up to
  the case of the keys and the normal form of the values.
-/

namespace RtspProxy.Wire

open Theory

/-! ### Where a length is named -/

/-- `content-length:` occurs in the text, in any case. -/
def names : Bytes → Bool
  | [] => false
  | b :: bs => hasPrefixFold contentLengthNeedle (b :: bs) || names bs

/-- What is looked for does not reach across a byte that it does not have. -/
theorem hasPrefixFold_across {needle : Bytes} {b : UInt8} (h : ∀ p ∈ needle, lower p ≠ lower b) (s t : Bytes) :
    hasPrefixFold needle (s ++ b :: t) = hasPrefixFold needle s := by
  induction needle generalizing s with
  | nil => simp [hasPrefixFold]
  | cons p needle ih =>
    obtain ⟨hp, hrest⟩ := List.forall_mem_cons.mp h
    cases s with
    | nil => simp [hasPrefixFold, hp]
    | cons c s => rw [List.cons_append, hasPrefixFold, hasPrefixFold, ih hrest]

theorem needle_blank : ∀ p ∈ contentLengthNeedle, lower p ≠ lower 32 := by decide

theorem needle_cr : ∀ p ∈ contentLengthNeedle, lower p ≠ lower 13 := by decide

theorem names_across {b : UInt8} (h : ∀ p ∈ contentLengthNeedle, lower p ≠ lower b) (s t : Bytes) :
    names (s ++ b :: t) = (names s || names t) := by
  induction s with
  | nil =>
    have hb := hasPrefixFold_across h [] t
    rw [List.nil_append] at hb
    have hnil : hasPrefixFold contentLengthNeedle [] = false := by decide
    rw [List.nil_append, show names (b :: t) = (hasPrefixFold contentLengthNeedle (b :: t) || names t) from rfl, hb,
      hnil]
    rfl
  | cons c s ih =>
    have hb := hasPrefixFold_across h (c :: s) t
    rw [List.cons_append] at hb
    rw [List.cons_append, names, names, hb, ih, Bool.or_assoc]

/-- In a header line: with its key, or in its value. -/
theorem names_headerLine (kv : Bytes × Bytes) : names (headerLine kv) = (names (kv.1 ++ [58]) || names kv.2) := by
  have hline : headerLine kv = (kv.1 ++ [58]) ++ 32 :: kv.2 := by simp [headerLine, ascii]
  rw [hline, names_across needle_blank]

theorem hasPrefixFold_append {needle s : Bytes} (h : hasPrefixFold needle s = true) (t : Bytes) :
    hasPrefixFold needle (s ++ t) = true := by
  induction needle generalizing s with
  | nil => simp [hasPrefixFold]
  | cons p needle ih =>
    cases s with
    | nil => simp [hasPrefixFold] at h
    | cons c s =>
      simp only [List.cons_append, hasPrefixFold, Bool.and_eq_true] at h ⊢
      exact ⟨h.1, ih h.2⟩

theorem names_eq_true_iff {s : Bytes} :
    names s = true ↔ ∃ t, t <:+ s ∧ hasPrefixFold contentLengthNeedle t = true := by
  have hnil : hasPrefixFold contentLengthNeedle [] = false := by decide
  induction s with
  | nil => simp [names, hnil]
  | cons c s ih =>
    simp only [names, Bool.or_eq_true, ih, List.suffix_cons_iff, or_and_right, exists_or, exists_eq_left]

/-- A part of a text that does not name a length does not either. -/
theorem names_of_isInfix {s t : Bytes} (hst : s <:+: t) (h : names t = false) : names s = false := by
  rw [Bool.eq_false_iff] at h ⊢
  intro hs
  obtain ⟨u, ⟨w, rfl⟩, hu⟩ := names_eq_true_iff.mp hs
  obtain ⟨a, b, rfl⟩ := hst
  exact h (names_eq_true_iff.mpr ⟨u ++ b, ⟨a ++ w, by simp⟩, hasPrefixFold_append hu b⟩)

theorem exists_of_hasPrefixFold {needle s : Bytes} (h : hasPrefixFold needle s = true) {p : UInt8} (hp : p ∈ needle) :
    ∃ c ∈ s, lower p = lower c := by
  induction needle generalizing s with
  | nil => cases hp
  | cons q needle ih =>
    cases s with
    | nil => simp [hasPrefixFold] at h
    | cons c s =>
      simp only [hasPrefixFold, Bool.and_eq_true, beq_iff_eq] at h
      rcases List.mem_cons.mp hp with rfl | hp
      · exact ⟨c, List.mem_cons_self, h.1⟩
      · obtain ⟨d, hd, heq⟩ := ih h.2 hp
        exact ⟨d, List.mem_cons_of_mem c hd, heq⟩

theorem names_of_no_colon {s : Bytes} (h : ∀ c ∈ s, c ≠ 58) : names s = false := by
  rw [Bool.eq_false_iff]
  intro hs
  obtain ⟨t, hts, ht⟩ := names_eq_true_iff.mp hs
  obtain ⟨c, hc, heq⟩ := exists_of_hasPrefixFold ht (show (58 : UInt8) ∈ contentLengthNeedle by decide)
  refine h c (hts.subset hc) ?_
  unfold lower at heq
  grind

/-- A text that ends no line and names no length. -/
def Inert (s : Bytes) : Prop := OneLine s ∧ names s = false

instance : DecidablePred Inert := fun _ => inferInstanceAs (Decidable (_ ∧ _))

/-- A line that does not name a length is passed over. -/
theorem sharedParseContentLength_line {line : Bytes} (h : names line = false) (rest : Bytes) :
    sharedParseContentLength (line ++ (crlf ++ rest)) = sharedParseContentLength rest := by
  induction line with
  | nil =>
    simp [crlf, sharedParseContentLength, hasPrefixFold, contentLengthNeedle, ascii, lower]
  | cons c line ih =>
    simp only [names, Bool.or_eq_false_iff] at h
    have hc : hasPrefixFold contentLengthNeedle (c :: (line ++ (crlf ++ rest))) = false :=
      (hasPrefixFold_across needle_cr (c :: line) (10 :: rest)).trans h.1
    rw [List.cons_append, sharedParseContentLength, hc, if_neg (by decide), ih h.2]

/-- A block that does not name a length declares none. -/
theorem sharedParseContentLength_eq_zero {block : Bytes} (h : names block = false) :
    sharedParseContentLength block = 0 := by
  induction block with
  | nil => rfl
  | cons c block ih =>
    simp only [names, Bool.or_eq_false_iff] at h
    rw [sharedParseContentLength, h.1, if_neg (by decide), ih h.2]

/-! ### The length itself -/

theorem dropSpaces_digits {two : UInt8 → UInt8 → Bool} {three : UInt8 → UInt8 → UInt8 → Bool} {s : Bytes}
    (h : ∀ c ∈ s, 48 ≤ c ∧ c ≤ 57) (htwo : ∀ c d : UInt8, 48 ≤ c ∧ c ≤ 57 → two c d = false)
    (hthree : ∀ c d e : UInt8, 48 ≤ c ∧ c ≤ 57 → three c d e = false) : dropSpaces two three s = s := by
  cases s with
  | nil => rw [dropSpaces]
  | cons c s =>
    have hc := h c List.mem_cons_self
    refine (dropSpaces_cons_eq_self_iff c s).mpr ⟨?_, fun d _ _ => ⟨htwo c d hc, fun e _ _ => hthree c d e hc⟩⟩
    unfold isSpace1
    grind

theorem dropSpaces_space {two : UInt8 → UInt8 → Bool} {three : UInt8 → UInt8 → UInt8 → Bool} {c : UInt8}
    (hc : isSpace1 c = true) (s : Bytes) : dropSpaces two three (c :: s) = dropSpaces two three s := by
  rcases s with _ | ⟨d, _ | ⟨e, s⟩⟩ <;> simp [dropSpaces, hc]

/-- What is read behind the colon of a `Content-Length`. -/
theorem trimSpace_blank_digits {s : Bytes} (h : ∀ c ∈ s, 48 ≤ c ∧ c ≤ 57) : trimSpace (32 :: s) = s := by
  have hfront : dropSpaces isSpace2 isSpace3 s = s := by
    refine dropSpaces_digits h (fun c d hc => ?_) (fun c d e hc => ?_)
    · unfold isSpace2
      grind
    · unfold isSpace3
      grind
  have hback : dropSpaces (fun c d => isSpace2 d c) (fun c d e => isSpace3 e d c) s.reverse = s.reverse := by
    refine dropSpaces_digits (fun c hc => h c (List.mem_reverse.mp hc)) (fun c d hc => ?_) (fun c d e hc => ?_)
    · unfold isSpace2
      grind
    · unfold isSpace3
      grind
  rw [trimSpace, dropSpaces_space (by decide), hfront, hback, List.reverse_reverse]

/-- The header that declares the length of a body. -/
def lengthHeader (n : ℕ) : Bytes × Bytes := (ascii "Content-Length", itoa n)

theorem index_crlf {line : Bytes} (h : OneLine line) (rest : Bytes) :
    index crlf (line ++ (crlf ++ rest)) = some line.length := by
  induction line with
  | nil => simp [index, crlf]
  | cons c line ih =>
    obtain ⟨hc, hrest⟩ := List.forall_mem_cons.mp h
    rw [List.cons_append, index, if_neg (by simp [crlf, Ne.symm hc.1]), ih hrest]
    rfl

theorem index_crlf_eq_none {line : Bytes} (h : OneLine line) : index crlf line = none := by
  induction line with
  | nil => rfl
  | cons c line ih =>
    obtain ⟨hc, hrest⟩ := List.forall_mem_cons.mp h
    rw [index, if_neg (by simp [crlf, Ne.symm hc.1]), ih hrest]
    rfl

/-- **The length that is declared is found**, with more lines behind it or not. -/
theorem sharedParseContentLength_lengthHeader {n : ℕ} (hn : n < 2 ^ 63) {rest : Bytes}
    (hrest : rest = [] ∨ ∃ more, rest = crlf ++ more) :
    sharedParseContentLength (headerLine (lengthHeader n) ++ rest) = n := by
  have hline : headerLine (lengthHeader n) ++ rest = ascii "Content-Length:" ++ (32 :: itoa n ++ rest) := by
    simp [headerLine, lengthHeader, ascii]
  have hone : OneLine (32 :: itoa n) := List.forall_mem_cons.mpr ⟨by decide, oneLine_itoa n⟩
  have hend : (indexBytes (32 :: itoa n ++ rest) crlf).getD (32 :: itoa n ++ rest).length = (32 :: itoa n).length := by
    unfold indexBytes
    rcases hrest with rfl | ⟨more, rfl⟩
    · rw [List.append_nil, index_crlf_eq_none hone]
      rfl
    · rw [index_crlf hone]
      rfl
  have hfound : sharedParseContentLength (ascii "Content-Length:" ++ (32 :: itoa n ++ rest)) =
      (atoi (trimSpace ((32 :: itoa n ++ rest).take
        ((indexBytes (32 :: itoa n ++ rest) crlf).getD (32 :: itoa n ++ rest).length)))).1 := rfl
  rw [hline, hfound, hend, List.take_left, trimSpace_blank_digits fun c hc => digit_of_mem_itoa hc, atoi_itoa hn]

/-! ### The block of a message -/

/-- The first line and the header lines, without the end of the last one. -/
def headText (first : Bytes) (headers : Headers) : Bytes := first ++ headers.flatMap fun kv => crlf ++ headerLine kv

theorem headerText_crlf (headers : Headers) :
    crlf ++ headerText headers = (headers.flatMap fun kv => crlf ++ headerLine kv) ++ crlf := by
  induction headers with
  | nil => rfl
  | cons kv headers ih =>
    have hcons : crlf ++ headerText (kv :: headers) = crlf ++ headerLine kv ++ (crlf ++ headerText headers) := by
      simp [headerText]
    rw [hcons, ih]
    simp

/-- A message is its block, the empty line and its body. -/
theorem messageText_eq (first : Bytes) (headers : Headers) (body : Bytes) :
    messageText first headers body = headText first headers ++ crlfcrlf ++ body := by
  have hblank : crlfcrlf = crlf ++ crlf := rfl
  have htext : messageText first headers body = first ++ (crlf ++ headerText headers) ++ (crlf ++ body) := by
    simp [messageText]
  rw [htext, headerText_crlf, hblank, headText]
  simp

/-- **The first empty line is the one behind the block.** -/
theorem index_headText {first : Bytes} {headers : Headers} (hfirst : OneLine first) (hne : first ≠ [])
    (h : ∀ kv ∈ headers, Sendable kv) :
    index crlfcrlf (headText first headers ++ crlfcrlf) = some (headText first headers).length := by
  have htext : messageText first headers [] = headText first headers ++ crlfcrlf := by
    rw [messageText_eq, List.append_nil]
  have hfound : ∀ u : Bytes, (index crlfcrlf (u ++ crlfcrlf)).isSome = true := by
    intro u
    induction u with
    | nil => decide
    | cons c u ih =>
      rw [List.cons_append, index]
      split_ifs
      · rfl
      · simpa using ih
  obtain ⟨n, hn⟩ := Option.isSome_iff_exists.mp (hfound (headText first headers))
  have hsplit := index_split hn
  have hle := index_le hn
  rw [List.append_assoc] at hsplit
  have hend := messageText_blank hfirst hne h (htext.trans hsplit)
  have hlen := congrArg List.length hend
  simp only [List.length_drop, List.length_append, List.length_nil] at hlen hle
  rw [hn]
  congr 1
  omega

/-- A header whose line does not name a length. -/
def Unnamed (kv : Bytes × Bytes) : Prop := names (kv.1 ++ [58]) = false ∧ names kv.2 = false

/-- The headers say how long the body is, and nothing in front of that does. -/
def Declares (headers : Headers) (n : ℕ) : Prop :=
  n = 0 ∧ (∀ kv ∈ headers, Unnamed kv) ∨
  n < 2 ^ 63 ∧ ∃ before after, headers = before ++ lengthHeader n :: after ∧ ∀ kv ∈ before, Unnamed kv

theorem names_lines {first : Bytes} {headers : Headers} (hfirst : names first = false)
    (h : ∀ kv ∈ headers, Unnamed kv) : names (headText first headers) = false := by
  induction headers generalizing first with
  | nil => simpa [headText] using hfirst
  | cons kv headers ih =>
    obtain ⟨hkv, hrest⟩ := List.forall_mem_cons.mp h
    have hline : names (headerLine kv) = false := by rw [names_headerLine, hkv.1, hkv.2]; rfl
    have htext : headText first (kv :: headers) = first ++ 13 :: ([] ++ 10 :: headText (headerLine kv) headers) := by
      simp [headText, crlf]
    rw [htext, names_across needle_cr, names_across (by decide), hfirst, ih hline hrest]
    rfl

/-- **The length that a framer finds** is the declared one. -/
theorem sharedParseContentLength_headText {first : Bytes} {headers : Headers} {n : ℕ} (hfirst : names first = false)
    (h : Declares headers n) : sharedParseContentLength (headText first headers) = n := by
  rcases h with ⟨rfl, hall⟩ | ⟨hn, before, after, rfl, hbefore⟩
  · exact sharedParseContentLength_eq_zero (names_lines hfirst hall)
  · induction before generalizing first with
    | nil =>
      have htext : headText first ([] ++ lengthHeader n :: after) =
          first ++ (crlf ++ (headerLine (lengthHeader n) ++ after.flatMap fun kv => crlf ++ headerLine kv)) := by
        simp [headText]
      rw [htext, sharedParseContentLength_line hfirst, sharedParseContentLength_lengthHeader hn]
      cases after with
      | nil => exact .inl rfl
      | cons kv after => exact .inr ⟨headerLine kv ++ after.flatMap fun kv => crlf ++ headerLine kv, by simp⟩
    | cons kv before ih =>
      obtain ⟨hkv, hrest⟩ := List.forall_mem_cons.mp hbefore
      have hline : names (headerLine kv) = false := by rw [names_headerLine, hkv.1, hkv.2]; rfl
      have htext : headText first (kv :: before ++ lengthHeader n :: after) =
          first ++ (crlf ++ headText (headerLine kv) (before ++ lengthHeader n :: after)) := by
        simp [headText]
      rw [htext, sharedParseContentLength_line hfirst]
      exact ih hline hrest

/-- **A message is framed as it was written**: a first line that is not a frame's, headers of one line each,
and a body of the declared length. -/
theorem exists_rtspMessage {first : Bytes} {headers : Headers} {body : Bytes} (hfirst : OneLine first)
    (hne : first ≠ []) (hdollar : first.head? ≠ some 36) (hnames : names first = false)
    (h : ∀ kv ∈ headers, Sendable kv) (hlen : Declares headers body.length) :
    ∃ m : RtspMessage, m.encode = messageText first headers body := by
  refine ⟨⟨headText first headers, body, ?_, ?_, index_headText hfirst hne h, ?_⟩, ?_⟩
  · simp [headText, hne]
  · cases first with
    | nil => exact absurd rfl hne
    | cons c first => simpa [headText] using hdollar
  · exact sharedParseContentLength_headText hnames hlen
  · rw [messageText_eq]
    rfl

/-! ### Reading a response -/

/-- **A response of one line for each header is read**, up to the case of the keys and the normal form of
the values. -/
theorem newResponseFromBuffer_string {r : Response} (hline : OneLine r.statusLine)
    (hstatus : parseStatus r.statusLine = .ok ⟨r.status, r.protocolVersion, r.code, [], []⟩)
    (h : ∀ kv ∈ r.headers, Sendable kv) (hkeys : (r.headers.map fun kv => canonicalHeaderKey kv.1).Nodup) :
    newResponseFromBuffer r.string = .ok ⟨r.status, r.protocolVersion, r.code, r.headers.map received,
      takeBody (r.headers.map received) r.body⟩ := by
  have hne : r.string ≠ [] := by simp [Response.string, messageText, crlf]
  have hbound := length_headerText r.headers
  rw [newResponseFromBuffer, if_neg hne, parseResponse, Response.string, messageText, sharedLineSplit_crlf hline]
  simp only [hstatus]
  rw [headerLoop_headerText h hkeys (by simp [crlf]; omega)]

/-- The values that are read are in normal form. -/
theorem normal_headerLoop {k : ℕ} {next rest : Bytes} {acc headers : Headers}
    (h : headerLoop k next acc = .ok (headers, rest)) (hacc : ∀ kv ∈ acc, Normal kv.2) :
    ∀ kv ∈ headers, Normal kv.2 := by
  induction k generalizing next acc with
  | zero =>
    cases h
    exact hacc
  | succ k ih =>
    rw [headerLoop] at h
    simp only at h
    split_ifs at h
    · cases h
      exact hacc
    · cases hp : sharedParseHeader (sharedLineSplit next).2 with
      | error e => simp [hp] at h
      | ok kv =>
        simp only [hp] at h
        refine ih h fun e he => ?_
        rcases mem_of_mem_set he with he | rfl
        · exact hacc e he
        · exact normal_parseHeader (oneLine_sharedLineSplit next) hp

theorem normal_nil : Normal [] := ⟨by simp, by simp, rfl⟩

theorem normal_headerGet {headers : Headers} (h : ∀ kv ∈ headers, Normal kv.2) (key : Bytes) :
    Normal (headerGet headers key) := by
  unfold headerGet
  split
  case h_1 v hv => exact h _ (mem_of_find hv)
  case h_2 =>
    split
    case h_1 v hv => exact h _ (mem_of_find hv)
    case h_2 =>
      cases hfind : headers.find? fun kv => toLower kv.1 == toLower key with
      | none => exact normal_nil
      | some kv => exact h kv (List.mem_of_find?_eq_some hfind)

theorem Normal.oneLine {value : Bytes} (h : Normal value) : OneLine value :=
  fun c hc => ⟨(h.plain c hc).1, (h.plain c hc).2.1⟩

theorem normal_itoa (n : ℕ) : Normal (itoa n) := by
  have hdigit : ∀ c ∈ itoa n, c ≠ 32 ∧ c ≠ 9 ∧ c ≠ 59 := fun c hc => by
    have := digit_of_mem_itoa hc
    refine ⟨?_, ?_, ?_⟩ <;> grind
  refine ⟨fun c hc => ⟨(oneLine_itoa n c hc).1, (oneLine_itoa n c hc).2, (hdigit c hc).2.1⟩, fun h => ?_, ?_⟩
  · exact (hdigit 32 (List.mem_of_head? h)).1 rfl
  · have hsep : ∀ s : Bytes, (∀ c ∈ s, c ≠ 59) → separated .value s = true := by
      intro s
      induction s with
      | nil => exact fun _ => rfl
      | cons c s ih =>
        intro hs
        obtain ⟨hc, hrest⟩ := List.forall_mem_cons.mp hs
        rw [separated, if_neg hc]
        exact ih hrest
    exact hsep _ fun c hc => (hdigit c hc).2.2

end RtspProxy.Wire
