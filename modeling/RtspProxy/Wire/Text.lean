import RtspProxy.Wire.Header
import RtspProxy.Wire.Response

/-!
# The text of a message, and what is read from it

`Response.String` and `Request.String` write a first line, a line for each header in the order in
which the map is visited, and an empty line; a response also has a body. `ParseResponse` and
`ParseRequest` read such a text line by line, bring the keys into canonical case and the values
into a normal form.

## The model

`headerText` is the text of the headers, for a list of keys and values in the order of the visit.
`OneLine` texts have no line end. `Normal` is the normal form of values: no line end and no tab,
no blank at the front, and none directly after a `;` that separates parameters (a `;` that
directly follows such a `;` is taken for the start of a parameter).

## What is proved

* `parseValue_idem`, `normal_parseHeader` — a value that was read is in normal form, and is read
  again as it is.
* `headerLoop_headerText` — headers of one line each are read as they were written, up to the case
  of the keys and the normal form of the values.
* `newResponseFromBuffer_fields` — a response with any header lines that have a colon is read.
* `response_roundTrip` — a response is read as it was written.
-/

namespace RtspProxy.Wire

open Theory

/-! ### Texts of one line -/

/-- A text without a line end. -/
def OneLine (s : Bytes) : Prop := ∀ c ∈ s, c ≠ 13 ∧ c ≠ 10

instance : DecidablePred OneLine := fun _ => inferInstanceAs (Decidable (∀ _ ∈ _, _))

theorem oneLine_append {s t : Bytes} : OneLine (s ++ t) ↔ OneLine s ∧ OneLine t := by
  simp only [OneLine, List.forall_mem_append]

theorem oneLine_nil : OneLine [] := fun _ hc => absurd hc List.not_mem_nil

/-- A part of a text of one line is of one line. -/
theorem OneLine.sublist {s t : Bytes} (hs : OneLine s) (h : t.Sublist s) : OneLine t := fun c hc => hs c (h.subset hc)

/-- A text of one line, and its end, are split off. -/
theorem sharedLineSplit_crlf {line : Bytes} (h : OneLine line) (rest : Bytes) :
    sharedLineSplit (line ++ (crlf ++ rest)) = (rest, line) := by
  induction line with
  | nil => rfl
  | cons c cs ih =>
    have hc := h c (by simp)
    rw [List.cons_append, sharedLineSplit, if_neg (by simpa using hc), ih fun d hd => h d (by simp [hd])]
    rintro _ rfl
    exact absurd rfl hc.1

theorem oneLine_sharedLineSplit (buf : Bytes) : OneLine (sharedLineSplit buf).2 := by
  fun_induction sharedLineSplit buf with
  | case1 => simp [OneLine]
  | case2 rest => simp [OneLine]
  | case3 c cs => simp [OneLine]
  | case4 c cs _ hc ih =>
    intro d hd
    rcases List.mem_cons.mp hd with rfl | hd
    · simpa using hc
    · exact ih d hd

/-! ### Values -/

/-- No blank directly after a `;` that separates parameters; the state is that of the loop which
reads the value. -/
def separated : ValueState → Bytes → Bool
  | _, [] => true
  | .value, c :: cs => separated (if c = 59 then .skip else .value) cs
  | .skip, c :: cs => c != 32 && separated .value cs

/-- The normal form of a header value. -/
structure Normal (value : Bytes) : Prop where
  /-- No line end and no tab. -/
  plain : ∀ c ∈ value, c ≠ 13 ∧ c ≠ 10 ∧ c ≠ 9
  /-- No blank at the front. -/
  front : value.head? ≠ some 32
  /-- No blank directly after a separating `;`. -/
  params : separated .value value = true

theorem separated_of_not_isInfix {v : Bytes} (h : ¬ [59, 32] <:+: v) :
    separated .value v = true ∧ (v.head? ≠ some 32 → separated .skip v = true) := by
  induction v with
  | nil => exact ⟨rfl, fun _ => rfl⟩
  | cons c v ih =>
    obtain ⟨hvalue, hskip⟩ := ih fun hv => h (hv.trans (List.suffix_cons c v).isInfix)
    refine ⟨?_, fun hc => ?_⟩
    · rw [separated]
      split_ifs with hc
      · refine hskip fun hhead => h ?_
        obtain ⟨w, rfl⟩ := List.head?_eq_some_iff.mp hhead
        exact ⟨[], w, by rw [hc]; rfl⟩
      · exact hvalue
    · have hne : c ≠ 32 := by simpa using hc
      simp [separated, hne, hvalue]

/-- A text without line ends and tabs, and without a blank after a separating `;`, is left as it is. -/
theorem parseValue_eq_self {st : ValueState} {value : Bytes} (hplain : ∀ c ∈ value, c ≠ 13 ∧ c ≠ 10 ∧ c ≠ 9)
    (hsep : separated st value = true) : parseValue st value = value := by
  induction value generalizing st with
  | nil => cases st <;> rfl
  | cons c cs ih =>
    obtain ⟨⟨hcr, hlf, htab⟩, hrest⟩ := List.forall_mem_cons.mp hplain
    cases st with
    | value =>
      rw [parseValue, if_neg (by simp [hcr, hlf, htab])]
      exact congrArg _ (ih hrest hsep)
    | skip =>
      simp only [separated, Bool.and_eq_true, bne_iff_ne] at hsep
      rw [parseValue, if_pos ⟨hsep.1, htab, hcr, hlf⟩]
      exact congrArg _ (ih hrest hsep.2)

/-- What the loop returns has no line ends and tabs. -/
theorem plain_parseValue (st : ValueState) (s : Bytes) : ∀ c ∈ parseValue st s, c ≠ 13 ∧ c ≠ 10 ∧ c ≠ 9 := by
  fun_induction parseValue st s with
  | case1 => simp
  | case2 c cs _ ih => exact ih
  | case3 c cs hc ih =>
    simp only [not_or] at hc
    exact List.forall_mem_cons.mpr ⟨⟨hc.2.1, hc.2.2, hc.1⟩, ih⟩
  | case4 c cs hc ih => exact List.forall_mem_cons.mpr ⟨⟨hc.2.2.1, hc.2.2.2, hc.2.1⟩, ih⟩
  | case5 c cs _ ih => exact ih

theorem separated_parseValue (st : ValueState) (s : Bytes) : separated st (parseValue st s) = true := by
  fun_induction parseValue st s with
  | case1 st => cases st <;> rfl
  | case2 c cs _ ih => exact ih
  | case3 c cs hc ih => exact ih
  | case4 c cs hc ih => simpa [separated, hc.1] using ih
  | case5 c cs _ ih => exact ih

/-- **A value that was read is read again as it is.** -/
theorem parseValue_idem (st : ValueState) (s : Bytes) : parseValue st (parseValue st s) = parseValue st s :=
  parseValue_eq_self (plain_parseValue st s) (separated_parseValue st s)

theorem head_dropBlanks (s : Bytes) (c : UInt8) (h : (s.dropWhile fun c => c == 32 || c == 9).head? = some c) :
    c ≠ 32 ∧ c ≠ 9 := by
  have := List.head?_dropWhile_not (fun c : UInt8 => c == 32 || c == 9) s
  simpa [h] using this

/-! ### Header lines -/

/-- `fmt.Sprintf("%s: %s", key, value)`. -/
def headerLine (kv : Bytes × Bytes) : Bytes := kv.1 ++ ascii ": " ++ kv.2

/-- A key and a value as they are read. -/
def received (kv : Bytes × Bytes) : Bytes × Bytes :=
  (canonicalHeaderKey kv.1, parseValue .value (kv.2.dropWhile fun c => c == 32 || c == 9))

theorem index_colon {key : Bytes} (h : 58 ∉ key) (rest : Bytes) :
    index [58] (key ++ 58 :: rest) = some key.length := by
  induction key with
  | nil => simp [index]
  | cons c key ih =>
    obtain ⟨hc, hkey⟩ : 58 ≠ c ∧ 58 ∉ key := by simpa using h
    rw [List.cons_append, index, if_neg (by simpa using hc), ih hkey]
    rfl

/-- Any line with a colon: what stands before it, and behind it. -/
def fieldLine (kv : Bytes × Bytes) : Bytes := kv.1 ++ 58 :: kv.2

/-- A value behind a blank. -/
def blankBefore (kv : Bytes × Bytes) : Bytes × Bytes := (kv.1, 32 :: kv.2)

theorem headerLine_eq (kv : Bytes × Bytes) : headerLine kv = fieldLine (blankBefore kv) := by
  rw [headerLine, List.append_assoc]
  rfl

theorem sharedParseHeader_fieldLine {kv : Bytes × Bytes} (h : 58 ∉ kv.1) :
    sharedParseHeader (fieldLine kv) = .ok (received kv) := by
  simp [sharedParseHeader, fieldLine, index_colon h, received]

/-- A header line is read as its key and its value. -/
theorem sharedParseHeader_headerLine {kv : Bytes × Bytes} (h : 58 ∉ kv.1) :
    sharedParseHeader (headerLine kv) = .ok (received kv) := by
  have hkey : 58 ∉ (blankBefore kv).1 := h
  rw [headerLine_eq, sharedParseHeader_fieldLine hkey]
  rfl

theorem received_normal {kv : Bytes × Bytes} (h : Normal kv.2) : received kv = (canonicalHeaderKey kv.1, kv.2) := by
  have hdrop : (kv.2.dropWhile fun c => c == 32 || c == 9) = kv.2 := by
    cases hv : kv.2 with
    | nil => rfl
    | cons c v =>
      have hblank : c ≠ 32 := by simpa [hv] using h.front
      have htab : c ≠ 9 := (h.plain c (by simp [hv])).2.2
      rw [List.dropWhile_cons_of_neg (by simp [hblank, htab])]
  rw [received, hdrop, parseValue_eq_self h.plain h.params]

/-- **The value of a header line is in normal form.** -/
theorem normal_parseHeader {line key value : Bytes} (hline : OneLine line)
    (h : sharedParseHeader line = .ok (key, value)) : Normal value := by
  unfold sharedParseHeader at h
  split at h
  · cases h
  case h_2 colon _ =>
    obtain ⟨-, rfl⟩ := Prod.mk.inj (Except.ok.inj h)
    refine ⟨plain_parseValue _ _, ?_, separated_parseValue _ _⟩
    generalize hv : ((line.drop (colon + 1)).dropWhile fun c => c == 32 || c == 9) = v
    cases v with
    | nil => simp [parseValue]
    | cons c v =>
      have hc := head_dropBlanks (line.drop (colon + 1)) c (by rw [hv]; rfl)
      have hmem : c ∈ line :=
        List.mem_of_mem_drop ((List.dropWhile_sublist _).subset (by rw [hv]; exact List.mem_cons_self))
      have hend := hline c hmem
      rw [parseValue, if_neg (by simp [hc.2, hend])]
      simpa using hc.1

/-- The values that the header loop reads are of one line. -/
theorem oneLine_headerLoop {k : ℕ} {next rest : Bytes} {acc headers : Headers}
    (h : headerLoop k next acc = .ok (headers, rest)) (hacc : ∀ kv ∈ acc, OneLine kv.2) :
    ∀ kv ∈ headers, OneLine kv.2 := by
  induction k generalizing next acc with
  | zero =>
    cases h
    exact hacc
  | succ k ih =>
    rw [headerLoop] at h
    simp only at h
    split_ifs at h
    · cases h
      exact hacc
    · cases hp : sharedParseHeader (sharedLineSplit next).2 with
      | error e => simp [hp] at h
      | ok kv =>
        simp only [hp] at h
        have hnormal := normal_parseHeader (oneLine_sharedLineSplit next) hp
        refine ih h fun e he => ?_
        rcases mem_of_mem_set he with he | rfl
        · exact hacc e he
        · exact fun c hc => ⟨(hnormal.plain c hc).1, (hnormal.plain c hc).2.1⟩

theorem oneLine_headerGet {headers : Headers} (h : ∀ kv ∈ headers, OneLine kv.2) (key : Bytes) :
    OneLine (headerGet headers key) := by
  unfold headerGet
  split
  case h_1 v hv => exact h _ (mem_of_find hv)
  case h_2 =>
    split
    case h_1 v hv => exact h _ (mem_of_find hv)
    case h_2 =>
      cases hfind : headers.find? fun kv => toLower kv.1 == toLower key with
      | none => exact oneLine_nil
      | some kv => exact h kv (List.mem_of_find?_eq_some hfind)

/-- **The header values of a response are of one line.** -/
theorem oneLine_response {buffer : Bytes} {response : Response} (h : newResponseFromBuffer buffer = .ok response)
    (key : Bytes) : OneLine (headerGet response.headers key) := by
  refine oneLine_headerGet ?_ key
  rw [newResponseFromBuffer] at h
  split_ifs at h
  · cases h
    simp
  · obtain ⟨status, headers, rest, -, hloop, rfl⟩ := parseResponse_ok h
    exact oneLine_headerLoop hloop (by simp)

/-! ### The header lines of a message -/

/-- The header lines of a message, each with its end. -/
def headerText (headers : Headers) : Bytes := headers.flatMap fun kv => headerLine kv ++ crlf

/-- A header whose line is split off as a whole and then at the colon behind the key. -/
structure Sendable (kv : Bytes × Bytes) : Prop where
  /-- No colon in the key. -/
  colon : 58 ∉ kv.1
  /-- The key is of one line. -/
  key : OneLine kv.1
  /-- The value is of one line. -/
  value : OneLine kv.2

theorem Sendable.oneLine_fieldLine {kv : Bytes × Bytes} (h : Sendable kv) : OneLine (fieldLine kv) :=
  oneLine_append.mpr ⟨h.key, List.forall_mem_cons.mpr ⟨by decide, h.value⟩⟩

theorem Sendable.blankBefore {kv : Bytes × Bytes} (h : Sendable kv) : Sendable (blankBefore kv) :=
  ⟨h.colon, h.key, List.forall_mem_cons.mpr ⟨by decide, h.value⟩⟩

theorem Sendable.oneLine {kv : Bytes × Bytes} (h : Sendable kv) : OneLine (headerLine kv) :=
  headerLine_eq kv ▸ h.blankBefore.oneLine_fieldLine

theorem headerLine_ne_nil (kv : Bytes × Bytes) : headerLine kv ≠ [] := by
  simp [headerLine, ascii]

theorem foldl_set_of_nodup {acc new : Headers} (h : ((acc ++ new).map Prod.fst).Nodup) :
    new.foldl (fun headers kv => headers.set kv.1 kv.2) acc = acc ++ new := by
  induction new generalizing acc with
  | nil => simp
  | cons kv new ih =>
    have hnew : acc.any (fun e => e.1 == kv.1) = false := by
      rw [List.any_eq_false]
      intro e he heq
      simp only [List.map_append, List.map_cons] at h
      exact (List.nodup_append.mp h).2.2 e.1 (List.mem_map_of_mem he) kv.1 (by simp) (by simpa using heq)
    have hset : acc.set kv.1 kv.2 = acc ++ [kv] := by simp [Headers.set, hnew]
    rw [List.foldl_cons, hset, ih (by simpa using h)]
    simp

/-- Lines with a colon in each. -/
def fieldsText (fields : Headers) : Bytes := fields.flatMap fun kv => fieldLine kv ++ crlf

theorem headerText_eq (headers : Headers) : headerText headers = fieldsText (headers.map blankBefore) := by
  rw [fieldsText, List.flatMap_map, headerText]
  simp only [headerLine_eq]

theorem fieldLine_ne_nil (kv : Bytes × Bytes) : fieldLine kv ≠ [] := by
  simp [fieldLine]

theorem sharedLineSplit_fieldsText {kv : Bytes × Bytes} (h : Sendable kv) (fields : Headers) (rest : Bytes) :
    sharedLineSplit (fieldsText (kv :: fields) ++ (crlf ++ rest)) =
      (fieldsText fields ++ (crlf ++ rest), fieldLine kv) := by
  have htext : fieldsText (kv :: fields) ++ (crlf ++ rest) =
      fieldLine kv ++ (crlf ++ (fieldsText fields ++ (crlf ++ rest))) := by simp [fieldsText]
  rw [htext, sharedLineSplit_crlf h.oneLine_fieldLine]

/-- The header loop on lines with a colon in each. -/
theorem headerLoop_fields {fields : Headers} (h : ∀ kv ∈ fields, Sendable kv) {k : ℕ} (hk : fields.length < k)
    (acc : Headers) (rest : Bytes) : headerLoop k (fieldsText fields ++ (crlf ++ rest)) acc =
      .ok ((fields.map received).foldl (fun headers kv => headers.set kv.1 kv.2) acc, rest) := by
  induction fields generalizing k acc with
  | nil =>
    obtain ⟨k, rfl⟩ := Nat.exists_eq_succ_of_ne_zero (Nat.ne_zero_of_lt hk)
    simp [headerLoop, fieldsText, sharedLineSplit, crlf]
  | cons kv fields ih =>
    obtain ⟨k, rfl⟩ := Nat.exists_eq_succ_of_ne_zero (Nat.ne_zero_of_lt hk)
    obtain ⟨hkv, hrest⟩ := List.forall_mem_cons.mp h
    rw [headerLoop, sharedLineSplit_fieldsText hkv]
    simp only [fieldLine_ne_nil, if_false, sharedParseHeader_fieldLine hkv.colon]
    exact ih hrest (by simpa using hk) _

/-- The header loop on header lines that are of one line each. -/
theorem headerLoop_foldl {headers : Headers} (h : ∀ kv ∈ headers, Sendable kv) {k : ℕ} (hk : headers.length < k)
    (acc : Headers) (rest : Bytes) : headerLoop k (headerText headers ++ (crlf ++ rest)) acc =
      .ok ((headers.map received).foldl (fun headers kv => headers.set kv.1 kv.2) acc, rest) := by
  have hsend : ∀ kv ∈ headers.map blankBefore, Sendable kv := by
    intro kv hkv
    obtain ⟨e, he, rfl⟩ := List.mem_map.mp hkv
    exact (h e he).blankBefore
  have hread : (headers.map blankBefore).map received = headers.map received := by
    rw [List.map_map]
    rfl
  rw [headerText_eq, headerLoop_fields hsend (by rwa [List.length_map]), hread]

/-- **Headers are read as they were written,** up to the case of the keys and the normal form of
the values, and nothing behind the empty line is taken for one. -/
theorem headerLoop_headerText {headers : Headers} (h : ∀ kv ∈ headers, Sendable kv)
    (hkeys : (headers.map fun kv => canonicalHeaderKey kv.1).Nodup) {k : ℕ} (hk : headers.length < k) (rest : Bytes) :
    headerLoop k (headerText headers ++ (crlf ++ rest)) [] = .ok (headers.map received, rest) := by
  have hnodup : (([] ++ headers.map received).map Prod.fst).Nodup := by
    simpa [received, Function.comp_def] using hkeys
  rw [headerLoop_foldl h hk, foldl_set_of_nodup hnodup, List.nil_append]

theorem length_fieldsText (fields : Headers) : fields.length ≤ (fieldsText fields).length := by
  induction fields with
  | nil => simp
  | cons kv fields ih =>
    simp only [fieldsText, List.flatMap_cons, List.length_append, List.length_cons, crlf] at ih ⊢
    omega

/-- There are no more headers than bytes in their text. -/
theorem length_headerText (headers : Headers) : headers.length ≤ (headerText headers).length := by
  have hlen := length_fieldsText (headers.map blankBefore)
  rwa [List.length_map, ← headerText_eq] at hlen

/-- A message with any lines that have a colon. -/
def fieldsMessage (first : Bytes) (fields : Headers) (body : Bytes) : Bytes :=
  first ++ (crlf ++ (fieldsText fields ++ (crlf ++ body)))

/-- **A response with any lines that have a colon is read,** and of two lines with one key the later counts. -/
theorem newResponseFromBuffer_fields {first : Bytes} {status : Response} (hfirst : OneLine first)
    (hstatus : parseStatus first = .ok status) {fields : Headers} (h : ∀ kv ∈ fields, Sendable kv) (body : Bytes) :
    ∃ response, newResponseFromBuffer (fieldsMessage first fields body) = .ok response ∧
      response.headers = (fields.map received).foldl (fun (headers : Headers) kv => headers.set kv.1 kv.2) [] := by
  have hne : fieldsMessage first fields body ≠ [] := by simp [fieldsMessage, crlf]
  have hbound := length_fieldsText fields
  rw [newResponseFromBuffer, if_neg hne, parseResponse, fieldsMessage, sharedLineSplit_crlf hfirst]
  simp only [hstatus]
  rw [headerLoop_fields h (by simp [crlf]; omega)]
  exact ⟨_, rfl, rfl⟩

/-- A message: its first line, its headers, an empty line and its body. -/
def messageText (first : Bytes) (headers : Headers) (body : Bytes) : Bytes :=
  first ++ (crlf ++ (headerText headers ++ (crlf ++ body)))

/-- In lines that are not empty, an empty line is found at the end only. -/
theorem blank_at_end {lines : List Bytes} (h : ∀ line ∈ lines, OneLine line ∧ line ≠ []) {u v : Bytes}
    (heq : (lines.flatMap fun line => line ++ crlf) ++ crlf = u ++ (crlfcrlf ++ v)) : v = [] := by
  induction lines generalizing u with
  | nil =>
    have := congrArg List.length heq
    simp only [List.flatMap_nil, List.nil_append, List.length_append, crlf, crlfcrlf, List.length_cons,
      List.length_nil] at this
    omega
  | cons line lines ih =>
    obtain ⟨⟨hline, -⟩, hrest⟩ := List.forall_mem_cons.mp h
    rw [List.flatMap_cons, List.append_assoc, List.append_assoc] at heq
    generalize htext : (lines.flatMap fun line => line ++ crlf) ++ crlf = text at heq
    have hstart : crlf ++ text = crlfcrlf ++ v → v = [] := by
      intro hv
      cases lines with
      | nil => simpa [← htext, crlf, crlfcrlf] using hv.symm
      | cons next lines =>
        obtain ⟨hnext, hne⟩ := hrest next List.mem_cons_self
        obtain ⟨c, next, rfl⟩ := List.exists_cons_of_ne_nil hne
        have hc : c = 13 := by
          have : crlf ++ (c :: (next ++ crlf ++ (lines.flatMap fun line => line ++ crlf) ++ crlf)) = crlfcrlf ++ v := by
            simpa [← htext] using hv
          simp only [crlf, crlfcrlf, List.cons_append, List.nil_append, List.cons.injEq, true_and] at this
          exact this.1
        exact absurd hc (hnext c List.mem_cons_self).1
    rcases List.append_eq_append_iff.mp heq with ⟨gap, -, hgap⟩ | ⟨gap, hgap, hv⟩
    · match gap, hgap with
      | [], hgap => exact hstart hgap
      | [c], hgap =>
        simp only [crlf, crlfcrlf, List.cons_append, List.nil_append, List.cons.injEq] at hgap
        exact absurd hgap.2.1 (by decide)
      | c :: d :: gap, hgap =>
        simp only [crlf, List.cons_append, List.nil_append, List.cons.injEq] at hgap
        exact ih hrest (htext.trans hgap.2.2)
    · match gap, hgap, hv with
      | [], _, hv => exact hstart hv.symm
      | c :: gap, hgap, hv =>
        simp only [crlfcrlf, List.cons_append, List.cons.injEq] at hv
        exact absurd hv.1.symm (hline c (by simp [hgap])).1

/-- **The empty line of a message without a body is its end.** -/
theorem messageText_blank {first : Bytes} {headers : Headers} (hfirst : OneLine first) (hne : first ≠ [])
    (h : ∀ kv ∈ headers, Sendable kv) {u v : Bytes} (heq : messageText first headers [] = u ++ (crlfcrlf ++ v)) :
    v = [] := by
  have hlines : ∀ line ∈ first :: headers.map headerLine, OneLine line ∧ line ≠ [] := by
    simp only [List.forall_mem_cons, List.forall_mem_map]
    exact ⟨⟨hfirst, hne⟩, fun kv hkv => ⟨(h kv hkv).oneLine, headerLine_ne_nil kv⟩⟩
  refine blank_at_end hlines (Eq.trans ?_ heq)
  simp [messageText, headerText, List.flatMap_map]

/-! ### The first line -/

theorem flatMap_runeString {s : Bytes} (h : IsAscii s) : s.flatMap runeString = s := by
  induction s with
  | nil => rfl
  | cons c s ih =>
    obtain ⟨hc, hs⟩ := List.forall_mem_cons.mp h
    rw [List.flatMap_cons, runeString, if_pos hc, ih hs]
    rfl

/-- A word and the blank behind it are split off. -/
theorem nextWord_cons {w : Bytes} {b : UInt8} (hw : ∀ c ∈ w, notBlank c = true) (hb : notBlank b = false)
    (rest : Bytes) : nextWord (w ++ b :: rest) = (w.flatMap runeString, rest) := by
  have htake : (w ++ b :: rest).takeWhile notBlank = w := by
    rw [List.takeWhile_append_of_pos hw, List.takeWhile_cons_of_neg (by simp [hb]), List.append_nil]
  simp [nextWord, htake]

/-- A word of ASCII characters is taken as it is. -/
theorem nextWord_append {w : Bytes} (hascii : IsAscii w) (hw : ∀ c ∈ w, notBlank c = true) (rest : Bytes) :
    nextWord (w ++ 32 :: rest) = (w, rest) := by
  rw [nextWord_cons hw (by decide), flatMap_runeString hascii]

theorem notBlank_digit {c : UInt8} (h : 48 ≤ c ∧ c ≤ 57) : c < 128 ∧ notBlank c = true ∧ c ≠ 13 ∧ c ≠ 10 := by
  have hspace : c ≠ 32 := by grind
  have htab : c ≠ 9 := by grind
  exact ⟨by grind, by simp [notBlank, hspace, htab], by grind, by grind⟩

theorem oneLine_itoa (n : ℕ) : OneLine (itoa n) := fun _ hc => (notBlank_digit (digit_of_mem_itoa hc)).2.2

theorem restOfLine_of_oneLine {s : Bytes} (hs : OneLine s) : restOfLine s = s.flatMap runeString := by
  have htake : s.takeWhile (fun c => c != 13 && c != 10) = s := by
    have : (s ++ []).takeWhile (fun c => c != 13 && c != 10) = s ++ [] :=
      List.takeWhile_append_of_pos fun c hc => by simpa using hs c hc
    simpa using this
  rw [restOfLine, htake]

theorem restOfLine_eq {s : Bytes} (hascii : IsAscii s) (hs : OneLine s) : restOfLine s = s := by
  rw [restOfLine_of_oneLine hs, flatMap_runeString hascii]

/-! ### Responses -/

/-- The status line of `Response.String`. -/
def Response.statusLine (r : Response) : Bytes := r.protocolVersion ++ 32 :: (formatInt r.code ++ 32 :: r.status)

/-- `Response.String`. -/
def Response.string (r : Response) : Bytes := messageText r.statusLine r.headers r.body

/-- A response whose text is unambiguous. -/
structure Response.WellFormed (r : Response) : Prop where
  /-- There is a version. -/
  version_ne : r.protocolVersion ≠ []
  /-- It is one word of ASCII characters. -/
  version : ∀ c ∈ r.protocolVersion, c < 128 ∧ c ≠ 32 ∧ c ≠ 9 ∧ c ≠ 13 ∧ c ≠ 10
  /-- The code has three digits. -/
  code : 100 ≤ r.code ∧ r.code ≤ 999
  /-- There is a status. -/
  status_ne : r.status ≠ []
  /-- It is a line of ASCII characters. -/
  status : ∀ c ∈ r.status, c < 128 ∧ c ≠ 13 ∧ c ≠ 10
  /-- Each header has a key. -/
  key_ne : ∀ kv ∈ r.headers, kv.1 ≠ []
  /-- The keys are of ASCII characters, none of which ends the key or its line. -/
  key : ∀ kv ∈ r.headers, ∀ c ∈ kv.1, c < 128 ∧ c ≠ 58 ∧ c ≠ 13 ∧ c ≠ 10
  /-- There is no white space around a key. -/
  trimmed : ∀ kv ∈ r.headers, trimSpace kv.1 = kv.1
  /-- The keys differ without case. -/
  distinct : Distinct r.headers
  /-- The values are in normal form. -/
  value : ∀ kv ∈ r.headers, Normal kv.2
  /-- A body is as long as the headers say. -/
  length : r.body ≠ [] → atoi (headerGet r.headers (ascii "Content-Length")) = ((r.body.length : ℤ), none)

namespace Response.WellFormed

variable {r : Response}

theorem ascii_key (h : r.WellFormed) : ∀ kv ∈ r.headers, IsAscii kv.1 := fun kv hkv c hc => (h.key kv hkv c hc).1

theorem sendable (h : r.WellFormed) : ∀ kv ∈ r.headers, Sendable kv := fun kv hkv =>
  ⟨fun hc => (h.key kv hkv 58 hc).2.1 rfl, fun c hc => (h.key kv hkv c hc).2.2, fun c hc =>
    ⟨((h.value kv hkv).plain c hc).1, ((h.value kv hkv).plain c hc).2.1⟩⟩

theorem distinct_received (h : r.WellFormed) : Distinct (r.headers.map received) := by
  have hfold : (r.headers.map received).map (fun kv => fold kv.1) = r.headers.map fun kv => fold kv.1 := by
    rw [List.map_map]
    exact List.map_congr_left fun kv hkv => fold_canonicalHeaderKey (h.trimmed kv hkv)
  rw [Distinct, hfold]
  exact h.distinct

theorem ascii_received (h : r.WellFormed) : ∀ kv ∈ r.headers.map received, IsAscii kv.1 := by
  intro e he
  obtain ⟨kv, hkv, rfl⟩ := List.mem_map.mp he
  exact isAscii_fold.mp (fold_canonicalHeaderKey (h.trimmed kv hkv) ▸ isAscii_fold.mpr (h.ascii_key kv hkv))

theorem formatInt_code (h : r.WellFormed) :
    (formatInt r.code).length = 3 ∧ atoi (formatInt r.code) = (r.code, none) ∧
      ∀ c ∈ formatInt r.code, 48 ≤ c ∧ c ≤ 57 := by
  obtain ⟨hlo, hhi⟩ := h.code
  have hcode : formatInt r.code = itoa r.code.natAbs := by rw [formatInt, if_neg (by omega)]
  have hmost : (itoa r.code.natAbs).length ≤ 3 := (length_itoa_le_iff (by decide)).mpr (by omega)
  have hleast : ¬ (itoa r.code.natAbs).length ≤ 2 := mt (length_itoa_le_iff (by decide)).mp (by omega)
  rw [hcode]
  refine ⟨by omega, ?_, fun c hc => digit_of_mem_itoa hc⟩
  rw [atoi_itoa (by omega), Int.natAbs_of_nonneg (by omega)]

theorem oneLine_statusLine (h : r.WellFormed) : OneLine r.statusLine := by
  have hdigits := h.formatInt_code.2.2
  intro c hc
  simp only [Response.statusLine, List.mem_append, List.mem_cons] at hc
  rcases hc with hc | rfl | hc | rfl | hc
  · exact (h.version c hc).2.2.2
  · decide
  · exact (notBlank_digit (hdigits c hc)).2.2
  · decide
  · exact (h.status c hc).2

/-- The status line is read as it was written. -/
theorem parseStatus_statusLine (h : r.WellFormed) :
    parseStatus r.statusLine = .ok ⟨r.status, r.protocolVersion, r.code, [], []⟩ := by
  obtain ⟨hlen, hatoi, hdigits⟩ := h.formatInt_code
  have hversion := nextWord_append (fun c hc => (h.version c hc).1)
    (fun c hc => by simp [notBlank, (h.version c hc).2]) (formatInt r.code ++ 32 :: r.status)
  have hcode := nextWord_append (fun c hc => (notBlank_digit (hdigits c hc)).1)
    (fun c hc => (notBlank_digit (hdigits c hc)).2.1) r.status
  have hstatus := restOfLine_eq (fun c hc => (h.status c hc).1) fun c hc => (h.status c hc).2
  have hne : r.code ≠ 0 := by have := h.code; omega
  simp [parseStatus, Response.statusLine, hversion, hcode, hstatus, hlen, hatoi, h.status_ne, hne, h.version_ne]

/-- A value is found in the headers that were read as in those that were written. -/
theorem headerGet_received (h : r.WellFormed) {seen seen' : Headers} (hseen : seen.Perm r.headers)
    (hseen' : seen'.Perm (r.headers.map received)) {kv : Bytes × Bytes} (hkv : kv ∈ r.headers) {key : Bytes}
    (hkey : fold key = fold kv.1) : headerGet seen' key = headerGet seen key := by
  have hwritten : headerGet seen key = kv.2 :=
    headerGet_eq ((hseen.map _).nodup_iff.mpr h.distinct) (fun e he => h.ascii_key e (hseen.mem_iff.mp he))
      (hseen.mem_iff.mpr hkv) (h.trimmed kv hkv) hkey
  have hcanon := fold_canonicalHeaderKey (h.trimmed kv hkv)
  have hread : headerGet seen' key = (received kv).2 :=
    headerGet_eq ((hseen'.map _).nodup_iff.mpr h.distinct_received)
      (fun e he => h.ascii_received e (hseen'.mem_iff.mp he))
      (hseen'.mem_iff.mpr (List.mem_map_of_mem hkv))
      (trimSpace_eq_self_of_fold hcanon (h.trimmed kv hkv)) (hkey.trans hcanon.symm)
  rw [hwritten, hread, received_normal (h.value kv hkv)]

theorem takeBody_received (h : r.WellFormed) : takeBody (r.headers.map received) r.body = r.body := by
  by_cases hbody : r.body = []
  · simp [takeBody, hbody]
  · have hlen := h.length hbody
    have hex : ∃ kv ∈ r.headers, fold (ascii "Content-Length") = fold kv.1 := by
      by_contra hnone
      push Not at hnone
      rw [headerGet_eq_nil h.ascii_key (by decide) (by decide) hnone] at hlen
      exact absurd hlen (by simp [atoi])
    obtain ⟨kv, hkv, hkey⟩ := hex
    have hpos := List.length_pos_iff.mpr hbody
    rw [takeBody, h.headerGet_received (List.Perm.refl _) (List.Perm.refl _) hkv hkey, hlen]
    simp only
    rw [if_neg (by omega), Int.toNat_natCast, List.take_length]

end Response.WellFormed

/-- **A response is read as it was written,** whatever the order of its headers and whatever its
body looks like: with its version, code, status and body, and with each header under any spelling
of its key. And a value that was read is in normal form: it is read again as it is. -/
theorem response_roundTrip :
    (∀ r : Response, r.WellFormed → ∃ r', newResponseFromBuffer r.string = .ok r' ∧
      r'.protocolVersion = r.protocolVersion ∧ r'.code = r.code ∧ r'.status = r.status ∧ r'.body = r.body ∧
      ∀ seen seen' : Headers, seen.Perm r.headers → seen'.Perm r'.headers → ∀ kv ∈ r.headers, ∀ key,
        fold key = fold kv.1 → headerGet seen' key = headerGet seen key) ∧
    (∀ line key value, sharedParseHeader line = .ok (key, value) → parseValue .value value = value) ∧
    ∀ buf key value, sharedParseHeader (sharedLineSplit buf).2 = .ok (key, value) → Normal value ∧
      ∀ key', 58 ∉ key' → sharedParseHeader (headerLine (key', value)) = .ok (canonicalHeaderKey key', value) := by
  refine ⟨fun r h => ⟨⟨r.status, r.protocolVersion, r.code, r.headers.map received, r.body⟩, ?_, rfl, rfl, rfl, rfl,
    fun _ _ hseen hseen' _ hkv _ hkey => h.headerGet_received hseen hseen' hkv hkey⟩, ?_, ?_⟩
  · have hne : r.string ≠ [] := by simp [Response.string, messageText, crlf]
    have hkeys : (r.headers.map fun kv => canonicalHeaderKey kv.1).Nodup := by
      refine List.Nodup.of_map fold ?_
      simpa [Distinct, received, Function.comp_def] using h.distinct_received
    have hbound := length_headerText r.headers
    rw [newResponseFromBuffer, if_neg hne, parseResponse, Response.string, messageText,
      sharedLineSplit_crlf h.oneLine_statusLine]
    simp only [h.parseStatus_statusLine]
    rw [headerLoop_headerText h.sendable hkeys (by simp [crlf]; omega)]
    simp only [h.takeBody_received]
  · intro line key value h
    unfold sharedParseHeader at h
    split at h
    · cases h
    · obtain ⟨-, rfl⟩ := Prod.mk.inj (Except.ok.inj h)
      exact parseValue_idem _ _
  · intro buf key value h
    have hnormal := normal_parseHeader (oneLine_sharedLineSplit buf) h
    refine ⟨hnormal, fun key' hkey' => ?_⟩
    rw [sharedParseHeader_headerLine hkey', received_normal hnormal]

/-- A response with a parameter list, a key in small letters and a body that looks like headers. -/
def describeOk : Response :=
  ⟨ascii "OK", ascii "RTSP/1.0", 200,
    [(ascii "CSeq", ascii "7"), (ascii "content-LENGTH", ascii "11"), (ascii "Session", ascii "a;timeout=60;; b")],
    ascii "\r\n\r\nCSeq: 8"⟩

theorem response_roundTrip_describeOk : describeOk.WellFormed ∧ ∃ r', newResponseFromBuffer describeOk.string = .ok r' ∧
    r'.code = 200 ∧ r'.body = describeOk.body := by
  have hvalue : ∀ kv ∈ describeOk.headers, Normal kv.2 := by
    simp only [describeOk, List.forall_mem_cons]
    exact ⟨⟨by decide, by decide, by decide⟩, ⟨by decide, by decide, by decide⟩, ⟨by decide, by decide, by decide⟩,
      by simp⟩
  have h : describeOk.WellFormed :=
    ⟨by decide, by decide, by decide, by decide, by decide, by decide, by decide, by decide, by decide,
      hvalue, fun _ => by decide⟩
  obtain ⟨r', hparse, -, hcode, -, hbody, -⟩ := response_roundTrip.1 describeOk h
  exact ⟨h, r', hparse, hcode, hbody⟩

end RtspProxy.Wire
