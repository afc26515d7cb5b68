import Mathlib.Data.List.Induction
import RtspProxy.Theory.Split
import RtspProxy.Wire.Body
import RtspProxy.Wire.Text
import RtspProxy.Wire.Request

/-!
# Header lookup, by the lines of the message

`ParseRequest` and `ParseResponse` read header lines up to an empty one, and keep the value of each under the
canonical form of its key. `headerGet` tries three things: the key itself, its canonical form, and a
search for a key that differs in case only, in the order in which the map is visited.

For keys of ASCII characters these agree: what is found is the value of the last line whose key, without
the white space around it, differs from the one that is looked up in case only.

## The model

`messageLines` is the list of header lines that are read from a text (`headerLines` of `Body`), whatever the
ends of the lines. The key of a line stands before its first colon, and its value, in normal form, behind
it. `lastValue` says what a lookup is to find. A map is a list, and a lookup is made in any permutation of
it.

## What is proved

* `messageLines_fieldsMessage` — the lines of a message are those that were written.
* `canonicalHeaderKey_eq_iff`, `canonicalHeaderKey_idem` — the canonical form of any key.
* `headerGet_lines` — the lookup, for any list of lines.
* `headerGet_lastWins` — **`headerGet` is the lookup of the last line without case, in every message that is
  accepted and in every order of the map.**
-/

namespace RtspProxy.Wire

open Theory

/-! ### Canonical keys -/

theorem fold_canonicalHeaderKey_eq (s : Bytes) : fold (canonicalHeaderKey s) = fold (trimSpace s) := by
  rw [canonicalHeaderKey, fold_canonicalLoop]

/-- **Keys have one canonical form exactly if they are equal up to case and the white space around them.** -/
theorem canonicalHeaderKey_eq_iff (s t : Bytes) :
    canonicalHeaderKey s = canonicalHeaderKey t ↔ fold (trimSpace s) = fold (trimSpace t) := by
  constructor
  · intro h
    rw [← fold_canonicalHeaderKey_eq, h, fold_canonicalHeaderKey_eq]
  · intro h
    rw [canonicalHeaderKey, canonicalHeaderKey, ← canonicalLoop_fold, h, canonicalLoop_fold]

/-- There is no white space around a canonical key. -/
theorem trimSpace_canonicalHeaderKey (s : Bytes) : trimSpace (canonicalHeaderKey s) = canonicalHeaderKey s :=
  trimSpace_eq_self_of_fold (fold_canonicalHeaderKey_eq s) (trimSpace_idem s)

theorem canonicalHeaderKey_idem (s : Bytes) : canonicalHeaderKey (canonicalHeaderKey s) = canonicalHeaderKey s := by
  rw [canonicalHeaderKey_eq_iff, trimSpace_canonicalHeaderKey, fold_canonicalHeaderKey_eq]

theorem isAscii_canonicalHeaderKey {s : Bytes} (h : IsAscii s) : IsAscii (canonicalHeaderKey s) := by
  rw [← isAscii_fold, fold_canonicalHeaderKey_eq, isAscii_fold]
  exact fun c hc => h c ((trimSpace_sublist s).subset hc)

/-! ### Lines -/

/-- The header lines of a message. -/
def messageLines (buffer : Bytes) : List Bytes :=
  let next := (sharedLineSplit buffer).1
  (headerLines next.length next).1

/-- The key of a line: what stands before its first colon. -/
def lineKey (line : Bytes) : Bytes := (cut 58 line).1

/-- Its value: what stands behind the colon and the blanks, in normal form. -/
def lineValue (line : Bytes) : Bytes :=
  parseValue .value (((cut 58 line).2.getD []).dropWhile fun c => c == 32 || c == 9)

/-- What is set for a line. -/
def lineField (line : Bytes) : Bytes × Bytes := (canonicalHeaderKey (lineKey line), lineValue line)

/-- The value of the last line whose key, without the white space around it, is the key but for case. -/
def lastValue (lines : List Bytes) (key : Bytes) : Bytes :=
  ((lines.reverse.find? fun line => fold (trimSpace (lineKey line)) = fold key).map lineValue).getD []

/-- A line that is accepted gives its key and its value. -/
theorem sharedParseHeader_eq {line : Bytes} {kv : Bytes × Bytes} (h : sharedParseHeader line = .ok kv) :
    kv = lineField line := by
  have hcolon : 58 ∈ line := by
    cases hindex : index [58] line with
    | none => simp [sharedParseHeader, hindex] at h
    | some n =>
      rw [index_split hindex]
      simp
  obtain ⟨key, value, rfl, hkey⟩ := exists_first hcolon
  have hparse : sharedParseHeader (fieldLine (key, value)) = .ok (received (key, value)) :=
    sharedParseHeader_fieldLine hkey
  obtain rfl : kv = received (key, value) := Except.ok.inj (h.symm.trans hparse)
  rw [lineField, lineKey, lineValue, cut_append hkey]
  rfl

/-- The header loop sets the key and the value of each line. -/
theorem headerLoop_lines {k : ℕ} {next rest : Bytes} {acc headers : Headers}
    (h : headerLoop k next acc = .ok (headers, rest)) :
    headers = ((headerLines k next).1.map lineField).foldl
      (fun (headers : Headers) kv => headers.set kv.1 kv.2) acc := by
  obtain ⟨hset, -, hlines⟩ := headerLoop_ok h
  rw [hset, List.foldl_map]
  refine List.foldl_ext _ _ _ fun headers line hline => ?_
  obtain ⟨kv, hkv⟩ := hlines line hline
  rw [setLine, hkv, ← sharedParseHeader_eq hkv]

/-- The lines of a message are those that were written. -/
theorem messageLines_fieldsMessage {first : Bytes} (hfirst : OneLine first) {fields : Headers}
    (h : ∀ kv ∈ fields, Sendable kv) (body : Bytes) :
    messageLines (fieldsMessage first fields body) = fields.map fieldLine := by
  have hlines : ∀ k, fields.length < k →
      (headerLines k (fieldsText fields ++ (crlf ++ body))).1 = fields.map fieldLine := by
    induction fields with
    | nil =>
      intro k hk
      obtain ⟨k, rfl⟩ := Nat.exists_eq_succ_of_ne_zero (Nat.ne_zero_of_lt hk)
      simp [headerLines, fieldsText, sharedLineSplit, crlf]
    | cons kv fields ih =>
      intro k hk
      obtain ⟨k, rfl⟩ := Nat.exists_eq_succ_of_ne_zero (Nat.ne_zero_of_lt hk)
      obtain ⟨hkv, hrest⟩ := List.forall_mem_cons.mp h
      rw [headerLines, sharedLineSplit_fieldsText hkv, if_neg (fieldLine_ne_nil kv), ih hrest k (by simpa using hk)]
      rfl
  have hbound := length_fieldsText fields
  rw [messageLines, fieldsMessage, sharedLineSplit_crlf hfirst]
  exact hlines _ (by simp [crlf]; omega)

/-! ### Maps made of lines -/

section
variable {lines : List Bytes}

/-- The map that the lines make. -/
def lineMap (lines : List Bytes) : Headers :=
  (lines.map lineField).foldl (fun (headers : Headers) kv => headers.set kv.1 kv.2) []

theorem lineMap_concat (lines : List Bytes) (line : Bytes) :
    lineMap (lines ++ [line]) = (lineMap lines).set (lineField line).1 (lineField line).2 := by
  simp [lineMap]

theorem exists_of_mem_lineMap {kv : Bytes × Bytes} (h : kv ∈ lineMap lines) : ∃ line ∈ lines, kv = lineField line := by
  induction lines using List.reverseRecOn with
  | nil => exact absurd h List.not_mem_nil
  | append_singleton lines line ih =>
    rw [lineMap_concat] at h
    rcases mem_of_mem_set h with h | rfl
    · obtain ⟨l, hl, rfl⟩ := ih h
      exact ⟨l, List.mem_append_left _ hl, rfl⟩
    · exact ⟨line, by simp, rfl⟩

theorem nodup_keys_lineMap (lines : List Bytes) : ((lineMap lines).map Prod.fst).Nodup := by
  induction lines using List.reverseRecOn with
  | nil => exact List.nodup_nil
  | append_singleton lines line ih =>
    rw [lineMap_concat]
    exact nodup_keys_set ih _ _

theorem distinct_lineMap (lines : List Bytes) : Distinct (lineMap lines) := by
  have hkeys := nodup_keys_lineMap lines
  have hinj : ∀ a ∈ (lineMap lines).map Prod.fst, ∀ b ∈ (lineMap lines).map Prod.fst, fold a = fold b → a = b := by
    intro a ha b hb hab
    obtain ⟨kv, hkv, rfl⟩ := List.mem_map.mp ha
    obtain ⟨kv', hkv', rfl⟩ := List.mem_map.mp hb
    obtain ⟨line, -, rfl⟩ := exists_of_mem_lineMap hkv
    obtain ⟨line', -, rfl⟩ := exists_of_mem_lineMap hkv'
    simp only [lineField, fold_canonicalHeaderKey_eq] at hab
    exact (canonicalHeaderKey_eq_iff _ _).mpr hab
  have hfold := hkeys.map_on hinj
  rwa [List.map_map] at hfold

/-- The last line with a canonical key is in the map. -/
theorem mem_lineMap {before after : List Bytes} {line : Bytes}
    (hafter : ∀ l ∈ after, canonicalHeaderKey (lineKey l) ≠ canonicalHeaderKey (lineKey line)) :
    lineField line ∈ lineMap (before ++ line :: after) := by
  have hkeys : ∀ e ∈ after.map lineField, e.1 ≠ (lineField line).1 := by
    intro e he
    obtain ⟨l, hl, rfl⟩ := List.mem_map.mp he
    exact hafter l hl
  rw [lineMap, List.map_append, List.map_cons]
  exact mem_of_find (find_foldl_set hkeys _ _)

/-- **The lookup, for any lines with keys of ASCII characters.** -/
theorem headerGet_lines (hascii : ∀ line ∈ lines, IsAscii (lineKey line)) {seen : Headers}
    (hseen : seen.Perm (lineMap lines)) {key : Bytes} (hkey : IsAscii key) (htrim : trimSpace key = key) :
    headerGet seen key = lastValue lines key := by
  have hseen_ascii : ∀ kv ∈ seen, IsAscii kv.1 := by
    intro kv hkv
    obtain ⟨line, hline, rfl⟩ := exists_of_mem_lineMap (hseen.mem_iff.mp hkv)
    exact isAscii_canonicalHeaderKey (hascii line hline)
  have hdistinct : Distinct seen := (hseen.map _).nodup_iff.mpr (distinct_lineMap lines)
  rw [lastValue]
  cases hfind : lines.reverse.find? fun line => fold (trimSpace (lineKey line)) = fold key with
  | none =>
    refine headerGet_eq_nil hseen_ascii hkey htrim fun kv hkv heq => ?_
    obtain ⟨line, hline, rfl⟩ := exists_of_mem_lineMap (hseen.mem_iff.mp hkv)
    have hno := List.find?_eq_none.mp hfind line (List.mem_reverse.mpr hline)
    rw [lineField, fold_canonicalHeaderKey_eq] at heq
    exact hno (by simp [heq])
  | some line =>
    obtain ⟨hline, after, before, hlines, hafter⟩ := List.find?_eq_some_iff_append.mp hfind
    have hline : fold (trimSpace (lineKey line)) = fold key := by simpa using hline
    have hlines : lines = before.reverse ++ line :: after.reverse := by
      rw [← List.reverse_reverse lines, hlines]
      simp
    have hmem : lineField line ∈ lineMap lines := by
      rw [hlines]
      refine mem_lineMap fun l hl heq => ?_
      have hno := hafter l (List.mem_reverse.mp hl)
      rw [canonicalHeaderKey_eq_iff, hline] at heq
      simp [heq] at hno
    refine headerGet_eq hdistinct hseen_ascii (hseen.mem_iff.mpr hmem) (trimSpace_canonicalHeaderKey _) ?_
    exact hline.symm.trans (fold_canonicalHeaderKey_eq _).symm

end

/-! ### Messages -/

/-- The text is accepted, as a response or as a request, with these headers. -/
def ReadAs (buffer : Bytes) (headers : Headers) : Prop :=
  (∃ response, parseResponse buffer = .ok response ∧ response.headers = headers) ∨
    ∃ parse request, parseRequest parse buffer = .ok request ∧ request.headers = headers

/-- The headers of a message that is accepted are those of its lines. -/
theorem ReadAs.eq_lineMap {buffer : Bytes} {headers : Headers} (h : ReadAs buffer headers) :
    headers = lineMap (messageLines buffer) := by
  rcases h with ⟨response, h, rfl⟩ | ⟨parse, request, h, rfl⟩
  · obtain ⟨status, headers, rest, -, hloop, rfl⟩ := parseResponse_ok h
    exact headerLoop_lines hloop
  · obtain ⟨command, headers, rest, -, hloop, rfl⟩ := parseRequest_ok h
    exact headerLoop_lines hloop

/-- **Header lookup is the lookup of the last line without case**: in every message that is accepted and whose lines
have keys of ASCII characters, for every key of ASCII characters without white space around it, and in every order
of the map. Canonical forms are their own canonical forms, and those of two keys are equal exactly if the keys are
equal up to case and the white space around them. -/
theorem headerGet_lastWins :
    (∀ (buffer : Bytes) (headers : Headers), ReadAs buffer headers →
      (∀ line ∈ messageLines buffer, lineKey line ≠ [] ∧ IsAscii (lineKey line)) →
      ∀ seen : Headers, seen.Perm headers → ∀ key, key ≠ [] → IsAscii key → trimSpace key = key →
        headerGet seen key = lastValue (messageLines buffer) key) ∧
    (∀ s, canonicalHeaderKey (canonicalHeaderKey s) = canonicalHeaderKey s) ∧
    ∀ s t, canonicalHeaderKey s = canonicalHeaderKey t ↔ fold (trimSpace s) = fold (trimSpace t) := by
  refine ⟨fun buffer headers h hlines seen hseen key _ hkey htrim => ?_, canonicalHeaderKey_idem,
    canonicalHeaderKey_eq_iff⟩
  rw [h.eq_lineMap] at hseen
  exact headerGet_lines (fun line hline => (hlines line hline).2) hseen hkey htrim

/-- A response with two lines for one key, and with lines that end differently. -/
def twice : Bytes := ascii "RTSP/1.0 200 OK\r\ncseq: 1\r\nPublic: PLAY\nCSEQ : 2\r\n\r\n"

/-- The later of the two is found, in another order of the map. -/
theorem headerGet_lastWins_twice :
    headerGet [(ascii "Public", ascii "PLAY"), (ascii "Cseq", ascii "2")] (ascii "CSeq") =
      lastValue (messageLines twice) (ascii "CSeq") ∧ lastValue (messageLines twice) (ascii "CSeq") = ascii "2" := by
  have hread : ReadAs twice [(ascii "Cseq", ascii "2"), (ascii "Public", ascii "PLAY")] :=
    .inl ⟨⟨ascii "OK", ascii "RTSP/1.0", 200, _, []⟩, by decide +kernel, rfl⟩
  refine ⟨headerGet_lastWins.1 twice _ hread (by decide +kernel) _ (List.Perm.swap _ _ _) _ ?_ ?_ ?_,
    by decide +kernel⟩
  all_goals decide +kernel

end RtspProxy.Wire
