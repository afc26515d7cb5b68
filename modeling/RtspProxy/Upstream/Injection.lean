import RtspProxy.Downstream.Client
import RtspProxy.Upstream.Effect
import RtspProxy.Upstream.Session
import RtspProxy.Wire.Body
import RtspProxy.Wire.Text

/-!
# Text from a client in requests to the camera

A client chooses the camera with the URL of its first request: host, path, user name and
password. All of them reach the camera. Host and path go through `url.URL.String`, which escapes
what cannot stand in a URL, and the password is hashed or encoded. The user name has been
percent-decoded by `url.Parse`, and `createAuthenticatorStr` writes it into a Digest header as it
is, so a line end in it ends the header line (`injected_header`).

## The model

`Head.text` is `Request.String`, for the order in which the header map is visited. A request is
`Unsplit` if its only empty line is its end, it is read as the method and the header keys it was
written with, and it has no other header lines. The URLs are texts that `URL.String` returns:
they have no control characters.

## What is proved

* `unsplit_iff` — every request of every run of a remote is unsplit exactly when there is no line
  end in the user name or no password, and the URLs can be read back.
-/

namespace RtspProxy.Upstream

open Theory Wire

/-! ### The text of a request -/

/-- The request line of `Request.String`. -/
def Head.requestLine (h : Head) : Bytes := h.method ++ 32 :: (h.url ++ ascii " RTSP/1.0")

/-- `Request.String`. -/
def Head.text (h : Head) : Bytes := messageText h.requestLine h.headers []

/-- The header lines found in the text of a request, and what is left behind the empty line. -/
def Head.lines (h : Head) : List Bytes × Bytes :=
  let next := (sharedLineSplit h.text).1
  headerLines next.length next

section
variable (parse : Bytes → Option URL)

/-- In whatever order its headers are written, the request has one empty line, at its end; it is
read as its method and the keys of its headers; and there is a header line for each header and no
other. -/
def Head.Unsplit (h : Head) : Prop := ∀ order : Headers, order.Perm h.headers →
  (∀ u v, ({ h with headers := order } : Head).text = u ++ (crlfcrlf ++ v) → v = []) ∧
  (∃ request, parseRequest parse ({ h with headers := order } : Head).text = .ok request ∧ request.method = h.method ∧
    (request.headers.map Prod.fst).Perm (h.headers.map fun kv => canonicalHeaderKey kv.1)) ∧
  ({ h with headers := order } : Head).lines.1.length = h.headers.length ∧
  ({ h with headers := order } : Head).lines.2 = []

/-- The words that `ParseCommand` finds in the URL and the version behind it: the first is a URL. -/
def Accepted (url : Bytes) : Prop :=
  let words := nextWord (url ++ ascii " RTSP/1.0")
  words.1 ≠ [] ∧ (nextWord words.2).1 ≠ [] ∧ (parse (targetURL words.1)).isSome = true

/-- A method: a word of ASCII characters. -/
structure IsMethod (method : Bytes) : Prop where
  /-- It is not empty. -/
  ne : method ≠ []
  /-- It is of ASCII characters. -/
  low : IsAscii method
  /-- It has no blanks. -/
  word : ∀ c ∈ method, notBlank c = true
  /-- It has no line end. -/
  line : OneLine method

/-- A request that can be read back. -/
structure Head.Sendable (h : Head) : Prop where
  /-- Its method is a word. -/
  method : IsMethod h.method
  /-- Its URL is of one line. -/
  url : OneLine h.url
  /-- Its headers are of one line each. -/
  headers : ∀ kv ∈ h.headers, Wire.Sendable kv
  /-- Their keys differ. -/
  keys : (h.headers.map fun kv => canonicalHeaderKey kv.1).Nodup

variable {parse}

theorem Head.Sendable.oneLine {h : Head} (hs : h.Sendable) : OneLine h.requestLine := by
  rw [Head.requestLine, oneLine_append, ← List.singleton_append, oneLine_append, oneLine_append]
  exact ⟨hs.method.line, by decide, hs.url, by decide⟩

/-- The request line is read as it was written. -/
theorem parseCommand_requestLine {h : Head} (hm : IsMethod h.method) (hacc : Accepted parse h.url) :
    ∃ request, parseCommand parse h.requestLine = .ok request ∧ request.method = h.method := by
  obtain ⟨hurl, hversion, hparse⟩ := hacc
  obtain ⟨url, hurl'⟩ := Option.isSome_iff_exists.mp hparse
  simp [parseCommand, Head.requestLine, nextWord_append hm.low hm.word, hm.ne, hurl, hversion, hurl']

/-- A request line that can be read has a URL that can be read. -/
theorem accepted_of_parseCommand {h : Head} (hm : IsMethod h.method) {request : Wire.Request}
    (hp : parseCommand parse h.requestLine = .ok request) : Accepted parse h.url := by
  simp only [parseCommand, Head.requestLine, nextWord_append hm.low hm.word] at hp
  split_ifs at hp with hne
  simp only [not_or] at hne
  refine ⟨hne.2.1, hne.2.2, ?_⟩
  split at hp
  · cases hp
  · simp_all

/-- Header lines of one line each are found as they were written. -/
theorem headerLines_headerText {headers : Headers} (h : ∀ kv ∈ headers, OneLine (headerLine kv)) (k : ℕ)
    (rest : Bytes) : headerLines (headers.length + k) (headerText headers ++ rest) =
      (headers.map headerLine ++ (headerLines k rest).1, (headerLines k rest).2) := by
  induction headers with
  | nil => simp [headerText]
  | cons kv headers ih =>
    obtain ⟨hkv, hrest⟩ := List.forall_mem_cons.mp h
    have htext : headerText (kv :: headers) ++ rest = headerLine kv ++ (crlf ++ (headerText headers ++ rest)) := by
      simp [headerText]
    have hlen : (kv :: headers).length + k = headers.length + k + 1 := by
      rw [List.length_cons]
      omega
    rw [htext, hlen, headerLines, sharedLineSplit_crlf hkv, if_neg (headerLine_ne_nil kv), ih hrest]
    simp

/-- The header lines of a request whose request line is of one line. -/
theorem Head.lines_eq {h : Head} (hline : OneLine h.requestLine) :
    h.lines = headerLines (headerText h.headers ++ crlf).length (headerText h.headers ++ crlf) := by
  simp [Head.lines, Head.text, messageText, sharedLineSplit_crlf hline]

/-- **A request whose headers are of one line each is not split.** -/
theorem Head.Sendable.unsplit {h : Head} (hs : h.Sendable) (hacc : Accepted parse h.url) : h.Unsplit parse := by
  intro order hperm
  have hs' : ({ h with headers := order } : Head).Sendable :=
    ⟨hs.method, hs.url, fun kv hkv => hs.headers kv (hperm.mem_iff.mp hkv), (hperm.map _).nodup_iff.mpr hs.keys⟩
  have hlen := length_headerText order
  refine ⟨fun u v heq => ?_, ?_, ?_⟩
  · refine messageText_blank hs'.oneLine ?_ hs'.headers heq
    simp [Head.requestLine]
  · obtain ⟨request, hcommand, hmethod⟩ := parseCommand_requestLine hs'.method hacc
    refine ⟨{ request with headers := order.map received }, ?_, hmethod, ?_⟩
    · rw [parseRequest, Head.text, messageText, sharedLineSplit_crlf hs'.oneLine]
      simp only [hcommand]
      rw [headerLoop_headerText hs'.headers hs'.keys (by simp [crlf]; omega)]
    · rw [List.map_map]
      exact hperm.map _
  · obtain ⟨k, hk⟩ : ∃ k, (headerText order ++ crlf).length = order.length + (k + 1) := by
      refine ⟨(headerText order).length - order.length + 1, ?_⟩
      simp only [List.length_append, crlf, List.length_cons, List.length_nil]
      omega
    have hlines : ({ h with headers := order } : Head).lines = (order.map headerLine, []) := by
      rw [Head.lines_eq hs'.oneLine]
      show headerLines (headerText order ++ crlf).length (headerText order ++ crlf) = _
      rw [hk, headerLines_headerText fun kv hkv => (hs'.headers kv hkv).oneLine]
      simp [headerLines, sharedLineSplit, crlf]
    rw [hlines]
    exact ⟨by simpa using hperm.length_eq, rfl⟩

/-! ### A line end in a header -/

/-- A text with a line end in it and more behind that: the first line is split off, and something
is left. -/
theorem sharedLineSplit_broken {line : Bytes} (h : ¬ OneLine line) (hlast : line.getLast? = some 34) (rest : Bytes) :
    ∃ left, left ≠ [] ∧ (sharedLineSplit (line ++ rest)).1 = left ++ rest := by
  induction line with
  | nil => simp at hlast
  | cons c line ih =>
    by_cases hc : c = 13 ∨ c = 10
    · have hne : line ≠ [] := by
        rintro rfl
        simp only [List.getLast?_singleton, Option.some.injEq] at hlast
        subst hlast
        revert hc
        decide
      obtain ⟨d, line, rfl⟩ := List.exists_cons_of_ne_nil hne
      by_cases hcrlf : c = 13 ∧ d = 10
      · obtain ⟨rfl, rfl⟩ := hcrlf
        refine ⟨line, ?_, rfl⟩
        rintro rfl
        simp at hlast
      · refine ⟨d :: line, by simp, ?_⟩
        rw [List.cons_append, List.cons_append, sharedLineSplit, if_pos hc]
        rintro _ rfl heq
        exact hcrlf ⟨rfl, (List.cons.inj heq).1⟩
    · have hline : ¬ OneLine line := by
        intro hone
        exact h (List.forall_mem_cons.mpr ⟨not_or.mp hc, hone⟩)
      have hne : line ≠ [] := by
        rintro rfl
        exact hline (by simp [OneLine])
      obtain ⟨left, hleft, heq⟩ := ih hline (by rwa [List.getLast?_cons_of_ne_nil hne] at hlast)
      refine ⟨left, hleft, ?_⟩
      rw [List.cons_append, sharedLineSplit, if_neg hc]
      · exact heq
      · rintro _ rfl
        exact absurd (.inl rfl) hc

theorem length_le_of_blank (s : Bytes) : (sharedLineSplit s).2 = [] → s.length ≤ (sharedLineSplit s).1.length + 2 := by
  fun_cases sharedLineSplit s <;> simp

/-- **A header with a line end in it** is taken for two lines, or hides what follows it. -/
theorem headerLines_broken {line : Bytes} (h : ¬ OneLine line) (hlast : line.getLast? = some 34) (k : ℕ) :
    ¬ ((headerLines (k + 2) (line ++ (crlf ++ crlf))).1.length = 1 ∧
      (headerLines (k + 2) (line ++ (crlf ++ crlf))).2 = []) := by
  obtain ⟨left, hleft, hsplit⟩ := sharedLineSplit_broken h hlast (crlf ++ crlf)
  by_cases hfirst : (sharedLineSplit (line ++ (crlf ++ crlf))).2 = []
  · simp [headerLines, hfirst]
  · rw [headerLines, if_neg hfirst, hsplit, headerLines]
    by_cases hblank : (sharedLineSplit (left ++ (crlf ++ crlf))).2 = []
    · -- the second line is empty: what follows it is left
      rw [if_pos hblank]
      rintro ⟨-, hnil : (sharedLineSplit (left ++ (crlf ++ crlf))).1 = []⟩
      have hlong := length_le_of_blank _ hblank
      have := List.length_pos_iff.mpr hleft
      rw [hnil] at hlong
      simp only [List.length_append, crlf, List.length_cons, List.length_nil] at hlong
      omega
    · simp [hblank]

/-- **A request with such a header is split.** -/
theorem not_unsplit_of_broken {h : Head} {first : Headers} {kv : Bytes × Bytes} (hh : h.headers = first ++ [kv])
    (hline : OneLine h.requestLine) (hfirst : ∀ e ∈ first, Wire.Sendable e) (hvalue : ¬ OneLine kv.2)
    (hlast : kv.2.getLast? = some 34) : ¬ h.Unsplit parse := by
  intro hun
  obtain ⟨-, -, hcount, hrest⟩ := hun h.headers (List.Perm.refl _)
  have hbroken : ¬ OneLine (headerLine kv) := fun hone => hvalue (oneLine_append.mp hone).2
  have htext : headerText h.headers ++ crlf = headerText first ++ (headerLine kv ++ (crlf ++ crlf)) := by
    simp [hh, headerText]
  obtain ⟨k, hk⟩ : ∃ k, (headerText h.headers ++ crlf).length = first.length + (k + 2) := by
    have := length_headerText first
    refine ⟨(headerText first).length - first.length + (headerLine kv).length + 2, ?_⟩
    rw [htext]
    simp only [List.length_append, crlf, List.length_cons, List.length_nil]
    omega
  have hlines : h.lines = (first.map headerLine ++ (headerLines (k + 2) (headerLine kv ++ (crlf ++ crlf))).1,
      (headerLines (k + 2) (headerLine kv ++ (crlf ++ crlf))).2) := by
    rw [Head.lines_eq hline, hk, htext, headerLines_headerText fun e he => (hfirst e he).oneLine]
  have hend : (headerLine kv).getLast? = some 34 := by simp [headerLine, List.getLast?_append, hlast]
  refine headerLines_broken hbroken hend k ⟨?_, ?_⟩
  · rw [show ({ h with headers := h.headers } : Head) = h from rfl, hlines] at hcount
    simp only [hh, List.length_append, List.length_map, List.length_singleton] at hcount
    omega
  · rw [show ({ h with headers := h.headers } : Head) = h from rfl, hlines] at hrest
    exact hrest

end

/-! ### The texts a header is made of -/

/-- A byte that stands between the texts of a header value: a blank, a quote, a comma, or `=`. -/
def isMark (c : UInt8) : Bool := c == 32 || c == 34 || c == 44 || c == 61

/-- A property of texts that a header value has from the texts it is made of. -/
structure Inherited (P : Bytes → Prop) : Prop where
  part : ∀ {s t : Bytes}, s <:+: t → P t → P s
  /-- Two texts with a mark between them have it. -/
  join : ∀ {s t : Bytes} {c : UInt8}, isMark c = true → P s → P t → P (s ++ c :: t)
  word : ∀ {s : Bytes}, (∀ c ∈ s, c ≠ 13 ∧ c ≠ 10 ∧ c ≠ 58) → P s

theorem inherited_oneLine : Inherited OneLine where
  part hst ht := ht.sublist hst.sublist
  join {s t c} hc hs ht := by
    refine oneLine_append.mpr ⟨hs, List.forall_mem_cons.mpr ⟨?_, ht⟩⟩
    constructor <;> rintro rfl <;> revert hc <;> decide
  word h c hc := ⟨(h c hc).1, (h c hc).2.1⟩

theorem itoa_ne {n : ℕ} : ∀ c ∈ itoa n, c ≠ 13 ∧ c ≠ 10 ∧ c ≠ 58 := fun c hc => by
  have := digit_of_mem_itoa hc
  refine ⟨?_, ?_, ?_⟩ <;> grind

theorem hexDigit_ne : ∀ n < 16, hexDigit n ≠ 13 ∧ hexDigit n ≠ 10 ∧ hexDigit n ≠ 58 := by decide

theorem hexString_ne (bs : Bytes) : ∀ c ∈ hexString bs, c ≠ 13 ∧ c ≠ 10 ∧ c ≠ 58 := by
  intro c hc
  obtain ⟨n, hn, rfl⟩ := digit_of_mem_hexString hc
  exact hexDigit_ne n hn

theorem base64Digit_ne : ∀ n < 64, base64Digit n ≠ 13 ∧ base64Digit n ≠ 10 ∧ base64Digit n ≠ 58 := by decide

theorem base64_ne (bs : Bytes) : ∀ c ∈ base64 bs, c ≠ 13 ∧ c ≠ 10 ∧ c ≠ 58 := by
  have hone {n : ℕ} (hn : n < 64) {s : Bytes} (hs : ∀ c ∈ s, c ≠ 13 ∧ c ≠ 10 ∧ c ≠ 58) :
      ∀ c ∈ base64Digit n :: s, c ≠ 13 ∧ c ≠ 10 ∧ c ≠ 58 := List.forall_mem_cons.mpr ⟨base64Digit_ne n hn, hs⟩
  fun_induction base64 bs with
  | case1 => simp
  | case2 a =>
    have := a.toNat_lt
    exact hone (by omega) (hone (by omega) (by decide))
  | case3 a b =>
    have := a.toNat_lt
    have := b.toNat_lt
    exact hone (by omega) (hone (by omega) (hone (by omega) (by decide)))
  | case4 a b c s ih =>
    have := a.toNat_lt
    have := b.toNat_lt
    have := c.toNat_lt
    exact hone (by omega) (hone (by omega) (hone (by omega) (hone (by omega) ih)))

theorem suffix_of_matchFold {p s rest : Bytes} (h : matchFold p s = some rest) : rest <:+ s := by
  fun_induction matchFold p s with
  | case1 s => exact Option.some.inj h ▸ List.suffix_rfl
  | case2 p ps c cs _ ih => exact (ih h).trans (List.suffix_cons c cs)
  | case3 p ps c cs _ _ ih => exact ((ih h).trans (List.tail_suffix cs)).trans (List.suffix_cons c cs)
  | case4 => cases h
  | case5 => cases h

/-- What a search finds, it finds in a part of the text. -/
theorem isInfix_search {m : Bytes → Option Bytes} (hm : ∀ s v, m s = some v → v <:+: s) {s v : Bytes}
    (h : search m s = some v) : v <:+: s := by
  induction s with
  | nil => exact hm _ _ h
  | cons c s ih =>
    rw [search] at h
    cases hhere : m (c :: s) with
    | some w => exact hm _ _ (by simpa [hhere] using h)
    | none => exact (ih (by simpa [hhere] using h)).trans (List.suffix_cons c s).isInfix

theorem isInfix_takeWhile {rest s : Bytes} (h : rest <:+ s) (p : UInt8 → Bool) : rest.takeWhile p <:+: s :=
  (List.takeWhile_prefix p).isInfix.trans h.isInfix

theorem isInfix_matchQuoted {name s v : Bytes} (h : matchQuoted name s = some v) : v <:+: s := by
  obtain ⟨rest, hrest, hv⟩ := Option.bind_eq_some_iff.mp h
  obtain ⟨-, ⟨⟩⟩ := Option.ite_none_right_eq_some.mp hv
  exact isInfix_takeWhile (suffix_of_matchFold hrest) _

theorem isInfix_matchUnquoted {name s v : Bytes} (h : matchUnquoted name s = some v) : v <:+: s := by
  obtain ⟨rest, hrest, hv⟩ := Option.bind_eq_some_iff.mp h
  obtain ⟨-, ⟨⟩⟩ := Option.ite_none_left_eq_some.mp hv
  exact isInfix_takeWhile (suffix_of_matchFold hrest) _

theorem isInfix_matchBasic {s v : Bytes} (h : matchBasic s = some v) : v <:+: s := by
  obtain ⟨rest, hrest, hv⟩ := Option.bind_eq_some_iff.mp h
  obtain ⟨w, hw, hblanks⟩ := Option.bind_eq_some_iff.mp hrest
  obtain ⟨realm, hrealm, hne⟩ := Option.bind_eq_some_iff.mp hv
  obtain ⟨-, ⟨⟩⟩ := Option.ite_none_left_eq_some.mp hblanks
  obtain ⟨-, ⟨⟩⟩ := Option.ite_none_left_eq_some.mp hne
  exact (isInfix_matchQuoted hrealm).trans ((List.dropWhile_suffix _).trans (suffix_of_matchFold hw)).isInfix

/-- **A parameter of a challenge is part of the header value.** -/
theorem isInfix_extractParam (name s : Bytes) : extractParam name s <:+: s := by
  unfold extractParam
  split
  case h_1 value hv => exact isInfix_search (fun _ _ => isInfix_matchQuoted) hv
  case h_2 =>
    cases hv : search (matchUnquoted name) s with
    | none => exact List.nil_infix
    | some value => exact isInfix_search (fun _ _ => isInfix_matchUnquoted) hv

/-! ### Digests -/

/-- What a digest has from the camera has the property. -/
structure Digest.Plain (P : Bytes → Prop) (d : Digest) : Prop where
  realm : P d.realm
  nonce : P d.nonce
  qop : P d.qop
  opaqueText : P d.opaqueText
  algorithm : P d.algorithm

section
variable {P : Bytes → Prop} (hP : Inherited P) {d : Digest}
include hP

theorem Inherited.nil : P [] := hP.word (by simp)

theorem Digest.Plain.clearNonce (h : d.Plain P) : d.clearNonce.Plain P := { h with nonce := hP.nil }

theorem inherited_challenge {paramsStr : Bytes} (hp : P paramsStr) :
    P (parseWWWAuthenticate paramsStr).realm ∧ P (parseWWWAuthenticate paramsStr).nonce ∧
    P (parseWWWAuthenticate paramsStr).qop ∧ P (parseWWWAuthenticate paramsStr).opaqueText ∧
    P (parseWWWAuthenticate paramsStr).algorithm := by
  have hparam (name : Bytes) : P (extractParam name paramsStr) := hP.part (isInfix_extractParam name paramsStr) hp
  unfold parseWWWAuthenticate
  split_ifs
  · exact ⟨hP.nil, hP.nil, hP.nil, hP.nil, hP.nil⟩
  · refine ⟨?_, hP.nil, hP.nil, hP.nil, hP.nil⟩
    cases hv : search matchBasic paramsStr with
    | none => exact hP.nil
    | some realm => exact hP.part (isInfix_search (fun _ _ => isInfix_matchBasic) hv) hp
  · refine ⟨hparam _, hparam _, ?_, hparam _, ?_⟩
    · dsimp only [chooseQop]
      split_ifs
      · exact hP.word (by decide)
      · exact hparam _
    · dsimp only
      split_ifs
      · exact hP.word (by decide)
      · exact hparam _

theorem Digest.Plain.handleAuthenticationFailure (h : d.Plain P) {paramsStr : Bytes} (hp : P paramsStr) :
    (d.handleAuthenticationFailure paramsStr).1.Plain P := by
  obtain ⟨hrealm, hnonce, hqop, hopq, halg⟩ := inherited_challenge hP hp
  unfold Digest.handleAuthenticationFailure
  dsimp only
  split_ifs
  · exact h
  · exact ⟨hrealm, hnonce, hqop, hopq, halg⟩
  · exact ⟨hrealm, hP.nil, h.qop, h.opaqueText, h.algorithm⟩
  · exact h

theorem inherited_quotedParam {name : String} (hname : P (ascii name)) {value : Bytes} (hvalue : P value) :
    P (quotedParam name value) := by
  have htext : quotedParam name value = ascii name ++ 61 :: ([] ++ 34 :: (value ++ 34 :: [])) := by simp [quotedParam]
  rw [htext]
  exact hP.join rfl hname (hP.join rfl hP.nil (hP.join rfl hvalue hP.nil))

theorem Inherited.comma {s t : Bytes} (hs : P s) (ht : P t) : P (s ++ ascii ", " ++ t) := by
  have htext : s ++ ascii ", " ++ t = s ++ 44 :: ([] ++ 32 :: t) := by
    rw [show ascii ", " = [44, 32] by decide]
    simp
  rw [htext]
  exact hP.join rfl hs (hP.join rfl hP.nil ht)

theorem Digest.Plain.digestHeader (h : d.Plain P) (huser : P d.username) {url response ncStr cnonce : Bytes}
    (hurl : P url) (hresponse : P response) (hnc : P ncStr) (hcnonce : P cnonce) :
    P (d.digestHeader url response ncStr cnonce) := by
  have hq {name : String} (hname : ∀ c ∈ ascii name, c ≠ 13 ∧ c ≠ 10 ∧ c ≠ 58) {value : Bytes} (hvalue : P value) :=
    inherited_quotedParam hP (hP.word hname) hvalue
  have hqop : ascii ", qop=" ++ d.qop ++ ascii ", nc=" ++ ncStr ++ ascii ", " ++ quotedParam "cnonce" cnonce =
      ascii ", " ++ (ascii "qop" ++ 61 :: d.qop ++ ascii ", " ++ (ascii "nc" ++ 61 :: ncStr) ++ ascii ", " ++
        quotedParam "cnonce" cnonce) := by
    rw [show ascii ", qop=" = ascii ", " ++ ascii "qop" ++ [61] by decide,
      show ascii ", nc=" = ascii ", " ++ ascii "nc" ++ [61] by decide]
    simp
  have halg : ascii ", algorithm=" ++ d.algorithm = ascii ", " ++ (ascii "algorithm" ++ 61 :: d.algorithm) := by
    rw [show ascii ", algorithm=" = ascii ", " ++ ascii "algorithm" ++ [61] by decide]
    simp
  have hif {p : Prop} [Decidable p] {s t : Bytes} (hs : P s) (ht : P t) :
      P (s ++ if p then ascii ", " ++ t else []) := by
    split_ifs
    · rw [← List.append_assoc]
      exact hP.comma hs ht
    · rwa [List.append_nil]
  rw [Digest.digestHeader, hqop, halg]
  refine hif (hif (hif (hP.comma (hP.comma (hP.comma (hP.comma ?_ (hq (by decide) h.realm)) (hq (by decide) h.nonce))
    (hq (by decide) hurl)) (hq (by decide) hresponse)) ?_) (hq (by decide) h.opaqueText)) ?_
  · rw [show ascii "Digest " = ascii "Digest" ++ [32] by decide, List.append_assoc, List.singleton_append]
    exact hP.join rfl (hP.word (by decide)) (hq (by decide) huser)
  · refine hP.comma (hP.comma (hP.join rfl (hP.word (by decide)) h.qop) ?_) (hq (by decide) hcnonce)
    exact hP.join rfl (hP.word (by decide)) hnc
  · exact hP.join rfl (hP.word (by decide)) h.algorithm

/-- **An `Authorization` value has the property** if the user name and the URL have it. -/
theorem Digest.Plain.createAuthenticatorStr (h : d.Plain P) (huser : d.hasCredentials = true → P d.username)
    (method : Bytes) {url cnonce : Bytes} (hurl : P url) (hcnonce : P cnonce) :
    ∀ value ∈ (d.createAuthenticatorStr method url cnonce).2, P value := by
  unfold Digest.createAuthenticatorStr
  split_ifs with hn hd
  · simp
  · have huser := huser (by simpa using (not_or.mp hn).2)
    simp only [Option.mem_some_iff, forall_eq']
    unfold Digest.computeResponse
    dsimp only
    split_ifs
    · exact Digest.Plain.digestHeader hP { h with } huser hurl (hP.word (hexString_ne _)) (hP.word (hexString_ne _))
        hcnonce
    · exact h.digestHeader hP huser hurl (hP.word (hexString_ne _)) hP.nil hP.nil
  · simp only [Option.mem_some_iff, forall_eq', Digest.basicHeader]
    rw [show ascii "Basic " = ascii "Basic" ++ [32] by decide, List.append_assoc, List.singleton_append]
    exact hP.join rfl (hP.word (by decide)) (hP.word (base64_ne _))

end

/-! ### What the proxy puts into a request -/

/-- A session id that a response has given. -/
def IsSession (id : Bytes) : Prop := ∃ text response, newResponseFromBuffer text = .ok response ∧ id = sessionID response

/-- What `randomCnonce` returns. -/
def IsCnonce (cnonce : Bytes) : Prop := ∃ random, random.length = 8 ∧ cnonce = hexString random

/-- The values of the headers as the callers of `NewRequest` set them. -/
def RequestKind.Supplied : RequestKind → Prop
  | .options | .describe => True
  | .setup transport => ∃ i, transport = setupTransport i
  | .play session | .getParameter session | .teardown session => IsSession session

section
variable (urls : Set Bytes)

/-- The requests are made for these URLs, with session ids that the camera has given, and the
client nonces are random. -/
def Supplied : Act → Prop
  | .call kind url => url ∈ urls ∧ kind.Supplied
  | .teardown session url o => url ∈ urls ∧ IsSession session ∧ IsCnonce o.cnonce
  | .caller _ (.sent o) | .reader o => IsCnonce o.cnonce
  | _ => True

/-- The keys of the headers that the proxy sends. -/
def upstreamKeys : List Bytes :=
  [ascii "CSeq", ascii "Authorization", ascii "Transport", ascii "Session", ascii "Range"]

/-- A request that the proxy has made. -/
structure Head.Plain (h : Head) : Prop where
  /-- Its method is a word. -/
  method : IsMethod h.method
  /-- Its URL is one of these. -/
  url : h.url ∈ urls
  /-- It has the keys that the proxy uses. -/
  key : ∀ kv ∈ h.headers, kv.1 ∈ upstreamKeys
  /-- It has each key once. -/
  nodup : (h.headers.map Prod.fst).Nodup
  /-- The values are of one line. -/
  value : ∀ kv ∈ h.headers, OneLine kv.2

/-- What steps with supplied texts keep, when the user name is of one line. -/
structure Plain (s : Remote) : Prop where
  /-- The digest has texts of one line from the camera. -/
  digest : s.digest.Plain OneLine
  /-- The user name is of one line, where it is used. -/
  user : urls.Nonempty → s.digest.hasCredentials = true → OneLine s.digest.username
  /-- The requests are the proxy's. -/
  heads : ∀ h ∈ s.heads, h.Plain urls
  /-- The reader handles what it has read. -/
  reader : s.reader.Ok
  /-- What was written are requests of the proxy. -/
  wire : ∀ w ∈ s.wire, ∃ h, s.heads[w.call]? = some h ∧ (⟨h.method, h.url, w.headers⟩ : Head).Plain urls

variable {urls}

theorem IsSession.oneLine {id : Bytes} (h : IsSession id) : OneLine id := by
  obtain ⟨text, response, hparse, rfl⟩ := h
  refine (oneLine_response hparse (ascii "Session")).sublist ?_
  rw [sessionID]
  cases hparts : (headerGet response.headers (ascii "Session")).splitOn 59 with
  | nil => exact List.nil_sublist _
  | cons id parts =>
    have hjoin : [59].intercalate ((headerGet response.headers (ascii "Session")).splitOn 59) =
        headerGet response.headers (ascii "Session") := List.intercalate_splitOn 59
    rw [← hjoin, hparts]
    cases parts with
    | nil => simp
    | cons _ _ => simp [List.intercalate_cons_cons]

theorem isMethod_newRequest (kind : RequestKind) (url : Bytes) : IsMethod (newRequest kind url).method := by
  have hall : ∀ m ∈ [ascii "OPTIONS", ascii "DESCRIBE", ascii "SETUP", ascii "PLAY", ascii "GET_PARAMETER", ascii "TEARDOWN"],
      m ≠ [] ∧ IsAscii m ∧ (∀ c ∈ m, notBlank c = true) ∧ OneLine m := by decide
  obtain ⟨hne, hlow, hword, hline⟩ := hall (newRequest kind url).method (by cases kind <;> simp [newRequest])
  exact ⟨hne, hlow, hword, hline⟩

theorem Head.Plain.newRequest {kind : RequestKind} {url : Bytes} (hurl : url ∈ urls) (hkind : kind.Supplied) :
    (newRequest kind url).head.Plain urls := by
  refine ⟨isMethod_newRequest kind url, by cases kind <;> exact hurl, ?_, ?_, ?_⟩
  · cases kind <;> simp [Upstream.newRequest, Request.head, upstreamKeys]
  · cases kind <;> simp [Upstream.newRequest, Request.head]
    decide
  · cases kind with
    | options => simp [Upstream.newRequest, Request.head]
    | describe => simp [Upstream.newRequest, Request.head]
    | setup transport =>
      obtain ⟨i, rfl⟩ := hkind
      simp only [Upstream.newRequest, Request.head, List.mem_singleton, forall_eq, setupTransport, oneLine_append]
      exact ⟨⟨⟨by decide, oneLine_itoa _⟩, by decide⟩, oneLine_itoa _⟩
    | play session =>
      simp only [Upstream.newRequest, Request.head, List.forall_mem_cons]
      exact ⟨IsSession.oneLine hkind, by decide, by simp⟩
    | getParameter session =>
      simp only [Upstream.newRequest, Request.head, List.mem_singleton, forall_eq]
      exact IsSession.oneLine hkind
    | teardown session =>
      simp only [Upstream.newRequest, Request.head, List.mem_singleton, forall_eq]
      exact IsSession.oneLine hkind

theorem Head.Plain.set {h : Head} (hp : h.Plain urls) {key value : Bytes} (hkey : key ∈ upstreamKeys)
    (hvalue : OneLine value) : ({ h with headers := h.headers.set key value } : Head).Plain urls := by
  refine ⟨hp.method, hp.url, fun kv hkv => ?_, nodup_keys_set hp.nodup key value, fun kv hkv => ?_⟩
  · rcases mem_of_mem_set hkv with hkv | rfl
    · exact hp.key kv hkv
    · exact hkey
  · rcases mem_of_mem_set hkv with hkv | rfl
    · exact hp.value kv hkv
    · exact hvalue

/-- The headers that a request gets when it is written. -/
theorem Head.Plain.prepare {r : Request} (hp : r.head.Plain urls) (cseq : ℕ) {auth : Option Bytes}
    (hauth : ∀ value ∈ auth, OneLine value) : (⟨r.method, r.url, r.prepare cseq auth⟩ : Head).Plain urls := by
  have hcseq := hp.set (show ascii "CSeq" ∈ upstreamKeys by decide) (oneLine_itoa cseq)
  cases auth with
  | none => exact hcseq
  | some value => exact hcseq.set (by decide) (hauth value rfl)

theorem Head.Plain.sendable (hurls : ∀ url ∈ urls, OneLine url) {h : Head} (hp : h.Plain urls) : h.Sendable := by
  have hkeys : ∀ key ∈ upstreamKeys, 58 ∉ key ∧ OneLine key := by decide
  have hinj : ∀ key ∈ upstreamKeys, ∀ key' ∈ upstreamKeys, canonicalHeaderKey key = canonicalHeaderKey key' → key = key' := by
    decide
  refine ⟨hp.method, hurls _ hp.url, fun kv hkv => ?_, ?_⟩
  · obtain ⟨hcolon, hline⟩ := hkeys kv.1 (hp.key kv hkv)
    exact ⟨hcolon, hline, hp.value kv hkv⟩
  · have hmap : (h.headers.map fun kv => canonicalHeaderKey kv.1) = (h.headers.map Prod.fst).map canonicalHeaderKey := by
      rw [List.map_map]
      rfl
    rw [hmap]
    refine List.Nodup.map_on (fun k hk k' hk' => ?_) hp.nodup
    obtain ⟨kv, hkv, rfl⟩ := List.mem_map.mp hk
    obtain ⟨kv', hkv', rfl⟩ := List.mem_map.mp hk'
    exact hinj _ (hp.key kv hkv) _ (hp.key kv' hkv')

theorem plain_newRemote {username password : Bytes} (h : urls.Nonempty → password = [] ∨ OneLine username) :
    Plain urls (newRemote username password) := by
  have hfrom : (newRemote username password).digest.Plain OneLine := by
    unfold newRemote
    dsimp only
    split_ifs <;> exact ⟨oneLine_nil, oneLine_nil, oneLine_nil, oneLine_nil, oneLine_nil⟩
  have huser : urls.Nonempty → (newRemote username password).digest.hasCredentials = true →
      OneLine (newRemote username password).digest.username := by
    unfold newRemote
    dsimp only
    split_ifs
    · exact fun _ _ => oneLine_nil
    · intro hurls hcred
      refine (h hurls).resolve_left ?_
      rintro rfl
      simp [Digest.hasCredentials] at hcred
  exact ⟨hfrom, huser, by simp [Remote.heads, newRemote], trivial, by simp [newRemote]⟩

/-- A challenge does not change the user name and the password. -/
theorem handleAuthenticationFailure_user (d : Digest) (paramsStr : Bytes) :
    (d.handleAuthenticationFailure paramsStr).1.username = d.username ∧
      (d.handleAuthenticationFailure paramsStr).1.hasCredentials = d.hasCredentials := by
  unfold Digest.handleAuthenticationFailure
  dsimp only
  split_ifs <;> exact ⟨rfl, rfl⟩

/-- The requests an action makes are the proxy's. -/
theorem Head.Plain.makes {a : Act} (ha : Supplied urls a) : ∀ h ∈ a.makes, h.Plain urls := by
  cases a with
  | call kind url =>
    rintro h ⟨⟩
    exact .newRequest ha.1 ha.2
  | teardown session url o =>
    rintro h ⟨⟩
    exact .newRequest ha.1 ha.2.1
  | _ => simp [Act.makes]

theorem cnonce_of_supplied {a : Act} (ha : Supplied urls a) {o : SendInput} (ho : a.input = some o) :
    OneLine o.cnonce := by
  have hc : IsCnonce o.cnonce := by
    cases a with
    | teardown =>
      cases ho
      exact ha.2.2
    | reader =>
      cases ho
      exact ha
    | caller i o =>
      cases o <;> cases ho
      exact ha
    | _ => cases ho
  obtain ⟨random, -, hr⟩ := hc
  rw [hr]
  exact inherited_oneLine.word (hexString_ne random)

/-- **One step keeps the texts of one line.** -/
theorem Plain.step {s t : Remote} {a : Act} (h : Plain urls s) (hurls : ∀ url ∈ urls, OneLine url)
    (ha : Supplied urls a) (hs : s.step a = some t) : Plain urls t := by
  have hall : ∀ e ∈ s.heads ++ a.makes.toList, e.Plain urls := by
    intro e he
    rcases List.mem_append.mp he with he | he
    · exact h.heads e he
    · exact Head.Plain.makes ha e (by simpa using he)
  have hreader := readerOk_step h.reader hs
  cases change_of_step hs with
  | plain hd hh hw =>
    refine ⟨?_, ?_, ?_, hreader, ?_⟩
    · rcases hd with hd | hd <;> rw [hd]
      · exact h.digest
      · exact h.digest.clearNonce inherited_oneLine
    · rcases hd with hd | hd <;> rw [hd] <;> exact h.user
    · rw [hh]
      exact hall
    · rw [hw, hh]
      intro w hmem
      obtain ⟨e, he, hp⟩ := h.wire w hmem
      exact ⟨e, getElem?_append_of_some he, hp⟩
  | auth o ha recv response el call paramsStr hr hd hh hw =>
    obtain ⟨huser, hcred⟩ := handleAuthenticationFailure_user s.digest paramsStr
    refine ⟨?_, ?_, ?_, hreader, ?_⟩
    · rw [hd]
      refine h.digest.handleAuthenticationFailure inherited_oneLine ?_
      have hok := h.reader
      rw [hr] at hok
      rw [hok.2 _ rfl]
      exact oneLine_response hok.1 _
    · rw [hd, huser, hcred]
      exact h.user
    · rw [hh]
      exact h.heads
    · rw [hw, hh]
      exact h.wire
  | write i request o conn cseq auth hi hsends ho hauth hd hh hw =>
    have hrequest : request.head.Plain urls := hall _ (List.mem_of_getElem? hi)
    have hprepared : (⟨request.method, request.url, request.prepare cseq auth.2⟩ : Head).Plain urls := by
      refine hrequest.prepare cseq ?_
      rw [hauth]
      exact h.digest.createAuthenticatorStr inherited_oneLine (h.user ⟨_, hrequest.url⟩) _ (hurls _ hrequest.url)
        (cnonce_of_supplied ha ho)
    obtain ⟨nc, hnc⟩ := createAuthenticatorStr_digest s.digest request.method request.url o.cnonce
    rw [← hauth] at hnc
    refine ⟨?_, ?_, ?_, hreader, ?_⟩
    · have hd₁ : auth.1.Plain OneLine := by
        rw [hnc]
        exact { h.digest with }
      rw [hd]
      split_ifs
      · exact hd₁
      · exact hd₁.clearNonce inherited_oneLine
    · rw [hd, hnc]
      split_ifs <;> exact h.user
    · rw [hh]
      intro e he
      rcases List.mem_or_eq_of_mem_set he with he | rfl
      · exact hall e he
      · exact hprepared
    · rw [hw, hh]
      have hlt := (List.getElem?_eq_some_iff.mp hi).1
      intro w hmem
      rcases List.mem_append.mp hmem with hmem | hmem
      · obtain ⟨e, he, hp⟩ := h.wire w hmem
        have he' := getElem?_append_of_some (r := a.makes.toList) he
        by_cases hij : i = w.call
        · -- its request is written once more
          subst hij
          obtain rfl : e = request.head := Option.some.inj (he'.symm.trans hi)
          exact ⟨⟨request.method, request.url, request.prepare cseq auth.2⟩, List.getElem?_set_self hlt, hp⟩
        · exact ⟨e, by rw [List.getElem?_set_ne hij, he'], hp⟩
      · obtain rfl := List.mem_singleton.mp hmem
        exact ⟨_, List.getElem?_set_self hlt, hprepared⟩

/-! ### The requests of a run -/

/-- Every request written is unsplit. -/
def AllUnsplit (parse : Bytes → Option URL) (s : Remote) : Prop :=
  ∀ w ∈ s.wire, ∃ c, s.calls[w.call]? = some c ∧ (⟨c.request.method, c.request.url, w.headers⟩ : Head).Unsplit parse

/-- Nothing fails; the client nonce is of eight zero bytes. -/
def calm : SendInput := ⟨true, true, hexString (List.replicate 8 0)⟩

theorem calm_dialOk : calm.dialOk = true := rfl

theorem calm_writeOk : calm.writeOk = true := rfl

theorem calm_cnonce : IsCnonce calm.cnonce := ⟨List.replicate 8 0, rfl, rfl⟩

/-- An OPTIONS request is sent. -/
def asked (url : Bytes) : List Act := [.call .options url, .caller 0 .next, .caller 0 .next, .caller 0 (.sent calm)]

/-- The state in which the request has been written. -/
def asking (d : Digest) (url : Bytes) : Remote :=
  { newRemote [] [] with
    connected := true, conn := 1, currentCSeq := 1, requests := [(0, 0)], nextEl := 1, digest := d
    calls := [⟨⟨ascii "OPTIONS", url, [(ascii "CSeq", ascii "1")], 0, some 0⟩, 0, .wait⟩]
    chans := [⟨none, false⟩], wire := [⟨0, 1, 1, [(ascii "CSeq", ascii "1")], true, none⟩] }

theorem newRemote_realm (username password : Bytes) : (newRemote username password).digest.realm = [] := by
  unfold newRemote
  dsimp only
  split_ifs <;> rfl

theorem exec_asked {d : Digest} (hd : d.realm = []) (url : Bytes) :
    exec Remote.step { newRemote [] [] with digest := d } (asked url) = some (asking d url) := by
  have hauth : d.createAuthenticatorStr (ascii "OPTIONS") url calm.cnonce = (d, none) := by
    simp [Digest.createAuthenticatorStr, hd]
  have hsend : ({ newRemote [] [] with
      requests := [(0, 0)], nextEl := 1, digest := d
      calls := [⟨⟨ascii "OPTIONS", url, [], 0, some 0⟩, 0, .send⟩], chans := [⟨none, false⟩] } : Remote).stepCall 0
        (.sent calm) = some (asking d url) := by
    have hheaders : Headers.set [] (ascii "CSeq") (itoa 1) = [(ascii "CSeq", ascii "1")] := rfl
    simp [Remote.stepCall, Remote.sendRequest, Remote.dialLocked, Remote.dialed, Remote.write, Remote.wrote,
      Remote.setRequest, Remote.callAt, Request.prepare, hauth, newRemote, asking, calm_dialOk, calm_writeOk, hheaders]
  exact hsend

/-- The request is challenged, and written again with an `Authorization`. -/
theorem exec_challenged {d d' : Digest} {url recv value auth : Bytes} {response : Response}
    (hparse : newResponseFromBuffer recv = .ok response) (hcode : response.code = 401)
    (hvalue : headerGet response.headers (ascii "WWW-Authenticate") = value) (hne : value ≠ [])
    (hcred : d.hasCredentials = true) (htaken : d.handleAuthenticationFailure value = (d', true))
    (hauth : (d'.createAuthenticatorStr (ascii "OPTIONS") url calm.cnonce).2 = some auth) :
    ∃ s, exec Remote.step (asking d url) [.attach, .recv recv, .reader calm, .reader calm, .reader calm, .reader calm] =
        some s ∧
      (∃ c, s.calls[0]? = some c ∧ c.request.method = ascii "OPTIONS" ∧ c.request.url = url) ∧
      ∃ w ∈ s.wire, w.call = 0 ∧ w.headers = [(ascii "CSeq", ascii "2"), (ascii "Authorization", auth)] := by
  have hheaders : (Headers.set [(ascii "CSeq", ascii "1")] (ascii "CSeq") (itoa 2)).set (ascii "Authorization") auth =
      [(ascii "CSeq", ascii "2"), (ascii "Authorization", auth)] := rfl
  simp [exec, Remote.step, asking, newRemote, Remote.receive, hparse, Remote.stageAt, Remote.stepReader, hcode, hvalue,
    hne, hcred, htaken, Remote.setRequest, Remote.sendRequest, Remote.write, calm_writeOk, Remote.wrote, Request.prepare,
    hauth, hheaders]

/-- A camera asks for Digest. -/
def digestChallenge : Bytes :=
  ascii "RTSP/1.0 401 Unauthorized\r\nWWW-Authenticate: Digest realm=\"cam\", nonce=\"1a2b\"\r\n\r\n"

theorem parse_digestChallenge : ∃ response, newResponseFromBuffer digestChallenge = .ok response ∧ response.code = 401 ∧
    headerGet response.headers (ascii "WWW-Authenticate") = ascii "Digest realm=\"cam\", nonce=\"1a2b\"" :=
  ⟨⟨ascii "Unauthorized", ascii "RTSP/1.0", 401,
    [(ascii "Www-Authenticate", ascii "Digest realm=\"cam\", nonce=\"1a2b\"")], []⟩, by decide +kernel, rfl, by decide +kernel⟩

theorem taken_digestChallenge {d : Digest} (hcred : d.hasCredentials = true) :
    d.handleAuthenticationFailure (ascii "Digest realm=\"cam\", nonce=\"1a2b\"") =
      ({ d with
        realm := ascii "cam", nonce := ascii "1a2b", qop := [], opaqueText := [], algorithm := ascii "MD5", nc := 0 }, true) := by
  have hparse : parseWWWAuthenticate (ascii "Digest realm=\"cam\", nonce=\"1a2b\"") =
      ⟨ascii "cam", ascii "1a2b", [], [], ascii "MD5", true⟩ := by decide +kernel
  rw [Digest.handleAuthenticationFailure, if_neg (by simp [hcred, ascii])]
  simp [hparse]

/-- The answer to such a challenge: the user name stands in it, and it ends with a quote. -/
theorem answer_digestChallenge {d : Digest} (hrealm : d.realm ≠ []) (hcred : d.hasCredentials = true) (hnonce : d.nonce ≠ [])
    (hqop : d.qop = []) (hopq : d.opaqueText = []) (halg : d.algorithm = ascii "MD5") (method url cnonce : Bytes) :
    ∃ auth, (d.createAuthenticatorStr method url cnonce).2 = some auth ∧ d.username.Sublist auth ∧
      auth.getLast? = some 34 := by
  have hnot : equalFold d.qop (ascii "auth") = false := by
    rw [hqop]
    decide
  have hmd5 : equalFold d.algorithm (ascii "MD5") = true := by
    rw [halg]
    decide
  have hheader (response : Bytes) : d.username.Sublist (d.digestHeader url response [] []) ∧
      (d.digestHeader url response [] []).getLast? = some 34 := by
    constructor
    · simp only [Digest.digestHeader, quotedParam, List.append_assoc]
      exact List.sublist_append_of_sublist_right (List.sublist_append_of_sublist_right
        (List.sublist_append_of_sublist_right (List.sublist_append_left ..)))
    · simp only [Digest.digestHeader, hqop, hopq, hmd5, ne_eq, not_true_eq_false, if_false, Bool.true_eq_false,
        and_false, List.append_nil]
      rw [List.getLast?_append, quotedParam, List.getLast?_concat]
      rfl
  refine ⟨d.digestHeader url (d.computeResponse method url cnonce).2.1 [] [], ?_, (hheader _).1, (hheader _).2⟩
  rw [Digest.createAuthenticatorStr, if_neg (by simp [hrealm, hcred]), if_pos hnonce]
  simp [Digest.computeResponse, hnot]

theorem accepted_of_unsplit {parse : Bytes → Option URL} {h : Head} (hm : IsMethod h.method)
    (hline : OneLine h.requestLine) (hun : h.Unsplit parse) : Accepted parse h.url := by
  obtain ⟨-, ⟨request, hparse, -, -⟩, -⟩ := hun h.headers (List.Perm.refl _)
  obtain ⟨command, headers, rest, hcommand, -, -⟩ := parseRequest_ok hparse
  rw [Head.text, messageText, sharedLineSplit_crlf hline] at hcommand
  exact accepted_of_parseCommand hm hcommand

section
variable {parse : Bytes → Option URL} {urls : Set Bytes} {username password url : Bytes}

theorem asked_supplied (hurl : url ∈ urls) : ∀ a ∈ asked url, Supplied urls a := by
  simp only [asked, List.forall_mem_cons]
  exact ⟨⟨hurl, trivial⟩, trivial, trivial, calm_cnonce, by simp⟩

theorem exec_newRemote_asked (username password url : Bytes) :
    exec Remote.step (newRemote username password) (asked url) = some (asking (newRemote username password).digest url) :=
  exec_asked (newRemote_realm username password) url

theorem oneLine_requestLine (hurl : OneLine url) (headers : Headers) :
    OneLine (⟨ascii "OPTIONS", url, headers⟩ : Head).requestLine := by
  have hmethod : OneLine (ascii "OPTIONS") := by decide
  rw [Head.requestLine, oneLine_append, ← List.singleton_append, oneLine_append, oneLine_append]
  exact ⟨hmethod, by decide, hurl, by decide⟩

/-- If no request is split, the camera's challenge must not bring a line end into one. -/
theorem oneLine_of_allUnsplit (hurl : url ∈ urls) (hline : OneLine url)
    (hall : ∀ acts s, (∀ a ∈ acts, Supplied urls a) → exec Remote.step (newRemote username password) acts = some s →
      AllUnsplit parse s) : password = [] ∨ OneLine username := by
  by_contra hbad
  obtain ⟨hpassword, huser⟩ := not_or.mp hbad
  have hne : username ≠ [] := by
    rintro rfl
    exact huser oneLine_nil
  have hd : (newRemote username password).digest = ⟨[], [], username, password, [], [], [], 0⟩ := by
    simp [newRemote, hne]
  have hcred : (newRemote username password).digest.hasCredentials = true := by
    simp [hd, Digest.hasCredentials, hne, hpassword]
  have hrealm : ascii "cam" ≠ [] := by decide
  have hnonce : ascii "1a2b" ≠ [] := by decide
  obtain ⟨response, hparse, hcode, hvalue⟩ := parse_digestChallenge
  obtain ⟨auth, hauth, hsub, hlast⟩ := answer_digestChallenge (d := { (newRemote username password).digest with
    realm := ascii "cam", nonce := ascii "1a2b", qop := [], opaqueText := [], algorithm := ascii "MD5", nc := 0 })
    hrealm hcred hnonce rfl rfl rfl (ascii "OPTIONS") url calm.cnonce
  obtain ⟨s, hs, ⟨c, hc, hmethod, hcurl⟩, w, hw, hcall, hheaders⟩ :=
    exec_challenged hparse hcode hvalue (by decide) hcred (taken_digestChallenge hcred) hauth
  have hsup : ∀ a ∈ asked url ++ [.attach, .recv digestChallenge, .reader calm, .reader calm, .reader calm, .reader calm],
      Supplied urls a := by
    simp only [List.forall_mem_append, List.forall_mem_cons]
    exact ⟨asked_supplied hurl, trivial, trivial, calm_cnonce, calm_cnonce, calm_cnonce, calm_cnonce, by simp⟩
  obtain ⟨c', hc', hun⟩ := hall _ s hsup (exec_append.mpr ⟨_, exec_newRemote_asked username password url, hs⟩) w hw
  rw [hcall, hc] at hc'
  obtain rfl := Option.some.inj hc'
  rw [hmethod, hcurl, hheaders] at hun
  refine not_unsplit_of_broken (h := ⟨_, _, [(ascii "CSeq", ascii "2")] ++ [(ascii "Authorization", auth)]⟩) rfl
    (oneLine_requestLine hline _) ?_ ?_ hlast hun
  · simp only [List.mem_singleton, forall_eq]
    exact ⟨by decide, by decide, by decide⟩
  · intro hone
    refine huser (hone.sublist ?_)
    simpa [hd] using hsub

/-- If no request is split, the URLs can be read back. -/
theorem accepted_of_allUnsplit (hurl : url ∈ urls) (hline : OneLine url)
    (hall : ∀ acts s, (∀ a ∈ acts, Supplied urls a) → exec Remote.step (newRemote username password) acts = some s →
      AllUnsplit parse s) : Accepted parse url := by
  obtain ⟨c, hc, hun⟩ := hall (asked url) _ (asked_supplied hurl) (exec_newRemote_asked username password url) _
    (List.mem_singleton_self _)
  obtain rfl := Option.some.inj hc
  exact accepted_of_unsplit (isMethod_newRequest .options url) (oneLine_requestLine hline _) hun

end

/-- **Requests cannot be split exactly when** there is no line end in the user name or no
password, and the URLs can be read back. -/
theorem unsplit_iff (parse : Bytes → Option URL) (urls : Set Bytes)
    (hurls : ∀ url ∈ urls, ∀ c ∈ url, 32 ≤ c ∧ c ≠ 127) (username password : Bytes) :
    (∀ acts s, (∀ a ∈ acts, Supplied urls a) → exec Remote.step (newRemote username password) acts = some s →
      AllUnsplit parse s) ↔
    ∀ url ∈ urls, (password = [] ∨ OneLine username) ∧ Accepted parse url := by
  have hline : ∀ url ∈ urls, OneLine url := fun url hurl c hc => by
    have := hurls url hurl c hc
    grind
  constructor
  · intro hall url hurl
    exact ⟨oneLine_of_allUnsplit hurl (hline url hurl) hall, accepted_of_allUnsplit hurl (hline url hurl) hall⟩
  · intro hcond acts s hsup hexec w hw
    have hplain : Plain urls s := exec_invariant (fun _ _ _ hI hC hs => hI.step hline hC hs) acts _ s
      (plain_newRemote fun ⟨url, hurl⟩ => (hcond url hurl).1) (allSteps_of_forall hsup) hexec
    obtain ⟨e, he, hp⟩ := hplain.wire w hw
    obtain ⟨c, hc, rfl⟩ := Option.map_eq_some_iff.mp ((List.getElem?_map ..).symm.trans he)
    exact ⟨c, hc, (hp.sendable hline).unsplit (hcond _ hp.url).2⟩

/-- The request is challenged and written again. -/
def challengedOnce (url : Bytes) : List Act :=
  asked url ++ [.attach, .recv digestChallenge, .reader calm, .reader calm, .reader calm, .reader calm]

/-- What `url.Parse` makes of a URL whose user name has an escaped line end, and of any other. -/
def decode (rawURL : Bytes) : Option URL :=
  if rawURL = ascii "rtsp://a%0D%0AX%3A1:p@cam/live" then some ⟨ascii "a\r\nX:1", ascii "p", ascii "cam", ascii "/live"⟩
  else some ⟨[], [], ascii "cam", ascii "/live"⟩

/-- With a plain user name the answer to a challenge is not split. -/
theorem unsplit_iff_plain : ∃ s, exec Remote.step (newRemote (ascii "u") (ascii "p"))
    (challengedOnce (ascii "rtsp://cam/live")) = some s ∧ s.wire.length = 2 ∧ AllUnsplit decode s := by
  have hrun : (exec Remote.step (newRemote (ascii "u") (ascii "p")) (challengedOnce (ascii "rtsp://cam/live"))).any
      (fun s => s.wire.length == 2) = true := by decide +kernel
  obtain ⟨s, hs, hlen⟩ := (Option.any_eq_true _ _).mp hrun
  have hsup : ∀ a ∈ challengedOnce (ascii "rtsp://cam/live"), Supplied {ascii "rtsp://cam/live"} a := by
    simp only [challengedOnce, List.forall_mem_append, List.forall_mem_cons]
    exact ⟨asked_supplied rfl, trivial, trivial, calm_cnonce, calm_cnonce, calm_cnonce, calm_cnonce, by simp⟩
  refine ⟨s, hs, by simpa using hlen, (unsplit_iff decode {ascii "rtsp://cam/live"} ?_ _ _).mpr ?_ _ s hsup hs⟩
  · rintro _ rfl
    decide
  · rintro _ rfl
    exact ⟨.inr (by decide), by decide, by decide, by decide⟩

/-- The request has a header `X` when it is read, and more headers than were written. -/
def addsX (headers : Headers) : Bool :=
  match parseRequest decode (⟨ascii "OPTIONS", ascii "rtsp://cam/live", headers⟩ : Head).text with
  | .ok r => headerGet r.headers (ascii "X") != [] && r.headers.length != headers.length
  | .error _ => false

/-- **A client adds a header to a request.** The user name in its URL is `a%0D%0AX%3A1`; when the
camera asks for Digest, the proxy's request has a header `X`. -/
theorem injected_header : ∃ request client request' s,
    newRequestFromBuffer decode (ascii "OPTIONS rtsp://a%0D%0AX%3A1:p@cam/live RTSP/1.0\r\nCSeq: 1\r\n\r\n") = .ok request ∧
    (Downstream.newClient [] []).resolve request = some (client, request') ∧
    exec Remote.step (newRemote client.username client.password) (challengedOnce (ascii "rtsp://cam/live")) = some s ∧
    (∃ w ∈ s.wire, addsX w.headers = true) ∧ ¬ AllUnsplit decode s := by
  have hclient : (newRequestFromBuffer decode
      (ascii "OPTIONS rtsp://a%0D%0AX%3A1:p@cam/live RTSP/1.0\r\nCSeq: 1\r\n\r\n")).toOption.any (fun request =>
        ((Downstream.newClient [] []).resolve request).any fun c =>
          c.1.username == ascii "a\r\nX:1" && c.1.password == ascii "p") = true := by decide +kernel
  have hrun : (exec Remote.step (newRemote (ascii "a\r\nX:1") (ascii "p"))
      (challengedOnce (ascii "rtsp://cam/live"))).any (fun s => s.wire.any fun w => addsX w.headers &&
        s.calls[w.call]?.any fun c => c.request.method == ascii "OPTIONS" && c.request.url == ascii "rtsp://cam/live") =
      true := by decide +kernel
  obtain ⟨request, hrequest, hresolve⟩ := (Option.any_eq_true _ _).mp hclient
  obtain ⟨⟨client, request'⟩, hclient, huser⟩ := (Option.any_eq_true _ _).mp hresolve
  obtain ⟨s, hs, hwire⟩ := (Option.any_eq_true _ _).mp hrun
  obtain ⟨w, hw, hboth⟩ := List.any_eq_true.mp hwire
  obtain ⟨hadds, hcall⟩ := Bool.and_eq_true_iff.mp hboth
  obtain ⟨c, hc, hhead⟩ := (Option.any_eq_true _ _).mp hcall
  simp only [Bool.and_eq_true, beq_iff_eq] at huser hhead
  refine ⟨request, client, request', s, ?_, hclient, ?_, ⟨w, hw, hadds⟩, fun hall => ?_⟩
  · cases hp : newRequestFromBuffer decode (ascii "OPTIONS rtsp://a%0D%0AX%3A1:p@cam/live RTSP/1.0\r\nCSeq: 1\r\n\r\n") with
    | error e => simp [hp, Except.toOption] at hrequest
    | ok r => simpa [hp, Except.toOption] using hrequest
  · rw [huser.1, huser.2]
    exact hs
  · -- as many headers would be read as were written
    obtain ⟨c', hc', hun⟩ := hall w hw
    obtain rfl := Option.some.inj (hc.symm.trans hc')
    rw [hhead.1, hhead.2] at hun
    obtain ⟨-, ⟨r, hparse, -, hkeys⟩, -⟩ := hun w.headers (List.Perm.refl _)
    have hlen := hkeys.length_eq
    simp only [List.length_map] at hlen
    simp [addsX, hparse, hlen] at hadds

end

end RtspProxy.Upstream
