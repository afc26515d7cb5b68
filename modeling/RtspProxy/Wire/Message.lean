import RtspProxy.Theory.Bytes

/-!
# The helpers shared by requests and responses

`message.go`: lines, header lines, header lookup, and the `Content-Length` that decides
where a message in the camera's stream ends.

A header map is a list of keys with their values, each key once, in the order in which
a `range` over the map visits them.
-/

namespace RtspProxy.Wire

open Theory

/-! ### Lines -/

/-- `sharedLineSplit`: what follows the first line, and that line. A line ends with
`\r\n`, `\r` or `\n`. -/
def sharedLineSplit : Bytes → Bytes × Bytes
  | [] => ([], [])
  | 13 :: 10 :: rest => (rest, [])
  | c :: cs =>
    if c = 13 ∨ c = 10 then (cs, [])
    else ((sharedLineSplit cs).1, c :: (sharedLineSplit cs).2)

/-- What follows the first line of a text that is not empty is shorter than the text. -/
theorem sharedLineSplit_length {buf : Bytes} (h : buf ≠ []) :
    (sharedLineSplit buf).1.length < buf.length := by
  fun_induction sharedLineSplit buf with
  | case1 => exact absurd rfl h
  | case2 rest =>
    simp only [List.length_cons]
    omega
  | case3 c cs => simp
  | case4 c cs _ _ ih =>
    cases cs with
    | nil => simp [sharedLineSplit]
    | cons d ds => simpa using Nat.lt_succ_of_lt (ih (by simp))

/-! ### Header keys -/

/-- One byte of a header key in canonical case: a capital after a `-` and at the start. -/
def canonicalByte (upper : Bool) (c : UInt8) : UInt8 :=
  if upper && 97 ≤ c && c ≤ 122 then c - 32
  else if !upper && 65 ≤ c && c ≤ 90 then c + 32
  else c

/-- The loop of `canonicalHeaderKey`; `upper` says whether a capital is due. -/
def canonicalLoop : Bool → Bytes → Bytes
  | _, [] => []
  | upper, c :: cs => canonicalByte upper c :: canonicalLoop (c == 45) cs

/-- `canonicalHeaderKey`: `content-length` as `Content-Length`, without the white space
around it. -/
def canonicalHeaderKey (s : Bytes) : Bytes := canonicalLoop true (trimSpace s)

/-- `strings.ToLower`, as far as a comparison with ASCII text can see: the capitals of
ASCII, and the two other letters whose small letter is one of ASCII, `U+0130` and
`U+212A`. -/
def toLower : Bytes → Bytes
  | 0xC4 :: 0xB0 :: s => 105 :: toLower s
  | 0xE2 :: 0x84 :: 0xAA :: s => 107 :: toLower s
  | c :: s => lower c :: toLower s
  | [] => []

/-! ### Header maps -/

/-- A header map: keys with their values, in the order of a `range` over it. -/
abbrev Headers := List (Bytes × Bytes)

/-- `headers[key]`, if the key is there. -/
def Headers.find (headers : Headers) (key : Bytes) : Option Bytes :=
  (headers.find? fun kv => kv.1 == key).map (·.2)

/-- `headers[key] = value`. -/
def Headers.set (headers : Headers) (key value : Bytes) : Headers :=
  if headers.any fun kv => kv.1 == key then
    headers.map fun kv => if kv.1 == key then (key, value) else kv
  else headers ++ [(key, value)]

theorem Headers.find_replace (key value k : Bytes) : ∀ headers : Headers,
    Headers.find (headers.map fun kv => if kv.1 == key then (key, value) else kv) k =
      if k = key then (headers.find k).map fun _ => value else headers.find k
  | [] => by simp [Headers.find]
  | (k₀, v₀) :: rest => by
    have ih := Headers.find_replace key value k rest
    simp only [Headers.find, List.map_cons] at ih ⊢
    by_cases h₀ : k₀ = key
    · subst h₀
      by_cases hk : k = k₀
      · subst hk
        simp
      · simp only [beq_self_eq_true, if_true, List.find?_cons, hk, if_false] at ih ⊢
        rw [show (k₀ == k) = false by simpa using fun h => hk h.symm]
        exact ih
    · by_cases hk : k₀ = k
      · subst hk
        simp [h₀]
      · simp only [beq_iff_eq, h₀, if_false, List.find?_cons]
        rw [show (k₀ == k) = false by simpa using hk]
        simpa using ih

theorem Headers.find_set (headers : Headers) (key value k : Bytes) :
    (headers.set key value).find k = if k = key then some value else headers.find k := by
  unfold Headers.set
  split_ifs with hany hk hk
  · rw [Headers.find_replace, if_pos hk, hk]
    have hsome : (headers.find? fun kv => kv.1 == key).isSome = true := by
      rw [List.find?_isSome]
      exact List.any_eq_true.mp hany
    obtain ⟨kv, hkv⟩ := Option.isSome_iff_exists.mp hsome
    simp only [Headers.find, hkv, Option.map_some]
  · rw [Headers.find_replace, if_neg hk]
  · subst hk
    have hnone : headers.find? (fun kv => kv.1 == k) = none := by
      rw [List.find?_eq_none]
      intro kv hkv heq
      exact hany (List.any_eq_true.mpr ⟨kv, hkv, heq⟩)
    simp [Headers.find, List.find?_append, hnone]
  · have : (key == k) = false := by simpa using fun h => hk h.symm
    simp [Headers.find, List.find?_append, this]

/-- `headerGet`: the value under the key itself, under its canonical form, or under the
first key that is equal but for case; the empty string if there is none. -/
def headerGet (headers : Headers) (key : Bytes) : Bytes :=
  match headers.find key with
  | some v => v
  | none =>
    match headers.find (canonicalHeaderKey key) with
    | some v => v
    | none => ((headers.find? fun kv => toLower kv.1 == toLower key).map (·.2)).getD []

/-! ### Header lines -/

/-- Whether the value loop of `sharedParseHeader` copies, or skips the blanks after a `;`. -/
inductive ValueState where
  | value
  | skip
  deriving DecidableEq, Repr

/-- The value loop of `sharedParseHeader`. -/
def parseValue : ValueState → Bytes → Bytes
  | _, [] => []
  | .value, c :: cs =>
    if c = 9 ∨ c = 13 ∨ c = 10 then parseValue .value cs
    else c :: parseValue (if c = 59 then .skip else .value) cs
  | .skip, c :: cs =>
    if c ≠ 32 ∧ c ≠ 9 ∧ c ≠ 13 ∧ c ≠ 10 then c :: parseValue .value cs
    else parseValue .skip cs

/-- `sharedParseHeader`: the key and the value of a line `Key: Value`, or the error. -/
def sharedParseHeader (line : Bytes) : Except String (Bytes × Bytes) :=
  match index [58] line with
  | none => .error "header parse error: missing colon"
  | some colon =>
    let value := (line.drop (colon + 1)).dropWhile fun c => c == 32 || c == 9
    .ok (canonicalHeaderKey (line.take colon), parseValue .value value)

/-! ### Content-Length -/

/-- `indexBytes`: the same first occurrence that `bytes.Index` finds. -/
def indexBytes (haystack needle : Bytes) : Option ℕ := index needle haystack

/-- The text `sharedParseContentLength` looks for. -/
def contentLengthNeedle : Bytes := ascii "content-length:"

/-- `sharedParseContentLength`: the number after the first `content-length:` anywhere in
the block, in any case, up to the end of its line; `0` if there is none. An error of
`strconv.Atoi` is ignored, so the value it returns with the error counts. -/
def sharedParseContentLength : Bytes → ℤ
  | [] => 0
  | b :: bs =>
    if hasPrefixFold contentLengthNeedle (b :: bs) then
      let rest := (b :: bs).drop contentLengthNeedle.length
      let lineEnd := (indexBytes rest crlf).getD rest.length
      (atoi (trimSpace (rest.take lineEnd))).1
    else sharedParseContentLength bs

theorem sharedParseContentLength_bounds (block : Bytes) :
    -2 ^ 63 ≤ sharedParseContentLength block ∧ sharedParseContentLength block < 2 ^ 63 := by
  induction block with
  | nil => decide
  | cons b bs ih =>
    rw [sharedParseContentLength]
    split
    · exact atoi_bounds _
    · exact ih

example : sharedParseContentLength (ascii "RTSP/1.0 200 OK\r\ncontent-LENGTH: 12 \r\nCSeq: 2") = 12 := by
  decide

end RtspProxy.Wire
