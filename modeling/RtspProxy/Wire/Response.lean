import RtspProxy.Theory.Encoding
import RtspProxy.Wire.Message

/-!
# Responses from the camera

`response.go`: the status line, the header lines and the body of a response.

A first line is read byte by byte, and each byte is appended as a string of its own
(`string(buffer[i])`), so a byte from 128 on turns into two.
-/

namespace RtspProxy.Wire

open Theory

/-- Why a message is refused. -/
inductive ParseError where
  /-- The status code is not a number: the error of `strconv.Atoi`. -/
  | code (e : NumError)
  /-- `errors.New("Status parse error")`. -/
  | status
  /-- `errors.New("Method parse error")`. -/
  | method
  /-- The error of `url.Parse`. -/
  | url
  /-- The error of `sharedParseHeader`. -/
  | header (text : String)
  deriving DecidableEq, Repr

/-! ### The first line -/

/-- Not a space or a tab. -/
def notBlank (c : UInt8) : Bool := c != 32 && c != 9

/-- The next word of a first line, and what follows the blank after it. -/
def nextWord (buffer : Bytes) : Bytes × Bytes :=
  let w := buffer.takeWhile notBlank
  (w.flatMap runeString, buffer.drop (w.length + 1))

/-- The rest of a line. -/
def restOfLine (buffer : Bytes) : Bytes := (buffer.takeWhile fun c => c != 13 && c != 10).flatMap runeString

/-! ### Header lines -/

/-- The header loop of `ParseRequest` and `ParseResponse`: header lines up to an empty
line, and what follows it. Each line takes at least one byte, so the length of the text
bounds their number. -/
def headerLoop : ℕ → Bytes → Headers → Except ParseError (Headers × Bytes)
  | 0, next, headers => .ok (headers, next)
  | k + 1, next, headers =>
    let (next, thisLine) := sharedLineSplit next
    if thisLine = [] then .ok (headers, next)
    else match sharedParseHeader thisLine with
      | .error e => .error (.header e)
      | .ok (key, value) => headerLoop k next (headers.set key value)

/-- The bound does not matter, once it is the length of the text. -/
theorem headerLoop_bound {k m : ℕ} {next : Bytes} {headers : Headers} (hk : next.length ≤ k)
    (hm : next.length ≤ m) : headerLoop k next headers = headerLoop m next headers := by
  induction k generalizing m next headers with
  | zero =>
    obtain rfl : next = [] := List.length_eq_zero_iff.mp (Nat.le_zero.mp hk)
    cases m <;> rfl
  | succ k ih =>
    by_cases hn : next = []
    · subst hn
      cases m <;> rfl
    · -- the rest of the text is shorter
      have hlt := sharedLineSplit_length hn
      obtain ⟨m, rfl⟩ : ∃ m', m = m' + 1 := Nat.exists_eq_succ_of_ne_zero (by omega)
      simp only [headerLoop]
      split
      · rfl
      · split
        · rfl
        · exact ih (by omega) (by omega)

/-! ### Responses -/

/-- `Response`. -/
structure Response where
  status : Bytes
  protocolVersion : Bytes
  code : ℤ
  headers : Headers
  body : Bytes
  deriving DecidableEq, Repr

/-- `Response.ParseStatus`: a response with this status line and nothing else. -/
def parseStatus (buffer : Bytes) : Except ParseError Response :=
  let (protocolVersion, buffer) := nextWord buffer
  let (code, buffer) := nextWord buffer
  let status := restOfLine buffer
  let number : ℤ × Option NumError := if code.length = 3 then atoi code else (0, none)
  match number with
  | (_, some e) => .error (.code e)
  | (n, none) =>
    if status = [] ∨ n = 0 ∨ protocolVersion = [] then .error .status
    else .ok ⟨status, protocolVersion, n, [], []⟩

/-- The body that `Response.ParseResponse` takes from what follows the header lines. -/
def takeBody (headers : Headers) (next : Bytes) : Bytes :=
  let contentLength := (atoi (headerGet headers (ascii "Content-Length"))).1
  if contentLength ≤ 0 then [] else next.take contentLength.toNat

/-- `Response.ParseResponse`. -/
def parseResponse (buffer : Bytes) : Except ParseError Response :=
  let (next, thisLine) := sharedLineSplit buffer
  match parseStatus thisLine with
  | .error e => .error e
  | .ok response =>
    match headerLoop next.length next [] with
    | .error e => .error e
    | .ok (headers, next) => .ok { response with headers := headers, body := takeBody headers next }

/-- What a response that is accepted was read from. -/
theorem parseResponse_ok {buffer : Bytes} {response : Response} (h : parseResponse buffer = .ok response) :
    ∃ status headers rest, parseStatus (sharedLineSplit buffer).2 = .ok status ∧
      headerLoop (sharedLineSplit buffer).1.length (sharedLineSplit buffer).1 [] = .ok (headers, rest) ∧
      response = { status with headers := headers, body := takeBody headers rest } := by
  rw [parseResponse] at h
  dsimp only at h
  cases hstatus : parseStatus (sharedLineSplit buffer).2 with
  | error e => simp [hstatus] at h
  | ok status =>
    simp only [hstatus] at h
    cases hloop : headerLoop (sharedLineSplit buffer).1.length (sharedLineSplit buffer).1 [] with
    | error e => simp [hloop] at h
    | ok result =>
      simp only [hloop, Except.ok.injEq] at h
      exact ⟨status, result.1, result.2, rfl, rfl, h.symm⟩

/-- `NewResponseFromBuffer`. -/
def newResponseFromBuffer (buffer : Bytes) : Except ParseError Response :=
  if buffer = [] then .ok ⟨ascii "Bad request", ascii "RTSP/1.0", 400, [], []⟩
  else parseResponse buffer

example : (newResponseFromBuffer (ascii "RTSP/1.0 200 OK\r\ncseq: 7\r\n\r\n")).map
    (fun r => (r.code, headerGet r.headers (ascii "CSeq"))) = .ok (200, ascii "7") := by
  decide

end RtspProxy.Wire
