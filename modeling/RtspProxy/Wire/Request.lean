import RtspProxy.Wire.Response

/-!
# Requests from a client

`request.go`: the request line and the header lines of a request. What follows the blank line
is not looked at.

`url.Parse` is a parameter. A URL that names the camera in its path, as in
`rtsp://proxy:8554/rtsp/host/path`, is rewritten before it is parsed.
-/

namespace RtspProxy.Wire

open Theory

/-- The parts of a `url.URL` that the proxy uses. -/
structure URL where
  /-- `User.Username()`. -/
  username : Bytes
  /-- `User.Password()`, empty if there is none. -/
  password : Bytes
  host : Bytes
  path : Bytes
  deriving DecidableEq, Repr

/-- `Request`, as a client sends it. -/
structure Request where
  method : Bytes
  rawURL : Bytes
  url : URL
  protocolVersion : Bytes
  headers : Headers
  deriving DecidableEq, Repr

/-! ### The proxy's form of a URL -/

/-- A decimal digit. -/
def isDigit (c : UInt8) : Bool := 48 ≤ c && c ≤ 57

/-- What follows `\d+`, if it matches. -/
def skipDigits (s : Bytes) : Option Bytes :=
  if s.takeWhile isDigit = [] then none else some (s.dropWhile isDigit)

/-- What follows `(:?[:]\d+)?` where a `/` must come next. -/
def skipPort : Bytes → Option Bytes
  | 58 :: 58 :: s => skipDigits s
  | 58 :: s => skipDigits s
  | s => some s

/-- What `^rtsp:\/\/[^:\/]+(:?[:]\d+)?\/(rtsp)\/(.*)` has in its last group. A request line
has no line break, so that group goes to the end. -/
def proxyForm (rawURL : Bytes) : Option Bytes :=
  if ascii "rtsp://" <+: rawURL then
    let s := rawURL.drop 7
    let host := s.takeWhile fun c => c != 58 && c != 47
    if host = [] then none
    else match skipPort (s.drop host.length) with
      | some s => if ascii "/rtsp/" <+: s then some (s.drop 6) else none
      | none => none
  else none

/-- `re.ReplaceAllString(request.RawURL, "$2://$3")`. -/
def targetURL (rawURL : Bytes) : Bytes :=
  match proxyForm rawURL with
  | some rest => ascii "rtsp://" ++ rest
  | none => rawURL

example : targetURL (ascii "rtsp://proxy:8554/rtsp/cam:554/live") = ascii "rtsp://cam:554/live" := by decide

/-! ### Parsing -/

section
variable (parse : Bytes → Option URL)

/-- `Request.ParseCommand`: a request with this request line and nothing else. -/
def parseCommand (buffer : Bytes) : Except ParseError Request :=
  let (method, buffer) := nextWord buffer
  let (rawURL, buffer) := nextWord buffer
  let (protocolVersion, _) := nextWord buffer
  if method = [] ∨ rawURL = [] ∨ protocolVersion = [] then .error .method
  else match parse (targetURL rawURL) with
    | none => .error .url
    | some url => .ok ⟨method, rawURL, url, protocolVersion, []⟩

/-- `Request.ParseRequest`. -/
def parseRequest (buffer : Bytes) : Except ParseError Request :=
  let (next, thisLine) := sharedLineSplit buffer
  match parseCommand parse thisLine with
  | .error e => .error e
  | .ok request =>
    match headerLoop next.length next [] with
    | .error e => .error e
    | .ok (headers, _) => .ok { request with headers := headers }

/-- `NewRequestFromBuffer` of a text that is not empty. -/
def newRequestFromBuffer (buffer : Bytes) : Except ParseError Request := parseRequest parse buffer

variable {parse}

/-- What a request that is accepted was read from. -/
theorem parseRequest_ok {buffer : Bytes} {request : Request} (h : parseRequest parse buffer = .ok request) :
    ∃ command headers rest, parseCommand parse (sharedLineSplit buffer).2 = .ok command ∧
      headerLoop (sharedLineSplit buffer).1.length (sharedLineSplit buffer).1 [] = .ok (headers, rest) ∧
      request = { command with headers := headers } := by
  rw [parseRequest] at h
  dsimp only at h
  cases hcommand : parseCommand parse (sharedLineSplit buffer).2 with
  | error e => simp [hcommand] at h
  | ok command =>
    simp only [hcommand] at h
    cases hloop : headerLoop (sharedLineSplit buffer).1.length (sharedLineSplit buffer).1 [] with
    | error e => simp [hloop] at h
    | ok result =>
      simp only [hloop, Except.ok.injEq] at h
      exact ⟨command, result.1, result.2, rfl, rfl, h.symm⟩

end

end RtspProxy.Wire
