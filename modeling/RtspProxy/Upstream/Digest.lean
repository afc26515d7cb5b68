import RtspProxy.Wire.Response

/-!
# Authentication towards the camera

`digest.go` and the two functions of `remote.go` that use it: how a challenge is read from
a `WWW-Authenticate` value, what it does to the `Digest` of a remote, and the
`Authorization` value that a request gets from it.

The scheme is not stored. A remote with a realm and a nonce answers with `Digest`, one with
a realm and no nonce with `Basic`: `Digest.usesBasic`.

## The regular expressions

`(?i)` compares letters without case, and by Unicode's folding an `s` also stands for
`U+017F`; `\s` is a blank, tab, line feed, form feed or carriage return. A search tries
the positions from left to right, so a search for `e` is `search m` for the function `m`
that matches `e` at the front.
-/

namespace RtspProxy.Upstream

open Theory Wire

/-! ### Matching -/

/-- The pattern's letters without case at the front of the text, and what follows them. -/
def matchFold : Bytes → Bytes → Option Bytes
  | [], s => some s
  | p :: ps, c :: cs =>
    if lower p = lower c then matchFold ps cs
    else if lower p = 115 ∧ c = 0xC5 ∧ cs.head? = some 0xBF then matchFold ps cs.tail
    else none
  | _ :: _, [] => none

/-- `\s`. -/
def isBlank (c : UInt8) : Bool := c == 32 || c == 9 || c == 10 || c == 12 || c == 13

/-- `\s+` at the front, as many as there are. -/
def matchBlanks (s : Bytes) : Option Bytes :=
  if (s.takeWhile isBlank).isEmpty then none else some (s.dropWhile isBlank)

/-- The leftmost position at which `m` matches, with its result. -/
def search {β : Type} (m : Bytes → Option β) : Bytes → Option β
  | [] => m []
  | c :: cs => (m (c :: cs)).orElse fun _ => search m cs

/-- `name="([^"]*)"` at the front. -/
def matchQuoted (name s : Bytes) : Option Bytes :=
  (matchFold (name ++ [61, 34]) s).bind fun rest =>
    let value := rest.takeWhile (· != 34)
    if value.length < rest.length then some value else none

/-- `name=([^,\s]+)` at the front. -/
def matchUnquoted (name s : Bytes) : Option Bytes :=
  (matchFold (name ++ [61]) s).bind fun rest =>
    let value := rest.takeWhile fun c => c != 44 && !isBlank c
    if value.isEmpty then none else some value

/-- `digestRe`: `(?i)Digest\s+`. -/
def matchDigest (s : Bytes) : Option Bytes := (matchFold (ascii "Digest") s).bind matchBlanks

/-- `basicRe`: `(?i)Basic\s+realm="([^"]+)"`. -/
def matchBasic (s : Bytes) : Option Bytes :=
  ((matchFold (ascii "Basic") s).bind matchBlanks).bind fun rest =>
    (matchQuoted (ascii "realm") rest).bind fun realm => if realm.isEmpty then none else some realm

/-- `extractParam`: the quoted form of a parameter, else the other, else nothing. -/
def extractParam (name s : Bytes) : Bytes :=
  match search (matchQuoted name) s with
  | some value => value
  | none => (search (matchUnquoted name) s).getD []

/-! ### Challenges -/

/-- What `ParseWWWAuthenticate` returns. -/
structure Challenge where
  realm : Bytes
  nonce : Bytes
  qop : Bytes
  opaqueText : Bytes
  algorithm : Bytes
  isDigest : Bool
  deriving DecidableEq, Repr

/-- `auth` out of a list of qop values; any other list is kept as it is. -/
def chooseQop (qop : Bytes) : Bytes :=
  if (44 ∈ qop) ∧ (qop.splitOn 44).any (fun part => trimSpace part == ascii "auth") then ascii "auth"
  else qop

/-- `ParseWWWAuthenticate`. -/
def parseWWWAuthenticate (paramsStr : Bytes) : Challenge :=
  if paramsStr = [] then ⟨[], [], [], [], [], false⟩
  else if (search matchDigest paramsStr).isNone then
    ⟨(search matchBasic paramsStr).getD [], [], [], [], [], false⟩
  else
    let algorithm := extractParam (ascii "algorithm") paramsStr
    { realm := extractParam (ascii "realm") paramsStr
      nonce := extractParam (ascii "nonce") paramsStr
      qop := chooseQop (extractParam (ascii "qop") paramsStr)
      opaqueText := extractParam (ascii "opaque") paramsStr
      algorithm := if algorithm = [] then ascii "MD5" else algorithm
      isDigest := true }

/-! ### The state of a remote -/

/-- `Digest`. -/
structure Digest where
  realm : Bytes
  nonce : Bytes
  username : Bytes
  password : Bytes
  qop : Bytes
  opaqueText : Bytes
  algorithm : Bytes
  /-- `Nc`, a 32-bit number. -/
  nc : ℕ
  deriving DecidableEq, Repr

/-- There is a user name and a password. -/
def Digest.hasCredentials (d : Digest) : Bool := d.username != [] && d.password != []

/-- The nonce and its count cleared, as by a timeout or a disconnect. -/
def Digest.clearNonce (d : Digest) : Digest := { d with nonce := [], nc := 0 }

/-- `Remote.handleAuthenticationFailure`, and whether the request is to be sent again. -/
def Digest.handleAuthenticationFailure (d : Digest) (paramsStr : Bytes) : Digest × Bool :=
  if paramsStr = [] ∨ d.hasCredentials = false then (d, false)
  else
    let c := parseWWWAuthenticate paramsStr
    if c.isDigest then
      ({ d with realm := c.realm, nonce := c.nonce, qop := c.qop, opaqueText := c.opaqueText,
                algorithm := c.algorithm, nc := 0 }, true)
    else if c.realm ≠ [] then ({ d with realm := c.realm, nonce := [] }, true)
    else (d, false)

/-- `strings.EqualFold` with a text of ASCII letters and digits other than `k` and `s`. -/
def equalFold (s t : Bytes) : Bool := s.map lower == t.map lower

/-- `Digest.ComputeResponse`: the new state, the response, and the nonce count and client
nonce that go with it; `cnonce` is what `randomCnonce` returns. -/
def Digest.computeResponse (d : Digest) (cmd uri cnonce : Bytes) : Digest × Bytes × Bytes × Bytes :=
  let colon (parts : List Bytes) : Bytes := [58].intercalate parts
  let ha1 := md5Hex (colon [d.username, d.realm, d.password])
  let ha2 := md5Hex (colon [cmd, uri])
  if equalFold d.qop (ascii "auth") then
    let nc := (d.nc + 1) % 2 ^ 32
    let ncStr := hex32 nc
    ({ d with nc := nc }, md5Hex (colon [ha1, d.nonce, ncStr, cnonce, ascii "auth", ha2]), ncStr, cnonce)
  else (d, md5Hex (colon [ha1, d.nonce, ha2]), [], [])

/-- `name="value"`. -/
def quotedParam (name : String) (value : Bytes) : Bytes := ascii name ++ [61, 34] ++ value ++ [34]

/-- The `Authorization` value for a digest with a nonce. -/
def Digest.digestHeader (d : Digest) (url response ncStr cnonce : Bytes) : Bytes :=
  ascii "Digest " ++ quotedParam "username" d.username ++ ascii ", " ++ quotedParam "realm" d.realm ++
    ascii ", " ++ quotedParam "nonce" d.nonce ++ ascii ", " ++ quotedParam "uri" url ++ ascii ", " ++
    quotedParam "response" response ++
    (if d.qop ≠ [] then
      ascii ", qop=" ++ d.qop ++ ascii ", nc=" ++ ncStr ++ ascii ", " ++ quotedParam "cnonce" cnonce
    else []) ++
    (if d.opaqueText ≠ [] then ascii ", " ++ quotedParam "opaque" d.opaqueText else []) ++
    (if d.algorithm ≠ [] ∧ equalFold d.algorithm (ascii "MD5") = false then
      ascii ", algorithm=" ++ d.algorithm
    else [])

/-- The `Authorization` value with the password in clear. -/
def Digest.basicHeader (d : Digest) : Bytes :=
  ascii "Basic " ++ base64 (d.username ++ [58] ++ d.password)

/-- `Remote.createAuthenticatorStr`: the new state, and the `Authorization` value if there is
one to set. -/
def Digest.createAuthenticatorStr (d : Digest) (method url cnonce : Bytes) : Digest × Option Bytes :=
  if d.realm = [] ∨ d.hasCredentials = false then (d, none)
  else if d.nonce ≠ [] then
    let (d, response, ncStr, cnonce) := d.computeResponse method url cnonce
    (d, some (d.digestHeader url response ncStr cnonce))
  else (d, some d.basicHeader)

/-! ### Which scheme a digest stands for -/

/-- Requests get an `Authorization`. -/
def Digest.answers (d : Digest) : Bool := d.realm != [] && d.hasCredentials

/-- Requests get an `Authorization` with the password in clear. -/
def Digest.usesBasic (d : Digest) : Bool := d.answers && d.nonce == []

theorem Digest.answers_of_usesBasic {d : Digest} (h : d.usesBasic = true) : d.answers = true := by
  simp only [Digest.usesBasic, Bool.and_eq_true] at h
  exact h.1

@[simp] theorem clearNonce_answers (d : Digest) : d.clearNonce.answers = d.answers := rfl

/-- The parts of a digest that decide the scheme. -/
theorem computeResponse_scheme (d : Digest) (cmd uri cnonce : Bytes) :
    ∃ nc, (d.computeResponse cmd uri cnonce).1 = { d with nc := nc } := by
  unfold Digest.computeResponse
  dsimp only
  split_ifs
  · exact ⟨_, rfl⟩
  · exact ⟨d.nc, rfl⟩

/-- Making an `Authorization` changes the nonce count only. -/
theorem createAuthenticatorStr_digest (d : Digest) (method url cnonce : Bytes) :
    ∃ nc, (d.createAuthenticatorStr method url cnonce).1 = { d with nc := nc } := by
  unfold Digest.createAuthenticatorStr
  split_ifs
  · exact ⟨d.nc, rfl⟩
  · exact computeResponse_scheme d method url cnonce
  · exact ⟨d.nc, rfl⟩

/-- Does the value start with `Basic`? -/
def isBasic (value : Bytes) : Bool := decide (ascii "Basic " <+: value)

/-- **The value made has the password in clear only if the digest has no nonce.** -/
theorem createAuthenticatorStr_value (d : Digest) (method url cnonce : Bytes) :
    match (d.createAuthenticatorStr method url cnonce).2 with
    | none => d.answers = false
    | some value => isBasic value = true → d.usesBasic = true := by
  unfold Digest.createAuthenticatorStr
  split_ifs with hn hd
  · rcases hn with h | h <;> simp [Digest.answers, h]
  · intro hb
    simp [isBasic, Digest.digestHeader, ascii] at hb
  · intro _
    simp only [not_or, Bool.not_eq_false] at hn
    simp only [ne_eq, not_not] at hd
    simp [Digest.usesBasic, Digest.answers, hn.1, hn.2, hd]

end RtspProxy.Upstream
