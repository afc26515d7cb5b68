import RtspProxy.Theory.Params
import RtspProxy.Upstream.Digest

/-!
# Whether a camera can verify a Digest header

Three places decide on their own whether a challenge asks for quality of protection: the challenge
parser looks for `auth` in a list of values, `ComputeResponse` compares the stored value with `auth`
without case, and the header writer asks whether it is empty. The algorithm is repeated in the header,
and MD5 is used.

## The model

The hash is a parameter: `computeResponseBy` and `createAuthenticatorStrBy` are the functions of
`Digest` with any other in place of `md5Hex`. The camera reads the header with `readParams`, and computes
the response that RFC 2617 asks for from the fields it finds, the method and the password, with a hash
for each name of an algorithm (`Hashes`). A header is verifiable if that is its response for every such
family of hashes, the one named `MD5` being the one the proxy used. Quoted strings have no escapes: a
value is what stands between its quotes.

## What is proved

* `digestHeader_eq` — the header as a list of parameters.
* `tagged_inner` — with a hash that keeps its input, what a verified response was computed from.
* `verifiable_iff` — **the header for a challenge is verifiable exactly when the challenge offers no
  quality of protection, or `auth`; names no algorithm but MD5; and no quote stands in its nonce, in its
  opaque text or in the URL.**
-/

namespace RtspProxy.Upstream

open Theory Wire

/-! ### The header, with any hash -/

/-- Texts with colons between them. -/
def colon (parts : List Bytes) : Bytes := [58].intercalate parts

/-- `Digest.ComputeResponse`, with this hash. -/
def Digest.computeResponseBy (hash : Bytes → Bytes) (d : Digest) (cmd uri cnonce : Bytes) :
    Digest × Bytes × Bytes × Bytes :=
  let ha1 := hash (colon [d.username, d.realm, d.password])
  let ha2 := hash (colon [cmd, uri])
  if equalFold d.qop (ascii "auth") then
    let nc := (d.nc + 1) % 2 ^ 32
    let ncStr := hex32 nc
    ({ d with nc := nc }, hash (colon [ha1, d.nonce, ncStr, cnonce, ascii "auth", ha2]), ncStr, cnonce)
  else (d, hash (colon [ha1, d.nonce, ha2]), [], [])

/-- `Remote.createAuthenticatorStr`, with this hash. -/
def Digest.createAuthenticatorStrBy (hash : Bytes → Bytes) (d : Digest) (method url cnonce : Bytes) :
    Digest × Option Bytes :=
  if d.realm = [] ∨ d.hasCredentials = false then (d, none)
  else if d.nonce ≠ [] then
    let (d, response, ncStr, cnonce) := d.computeResponseBy hash method url cnonce
    (d, some (d.digestHeader url response ncStr cnonce))
  else (d, some d.basicHeader)

theorem createAuthenticatorStrBy_md5Hex (d : Digest) (method url cnonce : Bytes) :
    d.createAuthenticatorStrBy md5Hex method url cnonce = d.createAuthenticatorStr method url cnonce := rfl

/-- The parameters that every Digest header has. -/
def Digest.baseParams (d : Digest) (url response : Bytes) : List Param :=
  [⟨ascii "username", d.username, true⟩, ⟨ascii "realm", d.realm, true⟩, ⟨ascii "nonce", d.nonce, true⟩,
    ⟨ascii "uri", url, true⟩, ⟨ascii "response", response, true⟩]

/-- Those of the quality of protection. -/
def Digest.qopParams (d : Digest) (ncStr cnonce : Bytes) : List Param :=
  if d.qop ≠ [] then
    [⟨ascii "qop", d.qop, false⟩, ⟨ascii "nc", ncStr, false⟩, ⟨ascii "cnonce", cnonce, true⟩]
  else []

/-- The opaque text. -/
def Digest.opaqueParams (d : Digest) : List Param :=
  if d.opaqueText ≠ [] then [⟨ascii "opaque", d.opaqueText, true⟩] else []

/-- The algorithm. -/
def Digest.algorithmParams (d : Digest) : List Param :=
  if d.algorithm ≠ [] ∧ equalFold d.algorithm (ascii "MD5") = false then
    [⟨ascii "algorithm", d.algorithm, false⟩]
  else []

/-- The parameters that not every header has. -/
def Digest.restParams (d : Digest) (ncStr cnonce : Bytes) : List Param :=
  d.qopParams ncStr cnonce ++ (d.opaqueParams ++ d.algorithmParams)

/-- The parameters of the header. -/
def Digest.params (d : Digest) (url response ncStr cnonce : Bytes) : List Param :=
  d.baseParams url response ++ d.restParams ncStr cnonce

theorem digestHeader_eq (d : Digest) (url response ncStr cnonce : Bytes) :
    d.digestHeader url response ncStr cnonce = ascii "Digest " ++ writeParams (d.params url response ncStr cnonce) := by
  unfold Digest.digestHeader Digest.params Digest.restParams Digest.qopParams Digest.opaqueParams Digest.algorithmParams
  split_ifs <;>
    simp [Digest.baseParams, quotedParam, writeParams, following, Param.text, Param.valueText, ascii]

/-! ### What the camera computes -/

/-- A hash for each name of an algorithm. -/
abbrev Hashes := Bytes → Bytes → Bytes

/-- The parameters of an `Authorization` value. -/
def readAuthorization (value : Bytes) : Option (List (Bytes × Bytes)) :=
  if ascii "Digest " <+: value then readParams value.length (value.drop 7) else none

/-- The value of a field. -/
def field (params : List (Bytes × Bytes)) (name : String) : Option Bytes :=
  (params.find? fun p => p.1 == ascii name).map Prod.snd

/-- The algorithm that a header declares. -/
def declared (params : List (Bytes × Bytes)) : Bytes := (field params "algorithm").getD (ascii "MD5")

/-- `A1` is of the session. -/
def isSession (algorithm : Bytes) : Bool := equalFold algorithm (ascii "MD5-sess")

/-- The hash of an algorithm. -/
def hashOf (h : Hashes) (algorithm : Bytes) : Bytes → Bytes :=
  h (if isSession algorithm then ascii "MD5" else algorithm)

/-- `A1`: user name, realm and password, or the session's. -/
def a1Text (h : Hashes) (params : List (Bytes × Bytes)) (secret nonce : Bytes) : Option Bytes :=
  if isSession (declared params) then
    (field params "cnonce").map fun cnonce => colon [hashOf h (declared params) secret, nonce, cnonce]
  else some secret

/-- `A2`: the method and the URI, and with `auth-int` the hash of the body, which is empty. -/
def a2Text (h : Hashes) (params : List (Bytes × Bytes)) (qop method uri : Bytes) : Bytes :=
  if qop = ascii "auth-int" then colon [method, uri, hashOf h (declared params) []] else colon [method, uri]

/-- What follows the nonce in the text that is hashed: `qop`, `nc` and `cnonce` are all there, or none of
them is. -/
def afterNonce (h : Hashes) (params : List (Bytes × Bytes)) (method uri : Bytes) : Option Bytes :=
  match field params "qop", field params "nc", field params "cnonce" with
  | none, none, none => some (hashOf h (declared params) (colon [method, uri]))
  | some qop, some nc, some cnonce =>
    some (colon [nc, cnonce, qop, hashOf h (declared params) (a2Text h params qop method uri)])
  | _, _, _ => none

/-- The response that RFC 2617 asks for, from the fields of the header, the method and the password. -/
def expectedResponse (h : Hashes) (params : List (Bytes × Bytes)) (method password : Bytes) : Option Bytes := do
  let username ← field params "username"
  let realm ← field params "realm"
  let nonce ← field params "nonce"
  let uri ← field params "uri"
  let a1 ← a1Text h params (colon [username, realm, password]) nonce
  let rest ← afterNonce h params method uri
  return hashOf h (declared params) (colon [hashOf h (declared params) a1, nonce, rest])

/-- The camera verifies an `Authorization` value of a request: it is for the request's URL, and has the
response it should have. -/
def verifies (h : Hashes) (method url password value : Bytes) : Bool :=
  match readAuthorization value with
  | none => false
  | some params =>
    field params "uri" == some url && (expectedResponse h params method password).isSome &&
      field params "response" == expectedResponse h params method password

/-- **The `Authorization` value of a request is verified**, whatever the hashes are. -/
def Verifiable (d : Digest) (method url cnonce : Bytes) : Prop :=
  ∀ h : Hashes, (∀ a x, 34 ∉ h a x) →
    ∃ value, (d.createAuthenticatorStrBy (h (ascii "MD5")) method url cnonce).2 = some value ∧
      verifies h method url d.password value = true

/-! ### The value that is sent -/

section
variable {h : Hashes} {hash : Bytes → Bytes} {d : Digest} {method url cnonce : Bytes}

theorem colon_three (a b c : Bytes) : colon [a, b, c] = a ++ 58 :: (b ++ 58 :: c) := by simp [colon]

theorem colon_four (a b c x : Bytes) : colon [a, b, c, x] = a ++ 58 :: (b ++ 58 :: (c ++ 58 :: x)) := by simp [colon]

theorem colon_nested (a b c x y z : Bytes) : colon [a, b, x, y, z, c] = colon [a, b, colon [x, y, z, c]] := by
  simp [colon]

/-- What the response is computed from, besides `A1` and the nonce. -/
def Digest.used (d : Digest) (hash : Bytes → Bytes) (method url cnonce : Bytes) : Bytes :=
  if equalFold d.qop (ascii "auth") then
    colon [hex32 ((d.nc + 1) % 2 ^ 32), cnonce, ascii "auth", hash (colon [method, url])]
  else hash (colon [method, url])

/-- The response. -/
def Digest.responseBy (d : Digest) (hash : Bytes → Bytes) (method url cnonce : Bytes) : Bytes :=
  hash (colon [hash (colon [d.username, d.realm, d.password]), d.nonce, d.used hash method url cnonce])

/-- The nonce count that goes with it. -/
def Digest.ncText (d : Digest) : Bytes := if equalFold d.qop (ascii "auth") then hex32 ((d.nc + 1) % 2 ^ 32) else []

/-- The client nonce that goes with it. -/
def Digest.cnonceText (d : Digest) (cnonce : Bytes) : Bytes := if equalFold d.qop (ascii "auth") then cnonce else []

theorem computeResponseBy_eq (d : Digest) (hash : Bytes → Bytes) (method url cnonce : Bytes) :
    (d.computeResponseBy hash method url cnonce).2 =
      (d.responseBy hash method url cnonce, d.ncText, d.cnonceText cnonce) := by
  unfold Digest.computeResponseBy Digest.responseBy Digest.used Digest.ncText Digest.cnonceText
  split_ifs
  · rw [← colon_nested]
  · rfl

/-- The parameters of the header that is sent. -/
def Digest.sent (d : Digest) (hash : Bytes → Bytes) (method url cnonce : Bytes) : List Param :=
  d.params url (d.responseBy hash method url cnonce) d.ncText (d.cnonceText cnonce)

theorem createAuthenticatorStrBy_eq (hrealm : d.realm ≠ []) (hcred : d.hasCredentials = true) (hnonce : d.nonce ≠ []) :
    (d.createAuthenticatorStrBy hash method url cnonce).2 =
      some (ascii "Digest " ++ writeParams (d.sent hash method url cnonce)) := by
  have hresponse := computeResponseBy_eq d hash method url cnonce
  obtain ⟨nc, hnc⟩ : ∃ nc, (d.computeResponseBy hash method url cnonce).1 = { d with nc := nc } := by
    unfold Digest.computeResponseBy
    dsimp only
    split_ifs
    · exact ⟨_, rfl⟩
    · exact ⟨d.nc, rfl⟩
  have hall : d.computeResponseBy hash method url cnonce =
      ({ d with nc := nc }, d.responseBy hash method url cnonce, d.ncText, d.cnonceText cnonce) :=
    Prod.ext hnc hresponse
  rw [Digest.createAuthenticatorStrBy, if_neg (by simp [hrealm, hcred]), if_pos hnonce, hall, Digest.sent,
    ← digestHeader_eq]
  rfl

/-- The value is verified if it can be read, and the fields are right. -/
theorem verifies_iff {password : Bytes} {ps : List Param} :
    verifies h method url password (ascii "Digest " ++ writeParams ps) = true ↔
      ∃ params, readParams (7 + (writeParams ps).length) (writeParams ps) = some params ∧
        field params "uri" = some url ∧
        ∃ response, field params "response" = some response ∧
          expectedResponse h params method password = some response := by
  have hread : readAuthorization (ascii "Digest " ++ writeParams ps) =
      readParams (7 + (writeParams ps).length) (writeParams ps) := by
    rw [readAuthorization, if_pos (List.prefix_append _ _), List.length_append]
    rfl
  rw [verifies, hread]
  cases readParams (7 + (writeParams ps).length) (writeParams ps) with
  | none => simp
  | some params =>
    cases he : expectedResponse h params method password with
    | none => simp [he]
    | some response => simp [he]

end

/-! ### A hash that keeps its input -/

/-- Hashes that keep their input, and tell MD5 from any other. -/
def tagged : Hashes := fun a x => (if a = ascii "MD5" then [] else [49]) ++ hexString x

theorem hexDigit_not_separator : ∀ n < 16, hexDigit n ≠ 34 ∧ hexDigit n ≠ 58 ∧ isTokenByte (hexDigit n) = true := by
  decide

theorem colon_not_mem_hexString (x : Bytes) : 58 ∉ hexString x := by
  intro hmem
  obtain ⟨n, hn, hc⟩ := digit_of_mem_hexString hmem
  exact (hexDigit_not_separator n hn).2.1 hc.symm

theorem quote_not_mem_tagged (a x : Bytes) : 34 ∉ tagged a x := by
  have hhex : 34 ∉ hexString x := by
    intro hmem
    obtain ⟨n, hn, hc⟩ := digit_of_mem_hexString hmem
    exact (hexDigit_not_separator n hn).1 hc.symm
  unfold tagged
  split_ifs <;> simp [hhex]

theorem tagged_md5 (x : Bytes) : tagged (ascii "MD5") x = hexString x := rfl

theorem tagged_inj {a x y : Bytes} (h : tagged a x = tagged (ascii "MD5") y) : a = ascii "MD5" ∧ x = y := by
  by_cases ha : a = ascii "MD5"
  · subst ha
    exact ⟨rfl, hexString_injective h⟩
  · have hlen := congrArg List.length h
    simp only [tagged, if_neg ha, if_true, List.length_append, length_hexString, List.length_cons,
      List.length_nil] at hlen
    omega

/-- **What a response that is as expected was computed from**: the plain `A1`, with MD5, and what the
fields of the header say of the rest. -/
theorem tagged_inner {params : List (Bytes × Bytes)} {username realm nonce uri method password rest : Bytes}
    (husername : field params "username" = some username) (hrealm : field params "realm" = some realm)
    (hnonce : field params "nonce" = some nonce) (huri : field params "uri" = some uri)
    (h : expectedResponse tagged params method password = some (tagged (ascii "MD5")
      (colon [tagged (ascii "MD5") (colon [username, realm, password]), nonce, rest]))) :
    declared params = ascii "MD5" ∧ afterNonce tagged params method uri = some rest := by
  simp only [expectedResponse, husername, hrealm, hnonce, huri, Option.bind_eq_bind, Option.bind_some,
    Option.bind_eq_some_iff, Option.pure_def, Option.some.injEq] at h
  obtain ⟨a1, ha1, rest', hrest, h⟩ := h
  obtain ⟨halg, htext⟩ := tagged_inj h
  rw [colon_three, colon_three] at htext
  have hhash : hashOf tagged (declared params) = hexString := by
    rw [hashOf, halg]
    rfl
  rw [hhash, tagged_md5] at htext
  obtain ⟨hhex, htext⟩ := append_cons_cancel (colon_not_mem_hexString _) (colon_not_mem_hexString _) htext
  have hsecret := hexString_injective hhex
  have hrest' : rest' = rest := (List.cons.inj (List.append_cancel_left htext)).2
  have hsession : isSession (declared params) = false := by
    by_contra hsession
    rw [Bool.not_eq_false] at hsession
    rw [a1Text, if_pos hsession, hhash] at ha1
    obtain ⟨cnonce, -, hlong⟩ := Option.map_eq_some_iff.mp ha1
    have hlen := congrArg List.length (hlong.trans hsecret)
    rw [colon_three, List.length_append, length_hexString, List.length_cons] at hlen
    omega
  rw [hsession] at halg
  exact ⟨halg, hrest'.symm ▸ hrest⟩

/-! ### When the header is verifiable -/

/-- A digest that sends Digest headers: user name and realm have no quote, the texts that a challenge
gave without quotes have no comma, and the algorithm is a token. -/
structure Digest.Ready (d : Digest) : Prop where
  /-- There is a user name and a password. -/
  credentials : d.hasCredentials = true
  /-- There is a realm. -/
  realm : d.realm ≠ []
  /-- There is a nonce. -/
  nonce : d.nonce ≠ []
  /-- The user name has no quote. -/
  username_quote : 34 ∉ d.username
  /-- The realm has none. -/
  realm_quote : 34 ∉ d.realm
  /-- A nonce with a quote has no comma. -/
  nonce_comma : 34 ∈ d.nonce → 44 ∉ d.nonce
  /-- Nor has an opaque text. -/
  opaque_comma : 34 ∈ d.opaqueText → 44 ∉ d.opaqueText
  algorithm_token : ∀ c ∈ d.algorithm, isTokenByte c = true

section
variable {h : Hashes} {d : Digest} {method url cnonce : Bytes}

theorem isName_base : IsName (ascii "username") ∧ IsName (ascii "realm") ∧ IsName (ascii "nonce") ∧
    IsName (ascii "uri") ∧ IsName (ascii "response") := by
  decide

theorem isName_rest : IsName (ascii "qop") ∧ IsName (ascii "nc") ∧ IsName (ascii "cnonce") ∧
    IsName (ascii "opaque") ∧ IsName (ascii "algorithm") := by
  decide

theorem named_restParams (d : Digest) (ncStr cnonce : Bytes) : ∀ p ∈ d.restParams ncStr cnonce, p.Named := by
  obtain ⟨hqop, hnc, hcnonce, hopq, halgorithm⟩ := isName_rest
  intro p hp
  simp only [Digest.restParams, List.mem_append] at hp
  rcases hp with hp | hp | hp
  · obtain ⟨-, hp⟩ := List.mem_ite_nil_right.mp hp
    simp only [List.mem_cons, List.not_mem_nil, or_false] at hp
    rcases hp with rfl | rfl | rfl
    · exact hqop
    · exact hnc
    · exact hcnonce
  · obtain ⟨-, hp⟩ := List.mem_ite_nil_right.mp hp
    obtain rfl := List.mem_singleton.mp hp
    exact hopq
  · obtain ⟨-, hp⟩ := List.mem_ite_nil_right.mp hp
    obtain rfl := List.mem_singleton.mp hp
    exact halgorithm

/-- A header is at least as long as its list of parameters. -/
theorem fuel_le (ps qs : List Param) : ps.length ≤ 7 + (writeParams (ps ++ qs)).length := by
  have hlen := length_le_writeParams (ps ++ qs)
  rw [List.length_append] at hlen
  omega

section
variable {response ncStr : Bytes} {params : List (Bytes × Bytes)}
  (hread : readParams (7 + (writeParams (d.params url response ncStr cnonce)).length)
    (writeParams (d.params url response ncStr cnonce)) = some params)
include hread

/-- The nonce of a header that can be read has no quote. -/
theorem nonce_of_read (hd : d.Ready) : 34 ∉ d.nonce := by
  obtain ⟨husername, hrealm, hnonce, huri, hresponse⟩ := isName_base
  have hps : ∀ p ∈ [(⟨ascii "username", d.username, true⟩ : Param), ⟨ascii "realm", d.realm, true⟩], p.Ok := by
    simp only [List.forall_mem_cons]
    exact ⟨.quoted husername hd.username_quote, .quoted hrealm hd.realm_quote, fun _ h => nomatch h⟩
  have hqs : ∀ p ∈ (⟨ascii "nonce", d.nonce, true⟩ : Param) :: ⟨ascii "uri", url, true⟩ ::
      ⟨ascii "response", response, true⟩ :: d.restParams ncStr cnonce, p.Named := by
    simp only [List.forall_mem_cons]
    exact ⟨hnonce, huri, hresponse, named_restParams d ncStr cnonce⟩
  exact quote_not_mem_of_readParams hps hqs (fuel_le _ _) hread rfl hd.nonce_comma

theorem uri_of_read (hd : d.Ready) (hquote : 34 ∉ d.nonce) : ∃ uri, field params "uri" = some uri ∧ 34 ∉ uri := by
  obtain ⟨husername, hrealm, hnonce, huri, hresponse⟩ := isName_base
  have hps : ∀ p ∈ [(⟨ascii "username", d.username, true⟩ : Param), ⟨ascii "realm", d.realm, true⟩,
      ⟨ascii "nonce", d.nonce, true⟩], p.Ok := by
    simp only [List.forall_mem_cons]
    exact ⟨.quoted husername hd.username_quote, .quoted hrealm hd.realm_quote, .quoted hnonce hquote,
      fun _ h => nomatch h⟩
  have hqs : ∀ p ∈ (⟨ascii "uri", url, true⟩ : Param) :: ⟨ascii "response", response, true⟩ ::
      d.restParams ncStr cnonce, p.Named := by
    simp only [List.forall_mem_cons]
    exact ⟨huri, hresponse, named_restParams d ncStr cnonce⟩
  obtain ⟨uri, l, rfl, huri⟩ := exists_name_of_readParams hps hqs (fuel_le _ _) hread
  exact ⟨uri, rfl, huri⟩

end

theorem ok_baseParams (hd : d.Ready) (hnonce : 34 ∉ d.nonce) (hurl : 34 ∉ url) {response : Bytes}
    (hresponse : 34 ∉ response) : ∀ p ∈ d.baseParams url response, p.Ok := by
  obtain ⟨nameUsername, nameRealm, nameNonce, nameUri, nameResponse⟩ := isName_base
  simp only [Digest.baseParams, List.forall_mem_cons]
  exact ⟨.quoted nameUsername hd.username_quote, .quoted nameRealm hd.realm_quote, .quoted nameNonce hnonce,
    .quoted nameUri hurl, .quoted nameResponse hresponse, fun _ h => nomatch h⟩

/-- A value that is `auth` but for its case is a token. -/
theorem token_of_auth {qop : Bytes} (hqop : equalFold qop (ascii "auth") = true) :
    qop ≠ [] ∧ ∀ c ∈ qop, isTokenByte c = true := by
  have hmap : qop.map lower = ascii "auth" := beq_iff_eq.mp hqop
  have htoken : ∀ c, lower c ∈ ascii "auth" → isTokenByte c = true := forall_byte (by decide +kernel)
  refine ⟨fun hnil => ?_, fun c hc => ?_⟩
  · rw [hnil] at hmap
    cases hmap
  · have hlower : lower c ∈ ascii "auth" := hmap ▸ List.mem_map_of_mem hc
    exact htoken c hlower

theorem token_hex32 (n : ℕ) : hex32 n ≠ [] ∧ ∀ c ∈ hex32 n, isTokenByte c = true := by
  constructor
  · intro hnil
    have hlen := congrArg List.length hnil
    rw [hex32, length_hexString] at hlen
    cases hlen
  · intro c hc
    obtain ⟨n, hn, rfl⟩ := digit_of_mem_hexString hc
    exact (hexDigit_not_separator n hn).2.2

theorem fold_of_eq {qop : Bytes} (hqop : qop = ascii "auth") : equalFold qop (ascii "auth") = true := by
  rw [hqop]
  decide

/-- With `auth`, in any case, the parameters of the quality of protection can be read back. -/
theorem ok_qopParams (hqop : d.qop = [] ∨ equalFold d.qop (ascii "auth") = true) (hcnonce : 34 ∉ cnonce) :
    ∀ p ∈ d.qopParams d.ncText (d.cnonceText cnonce), p.Ok := by
  unfold Digest.qopParams Digest.ncText Digest.cnonceText
  split_ifs with hne hfold
  · obtain ⟨nameQop, nameNc, nameCnonce, -⟩ := isName_rest
    simp only [List.forall_mem_cons]
    exact ⟨.token nameQop (token_of_auth hfold), .token nameNc (token_hex32 _), .quoted nameCnonce hcnonce,
      fun _ h => nomatch h⟩
  · rcases hqop with hqop | hqop
    · exact absurd hqop hne
    · exact absurd hqop hfold
  · exact fun _ h => nomatch h

/-- What is read of the parameters that every header has. -/
theorem fields_of_base {response : Bytes} {params l : List (Bytes × Bytes)}
    (hparams : params = (d.baseParams url response).map Param.pair ++ l) :
    field params "username" = some d.username ∧ field params "realm" = some d.realm ∧
      field params "nonce" = some d.nonce ∧ field params "uri" = some url ∧
      field params "response" = some response := by
  subst hparams
  exact ⟨rfl, rfl, rfl, rfl, rfl⟩

/-- A response that is as expected, for hashes that keep their input, was computed from what the header
says. -/
theorem inner_of_expected {params l : List (Bytes × Bytes)}
    (hparams : params =
      (d.baseParams url (d.responseBy (tagged (ascii "MD5")) method url cnonce)).map Param.pair ++ l)
    (hresponse : expectedResponse tagged params method d.password = field params "response") :
    declared params = ascii "MD5" ∧
      afterNonce tagged params method url = some (d.used (tagged (ascii "MD5")) method url cnonce) := by
  obtain ⟨husername, hrealm, hnonce, huri, hfield⟩ := fields_of_base hparams
  exact tagged_inner husername hrealm hnonce huri (hresponse.trans hfield)

section
variable {params : List (Bytes × Bytes)}
  (hread : readParams (7 + (writeParams (d.sent (tagged (ascii "MD5")) method url cnonce)).length)
    (writeParams (d.sent (tagged (ascii "MD5")) method url cnonce)) = some params)
  (hresponse : expectedResponse tagged params method d.password = field params "response")
  (hbase : ∀ p ∈ d.baseParams url (d.responseBy (tagged (ascii "MD5")) method url cnonce), p.Ok)
include hread hresponse hbase

/-- A response that was computed without a quality of protection does not fit a header that names one. -/
theorem fold_of_verified (hne : d.qop ≠ []) : equalFold d.qop (ascii "auth") = true := by
  by_contra hfold
  have hrest : d.restParams d.ncText (d.cnonceText cnonce) = ⟨ascii "qop", d.qop, false⟩ ::
      (⟨ascii "nc", d.ncText, false⟩ :: ⟨ascii "cnonce", d.cnonceText cnonce, true⟩ ::
        (d.opaqueParams ++ d.algorithmParams)) := by
    rw [Digest.restParams, Digest.qopParams, if_pos hne]
    rfl
  have hnamed := named_restParams d d.ncText (d.cnonceText cnonce)
  rw [hrest] at hnamed
  rw [Digest.sent, Digest.params, hrest] at hread
  obtain ⟨v, l, hl, -⟩ := exists_name_of_readParams hbase hnamed (fuel_le _ _) hread
  have hqop : field params "qop" = some v := by
    rw [hl]
    rfl
  obtain ⟨-, hafter⟩ := inner_of_expected hl hresponse
  rw [Digest.used, if_neg hfold, tagged_md5, afterNonce, hqop] at hafter
  split at hafter
  · rename_i h _ _
    cases h
  · rename_i qop nc cnonce' _ _ _
    have hmem : 58 ∈ hexString (colon [method, url]) := by
      rw [← Option.some.inj hafter]
      simp [colon]
    exact colon_not_mem_hexString _ hmem
  · cases hafter

/-- The quality of protection that a header names is the one the response was computed with. -/
theorem auth_of_verified (hcnonce : 34 ∉ cnonce) (hfold : equalFold d.qop (ascii "auth") = true) :
    d.qop = ascii "auth" := by
  have hok : ∀ p ∈ d.baseParams url (d.responseBy (tagged (ascii "MD5")) method url cnonce) ++
      d.qopParams d.ncText (d.cnonceText cnonce), p.Ok := by
    intro p hp
    rcases List.mem_append.mp hp with hp | hp
    · exact hbase p hp
    · exact ok_qopParams (.inr hfold) hcnonce p hp
  have hnamed : ∀ p ∈ d.opaqueParams ++ d.algorithmParams, p.Named :=
    fun p hp => named_restParams d d.ncText (d.cnonceText cnonce) p (List.mem_append_right _ hp)
  rw [Digest.sent, Digest.params, Digest.restParams, ← List.append_assoc] at hread
  obtain ⟨l, hl⟩ := exists_of_readParams (by simp [Digest.baseParams]) hok hnamed (fuel_le _ _) hread
  rw [List.map_append, List.append_assoc] at hl
  obtain ⟨-, hafter⟩ := inner_of_expected hl hresponse
  have hqop : d.qopParams d.ncText (d.cnonceText cnonce) = [⟨ascii "qop", d.qop, false⟩,
      ⟨ascii "nc", hex32 ((d.nc + 1) % 2 ^ 32), false⟩, ⟨ascii "cnonce", cnonce, true⟩] := by
    rw [Digest.qopParams, if_pos (token_of_auth hfold).1, Digest.ncText, Digest.cnonceText, if_pos hfold, if_pos hfold]
  rw [hqop] at hl
  have hfields : field params "qop" = some d.qop ∧ field params "nc" = some (hex32 ((d.nc + 1) % 2 ^ 32)) ∧
      field params "cnonce" = some cnonce := by
    rw [hl]
    exact ⟨rfl, rfl, rfl⟩
  rw [Digest.used, if_pos hfold, afterNonce, hfields.1, hfields.2.1, hfields.2.2] at hafter
  have htext := Option.some.inj hafter
  rw [colon_four, colon_four] at htext
  have hnc := (List.cons.inj (List.append_cancel_left htext)).2
  have hcn := (List.cons.inj (List.append_cancel_left hnc)).2
  have hcolon : 58 ∉ d.qop := fun hmem => absurd ((token_of_auth hfold).2 58 hmem) (by decide)
  exact (append_cons_cancel hcolon (by decide) hcn).1

end

/-- The opaque text of a header that can be read has no quote. -/
theorem opaque_of_read (hd : d.Ready) {response ncStr : Bytes} (hbase : ∀ p ∈ d.baseParams url response, p.Ok)
    (hqop : ∀ p ∈ d.qopParams ncStr cnonce, p.Ok) {params : List (Bytes × Bytes)}
    (hread : readParams (7 + (writeParams (d.params url response ncStr cnonce)).length)
      (writeParams (d.params url response ncStr cnonce)) = some params) : 34 ∉ d.opaqueText := by
  by_cases hne : d.opaqueText = []
  · rw [hne]
    exact List.not_mem_nil
  · have hok : ∀ p ∈ d.baseParams url response ++ d.qopParams ncStr cnonce, p.Ok := by
      intro p hp
      rcases List.mem_append.mp hp with hp | hp
      · exact hbase p hp
      · exact hqop p hp
    have hopq : d.opaqueParams = [⟨ascii "opaque", d.opaqueText, true⟩] := if_pos hne
    have hnamed : ∀ p ∈ (⟨ascii "opaque", d.opaqueText, true⟩ : Param) :: d.algorithmParams, p.Named := by
      intro p hp
      refine named_restParams d ncStr cnonce p (List.mem_append_right _ ?_)
      rwa [hopq, List.singleton_append]
    rw [Digest.params, Digest.restParams, hopq, List.singleton_append, ← List.append_assoc] at hread
    exact quote_not_mem_of_readParams hok hnamed (fuel_le _ _) hread rfl hd.opaque_comma

/-- All parameters of a header can be read back, if those of the quality of protection can. -/
theorem ok_params (hd : d.Ready) {response ncStr : Bytes} (hbase : ∀ p ∈ d.baseParams url response, p.Ok)
    (hqop : ∀ p ∈ d.qopParams ncStr cnonce, p.Ok) (hopq : 34 ∉ d.opaqueText) :
    ∀ p ∈ d.params url response ncStr cnonce, p.Ok := by
  intro p hp
  simp only [Digest.params, Digest.restParams, List.mem_append] at hp
  rcases hp with hp | hp | hp | hp
  · exact hbase p hp
  · exact hqop p hp
  · obtain ⟨-, hp⟩ := List.mem_ite_nil_right.mp hp
    obtain rfl := List.mem_singleton.mp hp
    exact .quoted isName_rest.2.2.2.1 hopq
  · obtain ⟨hne, hp⟩ := List.mem_ite_nil_right.mp hp
    obtain rfl := List.mem_singleton.mp hp
    exact .token isName_rest.2.2.2.2 ⟨hne.1, hd.algorithm_token⟩

theorem read_params {response ncStr : Bytes} (hok : ∀ p ∈ d.params url response ncStr cnonce, p.Ok) :
    readParams (7 + (writeParams (d.params url response ncStr cnonce)).length)
      (writeParams (d.params url response ncStr cnonce)) =
      some ((d.params url response ncStr cnonce).map Param.pair) := by
  refine readParams_writeParams ?_ hok ?_
  · simp [Digest.params, Digest.baseParams]
  · have hlen := length_le_writeParams (d.params url response ncStr cnonce)
    omega

/-- The algorithm that such a header declares. -/
theorem declared_params (d : Digest) (url response ncStr cnonce : Bytes) :
    declared ((d.params url response ncStr cnonce).map Param.pair) =
      if d.algorithm ≠ [] ∧ equalFold d.algorithm (ascii "MD5") = false then d.algorithm else ascii "MD5" := by
  unfold Digest.params Digest.restParams Digest.qopParams Digest.opaqueParams Digest.algorithmParams
  split_ifs <;> rfl

/-- What the header says of the quality of protection. -/
theorem qop_params (d : Digest) (url response ncStr cnonce : Bytes) :
    field ((d.params url response ncStr cnonce).map Param.pair) "qop" = (if d.qop ≠ [] then some d.qop else none) ∧
    field ((d.params url response ncStr cnonce).map Param.pair) "nc" = (if d.qop ≠ [] then some ncStr else none) ∧
    field ((d.params url response ncStr cnonce).map Param.pair) "cnonce" =
      (if d.qop ≠ [] then some cnonce else none) := by
  unfold Digest.params Digest.restParams Digest.qopParams Digest.opaqueParams Digest.algorithmParams
  split_ifs <;> exact ⟨rfl, rfl, rfl⟩

theorem hashOf_md5 (h : Hashes) : hashOf h (ascii "MD5") = h (ascii "MD5") := rfl

/-- With a quality of protection that is none or `auth`, the header says what the response was computed
from. -/
theorem afterNonce_params (h : Hashes) (hqop : d.qop = [] ∨ d.qop = ascii "auth")
    (hdeclared : declared ((d.sent (h (ascii "MD5")) method url cnonce).map Param.pair) = ascii "MD5") :
    afterNonce h ((d.sent (h (ascii "MD5")) method url cnonce).map Param.pair) method url =
      some (d.used (h (ascii "MD5")) method url cnonce) := by
  obtain ⟨hq, hnc, hcn⟩ := qop_params d url (d.responseBy (h (ascii "MD5")) method url cnonce) d.ncText
    (d.cnonceText cnonce)
  rw [← Digest.sent] at hq hnc hcn
  rw [afterNonce, hq, hnc, hcn, hdeclared, hashOf_md5, Digest.used, Digest.ncText, Digest.cnonceText]
  rcases hqop with hqop | hqop
  · rw [hqop]
    rfl
  · have ha2 : a2Text h ((d.sent (h (ascii "MD5")) method url cnonce).map Param.pair) (ascii "auth") method url =
        colon [method, url] := if_neg (by decide)
    rw [hqop]
    simp only [show ascii "auth" ≠ [] by decide, ne_eq, not_false_eq_true, if_true, ha2,
      show equalFold (ascii "auth") (ascii "auth") = true by decide]

/-- The response of a header that declares no algorithm but MD5, with a quality of protection that is
none or `auth`, is as expected. -/
theorem expected_params (h : Hashes) (hqop : d.qop = [] ∨ d.qop = ascii "auth")
    (halg : d.algorithm = [] ∨ equalFold d.algorithm (ascii "MD5") = true) :
    expectedResponse h ((d.sent (h (ascii "MD5")) method url cnonce).map Param.pair) method d.password =
      some (d.responseBy (h (ascii "MD5")) method url cnonce) := by
  have hbase : (d.sent (h (ascii "MD5")) method url cnonce).map Param.pair =
      (d.baseParams url (d.responseBy (h (ascii "MD5")) method url cnonce)).map Param.pair ++
        (d.restParams d.ncText (d.cnonceText cnonce)).map Param.pair := List.map_append
  obtain ⟨husername, hrealm, hnonce, huri, -⟩ := fields_of_base hbase
  have hdeclared : declared ((d.sent (h (ascii "MD5")) method url cnonce).map Param.pair) = ascii "MD5" := by
    rw [Digest.sent, declared_params]
    refine if_neg fun hne => ?_
    rcases halg with halg | halg
    · exact hne.1 halg
    · exact absurd (halg.symm.trans hne.2) (by decide)
  have ha1 : a1Text h ((d.sent (h (ascii "MD5")) method url cnonce).map Param.pair)
      (colon [d.username, d.realm, d.password]) d.nonce = some (colon [d.username, d.realm, d.password]) := by
    rw [a1Text, hdeclared]
    rfl
  rw [expectedResponse, husername, hrealm, hnonce, huri]
  simp only [Option.bind_eq_bind, Option.bind_some, ha1, afterNonce_params h hqop hdeclared, hdeclared, hashOf_md5]
  rfl

end

/-- A digest's header is verifiable exactly when its quality of protection is none or `auth`, its
algorithm MD5, and there is no quote in its nonce, its opaque text or the URL. -/
theorem Digest.Ready.verifiable_iff_fields {d : Digest} (hd : d.Ready) {method url cnonce : Bytes}
    (hcnonce : 34 ∉ cnonce) : Verifiable d method url cnonce ↔
      (d.qop = [] ∨ d.qop = ascii "auth") ∧ (d.algorithm = [] ∨ equalFold d.algorithm (ascii "MD5") = true) ∧
        34 ∉ d.nonce ∧ 34 ∉ d.opaqueText ∧ 34 ∉ url := by
  constructor
  · intro hverifiable
    obtain ⟨value, hvalue, hverifies⟩ := hverifiable tagged quote_not_mem_tagged
    rw [createAuthenticatorStrBy_eq hd.realm hd.credentials hd.nonce, Option.some.injEq] at hvalue
    rw [← hvalue] at hverifies
    obtain ⟨params, hread, huri, response, hfield, hresponse⟩ := verifies_iff.mp hverifies
    have hexpected := hresponse.trans hfield.symm
    have hnonce : 34 ∉ d.nonce := nonce_of_read hread hd
    obtain ⟨uri, huri', hquote⟩ := uri_of_read hread hd hnonce
    have hurl : 34 ∉ url := by rwa [← Option.some.inj (huri'.symm.trans huri)]
    have hbase := ok_baseParams hd hnonce hurl
      (quote_not_mem_tagged (ascii "MD5") _ : 34 ∉ d.responseBy (tagged (ascii "MD5")) method url cnonce)
    have hqop : d.qop = [] ∨ d.qop = ascii "auth" := by
      by_cases hne : d.qop = []
      · exact .inl hne
      · exact .inr (auth_of_verified hread hexpected hbase hcnonce (fold_of_verified hread hexpected hbase hne))
    have hokqop := ok_qopParams (hqop.imp_right fold_of_eq) hcnonce
    have hopq := opaque_of_read hd hbase hokqop hread
    refine ⟨hqop, ?_, hnonce, hopq, hurl⟩
    have hparams := Option.some.inj (hread.symm.trans (read_params (ok_params hd hbase hokqop hopq)))
    obtain ⟨hdeclared, -⟩ := inner_of_expected (hparams.trans List.map_append) hexpected
    rw [hparams, declared_params] at hdeclared
    by_contra halg
    rw [not_or, Bool.not_eq_true] at halg
    rw [if_pos halg] at hdeclared
    rw [hdeclared] at halg
    exact absurd halg.2 (by decide)
  · rintro ⟨hqop, halg, hnonce, hopq, hurl⟩ h hh
    refine ⟨_, createAuthenticatorStrBy_eq hd.realm hd.credentials hd.nonce, verifies_iff.mpr ?_⟩
    have hbase := ok_baseParams hd hnonce hurl
      (hh (ascii "MD5") _ : 34 ∉ d.responseBy (h (ascii "MD5")) method url cnonce)
    have hokqop := ok_qopParams (hqop.imp_right fold_of_eq) hcnonce
    obtain ⟨-, -, -, huri, hfield⟩ := fields_of_base
      (List.map_append : (d.sent (h (ascii "MD5")) method url cnonce).map Param.pair = _)
    exact ⟨_, read_params (ok_params hd hbase hokqop hopq), huri, _, hfield, expected_params h hqop halg⟩

/-! ### After a challenge -/

/-- A search finds what the pattern matches somewhere. -/
theorem exists_of_search {β : Type} {m : Bytes → Option β} {s : Bytes} {b : β} (h : search m s = some b) :
    ∃ t, m t = some b := by
  induction s with
  | nil => exact ⟨[], h⟩
  | cons c s ih =>
    rw [search] at h
    cases hm : m (c :: s) with
    | some b' =>
      rw [hm] at h
      exact ⟨c :: s, hm.trans h⟩
    | none =>
      rw [hm] at h
      exact ih h

theorem quote_not_mem_of_matchQuoted {name s v : Bytes} (h : matchQuoted name s = some v) : 34 ∉ v := by
  obtain ⟨rest, -, hv⟩ := Option.bind_eq_some_iff.mp h
  obtain ⟨-, hv⟩ := Option.ite_none_right_eq_some.mp hv
  cases hv
  intro hmem
  exact absurd (List.mem_takeWhile_imp hmem) (by decide)

theorem comma_not_mem_of_matchUnquoted {name s v : Bytes} (h : matchUnquoted name s = some v) : 44 ∉ v := by
  obtain ⟨rest, -, hv⟩ := Option.bind_eq_some_iff.mp h
  obtain ⟨-, hv⟩ := Option.ite_none_left_eq_some.mp hv
  cases hv
  intro hmem
  exact absurd (List.mem_takeWhile_imp hmem) (by decide)

/-- A parameter with a quote in it stood without quotes, and has no comma. -/
theorem comma_of_quote {name s : Bytes} (hquote : 34 ∈ extractParam name s) : 44 ∉ extractParam name s := by
  unfold extractParam at hquote ⊢
  cases hq : search (matchQuoted name) s with
  | some v =>
    obtain ⟨t, ht⟩ := exists_of_search hq
    rw [hq] at hquote
    exact absurd hquote (quote_not_mem_of_matchQuoted ht)
  | none =>
    cases hu : search (matchUnquoted name) s with
    | none => exact List.not_mem_nil
    | some v =>
      obtain ⟨t, ht⟩ := exists_of_search hu
      exact comma_not_mem_of_matchUnquoted ht

/-- The quality of protection that a challenge offers is none or `auth`, or it offers a list with `auth`
in it. -/
def OffersAuth (qop : Bytes) : Prop :=
  qop = [] ∨ qop = ascii "auth" ∨ 44 ∈ qop ∧ ∃ part ∈ qop.splitOn 44, trimSpace part = ascii "auth"

theorem chooseQop_iff (qop : Bytes) : (chooseQop qop = [] ∨ chooseQop qop = ascii "auth") ↔ OffersAuth qop := by
  have hany : ((qop.splitOn 44).any fun part => trimSpace part == ascii "auth") = true ↔
      ∃ part ∈ qop.splitOn 44, trimSpace part = ascii "auth" := by simp
  rw [OffersAuth, ← hany, chooseQop]
  split_ifs with h
  · simp [h]
  · tauto

/-- The algorithm of a challenge, which is MD5 if it names none. -/
def algorithmOf (algorithm : Bytes) : Bytes := if algorithm = [] then ascii "MD5" else algorithm

theorem handleAuthenticationFailure_digest {d : Digest} {paramsStr : Bytes} (hcred : d.hasCredentials = true)
    (hdigest : (parseWWWAuthenticate paramsStr).isDigest = true) :
    d.handleAuthenticationFailure paramsStr =
      ({ d with realm := extractParam (ascii "realm") paramsStr
                nonce := extractParam (ascii "nonce") paramsStr
                qop := chooseQop (extractParam (ascii "qop") paramsStr)
                opaqueText := extractParam (ascii "opaque") paramsStr
                algorithm := algorithmOf (extractParam (ascii "algorithm") paramsStr)
                nc := 0 }, true) := by
  have hne : paramsStr ≠ [] := by
    rintro rfl
    cases hdigest
  have hparse : parseWWWAuthenticate paramsStr =
      ⟨extractParam (ascii "realm") paramsStr, extractParam (ascii "nonce") paramsStr,
        chooseQop (extractParam (ascii "qop") paramsStr), extractParam (ascii "opaque") paramsStr,
        algorithmOf (extractParam (ascii "algorithm") paramsStr), true⟩ := by
    unfold parseWWWAuthenticate at hdigest ⊢
    split_ifs at hdigest ⊢
    rfl
  rw [Digest.handleAuthenticationFailure, if_neg (by simp [hne, hcred]), hparse]
  rfl

theorem algorithmOf_iff (algorithm : Bytes) :
    (algorithmOf algorithm = [] ∨ equalFold (algorithmOf algorithm) (ascii "MD5") = true) ↔
      algorithm = [] ∨ equalFold algorithm (ascii "MD5") = true := by
  unfold algorithmOf
  split_ifs with h
  · simp [h, show equalFold (ascii "MD5") (ascii "MD5") = true by decide]
  · simp [h]

/-- **The header for a challenge is verifiable exactly when** the challenge offers no quality of
protection, or `auth`; names no algorithm but MD5; and no quote stands in its nonce, in its opaque text
or in the URL. -/
theorem verifiable_iff (d : Digest) (paramsStr : Bytes) (hcred : d.hasCredentials = true) (huser : 34 ∉ d.username)
    (hdigest : (parseWWWAuthenticate paramsStr).isDigest = true)
    (hnonce : extractParam (ascii "nonce") paramsStr ≠ []) (hrealm : extractParam (ascii "realm") paramsStr ≠ [])
    (hrealmq : 34 ∉ extractParam (ascii "realm") paramsStr)
    (halgorithm : ∀ c ∈ extractParam (ascii "algorithm") paramsStr, isTokenByte c = true) (nc : ℕ)
    (method url cnonce : Bytes) (hcnonce : 34 ∉ cnonce) :
    (d.handleAuthenticationFailure paramsStr).2 = true ∧
    (Verifiable { (d.handleAuthenticationFailure paramsStr).1 with nc := nc } method url cnonce ↔
      OffersAuth (extractParam (ascii "qop") paramsStr) ∧
        (extractParam (ascii "algorithm") paramsStr = [] ∨
          equalFold (extractParam (ascii "algorithm") paramsStr) (ascii "MD5") = true) ∧
        34 ∉ extractParam (ascii "nonce") paramsStr ∧ 34 ∉ extractParam (ascii "opaque") paramsStr ∧ 34 ∉ url) := by
  have htoken : ∀ c ∈ algorithmOf (extractParam (ascii "algorithm") paramsStr), isTokenByte c = true := by
    unfold algorithmOf
    split_ifs
    · decide
    · exact halgorithm
  rw [handleAuthenticationFailure_digest hcred hdigest]
  refine ⟨rfl, Iff.trans (Digest.Ready.verifiable_iff_fields ?_ hcnonce) ?_⟩
  · exact ⟨hcred, hrealm, hnonce, huser, hrealmq, comma_of_quote, comma_of_quote, htoken⟩
  · exact and_congr (chooseQop_iff _) (and_congr (algorithmOf_iff _) Iff.rfl)

/-- A user of the camera. -/
def admin : Digest := ⟨[], [], ascii "admin", ascii "secret", [], [], [], 0⟩

/-- A list of values with `auth` in it. -/
theorem verifiable_iff_list :
    Verifiable (admin.handleAuthenticationFailure
        (ascii "Digest realm=\"cam\", nonce=\"abc\", qop=\"auth-int, auth\"")).1
      (ascii "OPTIONS") (ascii "rtsp://cam/live") (ascii "0011223344556677") :=
  (verifiable_iff admin (ascii "Digest realm=\"cam\", nonce=\"abc\", qop=\"auth-int, auth\"") (by decide) (by decide)
    (by decide +kernel) (by decide +kernel) (by decide +kernel) (by decide +kernel) (by decide +kernel) 0
    (ascii "OPTIONS") (ascii "rtsp://cam/live") (ascii "0011223344556677") (by decide)).2.mpr
      ⟨.inr (.inr (by decide +kernel)), .inl (by decide +kernel), by decide +kernel, by decide +kernel, by decide⟩

/-- A challenge that offers only `auth-int`, one that offers `AUTH`, and one that asks for another
algorithm: the header does not fit. -/
theorem not_verifiable_auth_int :
    (∀ qop ∈ [ascii "auth-int", ascii "AUTH"], ¬ Verifiable (admin.handleAuthenticationFailure
        (ascii "Digest realm=\"cam\", nonce=\"abc\", qop=\"" ++ (qop ++ ascii "\""))).1
      (ascii "OPTIONS") (ascii "rtsp://cam/live") (ascii "0011223344556677")) ∧
    ¬ Verifiable (admin.handleAuthenticationFailure
        (ascii "Digest realm=\"cam\", nonce=\"abc\", algorithm=SHA-256")).1
      (ascii "OPTIONS") (ascii "rtsp://cam/live") (ascii "0011223344556677") := by
  have hnot : ∀ d : Digest, ((d.createAuthenticatorStrBy (tagged (ascii "MD5")) (ascii "OPTIONS")
        (ascii "rtsp://cam/live") (ascii "0011223344556677")).2.all fun value =>
        !verifies tagged (ascii "OPTIONS") (ascii "rtsp://cam/live") d.password value) = true →
      ¬ Verifiable d (ascii "OPTIONS") (ascii "rtsp://cam/live") (ascii "0011223344556677") := by
    intro d hall hverifiable
    obtain ⟨value, hvalue, hverifies⟩ := hverifiable tagged quote_not_mem_tagged
    rw [hvalue, Option.all_some, hverifies] at hall
    cases hall
  refine ⟨fun qop hqop => hnot _ ?_, hnot _ (by decide +kernel)⟩
  revert qop
  decide +kernel

end RtspProxy.Upstream
