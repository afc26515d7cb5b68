import RtspProxy.Downstream.Client
import RtspProxy.Downstream.StreamManager
import RtspProxy.Upstream.Metadata

/-!
# Which camera a client's URL names

A client asks for `rtsp://proxy[:proxyport]/rtsp/[login:password@]host:port/path[?query]`. The URL is
rewritten by a regular expression (`targetURL`), parsed, taken apart a second time by path segments and
by `@` (`Client.resolve`), and the stream puts the URL of its DESCRIBE together from what is left.

A path that itself begins with `rtsp/` is taken apart twice, so that its second segment becomes the
host. Only a proxy named by an IPv6 literal is spared: the regular expression does not match its URL,
and the path segments are looked at for the first time in `resolve`. And no step keeps the query.

## The model

A `ProxyURL` is a URL of that form: login, password, host and query consist of letters, digits
and the signs that are never escaped, the path of such segments. What `net/url` does is asked only of
URLs of a plain form (`URLText`): if it accepts one, it splits it as documented (`SplitsURLs`), and it
prints one without user and query as it stands (`PrintsURLs`).

## What is proved

* `targetURL_name`, `targetURL_literal` — what the regular expression makes of the URL.
* `splits_parseRtspURL` — a parser that splits as documented.
* `resolves_iff` — **the first request of a client leads to the camera it names exactly when there is no
  query and, unless the proxy is an IPv6 literal, the path does not begin with `rtsp/` and the request is
  no OPTIONS of the empty path.**
-/

namespace RtspProxy.Downstream

open Theory Wire
open Upstream (getURL cameraURL)

/-! ### URLs of a plain form -/

/-- A character that is never escaped in a URL. -/
def isUnreserved (c : UInt8) : Bool :=
  (65 ≤ c && c ≤ 90) || (97 ≤ c && c ≤ 122) || isDigit c || c == 45 || c == 46 || c == 95 || c == 126

/-- A text of unreserved characters. -/
abbrev Plain := { s : Bytes // ∀ c ∈ s, isUnreserved c = true }

/-- A decimal number. -/
abbrev Number := { s : Bytes // s ≠ [] ∧ ∀ c ∈ s, isDigit c = true }

theorem Plain.not_mem (s : Plain) {c : UInt8} (h : isUnreserved c = false) : c ∉ s.val :=
  fun hc => by simp [s.property c hc] at h

theorem Number.not_mem (n : Number) {c : UInt8} (h : isDigit c = false) : c ∉ n.val :=
  fun hc => by simp [n.property.2 c hc] at h

/-- `login:password@`. -/
def userinfo : Option (Plain × Plain) → Bytes
  | some (login, password) => login.val ++ 58 :: (password.val ++ [64])
  | none => []

/-- `?query`. -/
def queryText : Option Plain → Bytes
  | some query => 63 :: query.val
  | none => []

/-- A URL `rtsp://[login:password@]host/path[?query]`, the host with its port. -/
structure URLText where
  /-- Login and password. -/
  user : Option (Plain × Plain)
  /-- The host, with its port. -/
  host : Bytes
  /-- The path, without its first slash. -/
  path : Bytes
  query : Option Plain
  /-- The host is a name or an address. -/
  host_clean : ∀ c ∈ host, (isUnreserved c || c == 58 || c == 91 || c == 93) = true
  /-- The path needs no escape. -/
  path_clean : ∀ c ∈ path, (isUnreserved c || c == 47 || c == 58 || c == 64) = true

/-- Its text. -/
def URLText.text (t : URLText) : Bytes :=
  ascii "rtsp://" ++ (userinfo t.user ++ (t.host ++ 47 :: (t.path ++ queryText t.query)))

/-- Its parts. -/
def URLText.url (t : URLText) : URL :=
  ⟨(t.user.map fun u => u.1.val).getD [], (t.user.map fun u => u.2.val).getD [], t.host, 47 :: t.path⟩

/-- `url.Parse` splits what it accepts as documented. -/
def SplitsURLs (parse : Bytes → Option URL) : Prop := ∀ (t : URLText) (url : URL), parse t.text = some url → url = t.url

/-- `URL.String` prints as documented. -/
def PrintsURLs (print : URL → Bytes) : Prop := ∀ t : URLText, t.user = none → t.query = none → print t.url = t.text

/-- A parser that splits as documented. -/
def parseRtspURL (s : Bytes) : Option URL :=
  if ascii "rtsp://" <+: s then
    match cut 47 (cut 63 (s.drop 7)).1 with
    | (authority, some path) =>
      match cut 64 authority with
      | (user, some host) => some ⟨(cut 58 user).1, (cut 58 user).2.getD [], host, 47 :: path⟩
      | (host, none) => some ⟨[], [], host, 47 :: path⟩
    | (_, none) => none
  else none

theorem userinfo_clean (user : Option (Plain × Plain)) :
    ∀ c ∈ userinfo user, (isUnreserved c || c == 58 || c == 64) = true := by
  intro c hc
  cases user with
  | none => cases hc
  | some u =>
    simp only [userinfo, List.mem_append, List.mem_cons, List.not_mem_nil, or_false] at hc
    rcases hc with hc | rfl | hc | rfl
    · simp [u.1.property c hc]
    · rfl
    · simp [u.2.property c hc]
    · rfl

theorem userinfo_not_mem (user : Option (Plain × Plain)) {c : UInt8}
    (h : (isUnreserved c || c == 58 || c == 64) = false) : c ∉ userinfo user :=
  fun hc => by simp [userinfo_clean user c hc] at h

theorem URLText.host_not_mem (t : URLText) {c : UInt8}
    (h : (isUnreserved c || c == 58 || c == 91 || c == 93) = false) : c ∉ t.host :=
  fun hc => by simp [t.host_clean c hc] at h

theorem URLText.path_not_mem (t : URLText) {c : UInt8}
    (h : (isUnreserved c || c == 47 || c == 58 || c == 64) = false) : c ∉ t.path :=
  fun hc => by simp [t.path_clean c hc] at h

theorem cut_queryText {s : Bytes} (h : 63 ∉ s) (query : Option Plain) : (cut 63 (s ++ queryText query)).1 = s := by
  cases query with
  | none => rw [queryText, List.append_nil, cut_of_not_mem h]
  | some query => rw [queryText, cut_append h]

theorem splits_parseRtspURL : SplitsURLs parseRtspURL := by
  intro t url h
  have hauth : (cut 63 (t.text.drop 7)).1 = userinfo t.user ++ t.host ++ 47 :: t.path := by
    have htext : t.text.drop 7 = (userinfo t.user ++ t.host ++ 47 :: t.path) ++ queryText t.query := by
      simp [URLText.text, ascii]
    rw [htext]
    refine cut_queryText ?_ t.query
    simp [userinfo_not_mem t.user (c := 63) rfl, t.host_not_mem (c := 63) rfl,
      t.path_not_mem (c := 63) rfl]
  have h47 : 47 ∉ userinfo t.user ++ t.host := by
    simp [userinfo_not_mem t.user (c := 47) rfl, t.host_not_mem (c := 47) rfl]
  rw [parseRtspURL, if_pos ⟨_, rfl⟩, hauth, cut_append h47] at h
  cases hu : t.user with
  | none =>
    simp only [hu, userinfo, List.nil_append, cut_of_not_mem (t.host_not_mem (c := 64) rfl)] at h
    cases h
    simp [URLText.url, hu]
  | some u =>
    have h64 : 64 ∉ u.1.val ++ 58 :: u.2.val := by
      simp [u.1.not_mem (c := 64) rfl, u.2.not_mem (c := 64) rfl]
    have hui : userinfo (some u) ++ t.host = (u.1.val ++ 58 :: u.2.val) ++ 64 :: t.host := by simp [userinfo]
    simp only [hu, hui, cut_append h64, cut_append (u.1.not_mem (c := 58) rfl)] at h
    cases h
    simp [URLText.url, hu]

/-! ### The URL that a client asks for -/

/-- How a URL names the proxy. -/
inductive ProxyHost where
  /-- By a name or an IPv4 address. -/
  | name (s : Plain) (ne : s.val ≠ [])
  /-- By an IPv6 address, in brackets. -/
  | literal (s : Bytes) (clean : ∀ c ∈ s, (isUnreserved c || c == 58) = true) (colon : 58 ∈ s)

/-- Its text. -/
def ProxyHost.text : ProxyHost → Bytes
  | .name s _ => s.val
  | .literal s _ _ => 91 :: (s ++ [93])

/-- It is a name or an IPv4 address. -/
def ProxyHost.isName : ProxyHost → Bool
  | .name _ _ => true
  | .literal _ _ _ => false

/-- `:port`. -/
def portText : Option Number → Bytes
  | some port => 58 :: port.val
  | none => []

theorem ProxyHost.text_clean (p : ProxyHost) :
    ∀ c ∈ p.text, (isUnreserved c || c == 58 || c == 91 || c == 93) = true := by
  intro c hc
  cases p with
  | name s ne => simp [s.property c hc]
  | literal s clean colon =>
    simp only [ProxyHost.text, List.mem_cons, List.mem_append, List.not_mem_nil, or_false] at hc
    rcases hc with rfl | hc | rfl
    · rfl
    · simp [clean c hc]
    · rfl

theorem portText_clean (port : Option Number) : ∀ c ∈ portText port, (isUnreserved c || c == 58) = true := by
  intro c hc
  cases port with
  | none => cases hc
  | some port =>
    rcases List.mem_cons.mp hc with rfl | hc
    · rfl
    · simp [isUnreserved, port.property.2 c hc]

/-- `rtsp://proxy[:proxyport]/rtsp/[login:password@]host:port/path[?query]`. -/
structure ProxyURL where
  proxy : ProxyHost
  proxyPort : Option Number
  /-- Login and password. -/
  user : Option (Plain × Plain)
  /-- The camera's host. -/
  host : Plain
  port : Number
  /-- The path, without its first slash. -/
  path : Bytes
  query : Option Plain
  /-- The path consists of plain segments. -/
  path_clean : ∀ c ∈ path, (isUnreserved c || c == 47) = true

namespace ProxyURL
variable (u : ProxyURL)

/-- `host:port`. -/
def hostPort : Bytes := u.host.val ++ 58 :: u.port.val

/-- `[login:password@]host:port/path[?query]`. -/
def rest : Bytes := userinfo u.user ++ (u.hostPort ++ 47 :: (u.path ++ queryText u.query))

/-- Its text. -/
def text : Bytes := ascii "rtsp://" ++ (u.proxy.text ++ (portText u.proxyPort ++ (ascii "/rtsp/" ++ u.rest)))

/-- `rtsp://host:port/path[?query]`, without the port 554. -/
def cameraText : Bytes :=
  ascii "rtsp://" ++ ((if u.port.val = ascii "554" then u.host.val else u.hostPort) ++
    47 :: (u.path ++ queryText u.query))

theorem hostPort_clean : ∀ c ∈ u.hostPort, (isUnreserved c || c == 58 || c == 91 || c == 93) = true := by
  intro c hc
  rcases List.mem_append.mp hc with hc | hc
  · simp [u.host.property c hc]
  · rcases List.mem_cons.mp hc with rfl | hc
    · rfl
    · simp [isUnreserved, u.port.property.2 c hc]

theorem hostPort_not_mem {c : UInt8} (h : (isUnreserved c || c == 58 || c == 91 || c == 93) = false) :
    c ∉ u.hostPort :=
  fun hc => by simp [u.hostPort_clean c hc] at h

/-- The URL that the regular expression makes of it, if it matches. -/
def direct : URLText where
  user := u.user
  host := u.hostPort
  path := u.path
  query := u.query
  host_clean := u.hostPort_clean
  path_clean c hc := by
    have h := u.path_clean c hc
    simp only [Bool.or_eq_true] at h ⊢
    tauto

/-- The URL of the proxy that it is. -/
def indirect : URLText where
  user := none
  host := u.proxy.text ++ portText u.proxyPort
  path := ascii "rtsp/" ++ (userinfo u.user ++ (u.hostPort ++ 47 :: u.path))
  query := u.query
  host_clean c hc := by
    rcases List.mem_append.mp hc with hc | hc
    · have h := u.proxy.text_clean c hc
      simp only [Bool.or_eq_true] at h ⊢
      tauto
    · have h := portText_clean u.proxyPort c hc
      simp only [Bool.or_eq_true] at h ⊢
      tauto
  path_clean c hc := by
    simp only [List.mem_append, List.mem_cons] at hc
    rcases hc with hc | hc | hc | rfl | hc
    · revert c
      decide
    · have h := userinfo_clean u.user c hc
      simp only [Bool.or_eq_true] at h ⊢
      tauto
    · simp only [hostPort, List.mem_append, List.mem_cons] at hc
      rcases hc with hc | rfl | hc
      · simp [u.host.property c hc]
      · rfl
      · simp [isUnreserved, u.port.property.2 c hc]
    · rfl
    · have h := u.path_clean c hc
      simp only [Bool.or_eq_true] at h ⊢
      tauto

theorem text_indirect : u.text = u.indirect.text := by
  simp [text, rest, indirect, URLText.text, userinfo, ascii]

end ProxyURL

/-! ### The regular expression -/

theorem skipPort_colon {c : UInt8} (hc : c ≠ 58) (s : Bytes) : skipPort (58 :: c :: s) = skipDigits (c :: s) := by
  unfold skipPort
  split
  · rename_i heq
    cases heq
    exact absurd rfl hc
  · rename_i heq
    cases heq
    rfl
  · rename_i h
    exact absurd rfl (h _)

theorem skipDigits_append {n s : Bytes} (hne : n ≠ []) (hn : ∀ c ∈ n, isDigit c = true) :
    skipDigits (n ++ 47 :: s) = some (47 :: s) := by
  have htake : (n ++ 47 :: s).takeWhile isDigit = n := by
    rw [List.takeWhile_append_of_pos hn]
    simp [isDigit]
  have hdrop : (n ++ 47 :: s).dropWhile isDigit = 47 :: s := by
    rw [List.dropWhile_append_of_pos hn]
    simp [isDigit]
  rw [skipDigits, htake, hdrop, if_neg hne]

theorem skipPort_portText (port : Option Number) (s : Bytes) :
    skipPort (portText port ++ 47 :: s) = some (47 :: s) := by
  cases port with
  | none => rfl
  | some port =>
    obtain ⟨n, hne, hn⟩ := port
    cases n with
    | nil => exact absurd rfl hne
    | cons d n =>
      have hd : d ≠ 58 := by
        rintro rfl
        exact absurd (hn 58 List.mem_cons_self) (by decide)
      exact (skipPort_colon hd _).trans (skipDigits_append hne hn)

/-- The regular expression, once it is known where the host of the proxy ends for it. -/
theorem proxyForm_append {name s : Bytes} {c : UInt8} (hne : name ≠ [])
    (hname : ∀ c ∈ name, (c != 58 && c != 47) = true) (hc : c = 58 ∨ c = 47) :
    proxyForm (ascii "rtsp://" ++ (name ++ c :: s)) = match skipPort (c :: s) with
      | some s => if ascii "/rtsp/" <+: s then some (s.drop 6) else none
      | none => none := by
  have htake : (name ++ c :: s).takeWhile (fun c => c != 58 && c != 47) = name := by
    rw [List.takeWhile_append_of_pos hname]
    rcases hc with rfl | rfl <;> simp
  have hdrop : (ascii "rtsp://" ++ (name ++ c :: s)).drop 7 = name ++ c :: s := rfl
  rw [proxyForm, if_pos ⟨_, rfl⟩, hdrop]
  cases hport : skipPort (c :: s) with
  | none => simp only [htake, if_neg hne, List.drop_left, hport]
  | some s => simp only [htake, if_neg hne, List.drop_left, hport]

/-- A URL of a proxy with a name is rewritten. -/
theorem targetURL_name {u : ProxyURL} (h : u.proxy.isName = true) : targetURL u.text = u.direct.text := by
  cases hp : u.proxy with
  | literal s clean colon =>
    rw [hp] at h
    cases h
  | name s ne =>
    have hs : ∀ c ∈ s.val, (c != 58 && c != 47) = true := by
      intro c hc
      have h58 : c ≠ 58 := fun h => s.not_mem (c := 58) rfl (h ▸ hc)
      have h47 : c ≠ 47 := fun h => s.not_mem (c := 47) rfl (h ▸ hc)
      simp [h58, h47]
    have hform : proxyForm u.text = some u.rest := by
      have hskip := skipPort_portText u.proxyPort (ascii "rtsp/" ++ u.rest)
      cases hport : u.proxyPort with
      | none =>
        have htext : u.text = ascii "rtsp://" ++ (s.val ++ 47 :: (ascii "rtsp/" ++ u.rest)) := by
          rw [ProxyURL.text, hp, hport]
          rfl
        rw [htext, proxyForm_append ne hs (.inr rfl)]
        rfl
      | some port =>
        have htext : u.text = ascii "rtsp://" ++ (s.val ++ 58 :: (port.val ++ 47 :: (ascii "rtsp/" ++ u.rest))) := by
          rw [ProxyURL.text, hp, hport]
          rfl
        rw [hport, portText, List.cons_append] at hskip
        rw [htext, proxyForm_append ne hs (.inl rfl), hskip]
        rfl
    rw [targetURL, hform]
    rfl

/-- No digits of an IPv6 literal are followed by a slash. -/
theorem skipDigits_literal {l r s : Bytes} (hl : 47 ∉ l) (h : skipDigits (l ++ 93 :: r) = some s) :
    ¬ ascii "/rtsp/" <+: s := by
  have hdrop : (l ++ 93 :: r).dropWhile isDigit = l.dropWhile isDigit ++ 93 :: r := by
    rw [List.dropWhile_append]
    split_ifs with hempty
    · rw [List.isEmpty_iff.mp hempty]
      rfl
    · rfl
  have hs : s = l.dropWhile isDigit ++ 93 :: r := by
    rw [skipDigits, hdrop] at h
    exact (Option.some.inj (Option.ite_none_left_eq_some.mp h).2).symm
  have h47 : 47 ∉ l.dropWhile isDigit := fun hmem => hl ((List.dropWhile_suffix isDigit).subset hmem)
  rintro ⟨t, ht⟩
  rw [hs] at ht
  cases hd : l.dropWhile isDigit with
  | nil =>
    rw [hd] at ht
    simp [ascii] at ht
  | cons c d =>
    rw [hd] at ht h47
    simp [ascii] at ht h47
    exact h47.1 ht.1

theorem skipPort_literal {l r s : Bytes} (hl : 47 ∉ l) (h : skipPort (58 :: (l ++ 93 :: r)) = some s) :
    ¬ ascii "/rtsp/" <+: s := by
  cases l with
  | nil => exact skipDigits_literal (l := []) hl ((skipPort_colon (by decide) r).symm.trans h)
  | cons c l =>
    by_cases hc : c = 58
    · subst hc
      exact skipDigits_literal (fun hmem => hl (List.mem_cons_of_mem _ hmem)) h
    · exact skipDigits_literal (l := c :: l) hl ((skipPort_colon hc _).symm.trans h)

/-- A URL of a proxy that is an IPv6 literal is left as it is. -/
theorem targetURL_literal {u : ProxyURL} (h : u.proxy.isName = false) : targetURL u.text = u.indirect.text := by
  cases hp : u.proxy with
  | name s ne =>
    rw [hp] at h
    cases h
  | literal s clean colon =>
    obtain ⟨l, l', hs, hl⟩ := exists_first colon
    have h47 : 47 ∉ s := fun hmem => absurd (clean 47 hmem) (by decide)
    rw [hs, List.mem_append, List.mem_cons, not_or, not_or] at h47
    have htext : u.text = ascii "rtsp://" ++ ((91 :: l) ++ 58 :: (l' ++ 93 :: (portText u.proxyPort ++
        (ascii "/rtsp/" ++ u.rest)))) := by
      rw [ProxyURL.text, hp, ProxyHost.text, hs]
      simp
    have hname : ∀ c ∈ (91 :: l : Bytes), (c != 58 && c != 47) = true := by
      intro c hc
      rcases List.mem_cons.mp hc with rfl | hc
      · rfl
      · have h58 : c ≠ 58 := fun h => hl (h ▸ hc)
        have h47' : c ≠ 47 := fun h => h47.1 (h ▸ hc)
        simp [h58, h47']
    have hform : proxyForm u.text = none := by
      rw [htext, proxyForm_append (List.cons_ne_nil 91 l) hname (.inl rfl)]
      cases hskip : skipPort (58 :: (l' ++ 93 :: (portText u.proxyPort ++ (ascii "/rtsp/" ++ u.rest)))) with
      | none => rfl
      | some s => exact if_neg (skipPort_literal h47.2.2 hskip)
    rw [targetURL, hform]
    exact u.text_indirect

/-! ### The path segments -/

/-- A path below `/rtsp/` names a host and a path. -/
theorem pathTarget_rtsp (rest : Bytes) :
    pathTarget (47 :: (ascii "rtsp/" ++ rest)) = some ((cut 47 rest).1, 47 :: (cut 47 rest).2.getD []) := by
  have h47 : 47 ∉ ascii "rtsp" := by decide
  have hfirst : cut 47 (ascii "rtsp/" ++ rest) = (ascii "rtsp", some rest) := cut_append h47
  unfold pathTarget
  simp only [List.head?_cons, if_true, List.drop_one, List.tail_cons, hfirst]
  cases hc : cut 47 rest with
  | mk host path => cases path <;> rfl

theorem pathTarget_other {path : Bytes} (h : ¬ ascii "rtsp/" <+: path) : pathTarget (47 :: path) = none := by
  unfold pathTarget
  simp only [List.head?_cons, if_true, List.drop_one, List.tail_cons]
  cases hc : cut 47 path with
  | mk first rest =>
    cases rest with
    | none => rfl
    | some rest =>
      refine if_neg fun hfirst => h ?_
      rw [(eq_of_cut hc).1, hfirst]
      exact ⟨rest, rfl⟩

/-! ### The client -/

/-- `GetStream` of the client's fields: the stream it makes, if there is none with their key. -/
def Client.newStream (c : Client) : Target :=
  (newStreamManager.getStream ⟨c.host, c.username, c.password, c.basePath⟩).1.2

/-- The URL of the DESCRIBE that the stream sends: `Remote.GetSDP`, and `GetURL` of its request. -/
def Target.describeURL (t : Target) : URL := getURL (cameraURL t.host t.path)

/-- The user name in the URL. -/
def ProxyURL.username (u : ProxyURL) : Bytes := (u.user.map fun l => l.1.val).getD []

/-- The password in the URL. -/
def ProxyURL.password (u : ProxyURL) : Bytes := (u.user.map fun l => l.2.val).getD []

/-- The client was led to the camera that its URL names. -/
def ResolvesTo (print : URL → Bytes) (u : ProxyURL) (resolved : Option (Client × Request)) : Prop :=
  ∃ c request, resolved = some (c, request) ∧ c.host = u.hostPort ∧ c.username = u.username ∧
    c.password = u.password ∧ print c.newStream.describeURL = u.cameraText

variable {parse : Bytes → Option URL} {print : URL → Bytes} {u : ProxyURL} {request : Request}

theorem url_of_parseCommand {line : Bytes} (h : parseCommand parse line = .ok request) :
    parse (targetURL request.rawURL) = some request.url := by
  unfold parseCommand at h
  dsimp only at h
  split_ifs at h
  split at h
  · cases h
  · rename_i hurl
    cases h
    exact hurl

/-- The URL of a request is what its rewritten text is parsed to. -/
theorem url_of_newRequest {buffer : Bytes} (h : newRequestFromBuffer parse buffer = .ok request) :
    parse (targetURL request.rawURL) = some request.url := by
  obtain ⟨command, headers, rest, hcommand, -, rfl⟩ := parseRequest_ok h
  have hurl : parse (targetURL command.rawURL) = some command.url := url_of_parseCommand hcommand
  exact hurl

theorem login_userinfo (u : ProxyURL) (c : Client) (hc : c.username = [] ∧ c.password = []) :
    c.login (userinfo u.user ++ u.hostPort) =
      { c with host := u.hostPort, username := u.username, password := u.password } := by
  unfold Client.login ProxyURL.username ProxyURL.password
  cases hu : u.user with
  | none =>
    rw [userinfo, List.nil_append, cut_of_not_mem (u.hostPort_not_mem (c := 64) rfl)]
    cases c
    obtain ⟨rfl, rfl⟩ := hc
    rfl
  | some l =>
    have h64 : 64 ∉ l.1.val ++ 58 :: l.2.val := by
      simp [l.1.not_mem (c := 64) rfl, l.2.not_mem (c := 64) rfl]
    have hui : userinfo (some l) ++ u.hostPort = (l.1.val ++ 58 :: l.2.val) ++ 64 :: u.hostPort := by simp [userinfo]
    simp only [hui, cut_append h64, cut_append (l.1.not_mem (c := 58) rfl)]
    rfl

theorem describeURL_eq {c : Client} (hhost : c.host = u.hostPort) (hpath : c.basePath = 47 :: u.path) :
    c.newStream.describeURL =
      ⟨[], [], if u.port.val = ascii "554" then u.host.val else u.hostPort, 47 :: u.path⟩ := by
  have hsplit : c.host.splitOn 58 = [u.host.val, u.port.val] := by
    rw [hhost, ProxyURL.hostPort, splitOn_append (u.host.not_mem rfl), splitOn_of_not_mem (u.port.not_mem rfl)]
  have hget : getURL (cameraURL c.host c.basePath) =
      ⟨[], [], if u.port.val = ascii "554" then u.host.val else c.host, c.basePath⟩ := by
    simp [getURL, cameraURL, hsplit]
  rw [← hhost, ← hpath, ← hget]
  rfl

/-- A stream of the camera asks for the URL that was named, except for the query. -/
theorem describeURL_iff (hprint : PrintsURLs print) {c : Client} (hhost : c.host = u.hostPort)
    (hpath : c.basePath = 47 :: u.path) : print c.newStream.describeURL = u.cameraText ↔ u.query = none := by
  have hclean : ∀ c ∈ (if u.port.val = ascii "554" then u.host.val else u.hostPort),
      (isUnreserved c || c == 58 || c == 91 || c == 93) = true := by
    split_ifs
    · intro c hc
      simp [u.host.property c hc]
    · exact u.hostPort_clean
  have htext := hprint ⟨none, _, u.path, none, hclean, u.direct.path_clean⟩ rfl rfl
  rw [describeURL_eq hhost hpath]
  refine Iff.trans (Eq.congr_left htext) ?_
  rw [ProxyURL.cameraText, URLText.text]
  cases u.query <;> simp [userinfo, queryText]

/-! ### When a request leads to the camera -/

theorem newClient_host (localAddr remoteAddr : Bytes) : ¬ (newClient localAddr remoteAddr).host ≠ [] := fun h => h rfl

/-- The path was looked at for the first time. -/
theorem resolve_indirect (localAddr remoteAddr : Bytes) (hurl : request.url = u.indirect.url) :
    ∃ request', (newClient localAddr remoteAddr).resolve request =
      some (⟨localAddr, remoteAddr, u.hostPort, 47 :: u.path, u.username, u.password⟩, request') := by
  have hcut : cut 47 (userinfo u.user ++ (u.hostPort ++ 47 :: u.path)) =
      (userinfo u.user ++ u.hostPort, some u.path) := by
    rw [← List.append_assoc]
    refine cut_append ?_
    simp [userinfo_not_mem u.user (c := 47) rfl, u.hostPort_not_mem (c := 47) rfl]
  have hpath : pathTarget request.url.path = some (userinfo u.user ++ u.hostPort, 47 :: u.path) := by
    rw [hurl]
    exact (pathTarget_rtsp _).trans (by rw [hcut]; rfl)
  refine ⟨{ request with url := { request.url with path := 47 :: u.path } }, ?_⟩
  rw [Client.resolve, if_neg (newClient_host localAddr remoteAddr)]
  simp only [hpath]
  rw [login_userinfo u _ ⟨by rw [hurl]; rfl, by rw [hurl]; rfl⟩]
  rfl

/-- The path is looked at for the second time, and begins with `rtsp/`: the host is its second
segment. -/
theorem resolve_twice (localAddr remoteAddr : Bytes) (hurl : request.url = u.direct.url)
    (htwice : ascii "rtsp/" <+: u.path) {c : Client} {request' : Request}
    (h : (newClient localAddr remoteAddr).resolve request = some (c, request')) : c.host ≠ u.hostPort := by
  obtain ⟨rest, hrest⟩ := htwice
  have hpath : pathTarget request.url.path = some ((cut 47 rest).1, 47 :: (cut 47 rest).2.getD []) := by
    rw [hurl]
    exact (congrArg pathTarget (congrArg _ hrest.symm)).trans (pathTarget_rtsp rest)
  have hclean : ∀ c ∈ (cut 47 rest).1, (isUnreserved c || c == 47) = true := by
    intro c hc
    exact u.path_clean c (hrest ▸ List.mem_append_right _ ((List.takeWhile_prefix _).subset hc))
  have h64 : 64 ∉ (cut 47 rest).1 := fun hmem => absurd (hclean 64 hmem) (by decide)
  have h58 : 58 ∉ (cut 47 rest).1 := fun hmem => absurd (hclean 58 hmem) (by decide)
  rw [Client.resolve, if_neg (newClient_host localAddr remoteAddr)] at h
  simp only [hpath, Client.login, cut_of_not_mem h64] at h
  obtain ⟨rfl, -⟩ := Prod.mk.inj (Option.some.inj h)
  intro heq
  refine h58 ?_
  rw [show (cut 47 rest).1 = u.hostPort from heq]
  simp [ProxyURL.hostPort]

/-- The path is looked at for the second time, and does not begin with `rtsp/`. -/
theorem resolve_direct (localAddr remoteAddr : Bytes) (hurl : request.url = u.direct.url)
    (htwice : ¬ ascii "rtsp/" <+: u.path) : (newClient localAddr remoteAddr).resolve request =
      if isProbe request then none
      else some (⟨localAddr, remoteAddr, u.hostPort, 47 :: u.path, u.username, u.password⟩, request) := by
  have hpath : pathTarget request.url.path = none := by
    rw [hurl]
    exact pathTarget_other htwice
  rw [Client.resolve, if_neg (newClient_host localAddr remoteAddr)]
  have hlogin : ∀ c : Client, c.login request.url.host = { c with host := u.hostPort } := by
    intro c
    rw [hurl, Client.login, show u.direct.url.host = u.hostPort from rfl,
      cut_of_not_mem (u.hostPort_not_mem (c := 64) rfl)]
  simp only [hpath, hlogin]
  rw [hurl]
  rfl

theorem isProbe_iff (hurl : request.url = u.direct.url) :
    isProbe request = true ↔ request.method = ascii "OPTIONS" ∧ u.path = [] := by
  have hpath : request.url.path = 47 :: u.path := by
    rw [hurl]
    rfl
  simp [isProbe, hpath, ascii]

/-- What the client has is what its URL names, except for the query. -/
theorem resolvesTo_iff (hprint : PrintsURLs print) {localAddr remoteAddr : Bytes} {request' : Request} :
    ResolvesTo print u (some (⟨localAddr, remoteAddr, u.hostPort, 47 :: u.path, u.username, u.password⟩, request')) ↔
      u.query = none := by
  constructor
  · rintro ⟨c, request, hres, -, -, -, htext⟩
    cases hres
    exact (describeURL_iff hprint rfl rfl).mp htext
  · intro hquery
    exact ⟨_, _, rfl, rfl, rfl, rfl, (describeURL_iff hprint rfl rfl).mpr hquery⟩

/-- **The first request of a client, with the URL `u`, leads to the camera, the login and the DESCRIBE
that `u` names exactly when `u` has no query and, unless it names the proxy by an IPv6 literal, its path
does not begin with `rtsp/` and the request is no OPTIONS of the empty path.** -/
theorem resolves_iff (hparse : SplitsURLs parse) (hprint : PrintsURLs print) (localAddr remoteAddr : Bytes)
    (u : ProxyURL) {buffer : Bytes} (hreq : newRequestFromBuffer parse buffer = .ok request)
    (hraw : request.rawURL = u.text) :
    ResolvesTo print u ((newClient localAddr remoteAddr).resolve request) ↔
      u.query = none ∧ (u.proxy.isName = true →
        ¬ ascii "rtsp/" <+: u.path ∧ ¬ (request.method = ascii "OPTIONS" ∧ u.path = [])) := by
  have hurl := url_of_newRequest hreq
  rw [hraw] at hurl
  cases hname : u.proxy.isName with
  | false =>
    rw [targetURL_literal hname] at hurl
    obtain ⟨request', hres⟩ := resolve_indirect localAddr remoteAddr (hparse _ _ hurl)
    rw [hres, resolvesTo_iff hprint]
    simp
  | true =>
    rw [targetURL_name hname] at hurl
    have hdirect := hparse _ _ hurl
    by_cases htwice : ascii "rtsp/" <+: u.path
    · refine iff_of_false ?_ fun h => (h.2 rfl).1 htwice
      rintro ⟨c, request', hres, hhost, -⟩
      exact resolve_twice localAddr remoteAddr hdirect htwice hres hhost
    · rw [resolve_direct localAddr remoteAddr hdirect htwice, ← isProbe_iff hdirect]
      cases isProbe request with
      | true =>
        refine iff_of_false ?_ fun h => (h.2 rfl).2 rfl
        rintro ⟨c, request', hres, -⟩
        cases hres
      | false =>
        rw [if_neg Bool.false_ne_true, resolvesTo_iff hprint]
        simp [htwice]

/-- `rtsp://proxy:8554/rtsp/admin:secret@cam:554/path[?query]`. -/
def cameraRequest (path : Bytes) (query : Option Plain) (h : ∀ c ∈ path, (isUnreserved c || c == 47) = true) :
    ProxyURL where
  proxy := .name ⟨ascii "proxy", by decide⟩ (by decide)
  proxyPort := some ⟨ascii "8554", by decide⟩
  user := some (⟨ascii "admin", by decide⟩, ⟨ascii "secret", by decide⟩)
  host := ⟨ascii "cam", by decide⟩
  port := ⟨ascii "554", by decide⟩
  path := path
  query := query
  path_clean := h

/-- A DESCRIBE request of a URL. -/
def describeText (u : ProxyURL) : Bytes := ascii "DESCRIBE " ++ (u.text ++ ascii " RTSP/1.0\r\n\r\n")

/-- That request. -/
def describeRequest (u : ProxyURL) (url : URL) : Request := ⟨ascii "DESCRIBE", u.text, url, ascii "RTSP/1.0", []⟩

/-- `URL.String`, of a URL that needs no escape. -/
def printRtspURL (url : URL) : Bytes := ascii "rtsp://" ++ (url.host ++ url.path)

theorem prints_printRtspURL : PrintsURLs printRtspURL := by
  intro t huser hquery
  simp [printRtspURL, URLText.url, URLText.text, huser, hquery, userinfo, queryText]

/-- `rtsp://proxy:8554/rtsp/admin:secret@cam:554/live/1`. -/
theorem resolves_iff_live :
    ResolvesTo printRtspURL (cameraRequest (ascii "live/1") none (by decide))
      ((newClient (ascii "10.0.0.1") (ascii "10.0.0.2")).resolve
        (describeRequest (cameraRequest (ascii "live/1") none (by decide))
          ⟨ascii "admin", ascii "secret", ascii "cam:554", ascii "/live/1"⟩)) := by
  have hreq : newRequestFromBuffer parseRtspURL (describeText (cameraRequest (ascii "live/1") none (by decide))) =
      .ok (describeRequest (cameraRequest (ascii "live/1") none (by decide))
        ⟨ascii "admin", ascii "secret", ascii "cam:554", ascii "/live/1"⟩) := by decide +kernel
  exact (resolves_iff splits_parseRtspURL prints_printRtspURL _ _ _ hreq rfl).mpr
    ⟨rfl, fun _ => ⟨by decide, by decide⟩⟩

/-- The path `/rtsp/x` leads to a camera `x`; and of `/live?track` the query is lost. -/
theorem resolves_to_segment :
    (∃ request c request', newRequestFromBuffer parseRtspURL
        (describeText (cameraRequest (ascii "rtsp/x") none (by decide))) = .ok request ∧
      (newClient (ascii "10.0.0.1") (ascii "10.0.0.2")).resolve request = some (c, request') ∧
      c.host = ascii "x" ∧ printRtspURL c.newStream.describeURL = ascii "rtsp://x/" ∧
      (cameraRequest (ascii "rtsp/x") none (by decide)).hostPort = ascii "cam:554" ∧
      (cameraRequest (ascii "rtsp/x") none (by decide)).cameraText = ascii "rtsp://cam/rtsp/x") ∧
    ∃ request c request', newRequestFromBuffer parseRtspURL
        (describeText (cameraRequest (ascii "live") (some ⟨ascii "track", by decide⟩) (by decide))) = .ok request ∧
      (newClient (ascii "10.0.0.1") (ascii "10.0.0.2")).resolve request = some (c, request') ∧
      printRtspURL c.newStream.describeURL = ascii "rtsp://cam/live" ∧
      (cameraRequest (ascii "live") (some ⟨ascii "track", by decide⟩) (by decide)).cameraText =
        ascii "rtsp://cam/live?track" := by
  constructor
  · refine ⟨describeRequest (cameraRequest (ascii "rtsp/x") none (by decide))
        ⟨ascii "admin", ascii "secret", ascii "cam:554", ascii "/rtsp/x"⟩,
      ⟨ascii "10.0.0.1", ascii "10.0.0.2", ascii "x", ascii "/", ascii "admin", ascii "secret"⟩,
      describeRequest (cameraRequest (ascii "rtsp/x") none (by decide))
        ⟨ascii "admin", ascii "secret", ascii "cam:554", ascii "/"⟩, ?_⟩
    decide +kernel
  · refine ⟨describeRequest (cameraRequest (ascii "live") (some ⟨ascii "track", by decide⟩) (by decide))
        ⟨ascii "admin", ascii "secret", ascii "cam:554", ascii "/live"⟩,
      ⟨ascii "10.0.0.1", ascii "10.0.0.2", ascii "cam:554", ascii "/live", ascii "admin", ascii "secret"⟩,
      describeRequest (cameraRequest (ascii "live") (some ⟨ascii "track", by decide⟩) (by decide))
        ⟨ascii "admin", ascii "secret", ascii "cam:554", ascii "/live"⟩, ?_⟩
    decide +kernel

end RtspProxy.Downstream
