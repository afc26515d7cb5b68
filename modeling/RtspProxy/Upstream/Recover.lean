import RtspProxy.Upstream.Patterns
import RtspProxy.Wire.Text

/-!
# What is recovered of a challenge

A camera writes its challenge as `Digest name=value, name="value", …`, in any order and any case of the
names. The proxy reads it through a response: the header loop drops tabs, and the blanks behind a `;`,
inside quotes too, and of what it leaves the parameters are searched for.

## The model

`CameraChallenge` is a well-formed challenge, with all that may stand between its parameters, and `received`
are its parameters as the header loop leaves them.

## What is proved

* `parseValue_itemsText` — the header loop leaves a list of parameters.
* `recovered_iff` — **realm, nonce and opaque are the camera's exactly if the parameters, as the header
  loop leaves them, show them**; it is enough that the challenge is `Plain`.
* `not_recovered` — a realm that loses a blank, and a nonce taken from `nextnonce`.
-/

namespace RtspProxy.Upstream

open Theory Wire

/-! ### What the header loop leaves of a text -/

theorem parseValue_quote (st : ValueState) (v rest : Bytes) :
    parseValue st (v ++ 34 :: rest) = parseValue st v ++ 34 :: parseValue .value rest := by
  fun_induction parseValue st v with
  | case1 st => cases st <;> rfl
  | case2 c v hc ih => rw [List.cons_append, parseValue, if_pos hc, ih]
  | case3 c v hc ih => rw [List.cons_append, parseValue, if_neg hc, ih, List.cons_append]
  | case4 c v hc ih => rw [List.cons_append, parseValue, if_pos hc, ih, List.cons_append]
  | case5 c v hc ih => rw [List.cons_append, parseValue, if_neg hc, ih]

theorem parseValue_sublist (st : ValueState) (v : Bytes) : (parseValue st v).Sublist v := by
  fun_induction parseValue st v with
  | case1 st => exact List.Sublist.refl _
  | case2 c v hc ih => exact ih.cons c
  | case3 c v hc ih => exact ih.cons_cons c
  | case4 c v hc ih => exact ih.cons_cons c
  | case5 c v hc ih => exact ih.cons c

/-- Of a text without `;` the loop drops the tabs. -/
theorem parseValue_append {u : Bytes} (hu : ∀ c ∈ u, c ≠ 59 ∧ c ≠ 13 ∧ c ≠ 10) (t : Bytes) :
    parseValue .value (u ++ t) = u.filter (· != 9) ++ parseValue .value t := by
  induction u with
  | nil => rfl
  | cons c u ih =>
    obtain ⟨⟨hsemi, hcr, hlf⟩, hrest⟩ := List.forall_mem_cons.mp hu
    rw [List.cons_append, parseValue, if_neg hsemi, ih hrest]
    by_cases htab : c = 9
    · simp [htab]
    · simp [htab, hcr, hlf]

theorem parseValue_token {u : Bytes} (hu : ∀ c ∈ u, isTokenByte c = true) (t : Bytes) :
    parseValue .value (u ++ t) = u ++ parseValue .value t := by
  have hplain : ∀ c ∈ u, c ≠ 59 ∧ c ≠ 13 ∧ c ≠ 10 := by
    intro c hc
    obtain ⟨-, -, -, hsemi, -, hblank⟩ := not_sign_of_token (hu c hc)
    refine ⟨hsemi, ?_, ?_⟩ <;> rintro rfl <;> exact absurd hblank (by decide)
  have htabs : u.filter (· != 9) = u := by
    refine List.filter_eq_self.mpr fun c hc => ?_
    simpa using (not_sign_of_token (hu c hc)).2.2.2.2.1
  rw [parseValue_append hplain, htabs]

/-- A parameter, and what stands before it, as the loop leaves them. -/
def receivedItem (i : Bytes × Param) : Bytes × Param :=
  (i.1.filter (· != 9), { i.2 with value := parseValue .value i.2.value })

theorem parseValue_valueText {p : Param} (hp : IsCleanParam p) (t : Bytes) : parseValue .value (p.valueText ++ t) =
    Param.valueText { p with value := parseValue .value p.value } ++ parseValue .value t := by
  obtain ⟨-, hvalue⟩ := hp
  cases hq : p.quoted with
  | true =>
    have htext : p.valueText ++ t = 34 :: (p.value ++ 34 :: t) := by simp [Param.valueText, hq]
    have hopen (s : Bytes) : parseValue .value (34 :: s) = 34 :: parseValue .value s := parseValue_quote .value [] s
    rw [htext, hopen, parseValue_quote]
    simp [Param.valueText]
  | false =>
    simp only [hq, Bool.false_eq_true, if_false] at hvalue
    have htoken := parseValue_token hvalue.2 []
    simp only [List.append_nil, parseValue] at htoken
    simp only [Param.valueText, hq, Bool.false_eq_true, if_false, parseValue_token hvalue.2, htoken]

/-- **What the header loop leaves of parameters.** -/
theorem parseValue_itemsText {items : Items} (hparams : ∀ i ∈ items, IsCleanParam i.2)
    (hleads : ∀ i ∈ items, ∀ c ∈ i.1, c ≠ 59 ∧ c ≠ 13 ∧ c ≠ 10) :
    parseValue .value (itemsText items) = itemsText (items.map receivedItem) := by
  induction items with
  | nil => rfl
  | cons i items ih =>
    obtain ⟨hp, hparams⟩ := List.forall_mem_cons.mp hparams
    obtain ⟨hl, hleads⟩ := List.forall_mem_cons.mp hleads
    have hequals (s : Bytes) : parseValue .value (61 :: s) = 61 :: parseValue .value s := rfl
    rw [itemsText_cons, List.append_assoc, parseValue_append hl, parseValue_token hp.1.2, hequals,
      parseValue_valueText hp, ih hparams hleads, List.map_cons, itemsText_cons, List.append_assoc]
    rfl

/-! ### A camera's challenge -/

/-- What stands between two parameters: a comma, or more, with blanks and tabs around. -/
def IsSeparator (s : Bytes) : Prop := 44 ∈ s ∧ ∀ c ∈ s, c = 44 ∨ c = 32 ∨ c = 9

instance (s : Bytes) : Decidable (IsSeparator s) :=
  inferInstanceAs (Decidable (44 ∈ s ∧ ∀ c ∈ s, c = 44 ∨ c = 32 ∨ c = 9))

/-- The names a challenge has at most once. -/
def onceNames : List Bytes := [ascii "realm", ascii "nonce", ascii "qop", ascii "opaque", ascii "algorithm"]

/-- The parameters of a challenge that are to be recovered. -/
def recoveredNames : List Bytes := [ascii "realm", ascii "nonce", ascii "opaque"]

/-- A well-formed challenge, as a camera writes it. -/
structure CameraChallenge where
  /-- `Digest`, in any case. -/
  scheme : Bytes
  /-- The blanks behind the scheme. -/
  blanks : Bytes
  /-- The first parameter. -/
  first : Param
  /-- The others, each with what stands before it. -/
  rest : Items
  /-- The scheme is `Digest`. -/
  scheme_eq : fold scheme = ascii "digest"
  /-- There is a blank. -/
  blanks_eq : blanks ≠ [] ∧ ∀ c ∈ blanks, c = 32
  /-- The parameters are well formed and on one line. -/
  clean : ∀ p ∈ first :: rest.map Prod.snd, IsCleanParam p ∧ OneLine p.value
  /-- Commas stand between them. -/
  apart : ∀ i ∈ rest, IsSeparator i.1
  /-- The parameters of a challenge are there once. -/
  once : ∀ name ∈ onceNames, ((first :: rest.map Prod.snd).filter fun p => fold p.name == name).length ≤ 1

namespace CameraChallenge

variable (ch : CameraChallenge)

/-- The parameters. -/
def params : List Param := ch.first :: ch.rest.map Prod.snd

/-- The parameters, with what stands before each. -/
def items : Items := (ch.scheme ++ ch.blanks, ch.first) :: ch.rest

/-- The text. -/
def text : Bytes := itemsText ch.items

/-- The parameters as they come out of the header loop. -/
def received : Items := ch.items.map receivedItem

/-- The camera's value of a parameter, empty if there is none. -/
def value (name : Bytes) : Bytes := ((ch.params.find? fun p => fold p.name == name).map Param.value).getD []

/-- Realm, nonce and opaque are the camera's. -/
def RecoveredBy (c : Challenge) : Prop :=
  c.realm = ch.value (ascii "realm") ∧ c.nonce = ch.value (ascii "nonce") ∧ c.opaqueText = ch.value (ascii "opaque")

variable {ch}

theorem letter_of_scheme {c : UInt8} (h : c ∈ ch.scheme) : 65 ≤ c := by
  have hmem : lower c ∈ ascii "digest" := ch.scheme_eq ▸ List.mem_map_of_mem h
  have hlow : ∀ d ∈ ascii "digest", 97 ≤ d := by decide
  have := hlow _ hmem
  unfold lower at this
  grind

theorem clean_item {i : Bytes × Param} (h : i ∈ ch.items) : IsCleanParam i.2 ∧ OneLine i.2.value := by
  refine ch.clean i.2 ?_
  rcases List.mem_cons.mp h with rfl | h
  · exact List.mem_cons_self
  · exact List.mem_cons_of_mem _ (List.mem_map_of_mem h)

theorem plain_lead {i : Bytes × Param} (h : i ∈ ch.items) : ∀ c ∈ i.1, c ≠ 59 ∧ c ≠ 13 ∧ c ≠ 10 := by
  intro c hc
  rcases List.mem_cons.mp h with rfl | h
  · rcases List.mem_append.mp hc with hc | hc
    · have := letter_of_scheme hc
      grind
    · rw [ch.blanks_eq.2 c hc]
      decide
  · rcases (ch.apart i h).2 c hc with rfl | rfl | rfl <;> decide

/-- The text as it comes out of the header loop. -/
theorem parseValue_text : parseValue .value ch.text = itemsText ch.received :=
  parseValue_itemsText (fun _ hi => (clean_item hi).1) fun _ hi => plain_lead hi

theorem clean_receivedItem {i : Bytes × Param} (h : IsCleanParam i.2) : IsCleanParam (receivedItem i).2 := by
  obtain ⟨hname, hvalue⟩ := h
  refine ⟨hname, ?_⟩
  cases hq : i.2.quoted with
  | true =>
    simp only [receivedItem, hq, if_true] at hvalue ⊢
    exact fun hc => hvalue ((parseValue_sublist .value _).subset hc)
  | false =>
    simp only [receivedItem, hq, Bool.false_eq_true, if_false] at hvalue ⊢
    have htoken := parseValue_token hvalue.2 []
    simp only [List.append_nil, parseValue] at htoken
    rw [htoken]
    exact hvalue

theorem received_lead {s : Bytes} (h : IsSeparator s) : s.filter (· != 9) ≠ [] ∧
    ∀ c ∈ s.filter (· != 9), c = 32 ∨ c = 44 := by
  refine ⟨List.ne_nil_of_mem (List.mem_filter.mpr ⟨h.1, by decide⟩), fun c hc => ?_⟩
  obtain ⟨hmem, htab⟩ := List.mem_filter.mp hc
  rcases h.2 c hmem with rfl | rfl | rfl
  · exact .inr rfl
  · exact .inl rfl
  · cases htab

theorem scheme_filter : (ch.scheme ++ ch.blanks).filter (· != 9) = ch.scheme ++ ch.blanks := by
  refine List.filter_eq_self.mpr fun c hc => ?_
  rcases List.mem_append.mp hc with hc | hc
  · have := letter_of_scheme hc
    grind
  · rw [ch.blanks_eq.2 c hc]
    rfl

/-- The parameters that come out of the header loop are set apart. -/
theorem clean_received : ch.received.Clean where
  params i hi := by
    obtain ⟨j, hj, rfl⟩ := List.mem_map.mp hi
    exact clean_receivedItem (clean_item hj).1
  leads i hi := by
    obtain ⟨j, hj, rfl⟩ := List.mem_map.mp hi
    rcases List.mem_cons.mp hj with rfl | hj
    · have hlead : (receivedItem (ch.scheme ++ ch.blanks, ch.first)).1 = ch.scheme ++ ch.blanks := scheme_filter
      rw [hlead]
      exact isLead_of_blanks (fun hc => absurd (letter_of_scheme hc) (by decide)) ch.blanks_eq.1 fun c hc =>
        .inl (ch.blanks_eq.2 c hc)
    · obtain ⟨hne, hall⟩ := received_lead (ch.apart j hj)
      exact isLead_of_blanks List.not_mem_nil hne hall
  stops i hi := by
    obtain ⟨j, hj, rfl⟩ := List.mem_map.mp (show i ∈ ch.rest.map receivedItem from hi)
    obtain ⟨hne, hall⟩ := received_lead (ch.apart j hj)
    obtain ⟨c, l, hl⟩ := List.exists_cons_of_ne_nil hne
    exact ⟨c, l, hl, hall c (hl ▸ List.mem_cons_self)⟩

theorem itemsText_received : ∃ t, itemsText ch.received = ch.scheme ++ (ch.blanks ++ t) := by
  have hlead : (receivedItem (ch.scheme ++ ch.blanks, ch.first)).1 = ch.scheme ++ ch.blanks := scheme_filter
  rw [received, items, List.map_cons, itemsText_cons, hlead, List.append_assoc, List.append_assoc]
  exact ⟨_, rfl⟩

theorem isSome_matchDigest : (search matchDigest (itemsText ch.received)).isNone = false := by
  obtain ⟨t, ht⟩ := ch.itemsText_received
  have hblanks : (matchBlanks (ch.blanks ++ t)).isSome = true := by
    obtain ⟨hne, hall⟩ := ch.blanks_eq
    obtain ⟨c, l, hl⟩ := List.exists_cons_of_ne_nil hne
    have hc : c = 32 := hall c (hl ▸ List.mem_cons_self)
    rw [hl, hc, matchBlanks, if_neg (by simp [isBlank])]
    rfl
  have hscheme : fold ch.scheme = fold (ascii "Digest") := ch.scheme_eq
  obtain ⟨b, hb⟩ := Option.isSome_iff_exists.mp hblanks
  have hmatch : matchDigest (itemsText ch.received) = some b := by
    rw [matchDigest, ht, matchFold_append hscheme, Option.bind_some, hb]
  have hfound : search matchDigest (itemsText ch.received) = some b := by
    cases h : itemsText ch.received with
    | nil => rw [search, ← h, hmatch]
    | cons c s => rw [search, ← h, hmatch]; rfl
  rw [hfound]
  rfl

/-- What is read from the text that comes out of the header loop. -/
theorem parseWWWAuthenticate_received :
    (parseWWWAuthenticate (itemsText ch.received)).realm = shownFor (ascii "realm") ch.received ∧
    (parseWWWAuthenticate (itemsText ch.received)).nonce = shownFor (ascii "nonce") ch.received ∧
    (parseWWWAuthenticate (itemsText ch.received)).opaqueText = shownFor (ascii "opaque") ch.received := by
  have hne : itemsText ch.received ≠ [] := by
    obtain ⟨t, ht⟩ := ch.itemsText_received
    rw [ht]
    simp [ch.blanks_eq.1]
  have hclean := ch.clean_received
  rw [parseWWWAuthenticate, if_neg hne, isSome_matchDigest, if_neg Bool.false_ne_true]
  exact ⟨extractParam_items (by decide) hclean, extractParam_items (by decide) hclean,
    extractParam_items (by decide) hclean⟩

/-! ### Challenges without pitfalls -/

variable (ch) in
/-- The values of realm, nonce and opaque have no tab and no blank behind a `;`, no other parameter's name ends in one
of the three names, and no quoted value, as the header loop leaves it, contains one of them with a `=` behind it. -/
structure Plain : Prop where
  /-- The header loop leaves the values as they are. -/
  kept : ∀ p ∈ ch.params, fold p.name ∈ recoveredNames → 9 ∉ p.value ∧ ¬ [59, 32] <:+: p.value
  /-- No other name ends in one of the names. -/
  names : ∀ p ∈ ch.params, ∀ name ∈ recoveredNames, name <:+ fold p.name → fold p.name = name
  /-- No quoted value contains one of them and a `=`. -/
  values : ∀ p ∈ ch.params, p.quoted = true → ∀ name ∈ recoveredNames,
    ¬ name ++ [61] <:+: fold (parseValue .value p.value)

theorem params_eq : ch.params = ch.items.map Prod.snd := rfl

theorem mem_params {i : Bytes × Param} (h : i ∈ ch.items) : i.2 ∈ ch.params := params_eq ▸ List.mem_map_of_mem h

theorem value_eq_find (name : Bytes) :
    ch.value name = ((ch.items.find? fun i => fold i.2.name == name).map fun i => i.2.value).getD [] := by
  rw [value, params_eq, List.find?_map, Option.map_map]
  rfl

theorem find_received (name : Bytes) : ch.received.find? (fun i => fold i.2.name == name) =
    (ch.items.find? fun i => fold i.2.name == name).map receivedItem := List.find?_map

/-- The header loop adds no parameter to those that a challenge has at most once. -/
theorem length_filter_received {name : Bytes} (h : name ∈ onceNames) :
    (ch.received.filter fun i => fold i.2.name == name).length ≤ 1 := by
  have hsame : (ch.received.filter fun i => fold i.2.name == name) =
      (ch.items.filter fun i => fold i.2.name == name).map receivedItem := List.filter_map
  have hparams : (ch.first :: ch.rest.map Prod.snd).filter (fun p => fold p.name == name) =
      (ch.items.filter fun i => fold i.2.name == name).map Prod.snd := List.filter_map (f := Prod.snd) (l := ch.items)
  have hcount := ch.once name h
  rw [hparams, List.length_map] at hcount
  rwa [hsame, List.length_map]

theorem Plain.unmistakable (h : ch.Plain) {name : Bytes} (hname : name ∈ recoveredNames) :
    ch.received.Unmistakable name := by
  refine ⟨fun i hi => ?_, fun i hi hq => ?_⟩
  · obtain ⟨j, hj, rfl⟩ := List.mem_map.mp hi
    exact h.names j.2 (mem_params hj) name hname
  · obtain ⟨j, hj, rfl⟩ := List.mem_map.mp hi
    exact h.values j.2 (mem_params hj) hq name hname

/-- The header loop leaves the values that are looked for as they are. -/
theorem Plain.parseValue_value (h : ch.Plain) {i : Bytes × Param} (hi : i ∈ ch.items)
    (hname : fold i.2.name ∈ recoveredNames) : parseValue .value i.2.value = i.2.value := by
  obtain ⟨htab, hsemi⟩ := h.kept i.2 (mem_params hi) hname
  have hline := (clean_item hi).2
  exact parseValue_eq_self (fun c hc => ⟨(hline c hc).1, (hline c hc).2, fun h => htab (h ▸ hc)⟩)
    (separated_of_not_isInfix hsemi).1

theorem mem_onceNames {name : Bytes} (h : name ∈ recoveredNames) : name ∈ onceNames := by
  have hall : ∀ name ∈ recoveredNames, name ∈ onceNames := by decide
  exact hall name h

/-- **A plain challenge shows the camera's values.** -/
theorem Plain.shown (h : ch.Plain) {name : Bytes} (hname : name ∈ recoveredNames) :
    shownFor name ch.received = ch.value name := by
  rw [shownFor_of_unmistakable (h.unmistakable hname) (length_filter_received (mem_onceNames hname)), find_received,
    value_eq_find]
  cases hi : ch.items.find? fun i => fold i.2.name == name with
  | none => rfl
  | some i =>
    have heq : fold i.2.name = name := by simpa using List.find?_some hi
    exact h.parseValue_value (List.mem_of_find?_eq_some hi) (heq ▸ hname)

end CameraChallenge

/-! ### Through the response -/

theorem canonicalHeaderKey_ne (key : Bytes) : canonicalHeaderKey key ≠ ascii "WWW-Authenticate" := by
  have hbyte : ∀ c, (canonicalByte true c = 87 → (c == 45) = false) ∧ canonicalByte false c ≠ 87 :=
    forall_byte (by decide +kernel)
  have htext : ascii "WWW-Authenticate" = 87 :: 87 :: ascii "W-Authenticate" := by decide
  rw [canonicalHeaderKey, htext]
  generalize trimSpace key = s
  intro h
  rcases s with _ | ⟨c, _ | ⟨d, s⟩⟩
  · simp [canonicalLoop] at h
  · simp [canonicalLoop] at h
  · obtain ⟨hc, h⟩ := List.cons.inj h
    obtain ⟨hd, -⟩ := List.cons.inj h
    rw [(hbyte c).1 hc] at hd
    exact (hbyte d).2 hd

theorem headerGet_last {before after headers : Headers} {key value : Bytes}
    (hkey : fold key = fold (ascii "WWW-Authenticate"))
    (hafter : ∀ kv ∈ after, canonicalHeaderKey kv.1 ≠ canonicalHeaderKey (ascii "WWW-Authenticate"))
    (hheaders : headers = ((before ++ (key, value) :: after).map Wire.received).foldl
      (fun (headers : Headers) kv => headers.set kv.1 kv.2) []) :
    headerGet headers (ascii "WWW-Authenticate") = (Wire.received (key, value)).2 := by
  have hcanon : canonicalHeaderKey key = canonicalHeaderKey (ascii "WWW-Authenticate") :=
    canonicalHeaderKey_congr (by decide) hkey
  have hnone : headers.find (ascii "WWW-Authenticate") = none := by
    rw [hheaders]
    refine find_foldl_set_eq_none fun e he => ?_
    obtain ⟨kv, -, rfl⟩ := List.mem_map.mp he
    exact canonicalHeaderKey_ne kv.1
  have hfound : headers.find (canonicalHeaderKey (ascii "WWW-Authenticate")) = some (Wire.received (key, value)).2 := by
    have hlast : ∀ e ∈ after.map Wire.received, e.1 ≠ (Wire.received (key, value)).1 := by
      intro e he
      obtain ⟨kv, hkv, rfl⟩ := List.mem_map.mp he
      show canonicalHeaderKey kv.1 ≠ canonicalHeaderKey key
      rw [hcanon]
      exact hafter kv hkv
    rw [hheaders, List.map_append, List.map_cons, ← hcanon]
    exact find_foldl_set hlast _ _
  rw [headerGet, hnone, hfound]

/-- The blanks before a challenge are passed over. -/
theorem received_challenge (ch : CameraChallenge) {key blanks : Bytes} (hblanks : ∀ c ∈ blanks, c = 32 ∨ c = 9) :
    (Wire.received (key, blanks ++ ch.text)).2 = itemsText ch.received := by
  have hpass : ∀ c ∈ blanks, (c == 32 || c == 9) = true := fun c hc => by simpa using hblanks c hc
  have hstop : ch.text.dropWhile (fun c => c == 32 || c == 9) = ch.text := by
    have htext : ch.text = ch.scheme ++ (ch.blanks ++ (ch.first.name ++ 61 :: (ch.first.valueText ++
        itemsText ch.rest))) := by
      rw [CameraChallenge.text, CameraChallenge.items, itemsText_cons, List.append_assoc, List.append_assoc]
    cases hs : ch.scheme with
    | nil =>
      have := ch.scheme_eq
      rw [hs] at this
      exact absurd this (by decide)
    | cons c s =>
      have hc := CameraChallenge.letter_of_scheme (hs ▸ List.mem_cons_self : c ∈ ch.scheme)
      rw [htext, hs, List.cons_append, List.dropWhile_cons_of_neg (by grind)]
  rw [Wire.received, List.dropWhile_append_of_pos hpass, hstop, ch.parseValue_text]

theorem oneLine_text (ch : CameraChallenge) : OneLine ch.text := by
  intro c hc
  obtain ⟨i, hi, hc⟩ := List.mem_flatMap.mp hc
  obtain ⟨hclean, hvalue⟩ := CameraChallenge.clean_item hi
  have htoken {d : UInt8} (h : isTokenByte d = true) : d ≠ 13 ∧ d ≠ 10 := by
    have hblank := (not_sign_of_token h).2.2.2.2.2
    constructor <;> rintro rfl <;> exact absurd hblank (by decide)
  have hquoted : ∀ d ∈ i.2.valueText, d ≠ 13 ∧ d ≠ 10 := by
    intro d hd
    unfold Param.valueText at hd
    split_ifs at hd
    · simp only [List.mem_cons, List.mem_append, List.not_mem_nil, or_false] at hd
      rcases hd with rfl | hd | rfl
      · decide
      · exact hvalue d hd
      · decide
    · exact hvalue d hd
  simp only [Param.text, List.mem_append, List.mem_cons] at hc
  rcases hc with hc | hc | rfl | hc
  · exact (CameraChallenge.plain_lead hi c hc).2
  · exact htoken (hclean.1.2 c hc)
  · decide
  · exact hquoted c hc

/-- **Realm, nonce and opaque are the camera's** exactly if its parameters show them, whatever the response is in which
the challenge is the last `WWW-Authenticate` line; and so they are if the challenge is plain. -/
theorem recovered_iff (ch : CameraChallenge) {first : Bytes} {status : Response} (hfirst : OneLine first)
    (hstatus : parseStatus first = .ok status) {before after : Headers} (hlines : ∀ kv ∈ before ++ after, Sendable kv)
    (hafter : ∀ kv ∈ after, canonicalHeaderKey kv.1 ≠ canonicalHeaderKey (ascii "WWW-Authenticate"))
    {key blanks : Bytes} (hkey : fold key = fold (ascii "WWW-Authenticate")) (hblanks : ∀ c ∈ blanks, c = 32 ∨ c = 9)
    (body : Bytes) :
    ∃ response, newResponseFromBuffer (fieldsMessage first (before ++ (key, blanks ++ ch.text) :: after) body) =
        .ok response ∧
      (ch.RecoveredBy (parseWWWAuthenticate (headerGet response.headers (ascii "WWW-Authenticate"))) ↔
        ∀ name ∈ recoveredNames, shownFor name ch.received = ch.value name) ∧
      (ch.Plain → ch.RecoveredBy (parseWWWAuthenticate (headerGet response.headers (ascii "WWW-Authenticate")))) := by
  have hsign (c : UInt8) (hc : c < 65) (hmem : c ∈ key) : c ∈ fold (ascii "WWW-Authenticate") :=
    hkey ▸ (mem_fold_sign hc).mpr hmem
  have hline : Sendable (key, blanks ++ ch.text) :=
    { colon := fun h => absurd (hsign 58 (by decide) h) (by decide)
      key := fun c hc => ⟨fun h => absurd (hsign 13 (by decide) (h ▸ hc)) (by decide),
        fun h => absurd (hsign 10 (by decide) (h ▸ hc)) (by decide)⟩
      value := oneLine_append.mpr ⟨fun c hc => by rcases hblanks c hc with rfl | rfl <;> decide, oneLine_text ch⟩ }
  have hsend : ∀ kv ∈ before ++ (key, blanks ++ ch.text) :: after, Sendable kv := by
    obtain ⟨hbefore, hrest⟩ := List.forall_mem_append.mp hlines
    exact List.forall_mem_append.mpr ⟨hbefore, List.forall_mem_cons.mpr ⟨hline, hrest⟩⟩
  obtain ⟨response, hresponse, hheaders⟩ := newResponseFromBuffer_fields hfirst hstatus hsend body
  have hiff : ch.RecoveredBy (parseWWWAuthenticate (headerGet response.headers (ascii "WWW-Authenticate"))) ↔
      ∀ name ∈ recoveredNames, shownFor name ch.received = ch.value name := by
    obtain ⟨hrealm, hnonce, hopq⟩ := ch.parseWWWAuthenticate_received
    rw [headerGet_last hkey hafter hheaders, received_challenge ch hblanks, CameraChallenge.RecoveredBy, hrealm, hnonce,
      hopq]
    simp [recoveredNames]
  exact ⟨response, hresponse, hiff, fun h => hiff.mpr fun name hname => h.shown hname⟩

/-- Parameters in another order, with a token and a list that looks like parameters. -/
def offered : CameraChallenge where
  scheme := ascii "DIGEST"
  blanks := ascii " "
  first := ⟨ascii "qop", ascii "auth,auth-int", true⟩
  rest := [(ascii ",\t", ⟨ascii "Nonce", ascii "a1b2", true⟩), (ascii " , ", ⟨ascii "stale", ascii "FALSE", false⟩),
    (ascii ",", ⟨ascii "REALM", ascii "hall", true⟩)]
  scheme_eq := by decide
  blanks_eq := by decide
  clean := by decide
  apart := by decide
  once := by decide

/-- The first line of a response with a challenge. -/
def unauthorizedLine : Bytes := ascii "RTSP/1.0 401 Unauthorized"

theorem recovered_iff_offered :
    ∃ response, newResponseFromBuffer (fieldsMessage unauthorizedLine ([(ascii "CSeq", ascii " 3")] ++
      (ascii "www-authenticate", ascii " " ++ offered.text) :: [(ascii "Date", ascii " x")]) []) = .ok response ∧
    offered.RecoveredBy (parseWWWAuthenticate (headerGet response.headers (ascii "WWW-Authenticate"))) := by
  have hstatus : parseStatus unauthorizedLine = .ok ⟨ascii "Unauthorized", ascii "RTSP/1.0", 401, [], []⟩ := by
    decide +kernel
  have hlines : ∀ kv ∈ ([(ascii "CSeq", ascii " 3")] ++ [(ascii "Date", ascii " x")] : Headers), Sendable kv := by
    intro kv hkv
    have hall : ∀ kv ∈ ([(ascii "CSeq", ascii " 3")] ++ [(ascii "Date", ascii " x")] : Headers),
        58 ∉ kv.1 ∧ OneLine kv.1 ∧ OneLine kv.2 := by decide
    exact ⟨(hall kv hkv).1, (hall kv hkv).2.1, (hall kv hkv).2.2⟩
  obtain ⟨response, hresponse, hiff, -⟩ := recovered_iff offered (by decide) hstatus hlines (by decide +kernel)
    (show fold (ascii "www-authenticate") = _ by decide) (show ∀ c ∈ ascii " ", c = 32 ∨ c = 9 by decide) []
  exact ⟨response, hresponse, hiff.mpr (by decide +kernel)⟩

/-- A realm with a blank behind a `;`. -/
def spacedRealm : CameraChallenge where
  scheme := ascii "Digest"
  blanks := ascii " "
  first := ⟨ascii "realm", ascii "Camera; hall", true⟩
  rest := [(ascii ", ", ⟨ascii "nonce", ascii "a1b2", true⟩)]
  scheme_eq := by decide
  blanks_eq := by decide
  clean := by decide
  apart := by decide
  once := by decide

/-- A parameter whose name ends in that of another. -/
def nextNonce : CameraChallenge where
  scheme := ascii "Digest"
  blanks := ascii " "
  first := ⟨ascii "realm", ascii "hall", true⟩
  rest := [(ascii ", ", ⟨ascii "nextnonce", ascii "c3d4", true⟩), (ascii ", ", ⟨ascii "nonce", ascii "a1b2", true⟩)]
  scheme_eq := by decide
  blanks_eq := by decide
  clean := by decide
  apart := by decide
  once := by decide

/-- What the proxy reads of a response with a challenge. -/
def readChallenge (ch : CameraChallenge) : Except ParseError Challenge :=
  (newResponseFromBuffer (fieldsMessage unauthorizedLine [(ascii "WWW-Authenticate", 32 :: ch.text)] [])).map
    fun response => parseWWWAuthenticate (headerGet response.headers (ascii "WWW-Authenticate"))

/-- **A blank of a realm is lost, and a nonce is taken from another parameter.** -/
theorem not_recovered :
    ((readChallenge spacedRealm).map Challenge.realm = .ok (ascii "Camera;hall") ∧
      spacedRealm.value (ascii "realm") = ascii "Camera; hall") ∧
    (readChallenge nextNonce).map Challenge.nonce = .ok (ascii "c3d4") ∧
      nextNonce.value (ascii "nonce") = ascii "a1b2" := by
  decide +kernel

end RtspProxy.Upstream
