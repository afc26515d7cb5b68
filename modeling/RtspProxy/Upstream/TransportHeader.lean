import RtspProxy.Upstream.Session
import RtspProxy.Theory.Split

/-!
# The parameters of a Transport header

A `Transport` header names a protocol and parameters, separated by `;`: one of the words `unicast` and
`multicast`, and pairs `name=value`. RTSP leaves their order free.

`Remote.parseTransport` takes whatever stands in the second place for the delivery word, and looks for
pairs from the third place on. So a pair in the second place is lost, and is what the client's and
the camera's transports are then compared by (`pair_first`).

## The model

`TransportHeader` is a well-formed header. `Describes` says that a result of `parseTransport` is what the
header says: the protocol, the delivery word, and a map with exactly the pairs.

## What is proved

* `paramMap_pairs` — pairs with distinct names are what is found.
* `parseTransport_iff` — **`parseTransport` returns what the header says exactly if there are no
  parameters, or the first one is the delivery word; and then it does not depend on the order of the
  others.**
-/

namespace RtspProxy.Upstream

open Theory Wire

/-! ### Headers -/

/-- A parameter. -/
inductive TransportParam where
  | unicast
  | multicast
  /-- `name=value`. -/
  | pair (name value : Bytes)
  deriving DecidableEq, Repr

/-- Its text. -/
def TransportParam.text : TransportParam → Bytes
  | .unicast => ascii "unicast"
  | .multicast => ascii "multicast"
  | .pair name value => name ++ 61 :: value

/-- It is a delivery word. -/
def TransportParam.isWord : TransportParam → Bool
  | .unicast | .multicast => true
  | .pair _ _ => false

/-- Name and value of a pair. -/
def TransportParam.entry : TransportParam → Option (Bytes × Bytes)
  | .unicast | .multicast => none
  | .pair name value => some (name, value)

/-- The names have no separator, and the values none but `=`. -/
def TransportParam.Clean : TransportParam → Prop
  | .unicast | .multicast => True
  | .pair name value => 59 ∉ name ∧ 61 ∉ name ∧ 59 ∉ value

instance : DecidablePred TransportParam.Clean
  | .unicast | .multicast => isTrue trivial
  | .pair _ _ => inferInstanceAs (Decidable (_ ∧ _))

/-- A well-formed header. -/
structure TransportHeader where
  protocol : Bytes
  /-- The parameters. -/
  params : List TransportParam
  /-- There is a protocol. -/
  protocol_ne : protocol ≠ []
  /-- It has no separator. -/
  protocol_clean : 59 ∉ protocol
  /-- Nor have the parameters. -/
  clean : ∀ p ∈ params, p.Clean
  /-- The names are distinct. -/
  distinct : ((params.filterMap TransportParam.entry).map Prod.fst).Nodup
  /-- There is one delivery word at most. -/
  once : (params.filter TransportParam.isWord).length ≤ 1

namespace TransportHeader

/-- The text. -/
def text (t : TransportHeader) : Bytes := t.protocol ++ (t.params.map TransportParam.text).flatMap (59 :: ·)

/-- The delivery word that occurs, `unicast` if none does. -/
def delivery (t : TransportHeader) : Bytes := if .multicast ∈ t.params then ascii "multicast" else ascii "unicast"

/-- The result is what the header says. -/
structure Describes (t : TransportHeader) (result : Bytes × Bytes × (Bytes → Option Bytes)) : Prop where
  protocol : result.1 = t.protocol
  /-- The delivery word. -/
  delivery : result.2.1 = t.delivery
  /-- Exactly the pairs. -/
  pairs : ∀ name value, result.2.2 name = some value ↔ .pair name value ∈ t.params

/-- There are no parameters, or the first is the delivery word. -/
def Leads (t : TransportHeader) : Prop := ∀ p ∈ t.params.head?, p.isWord = true

instance (t : TransportHeader) : Decidable t.Leads := inferInstanceAs (Decidable (∀ p ∈ t.params.head?, _))

end TransportHeader

/-! ### Pairs -/

theorem TransportParam.entry_eq_some {p : TransportParam} {name value : Bytes} :
    p.entry = some (name, value) ↔ p = .pair name value := by
  cases p <;> simp [TransportParam.entry]

theorem TransportParam.not_mem_text {p : TransportParam} (h : p.Clean) : 59 ∉ p.text := by
  cases p with
  | unicast | multicast => decide +kernel
  | pair name value =>
    obtain ⟨hname, _, hvalue⟩ := h
    simp [TransportParam.text, hname, hvalue]

theorem param_text {p : TransportParam} (h : p.Clean) : param p.text = p.entry := by
  cases p with
  | unicast | multicast => decide +kernel
  | pair name value =>
    rw [TransportParam.text, param, cut_append h.2.1]
    rfl

theorem filterMap_param {params : List TransportParam} (h : ∀ p ∈ params, p.Clean) :
    (params.map TransportParam.text).filterMap param = params.filterMap TransportParam.entry := by
  rw [List.filterMap_map]
  exact List.filterMap_congr fun p hp => param_text (h p hp)

/-- Of entries with distinct names, the one with the name is found. -/
theorem find_entry_iff {entries : List (Bytes × Bytes)} (h : (entries.map Prod.fst).Nodup) {name value : Bytes} :
    (entries.find? fun kv => kv.1 = name).map Prod.snd = some value ↔ (name, value) ∈ entries := by
  constructor
  · intro hvalue
    obtain ⟨kv, hfind, rfl⟩ := Option.map_eq_some_iff.mp hvalue
    obtain rfl : kv.1 = name := by simpa using List.find?_some hfind
    exact List.mem_of_find?_eq_some hfind
  · intro hmem
    have hsome : (entries.find? fun kv => kv.1 = name).isSome = true := by
      rw [List.find?_isSome]
      exact ⟨_, hmem, by simp⟩
    obtain ⟨kv, hfind⟩ := Option.isSome_iff_exists.mp hsome
    have hname : kv.1 = name := by simpa using List.find?_some hfind
    have hsame := List.inj_on_of_nodup_map h (List.mem_of_find?_eq_some hfind) hmem hname
    rw [hfind, hsame]
    rfl

/-- Pairs with distinct names are what is found. -/
theorem paramMap_pairs {params : List TransportParam} (hclean : ∀ p ∈ params, p.Clean)
    (hdistinct : ((params.filterMap TransportParam.entry).map Prod.fst).Nodup) {name value : Bytes} :
    paramMap (params.map TransportParam.text) name = some value ↔ .pair name value ∈ params := by
  have hreverse : ((params.filterMap TransportParam.entry).reverse.map Prod.fst).Nodup := by
    rwa [List.map_reverse, List.nodup_reverse]
  rw [paramMap_eq_find, filterMap_param hclean, find_entry_iff hreverse]
  simp [TransportParam.entry_eq_some]

/-! ### What is parsed -/

namespace TransportHeader

theorem parseTransport_text (t : TransportHeader) :
    parseTransport t.text = (t.protocol, (t.params.map TransportParam.text).headD (ascii "unicast"),
      paramMap (t.params.tail.map TransportParam.text)) := by
  have hne : t.text ≠ [] := List.append_ne_nil_of_left_ne_nil t.protocol_ne _
  have hparts : t.text.splitOn 59 = t.protocol :: t.params.map TransportParam.text := by
    refine splitOn_flatMap t.protocol_clean fun part hpart => ?_
    obtain ⟨p, hp, rfl⟩ := List.mem_map.mp hpart
    exact TransportParam.not_mem_text (t.clean p hp)
  rw [parseTransport, if_neg hne, hparts]
  cases t.params <;> rfl

theorem pairs_tail (t : TransportHeader) {name value : Bytes} :
    paramMap (t.params.tail.map TransportParam.text) name = some value ↔ .pair name value ∈ t.params.tail :=
  paramMap_pairs (fun p hp => t.clean p (List.mem_of_mem_tail hp))
    (t.distinct.sublist (((List.tail_sublist _).filterMap _).map _))

/-- With the delivery word in the first place there is none behind it. -/
theorem multicast_not_mem {t : TransportHeader} {rest : List TransportParam} (h : t.params = .unicast :: rest) :
    .multicast ∉ t.params := by
  have honce := t.once
  rw [h, List.filter_cons_of_pos rfl, List.length_cons] at honce
  have hrest : rest.filter TransportParam.isWord = [] := List.eq_nil_of_length_eq_zero (by omega)
  rw [h, List.mem_cons, not_or]
  exact ⟨nofun, fun hmem => List.filter_eq_nil_iff.mp hrest _ hmem rfl⟩

theorem pair_ne_delivery (t : TransportHeader) (name value : Bytes) :
    (TransportParam.pair name value).text ≠ t.delivery := by
  intro h
  have hmem : (61 : UInt8) ∈ t.delivery := h ▸ List.mem_append_right _ List.mem_cons_self
  have hword : (61 : UInt8) ∉ ascii "multicast" ∧ (61 : UInt8) ∉ ascii "unicast" := by decide +kernel
  rw [delivery] at hmem
  split_ifs at hmem
  · exact hword.1 hmem
  · exact hword.2 hmem

theorem Leads.ne_pair {t : TransportHeader} (h : t.Leads) {name value : Bytes} {rest : List TransportParam} :
    t.params ≠ .pair name value :: rest := by
  intro hparams
  rw [Leads, hparams] at h
  exact Bool.false_ne_true (h _ rfl)

theorem describes_of_leads {t : TransportHeader} (h : t.Leads) : t.Describes (parseTransport t.text) := by
  rw [parseTransport_text]
  refine ⟨rfl, ?_, fun name value => t.pairs_tail.trans ?_⟩
  · cases hparams : t.params with
    | nil => simp [delivery, hparams]
    | cons p rest =>
      cases p with
      | unicast => exact (if_neg (multicast_not_mem hparams)).symm
      | multicast => simp [delivery, hparams, TransportParam.text]
      | pair name value => exact absurd hparams h.ne_pair
  · cases hparams : t.params with
    | nil => rfl
    | cons p rest =>
      refine (List.mem_cons.trans (or_iff_right ?_)).symm
      rintro rfl
      exact h.ne_pair hparams

theorem leads_of_describes {t : TransportHeader} (h : t.Describes (parseTransport t.text)) : t.Leads := by
  intro p hp
  cases p with
  | unicast | multicast => rfl
  | pair name value =>
    obtain ⟨rest, hparams⟩ := List.head?_eq_some_iff.mp hp
    have hdelivery := h.delivery
    rw [parseTransport_text, hparams] at hdelivery
    exact absurd hdelivery (t.pair_ne_delivery name value)

/-- Headers with the same parameters say the same. -/
theorem Describes.unique {t t' : TransportHeader} (hprotocol : t.protocol = t'.protocol)
    (hparams : t.params.Perm t'.params) {result result' : Bytes × Bytes × (Bytes → Option Bytes)}
    (h : t.Describes result) (h' : t'.Describes result') : result = result' := by
  have hdelivery : t.delivery = t'.delivery := by
    simp only [TransportHeader.delivery, hparams.mem_iff]
  have hmap : result.2.2 = result'.2.2 := by
    funext name
    ext value
    rw [h.pairs, h'.pairs, hparams.mem_iff]
  refine Prod.ext (h.protocol.trans (hprotocol.trans h'.protocol.symm)) (Prod.ext ?_ hmap)
  exact h.delivery.trans (hdelivery.trans h'.delivery.symm)

/-- **`parseTransport` returns what a header says exactly if it has no parameters, or the delivery word is the first
one; and headers of that form that differ in the order of the parameters give the same result.** -/
theorem parseTransport_iff (t t' : TransportHeader) :
    (t.Describes (parseTransport t.text) ↔ t.Leads) ∧
      (t.protocol = t'.protocol → t.params.Perm t'.params → t.Leads → t'.Leads →
        parseTransport t.text = parseTransport t'.text) := by
  refine ⟨⟨leads_of_describes, describes_of_leads⟩, fun hprotocol hparams h h' => ?_⟩
  exact (describes_of_leads h).unique hprotocol hparams (describes_of_leads h')

/-- `RTP/AVP/TCP` with the parameters. -/
def overTCP (params : List TransportParam) (clean : ∀ p ∈ params, p.Clean)
    (distinct : ((params.filterMap TransportParam.entry).map Prod.fst).Nodup)
    (once : (params.filter TransportParam.isWord).length ≤ 1) : TransportHeader :=
  ⟨ascii "RTP/AVP/TCP", params, by decide +kernel, by decide +kernel, clean, distinct, once⟩

/-- `RTP/AVP/TCP;unicast;interleaved=0-1;ssrc=1F`. -/
def wordFirst : TransportHeader :=
  overTCP [.unicast, .pair (ascii "interleaved") (ascii "0-1"), .pair (ascii "ssrc") (ascii "1F")]
    (by decide +kernel) (by decide +kernel) (by decide +kernel)

/-- `RTP/AVP/TCP;unicast;ssrc=1F;interleaved=0-1`. -/
def wordFirstSwapped : TransportHeader :=
  overTCP [.unicast, .pair (ascii "ssrc") (ascii "1F"), .pair (ascii "interleaved") (ascii "0-1")]
    (by decide +kernel) (by decide +kernel) (by decide +kernel)

/-- `RTP/AVP/TCP;interleaved=0-1;unicast;ssrc=1F`. -/
def pairFirst : TransportHeader :=
  overTCP [.pair (ascii "interleaved") (ascii "0-1"), .unicast, .pair (ascii "ssrc") (ascii "1F")]
    (by decide +kernel) (by decide +kernel) (by decide +kernel)

/-- The word in the first place, the pairs behind it in either order. -/
theorem parseTransport_iff_wordFirst :
    wordFirst.Describes (parseTransport wordFirst.text) ∧
      parseTransport wordFirst.text = parseTransport wordFirstSwapped.text :=
  ⟨(parseTransport_iff wordFirst wordFirstSwapped).1.mpr (by decide +kernel),
    (parseTransport_iff wordFirst wordFirstSwapped).2 rfl (by decide +kernel) (by decide +kernel) (by decide +kernel)⟩

/-- **A permutation of the same parameters**: the pair in the first place is taken for the delivery word, and the
channels are not found. -/
theorem pair_first :
    pairFirst.params.Perm wordFirst.params ∧
      pairFirst.text = ascii "RTP/AVP/TCP;interleaved=0-1;unicast;ssrc=1F" ∧
      (parseTransport pairFirst.text).2.1 = ascii "interleaved=0-1" ∧ pairFirst.delivery = ascii "unicast" ∧
      (parseTransport pairFirst.text).2.2 (ascii "interleaved") = none ∧
      (parseTransport wordFirst.text).2.2 (ascii "interleaved") = some (ascii "0-1") ∧
      parseTransport pairFirst.text ≠ parseTransport wordFirst.text := by
  refine ⟨by decide +kernel, by decide +kernel, by decide +kernel, by decide +kernel, by decide +kernel,
    by decide +kernel, fun h => ?_⟩
  exact absurd (congrArg (fun result => result.2.1) h) (by decide +kernel)

end TransportHeader

end RtspProxy.Upstream
