import RtspProxy.Theory.Split

/-!
# Lists of parameters

The value of many header fields is a list `name=value, name="value", …`: a value is a token or stands
between double quotes. `Param` is such a parameter, `writeParams` the text of a list of them, and
`readParams` a strict reader of such texts.

## What is proved

* `readParams_append` — parameters that are well formed are read back, whatever follows them.
* `readParams_name` — of the parameter that follows, the name is read back, with some value without a
  quote.
* `readParams_broken` — a quoted value with a quote in it, and no comma, cannot be read.
-/

namespace RtspProxy.Theory

/-! ### Writing -/

/-- A byte of a token: a visible character that is no separator. -/
def isTokenByte (c : UInt8) : Bool :=
  32 < c && c < 127 && !([34, 40, 41, 44, 47, 58, 59, 60, 61, 62, 63, 64, 91, 92, 93, 123, 125] : Bytes).contains c

/-- A parameter as it is written. -/
structure Param where
  name : Bytes
  value : Bytes
  /-- The value stands between quotes. -/
  quoted : Bool
  deriving DecidableEq, Repr

/-- Name and value. -/
def Param.pair (p : Param) : Bytes × Bytes := (p.name, p.value)

/-- The text of the value. -/
def Param.valueText (p : Param) : Bytes := if p.quoted then 34 :: (p.value ++ [34]) else p.value

/-- The text of a parameter. -/
def Param.text (p : Param) : Bytes := p.name ++ 61 :: p.valueText

/-- Parameters that follow another one. -/
def following (ps : List Param) : Bytes := ps.flatMap fun p => 44 :: 32 :: p.text

/-- A list of parameters. -/
def writeParams : List Param → Bytes
  | [] => []
  | p :: ps => p.text ++ following ps

/-- A name is not empty, does not begin with a blank and has no `=`. -/
def IsName (name : Bytes) : Prop := name ≠ [] ∧ name.head? ≠ some 32 ∧ 61 ∉ name

instance (name : Bytes) : Decidable (IsName name) := inferInstanceAs (Decidable (_ ∧ _))

/-- The parameter has a name. -/
def Param.Named (p : Param) : Prop := IsName p.name

/-- A parameter that can be read back: a quoted value has no quote, and any other is a token. -/
def Param.Ok (p : Param) : Prop :=
  p.Named ∧ if p.quoted then 34 ∉ p.value else p.value ≠ [] ∧ ∀ c ∈ p.value, isTokenByte c = true

theorem Param.Ok.quoted {name value : Bytes} (hname : IsName name)
    (hvalue : 34 ∉ value) : (⟨name, value, true⟩ : Param).Ok := ⟨hname, hvalue⟩

theorem Param.Ok.token {name value : Bytes} (hname : IsName name)
    (hvalue : value ≠ [] ∧ ∀ c ∈ value, isTokenByte c = true) : (⟨name, value, false⟩ : Param).Ok := ⟨hname, hvalue⟩

/-! ### Reading -/

/-- The value at the front of a text, and what follows it. -/
def readValue : Bytes → Option (Bytes × Bytes)
  | 34 :: s =>
    match cut 34 s with
    | (value, some rest) => some (value, rest)
    | (_, none) => none
  | s =>
    let value := s.takeWhile isTokenByte
    if value = [] then none else some (value, s.drop value.length)

/-- The parameter at the front of a text, and what follows it. -/
def readParam (s : Bytes) : Option ((Bytes × Bytes) × Bytes) :=
  match cut 61 s with
  | (name, some rest) => (readValue rest).map fun (value, rest) => ((name, value), rest)
  | (_, none) => none

/-- The parameters of a text, at most `n`: between two of them stands a comma, which blanks may
follow. -/
def readParams : ℕ → Bytes → Option (List (Bytes × Bytes))
  | 0, _ => none
  | n + 1, s =>
    match readParam s with
    | none => none
    | some (p, []) => some [p]
    | some (p, c :: rest) => if c = 44 then (readParams n (rest.dropWhile (· == 32))).map (p :: ·) else none

example : readParams 9 (writeParams [⟨[97], [98, 44], true⟩, ⟨[99], [100], false⟩]) =
    some [([97], [98, 44]), ([99], [100])] := by decide

theorem takeWhile_following (ps : List Param) : (following ps).takeWhile isTokenByte = [] := by
  cases ps <;> rfl

theorem length_le_following (ps : List Param) : ps.length ≤ (following ps).length := by
  induction ps with
  | nil => exact Nat.le_refl 0
  | cons p ps ih =>
    have hcons : following (p :: ps) = 44 :: 32 :: p.text ++ following ps := rfl
    rw [hcons, List.length_append, List.length_cons, List.length_cons, List.length_cons]
    omega

/-- The text is at least as long as the list. -/
theorem length_le_writeParams (ps : List Param) : ps.length ≤ (writeParams ps).length := by
  cases ps with
  | nil => exact Nat.le_refl 0
  | cons p ps =>
    have hrest := length_le_following ps
    simp only [writeParams, Param.text, List.length_append, List.length_cons]
    omega

/-- A value that is well formed is read back. -/
theorem readValue_valueText {p : Param} (h : p.Ok) (ps : List Param) :
    readValue (p.valueText ++ following ps) = some (p.value, following ps) := by
  obtain ⟨-, hvalue⟩ := h
  unfold Param.valueText
  cases hq : p.quoted with
  | true =>
    simp only [hq, if_true] at hvalue ⊢
    rw [List.cons_append, List.append_assoc, readValue, List.singleton_append, cut_append hvalue]
  | false =>
    simp only [hq, Bool.false_eq_true, if_false] at hvalue ⊢
    have htake : (p.value ++ following ps).takeWhile isTokenByte = p.value := by
      rw [List.takeWhile_append_of_pos hvalue.2, takeWhile_following, List.append_nil]
    cases hv : p.value with
    | nil => exact absurd hv hvalue.1
    | cons c value =>
      rw [hv] at htake hvalue
      have hc : c ≠ 34 := by
        rintro rfl
        exact absurd (hvalue.2 34 List.mem_cons_self) (by decide)
      rw [List.cons_append, readValue]
      · simp only [← List.cons_append, htake, reduceCtorEq, if_false, List.drop_left]
      · intro s hs
        exact hc (List.cons.inj hs).1

/-- A parameter that is well formed is read back. -/
theorem readParam_text {p : Param} (h : p.Ok) (ps : List Param) :
    readParam (p.text ++ following ps) = some (p.pair, following ps) := by
  have hcut : cut 61 (p.text ++ following ps) = (p.name, some (p.valueText ++ following ps)) := by
    rw [Param.text, List.append_assoc, List.cons_append, cut_append h.1.2.2]
  rw [readParam, hcut]
  simp only [readValue_valueText h, Option.map_some]
  rfl

/-- No blank stands before the next parameter. -/
theorem dropWhile_writeParams {p : Param} (h : p.Named) (ps : List Param) :
    (writeParams (p :: ps)).dropWhile (· == 32) = writeParams (p :: ps) := by
  obtain ⟨hne, hblank, -⟩ := h
  rw [writeParams, Param.text]
  cases hname : p.name with
  | nil => exact absurd hname hne
  | cons c name =>
    have hc : c ≠ 32 := by simpa [hname] using hblank
    simp [hc]

/-- **Parameters that are well formed are read back, whatever follows them.** -/
theorem readParams_append (ps qs : List Param) (hps : ∀ p ∈ ps, p.Ok) (hqs : qs ≠ []) (hnamed : ∀ q ∈ qs, q.Named)
    (n : ℕ) :
    readParams (ps.length + n) (writeParams (ps ++ qs)) =
      (readParams n (writeParams qs)).map (ps.map Param.pair ++ ·) := by
  induction ps with
  | nil => simp
  | cons p ps ih =>
    obtain ⟨hp, hps⟩ := List.forall_mem_cons.mp hps
    obtain ⟨q, rest, hcons⟩ := List.exists_cons_of_ne_nil (l := ps ++ qs) (by simp [hqs])
    have hq : q.Named := by
      have hmem : q ∈ ps ++ qs := hcons ▸ List.mem_cons_self
      rcases List.mem_append.mp hmem with hmem | hmem
      · exact (hps q hmem).1
      · exact hnamed q hmem
    have hfollowing : following (ps ++ qs) = 44 :: 32 :: writeParams (ps ++ qs) := by
      rw [hcons]
      rfl
    have hblank : (32 :: writeParams (ps ++ qs)).dropWhile (· == 32) = writeParams (ps ++ qs) := by
      rw [hcons]
      simpa using dropWhile_writeParams hq rest
    rw [List.length_cons, Nat.add_right_comm, List.cons_append, writeParams, readParams, readParam_text hp]
    simp only [hfollowing, if_true, hblank, ih hps]
    rw [Option.map_map]
    rfl

/-- A list of parameters that are well formed is read back. -/
theorem readParams_writeParams {ps : List Param} (hne : ps ≠ []) (hps : ∀ p ∈ ps, p.Ok) {n : ℕ} (hn : ps.length ≤ n) :
    readParams n (writeParams ps) = some (ps.map Param.pair) := by
  have hlast := hps _ (List.getLast_mem hne)
  have hone : ∀ m, readParams (m + 1) (writeParams [ps.getLast hne]) = some [(ps.getLast hne).pair] := by
    intro m
    rw [writeParams, readParams, readParam_text hlast]
    rfl
  obtain ⟨m, hm⟩ := Nat.exists_eq_add_of_le hn
  have hlen : n = ps.dropLast.length + (m + 1) := by
    have hpos := List.length_pos_of_ne_nil hne
    rw [hm, List.length_dropLast]
    omega
  have happend := readParams_append ps.dropLast [ps.getLast hne]
    (fun p hp => hps p ((List.dropLast_sublist ps).subset hp)) (List.cons_ne_nil _ _) (by simpa using hlast.1) (m + 1)
  rw [List.dropLast_append_getLast hne, ← hlen, hone] at happend
  rw [happend, Option.map_some]
  conv_rhs => rw [← List.dropLast_append_getLast hne, List.map_append]
  rfl

/-- Well formed parameters at the front of a list are read back, if anything is read. -/
theorem exists_of_readParams {ps qs : List Param} (hne : ps ≠ []) (hps : ∀ p ∈ ps, p.Ok) (hqs : ∀ q ∈ qs, q.Named)
    {n : ℕ} (hn : ps.length ≤ n) {l : List (Bytes × Bytes)} (h : readParams n (writeParams (ps ++ qs)) = some l) :
    ∃ l', l = ps.map Param.pair ++ l' := by
  by_cases hnil : qs = []
  · subst hnil
    rw [List.append_nil, readParams_writeParams hne hps hn] at h
    exact ⟨[], by rw [List.append_nil, Option.some.inj h]⟩
  · obtain ⟨m, rfl⟩ := Nat.exists_eq_add_of_le hn
    rw [readParams_append ps qs hps hnil hqs] at h
    obtain ⟨l', -, hl⟩ := Option.map_eq_some_iff.mp h
    exact ⟨l', hl.symm⟩

theorem quote_not_mem_of_readValue {s v rest : Bytes} (h : readValue s = some (v, rest)) : 34 ∉ v := by
  unfold readValue at h
  split at h
  · split at h
    · rename_i hcut
      cases h
      exact (eq_of_cut hcut).2
    · cases h
  · obtain ⟨-, hv⟩ := Option.ite_none_left_eq_some.mp h
    cases hv
    intro hmem
    exact absurd (List.mem_takeWhile_imp hmem) (by decide)

/-- **Of a parameter, the name is read back**, with some value. -/
theorem readParams_name {p : Param} (hp : p.Named) {ps : List Param} {n : ℕ} {l : List (Bytes × Bytes)}
    (h : readParams n (writeParams (p :: ps)) = some l) : ∃ v l', l = (p.name, v) :: l' ∧ 34 ∉ v := by
  have hcut : cut 61 (p.text ++ following ps) = (p.name, some (p.valueText ++ following ps)) := by
    rw [Param.text, List.append_assoc, List.cons_append, cut_append hp.2.2]
  cases n with
  | zero => cases h
  | succ n =>
    rw [writeParams, readParams, readParam, hcut] at h
    cases hv : readValue (p.valueText ++ following ps) with
    | none => simp [hv] at h
    | some vr =>
      obtain ⟨v, rest⟩ := vr
      have hquote := quote_not_mem_of_readValue hv
      simp only [hv, Option.map_some] at h
      cases rest with
      | nil =>
        cases h
        exact ⟨v, [], rfl, hquote⟩
      | cons c rest =>
        obtain ⟨-, h⟩ := Option.ite_none_right_eq_some.mp h
        obtain ⟨l', -, rfl⟩ := Option.map_eq_some_iff.mp h
        exact ⟨v, l', rfl, hquote⟩

/-- **A quoted value with a quote in it, and no comma, cannot be read.** -/
theorem readParams_broken {p : Param} (hp : p.Named) (hq : p.quoted = true) (hquote : 34 ∈ p.value)
    (hcomma : 44 ∉ p.value) (ps : List Param) (n : ℕ) : readParams n (writeParams (p :: ps)) = none := by
  obtain ⟨v, w, hvw, hv⟩ := exists_first hquote
  rw [hvw, List.mem_append, List.mem_cons, not_or, not_or] at hcomma
  have hcut : cut 61 (p.text ++ following ps) = (p.name, some (34 :: (v ++ 34 :: (w ++ 34 :: following ps)))) := by
    rw [Param.text, List.append_assoc, List.cons_append, cut_append hp.2.2, Param.valueText, hq, hvw]
    simp
  cases n with
  | zero => rfl
  | succ n =>
    rw [writeParams, readParams, readParam, hcut]
    simp only [readValue, cut_append hv, Option.map_some]
    cases w with
    | nil => rfl
    | cons c w => exact if_neg fun hc : c = 44 => hcomma.2.2 (hc ▸ List.mem_cons_self)

/-! ### After parameters that are well formed -/

section
variable {ps qs : List Param} {q : Param} {n : ℕ} (hps : ∀ p ∈ ps, p.Ok) (hqs : ∀ p ∈ q :: qs, p.Named)
  (hn : ps.length ≤ n)
include hps hqs hn

theorem exists_name_of_readParams {l : List (Bytes × Bytes)} (h : readParams n (writeParams (ps ++ q :: qs)) = some l) :
    ∃ v l', l = ps.map Param.pair ++ (q.name, v) :: l' ∧ 34 ∉ v := by
  obtain ⟨m, rfl⟩ := Nat.exists_eq_add_of_le hn
  rw [readParams_append ps _ hps (List.cons_ne_nil q qs) hqs] at h
  obtain ⟨l', hl', rfl⟩ := Option.map_eq_some_iff.mp h
  obtain ⟨v, l'', rfl, hv⟩ := readParams_name (hqs q List.mem_cons_self) hl'
  exact ⟨v, l'', rfl, hv⟩

/-- A quoted value after them that has a comma only if it has no quote has none, if anything is read. -/
theorem quote_not_mem_of_readParams {l : List (Bytes × Bytes)} (h : readParams n (writeParams (ps ++ q :: qs)) = some l)
    (hq : q.quoted = true) (hcomma : 34 ∈ q.value → 44 ∉ q.value) : 34 ∉ q.value := by
  intro hquote
  obtain ⟨m, rfl⟩ := Nat.exists_eq_add_of_le hn
  rw [readParams_append ps _ hps (List.cons_ne_nil q qs) hqs,
    readParams_broken (hqs q List.mem_cons_self) hq hquote (hcomma hquote), Option.map_none] at h
  cases h

end

end RtspProxy.Theory
