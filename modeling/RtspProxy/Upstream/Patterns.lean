import RtspProxy.Theory.Params
import RtspProxy.Upstream.Digest
import RtspProxy.Wire.Header

/-!
# Searching for a parameter

A parameter of a challenge is searched for in the whole text by two patterns, `name="…"` and, if that is
nowhere, `name=…`. Neither is tied to the beginning of a name or to the outside of a value, so they find
more than parameters of that name.

## The model

`Items` are parameters with the text that stands before each, and `shownFor` is what they show for a name:
the first quoted parameter whose name ends in it, or quoted value that ends in `name=` (which shows the
text up to the next quote); if there is none, the first token whose parameter's name ends in it, or place
inside a quoted value where `name=` is followed by something.

## What is proved

* `search_at` — a pattern that can match only where what is left of a text is one word.
* `matchQuoted_equals`, `matchQuoted_quote`, `matchUnquoted_equals`, `matchUnquoted_quote` — where the
  patterns match.
* `extractParam_items` — **the two patterns find what the parameters show.**
-/

namespace RtspProxy.Upstream

open Theory Wire

/-! ### Searching -/

section
variable {β : Type} {m : Bytes → Option β}

/-- A pattern that matches at most at one place of a text: where what is left of it is `k` but for case. -/
theorem search_at {k s t : Bytes} {r : Option β} (hk : k ≠ [])
    (h : ∀ y, y ≠ [] → y <:+ s → m (y ++ t) = if fold y = k then r else none) :
    search m (s ++ t) = (if k <:+ fold s then r else none).orElse fun _ => search m t := by
  induction s with
  | nil =>
    have hnot : ¬ k <:+ fold [] := fun hs => hk (List.suffix_nil.mp hs)
    rw [if_neg hnot]
    rfl
  | cons c s ih =>
    have hrest := ih fun y hy hys => h y hy (hys.trans (List.suffix_cons c s))
    have hhere := h (c :: s) (List.cons_ne_nil c s) (List.suffix_refl _)
    have hfold : fold (c :: s) = lower c :: fold s := rfl
    rw [List.cons_append] at hhere ⊢
    rw [search, hhere, hrest]
    by_cases heq : fold (c :: s) = k
    · have hnot : ¬ k <:+ fold s := by
        intro hsuffix
        have hlen := hsuffix.length_le
        rw [← heq, hfold, List.length_cons] at hlen
        omega
      rw [if_pos heq, if_neg hnot, if_pos (heq ▸ List.suffix_refl _)]
      rfl
    · have hiff : k <:+ fold (c :: s) ↔ k <:+ fold s := by
        rw [hfold, List.suffix_cons_iff, ← hfold]
        exact or_iff_right fun hks => heq hks.symm
      rw [if_neg heq]
      simp only [hiff]
      rfl

end

/-! ### Words without case -/

/-- The name of a parameter as a pattern has it: small letters, none of which has another fold. -/
def IsWord (name : Bytes) : Prop := name ≠ [] ∧ ∀ c ∈ name, 97 ≤ c ∧ c ≤ 122 ∧ c ≠ 115

instance (name : Bytes) : Decidable (IsWord name) := inferInstanceAs (Decidable (_ ∧ _))

/-- A pattern matches its letters in any case. -/
theorem matchFold_append {p a : Bytes} (h : fold a = fold p) (rest : Bytes) : matchFold p (a ++ rest) = some rest := by
  induction p generalizing a with
  | nil =>
    obtain rfl := List.map_eq_nil_iff.mp h
    rfl
  | cons c p ih =>
    cases a with
    | nil => cases h
    | cons d a =>
      obtain ⟨hc, hp⟩ := List.cons.inj h
      rw [List.cons_append, matchFold, if_pos hc.symm, ih hp]

theorem matchFold_iff {p s rest : Bytes} (hp : ∀ c ∈ p, lower c ≠ 115) :
    matchFold p s = some rest ↔ ∃ a, fold a = fold p ∧ s = a ++ rest := by
  refine ⟨fun h => ?_, fun ⟨a, ha, hs⟩ => hs ▸ matchFold_append ha rest⟩
  induction p generalizing s with
  | nil => exact ⟨[], rfl, Option.some.inj h⟩
  | cons c p ih =>
    obtain ⟨hc, hp⟩ := List.forall_mem_cons.mp hp
    cases s with
    | nil => cases h
    | cons d s =>
      have hother : ¬ (lower c = 115 ∧ d = 0xC5 ∧ s.head? = some 0xBF) := fun h => hc h.1
      rw [matchFold, if_neg hother] at h
      obtain ⟨heq, h⟩ := Option.ite_none_right_eq_some.mp h
      obtain ⟨a, ha, rfl⟩ := ih hp h
      exact ⟨d :: a, by rw [fold_cons, fold_cons, heq, ha], rfl⟩

theorem lower_of_sign {c : UInt8} (h : c < 65) : lower c = c := by
  unfold lower
  grind

theorem lower_of_lower_sign {c : UInt8} (h : lower c < 65) : lower c = c := by
  unfold lower at h ⊢
  grind

theorem fold_eq_self {s : Bytes} (h : ∀ c ∈ s, lower c = c) : fold s = s := by
  rw [fold, List.map_congr_left h, List.map_id']

theorem fold_append (s t : Bytes) : fold (s ++ t) = fold s ++ fold t := List.map_append

theorem fold_sign {sign : Bytes} (hsign : ∀ c ∈ sign, c < 65) : fold sign = sign :=
  fold_eq_self fun c hc => lower_of_sign (hsign c hc)

theorem eq_of_fold_eq_sign {s sign : Bytes} (hsign : ∀ c ∈ sign, c < 65) (h : fold s = sign) : s = sign := by
  rw [← h]
  exact (fold_eq_self fun c hc => lower_of_lower_sign (hsign _ (h ▸ List.mem_map_of_mem hc))).symm

/-- A sign is where it was before the letters were made small. -/
theorem mem_fold_sign {c : UInt8} (hc : c < 65) {s : Bytes} : c ∈ fold s ↔ c ∈ s := by
  constructor
  · intro h
    obtain ⟨d, hd, rfl⟩ := List.mem_map.mp h
    rwa [lower_of_lower_sign hc]
  · intro h
    exact lower_of_sign hc ▸ List.mem_map_of_mem h

namespace IsWord

variable {name : Bytes} (h : IsWord name)
include h

theorem lower_eq {c : UInt8} (hc : c ∈ name) : lower c = c := by
  have := h.2 c hc
  unfold lower
  grind

theorem fold_eq : fold name = name := fold_eq_self fun _ => h.lower_eq

theorem not_long {c : UInt8} (hc : c ∈ name) : lower c ≠ 115 := by
  rw [h.lower_eq hc]
  exact (h.2 c hc).2.2

/-- No sign is part of a word, in any case of it. -/
theorem sign_not_mem {a : Bytes} (ha : fold a = name) {c : UInt8} (hc : c < 65) : c ∉ a := by
  intro hmem
  have hlow := (h.2 c (ha ▸ (mem_fold_sign hc).mpr hmem)).1
  exact absurd hc (by grind)

end IsWord

theorem matchFold_word {name sign s rest : Bytes} (hname : IsWord name) (hsign : ∀ c ∈ sign, c < 65) :
    matchFold (name ++ sign) s = some rest ↔ ∃ a, fold a = name ∧ s = a ++ (sign ++ rest) := by
  have hplain : ∀ c ∈ name ++ sign, lower c ≠ 115 := by
    refine List.forall_mem_append.mpr ⟨fun c => hname.not_long, fun c hc => ?_⟩
    have hlow := hsign c hc
    rw [lower_of_sign hlow]
    grind
  rw [matchFold_iff hplain, fold_append, hname.fold_eq, fold_sign hsign]
  constructor
  · rintro ⟨a, ha, rfl⟩
    obtain ⟨a, b, rfl, rfl, hb⟩ := List.map_eq_append_iff.mp ha
    obtain rfl := eq_of_fold_eq_sign hsign hb
    exact ⟨a, rfl, by rw [List.append_assoc]⟩
  · rintro ⟨a, rfl, rfl⟩
    exact ⟨a ++ sign, by rw [fold_append, fold_sign hsign], by rw [List.append_assoc]⟩

/-! ### Where the patterns match -/

/-- What stands before the next quote. -/
def untilQuote (s : Bytes) : Option Bytes := if 34 ∈ s then some (s.takeWhile (· != 34)) else none

/-- A quoted value at the front. -/
def quotedValue : Bytes → Option Bytes
  | 34 :: s => untilQuote s
  | _ => none

/-- A value without quotes at the front. -/
def unquotedValue (s : Bytes) : Option Bytes :=
  let value := s.takeWhile fun c => c != 44 && !isBlank c
  if value.isEmpty then none else some value

theorem untilQuote_append {s : Bytes} (h : 34 ∉ s) (t : Bytes) : untilQuote (s ++ 34 :: t) = some s := by
  rw [untilQuote, if_pos (by simp), takeWhile_append_of_not_mem h]

theorem matchQuoted_eq (name s : Bytes) : matchQuoted name s = (matchFold (name ++ [61, 34]) s).bind untilQuote := by
  unfold matchQuoted
  congr 1
  funext rest
  by_cases h : 34 ∈ rest
  · obtain ⟨l, l', rfl, hl⟩ := exists_first h
    simp [untilQuote, takeWhile_append_of_not_mem hl]
  · have hall : rest.takeWhile (· != 34) = rest := List.takeWhile_eq_self_iff.mpr (bne_of_not_mem h)
    simp [untilQuote, h, hall]

section
variable {name y : Bytes} (hname : IsWord name)
include hname

/-- A word with `=` and other signs behind it, where the text has its first `=`. -/
theorem matchFold_equals (hy : 61 ∉ y) {w rest : Bytes} (sign : Bytes) (hsign : ∀ c ∈ 61 :: sign, c < 65) :
    matchFold (name ++ 61 :: sign) (y ++ 61 :: w) = some rest ↔ fold y = name ∧ w = sign ++ rest := by
  rw [matchFold_word hname hsign]
  constructor
  · rintro ⟨a, ha, heq⟩
    obtain ⟨rfl, rfl⟩ := append_cons_cancel hy (hname.sign_not_mem ha (by decide)) heq
    exact ⟨ha, rfl⟩
  · rintro ⟨hfold, rfl⟩
    exact ⟨y, hfold, rfl⟩

/-- The quoted form, where the text has its first `=`. -/
theorem matchQuoted_equals (hy : 61 ∉ y) (w : Bytes) :
    matchQuoted name (y ++ 61 :: w) = if fold y = name then quotedValue w else none := by
  have hmatch (rest : Bytes) : _ ↔ fold y = name ∧ w = 34 :: rest := matchFold_equals hname hy [34] (by decide)
  rw [matchQuoted_eq]
  cases h : matchFold (name ++ [61, 34]) (y ++ 61 :: w) with
  | some rest =>
    obtain ⟨hfold, rfl⟩ := (hmatch rest).mp h
    rw [if_pos hfold]
    rfl
  | none =>
    split_ifs with hfold
    · unfold quotedValue
      split
      case h_1 rest => exact absurd ((hmatch rest).mpr ⟨hfold, rfl⟩) (by simp [h])
      case h_2 => rfl
    · rfl

/-- The quoted form, where the text has its first quote. -/
theorem matchQuoted_quote (hy : 34 ∉ y) (tail : Bytes) :
    matchQuoted name (y ++ 34 :: tail) = if fold y = name ++ [61] then untilQuote tail else none := by
  have hmatch : ∀ rest, matchFold (name ++ [61, 34]) (y ++ 34 :: tail) = some rest ↔
      fold y = name ++ [61] ∧ tail = rest := by
    intro rest
    rw [matchFold_word hname (by decide)]
    constructor
    · rintro ⟨a, ha, heq⟩
      have hfree : 34 ∉ a ++ [61] := by
        rw [List.mem_append, not_or]
        exact ⟨hname.sign_not_mem ha (by decide), by decide⟩
      have heq : y ++ 34 :: tail = (a ++ [61]) ++ 34 :: rest := by rw [heq, List.append_assoc]; rfl
      obtain ⟨rfl, rfl⟩ := append_cons_cancel hy hfree heq
      exact ⟨by rw [fold_append, ha]; rfl, rfl⟩
    · rintro ⟨hfold, rfl⟩
      obtain ⟨a, b, rfl, ha, hb⟩ := List.map_eq_append_iff.mp hfold
      obtain rfl := eq_of_fold_eq_sign (by decide) hb
      exact ⟨a, ha, by rw [List.append_assoc]; rfl⟩
  rw [matchQuoted_eq]
  cases h : matchFold (name ++ [61, 34]) (y ++ 34 :: tail) with
  | some rest =>
    obtain ⟨hfold, rfl⟩ := (hmatch rest).mp h
    rw [if_pos hfold]
    rfl
  | none =>
    rw [if_neg fun hfold => ?_]
    · rfl
    · rw [(hmatch tail).mpr ⟨hfold, rfl⟩] at h
      cases h

/-- The other form, where the text has its first `=`. -/
theorem matchUnquoted_equals (hy : 61 ∉ y) (w : Bytes) :
    matchUnquoted name (y ++ 61 :: w) = if fold y = name then unquotedValue w else none := by
  have hmatch (rest : Bytes) : _ ↔ fold y = name ∧ w = rest := matchFold_equals hname hy [] (by decide)
  unfold matchUnquoted
  cases h : matchFold (name ++ [61]) (y ++ 61 :: w) with
  | some rest =>
    obtain ⟨hfold, rfl⟩ := (hmatch rest).mp h
    rw [if_pos hfold]
    rfl
  | none =>
    rw [if_neg fun hfold => ?_]
    · rfl
    · rw [(hmatch w).mpr ⟨hfold, rfl⟩] at h
      cases h

end

/-! ### The parameters of a text -/

/-- Parameters, each with the text that stands before it. -/
abbrev Items := List (Bytes × Param)

/-- The text of parameters with what stands before each. -/
def itemsText (items : Items) : Bytes := items.flatMap fun i => i.1 ++ i.2.text

theorem itemsText_cons (i : Bytes × Param) (items : Items) :
    itemsText (i :: items) = (i.1 ++ i.2.name) ++ 61 :: (i.2.valueText ++ itemsText items) := by
  simp [itemsText, Param.text]

/-- A parameter as a challenge has it: the name is a token, and the value too, or it has no quote. -/
def IsCleanParam (p : Param) : Prop :=
  (p.name ≠ [] ∧ ∀ c ∈ p.name, isTokenByte c = true) ∧
    if p.quoted then 34 ∉ p.value else p.value ≠ [] ∧ ∀ c ∈ p.value, isTokenByte c = true

instance (p : Param) : Decidable (IsCleanParam p) := inferInstanceAs (Decidable (_ ∧ ite _ _ _))

/-- Before a parameter stands no sign of another, and at the end a blank or a comma. -/
def IsLead (s : Bytes) : Prop := 61 ∉ s ∧ ∃ l c, s = l ++ [c] ∧ (c = 32 ∨ c = 44)

/-- Parameters that are set apart from each other. -/
structure Items.Clean (items : Items) : Prop where
  /-- The parameters are well formed. -/
  params : ∀ i ∈ items, IsCleanParam i.2
  /-- A blank or a comma stands before each. -/
  leads : ∀ i ∈ items, IsLead i.1
  /-- A blank or a comma stands behind each, but for the last. -/
  stops : ∀ i ∈ items.tail, ∃ c l, i.1 = c :: l ∧ (c = 32 ∨ c = 44)

theorem Items.Clean.tail {i : Bytes × Param} {items : Items} (h : Items.Clean (i :: items)) : Items.Clean items :=
  ⟨fun j hj => h.params j (List.mem_cons_of_mem _ hj), fun j hj => h.leads j (List.mem_cons_of_mem _ hj),
    fun j hj => h.stops j (List.mem_of_mem_tail hj)⟩

/-- The first quoted form of a word: a quoted parameter whose name ends in it, or a quoted value that ends in the
word and a `=`, with what stands before the next quote. -/
def quotedShown (name : Bytes) : Items → Option Bytes
  | [] => none
  | (_, p) :: items =>
    if p.quoted then
      if name <:+ fold p.name then some p.value
      else (if name ++ [61] <:+ fold p.value then untilQuote (itemsText items) else none).orElse fun _ =>
        quotedShown name items
    else quotedShown name items

/-- The first other form of a word inside a quoted value that `t` follows: what stands behind the word and a `=`, up to
a comma or a blank. -/
def shownInside (name : Bytes) : Bytes → Bytes → Option Bytes
  | [], _ => none
  | c :: v, t =>
    (if name ++ [61] <+: fold (c :: v) then unquotedValue ((c :: v).drop (name.length + 1) ++ t) else none).orElse
      fun _ => shownInside name v t

/-- The first other form of a word: a token whose parameter's name ends in it, or what stands behind the word and a
`=` in a quoted value. -/
def unquotedShown (name : Bytes) : Items → Option Bytes
  | [] => none
  | (_, p) :: items =>
    if p.quoted then
      (shownInside name p.value (34 :: itemsText items)).orElse fun _ => unquotedShown name items
    else if name <:+ fold p.name then some p.value
    else unquotedShown name items

/-- What the patterns find for a word. -/
def shownFor (name : Bytes) (items : Items) : Bytes :=
  (quotedShown name items).getD ((unquotedShown name items).getD [])

/-! ### Parameters that show a word at one place -/

section
variable {name : Bytes} {items : Items}

theorem shownInside_eq_none {v : Bytes} (h : ¬ name ++ [61] <:+: fold v) (t : Bytes) : shownInside name v t = none := by
  induction v with
  | nil => rfl
  | cons c v ih =>
    have hhere : ¬ name ++ [61] <+: fold (c :: v) := fun hp => h hp.isInfix
    have hrest : ¬ name ++ [61] <:+: fold v := fun hv => h (hv.trans (List.suffix_cons (lower c) (fold v)).isInfix)
    rw [shownInside, if_neg hhere, ih hrest]
    rfl

/-- No other name ends in the word, and no quoted value contains it with a `=` behind it. -/
structure Items.Unmistakable (name : Bytes) (items : Items) : Prop where
  /-- Names that end in it. -/
  names : ∀ i ∈ items, name <:+ fold i.2.name → fold i.2.name = name
  /-- Quoted values. -/
  values : ∀ i ∈ items, i.2.quoted = true → ¬ name ++ [61] <:+: fold i.2.value

theorem Items.Unmistakable.tail {i : Bytes × Param} (h : Items.Unmistakable name (i :: items)) :
    Items.Unmistakable name items :=
  ⟨fun j hj => h.names j (List.mem_cons_of_mem _ hj), fun j hj => h.values j (List.mem_cons_of_mem _ hj)⟩

/-- A name that ends in the word is the word. -/
theorem Items.Unmistakable.suffix_iff {i : Bytes × Param} (h : Items.Unmistakable name (i :: items)) :
    name <:+ fold i.2.name ↔ fold i.2.name = name :=
  ⟨h.names i List.mem_cons_self, fun heq => heq ▸ List.suffix_rfl⟩

theorem quotedShown_of_unmistakable (h : items.Unmistakable name) : quotedShown name items =
    (items.find? fun i => fold i.2.name == name && i.2.quoted).map fun i => i.2.value := by
  induction items with
  | nil => rfl
  | cons i items ih =>
    have hsuffix := h.suffix_iff
    rw [quotedShown, List.find?_cons, ih h.tail]
    cases hq : i.2.quoted with
    | false => simp
    | true =>
      have hvalue : ¬ name ++ [61] <:+ fold i.2.value := fun hs =>
        h.values i List.mem_cons_self hq hs.isInfix
      by_cases hname : fold i.2.name = name
      · rw [if_pos rfl, if_pos (hsuffix.mpr hname)]
        simp [hname]
      · rw [if_pos rfl, if_neg (mt hsuffix.mp hname), if_neg hvalue, beq_false_of_ne hname]
        rfl

theorem unquotedShown_of_unmistakable (h : items.Unmistakable name) : unquotedShown name items =
    (items.find? fun i => fold i.2.name == name && !i.2.quoted).map fun i => i.2.value := by
  induction items with
  | nil => rfl
  | cons i items ih =>
    have hsuffix := h.suffix_iff
    rw [unquotedShown, List.find?_cons, ih h.tail]
    cases hq : i.2.quoted with
    | true =>
      rw [if_pos rfl, shownInside_eq_none (h.values i List.mem_cons_self hq)]
      simp
    | false =>
      by_cases hname : fold i.2.name = name
      · rw [if_neg (by decide), if_pos (hsuffix.mpr hname)]
        simp [hname]
      · rw [if_neg (by decide), if_neg (mt hsuffix.mp hname), beq_false_of_ne hname]
        rfl

/-- **Such parameters show the value of the parameter**, if there is at most one of that name. -/
theorem shownFor_of_unmistakable (h : items.Unmistakable name)
    (honce : (items.filter fun i => fold i.2.name == name).length ≤ 1) :
    shownFor name items = ((items.find? fun i => fold i.2.name == name).map fun i => i.2.value).getD [] := by
  rw [shownFor, quotedShown_of_unmistakable h, unquotedShown_of_unmistakable h]
  have hall : items.find? (fun i => fold i.2.name == name) = (items.filter fun i => fold i.2.name == name).head? :=
    List.head?_filter.symm
  have hsome (q : Bytes × Param → Bool) : items.find? (fun i => fold i.2.name == name && q i) =
      (items.filter fun i => fold i.2.name == name).find? q := by
    rw [List.find?_filter]
    simp only [Bool.decide_and, Bool.decide_eq_true]
  rw [hall, hsome fun i => i.2.quoted, hsome fun i => !i.2.quoted]
  generalize items.filter (fun i => fold i.2.name == name) = named at honce
  rcases named with _ | ⟨i, _ | ⟨j, named⟩⟩
  · rfl
  · cases hq : i.2.quoted <;> simp [hq]
  · simp at honce

end

/-! ### The patterns find what is shown -/

/-- A word is the end of a name if it is the end of the name with a blank or comma before it. -/
theorem suffix_lead {name s l : Bytes} (hname : IsWord name) (hlead : IsLead s) :
    name <:+ fold (s ++ l) ↔ name <:+ fold l := by
  obtain ⟨-, s, c, rfl, hc⟩ := hlead
  have hsmall : lower c = c := by rcases hc with rfl | rfl <;> rfl
  have hfold : fold (s ++ [c] ++ l) = fold s ++ c :: fold l := by
    rw [List.append_assoc, fold_append, List.singleton_append, fold_cons, hsmall]
  have hfree : c ∉ name := by
    intro hmem
    have := (hname.2 c hmem).1
    rcases hc with rfl | rfl <;> exact absurd this (by decide)
  rw [hfold]
  constructor
  · rintro ⟨t, ht⟩
    by_contra hnot
    rcases List.append_eq_append_iff.mp ht with ⟨a, -, ha⟩ | ⟨a, ha, hb⟩
    · exact hfree (ha ▸ by simp)
    · cases a with
      | nil => exact hfree (by rw [List.nil_append] at hb; exact hb ▸ List.mem_cons_self)
      | cons d a =>
        obtain ⟨-, hb⟩ := List.cons.inj hb
        exact hnot ⟨a, hb.symm⟩
  · exact fun h => h.trans ((List.suffix_cons _ _).trans (List.suffix_append _ _))

theorem IsLead.append {u s : Bytes} (hu : 61 ∉ u) (hs : IsLead s) : IsLead (u ++ s) := by
  obtain ⟨hfree, l, c, rfl, hc⟩ := hs
  exact ⟨by rw [List.mem_append, not_or]; exact ⟨hu, hfree⟩, u ++ l, c, by rw [List.append_assoc], hc⟩

theorem isLead_of_blanks {s l : Bytes} (hs : 61 ∉ s) (hne : l ≠ []) (hl : ∀ c ∈ l, c = 32 ∨ c = 44) :
    IsLead (s ++ l) := by
  refine ⟨?_, s ++ l.dropLast, l.getLast hne, ?_, hl _ (List.getLast_mem hne)⟩
  · rw [List.mem_append, not_or]
    refine ⟨hs, fun hc => ?_⟩
    rcases hl _ hc with h | h <;> exact absurd h (by decide)
  · rw [List.append_assoc, List.dropLast_append_getLast]

theorem not_sign_of_token {c : UInt8} (h : isTokenByte c = true) :
    c ≠ 61 ∧ c ≠ 34 ∧ c ≠ 44 ∧ c ≠ 59 ∧ c ≠ 9 ∧ isBlank c = false := by
  have hall : ∀ c, isTokenByte c = true → c ≠ 61 ∧ c ≠ 34 ∧ c ≠ 44 ∧ c ≠ 59 ∧ c ≠ 9 ∧ isBlank c = false :=
    forall_byte (by decide +kernel)
  exact hall c h

theorem Items.Clean.free {i : Bytes × Param} {items : Items} (h : Items.Clean (i :: items)) : 61 ∉ i.1 ++ i.2.name := by
  rw [List.mem_append, not_or]
  exact ⟨(h.leads i List.mem_cons_self).1, fun hc =>
    (not_sign_of_token ((h.params i List.mem_cons_self).1.2 _ hc)).1 rfl⟩

/-- A pattern that needs a word and a `=` behind it. -/
structure NeedsEquals (name : Bytes) (m value : Bytes → Option Bytes) : Prop where
  /-- It matches where the word stands before the first `=`. -/
  equals : ∀ y, 61 ∉ y → ∀ w, m (y ++ 61 :: w) = if fold y = name then value w else none
  /-- It does not match where there is no `=`. -/
  free : ∀ y, 61 ∉ y → m y = none

theorem needsEquals_quoted {name : Bytes} (hname : IsWord name) :
    NeedsEquals name (matchQuoted name) quotedValue where
  equals _ hy w := matchQuoted_equals hname hy w
  free y hy := by
    rw [matchQuoted_eq]
    cases h : matchFold (name ++ [61, 34]) y with
    | none => rfl
    | some rest =>
      obtain ⟨a, -, rfl⟩ := (matchFold_word hname (by decide)).mp h
      exact absurd (by simp) hy

theorem needsEquals_unquoted {name : Bytes} (hname : IsWord name) :
    NeedsEquals name (matchUnquoted name) unquotedValue where
  equals _ hy w := matchUnquoted_equals hname hy w
  free y hy := by
    unfold matchUnquoted
    cases h : matchFold (name ++ [61]) y with
    | none => rfl
    | some rest =>
      obtain ⟨a, -, rfl⟩ := (matchFold_word hname (by decide)).mp h
      exact absurd (by simp) hy

section
variable {name : Bytes} {m value : Bytes → Option Bytes} (hname : IsWord name) (hm : NeedsEquals name m value)
include hname hm

theorem search_equals {u : Bytes} (hu : 61 ∉ u) (w : Bytes) : search m (u ++ 61 :: w) =
    (if name <:+ fold u then value w else none).orElse fun _ => search m w := by
  have hne : fold [] ≠ name := hname.1.symm
  have hsign : m (61 :: w) = none := by
    have := hm.equals [] List.not_mem_nil w
    rwa [if_neg hne] at this
  have hskip : search m (61 :: w) = search m w := by
    rw [search, hsign]
    rfl
  rw [search_at hname.1 fun y _ hy => hm.equals y (fun h => hu (hy.subset h)) w, hskip]

omit hname in
theorem search_free {u : Bytes} (hu : 61 ∉ u) : search m u = none := by
  induction u with
  | nil => exact hm.free [] hu
  | cons c u ih =>
    rw [search, hm.free _ hu, ih fun h => hu (List.mem_cons_of_mem c h)]
    rfl

/-- A text without `=` before the parameters is passed over. -/
theorem search_before {u : Bytes} (hu : 61 ∉ u) {items : Items} (hitems : items.Clean) :
    search m (u ++ itemsText items) = search m (itemsText items) := by
  cases items with
  | nil =>
    have hnil : itemsText [] = [] := rfl
    rw [hnil, List.append_nil, search_free hm hu, search_free hm List.not_mem_nil]
  | cons i items =>
    have hlead := hitems.leads i List.mem_cons_self
    have hfree : 61 ∉ u ++ (i.1 ++ i.2.name) := by
      rw [List.mem_append, not_or]
      exact ⟨hu, hitems.free⟩
    have hsame : name <:+ fold (u ++ (i.1 ++ i.2.name)) ↔ name <:+ fold (i.1 ++ i.2.name) := by
      rw [← List.append_assoc, suffix_lead hname (hlead.append hu), suffix_lead hname hlead]
    rw [itemsText_cons, ← List.append_assoc, search_equals hname hm hfree, search_equals hname hm hitems.free]
    simp only [hsame]

theorem search_cons {i : Bytes × Param} {items : Items} (hitems : Items.Clean (i :: items)) :
    search m (itemsText (i :: items)) =
      (if name <:+ fold i.2.name then value (i.2.valueText ++ itemsText items) else none).orElse fun _ =>
        search m (i.2.valueText ++ itemsText items) := by
  rw [itemsText_cons, search_equals hname hm hitems.free]
  simp only [suffix_lead hname (hitems.leads i List.mem_cons_self)]

end

/-! ### What the patterns find -/

section
variable {name : Bytes} (hname : IsWord name)
include hname

theorem search_quoted_value {v : Bytes} (hv : 34 ∉ v) (t : Bytes) : search (matchQuoted name) (v ++ 34 :: t) =
    (if name ++ [61] <:+ fold v then untilQuote t else none).orElse fun _ => search (matchQuoted name) t := by
  have hne : fold [] ≠ name ++ [61] := by simp
  have hsign : matchQuoted name (34 :: t) = none := by
    have := matchQuoted_quote hname List.not_mem_nil t
    rwa [if_neg hne] at this
  have hskip : search (matchQuoted name) (34 :: t) = search (matchQuoted name) t := by
    rw [search, hsign]
    rfl
  rw [search_at (by simp) fun y _ hy => matchQuoted_quote hname (fun h => hv (hy.subset h)) t, hskip]

/-- The quoted pattern finds the first quoted form. -/
theorem search_quoted_items {items : Items} (hitems : items.Clean) :
    search (matchQuoted name) (itemsText items) = quotedShown name items := by
  have hpattern := needsEquals_quoted hname
  induction items with
  | nil => exact search_free hpattern List.not_mem_nil
  | cons i items ih =>
    obtain ⟨lead, p⟩ := i
    have hrest := ih hitems.tail
    obtain ⟨-, hvalue⟩ := hitems.params _ List.mem_cons_self
    rw [search_cons hname hpattern hitems, quotedShown]
    cases hq : p.quoted with
    | true =>
      simp only [hq, if_true] at hvalue ⊢
      have htext : p.valueText ++ itemsText items = [] ++ 34 :: (p.value ++ 34 :: itemsText items) := by
        simp [Param.valueText, hq]
      have hshown : quotedValue ([] ++ 34 :: (p.value ++ 34 :: itemsText items)) = some p.value :=
        untilQuote_append hvalue _
      have hopen : ¬ name ++ [61] <:+ fold [] := by simp
      rw [htext, hshown, search_quoted_value hname List.not_mem_nil, if_neg hopen, search_quoted_value hname hvalue,
        hrest]
      split_ifs <;> rfl
    | false =>
      simp only [hq, Bool.false_eq_true, if_false] at hvalue ⊢
      have htext : p.valueText = p.value := by simp [Param.valueText, hq]
      have hnone : quotedValue (p.value ++ itemsText items) = none := by
        obtain ⟨c, v, hv⟩ := List.exists_cons_of_ne_nil hvalue.1
        have hc : c ≠ 34 := (not_sign_of_token (hvalue.2 c (hv ▸ List.mem_cons_self))).2.1
        rw [hv, List.cons_append, quotedValue]
        rintro t ⟨rfl, -⟩
        exact hc rfl
      rw [htext, hnone, ite_self, search_before hname hpattern (fun hc => (not_sign_of_token (hvalue.2 _ hc)).1 rfl)
        hitems.tail, hrest]
      rfl

theorem search_unquoted_quote (s : Bytes) : search (matchUnquoted name) (34 :: s) = search (matchUnquoted name) s := by
  have hnone : matchFold (name ++ [61]) (34 :: s) = none := by
    cases h : matchFold (name ++ [61]) (34 :: s) with
    | none => rfl
    | some rest =>
      obtain ⟨a, ha, heq⟩ := (matchFold_word hname (by decide)).mp h
      cases a with
      | nil => exact absurd ha.symm hname.1
      | cons c a =>
        obtain ⟨rfl, -⟩ := List.cons.inj heq
        exact absurd List.mem_cons_self (hname.sign_not_mem ha (by decide))
  rw [search, matchUnquoted, hnone]
  rfl

theorem matchUnquoted_quote {y : Bytes} (hy : 34 ∉ y) (t : Bytes) : matchUnquoted name (y ++ 34 :: t) =
    if name ++ [61] <+: fold y then unquotedValue (y.drop (name.length + 1) ++ 34 :: t) else none := by
  unfold matchUnquoted
  cases h : matchFold (name ++ [61]) (y ++ 34 :: t) with
  | none =>
    rw [if_neg]
    · rfl
    · rintro ⟨l, hl⟩
      obtain ⟨a, b, rfl, ha, -⟩ := List.map_eq_append_iff.mp hl.symm
      have hfold : fold a = fold (name ++ [61]) := by
        rw [fold_append, hname.fold_eq]
        exact ha
      rw [List.append_assoc, matchFold_append hfold] at h
      cases h
  | some rest =>
    obtain ⟨a, ha, heq⟩ := (matchFold_word hname (by decide)).mp h
    have hfree : 34 ∉ a ++ [61] := by
      rw [List.mem_append, not_or]
      exact ⟨hname.sign_not_mem ha (by decide), by decide⟩
    obtain ⟨l, rfl⟩ : a ++ [61] <+: y := (isPrefix_append_iff hfree).mp ⟨rest, by rw [heq, List.append_assoc]⟩
    obtain rfl : l ++ 34 :: t = rest := by simpa using heq
    have hlen : (a ++ [61]).length = name.length + 1 := by simp [← ha, fold]
    have hpre : name ++ [61] <+: fold (a ++ [61] ++ l) := by
      rw [fold_append, fold_append, ha]
      exact List.prefix_append _ _
    rw [if_pos hpre, ← hlen, List.drop_left]
    rfl

theorem search_unquoted_value {v : Bytes} (hv : 34 ∉ v) (t : Bytes) : search (matchUnquoted name) (v ++ 34 :: t) =
    (shownInside name v (34 :: t)).orElse fun _ => search (matchUnquoted name) t := by
  induction v with
  | nil => exact search_unquoted_quote hname t
  | cons c v ih =>
    have hhere := matchUnquoted_quote hname hv t
    rw [List.cons_append] at hhere ⊢
    rw [search, hhere, ih fun h => hv (List.mem_cons_of_mem c h), shownInside]
    cases (if name ++ [61] <+: fold (c :: v) then unquotedValue ((c :: v).drop (name.length + 1) ++ 34 :: t) else none)
    <;> rfl

omit hname in
/-- A token ends where the next parameter is set apart. -/
theorem unquotedValue_token {v : Bytes} (hv : v ≠ [] ∧ ∀ c ∈ v, isTokenByte c = true) {items : Items}
    (hstops : ∀ i ∈ items, ∃ c l, i.1 = c :: l ∧ (c = 32 ∨ c = 44)) :
    unquotedValue (v ++ itemsText items) = some v := by
  have hpass : ∀ c ∈ v, (c != 44 && !isBlank c) = true := by
    intro c hc
    obtain ⟨-, -, hcomma, -, -, hblank⟩ := not_sign_of_token (hv.2 c hc)
    simp [hcomma, hblank]
  have hstop : (itemsText items).takeWhile (fun c => c != 44 && !isBlank c) = [] := by
    cases items with
    | nil => rfl
    | cons i items =>
      obtain ⟨c, l, hi, hc⟩ := hstops i List.mem_cons_self
      rw [itemsText_cons, hi, List.cons_append, List.cons_append, List.takeWhile_cons_of_neg]
      rcases hc with rfl | rfl <;> decide
  unfold unquotedValue
  rw [List.takeWhile_append_of_pos hpass, hstop, List.append_nil]
  simp [hv.1]

/-- Where there is no quoted form, the other pattern finds the first other form. -/
theorem search_unquoted_items {items : Items} (hitems : items.Clean) (hnone : quotedShown name items = none) :
    search (matchUnquoted name) (itemsText items) = unquotedShown name items := by
  have hpattern := needsEquals_unquoted hname
  induction items with
  | nil => exact search_free hpattern List.not_mem_nil
  | cons i items ih =>
    obtain ⟨lead, p⟩ := i
    obtain ⟨-, hvalue⟩ := hitems.params _ List.mem_cons_self
    rw [search_cons hname hpattern hitems, unquotedShown]
    rw [quotedShown] at hnone
    cases hq : p.quoted with
    | true =>
      have hname' : ¬ name <:+ fold p.name := fun h => by simp [hq, h] at hnone
      have hnone : quotedShown name items = none := by
        simp only [hq, if_true, if_neg hname'] at hnone
        rw [Option.orElse_eq_or, Option.or_eq_none_iff] at hnone
        exact hnone.2
      have htext : p.valueText ++ itemsText items = 34 :: (p.value ++ 34 :: itemsText items) := by
        simp [Param.valueText, hq]
      simp only [hq, if_true] at hvalue ⊢
      rw [htext, if_neg hname', Option.orElse_none, search_unquoted_quote hname, search_unquoted_value hname hvalue,
        ih hitems.tail hnone]
    | false =>
      simp only [hq, Bool.false_eq_true, if_false] at hvalue hnone ⊢
      have htext : p.valueText = p.value := by simp [Param.valueText, hq]
      have hshown : unquotedValue (p.value ++ itemsText items) = some p.value := unquotedValue_token hvalue hitems.stops
      rw [htext, hshown, search_before hname hpattern (fun hc => (not_sign_of_token (hvalue.2 _ hc)).1 rfl)
        hitems.tail, ih hitems.tail hnone]
      split_ifs <;> rfl

/-- **What is extracted of parameters that are set apart.** -/
theorem extractParam_items {items : Items} (hitems : items.Clean) :
    extractParam name (itemsText items) = shownFor name items := by
  unfold extractParam shownFor
  rw [search_quoted_items hname hitems]
  cases h : quotedShown name items with
  | some v => rfl
  | none => rw [search_unquoted_items hname hitems h]; rfl

end

end RtspProxy.Upstream
