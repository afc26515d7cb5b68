import Mathlib.Data.List.TakeWhile
import RtspProxy.Wire.Text
import RtspProxy.Wire.Request

/-!
# What is read from a first line

`ParseStatus` and `ParseCommand` take the first line of a message apart at blanks and tabs. The words are
built one byte at a time, by `string(buffer[i])`, which is the encoding of the byte as a character. So a
byte from 128 on is turned into two, and a text in UTF-8 is not what it was (`mangled`).

The status code is a word of three bytes that `strconv.Atoi` takes. That is not the same as three digits
with a first digit that is not `0`: a sign is taken too, and so is a `0` in front (`odd_accepted`).

## The model

`StatusParts` takes a line apart as RTSP does: a version, a code and a reason, with a blank or a tab
between them. `threeDigits` is the number of a code as RTSP has it, and `oddCode` that of the other codes
that are accepted.

## What is proved

* `atoi_code` — the codes that `ParseStatus` takes for a number.
* `accepted_iff` — the lines that it accepts, and with which code.
* `accepted_exactly_iff` — **a line of one line is accepted exactly if it is a status line, unless its code is
  a sign or a `0` and two digits that are not both `0`.**
* `taken_over_iff` — **the words of a first line are taken over byte for byte exactly if they are of ASCII
  characters.**
-/

namespace RtspProxy.Wire

open Theory

/-! ### Bytes as strings -/

theorem length_runeString (c : UInt8) : 0 < (runeString c).length := by
  unfold runeString
  split_ifs <;> simp

theorem length_le_flatMap_runeString (s : Bytes) : s.length ≤ (s.flatMap runeString).length := by
  induction s with
  | nil => simp
  | cons c s ih =>
    have := length_runeString c
    simp only [List.flatMap_cons, List.length_append, List.length_cons]
    omega

theorem flatMap_runeString_eq_nil {s : Bytes} : s.flatMap runeString = [] ↔ s = [] := by
  refine ⟨fun h => ?_, fun h => by rw [h, List.flatMap_nil]⟩
  have hlen := length_le_flatMap_runeString s
  rw [h] at hlen
  exact List.eq_nil_of_length_eq_zero (Nat.le_zero.mp hlen)

/-- A text is left as it is exactly if it is of ASCII characters: any other byte makes it longer. -/
theorem flatMap_runeString_eq_self_iff {s : Bytes} : s.flatMap runeString = s ↔ IsAscii s := by
  refine ⟨fun h => ?_, flatMap_runeString⟩
  induction s with
  | nil => exact fun c hc => absurd hc List.not_mem_nil
  | cons c s ih =>
    rw [List.flatMap_cons] at h
    by_cases hc : c < 128
    · rw [runeString, if_pos hc, List.singleton_append] at h
      exact List.forall_mem_cons.mpr ⟨hc, ih (List.cons.inj h).2⟩
    · have hlen := congrArg List.length h
      have hle := length_le_flatMap_runeString s
      rw [runeString, if_neg hc] at hlen
      simp only [List.length_append, List.length_cons, List.length_nil] at hlen
      omega

/-- A text that is of ASCII characters after it was built was so before. -/
theorem isAscii_of_flatMap {s : Bytes} (h : IsAscii (s.flatMap runeString)) : IsAscii s := by
  have hrune : ∀ c : UInt8, IsAscii (runeString c) → c < 128 := forall_byte (by decide +kernel)
  exact fun c hc => hrune c fun d hd => h d (List.mem_flatMap.mpr ⟨c, hc, hd⟩)

/-! ### Words -/

/-- Where something follows a word, a blank or a tab stands between them. -/
theorem exists_of_nextWord {buffer : Bytes} (h : (nextWord buffer).2 ≠ []) :
    ∃ w b rest, buffer = w ++ b :: rest ∧ (∀ c ∈ w, notBlank c = true) ∧ notBlank b = false := by
  cases hrest : buffer.dropWhile notBlank with
  | nil =>
    have hlen := congrArg List.length (List.takeWhile_append_dropWhile (p := notBlank) (l := buffer))
    rw [hrest, List.append_nil] at hlen
    exact absurd (List.drop_eq_nil_of_le (by omega)) h
  | cons b rest =>
    refine ⟨buffer.takeWhile notBlank, b, rest, ?_, fun c hc => List.mem_takeWhile_imp hc, ?_⟩
    · rw [← hrest, List.takeWhile_append_dropWhile]
    · have hhead := List.head?_dropWhile_not notBlank buffer
      rw [hrest] at hhead
      simpa using hhead

theorem word_cancel {w w' rest rest' : Bytes} {b b' : UInt8} (hw : ∀ c ∈ w, notBlank c = true)
    (hw' : ∀ c ∈ w', notBlank c = true) (hb : notBlank b = false) (hb' : notBlank b' = false)
    (h : w ++ b :: rest = w' ++ b' :: rest') : w = w' ∧ rest = rest' := by
  have htake := congrArg (List.takeWhile notBlank) h
  rw [List.takeWhile_append_of_pos hw, List.takeWhile_append_of_pos hw', List.takeWhile_cons_of_neg (by simp [hb]),
    List.takeWhile_cons_of_neg (by simp [hb']), List.append_nil, List.append_nil] at htake
  subst htake
  exact ⟨rfl, (List.cons.inj (List.append_cancel_left h)).2⟩

/-! ### Codes -/

/-- The value of a digit. -/
def digitValue (c : UInt8) : ℕ := c.toNat - 48

/-- The number of a status code: three digits, of which the first is not `0`. -/
def threeDigits : Bytes → Option ℤ
  | [a, b, c] =>
    if isDigit a ∧ a ≠ 48 ∧ isDigit b ∧ isDigit c then
      some (100 * digitValue a + 10 * digitValue b + digitValue c : ℕ)
    else none
  | _ => none

/-- The number of a sign or a `0` and two digits that are not both `0`. -/
def oddCode : Bytes → Option ℤ
  | [a, b, c] =>
    if isDigit b ∧ isDigit c ∧ ¬ (b = 48 ∧ c = 48) then
      if a = 45 then some (-(10 * digitValue b + digitValue c : ℕ))
      else if a = 43 ∨ a = 48 then some (10 * digitValue b + digitValue c : ℕ)
      else none
    else none
  | _ => none

theorem isDigit_iff {c : UInt8} : isDigit c = true ↔ 48 ≤ c ∧ c ≤ 57 := by simp [isDigit]

theorem digitValue_le {c : UInt8} (h : isDigit c = true) : digitValue c ≤ 9 := by
  have hle := UInt8.le_iff_toNat_le.mp (isDigit_iff.mp h).2
  have h57 : (57 : UInt8).toNat = 57 := rfl
  unfold digitValue
  omega

theorem digitValue_eq_zero {c : UInt8} (h : isDigit c = true) : digitValue c = 0 ↔ c = 48 := by
  have hle := UInt8.le_iff_toNat_le.mp (isDigit_iff.mp h).1
  have h48 : (48 : UInt8).toNat = 48 := rfl
  rw [← UInt8.toNat_inj]
  unfold digitValue
  omega

theorem parseUint_cons {m : ℕ} (hm : m < 100) (c : UInt8) (s : Bytes) :
    parseUint m (c :: s) = if isDigit c then parseUint (m * 10 + digitValue c) s else .error .invalid := by
  rw [parseUint]
  by_cases hc : isDigit c = true
  · have hle := digitValue_le hc
    unfold digitValue at hle ⊢
    rw [if_pos (isDigit_iff.mp hc), if_neg (by omega), if_pos hc]
  · rw [if_neg (mt isDigit_iff.mpr hc), if_neg hc]

theorem parseUint_two {m : ℕ} (hm : m < 10) (b c : UInt8) :
    parseUint m [b, c] = if isDigit b ∧ isDigit c then .ok (100 * m + 10 * digitValue b + digitValue c)
      else .error .invalid := by
  rw [parseUint_cons (by omega)]
  by_cases hb : isDigit b = true
  · have hle := digitValue_le hb
    rw [if_pos hb, parseUint_cons (by omega), parseUint]
    by_cases hc : isDigit c = true
    · rw [if_pos hc, if_pos ⟨hb, hc⟩]
      congr 1
      omega
    · rw [if_neg hc, if_neg fun h => hc h.2]
  · rw [if_neg hb, if_neg fun h => hb h.1]

theorem clamp64_of_lt (neg : Bool) {n : ℕ} (h : n < 1000) :
    clamp64 neg n = (if neg then -(n : ℤ) else n, none) := by
  unfold clamp64
  split_ifs <;> first | rfl | omega

/-- What `strconv.Atoi` makes of a sign and two digits. -/
theorem atoi_sign (neg : Bool) (b c : UInt8) :
    atoi [if neg then 45 else 43, b, c] = if isDigit b ∧ isDigit c then
      (if neg then -((10 * digitValue b + digitValue c : ℕ) : ℤ) else (10 * digitValue b + digitValue c : ℕ), none)
      else (0, some .invalid) := by
  have hparse := parseUint_two (show 0 < 10 by decide) b c
  by_cases h : isDigit b = true ∧ isDigit c = true
  · have hb := digitValue_le h.1
    have hc := digitValue_le h.2
    have hclamp := clamp64_of_lt neg (show 10 * digitValue b + digitValue c < 1000 by omega)
    rw [if_pos h, Nat.mul_zero, Nat.zero_add] at hparse
    rw [if_pos h, ← hclamp]
    cases neg <;> simp [atoi, hparse]
  · rw [if_neg h] at hparse
    rw [if_neg h]
    cases neg <;> simp [atoi, hparse]

/-- What it makes of three bytes without a sign. -/
theorem atoi_three {a : UInt8} (hplus : a ≠ 43) (hminus : a ≠ 45) (b c : UInt8) :
    atoi [a, b, c] = if isDigit a ∧ isDigit b ∧ isDigit c then
      (((100 * digitValue a + 10 * digitValue b + digitValue c : ℕ) : ℤ), none) else (0, some .invalid) := by
  have hparse : parseUint 0 [a, b, c] = if isDigit a ∧ isDigit b ∧ isDigit c then
      .ok (100 * digitValue a + 10 * digitValue b + digitValue c) else .error .invalid := by
    rw [parseUint_cons (by decide)]
    by_cases ha : isDigit a = true
    · have hle := digitValue_le ha
      rw [if_pos ha, Nat.zero_mul, Nat.zero_add, parseUint_two (by omega)]
      simp [ha]
    · rw [if_neg ha, if_neg fun h => ha h.1]
  by_cases h : isDigit a = true ∧ isDigit b = true ∧ isDigit c = true
  · have ha := digitValue_le h.1
    have hb := digitValue_le h.2.1
    have hc := digitValue_le h.2.2
    have hclamp := clamp64_of_lt false (show 100 * digitValue a + 10 * digitValue b + digitValue c < 1000 by omega)
    rw [if_pos h] at hparse ⊢
    rw [if_neg Bool.false_ne_true] at hclamp
    rw [← hclamp]
    simp [atoi, hplus, hminus, hparse]
  · rw [if_neg h] at hparse ⊢
    simp [atoi, hplus, hminus, hparse]

theorem zeros_iff {b c : UInt8} (hb : isDigit b = true) (hc : isDigit c = true) :
    b = 48 ∧ c = 48 ↔ 10 * digitValue b + digitValue c = 0 := by
  rw [← digitValue_eq_zero hb, ← digitValue_eq_zero hc]
  omega

theorem atoi_sign_code (neg : Bool) (b c : UInt8) (n : ℤ) :
    atoi [if neg then 45 else 43, b, c] = (n, none) ∧ n ≠ 0 ↔ oddCode [if neg then 45 else 43, b, c] = some n := by
  have hodd : oddCode [if neg then 45 else 43, b, c] = if isDigit b ∧ isDigit c ∧ ¬ (b = 48 ∧ c = 48) then
      some (if neg then -((10 * digitValue b + digitValue c : ℕ) : ℤ) else (10 * digitValue b + digitValue c : ℕ))
      else none := by
    cases neg <;> rfl
  rw [atoi_sign, hodd]
  by_cases h : isDigit b = true ∧ isDigit c = true
  · rw [if_pos h]
    simp only [zeros_iff h.1 h.2]
    generalize 10 * digitValue b + digitValue c = m
    cases neg <;> simp [h] <;> omega
  · rw [if_neg h, if_neg fun h' => h ⟨h'.1, h'.2.1⟩]
    simp

theorem atoi_three_code {a : UInt8} (hplus : a ≠ 43) (hminus : a ≠ 45) (b c : UInt8) (n : ℤ) :
    atoi [a, b, c] = (n, none) ∧ n ≠ 0 ↔ threeDigits [a, b, c] = some n ∨ oddCode [a, b, c] = some n := by
  rw [atoi_three hplus hminus, threeDigits, oddCode, if_neg hminus]
  by_cases h : isDigit b = true ∧ isDigit c = true
  · by_cases ha : isDigit a = true
    · have hzero := digitValue_eq_zero ha
      by_cases h48 : a = 48
      · -- the two digits behind the `0` are the number
        rw [if_pos ⟨ha, h⟩, hzero.mpr h48]
        simp only [zeros_iff h.1 h.2]
        simp [h48, h]
        omega
      · have hpos := mt hzero.mp h48
        simp [ha, h, h48, hplus]
        omega
    · have h48 : a ≠ 48 := by
        rintro rfl
        exact ha rfl
      simp [ha, h48, hplus]
  · rw [if_neg fun h' => h h'.2, if_neg fun h' => h h'.2.2, if_neg fun h' => h ⟨h'.1, h'.2.1⟩]
    simp

/-- The codes that are taken for a number other than `0`. -/
theorem atoi_code (a b c : UInt8) (n : ℤ) :
    atoi [a, b, c] = (n, none) ∧ n ≠ 0 ↔ threeDigits [a, b, c] = some n ∨ oddCode [a, b, c] = some n := by
  by_cases hplus : a = 43
  · subst hplus
    have hnone : threeDigits [43, b, c] = none := rfl
    simpa [hnone] using atoi_sign_code false b c n
  · by_cases hminus : a = 45
    · subst hminus
      have hnone : threeDigits [45, b, c] = none := rfl
      simpa [hnone] using atoi_sign_code true b c n
    · exact atoi_three_code hplus hminus b c n

theorem exists_of_code {w : Bytes} {n : ℤ} (h : threeDigits w = some n ∨ oddCode w = some n) :
    ∃ a b c, w = [a, b, c] := by
  unfold threeDigits oddCode at h
  split at h
  · exact ⟨_, _, _, rfl⟩
  · simp at h

theorem threeDigits_bounds {w : Bytes} {n : ℤ} (h : threeDigits w = some n) : 100 ≤ n ∧ n ≤ 999 := by
  obtain ⟨a, b, c, rfl⟩ := exists_of_code (.inl h)
  rw [threeDigits] at h
  split_ifs at h with hcode
  obtain ⟨ha, h48, hb, hc⟩ := hcode
  have ha' := digitValue_le ha
  have hb' := digitValue_le hb
  have hc' := digitValue_le hc
  have hpos := mt (digitValue_eq_zero ha).mp h48
  have hn := Option.some.inj h
  omega

theorem oddCode_lt {w : Bytes} {n : ℤ} (h : oddCode w = some n) : n < 100 := by
  obtain ⟨a, b, c, rfl⟩ := exists_of_code (.inr h)
  rw [oddCode] at h
  split_ifs at h with hcode
  all_goals
    have hb := digitValue_le hcode.1
    have hc := digitValue_le hcode.2.1
    have hn := Option.some.inj h
    omega

/-- What `ParseStatus` makes of the word in the place of the code. -/
def codeNumber (w : Bytes) : ℤ × Option NumError :=
  if (w.flatMap runeString).length = 3 then atoi (w.flatMap runeString) else (0, none)

theorem isAscii_of_atoi {s : Bytes} (h : (atoi s).2 = none) : IsAscii s :=
  fun c hc => UInt8.lt_of_le_of_lt (digits_of_atoi h c hc).2 (by decide)

theorem codeNumber_iff {w : Bytes} {n : ℤ} :
    codeNumber w = (n, none) ∧ n ≠ 0 ↔ threeDigits w = some n ∨ oddCode w = some n := by
  constructor
  · rintro ⟨h, hn⟩
    rw [codeNumber] at h
    split_ifs at h with hlen
    · -- a byte from 128 on would turn into two that are no digits
      have hascii := isAscii_of_flatMap (isAscii_of_atoi (congrArg Prod.snd h))
      rw [flatMap_runeString hascii] at h hlen
      obtain ⟨a, b, c, rfl⟩ := List.length_eq_three.mp hlen
      exact (atoi_code a b c n).mp ⟨h, hn⟩
    · exact absurd (congrArg Prod.fst h).symm hn
  · intro h
    obtain ⟨a, b, c, rfl⟩ := exists_of_code h
    obtain ⟨hatoi, hn⟩ := (atoi_code a b c n).mpr h
    have hascii := isAscii_of_atoi (congrArg Prod.snd hatoi)
    rw [codeNumber, flatMap_runeString hascii]
    exact ⟨hatoi, hn⟩

/-! ### Status lines -/

/-- A line of a version, a code and a reason, with a blank or a tab between them. -/
structure StatusParts (line version code reason : Bytes) : Prop where
  /-- There is a version. -/
  version_ne : version ≠ []
  /-- It is one word. -/
  version_word : ∀ c ∈ version, notBlank c = true
  /-- So is the code. -/
  code_word : ∀ c ∈ code, notBlank c = true
  /-- There is a reason. -/
  reason_ne : reason ≠ []
  line_eq : ∃ s t, notBlank s = false ∧ notBlank t = false ∧ line = version ++ s :: (code ++ t :: reason)

/-- A status line whose code, of three digits, is a number. -/
def IsStatusLine (line : Bytes) (n : ℤ) : Prop :=
  ∃ version code reason, StatusParts line version code reason ∧ threeDigits code = some n

/-- A line with a sign or a `0` and two digits, not both `0`, in the place of the code. -/
def IsOddLine (line : Bytes) (n : ℤ) : Prop :=
  ∃ version code reason, StatusParts line version code reason ∧ oddCode code = some n

section
variable {line version code reason : Bytes}

theorem StatusParts.unique {version' code' reason' : Bytes} (h : StatusParts line version code reason)
    (h' : StatusParts line version' code' reason') : version = version' ∧ code = code' ∧ reason = reason' := by
  obtain ⟨s, t, hs, ht, rfl⟩ := h.line_eq
  obtain ⟨s', t', hs', ht', hline⟩ := h'.line_eq
  obtain ⟨hversion, hrest⟩ := word_cancel h.version_word h'.version_word hs hs' hline
  exact ⟨hversion, word_cancel h.code_word h'.code_word ht ht' hrest⟩

/-- What is accepted of a line with these parts. -/
theorem StatusParts.parseStatus_iff (h : StatusParts line version code reason) (hline : OneLine line)
    {r : Response} : parseStatus line = .ok r ↔ ∃ n, (threeDigits code = some n ∨ oddCode code = some n) ∧
      r = ⟨reason.flatMap runeString, version.flatMap runeString, n, [], []⟩ := by
  obtain ⟨s, t, hs, ht, rfl⟩ := h.line_eq
  have hreason : OneLine reason := fun c hc => hline c (by simp [hc])
  have hversion_ne := mt flatMap_runeString_eq_nil.mp h.version_ne
  have hreason_ne := mt flatMap_runeString_eq_nil.mp h.reason_ne
  simp only [← codeNumber_iff]
  cases hcode : codeNumber code with
  | mk m e =>
    rw [codeNumber] at hcode
    simp only [parseStatus, nextWord_cons h.version_word hs, nextWord_cons h.code_word ht,
      restOfLine_of_oneLine hreason, hcode]
    cases e with
    | some e => simp
    | none =>
      by_cases hm : m = 0
      · simp [hm]
      · simp [hm, hversion_ne, hreason_ne, eq_comm]

theorem exists_parts {r : Response} (h : parseStatus line = .ok r) :
    ∃ version code reason, StatusParts line version code reason := by
  rw [parseStatus] at h
  dsimp only at h
  generalize (if (nextWord (nextWord line).2).1.length = 3 then atoi (nextWord (nextWord line).2).1 else (0, none)) =
    number at h
  obtain ⟨n, _ | e⟩ := number
  · dsimp only at h
    split_ifs at h with hbad
    simp only [not_or] at hbad
    obtain ⟨hstatus, -, hversion⟩ := hbad
    have hrest₂ : (nextWord (nextWord line).2).2 ≠ [] := fun hnil => hstatus (by rw [hnil]; rfl)
    have hrest₁ : (nextWord line).2 ≠ [] := fun hnil => hrest₂ (by rw [hnil]; rfl)
    obtain ⟨version, s, rest, rfl, hword, hs⟩ := exists_of_nextWord hrest₁
    rw [nextWord_cons hword hs] at hversion hrest₂
    obtain ⟨code, t, reason, rfl, hcode, ht⟩ := exists_of_nextWord hrest₂
    rw [nextWord_cons hcode ht] at hrest₂
    exact ⟨version, code, reason, mt flatMap_runeString_eq_nil.mpr hversion, hword, hcode, hrest₂, s, t, hs, ht, rfl⟩
  · cases h

/-- **The lines that are accepted, and with which code.** -/
theorem accepted_iff (hline : OneLine line) (n : ℤ) :
    (∃ r, parseStatus line = .ok r ∧ r.code = n) ↔ IsStatusLine line n ∨ IsOddLine line n := by
  constructor
  · rintro ⟨r, hr, rfl⟩
    obtain ⟨version, code, reason, hparts⟩ := exists_parts hr
    obtain ⟨n, hcode, rfl⟩ := (hparts.parseStatus_iff hline).mp hr
    exact hcode.imp (fun h => ⟨_, _, _, hparts, h⟩) fun h => ⟨_, _, _, hparts, h⟩
  · rintro (⟨version, code, reason, hparts, hcode⟩ | ⟨version, code, reason, hparts, hcode⟩)
    · exact ⟨_, (hparts.parseStatus_iff hline).mpr ⟨n, .inl hcode, rfl⟩, rfl⟩
    · exact ⟨_, (hparts.parseStatus_iff hline).mpr ⟨n, .inr hcode, rfl⟩, rfl⟩

/-- **When exactly the status lines are accepted**: a line is accepted with a code if and only if it is a status line
with that code, which is between 100 and 999, unless it has a sign or a `0` and two digits, not both `0`, in the
place of the code. -/
theorem accepted_exactly_iff (hline : OneLine line) :
    ((∀ n, (∃ r, parseStatus line = .ok r ∧ r.code = n) ↔ IsStatusLine line n) ∧
      ∀ r, parseStatus line = .ok r → 100 ≤ r.code ∧ r.code ≤ 999) ↔ ¬ ∃ n, IsOddLine line n := by
  constructor
  · rintro ⟨-, hbounds⟩ ⟨n, hodd⟩
    obtain ⟨r, hr, rfl⟩ := (accepted_iff hline n).mpr (.inr hodd)
    obtain ⟨_, _, _, _, hcode⟩ := hodd
    have hlt := oddCode_lt hcode
    have hle := (hbounds r hr).1
    omega
  · intro hodd
    have hexact : ∀ n, (∃ r, parseStatus line = .ok r ∧ r.code = n) ↔ IsStatusLine line n := fun n =>
      (accepted_iff hline n).trans (or_iff_left fun h => hodd ⟨n, h⟩)
    refine ⟨hexact, fun r hr => ?_⟩
    obtain ⟨_, _, _, _, hcode⟩ := (hexact r.code).mp ⟨r, hr, rfl⟩
    exact threeDigits_bounds hcode

end

/-- `RTSP/1.0`, a code and `OK`. -/
def okLine (code : String) : Bytes := ascii "RTSP/1.0" ++ 32 :: (ascii code ++ 32 :: ascii "OK")

theorem statusParts_okLine {code : String} (h : ∀ c ∈ ascii code, notBlank c = true) :
    StatusParts (okLine code) (ascii "RTSP/1.0") (ascii code) (ascii "OK") :=
  ⟨by decide, by decide, h, by decide, 32, 32, rfl, rfl, rfl⟩

/-- `RTSP/1.0 200 OK` is accepted as what it is. -/
theorem accepted_exactly_iff_ok :
    (∃ r, parseStatus (okLine "200") = .ok r ∧ r.code = 200) ∧ IsStatusLine (okLine "200") 200 := by
  have hparts : StatusParts (okLine "200") (ascii "RTSP/1.0") (ascii "200") (ascii "OK") :=
    statusParts_okLine (by decide)
  have hstatus : IsStatusLine (okLine "200") 200 := ⟨_, _, _, hparts, by decide⟩
  have hnone : oddCode (ascii "200") = none := by decide
  refine ⟨(((accepted_exactly_iff (by decide)).mpr ?_).1 200).mpr hstatus, hstatus⟩
  rintro ⟨n, version, code, reason, h, hodd⟩
  obtain ⟨-, rfl, -⟩ := hparts.unique h
  rw [hnone] at hodd
  cases hodd

/-- A line with a code that has no three digits is no status line. -/
theorem StatusParts.not_isStatusLine {line version code reason : Bytes} (h : StatusParts line version code reason)
    (hcode : threeDigits code = none) (n : ℤ) : ¬ IsStatusLine line n := by
  rintro ⟨version', code', reason', h', hcode'⟩
  obtain ⟨-, rfl, -⟩ := h.unique h'
  rw [hcode] at hcode'
  cases hcode'

/-- **A sign or a `0` in the place of the first digit is accepted**, with codes that no status line has. -/
theorem odd_accepted :
    okLine "-12" = ascii "RTSP/1.0 -12 OK" ∧
      (["-12", "+12", "012"].map fun code => (parseStatus (okLine code)).map Response.code) =
        [.ok (-12), .ok 12, .ok 12] ∧
      ¬ (∃ n, IsStatusLine (okLine "-12") n) ∧ ¬ (∃ n, IsStatusLine (okLine "+12") n) ∧
      ¬ ∃ n, IsStatusLine (okLine "012") n := by
  refine ⟨by decide, by decide, ?_, ?_, ?_⟩
  all_goals
    rintro ⟨n, h⟩
    exact (statusParts_okLine (by decide)).not_isStatusLine (by decide) n h

/-! ### Words, byte for byte -/

/-- A word of a request line. -/
structure Token (w : Bytes) : Prop where
  /-- It is not empty. -/
  ne : w ≠ []
  /-- It has no blanks, tabs and line ends. -/
  plain : ∀ c ∈ w, notBlank c = true ∧ c ≠ 13 ∧ c ≠ 10

theorem Token.word {w : Bytes} (h : Token w) : ∀ c ∈ w, notBlank c = true := fun c hc => (h.plain c hc).1

theorem Token.flatMap_ne {w : Bytes} (h : Token w) : w.flatMap runeString ≠ [] := mt flatMap_runeString_eq_nil.mp h.ne

theorem nextWord_end {w : Bytes} (hw : ∀ c ∈ w, notBlank c = true) : nextWord w = (w.flatMap runeString, []) := by
  have htake : w.takeWhile notBlank = w := List.takeWhile_eq_self_iff.mpr hw
  simp [nextWord, htake]

section
variable {parse : Bytes → Option URL} {M U V : Bytes} {s t : UInt8}

theorem parseCommand_tokens (hM : Token M) (hU : Token U) (hV : Token V) (hs : notBlank s = false)
    (ht : notBlank t = false) : parseCommand parse (M ++ s :: (U ++ t :: V)) =
      (parse (targetURL (U.flatMap runeString))).elim (.error .url)
        fun url => .ok ⟨M.flatMap runeString, U.flatMap runeString, url, V.flatMap runeString, []⟩ := by
  have hne : ¬ (M.flatMap runeString = [] ∨ U.flatMap runeString = [] ∨ V.flatMap runeString = []) := by
    simp [hM.flatMap_ne, hU.flatMap_ne, hV.flatMap_ne]
  rw [parseCommand, nextWord_cons hM.word hs]
  dsimp only
  rw [nextWord_cons hU.word ht, nextWord_end hV.word, if_neg hne]
  cases parse (targetURL (U.flatMap runeString)) <;> rfl

theorem parseCommand_taken_over_iff (hM : Token M) (hU : Token U) (hV : Token V) (hs : notBlank s = false)
    (ht : notBlank t = false) (hurl : (parse (targetURL U)).isSome = true) :
    (∃ r, parseCommand parse (M ++ s :: (U ++ t :: V)) = .ok r ∧
      r.method = M ∧ r.rawURL = U ∧ r.protocolVersion = V) ↔ IsAscii M ∧ IsAscii U ∧ IsAscii V := by
  rw [parseCommand_tokens hM hU hV hs ht]
  constructor
  · rintro ⟨r, hr, hmethod, hrawURL, hversion⟩
    cases hparse : parse (targetURL (U.flatMap runeString)) with
    | none => simp [hparse] at hr
    | some url =>
      rw [hparse, Option.elim_some] at hr
      cases hr
      exact ⟨flatMap_runeString_eq_self_iff.mp hmethod, flatMap_runeString_eq_self_iff.mp hrawURL,
        flatMap_runeString_eq_self_iff.mp hversion⟩
  · rintro ⟨hM, hU, hV⟩
    obtain ⟨url, hurl⟩ := Option.isSome_iff_exists.mp hurl
    rw [flatMap_runeString hM, flatMap_runeString hU, flatMap_runeString hV, hurl]
    exact ⟨_, rfl, rfl, rfl, rfl⟩

end

theorem StatusParts.status_eq_iff {line version code reason : Bytes} (h : StatusParts line version code reason)
    (hline : OneLine line) {n : ℤ} (hcode : threeDigits code = some n ∨ oddCode code = some n) :
    (∃ r, parseStatus line = .ok r ∧ r.status = reason) ↔ IsAscii reason := by
  simp only [h.parseStatus_iff hline]
  constructor
  · rintro ⟨r, ⟨m, -, rfl⟩, hstatus⟩
    exact flatMap_runeString_eq_self_iff.mp hstatus
  · exact fun hreason => ⟨_, ⟨n, hcode, rfl⟩, flatMap_runeString hreason⟩

/-- **When the words of a first line are taken over byte for byte**: the method, the URL and the version of a request
line whose URL is accepted, exactly if they are of ASCII characters; and so the reason of a status line that is
accepted. -/
theorem taken_over_iff (parse : Bytes → Option URL) (M U V : Bytes) (s t : UInt8) (line version code reason : Bytes) :
    (Token M → Token U → Token V → notBlank s = false → notBlank t = false → (parse (targetURL U)).isSome = true →
      ((∃ r, parseCommand parse (M ++ s :: (U ++ t :: V)) = .ok r ∧
        r.method = M ∧ r.rawURL = U ∧ r.protocolVersion = V) ↔ IsAscii M ∧ IsAscii U ∧ IsAscii V)) ∧
    (OneLine line → StatusParts line version code reason →
      (∃ n, threeDigits code = some n ∨ oddCode code = some n) →
      ((∃ r, parseStatus line = .ok r ∧ r.status = reason) ↔ IsAscii reason)) :=
  ⟨fun hM hU hV hs ht hurl => parseCommand_taken_over_iff hM hU hV hs ht hurl,
    fun hline hparts ⟨_, hcode⟩ => hparts.status_eq_iff hline hcode⟩

/-- A parser that takes every text for a URL of that path. -/
def anyURL (text : Bytes) : Option URL := some ⟨[], [], [], text⟩

/-- A request line and a status line of ASCII characters. -/
theorem taken_over_iff_ascii :
    (∃ r, parseCommand anyURL (ascii "PLAY rtsp://cam/live RTSP/1.0") = .ok r ∧ r.method = ascii "PLAY" ∧
      r.rawURL = ascii "rtsp://cam/live" ∧ r.protocolVersion = ascii "RTSP/1.0") ∧
    ∃ r, parseStatus (ascii "RTSP/1.0 404 Not Found") = .ok r ∧ r.status = ascii "Not Found" := by
  have hrequest : ascii "PLAY rtsp://cam/live RTSP/1.0" =
    ascii "PLAY" ++ 32 :: (ascii "rtsp://cam/live" ++ 32 :: ascii "RTSP/1.0") := by decide
  have hparts : StatusParts (ascii "RTSP/1.0 404 Not Found") (ascii "RTSP/1.0") (ascii "404") (ascii "Not Found") :=
    ⟨by decide, by decide, by decide, by decide, 32, 32, by decide⟩
  have h := taken_over_iff anyURL (ascii "PLAY") (ascii "rtsp://cam/live") (ascii "RTSP/1.0") 32 32
    (ascii "RTSP/1.0 404 Not Found") (ascii "RTSP/1.0") (ascii "404") (ascii "Not Found")
  rw [hrequest]
  constructor
  · exact (h.1 ⟨by decide, by decide⟩ ⟨by decide, by decide⟩ ⟨by decide, by decide⟩ rfl rfl rfl).mpr (by decide)
  · exact (h.2 (by decide) hparts ⟨404, by decide⟩).mpr (by decide)

/-- **A text in UTF-8 is not taken over**: the two bytes of `é` turn into four, in a URL and in a reason. -/
theorem mangled :
    (parseCommand anyURL (ascii "PLAY rtsp://cam/caf" ++ [0xC3, 0xA9] ++ ascii " RTSP/1.0")).map Request.rawURL =
      .ok (ascii "rtsp://cam/caf" ++ [0xC3, 0x83, 0xC2, 0xA9]) ∧
    (parseStatus (ascii "RTSP/1.0 404 Ferm" ++ [0xC3, 0xA9])).map Response.status =
      .ok (ascii "Ferm" ++ [0xC3, 0x83, 0xC2, 0xA9]) := by
  decide +kernel

end RtspProxy.Wire
