import Mathlib.Algebra.Group.Int.Defs
import Mathlib.Algebra.Group.Nat.Defs
import Mathlib.Data.List.Basic
import Mathlib.Data.Nat.Basic
import Mathlib.Data.Int.Init

/-!
# Byte strings, as Go computes with them

A Go string or byte slice is a list of bytes. This module has the parts of Go's
standard library that the rest of the development computes with, each as its
documentation says: searching (`bytes.Index`), trimming (`strings.TrimSpace`),
decimal numbers (`strconv.Atoi`), and 64-bit integer arithmetic, which wraps around.

`atoi` returns what Go returns together with the error: `0` for text that is not a
number, and the nearest representable value for a number out of range.
-/

namespace RtspProxy.Theory

/-- A Go string, or the content of a byte slice. -/
abbrev Bytes := List UInt8

/-- What is to hold of every byte of a text is tested byte by byte. -/
instance (p : UInt8 → Prop) [DecidablePred p] (s : Bytes) : Decidable (∀ c ∈ s, p c) := List.decidableBAll p s

/-- What holds of the numbers below 256 holds of every byte. -/
theorem forall_byte {p : UInt8 → Prop} (h : ∀ n < 256, p (UInt8.ofNat n)) (c : UInt8) : p c := by
  have hc := h c.toNat c.toNat_lt
  rwa [UInt8.ofNat_toNat] at hc

/-- The bytes of a text of ASCII characters. -/
def ascii (s : String) : Bytes := s.toList.map fun c => c.toNat.toUInt8

/-- `\r\n`. -/
def crlf : Bytes := [13, 10]

/-- `\r\n\r\n`, the blank line that ends a header block. -/
def crlfcrlf : Bytes := [13, 10, 13, 10]

/-! ### Searching -/

/-- `bytes.Index(s, sep)`: where `sep` first occurs in `s`, if it does. -/
def index (sep : Bytes) : Bytes → Option ℕ
  | [] => if sep.isEmpty then some 0 else none
  | b :: bs => if sep <+: b :: bs then some 0 else (index sep bs).map (· + 1)

/-- An occurrence lies within the bytes searched. -/
theorem index_le {sep s : Bytes} {n : ℕ} (h : index sep s = some n) : n + sep.length ≤ s.length := by
  induction s generalizing n with
  | nil =>
    simp only [index, List.isEmpty_iff] at h
    split_ifs at h with hs
    simp only [Option.some.injEq] at h
    simp [← h, hs]
  | cons b bs ih =>
    simp only [index] at h
    split_ifs at h with hp
    · simp only [Option.some.injEq] at h
      have := hp.length_le
      omega
    · obtain ⟨m, hm, rfl⟩ := Option.map_eq_some_iff.mp h
      have := ih hm
      simp only [List.length_cons]
      omega

theorem index_split {sep s : Bytes} {n : ℕ} (h : index sep s = some n) :
    s = s.take n ++ sep ++ s.drop (n + sep.length) := by
  induction s generalizing n with
  | nil =>
    simp only [index, List.isEmpty_iff] at h
    split_ifs at h with hs
    simp [hs]
  | cons b bs ih =>
    simp only [index] at h
    split_ifs at h with hp
    · simp only [Option.some.injEq] at h
      subst h
      obtain ⟨t, ht⟩ := hp
      rw [← ht]
      simp
    · obtain ⟨m, hm, rfl⟩ := Option.map_eq_some_iff.mp h
      rw [List.take_succ_cons, Nat.add_right_comm, List.drop_succ_cons, List.cons_append, List.cons_append, ← ih hm]

/-- The first occurrence stays the first when more bytes follow. -/
theorem index_append {sep s : Bytes} {n : ℕ} (h : index sep s = some n) (t : Bytes) :
    index sep (s ++ t) = some n := by
  induction s generalizing n with
  | nil =>
    simp only [index, List.isEmpty_iff] at h
    split_ifs at h with hs
    subst hs
    cases t <;> simp_all [index]
  | cons b bs ih =>
    simp only [index] at h
    rw [List.cons_append, index]
    split_ifs at h with hp
    · have hp' : sep <+: b :: (bs ++ t) := hp.trans ⟨t, rfl⟩
      rw [if_pos hp', h]
    · obtain ⟨m, hm, rfl⟩ := Option.map_eq_some_iff.mp h
      -- an occurrence at the front of the longer text is one of the shorter text: there is
      -- a later one there, so the shorter text is long enough
      have hnp : ¬ sep <+: b :: (bs ++ t) := by
        intro hq
        have hlen := index_le hm
        exact hp (List.prefix_of_prefix_length_le hq ⟨t, rfl⟩ (by simp; omega))
      rw [if_neg hnp, ih hm, Option.map_some]

/-- Two texts cut at a separator are equal when the cuts are, or one cut is at a later
separator. -/
theorem append_cons_eq_iff {c : UInt8} {u r u' r' : Bytes} :
    u ++ c :: r = u' ++ c :: r' ↔
      (u' = u ∧ r = r') ∨ (∃ x, u' = u ++ c :: x ∧ r = x ++ c :: r') ∨ ∃ x, u = u' ++ c :: x ∧ r' = x ++ c :: r := by
  constructor
  · intro h
    rcases List.append_eq_append_iff.mp h with ⟨x, hu, hr⟩ | ⟨x, hu, hr⟩
    · cases x with
      | nil => simp_all
      | cons d x =>
        obtain ⟨rfl, hrest⟩ := List.cons.inj hr
        exact .inr (.inl ⟨x, hu, hrest⟩)
    · cases x with
      | nil => simp_all
      | cons d x =>
        obtain ⟨rfl, hrest⟩ := List.cons.inj hr
        exact .inr (.inr ⟨x, hu, hrest⟩)
  · rintro (⟨rfl, rfl⟩ | ⟨x, rfl, rfl⟩ | ⟨x, rfl, rfl⟩) <;> simp

/-! ### Cutting and replacing -/

/-- `strings.Cut` at a byte: what stands before its first occurrence and, if there is one, what
stands after it. -/
def cut (sep : UInt8) (s : Bytes) : Bytes × Option Bytes :=
  let before := s.takeWhile (· != sep)
  (before, if before.length < s.length then some (s.drop (before.length + 1)) else none)

/-- Every match replaced, from the left: `m` is the length of the match at the front of a text,
if there is one, and the first argument how much of the last match is still to be skipped. -/
def replaceMatches (m : Bytes → Option ℕ) (new : Bytes) : ℕ → Bytes → Bytes
  | _, [] => []
  | k + 1, _ :: s => replaceMatches m new k s
  | 0, c :: s =>
    match m (c :: s) with
    | some n => new ++ replaceMatches m new (n - 1) s
    | none => c :: replaceMatches m new 0 s

/-- `strings.ReplaceAll` of a text that is not empty. -/
def replaceAll (old new s : Bytes) : Bytes :=
  replaceMatches (fun s => if old <+: s then some old.length else none) new 0 s

/-! ### Case -/

/-- An ASCII capital as its small letter; any other byte as it is. -/
def lower (c : UInt8) : UInt8 := if 65 ≤ c ∧ c ≤ 90 then c + 32 else c

/-- Does the text start with this, ignoring the case of ASCII letters? -/
def hasPrefixFold : Bytes → Bytes → Bool
  | [], _ => true
  | _ :: _, [] => false
  | p :: ps, c :: cs => lower p == lower c && hasPrefixFold ps cs

/-! ### White space -/

/-- White space that is one byte long. -/
def isSpace1 (c : UInt8) : Bool := c == 32 || (9 ≤ c && c ≤ 13)

/-- White space that is two bytes long in UTF-8: `U+0085` and `U+00A0`. -/
def isSpace2 (c d : UInt8) : Bool := c == 0xC2 && (d == 0x85 || d == 0xA0)

/-- White space that is three bytes long in UTF-8: `U+1680`, `U+2000` to `U+200A`,
`U+2028`, `U+2029`, `U+202F`, `U+205F` and `U+3000`. -/
def isSpace3 (c d e : UInt8) : Bool :=
  (c == 0xE1 && d == 0x9A && e == 0x80) ||
  (c == 0xE2 && d == 0x80 && ((0x80 ≤ e && e ≤ 0x8A) || e == 0xA8 || e == 0xA9 || e == 0xAF)) ||
  (c == 0xE2 && d == 0x81 && e == 0x9F) || (c == 0xE3 && d == 0x80 && e == 0x80)

/-- Drop white space from the front, where `two` and `three` recognise the longer forms. -/
def dropSpaces (two : UInt8 → UInt8 → Bool) (three : UInt8 → UInt8 → UInt8 → Bool) : Bytes → Bytes
  | [] => []
  | [c] => if isSpace1 c then [] else [c]
  | [c, d] =>
    if isSpace1 c then dropSpaces two three [d] else if two c d then [] else [c, d]
  | c :: d :: e :: s =>
    if isSpace1 c then dropSpaces two three (d :: e :: s)
    else if two c d then dropSpaces two three (e :: s)
    else if three c d e then dropSpaces two three s
    else c :: d :: e :: s

/-- `strings.TrimSpace`: without the white space at both ends. The longer forms of white
space are recognised backwards from the end. -/
def trimSpace (s : Bytes) : Bytes :=
  (dropSpaces (fun c d => isSpace2 d c) (fun c d e => isSpace3 e d c)
    (dropSpaces isSpace2 isSpace3 s).reverse).reverse

section
variable {two : UInt8 → UInt8 → Bool} {three : UInt8 → UInt8 → UInt8 → Bool}

theorem dropSpaces_suffix (s : Bytes) : dropSpaces two three s <:+ s := by
  fun_induction dropSpaces two three s with
  | case1 => exact List.suffix_rfl
  | case2 c _ => exact List.nil_suffix
  | case3 c _ => exact List.suffix_rfl
  | case4 c d _ ih => exact ih.trans (List.suffix_cons c _)
  | case5 c d _ _ => exact List.nil_suffix
  | case6 c d _ _ => exact List.suffix_rfl
  | case7 c d e s _ ih => exact ih.trans (List.suffix_cons c _)
  | case8 c d e s _ _ ih => exact ih.trans ((List.suffix_cons d _).trans (List.suffix_cons c _))
  | case9 c d e s _ _ _ ih =>
    exact ih.trans ((List.suffix_cons e _).trans ((List.suffix_cons d _).trans (List.suffix_cons c _)))
  | case10 c d e s _ _ _ => exact List.suffix_rfl

/-- Nothing is dropped from a text that does not begin with white space. -/
theorem dropSpaces_cons_eq_self_iff (c : UInt8) (s : Bytes) : dropSpaces two three (c :: s) = c :: s ↔
    isSpace1 c = false ∧ ∀ d s', s = d :: s' → two c d = false ∧ ∀ e s'', s' = e :: s'' → three c d e = false := by
  have hshort : ∀ l l' : Bytes, l.length < l'.length → dropSpaces two three l ≠ l' := by
    rintro l _ hlen rfl
    have hsuffix : dropSpaces two three l <:+ l := dropSpaces_suffix l
    have := hsuffix.length_le
    omega
  match s with
  | [] =>
    rw [dropSpaces]
    cases isSpace1 c <;> simp
  | [d] =>
    rw [dropSpaces]
    cases isSpace1 c with
    | true => simp [hshort [d] [c, d] (by simp)]
    | false => cases htwo : two c d <;> simp [htwo]
  | d :: e :: s =>
    rw [dropSpaces]
    cases isSpace1 c with
    | true => simp [hshort (d :: e :: s) (c :: d :: e :: s) (by simp)]
    | false =>
      cases htwo : two c d with
      | true => simp [htwo, hshort (e :: s) (c :: d :: e :: s) (by simp)]
      | false =>
        cases hthree : three c d e with
        | true => simp [htwo, hthree, hshort s (c :: d :: e :: s) (by simp; omega)]
        | false => simp [htwo, hthree]

theorem dropSpaces_eq_self_of_isPrefix {s t : Bytes} (h : dropSpaces two three t = t) (hs : s <+: t) :
    dropSpaces two three s = s := by
  obtain ⟨rest, rfl⟩ := hs
  cases s with
  | nil => rw [dropSpaces]
  | cons c s =>
    obtain ⟨hc, hlong⟩ := (dropSpaces_cons_eq_self_iff c (s ++ rest)).mp h
    refine (dropSpaces_cons_eq_self_iff c s).mpr ⟨hc, ?_⟩
    rintro d s' rfl
    obtain ⟨hd, hlong⟩ := hlong d (s' ++ rest) rfl
    refine ⟨hd, ?_⟩
    rintro e s'' rfl
    exact hlong e (s'' ++ rest) rfl

theorem dropSpaces_idem (s : Bytes) : dropSpaces two three (dropSpaces two three s) = dropSpaces two three s := by
  fun_induction dropSpaces two three s <;> simp_all [dropSpaces]

/-- White space is dropped in the same way where each byte is replaced by one of its kind. -/
theorem dropSpaces_map {f : UInt8 → UInt8} (hone : ∀ c, isSpace1 (f c) = isSpace1 c)
    (htwo : ∀ c d, two (f c) (f d) = two c d) (hthree : ∀ c d e, three (f c) (f d) (f e) = three c d e) (s : Bytes) :
    dropSpaces two three (s.map f) = (dropSpaces two three s).map f := by
  fun_induction dropSpaces two three s <;> simp_all [dropSpaces]

end

/-- Of a text without white space in front, trimming leaves the front. -/
theorem trimSpace_isPrefix (s : Bytes) : trimSpace s <+: dropSpaces isSpace2 isSpace3 s := by
  rw [trimSpace, ← List.reverse_suffix, List.reverse_reverse]
  exact dropSpaces_suffix _

theorem trimSpace_sublist (s : Bytes) : (trimSpace s).Sublist s := by
  have hfront : dropSpaces isSpace2 isSpace3 s <:+ s := dropSpaces_suffix s
  exact (trimSpace_isPrefix s).sublist.trans hfront.sublist

/-- **What is trimmed is not trimmed again.** -/
theorem trimSpace_idem (s : Bytes) : trimSpace (trimSpace s) = trimSpace s := by
  have hfront : dropSpaces isSpace2 isSpace3 (trimSpace s) = trimSpace s :=
    dropSpaces_eq_self_of_isPrefix (dropSpaces_idem s) (trimSpace_isPrefix s)
  conv_lhs => rw [trimSpace, hfront]
  rw [trimSpace, List.reverse_reverse, dropSpaces_idem]

theorem trimSpace_map {f : UInt8 → UInt8} (hone : ∀ c, isSpace1 (f c) = isSpace1 c)
    (htwo : ∀ c d, isSpace2 (f c) (f d) = isSpace2 c d)
    (hthree : ∀ c d e, isSpace3 (f c) (f d) (f e) = isSpace3 c d e) (s : Bytes) :
    trimSpace (s.map f) = (trimSpace s).map f := by
  rw [trimSpace, trimSpace, dropSpaces_map hone htwo hthree, ← List.map_reverse,
    dropSpaces_map hone (fun c d => htwo d c) fun c d e => hthree e d c, List.map_reverse]

/-! ### Numbers -/

/-- Why a text is not a number, or not one that fits. -/
inductive NumError where
  /-- It is not a number. -/
  | invalid
  /-- It is a number out of range. -/
  | range
  deriving DecidableEq, Repr

/-- `strconv.ParseUint` in base ten, with `n` read so far. The first digit that leaves
64 bits ends the reading, whatever follows it. -/
def parseUint (n : ℕ) : Bytes → Except NumError ℕ
  | [] => .ok n
  | c :: cs =>
    if 48 ≤ c ∧ c ≤ 57 then
      if 2 ^ 64 ≤ n * 10 + (c.toNat - 48) then .error .range
      else parseUint (n * 10 + (c.toNat - 48)) cs
    else .error .invalid

/-- A 64-bit integer with this sign and magnitude, or the nearest there is. -/
def clamp64 (neg : Bool) (n : ℕ) : ℤ × Option NumError :=
  if neg then if 2 ^ 63 < n then (-2 ^ 63, some .range) else (-n, none)
  else if 2 ^ 63 ≤ n then (2 ^ 63 - 1, some .range) else (n, none)

/-- `strconv.Atoi`: the number, and the error. -/
def atoi (s : Bytes) : ℤ × Option NumError :=
  let signed (neg : Bool) (ds : Bytes) : ℤ × Option NumError :=
    if ds.isEmpty then (0, some .invalid)
    else match parseUint 0 ds with
      | .ok n => clamp64 neg n
      | .error .invalid => (0, some .invalid)
      | .error .range => clamp64 neg (2 ^ 64 - 1)
  match s with
  | 43 :: ds => signed false ds
  | 45 :: ds => signed true ds
  | ds => signed false ds

theorem clamp64_bounds (neg : Bool) (n : ℕ) : -2 ^ 63 ≤ (clamp64 neg n).1 ∧ (clamp64 neg n).1 < 2 ^ 63 := by
  rw [clamp64]
  split_ifs <;> constructor <;> simp only <;> omega

/-- What `strconv.Atoi` returns is a 64-bit integer, also with an error. -/
theorem atoi_bounds (s : Bytes) : -2 ^ 63 ≤ (atoi s).1 ∧ (atoi s).1 < 2 ^ 63 := by
  unfold atoi
  split <;>
  · simp only
    split
    · decide
    · split
      · exact clamp64_bounds _ _
      · decide
      · exact clamp64_bounds _ _

/-- 64-bit arithmetic: the result wrapped around. -/
def wrap64 (x : ℤ) : ℤ := x.bmod (2 ^ 64)

theorem wrap64_of_lt {x : ℤ} (h₀ : -2 ^ 63 ≤ x) (h₁ : x < 2 ^ 63) : wrap64 x = x := by
  unfold wrap64
  exact Int.bmod_eq_of_le (by simp; omega) (by simp; omega)

/-- A sum of two positive numbers that does not fit comes out negative. -/
theorem wrap64_neg {x : ℤ} (h₀ : 2 ^ 63 ≤ x) (h₁ : x < 2 ^ 64) : wrap64 x < 0 := by
  rw [wrap64, Int.bmod_def]
  have hmod : x % ((2 ^ 64 : ℕ) : ℤ) = x := Int.emod_eq_of_lt (by omega) (by simpa using h₁)
  rw [hmod]
  split_ifs <;> simp at * <;> omega

example : atoi (ascii "-12") = (-12, none) := by decide

example : (atoi (ascii "18446744073709551616x")).1 = 2 ^ 63 - 1 := by decide

end RtspProxy.Theory
