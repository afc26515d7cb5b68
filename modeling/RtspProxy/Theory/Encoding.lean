import RtspProxy.Theory.Bytes

/-!
# Encodings of byte strings

The encodings of Go's standard library that authentication headers are made of: decimal
and hexadecimal numbers, `encoding/hex`, `encoding/base64` and `crypto/md5`, and the way a
single byte becomes a string.
-/

namespace RtspProxy.Theory

/-- `strconv.Itoa` of a number that is not negative. -/
def itoa (n : ℕ) : Bytes := (Nat.toDigits 10 n).map fun c => c.toNat.toUInt8

theorem digit_of_mem_itoa {n : ℕ} {c : UInt8} (h : c ∈ itoa n) : 48 ≤ c ∧ c ≤ 57 := by
  obtain ⟨d, hd, rfl⟩ := List.mem_map.mp h
  have hdigit := Nat.isDigit_of_mem_toDigits (by decide) (by decide) hd
  have hle : 48 ≤ d.toNat ∧ d.toNat ≤ 57 := by
    simp only [Char.isDigit, Bool.and_eq_true, decide_eq_true_eq, ge_iff_le, UInt32.le_iff_toNat_le] at hdigit
    exact hdigit
  simp only [UInt8.le_iff_toNat_le, Nat.toUInt8, UInt8.toNat_ofNat']
  have : d.toNat % 2 ^ 8 = d.toNat := by omega
  rw [this]
  exact hle

theorem itoa_of_lt : ∀ n < 10, itoa n = [(48 + n).toUInt8] ∧ 48 ≤ (48 + n).toUInt8 ∧ (48 + n).toUInt8 ≤ 57 ∧
    (48 + n).toUInt8.toNat - 48 = n := by
  decide

/-- A number of more digits, and its last one. -/
theorem itoa_of_le {n : ℕ} (h : 10 ≤ n) : itoa n = itoa (n / 10) ++ itoa (n % 10) := by
  have hdiv : n = 10 * (n / 10) + n % 10 := (Nat.div_add_mod n 10).symm
  rw [itoa, itoa, itoa, ← List.map_append, Nat.toDigits_append_toDigits (by decide) (by omega) (by omega), ← hdiv]

theorem parseUint_append {m : ℕ} {s t : Bytes} {k : ℕ} (h : parseUint m s = .ok k) :
    parseUint m (s ++ t) = parseUint k t := by
  induction s generalizing m with
  | nil =>
    obtain rfl : m = k := Except.ok.inj h
    rfl
  | cons c s ih =>
    rw [List.cons_append]
    simp only [parseUint] at h ⊢
    split_ifs at h ⊢ with hdigit hrange
    exact ih h

theorem parseUint_digit {d m : ℕ} (hd : d < 10) (hm : m * 10 + d < 2 ^ 64) :
    parseUint m (itoa d) = .ok (m * 10 + d) := by
  obtain ⟨htext, hlo, hhi, hval⟩ := itoa_of_lt d hd
  rw [htext, parseUint, if_pos ⟨hlo, hhi⟩, hval, if_neg (by omega), parseUint]

theorem parseUint_itoa {n : ℕ} (h : n < 2 ^ 64) : parseUint 0 (itoa n) = .ok n := by
  induction n using Nat.strongRecOn with
  | ind n ih =>
    by_cases hn : n < 10
    · simpa using parseUint_digit (m := 0) hn (by omega)
    · rw [itoa_of_le (by omega), parseUint_append (ih (n / 10) (by omega) (by omega)),
        parseUint_digit (by omega) (by omega), show n / 10 * 10 + n % 10 = n by omega]

/-- **A number is read as it is written.** -/
theorem atoi_itoa {n : ℕ} (h : n < 2 ^ 63) : atoi (itoa n) = ((n : ℤ), none) := by
  have hparse := parseUint_itoa (show n < 2 ^ 64 by omega)
  have hne : itoa n ≠ [] := by simp [itoa, Nat.toDigits_ne_nil]
  have hclamp : clamp64 false n = ((n : ℤ), none) := by
    rw [clamp64, if_neg (by decide), if_neg (Nat.not_le.mpr h)]
  unfold atoi
  split
  case h_1 ds heq => exact absurd (digit_of_mem_itoa (heq ▸ List.mem_cons_self)) (by decide)
  case h_2 ds heq => exact absurd (digit_of_mem_itoa (heq ▸ List.mem_cons_self)) (by decide)
  case h_3 => simp [hne, hparse, hclamp]

/-- What is read as a number is made of digits. -/
theorem digits_of_parseUint {m n : ℕ} {s : Bytes} (h : parseUint m s = .ok n) : ∀ c ∈ s, 48 ≤ c ∧ c ≤ 57 := by
  induction s generalizing m with
  | nil => exact fun c hc => absurd hc List.not_mem_nil
  | cons c s ih =>
    rw [parseUint] at h
    split_ifs at h with hdigit hrange
    exact List.forall_mem_cons.mpr ⟨hdigit, ih h⟩

/-- Nothing but digits and signs is taken for a number. -/
theorem digits_of_atoi {s : Bytes} (h : (atoi s).2 = none) : ∀ c ∈ s, 43 ≤ c ∧ c ≤ 57 := by
  have hdigits {ds : Bytes} (herror : ∀ e, ds ≠ [] → parseUint 0 ds ≠ .error e) : ∀ c ∈ ds, 43 ≤ c ∧ c ≤ 57 := by
    intro c hc
    cases hparse : parseUint 0 ds with
    | error e => exact absurd hparse (herror e (List.ne_nil_of_mem hc))
    | ok n =>
      have hdigit := digits_of_parseUint hparse c hc
      exact ⟨UInt8.le_trans (show (43 : UInt8) ≤ 48 by decide) hdigit.1, hdigit.2⟩
  unfold atoi at h
  split at h
  case h_1 =>
    refine List.forall_mem_cons.mpr ⟨by decide, hdigits fun e hne he => ?_⟩
    cases e <;> simp [hne, he, clamp64] at h
  case h_2 =>
    refine List.forall_mem_cons.mpr ⟨by decide, hdigits fun e hne he => ?_⟩
    cases e <;> simp [hne, he, clamp64] at h
  case h_3 =>
    refine hdigits fun e hne he => ?_
    cases e <;> simp [hne, he, clamp64] at h

theorem length_itoa_le_iff {n k : ℕ} (hk : 0 < k) : (itoa n).length ≤ k ↔ n < 10 ^ k := by
  rw [itoa, List.length_map]
  exact Nat.length_toDigits_le_iff (by decide) hk

/-- `fmt.Sprintf("%d", n)`. -/
def formatInt (n : ℤ) : Bytes := if n < 0 then 45 :: itoa n.natAbs else itoa n.natAbs

/-- A hexadecimal digit, `a` to `f` in small letters. -/
def hexDigit (n : ℕ) : UInt8 := (if n < 10 then 48 + n else 87 + n).toUInt8

/-- `hex.EncodeToString`. -/
def hexString (bs : Bytes) : Bytes := bs.flatMap fun b => [hexDigit (b.toNat / 16), hexDigit (b.toNat % 16)]

theorem digit_of_mem_hexString {bs : Bytes} {c : UInt8} (h : c ∈ hexString bs) : ∃ n < 16, c = hexDigit n := by
  obtain ⟨b, -, hb⟩ := List.mem_flatMap.mp h
  have hlt := b.toNat_lt
  simp only [List.mem_cons, List.not_mem_nil, or_false] at hb
  rcases hb with rfl | rfl
  · exact ⟨_, by omega, rfl⟩
  · exact ⟨_, by omega, rfl⟩

theorem length_hexString (bs : Bytes) : (hexString bs).length = 2 * bs.length := by
  induction bs with
  | nil => rfl
  | cons b bs ih =>
    have hcons : hexString (b :: bs) = hexDigit (b.toNat / 16) :: hexDigit (b.toNat % 16) :: hexString bs := rfl
    rw [hcons, List.length_cons, List.length_cons, List.length_cons, ih]
    omega

theorem hexDigit_inj : ∀ m < 16, ∀ n < 16, hexDigit m = hexDigit n → m = n := by decide

/-- **Bytes can be told from their hexadecimal text.** -/
theorem hexString_injective : Function.Injective hexString := by
  intro bs
  induction bs with
  | nil =>
    intro cs h
    cases cs with
    | nil => rfl
    | cons c cs => cases h
  | cons b bs ih =>
    intro cs h
    cases cs with
    | nil => cases h
    | cons c cs =>
      obtain ⟨hhigh, htail⟩ := List.cons.inj h
      obtain ⟨hlow, htail⟩ := List.cons.inj htail
      have hb := b.toNat_lt
      have hc := c.toNat_lt
      have hdiv := hexDigit_inj _ (by omega) _ (by omega) hhigh
      have hmod := hexDigit_inj _ (by omega) _ (by omega) hlow
      have hbc : b = c := UInt8.toNat_inj.mp (by omega)
      rw [hbc, ih htail]

/-- The bytes of a number, the lowest first. -/
def littleEndian : ℕ → ℕ → Bytes
  | 0, _ => []
  | k + 1, n => (n % 256).toUInt8 :: littleEndian k (n / 256)

/-- A 32-bit number in eight hexadecimal digits: `%08x`. -/
def hex32 (n : ℕ) : Bytes := hexString (littleEndian 4 n).reverse

theorem littleEndian_inj {k m n : ℕ} (hm : m < 256 ^ k) (hn : n < 256 ^ k) (h : littleEndian k m = littleEndian k n) :
    m = n := by
  induction k generalizing m n with
  | zero =>
    rw [Nat.pow_zero] at hm hn
    omega
  | succ k ih =>
    rw [Nat.pow_succ] at hm hn
    obtain ⟨hlow, hhigh⟩ := List.cons.inj h
    have hmod : m % 256 = n % 256 := by simpa using congrArg UInt8.toNat hlow
    have hdiv := ih (Nat.div_lt_of_lt_mul (by omega)) (Nat.div_lt_of_lt_mul (by omega)) hhigh
    omega

/-- **Numbers of 32 bits can be told from their eight digits.** -/
theorem hex32_inj {m n : ℕ} (hm : m < 2 ^ 32) (hn : n < 2 ^ 32) (h : hex32 m = hex32 n) : m = n :=
  littleEndian_inj (k := 4) hm hn (List.reverse_injective (hexString_injective h))

/-- `string(b)` of a byte: the code point of that number, in UTF-8. -/
def runeString (b : UInt8) : Bytes :=
  if b < 128 then [b] else [192 + b / 64, 128 + b % 64]

/-! ### Base64 -/

/-- The digit for a 6-bit number. -/
def base64Digit (n : ℕ) : UInt8 :=
  (if n < 26 then 65 + n else if n < 52 then 71 + n else if n < 62 then n - 4
    else if n = 62 then 43 else 47).toUInt8

/-- `base64.StdEncoding.EncodeToString`. -/
def base64 : Bytes → Bytes
  | [] => []
  | [a] => [base64Digit (a.toNat / 4), base64Digit (a.toNat % 4 * 16), 61, 61]
  | [a, b] =>
    [base64Digit (a.toNat / 4), base64Digit (a.toNat % 4 * 16 + b.toNat / 16),
      base64Digit (b.toNat % 16 * 4), 61]
  | a :: b :: c :: s =>
    base64Digit (a.toNat / 4) :: base64Digit (a.toNat % 4 * 16 + b.toNat / 16) ::
      base64Digit (b.toNat % 16 * 4 + c.toNat / 64) :: base64Digit (c.toNat % 64) :: base64 s

/-! ### MD5 -/

/-- The constants of the 64 steps: `⌊2³² |sin (i + 1)|⌋`. -/
def md5Table : List ℕ := [
  0xd76aa478, 0xe8c7b756, 0x242070db, 0xc1bdceee, 0xf57c0faf, 0x4787c62a, 0xa8304613, 0xfd469501,
  0x698098d8, 0x8b44f7af, 0xffff5bb1, 0x895cd7be, 0x6b901122, 0xfd987193, 0xa679438e, 0x49b40821,
  0xf61e2562, 0xc040b340, 0x265e5a51, 0xe9b6c7aa, 0xd62f105d, 0x02441453, 0xd8a1e681, 0xe7d3fbc8,
  0x21e1cde6, 0xc33707d6, 0xf4d50d87, 0x455a14ed, 0xa9e3e905, 0xfcefa3f8, 0x676f02d9, 0x8d2a4c8a,
  0xfffa3942, 0x8771f681, 0x6d9d6122, 0xfde5380c, 0xa4beea44, 0x4bdecfa9, 0xf6bb4b60, 0xbebfbc70,
  0x289b7ec6, 0xeaa127fa, 0xd4ef3085, 0x04881d05, 0xd9d4d039, 0xe6db99e5, 0x1fa27cf8, 0xc4ac5665,
  0xf4292244, 0x432aff97, 0xab9423a7, 0xfc93a039, 0x655b59c3, 0x8f0ccc92, 0xffeff47d, 0x85845dd1,
  0x6fa87e4f, 0xfe2ce6e0, 0xa3014314, 0x4e0811a1, 0xf7537e82, 0xbd3af235, 0x2ad7d2bb, 0xeb86d391]

/-- How far each step rotates. -/
def md5Shift (i : ℕ) : ℕ :=
  ([7, 12, 17, 22, 5, 9, 14, 20, 4, 11, 16, 23, 6, 10, 15, 21][i / 16 * 4 + i % 4]?).getD 0

/-- The four words of the hash. -/
structure Md5State where
  /-- The first word. -/
  a : ℕ
  /-- The second word. -/
  b : ℕ
  /-- The third word. -/
  c : ℕ
  /-- The fourth word. -/
  d : ℕ
  deriving DecidableEq, Repr

/-- A 32-bit word rotated to the left. -/
def rotateLeft32 (x n : ℕ) : ℕ := (x <<< n ||| x >>> (32 - n)) % 2 ^ 32

/-- The mixing function of step `i`, and the number of the word it uses. -/
def md5Mix (i : ℕ) (s : Md5State) : ℕ × ℕ :=
  let not (x : ℕ) := 2 ^ 32 - 1 - x
  if i < 16 then ((s.b &&& s.c) ||| (not s.b &&& s.d), i)
  else if i < 32 then ((s.d &&& s.b) ||| (not s.d &&& s.c), (5 * i + 1) % 16)
  else if i < 48 then (s.b ^^^ s.c ^^^ s.d, (3 * i + 5) % 16)
  else (s.c ^^^ (s.b ||| not s.d), 7 * i % 16)

/-- Step `i` on the words of a block. -/
def md5Step (block : List ℕ) (s : Md5State) (i : ℕ) : Md5State :=
  let m := md5Mix i s
  let f := (m.1 + s.a + md5Table[i]?.getD 0 + block[m.2]?.getD 0) % 2 ^ 32
  ⟨s.d, (s.b + rotateLeft32 f (md5Shift i)) % 2 ^ 32, s.b, s.c⟩

/-- The 32-bit words of a text. -/
def words32 : Bytes → List ℕ
  | a :: b :: c :: d :: s => (a.toNat + 256 * (b.toNat + 256 * (c.toNat + 256 * d.toNat))) :: words32 s
  | _ => []

/-- The blocks of 16 words, at most `k` of them, one after the other. -/
def md5Blocks : ℕ → List ℕ → Md5State → Md5State
  | 0, _, s => s
  | k + 1, ws, s =>
    let t := (List.range 64).foldl (md5Step (ws.take 16)) s
    md5Blocks k (ws.drop 16)
      ⟨(s.a + t.a) % 2 ^ 32, (s.b + t.b) % 2 ^ 32, (s.c + t.c) % 2 ^ 32, (s.d + t.d) % 2 ^ 32⟩

/-- The text padded to whole blocks: a one bit, zeros, and the length in bits. -/
def md5Pad (s : Bytes) : Bytes :=
  s ++ 128 :: List.replicate ((119 - s.length % 64) % 64) 0 ++ littleEndian 8 (8 * s.length)

/-- The MD5 hash of a text, in hexadecimal. -/
def md5Hex (s : Bytes) : Bytes :=
  let ws := words32 (md5Pad s)
  let h := md5Blocks (ws.length / 16) ws ⟨0x67452301, 0xefcdab89, 0x98badcfe, 0x10325476⟩
  hexString ([h.a, h.b, h.c, h.d].flatMap (littleEndian 4))

example : md5Hex (ascii "abc") = ascii "900150983cd24fb0d6963f7d28e17f72" := by decide +kernel

example : base64 (ascii "admin:pass") = ascii "YWRtaW46cGFzcw==" := by decide

end RtspProxy.Theory
