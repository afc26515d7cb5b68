import RtspProxy.Wire.Message
import Mathlib.Data.List.Nodup

/-!
# Header keys without case

Keys are stored as they are written or in canonical case, and are looked up in any case. For keys
of ASCII characters all of this comes down to the small letters of the key, `fold`: canonical case
does not change them, and `headerGet` finds a key exactly by them.

## What is proved

* `fold_canonicalHeaderKey` — a key and its canonical form differ in case only.
* `canonicalHeaderKey_congr` — keys that differ in case only have one canonical form.
* `find_foldl_set` — of several values under one key the last is found.
* `headerGet_eq` — in a map whose keys differ without case, `headerGet` finds the value of a key
  under any spelling, in any order of the map.
-/

namespace RtspProxy.Wire

open Theory

/-- A text of ASCII characters. -/
def IsAscii (s : Bytes) : Prop := ∀ c ∈ s, c < 128

instance : DecidablePred IsAscii := fun _ => inferInstanceAs (Decidable (∀ _ ∈ _, _))

/-- A text in small letters. -/
def fold (s : Bytes) : Bytes := s.map lower

@[simp] theorem fold_nil : fold [] = [] := rfl

@[simp] theorem fold_cons (c : UInt8) (s : Bytes) : fold (c :: s) = lower c :: fold s := rfl

/-! ### Bytes -/

theorem lower_lt {c : UInt8} : lower c < 128 ↔ c < 128 := by
  unfold lower
  grind

theorem isSpace1_lower (c : UInt8) : isSpace1 (lower c) = isSpace1 c := by
  unfold lower isSpace1
  split_ifs
  · grind
  · rfl

theorem lower_canonicalByte (upper : Bool) (c : UInt8) : lower (canonicalByte upper c) = lower c := by
  unfold canonicalByte lower
  cases upper <;> grind

theorem isAscii_fold {s : Bytes} : IsAscii (fold s) ↔ IsAscii s := by
  simp [IsAscii, fold, lower_lt]

/-! ### White space -/

/-- Small letters are ASCII characters, as capitals are. -/
theorem lower_high {c k : UInt8} (hk : 128 ≤ k) :
    (lower c = k ↔ c = k) ∧ (k ≤ lower c ↔ k ≤ c) ∧ (lower c ≤ k ↔ c ≤ k) := by
  unfold lower
  grind

theorem isSpace2_lower (c d : UInt8) : isSpace2 (lower c) (lower d) = isSpace2 c d := by
  rw [Bool.eq_iff_iff]
  simp (disch := decide) [isSpace2, lower_high]

theorem isSpace3_lower (c d e : UInt8) : isSpace3 (lower c) (lower d) (lower e) = isSpace3 c d e := by
  rw [Bool.eq_iff_iff]
  simp (disch := decide) [isSpace3, lower_high]

/-- White space is the same in small letters. -/
theorem fold_trimSpace (s : Bytes) : fold (trimSpace s) = trimSpace (fold s) :=
  (trimSpace_map isSpace1_lower isSpace2_lower isSpace3_lower s).symm

/-- A text without white space around it has none in another case. -/
theorem trimSpace_eq_self_of_fold {s t : Bytes} (hst : fold t = fold s) (h : trimSpace s = s) : trimSpace t = t := by
  have hfold : fold (trimSpace t) = fold s := by rw [fold_trimSpace, hst, ← fold_trimSpace, h]
  refine (trimSpace_sublist t).eq_of_length ?_
  have hlen := congrArg List.length (hfold.trans hst.symm)
  simpa [fold] using hlen

/-! ### Canonical case -/

theorem fold_canonicalLoop (upper : Bool) (s : Bytes) : fold (canonicalLoop upper s) = fold s := by
  induction s generalizing upper with
  | nil => rfl
  | cons c s ih => rw [canonicalLoop, fold_cons, fold_cons, lower_canonicalByte, ih]

/-- **A key and its canonical form differ in case only.** -/
theorem fold_canonicalHeaderKey {key : Bytes} (h : trimSpace key = key) : fold (canonicalHeaderKey key) = fold key := by
  rw [canonicalHeaderKey, fold_canonicalLoop, h]

theorem canonicalByte_lower (upper : Bool) (c : UInt8) : canonicalByte upper (lower c) = canonicalByte upper c := by
  unfold canonicalByte lower
  cases upper <;> grind

theorem canonicalLoop_fold (upper : Bool) (s : Bytes) : canonicalLoop upper (fold s) = canonicalLoop upper s := by
  induction s generalizing upper with
  | nil => rfl
  | cons c s ih =>
    have hdash : (lower c == 45) = (c == 45) := by
      unfold lower
      grind
    rw [fold_cons, canonicalLoop, canonicalLoop, canonicalByte_lower, hdash, ih]

/-- Keys that differ in case only have one canonical form. -/
theorem canonicalHeaderKey_congr {key key' : Bytes} (htrim : trimSpace key = key) (h : fold key' = fold key) :
    canonicalHeaderKey key' = canonicalHeaderKey key := by
  rw [canonicalHeaderKey, canonicalHeaderKey, htrim, trimSpace_eq_self_of_fold h htrim, ← canonicalLoop_fold, h,
    canonicalLoop_fold]

theorem toLower_of_ascii {s : Bytes} (hs : IsAscii s) : toLower s = fold s := by
  fun_induction toLower s with
  | case1 s ih => exact absurd (hs 0xC4 (by simp)) (by decide)
  | case2 s ih => exact absurd (hs 0xE2 (by simp)) (by decide)
  | case3 c s _ _ ih => rw [fold_cons, ih fun d hd => hs d (List.mem_cons_of_mem _ hd)]
  | case4 => rfl

/-! ### Setting a key -/

theorem mem_of_mem_set {headers : Headers} {key value : Bytes} {kv : Bytes × Bytes} (h : kv ∈ headers.set key value) :
    kv ∈ headers ∨ kv = (key, value) := by
  unfold Headers.set at h
  split_ifs at h
  · obtain ⟨e, he, rfl⟩ := List.mem_map.mp h
    split_ifs
    · exact .inr rfl
    · exact .inl he
  · simpa using h

theorem nodup_keys_set {headers : Headers} (h : (headers.map Prod.fst).Nodup) (key value : Bytes) :
    ((headers.set key value).map Prod.fst).Nodup := by
  unfold Headers.set
  split_ifs with hany
  · have hsame : (headers.map fun kv => if kv.1 == key then (key, value) else kv).map Prod.fst =
        headers.map Prod.fst := by
      rw [List.map_map]
      refine List.map_congr_left fun kv _ => ?_
      by_cases hk : kv.1 = key <;> simp [hk]
    rw [hsame]
    exact h
  · have hnot : key ∉ headers.map Prod.fst := by
      intro hmem
      obtain ⟨kv, hkv, rfl⟩ := List.mem_map.mp hmem
      exact hany (List.any_eq_true.mpr ⟨kv, hkv, beq_self_eq_true _⟩)
    rw [List.map_append]
    refine List.nodup_append.mpr ⟨h, by simp, ?_⟩
    rintro k hk _ hkey rfl
    obtain rfl : k = key := by simpa using hkey
    exact hnot hk

/-! ### Lookup -/

/-- What is found under a key stands under this key. -/
theorem mem_of_find {headers : Headers} {key value : Bytes} (h : headers.find key = some value) :
    (key, value) ∈ headers := by
  obtain ⟨kv, hkv, rfl⟩ := Option.map_eq_some_iff.mp h
  have hkey : kv.1 = key := by simpa using List.find?_some hkv
  exact hkey ▸ List.mem_of_find?_eq_some hkv

theorem find_foldl_set {kv : Bytes × Bytes} {after : Headers} (h : ∀ e ∈ after, e.1 ≠ kv.1) (before acc : Headers) :
    Headers.find ((before ++ kv :: after).foldl (fun headers kv => headers.set kv.1 kv.2) acc) kv.1 = some kv.2 := by
  rw [List.foldl_append, List.foldl_cons]
  generalize hset : Headers.set (before.foldl (fun headers kv => headers.set kv.1 kv.2) acc) kv.1 kv.2 = headers
  have hfound : Headers.find headers kv.1 = some kv.2 := by rw [← hset, Headers.find_set, if_pos rfl]
  clear hset
  induction after generalizing headers with
  | nil => exact hfound
  | cons e after ih =>
    obtain ⟨he, hrest⟩ := List.forall_mem_cons.mp h
    exact ih hrest _ (by rw [Headers.find_set, if_neg he.symm, hfound])

theorem find_foldl_set_eq_none {key : Bytes} {new : Headers} (h : ∀ e ∈ new, e.1 ≠ key) :
    Headers.find (new.foldl (fun headers kv => headers.set kv.1 kv.2) []) key = none := by
  suffices hacc : ∀ acc : Headers, acc.find key = none →
      Headers.find (new.foldl (fun headers kv => headers.set kv.1 kv.2) acc) key = none from hacc [] rfl
  induction new with
  | nil => exact fun acc hacc => hacc
  | cons e new ih =>
    obtain ⟨he, hrest⟩ := List.forall_mem_cons.mp h
    exact fun acc hacc => ih hrest _ (by rw [Headers.find_set, if_neg he.symm, hacc])

/-- Keys that differ without case. -/
def Distinct (headers : Headers) : Prop := (headers.map fun kv => fold kv.1).Nodup

instance : DecidablePred Distinct := fun _ => inferInstanceAs (Decidable (List.Nodup _))

/-- Two entries with one key but for case are the same. -/
theorem Distinct.eq {headers : Headers} (hd : Distinct headers) {a b : Bytes × Bytes} (ha : a ∈ headers)
    (hb : b ∈ headers) (h : fold a.1 = fold b.1) : a = b :=
  List.inj_on_of_nodup_map hd ha hb h

/-- **`headerGet` finds a value under any spelling of its key.** -/
theorem headerGet_eq {headers : Headers} (hd : Distinct headers) (hascii : ∀ kv ∈ headers, IsAscii kv.1)
    {kv : Bytes × Bytes} (hkv : kv ∈ headers) (htrim : trimSpace kv.1 = kv.1) {key : Bytes}
    (hkey : fold key = fold kv.1) : headerGet headers key = kv.2 := by
  have hkascii : IsAscii key := isAscii_fold.mp (hkey ▸ isAscii_fold.mpr (hascii kv hkv))
  have hfound {k v : Bytes} (hmem : (k, v) ∈ headers) (hk : fold k = fold kv.1) : v = kv.2 :=
    congrArg Prod.snd (hd.eq hmem hkv hk)
  unfold headerGet
  split
  case h_1 v hv => exact hfound (mem_of_find hv) hkey
  case h_2 =>
    split
    case h_1 v hv =>
      refine hfound (mem_of_find hv) ?_
      rw [fold_canonicalHeaderKey (trimSpace_eq_self_of_fold hkey htrim), hkey]
    case h_2 =>
      have hex : (headers.find? fun e => toLower e.1 == toLower key).isSome = true := by
        rw [List.find?_isSome]
        exact ⟨kv, hkv, by simp [toLower_of_ascii (hascii kv hkv), toLower_of_ascii hkascii, hkey]⟩
      obtain ⟨e, he⟩ := Option.isSome_iff_exists.mp hex
      have hmem := List.mem_of_find?_eq_some he
      have hlow : fold e.1 = fold kv.1 := by
        have := List.find?_some he
        rw [beq_iff_eq, toLower_of_ascii (hascii e hmem), toLower_of_ascii hkascii] at this
        exact this.trans hkey
      rw [he, hd.eq hmem hkv hlow]
      rfl

/-- Nothing is found under a key that is not there in any case. -/
theorem headerGet_eq_nil {headers : Headers} (hascii : ∀ kv ∈ headers, IsAscii kv.1) {key : Bytes}
    (hkascii : IsAscii key) (htrim : trimSpace key = key) (h : ∀ kv ∈ headers, fold key ≠ fold kv.1) :
    headerGet headers key = [] := by
  unfold headerGet
  split
  case h_1 v hv => exact absurd rfl (h _ (mem_of_find hv))
  case h_2 =>
    split
    case h_1 v hv => exact absurd (fold_canonicalHeaderKey htrim).symm (h _ (mem_of_find hv))
    case h_2 =>
      have hnone : headers.find? (fun e => toLower e.1 == toLower key) = none := by
        rw [List.find?_eq_none]
        intro e he heq
        rw [beq_iff_eq, toLower_of_ascii (hascii e he), toLower_of_ascii hkascii] at heq
        exact h e he heq.symm
      rw [hnone]
      rfl

end RtspProxy.Wire
