import Mathlib.Data.List.TakeWhile
import RtspProxy.Theory.Bytes

/-!
# Texts taken apart at a byte

`strings.Split` at one byte, `strings.SplitN` with two parts, and the replacement of the matches of a
pattern, in terms of where the byte stands.

## What is proved

* `cut_append`, `cut_of_not_mem`, `splitOn_append`, `splitOn_of_not_mem` — the parts, by the first
  occurrence of the byte.
* `splitOn_flatMap` — parts that were joined are taken apart again.
* `replaceMatches_append` — a pattern whose matches never run across a byte can be replaced on both
  sides of it.
* `replaceMatches_eq_self` — a text without a match is left as it is.
-/

namespace RtspProxy.Theory

section
variable {b : UInt8} {s s' : Bytes}

/-! ### At the first occurrence -/

/-- A text has a first occurrence of a byte that it has. -/
theorem exists_first (h : b ∈ s) : ∃ l l', s = l ++ b :: l' ∧ b ∉ l := List.eq_append_cons_of_mem h

theorem beq_false_of_not_mem (h : b ∉ s) : ∀ c ∈ s, (c == b) = false :=
  fun _ hc => beq_false_of_ne fun hcb => h (hcb ▸ hc)

theorem bne_of_not_mem (h : b ∉ s) : ∀ c ∈ s, (c != b) = true :=
  fun c hc => by rw [bne, beq_false_of_not_mem h c hc]; rfl

theorem takeWhile_append_of_not_mem (h : b ∉ s) : (s ++ b :: s').takeWhile (· != b) = s := by
  rw [List.takeWhile_append_of_pos (bne_of_not_mem h)]
  simp

/-- What stands before the first occurrence does not depend on what follows one. -/
theorem takeWhile_append_stop (b : UInt8) (s s' : Bytes) :
    (s ++ b :: s').takeWhile (· != b) = s.takeWhile (· != b) := by
  by_cases h : b ∈ s
  · obtain ⟨l, l', rfl, hl⟩ := exists_first h
    rw [List.append_assoc, List.cons_append, takeWhile_append_of_not_mem hl, takeWhile_append_of_not_mem hl]
  · rw [takeWhile_append_of_not_mem h, List.takeWhile_eq_self_iff.mpr (bne_of_not_mem h)]

/-- What follows what stands before the first occurrence. -/
theorem drop_takeWhile (b : UInt8) (s : Bytes) :
    s.drop (s.takeWhile (· != b)).length = [] ∨ ∃ l, s.drop (s.takeWhile (· != b)).length = b :: l := by
  by_cases h : b ∈ s
  · obtain ⟨l, l', rfl, hl⟩ := exists_first h
    exact .inr ⟨l', by rw [takeWhile_append_of_not_mem hl, List.drop_left]⟩
  · exact .inl (by rw [List.takeWhile_eq_self_iff.mpr (bne_of_not_mem h), List.drop_length])

/-- A text without the byte that begins a text begins what stands before any occurrence. -/
theorem isPrefix_append_iff {p : Bytes} (h : b ∉ p) : p <+: s ++ b :: s' ↔ p <+: s := by
  constructor
  · intro hp
    by_cases hlen : p.length ≤ s.length
    · exact List.prefix_of_prefix_length_le hp (List.prefix_append s _) hlen
    · have hsp : s ++ [b] <+: p := by
        refine List.prefix_of_prefix_length_le ?_ hp (by simp; omega)
        exact ⟨s', by simp⟩
      exact absurd (hsp.subset (by simp)) h
  · exact fun hp => hp.trans (List.prefix_append s _)

theorem cut_append (h : b ∉ s) : cut b (s ++ b :: s') = (s, some s') := by
  unfold cut
  dsimp only
  rw [takeWhile_append_of_not_mem h, if_pos (by simp)]
  simp

/-- Texts are equal up to their first occurrence, and behind it. -/
theorem append_cons_cancel {l l' : Bytes} (hs : b ∉ s) (hl : b ∉ l) (h : s ++ b :: s' = l ++ b :: l') :
    s = l ∧ s' = l' := by
  have hcut := congrArg (cut b) h
  rw [cut_append hs, cut_append hl] at hcut
  exact ⟨congrArg Prod.fst hcut, Option.some.inj (congrArg Prod.snd hcut)⟩

theorem cut_of_not_mem (h : b ∉ s) : cut b s = (s, none) := by
  have hs : s.takeWhile (· != b) = s := List.takeWhile_eq_self_iff.mpr (bne_of_not_mem h)
  unfold cut
  dsimp only
  rw [hs, if_neg (Nat.lt_irrefl _)]

theorem eq_of_cut {l l' : Bytes} (h : cut b s = (l, some l')) : s = l ++ b :: l' ∧ b ∉ l := by
  by_cases hb : b ∈ s
  · obtain ⟨m, m', rfl, hm⟩ := exists_first hb
    rw [cut_append hm] at h
    cases h
    exact ⟨rfl, hm⟩
  · rw [cut_of_not_mem hb] at h
    cases h

theorem splitOn_append (h : b ∉ s) : (s ++ b :: s').splitOn b = s :: s'.splitOn b :=
  List.splitOnP_append_cons_of_forall_mem (beq_false_of_not_mem h) b (beq_self_eq_true b) s'

theorem splitOn_of_not_mem (h : b ∉ s) : s.splitOn b = [s] := List.splitOnP_eq_singleton (beq_false_of_not_mem h)

/-- Parts with the byte before each but the first. -/
theorem splitOn_flatMap {parts : List Bytes} (h : b ∉ s) (hparts : ∀ part ∈ parts, b ∉ part) :
    (s ++ parts.flatMap (b :: ·)).splitOn b = s :: parts := by
  induction parts generalizing s with
  | nil => rw [List.flatMap_nil, List.append_nil, splitOn_of_not_mem h]
  | cons part parts ih =>
    obtain ⟨hpart, hparts⟩ := List.forall_mem_cons.mp hparts
    rw [List.flatMap_cons, List.cons_append, splitOn_append h, ih hpart hparts]

theorem splitOn_ne_nil (b : UInt8) (s : Bytes) : s.splitOn b ≠ [] := List.splitOnP_ne_nil _ _

theorem splitOn_append_cons (b : UInt8) (s s' : Bytes) : (s ++ b :: s').splitOn b = s.splitOn b ++ s'.splitOn b :=
  List.splitOnP_append_cons s s' (beq_self_eq_true b)

/-- A part is what stands between two occurrences, or between one and an end of the text. -/
theorem mem_splitOn_iff {part : Bytes} :
    part ∈ s.splitOn b ↔ b ∉ part ∧ ∃ pre post, s = pre ++ (part ++ post) ∧
      (pre = [] ∨ ∃ l, pre = l ++ [b]) ∧ (post = [] ∨ ∃ l, post = b :: l) := by
  constructor
  · intro h
    induction hn : s.length using Nat.strong_induction_on generalizing s with
    | _ n ih =>
      by_cases hb : b ∈ s
      · obtain ⟨l, l', rfl, hl⟩ := exists_first hb
        rw [splitOn_append hl] at h
        rcases List.mem_cons.mp h with rfl | h
        · exact ⟨hl, [], b :: l', rfl, .inl rfl, .inr ⟨l', rfl⟩⟩
        · obtain ⟨hpart, pre, post, rfl, hpre, hpost⟩ := ih _ (by rw [← hn]; simp; omega) h rfl
          refine ⟨hpart, l ++ b :: pre, post, by simp, .inr ?_, hpost⟩
          rcases hpre with rfl | ⟨l'', rfl⟩
          · exact ⟨l, rfl⟩
          · exact ⟨l ++ b :: l'', by simp⟩
      · rw [splitOn_of_not_mem hb, List.mem_singleton] at h
        subst h
        exact ⟨hb, [], [], by simp, .inl rfl, .inl rfl⟩
  · rintro ⟨hpart, pre, post, rfl, hpre, hpost⟩
    have hmem : part ∈ (part ++ post).splitOn b := by
      rcases hpost with rfl | ⟨l, rfl⟩
      · rw [List.append_nil, splitOn_of_not_mem hpart]
        exact List.mem_singleton_self part
      · rw [splitOn_append hpart]
        exact List.mem_cons_self
    rcases hpre with rfl | ⟨l, rfl⟩
    · exact hmem
    · rw [List.append_assoc, List.singleton_append, splitOn_append_cons]
      exact List.mem_append_right _ hmem

/-- There is a second part exactly if the byte is there. -/
theorem isSome_splitOn_one (b : UInt8) (s : Bytes) : (s.splitOn b)[1]?.isSome = true ↔ b ∈ s := by
  by_cases h : b ∈ s
  · obtain ⟨l, l', rfl, hl⟩ := exists_first h
    refine iff_of_true ?_ h
    rw [splitOn_append hl, List.getElem?_cons_succ]
    cases hs : l'.splitOn b with
    | nil => exact absurd hs (splitOn_ne_nil b l')
    | cons => rfl
  · rw [splitOn_of_not_mem h]
    exact iff_of_false Bool.false_ne_true h

end

/-! ### Matches -/

section
variable {m : Bytes → Option ℕ} {new : Bytes}

theorem replaceMatches_skip (k : ℕ) (s : Bytes) : replaceMatches m new k s = replaceMatches m new 0 (s.drop k) := by
  induction k generalizing s with
  | zero => rfl
  | succ k ih =>
    cases s with
    | nil => rfl
    | cons c s => exact ih s

theorem replaceMatches_eq_self {s : Bytes} (h : ∀ l l', s = l ++ l' → l' ≠ [] → m l' = none) :
    replaceMatches m new 0 s = s := by
  induction s with
  | nil => rfl
  | cons c s ih =>
    rw [replaceMatches, h [] (c :: s) rfl (List.cons_ne_nil _ _)]
    exact congrArg (c :: ·) (ih fun l l' hs => h (c :: l) l' (congrArg (c :: ·) hs))

/-- Where no match runs across a byte, the two sides of it can be taken by themselves. -/
theorem replaceMatches_append {b : UInt8} {s' : Bytes}
    (hm : ∀ s, s ≠ [] → m (s ++ b :: s') = m s) (hle : ∀ s n, m s = some n → n ≤ s.length) :
    ∀ (s : Bytes) (k : ℕ), k ≤ s.length →
      replaceMatches m new k (s ++ b :: s') = replaceMatches m new k s ++ replaceMatches m new 0 (b :: s')
  | [], 0, _ => rfl
  | c :: s, k + 1, hk => by
    simp only [List.cons_append, replaceMatches]
    exact replaceMatches_append hm hle s k (Nat.le_of_succ_le_succ hk)
  | c :: s, 0, _ => by
    have hc : m (c :: (s ++ b :: s')) = m (c :: s) := hm (c :: s) (List.cons_ne_nil _ _)
    rw [List.cons_append, replaceMatches, replaceMatches, hc]
    cases hn : m (c :: s) with
    | none => exact congrArg (c :: ·) (replaceMatches_append hm hle s 0 (Nat.zero_le _))
    | some n =>
      have := hle _ n hn
      dsimp only
      rw [replaceMatches_append hm hle s (n - 1) (by simp only [List.length_cons] at this; omega), List.append_assoc]

end

end RtspProxy.Theory
