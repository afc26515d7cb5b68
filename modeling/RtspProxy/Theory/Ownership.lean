import RtspProxy.Theory.Run
import Mathlib.Data.List.Perm.Subperm
import Mathlib.Data.List.Nodup
import Mathlib.Logic.Function.Basic

/-!
# Things that are in one place at a time

Places hold things. When things are only moved from one place to another, and a new thing is
one that no place holds, no thing is ever in two places, or twice in one.

A free list is a place from which things are got and into which they are put back. It takes a
thing only while the thing is out.

## What is proved

* `Owned.shrink`, `Owned.add`, `Owned.move` — dropping, adding and moving keep `Owned`.
* `Owned.split` — places that are cut into parts.
* `get_between_puts` — a free list that takes a thing twice has given it out in between.
-/

namespace RtspProxy.Theory

variable {π α : Type} {known : α → Prop} {held : π → List α} {p q : π} {a : α} {l l' : List α}

/-- Each thing held is held once, in one place, and is known. -/
structure Owned (known : α → Prop) (held : π → List α) : Prop where
  /-- No place holds a thing twice. -/
  nodup : ∀ p, (held p).Nodup
  /-- No two places hold the same thing. -/
  unique : ∀ {p q a}, a ∈ held p → a ∈ held q → p = q
  /-- What is held is known. -/
  known : ∀ {p a}, a ∈ held p → known a

theorem Owned.mono {known' : α → Prop} (h : Owned known held) (hk : ∀ a, known a → known' a) : Owned known' held :=
  ⟨h.nodup, h.unique, fun ha => hk _ (h.known ha)⟩

theorem Owned.split {ρ : Type} {part : ρ → List α} (h : Owned known held) (whole : ρ → π)
    (hsub : ∀ r, (part r).Sublist (held (whole r)))
    (hdisj : ∀ {r r' a}, whole r = whole r' → a ∈ part r → a ∈ part r' → r = r') : Owned known part := by
  refine ⟨fun r => (hsub r).nodup (h.nodup _), fun {r r' a} ha ha' => ?_, fun ha => h.known ((hsub _).subset ha)⟩
  exact hdisj (h.unique ((hsub r).subset ha) ((hsub r').subset ha')) ha ha'

section

variable [DecidableEq π]

/-- A place puts its things in another order, or drops some. -/
theorem Owned.shrink (h : Owned known held) (hl : l.Subperm (held p)) : Owned known (Function.update held p l) := by
  have hmem : ∀ {r b}, b ∈ Function.update held p l r → b ∈ held r := by
    intro r b hb
    by_cases hrp : r = p
    · subst hrp
      rw [Function.update_self] at hb
      exact hl.subset hb
    · rwa [Function.update_of_ne hrp] at hb
  refine ⟨fun r => ?_, fun hb hb' => h.unique (hmem hb) (hmem hb'), fun hb => h.known (hmem hb)⟩
  by_cases hrp : r = p
  · subst hrp
    rw [Function.update_self]
    obtain ⟨l₁, hperm, hsub⟩ := hl
    exact hperm.nodup_iff.mp (hsub.nodup (h.nodup r))
  · rw [Function.update_of_ne hrp]
    exact h.nodup r

theorem Owned.add (h : Owned known held) (hk : known a) (hnew : ∀ r, a ∉ held r)
    (hl : l.Subperm (a :: held q)) : Owned known (Function.update held q l) := by
  have hmem : ∀ {r b}, b ∈ Function.update held q l r → b ∈ held r ∨ r = q ∧ b = a := by
    intro r b hb
    by_cases hrq : r = q
    · subst hrq
      rw [Function.update_self] at hb
      rcases List.mem_cons.mp (hl.subset hb) with hb | hb
      · exact .inr ⟨rfl, hb⟩
      · exact .inl hb
    · rw [Function.update_of_ne hrq] at hb
      exact .inl hb
  refine ⟨fun r => ?_, fun {r r' b} hb hb' => ?_, fun {r b} hb => ?_⟩
  · by_cases hrq : r = q
    · subst hrq
      rw [Function.update_self]
      obtain ⟨l₁, hperm, hsub⟩ := hl
      exact hperm.nodup_iff.mp (hsub.nodup (List.nodup_cons.mpr ⟨hnew r, h.nodup r⟩))
    · rw [Function.update_of_ne hrq]
      exact h.nodup r
  · rcases hmem hb with hr | ⟨rfl, rfl⟩
    · rcases hmem hb' with hr' | ⟨rfl, rfl⟩
      · exact h.unique hr hr'
      · exact absurd hr (hnew r)
    · rcases hmem hb' with hr' | ⟨rfl, -⟩
      · exact absurd hr' (hnew r')
      · rfl
  · rcases hmem hb with hb | ⟨-, rfl⟩
    · exact h.known hb
    · exact hk

theorem Owned.move (h : Owned known held) (hp : (held p).Perm (a :: l)) (hpq : p ≠ q)
    (hq : l'.Subperm (a :: held q)) :
    Owned known (Function.update (Function.update held p l) q l') := by
  have ha : a ∈ held p := hp.symm.subset (by simp)
  have hnodup : (a :: l).Nodup := hp.nodup_iff.mp (h.nodup p)
  have hmid : Owned known (Function.update held p l) :=
    h.shrink ((List.sublist_cons_self a l).subperm.trans hp.symm.subperm)
  refine hmid.add (h.known ha) (fun r hmem => ?_) ?_
  · by_cases hrp : r = p
    · subst hrp
      rw [Function.update_self] at hmem
      exact (List.nodup_cons.mp hnodup).1 hmem
    · rw [Function.update_of_ne hrp] at hmem
      exact hrp (h.unique hmem ha)
  · rw [Function.update_of_ne hpq.symm]
    exact hq

end

/-! ### A free list -/

/-- The calls of a free list. -/
inductive Call (α : Type) where
  /-- A thing is given out: a free one, or a new one. -/
  | get (a : α)
  /-- A thing comes back. -/
  | put (a : α)
  deriving DecidableEq, Repr

variable [DecidableEq α]

/-- What is free after a call. A thing that is free cannot come back. -/
def Call.step (free : List α) : Call α → Option (List α)
  | .get a => some (free.erase a)
  | .put a => if a ∈ free then none else some (a :: free)

/-- A free thing stays free until it is given out. -/
theorem Call.mem_exec {free free' : List α} {calls : List (Call α)} (h : exec Call.step free calls = some free')
    (ha : a ∈ free) (hget : .get a ∉ calls) : a ∈ free' := by
  refine exec_invariant (I := (a ∈ ·)) (C := fun _ c => c ≠ .get a) (fun s c s' hs hc hstep => ?_) calls free free'
    ha (allSteps_of_forall fun c hc => ?_) h
  · cases c with
    | get b =>
      obtain rfl := Option.some.inj hstep
      exact (List.mem_erase_of_ne fun hab : a = b => hc (by rw [hab])).mpr hs
    | put b =>
      obtain ⟨-, ⟨⟩⟩ := Option.ite_none_left_eq_some.mp hstep
      exact List.mem_cons_of_mem _ hs
  · exact fun hc' => hget (hc' ▸ hc)

/-- **Between two puts of a thing it is given out.** -/
theorem get_between_puts {free free' : List α} {before between after : List (Call α)}
    (h : exec Call.step free (before ++ .put a :: between ++ .put a :: after) = some free') : .get a ∈ between := by
  obtain ⟨free₁, h, hlast⟩ := exec_append.mp h
  obtain ⟨free₂, -, h⟩ := exec_append.mp h
  obtain ⟨free₃, hput, h⟩ := exec_cons_eq_some.mp h
  obtain ⟨-, ⟨⟩⟩ := Option.ite_none_left_eq_some.mp hput
  by_contra hget
  obtain ⟨free₄, hput, -⟩ := exec_cons_eq_some.mp hlast
  rw [Call.step, if_pos (Call.mem_exec h (List.mem_cons_self ..) hget)] at hput
  cases hput

end RtspProxy.Theory
