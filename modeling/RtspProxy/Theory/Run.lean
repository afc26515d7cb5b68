import Mathlib.Data.List.Basic

/-!
# Runs of a transition system

A system is a partial step function: the state after an action, if the action is
possible. A run is a list of actions, one after the other; any number of concurrent
parties are modelled by giving each party its own actions and letting a run interleave
them in any way.

`exec_invariant` is the one induction of every safety result: what one step keeps, a run
keeps. Its hypothesis may use a condition that every step of the run meets
(`AllSteps`). `tally_le` and `tally_add_le` are its quantitative form: steps that each use up
one unit of a potential are no more than the potential there was. `emits_invariant` is its form for
what the steps have put out so far.
-/

namespace RtspProxy.Theory

universe u v

variable {σ : Type u} {α : Type v}

/-- The state after a list of actions, if each is possible in its turn. -/
def exec (step : σ → α → Option σ) : σ → List α → Option σ
  | s, [] => some s
  | s, a :: as => (step s a).bind fun s' => exec step s' as

/-- The number of steps of the run from `s` that `P` counts. -/
def tally (step : σ → α → Option σ) (P : σ → α → Bool) : σ → List α → ℕ
  | _, [] => 0
  | s, a :: as =>
    (P s a).toNat + match step s a with
      | some s' => tally step P s' as
      | none => 0

/-- What the steps of the run from `s` put out, in order. -/
def emits {β : Type v} (step : σ → α → Option σ) (out : σ → α → List β) : σ → List α → List β
  | _, [] => []
  | s, a :: as =>
    out s a ++ match step s a with
      | some s' => emits step out s' as
      | none => []

/-- Every step of the run from `s` meets the condition `C` on the state before it and the
action. -/
def AllSteps (step : σ → α → Option σ) (C : σ → α → Prop) : σ → List α → Prop
  | _, [] => True
  | s, a :: as =>
    C s a ∧ match step s a with
      | some s' => AllSteps step C s' as
      | none => True

/-- A condition that can be tested can be tested along a run. -/
instance AllSteps.decidable (step : σ → α → Option σ) (C : σ → α → Prop)
    [∀ s a, Decidable (C s a)] : ∀ s as, Decidable (AllSteps step C s as)
  | _, [] => isTrue trivial
  | s, a :: as =>
    have : Decidable (match step s a with | some s' => AllSteps step C s' as | none => True) :=
      match step s a with
      | some s' => AllSteps.decidable step C s' as
      | none => isTrue trivial
    inferInstanceAs (Decidable (_ ∧ _))

variable {step : σ → α → Option σ} {C : σ → α → Prop} {I : σ → Prop}

@[simp] theorem exec_nil (s : σ) : exec step s [] = some s := rfl

theorem exec_cons_eq_some {s t : σ} {a : α} {as : List α} :
    exec step s (a :: as) = some t ↔ ∃ s', step s a = some s' ∧ exec step s' as = some t := by
  simp [exec, Option.bind_eq_some_iff]

theorem allSteps_cons {s s' : σ} {a : α} {as : List α} (h : step s a = some s') :
    AllSteps step C s (a :: as) ↔ C s a ∧ AllSteps step C s' as := by
  simp [AllSteps, h]

theorem allSteps_of_forall {P : α → Prop} {s : σ} {as : List α} (h : ∀ a ∈ as, P a) :
    AllSteps step (fun _ => P) s as := by
  induction as generalizing s with
  | nil => trivial
  | cons a as ih =>
    obtain ⟨ha, has⟩ := List.forall_mem_cons.mp h
    refine ⟨ha, ?_⟩
    cases step s a with
    | some s' => exact ih has
    | none => trivial

/-- Two conditions that a run meets, it meets together. -/
theorem AllSteps.and {D : σ → α → Prop} {s : σ} {as : List α} (hC : AllSteps step C s as)
    (hD : AllSteps step D s as) : AllSteps step (fun s a => C s a ∧ D s a) s as := by
  induction as generalizing s with
  | nil => trivial
  | cons a as ih =>
    cases hs : step s a with
    | some s' =>
      rw [allSteps_cons hs] at hC hD ⊢
      exact ⟨⟨hC.1, hD.1⟩, ih hC.2 hD.2⟩
    | none => simp_all [AllSteps]

/-- Two conditions that agree in every state with an invariant, which steps that meet them keep. -/
theorem allSteps_congr {D : σ → α → Prop} (hI : ∀ s a s', I s → C s a → step s a = some s' → I s')
    (hCD : ∀ s a, I s → (C s a ↔ D s a)) (s : σ) (as : List α) (hs : I s) :
    AllSteps step C s as ↔ AllSteps step D s as := by
  induction as generalizing s with
  | nil => exact Iff.rfl
  | cons a as ih =>
    cases hstep : step s a with
    | none => simp [AllSteps, hstep, hCD s a hs]
    | some s' =>
      rw [allSteps_cons hstep, allSteps_cons hstep, hCD s a hs]
      exact and_congr_right fun hD => ih s' (hI s a s' hs ((hCD s a hs).mpr hD) hstep)

theorem exec_append {s t : σ} {as bs : List α} :
    exec step s (as ++ bs) = some t ↔ ∃ s', exec step s as = some s' ∧ exec step s' bs = some t := by
  induction as generalizing s with
  | nil => simp
  | cons a as ih =>
    rw [List.cons_append, exec_cons_eq_some]
    simp only [ih, exec_cons_eq_some]
    constructor
    · rintro ⟨s₁, h₁, s₂, h₂, h₃⟩
      exact ⟨s₂, ⟨s₁, h₁, h₂⟩, h₃⟩
    · rintro ⟨s₂, ⟨s₁, h₁, h₂⟩, h₃⟩
      exact ⟨s₁, h₁, s₂, h₂, h₃⟩

/-- **The invariant rule**: what every step that meets the condition keeps, every run whose
steps meet it keeps. -/
theorem exec_invariant (hI : ∀ s a s', I s → C s a → step s a = some s' → I s') :
    ∀ (as : List α) (s t : σ), I s → AllSteps step C s as → exec step s as = some t → I t := by
  intro as
  induction as with
  | nil =>
    intro s t hs _ h
    simp only [exec_nil, Option.some.injEq] at h
    exact h ▸ hs
  | cons a as ih =>
    intro s t hs hC h
    obtain ⟨s', hstep, h⟩ := exec_cons_eq_some.mp h
    obtain ⟨hc, hC⟩ := (allSteps_cons hstep).mp hC
    exact ih s' t (hI s a s' hs hc hstep) hC h

theorem tally_cons {P : σ → α → Bool} {s s' : σ} {a : α} {as : List α} (h : step s a = some s') :
    tally step P s (a :: as) = (P s a).toNat + tally step P s' as := by
  simp [tally, h]

/-- **The potential rule**: if every step keeps an invariant and the potential pays for the
steps that are counted, a run has no more of them than the potential it starts with. -/
theorem tally_le {P : σ → α → Bool} {Φ : σ → ℕ}
    (hI : ∀ s a s', I s → step s a = some s' → I s' ∧ (P s a).toNat + Φ s' ≤ Φ s) :
    ∀ (as : List α) (s t : σ), I s → exec step s as = some t → tally step P s as ≤ Φ s := by
  intro as
  induction as with
  | nil => exact fun s t _ _ => Nat.zero_le _
  | cons a as ih =>
    intro s t hs h
    obtain ⟨s', hstep, h⟩ := exec_cons_eq_some.mp h
    obtain ⟨hs', hpay⟩ := hI s a s' hs hstep
    have := ih s' t hs' h
    rw [tally_cons hstep]
    omega

/-- The potential rule for runs whose steps meet a condition, with the potential that is left. -/
theorem tally_add_le {P : σ → α → Bool} {Φ : σ → ℕ}
    (hI : ∀ s a s', I s → C s a → step s a = some s' → I s' ∧ (P s a).toNat + Φ s' ≤ Φ s) :
    ∀ (as : List α) (s t : σ), I s → AllSteps step C s as → exec step s as = some t →
      I t ∧ tally step P s as + Φ t ≤ Φ s := by
  intro as
  induction as with
  | nil =>
    intro s t hs _ h
    obtain rfl : s = t := Option.some.inj h
    exact ⟨hs, Nat.le_of_eq (Nat.zero_add _)⟩
  | cons a as ih =>
    intro s t hs hC h
    obtain ⟨s', hstep, h⟩ := exec_cons_eq_some.mp h
    obtain ⟨hc, hC⟩ := (allSteps_cons hstep).mp hC
    obtain ⟨hs', hpay⟩ := hI s a s' hs hc hstep
    obtain ⟨ht, hrest⟩ := ih s' t hs' hC h
    rw [tally_cons hstep]
    exact ⟨ht, by omega⟩

section
variable {β : Type v} (out : σ → α → List β)

theorem emits_cons {s s' : σ} {a : α} {as : List α} (h : step s a = some s') :
    emits step out s (a :: as) = out s a ++ emits step out s' as := by
  simp [emits, h]

/-- **The history rule**: an invariant of the state and of what has been put out so far. -/
theorem emits_invariant {J : σ → List β → Prop} (hJ : ∀ s a s' l, J s l → step s a = some s' → J s' (l ++ out s a)) :
    ∀ (as : List α) (s t : σ) (l : List β), J s l → exec step s as = some t → J t (l ++ emits step out s as) := by
  intro as
  induction as with
  | nil =>
    intro s t l hs h
    obtain rfl : s = t := Option.some.inj h
    rwa [emits, List.append_nil]
  | cons a as ih =>
    intro s t l hs h
    obtain ⟨s', hstep, h⟩ := exec_cons_eq_some.mp h
    rw [emits_cons out hstep, ← List.append_assoc]
    exact ih s' t _ (hJ s a s' l hs hstep) h

end

end RtspProxy.Theory
