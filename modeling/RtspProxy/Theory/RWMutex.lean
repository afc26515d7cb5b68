import Mathlib.Data.List.Count
import Mathlib.Logic.Function.Basic

/-!
# Goroutines that share a read-write lock

Go's `sync.RWMutex`: any number of readers, or one writer. "If any goroutine calls Lock while the
lock is already held by one or more readers, concurrent calls to RLock will block until the writer
has acquired (and released) the lock": so a reader that asks for a second read lock may wait for a
writer that waits for the reader.

## The model

A goroutine is a list of lock operations that it still has to do. A call of `Lock` first gets in
line with the other writers; the one whose turn it is keeps new readers out (`announce`) and has
the lock when the last reader has left (`acquire`). A call of `RLock` has a read lock at once if
no writer keeps it out, and waits for that writer's `Unlock` otherwise.

## What is proved

* `Locks.Inv.step` — in any state the operations still to be done say how many locks a goroutine
  holds or waits for.
* `Locks.Inv.not_stuck` — if nobody waits who holds a lock, somebody can move as long as somebody
  waits.
-/

namespace RtspProxy.Theory

variable {γ : Type} [DecidableEq γ]

/-- A call of a method of the lock. -/
inductive MuOp where
  /-- `RLock`. -/
  | rlock
  /-- `RUnlock`. -/
  | runlock
  | lock
  | unlock
  deriving DecidableEq, Repr

/-- The lock. -/
structure RWMutex (γ : Type) where
  /-- Who holds a read lock, once for each. -/
  readers : List γ
  /-- Who waits in `RLock`. -/
  blocked : List γ
  /-- Who waits in `Lock` for its turn. -/
  line : List γ
  /-- Whose turn it is: it keeps new readers out, and waits for the readers there are. -/
  pending : Option γ
  /-- Who holds the write lock. -/
  writer : Option γ
  deriving DecidableEq, Repr

namespace RWMutex

/-- Nobody holds the lock or waits for it. -/
def free : RWMutex γ := ⟨[], [], [], none, none⟩

/-- The goroutine waits for the lock. -/
def Waits (m : RWMutex γ) (g : γ) : Prop := g ∈ m.blocked ∨ g ∈ m.line ∨ m.pending = some g

/-- The goroutine holds the lock. -/
def Holds (m : RWMutex γ) (g : γ) : Prop := g ∈ m.readers ∨ m.writer = some g

instance (m : RWMutex γ) (g : γ) : Decidable (m.Waits g) := inferInstanceAs (Decidable (_ ∨ _))

instance (m : RWMutex γ) (g : γ) : Decidable (m.Holds g) := inferInstanceAs (Decidable (_ ∨ _))

/-- How many read locks a goroutine holds or waits for. -/
def reads (m : RWMutex γ) (g : γ) : ℕ := m.readers.count g + m.blocked.count g

/-- How many write locks a goroutine holds or waits for. -/
def writes (m : RWMutex γ) (g : γ) : ℕ := m.line.count g + m.pending.toList.count g + m.writer.toList.count g

/-- A call. To unlock what is not locked is a fatal error. -/
def call (m : RWMutex γ) (g : γ) : MuOp → Option (RWMutex γ)
  | .rlock =>
    if m.pending = none ∧ m.writer = none then some { m with readers := g :: m.readers }
    else some { m with blocked := g :: m.blocked }
  | .runlock => if g ∈ m.readers then some { m with readers := m.readers.erase g } else none
  | .lock => some { m with line := g :: m.line }
  | .unlock =>
    if m.writer = some g then
      some { m with writer := none, readers := m.blocked ++ m.readers, blocked := [] }
    else none

/-- It becomes the turn of a writer. -/
def announce (m : RWMutex γ) (g : γ) : Option (RWMutex γ) :=
  if m.pending = none ∧ m.writer = none ∧ g ∈ m.line then
    some { m with line := m.line.erase g, pending := some g }
  else none

/-- The writer whose turn it is has the lock. -/
def acquire (m : RWMutex γ) (g : γ) : Option (RWMutex γ) :=
  if m.pending = some g ∧ m.readers = [] then some { m with pending := none, writer := some g } else none

end RWMutex

/-- The lock, and what each goroutine still has to do. -/
structure Locks (γ : Type) where
  /-- The lock. -/
  mu : RWMutex γ
  /-- The operations still to be done. -/
  todo : γ → List MuOp

/-- What may happen next. -/
inductive MuAct (γ : Type) where
  /-- A goroutine with nothing to do begins with these operations. -/
  | begin (g : γ) (ops : List MuOp)
  /-- A goroutine does its next operation. -/
  | run (g : γ)
  /-- It becomes the turn of a writer. -/
  | announce (g : γ)
  /-- A writer has the lock. -/
  | acquire (g : γ)
  deriving DecidableEq, Repr

namespace Locks

/-- One step. A goroutine that waits does nothing. -/
def step (s : Locks γ) : MuAct γ → Option (Locks γ)
  | .begin g ops => if s.todo g = [] then some { s with todo := Function.update s.todo g ops } else none
  | .run g =>
    if s.mu.Waits g then none
    else match s.todo g with
      | [] => none
      | op :: ops => (s.mu.call g op).map fun mu => ⟨mu, Function.update s.todo g ops⟩
  | .announce g => (s.mu.announce g).map fun mu => { s with mu := mu }
  | .acquire g => (s.mu.acquire g).map fun mu => { s with mu := mu }

/-- Nobody does anything. -/
def idle : Locks γ := ⟨.free, fun _ => []⟩

/-- What holds in any state, whatever the goroutines do. -/
structure Inv (s : Locks γ) : Prop where
  /-- For each read lock that a goroutine holds or waits for, it still has to call `RUnlock`. -/
  reads : ∀ g, s.mu.reads g + (s.todo g).count .rlock = (s.todo g).count .runlock
  /-- For each write lock that a goroutine holds or waits for, it still has to call `Unlock`. -/
  writes : ∀ g, s.mu.writes g + (s.todo g).count .lock = (s.todo g).count .unlock
  /-- A writer is alone. -/
  alone : s.mu.writer ≠ none → s.mu.readers = [] ∧ s.mu.pending = none
  /-- Who waits in `RLock` waits for a writer. -/
  kept_out : s.mu.blocked ≠ [] → s.mu.pending ≠ none ∨ s.mu.writer ≠ none

/-- A goroutine unlocks what it locks. -/
def Balanced (ops : List MuOp) : Prop := ops.count .rlock = ops.count .runlock ∧ ops.count .lock = ops.count .unlock

/-! ### What a step does -/

/-- The effects a step can have. -/
inductive Effect (s : Locks γ) : MuAct γ → Locks γ → Prop
  /-- A goroutine begins. -/
  | begin {g : γ} {ops : List MuOp} : s.todo g = [] →
      Effect s (.begin g ops) { s with todo := Function.update s.todo g ops }
  /-- `RLock` with no writer to wait for. -/
  | read {g : γ} {ops : List MuOp} : ¬ s.mu.Waits g → s.todo g = .rlock :: ops → s.mu.pending = none →
      s.mu.writer = none →
      Effect s (.run g) ⟨{ s.mu with readers := g :: s.mu.readers }, Function.update s.todo g ops⟩
  /-- `RLock` that waits. -/
  | block {g : γ} {ops : List MuOp} : ¬ s.mu.Waits g → s.todo g = .rlock :: ops →
      ¬ (s.mu.pending = none ∧ s.mu.writer = none) →
      Effect s (.run g) ⟨{ s.mu with blocked := g :: s.mu.blocked }, Function.update s.todo g ops⟩
  /-- `RUnlock`. -/
  | leave {g : γ} {ops : List MuOp} : ¬ s.mu.Waits g → s.todo g = .runlock :: ops → g ∈ s.mu.readers →
      Effect s (.run g) ⟨{ s.mu with readers := s.mu.readers.erase g }, Function.update s.todo g ops⟩
  /-- `Lock`. -/
  | line {g : γ} {ops : List MuOp} : ¬ s.mu.Waits g → s.todo g = .lock :: ops →
      Effect s (.run g) ⟨{ s.mu with line := g :: s.mu.line }, Function.update s.todo g ops⟩
  | unlock {g : γ} {ops : List MuOp} : ¬ s.mu.Waits g → s.todo g = .unlock :: ops → s.mu.writer = some g →
      Effect s (.run g) ⟨{ s.mu with writer := none, readers := s.mu.blocked ++ s.mu.readers, blocked := [] },
        Function.update s.todo g ops⟩
  /-- It becomes the turn of a writer. -/
  | announce {g : γ} : s.mu.pending = none → s.mu.writer = none → g ∈ s.mu.line →
      Effect s (.announce g) { s with mu := { s.mu with line := s.mu.line.erase g, pending := some g } }
  /-- A writer has the lock. -/
  | acquire {g : γ} : s.mu.pending = some g → s.mu.readers = [] →
      Effect s (.acquire g) { s with mu := { s.mu with pending := none, writer := some g } }

variable {s t : Locks γ} {a : MuAct γ} {g : γ}

theorem effect_of_step (h : s.step a = some t) : s.Effect a t := by
  cases a with
  | begin g ops =>
    simp only [step, Option.ite_none_right_eq_some, Option.some.injEq] at h
    obtain ⟨htodo, rfl⟩ := h
    exact .begin htodo
  | run g =>
    simp only [step] at h
    split_ifs at h with hw
    cases htodo : s.todo g with
    | nil => simp [htodo] at h
    | cons op ops =>
      simp only [htodo, Option.map_eq_some_iff] at h
      obtain ⟨mu, hcall, rfl⟩ := h
      cases op with
      | rlock =>
        simp only [RWMutex.call] at hcall
        split_ifs at hcall with hfree
        · cases hcall
          exact .read hw htodo hfree.1 hfree.2
        · cases hcall
          exact .block hw htodo hfree
      | runlock =>
        simp only [RWMutex.call, Option.ite_none_right_eq_some, Option.some.injEq] at hcall
        obtain ⟨hr, rfl⟩ := hcall
        exact .leave hw htodo hr
      | lock =>
        cases hcall
        exact .line hw htodo
      | unlock =>
        simp only [RWMutex.call, Option.ite_none_right_eq_some, Option.some.injEq] at hcall
        obtain ⟨hwr, rfl⟩ := hcall
        exact .unlock hw htodo hwr
  | announce g =>
    simp only [step, RWMutex.announce, Option.map_eq_some_iff, Option.ite_none_right_eq_some, Option.some.injEq] at h
    obtain ⟨mu, ⟨⟨hp, hw, hg⟩, rfl⟩, rfl⟩ := h
    exact .announce hp hw hg
  | acquire g =>
    simp only [step, RWMutex.acquire, Option.map_eq_some_iff, Option.ite_none_right_eq_some, Option.some.injEq] at h
    obtain ⟨mu, ⟨⟨hp, hr⟩, rfl⟩, rfl⟩ := h
    exact .acquire hp hr

theorem inv_idle : (idle : Locks γ).Inv := by
  refine ⟨fun g => rfl, fun g => rfl, fun h => absurd rfl h, fun h => absurd rfl h⟩

/-- The locks of a goroutine other than the one that moves are not touched, and those of the one
that moves change as its operation says. -/
theorem Effect.counts (h : s.Effect (.run g) t) : ∃ op ops, s.todo g = op :: ops ∧
    t.todo = Function.update s.todo g ops ∧ ∀ g', t.mu.reads g' + (if g' = g ∧ op = .runlock then 1 else 0) =
        s.mu.reads g' + (if g' = g ∧ op = .rlock then 1 else 0) ∧
      t.mu.writes g' + (if g' = g ∧ op = .unlock then 1 else 0) =
        s.mu.writes g' + (if g' = g ∧ op = .lock then 1 else 0) := by
  cases h with
  | read _ htodo _ _ =>
    refine ⟨_, _, htodo, rfl, fun g' => ⟨?_, by simp [RWMutex.writes]⟩⟩
    by_cases hg : g' = g
    · simp [RWMutex.reads, hg]
      omega
    · simp [RWMutex.reads, hg, List.count_cons_of_ne (Ne.symm hg)]
  | block _ htodo _ =>
    refine ⟨_, _, htodo, rfl, fun g' => ⟨?_, by simp [RWMutex.writes]⟩⟩
    by_cases hg : g' = g
    · simp [RWMutex.reads, hg]
      omega
    · simp [RWMutex.reads, hg, List.count_cons_of_ne (Ne.symm hg)]
  | leave _ htodo hmem =>
    refine ⟨_, _, htodo, rfl, fun g' => ⟨?_, by simp [RWMutex.writes]⟩⟩
    have hpos := List.count_pos_iff.mpr hmem
    by_cases hg : g' = g
    · simp only [RWMutex.reads, hg, List.count_erase_self, true_and, if_true, reduceCtorEq, if_false]
      omega
    · simp [RWMutex.reads, List.count_erase_of_ne hg, hg]
  | line _ htodo =>
    refine ⟨_, _, htodo, rfl, fun g' => ⟨by simp [RWMutex.reads], ?_⟩⟩
    by_cases hg : g' = g
    · simp [RWMutex.writes, hg]
      omega
    · simp [RWMutex.writes, hg, List.count_cons_of_ne (Ne.symm hg)]
  | unlock _ htodo hw =>
    refine ⟨_, _, htodo, rfl, fun g' => ⟨?_, ?_⟩⟩
    · simp [RWMutex.reads]
      omega
    · by_cases hg : g' = g
      · simp [RWMutex.writes, hw, hg]
      · simp [RWMutex.writes, hw, hg, List.count_cons_of_ne (Ne.symm hg)]

/-- A step keeps the counts, if goroutines unlock what they lock. -/
theorem Inv.counts_step (hs : s.Inv) (hb : ∀ g ops, a = .begin g ops → Balanced ops) (heff : s.Effect a t) (g' : γ) :
    t.mu.reads g' + (t.todo g').count .rlock = (t.todo g').count .runlock ∧
      t.mu.writes g' + (t.todo g').count .lock = (t.todo g').count .unlock := by
  have hr := hs.reads g'
  have hw := hs.writes g'
  cases a with
  | begin g ops =>
    obtain ⟨hbr, hbw⟩ := hb g ops rfl
    cases heff with
    | begin htodo =>
      by_cases hg : g' = g
      · subst hg
        simp only [htodo, List.count_nil] at hr hw
        simp only [Function.update_self]
        omega
      · simp only [Function.update_of_ne hg]
        exact ⟨hr, hw⟩
  | run g =>
    obtain ⟨op, ops, htodo, htodo', hc⟩ := heff.counts
    obtain ⟨hcr, hcw⟩ := hc g'
    rw [htodo']
    by_cases hg : g' = g
    · subst hg
      rw [htodo] at hr hw
      rw [Function.update_self]
      cases op <;> simp at hr hw hcr hcw <;> omega
    · simp only [hg, false_and, if_false, Nat.add_zero] at hcr hcw
      rw [Function.update_of_ne hg, hcr, hcw]
      exact ⟨hr, hw⟩
  | announce g =>
    cases heff with
    | announce hp hwr hmem =>
      refine ⟨hr, ?_⟩
      have hpos := List.count_pos_iff.mpr hmem
      simp only [RWMutex.writes, hp, Option.toList_none, List.count_nil, Option.toList_some] at hw ⊢
      by_cases hg : g' = g
      · simp only [hg, List.count_erase_self, List.count_singleton_self] at hw ⊢
        omega
      · simp only [List.count_erase_of_ne hg, List.count_cons_of_ne (Ne.symm hg), List.count_nil]
        omega
  | acquire g =>
    cases heff with
    | acquire hp hrd =>
      refine ⟨hr, ?_⟩
      have hnone : s.mu.writer = none := by
        by_contra hne
        have := (hs.alone hne).2
        rw [hp] at this
        cases this
      simp only [RWMutex.writes, hp, hnone, Option.toList_none, List.count_nil, Option.toList_some] at hw ⊢
      omega

theorem Inv.alone_step (hs : s.Inv) (heff : s.Effect a t) (hne : t.mu.writer ≠ none) :
    t.mu.readers = [] ∧ t.mu.pending = none := by
  cases heff with
  | begin _ => exact hs.alone hne
  | read _ _ _ hw => exact absurd hw hne
  | block _ _ _ => exact hs.alone hne
  | leave _ _ _ =>
    obtain ⟨hr, hp⟩ := hs.alone hne
    exact ⟨by simp [hr], hp⟩
  | line _ _ => exact hs.alone hne
  | unlock _ _ _ => exact absurd rfl hne
  | announce _ hw _ => exact absurd hw hne
  | acquire _ hr => exact ⟨hr, rfl⟩

/-- After a step, who waits in `RLock` waits for a writer. -/
theorem Inv.kept_out_step (hs : s.Inv) (heff : s.Effect a t) (hne : t.mu.blocked ≠ []) :
    t.mu.pending ≠ none ∨ t.mu.writer ≠ none := by
  cases heff with
  | begin _ => exact hs.kept_out hne
  | read _ _ _ _ => exact hs.kept_out hne
  | block _ _ hfree => exact Decidable.not_and_iff_or_not.mp hfree
  | leave _ _ _ => exact hs.kept_out hne
  | line _ _ => exact hs.kept_out hne
  | unlock _ _ _ => exact absurd rfl hne
  | announce _ _ _ => exact .inl (by simp)
  | acquire _ _ => exact .inr (by simp)

/-- **The operations still to be done say which locks are held or waited for**: every step keeps
it, if goroutines unlock what they lock. -/
theorem Inv.step (hs : s.Inv) (hb : ∀ g ops, a = .begin g ops → Balanced ops) (h : s.step a = some t) : t.Inv := by
  have heff := effect_of_step h
  constructor
  · exact fun g => (hs.counts_step hb heff g).1
  · exact fun g => (hs.counts_step hb heff g).2
  · exact hs.alone_step heff
  · exact hs.kept_out_step heff

/-! ### Deadlock -/

/-- Somebody waits for the lock, and until another goroutine begins nobody can do anything. -/
def Stuck (s : Locks γ) : Prop := (∃ g, s.mu.Waits g) ∧ ∀ a, (∀ g ops, a ≠ .begin g ops) → s.step a = none

/-- **Nobody waits for ever, if nobody waits who holds a lock.** (And nobody unlocks what it has
not locked.) -/
theorem Inv.not_stuck (hs : s.Inv) (hno : ∀ g, ¬ (s.mu.Waits g ∧ s.mu.Holds g))
    (hdo : ∀ g op ops, s.todo g = op :: ops → ¬ s.mu.Waits g → (s.mu.call g op).isSome = true) : ¬ s.Stuck := by
  rintro ⟨⟨g, hg⟩, hstuck⟩
  have hidle : ∀ g, ¬ s.mu.Waits g → s.todo g = [] := by
    intro g hw
    cases htodo : s.todo g with
    | nil => rfl
    | cons op ops =>
      have hnone := hstuck (.run g) (by simp)
      obtain ⟨mu, hmu⟩ := Option.isSome_iff_exists.mp (hdo g op ops htodo hw)
      simp [Locks.step, hw, htodo, hmu] at hnone
  cases hw : s.mu.writer with
  | some w =>
    have htodo := hidle w fun hwait => hno w ⟨hwait, .inr hw⟩
    have := hs.writes w
    simp [RWMutex.writes, htodo, hw] at this
  | none =>
    cases hr : s.mu.readers with
    | cons r rs =>
      have htodo := hidle r fun hwait => hno r ⟨hwait, .inl (by simp [hr])⟩
      have := hs.reads r
      simp [RWMutex.reads, htodo, hr] at this
    | nil =>
      cases hp : s.mu.pending with
      | some w =>
        have := hstuck (.acquire w) (by simp)
        simp [Locks.step, RWMutex.acquire, hp, hr] at this
      | none =>
        rcases hg with hb | hl | hp'
        · rcases hs.kept_out (List.ne_nil_of_mem hb) with h | h
          · exact h hp
          · exact h hw
        · have := hstuck (.announce g) (by simp)
          simp [Locks.step, RWMutex.announce, hp, hw, hl] at this
        · rw [hp] at hp'
          cases hp'

end Locks

end RtspProxy.Theory
