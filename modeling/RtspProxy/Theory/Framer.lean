import Mathlib.Data.List.Basic
import Mathlib.Data.Nat.Basic

/-!
# Cutting a stream into items through a bounded buffer

A reader that receives a stream in pieces of arbitrary size keeps what it has not
yet used in a buffer of fixed capacity `B`. Each time round it takes complete items
off the front of the buffer until none is left, throws the buffer away if it is full
and still holds no complete item, and then asks for more.

## The model

A `Framer` is the one pass over the buffer: given the buffered bytes it finds an
item and its length, finds nothing complete, or cannot go on. Two laws are part of
the structure: an item is made of at least one and at most all of the buffered
bytes, and whatever a pass decides on some bytes it decides on any longer buffer
that starts with them. `Framer.read` is the reader: what it emits and where it ends
after a list of inputs. An input that does not fit the free space is not a possible
result of a read, and has no result (`none`).

`Scans B s o` says, with no mention of pieces, what the stream `s` means to a reader
of capacity `B`.

## What is proved

* `fits_iff` — the reader has a result for every input that a read can return.
* `scans_unique` — a stream has at most one meaning.
* `read_scans` — whatever the pieces, the reader ends with the meaning of the stream
  they make up; so `read_chunking` — two ways of cutting one stream into reads give the
  same result.
* `scans_items` — complete items in front of a stream, each within the capacity, come first
  in what it means; so `read_items` — a reader gets exactly the items, and what is left.
-/

namespace RtspProxy.Theory

universe u v w

/-- What one pass over the buffered bytes finds. -/
inductive Pass (ι : Type v) (φ : Type w) where
  /-- Nothing complete: more bytes are needed. -/
  | more
  /-- The first `n` bytes are the item `i`. -/
  | item (i : ι) (n : ℕ)
  /-- The reader cannot go on. -/
  | fault (f : φ)
  deriving DecidableEq, Repr

/-- One pass over the buffer, and the laws every such pass obeys. -/
structure Framer (α : Type u) (ι : Type v) (φ : Type w) where
  /-- What a pass finds in the buffered bytes. -/
  pass : List α → Pass ι φ
  /-- An item is made of at least one, and at most all, of the buffered bytes. -/
  bounds : ∀ {b : List α} {i : ι} {n : ℕ}, pass b = .item i n → 0 < n ∧ n ≤ b.length
  /-- A decision stands however much more is buffered behind it. -/
  ext : ∀ {b : List α}, pass b ≠ .more → ∀ c : List α, pass (b ++ c) = pass b

/-- What the reader does that can be seen. -/
inductive Event (ι : Type v) where
  /-- It hands on an item. -/
  | item (i : ι)
  /-- It throws away a full buffer. -/
  | full
  deriving DecidableEq, Repr

/-- Where the reader ends. -/
inductive End (α : Type u) (φ : Type w) where
  /-- It waits for more, with these bytes unconsumed. -/
  | waiting (rest : List α)
  /-- It stopped because the input ended, with these bytes unconsumed. -/
  | stopped (rest : List α)
  /-- It was cancelled before it looked at these bytes. -/
  | cancelled (buf : List α)
  /-- It could not go on. -/
  | fault (f : φ)
  deriving DecidableEq, Repr

/-- What the reader emits, and where it ends. -/
abbrev Out (α : Type u) (ι : Type v) (φ : Type w) := List (Event ι) × End α φ

/-- One answer to a request for more. -/
inductive Input (α : Type u) where
  /-- Some bytes. -/
  | data (bs : List α)
  /-- Nothing this time: ask again. -/
  | again
  /-- Nothing any more. -/
  | stop
  /-- The reader is told to leave, before it looks at its buffer again. -/
  | cancel
  deriving DecidableEq, Repr

/-- An input that carries the stream on: bytes, or nothing this time. -/
def Input.IsRead {α : Type u} : Input α → Prop
  | .data _ | .again => True
  | .stop | .cancel => False

instance {α : Type u} : DecidablePred (Input.IsRead (α := α)) := fun i =>
  match i with
  | .data _ | .again => isTrue trivial
  | .stop | .cancel => isFalse id

/-- The bytes of an input. -/
def Input.bytes {α : Type u} : Input α → List α
  | .data bs => bs
  | _ => []

/-- The stream that a list of inputs makes up. -/
def received {α : Type u} (is : List (Input α)) : List α := is.flatMap Input.bytes

section
variable {α : Type u} {ι : Type v} {φ : Type w}

@[simp] theorem received_nil : received ([] : List (Input α)) = [] := rfl

theorem received_cons (i : Input α) (is : List (Input α)) : received (i :: is) = i.bytes ++ received is := rfl

@[simp] theorem received_data (c : List α) (is : List (Input α)) :
    received (.data c :: is) = c ++ received is := rfl

/-- Emit more events first. -/
def Out.after (evs : List (Event ι)) (o : Out α ι φ) : Out α ι φ := (evs ++ o.1, o.2)

@[simp] theorem Out.after_nil (o : Out α ι φ) : Out.after [] o = o := rfl

theorem Out.after_after (e₁ e₂ : List (Event ι)) (o : Out α ι φ) :
    Out.after e₁ (Out.after e₂ o) = Out.after (e₁ ++ e₂) o := by
  simp [Out.after]

/-- Go on with the unconsumed bytes, if the reader still waits. -/
def Out.andThen (o : Out α ι φ) (k : List α → Option (Out α ι φ)) : Option (Out α ι φ) :=
  match o.2 with
  | .waiting r => (k r).map (Out.after o.1)
  | _ => some o

namespace Framer

variable (F : Framer α ι φ)

/-! ### The reader -/

/-- Take items off the front of the buffer, at most `k` of them. -/
def drainN : ℕ → List α → Out α ι φ
  | 0, b => ([], .waiting b)
  | k + 1, b =>
    if b.isEmpty then ([], .waiting b)
    else match F.pass b with
      | .more => ([], .waiting b)
      | .fault f => ([], .fault f)
      | .item i n => Out.after [.item i] (drainN k (b.drop n))

@[simp] theorem drainN_nil (k : ℕ) : F.drainN k [] = ([], .waiting []) := by
  cases k <;> rfl

theorem drainN_succ {k : ℕ} {b : List α} (hb : b ≠ []) :
    F.drainN (k + 1) b = match F.pass b with
      | .more => ([], .waiting b)
      | .fault f => ([], .fault f)
      | .item i n => Out.after [.item i] (F.drainN k (b.drop n)) := by
  rw [drainN, if_neg (by simpa using hb)]

/-- Take items off the front of the buffer until none is complete. Each takes at
least one byte, so the buffer's length bounds their number. -/
def drain (b : List α) : Out α ι φ := F.drainN b.length b

/-- Take what is complete, and throw the buffer away if it is full all the same. -/
def settle (B : ℕ) (b : List α) : Out α ι φ :=
  match F.drain b with
  | (evs, .waiting r) => if r.length = B then (evs ++ [.full], .waiting []) else (evs, .waiting r)
  | o => o

/-- A buffer with no complete item at its front: thrown away if it is full, kept otherwise. -/
theorem settle_of_more {B : ℕ} {b : List α} (hb : b ≠ []) (hp : F.pass b = .more) :
    F.settle B b = if b.length = B then ([.full], .waiting []) else ([], .waiting b) := by
  have hdrain : F.drain b = ([], .waiting b) := by
    obtain ⟨k, hk⟩ := Nat.exists_eq_succ_of_ne_zero (mt List.length_eq_zero_iff.mp hb)
    rw [drain, hk, drainN_succ F hb, hp]
  rw [settle, hdrain]
  rfl

/-- The reader of capacity `B` with `b` buffered, given these inputs. A piece that is
empty or larger than the free space is not a possible input. -/
def read (B : ℕ) : List (Input α) → List α → Option (Out α ι φ)
  | [], b => some (F.settle B b)
  | .cancel :: _, b => some ([], .cancelled b)
  | .stop :: _, b => (F.settle B b).andThen fun r => some ([], .stopped r)
  | .again :: is, b => (F.settle B b).andThen fun r => read B is r
  | .data c :: is, b => (F.settle B b).andThen fun r =>
      if c ≠ [] ∧ r.length + c.length ≤ B then read B is (r ++ c) else none

/-- Every piece is non-empty and fits the space that is free when it is asked for, as long as
the reader asks. -/
def Fits (B : ℕ) : List (Input α) → List α → Prop
  | .again :: is, b =>
    match (F.settle B b).2 with
    | .waiting r => Fits B is r
    | _ => True
  | .data c :: is, b =>
    match (F.settle B b).2 with
    | .waiting r => (c ≠ [] ∧ r.length + c.length ≤ B) ∧ Fits B is (r ++ c)
    | _ => True
  | _, _ => True

/-- The reader has a result exactly for the inputs that fit. -/
theorem fits_iff {B : ℕ} : ∀ (is : List (Input α)) (b : List α),
    F.Fits B is b ↔ (F.read B is b).isSome = true := by
  intro is
  induction is with
  | nil => intro b; simp [Fits, read]
  | cons i is ih =>
    intro b
    cases i with
    | data c =>
      cases h : (F.settle B b).2 with
      | waiting r =>
        simp only [Fits, read, Out.andThen, h, ih, Option.isSome_map]
        split_ifs with hfit
        · simp [hfit]
        · simp [hfit]
      | _ => simp [Fits, read, Out.andThen, h]
    | again =>
      cases h : (F.settle B b).2 with
      | waiting r => simp only [Fits, read, Out.andThen, h, ih, Option.isSome_map]
      | _ => simp [Fits, read, Out.andThen, h]
    | stop => cases h : (F.settle B b).2 <;> simp [Fits, read, Out.andThen, h]
    | cancel => simp [Fits, read]

instance {B : ℕ} (is : List (Input α)) (b : List α) : Decidable (F.Fits B is b) :=
  decidable_of_iff _ (F.fits_iff is b).symm

/-! ### The meaning of a stream -/

/-- **What a stream means** to a reader of capacity `B`: look at its first `B` bytes
(all of it, if it is shorter); take the item they start with; or discard them, if there
are `B` of them and no item is complete; or wait. -/
inductive Scans (B : ℕ) : List α → Out α ι φ → Prop
  /-- Nothing more. -/
  | nil : Scans B [] ([], .waiting [])
  | item {s : List α} {o : Out α ι φ} {i : ι} {n : ℕ} :
      F.pass (s.take B) = .item i n → Scans B (s.drop n) o → Scans B s (Out.after [.item i] o)
  /-- A full buffer with no complete item. -/
  | full {s : List α} {o : Out α ι φ} :
      F.pass (s.take B) = .more → B ≤ s.length → Scans B (s.drop B) o →
        Scans B s (Out.after [.full] o)
  /-- An incomplete item. -/
  | wait {s : List α} : F.pass s = .more → s.length < B → Scans B s ([], .waiting s)
  /-- The reader cannot go on. -/
  | fault {s : List α} {f : φ} : s ≠ [] → F.pass (s.take B) = .fault f → Scans B s ([], .fault f)

variable {F}

theorem scans_unique {B : ℕ} (hB : 0 < B) {s : List α} {o o' : Out α ι φ}
    (h : F.Scans B s o) (h' : F.Scans B s o') : o = o' := by
  have hnil : ∀ {i n}, F.pass (([] : List α).take B) ≠ .item i n := fun hp => by
    have := F.bounds hp
    simp at this
    omega
  induction h generalizing o' with
  | nil =>
    generalize hs : ([] : List α) = s at h'
    cases h' with
    | nil => rfl
    | item hp _ => subst hs; exact absurd hp hnil
    | full _ hl _ => subst hs; simp at hl; omega
    | wait => subst hs; rfl
    | fault hne _ => exact absurd hs.symm hne
  | item hp _ ih =>
    cases h' with
    | nil => exact absurd hp hnil
    | item hp' hs' =>
      rw [hp] at hp'
      cases hp'
      rw [ih hs']
    | full hp' _ _ => rw [hp] at hp'; cases hp'
    | wait hp' hl =>
      rw [List.take_of_length_le (by omega)] at hp
      rw [hp] at hp'; cases hp'
    | fault _ hp' => rw [hp] at hp'; cases hp'
  | full hp hl _ ih =>
    cases h' with
    | nil => simp at hl; omega
    | item hp' _ => rw [hp] at hp'; cases hp'
    | full _ _ hs' => rw [ih hs']
    | wait _ hl' => omega
    | fault _ hp' => rw [hp] at hp'; cases hp'
  | wait hp hl =>
    cases h' with
    | nil => rfl
    | item hp' _ =>
      rw [List.take_of_length_le (by omega)] at hp'
      rw [hp] at hp'; cases hp'
    | full _ hl' _ => omega
    | wait => rfl
    | fault _ hp' =>
      rw [List.take_of_length_le (by omega)] at hp'
      rw [hp] at hp'; cases hp'
  | fault hne hp =>
    cases h' with
    | nil => exact absurd rfl hne
    | item hp' _ => rw [hp] at hp'; cases hp'
    | full hp' _ _ => rw [hp] at hp'; cases hp'
    | wait hp' hl =>
      rw [List.take_of_length_le (by omega)] at hp
      rw [hp] at hp'; cases hp'
    | fault _ hp' => rw [hp] at hp'; cases hp'; rfl

/-- What a pass decides on the buffer, it decides on the first `B` bytes of the stream
the buffer starts. -/
theorem pass_take {B : ℕ} {b : List α} (hb : b.length ≤ B) (hp : F.pass b ≠ .more)
    (t : List α) : F.pass ((b ++ t).take B) = F.pass b := by
  rw [List.take_append, List.take_of_length_le hb]
  exact F.ext hp _

/-- **Draining the buffer is scanning the stream it starts**: the items taken come first,
and what follows is the meaning of the rest. -/
theorem drainN_scans {B : ℕ} (t : List α) : ∀ (k : ℕ) (b : List α), b.length ≤ B →
    (∀ evs r, F.drainN k b = (evs, .waiting r) →
      ∀ o, F.Scans B (r ++ t) o → F.Scans B (b ++ t) (Out.after evs o)) ∧
    (∀ evs f, F.drainN k b = (evs, .fault f) → F.Scans B (b ++ t) (evs, .fault f)) := by
  have hwait : ∀ b, (∀ evs r, (([], .waiting b) : Out α ι φ) = (evs, .waiting r) →
      ∀ o, F.Scans B (r ++ t) o → F.Scans B (b ++ t) (Out.after evs o)) ∧
      (∀ evs f, (([], .waiting b) : Out α ι φ) = (evs, .fault f) → F.Scans B (b ++ t) (evs, .fault f)) := by
    intro b
    refine ⟨fun evs r h o ho => ?_, fun evs f h => by simp at h⟩
    simp only [Prod.mk.injEq, End.waiting.injEq] at h
    obtain ⟨rfl, rfl⟩ := h
    exact ho
  intro k
  induction k with
  | zero => exact fun b _ => hwait b
  | succ k ih =>
    intro b hb
    by_cases hne : b = []
    · rw [hne, drainN_nil]
      exact hwait []
    · rw [F.drainN_succ hne]
      cases hp : F.pass b with
      | more => exact hwait b
      | fault f =>
        refine ⟨fun evs r h => by simp at h, fun evs g h => ?_⟩
        simp only [Prod.mk.injEq, End.fault.injEq] at h
        obtain ⟨rfl, rfl⟩ := h
        exact .fault (by simp [hne]) (by rw [pass_take hb (by simp [hp]), hp])
      | item i n =>
        have hn := F.bounds hp
        have hpt : F.pass ((b ++ t).take B) = .item i n := by
          rw [pass_take hb (by simp [hp]), hp]
        have hdrop : (b ++ t).drop n = b.drop n ++ t := List.drop_append_of_le_length hn.2
        obtain ⟨ihw, ihf⟩ := ih (b.drop n) (by simp; omega)
        refine ⟨fun evs r h o ho => ?_, fun evs f h => ?_⟩
        · simp only [Out.after, Prod.mk.injEq] at h
          obtain ⟨rfl, h2⟩ := h
          have := ihw _ r (Prod.ext rfl h2) o ho
          rw [← hdrop] at this
          have := Scans.item hpt this
          rwa [Out.after_after] at this
        · simp only [Out.after, Prod.mk.injEq] at h
          obtain ⟨rfl, h2⟩ := h
          have := ihf _ f (Prod.ext rfl h2)
          rw [← hdrop] at this
          exact Scans.item hpt this

/-- When draining stops to wait, nothing more is complete; and it never takes what is
not there. -/
theorem drainN_waiting : ∀ (k : ℕ) (b : List α), b.length ≤ k → ∀ evs r,
    F.drainN k b = (evs, .waiting r) → r.length ≤ b.length ∧ (r = [] ∨ F.pass r = .more) := by
  intro k
  induction k with
  | zero =>
    intro b hb evs r h
    simp only [drainN, Prod.mk.injEq, End.waiting.injEq] at h
    obtain ⟨-, rfl⟩ := h
    exact ⟨le_rfl, .inl (by simpa using hb)⟩
  | succ k ih =>
    intro b hb evs r h
    by_cases hne : b = []
    · rw [hne, drainN_nil] at h
      simp only [Prod.mk.injEq, End.waiting.injEq] at h
      obtain ⟨-, rfl⟩ := h
      exact ⟨by simp, .inl rfl⟩
    · rw [F.drainN_succ hne] at h
      cases hp : F.pass b with
      | more =>
        simp only [hp, Prod.mk.injEq, End.waiting.injEq] at h
        obtain ⟨-, rfl⟩ := h
        exact ⟨le_rfl, .inr hp⟩
      | fault f => simp [hp] at h
      | item i n =>
        have hn := F.bounds hp
        simp only [hp, Out.after, Prod.mk.injEq] at h
        have := ih (b.drop n) (by simp; omega) _ r (Prod.ext rfl h.2)
        exact ⟨by simp at this; omega, this.2⟩

theorem drainN_end : ∀ (k : ℕ) (b : List α),
    (∃ r, (F.drainN k b).2 = .waiting r) ∨ ∃ f, (F.drainN k b).2 = .fault f := by
  intro k
  induction k with
  | zero => intro b; exact .inl ⟨b, rfl⟩
  | succ k ih =>
    intro b
    rw [drainN]
    split
    · exact .inl ⟨b, rfl⟩
    · split
      · exact .inl ⟨b, rfl⟩
      · exact .inr ⟨_, rfl⟩
      · exact ih _

/-- What settling does: it scans the stream the buffer starts, and when it ends waiting
there is free space and nothing complete. -/
theorem settle_scans {B : ℕ} (hB : 0 < B) {b : List α} (hb : b.length ≤ B) (t : List α) :
    (∃ evs r, F.settle B b = (evs, .waiting r) ∧ r.length < B ∧ (r = [] ∨ F.pass r = .more) ∧
      ∀ o, F.Scans B (r ++ t) o → F.Scans B (b ++ t) (Out.after evs o)) ∨
    ∃ evs f, F.settle B b = (evs, .fault f) ∧ F.Scans B (b ++ t) (evs, .fault f) := by
  obtain ⟨hw, hf⟩ := drainN_scans (F := F) t b.length b hb
  rcases drainN_end (F := F) b.length b with ⟨r, hr⟩ | ⟨f, hr⟩
  · left
    have hd : F.drain b = ((F.drain b).1, .waiting r) := Prod.ext rfl hr
    obtain ⟨hle, hmore⟩ := drainN_waiting (F := F) b.length b le_rfl _ r hd
    by_cases hfull : r.length = B
    · refine ⟨(F.drain b).1 ++ [.full], [], ?_, by simpa using hB, .inl rfl, fun o ho => ?_⟩
      · rw [settle, hd]
        simp [hfull]
      · -- the whole buffer goes: `B` bytes with no complete item
        have hpm : F.pass r = .more := by
          rcases hmore with rfl | h
          · simp at hfull; omega
          · exact h
        have htake : (r ++ t).take B = r := by rw [← hfull, List.take_left]
        have hdrop : (r ++ t).drop B = t := by rw [← hfull, List.drop_left]
        have hs : F.Scans B (r ++ t) (Out.after [.full] o) :=
          .full (by rw [htake, hpm]) (by simp; omega) (by rw [hdrop]; exact ho)
        have := hw _ r hd _ hs
        rwa [Out.after_after] at this
    · refine ⟨(F.drain b).1, r, ?_, by omega, hmore, fun o ho => hw _ r hd o ho⟩
      rw [settle, hd]
      simp [hfull]
  · right
    have hd : F.drain b = ((F.drain b).1, .fault f) := Prod.ext rfl hr
    exact ⟨(F.drain b).1, f, by rw [settle, hd], hf _ f hd⟩

/-- What the reader does with one input that carries the stream on: it settles, and goes on
with what is left and the input, or it cannot go on. -/
theorem read_cons_cases {B : ℕ} (hB : 0 < B) {i : Input α} {is : List (Input α)} {b : List α} {o : Out α ι φ}
    (hb : b.length ≤ B) (hi : i.IsRead) (h : F.read B (i :: is) b = some o) :
    (∃ evs r o', F.settle B b = (evs, .waiting r) ∧ (r ++ i.bytes).length ≤ B ∧
      F.read B is (r ++ i.bytes) = some o' ∧ o = Out.after evs o') ∨
    ∃ evs f, F.settle B b = (evs, .fault f) ∧ o = (evs, .fault f) := by
  rcases settle_scans (F := F) hB hb [] with ⟨evs, r, he, hlt, -, -⟩ | ⟨evs, f, he, -⟩
  · left
    cases i with
    | data c =>
      simp only [read, he, Out.andThen, Option.map_eq_some_iff] at h
      obtain ⟨o', h, rfl⟩ := h
      split_ifs at h with hfit
      exact ⟨evs, r, o', he, by simpa [Input.bytes] using hfit.2, h, rfl⟩
    | again =>
      simp only [read, he, Out.andThen, Option.map_eq_some_iff] at h
      obtain ⟨o', h, rfl⟩ := h
      exact ⟨evs, r, o', he, by simp [Input.bytes]; omega, by simpa [Input.bytes] using h, rfl⟩
    | stop => exact absurd hi id
    | cancel => exact absurd hi id
  · right
    cases i with
    | data c =>
      simp only [read, he, Out.andThen, Option.some.injEq] at h
      exact ⟨evs, f, he, h.symm⟩
    | again =>
      simp only [read, he, Out.andThen, Option.some.injEq] at h
      exact ⟨evs, f, he, h.symm⟩
    | stop => exact absurd hi id
    | cancel => exact absurd hi id

/-- **The reader finds the meaning of the stream**, however it is cut into pieces. -/
theorem read_scans {B : ℕ} (hB : 0 < B) : ∀ (is : List (Input α)) (b : List α) (o : Out α ι φ),
    b.length ≤ B → (∀ i ∈ is, i.IsRead) → F.read B is b = some o →
      F.Scans B (b ++ received is) o := by
  intro is
  induction is with
  | nil =>
    intro b o hb _ h
    rw [read, Option.some.injEq] at h
    subst h
    rcases settle_scans (F := F) hB hb [] with ⟨evs, r, he, hlt, hmore, hsc⟩ | ⟨evs, f, he, hsc⟩
    · rw [he]
      refine hsc ([], .waiting r) ?_ |> fun h => by simpa [Out.after] using h
      rw [List.append_nil]
      rcases hmore with rfl | hm
      · exact .nil
      · exact .wait hm hlt
    · rw [he]
      exact hsc
  | cons i is ih =>
    intro b o hb hread h
    obtain ⟨hi, hrest⟩ := List.forall_mem_cons.mp hread
    rcases settle_scans (F := F) hB hb (received (i :: is)) with ⟨evs, r, he, -, -, hsc⟩ | ⟨evs, f, he, hsc⟩
    · obtain ⟨evs', r', o', he', hfit, h, rfl⟩ | ⟨_, _, he', -⟩ := read_cons_cases hB hb hi h
      · rw [he] at he'
        cases he'
        refine hsc o' ?_
        rw [received_cons, ← List.append_assoc]
        exact ih _ o' hfit hrest h
      · rw [he] at he'
        cases he'
    · obtain ⟨_, _, _, he', -⟩ | ⟨evs', f', he', rfl⟩ := read_cons_cases hB hb hi h
      · rw [he] at he'
        cases he'
      · rw [he] at he'
        cases he'
        exact hsc

/-- Reads that fit have a result, which is the meaning of the stream. -/
theorem scans_of_fits {B : ℕ} (hB : 0 < B) {is : List (Input α)} (hr : ∀ i ∈ is, i.IsRead)
    (hf : F.Fits B is []) : ∃ o, F.read B is [] = some o ∧ F.Scans B (received is) o := by
  obtain ⟨o, ho⟩ := Option.isSome_iff_exists.mp ((F.fits_iff is []).mp hf)
  exact ⟨o, ho, read_scans hB is [] o (Nat.zero_le _) hr ho⟩

/-- Two ways of cutting one stream into reads give the same result. -/
theorem read_chunking {B : ℕ} (hB : 0 < B) {is₁ is₂ : List (Input α)}
    (hr₁ : ∀ i ∈ is₁, i.IsRead) (hr₂ : ∀ i ∈ is₂, i.IsRead) (hs : received is₁ = received is₂)
    (hf₁ : F.Fits B is₁ []) (hf₂ : F.Fits B is₂ []) :
    ∃ o, F.read B is₁ [] = some o ∧ F.read B is₂ [] = some o := by
  obtain ⟨o₁, h₁, hs₁⟩ := scans_of_fits hB hr₁ hf₁
  obtain ⟨o₂, h₂, hs₂⟩ := scans_of_fits hB hr₂ hf₂
  rw [← hs] at hs₂
  exact ⟨o₁, h₁, scans_unique hB hs₁ hs₂ ▸ h₂⟩

/-- **Nothing is found in a part of an item.** -/
theorem pass_part {t part : List α} {i : ι} (hp : F.pass t = .item i t.length) (hpart : part <+: t)
    (hne : part ≠ t) : F.pass part = .more := by
  by_contra hmore
  obtain ⟨c, rfl⟩ := hpart
  rw [F.ext hmore c] at hp
  have hlen := (F.bounds hp).2
  rw [List.length_append] at hlen
  have hc : c = [] := List.length_eq_zero_iff.mp (by omega)
  exact hne (by rw [hc, List.append_nil])

section

variable {γ : Type*} {item : γ → ι} {text : γ → List α} {B : ℕ}

/-- Complete items in front of a stream come first. -/
theorem scans_items {left : List α} {o : Out α ι φ} (hleft : F.Scans B left o) : ∀ sent : List γ,
    (∀ x ∈ sent, F.pass (text x) = .item (item x) (text x).length ∧ (text x).length ≤ B) →
      F.Scans B (sent.flatMap text ++ left) (Out.after (sent.map fun x => .item (item x)) o) := by
  intro sent
  induction sent with
  | nil => intro _; exact hleft
  | cons x sent ih =>
    intro h
    obtain ⟨hp, hle⟩ := h x (List.mem_cons_self ..)
    have hsc := ih fun y hy => h y (List.mem_cons_of_mem _ hy)
    rw [List.flatMap_cons, List.append_assoc]
    refine Scans.item (o := Out.after _ o) (i := item x) (n := (text x).length) ?_ ?_
    · rw [pass_take hle (by simp [hp]), hp]
    · rwa [List.drop_left]

/-- **Complete items are delivered exactly**, in order, and the reader waits with what is left behind them. -/
theorem read_items (hB : 0 < B) {is : List (Input α)} (hr : ∀ i ∈ is, i.IsRead) (hf : F.Fits B is [])
    {sent : List γ} {left : List α}
    (hsent : ∀ x ∈ sent, F.pass (text x) = .item (item x) (text x).length ∧ (text x).length ≤ B)
    (hleft : F.Scans B left ([], .waiting left)) (hs : received is = sent.flatMap text ++ left) :
    F.read B is [] = some (sent.map fun x => .item (item x), .waiting left) := by
  obtain ⟨o, ho, hread⟩ := scans_of_fits hB hr hf
  have hitems := scans_items hleft sent hsent
  rw [← hs, Out.after, List.append_nil] at hitems
  rw [ho, scans_unique hB hread hitems]

end

end Framer

end

end RtspProxy.Theory
