import RtspProxy.Theory.Framer

/-!
# Where a reader looks for the start of an item

A pass of a reader takes the front of its buffer for the start of an item. Whether it is one
depends on where in the stream the buffer starts, which neither the reader nor what it emits
shows.

## The model

`Framer.looks` is the reader of `Framer.read` once more, recording for each pass the position in
the stream at which the buffer starts and the bytes buffered. `Reaches B s q` says, with no
mention of pieces, that a reader of capacity `B` comes to the position `q` of the stream `s`:
past an item it has found, or past a full buffer it has thrown away.

## What is proved

* `exists_look_of_item`, `read_fault_iff` — what the reader hands on, and why it cannot go on,
  was found at one of its looks.
* `reaches_of_look`, `exists_look_of_reaches` — whatever the pieces, the reader looks at exactly
  the positions it comes to at which the stream has a byte.
-/

namespace RtspProxy.Theory

universe u v w

namespace Framer

variable {α : Type u} {ι : Type v} {φ : Type w} (F : Framer α ι φ)

/-! ### The looks of a reader -/

/-- The looks while items are taken off the front of the buffer, which starts at the position
`p`. -/
def drainLooks : ℕ → ℕ → List α → List (ℕ × List α)
  | 0, _, _ => []
  | k + 1, p, b =>
    if b.isEmpty then []
    else (p, b) :: match F.pass b with
      | .item _ n => drainLooks k (p + n) (b.drop n)
      | _ => []

/-- The looks of the reader of capacity `B` with `b` buffered, which starts at the position
`p`, given these inputs. -/
def looks (B : ℕ) : List (Input α) → ℕ → List α → List (ℕ × List α)
  | [], p, b => F.drainLooks b.length p b
  | .cancel :: _, _, _ => []
  | .stop :: _, p, b => F.drainLooks b.length p b
  | .again :: is, p, b => F.drainLooks b.length p b ++
      match (F.settle B b).2 with
      | .waiting r => looks B is (p + (b.length - r.length)) r
      | _ => []
  | .data c :: is, p, b => F.drainLooks b.length p b ++
      match (F.settle B b).2 with
      | .waiting r => looks B is (p + (b.length - r.length)) (r ++ c)
      | _ => []

variable {F} {B : ℕ}

theorem looks_cons {i : Input α} (hi : i.IsRead) (is : List (Input α)) (p : ℕ) (b : List α) :
    F.looks B (i :: is) p b = F.drainLooks b.length p b ++
      match (F.settle B b).2 with
      | .waiting r => F.looks B is (p + (b.length - r.length)) (r ++ i.bytes)
      | _ => [] := by
  cases i with
  | data c => rfl
  | again => simp only [looks, Input.bytes, List.append_nil]
  | stop => exact absurd hi id
  | cancel => exact absurd hi id

theorem drainLooks_succ {k p : ℕ} {b : List α} (hb : b ≠ []) :
    F.drainLooks (k + 1) p b = (p, b) :: match F.pass b with
      | .item _ n => F.drainLooks k (p + n) (b.drop n)
      | _ => [] := by
  rw [drainLooks, if_neg (by simpa using hb)]

theorem drainLooks_nil (k p : ℕ) : F.drainLooks k p ([] : List α) = [] := by
  cases k <;> rfl

/-! ### What is found is found at a look -/

/-- An item handed on while draining was found at a look. -/
theorem exists_look_of_drainN {i : ι} : ∀ (k p : ℕ) (b : List α), .item i ∈ (F.drainN k b).1 →
    ∃ l ∈ F.drainLooks k p b, ∃ n, F.pass l.2 = .item i n := by
  intro k
  induction k with
  | zero => intro p b h; simp [drainN] at h
  | succ k ih =>
    intro p b h
    by_cases hb : b = []
    · rw [hb, drainN_nil] at h
      simp at h
    rw [F.drainN_succ hb] at h
    rw [drainLooks_succ hb]
    cases hp : F.pass b with
    | more => simp [hp] at h
    | fault f => simp [hp] at h
    | item j n =>
      simp only [hp, Out.after, List.singleton_append, List.mem_cons, Event.item.injEq] at h
      rcases h with rfl | h
      · exact ⟨(p, b), List.mem_cons_self .., n, hp⟩
      · obtain ⟨l, hl, hfound⟩ := ih (p + n) (b.drop n) h
        exact ⟨l, List.mem_cons_of_mem _ hl, hfound⟩

/-- Draining ends in a fault exactly when a look finds one. -/
theorem drainN_fault_iff : ∀ (k p : ℕ) (b : List α),
    (∃ f, (F.drainN k b).2 = .fault f) ↔ ∃ l ∈ F.drainLooks k p b, ∃ f, F.pass l.2 = .fault f := by
  intro k
  induction k with
  | zero => intro p b; simp [drainN, drainLooks]
  | succ k ih =>
    intro p b
    by_cases hb : b = []
    · simp [hb, drainN_nil, drainLooks_nil]
    rw [F.drainN_succ hb, drainLooks_succ hb]
    cases hp : F.pass b with
    | more => simp [hp]
    | fault f => simp [hp]
    | item j n => simp [Out.after, ih (p + n) (b.drop n), hp]

theorem item_mem_settle {i : ι} {b : List α} : .item i ∈ (F.settle B b).1 ↔ .item i ∈ (F.drain b).1 := by
  rw [settle]
  cases h : F.drain b with
  | mk evs e =>
    cases e with
    | waiting r => by_cases hr : r.length = B <;> simp [hr]
    | _ => rfl

/-- Settling ends waiting, or in a fault that draining finds. -/
theorem settle_fault_cases (b : List α) (p : ℕ) :
    (∃ evs r, F.settle B b = (evs, .waiting r) ∧ ∀ l ∈ F.drainLooks b.length p b, ∀ f, F.pass l.2 ≠ .fault f) ∨
    ∃ evs f, F.settle B b = (evs, .fault f) ∧ ∃ l ∈ F.drainLooks b.length p b, ∃ f, F.pass l.2 = .fault f := by
  have hiff := drainN_fault_iff (F := F) b.length p b
  rw [← drain] at hiff
  cases hd : F.drain b with
  | mk evs e =>
    rcases drainN_end (F := F) b.length b with ⟨r, hr⟩ | ⟨f, hr⟩
    · left
      rw [← drain, hd] at hr
      cases hr
      have hno : ∀ l ∈ F.drainLooks b.length p b, ∀ f, F.pass l.2 ≠ .fault f := by
        intro l hl f hf
        obtain ⟨g, hg⟩ := hiff.mpr ⟨l, hl, f, hf⟩
        rw [hd] at hg
        cases hg
      by_cases hfull : r.length = B
      · exact ⟨evs ++ [.full], [], by simp [settle, hd, hfull], hno⟩
      · exact ⟨evs, r, by simp [settle, hd, hfull], hno⟩
    · right
      rw [← drain, hd] at hr
      cases hr
      exact ⟨evs, f, by simp [settle, hd], hiff.mp ⟨f, by rw [hd]⟩⟩

/-- **The reader cannot go on exactly when one of its looks finds a fault.** -/
theorem read_fault_iff : ∀ (is : List (Input α)) (p : ℕ) (b : List α) (o : Out α ι φ), F.read B is b = some o →
    ((∃ f, o.2 = .fault f) ↔ ∃ l ∈ F.looks B is p b, ∃ f, F.pass l.2 = .fault f) := by
  intro is
  induction is with
  | nil =>
    intro p b o h
    rw [read, Option.some.injEq] at h
    rw [← h, looks]
    obtain ⟨evs, r, hs, hno⟩ | ⟨evs, f, hs, hex⟩ := settle_fault_cases (F := F) (B := B) b p
    · simpa [hs] using hno
    · simpa [hs] using hex
  | cons i is ih =>
    intro p b o h
    obtain ⟨evs, r, hs, hno⟩ | ⟨evs, f, hs, hex⟩ := settle_fault_cases (F := F) (B := B) b p
    · -- nothing is wrong with what is buffered: the rest decides
      cases i with
      | data c =>
        simp only [read, hs, Out.andThen, Option.map_eq_some_iff] at h
        obtain ⟨o', h, rfl⟩ := h
        split_ifs at h
        have := ih (p + (b.length - r.length)) (r ++ c) o' h
        simp only [Out.after, looks, hs, List.mem_append, or_and_right, exists_or, this]
        simpa using fun a b hl f hf => absurd hf (hno _ hl f)
      | again =>
        simp only [read, hs, Out.andThen, Option.map_eq_some_iff] at h
        obtain ⟨o', h, rfl⟩ := h
        have := ih (p + (b.length - r.length)) r o' h
        simp only [Out.after, looks, hs, List.mem_append, or_and_right, exists_or, this]
        simpa using fun a b hl f hf => absurd hf (hno _ hl f)
      | stop =>
        simp only [read, hs, Out.andThen, Option.map_some, Option.some.injEq] at h
        simpa [← h, Out.after, looks] using fun a b hl => hno _ hl
      | cancel =>
        simp only [read, Option.some.injEq] at h
        simp [← h, looks]
    · cases i with
      | data c =>
        simp only [read, hs, Out.andThen, Option.some.injEq] at h
        simpa [← h, looks, hs] using hex
      | again =>
        simp only [read, hs, Out.andThen, Option.some.injEq] at h
        simpa [← h, looks, hs] using hex
      | stop =>
        simp only [read, hs, Out.andThen, Option.some.injEq] at h
        simpa [← h, looks, hs] using hex
      | cancel =>
        simp only [read, Option.some.injEq] at h
        simp [← h, looks]

/-- An item the reader hands on was found at one of its looks. -/
theorem exists_look_of_item {i : ι} (hB : 0 < B) : ∀ (is : List (Input α)) (p : ℕ) (b : List α) (o : Out α ι φ),
    b.length ≤ B → (∀ j ∈ is, j.IsRead) → F.read B is b = some o → .item i ∈ o.1 →
      ∃ l ∈ F.looks B is p b, ∃ n, F.pass l.2 = .item i n := by
  intro is
  induction is with
  | nil =>
    intro p b o _ _ h hi
    rw [read, Option.some.injEq] at h
    rw [← h, item_mem_settle] at hi
    exact exists_look_of_drainN _ p b hi
  | cons j is ih =>
    intro p b o hb hr h hi
    obtain ⟨hj, hr⟩ := List.forall_mem_cons.mp hr
    rw [looks_cons hj]
    obtain ⟨evs, r, o', hs, hfit, hrest, rfl⟩ | ⟨evs, f, hs, rfl⟩ := read_cons_cases hB hb hj h
    · rcases List.mem_append.mp hi with hi | hi
      · -- found before the next input is asked for
        have hi : .item i ∈ (F.settle B b).1 := by rwa [hs]
        obtain ⟨l, hl, hfound⟩ := exists_look_of_drainN _ p b (item_mem_settle.mp hi)
        exact ⟨l, List.mem_append_left _ hl, hfound⟩
      · obtain ⟨l, hl, hfound⟩ := ih (p + (b.length - r.length)) (r ++ j.bytes) o' hfit hr hrest hi
        refine ⟨l, List.mem_append_right _ ?_, hfound⟩
        rwa [hs]
    · have hi : .item i ∈ (F.settle B b).1 := by rwa [hs]
      obtain ⟨l, hl, hfound⟩ := exists_look_of_drainN _ p b (item_mem_settle.mp hi)
      exact ⟨l, List.mem_append_left _ hl, hfound⟩

/-! ### The positions a reader comes to -/

/-- The reader of capacity `B` comes to the position `q` of the stream. -/
inductive Reaches (F : Framer α ι φ) (B : ℕ) : List α → ℕ → Prop
  /-- It starts at the beginning. -/
  | here {s : List α} : Reaches F B s 0
  /-- It goes past an item. -/
  | item {s : List α} {i : ι} {n q : ℕ} :
      F.pass (s.take B) = .item i n → Reaches F B (s.drop n) q → Reaches F B s (n + q)
  /-- It throws a full buffer away. -/
  | full {s : List α} {q : ℕ} :
      F.pass (s.take B) = .more → B ≤ s.length → Reaches F B (s.drop B) q → Reaches F B s (B + q)

/-- A look of the reader: it has come to the position, and some of the bytes that follow there
are buffered. -/
def LooksAt (F : Framer α ι φ) (B : ℕ) (s : List α) (p : ℕ) (l : ℕ × List α) : Prop :=
  ∃ q, l.1 = p + q ∧ F.Reaches B s q ∧ l.2 ≠ [] ∧ l.2 <+: s.drop q ∧ l.2.length ≤ B

theorem LooksAt.of_item {s : List α} {i : ι} {n p : ℕ} {l : ℕ × List α} (hp : F.pass (s.take B) = .item i n)
    (h : F.LooksAt B (s.drop n) (p + n) l) : F.LooksAt B s p l := by
  obtain ⟨q, hl, hq, hne, hpre, hle⟩ := h
  refine ⟨n + q, by omega, .item hp hq, hne, ?_, hle⟩
  rwa [← List.drop_drop]

/-- Draining looks where the reader comes to. -/
theorem drainLooks_looksAt (t : List α) : ∀ (k p : ℕ) (b : List α), b.length ≤ B →
    ∀ l ∈ F.drainLooks k p b, F.LooksAt B (b ++ t) p l := by
  intro k
  induction k with
  | zero => intro p b _ l hl; simp [drainLooks] at hl
  | succ k ih =>
    intro p b hb l hl
    by_cases hbe : b = []
    · simp [hbe, drainLooks_nil] at hl
    rw [drainLooks_succ hbe] at hl
    rcases List.mem_cons.mp hl with rfl | hl
    · exact ⟨0, rfl, .here, hbe, ⟨t, rfl⟩, hb⟩
    · cases hp : F.pass b with
      | more => simp [hp] at hl
      | fault f => simp [hp] at hl
      | item i n =>
        simp only [hp] at hl
        have hn := F.bounds hp
        have hpt : F.pass ((b ++ t).take B) = .item i n := by rw [pass_take hb (by simp [hp]), hp]
        apply LooksAt.of_item hpt
        rw [List.drop_append_of_le_length hn.2]
        exact ih (p + n) (b.drop n) (by simp; omega) l hl

/-- What draining leaves is the end of the buffer, and where it starts the reader comes to. -/
theorem drainN_reaches (t : List α) : ∀ (k : ℕ) (b : List α), b.length ≤ B → ∀ evs r,
    F.drainN k b = (evs, .waiting r) → ∃ d, b = d ++ r ∧
      ∀ q, F.Reaches B (r ++ t) q → F.Reaches B (b ++ t) (d.length + q) := by
  intro k
  induction k with
  | zero =>
    intro b _ evs r h
    simp only [drainN, Prod.mk.injEq, End.waiting.injEq] at h
    obtain ⟨-, rfl⟩ := h
    exact ⟨[], rfl, fun q hq => by simpa using hq⟩
  | succ k ih =>
    intro b hb evs r h
    by_cases hbe : b = []
    · rw [hbe, drainN_nil] at h
      simp only [Prod.mk.injEq, End.waiting.injEq] at h
      obtain ⟨-, rfl⟩ := h
      exact ⟨[], hbe, fun q hq => by simpa [hbe] using hq⟩
    rw [F.drainN_succ hbe] at h
    cases hp : F.pass b with
    | more =>
      simp only [hp, Prod.mk.injEq, End.waiting.injEq] at h
      obtain ⟨-, rfl⟩ := h
      exact ⟨[], rfl, fun q hq => by simpa using hq⟩
    | fault f => simp [hp] at h
    | item i n =>
      simp only [hp, Out.after, Prod.mk.injEq] at h
      have hn := F.bounds hp
      have hpt : F.pass ((b ++ t).take B) = .item i n := by rw [pass_take hb (by simp [hp]), hp]
      obtain ⟨d, hd, hreach⟩ := ih (b.drop n) (by simp; omega) _ r (Prod.ext rfl h.2)
      refine ⟨b.take n ++ d, ?_, fun q hq => ?_⟩
      · rw [List.append_assoc, ← hd, List.take_append_drop]
      · have hq := hreach q hq
        rw [← List.drop_append_of_le_length hn.2] at hq
        have := Reaches.item hpt hq
        rwa [List.length_append, List.length_take_of_le hn.2, Nat.add_assoc]

/-- What settling leaves is the end of the buffer, and where it starts the reader comes to. -/
theorem settle_reaches (t : List α) {b r : List α} {evs : List (Event ι)} (hB : 0 < B) (hb : b.length ≤ B)
    (h : F.settle B b = (evs, .waiting r)) : ∃ d, b = d ++ r ∧
      ∀ q, F.Reaches B (r ++ t) q → F.Reaches B (b ++ t) (d.length + q) := by
  rcases drainN_end (F := F) b.length b with ⟨r₀, hr₀⟩ | ⟨f, hf⟩
  · have hd : F.drain b = ((F.drain b).1, .waiting r₀) := Prod.ext rfl hr₀
    obtain ⟨d, hdr, hreach⟩ := drainN_reaches (B := B) t b.length b hb _ r₀ hd
    rw [settle, hd] at h
    simp only at h
    split_ifs at h with hfull
    · -- the full buffer goes: the next position is behind it
      simp only [Prod.mk.injEq, End.waiting.injEq] at h
      obtain ⟨-, rfl⟩ := h
      obtain ⟨-, hmore⟩ := drainN_waiting (F := F) b.length b le_rfl _ r₀ hd
      have hpm : F.pass ((r₀ ++ t).take B) = .more := by
        rcases hmore with rfl | hm
        · simp at hfull
          omega
        · rwa [← hfull, List.take_left]
      have hdrop : (r₀ ++ t).drop B = t := by rw [← hfull, List.drop_left]
      refine ⟨b, by simp, fun q hq => ?_⟩
      have := hreach (B + q) (.full hpm (by simp; omega) (by rw [hdrop]; simpa using hq))
      have hlen : b.length = d.length + B := by rw [hdr, List.length_append, hfull]
      rwa [hlen, Nat.add_assoc]
    · simp only [Prod.mk.injEq, End.waiting.injEq] at h
      obtain ⟨-, rfl⟩ := h
      exact ⟨d, hdr, hreach⟩
  · have hd : F.drain b = ((F.drain b).1, .fault f) := Prod.ext rfl hf
    rw [settle, hd] at h
    simp at h

/-- **The reader looks only where it comes to**, whatever the pieces. -/
theorem reaches_of_look (hB : 0 < B) : ∀ (is : List (Input α)) (p : ℕ) (b : List α) (o : Out α ι φ), b.length ≤ B →
    F.read B is b = some o → ∀ l ∈ F.looks B is p b, F.LooksAt B (b ++ received is) p l := by
  intro is
  induction is with
  | nil =>
    intro p b o hb _ l hl
    exact drainLooks_looksAt _ b.length p b hb l hl
  | cons i is ih =>
    intro p b o hb h l hl
    by_cases hi : i.IsRead
    · rw [looks_cons hi] at hl
      rcases List.mem_append.mp hl with hl | hl
      · exact drainLooks_looksAt _ b.length p b hb l hl
      obtain ⟨evs, r, o', hs, hfit, hrest, rfl⟩ | ⟨evs, f, hs, rfl⟩ := read_cons_cases hB hb hi h
      · rw [hs] at hl
        obtain ⟨d, hd, hreach⟩ := settle_reaches (received (i :: is)) hB hb hs
        have hlen : b.length - r.length = d.length := by
          rw [hd, List.length_append]
          omega
        simp only [hlen] at hl
        obtain ⟨q, hlq, hq, hne, hpre, hle⟩ := ih _ (r ++ i.bytes) o' hfit hrest l hl
        rw [List.append_assoc, ← received_cons] at hq hpre
        refine ⟨d.length + q, by omega, hreach q hq, hne, ?_, hle⟩
        rwa [hd, List.append_assoc, ← List.drop_drop, List.drop_left]
      · rw [hs] at hl
        simp at hl
    · cases i with
      | stop => exact drainLooks_looksAt _ b.length p b hb l hl
      | cancel => simp [looks] at hl
      | data c => exact absurd trivial hi
      | again => exact absurd trivial hi

/-- The position at which draining ends is looked at, if a byte is left there. -/
theorem look_of_drainN : ∀ (k p : ℕ) (b : List α), b.length ≤ k → ∀ evs r, F.drainN k b = (evs, .waiting r) →
    r ≠ [] → (p + (b.length - r.length), r) ∈ F.drainLooks k p b := by
  intro k
  induction k with
  | zero =>
    intro p b hb evs r h hr
    simp only [drainN, Prod.mk.injEq, End.waiting.injEq] at h
    obtain ⟨-, rfl⟩ := h
    exact absurd (List.length_eq_zero_iff.mp (Nat.le_zero.mp hb)) hr
  | succ k ih =>
    intro p b hb evs r h hr
    by_cases hbe : b = []
    · rw [hbe, drainN_nil] at h
      simp only [Prod.mk.injEq, End.waiting.injEq] at h
      exact absurd h.2.symm hr
    rw [F.drainN_succ hbe] at h
    rw [drainLooks_succ hbe]
    cases hp : F.pass b with
    | more =>
      simp only [hp, Prod.mk.injEq, End.waiting.injEq] at h
      obtain ⟨-, rfl⟩ := h
      simp
    | fault f => simp [hp] at h
    | item i n =>
      simp only [hp, Out.after, Prod.mk.injEq] at h
      have hn := F.bounds hp
      have hdr : F.drainN k (b.drop n) = ((F.drainN k (b.drop n)).1, .waiting r) := Prod.ext rfl h.2
      have hle := (drainN_waiting (F := F) k (b.drop n) (by simp; omega) _ r hdr).1
      have hmem := ih (p + n) (b.drop n) (by simp; omega) _ r hdr hr
      rw [List.length_drop] at hmem hle
      have hpos : p + n + (b.length - n - r.length) = p + (b.length - r.length) := by omega
      rw [hpos] at hmem
      exact List.mem_cons_of_mem _ hmem

/-- A position the reader comes to is looked at while draining, or comes behind what draining
uses up. -/
theorem drainN_look_or (t : List α) : ∀ (k p : ℕ) (b : List α), b.length ≤ B → b.length ≤ k →
    ∀ q, F.Reaches B (b ++ t) q → (∃ v, (p + q, v) ∈ F.drainLooks k p b) ∨
      ∃ evs r q', F.drainN k b = (evs, .waiting r) ∧ q = b.length - r.length + q' ∧ F.Reaches B (r ++ t) q' := by
  intro k
  induction k with
  | zero =>
    intro p b _ hk q hq
    exact .inr ⟨[], b, q, rfl, by omega, hq⟩
  | succ k ih =>
    intro p b hb hk q hq
    by_cases hbe : b = []
    · subst hbe
      exact .inr ⟨[], [], q, drainN_nil .., by omega, hq⟩
    rw [F.drainN_succ hbe, drainLooks_succ hbe]
    cases hp : F.pass b with
    | more => exact .inr ⟨[], b, q, rfl, by omega, hq⟩
    | fault f =>
      have hpt : F.pass ((b ++ t).take B) = .fault f := by rw [pass_take hb (by simp [hp]), hp]
      left
      cases hq with
      | here => exact ⟨b, by simp⟩
      | item hp' _ => rw [hpt] at hp'; cases hp'
      | full hp' _ _ => rw [hpt] at hp'; cases hp'
    | item i n =>
      have hn := F.bounds hp
      have hpt : F.pass ((b ++ t).take B) = .item i n := by rw [pass_take hb (by simp [hp]), hp]
      cases hq with
      | here => exact .inl ⟨b, by simp⟩
      | full hp' _ _ => rw [hpt] at hp'; cases hp'
      | item hp' hq =>
        rw [hpt] at hp'
        cases hp'
        rw [List.drop_append_of_le_length hn.2] at hq
        rcases ih (p + n) (b.drop n) (by simp; omega) (by simp; omega) _ hq with ⟨v, hv⟩ | ⟨evs, r, q', hd, hq', hr⟩
        · left
          refine ⟨v, List.mem_cons_of_mem _ ?_⟩
          rwa [← Nat.add_assoc]
        · right
          have hle := (drainN_waiting (F := F) k (b.drop n) (by simp; omega) _ r hd).1
          rw [List.length_drop] at hle hq'
          exact ⟨.item i :: evs, r, q', by simp [hd, Out.after], by omega, hr⟩

/-- A position the reader comes to is looked at while settling, or comes behind what settling
uses up. -/
theorem settle_look_or (t : List α) (hB : 0 < B) {b : List α} (hb : b.length ≤ B) (p : ℕ) {q : ℕ}
    (hq : F.Reaches B (b ++ t) q) : (∃ v, (p + q, v) ∈ F.drainLooks b.length p b) ∨
      ∃ evs r q', F.settle B b = (evs, .waiting r) ∧ q = b.length - r.length + q' ∧ F.Reaches B (r ++ t) q' := by
  rcases drainN_look_or t b.length p b hb le_rfl q hq with h | ⟨evs, r, q', hd, hq', hr⟩
  · exact .inl h
  obtain ⟨hle, hmore⟩ := drainN_waiting (F := F) b.length b le_rfl _ r hd
  by_cases hfull : r.length = B
  · have hset : F.settle B b = (evs ++ [.full], .waiting []) := by simp [settle, drain, hd, hfull]
    have hne : r ≠ [] := by
      rintro rfl
      simp at hfull
      omega
    have hpm : F.pass ((r ++ t).take B) = .more := by
      rw [← hfull, List.take_left]
      exact hmore.resolve_left hne
    cases hr with
    | here => exact .inl ⟨r, hq' ▸ look_of_drainN b.length p b le_rfl _ r hd hne⟩
    | item hp' _ => rw [hpm] at hp'; cases hp'
    | full _ _ hr =>
      have hdrop : (r ++ t).drop B = t := by rw [← hfull, List.drop_left]
      rw [hdrop] at hr
      refine .inr ⟨_, [], _, hset, ?_, hr⟩
      simp only [List.length_nil]
      omega
  · exact .inr ⟨evs, r, q', by simp [settle, drain, hd, hfull], hq', hr⟩

/-- **The reader looks at every position it comes to** at which the stream has a byte. -/
theorem exists_look_of_reaches (hB : 0 < B) : ∀ (is : List (Input α)) (p : ℕ) (b : List α) (o : Out α ι φ),
    b.length ≤ B → (∀ i ∈ is, i.IsRead) → F.read B is b = some o → ∀ q, F.Reaches B (b ++ received is) q →
      q < (b ++ received is).length → ∃ v, (p + q, v) ∈ F.looks B is p b := by
  intro is
  induction is with
  | nil =>
    intro p b o hb _ _ q hq hlt
    rcases drainN_look_or [] b.length p b hb le_rfl q hq with h | ⟨evs, r, q', hd, hq', hr⟩
    · exact h
    obtain ⟨hle, hmore⟩ := drainN_waiting (F := F) b.length b le_rfl _ r hd
    rw [List.append_nil] at hr
    have hne : r ≠ [] := by
      rintro rfl
      simp at hlt hq'
      omega
    have hpm : F.pass (r.take B) = .more := by
      rw [List.take_of_length_le (by omega)]
      exact hmore.resolve_left hne
    have hlook := look_of_drainN (F := F) b.length p b le_rfl _ r hd hne
    cases hr with
    | here => exact ⟨r, hq' ▸ hlook⟩
    | item hp' _ => rw [hpm] at hp'; cases hp'
    | full _ hle' hr =>
      simp at hlt
      omega
  | cons i is ih =>
    intro p b o hb hread h q hq hlt
    obtain ⟨hi, hread⟩ := List.forall_mem_cons.mp hread
    rw [looks_cons hi]
    rcases settle_look_or (received (i :: is)) hB hb p hq with ⟨v, hv⟩ | ⟨evs, r, q', hs, hq', hr⟩
    · exact ⟨v, List.mem_append_left _ hv⟩
    obtain ⟨evs', r', o', hs', hfit, hrest, rfl⟩ | ⟨_, _, hs', -⟩ := read_cons_cases hB hb hi h
    · rw [hs] at hs'
      cases hs'
      obtain ⟨d, hd, -⟩ := settle_reaches (F := F) [] hB hb hs
      have hlen : b.length = d.length + r.length := by rw [hd, List.length_append]
      rw [received_cons, ← List.append_assoc] at hr
      obtain ⟨v, hv⟩ := ih (p + (b.length - r.length)) (r ++ i.bytes) o' hfit hread hrest q' hr (by
        rw [received_cons] at hlt
        simp only [List.length_append] at hlt ⊢
        omega)
      refine ⟨v, List.mem_append_right _ ?_⟩
      rw [hs]
      have hpos : p + q = p + (b.length - r.length) + q' := by omega
      rwa [hpos]
    · rw [hs] at hs'
      cases hs'

end Framer

end RtspProxy.Theory
