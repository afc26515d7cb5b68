import RtspProxy.Downstream.StreamManager
import RtspProxy.Theory.Run

/-!
# The registry and its gauge

A stream that is destroyed leaves the manager: `GetStream` gives it the callback `onDestroy`, which
removes the entry of the stream's key and counts `ActiveStreams` down. `Destroy` calls it each time,
so a second `Destroy` counts down once more, and removes whatever stream has the key by then
(`destroyed_twice`).

## The model

`Manager` is the stream manager with the change of the gauge since the start. Two fields only record
what happens: `created` has the streams that `GetStream` has made, by number, and `destroyed` those
whose `Destroy` was called.

## What is proved

* `Consistent` — the map holds exactly the streams made and not destroyed, each under its key, and the
  gauge counts them.
* `consistent_iff` — a sequence of calls keeps the manager consistent exactly when it destroys no stream
  a second time.
-/

namespace RtspProxy.Downstream

open Theory

/-- The stream manager, with the gauge. -/
structure Manager where
  streams : StreamManager
  /-- How `GlobalMetrics.ActiveStreams` has changed. -/
  activeStreams : ℤ
  /-- The streams that were made, by number. -/
  created : List Target
  /-- The streams whose `Destroy` was called. -/
  destroyed : List ℕ

/-- `NewStreamManager`. -/
def newManager : Manager := ⟨newStreamManager, 0, [], []⟩

/-- `GetStream`. -/
def Manager.getStream (m : Manager) (t : Target) : Manager :=
  match m.streams.entries.lookup t.key with
  | some _ => m
  | none => { m with
      streams := (m.streams.getStream t).2, activeStreams := m.activeStreams + 1, created := m.created ++ [t] }

/-- `onDestroy` of a stream made for `t`. -/
def Manager.onDestroy (m : Manager) (t : Target) : Manager :=
  { m with streams := m.streams.removeStream t.key, activeStreams := m.activeStreams - 1 }

/-- `Stream.Destroy` of stream `n`, if there is one. -/
def Manager.destroy (m : Manager) (n : ℕ) : Option Manager :=
  (m.created[n]?).map fun t => { m.onDestroy t with destroyed := n :: m.destroyed }

/-- The calls. -/
inductive ManagerCall where
  | getStream (t : Target)
  /-- `Destroy` of a stream. -/
  | destroy (n : ℕ)
  /-- `Shutdown`, with the order in which it visits the streams of the map. -/
  | shutdown (order : List ℕ)
  deriving DecidableEq, Repr

/-- One call. -/
def Manager.step (m : Manager) : ManagerCall → Option Manager
  | .getStream t => some (m.getStream t)
  | .destroy n => m.destroy n
  | .shutdown order => if order.Perm m.streams.numbers then order.foldlM Manager.destroy m else none

/-- **The map holds exactly the streams that were made and not destroyed, each under its own key, and
the gauge has changed by their number.** -/
structure Consistent (m : Manager) : Prop where
  /-- The map. -/
  streams : ∀ k n t, m.streams.entries.lookup k = some (n, t) ↔ m.created[n]? = some t ∧ n ∉ m.destroyed ∧ t.key = k
  gauge : m.activeStreams = m.streams.size

/-- No stream is destroyed a second time. -/
def FirstTime (m : Manager) : ManagerCall → Prop
  | .destroy n => n ∉ m.destroyed
  | _ => True

/-! ### What the calls keep -/

/-- A consistent manager, whose streams are numbered as they are made. -/
structure Manager.Ok (m : Manager) : Prop extends Consistent m where
  /-- The next number. -/
  next : m.streams.next = m.created.length
  /-- What is destroyed was made. -/
  made : ∀ n ∈ m.destroyed, n < m.created.length

theorem ok_newManager : newManager.Ok := by
  refine ⟨⟨fun k n t => ?_, rfl⟩, rfl, by simp [newManager]⟩
  simp [newManager, newStreamManager, Registry.empty]

variable {m m' : Manager}

theorem Manager.Ok.getStream (h : m.Ok) (t : Target) : (m.getStream t).Ok := by
  unfold Manager.getStream
  cases hlook : m.streams.entries.lookup t.key with
  | some e => exact h
  | none =>
    have hget : (m.streams.getStream t).2 = m.streams.add t.key t := by
      rw [StreamManager.getStream, Registry.get, hlook]
    have hnew : m.created.length ∉ m.destroyed := fun hmem => Nat.lt_irrefl _ (h.made _ hmem)
    refine ⟨⟨fun k n t' => ?_, ?_⟩, ?_, fun n hn => ?_⟩
    · have hcreated : (m.created ++ [t])[n]? = some t' ↔ m.created[n]? = some t' ∨ n = m.created.length ∧ t' = t := by
        grind
      rw [hget, Registry.lookup_add, h.next, hcreated]
      by_cases hk : k = t.key
      · -- no stream had the key before
        have hnone : ¬ (m.created[n]? = some t' ∧ n ∉ m.destroyed ∧ t'.key = k) := by
          rw [← h.streams, hk, hlook]
          exact (Option.some_ne_none _).symm
        grind
      · have hold := h.streams k n t'
        grind
    · rw [hget, Registry.size_add hlook, h.gauge]
      rfl
    · rw [hget, List.length_append, ← h.next]
      rfl
    · rw [List.length_append]
      exact Nat.lt_add_right _ (h.made n hn)

/-- A stream that is not destroyed has the entry of its key. -/
theorem Consistent.lookup (h : Consistent m) {n : ℕ} {t : Target} (ht : m.created[n]? = some t) (hn : n ∉ m.destroyed) :
    m.streams.entries.lookup t.key = some (n, t) := (h.streams t.key n t).mpr ⟨ht, hn, rfl⟩

/-- **The first `Destroy` of a stream** removes its entry. -/
theorem Manager.Ok.destroy (h : m.Ok) {n : ℕ} (hn : n ∉ m.destroyed) (hs : m.destroy n = some m') : m'.Ok := by
  obtain ⟨t, ht, rfl⟩ := Option.map_eq_some_iff.mp hs
  have hlook := h.lookup ht hn
  refine ⟨⟨fun k n' t' => ?_, ?_⟩, h.next, fun n' hn' => ?_⟩
  · rw [Manager.onDestroy, StreamManager.removeStream, Registry.lookup_erase]
    by_cases hk : k = t.key
    · -- the stream had its key alone
      have hsame := (h.streams k n' t').symm.trans (by rw [hk, hlook])
      grind
    · have hold := h.streams k n' t'
      grind
  · have hsize := Registry.size_erase_of_some hlook
    have hgauge := h.gauge
    simp only [Manager.onDestroy, StreamManager.removeStream]
    omega
  · rcases List.mem_cons.mp hn' with rfl | hn'
    · exact (List.getElem?_eq_some_iff.mp ht).1
    · exact h.made n' hn'

/-- **A second `Destroy`** takes the entry of another stream, or counts one too few. -/
theorem Manager.Ok.not_consistent (h : m.Ok) {n : ℕ} (hn : n ∈ m.destroyed) (hs : m.destroy n = some m') :
    ¬ Consistent m' := by
  obtain ⟨t, ht, rfl⟩ := Option.map_eq_some_iff.mp hs
  intro h'
  cases hlook : m.streams.entries.lookup t.key with
  | none =>
    have hsize := Registry.size_erase_of_none hlook
    have hgauge := h.gauge
    have hgauge' := h'.gauge
    simp only [Manager.onDestroy, StreamManager.removeStream] at hgauge'
    omega
  | some e =>
    obtain ⟨ht', hn', hkey⟩ := (h.streams t.key e.1 e.2).mp hlook
    have hne : e.1 ≠ n := fun heq => hn' (heq ▸ hn)
    have hlook' := h'.lookup (n := e.1) ht' (by simp [hne, hn'])
    simp only [Manager.onDestroy, StreamManager.removeStream, Registry.lookup_erase, hkey, if_true] at hlook'
    cases hlook'

/-- Destroying several streams, each for the first time. -/
theorem Manager.Ok.destroys (h : m.Ok) {order : List ℕ} (hnodup : order.Nodup) (hfirst : ∀ n ∈ order, n ∉ m.destroyed)
    (hs : order.foldlM Manager.destroy m = some m') : m'.Ok := by
  induction order generalizing m with
  | nil =>
    obtain rfl := Option.some.inj hs
    exact h
  | cons n order ih =>
    rw [List.foldlM_cons] at hs
    obtain ⟨m₁, h₁, hs⟩ := Option.bind_eq_some_iff.mp hs
    obtain ⟨hnot, hnodup⟩ := List.nodup_cons.mp hnodup
    refine ih (h.destroy (hfirst n (by simp)) h₁) hnodup (fun n' hn' => ?_) hs
    obtain ⟨t, -, rfl⟩ := Option.map_eq_some_iff.mp h₁
    have hne : n' ≠ n := fun heq => hnot (heq ▸ hn')
    simp [hne, hfirst n' (by simp [hn'])]

/-- **One call.** -/
theorem Manager.Ok.step (h : m.Ok) {c : ManagerCall} (hc : FirstTime m c) (hs : m.step c = some m') : m'.Ok := by
  cases c with
  | getStream t =>
    obtain rfl := Option.some.inj hs
    exact h.getStream t
  | destroy n => exact h.destroy hc hs
  | shutdown order =>
    obtain ⟨hperm, hs⟩ := Option.ite_none_right_eq_some.mp hs
    refine h.destroys (hperm.nodup_iff.mpr m.streams.nodup_numbers) (fun n hn => ?_) hs
    obtain ⟨k, t, hlook⟩ := Registry.mem_numbers.mp (hperm.mem_iff.mp hn)
    exact ((h.streams k n t).mp hlook).2.1

/-- **Registry and gauge, and where they part**: after each call of a sequence the manager is
consistent, exactly when no call destroys a stream that was destroyed before. -/
theorem consistent_iff (calls : List ManagerCall) :
    AllSteps Manager.step (fun m c => ∀ m', m.step c = some m' → Consistent m') newManager calls ↔
      AllSteps Manager.step FirstTime newManager calls := by
  have hagree (m : Manager) (c : ManagerCall) (h : m.Ok) :
      FirstTime m c ↔ ∀ m', m.step c = some m' → Consistent m' := by
    constructor
    · intro hc m' hs
      exact (h.step hc hs).toConsistent
    · intro hall
      cases c with
      | destroy n =>
        intro hn
        obtain ⟨t, ht⟩ : ∃ t, m.created[n]? = some t := ⟨_, List.getElem?_eq_getElem (h.made n hn)⟩
        have hs : m.destroy n = some { m.onDestroy t with destroyed := n :: m.destroyed } := by
          rw [Manager.destroy, ht, Option.map_some]
        exact h.not_consistent hn hs (hall _ hs)
      | _ => trivial
  exact (allSteps_congr (fun m c m' h hc hs => h.step hc hs) hagree newManager calls ok_newManager).symm

/-- **A second `Destroy`** of a stream takes the entry of the stream that has its key by then, which
is running and is not found any more; and without such a stream the gauge goes below zero. -/
theorem destroyed_twice :
    let t : Target := ⟨ascii "cam:554", ascii "admin", ascii "secret", ascii "/live"⟩
    (∃ m, exec Manager.step newManager [.getStream t, .destroy 0, .getStream t, .destroy 0] = some m ∧
      m.created[1]? = some t ∧ 1 ∉ m.destroyed ∧ m.streams.entries.lookup t.key = none) ∧
    ∃ m, exec Manager.step newManager [.getStream t, .destroy 0, .destroy 0] = some m ∧
      m.activeStreams = -1 ∧ m.streams.size = 0 := by
  intro t
  have hother : (exec Manager.step newManager [.getStream t, .destroy 0, .getStream t, .destroy 0]).any (fun m =>
      m.created[1]? == some t && !m.destroyed.contains 1 && (m.streams.entries.lookup t.key).isNone) = true := by
    decide +kernel
  have hbelow : (exec Manager.step newManager [.getStream t, .destroy 0, .destroy 0]).any (fun m =>
      m.activeStreams == -1 && m.streams.size == 0) = true := by decide +kernel
  obtain ⟨m, hm, hall⟩ := (Option.any_eq_true _ _).mp hother
  obtain ⟨m', hm', hboth⟩ := (Option.any_eq_true _ _).mp hbelow
  simp only [Bool.and_eq_true, beq_iff_eq] at hboth
  exact ⟨⟨m, hm, by simpa [and_assoc] using hall⟩, m', hm', hboth⟩

end RtspProxy.Downstream
