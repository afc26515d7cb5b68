import Mathlib.Data.List.Nodup

/-!
# A queue and the log of what is done

Several parties put items into a queue, and later do something that is logged. If they do it
in turn, then the items of the queue that are logged stand at its front, in the order of the
log.

## The model

`Split done queue log`: the queue is `done`, followed by items that are not in the log.

## What is proved

* `Split.enqueue`, `Split.record`, `Split.dequeue` — the operations keep `Split`; `Split.record`
  needs that the item is the first in the queue that is not in the log.
* `Split.filter_eq` — the items that are logged are those at the front.
-/

namespace RtspProxy.Theory

variable {α : Type} {done queue log : List α} {a : α}

/-- The queue is `done`, all logged, followed by items that are not in the log. -/
structure Split (done queue log : List α) : Prop where
  /-- The items at the front are logged. -/
  logged : ∀ x ∈ done, x ∈ log
  /-- The others are not. -/
  rest : ∃ rest, queue = done ++ rest ∧ ∀ x ∈ rest, x ∉ log

theorem split_nil : Split [] [] log := ⟨by simp, [], rfl, by simp⟩

/-- An item that is not in the log is put at the end. -/
theorem Split.enqueue (h : Split done queue log) (ha : a ∉ log) : Split done (queue ++ [a]) log := by
  obtain ⟨rest, rfl, hr⟩ := h.rest
  refine ⟨h.logged, rest ++ [a], List.append_assoc .., fun x hx => ?_⟩
  rcases List.mem_append.mp hx with hx | hx
  · exact hr x hx
  · rw [List.mem_singleton.mp hx]
    exact ha

/-- The first item that is not logged is logged. -/
theorem Split.record [DecidableEq α] (h : Split done queue log) (hnodup : queue.Nodup)
    (hfirst : queue.find? (fun x => x ∉ log) = some a) : Split (done ++ [a]) queue (log ++ [a]) := by
  obtain ⟨rest, rfl, hr⟩ := h.rest
  have hdone : done.find? (fun x => x ∉ log) = none := by
    rw [List.find?_eq_none]
    intro x hx
    simp [h.logged x hx]
  rw [List.find?_append, hdone, Option.none_or] at hfirst
  cases rest with
  | nil => cases hfirst
  | cons b rest =>
    have hb : b ∉ log := hr b (by simp)
    have hba : b = a := by simpa [List.find?_cons, hb] using hfirst
    subst hba
    refine ⟨fun x hx => ?_, rest, by simp, fun x hx hmem => ?_⟩
    · rcases List.mem_append.mp hx with hx | hx
      · exact List.mem_append_left _ (h.logged x hx)
      · exact List.mem_append_right _ hx
    · rcases List.mem_append.mp hmem with hmem | hmem
      · exact hr x (by simp [hx]) hmem
      · rw [List.mem_singleton.mp hmem] at hx
        have := (List.nodup_append.mp hnodup).2.1
        exact (List.nodup_cons.mp this).1 hx

theorem Split.record_of_not_mem (h : Split done queue log) (ha : a ∉ queue) : Split done queue (log ++ [a]) := by
  obtain ⟨rest, rfl, hr⟩ := h.rest
  refine ⟨fun x hx => List.mem_append_left _ (h.logged x hx), rest, rfl, fun x hx hmem => ?_⟩
  rcases List.mem_append.mp hmem with hmem | hmem
  · exact hr x hx hmem
  · rw [List.mem_singleton.mp hmem] at hx
    exact ha (List.mem_append_right _ hx)

theorem Split.dequeue (h : Split done (a :: queue) log) : Split done.tail queue log := by
  obtain ⟨rest, he, hr⟩ := h.rest
  cases done with
  | nil =>
    cases he
    exact ⟨by simp, queue, rfl, fun x hx => hr x (by simp [hx])⟩
  | cons b done =>
    cases he
    exact ⟨fun x hx => h.logged x (List.mem_cons_of_mem _ hx), rest, rfl, hr⟩

/-- The items of the queue that are logged are those at the front. -/
theorem Split.filter_eq [DecidableEq α] (h : Split done queue log) : queue.filter (· ∈ log) = done := by
  obtain ⟨rest, rfl, hr⟩ := h.rest
  rw [List.filter_append, List.filter_eq_self.mpr, List.filter_eq_nil_iff.mpr, List.append_nil]
  · intro x hx
    simp [hr x hx]
  · intro x hx
    simp [h.logged x hx]

end RtspProxy.Theory
