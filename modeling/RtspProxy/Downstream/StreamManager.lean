import RtspProxy.Theory.Bytes
import RtspProxy.Theory.Registry

/-!
# The stream manager

`StreamManager.GetStream` returns the stream of a host, a user name, a password and a path,
and makes it when there is none. "Authentication context participates in stream identity to
ensure isolation": the streams are kept in a map whose key is the text

    username ":" password "@" host path

## The model

A stream is the number of its `NewStream` call, which stands for its address, with the
arguments of that call. The map is a `Registry` from keys to streams.

The separators of the key may also occur in what they separate, and between the host and the
path there is none. `Recut a b` says that the boundaries of `a`, moved, give `b`.

## What is proved

* `key_eq_iff` — two targets have one key exactly when they are equal or one is the other
  recut.
* `getStream_isolates_iff` — of any sequence of calls, for any two: they return the same
  stream just when their arguments are equal, exactly when neither is the other recut.
-/

namespace RtspProxy.Downstream

open Theory

/-- The arguments of `GetStream`. -/
structure Target where
  host : Bytes
  username : Bytes
  password : Bytes
  path : Bytes
  deriving DecidableEq, Repr

/-- `fmt.Sprintf("%s:%s@%s%s", username, password, host, path)`. -/
def Target.key (t : Target) : Bytes := t.username ++ 58 :: (t.password ++ 64 :: (t.host ++ t.path))

/-- `StreamManager.streams`. -/
abbrev StreamManager := Registry Bytes Target

/-- `NewStreamManager`. -/
def newStreamManager : StreamManager := .empty

/-- `GetStream`: the stream, by the number of its `NewStream` and the arguments given to it. -/
def StreamManager.getStream (sm : StreamManager) (t : Target) : (ℕ × Target) × StreamManager := sm.get t.key t

/-- `RemoveStream`, the callback of a stream's `Destroy`. -/
def StreamManager.removeStream (sm : StreamManager) (key : Bytes) : StreamManager := sm.erase key

/-- A sequence of `GetStream` calls: each with the stream it returned. -/
def StreamManager.getStreams (sm : StreamManager) (calls : List Target) : List (Target × ℕ × Target) :=
  (Registry.gets Target.key id sm calls).1

/-! ### When two targets have one key -/

/-- `b` is `a` with one boundary moved to the right, and what follows cut anew. -/
inductive Recut (a b : Target) : Prop where
  /-- The host takes over the beginning of the path. -/
  | host (x : Bytes) (hx : x ≠ []) (hu : b.username = a.username) (hp : b.password = a.password)
      (hh : b.host = a.host ++ x) (hpath : a.path = x ++ b.path)
  /-- The password contains an `@`, and takes over the beginning of the host and the path. -/
  | password (x : Bytes) (hu : b.username = a.username) (hp : b.password = a.password ++ 64 :: x)
      (hrest : a.host ++ a.path = x ++ 64 :: (b.host ++ b.path))
  /-- The user name contains a `:`, and takes over the beginning of what follows. -/
  | username (x : Bytes) (hu : b.username = a.username ++ 58 :: x)
      (hrest : a.password ++ 64 :: (a.host ++ a.path) = x ++ 58 :: (b.password ++ 64 :: (b.host ++ b.path)))

theorem Recut.key_eq {a b : Target} (h : Recut a b) : a.key = b.key := by
  obtain ⟨x, -, hu, hp, hh, hpath⟩ | ⟨x, hu, hp, hrest⟩ | ⟨x, hu, hrest⟩ := h
  · simp [Target.key, hu, hp, hh, hpath]
  · rw [Target.key, Target.key, hu, hp, hrest]
    simp
  · rw [Target.key, Target.key, hu, hrest]
    simp

/-- What is recut is another target: one of its fields is longer. -/
theorem Recut.ne {a b : Target} (h : Recut a b) : a ≠ b := by
  rintro rfl
  obtain ⟨x, hx, -, -, hh, -⟩ | ⟨x, -, hp, -⟩ | ⟨x, hu, -⟩ := h
  · exact hx (List.self_eq_append_right.mp hh)
  · simp at hp
  · simp at hu

/-- Hosts and paths that are equal when put together. -/
theorem eq_or_recut_of_rest {a b : Target} (hu : b.username = a.username) (hp : b.password = a.password)
    (h : a.host ++ a.path = b.host ++ b.path) : a = b ∨ Recut a b ∨ Recut b a := by
  rcases List.append_eq_append_iff.mp h with ⟨x, hh, hpath⟩ | ⟨x, hh, hpath⟩
  · by_cases hx : x = []
    · left
      cases a
      cases b
      simp_all
    · exact .inr (.inl (.host x hx hu hp hh hpath))
  · by_cases hx : x = []
    · left
      cases a
      cases b
      simp_all
    · exact .inr (.inr (.host x hx hu.symm hp.symm hh hpath))

/-- **Two targets have one key exactly when they are equal or one is the other recut.** -/
theorem key_eq_iff (a b : Target) : a.key = b.key ↔ a = b ∨ Recut a b ∨ Recut b a := by
  constructor
  · intro h
    rw [Target.key, Target.key, append_cons_eq_iff] at h
    obtain ⟨hu, h⟩ | ⟨x, hu, h⟩ | ⟨x, hu, h⟩ := h
    · rw [append_cons_eq_iff] at h
      obtain ⟨hp, h⟩ | ⟨x, hp, h⟩ | ⟨x, hp, h⟩ := h
      · exact eq_or_recut_of_rest hu hp h
      · exact .inr (.inl (.password x hu hp h))
      · exact .inr (.inr (.password x hu.symm hp h))
    · exact .inr (.inl (.username x hu h))
    · exact .inr (.inr (.username x hu h))
  · rintro (rfl | h | h)
    · rfl
    · exact h.key_eq
    · exact h.key_eq.symm

/-! ### The streams that calls return -/

/-- **Isolation, and where it ends**: for any two calls of any sequence of `GetStream` calls,
that they return the same stream just when their arguments are equal is the case exactly when
neither call's arguments are the other's recut. -/
theorem getStream_isolates_iff (sm : StreamManager) (calls : List Target) (c d : Target × ℕ × Target)
    (hc : c ∈ sm.getStreams calls) (hd : d ∈ sm.getStreams calls) :
    (c.2.1 = d.2.1 ↔ c.1 = d.1) ↔ ¬ Recut c.1 d.1 ∧ ¬ Recut d.1 c.1 := by
  rw [Registry.gets_same_iff hc hd, key_eq_iff]
  constructor
  · intro h
    constructor
    · intro hr
      exact hr.ne (h.mp (.inr (.inl hr)))
    · intro hr
      exact hr.ne (h.mp (.inr (.inr hr))).symm
  · rintro ⟨hcd, hdc⟩
    simp [hcd, hdc]

/-- Two cameras of one user: two streams. -/
theorem getStream_isolates_two_hosts :
    let a : Target := ⟨ascii "cam1:554", ascii "admin", ascii "secret", ascii "/live"⟩
    let b : Target := ⟨ascii "cam2:554", ascii "admin", ascii "secret", ascii "/live"⟩
    (a, 0, a) ∈ newStreamManager.getStreams [a, b] ∧ (b, 1, b) ∈ newStreamManager.getStreams [a, b] ∧
      ((0 = 1 ↔ a = b) ↔ ¬ Recut a b ∧ ¬ Recut b a) := by
  intro a b
  have ha : (a, 0, a) ∈ newStreamManager.getStreams [a, b] := by decide +kernel
  have hb : (b, 1, b) ∈ newStreamManager.getStreams [a, b] := by decide +kernel
  exact ⟨ha, hb, getStream_isolates_iff newStreamManager [a, b] (a, 0, a) (b, 1, b) ha hb⟩

/-- The user `a:b` with the password `c` and the user `a` with the password `b:c` are given one
stream, which logs in as the first of them. -/
theorem getStream_shared_credentials :
    let calls : List Target := [⟨ascii "cam:554", ascii "a:b", ascii "c", ascii "/live"⟩,
      ⟨ascii "cam:554", ascii "a", ascii "b:c", ascii "/live"⟩]
    ((newStreamManager.getStreams calls).map fun c => c.2) =
      [(0, ⟨ascii "cam:554", ascii "a:b", ascii "c", ascii "/live"⟩),
        (0, ⟨ascii "cam:554", ascii "a:b", ascii "c", ascii "/live"⟩)] := by
  decide +kernel

end RtspProxy.Downstream
