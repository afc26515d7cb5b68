import RtspProxy.Lifecycle.Course
import Mathlib.Algebra.GroupWithZero.Nat
import Mathlib.Data.List.Flatten
import Mathlib.Data.List.Nodup
import Mathlib.Data.List.Perm.Subperm

/-!
# Who tears a session down

`Stop` and `Destroy` swap `s.sessions` for an empty map under the lock, and then send a TEARDOWN for each
session they have found and stop it, without the lock. Any number of such calls may be under way while the
reader makes new sessions, so it is the swap that says who tears a session down.

## The model

A session is in the stream's map, or with one of the calls, until that has stopped it. A session here is the
object that `LookupSession` makes: when a call has taken the map, a late answer of the camera makes another
one with an id that was there before. The loop over the sessions taken visits them in some order, which is a
parameter. `HandMove` says what a step can do to all this, and which session it sends a TEARDOWN for.

## What is proved

* `handMove_of_step` — every step is one of `HandMove`.
* `sessions_held_once` — **no session is with two calls, or with a call and in the map**, and no id is twice in
  the map, in every run.
* `torn_down_once` — **no session object is torn down twice**, so a run has no more TEARDOWN requests than
  sessions were made.
-/

namespace RtspProxy.Lifecycle

open Theory

/-- The sessions that a call has taken and not yet stopped. -/
def ClosePc.holds : ClosePc → List ℕ
  | .teardown _ _ objs | .disconnect _ objs | .stopSessions objs => objs
  | .cancel | .take | .finish => []

/-- The TEARDOWN requests that a call has yet to send. -/
def ClosePc.left : ClosePc → ℕ
  | .teardown _ left _ => left
  | _ => 0

/-- The sessions that they are for, in the order of the loop, the next one last. -/
def ClosePc.pending (order : List ℕ → List ℕ) : ClosePc → List ℕ
  | .teardown _ left objs => (order objs).take left
  | _ => []

/-- The session of the next one. -/
def ClosePc.torn (order : List ℕ → List ℕ) : ClosePc → List ℕ
  | .teardown _ (left + 1) objs => (order objs)[left]?.toList
  | _ => []

/-- The sessions with the calls of `Stop` and `Destroy`. -/
def Sys.held (s : Sys) : List ℕ := s.closers.flatMap fun k => k.pc.holds

/-- The sessions in the stream's map, and with the calls. -/
def Sys.owned (s : Sys) : List ℕ := s.net.sessions.map Prod.snd ++ s.held

/-- The step sends a TEARDOWN. -/
def Sys.tearsDown (s : Sys) : Act → Bool
  | .closer i _ => s.closers[i]?.any fun k => k.pc.left != 0
  | _ => false

/-- The session that it sends it for. -/
def Sys.tornDown (order : List ℕ → List ℕ) (s : Sys) : Act → List ℕ
  | .closer i _ => s.closers[i]?.elim [] fun k => k.pc.torn order
  | _ => []

/-! ### What a step does with the sessions -/

/-- What a step can do with the sessions, and those that it tears down. -/
inductive Sys.HandMove (order : List ℕ → List ℕ) (s s' : Sys) : List ℕ → Prop
  /-- Nothing. -/
  | same (hsess : s'.net.sessions = s.net.sessions) (hobjs : s'.net.objs.length = s.net.objs.length)
      (hk : s'.closers = s.closers) : HandMove order s s' []
  /-- The reader makes a session. -/
  | made (id : ℕ) (hnew : id ∉ s.net.sessions.map Prod.fst)
      (hsess : s'.net.sessions = s.net.sessions ++ [(id, s.net.objs.length)])
      (hobjs : s'.net.objs.length = s.net.objs.length + 1) (hk : s'.closers = s.closers) : HandMove order s s' []
  /-- `Stop` or `Destroy` is called. -/
  | called (k : Closer) (hholds : k.pc.holds = []) (hleft : k.pc.left = 0) (hpending : k.pc.pending order = [])
      (hsess : s'.net.sessions = s.net.sessions) (hobjs : s'.net.objs.length = s.net.objs.length)
      (hk : s'.closers = s.closers ++ [k]) : HandMove order s s' []
  /-- A call takes the sessions. -/
  | took (i : ℕ) (k : Closer) (pc : ClosePc) (hi : s.closers[i]? = some k) (hbefore : k.pc = .take)
      (hholds : pc.holds = s.net.sessions.map Prod.snd) (hleft : pc.left ≤ pc.holds.length)
      (hpending : (pc.pending order).Sublist (order (s.net.sessions.map Prod.snd)))
      (hsess : s'.net.sessions = []) (hobjs : s'.net.objs.length = s.net.objs.length)
      (hk : s'.closers = s.closers.set i { k with pc := pc }) : HandMove order s s' []
  /-- A call goes on with what it has taken. -/
  | moved (torn : List ℕ) (i : ℕ) (k : Closer) (pc : ClosePc) (hi : s.closers[i]? = some k)
      (hholds : pc.holds.Sublist k.pc.holds) (hleft : k.pc.left ≤ k.pc.holds.length → pc.left ≤ pc.holds.length)
      (hpending : k.pc.pending order = pc.pending order ++ torn) (hsess : s'.net.sessions = s.net.sessions)
      (hobjs : s'.net.objs.length = s.net.objs.length) (hk : s'.closers = s.closers.set i { k with pc := pc }) :
      HandMove order s s' torn
  /-- A call returns. -/
  | ended (i : ℕ) (k : Closer) (hi : s.closers[i]? = some k) (hsess : s'.net.sessions = s.net.sessions)
      (hobjs : s'.net.objs.length = s.net.objs.length) (hk : s'.closers = s.closers.eraseIdx i) :
      HandMove order s s' []

variable {s s' : Sys} {a : Act} {order : List ℕ → List ℕ}

section
variable (n : Net) (r obj : ℕ)

theorem sessions_dialLocked (ok : Bool) :
    (n.dialLocked r ok).1.sessions = n.sessions ∧ (n.dialLocked r ok).1.objs = n.objs := by
  unfold Net.dialLocked
  split_ifs <;> exact ⟨rfl, rfl⟩

theorem sessions_sendRequest (o : SendOutcome) :
    (n.sendRequest r o).1.sessions = n.sessions ∧ (n.sendRequest r o).1.objs = n.objs := by
  have hdial := sessions_dialLocked n r (o != .dialFails)
  unfold Net.sendRequest
  dsimp only
  split_ifs <;> first | exact ⟨rfl, rfl⟩ | exact hdial

theorem sessions_newRemote (resolved : Bool) :
    (n.newRemote resolved).sessions = n.sessions ∧ (n.newRemote resolved).objs = n.objs := by
  unfold Net.newRemote
  cases n.remote <;> dsimp only <;> split_ifs <;> exact ⟨rfl, rfl⟩

theorem sessions_startUpstream :
    (n.startUpstream obj).sessions = n.sessions ∧ (n.startUpstream obj).objs.length = n.objs.length := by
  unfold Net.startUpstream
  split
  · exact ⟨rfl, List.length_set ..⟩
  · exact ⟨rfl, rfl⟩

theorem sessions_sessionStop :
    (n.sessionStop obj).sessions = n.sessions ∧ (n.sessionStop obj).objs.length = n.objs.length := by
  unfold Net.sessionStop
  split
  · exact ⟨rfl, List.length_set ..⟩
  · exact ⟨rfl, List.length_set ..⟩
  · exact ⟨rfl, rfl⟩

/-- `LookupSession` finds a session, or makes one. -/
theorem sessions_lookupSession (id : ℕ) :
    (n.lookupSession id).1 = n ∨ id ∉ n.sessions.map Prod.fst ∧
      (n.lookupSession id).1.sessions = n.sessions ++ [(id, n.objs.length)] ∧
      (n.lookupSession id).1.objs.length = n.objs.length + 1 := by
  unfold Net.lookupSession
  cases h : n.sessions.lookup id with
  | some obj => exact .inl rfl
  | none =>
    refine .inr ⟨?_, rfl, List.length_append ..⟩
    intro hmem
    obtain ⟨e, he, rfl⟩ := List.mem_map.mp hmem
    simpa using List.lookup_eq_none_iff.mp h e he

end

theorem sessions_stepKeepAlive {n n' : Net} {cancelled : Bool} {i : ℕ} {o : KeepAliveChoice}
    (h : n.stepKeepAlive cancelled i o = some n') :
    n'.sessions = n.sessions ∧ n'.objs.length = n.objs.length := by
  unfold Net.stepKeepAlive at h
  split at h
  · cases h
  · split at h
    case h_1 => split at h <;> cases h <;> exact ⟨rfl, rfl⟩
    case h_2 =>
      split_ifs at h
      cases h
      exact ⟨rfl, rfl⟩
    case h_3 =>
      have hs := sessions_sendRequest n
      split_ifs at h <;> cases h <;> exact ⟨(hs _ _).1, congrArg _ (hs _ _).2⟩
    case h_5 => split_ifs at h <;> cases h <;> exact ⟨rfl, rfl⟩
    case h_6 => cases h; exact ⟨rfl, List.length_modify ..⟩
    case h_4 => cases h; exact ⟨rfl, rfl⟩
    case h_7 => cases h

theorem handMove_stepLoop {pc : LoopPc} {o : LoopChoice} (h : s.stepLoop pc o = some s') :
    s.HandMove order s' [] := by
  unfold Sys.stepLoop at h
  split at h
  case h_3 =>
    cases h
    unfold Sys.enterConnecting
    split_ifs
    · exact .same rfl rfl rfl
    · split <;> exact .same rfl rfl rfl
  case h_4 resolved =>
    cases h
    obtain ⟨hs, ho⟩ := sessions_newRemote s.net resolved
    unfold Sys.replaceRemote
    dsimp only
    split <;> exact .same hs (congrArg _ ho) rfl
  case h_5 r ok =>
    cases h
    obtain ⟨hs, ho⟩ := sessions_dialLocked s.net r ok
    unfold Sys.dialRemote
    dsimp only
    split_ifs <;> exact .same hs (congrArg _ ho) rfl
  case h_7 r o =>
    cases h
    obtain ⟨hs, ho⟩ := sessions_sendRequest s.net r o
    exact .same hs (congrArg _ ho) rfl
  case h_10 r obj =>
    cases h
    obtain ⟨hs, ho⟩ := sessions_startUpstream s.net obj
    exact .same hs ho rfl
  case h_13 =>
    cases h
    unfold Sys.enterPlaying
    split <;> exact .same rfl rfl rfl
  case h_16 =>
    cases h
    unfold Sys.afterRead
    split_ifs <;> exact .same rfl rfl rfl
  case h_6 | h_9 | h_14 | h_17 | h_18 => split at h <;> cases h <;> exact .same rfl rfl rfl
  case h_23 =>
    split_ifs at h
    cases h
    exact .same rfl rfl rfl
  case h_25 => cases h
  all_goals
    cases h
    exact .same rfl rfl rfl

theorem handMove_stepReader {pc : ReaderPc} {o : ReaderChoice} (h : s.stepReader pc o = some s') :
    s.HandMove order s' [] := by
  have hlookup {s' : Sys} (id : ℕ) (hn : s'.net = (s.net.lookupSession id).1) (hk : s'.closers = s.closers) :
      s.HandMove order s' [] := by
    rcases sessions_lookupSession s.net id with hsame | ⟨hnew, hsess, hobjs⟩
    · exact .same (by rw [hn, hsame]) (by rw [hn, hsame]) hk
    · exact .made id hnew (by rw [hn, hsess]) (by rw [hn, hobjs]) hk
  unfold Sys.stepReader at h
  split at h
  case h_1 => split at h <;> cases h <;> exact .same rfl rfl rfl
  case h_3 =>
    split_ifs at h
    · split at h <;> cases h <;> exact .same rfl rfl rfl
    · cases h; exact .same rfl rfl rfl
  case h_5 =>
    split_ifs at h
    cases h
    exact .same rfl rfl rfl
  case h_7 id => cases h; exact hlookup id rfl rfl
  case h_8 id => cases h; exact hlookup id rfl rfl
  case h_9 obj =>
    cases h
    obtain ⟨hs, ho⟩ := sessions_startUpstream s.net obj
    exact .same hs ho rfl
  case h_10 r o =>
    cases h
    obtain ⟨hs, ho⟩ := sessions_sendRequest s.net r o
    exact .same hs (congrArg _ ho) rfl
  case h_11 => cases h
  all_goals
    cases h
    exact .same rfl rfl rfl

/-- `Stop` and `Destroy` take the sessions, and tear them down. -/
theorem handMove_stepCloser {i : ℕ} {o : SendOutcome} (h : s.stepCloser i o = some s') :
    s.HandMove order s' (s.tornDown order (.closer i o)) := by
  unfold Sys.stepCloser at h
  split at h
  · cases h
  · rename_i k hi
    have htorn : s.tornDown order (.closer i o) = k.pc.torn order := by simp [Sys.tornDown, hi]
    rw [htorn]
    split at h
    case h_1 hpc =>
      cases h
      rw [hpc]
      exact .moved [] i k .take hi (List.nil_sublist _) (fun _ => Nat.zero_le _) (by rw [hpc]; rfl) rfl rfl rfl
    case h_2 hpc =>
      rw [hpc]
      cases hd : k.destroys <;> simp only [hd, Sys.takeSessions] at h <;> split at h <;> cases h
      all_goals refine .took i k _ hi hpc rfl ?_ ?_ rfl rfl rfl
      all_goals simp [ClosePc.left, ClosePc.holds, ClosePc.pending, List.take_sublist]
    case h_3 r objs hpc =>
      cases h
      rw [hpc]
      exact .moved [] i k (.disconnect r objs) hi (by rw [hpc]; exact .refl _) (fun _ => Nat.zero_le _)
        (by rw [hpc]; rfl) rfl rfl rfl
    case h_4 r left objs hpc =>
      cases h
      rw [hpc]
      obtain ⟨hs, ho⟩ := sessions_sendRequest s.net r o
      refine .moved _ i k (.teardown r left objs) hi (by rw [hpc]; exact .refl _) (fun hle => ?_) ?_ hs
        (congrArg _ ho) rfl
      · rw [hpc] at hle
        exact Nat.le_of_succ_le hle
      · rw [hpc]
        exact List.take_add_one
    case h_5 r objs hpc =>
      cases h
      rw [hpc]
      exact .moved [] i k (.stopSessions objs) hi (by rw [hpc]; exact .refl _) (fun _ => Nat.zero_le _)
        (by rw [hpc]; rfl) rfl rfl rfl
    case h_6 hpc =>
      cases h
      rw [hpc]
      exact .moved [] i k .finish hi (List.nil_sublist _) (fun _ => Nat.zero_le _) (by rw [hpc]; rfl) rfl rfl rfl
    case h_7 obj objs hpc =>
      cases h
      rw [hpc]
      obtain ⟨hs, ho⟩ := sessions_sessionStop s.net obj
      exact .moved [] i k (.stopSessions objs) hi (by rw [hpc]; exact List.sublist_cons_self ..)
        (fun _ => Nat.zero_le _) (by rw [hpc]; rfl) hs ho rfl
    case h_8 hpc =>
      cases h
      rw [hpc]
      split <;> exact .ended i k hi rfl rfl rfl

/-- **What a step does with the sessions.** -/
theorem handMove_of_step (order : List ℕ → List ℕ) (h : s.step a = some s') :
    s.HandMove order s' (s.tornDown order a) := by
  unfold Sys.step at h
  split_ifs at h
  cases a with
  | start =>
    cases h
    unfold Sys.start Sys.startConnectLoop
    split_ifs <;> exact .same rfl rfl rfl
  | addClient client =>
    cases h
    unfold Sys.addClient Sys.startConnectLoop
    split_ifs <;> exact .same rfl rfl rfl
  | stop =>
    cases h
    unfold Sys.stop
    split
    · exact .same rfl rfl rfl
    · exact .called ⟨false, .take⟩ rfl rfl rfl rfl rfl rfl
  | destroy => cases h; exact .called ⟨true, .cancel⟩ rfl rfl rfl rfl rfl rfl
  | removeClient _ | shutdown => cases h; exact .same rfl rfl rfl
  | loop o =>
    obtain ⟨pc, -, h⟩ := Option.bind_eq_some_iff.mp h
    exact handMove_stepLoop h
  | reader o =>
    obtain ⟨pc, -, h⟩ := Option.bind_eq_some_iff.mp h
    exact handMove_stepReader h
  | closer i o => exact handMove_stepCloser h
  | keepAlive i o =>
    obtain ⟨n, hn, rfl⟩ := Option.map_eq_some_iff.mp h
    obtain ⟨hs, ho⟩ := sessions_stepKeepAlive hn
    exact .same hs ho rfl

/-! ### One holder -/

/-- Sessions that differ, of the first `n` that were made. -/
def Apart (n : ℕ) (objs : List ℕ) : Prop := objs.Nodup ∧ ∀ obj ∈ objs, obj < n

theorem Apart.of_subperm {n : ℕ} {objs objs' : List ℕ} (h : Apart n objs) (hsub : objs'.Subperm objs) :
    Apart n objs' := by
  obtain ⟨l, hperm, hsub⟩ := hsub
  exact ⟨hperm.nodup_iff.mp (hsub.nodup h.1), fun obj hobj => h.2 obj (hsub.subset (hperm.symm.subset hobj))⟩

/-- A new session is none of those there are. -/
theorem Apart.made {n : ℕ} {objs objs' : List ℕ} (h : Apart n objs) (hperm : objs'.Perm (n :: objs)) :
    Apart (n + 1) objs' := by
  have hfresh : n ∉ objs := fun hmem => Nat.lt_irrefl _ (h.2 _ hmem)
  refine ⟨hperm.nodup_iff.mpr (List.nodup_cons.mpr ⟨hfresh, h.1⟩), fun obj hobj => ?_⟩
  rcases List.mem_cons.mp (hperm.subset hobj) with rfl | hobj
  · exact Nat.lt_succ_self _
  · exact Nat.lt_succ_of_lt (h.2 obj hobj)

/-- What every step keeps. -/
structure Sys.Handed (s : Sys) : Prop where
  /-- Nobody holds what another holds. -/
  owned : Apart s.net.objs.length s.owned
  /-- An id is once in the map. -/
  ids : (s.net.sessions.map Prod.fst).Nodup

/-- What the calls have, with what one of them has in front, before and after that one goes on. -/
theorem exists_rest {l : List Closer} {i : ℕ} {k : Closer} (hi : l[i]? = some k) (k' : Closer)
    (f : Closer → List ℕ) :
    ∃ rest, (l.flatMap f).Perm (f k ++ rest) ∧ ((l.set i k').flatMap f).Perm (f k' ++ rest) := by
  obtain ⟨hlt, hk⟩ := List.getElem?_eq_some_iff.mp hi
  have hl : l.take i ++ k :: l.drop (i + 1) = l := by
    rw [← hk, List.getElem_cons_drop, List.take_append_drop]
  refine ⟨(l.take i).flatMap f ++ (l.drop (i + 1)).flatMap f, ?_, ?_⟩
  · nth_rewrite 1 [← hl]
    rw [List.flatMap_append, List.flatMap_cons]
    exact List.perm_append_comm_assoc ..
  · rw [List.set_eq_take_append_cons_drop, if_pos hlt, List.flatMap_append, List.flatMap_cons]
    exact List.perm_append_comm_assoc ..

/-- **Every step keeps it.** -/
theorem Sys.Handed.step (hs : s.Handed) {torn : List ℕ} (h : s.HandMove order s' torn) : s'.Handed := by
  cases h with
  | same hsess hobjs hk =>
    have howned : s'.owned = s.owned := by rw [Sys.owned, Sys.held, hsess, hk]; rfl
    exact ⟨by rw [hobjs, howned]; exact hs.owned, hsess ▸ hs.ids⟩
  | made id hnew hsess hobjs hk =>
    refine ⟨hobjs ▸ hs.owned.made ?_, ?_⟩
    · rw [Sys.owned, Sys.held, hsess, hk, List.map_append, List.map_singleton, List.append_assoc]
      exact List.perm_middle
    · rw [hsess, List.map_append, List.map_singleton]
      refine List.nodup_append.mpr ⟨hs.ids, List.nodup_singleton _, ?_⟩
      rintro x hx y hy rfl
      have hid : x = id := List.mem_singleton.mp hy
      exact hnew (hid ▸ hx)
  | called k hholds hleft hpending hsess hobjs hk =>
    have howned : s'.owned = s.owned := by
      rw [Sys.owned, Sys.held, hsess, hk, List.flatMap_append]
      simp [hholds, Sys.owned, Sys.held]
    exact ⟨by rw [hobjs, howned]; exact hs.owned, hsess ▸ hs.ids⟩
  | took i k pc hi hbefore hholds hleft hpending hsess hobjs hk =>
    obtain ⟨rest, hold, hnew⟩ := exists_rest hi { k with pc := pc } fun k => k.pc.holds
    have hnone : k.pc.holds = [] := by rw [hbefore]; rfl
    dsimp only at hold hnew
    rw [hnone, List.nil_append] at hold
    rw [hholds] at hnew
    refine ⟨hobjs ▸ hs.owned.of_subperm (List.Perm.subperm ?_), by simp [hsess]⟩
    rw [Sys.owned, Sys.held, hsess, hk]
    exact hnew.trans (hold.symm.append_left _)
  | moved torn i k pc hi hholds hleft hpending hsess hobjs hk =>
    obtain ⟨rest, hold, hnew⟩ := exists_rest hi { k with pc := pc } fun k => k.pc.holds
    refine ⟨hobjs ▸ hs.owned.of_subperm ?_, hsess ▸ hs.ids⟩
    rw [Sys.owned, Sys.held, hsess, hk]
    refine (List.subperm_append_left _).mpr ?_
    exact hnew.subperm.trans ((hholds.append_right rest).subperm.trans hold.symm.subperm)
  | ended i k hi hsess hobjs hk =>
    refine ⟨hobjs ▸ hs.owned.of_subperm (List.Sublist.subperm ?_), hsess ▸ hs.ids⟩
    rw [Sys.owned, Sys.held, hsess, hk]
    exact .append (.refl _) (List.Sublist.flatMap (List.eraseIdx_sublist ..) _)

/-- **Each session has one holder.** In every run of a stream and its goroutines, with any number of calls
of `Stop` and `Destroy` at once: a session that a call has taken and not yet stopped is neither with
another call nor in the stream's map, and the map has no session id and no session twice. -/
theorem sessions_held_once (as : List Act) (s : Sys) (hrun : exec Sys.step newSys as = some s) :
    (∀ (i j : ℕ) (k l : Closer) (obj : ℕ), s.closers[i]? = some k → s.closers[j]? = some l → obj ∈ k.pc.holds →
      obj ∈ l.pc.holds → i = j) ∧
    (∀ k ∈ s.closers, ∀ obj ∈ k.pc.holds, obj ∉ s.net.sessions.map Prod.snd) ∧
    (s.net.sessions.map Prod.fst).Nodup ∧ (s.net.sessions.map Prod.snd).Nodup := by
  have hs : s.Handed :=
    exec_invariant (C := fun _ _ => True) (fun _ _ _ hs _ hstep => hs.step (handMove_of_step id hstep)) as newSys s
      ⟨by simp [Apart, Sys.owned, Sys.held, newSys], by simp [newSys]⟩
      (allSteps_of_forall fun _ _ => trivial) hrun
  obtain ⟨hmap, hheld, hdisj⟩ := List.nodup_append.mp hs.owned.1
  refine ⟨?_, ?_, hs.ids, hmap⟩
  · -- of two calls, one comes before the other
    have hlt : ∀ {i j : ℕ} {k l : Closer} {obj : ℕ}, s.closers[i]? = some k → s.closers[j]? = some l →
        obj ∈ k.pc.holds → obj ∈ l.pc.holds → ¬ i < j := by
      intro i j k l obj hi hj hk hl hij
      obtain ⟨hilt, rfl⟩ := List.getElem?_eq_some_iff.mp hi
      obtain ⟨hjlt, rfl⟩ := List.getElem?_eq_some_iff.mp hj
      exact List.pairwise_iff_getElem.mp (List.nodup_flatMap.mp hheld).2 i j hilt hjlt hij hk hl
    intro i j k l obj hi hj hk hl
    exact Nat.le_antisymm (Nat.not_lt.mp (hlt hj hi hl hk)) (Nat.not_lt.mp (hlt hi hj hk hl))
  · intro k hk obj hobj hmem
    exact hdisj obj hmem obj (List.mem_flatMap.mpr ⟨k, hk, hobj⟩) rfl

/-- A session is set up, and two calls of `Stop` find it. -/
def twoStops : List Act :=
  firstHandshake.take 7 ++ [.reader .next, .reader .next, .reader (.message true), .reader (.setup 5), .stop, .stop,
    .closer 1 .ok, .closer 0 .ok]

/-- One of the two calls has the session. -/
theorem sessions_held_once_two : ∃ s, exec Sys.step newSys twoStops = some s ∧
    s.closers.map (fun k => k.pc.holds) = [[], [0]] ∧ (s.net.sessions.map Prod.fst).Nodup :=
  ⟨_, rfl, rfl, (sessions_held_once twoStops _ rfl).2.2.1⟩

/-! ### One TEARDOWN -/

/-- The sessions for which a TEARDOWN may still come. -/
def Sys.due (order : List ℕ → List ℕ) (s : Sys) : List ℕ :=
  s.net.sessions.map Prod.snd ++ s.closers.flatMap fun k => k.pc.pending order

/-- **What is torn down was due**, and what is newly due is a new session. -/
theorem torn_of_handMove (horder : ∀ objs, (order objs).Perm objs) {before torn : List ℕ}
    (hs : Apart s.net.objs.length (before ++ s.due order)) (h : s.HandMove order s' torn) :
    Apart s'.net.objs.length (before ++ torn ++ s'.due order) := by
  rw [List.append_assoc]
  cases h with
  | same hsess hobjs hk =>
    have hdue : s'.due order = s.due order := by rw [Sys.due, hsess, hk]; rfl
    rw [hobjs, hdue]
    exact hs
  | made id hnew hsess hobjs hk =>
    have hdue : (s'.due order).Perm (s.net.objs.length :: s.due order) := by
      rw [Sys.due, hsess, hk, List.map_append, List.map_singleton, List.append_assoc]
      exact List.perm_middle
    rw [hobjs]
    exact hs.made ((hdue.append_left before).trans List.perm_middle)
  | called k hholds hleft hpending hsess hobjs hk =>
    have hdue : s'.due order = s.due order := by
      rw [Sys.due, hsess, hk, List.flatMap_append]
      simp [hpending, Sys.due]
    rw [hobjs, hdue]
    exact hs
  | took i k pc hi hbefore hholds hleft hpending hsess hobjs hk =>
    obtain ⟨rest, hold, hnew⟩ := exists_rest hi { k with pc := pc } fun k => k.pc.pending order
    have hsub : (pc.pending order).Subperm (s.net.sessions.map Prod.snd) :=
      hpending.subperm.trans (horder _).subperm
    have hnone : k.pc.pending order = [] := by rw [hbefore]; rfl
    rw [hnone, List.nil_append] at hold
    rw [hobjs]
    refine hs.of_subperm ((List.subperm_append_left before).mpr ?_)
    rw [Sys.due, hsess, hk]
    exact hnew.subperm.trans (((List.subperm_append_right rest).mpr hsub).trans (hold.symm.append_left _).subperm)
  | moved torn i k pc hi hholds hleft hpending hsess hobjs hk =>
    obtain ⟨rest, hold, hnew⟩ := exists_rest hi { k with pc := pc } fun k => k.pc.pending order
    have hall : (torn ++ (s.closers.set i { k with pc := pc }).flatMap fun k => k.pc.pending order).Perm
        (s.closers.flatMap fun k => k.pc.pending order) := by
      refine (hnew.append_left torn).trans (.trans ?_ hold.symm)
      rw [hpending, List.append_assoc]
      exact List.perm_append_comm_assoc ..
    rw [hobjs]
    refine hs.of_subperm ((List.subperm_append_left before).mpr (List.Perm.subperm ?_))
    rw [Sys.due, hsess, hk]
    exact (List.perm_append_comm_assoc ..).trans (hall.append_left _)
  | ended i k hi hsess hobjs hk =>
    rw [hobjs]
    refine hs.of_subperm ((List.subperm_append_left before).mpr (List.Sublist.subperm ?_))
    rw [List.nil_append, Sys.due, hsess, hk]
    exact .append (.refl _) (List.Sublist.flatMap (List.eraseIdx_sublist ..) _)

/-- A call has no more TEARDOWN requests to send than sessions. -/
def Sys.Counted (s : Sys) : Prop := ∀ k ∈ s.closers, k.pc.left ≤ k.pc.holds.length

theorem Sys.Counted.step (hs : s.Counted) {torn : List ℕ} (h : s.HandMove order s' torn) : s'.Counted := by
  have hset {i : ℕ} {k : Closer} {pc : ClosePc} (hk : s'.closers = s.closers.set i { k with pc := pc })
      (hle : pc.left ≤ pc.holds.length) : s'.Counted := by
    intro k' hk'
    rw [hk] at hk'
    rcases List.mem_or_eq_of_mem_set hk' with hk' | rfl
    · exact hs k' hk'
    · exact hle
  cases h with
  | same hsess hobjs hk => exact fun k hmem => hs k (hk ▸ hmem)
  | made id hnew hsess hobjs hk => exact fun k hmem => hs k (hk ▸ hmem)
  | called k hholds hleft hpending hsess hobjs hk =>
    intro k' hk'
    rw [hk] at hk'
    rcases List.mem_append.mp hk' with hk' | hk'
    · exact hs k' hk'
    · rw [List.mem_singleton.mp hk', hleft]
      exact Nat.zero_le _
  | took i k pc hi hbefore hholds hleft hpending hsess hobjs hk => exact hset hk hleft
  | moved torn i k pc hi hholds hleft hpending hsess hobjs hk =>
    exact hset hk (hleft (hs k (List.mem_of_getElem? hi)))
  | ended i k hi hsess hobjs hk => exact fun k' hk' => hs k' (List.mem_of_mem_eraseIdx (hk ▸ hk'))

theorem ClosePc.length_torn {pc : ClosePc} (horder : ∀ objs, (order objs).Perm objs)
    (hle : pc.left ≤ pc.holds.length) : (pc.torn order).length = (pc.left != 0).toNat := by
  cases pc with
  | teardown r left objs =>
    cases left with
    | zero => rfl
    | succ left =>
      have hlt : left < (order objs).length := by
        rw [(horder objs).length_eq]
        exact hle
      simp [ClosePc.torn, ClosePc.left, List.getElem?_eq_getElem hlt]
  | _ => rfl

theorem Sys.Counted.length_tornDown (hs : s.Counted) (horder : ∀ objs, (order objs).Perm objs) (a : Act) :
    (s.tornDown order a).length = (s.tearsDown a).toNat := by
  cases a with
  | closer i o =>
    cases hi : s.closers[i]? with
    | none => simp [Sys.tornDown, Sys.tearsDown, hi]
    | some k =>
      have hlen := ClosePc.length_torn horder (hs k (List.mem_of_getElem? hi))
      simpa [Sys.tornDown, Sys.tearsDown, hi] using hlen
  | _ => rfl

/-- **No session object is torn down twice.** In every run, in whatever order the loops visit the sessions they
have taken, each TEARDOWN request that a call of `Stop` or `Destroy` sends is for one of the session objects made
in the run, and for each of them at most one is sent. So there are no more of these requests than sessions. -/
theorem torn_down_once (order : List ℕ → List ℕ) (horder : ∀ objs, (order objs).Perm objs) (as : List Act) (s : Sys)
    (hrun : exec Sys.step newSys as = some s) :
    (emits Sys.step (Sys.tornDown order) newSys as).Nodup ∧
    (∀ obj ∈ emits Sys.step (Sys.tornDown order) newSys as, obj < s.net.objs.length) ∧
    (emits Sys.step (Sys.tornDown order) newSys as).length = tally Sys.step Sys.tearsDown newSys as ∧
    tally Sys.step Sys.tearsDown newSys as ≤ s.net.objs.length := by
  have hstart : Apart newSys.net.objs.length ([] ++ newSys.due order) := by simp [Apart, Sys.due, newSys]
  have hdistinct := emits_invariant (Sys.tornDown order)
    (J := fun s torn => Apart s.net.objs.length (torn ++ s.due order))
    (fun _ _ _ _ hs hstep => torn_of_handMove horder hs (handMove_of_step order hstep)) as newSys s [] hstart hrun
  rw [List.nil_append] at hdistinct
  obtain ⟨hnodup, hmade⟩ := hdistinct.of_subperm (List.sublist_append_left _ _).subperm
  have hcount : ∀ (as : List Act) (s t : Sys), s.Counted → exec Sys.step s as = some t →
      (emits Sys.step (Sys.tornDown order) s as).length = tally Sys.step Sys.tearsDown s as := by
    intro as
    induction as with
    | nil => exact fun _ _ _ _ => rfl
    | cons a as ih =>
      intro s t hs h
      obtain ⟨s', hstep, h⟩ := exec_cons_eq_some.mp h
      rw [emits_cons _ hstep, tally_cons hstep, List.length_append, hs.length_tornDown horder,
        ih s' t (hs.step (handMove_of_step order hstep)) h]
  have hlen := hcount as newSys s (by simp [Sys.Counted, newSys]) hrun
  refine ⟨hnodup, hmade, hlen, hlen ▸ ?_⟩
  have hsub : (emits Sys.step (Sys.tornDown order) newSys as).Subperm (List.range s.net.objs.length) :=
    hnodup.subperm fun obj hobj => List.mem_range.mpr (hmade obj hobj)
  simpa using hsub.length_le

/-- Two sessions are set up, and `Stop` takes them. An answer to PLAY that comes then makes another session with
the id of the first, which `Destroy` takes. -/
def lateAnswer : List Act :=
  firstHandshake.take 7 ++ [.reader .next, .reader .next, .reader (.message true), .reader (.setup 5),
    .reader (.message true), .reader (.setup 6), .stop, .closer 0 .ok, .reader (.message true), .reader (.play 5),
    .destroy, .closer 1 .ok, .closer 1 .ok, .closer 0 .ok, .closer 1 .ok, .closer 0 .ok]

/-- Three sessions with two ids, and a TEARDOWN for each. -/
theorem torn_down_once_late :
    ∃ s, exec Sys.step newSys lateAnswer = some s ∧ emits Sys.step (Sys.tornDown id) newSys lateAnswer = [1, 2, 0] ∧
      (emits Sys.step (Sys.tornDown id) newSys lateAnswer).Nodup ∧
      tally Sys.step Sys.tearsDown newSys lateAnswer ≤ s.net.objs.length := by
  obtain ⟨hnodup, -, -, hle⟩ := torn_down_once id (fun _ => .refl _) lateAnswer _ rfl
  exact ⟨_, rfl, rfl, hnodup, hle⟩

end RtspProxy.Lifecycle
