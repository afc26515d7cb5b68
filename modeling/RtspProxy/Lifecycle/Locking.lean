import RtspProxy.Theory.Run
import RtspProxy.Theory.RWMutex

/-!
# The stream's lock

`Stream.mu` is a `sync.RWMutex`, and everything that happens to a stream happens under it. Two
functions take a read lock and then call a function that takes another one:
`Stream.LookupTransport`, which a client's SETUP calls, and `ReportMetrics`.

## The model

A `Call` is a stretch of the code from the first call of a method of `s.mu` to the one that gives
up the last lock, and `Call.ops` are these calls; between two stretches a goroutine holds nothing.
What a goroutine does under the lock takes some time and ends: `RemoveClient` waits for the client
session's goroutine and `connectLoop` for the connection's mutex, and who is waited for there
never asks for `s.mu`.

## What is proved

* `lockFree_of_untouched` — in every run in which no writer's turn comes while a reader is about to
  ask for its second read lock, nobody waits for `s.mu` who holds it, and somebody can move as long
  as somebody waits.
* `lookupTransport_deadlock` — a SETUP and a packet can lock each other out for ever.
-/

namespace RtspProxy.Lifecycle

open Theory

/-! ### The functions that take the lock -/

/-- A stretch of code that takes `s.mu`. -/
inductive Call where
  /-- `Stream.LookupTransport`, with or without a remote. -/
  | lookupTransport (remote : Bool)
  | reportMetrics
  /-- The functions that only read the stream. -/
  | getState | getSDP | getOptions | readyCh | sdpReadyCh | getBitrate | readLoop
  /-- `connectLoop` reads the state, or the number of clients. -/
  | connectLoopState | connectLoopClients
  /-- What a remote reads of its stream. -/
  | remoteLookupTransport | setupUpstream | playUpstream
  /-- A session's keep-alive reads the remote, and a client the channels it has. -/
  | startUpstream | incomingRequestHandler
  /-- The functions that change the stream. -/
  | setState | transition | addClient | removeClient | start | mapChannel | lookupSession | dispatch
  /-- `connectLoop` notes the time, takes a new remote, adds up the time without a connection. -/
  | connectLoopReconnect | connectLoopRemote | connectLoopPlayed
  /-- The SDP-ready step. -/
  | doConnectSequence
  /-- The idle timer's look at the stream, and what `Stop` and `Destroy` take from it. -/
  | idleTimer | stop | destroy
  /-- What a remote's handlers write to its stream. -/
  | handleOptions | handleDescribe | handleTeardown
  deriving DecidableEq, Repr

/-- `RLock`, what is called then, and `RUnlock`. -/
def underRLock (inner : List MuOp) : List MuOp := .rlock :: (inner ++ [.runlock])

/-- The calls of methods of `s.mu`. -/
def Call.ops : Call → List MuOp
  | .lookupTransport remote => underRLock (if remote then underRLock [] else [])
  | .reportMetrics => underRLock (underRLock [])
  | .getState | .getSDP | .getOptions | .readyCh | .sdpReadyCh | .getBitrate | .readLoop | .connectLoopState
  | .connectLoopClients | .remoteLookupTransport | .setupUpstream | .playUpstream | .startUpstream
  | .incomingRequestHandler => underRLock []
  | .setState | .transition | .addClient | .removeClient | .start | .mapChannel | .lookupSession | .dispatch
  | .connectLoopReconnect | .connectLoopRemote | .connectLoopPlayed | .doConnectSequence | .idleTimer | .stop
  | .destroy | .handleOptions | .handleDescribe | .handleTeardown => [.lock, .unlock]

/-- What may happen next. -/
inductive LockAct where
  /-- A goroutine comes to a stretch of code that takes the lock. -/
  | call (g : ℕ) (c : Call)
  /-- A goroutine calls the next method of the lock. -/
  | run (g : ℕ)
  /-- It becomes the turn of a writer, which from then on keeps new readers out. -/
  | announce (g : ℕ)
  /-- A writer has the lock. -/
  | acquire (g : ℕ)
  deriving DecidableEq, Repr

/-- The action on the lock. -/
def LockAct.act : LockAct → MuAct ℕ
  | .call g c => .begin g c.ops
  | .run g => .run g
  | .announce g => .announce g
  | .acquire g => .acquire g

/-- One step. -/
def lockStep (s : Locks ℕ) (a : LockAct) : Option (Locks ℕ) := s.step a.act

/-- No writer's turn comes while a goroutine with a read lock is about to ask for another one. -/
def Untouched (s : Locks ℕ) : LockAct → Prop
  | .announce _ => ∀ g ∈ s.mu.readers, (s.todo g).head? ≠ some .rlock
  | _ => True

instance (s : Locks ℕ) : (a : LockAct) → Decidable (Untouched s a)
  | .announce _ => inferInstanceAs (Decidable (∀ g ∈ s.mu.readers, (s.todo g).head? ≠ some .rlock))
  | .call _ _ | .run _ | .acquire _ => isTrue trivial

/-! ### What a goroutine may still have to do -/

/-- The ends of the calls' operations. -/
def shapes : List (List MuOp) :=
  [[], [.runlock], [.rlock, .runlock], [.runlock, .runlock], [.rlock, .runlock, .runlock],
    [.rlock, .rlock, .runlock, .runlock], [.unlock], [.lock, .unlock]]

theorem ops_mem_shapes (c : Call) : c.ops ∈ shapes := by
  cases c with
  | lookupTransport remote => cases remote <;> decide
  | _ => decide

theorem ops_balanced (c : Call) : Locks.Balanced c.ops := by
  cases c with
  | lookupTransport remote => cases remote <;> exact ⟨rfl, rfl⟩
  | _ => exact ⟨rfl, rfl⟩

theorem rest_mem_shapes {op : MuOp} {ops : List MuOp} (h : op :: ops ∈ shapes) : ops ∈ shapes := by
  have hall : ∀ l ∈ shapes, l.tail ∈ shapes := by decide
  exact hall _ h

/-- Who has a write lock to unlock has only one, and no read lock. -/
theorem unlock_shape {l : List MuOp} (h : l ∈ shapes) : l.count .unlock = 0 ∨
    l.count .unlock = 1 ∧ l.count .runlock = 0 := by
  have hall : ∀ l ∈ shapes, l.count .unlock = 0 ∨ l.count .unlock = 1 ∧ l.count .runlock = 0 := by decide
  exact hall l h

/-- After another operation than `RLock`, no lock is asked for except by `Lock`. -/
theorem rest_shape {op : MuOp} {ops : List MuOp} (h : op :: ops ∈ shapes) (hop : op ≠ .rlock) :
    ops.count .rlock = 0 ∧ ops.count .lock = 0 := by
  have hall : ∀ l ∈ shapes, l.head? = some .rlock ∨ l.tail.count .rlock = 0 ∧ l.tail.count .lock = 0 := by decide
  exact (hall _ h).resolve_left (by simpa using hop)

/-! ### Nobody waits who holds -/

/-- What holds in every state of a run whose steps leave readers alone between two read locks. -/
structure LockInv (s : Locks ℕ) : Prop where
  /-- The locks are those the operations still to be done say. -/
  inv : s.Inv
  /-- What is to be done is the end of a call. -/
  shape : ∀ g, s.todo g ∈ shapes
  /-- While a writer has its turn, no reader is about to ask for another read lock. -/
  apart : s.mu.pending ≠ none → ∀ g ∈ s.mu.readers, (s.todo g).head? ≠ some .rlock
  /-- Who waits in `RLock` has no read lock. -/
  blocked : ∀ g ∈ s.mu.blocked, g ∉ s.mu.readers

variable {s t : Locks ℕ} {a : LockAct} {g : ℕ}

theorem lockInv_idle : LockInv .idle :=
  ⟨Locks.inv_idle, fun _ => List.mem_cons_self, fun h => absurd rfl h, fun _ hg => absurd hg List.not_mem_nil⟩

/-- A goroutine does not wait while it holds. -/
theorem LockInv.not_waits_and_holds (hs : LockInv s) (g : ℕ) : ¬ (s.mu.Waits g ∧ s.mu.Holds g) := by
  have hr := hs.inv.reads g
  have hw := hs.inv.writes g
  have hshape := unlock_shape (hs.shape g)
  simp only [RWMutex.reads, RWMutex.writes] at hr hw
  rintro ⟨hwait, hread | hwrite⟩
  · have hrpos := List.count_pos_iff.mpr hread
    rcases hwait with hb | hl | hp
    · exact hs.blocked g hb hread
    · have := List.count_pos_iff.mpr hl
      omega
    · rw [hp, Option.toList_some, List.count_singleton_self] at hw
      omega
  · have hwpos : s.mu.writer.toList.count g = 1 := by rw [hwrite, Option.toList_some, List.count_singleton_self]
    rcases hwait with hb | hl | hp
    · have := List.count_pos_iff.mpr hb
      omega
    · have := List.count_pos_iff.mpr hl
      omega
    · rw [(hs.inv.alone (by simp [hwrite])).2] at hp
      cases hp

theorem LockInv.call_isSome (hs : LockInv s) {op : MuOp} {ops : List MuOp} (htodo : s.todo g = op :: ops)
    (hwait : ¬ s.mu.Waits g) : (s.mu.call g op).isSome = true := by
  have hr := hs.inv.reads g
  have hw := hs.inv.writes g
  have hshape := hs.shape g
  simp only [RWMutex.Waits, not_or] at hwait
  obtain ⟨hb, hl, hp⟩ := hwait
  rw [htodo] at hr hw hshape
  cases op with
  | rlock =>
    simp only [RWMutex.call]
    split_ifs <;> rfl
  | lock => rfl
  | runlock =>
    obtain ⟨hno, -⟩ := rest_shape hshape (by simp)
    have hmem : g ∈ s.mu.readers := by
      apply List.count_pos_iff.mp
      simp [RWMutex.reads, List.count_eq_zero_of_not_mem hb, hno] at hr
      omega
    simp [RWMutex.call, hmem]
  | unlock =>
    obtain ⟨-, hno⟩ := rest_shape hshape (by simp)
    have hpend : s.mu.pending.toList.count g = 0 := List.count_eq_zero_of_not_mem (by simpa using hp)
    have hmem : s.mu.writer = some g := by
      have hpos : 0 < s.mu.writer.toList.count g := by
        simp [RWMutex.writes, List.count_eq_zero_of_not_mem hl, hpend, hno] at hw
        omega
      simpa using List.count_pos_iff.mp hpos
    simp [RWMutex.call, hmem]

/-- The shapes, when a goroutine has other operations to do. -/
theorem LockInv.shape_update (hs : LockInv s) {ops : List MuOp} (hops : ops ∈ shapes) (g g' : ℕ) :
    Function.update s.todo g ops g' ∈ shapes := by
  by_cases hg : g' = g
  · rw [hg, Function.update_self]
    exact hops
  · rw [Function.update_of_ne hg]
    exact hs.shape g'

theorem LockInv.rest (hs : LockInv s) {op : MuOp} {ops : List MuOp} (htodo : s.todo g = op :: ops) : ops ∈ shapes :=
  rest_mem_shapes (htodo ▸ hs.shape g)

/-- What a goroutine that is no reader has to do does not matter to the readers. -/
theorem LockInv.apart_of_not_mem (hs : LockInv s) (hout : g ∉ s.mu.readers) (ops : List MuOp)
    (hp : s.mu.pending ≠ none) : ∀ g' ∈ s.mu.readers, (Function.update s.todo g ops g').head? ≠ some .rlock := by
  intro g' hg'
  have hg : g' ≠ g := by
    rintro rfl
    exact hout hg'
  rw [Function.update_of_ne hg]
  exact hs.apart hp g' hg'

/-- After another operation than `RLock`, a goroutine is not about to ask for a read lock. -/
theorem LockInv.apart_update (hs : LockInv s) {op : MuOp} {ops : List MuOp} (htodo : s.todo g = op :: ops)
    (hop : op ≠ .rlock) {g' : ℕ} (hg' : (s.todo g').head? ≠ some .rlock) :
    (Function.update s.todo g ops g').head? ≠ some .rlock := by
  by_cases hg : g' = g
  · rw [hg, Function.update_self]
    intro hhead
    have hpos := List.count_pos_iff.mpr (List.mem_of_mem_head? hhead)
    have := (rest_shape (htodo ▸ hs.shape g) hop).1
    omega
  · rwa [Function.update_of_ne hg]

theorem LockInv.step (hs : LockInv s) (hc : Untouched s a) (h : lockStep s a = some t) : LockInv t := by
  have hinv : t.Inv := by
    refine hs.inv.step ?_ h
    intro g ops heq
    cases a <;> cases heq
    exact ops_balanced _
  have heff := Locks.effect_of_step h
  cases a with
  | call g c =>
    cases heff with
    | begin htodo =>
      have hout : g ∉ s.mu.readers := by
        have hr := hs.inv.reads g
        rw [htodo] at hr
        simp only [RWMutex.reads, List.count_nil, Nat.add_zero, Nat.add_eq_zero_iff] at hr
        exact List.count_eq_zero.mp hr.1
      exact ⟨hinv, hs.shape_update (ops_mem_shapes c) g, hs.apart_of_not_mem hout c.ops, hs.blocked⟩
  | run g =>
    cases heff with
    | read hw htodo hp hwr =>
      refine ⟨hinv, hs.shape_update (hs.rest htodo) g, fun hne => absurd hp hne, ?_⟩
      intro g' hg' hmem
      rcases List.mem_cons.mp hmem with rfl | hmem
      · exact hw (.inl hg')
      · exact hs.blocked g' hg' hmem
    | block hw htodo hfree =>
      -- no reader gets here: it would have been between its two read locks when the writer's turn came
      have hout : g ∉ s.mu.readers := by
        intro hmem
        rcases Decidable.not_and_iff_or_not.mp hfree with hp | hwr
        · exact hs.apart hp g hmem (by rw [htodo]; rfl)
        · exact List.not_mem_nil ((hs.inv.alone hwr).1 ▸ hmem)
      refine ⟨hinv, hs.shape_update (hs.rest htodo) g, hs.apart_of_not_mem hout _, fun g' hg' => ?_⟩
      rcases List.mem_cons.mp hg' with rfl | hg'
      · exact hout
      · exact hs.blocked g' hg'
    | leave _ htodo _ =>
      refine ⟨hinv, hs.shape_update (hs.rest htodo) g, fun hp g' hg' => ?_, fun g' hg' hmem => ?_⟩
      · exact hs.apart_update htodo (by simp) (hs.apart hp g' (List.mem_of_mem_erase hg'))
      · exact hs.blocked g' hg' (List.mem_of_mem_erase hmem)
    | line _ htodo =>
      refine ⟨hinv, hs.shape_update (hs.rest htodo) g, fun hp g' hg' => ?_, hs.blocked⟩
      exact hs.apart_update htodo (by simp) (hs.apart hp g' hg')
    | unlock _ htodo hwr =>
      refine ⟨hinv, hs.shape_update (hs.rest htodo) g, fun hp => ?_, fun g' hg' => absurd hg' (by simp)⟩
      exact absurd (hs.inv.alone (by simp [hwr])).2 hp
  | announce g =>
    cases heff with
    | announce _ _ _ => exact ⟨hinv, hs.shape, fun _ => hc, hs.blocked⟩
  | acquire g =>
    cases heff with
    | acquire _ _ => exact ⟨hinv, hs.shape, fun hp => absurd rfl hp, hs.blocked⟩

/-- **No deadlock on the stream's lock**, in every run in which no writer's turn comes while a
goroutine with a read lock is about to ask for another one: nobody waits for `s.mu` who holds it,
and not everybody waits. -/
theorem lockFree_of_untouched (as : List LockAct) (s : Locks ℕ) (hrun : exec lockStep .idle as = some s)
    (hcond : AllSteps lockStep Untouched .idle as) : (∀ g, ¬ (s.mu.Waits g ∧ s.mu.Holds g)) ∧ ¬ s.Stuck := by
  have hs : LockInv s := by
    refine exec_invariant (I := LockInv) ?_ as .idle s lockInv_idle hcond hrun
    intro s a t hs hc h
    exact hs.step hc h
  refine ⟨hs.not_waits_and_holds, hs.inv.not_stuck hs.not_waits_and_holds ?_⟩
  intro g op ops htodo hwait
  exact hs.call_isSome htodo hwait

/-- A SETUP and a packet: the packet's turn comes before the SETUP's first read lock, and the
SETUP waits. -/
def packetFirst : List LockAct :=
  [.call 0 (.lookupTransport true), .call 1 .dispatch, .run 1, .announce 1, .run 0]

/-- The SETUP waits, and nobody who holds. -/
theorem lockFree_packetFirst : ∃ s, exec lockStep .idle packetFirst = some s ∧ s.mu.Waits 0 ∧
    (∀ g, ¬ (s.mu.Waits g ∧ s.mu.Holds g)) ∧ ¬ s.Stuck := by
  have hwait : (exec lockStep .idle packetFirst).any (fun s => decide (s.mu.Waits 0)) = true := by decide
  obtain ⟨s, hrun, hs⟩ := (Option.any_eq_true _ _).mp hwait
  exact ⟨s, hrun, of_decide_eq_true hs, lockFree_of_untouched packetFirst s hrun (by decide)⟩

/-- A SETUP and a packet: the packet's turn comes between the SETUP's two read locks. -/
def packetBetween : List LockAct :=
  [.call 0 (.lookupTransport true), .run 0, .call 1 .dispatch, .run 1, .announce 1, .run 0]

/-- **A SETUP and a packet can lock each other out for ever**: the SETUP's goroutine waits for
`s.mu` while it holds it, and nobody can move. -/
theorem lookupTransport_deadlock : ∃ s, exec lockStep .idle packetBetween = some s ∧ s.mu.Waits 0 ∧ s.mu.Holds 0 ∧
    s.Stuck := by
  refine ⟨⟨⟨[0], [0], [], some 1, none⟩, _⟩, rfl, by decide, by decide, ⟨0, by decide⟩, ?_⟩
  intro a ha
  cases a with
  | begin g ops => exact absurd rfl (ha g ops)
  | run g =>
    match g with
    | 0 => rfl
    | 1 => rfl
    | g + 2 => rfl
  | announce g => rfl
  | acquire g => simp [Locks.step, RWMutex.acquire]

end RtspProxy.Lifecycle
