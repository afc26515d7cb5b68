import RtspProxy.Fanout.Ending

/-!
# What becomes of a frame

`dispatch` selects the sessions of a frame, and each gets a copy. On its way to the client a copy is
with the reader, with the session or with the client's writer. The queue of the session may be full,
which is counted in `PacketsDropped`; the session may find its client slow, and destroys it; the
session and the writer may end, and drain what they have.

A write to the client may fail as well, with an error or at its deadline. Then the writer goes
to its drain loop, and leaves the connection open: what the session sends after that is drained, and
nobody is told.

## The model

`Tracked` is a `Fan` with a record of each copy: `selected`, `written`, the ones counted in
`PacketsDropped`, and which copy a buffer has in it.

A session that is about to call `client.Destroy` has the packet for which the client was too slow in
its hands, although it has returned the buffer to the pool. A client counts as removed from the
moment `RemoveClient` has told its session to stop.

## What is proved

* `Tracked.Inv.step` — a copy is not lost in a step, unless a write fails while the client is
  connected.
* `accounted_of_connected` — **in a run in which no write to a connected client fails, each copy
  is on its way, was written or was counted, or its client's connection is closed, the client is
  removed, or the server is shutting down.**
* `lost_after_error` — a write that fails loses the copy, and the ones after it.
-/

namespace RtspProxy.Fanout

open Theory Wire

variable {cfg : Config}

/-! ### Copies -/

/-- A frame that was selected for a session. -/
structure Selection where
  stream : ℕ
  /-- The place of the frame among those dispatched. -/
  index : ℕ
  session : ℕ
  deriving DecidableEq, Repr

/-- The copy that a reader makes for a target. -/
def Fan.selection (s : Fan) (r : ℕ) (u : Target) : Selection := ⟨r, (s.streams r).history.length - 1, u.session⟩

/-- A server with a record of each copy. -/
structure Tracked where
  /-- The server. -/
  fan : Fan
  /-- The copies selected. -/
  selected : List Selection
  /-- The copy that is in a buffer. -/
  carries : ℕ → Selection
  /-- The copy that a session took from its queue last. -/
  taken : ℕ → Selection
  /-- The copies written. -/
  written : List Selection
  /-- The copies counted as dropped. -/
  dropped : List Selection
  /-- `PacketsDropped` of each stream. -/
  packetsDropped : ℕ → ℕ

/-- Before the first frame. -/
def newTracked : Tracked := ⟨newFan, [], fun _ => ⟨0, 0, 0⟩, fun _ => ⟨0, 0, 0⟩, [], [], fun _ => 0⟩

/-- What an action selects. -/
def Tracked.selects (s : Tracked) : Act → List Selection
  | .dispatch r _ targets => targets.map fun u => ⟨r, (s.fan.streams r).history.length, u.session⟩
  | _ => []

/-- What is in the buffers after an action: `dispatch` has got one for a target. -/
def Tracked.fills (s : Tracked) : Act → ℕ → Selection
  | .dispatching r o =>
    match (s.fan.streams r).loop with
    | .reading (.next _ (u :: _)) => Function.update s.carries (o.getD s.fan.nextBuf) (s.fan.selection r u)
    | _ => s.carries
  | _ => s.carries

/-- What the sessions have taken after an action. -/
def Tracked.takes (s : Tracked) : Act → ℕ → Selection
  | .run k .packet =>
    match (s.fan.sessions k).queue with
    | x :: _ => Function.update s.taken k (s.carries x.buf)
    | [] => s.taken
  | _ => s.taken

/-- What an action writes. -/
def Tracked.writes (s : Tracked) : Act → List Selection
  | .writer c (.wrote true) =>
    match (s.fan.clients c).pc with
    | .write x => [s.carries x.buf]
    | _ => []
  | _ => []

/-- The copies for which an action adds to `PacketsDropped`. -/
def Tracked.drops (s : Tracked) : Act → List Selection
  | .dispatching r _ =>
    match (s.fan.streams r).loop with
    | .reading (.refused _ buf _) => [s.carries buf]
    | _ => []
  | _ => []

/-- `PacketsDropped` after an action. -/
def Tracked.counts (s : Tracked) : Act → ℕ → ℕ
  | .dispatching r _ =>
    match (s.fan.streams r).loop with
    | .reading (.refused _ _ _) => Function.update s.packetsDropped r (s.packetsDropped r + 1)
    | _ => s.packetsDropped
  | _ => s.packetsDropped

/-- The records after an action. -/
def Tracked.record (s : Tracked) (a : Act) (fan : Fan) : Tracked :=
  { fan := fan, selected := s.selected ++ s.selects a, carries := s.fills a, taken := s.takes a
    written := s.written ++ s.writes a, dropped := s.dropped ++ s.drops a, packetsDropped := s.counts a }

/-- One step. -/
def Tracked.step (cfg : Config) (s : Tracked) (a : Act) : Option Tracked := (s.fan.step cfg a).map (s.record a)

/-- A write fails only if the connection has been closed, or the server is shutting down. -/
def Connected (s : Tracked) : Act → Prop
  | .writer c (.wrote false) => (s.fan.clients c).destroyed = true ∨ s.fan.done = true
  | _ => True

instance (s : Tracked) : DecidablePred (Connected s)
  | .writer _ (.wrote false) => inferInstanceAs (Decidable (_ ∨ _))
  | .writer _ (.wrote true) | .writer _ .next | .writer _ .done | .writer _ .data => isTrue trivial
  | .loop _ _ | .dispatch _ _ _ | .dispatching _ _ | .addClient _ _ | .mapChannel _ _ _ _ | .removeClient _ _
  | .stopped _ | .run _ _ | .destroy _ | .close _ | .cancel => isTrue trivial

/-! ### Where a copy is -/

/-- Where a copy can be: with the reader, with its session, with its client. -/
def Tracked.places (s : Tracked) (x : Selection) : List Place :=
  [.reader x.stream, .session x.session, .client (s.fan.sessions x.session).client]

theorem mem_places {s : Tracked} {x : Selection} {p : Place} : p ∈ s.places x ↔
    p = .reader x.stream ∨ p = .session x.session ∨ p = .client (s.fan.sessions x.session).client := by
  simp [Tracked.places]

/-- A copy is on its way: the reader has yet to make it, a buffer with it is at one of its places, or
the session is about to destroy the client for it. -/
def Tracked.Holds (s : Tracked) (x : Selection) : Prop :=
  (∃ u ∈ (s.fan.streams x.stream).loop.targets, s.fan.selection x.stream u = x) ∨
    (∃ p ∈ s.places x, ∃ b ∈ s.fan.held p, s.carries b = x) ∨
    (s.fan.sessions x.session).pc = .destroy ∧ s.taken x.session = x

instance (s : Tracked) (x : Selection) : Decidable (s.Holds x) := inferInstanceAs (Decidable (_ ∨ _))

/-- What may have become of a copy. -/
def Tracked.Accounted (s : Tracked) (x : Selection) : Prop :=
  s.Holds x ∨ x ∈ s.written ∨ x ∈ s.dropped ∨ s.fan.Over x.session

instance (s : Tracked) (x : Selection) : Decidable (s.Accounted x) := inferInstanceAs (Decidable (_ ∨ _))

section

variable {s t : Tracked} {x : Selection}

theorem accounted_of_target {u : Target} (hu : u ∈ (t.fan.streams x.stream).loop.targets)
    (hx : t.fan.selection x.stream u = x) : t.Accounted x := .inl (.inl ⟨u, hu, hx⟩)

/-- A buffer at one of its places has the copy. -/
theorem accounted_of_held (hp : s.fan.Persists t.fan) (hx : x.session < s.fan.nextSession) {p : Place} {b : ℕ}
    (hpl : p ∈ s.places x) (hb : b ∈ t.fan.held p) (hc : t.carries b = x) : t.Accounted x := by
  have hsame : t.places x = s.places x := by
    unfold Tracked.places
    rw [(hp.session _ hx).1]
  exact .inl (.inr (.inl ⟨p, hsame ▸ hpl, b, hb, hc⟩))

/-- What it takes to account for a copy after a step. -/
theorem Tracked.Accounted.mono (h : s.Accounted x) (hp : s.fan.Persists t.fan) (hx : x.session < s.fan.nextSession)
    (hw : s.written ⊆ t.written) (hd : s.dropped ⊆ t.dropped)
    (htarget : ∀ u ∈ (s.fan.streams x.stream).loop.targets, s.fan.selection x.stream u = x → t.Accounted x)
    (hheld : ∀ p ∈ s.places x, ∀ b ∈ s.fan.held p, s.carries b = x → t.Accounted x)
    (hdestroy : (s.fan.sessions x.session).pc = .destroy → s.taken x.session = x → t.Accounted x) :
    t.Accounted x := by
  rcases h with (⟨u, hu, hux⟩ | ⟨p, hpl, b, hb, hbx⟩ | ⟨hpc, htx⟩) | hmem | hmem | hover
  · exact htarget u hu hux
  · exact hheld p hpl b hb hbx
  · exact hdestroy hpc htx
  · exact .inr (.inl (hw hmem))
  · exact .inr (.inr (.inl (hd hmem)))
  · exact .inr (.inr (.inr (hp.over hx hover)))

/-! ### The invariant -/

/-- The buffer that a reader has is for its target. -/
def Tracked.ReaderOk (s : Tracked) (r : ℕ) : Prop :=
  match (s.fan.streams r).loop with
  | .reading (.got _ u buf _) | .reading (.push _ u buf _) => s.carries buf = s.fan.selection r u
  | .reading (.refused _ buf _) => (s.carries buf).stream = r
  | _ => True

/-- The record is right. -/
structure Tracked.Booked (s : Tracked) : Prop where
  /-- Copies are for sessions that have been made. -/
  known : ∀ x ∈ s.selected, x.session < s.fan.nextSession
  /-- No copy is lost. -/
  kept : ∀ x ∈ s.selected, s.Accounted x
  /-- Readers fill the buffers for their targets. -/
  reader : ∀ r, s.ReaderOk r
  /-- A session has the copy that it has taken. -/
  taken : ∀ k < s.fan.nextSession, ∀ x, (s.fan.sessions k).pc.packet = some x → s.taken k = s.carries x.buf
  /-- A writer returns what it has written. -/
  put : ∀ c x, (s.fan.clients c).pc = .put x true → s.carries x.buf ∈ s.written
  /-- `PacketsDropped` counts what was dropped. -/
  counted : ∀ r, s.packetsDropped r = (s.dropped.filter (·.stream = r)).length

/-- What holds in every state. -/
structure Tracked.Inv (s : Tracked) : Prop extends s.Booked where
  /-- Sessions are in order. -/
  registered : s.fan.Registered
  /-- Each buffer is in one place. -/
  owned : s.fan.Owned
  /-- Each `writeChan` is closed once. -/
  once : ∀ c, (s.fan.clients c).Once
  /-- Goroutines end when they may. -/
  ends : s.fan.Ends

theorem inv_newTracked : newTracked.Inv :=
  ⟨⟨nofun, nofun, fun _ => trivial, nofun, nofun, fun _ => rfl⟩, registered_newFan, owned_newFan,
    fun _ => ⟨nofun, rfl⟩, ends_newFan⟩

theorem Tracked.ReaderOk.of_eq {r : ℕ} (h : s.ReaderOk r) (hl : (t.fan.streams r).loop = (s.fan.streams r).loop)
    (hh : (t.fan.streams r).history = (s.fan.streams r).history)
    (hc : ∀ b ∈ (s.fan.streams r).loop.bufs, t.carries b = s.carries b) : t.ReaderOk r := by
  have hsel (u) : t.fan.selection r u = s.fan.selection r u := by
    unfold Fan.selection
    rw [hh]
  unfold Tracked.ReaderOk at h ⊢
  rw [hl]
  rcases hloop : (s.fan.streams r).loop with _ | _ | (_ | _ | _ | _ | _) <;> rw [hloop] at h hc
  case reading.got | reading.push => exact (hc _ (List.mem_singleton_self _)).trans (h.trans (hsel _).symm)
  case reading.refused => exact (congrArg Selection.stream (hc _ (List.mem_singleton_self _))).trans h
  all_goals trivial

theorem Tracked.ReaderOk.of_quiet {r : ℕ} (h : (t.fan.streams r).loop.Quiet) : t.ReaderOk r := by
  unfold Tracked.ReaderOk
  split
  case h_1 hl | h_2 hl | h_3 hl =>
    rw [hl] at h
    cases h
  case h_4 => trivial

/-! ### Handlers and `connectLoop` -/

theorem record_calm {a : Act} (ha : a.isCalm = true) (fan : Fan) : s.record a fan = { s with fan := fan } := by
  cases a with
  | dispatch | dispatching | run | writer => cases ha
  | _ => simp [Tracked.record, Tracked.selects, Tracked.fills, Tracked.takes, Tracked.writes, Tracked.drops,
      Tracked.counts]

theorem booked_calm (h : s.Inv) {fan : Fan} (hp : s.fan.Persists fan) (hr : s.fan.Rests fan) :
    Tracked.Booked { s with fan := fan } := by
  have hsel (r u) : fan.selection r u = s.fan.selection r u := by
    unfold Fan.selection
    rw [hr.history]
  refine ⟨fun x hx => Nat.lt_of_lt_of_le (h.known x hx) hp.next, fun x hx => ?_, fun r => ?_, fun k hk x hx => ?_,
    fun c x hx => h.put c x (hr.client c ▸ hx), h.counted⟩
  · have hk := h.known x hx
    refine (h.kept x hx).mono hp hk (fun _ => id) (fun _ => id) (fun u hu hux => ?_) (fun p hpl b hb hbx => ?_)
      fun hpc htx => .inl (.inr (.inr ⟨(hr.session _ hk).trans hpc, htx⟩))
    · exact accounted_of_target ((hr.targets _).symm ▸ hu) ((hsel _ _).trans hux)
    · refine accounted_of_held hp hk hpl ?_ hbx
      show b ∈ fan.held p
      rw [hr.held p]
      · exact hb
      · rintro rfl
        simp [mem_places] at hpl
      · rintro k rfl
        obtain rfl : k = x.session := by simpa [mem_places] using hpl
        exact hk
  · rcases hr.loop r with hl | hq
    · exact (h.reader r).of_eq hl (hr.history r) fun _ _ => rfl
    · exact .of_quiet hq
  · by_cases hks : k < s.fan.nextSession
    · exact h.taken k hks x (hr.session k hks ▸ hx)
    · rw [show (fan.sessions k).pc = _ from (hr.fresh k hk (Nat.not_lt.mp hks)).1] at hx
      cases hx

/-! ### Sessions -/

/-- A session's goroutine goes on: what must be said of the copies that it has. -/
theorem booked_session (h : s.Inv) {k : ℕ} {fan : Fan} {taken : ℕ → Selection} (hp : s.fan.Persists fan)
    (hf : s.fan.RunFrame k fan) (hclient : ∀ c, (s.fan.clients c).bufs ⊆ (fan.clients c).bufs)
    (htaken : ∀ k', k' ≠ k → taken k' = s.taken k')
    (hpacket : ∀ x, (fan.sessions k).pc.packet = some x → taken k = s.carries x.buf)
    (hbuf : ∀ b ∈ (s.fan.sessions k).bufs, (s.carries b).session = k →
      Tracked.Accounted { s with fan := fan, taken := taken } (s.carries b))
    (hdestroy : (s.fan.sessions k).pc = .destroy → fan.Over k) :
    Tracked.Booked { s with fan := fan, taken := taken } := by
  refine ⟨fun x hx => Nat.lt_of_lt_of_le (h.known x hx) hp.next, fun x hx => ?_, fun r => ?_, fun k' hk' x hx => ?_,
    fun c x hx => h.put c x (hf.client c ▸ hx), h.counted⟩
  · have hk := h.known x hx
    refine (h.kept x hx).mono hp hk (fun _ => id) (fun _ => id) (fun u hu hux => ?_) (fun p hpl b hb hbx => ?_)
      fun hpc htx => ?_
    · refine accounted_of_target (u := u) ?_ ?_
      · show u ∈ (fan.streams x.stream).loop.targets
        rw [hf.streams]
        exact hu
      · show fan.selection x.stream u = x
        unfold Fan.selection
        rw [hf.streams]
        exact hux
    · rcases mem_places.mp hpl with rfl | rfl | rfl
      · refine accounted_of_held hp hk hpl ?_ hbx
        show b ∈ (fan.streams x.stream).loop.bufs
        rw [hf.streams]
        exact hb
      · by_cases hxk : x.session = k
        · subst hbx hxk
          exact hbuf b hb rfl
        · refine accounted_of_held hp hk hpl ?_ hbx
          show b ∈ (fan.sessions x.session).bufs
          rw [hf.session _ hxk]
          exact hb
      · exact accounted_of_held hp hk hpl (hclient _ hb) hbx
    · by_cases hxk : x.session = k
      · subst hxk
        exact .inr (.inr (.inr (hdestroy hpc)))
      · refine .inl (.inr (.inr ⟨?_, (htaken _ hxk).trans htx⟩))
        show (fan.sessions x.session).pc = .destroy
        rw [hf.session _ hxk]
        exact hpc
  · refine (h.reader r).of_eq ?_ ?_ fun _ _ => rfl
    · exact congrArg (fun f => (f r).loop) hf.streams
    · exact congrArg (fun f => (f r).history) hf.streams
  · by_cases hkk : k' = k
    · subst hkk
      exact hpacket x hx
    · refine (htaken k' hkk).trans (h.taken k' (hf.next ▸ hk') x ?_)
      rw [← hf.session k' hkk]
      exact hx

/-- A session takes a copy only from its queue. -/
theorem takes_of_ne {k : ℕ} {o : RunInput} (ho : o ≠ .packet) : s.takes (.run k o) = s.taken := by
  cases o with
  | packet => exact absurd rfl ho
  | _ => rfl

/-- The record after a step of a session's goroutine. -/
theorem record_run (k : ℕ) (o : RunInput) (fan : Fan) :
    s.record (.run k o) fan = { s with fan := fan, taken := s.takes (.run k o) } := by
  simp [Tracked.record, Tracked.selects, Tracked.fills, Tracked.writes, Tracked.drops, Tracked.counts]

theorem booked_run (h : s.Inv) {k : ℕ} {o : RunInput} {fan : Fan} (hp : s.fan.Persists fan)
    (hm : s.fan.RunMove cfg k o fan) : Tracked.Booked { s with fan := fan, taken := s.takes (.run k o) } := by
  have hk : k < s.fan.nextSession := (h.registered.entry (h.registered.live k hm.live)).1
  have hf := hm.frame
  have hstay {b : ℕ} (hb : b ∈ (fan.sessions k).bufs) (hs : (s.carries b).session = k) :
      Tracked.Accounted { s with fan := fan, taken := s.takes (.run k o) } (s.carries b) :=
    accounted_of_held hp (hs ▸ hk) (mem_places.mpr (.inr (.inl rfl))) (hs ▸ hb) rfl
  have hsub (c : ℕ) : (s.fan.clients c).bufs ⊆ (s.fan.clients c).bufs := fun _ => id
  cases hm with
  | @take x q hpc hq =>
    have htk : s.takes (.run k .packet) = Function.update s.taken k (s.carries x.buf) := by simp [Tracked.takes, hq]
    refine booked_session h hp hf hsub (fun k' hk' => ?_) (fun y hy => ?_) (fun b hb hs => hstay ?_ hs) ?_
    · rw [htk, Function.update_of_ne hk']
    · obtain rfl : x = y := by simpa [Fan.setSession, RunPc.packet] using hy
      rw [htk, Function.update_self]
    · simpa [Fan.setSession, Session.bufs, RunPc.bufs, hpc, hq] using hb
    · simp [hpc]
  | goOn pc ho hx hb hpk hd he hs =>
    have htk := takes_of_ne (s := s) (k := k) ho
    refine booked_session h hp hf hsub (fun k' _ => by rw [htk]) (fun y hy => ?_) (fun b hb' hs => hstay ?_ hs)
      fun hpc => hp.over hk (.inl (he hpc))
    · rw [htk]
      refine h.taken k hk y ?_
      rw [← hpk]
      simpa [Fan.runAt, Fan.setSession] using hy
    · simpa [Fan.runAt, Fan.setSession, Session.bufs, hb] using hb'
  | @send x hpc =>
    refine booked_session h hp hf (fun c b hb => ?_) (fun _ _ => rfl) (fun y hy => ?_) (fun b hb hs => ?_) ?_
    · by_cases hc : c = (s.fan.sessions k).client
      · subst hc
        simp only [Client.bufs, List.mem_append] at hb
        simp only [Fan.runAt, Fan.setSession, Fan.setClient, Function.update_self, Client.bufs, List.map_append,
          List.mem_append]
        exact hb.imp_right .inl
      · simpa [Fan.runAt, Fan.setSession, Fan.setClient, hc] using hb
    · simp [Fan.runAt, Fan.setSession, RunPc.packet] at hy
    · have hb : b = x.buf ∨ b ∈ (s.fan.sessions k).queue.map Slice.buf := by
        simpa [Session.bufs, RunPc.bufs, hpc] using hb
      rcases hb with rfl | hb
      · -- the client has it now
        refine accounted_of_held hp (hs ▸ hk) (mem_places.mpr (.inr (.inr rfl))) ?_ rfl
        rw [hs]
        simp [Fan.held, Fan.runAt, Fan.setSession, Fan.setClient, Client.bufs]
      · exact hstay (by simpa [Fan.runAt, Fan.setSession, Fan.setClient, Session.bufs, RunPc.bufs] using hb) hs
    · simp [hpc]
  | badSend hpc =>
    exact booked_session h hp hf hsub (fun _ _ => rfl) (h.taken k hk) (fun b => hstay) (by simp [hpc])
  | @giveUp x hpc =>
    refine booked_session h hp hf hsub (fun _ _ => rfl) (fun y hy => ?_) (fun b hb hs => ?_) ?_
    · simp [Fan.runAt, Fan.setSession, RunPc.packet] at hy
    · have hb : b = x.buf ∨ b ∈ (s.fan.sessions k).queue.map Slice.buf := by
        simpa [Session.bufs, RunPc.bufs, hpc] using hb
      rcases hb with rfl | hb
      · -- the session is about to destroy the client for it
        refine .inl (.inr (.inr ⟨?_, ?_⟩))
        · rw [hs]
          simp [Fan.runAt, Fan.setSession]
        · rw [hs]
          exact h.taken k hk x (by simp [hpc, RunPc.packet])
      · refine hstay ?_ hs
        simpa [Fan.runAt, Fan.setSession, Fan.release, Fan.setPool, Session.bufs, RunPc.bufs] using hb
    · simp [hpc]
  | evict hpc =>
    refine booked_session h hp hf (fun c => ?_) (fun _ _ => rfl) (fun y hy => ?_) (fun b hb hs => hstay ?_ hs)
      fun _ => .inl ?_
    · by_cases hc : c = (s.fan.sessions k).client <;>
        simp [Fan.runAt, Fan.setSession, Fan.setClient, Client.bufs, hc]
    · simp [Fan.runAt, Fan.setSession, RunPc.packet] at hy
    · simpa [Fan.runAt, Fan.setSession, Fan.setClient, Session.bufs, RunPc.bufs, hpc] using hb
    · simp [Fan.runAt, Fan.setSession, Fan.setClient]
  | @drain x q hpc hq =>
    refine booked_session h hp hf hsub (fun _ _ => rfl) (fun y hy => ?_) (fun b hb hs => hstay ?_ hs) ?_
    · simp [Fan.setSession, RunPc.packet] at hy
    · simpa [Fan.setSession, Session.bufs, RunPc.bufs, hpc, hq] using hb
    · simp [hpc]
  | @drained x hpc =>
    have hover := h.ends.ended k hk (by simp [hpc, RunPc.spent])
    refine booked_session h hp hf hsub (fun _ _ => rfl) (fun y hy => ?_) (fun b hb hs => ?_) ?_
    · simp [Fan.runAt, Fan.setSession, RunPc.packet] at hy
    · exact .inr (.inr (.inr (hs ▸ hp.over hk hover)))
    · simp [hpc]

/-! ### Writers -/

/-- A writer goes on: what must be said of the copies that its client has. -/
theorem booked_client (h : s.Inv) {c : ℕ} {fan : Fan} {written : List Selection} (hp : s.fan.Persists fan)
    (hf : s.fan.WriterFrame c fan) (hw : s.written ⊆ written)
    (hput : ∀ x, (fan.clients c).pc = .put x true → s.carries x.buf ∈ written)
    (hbuf : ∀ b ∈ (s.fan.clients c).bufs, (s.fan.sessions (s.carries b).session).client = c →
      (s.carries b).session < s.fan.nextSession →
      Tracked.Accounted { s with fan := fan, written := written } (s.carries b)) :
    Tracked.Booked { s with fan := fan, written := written } := by
  have hsel (r u) : fan.selection r u = s.fan.selection r u := by
    unfold Fan.selection
    rw [hf.streams]
  refine ⟨fun x hx => Nat.lt_of_lt_of_le (h.known x hx) hp.next, fun x hx => ?_, fun r => ?_, fun k hk x hx => ?_,
    fun c' x hx => ?_, h.counted⟩
  · have hk := h.known x hx
    refine (h.kept x hx).mono hp hk hw (fun _ => id) (fun u hu hux => ?_) (fun p hpl b hb hbx => ?_) fun hpc htx => ?_
    · refine accounted_of_target (u := u) ?_ ((hsel _ _).trans hux)
      show u ∈ (fan.streams x.stream).loop.targets
      rw [hf.streams]
      exact hu
    · rcases mem_places.mp hpl with rfl | rfl | rfl
      · refine accounted_of_held hp hk hpl ?_ hbx
        show b ∈ (fan.streams x.stream).loop.bufs
        rw [hf.streams]
        exact hb
      · refine accounted_of_held hp hk hpl ?_ hbx
        show b ∈ (fan.sessions x.session).bufs
        rw [hf.sessions]
        exact hb
      · by_cases hc : (s.fan.sessions x.session).client = c
        · subst hbx hc
          exact hbuf b hb rfl hk
        · refine accounted_of_held hp hk hpl ?_ hbx
          show b ∈ (fan.clients _).bufs
          rw [hf.client _ hc]
          exact hb
    · refine .inl (.inr (.inr ⟨?_, htx⟩))
      show (fan.sessions x.session).pc = .destroy
      rw [hf.sessions]
      exact hpc
  · refine (h.reader r).of_eq ?_ ?_ fun _ _ => rfl
    · exact congrArg (fun f => (f r).loop) hf.streams
    · exact congrArg (fun f => (f r).history) hf.streams
  · refine h.taken k (hf.next ▸ hk) x ?_
    rw [← hf.sessions]
    exact hx
  · by_cases hc : c' = c
    · subst hc
      exact hput x hx
    · refine hw (h.put c' x ?_)
      rw [← hf.client c' hc]
      exact hx

theorem record_writer (c : ℕ) (o : WriterInput) (fan : Fan) :
    s.record (.writer c o) fan = { s with fan := fan, written := s.written ++ s.writes (.writer c o) } := by
  simp [Tracked.record, Tracked.selects, Tracked.fills, Tracked.takes, Tracked.drops, Tracked.counts]

theorem booked_writer (h : s.Inv) {c : ℕ} {o : WriterInput} {fan : Fan} (hp : s.fan.Persists fan)
    (hm : s.fan.WriterMove cfg c o fan) :
    Tracked.Booked { s with fan := fan, written := s.written ++ s.writes (.writer c o) } := by
  have hf := hm.frame
  have hstay {b : ℕ} (hb : b ∈ (fan.clients c).bufs) (hc : (s.fan.sessions (s.carries b).session).client = c)
      (hk : (s.carries b).session < s.fan.nextSession) : Tracked.Accounted
        { s with fan := fan, written := s.written ++ s.writes (.writer c o) } (s.carries b) :=
    accounted_of_held hp hk (mem_places.mpr (.inr (.inr rfl))) (hc.symm ▸ hb) rfl
  have hw : s.written ⊆ s.written ++ s.writes (.writer c o) := List.subset_append_left _ _
  cases hm with
  | goOn f ho hb hd hput hfail =>
    refine booked_client h hp hf hw (fun x hx => ?_) fun b hb' hc hk => hstay ?_ hc hk
    · exact absurd hx (by simpa [Fan.setClient] using hput x)
    · simpa [Fan.setClient, hb] using hb'
  | @wrote x ok hpc =>
    refine booked_client h hp hf hw (fun y hy => ?_) fun b hb hc hk => hstay ?_ hc hk
    · obtain ⟨rfl, rfl⟩ : x = y ∧ ok = true := by simpa [Fan.setClient] using hy
      simp [Tracked.writes, hpc]
    · simpa [Fan.setClient, Client.bufs, WriterPc.bufs, hpc] using hb
  | @put x hpc =>
    refine booked_client h hp hf hw (fun y hy => ?_) fun b hb hc hk => ?_
    · simp [Fan.writerAt, Fan.setClient] at hy
    · have hb : b = x.buf ∨ b ∈ (s.fan.clients c).writeChan.map Slice.buf := by
        simpa [Client.bufs, WriterPc.bufs, hpc] using hb
      rcases hb with rfl | hb
      · exact .inr (.inl (hw (h.put c x hpc)))
      · refine hstay ?_ hc hk
        simpa [Fan.writerAt, Fan.setClient, Fan.release, Fan.setPool, Client.bufs, WriterPc.bufs] using hb
  | @drained x hfail hb =>
    refine booked_client h hp hf hw (fun y hy => ?_) fun b hb hc hk => ?_
    · simp [Fan.writerAt, Fan.setClient] at hy
    · refine .inr (.inr (.inr (hp.over hk ?_)))
      rcases h.ends.failed c hfail with hd | hd
      · exact .inl (hc.symm ▸ hd)
      · exact .inr (.inr (.inr hd))

/-! ### Readers -/

/-- The critical section of `dispatch` selects copies. -/
theorem record_dispatch (r : ℕ) (f : Frame) (targets : List Target) (fan : Fan) :
    s.record (.dispatch r f targets) fan = { s with
      fan := fan
      selected := s.selected ++ targets.map fun u => ⟨r, (s.fan.streams r).history.length, u.session⟩ } := by
  simp [Tracked.record, Tracked.selects, Tracked.fills, Tracked.takes, Tracked.writes, Tracked.drops, Tracked.counts]

theorem booked_dispatch (h : s.Inv) {r : ℕ} {f : Frame} {targets : List Target} {fan : Fan}
    (hp : s.fan.Persists fan) (hs : s.fan.dispatch cfg r f targets = some fan) :
    (s.record (.dispatch r f targets) fan).Booked := by
  rw [record_dispatch]
  obtain ⟨⟨hl, -, -, hperm⟩, ⟨⟩⟩ := Option.ite_none_right_eq_some.mp hs
  set fan := s.fan.setStream r _ with hfan
  have hother {r'} (hr : r' ≠ r) : fan.streams r' = s.fan.streams r' := Function.update_of_ne hr _ _
  refine ⟨fun x hx => ?_, fun x hx => ?_, fun r' => ?_, h.taken, h.put, h.counted⟩
  · rcases List.mem_append.mp hx with hx | hx
    · exact h.known x hx
    · obtain ⟨u, hu, rfl⟩ := List.mem_map.mp hx
      exact (h.registered.targets (hperm.subset hu)).1
  · rcases List.mem_append.mp hx with hx | hx
    · have hk := h.known x hx
      refine (h.kept x hx).mono hp hk (fun _ => id) (fun _ => id) (fun u hu hux => ?_) (fun p hpl b hb hbx => ?_)
        fun hpc htx => .inl (.inr (.inr ⟨hpc, htx⟩))
      · -- the reader was outside of `dispatch`
        by_cases hr : x.stream = r
        · rw [hr, hl] at hu
          cases hu
        · refine accounted_of_target (u := u) ?_ ?_
          · show u ∈ (fan.streams x.stream).loop.targets
            rw [hother hr]
            exact hu
          · show fan.selection x.stream u = x
            unfold Fan.selection
            rw [hother hr]
            exact hux
      · refine accounted_of_held hp hk hpl ?_ hbx
        show b ∈ fan.held p
        have hne : p ≠ .reader r := by
          rintro rfl
          rw [Fan.held, hl] at hb
          cases hb
        rw [hfan, held_setStream, Function.update_of_ne hne]
        exact hb
    · obtain ⟨u, hu, rfl⟩ := List.mem_map.mp hx
      refine accounted_of_target (u := u) ?_ ?_
      · simpa [hfan, Fan.setStream, LoopPc.targets] using hu
      · simp [hfan, Fan.selection, Fan.setStream]
  · by_cases hr : r' = r
    · subst hr
      simp [Tracked.ReaderOk, hfan, Fan.setStream]
    · exact (h.reader r').of_eq (congrArg Stream.loop (hother hr)) (congrArg Stream.history (hother hr)) fun _ _ => rfl

/-- After its critical section `dispatch` selects nothing, and fills buffers that nobody has. -/
structure Tracked.ReadFrame (s : Tracked) (r : ℕ) (t : Tracked) : Prop extends s.fan.ReadFrame r t.fan where
  /-- What is in the buffers that are not in the pool. -/
  carries : ∀ p, p ≠ .pool → ∀ b ∈ s.fan.held p, t.carries b = s.carries b
  /-- The record, but for what is dropped. -/
  record : t.selected = s.selected ∧ t.taken = s.taken ∧ t.written = s.written ∧ s.dropped ⊆ t.dropped

theorem Tracked.ReadFrame.selection {r : ℕ} (hf : s.ReadFrame r t) (r' : ℕ) (u : Target) :
    t.fan.selection r' u = s.fan.selection r' u := by
  unfold Fan.selection
  by_cases hr : r' = r
  · rw [hr, hf.history]
  · rw [hf.streams r' hr]

theorem readFrame_record (h : s.Inv) {r : ℕ} {o : Option ℕ} {fan : Fan} (hm : s.fan.ReadMove cfg r o fan) :
    s.ReadFrame r (s.record (.dispatching r o) fan) := by
  refine ⟨hm.frame, fun p hp b hb => ?_, List.append_nil _, rfl, List.append_nil _, List.subset_append_left _ _⟩
  show s.fills (.dispatching r o) b = s.carries b
  cases hm with
  | @get packet u targets g buf hl hg =>
    obtain ⟨rfl, hnew⟩ := h.owned.getBuf hg
    have hne : b ≠ o.getD s.fan.nextBuf := by
      rintro rfl
      exact hnew p hp hb
    simp [Tracked.fills, hl, hne]
  | finish hl | fill hl | badSlice hl | push hl | refuse hl | putBack hl => simp [Tracked.fills, hl]

/-- A reader goes on: what must be said of its targets and its buffer. -/
theorem booked_reader (h : s.Inv) {r : ℕ} (hp : s.fan.Persists t.fan) (hf : s.ReadFrame r t)
    (htarget : ∀ u ∈ (s.fan.streams r).loop.targets, u.session < s.fan.nextSession →
      t.Accounted (s.fan.selection r u))
    (hbuf : ∀ b ∈ (s.fan.streams r).loop.bufs, (s.carries b).stream = r → (s.carries b).session < s.fan.nextSession →
      t.Accounted (s.carries b))
    (hreader : t.ReaderOk r)
    (hcount : ∀ r, t.packetsDropped r = (t.dropped.filter (·.stream = r)).length) : t.Booked := by
  obtain ⟨hsel, htk, hw, hd⟩ := hf.record
  refine ⟨fun x hx => ?_, fun x hx => ?_, fun r' => ?_, fun k hk x hx => ?_, fun c x hx => ?_, hcount⟩
  · rw [hsel] at hx
    exact Nat.lt_of_lt_of_le (h.known x hx) hp.next
  · rw [hsel] at hx
    have hk := h.known x hx
    refine (h.kept x hx).mono hp hk (hw ▸ fun _ => id) hd (fun u hu hux => ?_) (fun p hpl b hb hbx => ?_)
      fun hpc htx => .inl (.inr (.inr ⟨(hf.session _ hk).trans hpc, htk ▸ htx⟩))
    · by_cases hr : x.stream = r
      · subst hr
        rw [← hux] at hk ⊢
        exact htarget u hu hk
      · exact accounted_of_target (hf.streams _ hr ▸ hu) ((hf.selection _ _).trans hux)
    · have hpool : p ≠ .pool := by
        rintro rfl
        simp [mem_places] at hpl
      by_cases hr : p = .reader r
      · subst hr
        obtain rfl : r = x.stream := by simpa [mem_places] using hpl
        subst hbx
        exact hbuf b hb rfl hk
      · exact accounted_of_held hp hk hpl (hf.held p hpool hr hb) ((hf.carries p hpool b hb).trans hbx)
  · by_cases hr : r' = r
    · rw [hr]
      exact hreader
    · refine (h.reader r').of_eq ?_ ?_ fun b hb => hf.carries (.reader r') nofun b hb
      · rw [hf.streams r' hr]
      · rw [hf.streams r' hr]
  · rw [hf.next] at hk
    rw [hf.session k hk] at hx
    rw [htk, hf.carries (.session k) nofun x.buf (List.mem_append_left _ (RunPc.mem_bufs hx))]
    exact h.taken k hk x hx
  · rw [hf.client c] at hx
    rw [hw, hf.carries (.client c) nofun x.buf (by simp [Fan.held, Client.bufs, WriterPc.bufs, hx])]
    exact h.put c x hx

theorem counted_read (h : s.Inv) {r : ℕ} {o : Option ℕ} {fan : Fan} (hm : s.fan.ReadMove cfg r o fan) (r' : ℕ) :
    (s.record (.dispatching r o) fan).packetsDropped r' =
      ((s.record (.dispatching r o) fan).dropped.filter (·.stream = r')).length := by
  show s.counts (.dispatching r o) r' = ((s.dropped ++ s.drops (.dispatching r o)).filter (·.stream = r')).length
  have hcount := h.counted r'
  have hreader := h.reader r
  cases hm with
  | putBack hl =>
    simp only [Tracked.ReaderOk, hl] at hreader
    by_cases hr : r' = r
    · subst hr
      simp [Tracked.counts, Tracked.drops, hl, hreader, hcount]
    · have hne : (s.carries _).stream ≠ r' := fun heq => hr (heq.symm.trans hreader)
      simp [Tracked.counts, Tracked.drops, hl, hr, hne, hcount]
  | finish hl | get hl | fill hl | badSlice hl | push hl | refuse hl => simp [Tracked.counts, Tracked.drops, hl, hcount]

theorem booked_read (h : s.Inv) {r : ℕ} {o : Option ℕ} {fan : Fan} (hp : s.fan.Persists fan)
    (hm : s.fan.ReadMove cfg r o fan) : (s.record (.dispatching r o) fan).Booked := by
  have hf := readFrame_record h hm
  have hreader := h.reader r
  have htarget {u : Target} (hu : u ∈ (fan.streams r).loop.targets) :
      (s.record (.dispatching r o) fan).Accounted (s.fan.selection r u) :=
    accounted_of_target hu (hf.selection r u)
  have hbuf {b : ℕ} (hb : b ∈ (fan.streams r).loop.bufs) (hs : b ∈ (s.fan.streams r).loop.bufs)
      (hr : (s.carries b).stream = r) (hk : (s.carries b).session < s.fan.nextSession) :
      (s.record (.dispatching r o) fan).Accounted (s.carries b) :=
    accounted_of_held hp hk (mem_places.mpr (.inl rfl)) (hr.symm ▸ hb) (hf.carries (.reader r) nofun b hs)
  have hpushed {b : ℕ} (hs : b ∈ (s.fan.streams r).loop.bufs) (hb : b ∈ (fan.sessions (s.carries b).session).bufs)
      (hk : (s.carries b).session < s.fan.nextSession) :
      (s.record (.dispatching r o) fan).Accounted (s.carries b) :=
    accounted_of_held hp hk (mem_places.mpr (.inr (.inl rfl))) hb (hf.carries (.reader r) nofun b hs)
  have hcount := counted_read h hm
  cases hm with
  | finish hl =>
    refine booked_reader h hp hf (fun u hu => ?_) (fun b hb => ?_) ?_ hcount
    · simp [hl, LoopPc.targets] at hu
    · simp [hl, LoopPc.bufs] at hb
    · simp [Tracked.ReaderOk, Tracked.record, Fan.setLoop, Fan.setStream]
  | @get packet u targets g buf hl hg =>
    obtain ⟨rfl, -⟩ := h.owned.getBuf hg
    refine booked_reader h hp hf (fun v hv _ => htarget ?_) (fun b hb => ?_) ?_ hcount
    · simpa [Fan.setLoop, Fan.setStream, LoopPc.targets, hl] using hv
    · simp [hl, LoopPc.bufs] at hb
    · simp only [Tracked.ReaderOk, loop_setLoop, Tracked.record]
      refine Eq.trans ?_ (hf.selection r u).symm
      simp [Tracked.fills, hl]
  | @fill packet u buf targets hl =>
    refine booked_reader h hp hf (fun v hv _ => htarget ?_) (fun b hb => hbuf ?_ hb) ?_ hcount
    · simpa [Fan.setLoop, Fan.setStream, LoopPc.targets, hl] using hv
    · simpa [Fan.setLoop, Fan.setStream, LoopPc.bufs, hl] using hb
    · simp only [Tracked.ReaderOk, hl, loop_setLoop, Tracked.record] at hreader ⊢
      refine Eq.trans ?_ (hreader.trans (hf.selection r u).symm)
      simp [Tracked.fills, hl]
  | @badSlice packet u buf targets hl =>
    refine booked_reader h hp hf (fun v hv _ => htarget hv) (fun b hb => hbuf hb hb) ?_ hcount
    · refine hreader.of_eq rfl rfl fun b hb => hf.carries (.reader r) nofun b hb
  | @push packet u buf targets hl =>
    simp only [Tracked.ReaderOk, hl] at hreader
    have hmem : buf ∈ (s.fan.streams r).loop.bufs := by simp [hl, LoopPc.bufs]
    have hmem' : buf ∈ (((s.fan.setSession u.session fun cs =>
        { cs with queue := cs.queue ++ [⟨r, buf, packet.length⟩] }).setLoop r (.reading (.next packet targets))).sessions
          (s.carries buf).session).bufs := by
      rw [hreader]
      simp [Fan.selection, Fan.setLoop, Fan.setStream, Fan.setSession, Session.bufs]
    refine booked_reader h hp hf (fun v hv hk => ?_) (fun b hb _ hk => ?_) ?_ hcount
    · have hv : v = u ∨ v ∈ targets := by simpa [hl, LoopPc.targets] using hv
      rcases hv with rfl | hv
      · rw [← hreader]
        exact hpushed hmem hmem' (by rw [hreader]; exact hk)
      · exact htarget (by simpa [Fan.setLoop, Fan.setStream, LoopPc.targets] using hv)
    · obtain rfl : b = buf := by simpa [hl, LoopPc.bufs] using hb
      exact hpushed hb hmem' hk
    · simp [Tracked.ReaderOk, Tracked.record]
  | @refuse packet u buf targets hl =>
    simp only [Tracked.ReaderOk, hl] at hreader
    have hmem : buf ∈ (s.fan.streams r).loop.bufs := by simp [hl, LoopPc.bufs]
    have hmem' : buf ∈ ((s.fan.setLoop r (.reading (.refused packet buf targets))).streams r).loop.bufs := by
      simp [LoopPc.bufs]
    refine booked_reader h hp hf (fun v hv hk => ?_) (fun b hb => ?_) ?_ hcount
    · have hv : v = u ∨ v ∈ targets := by simpa [hl, LoopPc.targets] using hv
      rcases hv with rfl | hv
      · rw [← hreader]
        exact hbuf hmem' hmem (by rw [hreader]; rfl) (by rw [hreader]; exact hk)
      · exact htarget (by simpa [LoopPc.targets] using hv)
    · obtain rfl : b = buf := by simpa [hl, LoopPc.bufs] using hb
      exact hbuf hmem' hmem
    · simp only [Tracked.ReaderOk, loop_setLoop, Tracked.record]
      simp [Tracked.fills, hl, hreader, Fan.selection]
  | @putBack packet buf targets hl =>
    simp only [Tracked.ReaderOk, hl] at hreader
    refine booked_reader h hp hf (fun v hv _ => htarget ?_) (fun b hb _ _ => ?_) ?_ hcount
    · simpa [LoopPc.targets, hl] using hv
    · obtain rfl : b = buf := by simpa [hl, LoopPc.bufs] using hb
      exact .inr (.inr (.inl (by simp [Tracked.record, Tracked.drops, hl])))
    · simp [Tracked.ReaderOk, Tracked.record]

/-! ### Whole runs -/

/-- **No copy is lost in a step**, unless a write fails while the client is connected. -/
theorem Tracked.Inv.step (h : s.Inv) {a : Act} (hc : Connected s a) (hs : s.step cfg a = some t) : t.Inv := by
  obtain ⟨fan, hfan, rfl⟩ := Option.map_eq_some_iff.mp hs
  have hp := persists_of_step hfan
  refine ⟨?_, h.registered.step hfan, h.owned.step hfan, once_of_step h.once hfan,
    h.ends.step h.registered h.once (fun c hac => by subst hac; exact hc) hfan⟩
  by_cases ha : a.isCalm = true
  · rw [record_calm ha]
    exact booked_calm h hp (rests_of_step ha h.registered hfan)
  · obtain ⟨-, hfan⟩ := Option.ite_none_left_eq_some.mp hfan
    cases a with
    | dispatch r f targets => exact booked_dispatch h hp hfan
    | dispatching r o => exact booked_read h hp (readMove_of_stepDispatch hfan)
    | run k o =>
      rw [record_run]
      exact booked_run h hp (runMove_of_stepRun hfan)
    | writer c o =>
      rw [record_writer]
      exact booked_writer h hp (writerMove_of_stepWriter hfan)
    | _ => exact absurd rfl ha

end

/-- **No copy is lost silently in a run in which no write to a connected client fails.** Each copy that
`dispatch` selected for a session is on its way, was written, or was counted in `PacketsDropped`, or
the client's connection has been closed, the client has been removed from the stream, or the server
is shutting down. `PacketsDropped` is the number of copies dropped. -/
theorem accounted_of_connected (cfg : Config) {as : List Act} {t : Tracked}
    (h : exec (Tracked.step cfg) newTracked as = some t) (hc : AllSteps (Tracked.step cfg) Connected newTracked as) :
    (∀ x ∈ t.selected, t.Accounted x) ∧
      ∀ r, t.packetsDropped r = (t.dropped.filter (·.stream = r)).length := by
  have hinv : t.Inv :=
    exec_invariant (fun s a s' hs hca hstep => Tracked.Inv.step hs hca hstep) as newTracked t inv_newTracked hc h
  exact ⟨hinv.kept, hinv.counted⟩

/-- A client maps a channel, and its camera is connected. -/
def joins : List Act := [.addClient 0 0, .mapChannel 0 0 0 2, .loop 0 .start, .loop 0 .dialed]

/-- A frame is dispatched to it. -/
def copied : List Act :=
  [.dispatch 0 ⟨0, [7], seven_fits⟩ [⟨0, 2⟩], .dispatching 0 none, .dispatching 0 none, .dispatching 0 none,
    .dispatching 0 none]

/-- One copy is written, one is in the client's channel, one is with the session, one is in the queue,
and there is no room for the last. -/
def fourCopies : List Act := List.flatten
  [joins, copied, [.run 0 .packet, .run 0 .sent, .writer 0 .data, .writer 0 (.wrote true), .writer 0 .next], copied,
    [.run 0 .packet, .run 0 .sent], copied, [.run 0 .packet, .run 0 .timeout], copied, copied, [.dispatching 0 none]]

theorem accounted_of_connected_fourCopies :
    ∃ t, exec (Tracked.step ⟨16, 1⟩) newTracked fourCopies = some t ∧
      t.selected = [⟨0, 0, 0⟩, ⟨0, 1, 0⟩, ⟨0, 2, 0⟩, ⟨0, 3, 0⟩, ⟨0, 4, 0⟩] ∧ t.written = [⟨0, 0, 0⟩] ∧
      t.dropped = [⟨0, 4, 0⟩] ∧ ¬t.fan.Over 0 ∧ ∀ x ∈ t.selected, t.Accounted x := by
  have hrun : (exec (Tracked.step ⟨16, 1⟩) newTracked fourCopies).any (fun t =>
      t.selected = [⟨0, 0, 0⟩, ⟨0, 1, 0⟩, ⟨0, 2, 0⟩, ⟨0, 3, 0⟩, ⟨0, 4, 0⟩] ∧ t.written = [⟨0, 0, 0⟩] ∧
        t.dropped = [⟨0, 4, 0⟩] ∧ ¬t.fan.Over 0) = true := by decide +kernel
  have hc : AllSteps (Tracked.step ⟨16, 1⟩) Connected newTracked fourCopies := by decide +kernel
  obtain ⟨t, ht, hsel⟩ := (Option.any_eq_true _ _).mp hrun
  obtain ⟨hsel, hw, hd, hover⟩ := of_decide_eq_true hsel
  exact ⟨t, ht, hsel, hw, hd, hover, (accounted_of_connected ⟨16, 1⟩ ht hc).1⟩

/-- Two copies are sent to the client's channel, and the first write reaches its deadline. -/
def deadline : List Act := List.flatten
  [joins, copied, [.run 0 .packet, .run 0 .sent], copied, [.run 0 .packet, .run 0 .sent],
    [.writer 0 .data, .writer 0 (.wrote false), .writer 0 .next, .writer 0 .next, .writer 0 .next]]

/-- **Both copies are lost**: neither is anywhere, was written or was counted, and the client is still
connected and registered. -/
theorem lost_after_error :
    ∃ t, exec (Tracked.step ⟨16, 1⟩) newTracked deadline = some t ∧ t.selected = [⟨0, 0, 0⟩, ⟨0, 1, 0⟩] ∧
      (∀ x ∈ t.selected, ¬t.Accounted x) ∧ t.packetsDropped 0 = 0 ∧ (t.fan.clients 0).destroyed = false ∧
      t.fan.sessionOf 0 0 = some 0 := by
  have hrun : (exec (Tracked.step ⟨16, 1⟩) newTracked deadline).any (fun t =>
      t.selected = [⟨0, 0, 0⟩, ⟨0, 1, 0⟩] ∧ (∀ x ∈ t.selected, ¬t.Accounted x) ∧ t.packetsDropped 0 = 0 ∧
        (t.fan.clients 0).destroyed = false ∧ t.fan.sessionOf 0 0 = some 0) = true := by decide +kernel
  obtain ⟨t, ht, hlost⟩ := (Option.any_eq_true _ _).mp hrun
  exact ⟨t, ht, of_decide_eq_true hlost⟩

end RtspProxy.Fanout
