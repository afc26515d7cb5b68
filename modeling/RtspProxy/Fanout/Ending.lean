import RtspProxy.Fanout.Shift

/-!
# How sessions and writers end

The goroutine of a session ends when the client has been removed from the stream, when the server is
shutting down, or after it has destroyed its client. A writer ends when its channel is closed,
when the server is shutting down, or after a write that failed.

## The model

`Fan.Over` says of a session that its client has been destroyed or removed from the stream, or that the
server is shutting down. `Fan.RunMove`, `Fan.WriterMove` and `Fan.ReadMove` are the steps of the
goroutines by what they do to the packets.

## What is proved

* `persists_of_step` — what is over stays over.
* `Fan.Ends.step` — **a session's goroutine leaves its loop only when the session is over, and, as long
  as no write fails before, a writer leaves its loop only when the client has been destroyed or the
  server is shutting down.**
-/

namespace RtspProxy.Fanout

open Theory Wire

variable {cfg : Config} {s t : Fan}

/-- The connection of a session's client has been closed, the client has been removed from the
stream, or the server is shutting down. -/
def Fan.Over (s : Fan) (k : ℕ) : Prop :=
  (s.clients (s.sessions k).client).destroyed = true ∨
    s.sessionOf (s.sessions k).stream (s.sessions k).client ≠ some k ∨
    (s.streams (s.sessions k).stream).removing = some (s.sessions k).client ∨ s.done = true

instance (s : Fan) (k : ℕ) : Decidable (s.Over k) := inferInstanceAs (Decidable (_ ∨ _))

/-! ### What is over stays over -/

/-- The sessions made keep their streams and clients, and what ends does not begin again. -/
structure Fan.Persists (s t : Fan) : Prop where
  /-- Sessions are numbered as they are made. -/
  next : s.nextSession ≤ t.nextSession
  /-- A session stays that of its client and stream. -/
  session : ∀ k < s.nextSession, (t.sessions k).client = (s.sessions k).client ∧
    (t.sessions k).stream = (s.sessions k).stream
  /-- A client that is destroyed stays so. -/
  destroyed : ∀ c, (s.clients c).destroyed = true → (t.clients c).destroyed = true
  /-- A session that is not registered stays so. -/
  sessionOf : ∀ k < s.nextSession, ∀ r c, s.sessionOf r c ≠ some k → t.sessionOf r c ≠ some k
  /-- A client that is being removed stays so, until it is removed. -/
  removing : ∀ r c, (s.streams r).removing = some c → (t.streams r).removing = some c ∨ t.sessionOf r c = none
  /-- A server that is cancelled stays so. -/
  done : s.done = true → t.done = true

theorem Fan.Persists.refl (s : Fan) : s.Persists s :=
  ⟨Nat.le_refl _, fun _ _ => ⟨rfl, rfl⟩, fun _ => id, fun _ _ _ _ => id, fun _ _ => .inl, id⟩

theorem Fan.Persists.over {k : ℕ} (hp : s.Persists t) (hk : k < s.nextSession) (h : s.Over k) : t.Over k := by
  unfold Fan.Over at h ⊢
  rw [(hp.session k hk).1, (hp.session k hk).2]
  rcases h with h | h | h | h
  · exact .inl (hp.destroyed _ h)
  · exact .inr (.inl (hp.sessionOf k hk _ _ h))
  · rcases hp.removing _ _ h with h | h
    · exact .inr (.inr (.inl h))
    · exact .inr (.inl (by simp [h]))
  · exact .inr (.inr (.inr (hp.done h)))

theorem destroyed_update {c c' : ℕ} {cl : Client}
    (hcl : (s.clients c').destroyed = true → cl.destroyed = true) (h : (s.clients c).destroyed = true) :
    (Function.update s.clients c' cl c).destroyed = true := by
  by_cases hc : c = c'
  · subst hc
    rw [Function.update_self]
    exact hcl h
  · rw [Function.update_of_ne hc]
    exact h

theorem persists_of_shift (hs : s.Shift t) : s.Persists t := by
  cases hs with
  | still hs =>
    refine ⟨Nat.le_of_eq hs.next.symm, fun k _ => ⟨(hs.session k).1, hs.stream k⟩, fun c hc => (hs.client c).1 ▸ hc,
      fun k _ r c => ?_, fun r c hr => .inl ((hs.removing r).trans hr), hs.done⟩
    rw [hs.sessionOf]
    exact id
  | evict k' hpc hd =>
    refine ⟨Nat.le_refl _, fun k _ => ?_, fun c => destroyed_update fun _ => Client.destroyed_destroy _,
      fun _ _ _ _ => id, fun _ _ => .inl, id⟩
    by_cases hk : k = k' <;> simp [Fan.runAt, Fan.setSession, Fan.setClient, hk]
  | close c hc ho => exact { Fan.Persists.refl s with destroyed := fun c => destroyed_update id }
  | badSend | badClose | badSlice => exact { Fan.Persists.refl s with }

/-- `AddClient`: the new session is not one of before. -/
theorem persists_addClient (r c : ℕ) : s.Persists (s.addClient r c) := by
  unfold Fan.addClient
  split
  · exact .refl s
  · refine ⟨Nat.le_succ _, fun k hk => ?_, fun _ => id, fun k hk r' c' hne => ?_, fun r' c' hr => .inl ?_, id⟩
    · rw [sessions_register, if_neg (Nat.ne_of_lt hk)]
      exact ⟨rfl, rfl⟩
    · rw [sessionOf_register]
      split
      · exact fun heq => Nat.ne_of_gt hk (Option.some.inj heq)
      · exact hne
    · rw [removing_register]
      exact hr

theorem persists_forget {r c : ℕ} (hr : ∀ c', (s.streams r).removing = some c' → c' = c) : s.Persists (s.forget r c) := by
  refine ⟨Nat.le_refl _, fun _ _ => ⟨rfl, rfl⟩, fun _ => id, fun k _ r' c' hne => ?_, fun r' c' hrem => ?_, id⟩
  · rw [sessionOf_forget]
    split
    · nofun
    · exact hne
  · by_cases hrr : r' = r
    · subst hrr
      obtain rfl := hr c' hrem
      exact .inr (by rw [sessionOf_forget, if_pos ⟨rfl, rfl⟩])
    · exact .inl (by simpa [Fan.forget, Fan.setStream, hrr] using hrem)

theorem persists_stop {r c k : ℕ} (hr : (s.streams r).removing = none) :
    s.Persists ((s.setSession k fun cs => { cs with active := false, quit := true }).setStream r fun st =>
      { st with removing := some c }) := by
  refine ⟨Nat.le_refl _, fun k' _ => ?_, fun _ => id, fun k' _ r' c' hne => ?_, fun r' c' hrem => .inl ?_, id⟩
  · by_cases hk : k' = k <;> simp [Fan.setStream, Fan.setSession, hk]
  · rw [sessionOf_setStream rfl]
    exact hne
  · have hne : r' ≠ r := by
      rintro rfl
      exact Option.some_ne_none c' (hrem.symm.trans hr)
    simpa [Fan.setStream, Fan.setSession, hne] using hrem

theorem persists_removeClient {r c : ℕ} (hr : (s.streams r).removing = none) : s.Persists (s.removeClient r c) := by
  unfold Fan.removeClient
  split
  case h_2 => exact .refl s
  case h_1 k hk =>
    split
    case isFalse => exact persists_forget fun c' hc' => nomatch hr.symm.trans hc'
    case isTrue =>
      split
      · exact { Fan.Persists.refl s with }
      · exact persists_stop hr

/-- **What is over stays over**, whatever is done. -/
theorem persists_of_step {a : Act} (hs : s.step cfg a = some t) : s.Persists t := by
  by_cases ha : a.isOther = true
  · exact persists_of_shift (shift_of_step ha hs)
  · obtain ⟨-, hs⟩ := Option.ite_none_left_eq_some.mp hs
    cases a with
    | addClient r c =>
      obtain ⟨-, ⟨⟩⟩ := Option.ite_none_right_eq_some.mp hs
      exact persists_addClient r c
    | mapChannel r c upstreamChan clientChan =>
      obtain ⟨-, ⟨⟩⟩ := Option.ite_none_right_eq_some.mp hs
      exact persists_of_shift (.still (still_mapChannel s r c upstreamChan clientChan))
    | removeClient r c =>
      obtain ⟨hr, ⟨⟩⟩ := Option.ite_none_right_eq_some.mp hs
      exact persists_removeClient hr
    | stopped r =>
      obtain ⟨c, hc, hs⟩ := Option.bind_eq_some_iff.mp hs
      obtain ⟨k, -, hs⟩ := Option.bind_eq_some_iff.mp hs
      obtain ⟨-, ⟨⟩⟩ := Option.ite_none_right_eq_some.mp hs
      exact persists_forget fun c' hc' => Option.some.inj (hc'.symm.trans hc)
    | destroy c =>
      cases hs
      exact { Fan.Persists.refl s with destroyed := fun c => destroyed_update fun _ => Client.destroyed_destroy _ }
    | _ => exact absurd rfl ha

/-! ### Steps of the goroutines -/

/-- The packet that a session has taken from its queue to send it. -/
def RunPc.packet : RunPc → Option Slice
  | .forward x | .slow x => some x
  | _ => none

theorem RunPc.mem_bufs {pc : RunPc} {x : Slice} (h : pc.packet = some x) : x.buf ∈ pc.bufs := by
  cases pc with
  | forward y | slow y =>
    cases h
    exact List.mem_singleton_self _
  | _ => cases h

/-- A step of `ClientSession.run`. -/
inductive Fan.RunMove (cfg : Config) (s : Fan) (k : ℕ) : RunInput → Fan → Prop
  /-- It takes a packet from its queue. -/
  | take {x : Slice} {q : List Slice} (hpc : (s.sessions k).pc = .select) (hq : (s.sessions k).queue = x :: q) :
      RunMove cfg s k .packet (s.setSession k fun cs => { cs with queue := q, pc := .forward x })
  /-- It goes on with what it has. -/
  | goOn {o : RunInput} (pc : RunPc) (ho : o ≠ .packet) (hx : (s.sessions k).pc ≠ .exited)
      (hb : pc.bufs = (s.sessions k).pc.bufs) (hp : pc.packet = (s.sessions k).pc.packet) (hd : pc ≠ .destroy)
      (he : (s.sessions k).pc = .destroy → (s.clients (s.sessions k).client).destroyed = true)
      (hs : pc.spent = true → (s.sessions k).pc.spent = true ∨ (s.sessions k).quit = true ∨ s.done = true ∨
        (s.clients (s.sessions k).client).destroyed = true) : RunMove cfg s k o (s.runAt k pc)
  /-- It sends the packet to the client. -/
  | send {x : Slice} (hpc : (s.sessions k).pc = .forward x) :
      RunMove cfg s k .sent ((s.setClient (s.sessions k).client fun cl =>
        { cl with writeChan := cl.writeChan ++ [x] }).runAt k .select)
  /-- It sends to a closed channel. -/
  | badSend {x : Slice} (hpc : (s.sessions k).pc = .forward x) : RunMove cfg s k .sent { s with panicked := true }
  /-- The client is slow: it gives the packet up. -/
  | giveUp {x : Slice} (hpc : (s.sessions k).pc = .slow x) :
      RunMove cfg s k .next ((s.release cfg x).runAt k .destroy)
  /-- It destroys the client. -/
  | evict (hpc : (s.sessions k).pc = .destroy) :
      RunMove cfg s k .next ((s.setClient (s.sessions k).client Client.destroy).runAt k .waitWriter)
  /-- It drains a packet. -/
  | drain {x : Slice} {q : List Slice} (hpc : (s.sessions k).pc = .drain) (hq : (s.sessions k).queue = x :: q) :
      RunMove cfg s k .next (s.setSession k fun cs => { cs with queue := q, pc := .drainPut x })
  /-- It returns the buffer of a packet that it has drained. -/
  | drained {x : Slice} (hpc : (s.sessions k).pc = .drainPut x) :
      RunMove cfg s k .next ((s.release cfg x).runAt k .drain)

theorem runMove_of_stepRun {k : ℕ} {o : RunInput} (h : s.stepRun cfg k o = some t) : s.RunMove cfg k o t := by
  unfold Fan.stepRun at h
  dsimp only at h
  split at h
  case h_1 hpc => -- select, quit
    obtain ⟨hq, ⟨⟩⟩ := Option.ite_none_right_eq_some.mp h
    exact .goOn _ (by simp) (by simp [hpc]) (by simp [hpc, RunPc.bufs]) (by simp [hpc, RunPc.packet]) (by simp) (by simp [hpc])
      fun _ => .inr (.inl hq)
  case h_2 hpc => -- select, done
    obtain ⟨hd, ⟨⟩⟩ := Option.ite_none_right_eq_some.mp h
    exact .goOn _ (by simp) (by simp [hpc]) (by simp [hpc, RunPc.bufs]) (by simp [hpc, RunPc.packet]) (by simp) (by simp [hpc])
      fun _ => .inr (.inr (.inl hd))
  case h_3 hpc => -- select, packet
    split at h
    · cases h
    case h_2 x q hq => cases h; exact .take hpc hq
  case h_4 x hpc => -- forward, sent
    split at h
    · cases h; exact .badSend hpc
    · obtain ⟨-, ⟨⟩⟩ := Option.ite_none_right_eq_some.mp h
      exact .send hpc
  case h_5 x hpc => -- forward, timeout
    cases h
    exact .goOn _ (by simp) (by simp [hpc]) (by simp [hpc, RunPc.bufs]) (by simp [hpc, RunPc.packet]) (by simp) (by simp [hpc])
      (by simp [RunPc.spent])
  case h_6 x hpc => cases h; exact .giveUp hpc
  case h_7 hpc => -- destroy
    split at h
    case isTrue hd =>
      cases h
      exact .goOn _ (by simp) (by simp [hpc]) (by simp [hpc, RunPc.bufs]) (by simp [hpc, RunPc.packet]) (by simp) (fun _ => hd)
        fun _ => .inr (.inr (.inr hd))
    case isFalse => cases h; exact .evict hpc
  case h_8 hpc => -- waitWriter
    obtain ⟨-, ⟨⟩⟩ := Option.ite_none_right_eq_some.mp h
    exact .goOn _ (by simp) (by simp [hpc]) (by simp [hpc, RunPc.bufs]) (by simp [hpc, RunPc.packet]) (by simp) (by simp [hpc])
      fun _ => .inl (by simp [hpc, RunPc.spent])
  case h_9 hpc => -- drain
    split at h
    · cases h
      exact .goOn _ (by simp) (by simp [hpc]) (by simp [hpc, RunPc.bufs]) (by simp [hpc, RunPc.packet]) (by simp)
        (by simp [hpc]) fun _ => .inl (by simp [hpc, RunPc.spent])
    case h_2 x q hq => cases h; exact .drain hpc hq
  case h_10 x hpc => cases h; exact .drained hpc
  case h_11 => cases h

theorem Fan.RunMove.live {k : ℕ} {o : RunInput} (h : s.RunMove cfg k o t) : (s.sessions k).pc ≠ .exited := by
  cases h with
  | goOn pc ho hx => exact hx
  | take hpc | send hpc | badSend hpc | giveUp hpc | evict hpc | drain hpc | drained hpc => simp [hpc]

/-- What a step of a session's goroutine leaves as it is. -/
structure Fan.RunFrame (s : Fan) (k : ℕ) (t : Fan) : Prop where
  streams : t.streams = s.streams
  /-- There is no new session. -/
  next : t.nextSession = s.nextSession
  /-- The other sessions. -/
  session : ∀ k', k' ≠ k → t.sessions k' = s.sessions k'
  /-- It is not told to stop. -/
  quit : (t.sessions k).quit = (s.sessions k).quit
  /-- The writers. -/
  client : ∀ c, (t.clients c).pc = (s.clients c).pc

theorem runFrame_setSession {k : ℕ} {f : Session → Session} (hq : (f (s.sessions k)).quit = (s.sessions k).quit) :
    s.RunFrame k (s.setSession k f) := by
  refine ⟨rfl, rfl, fun k' hk => ?_, ?_, fun _ => rfl⟩
  · simp [Fan.setSession, hk]
  · simpa [Fan.setSession] using hq

theorem Fan.RunMove.frame {k : ℕ} {o : RunInput} (h : s.RunMove cfg k o t) : s.RunFrame k t := by
  have hclient {c : ℕ} {f : Client → Client} {pc : RunPc} (hf : (f (s.clients c)).pc = (s.clients c).pc) :
      s.RunFrame k ((s.setClient c f).runAt k pc) := by
    refine ⟨rfl, rfl, fun k' hk => ?_, ?_, fun c' => ?_⟩
    · simp [Fan.runAt, Fan.setSession, Fan.setClient, hk]
    · simp [Fan.runAt, Fan.setSession, Fan.setClient]
    · by_cases hc : c' = c <;> simp [Fan.runAt, Fan.setSession, Fan.setClient, hc, hf]
  cases h with
  | take | goOn | drain => exact runFrame_setSession rfl
  | giveUp | drained => exact { runFrame_setSession (s := s.release cfg _) rfl with }
  | badSend => exact ⟨rfl, rfl, fun _ _ => rfl, rfl, fun _ => rfl⟩
  | send => exact hclient rfl
  | evict => exact hclient (Client.pc_destroy _)

theorem Fan.RunMove.spent {k : ℕ} {o : RunInput} (h : s.RunMove cfg k o t) (ht : (t.sessions k).pc.spent = true) :
    (s.sessions k).pc.spent = true ∨ (s.sessions k).quit = true ∨ s.done = true ∨
      (t.clients (s.sessions k).client).destroyed = true := by
  cases h with
  | goOn pc ho hx hb hp hd he hs => exact hs (by simpa [Fan.runAt, Fan.setSession] using ht)
  | badSend => exact .inl ht
  | take | send | giveUp => simp [Fan.runAt, Fan.setSession, RunPc.spent] at ht
  | evict => exact .inr (.inr (.inr (by simp [Fan.runAt, Fan.setSession, Fan.setClient])))
  | drain hpc | drained hpc => exact .inl (by simp [hpc, RunPc.spent])

/-- A writer that has left its loop, or is about to. -/
def WriterPc.failed : WriterPc → Bool
  | .put _ false | .drain | .drainPut _ | .exited => true
  | _ => false

/-- A step of `Client.writer`. -/
inductive Fan.WriterMove (cfg : Config) (s : Fan) (c : ℕ) : WriterInput → Fan → Prop
  /-- It goes on with what it has. -/
  | goOn {o : WriterInput} (f : Client → Client) (ho : ∀ ok, o ≠ .wrote ok)
      (hb : (f (s.clients c)).bufs = (s.clients c).bufs)
      (hd : (f (s.clients c)).destroyed = (s.clients c).destroyed) (hp : ∀ x, (f (s.clients c)).pc ≠ .put x true)
      (hf : (f (s.clients c)).pc.failed = true → (s.clients c).pc.failed = true ∨ s.done = true ∨
        (s.clients c).closed = true) : WriterMove cfg s c o (s.setClient c f)
  /-- A write returns. -/
  | wrote {x : Slice} (ok : Bool) (hpc : (s.clients c).pc = .write x) :
      WriterMove cfg s c (.wrote ok) (s.setClient c fun cl =>
        { cl with written := cl.written ++ [⟨x.stream, s.content x⟩], pc := .put x ok })
  /-- It returns the buffer that it has written. -/
  | put {x : Slice} (hpc : (s.clients c).pc = .put x true) :
      WriterMove cfg s c .next ((s.release cfg x).writerAt c .loop)
  /-- It returns a buffer that it has not. -/
  | drained {x : Slice} (hf : (s.clients c).pc.failed = true) (hb : (s.clients c).pc.bufs = [x.buf]) :
      WriterMove cfg s c .next ((s.release cfg x).writerAt c .drain)

theorem writerMove_of_stepWriter {c : ℕ} {o : WriterInput} (h : s.stepWriter cfg c o = some t) :
    s.WriterMove cfg c o t := by
  unfold Fan.stepWriter at h
  dsimp only at h
  split at h
  case h_1 hpc => -- loop, done
    obtain ⟨hd, ⟨⟩⟩ := Option.ite_none_right_eq_some.mp h
    exact .goOn _ (by simp) (by simp [Client.bufs, WriterPc.bufs, hpc]) rfl (by simp) fun _ => .inr (.inl hd)
  case h_2 hpc => -- loop, data
    split at h
    · obtain ⟨hcl, ⟨⟩⟩ := Option.ite_none_right_eq_some.mp h
      exact .goOn _ (by simp) (by simp [Client.bufs, WriterPc.bufs, hpc]) rfl (by simp) fun _ => .inr (.inr hcl)
    case h_2 x q hq =>
      cases h
      exact .goOn _ (by simp) (by simp [Client.bufs, WriterPc.bufs, hpc, hq]) rfl (by simp) (by simp [WriterPc.failed])
  case h_3 x ok hpc => cases h; exact .wrote ok hpc
  case h_4 x ok hpc => -- put
    cases h
    cases ok with
    | true => exact .put hpc
    | false => exact .drained (by simp [hpc, WriterPc.failed]) (by simp [hpc, WriterPc.bufs])
  case h_5 hpc => -- drain
    split at h
    · obtain ⟨-, ⟨⟩⟩ := Option.ite_none_right_eq_some.mp h
      exact .goOn _ (by simp) (by simp [Client.bufs, WriterPc.bufs, hpc]) rfl (by simp)
        fun _ => .inl (by simp [hpc, WriterPc.failed])
    case h_2 x q hq =>
      cases h
      exact .goOn _ (by simp) (by simp [Client.bufs, WriterPc.bufs, hpc, hq]) rfl (by simp)
        fun _ => .inl (by simp [hpc, WriterPc.failed])
  case h_6 x hpc => -- drainPut
    cases h
    exact .drained (by simp [hpc, WriterPc.failed]) (by simp [hpc, WriterPc.bufs])
  case h_7 => cases h

/-- What a step of a writer leaves as it is. -/
structure Fan.WriterFrame (s : Fan) (c : ℕ) (t : Fan) : Prop where
  streams : t.streams = s.streams
  /-- There is no new session. -/
  next : t.nextSession = s.nextSession
  sessions : t.sessions = s.sessions
  /-- The other clients. -/
  client : ∀ c', c' ≠ c → t.clients c' = s.clients c'

theorem Fan.WriterMove.frame {c : ℕ} {o : WriterInput} (h : s.WriterMove cfg c o t) : s.WriterFrame c t := by
  cases h with
  | goOn | wrote | put | drained => exact ⟨rfl, rfl, rfl, fun c' hc => Function.update_of_ne hc _ _⟩

theorem Fan.WriterMove.failed {c : ℕ} {o : WriterInput} (h : s.WriterMove cfg c o t)
    (ht : (t.clients c).pc.failed = true) :
    (s.clients c).pc.failed = true ∨ s.done = true ∨ (s.clients c).closed = true ∨ o = .wrote false := by
  cases h with
  | goOn f ho hb hd hp hf =>
    rcases hf (by simpa [Fan.setClient] using ht) with h | h | h
    · exact .inl h
    · exact .inr (.inl h)
    · exact .inr (.inr (.inl h))
  | wrote ok hpc =>
    cases ok with
    | true => simp [Fan.setClient, WriterPc.failed] at ht
    | false => exact .inr (.inr (.inr rfl))
  | put => simp [Fan.writerAt, Fan.setClient, WriterPc.failed] at ht
  | drained hf => exact .inl hf

/-- A step of `dispatch` after its critical section. -/
inductive Fan.ReadMove (cfg : Config) (s : Fan) (r : ℕ) (o : Option ℕ) : Fan → Prop
  /-- There are no more targets. -/
  | finish {packet : Bytes} (hl : (s.streams r).loop = .reading (.next packet [])) :
      ReadMove cfg s r o (s.setLoop r (.reading .idle))
  /-- It gets a buffer. -/
  | get {packet : Bytes} {u : Target} {targets : List Target} {g : Fan} {buf : ℕ}
      (hl : (s.streams r).loop = .reading (.next packet (u :: targets))) (hg : s.getBuf cfg o = some (g, buf)) :
      ReadMove cfg s r o (g.setLoop r (.reading (.got packet u buf targets)))
  /-- It fills its buffer. -/
  | fill {packet : Bytes} {u : Target} {buf : ℕ} {targets : List Target}
      (hl : (s.streams r).loop = .reading (.got packet u buf targets)) :
      ReadMove cfg s r o ((s.setBuf buf (clientPacket packet u.clientChannel ++ (s.heap buf).drop packet.length)).setLoop r
        (.reading (.push packet u buf targets)))
  /-- Its buffer is too small. -/
  | badSlice {packet : Bytes} {u : Target} {buf : ℕ} {targets : List Target}
      (hl : (s.streams r).loop = .reading (.got packet u buf targets)) : ReadMove cfg s r o { s with panicked := true }
  /-- It hands the buffer to the target's session. -/
  | push {packet : Bytes} {u : Target} {buf : ℕ} {targets : List Target}
      (hl : (s.streams r).loop = .reading (.push packet u buf targets)) :
      ReadMove cfg s r o ((s.setSession u.session fun cs =>
        { cs with queue := cs.queue ++ [⟨r, buf, packet.length⟩] }).setLoop r (.reading (.next packet targets)))
  /-- The session has no room. -/
  | refuse {packet : Bytes} {u : Target} {buf : ℕ} {targets : List Target}
      (hl : (s.streams r).loop = .reading (.push packet u buf targets)) :
      ReadMove cfg s r o (s.setLoop r (.reading (.refused packet buf targets)))
  /-- It gives the buffer back. -/
  | putBack {packet : Bytes} {buf : ℕ} {targets : List Target}
      (hl : (s.streams r).loop = .reading (.refused packet buf targets)) :
      ReadMove cfg s r o ((s.setPool (buf :: s.pool)).setLoop r (.reading (.next packet targets)))

theorem readMove_of_stepDispatch {r : ℕ} {o : Option ℕ} (h : s.stepDispatch cfg r o = some t) :
    s.ReadMove cfg r o t := by
  unfold Fan.stepDispatch at h
  split at h
  case h_1 packet hl => cases h; exact .finish hl
  case h_2 packet u targets hl =>
    obtain ⟨⟨g, buf⟩, hg, rfl⟩ := Option.map_eq_some_iff.mp h
    exact .get hl hg
  case h_3 packet u buf targets hl =>
    split at h <;> cases h
    · exact .badSlice hl
    · exact .fill hl
  case h_4 packet u buf targets hl =>
    split at h <;> cases h
    · exact .push hl
    · exact .refuse hl
  case h_5 packet buf targets hl => cases h; exact .putBack hl
  case h_6 => cases h

theorem getBuf_frame {o : Option ℕ} {g : Fan} {buf : ℕ} (h : s.getBuf cfg o = some (g, buf)) :
    g.streams = s.streams ∧ g.sessions = s.sessions ∧ g.clients = s.clients ∧ g.nextSession = s.nextSession := by
  cases o with
  | none => cases h; exact ⟨rfl, rfl, rfl, rfl⟩
  | some b =>
    obtain ⟨-, ⟨⟩⟩ := Option.ite_none_right_eq_some.mp h
    exact ⟨rfl, rfl, rfl, rfl⟩

theorem Fan.Owned.getBuf (h : s.Owned) {o : Option ℕ} {g : Fan} {buf : ℕ} (hg : s.getBuf cfg o = some (g, buf)) :
    buf = o.getD s.nextBuf ∧ ∀ p, p ≠ .pool → buf ∉ s.held p := by
  cases o with
  | none =>
    cases hg
    exact ⟨rfl, fun p _ hb => Nat.lt_irrefl _ (h.known hb)⟩
  | some b =>
    obtain ⟨hb, ⟨⟩⟩ := Option.ite_none_right_eq_some.mp hg
    exact ⟨rfl, fun p hp hmem => hp (h.unique hmem (q := .pool) hb)⟩

/-! ### The other steps -/

/-- The goroutines of the sessions and the clients are where they were. -/
structure Fan.Calm (s t : Fan) : Prop where
  session : ∀ k < s.nextSession, (t.sessions k).pc = (s.sessions k).pc
  /-- A new session is in its loop. -/
  fresh : ∀ k < t.nextSession, s.nextSession ≤ k → (t.sessions k).pc = .select ∧ (t.sessions k).quit = false
  /-- A session is told to stop when its client is removed. -/
  quit : ∀ k < s.nextSession, (t.sessions k).quit = true → (s.sessions k).quit = true ∨ t.Over k
  /-- The writers. -/
  client : ∀ c, (t.clients c).pc = (s.clients c).pc

/-- There is no new session, and none is told to stop. -/
theorem calm_of_same (hn : t.nextSession = s.nextSession)
    (hss : ∀ k, (t.sessions k).pc = (s.sessions k).pc ∧ (t.sessions k).quit = (s.sessions k).quit)
    (hc : ∀ c, (t.clients c).pc = (s.clients c).pc) : s.Calm t := by
  refine ⟨fun k _ => (hss k).1, fun k hk hks => ?_, fun k _ hq => .inl ((hss k).2 ▸ hq), hc⟩
  exact absurd (hn ▸ hk) (Nat.not_lt.mpr hks)

/-- What `dispatch` leaves as it is after its critical section. -/
structure Fan.ReadFrame (s : Fan) (r : ℕ) (t : Fan) : Prop extends s.Calm t where
  /-- There is no new session. -/
  next : t.nextSession = s.nextSession
  /-- The other streams. -/
  streams : ∀ r', r' ≠ r → t.streams r' = s.streams r'
  /-- No frame is dispatched. -/
  history : (t.streams r).history = (s.streams r).history
  /-- The buffers that others have. -/
  held : ∀ p, p ≠ .pool → p ≠ .reader r → s.held p ⊆ t.held p

theorem readFrame_setLoop {r : ℕ} {l : LoopPc} {g : Fan} (hs : g.streams = s.streams) (hss : g.sessions = s.sessions)
    (hc : g.clients = s.clients) (hn : g.nextSession = s.nextSession) : s.ReadFrame r (g.setLoop r l) := by
  refine ⟨calm_of_same hn (fun k => ?_) fun c => ?_, hn, fun r' hr => ?_, ?_, fun p hpool hr => ?_⟩
  · exact ⟨congrArg (fun f => (f k).pc) hss, congrArg (fun f => (f k).quit) hss⟩
  · exact congrArg (fun f => (f c).pc) hc
  · exact (Function.update_of_ne hr _ _).trans (congrFun hs r')
  · simp [Fan.setLoop, Fan.setStream, hs]
  · rw [held_setLoop, Function.update_of_ne hr]
    cases p with
    | pool => exact absurd rfl hpool
    | reader r' => simp [Fan.held, hs]
    | session k => simp [Fan.held, hss]
    | client c => simp [Fan.held, hc]

theorem Fan.ReadMove.frame {r : ℕ} {o : Option ℕ} (h : s.ReadMove cfg r o t) : s.ReadFrame r t := by
  cases h with
  | finish | fill | refuse | putBack => exact readFrame_setLoop rfl rfl rfl rfl
  | badSlice =>
    exact ⟨calm_of_same rfl (fun _ => ⟨rfl, rfl⟩) fun _ => rfl, rfl, fun _ _ => rfl, rfl, fun p _ _ => by cases p <;>
      exact fun _ => id⟩
  | get hl hg =>
    obtain ⟨hs, hss, hc, hn⟩ := getBuf_frame hg
    exact readFrame_setLoop hs hss hc hn
  | @push packet u buf targets hl =>
    refine ⟨calm_of_same rfl (fun k => ?_) fun _ => rfl, rfl, fun r' hr => Function.update_of_ne hr _ _, ?_,
      fun p hpool hr b hb => ?_⟩
    · by_cases hk : k = u.session <;> simp [Fan.setLoop, Fan.setStream, Fan.setSession, hk]
    · simp [Fan.setLoop, Fan.setStream, Fan.setSession]
    · rw [held_setLoop, Function.update_of_ne hr, held_setSession]
      by_cases hp : p = .session u.session
      · subst hp
        rw [Function.update_self]
        simp only [Fan.held, Session.bufs, List.map_append, List.mem_append] at hb ⊢
        exact hb.imp_right .inl
      · rw [Function.update_of_ne hp]
        exact hb

/-- Besides, nothing is handed over. -/
structure Fan.Rests (s t : Fan) : Prop extends s.Calm t where
  /-- The buffers. -/
  held : ∀ p, p ≠ .pool → (∀ k, p = .session k → k < s.nextSession) → t.held p = s.held p
  /-- The targets of the readers. -/
  targets : ∀ r, (t.streams r).loop.targets = (s.streams r).loop.targets
  /-- A reader is where it was, or outside of `dispatch`. -/
  loop : ∀ r, (t.streams r).loop = (s.streams r).loop ∨ (t.streams r).loop.Quiet
  /-- No frame is dispatched. -/
  history : ∀ r, (t.streams r).history = (s.streams r).history

theorem Fan.Rests.refl (s : Fan) : s.Rests s :=
  ⟨calm_of_same rfl (fun _ => ⟨rfl, rfl⟩) fun _ => rfl, fun _ _ _ => rfl, fun _ => rfl, fun _ => .inl rfl, fun _ => rfl⟩

theorem rests_setStream {r : ℕ} {f : Stream → Stream} (hl : (f (s.streams r)).loop = (s.streams r).loop)
    (hh : (f (s.streams r)).history = (s.streams r).history) : s.Rests (s.setStream r f) := by
  have hloop (r') : ((s.setStream r f).streams r').loop = (s.streams r').loop := by
    by_cases hr : r' = r <;> simp [Fan.setStream, hr, hl]
  refine ⟨calm_of_same rfl (fun _ => ⟨rfl, rfl⟩) fun _ => rfl, fun p _ _ => ?_, fun r' => by rw [hloop],
    fun r' => .inl (hloop r'), fun r' => ?_⟩
  · rw [held_setStream, hl]
    exact congrFun (Function.update_eq_self (.reader r) s.held) p
  · by_cases hr : r' = r <;> simp [Fan.setStream, hr, hh]

theorem rests_setClient {c : ℕ} {f : Client → Client} (hpc : (f (s.clients c)).pc = (s.clients c).pc)
    (hq : (f (s.clients c)).writeChan = (s.clients c).writeChan) : s.Rests (s.setClient c f) := by
  refine ⟨calm_of_same rfl (fun _ => ⟨rfl, rfl⟩) fun c' => ?_, fun p _ _ => ?_, fun _ => rfl, fun _ => .inl rfl,
    fun _ => rfl⟩
  · by_cases hc : c' = c <;> simp [Fan.setClient, hc, hpc]
  · have hb : (f (s.clients c)).bufs = s.held (.client c) := by
      unfold Client.bufs
      rw [hpc, hq]
      rfl
    rw [held_setClient, hb]
    exact congrFun (Function.update_eq_self (.client c) s.held) p

theorem rests_stepLoop {r : ℕ} {o : LoopInput} (h : s.stepLoop r o = some t) : s.Rests t := by
  have hquiet {l : LoopPc} (hs : (s.streams r).loop.Quiet) (hl : l.Quiet) : s.Rests (s.setLoop r l) := by
    refine ⟨calm_of_same rfl (fun _ => ⟨rfl, rfl⟩) fun _ => rfl, fun p _ _ => ?_, fun r' => ?_, fun r' => ?_, fun r' => ?_⟩
    · have hb : l.bufs = s.held (.reader r) := hl.bufs.trans hs.bufs.symm
      rw [held_setLoop, hb]
      exact congrFun (Function.update_eq_self (.reader r) s.held) p
    · by_cases hr : r' = r <;> simp [Fan.setLoop, Fan.setStream, hr, hl.targets, hs.targets]
    · by_cases hr : r' = r <;> simp [Fan.setLoop, Fan.setStream, hr, hl]
    · by_cases hr : r' = r <;> simp [Fan.setLoop, Fan.setStream, hr]
  unfold Fan.stepLoop at h
  split at h <;> cases h
  case h_2 => exact .refl s
  case h_1 hl | h_3 hl | h_4 hl | h_5 hl => exact hquiet (hl ▸ trivial) trivial

theorem rests_addClient (r c : ℕ) : s.Rests (s.addClient r c) := by
  unfold Fan.addClient
  split
  · exact .refl s
  · have hold {k} (hk : k < s.nextSession) : (s.register r c).sessions k = s.sessions k := by
      rw [sessions_register, if_neg (Nat.ne_of_lt hk)]
    refine ⟨⟨fun k hk => by rw [hold hk], fun k hk hks => ?_, fun k hk hq => ?_, fun _ => rfl⟩, fun p hp hk => ?_,
      fun r' => by rw [loop_register], fun r' => .inl (loop_register r c r'), fun r' => ?_⟩
    · obtain rfl : k = s.nextSession := Nat.le_antisymm (Nat.lt_succ_iff.mp hk) hks
      rw [sessions_register, if_pos rfl]
      exact ⟨rfl, rfl⟩
    · rw [hold hk] at hq
      exact .inl hq
    · cases p with
      | pool => exact absurd rfl hp
      | reader r' => exact congrArg LoopPc.bufs (loop_register r c r')
      | session k => exact congrArg Session.bufs (hold (hk k rfl))
      | client c' => rfl
    · by_cases hr : r' = r <;> simp [Fan.register, Fan.setStream, Fan.setSession, hr]

theorem rests_mapChannel (r c : ℕ) (upstreamChan clientChan : ℤ) :
    s.Rests (s.mapChannel r c upstreamChan clientChan) := by
  unfold Fan.mapChannel
  split
  case h_2 => exact .refl s
  case h_1 k hk =>
    refine ⟨calm_of_same rfl (fun k' => ?_) fun _ => rfl, fun p _ _ => ?_, fun _ => rfl, fun _ => .inl rfl, fun _ => rfl⟩
    · by_cases hkk : k' = k <;> simp [Fan.setSession, hkk]
    · rw [held_setSession]
      exact congrFun (Function.update_eq_self (.session k) s.held) p

theorem rests_stop (h : s.Registered) {r c k : ℕ} (hk : s.sessionOf r c = some k) :
    s.Rests ((s.setSession k fun cs => { cs with active := false, quit := true }).setStream r fun st =>
      { st with removing := some c }) := by
  set t := Fan.setStream _ r _ with ht
  have hsess (k') : (t.sessions k').pc = (s.sessions k').pc ∧ (t.sessions k').bufs = (s.sessions k').bufs := by
    by_cases hkk : k' = k <;> simp [ht, Fan.setStream, Fan.setSession, Session.bufs, hkk]
  have hloop (r') : (t.streams r').loop = (s.streams r').loop := by
    by_cases hr : r' = r <;> simp [ht, Fan.setStream, Fan.setSession, hr]
  refine ⟨⟨fun k' _ => (hsess k').1, fun k' hk' hks => absurd hk' (Nat.not_lt.mpr hks), fun k' hk' hq => ?_,
    fun _ => rfl⟩, fun p hp _ => ?_, fun r' => by rw [hloop], fun r' => .inl (hloop r'), fun r' => ?_⟩
  · by_cases hkk : k' = k
    · -- it is the one whose client is being removed
      subst hkk
      obtain ⟨-, hr, hc⟩ := h.entry hk
      refine .inr (.inr (.inr (.inl ?_)))
      simp [ht, Fan.setStream, Fan.setSession, hr, hc]
    · exact .inl (by simpa [ht, Fan.setStream, Fan.setSession, hkk] using hq)
  · cases p with
    | pool => exact absurd rfl hp
    | reader r' => exact congrArg LoopPc.bufs (hloop r')
    | session k' => exact (hsess k').2
    | client c' => rfl
  · by_cases hr : r' = r <;> simp [ht, Fan.setStream, Fan.setSession, hr]

theorem rests_removeClient (h : s.Registered) (r c : ℕ) : s.Rests (s.removeClient r c) := by
  unfold Fan.removeClient
  split
  case h_2 => exact .refl s
  case h_1 k hk =>
    split
    case isFalse => exact rests_setStream rfl rfl
    case isTrue =>
      split
      · exact { Fan.Rests.refl s with }
      · exact rests_stop h hk

/-- The actions that hand nothing over. -/
def Act.isCalm : Act → Bool
  | .dispatch _ _ _ | .dispatching _ _ | .run _ _ | .writer _ _ => false
  | _ => true

/-- **What the handlers and `connectLoop` leave as it is.** -/
theorem rests_of_step {a : Act} (ha : a.isCalm = true) (h : s.Registered) (hs : s.step cfg a = some t) : s.Rests t := by
  obtain ⟨-, hs⟩ := Option.ite_none_left_eq_some.mp hs
  cases a with
  | loop r o => exact rests_stepLoop hs
  | addClient r c =>
    obtain ⟨-, ⟨⟩⟩ := Option.ite_none_right_eq_some.mp hs
    exact rests_addClient r c
  | mapChannel r c upstreamChan clientChan =>
    obtain ⟨-, ⟨⟩⟩ := Option.ite_none_right_eq_some.mp hs
    exact rests_mapChannel r c upstreamChan clientChan
  | removeClient r c =>
    obtain ⟨-, ⟨⟩⟩ := Option.ite_none_right_eq_some.mp hs
    exact rests_removeClient h r c
  | stopped r =>
    obtain ⟨c, -, hs⟩ := Option.bind_eq_some_iff.mp hs
    obtain ⟨k, -, hs⟩ := Option.bind_eq_some_iff.mp hs
    obtain ⟨-, ⟨⟩⟩ := Option.ite_none_right_eq_some.mp hs
    exact rests_setStream rfl rfl
  | destroy c =>
    cases hs
    exact rests_setClient (Client.pc_destroy _) (Client.writeChan_destroy _)
  | close c =>
    obtain ⟨-, hs⟩ := Option.ite_none_left_eq_some.mp hs
    split at hs <;> cases hs
    · exact { Fan.Rests.refl s with }
    · exact rests_setClient rfl rfl
  | cancel => cases hs; exact { Fan.Rests.refl s with quit := fun _ _ => .inl }
  | dispatch | dispatching | run | writer => cases ha

/-! ### Ends -/

/-- How the goroutines end. -/
structure Fan.Ends (s : Fan) : Prop where
  /-- Sessions are told to stop when their clients are removed. -/
  quit : ∀ k < s.nextSession, (s.sessions k).quit = true → s.Over k
  /-- A session that does not send any more is over. -/
  ended : ∀ k < s.nextSession, (s.sessions k).pc.spent = true → s.Over k
  /-- A writer has left its loop because its client was destroyed, or the server is shutting down. -/
  failed : ∀ c, (s.clients c).pc.failed = true → (s.clients c).destroyed = true ∨ s.done = true

theorem ends_newFan : newFan.Ends := ⟨nofun, nofun, nofun⟩

theorem Fan.Ends.calm (h : s.Ends) (hp : s.Persists t) (hc : s.Calm t) : t.Ends := by
  refine ⟨fun k hk hq => ?_, fun k hk hs => ?_, fun c hf => ?_⟩
  · by_cases hks : k < s.nextSession
    · exact (hc.quit k hks hq).elim (fun hq => hp.over hks (h.quit k hks hq)) id
    · rw [(hc.fresh k hk (Nat.not_lt.mp hks)).2] at hq
      cases hq
  · by_cases hks : k < s.nextSession
    · rw [hc.session k hks] at hs
      exact hp.over hks (h.ended k hks hs)
    · rw [(hc.fresh k hk (Nat.not_lt.mp hks)).1] at hs
      cases hs
  · rw [hc.client c] at hf
    exact (h.failed c hf).imp (hp.destroyed c) hp.done

theorem Fan.Ends.run (h : s.Ends) (hreg : s.Registered) (hp : s.Persists t) {k : ℕ} {o : RunInput}
    (hm : s.RunMove cfg k o t) : t.Ends := by
  have hf := hm.frame
  have hk : k < s.nextSession := (hreg.entry (hreg.live k hm.live)).1
  refine ⟨fun k' hk' hq => ?_, fun k' hk' hs => ?_, fun c hc => ?_⟩
  · have hsame : (t.sessions k').quit = (s.sessions k').quit := by
      by_cases hkk : k' = k
      · rw [hkk]
        exact hf.quit
      · rw [hf.session k' hkk]
    rw [hf.next] at hk'
    exact hp.over hk' (h.quit k' hk' (hsame ▸ hq))
  · rw [hf.next] at hk'
    by_cases hkk : k' = k
    · subst hkk
      rcases hm.spent hs with hs | hq | hd | hd
      · exact hp.over hk (h.ended k' hk hs)
      · exact hp.over hk (h.quit k' hk hq)
      · exact .inr (.inr (.inr (hp.done hd)))
      · exact .inl ((hp.session k' hk).1 ▸ hd)
    · rw [hf.session k' hkk] at hs
      exact hp.over hk' (h.ended k' hk' hs)
  · rw [hf.client c] at hc
    exact (h.failed c hc).imp (hp.destroyed c) hp.done

/-- A writer goes on; if a write fails, its client has been destroyed. -/
theorem Fan.Ends.writer (h : s.Ends) (honce : ∀ c, (s.clients c).Once) (hp : s.Persists t) {c : ℕ} {o : WriterInput}
    (hc : o = .wrote false → (s.clients c).destroyed = true ∨ s.done = true) (hm : s.WriterMove cfg c o t) :
    t.Ends := by
  have hf := hm.frame
  refine ⟨fun k hk hq => ?_, fun k hk hs => ?_, fun c' hfail => ?_⟩
  · rw [hf.next] at hk
    exact hp.over hk (h.quit k hk (hf.sessions ▸ hq))
  · rw [hf.next] at hk
    exact hp.over hk (h.ended k hk (hf.sessions ▸ hs))
  · have hbefore : (s.clients c').destroyed = true ∨ s.done = true := by
      by_cases hcc : c' = c
      · subst hcc
        rcases hm.failed hfail with hfail | hd | hcl | ho
        · exact h.failed c' hfail
        · exact .inr hd
        · exact .inl ((honce c').destroyed hcl)
        · exact hc ho
      · rw [hf.client c' hcc] at hfail
        exact h.failed c' hfail
    exact hbefore.imp (hp.destroyed c') hp.done

/-- **One step**, if a write fails only to a client that has been destroyed. -/
theorem Fan.Ends.step (h : s.Ends) (hreg : s.Registered) (honce : ∀ c, (s.clients c).Once) {a : Act}
    (hc : ∀ c, a = .writer c (.wrote false) → (s.clients c).destroyed = true ∨ s.done = true)
    (hs : s.step cfg a = some t) : t.Ends := by
  have hp := persists_of_step hs
  by_cases ha : a.isCalm = true
  · exact h.calm hp (rests_of_step ha hreg hs).toCalm
  · obtain ⟨-, hs⟩ := Option.ite_none_left_eq_some.mp hs
    cases a with
    | dispatch r f targets =>
      obtain ⟨-, ⟨⟩⟩ := Option.ite_none_right_eq_some.mp hs
      exact h.calm hp (calm_of_same rfl (fun _ => ⟨rfl, rfl⟩) fun _ => rfl)
    | dispatching r o => exact h.calm hp (readMove_of_stepDispatch hs).frame.toCalm
    | run k o => exact h.run hreg hp (runMove_of_stepRun hs)
    | writer c o => exact h.writer honce hp (fun ho => hc c (by rw [ho])) (writerMove_of_stepWriter hs)
    | _ => exact absurd rfl ha

end RtspProxy.Fanout
