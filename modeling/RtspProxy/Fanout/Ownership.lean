import RtspProxy.Fanout.Effect
import RtspProxy.Theory.Ownership

/-!
# Who has a buffer, and whose a session is

## What is proved

* `Owned.effect` — a buffer is in the pool, with one reader, with one session or with one
  client, and there once.
* `Registered.effect` — a session whose goroutine has not ended is the one registered session of
  its client and stream.
-/

namespace RtspProxy.Fanout

open Theory Wire

variable {cfg : Config} {s t : Fan}

/-! ### Buffers -/

/-- Where a buffer can be. -/
inductive Place where
  /-- In `packetPool`. -/
  | pool
  /-- With the reader of a stream. -/
  | reader (r : ℕ)
  /-- In a session's queue, or with its goroutine. -/
  | session (k : ℕ)
  /-- In a client's `writeChan`, or with its writer. -/
  | client (c : ℕ)
  deriving DecidableEq, Repr

/-- The buffers at a place. -/
def Fan.held (s : Fan) : Place → List ℕ
  | .pool => s.pool
  | .reader r => (s.streams r).loop.bufs
  | .session k => (s.sessions k).bufs
  | .client c => (s.clients c).bufs

/-- Each buffer made is in one place at most, once. -/
def Fan.Owned (s : Fan) : Prop := Theory.Owned (· < s.nextBuf) s.held

@[simp] theorem held_setStream (r : ℕ) (f : Stream → Stream) :
    (s.setStream r f).held = Function.update s.held (.reader r) (f (s.streams r)).loop.bufs := by
  funext p
  rcases p with _ | r' | _ | _ <;> try rfl
  by_cases h : r' = r <;> simp [Fan.held, Fan.setStream, h]

@[simp] theorem held_setLoop (r : ℕ) (l : LoopPc) :
    (s.setLoop r l).held = Function.update s.held (.reader r) l.bufs := held_setStream r _

@[simp] theorem loop_setLoop (r : ℕ) (l : LoopPc) : ((s.setLoop r l).streams r).loop = l := by
  simp [Fan.setLoop, Fan.setStream]

@[simp] theorem held_setSession (k : ℕ) (f : Session → Session) :
    (s.setSession k f).held = Function.update s.held (.session k) (f (s.sessions k)).bufs := by
  funext p
  rcases p with _ | _ | k' | _ <;> try rfl
  by_cases h : k' = k <;> simp [Fan.held, Fan.setSession, h]

@[simp] theorem held_setClient (c : ℕ) (f : Client → Client) :
    (s.setClient c f).held = Function.update s.held (.client c) (f (s.clients c)).bufs := by
  funext p
  rcases p with _ | _ | _ | c' <;> try rfl
  by_cases h : c' = c <;> simp [Fan.held, Fan.setClient, h]

@[simp] theorem held_setPool (pool : List ℕ) : (s.setPool pool).held = Function.update s.held .pool pool := by
  funext p
  cases p <;> simp [Fan.held, Fan.setPool]

theorem owned_newFan : newFan.Owned := by
  have hnil (p : Place) : newFan.held p = [] := by cases p <;> rfl
  exact ⟨fun p => hnil p ▸ List.nodup_nil, fun {p q a} ha => by simp [hnil] at ha,
    fun {p a} ha => by simp [hnil] at ha⟩

/-- A buffer that leaves a place for the pool, or is dropped. -/
theorem Fan.Owned.release (h : s.Owned) (x : Slice) {p : Place} {l : List ℕ} (hp : s.held p = x.buf :: l)
    (hpp : p ≠ .pool) : Theory.Owned (· < s.nextBuf) (Function.update (s.release cfg x).held p l) := by
  rw [Fan.release, held_setPool, Function.update_comm hpp.symm]
  split
  · exact h.move (hp ▸ .refl _) hpp (.refl _)
  · refine (h.shrink (l := l) ?_).shrink ?_
    · rw [hp]
      exact (List.sublist_cons_self _ _).subperm
    · rw [Function.update_of_ne hpp.symm]
      exact .refl _

/-- **Buffers are in one place at a time, whatever is done.** -/
theorem Fan.Owned.effect (h : s.Owned) (he : Effect cfg s t) : t.Owned := by
  have hsame {p : Place} {l : List ℕ} (hl : l = s.held p) : Theory.Owned (· < s.nextBuf) (Function.update s.held p l) :=
    h.shrink (hl ▸ .refl _)
  cases he with
  | flags done panicked => exact h
  | loop r l hl =>
    show Theory.Owned _ (s.setLoop r l).held
    rw [held_setLoop, hl.bufs]
    exact h.shrink List.nil_subperm
  | dispatch r f targets hl hlen ht =>
    show Theory.Owned _ (s.setStream r _).held
    rw [held_setStream]
    exact h.shrink List.nil_subperm
  | @take r packet t targets buf hl hb =>
    show Theory.Owned _ ((s.setPool _).setLoop r _).held
    rw [held_setLoop, held_setPool]
    exact h.move (List.perm_cons_erase hb) (by simp) (by simp [Fan.held, LoopPc.bufs, hl])
  | @make r packet t targets hl =>
    show Theory.Owned (· < s.nextBuf + 1) (Fan.setLoop _ r _).held
    rw [held_setLoop]
    refine (h.mono fun b hb => Nat.lt_succ_of_lt hb).add (Nat.lt_succ_self s.nextBuf) (fun p hp => ?_) ?_
    · exact absurd (h.known hp) (Nat.lt_irrefl _)
    · simp [LoopPc.bufs]
  | @fill r packet t buf targets hl =>
    show Theory.Owned _ (Fan.setLoop _ r _).held
    rw [held_setLoop]
    exact hsame (by simp [Fan.held, hl, LoopPc.bufs])
  | @push r packet t buf targets hl =>
    show Theory.Owned _ ((s.setSession _ _).setLoop r _).held
    rw [held_setLoop, held_setSession, Function.update_comm (by simp)]
    refine h.move (a := buf) ?_ (by simp) ?_
    · simp [Fan.held, hl, LoopPc.bufs]
    · simp only [Fan.held, Session.bufs, List.map_append, List.map_cons, List.map_nil]
      rw [← List.append_assoc]
      exact (List.perm_append_singleton _ _).subperm
  | @refuse r packet t buf targets hl =>
    show Theory.Owned _ (s.setLoop r _).held
    rw [held_setLoop]
    exact hsame (by simp [Fan.held, hl, LoopPc.bufs])
  | @putBack r packet buf targets hl =>
    show Theory.Owned _ ((s.setPool _).setLoop r _).held
    rw [held_setLoop, held_setPool, Function.update_comm (by simp)]
    exact h.move (by simp [Fan.held, hl, LoopPc.bufs]) (by simp) (.refl _)
  | register r c hs =>
    show Theory.Owned _ (Fan.setStream (Fan.setSession _ _ _) r _).held
    rw [held_setStream, held_setSession]
    refine Theory.Owned.shrink (h.shrink List.nil_subperm) ?_
    rw [Function.update_of_ne (by simp)]
    exact .refl _
  | @stop r c k hs hr =>
    show Theory.Owned _ ((s.setSession _ _).setStream r _).held
    rw [held_setStream, held_setSession]
    refine Theory.Owned.shrink (hsame rfl) ?_
    rw [Function.update_of_ne (by simp)]
    exact .refl _
  | forget r c hs hr =>
    show Theory.Owned _ (s.setStream r _).held
    rw [held_setStream]
    exact hsame rfl
  | session k f hm hb =>
    show Theory.Owned _ (s.setSession k f).held
    rw [held_setSession]
    exact hsame hb
  | sessionPut k x f hm hb =>
    show Theory.Owned _ ((s.release cfg x).setSession k f).held
    rw [held_setSession]
    exact h.release x hb (by simp)
  | @send k x hpc =>
    show Theory.Owned _ ((s.setClient _ _).setSession k _).held
    rw [held_setSession, held_setClient, Function.update_comm (by simp)]
    refine h.move (a := x.buf) ?_ (by simp) ?_
    · simp [Fan.held, Session.bufs, hpc, RunPc.bufs, Fan.setClient]
    · simp only [Fan.held, Client.bufs, List.map_append, List.map_cons, List.map_nil]
      rw [← List.append_assoc]
      exact (List.perm_append_singleton _ _).subperm
  | client c f hb hl hw =>
    show Theory.Owned _ (s.setClient c f).held
    rw [held_setClient]
    exact hsame hb
  | @write c ok x hpc =>
    show Theory.Owned _ (s.setClient c _).held
    rw [held_setClient]
    exact hsame (by simp [Fan.held, Client.bufs, hpc, WriterPc.bufs])
  | clientPut c x f hb hl hw =>
    show Theory.Owned _ ((s.release cfg x).setClient c f).held
    rw [held_setClient]
    exact h.release x hb (by simp)

theorem Fan.Owned.step (h : s.Owned) {a : Act} (hs : s.step cfg a = some t) : t.Owned :=
  invariant_of_step Fan.Owned.effect h hs

/-! ### Sessions -/

/-- What holds of the registered clients and their sessions. -/
structure Fan.Registered (s : Fan) : Prop where
  /-- A registered session was made for its client and stream. -/
  entry : ∀ {r c k}, s.sessionOf r c = some k →
    k < s.nextSession ∧ (s.sessions k).stream = r ∧ (s.sessions k).client = c
  /-- A session whose goroutine has not ended is registered. -/
  live : ∀ k, (s.sessions k).pc ≠ .exited → s.sessionOf (s.sessions k).stream (s.sessions k).client = some k
  /-- A registered session is active, but for one that `RemoveClient` is waiting for. -/
  active : ∀ {r c k}, s.sessionOf r c = some k → (s.sessions k).active = true ∨ (s.streams r).removing = some c
  /-- A reader pushes to sessions of its stream. -/
  target : ∀ {r t}, t ∈ (s.streams r).loop.targets →
    t.session < s.nextSession ∧ (s.sessions t.session).stream = r
  /-- A session has frames of its stream. -/
  tagged : ∀ {k x}, x ∈ (s.sessions k).line → x.stream = (s.sessions k).stream

/-- Before the first frame there is no session. -/
theorem registered_newFan : newFan.Registered := ⟨nofun, fun _ hk => absurd rfl hk, nofun, nofun, nofun⟩

theorem Fan.Registered.of_eq (h : s.Registered) (hs : t.streams = s.streams) (hss : t.sessions = s.sessions)
    (hn : t.nextSession = s.nextSession) : t.Registered := by
  obtain ⟨streams, sessions, nextSession, _, _, _, _, _, _⟩ := t
  subst hs hss hn
  exact ⟨h.entry, h.live, h.active, h.target, h.tagged⟩

theorem sessionOf_setStream {r : ℕ} {f : Stream → Stream}
    (hreg : (f (s.streams r)).registered = (s.streams r).registered) :
    (s.setStream r f).sessionOf = s.sessionOf := by
  funext r' c
  by_cases hr : r' = r <;> simp [Fan.sessionOf, Fan.setStream, hr, hreg]

theorem Fan.Registered.setStream (h : s.Registered) {r : ℕ} {f : Stream → Stream}
    (hreg : (f (s.streams r)).registered = (s.streams r).registered)
    (hrem : (f (s.streams r)).removing = (s.streams r).removing)
    (ht : ∀ t ∈ (f (s.streams r)).loop.targets, t.session < s.nextSession ∧ (s.sessions t.session).stream = r) :
    (s.setStream r f).Registered := by
  have hof := sessionOf_setStream hreg
  refine ⟨fun hs => h.entry (hof ▸ hs), fun k hk => hof ▸ h.live k hk, fun {r' c k} hs => ?_,
    fun {r' t} hm => ?_, h.tagged⟩
  · rw [hof] at hs
    by_cases hr : r' = r
    · subst hr
      simpa [Fan.setStream, hrem] using h.active hs
    · simpa [Fan.setStream, hr] using h.active hs
  · by_cases hr : r' = r
    · subst hr
      exact ht t (by simpa [Fan.setStream] using hm)
    · exact h.target (by simpa [Fan.setStream, hr] using hm)

/-- The reader goes on with targets that it has. -/
theorem Fan.Registered.setLoop (h : s.Registered) {r : ℕ} {l : LoopPc}
    (hl : l.targets ⊆ (s.streams r).loop.targets) : (s.setLoop r l).Registered :=
  h.setStream rfl rfl fun _ ht => h.target (hl ht)

theorem Fan.Registered.setSession (h : s.Registered) {k : ℕ} {f : Session → Session}
    (hs : (f (s.sessions k)).stream = (s.sessions k).stream)
    (hc : (f (s.sessions k)).client = (s.sessions k).client)
    (ha : (f (s.sessions k)).active = (s.sessions k).active)
    (hx : (s.sessions k).pc = .exited → (f (s.sessions k)).pc = .exited)
    (hl : ∀ x ∈ (f (s.sessions k)).line, x.stream = (s.sessions k).stream) :
    (s.setSession k f).Registered := by
  have hstream (k') : ((s.setSession k f).sessions k').stream = (s.sessions k').stream := by
    by_cases hk : k' = k <;> simp [Fan.setSession, hk, hs]
  have hclient (k') : ((s.setSession k f).sessions k').client = (s.sessions k').client := by
    by_cases hk : k' = k <;> simp [Fan.setSession, hk, hc]
  have hactive (k') : ((s.setSession k f).sessions k').active = (s.sessions k').active := by
    by_cases hk : k' = k <;> simp [Fan.setSession, hk, ha]
  refine ⟨fun hs => ?_, fun k' hk' => ?_, fun hs => ?_, fun hm => ?_, fun {k' x} hm => ?_⟩
  · rw [hstream, hclient]
    exact h.entry hs
  · rw [hstream, hclient]
    refine h.live k' fun hpc => hk' ?_
    by_cases hk : k' = k
    · subst hk
      simpa [Fan.setSession] using hx hpc
    · simpa [Fan.setSession, hk] using hpc
  · rw [hactive]
    exact h.active hs
  · rw [hstream]
    exact h.target hm
  · rw [hstream]
    by_cases hk : k' = k
    · subst hk
      exact hl x (by simpa [Fan.setSession] using hm)
    · exact h.tagged (by simpa [Fan.setSession, hk] using hm)

theorem Fan.Registered.move (h : s.Registered) {k : ℕ} {f : Session → Session}
    (hm : (s.sessions k).Move (f (s.sessions k))) : (s.setSession k f).Registered :=
  h.setSession hm.stream hm.client hm.active hm.exited fun _ hx => h.tagged (hm.line.subset hx)

/-- The targets that `dispatch` selects are sessions of its stream. -/
theorem Fan.Registered.targets (h : s.Registered) {r : ℕ} {channel : ℤ} {t : Target}
    (ht : t ∈ s.targets r channel) : t.session < s.nextSession ∧ (s.sessions t.session).stream = r := by
  obtain ⟨⟨c, k⟩, he, ht⟩ := List.mem_filterMap.mp ht
  obtain ⟨ch, -, rfl⟩ := Option.map_eq_some_iff.mp ht
  obtain ⟨hk, hr, -⟩ := h.entry (AList.mem_lookup_iff.mpr he)
  exact ⟨hk, hr⟩

theorem sessionOf_register (r c r' c' : ℕ) :
    (s.register r c).sessionOf r' c' = if r' = r ∧ c' = c then some s.nextSession else s.sessionOf r' c' := by
  by_cases hr : r' = r
  · subst hr
    by_cases hc : c' = c
    · subst hc
      simp [Fan.sessionOf, Fan.register, Fan.setStream]
    · simp [Fan.sessionOf, Fan.register, Fan.setStream, Fan.setSession, hc]
  · simp [Fan.sessionOf, Fan.register, Fan.setStream, Fan.setSession, hr]

theorem sessions_register (r c k : ℕ) :
    (s.register r c).sessions k = if k = s.nextSession then newClientSession r c else s.sessions k := by
  by_cases hk : k = s.nextSession <;> simp [Fan.register, Fan.setStream, Fan.setSession, hk]

@[simp] theorem loop_register (r c r' : ℕ) : ((s.register r c).streams r').loop = (s.streams r').loop := by
  by_cases hr : r' = r <;> simp [Fan.register, Fan.setStream, Fan.setSession, hr]

@[simp] theorem removing_register (r c r' : ℕ) :
    ((s.register r c).streams r').removing = (s.streams r').removing := by
  by_cases hr : r' = r <;> simp [Fan.register, Fan.setStream, Fan.setSession, hr]

theorem Fan.Registered.register (h : s.Registered) {r c : ℕ} (hs : s.sessionOf r c = none) :
    (s.register r c).Registered := by
  have hold {k} (hk : k < s.nextSession) : (s.register r c).sessions k = s.sessions k := by
    rw [sessions_register, if_neg (Nat.ne_of_lt hk)]
  have hnew : (s.register r c).sessions s.nextSession = newClientSession r c := by
    rw [sessions_register, if_pos rfl]
  refine ⟨fun {r' c' k} hk => ?_, fun k hk => ?_, fun {r' c' k} hk => ?_, fun {r' u} hu => ?_, fun {k x} hx => ?_⟩
  · show k < s.nextSession + 1 ∧ _
    rw [sessionOf_register] at hk
    split at hk
    case isTrue hrc =>
      cases hk
      rw [hnew, hrc.1, hrc.2]
      exact ⟨Nat.lt_succ_self _, rfl, rfl⟩
    case isFalse =>
      obtain ⟨hlt, hr, hc⟩ := h.entry hk
      rw [hold hlt]
      exact ⟨Nat.lt_succ_of_lt hlt, hr, hc⟩
  · rw [sessions_register] at hk ⊢
    split at hk
    case isTrue hkn =>
      rw [if_pos hkn, sessionOf_register, if_pos ⟨rfl, rfl⟩, hkn]
    case isFalse hkn =>
      have hlive := h.live k hk
      rw [if_neg hkn, sessionOf_register, if_neg, hlive]
      rintro ⟨hr, hc⟩
      rw [hr, hc, hs] at hlive
      cases hlive
  · rw [removing_register]
    rw [sessionOf_register] at hk
    split at hk
    · cases hk
      exact .inl (hnew ▸ rfl)
    · rw [hold (h.entry hk).1]
      exact h.active hk
  · obtain ⟨hlt, hr⟩ := h.target (loop_register r c r' ▸ hu)
    rw [hold hlt]
    exact ⟨Nat.lt_succ_of_lt hlt, hr⟩
  · rw [sessions_register] at hx ⊢
    split at hx
    · cases hx
    case isFalse hkn =>
      rw [if_neg hkn]
      exact h.tagged hx

/-- `RemoveClient` stops a session, and waits for it. -/
theorem Fan.Registered.stop (h : s.Registered) {r c k : ℕ} (hs : s.sessionOf r c = some k)
    (hr : (s.streams r).removing = none) :
    ((s.setSession k fun cs => { cs with active := false, quit := true }).setStream r fun st =>
      { st with removing := some c }).Registered := by
  set t := Fan.setStream _ r _ with ht
  have hsess (k') : (t.sessions k').stream = (s.sessions k').stream ∧
      (t.sessions k').client = (s.sessions k').client ∧ (t.sessions k').pc = (s.sessions k').pc ∧
      (t.sessions k').queue = (s.sessions k').queue := by
    by_cases hk : k' = k <;> simp [ht, Fan.setStream, Fan.setSession, hk]
  have hof : t.sessionOf = s.sessionOf := sessionOf_setStream rfl
  refine ⟨fun {r' c' k'} hk => ?_, fun k' hk => ?_, fun {r' c' k'} hk => ?_, fun {r' u} hu => ?_,
    fun {k' x} hx => ?_⟩
  · rw [(hsess k').1, (hsess k').2.1]
    exact h.entry (hof ▸ hk)
  · rw [(hsess k').1, (hsess k').2.1, hof]
    exact h.live k' ((hsess k').2.2.1 ▸ hk)
  · rw [hof] at hk
    by_cases hkk : k' = k
    · -- it is the client's own session
      subst hkk
      obtain ⟨-, hr₁, hc₁⟩ := h.entry hs
      obtain ⟨-, hr₂, hc₂⟩ := h.entry hk
      obtain rfl : r' = r := by rw [← hr₂, hr₁]
      obtain rfl : c' = c := by rw [← hc₂, hc₁]
      exact .inr (by simp [ht, Fan.setStream])
    · have hact : (t.sessions k').active = (s.sessions k').active := by
        simp [ht, Fan.setStream, Fan.setSession, hkk]
      rw [hact]
      refine (h.active hk).imp_right fun hrem => ?_
      by_cases hr' : r' = r
      · rw [hr', hr] at hrem
        cases hrem
      · simpa [ht, Fan.setStream, Fan.setSession, hr'] using hrem
  · rw [(hsess u.session).1]
    refine h.target ?_
    by_cases hr' : r' = r <;> simpa [ht, Fan.setStream, Fan.setSession, hr'] using hu
  · rw [(hsess k').1]
    refine h.tagged ?_
    simpa [Session.line, (hsess k').2.2.1, (hsess k').2.2.2] using hx

theorem sessionOf_forget (r c r' c' : ℕ) :
    (s.forget r c).sessionOf r' c' = if r' = r ∧ c' = c then none else s.sessionOf r' c' := by
  by_cases hr : r' = r
  · subst hr
    by_cases hc : c' = c
    · subst hc
      simp [Fan.sessionOf, Fan.forget, Fan.setStream]
    · simp [Fan.sessionOf, Fan.forget, Fan.setStream, hc]
  · simp [Fan.sessionOf, Fan.forget, Fan.setStream, hr]

@[simp] theorem loop_forget (r c r' : ℕ) : ((s.forget r c).streams r').loop = (s.streams r').loop := by
  by_cases hr : r' = r <;> simp [Fan.forget, Fan.setStream, hr]

/-- `RemoveClient` deletes a session: its goroutine has ended. -/
theorem Fan.Registered.forget (h : s.Registered) {r c k : ℕ} (hs : s.sessionOf r c = some k)
    (hr : (s.streams r).removing = some c ∧ (s.sessions k).pc = .exited ∨
      (s.streams r).removing = none ∧ (s.sessions k).active = false) : (s.forget r c).Registered := by
  have hr : (s.streams r).removing = some c ∧ (s.sessions k).pc = .exited := by
    refine hr.resolve_right fun ⟨hrem, hact⟩ => ?_
    rcases h.active hs with ha | hr
    · rw [hact] at ha
      cases ha
    · rw [hrem] at hr
      cases hr
  have hof {r' c' k'} (hk : (s.forget r c).sessionOf r' c' = some k') :
      s.sessionOf r' c' = some k' ∧ ¬(r' = r ∧ c' = c) := by
    rw [sessionOf_forget] at hk
    split at hk
    · cases hk
    case isFalse hne => exact ⟨hk, hne⟩
  refine ⟨fun hk => h.entry (hof hk).1, fun k' hk => ?_, fun {r' c' k'} hk => ?_, fun hu => ?_, h.tagged⟩
  · have hlive := h.live k' hk
    show (s.forget r c).sessionOf (s.sessions k').stream (s.sessions k').client = some k'
    rw [sessionOf_forget, if_neg, hlive]
    rintro ⟨hr', hc'⟩
    rw [hr', hc', hs] at hlive
    cases hlive
    exact hk hr.2
  · obtain ⟨hk, hne⟩ := hof hk
    refine (h.active hk).imp_right fun hrem => ?_
    by_cases hr' : r' = r
    · rw [hr', hr.1] at hrem
      exact absurd ⟨hr', (Option.some.inj hrem).symm⟩ hne
    · simpa [Fan.forget, Fan.setStream, hr'] using hrem
  · exact h.target (loop_forget r c _ ▸ hu)

/-- **Sessions stay in order, whatever is done.** -/
theorem Fan.Registered.effect (h : s.Registered) (he : Effect cfg s t) : t.Registered := by
  have hpool (pool : List ℕ) : (s.setPool pool).Registered := h.of_eq rfl rfl rfl
  cases he with
  | flags done panicked => exact h.of_eq rfl rfl rfl
  | loop r l hl => exact h.setLoop (by simp [hl.targets])
  | dispatch r f targets hl hlen ht => exact h.setStream rfl rfl fun u hu => h.targets (ht.subset hu)
  | take r buf hl hb => exact (hpool _).setLoop (by simp [Fan.setPool, hl, LoopPc.targets])
  | make r hl =>
    exact (h.of_eq (t := s.newBuf cfg) rfl rfl rfl).setLoop
      (by simp [Fan.newBuf, Fan.setBuf, hl, LoopPc.targets])
  | fill r hl =>
    exact (h.of_eq (t := s.setBuf _ _) rfl rfl rfl).setLoop (by simp [Fan.setBuf, hl, LoopPc.targets])
  | @push r packet t buf targets hl =>
    have ht := h.target (r := r) (t := t) (by simp [hl, LoopPc.targets])
    refine Fan.Registered.setLoop (h.setSession rfl rfl rfl id fun x hx => ?_) ?_
    · rw [Session.line, ← List.append_assoc, List.mem_append, List.mem_singleton] at hx
      rcases hx with hx | rfl
      · exact h.tagged hx
      · exact ht.2.symm
    · simp [Fan.setSession, hl, LoopPc.targets]
  | refuse r hl => exact h.setLoop (by simp [hl, LoopPc.targets])
  | putBack r hl => exact (hpool _).setLoop (by simp [Fan.setPool, hl, LoopPc.targets])
  | register r c hs => exact h.register hs
  | stop r c hs hr => exact h.stop hs hr
  | forget r c hs hr => exact h.forget hs hr
  | session k f hm hb => exact h.move hm
  | sessionPut k x f hm hb => exact (hpool _).move hm
  | @send k x hpc =>
    refine (h.of_eq (t := s.setClient _ _) rfl rfl rfl).move ⟨rfl, rfl, rfl, fun hx => ?_, ?_⟩
    · simp [Fan.setClient, hpc] at hx
    · simp [Session.line, RunPc.hand]
  | client c f hb hl hw => exact h.of_eq rfl rfl rfl
  | write c ok hpc => exact h.of_eq rfl rfl rfl
  | clientPut c x f hb hl hw => exact h.of_eq rfl rfl rfl

theorem Fan.Registered.step (h : s.Registered) {a : Act} (hs : s.step cfg a = some t) : t.Registered :=
  invariant_of_step Fan.Registered.effect h hs

end RtspProxy.Fanout
