import RtspProxy.Fanout.Server

/-!
# Closing a client's channel

`Client.Destroy` closes `writeChan`, on which the client's sessions send. It is called by the
client's handler, after `RemoveClient` has waited for the session, and by the session itself. So
nobody sends on a closed channel, if a client has no session but the one that `RemoveClient` stops:
that with its current stream.

A request of a client whose `host` is still empty is resolved anew, and makes another stream the
current one. `GetStream` joins host and path without a separator, so such a client may well be
registered with a stream, one whose host it has named in the path. When it goes on to another
stream it leaves its session behind.

## What is proved

* `Server.Sound.step` — a client has no session but with its current stream, once it is destroyed
  its session sends no more, and no channel is closed twice, if no client leaves a stream with which
  it has a session.
* `safe_of_settled` — **in a run in which no client does, no session sends on a closed `writeChan`,
  and no `writeChan` or `quit` is closed twice.**
* `sends_after_close` — a client that goes on to another stream makes its session send on the
  closed channel.
-/

namespace RtspProxy.Fanout

open Theory Wire

variable {cfg : Config} {s t : Server}

/-! ### Requests for another stream -/

/-- A request of a client that has a session with its current stream is for this stream. -/
def Stays (s : Server) (c : ℕ) (request : Request) : Prop :=
  match (s.handlers c).current, (s.handlers c).client.resolve request with
  | some r, some (client, _) => s.fan.sessionOf r c = none ∨ (target client).key = (target (s.handlers c).client).key
  | _, _ => True

instance (s : Server) (c : ℕ) (request : Request) : Decidable (Stays s c request) :=
  match h : (s.handlers c).current, h' : (s.handlers c).client.resolve request with
  | some r, some (client, _) => decidable_of_iff
      (s.fan.sessionOf r c = none ∨ (target client).key = (target (s.handlers c).client).key) (by simp [Stays, h, h'])
  | none, _ => isTrue (by simp [Stays, h])
  | some _, none => isTrue (by simp [Stays, h, h'])

/-- The condition on a step. -/
def Settled (s : Server) : ServerAct → Prop
  | .request c request => Stays s c request
  | _ => True

instance (s : Server) : DecidablePred (Settled s)
  | .request c request => inferInstanceAs (Decidable (Stays s c request))
  | .other _ | .accept | .handler _ _ | .shutdown | .detach _ | .stop | .stopped => isTrue trivial

/-- Only a client without a host goes on to another stream. -/
theorem stays_of_host {c : ℕ} (h : (s.handlers c).client.host ≠ []) (request : Request) : Stays s c request := by
  have hsame : (s.handlers c).client.resolve request = some ((s.handlers c).client, request) := if_pos h
  unfold Stays
  rw [hsame]
  split
  case h_1 hsome =>
    cases hsome
    exact .inr rfl
  case h_2 => trivial

/-! ### The invariant -/

/-- The handler may have a session. -/
def HandlerPc.serving : HandlerPc → Bool
  | .absent | .destroying | .waiting | .returned => false
  | _ => true

/-- The stream that the handler works on. -/
def HandlerPc.stream : HandlerPc → Option ℕ
  | .setup r | .mapping r _ | .teardown r | .tearing r | .removing r => some r
  | _ => none

/-- What holds in every state. -/
structure Server.Sound (s : Server) : Prop where
  /-- Sessions are in order. -/
  registered : s.fan.Registered
  /-- A client has a session with its current stream only, and only while its handler serves it. -/
  single : ∀ {r c k}, s.fan.sessionOf r c = some k →
    (s.handlers c).current = some r ∧ (s.handlers c).pc.serving = true
  /-- A handler works on the current stream. -/
  stream : ∀ {c r}, (s.handlers c).pc.stream = some r → (s.handlers c).current = some r
  /-- The current stream is that of the client's target. -/
  current : ∀ {c r}, (s.handlers c).current = some r →
    ∃ v, s.manager.entries.lookup (target (s.handlers c).client).key = some (r, v)
  /-- Each `writeChan` is closed once. -/
  once : ∀ c, (s.fan.clients c).Once
  /-- The `quit` of an active session is open. -/
  quit : ∀ k, (s.fan.sessions k).active = true → (s.fan.sessions k).quit = false
  /-- The sessions of a destroyed client send no more. -/
  spent : ∀ k, (s.fan.clients (s.fan.sessions k).client).destroyed = true → (s.fan.sessions k).pc.spent = true
  /-- SETUP finds the session of a destroyed client. -/
  setup : ∀ {c r}, (s.fan.clients c).destroyed = true → (s.handlers c).pc = .setup r → s.fan.sessionOf r c ≠ none
  /-- Clients are numbered as they are accepted. -/
  accepted : ∀ c, s.accepted ≤ c → (s.handlers c).pc = .absent
  /-- After `Shutdown` no handler is left. -/
  shutdown : s.shutdown = true → ∀ c, (s.handlers c).pc = .absent ∨ (s.handlers c).pc = .returned
  /-- There is no session left for `Stream.Destroy` to stop. -/
  stopping : s.stopping = [] ∧ s.awaiting = none
  /-- Nothing has gone wrong. -/
  calm : s.fan.panicked = false

theorem sound_newServer : newServer.Sound where
  registered := registered_newFan
  single := nofun
  stream := nofun
  current := nofun
  once _ := ⟨nofun, rfl⟩
  quit := nofun
  spent _ _ := rfl
  setup := nofun
  accepted _ _ := rfl
  shutdown := nofun
  stopping := ⟨rfl, rfl⟩
  calm := rfl

/-! ### Steps of the `Fan` -/

/-- The sessions stay registered, and no client is destroyed. -/
theorem Server.Sound.of_fan (h : s.Sound) {fan : Fan} (hreg : fan.Registered) (hof : fan.sessionOf = s.fan.sessionOf)
    (hcl : ∀ c, (fan.clients c).destroyed = (s.fan.clients c).destroyed)
    (hsess : ∀ k, (fan.sessions k).client = (s.fan.sessions k).client ∧
      ((s.fan.sessions k).pc.spent = true → (fan.sessions k).pc.spent = true))
    (honce : ∀ c, (fan.clients c).Once)
    (hquit : ∀ k, (fan.sessions k).active = true → (fan.sessions k).quit = false)
    (hp : fan.panicked = s.fan.panicked) : Server.Sound { s with fan := fan } where
  registered := hreg
  single hk := h.single (hof ▸ hk)
  stream := h.stream
  current := h.current
  once := honce
  quit := hquit
  spent k hk := by
    rw [(hsess k).1, hcl] at hk
    exact (hsess k).2 (h.spent k hk)
  setup {c r} hd hpc := by
    rw [hcl] at hd
    show fan.sessionOf r c ≠ none
    rw [hof]
    exact h.setup hd hpc
  accepted := h.accepted
  shutdown := h.shutdown
  stopping := h.stopping
  calm := hp.trans h.calm

theorem Server.Sound.still (h : s.Sound) {fan : Fan} (hreg : fan.Registered) (hs : s.fan.Still fan) :
    Server.Sound { s with fan := fan } := by
  refine h.of_fan hreg hs.sessionOf (fun c => (hs.client c).1) (fun k => ⟨(hs.session k).1, hs.spent k⟩)
    (once_of_shift h.once (.still hs)) (fun k => ?_) hs.panicked
  obtain ⟨-, ha, hq⟩ := hs.session k
  rw [ha, hq]
  exact h.quit k

/-- A client has one session that has not ended. -/
theorem Server.Sound.live_unique (h : s.Sound) {k k' : ℕ} (hk : (s.fan.sessions k).pc ≠ .exited)
    (hk' : (s.fan.sessions k').pc ≠ .exited) (hc : (s.fan.sessions k').client = (s.fan.sessions k).client) : k' = k := by
  have hlive := h.registered.live k hk
  have hlive' := h.registered.live k' hk'
  rw [hc] at hlive'
  have hr := (h.single hlive).1.symm.trans (h.single hlive').1
  rw [← Option.some.inj hr, hlive] at hlive'
  exact (Option.some.inj hlive').symm

/-- A client is destroyed: none of its sessions is about to send, and SETUP will make no other. -/
theorem Server.Sound.destroy (h : s.Sound) {c : ℕ} {fan : Fan} (hreg : fan.Registered)
    (hof : fan.sessionOf = s.fan.sessionOf) (hcl : fan.clients = Function.update s.fan.clients c (s.fan.clients c).destroy)
    (hsess : ∀ k, (fan.sessions k).client = (s.fan.sessions k).client ∧
      (fan.sessions k).active = (s.fan.sessions k).active ∧ (fan.sessions k).quit = (s.fan.sessions k).quit ∧
      ((s.fan.sessions k).pc.spent = true → (fan.sessions k).pc.spent = true))
    (hspent : ∀ k, (s.fan.sessions k).client = c → (fan.sessions k).pc.spent = true)
    (hsetup : ∀ r, (s.handlers c).pc = .setup r → s.fan.sessionOf r c ≠ none) (hp : fan.panicked = s.fan.panicked) :
    Server.Sound { s with fan := fan } where
  registered := hreg
  single hk := h.single (hof ▸ hk)
  stream := h.stream
  current := h.current
  once c' := by
    show (fan.clients c').Once
    rw [hcl]
    exact once_update h.once (h.once c).destroy
  quit k := by
    obtain ⟨-, ha, hq, -⟩ := hsess k
    show (fan.sessions k).active = true → (fan.sessions k).quit = false
    rw [ha, hq]
    exact h.quit k
  spent k hk := by
    obtain ⟨hkc, -, -, hmono⟩ := hsess k
    rw [hkc, hcl] at hk
    by_cases hc : (s.fan.sessions k).client = c
    · exact hspent k hc
    · rw [Function.update_of_ne hc] at hk
      exact hmono (h.spent k hk)
  setup {c' r} hd hpc := by
    show fan.sessionOf r c' ≠ none
    rw [hof]
    by_cases hc : c' = c
    · subst hc
      exact hsetup r hpc
    · rw [hcl, Function.update_of_ne hc] at hd
      exact h.setup hd hpc
  accepted := h.accepted
  shutdown := h.shutdown
  stopping := h.stopping
  calm := hp.trans h.calm

theorem Server.Sound.evict (h : s.Sound) {k : ℕ} (hpc : (s.fan.sessions k).pc = .destroy) {fan : Fan}
    (hfan : fan = (s.fan.setClient (s.fan.sessions k).client Client.destroy).runAt k .waitWriter)
    (hreg : fan.Registered) : Server.Sound { s with fan := fan } := by
  have hlive : (s.fan.sessions k).pc ≠ .exited := by simp [hpc]
  have hother {k'} (hk : k' ≠ k) : fan.sessions k' = s.fan.sessions k' := by
    simp [hfan, Fan.runAt, Fan.setSession, Fan.setClient, hk]
  have hself : fan.sessions k = { s.fan.sessions k with pc := .waitWriter } := by
    simp [hfan, Fan.runAt, Fan.setSession, Fan.setClient]
  refine h.destroy (c := (s.fan.sessions k).client) hreg (by rw [hfan]; rfl) (by rw [hfan]; rfl) (fun k' => ?_)
    (fun k' hc => ?_) (fun r hr => ?_) (by rw [hfan]; rfl)
  · by_cases hk : k' = k
    · rw [hk, hself]
      exact ⟨rfl, rfl, rfl, fun _ => rfl⟩
    · rw [hother hk]
      exact ⟨rfl, rfl, rfl, id⟩
  · by_cases hk : k' = k
    · rw [hk, hself]
      rfl
    · -- another session of the client has ended
      rw [hother hk]
      have hx : (s.fan.sessions k').pc = .exited := by
        by_contra hx
        exact hk (h.live_unique hlive hx hc)
      rw [hx]
      rfl
  · -- the session is registered with the stream of the SETUP
    have hof := h.registered.live k hlive
    have hcur := (h.single hof).1.symm.trans (h.stream (r := r) (by rw [hr]; rfl))
    rw [← Option.some.inj hcur, hof]
    exact Option.some_ne_none k

theorem Server.Sound.close (h : s.Sound) {c : ℕ} (hc : (s.fan.clients c).closing ≠ 0)
    (ho : (s.fan.clients c).closed = false) {fan : Fan}
    (hfan : fan = s.fan.setClient c fun cl => { cl with closed := true, closing := cl.closing - 1 })
    (hreg : fan.Registered) : Server.Sound { s with fan := fan } := by
  subst hfan
  refine h.of_fan hreg rfl (fun c' => ?_) (fun k => ⟨rfl, id⟩) (once_of_shift h.once (.close c hc ho)) h.quit rfl
  by_cases hcc : c' = c <;> simp [Fan.setClient, hcc]

/-- **A step of a goroutine other than the handlers.** -/
theorem Server.Sound.shift (h : s.Sound) (hown : s.fan.Owned) (hsize : s.fan.Sized cfg) {fan : Fan}
    (hreg : fan.Registered) (hs : s.fan.Shift fan) : Server.Sound { s with fan := fan } := by
  cases hs with
  | still hs => exact h.still hreg hs
  | evict k hpc hd => exact h.evict hpc rfl hreg
  | close c hc ho => exact h.close hc ho rfl hreg
  | badSend k x hpc ho =>
    have hspent := h.spent k ((h.once _).destroyed ho)
    rw [hpc] at hspent
    cases hspent
  | badClose c hc ho =>
    have hone := (h.once c).closing
    rw [if_neg (by simp [ho])] at hone
    exact absurd hone hc
  | badSlice r packet u buf targets hl hlt =>
    have hp := hsize.packet r
    have hbuf : buf < s.fan.nextBuf := hown.known (p := .reader r) (by simp [Fan.held, hl, LoopPc.bufs])
    rw [hl] at hp
    rw [hsize.heap buf hbuf] at hlt
    exact absurd hp (Nat.not_le_of_lt hlt)

/-! ### Steps of the handlers -/

/-- While a handler runs there is no `Shutdown`. -/
theorem Server.Sound.not_shutdown (h : s.Sound) {c : ℕ} (ha : (s.handlers c).pc ≠ .absent)
    (hr : (s.handlers c).pc ≠ .returned) : s.shutdown = false := by
  by_contra hs
  exact (h.shutdown (by simpa using hs) c).elim ha hr

/-- The handler of a client changes, and the manager may have another stream. -/
theorem Server.Sound.setHandler (h : s.Sound) {c : ℕ} (hfan : t.fan = s.fan)
    (hother : ∀ c', c' ≠ c → t.handlers c' = s.handlers c')
    (hman : ∀ {key e}, s.manager.entries.lookup key = some e → t.manager.entries.lookup key = some e)
    (hsingle : ∀ {r k}, s.fan.sessionOf r c = some k →
      (t.handlers c).current = some r ∧ (t.handlers c).pc.serving = true)
    (hstream : ∀ {r}, (t.handlers c).pc.stream = some r → (t.handlers c).current = some r)
    (hcurrent : ∀ {r}, (t.handlers c).current = some r →
      ∃ v, t.manager.entries.lookup (target (t.handlers c).client).key = some (r, v))
    (hsetup : ∀ {r}, (s.fan.clients c).destroyed = true → (t.handlers c).pc ≠ .setup r)
    (haccepted : ∀ {c'}, t.accepted ≤ c' → s.accepted ≤ c' ∧ c' ≠ c) (hshut : t.shutdown = false)
    (hstop : t.stopping = s.stopping ∧ t.awaiting = s.awaiting) : t.Sound := by
  refine ⟨hfan ▸ h.registered, fun {r c' k} hk => ?_, fun {c' r} hr => ?_, fun {c' r} hr => ?_, hfan ▸ h.once,
    hfan ▸ h.quit, hfan ▸ h.spent, fun {c' r} hd hr => ?_, fun c' hc' => ?_, ?_, ?_, hfan ▸ h.calm⟩
  · rw [hfan] at hk
    by_cases hc : c' = c
    · subst hc
      exact hsingle hk
    · rw [hother c' hc]
      exact h.single hk
  · by_cases hc : c' = c
    · subst hc
      exact hstream hr
    · rw [hother c' hc] at hr ⊢
      exact h.stream hr
  · by_cases hc : c' = c
    · subst hc
      exact hcurrent hr
    · rw [hother c' hc] at hr ⊢
      obtain ⟨v, hv⟩ := h.current hr
      exact ⟨v, hman hv⟩
  · rw [hfan] at hd ⊢
    by_cases hc : c' = c
    · subst hc
      exact absurd hr (hsetup hd)
    · rw [hother c' hc] at hr
      exact h.setup hd hr
  · obtain ⟨hle, hc⟩ := haccepted hc'
    rw [hother c' hc]
    exact h.accepted c' hle
  · rw [hshut]
    nofun
  · rw [hstop.1, hstop.2]
    exact h.stopping

theorem Server.Sound.ne_of_accepted (h : s.Sound) {c : ℕ} (ha : (s.handlers c).pc ≠ .absent) {c' : ℕ}
    (hc' : s.accepted ≤ c') : c' ≠ c := by
  rintro rfl
  exact ha (h.accepted c' hc')

theorem Server.Sound.goto (h : s.Sound) {c : ℕ} {pc : HandlerPc} (ha : (s.handlers c).pc ≠ .absent)
    (hr : (s.handlers c).pc ≠ .returned) (hserve : pc.serving = true ∨ ∀ r, s.fan.sessionOf r c = none)
    (hstream : ∀ r, pc.stream = some r → (s.handlers c).current = some r) (hsetup : ∀ r, pc ≠ .setup r) :
    (s.goto c s.fan pc).Sound := by
  have hself : (s.goto c s.fan pc).handlers c = { s.handlers c with pc := pc } := by simp [Server.goto]
  refine h.setHandler (c := c) rfl (fun c' hc => ?_) id (fun {r k} hk => ?_) (fun {r} hpc => ?_) (fun {r} hcur => ?_)
    (fun {r} _ => ?_) (fun hc' => ⟨hc', h.ne_of_accepted ha hc'⟩) (h.not_shutdown ha hr) ⟨rfl, rfl⟩
  · simp [Server.goto, hc]
  · rw [hself]
    refine ⟨(h.single hk).1, hserve.resolve_right fun hnone => ?_⟩
    exact nomatch (hnone r).symm.trans hk
  · rw [hself] at hpc ⊢
    exact hstream r hpc
  · rw [hself] at hcur ⊢
    exact h.current hcur
  · rw [hself]
    exact hsetup r

theorem Server.Sound.addClient (h : s.Sound) {r c : ℕ} (hpc : (s.handlers c).pc = .setup r)
    (hreg : (s.fan.addClient r c).Registered) : Server.Sound { s with fan := s.fan.addClient r c } := by
  unfold Fan.addClient at hreg ⊢
  split at hreg
  case h_1 => exact h
  case h_2 hnone =>
    have halive : (s.fan.clients c).destroyed = false := by
      by_contra hd
      exact h.setup (by simpa using hd) hpc hnone
    have hcur : (s.handlers c).current = some r := h.stream (by rw [hpc]; rfl)
    refine ⟨hreg, fun {r' c' k} hk => ?_, h.stream, h.current, h.once, fun k => ?_, fun k hd => ?_,
      fun {c' r'} hd hpc' => ?_, h.accepted, h.shutdown, h.stopping, h.calm⟩
    · rw [sessionOf_register] at hk
      split at hk
      case isTrue hrc =>
        rw [hrc.1, hrc.2, hpc]
        exact ⟨hcur, rfl⟩
      case isFalse => exact h.single hk
    · rw [sessions_register]
      split
      · exact fun _ => rfl
      · exact h.quit k
    · rw [sessions_register] at hd ⊢
      split at hd
      · exact nomatch halive.symm.trans hd
      case isFalse hne =>
        rw [if_neg hne]
        exact h.spent k hd
    · rw [sessionOf_register]
      split
      · nofun
      · exact h.setup hd hpc'

theorem Server.Sound.forget (h : s.Sound) {r c : ℕ} (hpc : ∀ r', (s.handlers c).pc ≠ .setup r')
    (hreg : (s.fan.forget r c).Registered) : Server.Sound { s with fan := s.fan.forget r c } := by
  refine ⟨hreg, fun {r' c' k} hk => ?_, h.stream, h.current, h.once, h.quit, h.spent, fun {c' r'} hd hpc' => ?_,
    h.accepted, h.shutdown, h.stopping, h.calm⟩
  · rw [sessionOf_forget] at hk
    split at hk
    · cases hk
    · exact h.single hk
  · rw [sessionOf_forget, if_neg]
    · exact h.setup hd hpc'
    · rintro ⟨-, rfl⟩
      exact hpc r' hpc'

theorem removeClient_eq {fan : Fan} (hq : ∀ k, (fan.sessions k).active = true → (fan.sessions k).quit = false) (r c : ℕ) :
    fan.removeClient r c = fan ∧ fan.sessionOf r c = none ∨ fan.removeClient r c = fan.forget r c ∨
      ∃ k, fan.removeClient r c = (fan.setSession k fun cs => { cs with active := false, quit := true }).setStream r
        fun st => { st with removing := some c } := by
  unfold Fan.removeClient
  split
  case h_2 hnone => exact .inl ⟨rfl, hnone⟩
  case h_1 k hk =>
    split
    case isFalse => exact .inr (.inl rfl)
    case isTrue ha =>
      rw [hq k ha]
      exact .inr (.inr ⟨k, rfl⟩)

theorem Server.Sound.stop (h : s.Sound) {r c k : ℕ} {fan : Fan}
    (hfan : fan = (s.fan.setSession k fun cs => { cs with active := false, quit := true }).setStream r
      fun st => { st with removing := some c })
    (hreg : fan.Registered) : Server.Sound { s with fan := fan } := by
  have hof : fan.sessionOf = s.fan.sessionOf := by
    rw [hfan]
    exact sessionOf_setStream rfl
  have hsess (k') : (fan.sessions k').client = (s.fan.sessions k').client ∧
      (fan.sessions k').pc = (s.fan.sessions k').pc := by
    by_cases hk : k' = k <;> simp [hfan, Fan.setStream, Fan.setSession, hk]
  have hcl : fan.clients = s.fan.clients := by rw [hfan]; rfl
  refine h.of_fan hreg hof (fun c' => by rw [hcl]) (fun k' => ⟨(hsess k').1, fun hk => by rwa [(hsess k').2]⟩)
    (fun c' => by rw [hcl]; exact h.once c') (fun k' => ?_) (by rw [hfan]; rfl)
  by_cases hk : k' = k
  · simp [hfan, Fan.setStream, Fan.setSession, hk]
  · have hsame : fan.sessions k' = s.fan.sessions k' := by simp [hfan, Fan.setStream, Fan.setSession, hk]
    rw [hsame]
    exact h.quit k'

/-- `RemoveClient`, up to its wait: the session is told to stop, or there is none left. -/
theorem Server.Sound.removeClient (h : s.Sound) {r c : ℕ} (hpc : ∀ r', (s.handlers c).pc ≠ .setup r') {fan : Fan}
    (hfan : fan = s.fan.removeClient r c) (hreg : fan.Registered) :
    Server.Sound { s with fan := fan } ∧ ((fan.streams r).removing = some c ∨ fan.sessionOf r c = none) := by
  rcases removeClient_eq h.quit r c with ⟨heq, hnone⟩ | heq | ⟨k, heq⟩
  · rw [hfan, heq]
    exact ⟨h, .inr hnone⟩
  · rw [heq] at hfan
    subst hfan
    refine ⟨h.forget hpc hreg, .inr ?_⟩
    rw [sessionOf_forget, if_pos ⟨rfl, rfl⟩]
  · rw [heq] at hfan
    exact ⟨h.stop hfan hreg, .inl (by simp [hfan, Fan.setStream])⟩

/-- A client without a session with its current stream has none. -/
theorem Server.Sound.no_session (h : s.Sound) {r c : ℕ} (hcur : (s.handlers c).current = some r)
    (hnone : s.fan.sessionOf r c = none) (r' : ℕ) : s.fan.sessionOf r' c = none := by
  by_contra hsome
  obtain ⟨k, hk⟩ := Option.ne_none_iff_exists'.mp hsome
  have hr := hcur.symm.trans (h.single hk).1
  rw [← Option.some.inj hr, hnone] at hk
  cases hk

theorem Server.Sound.no_session_of_serving (h : s.Sound) {c : ℕ} (hpc : (s.handlers c).pc.serving = false) (r : ℕ) :
    s.fan.sessionOf r c = none := by
  by_contra hsome
  obtain ⟨k, hk⟩ := Option.ne_none_iff_exists'.mp hsome
  exact nomatch hpc.symm.trans (h.single hk).2

theorem forget_of_stopped {fan fan' : Fan} {r c : ℕ} (hr : (fan.streams r).removing = some c)
    (h : fan.step cfg (.stopped r) = some fan') : fan' = fan.forget r c := by
  obtain ⟨-, h⟩ := Option.ite_none_left_eq_some.mp h
  obtain ⟨c', hc', h⟩ := Option.bind_eq_some_iff.mp h
  obtain ⟨k, -, h⟩ := Option.bind_eq_some_iff.mp h
  obtain ⟨-, ⟨⟩⟩ := Option.ite_none_right_eq_some.mp h
  rw [Option.some.inj (hr.symm.trans hc')]

/-- `handleTeardown` and the deferred function begin to remove the client. -/
theorem Server.Sound.beginRemove (h : s.Sound) {r c : ℕ} (hpc : ∀ r', (s.handlers c).pc ≠ .setup r')
    (ha : (s.handlers c).pc ≠ .absent) (hret : (s.handlers c).pc ≠ .returned) (hcur : (s.handlers c).current = some r)
    {fan : Fan} (hfan : s.fan.step cfg (.removeClient r c) = some fan) {wait after : HandlerPc}
    (hwait : wait.serving = true ∧ wait.stream = some r) (hafter : after.stream = none)
    (hsetup : ∀ r', wait ≠ .setup r' ∧ after ≠ .setup r') :
    (s.goto c fan (if (fan.streams r).removing = some c then wait else after)).Sound := by
  have hreg := h.registered.step hfan
  obtain ⟨-, hfan⟩ := Option.ite_none_left_eq_some.mp hfan
  obtain ⟨-, ⟨⟩⟩ := Option.ite_none_right_eq_some.mp hfan
  obtain ⟨hs, hgone⟩ := h.removeClient hpc rfl hreg
  refine hs.goto ha hret ?_ (fun r' hr' => ?_) fun r' => ?_
  · split
    · exact .inl hwait.1
    case isFalse hne => exact .inr (hs.no_session hcur (hgone.resolve_left hne))
  · split at hr'
    · rw [hwait.2] at hr'
      exact hcur.trans hr'
    · rw [hafter] at hr'
      cases hr'
  · split
    · exact (hsetup r').1
    · exact (hsetup r').2

theorem Server.Sound.endRemove (h : s.Sound) {r c : ℕ} (hpc : ∀ r', (s.handlers c).pc ≠ .setup r')
    (ha : (s.handlers c).pc ≠ .absent) (hret : (s.handlers c).pc ≠ .returned) (hcur : (s.handlers c).current = some r)
    (hr : (s.fan.streams r).removing = some c) {fan : Fan} (hfan : s.fan.step cfg (.stopped r) = some fan)
    {after : HandlerPc} (hafter : after.stream = none) (hsetup : ∀ r', after ≠ .setup r') : (s.goto c fan after).Sound := by
  have hreg := h.registered.step hfan
  obtain rfl := forget_of_stopped hr hfan
  have hs := h.forget hpc hreg
  refine hs.goto ha hret (.inr (hs.no_session hcur ?_)) (fun r' hr' => ?_) hsetup
  · rw [sessionOf_forget, if_pos ⟨rfl, rfl⟩]
  · rw [hafter] at hr'
    cases hr'

/-- **A step of a handler.** -/
theorem Server.Sound.stepHandler (h : s.Sound) {c : ℕ} {o : HandlerInput} (hs : s.stepHandler cfg c o = some t) :
    t.Sound := by
  unfold Server.stepHandler at hs
  split at hs
  case h_1 hpc => -- reading, leave
    cases hs
    exact h.goto (by simp [hpc]) (by simp [hpc]) (.inl rfl) nofun nofun
  case h_2 hpc => -- setup, refuse
    cases hs
    exact h.goto (by simp [hpc]) (by simp [hpc]) (.inl rfl) nofun nofun
  case h_3 r channels hpc => -- setup, accept
    obtain ⟨-, hs⟩ := Option.ite_none_right_eq_some.mp hs
    obtain ⟨fan, hfan, rfl⟩ := Option.map_eq_some_iff.mp hs
    have hreg := h.registered.step hfan
    obtain ⟨-, hfan⟩ := Option.ite_none_left_eq_some.mp hfan
    obtain ⟨-, ⟨⟩⟩ := Option.ite_none_right_eq_some.mp hfan
    have hadd := h.addClient hpc hreg
    refine hadd.goto (by simp [hpc]) (by simp [hpc]) (.inl rfl) (fun r' hr' => ?_) nofun
    exact h.stream (by rw [hpc]; exact hr')
  case h_4 hpc => -- mapping, done
    cases hs
    exact h.goto (by simp [hpc]) (by simp [hpc]) (.inl rfl) nofun nofun
  case h_5 r upstreamChan clientChan channels hpc => -- mapping
    obtain ⟨fan, hfan, rfl⟩ := Option.map_eq_some_iff.mp hs
    have hreg := h.registered.step hfan
    obtain ⟨-, hfan⟩ := Option.ite_none_left_eq_some.mp hfan
    obtain ⟨-, ⟨⟩⟩ := Option.ite_none_right_eq_some.mp hfan
    have hmap := h.still hreg (still_mapChannel _ _ _ _ _)
    refine hmap.goto (by simp [hpc]) (by simp [hpc]) (.inl rfl) (fun r' hr' => ?_) nofun
    exact h.stream (by rw [hpc]; exact hr')
  case h_6 r hpc => -- teardown
    obtain ⟨fan, hfan, rfl⟩ := Option.map_eq_some_iff.mp hs
    exact h.beginRemove (by simp [hpc]) (by simp [hpc]) (by simp [hpc]) (h.stream (by rw [hpc]; rfl)) hfan ⟨rfl, rfl⟩ rfl
      fun _ => ⟨nofun, nofun⟩
  case h_7 r hpc => -- tearing
    obtain ⟨hr, hs⟩ := Option.ite_none_right_eq_some.mp hs
    obtain ⟨fan, hfan, rfl⟩ := Option.map_eq_some_iff.mp hs
    exact h.endRemove (by simp [hpc]) (by simp [hpc]) (by simp [hpc]) (h.stream (by rw [hpc]; rfl)) hr hfan rfl nofun
  case h_8 hpc => -- leaving
    split at hs
    case h_1 hcur =>
      cases hs
      refine h.goto (by simp [hpc]) (by simp [hpc]) (.inr fun r => ?_) nofun nofun
      by_contra hsome
      obtain ⟨k, hk⟩ := Option.ne_none_iff_exists'.mp hsome
      exact nomatch hcur.symm.trans (h.single hk).1
    case h_2 r hcur =>
      obtain ⟨fan, hfan, rfl⟩ := Option.map_eq_some_iff.mp hs
      exact h.beginRemove (by simp [hpc]) (by simp [hpc]) (by simp [hpc]) hcur hfan ⟨rfl, rfl⟩ rfl
        fun _ => ⟨nofun, nofun⟩
  case h_9 r hpc => -- removing
    obtain ⟨hr, hs⟩ := Option.ite_none_right_eq_some.mp hs
    obtain ⟨fan, hfan, rfl⟩ := Option.map_eq_some_iff.mp hs
    exact h.endRemove (by simp [hpc]) (by simp [hpc]) (by simp [hpc]) (h.stream (by rw [hpc]; rfl)) hr hfan rfl nofun
  case h_10 hpc => -- destroying
    obtain ⟨fan, hfan, rfl⟩ := Option.map_eq_some_iff.mp hs
    have hreg := h.registered.step hfan
    obtain ⟨-, ⟨⟩⟩ := Option.ite_none_left_eq_some.mp hfan
    have hnone := h.no_session_of_serving (c := c) (by rw [hpc]; rfl)
    have hdead := h.destroy (c := c) hreg rfl rfl (fun k => ⟨rfl, rfl, rfl, id⟩) (fun k hk => ?_) (by simp [hpc]) rfl
    · refine hdead.goto (by simp [hpc]) (by simp [hpc]) (.inr hnone) (fun r hr => ?_) fun r => ?_
      · split at hr <;> cases hr
      · split <;> nofun
    · -- a session that has not ended would be registered
      have hx : (s.fan.sessions k).pc = .exited := by
        by_contra hx
        have hlive := h.registered.live k hx
        rw [hk, hnone] at hlive
        cases hlive
      show (s.fan.sessions k).pc.spent = true
      rw [hx]
      rfl
  case h_11 hpc => -- waiting
    obtain ⟨-, ⟨⟩⟩ := Option.ite_none_right_eq_some.mp hs
    exact h.goto (by simp [hpc]) (by simp [hpc]) (.inr (h.no_session_of_serving (by rw [hpc]; rfl))) nofun nofun
  case h_12 => cases hs

/-- A method works on the stream of its request. -/
theorem stream_methodPc {request : Request} {r r' : ℕ} (h : (methodPc request r).stream = some r') : r' = r := by
  unfold methodPc at h
  split_ifs at h <;> cases h <;> rfl

theorem serving_methodPc (request : Request) (r : ℕ) : (methodPc request r).serving = true := by
  unfold methodPc
  split_ifs <;> rfl

/-- **A request**: the client's session, if it has one, is with the stream of the request. -/
theorem Server.Sound.request (h : s.Sound) {c : ℕ} {request : Request} (hstays : Stays s c request)
    (hs : s.request c request = some t) : t.Sound := by
  obtain ⟨hcond, hs⟩ := Option.ite_none_left_eq_some.mp hs
  rw [not_or, not_not] at hcond
  obtain ⟨hpc, halive⟩ := hcond
  have ha : (s.handlers c).pc ≠ .absent := by simp [hpc]
  have hret : (s.handlers c).pc ≠ .returned := by simp [hpc]
  split at hs
  case h_1 =>
    obtain rfl := Option.some.inj hs
    exact h.goto ha hret (.inl rfl) nofun nofun
  case h_2 client request' hresolve =>
    dsimp only at hs
    set e := s.manager.getStream (target client)
    have ht := (Option.some.inj hs).symm
    have hlookup : e.2.entries.lookup (target client).key = some e.1 := Registry.lookup_get _ _ _
    have hkeep {key v} (hv : s.manager.entries.lookup key = some v) : e.2.entries.lookup key = some v :=
      Registry.lookup_get_of_some hv _ _
    have hsame {r k} (hk : s.fan.sessionOf r c = some k) : e.1.1 = r := by
      have hcur := (h.single hk).1
      obtain ⟨v, hv⟩ := h.current hcur
      unfold Stays at hstays
      rw [hcur, hresolve] at hstays
      rcases hstays with hnone | hkey
      · exact nomatch hnone.symm.trans hk
      · rw [← hkey] at hv
        rw [Option.some.inj (hlookup.symm.trans (hkeep hv))]
    have hman : t.manager = e.2 := by rw [ht]
    have hself : t.handlers c = ⟨methodPc request' e.1.1, client, some e.1.1⟩ := by simp [ht]
    refine h.setHandler (c := c) (by rw [ht]) (fun c' hc => by simp [ht, hc]) (fun hv => by rw [hman]; exact hkeep hv)
      (fun {r k} hk => ?_) (fun {r} hr => ?_) (fun {r} hr => ?_) (fun hd => absurd hd halive) (fun {c'} hc' => ?_)
      (by rw [ht]; exact h.not_shutdown ha hret) (by rw [ht]; exact ⟨rfl, rfl⟩)
    · rw [hself]
      exact ⟨congrArg some (hsame hk), serving_methodPc _ _⟩
    · rw [hself] at hr ⊢
      rw [stream_methodPc hr]
    · rw [hself] at hr ⊢
      rw [hman, hlookup, ← Option.some.inj hr]
      exact ⟨e.1.2, rfl⟩
    · rw [ht] at hc'
      exact ⟨hc', h.ne_of_accepted ha hc'⟩

theorem Server.Sound.accept (h : s.Sound) (hsh : s.shutdown = false)
    (ht : t = { s with
      handlers := Function.update s.handlers s.accepted ⟨.reading, Downstream.newClient [] [], none⟩
      accepted := s.accepted + 1 }) : t.Sound := by
  have hself : t.handlers s.accepted = ⟨.reading, Downstream.newClient [] [], none⟩ := by simp [ht]
  have hnone (r) : s.fan.sessionOf r s.accepted = none :=
    h.no_session_of_serving (by rw [h.accepted s.accepted (Nat.le_refl _)]; rfl) r
  refine h.setHandler (c := s.accepted) (by rw [ht]) (fun c' hc => by simp [ht, hc]) (by rw [ht]; exact id)
    (fun {r k} hk => ?_) (fun {r} hr => ?_) (fun {r} hr => ?_) (fun {r} _ => ?_) (fun {c'} hc' => ?_)
    (by rw [ht]; exact hsh) (by rw [ht]; exact ⟨rfl, rfl⟩)
  · exact nomatch (hnone r).symm.trans hk
  · rw [hself] at hr
    cases hr
  · rw [hself] at hr
    cases hr
  · rw [hself]
    nofun
  · rw [ht] at hc'
    exact ⟨Nat.le_of_succ_le hc', Nat.ne_of_gt (Nat.lt_of_succ_le hc')⟩

/-- After `Shutdown` there is no client to take from a stream. -/
theorem Server.Sound.detach_eq (h : s.Sound) (hsh : s.shutdown = true) (r : ℕ) :
    (s.fan.streams r).registered.entries = [] ∧ s.fan.detach r = s.fan := by
  have hnil : (s.fan.streams r).registered.entries = [] := by
    by_contra hne
    obtain ⟨⟨c, k⟩, rest, he⟩ := List.exists_cons_of_ne_nil hne
    have hk : s.fan.sessionOf r c = some k := AList.mem_lookup_iff.mpr (by rw [he]; exact List.mem_cons_self ..)
    have hserving := (h.single hk).2
    rcases h.shutdown hsh c with hpc | hpc <;> rw [hpc] at hserving <;> cases hserving
  refine ⟨hnil, ?_⟩
  have hempty : (s.fan.streams r).registered = ∅ := AList.ext hnil
  unfold Fan.detach Fan.setStream
  rw [← hempty, Function.update_eq_self]

/-- **One step.** -/
theorem Server.Sound.step (h : s.Sound) (hown : s.fan.Owned) (hsize : s.fan.Sized cfg) {a : ServerAct}
    (hset : Settled s a) (hs : s.step cfg a = some t) : t.Sound := by
  unfold Server.step at hs
  split at hs
  case h_1 => -- a camera is dialed
    obtain ⟨-, hs⟩ := Option.ite_none_right_eq_some.mp hs
    obtain ⟨fan, hfan, rfl⟩ := Option.map_eq_some_iff.mp hs
    exact h.shift hown hsize (h.registered.step hfan) (shift_of_step rfl hfan)
  case h_2 => -- other
    obtain ⟨ha, hs⟩ := Option.ite_none_right_eq_some.mp hs
    obtain ⟨fan, hfan, rfl⟩ := Option.map_eq_some_iff.mp hs
    exact h.shift hown hsize (h.registered.step hfan) (shift_of_step ha hfan)
  case h_3 => -- accept
    obtain ⟨hsh, hs⟩ := Option.ite_none_left_eq_some.mp hs
    exact h.accept (by simpa using (not_or.mp hsh).2) (Option.some.inj hs).symm
  case h_4 => -- request
    obtain ⟨-, hs⟩ := Option.ite_none_left_eq_some.mp hs
    exact h.request hset hs
  case h_5 => -- handler
    obtain ⟨-, hs⟩ := Option.ite_none_left_eq_some.mp hs
    exact h.stepHandler hs
  case h_6 => -- shutdown
    obtain ⟨⟨-, -, hall⟩, ⟨⟩⟩ := Option.ite_none_right_eq_some.mp hs
    refine ⟨h.registered, h.single, h.stream, h.current, h.once, h.quit, h.spent, h.setup, h.accepted, fun _ c => ?_,
      h.stopping, h.calm⟩
    exact (Nat.lt_or_ge c s.accepted).symm.imp (h.accepted c) (hall c)
  case h_7 r => -- detach
    obtain ⟨⟨hsh, -, -⟩, hs⟩ := Option.ite_none_right_eq_some.mp hs
    obtain ⟨fan, hfan, rfl⟩ := Option.map_eq_some_iff.mp hs
    obtain ⟨-, ⟨⟩⟩ := Option.ite_none_left_eq_some.mp hfan
    obtain ⟨hnil, hsame⟩ := h.detach_eq hsh r
    rw [hnil, hsame]
    exact ⟨h.registered, h.single, h.stream, h.current, h.once, h.quit, h.spent, h.setup, h.accepted, h.shutdown,
      ⟨rfl, h.stopping.2⟩, h.calm⟩
  case h_8 => -- stop
    rw [h.stopping.1] at hs
    cases hs
  case h_9 => -- stopped
    rw [h.stopping.2] at hs
    cases hs

/-! ### Whole runs -/

/-- The invariant of a run. -/
structure Server.Inv (cfg : Config) (s : Server) : Prop where
  /-- Sessions, handlers and channels. -/
  sound : s.Sound
  /-- Each buffer is in one place. -/
  owned : s.fan.Owned
  /-- Each buffer has the capacity. -/
  sized : s.fan.Sized cfg

theorem Server.Inv.step (h : s.Inv cfg) {a : ServerAct} (hset : Settled s a) (hs : s.step cfg a = some t) :
    t.Inv cfg := by
  have hsound := h.sound.step h.owned h.sized hset hs
  rcases anyStep_of_step hs with heq | ⟨b, hb⟩
  · exact ⟨hsound, heq ▸ h.owned, heq ▸ h.sized⟩
  · obtain ⟨howned, hsized, -⟩ := h.owned.anyStep h.sized hb
    exact ⟨hsound, howned, hsized⟩

/-- **No session sends on a closed `writeChan`, and no channel is closed twice**, in any run in which
no client that has a session with its current stream asks for another one. A send on a closed
channel and a second `close` of a `writeChan` or a `quit` would panic. No session that is about to
send has a closed `writeChan`, the goroutines that have closed a `writeChan` or will close it are
one at most, and the `quit` of an active session is open. -/
theorem safe_of_settled (cfg : Config) {as : List ServerAct} {t : Server}
    (h : exec (Server.step cfg) newServer as = some t) (hset : AllSteps (Server.step cfg) Settled newServer as) :
    t.fan.panicked = false ∧
      (∀ k x, (t.fan.sessions k).pc = .forward x → (t.fan.clients (t.fan.sessions k).client).closed = false) ∧
      (∀ c, (t.fan.clients c).closing + (t.fan.clients c).closed.toNat ≤ 1) ∧
      ∀ k, (t.fan.sessions k).active = true → (t.fan.sessions k).quit = false := by
  have hinv : t.Inv cfg :=
    exec_invariant (fun s a s' hs hc hstep => Server.Inv.step hs hc hstep) as newServer t
      ⟨sound_newServer, owned_newFan, sized_newFan⟩ hset h
  refine ⟨hinv.sound.calm, fun k x hpc => ?_, fun c => ?_, hinv.sound.quit⟩
  · by_contra hclosed
    have hspent := hinv.sound.spent k ((hinv.sound.once _).destroyed (by simpa using hclosed))
    rw [hpc] at hspent
    cases hspent
  · rw [(hinv.sound.once c).closing]
    split
    case isTrue hopen => simp [hopen.2]
    case isFalse => simp [Bool.toNat_le]

/-- A request. -/
def ask (method host path : String) : Request :=
  ⟨ascii method, [], ⟨[], [], ascii host, ascii path⟩, ascii "RTSP/1.0", []⟩

/-- A frame is dispatched to a session. -/
def frameTo (k : ℕ) (clientChannel : ℤ) : List ServerAct :=
  [.dispatch 0 ⟨0, [7], seven_fits⟩ [⟨k, clientChannel⟩], .dispatching 0 none, .dispatching 0 none, .dispatching 0 none,
    .dispatching 0 none, .run k .packet].map .other

/-- A client sets up, tears down, sets up again and is too slow. Its session destroys it, its handler
leaves, and the server shuts down. -/
def evicted : List ServerAct := List.flatten
  [[.accept, .request 0 (ask "SETUP" "cam:554" "/x"), .other (.loop 0 .start), .other (.loop 0 .dialed),
      .handler 0 (.accept [(0, 2)]), .handler 0 .next, .handler 0 .next],
    frameTo 0 2,
    [.other (.run 0 .sent), .request 0 (ask "TEARDOWN" "cam:554" "/x"), .handler 0 .next, .other (.run 0 .quit),
      .other (.run 0 .next), .handler 0 .next, .request 0 (ask "SETUP" "cam:554" "/x"), .handler 0 (.accept [(0, 0)]),
      .handler 0 .next, .handler 0 .next],
    frameTo 1 0,
    [.run 1 .timeout, .run 1 .next, .run 1 .next, .close 0, .writer 0 .data, .writer 0 (.wrote true), .writer 0 .next,
      .writer 0 .data, .writer 0 .next, .run 1 .next, .run 1 .next].map .other,
    [.handler 0 .leave, .handler 0 .next, .handler 0 .next, .handler 0 .next, .other .cancel, .shutdown, .detach 0]]

theorem safe_of_settled_evicted :
    ∃ t, exec (Server.step ⟨2048, 10⟩) newServer evicted = some t ∧ t.shutdown = true ∧
      (t.fan.clients 0).closed = true ∧ t.fan.panicked = false := by
  have hrun : (exec (Server.step ⟨2048, 10⟩) newServer evicted).any
      (fun t => t.shutdown && (t.fan.clients 0).closed) = true := by decide +kernel
  have hset : AllSteps (Server.step ⟨2048, 10⟩) Settled newServer evicted := by decide +kernel
  obtain ⟨t, ht, hclosed⟩ := (Option.any_eq_true _ _).mp hrun
  obtain ⟨hshut, hclosed⟩ := Bool.and_eq_true_iff.mp hclosed
  exact ⟨t, ht, hshut, hclosed, (safe_of_settled ⟨2048, 10⟩ ht hset).1⟩

/-- A client describes the stream `/x` of the camera `cam:554`. Another sets up `cam:554/x`, a path
without a host, and gets the same stream, goes on to `/y` of the camera, and leaves. -/
def movesOn : List ServerAct :=
  [.accept, .accept, .request 0 (ask "DESCRIBE" "cam:554" "/x"), .other (.loop 0 .start), .other (.loop 0 .dialed),
    .request 1 (ask "SETUP" "" "cam:554/x"), .handler 1 (.accept [(0, 0)]), .handler 1 .next, .handler 1 .next,
    .request 1 (ask "OPTIONS" "cam:554" "/y"), .handler 1 .leave, .handler 1 .next, .handler 1 .next,
    .other (.close 1)] ++ frameTo 0 0

/-- **Its session sends on the closed `writeChan`.** -/
theorem sends_after_close :
    ∃ s t, exec (Server.step ⟨2048, 10⟩) newServer movesOn = some s ∧ (s.fan.sessions 0).pc = .forward ⟨0, 0, 5⟩ ∧
      (s.fan.clients (s.fan.sessions 0).client).closed = true ∧ s.step ⟨2048, 10⟩ (.other (.run 0 .sent)) = some t ∧
      t.fan.panicked = true := by
  have hrun : (exec (Server.step ⟨2048, 10⟩) newServer movesOn).any (fun s =>
      decide ((s.fan.sessions 0).pc = .forward ⟨0, 0, 5⟩ ∧ (s.fan.clients (s.fan.sessions 0).client).closed = true) &&
        (s.step ⟨2048, 10⟩ (.other (.run 0 .sent))).any fun t => t.fan.panicked) = true := by decide +kernel
  obtain ⟨s, hs, hstep⟩ := (Option.any_eq_true _ _).mp hrun
  obtain ⟨hpc, hstep⟩ := Bool.and_eq_true_iff.mp hstep
  obtain ⟨t, ht, hp⟩ := (Option.any_eq_true _ _).mp hstep
  obtain ⟨hpc, hclosed⟩ := of_decide_eq_true hpc
  exact ⟨s, t, hs, hpc, hclosed, ht, hp⟩

end RtspProxy.Fanout
