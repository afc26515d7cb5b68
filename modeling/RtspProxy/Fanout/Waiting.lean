import RtspProxy.Fanout.Capacity
import RtspProxy.Fanout.Closing
import RtspProxy.Fanout.Ending

/-!
# Waiting for a client's goroutines

`RemoveClient` holds the stream's `mu` while it waits for the client's session to end, and
`Client.Destroy` waits for the client's writer. A session that finds its client slow is in
`Client.Destroy` itself. So a client that does not read could hold up its handler, and with the
handler everybody who needs `mu`: the reader of the stream, and the handlers of its other clients.

## The model

`Server.serves` are the steps of a client's goroutines. `Server.CanGo` says that the handler of a client
or one of these goroutines can take a step: a write to the client's connection returns, if only
with an error after its deadline, and a session does not wait for room in `writeChan` forever.

## What is proved

* `Server.Orderly.step` — what holds in every state: `mu` is held by the handler that waits, and who
  has destroyed a client waits for its writer.
* `wait_ends` — **a handler's wait ends**: while a handler waits, its client's goroutines take no more
  than `5 * PacketQueueSize + 619` steps, and one of them can take a step until the wait is over.
* `none_left_behind` — **when a handler has returned, its client's goroutines have ended**, and its
  `writeChan` is closed and empty.
-/

namespace RtspProxy.Fanout

open Theory Wire

variable {cfg : Config} {s t : Fan}

/-! ### What the handlers leave alone -/

/-- What a handler does for its own client leaves the goroutines as they were, and the other
clients. -/
structure Fan.Spares (s : Fan) (c : ℕ) (t : Fan) : Prop where
  /-- The other clients. -/
  client : ∀ c', c' ≠ c → t.clients c' = s.clients c' ∧ ∀ r, t.sessionOf r c' = s.sessionOf r c'
  /-- The readers. -/
  loop : ∀ r, (t.streams r).loop = (s.streams r).loop
  session : ∀ k < s.nextSession, (t.sessions k).client = (s.sessions k).client ∧
    (t.sessions k).pc = (s.sessions k).pc ∧ (t.sessions k).queue = (s.sessions k).queue

theorem Fan.Spares.refl (s : Fan) (c : ℕ) : s.Spares c s :=
  ⟨fun _ _ => ⟨rfl, fun _ => rfl⟩, fun _ => rfl, fun _ _ => ⟨rfl, rfl, rfl⟩⟩

/-- The streams and sessions change, but not what is queued. -/
theorem spares_of_same {c : ℕ} (hc : t.clients = s.clients) (hof : t.sessionOf = s.sessionOf)
    (hl : ∀ r, (t.streams r).loop = (s.streams r).loop)
    (hss : ∀ k, (t.sessions k).client = (s.sessions k).client ∧ (t.sessions k).pc = (s.sessions k).pc ∧
      (t.sessions k).queue = (s.sessions k).queue) : s.Spares c t :=
  ⟨fun _ _ => ⟨by rw [hc], fun _ => by rw [hof]⟩, hl, fun k _ => hss k⟩

theorem spares_addClient (r c : ℕ) : s.Spares c (s.addClient r c) := by
  unfold Fan.addClient
  split
  · exact .refl s c
  · refine ⟨fun c' hc => ⟨rfl, fun r' => ?_⟩, loop_register r c, fun k hk => ?_⟩
    · rw [sessionOf_register, if_neg fun h => hc h.2]
    · rw [sessions_register, if_neg (Nat.ne_of_lt hk)]
      exact ⟨rfl, rfl, rfl⟩

theorem spares_mapChannel (r c : ℕ) (upstreamChan clientChan : ℤ) :
    s.Spares c (s.mapChannel r c upstreamChan clientChan) := by
  unfold Fan.mapChannel
  split
  case h_2 => exact .refl s c
  case h_1 k hk =>
    refine spares_of_same rfl rfl (fun _ => rfl) fun k' => ?_
    by_cases hkk : k' = k <;> simp [Fan.setSession, hkk]

theorem spares_forget (r c : ℕ) : s.Spares c (s.forget r c) := by
  refine ⟨fun c' hc => ⟨rfl, fun r' => ?_⟩, loop_forget r c, fun _ _ => ⟨rfl, rfl, rfl⟩⟩
  rw [sessionOf_forget, if_neg fun h => hc h.2]

/-- `RemoveClient` up to its wait, and whose removal holds `mu` then. -/
theorem spares_removeClient {r c : ℕ} (hr : (s.streams r).removing = none) :
    s.Spares c (s.removeClient r c) ∧
      (∀ r', r' ≠ r → ((s.removeClient r c).streams r').removing = (s.streams r').removing) ∧
      (((s.removeClient r c).streams r).removing = none ∨ ((s.removeClient r c).streams r).removing = some c) := by
  unfold Fan.removeClient
  split
  case h_2 => exact ⟨.refl s c, fun _ _ => rfl, .inl hr⟩
  case h_1 k hk =>
    split
    · split
      · exact ⟨{ Fan.Spares.refl s c with }, fun _ _ => rfl, .inl hr⟩
      · refine ⟨spares_of_same rfl (sessionOf_setStream rfl) (fun r' => ?_) fun k' => ?_, fun r' hrr => ?_, .inr ?_⟩
        · by_cases hrr : r' = r <;> simp [Fan.setStream, Fan.setSession, hrr]
        · by_cases hkk : k' = k <;> simp [Fan.setStream, Fan.setSession, hkk]
        · simp [Fan.setStream, Fan.setSession, hrr]
        · simp [Fan.setStream]
    · refine ⟨spares_forget r c, fun r' hrr => ?_, .inl ?_⟩
      · simp [Fan.forget, Fan.setStream, hrr]
      · simp [Fan.forget, Fan.setStream]

theorem spares_destroy (c : ℕ) : s.Spares c (s.setClient c Client.destroy) :=
  ⟨fun _ hc => ⟨Function.update_of_ne hc _ _, fun _ => rfl⟩, fun _ => rfl, fun _ _ => ⟨rfl, rfl, rfl⟩⟩

/-- SETUP registers the client, or maps a channel. -/
theorem spares_setup {a : Act} {c : ℕ} (h : s.step cfg a = some t)
    (hact : (∃ r, a = .addClient r c) ∨ ∃ r u v, a = .mapChannel r c u v) :
    s.Spares c t ∧ t.clients = s.clients ∧ ∀ r, (t.streams r).removing = (s.streams r).removing := by
  obtain ⟨-, h⟩ := Option.ite_none_left_eq_some.mp h
  rcases hact with ⟨r, rfl⟩ | ⟨r, u, v, rfl⟩
  · obtain ⟨-, ⟨⟩⟩ := Option.ite_none_right_eq_some.mp h
    refine ⟨spares_addClient r c, clients_addClient r c, fun r' => ?_⟩
    unfold Fan.addClient
    split
    · rfl
    · exact removing_register r c r'
  · obtain ⟨-, ⟨⟩⟩ := Option.ite_none_right_eq_some.mp h
    have hstill := still_mapChannel s r c u v
    refine ⟨spares_mapChannel r c u v, ?_, hstill.removing⟩
    unfold Fan.mapChannel
    split <;> rfl

/-! ### What the handlers do -/

/-- The handler waits for its client's goroutines, or has returned. -/
def HandlerPc.late : HandlerPc → Bool
  | .tearing _ | .removing _ | .waiting | .returned => true
  | _ => false

/-- What a step of a handler does. -/
inductive Server.Goes (cfg : Config) (s : Server) (c : ℕ) : Server → Prop
  /-- It goes on by itself. -/
  | own {t : Server} (hfan : t.fan = s.fan) (hother : ∀ c', c' ≠ c → t.handlers c' = s.handlers c')
      (hb : (s.handlers c).pc.late = false) (ha : (t.handlers c).pc.late = false) : Goes cfg s c t
  /-- SETUP registers the client, or maps a channel. -/
  | setup {a : Act} {fan : Fan} {pc : HandlerPc} (hfan : s.fan.step cfg a = some fan)
      (hact : (∃ r, a = .addClient r c) ∨ ∃ r u v, a = .mapChannel r c u v)
      (hb : (s.handlers c).pc.late = false) (ha : pc.late = false) : Goes cfg s c (s.goto c fan pc)
  /-- It begins to remove the client. -/
  | remove (r : ℕ) {fan : Fan} {wait after : HandlerPc} (hfan : s.fan.step cfg (.removeClient r c) = some fan)
      (hb : (s.handlers c).pc.late = false) (hw : wait = .tearing r ∨ wait = .removing r) (ha : after.late = false) :
      Goes cfg s c (s.goto c fan (if (fan.streams r).removing = some c then wait else after))
  /-- The client's session has ended. -/
  | removed (r : ℕ) {fan : Fan} {after : HandlerPc}
      (hpc : (s.handlers c).pc = .tearing r ∨ (s.handlers c).pc = .removing r)
      (hr : (s.fan.streams r).removing = some c) (hfan : s.fan.step cfg (.stopped r) = some fan)
      (ha : after.late = false) : Goes cfg s c (s.goto c fan after)
  /-- It destroys the client. -/
  | destroy {fan : Fan} (hpc : (s.handlers c).pc = .destroying) (hfan : s.fan.step cfg (.destroy c) = some fan) :
      Goes cfg s c (s.goto c fan (if (s.fan.clients c).destroyed then .returned else .waiting))
  /-- The client's writer has ended. -/
  | waited (hpc : (s.handlers c).pc = .waiting) (hw : (s.fan.clients c).pc = .exited) :
      Goes cfg s c (s.goto c s.fan .returned)

section Handlers

variable {s t : Server}

@[simp] theorem handlers_goto (c : ℕ) (fan : Fan) (pc : HandlerPc) :
    ((s.goto c fan pc).handlers c).pc = pc := by
  simp [Server.goto]

theorem handlers_goto_of_ne {c c' : ℕ} (h : c' ≠ c) (fan : Fan) (pc : HandlerPc) :
    (s.goto c fan pc).handlers c' = s.handlers c' := Function.update_of_ne h _ _

theorem goes_of_stepHandler {c : ℕ} {o : HandlerInput} (h : s.stepHandler cfg c o = some t) : s.Goes cfg c t := by
  have hown {pc : HandlerPc} (hb : (s.handlers c).pc.late = false) (ha : pc.late = false) :
      s.Goes cfg c (s.goto c s.fan pc) :=
    .own rfl (fun c' hc => handlers_goto_of_ne hc _ _) hb (by rw [handlers_goto]; exact ha)
  unfold Server.stepHandler at h
  split at h
  case h_1 hpc | h_2 hpc | h_4 hpc => -- leave, refuse, mapped
    cases h
    exact hown (by rw [hpc]; rfl) rfl
  case h_3 r channels hpc => -- setup, accept
    obtain ⟨-, h⟩ := Option.ite_none_right_eq_some.mp h
    obtain ⟨fan, hfan, rfl⟩ := Option.map_eq_some_iff.mp h
    exact .setup hfan (.inl ⟨r, rfl⟩) (by rw [hpc]; rfl) rfl
  case h_5 r upstreamChan clientChan channels hpc => -- mapping
    obtain ⟨fan, hfan, rfl⟩ := Option.map_eq_some_iff.mp h
    exact .setup hfan (.inr ⟨r, _, _, rfl⟩) (by rw [hpc]; rfl) rfl
  case h_6 r hpc => -- teardown
    obtain ⟨fan, hfan, rfl⟩ := Option.map_eq_some_iff.mp h
    exact .remove r hfan (by rw [hpc]; rfl) (.inl rfl) rfl
  case h_7 r hpc => -- tearing
    obtain ⟨hr, h⟩ := Option.ite_none_right_eq_some.mp h
    obtain ⟨fan, hfan, rfl⟩ := Option.map_eq_some_iff.mp h
    exact .removed r (.inl hpc) hr hfan rfl
  case h_8 hpc => -- leaving
    split at h
    · cases h
      exact hown (by rw [hpc]; rfl) rfl
    case h_2 r hcur =>
      obtain ⟨fan, hfan, rfl⟩ := Option.map_eq_some_iff.mp h
      exact .remove r hfan (by rw [hpc]; rfl) (.inr rfl) rfl
  case h_9 r hpc => -- removing
    obtain ⟨hr, h⟩ := Option.ite_none_right_eq_some.mp h
    obtain ⟨fan, hfan, rfl⟩ := Option.map_eq_some_iff.mp h
    exact .removed r (.inr hpc) hr hfan rfl
  case h_10 hpc => -- destroying
    obtain ⟨fan, hfan, rfl⟩ := Option.map_eq_some_iff.mp h
    exact .destroy hpc hfan
  case h_11 hpc => -- waiting
    obtain ⟨hw, ⟨⟩⟩ := Option.ite_none_right_eq_some.mp h
    exact .waited hpc hw
  case h_12 => cases h

theorem late_methodPc (request : Request) (r : ℕ) : (methodPc request r).late = false := by
  unfold methodPc
  split_ifs <;> rfl

theorem goes_of_request {c : ℕ} {request : Request} (h : s.request c request = some t) : s.Goes cfg c t := by
  obtain ⟨hcond, h⟩ := Option.ite_none_left_eq_some.mp h
  obtain ⟨hpc, -⟩ := not_or.mp hcond
  have hb : (s.handlers c).pc.late = false := by
    rw [not_not.mp hpc]
    rfl
  split at h
  case h_1 =>
    cases h
    exact .own rfl (fun c' hc => handlers_goto_of_ne hc _ _) hb (by rw [handlers_goto]; rfl)
  case h_2 client request' _ =>
    cases h
    refine .own rfl (fun c' hc => Function.update_of_ne hc _ _) hb ?_
    simp [late_methodPc]

/-- What a handler does leaves the others alone. -/
theorem spares_of_goes {c : ℕ} (h : s.Goes cfg c t) :
    (∀ c', c' ≠ c → t.handlers c' = s.handlers c') ∧ s.fan.Spares c t.fan := by
  cases h with
  | own hfan hother => exact ⟨hother, hfan ▸ .refl _ c⟩
  | setup hfan hact => exact ⟨fun c' hc => handlers_goto_of_ne hc _ _, (spares_setup hfan hact).1⟩
  | remove r hfan =>
    obtain ⟨-, hfan⟩ := Option.ite_none_left_eq_some.mp hfan
    obtain ⟨hnone, ⟨⟩⟩ := Option.ite_none_right_eq_some.mp hfan
    exact ⟨fun c' hc => handlers_goto_of_ne hc _ _, (spares_removeClient hnone).1⟩
  | removed r hpc hr hfan =>
    obtain rfl := forget_of_stopped hr hfan
    exact ⟨fun c' hc => handlers_goto_of_ne hc _ _, spares_forget r c⟩
  | destroy hpc hfan =>
    obtain ⟨-, ⟨⟩⟩ := Option.ite_none_left_eq_some.mp hfan
    exact ⟨fun c' hc => handlers_goto_of_ne hc _ _, spares_destroy c⟩
  | waited => exact ⟨fun c' hc => handlers_goto_of_ne hc _ _, .refl _ c⟩

/-- What a step of the server does. -/
inductive Server.Moves (cfg : Config) (s : Server) : ServerAct → Server → Prop
  /-- A goroutine other than the handlers goes on. -/
  | other {a : Act} {fan : Fan} (ha : a.isOther = true) (hfan : s.fan.step cfg a = some fan) :
      Moves cfg s (.other a) { s with fan := fan }
  /-- A client's handler goes on. -/
  | goes (c : ℕ) {act : ServerAct} {t : Server} (h : s.Goes cfg c t) (hact : ∀ a, act ≠ .other a)
      (hlate : (s.handlers c).pc.late = true → ∃ o, act = .handler c o) : Moves cfg s act t
  /-- `Shutdown` goes on. -/
  | rests {act : ServerAct} {t : Server} (hfan : t.fan = s.fan) (hh : t.handlers = s.handlers)
      (hact : ∀ a, act ≠ .other a) : Moves cfg s act t

theorem moves_of_step (h : s.Sound) {act : ServerAct} (hs : s.step cfg act = some t) : s.Moves cfg act t := by
  unfold Server.step at hs
  split at hs
  case h_1 r => -- a camera is dialed
    obtain ⟨-, hs⟩ := Option.ite_none_right_eq_some.mp hs
    obtain ⟨fan, hfan, rfl⟩ := Option.map_eq_some_iff.mp hs
    exact .other rfl hfan
  case h_2 a _ => -- other
    obtain ⟨ha, hs⟩ := Option.ite_none_right_eq_some.mp hs
    obtain ⟨fan, hfan, rfl⟩ := Option.map_eq_some_iff.mp hs
    exact .other ha hfan
  case h_3 => -- accept
    obtain ⟨-, ⟨⟩⟩ := Option.ite_none_left_eq_some.mp hs
    have hb : (s.handlers s.accepted).pc.late = false := by
      rw [h.accepted s.accepted (Nat.le_refl _)]
      rfl
    refine .goes s.accepted (.own rfl (fun c' hc => Function.update_of_ne hc _ _) hb ?_) (by simp) (by simp [hb])
    simp [HandlerPc.late]
  case h_4 c request => -- request
    obtain ⟨-, hs⟩ := Option.ite_none_left_eq_some.mp hs
    have hpc : (s.handlers c).pc = .reading := by
      obtain ⟨hcond, -⟩ := Option.ite_none_left_eq_some.mp hs
      exact not_not.mp (not_or.mp hcond).1
    exact .goes c (goes_of_request hs) (by simp) (by simp [hpc, HandlerPc.late])
  case h_5 c o => -- handler
    obtain ⟨-, hs⟩ := Option.ite_none_left_eq_some.mp hs
    exact .goes c (goes_of_stepHandler hs) (by simp) fun _ => ⟨o, rfl⟩
  case h_6 => -- shutdown
    obtain ⟨-, ⟨⟩⟩ := Option.ite_none_right_eq_some.mp hs
    exact .rests rfl rfl (by simp)
  case h_7 r => -- detach
    obtain ⟨⟨hsh, -, -⟩, hs⟩ := Option.ite_none_right_eq_some.mp hs
    obtain ⟨fan, hfan, rfl⟩ := Option.map_eq_some_iff.mp hs
    obtain ⟨-, ⟨⟩⟩ := Option.ite_none_left_eq_some.mp hfan
    exact .rests (h.detach_eq hsh r).2 rfl (by simp)
  case h_8 => -- stop
    rw [h.stopping.1] at hs
    cases hs
  case h_9 => -- stopped
    rw [h.stopping.2] at hs
    cases hs

/-! ### What holds in every state -/

/-- What holds of the handlers and the goroutines that they wait for. -/
structure Server.Orderly (cfg : Config) (s : Server) : Prop where
  /-- Sessions, channels and buffers. -/
  inv : s.Inv cfg
  /-- The capacities. -/
  tight : s.fan.Tight cfg
  /-- `mu` is held by the handler that waits for the session. -/
  holder : ∀ r c, (s.fan.streams r).removing = some c ↔
    (s.handlers c).pc = .tearing r ∨ (s.handlers c).pc = .removing r
  /-- Who has destroyed a client waits until the writer has ended. -/
  left : ∀ c, (s.fan.clients c).destroyed = true → (s.handlers c).pc = .waiting ∨
    (∃ k, (s.fan.sessions k).client = c ∧ (s.fan.sessions k).pc = .waitWriter) ∨ (s.fan.clients c).pc = .exited
  /-- A handler that waits for the writer, or has returned, has a client that is destroyed. -/
  gone : ∀ c, (s.handlers c).pc = .waiting ∨ (s.handlers c).pc = .returned → (s.fan.clients c).destroyed = true

theorem orderly_newServer : newServer.Orderly cfg where
  inv := ⟨sound_newServer, owned_newFan, sized_newFan⟩
  tight := tight_newFan
  holder r c := by simp [newServer, newFan, newStream, noHandler]
  left := nofun
  gone c := by simp [newServer, noHandler]

/-- A destroyed client, as far as the sessions and writers have moved. -/
theorem Server.Orderly.left_of (h : s.Orderly cfg) {fan : Fan} {c : ℕ} (hd : (s.fan.clients c).destroyed = true)
    (hsess : ∀ k, (s.fan.sessions k).client = c → (s.fan.sessions k).pc = .waitWriter →
      (fan.sessions k).client = c ∧ (fan.sessions k).pc = .waitWriter ∨ (fan.clients c).pc = .exited)
    (hpc : (s.fan.clients c).pc = .exited → (fan.clients c).pc = .exited) : (s.handlers c).pc = .waiting ∨
      (∃ k, (fan.sessions k).client = c ∧ (fan.sessions k).pc = .waitWriter) ∨ (fan.clients c).pc = .exited := by
  rcases h.left c hd with hw | ⟨k, hk, hkpc⟩ | hx
  · exact .inl hw
  · rcases hsess k hk hkpc with hsame | hx
    · exact .inr (.inl ⟨k, hsame⟩)
    · exact .inr (.inr hx)
  · exact .inr (.inr (hpc hx))

/-- A goroutine other than the handlers does not remove a client. -/
theorem removing_of_shift {s t : Fan} (h : s.Shift t) (r : ℕ) : (t.streams r).removing = (s.streams r).removing := by
  cases h with
  | still h => exact h.removing r
  | evict | close | badSend | badClose | badSlice => rfl

/-- **A step of a goroutine other than the handlers.** -/
theorem Server.Orderly.other (h : s.Orderly cfg) {a : Act} (ha : a.isOther = true) {fan : Fan}
    (hfan : s.fan.step cfg a = some fan) (hinv : Server.Inv cfg { s with fan := fan }) :
    Server.Orderly cfg { s with fan := fan } := by
  have hcalm : fan.panicked = false := hinv.sound.calm
  have hshift := shift_of_step ha hfan
  refine ⟨hinv, h.tight.step h.inv.sound.registered hfan hcalm, fun r c => ?_, fun c hd => ?_,
    fun c hc => (persists_of_shift hshift).destroyed c (h.gone c hc)⟩
  · rw [removing_of_shift hshift]
    exact h.holder r c
  · obtain ⟨-, hs⟩ := Option.ite_none_left_eq_some.mp hfan
    cases a with
    | loop r o =>
      obtain rfl | ⟨l, -, rfl⟩ := setLoop_of_stepLoop hs
      · exact h.left c hd
      · exact h.left c hd
    | dispatch r f targets =>
      obtain ⟨-, ⟨⟩⟩ := Option.ite_none_right_eq_some.mp hs
      exact h.left c hd
    | dispatching r o =>
      have hread := readStep_of_stepDispatch hs hcalm
      rw [hread.clients] at hd
      refine h.left_of hd (fun k hk hkpc => .inl ?_) (by rw [hread.clients]; exact id)
      obtain ⟨-, hc, -, hpc⟩ := hread.session k
      exact ⟨hc.trans hk, hpc.trans hkpc⟩
    | run k o =>
      have hrun := runStep_of_stepRun hs hcalm
      have hpc : (fan.clients c).pc = (s.fan.clients c).pc := by
        by_cases hc : c = (s.fan.sessions k).client
        · exact hc ▸ hrun.hop.writer.1
        · rw [hrun.client c hc]
      by_cases hold : (s.fan.clients c).destroyed = true
      · refine h.left_of hold (fun k' hk hkpc => ?_) fun hx => hpc.trans hx
        by_cases hkk : k' = k
        · -- the session has waited for the writer
          subst hkk
          exact .inr (hpc.trans (hk ▸ hrun.hop.waited hkpc))
        · rw [hrun.session k' hkk]
          exact .inl ⟨hk, hkpc⟩
      · -- the session has destroyed its client
        have hc : c = (s.fan.sessions k).client := by
          by_contra hc
          rw [hrun.client c hc] at hd
          exact hold hd
        subst hc
        exact .inr (.inl ⟨k, hrun.hop.same.2.1, (hrun.hop.destroyed.mp hd).resolve_left hold⟩)
    | writer c' o =>
      have hwriter := writerStep_of_stepWriter hs
      by_cases hc : c = c'
      · subst hc
        refine h.left_of (hwriter.same.1 ▸ hd) (fun k hk hkpc => .inl ?_) fun hx => absurd hx hwriter.live
        rw [hwriter.sessions]
        exact ⟨hk, hkpc⟩
      · rw [hwriter.client c hc] at hd
        refine h.left_of hd (fun k hk hkpc => .inl ?_) fun hx => by rw [hwriter.client c hc]; exact hx
        rw [hwriter.sessions]
        exact ⟨hk, hkpc⟩
    | close c' =>
      obtain ⟨-, hsess, -, hcl⟩ := clients_of_close hs hcalm
      have hsame : (fan.clients c).pc = (s.fan.clients c).pc ∧
          (fan.clients c).destroyed = (s.fan.clients c).destroyed := by
        by_cases hc : c = c' <;> simp [hcl, hc]
      refine h.left_of (hsame.2 ▸ hd) (fun k hk hkpc => .inl ?_) fun hx => hsame.1.trans hx
      rw [hsess]
      exact ⟨hk, hkpc⟩
    | cancel =>
      cases hs
      exact h.left c hd
    | addClient | mapChannel | removeClient | stopped | destroy => cases ha

/-- A session in `Destroy` waits only while the handler serves the client. -/
theorem Server.Orderly.serving (h : s.Orderly cfg) {k c : ℕ} (hk : (s.fan.sessions k).client = c)
    (hpc : (s.fan.sessions k).pc ≠ .exited) : (s.handlers c).pc.serving = true := by
  have hlive := h.inv.sound.registered.live k hpc
  rw [hk] at hlive
  exact (h.inv.sound.single hlive).2

/-- The handler of one client changes, with its `mu` and its client. -/
theorem Server.Orderly.of_handler (h : s.Orderly cfg) {c : ℕ} (hinv : t.Inv cfg) (htight : t.fan.Tight cfg)
    (hother : ∀ c', c' ≠ c → t.handlers c' = s.handlers c') (hspares : s.fan.Spares c t.fan)
    (hrem : ∀ r c', c' ≠ c → ((t.fan.streams r).removing = some c' ↔ (s.fan.streams r).removing = some c'))
    (hholder : ∀ r, (t.fan.streams r).removing = some c ↔
      (t.handlers c).pc = .tearing r ∨ (t.handlers c).pc = .removing r)
    (hleft : (t.fan.clients c).destroyed = true → (t.handlers c).pc = .waiting ∨
      (∃ k, (s.fan.sessions k).client = c ∧ (s.fan.sessions k).pc = .waitWriter) ∨ (t.fan.clients c).pc = .exited)
    (hgone : (t.handlers c).pc = .waiting ∨ (t.handlers c).pc = .returned → (t.fan.clients c).destroyed = true) :
    t.Orderly cfg := by
  have hsess {k c' : ℕ} (hk : (s.fan.sessions k).client = c') (hkpc : (s.fan.sessions k).pc = .waitWriter) :
      (t.fan.sessions k).client = c' ∧ (t.fan.sessions k).pc = .waitWriter := by
    have hreg := h.inv.sound.registered
    obtain ⟨hc, hpc, -⟩ := hspares.session k (hreg.entry (hreg.live k (by simp [hkpc]))).1
    exact ⟨hc.trans hk, hpc.trans hkpc⟩
  refine ⟨hinv, htight, fun r c' => ?_, fun c' hd => ?_, fun c' hc' => ?_⟩
  · by_cases hc : c' = c
    · exact hc ▸ hholder r
    · rw [hrem r c' hc, hother c' hc]
      exact h.holder r c'
  · by_cases hc : c' = c
    · subst hc
      exact (hleft hd).imp_right (Or.imp_left fun ⟨k, hk, hkpc⟩ => ⟨k, hsess hk hkpc⟩)
    · obtain ⟨hcl, -⟩ := hspares.client c' hc
      rw [hcl] at hd
      rw [hother c' hc]
      exact h.left_of hd (fun k hk hkpc => .inl (hsess hk hkpc)) fun hx => hcl ▸ hx
  · by_cases hc : c' = c
    · subst hc
      exact hgone hc'
    · rw [(hspares.client c' hc).1]
      exact h.gone c' (hother c' hc ▸ hc')

/-- A handler that does not wait holds no `mu`. -/
theorem Server.Orderly.not_removing (h : s.Orderly cfg) {c : ℕ} (hb : (s.handlers c).pc.late = false) (r : ℕ) :
    (s.fan.streams r).removing ≠ some c := by
  intro hr
  rcases (h.holder r c).mp hr with hpc | hpc <;> rw [hpc] at hb <;> cases hb

theorem Server.Orderly.left_early (h : s.Orderly cfg) {c : ℕ} (hb : (s.handlers c).pc.late = false)
    (hd : (s.fan.clients c).destroyed = true) :
    (∃ k, (s.fan.sessions k).client = c ∧ (s.fan.sessions k).pc = .waitWriter) ∨ (s.fan.clients c).pc = .exited := by
  refine (h.left c hd).resolve_left fun hw => ?_
  rw [hw] at hb
  cases hb

theorem HandlerPc.not_of_late {pc : HandlerPc} (h : pc.late = false) :
    (∀ r, ¬(pc = .tearing r ∨ pc = .removing r)) ∧ ¬(pc = .waiting ∨ pc = .returned) := by
  constructor
  · rintro r (rfl | rfl) <;> cases h
  · rintro (rfl | rfl) <;> cases h

/-- **A step of a handler.** -/
theorem Server.Orderly.goes (h : s.Orderly cfg) {c : ℕ} (hg : s.Goes cfg c t) (hinv : t.Inv cfg) : t.Orderly cfg := by
  have hcalm : t.fan.panicked = false := hinv.sound.calm
  have hreg := h.inv.sound.registered
  obtain ⟨hother, hspares⟩ := spares_of_goes hg
  cases hg with
  | own hfan _ hb ha =>
    refine h.of_handler (c := c) hinv (hfan ▸ h.tight) hother hspares (by simp [hfan]) (fun r => ?_)
      (fun hd => ?_) fun hw => absurd hw (HandlerPc.not_of_late ha).2
    · rw [hfan]
      exact iff_of_false (h.not_removing hb r) ((HandlerPc.not_of_late ha).1 r)
    · rw [hfan] at hd ⊢
      exact .inr (h.left_early hb hd)
  | setup hfan hact hb ha =>
    obtain ⟨-, hcl, hrem⟩ := spares_setup hfan hact
    refine h.of_handler hinv (h.tight.step hreg hfan hcalm) hother hspares (fun r c' _ => by rw [← hrem r]; rfl)
      (fun r => ?_) (fun hd => ?_) fun hw => ?_
    · rw [handlers_goto]
      exact iff_of_false (hrem r ▸ h.not_removing hb r) ((HandlerPc.not_of_late ha).1 r)
    · exact .inr (hcl ▸ h.left_early hb (hcl ▸ hd))
    · rw [handlers_goto] at hw
      exact absurd hw (HandlerPc.not_of_late ha).2
  | @remove r fan wait after hfan hb hw ha =>
    have htight := h.tight.step hreg hfan hcalm
    obtain ⟨-, hfan⟩ := Option.ite_none_left_eq_some.mp hfan
    obtain ⟨hnone, ⟨⟩⟩ := Option.ite_none_right_eq_some.mp hfan
    obtain ⟨-, hrem, hmu⟩ := spares_removeClient (c := c) hnone
    have hcl := clients_removeClient (s := s.fan) r c
    refine h.of_handler hinv htight hother hspares (fun r' c' hc => ?_) (fun r' => ?_) (fun hd => ?_) fun hlate => ?_
    · show ((s.fan.removeClient r c).streams r').removing = some c' ↔ _
      by_cases hr : r' = r
      · subst hr
        rw [hnone]
        rcases hmu with hmu | hmu <;> rw [hmu]
        simp [Ne.symm hc]
      · rw [hrem r' hr]
    · show ((s.fan.removeClient r c).streams r').removing = some c ↔ _
      rw [handlers_goto]
      by_cases hr : r' = r
      · subst hr
        split
        case isTrue hmu => exact iff_of_true hmu hw
        case isFalse hmu => exact iff_of_false hmu ((HandlerPc.not_of_late ha).1 r')
      · rw [hrem r' hr]
        refine iff_of_false (h.not_removing hb r') fun hpc => ?_
        split at hpc
        · rcases hw with rfl | rfl <;> simp [Ne.symm hr] at hpc
        · exact (HandlerPc.not_of_late ha).1 r' hpc
    · exact .inr (hcl ▸ h.left_early hb (hcl ▸ hd))
    · rw [handlers_goto] at hlate
      split at hlate
      · rcases hw with rfl | rfl <;> simp at hlate
      · exact absurd hlate (HandlerPc.not_of_late ha).2
  | @removed r fan after hpc hr hfan ha =>
    have htight := h.tight.step hreg hfan hcalm
    obtain rfl := forget_of_stopped hr hfan
    have hnotwait : (s.handlers c).pc ≠ .waiting := by
      rcases hpc with hpc | hpc <;> simp [hpc]
    refine h.of_handler hinv htight hother hspares (fun r' c' hc => ?_) (fun r' => ?_)
      (fun hd => .inr ((h.left c hd).resolve_left hnotwait)) fun hlate => ?_
    · show ((s.fan.forget r c).streams r').removing = some c' ↔ _
      by_cases hrr : r' = r
      · subst hrr
        rw [hr]
        simp [Fan.forget, Fan.setStream, Ne.symm hc]
      · simp [Fan.forget, Fan.setStream, hrr]
    · show ((s.fan.forget r c).streams r').removing = some c ↔ _
      rw [handlers_goto]
      refine iff_of_false (fun hmu => ?_) ((HandlerPc.not_of_late ha).1 r')
      by_cases hrr : r' = r
      · simp [Fan.forget, Fan.setStream, hrr] at hmu
      · have hpc' := (h.holder r' c).mp (by simpa [Fan.forget, Fan.setStream, hrr] using hmu)
        rcases hpc with hpc | hpc <;> rw [hpc] at hpc' <;> simp [Ne.symm hrr] at hpc'
    · rw [handlers_goto] at hlate
      exact absurd hlate (HandlerPc.not_of_late ha).2
  | @destroy fan hpc hfan =>
    have htight := h.tight.step hreg hfan hcalm
    obtain ⟨-, ⟨⟩⟩ := Option.ite_none_left_eq_some.mp hfan
    have hb : (s.handlers c).pc.late = false := by rw [hpc]; rfl
    refine h.of_handler hinv htight hother hspares (fun _ _ _ => Iff.rfl) (fun r => ?_) (fun _ => ?_) fun _ => ?_
    · rw [handlers_goto]
      refine iff_of_false (h.not_removing hb r) fun hpc' => ?_
      split at hpc' <;> simp at hpc'
    · rw [handlers_goto]
      split
      case isFalse => exact .inl rfl
      case isTrue hd =>
        refine .inr ((h.left_early hb hd).imp_right fun hx => ?_)
        simpa [Server.goto, Fan.setClient] using hx
    · simp [Server.goto, Fan.setClient]
  | waited hpc hw =>
    refine h.of_handler (c := c) hinv h.tight hother hspares (fun _ _ _ => Iff.rfl) (fun r => ?_)
      (fun _ => .inr (.inr hw)) fun _ => h.gone c (.inl hpc)
    rw [handlers_goto]
    refine iff_of_false (fun hr => ?_) (by simp)
    rcases (h.holder r c).mp hr with hpc' | hpc' <;> rw [hpc] at hpc' <;> cases hpc'

/-- **One step.** -/
theorem Server.Orderly.step (h : s.Orderly cfg) {act : ServerAct} (hset : Settled s act)
    (hs : s.step cfg act = some t) : t.Orderly cfg := by
  have hinv := h.inv.step hset hs
  cases moves_of_step h.inv.sound hs with
  | other ha hfan => exact h.other ha hfan hinv
  | goes c hg => exact h.goes hg hinv
  | rests hfan hh =>
    refine ⟨hinv, hfan ▸ h.tight, fun r c => ?_, fun c => ?_, fun c => ?_⟩
    · rw [hfan, hh]
      exact h.holder r c
    · rw [hfan, hh]
      exact h.left c
    · rw [hfan, hh]
      exact h.gone c

/-! ### A handler's wait -/

/-- The steps of a client's goroutines: its sessions, its writer, and who closes its `writeChan`. -/
def Server.serves (c : ℕ) (s : Server) : ServerAct → Bool
  | .other (.run k _) => (s.fan.sessions k).client = c
  | .other (.writer c' _) => c' = c
  | .other (.close c') => c' = c
  | _ => false

/-- A handler waits for its client's goroutines: for the session with a stream, or for the writer. -/
def HandlerPc.waits (r : ℕ) (pc : HandlerPc) : Prop := pc = .tearing r ∨ pc = .removing r ∨ pc = .waiting

theorem HandlerPc.waits.late {r : ℕ} {pc : HandlerPc} (h : pc.waits r) : pc.late = true := by
  rcases h with rfl | rfl | rfl <;> rfl

/-- What there is to do for a client depends on its session, its reader and its writer. -/
theorem work_congr {s t : Fan} {r c : ℕ} (hof : t.sessionOf r c = s.sessionOf r c)
    (hl : (t.streams r).loop = (s.streams r).loop)
    (hss : ∀ k, s.sessionOf r c = some k → (t.sessions k).pc = (s.sessions k).pc ∧
      (t.sessions k).queue = (s.sessions k).queue) (hc : t.clients c = s.clients c) : t.work r c = s.work r c := by
  unfold Fan.work
  rw [hof, hl, hc]
  cases hk : s.sessionOf r c with
  | none => rfl
  | some k =>
    obtain ⟨hpc, hq⟩ := hss k hk
    simp only [Option.elim_some, Session.work, hpc, hq]

/-- A session of the client is the one that the handler waits for. -/
theorem Server.Orderly.sessionOf_live (h : s.Orderly cfg) {r c k : ℕ} (hw : (s.handlers c).pc.waits r)
    (hk : (s.fan.sessions k).client = c) (hlive : (s.fan.sessions k).pc ≠ .exited) :
    (s.fan.sessions k).stream = r ∧ s.fan.sessionOf r c = some k := by
  have hof := h.inv.sound.registered.live k hlive
  rw [hk] at hof
  obtain ⟨hcur, hserving⟩ := h.inv.sound.single hof
  have hr : (s.fan.sessions k).stream = r := by
    rcases hw with hpc | hpc | hpc
    · exact Option.some.inj (hcur.symm.trans (h.inv.sound.stream (by rw [hpc]; rfl)))
    · exact Option.some.inj (hcur.symm.trans (h.inv.sound.stream (by rw [hpc]; rfl)))
    · rw [hpc] at hserving
      cases hserving
  exact ⟨hr, hr ▸ hof⟩

/-- A reader adds no work: it pushes what it was about to. -/
theorem work_read {s t : Fan} (hreg : s.Registered) {r₀ : ℕ} (hs : s.ReadStep cfg r₀ t) (r c : ℕ) :
    t.work r c ≤ s.work r c := by
  have hof : t.sessionOf r c = s.sessionOf r c := by
    unfold Fan.sessionOf
    by_cases hr : r = r₀
    · subst hr
      rw [hs.same.1]
    · rw [hs.stream r hr]
  by_cases hr : r = r₀
  · subst hr
    unfold Fan.work
    rw [hof, hs.clients]
    cases s.sessionOf r c with
    | none => exact Nat.le_refl _
    | some k =>
      have hdue := hs.due k
      simp only [Option.elim_some, Session.work, (hs.session k).2.2.2]
      omega
  · refine Nat.le_of_eq (work_congr hof (by rw [hs.stream r hr]) (fun k hk => ⟨(hs.session k).2.2.2, ?_⟩)
      (by rw [hs.clients]))
    -- the sessions that it pushes to are those of its own stream
    refine hs.other k fun u hu hku => hr ?_
    rw [← (hreg.entry hk).2.1, ← hku]
    exact (hreg.target hu).2

/-- **A step of another goroutine**: those of the client do some of the work, and nobody adds to it. -/
theorem Server.Orderly.work_other (h : s.Orderly cfg) {r c : ℕ} (hw : (s.handlers c).pc.waits r) {a : Act} {fan : Fan}
    (ha : a.isOther = true) (hfan : s.fan.step cfg a = some fan) (hcalm : fan.panicked = false) :
    (s.serves c (.other a)).toNat + fan.work r c ≤ s.fan.work r c := by
  have hreg := h.inv.sound.registered
  obtain ⟨-, hs⟩ := Option.ite_none_left_eq_some.mp hfan
  cases a with
  | loop r₀ o =>
    simp only [Server.serves, Bool.toNat_false, Nat.zero_add]
    obtain rfl | ⟨l, hl, rfl⟩ := setLoop_of_stepLoop hs
    · exact Nat.le_refl _
    · have hread : s.fan.ReadStep cfg r₀ (s.fan.setLoop r₀ l) := readStep_setLoop rfl rfl rfl (by simp [hl.targets])
      exact work_read hreg hread r c
  | dispatch r₀ f targets =>
    simp only [Server.serves, Bool.toNat_false, Nat.zero_add]
    obtain ⟨⟨-, hnone, -, -⟩, ⟨⟩⟩ := Option.ite_none_right_eq_some.mp hs
    have hof := congrFun₂ (sessionOf_setStream (s := s.fan) (r := r₀) (f := fun st =>
      { st with
        loop := .reading (.next f.encode targets)
        history := st.history ++ [⟨f, s.fan.mapped r₀ f.channel.toNat⟩] }) rfl) r c
    by_cases hr : r = r₀
    · -- nobody waits for a session of this stream
      subst hr
      have hno : s.fan.sessionOf r c = none := by
        rcases hw with hpc | hpc | hpc
        · exact nomatch hnone.symm.trans ((h.holder r c).mpr (.inl hpc))
        · exact nomatch hnone.symm.trans ((h.holder r c).mpr (.inr hpc))
        · exact h.inv.sound.no_session_of_serving (by rw [hpc]; rfl) r
      unfold Fan.work
      rw [hof, hno]
      exact Nat.le_refl _
    · exact Nat.le_of_eq (work_congr hof (by simp [Fan.setStream, hr]) (fun _ _ => ⟨rfl, rfl⟩) rfl)
  | dispatching r₀ o =>
    simp only [Server.serves, Bool.toNat_false, Nat.zero_add]
    exact work_read hreg (readStep_of_stepDispatch hs hcalm) r c
  | run k o =>
    have hrun := runStep_of_stepRun hs hcalm
    have hof : fan.sessionOf r c = s.fan.sessionOf r c := by
      unfold Fan.sessionOf
      rw [hrun.streams]
    by_cases hc : (s.fan.sessions k).client = c
    · obtain ⟨-, hk⟩ := h.sessionOf_live hw hc hrun.hop.live
      have hwork := hrun.hop.work
      rw [hc] at hwork
      simp only [Server.serves, hc, decide_true, Bool.toNat_true, Fan.work, hof, hk, Option.elim_some, hrun.streams]
      omega
    · simp only [Server.serves, hc, decide_false, Bool.toNat_false, Nat.zero_add]
      refine Nat.le_of_eq (work_congr hof (by rw [hrun.streams]) (fun k' hk' => ?_) (hrun.client c (Ne.symm hc)))
      have hkk : k' ≠ k := by
        rintro rfl
        exact hc (hreg.entry hk').2.2
      rw [hrun.session k' hkk]
      exact ⟨rfl, rfl⟩
  | writer c' o =>
    have hwriter := writerStep_of_stepWriter hs
    have hof : fan.sessionOf r c = s.fan.sessionOf r c := by
      unfold Fan.sessionOf
      rw [hwriter.streams]
    by_cases hc : c' = c
    · subst hc
      have hwork := hwriter.work
      simp only [Server.serves, decide_true, Bool.toNat_true, Fan.work, hof, hwriter.sessions, hwriter.streams]
      omega
    · simp only [Server.serves, hc, decide_false, Bool.toNat_false, Nat.zero_add]
      refine Nat.le_of_eq (work_congr hof (by rw [hwriter.streams]) (fun k' _ => ?_) (hwriter.client c (Ne.symm hc)))
      rw [hwriter.sessions]
      exact ⟨rfl, rfl⟩
  | close c' =>
    obtain ⟨hstreams, hsess, hopen, hcl⟩ := clients_of_close hs hcalm
    have hof : fan.sessionOf r c = s.fan.sessionOf r c := by
      unfold Fan.sessionOf
      rw [hstreams]
    by_cases hc : c' = c
    · subst hc
      simp only [Server.serves, decide_true, Bool.toNat_true, Fan.work, hof, hsess, hstreams, hcl, Function.update_self,
        Client.work, hopen, Bool.not_true, Bool.not_false, Bool.toNat_false]
      omega
    · simp only [Server.serves, hc, decide_false, Bool.toNat_false, Nat.zero_add]
      refine Nat.le_of_eq (work_congr hof (by rw [hstreams]) (fun k' _ => by rw [hsess]; exact ⟨rfl, rfl⟩) ?_)
      rw [hcl, Function.update_of_ne (Ne.symm hc)]
  | cancel =>
    cases hs
    exact Nat.le_of_eq (Nat.zero_add _)
  | addClient | mapChannel | removeClient | stopped | destroy => cases ha

/-- Only the goroutines other than the handlers serve a client. -/
theorem serves_eq_false {c : ℕ} {act : ServerAct} (h : ∀ a, act ≠ .other a) : s.serves c act = false := by
  cases act with
  | other a => exact absurd rfl (h a)
  | _ => rfl

/-- **One step while a handler waits**: it goes on waiting, and the work pays for the steps of its
client's goroutines. -/
theorem Server.Orderly.pays (h : s.Orderly cfg) {r c : ℕ} (hw : (s.handlers c).pc.waits r) {act : ServerAct}
    (hset : Settled s act) (hne : ∀ o, act ≠ .handler c o) (hs : s.step cfg act = some t) :
    (t.handlers c).pc.waits r ∧ (s.serves c act).toNat + t.fan.work r c ≤ s.fan.work r c := by
  have hcalm : t.fan.panicked = false := (h.inv.step hset hs).sound.calm
  cases moves_of_step h.inv.sound hs with
  | other ha hfan => exact ⟨hw, h.work_other hw ha hfan hcalm⟩
  | goes c' hg hact hlate =>
    have hc : c ≠ c' := by
      rintro rfl
      obtain ⟨o, ho⟩ := hlate hw.late
      exact hne o ho
    obtain ⟨hother, hspares⟩ := spares_of_goes hg
    obtain ⟨hcl, hof⟩ := hspares.client c hc
    rw [hother c hc, serves_eq_false hact, Bool.toNat_false, Nat.zero_add]
    refine ⟨hw, Nat.le_of_eq (work_congr (hof r) (hspares.loop r) (fun k hk => ?_) hcl)⟩
    exact (hspares.session k (h.inv.sound.registered.entry hk).1).2
  | rests hfan hh hact =>
    rw [hfan, hh, serves_eq_false hact, Bool.toNat_false, Nat.zero_add]
    exact ⟨hw, Nat.le_refl _⟩

theorem work_le {s : Fan} (h : s.Tight cfg) (r c : ℕ) : s.work r c ≤ 5 * cfg.packetQueueSize + 619 := by
  have hclient : (s.clients c).work ≤ 605 := by
    have hw := (s.clients c).pc.work_le
    have hchan := h.writeChan c
    have hopen := Bool.toNat_le (!(s.clients c).closed)
    simp only [writeChanSize] at hchan
    unfold Client.work
    omega
  unfold Fan.work
  cases s.sessionOf r c with
  | none => exact Nat.le_trans (Nat.le_of_eq (Nat.zero_add _)) (Nat.le_trans hclient (by omega))
  | some k =>
    have hpc := (s.sessions k).pc.work_le
    have hq := h.queue k
    have hp := h.pending r k
    simp only [Option.elim_some, Session.work]
    omega

/-! ### Somebody can go on -/

/-- The writer of a destroyed client can go on, or its channel can be closed. -/
theorem writer_progress (cfg : Config) {s : Fan} {c : ℕ} (honce : (s.clients c).Once)
    (hd : (s.clients c).destroyed = true) (hx : (s.clients c).pc ≠ .exited) :
    (s.close c).isSome = true ∨ ∃ o, (s.stepWriter cfg c o).isSome = true := by
  have hclose (hopen : (s.clients c).closed = false) : (s.close c).isSome = true := by
    have hone := honce.closing
    rw [if_pos ⟨hd, hopen⟩] at hone
    simp [Fan.close, hone, hopen]
  cases hpc : (s.clients c).pc with
  | loop =>
    cases hq : (s.clients c).writeChan with
    | nil =>
      cases hcl : (s.clients c).closed with
      | false => exact .inl (hclose hcl)
      | true => exact .inr ⟨.data, by simp [Fan.stepWriter, hpc, hq, hcl]⟩
    | cons x q => exact .inr ⟨.data, by simp [Fan.stepWriter, hpc, hq]⟩
  | write x => exact .inr ⟨.wrote true, by simp [Fan.stepWriter, hpc]⟩
  | put x ok => exact .inr ⟨.next, by simp [Fan.stepWriter, hpc]⟩
  | drain =>
    cases hq : (s.clients c).writeChan with
    | nil =>
      cases hcl : (s.clients c).closed with
      | false => exact .inl (hclose hcl)
      | true => exact .inr ⟨.next, by simp [Fan.stepWriter, hpc, hq, hcl]⟩
    | cons x q => exact .inr ⟨.next, by simp [Fan.stepWriter, hpc, hq]⟩
  | drainPut x => exact .inr ⟨.next, by simp [Fan.stepWriter, hpc]⟩
  | exited => exact absurd hpc hx

/-- A session that was told to stop can go on, or waits for the writer. -/
theorem run_progress (cfg : Config) {s : Fan} {k : ℕ} (hq : (s.sessions k).quit = true)
    (hx : (s.sessions k).pc ≠ .exited) :
    (∃ o, (s.stepRun cfg k o).isSome = true) ∨
      (s.sessions k).pc = .waitWriter ∧ (s.clients (s.sessions k).client).pc ≠ .exited := by
  cases hpc : (s.sessions k).pc with
  | select => exact .inl ⟨.quit, by simp [Fan.stepRun, hpc, hq]⟩
  | forward x => exact .inl ⟨.timeout, by simp [Fan.stepRun, hpc]⟩
  | slow x => exact .inl ⟨.next, by simp [Fan.stepRun, hpc]⟩
  | destroy => exact .inl ⟨.next, by simp [Fan.stepRun, hpc]; split <;> rfl⟩
  | waitWriter =>
    by_cases hw : (s.clients (s.sessions k).client).pc = .exited
    · exact .inl ⟨.next, by simp [Fan.stepRun, hpc, hw]⟩
    · exact .inr ⟨rfl, hw⟩
  | drain => exact .inl ⟨.next, by simp [Fan.stepRun, hpc]; split <;> rfl⟩
  | drainPut x => exact .inl ⟨.next, by simp [Fan.stepRun, hpc]⟩
  | exited => exact absurd hpc hx

/-- A client's handler, or one of its goroutines, can go on. -/
def Server.CanGo (cfg : Config) (s : Server) (c : ℕ) : Prop :=
  (∃ o, (s.step cfg (.handler c o)).isSome = true) ∨ ∃ act, s.serves c act = true ∧ (s.step cfg act).isSome = true

theorem isSome_run (h : s.fan.panicked = false) {k : ℕ} {o : RunInput} (hs : (s.fan.stepRun cfg k o).isSome = true) :
    (s.step cfg (.other (.run k o))).isSome = true := by
  simpa [Server.step, Act.isOther, Fan.step, h] using hs

/-- While the writer of a destroyed client has not ended, one of the client's goroutines can go on. -/
theorem Server.Orderly.writer_canGo (h : s.Orderly cfg) {c : ℕ} (hd : (s.fan.clients c).destroyed = true)
    (hx : (s.fan.clients c).pc ≠ .exited) : s.CanGo cfg c := by
  have hcalm := h.inv.sound.calm
  rcases writer_progress cfg (h.inv.sound.once c) hd hx with hs | ⟨o, hs⟩
  · refine .inr ⟨.other (.close c), by simp [Server.serves], ?_⟩
    simpa [Server.step, Act.isOther, Fan.step, hcalm] using hs
  · refine .inr ⟨.other (.writer c o), by simp [Server.serves], ?_⟩
    simpa [Server.step, Act.isOther, Fan.step, hcalm] using hs

/-- **A handler that waits**: it can go on, or one of the goroutines that it waits for can. -/
theorem Server.Orderly.canGo (h : s.Orderly cfg) {r c : ℕ} (hw : (s.handlers c).pc.waits r) : s.CanGo cfg c := by
  have hcalm := h.inv.sound.calm
  have hsession (hpc : (s.handlers c).pc = .tearing r ∨ (s.handlers c).pc = .removing r) : s.CanGo cfg c := by
    have hr := (h.holder r c).mpr hpc
    obtain ⟨k, hk, hq⟩ := h.tight.removing r c hr
    have hc := (h.inv.sound.registered.entry hk).2.2
    by_cases hx : (s.fan.sessions k).pc = .exited
    · refine .inl ⟨.next, ?_⟩
      rcases hpc with hpc | hpc <;>
        simp [Server.step, Server.stepHandler, hcalm, hpc, hr, Fan.step, Fan.stopped, hk, hx]
    · rcases run_progress cfg hq hx with ⟨o, hs⟩ | ⟨hwait, hwriter⟩
      · exact .inr ⟨.other (.run k o), by simp [Server.serves, hc], isSome_run hcalm hs⟩
      · rw [hc] at hwriter
        exact h.writer_canGo (hc ▸ h.tight.evicted k hwait) hwriter
  rcases hw with hpc | hpc | hpc
  · exact hsession (.inl hpc)
  · exact hsession (.inr hpc)
  · by_cases hx : (s.fan.clients c).pc = .exited
    · exact .inl ⟨.next, by simp [Server.step, Server.stepHandler, hcalm, hpc, hx]⟩
    · exact h.writer_canGo (h.gone c (.inl hpc)) hx

/-! ### Whole runs -/

theorem orderly_of_run {as : List ServerAct} (h : exec (Server.step cfg) newServer as = some s)
    (hset : AllSteps (Server.step cfg) Settled newServer as) : s.Orderly cfg :=
  exec_invariant (fun _ _ _ hs hc hstep => Server.Orderly.step hs hc hstep) as newServer s orderly_newServer hset h

/-- **A handler's wait ends.** Suppose that a handler waits, in `RemoveClient` for its client's session or
in `Destroy` for its writer. Whatever the others do until the handler goes on, its client's goroutines
take at most `5 * PacketQueueSize + 619` steps, and in every state one of them can take a step, or the
handler can go on. -/
theorem wait_ends (cfg : Config) {as bs : List ServerAct} {s t : Server} {r c : ℕ}
    (hs : exec (Server.step cfg) newServer as = some s) (hset : AllSteps (Server.step cfg) Settled newServer as)
    (hw : (s.handlers c).pc.waits r) (ht : exec (Server.step cfg) s bs = some t)
    (hset' : AllSteps (Server.step cfg) Settled s bs) (hbs : ∀ act ∈ bs, ∀ o, act ≠ .handler c o) :
    tally (Server.step cfg) (Server.serves c) s bs ≤ 5 * cfg.packetQueueSize + 619 ∧ t.CanGo cfg c := by
  have horderly := orderly_of_run hs hset
  obtain ⟨⟨ht, hwt⟩, hpaid⟩ := tally_add_le (P := Server.serves c) (Φ := fun s => s.fan.work r c)
    (I := fun s => s.Orderly cfg ∧ (s.handlers c).pc.waits r)
    (C := fun s act => Settled s act ∧ ∀ o, act ≠ .handler c o)
    (fun s act t ⟨h, hw⟩ ⟨hc, hne⟩ hstep =>
      have hpays := h.pays hw hc hne hstep
      ⟨⟨h.step hc hstep, hpays.1⟩, hpays.2⟩)
    bs s t ⟨horderly, hw⟩ (hset'.and (allSteps_of_forall hbs)) ht
  have hle := work_le horderly.tight r c
  exact ⟨by omega, ht.canGo hwt⟩

/-- Two clients set up. A packet is on its way to the first, which tears down. -/
def tearsDown : List ServerAct := List.flatten
  [[.accept, .accept, .request 0 (ask "SETUP" "cam:554" "/x"), .other (.loop 0 .start), .other (.loop 0 .dialed),
      .handler 0 (.accept [(0, 2)]), .handler 0 .next, .handler 0 .next, .request 1 (ask "SETUP" "cam:554" "/x"),
      .handler 1 (.accept []), .handler 1 .next],
    frameTo 0 2, [.request 0 (ask "TEARDOWN" "cam:554" "/x"), .handler 0 .next]]

/-- The session sends the packet, and stops. The writer takes the packet. -/
def stops : List ServerAct := [.run 0 .sent, .run 0 .quit, .writer 0 .data].map .other

theorem wait_ends_tearsDown :
    ∃ s t, exec (Server.step ⟨2048, 10⟩) newServer tearsDown = some s ∧ (s.handlers 0).pc = .tearing 0 ∧
      exec (Server.step ⟨2048, 10⟩) s stops = some t ∧
      tally (Server.step ⟨2048, 10⟩) (Server.serves 0) s stops ≤ 669 ∧ t.CanGo ⟨2048, 10⟩ 0 := by
  have hrun : (exec (Server.step ⟨2048, 10⟩) newServer tearsDown).any (fun s =>
      decide ((s.handlers 0).pc = .tearing 0 ∧ AllSteps (Server.step ⟨2048, 10⟩) Settled s stops) &&
        (exec (Server.step ⟨2048, 10⟩) s stops).isSome) = true := by decide +kernel
  have hset : AllSteps (Server.step ⟨2048, 10⟩) Settled newServer tearsDown := by decide +kernel
  obtain ⟨s, hs, hstep⟩ := (Option.any_eq_true _ _).mp hrun
  obtain ⟨hpc, ht⟩ := Bool.and_eq_true_iff.mp hstep
  obtain ⟨t, ht⟩ := Option.isSome_iff_exists.mp ht
  obtain ⟨hpc, hset'⟩ := of_decide_eq_true hpc
  obtain ⟨hle, hgo⟩ := wait_ends ⟨2048, 10⟩ hs hset (.inl hpc) ht hset' (by simp [stops])
  exact ⟨s, t, hs, hpc, ht, hle, hgo⟩

/-- **Nothing is left behind.** When a client's handler has returned, the client's writer has ended and
its `writeChan` is closed and empty, the client is registered with no stream and holds no `mu`, and
the goroutines of all its sessions have ended. -/
theorem none_left_behind (cfg : Config) {as : List ServerAct} {s : Server}
    (hs : exec (Server.step cfg) newServer as = some s) (hset : AllSteps (Server.step cfg) Settled newServer as) {c : ℕ}
    (hc : (s.handlers c).pc = .returned) :
    ((s.fan.clients c).pc = .exited ∧ (s.fan.clients c).closed = true ∧ (s.fan.clients c).writeChan = []) ∧
      (∀ r, s.fan.sessionOf r c = none ∧ (s.fan.streams r).removing ≠ some c) ∧
      ∀ k, (s.fan.sessions k).client = c → (s.fan.sessions k).pc = .exited := by
  have h := orderly_of_run hs hset
  have hserving : (s.handlers c).pc.serving = false := by
    rw [hc]
    rfl
  have hsess (k : ℕ) (hk : (s.fan.sessions k).client = c) : (s.fan.sessions k).pc = .exited := by
    by_contra hlive
    exact nomatch hserving.symm.trans (h.serving hk hlive)
  have hexited : (s.fan.clients c).pc = .exited := by
    rcases h.left c (h.gone c (.inr hc)) with hw | ⟨k, hk, hkpc⟩ | hx
    · rw [hc] at hw
      cases hw
    · rw [hsess k hk] at hkpc
      cases hkpc
    · exact hx
  refine ⟨⟨hexited, h.tight.ended c hexited⟩,
    fun r => ⟨h.inv.sound.no_session_of_serving hserving r, fun hr => ?_⟩, hsess⟩
  rcases (h.holder r c).mp hr with hpc | hpc <;> rw [hc] at hpc <;> cases hpc

theorem none_left_behind_evicted :
    ∃ s, exec (Server.step ⟨2048, 10⟩) newServer evicted = some s ∧ (s.handlers 0).pc = .returned ∧
      (s.fan.clients 0).pc = .exited ∧ (s.fan.sessions 0).pc = .exited ∧ (s.fan.sessions 1).pc = .exited := by
  have hrun : (exec (Server.step ⟨2048, 10⟩) newServer evicted).any (fun s => decide ((s.handlers 0).pc = .returned ∧
      (s.fan.sessions 0).client = 0 ∧ (s.fan.sessions 1).client = 0)) = true := by decide +kernel
  have hset : AllSteps (Server.step ⟨2048, 10⟩) Settled newServer evicted := by decide +kernel
  obtain ⟨s, hs, hpc⟩ := (Option.any_eq_true _ _).mp hrun
  obtain ⟨hpc, h₀, h₁⟩ := of_decide_eq_true hpc
  obtain ⟨hwriter, -, hsess⟩ := none_left_behind ⟨2048, 10⟩ hs hset hpc
  exact ⟨s, hs, hpc, hwriter.1, hsess 0 h₀, hsess 1 h₁⟩

end Handlers

end RtspProxy.Fanout
