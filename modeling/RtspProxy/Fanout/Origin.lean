import RtspProxy.Fanout.Closing
import RtspProxy.Fanout.Ending
import RtspProxy.Fanout.Order
import Mathlib.Data.List.Induction

/-!
# Whose frames a client gets

The password of a camera is part of the URL that a client sends. A client that does not have it must
not get the camera's frames from the proxy, which has a connection to the camera open already for
another client. "Authentication context participates in stream identity to ensure isolation":
`GetStream` finds a stream by the user name, the password, the host and the path together.

## The model

`SetUp cfg as c target` says that in the run `as` the client has sent a SETUP which `Client.resolve` has
resolved to this target. The run is one of `Server.step`: clients come and go and change their
targets, and readers, sessions and writers go on, in any order.

## What is proved

* `sessionOf_of_step`, `mem_history_of_step` — how a client comes to be registered with a stream, and a
  frame to be dispatched for it.
* `Server.Asked.step` — a client is registered only with a stream of a target that it has set up.
* `written_asked` — **what a client is written are frames of streams that it has set up itself**, with
  the very credentials that the stream was made with, up to a recut of the key.
-/

namespace RtspProxy.Fanout

open Theory Wire

variable {cfg : Config}

/-! ### What a step does to registrations and dispatched frames -/

section Fans

variable {s t : Fan}

/-- A goroutine other than the handlers registers no client. -/
theorem sessionOf_of_shift (h : s.Shift t) : t.sessionOf = s.sessionOf := by
  cases h with
  | still h => exact h.sessionOf
  | evict | close | badSend | badClose | badSlice => rfl

theorem sessionOf_removeClient {r c r' c' k : ℕ} (h : (s.removeClient r c).sessionOf r' c' = some k) :
    s.sessionOf r' c' = some k := by
  unfold Fan.removeClient at h
  split at h
  case h_2 => exact h
  case h_1 =>
    split at h
    · split at h
      · exact h
      · rwa [sessionOf_setStream rfl] at h
    · rw [sessionOf_forget] at h
      exact (Option.ite_none_left_eq_some.mp h).2

/-- **A client is registered by `AddClient`.** -/
theorem sessionOf_of_step {a : Act} (h : s.step cfg a = some t) {r c k : ℕ} (hk : t.sessionOf r c = some k) :
    s.sessionOf r c = some k ∨ a = .addClient r c := by
  by_cases ha : a.isOther = true
  · exact .inl (sessionOf_of_shift (shift_of_step ha h) ▸ hk)
  obtain ⟨-, h⟩ := Option.ite_none_left_eq_some.mp h
  cases a with
  | addClient r' c' =>
    obtain ⟨-, ⟨⟩⟩ := Option.ite_none_right_eq_some.mp h
    unfold Fan.addClient at hk
    split at hk
    · exact .inl hk
    · rw [sessionOf_register] at hk
      split at hk
      case isTrue hrc => exact .inr (by rw [hrc.1, hrc.2])
      case isFalse => exact .inl hk
  | mapChannel r' c' upstreamChan clientChan =>
    obtain ⟨-, ⟨⟩⟩ := Option.ite_none_right_eq_some.mp h
    exact .inl ((still_mapChannel s r' c' upstreamChan clientChan).sessionOf ▸ hk)
  | removeClient r' c' =>
    obtain ⟨-, ⟨⟩⟩ := Option.ite_none_right_eq_some.mp h
    exact .inl (sessionOf_removeClient hk)
  | stopped r' =>
    obtain ⟨c', -, h⟩ := Option.bind_eq_some_iff.mp h
    obtain ⟨k', -, h⟩ := Option.bind_eq_some_iff.mp h
    obtain ⟨-, ⟨⟩⟩ := Option.ite_none_right_eq_some.mp h
    rw [sessionOf_forget] at hk
    exact .inl (Option.ite_none_left_eq_some.mp hk).2
  | destroy c' =>
    cases h
    exact .inl hk
  | loop | dispatch | dispatching | run | writer | close | cancel => exact absurd rfl ha

/-- **A frame is dispatched for the clients that are registered and have mapped its channel.** -/
theorem mem_history_of_step (hreg : s.Registered) {a : Act} (h : s.step cfg a = some t) {r : ℕ} {d : Dispatched}
    (hd : d ∈ (t.streams r).history) : d ∈ (s.streams r).history ∨ ∃ channel, d.mapped = s.mapped r channel := by
  by_cases ha : a.isCalm = true
  · exact .inl ((rests_of_step ha hreg h).history r ▸ hd)
  obtain ⟨-, h⟩ := Option.ite_none_left_eq_some.mp h
  cases a with
  | dispatch r' f targets =>
    obtain ⟨-, ⟨⟩⟩ := Option.ite_none_right_eq_some.mp h
    by_cases hr : r = r'
    · subst hr
      simp only [Fan.setStream, Function.update_self, List.mem_append, List.mem_singleton] at hd
      rcases hd with hd | rfl
      · exact .inl hd
      · exact .inr ⟨_, rfl⟩
    · simp only [Fan.setStream, Function.update_of_ne hr] at hd
      exact .inl hd
  | dispatching r' o =>
    have hread := (readMove_of_stepDispatch h).frame
    by_cases hr : r = r'
    · subst hr
      exact .inl (hread.history ▸ hd)
    · exact .inl (hread.streams r hr ▸ hd)
  | run k o => exact .inl ((runMove_of_stepRun h).frame.streams ▸ hd)
  | writer c o => exact .inl ((writerMove_of_stepWriter h).frame.streams ▸ hd)
  | _ => exact absurd rfl ha

end Fans

/-! ### What a client has asked for -/

variable {as : List ServerAct} {s t : Server}

/-- In the run a request of the client, for SETUP, was resolved to the target. -/
def SetUp (cfg : Config) (as : List ServerAct) (c : ℕ) (T : Downstream.Target) : Prop :=
  ∃ as₁ request as₂ s client request', as = as₁ ++ .request c request :: as₂ ∧
    exec (Server.step cfg) newServer as₁ = some s ∧ (s.handlers c).client.resolve request = some (client, request') ∧
    request'.method = ascii "SETUP" ∧ T = target client

/-- The stream is the one of a target that the client has set up. -/
def Server.Asks (cfg : Config) (as : List ServerAct) (s : Server) (c r : ℕ) : Prop :=
  ∃ T v, SetUp cfg as c T ∧ s.manager.entries.lookup T.key = some (r, v)

/-- What holds before `Shutdown` has waited for the handlers. -/
structure Server.Asked (cfg : Config) (as : List ServerAct) (s : Server) : Prop where
  /-- The sessions, the buffers, and what is on its way. -/
  fan : s.fan.Inv
  /-- `Stream.Destroy` does not run. -/
  idle : s.shutdown = false ∧ s.stopping = [] ∧ s.awaiting = none
  /-- A stream is found by the key of the arguments that it was made with. -/
  values : ∀ {key r v}, s.manager.entries.lookup key = some (r, v) → v.key = key
  /-- A handler in `handleSetup` has the stream that its client asks for. -/
  setup : ∀ {c r}, (s.handlers c).pc = .setup r → s.Asks cfg as c r
  /-- A registered client has asked for the stream. -/
  registered : ∀ {r c k}, s.fan.sessionOf r c = some k → s.Asks cfg as c r
  /-- So has a client for which a frame was dispatched. -/
  history : ∀ {r c d}, d ∈ (s.fan.streams r).history → d.mapped c ≠ none → s.Asks cfg as c r

theorem asked_newServer : newServer.Asked cfg [] where
  fan := inv_newFan
  idle := ⟨rfl, rfl, rfl⟩
  values h := by simp [newServer, Downstream.newStreamManager, Registry.empty] at h
  setup h := by simp [newServer, noHandler] at h
  registered h := by simp [newServer, newFan, Fan.sessionOf, newStream] at h
  history h := by simp [newServer, newFan, newStream] at h

/-- What a step of the server before `Shutdown` does to the manager and to who is about to register. -/
structure Server.Advances (cfg : Config) (s : Server) (act : ServerAct) (t : Server) : Prop where
  /-- The streams, sessions and clients; `AddClient` is called in `handleSetup`. -/
  fan : t.fan = s.fan ∨ ∃ a, s.fan.step cfg a = some t.fan ∧ ∀ r c, a = .addClient r c → (s.handlers c).pc = .setup r
  /-- `Stream.Destroy` does not run. -/
  idle : t.shutdown = s.shutdown ∧ t.stopping = s.stopping ∧ t.awaiting = s.awaiting
  /-- The manager keeps its streams. -/
  keeps : ∀ {key e}, s.manager.entries.lookup key = some e → t.manager.entries.lookup key = some e
  /-- A stream is made for its key. -/
  values : ∀ {key r v}, t.manager.entries.lookup key = some (r, v) →
    s.manager.entries.lookup key = some (r, v) ∨ v.key = key
  /-- A handler gets into `handleSetup` by a request. -/
  setup : ∀ {c r}, (t.handlers c).pc = .setup r → (s.handlers c).pc = .setup r ∨
    ∃ request client request' v, act = .request c request ∧
      (s.handlers c).client.resolve request = some (client, request') ∧ request'.method = ascii "SETUP" ∧
      t.manager.entries.lookup (target client).key = some (r, v)

/-- A handler goes on, and not into `handleSetup`. -/
theorem advances_goto {c : ℕ} {act : ServerAct} {fan : Fan} {pc : HandlerPc} (hpc : ∀ r, pc ≠ .setup r)
    (hfan : fan = s.fan ∨ ∃ a, s.fan.step cfg a = some fan ∧ ∀ r c, a = .addClient r c → (s.handlers c).pc = .setup r) :
    s.Advances cfg act (s.goto c fan pc) := by
  refine ⟨hfan, ⟨rfl, rfl, rfl⟩, id, .inl, fun {c' r} h => .inl ?_⟩
  by_cases hc : c' = c
  · subst hc
    exact absurd (by simpa [Server.goto] using h) (hpc r)
  · simpa [Server.goto, hc] using h

/-- A step of a handler after a request was read. -/
theorem advances_of_stepHandler {c : ℕ} {act : ServerAct} {o : HandlerInput} (h : s.stepHandler cfg c o = some t) :
    s.Advances cfg act t := by
  have hact {a : Act} {pc : Fan → HandlerPc}
      (h : ((s.fan.step cfg a).map fun fan => s.goto c fan (pc fan)) = some t) (hpc : ∀ fan r, pc fan ≠ .setup r)
      (ha : ∀ r c, a = .addClient r c → (s.handlers c).pc = .setup r) : s.Advances cfg act t := by
    obtain ⟨fan, hfan, rfl⟩ := Option.map_eq_some_iff.mp h
    exact advances_goto (hpc fan) (.inr ⟨a, hfan, ha⟩)
  unfold Server.stepHandler at h
  split at h
  case h_1 | h_2 | h_4 => -- leave, refuse, mapped
    cases h
    exact advances_goto (by simp) (.inl rfl)
  case h_3 r channels hpc => -- setup, accept
    obtain ⟨-, h⟩ := Option.ite_none_right_eq_some.mp h
    refine hact h (by simp) fun r' c' ha => ?_
    cases ha
    exact hpc
  case h_5 => exact hact h (by simp) (by simp)
  case h_6 => exact hact h (fun fan r => by split <;> simp) (by simp)
  case h_7 | h_9 => -- the session has ended
    obtain ⟨-, h⟩ := Option.ite_none_right_eq_some.mp h
    exact hact h (by simp) (by simp)
  case h_8 => -- leaving
    split at h
    · cases h
      exact advances_goto (by simp) (.inl rfl)
    · exact hact h (fun fan r => by split <;> simp) (by simp)
  case h_10 => exact hact h (fun fan r => by split <;> simp) (by simp)
  case h_11 => -- waiting
    obtain ⟨-, ⟨⟩⟩ := Option.ite_none_right_eq_some.mp h
    exact advances_goto (by simp) (.inl rfl)
  case h_12 => cases h

/-- SETUP is the method that goes into `handleSetup`. -/
theorem setup_of_methodPc {request : Request} {r r' : ℕ} (h : methodPc request r = .setup r') :
    request.method = ascii "SETUP" ∧ r' = r := by
  unfold methodPc at h
  split_ifs at h with hm
  exact ⟨hm, (HandlerPc.setup.inj h).symm⟩

theorem advances_of_request {c : ℕ} {request : Request} (h : s.request c request = some t) :
    s.Advances cfg (.request c request) t := by
  obtain ⟨-, h⟩ := Option.ite_none_left_eq_some.mp h
  split at h
  case h_1 =>
    cases h
    exact advances_goto (by simp) (.inl rfl)
  case h_2 client request' hresolve =>
    dsimp only at h
    set e := s.manager.getStream (target client) with he
    have ht := (Option.some.inj h).symm
    have hman : t.manager = e.2 := by rw [ht]
    have hlookup : e.2.entries.lookup (target client).key = some e.1 := Registry.lookup_get _ _ _
    refine ⟨.inl (by rw [ht]), by rw [ht]; exact ⟨rfl, rfl, rfl⟩, fun hk => ?_, fun {key r v} hk => ?_,
      fun {c' r} hpc => ?_⟩
    · rw [hman]
      exact Registry.lookup_get_of_some hk _ _
    · rw [hman] at hk
      rcases Registry.eq_of_lookup_get hk with hold | ⟨rfl, rfl⟩
      · exact .inl hold
      · exact .inr rfl
    · by_cases hc : c' = c
      · subst hc
        have hself : (t.handlers c').pc = methodPc request' e.1.1 := by simp [ht]
        obtain ⟨hm, rfl⟩ := setup_of_methodPc (hself.symm.trans hpc)
        exact .inr ⟨request, client, request', e.1.2, rfl, hresolve, hm, hman ▸ hlookup⟩
      · exact .inl (by simpa [ht, hc] using hpc)

/-- **A step of the server before `Shutdown`.** -/
theorem advances_of_step {act : ServerAct} (h : s.step cfg act = some t) (hact : act ≠ .shutdown)
    (hidle : s.shutdown = false ∧ s.stopping = [] ∧ s.awaiting = none) : s.Advances cfg act t := by
  unfold Server.step at h
  split at h
  case h_1 r => -- a camera is dialed
    obtain ⟨-, h⟩ := Option.ite_none_right_eq_some.mp h
    obtain ⟨fan, hfan, rfl⟩ := Option.map_eq_some_iff.mp h
    exact ⟨.inr ⟨_, hfan, nofun⟩, ⟨rfl, rfl, rfl⟩, id, .inl, .inl⟩
  case h_2 a _ => -- other
    obtain ⟨ha, h⟩ := Option.ite_none_right_eq_some.mp h
    obtain ⟨fan, hfan, rfl⟩ := Option.map_eq_some_iff.mp h
    refine ⟨.inr ⟨a, hfan, fun r c he => ?_⟩, ⟨rfl, rfl, rfl⟩, id, .inl, .inl⟩
    subst he
    cases ha
  case h_3 => -- accept
    obtain ⟨-, ⟨⟩⟩ := Option.ite_none_left_eq_some.mp h
    refine ⟨.inl rfl, ⟨rfl, rfl, rfl⟩, id, .inl, fun {c r} hpc => .inl ?_⟩
    by_cases hc : c = s.accepted <;> simp [hc] at hpc ⊢
    exact hpc
  case h_4 c request => -- request
    obtain ⟨-, h⟩ := Option.ite_none_left_eq_some.mp h
    exact advances_of_request h
  case h_5 c o => -- handler
    obtain ⟨-, h⟩ := Option.ite_none_left_eq_some.mp h
    exact advances_of_stepHandler h
  case h_6 => exact absurd rfl hact
  case h_7 => -- detach
    obtain ⟨hguard, -⟩ := Option.ite_none_right_eq_some.mp h
    rw [hidle.1] at hguard
    cases hguard.1
  case h_8 => -- stop
    rw [hidle.2.1] at h
    cases h
  case h_9 => -- stopped
    rw [hidle.2.2] at h
    cases h

/-! ### Runs -/

/-- What a client has set up in a part of a run, it has set up in the run. -/
theorem SetUp.mono {c : ℕ} {T : Downstream.Target} (h : SetUp cfg as c T) (bs : List ServerAct) :
    SetUp cfg (as ++ bs) c T := by
  obtain ⟨as₁, request, as₂, s, client, request', rfl, hrest⟩ := h
  exact ⟨as₁, request, as₂ ++ bs, s, client, request', by simp, hrest⟩

/-- **One step.** -/
theorem Server.Asked.step (h : s.Asked cfg as) (hrun : exec (Server.step cfg) newServer as = some s) {act : ServerAct}
    (hs : s.step cfg act = some t) (hact : act ≠ .shutdown) : t.Asked cfg (as ++ [act]) := by
  have hstep := advances_of_step hs hact h.idle
  have hkeep {c r : ℕ} (ha : s.Asks cfg as c r) : t.Asks cfg (as ++ [act]) c r := by
    obtain ⟨T, v, hT, hv⟩ := ha
    exact ⟨T, v, hT.mono _, hstep.keeps hv⟩
  refine ⟨?_, ?_, fun hk => ?_, fun {c r} hpc => ?_, fun {r c k} hk => ?_, fun {r c d} hd hm => ?_⟩
  · rcases hstep.fan with heq | ⟨a, ha, -⟩
    · exact heq ▸ h.fan
    · exact h.fan.step ha
  · rw [hstep.idle.1, hstep.idle.2.1, hstep.idle.2.2]
    exact h.idle
  · exact (hstep.values hk).elim h.values id
  · rcases hstep.setup hpc with hold | ⟨request, client, request', v, rfl, hresolve, hm, hv⟩
    · exact hkeep (h.setup hold)
    · exact ⟨target client, v, ⟨as, request, [], s, client, request', rfl, hrun, hresolve, hm, rfl⟩, hv⟩
  · rcases hstep.fan with heq | ⟨a, ha, hadd⟩
    · exact hkeep (h.registered (heq ▸ hk))
    · rcases sessionOf_of_step ha hk with hold | rfl
      · exact hkeep (h.registered hold)
      · exact hkeep (h.setup (hadd r c rfl))
  · rcases hstep.fan with heq | ⟨a, ha, -⟩
    · exact hkeep (h.history (heq ▸ hd) hm)
    · rcases mem_history_of_step h.fan.registered ha hd with hold | ⟨channel, hmap⟩
      · exact hkeep (h.history hold hm)
      · -- a client is mapped if it is registered
        rw [hmap] at hm
        obtain ⟨ch, hch⟩ := Option.ne_none_iff_exists'.mp hm
        obtain ⟨k, hk, -⟩ := Option.bind_eq_some_iff.mp hch
        exact hkeep (h.registered hk)

theorem asked_of_run (h : exec (Server.step cfg) newServer as = some s) (hsh : .shutdown ∉ as) : s.Asked cfg as := by
  induction as using List.reverseRecOn generalizing s with
  | nil =>
    cases h
    exact asked_newServer
  | append_singleton as act ih =>
    obtain ⟨s', hs', h⟩ := exec_append.mp h
    obtain ⟨t, hstep, h⟩ := exec_cons_eq_some.mp h
    cases h
    simp only [List.mem_append, List.mem_singleton, not_or] at hsh
    exact (ih hs' hsh.1).step hs' hstep (Ne.symm hsh.2)

/-- **What a client is written are frames of streams that it has set up itself.** Until `Shutdown` has
waited for the handlers, and whatever other clients do, every packet that the writer of a client has
passed to its connection is a frame that a stream has dispatched, with the client's channel; and the
client has sent a SETUP that was resolved to the stream's key. The arguments with which the stream was
made are the target of this SETUP, or one is the other recut. -/
theorem written_asked (cfg : Config) {as : List ServerAct} {s : Server}
    (h : exec (Server.step cfg) newServer as = some s) (hsh : .shutdown ∉ as) {c : ℕ} {w : Written}
    (hw : w ∈ (s.fan.clients c).written) :
    (∃ d ∈ (s.fan.streams w.stream).history, ∃ clientChannel, d.mapped c = some clientChannel ∧
      w.data = clientPacket d.frame.encode clientChannel) ∧
    ∃ T v, SetUp cfg as c T ∧ s.manager.entries.lookup T.key = some (w.stream, v) ∧
      (T = v ∨ Downstream.Recut T v ∨ Downstream.Recut v T) := by
  have hasked := asked_of_run h hsh
  obtain ⟨d, hd, hmap⟩ := List.mem_filterMap.mp (hasked.fan.mem_selected hw)
  obtain ⟨clientChannel, hch, hdata⟩ := Option.map_eq_some_iff.mp hmap
  obtain ⟨T, v, hT, hv⟩ := hasked.history hd (by rw [hch]; simp)
  exact ⟨⟨d, hd, clientChannel, hch, hdata.symm⟩, T, v, hT, hv,
    (Downstream.key_eq_iff T v).mp (hasked.values hv).symm⟩

/-- A client with a password sets up, and another asks for the same path without it. A frame goes to the
first. -/
def privately : List ServerAct := List.flatten
  [[.accept, .accept,
      .request 0 ⟨ascii "SETUP", [], ⟨ascii "admin", ascii "pw", ascii "cam:554", ascii "/x"⟩, ascii "RTSP/1.0", []⟩,
      .other (.loop 0 .start), .other (.loop 0 .dialed), .handler 0 (.accept [(0, 2)]), .handler 0 .next,
      .handler 0 .next, .request 1 (ask "SETUP" "cam:554" "/x")],
    frameTo 0 2, [.run 0 .sent, .writer 0 .data, .writer 0 (.wrote true)].map .other]

theorem written_asked_privately :
    ∃ s, exec (Server.step ⟨2048, 10⟩) newServer privately = some s ∧ ∃ w ∈ (s.fan.clients 0).written,
      w.data = [36, 2, 0, 1, 7] ∧ ∃ T v, SetUp ⟨2048, 10⟩ privately 0 T ∧
        s.manager.entries.lookup T.key = some (w.stream, v) := by
  have hrun : (exec (Server.step ⟨2048, 10⟩) newServer privately).any (fun s =>
      decide ((s.fan.clients 0).written = [⟨0, [36, 2, 0, 1, 7]⟩])) = true := by decide +kernel
  obtain ⟨s, hs, hw⟩ := (Option.any_eq_true _ _).mp hrun
  have hmem : (⟨0, [36, 2, 0, 1, 7]⟩ : Written) ∈ (s.fan.clients 0).written := by
    rw [of_decide_eq_true hw]
    exact List.mem_singleton_self _
  obtain ⟨-, T, v, hT, hv, -⟩ := written_asked ⟨2048, 10⟩ hs (by simp [privately, frameTo]) hmem
  exact ⟨s, hs, _, hmem, rfl, T, v, hT, hv⟩

end RtspProxy.Fanout
