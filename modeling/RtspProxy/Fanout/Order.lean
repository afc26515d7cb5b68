import RtspProxy.Fanout.Ownership

/-!
# What reaches a client

What a stream still has for a client is a line: what the client's writer has, then what the
client's session has, then what the reader has yet to push. Slices only move forward in this
line, or are taken out of it. `dispatch` adds to its end, and the writer takes from its front.
A buffer that is filled is in no line, since it is in one place at a time.

## What is proved

* `flow_effect` — the line, after what was written, stays a subsequence of what was dispatched
  for the client.
* `written_sublist_selected` — a client's writer writes a subsequence of the frames dispatched
  for the client, each with the client's channel.
-/

namespace RtspProxy.Fanout

open Theory Wire Relation

variable {cfg : Config} {s t : Fan} {r c : ℕ}

/-! ### The line -/

/-- What a reader has yet to push to a session, of the targets left. -/
def toPush (packet : Bytes) (targets : List Target) (k : ℕ) : List Bytes :=
  (targets.filter fun t => t.session = k).map fun t => clientPacket packet t.clientChannel

/-- The slice a reader is about to push to a session. -/
def LoopPc.hand (r k : ℕ) : LoopPc → List Slice
  | .reading (.push packet t buf _) => if t.session = k then [⟨r, buf, packet.length⟩] else []
  | _ => []

/-- What a reader has yet to copy for a session. -/
def LoopPc.rest (k : ℕ) : LoopPc → List Bytes
  | .reading (.next packet targets) | .reading (.push packet _ _ targets)
  | .reading (.refused packet _ targets) => toPush packet targets k
  | .reading (.got packet t _ targets) => toPush packet (t :: targets) k
  | _ => []

/-- What a client's writer has written of a stream. -/
def Fan.sent (s : Fan) (r c : ℕ) : List Bytes :=
  ((s.clients c).written.filter fun w => w.stream = r).map Written.data

/-- The slices of a stream on their way to a client. -/
def Fan.slices (s : Fan) (r c : ℕ) : List Slice :=
  ((s.clients c).line.filter fun x => x.stream = r) ++
    (s.sessionOf r c).elim [] fun k => (s.sessions k).line ++ (s.streams r).loop.hand r k

/-- What the reader of a stream has yet to copy for a client. -/
def Fan.rest (s : Fan) (r c : ℕ) : List Bytes := (s.sessionOf r c).elim [] (s.streams r).loop.rest

/-- What has been written to a client of a stream, and what may be. -/
def Fan.flow (s : Fan) (r c : ℕ) : List Bytes := s.sent r c ++ (s.slices r c).map s.content ++ s.rest r c

theorem toPush_cons (packet : Bytes) (t : Target) (targets : List Target) (k : ℕ) :
    toPush packet (t :: targets) k =
      (if t.session = k then [clientPacket packet t.clientChannel] else []) ++ toPush packet targets k := by
  by_cases h : t.session = k <;> simp [toPush, h]

theorem toPush_eq_nil {packet : Bytes} {targets : List Target} {k : ℕ} (h : ∀ t ∈ targets, t.session ≠ k) :
    toPush packet targets k = [] := by
  simpa [toPush] using h

/-- A reader has nothing in hand for a session that is not among its targets. -/
theorem LoopPc.hand_eq_nil {l : LoopPc} {k : ℕ} (h : ∀ t ∈ l.targets, t.session ≠ k) : l.hand r k = [] := by
  unfold LoopPc.hand
  split
  · exact if_neg (h _ (by simp [LoopPc.targets]))
  · rfl

theorem LoopPc.rest_eq_nil {l : LoopPc} {k : ℕ} (h : ∀ t ∈ l.targets, t.session ≠ k) : l.rest k = [] := by
  unfold LoopPc.rest
  split
  · exact toPush_eq_nil h
  · exact toPush_eq_nil fun t ht => h t (by simp [LoopPc.targets, ht])
  · exact toPush_eq_nil h
  · exact toPush_eq_nil h
  · rfl

theorem content_setBuf {buf : ℕ} {bytes : Bytes} {x : Slice} (h : x.buf ≠ buf) :
    (s.setBuf buf bytes).content x = s.content x := by
  simp [Fan.content, Fan.setBuf, h]

theorem Session.buf_mem {cs : Session} {x : Slice} (hx : x ∈ cs.line) : x.buf ∈ cs.bufs := by
  rcases List.mem_append.mp hx with hx | hx
  · refine List.mem_append_left _ ?_
    cases hpc : cs.pc <;> simp_all [RunPc.hand, RunPc.bufs]
  · exact List.mem_append_right _ (List.mem_map_of_mem hx)

theorem Client.buf_mem {cl : Client} {x : Slice} (hx : x ∈ cl.line) : x.buf ∈ cl.bufs := by
  rcases List.mem_append.mp hx with hx | hx
  · refine List.mem_append_left _ ?_
    cases hpc : cl.pc <;> simp_all [WriterPc.hand, WriterPc.bufs]
  · exact List.mem_append_right _ (List.mem_map_of_mem hx)

/-- What is in a reader's hand, it has, and has filled. -/
theorem LoopPc.buf_mem {l : LoopPc} {k : ℕ} {x : Slice} (hx : x ∈ l.hand r k) :
    x.buf ∈ l.bufs ∧ ∃ packet t targets, l = .reading (.push packet t x.buf targets) := by
  unfold LoopPc.hand at hx
  split at hx
  case h_1 packet t buf targets =>
    split at hx
    · obtain rfl := List.mem_singleton.mp hx
      exact ⟨by simp [LoopPc.bufs], packet, t, targets, rfl⟩
    · cases hx
  case h_2 => cases hx

/-- The buffer of a slice on its way is somewhere; if a reader has it, it has filled it. -/
theorem held_of_mem_slices {x : Slice} (hx : x ∈ s.slices r c) :
    ∃ p, x.buf ∈ s.held p ∧
      ∀ r', p = .reader r' → ∃ packet t targets, (s.streams r').loop = .reading (.push packet t x.buf targets) := by
  rcases List.mem_append.mp hx with hx | hx
  · exact ⟨.client c, Client.buf_mem (List.mem_of_mem_filter hx), nofun⟩
  · cases hs : s.sessionOf r c with
    | none => simp [hs] at hx
    | some k =>
      rw [hs, Option.elim_some] at hx
      rcases List.mem_append.mp hx with hx | hx
      · exact ⟨.session k, Session.buf_mem hx, nofun⟩
      · obtain ⟨hb, hpush⟩ := LoopPc.buf_mem hx
        exact ⟨.reader r, hb, fun r' hr => Place.reader.inj hr ▸ hpush⟩

/-- A buffer that a reader has got and not filled is in no line. -/
theorem Fan.Owned.ne_of_got (h : s.Owned) {r₀ buf : ℕ} {packet : Bytes} {u : Target} {targets : List Target}
    (hl : (s.streams r₀).loop = .reading (.got packet u buf targets)) {x : Slice} (hx : x ∈ s.slices r c) :
    x.buf ≠ buf := by
  rintro rfl
  obtain ⟨p, hp, hpush⟩ := held_of_mem_slices hx
  have hr : x.buf ∈ s.held (.reader r₀) := by simp [Fan.held, hl, LoopPc.bufs]
  obtain ⟨_, _, _, hl'⟩ := hpush r₀ (h.unique hp hr)
  rw [hl] at hl'
  cases hl'

/-- A buffer that has not been made is in no line. -/
theorem Fan.Owned.ne_nextBuf (h : s.Owned) {x : Slice} (hx : x ∈ s.slices r c) : x.buf ≠ s.nextBuf := by
  obtain ⟨p, hp, -⟩ := held_of_mem_slices hx
  exact Nat.ne_of_lt (h.known hp)

/-! ### Moving in the line -/

theorem flow_sublist (hw : t.sent r c = s.sent r c) (hl : (t.slices r c).Sublist (s.slices r c))
    (hc : ∀ x ∈ t.slices r c, t.content x = s.content x) (hr : (t.rest r c).Sublist (s.rest r c)) :
    (t.flow r c).Sublist (s.flow r c) := by
  unfold Fan.flow
  rw [hw, List.map_congr_left hc]
  exact ((List.Sublist.refl _).append (hl.map _)).append hr

theorem flow_congr (hw : t.sent r c = s.sent r c) (hl : t.slices r c = s.slices r c)
    (hc : ∀ x ∈ s.slices r c, t.content x = s.content x) (hr : t.rest r c = s.rest r c) :
    t.flow r c = s.flow r c := by
  unfold Fan.flow
  rw [hw, hl, hr, List.map_congr_left hc]

theorem flow_setStream {r₀ : ℕ} {f : Stream → Stream}
    (hreg : (f (s.streams r₀)).registered = (s.streams r₀).registered)
    (hh : ∀ k, ((f (s.streams r₀)).loop.hand r₀ k).Sublist ((s.streams r₀).loop.hand r₀ k))
    (hr : ∀ k, ((f (s.streams r₀)).loop.rest k).Sublist ((s.streams r₀).loop.rest k)) :
    ((s.setStream r₀ f).flow r c).Sublist (s.flow r c) := by
  have hof := sessionOf_setStream hreg
  refine flow_sublist rfl ?_ (fun _ _ => rfl) ?_
  · unfold Fan.slices
    rw [hof]
    apply List.Sublist.append (.refl _)
    cases s.sessionOf r c with
    | none => exact .refl _
    | some k =>
      apply List.Sublist.append (.refl _)
      by_cases h : r = r₀
      · subst h
        simpa [Fan.setStream] using hh k
      · simp [Fan.setStream, h]
  · unfold Fan.rest
    rw [hof]
    cases s.sessionOf r c with
    | none => exact .refl _
    | some k =>
      by_cases h : r = r₀
      · subst h
        simpa [Fan.setStream] using hr k
      · simp [Fan.setStream, h]

theorem flow_setLoop {r₀ : ℕ} {l l' : LoopPc} (hl : (s.streams r₀).loop = l)
    (hh : ∀ k, (l'.hand r₀ k).Sublist (l.hand r₀ k)) (hr : ∀ k, (l'.rest k).Sublist (l.rest k)) :
    ((s.setLoop r₀ l').flow r c).Sublist (s.flow r c) := by
  subst hl
  exact flow_setStream rfl hh hr

theorem flow_newBuf (h : s.Owned) : (s.newBuf cfg).flow r c = s.flow r c :=
  flow_congr rfl rfl (fun _ hx => content_setBuf (h.ne_nextBuf hx)) rfl

theorem flow_setSession {k : ℕ} {f : Session → Session} (hl : (f (s.sessions k)).line.Sublist (s.sessions k).line) :
    ((s.setSession k f).flow r c).Sublist (s.flow r c) := by
  refine flow_sublist rfl ?_ (fun _ _ => rfl) (.refl _)
  apply List.Sublist.append (.refl _)
  show ((s.sessionOf r c).elim [] _).Sublist _
  cases s.sessionOf r c with
  | none => exact .refl _
  | some k' =>
    apply List.Sublist.append ?_ (.refl _)
    by_cases h : k' = k
    · subst h
      simpa [Fan.setSession] using hl
    · simp [Fan.setSession, h]

theorem flow_setClient {c₀ : ℕ} {f : Client → Client} (hl : (f (s.clients c₀)).line.Sublist (s.clients c₀).line)
    (hw : (f (s.clients c₀)).written = (s.clients c₀).written) :
    ((s.setClient c₀ f).flow r c).Sublist (s.flow r c) := by
  by_cases h : c = c₀
  · subst h
    apply flow_sublist
    · simp [Fan.sent, Fan.setClient, hw]
    · refine List.Sublist.append ?_ (.refl _)
      simpa [Fan.setClient] using hl.filter _
    · exact fun _ _ => rfl
    · exact .refl _
  · have hcl : (s.setClient c₀ f).clients c = s.clients c := by simp [Fan.setClient, h]
    apply flow_sublist
    · simp [Fan.sent, hcl]
    · refine List.Sublist.append ?_ (.refl _)
      rw [hcl]
    · exact fun _ _ => rfl
    · exact .refl _

/-- A reader fills its buffer: the copy is the frame it was to copy. -/
theorem flow_fill (h : s.Owned) {r₀ buf : ℕ} {packet : Bytes} {u : Target} {targets : List Target}
    (hl : (s.streams r₀).loop = .reading (.got packet u buf targets)) :
    ((s.setBuf buf (clientPacket packet u.clientChannel ++ (s.heap buf).drop packet.length)).setLoop r₀
      (.reading (.push packet u buf targets))).flow r c = s.flow r c := by
  set t := Fan.setLoop _ r₀ _ with ht
  have hof : t.sessionOf = s.sessionOf := sessionOf_setStream rfl
  have hold : (s.slices r c).map t.content = (s.slices r c).map s.content :=
    List.map_congr_left fun x hx => content_setBuf (h.ne_of_got hl hx)
  have hnew : t.content ⟨r₀, buf, packet.length⟩ = clientPacket packet u.clientChannel := by
    simp [ht, Fan.content, Fan.setLoop, Fan.setStream, Fan.setBuf, clientPacket]
  obtain ⟨l, hslices, hrest⟩ : ∃ l, t.slices r c = s.slices r c ++ l ∧ s.rest r c = l.map t.content ++ t.rest r c := by
    unfold Fan.slices Fan.rest
    rw [hof]
    cases s.sessionOf r c with
    | none => exact ⟨[], by simp [ht, Fan.setLoop, Fan.setStream, Fan.setBuf], rfl⟩
    | some k =>
      by_cases hr : r = r₀
      · subst hr
        have hloop : (t.streams r).loop = .reading (.push packet u buf targets) := by
          simp [ht, Fan.setLoop, Fan.setStream]
        refine ⟨(t.streams r).loop.hand r k, ?_, ?_⟩
        · simp [hl, LoopPc.hand, ht, Fan.setLoop, Fan.setStream, Fan.setBuf]
        · by_cases hk : u.session = k <;> simp [hloop, hl, LoopPc.rest, LoopPc.hand, toPush_cons, hk, hnew]
      · refine ⟨[], ?_, ?_⟩ <;> simp [ht, Fan.setLoop, Fan.setStream, Fan.setBuf, hr]
  unfold Fan.flow
  rw [hslices, hrest, List.map_append, hold]
  simp only [List.append_assoc]
  rfl

/-- A reader pushes: the slice goes from its hand to the end of the session's queue. -/
theorem flow_push (h : s.Registered) {r₀ buf : ℕ} {packet : Bytes} {u : Target} {targets : List Target}
    (hl : (s.streams r₀).loop = .reading (.push packet u buf targets)) :
    ((s.setSession u.session fun cs => { cs with queue := cs.queue ++ [⟨r₀, buf, packet.length⟩] }).setLoop r₀
      (.reading (.next packet targets))).flow r c = s.flow r c := by
  set t := Fan.setLoop _ r₀ _ with ht
  have hof : t.sessionOf = s.sessionOf := sessionOf_setStream rfl
  obtain ⟨hslices, hrest⟩ : t.slices r c = s.slices r c ∧ t.rest r c = s.rest r c := by
    unfold Fan.slices Fan.rest
    rw [hof]
    cases hs : s.sessionOf r c with
    | none => exact ⟨rfl, rfl⟩
    | some k =>
      by_cases hr : r = r₀
      · subst hr
        by_cases hk : k = u.session
        · subst hk
          simp [ht, hl, Fan.setLoop, Fan.setStream, Fan.setSession, LoopPc.hand, LoopPc.rest, Session.line]
        · simp [ht, hl, Fan.setLoop, Fan.setStream, Fan.setSession, LoopPc.hand, LoopPc.rest, hk, Ne.symm hk]
      · -- the target is a session of the reader's stream
        have hk : k ≠ u.session := by
          rintro rfl
          have hu := h.target (r := r₀) (t := u) (by simp [hl, LoopPc.targets])
          exact hr ((h.entry hs).2.1.symm.trans hu.2)
        simp [ht, Fan.setLoop, Fan.setStream, Fan.setSession, hr, hk]
  exact flow_congr rfl hslices (fun _ _ => rfl) hrest

theorem flow_register (h : s.Registered) {r₀ c₀ : ℕ} (hs : s.sessionOf r₀ c₀ = none) :
    (s.register r₀ c₀).flow r c = s.flow r c := by
  obtain ⟨hslices, hrest⟩ : (s.register r₀ c₀).slices r c = s.slices r c ∧
      (s.register r₀ c₀).rest r c = s.rest r c := by
    unfold Fan.slices Fan.rest
    rw [sessionOf_register, loop_register]
    split
    case isTrue hrc =>
      obtain ⟨rfl, rfl⟩ := hrc
      have hnot : ∀ u ∈ (s.streams r).loop.targets, u.session ≠ s.nextSession :=
        fun u hu => Nat.ne_of_lt (h.target hu).1
      rw [hs, Option.elim_some, Option.elim_some, sessions_register, if_pos rfl, LoopPc.hand_eq_nil hnot,
        LoopPc.rest_eq_nil hnot]
      exact ⟨rfl, rfl⟩
    case isFalse =>
      cases hk : s.sessionOf r c with
      | none => exact ⟨rfl, rfl⟩
      | some k =>
        rw [Option.elim_some, Option.elim_some, sessions_register, if_neg (Nat.ne_of_lt (h.entry hk).1)]
        exact ⟨rfl, rfl⟩
  exact flow_congr rfl hslices (fun _ _ => rfl) hrest

/-- What a removed client's session had is lost. -/
theorem flow_forget {r₀ c₀ : ℕ} : ((s.forget r₀ c₀).flow r c).Sublist (s.flow r c) := by
  refine flow_sublist rfl ?_ (fun _ _ => rfl) ?_
  · apply List.Sublist.append (.refl _)
    rw [sessionOf_forget, loop_forget]
    split
    · exact List.nil_sublist _
    · exact .refl _
  · unfold Fan.rest
    rw [sessionOf_forget, loop_forget]
    split
    · exact List.nil_sublist _
    · exact .refl _

/-- A session sends: the packet goes from its hand to the end of the client's `writeChan`. -/
theorem flow_send (h : s.Registered) {k : ℕ} {x : Slice} (hpc : (s.sessions k).pc = .forward x) :
    ((s.setClient (s.sessions k).client fun cl => { cl with writeChan := cl.writeChan ++ [x] }).runAt k
      .select).flow r c = s.flow r c := by
  set t := Fan.runAt _ k _ with ht
  have hof : t.sessionOf r c = s.sessionOf r c := rfl
  have hlive : s.sessionOf (s.sessions k).stream (s.sessions k).client = some k := h.live k (by simp [hpc])
  have hx : x.stream = (s.sessions k).stream := h.tagged (by simp [Session.line, RunPc.hand, hpc])
  have hother {k'} (hk : s.sessionOf r c = some k') (hne : ¬(r = (s.sessions k).stream ∧ c = (s.sessions k).client)) :
      t.sessions k' = s.sessions k' := by
    have hkk : k' ≠ k := by
      rintro rfl
      obtain ⟨-, hr, hc⟩ := h.entry hk
      exact hne ⟨hr.symm, hc.symm⟩
    simp [ht, Fan.runAt, Fan.setSession, Fan.setClient, hkk]
  obtain ⟨hsent, hslices⟩ : t.sent r c = s.sent r c ∧ t.slices r c = s.slices r c := by
    by_cases hc : c = (s.sessions k).client
    · have hcl : t.clients c = { s.clients c with writeChan := (s.clients c).writeChan ++ [x] } := by
        simp [ht, Fan.runAt, Fan.setSession, Fan.setClient, hc]
      refine ⟨by simp [Fan.sent, hcl], ?_⟩
      unfold Fan.slices
      rw [hof, hcl]
      by_cases hr : r = (s.sessions k).stream
      · rw [hr, hc, hlive]
        simp [ht, Fan.runAt, Fan.setSession, Fan.setClient, Client.line, Session.line, hpc, RunPc.hand, hx]
      · have hxr : x.stream ≠ r := fun hxr => hr (hxr.symm.trans hx)
        cases hk : s.sessionOf r c with
        | none => simp [Client.line, hxr]
        | some k' =>
          rw [Option.elim_some, hother hk fun hrc => hr hrc.1]
          simp [ht, Fan.runAt, Fan.setSession, Fan.setClient, Client.line, hxr]
    · have hcl : t.clients c = s.clients c := by simp [ht, Fan.runAt, Fan.setSession, Fan.setClient, hc]
      refine ⟨by simp [Fan.sent, hcl], ?_⟩
      unfold Fan.slices
      rw [hof, hcl]
      cases hk : s.sessionOf r c with
      | none => rfl
      | some k' =>
        rw [Option.elim_some, hother hk fun hrc => hc hrc.2]
        rfl
  exact flow_congr hsent hslices (fun _ _ => rfl) rfl

/-- A writer writes what is at the front of the line. -/
theorem flow_write {c₀ : ℕ} {ok : Bool} {x : Slice} (hpc : (s.clients c₀).pc = .write x) :
    (s.setClient c₀ fun cl =>
      { cl with written := cl.written ++ [⟨x.stream, s.content x⟩], pc := .put x ok }).flow r c = s.flow r c := by
  set t := Fan.setClient _ c₀ _ with ht
  by_cases hc : c = c₀
  · subst hc
    have hcl : t.clients c = { s.clients c with
        written := (s.clients c).written ++ [⟨x.stream, s.content x⟩], pc := .put x ok } := by
      simp [ht, Fan.setClient]
    have hsent : t.sent r c = s.sent r c ++ if x.stream = r then [s.content x] else [] := by
      by_cases hx : x.stream = r <;> simp [Fan.sent, hcl, hx]
    have hslices : s.slices r c = (if x.stream = r then [x] else []) ++ t.slices r c := by
      unfold Fan.slices
      by_cases hx : x.stream = r <;> simp [hcl, Client.line, hpc, WriterPc.hand, hx] <;> rfl
    unfold Fan.flow
    rw [hsent, hslices]
    by_cases hx : x.stream = r <;> simp only [hx, if_true, if_false, List.map_append, List.append_assoc] <;> rfl
  · have hcl : t.clients c = s.clients c := by simp [ht, Fan.setClient, hc]
    unfold Fan.flow Fan.sent Fan.slices
    rw [hcl]
    rfl

/-- What `dispatch` selects for a session: one frame, if the session has mapped its channel. -/
theorem toPush_targets (h : s.Registered) {k : ℕ} {channel : ℤ} {packet : Bytes} {targets : List Target}
    (hs : s.sessionOf r c = some k) (ht : targets.Perm (s.targets r channel)) :
    toPush packet targets k = (((s.sessions k).channels channel).map (clientPacket packet)).toList := by
  set entries := (s.streams r).registered.entries
  set snapshot := fun e : (_ : ℕ) × ℕ =>
    ((s.sessions e.2).channels channel).map fun clientChannel => (⟨e.2, clientChannel⟩ : Target) with hsnap
  have hmem : ⟨c, k⟩ ∈ entries := AList.mem_lookup_iff.mp hs
  -- a session has one client, so the other entries are of other sessions
  have hothers : ∀ u ∈ (entries.erase ⟨c, k⟩).filterMap snapshot, u.session ≠ k := by
    intro u hu hk
    obtain ⟨⟨c', k'⟩, he, hu⟩ := List.mem_filterMap.mp hu
    obtain ⟨ch, -, rfl⟩ := Option.map_eq_some_iff.mp hu
    obtain ⟨hne, hmem'⟩ := ((s.streams r).registered.nodupKeys.nodup.mem_erase_iff).mp he
    obtain rfl : k' = k := hk
    have hc : c' = c := (h.entry (AList.mem_lookup_iff.mpr hmem')).2.2.symm.trans (h.entry hs).2.2
    exact hne (by rw [hc])
  have hperm : (toPush packet targets k).Perm
      (toPush packet ((⟨c, k⟩ :: entries.erase ⟨c, k⟩).filterMap snapshot) k) :=
    ((ht.trans ((List.perm_cons_erase hmem).filterMap snapshot)).filter _).map _
  cases hch : (s.sessions k).channels channel with
  | none =>
    rw [List.filterMap_cons_none (by simp [hsnap, hch]), toPush_eq_nil hothers] at hperm
    simpa using hperm
  | some ch =>
    rw [List.filterMap_cons_some (b := ⟨k, ch⟩) (by simp [hsnap, hch]), toPush_cons, if_pos rfl,
      toPush_eq_nil hothers] at hperm
    simpa using hperm

/-- `dispatch` adds the frame for the clients that it is for. -/
theorem flow_dispatch (h : s.Registered) {r₀ : ℕ} {f : Frame} {targets : List Target}
    (hl : (s.streams r₀).loop = .reading .idle) (ht : targets.Perm (s.targets r₀ f.channel.toNat))
    (hf : (s.flow r c).Sublist (s.selected r c)) :
    let t := s.setStream r₀ fun st =>
      { st with
        loop := .reading (.next f.encode targets)
        history := st.history ++ [⟨f, s.mapped r₀ f.channel.toNat⟩] }
    (t.flow r c).Sublist (t.selected r c) := by
  intro t
  have hof : t.sessionOf = s.sessionOf := sessionOf_setStream rfl
  by_cases hr : r = r₀
  · subst hr
    have hloop : (t.streams r).loop = .reading (.next f.encode targets) := by simp [t, Fan.setStream]
    set new := ((s.mapped r f.channel.toNat c).map (clientPacket f.encode)).toList with hnew
    have hselected : t.selected r c = s.selected r c ++ new := by
      cases hm : s.mapped r f.channel.toNat c <;> simp [Fan.selected, t, Fan.setStream, hnew, hm]
    have hslices : t.slices r c = s.slices r c := by
      unfold Fan.slices
      rw [hof, hloop, hl]
      rfl
    have hrest : s.rest r c = [] ∧ t.rest r c = new := by
      unfold Fan.rest
      rw [hof, hloop, hl, hnew, Fan.mapped]
      cases hs : s.sessionOf r c with
      | none => exact ⟨rfl, rfl⟩
      | some k => exact ⟨rfl, toPush_targets h hs ht⟩
    rw [Fan.flow, hrest.1, List.append_nil] at hf
    rw [Fan.flow, hslices, hrest.2, hselected]
    exact hf.append_right new
  · have hstream : t.streams r = s.streams r := by simp [t, Fan.setStream, hr]
    unfold Fan.flow Fan.selected Fan.slices Fan.rest at hf ⊢
    rw [hof, hstream]
    exact hf

/-! ### Runs -/

/-- What holds between steps. -/
structure Fan.Inv (s : Fan) : Prop where
  /-- Of the sessions. -/
  registered : s.Registered
  /-- Of the buffers. -/
  owned : s.Owned
  /-- What was written or may be is a subsequence of what was dispatched. -/
  flow : ∀ r c, (s.flow r c).Sublist (s.selected r c)

theorem inv_newFan : newFan.Inv where
  registered := registered_newFan
  owned := owned_newFan
  flow _ _ := List.nil_sublist _

theorem selected_setStream {r₀ : ℕ} {f : Stream → Stream}
    (hf : (f (s.streams r₀)).history = (s.streams r₀).history) :
    (s.setStream r₀ f).selected r c = s.selected r c := by
  unfold Fan.selected
  by_cases hr : r = r₀ <;> simp [Fan.setStream, hr, hf]

theorem selected_setLoop {r₀ : ℕ} {l : LoopPc} : (s.setLoop r₀ l).selected r c = s.selected r c :=
  selected_setStream rfl

/-- **The line is a subsequence of what was dispatched, whatever is done.** -/
theorem flow_effect (h : s.Inv) (he : Effect cfg s t) (r c : ℕ) : (t.flow r c).Sublist (t.selected r c) := by
  have hf := h.flow r c
  cases he with
  | flags done panicked => exact hf
  | loop r₀ l hl =>
    rw [selected_setLoop]
    have hnot (k) : ∀ u ∈ l.targets, u.session ≠ k := by simp [hl.targets]
    refine (flow_setLoop rfl (fun k => ?_) fun k => ?_).trans hf
    · rw [LoopPc.hand_eq_nil (hnot k)]
      exact List.nil_sublist _
    · rw [LoopPc.rest_eq_nil (hnot k)]
      exact List.nil_sublist _
  | dispatch r₀ f targets hl hlen ht => exact flow_dispatch h.registered hl ht hf
  | take r₀ buf hl hb =>
    rw [selected_setLoop]
    refine (flow_setLoop (s := s.setPool _) hl ?_ ?_).trans hf <;> exact fun k => .refl _
  | make r₀ hl =>
    rw [selected_setLoop]
    rw [← flow_newBuf h.owned] at hf
    refine (flow_setLoop (s := s.newBuf cfg) hl ?_ ?_).trans hf <;> exact fun k => .refl _
  | fill r₀ hl =>
    rw [selected_setLoop, flow_fill h.owned hl]
    exact hf
  | push r₀ hl =>
    rw [selected_setLoop, flow_push h.registered hl]
    exact hf
  | refuse r₀ hl =>
    rw [selected_setLoop]
    refine (flow_setLoop hl ?_ ?_).trans hf
    · exact fun k => List.nil_sublist _
    · exact fun k => .refl _
  | putBack r₀ hl =>
    rw [selected_setLoop]
    refine (flow_setLoop (s := s.setPool _) hl ?_ ?_).trans hf <;> exact fun k => .refl _
  | register r₀ c₀ hs =>
    rw [flow_register h.registered hs, Fan.register, selected_setStream rfl]
    exact hf
  | stop r₀ c₀ hs hr =>
    rw [selected_setStream rfl]
    refine (flow_setStream rfl (fun _ => .refl _) fun _ => .refl _).trans ?_
    exact (flow_setSession (.refl _)).trans hf
  | forget r₀ c₀ hs hr =>
    refine flow_forget.trans ?_
    rw [Fan.forget, selected_setStream rfl]
    exact hf
  | session k f hm hb => exact (flow_setSession hm.line).trans hf
  | sessionPut k x f hm hb => exact (flow_setSession (s := s.release cfg x) hm.line).trans hf
  | send k hpc => exact (flow_send h.registered hpc).symm ▸ hf
  | client c₀ f hb hl hw => exact (flow_setClient hl hw).trans hf
  | write c₀ ok hpc => exact (flow_write hpc).symm ▸ hf
  | clientPut c₀ x f hb hl hw => exact (flow_setClient (s := s.release cfg x) hl hw).trans hf

theorem Fan.Inv.step (h : s.Inv) {a : Act} (hs : s.step cfg a = some t) : t.Inv :=
  invariant_of_step (fun h he => ⟨h.registered.effect he, h.owned.effect he, flow_effect h he⟩) h hs

/-- What was written is a subsequence of what was dispatched. -/
theorem Fan.Inv.sent_sublist (h : s.Inv) (r c : ℕ) : (s.sent r c).Sublist (s.selected r c) :=
  ((List.sublist_append_left _ _).trans (List.sublist_append_left _ _)).trans (h.flow r c)

/-- What was written is among what was dispatched. -/
theorem Fan.Inv.mem_selected (h : s.Inv) {w : Written} (hw : w ∈ (s.clients c).written) :
    w.data ∈ s.selected w.stream c :=
  (h.sent_sublist w.stream c).subset (List.mem_map_of_mem (List.mem_filter.mpr ⟨hw, by simp⟩))

/-- What was written of a stream is all that was written, if no other stream had anything for the
client. -/
theorem Fan.Inv.sent_eq_written (h : s.Inv) (hr : ∀ r', r' ≠ r → s.selected r' c = []) :
    s.sent r c = (s.clients c).written.map Written.data := by
  unfold Fan.sent
  congr 1
  refine List.filter_eq_self.mpr fun w hw => decide_eq_true ?_
  by_contra hne
  have hmem := h.mem_selected hw
  rw [hr _ hne] at hmem
  cases hmem

/-- **A client's writer passes to the connection a subsequence of the frames that were dispatched
for the client**, in their order and none twice, each with the channel to which the client had
mapped the frame's channel when it was dispatched. This is so for each stream the client is
registered with; if it has had frames of one stream only, for all that is written. Clients come
and go, and readers are replaced, in any order. -/
theorem written_sublist_selected (cfg : Config) {as : List Act} {t : Fan}
    (h : exec (Fan.step cfg) newFan as = some t) (r c : ℕ) :
    (t.sent r c).Sublist (t.selected r c) ∧
      ((∀ r', r' ≠ r → t.selected r' c = []) →
        ((t.clients c).written.map Written.data).Sublist (t.selected r c)) ∧
      ∀ w ∈ (t.clients c).written, ∃ d ∈ (t.streams w.stream).history, ∃ clientChannel,
        d.mapped c = some clientChannel ∧ w.data = clientPacket d.frame.encode clientChannel := by
  have hinv : t.Inv :=
    exec_invariant (C := fun _ _ => True) (fun s a s' hs _ hstep => hs.step hstep) as newFan t inv_newFan
      (allSteps_of_forall fun _ _ => trivial) h
  refine ⟨hinv.sent_sublist r c, fun hr => hinv.sent_eq_written hr ▸ hinv.sent_sublist r c, fun w hw => ?_⟩
  obtain ⟨d, hd, hw⟩ := List.mem_filterMap.mp (hinv.mem_selected hw)
  obtain ⟨clientChannel, hch, hw⟩ := Option.map_eq_some_iff.mp hw
  exact ⟨d, hd, clientChannel, hch, hw.symm⟩

/-! ### A run -/

/-- A frame goes from the camera to a client. -/
def deliver (r k c : ℕ) (f : Frame) (clientChannel : ℤ) (o : Option ℕ) : List Act :=
  [.dispatch r f [⟨k, clientChannel⟩], .dispatching r o, .dispatching r none, .dispatching r none,
    .dispatching r none, .run k .packet, .run k .sent, .writer c .data, .writer c (.wrote true),
    .writer c .next]

/-- A client gets a frame, leaves, comes back with another channel after a reconnect, and gets
the next frame, in the same buffer. -/
def rejoins : List Act :=
  [.addClient 0 0, .mapChannel 0 0 0 2, .loop 0 .start, .loop 0 .dialed] ++
    deliver 0 0 0 ⟨0, [7], seven_fits⟩ 2 none ++
    [.removeClient 0 0, .run 0 .quit, .run 0 .next, .stopped 0, .loop 0 .readDone, .loop 0 .dialed,
      .addClient 0 0, .mapChannel 0 0 0 260] ++
    deliver 0 1 0 ⟨0, [8], eight_fits⟩ 260 (some 0)

theorem written_sublist_selected_rejoins :
    ∃ t, exec (Fan.step ⟨2048, 10⟩) newFan rejoins = some t ∧
      t.sent 0 0 = [[36, 2, 0, 1, 7], [36, 4, 0, 1, 8]] ∧ (t.sent 0 0).Sublist (t.selected 0 0) := by
  have hrun : (exec (Fan.step ⟨2048, 10⟩) newFan rejoins).any
      (fun t => t.sent 0 0 = [[36, 2, 0, 1, 7], [36, 4, 0, 1, 8]]) = true := by decide +kernel
  obtain ⟨t, ht, hsent⟩ := (Option.any_eq_true _ _).mp hrun
  exact ⟨t, ht, of_decide_eq_true hsent, (written_sublist_selected ⟨2048, 10⟩ ht 0 0).1⟩

end RtspProxy.Fanout
