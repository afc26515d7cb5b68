import RtspProxy.Upstream.Effect

/-!
# Retries

A request is sent again by its caller after a timeout, and by the reader after a challenge. Two
counters bound this: `attempt`, the round of the caller's loop, and `request.Attempts`, which the
reader tests and counts and the caller sets to zero between its rounds.

## The model

`Track` is what matters of one call: its round, where it is, `request.Attempts` and, while the
reader handles a response taken to answer it, what the reader has still to do. `Track.Moves` is all
that can happen to it. Every step of the remote moves a track so (`moves_of_step`): the other calls
and the camera can do nothing else.

## What is proved

* `Track.Ok` — the reader counts an attempt only where none is counted, and there is one second
  round.
* `retries_bounded` — a call of `SendRequestSync` writes its request at most four times: in at most
  two rounds, each with at most one authentication retry. It meets at most two timeouts, and it
  returns after at most eleven steps of its own.
-/

namespace RtspProxy.Upstream

open Theory Wire

/-! ### Tracks -/

/-- One call and what the reader does for it. -/
structure Track where
  /-- The round. -/
  attempt : ℕ
  /-- Where the call is. -/
  pc : CallPc
  /-- `request.Attempts`. -/
  attempts : ℕ
  /-- What the reader has still to do with a response taken to answer it. -/
  stage : Option Stage
  deriving DecidableEq, Repr

/-- What the reader has still to do with a response taken to answer call `i`. -/
def ReaderPc.stageFor (i : ℕ) : ReaderPc → Option Stage
  | .handling _ _ _ call stage => if call = i then some stage else none
  | .idle => none

/-- The track of a call. -/
def Call.track (c : Call) (stage : Option Stage) : Track := ⟨c.attempt, c.pc, c.request.attempts, stage⟩

/-- The track of call `i`. -/
def Remote.track (s : Remote) (i : ℕ) : Option Track := (s.calls[i]?).map fun c => c.track (s.reader.stageFor i)

/-- Whose step a step is. -/
inductive Label where
  /-- The call's own. -/
  | caller (o : CallInput)
  /-- The reader's, for this call. -/
  | reader
  /-- Another. -/
  | other
  deriving DecidableEq, Repr

/-- Whose step an action is, for call `i`. -/
def Remote.label (s : Remote) (i : ℕ) : Act → Label
  | .caller j o => if j = i then .caller o else .other
  | .reader _ => if (s.reader.stageFor i).isSome then .reader else .other
  | _ => .other

/-- The call has its answer, or waits no longer. -/
def CallPc.woken : CallPc → Bool
  | .expire | .returned _ => true
  | _ => false

/-- The reader does not send the request again. -/
def Stage.closing : Stage → Bool
  | .finalize _ | .notify _ => true
  | _ => false

/-- **What can happen to a call.** -/
inductive Track.Moves (x : Track) : Label → Track → Prop
  /-- Something else happens. -/
  | still : Moves x .other x
  /-- A response is taken to answer it. -/
  | picked : Moves x .other { x with stage := some .judge }
  /-- It makes its channel. -/
  | subscribe : x.pc = .subscribe → Moves x (.caller .next) { x with pc := .enqueue }
  /-- It queues its request. -/
  | enqueue : x.pc = .enqueue → Moves x (.caller .next) { x with pc := .send }
  /-- It sends its request. -/
  | send (o : SendInput) (ok : Bool) : x.pc = .send →
      Moves x (.caller (.sent o)) { x with pc := if ok then .wait else .unqueue }
  /-- It gives up. -/
  | unqueue : x.pc = .unqueue → Moves x (.caller .next) { x with pc := .returned .notSent }
  /-- It wakes up. -/
  | wake (o : CallInput) (pc : CallPc) : x.pc = .wait → (∀ o', o ≠ .sent o') → pc.woken = true →
      Moves x (.caller o) { x with pc := pc }
  /-- It will try again. -/
  | again : x.pc = .expire → x.attempt = 0 → Moves x (.caller .next) { x with pc := .reset }
  /-- It has tried twice. -/
  | lapse : x.pc = .expire → x.attempt ≠ 0 → Moves x (.caller .next) { x with pc := .returned (.failed .timeout) }
  /-- Its second round. -/
  | reset : x.pc = .reset → Moves x (.caller .next) { x with attempt := 1, pc := .subscribe, attempts := 0 }
  /-- A challenge is taken up. -/
  | challenge (paramsStr : Bytes) : x.stage = some .judge → x.attempts = 0 →
      Moves x .reader { x with stage := some (.auth paramsStr) }
  /-- The challenge can be answered. -/
  | accept (paramsStr : Bytes) : x.stage = some (.auth paramsStr) → Moves x .reader { x with stage := some .bump }
  /-- The attempt is counted. -/
  | bump : x.stage = some .bump → Moves x .reader { x with attempts := x.attempts + 1, stage := some .resend }
  /-- The request is sent again. -/
  | resend : x.stage = some .resend → Moves x .reader { x with stage := none }
  /-- The response is final. -/
  | close (stage : Stage) : x.stage = some stage → stage ≠ .bump → stage ≠ .resend → (stage' : Option Stage) →
      (∀ st ∈ stage', st.closing = true) → Moves x .reader { x with stage := stage' }

variable {s t : Remote} {a : Act} {i : ℕ} {x y : Track}

/-! ### Every step moves a track -/

variable {c : Call}

theorem track_eq {stage : Option Stage} (h : s.calls[i]? = some c) (hr : s.reader.stageFor i = stage) :
    s.track i = some (c.track stage) := by
  simp [Remote.track, h, hr]

theorem callAt_get (h : s.calls[i]? = some c) (pc : CallPc) : (s.callAt i pc).calls[i]? = some { c with pc := pc } := by
  simp [Remote.callAt, h]

/-- `SendRequest` changes no round, no place and no counter. -/
theorem sendRequest_get (h : s.calls[i]? = some c) (request : Request) (o : SendInput) :
    ∃ headers, (s.sendRequest i request o).1.calls[i]? = some { c with request := { c.request with headers := headers } } := by
  cases sendRequest_sent s i request o with
  | unsent hs =>
    rw [hs]
    exact ⟨c.request.headers, h⟩
  | sent conn cseq auth _ _ hc => exact ⟨request.prepare cseq auth.2, by simp [hc, h]⟩

theorem sendRequest_get_ne {j : ℕ} (hj : j ≠ i) (request : Request) (o : SendInput) :
    (s.sendRequest j request o).1.calls[i]? = s.calls[i]? := by
  cases sendRequest_sent s j request o with
  | unsent hs => rw [hs]
  | sent _ _ _ _ _ hc => simp [hc, hj]

/-- **The call's own steps.** -/
theorem moves_of_stepCall {o : CallInput} (h : s.stepCall i o = some t) (hx : s.track i = some x) :
    ∃ y, t.track i = some y ∧ x.Moves (.caller o) y := by
  obtain ⟨c, hget, hstep⟩ := stepCall_cases h
  obtain rfl : c.track (s.reader.stageFor i) = x := Option.some.inj ((track_eq hget rfl).symm.trans hx)
  have hmove {c' : Call} (hc' : t.calls[i]? = some c')
      (hm : (c.track (s.reader.stageFor i)).Moves (.caller o) (c'.track (s.reader.stageFor i))) :
      ∃ y, t.track i = some y ∧ (c.track (s.reader.stageFor i)).Moves (.caller o) y :=
    ⟨_, track_eq hc' (by rw [reader_stepCall h]), hm⟩
  have hclosed (ch : Option ℕ) : (s.closeChan ch).calls[i]? = some c := by rw [closeChan_eq, hget]
  cases hstep with
  | subscribe hpc =>
    have hsub : (s.subscribe i).calls[i]? = some { c with request := { c.request with sub := some s.chans.length } } := by
      simp [Remote.subscribe, hget]
    exact hmove (callAt_get hsub _) (.subscribe hpc)
  | enqueue hpc => exact hmove (callAt_get (s := s.enqueue i) hget _) (.enqueue hpc)
  | send o hpc =>
    obtain ⟨headers, hsent⟩ := sendRequest_get hget c.request o
    exact hmove (callAt_get hsent _) (.send o _ hpc)
  | unqueue hpc => exact hmove (callAt_get (s := s.unqueue i) hget _) (.unqueue hpc)
  | value status hpc hv =>
    refine hmove (callAt_get (hclosed _) _) (.wake _ _ hpc nofun ?_)
    split_ifs
    · rfl
    · cases status <;> rfl
  | timeout hpc =>
    refine hmove (callAt_get (hclosed _) _) (.wake _ _ hpc nofun ?_)
    split_ifs <;> rfl
  | done hpc hc => exact hmove (callAt_get (hclosed _) _) (.wake _ _ hpc nofun rfl)
  | expire hpc =>
    unfold Remote.expire at hmove ⊢
    split_ifs at hmove ⊢ with ha
    · exact hmove (callAt_get (s := { s.unqueue i with digest := s.digest.clearNonce }) hget _) (.again hpc ha)
    · exact hmove (callAt_get (s := s.unqueue i) hget _) (.lapse hpc ha)
  | reset hpc => exact hmove (by simp [Remote.retry, hget]; rfl) (.reset hpc)

theorem stepCall_get_ne {j : ℕ} {o : CallInput} (h : s.stepCall j o = some t) (hj : j ≠ i) :
    t.calls[i]? = s.calls[i]? := by
  obtain ⟨c, -, hstep⟩ := stepCall_cases h
  have hcallAt (r : Remote) (pc : CallPc) : (r.callAt j pc).calls[i]? = r.calls[i]? := by
    simp [Remote.callAt, hj]
  cases hstep with
  | subscribe hpc =>
    rw [hcallAt]
    simp [Remote.subscribe, hj]
  | enqueue hpc => exact hcallAt _ _
  | send o hpc => rw [hcallAt, sendRequest_get_ne hj]
  | unqueue hpc => exact hcallAt _ _
  | value status hpc hv => rw [hcallAt, closeChan_eq]
  | timeout hpc => rw [hcallAt, closeChan_eq]
  | done hpc hc => rw [hcallAt, closeChan_eq]
  | expire hpc =>
    unfold Remote.expire
    split_ifs <;> exact hcallAt _ _
  | reset hpc => simp [Remote.retry, hj]

/-- A step of another party that leaves the call and the reader as they are. -/
theorem still_of (hx : s.track i = some x) (hc : t.calls[i]? = s.calls[i]?)
    (hr : t.reader.stageFor i = s.reader.stageFor i) : ∃ y, t.track i = some y ∧ x.Moves .other y :=
  ⟨x, by rw [← hx, Remote.track, Remote.track, hc, hr], .still⟩

/-- **The reader's steps** for the call. -/
theorem moves_of_readerStep {o : SendInput} {recv : Bytes} {response : Response} {el : ℕ} {stage : Stage}
    (hget : s.calls[i]? = some c) (hstep : s.ReaderStep o recv response el i c stage t) :
    ∃ y, t.track i = some y ∧ (c.track (some stage)).Moves .reader y := by
  have hmove {c' : Call} {st : Option Stage} (hc' : t.calls[i]? = some c') (hr : t.reader.stageFor i = st)
      (hm : (c.track (some stage)).Moves .reader (c'.track st)) :
      ∃ y, t.track i = some y ∧ (c.track (some stage)).Moves .reader y :=
    ⟨_, track_eq hc' hr, hm⟩
  have hat (r : Remote) (st : Stage) : (r.stageAt recv response el i st).reader.stageFor i = some st := if_pos rfl
  cases hstep with
  | challenge hcode hattempts hne hcred => exact hmove hget (hat _ _) (.challenge _ rfl hattempts)
  | judge hother =>
    rw [Remote.judge, noted_eq] at hmove ⊢
    exact hmove hget (hat _ _) (.close .judge rfl (by simp) (by simp) _ (by rintro _ ⟨⟩; rfl))
  | auth paramsStr =>
    split_ifs at hmove ⊢
    · exact hmove hget (hat _ _) (.accept paramsStr rfl)
    · exact hmove hget (hat _ _) (.close (.auth paramsStr) rfl (by simp) (by simp) _ (by rintro _ ⟨⟩; rfl))
  | bump =>
    have hset : (s.setRequest i fun r => { r with attempts := r.attempts + 1 }).calls[i]? =
        some { c with request := { c.request with attempts := c.request.attempts + 1 } } := by
      simp [Remote.setRequest, hget]
    exact hmove hset (hat _ _) (.bump rfl)
  | resend =>
    obtain ⟨headers, hsent⟩ := sendRequest_get hget c.request o
    exact hmove hsent rfl (.resend rfl)
  | finalize status hany => exact hmove hget (hat _ _) (.close (.finalize status) rfl (by simp) (by simp) _ (by rintro _ ⟨⟩; rfl))
  | gone status hany => exact hmove hget rfl (.close (.finalize status) rfl (by simp) (by simp) _ (by rintro _ ⟨⟩))
  | notify status =>
    rw [report_eq] at hmove ⊢
    exact hmove hget rfl (.close (.notify status) rfl (by simp) (by simp) _ (by rintro _ ⟨⟩))

theorem readerStep_get_ne {o : SendInput} {recv : Bytes} {response : Response} {el j : ℕ} {stage : Stage} (hj : j ≠ i)
    (hstep : s.ReaderStep o recv response el j c stage t) :
    t.calls[i]? = s.calls[i]? ∧ t.reader.stageFor i = none := by
  have hat (r : Remote) (st : Stage) : (r.stageAt recv response el j st).reader.stageFor i = none := if_neg hj
  cases hstep with
  | challenge hcode hattempts hne hcred => exact ⟨rfl, hat _ _⟩
  | judge hother =>
    rw [Remote.judge, noted_eq]
    exact ⟨rfl, hat _ _⟩
  | auth paramsStr => exact ⟨rfl, hat _ _⟩
  | bump => exact ⟨by simp [Remote.stageAt, Remote.setRequest, hj], hat _ _⟩
  | resend => exact ⟨sendRequest_get_ne hj c.request o, rfl⟩
  | finalize status hany => exact ⟨rfl, hat _ _⟩
  | gone status hany => exact ⟨rfl, rfl⟩
  | notify status =>
    rw [report_eq]
    exact ⟨rfl, rfl⟩

/-- **Every step moves the track of a call** in one of these ways. -/
theorem moves_of_step (h : s.step a = some t) (hx : s.track i = some x) :
    ∃ y, t.track i = some y ∧ x.Moves (s.label i a) y := by
  have hold (c : Call) : (s.calls ++ [c])[i]? = s.calls[i]? := by
    obtain ⟨c', hc', -⟩ := Option.map_eq_some_iff.mp hx
    rw [getElem?_append_of_some hc', hc']
  cases a with
  | caller j o =>
    by_cases hj : j = i
    · subst hj
      simpa [Remote.label] using moves_of_stepCall h hx
    · simpa [Remote.label, hj] using still_of hx (stepCall_get_ne h hj) (by rw [reader_stepCall h])
  | reader o =>
    obtain ⟨recv, response, el, j, stage, c, hr, hget, hstep⟩ := stepReader_cases h
    by_cases hj : j = i
    · subst hj
      have hst : s.reader.stageFor j = some stage := by simp [hr, ReaderPc.stageFor]
      obtain rfl : c.track (some stage) = x := Option.some.inj ((track_eq hget hst).symm.trans hx)
      simpa [Remote.label, hst] using moves_of_readerStep hget hstep
    · have hst : s.reader.stageFor i = none := by simp [hr, ReaderPc.stageFor, hj]
      obtain ⟨hc, hnone⟩ := readerStep_get_ne hj hstep
      simpa [Remote.label, hst] using still_of hx hc (hnone.trans hst.symm)
  | recv recv =>
    obtain ⟨⟨hidle, -⟩, ⟨⟩⟩ := Option.ite_none_right_eq_some.mp h
    unfold Remote.receive
    split
    case h_1 response el j _ _ _ =>
      by_cases hj : j = i
      · -- the response is taken to answer this call
        have hst : (ReaderPc.handling recv response el j .judge).stageFor i = some .judge := if_pos hj
        refine ⟨{ x with stage := some .judge }, ?_, .picked⟩
        obtain ⟨c, hc, rfl⟩ := Option.map_eq_some_iff.mp hx
        exact track_eq hc hst
      · exact still_of hx rfl ((if_neg hj : _ = none).trans (by rw [hidle]; rfl))
    case h_2 => exact still_of hx rfl rfl
  | call kind url =>
    cases h
    exact still_of hx (hold _) rfl
  | teardown session url o =>
    obtain rfl := Option.some.inj h
    have hne : s.calls.length ≠ i := fun hlen => by simp [Remote.track, ← hlen] at hx
    exact still_of hx ((sendRequest_get_ne hne _ o).trans (hold _)) (by rw [sendRequest_reader])
  | disconnect =>
    cases h
    unfold Remote.disconnect
    split_ifs <;> exact still_of hx rfl rfl
  | dial ok =>
    cases h
    unfold Remote.dialLocked
    split_ifs <;> exact still_of hx rfl rfl
  | attach =>
    obtain ⟨-, ⟨⟩⟩ := Option.ite_none_right_eq_some.mp h
    exact still_of hx rfl rfl
  | cancel | shutdown =>
    cases h
    exact still_of hx rfl rfl

/-! ### What is counted, and what is left -/

/-- The steps of a call in which it sends its request. -/
def sends : Label → Track → Bool
  | .caller (.sent _), _ => true
  | _, _ => false

/-- The steps in which it times out. -/
def timesOut : Label → Track → Bool
  | .caller .timeout, _ => true
  | _, _ => false

/-- All its steps. -/
def acts : Label → Track → Bool
  | .caller _, _ => true
  | _, _ => false

/-- The steps of the reader that count an authentication retry, in a round of the call. -/
def retriesIn (round : ℕ) : Label → Track → Bool
  | .reader, x => decide (x.stage = some .bump ∧ x.attempt = round)
  | _, _ => false

/-- The steps in which the reader sends the request again. -/
def resends : Label → Track → Bool
  | .reader, x => decide (x.stage = some .resend)
  | _, _ => false

/-- The steps that count, in a run of the remote, for call `i`. -/
def Remote.counts (cost : Label → Track → Bool) (i : ℕ) (s : Remote) (a : Act) : Bool :=
  (s.track i).any (cost (s.label i a))

/-- One, if another round is possible after this one. -/
def Track.more (x : Track) : ℕ := if x.attempt = 0 then 1 else 0

/-- The sends that are left. -/
def Track.sendsLeft (x : Track) : ℕ :=
  match x.pc with
  | .subscribe | .enqueue | .send => 1 + x.more
  | .wait | .expire => x.more
  | .reset => 1
  | .unqueue | .returned _ => 0

/-- The timeouts that are left. -/
def Track.timeoutsLeft (x : Track) : ℕ :=
  match x.pc with
  | .subscribe | .enqueue | .send | .wait => 1 + x.more
  | .expire => x.more
  | .reset => 1
  | .unqueue | .returned _ => 0

/-- The steps that are left. -/
def Track.actsLeft (x : Track) : ℕ :=
  match x.pc with
  | .subscribe => 5 + 6 * x.more
  | .enqueue => 4 + 6 * x.more
  | .send => 3 + 6 * x.more
  | .wait => 2 + 6 * x.more
  | .expire => 1 + 6 * x.more
  | .reset => 6
  | .unqueue => 1
  | .returned _ => 0

/-- The authentication retries that are left in a round. -/
def Track.retriesLeft (round : ℕ) (x : Track) : ℕ :=
  if x.attempt < round ∨ x.attempt = round ∧ x.attempts = 0 then 1 else 0

/-- The sends of the reader that are left. -/
def Track.resendsLeft (x : Track) : ℕ :=
  x.retriesLeft 0 + x.retriesLeft 1 + if x.stage = some .resend then 1 else 0

/-- What every move keeps: the reader takes up a challenge only for a request without a counted
attempt, and only the first round is followed by another. -/
structure Track.Ok (x : Track) : Prop where
  /-- A challenge taken up. -/
  auth : ∀ paramsStr, x.stage = some (.auth paramsStr) → x.attempts = 0
  /-- A challenge that can be answered. -/
  bump : x.stage = some .bump → x.attempts = 0
  /-- Another round. -/
  reset : x.pc = .reset → x.attempt = 0
  /-- There are two. -/
  rounds : x.attempt ≤ 1

theorem Track.Ok.moves {l : Label} (h : x.Ok) (hm : x.Moves l y) : y.Ok := by
  obtain ⟨hauth, hbump, hreset, hrounds⟩ := h
  cases hm with
  | still => exact ⟨hauth, hbump, hreset, hrounds⟩
  | picked => exact ⟨nofun, nofun, hreset, hrounds⟩
  | subscribe | enqueue | unqueue | lapse => exact ⟨hauth, hbump, nofun, hrounds⟩
  | send o ok hpc => exact ⟨hauth, hbump, (by cases ok <;> exact nofun), hrounds⟩
  | wake o pc hpc ho hw => exact ⟨hauth, hbump, (fun hpc => by subst hpc; cases hw), hrounds⟩
  | again hpc ha => exact ⟨hauth, hbump, fun _ => ha, hrounds⟩
  | reset hpc => exact ⟨fun _ _ => rfl, fun _ => rfl, nofun, Nat.le_refl 1⟩
  | challenge p hst ha => exact ⟨fun _ _ => ha, nofun, hreset, hrounds⟩
  | accept p hst => exact ⟨nofun, fun _ => hauth p hst, hreset, hrounds⟩
  | bump => exact ⟨nofun, nofun, hreset, hrounds⟩
  | resend => exact ⟨nofun, nofun, hreset, hrounds⟩
  | close stage hst _ _ stage' hclosing =>
    exact ⟨fun p hp => (nomatch hclosing _ hp), fun hb => (nomatch hclosing _ hb), hreset, hrounds⟩

/-- A potential pays for what is counted. -/
def Pays (cost : Label → Track → Bool) (φ : Track → ℕ) : Prop :=
  ∀ x l y, Track.Ok x → x.Moves l y → (cost l x).toNat + φ y ≤ φ x

theorem pays_sends : Pays sends Track.sendsLeft := by
  intro x l y hx hm
  cases hm with
  | send o ok hpc => cases ok <;> simp [sends, Track.sendsLeft, Track.more, hpc]
  | wake o pc hpc ho hw =>
    have hnot : sends (.caller o) x = false := by cases o <;> first | rfl | exact absurd rfl (ho _)
    cases pc <;> simp_all [Track.sendsLeft, Track.more, CallPc.woken]
  | again hpc ha => simp [sends, Track.sendsLeft, Track.more, hpc, ha]
  | _ => simp_all [sends, Track.sendsLeft, Track.more]

theorem pays_timesOut : Pays timesOut Track.timeoutsLeft := by
  intro x l y hx hm
  cases hm with
  | send o ok hpc => cases ok <;> simp [timesOut, Track.timeoutsLeft, Track.more, hpc]
  | wake o pc hpc ho hw =>
    have hcost : (timesOut (.caller o) x).toNat ≤ 1 := Bool.toNat_le _
    cases pc <;> simp_all [Track.timeoutsLeft, Track.more, CallPc.woken]
    all_goals omega
  | _ => simp_all [timesOut, Track.timeoutsLeft, Track.more]

theorem pays_acts : Pays acts Track.actsLeft := by
  intro x l y hx hm
  cases hm with
  | send o ok hpc => cases ok <;> simp [acts, Track.actsLeft, Track.more, hpc] <;> omega
  | wake o pc hpc ho hw => cases pc <;> simp_all [acts, Track.actsLeft, Track.more, CallPc.woken] <;> omega
  | _ => simp_all [acts, Track.actsLeft, Track.more] <;> omega

theorem pays_retriesIn (round : ℕ) : Pays (retriesIn round) (Track.retriesLeft round) := by
  intro x l y hx hm
  cases hm with
  | bump hst =>
    have hzero := hx.bump hst
    by_cases hround : x.attempt = round <;> simp [retriesIn, Track.retriesLeft, hst, hzero, hround]
  | reset hpc =>
    have hfirst := hx.reset hpc
    simp only [retriesIn, Track.retriesLeft, hfirst, Bool.toNat_false, Nat.zero_add]
    split_ifs <;> omega
  | _ => simp_all [retriesIn, Track.retriesLeft]

theorem pays_resends : Pays resends Track.resendsLeft := by
  intro x l y hx hm
  have h₀ := pays_retriesIn 0 x l y hx hm
  have h₁ := pays_retriesIn 1 x l y hx hm
  unfold Track.resendsLeft
  cases hm with
  | bump hst =>
    -- the retry that is counted is paid for in its round
    have hround : x.attempt = 0 ∨ x.attempt = 1 := by
      have := hx.rounds
      omega
    have hone : (retriesIn 0 .reader x).toNat + (retriesIn 1 .reader x).toNat = 1 := by
      rcases hround with hround | hround <;> simp [retriesIn, hst, hround]
    have hnot : (resends .reader x).toNat = 0 := by simp [resends, hst]
    rw [if_pos rfl]
    omega
  | close stage hst hbump hresend stage' hclosing =>
    have hnot : stage' ≠ some .resend := fun h => nomatch hclosing _ h
    simp only [resends, hst, hresend, hnot, Option.some.injEq, decide_false, if_false, Bool.toNat_false] at h₀ h₁ ⊢
    omega
  | _ =>
    simp_all [resends]
    try omega

/-- **The steps that count** are no more than what is left of them. -/
theorem tally_counts_le {cost : Label → Track → Bool} {φ : Track → ℕ} (hpays : Pays cost φ) (hx : s.track i = some x)
    (hok : x.Ok) {as : List Act} (h : exec Remote.step s as = some t) :
    tally Remote.step (Remote.counts cost i) s as ≤ φ x := by
  have hstep (s : Remote) (a : Act) (s' : Remote) (hI : ∃ x, s.track i = some x ∧ x.Ok) (hs : s.step a = some s') :
      (∃ x, s'.track i = some x ∧ x.Ok) ∧
        (Remote.counts cost i s a).toNat + ((s'.track i).map φ).getD 0 ≤ ((s.track i).map φ).getD 0 := by
    obtain ⟨x, hx, hok⟩ := hI
    obtain ⟨y, hy, hm⟩ := moves_of_step hs hx
    refine ⟨⟨y, hy, hok.moves hm⟩, ?_⟩
    simpa [Remote.counts, hx, hy] using hpays x _ y hok hm
  simpa [hx] using tally_le hstep as s t ⟨x, hx, hok⟩ h

/-! ### What is written -/

/-- How often the request of call `i` was written. -/
def Remote.writes (s : Remote) (i : ℕ) : ℕ := s.wire.countP fun w => w.call == i

theorem writes_append {w : Written} (hw : t.wire = s.wire ++ [w]) : t.writes i = s.writes i + (w.call == i).toNat := by
  rw [Remote.writes, hw, List.countP_append, List.countP_singleton]
  cases w.call == i <;> rfl

/-- Only the call and the reader write its request. -/
theorem writes_step (h : s.step a = some t) (hx : s.track i = some x) :
    t.writes i ≤ s.writes i + (sends (s.label i a) x).toNat + (resends (s.label i a) x).toNat := by
  cases change_of_step h with
  | plain _ _ hw =>
    simp only [Remote.writes, hw]
    omega
  | auth _ _ _ _ _ _ _ _ _ _ hw =>
    simp only [Remote.writes, hw]
    omega
  | write j request o conn cseq auth _ hsends _ _ _ _ hw =>
    rw [writes_append hw]
    by_cases hj : j = i
    · subst hj
      obtain ⟨c, hget, rfl⟩ := Option.map_eq_some_iff.mp hx
      cases a with
      | caller k o =>
        cases o <;> cases hsends
        simp [Remote.label, sends]
      | reader o =>
        simp only [Remote.sends] at hsends
        split at hsends
        case h_1 recv response el call hr =>
          obtain rfl := Option.some.inj hsends
          simp [Remote.label, hr, ReaderPc.stageFor, resends, Call.track]
        case h_2 => cases hsends
      | teardown session url o =>
        obtain rfl := Option.some.inj hsends
        simp at hget
      | _ => cases hsends
    · simp only [beq_eq_false_iff_ne.mpr hj, Bool.toNat_false]
      omega

/-- **The writes of a request** are paid for by its call and by the reader. -/
theorem writes_le (hx : s.track i = some x) (hok : x.Ok) {as : List Act} (h : exec Remote.step s as = some t) :
    t.writes i ≤ s.writes i + x.sendsLeft + x.resendsLeft := by
  have hstep (s₁ : Remote) (a : Act) (s₂ : Remote)
      (hI : ∃ y, s₁.track i = some y ∧ y.Ok ∧
        s₁.writes i + y.sendsLeft + y.resendsLeft ≤ s.writes i + x.sendsLeft + x.resendsLeft)
      (_ : True) (hs : s₁.step a = some s₂) : ∃ y, s₂.track i = some y ∧ y.Ok ∧
        s₂.writes i + y.sendsLeft + y.resendsLeft ≤ s.writes i + x.sendsLeft + x.resendsLeft := by
    obtain ⟨y, hy, hok, hle⟩ := hI
    obtain ⟨z, hz, hm⟩ := moves_of_step hs hy
    have hw := writes_step hs hy
    have hsends := pays_sends y _ z hok hm
    have hresends := pays_resends y _ z hok hm
    exact ⟨z, hz, hok.moves hm, by omega⟩
  obtain ⟨y, -, -, hy⟩ := exec_invariant hstep as s t ⟨x, hx, hok, Nat.le_refl _⟩ (allSteps_of_forall fun _ _ => trivial) h
  omega

/-! ### A call that is not yet made -/

/-- Nothing is known of a call that is not yet made. -/
structure Unmade (s : Remote) (i : ℕ) : Prop where
  /-- Its request is not queued. -/
  queue : ∀ e ∈ s.requests, e.2 ≠ i
  /-- The reader has no response for it. -/
  reader : s.reader.stageFor i = none
  /-- Its request was not written. -/
  wire : s.writes i = 0

theorem length_heads_step (h : s.step a = some t) : t.heads.length = (s.heads ++ a.makes.toList).length := by
  cases change_of_step h with
  | plain _ hh _ => rw [hh]
  | auth o ha _ _ _ _ _ _ _ hh _ => simp [hh, ha, Act.makes]
  | write _ _ _ _ _ _ _ _ _ _ _ hh _ => rw [hh, List.length_set]

theorem unmade_step (hI : s.calls.length ≤ i → Unmade s i) (h : s.step a = some t) (hlen : t.calls.length ≤ i) :
    Unmade t i := by
  have hheads := length_heads_step h
  have hs : s.calls.length ≤ i := by
    simp only [Remote.heads, List.length_append, List.length_map] at hheads
    omega
  have hold {j : ℕ} {c : Call} (hc : s.calls[j]? = some c) : j ≠ i := by
    have := (List.getElem?_eq_some_iff.mp hc).1
    omega
  refine ⟨fun e he => ?_, ?_, ?_⟩
  · rcases mem_requests_of_step h he with he | ⟨o, c, -, hc⟩
    · exact (hI hs).queue e he
    · exact hold hc
  · by_cases ha : ∃ o, a = .reader o
    · obtain ⟨o, rfl⟩ := ha
      obtain ⟨recv, response, el, j, stage, c, hr, hget, hstep⟩ := stepReader_cases h
      exact (readerStep_get_ne (hold hget) hstep).2
    · rcases reader_of_step h fun o ho => ha ⟨o, ho⟩ with hsame | ⟨recv, response, el, j, -, hmem, hr⟩
      · rw [hsame]
        exact (hI hs).reader
      · rw [hr]
        exact if_neg ((hI hs).queue _ hmem)
  · cases change_of_step h with
    | plain _ _ hw =>
      rw [Remote.writes, hw]
      exact (hI hs).wire
    | auth _ _ _ _ _ _ _ _ _ _ hw =>
      rw [Remote.writes, hw]
      exact (hI hs).wire
    | write j _ _ _ _ _ hj _ _ _ _ _ hw =>
      have hne : j ≠ i := by
        have := (List.getElem?_eq_some_iff.mp hj).1
        rw [← hheads, Remote.heads, List.length_map] at this
        omega
      rw [writes_append hw, (hI hs).wire]
      simp [hne]

theorem unmade_of_exec (username password : Bytes) {as : List Act} (h : exec Remote.step (newRemote username password) as = some s)
    (hlen : s.calls.length ≤ i) : Unmade s i := by
  refine exec_invariant (C := fun _ _ => True) (I := fun s => s.calls.length ≤ i → Unmade s i)
    (fun s a s' hI _ hs => unmade_step hI hs) as _ s (fun _ => ?_) (allSteps_of_forall fun _ _ => trivial) h hlen
  exact ⟨by simp [newRemote], rfl, rfl⟩

/-- A call starts with its first round, and nothing has been done for it. -/
theorem track_of_call (hun : Unmade s s.calls.length) {kind : RequestKind} {url : Bytes}
    (h : s.step (.call kind url) = some t) :
    t.track s.calls.length = some ⟨0, .subscribe, 0, none⟩ ∧ t.writes s.calls.length = 0 := by
  obtain rfl := Option.some.inj h
  have hattempts : (newRequest kind url).attempts = 0 := by cases kind <;> rfl
  refine ⟨Eq.trans (track_eq List.getElem?_concat_length hun.reader) ?_, hun.wire⟩
  rw [Call.track, hattempts]

theorem can_act (hget : s.calls[i]? = some c) : (∃ r, c.pc = .returned r) ∨ ∃ o t, s.step (.caller i o) = some t := by
  cases hpc : c.pc with
  | returned r => exact .inl ⟨r, rfl⟩
  | send => exact .inr ⟨.sent fine, _, by simp only [Remote.step, Remote.stepCall, hget, hpc]; rfl⟩
  | wait => exact .inr ⟨.timeout, _, by simp only [Remote.step, Remote.stepCall, hget, hpc]; rfl⟩
  | _ => exact .inr ⟨.next, _, by simp only [Remote.step, Remote.stepCall, hget, hpc]; rfl⟩

/-- **Retries are bounded.** However the camera answers, however the steps interleave: a call of
`SendRequestSync` with a new request writes the request at most four times, sends it in at most two
rounds with at most one authentication retry in each, times out at most twice, and returns after at
most eleven steps of its own. -/
theorem retries_bounded (username password : Bytes) (as : List Act) (s : Remote)
    (hs : exec Remote.step (newRemote username password) as = some s) (kind : RequestKind) (url : Bytes)
    (bs : List Act) (t : Remote) (ht : exec Remote.step s (.call kind url :: bs) = some t) :
    t.writes s.calls.length ≤ 4 ∧
    tally Remote.step (Remote.counts sends s.calls.length) s (.call kind url :: bs) ≤ 2 ∧
    (∀ round, tally Remote.step (Remote.counts (retriesIn round) s.calls.length) s (.call kind url :: bs) ≤ 1) ∧
    tally Remote.step (Remote.counts resends s.calls.length) s (.call kind url :: bs) ≤ 2 ∧
    tally Remote.step (Remote.counts timesOut s.calls.length) s (.call kind url :: bs) ≤ 2 ∧
    tally Remote.step (Remote.counts acts s.calls.length) s (.call kind url :: bs) ≤ 11 ∧
    ∀ c, t.calls[s.calls.length]? = some c → (∃ r, c.pc = .returned r) ∨
      ∃ o t', t.step (.caller s.calls.length o) = some t' := by
  obtain ⟨s₁, hcall, ht⟩ := exec_cons_eq_some.mp ht
  obtain ⟨hx, hwrites⟩ := track_of_call (unmade_of_exec username password hs (Nat.le_refl _)) hcall
  have hfirst {cost : Label → Track → Bool} :
      tally Remote.step (Remote.counts cost s.calls.length) s (.call kind url :: bs) =
        tally Remote.step (Remote.counts cost s.calls.length) s₁ bs := by
    rw [tally_cons hcall]
    simp [Remote.counts, Remote.track]
  have hok : Track.Ok ⟨0, .subscribe, 0, none⟩ := ⟨nofun, nofun, nofun, Nat.zero_le 1⟩
  simp only [hfirst]
  refine ⟨?_, tally_counts_le pays_sends hx hok ht, fun round => ?_, tally_counts_le pays_resends hx hok ht,
    tally_counts_le pays_timesOut hx hok ht, tally_counts_le pays_acts hx hok ht, fun c hc => can_act hc⟩
  · have hle := writes_le hx hok ht
    rw [hwrites] at hle
    exact hle
  · refine Nat.le_trans (tally_counts_le (pays_retriesIn round) hx hok ht) ?_
    unfold Track.retriesLeft
    split_ifs <;> omega

/-- A camera asks for Digest. -/
def digestAsked : Bytes :=
  ascii "RTSP/1.0 401 Unauthorized\r\nWWW-Authenticate: Digest realm=\"cam\", nonce=\"1a2b\"\r\n\r\n"

/-- A round in which the camera answers the request with a challenge, and then not at all. -/
def challengedRound : List Act :=
  [.caller 0 .next, .caller 0 .next, .caller 0 (.sent fine), .recv digestAsked, .reader fine, .reader fine,
    .reader fine, .reader fine, .caller 0 .timeout, .caller 0 .next]

/-- The bounds are met: two such rounds. -/
theorem retries_bounded_twoRounds :
    ∃ s t, exec Remote.step (newRemote (ascii "u") (ascii "p")) [.dial true, .attach] = some s ∧
      exec Remote.step s (.call .options (ascii "rtsp://cam/") :: (challengedRound ++ .caller 0 .next :: challengedRound)) =
        some t ∧
      (t.calls[0]?).map (fun c => c.pc) = some (.returned (.failed .timeout)) ∧ t.writes 0 = 4 ∧ t.writes s.calls.length ≤ 4 := by
  have hrun : (exec Remote.step (newRemote (ascii "u") (ascii "p")) [.dial true, .attach]).any (fun s =>
      (exec Remote.step s (.call .options (ascii "rtsp://cam/") ::
        (challengedRound ++ .caller 0 .next :: challengedRound))).any fun t =>
          (t.calls[0]?).map (fun c => c.pc) == some (.returned (.failed .timeout)) && t.writes 0 == 4) = true := by
    decide +kernel
  obtain ⟨s, hs, hrest⟩ := (Option.any_eq_true _ _).mp hrun
  obtain ⟨t, ht, hboth⟩ := (Option.any_eq_true _ _).mp hrest
  simp only [Bool.and_eq_true, beq_iff_eq] at hboth
  exact ⟨s, t, hs, ht, hboth.1, hboth.2, (retries_bounded _ _ _ s hs _ _ _ t ht).1⟩

end RtspProxy.Upstream
