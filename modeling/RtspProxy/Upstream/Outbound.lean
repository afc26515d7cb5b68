import RtspProxy.Fanout.BackChannel
import RtspProxy.Upstream.Injection
import RtspProxy.Wire.Framed

/-!
# What reaches the camera

Every goroutine that writes to the camera does so under `connMutex`: `SendRequest` in one `Write`,
`SendBinary` in two, the header of a frame and then its data. A `Write` that fails may have written a part
of its bytes; the connection is closed then.

## The model

`Line` has the fields of a `Remote` that are written under the mutex, the goroutines that use it and every
`Write`. A `Job` is one critical section. A goroutine blocks in `Lock`, enters, writes its item chunk by
chunk, and leaves; nothing but the mutex keeps two of them apart. The map of a request's headers is written
in any order. Two fields only record: `whole` has the items of which every `Write` succeeded, `cut` those of
which one failed.

## What is proved

* `Line.Sound` — the holder of the mutex is the only one inside, and each connection has been written whole
  items and a part of one more.
* `outbound_whole` — **no two items are mixed**: what a connection has been written is whole items one after
  the other, and behind them at most a part of an item in hand or of one whose `Write` failed. A goroutine
  that succeeded has written its item once.
* `cseq_consecutive` — **the requests on a connection are numbered** from 1 on, with no number left out.
* `outbound_read` — a reader that frames as `readLoop` does gets exactly the items, however the bytes are cut,
  if no text in a request ends a line or contains `content-length:`.
-/

namespace RtspProxy.Upstream

open Theory Wire
open Fanout (sendBinary)

/-! ### Jobs -/

/-- A critical section of `connMutex`. -/
inductive Job where
  | dial
  | disconnect
  /-- `SendRequest`. -/
  | request (request : Request)
  /-- `SendBinary`. -/
  | binary (channel : ℤ) (data : Bytes)
  /-- `handleAuthenticationFailure`. -/
  | challenge (paramsStr : Bytes)
  /-- The nonce is cleared after a timeout in `SendRequestSync`. -/
  | forget
  deriving DecidableEq, Repr

/-- The job writes to the camera. -/
def Job.sends : Job → Bool
  | .request _ | .binary _ _ => true
  | _ => false

/-- What a job writes. -/
structure Put where
  /-- The number of the job. -/
  job : ℕ
  /-- The number of the connection. -/
  conn : ℕ
  /-- The bytes. -/
  text : Bytes
  /-- The `CSeq` of a request. -/
  cseq : Option ℕ
  deriving DecidableEq, Repr

/-- The header of a frame, as `SendBinary` fills it in. -/
def binaryHeader (channel : ℤ) (data : Bytes) : Bytes :=
  [36, (channel % 256).toNat.toUInt8, (data.length / 256).toUInt8, (data.length % 256).toUInt8]

theorem binaryHeader_append (channel : ℤ) (data : Bytes) :
    binaryHeader channel data ++ data = sendBinary channel data := rfl

/-- The bytes are what the job writes. -/
def Job.Makes (job : Job) (p : Put) : Prop :=
  match job with
  | .request r => ∃ cseq auth order, List.Perm order (r.prepare cseq auth) ∧ p.cseq = some cseq ∧
      p.text = Head.text ⟨r.method, r.url, order⟩
  | .binary channel data => p.cseq = none ∧ p.text = sendBinary channel data
  | _ => False

/-- Where a goroutine is. -/
inductive JobPc where
  /-- In `connMutex.Lock`. -/
  | blocked
  /-- It has the mutex, and is about to look at `RemoteConn`. -/
  | entered
  /-- It has written `done` of its item, and is about to write the chunks `left`. -/
  | writing (item : Put) (done : Bytes) (left : List Bytes)
  /-- About to unlock the mutex. -/
  | leaving (ok : Bool)
  | returned (ok : Bool)
  deriving DecidableEq, Repr

/-- It is in the critical section. -/
def JobPc.inside : JobPc → Bool
  | .blocked | .returned _ => false
  | _ => true

/-- It has succeeded. -/
def JobPc.succeeded : JobPc → Bool
  | .leaving ok | .returned ok => ok
  | _ => false

/-- The item in hand, and what has been written of it. -/
def JobPc.hand : JobPc → Option (Put × Bytes)
  | .writing item done _ => some (item, done)
  | _ => none

/-- A goroutine. -/
structure Sender where
  /-- What it does. -/
  job : Job
  /-- Where it is. -/
  pc : JobPc
  deriving DecidableEq, Repr

/-- The connection to the camera and the goroutines that use it. -/
structure Line where
  /-- The goroutine that has `connMutex`. -/
  holder : Option ℕ
  /-- `RemoteConn` is non-nil. -/
  connected : Bool
  /-- The number of the last connection made. -/
  conn : ℕ
  currentCSeq : ℕ
  digest : Digest
  /-- `Server.ctx` is done. -/
  serverDone : Bool
  /-- The goroutines. -/
  jobs : List Sender
  /-- Every `Write`: the connection, and the bytes written. -/
  wrote : List (ℕ × Bytes)
  /-- The items of which every `Write` succeeded. -/
  whole : List Put
  /-- The items of which a `Write` failed. -/
  cut : List Put
  deriving DecidableEq, Repr

/-- The connection of `NewRemote`. -/
def newLine (username password : Bytes) : Line :=
  ⟨none, false, 0, 0, (newRemote username password).digest, false, [], [], [], []⟩

/-! ### Steps -/

/-- Sender `i` goes on to `pc`. -/
def Line.goes (s : Line) (i : ℕ) (pc : JobPc) : Line :=
  { s with jobs := s.jobs.modify i fun g => { g with pc := pc } }

/-- `Disconnect` and `disconnectLocked`. -/
def Line.disconnected (s : Line) : Line :=
  if s.connected then { s with connected := false, digest := s.digest.clearNonce, currentCSeq := 0 } else s

/-- A new connection; an old one is closed. -/
def Line.dialed (s : Line) : Line := { s with connected := true, conn := s.conn + 1, currentCSeq := 0 }

/-- What a goroutine meets as it enters. -/
structure EnterInput where
  /-- A dial succeeds. -/
  dialOk : Bool
  /-- What `randomCnonce` returns. -/
  cnonce : Bytes
  /-- The order in which the headers are written. -/
  order : Headers
  deriving DecidableEq, Repr

/-- `SendRequest` on an open connection: the request gets its number and its `Authorization`. -/
def Line.begins (s : Line) (i : ℕ) (r : Request) (o : EnterInput) : Option Line :=
  let cseq := s.currentCSeq + 1
  let auth := s.digest.createAuthenticatorStr r.method r.url o.cnonce
  if o.order.isPerm (r.prepare cseq auth.2) then
    let text := Head.text ⟨r.method, r.url, o.order⟩
    some ({ s with currentCSeq := cseq, digest := auth.1 }.goes i (.writing ⟨i, s.conn, text, some cseq⟩ [] [text]))
  else none

/-- Sender `i` goes on in the critical section. -/
def Line.enters (s : Line) (i : ℕ) (o : EnterInput) : Job → Option Line
  | .dial => some (if s.serverDone || !o.dialOk then s.goes i (.leaving false) else s.dialed.goes i (.leaving true))
  | .disconnect => some (s.disconnected.goes i (.leaving true))
  | .request r =>
    if s.connected then s.begins i r o
    else if s.serverDone || !o.dialOk then some (s.goes i (.leaving false))
    else s.dialed.begins i r o
  | .binary channel data =>
    if s.connected then
      some (s.goes i (.writing ⟨i, s.conn, sendBinary channel data, none⟩ [] [binaryHeader channel data, data]))
    else some (s.goes i (.leaving false))
  | .challenge paramsStr =>
    let r := s.digest.handleAuthenticationFailure paramsStr
    some ({ s with digest := r.1 }.goes i (.leaving r.2))
  | .forget => some ({ s with digest := s.digest.clearNonce }.goes i (.leaving true))

/-- Sender `i` calls `Write` with a chunk of its item; `failed` says after how many bytes it failed. -/
def Line.writes (s : Line) (i : ℕ) (item : Put) (done chunk : Bytes) (left : List Bytes) (failed : Option ℕ) : Line :=
  match failed with
  | none =>
    let s := { s with wrote := s.wrote ++ [(s.conn, chunk)] }
    match left with
    | [] => { s with whole := s.whole ++ [item] }.goes i (.leaving true)
    | _ => s.goes i (.writing item (done ++ chunk) left)
  | some n =>
    { s with wrote := s.wrote ++ [(s.conn, chunk.take n)], cut := s.cut ++ [item] }.disconnected.goes i (.leaving false)

/-- The actions. -/
inductive Move where
  /-- A goroutine comes. -/
  | come (job : Job)
  /-- The server's context is cancelled. -/
  | shutdown
  /-- `Lock` returns. -/
  | lock (i : ℕ)
  /-- What is done before the first `Write`. -/
  | enter (i : ℕ) (o : EnterInput)
  /-- A `Write`, with the bytes written if it failed. -/
  | write (i : ℕ) (failed : Option ℕ)
  | unlock (i : ℕ)
  deriving DecidableEq, Repr

/-- One step. -/
def Line.step (s : Line) : Move → Option Line
  | .come job => some { s with jobs := s.jobs ++ [⟨job, .blocked⟩] }
  | .shutdown => some { s with serverDone := true }
  | .lock i =>
    match s.jobs[i]? with
    | some ⟨_, .blocked⟩ => if s.holder = none then some { s.goes i .entered with holder := some i } else none
    | _ => none
  | .enter i o =>
    match s.jobs[i]? with
    | some ⟨job, .entered⟩ => s.enters i o job
    | _ => none
  | .write i failed =>
    match s.jobs[i]? with
    | some ⟨_, .writing item done (chunk :: left)⟩ => some (s.writes i item done chunk left failed)
    | _ => none
  | .unlock i =>
    match s.jobs[i]? with
    | some ⟨_, .leaving ok⟩ => some { s.goes i (.returned ok) with holder := none }
    | _ => none

/-! ### What the steps do -/

variable {s s' : Line}

/-- **The steps**: what each of them does to the connection, the goroutines and the record. -/
inductive Line.Moved (s : Line) : Line → Prop
  /-- A goroutine comes. -/
  | come (job : Job) : Moved s { s with jobs := s.jobs ++ [⟨job, .blocked⟩] }
  /-- The server's context is cancelled. -/
  | shutdown : Moved s { s with serverDone := true }
  /-- The mutex is free, and a goroutine gets it. -/
  | lock (i : ℕ) (g : Sender) : s.jobs[i]? = some g → g.pc = .blocked → s.holder = none →
      Moved s { s.goes i .entered with holder := some i }
  /-- A goroutine is done without a `Write`. -/
  | settled (i : ℕ) (g : Sender) (ok : Bool) (d : Digest) (c : Line) : s.jobs[i]? = some g → g.pc = .entered →
      (g.job.sends = true → ok = false) → (c = s ∨ c = s.dialed ∨ c = s.disconnected) →
      Moved s ({ c with digest := d }.goes i (.leaving ok))
  /-- A goroutine has an item to write to the connection there is, or to a new one. -/
  | begun (i : ℕ) (g : Sender) (d : Digest) (c : Line) (item : Put) (chunks : List Bytes) (n : ℕ) :
      s.jobs[i]? = some g → g.pc = .entered → (s.connected = true ∧ c = s ∨ s.connected = false ∧ c = s.dialed) →
      g.job.Makes item → item.job = i → item.conn = c.conn → chunks.flatten = item.text →
      (item.cseq = none ∧ n = c.currentCSeq ∨ item.cseq = some n ∧ n = c.currentCSeq + 1) →
      Moved s ({ c with digest := d, currentCSeq := n }.goes i (.writing item [] chunks))
  /-- A `Write`. -/
  | wrote (i : ℕ) (g : Sender) (item : Put) (done chunk : Bytes) (left : List Bytes) (failed : Option ℕ) :
      s.jobs[i]? = some g → g.pc = .writing item done (chunk :: left) →
      Moved s (s.writes i item done chunk left failed)
  /-- A goroutine gives the mutex back. -/
  | unlock (i : ℕ) (g : Sender) (ok : Bool) : s.jobs[i]? = some g → g.pc = .leaving ok →
      Moved s { s.goes i (.returned ok) with holder := none }

theorem moved_of_begins {c : Line} {i : ℕ} {g : Sender} {r : Request} {o : EnterInput}
    (hget : s.jobs[i]? = some g) (hpc : g.pc = .entered) (hjob : g.job = .request r)
    (hc : s.connected = true ∧ c = s ∨ s.connected = false ∧ c = s.dialed) (h : c.begins i r o = some s') :
    s.Moved s' := by
  unfold Line.begins at h
  dsimp only at h
  split_ifs at h with horder
  cases h
  refine .begun i g _ c _ _ _ hget hpc hc ?_ rfl rfl ?_ (.inr ⟨rfl, rfl⟩)
  · rw [hjob]
    exact ⟨_, _, _, List.isPerm_iff.mp horder, rfl, rfl⟩
  · exact List.flatten_singleton

theorem moved_of_enters {i : ℕ} {g : Sender} {o : EnterInput} (hget : s.jobs[i]? = some g)
    (hpc : g.pc = .entered) (h : s.enters i o g.job = some s') : s.Moved s' := by
  cases hjob : g.job with
  | dial =>
    simp only [hjob, Line.enters, Option.some.injEq] at h
    subst h
    split_ifs
    · exact .settled i g false s.digest s hget hpc (fun _ => rfl) (.inl rfl)
    · exact .settled i g true s.digest s.dialed hget hpc (by simp [hjob, Job.sends]) (.inr (.inl rfl))
  | disconnect =>
    simp only [hjob, Line.enters, Option.some.injEq] at h
    subst h
    exact .settled i g true s.disconnected.digest s.disconnected hget hpc (by simp [hjob, Job.sends]) (.inr (.inr rfl))
  | request r =>
    simp only [hjob, Line.enters] at h
    split_ifs at h with hc hd
    · exact moved_of_begins hget hpc hjob (.inl ⟨hc, rfl⟩) h
    · cases h
      exact .settled i g false s.digest s hget hpc (fun _ => rfl) (.inl rfl)
    · exact moved_of_begins hget hpc hjob (.inr ⟨Bool.eq_false_iff.mpr hc, rfl⟩) h
  | binary channel data =>
    simp only [hjob, Line.enters] at h
    split_ifs at h with hc
    · cases h
      refine .begun i g s.digest s _ _ s.currentCSeq hget hpc (.inl ⟨hc, rfl⟩) ?_ rfl rfl ?_ (.inl ⟨rfl, rfl⟩)
      · rw [hjob]
        exact ⟨rfl, rfl⟩
      · simp [← binaryHeader_append]
    · cases h
      exact .settled i g false s.digest s hget hpc (fun _ => rfl) (.inl rfl)
  | challenge paramsStr =>
    simp only [hjob, Line.enters, Option.some.injEq] at h
    subst h
    exact .settled i g _ _ s hget hpc (by simp [hjob, Job.sends]) (.inl rfl)
  | forget =>
    simp only [hjob, Line.enters, Option.some.injEq] at h
    subst h
    exact .settled i g true _ s hget hpc (by simp [hjob, Job.sends]) (.inl rfl)

theorem moved_of_step {a : Move} (h : s.step a = some s') : s.Moved s' := by
  cases a with
  | come job =>
    cases h
    exact .come job
  | shutdown =>
    cases h
    exact .shutdown
  | lock i =>
    simp only [Line.step] at h
    split at h
    · rename_i job hget
      split_ifs at h with hfree
      cases h
      exact .lock i _ hget rfl hfree
    · cases h
  | enter i o =>
    simp only [Line.step] at h
    split at h
    · rename_i job hget
      exact moved_of_enters hget rfl h
    · cases h
  | write i failed =>
    simp only [Line.step] at h
    split at h
    · rename_i job item done chunk left hget
      cases h
      exact .wrote i _ item done chunk left failed hget rfl
    · cases h
  | unlock i =>
    simp only [Line.step] at h
    split at h
    · rename_i job ok hget
      cases h
      exact .unlock i _ ok hget rfl
    · cases h

/-! ### What a connection has been written -/

/-- The bytes written to connection `k`. -/
def logOf (wrote : List (ℕ × Bytes)) (k : ℕ) : Bytes := (wrote.filter fun w => w.1 == k).flatMap Prod.snd

/-- The items of connection `k`. -/
def onConn (puts : List Put) (k : ℕ) : List Put := puts.filter fun p => p.conn == k

/-- The bytes written to connection `k`. -/
abbrev Line.log (s : Line) (k : ℕ) : Bytes := logOf s.wrote k

/-- The items written to connection `k`, whole. -/
abbrev Line.wholeOn (s : Line) (k : ℕ) : List Put := onConn s.whole k

/-- The items of connection `k` of which a `Write` failed. -/
abbrev Line.cutOn (s : Line) (k : ℕ) : List Put := onConn s.cut k

/-- The item of the goroutine that has the mutex, and what has been written of it. -/
def Line.inHand (s : Line) : Option (Put × Bytes) :=
  s.holder.bind fun i => (s.jobs[i]?).bind fun g => g.pc.hand

/-- The items of which something has been written, or is about to be. -/
def Line.puts (s : Line) : List Put := s.whole ++ s.cut ++ s.inHand.toList.map Prod.fst

theorem logOf_concat (wrote : List (ℕ × Bytes)) (c k : ℕ) (bytes : Bytes) :
    logOf (wrote ++ [(c, bytes)]) k = logOf wrote k ++ if c = k then bytes else [] := by
  by_cases hk : c = k <;> simp [logOf, hk]

theorem onConn_concat (puts : List Put) (p : Put) (k : ℕ) :
    onConn (puts ++ [p]) k = onConn puts k ++ if p.conn = k then [p] else [] := by
  by_cases hk : p.conn = k <;> simp [onConn, hk]

/-- A `Write` to one connection leaves the others as they are. -/
theorem logOf_concat_of_ne (wrote : List (ℕ × Bytes)) {c k : ℕ} (bytes : Bytes) (hk : c ≠ k) :
    logOf (wrote ++ [(c, bytes)]) k = logOf wrote k := by
  rw [logOf_concat, if_neg hk, List.append_nil]

theorem onConn_concat_of_ne (puts : List Put) {p : Put} {k : ℕ} (hk : p.conn ≠ k) :
    onConn (puts ++ [p]) k = onConn puts k := by
  rw [onConn_concat, if_neg hk, List.append_nil]

/-- The open connection: whole items, then what is in hand; no `Write` has failed. -/
structure Line.Stands (s : Line) (hand : Option (Put × Bytes)) : Prop where
  bytes : s.log s.conn = (s.wholeOn s.conn).flatMap Put.text ++ hand.elim [] Prod.snd
  /-- Nothing is cut. -/
  uncut : s.cutOn s.conn = []
  /-- The requests are numbered. -/
  seq : (s.wholeOn s.conn ++ hand.toList.map Prod.fst).filterMap Put.cseq = List.range' 1 s.currentCSeq

/-- A connection that is closed: whole items, then a part of the item of which a `Write` failed. -/
structure Line.Ended (s : Line) (k : ℕ) (rest : Bytes) (last : Option Put) (n : ℕ) : Prop where
  bytes : s.log k = (s.wholeOn k).flatMap Put.text ++ rest
  /-- At most one item is cut. -/
  cut : s.cutOn k = last.toList
  /-- A part of it is at the end. -/
  part : rest <+: last.elim [] Put.text
  /-- The requests are numbered. -/
  seq : (s.wholeOn k ++ last.toList).filterMap Put.cseq = List.range' 1 n

/-- The connections so far, with an item in hand. -/
structure Line.Kept (s : Line) (hand : Option (Put × Bytes)) : Prop where
  /-- The open one. -/
  now : s.connected = true → s.Stands hand
  /-- The closed ones. -/
  past : ∀ k ≤ s.conn, (k = s.conn → s.connected = false) → ∃ rest last n, s.Ended k rest last n
  /-- Those to come. -/
  fresh : ∀ k, s.conn < k → s.log k = [] ∧ s.wholeOn k = [] ∧ s.cutOn k = []

namespace Line.Kept

variable {item : Put} {done : Bytes}

/-- The goroutines and the digest do not matter to the connections. -/
theorem of_eq {hand : Option (Put × Bytes)} (h : s.Kept hand) (hconnected : s'.connected = s.connected)
    (hconn : s'.conn = s.conn) (hcseq : s'.currentCSeq = s.currentCSeq) (hwrote : s'.wrote = s.wrote)
    (hwhole : s'.whole = s.whole) (hcut : s'.cut = s.cut) : s'.Kept hand := by
  refine ⟨fun hc => ?_, fun k hk hne => ?_, fun k hk => ?_⟩
  · obtain ⟨hbytes, huncut, hseq⟩ := h.now (hconnected ▸ hc)
    constructor
    · rw [Line.log, Line.wholeOn, hwrote, hwhole, hconn]
      exact hbytes
    · rw [Line.cutOn, hcut, hconn]
      exact huncut
    · rw [Line.wholeOn, hwhole, hconn, hcseq]
      exact hseq
  · obtain ⟨rest, last, n, hend⟩ := h.past k (hconn ▸ hk) fun heq => hconnected ▸ hne (hconn ▸ heq)
    refine ⟨rest, last, n, ?_, ?_, hend.part, ?_⟩
    · rw [Line.log, Line.wholeOn, hwrote, hwhole]
      exact hend.bytes
    · rw [Line.cutOn, hcut]
      exact hend.cut
    · rw [Line.wholeOn, hwhole]
      exact hend.seq
  · rw [Line.log, Line.wholeOn, Line.cutOn, hwrote, hwhole, hcut]
    exact h.fresh k (hconn ▸ hk)

/-- A connection that is closed between two items. -/
theorem ended (h : s.Kept none) {k : ℕ} (hk : k ≤ s.conn) : ∃ rest last n, s.Ended k rest last n := by
  by_cases hc : k = s.conn ∧ s.connected = true
  · obtain ⟨rfl, hc⟩ := hc
    have hnow := h.now hc
    exact ⟨[], none, s.currentCSeq, hnow.bytes, hnow.uncut, List.nil_prefix, hnow.seq⟩
  · refine h.past k hk fun hk => ?_
    rw [not_and, Bool.not_eq_true] at hc
    exact hc hk

theorem dialed (h : s.Kept none) : s.dialed.Kept none := by
  refine ⟨fun _ => ?_, fun k hk hne => ?_, fun k hk => h.fresh k (Nat.lt_of_succ_lt hk)⟩
  · obtain ⟨hlog, hwhole, hcut⟩ := h.fresh (s.conn + 1) (Nat.lt_succ_self _)
    exact ⟨by simp [Line.dialed, hlog, hwhole], hcut, by simp [Line.dialed, hwhole]⟩
  · have hlt : k ≠ s.conn + 1 := fun heq => Bool.noConfusion (hne heq)
    obtain ⟨rest, last, n, hend⟩ := h.ended (k := k) (by simp only [Line.dialed] at hk; omega)
    exact ⟨rest, last, n, hend.bytes, hend.cut, hend.part, hend.seq⟩

theorem disconnected (h : s.Kept none) : s.disconnected.Kept none := by
  unfold Line.disconnected
  split_ifs
  · refine ⟨fun hc => Bool.noConfusion hc, fun k hk _ => ?_, h.fresh⟩
    obtain ⟨rest, last, n, hend⟩ := h.ended hk
    exact ⟨rest, last, n, hend.bytes, hend.cut, hend.part, hend.seq⟩
  · exact h

theorem begun (h : s.Kept none) (d : Digest) {n : ℕ}
    (hseq : item.cseq = none ∧ n = s.currentCSeq ∨ item.cseq = some n ∧ n = s.currentCSeq + 1) :
    ({ s with digest := d, currentCSeq := n } : Line).Kept (some (item, [])) := by
  refine ⟨fun hc => ?_, fun k hk hne => ?_, h.fresh⟩
  · have hnow := h.now hc
    refine ⟨hnow.bytes, hnow.uncut, ?_⟩
    have hold : (s.wholeOn s.conn).filterMap Put.cseq = List.range' 1 s.currentCSeq := by
      simpa using hnow.seq
    rcases hseq with ⟨hnone, rfl⟩ | ⟨hsome, rfl⟩
    · simpa [hnone] using hold
    · simp [hsome, hold, List.range'_concat, Nat.add_comm]
  · obtain ⟨rest, last, m, hend⟩ := h.past k hk hne
    exact ⟨rest, last, m, hend.bytes, hend.cut, hend.part, hend.seq⟩

/-- A chunk of the item in hand is written, and another one is to follow. -/
theorem chunk (h : s.Kept (some (item, done))) (hc : s.connected = true) (bytes : Bytes) :
    ({ s with wrote := s.wrote ++ [(s.conn, bytes)] } : Line).Kept (some (item, done ++ bytes)) := by
  have hnow := h.now hc
  refine ⟨fun _ => ⟨?_, hnow.uncut, hnow.seq⟩, fun k hk hne => ?_, fun k hk => ?_⟩
  · have hb : s.log s.conn = (s.wholeOn s.conn).flatMap Put.text ++ done := hnow.bytes
    simp only [Line.log, logOf_concat, if_true, Option.elim_some]
    rw [← List.append_assoc, ← hb]
  · have hk' : s.conn ≠ k := fun heq => by simpa [hc] using hne heq.symm
    obtain ⟨rest, last, n, hend⟩ := h.past k hk hne
    exact ⟨rest, last, n, (logOf_concat_of_ne _ _ hk').trans hend.bytes, hend.cut, hend.part, hend.seq⟩
  · obtain ⟨hlog, hwhole, hcut⟩ := h.fresh k hk
    exact ⟨(logOf_concat_of_ne _ _ (Nat.ne_of_lt hk)).trans hlog, hwhole, hcut⟩

/-- The last chunk of the item in hand has been written. -/
theorem finished (h : s.Kept (some (item, item.text))) (hc : s.connected = true) (hconn : item.conn = s.conn) :
    ({ s with whole := s.whole ++ [item] } : Line).Kept none := by
  have hnow := h.now hc
  refine ⟨fun _ => ⟨?_, hnow.uncut, ?_⟩, fun k hk hne => ?_, fun k hk => ?_⟩
  · have hb : s.log s.conn = (s.wholeOn s.conn).flatMap Put.text ++ item.text := hnow.bytes
    simp [Line.wholeOn, onConn_concat, hconn, hb]
  · have hseq := hnow.seq
    simp only [Option.toList_some, List.map_cons, List.map_nil] at hseq
    simpa [Line.wholeOn, onConn_concat, hconn] using hseq
  · have hk' : item.conn ≠ k := fun heq => by simpa [hc] using hne (heq.symm.trans hconn)
    obtain ⟨rest, last, n, hend⟩ := h.past k hk hne
    refine ⟨rest, last, n, ?_, hend.cut, hend.part, ?_⟩
    · simpa only [Line.wholeOn, onConn_concat_of_ne s.whole hk'] using hend.bytes
    · simpa only [Line.wholeOn, onConn_concat_of_ne s.whole hk'] using hend.seq
  · obtain ⟨hlog, hwhole, hcut⟩ := h.fresh k hk
    have hk' : item.conn ≠ k := fun heq => Nat.ne_of_lt hk (hconn.symm.trans heq)
    exact ⟨hlog, (onConn_concat_of_ne _ hk').trans hwhole, hcut⟩

/-- A `Write` of the item in hand has failed, and the connection is closed. -/
theorem failed (h : s.Kept (some (item, done))) (hc : s.connected = true) (hconn : item.conn = s.conn)
    (hpart : done <+: item.text) :
    ({ s with cut := s.cut ++ [item] } : Line).disconnected.Kept none := by
  have hnow := h.now hc
  have hdisc : ({ s with cut := s.cut ++ [item] } : Line).disconnected =
      { s with connected := false, digest := s.digest.clearNonce, currentCSeq := 0, cut := s.cut ++ [item] } := by
    simp [Line.disconnected, hc]
  rw [hdisc]
  refine ⟨fun hc => Bool.noConfusion hc, fun k hk _ => ?_, fun k hk => ?_⟩
  · by_cases hk' : k = s.conn
    · subst hk'
      refine ⟨done, some item, s.currentCSeq, hnow.bytes, ?_, hpart, hnow.seq⟩
      have hun := hnow.uncut
      simp only [Line.cutOn] at hun
      simp [Line.cutOn, onConn_concat, hconn, hun]
    · obtain ⟨rest, last, n, hend⟩ := h.past k hk fun heq => absurd heq hk'
      have hne : item.conn ≠ k := fun heq => hk' (heq.symm.trans hconn)
      exact ⟨rest, last, n, hend.bytes, (onConn_concat_of_ne _ hne).trans hend.cut, hend.part, hend.seq⟩
  · obtain ⟨hlog, hwhole, hcut⟩ := h.fresh k hk
    have hne : item.conn ≠ k := fun heq => Nat.ne_of_lt hk (hconn.symm.trans heq)
    exact ⟨hlog, hwhole, (onConn_concat_of_ne _ hne).trans hcut⟩

end Line.Kept

/-! ### One at a time -/

/-- Sender `i` has an item of its own in hand, for the open connection. -/
structure Line.Held (s : Line) (i : ℕ) (g : Sender) (item : Put) (done : Bytes) (left : List Bytes) : Prop where
  /-- There is a connection. -/
  connected : s.connected = true
  /-- The item is for it. -/
  conn : item.conn = s.conn
  /-- It is the goroutine's own. -/
  own : item.job = i
  /-- It is what the goroutine writes. -/
  makes : g.job.Makes item
  /-- What has been written and what is left make the item. -/
  text : done ++ left.flatten = item.text

/-- What every run keeps. -/
structure Line.Sound (s : Line) : Prop where
  /-- The mutex is with a goroutine. -/
  holder : ∀ i, s.holder = some i → i < s.jobs.length
  /-- Who is inside has the mutex. -/
  inside : ∀ (i : ℕ) (g : Sender), s.jobs[i]? = some g → (g.pc.inside = true ↔ s.holder = some i)
  /-- Who writes has an item of its own for the open connection. -/
  hand : ∀ (i : ℕ) (g : Sender) (item : Put) (done : Bytes) (left : List Bytes), s.jobs[i]? = some g →
    g.pc = .writing item done left → s.Held i g item done left
  /-- The connections. -/
  kept : s.Kept s.inHand
  /-- Who has succeeded in sending has written its item once. -/
  accounts : ∀ (i : ℕ) (g : Sender), s.jobs[i]? = some g → g.job.sends = true →
    (s.whole.map Put.job).count i = g.pc.succeeded.toNat
  /-- Each item is what its goroutine writes. -/
  known : ∀ p ∈ s.whole ++ s.cut, ∃ g, s.jobs[p.job]? = some g ∧ g.job.Makes p

/-- The goroutine inside has the item in hand. -/
theorem Line.Sound.inHand_eq (hs : s.Sound) {i : ℕ} {g : Sender} (hget : s.jobs[i]? = some g)
    (hin : g.pc.inside = true) : s.inHand = g.pc.hand := by
  simp [Line.inHand, (hs.inside i g hget).mp hin, hget]

/-- What another goroutine's going on leaves as it is. -/
theorem getElem?_goes {i j : ℕ} {pc : JobPc} {g : Sender} (h : (s.goes i pc).jobs[j]? = some g) :
    ∃ g₀, s.jobs[j]? = some g₀ ∧ g.job = g₀.job ∧ (i = j ∧ g.pc = pc ∨ i ≠ j ∧ g = g₀) := by
  obtain ⟨g₀, hget, ⟨hij, rfl⟩ | ⟨hij, rfl⟩⟩ := of_getElem?_modify h
  · exact ⟨g₀, hget, rfl, .inl ⟨hij, rfl⟩⟩
  · exact ⟨g, hget, rfl, .inr ⟨hij, rfl⟩⟩

theorem exists_goes {i j : ℕ} {p : JobPc} {g : Sender} (h : s.jobs[j]? = some g) :
    ∃ g', (s.goes i p).jobs[j]? = some g' ∧ g'.job = g.job := by
  refine ⟨if i = j then { g with pc := p } else g, ?_, ?_⟩
  · rw [Line.goes, List.getElem?_modify, h]
    split_ifs <;> rfl
  · split_ifs <;> rfl

/-- **The goroutine inside goes on**, still inside: the others are not concerned. -/
theorem Line.Sound.goes (hs : s.Sound) {c : Line} {i : ℕ} {g : Sender} {pc : JobPc} (hget : s.jobs[i]? = some g)
    (hin : g.pc.inside = true) (hpc : pc.inside = true) (hjobs : c.jobs = s.jobs) (hholder : c.holder = s.holder)
    (hkept : c.Kept pc.hand) (hheld : ∀ item done left, pc = .writing item done left → c.Held i g item done left)
    (hothers : ∀ j, j ≠ i → (c.whole.map Put.job).count j = (s.whole.map Put.job).count j)
    (hown : g.job.sends = true → (c.whole.map Put.job).count i = pc.succeeded.toNat)
    (hknown : ∀ p ∈ c.whole ++ c.cut, p ∈ s.whole ++ s.cut ∨ p.job = i ∧ g.job.Makes p) : (c.goes i pc).Sound := by
  have hhold : s.holder = some i := (hs.inside i g hget).mp hin
  refine ⟨fun j hj => ?_, fun j g' hj => ?_, fun j g' item done left hj hw => ?_, ?_, fun j g' hj hsends => ?_,
    fun p hp => ?_⟩
  · simp only [Line.goes, List.length_modify, hjobs, hholder] at hj ⊢
    exact hs.holder j hj
  · obtain ⟨g₀, hj₀, -, ⟨rfl, hpc'⟩ | ⟨hij, rfl⟩⟩ := getElem?_goes hj
    · simp [Line.goes, hpc', hpc, hholder, hhold]
    · have := hs.inside j g' (hjobs ▸ hj₀)
      simpa [Line.goes, hholder] using this
  · obtain ⟨g₀, hj₀, hjob, ⟨rfl, hpc'⟩ | ⟨hij, rfl⟩⟩ := getElem?_goes hj
    · obtain rfl : g₀ = g := Option.some.inj ((hjobs ▸ hj₀).symm.trans hget)
      obtain ⟨hc, hconn, hitem, hmakes, htext⟩ := hheld item done left (hpc' ▸ hw)
      exact ⟨hc, hconn, hitem, hjob ▸ hmakes, htext⟩
    · -- another goroutine that writes would have the mutex too
      have hother := (hs.inside j g' (hjobs ▸ hj₀)).mp (by simp [hw, JobPc.inside])
      exact absurd (Option.some.inj (hhold.symm.trans hother)) hij
  · have hhand : (c.goes i pc).inHand = pc.hand := by
      simp [Line.inHand, Line.goes, hholder, hhold, hjobs, hget]
    rw [hhand]
    exact hkept.of_eq rfl rfl rfl rfl rfl rfl
  · obtain ⟨g₀, hj₀, hjob, ⟨rfl, hpc'⟩ | ⟨hij, rfl⟩⟩ := getElem?_goes hj
    · obtain rfl : g₀ = g := Option.some.inj ((hjobs ▸ hj₀).symm.trans hget)
      rw [hpc']
      exact hown (hjob ▸ hsends)
    · exact (hothers j (Ne.symm hij)).trans (hs.accounts j g' (hjobs ▸ hj₀) hsends)
  · rcases hknown p hp with hold | ⟨rfl, hmakes⟩
    · obtain ⟨g₀, hg₀, hm⟩ := hs.known p hold
      obtain ⟨g', hg', hjob⟩ := exists_goes (hjobs ▸ hg₀) (i := i) (p := pc)
      exact ⟨g', hg', hjob ▸ hm⟩
    · obtain ⟨g', hg', hjob⟩ := exists_goes (hjobs ▸ hget) (i := p.job) (p := pc)
      exact ⟨g', hg', hjob ▸ hmakes⟩

/-- What a connection made, lost or found leaves as it is. -/
theorem Line.Sound.reconnected (hs : s.Sound) {i : ℕ} {g : Sender} (hget : s.jobs[i]? = some g)
    (hpc : g.pc = .entered) {c : Line} (hc : c = s ∨ c = s.dialed ∨ c = s.disconnected) :
    c.Kept none ∧ c.jobs = s.jobs ∧ c.holder = s.holder ∧ c.whole = s.whole ∧ c.cut = s.cut := by
  have hkept : s.Kept none := by
    have := hs.kept
    rwa [hs.inHand_eq hget (by simp [hpc, JobPc.inside]), hpc] at this
  rcases hc with rfl | rfl | rfl
  · exact ⟨hkept, rfl, rfl, rfl, rfl⟩
  · exact ⟨hkept.dialed, rfl, rfl, rfl, rfl⟩
  · refine ⟨hkept.disconnected, ?_⟩
    unfold Line.disconnected
    split_ifs <;> exact ⟨rfl, rfl, rfl, rfl⟩

/-- A goroutine that has not succeeded has no whole item. -/
theorem Line.Sound.none_whole (hs : s.Sound) {i : ℕ} {g : Sender} (hget : s.jobs[i]? = some g)
    (hpc : g.pc.succeeded = false) (hsends : g.job.sends = true) : (s.whole.map Put.job).count i = 0 := by
  rw [hs.accounts i g hget hsends, hpc]
  rfl

theorem Job.Makes.sends {job : Job} {p : Put} (h : job.Makes p) : job.sends = true := by
  cases job with
  | request _ => rfl
  | binary _ _ => rfl
  | _ => exact h.elim

theorem Line.Sound.writes (hs : s.Sound) {i : ℕ} {g : Sender} {item : Put} {done chunk : Bytes} {left : List Bytes}
    (hget : s.jobs[i]? = some g) (hpc : g.pc = .writing item done (chunk :: left)) (failed : Option ℕ) :
    (s.writes i item done chunk left failed).Sound := by
  have hin : g.pc.inside = true := by simp [hpc, JobPc.inside]
  obtain ⟨hc, hconn, hown, hmakes, htext⟩ := hs.hand i g item done _ hget hpc
  rw [List.flatten_cons, ← List.append_assoc] at htext
  have hkept : s.Kept (some (item, done)) := by
    have := hs.kept
    rwa [hs.inHand_eq hget hin, hpc] at this
  have hzero := hs.none_whole hget (by simp [hpc, JobPc.succeeded]) hmakes.sends
  cases failed with
  | none =>
    have hchunk := hkept.chunk hc chunk
    cases left with
    | nil =>
      rw [List.flatten_nil, List.append_nil] at htext
      rw [htext] at hchunk
      refine hs.goes hget hin rfl rfl rfl (hchunk.finished hc hconn) (fun _ _ _ h => JobPc.noConfusion h)
        (fun j hj => ?_) (fun _ => ?_) (fun p hp => ?_)
      · simp [hown, hj.symm]
      · simp [hown, hzero, JobPc.succeeded]
      · simp only [List.append_assoc, List.mem_append, List.mem_singleton] at hp ⊢
        rcases hp with hp | rfl | hp
        · exact .inl (.inl hp)
        · exact .inr ⟨hown, hmakes⟩
        · exact .inl (.inr hp)
    | cons next left =>
      refine hs.goes hget hin rfl rfl rfl hchunk (fun item' done' left' h => ?_) (fun _ _ => rfl) (fun _ => hzero)
        (fun p hp => .inl hp)
      cases h
      exact ⟨hc, hconn, hown, hmakes, htext⟩
  | some n =>
    have hpart : done ++ chunk.take n <+: item.text :=
      ⟨chunk.drop n ++ left.flatten, by
        rw [List.append_assoc, ← List.append_assoc (chunk.take n), List.take_append_drop, ← List.append_assoc, htext]⟩
    have hfailed := (hkept.chunk hc (chunk.take n)).failed hc hconn hpart
    have hdisc : ({ s with wrote := s.wrote ++ [(s.conn, chunk.take n)], cut := s.cut ++ [item] } : Line).disconnected =
        { s with connected := false, digest := s.digest.clearNonce, currentCSeq := 0,
                 wrote := s.wrote ++ [(s.conn, chunk.take n)], cut := s.cut ++ [item] } := by
      simp [Line.disconnected, hc]
    simp only [Line.writes]
    rw [hdisc] at hfailed ⊢
    refine hs.goes hget hin rfl rfl rfl hfailed (fun _ _ _ h => JobPc.noConfusion h) (fun _ _ => rfl) (fun _ => hzero)
      (fun p hp => ?_)
    simp only [← List.append_assoc, List.mem_append, List.mem_singleton] at hp ⊢
    rcases hp with hp | rfl
    · exact .inl hp
    · exact .inr ⟨hown, hmakes⟩

/-- **The mutex changes hands** between two items: only goroutine `i` had it, or gets it. -/
theorem Line.Sound.passes (hs : s.Sound) {i : ℕ} {g : Sender} (hget : s.jobs[i]? = some g) (pc : JobPc)
    (holder : Option ℕ) (hold : ∀ j, s.holder = some j → j = i) (hnew : ∀ j, holder = some j → j = i)
    (hin : pc.inside = true ↔ holder = some i) (hhand : s.inHand = none) (hpc : pc.hand = none)
    (hsucceeded : pc.succeeded = g.pc.succeeded) : ({ s.goes i pc with holder := holder } : Line).Sound := by
  have hlt : i < s.jobs.length := (List.getElem?_eq_some_iff.mp hget).1
  refine ⟨fun j hj => ?_, fun j g' hj => ?_, fun j g' item done left hj hw => ?_, ?_, fun j g' hj hsends => ?_,
    fun p hp => ?_⟩
  · simp only [Line.goes, List.length_modify]
    exact hnew j hj ▸ hlt
  · obtain ⟨g₀, hj₀, -, ⟨rfl, hpc'⟩ | ⟨hij, rfl⟩⟩ := getElem?_goes hj
    · rw [hpc']
      exact hin
    · have hout := hs.inside j g' hj₀
      exact ⟨fun h => absurd (hold j (hout.mp h)).symm hij, fun h => absurd (hnew j h).symm hij⟩
  · obtain ⟨g₀, hj₀, -, ⟨rfl, hpc'⟩ | ⟨hij, rfl⟩⟩ := getElem?_goes hj
    · rw [← hpc', hw] at hpc
      cases hpc
    · have hout := (hs.inside j g' hj₀).mp (by simp [hw, JobPc.inside])
      exact absurd (hold j hout).symm hij
  · have hhand' : ({ s.goes i pc with holder := holder } : Line).inHand = none := by
      cases holder with
      | none => rfl
      | some j =>
        obtain rfl := hnew j rfl
        simp [Line.inHand, Line.goes, hget, hpc]
    rw [hhand', ← hhand]
    exact hs.kept.of_eq rfl rfl rfl rfl rfl rfl
  · obtain ⟨g₀, hj₀, hjob, ⟨rfl, hpc'⟩ | ⟨hij, rfl⟩⟩ := getElem?_goes hj
    · obtain rfl : g₀ = g := Option.some.inj (hj₀.symm.trans hget)
      rw [hpc', hsucceeded]
      exact hs.accounts i g₀ hget (hjob ▸ hsends)
    · exact hs.accounts j g' hj₀ hsends
  · obtain ⟨g₀, hg₀, hm⟩ := hs.known p hp
    obtain ⟨g', hg', hjob⟩ := exists_goes hg₀ (i := i) (p := pc)
    exact ⟨g', hg', hjob ▸ hm⟩

theorem Line.Sound.step (hs : s.Sound) (h : s.Moved s') : s'.Sound := by
  cases h with
  | come job =>
    have hnew : ∀ {i : ℕ} {g : Sender}, (s.jobs ++ [(⟨job, .blocked⟩ : Sender)])[i]? = some g →
        s.jobs[i]? = some g ∨ i = s.jobs.length ∧ g = ⟨job, .blocked⟩ := fun h => of_getElem?_concat h
    have hlt : ∀ p ∈ s.whole ++ s.cut, p.job < s.jobs.length := fun p hp => by
      obtain ⟨g, hg, -⟩ := hs.known p hp
      exact (List.getElem?_eq_some_iff.mp hg).1
    have hhand : ({ s with jobs := s.jobs ++ [⟨job, .blocked⟩] } : Line).inHand = s.inHand := by
      simp only [Line.inHand]
      cases hh : s.holder with
      | none => rfl
      | some i => simp only [Option.bind_some, List.getElem?_append_left (hs.holder i hh)]
    refine ⟨fun i hi => ?_, fun i g hi => ?_, fun i g item done left hi hw => ?_, ?_, fun i g hi hsends => ?_,
      fun p hp => ?_⟩
    · rw [List.length_append]
      exact Nat.lt_add_right _ (hs.holder i hi)
    · rcases hnew hi with hi | ⟨rfl, rfl⟩
      · exact hs.inside i g hi
      · simp only [JobPc.inside, Bool.false_eq_true, false_iff]
        exact fun hh => Nat.lt_irrefl _ (hs.holder _ hh)
    · rcases hnew hi with hi | ⟨rfl, rfl⟩
      · obtain ⟨h₁, h₂, h₃, h₄, h₅⟩ := hs.hand i g item done left hi hw
        exact ⟨h₁, h₂, h₃, h₄, h₅⟩
      · cases hw
    · rw [hhand]
      exact hs.kept.of_eq rfl rfl rfl rfl rfl rfl
    · rcases hnew hi with hi | ⟨rfl, rfl⟩
      · exact hs.accounts i g hi hsends
      · refine List.count_eq_zero.mpr fun hmem => ?_
        obtain ⟨p, hp, hjob⟩ := List.mem_map.mp hmem
        have := hlt p (List.mem_append_left _ hp)
        omega
    · obtain ⟨g, hg, hm⟩ := hs.known p hp
      exact ⟨g, (List.getElem?_append_left (hlt p hp)).trans hg, hm⟩
  | shutdown =>
    refine ⟨hs.holder, hs.inside, fun i g item done left hi hw => ?_, hs.kept.of_eq rfl rfl rfl rfl rfl rfl,
      hs.accounts, hs.known⟩
    obtain ⟨h₁, h₂, h₃, h₄, h₅⟩ := hs.hand i g item done left hi hw
    exact ⟨h₁, h₂, h₃, h₄, h₅⟩
  | lock i g hget hpc hfree =>
    refine hs.passes hget .entered (some i) (fun j hj => ?_) (fun j hj => (Option.some.inj hj).symm)
      (by simp [JobPc.inside]) (by simp [Line.inHand, hfree]) rfl (by simp [hpc, JobPc.succeeded])
    rw [hfree] at hj
    cases hj
  | settled i g ok d c hget hpc hok hc =>
    have hin : g.pc.inside = true := by simp [hpc, JobPc.inside]
    obtain ⟨hkept, hjobs, hholder, hwhole, hcut⟩ := hs.reconnected hget hpc hc
    refine hs.goes hget hin rfl hjobs hholder (hkept.of_eq rfl rfl rfl rfl rfl rfl) (fun _ _ _ h => JobPc.noConfusion h)
      (fun j _ => by rw [hwhole]) (fun hsends => ?_) (fun p hp => .inl (by rwa [hwhole, hcut] at hp))
    rw [hwhole, hok hsends]
    exact hs.none_whole hget (by simp [hpc, JobPc.succeeded]) hsends
  | begun i g d c item chunks n hget hpc hc hmakes hown hconn htext hseq =>
    have hin : g.pc.inside = true := by simp [hpc, JobPc.inside]
    have hopen : c.connected = true := by
      rcases hc with ⟨hc, rfl⟩ | ⟨-, rfl⟩
      · exact hc
      · rfl
    obtain ⟨hkept, hjobs, hholder, hwhole, hcut⟩ :=
      hs.reconnected hget hpc (hc.elim (fun h => .inl h.2) fun h => .inr (.inl h.2))
    refine hs.goes hget hin rfl hjobs hholder (hkept.begun d hseq) (fun item' done' left' h => ?_)
      (fun j _ => by rw [hwhole]) (fun hsends => ?_) (fun p hp => .inl (by rwa [hwhole, hcut] at hp))
    · cases h
      exact ⟨hopen, hconn, hown, hmakes, htext⟩
    · rw [hwhole]
      exact hs.none_whole hget (by simp [hpc, JobPc.succeeded]) hsends
  | wrote i g item done chunk left failed hget hpc => exact hs.writes hget hpc failed
  | unlock i g ok hget hpc =>
    have hin : g.pc.inside = true := by simp [hpc, JobPc.inside]
    refine hs.passes hget (.returned ok) none (fun j hj => ?_) (fun j hj => by cases hj) (by simp [JobPc.inside]) ?_ rfl
      (by simp [hpc, JobPc.succeeded])
    · exact Option.some.inj (hj.symm.trans ((hs.inside i g hget).mp hin))
    · rw [hs.inHand_eq hget hin, hpc]
      rfl

theorem sound_newLine (username password : Bytes) : (newLine username password).Sound := by
  refine ⟨fun i hi => ?_, fun i g hi => ?_, fun i g item done left hi _ => ?_, ?_, fun i g hi _ => ?_, fun p hp => ?_⟩
  · cases hi
  · cases hi
  · cases hi
  · refine ⟨fun hc => Bool.noConfusion hc, fun k _ _ => ⟨[], none, 0, rfl, rfl, List.nil_prefix, rfl⟩, fun k _ => ?_⟩
    exact ⟨rfl, rfl, rfl⟩
  · cases hi
  · cases hp

section
variable {username password : Bytes} {as : List Move}

theorem sound_of_run (hrun : exec Line.step (newLine username password) as = some s) : s.Sound :=
  exec_invariant (C := fun _ _ => True) (fun _ _ _ hs _ hstep => hs.step (moved_of_step hstep)) as _ s
    (sound_newLine username password) (allSteps_of_forall fun _ _ => trivial) hrun

end

/-! ### Whole items -/

/-- The item of connection `k` behind the whole ones: the one in hand, or the one of which a `Write` failed. -/
def Line.Last (s : Line) (k : ℕ) (p : Put) : Prop :=
  k = s.conn ∧ s.connected = true ∧ s.inHand.map Prod.fst = some p ∨ s.cutOn k = [p]

theorem Line.Sound.rest (hs : s.Sound) (k : ℕ) : ∃ rest, s.log k = (s.wholeOn k).flatMap Put.text ++ rest ∧
    (rest = [] ∨ ∃ p, s.Last k p ∧ rest <+: p.text) := by
  by_cases hfresh : s.conn < k
  · obtain ⟨hlog, hwhole, -⟩ := hs.kept.fresh k hfresh
    exact ⟨[], by rw [hlog, hwhole]; rfl, .inl rfl⟩
  by_cases hc : k = s.conn ∧ s.connected = true
  · obtain ⟨rfl, hc⟩ := hc
    have hnow := hs.kept.now hc
    cases hh : s.inHand with
    | none => exact ⟨[], by simpa [hh] using hnow.bytes, .inl rfl⟩
    | some hand =>
      refine ⟨hand.2, by simpa [hh] using hnow.bytes, .inr ⟨hand.1, .inl ⟨rfl, hc, by simp [hh]⟩, ?_⟩⟩
      simp only [Line.inHand, Option.bind_eq_some_iff] at hh
      obtain ⟨i, -, g, hget, hhand⟩ := hh
      cases hpc : g.pc with
      | writing item done left =>
        rw [hpc] at hhand
        cases hhand
        exact ⟨left.flatten, (hs.hand i g item done left hget hpc).text⟩
      | _ =>
        rw [hpc] at hhand
        cases hhand
  · rw [not_and, Bool.not_eq_true] at hc
    obtain ⟨rest, last, n, hend⟩ := hs.kept.past k (Nat.le_of_not_lt hfresh) hc
    refine ⟨rest, hend.bytes, ?_⟩
    cases last with
    | none => exact .inl (List.prefix_nil.mp hend.part)
    | some p => exact .inr ⟨p, .inr hend.cut, hend.part⟩

/-- **No two items are mixed.** In every run, whichever goroutines come, get the mutex and have their writes
fail: what a connection has been written is whole items, one after the other, and behind them at most a part
of one more, which is in hand or of which a `Write` failed. A goroutine that sends has written its item once
if it has succeeded, and not if it has not; and every item is the request or the frame of its goroutine. -/
theorem outbound_whole (username password : Bytes) (as : List Move) (s : Line)
    (hrun : exec Line.step (newLine username password) as = some s) :
    (∀ k, ∃ rest, s.log k = (s.wholeOn k).flatMap Put.text ++ rest ∧
      (rest = [] ∨ ∃ p, s.Last k p ∧ rest <+: p.text)) ∧
    (∀ (i : ℕ) (g : Sender), s.jobs[i]? = some g → g.job.sends = true →
      (s.whole.map Put.job).count i = g.pc.succeeded.toNat) ∧
    ∀ p ∈ s.whole, ∃ g, s.jobs[p.job]? = some g ∧ g.job.Makes p := by
  have hs := sound_of_run hrun
  exact ⟨hs.rest, hs.accounts, fun p hp => hs.known p (List.mem_append_left _ hp)⟩

/-- The request that the goroutines below send. -/
def optionsJob : Job := .request (newRequest .options (ascii "rtsp://c/"))

/-- How a request without other headers is written. -/
def numbered (n : ℕ) : EnterInput := ⟨true, calm.cnonce, [(ascii "CSeq", itoa n)]⟩

/-- How it is written after the challenge. -/
def authorized (n : ℕ) : EnterInput :=
  ⟨true, calm.cnonce, [(ascii "Authorization", ascii "Basic dTpw"), (ascii "CSeq", itoa n)]⟩

/-- A request and a frame, a challenge, and two more requests; the second goroutine waits for the mutex, and the
last `Write` fails after three bytes. -/
def threeSends : List Move :=
  [.come .dial, .lock 0, .enter 0 (numbered 0), .unlock 0, .come optionsJob, .come (.binary 1 [7, 8]), .lock 1,
    .enter 1 (numbered 1), .write 1 none, .unlock 1, .lock 2, .come (.challenge (ascii "Basic realm=\"r\"")),
    .enter 2 (numbered 0), .write 2 none, .write 2 none, .unlock 2, .lock 3, .enter 3 (numbered 0), .unlock 3,
    .come optionsJob, .lock 4, .enter 4 (authorized 2), .write 4 none, .unlock 4, .come optionsJob, .lock 5,
    .enter 5 (authorized 3), .write 5 (some 3)]

/-- What they write. -/
def threeBytes : Bytes :=
  messageText (ascii "OPTIONS rtsp://c/ RTSP/1.0") (numbered 1).order [] ++ sendBinary 1 [7, 8] ++
    messageText (ascii "OPTIONS rtsp://c/ RTSP/1.0") (authorized 2).order [] ++ ascii "OPT"

theorem exec_threeSends : ∃ s, exec Line.step (newLine (ascii "u") (ascii "p")) threeSends = some s ∧
    (s.wholeOn 1).map Put.job = [1, 2, 4] ∧ (s.cutOn 1).map Put.job = [5] ∧
    (s.wholeOn 1).map Put.cseq = [some 1, none, some 2] ∧ s.log 1 = threeBytes ∧
    ∀ p ∈ s.puts, p.text.length ≤ 128 := by
  have hrun : (exec Line.step (newLine (ascii "u") (ascii "p")) threeSends).any (fun s =>
      decide ((s.wholeOn 1).map Put.job = [1, 2, 4] ∧ (s.cutOn 1).map Put.job = [5] ∧
        (s.wholeOn 1).map Put.cseq = [some 1, none, some 2] ∧ s.log 1 = threeBytes ∧
        ∀ p ∈ s.puts, p.text.length ≤ 128)) = true := by decide +kernel
  obtain ⟨s, hs, hall⟩ := (Option.any_eq_true _ _).mp hrun
  exact ⟨s, hs, of_decide_eq_true hall⟩

/-- Two requests and the frame are whole, and three bytes of another request follow. -/
theorem outbound_whole_three : ∃ s, exec Line.step (newLine (ascii "u") (ascii "p")) threeSends = some s ∧
    (s.wholeOn 1).map Put.job = [1, 2, 4] ∧ (s.cutOn 1).map Put.job = [5] ∧
    ∃ rest, s.log 1 = (s.wholeOn 1).flatMap Put.text ++ rest := by
  obtain ⟨s, hrun, hwhole, hcut, -⟩ := exec_threeSends
  obtain ⟨rest, hlog, -⟩ := (outbound_whole _ _ threeSends s hrun).1 1
  exact ⟨s, hrun, hwhole, hcut, rest, hlog⟩

/-! ### Numbers -/

/-- The `CSeq` is among the headers of a request that is about to be written. -/
theorem cseq_mem_prepare (r : Request) (cseq : ℕ) (auth : Option Bytes) :
    (ascii "CSeq", itoa cseq) ∈ r.prepare cseq auth := by
  have hne : ascii "CSeq" ≠ ascii "Authorization" := by decide
  apply mem_of_find
  cases auth with
  | none => simp [Request.prepare, Headers.find_set]
  | some value => simp [Request.prepare, Headers.find_set, hne]

/-- What comes first in the numbers from 1 on are the numbers from 1 on. -/
theorem eq_range'_of_append {xs ys : List ℕ} {n : ℕ} (h : xs ++ ys = List.range' 1 n) :
    xs = List.range' 1 xs.length := by
  have hlen := congrArg List.length h
  simp only [List.length_append, List.length_range'] at hlen
  rw [← hlen, ← List.range'_append_1] at h
  exact List.append_inj_left h List.length_range'.symm

/-- **The requests on a connection are numbered.** In every run the `CSeq` numbers of the requests that a
connection has been written are 1, 2, 3 and so on, in the order of the bytes and without a gap, whatever
frames are between them and whatever was sent on other connections; and a request carries its number. -/
theorem cseq_consecutive (username password : Bytes) (as : List Move) (s : Line)
    (hrun : exec Line.step (newLine username password) as = some s) (k : ℕ) :
    (s.wholeOn k).filterMap Put.cseq = List.range' 1 ((s.wholeOn k).filterMap Put.cseq).length ∧
    ∀ p ∈ s.wholeOn k, ∀ n, p.cseq = some n →
      ∃ first headers, p.text = messageText first headers [] ∧ (ascii "CSeq", itoa n) ∈ headers := by
  have hs := sound_of_run hrun
  constructor
  · by_cases hfresh : s.conn < k
    · rw [(hs.kept.fresh k hfresh).2.1]
      rfl
    by_cases hc : k = s.conn ∧ s.connected = true
    · obtain ⟨rfl, hc⟩ := hc
      have hseq := (hs.kept.now hc).seq
      rw [List.filterMap_append] at hseq
      exact eq_range'_of_append hseq
    · rw [not_and, Bool.not_eq_true] at hc
      obtain ⟨rest, last, n, hend⟩ := hs.kept.past k (Nat.le_of_not_lt hfresh) hc
      have hseq := hend.seq
      rw [List.filterMap_append] at hseq
      exact eq_range'_of_append hseq
  · intro p hp n hn
    obtain ⟨g, -, hmakes⟩ := hs.known p (List.mem_append_left _ (List.mem_filter.mp hp).1)
    cases hjob : g.job with
    | request r =>
      rw [hjob] at hmakes
      obtain ⟨cseq, auth, order, hperm, hcseq, htext⟩ := hmakes
      obtain rfl : cseq = n := Option.some.inj (hcseq.symm.trans hn)
      exact ⟨_, order, htext, hperm.mem_iff.mpr (cseq_mem_prepare r cseq auth)⟩
    | binary channel data =>
      rw [hjob] at hmakes
      exact absurd (hmakes.1.symm.trans hn) (by simp)
    | _ =>
      rw [hjob] at hmakes
      exact hmakes.elim

/-- The two whole requests have the numbers 1 and 2, with a frame between them. -/
theorem cseq_consecutive_three : ∃ s, exec Line.step (newLine (ascii "u") (ascii "p")) threeSends = some s ∧
    (s.wholeOn 1).map Put.cseq = [some 1, none, some 2] ∧
    (s.wholeOn 1).filterMap Put.cseq = List.range' 1 ((s.wholeOn 1).filterMap Put.cseq).length := by
  obtain ⟨s, hrun, -, -, hcseq, -⟩ := exec_threeSends
  exact ⟨s, hrun, hcseq, (cseq_consecutive _ _ threeSends s hrun 1).1⟩

/-! ### What the camera reads -/

/-- What a reader that frames as `readLoop` does makes of an item. -/
def Put.item (p : Put) : Item :=
  match p.cseq with
  | some _ => .message p.text
  | none => .packet (p.text.getD 1 0).toNat p.text

/-- Each item is what its goroutine writes, the one in hand too. -/
theorem Line.Sound.makes (hs : s.Sound) {p : Put} (hp : p ∈ s.puts) : ∃ g ∈ s.jobs, g.job.Makes p := by
  rcases List.mem_append.mp hp with hp | hp
  · obtain ⟨g, hget, hm⟩ := hs.known p hp
    exact ⟨g, List.mem_of_getElem? hget, hm⟩
  · obtain ⟨hand, hh, rfl⟩ := List.mem_map.mp hp
    rw [Option.mem_toList] at hh
    simp only [Line.inHand, Option.bind_eq_some_iff] at hh
    obtain ⟨i, -, g, hget, hhand⟩ := hh
    refine ⟨g, List.mem_of_getElem? hget, ?_⟩
    cases hpc : g.pc with
    | writing item done left =>
      rw [hpc] at hhand
      cases hhand
      exact (hs.hand i g item done left hget hpc).makes
    | _ =>
      rw [hpc] at hhand
      cases hhand

/-! ### Inert texts -/

theorem inherited_inert : Inherited Inert where
  part hst ht := ⟨inherited_oneLine.part hst ht.1, names_of_isInfix hst ht.2⟩
  join {s t c} hc hs ht := by
    refine ⟨inherited_oneLine.join hc hs.1 ht.1, ?_⟩
    have hmark : ∀ p ∈ contentLengthNeedle, lower p ≠ lower c := by
      simp only [isMark, Bool.or_eq_true, beq_iff_eq] at hc
      rcases hc with ((rfl | rfl) | rfl) | rfl <;> decide
    rw [names_across hmark, hs.2, ht.2]
    rfl
  word h := ⟨inherited_oneLine.word h, names_of_no_colon fun c hc => (h c hc).2.2⟩

/-- A header of one line that names no length. -/
structure InertHeader (kv : Bytes × Bytes) : Prop where
  /-- It is of one line. -/
  sendable : Sendable kv
  /-- It names no length. -/
  unnamed : Unnamed kv

/-- A request of inert texts. -/
structure Request.Tame (r : Request) : Prop where
  method : Inert r.method
  /-- It is not taken for a frame. -/
  start : r.method.head? ≠ some 36
  url : Inert r.url
  headers : ∀ kv ∈ r.headers, InertHeader kv

theorem inertHeader {key value : Bytes} (hkey : 58 ∉ key ∧ OneLine key ∧ names (key ++ [58]) = false)
    (hvalue : Inert value) : InertHeader (key, value) :=
  ⟨⟨hkey.1, hkey.2.1, hvalue.1⟩, hkey.2.2, hvalue.2⟩

/-- What `NewRequest` makes for an inert URL. -/
theorem tame_newRequest {kind : RequestKind} {url : Bytes} (hurl : Inert url)
    (hkind : ∀ kv ∈ (newRequest kind url).headers, Inert kv.2) : (newRequest kind url).Tame := by
  have hmethods : ∀ m ∈ [ascii "OPTIONS", ascii "DESCRIBE", ascii "SETUP", ascii "PLAY", ascii "GET_PARAMETER",
      ascii "TEARDOWN"], Inert m ∧ m.head? ≠ some 36 := by decide
  have hkeys : ∀ key ∈ [ascii "Transport", ascii "Session", ascii "Range"],
      58 ∉ key ∧ OneLine key ∧ names (key ++ [58]) = false := by decide
  obtain ⟨hmethod, hstart⟩ := hmethods (newRequest kind url).method (by cases kind <;> simp [newRequest])
  refine ⟨hmethod, hstart, by cases kind <;> exact hurl, fun kv hkv => ?_⟩
  exact inertHeader (hkeys kv.1 (by cases kind <;> simp_all [newRequest]; grind)) (hkind kv hkv)

/-- The headers that a request gets when it is written. -/
theorem Request.Tame.prepare {r : Request} (h : r.Tame) (cseq : ℕ) {auth : Option Bytes}
    (hauth : ∀ value ∈ auth, Inert value) : ∀ kv ∈ r.prepare cseq auth, InertHeader kv := by
  have hset {headers : Headers} (hheaders : ∀ kv ∈ headers, InertHeader kv) {key value : Bytes}
      (hnew : InertHeader (key, value)) : ∀ kv ∈ headers.set key value, InertHeader kv := fun kv hkv =>
    (mem_of_mem_set hkv).elim (hheaders kv) fun heq => heq ▸ hnew
  have hvalue : Inert (itoa cseq) := inherited_inert.word itoa_ne
  have hcseq := hset h.headers (inertHeader (by decide : 58 ∉ ascii "CSeq" ∧ _) hvalue)
  cases auth with
  | none => exact hcseq
  | some value => exact hset hcseq (inertHeader (by decide) (hauth value rfl))

/-- **A request of inert texts is framed as it was written.** -/
theorem Request.Tame.framed {r : Request} (h : r.Tame) {headers : Headers} (hheaders : ∀ kv ∈ headers, InertHeader kv) :
    ∃ m : RtspMessage, m.encode = Head.text ⟨r.method, r.url, headers⟩ := by
  have hversion : ascii " RTSP/1.0" = 32 :: ascii "RTSP/1.0" := by decide
  have hline : Inert (Head.requestLine ⟨r.method, r.url, headers⟩) := by
    rw [Head.requestLine, hversion]
    exact inherited_inert.join rfl h.method (inherited_inert.join rfl h.url (by decide))
  refine exists_rtspMessage hline.1 (by simp [Head.requestLine]) ?_ hline.2 (fun kv hkv => (hheaders kv hkv).sendable)
    (.inl ⟨rfl, fun kv hkv => (hheaders kv hkv).unnamed⟩)
  have hstart := h.start
  rcases hmethod : r.method with _ | ⟨c, m⟩
  · simp [Head.requestLine]
  · simpa [Head.requestLine, hmethod] using hstart

/-- A goroutine that brings inert texts, or a frame whose data has a length of 16 bits. -/
def Job.Tame : Job → Prop
  | .request r => r.Tame
  | .binary _ data => data.length < 2 ^ 16
  | .challenge paramsStr => Inert paramsStr
  | _ => True

/-- What comes in is inert, and `randomCnonce` returns random digits. -/
def Move.Tame : Move → Prop
  | .come job => job.Tame
  | .enter _ o => IsCnonce o.cnonce
  | _ => True

/-- A request is framed as a message. -/
def Put.Framed (p : Put) : Prop := p.cseq.isSome = true → ∃ m : RtspMessage, m.encode = p.text

/-- What a goroutine brings is inert, and what it has in hand can be framed. -/
structure Sender.Tame (g : Sender) : Prop where
  /-- What it brings. -/
  job : g.job.Tame
  hand : ∀ item done, g.pc.hand = some (item, done) → item.Framed

/-- What tame steps keep. -/
structure Line.Tame (s : Line) : Prop where
  /-- What the digest has from the camera. -/
  digest : s.digest.Plain Inert
  /-- The user name, where it is used. -/
  user : s.digest.hasCredentials = true → Inert s.digest.username
  /-- The goroutines. -/
  jobs : ∀ g ∈ s.jobs, g.Tame
  items : ∀ p ∈ s.whole ++ s.cut, p.Framed

namespace Line.Tame

theorem goes (h : s.Tame) (i : ℕ) {pc : JobPc} (hpc : ∀ item done, pc.hand = some (item, done) → item.Framed) :
    (s.goes i pc).Tame :=
  ⟨h.digest, h.user, forall_mem_modify h.jobs fun _ hget => ⟨(h.jobs _ (List.mem_of_getElem? hget)).job, hpc⟩, h.items⟩

theorem challenged (h : s.Tame) {paramsStr : Bytes} (hp : Inert paramsStr) :
    ({ s with digest := (s.digest.handleAuthenticationFailure paramsStr).1 } : Line).Tame := by
  obtain ⟨huser, hcred⟩ := handleAuthenticationFailure_user s.digest paramsStr
  refine ⟨h.digest.handleAuthenticationFailure inherited_inert hp, ?_, h.jobs, h.items⟩
  dsimp only
  rw [huser, hcred]
  exact h.user

theorem disconnected (h : s.Tame) : s.disconnected.Tame := by
  unfold Line.disconnected
  split_ifs
  · exact ⟨h.digest.clearNonce inherited_inert, h.user, h.jobs, h.items⟩
  · exact h

theorem dialed (h : s.Tame) : s.dialed.Tame := ⟨h.digest, h.user, h.jobs, h.items⟩

/-- A request gets its number and its `Authorization`. -/
theorem begins (h : s.Tame) {i : ℕ} {r : Request} {o : EnterInput} (hr : r.Tame) (ho : IsCnonce o.cnonce)
    (hs : s.begins i r o = some s') : s'.Tame := by
  obtain ⟨random, -, hrandom⟩ := ho
  have hcnonce : Inert o.cnonce := hrandom ▸ inherited_inert.word (hexString_ne random)
  have hauth := h.digest.createAuthenticatorStr inherited_inert h.user r.method hr.url hcnonce
  obtain ⟨nc, hnc⟩ := createAuthenticatorStr_digest s.digest r.method r.url o.cnonce
  unfold Line.begins at hs
  dsimp only at hs
  split_ifs at hs with horder
  cases hs
  have hnumbered : ({ s with currentCSeq := s.currentCSeq + 1, digest := (s.digest.createAuthenticatorStr r.method r.url
      o.cnonce).1 } : Line).Tame := by
    refine ⟨?_, ?_, h.jobs, h.items⟩
    · rw [hnc]
      exact { h.digest with }
    · rw [hnc]
      exact h.user
  refine hnumbered.goes i fun item done hhand _ => ?_
  cases hhand
  have hprepared := hr.prepare (s.currentCSeq + 1) hauth
  exact hr.framed fun kv hkv => hprepared kv ((List.isPerm_iff.mp horder).mem_iff.mp hkv)

theorem enters (h : s.Tame) {i : ℕ} {job : Job} {o : EnterInput} (hjob : job.Tame) (ho : IsCnonce o.cnonce)
    (hs : s.enters i o job = some s') : s'.Tame := by
  cases job with
  | dial =>
    cases hs
    split_ifs
    · exact h.goes i (by simp [JobPc.hand])
    · exact h.dialed.goes i (by simp [JobPc.hand])
  | disconnect =>
    cases hs
    exact h.disconnected.goes i (by simp [JobPc.hand])
  | request r =>
    simp only [Line.enters] at hs
    split_ifs at hs
    · exact h.begins hjob ho hs
    · cases hs
      exact h.goes i (by simp [JobPc.hand])
    · exact h.dialed.begins hjob ho hs
  | binary channel data =>
    simp only [Line.enters] at hs
    split_ifs at hs <;> cases hs
    · refine h.goes i fun item done hhand hcseq => ?_
      cases hhand
      cases hcseq
    · exact h.goes i (by simp [JobPc.hand])
  | challenge paramsStr =>
    cases hs
    exact (h.challenged hjob).goes i (by simp [JobPc.hand])
  | forget =>
    cases hs
    have hcleared : ({ s with digest := s.digest.clearNonce } : Line).Tame :=
      ⟨h.digest.clearNonce inherited_inert, h.user, h.jobs, h.items⟩
    exact hcleared.goes i (by simp [JobPc.hand])

theorem concat (h : s.Tame) {item : Put} (hitem : item.Framed) (wrote : List (ℕ × Bytes)) :
    ({ s with wrote := wrote, whole := s.whole ++ [item] } : Line).Tame ∧
    ({ s with wrote := wrote, cut := s.cut ++ [item] } : Line).Tame := by
  constructor <;> refine ⟨h.digest, h.user, h.jobs, fun p hp => ?_⟩ <;>
    simp only [List.mem_append, List.mem_singleton] at hp
  · rcases hp with (hp | rfl) | hp
    · exact h.items p (List.mem_append_left _ hp)
    · exact hitem
    · exact h.items p (List.mem_append_right _ hp)
  · rcases hp with hp | hp | rfl
    · exact h.items p (List.mem_append_left _ hp)
    · exact h.items p (List.mem_append_right _ hp)
    · exact hitem

theorem writes (h : s.Tame) (i : ℕ) {item : Put} (hitem : item.Framed) (done chunk : Bytes) (left : List Bytes)
    (failed : Option ℕ) : (s.writes i item done chunk left failed).Tame := by
  cases failed with
  | none =>
    cases left with
    | nil => exact (h.concat hitem _).1.goes i (by simp [JobPc.hand])
    | cons next left =>
      have hchunk : ({ s with wrote := s.wrote ++ [(s.conn, chunk)] } : Line).Tame :=
        ⟨h.digest, h.user, h.jobs, h.items⟩
      refine hchunk.goes i fun item' done' hhand => ?_
      cases hhand
      exact hitem
  | some n => exact (h.concat hitem _).2.disconnected.goes i (by simp [JobPc.hand])

theorem step (h : s.Tame) {a : Move} (ha : a.Tame) (hs : s.step a = some s') : s'.Tame := by
  cases a with
  | come job =>
    cases hs
    refine ⟨h.digest, h.user, fun g hg => ?_, h.items⟩
    rcases List.mem_append.mp hg with hg | hg
    · exact h.jobs g hg
    · rw [List.mem_singleton.mp hg]
      exact ⟨ha, by simp [JobPc.hand]⟩
  | shutdown =>
    cases hs
    exact ⟨h.digest, h.user, h.jobs, h.items⟩
  | lock i =>
    simp only [Line.step] at hs
    split at hs
    · split_ifs at hs
      cases hs
      have hgoes : (s.goes i .entered).Tame := h.goes i (by simp [JobPc.hand])
      exact ⟨hgoes.digest, hgoes.user, hgoes.jobs, hgoes.items⟩
    · cases hs
  | enter i o =>
    simp only [Line.step] at hs
    split at hs
    · rename_i job hget
      exact h.enters (h.jobs _ (List.mem_of_getElem? hget)).job ha hs
    · cases hs
  | write i failed =>
    simp only [Line.step] at hs
    split at hs
    · rename_i job item done chunk left hget
      cases hs
      exact h.writes i ((h.jobs _ (List.mem_of_getElem? hget)).hand item done rfl) done chunk left failed
    · cases hs
  | unlock i =>
    simp only [Line.step] at hs
    split at hs
    · rename_i job ok hget
      cases hs
      have hgoes : (s.goes i (.returned ok)).Tame := h.goes i (by simp [JobPc.hand])
      exact ⟨hgoes.digest, hgoes.user, hgoes.jobs, hgoes.items⟩
    · cases hs

theorem puts (h : s.Tame) {p : Put} (hp : p ∈ s.puts) : p.Framed := by
  rcases List.mem_append.mp hp with hp | hp
  · exact h.items p hp
  · obtain ⟨⟨item, done⟩, hh, rfl⟩ := List.mem_map.mp hp
    rw [Option.mem_toList] at hh
    simp only [Line.inHand, Option.bind_eq_some_iff] at hh
    obtain ⟨i, -, g, hget, hhand⟩ := hh
    exact (h.jobs g (List.mem_of_getElem? hget)).hand item done hhand

end Line.Tame

theorem tame_newLine {username password : Bytes} (h : password = [] ∨ Inert username) :
    (newLine username password).Tame := by
  have hnil : Inert [] := inherited_inert.nil
  have hdigest : (newRemote username password).digest.Plain Inert := by
    unfold newRemote
    dsimp only
    split_ifs <;> exact ⟨hnil, hnil, hnil, hnil, hnil⟩
  have huser : (newRemote username password).digest.hasCredentials = true →
      Inert (newRemote username password).digest.username := by
    unfold newRemote
    dsimp only
    split_ifs
    · exact fun _ => hnil
    · intro hcred
      refine h.resolve_left ?_
      rintro rfl
      simp [Digest.hasCredentials] at hcred
  exact ⟨hdigest, huser, by simp [newLine], by simp [newLine]⟩

theorem tame_of_run {username password : Bytes} {as : List Move} (huser : password = [] ∨ Inert username)
    (has : ∀ a ∈ as, a.Tame) (hrun : exec Line.step (newLine username password) as = some s) : s.Tame :=
  exec_invariant (C := fun _ a => a.Tame) (fun _ _ _ hs ha hstep => hs.step ha hstep) as _ s (tame_newLine huser)
    (allSteps_of_forall fun a ha => has a ha) hrun

/-! ### What is found in the bytes -/

/-- A request that is framed as a message, or a frame whose data has a length of 16 bits. -/
theorem processPass_put {g : Sender} {p : Put} (hmakes : g.job.Makes p) (hint : p.text.length < 2 ^ 63)
    (hrequest : p.Framed) (hg : g.job.Tame) : processPass p.text = .item p.item p.text.length := by
  cases hjob : g.job with
  | request r =>
    rw [hjob] at hmakes
    obtain ⟨cseq, auth, order, -, hcseq, -⟩ := hmakes
    obtain ⟨m, hm⟩ := hrequest (by simp [hcseq])
    rw [← hm] at hint ⊢
    simp only [Put.item, hcseq, ← hm]
    exact processPass_message m hint
  | binary channel data =>
    rw [hjob] at hmakes hg
    obtain ⟨hcseq, htext⟩ := hmakes
    have hframe : p.text = (⟨_, data, hg⟩ : Frame).encode := htext
    rw [Put.item, hcseq, hframe]
    exact processPass_frame _
  | _ =>
    rw [hjob] at hmakes
    exact hmakes.elim

theorem mem_puts_of_mem_wholeOn {k : ℕ} {p : Put} (h : p ∈ s.wholeOn k) : p ∈ s.puts :=
  List.mem_append_left _ (List.mem_append_left _ (List.mem_filter.mp h).1)

theorem Line.Last.mem_puts {k : ℕ} {p : Put} (h : s.Last k p) : p ∈ s.puts := by
  rcases h with ⟨-, -, hhand⟩ | hcut
  · obtain ⟨hand, hh, rfl⟩ := Option.map_eq_some_iff.mp hhand
    refine List.mem_append_right _ (List.mem_map.mpr ⟨hand, ?_, rfl⟩)
    rw [hh]
    exact List.mem_singleton_self _
  · have hp : p ∈ s.cutOn k := hcut ▸ List.mem_singleton_self p
    exact List.mem_append_left _ (List.mem_append_right _ (List.mem_filter.mp hp).1)

/-- **What the camera reads.** If the user name (where there is a password), the URLs, headers and challenges
have no line end and do not contain `content-length:`, and the data of each frame has a length of 16 bits: at
every point of every run, a reader that frames as `readLoop` does, into whose buffer each item fits, and that
has been given all bytes of a connection, cut in any way, has found the whole items in order, each once. It
waits with a part of the last item, if there is one, or has found that one too, if all of its bytes are there. -/
theorem outbound_read (username password : Bytes) (huser : password = [] ∨ Inert username) (as : List Move)
    (has : ∀ a ∈ as, a.Tame) (s : Line) (hrun : exec Line.step (newLine username password) as = some s)
    (B : ℕ) (hB : 0 < B) (hint : B < 2 ^ 63) (hfit : ∀ p ∈ s.puts, p.text.length ≤ B) (k : ℕ)
    (is : List (Input UInt8)) (hr : ∀ i ∈ is, i.IsRead) (hs : received is = s.log k) (hf : Fits B is) :
    ∃ seen left, (seen = s.wholeOn k ∨ ∃ p, s.Last k p ∧ seen = s.wholeOn k ++ [p]) ∧
      s.log k = seen.flatMap Put.text ++ left ∧
      readLoop B is = some (seen.map fun p => .item p.item, .waiting left) := by
  have hsound := sound_of_run hrun
  have htame := tame_of_run huser has hrun
  have hpass : ∀ p ∈ s.puts, processPass p.text = .item p.item p.text.length ∧ p.text.length ≤ B := fun p hp => by
    obtain ⟨g, hg, hmakes⟩ := hsound.makes hp
    exact ⟨processPass_put hmakes (lt_of_le_of_lt (hfit p hp) hint) (htame.puts hp) (htame.jobs g hg).job, hfit p hp⟩
  have hwhole : ∀ p ∈ s.wholeOn k, processPass p.text = .item p.item p.text.length ∧ p.text.length ≤ B :=
    fun p hp => hpass p (mem_puts_of_mem_wholeOn hp)
  obtain ⟨rest, hlog, rfl | ⟨p, hp, hpart⟩⟩ := hsound.rest k
  · exact ⟨s.wholeOn k, [], .inl rfl, hlog, Framer.read_items hB hr hf hwhole .nil (hs.trans hlog)⟩
  · obtain ⟨hfound, hle⟩ := hpass p hp.mem_puts
    by_cases hall : rest = p.text
    · have hlog' : s.log k = (s.wholeOn k ++ [p]).flatMap Put.text ++ [] := by
        rw [hlog, hall]
        simp
      refine ⟨s.wholeOn k ++ [p], [], .inr ⟨p, hp, rfl⟩, hlog', Framer.read_items hB hr hf ?_ .nil (hs.trans hlog')⟩
      intro q hq
      rcases List.mem_append.mp hq with hq | hq
      · exact hwhole q hq
      · exact List.mem_singleton.mp hq ▸ ⟨hfound, hle⟩
    · refine ⟨s.wholeOn k, rest, .inl rfl, hlog, Framer.read_items hB hr hf hwhole (.wait ?_ ?_) (hs.trans hlog)⟩
      · exact Framer.pass_part hfound hpart hall
      · have hlen := hpart.length_le
        have hne : rest.length ≠ p.text.length := fun heq => hall (hpart.eq_of_length heq)
        omega

theorem tame_threeSends : ∀ a ∈ threeSends, a.Tame := by
  have hoptions : optionsJob.Tame := tame_newRequest (by decide) (by simp [newRequest])
  have hframe : (Job.binary 1 [7, 8]).Tame := show 2 < 2 ^ 16 by decide
  have hchallenge : (Job.challenge (ascii "Basic realm=\"r\"")).Tame := show Inert _ by decide
  have hdial : Job.dial.Tame := trivial
  simp [threeSends, Move.Tame, hdial, hoptions, hframe, hchallenge, numbered, authorized, calm_cnonce]

/-- Their bytes, read in two pieces. -/
theorem outbound_read_three : ∃ s, exec Line.step (newLine (ascii "u") (ascii "p")) threeSends = some s ∧
    ∃ (seen : List Put) (left : Bytes), s.log 1 = seen.flatMap Put.text ++ left ∧
      readLoop 128 [.data (threeBytes.take 20), .data (threeBytes.drop 20)] =
        some (seen.map fun p => .item p.item, .waiting left) := by
  obtain ⟨s, hrun, -, -, -, hlog, hfit⟩ := exec_threeSends
  obtain ⟨seen, left, -, hbytes, hread⟩ := outbound_read (ascii "u") (ascii "p") (.inr (by decide)) threeSends
    tame_threeSends s hrun 128 (by decide) (by decide) hfit 1
    [.data (threeBytes.take 20), .data (threeBytes.drop 20)] (by decide) (Eq.trans (by decide) hlog.symm) (by decide)
  exact ⟨s, hrun, seen, left, hbytes, hread⟩

end RtspProxy.Upstream
