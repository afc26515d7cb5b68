import RtspProxy.Upstream.Transports

/-!
# The period of the keep-alive

`Session.StartUpstream` starts a ticker whose period is five seconds less than the timeout that the camera
names in the `Session` header of its SETUP responses. `strconv.Atoi` reads the timeout, its error is
ignored, and the arithmetic is that of 64-bit integers.

A difference below zero is replaced by one second, but a difference of zero is not, and the period in
nanoseconds may wrap around. `time.NewTicker` panics on a period that is not positive
(`period_not_positive`).

## What is proved

* `timeout_recordAll` — the timeout of a session, after any number of SETUP responses.
* `wrap64_pos_iff` — when a 64-bit result is positive.
* `period_pos_iff` — **the period is positive exactly for timeouts below five, except the five least
  ones, and for timeouts above five whose period, counted in units of 512 nanoseconds, is in the first
  half of its range.**
-/

namespace RtspProxy.Upstream

open Theory Wire

/-! ### The period -/

/-- `time.Second`, in nanoseconds. -/
def second : ℤ := 10 ^ 9

/-- The seconds between two requests: `session.Timeout - 5`, or `1` if that is below zero. -/
def keepAliveSeconds (timeout : ℤ) : ℤ :=
  let timeout := wrap64 (timeout - 5)
  if timeout < 0 then 1 else timeout

/-- What `StartUpstream` passes to `time.NewTicker`. -/
def Session.keepAlivePeriod (session : Session) : ℤ := wrap64 (keepAliveSeconds session.timeout * second)

/-! ### The timeout of a session -/

/-- The text of the timeout that a response names for a session. -/
def Recorded.timeoutText (id : Bytes) (r : Recorded) : Option Bytes :=
  if sessionID r.response = id then
    paramMap (((headerGet r.response.headers (ascii "Session")).splitOn 59).drop 1) (ascii "timeout")
  else none

/-- What `strconv.Atoi` makes of the timeout that was last named for a session; 60 if none was. -/
def advertised (rs : List Recorded) (id : Bytes) : ℤ :=
  ((rs.reverse.findSome? (Recorded.timeoutText id)).map fun text => (atoi text).1).getD 60

theorem advertised_concat (rs : List Recorded) (r : Recorded) (id : Bytes) :
    advertised (rs ++ [r]) id = ((r.timeoutText id).map fun text => (atoi text).1).getD (advertised rs id) := by
  rw [advertised, List.reverse_concat, List.findSome?_cons]
  cases r.timeoutText id <;> rfl

theorem timeout_lookupSession (ss : Sessions) (id : Bytes) :
    (ss.lookupSession id).1.timeout = ((ss.lookup id).map Session.timeout).getD 60 := by
  unfold Sessions.lookupSession
  cases ss.lookup id <;> rfl

/-- **The timeout of a session** is the one that was last named for it. -/
theorem timeout_recordAll (rs : List Recorded) (id : Bytes) :
    ((recordAll rs).lookupSession id).1.timeout = advertised rs id := by
  induction rs using List.reverseRecOn with
  | nil => rfl
  | append_singleton rs r ih =>
    rw [recordAll_concat, advertised_concat, timeout_lookupSession, lookup_record]
    by_cases hid : id = r.key.session
    · subst hid
      have htext : r.timeoutText r.key.session = paramMap (((headerGet r.response.headers (ascii "Session")).splitOn
          59).drop 1) (ascii "timeout") := if_pos rfl
      rw [if_pos rfl, htext, ← ih]
      unfold sessionTimeout
      cases paramMap (((headerGet r.response.headers (ascii "Session")).splitOn 59).drop 1) (ascii "timeout") <;> rfl
    · have htext : r.timeoutText id = none := if_neg fun h => hid h.symm
      rw [if_neg hid, htext, ← timeout_lookupSession, ih]
      rfl

theorem advertised_bounds (rs : List Recorded) (id : Bytes) :
    -2 ^ 63 ≤ advertised rs id ∧ advertised rs id < 2 ^ 63 := by
  unfold advertised
  cases rs.reverse.findSome? (Recorded.timeoutText id) with
  | none => decide
  | some text => exact atoi_bounds text

/-! ### When the period is positive -/

/-- The timeouts with a positive period. -/
def Usable (timeout : ℤ) : Prop :=
  (-2 ^ 63 + 4 < timeout ∧ timeout < 5) ∨
    5 < timeout ∧ 0 < (timeout - 5) * 5 ^ 9 % 2 ^ 55 ∧ (timeout - 5) * 5 ^ 9 % 2 ^ 55 < 2 ^ 54

instance (timeout : ℤ) : Decidable (Usable timeout) := inferInstanceAs (Decidable (_ ∨ _))

/-- A 64-bit result is positive if its residue is in the first half. -/
theorem wrap64_pos_iff (x : ℤ) : 0 < wrap64 x ↔ 0 < x % 2 ^ 64 ∧ x % 2 ^ 64 < 2 ^ 63 := by
  rw [wrap64, Int.bmod_def]
  split_ifs <;> omega

/-- A second is a multiple of 512 nanoseconds, which leaves 55 bits. -/
theorem seconds_pos_iff (n : ℤ) :
    0 < wrap64 (n * second) ↔ 0 < n * 5 ^ 9 % 2 ^ 55 ∧ n * 5 ^ 9 % 2 ^ 55 < 2 ^ 54 := by
  have hres : n * second % 2 ^ 64 = 2 ^ 9 * (n * 5 ^ 9 % 2 ^ 55) := by
    unfold second
    omega
  rw [wrap64_pos_iff, hres]
  omega

theorem keepAliveSeconds_pos_iff {timeout : ℤ} (h₀ : -2 ^ 63 ≤ timeout) (h₁ : timeout < 2 ^ 63) :
    0 < wrap64 (keepAliveSeconds timeout * second) ↔ Usable timeout := by
  rw [seconds_pos_iff]
  by_cases hleast : timeout < -2 ^ 63 + 5
  · -- the difference wraps around to the greatest numbers, and the period to small negative ones
    have hfive : timeout = -2 ^ 63 ∨ timeout = -2 ^ 63 + 1 ∨ timeout = -2 ^ 63 + 2 ∨ timeout = -2 ^ 63 + 3 ∨
        timeout = -2 ^ 63 + 4 := by omega
    rcases hfive with rfl | rfl | rfl | rfl | rfl <;> decide
  · have hdiff : wrap64 (timeout - 5) = timeout - 5 := wrap64_of_lt (by omega) (by omega)
    unfold Usable
    by_cases hneg : timeout - 5 < 0
    · have hone : keepAliveSeconds timeout = 1 := by
        rw [keepAliveSeconds, hdiff]
        exact if_pos hneg
      rw [hone]
      refine iff_of_true (by decide) (.inl ⟨?_, ?_⟩) <;> omega
    · have hsame : keepAliveSeconds timeout = timeout - 5 := by
        rw [keepAliveSeconds, hdiff]
        exact if_neg hneg
      rw [hsame]
      omega

/-- **When the period of a session's keep-alive is positive**, after any number of SETUP responses. -/
theorem period_pos_iff (rs : List Recorded) (id : Bytes) :
    0 < ((recordAll rs).lookupSession id).1.keepAlivePeriod ↔ Usable (advertised rs id) := by
  obtain ⟨h₀, h₁⟩ := advertised_bounds rs id
  rw [Session.keepAlivePeriod, timeout_recordAll]
  exact keepAliveSeconds_pos_iff h₀ h₁

/-- A SETUP response that names a timeout. -/
def namesTimeout (text : String) : Recorded :=
  ⟨1, ascii "/live/track1", ⟨ascii "OK", ascii "RTSP/1.0", 200,
    [(ascii "Session", ascii "7;timeout=" ++ ascii text), (ascii "Transport", ascii "RTP/AVP/TCP;unicast")], []⟩⟩

/-- **The period is zero, or negative**: for a timeout of five seconds, for one that makes the period wrap around,
and for numbers that are out of range. -/
theorem period_not_positive :
    (["5", "9223372042", "99999999999999999999", "-99999999999999999999"].map fun text =>
      ((recordAll [namesTimeout text]).lookupSession (ascii "7")).1.keepAlivePeriod) =
      [0, -9223372036709551616, -6000000000, -5000000000] := by
  decide +kernel

end RtspProxy.Upstream
