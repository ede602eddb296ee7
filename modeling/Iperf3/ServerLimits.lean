import Iperf3.IperfTime
import Iperf3.Isolation
import Mathlib.Tactic

/-!
# The duration limit and the requested-rate limit of the server

Both limits are checked when the parameter message has been read.  The
duration check adds two `int` members, the rate check multiplies in 64 bits,
and neither looks at signs.  The two main results say exactly for which
messages the checks enforce the limit they stand for, on a server with any
accepted command line and any tests behind it.
-/

namespace Iperf3

open MachineInt

/-! ## A server between two tests -/

theorem afterTests_serverStart
    {b : Build} {a : ServerArgs} (es : List ServedTest) :
    ∃ l, afterTests b (serverStart b a) es = (serverStart b a).withLeftover l :=
  ⟨_, afterTests_withLeftover (iperfResetTest_serverStart b a) es
    (serverStart b a).leftover⟩

theorem serverStart_fields (b : Build) (a : ServerArgs) :
    (serverStart b a).duration = 10 ∧ (serverStart b a).omitTime = 0 ∧
      (serverStart b a).numStreams = 1 ∧
      (serverStart b a).maxServerDuration = a.maxServerDuration ∧
      (serverStart b a).settings.bitrateLimit = a.bitrateLimit := by
  unfold serverStart applyStatsPerInterval
  split_ifs <;> exact ⟨rfl, rfl, rfl, rfl, rfl⟩

/-- The refusal of a UDP test by a server that transfers a file. -/
def refusesFile (j : Json) (t : Test) : Bool :=
  j.boolItem .udp && t.diskfileName.isSome

/-- The refusal of a message for its rates. -/
def refusesRate (b : Build) (j : Json) (t : Test) : Bool :=
  (assignParameters b j t).exceedsBitrateLimit
      (assignParameters b j t).settings.rate ||
    (assignParameters b j t).exceedsBitrateLimit
      (assignParameters b j t).settings.fqrate

theorem getParameters_accepts_iff (b : Build) (j : Json) (t : Test) :
    (getParameters b (some j) t).2 = true ↔
      refusesFile j t = false ∧
        (assignParameters b j t).exceedsServerDuration = false ∧
        refusesRate b j t = false := by
  rw [getParameters_accepts]
  unfold refusesFile refusesRate
  simp only [Bool.and_eq_true, Bool.not_eq_true', Bool.or_eq_false_iff, and_assoc]

/-! ## Duration -/

def gracePeriod : ℤ := 4 * 10

/-- The one-shot timer of `create_server_timers`, in `int` arithmetic up to
the conversion to microseconds. -/
def Test.durationTimer (t : Test) (now : IperfTime) : Option IperfTime :=
  if t.duration ≠ 0 then
    some (now.addUsecs
      (uint64 (int32 (t.duration + t.omitTime + gracePeriod) * 1000000)))
  else none

theorem durationTimer_le
    {t : Test} {limit : ℤ} (now : IperfTime)
    (hduration : 0 < t.duration) (homit : 0 ≤ t.omitTime)
    (hsum : t.duration + t.omitTime ≤ limit) (hlimit : limit ≤ maxTime) :
    ∃ deadline, t.durationTimer now = some deadline ∧
      (deadline.inUsecs : ℤ) ≤ now.inUsecs + (limit + gracePeriod) * 1000000 := by
  unfold maxTime at hlimit
  have hint : int32 (t.duration + t.omitTime + gracePeriod) =
      t.duration + t.omitTime + gracePeriod := by
    apply int32_of_mem <;> unfold gracePeriod <;> omega
  have husecs :
      (uint64 ((t.duration + t.omitTime + gracePeriod) * 1000000) : ℤ) =
        (t.duration + t.omitTime + gracePeriod) * 1000000 := by
    apply uint64_of_mem <;> unfold gracePeriod <;> omega
  refine ⟨_, by rw [Test.durationTimer, if_pos hduration.ne', hint], ?_⟩
  have hnow := now.usecs_lt
  have hfits : now.usecs +
      uint64 ((t.duration + t.omitTime + gracePeriod) * 1000000) <
        18446744073709551616 := by
    unfold gracePeriod at husecs ⊢
    omega
  have hlate := now.inUsecs_addUsecs_le hfits
  omega

theorem exceedsServerDuration_eq_false_iff
    {t : Test} (hlimit : 0 < t.maxServerDuration) :
    t.exceedsServerDuration = false ↔
      int32 (t.duration + t.omitTime) ≤ t.maxServerDuration ∧ t.duration ≠ 0 := by
  simp [Test.exceedsServerDuration, hlimit]

/-- The messages for which the duration check does what it stands for: those
it refuses, those that are refused for another reason, and those with a
positive time and a nonnegative omit whose sum is an `int`. -/
def DurationRequestSound (b : Build) (j : Json) (t : Test) : Prop :=
  let time := readInt j .time durationDefault
  let omitted := readInt j .omitTime omitDefault
  time = 0 ∨ t.maxServerDuration < int32 (time + omitted) ∨
    refusesFile j t = true ∨ refusesRate b j t = true ∨
    (0 < time ∧ 0 ≤ omitted ∧ time + omitted < 2147483648)

/-- What the limit promises about a record that the server has accepted. -/
def DurationEnforced (limit : ℤ) (now : IperfTime) (t : Test) : Prop :=
  0 < t.duration ∧ 0 ≤ t.omitTime ∧ t.duration + t.omitTime ≤ limit ∧
    ∃ deadline, t.durationTimer now = some deadline ∧
      (deadline.inUsecs : ℤ) ≤ now.inUsecs + (limit + 40) * 1000000

theorem durationEnforced_iff_of_defaults
    {b : Build} {t : Test} (j : Json) (now : IperfTime)
    (hlimit : 0 < t.maxServerDuration) (hbound : t.maxServerDuration ≤ maxTime)
    (htime : t.duration = durationDefault) (homit : t.omitTime = omitDefault) :
    ((getParameters b (some j) t).2 = true →
        DurationEnforced t.maxServerDuration now
          (getParameters b (some j) t).1) ↔
      DurationRequestSound b j t := by
  obtain ⟨r, code, hread⟩ := getParameters_eq b j t
  have hchecks : (assignParameters b j t).exceedsServerDuration = false ↔
      int32 (readInt j .time durationDefault + readInt j .omitTime omitDefault) ≤
        t.maxServerDuration ∧ readInt j .time durationDefault ≠ 0 := by
    rw [← htime, ← homit]
    exact exceedsServerDuration_eq_false_iff hlimit
  rw [getParameters_accepts_iff, hchecks, hread]
  simp only [DurationRequestSound, DurationEnforced, assignParameters, htime, homit]
  constructor
  · intro henforced
    by_contra hnot
    simp only [not_or, Bool.not_eq_true, not_lt] at hnot
    obtain ⟨hzero, hle, hfile, hrate, hunsound⟩ := hnot
    obtain ⟨hpos, hnonneg, hsum, -⟩ := henforced ⟨hfile, ⟨hle, hzero⟩, hrate⟩
    unfold maxTime at hbound
    exact hunsound ⟨hpos, hnonneg, by omega⟩
  · rintro hsound ⟨hfile, ⟨hle, hzero⟩, hrate⟩
    rcases hsound with h | h | h | h | ⟨hpos, hnonneg, hsum⟩
    · exact absurd h hzero
    · exact absurd hle (not_le.mpr h)
    · rw [hfile] at h
      contradiction
    · rw [hrate] at h
      contradiction
    · rw [int32_of_mem (by omega) hsum] at hle
      exact ⟨hpos, hnonneg, hle, durationTimer_le now hpos hnonneg hle hbound⟩

/-- An accepted message respects the duration limit, and its timer the
deadline, exactly when the message is one of the sound ones. -/
theorem duration_limit_enforced_iff
    {b : Build} {fileSize : Option ℕ} {opts : List Opt} {s : Test}
    (hstart : parseArguments b fileSize opts (iperfStart b) = .ok s)
    (hrole : s.role = .server) (hlimit : 0 < s.maxServerDuration)
    (es : List ServedTest) (j : Json) (now : IperfTime) :
    ((getParameters b (some j) (afterTests b s es)).2 = true →
        DurationEnforced s.maxServerDuration now
          (getParameters b (some j) (afterTests b s es)).1) ↔
      DurationRequestSound b j (afterTests b s es) := by
  obtain ⟨a, ha, rfl⟩ := parseArguments_serverStart hstart hrole
  obtain ⟨l, hl⟩ := afterTests_serverStart (b := b) (a := a) es
  obtain ⟨hduration, homit, -, hmax, -⟩ := serverStart_fields b a
  have hbound : (serverStart b a).maxServerDuration ≤ maxTime := by
    rw [hmax]
    exact ha.maxServerDuration_le
  rw [hl]
  exact durationEnforced_iff_of_defaults
    (t := (serverStart b a).withLeftover l) j now hlimit hbound hduration homit

def minuteServer : Test :=
  serverStart Build.msvc { ServerArgs.default with maxServerDuration := 60 }

theorem parseArguments_minuteServer :
    parseArguments Build.msvc none [.server, .serverMaxDuration 60]
      (iperfStart Build.msvc) = .ok minuteServer := rfl

/-- A test of ten seconds passes a limit of a minute and respects it. -/
theorem duration_limit_enforced_ten_seconds :
    (getParameters Build.msvc (some (.object [(.time, .number 10)]))
        (afterTests Build.msvc minuteServer [])).2 = true ∧
      DurationEnforced 60 ⟨1000, 0, by decide, by decide⟩
        (getParameters Build.msvc (some (.object [(.time, .number 10)]))
          (afterTests Build.msvc minuteServer [])).1 := by
  have haccepted : (getParameters Build.msvc
      (some (.object [(.time, .number 10)]))
      (afterTests Build.msvc minuteServer [])).2 = true := by decide
  refine ⟨haccepted, ?_⟩
  apply (duration_limit_enforced_iff parseArguments_minuteServer rfl (by decide)
    [] (.object [(.time, .number 10)]) ⟨1000, 0, by decide, by decide⟩).mpr
  · unfold DurationRequestSound
    decide
  · exact haccepted

/-- A server limited to a minute accepts a test of `-100` seconds, whose timer
expires more than a hundred years later. -/
theorem negative_time_passes_duration_limit :
    let message : Json := .object [(.time, .number (-100))]
    let now : IperfTime := ⟨1000, 0, by decide, by decide⟩
    parseArguments Build.msvc none [.server, .serverMaxDuration 60]
        (iperfStart Build.msvc) = .ok minuteServer ∧
      (getParameters Build.msvc (some message) minuteServer).2 = true ∧
      ¬ 0 < (getParameters Build.msvc (some message) minuteServer).1.duration ∧
      ∀ deadline ∈ (getParameters Build.msvc (some message)
          minuteServer).1.durationTimer now,
        now.inUsecs + (60 + 40) * 1000000 + 100 * 365 * 86400 * 1000000 <
          deadline.inUsecs := by
  refine ⟨rfl, by decide, by decide, by decide⟩

/-! ## Requested rate -/

/-- The rate a test asks for, as an integer. -/
def Test.exactRate (t : Test) (rate : ℕ) : ℤ :=
  t.numStreams * rate * t.directions

theorem totalRequestedRate_eq (t : Test) (rate : ℕ) :
    t.totalRequestedRate rate = uint64 (t.exactRate rate) := by
  unfold Test.totalRequestedRate Test.exactRate
  rw [uint64_mul_left, mul_assoc, uint64_mul_left, ← mul_assoc]

theorem exceedsBitrateLimit_eq_false_iff
    {t : Test} {rate : ℕ} (hlimit : 0 < t.settings.bitrateLimit)
    (hstreams : 0 ≤ t.numStreams) (hsmall : t.exactRate rate < 18446744073709551616) :
    t.exceedsBitrateLimit rate = false ↔
      t.exactRate rate ≤ t.settings.bitrateLimit := by
  have hnonneg : 0 ≤ t.exactRate rate := by
    unfold Test.exactRate
    positivity
  have hexact := uint64_of_mem hnonneg hsmall
  unfold Test.exceedsBitrateLimit
  rw [totalRequestedRate_eq]
  simp only [Bool.and_eq_false_iff, decide_eq_false_iff_not, not_not, not_lt]
  omega

/-- The error code left by the message itself, before the limit checks, when
the test is refused because of the file. -/
theorem readParameters_iErrno_of_refusesFile
    {b : Build} {j : Json} {t : Test} (hfile : refusesFile j t = true) :
    (readParameters b j t).1.iErrno ≠ .ieTotalRate := by
  have hcheck : ∀ u : Test, (u.checkSenderHasRetransmits b).iErrno = u.iErrno := by
    intro u
    unfold Test.checkSenderHasRetransmits
    split_ifs <;> rfl
  have hdirection : ∀ u : Test, (readDirection b j u).iErrno = u.iErrno := by
    intro u
    unfold readDirection Test.setTestBidirectional Test.setTestReverse
    split_ifs <;> simp [hcheck]
  have hsizes : ∀ u : Test, (deriveGsoSizes u).iErrno = u.iErrno := by
    intro u
    unfold deriveGsoSizes
    split_ifs <;> rfl
  have hretransmits : ∀ u : Test, (readRetransmits b u).iErrno = u.iErrno := by
    intro u
    unfold readRetransmits
    split_ifs <;> rfl
  have hread : (readParameters b j t).1.iErrno = (readProtocol b j t).1.iErrno := by
    unfold readParameters
    simp only [hretransmits, readOptions, readRates, hsizes, readSizes, hdirection,
      readLimits]
  have hdisk : (if j.boolItem .tcp then t.setProtocol b .tcp else t).diskfileName =
      t.diskfileName := by
    obtain ⟨r, e, h⟩ := setProtocol_eq b .tcp t
    by_cases htcp : j.boolItem .tcp
    · simp [htcp, h]
    · simp [htcp]
  simp only [refusesFile, Bool.and_eq_true] at hfile
  rw [hread]
  unfold readProtocol
  simp only [hfile.1, hdisk, hfile.2, if_true]
  by_cases hsctp : j.boolItem .sctp
  · simp only [hsctp, if_true, Test.setProtocol]
    split_ifs <;> simp [hcheck]
  · simp [hsctp]

/-- The messages for which the rate check does what it stands for: those that
are refused, and those with a nonnegative stream count and totals below
`2 ^ 64`. -/
def RateRequestSound (b : Build) (j : Json) (t : Test) : Prop :=
  let asked := assignParameters b j t
  refusesFile j t = true ∨ asked.exceedsServerDuration = true ∨
    refusesRate b j t = true ∨
    (0 ≤ asked.numStreams ∧
      asked.exactRate asked.settings.rate < 18446744073709551616 ∧
      asked.exactRate asked.settings.fqrate < 18446744073709551616)

def WithinRateLimit (t : Test) : Prop :=
  t.exactRate t.settings.rate ≤ t.settings.bitrateLimit ∧
    t.exactRate t.settings.fqrate ≤ t.settings.bitrateLimit

/-- The rate limit is exact for a message: an accepted message keeps it, a
message that keeps it is not refused for its rate, and the check before the
test start agrees. -/
def RateLimitExact (b : Build) (j : Json) (t : Test) (e : ServedTest) : Prop :=
  let read := (getParameters b (some j) t).1
  let accepted := (getParameters b (some j) t).2
  let atStart := e.runBody read
  (accepted = true → 0 ≤ read.numStreams ∧ WithinRateLimit read) ∧
    (1 ≤ read.numStreams → WithinRateLimit read →
      read.exceedsServerDuration = false →
        ¬ (accepted = false ∧ read.iErrno = .ieTotalRate)) ∧
    (accepted = true → atStart.exceedsBitrateLimit atStart.settings.rate = false)

theorem refusesRate_eq_false_iff
    {b : Build} {j : Json} {t : Test} (hlimit : 0 < t.settings.bitrateLimit)
    (hstreams : 0 ≤ (assignParameters b j t).numStreams)
    (hrate : (assignParameters b j t).exactRate
      (assignParameters b j t).settings.rate < 18446744073709551616)
    (hfqrate : (assignParameters b j t).exactRate
      (assignParameters b j t).settings.fqrate < 18446744073709551616) :
    refusesRate b j t = false ↔ WithinRateLimit (assignParameters b j t) := by
  have hkept : 0 < (assignParameters b j t).settings.bitrateLimit := hlimit
  unfold refusesRate WithinRateLimit
  rw [Bool.or_eq_false_iff, exceedsBitrateLimit_eq_false_iff hkept hstreams hrate,
    exceedsBitrateLimit_eq_false_iff hkept hstreams hfqrate]

/-- A message within the limit is refused for no rate, so the error code is
the one from before the limit checks. -/
theorem not_refused_with_ieTotalRate
    {b : Build} {j : Json} {t : Test} (hlimit : 0 < t.settings.bitrateLimit)
    (hlimitLt : t.settings.bitrateLimit < 18446744073709551616)
    (hstreams : 1 ≤ (assignParameters b j t).numStreams)
    (hwithin : WithinRateLimit (assignParameters b j t))
    (hduration : (assignParameters b j t).exceedsServerDuration = false) :
    ¬ ((getParameters b (some j) t).2 = false ∧
      (getParameters b (some j) t).1.iErrno = .ieTotalRate) := by
  rintro ⟨hrefused, hcode⟩
  have hkept : (assignParameters b j t).settings.bitrateLimit =
      t.settings.bitrateLimit := rfl
  have hrates : refusesRate b j t = false := by
    have hwithin' := hwithin
    unfold WithinRateLimit at hwithin'
    exact (refusesRate_eq_false_iff hlimit (by omega) (by omega) (by omega)).mpr
      hwithin
  have hfile : refusesFile j t = true := by
    by_contra hno
    have haccepted := (getParameters_accepts_iff b j t).mpr
      ⟨by simpa using hno, hduration, hrates⟩
    rw [haccepted] at hrefused
    contradiction
  obtain ⟨r, code, hread⟩ := readParameters_eq b j t
  have hlimits : (readParameters b j t).1.limitErrno =
      (readParameters b j t).1.iErrno := by
    unfold refusesRate at hrates
    rw [Bool.or_eq_false_iff] at hrates
    have hrate : (readParameters b j t).1.exceedsBitrateLimit
        (readParameters b j t).1.settings.rate = false := by
      rw [hread]
      exact hrates.1
    have hfqrate : (readParameters b j t).1.exceedsBitrateLimit
        (readParameters b j t).1.settings.fqrate = false := by
      rw [hread]
      exact hrates.2
    have htime : (readParameters b j t).1.exceedsServerDuration = false := by
      rw [hread]
      exact hduration
    simp [Test.limitErrno, hrate, hfqrate, htime]
  have hfinal : (getParameters b (some j) t).1.iErrno =
      (readParameters b j t).1.iErrno := by
    simp only [getParameters, checkLimits_eq, hlimits]
  rw [hfinal] at hcode
  exact readParameters_iErrno_of_refusesFile hfile hcode

theorem rateLimitExact_iff_of_limit
    {b : Build} {j : Json} {t : Test} (e : ServedTest)
    (hlimit : 0 < t.settings.bitrateLimit)
    (hlimitLt : t.settings.bitrateLimit < 18446744073709551616) :
    RateLimitExact b j t e ↔ RateRequestSound b j t := by
  obtain ⟨r, code, hread⟩ := getParameters_eq b j t
  have hnumStreams : (getParameters b (some j) t).1.numStreams =
      (assignParameters b j t).numStreams := by rw [hread]
  have hwithinIff : WithinRateLimit (getParameters b (some j) t).1 ↔
      WithinRateLimit (assignParameters b j t) := by
    rw [hread]
    rfl
  have hdurationIff : (getParameters b (some j) t).1.exceedsServerDuration =
      (assignParameters b j t).exceedsServerDuration := by
    rw [hread]
    rfl
  have hatStart : (e.runBody (getParameters b (some j) t).1).exceedsBitrateLimit
      (e.runBody (getParameters b (some j) t).1).settings.rate =
        (assignParameters b j t).exceedsBitrateLimit
          (assignParameters b j t).settings.rate := by
    rw [hread]
    rfl
  have hkept : (assignParameters b j t).settings.bitrateLimit =
      t.settings.bitrateLimit := rfl
  have haccepts := getParameters_accepts_iff b j t
  simp only [RateLimitExact, hnumStreams, hwithinIff, hdurationIff, hatStart]
  constructor
  · rintro ⟨hkeeps, -, -⟩
    by_contra hnot
    simp only [RateRequestSound, not_or, Bool.not_eq_true] at hnot
    obtain ⟨hfile, hduration, hrates, hunsound⟩ := hnot
    obtain ⟨hstreams, hwithin⟩ := hkeeps (haccepts.mpr ⟨hfile, hduration, hrates⟩)
    unfold WithinRateLimit at hwithin
    exact hunsound ⟨hstreams, by omega, by omega⟩
  · intro hsound
    refine ⟨?_, ?_, ?_⟩
    · intro haccepted
      obtain ⟨hfile, hduration, hrates⟩ := haccepts.mp haccepted
      rcases hsound with h | h | h | ⟨hstreams, hrate, hfqrate⟩
      · rw [hfile] at h
        contradiction
      · rw [hduration] at h
        contradiction
      · rw [hrates] at h
        contradiction
      · exact ⟨hstreams,
          (refusesRate_eq_false_iff hlimit hstreams hrate hfqrate).mp hrates⟩
    · intro hstreams hwithin hduration
      exact not_refused_with_ieTotalRate hlimit hlimitLt hstreams hwithin hduration
    · intro haccepted
      have hrates := (haccepts.mp haccepted).2.2
      exact (Bool.or_eq_false_iff.mp hrates).1

/-- On every server with a rate limit, after any tests, the limit is exact for
a message exactly when the message is a sound one. -/
theorem rate_limit_exact_iff
    {b : Build} {fileSize : Option ℕ} {opts : List Opt} {s : Test}
    (hstart : parseArguments b fileSize opts (iperfStart b) = .ok s)
    (hrole : s.role = .server) (hlimit : 0 < s.settings.bitrateLimit)
    (es : List ServedTest) (j : Json) (e : ServedTest) :
    RateLimitExact b j (afterTests b s es) e ↔
      RateRequestSound b j (afterTests b s es) := by
  obtain ⟨a, ha, rfl⟩ := parseArguments_serverStart hstart hrole
  obtain ⟨l, hl⟩ := afterTests_serverStart (b := b) (a := a) es
  obtain ⟨-, -, -, -, hbitrate⟩ := serverStart_fields b a
  rw [hl]
  apply rateLimitExact_iff_of_limit e
  · exact hlimit
  · change (serverStart b a).settings.bitrateLimit < _
    rw [hbitrate]
    exact ha.bitrateLimit_lt

def megabitServer : Test :=
  serverStart Build.msvc { ServerArgs.default with bitrateLimit := 1000000 }

theorem parseArguments_megabitServer :
    parseArguments Build.msvc none [.server, .serverBitrateLimit 1000000 none]
      (iperfStart Build.msvc) = .ok megabitServer := rfl

/-- Two streams of a hundred kilobits under a limit of a megabit. -/
theorem rate_limit_exact_two_streams :
    RateLimitExact Build.msvc
      (.object [(.parallel, .number 2), (.bandwidth, .number 100000)])
      (afterTests Build.msvc megabitServer [])
      (ServedTest.ofMessage (.object [])) := by
  apply (rate_limit_exact_iff parseArguments_megabitServer rfl (by decide) [] _
    _).mpr
  unfold RateRequestSound
  decide

/-- Sixteen streams of `2 ^ 60` bits per second ask for `2 ^ 64` in all, which
wraps to nothing and is accepted under a limit of a megabit. -/
theorem rate_limit_wraps :
    let message : Json :=
      .object [(.parallel, .number 16), (.bandwidth, .number 1152921504606846976)]
    let read := (getParameters Build.msvc (some message) megabitServer).1
    parseArguments Build.msvc none [.server, .serverBitrateLimit 1000000 none]
        (iperfStart Build.msvc) = .ok megabitServer ∧
      (getParameters Build.msvc (some message) megabitServer).2 = true ∧
      ¬ read.exactRate read.settings.rate ≤ read.settings.bitrateLimit := by
  refine ⟨rfl, by decide, by decide⟩

end Iperf3
