import Iperf3.ParameterFields
import Iperf3.ServerStart
import Mathlib.Tactic

/-!
# Consecutive tests of one server

Between two tests the server calls `cleanup_server` and `iperf_reset_test` on
the same record.  The reset restores most members to their start-up value;
`Leftover` collects those it leaves alone.  A server that has served any
tests is therefore a fresh server with some leftover, and the settings of the
next test agree with a fresh server's exactly when the next message hides
every leftover or the leftover happens to have its start-up value.
-/

namespace Iperf3

open MachineInt

/-- One earlier test: its parameter message, and what the rest of the test did
to the record.  `gsoOff` and `groOff` record a refused socket option. -/
structure ServedTest where
  message : Option Json
  socketBufsize : Option ℤ
  gsoOff : Bool
  groOff : Bool
  senderHasRetransmits : ℤ
  otherSideHasRetransmits : ℤ
  congestionUsed : Option String
  remoteCongestionUsed : Option String
  bitrateLimitStatsCount : ℕ
  bitrateLimitIntervalsTrafficBytes : List ℕ
  bitrateLimitLastIntervalIndex : ℕ
  bitrateLimitExceeded : Bool
  iErrno : IErrno

/-- A test in which nothing happens after the parameter exchange. -/
def ServedTest.ofMessage (message : Json) : ServedTest :=
  ⟨some message, none, false, false, 0, 0, none, none, 0, [], 0, false, .ieNone⟩

/-- The record after the streams have been created and the test has run. -/
def ServedTest.runBody (e : ServedTest) (t : Test) : Test :=
  { t with
    senderHasRetransmits := e.senderHasRetransmits
    otherSideHasRetransmits := e.otherSideHasRetransmits
    congestionUsed := e.congestionUsed
    remoteCongestionUsed := e.remoteCongestionUsed
    bitrateLimitStatsCount := e.bitrateLimitStatsCount
    bitrateLimitIntervalsTrafficBytes := e.bitrateLimitIntervalsTrafficBytes
    bitrateLimitLastIntervalIndex := e.bitrateLimitLastIntervalIndex
    bitrateLimitExceeded := e.bitrateLimitExceeded
    iErrno := e.iErrno
    settings := { t.settings with
      socketBufsize := e.socketBufsize.getD t.settings.socketBufsize
      gso := if e.gsoOff then 0 else t.settings.gso
      gro := if e.groOff then 0 else t.settings.gro } }

def serveTest (b : Build) (t : Test) (e : ServedTest) : Test :=
  (e.runBody (getParameters b e.message t).1).cleanupServer.iperfResetTest b

def afterTests (b : Build) (t : Test) (es : List ServedTest) : Test :=
  es.foldl (serveTest b) t

/-- The settings of a test that its client can ask for. -/
structure Requested where
  protocol : ProtocolId
  mode : Mode
  omitTime : ℤ
  duration : ℤ
  bytes : ℕ
  blocks : ℕ
  mss : ℤ
  noDelay : ℤ
  numStreams : ℤ
  mptcp : ℤ
  socketBufsize : ℤ
  blksize : ℤ
  gso : ℤ
  gsoDgSize : ℤ
  gsoBfSize : ℤ
  gro : ℤ
  groBfSize : ℤ
  rate : ℕ
  fqrate : ℕ
  burst : ℤ
  tos : ℤ
  flowlabel : ℤ
  getServerOutput : ℤ
  udpCounters64bit : ℤ
  repeatingPayload : ℤ
  zerocopy : ℤ
  dontFragment : ℤ
  skipRxCopy : ℤ
  deriving DecidableEq, Repr

def Test.requested (t : Test) : Requested :=
  { protocol := t.protocol, mode := t.mode, omitTime := t.omitTime,
    duration := t.duration, bytes := t.settings.bytes,
    blocks := t.settings.blocks, mss := t.settings.mss, noDelay := t.noDelay,
    numStreams := t.numStreams, mptcp := t.mptcp,
    socketBufsize := t.settings.socketBufsize, blksize := t.settings.blksize,
    gso := t.settings.gso, gsoDgSize := t.settings.gsoDgSize,
    gsoBfSize := t.settings.gsoBfSize, gro := t.settings.gro,
    groBfSize := t.settings.groBfSize, rate := t.settings.rate,
    fqrate := t.settings.fqrate, burst := t.settings.burst,
    tos := t.settings.tos, flowlabel := t.settings.flowlabel,
    getServerOutput := t.getServerOutput,
    udpCounters64bit := t.udpCounters64bit,
    repeatingPayload := t.repeatingPayload, zerocopy := t.zerocopy,
    dontFragment := t.settings.dontFragment,
    skipRxCopy := t.settings.skipRxCopy }

/-! ## What the reset leaves -/

structure Leftover where
  mptcp : ℤ
  gso : ℤ
  gro : ℤ
  flowlabel : ℤ
  getServerOutput : ℤ
  repeatingPayload : ℤ
  pacingTimer : ℤ
  bytes : ℕ
  blocks : ℕ
  iErrno : IErrno

def Test.leftover (t : Test) : Leftover :=
  { mptcp := t.mptcp, gso := t.settings.gso, gro := t.settings.gro,
    flowlabel := t.settings.flowlabel, getServerOutput := t.getServerOutput,
    repeatingPayload := t.repeatingPayload,
    pacingTimer := t.settings.pacingTimer, bytes := t.settings.bytes,
    blocks := t.settings.blocks, iErrno := t.iErrno }

def Test.withLeftover (t : Test) (l : Leftover) : Test :=
  { t with
    mptcp := l.mptcp
    getServerOutput := l.getServerOutput
    repeatingPayload := l.repeatingPayload
    iErrno := l.iErrno
    settings := { t.settings with
      gso := l.gso
      gro := l.gro
      flowlabel := l.flowlabel
      pacingTimer := l.pacingTimer
      bytes := l.bytes
      blocks := l.blocks } }

/-- Members set by the command line and touched by no test. -/
structure Test.SameConfiguration (b : Build) (t u : Test) : Prop where
  maxServerDuration : t.maxServerDuration = u.maxServerDuration
  diskfileName : t.diskfileName = u.diskfileName
  statsInterval : t.statsInterval = u.statsInterval
  bitrateLimit : t.settings.bitrateLimit = u.settings.bitrateLimit
  bitrateLimitInterval :
    t.settings.bitrateLimitInterval = u.settings.bitrateLimitInterval
  bitrateLimitStatsPerInterval :
    t.settings.bitrateLimitStatsPerInterval =
      u.settings.bitrateLimitStatsPerInterval
  authtoken : b.haveSsl = false → t.settings.authtoken = u.settings.authtoken

theorem iperfResetTest_withLeftover
    {b : Build} {t u : Test} (hsame : Test.SameConfiguration b t u) :
    t.cleanupServer.iperfResetTest b =
      (u.cleanupServer.iperfResetTest b).withLeftover t.leftover := by
  have hauth : (if b.haveSsl then none else t.settings.authtoken) =
      if b.haveSsl then none else u.settings.authtoken := by
    by_cases hssl : b.haveSsl
    · simp [hssl]
    · simp [hssl, hsame.authtoken (by simpa using hssl)]
  simp [Test.iperfResetTest, Test.cleanupServer, Test.setProtocol,
    Build.supports, Test.checkSenderHasRetransmits, Test.withLeftover,
    Test.leftover, hauth, hsame.maxServerDuration, hsame.diskfileName,
    hsame.statsInterval, hsame.bitrateLimit, hsame.bitrateLimitInterval,
    hsame.bitrateLimitStatsPerInterval]

theorem iperfResetTest_serverStart (b : Build) (a : ServerArgs) :
    (serverStart b a).cleanupServer.iperfResetTest b = serverStart b a := by
  unfold serverStart applyStatsPerInterval
  split_ifs <;>
    simp [serverOptions, iperfStart, iperfNewTest, Test.iperfDefaults,
      Test.iperfResetTest, Test.cleanupServer, Test.setProtocol,
      Build.supports, Test.checkSenderHasRetransmits]

/-- The leftover after one more test. -/
def ServedTest.leave (b : Build) (t : Test) (l : Leftover) (e : ServedTest) :
    Leftover :=
  (e.runBody (getParameters b e.message (t.withLeftover l)).1).leftover

theorem sameConfiguration_runBody
    (b : Build) (t : Test) (l : Leftover) (e : ServedTest) :
    Test.SameConfiguration b
      (e.runBody (getParameters b e.message (t.withLeftover l)).1) t := by
  cases hmessage : e.message with
  | none =>
      constructor <;> simp [ServedTest.runBody, getParameters, Test.withLeftover]
  | some j =>
      obtain ⟨r, code, h⟩ := getParameters_eq b j (t.withLeftover l)
      rw [h]
      constructor
      case authtoken =>
        intro hssl
        simp [ServedTest.runBody, assignParameters, assignedSettings,
          Test.withLeftover, hssl]
      all_goals rfl

theorem serveTest_withLeftover
    {b : Build} {s : Test} (hfresh : s.cleanupServer.iperfResetTest b = s)
    (l : Leftover) (e : ServedTest) :
    serveTest b (s.withLeftover l) e = s.withLeftover (e.leave b s l) := by
  unfold serveTest
  rw [iperfResetTest_withLeftover (sameConfiguration_runBody b s l e), hfresh]
  rfl

/-- A server that has served tests is a fresh one with some leftover. -/
theorem afterTests_withLeftover
    {b : Build} {s : Test} (hfresh : s.cleanupServer.iperfResetTest b = s)
    (es : List ServedTest) (l : Leftover) :
    afterTests b (s.withLeftover l) es =
      s.withLeftover (es.foldl (ServedTest.leave b s) l) := by
  induction es generalizing l with
  | nil => rfl
  | cons e es ih =>
      have hstep := serveTest_withLeftover hfresh l e
      calc
        afterTests b (s.withLeftover l) (e :: es) =
            afterTests b (serveTest b (s.withLeftover l) e) es := rfl
        _ = afterTests b (s.withLeftover (e.leave b s l)) es := by rw [hstep]
        _ = s.withLeftover
            ((e :: es).foldl (ServedTest.leave b s) l) := ih (e.leave b s l)

/-! ## The last test that wrote a member -/

/-- The value a member has after the tests, when `write e` is what the test
`e` assigns to it, if anything. -/
def lastWritten (write : ServedTest → Option ℤ) (es : List ServedTest) : Option ℤ :=
  (es.filterMap write).getLast?

theorem foldl_write_eq_lastWritten
    (write : ServedTest → Option ℤ) (es : List ServedTest) (value : ℤ) :
    es.foldl (fun current e => (write e).getD current) value =
      (lastWritten write es).getD value := by
  induction es generalizing value with
  | nil => rfl
  | cons e es ih =>
      rw [List.foldl_cons, ih]
      cases hwrite : write e with
      | none => simp [lastWritten, hwrite]
      | some v =>
          cases hlast : (es.filterMap write).getLast? with
          | none =>
              simp [lastWritten, hwrite, hlast,
                List.getLast?_cons]
          | some w =>
              simp [lastWritten, hwrite, hlast,
                List.getLast?_cons]

def ServedTest.numberWrite (key : Key) (e : ServedTest) : Option ℤ :=
  (e.message.bind fun j => j.numberItem key).map int32

def ServedTest.presenceWrite (key : Key) (e : ServedTest) : Option ℤ :=
  (e.message.bind fun j => j.numberItem key).map fun _ => 1

def ServedTest.mptcpWrite (b : Build) (e : ServedTest) : Option ℤ :=
  e.message.bind fun j =>
    if b.haveIpprotoMptcp && j.boolItem .mptcp then some 1 else none

def ServedTest.gsoWrite (e : ServedTest) : Option ℤ :=
  if e.gsoOff then some 0 else e.numberWrite .gso

def ServedTest.groWrite (e : ServedTest) : Option ℤ :=
  if e.groOff then some 0 else e.numberWrite .gro

/-- What one test does to the six members that the reset forgets. -/
theorem leave_eq (b : Build) (t : Test) (l : Leftover) (e : ServedTest) :
    (e.leave b t l).mptcp = (e.mptcpWrite b).getD l.mptcp ∧
      (e.leave b t l).gso = e.gsoWrite.getD l.gso ∧
      (e.leave b t l).gro = e.groWrite.getD l.gro ∧
      (e.leave b t l).flowlabel =
        (e.numberWrite .flowlabel).getD l.flowlabel ∧
      (e.leave b t l).getServerOutput =
        (e.presenceWrite .getServerOutput).getD l.getServerOutput ∧
      (e.leave b t l).repeatingPayload =
        (e.presenceWrite .repeatingPayload).getD l.repeatingPayload := by
  have hpresence : ∀ (j : Json) (key : Key) (old : ℤ),
      readPresence j key old = ((j.numberItem key).map fun _ => 1).getD old := by
    intro j key old
    unfold readPresence
    cases j.numberItem key <;> rfl
  unfold ServedTest.leave
  cases hmessage : e.message with
  | none =>
      simp only [getParameters, ServedTest.runBody, Test.leftover,
        Test.withLeftover, ServedTest.mptcpWrite, ServedTest.gsoWrite,
        ServedTest.groWrite, ServedTest.numberWrite, ServedTest.presenceWrite,
        hmessage, Option.bind_none, Option.map_none, Option.getD_none,
        true_and, and_true]
      constructor
      · split_ifs <;> rfl
      · split_ifs <;> rfl
  | some j =>
      obtain ⟨r, code, h⟩ := getParameters_eq b j (t.withLeftover l)
      rw [h]
      simp only [ServedTest.runBody, Test.leftover, assignParameters,
        assignedSettings, Test.withLeftover, ServedTest.mptcpWrite,
        ServedTest.gsoWrite, ServedTest.groWrite, ServedTest.numberWrite,
        ServedTest.presenceWrite, hmessage, Option.bind_some, readInt,
        hpresence, and_true]
      refine ⟨?_, ?_, ?_⟩
      · split_ifs <;> rfl
      · split_ifs <;> rfl
      · split_ifs <;> rfl

theorem foldl_leave_eq
    (b : Build) (t : Test) (l : Leftover) (es : List ServedTest)
    (member : Leftover → ℤ) (write : ServedTest → Option ℤ)
    (hstep : ∀ l e, member (ServedTest.leave b t l e) = (write e).getD (member l)) :
    member (es.foldl (ServedTest.leave b t) l) =
      (lastWritten write es).getD (member l) := by
  rw [← foldl_write_eq_lastWritten]
  exact (List.foldl_hom member (fun l e => (hstep l e).symm)).symm

/-! ## When the leftover shows -/

/-- A member is hidden when the next message carries it, or when the last
earlier test that wrote it left the start-up value. -/
def Hidden (carried : Bool) (write : ServedTest → Option ℤ)
    (es : List ServedTest) (start : ℤ) : Prop :=
  carried = true ∨ ∀ value ∈ lastWritten write es, value = start

/-- The earlier tests `es` of a server started as `s` are hidden from a test
with the message `j`. -/
structure Undisturbed (b : Build) (s : Test) (es : List ServedTest) (j : Json) :
    Prop where
  mptcp : Hidden (b.haveIpprotoMptcp && j.boolItem .mptcp)
    (ServedTest.mptcpWrite b) es s.mptcp
  gso : Hidden (j.numberItem .gso).isSome ServedTest.gsoWrite es s.settings.gso
  gro : Hidden (j.numberItem .gro).isSome ServedTest.groWrite es s.settings.gro
  flowlabel : Hidden (j.numberItem .flowlabel).isSome
    (ServedTest.numberWrite .flowlabel) es s.settings.flowlabel
  getServerOutput : Hidden (j.numberItem .getServerOutput).isSome
    (ServedTest.presenceWrite .getServerOutput) es s.getServerOutput
  repeatingPayload : Hidden (j.numberItem .repeatingPayload).isSome
    (ServedTest.presenceWrite .repeatingPayload) es s.repeatingPayload

theorem hidden_iff
    (carried : Bool) (write : ServedTest → Option ℤ) (es : List ServedTest)
    (start : ℤ) :
    Hidden carried write es start ↔
      carried = true ∨ (lastWritten write es).getD start = start := by
  unfold Hidden
  cases lastWritten write es <;> simp

theorem readInt_eq_iff (j : Json) (key : Key) (old new : ℤ) :
    readInt j key new = readInt j key old ↔
      (j.numberItem key).isSome = true ∨ new = old := by
  unfold readInt
  cases j.numberItem key <;> simp

theorem readPresence_eq_iff (j : Json) (key : Key) (old new : ℤ) :
    readPresence j key new = readPresence j key old ↔
      (j.numberItem key).isSome = true ∨ new = old := by
  unfold readPresence
  cases j.numberItem key <;> simp

theorem flag_eq_iff (present : Bool) (old new : ℤ) :
    (if present then 1 else new) = (if present then 1 else old) ↔
      present = true ∨ new = old := by
  cases present <;> simp

theorem Test.SameUpToStatus.requested
    {t u : Test} (h : t.SameUpToStatus u) : t.requested = u.requested := by
  obtain ⟨r, code, rfl⟩ := h
  rfl

/-- Two readings of one message agree when they agree on the six members that
the leftover can change. -/
theorem requested_withLeftover_iff
    (b : Build) (j : Json) (s : Test) (l : Leftover) :
    (assignParameters b j (s.withLeftover l)).requested =
        (assignParameters b j s).requested ↔
      ((b.haveIpprotoMptcp && j.boolItem .mptcp) = true ∨ l.mptcp = s.mptcp) ∧
      ((j.numberItem .gso).isSome = true ∨ l.gso = s.settings.gso) ∧
      ((j.numberItem .gro).isSome = true ∨ l.gro = s.settings.gro) ∧
      ((j.numberItem .flowlabel).isSome = true ∨
        l.flowlabel = s.settings.flowlabel) ∧
      ((j.numberItem .getServerOutput).isSome = true ∨
        l.getServerOutput = s.getServerOutput) ∧
      ((j.numberItem .repeatingPayload).isSome = true ∨
        l.repeatingPayload = s.repeatingPayload) := by
  rw [← flag_eq_iff, ← readInt_eq_iff, ← readInt_eq_iff, ← readInt_eq_iff,
    ← readPresence_eq_iff, ← readPresence_eq_iff]
  constructor
  · intro h
    exact ⟨congrArg Requested.mptcp h, congrArg Requested.gso h,
      congrArg Requested.gro h, congrArg Requested.flowlabel h,
      congrArg Requested.getServerOutput h,
      congrArg Requested.repeatingPayload h⟩
  · rintro ⟨hmptcp, hgso, hgro, hflowlabel, houtput, hpayload⟩
    have hsizes : assignedGsoSizes b j (s.withLeftover l) =
        assignedGsoSizes b j s := by
      unfold assignedGsoSizes
      rw [show readInt j .gso (s.withLeftover l).settings.gso =
        readInt j .gso s.settings.gso from hgso]
      rfl
    simp only [Test.requested, assignParameters, assignedSettings, hsizes]
    simp only [Test.withLeftover, hmptcp, hgso, hgro, hflowlabel, houtput,
      hpayload]
    rfl

theorem leftover_after_tests
    (b : Build) (s : Test) (l : Leftover) (es : List ServedTest) :
    let final := es.foldl (ServedTest.leave b s) l
    final.mptcp = (lastWritten (ServedTest.mptcpWrite b) es).getD l.mptcp ∧
      final.gso = (lastWritten ServedTest.gsoWrite es).getD l.gso ∧
      final.gro = (lastWritten ServedTest.groWrite es).getD l.gro ∧
      final.flowlabel =
        (lastWritten (ServedTest.numberWrite .flowlabel) es).getD l.flowlabel ∧
      final.getServerOutput =
        (lastWritten (ServedTest.presenceWrite .getServerOutput) es).getD
          l.getServerOutput ∧
      final.repeatingPayload =
        (lastWritten (ServedTest.presenceWrite .repeatingPayload) es).getD
          l.repeatingPayload := by
  refine ⟨?_, ?_, ?_, ?_, ?_, ?_⟩
  · exact foldl_leave_eq b s l es Leftover.mptcp _
      fun l e => (leave_eq b s l e).1
  · exact foldl_leave_eq b s l es Leftover.gso _
      fun l e => (leave_eq b s l e).2.1
  · exact foldl_leave_eq b s l es Leftover.gro _
      fun l e => (leave_eq b s l e).2.2.1
  · exact foldl_leave_eq b s l es Leftover.flowlabel _
      fun l e => (leave_eq b s l e).2.2.2.1
  · exact foldl_leave_eq b s l es Leftover.getServerOutput _
      fun l e => (leave_eq b s l e).2.2.2.2.1
  · exact foldl_leave_eq b s l es Leftover.repeatingPayload _
      fun l e => (leave_eq b s l e).2.2.2.2.2

/-- The settings of the next test are those of a freshly started server
exactly when the earlier tests are hidden from it. -/
theorem requested_after_tests_iff
    {b : Build} {fileSize : Option ℕ} {opts : List Opt} {s : Test}
    (hstart : parseArguments b fileSize opts (iperfStart b) = .ok s)
    (hrole : s.role = .server) (es : List ServedTest) (j : Json) :
    (getParameters b (some j) (afterTests b s es)).1.requested =
        (getParameters b (some j) s).1.requested ↔
      Undisturbed b s es j := by
  obtain ⟨a, -, hs⟩ := parseArguments_serverStart hstart hrole
  have hfresh : s.cleanupServer.iperfResetTest b = s := by
    rw [hs, iperfResetTest_serverStart]
  have hafter := afterTests_withLeftover hfresh es s.leftover
  have hself : s.withLeftover s.leftover = s := rfl
  rw [hself] at hafter
  obtain ⟨hmptcp, hgso, hgro, hflowlabel, houtput, hpayload⟩ :=
    leftover_after_tests b s s.leftover es
  rw [(getParameters_eq b j _).requested, (getParameters_eq b j s).requested,
    hafter, requested_withLeftover_iff, hmptcp, hgso, hgro, hflowlabel, houtput,
    hpayload]
  constructor
  · rintro ⟨h1, h2, h3, h4, h5, h6⟩
    exact
      { mptcp := (hidden_iff _ _ _ _).mpr h1
        gso := (hidden_iff _ _ _ _).mpr h2
        gro := (hidden_iff _ _ _ _).mpr h3
        flowlabel := (hidden_iff _ _ _ _).mpr h4
        getServerOutput := (hidden_iff _ _ _ _).mpr h5
        repeatingPayload := (hidden_iff _ _ _ _).mpr h6 }
  · intro h
    exact ⟨(hidden_iff _ _ _ _).mp h.mptcp, (hidden_iff _ _ _ _).mp h.gso,
      (hidden_iff _ _ _ _).mp h.gro, (hidden_iff _ _ _ _).mp h.flowlabel,
      (hidden_iff _ _ _ _).mp h.getServerOutput,
      (hidden_iff _ _ _ _).mp h.repeatingPayload⟩

/-- A client that asks for a repeating payload, on the Windows port: the next
client gets one without asking. -/
theorem repeatingPayload_survives_reset :
    parseArguments Build.msvc none [.server] (iperfStart Build.msvc) =
        .ok (serverStart Build.msvc ServerArgs.default) ∧
      (getParameters Build.msvc (some (.object []))
          (afterTests Build.msvc (serverStart Build.msvc ServerArgs.default)
            [ServedTest.ofMessage
              (.object [(.repeatingPayload, .number 1)])])).1.requested ≠
        (getParameters Build.msvc (some (.object []))
          (serverStart Build.msvc ServerArgs.default)).1.requested := by
  refine ⟨parseArguments_server Build.msvc none, fun h => ?_⟩
  have hpayload := congrArg Requested.repeatingPayload h
  revert hpayload
  decide

/-- After the same client, a client that asks for the payload itself is not
disturbed. -/
theorem requested_after_repeatingPayload :
    (getParameters Build.msvc (some (.object [(.repeatingPayload, .number 1)]))
        (afterTests Build.msvc (serverStart Build.msvc ServerArgs.default)
          [ServedTest.ofMessage
            (.object [(.repeatingPayload, .number 1)])])).1.requested =
      (getParameters Build.msvc
        (some (.object [(.repeatingPayload, .number 1)]))
        (serverStart Build.msvc ServerArgs.default)).1.requested := by
  apply (requested_after_tests_iff (parseArguments_server Build.msvc none)
    rfl _ _).mpr
  constructor <;> simp [Hidden] <;> decide

end Iperf3
