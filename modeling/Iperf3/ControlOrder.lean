import Iperf3.ErrorReports
import Mathlib.Tactic

/-!
# The order of the control messages

The byte that the client sends is stored in the state of the test before the
server looks at it.  Received data is counted by the workers according to the
same state.  The handling of `TEST_END` and the counting are compared here
with what was sent and read on the control connection.
-/

namespace Iperf3

/-- No end has been handled in the current test. -/
def Unended (calls : List ServerCall) : Prop :=
  ∀ state, .endOfTest state ∉ thisTest calls

/-- The end of a test is handled at most once in it, and in `TEST_RUNNING`. -/
def OrderlyEnd (calls : List ServerCall) : Prop :=
  calls |> Always fun before call =>
    ∀ state, call = .endOfTest state → state = .testRunning ∧ Unended before

/-- How a call changes whether data is to be counted.  Reading `TEST_START`
does not end the test; whatever else is read does. -/
def periodStep (counted : Bool) : ServerCall → Bool
  | .sent .testRunning => true
  | .controlRead (.byte value) => counted && TestState.ofByte value = .testStart
  | .controlRead _ | .streamsFreed | .cleanup _ | .serverListen | .reset => false
  | _ => counted

/-- Whether `TEST_RUNNING` has been sent and the test not ended since. -/
def inPeriod (calls : List ServerCall) : Bool :=
  calls.foldl periodStep false

@[simp] theorem inPeriod_append (calls : List ServerCall) (call : ServerCall) :
    inPeriod (calls ++ [call]) = periodStep (inPeriod calls) call := by
  simp [inPeriod]

theorem periodStep_byte (counted : Bool) (value : UInt8) :
    periodStep counted (.controlRead (.byte value)) =
      (counted && TestState.ofByte value = .testStart) :=
  rfl

/-- `iperf_tcp_recv` and its siblings on the number of bytes read. -/
def iperfTcpRecv (state : TestState) (r : ℕ) (result : StreamResult) : StreamResult :=
  if state = .testRunning then
    { result with
      bytesReceived := result.bytesReceived + r
      bytesReceivedThisInterval := result.bytesReceivedThisInterval + r }
  else result

/-- A call that is not the handling of `TEST_END`. -/
def NotEnd (call : ServerCall) : Prop :=
  ∀ state, call ≠ .endOfTest state

def ServerCall.isEnd : ServerCall → Bool
  | .endOfTest _ => true
  | _ => false

theorem notEnd {call : ServerCall} (h : call.isEnd = false) : NotEnd call := by
  rintro state rfl
  cases h

theorem OrderlyEnd.append {calls : List ServerCall} (h : OrderlyEnd calls) {call : ServerCall}
    (hcall : NotEnd call) : OrderlyEnd (calls ++ [call]) :=
  always_append.mpr ⟨h, fun state heq => absurd heq (hcall state)⟩

theorem Unended.append {calls : List ServerCall} (h : Unended calls) {call : ServerCall}
    (hcall : NotEnd call) : Unended (calls ++ [call]) := by
  intro state hmem
  unfold thisTest at hmem
  rw [List.reverse_append, List.reverse_singleton, List.singleton_append] at hmem
  by_cases haccepted : call = .accepted
  · simp [haccepted] at hmem
  · rw [List.takeWhile_cons_of_pos (by simpa using haccepted)] at hmem
    rcases List.mem_cons.mp hmem with heq | hmem
    · exact hcall state heq.symm
    · exact h state hmem

/-! ## One turn -/

/-- What holds before each `select`. -/
structure Attentive (s : Server) : Prop where
  orderly : OrderlyEnd s.calls
  counting : s.state = .testRunning ↔ inPeriod s.calls = true
  unended : s.state = .createStreams ∨ s.state = .testRunning →
    s.ctrlSck = true ∧ Unended s.calls

/-- A call during a test that has not ended, in a state in which nothing is
counted. -/
structure Preparing (s : Server) : Prop where
  orderly : OrderlyEnd s.calls
  idle : inPeriod s.calls = false
  ctrlSck : s.ctrlSck = true
  unended : Unended s.calls

/-- The client may send `TEST_END` in `TEST_RUNNING` only, and `TEST_START` in
every other state only. -/
def InOrder (s : Server) : ServerEvent → Prop
  | .turn env => s.ctrlSck = true → ∀ message value, env.control = some message →
      message.read = .byte value →
        (TestState.ofByte value = .testEnd → s.state = .testRunning) ∧
          (TestState.ofByte value = .testStart → s.state ≠ .testRunning)
  | _ => True

theorem OrderlyEnd.log {s : Server} (h : OrderlyEnd s.calls) {call : ServerCall}
    (hcall : NotEnd call) : OrderlyEnd (s.log call).calls :=
  h.append hcall

theorem OrderlyEnd.withErrno {s : Server} (h : OrderlyEnd s.calls) (code : IErrno) :
    OrderlyEnd (s.withErrno code).calls :=
  have hcall : NotEnd (.raised code) := notEnd rfl
  h.append hcall

theorem OrderlyEnd.cleanupServer {s : Server} (h : OrderlyEnd s.calls) :
    OrderlyEnd s.cleanupServer.calls :=
  have hcall : NotEnd (.cleanup s.reported) := notEnd rfl
  h.append hcall

/-- A call that neither ends a test nor starts or stops the counting. -/
theorem Preparing.log {s : Server} (h : Preparing s) {call : ServerCall} (hcall : NotEnd call)
    (hperiod : periodStep false call = false) : Preparing (s.log call) where
  orderly := h.orderly.append hcall
  idle := by
    simp only [Server.log, inPeriod_append]
    rw [h.idle]
    exact hperiod
  ctrlSck := h.ctrlSck
  unended := h.unended.append hcall

theorem Attentive.log {s : Server} (h : Attentive s) {call : ServerCall} (hcall : NotEnd call)
    (hperiod : ∀ counted, periodStep counted call = counted) : Attentive (s.log call) where
  orderly := h.orderly.append hcall
  counting := by
    simp only [Server.log, inPeriod_append, hperiod]
    exact h.counting
  unended hstate := ⟨(h.unended hstate).1, (h.unended hstate).2.append hcall⟩

theorem Attentive.withErrno {s : Server} (h : Attentive s) (code : IErrno) :
    Attentive (s.withErrno code) := by
  have hlogged : Attentive (s.log (.raised code)) := h.log (notEnd rfl) fun _ => rfl
  exact ⟨hlogged.orderly, hlogged.counting, hlogged.unended⟩

theorem Preparing.withErrno {s : Server} (h : Preparing s) (code : IErrno) :
    Preparing (s.withErrno code) := by
  have hlogged : Preparing (s.log (.raised code)) := h.log (notEnd rfl) rfl
  exact ⟨hlogged.orderly, hlogged.idle, hlogged.ctrlSck, hlogged.unended⟩

/-- In a state in which nothing is counted, nothing should be. -/
theorem Attentive.of_idle {s : Server} (horderly : OrderlyEnd s.calls)
    (hidle : inPeriod s.calls = false) (hstate : s.state ≠ .createStreams)
    (hrunning : s.state ≠ .testRunning) : Attentive s where
  orderly := horderly
  counting := by simp [hidle, hrunning]
  unended h := by
    rcases h with h | h
    · exact absurd h hstate
    · exact absurd h hrunning

theorem acceptClient_attentive
    {b : Build} (env : AcceptEnv) {s : Server} (h : Attentive s) (hfree : s.ctrlSck = false) :
    Triple (fun u : Server => u = s) (acceptClient b env) (fun u => Attentive (setStreamNumbers u))
      (fun u => OrderlyEnd u.calls) := by
  have hidle : inPeriod s.calls = false := by
    by_contra hcounted
    have hrunning := h.counting.mpr (by simpa using hcounted)
    exact absurd ((h.unended (Or.inr hrunning)).1.symm.trans hfree) (by simp)
  have hread : Triple Preparing (fun u => u.getParameters b env.message) Preparing
      (fun u => OrderlyEnd u.calls) := by
    have hkeeps : Keeps Preparing (fun u => u.getParameters b env.message) :=
      getParameters_keeps (fun code u hu => hu.log (notEnd rfl) rfl)
        (fun t u hu => ⟨hu.orderly, hu.idle, hu.ctrlSck, hu.unended⟩) env.message
    exact (Triple.of_keeps hkeeps).weaken (fun _ hu => hu) (fun _ hu => hu) fun _ hu => hu.orderly
  have hentered : ∀ state u, Preparing u → Preparing (u.enter state) :=
    fun state u hu => ⟨hu.orderly, hu.idle, hu.ctrlSck, hu.unended⟩
  have htriple : Triple (fun u : Server => u = s) (acceptClient b env)
      (fun u => Preparing u ∧ u.state = .createStreams) (fun u => OrderlyEnd u.calls) := by
    apply triple_acceptClient (M := Preparing) (N := Preparing) (L := Preparing) env
    · rintro u rfl
      refine ⟨h.orderly.append (notEnd rfl), ?_, rfl, ?_⟩
      · simp only [Server.takeControl, Server.log, inPeriod_append, hidle]
        rfl
      · intro state hmem
        simp [Server.takeControl, Server.log, thisTest] at hmem
    · exact fun u hu => hu.ctrlSck
    · exact fun code u hu => hu.orderly.withErrno code
    · exact fun cookie u hu => ⟨hu.orderly, hu.idle, hu.ctrlSck, hu.unended⟩
    · exact fun u hu => (hentered _ u hu).log (notEnd rfl) rfl
    · exact fun u hu => OrderlyEnd.withErrno (s := u.enter .paramExchange) hu.orderly _
    · exact hread
    · exact fun _ u hu => hu.log (notEnd rfl) rfl
    · exact fun _ u hu => hu.orderly.append (notEnd rfl)
    · exact fun _ _ => triple_protocolListen _ (fun u hu => hu.log (notEnd rfl) rfl)
        (fun code u hu => hu.orderly.withErrno code)
    · exact fun u hu => ⟨hu.orderly, hu.idle, hu.ctrlSck, hu.unended⟩
    · exact fun u hu => hu.ctrlSck
    · exact fun u hu => ⟨(hentered _ u hu).log (notEnd rfl) rfl, rfl⟩
    · exact fun _ u hu => OrderlyEnd.withErrno (s := u.enter .createStreams) hu.orderly _
    · exact fun _ u _ hu => hu.1.orderly.withErrno _
  refine htriple.weaken (fun _ hu => hu) (fun u hu => ?_) (fun _ hu => hu)
  exact ⟨hu.1.orderly, by simp [setStreamNumbers, hu.1.idle, hu.2],
    fun _ => ⟨hu.1.ctrlSck, hu.1.unended⟩⟩

/-- A test whose end is being handled. -/
structure Finishing (s : Server) : Prop where
  orderly : OrderlyEnd s.calls
  idle : inPeriod s.calls = false
  ctrlSck : s.ctrlSck = true

theorem Finishing.log {s : Server} (h : Finishing s) {call : ServerCall} (hcall : NotEnd call)
    (hperiod : periodStep false call = false) : Finishing (s.log call) where
  orderly := h.orderly.append hcall
  idle := by
    simp only [Server.log, inPeriod_append]
    rw [h.idle]
    exact hperiod
  ctrlSck := h.ctrlSck

theorem handleTestEnd_attentive {env : MessageEnv} :
    Triple Finishing (handleTestEnd env) Attentive (fun u => OrderlyEnd u.calls) := by
  have hread : Triple Finishing (fun u => u.getResults env.results) Finishing
      (fun u => OrderlyEnd u.calls) := by
    have hkeeps : Keeps Finishing (fun u => u.getResults env.results) := by
      intro u hu
      have hside : Finishing
          { u with toTestSide := (getResults env.results u.toTestSide).1 } :=
        ⟨hu.orderly, hu.idle, hu.ctrlSck⟩
      dsimp only
      unfold Server.getResults Server.noteErrno
      dsimp only
      split_ifs
      · exact hside.log (notEnd rfl) rfl
      · exact hside
    exact (Triple.of_keeps hkeeps).weaken (fun _ hu => hu) (fun _ hu => hu) fun _ hu => hu.orderly
  have hentered : ∀ state u, Finishing u → Finishing (u.enter state) :=
    fun state u hu => ⟨hu.orderly, hu.idle, hu.ctrlSck⟩
  apply triple_handleTestEnd (T := Finishing) env
  · intro u hu
    have hdone : Finishing { u with done := true } := ⟨hu.orderly, hu.idle, hu.ctrlSck⟩
    exact hdone.log (notEnd rfl) rfl
  · exact fun u hu => hu.ctrlSck
  · exact fun u hu => (hentered _ u hu).log (notEnd rfl) rfl
  · exact fun state u hu => OrderlyEnd.withErrno (s := u.enter state) hu.orderly _
  · exact hread
  · exact fun u hu => hu.orderly.withErrno _
  · intro u hu
    have hshown : Finishing ((u.enter .displayResults).log (.sent .displayResults)) :=
      (hentered _ u hu).log (notEnd rfl) rfl
    exact Attentive.of_idle hshown.orderly hshown.idle (by rintro ⟨⟩) (by rintro ⟨⟩)

/-- Whatever is read in order, nothing is counted afterwards that should not
be. -/
theorem handleMessageServer_attentive
    {env : MessageEnv} {state : TestState}
    (hstart : ∀ value, env.read = .byte value → TestState.ofByte value = .testStart →
      state ≠ .testRunning)
    (hend : ∀ value, env.read = .byte value → TestState.ofByte value = .testEnd →
      state = .testRunning) :
    Triple (fun u : Server => Attentive u ∧ u.state = state) (handleMessageServer env) Attentive
      (fun u => OrderlyEnd u.calls) := by
  have hstops : ∀ u value, TestState.ofByte value ≠ .testStart →
      inPeriod (Server.log (.controlRead (.byte value)) u).calls = false := by
    intro u value hne
    simp [Server.log, periodStep_byte, hne]
  apply triple_handleMessageServer env
  · rintro - u ⟨hu, -⟩
    have hread : OrderlyEnd (u.log (.controlRead .closed)).calls := hu.orderly.log (notEnd rfl)
    apply Attentive.of_idle
    · exact hread.withErrno _
    · simp only [Server.enter, Server.withErrno, Server.log, inPeriod_append]
      rfl
    · rintro ⟨⟩
    · rintro ⟨⟩
  · rintro - u ⟨hu, -⟩
    have hread : OrderlyEnd (u.log (.controlRead .failed)).calls := hu.orderly.log (notEnd rfl)
    exact hread.withErrno _
  · rintro value read hread hbyte hquiet u ⟨hu, hstate⟩
    have horderly : OrderlyEnd ((u.log (.controlRead (.byte value))).enter read).calls :=
      hu.orderly.append (notEnd rfl)
    rcases hquiet with rfl | rfl
    · -- `TEST_START` is read in another state than `TEST_RUNNING`
      have hidle : inPeriod u.calls = false := by
        have hne : u.state ≠ .testRunning := hstate ▸ hstart value hread hbyte
        simpa [hu.counting] using hne
      apply Attentive.of_idle horderly _ (by rintro ⟨⟩) (by rintro ⟨⟩)
      simp [Server.enter, Server.log, periodStep_byte, hidle]
    · have hidle := hstops u value (by simp [hbyte])
      exact Attentive.of_idle horderly hidle (by rintro ⟨⟩) (by rintro ⟨⟩)
  · intro value hread hbyte
    refine Triple.before ?_ handleTestEnd_attentive
    rintro u ⟨hu, hstate⟩
    have hrunning : u.state = .testRunning := hstate.trans (hend value hread hbyte)
    obtain ⟨hctrl, hunended⟩ := hu.unended (Or.inr hrunning)
    refine ⟨?_, ?_, hctrl⟩
    · have hread : OrderlyEnd (u.log (.controlRead (.byte value))).calls :=
        hu.orderly.log (notEnd rfl)
      refine always_append.mpr ⟨hread, ?_⟩
      rintro old heq
      have hsame : u.state = old := ServerCall.endOfTest.inj heq
      exact ⟨hsame.symm.trans hrunning, hunended.append (notEnd rfl)⟩
    · have hidle := hstops u value (by simp [hbyte])
      simp only [Server.enter, Server.log, inPeriod_append] at hidle ⊢
      rw [hidle]
      rfl
  · rintro value hread hbyte u ⟨hu, -⟩
    have horderly : OrderlyEnd (((u.log (.controlRead (.byte value))).enter
        .clientTerminate).withErrno .ieClientTerm).calls :=
      OrderlyEnd.withErrno (s := (u.log (.controlRead (.byte value))).enter .clientTerminate)
        (hu.orderly.append (notEnd rfl)) _
    apply Attentive.of_idle
    · exact horderly.log (notEnd rfl)
    · have hidle := hstops u value (by simp [hbyte])
      simp only [Server.enter, Server.withErrno, Server.log, inPeriod_append] at hidle ⊢
      rw [hidle]
      rfl
    · rintro ⟨⟩
    · rintro ⟨⟩
  · rintro value hread - u ⟨hu, -⟩
    have horderly : OrderlyEnd (u.log (.controlRead (.byte value))).calls :=
      hu.orderly.log (notEnd rfl)
    exact OrderlyEnd.withErrno (s := (u.log _).enter _) horderly _

/-! ## The data connections -/

theorem acceptStream_attentive
    {b : Build} (env : StreamEnv) :
    Triple (fun u : Server => Attentive u ∧ u.state = .createStreams) (acceptStream b env) Attentive
      (fun u => OrderlyEnd u.calls) := by
  have hnote : ∀ outcome u, Attentive u → Attentive (u.noteAccept outcome) := by
    intro outcome u hu
    unfold Server.noteAccept
    split
    · exact hu.log (notEnd rfl) fun _ => rfl
    · exact hu
    · split_ifs
      · exact hu.log (notEnd rfl) fun _ => rfl
      · exact hu.log (notEnd rfl) fun _ => rfl
      · exact hu
      · exact hu
  apply triple_acceptStream (M := fun _ => Attentive) env
  · exact fun code u hu => ((hnote _ u hu.1).withErrno code).orderly
  · exact fun closed u hu => hnote _ u hu.1
  · exact fun closed u hu => hu.orderly.withErrno _
  · exact fun u hu => hu
  · intro closed code u hu
    have hcleaned := OrderlyEnd.cleanupServer (s := u.log .dataClosed)
      (hu.orderly.append (notEnd rfl))
    exact hcleaned.withErrno code
  · exact fun closed name u hu => ⟨hu.orderly, hu.counting, hu.unended⟩
  · intro closed u hu
    have hcounted : Attentive (u.countAccepted u.nextSender) := by
      unfold Server.countAccepted
      split <;> exact ⟨hu.orderly, hu.counting, hu.unended⟩
    unfold newServerStream
    dsimp only
    split
    · exact ⟨fun _ => hcounted, nofun⟩
    · exact ⟨nofun, fun _ => hcounted.orderly.withErrno _⟩
    · split_ifs
      · exact ⟨nofun, fun _ => hcounted.orderly.withErrno _⟩
      · have hlogged : Attentive ((u.countAccepted u.nextSender).log .newStream) :=
          hcounted.log (notEnd rfl) fun _ => rfl
        exact ⟨fun _ => ⟨hlogged.orderly, hlogged.counting, hlogged.unended⟩, nofun⟩

theorem startTest_attentive (env : StartEnv) :
    Triple (fun u : Server => Attentive u ∧ u.state = .createStreams)
      (fun u => startTest env u |> andThen (createWorkers env)) Attentive
      (fun u => OrderlyEnd u.calls) := by
  have hentered : ∀ state u, Preparing u → Preparing (u.enter state) :=
    fun state u hu => ⟨hu.orderly, hu.idle, hu.ctrlSck, hu.unended⟩
  have hstart : Triple (fun u : Server => Attentive u ∧ u.state = .createStreams) (startTest env)
      Attentive (fun u => OrderlyEnd u.calls) := by
    have hprepared : ∀ u, Attentive u ∧ u.state = .createStreams → Preparing u := by
      rintro u ⟨hu, hstate⟩
      obtain ⟨hctrl, hunended⟩ := hu.unended (Or.inl hstate)
      refine ⟨hu.orderly, ?_, hctrl, hunended⟩
      have hne : u.state ≠ .testRunning := by simp [hstate]
      simpa [hu.counting] using hne
    have htimers : Triple Preparing (fun u => createServerTimers env (u.stampStreams env.now))
        Preparing (fun u => OrderlyEnd u.calls) := by
      have hkeeps : Keeps Preparing (createServerTimers env) :=
        createServerTimers_keeps (fun code _ u hu => hu.withErrno code)
          (fun _ u hu => hu.log (notEnd rfl) rfl) (fun _ _ u hu => hu.log (notEnd rfl) rfl)
          (fun _ _ u hu => ⟨hu.orderly, hu.idle, hu.ctrlSck, hu.unended⟩) env
      have htriple : Triple Preparing (createServerTimers env) Preparing
          (fun u => OrderlyEnd u.calls) :=
        (Triple.of_keeps hkeeps).weaken (fun _ hu => hu) (fun _ hu => hu) fun _ hu => hu.orderly
      exact Triple.before (fun u hu => ⟨hu.orderly, hu.idle, hu.ctrlSck, hu.unended⟩) htriple
    apply triple_startTest (N := Preparing) (T := Preparing) env
    · intro u hu _
      have hclosed : Preparing u.closeProtListener :=
        ⟨(hprepared u hu).orderly, (hprepared u hu).idle, (hprepared u hu).ctrlSck,
          (hprepared u hu).unended⟩
      exact hclosed.log (notEnd rfl) rfl
    · intro u hu _
      have hlogged : OrderlyEnd (u.closeProtListener.log (.streamsComplete u.test.protocol
          u.reopensListener env.relistened)).calls := hu.1.orderly.append (notEnd rfl)
      exact hlogged.cleanupServer.withErrno _
    · exact fun u hu => hu.ctrlSck
    · exact fun u hu => hu.orderly.cleanupServer.withErrno _
    · exact fun u hu => (hentered _ u hu).log (notEnd rfl) rfl
    · exact fun u hu => OrderlyEnd.withErrno (s := u.enter _) hu.orderly _
    · exact fun u hu => hu.orderly.withErrno _
    · exact htimers
    · exact fun u hu => hu.ctrlSck
    · intro u hu
      refine ⟨hu.orderly.append (notEnd rfl), ?_,
        fun _ => ⟨hu.ctrlSck, hu.unended.append (notEnd rfl)⟩⟩
      have hsent : ∀ counted, periodStep counted (.sent .testRunning) = true := fun _ => rfl
      simp [Server.enter, Server.log, hsent]
    · exact fun u hu => OrderlyEnd.withErrno (s := u.enter _) hu.orderly _
  refine hstart.andThen (triple_createWorkers env ?_ ?_ ?_)
  · -- the cleanup leaves `TEST_RUNNING`, for it finds an error code and a client
    intro code hcode u hu
    have hraised := hu.withErrno code
    apply Attentive.of_idle
    · exact hraised.orderly.cleanupServer
    · simp only [Server.cleanupServer, Server.log, inPeriod_append]
      rfl
    · exact cleanupServer_left (fun hstate => (hu.unended (Or.inl hstate)).1) (by decide) hcode
    · exact cleanupServer_left (fun hstate => (hu.unended (Or.inr hstate)).1) (by decide) hcode
  · intro threads u hu
    have hlogged : Attentive (u.log (.spawned threads)) := hu.log (notEnd rfl) fun _ => rfl
    exact ⟨hlogged.orderly, hlogged.counting, hlogged.unended⟩
  · exact fun u hu => hu.orderly.withErrno _

/-! ## Runs -/

theorem setSendState_orderly {s : Server} (h : OrderlyEnd s.calls) (sent : Bool)
    (state : TestState) : OrderlyEnd (s.setSendState sent state).1.calls := by
  unfold Server.setSendState
  split_ifs
  · exact OrderlyEnd.log (s := s.enter state) h (notEnd rfl)
  · exact OrderlyEnd.withErrno (s := s.enter state) h _
  · exact h

theorem serverTimerProc_attentive {s : Server} (h : Attentive s) (sent : Bool) :
    Attentive (s.serverTimerProc sent) := by
  have hlogged : Attentive (s.log (.timerExpired .duration)) := h.log (notEnd rfl) fun _ => rfl
  unfold Server.serverTimerProc
  dsimp only
  split_ifs
  · exact ⟨hlogged.orderly, hlogged.counting, hlogged.unended⟩
  · generalize s.log (.timerExpired .duration) = u at hlogged
    have hexpired : OrderlyEnd (u.announceExpiry sent).calls := by
      have hsent := setSendState_orderly (s := { u with done := true, timer := false })
        hlogged.orderly sent .serverError
      unfold Server.announceExpiry
      dsimp only
      split_ifs
      · exact hsent.withErrno _
      · exact hsent
    apply Attentive.of_idle
    · exact hexpired.append (notEnd rfl)
    · simp only [Server.log, inPeriod_append]
      rfl
    · exact announceExpiry_left (fun hstate => (hlogged.unended (Or.inl hstate)).1) (by decide) sent
    · exact announceExpiry_left (fun hstate => (hlogged.unended (Or.inr hstate)).1) (by decide) sent

theorem orderRules (b : Build) :
    ServerRules b InOrder Attentive (fun s => OrderlyEnd s.calls) (fun s => OrderlyEnd s.calls)
      (fun s => OrderlyEnd s.calls) where
  listens s h := by
    apply Attentive.of_idle
    · exact h.append (notEnd rfl)
    · simp only [Process.listening, Server.log, inPeriod_append]
      rfl
    · rintro ⟨⟩
    · rintro ⟨⟩
  noLogfile s h := h
  startFails code s h := h.withErrno code
  traffic update s h := ⟨h.orderly, h.counting, h.unended⟩
  worker i error s h := by
    cases error with
    | none => exact h.log (notEnd rfl) fun _ => rfl
    | some code => exact (h.withErrno code).log (notEnd rfl) fun _ => rfl
  timer timer s hduration h := h.log (notEnd rfl) fun _ => rfl
  expire sent s hC htimer h := serverTimerProc_attentive h sent
  turn env s hC hdone h := by
    apply serverTurn_rule (E := fun u => OrderlyEnd u.calls) h
    · exact fun _ _ _ _ hs => hs.orderly.withErrno _
    · exact fun hs => ⟨hs.orderly, hs.counting, hs.unended⟩
    · exact fun hfree _ accept _ _ => acceptClient_attentive accept h hfree
    · intro hctrl message hmessage
      have hstart : ∀ value, message.read = .byte value →
          TestState.ofByte value = .testStart → s.state ≠ .testRunning :=
        fun value hread => (hC hctrl message value hmessage hread).2
      have hend : ∀ value, message.read = .byte value →
          TestState.ofByte value = .testEnd → s.state = .testRunning :=
        fun value hread => (hC hctrl message value hmessage hread).1
      have htriple := handleMessageServer_attentive hstart hend
      refine htriple.weaken (fun u hu => ⟨hu.1, ?_⟩) (fun _ hu => hu) fun _ hu => hu
      rcases hu.2 with rfl | rfl <;> rfl
    · exact fun hstate data _ => (acceptStream_attentive data).weaken
        (fun u hu => hu ▸ ⟨h, hstate⟩) (fun _ hu => hu) fun _ hu => hu
    · exact startTest_attentive env.start
  rateExceeded sent s hC hdone h := by
    have hraised : OrderlyEnd (s.withErrno .ieTotalRate).calls := h.orderly.withErrno _
    exact setSendState_orderly hraised sent _
  selectFails s hC hdone h := h.orderly
  idleTimeout oneOff s hC hstart h := h.orderly.log (notEnd rfl)
  noMessage s hC hquiet h := h.orderly.withErrno _
  finish jsonFinished affinityCleared s hC hjson hdone h := h.orderly
  noJson affinityCleared s hC hjson hdone h := h.orderly
  cleanup s h := h.cleanupServer
  late s h := h.withErrno _
  reset s h := h.append (notEnd rfl)
  exits s h := h

/-- Every byte that is received in the loop is counted if and only if the
server is between sending `TEST_RUNNING` and the end of the test. -/
def CountsPeriod (p : Process) : Prop :=
  p.phase = .running → ∀ r result,
    (iperfTcpRecv p.server.state r result).bytesReceived =
      result.bytesReceived + if inPeriod p.server.calls then r else 0

theorem Attentive.countsPeriod {s : Server} (h : Attentive s) :
    CountsPeriod ⟨s, .running⟩ := by
  intro _ r result
  by_cases hrunning : s.state = .testRunning
  · simp [iperfTcpRecv, hrunning, h.counting.mp hrunning]
  · have hidle : inPeriod s.calls = false := by simpa [h.counting] using hrunning
    simp [iperfTcpRecv, hrunning, hidle]

/-- If the client sends `TEST_END` only in `TEST_RUNNING`, and there no
`TEST_START`, the end of a test is handled at most once and in the right
state, and data is counted exactly until then. -/
theorem control_messages_in_order
    (b : Build) (side : TestSide) {events : List ServerEvent}
    (hrun : (serverProcess side).Meets b InOrder events) :
    OrderlyEnd ((serverProcess side).run b events).server.calls ∧
      CountsPeriod ((serverProcess side).run b events) := by
  have hstart : (serverProcess side).Holds Attentive (fun s => OrderlyEnd s.calls)
      (fun s => OrderlyEnd s.calls) := always_nil _
  have hend := (orderRules b).run hstart hrun
  generalize (serverProcess side).run b events = p at hend
  obtain ⟨s, phase⟩ := p
  cases phase with
  | running => exact ⟨Attentive.orderly hend, Attentive.countsPeriod hend⟩
  | between => exact ⟨hend, nofun⟩
  | returned rc => exact ⟨hend, nofun⟩
  | exited => exact ⟨hend, nofun⟩

/-! ## Messages out of order -/

/-- A message of the client with this state byte. -/
def clientSends (state : TestState) (results : Option Json) : ServerEvent :=
  .turn ⟨none, some (.ok state.toByte results), none, .ok (IperfTime.ofCounters 0 0) 1⟩

theorem control_messages_in_order_completed :
    OrderlyEnd ((defaultServer Build.linux).run Build.linux completedTest).server.calls ∧
      CountsPeriod ((defaultServer Build.linux).run Build.linux completedTest) := by
  apply control_messages_in_order
  have hsilent : ∀ (s : Server) (env : TurnEnv), env.control = none → InOrder s (.turn env) := by
    intro s env hnone _ message value hmessage
    exact absurd (hnone.symm.trans hmessage) (by simp)
  have hsends : ∀ (s : Server) (state : TestState) (results : Option Json),
      TestState.ofByte state.toByte = state → state ≠ .testStart →
      (state = .testEnd → s.state = .testRunning) → InOrder s (clientSends state results) := by
    intro s state results hbyte hne hend _ message value hmessage hread
    obtain rfl := Option.some.inj hmessage
    obtain rfl := ControlRead.byte.inj hread
    rw [hbyte]
    exact ⟨hend, fun h => absurd h hne⟩
  refine ⟨fun _ => trivial, fun _ => hsilent _ _ rfl, fun _ => hsilent _ _ rfl,
    fun _ => hsends _ .testEnd _ rfl nofun fun _ => ?_,
    fun _ => hsends _ .iperfDone _ rfl nofun nofun,
    fun _ => trivial, trivial⟩
  decide +kernel

/-- A client that sends `TEST_END` twice has its test ended twice, the second
time in `DISPLAY_RESULTS`, and one that sends `TEST_START` in `TEST_RUNNING`
stops the counting. -/
theorem messages_out_of_order :
    ¬ OrderlyEnd ((defaultServer Build.linux).run Build.linux
        (startedTest ++ [clientSends .testEnd (some exampleResults),
          clientSends .testEnd (some exampleResults)])).server.calls ∧
      ¬ CountsPeriod ((defaultServer Build.linux).run Build.linux
        (startedTest ++ [clientSends .testStart none])) := by
  constructor
  · intro h
    have hsecond := h (((defaultServer Build.linux).run Build.linux
      (startedTest ++ [clientSends .testEnd (some exampleResults),
        clientSends .testEnd (some exampleResults)])).server.calls.take 25)
          (.endOfTest .displayResults) (by decide +kernel) .displayResults rfl
    exact absurd hsecond.1 (by decide)
  · intro h
    have hstopped := h (by decide +kernel) 1 (iperfNewStream true []).result
    revert hstopped
    decide +kernel

end Iperf3
