import Iperf3.WorkerLifetime
import Mathlib.Tactic

/-!
# Connections of strangers

While the server has a client, every other connection arrives at the listener
that also serves the data connections of a TCP test.  Which code handles it
depends on the state: outside `CREATE_STREAMS` it is told that access is
denied; in `CREATE_STREAMS` it is taken for a data connection until its
cookie has been read.
-/

namespace Iperf3

/-! ## Reachable states -/

/-- The stream numbers are those of the client in place. -/
def StreamsNumbered (s : Server) : Prop :=
  s.ctrlSck = true →
    s.streamsToRec = s.test.mode.streamsToRec s.test.numStreams ∧
      s.streamsToSend = s.test.mode.streamsToSend s.test.numStreams

/-- A server that waits for data connections has a client. -/
def Connected (s : Server) : Prop :=
  s.state = .createStreams → s.ctrlSck = true

/-- What holds before each `select`; the last part says that a server with all
its streams no longer waits for one. -/
structure Waiting (s : Server) : Prop where
  numbered : StreamsNumbered s
  connected : Connected s
  incomplete : s.state = .createStreams → s.streamsComplete = false

theorem StreamsNumbered.setStreamNumbers_eq
    {s : Server} (h : StreamsNumbered s) (hc : s.ctrlSck = true) : setStreamNumbers s = s := by
  obtain ⟨hrec, hsend⟩ := h hc
  unfold setStreamNumbers
  rw [← hrec, ← hsend]

theorem Frame.numbered {old s : Server} (h : Frame old s) (hold : StreamsNumbered old) :
    StreamsNumbered s := by
  intro hc
  obtain ⟨hrec, hsend⟩ := hold (h.ctrlSck hc)
  rw [h.streamsToRec hc, h.streamsToSend hc, h.mode hc, h.numStreams hc]
  exact ⟨hrec, hsend⟩

/-! ### Calls that succeed -/

/-- From `P`, a call that succeeds leads to `Q`. -/
def Yields (P : Server → Prop) (f : Server → Server × Bool) (Q : Server → Prop) : Prop :=
  ∀ s, P s → (f s).2 = true → Q (f s).1

section Yields

variable {P Q R : Server → Prop} {f g : Server → Server × Bool}

theorem Yields.apply
    (hf : Yields P f Q) {r : Server × Bool} (hr : r.2 = true → P r.1)
    (h : (Iperf3.andThen f r).2 = true) : Q (Iperf3.andThen f r).1 := by
  unfold Iperf3.andThen at h ⊢
  split_ifs at h ⊢ with hok
  · exact hf _ (hr hok) h
  · exact absurd h hok

theorem Yields.andThen (hf : Yields P f Q) (hg : Yields Q g R) :
    Yields P (fun s => andThen g (f s)) R :=
  fun s hs => hg.apply (hf s hs)

theorem yields_check (ok : Bool) (code : IErrno) :
    Yields P (fun s => s.check ok code) P := by
  intro s hs h
  dsimp only at h ⊢
  unfold Server.check at h ⊢
  split_ifs at h ⊢
  exact hs

theorem yields_checkLate (ok : Bool) (code : IErrno) :
    Yields P (fun s => s.checkLate ok code) P := by
  intro s hs h
  dsimp only at h ⊢
  unfold Server.checkLate at h ⊢
  split_ifs at h ⊢
  exact hs

end Yields

theorem setSendState_yields (sent : Bool) (state : TestState) :
    Yields (fun s => s.ctrlSck = true) (fun s => s.setSendState sent state)
      (fun s => s.ctrlSck = true ∧ s.state = state) := by
  intro s hs h
  dsimp only at hs h ⊢
  unfold Server.setSendState at h ⊢
  rw [if_pos hs] at h ⊢
  split_ifs at h ⊢
  exact ⟨hs, rfl⟩

/-! ### The listener -/

theorem iperfAccept_ctrlSck (b : Build) (env : AcceptEnv) :
    Yields (fun _ => True) (iperfAccept b env) (fun s => s.ctrlSck = true) := by
  refine (yields_check _ _).andThen ?_
  intro s _ _
  dsimp only
  split_ifs with hc
  · exact hc
  · exact acceptClient_keeps (P := fun s => s.ctrlSck = true) (fun _ _ _ h => h) (fun _ _ h => h)
      (fun _ _ h => h) (fun _ _ h => h) (fun _ _ _ _ h => h) env (fun _ _ h => h)
      (getParameters_keeps (fun _ _ h => h) (fun _ _ h => h) env.message) (fun _ h => h) rfl

theorem turnListener_ok (b : Build) (env : TurnEnv) :
    Yields (fun s => StreamsNumbered s ∧ Connected s) (turnListener b env)
      (fun s => StreamsNumbered s ∧ Connected s) := by
  intro s hs h
  unfold turnListener at h ⊢
  split at h
  · rename_i accept _
    split_ifs at h ⊢ with hstate
    · exact hs
    · have hnumbers : Yields (fun s => s.ctrlSck = true)
          (fun s => (setStreamNumbers s, true))
          (fun s => StreamsNumbered s ∧ Connected s) :=
        fun s hc _ => ⟨fun _ => ⟨rfl, rfl⟩, fun _ => hc⟩
      exact ((iperfAccept_ctrlSck b accept).andThen hnumbers) s trivial h
  · exact hs

/-! ### The data connections -/

theorem startTest_running (env : StartEnv) :
    Yields (fun s => s.ctrlSck = true) (startTest env) (fun s => s.state = .testRunning) := by
  have hreopen : Yields (fun s => s.ctrlSck = true) (fun s => s.announceStart env)
      (fun s => s.ctrlSck = true) :=
    fun s hs h => yields_checkLate (P := fun s => s.ctrlSck = true) _ _ _ hs h
  have hrate : Yields (fun s => s.ctrlSck = true) (fun s => s.checkLate
      (!s.test.exceedsBitrateLimit s.test.settings.rate) .ieTotalRate)
      (fun s => s.ctrlSck = true) :=
    fun s hs h => yields_checkLate (P := fun s => s.ctrlSck = true) _ _ s hs h
  have hstart : Yields (fun s => s.ctrlSck = true)
      (fun s => s.setSendState env.sentTestStart .testStart) (fun s => s.ctrlSck = true) :=
    fun s hs h => (setSendState_yields _ _ s hs h).1
  have htimers : Yields (fun s => s.ctrlSck = true)
      (fun s => createServerTimers env (s.stampStreams env.now))
      (fun s => s.ctrlSck = true) := by
    intro s hs _
    exact createServerTimers_keeps (P := fun s => s.ctrlSck = true) (fun _ _ _ h => h)
      (fun _ _ h => h) (fun _ _ _ h => h) (fun _ _ _ h => h) env _ hs
  have hrunning : Yields (fun s => s.ctrlSck = true)
      (fun s => s.setSendState env.sentTestRunning .testRunning)
      (fun s => s.state = .testRunning) :=
    fun s hs h => (setSendState_yields _ _ s hs h).2
  exact ((((hreopen.andThen hrate).andThen hstart).andThen
    (yields_check _ _)).andThen htimers).andThen hrunning

theorem createWorkers_ne_createStreams (env : StartEnv) :
    Keeps (fun s : Server => s.state ≠ .createStreams) (createWorkers env) := by
  have htolerate : ∀ (ok : Bool) (code : IErrno) (s : Server), s.state ≠ .createStreams →
      (s.tolerate ok code).state ≠ .createStreams := by
    intro ok code s hs
    unfold Server.tolerate Server.cleanupServer
    split_ifs
    · exact hs
    · simp [Server.log]
    · exact hs
  have hspawn : Keeps (fun s : Server => s.state ≠ .createStreams) (fun s =>
      ((s.tolerate env.attrInit .iePthreadAttrInit).spawn env.threads).check
        (s.streams.length ≤ env.threads) .iePthreadCreate) := by
    intro s hs
    have hfirst := htolerate env.attrInit .iePthreadAttrInit s hs
    dsimp only
    unfold Server.check
    split_ifs <;> exact hfirst
  exact hspawn.andThen fun s hs => htolerate _ _ s hs

/-! ### Runs -/

theorem turnStreams_waiting (b : Build) (env : TurnEnv) :
    Yields (fun s => StreamsNumbered s ∧ Connected s) (turnStreams b env) Waiting := by
  intro s hs h
  have hnumbered := ((turnStreams_frame s b env) s (Frame.refl s)).numbered hs.1
  suffices hrest : Connected (turnStreams b env s).1 ∧
      ((turnStreams b env s).1.state = .createStreams →
        (turnStreams b env s).1.streamsComplete = false) from
    ⟨hnumbered, hrest.1, hrest.2⟩
  unfold turnStreams at h ⊢
  split_ifs at h ⊢ with hstate
  · have hdata : Yields (fun u => u.ctrlSck = true) (turnData b env)
        (fun u => u.ctrlSck = true) := by
      intro u hu h
      unfold turnData at h ⊢
      split at h
      · exact (acceptStream_keeps_state _ h).2.trans hu
      · exact hu
    have hstart : Yields (fun u => u.ctrlSck = true) (fun s =>
        if s.streamsComplete then startTest env.start s |> andThen (createWorkers env.start)
        else (s, true))
        (fun u => Connected u ∧ (u.state = .createStreams → u.streamsComplete = false)) := by
      intro u hu h
      dsimp only at h ⊢
      split_ifs at h ⊢ with hcomplete
      · have hworkers : Yields (fun s => s.state = .testRunning) (createWorkers env.start)
            (fun s => s.state ≠ .createStreams) :=
          fun s hs _ => createWorkers_ne_createStreams env.start s (by simp [hs])
        have hne := ((startTest_running env.start).andThen hworkers) u hu h
        exact ⟨fun hs => absurd hs hne, fun hs => absurd hs hne⟩
      · exact ⟨fun _ => hu, fun _ => by simpa using hcomplete⟩
    exact (hdata.andThen hstart) s (hs.2 hstate) h
  · exact ⟨hs.2, fun hs => absurd hs hstate⟩

theorem serverTurn_waiting (b : Build) (env : TurnEnv) :
    Yields Waiting (serverTurn b env) Waiting := by
  intro s hs
  have hcontrol : Yields (fun s => StreamsNumbered s ∧ Connected s)
      (turnControl (env.ready s)) (fun s => StreamsNumbered s ∧ Connected s) := by
    intro u hu h
    have hnumbered := ((turnControl_frame u (env.ready s)) u (Frame.refl u)).numbered hu.1
    refine ⟨hnumbered, ?_⟩
    unfold turnControl at h ⊢
    split at h
    · intro hstate
      exact absurd hstate ((handleMessageServer_ne_createStreams _ u trivial).1 h)
    · exact hu.2
  exact (((turnListener_ok b (env.ready s)).andThen hcontrol).andThen
    (turnStreams_waiting b (env.ready s))) s ⟨hs.numbered, hs.connected⟩

theorem Waiting.serverTimerProc {s : Server} (h : Waiting s) (sent : Bool) :
    Waiting (s.serverTimerProc sent) := by
  unfold Server.serverTimerProc
  dsimp only
  split_ifs with hdone
  · exact ⟨h.numbered, h.connected, h.incomplete⟩
  · -- the server error is announced only over a control connection
    have hconnected : Connected (s.log (.timerExpired .duration)) := h.connected
    have hstate := announceExpiry_left hconnected (by decide) sent
    exact ⟨nofun, fun hs => absurd hs hstate, fun hs => absurd hs hstate⟩

/-- Between two tests there is no client. -/
theorem waitingRules (b : Build) :
    ServerRules b (fun _ _ => True) Waiting (fun _ => True) (fun _ => True)
      (fun s => s.ctrlSck = false) where
  listens s h := ⟨fun hc => absurd (h.symm.trans hc) (by simp), nofun, nofun⟩
  noLogfile s h := trivial
  startFails code s h := trivial
  traffic update s h := ⟨h.numbered, h.connected, h.incomplete⟩
  worker i error s h := by
    cases error <;> exact ⟨h.numbered, h.connected, h.incomplete⟩
  timer timer s hduration h := ⟨h.numbered, h.connected, h.incomplete⟩
  expire sent s hC htimer h := h.serverTimerProc sent
  turn env s hC hdone h := ⟨serverTurn_waiting b env s h, fun _ => trivial⟩
  rateExceeded sent s hC hdone h := trivial
  selectFails s hC hdone h := trivial
  idleTimeout oneOff s hC hstart h := trivial
  noMessage s hC hquiet h := trivial
  finish jsonFinished affinityCleared s hC hjson hdone h := trivial
  noJson affinityCleared s hC hjson hdone h := trivial
  cleanup s h := trivial
  late s h := trivial
  reset s h := rfl
  exits s h := trivial

/-- What holds of the process at every moment. -/
def Orderly (p : Process) : Prop :=
  p.Holds Waiting (fun _ => True) (fun s => s.ctrlSck = false)

theorem Orderly.step {b : Build} {p : Process} (h : Orderly p) (event : ServerEvent) :
    Orderly (p.step b event) :=
  (waitingRules b).step h fun _ => trivial

/-! ## Strangers -/

/-- A connection that is not the client's, in a turn in which the client may
also have sent a message.  Whether the connection is taken for a control or a
data connection is up to the server, so it comes with both. -/
structure Stranger where
  accept : AcceptEnv
  data : StreamEnv
  control : Option MessageEnv
  start : StartEnv

namespace Stranger

/-- The turn in which the connection is pending. -/
def event (x : Stranger) : ServerEvent :=
  .turn ⟨some x.accept, x.control, some x.data, x.start⟩

/-- What is left of this turn without the connection. -/
def rest (x : Stranger) : List ServerEvent :=
  match x.control with
  | some message => [.turn ⟨none, some message, none, x.start⟩]
  | none => []

/-- In `CREATE_STREAMS` the cookie of the connection is read, and differs from
the test's in front of the first zero byte. -/
def Refused (b : Build) (s : Server) (x : Stranger) : Prop :=
  x.data.accepted = true ∧
    (∃ cookie, x.data.cookie = .bytes cookie ∧ sameCookie s.cookie cookie = false) ∧
    s.test.settings.tos = 0 ∧
    (b.windows = true → x.data.staleEbadf = true)

/-- The server has a client and a TCP test, and can refuse the connection. -/
structure Harmless (b : Build) (s : Server) (x : Stranger) : Prop where
  busy : s.ctrlSck = true
  tcp : s.test.protocol = .tcp
  denied : s.state ≠ .createStreams → x.accept.accepted = true
  refused : s.state = .createStreams → x.control = none → x.Refused b s

end Stranger

theorem turnListener_busy
    {b : Build} {env : TurnEnv} {s : Server} (hs : Waiting s) (hbusy : s.ctrlSck = true)
    (haccept : ∀ accept, env.listener = some accept →
      s.state ≠ .createStreams → accept.accepted = true) :
    turnListener b env s = (s, true) := by
  unfold turnListener
  split
  · rename_i accept hlistener
    split_ifs with hstate
    · rfl
    · have haccepted := haccept accept hlistener hstate
      simp [iperfAccept, Server.check, andThen, haccepted, hbusy,
        hs.numbered.setStreamNumbers_eq hbusy]
  · rfl

theorem acceptStream_refused
    {b : Build} {s : Server} {x : Stranger}
    (htcp : s.test.protocol = .tcp) (hrefused : x.Refused b s) :
    acceptStream b x.data s = (s, true) := by
  obtain ⟨haccepted, ⟨cookie, hcookie, hother⟩, htos, hwindows⟩ := hrefused
  have hclosed : isClosed b x.data true = true := by
    unfold isClosed
    cases hw : b.windows with
    | false => rfl
    | true => simp [hwindows hw]
  simp [acceptStream, protocolAccept, iperfTcpAccept, Server.noteAccept, htcp, haccepted, hcookie,
    hother, htos,
    Server.check, andThen, hclosed]

/-- A harmless connection leaves what the turn does without it. -/
theorem serverTurn_stranger
    {b : Build} {s : Server} {x : Stranger} (hs : Waiting s) (hx : x.Harmless b s) :
    serverTurn b ⟨some x.accept, x.control, some x.data, x.start⟩ s =
      serverTurn b ⟨none, x.control, none, x.start⟩ s := by
  have hcontrol : turnControl (TurnEnv.ready ⟨some x.accept, x.control, some x.data, x.start⟩ s) s =
      turnControl (TurnEnv.ready ⟨none, x.control, none, x.start⟩ s) s := by
    simp only [turnControl, TurnEnv.ready]
  have hwith : turnListener b
      (TurnEnv.ready ⟨some x.accept, x.control, some x.data, x.start⟩ s) s = (s, true) := by
    apply turnListener_busy hs hx.busy
    intro accept haccept hstate
    have hsame : x.accept = accept := by simpa [TurnEnv.ready] using haccept
    rw [← hsame]
    exact hx.denied hstate
  have hwithout : turnListener b (TurnEnv.ready ⟨none, x.control, none, x.start⟩ s) s =
      (s, true) := by
    apply turnListener_busy hs hx.busy
    intro accept haccept
    simp [TurnEnv.ready] at haccept
  unfold serverTurn
  rw [hwith, hwithout]
  simp only [andThen, if_true, hcontrol]
  split_ifs with hok
  · cases hmessage : x.control with
    | some message =>
        -- after a message the server waits for no data connection
        have hne : (turnControl (TurnEnv.ready ⟨none, x.control, none, x.start⟩ s) s).1.state ≠
            .createStreams := by
          have hturn : turnControl (TurnEnv.ready ⟨none, x.control, none, x.start⟩ s) s =
              handleMessageServer message s := by
            simp [turnControl, TurnEnv.ready, hx.busy, hmessage]
          rw [hturn] at hok ⊢
          exact (handleMessageServer_ne_createStreams message s trivial).1 hok
        rw [hmessage] at hne
        unfold turnStreams
        rw [if_neg hne, if_neg hne]
    | none =>
        have hturn : turnControl (TurnEnv.ready ⟨none, none, none, x.start⟩ s) s = (s, true) := by
          simp [turnControl, TurnEnv.ready]
        rw [hturn]
        unfold turnStreams
        split_ifs with hstate
        · have hwaits : s.state = .createStreams := hstate
          have hrefused := acceptStream_refused hx.tcp (hx.refused hwaits hmessage)
          simp [turnData, TurnEnv.ready, hwaits, hrefused]
        · rfl
  · rfl

/-- Without a message, nothing is left of the turn at all. -/
theorem serverTurn_empty
    {b : Build} {s : Server} (hs : Waiting s) (start : StartEnv) :
    serverTurn b ⟨none, none, none, start⟩ s = (s, true) := by
  by_cases hstate : s.state = .createStreams
  · simp [serverTurn, turnListener, turnControl, turnStreams, turnData, TurnEnv.ready, andThen,
      hstate, hs.incomplete hstate]
  · simp [serverTurn, turnListener, turnControl, turnStreams, TurnEnv.ready, andThen, hstate]

theorem step_stranger
    {b : Build} {p : Process} {x : Stranger} (h : Orderly p)
    (hx : p.phase = .running → x.Harmless b p.server) :
    p.step b x.event = p.run b x.rest := by
  obtain ⟨s, phase⟩ := p
  cases phase with
  | running =>
      have hs : Waiting s := h
      have hturn := serverTurn_stranger hs (hx rfl)
      have hevent : Process.step b ⟨s, .running⟩ x.event =
          if s.state = .iperfDone ∨ s.readSetStale then ⟨s, .running⟩
          else Process.afterTurn (serverTurn b ⟨none, x.control, none, x.start⟩ s) := by
        rw [← hturn]
        rfl
      rw [hevent]
      unfold Stranger.rest
      cases hmessage : x.control with
      | some message => rfl
      | none =>
          rw [serverTurn_empty hs]
          simp [Process.afterTurn, Process.run]
  | between => unfold Stranger.rest; split <;> rfl
  | returned rc => unfold Stranger.rest; split <;> rfl
  | exited => unfold Stranger.rest; split <;> rfl

/-! ## Runs with strangers -/

inductive Arrival where
  | own (event : ServerEvent)
  | stranger (x : Stranger)

def Arrival.event : Arrival → ServerEvent
  | .own event => event
  | .stranger x => x.event

/-- The same moment if the stranger had stayed away. -/
def Arrival.undisturbed : Arrival → List ServerEvent
  | .own event => [event]
  | .stranger x => x.rest

/-- Every stranger of the run comes at a moment at which it is harmless. -/
def HarmlessRun (b : Build) (p : Process) : List Arrival → Prop
  | [] => True
  | .own event :: arrivals => HarmlessRun b (p.step b event) arrivals
  | .stranger x :: arrivals =>
      (p.phase = .running → x.Harmless b p.server) ∧
        HarmlessRun b (p.step b x.event) arrivals

theorem run_harmless
    {b : Build} {arrivals : List Arrival} {p : Process}
    (h : Orderly p) (hrun : HarmlessRun b p arrivals) :
    p.run b (arrivals.map Arrival.event) = p.run b (arrivals.flatMap Arrival.undisturbed) := by
  induction arrivals generalizing p with
  | nil => rfl
  | cons arrival arrivals ih =>
      cases arrival with
      | own event => exact ih (h.step event) hrun
      | stranger x =>
          have hstep := step_stranger h hrun.1
          calc p.run b ((Arrival.stranger x :: arrivals).map Arrival.event)
              = (p.step b x.event).run b (arrivals.map Arrival.event) := rfl
            _ = (p.step b x.event).run b (arrivals.flatMap Arrival.undisturbed) :=
                ih (h.step x.event) hrun.2
            _ = (p.run b x.rest).run b (arrivals.flatMap Arrival.undisturbed) := by rw [hstep]
            _ = p.run b (x.rest ++ arrivals.flatMap Arrival.undisturbed) := by
                simp [Process.run, List.foldl_append]

/-- A connection on which this is read in place of the cookie. -/
def strangerReading (cookie : CookieRead) : Stranger where
  accept := .ok exampleCookie none
  data := { StreamEnv.ok exampleCookie [] with cookie := cookie }
  control := none
  start := .ok (IperfTime.ofCounters 0 0) 1

/-- A client connects, and its data connection is still to come. -/
def connectingClient : List ServerEvent := startedTest.take 2

/-- One stranger sends nothing in `CREATE_STREAMS`, another one comes during
the test. -/
def visitedTest : List Arrival :=
  connectingClient.map .own ++ [.stranger (strangerReading (.bytes []))] ++
    (startedTest.drop 2).map .own ++ [.stranger (strangerReading .hardError)]

end Iperf3
