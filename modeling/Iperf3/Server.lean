import Iperf3.Results
import Iperf3.Sequence
import Iperf3.TestModel
import Mathlib.Tactic

/-!
# The server process

The loop of `iperf_run_server` and the loop of `main` around it, as a
transition function on events.  An event says what the system calls of one
turn return: which descriptors are readable, what is read from them, and
which calls fail.  Everything that happens between two calls of `select` is
one event, except that the expiry of the test-duration timer, which ends a
turn, is an event of its own.
-/

namespace Iperf3

inductive ServerTimer where
  | duration
  | omitPeriod
  | stats
  | reporter
  deriving DecidableEq, Repr

/-- An error code that a failing function has set.  No function sets
`IEAUTHTEST`. -/
abbrev ErrorCode : Type := { code : IErrno // code ≠ .ieNone ∧ code ≠ .ieAuthTest }

theorem ieStreamConnect_isError :
    IErrno.ieStreamConnect ≠ .ieNone ∧ IErrno.ieStreamConnect ≠ .ieAuthTest := by
  decide

/-- How the `listen` function of a protocol ends. -/
inductive Listening where
  | listens
  | fails (code : ErrorCode)
  | bindxFails
  deriving DecidableEq

def Listening.error : Listening → Option ErrorCode
  | .listens => none
  | .fails code => some code
  | .bindxFails => some ⟨.ieSetSctpBindx, by decide⟩

/-- How `test_is_authorized` ends. -/
inductive Authorization where
  | notConfigured
  | granted
  | missingToken
  | undecodableToken
  | clockSkew
  | unknownUser
  | wrongPassword
  deriving DecidableEq, Repr

def Authorization.ok : Authorization → Bool
  | .notConfigured | .granted => true
  | _ => false

inductive ControlRead where
  | closed
  | failed
  | byte (value : UInt8)
  deriving DecidableEq, Repr

/-- The calls that concern error codes, sockets, timers and threads.  A data
connection that is accepted and closed at once is not among them. -/
inductive ServerCall where
  | raised (code : IErrno)
  | sent (state : TestState)
  | serverListen
  | accepted
  | testIsAuthorized (outcome : Authorization)
  | protocolListen (protocol : ProtocolId) (recreates : Bool) (listening : Listening)
  | dataAccepted (protocol : ProtocolId)
  | dataClosed
  | udpListenerLost (reopened : Bool)
  | newStream
  | streamsComplete (protocol : ProtocolId) (reopens ok : Bool)
  | forgetTimer (timer : ServerTimer)
  | createTimer (timer : ServerTimer) (created : Bool)
  | spawned (threads : ℕ)
  | controlRead (read : ControlRead)
  | endOfTest (state : TestState)
  | streamsClosed
  | timerExpired (timer : ServerTimer)
  | streamsFreed
  | cleanup (reported : Option IErrno)
  | idleRestart
  | workerReturned (i : ℕ)
  | reset
  deriving DecidableEq

/-- The server's test with the members that its loop works on.  The last two
components are records: every stream that was passed to `iperf_free_stream`,
as it was then, and the calls in their order. -/
structure Server extends TestSide where
  state : TestState
  ctrlSck : Bool
  protListener : Bool
  cookie : List UInt8
  done : Bool
  timer : Bool
  recStreamsAccepted : ℤ
  sendStreamsAccepted : ℤ
  streamsToRec : ℤ
  streamsToSend : ℤ
  freed : List Stream
  calls : List ServerCall

namespace Server

def log (call : ServerCall) (s : Server) : Server :=
  { s with calls := s.calls ++ [call] }

def withErrno (code : IErrno) (s : Server) : Server :=
  { s with test := { s.test with iErrno := code } }.log (.raised code)

/-- Without a control connection nothing is sent and the state stays. -/
def setSendState (sent : Bool) (state : TestState) (s : Server) : Server × Bool :=
  if s.ctrlSck then
    if sent then ({ s with state := state }.log (.sent state), true)
    else ({ s with state := state }.withErrno .ieSendMessage, false)
  else (s, true)

def freeStreams (s : Server) : Server :=
  { s with streams := [], freed := s.freed ++ s.streams }

/-- The error code that the client is told when the server cleans up. -/
def reported (s : Server) : Option IErrno :=
  if s.test.iErrno ≠ .ieNone ∧ s.ctrlSck then some s.test.iErrno else none

/-- Every worker is cancelled and joined before anything is closed. -/
def cleanupServer (s : Server) : Server :=
  log (.cleanup s.reported)
    { s with
      state := if s.test.iErrno ≠ .ieNone ∧ s.ctrlSck then .serverError else s.state
      streams := s.streams.map fun sp => { sp with done := true, threadCreated := false }
      ctrlSck := false
      protListener := false
      timer := false
      test := s.test.cleanupServer }

/-- The client is told that the test has taken too long. -/
def announceExpiry (sent : Bool) (s : Server) : Server :=
  let r := { s with done := true, timer := false }.setSendState sent .serverError
  if r.2 then r.1.withErrno .ieServerTestDurationExpired else r.1

/-- The control connection is closed, but its descriptor is still in
`read_set`: no `select` succeeds until the server listens again. -/
def readSetStale (s : Server) : Bool :=
  !s.ctrlSck && s.state ≠ .iperfStart

/-- The expiry of the test-duration timer.  The streams are freed here without
a look at their workers, and the control connection is closed without a look
at `read_set`. -/
def serverTimerProc (sent : Bool) (s : Server) : Server :=
  let s := s.log (.timerExpired .duration)
  if s.done then { s with timer := false }
  else { (s.announceExpiry sent).freeStreams.log .streamsFreed with ctrlSck := false }

end Server

/-- A failing call gives the error code and ends the sequence. -/
def Server.check (ok : Bool) (code : IErrno) (s : Server) : Server × Bool :=
  if ok then (s, true) else (s.withErrno code, false)

/-- A failure that is given its error code only after the cleanup. -/
def Server.checkLate (ok : Bool) (code : IErrno) (s : Server) : Server × Bool :=
  if ok then (s, true) else (s.cleanupServer.withErrno code, false)

def Server.checkError (error : Option ErrorCode) (s : Server) : Server × Bool :=
  match error with
  | none => (s, true)
  | some code => (s.withErrno code, false)

/-! ## A connection for the control channel -/

structure AcceptEnv where
  accepted : Bool
  socketOptions : Option ErrorCode
  cookie : Option (List UInt8)
  sentParamExchange : Bool
  message : Option Json
  authorization : Authorization
  listening : Listening
  sentCreateStreams : Bool
  affinitySet : Bool

/-- The error code that a function on the record has left. -/
def Server.noteErrno (before : IErrno) (ok : Bool) (s : Server) : Server :=
  if s.test.iErrno ≠ before ∨ ok = false then s.log (.raised s.test.iErrno) else s

/-- `get_parameters` on the server's record. -/
def Server.getParameters (b : Build) (message : Option Json) (s : Server) :
    Server × Bool :=
  let r := Iperf3.getParameters b message s.test
  ({ s with test := r.1 }.noteErrno s.test.iErrno r.2, r.2)

/-- Socket options of the test replace the listener of a TCP test. -/
def Server.recreatesListener (s : Server) : Bool :=
  s.test.noDelay ≠ 0 || s.test.mptcp ≠ 0 || s.test.settings.mss ≠ 0 ||
    s.test.settings.socketBufsize ≠ 0

/-- The `listen` function of the protocol. -/
def Server.protocolListen (listening : Listening) (s : Server) : Server × Bool :=
  (s.log (.protocolListen s.test.protocol s.recreatesListener listening)).checkError
    listening.error

def Server.openProtListener (s : Server) : Server :=
  { s with protListener := true }

def Server.testIsAuthorized (outcome : Authorization) (s : Server) : Server × Bool :=
  (s.log (.testIsAuthorized outcome), outcome.ok)

def exchangeParameters (b : Build) (env : AcceptEnv) (s : Server) : Server × Bool :=
  s.getParameters b env.message
  |> andThen (fun s => s.testIsAuthorized env.authorization)
  |> andThen (fun s => s.protocolListen env.listening)
  |> andThen (fun s =>
    s.openProtListener.setSendState env.sentCreateStreams .createStreams)

def Server.readCookie (cookie : Option (List UInt8)) (s : Server) : Server × Bool :=
  match cookie with
  | some cookie => ({ s with cookie := cookie }, true)
  | none => (s.withErrno .ieRecvCookie, false)

def Server.takeControl (s : Server) : Server :=
  { s with ctrlSck := true }.log .accepted

/-- The server is free and this connection becomes its client. -/
def acceptClient (b : Build) (env : AcceptEnv) (s : Server) : Server × Bool :=
  s.takeControl.checkError env.socketOptions
  |> andThen (fun s => s.readCookie env.cookie)
  |> andThen (fun s => s.setSendState env.sentParamExchange .paramExchange)
  |> andThen (exchangeParameters b env)
  |> andThen (fun s =>
    s.check (s.test.serverAffinity = -1 || env.affinitySet) .ieAffinity)

/-- With a client in place any further connection is told so and closed. -/
def iperfAccept (b : Build) (env : AcceptEnv) (s : Server) : Server × Bool :=
  s.check env.accepted .ieAccept
  |> andThen (fun s => if s.ctrlSck then (s, true) else acceptClient b env s)

def Mode.streamsToRec (count : ℤ) : Mode → ℤ
  | .sender => 0
  | .receiver | .bidirectional => count

def Mode.streamsToSend (count : ℤ) : Mode → ℤ
  | .receiver => 0
  | .sender | .bidirectional => count

def setStreamNumbers (s : Server) : Server :=
  { s with
    streamsToRec := s.test.mode.streamsToRec s.test.numStreams
    streamsToSend := s.test.mode.streamsToSend s.test.numStreams }

/-! ## A message of the client -/

structure MessageEnv where
  read : ControlRead
  sentExchangeResults : Bool
  results : Option Json
  sentResults : Bool
  sentDisplayResults : Bool

/-- `get_results` on the server's record. -/
def Server.getResults (message : Option Json) (s : Server) : Server × Bool :=
  let r := Iperf3.getResults message s.toTestSide
  ({ s with toTestSide := r.1 }.noteErrno s.test.iErrno r.2, r.2)

/-- The sockets of all streams are closed; their members keep the numbers. -/
def Server.finishTraffic (s : Server) : Server :=
  { s with done := true }.log .streamsClosed

def handleTestEnd (env : MessageEnv) (s : Server) : Server × Bool :=
  s.finishTraffic.setSendState env.sentExchangeResults .exchangeResults
  |> andThen (fun s => s.getResults env.results)
  |> andThen (fun s => s.check env.sentResults .ieSendResults)
  |> andThen (fun s => s.setSendState env.sentDisplayResults .displayResults)

def Server.enter (state : TestState) (s : Server) : Server :=
  { s with state := state }

/-- The byte is stored in the state before it is looked at. -/
def handleMessageServer (env : MessageEnv) (s : Server) : Server × Bool :=
  let current := s.state
  let s := s.log (.controlRead env.read)
  match env.read with
  | .closed => ((s.withErrno .ieCtrlClose).enter .iperfDone, true)
  | .failed => (s.withErrno .ieRecvMessage, false)
  | .byte value =>
      let state := TestState.ofByte value
      let s := s.enter state
      match state with
      | .testStart => (s, true)
      | .testEnd => handleTestEnd env (s.log (.endOfTest current))
      | .iperfDone => (s, true)
      | .clientTerminate =>
          (((s.withErrno .ieClientTerm).log .streamsClosed).enter .iperfDone, true)
      | _ => (s.withErrno .ieMessage, false)

/-! ## A data connection -/

def cookieSize : ℕ := 37

/-- `strncmp` of two cookies: bytes up to the first zero. -/
def sameCookie (a b : List UInt8) : Bool :=
  (a.take cookieSize).takeWhile (· ≠ 0) = (b.take cookieSize).takeWhile (· ≠ 0)

/-- Reading the cookie of a data connection: a hard error, or the bytes that
arrived in time. -/
inductive CookieRead where
  | hardError
  | bytes (cookie : List UInt8)
  deriving DecidableEq, Repr

structure StreamEnv where
  accepted : Bool
  cookie : CookieRead
  deniedSent : Bool
  udpError : Option ErrorCode
  tosSet : Bool
  staleEbadf : Bool
  socketSetup : Option ErrorCode
  congestionUsed : Option String
  buffer : Option (List UInt8)

/-- The outcome of a protocol's `accept`: a failure, or a socket, which may be
closed again because the cookie was wrong. -/
inductive AcceptedSocket where
  | failed (code : ErrorCode)
  | socket (closed : Bool)
  deriving DecidableEq

def iperfTcpAccept (env : StreamEnv) (cookie : List UInt8) : AcceptedSocket :=
  if env.accepted then
    match env.cookie with
    | .hardError => .failed ⟨.ieRecvCookie, by decide⟩
    | .bytes presented => .socket (!sameCookie cookie presented)
  else .failed ⟨.ieStreamConnect, by decide⟩

/-- Here the refusal has to reach the peer. -/
def iperfSctpAccept (env : StreamEnv) (cookie : List UInt8) : AcceptedSocket :=
  match iperfTcpAccept env cookie with
  | .socket true =>
      if env.deniedSent then .socket true else .failed ⟨.ieSendMessage, by decide⟩
  | outcome => outcome

def iperfUdpAccept (env : StreamEnv) : AcceptedSocket :=
  match env.udpError with
  | some code => .failed code
  | none => .socket false

def protocolAccept (env : StreamEnv) (s : Server) : AcceptedSocket :=
  match s.test.protocol with
  | .tcp => iperfTcpAccept env s.cookie
  | .udp => iperfUdpAccept env
  | .sctp => iperfSctpAccept env s.cookie

/-- A failing `iperf_udp_accept` may already have given up its socket. -/
def Server.noteAccept (outcome : AcceptedSocket) (s : Server) : Server :=
  match outcome with
  | .socket false => s.log (.dataAccepted s.test.protocol)
  | .socket true => s
  | .failed code =>
      if s.test.protocol = .udp then
        if code.val = .ieStreamListen then s.log (.udpListenerLost false)
        else if code.val = .ieStreamWrite then s.log (.udpListenerLost true)
        else s
      else s

/-- Only a descriptor that `select` refuses with `EBADF` counts as closed; on
Windows the error does not reach `errno`. -/
def isClosed (b : Build) (env : StreamEnv) (closed : Bool) : Bool :=
  closed && (!b.windows || env.staleEbadf)

/-- Ids start at one, and the second stream already has id three. -/
def iperfAddStream (streams : List Stream) (sp : Stream) : List Stream :=
  streams ++ [{ sp with id := if streams.isEmpty then 1 else streams.length + 2 }]

/-- The direction of the next stream: receiving streams come first. -/
def Server.nextSender (s : Server) : Option Bool :=
  if s.recStreamsAccepted ≠ s.streamsToRec then some false
  else if s.sendStreamsAccepted ≠ s.streamsToSend then some true
  else none

def Server.countAccepted (s : Server) : Option Bool → Server
  | some false => { s with recStreamsAccepted := s.recStreamsAccepted + 1 }
  | some true => { s with sendStreamsAccepted := s.sendStreamsAccepted + 1 }
  | none => s

/-- `iperf_new_stream` on the accepted socket.  The counters are already
raised when it fails, and on a closed socket it fails. -/
def newServerStream (env : StreamEnv) (closed : Bool) (s : Server) : Server × Bool :=
  let counted := s.countAccepted s.nextSender
  match s.nextSender, env.buffer with
  | none, _ => (counted, true)
  | some _, none => (counted.withErrno .ieCreateStream, false)
  | some sender, some buffer =>
      if closed then (counted.withErrno .ieInitStream, false)
      else
        (Server.log .newStream
          { counted with
            streams := iperfAddStream s.streams (iperfNewStream sender buffer) }, true)

def Server.noteCongestion (b : Build) (name : Option String) (s : Server) : Server :=
  if s.test.protocol = .tcp ∧ b.haveTcpCongestion then
    { s with test := { s.test with congestionUsed := name } }
  else s

/-- Options of a TCP connection that the Windows port does not have. -/
def Server.setUp (b : Build) (error : Option ErrorCode) (s : Server) : Server × Bool :=
  match error with
  | some code =>
      if s.test.protocol = .tcp ∧ ¬ b.windows then
        ((s.log .dataClosed).cleanupServer.withErrno code, false)
      else (s, true)
  | none => (s, true)

def acceptStream (b : Build) (env : StreamEnv) (s : Server) : Server × Bool :=
  match protocolAccept env s with
  | .failed code => ((s.noteAccept (.failed code)).withErrno code, false)
  | .socket closed =>
      (s.noteAccept (.socket closed)).check
        (s.test.settings.tos = 0 || (!closed && env.tosSet)) .ieSetTos
      |> andThen (fun s =>
        if isClosed b env closed then (s, true)
        else
          s.setUp b env.socketSetup
          |> andThen (fun s =>
            newServerStream env closed (s.noteCongestion b env.congestionUsed)))

/-! ## The start of a test -/

structure StartEnv where
  relistened : Bool
  sentTestStart : Bool
  initialized : Bool
  now : IperfTime
  timerCreated : ServerTimer → Bool
  sentTestRunning : Bool
  attrInit : Bool
  threads : ℕ
  attrDestroy : Bool

def Server.streamsComplete (s : Server) : Bool :=
  s.recStreamsAccepted = s.streamsToRec && s.sendStreamsAccepted = s.streamsToSend

def Server.closeProtListener (s : Server) : Server :=
  { s with protListener := false }

/-- The listener of a TCP test was bound to the test's socket options. -/
def Server.reopensListener (s : Server) : Bool :=
  s.test.protocol = .tcp &&
    (s.test.noDelay ≠ 0 || s.test.settings.mss ≠ 0 || s.test.settings.socketBufsize ≠ 0)

/-- `iperf_init_test`: the start time of every stream. -/
def Server.stampStreams (now : IperfTime) (s : Server) : Server :=
  { s with streams := s.streams.map fun sp =>
      { sp with result := { sp.result with startTime := now } } }

/-- One `tmr_create` of the server, if it is asked for. -/
def Server.createTimer (env : StartEnv) (timer : ServerTimer) (wanted : Bool) (s : Server) :
    Server × Bool :=
  if wanted then
    (s.log (.createTimer timer (env.timerCreated timer))).check (env.timerCreated timer)
      .ieInitTest
  else (s, true)

/-- A test without a duration keeps its `done` flag. -/
def Server.createDurationTimer (env : StartEnv) (s : Server) : Server × Bool :=
  if s.test.duration ≠ 0 then
    { s with done := false, timer := env.timerCreated .duration }.createTimer env .duration true
  else ({ s with timer := false }, true)

/-- The members are overwritten, whatever timers they held. -/
def Server.forgetTimers (s : Server) : Server :=
  ((s.log (.forgetTimer .duration)).log (.forgetTimer .stats)).log (.forgetTimer .reporter)

def createServerOmitTimer (env : StartEnv) (s : Server) : Server × Bool :=
  if s.test.omitTime ≠ 0 then s.createTimer env .omitPeriod true
  else (s.log (.forgetTimer .omitPeriod), true)

/-- The interval of the reports is that of the statistics. -/
def createServerTimers (env : StartEnv) (s : Server) : Server × Bool :=
  s.forgetTimers.createDurationTimer env
  |> andThen (fun s => s.createTimer env .stats (s.test.statsInterval ≠ 0))
  |> andThen (fun s => s.createTimer env .reporter (s.test.statsInterval ≠ 0))
  |> andThen (createServerOmitTimer env)

def Server.announceStart (env : StartEnv) (s : Server) : Server × Bool :=
  (s.closeProtListener.log
    (.streamsComplete s.test.protocol s.reopensListener env.relistened)).checkLate
      (!s.reopensListener || env.relistened) .ieListen

/-- From the last data connection to the state `TEST_RUNNING`. -/
def startTest (env : StartEnv) (s : Server) : Server × Bool :=
  s.announceStart env
  |> andThen (fun s =>
    s.checkLate (!s.test.exceedsBitrateLimit s.test.settings.rate) .ieTotalRate)
  |> andThen (fun s => s.setSendState env.sentTestStart .testStart)
  |> andThen (fun s => s.check env.initialized .ieInitTest)
  |> andThen (fun s => createServerTimers env (s.stampStreams env.now))
  |> andThen (fun s => s.setSendState env.sentTestRunning .testRunning)

/-- A failure of an attribute call cleans up and goes on. -/
def Server.tolerate (ok : Bool) (code : IErrno) (s : Server) : Server :=
  if ok then s else (s.withErrno code).cleanupServer

def Server.spawn (threads : ℕ) (s : Server) : Server :=
  log (.spawned threads)
    { s with streams := s.streams.zipIdx.map fun (sp, i) =>
        { sp with threadCreated := if i < threads then true else sp.threadCreated } }

/-- Workers for the first `threads` streams; if that is not all of them, a
creation has failed. -/
def createWorkers (env : StartEnv) (s : Server) : Server × Bool :=
  ((s.tolerate env.attrInit .iePthreadAttrInit).spawn env.threads).check
    (s.streams.length ≤ env.threads) .iePthreadCreate
  |> andThen (fun s => (s.tolerate env.attrDestroy .iePthreadAttrDestroy, true))

/-! ## One turn of the loop -/

structure TurnEnv where
  listener : Option AcceptEnv
  control : Option MessageEnv
  data : Option StreamEnv
  start : StartEnv

def turnListener (b : Build) (env : TurnEnv) (s : Server) : Server × Bool :=
  match env.listener with
  | some accept =>
      if s.state = .createStreams then (s, true)
      else
        iperfAccept b accept s
        |> andThen (fun s => (setStreamNumbers s, true))
  | none => (s, true)

def turnControl (env : TurnEnv) (s : Server) : Server × Bool :=
  match env.control with
  | some message => handleMessageServer message s
  | none => (s, true)

def turnData (b : Build) (env : TurnEnv) (s : Server) : Server × Bool :=
  match env.data with
  | some data => acceptStream b data s
  | none => (s, true)

def turnStreams (b : Build) (env : TurnEnv) (s : Server) : Server × Bool :=
  if s.state = .createStreams then
    turnData b env s
    |> andThen (fun s =>
      if s.streamsComplete then startTest env.start s |> andThen (createWorkers env.start)
      else (s, true))
  else (s, true)

/-- Descriptors that become readable during a turn are left for the next one. -/
def TurnEnv.ready (env : TurnEnv) (s : Server) : TurnEnv :=
  { env with
    control := if s.ctrlSck then env.control else none
    data :=
      if s.state ≠ .createStreams ∧ env.listener.isSome then none else env.data }

/-- The part of a turn that follows a successful `select`. -/
def serverTurn (b : Build) (env : TurnEnv) (s : Server) : Server × Bool :=
  turnListener b (env.ready s) s
  |> andThen (turnControl (env.ready s))
  |> andThen (turnStreams b (env.ready s))

/-! ## Turns in which no call fails -/

def AcceptEnv.ok (cookie : List UInt8) (message : Option Json) : AcceptEnv :=
  ⟨true, none, some cookie, true, message, .notConfigured, .listens, true, true⟩

def MessageEnv.ok (value : UInt8) (results : Option Json) : MessageEnv :=
  ⟨.byte value, true, results, true, true⟩

def StreamEnv.ok (cookie buffer : List UInt8) : StreamEnv :=
  ⟨true, .bytes cookie, true, none, true, false, none, none, some buffer⟩

def StartEnv.ok (now : IperfTime) (threads : ℕ) : StartEnv :=
  ⟨true, true, true, now, fun _ => true, true, true, threads, true⟩

/-! ## The process -/

inductive Phase where
  | between
  | running
  | returned (rc : ℤ)
  | exited
  deriving DecidableEq, Repr

structure Process where
  server : Server
  phase : Phase

/-- How the beginning of `iperf_run_server` ends. -/
inductive Startup where
  | logfileFails
  | fails (code : ErrorCode)
  | listens
  deriving DecidableEq

/-- What a worker or a statistics callback may do to a stream. -/
def Stream.traffic (update : Stream → Stream) (sp : Stream) : Stream :=
  { update sp with id := sp.id, sender := sp.sender, threadCreated := sp.threadCreated }

inductive ServerEvent where
  | start (startup : Startup)
  | traffic (update : Stream → Stream)
  | rateExceeded (sent : Bool)
  | selectFails
  | idleTimeout (oneOff : Bool)
  | noMessage
  | turn (env : TurnEnv)
  | expire (sent : Bool)
  | timer (timer : ServerTimer)
  | workerReturns (i : ℕ) (error : Option ErrorCode)
  | finish (jsonFinished affinityCleared : Bool)
  | reset (jsonFinished stops : Bool)

namespace Process

def stop (rc : ℤ) (s : Server) : Process := ⟨s, .returned rc⟩

/-- `iperf_run_server` returns after a cleanup. -/
def cleanedUp (rc : ℤ) (s : Server) : Process := stop rc s.cleanupServer

/-- The listener is open and the loop begins. -/
def listening (s : Server) : Server :=
  Server.log .serverListen
    { s with
      state := .iperfStart
      recStreamsAccepted := 0
      sendStreamsAccepted := 0
      streamsToRec := 0
      streamsToSend := 0 }

def beginRun (startup : Startup) (s : Server) : Process :=
  match startup with
  | .logfileFails => stop (-2) s
  | .fails code => cleanedUp (-2) (s.withErrno code)
  | .listens => ⟨listening s, .running⟩

def afterTurn (r : Server × Bool) : Process :=
  if r.2 then ⟨r.1, .running⟩ else cleanedUp (-1) r.1

/-- The code after the loop.  A failure to print the JSON output returns
before the cleanup. -/
def finishRun (jsonFinished affinityCleared : Bool) (s : Server) : Process :=
  if s.jsonOutput ∧ ¬ jsonFinished then stop (-1) s
  else if s.test.serverAffinity ≠ -1 ∧ ¬ affinityCleared then cleanedUp (-1) s
  else cleanedUp 0 s

/-- `iperf_reset_test`. -/
def resetTest (b : Build) (s : Server) : Server :=
  Server.log .reset
    { s.freeStreams with
      test := s.test.iperfResetTest b
      state := .initial
      ctrlSck := false
      protListener := false
      timer := false
      done := false
      cookie := List.replicate cookieSize 0
      serverOutputList := [] }

/-- `main` after a return: the server starts again, or the program ends. -/
def resetRun (b : Build) (rc : ℤ) (jsonFinished stops : Bool) (s : Server) : Process :=
  if (rc < 0 ∧ s.jsonOutput ∧ ¬ jsonFinished) ∨ rc < -1 then ⟨s, .exited⟩
  else ⟨resetTest b s, if stops then .exited else .between⟩

/-- Events that the current phase does not allow change nothing. -/
def step (b : Build) (p : Process) (event : ServerEvent) : Process :=
  let s := p.server
  match p.phase, event with
  | .between, .start startup => beginRun startup s
  | .running, .traffic update =>
      { p with server := { s with streams := s.streams.map (Stream.traffic update) } }
  | .running, .rateExceeded sent =>
      if s.state = .iperfDone then p
      else cleanedUp (-1) ((s.withErrno .ieTotalRate).setSendState sent .serverError).1
  | .running, .selectFails =>
      if s.state = .iperfDone then p
      else stop (-1) (s.cleanupServer.withErrno .ieSelect)
  | .running, .idleTimeout oneOff =>
      if s.state ≠ .iperfStart then p
      else if oneOff then ⟨(s.log .idleRestart).cleanupServer, .exited⟩
      else cleanedUp 2 (s.log .idleRestart)
  | .running, .noMessage =>
      if s.state = .iperfStart ∨ s.state = .iperfDone ∨ s.test.mode = .sender ∨ s.readSetStale
      then p
      else cleanedUp (-1) (s.withErrno .ieNoMsg)
  | .running, .turn env =>
      if s.state = .iperfDone ∨ s.readSetStale then p else afterTurn (serverTurn b env s)
  | .running, .expire sent =>
      if s.timer then { p with server := s.serverTimerProc sent } else p
  | .running, .timer timer =>
      if timer = .duration then p else { p with server := s.log (.timerExpired timer) }
  | .running, .workerReturns i error =>
      { p with server := ((s.checkError error).1.log (.workerReturned i)) }
  | .running, .finish jsonFinished affinityCleared =>
      if s.state = .iperfDone then finishRun jsonFinished affinityCleared s else p
  | .returned rc, .reset jsonFinished stops => resetRun b rc jsonFinished stops s
  | _, _ => p

def run (b : Build) (p : Process) (events : List ServerEvent) : Process :=
  events.foldl (step b) p

end Process

/-- The process before its first call of `iperf_run_server`. -/
def serverProcess (side : TestSide) : Process where
  server :=
    { side with
      streams := []
      state := .initial
      ctrlSck := false
      protListener := false
      cookie := List.replicate cookieSize 0
      done := false
      timer := false
      recStreamsAccepted := 0
      sendStreamsAccepted := 0
      streamsToRec := 0
      streamsToSend := 0
      freed := []
      calls := [] }
  phase := .between

end Iperf3
