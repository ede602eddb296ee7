import Iperf3.Channel
import Iperf3.Client
import Mathlib.Tactic

/-!
# Client and server on one control connection

The two processes are joined by a channel in each direction and a queue of
data connections.  A handler that waits for the peer in the middle is split
there: what is left of it is a list of calls, and one step of a party is the
next call.  Calls that neither read nor write have the outcomes that their
environment says; reading and writing do not fail.
-/

namespace Iperf3

open Channels

inductive ItemKind where
  | cookie
  | state
  | json
  | errorCodes
  deriving DecidableEq, Repr

/-- What both parties of a test are given.  The client's cookie is never
changed; the error code and `errno` after a `SERVER_ERROR` are eight bytes. -/
structure Session where
  serverBuild : Build
  clientBuild : Build
  codec : Codec
  auth : ClientAuth
  cookie : List UInt8
  errorCodes : IErrno → List UInt8
  length_cookie : cookie.length = cookieSize
  length_errorCodes : ∀ code, (errorCodes code).length = 8

def cookieItem (cookie : List UInt8) : Item ItemKind := ⟨.cookie, cookie⟩

def stateItem (state : TestState) : Item ItemKind := ⟨.state, [state.toByte]⟩

def jsonItem (codec : Codec) (j : Json) : Item ItemKind := ⟨.json, jsonWrite codec j⟩

/-- A frame has arrived, or as much of it as is read when its length is not
allowed. -/
def frameArrived (maxSize : ℕ) (bytes : List UInt8) : Bool :=
  let hsize := BigEndian.decode (bytes.take 4)
  4 ≤ bytes.length &&
    (!(0 < hsize && (maxSize = 0 || hsize ≤ maxSize)) || hsize ≤ (bytes.drop 4).length)

/-- `JSON_read` on a channel. -/
def readJson (codec : Codec) (maxSize : ℕ) (c : Channel ItemKind) :
    Option (Option Json × Channel ItemKind) :=
  let r := jsonRead codec maxSize c.bytes
  if frameArrived maxSize c.bytes then
    some (r.1, c.take .json (c.bytes.length - r.2.length))
  else if c.closed then some (r.1, { c with bytes := [] })
  else none

/-- The control connection of the client at the listener of the server. -/
inductive Dialling where
  | idle
  | waiting
  | accepted
  deriving DecidableEq, Repr

/-- The control connection with its channels, the data connections that wait
with what was written to them, and the answers that UDP connections have
got. -/
structure Network where
  dialling : Dialling
  toServer : Channel ItemKind
  toClient : Channel ItemKind
  data : List (List UInt8)
  replies : ℕ

/-! ## The server -/

inductive ServerAction where
  | accept
  | readCookie
  | send (state : TestState)
  | getParameters
  | testIsAuthorized
  | protocolListen
  | setAffinity
  | setStreamNumbers
  | readMessage
  | getResults
  | sendResults
  | acceptStream
  | checkStreams
  | announceStart
  | checkRate
  | initTest
  | createTimers
  | createWorkers
  deriving DecidableEq, Repr

structure ServerParty where
  process : Process
  todo : List ServerAction

/-- Outcomes of calls that are no input or output. -/
structure ServerOutcomes where
  authorization : Authorization
  affinitySet : Bool
  tosSet : Bool
  congestionUsed : Option String
  buffer : Option (List UInt8)
  start : StartEnv

/-- A data connection that is accepted and read without a failure. -/
def ServerOutcomes.stream (o : ServerOutcomes) (bytes : List UInt8) : StreamEnv where
  accepted := true
  cookie := .bytes bytes
  deniedSent := true
  udpError := none
  tosSet := o.tosSet
  staleEbadf := false
  socketSetup := none
  congestionUsed := o.congestionUsed
  buffer := o.buffer

/-- What a call comes to: its result, the calls that it starts, and the
network. -/
structure Called (σ α : Type) where
  result : σ × Bool
  more : List α
  net : Network

/-- `iperf_accept` for a new client, and what follows it in the loop. -/
def acceptActions : List ServerAction :=
  [.readCookie, .send .paramExchange, .getParameters, .testIsAuthorized, .protocolListen,
    .send .createStreams, .setAffinity, .setStreamNumbers]

/-- The end of a test. -/
def testEndActions : List ServerAction :=
  [.send .exchangeResults, .getResults, .sendResults, .send .displayResults]

/-- From the last data connection on. -/
def startActions : List ServerAction :=
  [.announceStart, .checkRate, .send .testStart, .initTest, .createTimers,
    .send .testRunning, .createWorkers]

/-- `iperf_handle_message_server` up to where it waits for the client. -/
def handleByteServer (value : UInt8) (s : Server) : (Server × Bool) × List ServerAction :=
  if TestState.ofByte value = .testEnd then
    (((((s.log (.controlRead (.byte value))).enter .testEnd).log
      (.endOfTest s.state)).finishTraffic, true), testEndActions)
  else (handleMessageServer (.ok value none) s, [])

/-- The next call of the server.  There is no result while it blocks. -/
def ServerAction.perform (sn : Session) (o : ServerOutcomes) (s : Server) (net : Network) :
    ServerAction → Option (Called Server ServerAction)
  | .accept =>
      if s.ctrlSck then some ⟨(s, true), [.setStreamNumbers], { net with dialling := .accepted }⟩
      else some ⟨(s.takeControl, true), acceptActions, { net with dialling := .accepted }⟩
  | .readCookie =>
      (net.toServer.read .cookie cookieSize).map fun r =>
        ⟨s.readCookie r.1, [], { net with toServer := r.2 }⟩
  | .send state => some ⟨s.setSendState true state, [], net⟩
  | .getParameters =>
      (readJson sn.codec maxParamsJsonString net.toServer).map fun r =>
        ⟨s.getParameters sn.serverBuild r.1, [], { net with toServer := r.2 }⟩
  | .testIsAuthorized => some ⟨s.testIsAuthorized o.authorization, [], net⟩
  | .protocolListen =>
      some ⟨andThen (fun s => (s.openProtListener, true)) (s.protocolListen .listens), [], net⟩
  | .setAffinity =>
      some ⟨s.check (s.test.serverAffinity = -1 || o.affinitySet) .ieAffinity, [], net⟩
  | .setStreamNumbers => some ⟨(Iperf3.setStreamNumbers s, true), [], net⟩
  | .readMessage =>
      (net.toServer.read .state 1).map fun r =>
        match r.1 with
        | some bytes =>
            let handled := handleByteServer (bytes.headD 0) s
            ⟨handled.1, handled.2, { net with toServer := r.2 }⟩
        | none =>
            ⟨handleMessageServer { MessageEnv.ok 0 none with read := .closed } s, [],
              { net with toServer := r.2 }⟩
  | .getResults =>
      (readJson sn.codec 0 net.toServer).map fun r =>
        ⟨s.getResults r.1, [], { net with toServer := r.2 }⟩
  | .sendResults =>
      some ⟨(s, true), [],
        { net with
          toClient := net.toClient.write [jsonItem sn.codec (Iperf3.sendResults s.toTestSide)] }⟩
  | .acceptStream =>
      if s.state = .createStreams then
        match net.data with
        | [] => none
        | bytes :: data =>
            some ⟨Iperf3.acceptStream sn.serverBuild (o.stream bytes) s, [],
              { net with data := data, replies := net.replies + 1 }⟩
      else some ⟨(s, true), [], net⟩
  | .checkStreams =>
      some ⟨(s, true),
        if s.state = .createStreams ∧ s.streamsComplete then startActions else [], net⟩
  | .announceStart => some ⟨s.announceStart { o.start with relistened := true }, [], net⟩
  | .checkRate =>
      some ⟨s.checkLate (!s.test.exceedsBitrateLimit s.test.settings.rate) .ieTotalRate, [], net⟩
  | .initTest => some ⟨s.check o.start.initialized .ieInitTest, [], net⟩
  | .createTimers => some ⟨createServerTimers o.start (s.stampStreams o.start.now), [], net⟩
  | .createWorkers => some ⟨Iperf3.createWorkers o.start s, [], net⟩

/-- What the server has written to the control connection with a call.  The
codes follow every `SERVER_ERROR`. -/
def Session.serverItems (sn : Session) (code : IErrno) : ServerCall → List (Item ItemKind)
  | .sent .serverError | .cleanup (some _) =>
      [stateItem .serverError, ⟨.errorCodes, sn.errorCodes code⟩]
  | .sent state => [stateItem state]
  | _ => []

/-- The calls of a step reach the client. -/
def Network.carryServer (sn : Session) (s s' : Server) (net : Network) : Network :=
  let toClient := net.toClient.write
    ((s'.calls.drop s.calls.length).flatMap (sn.serverItems s'.test.iErrno))
  { net with toClient := if s.ctrlSck && !s'.ctrlSck then toClient.close else toClient }

/-! ## The client -/

inductive ClientAction where
  | sendCookie
  | readMessage
  | sendParameters
  | dialStream
  | takeReply
  | newStream (sender : Bool)
  | testStart
  | sendResults
  | getResults
  | clientEnd
  | readErrorCodes
  | fail (code : IErrno)
  deriving DecidableEq, Repr

structure ClientParty where
  process : ClientProcess
  todo : List ClientAction

/-- Outcomes of calls that are no input or output. -/
structure ClientOutcomes where
  buffer : Option (List UInt8)
  start : ClientMessageEnv
  serverErrno : IErrno

/-- One stream of `iperf_create_streams`.  A UDP connection waits for the
server's answer. -/
def createStreamActions (protocol : ProtocolId) (sender : Bool) : List ClientAction :=
  if protocol = .udp then [.dialStream, .takeReply, .newStream sender]
  else [.dialStream, .newStream sender]

/-- `iperf_handle_message_client` after the state has been read. -/
def messageActions (t : Test) : TestState → List ClientAction
  | .paramExchange => [.sendParameters]
  | .createStreams => t.streamDirections.flatMap (createStreamActions t.protocol)
  | .testStart => [.testStart]
  | .testRunning => []
  | .exchangeResults => [.sendResults, .getResults]
  | .displayResults => [.clientEnd]
  | .iperfDone => []
  | .serverTerminate => [.fail .ieServerTerm]
  | .accessDenied => [.fail .ieAccessDenied]
  | .serverError => [.readErrorCodes]
  | _ => [.fail .ieMessage]

def Client.addStream (buffer : Option (List UInt8)) (sender : Bool) (c : Client) :
    Client × Bool :=
  match buffer with
  | some buffer =>
      (Client.log .newStream
        { c with streams := iperfAddStream c.streams (iperfNewStream sender buffer) }, true)
  | none => (c.withErrno .ieCreateStream, false)

/-- The error code of the server becomes that of the client. -/
def Client.takeErrno (code : IErrno) (c : Client) : Client :=
  { c with test := { c.test with iErrno := code } }

/-- The next call of the client.  There is no result while it blocks. -/
def ClientAction.perform (sn : Session) (o : ClientOutcomes) (c : Client) (net : Network) :
    ClientAction → Option (Called Client ClientAction)
  | .sendCookie =>
      some ⟨(c, true), [], { net with toServer := net.toServer.write [cookieItem sn.cookie] }⟩
  | .readMessage =>
      (net.toClient.read .state 1).map fun r =>
        match r.1 with
        | some bytes =>
            let state := TestState.ofByte (bytes.headD 0)
            ⟨((c.log (.controlRead (.byte (bytes.headD 0)))).enter state, true),
              messageActions c.test state, { net with toClient := r.2 }⟩
        | none =>
            ⟨((c.log (.controlRead .closed)).withErrno .ieCtrlClose, false), [],
              { net with toClient := r.2 }⟩
  | .sendParameters =>
      match Iperf3.sendParameters sn.clientBuild sn.auth c.test with
      | some j =>
          some ⟨(c, true), [], { net with toServer := net.toServer.write [jsonItem sn.codec j] }⟩
      | none => some ⟨(c.withErrno .ieSendParams, false), [], net⟩
  | .dialStream => some ⟨(c, true), [], { net with data := net.data ++ [sn.cookie] }⟩
  | .takeReply =>
      if 0 < net.replies then some ⟨(c, true), [], { net with replies := net.replies - 1 }⟩
      else none
  | .newStream sender => some ⟨c.addStream o.buffer sender, [], net⟩
  | .testStart => some ⟨handleTestStart o.start c, [], net⟩
  | .sendResults =>
      some ⟨(c, true), [],
        { net with
          toServer := net.toServer.write [jsonItem sn.codec (Iperf3.sendResults c.toTestSide)] }⟩
  | .getResults =>
      (readJson sn.codec 0 net.toClient).map fun r =>
        ⟨c.getResults r.1, [], { net with toClient := r.2 }⟩
  | .clientEnd => some ⟨((iperfClientEnd true c).1, true), [], net⟩
  | .readErrorCodes =>
      (net.toClient.read .errorCodes 8).map fun r =>
        ⟨(c.takeErrno o.serverErrno, false), [], { net with toClient := r.2 }⟩
  | .fail code => some ⟨(c.withErrno code, false), [], net⟩

def clientItems : ClientCall → List (Item ItemKind)
  | .sent state => [stateItem state]
  | _ => []

/-- The calls of a step reach the server.  The control connection is closed at
the end of `iperf_client_end`. -/
def Network.carryClient (c c' : Client) (net : Network) : Network :=
  let calls := c'.calls.drop c.calls.length
  let toServer := net.toServer.write (calls.flatMap clientItems)
  { net with toServer := if .streamsClosed ∈ calls then toServer.close else toServer }

/-! ## Both parties -/

structure System where
  server : ServerParty
  client : ClientParty
  net : Network

/-- One step of a party: what `select` reports, the next call of a handler, or
an event of its loop and its workers. -/
inductive SystemEvent where
  | serverTurn (listener control data : Bool)
  | serverCall (o : ServerOutcomes)
  | serverLoop (event : ServerEvent)
  | clientConnect
  | clientWake (message : Bool)
  | clientCall (o : ClientOutcomes)
  | clientLoop (event : ClientEvent)

/-- Workers go on while a handler runs; the other events are those of the loop
itself, without a failure to read or write. -/
def ServerEvent.allowed (busy : Bool) : ServerEvent → Bool
  | .traffic _ | .workerReturns _ none => true
  | .rateExceeded sent | .expire sent => sent && !busy
  | .idleTimeout _ | .noMessage | .timer _ | .finish _ _ => !busy
  | _ => false

def ClientEvent.allowed (busy : Bool) : ClientEvent → Bool
  | .sent _ _ | .received _ | .workerReturns _ => true
  | .timers _ told => told && !busy
  | .noMessage | .start _ | .finish _ => !busy
  | _ => false

namespace System

/-- The descriptors that are reported and ready are handled one after the
other. -/
def turnActions (listener control data : Bool) (s : Server) (net : Network) :
    List ServerAction :=
  let accepts := listener && net.dialling = .waiting && s.state ≠ .createStreams
  (if accepts then [.accept] else []) ++
    ((if control && s.ctrlSck && net.toServer.readable then [.readMessage] else []) ++
      ((if data && s.protListener && !net.data.isEmpty && !accepts then [.acceptStream] else []) ++
        [.checkStreams]))

def serverTurn (listener control data : Bool) (y : System) : System :=
  let s := y.server.process.server
  if y.server.process.phase = .running ∧ y.server.todo = [] ∧ s.state ≠ .iperfDone then
    { y with server := { y.server with todo := turnActions listener control data s y.net } }
  else y

def serverCall (sn : Session) (o : ServerOutcomes) (y : System) : System :=
  match y.server.process.phase, y.server.todo with
  | .running, action :: rest =>
      match action.perform sn o y.server.process.server y.net with
      | some r =>
          let process := Process.afterTurn r.result
          { y with
            server := ⟨process, if r.result.2 then r.more ++ rest else []⟩
            net := r.net.carryServer sn y.server.process.server process.server }
      | none => y
  | _, _ => y

def serverLoop (sn : Session) (event : ServerEvent) (y : System) : System :=
  if event.allowed (!y.server.todo.isEmpty) then
    let process := y.server.process.step sn.serverBuild event
    { y with
      server := { y.server with process := process }
      net := y.net.carryServer sn y.server.process.server process.server }
  else y

def clientConnect (y : System) : System :=
  if y.client.process.phase = .connecting then
    { y with
      client := ⟨ClientProcess.connectTo .connects y.client.process.client, [.sendCookie]⟩
      net := { y.net with dialling := .waiting } }
  else y

def clientWake (message : Bool) (y : System) : System :=
  let c := y.client.process.client
  if y.client.process.phase = .waiting ∧ y.client.todo = [] ∧ c.state ≠ .iperfDone then
    if message then
      if y.net.toClient.readable then { y with client := { y.client with todo := [.readMessage] } }
      else y
    else { y with client := { y.client with process := ClientProcess.afterMessage (c, true) } }
  else y

def clientCall (sn : Session) (o : ClientOutcomes) (y : System) : System :=
  match y.client.todo with
  | action :: rest =>
      match action.perform sn o y.client.process.client y.net with
      | some r =>
          let todo := if r.result.2 then r.more ++ rest else []
          let process :=
            if todo.isEmpty then ClientProcess.afterMessage r.result
            else ⟨r.result.1, y.client.process.phase⟩
          { y with
            client := ⟨process, todo⟩
            net := r.net.carryClient y.client.process.client process.client }
      | none => y
  | [] => y

def clientLoop (sn : Session) (event : ClientEvent) (y : System) : System :=
  if event.allowed (!y.client.todo.isEmpty) then
    let process := y.client.process.step sn.clientBuild event
    { y with
      client := { y.client with process := process }
      net := y.net.carryClient y.client.process.client process.client }
  else y

def step (sn : Session) (y : System) : SystemEvent → System
  | .serverTurn listener control data => y.serverTurn listener control data
  | .serverCall o => y.serverCall sn o
  | .serverLoop event => y.serverLoop sn event
  | .clientConnect => y.clientConnect
  | .clientWake message => y.clientWake message
  | .clientCall o => y.clientCall sn o
  | .clientLoop event => y.clientLoop sn event

def run (sn : Session) (y : System) (events : List SystemEvent) : System :=
  events.foldl (step sn) y

/-- The server listens, and the client has not connected yet. -/
def initial (client server : TestSide) : System where
  server := ⟨⟨Process.listening (serverProcess server).server, .running⟩, []⟩
  client := ⟨clientProcess client, []⟩
  net :=
    { dialling := .idle
      toServer := .empty
      toClient := .empty
      data := []
      replies := 0 }

end System

end Iperf3
