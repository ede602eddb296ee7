import Iperf3.EndCondition
import Iperf3.Server
import Mathlib.Tactic

/-!
# The client process

The loop of `iperf_run_client` as a transition function on events.  One turn
of the loop is up to three events: the message that `select` reports, the
start of the workers, and the timers with the test for the end.  Workers go
on between any two of them.
-/

namespace Iperf3

/-- The calls that concern error codes, the state, sockets and threads. -/
inductive ClientCall where
  | raised (code : IErrno)
  | sent (state : TestState)
  | controlRead (read : ControlRead)
  | newStream
  | spawned (threads : ℕ)
  | joined (workers : List ℕ)
  | sendersShutDown (senders : List ℕ)
  | streamsClosed
  | workerReturned (i : ℕ)
  deriving DecidableEq

/-- The client's test with the members that its loop works on. -/
structure Client extends TestSide where
  state : TestState
  ctrlSck : Bool
  traffic : Traffic
  startup : Bool
  calls : List ClientCall

namespace Client

def log (call : ClientCall) (c : Client) : Client :=
  { c with calls := c.calls ++ [call] }

def withErrno (code : IErrno) (c : Client) : Client :=
  { c with test := { c.test with iErrno := code } }.log (.raised code)

def check (ok : Bool) (code : IErrno) (c : Client) : Client × Bool :=
  if ok then (c, true) else (c.withErrno code, false)

def enter (state : TestState) (c : Client) : Client :=
  { c with state := state }

def setSendState (sent : Bool) (state : TestState) (c : Client) : Client × Bool :=
  if c.ctrlSck then
    if sent then ((c.enter state).log (.sent state), true)
    else ((c.enter state).withErrno .ieSendMessage, false)
  else (c, true)

/-- The numbers of the streams that `p` selects. -/
def select (p : Stream → Bool) (c : Client) : List ℕ :=
  (c.streams.zipIdx.filter fun (sp, _) => p sp).map Prod.snd

/-- Workers of selected streams are cancelled and joined. -/
def join (p : Stream → Bool) (c : Client) : Client :=
  log (.joined (c.select fun sp => p sp && sp.threadCreated))
    { c with
      streams := c.streams.map fun sp =>
        if p sp then { sp with done := true, threadCreated := false } else sp }

end Client

/-- A positive state, as the signed character it is. -/
def TestState.positive (state : TestState) : Bool :=
  0 < state.toByte && state.toByte < 128

/-- The sockets of all streams are closed, and the server is told unless it
has sent an error. -/
def iperfClientEnd (sentDone : Bool) (c : Client) : Client × Bool :=
  let c := c.log .streamsClosed
  if c.state.positive then c.setSendState sentDone .iperfDone else (c, true)

/-! ## A message of the server -/

structure ClientMessageEnv where
  read : ControlRead
  sentParameters : Bool
  connections : List (List UInt8)
  streamError : ErrorCode
  initialized : Bool
  now : IperfTime
  timersCreated : Bool
  omitTimerCreated : Bool
  sendTimersCreated : Bool
  sentResults : Bool
  results : Option Json
  sentDone : Bool
  serverErrno : Option ErrorCode

/-- The directions of the streams in the order of their creation. -/
def Test.streamDirections (t : Test) : List Bool :=
  match t.mode with
  | .sender => List.replicate t.numStreams.toNat true
  | .receiver => List.replicate t.numStreams.toNat false
  | .bidirectional =>
      List.replicate t.numStreams.toNat true ++ List.replicate t.numStreams.toNat false

/-- A connection for each stream, until one fails. -/
def iperfCreateStreams (error : ErrorCode) :
    List Bool → List (List UInt8) → Client → Client × Bool
  | [], _, c => (c, true)
  | _ :: _, [], c => (c.withErrno error, false)
  | sender :: directions, buffer :: buffers, c =>
      iperfCreateStreams error directions buffers
        (Client.log .newStream
          { c with streams := iperfAddStream c.streams (iperfNewStream sender buffer) })

def Client.stampStreams (now : IperfTime) (c : Client) : Client :=
  { c with streams := c.streams.map fun sp =>
      { sp with result := { sp.result with startTime := now } } }

/-- A test without a duration keeps its `done` flag. -/
def createClientTimers (env : ClientMessageEnv) (c : Client) : Client × Bool :=
  { c with traffic := { c.traffic with
      done := if c.test.duration ≠ 0 then false else c.traffic.done } }.check
    env.timersCreated .ieInitTest

def createClientOmitTimer (env : ClientMessageEnv) (c : Client) : Client × Bool :=
  { c with traffic := { c.traffic with omitting := c.test.omitTime ≠ 0 } }.check
    (c.test.omitTime = 0 || env.omitTimerCreated) .ieInitTest

def handleTestStart (env : ClientMessageEnv) (c : Client) : Client × Bool :=
  (c.stampStreams env.now).check env.initialized .ieInitTest
  |> andThen (createClientTimers env)
  |> andThen (createClientOmitTimer env)
  |> andThen (fun c => c.check (c.test.mode = .receiver || env.sendTimersCreated) .ieInitTest)

/-- `get_results` on the client's record. -/
def Client.getResults (message : Option Json) (c : Client) : Client × Bool :=
  let r := Iperf3.getResults message c.toTestSide
  let c := { c with toTestSide := r.1 }
  (if r.2 then c else c.log (.raised c.test.iErrno), r.2)

def handleMessageClient (env : ClientMessageEnv) (c : Client) : Client × Bool :=
  let c := c.log (.controlRead env.read)
  match env.read with
  | .closed => (c.withErrno .ieCtrlClose, false)
  | .failed => (c.withErrno .ieRecvMessage, false)
  | .byte value =>
      let state := TestState.ofByte value
      let c := c.enter state
      match state with
      | .paramExchange => c.check env.sentParameters .ieSendParams
      | .createStreams =>
          iperfCreateStreams env.streamError c.test.streamDirections env.connections c
      | .testStart => handleTestStart env c
      | .testRunning => (c, true)
      | .exchangeResults =>
          c.check env.sentResults .ieSendResults
          |> andThen (fun c => c.getResults env.results)
      | .displayResults => ((iperfClientEnd env.sentDone c).1, true)
      | .iperfDone => (c, true)
      | .serverTerminate => (c.withErrno .ieServerTerm, false)
      | .accessDenied => (c.withErrno .ieAccessDenied, false)
      | .serverError =>
          match env.serverErrno with
          | some code => (c.withErrno code, false)
          | none => (c.withErrno .ieCtrlRead, false)
      | _ => (c.withErrno .ieMessage, false)

/-! ## A running test -/

structure ClientStartEnv where
  attrInit : Bool
  threads : ℕ
  attrDestroy : Bool

def Client.spawn (threads : ℕ) (c : Client) : Client :=
  log (.spawned threads)
    { c with streams := c.streams.zipIdx.map fun (sp, i) =>
        { sp with threadCreated := if i < threads then true else sp.threadCreated } }

/-- Workers for the first `threads` streams; if that is not all of them, a
creation has failed. -/
def createClientWorkers (env : ClientStartEnv) (c : Client) : Client × Bool :=
  { c with startup := false }.check env.attrInit .iePthreadAttrInit
  |> andThen (fun c =>
    (c.spawn env.threads).check (c.streams.length ≤ env.threads) .iePthreadCreate)
  |> andThen (fun c => c.check env.attrDestroy .iePthreadAttrDestroy)

/-- On Windows the data connections are shut down before the server is told. -/
def Client.shutDownSenders (b : Build) (c : Client) : Client :=
  if b.windows then c.log (.sendersShutDown (c.select fun sp => sp.sender)) else c

def Client.finishTraffic (c : Client) : Client :=
  { c with traffic := { c.traffic with done := true } }

/-- The senders are stopped before their sockets are shut down. -/
def stopSenders (b : Build) (sent : Bool) (c : Client) : Client × Bool :=
  ((c.join fun sp => sp.sender).shutDownSenders b).finishTraffic.setSendState sent .testEnd

def checkEnd (b : Build) (sent : Bool) (c : Client) : Client × Bool :=
  if c.traffic.endReached c.test then stopSenders b sent c else (c, true)

/-! ## The process -/

inductive ClientPhase where
  | connecting
  | waiting
  | starting
  | checking
  | returned (rc : ℤ)
  deriving DecidableEq, Repr

structure ClientProcess where
  client : Client
  phase : ClientPhase

/-- How the beginning of `iperf_run_client` ends. -/
inductive Connecting where
  | unprepared
  | undialled
  | fails (code : ErrorCode)
  | connects
  deriving DecidableEq

inductive ClientEvent where
  | connect (connecting : Connecting)
  | sent (r : ℕ) (blockComplete : Bool)
  | received (r : ℕ)
  | workerReturns (i : ℕ)
  | selectFails
  | noMessage
  | wake (message : Option ClientMessageEnv)
  | start (env : ClientStartEnv)
  | timers (events : List TrafficEvent) (sent : Bool)
  | finish (jsonFinished : Bool)

namespace ClientProcess

/-- All workers that are left are joined before the sockets are closed.  What
the last message comes to is ignored. -/
def cleanupAndFail (c : Client) : ClientProcess :=
  ⟨(iperfClientEnd true (c.join fun sp => !sp.done)).1, .returned (-1)⟩

/-- After a message the workers are started, if the test is running. -/
def afterMessage (r : Client × Bool) : ClientProcess :=
  if r.2 then ⟨r.1, if r.1.state = .testRunning then .starting else .waiting⟩
  else cleanupAndFail r.1

def connectTo (connecting : Connecting) (c : Client) : ClientProcess :=
  match connecting with
  | .unprepared => ⟨c, .returned (-1)⟩
  | .undialled => cleanupAndFail (c.withErrno .ieConnect)
  | .fails code => cleanupAndFail ({ c with ctrlSck := true }.withErrno code)
  | .connects => ⟨{ c with ctrlSck := true, startup := true }, .waiting⟩

/-- The code after the loop. -/
def finishRun (jsonFinished : Bool) (c : Client) : ClientProcess :=
  let c := c.join fun sp => !sp.sender
  if c.jsonOutput ∧ ¬ jsonFinished then ⟨c, .returned (-1)⟩ else ⟨c, .returned 0⟩

/-- Events that the current phase does not allow change nothing. -/
def step (b : Build) (p : ClientProcess) (event : ClientEvent) : ClientProcess :=
  let c := p.client
  match p.phase, event with
  | .connecting, .connect connecting => connectTo connecting c
  | .connecting, _ | .returned _, _ => p
  | _, .sent r blockComplete =>
      { p with client := { c with traffic := c.traffic.iperfSendMt r blockComplete } }
  | _, .received r => { p with client := { c with traffic := c.traffic.iperfRecvMt r } }
  | _, .workerReturns i => { p with client := c.log (.workerReturned i) }
  | .waiting, .selectFails =>
      if c.state = .iperfDone then p else cleanupAndFail (c.withErrno .ieSelect)
  | .waiting, .noMessage =>
      if c.state ≠ .testRunning ∨ c.test.mode = .sender then p
      else cleanupAndFail (c.withErrno .ieNoMsg)
  | .waiting, .wake message =>
      if c.state = .iperfDone then p
      else
        match message with
        | some env => afterMessage (handleMessageClient env c)
        | none => afterMessage (c, true)
  | .waiting, .finish jsonFinished =>
      if c.state = .iperfDone then finishRun jsonFinished c else p
  | .starting, .start env =>
      if c.startup then
        let r := createClientWorkers env c
        if r.2 then ⟨r.1, .checking⟩ else cleanupAndFail r.1
      else ⟨c, .checking⟩
  | .checking, .timers events sent =>
      let r := checkEnd b sent { c with traffic := c.traffic.run events }
      if r.2 then ⟨r.1, .waiting⟩ else cleanupAndFail r.1
  | _, _ => p

def run (b : Build) (p : ClientProcess) (events : List ClientEvent) : ClientProcess :=
  events.foldl (step b) p

end ClientProcess

/-- The process before it connects. -/
def clientProcess (side : TestSide) : ClientProcess where
  client :=
    { side with
      streams := []
      state := .initial
      ctrlSck := false
      traffic := ⟨false, false, 0, 0, 0, 0⟩
      startup := true
      calls := [] }
  phase := .connecting

end Iperf3
