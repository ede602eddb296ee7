import Iperf3.CJson
import Iperf3.IperfTime
import Mathlib.Tactic

/-!
# The test record, its defaults and its streams

One `Test` value holds what the program keeps in `struct iperf_test` and
`struct iperf_settings`, restricted to the members that the parameter
exchange, the server limits and the command line read or write, together
with the process-wide error code.  Members of type `int` are integers that
every assignment from a wider type wraps to 32 bits; members of type
`iperf_size_t` are natural numbers below `2 ^ 64`.  The counters of a stream
that are declared as 64-bit signed integers are integers, and its counters of
type `iperf_size_t` are natural numbers.
-/

namespace Iperf3

/-- Facts fixed when the program is configured and compiled. -/
structure Build where
  windows : Bool
  haveIpprotoMptcp : Bool
  haveDontFragment : Bool
  haveSctp : Bool
  haveSsl : Bool
  haveSendfile : Bool
  haveMsgTrunc : Bool
  haveFlowlabel : Bool
  haveTcpCongestion : Bool
  haveSoMaxPacingRate : Bool
  haveCpuAffinity : Bool
  hasTcpinfoRetransmits : Bool
  deriving DecidableEq, Repr

/-- The configuration header of the Windows port. -/
def Build.msvc : Build where
  windows := true
  haveIpprotoMptcp := false
  haveDontFragment := true
  haveSctp := false
  haveSsl := false
  haveSendfile := false
  haveMsgTrunc := false
  haveFlowlabel := false
  haveTcpCongestion := false
  haveSoMaxPacingRate := false
  haveCpuAffinity := true
  hasTcpinfoRetransmits := false

/-- A Linux build with every optional feature found. -/
def Build.linux : Build where
  windows := false
  haveIpprotoMptcp := true
  haveDontFragment := true
  haveSctp := true
  haveSsl := true
  haveSendfile := true
  haveMsgTrunc := true
  haveFlowlabel := true
  haveTcpCongestion := true
  haveSoMaxPacingRate := true
  haveCpuAffinity := true
  hasTcpinfoRetransmits := true

inductive ProtocolId where
  | tcp
  | udp
  | sctp
  deriving DecidableEq, Repr

inductive Mode where
  | sender
  | receiver
  | bidirectional
  deriving DecidableEq, Repr

/-- `none` is the zero byte that the role holds before `-s` or `-c`. -/
inductive Role where
  | none
  | client
  | server
  deriving DecidableEq, Repr

/-- Values of the process-wide error code. -/
inductive IErrno where
  | ieNone
  | ieServClient
  | ieServerOnly
  | ieClientOnly
  | ieNoRole
  | ieUnimp
  | ieDuration
  | ieNumStreams
  | ieBlockSize
  | ieUdpBlockSize
  | ieUdpFileTransfer
  | ieBufSize
  | ieInterval
  | ieMss
  | ieBadTos
  | ieSetFlow
  | ieBadPort
  | ieBurst
  | ieEndConditions
  | ieOmit
  | ieAffinity
  | ieReverseBidir
  | ieTotalInterval
  | ieUnits
  | ieProtocol
  | ieRecvParams
  | ieSendParams
  | ieMaxServerTestDurationExceeded
  | ieTotalRate
  | ieInitTest
  | ieAccept
  | ieRecvCookie
  | ieStreamConnect
  | ieStreamListen
  | ieSetTos
  | ieSetNodelay
  | ieInitStream
  | ieCreateStream
  | ieSendMessage
  | ieRecvMessage
  | ieCtrlClose
  | ieCtrlWrite
  | ieClientTerm
  | ieMessage
  | ieSelect
  | ieNoMsg
  | ieListen
  | ieRecvResults
  | ieSendResults
  | ieStreamId
  | ieSetAffinity
  | ieServerTestDurationExpired
  | iePthreadCreate
  | iePthreadAttrInit
  | iePthreadAttrDestroy
  | ieStreamRead
  | ieStreamWrite
  | ieAuthTest
  | ieStreamAccept
  | ieSetMss
  | ieSetBuf
  | ieSetBuf2
  | ieReuseAddr
  | ieV6Only
  | ieBindDev
  | ieNoSctp
  | ieSetSctpBindx
  | ieSetCongestion
  | ieSetUserTimeout
  | ieSetCntlKa
  | ieServerTerm
  | ieAccessDenied
  | ieCtrlRead
  | ieConnect
  deriving DecidableEq, Repr

def omitDefault : ℤ := 0
def durationDefault : ℤ := 10
def defaultTcpBlksize : ℤ := 128 * 1024
def defaultUdpBlksize : ℤ := 1460
def defaultSctpBlksize : ℤ := 64 * 1024
def maxUdpBlocksize : ℤ := 65535 - 8 - 20
def gsoBfMaxSize : ℤ := maxUdpBlocksize
def groBfMaxSize : ℤ := maxUdpBlocksize
def defaultPacingTimer : ℤ := 1000

/-- Number of elements of the cyclic traffic array. -/
def maxInterval : ℕ := 60

structure Settings where
  socketBufsize : ℤ
  blksize : ℤ
  rate : ℕ
  bitrateLimit : ℕ
  bitrateLimitInterval : ℚ
  bitrateLimitStatsPerInterval : ℤ
  fqrate : ℕ
  pacingTimer : ℤ
  burst : ℤ
  mss : ℤ
  tos : ℤ
  flowlabel : ℤ
  bytes : ℕ
  blocks : ℕ
  dontFragment : ℤ
  authtoken : Option String
  skipRxCopy : ℤ
  gso : ℤ
  gsoDgSize : ℤ
  gsoBfSize : ℤ
  gro : ℤ
  groBfSize : ℤ
  deriving DecidableEq, Repr

structure Test where
  role : Role
  mode : Mode
  senderHasRetransmits : ℤ
  otherSideHasRetransmits : ℤ
  protocol : ProtocolId
  omitTime : ℤ
  duration : ℤ
  maxServerDuration : ℤ
  diskfileName : Option String
  serverAffinity : ℤ
  title : Option String
  extraData : Option String
  congestion : Option String
  congestionUsed : Option String
  remoteCongestionUsed : Option String
  noDelay : ℤ
  reverse : ℤ
  bidirectional : ℤ
  zerocopy : ℤ
  getServerOutput : ℤ
  udpCounters64bit : ℤ
  repeatingPayload : ℤ
  mptcp : ℤ
  statsInterval : ℚ
  numStreams : ℤ
  bitrateLimitStatsCount : ℕ
  bitrateLimitIntervalsTrafficBytes : List ℕ
  bitrateLimitLastIntervalIndex : ℕ
  bitrateLimitExceeded : Bool
  settings : Settings
  iErrno : IErrno
  deriving DecidableEq, Repr

/-! ## Mode and protocol selection -/

def Test.checkSenderHasRetransmits (b : Build) (t : Test) : Test :=
  if t.mode ≠ .receiver ∧ t.protocol = .tcp ∧ b.hasTcpinfoRetransmits then
    { t with senderHasRetransmits := 1 }
  else
    { t with senderHasRetransmits := 0 }

/-- Protocols on the list that `iperf_defaults` builds. -/
def Build.supports (b : Build) : ProtocolId → Bool
  | .tcp => true
  | .udp => true
  | .sctp => b.haveSctp

/-- An unlisted protocol leaves the record alone except for the error code. -/
def Test.setProtocol (b : Build) (id : ProtocolId) (t : Test) : Test :=
  if b.supports id then
    { t with protocol := id }.checkSenderHasRetransmits b
  else
    { t with iErrno := .ieProtocol }

def Test.setTestRole (b : Build) (role : Role) (t : Test) : Test :=
  let mode :=
    if t.reverse = 0 then
      if t.bidirectional ≠ 0 then .bidirectional
      else match role with
        | .client => .sender
        | .server => .receiver
        | .none => t.mode
    else match role with
      | .client => .receiver
      | .server => .sender
      | .none => t.mode
  { t with role := role, mode := mode }.checkSenderHasRetransmits b

def Test.setTestReverse (b : Build) (reverse : ℤ) (t : Test) : Test :=
  let mode :=
    if reverse = 0 then
      match t.role with
      | .client => .sender
      | .server => .receiver
      | .none => t.mode
    else match t.role with
      | .client => .receiver
      | .server => .sender
      | .none => t.mode
  { t with reverse := reverse, mode := mode }.checkSenderHasRetransmits b

def Test.setTestBidirectional (b : Build) (bidirectional : ℤ) (t : Test) : Test :=
  if bidirectional ≠ 0 then
    { t with bidirectional := bidirectional, mode := .bidirectional }
  else
    { t with bidirectional := bidirectional }.setTestReverse b t.reverse

/-! ## Creation, defaults and reset -/

/-- A record straight from `iperf_new_test`: everything is zero.  The protocol
pointer is null there and is set by `iperfDefaults` before anything reads it. -/
def iperfNewTest : Test where
  role := .none
  mode := .receiver
  senderHasRetransmits := 0
  otherSideHasRetransmits := 0
  protocol := .tcp
  omitTime := 0
  duration := 0
  maxServerDuration := 0
  diskfileName := none
  serverAffinity := 0
  title := none
  extraData := none
  congestion := none
  congestionUsed := none
  remoteCongestionUsed := none
  noDelay := 0
  reverse := 0
  bidirectional := 0
  zerocopy := 0
  getServerOutput := 0
  udpCounters64bit := 0
  repeatingPayload := 0
  mptcp := 0
  statsInterval := 0
  numStreams := 0
  bitrateLimitStatsCount := 0
  bitrateLimitIntervalsTrafficBytes := List.replicate maxInterval 0
  bitrateLimitLastIntervalIndex := 0
  bitrateLimitExceeded := false
  settings :=
    { socketBufsize := 0, blksize := 0, rate := 0, bitrateLimit := 0,
      bitrateLimitInterval := 0, bitrateLimitStatsPerInterval := 0,
      fqrate := 0, pacingTimer := 0, burst := 0, mss := 0, tos := 0,
      flowlabel := 0, bytes := 0, blocks := 0, dontFragment := 0,
      authtoken := none, skipRxCopy := 0, gso := 0, gsoDgSize := 0,
      gsoBfSize := 0, gro := 0, groBfSize := 0 }
  iErrno := .ieNone

def Test.iperfDefaults (b : Build) (t : Test) : Test :=
  { t with
    omitTime := omitDefault
    duration := durationDefault
    diskfileName := none
    serverAffinity := -1
    title := none
    extraData := none
    congestion := none
    congestionUsed := none
    remoteCongestionUsed := none
    otherSideHasRetransmits := 0
    statsInterval := 1
    numStreams := 1
    zerocopy := 0
    settings := { t.settings with
      socketBufsize := 0
      blksize := defaultTcpBlksize
      rate := 0
      bitrateLimit := 0
      bitrateLimitInterval := 5
      bitrateLimitStatsPerInterval := 0
      fqrate := 0
      pacingTimer := defaultPacingTimer
      burst := 0
      gso := 0
      gsoDgSize := 0
      gsoBfSize := gsoBfMaxSize
      gro := 0
      groBfSize := groBfMaxSize
      mss := 0
      bytes := 0
      blocks := 0
      skipRxCopy := 0 } }.setProtocol b .tcp

/-- What `cleanup_server` does to the members kept here. -/
def Test.cleanupServer (t : Test) : Test :=
  { t with congestionUsed := none }

def Test.iperfResetTest (b : Build) (t : Test) : Test :=
  let t := { t with
    congestion := none
    remoteCongestionUsed := none
    role := .server
    mode := .receiver
    senderHasRetransmits := 0 }
  let t := t.setProtocol b .tcp
  { t with
    omitTime := omitDefault
    duration := durationDefault
    serverAffinity := -1
    otherSideHasRetransmits := 0
    bitrateLimitStatsCount := 0
    bitrateLimitLastIntervalIndex := 0
    bitrateLimitExceeded := false
    bitrateLimitIntervalsTrafficBytes := List.replicate maxInterval 0
    reverse := 0
    bidirectional := 0
    noDelay := 0
    numStreams := 1
    zerocopy := 0
    udpCounters64bit := 0
    title := none
    extraData := none
    settings := { t.settings with
      socketBufsize := 0
      blksize := defaultTcpBlksize
      rate := 0
      fqrate := 0
      burst := 0
      mss := 0
      tos := 0
      gsoDgSize := 0
      gsoBfSize := gsoBfMaxSize
      groBfSize := groBfMaxSize
      dontFragment := 0
      skipRxCopy := 0
      authtoken := if b.haveSsl then none else t.settings.authtoken } }

/-! ## State bytes -/

/-- The protocol state, which travels on the control connection as one signed
byte.  Bytes without a name are kept as they are. -/
inductive TestState where
  | initial
  | testStart
  | testRunning
  | testEnd
  | paramExchange
  | createStreams
  | serverTerminate
  | clientTerminate
  | exchangeResults
  | displayResults
  | iperfStart
  | iperfDone
  | accessDenied
  | serverError
  | other (byte : UInt8)
  deriving DecidableEq, Repr

namespace TestState

def toByte : TestState → UInt8
  | .initial => 0
  | .testStart => 1
  | .testRunning => 2
  | .testEnd => 4
  | .paramExchange => 9
  | .createStreams => 10
  | .serverTerminate => 11
  | .clientTerminate => 12
  | .exchangeResults => 13
  | .displayResults => 14
  | .iperfStart => 15
  | .iperfDone => 16
  | .accessDenied => 255
  | .serverError => 254
  | .other byte => byte

def named : List TestState :=
  [.initial, .testStart, .testRunning, .testEnd, .paramExchange, .createStreams,
    .serverTerminate, .clientTerminate, .exchangeResults, .displayResults,
    .iperfStart, .iperfDone, .accessDenied, .serverError]

def ofByte (byte : UInt8) : TestState :=
  (named.find? fun state => state.toByte = byte).getD (.other byte)

theorem ofByte_toByte_of_mem {state : TestState} (h : state ∈ named) :
    ofByte state.toByte = state := by
  revert state
  decide

end TestState

/-! ## Streams -/

structure StreamResult where
  bytesReceived : ℕ
  bytesSent : ℕ
  bytesReceivedThisInterval : ℕ
  bytesSentThisInterval : ℕ
  bytesSentOmit : ℕ
  streamRetrans : ℤ
  startTime : IperfTime
  endTime : IperfTime
  senderTime : ℚ
  receiverTime : ℚ
  deriving DecidableEq, Repr

/-- The members that the data transfer, the result exchange and the thread
handling use. -/
structure Stream where
  id : ℤ
  sender : Bool
  threadCreated : Bool
  done : Bool
  buffer : List UInt8
  packetCount : ℤ
  peerPacketCount : ℤ
  peerOmittedPacketCount : ℤ
  omittedPacketCount : ℤ
  jitter : ℚ
  prevTransit : ℚ
  outoforderPackets : ℤ
  omittedOutoforderPackets : ℤ
  cntError : ℤ
  omittedCntError : ℤ
  result : StreamResult
  deriving DecidableEq, Repr

/-- A stream as `iperf_new_stream` allocates it, before it gets an id. -/
def iperfNewStream (sender : Bool) (buffer : List UInt8) : Stream where
  id := 0
  sender := sender
  threadCreated := false
  done := false
  buffer := buffer
  packetCount := 0
  peerPacketCount := 0
  peerOmittedPacketCount := 0
  omittedPacketCount := 0
  jitter := 0
  prevTransit := 0
  outoforderPackets := 0
  omittedOutoforderPackets := 0
  cntError := 0
  omittedCntError := 0
  result :=
    { bytesReceived := 0, bytesSent := 0, bytesReceivedThisInterval := 0,
      bytesSentThisInterval := 0, bytesSentOmit := 0, streamRetrans := 0,
      startTime := IperfTime.ofCounters 0 0,
      endTime := IperfTime.ofCounters 0 0,
      senderTime := 0, receiverTime := 0 }

end Iperf3
