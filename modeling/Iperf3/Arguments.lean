import Iperf3.Parameters
import Mathlib.Tactic

/-!
# The command line

`parseArguments` follows `iperf_parse_arguments` on the options that
`getopt_long` delivers.  An option carries its argument after the numeric
conversion and is stored in the width of its member; a failed conversion ends
the parse in the source and has no option here.  Options that touch none of
the members of `Test` are `other`, with the scope that decides whether the
role accepts them.
-/

namespace Iperf3

open MachineInt

def maxTcpBuffer : ℚ := 512 * 1024 * 1024
def maxBlocksize : ℤ := 1024 * 1024
def minUdpBlocksize : ℤ := 4 + 4 + 8
-- The double nearest to 0.1.
def minIntervalSecs : ℚ := 3602879701896397 / 36028797018963968
def maxIntervalSecs : ℚ := 60
def maxTime : ℤ := 86400
def maxOmitTime : ℤ := 600
def maxBurst : ℤ := 1000
def maxMss : ℤ := 32 * 1024 - 1
def maxStreams : ℤ := 128
def udpRate : ℕ := 1024 * 1024

inductive OptScope where
  | either
  | server
  | client
  deriving DecidableEq, Repr

inductive Opt where
  | other (scope : OptScope)
  | server
  | client
  | interval (secs : ℚ)
  | udp
  | sctp
  | nstreams (rate : ℕ) (burst : Option ℤ)
  | bitrate (rate : ℕ) (burst : Option ℤ)
  | serverBitrateLimit (rate : ℕ) (interval : Option ℚ)
  | time (secs : ℤ)
  | bytes (count : ℕ)
  | blockcount (count : ℕ)
  | length (count : ℕ)
  | parallel (count : ℤ)
  | reverse
  | bidir
  | window (size : ℚ)
  | clientPort (port : ℤ)
  | setMss (size : ℤ)
  | noDelay
  | tos (value : ℤ)
  | dscp (value : ℤ)
  | extraData (text : String)
  | flowlabel (value : ℤ)
  | zerocopy
  | repeatingPayload
  | omitTime (secs : ℤ)
  | file (name : String)
  | serverMaxDuration (secs : ℤ)
  | affinity (server : Option ℤ)
  | title (text : String)
  | congestion (name : String)
  | getServerOutput
  | udpCounters64bit
  | noFqSocketPacing
  | fqRate (rate : ℕ)
  | dontFragment
  | skipRxCopy
  | pacingTimer (usecs : ℕ)
  | mptcp
  | gsro
  deriving DecidableEq, Repr

/-- A refused command line: an error code, or the usage text and `exit`. -/
inductive ArgError where
  | errno (code : IErrno)
  | exit
  deriving DecidableEq, Repr

structure ParseState where
  test : Test
  blksize : ℤ
  serverFlag : Bool
  clientFlag : Bool
  rateFlag : Bool
  durationFlag : Bool
  gsroFlag : Bool
  deriving DecidableEq, Repr

def ParseState.initial (t : Test) : ParseState :=
  ⟨t, 0, false, false, false, false, false⟩

def ParseState.clientOnly (p : ParseState) (t : Test) : ParseState :=
  { p with test := t, clientFlag := true }

def ParseState.serverOnly (p : ParseState) (t : Test) : ParseState :=
  { p with test := t, serverFlag := true }

def refuse (code : IErrno) : Except ArgError ParseState :=
  .error (.errno code)

def outsideIntervalRange (secs : ℚ) : Bool :=
  (secs < minIntervalSecs || maxIntervalSecs < secs) && secs ≠ 0

def parseBitrate (p : ParseState) (rate : ℕ) (burst : Option ℤ) :
    Except ArgError ParseState :=
  let s := p.test.settings
  if burst.any fun n => n ≤ 0 || maxBurst < n then refuse .ieBurst
  else .ok { p.clientOnly { p.test with settings := { s with
      burst := burst.getD s.burst
      rate := uint64 rate } } with rateFlag := true }

/-- One turn of the option loop. -/
def parseOption (b : Build) (p : ParseState) : Opt → Except ArgError ParseState
  | .other .either => .ok p
  | .other .server => .ok (p.serverOnly p.test)
  | .other .client => .ok (p.clientOnly p.test)
  | .server =>
      if p.test.role = .client then refuse .ieServClient
      else .ok { p with test := p.test.setTestRole b .server }
  | .client =>
      if p.test.role = .server then refuse .ieServClient
      else .ok { p with test := p.test.setTestRole b .client }
  | .interval secs =>
      if outsideIntervalRange secs then refuse .ieInterval
      else .ok { p with test := { p.test with statsInterval := secs } }
  | .udp => .ok (p.clientOnly (p.test.setProtocol b .udp))
  | .sctp =>
      if b.haveSctp then .ok (p.clientOnly (p.test.setProtocol b .sctp))
      else refuse .ieUnimp
  -- The stream-count case has no `break` and runs on into the rate case.
  | .nstreams rate burst => parseBitrate p rate burst
  | .bitrate rate burst => parseBitrate p rate burst
  | .serverBitrateLimit rate interval =>
      let s := p.test.settings
      if interval.any outsideIntervalRange then refuse .ieTotalInterval
      else .ok (p.serverOnly { p.test with settings := { s with
          bitrateLimitInterval := interval.getD s.bitrateLimitInterval
          bitrateLimit := uint64 rate } })
  | .time secs =>
      if maxTime < secs || secs < 0 then refuse .ieDuration
      else .ok { p.clientOnly { p.test with duration := secs } with
        durationFlag := true }
  | .bytes count =>
      .ok (p.clientOnly { p.test with
        settings := { p.test.settings with bytes := uint64 count } })
  | .blockcount count =>
      .ok (p.clientOnly { p.test with
        settings := { p.test.settings with blocks := uint64 count } })
  | .length count => .ok { p.clientOnly p.test with blksize := int32 count }
  | .parallel count =>
      if maxStreams < int32 count then refuse .ieNumStreams
      else .ok (p.clientOnly { p.test with numStreams := int32 count })
  | .reverse =>
      if p.test.bidirectional ≠ 0 then refuse .ieReverseBidir
      else .ok (p.clientOnly (p.test.setTestReverse b 1))
  | .bidir =>
      if p.test.reverse ≠ 0 then refuse .ieReverseBidir
      else .ok (p.clientOnly (p.test.setTestBidirectional b 1))
  | .window size =>
      if maxTcpBuffer < size then refuse .ieBufSize
      else .ok (p.clientOnly { p.test with settings := { p.test.settings with
          socketBufsize := int32 (size.num.tdiv size.den) } })
  | .clientPort port =>
      if port < 1 || 65535 < port then refuse .ieBadPort else .ok p
  | .setMss size =>
      if maxMss < int32 size then refuse .ieMss
      else .ok (p.clientOnly { p.test with
        settings := { p.test.settings with mss := int32 size } })
  | .noDelay => .ok (p.clientOnly { p.test with noDelay := 1 })
  | .tos value =>
      if value < 0 || 255 < value then refuse .ieBadTos
      else .ok (p.clientOnly { p.test with
        settings := { p.test.settings with tos := value } })
  | .dscp value =>
      if int32 value < 0 then refuse .ieBadTos
      else .ok (p.clientOnly { p.test with
        settings := { p.test.settings with tos := int32 value } })
  | .extraData text =>
      .ok (p.clientOnly { p.test with extraData := some text })
  | .flowlabel value =>
      if b.haveFlowlabel then
        if value < 1 || 0xfffff < value then refuse .ieSetFlow
        else .ok (p.clientOnly { p.test with
          settings := { p.test.settings with flowlabel := value } })
      else refuse .ieUnimp
  | .zerocopy =>
      if b.haveSendfile then .ok (p.clientOnly { p.test with zerocopy := 1 })
      else refuse .ieUnimp
  | .repeatingPayload =>
      .ok (p.clientOnly { p.test with repeatingPayload := 1 })
  | .omitTime secs =>
      if secs < 0 || maxOmitTime < secs then refuse .ieOmit
      else .ok (p.clientOnly { p.test with omitTime := secs })
  | .file name => .ok { p with test := { p.test with diskfileName := some name } }
  | .serverMaxDuration secs =>
      if secs < 0 || maxTime < secs then refuse .ieDuration
      else .ok (p.serverOnly { p.test with maxServerDuration := secs })
  | .affinity none =>
      if b.haveCpuAffinity then .ok p else refuse .ieUnimp
  | .affinity (some cpu) =>
      if b.haveCpuAffinity then
        if cpu < 0 || 1024 < cpu then refuse .ieAffinity
        else .ok (p.clientOnly { p.test with serverAffinity := cpu })
      else refuse .ieUnimp
  | .title text => .ok (p.clientOnly { p.test with title := some text })
  | .congestion name =>
      if b.haveTcpCongestion then
        .ok (p.clientOnly { p.test with congestion := some name })
      else refuse .ieUnimp
  | .getServerOutput => .ok (p.clientOnly { p.test with getServerOutput := 1 })
  | .udpCounters64bit => .ok (p.clientOnly { p.test with udpCounters64bit := 1 })
  | .noFqSocketPacing =>
      if b.haveSoMaxPacingRate then
        .ok (p.clientOnly { p.test with
          settings := { p.test.settings with fqrate := 0 } })
      else refuse .ieUnimp
  | .fqRate rate =>
      if b.haveSoMaxPacingRate then
        .ok (p.clientOnly { p.test with
          settings := { p.test.settings with fqrate := uint64 rate } })
      else refuse .ieUnimp
  | .dontFragment =>
      if b.haveDontFragment then
        .ok (p.clientOnly { p.test with
          settings := { p.test.settings with dontFragment := 1 } })
      else .error .exit
  | .skipRxCopy =>
      if b.haveMsgTrunc then
        .ok (p.clientOnly { p.test with
          settings := { p.test.settings with skipRxCopy := 1 } })
      else .error .exit
  | .pacingTimer usecs =>
      .ok (p.clientOnly { p.test with
        settings := { p.test.settings with pacingTimer := int32 usecs } })
  | .mptcp =>
      if b.haveIpprotoMptcp then
        .ok { p with test := { p.test.setProtocol b .tcp with mptcp := 1 } }
      else .error .exit
  | .gsro =>
      .ok { p with
        gsroFlag := true
        test := { p.test with
          settings := { p.test.settings with gso := 1, gro := 1 } } }

/-! ## Checks and derived settings after the loop -/

def checkScopes (p : ParseState) : Except ArgError ParseState :=
  if p.test.role = .client ∧ p.serverFlag then refuse .ieServerOnly
  else if p.test.role = .server ∧ p.clientFlag then refuse .ieClientOnly
  else if p.test.role = .server ∧ p.gsroFlag then refuse .ieClientOnly
  else if p.test.diskfileName.isSome ∧ p.test.protocol = .udp then
    refuse .ieUdpFileTransfer
  else .ok p

/-- The block size after the protocol's default has replaced a zero. -/
def ParseState.effectiveBlksize (p : ParseState) : ℤ :=
  if p.blksize = 0 then
    match p.test.protocol with
    | .udp => 0
    | .sctp => defaultSctpBlksize
    | .tcp => defaultTcpBlksize
  else p.blksize

def checkBlksize (p : ParseState) : Except ArgError ParseState :=
  let blksize := p.effectiveBlksize
  if (p.test.protocol ≠ .udp ∧ blksize ≤ 0) ∨ maxBlocksize < blksize then
    refuse .ieBlockSize
  else if p.test.protocol = .udp ∧ 0 < blksize ∧
      (blksize < minUdpBlocksize ∨ maxUdpBlocksize < blksize) then
    refuse .ieUdpBlockSize
  else .ok p

/-- Datagram and buffer size for segmentation offload, from a block size. -/
def Settings.gsoSizesFrom (s : Settings) (blksize : ℤ) : Settings :=
  if 0 < blksize then
    { s with
      gsoDgSize := blksize
      gsoBfSize := s.gsoBfSize.tdiv blksize * blksize }
  else { s with gsoDgSize := defaultUdpBlksize }

def applyBlksize (p : ParseState) : Test :=
  let t := p.test
  let blksize := p.effectiveBlksize
  let s :=
    if t.protocol = .udp ∧ t.settings.gso ≠ 0 then t.settings.gsoSizesFrom blksize
    else t.settings
  { t with settings := { s with
      blksize := blksize
      rate := if p.rateFlag then s.rate
        else if t.protocol = .udp then udpRate else 0 } }

/-- Byte count taken from the size of the `-F` file, and the duration cleared
by a byte or block limit. -/
def applyEndConditions (p : ParseState) (fileSize : Option ℕ) (t : Test) : Test :=
  let bytes :=
    if t.settings.bytes = 0 ∧ t.settings.blocks = 0 ∧ p.durationFlag = false ∧
        t.diskfileName.isSome ∧ t.role = .client then
      fileSize.getD t.settings.bytes
    else t.settings.bytes
  let duration :=
    if (bytes ≠ 0 ∨ t.settings.blocks ≠ 0) ∧ p.durationFlag = false then 0
    else t.duration
  { t with duration := duration, settings := { t.settings with bytes := bytes } }

def checkEndConditions (p : ParseState) (t : Test) : Except ArgError Test :=
  if (p.durationFlag ∧ t.settings.bytes ≠ 0) ∨
      (p.durationFlag ∧ t.settings.blocks ≠ 0) ∨
      (t.settings.bytes ≠ 0 ∧ t.settings.blocks ≠ 0) then
    .error (.errno .ieEndConditions)
  else if t.role = .none then .error (.errno .ieNoRole)
  else .ok t

/-- Number of statistics periods over which the total rate is averaged. -/
def Test.statsPerInterval (t : Test) : ℤ :=
  let interval := t.settings.bitrateLimitInterval
  if interval ≤ t.statsInterval ∨ t.statsInterval = 0 then 1
  else Binary64.roundHalfAway (Binary64.roundDouble (interval / t.statsInterval))

def applyStatsPerInterval (t : Test) : Test :=
  if t.settings.bitrateLimitInterval ≠ 0 then
    { t with settings := { t.settings with
        bitrateLimitStatsPerInterval := t.statsPerInterval } }
  else t

/-- The whole of `iperf_parse_arguments`.  `fileSize` is what `stat` reports
for the `-F` file. -/
def parseArguments (b : Build) (fileSize : Option ℕ) (opts : List Opt) (t : Test) :
    Except ArgError Test := do
  let p ← opts.foldlM (parseOption b) (ParseState.initial t)
  let p ← checkScopes p
  let p ← checkBlksize p
  let t ← checkEndConditions p (applyEndConditions p fileSize (applyBlksize p))
  return applyStatsPerInterval t

/-- A record as `main` prepares it before it reads the command line. -/
def iperfStart (b : Build) : Test :=
  iperfNewTest.iperfDefaults b

end Iperf3
