import Iperf3.TestModel
import Mathlib.Tactic

/-!
# The parameter message

`sendParameters` is the object the client writes in the parameter exchange
and `getParameters` is the server's reading of it.  The reading is split at
the places where one assignment depends on an earlier one: protocol, mode,
and the size rewriting for segmentation offload.  Within a block the
assignments are independent and stand in the order of the source.
-/

namespace Iperf3

open MachineInt

/-- Member names of the control messages.  Lookups ignore ASCII case, so one
key stands for all spellings of a name. -/
inductive Key where
  | tcp | udp | sctp | omitTime | serverAffinity | time | num | blockcount
  | mss | nodelay | parallel | reverse | bidirectional | mptcp | window | len
  | bandwidth | fqrate | pacingTimer | burst
  | gso | gsoDgSize | gsoBfSize | gro | groBfSize | tos | flowlabel
  | title | extraData | congestion | congestionUsed
  | getServerOutput | udpCounters64bit | repeatingPayload | zerocopy
  | dontFragment | authtoken | skipRxCopy | clientVersion
  | cpuUtilTotal | cpuUtilUser | cpuUtilSystem | senderHasRetransmits
  | serverOutputJson | serverOutputText | streams
  | id | bytes | retransmits | jitter | errors | omittedErrors
  | packets | omittedPackets | startTime | endTime
  | other (name : String)
  deriving DecidableEq, Repr

abbrev Json := CJson Key

def iperfVersion : String := "3.21"

/-! ## Writing -/

/-- Outcome of building the authentication token on the client. -/
inductive ClientAuth where
  | noCredentials
  | token (text : String)
  | failed
  deriving DecidableEq, Repr

def addWhen (present : Bool) (key : Key) (item : Json) : List (Key × Json) :=
  if present then [(key, item)] else []

def addString (key : Key) : Option String → List (Key × Json)
  | some text => [(key, .string text)]
  | none => []

def protocolKey : ProtocolId → Key
  | .tcp => .tcp
  | .udp => .udp
  | .sctp => .sctp

/-- Members for one test, in the order in which they are added. -/
def parameterMembers (b : Build) (token : Option String) (t : Test) :
    List (Key × Json) :=
  [(protocolKey t.protocol, .bool true)] ++
  [(.omitTime, .ofInt t.omitTime)] ++
  addWhen (t.serverAffinity ≠ -1) .serverAffinity (.ofInt t.serverAffinity) ++
  [(.time, .ofInt t.duration)] ++
  [(.num, .ofInt t.settings.bytes)] ++
  [(.blockcount, .ofInt t.settings.blocks)] ++
  addWhen (t.settings.mss ≠ 0) .mss (.ofInt t.settings.mss) ++
  addWhen (t.noDelay ≠ 0) .nodelay (.bool true) ++
  [(.parallel, .ofInt t.numStreams)] ++
  addWhen (t.reverse ≠ 0) .reverse (.bool true) ++
  addWhen (t.bidirectional ≠ 0) .bidirectional (.bool true) ++
  addWhen (b.haveIpprotoMptcp && t.mptcp ≠ 0) .mptcp (.bool true) ++
  addWhen (t.settings.socketBufsize ≠ 0) .window
    (.ofInt t.settings.socketBufsize) ++
  addWhen (t.settings.blksize ≠ 0) .len (.ofInt t.settings.blksize) ++
  addWhen (t.settings.rate ≠ 0) .bandwidth (.ofInt t.settings.rate) ++
  addWhen (t.settings.fqrate ≠ 0) .fqrate (.ofInt t.settings.fqrate) ++
  addWhen (t.settings.pacingTimer ≠ 0) .pacingTimer
    (.ofInt t.settings.pacingTimer) ++
  addWhen (t.settings.burst ≠ 0) .burst (.ofInt t.settings.burst) ++
  addWhen (t.protocol = .udp) .gso (.ofInt t.settings.gso) ++
  addWhen (t.protocol = .udp) .gsoDgSize (.ofInt t.settings.gsoDgSize) ++
  addWhen (t.protocol = .udp) .gsoBfSize (.ofInt t.settings.gsoBfSize) ++
  addWhen (t.protocol = .udp) .gro (.ofInt t.settings.gro) ++
  addWhen (t.protocol = .udp) .groBfSize (.ofInt t.settings.groBfSize) ++
  addWhen (t.settings.tos ≠ 0) .tos (.ofInt t.settings.tos) ++
  addWhen (t.settings.flowlabel ≠ 0) .flowlabel (.ofInt t.settings.flowlabel) ++
  addString .title t.title ++
  addString .extraData t.extraData ++
  addString .congestion t.congestion ++
  addString .congestionUsed t.congestionUsed ++
  addWhen (t.getServerOutput ≠ 0) .getServerOutput (.ofInt t.getServerOutput) ++
  addWhen (t.udpCounters64bit ≠ 0) .udpCounters64bit
    (.ofInt t.udpCounters64bit) ++
  addWhen (t.repeatingPayload ≠ 0) .repeatingPayload
    (.ofInt t.repeatingPayload) ++
  addWhen (t.zerocopy ≠ 0) .zerocopy (.ofInt t.zerocopy) ++
  addWhen (b.haveDontFragment && t.settings.dontFragment ≠ 0) .dontFragment
    (.ofInt t.settings.dontFragment) ++
  (if b.haveSsl then addString .authtoken token else []) ++
  addWhen (t.settings.skipRxCopy ≠ 0) .skipRxCopy
    (.ofInt t.settings.skipRxCopy) ++
  [(.clientVersion, .string iperfVersion)]

/-- The object the client sends, or `none` when the token cannot be built. -/
def sendParameters (b : Build) (auth : ClientAuth) (t : Test) : Option Json :=
  match auth with
  | .noCredentials => some (.object (parameterMembers b none t))
  | .token text => some (.object (parameterMembers b (some text) t))
  | .failed =>
      if b.haveSsl then none else some (.object (parameterMembers b none t))

/-! ## Reading -/

/-- An `int` member assigned from a number item, when the item is there. -/
def readInt (j : Json) (key : Key) (old : ℤ) : ℤ :=
  ((j.numberItem key).map int32).getD old

/-- An `iperf_size_t` member assigned from a number item. -/
def readSize (j : Json) (key : Key) (old : ℕ) : ℕ :=
  ((j.numberItem key).map uint64).getD old

def readText (j : Json) (key : Key) (old : Option String) : Option String :=
  (j.stringItem key).or old

/-- A flag that is set to one by the presence of a number item. -/
def readPresence (j : Json) (key : Key) (old : ℤ) : ℤ :=
  if (j.numberItem key).isSome then 1 else old

/-- Protocol selection.  The second component is false when a UDP test is
refused because the server transfers a file. -/
def readProtocol (b : Build) (j : Json) (t : Test) : Test × Bool :=
  let t := if j.boolItem .tcp then t.setProtocol b .tcp else t
  let (t, ok) :=
    if j.boolItem .udp then
      if t.diskfileName.isSome then
        ({ t with iErrno := .ieUdpFileTransfer }, false)
      else (t.setProtocol b .udp, true)
    else (t, true)
  let t := if j.boolItem .sctp then t.setProtocol b .sctp else t
  (t, ok)

/-- From `omit` to `parallel`.  The byte and block limits are cleared first. -/
def readLimits (j : Json) (t : Test) : Test :=
  { t with
    omitTime := readInt j .omitTime t.omitTime
    serverAffinity := readInt j .serverAffinity t.serverAffinity
    duration := readInt j .time t.duration
    noDelay := if j.boolItem .nodelay then 1 else t.noDelay
    numStreams := readInt j .parallel t.numStreams
    settings := { t.settings with
      bytes := readSize j .num 0
      blocks := readSize j .blockcount 0
      mss := readInt j .mss t.settings.mss } }

def readDirection (b : Build) (j : Json) (t : Test) : Test :=
  let t := if j.boolItem .reverse then t.setTestReverse b 1 else t
  if j.boolItem .bidirectional then t.setTestBidirectional b 1 else t

/-- From `mptcp` to `gso_bf_size`. -/
def readSizes (b : Build) (j : Json) (t : Test) : Test :=
  { t with
    mptcp := if b.haveIpprotoMptcp && j.boolItem .mptcp then 1 else t.mptcp
    settings := { t.settings with
      socketBufsize := readInt j .window t.settings.socketBufsize
      blksize := readInt j .len t.settings.blksize
      gso := readInt j .gso t.settings.gso
      gsoDgSize := readInt j .gsoDgSize t.settings.gsoDgSize
      gsoBfSize := readInt j .gsoBfSize t.settings.gsoBfSize } }

/-- Sizes for a client that asks for segmentation offload without giving a
datagram size. -/
def deriveGsoSizes (t : Test) : Test :=
  if t.protocol = .udp ∧ t.settings.gso = 1 ∧ t.settings.gsoDgSize = 0 then
    if 0 < t.settings.blksize then
      { t with settings := { t.settings with
          gsoDgSize := t.settings.blksize
          gsoBfSize :=
            t.settings.gsoBfSize.tdiv t.settings.blksize * t.settings.blksize } }
    else
      { t with settings := { t.settings with gsoDgSize := defaultUdpBlksize } }
  else t

/-- From `gro` to `flowlabel`. -/
def readRates (j : Json) (t : Test) : Test :=
  { t with settings := { t.settings with
      gro := readInt j .gro t.settings.gro
      groBfSize := readInt j .groBfSize t.settings.groBfSize
      rate := readSize j .bandwidth t.settings.rate
      fqrate := readSize j .fqrate t.settings.fqrate
      pacingTimer := readInt j .pacingTimer t.settings.pacingTimer
      burst := readInt j .burst t.settings.burst
      tos := readInt j .tos t.settings.tos
      flowlabel := readInt j .flowlabel t.settings.flowlabel } }

/-- From `title` to `skip_rx_copy`.  The last of them is taken from an item of
any type. -/
def readOptions (b : Build) (j : Json) (t : Test) : Test :=
  { t with
    title := readText j .title t.title
    extraData := readText j .extraData t.extraData
    congestion := readText j .congestion t.congestion
    congestionUsed := readText j .congestionUsed t.congestionUsed
    getServerOutput := readPresence j .getServerOutput t.getServerOutput
    udpCounters64bit := readPresence j .udpCounters64bit t.udpCounters64bit
    repeatingPayload := readPresence j .repeatingPayload t.repeatingPayload
    zerocopy := readInt j .zerocopy t.zerocopy
    settings := { t.settings with
      dontFragment :=
        if b.haveDontFragment then
          readInt j .dontFragment t.settings.dontFragment
        else t.settings.dontFragment
      authtoken :=
        if b.haveSsl then readText j .authtoken t.settings.authtoken
        else t.settings.authtoken
      skipRxCopy :=
        ((j.getObjectItem .skipRxCopy).map fun item => int32 item.valueint).getD
          t.settings.skipRxCopy } }

def readRetransmits (b : Build) (t : Test) : Test :=
  if t.mode ≠ .receiver ∧ t.protocol = .tcp ∧ b.hasTcpinfoRetransmits then
    { t with senderHasRetransmits := 1 }
  else t

/-- Every assignment that `get_parameters` makes from the message, with the
verdict of the file-transfer check. -/
def readParameters (b : Build) (j : Json) (t : Test) : Test × Bool :=
  let (t, ok) := readProtocol b j t
  let t := readLimits j t
  let t := readDirection b j t
  let t := readSizes b j t
  let t := deriveGsoSizes t
  let t := readRates j t
  let t := readOptions b j t
  (readRetransmits b t, ok)

/-! ## Server limits -/

def Test.directions (t : Test) : ℕ :=
  if t.mode = .bidirectional then 2 else 1

/-- The product `num_streams * rate * directions` in 64-bit arithmetic.  The
stream count is an `int` and is converted before it is multiplied. -/
def Test.totalRequestedRate (t : Test) (rate : ℕ) : ℕ :=
  uint64 (uint64 (uint64 t.numStreams * rate) * t.directions)

def Test.exceedsServerDuration (t : Test) : Bool :=
  0 < t.maxServerDuration &&
    (t.maxServerDuration < int32 (t.duration + t.omitTime) || t.duration = 0)

def Test.exceedsBitrateLimit (t : Test) (rate : ℕ) : Bool :=
  t.settings.bitrateLimit ≠ 0 &&
    t.settings.bitrateLimit < t.totalRequestedRate rate

/-- The three checks at the end of `get_parameters`; a later failure replaces
the error code of an earlier one. -/
def checkLimits (t : Test) (ok : Bool) : Test × Bool :=
  let (t, ok) :=
    if t.exceedsServerDuration then
      ({ t with iErrno := .ieMaxServerTestDurationExceeded }, false)
    else (t, ok)
  let (t, ok) :=
    if t.exceedsBitrateLimit t.settings.rate then
      ({ t with iErrno := .ieTotalRate }, false)
    else (t, ok)
  if t.exceedsBitrateLimit t.settings.fqrate then
    ({ t with iErrno := .ieTotalRate }, false)
  else (t, ok)

/-- The server's side of the parameter exchange on the result of reading one
JSON frame.  The second component is false when it returns `-1`. -/
def getParameters (b : Build) (message : Option Json) (t : Test) : Test × Bool :=
  match message with
  | none => ({ t with iErrno := .ieRecvParams }, false)
  | some j =>
      let (t, ok) := readParameters b j t
      checkLimits t ok

end Iperf3
