import Iperf3.ClientStart
import Iperf3.JsonFrame
import Mathlib.Tactic

/-!
# The parameter round trip

What the client sends in the parameter exchange is what a freshly started
server has afterwards.  The message is first turned into a function of the
key; every member of the server's record is then one of a few kinds of
reading applied to it.
-/

namespace Iperf3

open MachineInt

/-! ## The message as a function of the key -/

theorem lookup_singleton (key name : Key) (item : Json) :
    List.lookup name [(key, item)] = if name = key then some item else none := by
  by_cases hname : name = key
  · simp [hname]
  · have hbeq : (name == key) = false := beq_false_of_ne hname
    rw [List.lookup_cons, hbeq, if_neg hname]
    rfl

theorem lookup_addWhen (present : Bool) (key name : Key) (item : Json) :
    (addWhen present key item).lookup name =
      if name = key ∧ present = true then some item else none := by
  cases present with
  | true => simp [addWhen, lookup_singleton]
  | false => simp [addWhen]

theorem lookup_addString (key name : Key) (text : Option String) :
    (addString key text).lookup name =
      if name = key then text.map CJson.string else none := by
  cases text with
  | none => simp [addString]
  | some text => simp [addString, lookup_singleton]

def sentWhen (present : Bool) (n : ℤ) : Option Json :=
  if present then some (.ofInt n) else none

def flagWhen (present : Bool) : Option Json :=
  if present then some (.bool true) else none

/-- The item under each key of the parameter message. -/
def parameterItem (b : Build) (token : Option String) (t : Test) : Key → Option Json
  | .tcp => flagWhen (t.protocol = .tcp)
  | .udp => flagWhen (t.protocol = .udp)
  | .sctp => flagWhen (t.protocol = .sctp)
  | .omitTime => sentWhen true t.omitTime
  | .serverAffinity => sentWhen (t.serverAffinity ≠ -1) t.serverAffinity
  | .time => sentWhen true t.duration
  | .num => sentWhen true t.settings.bytes
  | .blockcount => sentWhen true t.settings.blocks
  | .mss => sentWhen (t.settings.mss ≠ 0) t.settings.mss
  | .nodelay => flagWhen (t.noDelay ≠ 0)
  | .parallel => sentWhen true t.numStreams
  | .reverse => flagWhen (t.reverse ≠ 0)
  | .bidirectional => flagWhen (t.bidirectional ≠ 0)
  | .mptcp => flagWhen (b.haveIpprotoMptcp && t.mptcp ≠ 0)
  | .window => sentWhen (t.settings.socketBufsize ≠ 0) t.settings.socketBufsize
  | .len => sentWhen (t.settings.blksize ≠ 0) t.settings.blksize
  | .bandwidth => sentWhen (t.settings.rate ≠ 0) t.settings.rate
  | .fqrate => sentWhen (t.settings.fqrate ≠ 0) t.settings.fqrate
  | .pacingTimer => sentWhen (t.settings.pacingTimer ≠ 0) t.settings.pacingTimer
  | .burst => sentWhen (t.settings.burst ≠ 0) t.settings.burst
  | .gso => sentWhen (t.protocol = .udp) t.settings.gso
  | .gsoDgSize => sentWhen (t.protocol = .udp) t.settings.gsoDgSize
  | .gsoBfSize => sentWhen (t.protocol = .udp) t.settings.gsoBfSize
  | .gro => sentWhen (t.protocol = .udp) t.settings.gro
  | .groBfSize => sentWhen (t.protocol = .udp) t.settings.groBfSize
  | .tos => sentWhen (t.settings.tos ≠ 0) t.settings.tos
  | .flowlabel => sentWhen (t.settings.flowlabel ≠ 0) t.settings.flowlabel
  | .title => t.title.map CJson.string
  | .extraData => t.extraData.map CJson.string
  | .congestion => t.congestion.map CJson.string
  | .congestionUsed => t.congestionUsed.map CJson.string
  | .getServerOutput => sentWhen (t.getServerOutput ≠ 0) t.getServerOutput
  | .udpCounters64bit => sentWhen (t.udpCounters64bit ≠ 0) t.udpCounters64bit
  | .repeatingPayload => sentWhen (t.repeatingPayload ≠ 0) t.repeatingPayload
  | .zerocopy => sentWhen (t.zerocopy ≠ 0) t.zerocopy
  | .dontFragment =>
      sentWhen (b.haveDontFragment && t.settings.dontFragment ≠ 0) t.settings.dontFragment
  | .authtoken => if b.haveSsl then token.map CJson.string else none
  | .skipRxCopy => sentWhen (t.settings.skipRxCopy ≠ 0) t.settings.skipRxCopy
  | .clientVersion => some (.string iperfVersion)
  | _ => none

theorem lookup_parameterMembers
    (b : Build) (token : Option String) (t : Test) (key : Key) :
    (parameterMembers b token t).lookup key = parameterItem b token t key := by
  have hssl : (if b.haveSsl then addString .authtoken token else []).lookup key =
      if key = .authtoken ∧ b.haveSsl = true then token.map CJson.string else none := by
    by_cases hssl : b.haveSsl = true
    · simp [hssl, lookup_addString]
    · simp [hssl]
  unfold parameterMembers
  simp only [List.lookup_append, lookup_addWhen, lookup_addString, hssl, lookup_singleton]
  cases key <;> simp [parameterItem, sentWhen, flagWhen, protocolKey] <;>
    cases t.protocol <;> simp

/-! ## Reading one member -/

section Reading

variable {f : ℚ → ℚ} {j : Json} {key : Key}

theorem numberItem_sent
    (hf : CJson.KeepsIntegers f) {present : Bool} {n : ℤ}
    (hitem : j.getObjectItem key = sentWhen present n) (hn : |n| ≤ 2 ^ 53) :
    (j.mapNumbers f).numberItem key = if present then some n else none := by
  cases present with
  | true => exact CJson.numberItem_mapNumbers hf hitem hn
  | false =>
      unfold CJson.numberItem
      rw [CJson.getObjectItemType_mapNumbers, CJson.getObjectItemType, hitem]
      rfl

theorem IsInt.abs_le_pow {n : ℤ} (h : IsInt n) : |n| ≤ 2 ^ 53 := by
  have hbounds := int32_bounds n
  rw [h] at hbounds
  rw [abs_le]
  constructor <;> omega

/-- An `int` member is read back, or its default is the value that is not sent. -/
theorem readInt_sent
    (hf : CJson.KeepsIntegers f) {present : Bool} {n old : ℤ}
    (hitem : j.getObjectItem key = sentWhen present n) (hn : IsInt n)
    (hdefault : present = false → old = n) :
    readInt (j.mapNumbers f) key old = n := by
  unfold readInt
  rw [numberItem_sent hf hitem hn.abs_le_pow]
  cases present with
  | true => exact hn
  | false => exact hdefault rfl

theorem readSize_sent
    (hf : CJson.KeepsIntegers f) {present : Bool} {n old : ℕ}
    (hitem : j.getObjectItem key = sentWhen present n) (hn : n ≤ 2 ^ 53)
    (hdefault : present = false → old = n) :
    readSize (j.mapNumbers f) key old = n := by
  have habs : |(n : ℤ)| ≤ 2 ^ 53 := by
    rw [abs_of_nonneg (by omega)]
    exact_mod_cast hn
  unfold readSize
  rw [numberItem_sent hf hitem habs]
  cases present with
  | true =>
      show uint64 n = n
      rw [uint64_eq]
      omega
  | false => exact hdefault rfl

theorem readPresence_sent
    (hf : CJson.KeepsIntegers f) {n old : ℤ}
    (hitem : j.getObjectItem key = sentWhen (n ≠ 0) n) (hn : IsFlag n) (hold : old = 0) :
    readPresence (j.mapNumbers f) key old = n := by
  unfold readPresence
  rw [numberItem_sent hf hitem hn.isInt.abs_le_pow, hold]
  rcases hn with rfl | rfl <;> rfl

theorem readText_sent
    {text old : Option String} (hitem : j.getObjectItem key = text.map CJson.string)
    (hold : old = none) :
    readText (j.mapNumbers f) key old = text := by
  unfold readText CJson.stringItem
  rw [CJson.getObjectItemType_mapNumbers, CJson.getObjectItemType, hitem, hold]
  cases text <;> rfl

theorem boolItem_sent
    {present : Bool} (hitem : j.getObjectItem key = flagWhen present) :
    (j.mapNumbers f).boolItem key = present := by
  unfold CJson.boolItem
  rw [CJson.getObjectItemType_mapNumbers, CJson.getObjectItemType, hitem]
  cases present <;> rfl

theorem valueint_sent
    (hf : CJson.KeepsIntegers f) {n old : ℤ}
    (hitem : j.getObjectItem key = sentWhen (n ≠ 0) n) (hn : IsInt n) (hold : old = 0) :
    (((j.mapNumbers f).getObjectItem key).map fun item => int32 item.valueint).getD old =
      n := by
  rw [CJson.getObjectItem_mapNumbers, hitem, hold]
  by_cases hzero : n = 0
  · simp [sentWhen, hzero]
  · simp only [sentWhen, hzero, ne_eq, not_false_eq_true, decide_true, if_true,
      Option.map_some, Option.getD_some, CJson.ofInt, CJson.mapNumbers, CJson.valueint,
      Binary64.roundDouble_intCast hn.abs_le_pow, hf n hn.abs_le_pow,
      CJson.saturate_intCast hn.abs_le_pow]
    exact hn

/-- A Boolean item sets a flag that is zero by default. -/
theorem flag_sent
    {n old : ℤ} (hitem : j.getObjectItem key = flagWhen (n ≠ 0)) (hn : IsFlag n)
    (hold : old = 0) :
    (if (j.mapNumbers f).boolItem key then 1 else old) = n := by
  rw [boolItem_sent hitem, hold]
  rcases hn with rfl | rfl <;> rfl

end Reading

/-! ## A freshly started server -/

/-- The defaults that stand for the values a client does not send. -/
structure FreshServer (t : Test) : Prop where
  role : t.role = .server
  mode : t.mode = .receiver
  serverAffinity : t.serverAffinity = -1
  title : t.title = none
  extraData : t.extraData = none
  congestion : t.congestion = none
  noDelay : t.noDelay = 0
  reverse : t.reverse = 0
  bidirectional : t.bidirectional = 0
  zerocopy : t.zerocopy = 0
  getServerOutput : t.getServerOutput = 0
  udpCounters64bit : t.udpCounters64bit = 0
  repeatingPayload : t.repeatingPayload = 0
  mss : t.settings.mss = 0
  socketBufsize : t.settings.socketBufsize = 0
  rate : t.settings.rate = 0
  fqrate : t.settings.fqrate = 0
  burst : t.settings.burst = 0
  tos : t.settings.tos = 0
  flowlabel : t.settings.flowlabel = 0
  skipRxCopy : t.settings.skipRxCopy = 0

theorem freshServer_serverStart (b : Build) (a : ServerArgs) :
    FreshServer (serverStart b a) := by
  have hsame : ∀ t : Test, FreshServer t → FreshServer (applyStatsPerInterval t) := by
    intro t h
    unfold applyStatsPerInterval
    split_ifs
    · exact { h with }
    · exact h
  apply hsame
  constructor <;>
    simp [serverOptions, iperfStart, iperfNewTest, Test.iperfDefaults,
      Test.setProtocol, Build.supports, Test.checkSenderHasRetransmits]

/-! ## The round trip -/

def Mode.complement : Mode → Mode
  | .sender => .receiver
  | .receiver => .sender
  | .bidirectional => .bidirectional

/-- The members on which the two sides agree after the exchange. -/
structure SameParameters (client server : Test) : Prop where
  protocol : server.protocol = client.protocol
  mode : server.mode = client.mode.complement
  omitTime : server.omitTime = client.omitTime
  duration : server.duration = client.duration
  bytes : server.settings.bytes = client.settings.bytes
  blocks : server.settings.blocks = client.settings.blocks
  mss : server.settings.mss = client.settings.mss
  noDelay : server.noDelay = client.noDelay
  numStreams : server.numStreams = client.numStreams
  reverse : server.reverse = client.reverse
  bidirectional : server.bidirectional = client.bidirectional
  socketBufsize : server.settings.socketBufsize = client.settings.socketBufsize
  blksize : server.settings.blksize = client.settings.blksize
  rate : server.settings.rate = client.settings.rate
  fqrate : server.settings.fqrate = client.settings.fqrate
  burst : server.settings.burst = client.settings.burst
  tos : server.settings.tos = client.settings.tos
  flowlabel : server.settings.flowlabel = client.settings.flowlabel
  title : server.title = client.title
  extraData : server.extraData = client.extraData
  congestion : server.congestion = client.congestion
  getServerOutput : server.getServerOutput = client.getServerOutput
  udpCounters64bit : server.udpCounters64bit = client.udpCounters64bit
  repeatingPayload : server.repeatingPayload = client.repeatingPayload
  zerocopy : server.zerocopy = client.zerocopy
  skipRxCopy : server.settings.skipRxCopy = client.settings.skipRxCopy
  serverAffinity : server.serverAffinity = client.serverAffinity
  offload : client.protocol = .udp →
    server.settings.gso = client.settings.gso ∧
      server.settings.gsoDgSize = client.settings.gsoDgSize ∧
      server.settings.gsoBfSize = client.settings.gsoBfSize ∧
      server.settings.gro = client.settings.gro ∧
      server.settings.groBfSize = client.settings.groBfSize

/-- The 64-bit members are integers that a double holds. -/
def Test.SmallNumbers (t : Test) : Prop :=
  t.settings.bytes ≤ 2 ^ 53 ∧ t.settings.blocks ≤ 2 ^ 53 ∧
    t.settings.rate ≤ 2 ^ 53 ∧ t.settings.fqrate ≤ 2 ^ 53

theorem SameParameters.sameUpToStatus
    {client t u : Test} (h : SameParameters client u) (hsame : t.SameUpToStatus u) :
    SameParameters client t := by
  obtain ⟨r, e, rfl⟩ := hsame
  exact { h with }

section RoundTrip

variable {b c : Build} {token : Option String} {client server : Test} {f : ℚ → ℚ} {j : Json}

theorem selectProtocol_sent
    (hitem : ∀ key, j.getObjectItem key = parameterItem c token client key)
    (hsupported : b.supports client.protocol = true)
    (hfile : server.diskfileName = none ∨ client.protocol ≠ .udp) :
    selectProtocol b (j.mapNumbers f) server = client.protocol := by
  have htcp := boolItem_sent (f := f) (hitem .tcp)
  have hudp := boolItem_sent (f := f) (hitem .udp)
  have hsctp := boolItem_sent (f := f) (hitem .sctp)
  unfold selectProtocol
  rw [htcp, hudp, hsctp]
  cases hprotocol : client.protocol with
  | tcp => simp
  | udp =>
      have hnone := hfile.resolve_right (not_not.mpr hprotocol)
      simp [hnone]
  | sctp =>
      rw [hprotocol] at hsupported
      have hsctp : b.haveSctp = true := hsupported
      simp [hsctp]

theorem selectMode_sent
    (hitem : ∀ key, j.getObjectItem key = parameterItem c token client key)
    (hclient : ConnectedClient c client) (hrole : server.role = .server)
    (hserverMode : server.mode = .receiver) :
    selectMode (j.mapNumbers f) server = client.mode.complement := by
  have hreverse := boolItem_sent (f := f) (hitem .reverse)
  have hbidirectional := boolItem_sent (f := f) (hitem .bidirectional)
  have hmode := hclient.mode hclient.role
  unfold selectMode reversedMode
  rw [hreverse, hbidirectional, hmode, hrole, hserverMode]
  rcases hclient.reverse with hr | hr <;> rcases hclient.bidirectional with hb | hb <;>
    simp [hr, hb, clientMode, Mode.complement]

/-- Datagram and buffer sizes of a UDP test are not rewritten again. -/
theorem assignedGsoSizes_sent
    (hf : CJson.KeepsIntegers f)
    (hitem : ∀ key, j.getObjectItem key = parameterItem c token client key)
    (hclient : ConnectedClient c client) (hudp : client.protocol = .udp)
    (server : Test) :
    assignedGsoSizes b (j.mapNumbers f) server =
      (client.settings.gsoDgSize, client.settings.gsoBfSize) := by
  have hsent : ∀ {P : Prop}, decide (client.protocol = .udp) = false → P := by
    intro P h
    simp [hudp] at h
  have hbfSize : IsInt client.settings.gsoBfSize := by
    obtain ⟨hlow, hhigh⟩ := hclient.gsoBfSize
    have hmax : gsoBfMaxSize = 65507 := rfl
    exact IsInt.of_bounds (by omega) (by omega)
  have hgso : readInt (j.mapNumbers f) .gso server.settings.gso =
      client.settings.gso := readInt_sent hf (hitem .gso) hclient.gso.isInt hsent
  have hdg : readInt (j.mapNumbers f) .gsoDgSize server.settings.gsoDgSize =
      client.settings.gsoDgSize := readInt_sent hf (hitem .gsoDgSize) hclient.gsoDgSize hsent
  have hbf : readInt (j.mapNumbers f) .gsoBfSize server.settings.gsoBfSize =
      client.settings.gsoBfSize := readInt_sent hf (hitem .gsoBfSize) hbfSize hsent
  unfold assignedGsoSizes selectGsoSizes
  rw [hgso, hdg, hbf]
  exact if_neg fun h => hclient.gsoDgSize_ne_zero hudp h.2.1 h.2.2

theorem assignParameters_sent
    (hf : CJson.KeepsIntegers f)
    (hitem : ∀ key, j.getObjectItem key = parameterItem c token client key)
    (hclient : ConnectedClient c client) (hsmall : client.SmallNumbers)
    (hserver : FreshServer server) (hsupported : b.supports client.protocol = true)
    (hfile : server.diskfileName = none ∨ client.protocol ≠ .udp) :
    SameParameters client (assignParameters b (j.mapNumbers f) server) := by
  obtain ⟨hbytes, hblocks, hrate, hfqrate⟩ := hsmall
  have hzero : ∀ {n old : ℤ}, old = 0 → decide (n ≠ 0) = false → old = n := by
    intro n old hold hn
    have hn0 : n = 0 := by simpa using hn
    rw [hold, hn0]
  have hzeroSize : ∀ {n old : ℕ}, old = 0 → decide (n ≠ 0) = false → old = n := by
    intro n old hold hn
    have hn0 : n = 0 := by simpa using hn
    rw [hold, hn0]
  have haffinity : decide (client.serverAffinity ≠ -1) = false →
      server.serverAffinity = client.serverAffinity := by
    intro h
    have hnone : client.serverAffinity = -1 := by simpa using h
    rw [hserver.serverAffinity, hnone]
  have hfalse : ∀ {P : Prop}, true = false → P := fun h => absurd h (by decide)
  exact
    { protocol := selectProtocol_sent hitem hsupported hfile
      mode := selectMode_sent hitem hclient hserver.role hserver.mode
      omitTime := readInt_sent hf (hitem .omitTime) hclient.omitTime hfalse
      duration := readInt_sent hf (hitem .time) hclient.duration hfalse
      bytes := readSize_sent hf (hitem .num) hbytes hfalse
      blocks := readSize_sent hf (hitem .blockcount) hblocks hfalse
      mss := readInt_sent hf (hitem .mss) hclient.mss (hzero hserver.mss)
      noDelay := flag_sent (hitem .nodelay) hclient.noDelay hserver.noDelay
      numStreams := readInt_sent hf (hitem .parallel) hclient.numStreams hfalse
      reverse := flag_sent (hitem .reverse) hclient.reverse hserver.reverse
      bidirectional :=
        flag_sent (hitem .bidirectional) hclient.bidirectional hserver.bidirectional
      socketBufsize := readInt_sent hf (hitem .window) hclient.socketBufsize
        (hzero hserver.socketBufsize)
      blksize := readInt_sent hf (hitem .len) hclient.blksize fun h =>
        absurd hclient.blksize_ne_zero (by simpa using h)
      rate := readSize_sent hf (hitem .bandwidth) hrate (hzeroSize hserver.rate)
      fqrate := readSize_sent hf (hitem .fqrate) hfqrate (hzeroSize hserver.fqrate)
      burst := readInt_sent hf (hitem .burst) hclient.burst (hzero hserver.burst)
      tos := readInt_sent hf (hitem .tos) hclient.tos (hzero hserver.tos)
      flowlabel := readInt_sent hf (hitem .flowlabel) hclient.flowlabel
        (hzero hserver.flowlabel)
      title := readText_sent (hitem .title) hserver.title
      extraData := readText_sent (hitem .extraData) hserver.extraData
      congestion := readText_sent (hitem .congestion) hserver.congestion
      getServerOutput := readPresence_sent hf (hitem .getServerOutput)
        hclient.getServerOutput hserver.getServerOutput
      udpCounters64bit := readPresence_sent hf (hitem .udpCounters64bit)
        hclient.udpCounters64bit hserver.udpCounters64bit
      repeatingPayload := readPresence_sent hf (hitem .repeatingPayload)
        hclient.repeatingPayload hserver.repeatingPayload
      zerocopy := readInt_sent hf (hitem .zerocopy) hclient.zerocopy.isInt
        (hzero hserver.zerocopy)
      skipRxCopy := valueint_sent hf (hitem .skipRxCopy) hclient.skipRxCopy.isInt
        hserver.skipRxCopy
      serverAffinity := readInt_sent hf (hitem .serverAffinity) hclient.serverAffinity
        haffinity
      offload := by
        intro hudp
        have hsent : ∀ {P : Prop}, decide (client.protocol = .udp) = false → P := by
          intro P h
          simp [hudp] at h
        have hsizes : assignedGsoSizes b (j.mapNumbers f) server = _ :=
          assignedGsoSizes_sent hf hitem hclient hudp server
        exact ⟨readInt_sent hf (hitem .gso) hclient.gso.isInt hsent,
          congrArg Prod.fst hsizes, congrArg Prod.snd hsizes,
          readInt_sent hf (hitem .gro) hclient.gro.isInt hsent,
          readInt_sent hf (hitem .groBfSize) hclient.groBfSize hsent⟩ }

theorem sendParameters_items
    {auth : ClientAuth} (hsend : sendParameters c auth client = some j) :
    ∃ token, ∀ key, j.getObjectItem key = parameterItem c token client key := by
  have hmembers : ∃ token, CJson.object (parameterMembers c token client) = j := by
    unfold sendParameters at hsend
    split at hsend
    · exact ⟨none, Option.some.inj hsend⟩
    · exact ⟨_, Option.some.inj hsend⟩
    · split_ifs at hsend
      exact ⟨none, Option.some.inj hsend⟩
  obtain ⟨token, rfl⟩ := hmembers
  exact ⟨token, lookup_parameterMembers c token client⟩

end RoundTrip

theorem iperfConnect_protocol (opt : Option ℤ) (t : Test) :
    (t.iperfConnect opt).protocol = t.protocol := by
  unfold Test.iperfConnect
  split_ifs with hudp <;> rfl

/-- A freshly started server that reads the client's message has the client's
parameters, in the complementary mode.  The two programs may be configured
differently, but the server must know the protocol of the test, and it must
not transfer a file when the test is a UDP test. -/
theorem parameters_round_trip
    {b c : Build} {clientFile serverFile : Option ℕ} {clientOpts serverOpts : List Opt}
    {client server : Test} {auth : ClientAuth} {codec : Codec} {j : Json}
    (hclient : parseArguments c clientFile clientOpts (iperfStart c) = .ok client)
    (hclientRole : client.role = .client)
    (hserver : parseArguments b serverFile serverOpts (iperfStart b) = .ok server)
    (hserverRole : server.role = .server)
    (hsupported : b.supports client.protocol = true)
    (hfile : server.diskfileName = none ∨ client.protocol ≠ .udp)
    (opt : Option ℤ) (hsmall : (client.iperfConnect opt).SmallNumbers)
    (hsend : sendParameters c auth (client.iperfConnect opt) = some j)
    (hcarries : codec.Carries maxParamsJsonString j) (rest : List UInt8) :
    SameParameters (client.iperfConnect opt)
      (getParameters b
        (jsonRead codec maxParamsJsonString (jsonWrite codec j ++ rest)).1 server).1 := by
  obtain ⟨f, hf, hread⟩ := hcarries.jsonRead_eq rest
  obtain ⟨token, hitem⟩ := sendParameters_items hsend
  obtain ⟨a, -, rfl⟩ := parseArguments_serverStart hserver hserverRole
  rw [hread]
  apply SameParameters.sameUpToStatus _ (getParameters_eq b _ (serverStart b a))
  have hprotocol := iperfConnect_protocol opt client
  apply assignParameters_sent hf hitem
    (connectedClient hclient hclientRole opt) hsmall (freshServer_serverStart b a)
  · rw [hprotocol]
    exact hsupported
  · rw [hprotocol]
    exact hfile

/-! ## A UDP client -/

def limitsText : String :=
  "\x7b\"udp\":true,\"omit\":0,\"time\":10,\"num\":0,\"blockcount\":0,"

def ratesText : String := ",\"len\":1460,\"bandwidth\":1048576,\"pacing_timer\":1000,"

def offloadText : String :=
  "\"gso\":0,\"gso_dg_size\":0,\"gso_bf_size\":65507,\"gro\":0,\"gro_bf_size\":65507,"

def versionText : String := "\"client_version\":\"3.21\"\x7d"

/-- The text of a UDP client's message. -/
def udpParametersText (direction : String) : List UInt8 :=
  asciiBytes (limitsText ++ direction ++ ratesText ++ offloadText ++ versionText)

theorem length_udpParametersText {direction : String} (h : direction.length < 100) :
    0 < (udpParametersText direction).length ∧
      (udpParametersText direction).length ≤ maxParamsJsonString := by
  have hlimits : 0 < limitsText.length ∧ limitsText.length < 100 := by decide
  have hrates : ratesText.length < 100 := by decide
  have hoffload : offloadText.length < 100 := by decide
  have hversion : versionText.length < 100 := by decide
  simp only [udpParametersText, asciiBytes, List.length_map, String.length_toList,
    String.length_append, maxParamsJsonString]
  omega

/-- The codec that prints one message as the given text. -/
def textCodec (text : List UInt8) (j : Json) : Codec :=
  Codec.ofTexts (fun _ => true) (text, j) (text, j)

theorem textCodec_reads (text : List UInt8) (j : Json) :
    (textCodec text j).print j = text ∧
      (textCodec text j).parse text = some (j.mapNumbers id) :=
  Codec.ofTexts_first rfl

theorem textCodec_carries
    {direction : String} (h : direction.length < 100) (j : Json) :
    (textCodec (udpParametersText direction) j).Carries maxParamsJsonString j := by
  obtain ⟨hpos, hmax⟩ := length_udpParametersText h
  have hlimit : maxParamsJsonString < 4294967296 := by decide
  exact Codec.carries_of_text (textCodec_reads _ j) hpos (hmax.trans_lt hlimit) (Or.inr hmax)

theorem parameters_round_trip_udp :
    ∃ client server j,
      parseArguments Build.msvc none [.client, .udp, .reverse, .parallel 2]
        (iperfStart Build.msvc) = .ok client ∧
      parseArguments Build.msvc none [.server] (iperfStart Build.msvc) = .ok server ∧
      sendParameters Build.msvc .noCredentials (client.iperfConnect (some 1460)) = some j ∧
      SameParameters (client.iperfConnect (some 1460))
        (getParameters Build.msvc
          (jsonRead (textCodec (udpParametersText "\"parallel\":2,\"reverse\":true") j)
            maxParamsJsonString
            (jsonWrite (textCodec (udpParametersText "\"parallel\":2,\"reverse\":true") j) j
              ++ [])).1 server).1 := by
  obtain ⟨client, hclient, hrole, hprotocol, hsmall⟩ : ∃ t,
      parseArguments Build.msvc none [.client, .udp, .reverse, .parallel 2]
        (iperfStart Build.msvc) = .ok t ∧ t.role = .client ∧ t.protocol = .udp ∧
      (t.iperfConnect (some 1460)).SmallNumbers :=
    ⟨_, rfl, rfl, rfl, by decide, by decide, by decide, by decide⟩
  have hsend : sendParameters Build.msvc .noCredentials (client.iperfConnect (some 1460)) =
      some (.object (parameterMembers Build.msvc none (client.iperfConnect (some 1460)))) :=
    rfl
  have hsupported : Build.msvc.supports client.protocol = true := by
    rw [hprotocol]
    rfl
  refine ⟨client, _, _, hclient, parseArguments_server _ _, hsend, ?_⟩
  exact parameters_round_trip hclient hrole (parseArguments_server _ none) rfl
    hsupported (Or.inl rfl) (some 1460) hsmall hsend (textCodec_carries (by decide) _) []

/-- A server that transfers a file keeps TCP when a UDP client asks. -/
theorem file_server_keeps_tcp :
    ∃ client server j,
      parseArguments Build.msvc none [.client, .udp] (iperfStart Build.msvc) = .ok client ∧
      parseArguments Build.msvc none [.server, .file "data.bin"] (iperfStart Build.msvc) =
        .ok server ∧
      (client.iperfConnect (some 1460)).SmallNumbers ∧
      sendParameters Build.msvc .noCredentials (client.iperfConnect (some 1460)) = some j ∧
      (textCodec (udpParametersText "\"parallel\":1") j).Carries maxParamsJsonString j ∧
      ¬ SameParameters (client.iperfConnect (some 1460))
        (getParameters Build.msvc
          (jsonRead (textCodec (udpParametersText "\"parallel\":1") j)
            maxParamsJsonString
            (jsonWrite (textCodec (udpParametersText "\"parallel\":1") j) j)).1
          server).1 := by
  obtain ⟨client, hclient, hprotocol, hsmall⟩ : ∃ t,
      parseArguments Build.msvc none [.client, .udp] (iperfStart Build.msvc) = .ok t ∧
      t.protocol = .udp ∧ (t.iperfConnect (some 1460)).SmallNumbers :=
    ⟨_, rfl, rfl, by decide, by decide, by decide, by decide⟩
  obtain ⟨server, hserver, hfile, htcp⟩ : ∃ t,
      parseArguments Build.msvc none [.server, .file "data.bin"] (iperfStart Build.msvc) =
        .ok t ∧ t.diskfileName = some "data.bin" ∧ t.protocol = .tcp :=
    ⟨_, rfl, rfl, rfl⟩
  have hsend : sendParameters Build.msvc .noCredentials (client.iperfConnect (some 1460)) =
      some (.object (parameterMembers Build.msvc none (client.iperfConnect (some 1460)))) :=
    rfl
  obtain ⟨token, hitem⟩ := sendParameters_items hsend
  generalize CJson.object (parameterMembers Build.msvc none
    (client.iperfConnect (some 1460))) = j at hsend hitem
  have hcarries : (textCodec (udpParametersText "\"parallel\":1") j).Carries
      maxParamsJsonString j := textCodec_carries (by decide) j
  refine ⟨client, server, j, hclient, hserver, hsmall, hsend, hcarries, ?_⟩
  intro hsame
  obtain ⟨f, -, hread⟩ := hcarries.jsonRead_eq []
  rw [List.append_nil] at hread
  have hkept := hsame.protocol
  rw [hread, iperfConnect_protocol, hprotocol] at hkept
  obtain ⟨r, e, hassign⟩ := getParameters_eq Build.msvc (j.mapNumbers f) server
  rw [hassign] at hkept
  have hselect : selectProtocol Build.msvc (j.mapNumbers f) server = .tcp := by
    have hsctp : (j.mapNumbers f).boolItem .sctp = _ := boolItem_sent (hitem .sctp)
    unfold selectProtocol
    rw [hsctp]
    simp [iperfConnect_protocol, hprotocol, hfile, htcp]
  exact absurd (hselect.symm.trans hkept) (by decide)

end Iperf3
