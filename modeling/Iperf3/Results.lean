import Iperf3.JsonFrame
import Iperf3.TestModel
import Mathlib.Tactic

/-!
# The result exchange

After a test each side sends the other one its statistics.  A side sends the
same members for every stream; which of them the reader stores, and where,
depends on whether the reader's stream is the sender.
-/

namespace Iperf3

open MachineInt

/-- One side of a test with what the result exchange reads and writes. -/
structure TestSide where
  test : Test
  cpuUtil : ℚ × ℚ × ℚ
  remoteCpuUtil : ℚ × ℚ × ℚ
  jsonOutput : Bool
  jsonTop : Json
  serverOutputList : List String
  jsonServerOutput : Option Json
  serverOutputText : Option String
  streams : List Stream

/-! ## Sending -/

/-- Bytes that a stream reports about its own side. -/
def Stream.bytesTransferred (sp : Stream) : ℕ :=
  if sp.sender then uint64 (sp.result.bytesSent - sp.result.bytesSentOmit)
  else sp.result.bytesReceived

def Stream.elapsed (sp : Stream) : ℚ :=
  (sp.result.startTime.diff sp.result.endTime).inSecs

def resultMembers (t : Test) (sp : Stream) : List (Key × Json) :=
  [(.id, .ofInt sp.id),
    (.bytes, .ofInt sp.bytesTransferred),
    (.retransmits, .ofInt
      (if sp.sender ∧ t.senderHasRetransmits ≠ 0 then int32 sp.result.streamRetrans
        else -1)),
    (.jitter, .number sp.jitter),
    (.errors, .ofInt sp.cntError),
    (.omittedErrors, .ofInt sp.omittedCntError),
    (.packets, .ofInt sp.packetCount),
    (.omittedPackets, .ofInt sp.omittedPacketCount),
    (.startTime, .number
      (sp.result.startTime.diff sp.result.startTime).inSecs),
    (.endTime, .number sp.elapsed)]

def TestSide.serverOutput (side : TestSide) : List (Key × Json) :=
  if side.test.role = .server ∧ side.test.getServerOutput ≠ 0 then
    if side.jsonOutput then [(.serverOutputJson, side.jsonTop)]
    else [(.serverOutputText, .string (String.join side.serverOutputList))]
  else []

def sendResults (side : TestSide) : Json :=
  .object
    ([(.cpuUtilTotal, .number side.cpuUtil.1),
      (.cpuUtilUser, .number side.cpuUtil.2.1),
      (.cpuUtilSystem, .number side.cpuUtil.2.2),
      (.senderHasRetransmits, .ofInt
        (if side.test.mode = .receiver then -1
          else side.test.senderHasRetransmits))] ++
    addString .congestionUsed side.test.congestionUsed ++
    side.serverOutput ++
    [(.streams, .array (side.streams.map fun sp =>
      .object (resultMembers side.test sp)))])

/-! ## Reading -/

/-- What one element of the stream array says. -/
structure PeerStream where
  sid : ℤ
  bytes : ℕ
  retransmits : ℤ
  jitter : ℚ
  errors : ℤ
  packets : ℤ
  omitted : Option (ℤ × ℤ)
  elapsed : Option ℚ

/-- The members of one element.  The omitted statistics and the times may be
missing, but not one of the omitted statistics alone. -/
def readPeerStream (j : Json) : Option PeerStream := do
  let sid ← j.numberItem .id
  let bytes ← j.numberItem .bytes
  let retransmits ← j.numberItem .retransmits
  let jitter ← j.getObjectItemType .jitter .number
  let errors ← j.numberItem .errors
  let packets ← j.numberItem .packets
  let elapsed := do
    let start ← j.getObjectItemType .startTime .number
    let finish ← j.getObjectItemType .endTime .number
    return Binary64.roundDouble (finish.valuedouble - start.valuedouble)
  match j.numberItem .omittedErrors, j.numberItem .omittedPackets with
  | some omittedErrors, some omittedPackets =>
      return ⟨int32 sid, uint64 bytes, int32 retransmits, jitter.valuedouble, errors,
        packets, some (omittedErrors, omittedPackets), elapsed⟩
  | none, none =>
      return ⟨int32 sid, uint64 bytes, int32 retransmits, jitter.valuedouble, errors,
        packets, none, elapsed⟩
  | _, _ => none

/-- Storing the peer's statistics in the stream of the same id. -/
def Stream.absorb (sp : Stream) (peer : PeerStream) : Stream :=
  if sp.sender then
    { sp with
      jitter := peer.jitter
      cntError := peer.errors
      peerPacketCount := peer.packets
      omittedCntError :=
        match peer.omitted with
        | some (errors, _) => errors
        | none =>
            if 0 < sp.omittedPacketCount then if 0 < peer.errors then -1 else 0
            else peer.errors
      peerOmittedPacketCount :=
        match peer.omitted with
        | some (_, packets) => packets
        | none => sp.omittedPacketCount
      result := { sp.result with
        bytesReceived := peer.bytes
        receiverTime := peer.elapsed.getD 0 } }
  else
    { sp with
      peerPacketCount := peer.packets
      peerOmittedPacketCount :=
        match peer.omitted with
        | some (_, packets) => packets
        | none => peer.packets
      result := { sp.result with
        bytesSent := peer.bytes
        streamRetrans := peer.retransmits
        senderTime := peer.elapsed.getD 0 } }

/-- The first stream with the peer's id absorbs the statistics. -/
def absorbStream (peer : PeerStream) : List Stream → Option (List Stream)
  | [] => none
  | sp :: streams =>
      if sp.id = peer.sid then some (sp.absorb peer :: streams)
      else (absorbStream peer streams).map (sp :: ·)

structure ReadState where
  streams : List Stream
  iErrno : IErrno
  ok : Bool

/-- One turn of the loop over the stream array.  An error does not end it. -/
def readStreamItem (state : ReadState) (item : Json) : ReadState :=
  match readPeerStream item with
  | none => { state with iErrno := .ieRecvResults, ok := false }
  | some peer =>
      match absorbStream peer state.streams with
      | none => { state with iErrno := .ieStreamId, ok := false }
      | some streams => { state with streams := streams }

def readRetransmitFlags (t : Test) (result : ℤ) : Test :=
  match t.mode with
  | .receiver =>
      { t with senderHasRetransmits := result, otherSideHasRetransmits := 0 }
  | .bidirectional => { t with otherSideHasRetransmits := result }
  | .sender => t

def readStreams (j : Json) (side : TestSide) : TestSide × Bool :=
  match j.getObjectItemType .streams .array with
  | some (.array items) =>
      let state := items.foldl readStreamItem ⟨side.streams, side.test.iErrno, true⟩
      let side : TestSide := { side with
        streams := state.streams
        test := { side.test with iErrno := state.iErrno } }
      if side.test.role = .client ∧ side.test.getServerOutput ≠ 0 then
        match j.getObjectItem .serverOutputJson with
        | some output => ({ side with jsonServerOutput := some output }, state.ok)
        | none =>
            ({ side with serverOutputText :=
                (j.stringItem .serverOutputText).or side.serverOutputText },
              state.ok)
      else (side, state.ok)
  | _ => ({ side with test := { side.test with iErrno := .ieRecvResults } }, false)

def readCongestion (j : Json) (side : TestSide) : TestSide :=
  { side with test := { side.test with
      remoteCongestionUsed :=
        (j.stringItem .congestionUsed).or side.test.remoteCongestionUsed } }

/-- `get_results` on the outcome of reading one JSON frame. -/
def getResults (message : Option Json) (side : TestSide) : TestSide × Bool :=
  match message with
  | none => ({ side with test := { side.test with iErrno := .ieRecvResults } }, false)
  | some j =>
      match j.getObjectItemType .cpuUtilTotal .number,
          j.getObjectItemType .cpuUtilUser .number,
          j.getObjectItemType .cpuUtilSystem .number,
          j.numberItem .senderHasRetransmits with
      | some total, some user, some system, some retransmits =>
          let side : TestSide := { side with
            remoteCpuUtil :=
              (total.valuedouble, user.valuedouble, system.valuedouble)
            test := readRetransmitFlags side.test (int32 retransmits) }
          let (side, ok) := readStreams j side
          (readCongestion j side, ok)
      | _, _, _, _ =>
          (readCongestion j
            { side with test := { side.test with iErrno := .ieRecvResults } }, false)

/-! ## The exchange -/

/-- `iperf_exchange_results` on both sides: the client sends, the server reads
and replies, the client reads.  The flag is false when a side returns `-1`. -/
def exchangeResults (codec : Codec) (client server : TestSide) :
    TestSide × TestSide × Bool :=
  let toServer := jsonWrite codec (sendResults client)
  let (server, serverOk) := getResults (jsonRead codec 0 toServer).1 server
  let toClient := jsonWrite codec (sendResults server)
  let (client, clientOk) := getResults (jsonRead codec 0 toClient).1 client
  (client, server, serverOk && clientOk)

/-- The per-stream values that the final report is made from. -/
structure StreamReport where
  bytesSent : ℕ
  bytesReceived : ℕ
  senderPacketCount : ℤ
  senderOmittedPacketCount : ℤ
  receiverPacketCount : ℤ
  receiverOmittedPacketCount : ℤ
  cntError : ℤ
  omittedCntError : ℤ
  deriving DecidableEq, Repr

def Stream.report (sp : Stream) : StreamReport where
  bytesSent := uint64 (sp.result.bytesSent - sp.result.bytesSentOmit)
  bytesReceived := sp.result.bytesReceived
  senderPacketCount := if sp.sender then sp.packetCount else sp.peerPacketCount
  senderOmittedPacketCount :=
    if sp.sender then sp.omittedPacketCount else sp.peerOmittedPacketCount
  receiverPacketCount := if sp.sender then sp.peerPacketCount else sp.packetCount
  receiverOmittedPacketCount :=
    if sp.sender then sp.peerOmittedPacketCount else sp.omittedPacketCount
  cntError := sp.cntError
  omittedCntError := sp.omittedCntError

end Iperf3
