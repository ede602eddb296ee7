import Iperf3.MachineInt
import Iperf3.TestModel
import Mathlib.Tactic

/-!
# Sending and receiving UDP data

`iperfUdpSend` numbers the datagrams of one write and `iperfUdpRecv` accounts
for the datagrams of one read.  With segmentation offload one write carries
several datagrams; with receive offload one read returns several.  The clock
and the result of the system call are arguments.
-/

namespace Iperf3

open MachineInt Binary64

abbrev Datagram := List UInt8

/-- Size of the two time stamps and a 32-bit counter. -/
def minPktSize : ℕ := 4 * 3

/-- Size of the two time stamps and a 64-bit counter. -/
def maxPktSize : ℕ := 4 * 2 + 8

/-! ## Sending -/

def datagramHeader (t : Test) (now : IperfTime) (packetCount : ℤ) : List UInt8 :=
  BigEndian.encode 4 now.secs ++ BigEndian.encode 4 now.usecs ++
    if t.udpCounters64bit ≠ 0 then BigEndian.encode 8 (uint64 packetCount)
    else BigEndian.encode 4 (uint32 packetCount)

/-- The header copied over the first bytes of the rest of the buffer.  What
runs past the end is not part of the write. -/
def writeHeader (header rest : List UInt8) : List UInt8 :=
  (header ++ rest.drop header.length).take rest.length

/-- The loop over the datagrams of one buffer.  It returns the filled buffer
and the packet count. -/
def fillBuffer (t : Test) (dgramSz : ℕ) (clock : ℕ → IperfTime) :
    ℕ → ℤ → List UInt8 → List UInt8 × ℤ
  | 0, packetCount, rest => (rest, packetCount)
  | fuel + 1, packetCount, rest =>
      if 0 < rest.length ∧ dgramSz ≤ rest.length then
        let packetCount := int64 (packetCount + 1)
        let rest := writeHeader (datagramHeader t (clock fuel) packetCount) rest
        let (filled, final) :=
          fillBuffer t dgramSz clock fuel packetCount (rest.drop dgramSz)
        (rest.take dgramSz ++ filled, final)
      else (rest, packetCount)

/-- Offload settings that the sender accepts. -/
def Settings.gsoValid (s : Settings) : Bool :=
  0 < s.gsoDgSize && minPktSize ≤ s.gsoDgSize && s.gsoDgSize ≤ s.gsoBfSize

/-- Datagram and buffer size of one write, and the offload flag afterwards. -/
def Settings.sendSizes (s : Settings) : ℤ × ℤ × ℤ :=
  if s.gso ≠ 0 then
    if s.gsoValid then (s.gsoDgSize, s.gsoBfSize, s.gso)
    else (s.blksize, s.blksize, 0)
  else (s.blksize, s.blksize, 0)

/-- How the kernel cuts one offloaded write into datagrams. -/
def segments (size : ℕ) : ℕ → List UInt8 → List Datagram
  | 0, _ => []
  | fuel + 1, bytes =>
      if bytes = [] then []
      else bytes.take size :: segments size fuel (bytes.drop size)

structure UdpSend where
  test : Test
  stream : Stream
  sent : List Datagram

/-- One call of `iperf_udp_send`; `written` is the result of the write. -/
def iperfUdpSend (clock : ℕ → IperfTime) (written : ℤ) (t : Test) (sp : Stream) :
    UdpSend :=
  let (dgramSz, bufSz, gso) := t.settings.sendSizes
  let t := { t with settings := { t.settings with gso := gso } }
  let region := sp.buffer.take bufSz.toNat
  let (filled, packetCount) :=
    fillBuffer t dgramSz.toNat clock region.length sp.packetCount region
  let buffer := filled ++ sp.buffer.drop bufSz.toNat
  let sp := { sp with buffer := buffer, packetCount := packetCount }
  if written ≤ 0 then
    -- The count goes back by one, however many datagrams were numbered.
    ⟨t, { sp with packetCount := int64 (sp.packetCount - 1) }, []⟩
  else
    ⟨t,
      { sp with result := { sp.result with
          bytesSent := uint64 (sp.result.bytesSent + written)
          bytesSentThisInterval :=
            uint64 (sp.result.bytesSentThisInterval + written) } },
      if gso ≠ 0 then
        segments t.settings.gsoDgSize.toNat buffer.length
          (buffer.take t.settings.gsoBfSize.toNat)
      else [buffer.take t.settings.blksize.toNat]⟩

/-! ## Receiving -/

/-- Reads until `count` bytes are there or the socket has no more datagrams.
What does not fit of a datagram is lost, with or without `MSG_TRUNC`. -/
def nrecvNoSelect : ℕ → List Datagram → List UInt8
  | _, [] => []
  | count, datagram :: arriving =>
      if count = 0 ∨ datagram = [] then []
      else
        datagram.take count ++
          nrecvNoSelect (count - (datagram.take count).length) arriving

/-- One offloaded read: the datagrams that the kernel has joined. -/
def nreadGro (count : ℕ) (arriving : List Datagram) : List UInt8 :=
  arriving.flatten.take (min count maxUdpBlocksize.toNat)

def readDatagrams (b : Build) (t : Test) (arriving : List Datagram) : List UInt8 :=
  if t.settings.gro ≠ 0 then nreadGro t.settings.groBfSize.toNat arriving
  else if b.haveMsgTrunc ∧ t.settings.skipRxCopy ≠ 0 then
    nrecvNoSelect maxPktSize arriving
  else nrecvNoSelect t.settings.blksize.toNat arriving

/-- The sequence number in a header. -/
def packetNumber (t : Test) (datagram : List UInt8) : ℕ :=
  if t.udpCounters64bit ≠ 0 then BigEndian.decode ((datagram.drop 8).take 8)
  else BigEndian.decode ((datagram.drop 8).take 4)

def sentTime (datagram : List UInt8) : IperfTime :=
  IperfTime.ofCounters (BigEndian.decode (datagram.take 4))
    (BigEndian.decode ((datagram.drop 4).take 4))

/-- Loss and order accounting for one sequence number.  The count is signed
and the number unsigned, so the comparisons are unsigned. -/
def Stream.countPacket (sp : Stream) (pcount : ℕ) : Stream :=
  if uint64 (int64 (sp.packetCount + 1)) ≤ pcount then
    { sp with
      cntError :=
        if uint64 (int64 (sp.packetCount + 1)) < pcount then
          int64 (uint64 (sp.cntError + uint64 (pcount - 1 - sp.packetCount)))
        else sp.cntError
      packetCount := int64 pcount }
  else
    { sp with
      outoforderPackets := int64 (sp.outoforderPackets + 1)
      cntError := if 0 < sp.cntError then sp.cntError - 1 else sp.cntError }

def Stream.updateJitter (sp : Stream) (first : Bool) (sent arrival : IperfTime) :
    Stream :=
  let transit := (arrival.diff sent).inSecs
  let prevTransit := if first then transit else sp.prevTransit
  let d := |roundDouble (transit - prevTransit)|
  { sp with
    prevTransit := transit
    jitter := roundDouble
      (sp.jitter + roundDouble (roundDouble (d - sp.jitter) / 16)) }

/-- The loop over the datagrams of one read. -/
def countDatagrams (t : Test) (dgramSz : ℕ) (clock : ℕ → IperfTime) :
    ℕ → Bool → List UInt8 → Stream → Stream
  | 0, _, _, sp => sp
  | fuel + 1, first, rest, sp =>
      if rest.length < dgramSz then sp
      else if rest.length < minPktSize then sp
      else if t.udpCounters64bit ≠ 0 ∧ rest.length < maxPktSize then sp
      else
        let sp := sp.countPacket (packetNumber t rest)
        let sp := sp.updateJitter first (sentTime rest) (clock fuel)
        countDatagrams t dgramSz clock fuel false (rest.drop dgramSz) sp

/-- One call of `iperf_udp_recv` with the datagrams that wait at the socket.
There is no result when a block size below one keeps the loop from ending. -/
def iperfUdpRecv (b : Build) (clock : ℕ → IperfTime) (state : TestState)
    (t : Test) (arriving : List Datagram) (sp : Stream) : Option Stream :=
  let buf := readDatagrams b t arriving
  if buf = [] ∨ state ≠ .testRunning then some sp
  else if t.settings.blksize ≤ 0 then none
  else
    let first : Bool := sp.result.bytesReceived = 0
    let sp := { sp with result := { sp.result with
      bytesReceived := uint64 (sp.result.bytesReceived + buf.length)
      bytesReceivedThisInterval :=
        uint64 (sp.result.bytesReceivedThisInterval + buf.length) } }
    some (countDatagrams t t.settings.blksize.toNat clock buf.length first buf sp)

end Iperf3
