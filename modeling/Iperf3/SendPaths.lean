import Iperf3.EndCondition
import Iperf3.UdpAccounting
import Iperf3.UdpBuffers
import Mathlib.Tactic

/-!
# Writes with and without segmentation offload

One offloaded write stands for as many plain ones as it has datagrams.  The
protocol's function counts datagrams and bytes, the loop of `iperf_send_mt`
counts blocks, and a write that fails has to be taken back as a whole.
-/

namespace Iperf3

open MachineInt

/-- The counters hold values of their C types. -/
structure Stream.CountersInRange (sp : Stream) : Prop where
  packetCount : int64 sp.packetCount = sp.packetCount
  bytesSent : uint64 sp.result.bytesSent = sp.result.bytesSent
  bytesSentThisInterval :
    uint64 sp.result.bytesSentThisInterval = sp.result.bytesSentThisInterval

/-! ## Writes that fail -/

/-- A write carries exactly one datagram. -/
def Settings.OneDatagram (s : Settings) : Prop :=
  if s.gso ≠ 0 ∧ s.gsoValid then s.gsoBfSize < 2 * s.gsoDgSize else 1 ≤ s.blksize

instance (s : Settings) : Decidable s.OneDatagram := by
  unfold Settings.OneDatagram
  infer_instance

theorem datagramsPerWrite_eq_one_iff (s : Settings) :
    s.datagramsPerWrite = 1 ↔ s.OneDatagram := by
  have hplain : s.blksize.toNat / s.blksize.toNat = 1 ↔ 1 ≤ s.blksize := by
    rcases Nat.eq_zero_or_pos s.blksize.toNat with hzero | hpos
    · rw [hzero, Nat.zero_div]
      omega
    · rw [Nat.div_self hpos]
      omega
  unfold Settings.OneDatagram Settings.datagramsPerWrite Settings.sendSizes
  by_cases hgso : s.gso ≠ 0
  · by_cases hvalid : s.gsoValid = true
    · have hsizes := hvalid
      simp only [Settings.gsoValid, minPktSize, Bool.and_eq_true, decide_eq_true_eq] at hsizes
      rw [if_pos hgso, if_pos hvalid, if_pos ⟨hgso, hvalid⟩]
      simp only
      rw [Nat.div_eq_iff (by omega)]
      omega
    · rw [if_pos hgso, if_neg hvalid, if_neg (fun h => hvalid h.2)]
      exact hplain
  · rw [if_neg hgso, if_neg (fun h => hgso h.1)]
    exact hplain

/-- A failed write leaves the count and the bytes as they were exactly when
it carries one datagram. -/
theorem failed_send_restores_iff
    {t : Test} {sp : Stream} (hudp : t.protocol = .udp) (hints : t.settings.SizesAreInts)
    (hbuffer : t.bufferSize ≤ sp.buffer.length) (hrange : sp.CountersInRange)
    (clock : ℕ → IperfTime) {written : ℤ} (hfailed : written ≤ 0) :
    ((iperfUdpSend clock written t sp).stream.packetCount = sp.packetCount ∧
        (iperfUdpSend clock written t sp).stream.result.bytesSent = sp.result.bytesSent ∧
        (iperfUdpSend clock written t sp).stream.result.bytesSentThisInterval =
          sp.result.bytesSentThisInterval) ↔
      t.settings.OneDatagram := by
  have hsize := sendSizes_le_bufferSize hudp
  have hsmall := bufferSize_lt hudp hints
  have hper : t.settings.datagramsPerWrite ≤ t.settings.sendSizes.2.1.toNat :=
    Nat.div_le_self _ _
  have hfits : t.settings.sendSizes.2.1.toNat ≤ sp.buffer.length := by omega
  have hcount := iperfUdpSend_packetCount hfits hrange.packetCount clock written
  rw [if_pos hfailed] at hcount
  have hresult := iperfUdpSend_result clock written t sp
  rw [if_pos hfailed] at hresult
  have hpacket := hrange.packetCount
  rw [int64_eq] at hpacket hcount
  rw [hresult, hcount, ← datagramsPerWrite_eq_one_iff]
  omega

/-- A new test with datagrams of 16 bytes, `count` of them in a write. -/
def offloadTest (gso count : ℤ) : Test :=
  let t := udpTest Build.linux 16 0
  { t with settings := { t.settings with
      gso := gso, gsoDgSize := 16, gsoBfSize := count * 16 } }

/-- A stream of that test after ten datagrams. -/
def tenSent (count : ℕ) : Stream :=
  { iperfNewStream true (List.replicate (count * 16) 0) with packetCount := 10 }

def noClock : ℕ → IperfTime :=
  fun _ => IperfTime.ofCounters 0 0

theorem failed_send_restores_plain :
    (iperfUdpSend noClock (-1) (offloadTest 0 2) (tenSent 1)).stream.packetCount = 10 := by
  have hints : (offloadTest 0 2).settings.SizesAreInts :=
    ⟨IsInt.of_bounds (by decide) (by decide), IsInt.of_bounds (by decide) (by decide),
      IsInt.of_bounds (by decide) (by decide)⟩
  have hrange : (tenSent 1).CountersInRange := ⟨by decide, by decide, by decide⟩
  exact ((failed_send_restores_iff rfl hints (by decide) hrange noClock
    (by decide)).mpr (by decide)).1

/-- Of two datagrams numbered for a write that fails, one stays counted. -/
theorem failed_offload_keeps_number :
    (iperfUdpSend noClock (-1) (offloadTest 1 2) (tenSent 2)).stream.packetCount = 11 := by
  decide +kernel

/-! ## Writes that succeed -/

/-- A sender with the counters of its test. -/
structure UdpSender where
  test : Test
  stream : Stream
  traffic : Traffic

namespace UdpSender

/-- A pass of the loop in `iperf_send_mt` whose write is taken whole. -/
def pass (pendingSize : ℤ) (clock : ℕ → IperfTime) (s : UdpSender) :
    UdpSender × List Datagram :=
  let r := s.test.settings.sendSizes.2.1
  let next := iperfUdpSend clock r s.test s.stream
  (⟨next.test, next.stream, s.traffic.iperfSendMt r.toNat (pendingSize = 0)⟩, next.sent)

def passes (pendingSize : ℤ) :
    List (ℕ → IperfTime) → UdpSender → UdpSender × List Datagram
  | [], s => (s, [])
  | clock :: clocks, s =>
      let (next, sent) := s.pass pendingSize clock
      let (final, later) := next.passes pendingSize clocks
      (final, sent ++ later)

/-- From `s` on, `count` datagrams of `size` bytes have been sent in `writes`
writes. -/
structure Sent (size : ℕ) (pendingSize : ℤ) (count writes : ℕ) (s : UdpSender)
    (out : UdpSender × List Datagram) : Prop where
  sendsBlocks : SendsBlocks out.1.test out.1.stream size
  perWrite : out.1.test.settings.datagramsPerWrite = s.test.settings.datagramsPerWrite
  counters : out.1.test.udpCounters64bit = s.test.udpCounters64bit
  inRange : out.1.stream.CountersInRange
  datagrams :
    out.2.map (fun d => (packetNumber s.test d, d.length)) =
      (List.range count).map fun i : ℕ =>
        (headerNumber s.test (int64 (s.stream.packetCount + i + 1)), size)
  packetCount : out.1.stream.packetCount = int64 (s.stream.packetCount + count)
  bytesSent :
    out.1.stream.result.bytesSent =
      uint64 (s.stream.result.bytesSent + (count * size : ℕ))
  bytesSentThisInterval :
    out.1.stream.result.bytesSentThisInterval =
      uint64 (s.stream.result.bytesSentThisInterval + (count * size : ℕ))
  trafficBytes : out.1.traffic.bytesSent = s.traffic.bytesSent + count * size
  trafficBlocks :
    out.1.traffic.blocksSent = s.traffic.blocksSent + if pendingSize = 0 then writes else 0

theorem Sent.refl {size : ℕ} {s : UdpSender} (pendingSize : ℤ)
    (hblocks : SendsBlocks s.test s.stream size) (hrange : s.stream.CountersInRange) :
    Sent size pendingSize 0 0 s (s, []) where
  sendsBlocks := hblocks
  perWrite := rfl
  counters := rfl
  inRange := hrange
  datagrams := rfl
  packetCount := by simpa using hrange.packetCount.symm
  bytesSent := by simpa using hrange.bytesSent.symm
  bytesSentThisInterval := by simpa using hrange.bytesSentThisInterval.symm
  trafficBytes := by simp
  trafficBlocks := by simp

theorem Sent.pass {size : ℕ} {s : UdpSender} (pendingSize : ℤ) (clock : ℕ → IperfTime)
    (hblocks : SendsBlocks s.test s.stream size) (hrange : s.stream.CountersInRange) :
    Sent size pendingSize s.test.settings.datagramsPerWrite 1 s (s.pass pendingSize clock) := by
  have hpos : 0 < size := by
    have hsize := hblocks.header_fits
    unfold maxPktSize at hsize
    omega
  obtain ⟨count, gso, hcountPos, hsizes, -, -⟩ := hblocks.sendSizes_eq
  have hper := datagramsPerWrite_eq hpos hsizes
  have hwritten : s.test.settings.sendSizes.2.1 = ((count * size : ℕ) : ℤ) := by rw [hsizes]
  have hwrittenPos : 0 < s.test.settings.sendSizes.2.1 := by
    rw [hwritten]
    exact_mod_cast Nat.mul_pos hcountPos hpos
  obtain ⟨hlength, hall, hnumbers⟩ := iperfUdpSend_sent hblocks clock hwrittenPos
  have hcount := iperfUdpSend_packetCount hblocks.buffer hrange.packetCount clock
    s.test.settings.sendSizes.2.1
  have hresult := iperfUdpSend_result clock s.test.settings.sendSizes.2.1 s.test s.stream
  have htest := iperfUdpSend_test clock s.test.settings.sendSizes.2.1 s.test s.stream
  rw [if_neg (not_le.mpr hwrittenPos)] at hresult
  rw [if_neg (not_le.mpr hwrittenPos), sub_zero] at hcount
  have hpacket : (s.pass pendingSize clock).1.stream.packetCount =
      int64 (s.stream.packetCount + s.test.settings.datagramsPerWrite) := hcount
  have hbytes : (s.pass pendingSize clock).1.stream.result.bytesSent =
      uint64 (s.stream.result.bytesSent + s.test.settings.sendSizes.2.1) := by
    change (iperfUdpSend clock _ s.test s.stream).stream.result.bytesSent = _
    rw [hresult]
  have hinterval : (s.pass pendingSize clock).1.stream.result.bytesSentThisInterval =
      uint64 (s.stream.result.bytesSentThisInterval + s.test.settings.sendSizes.2.1) := by
    change (iperfUdpSend clock _ s.test s.stream).stream.result.bytesSentThisInterval = _
    rw [hresult]
  have hpairs : ∀ ds : List Datagram, (∀ d ∈ ds, d.length = size) →
      ds.map (fun d => (packetNumber s.test d, d.length)) =
        (ds.map (packetNumber s.test)).map fun number => (number, size) := by
    intro ds hds
    rw [List.map_map]
    exact List.map_congr_left fun d hd => by rw [Function.comp_apply, hds d hd]
  refine
    { sendsBlocks := iperfUdpSend_sendsBlocks hblocks clock _
      perWrite := ?_
      counters := ?_
      inRange := ⟨?_, ?_, ?_⟩
      datagrams := ?_
      packetCount := hpacket
      bytesSent := ?_
      bytesSentThisInterval := ?_
      trafficBytes := ?_
      trafficBlocks := ?_ }
  · change (iperfUdpSend clock _ s.test s.stream).test.settings.datagramsPerWrite = _
    rw [htest, Test.datagramsPerWrite_afterSend]
  · change (iperfUdpSend clock _ s.test s.stream).test.udpCounters64bit = _
    rw [htest]
    rfl
  · rw [hpacket, int64_int64]
  · rw [hbytes, uint64_uint64]
  · rw [hinterval, uint64_uint64]
  · change (iperfUdpSend clock _ s.test s.stream).sent.map _ = _
    rw [hpairs _ hall, hnumbers, List.map_map]
    rfl
  · rw [hbytes, hper, hwritten]
  · rw [hinterval, hper, hwritten]
  · change s.traffic.bytesSent + _ = _
    rw [hper, hwritten, Int.toNat_natCast]
  · change (if (decide (pendingSize = 0)) = true then _ else _) = _
    by_cases hpending : pendingSize = 0 <;> simp [hpending]

theorem Sent.append {size n m w v : ℕ} {pendingSize : ℤ} {s : UdpSender}
    {out out' : UdpSender × List Datagram} (h : Sent size pendingSize n w s out)
    (h' : Sent size pendingSize m v out.1 out') :
    Sent size pendingSize (n + m) (w + v) s (out'.1, out.2 ++ out'.2) := by
  have hbytes : (((n + m) * size : ℕ) : ℤ) = (n * size : ℕ) + (m * size : ℕ) := by
    push_cast
    ring
  refine
    { sendsBlocks := h'.sendsBlocks
      perWrite := h'.perWrite.trans h.perWrite
      counters := h'.counters.trans h.counters
      inRange := h'.inRange
      datagrams := ?_
      packetCount := ?_
      bytesSent := ?_
      bytesSentThisInterval := ?_
      trafficBytes := ?_
      trafficBlocks := ?_ }
  · have hlater := h'.datagrams
    rw [packetNumber_congr h.counters] at hlater
    rw [List.map_append, h.datagrams, hlater, List.range_add, List.map_append, List.map_map]
    congr 1
    apply List.map_congr_left
    intro i _
    have hnumber : headerNumber out.1.test = headerNumber s.test := by
      funext c
      unfold headerNumber
      rw [h.counters]
    rw [Function.comp_apply, hnumber, h.packetCount, add_assoc, int64_add_left]
    congr 3
    push_cast
    ring
  · rw [h'.packetCount, h.packetCount, int64_add_left]
    congr 1
    push_cast
    ring
  · rw [h'.bytesSent, h.bytesSent, uint64_add_left, hbytes, add_assoc]
  · rw [h'.bytesSentThisInterval, h.bytesSentThisInterval, uint64_add_left, hbytes, add_assoc]
  · rw [h'.trafficBytes, h.trafficBytes]
    ring
  · rw [h'.trafficBlocks, h.trafficBlocks]
    split_ifs <;> omega

theorem Sent.passes {size : ℕ} (pendingSize : ℤ) (clocks : List (ℕ → IperfTime))
    {s : UdpSender} (hblocks : SendsBlocks s.test s.stream size)
    (hrange : s.stream.CountersInRange) :
    Sent size pendingSize (clocks.length * s.test.settings.datagramsPerWrite) clocks.length s
      (s.passes pendingSize clocks) := by
  induction clocks generalizing s with
  | nil =>
      rw [List.length_nil, Nat.zero_mul]
      exact Sent.refl pendingSize hblocks hrange
  | cons clock clocks ih =>
      have hfirst := Sent.pass pendingSize clock hblocks hrange
      have hrest := ih hfirst.sendsBlocks hfirst.inRange
      rw [hfirst.perWrite] at hrest
      have hall := hfirst.append hrest
      rw [List.length_cons, Nat.succ_mul, Nat.add_comm, Nat.add_comm clocks.length]
      exact hall

/-- The same datagrams and counters, time stamps apart. -/
structure SameSending (t : Test) (one many : UdpSender × List Datagram) : Prop where
  datagrams :
    one.2.map (fun d => (packetNumber t d, d.length)) =
      many.2.map (fun d => (packetNumber t d, d.length))
  packetCount : one.1.stream.packetCount = many.1.stream.packetCount
  bytesSent : one.1.stream.result.bytesSent = many.1.stream.result.bytesSent
  bytesSentThisInterval :
    one.1.stream.result.bytesSentThisInterval = many.1.stream.result.bytesSentThisInterval
  trafficBytes : one.1.traffic.bytesSent = many.1.traffic.bytesSent
  trafficBlocks : one.1.traffic.blocksSent = many.1.traffic.blocksSent

/-- Only the blocks can tell two ways apart to send the same datagrams. -/
theorem Sent.same_iff {size count w v : ℕ} {pendingSize : ℤ} {t u : Test} {sp : Stream}
    {c : Traffic} {one many : UdpSender × List Datagram}
    (hcounters : u.udpCounters64bit = t.udpCounters64bit)
    (hone : Sent size pendingSize count w ⟨t, sp, c⟩ one)
    (hmany : Sent size pendingSize count v ⟨u, sp, c⟩ many) :
    SameSending t one many ↔ pendingSize ≠ 0 ∨ w = v := by
  have hnumber : headerNumber u = headerNumber t := by
    funext c
    unfold headerNumber
    rw [hcounters]
  have hdatagrams := hmany.datagrams
  simp only [packetNumber_congr hcounters, hnumber] at hdatagrams
  constructor
  · intro hsame
    have hblocks := hsame.trafficBlocks
    rw [hone.trafficBlocks, hmany.trafficBlocks] at hblocks
    change c.blocksSent + _ = c.blocksSent + _ at hblocks
    by_cases hpending : pendingSize = 0
    · rw [if_pos hpending, if_pos hpending] at hblocks
      exact Or.inr (by omega)
    · exact Or.inl hpending
  · intro hblocks
    refine
      { datagrams := hone.datagrams.trans hdatagrams.symm
        packetCount := hone.packetCount.trans hmany.packetCount.symm
        bytesSent := hone.bytesSent.trans hmany.bytesSent.symm
        bytesSentThisInterval := hone.bytesSentThisInterval.trans hmany.bytesSentThisInterval.symm
        trafficBytes := hone.trafficBytes.trans hmany.trafficBytes.symm
        trafficBlocks := ?_ }
    rw [hone.trafficBlocks, hmany.trafficBlocks]
    rcases hblocks with hpending | rfl
    · rw [if_neg hpending, if_neg hpending]
    · rfl

end UdpSender

/-- The same test with segmentation offload turned off. -/
def Test.withoutGso (t : Test) : Test :=
  { t with settings := { t.settings with gso := 0 } }

/-- One offloaded write counts like the plain ones that it stands for, except
that it is one block. -/
theorem gso_pass_equals_plain_passes_iff
    {t : Test} {sp : Stream} {size count : ℕ} (hsize : maxPktSize ≤ size) (hcount : 1 ≤ count)
    (hgso : t.settings.gso ≠ 0) (hblksize : t.settings.blksize = size)
    (hdgSize : t.settings.gsoDgSize = size) (hbfSize : t.settings.gsoBfSize = (count * size : ℕ))
    (hudp : t.protocol = .udp) (hbuffer : t.bufferSize ≤ sp.buffer.length)
    (hrange : sp.CountersInRange) (pendingSize : ℤ) (c : Traffic)
    (clock : ℕ → IperfTime) (clocks : List (ℕ → IperfTime)) (hclocks : clocks.length = count) :
    UdpSender.SameSending t (UdpSender.pass pendingSize clock ⟨t, sp, c⟩)
        (UdpSender.passes pendingSize clocks ⟨t.withoutGso, sp, c⟩) ↔
      pendingSize ≠ 0 ∨ count = 1 := by
  have hpos : 0 < size := by
    unfold maxPktSize at hsize
    omega
  have hwrite : size ≤ count * size := Nat.le_mul_of_pos_left size hcount
  have hvalid : t.settings.gsoValid = true := by
    unfold maxPktSize at hsize
    simp only [Settings.gsoValid, minPktSize, hdgSize, hbfSize, Bool.and_eq_true,
      decide_eq_true_eq]
    omega
  have hsizes : t.settings.sendSizes =
      ((size : ℤ), ((count * size : ℕ) : ℤ), t.settings.gso) := by
    rw [Settings.sendSizes, if_pos hgso, if_pos hvalid, hdgSize, hbfSize]
  have hplainSizes : t.withoutGso.settings.sendSizes =
      ((size : ℤ), ((1 * size : ℕ) : ℤ), 0) := by
    rw [one_mul]
    simp [Settings.sendSizes, Test.withoutGso, hblksize]
  have hroom := sendSizes_le_bufferSize hudp
  rw [hsizes] at hroom
  change ((count * size : ℕ) : ℤ) ≤ t.bufferSize at hroom
  have hblocks : SendsBlocks t sp size :=
    { blksize := hblksize
      header_fits := hsize
      gsoDgSize := fun _ => hdgSize
      gsoBfSize := fun _ => ⟨count, by rw [hbfSize]; push_cast; ring⟩
      buffer := by
        rw [hsizes]
        change ((count * size : ℕ) : ℤ).toNat ≤ _
        omega }
  have hplainBlocks : SendsBlocks t.withoutGso sp size :=
    { blksize := hblksize
      header_fits := hsize
      gsoDgSize := fun hset => absurd rfl hset
      gsoBfSize := fun hset => absurd rfl hset
      buffer := by
        rw [hplainSizes]
        change ((1 * size : ℕ) : ℤ).toNat ≤ _
        omega }
  have hone := UdpSender.Sent.pass (s := ⟨t, sp, c⟩) pendingSize clock hblocks hrange
  have hmany := UdpSender.Sent.passes (s := ⟨t.withoutGso, sp, c⟩) pendingSize clocks
    hplainBlocks hrange
  simp only [datagramsPerWrite_eq hpos hsizes] at hone
  simp only [datagramsPerWrite_eq hpos hplainSizes, hclocks, mul_one] at hmany
  have hcounters : t.withoutGso.udpCounters64bit = t.udpCounters64bit := rfl
  rw [hone.same_iff hcounters hmany, eq_comm]

theorem gso_pass_equals_plain_pass_single :
    UdpSender.SameSending (offloadTest 1 1)
      (UdpSender.pass 0 noClock ⟨offloadTest 1 1, tenSent 1, ⟨false, false, 0, 0, 0, 0⟩⟩)
      (UdpSender.passes 0 [noClock]
        ⟨(offloadTest 1 1).withoutGso, tenSent 1, ⟨false, false, 0, 0, 0, 0⟩⟩) := by
  have hrange : (tenSent 1).CountersInRange := ⟨by decide, by decide, by decide⟩
  exact (gso_pass_equals_plain_passes_iff (le_refl maxPktSize) (le_refl 1)
    (by decide) rfl rfl rfl rfl (by decide) hrange 0 _ noClock [noClock] rfl).mpr (Or.inr rfl)

/-- Two datagrams in one write are one block, and in two writes two. -/
theorem gso_pass_counts_one_block :
    (UdpSender.pass 0 noClock
        ⟨offloadTest 1 2, tenSent 2, ⟨false, false, 0, 0, 0, 0⟩⟩).1.traffic.blocksSent = 1 ∧
      (UdpSender.passes 0 [noClock, noClock]
        ⟨(offloadTest 1 2).withoutGso, tenSent 2, ⟨false, false, 0, 0, 0, 0⟩⟩).1.traffic.blocksSent
          = 2 := by
  decide +kernel

end Iperf3
