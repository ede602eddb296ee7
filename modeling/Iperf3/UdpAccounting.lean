import Iperf3.SequenceLoss
import Iperf3.Udp
import Mathlib.Tactic

/-!
# Loss accounting from the sender to the receiver

The sender's datagrams carry the numbers one, two, three and so on.  The
receiver's three counters are those of `SequenceLoss` as long as every number
stays below the width of the header counter, so the accounting is exact for
every loss and reordering.  The one exception is a receiver that reads less
than a block of each datagram.
-/

namespace Iperf3

open MachineInt SequenceLoss

/-! ## The sender -/

/-- One call of the sender. -/
structure SendCall where
  clock : ℕ → IperfTime
  written : ℤ

def sendRun : List SendCall → Test → Stream → List Datagram
  | [], _, _ => []
  | call :: calls, t, sp =>
      let next := iperfUdpSend call.clock call.written t sp
      next.sent ++ sendRun calls next.test next.stream

/-- Number of datagrams in one write. -/
def Settings.datagramsPerWrite (s : Settings) : ℕ :=
  s.sendSizes.2.1.toNat / s.sendSizes.1.toNat

/-- Sequence numbers used up by one call.  A write that fails gives one number
back, so that with one datagram in a write only sent datagrams use one up. -/
def SendCall.used (call : SendCall) (perWrite : ℕ) : ℕ :=
  if call.written ≤ 0 then perWrite - 1 else perWrite

def numbersUsed (perWrite : ℕ) : List SendCall → ℕ
  | [] => 0
  | call :: calls =>
      call.used perWrite + numbersUsed perWrite calls

/-- The number of values of the header counter. -/
def counterLimit (t : Test) : ℕ :=
  if t.udpCounters64bit ≠ 0 then 2 ^ 63 else 2 ^ 32

/-- Settings with which every datagram is one block of `size` bytes, and a
buffer that holds one write. -/
structure SendsBlocks (t : Test) (sp : Stream) (size : ℕ) : Prop where
  blksize : t.settings.blksize = size
  header_fits : maxPktSize ≤ size
  gsoDgSize : t.settings.gso ≠ 0 → t.settings.gsoDgSize = size
  gsoBfSize : t.settings.gso ≠ 0 → (size : ℤ) ∣ t.settings.gsoBfSize
  buffer : t.settings.sendSizes.2.1.toNat ≤ sp.buffer.length

theorem SendsBlocks.sendSizes_eq
    {t : Test} {sp : Stream} {size : ℕ} (h : SendsBlocks t sp size) :
    ∃ count gso, 0 < count ∧
      t.settings.sendSizes = ((size : ℤ), ((count * size : ℕ) : ℤ), gso) ∧
      (gso ≠ 0 → t.settings.gsoDgSize = size ∧
        t.settings.gsoBfSize = (count * size : ℕ)) ∧
      (gso = 0 → count = 1) := by
  have hblksize := h.blksize
  unfold Settings.sendSizes
  by_cases hgso : t.settings.gso ≠ 0
  · rw [if_pos hgso]
    by_cases hvalid : t.settings.gsoValid
    · rw [if_pos hvalid]
      have hdg := h.gsoDgSize hgso
      obtain ⟨count, hcount⟩ := h.gsoBfSize hgso
      simp only [Settings.gsoValid, Bool.and_eq_true, decide_eq_true_eq] at hvalid
      obtain ⟨⟨hpos, -⟩, hle⟩ := hvalid
      have hcountPos : 0 < count := by
        rw [hdg] at hpos hle
        rw [hcount] at hle
        by_contra hneg
        have : (size : ℤ) * count ≤ 0 :=
          mul_nonpos_of_nonneg_of_nonpos (by omega) (by omega)
        omega
      have hbf : t.settings.gsoBfSize = (count.toNat * size : ℕ) := by
        rw [hcount]
        push_cast
        rw [Int.toNat_of_nonneg hcountPos.le]
        ring
      refine ⟨count.toNat, t.settings.gso, by omega, ?_, ?_, ?_⟩
      · rw [hdg, hbf]
      · intro _
        exact ⟨hdg, hbf⟩
      · intro hzero
        exact absurd hzero hgso
    · rw [if_neg hvalid, hblksize]
      exact ⟨1, 0, one_pos, by simp, by simp, by simp⟩
  · rw [if_neg hgso, hblksize]
    exact ⟨1, 0, one_pos, by simp, by simp, by simp⟩

/-! ## Headers -/

theorem length_datagramHeader_le (t : Test) (now : IperfTime) (count : ℤ) :
    8 ≤ (datagramHeader t now count).length ∧
      (datagramHeader t now count).length ≤ maxPktSize := by
  unfold datagramHeader maxPktSize
  split_ifs <;> simp

/-- The packet count as the field of a header holds it. -/
def headerNumber (t : Test) (packetCount : ℤ) : ℕ :=
  if t.udpCounters64bit ≠ 0 then uint64 packetCount else uint32 packetCount

theorem headerNumber_of_lt {t : Test} {count : ℕ} (hcount : count < counterLimit t) :
    headerNumber t count = count := by
  unfold counterLimit at hcount
  unfold headerNumber
  by_cases h64 : t.udpCounters64bit ≠ 0
  · rw [if_pos h64] at hcount ⊢
    norm_num at hcount
    rw [uint64_eq]
    omega
  · rw [if_neg h64] at hcount ⊢
    norm_num at hcount
    rw [uint32_eq]
    omega

theorem writeHeader_of_le {header rest : List UInt8} (h : header.length ≤ rest.length) :
    writeHeader header rest = header ++ rest.drop header.length := by
  unfold writeHeader
  apply List.take_of_length_le
  rw [List.length_append, List.length_drop]
  omega

/-- The counter of a header survives the way through the datagram. -/
theorem packetNumber_writeHeader
    {t : Test} (now : IperfTime) (packetCount : ℤ) {rest : List UInt8}
    (hroom : maxPktSize ≤ rest.length) :
    packetNumber t (writeHeader (datagramHeader t now packetCount) rest) =
      headerNumber t packetCount := by
  have hsplit : ∀ (stamps counter tail : List UInt8), stamps.length = 8 →
      ((stamps ++ counter ++ tail).drop 8).take counter.length = counter := by
    intro stamps counter tail hlength
    rw [List.append_assoc, List.drop_append_of_le_length (by omega),
      List.drop_of_length_le (by omega), List.nil_append, List.take_left]
  have hstamps : (BigEndian.encode 4 now.secs ++
      BigEndian.encode 4 now.usecs).length = 8 := by simp
  have hheader := (length_datagramHeader_le t now packetCount).2
  rw [writeHeader_of_le (by omega)]
  unfold packetNumber datagramHeader headerNumber
  by_cases h64 : t.udpCounters64bit ≠ 0
  · simp only [if_pos h64]
    have hcounter := hsplit _ (BigEndian.encode 8 (uint64 packetCount)) (List.drop
      (BigEndian.encode 4 now.secs ++ BigEndian.encode 4 now.usecs ++
        BigEndian.encode 8 (uint64 packetCount)).length rest) hstamps
    rw [BigEndian.length_encode] at hcounter
    rw [hcounter]
    apply BigEndian.decode_encode
    have hlt := uint64_lt packetCount
    norm_num
    exact hlt
  · simp only [if_neg h64]
    have hcounter := hsplit _ (BigEndian.encode 4 (uint32 packetCount)) (List.drop
      (BigEndian.encode 4 now.secs ++ BigEndian.encode 4 now.usecs ++
        BigEndian.encode 4 (uint32 packetCount)).length rest) hstamps
    rw [BigEndian.length_encode] at hcounter
    rw [hcounter]
    apply BigEndian.decode_encode
    rw [uint32_eq]
    norm_num
    omega

theorem packetNumber_take
    (t : Test) {size : ℕ} (hsize : maxPktSize ≤ size) (rest : List UInt8) :
    packetNumber t (rest.take size) = packetNumber t rest := by
  unfold maxPktSize at hsize
  unfold packetNumber
  split_ifs
  · rw [List.drop_take, List.take_take, min_eq_left (by omega)]
  · rw [List.drop_take, List.take_take, min_eq_left (by omega)]

/-! ## One write -/

theorem length_writeHeader (header rest : List UInt8) :
    (writeHeader header rest).length = rest.length := by
  unfold writeHeader
  rw [List.length_take, List.length_append, List.length_drop]
  omega

theorem fillBuffer_length
    (t : Test) (dgramSz : ℕ) (clock : ℕ → IperfTime)
    (fuel : ℕ) (c : ℤ) (rest : List UInt8) :
    (fillBuffer t dgramSz clock fuel c rest).1.length = rest.length := by
  induction fuel generalizing c rest with
  | zero => rfl
  | succ fuel ih =>
      rw [fillBuffer]
      split_ifs
      · simp only [List.length_append, ih, List.length_take, List.length_drop,
          length_writeHeader]
        omega
      · rfl

/-- The packet count after a write, also when it runs past the header counter. -/
theorem fillBuffer_count
    (t : Test) {dgramSz : ℕ} (hdgram : 0 < dgramSz) (clock : ℕ → IperfTime)
    (fuel : ℕ) (c : ℤ) (rest : List UInt8) (hfuel : rest.length ≤ fuel)
    (hc : int64 c = c) :
    (fillBuffer t dgramSz clock fuel c rest).2 =
      int64 (c + (rest.length / dgramSz : ℕ)) := by
  induction fuel generalizing c rest with
  | zero =>
      have hnil : rest = [] := List.eq_nil_of_length_eq_zero (by omega)
      subst hnil
      simpa [fillBuffer] using hc.symm
  | succ fuel ih =>
      rw [fillBuffer]
      by_cases hroom : dgramSz ≤ rest.length
      · have hnext : ((writeHeader (datagramHeader t (clock fuel) (int64 (c + 1))) rest).drop
            dgramSz).length = rest.length - dgramSz := by
          rw [List.length_drop, length_writeHeader]
        have hquot : rest.length / dgramSz = (rest.length - dgramSz) / dgramSz + 1 :=
          Nat.div_eq_sub_div hdgram hroom
        rw [if_pos ⟨by omega, hroom⟩]
        simp only
        rw [ih _ _ (by omega) (int64_int64 _), hnext, int64_add_left, hquot]
        congr 1
        push_cast
        ring
      · rw [if_neg (by omega), Nat.div_eq_of_lt (by omega)]
        simpa using hc.symm

theorem fillBuffer_spec
    {t : Test} {size : ℕ} (hsize : maxPktSize ≤ size) (clock : ℕ → IperfTime)
    (count fuel : ℕ) (c : ℤ) (rest : List UInt8) (hlength : rest.length = count * size)
    (hfuel : count ≤ fuel) :
    ∃ ds : List Datagram, (fillBuffer t size clock fuel c rest).1 = ds.flatten ∧
      ds.length = count ∧
      (∀ d ∈ ds, d.length = size) ∧
      ds.map (packetNumber t) =
        (List.range count).map fun i : ℕ => headerNumber t (int64 (c + i + 1)) := by
  induction count generalizing fuel c rest with
  | zero =>
      have hnil : rest = [] := List.eq_nil_of_length_eq_zero (by omega)
      subst hnil
      refine ⟨[], ?_, rfl, by simp, rfl⟩
      cases fuel <;> rfl
  | succ count ih =>
      obtain ⟨fuel, rfl⟩ : ∃ k, fuel = k + 1 := ⟨fuel - 1, by omega⟩
      have hroom : size ≤ rest.length := by
        rw [hlength]
        exact Nat.le_mul_of_pos_left size (Nat.succ_pos count)
      have hpos : 0 < size := by
        unfold maxPktSize at hsize
        omega
      set written := writeHeader (datagramHeader t (clock fuel) (int64 (c + 1))) rest
        with hwritten
      have hwrittenLength : written.length = rest.length := length_writeHeader _ _
      have hrestLength : (written.drop size).length = count * size := by
        rw [List.length_drop, hwrittenLength, hlength, Nat.succ_mul]
        omega
      obtain ⟨ds, hfill, hdsLength, hdsSize, hnumbers⟩ :=
        ih fuel (int64 (c + 1)) (written.drop size) hrestLength (by omega)
      refine ⟨written.take size :: ds, ?_, by rw [List.length_cons, hdsLength], ?_, ?_⟩
      · rw [fillBuffer, if_pos ⟨by omega, hroom⟩, List.flatten_cons, ← hfill]
      · intro d hd
        rcases List.mem_cons.mp hd with rfl | hmem
        · rw [List.length_take]
          omega
        · exact hdsSize d hmem
      · rw [List.map_cons, hnumbers, packetNumber_take t hsize, hwritten,
          packetNumber_writeHeader (clock fuel) _ (by omega), List.range_succ_eq_map,
          List.map_cons, List.map_map]
        congr 1
        · simp
        · apply List.map_congr_left
          intro i _
          rw [Function.comp_apply, add_assoc, int64_add_left]
          congr 2
          push_cast
          ring

/-- The datagrams `ds` are blocks of `size` bytes with consecutive numbers. -/
structure Numbered (t : Test) (size first : ℕ) (ds : List Datagram) : Prop where
  length_eq : ∀ d ∈ ds, d.length = size
  numbers : ds.map (packetNumber t) = List.range' first ds.length

theorem counterLimit_le (t : Test) : counterLimit t ≤ 2 ^ 63 := by
  unfold counterLimit
  split_ifs <;> norm_num

/-- As long as the header counter does not wrap, the numbers are consecutive. -/
theorem headerNumbers_eq {t : Test} {c count : ℕ} (hlimit : c + count < counterLimit t) :
    ((List.range count).map fun i : ℕ => headerNumber t (int64 (c + i + 1))) =
      List.range' (c + 1) count := by
  have hwide := counterLimit_le t
  norm_num at hwide
  rw [List.range'_eq_map_range]
  apply List.map_congr_left
  intro i hi
  have hi' := List.mem_range.mp hi
  have hnumber : int64 ((c : ℤ) + i + 1) = ((c + 1 + i : ℕ) : ℤ) := by
    rw [int64_of_mem (by omega) (by omega)]
    push_cast
    ring
  rw [hnumber, headerNumber_of_lt (by omega)]

theorem segments_flatten
    {size : ℕ} (hsize : 0 < size) (ds : List Datagram) (fuel : ℕ)
    (hlength : ∀ d ∈ ds, d.length = size) (hfuel : ds.length ≤ fuel) :
    segments size fuel ds.flatten = ds := by
  induction ds generalizing fuel with
  | nil => cases fuel <;> rfl
  | cons d ds ih =>
      obtain ⟨fuel, rfl⟩ : ∃ k, fuel = k + 1 := ⟨fuel - 1, by
        rw [List.length_cons] at hfuel
        omega⟩
      have hd : d.length = size := hlength d List.mem_cons_self
      have hne : (d :: ds).flatten ≠ [] := by
        intro hnil
        have : (d :: ds).flatten.length = 0 := by rw [hnil]; rfl
        rw [List.flatten_cons, List.length_append] at this
        omega
      rw [segments, if_neg hne, List.flatten_cons, ← hd, List.take_left,
        List.drop_left, hd, ih fuel
          (fun d' hd' => hlength d' (List.mem_cons_of_mem _ hd'))
          (by simpa using hfuel)]

/-! ## One call and a run of the sender -/

theorem sendSizes_gso (s : Settings) :
    { s with gso := s.sendSizes.2.2 }.sendSizes = s.sendSizes := by
  unfold Settings.sendSizes
  by_cases hgso : s.gso ≠ 0
  · by_cases hok : s.gsoValid
    · simp [hgso, hok]
    · simp [hgso, hok]
  · simp [hgso]

/-- What one call does to the count, and what it sends. -/
structure SendStep (t : Test) (size c : ℕ) (call : SendCall) (next : UdpSend) :
    Prop where
  sendsBlocks : SendsBlocks next.test next.stream size
  counters : next.test.udpCounters64bit = t.udpCounters64bit
  perWrite : next.test.settings.datagramsPerWrite = t.settings.datagramsPerWrite
  packetCount :
    next.stream.packetCount =
      ((c + call.used t.settings.datagramsPerWrite : ℕ) : ℤ)
  numbered : Numbered t size (c + 1) next.sent
  length_sent :
    next.sent.length =
      if call.written ≤ 0 then 0 else t.settings.datagramsPerWrite

theorem datagramsPerWrite_eq
    {s : Settings} {size count : ℕ} {gso : ℤ} (hsize : 0 < size)
    (h : s.sendSizes = ((size : ℤ), ((count * size : ℕ) : ℤ), gso)) :
    s.datagramsPerWrite = count := by
  unfold Settings.datagramsPerWrite
  rw [h]
  simp only [Int.toNat_natCast]
  exact Nat.mul_div_cancel count hsize

/-- Only a write without bytes has datagrams without bytes. -/
theorem sendSizes_pos (s : Settings) : 0 < s.sendSizes.1 ∨ s.sendSizes.2.1 ≤ 0 := by
  unfold Settings.sendSizes
  split_ifs with hgso hvalid
  · simp only [Settings.gsoValid, Bool.and_eq_true, decide_eq_true_eq] at hvalid
    exact Or.inl hvalid.1.1
  · exact (lt_or_ge 0 s.blksize).imp id id
  · exact (lt_or_ge 0 s.blksize).imp id id

/-- The count goes up by the datagrams of a write, and a failed write takes
one of them back. -/
theorem iperfUdpSend_packetCount
    {t : Test} {sp : Stream} (hbuffer : t.settings.sendSizes.2.1.toNat ≤ sp.buffer.length)
    (hc : int64 sp.packetCount = sp.packetCount) (clock : ℕ → IperfTime) (written : ℤ) :
    (iperfUdpSend clock written t sp).stream.packetCount =
      int64 (sp.packetCount + t.settings.datagramsPerWrite - if written ≤ 0 then 1 else 0) := by
  have hregion : (sp.buffer.take t.settings.sendSizes.2.1.toNat).length =
      t.settings.sendSizes.2.1.toNat := by
    rw [List.length_take]
    omega
  have hfill : ∀ t' : Test, (fillBuffer t' t.settings.sendSizes.1.toNat clock
      (sp.buffer.take t.settings.sendSizes.2.1.toNat).length sp.packetCount
      (sp.buffer.take t.settings.sendSizes.2.1.toNat)).2 =
        int64 (sp.packetCount + t.settings.datagramsPerWrite) := by
    intro t'
    rcases sendSizes_pos t.settings with hpos | hempty
    · rw [fillBuffer_count t' (by omega) clock _ _ _ (le_refl _) hc, hregion]
      rfl
    · have hnone : t.settings.sendSizes.2.1.toNat = 0 := by omega
      rw [Settings.datagramsPerWrite, hnone, Nat.zero_div]
      simpa [fillBuffer] using hc.symm
  unfold iperfUdpSend
  simp only
  by_cases hwritten : written ≤ 0
  · rw [if_pos hwritten, if_pos hwritten]
    simp only [hfill]
    rw [sub_eq_add_neg, int64_add_left, sub_eq_add_neg]
  · rw [if_neg hwritten, if_neg hwritten, sub_zero]
    exact hfill _

/-- What one call leaves of the settings. -/
def Test.afterSend (t : Test) : Test :=
  { t with settings := { t.settings with gso := t.settings.sendSizes.2.2 } }

theorem iperfUdpSend_test (clock : ℕ → IperfTime) (written : ℤ) (t : Test) (sp : Stream) :
    (iperfUdpSend clock written t sp).test = t.afterSend := by
  unfold iperfUdpSend
  simp only
  split_ifs <;> rfl

theorem Test.datagramsPerWrite_afterSend (t : Test) :
    t.afterSend.settings.datagramsPerWrite = t.settings.datagramsPerWrite := by
  simp only [Test.afterSend, Settings.datagramsPerWrite, sendSizes_gso]

theorem iperfUdpSend_result (clock : ℕ → IperfTime) (written : ℤ) (t : Test) (sp : Stream) :
    (iperfUdpSend clock written t sp).stream.result =
      if written ≤ 0 then sp.result
      else { sp.result with
        bytesSent := uint64 (sp.result.bytesSent + written)
        bytesSentThisInterval := uint64 (sp.result.bytesSentThisInterval + written) } := by
  unfold iperfUdpSend
  simp only
  split_ifs <;> rfl

theorem iperfUdpSend_buffer
    {t : Test} {sp : Stream} (hbuffer : t.settings.sendSizes.2.1.toNat ≤ sp.buffer.length)
    (clock : ℕ → IperfTime) (written : ℤ) :
    (iperfUdpSend clock written t sp).stream.buffer.length = sp.buffer.length := by
  have hlength : ∀ t' : Test, ∀ fuel, ((fillBuffer t' t.settings.sendSizes.1.toNat clock fuel
      sp.packetCount (sp.buffer.take t.settings.sendSizes.2.1.toNat)).1 ++
        sp.buffer.drop t.settings.sendSizes.2.1.toNat).length = sp.buffer.length := by
    intro t' fuel
    rw [List.length_append, fillBuffer_length, List.length_take, List.length_drop]
    omega
  unfold iperfUdpSend
  simp only
  split_ifs <;> exact hlength _ _

theorem iperfUdpSend_sendsBlocks
    {t : Test} {sp : Stream} {size : ℕ} (h : SendsBlocks t sp size)
    (clock : ℕ → IperfTime) (written : ℤ) :
    SendsBlocks (iperfUdpSend clock written t sp).test
      (iperfUdpSend clock written t sp).stream size := by
  have hgso : t.settings.sendSizes.2.2 ≠ 0 → t.settings.gso ≠ 0 := by
    unfold Settings.sendSizes
    split_ifs with hon
    · exact fun _ => hon
    · exact fun hzero => absurd rfl hzero
    · exact fun hzero => absurd rfl hzero
  refine ⟨?_, h.header_fits, ?_, ?_, ?_⟩
  · rw [iperfUdpSend_test]
    exact h.blksize
  · rw [iperfUdpSend_test]
    exact fun hset => h.gsoDgSize (hgso hset)
  · rw [iperfUdpSend_test]
    exact fun hset => h.gsoBfSize (hgso hset)
  · rw [iperfUdpSend_buffer h.buffer, iperfUdpSend_test]
    simp only [Test.afterSend, sendSizes_gso]
    exact h.buffer

theorem iperfUdpSend_sent
    {t : Test} {sp : Stream} {size : ℕ} (h : SendsBlocks t sp size)
    (clock : ℕ → IperfTime) {written : ℤ} (hwritten : 0 < written) :
    ((iperfUdpSend clock written t sp).sent.length = t.settings.datagramsPerWrite) ∧
      (∀ d ∈ (iperfUdpSend clock written t sp).sent, d.length = size) ∧
      (iperfUdpSend clock written t sp).sent.map (packetNumber t) =
        (List.range t.settings.datagramsPerWrite).map fun i : ℕ =>
          headerNumber t (int64 (sp.packetCount + i + 1)) := by
  have hsize := h.header_fits
  have hpos : 0 < size := by
    unfold maxPktSize at hsize
    omega
  obtain ⟨count, gso, hcountPos, hsizes, hgsoOn, hgsoOff⟩ := h.sendSizes_eq
  have hper := datagramsPerWrite_eq hpos hsizes
  have hbuffer : count * size ≤ sp.buffer.length := by
    have hlen := h.buffer
    rw [hsizes] at hlen
    exact hlen
  have hregion : (sp.buffer.take (count * size)).length = count * size := by
    rw [List.length_take]
    omega
  set t' : Test := { t with settings := { t.settings with gso := gso } } with ht'
  obtain ⟨ds, hfill, hdsLength, hdsSize, hnumbers⟩ := fillBuffer_spec (t := t') hsize
    clock count (count * size) sp.packetCount (sp.buffer.take (count * size)) hregion
    (Nat.le_mul_of_pos_right count hpos)
  have hflatten : ds.flatten.length = count * size := by
    rw [← hfill, fillBuffer_length, hregion]
  -- What the kernel sends are the datagrams of the filled buffer.
  have hsent : (if gso ≠ 0 then
      segments t.settings.gsoDgSize.toNat
        (ds.flatten ++ sp.buffer.drop (count * size)).length
        ((ds.flatten ++ sp.buffer.drop (count * size)).take
          t.settings.gsoBfSize.toNat)
      else [(ds.flatten ++ sp.buffer.drop (count * size)).take
        t.settings.blksize.toNat]) = ds := by
    by_cases hgso : gso ≠ 0
    · have hdg : t.settings.gsoDgSize.toNat = size := by
        rw [(hgsoOn hgso).1, Int.toNat_natCast]
      have hbf : t.settings.gsoBfSize.toNat = ds.flatten.length := by
        rw [(hgsoOn hgso).2, Int.toNat_natCast, hflatten]
      rw [if_pos hgso, hdg, hbf, List.take_left]
      apply segments_flatten hpos ds _ hdsSize
      rw [List.length_append, hflatten, hdsLength]
      exact le_trans (Nat.le_mul_of_pos_right count hpos) (Nat.le_add_right _ _)
    · rw [not_not] at hgso
      have hone := hgsoOff hgso
      have hblk : t.settings.blksize.toNat = ds.flatten.length := by
        rw [h.blksize, Int.toNat_natCast, hflatten, hone, one_mul]
      obtain ⟨d, hd⟩ := List.length_eq_one_iff.mp (hdsLength.trans hone)
      rw [if_neg (not_not.mpr hgso), hblk, List.take_left, hd]
      simp
  have hall : (iperfUdpSend clock written t sp).sent = ds := by
    unfold iperfUdpSend
    simp only [hsizes, Int.toNat_natCast, hregion]
    rw [← ht', if_neg (not_le.mpr hwritten)]
    simp only [hfill]
    exact hsent
  rw [hall, hper]
  exact ⟨hdsLength, hdsSize, hnumbers⟩

theorem iperfUdpSend_step
    {t : Test} {sp : Stream} {size c : ℕ} (h : SendsBlocks t sp size)
    (hc : sp.packetCount = c) (call : SendCall)
    (hlimit : c + call.used t.settings.datagramsPerWrite < counterLimit t) :
    SendStep t size c call (iperfUdpSend call.clock call.written t sp) := by
  have hwide := counterLimit_le t
  norm_num at hwide
  have hpos : 0 < t.settings.datagramsPerWrite := by
    have hsize := h.header_fits
    unfold maxPktSize at hsize
    obtain ⟨count, gso, hcountPos, hsizes, -, -⟩ := h.sendSizes_eq
    rwa [datagramsPerWrite_eq (by omega) hsizes]
  have hcount := iperfUdpSend_packetCount h.buffer
    (by rw [hc]; exact int64_of_mem (by omega) (by omega)) call.clock call.written
  have hper : (iperfUdpSend call.clock call.written t sp).test.settings.datagramsPerWrite =
      t.settings.datagramsPerWrite := by
    rw [iperfUdpSend_test, Test.datagramsPerWrite_afterSend]
  by_cases hwritten : call.written ≤ 0
  · -- A failed write: only the count matters.
    have hsent : (iperfUdpSend call.clock call.written t sp).sent = [] := by
      unfold iperfUdpSend
      simp only
      rw [if_pos hwritten]
    rw [SendCall.used, if_pos hwritten] at hlimit
    refine ⟨iperfUdpSend_sendsBlocks h _ _, by rw [iperfUdpSend_test]; rfl, hper, ?_, ?_, ?_⟩
    · rw [hcount, hc, SendCall.used, if_pos hwritten, if_pos hwritten,
        int64_of_mem (by omega) (by omega)]
      omega
    · rw [hsent]
      exact ⟨by simp, rfl⟩
    · rw [hsent, if_pos hwritten]
      rfl
  · obtain ⟨hlength, hall, hnumbers⟩ :=
      iperfUdpSend_sent h call.clock (not_le.mp hwritten)
    rw [SendCall.used, if_neg hwritten] at hlimit
    refine ⟨iperfUdpSend_sendsBlocks h _ _, by rw [iperfUdpSend_test]; rfl, hper, ?_,
      ⟨hall, ?_⟩, ?_⟩
    · rw [hcount, hc, SendCall.used, if_neg hwritten, if_neg hwritten, sub_zero,
        int64_of_mem (by omega) (by omega)]
      push_cast
      rfl
    · rw [hnumbers, hlength, hc]
      exact headerNumbers_eq hlimit
    · rw [if_neg hwritten, hlength]

theorem packetNumber_congr
    {t u : Test} (h : t.udpCounters64bit = u.udpCounters64bit) :
    packetNumber t = packetNumber u := by
  funext datagram
  unfold packetNumber
  rw [h]

/-- The datagrams of a run: blocks whose numbers grow from the count at the
start to the numbers used up. -/
structure SentInOrder (t : Test) (size c top : ℕ) (sent : List Datagram) : Prop where
  length_eq : ∀ d ∈ sent, d.length = size
  increasing : (sent.map (packetNumber t)).Pairwise (· < ·)
  above : ∀ d ∈ sent, c < packetNumber t d
  below : ∀ d ∈ sent, packetNumber t d ≤ top

theorem Numbered.sentInOrder
    {t : Test} {size c : ℕ} {ds : List Datagram} (h : Numbered t size (c + 1) ds) :
    SentInOrder t size c (c + ds.length) ds := by
  have hmem : ∀ d ∈ ds, packetNumber t d ∈ List.range' (c + 1) ds.length := by
    intro d hd
    rw [← h.numbers]
    exact List.mem_map_of_mem hd
  refine ⟨h.length_eq, ?_, ?_, ?_⟩
  · rw [h.numbers]
    exact List.pairwise_lt_range'
  · intro d hd
    have hrange := List.mem_range'_1.mp (hmem d hd)
    omega
  · intro d hd
    have hrange := List.mem_range'_1.mp (hmem d hd)
    omega

theorem SentInOrder.append
    {t : Test} {size c middle top : ℕ} {earlier later : List Datagram}
    (h : SentInOrder t size c middle earlier)
    (h' : SentInOrder t size middle top later) (hc : c ≤ middle)
    (htop : middle ≤ top) : SentInOrder t size c top (earlier ++ later) := by
  refine ⟨?_, ?_, ?_, ?_⟩
  · intro d hd
    rcases List.mem_append.mp hd with hd | hd
    · exact h.length_eq d hd
    · exact h'.length_eq d hd
  · rw [List.map_append, List.pairwise_append]
    refine ⟨h.increasing, h'.increasing, ?_⟩
    intro n hn m hm
    obtain ⟨d, hd, rfl⟩ := List.mem_map.mp hn
    obtain ⟨d', hd', rfl⟩ := List.mem_map.mp hm
    exact (h.below d hd).trans_lt (h'.above d' hd')
  · intro d hd
    rcases List.mem_append.mp hd with hd | hd
    · exact h.above d hd
    · exact hc.trans_lt (h'.above d hd)
  · intro d hd
    rcases List.mem_append.mp hd with hd | hd
    · exact (h.below d hd).trans htop
    · exact h'.below d hd

theorem sendRun_sentInOrder
    {size : ℕ} (calls : List SendCall) {t : Test} {sp : Stream} {c : ℕ}
    (h : SendsBlocks t sp size) (hc : sp.packetCount = c)
    (hlimit : c + numbersUsed t.settings.datagramsPerWrite calls < counterLimit t) :
    SentInOrder t size c (c + numbersUsed t.settings.datagramsPerWrite calls)
      (sendRun calls t sp) := by
  induction calls generalizing t sp c with
  | nil => exact ⟨by simp [sendRun], by simp [sendRun], by simp [sendRun], by simp [sendRun]⟩
  | cons call calls ih =>
      rw [numbersUsed] at hlimit ⊢
      have hstep := iperfUdpSend_step h hc call (by omega)
      have hlater := ih hstep.sendsBlocks hstep.packetCount (by
        rw [hstep.perWrite, counterLimit, hstep.counters]
        exact lt_of_eq_of_lt (by omega) hlimit)
      rw [hstep.perWrite] at hlater
      have hnow : SentInOrder t size c (c + call.used t.settings.datagramsPerWrite)
          (iperfUdpSend call.clock call.written t sp).sent := by
        have hordered := hstep.numbered.sentInOrder
        refine ⟨hordered.length_eq, hordered.increasing, hordered.above, ?_⟩
        intro d hd
        have hbelow := hordered.below d hd
        have hlength := hstep.length_sent
        unfold SendCall.used
        split_ifs at hlength ⊢ with hwritten
        · rw [List.eq_nil_of_length_eq_zero hlength] at hd
          cases hd
        · omega
      have hlater' : SentInOrder t size (c + call.used t.settings.datagramsPerWrite)
          (c + call.used t.settings.datagramsPerWrite +
            numbersUsed t.settings.datagramsPerWrite calls)
          (sendRun calls (iperfUdpSend call.clock call.written t sp).test
            (iperfUdpSend call.clock call.written t sp).stream) := by
        have hnumber := packetNumber_congr hstep.counters
        exact ⟨hlater.length_eq, hnumber ▸ hlater.increasing,
          hnumber ▸ hlater.above, hnumber ▸ hlater.below⟩
      rw [← add_assoc]
      exact hnow.append hlater' (by omega) (by omega)

/-- When every write carries one datagram or succeeds, the numbers used up are
the datagrams sent. -/
theorem length_sendRun
    {size : ℕ} (calls : List SendCall) {t : Test} {sp : Stream} {c : ℕ}
    (h : SendsBlocks t sp size) (hc : sp.packetCount = c)
    (hlimit : c + numbersUsed t.settings.datagramsPerWrite calls < counterLimit t)
    (hwhole : t.settings.datagramsPerWrite = 1 ∨ ∀ call ∈ calls, 0 < call.written) :
    (sendRun calls t sp).length = numbersUsed t.settings.datagramsPerWrite calls := by
  induction calls generalizing t sp c with
  | nil => rfl
  | cons call calls ih =>
      rw [numbersUsed] at hlimit ⊢
      have hstep := iperfUdpSend_step h hc call (by omega)
      have hlater := ih hstep.sendsBlocks hstep.packetCount (by
        rw [hstep.perWrite, counterLimit, hstep.counters]
        exact lt_of_eq_of_lt (by omega) hlimit)
        (by
          rw [hstep.perWrite]
          exact hwhole.imp_right fun h call' hmem =>
            h call' (List.mem_cons_of_mem _ hmem))
      have hused : call.used t.settings.datagramsPerWrite =
          (iperfUdpSend call.clock call.written t sp).sent.length := by
        rw [hstep.length_sent, SendCall.used]
        split_ifs with hwritten
        · rcases hwhole with hone | hpos
          · omega
          · have := hpos call List.mem_cons_self
            omega
        · rfl
      rw [sendRun, List.length_append, hlater, hused, hstep.perWrite]

/-! ## The receiver -/

/-- The counters of a stream are those of the abstract accounting. -/
structure Tracks (sp : Stream) (c : Counters) : Prop where
  packetCount : sp.packetCount = c.highest
  cntError : sp.cntError = c.lost
  outoforderPackets : sp.outoforderPackets = c.late

/-- Numbers that a receiver can account for: distinct, positive and below the
width of its counter. -/
structure Countable (numbers : List ℕ) : Prop where
  nodup : numbers.Nodup
  pos : ∀ n ∈ numbers, 0 < n
  small : ∀ n ∈ numbers, n < 9223372036854775808

theorem Countable.of_append
    {earlier later : List ℕ} (h : Countable (earlier ++ later)) : Countable earlier :=
  ⟨List.Nodup.of_append_left h.nodup,
    fun n hn => h.pos n (List.mem_append_left _ hn),
    fun n hn => h.small n (List.mem_append_left _ hn)⟩

theorem Countable.highest_lt {numbers : List ℕ} (h : Countable numbers) :
    highest numbers < 9223372036854775808 := by
  by_cases hzero : highest numbers = 0
  · omega
  · exact h.small _ (highest_mem hzero)

theorem Countable.length_lt {numbers : List ℕ} (h : Countable numbers) :
    numbers.length < 9223372036854775808 :=
  length_lt_of_missing h.nodup h.pos (fun n hn => (h.small n hn).le)
    (fun hmem => (h.small _ hmem).false) (by norm_num) le_rfl

/-- Below `2 ^ 63` no comparison and no sum of the receiver wraps. -/
theorem Tracks.countPacket
    {sp : Stream} {c : Counters} {numbers : List ℕ} {number : ℕ}
    (h : Tracks sp c) (hexact : Exact c numbers)
    (hcountable : Countable (numbers ++ [number])) :
    Tracks (sp.countPacket number) (arrive c number) := by
  have hlost := hexact.lost_eq
  have hlate := hexact.late_le_length
  have hlength := hcountable.length_lt
  rw [List.length_append, List.length_singleton] at hlength
  have hsmall : c.highest < 9223372036854775808 := by
    rw [hexact.highest_eq]
    exact hcountable.of_append.highest_lt
  have hnumber := hcountable.small number (by simp)
  have hnext : uint64 (int64 (sp.packetCount + 1)) = c.highest + 1 := by
    rw [uint64_int64, h.packetCount, uint64_eq]
    omega
  unfold Stream.countPacket arrive
  rw [hnext]
  by_cases hforward : c.highest + 1 ≤ number
  · rw [if_pos hforward, if_pos hforward]
    refine ⟨?_, ?_, h.outoforderPackets⟩
    · exact int64_of_mem (by omega) (by omega)
    · by_cases hgap : c.highest + 1 < number
      · have hmissing : (uint64 ((number : ℤ) - 1 - sp.packetCount) : ℤ) =
            number - 1 - c.highest := by
          rw [h.packetCount]
          exact uint64_of_mem (by omega) (by omega)
        have hsum : (uint64 (sp.cntError +
            uint64 ((number : ℤ) - 1 - sp.packetCount)) : ℤ) =
              c.lost + (number - 1 - c.highest) := by
          rw [hmissing, h.cntError]
          exact uint64_of_mem (by omega) (by omega)
        simp only [if_pos hgap]
        rw [hsum, int64_of_mem (by omega) (by omega)]
        omega
      · simp only [if_neg hgap]
        rw [h.cntError]
        omega
  · rw [if_neg hforward, if_neg hforward]
    refine ⟨h.packetCount, ?_, ?_⟩
    · simp only [h.cntError]
      split_ifs <;> omega
    · simp only [h.outoforderPackets]
      rw [int64_of_mem (by omega) (by omega)]
      push_cast
      rfl

theorem Tracks.updateJitter
    {sp : Stream} {c : Counters} (h : Tracks sp c) (first : Bool)
    (sent arrival : IperfTime) : Tracks (sp.updateJitter first sent arrival) c :=
  ⟨h.packetCount, h.cntError, h.outoforderPackets⟩

theorem countDatagrams_nil
    (t : Test) {size : ℕ} (hsize : maxPktSize ≤ size) (clock : ℕ → IperfTime) (fuel : ℕ)
    (first : Bool) (sp : Stream) : countDatagrams t size clock fuel first [] sp = sp := by
  cases fuel with
  | zero => rfl
  | succ fuel =>
      have hshort : ([] : List UInt8).length < size := by
        unfold maxPktSize at hsize
        rw [List.length_nil]
        omega
      rw [countDatagrams, if_pos hshort]

theorem countDatagrams_cons
    (t : Test) {size : ℕ} (hsize : maxPktSize ≤ size) (clock : ℕ → IperfTime) (fuel : ℕ)
    (first : Bool) {d : Datagram} (hd : d.length = size) (rest : List UInt8) (sp : Stream) :
    countDatagrams t size clock (fuel + 1) first (d ++ rest) sp =
      countDatagrams t size clock fuel false rest
        ((sp.countPacket (packetNumber t d)).updateJitter first (sentTime (d ++ rest))
          (clock fuel)) := by
  have hlong : size ≤ (d ++ rest).length := by
    rw [List.length_append]
    omega
  have hnumber : packetNumber t (d ++ rest) = packetNumber t d := by
    rw [← packetNumber_take t hsize (d ++ rest), ← hd, List.take_left]
  have hrest : (d ++ rest).drop size = rest := by rw [← hd, List.drop_left]
  rw [countDatagrams, if_neg (by omega), if_neg (by
    unfold maxPktSize at hsize
    unfold minPktSize
    omega), if_neg (by omega), hnumber, hrest]

theorem countDatagrams_tracks
    {t : Test} {size : ℕ} (hsize : maxPktSize ≤ size) (clock : ℕ → IperfTime)
    (ds : List Datagram) (fuel : ℕ) (first : Bool) {sp : Stream} {c : Counters}
    {numbers : List ℕ} (hlength : ∀ d ∈ ds, d.length = size)
    (hfuel : ds.flatten.length ≤ fuel) (htracks : Tracks sp c)
    (hexact : Exact c numbers)
    (hcountable : Countable (numbers ++ ds.map (packetNumber t))) :
    ∃ c', Tracks (countDatagrams t size clock fuel first ds.flatten sp) c' ∧
      Exact c' (numbers ++ ds.map (packetNumber t)) := by
  have hpos : 0 < size := by
    unfold maxPktSize at hsize
    omega
  induction ds generalizing fuel first sp c numbers with
  | nil =>
      refine ⟨c, ?_, by simpa using hexact⟩
      rw [List.flatten_nil, countDatagrams_nil t hsize]
      exact htracks
  | cons d ds ih =>
      have hd : d.length = size := hlength d List.mem_cons_self
      rw [List.flatten_cons, List.length_append] at hfuel
      obtain ⟨fuel, rfl⟩ : ∃ k, fuel = k + 1 := ⟨fuel - 1, by omega⟩
      rw [List.map_cons, List.append_cons] at hcountable
      have hstep := hcountable.of_append
      have hnew := (htracks.countPacket hexact hstep).updateJitter first
        (sentTime (d ++ ds.flatten)) (clock fuel)
      rw [List.flatten_cons, countDatagrams_cons t hsize clock fuel first hd, List.map_cons,
        List.append_cons]
      exact ih fuel false (fun d' hd' => hlength d' (List.mem_cons_of_mem _ hd')) (by omega)
        hnew (hexact.arrive hstep.nodup hstep.pos) hcountable

/-! ## One read and a run of the receiver -/

structure RecvCall where
  clock : ℕ → IperfTime
  arriving : List Datagram

def recvRun (b : Build) (t : Test) (calls : List RecvCall) (sp : Stream) :
    Option Stream :=
  calls.foldlM (fun sp call =>
    iperfUdpRecv b call.clock .testRunning t call.arriving sp) sp

def deliveries (calls : List RecvCall) : List Datagram :=
  calls.flatMap RecvCall.arriving

/-- A read returns one datagram, or with receive offload as many as fit. -/
def RecvCall.OneRead (t : Test) (call : RecvCall) : Prop :=
  if t.settings.gro ≠ 0 then
    call.arriving.flatten.length ≤
      min t.settings.groBfSize.toNat maxUdpBlocksize.toNat
  else call.arriving.length ≤ 1

/-- The receiver asks for whole blocks. -/
def ReadsWholeBlocks (b : Build) (t : Test) : Prop :=
  t.settings.gro ≠ 0 ∨ b.haveMsgTrunc = false ∨ t.settings.skipRxCopy = 0 ∨
    t.settings.blksize = maxPktSize

theorem nrecvNoSelect_single
    {size : ℕ} {d : Datagram} (hsize : 0 < size) (hlong : size ≤ d.length) :
    nrecvNoSelect size [d] = d.take size := by
  have hne : d ≠ [] := by
    rintro rfl
    simp at hlong
    omega
  have hskip : ¬ (size = 0 ∨ d = []) := by
    rintro (h | h)
    · omega
    · exact hne h
  rw [nrecvNoSelect, if_neg hskip, nrecvNoSelect, List.append_nil]

theorem readDatagrams_whole
    {b : Build} {t : Test} {size : ℕ} (hsize : maxPktSize ≤ size)
    (hblksize : t.settings.blksize = size) (hwhole : ReadsWholeBlocks b t)
    {call : RecvCall} (hread : call.OneRead t)
    (hlength : ∀ d ∈ call.arriving, d.length = size) :
    readDatagrams b t call.arriving = call.arriving.flatten := by
  have hpos : 0 < size := by
    unfold maxPktSize at hsize
    omega
  unfold RecvCall.OneRead at hread
  unfold readDatagrams
  by_cases hgro : t.settings.gro ≠ 0
  · rw [if_pos hgro] at hread ⊢
    unfold nreadGro
    exact List.take_of_length_le hread
  · rw [if_neg hgro] at hread ⊢
    have hcount : (if b.haveMsgTrunc ∧ t.settings.skipRxCopy ≠ 0 then
        nrecvNoSelect maxPktSize call.arriving
        else nrecvNoSelect t.settings.blksize.toNat call.arriving) =
          nrecvNoSelect size call.arriving := by
      rw [hblksize, Int.toNat_natCast]
      split_ifs with htrunc
      · rcases hwhole with h | h | h | h
        · exact absurd h hgro
        · rw [h] at htrunc
          exact absurd htrunc.1 (by simp)
        · exact absurd h htrunc.2
        · have heq : size = maxPktSize := by
            rw [hblksize] at h
            exact_mod_cast h
          rw [heq]
      · rfl
    rw [hcount]
    cases harriving : call.arriving with
    | nil => rfl
    | cons d rest =>
        rw [harriving, List.length_cons] at hread
        have hrest : rest = [] := List.eq_nil_of_length_eq_zero (by omega)
        have hd : d.length = size := hlength d (by rw [harriving]; exact List.mem_cons_self)
        rw [hrest, nrecvNoSelect_single hpos hd.ge, List.take_of_length_le hd.le]
        simp

theorem iperfUdpRecv_tracks
    {b : Build} {t : Test} {size : ℕ} (hsize : maxPktSize ≤ size)
    (hblksize : t.settings.blksize = size) (hwhole : ReadsWholeBlocks b t)
    {call : RecvCall} (hread : call.OneRead t)
    (hlength : ∀ d ∈ call.arriving, d.length = size) {sp : Stream} {c : Counters}
    {numbers : List ℕ} (htracks : Tracks sp c) (hexact : Exact c numbers)
    (hcountable : Countable (numbers ++ call.arriving.map (packetNumber t))) :
    ∃ sp' c', iperfUdpRecv b call.clock .testRunning t call.arriving sp = some sp' ∧
      Tracks sp' c' ∧ Exact c' (numbers ++ call.arriving.map (packetNumber t)) := by
  have hpos : 0 < size := by
    unfold maxPktSize at hsize
    omega
  unfold iperfUdpRecv
  simp only [readDatagrams_whole hsize hblksize hwhole hread hlength]
  by_cases hnil : call.arriving.flatten = []
  · have hempty : call.arriving = [] := by
      cases harriving : call.arriving with
      | nil => rfl
      | cons d rest =>
          have hd : d.length = size :=
            hlength d (by rw [harriving]; exact List.mem_cons_self)
          rw [harriving, List.flatten_cons, List.append_eq_nil_iff] at hnil
          rw [hnil.1] at hd
          simp at hd
          omega
    rw [if_pos (Or.inl hnil), hempty]
    exact ⟨sp, c, rfl, htracks, by simpa using hexact⟩
  · have hpositive : ¬ t.settings.blksize ≤ 0 := by omega
    rw [if_neg (by simp [hnil]), if_neg hpositive, hblksize, Int.toNat_natCast]
    have hcounted : Tracks { sp with result := { sp.result with
        bytesReceived :=
          uint64 (sp.result.bytesReceived + call.arriving.flatten.length)
        bytesReceivedThisInterval := uint64
          (sp.result.bytesReceivedThisInterval +
            call.arriving.flatten.length) } } c :=
      ⟨htracks.packetCount, htracks.cntError, htracks.outoforderPackets⟩
    obtain ⟨c', htracks', hexact'⟩ := countDatagrams_tracks hsize call.clock
      call.arriving call.arriving.flatten.length
      (decide (sp.result.bytesReceived = 0)) hlength le_rfl hcounted hexact hcountable
    exact ⟨_, c', rfl, htracks', hexact'⟩

theorem recvRun_tracks
    {b : Build} {t : Test} {size : ℕ} (hsize : maxPktSize ≤ size)
    (hblksize : t.settings.blksize = size) (hwhole : ReadsWholeBlocks b t)
    (calls : List RecvCall) (hread : ∀ call ∈ calls, call.OneRead t)
    (hlength : ∀ d ∈ deliveries calls, d.length = size) {sp : Stream} {c : Counters}
    {numbers : List ℕ} (htracks : Tracks sp c) (hexact : Exact c numbers)
    (hcountable : Countable (numbers ++ (deliveries calls).map (packetNumber t))) :
    ∃ sp' c', recvRun b t calls sp = some sp' ∧ Tracks sp' c' ∧
      Exact c' (numbers ++ (deliveries calls).map (packetNumber t)) := by
  induction calls generalizing sp c numbers with
  | nil => exact ⟨sp, c, rfl, htracks, by simpa [deliveries] using hexact⟩
  | cons call calls ih =>
      have hsplit : deliveries (call :: calls) = call.arriving ++ deliveries calls :=
        List.flatMap_cons
      rw [hsplit, List.map_append, ← List.append_assoc] at hcountable ⊢
      rw [hsplit] at hlength
      obtain ⟨sp1, c1, hcall, htracks1, hexact1⟩ := iperfUdpRecv_tracks hsize hblksize
        hwhole (hread call List.mem_cons_self)
        (fun d hd => hlength d (List.mem_append_left _ hd)) htracks hexact
        hcountable.of_append
      obtain ⟨sp', c', hrun, hresult⟩ := ih
        (fun call' hmem => hread call' (List.mem_cons_of_mem _ hmem))
        (fun d hd => hlength d (List.mem_append_right _ hd)) htracks1 hexact1 hcountable
      refine ⟨sp', c', ?_, hresult⟩
      unfold recvRun at hrun ⊢
      rw [List.foldlM_cons, hcall]
      exact hrun

/-- The packet count, the losses and the late arrivals. -/
def Stream.lossCounters (sp : Stream) : ℤ × ℤ × ℤ :=
  (sp.packetCount, sp.cntError, sp.outoforderPackets)

/-- A read of less than a block is not counted. -/
theorem iperfUdpRecv_short
    {b : Build} {t : Test} {size : ℕ} (hsize : maxPktSize ≤ size)
    (hblksize : t.settings.blksize = size) (hshort : ¬ ReadsWholeBlocks b t)
    {call : RecvCall} (hread : call.OneRead t)
    (hlength : ∀ d ∈ call.arriving, d.length = size) (sp : Stream) :
    ∃ sp', iperfUdpRecv b call.clock .testRunning t call.arriving sp = some sp' ∧
      sp'.lossCounters = sp.lossCounters := by
  unfold ReadsWholeBlocks at hshort
  simp only [not_or, not_not, Bool.not_eq_false] at hshort
  obtain ⟨hgro, htrunc, hskip, hne⟩ := hshort
  have hlt : maxPktSize < size := by
    rw [hblksize] at hne
    have hne' : size ≠ maxPktSize := by exact_mod_cast hne
    omega
  unfold RecvCall.OneRead at hread
  rw [if_neg (not_not.mpr hgro)] at hread
  have hread' : (readDatagrams b t call.arriving).length < size := by
    unfold readDatagrams
    rw [if_neg (not_not.mpr hgro), if_pos ⟨htrunc, hskip⟩]
    cases harriving : call.arriving with
    | nil =>
        simp only [nrecvNoSelect, List.length_nil]
        omega
    | cons d rest =>
        rw [harriving, List.length_cons] at hread
        have hrest : rest = [] := List.eq_nil_of_length_eq_zero (by omega)
        have hd : d.length = size :=
          hlength d (by rw [harriving]; exact List.mem_cons_self)
        rw [hrest, nrecvNoSelect_single (by decide) (by omega), List.length_take]
        omega
  unfold iperfUdpRecv
  simp only
  split_ifs with hnothing hzero
  · exact ⟨sp, rfl, rfl⟩
  · omega
  · refine ⟨_, rfl, ?_⟩
    rw [hblksize, Int.toNat_natCast]
    cases hfuel : (readDatagrams b t call.arriving).length with
    | zero => rfl
    | succ fuel =>
        rw [countDatagrams, if_pos hread']
        rfl

theorem recvRun_short
    {b : Build} {t : Test} {size : ℕ} (hsize : maxPktSize ≤ size)
    (hblksize : t.settings.blksize = size) (hshort : ¬ ReadsWholeBlocks b t)
    (calls : List RecvCall) (hread : ∀ call ∈ calls, call.OneRead t)
    (hlength : ∀ d ∈ deliveries calls, d.length = size) (sp : Stream) :
    ∃ sp', recvRun b t calls sp = some sp' ∧ sp'.lossCounters = sp.lossCounters := by
  induction calls generalizing sp with
  | nil => exact ⟨sp, rfl, rfl⟩
  | cons call calls ih =>
      have hsplit : deliveries (call :: calls) = call.arriving ++ deliveries calls :=
        List.flatMap_cons
      rw [hsplit] at hlength
      obtain ⟨sp1, hcall, hcount⟩ := iperfUdpRecv_short hsize hblksize hshort
        (hread call List.mem_cons_self)
        (fun d hd => hlength d (List.mem_append_left _ hd)) sp
      obtain ⟨sp', hrun, hcount'⟩ := ih
        (fun call' hmem => hread call' (List.mem_cons_of_mem _ hmem))
        (fun d hd => hlength d (List.mem_append_right _ hd)) sp1
      refine ⟨sp', ?_, hcount'.trans hcount⟩
      unfold recvRun at hrun ⊢
      rw [List.foldlM_cons, hcall]
      exact hrun

theorem recvRun_nothing
    (b : Build) (t : Test) (calls : List RecvCall) (hnothing : deliveries calls = [])
    (sp : Stream) : recvRun b t calls sp = some sp := by
  induction calls with
  | nil => rfl
  | cons call calls ih =>
      have hsplit : deliveries (call :: calls) = call.arriving ++ deliveries calls :=
        List.flatMap_cons
      rw [hsplit, List.append_eq_nil_iff] at hnothing
      have hread : readDatagrams b t [] = [] := by
        unfold readDatagrams nreadGro
        split_ifs <;> simp [nrecvNoSelect]
      have hcall : iperfUdpRecv b call.clock .testRunning t call.arriving sp =
          some sp := by
        unfold iperfUdpRecv
        simp [hnothing.1, hread]
      have hrun := ih hnothing.2
      unfold recvRun at hrun ⊢
      rw [List.foldlM_cons, hcall]
      exact hrun

/-! ## From end to end -/

/-- The counters report the delivered numbers exactly. -/
structure AccountingExact (sp : Stream) (numbers : List ℕ) : Prop where
  packetCount : sp.packetCount = highest numbers
  cntError : sp.cntError = sp.packetCount - numbers.length
  cntError_nonneg : 0 ≤ sp.cntError
  outoforderPackets : sp.outoforderPackets = lateArrivals numbers

theorem Tracks.accountingExact
    {sp : Stream} {c : Counters} {numbers : List ℕ} (h : Tracks sp c)
    (hexact : Exact c numbers) : AccountingExact sp numbers := by
  have hlost := hexact.lost_eq
  refine ⟨?_, ?_, ?_, ?_⟩
  · rw [h.packetCount, hexact.highest_eq]
  · rw [h.cntError, h.packetCount]
    omega
  · rw [h.cntError]
    omega
  · rw [h.outoforderPackets, hexact.late_eq]

theorem deliveries_take_subset (calls : List RecvCall) (n : ℕ) :
    (deliveries (calls.take n)).Sublist (deliveries calls) := by
  have hsplit : deliveries calls =
      deliveries (calls.take n) ++ deliveries (calls.drop n) := by
    unfold deliveries
    rw [← List.flatMap_append, List.take_append_drop]
  rw [hsplit]
  exact List.sublist_append_left _ _

theorem countable_of_sent
    {t : Test} {size top : ℕ} {sent delivered : List Datagram}
    (hsent : SentInOrder t size 0 top sent) (hlimit : top < counterLimit t)
    (hmem : ∀ d ∈ delivered, d ∈ sent) (hnodup : delivered.Nodup) :
    Countable (delivered.map (packetNumber t)) := by
  have hwide : counterLimit t ≤ 2 ^ 63 := by
    unfold counterLimit
    split_ifs <;> norm_num
  norm_num at hwide
  refine ⟨?_, ?_, ?_⟩
  · -- Distinct datagrams of the run have distinct numbers.
    have hinj : ∀ d ∈ sent, ∀ d' ∈ sent, packetNumber t d = packetNumber t d' →
        d = d' := by
      have hnumbers : (sent.map (packetNumber t)).Nodup :=
        hsent.increasing.imp fun h => h.ne
      exact fun d hd d' hd' heq => List.inj_on_of_nodup_map hnumbers hd hd' heq
    exact hnodup.map_on fun d hd d' hd' heq =>
      hinj d (hmem d hd) d' (hmem d' hd') heq
  · intro n hn
    obtain ⟨d, hd, rfl⟩ := List.mem_map.mp hn
    exact hsent.above d (hmem d hd)
  · intro n hn
    obtain ⟨d, hd, rfl⟩ := List.mem_map.mp hn
    have hbelow := hsent.below d (hmem d hd)
    omega

/-- After every prefix of deliveries the receiver's counters are exact,
exactly when it reads whole blocks or nothing is delivered. -/
theorem udp_accounting_iff
    {b : Build} {ts tr : Test} {sp rp : Stream} {size : ℕ}
    (hsender : SendsBlocks ts sp size) (hblksize : tr.settings.blksize = size)
    (hcounters : ts.udpCounters64bit = tr.udpCounters64bit)
    (hsp : sp.packetCount = 0)
    (hrp : rp.packetCount = 0 ∧ rp.cntError = 0 ∧ rp.outoforderPackets = 0)
    (sends : List SendCall)
    (hlimit : numbersUsed ts.settings.datagramsPerWrite sends < counterLimit ts)
    (receives : List RecvCall) (hread : ∀ call ∈ receives, call.OneRead tr)
    (hsent : ∀ d ∈ deliveries receives, d ∈ sendRun sends ts sp)
    (hnodup : (deliveries receives).Nodup) :
    (∀ n, ∃ rp', recvRun b tr (receives.take n) rp = some rp' ∧
        AccountingExact rp'
          ((deliveries (receives.take n)).map (packetNumber tr))) ↔
      deliveries receives = [] ∨ ReadsWholeBlocks b tr := by
  have hsize := hsender.header_fits
  have hordered := sendRun_sentInOrder sends hsender hsp (by
    rw [Nat.zero_add]
    exact hlimit)
  rw [Nat.zero_add] at hordered
  have hnumber := packetNumber_congr hcounters
  have hlength : ∀ d ∈ deliveries receives, d.length = size :=
    fun d hd => hordered.length_eq d (hsent d hd)
  have hcountable : Countable ((deliveries receives).map (packetNumber tr)) := by
    rw [← hnumber]
    exact countable_of_sent hordered hlimit hsent hnodup
  have htracks : Tracks rp ⟨0, 0, 0⟩ := ⟨hrp.1, hrp.2.1, hrp.2.2⟩
  constructor
  · intro hexact
    by_contra hnot
    rw [not_or] at hnot
    obtain ⟨rp', hrun, haccounting⟩ := hexact receives.length
    rw [List.take_length] at hrun haccounting
    obtain ⟨rp'', hrun', hcount⟩ :=
      recvRun_short hsize hblksize hnot.2 receives hread hlength rp
    rw [hrun, Option.some.injEq] at hrun'
    have hkept : rp''.packetCount = rp.packetCount := congrArg Prod.fst hcount
    have hzero : highest ((deliveries receives).map (packetNumber tr)) = 0 := by
      have h := haccounting.packetCount
      rw [hrun', hkept, hrp.1] at h
      exact_mod_cast h.symm
    obtain ⟨d, hd⟩ := List.exists_mem_of_ne_nil _ hnot.1
    have hle := le_highest (List.mem_map_of_mem (f := packetNumber tr) hd)
    have hpos := hcountable.pos _ (List.mem_map_of_mem hd)
    omega
  · intro hcases n
    have hsub := deliveries_take_subset receives n
    have htaken : Countable ([] ++
        (deliveries (receives.take n)).map (packetNumber tr)) := by
      have hsub' := hsub.map (packetNumber tr)
      exact ⟨hcountable.nodup.sublist hsub',
        fun m hm => hcountable.pos m (hsub'.subset hm),
        fun m hm => hcountable.small m (hsub'.subset hm)⟩
    have hreadPrefix : ∀ call ∈ receives.take n, call.OneRead tr :=
      fun call hcall => hread call (List.mem_of_mem_take hcall)
    have hlengthPrefix : ∀ d ∈ deliveries (receives.take n), d.length = size :=
      fun d hd => hlength d (hsub.subset hd)
    by_cases hwhole : ReadsWholeBlocks b tr
    · obtain ⟨rp', c', hrun, htracks', hexact'⟩ := recvRun_tracks hsize hblksize hwhole
        (receives.take n) hreadPrefix hlengthPrefix htracks exact_nil htaken
      exact ⟨rp', hrun, htracks'.accountingExact hexact'⟩
    · have hempty : deliveries (receives.take n) = [] := by
        rw [hcases.resolve_right hwhole] at hsub
        exact List.sublist_nil.mp hsub
      refine ⟨rp, recvRun_nothing b tr (receives.take n) hempty rp, ?_⟩
      rw [hempty]
      exact htracks.accountingExact exact_nil

/-! ## Two runs -/

/-- A UDP test with blocks of `size` bytes. -/
def udpTest (b : Build) (size skipRxCopy : ℤ) : Test :=
  let t := iperfNewTest.iperfDefaults b
  { t with
    protocol := .udp
    settings := { t.settings with blksize := size, skipRxCopy := skipRxCopy } }

/-- Two datagrams of seventeen bytes, one write each. -/
def twoDatagrams (t : Test) : List Datagram :=
  sendRun (List.replicate 2 ⟨fun _ => IperfTime.ofCounters 0 0, 17⟩) t
    (iperfNewStream true (List.replicate 17 0))

/-- Each datagram in a read of its own, the second one first. -/
def swappedReads (t : Test) : List RecvCall :=
  (twoDatagrams t).reverse.map fun d => ⟨fun _ => IperfTime.ofCounters 0 0, [d]⟩

/-- The Windows port counts two swapped datagrams exactly. -/
theorem udp_accounting_swapped :
    ∃ rp, recvRun Build.msvc (udpTest Build.msvc 17 0)
        ((swappedReads (udpTest Build.msvc 17 0)).take 2)
        (iperfNewStream false []) = some rp ∧
      AccountingExact rp
        ((deliveries ((swappedReads (udpTest Build.msvc 17 0)).take 2)).map
          (packetNumber (udpTest Build.msvc 17 0))) := by
  have hsender : SendsBlocks (udpTest Build.msvc 17 0)
      (iperfNewStream true (List.replicate 17 0)) 17 :=
    ⟨rfl, by decide, by decide, by decide, by decide⟩
  apply (udp_accounting_iff (b := Build.msvc) hsender rfl rfl rfl ⟨rfl, rfl, rfl⟩
    (List.replicate 2 ⟨fun _ => IperfTime.ofCounters 0 0, 17⟩) (by decide)
    (swappedReads (udpTest Build.msvc 17 0)) ?_ (by decide) (by decide)).mpr
  · exact Or.inr (Or.inr (Or.inl rfl))
  · intro call hcall
    obtain ⟨d, -, rfl⟩ := List.mem_map.mp hcall
    exact le_rfl

/-- With `--skip-rx-copy` on Linux the same two datagrams are not counted. -/
theorem skipRxCopy_counts_nothing :
    (deliveries (swappedReads (udpTest Build.linux 17 1))).map
        (packetNumber (udpTest Build.linux 17 1)) = [2, 1] ∧
      ∃ rp, recvRun Build.linux (udpTest Build.linux 17 1)
          (swappedReads (udpTest Build.linux 17 1)) (iperfNewStream false []) =
            some rp ∧
        rp.packetCount = 0 ∧ ¬ AccountingExact rp [2, 1] := by
  refine ⟨by decide, _, rfl, by decide, fun h => ?_⟩
  have hcount := h.packetCount
  revert hcount
  decide

end Iperf3
