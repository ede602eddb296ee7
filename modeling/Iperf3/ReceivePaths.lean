import Iperf3.UdpAccounting
import Mathlib.Tactic

/-!
# Reads with receive offload and with `--skip-rx-copy`

A plain call of `iperf_udp_recv` reads one block.  With offload the kernel
joins several datagrams for one call, and with `--skip-rx-copy` the call asks
for the header only.  The three ways are compared on the same datagrams.
-/

namespace Iperf3

open MachineInt

/-- The counters of a receiver that the results are taken from. -/
structure RecvCounters where
  bytesReceived : ℕ
  bytesReceivedThisInterval : ℕ
  packetCount : ℤ
  cntError : ℤ
  outoforderPackets : ℤ
  deriving DecidableEq, Repr

def Stream.recvCounters (sp : Stream) : RecvCounters where
  bytesReceived := sp.result.bytesReceived
  bytesReceivedThisInterval := sp.result.bytesReceivedThisInterval
  packetCount := sp.packetCount
  cntError := sp.cntError
  outoforderPackets := sp.outoforderPackets

/-! ## What a call returns -/

/-- The return value of `Nrecv_no_select`.  With `MSG_TRUNC` the system call
returns the length of the datagram, otherwise that of what it has copied. -/
def nrecvNoSelectReturn (trunc : Bool) (count : ℕ) : ℕ → List Datagram → ℕ
  | nleft, [] => count - nleft
  | nleft, d :: arriving =>
      let r := if trunc then d.length else min nleft d.length
      if nleft = 0 ∨ r = 0 then count - nleft
      else
        let bytesCopied := if trunc then min r nleft else r
        nrecvNoSelectReturn trunc count (nleft - bytesCopied) arriving

/-- The datagrams that `Nrecv_no_select` leaves at the socket. -/
def nrecvNoSelectLeft : ℕ → List Datagram → List Datagram
  | _, [] => []
  | nleft, d :: arriving =>
      if nleft = 0 then d :: arriving
      else if d = [] then arriving
      else nrecvNoSelectLeft (nleft - (d.take nleft).length) arriving

/-- With both options the return value is the number of bytes read. -/
theorem nrecvNoSelectReturn_eq (trunc : Bool) {count nleft : ℕ} (arriving : List Datagram)
    (hle : nleft ≤ count) :
    nrecvNoSelectReturn trunc count nleft arriving =
      count - nleft + (nrecvNoSelect nleft arriving).length := by
  induction arriving generalizing nleft with
  | nil => simp [nrecvNoSelectReturn, nrecvNoSelect]
  | cons d arriving ih =>
      have hcopied : (if trunc then min (if trunc then d.length else min nleft d.length) nleft
          else if trunc then d.length else min nleft d.length) = (d.take nleft).length := by
        cases trunc <;> simp [Nat.min_comm]
      have hstop : (nleft = 0 ∨ (if trunc then d.length else min nleft d.length) = 0) ↔
          nleft = 0 ∨ d = [] := by
        cases trunc <;> simp
      rw [nrecvNoSelectReturn, nrecvNoSelect]
      simp only [hcopied, hstop]
      by_cases hend : nleft = 0 ∨ d = []
      · simp [hend]
      · rw [if_neg hend, if_neg hend, ih (by omega), List.length_append]
        rw [List.length_take] at *
        omega

/-- The size and the option of a receive call without offload. -/
def recvSize (b : Build) (t : Test) : ℕ × Bool :=
  if b.haveMsgTrunc ∧ t.settings.skipRxCopy ≠ 0 then (maxPktSize, true)
  else (t.settings.blksize.toNat, false)

/-- Calls one after the other, each with the state of the test and the clock.
The result holds the return values. -/
def recvCalls (b : Build) (t : Test) :
    List (TestState × (ℕ → IperfTime)) → List Datagram → Stream → Option (Stream × List ℕ)
  | [], _, sp => some (sp, [])
  | (state, clock) :: calls, queue, sp => do
      let (size, trunc) := recvSize b t
      let sp' ← iperfUdpRecv b clock state t queue sp
      let (final, returns) ← recvCalls b t calls (nrecvNoSelectLeft size queue) sp'
      some (final, nrecvNoSelectReturn trunc size size queue :: returns)

/-! ## One call -/

theorem countPacket_congr {sp sp' : Stream} (h : sp.lossCounters = sp'.lossCounters)
    (number : ℕ) :
    (sp.countPacket number).lossCounters = (sp'.countPacket number).lossCounters := by
  simp only [Stream.lossCounters, Prod.mk.injEq] at h
  obtain ⟨hcount, herror, hlate⟩ := h
  unfold Stream.countPacket Stream.lossCounters
  rw [hcount, herror, hlate]
  split_ifs <;> rfl

/-- The numbers of the datagrams are counted one after the other. -/
def Stream.countAll (t : Test) (ds : List Datagram) (sp : Stream) : Stream :=
  ds.foldl (fun sp d => sp.countPacket (packetNumber t d)) sp

theorem countAll_congr {sp sp' : Stream} (h : sp.lossCounters = sp'.lossCounters)
    (t : Test) (ds : List Datagram) :
    (sp.countAll t ds).lossCounters = (sp'.countAll t ds).lossCounters := by
  induction ds generalizing sp sp' with
  | nil => exact h
  | cons d ds ih => exact ih (countPacket_congr h _)

theorem countDatagrams_lossCounters
    (t : Test) {size : ℕ} (hsize : maxPktSize ≤ size) (clock : ℕ → IperfTime)
    (ds : List Datagram) (fuel : ℕ) (first : Bool) (sp : Stream)
    (hlength : ∀ d ∈ ds, d.length = size) (hfuel : ds.flatten.length ≤ fuel) :
    (countDatagrams t size clock fuel first ds.flatten sp).lossCounters =
      (sp.countAll t ds).lossCounters := by
  have hpos : 0 < size := by
    unfold maxPktSize at hsize
    omega
  induction ds generalizing fuel first sp with
  | nil =>
      rw [List.flatten_nil, countDatagrams_nil t hsize]
      rfl
  | cons d ds ih =>
      have hd : d.length = size := hlength d List.mem_cons_self
      rw [List.flatten_cons, List.length_append] at hfuel
      obtain ⟨fuel, rfl⟩ : ∃ k, fuel = k + 1 := ⟨fuel - 1, by omega⟩
      rw [List.flatten_cons, countDatagrams_cons t hsize clock fuel first hd,
        ih fuel false _ (fun d' hd' => hlength d' (List.mem_cons_of_mem _ hd')) (by omega)]
      have hjitter : ((sp.countPacket (packetNumber t d)).updateJitter first
          (sentTime (d ++ ds.flatten)) (clock fuel)).lossCounters =
            (sp.countPacket (packetNumber t d)).lossCounters := rfl
      exact countAll_congr hjitter t ds

theorem countDatagrams_frame
    (t : Test) (dgramSz : ℕ) (clock : ℕ → IperfTime) (fuel : ℕ) (first : Bool)
    (rest : List UInt8) (sp : Stream) :
    ∃ packetCount cntError outoforderPackets jitter prevTransit,
      countDatagrams t dgramSz clock fuel first rest sp =
        { sp with
          packetCount := packetCount
          cntError := cntError
          outoforderPackets := outoforderPackets
          jitter := jitter
          prevTransit := prevTransit } := by
  induction fuel generalizing first rest sp with
  | zero => exact ⟨_, _, _, _, _, rfl⟩
  | succ fuel ih =>
      rw [countDatagrams]
      split_ifs
      · exact ⟨_, _, _, _, _, rfl⟩
      · exact ⟨_, _, _, _, _, rfl⟩
      · exact ⟨_, _, _, _, _, rfl⟩
      · obtain ⟨packetCount, cntError, late, jitter, prevTransit, hrest⟩ :=
          ih false (rest.drop dgramSz)
            ((sp.countPacket (packetNumber t rest)).updateJitter first (sentTime rest)
              (clock fuel))
        refine ⟨packetCount, cntError, late, jitter, prevTransit, hrest.trans ?_⟩
        unfold Stream.countPacket Stream.updateJitter
        split_ifs <;> rfl

/-- A call that reads something counts its bytes. -/
theorem iperfUdpRecv_bytes
    {b : Build} {t : Test} (hblksize : 0 < t.settings.blksize) {queue : List Datagram}
    (hread : readDatagrams b t queue ≠ []) (clock : ℕ → IperfTime) (sp : Stream) :
    ∃ sp', iperfUdpRecv b clock .testRunning t queue sp = some sp' ∧
      sp'.result.bytesReceived =
        uint64 (sp.result.bytesReceived + (readDatagrams b t queue).length) ∧
      sp'.result.bytesReceivedThisInterval =
        uint64 (sp.result.bytesReceivedThisInterval + (readDatagrams b t queue).length) := by
  unfold iperfUdpRecv
  simp only
  rw [if_neg (by simp [hread]), if_neg (by omega)]
  obtain ⟨_, _, _, _, _, hframe⟩ := countDatagrams_frame t t.settings.blksize.toNat clock
    (readDatagrams b t queue).length (decide (sp.result.bytesReceived = 0))
    (readDatagrams b t queue)
    { sp with result := { sp.result with
      bytesReceived := uint64 (sp.result.bytesReceived + (readDatagrams b t queue).length)
      bytesReceivedThisInterval := uint64
        (sp.result.bytesReceivedThisInterval + (readDatagrams b t queue).length) } }
  rw [hframe]
  exact ⟨_, rfl, rfl, rfl⟩

/-- A call that reads whole datagrams counts each of them. -/
theorem iperfUdpRecv_losses
    {b : Build} {t : Test} {size : ℕ} (hsize : maxPktSize ≤ size)
    (hblksize : t.settings.blksize = size) {queue ds : List Datagram}
    (hread : readDatagrams b t queue = ds.flatten) (hlength : ∀ d ∈ ds, d.length = size)
    {clock : ℕ → IperfTime} {sp sp' : Stream}
    (hcall : iperfUdpRecv b clock .testRunning t queue sp = some sp') :
    sp'.lossCounters = (sp.countAll t ds).lossCounters := by
  have hpos : 0 < size := by
    unfold maxPktSize at hsize
    omega
  unfold iperfUdpRecv at hcall
  simp only [hread, hblksize, Int.toNat_natCast] at hcall
  by_cases hnil : ds.flatten = []
  · rw [if_pos (Or.inl hnil)] at hcall
    cases hcall
    have hempty : ds = [] := by
      cases ds with
      | nil => rfl
      | cons d ds =>
          rw [List.flatten_cons, List.append_eq_nil_iff] at hnil
          have hd := hlength d List.mem_cons_self
          rw [hnil.1, List.length_nil] at hd
          omega
    rw [hempty]
    rfl
  · rw [if_neg (by simp [hnil]), if_neg (by omega)] at hcall
    cases hcall
    rw [countDatagrams_lossCounters t hsize clock ds _ _ _ hlength (le_refl _)]
    apply countAll_congr
    rfl

/-! ## Calls without offload -/

theorem readDatagrams_plain {b : Build} {t : Test} (hgro : t.settings.gro = 0)
    (queue : List Datagram) :
    readDatagrams b t queue = nrecvNoSelect (recvSize b t).1 queue := by
  unfold readDatagrams recvSize
  rw [if_neg (not_not.mpr hgro)]
  split_ifs <;> rfl

theorem nrecvNoSelect_cons {size : ℕ} {d : Datagram} (hsize : 0 < size)
    (hlong : size ≤ d.length) (queue : List Datagram) :
    nrecvNoSelect size (d :: queue) = d.take size ∧
      nrecvNoSelectLeft size (d :: queue) = queue := by
  have hne : d ≠ [] := by
    rintro rfl
    rw [List.length_nil] at hlong
    omega
  have hzero : size - (d.take size).length = 0 := by
    rw [List.length_take]
    omega
  have hfull : nrecvNoSelect 0 queue = [] := by
    cases queue <;> simp [nrecvNoSelect]
  have hleft : nrecvNoSelectLeft 0 queue = queue := by
    cases queue <;> simp [nrecvNoSelectLeft]
  constructor
  · rw [nrecvNoSelect, if_neg (by simp [hne]; omega), hzero, hfull, List.append_nil]
  · rw [nrecvNoSelectLeft, if_neg (by omega), if_neg hne, hzero, hleft]

theorem recvSize_bounds {b : Build} {t : Test} {size : ℕ} (hsize : maxPktSize ≤ size)
    (hblksize : t.settings.blksize = size) :
    0 < (recvSize b t).1 ∧ (recvSize b t).1 ≤ size := by
  unfold recvSize
  split_ifs
  · exact ⟨by decide, hsize⟩
  · unfold maxPktSize at hsize
    simp only [hblksize, Int.toNat_natCast]
    omega

theorem recvCalls_cons
    {b : Build} {t : Test} {state : TestState} {clock : ℕ → IperfTime}
    {calls : List (TestState × (ℕ → IperfTime))} {queue : List Datagram} {sp sp1 : Stream}
    {out : Stream × List ℕ} (hcall : iperfUdpRecv b clock state t queue sp = some sp1)
    (hrun : recvCalls b t calls (nrecvNoSelectLeft (recvSize b t).1 queue) sp1 = some out) :
    recvCalls b t ((state, clock) :: calls) queue sp =
      some (out.1,
        nrecvNoSelectReturn (recvSize b t).2 (recvSize b t).1 (recvSize b t).1 queue ::
          out.2) := by
  rw [recvCalls]
  simp only [hcall, Option.bind_eq_bind, Option.bind_some, hrun]

/-- As many running calls as there are datagrams read one each. -/
theorem recvCalls_bytes
    {b : Build} {t : Test} {size : ℕ} (hsize : maxPktSize ≤ size)
    (hblksize : t.settings.blksize = size) (hgro : t.settings.gro = 0)
    (ds : List Datagram) (hlength : ∀ d ∈ ds, d.length = size)
    (clocks : List (ℕ → IperfTime)) (hclocks : clocks.length = ds.length) (sp : Stream)
    (hbytes : uint64 sp.result.bytesReceived = sp.result.bytesReceived)
    (hinterval :
      uint64 sp.result.bytesReceivedThisInterval = sp.result.bytesReceivedThisInterval) :
    ∃ out, recvCalls b t (clocks.map fun clock => (.testRunning, clock)) ds sp = some out ∧
      out.1.result.bytesReceived =
        uint64 (sp.result.bytesReceived + (ds.length * (recvSize b t).1 : ℕ)) ∧
      out.1.result.bytesReceivedThisInterval =
        uint64 (sp.result.bytesReceivedThisInterval + (ds.length * (recvSize b t).1 : ℕ)) ∧
      ((recvSize b t).1 = size →
        out.1.lossCounters = (sp.countAll t ds).lossCounters) := by
  obtain ⟨hpos, hle⟩ := recvSize_bounds (b := b) hsize hblksize
  induction ds generalizing clocks sp with
  | nil =>
      obtain rfl : clocks = [] := List.eq_nil_of_length_eq_zero hclocks
      exact ⟨(sp, []), rfl, by simpa using hbytes.symm, by simpa using hinterval.symm,
        fun _ => rfl⟩
  | cons d ds ih =>
      cases clocks with
      | nil => cases hclocks
      | cons clock clocks =>
          have hd : d.length = size := hlength d List.mem_cons_self
          obtain ⟨hread, hleft⟩ := nrecvNoSelect_cons hpos (hd.symm ▸ hle) ds
          rw [← readDatagrams_plain hgro] at hread
          have hreadLength : (readDatagrams b t (d :: ds)).length = (recvSize b t).1 := by
            rw [hread, List.length_take]
            omega
          have hne : readDatagrams b t (d :: ds) ≠ [] :=
            List.ne_nil_of_length_pos (hreadLength.symm ▸ hpos)
          obtain ⟨sp1, hcall, hbytes1, hinterval1⟩ :=
            iperfUdpRecv_bytes (by rw [hblksize]; omega) hne clock sp
          rw [hreadLength] at hbytes1 hinterval1
          obtain ⟨out, hrun, hbytes2, hinterval2, hloss2⟩ := ih
            (fun d' hd' => hlength d' (List.mem_cons_of_mem _ hd')) clocks
            (by simpa using hclocks) sp1 (by rw [hbytes1, uint64_uint64])
            (by rw [hinterval1, uint64_uint64])
          have hsum : (((d :: ds).length * (recvSize b t).1 : ℕ) : ℤ) =
              (recvSize b t).1 + (ds.length * (recvSize b t).1 : ℕ) := by
            rw [List.length_cons]
            push_cast
            ring
          refine ⟨_, recvCalls_cons hcall (hleft.symm ▸ hrun), ?_, ?_, ?_⟩
          · rw [hbytes2, hbytes1, uint64_add_left, hsum, add_assoc]
          · rw [hinterval2, hinterval1, uint64_add_left, hsum, add_assoc]
          · intro hwhole
            have hfirst : readDatagrams b t (d :: ds) = [d].flatten := by
              rw [hread, hwhole, List.take_of_length_le hd.le, List.flatten_singleton]
            have hone := iperfUdpRecv_losses hsize hblksize hfirst
              (fun d' hd' => by rw [List.mem_singleton.mp hd']; exact hd) hcall
            rw [hloss2 hwhole]
            exact countAll_congr hone t ds

/-! ## With and without receive offload -/

/-- The same test with receive offload turned off. -/
def Test.withoutGro (t : Test) : Test :=
  { t with settings := { t.settings with gro := 0 } }

theorem length_flatten_blocks {size : ℕ} {ds : List Datagram}
    (hlength : ∀ d ∈ ds, d.length = size) : ds.flatten.length = ds.length * size := by
  induction ds with
  | nil => simp
  | cons d ds ih =>
      rw [List.flatten_cons, List.length_append, hlength d List.mem_cons_self,
        ih (fun d' hd' => hlength d' (List.mem_cons_of_mem _ hd')), List.length_cons,
        Nat.succ_mul, Nat.add_comm]

theorem recvCounters_eq_iff (sp sp' : Stream) :
    sp.recvCounters = sp'.recvCounters ↔
      sp.result.bytesReceived = sp'.result.bytesReceived ∧
        sp.result.bytesReceivedThisInterval = sp'.result.bytesReceivedThisInterval ∧
        sp.lossCounters = sp'.lossCounters := by
  simp [Stream.recvCounters, Stream.lossCounters, RecvCounters.mk.injEq]

/-- One offloaded call counts like a call for each of its datagrams, if those
calls read whole blocks. -/
theorem gro_receive_equals_single_receives_iff
    {b : Build} {t : Test} {size : ℕ} (hsize : maxPktSize ≤ size)
    (hblksize : t.settings.blksize = size) (hgro : t.settings.gro ≠ 0) {ds : List Datagram}
    (hne : ds ≠ []) (hlength : ∀ d ∈ ds, d.length = size)
    (hfits : ((ds.length * size : ℕ) : ℤ) ≤ t.settings.groBfSize)
    (hmax : t.settings.groBfSize ≤ maxUdpBlocksize) {sp : Stream}
    (hbytes : uint64 sp.result.bytesReceived = sp.result.bytesReceived)
    (hinterval :
      uint64 sp.result.bytesReceivedThisInterval = sp.result.bytesReceivedThisInterval)
    (clock : ℕ → IperfTime) {clocks : List (ℕ → IperfTime)}
    (hclocks : clocks.length = ds.length) :
    ∃ joined singles, iperfUdpRecv b clock .testRunning t ds sp = some joined ∧
      recvCalls b t.withoutGro (clocks.map fun clock => (.testRunning, clock)) ds sp =
        some singles ∧
      (joined.recvCounters = singles.1.recvCounters ↔
        b.haveMsgTrunc = false ∨ t.settings.skipRxCopy = 0 ∨
          t.settings.blksize = maxPktSize) := by
  have hpos : 0 < size := by
    unfold maxPktSize at hsize
    omega
  have hcount : 0 < ds.length := List.length_pos_of_ne_nil hne
  have hflatten := length_flatten_blocks hlength
  have hread : readDatagrams b t ds = ds.flatten := by
    unfold readDatagrams nreadGro
    rw [if_pos hgro]
    apply List.take_of_length_le
    rw [hflatten]
    omega
  have hreadNe : readDatagrams b t ds ≠ [] := by
    apply List.ne_nil_of_length_pos
    rw [hread, hflatten]
    positivity
  obtain ⟨joined, hjoined, hjoinedBytes, hjoinedInterval⟩ :=
    iperfUdpRecv_bytes (by rw [hblksize]; omega) hreadNe clock sp
  have hjoinedLoss := iperfUdpRecv_losses hsize hblksize hread hlength hjoined
  have hblksize' : t.withoutGro.settings.blksize = size := hblksize
  obtain ⟨singles, hsingles, hsinglesBytes, hsinglesInterval, hsinglesLoss⟩ :=
    recvCalls_bytes (b := b) hsize hblksize' rfl ds hlength clocks hclocks sp hbytes hinterval
  rw [hread, hflatten] at hjoinedBytes hjoinedInterval
  obtain ⟨-, hle⟩ := recvSize_bounds (b := b) hsize hblksize'
  have hwhole : (recvSize b t.withoutGro).1 = size ↔
      b.haveMsgTrunc = false ∨ t.settings.skipRxCopy = 0 ∨
        t.settings.blksize = maxPktSize := by
    unfold recvSize
    change (if b.haveMsgTrunc = true ∧ t.settings.skipRxCopy ≠ 0 then (maxPktSize, true)
      else (t.settings.blksize.toNat, false)).1 = size ↔ _
    rw [hblksize]
    by_cases hskip : b.haveMsgTrunc = true ∧ t.settings.skipRxCopy ≠ 0
    · rw [if_pos hskip]
      simp only [hskip.1, hskip.2, Bool.true_eq_false, false_or]
      omega
    · rw [if_neg hskip]
      simp only [Int.toNat_natCast, true_iff]
      rw [not_and_or, not_not, Bool.not_eq_true] at hskip
      exact hskip.imp_right Or.inl
  refine ⟨joined, singles, hjoined, hsingles, ?_⟩
  rw [recvCounters_eq_iff, ← hwhole]
  constructor
  · rintro ⟨hsame, -⟩
    rw [hjoinedBytes, hsinglesBytes, uint64_eq, uint64_eq] at hsame
    -- Neither sum of at most 65507 bytes wraps, so the sums are equal.
    have hsmall : ds.length * (recvSize b t.withoutGro).1 ≤ ds.length * size :=
      Nat.mul_le_mul_left _ hle
    have hlimit : ds.length * size ≤ 65507 := by
      have hconst : maxUdpBlocksize = 65507 := rfl
      omega
    have hproducts : ds.length * (recvSize b t.withoutGro).1 = ds.length * size := by omega
    exact Nat.eq_of_mul_eq_mul_left hcount hproducts
  · intro hsame
    rw [hsame] at hsinglesBytes hsinglesInterval
    exact ⟨hjoinedBytes.trans hsinglesBytes.symm, hjoinedInterval.trans hsinglesInterval.symm,
      hjoinedLoss.trans (hsinglesLoss hsame).symm⟩

/-- A receiver of blocks of `size` bytes on Linux. -/
def receiverTest (size gro skipRxCopy : ℤ) : Test :=
  let t := udpTest Build.linux size skipRxCopy
  { t with settings := { t.settings with gro := gro } }

/-- A datagram of `size` bytes with a 32-bit number. -/
def numberedDatagram (size number : ℕ) : Datagram :=
  BigEndian.encode 8 0 ++ BigEndian.encode 4 number ++ List.replicate (size - 12) 0

def runningCall : TestState × (ℕ → IperfTime) :=
  (.testRunning, fun _ => IperfTime.ofCounters 0 0)

theorem gro_receive_equals_single_receives_two :
    ∃ joined singles,
      iperfUdpRecv Build.linux runningCall.2 .testRunning (receiverTest 16 1 0)
        [numberedDatagram 16 3, numberedDatagram 16 2] (iperfNewStream false []) = some joined ∧
      recvCalls Build.linux (receiverTest 16 1 0).withoutGro
        ([runningCall.2, runningCall.2].map fun clock => (.testRunning, clock))
        [numberedDatagram 16 3, numberedDatagram 16 2] (iperfNewStream false []) = some singles ∧
      joined.recvCounters = singles.1.recvCounters := by
  have hlength : ∀ d ∈ [numberedDatagram 16 3, numberedDatagram 16 2], d.length = maxPktSize := by
    decide
  have hbytes : uint64 (iperfNewStream false []).result.bytesReceived = 0 := by decide
  have hclocks : [runningCall.2, runningCall.2].length =
      [numberedDatagram 16 3, numberedDatagram 16 2].length := rfl
  obtain ⟨joined, singles, hjoined, hsingles, hsame⟩ :=
    gro_receive_equals_single_receives_iff (b := Build.linux) (t := receiverTest 16 1 0)
      (le_refl maxPktSize) rfl (by decide) (List.cons_ne_nil _ _) hlength (by decide) (by decide)
      hbytes hbytes runningCall.2 hclocks
  exact ⟨joined, singles, hjoined, hsingles, hsame.mpr (Or.inr (Or.inl rfl))⟩

/-- With `--skip-rx-copy` the call for the only datagram counts no packet. -/
theorem gro_receive_differs_from_single_receive :
    (iperfUdpRecv Build.linux runningCall.2 .testRunning (receiverTest 17 1 1)
        [numberedDatagram 17 1] (iperfNewStream false [])).map Stream.recvCounters =
          some ⟨17, 17, 1, 0, 0⟩ ∧
      (recvCalls Build.linux (receiverTest 17 1 1).withoutGro [runningCall]
        [numberedDatagram 17 1] (iperfNewStream false [])).map (fun out => out.1.recvCounters) =
          some ⟨16, 16, 0, 0, 0⟩ := by
  decide +kernel

/-! ## With and without `--skip-rx-copy` -/

def Test.withSkipRxCopy (t : Test) (skipRxCopy : ℤ) : Test :=
  { t with settings := { t.settings with skipRxCopy := skipRxCopy } }

theorem countDatagrams_withSkipRxCopy
    (t : Test) (skipRxCopy : ℤ) (dgramSz : ℕ) (clock : ℕ → IperfTime) (fuel : ℕ)
    (first : Bool) (rest : List UInt8) (sp : Stream) :
    countDatagrams (t.withSkipRxCopy skipRxCopy) dgramSz clock fuel first rest sp =
      countDatagrams t dgramSz clock fuel first rest sp := by
  induction fuel generalizing first rest sp with
  | zero => rfl
  | succ fuel ih =>
      simp only [countDatagrams, ih]
      rfl

theorem recvCalls_congr
    {b : Build} {t : Test} (s s' : ℤ) (queue : List Datagram)
    (hsize : (recvSize b (t.withSkipRxCopy s)).1 = (recvSize b (t.withSkipRxCopy s')).1)
    (hgro : t.settings.gro = 0) (calls : List (TestState × (ℕ → IperfTime))) (sp : Stream) :
    recvCalls b (t.withSkipRxCopy s) calls queue sp =
      recvCalls b (t.withSkipRxCopy s') calls queue sp := by
  have hgro' : ∀ s : ℤ, (t.withSkipRxCopy s).settings.gro = 0 := fun _ => hgro
  induction calls generalizing queue sp with
  | nil => rfl
  | cons call calls ih =>
      obtain ⟨state, clock⟩ := call
      have hread : readDatagrams b (t.withSkipRxCopy s) queue =
          readDatagrams b (t.withSkipRxCopy s') queue := by
        rw [readDatagrams_plain (hgro' s), readDatagrams_plain (hgro' s'), hsize]
      have hcall : iperfUdpRecv b clock state (t.withSkipRxCopy s) queue sp =
          iperfUdpRecv b clock state (t.withSkipRxCopy s') queue sp := by
        simp only [iperfUdpRecv, hread, countDatagrams_withSkipRxCopy]
        rfl
      have hreturn : ∀ trunc trunc' : Bool, ∀ n : ℕ,
          nrecvNoSelectReturn trunc n n queue = nrecvNoSelectReturn trunc' n n queue := by
        intro trunc trunc' n
        rw [nrecvNoSelectReturn_eq trunc queue (le_refl n),
          nrecvNoSelectReturn_eq trunc' queue (le_refl n)]
      rw [recvCalls, recvCalls]
      simp only [hcall, hsize, ih]
      rw [hreturn (recvSize b (t.withSkipRxCopy s)).2 (recvSize b (t.withSkipRxCopy s')).2]

theorem recvCalls_head
    {b : Build} {t : Test} {call : TestState × (ℕ → IperfTime)}
    {calls : List (TestState × (ℕ → IperfTime))} {queue : List Datagram} {sp : Stream}
    {out : Stream × List ℕ} (h : recvCalls b t (call :: calls) queue sp = some out) :
    out.2.head? = some (nrecvNoSelect (recvSize b t).1 queue).length := by
  obtain ⟨state, clock⟩ := call
  rw [recvCalls] at h
  simp only [Option.bind_eq_bind, Option.bind_eq_some_iff] at h
  obtain ⟨sp1, -, rest, -, hout⟩ := h
  cases hout
  rw [List.head?_cons, nrecvNoSelectReturn_eq _ queue (le_refl _), Nat.sub_self, Nat.zero_add]

theorem recvCalls_isSome
    {b : Build} {t : Test} (hblksize : 0 < t.settings.blksize)
    (calls : List (TestState × (ℕ → IperfTime))) (queue : List Datagram) (sp : Stream) :
    ∃ out, recvCalls b t calls queue sp = some out := by
  induction calls generalizing queue sp with
  | nil => exact ⟨(sp, []), rfl⟩
  | cons call calls ih =>
      obtain ⟨state, clock⟩ := call
      have hcall : ∃ sp1, iperfUdpRecv b clock state t queue sp = some sp1 := by
        unfold iperfUdpRecv
        simp only
        split_ifs with hskip hstep
        · exact ⟨sp, rfl⟩
        · omega
        · exact ⟨_, rfl⟩
      obtain ⟨sp1, hcall⟩ := hcall
      obtain ⟨out, hrun⟩ := ih (nrecvNoSelectLeft (recvSize b t).1 queue) sp1
      exact ⟨_, recvCalls_cons hcall hrun⟩

theorem recvCalls_nil
    {b : Build} {t : Test} (hgro : t.settings.gro = 0)
    (calls : List (TestState × (ℕ → IperfTime))) (sp : Stream) :
    recvCalls b t calls [] sp = some (sp, List.replicate calls.length 0) := by
  induction calls with
  | nil => rfl
  | cons call calls ih =>
      obtain ⟨state, clock⟩ := call
      have hread : readDatagrams b t [] = [] := by
        rw [readDatagrams_plain hgro, nrecvNoSelect]
      have hcall : iperfUdpRecv b clock state t [] sp = some sp := by
        simp [iperfUdpRecv, hread]
      rw [recvCalls_cons hcall ih, nrecvNoSelectReturn, Nat.sub_self]
      rfl

/-- The results with and without the option are the same exactly when a
header is a whole block or nothing is received. -/
theorem skip_rx_copy_same_results_iff
    {b : Build} (htrunc : b.haveMsgTrunc = true) {t : Test} {size : ℕ}
    (hsize : maxPktSize ≤ size) (hblksize : t.settings.blksize = size)
    (hgro : t.settings.gro = 0) {skipRxCopy : ℤ} (hskip : skipRxCopy ≠ 0)
    (calls : List (TestState × (ℕ → IperfTime))) {queue : List Datagram}
    (hlength : ∀ d ∈ queue, d.length = size) (sp : Stream) :
    ∃ skipped plain,
      recvCalls b (t.withSkipRxCopy skipRxCopy) calls queue sp = some skipped ∧
      recvCalls b (t.withSkipRxCopy 0) calls queue sp = some plain ∧
      (skipped.1.recvCounters = plain.1.recvCounters ∧ skipped.2 = plain.2 ↔
        size = maxPktSize ∨ calls = [] ∨ queue = []) := by
  have hpos : 0 < t.settings.blksize := by
    unfold maxPktSize at hsize
    omega
  obtain ⟨skipped, hskipped⟩ := recvCalls_isSome (b := b) (t := t.withSkipRxCopy skipRxCopy)
    hpos calls queue sp
  obtain ⟨plain, hplain⟩ := recvCalls_isSome (b := b) (t := t.withSkipRxCopy 0)
    hpos calls queue sp
  have hskipSize : recvSize b (t.withSkipRxCopy skipRxCopy) = (maxPktSize, true) :=
    if_pos ⟨htrunc, hskip⟩
  have hplainSize : recvSize b (t.withSkipRxCopy 0) = (size, false) := by
    unfold recvSize
    rw [if_neg (fun h => h.2 rfl)]
    exact congrArg (Prod.mk · false) (by rw [← Int.toNat_natCast size, ← hblksize]; rfl)
  refine ⟨skipped, plain, hskipped, hplain, ?_⟩
  constructor
  · rintro ⟨-, hreturns⟩
    cases calls with
    | nil => exact Or.inr (Or.inl rfl)
    | cons call calls =>
        cases queue with
        | nil => exact Or.inr (Or.inr rfl)
        | cons d queue =>
            have hd : d.length = size := hlength d List.mem_cons_self
            have hwide : 0 < size := lt_of_lt_of_le (by decide) hsize
            have hfirst := recvCalls_head hskipped
            rw [hreturns, recvCalls_head hplain, hskipSize, hplainSize] at hfirst
            simp only [Option.some.injEq] at hfirst
            rw [(nrecvNoSelect_cons hwide hd.ge queue).1,
              (nrecvNoSelect_cons (by decide) (hd.symm ▸ hsize) queue).1, List.length_take,
              List.length_take] at hfirst
            exact Or.inl (by omega)
  · rintro (hwhole | hnone | hnone)
    · have hsame := recvCalls_congr skipRxCopy 0 queue
        (by rw [hskipSize, hplainSize, hwhole]) hgro calls sp
      rw [hskipped, hplain] at hsame
      cases hsame
      exact ⟨rfl, rfl⟩
    · subst hnone
      cases hskipped
      cases hplain
      exact ⟨rfl, rfl⟩
    · subst hnone
      rw [recvCalls_nil (t := t.withSkipRxCopy skipRxCopy) hgro] at hskipped
      rw [recvCalls_nil (t := t.withSkipRxCopy 0) hgro] at hplain
      cases hskipped
      cases hplain
      exact ⟨rfl, rfl⟩

theorem skip_rx_copy_same_results_header :
    ∃ skipped plain,
      recvCalls Build.linux ((receiverTest 16 0 0).withSkipRxCopy 1) [runningCall]
        [numberedDatagram 16 1] (iperfNewStream false []) = some skipped ∧
      recvCalls Build.linux ((receiverTest 16 0 0).withSkipRxCopy 0) [runningCall]
        [numberedDatagram 16 1] (iperfNewStream false []) = some plain ∧
      skipped.1.recvCounters = plain.1.recvCounters ∧ skipped.2 = plain.2 := by
  have hlength : ∀ d ∈ [numberedDatagram 16 1], d.length = maxPktSize := by decide
  obtain ⟨skipped, plain, hskipped, hplain, hsame⟩ :=
    skip_rx_copy_same_results_iff (b := Build.linux) rfl (t := receiverTest 16 0 0)
      (le_refl maxPktSize) rfl rfl one_ne_zero [runningCall] hlength (iperfNewStream false [])
  exact ⟨skipped, plain, hskipped, hplain, hsame.mpr (Or.inl rfl)⟩

/-- A datagram of seventeen bytes is one packet without the option and none
with it. -/
theorem skip_rx_copy_loses_packet :
    (recvCalls Build.linux ((receiverTest 17 0 0).withSkipRxCopy 1) [runningCall]
        [numberedDatagram 17 1] (iperfNewStream false [])).map
          (fun out => (out.1.recvCounters, out.2)) = some (⟨16, 16, 0, 0, 0⟩, [16]) ∧
      (recvCalls Build.linux ((receiverTest 17 0 0).withSkipRxCopy 0) [runningCall]
        [numberedDatagram 17 1] (iperfNewStream false [])).map
          (fun out => (out.1.recvCounters, out.2)) = some (⟨17, 17, 1, 0, 0⟩, [17]) := by
  decide +kernel

end Iperf3
