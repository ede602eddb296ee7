import Iperf3.ResultAgreement
import Mathlib.Tactic

/-!
# Sums in the final report of a UDP test

`iperf_print_results` makes one `udp` object for every stream and one `sum`
object for every direction.  The sum is taken from running totals, not from
the objects of the streams.
-/

namespace Iperf3

open MachineInt

/-! ## The report -/

/-- The number that a JSON object holds for a 64-bit integer, which passes
through a double. -/
def stored (n : ℤ) : ℚ :=
  Binary64.roundDouble (int64 n)

/-- The numbers of a `udp` or `sum` object. -/
structure UdpFigures where
  lostPackets : ℚ
  packets : ℚ
  bytes : ℚ
  deriving DecidableEq, Repr

def Stream.udpPacketCount (sp : Stream) : ℤ :=
  if sp.report.senderPacketCount ≠ 0 then sp.report.senderPacketCount
  else sp.report.receiverPacketCount

def Stream.udpObject (sp : Stream) : UdpFigures where
  lostPackets := stored (sp.cntError - sp.omittedCntError)
  packets := stored (sp.udpPacketCount - sp.omittedPacketCount)
  bytes := stored sp.report.bytesSent

structure RunningTotals where
  totalSent : ℕ
  totalPackets : ℤ
  lostPackets : ℤ

/-- One turn of the loop over the streams of a direction. -/
def RunningTotals.add (totals : RunningTotals) (sp : Stream) : RunningTotals where
  totalSent := uint64 (totals.totalSent + sp.report.bytesSent)
  totalPackets := int64 (totals.totalPackets + int64 (sp.udpPacketCount - sp.omittedPacketCount))
  lostPackets :=
    -- `-1` is the mark for an unknown number of omitted errors.
    if -1 < sp.omittedCntError then
      int64 (int64 (totals.lostPackets + sp.cntError) - sp.omittedCntError)
    else int64 (totals.lostPackets + sp.cntError)

def streamsOf (sender : Bool) (streams : List Stream) : List Stream :=
  streams.filter fun sp => sp.sender = sender

def udpObjects (sender : Bool) (streams : List Stream) : List UdpFigures :=
  (streamsOf sender streams).map Stream.udpObject

def udpSum (sender : Bool) (streams : List Stream) : UdpFigures :=
  let totals := (streamsOf sender streams).foldl RunningTotals.add ⟨0, 0, 0⟩
  ⟨stored totals.lostPackets, stored totals.totalPackets, stored totals.totalSent⟩

/-- The values of `stream_must_be_sender` in the loop over the modes. -/
def Test.streamMustBeSender (t : Test) : List Bool :=
  match t.mode with
  | .sender => [true]
  | .receiver => [false]
  | .bidirectional => if t.role = .client then [true, false] else [false, true]

/-- The sums of the three columns. -/
def UdpFigures.sum (objects : List UdpFigures) : UdpFigures where
  lostPackets := (objects.map UdpFigures.lostPackets).sum
  packets := (objects.map UdpFigures.packets).sum
  bytes := (objects.map UdpFigures.bytes).sum

/-! ## Storing sums -/

/-- What overflow and rounding change in a number. -/
def storageError (n : ℤ) : ℚ :=
  stored n - n

/-- When `missing` is left out of a sum, storing the sum changes it by just
that much more than storing the parts does. -/
def Balanced (parts : List ℤ) (missing : ℤ) : Prop :=
  storageError (parts.sum - missing) - (parts.map storageError).sum = missing

@[simp] theorem stored_int64 (n : ℤ) : stored (int64 n) = stored n := by
  rw [stored, int64_int64, stored]

theorem stored_uint64 (n : ℤ) : stored (uint64 n) = stored n := by
  rw [stored, int64_uint64, stored]

theorem stored_of_abs_le {n : ℤ} (hn : |n| ≤ 2 ^ 53) : stored n = n := by
  have hbounds := abs_le.mp hn
  rw [stored, int64_of_mem (by omega) (by omega), Binary64.roundDouble_intCast hn]

theorem storageError_of_abs_le {n : ℤ} (hn : |n| ≤ 2 ^ 53) : storageError n = 0 := by
  rw [storageError, stored_of_abs_le hn, sub_self]

theorem sum_stored (parts : List ℤ) :
    (parts.map stored).sum = parts.sum + (parts.map storageError).sum := by
  induction parts with
  | nil => simp
  | cons n parts ih =>
      simp only [List.map_cons, List.sum_cons, ih, storageError]
      push_cast
      ring

theorem stored_sum_iff (parts : List ℤ) (missing : ℤ) :
    stored (parts.sum - missing) = (parts.map stored).sum ↔ Balanced parts missing := by
  rw [sum_stored, Balanced, storageError]
  push_cast
  constructor <;> intro h <;> linarith

theorem balanced_iff_of_small {parts : List ℤ} {missing : ℤ}
    (hparts : ∀ n ∈ parts, |n| ≤ 2 ^ 53) (htotal : |parts.sum - missing| ≤ 2 ^ 53) :
    Balanced parts missing ↔ missing = 0 := by
  have herrors : (parts.map storageError).sum = 0 := by
    apply List.sum_eq_zero
    rw [List.forall_mem_map]
    exact fun n hn => storageError_of_abs_le (hparts n hn)
  rw [Balanced, storageError_of_abs_le htotal, herrors, sub_zero]
  exact ⟨fun h => by exact_mod_cast h.symm, fun h => by rw [h, Int.cast_zero]⟩

/-! ## The running totals -/

theorem foldl_totalPackets (streams : List Stream) {totals : RunningTotals} {packets : ℤ}
    (htotals : totals.totalPackets = int64 packets) :
    (streams.foldl RunningTotals.add totals).totalPackets =
      int64 (packets +
        (streams.map fun sp => sp.udpPacketCount - sp.omittedPacketCount).sum) := by
  induction streams generalizing totals packets with
  | nil => simpa using htotals
  | cons sp streams ih =>
      have hstep : (totals.add sp).totalPackets =
          int64 (packets + (sp.udpPacketCount - sp.omittedPacketCount)) := by
        simp only [RunningTotals.add, htotals, int64_add_left, int64_add_right]
      rw [List.foldl_cons, ih hstep, List.map_cons, List.sum_cons, add_assoc]

theorem foldl_totalSent (streams : List Stream) {totals : RunningTotals} {sent : ℤ}
    (htotals : totals.totalSent = uint64 sent) :
    (streams.foldl RunningTotals.add totals).totalSent =
      uint64 (sent + (streams.map fun sp => (sp.report.bytesSent : ℤ)).sum) := by
  induction streams generalizing totals sent with
  | nil => simpa using htotals
  | cons sp streams ih =>
      have hstep : (totals.add sp).totalSent = uint64 (sent + sp.report.bytesSent) := by
        simp only [RunningTotals.add, htotals, uint64_add_left]
      rw [List.foldl_cons, ih hstep, List.map_cons, List.sum_cons, add_assoc]

/-- What the total lacks is the marks of the streams with an unknown number
of omitted errors. -/
theorem foldl_lostPackets (streams : List Stream) {totals : RunningTotals} {lost : ℤ}
    (htotals : totals.lostPackets = int64 lost) :
    (streams.foldl RunningTotals.add totals).lostPackets =
      int64 (lost + ((streams.map fun sp => sp.cntError - sp.omittedCntError).sum -
        (streams.map fun sp => (-sp.omittedCntError).toNat).sum)) := by
  induction streams generalizing totals lost with
  | nil => simpa using htotals
  | cons sp streams ih =>
      have hstep : (totals.add sp).lostPackets =
          int64 (lost + (sp.cntError - sp.omittedCntError - (-sp.omittedCntError).toNat)) := by
        simp only [RunningTotals.add, htotals]
        split_ifs with hknown
        · rw [int64_add_left, sub_eq_add_neg, int64_add_left]
          congr 1
          omega
        · rw [int64_add_left]
          congr 1
          omega
      rw [List.foldl_cons, ih hstep]
      simp only [List.map_cons, List.sum_cons]
      congr 1
      push_cast
      ring

theorem udpSum_eq (sender : Bool) (streams : List Stream) :
    udpSum sender streams =
      { lostPackets := stored
          (((streamsOf sender streams).map fun sp => sp.cntError - sp.omittedCntError).sum -
            ((streamsOf sender streams).map fun sp => (-sp.omittedCntError).toNat).sum)
        packets := stored ((streamsOf sender streams).map fun sp =>
          sp.udpPacketCount - sp.omittedPacketCount).sum
        bytes := stored ((streamsOf sender streams).map fun sp =>
          (sp.report.bytesSent : ℤ)).sum } := by
  have hstart : (⟨0, 0, 0⟩ : RunningTotals).lostPackets = int64 0 ∧
      (⟨0, 0, 0⟩ : RunningTotals).totalPackets = int64 0 ∧
      (⟨0, 0, 0⟩ : RunningTotals).totalSent = uint64 0 := ⟨rfl, rfl, rfl⟩
  have hlost := foldl_lostPackets (streamsOf sender streams) hstart.1
  have hpackets := foldl_totalPackets (streamsOf sender streams) hstart.2.1
  have hsent := foldl_totalSent (streamsOf sender streams) hstart.2.2
  simp only [zero_add] at hlost hpackets hsent
  simp only [udpSum, hlost, hpackets, hsent, stored_int64, stored_uint64]

/-! ## The message -/

/-- The well-formed elements of the stream array. -/
def peerStreams (j : Json) : List PeerStream :=
  match j.getObjectItemType .streams .array with
  | some (.array items) => items.filterMap readPeerStream
  | _ => []

theorem absorbStream_none
    {peer : PeerStream} {streams : List Stream} (hunknown : peer.sid ∉ streams.map (·.id)) :
    absorbStream peer streams = none := by
  induction streams with
  | nil => rfl
  | cons sp streams ih =>
      rw [List.map_cons, List.mem_cons, not_or] at hunknown
      rw [absorbStream, if_neg (Ne.symm hunknown.1), ih hunknown.2]
      rfl

theorem readStreamItem_ok
    {state : ReadState} {item : Json} (hok : (readStreamItem state item).ok = true) :
    state.ok = true ∧
      ∃ peer, readPeerStream item = some peer ∧ peer.sid ∈ state.streams.map (·.id) := by
  unfold readStreamItem at hok
  cases hpeer : readPeerStream item with
  | none => simp [hpeer] at hok
  | some peer =>
      by_cases hknown : peer.sid ∈ state.streams.map (·.id)
      · refine ⟨?_, peer, rfl, hknown⟩
        simp only [hpeer] at hok
        split at hok
        · exact absurd hok (by simp)
        · exact hok
      · simp [hpeer, absorbStream_none hknown] at hok

theorem absorbStream_ids
    {peer : PeerStream} {streams streams' : List Stream}
    (h : absorbStream peer streams = some streams') :
    streams'.map (·.id) = streams.map (·.id) := by
  induction streams generalizing streams' with
  | nil => cases h
  | cons sp streams ih =>
      unfold absorbStream at h
      split_ifs at h with hid
      · cases h
        simp
      · obtain ⟨rest, hrest, rfl⟩ := Option.map_eq_some_iff.mp h
        simp [ih hrest]

@[simp]
theorem readStreamItem_ids (state : ReadState) (item : Json) :
    (readStreamItem state item).streams.map (·.id) = state.streams.map (·.id) := by
  unfold readStreamItem
  split
  · rfl
  · split
    · rfl
    · exact absorbStream_ids ‹_›

/-- When the loop over the array reports no error, every element is well
formed and names a stream of the reader. -/
theorem foldl_readStreamItem_ok
    {items : List Json} {state : ReadState}
    (hok : (items.foldl readStreamItem state).ok = true) :
    state.ok = true ∧ ∃ peers : List PeerStream, items.map readPeerStream = peers.map some ∧
      ∀ peer ∈ peers, peer.sid ∈ state.streams.map (·.id) := by
  induction items generalizing state with
  | nil => exact ⟨hok, [], rfl, by simp⟩
  | cons item items ih =>
      obtain ⟨hhead, peers, hpeers, hknown⟩ := ih hok
      obtain ⟨hstate, peer, hpeer, hid⟩ := readStreamItem_ok hhead
      refine ⟨hstate, peer :: peers, by rw [List.map_cons, hpeer, hpeers]; rfl, ?_⟩
      rw [List.forall_mem_cons]
      exact ⟨hid, by simpa only [readStreamItem_ids] using hknown⟩

theorem readStreams_streams
    {j : Json} {side : TestSide} (hids : (side.streams.map (·.id)).Nodup)
    (hok : (readStreams j side).2 = true) :
    (readStreams j side).1.streams = side.streams.map (Stream.absorbAll (peerStreams j)) ∧
      (readStreams j side).1.test.mode = side.test.mode ∧
      (readStreams j side).1.test.role = side.test.role := by
  unfold readStreams at hok ⊢
  unfold peerStreams
  cases hitems : j.getObjectItemType .streams .array with
  | none => simp [hitems] at hok
  | some found =>
      cases found with
      | array items =>
          simp only [hitems] at hok
          have hfold :
              (items.foldl readStreamItem ⟨side.streams, side.test.iErrno, true⟩).ok = true := by
            split_ifs at hok
            · split at hok <;> exact hok
            · exact hok
          obtain ⟨-, peers, hpeers, hknown⟩ := foldl_readStreamItem_ok hfold
          have hfilter : items.filterMap readPeerStream = peers := by
            have hread := congrArg (List.filterMap id) hpeers
            rwa [List.filterMap_map, List.filterMap_map, Function.id_comp, Function.id_comp,
              List.filterMap_some] at hread
          simp only [hfilter, foldl_readStreamItem hpeers hids hknown]
          split_ifs
          · split <;> exact ⟨rfl, rfl, rfl⟩
          · exact ⟨rfl, rfl, rfl⟩
      | _ => simp [hitems] at hok

theorem getResults_header
    {j : Json} {side : TestSide} (hread : (getResults (some j) side).2 = true) :
    ∃ (header : TestSide) (retransmits : ℤ),
      header.streams = side.streams ∧
      header.test = readRetransmitFlags side.test retransmits ∧
      getResults (some j) side = Prod.map (readCongestion j) id (readStreams j header) := by
  cases htotal : j.getObjectItemType .cpuUtilTotal .number with
  | none => simp [getResults, htotal] at hread
  | some total =>
  cases huser : j.getObjectItemType .cpuUtilUser .number with
  | none => simp [getResults, htotal, huser] at hread
  | some user =>
  cases hsystem : j.getObjectItemType .cpuUtilSystem .number with
  | none => simp [getResults, htotal, huser, hsystem] at hread
  | some system =>
  cases hretransmits : j.numberItem .senderHasRetransmits with
  | none => simp [getResults, htotal, huser, hsystem, hretransmits] at hread
  | some retransmits =>
      exact ⟨{ side with
        remoteCpuUtil := (total.valuedouble, user.valuedouble, system.valuedouble)
        test := readRetransmitFlags side.test (int32 retransmits) },
        int32 retransmits, rfl, rfl, getResults_eq htotal huser hsystem hretransmits⟩

/-- An accepted message: every stream has absorbed the elements of its id. -/
theorem getResults_streams
    {j : Json} {side : TestSide} (hids : (side.streams.map (·.id)).Nodup)
    (hread : (getResults (some j) side).2 = true) :
    (getResults (some j) side).1.streams =
        side.streams.map (Stream.absorbAll (peerStreams j)) ∧
      (getResults (some j) side).1.test.streamMustBeSender =
        side.test.streamMustBeSender := by
  obtain ⟨header, retransmits, hstreams, htest, heq⟩ := getResults_header hread
  rw [heq] at hread ⊢
  obtain ⟨hresult, hmode, hrole⟩ := readStreams_streams (hstreams ▸ hids) hread
  constructor
  · rw [← hstreams]
    exact hresult
  · have hflags : (readRetransmitFlags side.test retransmits).mode = side.test.mode ∧
        (readRetransmitFlags side.test retransmits).role = side.test.role := by
      unfold readRetransmitFlags
      split <;> exact ⟨rfl, rfl⟩
    unfold Test.streamMustBeSender
    simp only [Prod.map_fst, readCongestion, hmode, hrole, htest, hflags]

/-! ## What a stream has absorbed -/

/-- The last element of an id. -/
def lastReport (peers : List PeerStream) (sid : ℤ) : Option PeerStream :=
  (peers.filter fun peer => peer.sid = sid).getLast?

theorem lastReport_concat (peers : List PeerStream) (peer : PeerStream) (sid : ℤ) :
    lastReport (peers ++ [peer]) sid =
      if sid = peer.sid then some peer else lastReport peers sid := by
  unfold lastReport
  rw [List.filter_append]
  by_cases hid : sid = peer.sid
  · rw [if_pos hid, List.filter_cons_of_pos (by simp [hid]), List.filter_nil,
      List.getLast?_concat]
  · rw [if_neg hid, List.filter_cons_of_neg (by simp [Ne.symm hid]), List.filter_nil,
      List.append_nil]

/-- What the reading of a message never changes in a stream. -/
structure SameOwn (sp sp' : Stream) : Prop where
  id : sp'.id = sp.id
  sender : sp'.sender = sp.sender
  packetCount : sp'.packetCount = sp.packetCount
  omittedPacketCount : sp'.omittedPacketCount = sp.omittedPacketCount
  bytesSentOmit : sp'.result.bytesSentOmit = sp.result.bytesSentOmit
  bytesSent : sp.sender = true → sp'.result.bytesSent = sp.result.bytesSent
  cntError : sp.sender = false → sp'.cntError = sp.cntError
  omittedCntError : sp.sender = false → sp'.omittedCntError = sp.omittedCntError

theorem SameOwn.absorb {sp sp' : Stream} (h : SameOwn sp sp') (peer : PeerStream) :
    SameOwn sp (sp'.absorb peer) := by
  obtain ⟨hid, hsender, hpackets, homitted, homit, hsent, herrors, homittedErrors⟩ := h
  cases hrole : sp.sender with
  | true =>
      have hrole' : sp'.sender = true := hsender.trans hrole
      constructor <;> simp_all [Stream.absorb]
  | false =>
      have hrole' : sp'.sender = false := hsender.trans hrole
      constructor <;> simp_all [Stream.absorb]

theorem sameOwn_absorbAll (peers : List PeerStream) (sp : Stream) :
    SameOwn sp (sp.absorbAll peers) := by
  induction peers using List.reverseRecOn with
  | nil => exact ⟨rfl, rfl, rfl, rfl, rfl, fun _ => rfl, fun _ => rfl, fun _ => rfl⟩
  | append_singleton peers peer ih =>
      rw [Stream.absorbAll, List.foldl_append, List.foldl_cons, List.foldl_nil]
      split_ifs
      · exact ih.absorb peer
      · exact ih

/-- Only the last element of its id decides what a stream holds of the peer. -/
theorem absorbAll_last (peers : List PeerStream) (sp : Stream) :
    match lastReport peers sp.id with
    | some peer => ∃ sp', SameOwn sp sp' ∧ sp.absorbAll peers = sp'.absorb peer
    | none => sp.absorbAll peers = sp := by
  induction peers using List.reverseRecOn with
  | nil => rfl
  | append_singleton peers peer ih =>
      have hown := sameOwn_absorbAll peers sp
      have hstep : sp.absorbAll (peers ++ [peer]) =
          if sp.id = peer.sid then (sp.absorbAll peers).absorb peer
          else sp.absorbAll peers := by
        rw [Stream.absorbAll, List.foldl_append, List.foldl_cons, List.foldl_nil]
        change (if (sp.absorbAll peers).id = _ then _ else _) = _
        rw [hown.id]
        rfl
      rw [hstep, lastReport_concat]
      by_cases hid : sp.id = peer.sid
      · rw [if_pos hid, if_pos hid]
        exact ⟨_, hown, rfl⟩
      · rw [if_neg hid, if_neg hid]
        exact ih

theorem absorbAll_none {peers : List PeerStream} {sp : Stream}
    (hnone : lastReport peers sp.id = none) : sp.absorbAll peers = sp := by
  have hlast := absorbAll_last peers sp
  rwa [hnone] at hlast

theorem absorbAll_some
    {peers : List PeerStream} {sp : Stream} {peer : PeerStream}
    (hpeer : lastReport peers sp.id = some peer) :
    ∃ sp', SameOwn sp sp' ∧ sp.absorbAll peers = sp'.absorb peer := by
  have hlast := absorbAll_last peers sp
  rwa [hpeer] at hlast

/-- What the figures of a stream are made from. -/
structure UdpCounts where
  errors : ℤ
  omittedErrors : ℤ
  packets : ℤ
  bytes : ℤ

/-- The counts of a stream, given what the message says of it.  A sender takes
its errors from there; if the message does not say how many of them belong to
the omitted packets, they cannot be divided. -/
def Stream.udpCounts (sp : Stream) : Option PeerStream → UdpCounts
  | some peer =>
      if sp.sender then
        { errors := peer.errors
          omittedErrors :=
            match peer.omitted with
            | some (errors, _) => errors
            | none =>
                if 0 < sp.omittedPacketCount then if 0 < peer.errors then -1 else 0
                else peer.errors
          packets :=
            (if sp.packetCount ≠ 0 then sp.packetCount else peer.packets) - sp.omittedPacketCount
          bytes := uint64 (sp.result.bytesSent - sp.result.bytesSentOmit) }
      else
        { errors := sp.cntError
          omittedErrors := sp.omittedCntError
          packets :=
            (if peer.packets ≠ 0 then peer.packets else sp.packetCount) - sp.omittedPacketCount
          bytes := uint64 (peer.bytes - sp.result.bytesSentOmit) }
  | none =>
      { errors := sp.cntError
        omittedErrors := sp.omittedCntError
        packets := sp.udpPacketCount - sp.omittedPacketCount
        bytes := sp.report.bytesSent }

/-- The packets that are lost outside of the omitted period. -/
def UdpCounts.lost (counts : UdpCounts) : ℤ :=
  counts.errors - counts.omittedErrors

/-- By how much the number of omitted errors is below zero. -/
def UdpCounts.mark (counts : UdpCounts) : ℕ :=
  (-counts.omittedErrors).toNat

theorem absorbAll_counts (peers : List PeerStream) (sp : Stream) :
    sp.udpCounts (lastReport peers sp.id) =
      { errors := (sp.absorbAll peers).cntError
        omittedErrors := (sp.absorbAll peers).omittedCntError
        packets := (sp.absorbAll peers).udpPacketCount - (sp.absorbAll peers).omittedPacketCount
        bytes := (sp.absorbAll peers).report.bytesSent } := by
  cases hreport : lastReport peers sp.id with
  | none =>
      rw [absorbAll_none hreport]
      rfl
  | some peer =>
      obtain ⟨sp', hown, heq⟩ := absorbAll_some hreport
      rw [heq]
      cases hsender : sp.sender with
      | true =>
          have hsender' : sp'.sender = true := hown.sender.trans hsender
          cases homitted : peer.omitted <;>
            simp [Stream.udpCounts, Stream.absorb, Stream.udpPacketCount, Stream.report, hsender,
              hsender', homitted, hown.packetCount, hown.omittedPacketCount,
              hown.bytesSent hsender, hown.bytesSentOmit]
      | false =>
          have hsender' : sp'.sender = false := hown.sender.trans hsender
          simp [Stream.udpCounts, Stream.absorb, Stream.udpPacketCount, Stream.report, hsender,
            hsender', hown.packetCount, hown.omittedPacketCount, hown.cntError hsender,
            hown.omittedCntError hsender, hown.bytesSentOmit]

theorem streamsOf_map_absorbAll
    (sender : Bool) (peers : List PeerStream) (streams : List Stream) :
    streamsOf sender (streams.map (Stream.absorbAll peers)) =
      (streamsOf sender streams).map (Stream.absorbAll peers) := by
  unfold streamsOf
  rw [List.filter_map]
  congr 1
  apply List.filter_congr
  intro sp _
  rw [Function.comp_apply, (sameOwn_absorbAll peers sp).sender]

/-! ## Totals and shares -/

/-- In every direction the sum object has the sums of the `udp` objects, and no
sender shows more losses than the peer counted errors. -/
def UdpTotalsAgree (peers : List PeerStream) (side : TestSide) : Prop :=
  ∀ sender ∈ side.test.streamMustBeSender,
    udpSum sender side.streams = UdpFigures.sum (udpObjects sender side.streams) ∧
      ∀ sp ∈ streamsOf sender side.streams, sp.sender = true →
        ∀ peer, lastReport peers sp.id = some peer →
          sp.udpObject.lostPackets ≤ peer.errors

/-- The counts of the streams of a direction once the message has been read. -/
def directionCounts (peers : List PeerStream) (sender : Bool) (streams : List Stream) :
    List UdpCounts :=
  (streamsOf sender streams).map fun sp => sp.udpCounts (lastReport peers sp.id)

/-- The marks of the streams whose omitted errors are unknown, and what overflow
and rounding change, make up for one another. -/
def UdpTotalsBalance (peers : List PeerStream) (side : TestSide) : Prop :=
  ∀ sender ∈ side.test.streamMustBeSender,
    let counts := directionCounts peers sender side.streams
    Balanced (counts.map UdpCounts.lost) (counts.map UdpCounts.mark).sum ∧
      Balanced (counts.map UdpCounts.packets) 0 ∧
      Balanced (counts.map UdpCounts.bytes) 0 ∧
      ∀ sp ∈ streamsOf sender side.streams, sp.sender = true →
        ∀ peer, lastReport peers sp.id = some peer →
          storageError (sp.udpCounts (some peer)).lost ≤ (sp.udpCounts (some peer)).omittedErrors

theorem udpObject_absorbAll (peers : List PeerStream) (sp : Stream) :
    (sp.absorbAll peers).udpObject =
      { lostPackets := stored (sp.udpCounts (lastReport peers sp.id)).lost
        packets := stored (sp.udpCounts (lastReport peers sp.id)).packets
        bytes := stored (sp.udpCounts (lastReport peers sp.id)).bytes } := by
  rw [absorbAll_counts]
  rfl

theorem udpSum_absorbAll (peers : List PeerStream) (sender : Bool) (streams : List Stream) :
    udpSum sender (streams.map (Stream.absorbAll peers)) =
      { lostPackets := stored
          (((directionCounts peers sender streams).map UdpCounts.lost).sum -
            ((directionCounts peers sender streams).map UdpCounts.mark).sum)
        packets := stored ((directionCounts peers sender streams).map UdpCounts.packets).sum
        bytes := stored ((directionCounts peers sender streams).map UdpCounts.bytes).sum } := by
  rw [udpSum_eq, streamsOf_map_absorbAll]
  simp only [directionCounts, List.map_map, Function.comp_def, absorbAll_counts, UdpCounts.lost,
    UdpCounts.mark]

theorem sum_udpObjects_absorbAll
    (peers : List PeerStream) (sender : Bool) (streams : List Stream) :
    UdpFigures.sum (udpObjects sender (streams.map (Stream.absorbAll peers))) =
      { lostPackets :=
          (((directionCounts peers sender streams).map UdpCounts.lost).map stored).sum
        packets :=
          (((directionCounts peers sender streams).map UdpCounts.packets).map stored).sum
        bytes :=
          (((directionCounts peers sender streams).map UdpCounts.bytes).map stored).sum } := by
  rw [udpObjects, streamsOf_map_absorbAll]
  simp only [UdpFigures.sum, directionCounts, List.map_map, Function.comp_def,
    udpObject_absorbAll]

theorem udpSum_iff (peers : List PeerStream) (sender : Bool) (streams : List Stream) :
    udpSum sender (streams.map (Stream.absorbAll peers)) =
        UdpFigures.sum (udpObjects sender (streams.map (Stream.absorbAll peers))) ↔
      Balanced ((directionCounts peers sender streams).map UdpCounts.lost)
          ((directionCounts peers sender streams).map UdpCounts.mark).sum ∧
        Balanced ((directionCounts peers sender streams).map UdpCounts.packets) 0 ∧
        Balanced ((directionCounts peers sender streams).map UdpCounts.bytes) 0 := by
  rw [udpSum_absorbAll, sum_udpObjects_absorbAll, UdpFigures.mk.injEq, ← stored_sum_iff,
    ← stored_sum_iff, ← stored_sum_iff, sub_zero, sub_zero]

/-- A sender takes the errors of the peer. -/
theorem lostPackets_le_iff
    {peers : List PeerStream} {sp : Stream} {peer : PeerStream}
    (hsender : sp.sender = true) (hpeer : lastReport peers sp.id = some peer) :
    (sp.absorbAll peers).udpObject.lostPackets ≤ peer.errors ↔
      storageError (sp.udpCounts (some peer)).lost ≤
        (sp.udpCounts (some peer)).omittedErrors := by
  have herrors : (sp.udpCounts (some peer)).errors = peer.errors := by
    rw [Stream.udpCounts, if_pos hsender]
  rw [udpObject_absorbAll, hpeer, ← herrors, storageError, UdpCounts.lost]
  push_cast
  constructor <;> intro h <;> linarith

theorem udp_totals_iff
    {j : Json} {side : TestSide} (hids : (side.streams.map (·.id)).Nodup)
    (hread : (getResults (some j) side).2 = true) :
    UdpTotalsAgree (peerStreams j) (getResults (some j) side).1 ↔
      UdpTotalsBalance (peerStreams j) side := by
  obtain ⟨hstreams, hdirections⟩ := getResults_streams hids hread
  unfold UdpTotalsAgree UdpTotalsBalance
  rw [hstreams, hdirections]
  generalize peerStreams j = peers
  apply forall₂_congr
  intro sender _
  dsimp only
  rw [udpSum_iff, and_assoc, and_assoc, streamsOf_map_absorbAll, List.forall_mem_map]
  refine and_congr_right' (and_congr_right' (and_congr_right' (forall₂_congr fun sp _ => ?_)))
  have hown := sameOwn_absorbAll peers sp
  rw [hown.sender, hown.id]
  exact forall_congr' fun hsender => forall₂_congr fun peer hpeer =>
    lostPackets_le_iff hsender hpeer

/-! ## Small numbers -/

/-- Neither the figures of a stream nor a total has more than 53 bits. -/
def UdpTotalsSmall (peers : List PeerStream) (side : TestSide) : Prop :=
  ∀ sender ∈ side.test.streamMustBeSender,
    let counts := directionCounts peers sender side.streams
    (∀ c ∈ counts, |c.lost| ≤ 2 ^ 53 ∧ |c.packets| ≤ 2 ^ 53 ∧ |c.bytes| ≤ 2 ^ 53) ∧
      |(counts.map UdpCounts.lost).sum - (counts.map UdpCounts.mark).sum| ≤ 2 ^ 53 ∧
      |(counts.map UdpCounts.packets).sum| ≤ 2 ^ 53 ∧ |(counts.map UdpCounts.bytes).sum| ≤ 2 ^ 53

theorem sum_marks_iff (counts : List UdpCounts) :
    ((counts.map UdpCounts.mark).sum : ℤ) = 0 ↔ ∀ c ∈ counts, 0 ≤ c.omittedErrors := by
  rw [Int.natCast_eq_zero, List.sum_eq_zero_iff, List.forall_mem_map]
  apply forall₂_congr
  intro c _
  unfold UdpCounts.mark
  omega

/-- As long as the numbers are small, all depends on the streams whose omitted
errors are unknown. -/
theorem udpTotalsBalance_iff_of_small
    {peers : List PeerStream} {side : TestSide} (hsmall : UdpTotalsSmall peers side) :
    UdpTotalsBalance peers side ↔ ∀ sender ∈ side.test.streamMustBeSender,
      ∀ c ∈ directionCounts peers sender side.streams, 0 ≤ c.omittedErrors := by
  apply forall₂_congr
  intro sender hdirection
  obtain ⟨hparts, hlost, hpackets, hbytes⟩ := hsmall sender hdirection
  dsimp only
  rw [balanced_iff_of_small (List.forall_mem_map.mpr fun c hc => (hparts c hc).1) hlost,
    balanced_iff_of_small (List.forall_mem_map.mpr fun c hc => (hparts c hc).2.1)
      (by rwa [sub_zero]),
    balanced_iff_of_small (List.forall_mem_map.mpr fun c hc => (hparts c hc).2.2)
      (by rwa [sub_zero]),
    sum_marks_iff]
  refine ⟨And.left, fun hknown => ⟨hknown, rfl, rfl, fun sp hsp _ peer hpeer => ?_⟩⟩
  have hc : sp.udpCounts (some peer) ∈ directionCounts peers sender side.streams :=
    hpeer ▸ List.mem_map_of_mem hsp
  rw [storageError_of_abs_le (hparts _ hc).1]
  exact_mod_cast hknown _ hc

/-! ## Two senders and a server that does not report omitted statistics -/

def udpElement (sid errors packets : ℤ) (omitted : List (Key × Json)) : Json :=
  .object ([(.id, .number sid), (.bytes, .number 1000), (.retransmits, .number (-1)),
    (.jitter, .number 0), (.errors, .number errors), (.packets, .number packets)] ++ omitted)

def udpMessage (streams : List Json) : Json :=
  .object [(.cpuUtilTotal, .number 0), (.cpuUtilUser, .number 0),
    (.cpuUtilSystem, .number 0), (.senderHasRetransmits, .number (-1)),
    (.streams, .array streams)]

def udpSender (sid packetCount omittedPacketCount : ℤ) : Stream :=
  { iperfNewStream true [] with
    id := sid
    packetCount := packetCount
    omittedPacketCount := omittedPacketCount }

def udpClient : TestSide where
  test := { iperfNewTest with role := .client, mode := .sender, omitTime := 1 }
  cpuUtil := (0, 0, 0)
  remoteCpuUtil := (0, 0, 0)
  jsonOutput := true
  jsonTop := .null
  serverOutputList := []
  jsonServerOutput := none
  serverOutputText := none
  streams := [udpSender 1 110 10, udpSender 3 110 10]

theorem udp_totals_two_senders :
    let reported : List (Key × Json) := [(.omittedErrors, .number 1), (.omittedPackets, .number 10)]
    let message := udpMessage [udpElement 1 3 110 reported, udpElement 3 1 110 reported]
    UdpTotalsAgree (peerStreams message) (getResults (some message) udpClient).1 := by
  intro reported message
  apply (udp_totals_iff (by decide) (by decide)).mpr
  have hsmall : UdpTotalsSmall (peerStreams message) udpClient := by
    intro sender hdirection
    obtain rfl : sender = true := by simpa [Test.streamMustBeSender, udpClient] using hdirection
    decide
  rw [udpTotalsBalance_iff_of_small hsmall]
  decide

/-- Three errors of a test that omits packets: the stream shows four losses, the
sum three. -/
theorem udp_totals_differ :
    let message := udpMessage [udpElement 1 3 110 [], udpElement 3 0 110 []]
    (udpClient.streams.map (·.id)).Nodup ∧ (getResults (some message) udpClient).2 = true ∧
      ¬ UdpTotalsAgree (peerStreams message) (getResults (some message) udpClient).1 := by
  intro message
  refine ⟨by decide, by decide, ?_⟩
  intro hagree
  have hlost := congrArg UdpFigures.lostPackets (hagree true (by decide)).1
  have htotal : ((streamsOf true (getResults (some message) udpClient).1.streams).foldl
      RunningTotals.add ⟨0, 0, 0⟩).lostPackets = 3 := by decide
  have hparts : (streamsOf true (getResults (some message) udpClient).1.streams).map
      (fun sp => sp.cntError - sp.omittedCntError) = [4, 0] := by decide
  have hcolumn : (UdpFigures.sum (udpObjects true
      (getResults (some message) udpClient).1.streams)).lostPackets =
        (([4, 0] : List ℤ).map stored).sum := by
    rw [← hparts, UdpFigures.sum, udpObjects, List.map_map, List.map_map]
    rfl
  have hsmall : stored 3 = 3 ∧ stored 4 = 4 ∧ stored 0 = 0 :=
    ⟨stored_of_abs_le (by decide), stored_of_abs_le (by decide), stored_of_abs_le (by decide)⟩
  simp only [hcolumn, udpSum, htotal, List.map_cons, List.map_nil, List.sum_cons, List.sum_nil,
    hsmall] at hlost
  norm_num at hlost

end Iperf3
