import Iperf3.ReceivePaths
import Mathlib.Tactic

/-!
# Counting with an omit period

When the omit period ends, `iperf_reset_stats` takes a snapshot of the
counters of a receiver, and the reports at the end subtract it.  The interval
reports of `iperf_stats_callback` are differences from one record to the
next, and know of no snapshot.
-/

namespace Iperf3

open MachineInt SequenceLoss

def Stream.omittedCounters (sp : Stream) : ℤ × ℤ × ℤ :=
  (sp.omittedPacketCount, sp.omittedCntError, sp.omittedOutoforderPackets)

/-- What `iperf_reset_stats` does to a stream. -/
def Stream.iperfResetStats (now : IperfTime) (sp : Stream) : Stream :=
  { sp with
    omittedPacketCount := sp.packetCount
    omittedCntError := sp.cntError
    omittedOutoforderPackets := sp.outoforderPackets
    jitter := 0
    result := { sp.result with
      bytesSentOmit := sp.result.bytesSent
      bytesReceived := 0
      bytesReceivedThisInterval := 0
      bytesSentThisInterval := 0
      streamRetrans := 0
      startTime := now } }

theorem iperfUdpRecv_omitted
    {b : Build} {clock : ℕ → IperfTime} {state : TestState} {t : Test}
    {arriving : List Datagram} {sp sp' : Stream}
    (h : iperfUdpRecv b clock state t arriving sp = some sp') :
    sp'.omittedCounters = sp.omittedCounters := by
  unfold iperfUdpRecv at h
  simp only at h
  split_ifs at h
  · cases h
    rfl
  · cases h
    obtain ⟨_, _, _, _, _, hframe⟩ := countDatagrams_frame t t.settings.blksize.toNat clock
      (readDatagrams b t arriving).length (decide (sp.result.bytesReceived = 0))
      (readDatagrams b t arriving)
      { sp with result := { sp.result with
        bytesReceived := uint64 (sp.result.bytesReceived + (readDatagrams b t arriving).length)
        bytesReceivedThisInterval := uint64
          (sp.result.bytesReceivedThisInterval + (readDatagrams b t arriving).length) } }
    rw [hframe]
    rfl

theorem recvRun_omitted
    {b : Build} {t : Test} {calls : List RecvCall} {sp sp' : Stream}
    (h : recvRun b t calls sp = some sp') : sp'.omittedCounters = sp.omittedCounters := by
  induction calls generalizing sp with
  | nil =>
      cases h
      rfl
  | cons call calls ih =>
      unfold recvRun at h
      rw [List.foldlM_cons, Option.bind_eq_bind, Option.bind_eq_some_iff] at h
      obtain ⟨sp1, hcall, hrest⟩ := h
      exact (ih hrest).trans (iperfUdpRecv_omitted hcall)

/-! ## The summary -/

/-- The loss that is reported is no less than zero and no more than the
packets. -/
def Stream.LossWithinPackets (sp : Stream) : Prop :=
  0 ≤ sp.cntError - sp.omittedCntError ∧
    sp.cntError - sp.omittedCntError ≤ sp.packetCount - sp.omittedPacketCount

def numbersOf (t : Test) (calls : List RecvCall) : List ℕ :=
  (deliveries calls).map (packetNumber t)

theorem Tracks.counts {sp : Stream} {c : Counters} {numbers : List ℕ} (h : Tracks sp c)
    (hexact : Exact c numbers) :
    sp.packetCount = highest numbers ∧ sp.cntError + numbers.length = highest numbers := by
  have hlost := hexact.lost_eq
  rw [hexact.highest_eq] at hlost
  rw [h.packetCount, h.cntError, hexact.highest_eq]
  exact ⟨rfl, by exact_mod_cast hlost⟩

/-- The loss without the omitted part stays in its bounds exactly when the
datagrams after the boundary are no more than the numbers they add, or when
nothing is counted at all. -/
theorem omitted_loss_within_packets_iff
    {b : Build} {t : Test} {size : ℕ} (hsize : maxPktSize ≤ size)
    (hblksize : t.settings.blksize = size) {sp : Stream}
    (hsp : sp.packetCount = 0 ∧ sp.cntError = 0 ∧ sp.outoforderPackets = 0) (now : IperfTime)
    (before after : List RecvCall) (hread : ∀ call ∈ before ++ after, call.OneRead t)
    (hlength : ∀ d ∈ deliveries (before ++ after), d.length = size)
    (hcountable : Countable (numbersOf t (before ++ after))) :
    ∃ sp0 sp1, recvRun b t before sp = some sp0 ∧
      recvRun b t after (sp0.iperfResetStats now) = some sp1 ∧
      (sp1.LossWithinPackets ↔
        ¬ ReadsWholeBlocks b t ∨
          (deliveries after).length + highest (numbersOf t before) ≤
            highest (numbersOf t (before ++ after))) := by
  have hsplit : deliveries (before ++ after) = deliveries before ++ deliveries after :=
    List.flatMap_append
  have hnumbers : numbersOf t (before ++ after) =
      numbersOf t before ++ (deliveries after).map (packetNumber t) := by
    rw [numbersOf, hsplit, List.map_append]
    rfl
  have hreadBefore : ∀ call ∈ before, call.OneRead t :=
    fun call hcall => hread call (List.mem_append_left _ hcall)
  have hreadAfter : ∀ call ∈ after, call.OneRead t :=
    fun call hcall => hread call (List.mem_append_right _ hcall)
  have hlengthBefore : ∀ d ∈ deliveries before, d.length = size :=
    fun d hd => hlength d (hsplit ▸ List.mem_append_left _ hd)
  have hlengthAfter : ∀ d ∈ deliveries after, d.length = size :=
    fun d hd => hlength d (hsplit ▸ List.mem_append_right _ hd)
  by_cases hwhole : ReadsWholeBlocks b t
  · have htracks : Tracks sp ⟨0, 0, 0⟩ := ⟨hsp.1, hsp.2.1, hsp.2.2⟩
    rw [hnumbers] at hcountable
    obtain ⟨sp0, c0, hrun0, htracks0, hexact0⟩ := recvRun_tracks hsize hblksize hwhole before
      hreadBefore hlengthBefore htracks exact_nil hcountable.of_append
    have hseen : [] ++ (deliveries before).map (packetNumber t) = numbersOf t before :=
      List.nil_append _
    rw [hseen] at hexact0
    have hreset : Tracks (sp0.iperfResetStats now) c0 :=
      ⟨htracks0.packetCount, htracks0.cntError, htracks0.outoforderPackets⟩
    obtain ⟨sp1, c1, hrun1, htracks1, hexact1⟩ := recvRun_tracks hsize hblksize hwhole after
      hreadAfter hlengthAfter hreset hexact0 hcountable
    refine ⟨sp0, sp1, hrun0, hrun1, ?_⟩
    have homitted := recvRun_omitted hrun1
    simp only [Stream.omittedCounters, Stream.iperfResetStats, Prod.mk.injEq] at homitted
    rw [← hnumbers] at hexact1
    have hbefore := htracks0.counts hexact0
    have hafter := htracks1.counts hexact1
    have hlengths : (numbersOf t (before ++ after)).length =
        (numbersOf t before).length + (deliveries after).length := by
      rw [hnumbers, List.length_append, List.length_map]
    rw [Stream.LossWithinPackets, homitted.1, homitted.2.1]
    simp only [hwhole, not_true, false_or]
    omega
  · -- Without whole blocks nothing is counted on either side of the boundary.
    obtain ⟨sp0, hrun0, hkept0⟩ :=
      recvRun_short hsize hblksize hwhole before hreadBefore hlengthBefore sp
    obtain ⟨sp1, hrun1, hkept1⟩ := recvRun_short hsize hblksize hwhole after hreadAfter
      hlengthAfter (sp0.iperfResetStats now)
    refine ⟨sp0, sp1, hrun0, hrun1, ?_⟩
    have homitted := recvRun_omitted hrun1
    simp only [Stream.omittedCounters, Stream.iperfResetStats, Prod.mk.injEq] at homitted
    simp only [Stream.lossCounters, Stream.iperfResetStats, Prod.mk.injEq] at hkept1
    rw [Stream.LossWithinPackets, homitted.1, homitted.2.1, hkept1.1, hkept1.2.1]
    simp [hwhole]

/-- A call that reads the datagram with this number. -/
def arrival (number : ℕ) : RecvCall :=
  ⟨fun _ => IperfTime.ofCounters 0 0, [numberedDatagram 16 number]⟩

theorem arrival_oneRead (number : ℕ) : (arrival number).OneRead (receiverTest 16 0 0) := by
  rw [RecvCall.OneRead, if_neg (by decide)]
  exact le_refl 1

theorem omitted_loss_within_packets_in_order :
    ∃ sp0 sp1,
      recvRun Build.linux (receiverTest 16 0 0) [arrival 1, arrival 3]
        (iperfNewStream false []) = some sp0 ∧
      recvRun Build.linux (receiverTest 16 0 0) [arrival 5]
        (sp0.iperfResetStats (IperfTime.ofCounters 0 0)) = some sp1 ∧
      sp1.LossWithinPackets := by
  have hfresh : (iperfNewStream false []).packetCount = 0 ∧
      (iperfNewStream false []).cntError = 0 ∧
      (iperfNewStream false []).outoforderPackets = 0 := ⟨rfl, rfl, rfl⟩
  obtain ⟨sp0, sp1, hbefore, hafter, hwithin⟩ :=
    omitted_loss_within_packets_iff (b := Build.linux) (t := receiverTest 16 0 0)
      (le_refl maxPktSize) rfl hfresh (IperfTime.ofCounters 0 0) [arrival 1, arrival 3]
      [arrival 5] (by simp [arrival_oneRead]) (by decide)
      ⟨by decide +kernel, by decide +kernel, by decide +kernel⟩
  exact ⟨sp0, sp1, hbefore, hafter, hwithin.mpr (Or.inr (by decide +kernel))⟩

/-- The second of three datagrams comes after the boundary, and the loss that
is reported is minus one. -/
theorem omitted_loss_below_zero :
    ((recvRun Build.linux (receiverTest 16 0 0) [arrival 1, arrival 3]
        (iperfNewStream false [])).bind fun sp =>
      (recvRun Build.linux (receiverTest 16 0 0) [arrival 2]
        (sp.iperfResetStats (IperfTime.ofCounters 0 0))).map fun sp =>
          sp.cntError - sp.omittedCntError) = some (-1) := by
  decide +kernel

/-! ## The interval reports -/

/-- The members of `struct iperf_interval_results` that a UDP stream sets. -/
structure IntervalResults where
  bytesTransferred : ℕ
  intervalStartTime : IperfTime
  intervalEndTime : IperfTime
  intervalPacketCount : ℤ
  intervalOutoforderPackets : ℤ
  intervalCntError : ℤ
  packetCount : ℤ
  jitter : ℚ
  outoforderPackets : ℤ
  cntError : ℤ
  omitted : Bool
  deriving DecidableEq, Repr

/-- A stream with the flag of its test and all the records made of it.  The
list of the source keeps only the last one. -/
structure UdpReports where
  omitting : Bool
  stream : Stream
  records : List IntervalResults

inductive ReportEvent where
  | recv (state : TestState) (call : RecvCall)
  | stats (now : IperfTime)
  | omitExpires (now : IperfTime)

namespace UdpReports

/-- A new stream of a test with or without an omit period. -/
def initial (omitting : Bool) : UdpReports :=
  ⟨omitting, iperfNewStream false [], []⟩

/-- The record of `iperf_stats_callback` for a UDP stream. -/
def record (now : IperfTime) (s : UdpReports) : IntervalResults :=
  let sp := s.stream
  let irp := s.records.getLast?
  { bytesTransferred :=
      if sp.sender then sp.result.bytesSentThisInterval
      else sp.result.bytesReceivedThisInterval
    intervalStartTime :=
      if irp.isSome then sp.result.endTime else sp.result.startTime
    intervalEndTime := now
    intervalPacketCount :=
      match irp with
      | none => sp.packetCount
      | some irp => sp.packetCount - irp.packetCount
    intervalOutoforderPackets :=
      match irp with
      | none => sp.outoforderPackets
      | some irp => sp.outoforderPackets - irp.outoforderPackets
    intervalCntError :=
      match irp with
      | none => sp.cntError
      | some irp => sp.cntError - irp.cntError
    packetCount := sp.packetCount
    jitter := sp.jitter
    outoforderPackets := sp.outoforderPackets
    cntError := sp.cntError
    omitted := s.omitting }

def iperfStatsCallback (now : IperfTime) (s : UdpReports) : UdpReports :=
  { s with
    records := s.records ++ [s.record now]
    stream := { s.stream with result := { s.stream.result with
      endTime := now
      bytesReceivedThisInterval := 0
      bytesSentThisInterval := 0 } } }

/-- The omit timer runs once, and only if there is an omit period. -/
def omitTimerProc (now : IperfTime) (s : UdpReports) : UdpReports :=
  if s.omitting then
    { s with omitting := false, stream := s.stream.iperfResetStats now }
  else s

def step (b : Build) (t : Test) (s : UdpReports) : ReportEvent → Option UdpReports
  | .recv state call =>
      (iperfUdpRecv b call.clock state t call.arriving s.stream).map fun sp =>
        { s with stream := sp }
  | .stats now => some (s.iperfStatsCallback now)
  | .omitExpires now => some (s.omitTimerProc now)

def run (b : Build) (t : Test) (events : List ReportEvent) (s : UdpReports) :
    Option UdpReports :=
  events.foldlM (step b t) s

end UdpReports

def IntervalResults.counters (r : IntervalResults) : ℤ × ℤ × ℤ :=
  (r.packetCount, r.cntError, r.outoforderPackets)

def IntervalResults.interval (r : IntervalResults) : ℤ × ℤ × ℤ :=
  (r.intervalPacketCount, r.intervalCntError, r.intervalOutoforderPackets)

namespace UdpReports

/-- The counters at the last record. -/
def recorded (s : UdpReports) : ℤ × ℤ × ℤ :=
  (s.records.getLast?.map IntervalResults.counters).getD 0

/-- The sum over the intervals that are not omitted. -/
def reported (s : UdpReports) : ℤ × ℤ × ℤ :=
  ((s.records.filter fun r => !r.omitted).map IntervalResults.interval).sum

/-- The intervals add up to the summary. -/
def AddsUp (s : UdpReports) : Prop :=
  s.reported = s.stream.lossCounters - s.stream.omittedCounters

/-- Nothing has been counted since the last record when the omit period ends. -/
def EndsAtRecord (b : Build) (t : Test) : UdpReports → List ReportEvent → Prop
  | _, [] => True
  | s, event :: events =>
      (∀ now, event = .omitExpires now → s.omitting = true →
        s.stream.lossCounters = s.recorded) ∧
        ∀ s', s.step b t event = some s' → EndsAtRecord b t s' events

theorem interval_record (now : IperfTime) (s : UdpReports) :
    (s.record now).interval = s.stream.lossCounters - s.recorded := by
  unfold record recorded IntervalResults.interval Stream.lossCounters
  cases s.records.getLast? with
  | none => simp
  | some irp => rfl

/-- What the intervals lack of the counters at the last record without the
omitted part. -/
def gap (s : UdpReports) : ℤ × ℤ × ℤ :=
  s.recorded - s.stream.omittedCounters - s.reported

theorem recorded_stats (now : IperfTime) (s : UdpReports) :
    (s.iperfStatsCallback now).recorded = s.stream.lossCounters := by
  simp [recorded, iperfStatsCallback, record, IntervalResults.counters, Stream.lossCounters]

theorem reported_stats (now : IperfTime) (s : UdpReports) :
    (s.iperfStatsCallback now).reported =
      s.reported + if s.omitting then 0 else s.stream.lossCounters - s.recorded := by
  unfold reported iperfStatsCallback
  rw [List.filter_append, List.map_append, List.sum_append]
  congr 1
  have homitted : (s.record now).omitted = s.omitting := rfl
  cases homitting : s.omitting <;> simp [homitted, homitting, interval_record]

/-- With the omit period over, no step changes the gap. -/
theorem gap_step {b : Build} {t : Test} {s s' : UdpReports} {event : ReportEvent}
    (h : s.step b t event = some s') (homitting : s.omitting = false) :
    s'.omitting = false ∧ s'.gap = s.gap := by
  cases event with
  | recv state call =>
      obtain ⟨sp, hcall, rfl⟩ := Option.map_eq_some_iff.mp h
      refine ⟨homitting, ?_⟩
      change s.recorded - sp.omittedCounters - s.reported = _
      rw [iperfUdpRecv_omitted hcall]
      rfl
  | stats now =>
      cases h
      refine ⟨homitting, ?_⟩
      unfold gap
      rw [recorded_stats, reported_stats, homitting, if_neg Bool.false_ne_true]
      change s.stream.lossCounters - s.stream.omittedCounters -
        (s.reported + (s.stream.lossCounters - s.recorded)) = _
      abel
  | omitExpires now =>
      cases h
      rw [omitTimerProc, homitting, if_neg Bool.false_ne_true]
      exact ⟨homitting, rfl⟩

theorem gap_run {b : Build} {t : Test} {events : List ReportEvent} {s s' : UdpReports}
    (h : s.run b t events = some s') (homitting : s.omitting = false) :
    s'.omitting = false ∧ s'.gap = s.gap := by
  induction events generalizing s with
  | nil =>
      cases h
      exact ⟨homitting, rfl⟩
  | cons event events ih =>
      unfold run at h
      rw [List.foldlM_cons, Option.bind_eq_bind, Option.bind_eq_some_iff] at h
      obtain ⟨s1, hstep, hrest⟩ := h
      obtain ⟨homitting1, hgap1⟩ := gap_step hstep homitting
      obtain ⟨homitting', hgap'⟩ := ih hrest homitting1
      exact ⟨homitting', hgap'.trans hgap1⟩

theorem endsAtRecord_of_over {b : Build} {t : Test} (events : List ReportEvent)
    {s : UdpReports} (homitting : s.omitting = false) : s.EndsAtRecord b t events := by
  induction events generalizing s with
  | nil => trivial
  | cons event events ih =>
      refine ⟨fun _ _ hset => ?_, fun s' hstep => ih (gap_step hstep homitting).1⟩
      rw [homitting] at hset
      cases hset

theorem endsAtRecord_cons {b : Build} {t : Test} {events : List ReportEvent}
    {event : ReportEvent} {s s' : UdpReports} (h : s.step b t event = some s')
    (hevent : ∀ now, event ≠ .omitExpires now) :
    s.EndsAtRecord b t (event :: events) ↔ s'.EndsAtRecord b t events := by
  constructor
  · exact fun hends => hends.2 s' h
  · intro hends
    refine ⟨fun now heq => absurd heq (hevent now), fun s'' hstep => ?_⟩
    obtain rfl : s' = s'' := Option.some_injective _ (h.symm.trans hstep)
    exact hends

/-- The gap is closed at the end exactly when the omit period ends at a
record. -/
theorem gap_eq_zero_iff {b : Build} {t : Test} {events : List ReportEvent}
    {s s' : UdpReports} (hrun : s.run b t events = some s') (hover : s'.omitting = false)
    (homit : s.omitting = true → s.reported = 0) (hstart : s.omitting = false → s.gap = 0) :
    s'.gap = 0 ↔ s.EndsAtRecord b t events := by
  induction events generalizing s with
  | nil =>
      cases hrun
      exact ⟨fun _ => trivial, fun _ => hstart hover⟩
  | cons event events ih =>
      cases homitting : s.omitting with
      | false =>
          rw [(gap_run hrun homitting).2]
          exact ⟨fun _ => endsAtRecord_of_over _ homitting, fun _ => hstart homitting⟩
      | true =>
          have hnone := homit homitting
          unfold run at hrun
          rw [List.foldlM_cons, Option.bind_eq_bind, Option.bind_eq_some_iff] at hrun
          obtain ⟨s1, hstep, hrest⟩ := hrun
          cases event with
          | recv state call =>
              rw [endsAtRecord_cons hstep (fun _ => nofun)]
              obtain ⟨sp, hcall, rfl⟩ := Option.map_eq_some_iff.mp hstep
              apply ih hrest (fun _ => hnone)
              intro hclear
              rw [homitting] at hclear
              cases hclear
          | stats now =>
              rw [endsAtRecord_cons hstep (fun _ => nofun)]
              cases hstep
              apply ih hrest
              · intro _
                rw [reported_stats, homitting, if_pos rfl, hnone, add_zero]
              · intro hclear
                rw [show (s.iperfStatsCallback now).omitting = s.omitting from rfl,
                  homitting] at hclear
                cases hclear
          | omitExpires now =>
              -- The snapshot is taken here, and the gap is what has been
              -- counted since the last record.
              have hreset : s1 =
                  { s with omitting := false, stream := s.stream.iperfResetStats now } := by
                have hexpired : s.omitTimerProc now = s1 := Option.some_injective _ hstep
                rw [← hexpired, omitTimerProc, if_pos homitting]
              have hgap : s1.gap = s.recorded - s.stream.lossCounters := by
                rw [hreset]
                change s.recorded - s.stream.lossCounters - s.reported = _
                rw [hnone, sub_zero]
              have hclear : s1.omitting = false := by rw [hreset]
              rw [(gap_run hrest hclear).2, hgap, sub_eq_zero]
              constructor
              · intro hsame
                refine ⟨fun _ _ _ => hsame.symm, fun s'' hstep' => ?_⟩
                obtain rfl : s1 = s'' := Option.some_injective _ (hstep.symm.trans hstep')
                exact endsAtRecord_of_over events hclear
              · intro hends
                exact (hends.1 now rfl homitting).symm

end UdpReports

/-- The intervals add up to the summary exactly when no datagram is counted
between the last record of the omit period and its end. -/
theorem interval_reports_add_up_iff
    {b : Build} {t : Test} (omitting : Bool) (events : List ReportEvent) (now : IperfTime)
    {s : UdpReports}
    (hrun : (UdpReports.initial omitting).run b t (events ++ [.stats now]) = some s)
    (hover : s.omitting = false) :
    s.AddsUp ↔
      (UdpReports.initial omitting).EndsAtRecord b t (events ++ [.stats now]) := by
  rw [← UdpReports.gap_eq_zero_iff hrun hover (fun _ => rfl) (fun _ => rfl)]
  have hlast : s.recorded = s.stream.lossCounters := by
    unfold UdpReports.run at hrun
    rw [List.foldlM_append, Option.bind_eq_bind, Option.bind_eq_some_iff] at hrun
    obtain ⟨s1, -, hstats⟩ := hrun
    have hs : s1.iperfStatsCallback now = s := by
      simpa [UdpReports.step] using hstats
    rw [← hs]
    exact UdpReports.recorded_stats now s1
  rw [UdpReports.AddsUp, UdpReports.gap, hlast, sub_eq_zero, eq_comm]

def atZero : IperfTime := IperfTime.ofCounters 0 0

/-- A record comes right before the end of the omit period. -/
def recordedOmit : List ReportEvent :=
  [.recv .testRunning (arrival 1), .stats atZero, .omitExpires atZero,
    .recv .testRunning (arrival 2)]

/-- A datagram comes between the last record and the end of the omit period. -/
def unrecordedOmit : List ReportEvent :=
  [.recv .testRunning (arrival 1), .omitExpires atZero, .recv .testRunning (arrival 2)]

theorem interval_reports_add_up_recorded :
    ∃ s, (UdpReports.initial true).run Build.linux (receiverTest 16 0 0)
        (recordedOmit ++ [.stats atZero]) = some s ∧
      s.AddsUp ∧ (UdpReports.initial true).EndsAtRecord Build.linux (receiverTest 16 0 0)
        (recordedOmit ++ [.stats atZero]) := by
  obtain ⟨s, hrun⟩ := Option.isSome_iff_exists.mp
    (show ((UdpReports.initial true).run Build.linux (receiverTest 16 0 0)
      (recordedOmit ++ [.stats atZero])).isSome = true by decide +kernel)
  have hover : ((UdpReports.initial true).run Build.linux (receiverTest 16 0 0)
      (recordedOmit ++ [.stats atZero])).map UdpReports.omitting = some false := by
    decide +kernel
  have hequal : ((UdpReports.initial true).run Build.linux (receiverTest 16 0 0)
      (recordedOmit ++ [.stats atZero])).map (fun s =>
        (s.reported, s.stream.lossCounters - s.stream.omittedCounters)) =
      some ((1, 0, 0), (1, 0, 0)) := by
    decide +kernel
  rw [hrun, Option.map_some, Option.some.injEq] at hover hequal
  obtain ⟨hreported, hsummary⟩ := Prod.mk.inj hequal
  have hadds : s.AddsUp := hreported.trans hsummary.symm
  exact ⟨s, hrun, hadds,
    (interval_reports_add_up_iff true recordedOmit atZero hrun hover).mp hadds⟩

/-- The interval reports two packets and the summary one. -/
theorem interval_reports_exceed_summary :
    ((UdpReports.initial true).run Build.linux (receiverTest 16 0 0)
      (unrecordedOmit ++ [.stats atZero])).map (fun s =>
        (s.omitting, s.reported, s.stream.lossCounters - s.stream.omittedCounters)) =
      some (false, (2, 0, 0), (1, 0, 0)) := by
  decide +kernel

end Iperf3
