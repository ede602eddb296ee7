import Iperf3.OmitAccounting
import Iperf3.Results
import Iperf3.UdpAccounting
import Mathlib.Tactic

/-!
# Interval records and the summary

`iperf_stats_callback` appends a record to every stream of the test;
`iperf_reset_stats` moves the origin of the counters when the omit period
ends: the sent bytes keep an offset, the received bytes start again at zero,
and the baseline of the retransmissions is read anew.
-/

namespace Iperf3

open MachineInt

/-! ## Transfers -/

/-- The counters of the stream's own direction. -/
def Stream.totalBytes (sp : Stream) : ℕ :=
  if sp.sender then sp.result.bytesSent else sp.result.bytesReceived

def Stream.thisIntervalBytes (sp : Stream) : ℕ :=
  if sp.sender then sp.result.bytesSentThisInterval
  else sp.result.bytesReceivedThisInterval

/-- The end of `iperf_tcp_send`; `r` is the result of the write. -/
def Stream.countSent (r : ℤ) (sp : Stream) : Stream :=
  if r < 0 then sp
  else
    { sp with result := { sp.result with
      bytesSent := uint64 (sp.result.bytesSent + r)
      bytesSentThisInterval := uint64 (sp.result.bytesSentThisInterval + r) } }

/-- The end of `iperf_tcp_recv`; bytes are only counted while the test runs. -/
def Stream.countReceived (state : TestState) (r : ℤ) (sp : Stream) : Stream :=
  if r < 0 ∨ state ≠ .testRunning then sp
  else
    { sp with result := { sp.result with
      bytesReceived := uint64 (sp.result.bytesReceived + r)
      bytesReceivedThisInterval := uint64 (sp.result.bytesReceivedThisInterval + r) } }

/-- What any send or receive does to the counters of its stream. -/
structure CountsBytes (sp sp' : Stream) : Prop where
  sender : sp'.sender = sp.sender
  bytesSentOmit : sp'.result.bytesSentOmit = sp.result.bytesSentOmit
  streamRetrans : sp'.result.streamRetrans = sp.result.streamRetrans
  counted :
    (sp'.totalBytes = sp.totalBytes ∧ sp'.thisIntervalBytes = sp.thisIntervalBytes) ∨
      ∃ r : ℤ, sp'.totalBytes = uint64 (sp.totalBytes + r) ∧
        sp'.thisIntervalBytes = uint64 (sp.thisIntervalBytes + r)

/-- A call of the send or receive function of some protocol. -/
structure Transfer where
  call : Stream → Stream
  counts : ∀ sp, CountsBytes sp (call sp)

theorem CountsBytes.rfl {sp : Stream} : CountsBytes sp sp :=
  ⟨Eq.refl _, Eq.refl _, Eq.refl _, .inl ⟨Eq.refl _, Eq.refl _⟩⟩

theorem countsBytes_sent {sp sp' : Stream} {r : ℤ}
    (hsender : sp'.sender = sp.sender)
    (hresult : sp'.result = { sp.result with
      bytesSent := uint64 (sp.result.bytesSent + r)
      bytesSentThisInterval := uint64 (sp.result.bytesSentThisInterval + r) }) :
    CountsBytes sp sp' := by
  refine ⟨hsender, by rw [hresult], by rw [hresult], ?_⟩
  unfold Stream.totalBytes Stream.thisIntervalBytes
  rw [hsender, hresult]
  cases sp.sender with
  | true => exact .inr ⟨r, rfl, rfl⟩
  | false => exact .inl ⟨rfl, rfl⟩

theorem countsBytes_received {sp sp' : Stream} {r : ℤ}
    (hsender : sp'.sender = sp.sender)
    (hresult : sp'.result = { sp.result with
      bytesReceived := uint64 (sp.result.bytesReceived + r)
      bytesReceivedThisInterval := uint64 (sp.result.bytesReceivedThisInterval + r) }) :
    CountsBytes sp sp' := by
  refine ⟨hsender, by rw [hresult], by rw [hresult], ?_⟩
  unfold Stream.totalBytes Stream.thisIntervalBytes
  rw [hsender, hresult]
  cases sp.sender with
  | true => exact .inl ⟨rfl, rfl⟩
  | false => exact .inr ⟨r, rfl, rfl⟩

def Transfer.tcpSend (r : ℤ) : Transfer where
  call := Stream.countSent r
  counts sp := by
    unfold Stream.countSent
    split_ifs
    · exact .rfl
    · exact countsBytes_sent rfl rfl

def Transfer.tcpRecv (state : TestState) (r : ℤ) : Transfer where
  call := Stream.countReceived state r
  counts sp := by
    unfold Stream.countReceived
    split_ifs
    · exact .rfl
    · exact countsBytes_received rfl rfl

theorem iperfUdpSend_sender (clock : ℕ → IperfTime) (written : ℤ) (t : Test) (sp : Stream) :
    (iperfUdpSend clock written t sp).stream.sender = sp.sender := by
  unfold iperfUdpSend
  simp only
  split_ifs <;> rfl

def Transfer.udpSend (clock : ℕ → IperfTime) (written : ℤ) (t : Test) : Transfer where
  call sp := (iperfUdpSend clock written t sp).stream
  counts sp := by
    have hsender := iperfUdpSend_sender clock written t sp
    have hresult := iperfUdpSend_result clock written t sp
    split_ifs at hresult
    · refine ⟨hsender, by rw [hresult], by rw [hresult], .inl ?_⟩
      unfold Stream.totalBytes Stream.thisIntervalBytes
      rw [hsender, hresult]
      exact ⟨rfl, rfl⟩
    · exact countsBytes_sent hsender hresult

/-- A call that never ends leaves no stream to report on. -/
def Transfer.udpRecv (b : Build) (clock : ℕ → IperfTime) (state : TestState) (t : Test)
    (arriving : List Datagram) : Transfer where
  call sp := (iperfUdpRecv b clock state t arriving sp).getD sp
  counts sp := by
    unfold iperfUdpRecv
    simp only
    split_ifs
    · exact .rfl
    · exact .rfl
    · rw [Option.getD_some]
      obtain ⟨_, _, _, _, _, hframe⟩ := countDatagrams_frame t t.settings.blksize.toNat clock
        (readDatagrams b t arriving).length (decide (sp.result.bytesReceived = 0))
        (readDatagrams b t arriving)
        { sp with result := { sp.result with
          bytesReceived := uint64 (sp.result.bytesReceived + (readDatagrams b t arriving).length)
          bytesReceivedThisInterval := uint64
            (sp.result.bytesReceivedThisInterval + (readDatagrams b t arriving).length) } }
      rw [hframe]
      exact countsBytes_received rfl rfl

/-! ## Records -/

/-- The members of an interval record that are added up. -/
structure IntervalSample where
  omitted : Bool
  bytesTransferred : ℕ
  intervalRetrans : ℤ
  deriving DecidableEq, Repr

/-- A stream with `stream_prev_total_retrans` and all the records made of it. -/
structure SampledStream where
  stream : Stream
  streamPrevTotalRetrans : ℤ
  samples : List IntervalSample

structure SampledTest where
  omitting : Bool
  streams : List SampledStream

/-- The connection of the test reports retransmissions and they are counted. -/
def Test.retransCounted (hasTcpinfo : Bool) (t : Test) : Prop :=
  t.protocol = .tcp ∧ hasTcpinfo = true ∧ t.senderHasRetransmits = 1

instance (hasTcpinfo : Bool) (t : Test) : Decidable (t.retransCounted hasTcpinfo) :=
  inferInstanceAs (Decidable (_ ∧ _))

namespace SampledStream

def initial (sender : Bool) (buffer : List UInt8) : SampledStream :=
  ⟨iperfNewStream sender buffer, 0, []⟩

/-- The turn of `iperf_stats_callback` for one stream.  The record is filled in
a variable outside the loop, which still holds `temp`. -/
def statsCallback (hasTcpinfo : Bool) (t : Test) (omitting : Bool) (now : IperfTime)
    (totalRetrans temp : ℤ) (s : SampledStream) : SampledStream × ℤ :=
  let result := { s.stream.result with
    endTime := now
    bytesReceivedThisInterval := 0
    bytesSentThisInterval := 0 }
  if t.retransCounted hasTcpinfo then
    let intervalRetrans := totalRetrans - s.streamPrevTotalRetrans
    ({ stream := { s.stream with result := { result with
          streamRetrans := result.streamRetrans + intervalRetrans } }
       streamPrevTotalRetrans := totalRetrans
       samples := s.samples ++ [⟨omitting, s.stream.thisIntervalBytes, intervalRetrans⟩] },
      intervalRetrans)
  else
    ({ s with
       stream := { s.stream with result := result }
       samples := s.samples ++ [⟨omitting, s.stream.thisIntervalBytes, temp⟩] },
      temp)

/-- The turn of `iperf_reset_stats` for one stream. -/
def resetStats (t : Test) (now : IperfTime) (totalRetrans : ℤ) (s : SampledStream) :
    SampledStream :=
  { s with
    stream := s.stream.iperfResetStats now
    streamPrevTotalRetrans :=
      if t.senderHasRetransmits = 1 then totalRetrans else s.streamPrevTotalRetrans }

def included (s : SampledStream) : List IntervalSample :=
  s.samples.filter fun sample => !sample.omitted

/-- The sums over the intervals that are not omitted. -/
def sumBytes (s : SampledStream) : ℕ :=
  (s.included.map IntervalSample.bytesTransferred).sum

def sumRetrans (s : SampledStream) : ℤ :=
  (s.included.map IntervalSample.intervalRetrans).sum

end SampledStream

/-- What happens to the streams of a test; a kernel's counter is read for every
stream, and `temp` is what the callback's variable holds when it begins. -/
inductive SampleEvent where
  | transfer (stream : ℕ) (transfer : Transfer)
  | stats (now : IperfTime) (totalRetrans : ℕ → ℤ) (temp : ℤ)
  | omitExpires (now : IperfTime) (totalRetrans : ℕ → ℤ)

def SampleEvent.isExpiry : SampleEvent → Bool
  | .omitExpires _ _ => true
  | _ => false

namespace SampledTest

def initial (omitting : Bool) (streams : List (Bool × List UInt8)) : SampledTest :=
  ⟨omitting, streams.map fun (sender, buffer) => SampledStream.initial sender buffer⟩

/-- The loop over the streams from the one with this index on. -/
def sampleAll (hasTcpinfo : Bool) (t : Test) (omitting : Bool) (now : IperfTime)
    (totalRetrans : ℕ → ℤ) : ℕ → ℤ → List SampledStream → List SampledStream
  | _, _, [] => []
  | index, temp, s :: streams =>
      let (s, temp) := s.statsCallback hasTcpinfo t omitting now (totalRetrans index) temp
      s :: sampleAll hasTcpinfo t omitting now totalRetrans (index + 1) temp streams

def step (hasTcpinfo : Bool) (t : Test) (s : SampledTest) : SampleEvent → SampledTest
  | .transfer stream transfer =>
      { s with streams := s.streams.modify stream fun sp =>
          { sp with stream := transfer.call sp.stream } }
  | .stats now totalRetrans temp =>
      { s with streams :=
          sampleAll hasTcpinfo t s.omitting now totalRetrans 0 temp s.streams }
  | .omitExpires now totalRetrans =>
      { omitting := false
        streams := s.streams.mapIdx fun index sp =>
          sp.resetStats t now (totalRetrans index) }

def run (hasTcpinfo : Bool) (t : Test) (events : List SampleEvent) (s : SampledTest) :
    SampledTest :=
  events.foldl (step hasTcpinfo t) s

end SampledTest

/-! ## One stream -/

namespace SampledStream

/-- While the test omits, all records are omitted; afterwards the records and
the current interval make up the summary. -/
def Balanced (counted : Prop) (omitting : Bool) (s : SampledStream) : Prop :=
  uint64 s.stream.totalBytes = s.stream.totalBytes ∧
    if omitting then s.included = []
    else
      uint64 (s.sumBytes + s.stream.thisIntervalBytes) = s.stream.bytesTransferred ∧
        (counted → s.sumRetrans = s.stream.result.streamRetrans)

theorem bytesTransferred_eq (sp : Stream) :
    sp.bytesTransferred =
      if sp.sender then uint64 (sp.totalBytes - sp.result.bytesSentOmit)
      else sp.totalBytes := by
  unfold Stream.bytesTransferred Stream.totalBytes
  cases sp.sender <;> rfl

theorem balanced_initial (counted : Prop) (omitting sender : Bool) (buffer : List UInt8) :
    Balanced counted omitting (initial sender buffer) := by
  cases omitting <;> cases sender <;> simp [Balanced, initial, iperfNewStream, included,
    sumBytes, sumRetrans, Stream.totalBytes, Stream.thisIntervalBytes,
    Stream.bytesTransferred, uint64_eq]

theorem Balanced.transfer
    {counted : Prop} {omitting : Bool} {s : SampledStream}
    (h : Balanced counted omitting s) {sp' : Stream} (hcounts : CountsBytes s.stream sp') :
    Balanced counted omitting { s with stream := sp' } := by
  obtain ⟨hrange, hbalance⟩ := h
  obtain ⟨hsender, homit, hretrans, ⟨htotal, hthis⟩ | ⟨r, htotal, hthis⟩⟩ := hcounts
  · -- The counters of the own direction have not moved.
    have hsummary : sp'.bytesTransferred = s.stream.bytesTransferred := by
      rw [bytesTransferred_eq, bytesTransferred_eq, hsender, homit, htotal]
    refine ⟨by simpa only [htotal] using hrange, ?_⟩
    change if omitting then s.included = []
      else uint64 (s.sumBytes + sp'.thisIntervalBytes) = sp'.bytesTransferred ∧
        (counted → s.sumRetrans = sp'.result.streamRetrans)
    rw [hthis, hsummary, hretrans]
    exact hbalance
  · refine ⟨by simp only [htotal, uint64_uint64], ?_⟩
    cases omitting with
    | true => exact hbalance
    | false =>
        obtain ⟨hbytes, hsum⟩ := hbalance
        refine ⟨?_, fun hcounted => (hsum hcounted).trans hretrans.symm⟩
        change uint64 (s.sumBytes + sp'.thisIntervalBytes) = sp'.bytesTransferred
        rw [bytesTransferred_eq] at hbytes ⊢
        rw [hsender, homit, htotal, hthis]
        cases hrole : s.stream.sender with
        | true =>
            simp only [hrole, if_true, uint64_eq] at hbytes ⊢
            omega
        | false =>
            simp only [hrole, Bool.false_eq_true, if_false, uint64_eq] at hbytes ⊢
            omega

/-- What a record adds to the sums and leaves in the counters. -/
theorem statsCallback_spec
    (hasTcpinfo : Bool) (t : Test) (omitting : Bool) (now : IperfTime)
    (totalRetrans temp : ℤ) (s : SampledStream) :
    ∃ intervalRetrans : ℤ,
      (s.statsCallback hasTcpinfo t omitting now totalRetrans temp).1.samples =
          s.samples ++ [⟨omitting, s.stream.thisIntervalBytes, intervalRetrans⟩] ∧
        (t.retransCounted hasTcpinfo →
          (s.statsCallback hasTcpinfo t omitting now totalRetrans temp
              ).1.stream.result.streamRetrans =
            s.stream.result.streamRetrans + intervalRetrans) := by
  unfold statsCallback
  split_ifs with hcounted
  · exact ⟨_, rfl, fun _ => rfl⟩
  · exact ⟨_, rfl, fun h => absurd h hcounted⟩

theorem statsCallback_counters
    (hasTcpinfo : Bool) (t : Test) (omitting : Bool) (now : IperfTime)
    (totalRetrans temp : ℤ) (s : SampledStream) :
    let after := (s.statsCallback hasTcpinfo t omitting now totalRetrans temp).1.stream
    after.totalBytes = s.stream.totalBytes ∧ after.thisIntervalBytes = 0 ∧
      after.bytesTransferred = s.stream.bytesTransferred := by
  unfold statsCallback
  split_ifs <;> cases hrole : s.stream.sender <;>
    simp [Stream.totalBytes, Stream.thisIntervalBytes, Stream.bytesTransferred, hrole]

theorem Balanced.statsCallback
    {hasTcpinfo : Bool} {t : Test} {omitting : Bool} {s : SampledStream}
    (h : Balanced (t.retransCounted hasTcpinfo) omitting s)
    (now : IperfTime) (totalRetrans temp : ℤ) :
    Balanced (t.retransCounted hasTcpinfo) omitting
      (s.statsCallback hasTcpinfo t omitting now totalRetrans temp).1 := by
  obtain ⟨intervalRetrans, hsamples, hretrans⟩ :=
    statsCallback_spec hasTcpinfo t omitting now totalRetrans temp s
  obtain ⟨htotal, hthis, hsummary⟩ :=
    statsCallback_counters hasTcpinfo t omitting now totalRetrans temp s
  generalize (s.statsCallback hasTcpinfo t omitting now totalRetrans temp).1 = after at *
  obtain ⟨hrange, hbalance⟩ := h
  refine ⟨by simpa only [htotal] using hrange, ?_⟩
  have hincluded : after.included = s.included ++
      if omitting then [] else [⟨false, s.stream.thisIntervalBytes, intervalRetrans⟩] := by
    unfold included
    rw [hsamples, List.filter_append]
    cases omitting <;> rfl
  cases omitting with
  | true => simpa [hincluded] using hbalance
  | false =>
      obtain ⟨hbytes, hsum⟩ := hbalance
      have hsumBytes : after.sumBytes = s.sumBytes + s.stream.thisIntervalBytes := by
        simp [sumBytes, hincluded]
      have hsumRetrans : after.sumRetrans = s.sumRetrans + intervalRetrans := by
        simp [sumRetrans, hincluded]
      refine ⟨?_, fun hcounted => ?_⟩
      · rw [hsumBytes, hthis, hsummary, ← hbytes]
        norm_num
      · rw [hsumRetrans, hretrans hcounted, hsum hcounted]

theorem Balanced.resetStats
    {counted : Prop} {s : SampledStream} (h : Balanced counted true s)
    (t : Test) (now : IperfTime) (totalRetrans : ℤ) :
    Balanced counted false (s.resetStats t now totalRetrans) := by
  obtain ⟨hrange, hincluded⟩ := h
  have hkept : (s.resetStats t now totalRetrans).included = [] := hincluded
  unfold Balanced sumBytes sumRetrans
  rw [hkept]
  cases hrole : s.stream.sender <;>
    simp_all [SampledStream.resetStats, Stream.iperfResetStats, Stream.totalBytes,
      Stream.thisIntervalBytes, Stream.bytesTransferred, uint64_eq]

end SampledStream

/-! ## All streams -/

namespace SampledTest

theorem mem_sampleAll
    {hasTcpinfo : Bool} {t : Test} {omitting : Bool} {now : IperfTime}
    {totalRetrans : ℕ → ℤ} {index : ℕ} {temp : ℤ} {streams : List SampledStream}
    {s' : SampledStream}
    (h : s' ∈ sampleAll hasTcpinfo t omitting now totalRetrans index temp streams) :
    ∃ s ∈ streams, ∃ reading temp,
      s' = (s.statsCallback hasTcpinfo t omitting now reading temp).1 := by
  induction streams generalizing index temp with
  | nil => cases h
  | cons s streams ih =>
      rcases List.mem_cons.mp h with rfl | hrest
      · exact ⟨s, List.mem_cons_self, _, _, rfl⟩
      · obtain ⟨other, hother, hs'⟩ := ih hrest
        exact ⟨other, List.mem_cons_of_mem _ hother, hs'⟩

/-- Every stream is balanced. -/
def Balanced (hasTcpinfo : Bool) (t : Test) (s : SampledTest) : Prop :=
  ∀ sp ∈ s.streams, sp.Balanced (t.retransCounted hasTcpinfo) s.omitting

theorem balanced_initial
    (hasTcpinfo : Bool) (t : Test) (omitting : Bool) (streams : List (Bool × List UInt8)) :
    Balanced hasTcpinfo t (initial omitting streams) := by
  intro sp hsp
  obtain ⟨⟨sender, buffer⟩, -, rfl⟩ := List.mem_map.mp hsp
  exact SampledStream.balanced_initial _ omitting sender buffer

/-- The omit period can only end while it lasts. -/
theorem Balanced.step
    {hasTcpinfo : Bool} {t : Test} {s : SampledTest} (h : Balanced hasTcpinfo t s)
    {event : SampleEvent} (hexpiry : event.isExpiry = true → s.omitting = true) :
    Balanced hasTcpinfo t (s.step hasTcpinfo t event) := by
  cases event with
  | transfer stream transfer =>
      intro sp hsp
      change sp ∈ s.streams.modify stream _ at hsp
      obtain ⟨index, hindex⟩ := List.mem_iff_getElem?.mp hsp
      rw [List.getElem?_modify] at hindex
      obtain ⟨old, hold, heq⟩ := Option.map_eq_some_iff.mp hindex
      have hbalanced := h old (List.mem_of_getElem? hold)
      split_ifs at heq
      · subst heq
        exact hbalanced.transfer (transfer.counts old.stream)
      · subst heq
        exact hbalanced
  | stats now totalRetrans temp =>
      intro sp hsp
      obtain ⟨old, hold, reading, temp, rfl⟩ := mem_sampleAll hsp
      exact (h old hold).statsCallback now reading temp
  | omitExpires now totalRetrans =>
      intro sp hsp
      obtain ⟨index, hindex, rfl⟩ := List.mem_mapIdx.mp hsp
      have hold := h s.streams[index] (List.getElem_mem hindex)
      rw [hexpiry rfl] at hold
      exact hold.resetStats t now (totalRetrans index)

theorem balanced_run
    {hasTcpinfo : Bool} {t : Test} {events : List SampleEvent} {s : SampledTest}
    (h : Balanced hasTcpinfo t s)
    (hexpiries : events.countP SampleEvent.isExpiry = s.omitting.toNat) :
    Balanced hasTcpinfo t (s.run hasTcpinfo t events) ∧
      (s.run hasTcpinfo t events).omitting = false := by
  induction events generalizing s with
  | nil =>
      refine ⟨h, ?_⟩
      cases homitting : s.omitting with
      | false => exact homitting
      | true => simp [homitting] at hexpiries
  | cons event events ih =>
      rw [List.countP_cons] at hexpiries
      have hexpiry : event.isExpiry = true → s.omitting = true := by
        intro hevent
        rw [if_pos hevent] at hexpiries
        cases homitting : s.omitting with
        | true => rfl
        | false => simp [homitting] at hexpiries
      apply ih (h.step hexpiry)
      cases event with
      | transfer stream transfer => exact hexpiries
      | stats now totalRetrans temp => exact hexpiries
      | omitExpires now totalRetrans =>
          rw [hexpiry rfl] at hexpiries
          exact Nat.succ.inj hexpiries

/-- After a run with its omit period over, a last callback makes the records of
every stream add up to its summary. -/
theorem intervals_add_up
    (hasTcpinfo : Bool) (t : Test) (omitting : Bool) (streams : List (Bool × List UInt8))
    (events : List SampleEvent)
    (hexpiries : events.countP SampleEvent.isExpiry = omitting.toNat)
    (now : IperfTime) (totalRetrans : ℕ → ℤ) (temp : ℤ) :
    ∀ s ∈ ((initial omitting streams).run hasTcpinfo t
        (events ++ [.stats now totalRetrans temp])).streams,
      uint64 s.sumBytes = s.stream.bytesTransferred ∧
        (t.retransCounted hasTcpinfo → s.sumRetrans = s.stream.result.streamRetrans) := by
  obtain ⟨hbalanced, homitting⟩ :=
    balanced_run (balanced_initial hasTcpinfo t omitting streams) hexpiries
  have hrun : ((initial omitting streams).run hasTcpinfo t
      (events ++ [.stats now totalRetrans temp])).streams =
        sampleAll hasTcpinfo t ((initial omitting streams).run hasTcpinfo t events).omitting
          now totalRetrans 0 temp
          ((initial omitting streams).run hasTcpinfo t events).streams := by
    rw [run, List.foldl_append]
    rfl
  rw [hrun, homitting]
  intro s hs
  obtain ⟨old, hold, reading, temp, rfl⟩ := mem_sampleAll hs
  have hold' := hbalanced old hold
  rw [homitting] at hold'
  obtain ⟨-, hbytes, hretrans⟩ := hold'.statsCallback now reading temp
  obtain ⟨-, hcleared, -⟩ :=
    SampledStream.statsCallback_counters hasTcpinfo t false now reading temp old
  rw [hcleared] at hbytes
  exact ⟨by simpa using hbytes, hretrans⟩

def omittedEvents : List SampleEvent :=
  [.transfer 0 (.tcpSend 100), .transfer 1 (.tcpRecv .testRunning 50),
    .stats (IperfTime.ofCounters 1 0) (fun _ => 2) 0,
    .transfer 0 (.tcpSend 30),
    .omitExpires (IperfTime.ofCounters 1 5) (fun _ => 3),
    .transfer 0 (.tcpSend 70), .transfer 1 (.tcpRecv .testRunning 20)]

def retransTest (senderHasRetransmits : ℤ) : Test :=
  { iperfNewTest with protocol := .tcp, senderHasRetransmits := senderHasRetransmits }

/-- The record of the sender after the omit period has 70 bytes and five
retransmissions. -/
theorem intervals_add_up_omitted :
    ∃ s ∈ ((initial true [(true, []), (false, [])]).run true (retransTest 1)
        (omittedEvents ++ [.stats (IperfTime.ofCounters 2 0) (fun _ => 8) 0])).streams,
      s.included = [⟨false, 70, 5⟩] ∧ uint64 s.sumBytes = s.stream.bytesTransferred ∧
        ((retransTest 1).retransCounted true → s.sumRetrans = s.stream.result.streamRetrans) := by
  have hadds := intervals_add_up true (retransTest 1) true [(true, []), (false, [])]
    omittedEvents rfl (IperfTime.ofCounters 2 0) (fun _ => 8) 0
  exact ⟨_, List.mem_cons_self, by decide, hadds _ List.mem_cons_self⟩

/-- When retransmissions are not counted, a record has whatever the variable of
the callback held. -/
theorem retrans_not_recorded :
    ((initial false [(true, [])]).run true (retransTest 0)
        [.stats (IperfTime.ofCounters 1 0) (fun _ => 0) 7]).streams.map
      (fun s => (s.sumRetrans, s.stream.result.streamRetrans)) = [(7, 0)] := by
  decide

end SampledTest

end Iperf3
