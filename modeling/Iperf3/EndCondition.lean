import Iperf3.TestModel
import Mathlib.Tactic

/-!
# The end of a limited test

The client's loop ends a test with a byte or block limit when one of the
test's four counters reaches it.  Traffic of the omit period is not meant to
count: its end resets the statistics.
-/

namespace Iperf3

/-- The counters of the whole test and the two flags of the end condition. -/
structure Traffic where
  omitting : Bool
  done : Bool
  bytesSent : ℕ
  blocksSent : ℕ
  bytesReceived : ℕ
  blocksReceived : ℕ
  deriving DecidableEq, Repr

/-- What workers and timers do while the test runs.  A block is complete when
nothing of it is pending. -/
inductive TrafficEvent where
  | sent (r : ℕ) (blockComplete : Bool)
  | received (r : ℕ)
  | omitExpires
  | durationExpires
  deriving DecidableEq, Repr

namespace Traffic

def initial (t : Test) : Traffic :=
  ⟨t.omitTime ≠ 0, false, 0, 0, 0, 0⟩

def iperfSendMt (r : ℕ) (blockComplete : Bool) (c : Traffic) : Traffic :=
  { c with
    bytesSent := c.bytesSent + r
    blocksSent := if blockComplete then c.blocksSent + 1 else c.blocksSent }

/-- A receive that timed out is not counted. -/
def iperfRecvMt (r : ℕ) (c : Traffic) : Traffic :=
  if 0 < r then
    { c with bytesReceived := c.bytesReceived + r, blocksReceived := c.blocksReceived + 1 }
  else c

def iperfResetStats (c : Traffic) : Traffic :=
  { c with bytesSent := 0, blocksSent := 0 }

/-- There is an omit timer only during the omit period. -/
def clientOmitTimerProc (c : Traffic) : Traffic :=
  if c.omitting then { c with omitting := false }.iperfResetStats else c

def step (c : Traffic) : TrafficEvent → Traffic
  | .sent r blockComplete => c.iperfSendMt r blockComplete
  | .received r => c.iperfRecvMt r
  | .omitExpires => c.clientOmitTimerProc
  | .durationExpires => { c with done := true }

def run (c : Traffic) (events : List TrafficEvent) : Traffic :=
  events.foldl step c

def byteLimitReached (t : Test) (c : Traffic) : Bool :=
  t.settings.bytes ≠ 0 &&
    (t.settings.bytes ≤ c.bytesSent || t.settings.bytes ≤ c.bytesReceived)

def blockLimitReached (t : Test) (c : Traffic) : Bool :=
  t.settings.blocks ≠ 0 &&
    (t.settings.blocks ≤ c.blocksSent || t.settings.blocks ≤ c.blocksReceived)

/-- The test for the end in the loop of `iperf_run_client`. -/
def endReached (t : Test) (c : Traffic) : Bool :=
  !c.omitting && (c.done || c.byteLimitReached t || c.blockLimitReached t)

end Traffic

/-! ## Traffic before and after the end of the omit period -/

namespace TrafficEvent

def bytesSent : TrafficEvent → ℕ
  | .sent r _ => r
  | _ => 0

def blocksSent : TrafficEvent → ℕ
  | .sent _ true => 1
  | _ => 0

def bytesReceived : TrafficEvent → ℕ
  | .received r => r
  | _ => 0

def blocksReceived : TrafficEvent → ℕ
  | .received r => if 0 < r then 1 else 0
  | _ => 0

end TrafficEvent

def duringOmit (t : Test) (events : List TrafficEvent) : List TrafficEvent :=
  if t.omitTime = 0 then [] else events.takeWhile (· ≠ .omitExpires)

def afterOmit (t : Test) (events : List TrafficEvent) : List TrafficEvent :=
  if t.omitTime = 0 then events else (events.dropWhile (· ≠ .omitExpires)).tail

/-- Only traffic after the omit period counts, and a limit that ends the test
was reached by such traffic in one direction. -/
structure LimitsSound (t : Test) (events : List TrafficEvent) (c : Traffic) : Prop where
  bytesSent : c.bytesSent = ((afterOmit t events).map TrafficEvent.bytesSent).sum
  blocksSent : c.blocksSent = ((afterOmit t events).map TrafficEvent.blocksSent).sum
  bytesReceived : c.bytesReceived = ((afterOmit t events).map TrafficEvent.bytesReceived).sum
  blocksReceived :
    c.blocksReceived = ((afterOmit t events).map TrafficEvent.blocksReceived).sum
  byteLimit : c.byteLimitReached t = true →
    t.settings.bytes ≤ ((afterOmit t events).map TrafficEvent.bytesSent).sum ∨
      t.settings.bytes ≤ ((afterOmit t events).map TrafficEvent.bytesReceived).sum
  blockLimit : c.blockLimitReached t = true →
    t.settings.blocks ≤ ((afterOmit t events).map TrafficEvent.blocksSent).sum ∨
      t.settings.blocks ≤ ((afterOmit t events).map TrafficEvent.blocksReceived).sum

/-! ## Runs -/

namespace Traffic

/-- The counters grow by the traffic, but those of the sender start again at
the end of an omit period. -/
theorem step_counts (c : Traffic) {event : TrafficEvent}
    (h : c.omitting = false ∨ event ≠ .omitExpires) :
    (c.step event).omitting = c.omitting ∧
      (c.step event).bytesSent = c.bytesSent + event.bytesSent ∧
      (c.step event).blocksSent = c.blocksSent + event.blocksSent ∧
      (c.step event).bytesReceived = c.bytesReceived + event.bytesReceived ∧
      (c.step event).blocksReceived = c.blocksReceived + event.blocksReceived := by
  cases event with
  | sent r blockComplete =>
      cases blockComplete <;>
        simp [step, iperfSendMt, TrafficEvent.bytesSent, TrafficEvent.blocksSent,
          TrafficEvent.bytesReceived, TrafficEvent.blocksReceived]
  | received r =>
      by_cases hr : 0 < r
      · simp [step, iperfRecvMt, hr, TrafficEvent.bytesSent, TrafficEvent.blocksSent,
          TrafficEvent.bytesReceived, TrafficEvent.blocksReceived]
      · have hzero : r = 0 := by omega
        simp [step, iperfRecvMt, hzero, TrafficEvent.bytesSent, TrafficEvent.blocksSent,
          TrafficEvent.bytesReceived, TrafficEvent.blocksReceived]
  | omitExpires =>
      have homitting : c.omitting = false := h.resolve_right (fun hne => hne rfl)
      simp [step, clientOmitTimerProc, homitting, TrafficEvent.bytesSent,
        TrafficEvent.blocksSent, TrafficEvent.bytesReceived, TrafficEvent.blocksReceived]
  | durationExpires =>
      simp [step, TrafficEvent.bytesSent, TrafficEvent.blocksSent, TrafficEvent.bytesReceived,
        TrafficEvent.blocksReceived]

theorem run_counts (c : Traffic) {events : List TrafficEvent}
    (h : c.omitting = false ∨ .omitExpires ∉ events) :
    (c.run events).omitting = c.omitting ∧
      (c.run events).bytesSent = c.bytesSent + (events.map TrafficEvent.bytesSent).sum ∧
      (c.run events).blocksSent = c.blocksSent + (events.map TrafficEvent.blocksSent).sum ∧
      (c.run events).bytesReceived =
        c.bytesReceived + (events.map TrafficEvent.bytesReceived).sum ∧
      (c.run events).blocksReceived =
        c.blocksReceived + (events.map TrafficEvent.blocksReceived).sum := by
  induction events generalizing c with
  | nil => simp [run]
  | cons event events ih =>
      have hevent : c.omitting = false ∨ event ≠ .omitExpires := by
        rcases h with h | h
        · exact Or.inl h
        · exact Or.inr fun heq => h (by simp [heq])
      obtain ⟨homit, h1, h2, h3, h4⟩ := step_counts c hevent
      have hrest : (c.step event).omitting = false ∨ .omitExpires ∉ events := by
        rcases h with h | h
        · exact Or.inl (homit.trans h)
        · exact Or.inr fun hmem => h (by simp [hmem])
      obtain ⟨i0, i1, i2, i3, i4⟩ := ih (c.step event) hrest
      have hrun : c.run (event :: events) = (c.step event).run events := rfl
      rw [hrun]
      simp only [List.map_cons, List.sum_cons]
      refine ⟨i0.trans homit, ?_, ?_, ?_, ?_⟩ <;> omega

/-- A run that starts in its omit period and leaves it: what was received
before the end of the period stays in the counters. -/
theorem run_counts_omitting (c : Traffic) {events : List TrafficEvent}
    (hstart : c.omitting = true) (hend : (c.run events).omitting = false) :
    let before := events.takeWhile (· ≠ .omitExpires)
    let after := (events.dropWhile (· ≠ .omitExpires)).tail
    (c.run events).bytesSent = (after.map TrafficEvent.bytesSent).sum ∧
      (c.run events).blocksSent = (after.map TrafficEvent.blocksSent).sum ∧
      (c.run events).bytesReceived = c.bytesReceived +
        (before.map TrafficEvent.bytesReceived).sum +
          (after.map TrafficEvent.bytesReceived).sum ∧
      (c.run events).blocksReceived = c.blocksReceived +
        (before.map TrafficEvent.blocksReceived).sum +
          (after.map TrafficEvent.blocksReceived).sum := by
  induction events generalizing c with
  | nil =>
      have hsame : (c.run []).omitting = c.omitting := rfl
      rw [hsame, hstart] at hend
      cases hend
  | cons event events ih =>
      have hrun : c.run (event :: events) = (c.step event).run events := rfl
      rw [hrun] at hend ⊢
      by_cases hexpires : event = .omitExpires
      · subst hexpires
        have hstep : c.step .omitExpires =
            { c with omitting := false, bytesSent := 0, blocksSent := 0 } := by
          simp [step, clientOmitTimerProc, iperfResetStats, hstart]
        have hover : (c.step .omitExpires).omitting = false ∨ .omitExpires ∉ events :=
          Or.inl (by rw [hstep])
        obtain ⟨-, h1, h2, h3, h4⟩ := run_counts (c.step .omitExpires) hover
        rw [hstep] at h1 h2 h3 h4
        simp only [hstep, h1, h2, h3, h4]
        simp
      · obtain ⟨homit, h1, h2, h3, h4⟩ := step_counts c (Or.inr hexpires)
        have hrest := ih (c.step event) (homit.trans hstart) hend
        simp only [h3, h4] at hrest
        simp only [List.takeWhile_cons, List.dropWhile_cons, ne_eq, hexpires, not_false_eq_true,
          decide_true, if_true, List.map_cons, List.sum_cons]
        simp only [ne_eq] at hrest
        refine ⟨hrest.1, hrest.2.1, ?_, ?_⟩ <;> omega

end Traffic

theorem counters_after_omit
    (t : Test) (events : List TrafficEvent)
    (homitting : ((Traffic.initial t).run events).omitting = false) :
    ((Traffic.initial t).run events).bytesSent =
        ((afterOmit t events).map TrafficEvent.bytesSent).sum ∧
      ((Traffic.initial t).run events).blocksSent =
        ((afterOmit t events).map TrafficEvent.blocksSent).sum ∧
      ((Traffic.initial t).run events).bytesReceived =
        ((duringOmit t events).map TrafficEvent.bytesReceived).sum +
          ((afterOmit t events).map TrafficEvent.bytesReceived).sum ∧
      ((Traffic.initial t).run events).blocksReceived =
        ((duringOmit t events).map TrafficEvent.blocksReceived).sum +
          ((afterOmit t events).map TrafficEvent.blocksReceived).sum := by
  have hzero : (Traffic.initial t).bytesSent = 0 ∧ (Traffic.initial t).blocksSent = 0 ∧
      (Traffic.initial t).bytesReceived = 0 ∧ (Traffic.initial t).blocksReceived = 0 :=
    ⟨rfl, rfl, rfl, rfl⟩
  obtain ⟨z1, z2, z3, z4⟩ := hzero
  unfold afterOmit duringOmit
  split_ifs with homit
  · have hstart : (Traffic.initial t).omitting = false ∨ .omitExpires ∉ events :=
      Or.inl (by simp [Traffic.initial, homit])
    obtain ⟨-, h1, h2, h3, h4⟩ := (Traffic.initial t).run_counts hstart
    simp only [List.map_nil, List.sum_nil]
    refine ⟨?_, ?_, ?_, ?_⟩ <;> omega
  · have hstart : (Traffic.initial t).omitting = true := by simp [Traffic.initial, homit]
    obtain ⟨h1, h2, h3, h4⟩ := (Traffic.initial t).run_counts_omitting hstart homitting
    refine ⟨h1, h2, ?_, ?_⟩ <;> omega

theorem blocksReceived_eq_zero {events : List TrafficEvent}
    (h : (events.map TrafficEvent.bytesReceived).sum = 0) :
    (events.map TrafficEvent.blocksReceived).sum = 0 := by
  rw [List.sum_eq_zero_iff] at h ⊢
  intro n hn
  obtain ⟨event, hevent, rfl⟩ := List.mem_map.mp hn
  have hbytes := h event.bytesReceived (List.mem_map_of_mem hevent)
  cases event with
  | received r =>
      have hr : r = 0 := hbytes
      simp [TrafficEvent.blocksReceived, hr]
  | sent r blockComplete => rfl
  | omitExpires => rfl
  | durationExpires => rfl

/-- Once the omit period is over, the limits are about the traffic after it
exactly if nothing was received during it. -/
theorem limits_sound_iff
    (t : Test) (events : List TrafficEvent)
    (homitting : ((Traffic.initial t).run events).omitting = false) :
    LimitsSound t events ((Traffic.initial t).run events) ↔
      ((duringOmit t events).map TrafficEvent.bytesReceived).sum = 0 := by
  obtain ⟨h1, h2, h3, h4⟩ := counters_after_omit t events homitting
  constructor
  · intro h
    have hreceived := h.bytesReceived
    omega
  · intro hnone
    have hblocks := blocksReceived_eq_zero hnone
    rw [hnone, zero_add] at h3
    rw [hblocks, zero_add] at h4
    refine ⟨h1, h2, h3, h4, ?_, ?_⟩
    · intro hlimit
      simp only [Traffic.byteLimitReached, Bool.and_eq_true, Bool.or_eq_true,
        decide_eq_true_eq, h1, h3] at hlimit
      exact hlimit.2
    · intro hlimit
      simp only [Traffic.blockLimitReached, Bool.and_eq_true, Bool.or_eq_true,
        decide_eq_true_eq, h2, h4] at hlimit
      exact hlimit.2

/-- A client with `-O` and a limit of a hundred bytes. -/
def limitedTest : Test :=
  { iperfNewTest with
    omitTime := 1
    settings := { iperfNewTest.settings with bytes := 100 } }

theorem limits_sound_sender :
    ((Traffic.initial limitedTest).run
        [.sent 80 true, .omitExpires, .sent 60 true, .sent 60 true]).omitting = false ∧
      LimitsSound limitedTest [.sent 80 true, .omitExpires, .sent 60 true, .sent 60 true]
        ((Traffic.initial limitedTest).run
          [.sent 80 true, .omitExpires, .sent 60 true, .sent 60 true]) :=
  ⟨rfl, (limits_sound_iff limitedTest _ rfl).mpr rfl⟩

/-- The reverse test ends with twenty bytes after the omit period. -/
theorem omitted_bytes_end_test :
    ((Traffic.initial limitedTest).run [.received 80, .omitExpires, .received 20]).endReached
        limitedTest = true ∧
      ((Traffic.initial limitedTest).run [.received 80, .omitExpires, .received 20]).done =
        false ∧
      ((afterOmit limitedTest [.received 80, .omitExpires, .received 20]).map
        TrafficEvent.bytesReceived).sum = 20 ∧
      ((afterOmit limitedTest [.received 80, .omitExpires, .received 20]).map
        TrafficEvent.bytesSent).sum = 0 := by
  decide

end Iperf3
