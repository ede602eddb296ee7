import Iperf3.TestModel
import Iperf3.TimerOrder
import Mathlib.Tactic

/-!
# How long a receiving side waits

Both main loops wait in `select` until the first timer is due, and a side that
receives data also wakes up to see whether data still comes.  The minimum of
the bounds is formed in one variable, and what is waited for is in another.
-/

namespace Iperf3

structure Timeval where
  tvSec : ℤ
  tvUsec : ℤ
  deriving DecidableEq, Repr

def secToUs : ℤ := 1000000

def Timeval.inUsecs (timeout : Timeval) : ℤ :=
  timeout.tvSec * secToUs + timeout.tvUsec

namespace TimerQueue

variable {κ : Type*} {q : TimerQueue κ} {now : IperfTime}

def tmrTimeout (now : IperfTime) (q : TimerQueue κ) : Option Timeval :=
  q.timers.map fun head =>
    let time := (q.memory head).time
    let usecs : ℕ := if time.past now then 0 else (time.diff now).inUsecs
    ⟨(usecs / 1000000 : ℕ), (usecs % 1000000 : ℕ)⟩

def untilExpiry (now : IperfTime) (q : TimerQueue κ) (t : ℕ) : ℕ :=
  (q.memory t).time.inUsecs - now.inUsecs

def NormalTimes (q : TimerQueue κ) : Prop :=
  ∀ t ∈ q.live, (q.memory t).time.Normal

theorem InOrder.first_expires
    (h : q.InOrder) (hnormal : q.NormalTimes) {head : ℕ} (hhead : q.timers = some head) :
    head ∈ q.live ∧ ∀ t ∈ q.live, q.untilExpiry now head ≤ q.untilExpiry now t := by
  have hlive := h.head_live head hhead
  refine ⟨hlive, fun t ht => ?_⟩
  obtain ⟨active, free, hrep⟩ := h
  obtain ⟨rest, rfl⟩ := mem_of_linked_head hrep.linked hhead
  have hle : q.time head ≤ q.time t := by
    rcases List.mem_cons.mp (hrep.members.mem_iff.mpr ht) with rfl | hrest
    · exact le_rfl
    · exact (List.pairwise_cons.mp hrep.sorted).1 t hrest
  have husecs : (q.memory head).time.inUsecs ≤ (q.memory t).time.inUsecs := by
    rw [← not_lt, ← IperfTime.key_lt_iff (hnormal t ht) (hnormal head hlive), not_lt]
    exact hle
  unfold untilExpiry
  omega

theorem InOrder.timers_eq_none_iff (h : q.InOrder) : q.timers = none ↔ q.live = [] := by
  obtain ⟨active, free, hrep⟩ := h
  obtain ⟨last, hsegment⟩ := hrep.linked
  rcases hsegment.first_cases with ⟨rfl, hnone⟩ | ⟨a, l, rfl, hsome⟩
  · exact ⟨fun _ => List.nil_perm.mp hrep.members, fun _ => hnone⟩
  · rw [hsome]
    constructor
    · intro hnone
      cases hnone
    · intro hnil
      have hlength := hrep.members.length_eq
      rw [hnil] at hlength
      cases hlength

theorem tmrTimeout_inUsecs
    {head : ℕ} (hhead : q.timers = some head) (htime : (q.memory head).time.Normal)
    (hnow : now.Normal) :
    ∃ timeout, q.tmrTimeout now = some timeout ∧ timeout.inUsecs = q.untilExpiry now head := by
  have hpast := IperfTime.past_iff htime hnow
  have hdiff := IperfTime.inUsecs_diff htime hnow
  unfold tmrTimeout
  rw [hhead]
  refine ⟨_, rfl, ?_⟩
  unfold Timeval.inUsecs secToUs untilExpiry
  simp only
  split_ifs with h
  · rw [hpast] at h
    omega
  · rw [hpast, not_le] at h
    rw [abs_of_nonneg (by omega)] at hdiff
    omega

end TimerQueue

/-! ## The wait -/

def rcvTimeoutUs (rcvTimeout : IperfTime) : ℤ :=
  rcvTimeout.secs * secToUs + rcvTimeout.usecs

/-- The wait of a side that receives; the cap of one second is put on the
copy that is compared with `rcv_timeout`. -/
def usedTimeout (rcvTimeout : IperfTime) (rcvTimeoutUs : ℤ) (timeout : Option Timeval) :
    Timeval :=
  let timeoutUs := (timeout.map fun timeout => timeout.tvSec * secToUs + timeout.tvUsec).getD (-1)
  let timeoutUs := if timeoutUs > secToUs then secToUs else timeoutUs
  let received : Timeval := ⟨rcvTimeout.secs, rcvTimeout.usecs⟩
  if timeoutUs < 0 ∨ timeoutUs > rcvTimeoutUs then received else timeout.getD received

def serverTimeout (state : TestState) (mode : Mode) (idleTimeout : ℤ) (rcvTimeout : IperfTime)
    (timeout : Option Timeval) : Option Timeval :=
  if state = .iperfStart then
    if timeout = none ∧ idleTimeout > 0 then some ⟨idleTimeout, 0⟩ else timeout
  else if mode ≠ .sender then some (usedTimeout rcvTimeout (rcvTimeoutUs rcvTimeout) timeout)
  else timeout

def clientRcvTimeoutUs (mode : Mode) (rcvTimeout : IperfTime) : ℤ :=
  if mode ≠ .sender then rcvTimeoutUs rcvTimeout else 0

def clientTimeout (state : TestState) (mode : Mode) (rcvTimeout : IperfTime)
    (timeout : Option Timeval) : Option Timeval :=
  if state = .testRunning ∧ clientRcvTimeoutUs mode rcvTimeout > 0 then
    some (usedTimeout rcvTimeout (clientRcvTimeoutUs mode rcvTimeout) timeout)
  else timeout

section Wait

variable {κ : Type*} {q : TimerQueue κ} {now rcvTimeout : IperfTime}

/-- The wait ends by the time of the first timer, by `rcv_timeout`, and within
a second if there are timers. -/
structure WaitBounded (now : IperfTime) (q : TimerQueue κ) (rcvTimeout : IperfTime)
    (wait : Timeval) : Prop where
  timers : ∀ t ∈ q.live, wait.inUsecs ≤ q.untilExpiry now t
  received : wait.inUsecs ≤ rcvTimeoutUs rcvTimeout
  second : q.live ≠ [] → wait.inUsecs ≤ secToUs

/-- There is no timer, or one is due within a second, or `rcv_timeout` is less
than a second. -/
def WaitCapped (now : IperfTime) (q : TimerQueue κ) (rcvTimeout : IperfTime) : Prop :=
  q.live = [] ∨ (∃ t ∈ q.live, (q.untilExpiry now t : ℤ) ≤ secToUs) ∨
    rcvTimeoutUs rcvTimeout < secToUs

section First

variable {head : ℕ} (hlive : head ∈ q.live)
  (hfirst : ∀ t ∈ q.live, q.untilExpiry now head ≤ q.untilExpiry now t)

include hlive hfirst

theorem waitCapped_iff (rcvTimeout : IperfTime) :
    WaitCapped now q rcvTimeout ↔
      (q.untilExpiry now head : ℤ) ≤ secToUs ∨ rcvTimeoutUs rcvTimeout < secToUs := by
  unfold WaitCapped
  constructor
  · rintro (hnil | ⟨t, ht, hsoon⟩ | hshort)
    · exact absurd hnil (List.ne_nil_of_mem hlive)
    · have hle := hfirst t ht
      exact Or.inl (by omega)
    · exact Or.inr hshort
  · rintro (hsoon | hshort)
    · exact Or.inr (Or.inl ⟨head, hlive, hsoon⟩)
    · exact Or.inr (Or.inr hshort)

theorem waitBounded_iff (rcvTimeout : IperfTime) (wait : Timeval) :
    WaitBounded now q rcvTimeout wait ↔
      wait.inUsecs ≤ q.untilExpiry now head ∧ wait.inUsecs ≤ rcvTimeoutUs rcvTimeout ∧
        wait.inUsecs ≤ secToUs := by
  constructor
  · intro hwait
    exact ⟨hwait.timers head hlive, hwait.received, hwait.second (List.ne_nil_of_mem hlive)⟩
  · rintro ⟨htimers, hrcv, hsecond⟩
    refine ⟨fun t ht => ?_, hrcv, fun _ => hsecond⟩
    have hle := hfirst t ht
    omega

end First

theorem usedTimeout_bounded_iff
    (h : q.InOrder) (hnormal : q.NormalTimes) (hnow : now.Normal) (rcvTimeout : IperfTime) :
    WaitBounded now q rcvTimeout
        (usedTimeout rcvTimeout (rcvTimeoutUs rcvTimeout) (q.tmrTimeout now)) ↔
      WaitCapped now q rcvTimeout := by
  have hnonneg : 0 ≤ rcvTimeoutUs rcvTimeout := by
    unfold rcvTimeoutUs secToUs
    omega
  have hreceived : (⟨rcvTimeout.secs, rcvTimeout.usecs⟩ : Timeval).inUsecs =
      rcvTimeoutUs rcvTimeout := rfl
  cases hhead : q.timers with
  | none =>
      have hlive := h.timers_eq_none_iff.mp hhead
      have hnone : q.tmrTimeout now = none := by
        unfold TimerQueue.tmrTimeout
        rw [hhead]
        rfl
      rw [hnone]
      refine iff_of_true ⟨?_, hreceived.le, fun hsome => absurd hlive hsome⟩ (Or.inl hlive)
      simp [hlive]
  | some head =>
      obtain ⟨hlive, hfirst⟩ : head ∈ q.live ∧
          ∀ t ∈ q.live, q.untilExpiry now head ≤ q.untilExpiry now t :=
        h.first_expires hnormal hhead
      obtain ⟨timeout, htimeout, husecs⟩ :=
        TimerQueue.tmrTimeout_inUsecs hhead (hnormal head hlive) hnow
      rw [waitCapped_iff hlive hfirst, waitBounded_iff hlive hfirst, htimeout]
      unfold usedTimeout
      have hcopy : timeout.tvSec * secToUs + timeout.tvUsec = q.untilExpiry now head := husecs
      simp only [Option.map_some, Option.getD_some, hcopy]
      unfold secToUs
      split_ifs with hcap hshort hshort
      · rw [hreceived]
        omega
      · rw [husecs]
        omega
      · rw [hreceived]
        omega
      · rw [husecs]
        omega

/-- A receiving side waits no longer than its bounds exactly when there is no
timer, or one is due within a second, or `rcv_timeout` is below a second. -/
theorem receive_wait_bounded_iff
    (h : q.InOrder) (hnormal : q.NormalTimes) (hnow : now.Normal) (rcvTimeout : IperfTime)
    (mode : Mode) :
    (∀ state idleTimeout, state ≠ .iperfStart → mode ≠ .sender →
        ((∃ wait, serverTimeout state mode idleTimeout rcvTimeout (q.tmrTimeout now) = some wait ∧
            WaitBounded now q rcvTimeout wait) ↔
          WaitCapped now q rcvTimeout)) ∧
      (clientRcvTimeoutUs mode rcvTimeout > 0 →
        ((∃ wait, clientTimeout .testRunning mode rcvTimeout (q.tmrTimeout now) = some wait ∧
            WaitBounded now q rcvTimeout wait) ↔
          WaitCapped now q rcvTimeout)) := by
  have hiff := usedTimeout_bounded_iff h hnormal hnow rcvTimeout
  constructor
  · intro state idleTimeout hstate hmode
    unfold serverTimeout
    rw [if_neg hstate, if_pos hmode]
    simpa using hiff
  · intro hpos
    have hmode : clientRcvTimeoutUs mode rcvTimeout = rcvTimeoutUs rcvTimeout := by
      unfold clientRcvTimeoutUs at hpos ⊢
      split_ifs at hpos ⊢
      · rfl
      · exact absurd hpos (lt_irrefl 0)
    unfold clientTimeout
    rw [if_pos ⟨rfl, hpos⟩, hmode]
    simpa using hiff

def fiveSecondQueue : TimerQueue Unit :=
  ((TimerQueue.initial fun _ => ⟨(), 0, false, IperfTime.ofCounters 0 0, none, none⟩).tmrCreate
    (IperfTime.ofCounters 10 0) () 5000000 true (some 0)).1

theorem fiveSecondQueue_inOrder : fiveSecondQueue.InOrder :=
  (TimerQueue.inOrder_initial _).tmrCreate _ _ _ _ _

theorem fiveSecondQueue_normal : fiveSecondQueue.NormalTimes := by
  intro t ht
  obtain rfl : t = 0 := List.mem_singleton.mp ht
  decide

theorem receive_wait_bounded_before_timer :
    ∃ wait, clientTimeout .testRunning .receiver (IperfTime.ofCounters 120 0)
        (fiveSecondQueue.tmrTimeout (IperfTime.ofCounters 14 500000)) = some wait ∧
      WaitBounded (IperfTime.ofCounters 14 500000) fiveSecondQueue (IperfTime.ofCounters 120 0)
        wait := by
  have hnow : (IperfTime.ofCounters 14 500000).Normal := by decide
  have hiff := (receive_wait_bounded_iff fiveSecondQueue_inOrder fiveSecondQueue_normal hnow
    (IperfTime.ofCounters 120 0) .receiver).2 (by decide)
  exact hiff.mpr (Or.inr (Or.inl ⟨0, List.mem_singleton.mpr rfl, by decide⟩))

/-- With five seconds to the timer and a `rcv_timeout` of two seconds, both
sides wait for five seconds. -/
theorem receive_wait_passes_bounds :
    (serverTimeout .testRunning .receiver 0 (IperfTime.ofCounters 2 0)
        (fiveSecondQueue.tmrTimeout (IperfTime.ofCounters 10 0))).map Timeval.inUsecs =
        some 5000000 ∧
      (clientTimeout .testRunning .receiver (IperfTime.ofCounters 2 0)
        (fiveSecondQueue.tmrTimeout (IperfTime.ofCounters 10 0))).map Timeval.inUsecs =
        some 5000000 ∧
      rcvTimeoutUs (IperfTime.ofCounters 2 0) = 2000000 := by
  decide

end Wait

end Iperf3
