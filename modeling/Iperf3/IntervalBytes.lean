import Iperf3.TestModel
import Mathlib.Tactic

/-!
# Interval bytes between worker and reporter

A worker adds every transfer first to the stream's total and then to its
interval counter; the statistics callback of the main thread reads the
interval counter, records the value and later stores zero.  Each access to a
counter is one step, and the two threads move in any order.
-/

namespace Iperf3

/-- Where the main thread is in its pass over the stream. -/
inductive Reporter where
  | idle
  | read (bytesTransferred : ℕ)
  | recorded
  | clearedReceived
  deriving DecidableEq, Repr

/-- The worker holds a transfer that is not yet in the interval counter. -/
structure StreamThreads where
  stream : Stream
  worker : Option ℕ
  reporter : Reporter
  intervals : List ℕ

namespace StreamThreads

/-- The counters of the stream's own direction. -/
def total (s : StreamThreads) : ℕ :=
  if s.stream.sender then s.stream.result.bytesSent else s.stream.result.bytesReceived

def thisInterval (s : StreamThreads) : ℕ :=
  if s.stream.sender then s.stream.result.bytesSentThisInterval
  else s.stream.result.bytesReceivedThisInterval

inductive Move where
  | worker (r : ℕ)
  | reporter

def addTotal (r : ℕ) (sp : Stream) : Stream :=
  if sp.sender then
    { sp with result := { sp.result with bytesSent := sp.result.bytesSent + r } }
  else
    { sp with result := { sp.result with bytesReceived := sp.result.bytesReceived + r } }

def addThisInterval (r : ℕ) (sp : Stream) : Stream :=
  if sp.sender then
    { sp with result :=
        { sp.result with bytesSentThisInterval := sp.result.bytesSentThisInterval + r } }
  else
    { sp with result :=
        { sp.result with bytesReceivedThisInterval := sp.result.bytesReceivedThisInterval + r } }

/-- A worker that is not in the middle of a transfer begins one. -/
def moveWorker (r : ℕ) (s : StreamThreads) : StreamThreads :=
  match s.worker with
  | none => { s with stream := addTotal r s.stream, worker := some r }
  | some r => { s with stream := addThisInterval r s.stream, worker := none }

def moveReporter (s : StreamThreads) : StreamThreads :=
  match s.reporter with
  | .idle => { s with reporter := .read s.thisInterval }
  | .read bytesTransferred =>
      { s with reporter := .recorded, intervals := s.intervals ++ [bytesTransferred] }
  | .recorded =>
      { s with
        reporter := .clearedReceived
        stream := { s.stream with result :=
          { s.stream.result with bytesReceivedThisInterval := 0 } } }
  | .clearedReceived =>
      { s with
        reporter := .idle
        stream := { s.stream with result :=
          { s.stream.result with bytesSentThisInterval := 0 } } }

def move (s : StreamThreads) : Move → StreamThreads
  | .worker r => s.moveWorker r
  | .reporter => s.moveReporter

def run (s : StreamThreads) (moves : List Move) : StreamThreads :=
  moves.foldl move s

/-- A new stream, before its worker starts. -/
def initial (sender : Bool) (buffer : List UInt8) : StreamThreads :=
  ⟨iperfNewStream sender buffer, none, .idle, []⟩

/-- Neither thread is in the middle of its pass. -/
def Quiescent (s : StreamThreads) : Prop :=
  s.worker = none ∧ s.reporter = .idle

/-- Between the read of the interval counter and the store of zero. -/
def inWindow (s : StreamThreads) : Bool :=
  match s.reporter with
  | .idle => false
  | .read _ | .recorded => true
  | .clearedReceived => s.stream.sender

/-- The bytes that the next move adds to a counter that is about to be
cleared. -/
def lostBy (s : StreamThreads) : Move → ℕ
  | .worker _ => if s.inWindow then s.worker.getD 0 else 0
  | .reporter => 0

/-- No bytes are added between a read and the store of zero that follows it. -/
def Undisturbed (s : StreamThreads) : List Move → Prop
  | [] => True
  | m :: moves => s.lostBy m = 0 ∧ Undisturbed (s.move m) moves

def lost (s : StreamThreads) : List Move → ℕ
  | [] => 0
  | m :: moves => s.lostBy m + lost (s.move m) moves

theorem undisturbed_iff (s : StreamThreads) (moves : List Move) :
    s.Undisturbed moves ↔ s.lost moves = 0 := by
  induction moves generalizing s with
  | nil => simp [Undisturbed, lost]
  | cons m moves ih => simp [Undisturbed, lost, ih]

/-- The bytes that the records and the counters account for: during a window
the value that was read stands for the interval counter. -/
def accounted (s : StreamThreads) : ℕ :=
  s.intervals.sum + s.worker.getD 0 +
    match s.reporter with
    | .idle => s.thisInterval
    | .read bytesTransferred => bytesTransferred
    | .recorded => 0
    | .clearedReceived => if s.stream.sender then 0 else s.thisInterval

theorem accounted_move (s : StreamThreads) (m : Move) :
    (s.move m).accounted + s.total + s.lostBy m = s.accounted + (s.move m).total := by
  obtain ⟨sp, worker, reporter, intervals⟩ := s
  cases m with
  | worker r =>
      cases worker with
      | none =>
          cases hsender : sp.sender <;> cases reporter <;>
            simp [move, moveWorker, addTotal, accounted, total, thisInterval, lostBy, inWindow,
              hsender] <;> omega
      | some r =>
          cases hsender : sp.sender <;> cases reporter <;>
            simp [move, moveWorker, addThisInterval, accounted, total, thisInterval, lostBy,
              inWindow, hsender] <;> omega
  | reporter =>
      cases hsender : sp.sender <;> cases reporter <;>
        simp [move, moveReporter, accounted, total, thisInterval, lostBy, hsender] <;> omega

theorem accounted_run (s : StreamThreads) (moves : List Move) :
    (s.run moves).accounted + s.total + s.lost moves = s.accounted + (s.run moves).total := by
  induction moves generalizing s with
  | nil => rfl
  | cons m moves ih =>
      have hstep := accounted_move s m
      have hrest := ih (s.move m)
      have hrun : s.run (m :: moves) = (s.move m).run moves := rfl
      rw [hrun]
      unfold lost
      omega

/-- With both threads quiescent, the recorded intervals and the current one
add up to the stream's total exactly if nothing was added in a window. -/
theorem interval_bytes_complete_iff
    (sender : Bool) (buffer : List UInt8) (moves : List Move)
    (hquiet : ((initial sender buffer).run moves).Quiescent) :
    ((initial sender buffer).run moves).intervals.sum +
        ((initial sender buffer).run moves).thisInterval =
      ((initial sender buffer).run moves).total ↔
    (initial sender buffer).Undisturbed moves := by
  have hrun := accounted_run (initial sender buffer) moves
  have hstart : (initial sender buffer).accounted = 0 ∧ (initial sender buffer).total = 0 := by
    cases sender <;> exact ⟨rfl, rfl⟩
  obtain ⟨hworker, hreporter⟩ := hquiet
  have haccounted : ((initial sender buffer).run moves).accounted =
      ((initial sender buffer).run moves).intervals.sum +
        ((initial sender buffer).run moves).thisInterval := by
    unfold accounted
    rw [hworker, hreporter]
    rfl
  rw [undisturbed_iff]
  rw [hstart.1, hstart.2, haccounted] at hrun
  omega

/-- A transfer before the callback and one after it. -/
def separateMoves : List Move :=
  [.worker 5, .worker 5, .reporter, .reporter, .reporter, .reporter, .worker 7, .worker 7]

theorem interval_bytes_complete_separate :
    ((initial true []).run separateMoves).Quiescent ∧
      ((initial true []).run separateMoves).intervals.sum +
          ((initial true []).run separateMoves).thisInterval =
        ((initial true []).run separateMoves).total := by
  have hquiet : ((initial true []).run separateMoves).Quiescent := ⟨rfl, rfl⟩
  have hundisturbed : (initial true []).Undisturbed separateMoves := by
    simp [Undisturbed, separateMoves, lostBy, inWindow, move, moveWorker, moveReporter, initial]
  exact ⟨hquiet, (interval_bytes_complete_iff true [] separateMoves hquiet).mpr hundisturbed⟩

/-- The second transfer falls between the read and the store of zero. -/
theorem interval_bytes_lost :
    ((initial true []).run [.worker 5, .worker 5, .reporter, .worker 7, .worker 7,
        .reporter, .reporter, .reporter]).Quiescent ∧
      ((initial true []).run [.worker 5, .worker 5, .reporter, .worker 7, .worker 7,
          .reporter, .reporter, .reporter]).intervals.sum +
        ((initial true []).run [.worker 5, .worker 5, .reporter, .worker 7, .worker 7,
          .reporter, .reporter, .reporter]).thisInterval = 5 ∧
      ((initial true []).run [.worker 5, .worker 5, .reporter, .worker 7, .worker 7,
        .reporter, .reporter, .reporter]).total = 12 :=
  ⟨⟨rfl, rfl⟩, rfl, rfl⟩

end StreamThreads

end Iperf3
