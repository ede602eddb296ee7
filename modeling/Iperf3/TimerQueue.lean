import Iperf3.IperfTime
import Iperf3.LinkedList
import Mathlib.Tactic

/-!
# The timer queue

The two static lists of the timer package, in a memory of nodes.  Active
timers form a doubly linked list, sorted by expiry time; cancelled ones are
kept on a list of free nodes for the next creation.  What a callback does to
the queue is part of the input: it may reset any timers that are active.
-/

namespace Iperf3

open LinkedList MachineInt

structure Timer (κ : Type*) where
  timerProc : κ
  usecs : ℤ
  periodic : Bool
  time : IperfTime
  prev : Option ℕ
  next : Option ℕ

/-- The list `allocated` is that of the allocator.  The list `live` records
the timers that were created and neither cancelled nor fired as one-shots, in
the order of their last insertion; no function reads it. -/
structure TimerQueue (κ : Type*) where
  timers : Option ℕ
  freeTimers : Option ℕ
  memory : ℕ → Timer κ
  allocated : List ℕ
  live : List ℕ

namespace TimerQueue

variable {κ : Type*}

/-- Before the first call both lists are empty. -/
def initial (memory : ℕ → Timer κ) : TimerQueue κ :=
  ⟨none, none, memory, [], []⟩

/-! ## The list of active timers -/

def write (t : ℕ) (timer : Timer κ) (q : TimerQueue κ) : TimerQueue κ :=
  { q with memory := Function.update q.memory t timer }

def setNext (t : ℕ) (target : Option ℕ) (q : TimerQueue κ) : TimerQueue κ :=
  q.write t { q.memory t with next := target }

def setPrev (t : ℕ) (target : Option ℕ) (q : TimerQueue κ) : TimerQueue κ :=
  q.write t { q.memory t with prev := target }

def setTime (t : ℕ) (time : IperfTime) (q : TimerQueue κ) : TimerQueue κ :=
  q.write t { q.memory t with time := time }

def expiresBefore (q : TimerQueue κ) (t t2 : ℕ) : Bool :=
  (q.memory t).time.compare (q.memory t2).time = .lt

/-- The walk to the insertion point.  A list of nodes is never longer than the
allocator's, so the bound on the number of steps is not reached. -/
def walk (t : ℕ) : ℕ → ℕ → Option ℕ → TimerQueue κ → TimerQueue κ
  | 0, _, _, q => q
  | _ + 1, t2prev, none, q =>
      ((q.setNext t2prev (some t)).setPrev t (some t2prev)).setNext t none
  | bound + 1, t2prev, some t2, q =>
      if q.expiresBefore t t2 then
        (((q.setNext t2prev (some t)).setPrev t (some t2prev)).setNext t (some t2)).setPrev
          t2 (some t)
      else walk t bound t2 (q.memory t2).next q

def listAdd (t : ℕ) (q : TimerQueue κ) : TimerQueue κ :=
  match q.timers with
  | none => { (q.setPrev t none).setNext t none with timers := some t }
  | some head =>
      if q.expiresBefore t head then
        { ((q.setPrev t none).setNext t (some head)).setPrev head (some t) with
          timers := some t }
      else q.walk t q.allocated.length head (q.memory head).next

def listRemove (t : ℕ) (q : TimerQueue κ) : TimerQueue κ :=
  let next := (q.memory t).next
  let q' :=
    match (q.memory t).prev with
    | none => { q with timers := next }
    | some prev => q.setNext prev next
  match next with
  | none => q'
  | some next => q'.setPrev next (q.memory t).prev

def listResort (t : ℕ) (q : TimerQueue κ) : TimerQueue κ :=
  (q.listRemove t).listAdd t

/-! ## The functions of the package -/

def schedule (time : IperfTime) (usecs : ℤ) : IperfTime :=
  time.addUsecs (uint64 usecs)

/-- A node from the free list, or else what `malloc` returns.  Memory that is
still allocated is not returned by it. -/
def takeNode (memory : Option ℕ) (q : TimerQueue κ) : TimerQueue κ × Option ℕ :=
  match q.freeTimers, memory with
  | some t, _ => ({ q with freeTimers := (q.memory t).next }, some t)
  | none, some t =>
      if t ∈ q.allocated then (q, none) else ({ q with allocated := t :: q.allocated }, some t)
  | none, none => (q, none)

def tmrCreate (now : IperfTime) (timerProc : κ) (usecs : ℤ) (periodic : Bool)
    (memory : Option ℕ) (q : TimerQueue κ) : TimerQueue κ × Option ℕ :=
  match q.takeNode memory with
  | (q, none) => (q, none)
  | (q, some t) =>
      let q := q.write t
        { q.memory t with
          timerProc := timerProc
          usecs := usecs
          periodic := periodic
          time := schedule now usecs }
      ({ q.listAdd t with live := q.live ++ [t] }, some t)

def tmrReset (now : IperfTime) (t : ℕ) (q : TimerQueue κ) : TimerQueue κ :=
  let q := q.setTime t (schedule now (q.memory t).usecs)
  { q.listResort t with live := q.live.erase t ++ [t] }

def tmrCancel (t : ℕ) (q : TimerQueue κ) : TimerQueue κ :=
  let q := q.listRemove t
  { ((q.setNext t q.freeTimers).setPrev t none) with
    freeTimers := some t
    live := q.live.erase t }

/-- A periodic timer that has fired is moved by one period. -/
def reschedule (t : ℕ) (q : TimerQueue κ) : TimerQueue κ :=
  let q := q.setTime t (schedule (q.memory t).time (q.memory t).usecs)
  { q.listResort t with live := q.live.erase t ++ [t] }

/-- The resets that a callback makes, of timers that are active then. -/
def callback (resets : List (IperfTime × ℕ)) (q : TimerQueue κ) : TimerQueue κ :=
  resets.foldl (fun q (now, t) => if t ∈ q.live then q.tmrReset now t else q) q

/-- What the loop does with an expired timer. -/
def fire (t : ℕ) (resets : List (IperfTime × ℕ)) (q : TimerQueue κ) : TimerQueue κ :=
  let q := q.callback resets
  if (q.memory t).periodic then q.reschedule t else q.tmrCancel t

/-- The loop, with the resets of each of its callbacks; it is cut off before
the first callback for which none are given. -/
def runLoop (now : IperfTime) :
    List (List (IperfTime × ℕ)) → Option ℕ → TimerQueue κ → TimerQueue κ
  | resets :: callbacks, some t, q =>
      if (q.memory t).time.compare now = .gt then q
      else runLoop now callbacks (q.memory t).next (q.fire t resets)
  | _, _, q => q

def tmrRun (now : IperfTime) (callbacks : List (List (IperfTime × ℕ)))
    (q : TimerQueue κ) : TimerQueue κ :=
  q.runLoop now callbacks q.timers

/-- Free nodes are given back one by one; again the bound is not reached. -/
def freeLoop : ℕ → TimerQueue κ → TimerQueue κ
  | 0, q => q
  | bound + 1, q =>
      match q.freeTimers with
      | none => q
      | some t =>
          freeLoop bound
            { q with
              freeTimers := (q.memory t).next
              allocated := q.allocated.erase t }

def tmrCleanup (q : TimerQueue κ) : TimerQueue κ :=
  q.freeLoop q.allocated.length

def cancelLoop : ℕ → TimerQueue κ → TimerQueue κ
  | 0, q => q
  | bound + 1, q =>
      match q.timers with
      | none => q
      | some t => cancelLoop bound (q.tmrCancel t)

def tmrDestroy (q : TimerQueue κ) : TimerQueue κ :=
  (q.cancelLoop q.allocated.length).tmrCleanup

/-! ## Sequences of calls -/

inductive Call (κ : Type*) where
  | create (now : IperfTime) (timerProc : κ) (usecs : ℤ) (periodic : Bool)
      (memory : Option ℕ)
  | reset (now : IperfTime) (t : ℕ)
  | cancel (t : ℕ)
  | run (now : IperfTime) (callbacks : List (List (IperfTime × ℕ)))
  | cleanup
  | destroy

/-- Only active timers are reset and cancelled. -/
def call (q : TimerQueue κ) : Call κ → TimerQueue κ
  | .create now timerProc usecs periodic memory =>
      (q.tmrCreate now timerProc usecs periodic memory).1
  | .reset now t => if t ∈ q.live then q.tmrReset now t else q
  | .cancel t => if t ∈ q.live then q.tmrCancel t else q
  | .run now callbacks => q.tmrRun now callbacks
  | .cleanup => q.tmrCleanup
  | .destroy => q.tmrDestroy

end TimerQueue

end Iperf3
