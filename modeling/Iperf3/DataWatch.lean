import Iperf3.ReceiveTimeout
import Mathlib.Tactic

/-!
# The timeout for data that does not come

Once in a pass of the main loop the block counter of the workers is compared
with the one of the last progress, and progress is recorded with the clock
reading that the pass holds: the one before `select`, or a later one if
`select` has timed out.  When the server has created the workers it starts from
the blocks and the time of that moment.  The workers count blocks between any
two steps.
-/

namespace Iperf3

inductive SelectResult where
  | ready
  | interrupted
  | timedOut
  | failed
  deriving DecidableEq, Repr

/-- How the descriptors that are ready are handled. -/
inductive Handling where
  | goesOn
  | startsWorkers
  | fails
  deriving DecidableEq, Repr

/-- Where the loop is in its pass, with the clock reading of the pass and
whether `select` has found descriptors ready. -/
inductive PassPhase where
  | head
  | waiting (now : IperfTime)
  | late
  | judging (now : IperfTime)
  | progress (now : IperfTime) (ready : Bool)
  | recording (now : IperfTime) (ready : Bool)
  | handling
  | restarting
  | raised (now : IperfTime)
  | left
  deriving DecidableEq, Repr

/-- The variables of the loop; `received` lists the times of all blocks. -/
structure DataWatch where
  phase : PassPhase
  lastReceiveTime : IperfTime
  lastReceiveBlocks : ℕ
  blocksReceived : ℕ
  received : List IperfTime
  deriving Repr

structure WatchSettings where
  role : Role
  idleTimeout : ℤ
  rcvTimeoutUs : ℤ

inductive WatchEvent where
  | block
  | main (result : SelectResult) (state : TestState) (mode : Mode) (handling : Handling)
  deriving DecidableEq

/-- An event and the time on the clock when it happens. -/
abbrev Moment : Type := IperfTime × WatchEvent

namespace DataWatch

def initial (now : IperfTime) : DataWatch :=
  ⟨.head, now, 0, 0, []⟩

/-- The tests behind a `select` that has timed out. -/
def judge (w : WatchSettings) (now : IperfTime) (state : TestState) (mode : Mode)
    (s : DataWatch) : PassPhase :=
  let tUsecs : ℤ := (now.diff s.lastReceiveTime).inUsecs
  let idle := tUsecs > w.rcvTimeoutUs ∧ s.blocksReceived = s.lastReceiveBlocks
  if now.past s.lastReceiveTime then .progress now false
  else if w.role = .server ∧ state = .iperfStart then
    if w.idleTimeout > 0 ∧ tUsecs ≥ w.idleTimeout * secToUs then .left else .progress now false
  else if w.role = .server ∧ mode = .sender then .progress now false
  else if idle then .raised now
  else .progress now false

/-- The server reads the clock again after every time-out, and the client only
while it watches for data. -/
def readsAgain (w : WatchSettings) (state : TestState) : Bool :=
  w.role = .server || (state = .testRunning && decide (w.rcvTimeoutUs > 0))

/-- What follows the look at the blocks. -/
def afterProgress (ready : Bool) : PassPhase :=
  if ready then .handling else .head

/-- The end of a pass.  Only the server takes the blocks of the moment when it
has created the workers, and then the time. -/
def handle (w : WatchSettings) (handling : Handling) (s : DataWatch) : DataWatch :=
  match handling with
  | .goesOn => { s with phase := .head }
  | .startsWorkers =>
      if w.role = .server then
        { s with phase := .restarting, lastReceiveBlocks := s.blocksReceived }
      else { s with phase := .head }
  | .fails => { s with phase := .left }

def stepMain (w : WatchSettings) (now : IperfTime) (result : SelectResult) (state : TestState)
    (mode : Mode) (handling : Handling) (s : DataWatch) : DataWatch :=
  match s.phase with
  | .head => { s with phase := if state = .iperfDone then .left else .waiting now }
  | .waiting before =>
      match result with
      | .ready => { s with phase := .progress before true }
      | .interrupted => { s with phase := .progress before false }
      | .failed => { s with phase := .left }
      | .timedOut =>
          { s with phase := if readsAgain w state then .late else .progress before false }
  | .late => { s with phase := .judging now }
  | .judging read => { s with phase := s.judge w read state mode }
  | .progress read ready =>
      { s with phase :=
          if s.blocksReceived > s.lastReceiveBlocks then .recording read ready
          else afterProgress ready }
  | .recording read ready =>
      { s with
        phase := afterProgress ready
        lastReceiveBlocks := s.blocksReceived
        lastReceiveTime := read }
  | .handling => s.handle w handling
  | .restarting => { s with phase := .head, lastReceiveTime := now }
  | .raised _ | .left => s

/-- After the run there are no steps any more. -/
def step (w : WatchSettings) (s : DataWatch) (m : Moment) : DataWatch :=
  match m.2, s.phase with
  | _, .raised _ | _, .left => s
  | .block, _ =>
      { s with blocksReceived := s.blocksReceived + 1, received := s.received ++ [m.1] }
  | .main result state mode handling, _ => s.stepMain w m.1 result state mode handling

def run (w : WatchSettings) (s : DataWatch) (moments : List Moment) : DataWatch :=
  moments.foldl (step w) s

/-- Blocks are recorded with a clock reading not earlier than they are. -/
def RecordsInTime (now : IperfTime) (s : DataWatch) : Prop :=
  match s.phase with
  | .recording read _ => ∀ r ∈ s.received, r.inUsecs ≤ read.inUsecs
  | .restarting => ∀ r ∈ s.received.take s.lastReceiveBlocks, r.inUsecs ≤ now.inUsecs
  | _ => True

instance (now : IperfTime) (s : DataWatch) : Decidable (s.RecordsInTime now) := by
  unfold RecordsInTime
  split <;> infer_instance

def Timely (w : WatchSettings) : DataWatch → List Moment → Prop
  | _, [] => True
  | s, m :: moments => (m.2 ≠ .block → s.RecordsInTime m.1) ∧ Timely w (s.step w m) moments

instance decidableTimely (w : WatchSettings) :
    ∀ (s : DataWatch) (moments : List Moment), Decidable (Timely w s moments)
  | _, [] => inferInstanceAs (Decidable True)
  | s, m :: moments =>
      have := decidableTimely w (s.step w m) moments
      inferInstanceAs (Decidable (_ ∧ _))

/-! ## The invariant -/

def reading : PassPhase → Option IperfTime
  | .waiting now | .judging now | .progress now _ | .recording now _ | .raised now => some now
  | .head | .late | .handling | .restarting | .left => none

/-- Every block that has been recorded came by the time of the record, and the
timeout is raised only when all of them lie far enough back. -/
structure Sound (w : WatchSettings) (s : DataWatch) : Prop where
  counted : s.blocksReceived = s.received.length
  normal : s.lastReceiveTime.Normal
  readingNormal : ∀ now, reading s.phase = some now → now.Normal
  bound : s.lastReceiveBlocks ≤ s.received.length
  recorded : s.phase ≠ .restarting → ∀ r ∈ s.received.take s.lastReceiveBlocks,
    r.inUsecs ≤ s.lastReceiveTime.inUsecs
  raised : ∀ now, s.phase = .raised now →
    ∀ r ∈ s.received, (r.inUsecs : ℤ) + w.rcvTimeoutUs < now.inUsecs

section Steps

variable {w : WatchSettings} {s : DataWatch} {now : IperfTime}

theorem reading_afterProgress (ready : Bool) : reading (afterProgress ready) = none := by
  cases ready <;> rfl

theorem afterProgress_ne (ready : Bool) :
    (∀ now, afterProgress ready ≠ .raised now) ∧ afterProgress ready ≠ .restarting := by
  cases ready <;> simp [afterProgress]

theorem sound_initial (w : WatchSettings) (hnow : now.Normal) : Sound w (initial now) :=
  ⟨rfl, hnow, by simp [initial, reading], le_rfl, by simp [initial], by simp [initial]⟩

theorem Sound.move
    (h : Sound w s) (hphase : s.phase ≠ .restarting) {phase : PassPhase}
    (hreading : ∀ now, reading phase = some now → now.Normal)
    (hraised : ∀ now, phase ≠ .raised now) : Sound w { s with phase := phase } where
  counted := h.counted
  normal := h.normal
  readingNormal := hreading
  bound := h.bound
  recorded := fun _ => h.recorded hphase
  raised := fun now hphase => absurd hphase (hraised now)

theorem Sound.block
    (h : Sound w s) (hrun : ∀ now, s.phase ≠ .raised now) (now : IperfTime) :
    Sound w { s with
      blocksReceived := s.blocksReceived + 1
      received := s.received ++ [now] } where
  counted := by
    rw [h.counted, List.length_append, List.length_singleton]
  normal := h.normal
  readingNormal := h.readingNormal
  bound := by
    have hbound := h.bound
    rw [List.length_append]
    exact hbound.trans (Nat.le_add_right _ _)
  recorded := by
    intro hphase
    change ∀ r ∈ (s.received ++ [now]).take s.lastReceiveBlocks, _
    rw [List.take_append_of_le_length h.bound]
    exact h.recorded hphase
  raised := fun now hphase => absurd hphase (hrun now)

/-- The timeout is raised at a reading later than the last record by more than
`rcv_timeout`, and with no new block. -/
theorem judge_eq_raised {state : TestState} {mode : Mode} {t : IperfTime}
    (h : s.judge w now state mode = .raised t) :
    t = now ∧ now.past s.lastReceiveTime = false ∧
      ((now.diff s.lastReceiveTime).inUsecs : ℤ) > w.rcvTimeoutUs ∧
      s.blocksReceived = s.lastReceiveBlocks := by
  unfold judge at h
  simp only at h
  split_ifs at h with hpast hstart hidle hsender hraise
  exact ⟨(PassPhase.raised.inj h).symm, Bool.eq_false_iff.mpr hpast, hraise⟩

theorem reading_judge {state : TestState} {mode : Mode} {t : IperfTime}
    (h : reading (s.judge w now state mode) = some t) : t = now := by
  unfold judge at h
  simp only at h
  split_ifs at h <;> cases h <;> rfl

theorem Sound.judge
    (h : Sound w s) (hphase : s.phase ≠ .restarting) (hnow : now.Normal) (state : TestState)
    (mode : Mode) : Sound w { s with phase := s.judge w now state mode } where
  counted := h.counted
  normal := h.normal
  readingNormal := by
    intro t ht
    rw [reading_judge ht]
    exact hnow
  bound := h.bound
  recorded := fun _ => h.recorded hphase
  raised := by
    intro t ht r hr
    obtain ⟨rfl, hpast, hlong, hblocks⟩ := judge_eq_raised ht
    have hall : s.received.take s.lastReceiveBlocks = s.received := by
      rw [← hblocks, h.counted, List.take_length]
    have hle := h.recorded hphase r (by rwa [hall])
    have hdiff := IperfTime.inUsecs_diff hnow h.normal
    rw [Bool.eq_false_iff, Ne, IperfTime.past_iff hnow h.normal, not_le] at hpast
    rw [abs_of_nonneg (by omega)] at hdiff
    omega

theorem Sound.record
    (h : Sound w s) (hnow : now.Normal) (htimely : ∀ r ∈ s.received, r.inUsecs ≤ now.inUsecs)
    (ready : Bool) :
    Sound w { s with
      phase := afterProgress ready
      lastReceiveBlocks := s.blocksReceived
      lastReceiveTime := now } where
  counted := h.counted
  normal := hnow
  readingNormal := fun t ht => by simp [reading_afterProgress] at ht
  bound := h.counted.le
  recorded := fun _ r hr => htimely r (List.mem_of_mem_take hr)
  raised := fun t ht => absurd ht ((afterProgress_ne ready).1 t)

theorem Sound.handle (h : Sound w s) (hphase : s.phase ≠ .restarting) (handling : Handling) :
    Sound w (s.handle w handling) := by
  unfold DataWatch.handle
  cases handling with
  | goesOn => exact h.move hphase nofun nofun
  | fails => exact h.move hphase nofun nofun
  | startsWorkers =>
      split_ifs
      · exact ⟨h.counted, h.normal, nofun, h.counted.le, fun hnot => absurd rfl hnot, nofun⟩
      · exact h.move hphase nofun nofun

/-- The time is taken after the blocks. -/
theorem Sound.restart
    (h : Sound w s) (hnow : now.Normal)
    (htimely : ∀ r ∈ s.received.take s.lastReceiveBlocks, r.inUsecs ≤ now.inUsecs) :
    Sound w { s with phase := .head, lastReceiveTime := now } :=
  ⟨h.counted, hnow, nofun, h.bound, fun _ => htimely, nofun⟩

theorem Sound.stepMain
    (h : Sound w s) (htimely : s.RecordsInTime now) (hnow : now.Normal) (result : SelectResult)
    (state : TestState) (mode : Mode) (handling : Handling) :
    Sound w (s.stepMain w now result state mode handling) := by
  have hnormal := h.readingNormal
  unfold DataWatch.RecordsInTime at htimely
  unfold DataWatch.stepMain
  cases hphase : s.phase with
  | head =>
      apply h.move (by simp [hphase])
      · intro t ht
        split_ifs at ht
        · cases ht
        · cases ht
          exact hnow
      · intro t ht
        split_ifs at ht
  | waiting before =>
      have hbefore : before.Normal := hnormal before (by rw [hphase]; rfl)
      have hrunning : s.phase ≠ .restarting := by simp [hphase]
      cases result with
      | ready => exact h.move hrunning (fun t ht => by cases ht; exact hbefore) nofun
      | interrupted => exact h.move hrunning (fun t ht => by cases ht; exact hbefore) nofun
      | failed => exact h.move hrunning nofun nofun
      | timedOut =>
          apply h.move hrunning
          · intro t ht
            split_ifs at ht
            · cases ht
            · cases ht
              exact hbefore
          · intro t ht
            split_ifs at ht
  | late => exact h.move (by simp [hphase]) (fun t ht => by cases ht; exact hnow) nofun
  | judging read =>
      exact h.judge (by simp [hphase]) (hnormal read (by rw [hphase]; rfl)) state mode
  | progress read ready =>
      have hread : read.Normal := hnormal read (by rw [hphase]; rfl)
      apply h.move (by simp [hphase])
      · intro t ht
        split_ifs at ht
        · cases ht
          exact hread
        · simp [reading_afterProgress] at ht
      · intro t ht
        split_ifs at ht
        exact (afterProgress_ne ready).1 t ht
  | recording read ready =>
      exact h.record (hnormal read (by rw [hphase]; rfl))
        (by simpa only [hphase] using htimely) ready
  | handling => exact h.handle (by simp [hphase]) handling
  | restarting => exact h.restart hnow (by simpa only [hphase] using htimely)
  | raised read => exact h
  | left => exact h

theorem Sound.step
    (h : Sound w s) {m : Moment} (htimely : m.2 ≠ .block → s.RecordsInTime m.1)
    (hnormal : m.1.Normal) : Sound w (s.step w m) := by
  obtain ⟨now, event⟩ := m
  unfold DataWatch.step
  split
  · exact h
  · exact h
  · rename_i hraised _
    exact h.block (fun now hphase => hraised now hphase) now
  · rename_i hmain _ _
    exact h.stepMain (htimely (by rw [hmain]; nofun)) hnormal _ _ _ _

theorem Sound.run
    (h : Sound w s) (moments : List Moment) (hnormal : ∀ m ∈ moments, m.1.Normal)
    (htimely : Timely w s moments) : Sound w (s.run w moments) := by
  induction moments generalizing s with
  | nil => exact h
  | cons m moments ih =>
      obtain ⟨hfirst, hrest⟩ := htimely
      exact ih (h.step hfirst (hnormal m List.mem_cons_self))
        (fun m' hm' => hnormal m' (List.mem_cons_of_mem _ hm')) hrest

end Steps

/-- In a run in which blocks are always recorded in time, a raised timeout
means that every block came more than `rcv_timeout` before. -/
theorem no_data_timeout_sound
    (w : WatchSettings) {start t : IperfTime} (hstart : start.Normal) (moments : List Moment)
    (hnormal : ∀ m ∈ moments, m.1.Normal) (htimely : Timely w (initial start) moments)
    (hraised : ((initial start).run w moments).phase = .raised t) :
    ∀ r ∈ ((initial start).run w moments).received,
      (r.inUsecs : ℤ) + w.rcvTimeoutUs < t.inUsecs :=
  ((sound_initial w hstart).run moments hnormal htimely).raised t hraised

/-- The next step of a receiving main loop during the test. -/
def mainStep (result : SelectResult) : WatchEvent :=
  .main result .testRunning .receiver .goesOn

def tenths (n : ℕ) : IperfTime :=
  IperfTime.ofCounters (n / 10 : ℕ) (n % 10 * 100000 : ℕ)

/-- The pass in which the workers are created.  Behind it the server takes the
time. -/
def firstPass (role : Role) : List Moment :=
  [(tenths 1000, .main .ready .createStreams .receiver .goesOn),
    (tenths 1000, .main .ready .createStreams .receiver .goesOn),
    (tenths 1000, .main .ready .createStreams .receiver .goesOn),
    (tenths 1000, .main .ready .createStreams .receiver .startsWorkers)] ++
  if role = .server then [(tenths 1000, mainStep .ready)] else []

/-- A block comes during a wait that times out, and none after it. -/
def silentPasses : List Moment :=
  firstPass .server ++
  [(tenths 1000, mainStep .ready), (tenths 1005, .block), (tenths 1010, mainStep .timedOut),
    (tenths 1010, mainStep .ready), (tenths 1010, mainStep .ready),
    (tenths 1010, mainStep .ready), (tenths 1010, mainStep .ready),
    (tenths 1010, mainStep .ready), (tenths 1035, mainStep .timedOut),
    (tenths 1035, mainStep .ready), (tenths 1035, mainStep .ready)]

theorem no_data_timeout_sound_silent :
    ((initial (tenths 1000)).run ⟨.server, 0, 2000000⟩ silentPasses).phase =
        .raised (tenths 1035) ∧
      tenths 1005 ∈ ((initial (tenths 1000)).run ⟨.server, 0, 2000000⟩ silentPasses).received ∧
      ((tenths 1005).inUsecs : ℤ) + 2000000 < (tenths 1035).inUsecs := by
  have htimely : Timely ⟨.server, 0, 2000000⟩ (initial (tenths 1000)) silentPasses := by
    decide +kernel
  refine ⟨by decide +kernel, by decide +kernel, ?_⟩
  exact no_data_timeout_sound ⟨.server, 0, 2000000⟩ (by decide) silentPasses (by decide +kernel)
    htimely (by decide +kernel) (tenths 1005) (by decide +kernel)

/-- A block comes just before the end of a wait that does not time out, and
the next wait is a short one. -/
def shortSilence (role : Role) : List Moment :=
  firstPass role ++
  [(tenths 1000, mainStep .ready), (tenths 1019, .block), (tenths 1019, mainStep .ready),
    (tenths 1019, mainStep .ready), (tenths 1019, mainStep .ready),
    (tenths 1019, mainStep .ready), (tenths 1019, mainStep .ready),
    (tenths 1021, mainStep .timedOut), (tenths 1021, mainStep .ready),
    (tenths 1021, mainStep .ready)]

/-- With a `rcv_timeout` of two seconds, a side gives up two tenths of a second
after a block, by a clock that does not go back. -/
def GivesUpEarly (role : Role) : Prop :=
  ((shortSilence role).map fun m => m.1.inUsecs).Pairwise (· ≤ ·) ∧
    ((initial (tenths 1000)).run ⟨role, 0, 2000000⟩ (shortSilence role)).phase =
        .raised (tenths 1021) ∧
      ((initial (tenths 1000)).run ⟨role, 0, 2000000⟩ (shortSilence role)).received =
        [tenths 1019]

theorem no_data_timeout_unsound : GivesUpEarly .server ∧ GivesUpEarly .client := by
  unfold GivesUpEarly
  decide +kernel

end DataWatch

end Iperf3
