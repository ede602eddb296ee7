import Iperf3.ReceiveTimeout
import Iperf3.TimerFirings
import Mathlib.Tactic

/-!
# The timeout and the run agree

`tmr_timeout` takes an absolute difference of clock values and says on which
side of `now` it lies, `tmr_run` compares.  Both look at the head of the
list, which is the first timer to expire, and every expiry that a call stores
has less than a million of microseconds, whatever the clock reports.
-/

namespace Iperf3

def Timeval.Normal (timeout : Timeval) : Prop :=
  0 ≤ timeout.tvSec ∧ 0 ≤ timeout.tvUsec ∧ timeout.tvUsec < 1000000

namespace TimerQueue

open MachineInt

variable {κ : Type*} {q q' q'' : TimerQueue κ} {now run : IperfTime}

/-! ## Stored expiries -/

theorem schedule_normal (time : IperfTime) (usecs : ℤ) : (schedule time usecs).Normal :=
  time.addUsecs_normal (uint64 usecs)

/-- The expiries of live timers are those from before or have been computed. -/
def Rescheduled (q q' : TimerQueue κ) : Prop :=
  ∀ t ∈ q'.live, (q'.memory t).time.Normal ∨
    t ∈ q.live ∧ (q'.memory t).time = (q.memory t).time

theorem Rescheduled.refl (q : TimerQueue κ) : Rescheduled q q :=
  fun _ ht => Or.inr ⟨ht, rfl⟩

theorem Rescheduled.trans (h : Rescheduled q q') (h' : Rescheduled q' q'') :
    Rescheduled q q'' := by
  intro t ht
  rcases h' t ht with hnormal | ⟨hlive, htime⟩
  · exact Or.inl hnormal
  · rw [htime]
    exact h t hlive

theorem NormalTimes.rescheduled (hnormal : q.NormalTimes) (h : Rescheduled q q') :
    q'.NormalTimes := by
  intro t ht
  rcases h t ht with hnew | ⟨hlive, htime⟩
  · exact hnew
  · rw [htime]
    exact hnormal t hlive

theorem rescheduled_tmrCreate
    (now : IperfTime) (timerProc : κ) (usecs : ℤ) (periodic : Bool) (memory : Option ℕ)
    (q : TimerQueue κ) :
    Rescheduled q (q.tmrCreate now timerProc usecs periodic memory).1 := by
  have hmemory : ∀ {q1 : TimerQueue κ} {node : Option ℕ},
      q.takeNode memory = (q1, node) → q1.memory = q.memory := by
    intro q1 node htaken
    unfold takeNode at htaken
    split at htaken
    · cases htaken
      rfl
    · split_ifs at htaken <;> cases htaken <;> rfl
    · cases htaken
      rfl
  unfold tmrCreate
  split
  · rename_i q1 htaken
    intro u hu
    rw [takeNode_live htaken] at hu
    exact Or.inr ⟨hu, by rw [hmemory htaken]⟩
  · rename_i q1 t htaken
    intro u hu
    have htime := (content_eq (content_listAdd t u (q1.write t
      { q1.memory t with
        timerProc := timerProc
        usecs := usecs
        periodic := periodic
        time := schedule now usecs }))).1
    simp only
    rw [htime]
    by_cases hut : u = t
    · subst hut
      refine Or.inl ?_
      simpa [write] using schedule_normal now usecs
    · refine Or.inr ⟨?_, ?_⟩
      · have hlive : u ∈ q1.live := by simpa [write, hut] using hu
        rwa [takeNode_live htaken] at hlive
      · simp [write, Function.update_of_ne hut, hmemory htaken]

/-- A timer is given a new expiry and put in its place. -/
theorem rescheduled_resort (t : ℕ) (time : IperfTime) (usecs : ℤ) (q : TimerQueue κ) :
    Rescheduled q
      { (q.setTime t (schedule time usecs)).listResort t with live := q.live.erase t ++ [t] } := by
  intro u hu
  have htime : (((q.setTime t (schedule time usecs)).listResort t).memory u).time =
      ((q.setTime t (schedule time usecs)).memory u).time := by
    apply (content_eq _).1
    unfold listResort
    rw [content_listAdd, content_listRemove]
  simp only
  rw [htime]
  by_cases hut : u = t
  · subst hut
    refine Or.inl ?_
    simpa [setTime, write] using schedule_normal time usecs
  · refine Or.inr ⟨?_, by simp [setTime, write, Function.update_of_ne hut]⟩
    have hlive : u ∈ q.live.erase t := by simpa [hut] using hu
    exact List.mem_of_mem_erase hlive

theorem rescheduled_tmrReset (now : IperfTime) (t : ℕ) (q : TimerQueue κ) :
    Rescheduled q (q.tmrReset now t) :=
  rescheduled_resort t now (q.memory t).usecs q

theorem rescheduled_tmrCancel (t : ℕ) (q : TimerQueue κ) : Rescheduled q (q.tmrCancel t) := by
  intro u hu
  rw [tmrCancel_live] at hu
  exact Or.inr ⟨List.mem_of_mem_erase hu, (content_eq (content_tmrCancel t u q)).1⟩

theorem rescheduled_callback (resets : List (IperfTime × ℕ)) (q : TimerQueue κ) :
    Rescheduled q (q.callback resets) := by
  induction resets generalizing q with
  | nil => exact Rescheduled.refl q
  | cons reset resets ih =>
      have hfirst : Rescheduled q (if reset.2 ∈ q.live then q.tmrReset reset.1 reset.2 else q) := by
        split_ifs
        · exact rescheduled_tmrReset reset.1 reset.2 q
        · exact Rescheduled.refl q
      exact hfirst.trans (ih _)

theorem rescheduled_fire (t : ℕ) (resets : List (IperfTime × ℕ)) (q : TimerQueue κ) :
    Rescheduled q (q.fire t resets) := by
  apply (rescheduled_callback resets q).trans
  unfold fire
  dsimp only
  split_ifs
  · exact rescheduled_resort t _ _ _
  · exact rescheduled_tmrCancel t _

theorem rescheduled_runLoop
    (now : IperfTime) (callbacks : List (List (IperfTime × ℕ))) (current : Option ℕ)
    (q : TimerQueue κ) : Rescheduled q (q.runLoop now callbacks current) := by
  induction callbacks generalizing q current with
  | nil =>
      unfold runLoop
      exact Rescheduled.refl q
  | cons resets callbacks ih =>
      cases current with
      | none =>
          unfold runLoop
          exact Rescheduled.refl q
      | some t =>
          unfold runLoop
          split_ifs
          · exact Rescheduled.refl q
          · exact (rescheduled_fire t resets q).trans (ih _ _)

theorem rescheduled_freeLoop (bound : ℕ) (q : TimerQueue κ) :
    Rescheduled q (q.freeLoop bound) := by
  induction bound generalizing q with
  | zero => exact Rescheduled.refl q
  | succ bound ih =>
      unfold freeLoop
      split
      · exact Rescheduled.refl q
      · exact Rescheduled.trans (fun u hu => Or.inr ⟨hu, rfl⟩) (ih _)

theorem rescheduled_cancelLoop (bound : ℕ) (q : TimerQueue κ) :
    Rescheduled q (q.cancelLoop bound) := by
  induction bound generalizing q with
  | zero => exact Rescheduled.refl q
  | succ bound ih =>
      unfold cancelLoop
      split
      · exact Rescheduled.refl q
      · rename_i t _
        exact (rescheduled_tmrCancel t q).trans (ih _)

theorem rescheduled_call (q : TimerQueue κ) (call : Call κ) : Rescheduled q (q.call call) := by
  cases call with
  | create now timerProc usecs periodic memory =>
      exact rescheduled_tmrCreate now timerProc usecs periodic memory q
  | reset now t =>
      show Rescheduled q (if t ∈ q.live then q.tmrReset now t else q)
      split_ifs
      · exact rescheduled_tmrReset now t q
      · exact Rescheduled.refl q
  | cancel t =>
      show Rescheduled q (if t ∈ q.live then q.tmrCancel t else q)
      split_ifs
      · exact rescheduled_tmrCancel t q
      · exact Rescheduled.refl q
  | run now callbacks => exact rescheduled_runLoop now callbacks q.timers q
  | cleanup => exact rescheduled_freeLoop _ q
  | destroy => exact (rescheduled_cancelLoop _ q).trans (rescheduled_freeLoop _ _)

theorem normalTimes_of_calls (memory : ℕ → Timer κ) (calls : List (Call κ)) :
    NormalTimes (calls.foldl TimerQueue.call (initial memory)) := by
  have hrun : ∀ q : TimerQueue κ, q.NormalTimes →
      NormalTimes (calls.foldl TimerQueue.call q) := by
    induction calls with
    | nil => exact fun q h => h
    | cons call calls ih => exact fun q h => ih _ (h.rescheduled (rescheduled_call q call))
  apply hrun
  intro t ht
  cases ht

/-! ## The callbacks of a run -/

/-- The timers whose callbacks the loop calls, in that order. -/
def called (now : IperfTime) :
    List (List (IperfTime × ℕ)) → Option ℕ → TimerQueue κ → List ℕ
  | resets :: callbacks, some t, q =>
      if (q.memory t).time.compare now = .gt then []
      else t :: called now callbacks (q.memory t).next (q.fire t resets)
  | _, _, _ => []

theorem run_of_later
    {head : ℕ} (hhead : q.timers = some head) (hlater : ¬ Due run (q.memory head).time)
    (callbacks : List (List (IperfTime × ℕ))) :
    called run callbacks q.timers q = [] ∧ q.tmrRun run callbacks = q := by
  unfold Due at hlater
  rw [Ne, not_not] at hlater
  unfold tmrRun
  rw [hhead]
  cases callbacks with
  | nil => exact ⟨rfl, rfl⟩
  | cons resets callbacks => exact ⟨if_pos hlater, if_pos hlater⟩

theorem called_of_due
    {head : ℕ} (hhead : q.timers = some head) (hdue : Due run (q.memory head).time)
    {callbacks : List (List (IperfTime × ℕ))} (hcallbacks : callbacks ≠ []) :
    called run callbacks q.timers q ≠ [] := by
  rw [hhead]
  cases callbacks with
  | nil => exact absurd rfl hcallbacks
  | cons resets callbacks =>
      unfold called
      rw [if_neg hdue]
      exact List.cons_ne_nil _ _

/-! ## Agreement -/

theorem tmrTimeout_normal {timeout : Timeval} (h : q.tmrTimeout now = some timeout) :
    timeout.Normal := by
  obtain ⟨head, -, rfl⟩ := Option.map_eq_some_iff.mp h
  unfold Timeval.Normal
  simp only
  omega

/-- No active timer has expired before `now`. -/
def NoneOverdue (now : IperfTime) (q : TimerQueue κ) : Prop :=
  ∀ t ∈ q.live, now.inUsecs ≤ (q.memory t).time.inUsecs

/-- What `tmr_timeout` says of the active timers and of `tmr_run`. -/
structure TimeoutAgrees (now : IperfTime) (q : TimerQueue κ) (timeout : Timeval) : Prop where
  normal : timeout.Normal
  least : IsLeast {wait : ℤ | ∃ t ∈ q.live,
    wait = max 0 ((q.memory t).time.inUsecs - now.inUsecs : ℤ)} timeout.inUsecs
  earlier : NoneOverdue now q → ∀ run : IperfTime, run.Normal →
    (run.inUsecs : ℤ) < now.inUsecs + timeout.inUsecs →
      ∀ callbacks, called run callbacks q.timers q = [] ∧ q.tmrRun run callbacks = q
  later : ∀ run : IperfTime, run.Normal → now.inUsecs + timeout.inUsecs ≤ (run.inUsecs : ℤ) →
    ∀ callbacks, callbacks ≠ [] → called run callbacks q.timers q ≠ []

theorem InOrder.timeoutAgrees
    (h : q.InOrder) (hnormal : q.NormalTimes) (hnow : now.Normal) {timeout : Timeval}
    (htimeout : q.tmrTimeout now = some timeout) : TimeoutAgrees now q timeout := by
  obtain ⟨head, hhead, -⟩ := Option.map_eq_some_iff.mp htimeout
  obtain ⟨hlive, hfirst⟩ : head ∈ q.live ∧
      ∀ t ∈ q.live, q.untilExpiry now head ≤ q.untilExpiry now t :=
    h.first_expires hnormal hhead
  have husecs : timeout.inUsecs = q.untilExpiry now head := by
    obtain ⟨timeout', htimeout', husecs⟩ := tmrTimeout_inUsecs hhead (hnormal head hlive) hnow
    rw [htimeout] at htimeout'
    cases htimeout'
    exact husecs
  have hwait : ∀ t, max 0 ((q.memory t).time.inUsecs - now.inUsecs : ℤ) =
      (q.untilExpiry now t : ℤ) := by
    intro t
    unfold untilExpiry
    omega
  have hdue : ∀ run : IperfTime, run.Normal →
      (Due run (q.memory head).time ↔ (q.memory head).time.inUsecs ≤ run.inUsecs) := by
    intro run hrun
    rw [due_iff, ← not_lt, IperfTime.key_lt_iff hrun (hnormal head hlive), not_lt]
  refine ⟨tmrTimeout_normal htimeout, ⟨⟨head, hlive, ?_⟩, ?_⟩, ?_, ?_⟩
  · rw [hwait, husecs]
  · rintro wait ⟨t, ht, rfl⟩
    rw [hwait, husecs]
    exact Int.ofNat_le.mpr (hfirst t ht)
  · intro hnone run hrun hearlier
    have hfuture := hnone head hlive
    apply run_of_later hhead
    rw [hdue run hrun, not_le]
    unfold untilExpiry at husecs
    omega
  · intro run hrun hlater callbacks hcallbacks
    refine called_of_due hhead ((hdue run hrun).mpr ?_) hcallbacks
    unfold untilExpiry at husecs
    omega

/-- After any calls there is a timeout exactly if a timer is active.  It is the
shortest time to an expiry; a run before its end does nothing unless a timer
was overdue already, and a run from its end on fires a timer. -/
theorem timeout_and_run_agree
    (memory : ℕ → Timer κ) (calls : List (Call κ)) (hnow : now.Normal) :
    let q := calls.foldl TimerQueue.call (initial memory)
    (q.tmrTimeout now = none ↔ q.live = []) ∧
      ∀ timeout, q.tmrTimeout now = some timeout → TimeoutAgrees now q timeout := by
  intro q
  have hordered : q.InOrder := timers_in_order memory calls
  have hnormal : q.NormalTimes := normalTimes_of_calls memory calls
  constructor
  · rw [← hordered.timers_eq_none_iff]
    unfold tmrTimeout
    exact Option.map_eq_none_iff
  · exact fun timeout htimeout => hordered.timeoutAgrees hnormal hnow htimeout

def fiveSecondCalls : List (Call Unit) :=
  [.create (IperfTime.ofCounters 10 0) () 5000000 true (some 0)]

def anyMemory : ℕ → Timer Unit :=
  fun _ => ⟨(), 0, false, IperfTime.ofCounters 0 0, none, none⟩

theorem timeout_and_run_agree_five_seconds :
    let q := fiveSecondCalls.foldl TimerQueue.call (initial anyMemory)
    (q.tmrTimeout (IperfTime.ofCounters 12 0) = none ↔ q.live = []) ∧
      ∀ timeout, q.tmrTimeout (IperfTime.ofCounters 12 0) = some timeout →
        TimeoutAgrees (IperfTime.ofCounters 12 0) q timeout :=
  timeout_and_run_agree anyMemory fiveSecondCalls (by decide)

/-- At 20 seconds a timer that expired at 15 gives a timeout of zero, and a
run at 17 seconds, before `now` and the timeout, fires it and moves it. -/
theorem run_before_timeout_fires :
    let q := fiveSecondCalls.foldl TimerQueue.call (initial anyMemory)
    (IperfTime.ofCounters 20 0).Normal ∧ (IperfTime.ofCounters 17 0).Normal ∧
      (q.tmrTimeout (IperfTime.ofCounters 20 0)).map Timeval.inUsecs = some 0 ∧
      (IperfTime.ofCounters 17 0).inUsecs < (IperfTime.ofCounters 20 0).inUsecs ∧
      called (IperfTime.ofCounters 17 0) [[]] q.timers q = [0] ∧
      ((q.tmrRun (IperfTime.ofCounters 17 0) [[]]).memory 0).time =
        IperfTime.ofCounters 20 0 := by
  decide

end TimerQueue

end Iperf3
