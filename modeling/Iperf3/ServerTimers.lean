import Iperf3.StrangerIsolation
import Iperf3.Sequence
import Iperf3.TimerOrder
import Mathlib.Tactic

/-!
# The timers of the server

The test has four members for timers.  They are set when a test starts,
cleared by the callbacks of the two timers that fire once, and cancelled by
the cleanup and by the reset.  The calls of a run are replayed here on these
members and on the queue of the timer package.
-/

namespace Iperf3

open LinkedList TimerQueue

namespace TimerQueue

variable {κ : Type*} {q : TimerQueue κ}

/-- The callback of a node, and whether it fires more than once. -/
def kind (q : TimerQueue κ) (t : ℕ) : κ × Bool :=
  ((q.memory t).timerProc, (q.memory t).periodic)

@[simp] theorem kind_setNext (t u : ℕ) (target : Option ℕ) :
    (q.setNext u target).kind t = q.kind t := by
  by_cases h : t = u
  · simp [kind, setNext, write, h]
  · simp [kind, setNext, write, Function.update_of_ne h]

@[simp] theorem kind_setPrev (t u : ℕ) (target : Option ℕ) :
    (q.setPrev u target).kind t = q.kind t := by
  by_cases h : t = u
  · simp [kind, setPrev, write, h]
  · simp [kind, setPrev, write, Function.update_of_ne h]

@[simp] theorem kind_setTime (t u : ℕ) (time : IperfTime) :
    (q.setTime u time).kind t = q.kind t := by
  by_cases h : t = u
  · simp [kind, setTime, write, h]
  · simp [kind, setTime, write, Function.update_of_ne h]

theorem kind_walk (t u : ℕ) (bound t2prev : ℕ) (t2 : Option ℕ) :
    (q.walk u bound t2prev t2).kind t = q.kind t := by
  induction bound generalizing t2prev t2 with
  | zero => rfl
  | succ bound ih =>
      cases t2 with
      | none => simp [walk]
      | some t2 =>
          unfold walk
          split_ifs
          · simp
          · exact ih t2 _

theorem kind_listAdd (t u : ℕ) : (q.listAdd u).kind t = q.kind t := by
  unfold listAdd
  split
  · exact (kind_setNext ..).trans (kind_setPrev ..)
  · split_ifs
    · exact (kind_setPrev ..).trans ((kind_setNext ..).trans (kind_setPrev ..))
    · exact kind_walk ..

theorem kind_listRemove (t u : ℕ) : (q.listRemove u).kind t = q.kind t := by
  unfold listRemove
  cases (q.memory u).prev <;> cases (q.memory u).next <;> simp <;> rfl

theorem kind_move (t u : ℕ) (time : IperfTime) :
    ((q.setTime u time).listResort u).kind t = q.kind t := by
  unfold listResort
  rw [kind_listAdd, kind_listRemove, kind_setTime]

theorem kind_tmrCancel (t u : ℕ) : (q.tmrCancel u).kind t = q.kind t := by
  have hremoved := kind_listRemove (q := q) t u
  exact (kind_setPrev ..).trans ((kind_setNext ..).trans hremoved)

theorem InOrder.live_nodup (h : q.InOrder) : q.live.Nodup := by
  obtain ⟨active, free, hrep⟩ := h
  exact hrep.live_nodup

theorem kind_takeNode {memory : Option ℕ} {q' : TimerQueue κ} {node : Option ℕ}
    (h : q.takeNode memory = (q', node)) (t : ℕ) : q'.kind t = q.kind t := by
  unfold takeNode at h
  split at h
  · cases h
    rfl
  · split_ifs at h <;> cases h <;> rfl
  · cases h
    rfl

theorem takeNode_fresh {node : ℕ} (hnode : node ∉ q.allocated) :
    ∃ q' t, q.takeNode (some node) = (q', some t) := by
  unfold takeNode
  cases q.freeTimers with
  | some t => exact ⟨_, _, rfl⟩
  | none => exact ⟨_, _, if_neg hnode⟩

theorem tmrCreate_spec
    (h : q.InOrder) (now : IperfTime) (timerProc : κ) (usecs : ℤ) (periodic : Bool)
    {node : ℕ} (hnode : node ∉ q.allocated) :
    ∃ q' t, q.tmrCreate now timerProc usecs periodic (some node) = (q', some t) ∧
      t ∉ q.live ∧ q'.live = q.live ++ [t] ∧ q'.kind t = (timerProc, periodic) ∧
      ∀ u ≠ t, q'.kind u = q.kind u := by
  obtain ⟨taken, t, htaken⟩ := takeNode_fresh hnode
  obtain ⟨active, free, hrep⟩ := h
  obtain ⟨free', hdetached⟩ := hrep.takeNode htaken
  have hlive := takeNode_live htaken
  have hother : t ∉ q.live := by
    intro ht
    have hcons := List.nodup_cons.mp (show (t :: (active ++ free')).Nodup from hdetached.nodup)
    exact hcons.1 (List.mem_append_left free' (hrep.members.mem_iff.mpr ht))
  have hcreated : q.tmrCreate now timerProc usecs periodic (some node) =
      ({ (taken.write t
          { taken.memory t with
            timerProc := timerProc
            usecs := usecs
            periodic := periodic
            time := schedule now usecs }).listAdd t with
          live := taken.live ++ [t] }, some t) := by
    unfold tmrCreate
    rw [htaken]
    rfl
  refine ⟨_, t, hcreated, hother, by rw [hlive], ?_, ?_⟩
  · have hadded := kind_listAdd (q := taken.write t
      { taken.memory t with
        timerProc := timerProc
        usecs := usecs
        periodic := periodic
        time := schedule now usecs }) t t
    exact hadded.trans (by simp [kind, write])
  · intro u hu
    have hadded := kind_listAdd (q := taken.write t
      { taken.memory t with
        timerProc := timerProc
        usecs := usecs
        periodic := periodic
        time := schedule now usecs }) u t
    exact hadded.trans ((by simp [kind, write, Function.update_of_ne hu] :
      (taken.write t _).kind u = taken.kind u).trans (kind_takeNode htaken u))

end TimerQueue

/-! ## The members of the test -/

/-- The two timers of the reports fire again and again. -/
def ServerTimer.periodic : ServerTimer → Bool
  | .stats | .reporter => true
  | .duration | .omitPeriod => false

/-- What the timers depend on apart from the calls: the allocator, which does
not return memory in use, and the clock and the intervals at each call. -/
structure TimerEnv where
  malloc : List ℕ → ℕ
  fresh : ∀ allocated, malloc allocated ∉ allocated
  now : ℕ → IperfTime
  usecs : ℕ → ServerTimer → ℤ

/-- The timer members of the test and the queue.  The flag records that a
timer was cancelled or reset that was not active. -/
structure ServerTimers where
  queue : TimerQueue ServerTimer
  field : ServerTimer → Option ℕ
  misused : Bool

namespace ServerTimers

def initial (memory : ℕ → Timer ServerTimer) : ServerTimers :=
  ⟨TimerQueue.initial memory, fun _ => none, false⟩

def setField (f : ServerTimer) (t : Option ℕ) (x : ServerTimers) : ServerTimers :=
  { x with field := Function.update x.field f t }

def cancel (t : ℕ) (x : ServerTimers) : ServerTimers :=
  { x with
    queue := x.queue.tmrCancel t
    misused := x.misused || !decide (t ∈ x.queue.live) }

def restart (now : IperfTime) (t : ℕ) (x : ServerTimers) : ServerTimers :=
  { x with
    queue := x.queue.tmrReset now t
    misused := x.misused || !decide (t ∈ x.queue.live) }

/-- A timer that is cancelled by its owner. -/
def cancelField (f : ServerTimer) (x : ServerTimers) : ServerTimers :=
  match x.field f with
  | some t => (x.cancel t).setField f none
  | none => x

def restartField (now : IperfTime) (f : ServerTimer) (x : ServerTimers) : ServerTimers :=
  match x.field f with
  | some t => x.restart now t
  | none => x

def create (env : TimerEnv) (i : ℕ) (f : ServerTimer) (created : Bool) (x : ServerTimers) :
    ServerTimers :=
  if created then
    let r := x.queue.tmrCreate (env.now i) f (env.usecs i f) f.periodic
      (some (env.malloc x.queue.allocated))
    { x with queue := r.1 }.setField f r.2
  else x.setField f none

/-- What the callbacks do to timers. -/
def callback (now : IperfTime) (f : ServerTimer) (x : ServerTimers) : ServerTimers :=
  match f with
  | .duration => x.setField .duration none
  | .omitPeriod =>
      ((x.setField .omitPeriod none).restartField now .stats).restartField now .reporter
  | .stats | .reporter => x

/-- A timer with this callback expires, if there is one. -/
def expire (now : IperfTime) (f : ServerTimer) (x : ServerTimers) : ServerTimers :=
  match x.queue.live.find? fun t => (x.queue.kind t).1 = f with
  | some t =>
      let x := x.callback now f
      if (x.queue.kind t).2 then { x with queue := x.queue.reschedule t } else x.cancel t
  | none => x

def cleanup (x : ServerTimers) : ServerTimers :=
  (((x.cancelField .stats).cancelField .reporter).cancelField .omitPeriod).cancelField .duration

def reset (x : ServerTimers) : ServerTimers :=
  (((x.cancelField .omitPeriod).cancelField .duration).cancelField .stats).cancelField .reporter

def call (env : TimerEnv) (x : ServerTimers) : ServerCall × ℕ → ServerTimers
  | (.forgetTimer f, _) => x.setField f none
  | (.createTimer f created, i) => x.create env i f created
  | (.timerExpired f, i) => x.expire (env.now i) f
  | (.cleanup _, _) => x.cleanup
  | (.reset, _) => x.reset
  | _ => x

/-- The timers after these calls. -/
def replay (env : TimerEnv) (memory : ℕ → Timer ServerTimer) (calls : List ServerCall) :
    ServerTimers :=
  calls.zipIdx.foldl (call env) (initial memory)

theorem replay_append (env : TimerEnv) (memory : ℕ → Timer ServerTimer)
    (calls : List ServerCall) (c : ServerCall) :
    replay env memory (calls ++ [c]) = (replay env memory calls).call env (c, calls.length) := by
  simp [replay, List.zipIdx_append]

/-! ## Ownership -/

/-- Each member is empty or holds an active timer with its own callback, and
every active timer is held by a member. -/
structure Owned (x : ServerTimers) : Prop where
  inOrder : x.queue.InOrder
  active : ∀ f t, x.field f = some t → t ∈ x.queue.live ∧ x.queue.kind t = (f, f.periodic)
  referenced : ∀ t ∈ x.queue.live, ∃ f, x.field f = some t
  used : x.misused = false

variable {x : ServerTimers}

theorem Owned.eq_of_field (h : Owned x) {f g : ServerTimer} {t : ℕ}
    (hf : x.field f = some t) (hg : x.field g = some t) : f = g := by
  have hkinds := (h.active f t hf).2.symm.trans (h.active g t hg).2
  exact congrArg Prod.fst hkinds

/-- A timer is cancelled by its owner, or fires for the last time after its
owner has let go of it. -/
theorem Owned.cancel_field (h : Owned x) {f : ServerTimer} {t : ℕ} (hf : x.field f = some t) :
    Owned ((x.cancel t).setField f none) := by
  have hlive := (h.active f t hf).1
  have hnodup := h.inOrder.live_nodup
  refine ⟨h.inOrder.tmrCancel hlive, ?_, ?_, ?_⟩
  · intro g u hu
    by_cases hgf : g = f
    · subst hgf
      simp [setField] at hu
    · have hold : x.field g = some u := by
        simpa [setField, cancel, Function.update_of_ne hgf] using hu
      obtain ⟨hactive, hkind⟩ := h.active g u hold
      have hne : u ≠ t := by
        rintro rfl
        exact hgf (h.eq_of_field hold hf)
      constructor
      · show u ∈ (x.queue.tmrCancel t).live
        rw [tmrCancel_live]
        exact (List.mem_erase_of_ne hne).mpr hactive
      · exact (kind_tmrCancel u t).trans hkind
  · intro u hu
    have hmem : u ∈ x.queue.live.erase t := by
      rw [← tmrCancel_live]
      exact hu
    obtain ⟨hne, hactive⟩ := hnodup.mem_erase_iff.mp hmem
    obtain ⟨g, hg⟩ := h.referenced u hactive
    refine ⟨g, ?_⟩
    have hgf : g ≠ f := by
      rintro rfl
      exact hne (Option.some.inj (hg.symm.trans hf))
    simpa [setField, cancel, Function.update_of_ne hgf] using hg
  · simp [setField, cancel, h.used, hlive]

theorem Owned.cancelField (h : Owned x) (f : ServerTimer) : Owned (x.cancelField f) := by
  unfold ServerTimers.cancelField
  split
  · rename_i t hf
    exact h.cancel_field hf
  · exact h

@[simp] theorem cancelField_field (f g : ServerTimer) (x : ServerTimers) :
    (x.cancelField f).field g = if g = f then none else x.field g := by
  unfold cancelField
  split
  · simp [setField, cancel, Function.update_apply]
  · rename_i hnone
    split_ifs with hgf
    · rw [hgf, hnone]
    · rfl

theorem Owned.of_moved (h : Owned x) {q : TimerQueue ServerTimer} {misused : Bool}
    (hordered : q.InOrder) (hlive : ∀ t, t ∈ q.live ↔ t ∈ x.queue.live)
    (hkind : ∀ t, q.kind t = x.queue.kind t) (hmisused : misused = false) :
    Owned ⟨q, x.field, misused⟩ where
  inOrder := hordered
  active f t hf := ⟨(hlive t).mpr (h.active f t hf).1, (hkind t).trans (h.active f t hf).2⟩
  referenced t ht := h.referenced t ((hlive t).mp ht)
  used := hmisused

theorem mem_moved {live : List ℕ} {t : ℕ} (ht : t ∈ live) (u : ℕ) :
    u ∈ live.erase t ++ [t] ↔ u ∈ live := by
  by_cases hut : u = t
  · simp [hut, ht]
  · simp [List.mem_erase_of_ne hut, hut]

theorem Owned.restartField (h : Owned x) (now : IperfTime) (f : ServerTimer) :
    Owned (x.restartField now f) := by
  unfold ServerTimers.restartField
  split
  · rename_i t hf
    have hlive := (h.active f t hf).1
    apply h.of_moved (h.inOrder.tmrReset hlive now) (mem_moved hlive)
    · exact fun u => kind_move u t _
    · simp [h.used, hlive]
  · exact h

@[simp] theorem restartField_field (now : IperfTime) (f : ServerTimer) (x : ServerTimers) :
    (x.restartField now f).field = x.field := by
  unfold restartField
  split <;> rfl

theorem Owned.reschedule (h : Owned x) {t : ℕ} (ht : t ∈ x.queue.live) :
    Owned { x with queue := x.queue.reschedule t } :=
  h.of_moved (h.inOrder.reschedule ht) (mem_moved ht) (fun u => kind_move u t _) h.used

theorem restartField_setField {f g : ServerTimer} (hfg : f ≠ g) (now : IperfTime)
    (t : Option ℕ) (x : ServerTimers) :
    (x.setField g t).restartField now f = (x.restartField now f).setField g t := by
  unfold restartField
  have hsame : (x.setField g t).field f = x.field f := by
    simp [setField, Function.update_of_ne hfg]
  rw [hsame]
  split <;> rfl

theorem Owned.create (h : Owned x) (env : TimerEnv) (i : ℕ) {f : ServerTimer}
    (hnone : x.field f = none) (created : Bool) : Owned (x.create env i f created) := by
  unfold ServerTimers.create
  split_ifs
  · obtain ⟨q, t, hcreated, hnew, hlive, hkind, hother⟩ := tmrCreate_spec h.inOrder
      (env.now i) f (env.usecs i f) f.periodic (env.fresh x.queue.allocated)
    have hordered := h.inOrder.tmrCreate (env.now i) f (env.usecs i f) f.periodic
      (some (env.malloc x.queue.allocated))
    rw [hcreated] at hordered ⊢
    refine ⟨hordered, ?_, ?_, h.used⟩
    · intro g u hu
      by_cases hgf : g = f
      · subst hgf
        have htu : t = u := by simpa [setField] using hu
        subst htu
        exact ⟨by simp [setField, hlive], hkind⟩
      · have hold : x.field g = some u := by
          simpa [setField, Function.update_of_ne hgf] using hu
        obtain ⟨hactive, hown⟩ := h.active g u hold
        have hne : u ≠ t := by
          rintro rfl
          exact hnew hactive
        exact ⟨by simp [setField, hlive, hactive], (hother u hne).trans hown⟩
    · intro u hu
      have hmem : u ∈ x.queue.live ++ [t] := by
        rw [← hlive]
        exact hu
      rcases List.mem_append.mp hmem with hold | hsame
      · obtain ⟨g, hg⟩ := h.referenced u hold
        refine ⟨g, ?_⟩
        have hgf : g ≠ f := by
          rintro rfl
          rw [hnone] at hg
          cases hg
        simpa [setField, Function.update_of_ne hgf] using hg
      · refine ⟨f, ?_⟩
        simp [setField, List.mem_singleton.mp hsame]
  · have hsame : x.setField f none = x := by
      unfold setField
      rw [← hnone, Function.update_eq_self]
    rw [hsame]
    exact h

theorem Owned.expire (h : Owned x) (now : IperfTime) (f : ServerTimer) :
    Owned (x.expire now f) := by
  unfold ServerTimers.expire
  split
  · rename_i t hfound
    have hlive : t ∈ x.queue.live := List.mem_of_find?_eq_some hfound
    have hproc : (x.queue.kind t).1 = f := by simpa using List.find?_some hfound
    -- the timer that expires is the one that its owner holds
    have hfield : x.field f = some t := by
      obtain ⟨g, hg⟩ := h.referenced t hlive
      have hgf : g = f := by
        rw [(h.active g t hg).2] at hproc
        exact hproc
      rwa [hgf] at hg
    have hkind := (h.active f t hfield).2
    cases f with
    | duration =>
        have hfires : (x.queue.kind t).2 = false := by rw [hkind]; rfl
        show Owned (if (x.queue.kind t).2 then _ else (x.setField .duration none).cancel t)
        rw [hfires]
        exact h.cancel_field hfield
    | omitPeriod =>
        have hcallback : x.callback now .omitPeriod =
            ((x.restartField now .stats).restartField now .reporter).setField
              .omitPeriod none := by
          unfold callback
          rw [restartField_setField (by decide), restartField_setField (by decide)]
        have hrestarted := (h.restartField now .stats).restartField now .reporter
        have hheld : ((x.restartField now .stats).restartField now .reporter).field
            .omitPeriod = some t := by simpa using hfield
        have hfires : ((x.callback now .omitPeriod).queue.kind t).2 = false := by
          rw [hcallback]
          exact congrArg Prod.snd (hrestarted.active _ t hheld).2
        simp only [hfires]
        rw [hcallback]
        exact hrestarted.cancel_field hheld
    | stats =>
        have hrepeats : (x.queue.kind t).2 = true := by rw [hkind]; rfl
        show Owned (if (x.queue.kind t).2 then { x with queue := x.queue.reschedule t } else _)
        rw [hrepeats]
        exact h.reschedule hlive
    | reporter =>
        have hrepeats : (x.queue.kind t).2 = true := by rw [hkind]; rfl
        show Owned (if (x.queue.kind t).2 then { x with queue := x.queue.reschedule t } else _)
        rw [hrepeats]
        exact h.reschedule hlive
  · exact h

/-- No timer is held. -/
def Unset (x : ServerTimers) : Prop :=
  ∀ f, x.field f = none

theorem cleanup_unset (x : ServerTimers) : Unset x.cleanup := by
  intro f
  cases f <;> simp [cleanup]

theorem reset_unset (x : ServerTimers) : Unset x.reset := by
  intro f
  cases f <;> simp [reset]

theorem Owned.cleanup (h : Owned x) : Owned x.cleanup :=
  (((h.cancelField _).cancelField _).cancelField _).cancelField _

theorem Owned.reset (h : Owned x) : Owned x.reset :=
  (((h.cancelField _).cancelField _).cancelField _).cancelField _

end ServerTimers

/-! ## Runs -/

open ServerTimers

section Runs

variable (env : TimerEnv) (memory : ℕ → Timer ServerTimer)

/-- After every call the timers are owned. -/
def TimersOwned (calls : List ServerCall) : Prop :=
  calls |> Always fun before call => Owned (replay env memory (before ++ [call]))

/-- The timers after the calls so far. -/
def Server.timers (s : Server) : ServerTimers :=
  replay env memory s.calls

/-- A call that has nothing to do with timers. -/
def Timeless (call : ServerCall) : Prop :=
  ∀ (env : TimerEnv) (x : ServerTimers) (i : ℕ), x.call env (call, i) = x

variable {env memory} {s : Server}

theorem owned_initial (memory : ℕ → Timer ServerTimer) : Owned (ServerTimers.initial memory) where
  inOrder := inOrder_initial memory
  active f t hf := by cases hf
  referenced t ht := by cases ht
  used := rfl

theorem TimersOwned.owned {calls : List ServerCall} (h : TimersOwned env memory calls) :
    Owned (replay env memory calls) := by
  rcases List.eq_nil_or_concat calls with rfl | ⟨before, call, rfl⟩
  · exact owned_initial memory
  · rw [List.concat_eq_append] at h ⊢
    exact (always_append.mp h).2

theorem TimersOwned.log (h : TimersOwned env memory s.calls) {call : ServerCall}
    (hcall : ∀ i, Owned ((s.timers env memory).call env (call, i))) :
    TimersOwned env memory (s.log call).calls := by
  refine always_append.mpr ⟨h, ?_⟩
  rw [replay_append]
  exact hcall _

theorem TimersOwned.timeless (h : TimersOwned env memory s.calls) {call : ServerCall}
    (hcall : Timeless call) : TimersOwned env memory (s.log call).calls :=
  h.log fun i => by
    rw [hcall]
    exact h.owned

theorem timers_log (s : Server) (call : ServerCall) :
    (s.log call).timers env memory = (s.timers env memory).call env (call, s.calls.length) :=
  replay_append env memory s.calls call

theorem timers_timeless {call : ServerCall} (hcall : Timeless call) (s : Server) :
    (s.log call).timers env memory = s.timers env memory := by
  rw [timers_log, hcall]

theorem TimersOwned.withErrno (h : TimersOwned env memory s.calls) (code : IErrno) :
    TimersOwned env memory (s.withErrno code).calls :=
  have hcall : Timeless (.raised code) := fun _ _ _ => rfl
  TimersOwned.timeless (s := s) h hcall

theorem TimersOwned.cleanupServer (h : TimersOwned env memory s.calls) :
    TimersOwned env memory s.cleanupServer.calls :=
  have hcall : ∀ i, Owned ((s.timers env memory).call env (.cleanup s.reported, i)) :=
    fun _ => h.owned.cleanup
  TimersOwned.log (s := s) h hcall

theorem TimersOwned.setSendState (h : TimersOwned env memory s.calls) (sent : Bool)
    (state : TestState) : TimersOwned env memory (s.setSendState sent state).1.calls := by
  unfold Server.setSendState
  split_ifs
  · exact TimersOwned.timeless (s := s.enter state) h fun _ _ _ => rfl
  · exact TimersOwned.withErrno (s := s.enter state) h _
  · exact h

variable (env memory)

/-- What holds before each `select`: no timer is held before the test has
started. -/
structure Timed (s : Server) : Prop where
  owned : TimersOwned env memory s.calls
  unset : s.state = .iperfStart ∨ s.state = .createStreams → Unset (s.timers env memory)
  connected : s.state = .createStreams → s.ctrlSck = true

/-- A connected server in which these members are empty. -/
structure Clear (fields : List ServerTimer) (s : Server) : Prop where
  owned : TimersOwned env memory s.calls
  ctrlSck : s.ctrlSck = true
  unset : ∀ f ∈ fields, (s.timers env memory).field f = none

variable {env memory}

theorem Timed.of_left (h : TimersOwned env memory s.calls) (hstart : s.state ≠ .iperfStart)
    (hcreate : s.state ≠ .createStreams) : Timed env memory s where
  owned := h
  unset hstate := by
    rcases hstate with hstate | hstate
    · exact absurd hstate hstart
    · exact absurd hstate hcreate
  connected hstate := absurd hstate hcreate

theorem Timed.timeless (h : Timed env memory s) {call : ServerCall} (hcall : Timeless call) :
    Timed env memory (s.log call) where
  owned := h.owned.timeless hcall
  unset hstate := by
    rw [timers_timeless hcall]
    exact h.unset hstate
  connected := h.connected

theorem Timed.withErrno (h : Timed env memory s) (code : IErrno) :
    Timed env memory (s.withErrno code) := by
  have hlogged : Timed env memory (s.log (.raised code)) := h.timeless fun _ _ _ => rfl
  exact ⟨hlogged.owned, hlogged.unset, hlogged.connected⟩

theorem Timed.timerExpired (h : Timed env memory s) (f : ServerTimer) :
    Timed env memory (s.log (.timerExpired f)) where
  owned := h.owned.log fun i => h.owned.owned.expire _ f
  unset hstate g := by
    -- with no timer held there is none that could expire
    rw [timers_log]
    have hunset := h.unset hstate
    have hlive : (s.timers env memory).queue.live = [] := by
      apply List.eq_nil_iff_forall_not_mem.mpr
      intro t ht
      obtain ⟨f, hf⟩ := h.owned.owned.referenced t ht
      exact absurd ((hunset f).symm.trans hf) (by simp)
    have hsame : (s.timers env memory).call env (.timerExpired f, s.calls.length) =
        s.timers env memory := by
      simp [ServerTimers.call, ServerTimers.expire, hlive]
    rw [hsame]
    exact hunset g
  connected := h.connected

theorem Clear.timeless {fields : List ServerTimer} (h : Clear env memory fields s)
    {call : ServerCall} (hcall : Timeless call) : Clear env memory fields (s.log call) where
  owned := h.owned.timeless hcall
  ctrlSck := h.ctrlSck
  unset f hf := by
    rw [timers_timeless hcall]
    exact h.unset f hf

theorem Clear.enter {fields : List ServerTimer} (h : Clear env memory fields s)
    (state : TestState) : Clear env memory fields (s.enter state) :=
  ⟨h.owned, h.ctrlSck, h.unset⟩

def allTimers : List ServerTimer := [.duration, .stats, .reporter, .omitPeriod]

theorem mem_allTimers (f : ServerTimer) : f ∈ allTimers := by
  cases f <;> decide

theorem acceptClient_timed
    {b : Build} (accept : AcceptEnv) (h : Timed env memory s) (hstate : s.state = .iperfStart) :
    Triple (fun u : Server => u = s) (acceptClient b accept)
      (fun u => Timed env memory (setStreamNumbers u))
      (fun u => TimersOwned env memory u.calls) := by
  have hread : Triple (Clear env memory allTimers) (fun u => u.getParameters b accept.message)
      (Clear env memory allTimers) (fun u => TimersOwned env memory u.calls) := by
    have hkeeps : Keeps (Clear env memory allTimers)
        (fun u => u.getParameters b accept.message) :=
      getParameters_keeps (fun code u hu => hu.timeless fun _ _ _ => rfl)
        (fun t u hu => ⟨hu.owned, hu.ctrlSck, hu.unset⟩) accept.message
    exact (Triple.of_keeps hkeeps).weaken (fun _ hu => hu) (fun _ hu => hu) fun _ hu => hu.owned
  have htriple : Triple (fun u : Server => u = s) (acceptClient b accept)
      (fun u => Clear env memory allTimers u) (fun u => TimersOwned env memory u.calls) := by
    apply triple_acceptClient (M := Clear env memory allTimers) (N := Clear env memory allTimers)
      (L := Clear env memory allTimers) accept
    · rintro u rfl
      have htaken : Clear env memory allTimers { u with ctrlSck := true } :=
        ⟨h.owned, rfl, fun f _ => h.unset (Or.inl hstate) f⟩
      exact htaken.timeless fun _ _ _ => rfl
    · exact fun u hu => hu.ctrlSck
    · exact fun code u hu => hu.owned.withErrno code
    · exact fun cookie u hu => ⟨hu.owned, hu.ctrlSck, hu.unset⟩
    · exact fun u hu => (hu.enter _).timeless fun _ _ _ => rfl
    · exact fun u hu => (hu.enter .paramExchange).owned.withErrno _
    · exact hread
    · exact fun _ u hu => hu.timeless fun _ _ _ => rfl
    · exact fun _ u hu => hu.owned.timeless fun _ _ _ => rfl
    · exact fun _ _ => triple_protocolListen _ (fun u hu => hu.timeless fun _ _ _ => rfl)
        (fun code u hu => hu.owned.withErrno code)
    · exact fun u hu => ⟨hu.owned, hu.ctrlSck, hu.unset⟩
    · exact fun u hu => hu.ctrlSck
    · exact fun u hu => (hu.enter _).timeless fun _ _ _ => rfl
    · exact fun _ u hu => (hu.enter .createStreams).owned.withErrno _
    · exact fun _ u _ hu => hu.owned.withErrno _
  refine htriple.weaken (fun _ hu => hu) (fun u hu => ?_) (fun _ hu => hu)
  exact ⟨hu.owned, fun _ f => hu.unset f (mem_allTimers f), fun _ => hu.ctrlSck⟩

/-- The end of a test leaves the timers alone; they run until the cleanup. -/
theorem handleTestEnd_timed (message : MessageEnv) :
    Triple (fun u : Server => TimersOwned env memory u.calls ∧ u.ctrlSck = true)
      (handleTestEnd message)
      (Timed env memory) (fun u => TimersOwned env memory u.calls) := by
  have hread : Triple (fun u : Server => TimersOwned env memory u.calls ∧ u.ctrlSck = true)
      (fun u => u.getResults message.results)
      (fun u => TimersOwned env memory u.calls ∧ u.ctrlSck = true)
      (fun u => TimersOwned env memory u.calls) := by
    rintro u ⟨howned, hctrl⟩
    dsimp only
    unfold Server.getResults Server.noteErrno
    dsimp only
    split_ifs
    · have hcall : Timeless (.raised
          (getResults message.results u.toTestSide).1.test.iErrno) := fun _ _ _ => rfl
      have hlogged := howned.timeless hcall
      exact ⟨fun _ => ⟨hlogged, hctrl⟩, fun _ => hlogged⟩
    · exact ⟨fun _ => ⟨howned, hctrl⟩, fun _ => howned⟩
  apply triple_handleTestEnd
    (T := fun u => TimersOwned env memory u.calls ∧ u.ctrlSck = true) message
  · exact fun u hu => ⟨TimersOwned.timeless (s := { u with done := true }) hu.1
      fun _ _ _ => rfl, hu.2⟩
  · exact fun u hu => hu.2
  · exact fun u hu => ⟨TimersOwned.timeless (s := u.enter _) hu.1 fun _ _ _ => rfl, hu.2⟩
  · exact fun state u hu => TimersOwned.withErrno (s := u.enter state) hu.1 _
  · exact hread
  · exact fun u hu => hu.1.withErrno _
  · intro u hu
    apply Timed.of_left
    · exact TimersOwned.timeless (s := u.enter _) hu.1 fun _ _ _ => rfl
    · exact nofun
    · exact nofun

theorem handleMessageServer_timed (message : MessageEnv) :
    Triple (fun u : Server => Timed env memory u ∧ u.ctrlSck = true) (handleMessageServer message)
      (Timed env memory) (fun u => TimersOwned env memory u.calls) := by
  have hread : ∀ read u, Timed env memory u →
      TimersOwned env memory (Server.log (.controlRead read) u).calls :=
    fun read u hu => hu.owned.timeless fun _ _ _ => rfl
  apply triple_handleMessageServer message
  · exact fun _ u hu => Timed.of_left ((hread _ u hu.1).withErrno _) nofun nofun
  · exact fun _ u hu => (hread _ u hu.1).withErrno _
  · rintro value state - - hquiet u hu
    have hentered : TimersOwned env memory
        ((u.log (.controlRead (.byte value))).enter state).calls := hread _ u hu.1
    rcases hquiet with rfl | rfl
    · exact Timed.of_left hentered nofun nofun
    · exact Timed.of_left hentered nofun nofun
  · intro value _ _
    refine Triple.before (fun u hu => ?_) (handleTestEnd_timed message)
    have hentered := hread (.byte value) u hu.1
    exact ⟨TimersOwned.timeless (s := (u.log _).enter _) hentered fun _ _ _ => rfl, hu.2⟩
  · intro value _ _ u hu
    have hraised := TimersOwned.withErrno (s := (u.log (.controlRead (.byte value))).enter
      .clientTerminate) (hread (.byte value) u hu.1) .ieClientTerm
    exact Timed.of_left (hraised.timeless fun _ _ _ => rfl) nofun nofun
  · exact fun value _ _ u hu =>
      TimersOwned.withErrno (s := (u.log _).enter _) (hread (.byte value) u hu.1) _

theorem acceptStream_timed {b : Build} (data : StreamEnv) :
    Triple (fun u : Server => Timed env memory u ∧ u.state = .createStreams) (acceptStream b data)
      (Timed env memory) (fun u => TimersOwned env memory u.calls) := by
  have hnote : ∀ outcome u, Timed env memory u → Timed env memory (u.noteAccept outcome) := by
    intro outcome u hu
    unfold Server.noteAccept
    split
    · exact hu.timeless fun _ _ _ => rfl
    · exact hu
    · split_ifs
      · exact hu.timeless fun _ _ _ => rfl
      · exact hu.timeless fun _ _ _ => rfl
      · exact hu
      · exact hu
  apply triple_acceptStream (M := fun _ => Timed env memory) data
  · exact fun code u hu => ((hnote _ u hu.1).withErrno code).owned
  · exact fun closed u hu => hnote _ u hu.1
  · exact fun closed u hu => hu.owned.withErrno _
  · exact fun u hu => hu
  · intro closed code u hu
    have hcleaned := TimersOwned.cleanupServer (s := u.log .dataClosed)
      (hu.owned.timeless fun _ _ _ => rfl)
    exact hcleaned.withErrno code
  · exact fun closed name u hu => ⟨hu.owned, hu.unset, hu.connected⟩
  · intro closed u hu
    have hcounted : Timed env memory (u.countAccepted u.nextSender) := by
      unfold Server.countAccepted
      split <;> exact ⟨hu.owned, hu.unset, hu.connected⟩
    unfold newServerStream
    dsimp only
    split
    · exact ⟨fun _ => hcounted, nofun⟩
    · exact ⟨nofun, fun _ => hcounted.owned.withErrno _⟩
    · split_ifs
      · exact ⟨nofun, fun _ => hcounted.owned.withErrno _⟩
      · have hlogged : Timed env memory ((u.countAccepted u.nextSender).log .newStream) :=
          hcounted.timeless fun _ _ _ => rfl
        exact ⟨fun _ => ⟨hlogged.owned, hlogged.unset, hlogged.connected⟩, nofun⟩

/-! ### The start of the test -/

theorem createTimer_clear (start : StartEnv) {f : ServerTimer} {fields : List ServerTimer}
    (hf : f ∉ fields) (wanted : Bool) :
    Triple (Clear env memory (f :: fields)) (fun u => u.createTimer start f wanted)
      (Clear env memory fields) (fun u => TimersOwned env memory u.calls) := by
  intro u hu
  have hnone := hu.unset f List.mem_cons_self
  have hcreated : Clear env memory fields
      (u.log (.createTimer f (start.timerCreated f))) := by
    refine ⟨hu.owned.log fun i => hu.owned.owned.create env i hnone _, hu.ctrlSck, ?_⟩
    intro g hg
    have hgf : g ≠ f := by
      rintro rfl
      exact hf hg
    rw [timers_log]
    have hother := hu.unset g (List.mem_cons_of_mem _ hg)
    show (ServerTimers.create env _ f _ _).field g = none
    unfold ServerTimers.create
    split_ifs <;> simpa [ServerTimers.setField, Function.update_of_ne hgf] using hother
  dsimp only
  unfold Server.createTimer
  split_ifs
  · exact triple_check (E := fun v => TimersOwned env memory v.calls) _
      (fun v hv => hv.owned.withErrno _) _ hcreated
  · exact ⟨fun _ => ⟨hu.owned, hu.ctrlSck, fun g hg => hu.unset g (List.mem_cons_of_mem _ hg)⟩,
      nofun⟩

theorem forgetTimer_clear {f : ServerTimer} {fields : List ServerTimer} {u : Server}
    (hf : f ∈ fields) (hu : Clear env memory fields u) :
    Clear env memory fields (u.log (.forgetTimer f)) := by
  have hsame : ∀ i, (u.timers env memory).call env (.forgetTimer f, i) = u.timers env memory := by
    intro i
    show ServerTimers.setField f none _ = _
    unfold ServerTimers.setField
    rw [← hu.unset f hf, Function.update_eq_self]
  refine ⟨hu.owned.log fun i => ?_, hu.ctrlSck, fun g hg => ?_⟩
  · rw [hsame]
    exact hu.owned.owned
  · rw [timers_log, hsame]
    exact hu.unset g hg

theorem createServerTimers_timed (start : StartEnv) :
    Triple (Clear env memory allTimers)
      (fun u => createServerTimers start (u.stampStreams start.now))
      (Clear env memory []) (fun u => TimersOwned env memory u.calls) := by
  have hduration : Triple (Clear env memory allTimers)
      (fun u => (u.stampStreams start.now).forgetTimers.createDurationTimer start)
      (Clear env memory [.stats, .reporter, .omitPeriod])
      (fun u => TimersOwned env memory u.calls) := by
    intro u hu
    have hstamped : Clear env memory allTimers (u.stampStreams start.now) :=
      ⟨hu.owned, hu.ctrlSck, hu.unset⟩
    have hforgotten : Clear env memory allTimers (u.stampStreams start.now).forgetTimers :=
      forgetTimer_clear (by decide) (forgetTimer_clear (by decide)
        (forgetTimer_clear (by decide) hstamped))
    dsimp only
    unfold Server.createDurationTimer
    split_ifs
    · exact createTimer_clear start (by decide) true _
        ⟨hforgotten.owned, hforgotten.ctrlSck, hforgotten.unset⟩
    · exact ⟨fun _ => ⟨hforgotten.owned, hforgotten.ctrlSck,
        fun g hg => hforgotten.unset g (List.mem_cons_of_mem _ hg)⟩, nofun⟩
  have homit : Triple (Clear env memory [.omitPeriod]) (createServerOmitTimer start)
      (Clear env memory []) (fun u => TimersOwned env memory u.calls) := by
    intro u hu
    unfold createServerOmitTimer
    split_ifs
    · exact createTimer_clear start (by simp) true u hu
    · have hforgotten := forgetTimer_clear (f := .omitPeriod) (by decide) hu
      exact ⟨fun _ => ⟨hforgotten.owned, hforgotten.ctrlSck, nofun⟩, nofun⟩
  exact ((hduration.andThen fun u hu => createTimer_clear start (by decide) _ u hu).andThen
    fun u hu => createTimer_clear start (by decide) _ u hu).andThen homit

theorem startTest_timed (start : StartEnv) :
    Triple (fun u : Server => Timed env memory u ∧ u.state = .createStreams)
      (fun u => startTest start u |> andThen (createWorkers start)) (Timed env memory)
      (fun u => TimersOwned env memory u.calls) := by
  have hclear : ∀ u, Timed env memory u ∧ u.state = .createStreams →
      Clear env memory allTimers u :=
    fun u hu => ⟨hu.1.owned, hu.1.connected hu.2, fun f _ => hu.1.unset (Or.inr hu.2) f⟩
  have hcomplete : ∀ u, Timed env memory u ∧ u.state = .createStreams →
      Clear env memory allTimers (u.closeProtListener.log
        (.streamsComplete u.test.protocol u.reopensListener start.relistened)) := by
    intro u hu
    have hclosed : Clear env memory allTimers u.closeProtListener :=
      ⟨(hclear u hu).owned, (hclear u hu).ctrlSck, (hclear u hu).unset⟩
    exact hclosed.timeless fun _ _ _ => rfl
  have hstart : Triple (fun u : Server => Timed env memory u ∧ u.state = .createStreams)
      (startTest start)
      (fun u => TimersOwned env memory u.calls ∧ u.state ≠ .iperfStart ∧
        u.state ≠ .createStreams)
      (fun u => TimersOwned env memory u.calls) := by
    apply triple_startTest (N := Clear env memory allTimers) (T := Clear env memory []) start
    · exact fun u hu _ => hcomplete u hu
    · exact fun u hu _ => (hcomplete u hu).owned.cleanupServer.withErrno _
    · exact fun u hu => hu.ctrlSck
    · exact fun u hu => hu.owned.cleanupServer.withErrno _
    · exact fun u hu => (hu.enter _).timeless fun _ _ _ => rfl
    · exact fun u hu => (hu.enter _).owned.withErrno _
    · exact fun u hu => hu.owned.withErrno _
    · exact createServerTimers_timed start
    · exact fun u hu => hu.ctrlSck
    · exact fun u hu => ⟨(hu.enter _).owned.timeless fun _ _ _ => rfl, nofun, nofun⟩
    · exact fun u hu => (hu.enter _).owned.withErrno _
  have hworkers : Triple (fun u : Server => TimersOwned env memory u.calls ∧ u.state ≠ .iperfStart ∧
      u.state ≠ .createStreams) (createWorkers start)
      (fun u => TimersOwned env memory u.calls ∧ u.state ≠ .iperfStart ∧
        u.state ≠ .createStreams) (fun u => TimersOwned env memory u.calls) := by
    apply triple_createWorkers start
    · rintro code hcode u ⟨howned, hidle, hcreate⟩
      exact ⟨(howned.withErrno code).cleanupServer,
        cleanupServer_left (fun h => absurd h hidle) (by decide) hcode,
        cleanupServer_left (fun h => absurd h hcreate) (by decide) hcode⟩
    · exact fun threads u hu => ⟨hu.1.timeless fun _ _ _ => rfl, hu.2⟩
    · exact fun u hu => hu.1.withErrno _
  exact (hstart.andThen hworkers).weaken (fun _ hu => hu)
    (fun u hu => Timed.of_left hu.1 hu.2.1 hu.2.2) fun _ hu => hu

/-- The callback of the duration timer stops the test, but not its reports. -/
theorem serverTimerProc_timed (h : Timed env memory s) (sent : Bool) :
    Timed env memory (s.serverTimerProc sent) := by
  have hexpired := h.timerExpired .duration
  have hannounced : ∀ u, Timed env memory u → Timed env memory (u.announceExpiry sent) := by
    intro u hu
    have hflags : Timed env memory { u with done := true, timer := false } :=
      ⟨hu.owned, hu.unset, hu.connected⟩
    have hsent : Timed env memory
        ({ u with done := true, timer := false }.setSendState sent .serverError).1 := by
      have howned := hflags.owned.setSendState sent .serverError
      unfold Server.setSendState at howned ⊢
      split_ifs at howned ⊢
      · exact Timed.of_left howned nofun nofun
      · exact Timed.of_left howned nofun nofun
      · exact hflags
    unfold Server.announceExpiry
    dsimp only
    split_ifs
    · exact hsent.withErrno _
    · exact hsent
  have hleft := announceExpiry_left hexpired.connected (by decide) sent
  unfold Server.serverTimerProc
  dsimp only
  split_ifs
  · exact ⟨hexpired.owned, hexpired.unset, hexpired.connected⟩
  · have hcall : Timeless .streamsFreed := fun _ _ _ => rfl
    have hfreed := (hannounced _ hexpired).timeless hcall
    exact ⟨hfreed.owned, hfreed.unset, fun hstate => absurd hstate hleft⟩

theorem timerRules (b : Build) (env : TimerEnv) (memory : ℕ → Timer ServerTimer) :
    ServerRules b (fun _ _ => True) (Timed env memory) (fun s => TimersOwned env memory s.calls)
      (fun s => TimersOwned env memory s.calls)
      (fun s => TimersOwned env memory s.calls ∧ Unset (s.timers env memory)) where
  listens s h := by
    have hlogged : TimersOwned env memory (s.log .serverListen).calls :=
      h.1.timeless fun _ _ _ => rfl
    have hsame : (s.log .serverListen).timers env memory = s.timers env memory :=
      timers_timeless (fun _ _ _ => rfl) s
    refine ⟨hlogged, fun _ => ?_, nofun⟩
    show Unset ((s.log .serverListen).timers env memory)
    rw [hsame]
    exact h.2
  noLogfile s h := h.1
  startFails code s h := h.1.withErrno code
  traffic update s h := ⟨h.owned, h.unset, h.connected⟩
  worker i error s h := by
    cases error with
    | none => exact h.timeless fun _ _ _ => rfl
    | some code => exact (h.withErrno code).timeless fun _ _ _ => rfl
  timer timer s hduration h := h.timerExpired timer
  expire sent s hC htimer h := serverTimerProc_timed h sent
  turn turn s hC hdone h := by
    -- whoever is accepted is the first since the server began to listen
    have hfirst : s.ctrlSck = false → s.state = .iperfStart := by
      intro hfree
      simpa [Server.readSetStale, hfree] using (not_or.mp hdone).2
    apply serverTurn_rule (E := fun u => TimersOwned env memory u.calls) h
    · exact fun _ _ _ _ hs => hs.owned.withErrno _
    · exact fun hs => ⟨hs.owned, hs.unset, hs.connected⟩
    · exact fun hfree hstate accept haccept haccepted =>
        acceptClient_timed accept h (hfirst hfree)
    · intro hctrl message _
      refine (handleMessageServer_timed message).weaken (fun u hu => ⟨hu.1, ?_⟩)
        (fun _ hu => hu) fun _ hu => hu
      rcases hu.2 with rfl | rfl <;> exact hctrl
    · exact fun hstate data _ => (acceptStream_timed data).weaken
        (fun u hu => hu ▸ ⟨h, hstate⟩) (fun _ hu => hu) fun _ hu => hu
    · exact startTest_timed turn.start
  rateExceeded sent s hC hdone h := (h.owned.withErrno .ieTotalRate).setSendState sent _
  selectFails s hC hdone h := h.owned
  idleTimeout oneOff s hC hstart h := h.owned.timeless fun _ _ _ => rfl
  noMessage s hC hquiet h := h.owned.withErrno _
  finish jsonFinished affinityCleared s hC hjson hdone h := h.owned
  noJson affinityCleared s hC hjson hdone h := h.owned
  cleanup s h := h.cleanupServer
  late s h := h.withErrno _
  reset s h := by
    have hreset : TimersOwned env memory (s.log .reset).calls := h.log fun _ => h.owned.reset
    have hunset : Unset ((s.log .reset).timers env memory) := by
      rw [timers_log]
      exact reset_unset _
    exact ⟨hreset, hunset⟩
  exits s h := h.1

/-- The members hold different timers of the active list, and all of them,
and no other timer has been cancelled or reset. -/
def WellHeld (x : ServerTimers) : Prop :=
  ∃ active, Linked x.queue.links x.queue.timers active ∧ active.Nodup ∧
    (∀ f t, x.field f = some t → t ∈ active) ∧ (∀ t ∈ active, ∃! f, x.field f = some t) ∧
    x.misused = false

theorem ServerTimers.Owned.wellHeld {x : ServerTimers} (h : Owned x) : WellHeld x := by
  obtain ⟨active, free, hrep⟩ := h.inOrder
  refine ⟨active, hrep.linked, (List.nodup_append.mp hrep.nodup).1, ?_, ?_, h.used⟩
  · exact fun f t hf => hrep.members.mem_iff.mpr (h.active f t hf).1
  · intro t ht
    obtain ⟨f, hf⟩ := h.referenced t (hrep.members.mem_iff.mp ht)
    exact ⟨f, hf, fun g hg => h.eq_of_field hg hf⟩

theorem ServerTimers.Owned.timers_eq_none {x : ServerTimers} (h : Owned x) (hunset : Unset x) :
    x.queue.timers = none := by
  by_contra hne
  obtain ⟨t, ht⟩ := Option.ne_none_iff_exists'.mp hne
  obtain ⟨f, hf⟩ := h.referenced t (h.inOrder.head_live t ht)
  exact absurd ((hunset f).symm.trans hf) (by simp)

end Runs

/-- After every call the members of the test own the active timers, and after a
cleanup there are none. -/
theorem server_timers_owned
    (b : Build) (side : TestSide) (env : TimerEnv) (memory : ℕ → Timer ServerTimer)
    (events : List ServerEvent) :
    ((serverProcess side).run b events).server.calls |> Always fun before call =>
      WellHeld (replay env memory (before ++ [call])) ∧
        ∀ reported, call = .cleanup reported →
          (replay env memory (before ++ [call])).queue.timers = none := by
  have hstart : (serverProcess side).Holds (Timed env memory)
      (fun s => TimersOwned env memory s.calls)
      (fun s => TimersOwned env memory s.calls ∧ Unset (s.timers env memory)) :=
    ⟨always_nil _, fun _ => rfl⟩
  have hend := (timerRules b env memory).run hstart (Process.meets_trivial b _ events)
  have howned : TimersOwned env memory ((serverProcess side).run b events).server.calls := by
    unfold Process.Holds at hend
    split at hend
    · exact hend.1
    · exact hend.owned
    · exact hend
    · exact hend
  intro before call hbefore
  have hcall := howned before call hbefore
  refine ⟨hcall.wellHeld, ?_⟩
  rintro reported rfl
  apply hcall.timers_eq_none
  rw [replay_append]
  exact cleanup_unset _

/-- An allocator that takes the next address, with a clock that stands still. -/
instance : Inhabited TimerEnv where
  default :=
    { malloc allocated := allocated.sum + 1
      fresh allocated := by
        intro hmem
        have hle := List.single_le_sum (fun x _ => Nat.zero_le x) _ hmem
        omega
      now _ := IperfTime.ofCounters 0 0
      usecs _ f := if f.periodic then 1000000 else 50000000 }

/-- Once the duration timer has expired on a test, nobody else is accepted
before the run has ended. -/
example : ((defaultServer Build.linux).run Build.linux
    (startedTest ++ [.expire true] ++ startedTest.drop 1)).server.calls.count .accepted = 1 := by
  decide +kernel

end Iperf3
