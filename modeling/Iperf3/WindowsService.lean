import Mathlib.Tactic

/-!
# The Windows service

`service_main` starts a server process, waits for it or for a stop request,
and starts the next one.  The control handler runs on another thread; the two
share the status record and the stop event without a lock, so one step here
is one access to what they share.
-/

namespace Iperf3

inductive ServiceState where
  | startPending
  | running
  | stopPending
  | stopped
  deriving DecidableEq, Repr

/-- What `service_main` does after a call of `set_service_status`. -/
inductive AfterStatus where
  | createEvent
  | loop
  | leave
  | return
  deriving DecidableEq, Repr

/-- The next step of `service_main`.  Setting the status takes two steps: the
record is written and then reported. -/
inductive ServiceMain where
  | registering
  | writing (state : ServiceState) (next : AfterStatus)
  | reporting (next : AfterStatus)
  | creatingEvent
  | startingChild
  | waiting
  | terminating
  | delaying
  | closing
  | clearing
  | returned
  deriving DecidableEq, Repr

/-- The next step of `service_control_handler`. -/
inductive ServiceHandler where
  | idle
  | writing
  | reporting
  | checking
  | loading
  | signalling
  deriving DecidableEq, Repr

/-- The shared variables, the children, and what has happened. -/
structure Service where
  main : ServiceMain
  handler : ServiceHandler
  statusHandle : Bool
  status : Option ServiceState
  reported : Option ServiceState
  stopEvent : Bool
  eventOpen : Bool
  signalled : Bool
  child : Bool
  orphans : ℕ
  signalledClosed : Bool
  deriving DecidableEq, Repr

inductive WaitResult where
  | object0
  | object1
  | other
  deriving DecidableEq, Repr

/-- How the system call of a step comes out. -/
structure ServiceEnv where
  ok : Bool
  wait : WaitResult
  deriving DecidableEq, Repr

inductive ServiceEvent where
  | main (env : ServiceEnv)
  | handler
  | stopRequest
  | childExits
  | orphanExits
  deriving DecidableEq, Repr

namespace Service

def initial : Service where
  main := .registering
  handler := .idle
  statusHandle := false
  status := none
  reported := none
  stopEvent := false
  eventOpen := false
  signalled := false
  child := false
  orphans := 0
  signalledClosed := false

def report (s : Service) : Service :=
  { s with reported := if s.statusHandle then s.status else s.reported }

def go (main : ServiceMain) (s : Service) : Service :=
  { s with main := main }

/-- The handles of the child are closed, whether it still runs or not. -/
def closeChildHandles (s : Service) : Service :=
  { s with
    child := false
    orphans := if s.child then s.orphans + 1 else s.orphans }

def AfterStatus.main : AfterStatus → ServiceMain
  | .createEvent => .creatingEvent
  | .loop => .startingChild
  | .leave => .closing
  | .return => .returned

/-- `WaitForMultipleObjects` returns the lower index if both objects are
signalled, and does not return while none is, unless it fails. -/
def wait (result : WaitResult) (s : Service) : Service :=
  match result with
  | .object0 => if s.signalled then s.go .terminating else s
  | .object1 =>
      if !s.signalled && !s.child then s.closeChildHandles.go .delaying else s
  | .other => s.closeChildHandles.go (.writing .stopped .leave)

/-- One step of `service_main`. -/
def stepMain (env : ServiceEnv) (s : Service) : Service :=
  match s.main with
  | .registering =>
      if env.ok then { s with statusHandle := true }.go (.writing .startPending .createEvent)
      else s.go .returned
  | .writing state next => { s with status := some state }.go (.reporting next)
  | .reporting next => s.report.go (AfterStatus.main next)
  | .creatingEvent =>
      if env.ok then { s with stopEvent := true, eventOpen := true }.go (.writing .running .loop)
      else s.go (.writing .stopped .return)
  | .startingChild =>
      if env.ok then { s with child := true }.go .waiting
      else s.go (.writing .stopped .leave)
  | .waiting => s.wait env.wait
  | .terminating =>
      { s with child := false }.closeChildHandles.go (.writing .stopped .leave)
  | .delaying =>
      if env.wait = .object0 && s.signalled then s.go (.writing .stopped .leave)
      else s.go .startingChild
  | .closing => { s with eventOpen := false }.go .clearing
  | .clearing => { s with stopEvent := false }.go .returned
  | .returned => s

/-- One step of the handler.  The handle of the event is read twice, for the
test and for `SetEvent`, which does nothing with a null handle. -/
def stepHandler (s : Service) : Service :=
  match s.handler with
  | .idle => s
  | .writing => { s with status := some .stopPending, handler := .reporting }
  | .reporting => { s.report with handler := .checking }
  | .checking => { s with handler := if s.stopEvent then .loading else .idle }
  | .loading => { s with handler := if s.stopEvent then .signalling else .idle }
  | .signalling =>
      { s with
        signalled := s.signalled || s.eventOpen
        signalledClosed := s.signalledClosed || !s.eventOpen
        handler := .idle }

/-- The handler is called once it is registered, one call after the other. -/
def step (s : Service) : ServiceEvent → Service
  | .main env => s.stepMain env
  | .handler => s.stepHandler
  | .stopRequest => if s.statusHandle ∧ s.handler = .idle then { s with handler := .writing } else s
  | .childExits => { s with child := false }
  | .orphanExits => { s with orphans := s.orphans - 1 }

def run (s : Service) (events : List ServiceEvent) : Service :=
  events.foldl step s

/-- The running server processes that the service has started. -/
def runningChildren (s : Service) : ℕ :=
  (if s.child then 1 else 0) + s.orphans

/-- At most one child runs, no closed event is signalled, and after the return
the service is stopped and so is its child. -/
structure Sound (s : Service) : Prop where
  oneChild : s.runningChildren ≤ 1
  signals : s.signalledClosed = false
  returned : s.main = .returned → s.statusHandle = true →
    s.reported = some .stopped ∧ s.runningChildren = 0

/-- `service_main` has not yet written the status with which it returns. -/
def Serving (s : Service) : Prop :=
  s.main ∉ [.reporting .leave, .reporting .return, .closing, .clearing, .returned]

instance (s : Service) : Decidable s.Serving :=
  inferInstanceAs (Decidable (_ ∉ _))

/-- The wait does not fail while a child runs, no stop request is taken up
after the last status has been written, and the event is not closed between
its load and its signalling. -/
def Orderly (s : Service) : ServiceEvent → Prop
  | .main env =>
      (s.main = .waiting → env.wait = .other → s.child = false) ∧
        (s.main = .closing → s.handler ≠ .signalling)
  | .handler =>
      (s.handler = .writing → s.Serving) ∧ (s.handler = .loading → s.main ≠ .clearing)
  | .stopRequest | .childExits | .orphanExits => True

instance (s : Service) : (event : ServiceEvent) → Decidable (s.Orderly event)
  | .main _ | .handler => inferInstanceAs (Decidable (_ ∧ _))
  | .stopRequest | .childExits | .orphanExits => .isTrue trivial

/-- What holds in every state of an orderly run. -/
structure Holds (s : Service) : Prop where
  noOrphans : s.orphans = 0
  noSignals : s.signalledClosed = false
  child : s.child = true → s.main = .waiting ∨ s.main = .terminating
  event : s.stopEvent = true → s.eventOpen = true ∨ s.main = .clearing
  signalling : s.handler = .signalling → s.eventOpen = true
  registering : s.main = .registering → s.statusHandle = false
  leaving : ∀ state, s.main = .writing state .leave ∨ s.main = .writing state .return →
    state = .stopped
  last : s.statusHandle = true → ¬ s.Serving → s.status = some .stopped
  reported : s.statusHandle = true →
    s.main = .closing ∨ s.main = .clearing ∨ s.main = .returned → s.reported = some .stopped

theorem initial_holds : initial.Holds := by
  constructor <;> simp [initial, Serving]

theorem Holds.sound {s : Service} (h : s.Holds) : s.Sound where
  oneChild := by
    unfold runningChildren
    rw [h.noOrphans]
    split_ifs <;> simp
  signals := h.noSignals
  returned hmain hregistered := by
    have hchild : s.child = false := by
      by_contra hrunning
      have hcases := h.child (by simpa using hrunning)
      rw [hmain] at hcases
      simp at hcases
    refine ⟨h.reported hregistered (Or.inr (Or.inr hmain)), ?_⟩
    simp [runningChildren, hchild, h.noOrphans]

/-- Away from the wait and the end no child runs and a set event is open. -/
theorem Holds.between {s : Service} (h : s.Holds)
    (hmain : s.main ∉ [.waiting, .terminating, .clearing]) :
    s.child = false ∧ (s.stopEvent = true → s.eventOpen = true) := by
  simp only [List.mem_cons, List.not_mem_nil, or_false, not_or] at hmain
  obtain ⟨hwaiting, hterminating, hclearing⟩ := hmain
  constructor
  · by_contra hchild
    rcases h.child (by simpa using hchild) with hm | hm
    · exact hwaiting hm
    · exact hterminating hm
  · intro hevent
    exact (h.event hevent).resolve_right hclearing

theorem closeChildHandles_eq {s : Service} (hchild : s.child = false) :
    s.closeChildHandles = s := by
  rw [closeChildHandles, if_neg (by simp [hchild]), ← hchild]

/-- A step that only moves on, to a point where the service still serves. -/
theorem Holds.go {s : Service} (h : s.Holds) (main : ServiceMain)
    (hserving : (s.go main).Serving) (hregistering : main ≠ .registering)
    (hchild : s.child = true → main = .waiting ∨ main = .terminating)
    (hopen : s.stopEvent = true → s.eventOpen = true)
    (hleaving : ∀ state, main = .writing state .leave ∨ main = .writing state .return →
      state = .stopped) : (s.go main).Holds :=
  { h with
    child := hchild
    event := fun hevent => Or.inl (hopen hevent)
    registering := fun hmain => absurd hmain hregistering
    leaving := hleaving
    last := fun _ hleft => absurd hserving hleft
    reported := by
      rintro - (hmain | hmain | hmain) <;>
      · rw [Serving, hmain] at hserving
        simp at hserving }

theorem Holds.go_writing {s : Service} (h : s.Holds) (state : ServiceState) (next : AfterStatus)
    (hchild : s.child = false) (hopen : s.stopEvent = true → s.eventOpen = true)
    (hlast : next = .leave ∨ next = .return → state = .stopped) :
    (s.go (.writing state next)).Holds := by
  refine h.go _ (by simp [Serving, Service.go]) nofun ?_ hopen ?_
  · simp [hchild]
  · rintro state' (hstate | hstate) <;> cases hstate
    · exact hlast (Or.inl rfl)
    · exact hlast (Or.inr rfl)

theorem Holds.stepRegistering {s : Service} (h : s.Holds) (hmain : s.main = .registering)
    (ok : Bool) :
    (if ok then { s with statusHandle := true }.go (.writing .startPending .createEvent)
      else s.go .returned).Holds := by
  obtain ⟨hchild, hopen⟩ := h.between (by simp [hmain])
  have hregistered : s.statusHandle = false := h.registering hmain
  split_ifs
  · exact { h with
      child := by simp [Service.go, hchild]
      event := fun hevent => Or.inl (hopen hevent)
      registering := nofun
      leaving := by simp [Service.go]
      last := by simp [Serving, Service.go]
      reported := by simp [Service.go] }
  · exact { h with
      child := by simp [Service.go, hchild]
      event := fun hevent => Or.inl (hopen hevent)
      registering := fun _ => hregistered
      leaving := by simp [Service.go]
      last := by simp [Service.go, hregistered]
      reported := by simp [Service.go, hregistered] }

theorem Holds.stepWriting {s : Service} (h : s.Holds) {state : ServiceState}
    {next : AfterStatus} (hmain : s.main = .writing state next) :
    ({ s with status := some state }.go (.reporting next)).Holds := by
  obtain ⟨hchild, hopen⟩ := h.between (by simp [hmain])
  -- Only the last status is followed by the way out.
  have hlast : ¬ (s.go (.reporting next)).Serving → state = .stopped := by
    intro hleft
    apply h.leaving state
    rw [hmain]
    cases next <;> simp [Serving, Service.go] at hleft ⊢
  exact { h with
    child := by simp [Service.go, hchild]
    event := fun hevent => Or.inl (hopen hevent)
    registering := nofun
    leaving := by simp [Service.go]
    last := fun _ hleft => congrArg some (hlast hleft)
    reported := by simp [Service.go] }

theorem Holds.stepReporting {s : Service} (h : s.Holds) {next : AfterStatus}
    (hmain : s.main = .reporting next) : (s.report.go (AfterStatus.main next)).Holds := by
  obtain ⟨hchild, hopen⟩ := h.between (by simp [hmain])
  -- The way out is entered only with the last status in the record.
  have hlast : next = .leave ∨ next = .return → s.statusHandle = true →
      s.status = some .stopped := by
    intro hnext hregistered
    apply h.last hregistered
    rcases hnext with rfl | rfl <;> simp [Serving, hmain]
  exact { h with
    child := by simp [Service.go, report, hchild]
    event := fun hevent => Or.inl (hopen hevent)
    registering := by cases next <;> nofun
    leaving := by cases next <;> simp [Service.go, AfterStatus.main]
    last := by
      intro hregistered hleft
      apply hlast _ hregistered
      cases next <;> simp [Serving, Service.go, AfterStatus.main] at hleft ⊢
    reported := by
      intro hregistered hnext
      have hstatus : s.status = some .stopped := by
        apply hlast _ hregistered
        cases next <;> simp [Service.go, AfterStatus.main] at hnext ⊢
      simp only [Service.go, report] at hregistered ⊢
      rw [if_pos hregistered, hstatus] }

theorem Holds.stepCreatingEvent {s : Service} (h : s.Holds) (hmain : s.main = .creatingEvent)
    (ok : Bool) :
    (if ok then { s with stopEvent := true, eventOpen := true }.go (.writing .running .loop)
      else s.go (.writing .stopped .return)).Holds := by
  obtain ⟨hchild, hopen⟩ := h.between (by simp [hmain])
  split_ifs
  · have hcreated : Holds { s with stopEvent := true, eventOpen := true } :=
      { h with
        event := fun _ => Or.inl rfl
        signalling := fun _ => rfl }
    exact hcreated.go_writing _ _ hchild (fun _ => rfl) (by simp)
  · exact h.go_writing _ _ hchild hopen (fun _ => rfl)

theorem Holds.stepStartingChild {s : Service} (h : s.Holds) (hmain : s.main = .startingChild)
    (ok : Bool) :
    (if ok then { s with child := true }.go .waiting
      else s.go (.writing .stopped .leave)).Holds := by
  obtain ⟨hchild, hopen⟩ := h.between (by simp [hmain])
  split_ifs
  · exact { h with
      child := fun _ => Or.inl rfl
      event := fun hevent => Or.inl (hopen hevent)
      registering := nofun
      leaving := by simp [Service.go]
      last := by simp [Serving, Service.go]
      reported := by simp [Service.go] }
  · exact h.go_writing _ _ hchild hopen (fun _ => rfl)

theorem Holds.stepWaiting {s : Service} (h : s.Holds) (hmain : s.main = .waiting)
    (result : WaitResult) (hother : result = .other → s.child = false) :
    (s.wait result).Holds := by
  have hopen : s.stopEvent = true → s.eventOpen = true := by
    intro hevent
    exact (h.event hevent).resolve_right (by simp [hmain])
  unfold wait
  cases result with
  | object0 =>
    dsimp only
    split_ifs
    · exact h.go _ (by simp [Serving, Service.go]) nofun (fun _ => Or.inr rfl) hopen (by simp)
    · exact h
  | object1 =>
    dsimp only
    split_ifs with hexited
    · have hchild : s.child = false := by simp_all
      rw [closeChildHandles_eq hchild]
      exact h.go _ (by simp [Serving, Service.go]) nofun (by simp [hchild]) hopen (by simp)
    · exact h
  | other =>
    -- The child has exited, so closing its handles leaves no orphan.
    have hchild := hother rfl
    dsimp only
    rw [closeChildHandles_eq hchild]
    exact h.go_writing _ _ hchild hopen (fun _ => rfl)

theorem Holds.stepMain {s : Service} (h : s.Holds) (env : ServiceEnv)
    (horderly : s.Orderly (.main env)) : (s.stepMain env).Holds := by
  unfold Service.stepMain
  cases hmain : s.main with
  | registering => exact h.stepRegistering hmain env.ok
  | writing state next => exact h.stepWriting hmain
  | reporting next => exact h.stepReporting hmain
  | creatingEvent => exact h.stepCreatingEvent hmain env.ok
  | startingChild => exact h.stepStartingChild hmain env.ok
  | waiting => exact h.stepWaiting hmain env.wait (horderly.1 hmain)
  | terminating =>
    have hended : Holds { s with child := false } := { h with child := nofun }
    have hopen : s.stopEvent = true → s.eventOpen = true := by
      intro hevent
      exact (h.event hevent).resolve_right (by simp [hmain])
    dsimp only
    rw [closeChildHandles_eq rfl]
    exact hended.go_writing _ _ rfl hopen (fun _ => rfl)
  | delaying =>
    obtain ⟨hchild, hopen⟩ := h.between (by simp [hmain])
    dsimp only
    split_ifs
    · exact h.go_writing _ _ hchild hopen (fun _ => rfl)
    · exact h.go _ (by simp [Serving, Service.go]) nofun (by simp [hchild]) hopen (by simp)
  | closing =>
    obtain ⟨hchild, -⟩ := h.between (by simp [hmain])
    have hhandler : s.handler ≠ .signalling := horderly.2 hmain
    exact { h with
      child := by simp [Service.go, hchild]
      event := fun _ => Or.inr rfl
      signalling := fun hsignalling => absurd hsignalling hhandler
      registering := nofun
      leaving := by simp [Service.go]
      last := fun hregistered _ => h.last hregistered (by simp [Serving, hmain])
      reported := fun hregistered _ => h.reported hregistered (Or.inl hmain) }
  | clearing =>
    have hchild : s.child = false := by
      by_contra hrunning
      have hcases := h.child (by simpa using hrunning)
      simp [hmain] at hcases
    exact { h with
      child := by simp [Service.go, hchild]
      event := nofun
      registering := nofun
      leaving := by simp [Service.go]
      last := fun hregistered _ => h.last hregistered (by simp [Serving, hmain])
      reported := fun hregistered _ => h.reported hregistered (Or.inr (Or.inl hmain)) }
  | returned => exact h

theorem Holds.stepHandler {s : Service} (h : s.Holds) (horderly : s.Orderly .handler) :
    s.stepHandler.Holds := by
  unfold Service.stepHandler
  cases hhandler : s.handler with
  | idle => exact h
  | writing =>
    have hserving : s.Serving := horderly.1 hhandler
    exact { h with
      last := fun _ hleft => absurd hserving hleft
      signalling := nofun }
  | reporting =>
    -- Once the last status is written, it is also what the handler reports.
    have hreported : s.statusHandle = true →
        s.main = .closing ∨ s.main = .clearing ∨ s.main = .returned →
          s.report.reported = some .stopped := by
      intro hregistered hmain
      have hleft : ¬ s.Serving := by rcases hmain with hm | hm | hm <;> simp [Serving, hm]
      rw [report, if_pos hregistered]
      exact h.last hregistered hleft
    exact { h with
      reported := hreported
      signalling := nofun }
  | checking =>
    refine { h with signalling := ?_ }
    intro hsignalling
    split_ifs at hsignalling
  | loading =>
    have hmain : s.main ≠ .clearing := horderly.2 hhandler
    refine { h with signalling := ?_ }
    intro hsignalling
    split_ifs at hsignalling with hevent
    exact (h.event hevent).resolve_right hmain
  | signalling =>
    have hopen := h.signalling hhandler
    exact { h with
      noSignals := by simp [h.noSignals, hopen]
      signalling := nofun }

theorem Holds.step {s : Service} (h : s.Holds) (event : ServiceEvent)
    (horderly : s.Orderly event) : (s.step event).Holds := by
  cases event with
  | main env => exact h.stepMain env horderly
  | handler => exact h.stepHandler horderly
  | stopRequest =>
    unfold Service.step
    split_ifs with hidle
    · exact { h with signalling := nofun }
    · exact h
  | childExits => exact { h with child := nofun }
  | orphanExits => exact { h with noOrphans := by simp [Service.step, h.noOrphans] }

/-- Each event of the run is orderly when it happens. -/
def OrderlyRun (s : Service) : List ServiceEvent → Prop
  | [] => True
  | event :: rest => s.Orderly event ∧ (s.step event).OrderlyRun rest

instance decidableOrderlyRun : (events : List ServiceEvent) → (s : Service) →
    Decidable (s.OrderlyRun events)
  | [], _ => .isTrue trivial
  | event :: rest, s =>
      have := decidableOrderlyRun rest (s.step event)
      inferInstanceAs (Decidable (s.Orderly event ∧ _))

theorem OrderlyRun.of_append {events later : List ServiceEvent} :
    ∀ {s : Service}, s.OrderlyRun (events ++ later) → s.OrderlyRun events := by
  induction events with
  | nil => exact fun _ => trivial
  | cons event rest ih => exact fun hrun => ⟨hrun.1, ih hrun.2⟩

theorem Holds.run {events : List ServiceEvent} :
    ∀ {s : Service}, s.Holds → s.OrderlyRun events → (s.run events).Holds := by
  induction events with
  | nil => exact fun h _ => h
  | cons event rest ih => exact fun h hrun => ih (h.step event hrun.1) hrun.2

/-- The service has registered, reported that it runs, and started a child. -/
def started : List ServiceEvent :=
  List.replicate 7 (.main ⟨true, .object0⟩)

/-- The child exits, and the wait that follows sees no stop request. -/
def childLost : List ServiceEvent :=
  [.childExits, .main ⟨true, .object1⟩, .main ⟨true, .other⟩]

/-- A stop request, with the child terminated and the service left. -/
def stopped : List ServiceEvent :=
  started ++ [.stopRequest] ++ List.replicate 5 .handler ++
    List.replicate 6 (.main ⟨true, .object0⟩)

/-- The wait fails. -/
def waitFailed : List ServiceEvent :=
  started ++ [.main ⟨true, .other⟩] ++ List.replicate 4 (.main ⟨true, .object0⟩)

/-- The next child does not start, and the stop request comes between the
write and the report of the last status. -/
def stoppedLate : List ServiceEvent :=
  started ++ childLost ++ [.main ⟨false, .other⟩, .main ⟨true, .other⟩, .stopRequest] ++
    List.replicate 5 .handler ++ List.replicate 3 (.main ⟨true, .object0⟩)

/-- The next child does not start, and the event is closed while the handler
holds its handle. -/
def signalledLate : List ServiceEvent :=
  started ++ childLost ++ [.stopRequest] ++ List.replicate 4 .handler ++
    [.main ⟨false, .other⟩] ++ List.replicate 3 (.main ⟨true, .object0⟩) ++ [.handler]

end Service

/-- In every orderly run the service is sound in each state reached. -/
theorem service_lifecycle (events : List ServiceEvent)
    (horderly : Service.initial.OrderlyRun events) :
    ∀ past, past <+: events → (Service.initial.run past).Sound := by
  rintro past ⟨later, rfl⟩
  exact (Service.initial_holds.run horderly.of_append).sound

theorem service_lifecycle_stopped :
    (Service.initial.run Service.stopped).main = .returned ∧
      ∀ past, past <+: Service.stopped → (Service.initial.run past).Sound :=
  ⟨by decide, service_lifecycle Service.stopped (by decide)⟩

theorem service_lifecycle_unsound :
    ¬ (Service.initial.run Service.waitFailed).Sound ∧
      ¬ (Service.initial.run Service.stoppedLate).Sound ∧
      ¬ (Service.initial.run Service.signalledLate).Sound := by
  refine ⟨fun h => ?_, fun h => ?_, fun h => ?_⟩
  · exact absurd (h.returned (by decide) (by decide)).2 (by decide)
  · exact absurd (h.returned (by decide) (by decide)).1 (by decide)
  · exact absurd h.signals (by decide)

end Iperf3
