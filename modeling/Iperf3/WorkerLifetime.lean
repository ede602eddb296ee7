import Iperf3.ServerRuns
import Iperf3.ServerStart
import Mathlib.Tactic

/-!
# Streams are freed after their workers are joined

A run of the server frees streams in two places: the expiry of the
test-duration timer and the reset between two tests.  The reset comes after a
cleanup, which joins every worker, unless the run ended in a failure to print
the JSON output.
-/

namespace Iperf3

/-- No stream has a worker that was created and not joined. -/
def NoWorkers (streams : List Stream) : Prop :=
  ∀ sp ∈ streams, sp.threadCreated = false

theorem noWorkers_cleanupServer (s : Server) : NoWorkers s.cleanupServer.streams := by
  intro sp hsp
  obtain ⟨old, -, rfl⟩ := List.mem_map.mp hsp
  rfl

theorem serverTurn_freed (b : Build) (env : TurnEnv) (s : Server) :
    (serverTurn b env s).1.freed = s.freed := by
  have hlistener : Keeps (fun u : Server => u.freed = s.freed) (turnListener b (env.ready s)) := by
    intro u hu
    unfold turnListener
    split
    · split_ifs
      · exact hu
      · exact ((iperfAccept_freed _ s.freed).andThen fun u hu => hu) u hu
    · exact hu
  have hcontrol : Keeps (fun u : Server => u.freed = s.freed) (turnControl (env.ready s)) :=
    fun u hu => ((turnControl_frame u _) u (Frame.refl u)).freed.trans hu
  have hstreams : Keeps (fun u : Server => u.freed = s.freed) (turnStreams b (env.ready s)) :=
    fun u hu => ((turnStreams_frame u b _) u (Frame.refl u)).freed.trans hu
  exact ((hlistener.andThen hcontrol).andThen hstreams) s rfl

/-! ## Runs -/

/-- The duration timer does not expire on a running worker, and the JSON
output does not fail while there is one. -/
def JoinsFirst (p : Process) : ServerEvent → Prop
  | .expire _ =>
      p.phase = .running → p.server.timer = true →
        p.server.done = true ∨ NoWorkers p.server.streams
  | .finish jsonFinished _ =>
      p.phase = .running → p.server.jsonOutput = true → jsonFinished = false →
        NoWorkers p.server.streams
  | _ => True

def JoinsFirstRun (b : Build) (p : Process) : List ServerEvent → Prop
  | [] => True
  | event :: events => JoinsFirst p event ∧ JoinsFirstRun b (p.step b event) events

theorem noWorkers_append {xs ys : List Stream} (hxs : NoWorkers xs) (hys : NoWorkers ys) :
    NoWorkers (xs ++ ys) := by
  intro sp hsp
  rcases List.mem_append.mp hsp with hsp | hsp
  · exact hxs sp hsp
  · exact hys sp hsp

theorem setSendState_same (sent : Bool) (state : TestState) (s : Server) :
    (s.setSendState sent state).1.freed = s.freed ∧
      (s.setSendState sent state).1.streams = s.streams := by
  unfold Server.setSendState
  split_ifs <;> exact ⟨rfl, rfl⟩

theorem announceExpiry_same (sent : Bool) (s : Server) :
    (s.announceExpiry sent).freed = s.freed ∧ (s.announceExpiry sent).streams = s.streams := by
  have hsent := setSendState_same sent .serverError { s with done := true, timer := false }
  unfold Server.announceExpiry
  dsimp only
  split_ifs <;> exact hsent

theorem serverTimerProc_freed
    {s : Server} (sent : Bool) (hfreed : NoWorkers s.freed)
    (hsafe : s.done = true ∨ NoWorkers s.streams) :
    NoWorkers (s.serverTimerProc sent).freed := by
  obtain ⟨hsameFreed, hsameStreams⟩ :=
    announceExpiry_same sent (s.log (.timerExpired .duration))
  unfold Server.serverTimerProc
  dsimp only
  split_ifs with hdone
  · exact hfreed
  · have hstreams : NoWorkers s.streams := hsafe.resolve_left hdone
    apply noWorkers_append
    · rw [hsameFreed]
      exact hfreed
    · rw [hsameStreams]
      exact hstreams

/-- After the loop the streams that are left have been joined too. -/
theorem joinRules (b : Build) :
    ServerRules b (fun s event => JoinsFirst ⟨s, .running⟩ event)
      (fun s => NoWorkers s.freed) (fun s => NoWorkers s.freed)
      (fun s => NoWorkers s.freed ∧ NoWorkers s.streams)
      (fun s => NoWorkers s.freed ∧ NoWorkers s.streams) where
  listens s h := h.1
  noLogfile s h := h
  startFails code s h := h.1
  traffic update s h := h
  worker i error s h := by
    cases error <;> exact h
  timer timer s hduration h := h
  expire sent s hC htimer h := serverTimerProc_freed sent h (hC rfl htimer)
  turn env s hC hdone h := by
    rw [serverTurn_freed]
    exact ⟨fun _ => h, fun _ => h⟩
  rateExceeded sent s hC hdone h := by
    rw [(setSendState_same sent .serverError _).1]
    exact h
  selectFails s hC hdone h := h
  idleTimeout oneOff s hC hstart h := h
  noMessage s hC hquiet h := h
  finish jsonFinished affinityCleared s hC hjson hdone h := h
  noJson affinityCleared s hC hjson hdone h := ⟨h, hC rfl hjson rfl⟩
  cleanup s h := ⟨h, noWorkers_cleanupServer s⟩
  late s h := h
  reset s h := by
    refine ⟨noWorkers_append h.1 h.2, ?_⟩
    intro sp hsp
    cases hsp
  exits s h := h

theorem joined_run
    {b : Build} {events : List ServerEvent} {p : Process}
    (h : p.Holds (fun s => NoWorkers s.freed)
      (fun s => NoWorkers s.freed ∧ NoWorkers s.streams)
      (fun s => NoWorkers s.freed ∧ NoWorkers s.streams))
    (hrun : JoinsFirstRun b p events) : NoWorkers (p.run b events).server.freed := by
  induction events generalizing p with
  | nil =>
      obtain ⟨s, phase⟩ := p
      cases phase with
      | running => exact h
      | between => exact h.1
      | returned rc => exact h.1
      | exited => exact h.1
  | cons event events ih =>
      apply ih _ hrun.2
      apply (joinRules b).step h
      intro hphase
      obtain ⟨s, phase⟩ := p
      subst hphase
      exact hrun.1

/-- In a run in which no worker is running when the duration timer expires on
an unfinished test, or when the JSON output fails, every stream that is ever
freed has been joined. -/
theorem freed_streams_are_joined
    (b : Build) (side : TestSide) {events : List ServerEvent}
    (hrun : JoinsFirstRun b (serverProcess side) events) :
    ∀ sp ∈ ((serverProcess side).run b events).server.freed, sp.threadCreated = false :=
  joined_run ⟨by simp [NoWorkers, serverProcess], by simp [NoWorkers, serverProcess]⟩ hrun

/-! ## A test that runs too long -/

/-- A server side at the start of the program. -/
def freshSide (t : Test) : TestSide where
  test := t
  cpuUtil := (0, 0, 0)
  remoteCpuUtil := (0, 0, 0)
  jsonOutput := false
  jsonTop := .null
  serverOutputList := []
  jsonServerOutput := none
  serverOutputText := none
  streams := []

def exampleCookie : List UInt8 := List.replicate 36 97 ++ [0]

/-- A client with default parameters connects and its one stream starts. -/
def startedTest : List ServerEvent :=
  let start := StartEnv.ok (IperfTime.ofCounters 0 0) 1
  [.start .listens,
    .turn ⟨some (.ok exampleCookie (some (.object []))), none, none, start⟩,
    .turn ⟨none, none, some (.ok exampleCookie []), start⟩]

/-- The client terminates the test, and the server gets ready for the next. -/
def terminatedTest : List ServerEvent :=
  let start := StartEnv.ok (IperfTime.ofCounters 0 0) 1
  startedTest ++
    [.turn ⟨none, some (.ok TestState.clientTerminate.toByte none), none, start⟩,
      .finish true true,
      .reset true false]

def defaultServer (b : Build) : Process :=
  serverProcess (freshSide (serverStart b ServerArgs.default))

theorem freed_streams_are_joined_terminated :
    ((defaultServer Build.linux).run Build.linux terminatedTest).server.freed.length = 1 ∧
      ∀ sp ∈ ((defaultServer Build.linux).run Build.linux terminatedTest).server.freed,
        sp.threadCreated = false := by
  constructor
  · rfl
  · exact freed_streams_are_joined Build.linux _
      ⟨trivial, trivial, trivial, trivial, fun _ h => absurd h (by decide), trivial, trivial⟩

/-- The duration timer expires on a running test. -/
theorem expired_test_frees_running_worker :
    ∃ sp ∈ ((defaultServer Build.linux).run Build.linux
      (startedTest ++ [.expire true])).server.freed, sp.threadCreated = true :=
  ⟨_, List.mem_cons_self, rfl⟩

end Iperf3
