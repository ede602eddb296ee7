import Iperf3.ErrorReports
import Mathlib.Tactic

/-!
# One-off servers

The loop of `run` around a server that was started with `--one-off`.  After
each return of `iperf_run_server` it decides, from the return code and the
error code, whether another client may connect.  In this mode an idle timeout
does not return at all.
-/

namespace Iperf3

/-! ## The error code of a refused login -/

theorem getParameters_ne_ieAuthTest
    {b : Build} {message : Option Json} {t : Test} (h : t.iErrno ≠ .ieAuthTest) :
    (getParameters b message t).1.iErrno ≠ .ieAuthTest := by
  have hset : ∀ (id : ProtocolId) (t : Test), t.iErrno ≠ .ieAuthTest →
      (t.setProtocol b id).iErrno ≠ .ieAuthTest := by
    intro id t ht
    unfold Test.setProtocol Test.checkSenderHasRetransmits
    split_ifs <;> simp_all
  cases message with
  | none => simp [getParameters]
  | some j =>
      have hselect : ∀ (wanted : Bool) (id : ProtocolId) (t : Test), t.iErrno ≠ .ieAuthTest →
          (if wanted then t.setProtocol b id else t).iErrno ≠ .ieAuthTest := by
        intro wanted id t ht
        split_ifs
        · exact hset id t ht
        · exact ht
      have hprotocol : (readProtocol b j t).1.iErrno ≠ .ieAuthTest := by
        have htcp := hselect (j.boolItem .tcp) .tcp t h
        unfold readProtocol
        generalize (if j.boolItem .tcp then t.setProtocol b .tcp else t) = u at htcp
        apply hselect
        split_ifs
        · simp
        · exact hset .udp u htcp
        · exact htcp
      simp only [getParameters, checkLimits_eq]
      unfold Test.limitErrno
      split_ifs
      · simp
      · simp
      · rw [readParameters_iErrno]
        exact hprotocol

theorem getResults_ne_ieAuthTest
    {message : Option Json} {side : TestSide} (h : side.test.iErrno ≠ .ieAuthTest) :
    (getResults message side).1.test.iErrno ≠ .ieAuthTest := by
  have hitems : ∀ (items : List Json) (state : ReadState), state.iErrno ≠ .ieAuthTest →
      (items.foldl readStreamItem state).iErrno ≠ .ieAuthTest := by
    intro items
    induction items with
    | nil => exact fun state hstate => hstate
    | cons item items ih =>
        intro state hstate
        apply ih
        unfold readStreamItem
        split
        · simp
        · split
          · simp
          · exact hstate
  have hflags : ∀ (t : Test) (result : ℤ), (readRetransmitFlags t result).iErrno = t.iErrno := by
    intro t result
    unfold readRetransmitFlags
    split <;> rfl
  have hstreams : ∀ (j : Json) (side : TestSide), side.test.iErrno ≠ .ieAuthTest →
      (readStreams j side).1.test.iErrno ≠ .ieAuthTest := by
    intro j side hside
    unfold readStreams
    split
    · rename_i items _
      have hread := hitems items ⟨side.streams, side.test.iErrno, true⟩ hside
      dsimp only
      split_ifs
      · split <;> exact hread
      · exact hread
    · simp
  unfold getResults
  split
  · simp
  · split
    · apply hstreams
      rw [hflags]
      exact h
    · simp [readCongestion]

theorem inert_ne_ieAuthTest : Inert (fun s => s.test.iErrno ≠ .ieAuthTest) where
  congr s s' hagree h := by
    rw [hagree.iErrno]
    exact h
  log call s hcall h := h
  withErrno code hcode s h := hcode
  cleanupServer s h := h
  results message s h := by
    have hread : (getResults message s.toTestSide).1.test.iErrno ≠ .ieAuthTest :=
      getResults_ne_ieAuthTest h
    unfold Server.getResults Server.noteErrno
    dsimp only
    split_ifs <;> exact hread

theorem acceptClient_ne_ieAuthTest
    {b : Build} (env : AcceptEnv) {s : Server} (h : s.test.iErrno ≠ .ieAuthTest) :
    (acceptClient b env s).1.test.iErrno ≠ .ieAuthTest := by
  have hread : Keeps (fun s : Server => s.test.iErrno ≠ .ieAuthTest)
      (fun s => s.getParameters b env.message) := by
    intro s hs
    have hparameters : (getParameters b env.message s.test).1.iErrno ≠ .ieAuthTest :=
      getParameters_ne_ieAuthTest hs
    dsimp only
    unfold Server.getParameters Server.noteErrno
    dsimp only
    split_ifs <;> exact hparameters
  exact acceptClient_keeps inert_ne_ieAuthTest.withErrno (fun _ _ hs => hs) (fun _ _ hs => hs)
    (fun _ _ hs => hs) (fun _ _ _ _ hs => hs) env (fun _ _ hs => hs) hread (fun _ hs => hs) h

theorem authRules (b : Build) :
    ServerRules b (fun _ _ => True) (fun s => s.test.iErrno ≠ .ieAuthTest)
      (fun s => s.test.iErrno ≠ .ieAuthTest) (fun s => s.test.iErrno ≠ .ieAuthTest)
      (fun s => s.test.iErrno ≠ .ieAuthTest) where
  listens s h := h
  noLogfile s h := h
  startFails code s h := code.property.2
  traffic update s h := h
  worker i error s h := inert_ne_ieAuthTest.checkError error s h
  timer timer s hduration h := h
  expire sent s hC htimer h := inert_ne_ieAuthTest.serverTimerProc sent h fun s hs => hs
  turn env s hC hdone h := by
    have hturn : (serverTurn b env s).1.test.iErrno ≠ .ieAuthTest :=
      inert_ne_ieAuthTest.serverTurn b (fun s hs => hs) h
        fun accept _ _ _ _ => acceptClient_ne_ieAuthTest accept h
    exact ⟨fun _ => hturn, fun _ => hturn⟩
  rateExceeded sent s hC hdone h :=
    inert_ne_ieAuthTest.setSendState sent _ (s.withErrno .ieTotalRate)
      (by simp [Server.withErrno, Server.log])
  selectFails s hC hdone h := h
  idleTimeout oneOff s hC hstart h := h
  noMessage s hC hquiet h := by simp [Server.withErrno, Server.log]
  finish jsonFinished affinityCleared s hC hjson hdone h := h
  noJson affinityCleared s hC hjson hdone h := h
  cleanup s h := h
  late s h := by simp [Server.withErrno, Server.log]
  reset s h := by
    unfold Process.resetTest Test.iperfResetTest Test.setProtocol Test.checkSenderHasRetransmits
    dsimp only [Server.log]
    split_ifs <;> simp_all
  exits s h := h

/-! ## The loop of `run` -/

/-- What can happen inside one call of `iperf_run_server` in this mode. -/
def OneOffEvent : ServerEvent → Prop
  | .start _ | .reset _ _ => False
  | .idleTimeout oneOff => oneOff = true
  | _ => True

/-- One turn of the loop: how `iperf_run_server` starts, what happens in it,
and whether the JSON output of a failed test can be printed. -/
structure Attempt where
  startup : Startup
  events : List ServerEvent
  inLoop : ∀ event ∈ events, OneOffEvent event
  jsonFinished : Bool

namespace Process

/-- The decision after a test; a refused login was meant not to count. -/
def oneOffStops (p : Process) : Bool :=
  match p.phase with
  | .returned rc => rc ≠ 2 && !(rc < 0 && p.server.test.iErrno = .ieAuthTest)
  | _ => false

/-- The process when `iperf_run_server` is left. -/
def attempted (b : Build) (p : Process) (a : Attempt) : Process :=
  (p.step b (.start a.startup)).run b a.events

def serve (b : Build) (p : Process) (a : Attempt) : Process :=
  (p.attempted b a).step b (.reset a.jsonFinished (p.attempted b a).oneOffStops)

/-- The calls that were made in the attempt. -/
def attemptCalls (b : Build) (p : Process) (a : Attempt) : List ServerCall :=
  (p.attempted b a).server.calls.drop p.server.calls.length

/-- `test_is_authorized` has refused the client. -/
def Rejected (b : Build) (p : Process) (a : Attempt) : Prop :=
  ∃ outcome, outcome.ok = false ∧ .testIsAuthorized outcome ∈ p.attemptCalls b a

/-- No client has come in time. -/
def Idle (b : Build) (p : Process) (a : Attempt) : Prop :=
  .idleRestart ∈ p.attemptCalls b a

/-- The loop goes on after refused logins and idle restarts, and is left after
the first other attempt. -/
def Survives (b : Build) (p : Process) : List Attempt → Prop
  | [] => p.phase = .between
  | a :: attempts =>
      p.phase = .between ∧
        (p.Rejected b a ∨ p.Idle b a → Survives b (p.serve b a) attempts) ∧
        (¬ (p.Rejected b a ∨ p.Idle b a) → (p.serve b a).phase = .exited)

theorem Survives.between {b : Build} {p : Process} {attempts : List Attempt}
    (h : p.Survives b attempts) : p.phase = .between := by
  cases attempts with
  | nil => exact h
  | cons a attempts => exact h.1

/-- Every attempt goes on until `iperf_run_server` is left. -/
def Finishes (b : Build) (p : Process) : List Attempt → Prop
  | [] => True
  | a :: attempts => (p.attempted b a).phase ≠ .running ∧ Finishes b (p.serve b a) attempts

end Process

section Attempts

variable {b : Build}

/-- In the loop no test begins, and no return has the code of an idle
restart. -/
theorem step_oneOff
    {p : Process} {event : ServerEvent} (hloop : OneOffEvent event)
    (h : p.phase ≠ .between ∧ p.phase ≠ .returned 2) :
    (p.step b event).phase ≠ .between ∧ (p.step b event).phase ≠ .returned 2 := by
  obtain ⟨s, phase⟩ := p
  cases phase with
  | between => exact absurd rfl h.1
  | exited => cases event <;> exact h
  | returned rc =>
      cases event with
      | reset => exact absurd hloop id
      | _ => exact h
  | running =>
      cases event with
      | start | reset => exact absurd hloop id
      | traffic | workerReturns => exact h
      | idleTimeout oneOff =>
          have honeOff : oneOff = true := hloop
          subst honeOff
          unfold Process.step
          simp only [if_true]
          split_ifs <;> simp
      | turn env =>
          unfold Process.step Process.afterTurn Process.cleanedUp Process.stop
          dsimp only
          split_ifs <;> simp
      | finish jsonFinished affinityCleared =>
          unfold Process.step Process.finishRun Process.cleanedUp Process.stop
          dsimp only
          split_ifs <;> simp
      | _ =>
          unfold Process.step Process.cleanedUp Process.stop
          dsimp only
          split_ifs <;> simp

theorem run_oneOff
    {events : List ServerEvent} (hloop : ∀ event ∈ events, OneOffEvent event) {p : Process}
    (h : p.phase ≠ .between ∧ p.phase ≠ .returned 2) :
    (p.run b events).phase ≠ .between ∧ (p.run b events).phase ≠ .returned 2 := by
  induction events generalizing p with
  | nil => exact h
  | cons event events ih =>
      apply ih fun event hevent => hloop event (List.mem_cons_of_mem _ hevent)
      exact step_oneOff (hloop event List.mem_cons_self) h

theorem attempted_oneOff {p : Process} (a : Attempt) (h : p.phase = .between) :
    (p.attempted b a).phase ≠ .between ∧ (p.attempted b a).phase ≠ .returned 2 := by
  apply run_oneOff a.inLoop
  obtain ⟨s, phase⟩ := p
  subst h
  cases a.startup <;> simp [Process.step, Process.beginRun, Process.cleanedUp, Process.stop]

/-- What is known of the error code at every moment. -/
def NoAuthCode (p : Process) : Prop :=
  p.Holds (fun s => s.test.iErrno ≠ .ieAuthTest) (fun s => s.test.iErrno ≠ .ieAuthTest)
    (fun s => s.test.iErrno ≠ .ieAuthTest)

theorem NoAuthCode.iErrno {p : Process} (h : NoAuthCode p) :
    p.server.test.iErrno ≠ .ieAuthTest := by
  unfold NoAuthCode Process.Holds at h
  split at h <;> exact h

theorem NoAuthCode.run {p : Process} (h : NoAuthCode p) (events : List ServerEvent) :
    NoAuthCode (p.run b events) := by
  induction events generalizing p with
  | nil => exact h
  | cons event events ih => exact ih ((authRules b).step h fun _ => trivial)

theorem NoAuthCode.attempted {p : Process} (h : NoAuthCode p) (a : Attempt) :
    NoAuthCode (p.attempted b a) :=
  NoAuthCode.run ((authRules b).step h fun _ => trivial) a.events

/-- A server that is left without the code of a refused login stops. -/
theorem serve_exited
    {p : Process} {a : Attempt} (hserving : p.phase = .between)
    (hreturned : (p.attempted b a).phase ≠ .running)
    (hcode : (p.attempted b a).server.test.iErrno ≠ .ieAuthTest) :
    (p.serve b a).phase = .exited := by
  obtain ⟨hbetween, hidle⟩ := attempted_oneOff (b := b) a hserving
  unfold Process.serve
  generalize p.attempted b a = q at hreturned hcode hbetween hidle
  obtain ⟨s, phase⟩ := q
  cases phase with
  | between => exact absurd rfl hbetween
  | running => exact absurd rfl hreturned
  | exited => rfl
  | returned rc =>
      have hrc : rc ≠ 2 := fun h => hidle (h ▸ rfl)
      have hstops : Process.oneOffStops ⟨s, .returned rc⟩ = true := by
        unfold Process.oneOffStops
        simp_all
      show (Process.resetRun b rc a.jsonFinished _ s).phase = .exited
      unfold Process.resetRun
      simp only [hstops, if_true]
      split_ifs
      · rfl
      · rfl

end Attempts

/-- A one-off server leaves its loop after its first attempt, whatever that is;
so it survives what it should exactly if there is nothing to survive. -/
theorem one_off_survives_iff
    (b : Build) (side : TestSide) (hside : side.test.iErrno = .ieNone) {attempts : List Attempt}
    (hfinishes : (serverProcess side).Finishes b attempts) :
    (serverProcess side).Survives b attempts ↔
      ∀ a ∈ attempts.head?,
        ¬ ((serverProcess side).Rejected b a ∨ (serverProcess side).Idle b a) := by
  cases attempts with
  | nil => exact ⟨fun _ => nofun, fun _ => rfl⟩
  | cons a attempts =>
      have hstart : NoAuthCode (serverProcess side) := by
        have hnone : side.test.iErrno ≠ .ieAuthTest := by simp [hside]
        exact hnone
      have hexited : ((serverProcess side).serve b a).phase = .exited :=
        serve_exited rfl hfinishes.1 (hstart.attempted a).iErrno
      constructor
      · rintro ⟨-, hgoesOn, -⟩ x hx hrefused
        obtain rfl : a = x := Option.some.inj hx
        exact absurd ((hgoesOn hrefused).between.symm.trans hexited) (by simp)
      · intro hserved
        exact ⟨rfl, fun hrefused => absurd hrefused (hserved a rfl), fun _ => hexited⟩

/-- A client comes whose test completes. -/
def completedAttempt : Attempt where
  startup := .listens
  events := completedTest.tail
  inLoop := by simp [completedTest, startedTest, OneOffEvent]
  jsonFinished := true

theorem one_off_survives_completed :
    (defaultServer Build.linux).Survives Build.linux [completedAttempt] := by
  have hfinishes : (defaultServer Build.linux).Finishes Build.linux [completedAttempt] :=
    ⟨by decide +kernel, trivial⟩
  apply (one_off_survives_iff Build.linux _ rfl hfinishes).mpr
  rintro a ha (⟨outcome, hrefused, hcall⟩ | hidle)
  · obtain rfl := Option.some.inj ha
    revert hcall hrefused
    cases outcome <;> decide +kernel
  · obtain rfl := Option.some.inj ha
    revert hidle
    unfold Process.Idle
    decide +kernel

/-- A client comes whose password is wrong. -/
def refusedAttempt : Attempt where
  startup := .listens
  events :=
    [.turn ⟨some refusedAccept, none, none, StartEnv.ok (IperfTime.ofCounters 0 0) 1⟩]
  inLoop := by simp [OneOffEvent]
  jsonFinished := true

/-- A refused login ends the loop, which looks for a code that nothing sets. -/
theorem refused_one_off_exits :
    ¬ (defaultServer Build.linux).Survives Build.linux [refusedAttempt] := by
  intro h
  have hrejected : (defaultServer Build.linux).Rejected Build.linux refusedAttempt :=
    ⟨.wrongPassword, rfl, by decide +kernel⟩
  have hphase : ((defaultServer Build.linux).serve Build.linux refusedAttempt).phase = .between :=
    h.2.1 (Or.inl hrejected)
  exact absurd hphase (by decide +kernel)

end Iperf3
