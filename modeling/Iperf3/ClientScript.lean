import Iperf3.ControlScript
import Mathlib.Tactic

/-!
# The client's part of the script

The client answers the states that the server sends.  It leaves the script by
failing: then its sockets are closed, with an early `IPERF_DONE` unless the
server has sent an error.
-/

namespace Iperf3

open Channels MachineInt

/-- Where the client is in a test.  It waits for a state or is in the middle
of answering one. -/
inductive ClientStage where
  | connecting
  | cookie
  | connected
  | params
  | told
  | streams
  | testStart
  | started
  | running
  | ended
  | sendResults
  | getResults
  | exchanged
  | display
  deriving DecidableEq

/-- A call of `iperf_create_streams`. -/
def ClientAction.dials : ClientAction → Bool
  | .dialStream | .takeReply | .newStream _ => true
  | _ => false

def ClientAction.adds : ClientAction → Bool
  | .newStream _ => true
  | _ => false

namespace ClientStage

/-- What may be left of a handler. -/
def Allows (todo : List ClientAction) : ClientStage → Prop
  | connecting => todo = []
  | cookie => todo = [.sendCookie]
  | params => todo = [.sendParameters]
  | streams => (∀ action ∈ todo, action.dials = true) ∨ todo = [.readMessage]
  | testStart => todo = [.testStart]
  | sendResults => todo = [.sendResults, .getResults]
  | getResults => todo = [.getResults]
  | display => todo = [.clientEnd]
  | _ => todo = [] ∨ todo = [.readMessage]

def reads : ClientStage → ℕ
  | connecting | cookie | connected => 0
  | params | told => 1
  | streams => 2
  | testStart | started => 3
  | running | ended => 4
  | sendResults | getResults => 5
  | exchanged => 6
  | display => 7

def writes : ClientStage → ℕ
  | connecting | cookie => 0
  | connected | params => 1
  | told | streams | testStart | started | running => 2
  | ended | sendResults => 3
  | getResults | exchanged | display => 4

def state : ClientStage → TestState
  | connecting | cookie | connected => .initial
  | params | told => .paramExchange
  | streams => .createStreams
  | testStart | started => .testStart
  | running => .testRunning
  | ended => .testEnd
  | sendResults | getResults | exchanged => .exchangeResults
  | display => .displayResults

/-- The streams that are there and those that are still to be created. -/
def Counts (k : ℕ) (todo : List ClientAction) (c : Client) (stage : ClientStage) : Prop :=
  if stage.reads < 2 then c.streams = [] else c.streams.length + todo.countP ClientAction.adds = k

end ClientStage

structure ClientReady (t : Test) (stage : ClientStage) (todo : List ClientAction) (c : Client) :
    Prop where
  state : c.state = stage.state
  ctrlSck : stage ≠ .connecting → c.ctrlSck = true
  test : stage.reads < 2 → c.test = t
  ids : InIdOrder c.streams
  counts : stage.Counts t.totalStreams todo c

/-! ## Calls of the client -/

/-- A call that writes nothing and is not surprised. -/
def ClientCall.silent : ClientCall → Bool
  | .sent _ | .streamsClosed => false
  | .raised code => code ∉ protocolErrors
  | _ => true

/-- A call that is not a surprise. -/
def ClientCall.calm : ClientCall → Bool
  | .raised code => code ∉ protocolErrors
  | _ => true

theorem ClientCall.calm_of_silent {call : ClientCall} (h : call.silent = true) :
    call.calm = true := by
  cases call <;> first | rfl | exact h

/-- A call after which the script goes on. -/
structure ClientProceeds (c c' : Client) : Prop where
  state : c'.state = c.state
  ctrlSck : c'.ctrlSck = c.ctrlSck
  test : c'.test = c.test
  ids : c'.streams.map (·.id) = c.streams.map (·.id)
  calls : Added ClientCall.silent c.calls c'.calls

/-- A call before the sockets are closed. -/
structure Failing (c c' : Client) : Prop where
  state : c'.state = c.state
  ctrlSck : c'.ctrlSck = c.ctrlSck
  calls : Added ClientCall.silent c.calls c'.calls

/-- The call goes on, or it fails. -/
def ClientPasses (c : Client) (r : Client × Bool) : Prop :=
  (r.2 = true ∧ ClientProceeds c r.1) ∨ (r.2 = false ∧ Failing c r.1)

section Passes

variable {t : Test} {stage : ClientStage} {todo : List ClientAction} {c c' c'' : Client}
  {r : Client × Bool}

theorem ClientProceeds.refl (c : Client) : ClientProceeds c c :=
  ⟨rfl, rfl, rfl, rfl, Added.refl _⟩

theorem clientProceeds_log {call : ClientCall} (hcall : call.silent = true) :
    ClientProceeds c (c.log call) :=
  ⟨rfl, rfl, rfl, rfl, (Added.refl _).concat hcall⟩

theorem ClientProceeds.trans (h : ClientProceeds c c') (h' : ClientProceeds c' c'') :
    ClientProceeds c c'' where
  state := h'.state.trans h.state
  ctrlSck := h'.ctrlSck.trans h.ctrlSck
  test := h'.test.trans h.test
  ids := h'.ids.trans h.ids
  calls := h.calls.trans h'.calls

theorem ClientProceeds.failing (h : ClientProceeds c c') (h' : Failing c' c'') : Failing c c'' where
  state := h'.state.trans h.state
  ctrlSck := h'.ctrlSck.trans h.ctrlSck
  calls := h.calls.trans h'.calls

theorem failing_withErrno (c : Client) {code : IErrno} (hcode : code ∉ protocolErrors) :
    Failing c (c.withErrno code) :=
  ⟨rfl, rfl, (Added.refl _).concat (by simpa [ClientCall.silent] using hcode)⟩

theorem ClientReady.proceeds (h : ClientReady t stage todo c) (hc : ClientProceeds c c') :
    ClientReady t stage todo c' where
  state := hc.state.trans h.state
  ctrlSck hstage := hc.ctrlSck.trans (h.ctrlSck hstage)
  test hreads := hc.test.trans (h.test hreads)
  ids := h.ids.congr hc.ids
  counts := by
    have hlength : c'.streams.length = c.streams.length := by
      simpa using congrArg List.length hc.ids
    have hcounts := h.counts
    unfold ClientStage.Counts at hcounts ⊢
    split_ifs at hcounts ⊢
    · rw [hcounts] at hlength
      exact List.length_eq_zero_iff.mp hlength
    · rw [hlength]
      exact hcounts

theorem clientPasses_of_proceeds (h : ClientProceeds c c') : ClientPasses c (c', true) :=
  Or.inl ⟨rfl, h⟩

theorem ClientProceeds.passes (h : ClientProceeds c c') (hr : ClientPasses c' r) :
    ClientPasses c r := by
  rcases hr with ⟨hok, hr⟩ | ⟨hfails, hr⟩
  · exact Or.inl ⟨hok, h.trans hr⟩
  · exact Or.inr ⟨hfails, h.failing hr⟩

theorem ClientPasses.andThen {f : Client → Client × Bool} (hr : ClientPasses c r)
    (hf : ∀ u, ClientPasses u (f u)) : ClientPasses c (Iperf3.andThen f r) := by
  obtain ⟨u, ok⟩ := r
  rcases hr with ⟨hok, hr⟩ | ⟨hfails, hr⟩
  · cases hok
    exact hr.passes (hf u)
  · cases hfails
    exact Or.inr ⟨rfl, hr⟩

theorem clientPasses_check (c : Client) (ok : Bool) {code : IErrno}
    (hcode : code ∉ protocolErrors) : ClientPasses c (c.check ok code) := by
  unfold Client.check
  split_ifs
  · exact clientPasses_of_proceeds (ClientProceeds.refl c)
  · exact Or.inr ⟨rfl, failing_withErrno c hcode⟩

theorem handleTestStart_passes (env : ClientMessageEnv) (c : Client) :
    ClientPasses c (handleTestStart env c) := by
  have hcheck : ∀ (u : Client) ok, ClientPasses u (u.check ok .ieInitTest) :=
    fun u ok => clientPasses_check u ok (by decide)
  have hstamped : ClientProceeds c (c.stampStreams env.now) := by
    refine ⟨rfl, rfl, rfl, ?_, Added.refl _⟩
    rw [Client.stampStreams, List.map_map]
    rfl
  have htraffic : ∀ (u : Client) traffic, ClientProceeds u { u with traffic := traffic } :=
    fun u _ => ⟨rfl, rfl, rfl, rfl, Added.refl _⟩
  exact (((hstamped.passes (hcheck _ _)).andThen fun u =>
    (htraffic u _).passes (hcheck _ _)).andThen
    fun u => (htraffic u _).passes (hcheck _ _)).andThen fun u => hcheck u _

theorem createClientWorkers_passes (env : ClientStartEnv) (c : Client) :
    ClientPasses c (createClientWorkers env c) := by
  have hstarted : ClientProceeds c { c with startup := false } :=
    ⟨rfl, rfl, rfl, rfl, Added.refl _⟩
  have hspawned : ∀ u : Client, ClientProceeds u (u.spawn env.threads) := by
    intro u
    refine ⟨rfl, rfl, rfl, ?_, (Added.refl _).concat rfl⟩
    unfold Client.spawn Client.log
    dsimp only
    rw [List.map_map]
    calc
      u.streams.zipIdx.map _ = u.streams.zipIdx.map fun spi => spi.1.id := rfl
      _ = (u.streams.zipIdx.map Prod.fst).map (·.id) := by rw [List.map_map]; rfl
      _ = u.streams.map (·.id) := by rw [List.zipIdx_map_fst]
  exact ((hstarted.passes (clientPasses_check _ _ (by decide))).andThen fun u =>
    (hspawned u).passes (clientPasses_check _ _ (by decide))).andThen fun u =>
      clientPasses_check u _ (by decide)

end Passes

/-! ## Closing the connection -/

/-- All workers are joined, the sockets closed, and the server told unless it
has sent an error. -/
theorem cleanupAndFail_calls (c : Client) (hctrl : c.ctrlSck = true) :
    ∃ workers, (ClientProcess.cleanupAndFail c).client.calls =
      c.calls ++ .joined workers :: .streamsClosed ::
        if c.state.positive then [.sent .iperfDone] else [] := by
  refine ⟨c.select fun sp => !sp.done && sp.threadCreated, ?_⟩
  unfold ClientProcess.cleanupAndFail iperfClientEnd Client.join Client.log
  dsimp only
  split_ifs <;> simp [Client.setSendState, Client.enter, Client.log, hctrl]

theorem iperfClientEnd_eq (c : Client) (hctrl : c.ctrlSck = true)
    (hpositive : c.state.positive = true) :
    (iperfClientEnd true c).1 =
      Client.log (.sent .iperfDone) ((c.log .streamsClosed).enter .iperfDone) := by
  simp [iperfClientEnd, Client.setSendState, Client.enter, Client.log, hctrl, hpositive]

/-! ## The client's calls on the network -/

section Carry

variable {sn : Session} {c c' : Client} {net : Network}

theorem clientItems_silent {call : ClientCall} (h : call.silent = true) :
    clientItems call = [] := by
  cases call <;> first | rfl | cases h

theorem carryClient_of_calls (net : Network) {calls : List ClientCall}
    (h : c'.calls = c.calls ++ calls) :
    net.carryClient c c' =
      { net with toServer :=
          if .streamsClosed ∈ calls then (net.toServer.write (calls.flatMap clientItems)).close
          else net.toServer.write (calls.flatMap clientItems) } := by
  unfold Network.carryClient
  simp only [h, List.drop_left]

theorem carryClient_silent (h : Added ClientCall.silent c.calls c'.calls) :
    net.carryClient c c' = net := by
  obtain ⟨calls, heq, hcalls⟩ := h
  have hitems : calls.flatMap clientItems = [] := by
    rw [List.flatMap_eq_nil_iff]
    exact fun call hcall => clientItems_silent (hcalls call hcall)
  have hopen : .streamsClosed ∉ calls := fun hmem => absurd (hcalls _ hmem) (by decide)
  rw [carryClient_of_calls net heq, hitems, if_neg hopen]
  simp [Channel.write]

theorem carryClient_sent {state : TestState} {middle : Client}
    (h : Added ClientCall.silent c.calls middle.calls)
    (heq : c'.calls = middle.calls ++ [.sent state]) :
    net.carryClient c c' =
      { net with toServer := net.toServer.write [stateItem state] } := by
  obtain ⟨calls, hmiddle, hcalls⟩ := h
  have hitems : calls.flatMap clientItems = [] := by
    rw [List.flatMap_eq_nil_iff]
    exact fun call hcall => clientItems_silent (hcalls call hcall)
  have hopen : .streamsClosed ∉ calls ++ [.sent state] := by
    intro hmem
    rcases List.mem_append.mp hmem with hmem | hmem
    · exact absurd (hcalls _ hmem) (by decide)
    · simp at hmem
  rw [carryClient_of_calls net (heq.trans (by rw [hmiddle, List.append_assoc])), if_neg hopen,
    List.flatMap_append, hitems]
  rfl

/-- The sockets are closed, with an early `IPERF_DONE` in a positive state. -/
theorem carryClient_cleanup (net : Network) {failed : Client} (h : Failing c failed)
    (hctrl : c.ctrlSck = true) :
    net.carryClient c (ClientProcess.cleanupAndFail failed).client =
      { net with toServer := (net.toServer.write
          (if c.state.positive then [stateItem .iperfDone] else [])).close } := by
  obtain ⟨calls, heq, hcalls⟩ := h.calls
  obtain ⟨workers, hclosed⟩ := cleanupAndFail_calls failed (h.ctrlSck.trans hctrl)
  have hitems : calls.flatMap clientItems = [] := by
    rw [List.flatMap_eq_nil_iff]
    exact fun call hcall => clientItems_silent (hcalls call hcall)
  rw [heq, List.append_assoc, h.state] at hclosed
  rw [carryClient_of_calls net hclosed, if_pos (by simp), List.flatMap_append, hitems]
  congr 3
  split_ifs <;> rfl

end Carry

/-! ## The loop -/

/-- The senders are stopped, and then the server is told. -/
theorem stopSenders_sent (b : Build) {c : Client} (hctrl : c.ctrlSck = true) :
    ∃ stopped, ClientProceeds c stopped ∧
      stopSenders b true c = (Client.log (.sent .testEnd) (stopped.enter .testEnd), true) := by
  have hids : ((c.join fun sp => sp.sender).streams).map (·.id) = c.streams.map (·.id) := by
    unfold Client.join Client.log
    dsimp only
    rw [List.map_map]
    apply List.map_congr_left
    intro sp _
    dsimp only [Function.comp_apply]
    split_ifs <;> rfl
  have hjoined : ClientProceeds c (c.join fun sp => sp.sender) :=
    ⟨rfl, rfl, rfl, hids, (Added.refl _).concat rfl⟩
  have hshut : ∀ u : Client, ClientProceeds u (u.shutDownSenders b) := by
    intro u
    unfold Client.shutDownSenders
    split_ifs
    · exact clientProceeds_log rfl
    · exact ClientProceeds.refl u
  have hfinished : ∀ u : Client, ClientProceeds u u.finishTraffic :=
    fun u => ⟨rfl, rfl, rfl, rfl, Added.refl _⟩
  have hstopped := (hjoined.trans (hshut _)).trans (hfinished _)
  refine ⟨_, hstopped, ?_⟩
  unfold stopSenders Client.setSendState
  simp only [hstopped.ctrlSck.trans hctrl, if_true]

theorem finishRun_eq (jsonFinished : Bool) (c : Client) :
    ∃ rc, ClientProcess.finishRun jsonFinished c =
      ⟨c.join fun sp => !sp.sender, .returned rc⟩ := by
  unfold ClientProcess.finishRun
  dsimp only
  split_ifs
  · exact ⟨-1, rfl⟩
  · exact ⟨0, rfl⟩

/-- What an event of the loop can come to. -/
inductive ClientLoops (p : ClientProcess) : Bool → ClientProcess → Prop
  | works {busy : Bool} {c : Client} (hc : ClientProceeds p.client c) :
    ClientLoops p busy ⟨c, p.phase⟩
  | noMessage (hphase : p.phase = .waiting) (hstate : p.client.state = .testRunning) :
      ClientLoops p false (ClientProcess.cleanupAndFail (p.client.withErrno .ieNoMsg))
  | started {c : Client} (hphase : p.phase = .starting) (hc : ClientProceeds p.client c) :
      ClientLoops p false ⟨c, .checking⟩
  | startFails {c : Client} (hphase : p.phase = .starting) (hc : Failing p.client c) :
      ClientLoops p false (ClientProcess.cleanupAndFail c)
  | checked {c : Client} (hphase : p.phase = .checking) (hc : ClientProceeds p.client c) :
      ClientLoops p false ⟨c, .waiting⟩
  | ended {stopped : Client} (hphase : p.phase = .checking) (hc : ClientProceeds p.client stopped) :
      ClientLoops p false ⟨Client.log (.sent .testEnd) (stopped.enter .testEnd), .waiting⟩
  | finished {jsonFinished : Bool} (hphase : p.phase = .waiting)
      (hstate : p.client.state = .iperfDone) :
      ClientLoops p false (ClientProcess.finishRun jsonFinished p.client)

theorem startWorkers_loops (env : ClientStartEnv) {p : ClientProcess}
    (hphase : p.phase = .starting) :
    ClientLoops p false
      (if p.client.startup then
        if (createClientWorkers env p.client).2 then
          ⟨(createClientWorkers env p.client).1, .checking⟩
        else ClientProcess.cleanupAndFail (createClientWorkers env p.client).1
      else ⟨p.client, .checking⟩) := by
  split_ifs with hstartup hok
  · rcases createClientWorkers_passes env p.client with ⟨-, hc⟩ | ⟨hfails, -⟩
    · exact .started hphase hc
    · exact absurd hok (by simp [hfails])
  · rcases createClientWorkers_passes env p.client with ⟨hpasses, -⟩ | ⟨-, hc⟩
    · exact absurd hpasses hok
    · exact .startFails hphase hc
  · exact .started hphase (ClientProceeds.refl _)

theorem checkEnd_cases (b : Build) {c : Client} (hctrl : c.ctrlSck = true) :
    checkEnd b true c = (c, true) ∨ ∃ stopped, ClientProceeds c stopped ∧
      checkEnd b true c = (Client.log (.sent .testEnd) (stopped.enter .testEnd), true) := by
  unfold checkEnd
  split_ifs
  · exact Or.inr (stopSenders_sent b hctrl)
  · exact Or.inl rfl

theorem checkEnd_loops (b : Build) (events : List TrafficEvent) {p : ClientProcess}
    (hphase : p.phase = .checking) (hctrl : p.client.ctrlSck = true) {r : Client × Bool}
    (hr : checkEnd b true { p.client with traffic := p.client.traffic.run events } = r) :
    ClientLoops p false (if r.2 then ⟨r.1, .waiting⟩ else ClientProcess.cleanupAndFail r.1) := by
  have hfired : ClientProceeds p.client
      { p.client with traffic := p.client.traffic.run events } :=
    ⟨rfl, rfl, rfl, rfl, Added.refl _⟩
  rcases checkEnd_cases b (hfired.ctrlSck.trans hctrl) with hsame | ⟨stopped, hstopped, hsent⟩
  · cases hr.symm.trans hsame
    exact .checked hphase hfired
  · cases hr.symm.trans hsent
    exact .ended hphase (hfired.trans hstopped)

theorem clientStep_allowed {b : Build} {p : ClientProcess} {event : ClientEvent} {busy : Bool}
    (hctrl : p.phase = .checking → p.client.ctrlSck = true)
    (hallowed : event.allowed busy = true) : ClientLoops p busy (p.step b event) := by
  obtain ⟨c, phase⟩ := p
  have htraffic : ∀ traffic, ClientProceeds c { c with traffic := traffic } :=
    fun _ => ⟨rfl, rfl, rfl, rfl, Added.refl _⟩
  have hsame : ∀ busy, ClientLoops ⟨c, phase⟩ busy ⟨c, phase⟩ :=
    fun _ => .works (ClientProceeds.refl c)
  cases event with
  | sent r blockComplete => cases phase <;> first | exact hsame _ | exact .works (htraffic _)
  | received r => cases phase <;> first | exact hsame _ | exact .works (htraffic _)
  | workerReturns i => cases phase <;> first | exact hsame _ | exact .works (clientProceeds_log rfl)
  | noMessage =>
      simp only [ClientEvent.allowed, Bool.not_eq_true'] at hallowed
      subst hallowed
      cases phase with
      | waiting =>
          simp only [ClientProcess.step]
          split_ifs with hquiet
          · exact hsame _
          · simp only [not_or, ne_eq, not_not] at hquiet
            exact .noMessage rfl hquiet.1
      | connecting | starting | checking | returned => exact hsame _
  | start env =>
      simp only [ClientEvent.allowed, Bool.not_eq_true'] at hallowed
      subst hallowed
      cases phase with
      | starting => exact startWorkers_loops env rfl
      | connecting | waiting | checking | returned => exact hsame _
  | timers events told =>
      simp only [ClientEvent.allowed, Bool.and_eq_true, Bool.not_eq_true'] at hallowed
      obtain ⟨rfl, rfl⟩ := hallowed
      cases phase with
      | checking => exact checkEnd_loops b events rfl (hctrl rfl) rfl
      | connecting | waiting | starting | returned => exact hsame _
  | finish jsonFinished =>
      simp only [ClientEvent.allowed, Bool.not_eq_true'] at hallowed
      subst hallowed
      cases phase with
      | waiting =>
          simp only [ClientProcess.step]
          split_ifs with hdone
          · exact .finished rfl hdone
          · exact hsame _
      | connecting | starting | checking | returned => exact hsame _
  | connect connecting => cases hallowed
  | selectFails => cases hallowed
  | wake message => cases hallowed

end Iperf3
