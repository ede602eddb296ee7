import Iperf3.ClientJoins
import Iperf3.ControlClient
import Iperf3.WorkerLifetime
import Mathlib.Tactic

/-!
# Agreement on the control connection

Both parties keep to their scripts in every run: the sides and the channels
are related by an invariant that each step of a party keeps.
-/

namespace Iperf3

open Channels MachineInt

/-- What relates the parties to the channels. -/
structure InStep (sn : Session) (t : Test) (params : Json) (y : System) : Prop where
  server : ServerSide sn params t.totalStreams y.server y.net
  client : ClientSide sn t params y.client y.net
  toServer : ∃ pending, y.net.toServer.Agrees pending
  toClient : ∃ pending, y.net.toClient.Agrees pending

/-- The codec carries the results that a party is about to send. -/
def System.ResultsCarried (sn : Session) (y : System) : Prop :=
  (y.server.todo.head? = some .sendResults →
    sn.codec.Carries 0 (sendResults y.server.process.server.toTestSide)) ∧
  (y.client.todo.head? = some .sendResults →
    sn.codec.Carries 0 (sendResults y.client.process.client.toTestSide))

section Step

variable {sn : Session} {t : Test} {params : Json} {y y' : System}

theorem InStep.awaits (h : InStep sn t params y) {stage : ServerStage}
    (hserver : ServerTalks sn params t.totalStreams stage y.server y.net) :
    sn.Awaits params t.totalStreams y.net stage.reads := by
  obtain ⟨main, late, hwrote⟩ := h.client.wrote
  exact hwrote.awaits hserver.not_broken hserver.reads hserver.taken

theorem InStep.offers (h : InStep sn t params y) {stage : ClientStage}
    (hclient : ClientTalks sn t params stage y.client y.net) :
    sn.Offers t.totalStreams y.net stage.reads :=
  h.server.offers hclient.reads hclient.taken

theorem InStep.ofServer (h : InStep sn t params y)
    (hgoes : ServerGoes sn params t.totalStreams y y') : InStep sn t params y' where
  server := hgoes.side
  client := by
    rw [hgoes.client]
    exact h.client.byServer hgoes.net h.toClient
  toServer := hgoes.net.toServer h.toServer
  toClient := by
    obtain ⟨pending, hpending⟩ := h.toClient
    obtain ⟨later, hlater⟩ := hgoes.net.toClient pending hpending
    exact ⟨_, hlater⟩

theorem InStep.ofClient (h : InStep sn t params y) (hgoes : ClientGoes sn t params y y') :
    InStep sn t params y' where
  server := by
    rw [hgoes.server]
    exact h.server.byClient hgoes.net
  client := hgoes.side
  toServer := by
    obtain ⟨pending, hpending⟩ := h.toServer
    obtain ⟨later, hlater⟩ := hgoes.net.toServer pending hpending
    exact ⟨_, hlater⟩
  toClient := hgoes.net.toClient h.toClient

/-- A step is one of the server's or one of the client's. -/
theorem InStep.goes (hs : sn.Suits t params) (h : InStep sn t params y)
    (hcarries : y.ResultsCarried sn) (event : SystemEvent) :
    ServerGoes sn params t.totalStreams y (y.step sn event) ∨
      ClientGoes sn t params y (y.step sn event) := by
  cases event with
  | serverTurn listener control data =>
      exact Or.inl (serverTurn_goes h.server listener control data)
  | serverCall o =>
      exact Or.inl (serverCall_goes hs h.server h.toServer h.toClient
        (fun _ hserver => h.awaits hserver) hcarries.1)
  | serverLoop event => exact Or.inl (serverLoop_goes h.server event)
  | clientConnect => exact Or.inr (clientConnect_goes h.client)
  | clientWake message => exact Or.inr (clientWake_goes h.client message)
  | clientCall o =>
      exact Or.inr (clientCall_goes hs h.client h.toClient h.toServer
        (fun _ hclient => h.offers hclient) hcarries.2)
  | clientLoop event => exact Or.inr (clientLoop_goes h.client event)

/-- What the step does to the calls, with the state after it. -/
theorem InStep.calls (hs : sn.Suits t params) (h : InStep sn t params y)
    (hcarries : y.ResultsCarried sn) (event : SystemEvent) :
    Since (ServerCall.calm (y.step sn event).server.process.server.state)
        y.server.process.server (y.step sn event).server.process.server ∧
      Added ClientCall.calm y.client.process.client.calls
        (y.step sn event).client.process.client.calls := by
  rcases h.goes hs hcarries event with hgoes | hgoes
  · refine ⟨hgoes.calls, ?_⟩
    rw [hgoes.client]
    exact Added.refl _
  · refine ⟨?_, hgoes.calls⟩
    rw [hgoes.server]
    exact Since.refl _

theorem InStep.step (hs : sn.Suits t params) (h : InStep sn t params y)
    (hcarries : y.ResultsCarried sn) (event : SystemEvent) :
    InStep sn t params (y.step sn event) := by
  rcases h.goes hs hcarries event with hgoes | hgoes
  · exact h.ofServer hgoes
  · exact h.ofClient hgoes

end Step

/-! ## What the client is told -/

section Told

variable {sn : Session} {s s' : Server} {net : Network} {y : System} {state : TestState}

theorem stateItem_inj {state state' : TestState} (h : stateItem state = stateItem state')
    (hnamed : state ∈ TestState.named) (hnamed' : state' ∈ TestState.named) : state = state' := by
  have hbyte : state.toByte = state'.toByte := by simpa [stateItem] using h
  rw [← TestState.ofByte_toByte_of_mem hnamed, hbyte, TestState.ofByte_toByte_of_mem hnamed']

/-- An error report, or the state that is sent. -/
theorem serverItems_state {code : IErrno} {call : ServerCall}
    (h : stateItem state ∈ sn.serverItems code call) :
    stateItem state = stateItem .serverError ∨
      ∃ told, call = .sent told ∧ stateItem state = stateItem told := by
  unfold Session.serverItems at h
  split at h
  · left
    simpa [stateItem] using h
  · left
    simpa [stateItem] using h
  · rename_i told _
    exact Or.inr ⟨told, rfl, by simpa using h⟩
  · cases h

/-- A state that the client is told of is the server's after the call. -/
theorem carryServer_told (hnamed : state ∈ TestState.named)
    (h : Since (ServerCall.calm s'.state) s s')
    (hmem : stateItem state ∈ (net.carryServer sn s s').toClient.written) :
    stateItem state ∈ net.toClient.written ∨ state = .serverError ∨ s'.state = state := by
  obtain ⟨calls, heq, hcalls⟩ := h
  have hwritten : (net.carryServer sn s s').toClient.written =
      net.toClient.written ++ calls.flatMap (sn.serverItems s'.test.iErrno) := by
    unfold Network.carryServer
    simp only [heq, List.drop_left]
    split_ifs <;> rfl
  rw [hwritten] at hmem
  rcases List.mem_append.mp hmem with hmem | hmem
  · exact Or.inl hmem
  · obtain ⟨call, hcall, hitem⟩ := List.mem_flatMap.mp hmem
    right
    rcases serverItems_state hitem with herror | ⟨told, rfl, htold⟩
    · exact Or.inl (stateItem_inj herror hnamed (by decide))
    · have hcalm := hcalls _ hcall
      simp only [ServerCall.calm, Bool.and_eq_true, Bool.or_eq_true, decide_eq_true_eq] at hcalm
      obtain ⟨hnamed', hstate⟩ := hcalm
      rw [stateItem_inj htold hnamed hnamed']
      exact hstate.imp_right Eq.symm

/-- No call writes a state by itself. -/
theorem perform_written {o : ServerOutcomes} {action : ServerAction}
    {r : Called Server ServerAction} (h : action.perform sn o s net = some r)
    (hmem : stateItem state ∈ r.net.toClient.written) :
    stateItem state ∈ net.toClient.written := by
  cases action with
  | accept =>
      simp only [ServerAction.perform] at h
      split_ifs at h <;> cases h <;> exact hmem
  | readCookie | getParameters | readMessage | getResults =>
      obtain ⟨read, -, rfl⟩ := Option.map_eq_some_iff.mp h
      revert hmem
      try cases read.1
      all_goals exact id
  | sendResults =>
      cases h
      rcases List.mem_append.mp hmem with hmem | hmem
      · exact hmem
      · simp [stateItem, jsonItem] at hmem
  | acceptStream =>
      simp only [ServerAction.perform] at h
      split_ifs at h
      · cases hdata : net.data with
        | nil => simp [hdata] at h
        | cons bytes data =>
            simp only [hdata] at h
            cases h
            exact hmem
      · cases h
        exact hmem
  | _ =>
      cases h
      exact hmem

theorem serverCall_told (hnamed : state ∈ TestState.named) {o : ServerOutcomes}
    (hcalls : Since (ServerCall.calm (y.serverCall sn o).server.process.server.state)
      y.server.process.server (y.serverCall sn o).server.process.server)
    (hmem : stateItem state ∈ (y.serverCall sn o).net.toClient.written) :
    stateItem state ∈ y.net.toClient.written ∨ state = .serverError ∨
      (y.serverCall sn o).server.process.server.state = state := by
  revert hcalls hmem
  unfold System.serverCall
  split
  · split
    · rename_i hperform
      intro hcalls hmem
      exact (carryServer_told hnamed hcalls hmem).imp_left (perform_written hperform)
    · exact fun _ => Or.inl
  · exact fun _ => Or.inl

theorem serverLoop_told (hnamed : state ∈ TestState.named) {event : ServerEvent}
    (hcalls : Since (ServerCall.calm (y.serverLoop sn event).server.process.server.state)
      y.server.process.server (y.serverLoop sn event).server.process.server)
    (hmem : stateItem state ∈ (y.serverLoop sn event).net.toClient.written) :
    stateItem state ∈ y.net.toClient.written ∨ state = .serverError ∨
      (y.serverLoop sn event).server.process.server.state = state := by
  revert hcalls hmem
  unfold System.serverLoop
  split_ifs
  · exact carryServer_told hnamed
  · exact fun _ => Or.inl

theorem InStep.told {t : Test} {params : Json} (hs : sn.Suits t params)
    (h : InStep sn t params y) (hcarries : y.ResultsCarried sn) (hnamed : state ∈ TestState.named)
    (event : SystemEvent) (hmem : stateItem state ∈ (y.step sn event).net.toClient.written) :
    stateItem state ∈ y.net.toClient.written ∨ state = .serverError ∨
      (y.step sn event).server.process.server.state = state := by
  have hcalls := (h.calls hs hcarries event).1
  have hclient : ClientGoes sn t params y (y.step sn event) →
      stateItem state ∈ y.net.toClient.written := by
    intro hgoes
    rwa [← hgoes.net.written]
  cases event with
  | serverTurn listener control data =>
      left
      revert hmem
      simp only [System.step, System.serverTurn]
      split_ifs <;> exact id
  | serverCall o => exact serverCall_told hnamed hcalls hmem
  | serverLoop event => exact serverLoop_told hnamed hcalls hmem
  | clientConnect => exact Or.inl (hclient (clientConnect_goes h.client))
  | clientWake message => exact Or.inl (hclient (clientWake_goes h.client message))
  | clientCall o =>
      exact Or.inl (hclient (clientCall_goes hs h.client h.toClient h.toServer
        (fun _ hclient => h.offers hclient) hcarries.2))
  | clientLoop event => exact Or.inl (hclient (clientLoop_goes h.client event))

end Told

/-! ## Whole runs -/

/-- The streams of both sides when the client handles `TEST_START`. -/
def System.StartsWith (k : ℕ) (y : System) : Prop :=
  .testStart ∈ y.client.todo →
    y.client.process.client.streams.length = k ∧ y.server.process.server.Holds k

/-- Every item is taken by the read that expects it, and no party has raised
the error of a message that it did not expect. -/
structure System.InAgreement (k : ℕ) (y : System) : Prop where
  toServer : y.net.toServer.taken <+: y.net.toServer.written
  toClient : y.net.toClient.taken <+: y.net.toClient.written
  server : ∀ code ∈ protocolErrors, .raised code ∉ y.server.process.server.calls
  client : ∀ code ∈ protocolErrors, .raised code ∉ y.client.process.client.calls
  streams : y.StartsWith k

section Run

variable {sn : Session} {t : Test} {params : Json} {y : System}

/-- The answer to `TEST_START` is only left in its place. -/
theorem allows_testStart {stage : ClientStage} {todo : List ClientAction}
    (hallows : stage.Allows todo) (hstart : .testStart ∈ todo) :
    stage = .testStart ∧ todo = [.testStart] := by
  cases stage
  case testStart => exact ⟨rfl, hallows⟩
  case streams =>
    rcases hallows with hdials | rfl
    · exact absurd (hdials _ hstart) (by decide)
    · simp at hstart
  case connecting | cookie | params | sendResults | getResults | display =>
    rw [show todo = _ from hallows] at hstart
    simp at hstart
  all_goals
    rcases hallows with rfl | rfl <;> simp at hstart

theorem testEnd_place {k i : ℕ} (h : sn.ClientItem params k i (stateItem .testEnd)) : i = 2 := by
  unfold Session.ClientItem at h
  split at h
  any_goals simp [stateItem, cookieItem, jsonItem, TestState.toByte] at h
  · rfl
  · obtain ⟨side, -, -, hitem⟩ := h
    simp [jsonItem] at hitem

theorem InStep.startsWith (h : InStep sn t params y) : y.StartsWith t.totalStreams := by
  intro hstart
  rcases h.client with ⟨stage, hclient⟩ | hclient
  · obtain ⟨rfl, hlist⟩ := allows_testStart hclient.todo hstart
    constructor
    · have hcounts := hclient.ready.counts
      rw [hlist] at hcounts
      simpa [ClientStage.Counts, ClientStage.reads, ClientAction.adds] using hcounts
    · obtain ⟨pending, hagrees⟩ := h.toClient
      obtain ⟨-, -, -, -, -, -, hholds, -⟩ := h.server.split hclient.taken hagrees
      exact hholds hclient.reads.ge
  · rcases hclient.gone with ⟨hempty, -⟩ | ⟨hread, -⟩
    · rw [hempty] at hstart
      cases hstart
    · rw [hread] at hstart
      simp at hstart

/-- The client does not announce the end before it has been told that the test
is running. -/
theorem InStep.testEnd (h : InStep sn t params y)
    (hmem : stateItem .testEnd ∈ y.net.toServer.written) :
    stateItem .testRunning ∈ y.net.toClient.written := by
  obtain ⟨main, late, hwrote⟩ := h.client.wrote
  rw [hwrote.written] at hmem
  have hmain : stateItem .testEnd ∈ main := by
    rcases List.mem_append.mp hmem with hmem | hmem
    · exact hmem
    · rcases hwrote.last with rfl | ⟨rfl, -⟩
      · cases hmem
      · simp [stateItem, TestState.toByte] at hmem
  obtain ⟨i, hi, hitem⟩ := List.mem_iff_getElem.mp hmain
  have hplace : i = 2 :=
    testEnd_place (hitem ▸ hwrote.script i _ (List.getElem?_eq_getElem hi))
  have hrunning := (hwrote.started (by omega)).testRunning_mem
  obtain ⟨pending, hagrees⟩ := h.toClient
  rw [hagrees.written]
  exact List.mem_append_left _ hrunning

/-- The invariants of a run, with the states that it has gone through. -/
structure Course (sn : Session) (t : Test) (params : Json) (y : System)
    (events : List SystemEvent) : Prop where
  inStep : InStep sn t params (y.run sn events)
  server : ∀ code ∈ protocolErrors,
    .raised code ∉ (y.run sn events).server.process.server.calls
  client : ∀ code ∈ protocolErrors,
    .raised code ∉ (y.run sn events).client.process.client.calls
  told : ∀ state ∈ TestState.named, state ≠ .serverError →
    stateItem state ∈ (y.run sn events).net.toClient.written →
      ∃ earlier, earlier <+: events ∧ (y.run sn earlier).server.process.server.state = state

theorem run_concat (sn : Session) (y : System) (events : List SystemEvent) (event : SystemEvent) :
    y.run sn (events ++ [event]) = (y.run sn events).step sn event := by
  simp [System.run]

theorem Course.step (hs : sn.Suits t params) {events : List SystemEvent}
    (h : Course sn t params y events) (hcarries : (y.run sn events).ResultsCarried sn)
    (event : SystemEvent) : Course sn t params y (events ++ [event]) := by
  obtain ⟨hserver, hclient⟩ := h.inStep.calls hs hcarries event
  have hrun := run_concat sn y events event
  constructor
  · rw [hrun]
    exact h.inStep.step hs hcarries event
  · intro code hcode
    rw [hrun]
    exact hserver.not_mem (h.server code hcode) (by simp [ServerCall.calm, hcode])
  · intro code hcode
    rw [hrun]
    exact hclient.not_mem (h.client code hcode) (by simp [ClientCall.calm, hcode])
  · intro state hnamed herror hmem
    rw [hrun] at hmem
    rcases h.inStep.told hs hcarries hnamed event hmem with hbefore | hserverError | hstate
    · obtain ⟨earlier, hearlier, hstate⟩ := h.told state hnamed herror hbefore
      exact ⟨earlier, hearlier.trans (List.prefix_append _ _), hstate⟩
    · exact absurd hserverError herror
    · exact ⟨events ++ [event], List.prefix_rfl, by rw [hrun]; exact hstate⟩

theorem Course.run (hs : sn.Suits t params) (h : Course sn t params y [])
    {events : List SystemEvent}
    (hcarries : ∀ earlier, earlier <+: events → (y.run sn earlier).ResultsCarried sn) :
    Course sn t params y events := by
  induction events using List.reverseRecOn with
  | nil => exact h
  | append_singleton events event ih =>
      have hbefore := ih fun earlier hearlier =>
        hcarries earlier (hearlier.trans (List.prefix_append _ _))
      exact hbefore.step hs (hcarries events (List.prefix_append _ _)) event

/-- The server listens, and the client has not connected. -/
theorem course_initial {client server : TestSide}
    (hclient : client.test = t) (hrole : server.test.role = .server)
    (hmode : server.test.mode = .receiver) :
    Course sn t params (System.initial client server) [] := by
  have hserver : ServerReady t.totalStreams .listening
      (Process.listening (serverProcess server).server) :=
    ⟨rfl, rfl, fun _ => rfl, rfl, hrole, hmode, rfl, rfl, rfl⟩
  have hready : ClientReady t .connecting [] (clientProcess client).client :=
    ⟨rfl, fun hconnecting => absurd rfl hconnecting, fun _ => hclient, rfl, rfl⟩
  constructor
  · constructor
    · exact Or.inl ⟨.listening,
        { phase := rfl
          todo := ⟨[], rfl, List.nil_sublist _⟩
          ready := hserver
          reads := rfl
          taken := line_nil
          writes := rfl
          written := line_nil
          isOpen := rfl
          dialling := fun hlistening => absurd rfl hlistening
          dials := nofun }⟩
    · exact Or.inl ⟨.connecting,
        { connecting := fun _ => ⟨rfl, rfl⟩
          waiting := fun hconnecting => absurd rfl hconnecting
          todo := rfl
          ready := hready
          reads := rfl
          taken := line_nil
          writes := rfl
          written := line_nil
          isOpen := rfl }⟩
    · exact ⟨[], Channel.agrees_empty⟩
    · exact ⟨[], Channel.agrees_empty⟩
  · intro code hcode hmem
    have hcalls : ServerCall.raised code ∈ [ServerCall.serverListen] := hmem
    simp at hcalls
  · exact fun _ _ => List.not_mem_nil
  · intro state _ _ hmem
    cases hmem

/-- In every run the items are taken as they were written and no party is
surprised.  The streams are there when the client handles `TEST_START`, unless
the duration timer of the server has freed them, and the client does not send
`TEST_END` before the server has been in `TEST_RUNNING`. -/
theorem control_agreement (client server : TestSide) {events : List SystemEvent}
    (hs : sn.Suits client.test params) (hrole : server.test.role = .server)
    (hmode : server.test.mode = .receiver)
    (hcarries : ∀ earlier, earlier <+: events →
      ((System.initial client server).run sn earlier).ResultsCarried sn) :
    ((System.initial client server).run sn events).InAgreement client.test.totalStreams ∧
      (stateItem .testEnd ∈ ((System.initial client server).run sn events).net.toServer.written →
        ∃ earlier, earlier <+: events ∧
          ((System.initial client server).run sn earlier).server.process.server.state =
            .testRunning) := by
  have h := (course_initial rfl hrole hmode).run hs hcarries
  obtain ⟨pending, hpending⟩ := h.inStep.toServer
  obtain ⟨unread, hunread⟩ := h.inStep.toClient
  refine ⟨?_, fun hend => h.told _ (by decide) nofun (h.inStep.testEnd hend)⟩
  exact
    { toServer := hpending.taken_prefix
      toClient := hunread.taken_prefix
      server := h.server
      client := h.client
      streams := h.inStep.startsWith }

end Run

/-! ## A slow client -/

/-- No party is about to send its results, in any state of the run. -/
def System.withholdsResults (sn : Session) : System → List SystemEvent → Bool
  | y, [] => y.server.todo.head? ≠ some .sendResults && y.client.todo.head? ≠ some .sendResults
  | y, event :: events =>
      y.server.todo.head? ≠ some .sendResults && y.client.todo.head? ≠ some .sendResults &&
        withholdsResults sn (y.step sn event) events

theorem resultsCarried_of_withheld {sn : Session} {y : System} {events : List SystemEvent}
    (h : y.withholdsResults sn events = true) {earlier : List SystemEvent}
    (hearlier : earlier <+: events) : (y.run sn earlier).ResultsCarried sn := by
  have hnow : ∀ {y : System}, (y.server.todo.head? ≠ some .sendResults &&
      y.client.todo.head? ≠ some .sendResults) = true → y.ResultsCarried sn := by
    intro y hy
    simp only [ne_eq, decide_not, Bool.and_eq_true, Bool.not_eq_true', decide_eq_false_iff_not]
      at hy
    exact ⟨fun hserver => absurd hserver hy.1, fun hclient => absurd hclient hy.2⟩
  induction events generalizing y earlier with
  | nil =>
      rw [List.prefix_nil.mp hearlier]
      exact hnow h
  | cons event events ih =>
      rw [System.withholdsResults, Bool.and_eq_true] at h
      cases earlier with
      | nil => exact hnow h.1
      | cons first earlier =>
          obtain ⟨rfl, hrest⟩ := List.cons_prefix_cons.mp hearlier
          exact ih h.2 hrest

/-- The test of `iperf3 -c host -u -R -P 2` when it has connected. -/
def twoStreamTest : Test :=
  match parseArguments Build.msvc none [.client, .udp, .reverse, .parallel 2]
    (iperfStart Build.msvc) with
  | .ok t => t.iperfConnect (some 1460)
  | .error _ => iperfStart Build.msvc

def twoStreamParameters : Json :=
  .object (parameterMembers Build.msvc none twoStreamTest)

def twoStreamSession : Session where
  serverBuild := .msvc
  clientBuild := .msvc
  codec := textCodec (udpParametersText "\"parallel\":2,\"reverse\":true") twoStreamParameters
  auth := .noCredentials
  cookie := exampleCookie
  errorCodes _ := List.replicate 8 0
  length_cookie := by decide
  length_errorCodes _ := List.length_replicate

theorem twoStreamSession_suits : twoStreamSession.Suits twoStreamTest twoStreamParameters where
  client := by
    obtain ⟨t, hparse, hrole, heq⟩ : ∃ t,
        parseArguments Build.msvc none [.client, .udp, .reverse, .parallel 2]
          (iperfStart Build.msvc) = .ok t ∧ t.role = .client ∧
        twoStreamTest = t.iperfConnect (some 1460) := ⟨_, rfl, rfl, rfl⟩
    rw [heq]
    exact connectedClient hparse hrole (some 1460)
  numStreams := by decide
  small := IsInt.of_bounds (by decide) (by decide)
  sent := rfl
  carries := textCodec_carries (by decide) _

/-- Both sides up to `TEST_RUNNING`; the client has not read `TEST_START`. -/
def startedSystem : List SystemEvent :=
  let server := SystemEvent.serverCall ⟨.notConfigured, true, true, none, some [],
    .ok (IperfTime.ofCounters 0 0) 2⟩
  let client := SystemEvent.clientCall ⟨some [], .ok .testStart, .ieNone⟩
  [.clientConnect, client, .serverTurn true false false] ++ List.replicate 3 server ++
    [.clientWake true, client, client] ++ List.replicate 7 server ++
    [.clientWake true, client, client, .serverTurn false false true, server, server] ++
    List.replicate 3 client ++ [.serverTurn false false true] ++ List.replicate 9 server ++
    [client, client]

/-- The duration timer of the server expires before the client handles
`TEST_START`. -/
def slowSystem : List SystemEvent :=
  startedSystem ++ [.serverLoop (.expire true), .clientWake true,
    .clientCall ⟨some [], .ok .testStart, .ieNone⟩]

def twoStreamSystem : System :=
  System.initial (freshSide twoStreamTest) (freshSide (serverStart Build.msvc ServerArgs.default))

theorem slowSystem_withholds :
    twoStreamSystem.withholdsResults twoStreamSession slowSystem = true := by
  decide +kernel

theorem control_agreement_two_streams :
    (twoStreamSystem.run twoStreamSession startedSystem).InAgreement 2 ∧
      (stateItem .testEnd ∈
          (twoStreamSystem.run twoStreamSession startedSystem).net.toServer.written →
        ∃ earlier, earlier <+: startedSystem ∧
          (twoStreamSystem.run twoStreamSession earlier).server.process.server.state =
            .testRunning) := by
  have hstreams : (freshSide twoStreamTest).test.totalStreams = 2 := by decide +kernel
  have hcarries : ∀ earlier, earlier <+: startedSystem →
      (twoStreamSystem.run twoStreamSession earlier).ResultsCarried twoStreamSession := by
    intro earlier hearlier
    apply resultsCarried_of_withheld slowSystem_withholds
    unfold slowSystem
    exact hearlier.trans (List.prefix_append _ _)
  have hagree := control_agreement (freshSide twoStreamTest)
    (freshSide (serverStart Build.msvc ServerArgs.default)) twoStreamSession_suits rfl rfl hcarries
  rw [hstreams] at hagree
  unfold twoStreamSystem
  exact hagree

/-- The duration timer of the server frees the streams before the client handles
`TEST_START`. -/
theorem slow_client_without_streams :
    (∀ earlier, earlier <+: slowSystem →
      (twoStreamSystem.run twoStreamSession earlier).ResultsCarried twoStreamSession) ∧
    twoStreamSession.Suits twoStreamTest twoStreamParameters ∧
    (twoStreamSystem.run twoStreamSession slowSystem).client.todo = [.testStart] ∧
    (twoStreamSystem.run twoStreamSession slowSystem).client.process.client.streams.length = 2 ∧
    (twoStreamSystem.run twoStreamSession slowSystem).server.process.server.streams = [] := by
  have hend : let y := twoStreamSystem.run twoStreamSession slowSystem
      y.client.todo = [.testStart] ∧ y.client.process.client.streams.length = 2 ∧
        y.server.process.server.streams.length = 0 := by decide +kernel
  exact ⟨fun _ hearlier => resultsCarried_of_withheld slowSystem_withholds hearlier,
    twoStreamSession_suits, hend.1, hend.2.1, List.eq_nil_of_length_eq_zero hend.2.2⟩

end Iperf3
