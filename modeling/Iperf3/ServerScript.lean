import Iperf3.ControlScript
import Iperf3.ErrorReports
import Iperf3.ServerFrame
import Mathlib.Tactic

/-!
# The server's part of the script

The calls that are left of a handler say where the server is in its script.
Each call either proceeds to the next place or ends the test: then nothing
but error reports is written, and the server reads no more from its client.
-/

namespace Iperf3

open Channels MachineInt

/-- Where the server is in a test.  Between the handlers it waits in
`listening`, `streams`, `running` and `displayed`. -/
inductive ServerStage where
  | listening
  | cookie
  | paramExchange
  | params
  | authorize
  | listen
  | createStreams
  | affinity
  | numbers
  | streams
  | announce
  | rate
  | testStart
  | initTest
  | timers
  | testRunning
  | workers
  | running
  | exchangeResults
  | results
  | sendResults
  | displayResults
  | displayed
  deriving DecidableEq

def Server.Streamless (s : Server) : Prop :=
  s.streams = [] ∧ s.recStreamsAccepted = 0 ∧ s.sendStreamsAccepted = 0

namespace ServerStage

/-- What is left of the handler. -/
def todo : ServerStage → List ServerAction
  | listening | streams | running | displayed => []
  | cookie => acceptActions
  | paramExchange => acceptActions.drop 1
  | params => acceptActions.drop 2
  | authorize => acceptActions.drop 3
  | listen => acceptActions.drop 4
  | createStreams => acceptActions.drop 5
  | affinity => acceptActions.drop 6
  | numbers => acceptActions.drop 7
  | announce => startActions
  | rate => startActions.drop 1
  | testStart => startActions.drop 2
  | initTest => startActions.drop 3
  | timers => startActions.drop 4
  | testRunning => startActions.drop 5
  | workers => startActions.drop 6
  | exchangeResults => testEndActions
  | results => testEndActions.drop 1
  | sendResults => testEndActions.drop 2
  | displayResults => testEndActions.drop 3

/-- What may be left of the turn after it. -/
def turn : ServerStage → List ServerAction
  | listening => [.accept, .acceptStream, .checkStreams]
  | streams | running | displayed => [.readMessage, .acceptStream, .checkStreams]
  | announce | rate | testStart | initTest | timers | testRunning | workers => []
  | _ => [.acceptStream, .checkStreams]

/-- The number of items that have been read. -/
def reads : ServerStage → ℕ
  | listening | cookie => 0
  | paramExchange | params => 1
  | exchangeResults | results => 3
  | sendResults | displayResults | displayed => 4
  | _ => 2

/-- The number of items that have been written. -/
def writes : ServerStage → ℕ
  | listening | cookie | paramExchange => 0
  | params | authorize | listen | createStreams => 1
  | affinity | numbers | streams | announce | rate | testStart => 2
  | initTest | timers | testRunning => 3
  | workers | running | exchangeResults => 4
  | results | sendResults => 5
  | displayResults => 6
  | displayed => 7

def state : ServerStage → TestState
  | listening | cookie | paramExchange => .iperfStart
  | params | authorize | listen | createStreams => .paramExchange
  | affinity | numbers | streams | announce | rate | testStart => .createStreams
  | initTest | timers | testRunning => .testStart
  | workers | running => .testRunning
  | exchangeResults => .testEnd
  | results | sendResults | displayResults => .exchangeResults
  | displayed => .displayResults

/-- What is known about the streams of a test with `k` streams. -/
def Counts (k : ℕ) (s : Server) : ServerStage → Prop
  | listening | cookie | paramExchange | params =>
      s.test.role = .server ∧ s.test.mode = .receiver ∧ s.Streamless
  | authorize | listen | createStreams | affinity | numbers =>
      s.test.mode.streamsToRec s.test.numStreams + s.test.mode.streamsToSend s.test.numStreams =
        k ∧ s.Streamless
  | streams =>
      s.streamsToRec + s.streamsToSend = k ∧
        (s.streams.length : ℤ) = s.recStreamsAccepted + s.sendStreamsAccepted
  | _ => s.streams.length = k

end ServerStage

structure ServerReady (k : ℕ) (stage : ServerStage) (s : Server) : Prop where
  state : s.state = stage.state
  ctrlSck : s.ctrlSck = decide (stage ≠ .listening)
  timer : stage = .listening → s.timer = false
  ids : InIdOrder s.streams
  counts : stage.Counts k s

theorem ServerReady.full {k : ℕ} {stage : ServerStage} {s : Server} (h : ServerReady k stage s)
    (hwrites : 3 ≤ stage.writes) : s.streams.length = k := by
  have hcounts := h.counts
  cases stage <;> first | exact hcounts | simp [ServerStage.writes] at hwrites

/-! ## Calls that go on or end the test -/

/-- The members that the script depends on are kept. -/
structure Unmoved (s s' : Server) : Prop where
  role : s'.test.role = s.test.role
  mode : s'.test.mode = s.test.mode
  numStreams : s'.test.numStreams = s.test.numStreams
  ctrlSck : s'.ctrlSck = s.ctrlSck
  streamsToRec : s'.streamsToRec = s.streamsToRec
  streamsToSend : s'.streamsToSend = s.streamsToSend
  recStreamsAccepted : s'.recStreamsAccepted = s.recStreamsAccepted
  sendStreamsAccepted : s'.sendStreamsAccepted = s.sendStreamsAccepted
  ids : s'.streams.map (·.id) = s.streams.map (·.id)

theorem Unmoved.length {s s' : Server} (h : Unmoved s s') :
    s'.streams.length = s.streams.length := by
  simpa using congrArg List.length h.ids

theorem Unmoved.trans {s s' s'' : Server} (h : Unmoved s s') (h' : Unmoved s' s'') :
    Unmoved s s'' where
  role := h'.role.trans h.role
  mode := h'.mode.trans h.mode
  numStreams := h'.numStreams.trans h.numStreams
  ctrlSck := h'.ctrlSck.trans h.ctrlSck
  streamsToRec := h'.streamsToRec.trans h.streamsToRec
  streamsToSend := h'.streamsToSend.trans h.streamsToSend
  recStreamsAccepted := h'.recStreamsAccepted.trans h.recStreamsAccepted
  sendStreamsAccepted := h'.sendStreamsAccepted.trans h.sendStreamsAccepted
  ids := h'.ids.trans h.ids

theorem Unmoved.counts {s s' : Server} (h : Unmoved s s') {k : ℕ} {stage : ServerStage}
    (hs : stage.Counts k s) : stage.Counts k s' := by
  have hstreamless : s.Streamless → s'.Streamless := by
    rintro ⟨hstreams, hrec, hsend⟩
    refine ⟨?_, h.recStreamsAccepted.trans hrec, h.sendStreamsAccepted.trans hsend⟩
    have hlength := h.length
    rw [hstreams] at hlength
    exact List.length_eq_zero_iff.mp hlength
  cases stage
  case listening | cookie | paramExchange | params =>
    exact ⟨h.role.trans hs.1, h.mode.trans hs.2.1, hstreamless hs.2.2⟩
  case authorize | listen | createStreams | affinity | numbers =>
    refine ⟨?_, hstreamless hs.2⟩
    rw [h.mode, h.numStreams]
    exact hs.1
  case streams =>
    unfold ServerStage.Counts at hs ⊢
    rw [h.streamsToRec, h.streamsToSend, h.length, h.recStreamsAccepted, h.sendStreamsAccepted]
    exact hs
  all_goals exact h.length.trans hs

/-- A call after which the script goes on. -/
structure Proceeds (s s' : Server) : Prop extends Unmoved s s' where
  state : s'.state = s.state
  since : Since ServerCall.plain s s'

theorem Proceeds.trans {s s' s'' : Server} (h : Proceeds s s') (h' : Proceeds s' s'') :
    Proceeds s s'' where
  toUnmoved := h.toUnmoved.trans h'.toUnmoved
  state := h'.state.trans h.state
  since := h.since.trans h'.since

theorem proceeds_log {s : Server} {call : ServerCall} (hcall : call.plain = true) :
    Proceeds s (s.log call) :=
  ⟨⟨rfl, rfl, rfl, rfl, rfl, rfl, rfl, rfl, rfl⟩, rfl, (Since.refl s).log hcall⟩

/-- A call after which nothing but errors is reported. -/
structure Ends (s s' : Server) : Prop where
  since : Since ServerCall.tame s s'
  length : s'.streams.length = s.streams.length

theorem Proceeds.ends {s s' s'' : Server} (h : Proceeds s s') (h' : Ends s' s'') : Ends s s'' :=
  ⟨h.since.tame.trans h'.since, h'.length.trans h.length⟩

section Ends

variable {s s' s'' : Server}

theorem Ends.refl (s : Server) : Ends s s :=
  ⟨Since.refl s, rfl⟩

theorem Ends.trans (h : Ends s s') (h' : Ends s' s'') : Ends s s'' :=
  ⟨h.since.trans h'.since, h'.length.trans h.length⟩

theorem Ends.withErrno (h : Ends s s') {code : IErrno} (hcode : code ∉ protocolErrors) :
    Ends s (s'.withErrno code) :=
  ⟨h.since.withErrno (by simpa [ServerCall.tame] using hcode), h.length⟩

theorem Ends.cleanupServer (h : Ends s s') : Ends s s'.cleanupServer :=
  ⟨h.since.cleanupServer, by
    rw [← h.length, Server.cleanupServer, Server.log]
    exact List.length_map _⟩

end Ends

/-- The call goes on, or it fails. -/
def Passes (s : Server) (r : Server × Bool) : Prop :=
  (r.2 = true ∧ Proceeds s r.1) ∨ (r.2 = false ∧ Ends s r.1)

section Passes

variable {s s' : Server} {r : Server × Bool}

theorem Proceeds.refl (s : Server) : Proceeds s s :=
  ⟨⟨rfl, rfl, rfl, rfl, rfl, rfl, rfl, rfl, rfl⟩, rfl, Since.refl s⟩

theorem passes_of_proceeds (h : Proceeds s s') : Passes s (s', true) :=
  Or.inl ⟨rfl, h⟩

theorem Proceeds.passes (h : Proceeds s s') (hr : Passes s' r) : Passes s r := by
  rcases hr with ⟨hok, hr⟩ | ⟨hfails, hr⟩
  · exact Or.inl ⟨hok, h.trans hr⟩
  · exact Or.inr ⟨hfails, h.ends hr⟩

theorem Passes.andThen {f : Server → Server × Bool} (hr : Passes s r)
    (hf : ∀ u, Passes u (f u)) : Passes s (Iperf3.andThen f r) := by
  obtain ⟨u, ok⟩ := r
  rcases hr with ⟨hok, hr⟩ | ⟨hfails, hr⟩
  · cases hok
    exact hr.passes (hf u)
  · cases hfails
    exact Or.inr ⟨rfl, hr⟩

theorem passes_check (s : Server) (ok : Bool) {code : IErrno} (hcode : code ∉ protocolErrors) :
    Passes s (s.check ok code) := by
  unfold Server.check
  split_ifs
  · exact passes_of_proceeds (Proceeds.refl s)
  · exact Or.inr ⟨rfl, (Ends.refl s).withErrno hcode⟩

theorem passes_checkLate (s : Server) (ok : Bool) {code : IErrno}
    (hcode : code ∉ protocolErrors) : Passes s (s.checkLate ok code) := by
  unfold Server.checkLate
  split_ifs
  · exact passes_of_proceeds (Proceeds.refl s)
  · exact Or.inr ⟨rfl, (Ends.refl s).cleanupServer.withErrno hcode⟩

theorem announceStart_passes (env : StartEnv) (s : Server) : Passes s (s.announceStart env) := by
  have hclosed : Proceeds s (s.closeProtListener.log
      (.streamsComplete s.test.protocol s.reopensListener env.relistened)) :=
    ⟨⟨rfl, rfl, rfl, rfl, rfl, rfl, rfl, rfl, rfl⟩, rfl, (Since.refl s).call rfl rfl⟩
  exact hclosed.passes (passes_checkLate _ _ (by decide))

theorem createTimer_passes (env : StartEnv) (timer : ServerTimer) (wanted : Bool) (s : Server) :
    Passes s (s.createTimer env timer wanted) := by
  unfold Server.createTimer
  split_ifs
  · exact (proceeds_log rfl).passes (passes_check _ _ (by decide))
  · exact passes_of_proceeds (Proceeds.refl s)

theorem createServerTimers_passes (env : StartEnv) (s : Server) :
    Passes s (createServerTimers env s) := by
  have hforgotten : Proceeds s s.forgetTimers :=
    ((proceeds_log rfl).trans (proceeds_log rfl)).trans (proceeds_log rfl)
  have hflags : ∀ (u : Server) done timer, Proceeds u { u with done := done, timer := timer } :=
    fun u _ _ => ⟨⟨rfl, rfl, rfl, rfl, rfl, rfl, rfl, rfl, rfl⟩, rfl, (Since.refl u).congr rfl⟩
  have hduration : ∀ u : Server, Passes u (u.createDurationTimer env) := by
    intro u
    unfold Server.createDurationTimer
    split_ifs
    · exact (hflags u _ _).passes (createTimer_passes env _ _ _)
    · exact passes_of_proceeds (hflags u u.done false)
  have homit : ∀ u : Server, Passes u (createServerOmitTimer env u) := by
    intro u
    unfold createServerOmitTimer
    split_ifs
    · exact createTimer_passes env _ _ u
    · exact passes_of_proceeds (proceeds_log rfl)
  exact (((hforgotten.passes (hduration _)).andThen (fun u => createTimer_passes env _ _ u)).andThen
    (fun u => createTimer_passes env _ _ u)).andThen homit

theorem initTest_passes (env : StartEnv) (s : Server) :
    Passes s (createServerTimers env (s.stampStreams env.now)) := by
  have hstamped : Proceeds s (s.stampStreams env.now) := by
    refine ⟨⟨rfl, rfl, rfl, rfl, rfl, rfl, rfl, rfl, ?_⟩, rfl, (Since.refl s).congr rfl⟩
    rw [Server.stampStreams, List.map_map]
    rfl
  exact hstamped.passes (createServerTimers_passes env _)

theorem protocolListen_passes (s : Server) :
    Passes s (andThen (fun s => (s.openProtListener, true)) (s.protocolListen .listens)) := by
  have hlogged : Passes s (s.protocolListen .listens) :=
    passes_of_proceeds (proceeds_log rfl)
  apply hlogged.andThen
  intro u
  exact passes_of_proceeds
    ⟨⟨rfl, rfl, rfl, rfl, rfl, rfl, rfl, rfl, rfl⟩, rfl, (Since.refl u).congr rfl⟩

theorem testIsAuthorized_passes (outcome : Authorization) (s : Server) :
    Passes s (s.testIsAuthorized outcome) := by
  have hlogged : Proceeds s (s.log (.testIsAuthorized outcome)) := proceeds_log rfl
  cases hok : outcome.ok with
  | true => exact Or.inl ⟨hok, hlogged⟩
  | false => exact Or.inr ⟨hok, hlogged.ends (Ends.refl _)⟩

end Passes

/-- The client has been told of an error and the control connection closed. -/
def Server.Halted (s : Server) : Prop :=
  s.ctrlSck = false ∧ s.state = .serverError

theorem halted_cleanupServer {s : Server}
    (h : s.ctrlSck = true ∧ s.test.iErrno ≠ .ieNone ∨ s.Halted) :
    s.cleanupServer.Halted := by
  refine ⟨rfl, ?_⟩
  unfold Server.cleanupServer Server.log
  dsimp only
  rcases h with ⟨hctrl, herrno⟩ | ⟨-, hstate⟩
  · rw [if_pos ⟨herrno, hctrl⟩]
  · split_ifs
    · rfl
    · exact hstate

/-- A cleanup in the middle of the start of the workers halts the server. -/
theorem tolerate_cases (s : Server) (ok : Bool) (code : IErrno) (hcode : code ∉ protocolErrors)
    (hnone : code ≠ .ieNone) :
    s.tolerate ok code = s ∨
      (Ends s (s.tolerate ok code) ∧
        (s.ctrlSck = true ∨ s.Halted → (s.tolerate ok code).Halted)) := by
  unfold Server.tolerate
  split_ifs
  · exact Or.inl rfl
  · right
    refine ⟨((Ends.refl s).withErrno hcode).cleanupServer, ?_⟩
    rintro (hctrl | hhalted)
    · exact halted_cleanupServer (Or.inl ⟨hctrl, hnone⟩)
    · exact halted_cleanupServer (Or.inr hhalted)

theorem proceeds_spawn (threads : ℕ) (s : Server) : Proceeds s (s.spawn threads) := by
  refine ⟨⟨rfl, rfl, rfl, rfl, rfl, rfl, rfl, rfl, ?_⟩, rfl, (Since.refl s).call rfl rfl⟩
  unfold Server.spawn Server.log
  dsimp only
  rw [List.map_map]
  calc
    s.streams.zipIdx.map _ = s.streams.zipIdx.map fun spi => spi.1.id := rfl
    _ = (s.streams.zipIdx.map Prod.fst).map (·.id) := by rw [List.map_map]; rfl
    _ = s.streams.map (·.id) := by rw [List.zipIdx_map_fst]

/-- The workers are started, or the call fails, or it goes on with a halted
server. -/
theorem createWorkers_passes (env : StartEnv) {s : Server} (hctrl : s.ctrlSck = true) :
    Passes s (createWorkers env s) ∨
      (Ends s (createWorkers env s).1 ∧ (createWorkers env s).1.Halted) := by
  have hdestroy : ∀ u : Server, (u.ctrlSck = true ∨ u.Halted) →
      u.tolerate env.attrDestroy .iePthreadAttrDestroy = u ∨
        (Ends u (u.tolerate env.attrDestroy .iePthreadAttrDestroy) ∧
          (u.tolerate env.attrDestroy .iePthreadAttrDestroy).Halted) := by
    intro u hu
    rcases tolerate_cases u env.attrDestroy .iePthreadAttrDestroy (by decide) (by decide)
      with heq | ⟨hends, hhalts⟩
    · exact Or.inl heq
    · exact Or.inr ⟨hends, hhalts hu⟩
  unfold createWorkers Server.check
  rcases tolerate_cases s env.attrInit .iePthreadAttrInit (by decide) (by decide)
    with heq | ⟨hends, hhalts⟩
  · rw [heq]
    have hspawned := proceeds_spawn env.threads s
    split_ifs
    · rcases hdestroy (s.spawn env.threads) (Or.inl hctrl) with hsame | ⟨hends, hhalts⟩
      · simp only [andThen, if_true, hsame]
        exact Or.inl (passes_of_proceeds hspawned)
      · exact Or.inr ⟨hspawned.ends hends, hhalts⟩
    · exact Or.inl (Or.inr ⟨rfl, hspawned.ends ((Ends.refl _).withErrno (by decide))⟩)
  · have hspawned := proceeds_spawn env.threads (s.tolerate env.attrInit .iePthreadAttrInit)
    have hall := hends.trans (hspawned.ends (Ends.refl _))
    split_ifs
    · rcases hdestroy ((s.tolerate env.attrInit .iePthreadAttrInit).spawn env.threads)
        (Or.inr (hhalts (Or.inl hctrl))) with hsame | ⟨hagain, hagainHalts⟩
      · simp only [andThen, if_true, hsame]
        exact Or.inr ⟨hall, hhalts (Or.inl hctrl)⟩
      · exact Or.inr ⟨hall.trans hagain, hagainHalts⟩
    · exact Or.inl (Or.inr ⟨rfl, hall.withErrno (by decide)⟩)

/-! ## From one place to the next -/

/-- The call leads to this place, or it ends the test. -/
def Reaches (k : ℕ) (next : ServerStage) (s : Server) (r : Server × Bool) : Prop :=
  (r.2 = true ∧ ServerReady k next r.1 ∧ Since ServerCall.plain s r.1) ∨
    (r.2 = false ∧ Ends s r.1)

section Reaches

variable {k : ℕ} {stage next : ServerStage} {s s' : Server} {r : Server × Bool}

theorem ServerReady.proceeds (h : ServerReady k stage s) (hs : Proceeds s s')
    (hstage : stage ≠ .listening) (hnext : next ≠ .listening) (hstate : next.state = stage.state)
    (hcounts : ∀ u, stage.Counts k u → next.Counts k u) : ServerReady k next s' where
  state := hs.state.trans (h.state.trans hstate.symm)
  ctrlSck := by
    rw [hs.ctrlSck, h.ctrlSck]
    simp [hstage, hnext]
  timer hlistening := absurd hlistening hnext
  ids := h.ids.congr hs.ids
  counts := hcounts _ (hs.counts h.counts)

theorem Passes.reaches (hr : Passes s r) (h : ServerReady k stage s) (hstage : stage ≠ .listening)
    (hnext : next ≠ .listening) (hstate : next.state = stage.state)
    (hcounts : ∀ u, stage.Counts k u → next.Counts k u) : Reaches k next s r := by
  rcases hr with ⟨hok, hr⟩ | hfails
  · exact Or.inl ⟨hok, h.proceeds hr hstage hnext hstate hcounts, hr.since⟩
  · exact Or.inr hfails

theorem Passes.andThen_reaches {f : Server → Server × Bool} (hr : Passes s r)
    (h : ServerReady k stage s) (hstage : stage ≠ .listening)
    (hf : ∀ u, ServerReady k stage u → Reaches k next u (f u)) :
    Reaches k next s (Iperf3.andThen f r) := by
  obtain ⟨u, ok⟩ := r
  rcases hr with ⟨hok, hu⟩ | ⟨hfails, hends⟩
  · cases hok
    rcases hf u (h.proceeds hu hstage hstage rfl fun _ hcounts => hcounts) with
      ⟨hok, hnext, hsince⟩ | ⟨hfails, hends⟩
    · exact Or.inl ⟨hok, hnext, hu.since.trans hsince⟩
    · exact Or.inr ⟨hfails, hu.ends hends⟩
  · cases hfails
    exact Or.inr ⟨rfl, hends⟩

theorem reaches_self (h : ServerReady k stage s) : Reaches k stage s (s, true) :=
  Or.inl ⟨rfl, h, Since.refl s⟩

/-- The client is told of the next state. -/
theorem ServerReady.send (h : ServerReady k stage s) (hstage : stage ≠ .listening)
    (hnext : next ≠ .listening) (hcounts : ∀ u, stage.Counts k u → next.Counts k u) :
    s.setSendState true next.state =
        (Server.log (.sent next.state) (s.enter next.state), true) ∧
      ServerReady k next (Server.log (.sent next.state) (s.enter next.state)) := by
  have hctrl : s.ctrlSck = true := by simp [h.ctrlSck, hstage]
  refine ⟨by simp [Server.setSendState, Server.enter, hctrl], ?_⟩
  exact
    { state := rfl
      ctrlSck := by simp [Server.log, Server.enter, hctrl, hnext]
      timer := fun hlistening => absurd hlistening hnext
      ids := h.ids
      counts := hcounts _ ((⟨rfl, rfl, rfl, rfl, rfl, rfl, rfl, rfl, rfl⟩ : Unmoved s _).counts
        h.counts) }

theorem takeControl_reaches (h : ServerReady k .listening s) :
    Reaches k .cookie s (s.takeControl, true) := by
  refine Or.inl ⟨rfl, ?_, (Since.refl s).call rfl rfl⟩
  exact
    { state := h.state
      ctrlSck := rfl
      timer := nofun
      ids := h.ids
      counts := h.counts }

theorem readCookie_reaches (h : ServerReady k .cookie s) (cookie : List UInt8) :
    Reaches k .paramExchange s (s.readCookie (some cookie)) := by
  have hread : Passes s (s.readCookie (some cookie)) := passes_of_proceeds
    ⟨⟨rfl, rfl, rfl, rfl, rfl, rfl, rfl, rfl, rfl⟩, rfl, (Since.refl s).congr rfl⟩
  exact hread.reaches h nofun nofun rfl fun _ hu => hu

theorem setStreamNumbers_reaches (h : ServerReady k .numbers s) :
    Reaches k .streams s (setStreamNumbers s, true) := by
  obtain ⟨htotal, hstreams, hrec, hsend⟩ := h.counts
  refine Or.inl ⟨rfl, ?_, (Since.refl s).congr rfl⟩
  refine ⟨h.state, h.ctrlSck, nofun, h.ids, htotal, ?_⟩
  simp [setStreamNumbers, hstreams, hrec, hsend]

/-- All streams are there when each direction is complete. -/
theorem ServerReady.announces (h : ServerReady k .streams s) (hcomplete : s.streamsComplete) :
    ServerReady k .announce s := by
  obtain ⟨htotal, hlength⟩ := h.counts
  simp only [Server.streamsComplete, Bool.and_eq_true, decide_eq_true_eq] at hcomplete
  refine ⟨h.state, h.ctrlSck, nofun, h.ids, ?_⟩
  unfold ServerStage.Counts
  omega

/-- `TEST_END` is handled up to where the answer is sent. -/
theorem testEnd_reaches (value : UInt8) (h : ServerReady k .running s)
    (hvalue : TestState.ofByte value = .testEnd) :
    Reaches k .exchangeResults s (handleByteServer value s).1 ∧
      (handleByteServer value s).2 = testEndActions := by
  unfold handleByteServer
  rw [if_pos hvalue]
  refine ⟨Or.inl ⟨rfl, ?_, ?_⟩, rfl⟩
  · exact
      { state := rfl
        ctrlSck := h.ctrlSck
        timer := nofun
        ids := h.ids
        counts := h.counts }
  · have hread : Since ServerCall.plain s ((s.log (.controlRead (.byte value))).enter .testEnd) :=
      ((Since.refl s).log rfl).congr rfl
    exact (hread.log rfl).call rfl rfl

/-! ## Data connections -/

theorem protocolAccept_stream (o : ServerOutcomes) (bytes : List UInt8) (s : Server) :
    ∃ closed, protocolAccept (o.stream bytes) s = .socket closed := by
  unfold protocolAccept
  cases s.test.protocol with
  | udp => exact ⟨false, rfl⟩
  | tcp => exact ⟨_, rfl⟩
  | sctp =>
      unfold iperfSctpAccept iperfTcpAccept ServerOutcomes.stream
      simp only [if_true]
      cases !sameCookie s.cookie bytes with
      | true => exact ⟨true, rfl⟩
      | false => exact ⟨false, rfl⟩

theorem newServerStream_reaches (env : StreamEnv) (closed : Bool) (h : ServerReady k .streams s) :
    Reaches k .streams s (newServerStream env closed s) := by
  obtain ⟨htotal, hlength⟩ := h.counts
  have hcounted : ∀ next, Ends s ((s.countAccepted next).withErrno .ieCreateStream) ∧
      Ends s ((s.countAccepted next).withErrno .ieInitStream) := by
    intro next
    have hends : Ends s (s.countAccepted next) := by
      rcases next with - | - | -
      · exact Ends.refl s
      · exact ⟨(Since.refl s).congr rfl, rfl⟩
      · exact ⟨(Since.refl s).congr rfl, rfl⟩
    exact ⟨hends.withErrno (by decide), hends.withErrno (by decide)⟩
  unfold newServerStream
  dsimp only
  cases hnext : s.nextSender with
  | none => exact Or.inl ⟨rfl, h, Since.refl s⟩
  | some sender =>
      cases env.buffer with
      | none => exact Or.inr ⟨rfl, (hcounted _).1⟩
      | some buffer =>
          dsimp only
          split_ifs
          · exact Or.inr ⟨rfl, (hcounted _).2⟩
          · have hids := h.ids.addStream (iperfNewStream sender buffer)
            refine Or.inl ⟨rfl, ?_, ?_⟩
            · cases sender with
              | false | true =>
                refine ⟨h.state, h.ctrlSck, nofun, hids, htotal, ?_⟩
                · simp only [Server.log, Server.countAccepted, iperfAddStream, List.length_append,
                    List.length_singleton]
                  push_cast
                  omega
            · cases sender with
              | false | true => exact (Since.refl s).call rfl rfl

theorem acceptStream_reaches (b : Build) (o : ServerOutcomes) (bytes : List UInt8)
    (h : ServerReady k .streams s) : Reaches k .streams s (acceptStream b (o.stream bytes) s) := by
  obtain ⟨closed, haccept⟩ := protocolAccept_stream o bytes s
  have hnoted : Proceeds s (s.noteAccept (.socket closed)) := by
    unfold Server.noteAccept
    cases closed with
    | false => exact proceeds_log rfl
    | true => exact Proceeds.refl s
  have hcongestion : ∀ u : Server,
      Proceeds u (u.noteCongestion b (o.stream bytes).congestionUsed) := by
    intro u
    unfold Server.noteCongestion
    split_ifs
    · exact ⟨⟨rfl, rfl, rfl, rfl, rfl, rfl, rfl, rfl, rfl⟩, rfl, (Since.refl u).congr rfl⟩
    · exact Proceeds.refl u
  have hmarked : Passes s ((s.noteAccept (.socket closed)).check
      (s.test.settings.tos = 0 || (!closed && (o.stream bytes).tosSet)) .ieSetTos) :=
    hnoted.passes (passes_check _ _ (by decide))
  unfold acceptStream
  rw [haccept]
  apply hmarked.andThen_reaches h nofun
  intro u hu
  split_ifs
  · exact reaches_self hu
  · have hset := passes_of_proceeds (hcongestion u)
    exact hset.andThen_reaches hu nofun fun u hu =>
      newServerStream_reaches (o.stream bytes) closed hu

end Reaches

/-! ## Messages of the client -/

theorem setProtocol_iErrno (b : Build) (id : ProtocolId) (t : Test) :
    (t.setProtocol b id).iErrno = t.iErrno ∨ (t.setProtocol b id).iErrno = .ieProtocol := by
  unfold Test.setProtocol Test.checkSenderHasRetransmits
  split_ifs <;> simp

theorem readProtocol_iErrno (b : Build) (j : Json) (t : Test) :
    (readProtocol b j t).1.iErrno ∉ protocolErrors ∨
      ((readProtocol b j t).1.iErrno = t.iErrno ∧ (readProtocol b j t).2 = true) := by
  have hprotocol : IErrno.ieProtocol ∉ protocolErrors := by decide
  have hrefused : IErrno.ieUdpFileTransfer ∉ protocolErrors := by decide
  have hset := setProtocol_iErrno b
  unfold readProtocol
  dsimp only
  split_ifs <;> grind

/-- A message that has been read as a whole surprises nobody. -/
theorem getParameters_unsurprised (b : Build) (j : Json) (t : Test) :
    (getParameters b (some j) t).1.iErrno ∉ protocolErrors ∨
      ((getParameters b (some j) t).1.iErrno = t.iErrno ∧
        (getParameters b (some j) t).2 = true) := by
  have hrate : IErrno.ieTotalRate ∉ protocolErrors := by decide
  have hduration : IErrno.ieMaxServerTestDurationExceeded ∉ protocolErrors := by decide
  have hread := readProtocol_iErrno b j t
  rw [← readParameters_iErrno] at hread
  have hok : (readParameters b j t).2 = (readProtocol b j t).2 := rfl
  simp only [getParameters, checkLimits_eq]
  unfold Test.limitErrno
  split_ifs with hlimit hlong
  · exact Or.inl hrate
  · exact Or.inl hduration
  · rcases hread with hread | ⟨hsame, hok'⟩
    · exact Or.inl hread
    · simp only [not_or, Bool.not_eq_true] at hlimit hlong
      exact Or.inr ⟨hsame, by simp [hok, hok', hlimit, hlong]⟩

theorem complement_totalStreams {t : Test} (hpos : 0 ≤ t.numStreams) :
    t.mode.complement.streamsToRec t.numStreams + t.mode.complement.streamsToSend t.numStreams =
      t.totalStreams := by
  unfold Test.totalStreams
  cases t.mode <;> simp [Mode.complement, Mode.streamsToRec, Mode.streamsToSend] <;> omega

section Messages

variable {k : ℕ} {s : Server} {f : ℚ → ℚ}

theorem since_noteErrno {before : IErrno} {ok : Bool}
    (h : s.test.iErrno ∉ protocolErrors ∨ (s.test.iErrno = before ∧ ok = true)) :
    Since ServerCall.plain s (s.noteErrno before ok) := by
  unfold Server.noteErrno
  split_ifs with hraised
  · rcases h with hcode | ⟨hsame, hok⟩
    · exact (Since.refl s).log (by simpa [ServerCall.plain] using hcode)
    · exact absurd hraised (by simp [hsame, hok])
  · exact Since.refl s

theorem unmoved_noteErrno (s : Server) (before : IErrno) (ok : Bool) :
    Unmoved s (s.noteErrno before ok) ∧ (s.noteErrno before ok).state = s.state := by
  rcases noteErrno_eq s before ok with heq | heq <;> rw [heq] <;>
    exact ⟨⟨rfl, rfl, rfl, rfl, rfl, rfl, rfl, rfl, rfl⟩, rfl⟩

/-- The server of the parameters' test gets its mode and number of streams
from the message. -/
theorem getParameters_reaches {b c : Build} {t : Test} {auth : ClientAuth} {j : Json}
    (hclient : ConnectedClient c t) (hpos : 0 ≤ t.numStreams)
    (hsend : sendParameters c auth t = some j) (hf : CJson.KeepsIntegers f)
    (h : ServerReady t.totalStreams .params s) :
    Reaches t.totalStreams .authorize s (s.getParameters b (some (j.mapNumbers f))) := by
  obtain ⟨token, hitem⟩ := sendParameters_items hsend
  obtain ⟨hrole, hserverMode, hstreamless⟩ := h.counts
  obtain ⟨r, e, hread⟩ := getParameters_eq b (j.mapNumbers f) s.test
  have hmode : (getParameters b (some (j.mapNumbers f)) s.test).1.mode = t.mode.complement := by
    rw [hread]
    exact selectMode_sent hitem hclient hrole hserverMode
  have hnum : (getParameters b (some (j.mapNumbers f)) s.test).1.numStreams = t.numStreams := by
    rw [hread]
    exact readInt_sent hf (hitem .parallel) hclient.numStreams fun h => absurd h (by decide)
  have hcodes := getParameters_unsurprised b (j.mapNumbers f) s.test
  unfold Server.getParameters
  generalize getParameters b (some (j.mapNumbers f)) s.test = read at hmode hnum hcodes ⊢
  obtain ⟨test, ok⟩ := read
  have hsince : Since ServerCall.plain s ({ s with test := test }.noteErrno s.test.iErrno ok) := by
    have hread : Since ServerCall.plain s { s with test := test } := (Since.refl s).congr rfl
    exact hread.trans (since_noteErrno hcodes)
  obtain ⟨hkept, hstate⟩ := unmoved_noteErrno { s with test := test } s.test.iErrno ok
  cases ok with
  | true =>
      refine Or.inl ⟨rfl, ?_, hsince⟩
      exact
        { state := hstate.trans h.state
          ctrlSck := hkept.ctrlSck.trans h.ctrlSck
          timer := nofun
          ids := h.ids.congr hkept.ids
          counts := by
            apply hkept.counts
            refine ⟨?_, hstreamless⟩
            simp only at hmode hnum
            simp only [hmode, hnum]
            exact complement_totalStreams hpos }
  | false => exact Or.inr ⟨rfl, hsince.tame, hkept.length⟩

/-- The results of a client with the same stream ids are read. -/
theorem getResults_ready (hk : IsInt (k + 1)) {peer : TestSide}
    (hpeer : peer.streams.map (·.id) = streamIds k) (hf : CJson.KeepsIntegers f)
    (h : ServerReady k .results s) :
    ∃ s', s.getResults (some ((sendResults peer).mapNumbers f)) = (s', true) ∧
      ServerReady k .sendResults s' ∧ Since ServerCall.plain s s' := by
  have hlength : s.streams.length = k := h.counts
  have hids : s.streams.map (·.id) = streamIds k := hlength ▸ h.ids
  obtain ⟨hnodup, hknown⟩ := knownStreams_of_ids hk hpeer hids
  obtain ⟨side, hread, hstreams, herrno, -, -⟩ :=
    getResults_sendResults hf hnodup hknown
  have hsame : side.streams.map (·.id) = s.streams.map (·.id) := by
    rw [hstreams]
    exact map_id_absorbAll _ _
  have hnoted : (s.getResults (some ((sendResults peer).mapNumbers f))) =
      ({ s with toTestSide := side }, true) := by
    unfold Server.getResults
    rw [hread]
    dsimp only
    rw [Server.noteErrno, if_neg (by simp [herrno])]
  refine ⟨_, hnoted, ?_, (Since.refl s).congr rfl⟩
  exact
    { state := h.state
      ctrlSck := h.ctrlSck
      timer := by rintro ⟨⟩
      ids := h.ids.congr hsame
      counts := by
        have hkept : side.streams.length = s.streams.length := by
          simpa using congrArg List.length hsame
        exact hkept.trans hlength }

end Messages

/-! ## The loop -/

/-- A step of the loop that ends the test: the server stops, or its duration
timer has expired. -/
structure LoopEnds (s : Server) (p : Process) : Prop where
  since : Since ServerCall.tame s p.server
  streams : p.server.streams.length = s.streams.length ∨ .timerExpired .duration ∈ p.server.calls
  stopped : p.phase ≠ .running ∨
    (s.timer = true ∧ p.server.ctrlSck = false ∧
      p.server.state = if s.ctrlSck then .serverError else s.state)

theorem loopEnds_cleanedUp {s s' : Server} (rc : ℤ) (h : Ends s s') :
    LoopEnds s (Process.cleanedUp rc s') :=
  ⟨h.cleanupServer.since, Or.inl h.cleanupServer.length, Or.inl nofun⟩

theorem setSendState_ends {s s' : Server} (h : Ends s s') :
    Ends s (s'.setSendState true .serverError).1 := by
  unfold Server.setSendState
  simp only [if_true]
  split_ifs
  · have hentered : Since ServerCall.tame s { s' with state := .serverError } :=
      h.since.congr rfl
    exact ⟨hentered.log rfl, h.length⟩
  · exact h

theorem serverTimerProc_loop (s : Server) (htimer : s.timer = true) :
    Proceeds s (s.serverTimerProc true) ∨
      LoopEnds s ⟨s.serverTimerProc true, .running⟩ := by
  unfold Server.serverTimerProc
  dsimp only
  split_ifs
  · left
    exact ⟨⟨rfl, rfl, rfl, rfl, rfl, rfl, rfl, rfl, rfl⟩, rfl, (Since.refl s).call rfl rfl⟩
  · right
    have hexpired : ∀ calls : List ServerCall,
        (((s.log (.timerExpired .duration)).announceExpiry true).freeStreams.log
          .streamsFreed).calls = s.calls ++ .timerExpired .duration :: calls →
        (∀ call ∈ calls, call.tame = true) →
        ((s.log (.timerExpired .duration)).announceExpiry true).state =
          (if s.ctrlSck then .serverError else s.state) →
        LoopEnds s ⟨{ ((s.log (.timerExpired .duration)).announceExpiry true).freeStreams.log
          .streamsFreed with ctrlSck := false }, .running⟩ := by
      intro calls hcalls htame hstate
      refine ⟨⟨_, hcalls, ?_⟩, Or.inr ?_, Or.inr ⟨htimer, rfl, hstate⟩⟩
      · intro call hcall
        rcases List.mem_cons.mp hcall with rfl | hcall
        · rfl
        · exact htame call hcall
      · change _ ∈ Server.calls (Server.log _ _)
        rw [hcalls]
        exact List.mem_append_right _ List.mem_cons_self
    cases hctrl : s.ctrlSck with
    | true =>
        apply hexpired [.sent .serverError, .raised .ieServerTestDurationExpired, .streamsFreed]
        · simp [Server.announceExpiry, Server.setSendState, Server.log, Server.withErrno,
            Server.freeStreams, hctrl]
        · decide
        · simp [Server.announceExpiry, Server.setSendState, Server.log, Server.withErrno, hctrl]
    | false =>
        apply hexpired [.raised .ieServerTestDurationExpired, .streamsFreed]
        · simp [Server.announceExpiry, Server.setSendState, Server.log, Server.withErrno,
            Server.freeStreams, hctrl]
        · decide
        · simp [Server.announceExpiry, Server.setSendState, Server.log, Server.withErrno, hctrl]

/-- A step of the loop keeps what the script depends on, or it ends the test. -/
theorem step_allowed {b : Build} {p : Process} {event : ServerEvent} {busy : Bool}
    (hphase : p.phase = .running) (hallowed : event.allowed busy = true) :
    ((p.step b event).phase = .running ∧ Proceeds p.server (p.step b event).server ∧
        (p.server.timer = false → (p.step b event).server.timer = false)) ∨
      (busy = false ∧ LoopEnds p.server (p.step b event)) := by
  obtain ⟨s, phase⟩ := p
  dsimp only at hphase ⊢
  subst hphase
  have hstays : Proceeds s s := Proceeds.refl _
  cases event with
  | traffic update =>
      have hids : (s.streams.map (Stream.traffic update)).map (·.id) = s.streams.map (·.id) := by
        rw [List.map_map]
        rfl
      exact Or.inl ⟨rfl, ⟨⟨rfl, rfl, rfl, rfl, rfl, rfl, rfl, rfl, hids⟩, rfl,
        (Since.refl s).congr rfl⟩, id⟩
  | workerReturns i error =>
      cases error with
      | none => exact Or.inl ⟨rfl, proceeds_log rfl, id⟩
      | some code => cases hallowed
  | rateExceeded sent =>
      simp only [ServerEvent.allowed, Bool.and_eq_true, Bool.not_eq_true'] at hallowed
      obtain ⟨rfl, hbusy⟩ := hallowed
      simp only [Process.step]
      split_ifs
      · exact Or.inl ⟨rfl, hstays, id⟩
      · exact Or.inr ⟨hbusy, loopEnds_cleanedUp _
          (setSendState_ends ((Ends.refl _).withErrno (by decide)))⟩
  | expire sent =>
      simp only [ServerEvent.allowed, Bool.and_eq_true, Bool.not_eq_true'] at hallowed
      obtain ⟨rfl, hbusy⟩ := hallowed
      simp only [Process.step]
      split_ifs with htimer
      · rcases serverTimerProc_loop s htimer with hproceeds | hends
        · exact Or.inl ⟨rfl, hproceeds, fun hfalse => by rw [htimer] at hfalse; cases hfalse⟩
        · exact Or.inr ⟨hbusy, hends⟩
      · exact Or.inl ⟨rfl, hstays, id⟩
  | idleTimeout oneOff =>
      simp only [ServerEvent.allowed, Bool.not_eq_true'] at hallowed
      have hlogged : Ends s (s.log .idleRestart) := (proceeds_log rfl).ends (Ends.refl _)
      simp only [Process.step]
      split_ifs
      · exact Or.inl ⟨rfl, hstays, id⟩
      · exact Or.inr ⟨hallowed, hlogged.cleanupServer.since, Or.inl hlogged.cleanupServer.length,
          Or.inl nofun⟩
      · exact Or.inr ⟨hallowed, loopEnds_cleanedUp _ hlogged⟩
  | noMessage =>
      simp only [ServerEvent.allowed, Bool.not_eq_true'] at hallowed
      simp only [Process.step]
      split_ifs
      · exact Or.inl ⟨rfl, hstays, id⟩
      · exact Or.inr ⟨hallowed, loopEnds_cleanedUp _ ((Ends.refl _).withErrno (by decide))⟩
  | timer timer =>
      simp only [Process.step]
      split_ifs
      · exact Or.inl ⟨rfl, hstays, id⟩
      · exact Or.inl ⟨rfl, proceeds_log rfl, id⟩
  | finish jsonFinished affinityCleared =>
      simp only [ServerEvent.allowed, Bool.not_eq_true'] at hallowed
      simp only [Process.step]
      split_ifs
      · right
        refine ⟨hallowed, ?_⟩
        unfold Process.finishRun
        split_ifs
        · exact ⟨Since.refl _, Or.inl rfl, Or.inl nofun⟩
        · exact loopEnds_cleanedUp _ (Ends.refl _)
        · exact loopEnds_cleanedUp _ (Ends.refl _)
      · exact Or.inl ⟨rfl, hstays, id⟩
  | start startup => cases hallowed
  | selectFails => cases hallowed
  | turn env => cases hallowed
  | reset jsonFinished stops => cases hallowed

theorem step_stopped {b : Build} {p : Process} {event : ServerEvent} {busy : Bool}
    (hphase : p.phase ≠ .running) (hallowed : event.allowed busy = true) : p.step b event = p := by
  obtain ⟨s, phase⟩ := p
  cases phase with
  | running => exact absurd rfl hphase
  | between | returned | exited => cases event <;> first | rfl | cases hallowed

theorem ServerReady.stays {k : ℕ} {stage : ServerStage} {s s' : Server}
    (h : ServerReady k stage s) (hs : Proceeds s s') (htimer : s.timer = false → s'.timer = false) :
    ServerReady k stage s' where
  state := hs.state.trans h.state
  ctrlSck := hs.ctrlSck.trans h.ctrlSck
  timer hlistening := htimer (h.timer hlistening)
  ids := h.ids.congr hs.ids
  counts := hs.counts h.counts

end Iperf3
