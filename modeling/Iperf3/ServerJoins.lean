import Iperf3.ErrorReports
import Iperf3.Sequence
import Iperf3.Workers
import Mathlib.Tactic

/-!
# The server waits for its workers

The cleanup of the server joins every worker before it closes a socket.  On
Windows a cancellation does not end a blocking call, so a join may wait for
ever.
-/

namespace Iperf3

open Workers

/-- What a call does to the workers of the server. -/
def Workers.call (ws : Workers) : ServerCall → Workers
  | .newStream => ws.add
  | .spawned threads => ws.spawn threads
  | .workerReturned i => ws.returns i
  | .streamsClosed => ws.closeAll
  | .streamsFreed | .reset => []
  | .cleanup _ => ws.joinAll.closeAll
  | _ => ws

def serverWorkers (calls : List ServerCall) : Workers :=
  calls.foldl Workers.call []

/-- No cleanup joins a worker that may be inside a blocking call. -/
def ServerJoinsSafe (calls : List ServerCall) : Prop :=
  calls |> Always fun before call =>
    ∀ reported, call = .cleanup reported → (serverWorkers before).Safe

def Server.workers (s : Server) : Workers :=
  serverWorkers s.calls

theorem workers_log (s : Server) (call : ServerCall) :
    (s.log call).workers = s.workers.call call := by
  simp [Server.workers, serverWorkers, Server.log]

/-- A call that neither joins nor concerns workers. -/
def Workless (call : ServerCall) : Prop :=
  (∀ reported, call ≠ .cleanup reported) ∧ ∀ ws : Workers, ws.call call = ws

theorem ServerJoinsSafe.log {s : Server} (h : ServerJoinsSafe s.calls) {call : ServerCall}
    (hcall : ∀ reported, call = .cleanup reported → s.workers.Safe) :
    ServerJoinsSafe (s.log call).calls :=
  always_append.mpr ⟨h, hcall⟩

theorem ServerJoinsSafe.append {calls : List ServerCall} (h : ServerJoinsSafe calls)
    {call : ServerCall} (hcall : ∀ reported, call ≠ .cleanup reported) :
    ServerJoinsSafe (calls ++ [call]) :=
  always_append.mpr ⟨h, fun reported heq => absurd heq (hcall reported)⟩

/-- Nothing that has been joined was blocked, and nothing is. -/
structure AllSafe (s : Server) : Prop where
  joins : ServerJoinsSafe s.calls
  safe : s.workers.Safe

theorem AllSafe.congr {s u : Server} (h : AllSafe s) (hcalls : u.calls = s.calls) : AllSafe u := by
  have hworkers : u.workers = s.workers := congrArg serverWorkers hcalls
  refine ⟨hcalls ▸ h.joins, ?_⟩
  rw [hworkers]
  exact h.safe

theorem AllSafe.log {s : Server} (h : AllSafe s) {call : ServerCall}
    (hcall : (s.workers.call call).Safe) : AllSafe (s.log call) := by
  refine ⟨h.joins.log fun _ _ => h.safe, ?_⟩
  rw [workers_log]
  exact hcall

theorem AllSafe.workless {s : Server} (h : AllSafe s) {call : ServerCall} (hcall : Workless call) :
    AllSafe (s.log call) :=
  h.log ((hcall.2 s.workers).symm ▸ h.safe)

theorem workless_raised (code : IErrno) : Workless (.raised code) :=
  ⟨nofun, fun _ => rfl⟩

theorem workless_sent (state : TestState) : Workless (.sent state) :=
  ⟨nofun, fun _ => rfl⟩

theorem workless_dataAccepted (protocol : ProtocolId) : Workless (.dataAccepted protocol) :=
  ⟨nofun, fun _ => rfl⟩

theorem workless_udpListenerLost (reopened : Bool) : Workless (.udpListenerLost reopened) :=
  ⟨nofun, fun _ => rfl⟩

theorem workless_dataClosed : Workless .dataClosed :=
  ⟨nofun, fun _ => rfl⟩

theorem AllSafe.withErrno {s : Server} (h : AllSafe s) (code : IErrno) :
    AllSafe (s.withErrno code) := by
  have hset : AllSafe { s with test := { s.test with iErrno := code } } := h.congr rfl
  exact hset.workless (workless_raised code)

theorem AllSafe.cleanupServer {s : Server} (h : AllSafe s) : AllSafe s.cleanupServer :=
  AllSafe.congr (s := s.log (.cleanup s.reported)) (h.log (safe_closeAll _)) rfl

theorem AllSafe.setSendState {s : Server} (h : AllSafe s) (sent : Bool) (state : TestState) :
    AllSafe (s.setSendState sent state).1 := by
  have hentered : AllSafe (s.enter state) := h.congr rfl
  unfold Server.setSendState
  split_ifs
  · exact hentered.workless (workless_sent state)
  · exact hentered.withErrno _
  · exact h

/-! ## One turn -/

/-- What holds before each `select`. -/
structure Supervised (s : Server) : Prop where
  joins : ServerJoinsSafe s.calls
  connected : ¬ s.workers.Safe → s.ctrlSck = true
  waiting : s.state = .createStreams → s.workers.Safe ∧ s.ctrlSck = true
  idle : s.state = .iperfStart → s.workers.Safe

theorem Supervised.allSafe {s : Server} (h : Supervised s) (hsafe : s.workers.Safe) : AllSafe s :=
  ⟨h.joins, hsafe⟩

theorem AllSafe.supervised {s : Server} (h : AllSafe s) (hstate : s.state ≠ .createStreams) :
    Supervised s :=
  ⟨h.joins, fun hrisk => absurd h.safe hrisk, fun hcreate => absurd hcreate hstate,
    fun _ => h.safe⟩

/-- A server with a client in a state in which workers may run. -/
structure Working (s : Server) : Prop where
  joins : ServerJoinsSafe s.calls
  ctrlSck : s.ctrlSck = true

theorem Working.log {s : Server} (h : Working s) {call : ServerCall}
    (hcall : ∀ reported, call ≠ .cleanup reported) : Working (s.log call) :=
  ⟨h.joins.log fun reported heq => absurd heq (hcall reported), h.ctrlSck⟩

theorem Working.enter {s : Server} (h : Working s) (state : TestState) : Working (s.enter state) :=
  ⟨h.joins, h.ctrlSck⟩

theorem Working.withErrno {s : Server} (h : Working s) (code : IErrno) :
    Working (s.withErrno code) := by
  have hset : Working { s with test := { s.test with iErrno := code } } := ⟨h.joins, h.ctrlSck⟩
  exact hset.log (workless_raised code).1

theorem Working.supervised {s : Server} (h : Working s) (hcreate : s.state ≠ .createStreams)
    (hidle : s.state ≠ .iperfStart) : Supervised s :=
  ⟨h.joins, fun _ => h.ctrlSck, fun hstate => absurd hstate hcreate,
    fun hstate => absurd hstate hidle⟩

section Turn

variable {b : Build} {s : Server}

/-- A client that is being accepted. -/
structure Admitting (streams : List Stream) (s : Server) : Prop extends AllSafe s where
  ctrlSck : s.ctrlSck = true
  streams : s.streams = streams

theorem Admitting.workless {streams : List Stream} (h : Admitting streams s) {call : ServerCall}
    (hcall : Workless call) : Admitting streams (s.log call) :=
  ⟨h.toAllSafe.workless hcall, h.ctrlSck, h.streams⟩

theorem Admitting.enter {streams : List Stream} (h : Admitting streams s) (state : TestState) :
    Admitting streams (s.enter state) :=
  ⟨h.toAllSafe.congr rfl, h.ctrlSck, h.streams⟩

theorem acceptClient_supervised (accept : AcceptEnv) (h : AllSafe s) :
    Triple (fun u : Server => u = s) (acceptClient b accept)
      (fun u => Admitting s.streams u ∧ u.state = .createStreams) AllSafe := by
  have hread : Triple (Admitting s.streams) (fun u => u.getParameters b accept.message)
      (Admitting s.streams) AllSafe := by
    have hkeeps : Keeps (Admitting s.streams) (fun u => u.getParameters b accept.message) :=
      getParameters_keeps (fun code u hu => hu.workless (workless_raised code))
        (fun t u hu => ⟨hu.toAllSafe.congr rfl, hu.ctrlSck, hu.streams⟩) accept.message
    exact (Triple.of_keeps hkeeps).weaken (fun _ hu => hu) (fun _ hu => hu) fun _ hu => hu.toAllSafe
  apply triple_acceptClient (M := Admitting s.streams) (N := Admitting s.streams)
    (L := Admitting s.streams) accept
  · rintro u rfl
    have htaken : AllSafe { u with ctrlSck := true } := h.congr rfl
    exact ⟨htaken.workless ⟨nofun, fun _ => rfl⟩, rfl, rfl⟩
  · exact fun u hu => hu.ctrlSck
  · exact fun code u hu => hu.toAllSafe.withErrno code
  · exact fun cookie u hu => ⟨hu.toAllSafe.congr rfl, hu.ctrlSck, hu.streams⟩
  · exact fun u hu => (hu.enter _).workless (workless_sent _)
  · exact fun u hu => (hu.enter _).toAllSafe.withErrno _
  · exact hread
  · exact fun _ u hu => hu.workless ⟨nofun, fun _ => rfl⟩
  · exact fun _ u hu => hu.toAllSafe.workless ⟨nofun, fun _ => rfl⟩
  · exact fun _ _ => triple_protocolListen _ (fun u hu => hu.workless ⟨nofun, fun _ => rfl⟩)
      (fun code u hu => hu.toAllSafe.withErrno code)
  · exact fun u hu => ⟨hu.toAllSafe.congr rfl, hu.ctrlSck, hu.streams⟩
  · exact fun u hu => hu.ctrlSck
  · exact fun u hu => ⟨(hu.enter _).workless (workless_sent _), rfl⟩
  · exact fun _ u hu => (hu.enter _).toAllSafe.withErrno _
  · exact fun _ u _ hu => hu.1.toAllSafe.withErrno _

theorem handleMessageServer_supervised (message : MessageEnv) :
    Triple (fun u : Server => Working u ∧
        (¬ u.workers.Safe → message.read = .closed ∨ message.Understood))
      (handleMessageServer message) (fun u => Supervised u ∧ u.state ≠ .createStreams) AllSafe := by
  have hlogged : ∀ (read : ControlRead) u, Working u → Working (u.log (.controlRead read)) :=
    fun read u hu => hu.log nofun
  have hsafe : ∀ (code : IErrno) (u : Server), ServerJoinsSafe u.calls → u.workers.Safe →
      AllSafe (u.withErrno code) :=
    fun code u hjoins hworkers => AllSafe.withErrno ⟨hjoins, hworkers⟩ code
  have hclosed : ∀ u : Server, Working u → AllSafe (u.log .streamsClosed) ∧ u.ctrlSck = true := by
    intro u hu
    refine ⟨⟨hu.joins.log nofun, ?_⟩, hu.ctrlSck⟩
    rw [workers_log]
    exact safe_closeAll _
  apply triple_handleMessageServer message
  · rintro - u ⟨hu, -⟩
    have hended := ((hlogged .closed u hu).withErrno .ieCtrlClose).enter .iperfDone
    exact ⟨hended.supervised nofun nofun, nofun⟩
  · rintro hread u ⟨hu, htold⟩
    apply hsafe _ _ (hlogged .failed u hu).joins
    · by_contra hrisk
      rw [workers_log] at hrisk
      rcases htold hrisk with hclosed | ⟨value, hbyte, -⟩
      · exact absurd (hread.symm.trans hclosed) (by decide)
      · exact absurd (hread.symm.trans hbyte) (by simp)
  · rintro value state - - hquiet u ⟨hu, -⟩
    have hentered := (hlogged (.byte value) u hu).enter state
    rcases hquiet with rfl | rfl
    · exact ⟨hentered.supervised nofun nofun, nofun⟩
    · exact ⟨hentered.supervised nofun nofun, nofun⟩
  · intro value _ _
    have hread : Triple (fun u : Server => AllSafe u ∧ u.ctrlSck = true)
        (fun u => u.getResults message.results) (fun u => AllSafe u ∧ u.ctrlSck = true)
        AllSafe := by
      rintro u ⟨hu, hctrl⟩
      have hnoted : AllSafe (u.getResults message.results).1 ∧
          (u.getResults message.results).1.ctrlSck = true := by
        have hresults : AllSafe
            { u with toTestSide := (getResults message.results u.toTestSide).1 } := hu.congr rfl
        unfold Server.getResults Server.noteErrno
        dsimp only
        split_ifs
        · exact ⟨hresults.workless (workless_raised _), hctrl⟩
        · exact ⟨hresults, hctrl⟩
      exact ⟨fun _ => hnoted, fun _ => hnoted.1⟩
    have hend : Triple Working (handleTestEnd message)
        (fun u => Supervised u ∧ u.state ≠ .createStreams) AllSafe := by
      apply triple_handleTestEnd (T := fun u : Server => AllSafe u ∧ u.ctrlSck = true) message
      · exact fun u hu => hclosed { u with done := true } ⟨hu.joins, hu.ctrlSck⟩
      · exact fun u hu => hu.2
      · exact fun u hu => ⟨AllSafe.workless (s := u.enter .exchangeResults) (hu.1.congr rfl)
          (workless_sent _), hu.2⟩
      · exact fun state u hu => AllSafe.withErrno (s := u.enter state) (hu.1.congr rfl) _
      · exact hread
      · exact fun u hu => hu.1.withErrno _
      · intro u hu
        have hsent : AllSafe ((u.enter .displayResults).log (.sent .displayResults)) :=
          AllSafe.workless (s := u.enter .displayResults) (hu.1.congr rfl) (workless_sent _)
        exact ⟨hsent.supervised nofun, nofun⟩
    refine Triple.before (fun u hu => ?_) hend
    exact ((hlogged (.byte value) u hu.1).enter .testEnd).log nofun
  · rintro value - - u ⟨hu, -⟩
    have hterminated := ((hlogged (.byte value) u hu).enter .clientTerminate).withErrno
      .ieClientTerm
    have hended := (hclosed _ hterminated).1
    exact ⟨AllSafe.supervised (hended.congr rfl) nofun, nofun⟩
  · rintro value hbyte hunknown u ⟨hu, htold⟩
    apply hsafe _ _ ((hlogged (.byte value) u hu).enter _).joins
    · by_contra hrisk
      have hsame : ((u.log (.controlRead (.byte value))).enter (TestState.ofByte value)).workers =
          u.workers := workers_log u (.controlRead (.byte value))
      rw [hsame] at hrisk
      rcases htold hrisk with hend | hknown
      · exact absurd (hbyte.symm.trans hend) (by simp)
      · exact hunknown hknown

/-- A data connection adds a stream or none. -/
structure Receiving (count : ℕ) (s : Server) : Prop extends AllSafe s where
  ctrlSck : s.ctrlSck = true
  state : s.state = .createStreams
  streams : s.streams.length ≤ count

theorem acceptStream_supervised {count : ℕ} (data : StreamEnv) :
    Triple (Receiving count) (acceptStream b data) (Receiving (count + 1)) AllSafe := by
  have hnote : ∀ outcome u, AllSafe u → AllSafe (u.noteAccept outcome) := by
    intro outcome u hu
    unfold Server.noteAccept
    split
    · exact hu.workless (workless_dataAccepted _)
    · exact hu
    · split_ifs
      · exact hu.workless (workless_udpListenerLost false)
      · exact hu.workless (workless_udpListenerLost true)
      · exact hu
      · exact hu
  have hstream : ∀ closed, Triple (Receiving count) (newServerStream data closed)
      (Receiving (count + 1)) AllSafe := by
    intro closed u hu
    have hcounted : Receiving count (u.countAccepted u.nextSender) ∧
        (u.countAccepted u.nextSender).streams = u.streams := by
      unfold Server.countAccepted
      split
      · exact ⟨⟨hu.toAllSafe.congr rfl, hu.ctrlSck, hu.state, hu.streams⟩, rfl⟩
      · exact ⟨⟨hu.toAllSafe.congr rfl, hu.ctrlSck, hu.state, hu.streams⟩, rfl⟩
      · exact ⟨hu, rfl⟩
    obtain ⟨hcount, hstreams⟩ := hcounted
    unfold newServerStream
    dsimp only
    split
    · exact ⟨fun _ => ⟨hcount.toAllSafe, hcount.ctrlSck, hcount.state,
        Nat.le_succ_of_le hcount.streams⟩, by rintro ⟨⟩⟩
    · exact ⟨by rintro ⟨⟩, fun _ => hcount.toAllSafe.withErrno _⟩
    · rename_i sender buffer _ _
      split_ifs
      · exact ⟨by rintro ⟨⟩, fun _ => hcount.toAllSafe.withErrno _⟩
      · have hadded : AllSafe (Server.log .newStream { u.countAccepted u.nextSender with
            streams := iperfAddStream u.streams (iperfNewStream sender buffer) }) := by
          have hsame : AllSafe { u.countAccepted u.nextSender with
              streams := iperfAddStream u.streams (iperfNewStream sender buffer) } :=
            hcount.toAllSafe.congr rfl
          exact hsame.log hsame.safe.add
        have hlength := hu.streams
        refine ⟨fun _ => ⟨hadded, hcount.ctrlSck, hcount.state, ?_⟩, by rintro ⟨⟩⟩
        simp only [Server.log, iperfAddStream, List.length_append, List.length_singleton]
        omega
  apply triple_acceptStream (M := fun _ => Receiving count) data
  · exact fun code u hu => (hnote _ u hu.toAllSafe).withErrno _
  · intro closed u hu
    obtain ⟨hstate, hctrl⟩ := noteAccept_keeps_state (.socket closed) u
    refine ⟨hnote _ u hu.toAllSafe, hctrl.trans hu.ctrlSck, hstate.trans hu.state, ?_⟩
    cases closed <;> exact hu.streams
  · exact fun _ u hu => hu.toAllSafe.withErrno _
  · exact fun u hu => ⟨hu.toAllSafe, hu.ctrlSck, hu.state, Nat.le_succ_of_le hu.streams⟩
  · intro _ code u hu
    have hclosed : AllSafe (u.log .dataClosed) := hu.toAllSafe.workless workless_dataClosed
    exact hclosed.cleanupServer.withErrno _
  · exact fun _ name u hu => ⟨hu.toAllSafe.congr rfl, hu.ctrlSck, hu.state, hu.streams⟩
  · exact hstream

/-! ### The start of a test -/

/-- The test runs as far as the main thread is concerned. -/
structure Ready (count : ℕ) (s : Server) : Prop extends AllSafe s where
  ctrlSck : s.ctrlSck = true
  state : s.state = .testRunning
  streams : s.streams.length ≤ count

theorem startTest_ready {count : ℕ} (start : StartEnv) :
    Triple (Receiving count) (startTest start) (Ready count) AllSafe := by
  have hstart : ∀ u, Receiving count u →
      Admitting u.streams (u.closeProtListener.log
        (.streamsComplete u.test.protocol u.reopensListener start.relistened)) := by
    intro u hu
    have hclosed : Admitting u.streams u.closeProtListener :=
      ⟨hu.toAllSafe.congr rfl, hu.ctrlSck, rfl⟩
    exact hclosed.workless ⟨nofun, fun _ => rfl⟩
  let Short : Server → Prop := fun u =>
    AllSafe u ∧ u.ctrlSck = true ∧ u.streams.length ≤ count
  have hworkless : ∀ (call : ServerCall) u, Workless call → Short u → Short (u.log call) :=
    fun call u hcall hu => ⟨hu.1.workless hcall, hu.2⟩
  have henter : ∀ state u, Short u → Short (u.enter state) :=
    fun state u hu => ⟨hu.1.congr rfl, hu.2⟩
  have htimers : Keeps Short (fun u => createServerTimers start (u.stampStreams start.now)) := by
    rintro u ⟨hu, hctrl, hlength⟩
    have hstamped : Short (u.stampStreams start.now) :=
      ⟨hu.congr rfl, hctrl, (List.length_map _).trans_le hlength⟩
    exact createServerTimers_keeps (fun code _ _ hs => ⟨hs.1.withErrno code, hs.2⟩)
      (fun _ u hs => hworkless _ u ⟨nofun, fun _ => rfl⟩ hs)
      (fun _ _ u hs => hworkless _ u ⟨nofun, fun _ => rfl⟩ hs)
      (fun _ _ _ hs => ⟨hs.1.congr rfl, hs.2⟩) start _ hstamped
  apply triple_startTest (N := Short) (T := Short) start
  · intro u hu _
    have hclosed := hstart u hu
    exact ⟨hclosed.toAllSafe, hclosed.ctrlSck, hu.streams⟩
  · exact fun u hu _ => (hstart u hu).toAllSafe.cleanupServer.withErrno _
  · exact fun u hu => hu.2.1
  · exact fun u hu => hu.1.cleanupServer.withErrno _
  · exact fun u hu => hworkless _ _ (workless_sent _) (henter _ u hu)
  · exact fun u hu => (henter _ u hu).1.withErrno _
  · exact fun u hu => hu.1.withErrno _
  · exact (Triple.of_keeps htimers).weaken (fun _ hu => hu) (fun _ hu => hu) fun _ hu => hu.1
  · exact fun u hu => hu.2.1
  · intro u hu
    have hrunning := hworkless _ _ (workless_sent .testRunning) (henter .testRunning u hu)
    exact ⟨hrunning.1, hrunning.2.1, rfl, hrunning.2.2⟩
  · exact fun u hu => (henter _ u hu).1.withErrno _

/-- If a worker is created, all of them are, and the attributes are destroyed. -/
def StartEnv.CreatesAll (start : StartEnv) (count : ℕ) : Prop :=
  start.threads = 0 ∨ count ≤ start.threads ∧ start.attrDestroy = true

theorem createWorkers_supervised {count : ℕ} {start : StartEnv}
    (hall : start.attrInit = true → start.CreatesAll count) :
    Triple (Ready count) (createWorkers start)
      (fun u => Supervised u ∧ u.state ≠ .createStreams) AllSafe := by
  let Mid : Server → Prop := fun u =>
    AllSafe u ∧ u.state ≠ .createStreams ∨
      start.attrDestroy = true ∧ Working u ∧ u.state = .testRunning
  have hspawned : Triple (Ready count) (fun s =>
      ((s.tolerate start.attrInit .iePthreadAttrInit).spawn start.threads).check
        (s.streams.length ≤ start.threads) .iePthreadCreate) Mid AllSafe := by
    intro u hu
    have hspawn : ∀ v : Server, AllSafe v → (v.workers.spawn start.threads).Safe →
        AllSafe (v.spawn start.threads) :=
      fun v hv hsafe =>
        AllSafe.congr (s := v.log (.spawned start.threads)) (hv.log hsafe) rfl
    have hquiet : ∀ (v : Server) (ok : Bool), AllSafe v → v.state ≠ .createStreams →
        ((v.check ok .iePthreadCreate).2 = true → Mid (v.check ok .iePthreadCreate).1) ∧
          ((v.check ok .iePthreadCreate).2 = false → AllSafe (v.check ok .iePthreadCreate).1) := by
      intro v ok hv hstate
      cases ok with
      | true => exact ⟨fun _ => Or.inl ⟨hv, hstate⟩, nofun⟩
      | false => exact ⟨nofun, fun _ => hv.withErrno _⟩
    have hrunning : u.state ≠ .createStreams := by simp [hu.state]
    dsimp only
    unfold Server.tolerate
    split_ifs with hinit
    · rcases hall hinit with hzero | ⟨hcount, hdestroyed⟩
      · have hnone : AllSafe (u.spawn start.threads) := by
          apply hspawn u hu.toAllSafe
          rw [hzero, spawn_zero]
          exact hu.safe
        exact hquiet _ _ hnone hrunning
      · have henough : u.streams.length ≤ start.threads := hu.streams.trans hcount
        have hcall : ∀ reported, ServerCall.spawned start.threads ≠ .cleanup reported := nofun
        have hworking : Working (u.spawn start.threads) :=
          ⟨hu.joins.append hcall, hu.ctrlSck⟩
        unfold Server.check
        rw [if_pos (by simpa using henough)]
        exact ⟨fun _ => Or.inr ⟨hdestroyed, hworking, hu.state⟩, nofun⟩
    · -- the sockets are closed before the workers are created
      have hcleaned : AllSafe (u.withErrno .iePthreadAttrInit).cleanupServer :=
        (hu.toAllSafe.withErrno _).cleanupServer
      have hclosed : (u.withErrno .iePthreadAttrInit).cleanupServer.workers.Closed := by
        have hworkers := workers_log (u.withErrno .iePthreadAttrInit)
          (.cleanup (u.withErrno .iePthreadAttrInit).reported)
        have hsame : (u.withErrno .iePthreadAttrInit).cleanupServer.workers =
            ((u.withErrno .iePthreadAttrInit).log
              (.cleanup (u.withErrno .iePthreadAttrInit).reported)).workers := rfl
        rw [hsame, hworkers]
        exact closed_closeAll _
      exact hquiet _ _ (hspawn _ hcleaned (hclosed.spawn _).safe)
        (cleanupServer_left (fun hcreate => absurd hcreate hrunning) (by decide) (by decide))
  have hdestroyed : Triple Mid
      (fun s => (s.tolerate start.attrDestroy .iePthreadAttrDestroy, true))
      (fun u => Supervised u ∧ u.state ≠ .createStreams) AllSafe := by
    refine Triple.of_update fun u hu => ?_
    unfold Server.tolerate
    rcases hu with ⟨hu, hstate⟩ | ⟨hok, hu, hstate⟩
    · split_ifs
      · exact ⟨hu.supervised hstate, hstate⟩
      · have hleft : (u.withErrno .iePthreadAttrDestroy).cleanupServer.state ≠ .createStreams :=
          cleanupServer_left (fun hcreate => absurd hcreate hstate) (by decide) (by decide)
        exact ⟨((hu.withErrno _).cleanupServer).supervised hleft, hleft⟩
    · rw [if_pos hok]
      exact ⟨hu.supervised (by simp [hstate]) (by simp [hstate]), by simp [hstate]⟩
  exact hspawned.andThen hdestroyed

/-! ### The duration timer -/

/-- The streams are freed, and nobody waits for their workers. -/
theorem serverTimerProc_supervised (h : Supervised s) (sent : Bool) :
    Supervised (s.serverTimerProc sent) := by
  have hexpired : ServerJoinsSafe (s.log (.timerExpired .duration)).calls := h.joins.log nofun
  have hworkers : (s.log (.timerExpired .duration)).workers = s.workers :=
    workers_log s (.timerExpired .duration)
  have hraised : ∀ (code : IErrno) (u : Server), ServerJoinsSafe u.calls →
      ServerJoinsSafe (u.withErrno code).calls :=
    fun code u hu => hu.append (workless_raised code).1
  have hannounced : ServerJoinsSafe
      ((s.log (.timerExpired .duration)).announceExpiry sent).calls := by
    have hsent : ServerJoinsSafe (Server.setSendState sent .serverError
        { s.log (.timerExpired .duration) with done := true, timer := false }).1.calls := by
      unfold Server.setSendState
      split_ifs
      · exact hexpired.append (workless_sent .serverError).1
      · exact hraised _ _ hexpired
      · exact hexpired
    unfold Server.announceExpiry
    dsimp only
    split_ifs
    · exact hraised _ _ hsent
    · exact hsent
  have hleft := announceExpiry_left (s := s.log (.timerExpired .duration))
    (fun hcreate => (h.waiting hcreate).2) (by decide) sent
  unfold Server.serverTimerProc
  dsimp only
  split_ifs
  · exact ⟨hexpired, fun hrisk => h.connected (hworkers ▸ hrisk),
      fun hcreate => ⟨hworkers ▸ (h.waiting hcreate).1, (h.waiting hcreate).2⟩,
      fun hidle => hworkers ▸ h.idle hidle⟩
  · have hfreed : AllSafe ((((s.log (.timerExpired .duration)).announceExpiry
        sent).freeStreams).log .streamsFreed) := by
      refine ⟨ServerJoinsSafe.log (s := Server.freeStreams _) hannounced nofun, ?_⟩
      rw [workers_log]
      exact safe_nil
    exact AllSafe.supervised (hfreed.congr rfl) hleft

end Turn

/-! ## Runs -/

/-- A message after which the server goes on. -/
def MessageEnv.GoesOn (message : MessageEnv) : Prop :=
  message.read = .closed ∨ message.Understood

/-- While a worker may be blocked nothing fails, and if a worker is created
then all are. -/
def ServerJoinsDone (s : Server) : ServerEvent → Prop
  | .turn env =>
      (¬ s.workers.Safe →
        (∀ accept, env.listener = some accept → accept.accepted = true) ∧
          ∀ message, env.control = some message → message.GoesOn) ∧
      (env.start.attrInit = true → env.start.CreatesAll (s.streams.length + 1))
  | .rateExceeded _ | .selectFails => s.state = .iperfDone ∨ s.workers.Safe
  | .noMessage => s.state = .iperfDone ∨ s.test.mode = .sender ∨ s.workers.Safe
  | .finish jsonFinished _ =>
      s.state = .iperfDone → s.jsonOutput = true ∧ jsonFinished = false ∨ s.workers.Safe
  | _ => True

theorem serverTurn_supervised (b : Build) {env : TurnEnv} {s : Server} (h : Supervised s)
    (hC : ServerJoinsDone s (.turn env)) :
    ((serverTurn b env s).2 = true → Supervised (serverTurn b env s).1) ∧
      ((serverTurn b env s).2 = false → AllSafe (serverTurn b env s).1) := by
  obtain ⟨hquiet, hall⟩ := hC
  -- the streams that wait for workers are those of before, and perhaps one more
  let Within : Server → Prop := fun u =>
    Supervised u ∧ (u.state = .createStreams → u.streams.length ≤ s.streams.length + 1)
  have hturn : ((serverTurn b env s).2 = true → Within (serverTurn b env s).1) ∧
      ((serverTurn b env s).2 = false → AllSafe (serverTurn b env s).1) := by
    apply serverTurn_rule (S := Within) (E := AllSafe) ⟨h, fun _ => Nat.le_succ _⟩
    · intro _ accept hlistener hrefused hs
      have hsafe : s.workers.Safe := by
        by_contra hrisk
        exact absurd (((hquiet hrisk).1 accept hlistener).symm.trans hrefused) (by decide)
      exact (h.allSafe hsafe).withErrno _
    · exact fun hs => ⟨⟨hs.1.joins, hs.1.connected, hs.1.waiting, hs.1.idle⟩, hs.2⟩
    · intro hfree _ accept _ _
      have hsafe : s.workers.Safe := by
        by_contra hrisk
        exact absurd ((h.connected hrisk).symm.trans hfree) (by decide)
      refine (acceptClient_supervised accept (h.allSafe hsafe)).weaken (fun _ hu => hu) ?_
        fun _ hu => hu
      rintro u ⟨hu, hstate⟩
      have hnumbered : AllSafe (setStreamNumbers u) := hu.toAllSafe.congr rfl
      exact ⟨⟨hnumbered.joins, fun hrisk => absurd hnumbered.safe hrisk,
        fun _ => ⟨hnumbered.safe, hu.ctrlSck⟩, fun _ => hnumbered.safe⟩,
        fun _ => hu.streams ▸ Nat.le_succ _⟩
    · intro hctrl message hmessage
      refine (handleMessageServer_supervised message).weaken ?_
        (fun u hu => ⟨hu.1, fun hstate => absurd hstate hu.2⟩) fun _ hu => hu
      rintro u ⟨hu, rfl | rfl⟩
      · exact ⟨⟨h.joins, hctrl⟩, fun hrisk => (hquiet hrisk).2 message hmessage⟩
      · exact ⟨⟨h.joins, hctrl⟩, fun hrisk => (hquiet hrisk).2 message hmessage⟩
    · intro hstate data _
      obtain ⟨hsafe, hctrl⟩ := h.waiting hstate
      have htaken : Triple (Receiving s.streams.length) (acceptStream b data)
          (Receiving (s.streams.length + 1)) AllSafe := acceptStream_supervised data
      refine htaken.weaken ?_ ?_ fun _ hu => hu
      · rintro u rfl
        exact ⟨h.allSafe hsafe, hctrl, hstate, le_rfl⟩
      · intro u hu
        exact ⟨⟨hu.joins, fun hrisk => absurd hu.safe hrisk, fun _ => ⟨hu.safe, hu.ctrlSck⟩,
          fun _ => hu.safe⟩, fun _ => hu.streams⟩
    · refine ((startTest_ready env.start).andThen (createWorkers_supervised hall)).weaken ?_
        (fun u hu => ⟨hu.1, fun hstate => absurd hstate hu.2⟩) fun _ hu => hu
      rintro u ⟨⟨hu, hlength⟩, hstate⟩
      obtain ⟨hsafe, hctrl⟩ := hu.waiting hstate
      exact ⟨hu.allSafe hsafe, hctrl, hstate, hlength hstate⟩
  exact ⟨fun hok => (hturn.1 hok).1, hturn.2⟩

theorem serverJoinRules (b : Build) :
    ServerRules b ServerJoinsDone Supervised AllSafe
      (fun s => ServerJoinsSafe s.calls) AllSafe where
  listens s h := AllSafe.supervised
    (AllSafe.workless (s := { s with
      state := .iperfStart, recStreamsAccepted := 0, sendStreamsAccepted := 0
      streamsToRec := 0, streamsToSend := 0 }) (h.congr rfl) ⟨nofun, fun _ => rfl⟩) nofun
  noLogfile s h := h.joins
  startFails code s h := h.withErrno code
  traffic update s h := ⟨h.joins, h.connected, h.waiting, h.idle⟩
  worker i error s h := by
    have hreturned : ((s.checkError error).1.log (.workerReturned i)).workers =
        s.workers.returns i := by
      rw [workers_log]
      cases error with
      | none => rfl
      | some code => exact congrArg (returns i) (workers_log _ (.raised code))
    have hjoins : ServerJoinsSafe ((s.checkError error).1.log (.workerReturned i)).calls := by
      cases error with
      | none => exact h.joins.append nofun
      | some code => exact (h.joins.append (workless_raised code).1).append nofun
    have hsafe : s.workers.Safe →
        ((s.checkError error).1.log (.workerReturned i)).workers.Safe :=
      fun hsafe => hreturned.symm ▸ hsafe.returns i
    cases error <;> exact ⟨hjoins, fun hrisk => h.connected fun hs => hrisk (hsafe hs),
      fun hcreate => ⟨hsafe (h.waiting hcreate).1, (h.waiting hcreate).2⟩,
      fun hidle => hsafe (h.idle hidle)⟩
  timer timer s hduration h := by
    have hworkers : (s.log (.timerExpired timer)).workers = s.workers :=
      workers_log s (.timerExpired timer)
    exact ⟨h.joins.log nofun, fun hrisk => h.connected (hworkers ▸ hrisk),
      fun hcreate => hworkers ▸ h.waiting hcreate, fun hidle => hworkers ▸ h.idle hidle⟩
  expire sent s hC htimer h := serverTimerProc_supervised h sent
  turn env s hC hdone h := serverTurn_supervised b h hC
  rateExceeded sent s hC hdone h :=
    ((h.allSafe (hC.resolve_left hdone)).withErrno _).setSendState sent _
  selectFails s hC hdone h := h.allSafe (hC.resolve_left hdone)
  idleTimeout oneOff s hC hstart h := (h.allSafe (h.idle hstart)).workless ⟨nofun, fun _ => rfl⟩
  noMessage s hC hquiet h := by
    simp only [not_or] at hquiet
    have hsafe : s.workers.Safe := (hC.resolve_left hquiet.2.1).resolve_left hquiet.2.2.1
    exact (h.allSafe hsafe).withErrno _
  finish jsonFinished affinityCleared s hC hjson hdone h := by
    have hsafe : s.workers.Safe :=
      (hC hdone).resolve_left fun hfails => hjson ⟨hfails.1, by simp [hfails.2]⟩
    exact h.allSafe hsafe
  noJson affinityCleared s hC hjson hdone h := h.joins
  cleanup s h := h.cleanupServer.joins
  late s h := h.append (workless_raised _).1
  reset s h := by
    refine ⟨ServerJoinsSafe.log (s := s) h nofun, ?_⟩
    have hworkers : (Process.resetTest b s).workers = [] := workers_log s .reset
    rw [hworkers]
    exact safe_nil
  exits s h := h.joins

end Iperf3
